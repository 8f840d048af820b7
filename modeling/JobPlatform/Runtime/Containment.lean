import JobPlatform.Foundation.Transcript
import JobPlatform.Runtime.World
import JobPlatform.Store.Undisturbed

/-!
Contract: what one message can do to the worker that consumes it.

Owns:
- `DatabaseAnswers`, that a repository call ran as written;
- the exits of `consume_one_message`, call by call, for any replies of the other services and
  anything other workers do in between;
- the condition under which no exception escapes.
-/

namespace JobPlatform.Runtime

open JobPlatform.Foundation JobPlatform.Foundation.ThreadSystem JobPlatform.Store
open JobPlatform.Store.Repository (ClaimedJob)

/-- A call of a platform thread. -/
abbrev PlatformExchange := Exchange platform World

/-- The database answered: a repository method ran to its end, on what was committed before it. -/
def DatabaseAnswers : PlatformExchange → Prop
  | ⟨before, .repository call, reply, _⟩ => ∃ inputs, reply = (call.run inputs [] before.db).1
  | _ => True

/-- The `get_job` calls, with the states they read. -/
def lookups (exchanges : List PlatformExchange) : List (World × Uuid) :=
  exchanges.filterMap fun
    | ⟨before, .repository (.getJob jobId), _, _⟩ => some (before, jobId)
    | _ => none

/-- The call is a deletion of a message, and raised. -/
def IsFailedDelete : PlatformExchange → Prop
  | ⟨_, .deleteMessage _, .error _, _⟩ => True
  | _ => False

/-- The job that was looked up does not exist. -/
def JobMissing (exchanges : List PlatformExchange) : Prop :=
  ∃ lookup ∈ lookups exchanges, lookup.1.db.job? lookup.2 = none

/-- The job that was looked up is completed, and the deletion of its message raised. -/
def DuplicateNotDeleted (exchanges : List PlatformExchange) : Prop :=
  (∃ lookup ∈ lookups exchanges, lookup.1.db.Completed lookup.2) ∧
    ∃ exchange ∈ exchanges, IsFailedDelete exchange

@[simp] theorem lookups_append (first rest : List PlatformExchange) :
    lookups (first ++ rest) = lookups first ++ lookups rest :=
  List.filterMap_append

/-- The call is not a lookup. -/
def NoLookup (call : PlatformCall) : Prop := ∀ jobId, call ≠ .repository (.getJob jobId)

theorem lookups_eq_nil {exchanges : List PlatformExchange}
    (none : ∀ exchange ∈ exchanges, NoLookup exchange.call) : lookups exchanges = [] := by
  rw [lookups, List.filterMap_eq_nil_iff]
  intro exchange member
  have isNot := none exchange member
  obtain ⟨before, call, reply, after⟩ := exchange
  cases call with
  | repository call =>
      cases call with
      | getJob jobId => exact absurd rfl (isNot jobId)
      | _ => rfl
  | _ => rfl

section Exits

variable {isCloud : Bool} {t : ThreadId} {exchanges : List PlatformExchange}

/-- The thread made the calls, and the database answered. -/
structure Answered (isCloud : Bool) (t : ThreadId) (exchanges : List PlatformExchange) : Prop where
  steps : ∀ exchange ∈ exchanges, (jobPlatform isCloud).Steps t exchange
  answers : ∀ exchange ∈ exchanges, DatabaseAnswers exchange

theorem steps_performed {before after : World} {call : PlatformCall} {reply : platform.Reply call}
    (step : (jobPlatform isCloud).Steps t ⟨before, call, reply, after⟩) :
    ∃ done, before.Perform call reply done ∧ after = done.logged t call reply := step

theorem Answered.left {first rest : List PlatformExchange}
    (answered : Answered isCloud t (first ++ rest)) : Answered isCloud t first :=
  ⟨fun exchange member => answered.steps exchange (List.mem_append_left _ member),
    fun exchange member => answered.answers exchange (List.mem_append_left _ member)⟩

theorem Answered.right {first rest : List PlatformExchange}
    (answered : Answered isCloud t (first ++ rest)) : Answered isCloud t rest :=
  ⟨fun exchange member => answered.steps exchange (List.mem_append_right _ member),
    fun exchange member => answered.answers exchange (List.mem_append_right _ member)⟩

/-- `fail_job` returns. -/
theorem failJob_returns {jobId processingToken : Uuid} {error : String} {result : Except Exn Bool}
    (ran : Transcript (repository (.failJob jobId processingToken error)).run exchanges result)
    (answered : Answered isCloud t exchanges) : ∃ failed, result = .ok failed := by
  obtain ⟨before, after, rfl⟩ := transcript_perform ran
  obtain ⟨inputs, isReply⟩ := answered.answers _ List.mem_cons_self
  exact ⟨_, isReply⟩

/-- `mark_job_processing` returns. -/
theorem markJobProcessing_answers {jobId : Uuid} {leaseSeconds : Int}
    {result : Except Exn (Option Repository.ClaimedJob)}
    (ran : Transcript (repository (.markJobProcessing jobId leaseSeconds)).run exchanges result)
    (answered : Answered isCloud t exchanges) : ∃ claimed, result = .ok claimed := by
  obtain ⟨before, after, rfl⟩ := transcript_perform ran
  obtain ⟨inputs, isReply⟩ := answered.answers _ List.mem_cons_self
  exact ⟨_, isReply⟩

/-- `get_job` raises exactly when the job does not exist, and returns its row otherwise. -/
theorem getJob_answers {jobId : Uuid} {result : Except Exn Repository.JobView}
    (ran : Transcript (repository (.getJob jobId)).run exchanges result)
    (answered : Answered isCloud t exchanges) : ∃ before, lookups exchanges = [(before, jobId)] ∧
      ((before.db.job? jobId = none ∧ ∃ error, result = .error error) ∨
        ∃ view, before.db.job? jobId = some view.job ∧ result = .ok view) := by
  obtain ⟨before, after, rfl⟩ := transcript_perform ran
  obtain ⟨inputs, isReply⟩ := answered.answers _ List.mem_cons_self
  refine ⟨before, rfl, ?_⟩
  cases found : before.db.job? jobId with
  | none =>
      rw [getJob_raises inputs found] at isReply
      exact .inl ⟨rfl, _, isReply⟩
  | some row =>
      obtain ⟨view, returns, isJob⟩ := getJob_returns inputs found
      rw [returns] at isReply
      exact .inr ⟨view, isJob ▸ rfl, isReply⟩

/-- What `claim_job` ends with, by what its lookup read. -/
inductive ClaimExit (jobId : Uuid) (exchanges : List PlatformExchange) :
    Except Exn ClaimOutcome → Prop where
  | claimed (job : ClaimedJob) (unread : lookups exchanges = []) :
      ClaimExit jobId exchanges (.ok (.claimed job))
  | duplicate {before : World} (read : lookups exchanges = [(before, jobId)])
      (completed : before.db.Completed jobId) :
      ClaimExit jobId exchanges (.ok (.status .duplicateCompleted))
  | refused {before : World} (read : lookups exchanges = [(before, jobId)])
      (present : before.db.job? jobId ≠ none) (open' : ¬ before.db.Completed jobId) :
      ClaimExit jobId exchanges (.ok (.status .inProgressNotOwned))
  | missing {before : World} (read : lookups exchanges = [(before, jobId)])
      (absent : before.db.job? jobId = none) (error : Exn) :
      ClaimExit jobId exchanges (.error error)

/-- Recording metrics before a return changes nothing about it. -/
theorem record_then {α : Type} {metric : Metric} {labels : List String} {next : Run α}
    {result : Except Exn α} (ran : Transcript (record metric labels >>= fun _ => next).run exchanges
      result) (steps : ∀ exchange ∈ exchanges, (jobPlatform isCloud).Steps t exchange) :
    ∃ recorded rest, exchanges = recorded :: rest ∧ recorded.call = .record metric labels ∧
      Transcript next.run rest result := by
  rcases transcript_performBind ran with
    ⟨before, value, after, rest, rfl, continued⟩ | ⟨before, error, after, rfl, _⟩
  · exact ⟨_, rest, rfl, rfl, continued⟩
  · obtain ⟨done, performed, _⟩ := steps_performed (steps _ List.mem_cons_self)
    cases performed

theorem lookups_cons {recorded : PlatformExchange} {metric : Metric} {labels : List String}
    (isRecord : recorded.call = .record metric labels) (rest : List PlatformExchange) :
    lookups (recorded :: rest) = lookups rest := by
  obtain ⟨before, call, reply, after⟩ := recorded
  cases isRecord
  rfl

theorem claimJob_exits {jobId : Uuid} {leaseSeconds : Int} {result : Except Exn ClaimOutcome}
    (ran : Transcript (claimJob jobId leaseSeconds).run exchanges result)
    (answered : Answered isCloud t exchanges) : ClaimExit jobId exchanges result := by
  unfold claimJob at ran
  rcases transcript_codeBind ran with
    ⟨marked, claimed, rest, rfl, marking, continued⟩ | ⟨error, _, raised⟩
  · have unread : lookups marked = [] := by
      obtain ⟨before, after, rfl⟩ := transcript_perform marking
      rfl
    cases claimed with
    | some job =>
        obtain ⟨recorded, nothing, rfl, isRecord, ended⟩ :=
          record_then continued answered.right.steps
        obtain ⟨rfl, rfl⟩ := transcript_pure ended
        exact .claimed job (by rw [lookups_append, unread, lookups_cons isRecord]; rfl)
    | none =>
        rcases transcript_codeBind continued with
          ⟨looked, existing, rest, rfl, looking, decided⟩ | ⟨error, rfl, looking⟩
        · obtain ⟨before, read, ⟨_, _, isError⟩ | ⟨view, isRow, isView⟩⟩ :=
            getJob_answers looking answered.right.left
          · cases isError
          cases isView
          have isRead : ∀ others, lookups others = [] →
              lookups (marked ++ (looked ++ others)) = [(before, jobId)] := by
            intro others none
            simp [unread, read, none]
          dsimp only at decided
          split at decided
          next completed =>
            obtain ⟨first, others, rfl, isFirst, decided⟩ :=
              record_then decided answered.right.right.steps
            obtain ⟨second, _, rfl, isSecond, decided⟩ := record_then decided
              fun exchange member => answered.right.right.steps exchange (.tail _ member)
            obtain ⟨rfl, rfl⟩ := transcript_pure decided
            have none : lookups [first, second] = [] := by
              rw [lookups_cons isFirst, lookups_cons isSecond]
              rfl
            exact .duplicate (isRead _ none) ⟨_, isRow, completed⟩
          next open' =>
            obtain ⟨first, _, rfl, isFirst, decided⟩ :=
              record_then decided answered.right.right.steps
            obtain ⟨rfl, rfl⟩ := transcript_pure decided
            refine .refused (isRead _ (lookups_cons isFirst [])) (by simp [isRow]) ?_
            rintro ⟨row, found, completed⟩
            rw [isRow] at found
            cases found
            exact open' completed
        · obtain ⟨before, read, ⟨absent, _⟩ | ⟨view, _, isView⟩⟩ :=
            getJob_answers looking answered.right
          · exact .missing (by simp [unread, read]) absent error
          · cases isView
  · obtain ⟨claimed, isOk⟩ := markJobProcessing_answers raised answered
    cases isOk

/-- The call does not delete a message. -/
def NoDelete (call : PlatformCall) : Prop := ∀ receiptHandle, call ≠ .deleteMessage receiptHandle

theorem NoDelete.not_failed {exchange : PlatformExchange} (none : NoDelete exchange.call) :
    ¬ IsFailedDelete exchange := by
  intro failed
  obtain ⟨before, call, reply, after⟩ := exchange
  cases call with
  | deleteMessage receiptHandle => exact none receiptHandle rfl
  | _ => exact failed

theorem claimJob_only (jobId : Uuid) (leaseSeconds : Int) :
    Code.Only NoDelete (claimJob jobId leaseSeconds) := by
  have recorded : ∀ metric labels, Code.Only NoDelete (record metric labels) := fun _ _ =>
    Code.only_perform fun _ => nofun
  unfold claimJob
  refine Code.Only.bind (Code.only_perform fun _ => nofun) fun claimed => ?_
  cases claimed with
  | some job => exact Code.Only.bind (recorded _ _) fun _ => Code.only_pure _
  | none =>
      refine Code.Only.bind (Code.only_perform fun _ => nofun) fun existing => ?_
      split
      · refine Code.Only.bind (recorded _ _) fun _ => ?_
        exact Code.Only.bind (recorded _ _) fun _ => Code.only_pure _
      · exact Code.Only.bind (recorded _ _) fun _ => Code.only_pure _

/-- The repository call is the completion of the claimed job. -/
def CompletesOnly (job : ClaimedJob) : PlatformCall → Prop
  | .repository (.completeJobWithReport id processingToken _ _ _) =>
      id = job.id ∧ processingToken = job.processingToken
  | .repository _ => False
  | _ => True

theorem completeClaimedJob_completes (store : ArtifactStore) (job : ClaimedJob) :
    Code.Only (CompletesOnly job) (completeClaimedJob store job) := by
  have recorded : ∀ metric labels, Code.Only (CompletesOnly job) (record metric labels) :=
    fun _ _ => Code.only_perform trivial
  refine Code.Only.tryCatch ?_ fun error => ?_
  · refine Code.Only.bind ?_ fun key => ?_
    · refine Code.Only.bind (Code.only_perform trivial) fun _ => ?_
      exact Code.Only.bind (Code.only_perform trivial) fun _ => Code.only_pure _
    · refine Code.Only.bind (Code.only_perform ⟨rfl, rfl⟩) fun _ => ?_
      refine Code.Only.bind (recorded _ _) fun _ => ?_
      exact Code.Only.bind (recorded _ _) fun _ => Code.only_pure _
  · refine Code.Only.bind (recorded _ _) fun _ => ?_
    exact Code.Only.bind (recorded _ _) fun _ => Code.only_throw _

/-- The repository call ends a claim. -/
def EndsOnly : PlatformCall → Prop
  | .repository (.completeJobWithReport ..) => True
  | .repository (.failJob ..) => True
  | .repository _ => False
  | _ => True

theorem CompletesOnly.ends {job : ClaimedJob} (call : PlatformCall)
    (completes : CompletesOnly job call) : EndsOnly call := by
  cases call with
  | repository call =>
      cases call with
      | completeJobWithReport => trivial
      | _ => exact completes.elim
  | _ => trivial

theorem EndsOnly.noLookup (call : PlatformCall) (ends : EndsOnly call) : NoLookup call := by
  rintro jobId rfl
  exact ends

section Claimed

variable {store : ArtifactStore} {config : ConsumerConfig} {jobId : Uuid}
  {receiptHandle : ReceiptHandle} {job : ClaimedJob}

theorem consumeClaimed_only :
    Code.Only EndsOnly (consumeClaimed store config jobId receiptHandle job) := by
  refine Code.Only.tryCatch ?_ fun error => ?_
  · refine Code.Only.bind ?_ fun _ => ?_
    · refine Code.Only.bind (Code.only_perform trivial) fun thread => ?_
      exact Code.Only.finally_ ((completeClaimedJob_completes store job).mono CompletesOnly.ends)
        (Code.only_perform trivial)
    · exact Code.Only.bind (Code.only_perform trivial) fun _ => Code.only_pure _
  · cases error with
    | lostJobClaimError => exact Code.only_pure _
    | _ => exact Code.Only.bind (Code.only_perform trivial) fun _ => Code.only_pure _

/-- Once the job is claimed, every exit is inside the `try`, or its handlers return. -/
theorem consumeClaimed_returns {result : Except Exn Bool}
    (ran : Transcript (consumeClaimed store config jobId receiptHandle job).run exchanges result)
    (answered : Answered isCloud t exchanges) : ∃ returned, result = .ok returned := by
  rcases transcript_tryCatch ran with
    ⟨returned, isReturned, _⟩ | ⟨body, error, rest, rfl, _, handled⟩
  · exact ⟨returned, isReturned⟩
  · have failing : ∀ typeName, Transcript (do
        let _ ← repository (.failJob jobId job.processingToken typeName)
        return false : Run Bool).run rest result → ∃ returned, result = .ok returned := by
      intro typeName handled
      rcases transcript_codeBind handled with
        ⟨_, _, _, rfl, _, ended⟩ | ⟨error, rfl, raised⟩
      · exact ⟨_, (transcript_pure ended).2⟩
      · obtain ⟨failed, isOk⟩ := failJob_returns raised answered.right
        cases isOk
    cases error with
    | lostJobClaimError => exact ⟨_, (transcript_pure handled).2⟩
    | _ => exact failing _ handled

end Claimed

/-- A call that looked nothing up is contained. -/
theorem contained_of_unread {result : Except Exn Bool} (returns : ∃ returned, result = .ok returned)
    (unread : lookups exchanges = []) : (∃ returned, result = .ok returned) ↔
      ¬ (JobMissing exchanges ∨ DuplicateNotDeleted exchanges) := by
  refine ⟨fun _ => ?_, fun _ => returns⟩
  rintro (⟨lookup, member, _⟩ | ⟨⟨lookup, member, _⟩, _⟩)
  · simp [unread] at member
  · simp [unread] at member

/-- The job that was looked up was there. -/
theorem not_missing {jobId : Uuid} {before : World} (read : lookups exchanges = [(before, jobId)])
    (present : before.db.job? jobId ≠ none) : ¬ JobMissing exchanges := by
  rintro ⟨lookup, member, missing⟩
  rw [read, List.mem_singleton] at member
  rw [member] at missing
  exact present missing

/-- The message of a completed job is deleted, or the deletion raised. -/
theorem duplicate_returns_iff {jobId : Uuid} {receiptHandle : ReceiptHandle} {before : World}
    {prior : List PlatformExchange} {result : Except Exn Bool}
    (read : lookups prior = [(before, jobId)]) (completed : before.db.Completed jobId)
    (undeleted : ∀ exchange ∈ prior, ¬ IsFailedDelete exchange)
    (ran : Transcript (perform (.deleteMessage receiptHandle) >>= fun _ => pure true : Run Bool).run
      exchanges result) : (∃ returned, result = .ok returned) ↔
        ¬ (JobMissing (prior ++ exchanges) ∨ DuplicateNotDeleted (prior ++ exchanges)) := by
  rcases transcript_performBind ran with
    ⟨before', value, after, last, rfl, ended⟩ | ⟨before', error, after, rfl, rfl⟩
  · obtain ⟨rfl, rfl⟩ := transcript_pure ended
    refine ⟨fun _ => ?_, fun _ => ⟨true, rfl⟩⟩
    rintro (missing | ⟨_, exchange, member, failed⟩)
    · refine not_missing (by rw [lookups_append, read]; rfl) ?_ missing
      obtain ⟨row, found, _⟩ := completed
      simp [found]
    · rcases List.mem_append.mp member with earlier | last
      · exact undeleted exchange earlier failed
      · rw [List.mem_singleton.mp last] at failed
        exact failed
  · refine ⟨nofun, fun contained => absurd (.inr ⟨⟨(before, jobId), ?_, completed⟩, ?_⟩) contained⟩
    · rw [lookups_append, read]
      exact List.mem_cons_self
    · exact ⟨⟨before', .deleteMessage receiptHandle, .error error, after⟩, by simp, trivial⟩

/-- One message, whatever it names, whatever the services reply and whatever other workers do in
between, with a database that answers: `consume_one_message` returns a boolean, unless its claim is
refused and the job does not exist, or is completed and the deletion of the message raises. These
two leave the function, and the loop of the worker with it. -/
theorem consumeOneMessage_returns_iff {store : ArtifactStore} {config : ConsumerConfig}
    {result : Except Exn Bool}
    (ran : Transcript (consumeOneMessage store config).run exchanges result)
    (answered : Answered isCloud t exchanges) : (∃ returned, result = .ok returned) ↔
      ¬ (JobMissing exchanges ∨ DuplicateNotDeleted exchanges) := by
  unfold consumeOneMessage at ran
  rcases transcript_codeBind ran with
    ⟨received, message, rest, rfl, receiving, continued⟩ | ⟨error, rfl, raised⟩
  · have only := receiving.only (receiveJob_only.tryCatch fun _ => Code.only_pure _)
    have unread : lookups received = [] := by
      apply lookups_eq_nil
      intro exchange member jobId
      rw [only exchange member]
      nofun
    have undeleted : ∀ exchange ∈ received, ¬ IsFailedDelete exchange := by
      intro exchange member
      apply NoDelete.not_failed
      intro receiptHandle
      rw [only exchange member]
      nofun
    cases message with
    | none =>
        obtain ⟨rfl, rfl⟩ := transcript_pure continued
        exact contained_of_unread ⟨false, rfl⟩ (by simp [unread])
    | some message =>
        obtain ⟨jobId, receiptHandle⟩ := message
        rcases transcript_codeBind continued with
          ⟨claiming, outcome, rest, rfl, claimed, continued⟩ | ⟨error, rfl, claimed⟩
        · rw [← List.append_assoc]
          have undeletedSoFar : ∀ exchange ∈ received ++ claiming, ¬ IsFailedDelete exchange := by
            intro exchange member
            rcases List.mem_append.mp member with inReceive | inClaim
            · exact undeleted exchange inReceive
            · exact (claimed.only (claimJob_only _ _) exchange inClaim).not_failed
          cases claimJob_exits claimed answered.right.left with
          | claimed job none =>
              have noLookup : lookups rest = [] :=
                lookups_eq_nil (continued.only (consumeClaimed_only.mono EndsOnly.noLookup))
              exact contained_of_unread (consumeClaimed_returns continued answered.right.right)
                (by simp [unread, none, noLookup])
          | duplicate read completed =>
              exact duplicate_returns_iff (by simp [unread, read]) completed undeletedSoFar continued
          | @refused before read present open' =>
              obtain ⟨rfl, rfl⟩ := transcript_pure continued
              have isRead : lookups (received ++ claiming ++ []) = [(before, jobId)] := by
                rw [List.append_nil, lookups_append, unread, List.nil_append, read]
              refine ⟨fun _ => ?_, fun _ => ⟨false, rfl⟩⟩
              rintro (missing | ⟨⟨lookup, member, completed⟩, _⟩)
              · exact not_missing isRead present missing
              · rw [isRead, List.mem_singleton] at member
                rw [member] at completed
                exact open' completed
        · cases claimJob_exits claimed answered.right with
          | @missing before read absent =>
              refine ⟨nofun, fun contained => absurd (.inl ?_) contained⟩
              exact ⟨(before, jobId), by simp [unread, read], absent⟩
  · rcases transcript_tryCatch raised with ⟨value, isOk, _⟩ | ⟨_, _, rest, _, _, handled⟩
    · cases isOk
    · have isOk := (transcript_pure handled).2
      cases isOk

end Exits

/-- The exchange of a call that was performed. -/
def World.Perform.exchange {w done : World} {call : PlatformCall} {reply : platform.Reply call}
    (_ : w.Perform call reply done) (t : ThreadId) : PlatformExchange :=
  ⟨w, call, reply, done.logged t call reply⟩

theorem World.Perform.steps {w done : World} {call : PlatformCall} {reply : platform.Reply call}
    (performed : w.Perform call reply done) (isCloud : Bool) (t : ThreadId) :
    (jobPlatform isCloud).Steps t (performed.exchange t) :=
  ⟨done, performed, rfl⟩

/-- A worker receives a message that passes the check of `receive_job` and names no row. -/
theorem unknownJob_escapes (store : ArtifactStore) : ∃ exchanges : List PlatformExchange,
    Answered true 0 exchanges ∧
      Transcript (consumeOneMessage store ⟨120, 60, 30⟩).run exchanges (.error .notFoundError) := by
  let jobId := Uuid.ofInt 7
  let message : Message := ⟨0, jobMessage jobId .null⟩
  let first : World := { World.initial with queue := [message], nextMessage := 1 }
  let inputs := Inputs.numbered 0 0
  have fresh : inputs.Fresh first.drawn := by
    refine ⟨?_, fun _ member => List.not_mem_nil member⟩
    intro left right same
    revert left right
    decide
  have received : first.Perform .receiveMessage (.ok (some ⟨some message.body, message.id⟩)) first :=
    .received (List.mem_singleton.mpr rfl)
  have refused : first.Perform (.repository (.markJobProcessing jobId 120)) (.ok none) _ :=
    .answered fresh rfl
  have raised : first.Perform (.repository (.getJob jobId)) (.error .notFoundError) _ :=
    .answered fresh rfl
  refine ⟨[received.exchange 0, refused.exchange 0, raised.exchange 0], ⟨?_, ?_⟩, ?_⟩
  · simp only [List.forall_mem_cons]
    exact ⟨received.steps _ _, refused.steps _ _, raised.steps _ _, List.forall_mem_nil _⟩
  · simp only [List.forall_mem_cons]
    exact ⟨trivial, ⟨inputs, rfl⟩, ⟨inputs, rfl⟩, List.forall_mem_nil _⟩
  · have parsed : Transcript receiveJob.run [received.exchange 0]
        (.ok (some (jobId, message.id))) := by
      refine Transcript.codeBind (Transcript.perform _ _ _) ?_
      have names : parseJobMessage (some message.body) = .ok jobId := names_jobMessage jobId .null
      dsimp only
      rw [names]
      exact .done
    refine Transcript.codeBind (parsed.tryReturn _) ?_
    refine Transcript.codeRaise ?_ _
    refine Transcript.codeBind (Transcript.perform _ _ _) ?_
    exact Transcript.codeRaise (Transcript.perform _ _ _) _

theorem consumeOneMessage_returns_iff_unknownJob : ∃ exchanges : List PlatformExchange,
    Transcript (consumeOneMessage ⟨"reports"⟩ ⟨120, 60, 30⟩).run exchanges (.error .notFoundError) ∧
      (JobMissing exchanges ∨ DuplicateNotDeleted exchanges) := by
  obtain ⟨exchanges, answered, ran⟩ := unknownJob_escapes ⟨"reports"⟩
  refine ⟨exchanges, ran, not_not.mp fun contained => ?_⟩
  obtain ⟨returned, isOk⟩ := (consumeOneMessage_returns_iff ran answered).mpr contained
  cases isOk

/-- An exception leaves `consume_one_message` although the database answered every query. -/
theorem consumeOneMessage_not_contained : ¬ ∀ (store : ArtifactStore) (config : ConsumerConfig)
    (exchanges : List PlatformExchange) (result : Except Exn Bool),
    Transcript (consumeOneMessage store config).run exchanges result →
      Answered true 0 exchanges → ∃ returned, result = .ok returned := by
  intro contained
  obtain ⟨exchanges, answered, ran⟩ := unknownJob_escapes ⟨"reports"⟩
  obtain ⟨returned, isOk⟩ := contained _ _ exchanges _ ran answered
  cases isOk

end JobPlatform.Runtime
