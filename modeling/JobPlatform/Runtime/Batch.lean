import JobPlatform.Runtime.Release
import JobPlatform.Store.Ranking

/-!
Contract: the events of one dispatched batch do not disturb each other.

Owns:
- `Attempt`, the calls `dispatch_outbox` makes for one event, and the split of a whole run into one
  attempt per event, in the order of the claim;
- `Marked`, what a fenced mark does to a row, and the frame: an attempt changes no other row;
- what the row of each event can be once the dispatcher has ended.

The contents of the outbox are arbitrary here, and so are the other threads: payloads may be
malformed, and events may be claimed again at any time.
-/

namespace JobPlatform.Runtime

open JobPlatform.Foundation JobPlatform.Foundation.ThreadSystem JobPlatform.Store
open JobPlatform.Store.Repository (ClaimedEvent eventClaimable eventFence publishEventRow
  failEventRow newEvent)
open World

/-! ### The calls of one event -/

/-- Nothing but metrics. -/
def Notes (exchanges : List PlatformExchange) : Prop :=
  ∀ exchange ∈ exchanges, ∃ metric labels, exchange.call = .record metric labels

/-- The event passes the schema check, and its payload is read as this pair. -/
def WellFormed (event : ClaimedEvent) (jobId : Uuid) (correlationId : Json) : Prop :=
  event.eventType = "job.created" ∧ event.version = 1 ∧
    readOutboxPayload event.payload = .ok (jobId, correlationId)

/-- What the body of the `try` did for one event: it refused a malformed event before publishing
anything, or the publication raised, or it published and marked the event once. -/
inductive Publishing (publisher : JobPublisher) (event : ClaimedEvent) :
    List PlatformExchange → Except Exn Bool → Prop where
  | malformed {noted : List PlatformExchange} {error : Exn} (isNoted : Notes noted)
      (refused : ∀ jobId correlationId, ¬ WellFormed event jobId correlationId) :
      Publishing publisher event noted (.error error)
  | unsent {noted sent : List PlatformExchange} {jobId : Uuid} {correlationId : Json} {error : Exn}
      (isNoted : Notes noted) (formed : WellFormed event jobId correlationId)
      (raised : Transcript (publisher.publish (some (event.id, event.claimToken)) jobId
        correlationId).run sent (.error error)) :
      Publishing publisher event (noted ++ sent) (.error error)
  | marked {noted sent last : List PlatformExchange} {jobId : Uuid} {correlationId : Json}
      {before after : World} {reply : Except Exn Bool}
      (isNoted : Notes noted) (formed : WellFormed event jobId correlationId)
      (returned : Transcript (publisher.publish (some (event.id, event.claimToken)) jobId
        correlationId).run sent (.ok ())) (isLast : Notes last) :
      Publishing publisher event (noted ++ (sent ++ ⟨before, .repository
        (.markOutboxPublished event.id event.claimToken), reply, after⟩ :: last)) reply

/-- One event is tried once; if that raised, the failure is recorded once. -/
inductive Attempt (publisher : JobPublisher) (event : ClaimedEvent) :
    List PlatformExchange → Prop where
  | returned {noted body : List PlatformExchange} {published : Bool} (isNoted : Notes noted)
      (ran : Publishing publisher event body (.ok published)) :
      Attempt publisher event (noted ++ body)
  | recorded {noted body last : List PlatformExchange} {error : Exn} {before after : World}
      {reply : Except Exn Bool} (isNoted : Notes noted)
      (ran : Publishing publisher event body (.error error)) (isLast : Notes last) :
      Attempt publisher event (noted ++ (body ++ (last ++ [⟨before, .repository
        (.markOutboxFailed event.id event.claimToken error.typeName), reply, after⟩])))

/-- The call is a `mark_outbox_published` that returned `True`. -/
def isPublication : PlatformExchange → Bool
  | ⟨_, .repository (.markOutboxPublished ..), .ok true, _⟩ => true
  | _ => false

/-- How many marks returned `True`. -/
def publications (exchanges : List PlatformExchange) : Nat := exchanges.countP isPublication

@[simp] theorem publications_append (first rest : List PlatformExchange) :
    publications (first ++ rest) = publications first + publications rest :=
  List.countP_append

/-- The failure mark does not raise. -/
def FailureMarkReturns : PlatformExchange → Prop
  | ⟨_, .repository (.markOutboxFailed ..), .error _, _⟩ => False
  | _ => True

theorem Notes.publications {noted : List PlatformExchange} (isNoted : Notes noted) :
    publications noted = 0 := by
  rw [Runtime.publications, List.countP_eq_zero]
  intro exchange member
  obtain ⟨metric, labels, isRecord⟩ := isNoted exchange member
  obtain ⟨before, call, reply, after⟩ := exchange
  cases isRecord
  nofun

section Run

variable {isCloud : Bool} {t : ThreadId} {exchanges : List PlatformExchange}
  {publisher : JobPublisher} {event : ClaimedEvent}

/-- Publishing marks nothing. -/
theorem publish_publications {origin : Option (Uuid × Uuid)} {jobId : Uuid} {correlationId : Json}
    {result : Except Exn Unit}
    (ran : Transcript (publisher.publish origin jobId correlationId).run exchanges result) :
    publications exchanges = 0 := by
  cases publisher with
  | sqs =>
      obtain ⟨before, after, rfl⟩ := transcript_perform ran
      rfl
  | inProcess =>
      obtain ⟨before, after, rfl⟩ := transcript_perform ran
      rfl
  | noop =>
      obtain ⟨rfl, _⟩ := transcript_pure ran
      rfl

theorem publications_mark {before after : World} {eventId claimToken : Uuid}
    {reply : Except Exn Bool} (rest : List PlatformExchange) :
    publications (⟨before, .repository (.markOutboxPublished eventId claimToken), reply, after⟩ ::
      rest) = (if reply = .ok true then 1 else 0) + publications rest := by
  unfold publications
  rw [List.countP_cons, Nat.add_comm]
  cases reply with
  | error error => rfl
  | ok published => cases published <;> rfl

theorem Publishing.publications {outcome : Except Exn Bool}
    (ran : Publishing publisher event exchanges outcome) :
    publications exchanges = if outcome = .ok true then 1 else 0 := by
  cases ran with
  | malformed isNoted => simp [isNoted.publications]
  | unsent isNoted _ raised => simp [isNoted.publications, publish_publications raised]
  | marked isNoted _ returned isLast =>
      rw [publications_append, publications_append, publications_mark, isNoted.publications,
        publish_publications returned, isLast.publications]
      omega

/-- The body of the `try`, call by call. -/
theorem publishEvent_publishing {dispatched : Nat} {result : Except Exn Nat}
    (ran : Transcript (publishEvent publisher event dispatched).run exchanges result)
    (steps : ∀ exchange ∈ exchanges, (jobPlatform isCloud).Steps t exchange) :
    ∃ outcome : Except Exn Bool, Publishing publisher event exchanges outcome ∧
      result = outcome.map (fun published => if published then dispatched + 1 else dispatched) := by
  unfold publishEvent at ran
  obtain ⟨attempt, rest, rfl, isAttempt, continued⟩ := record_then ran steps
  have noted : Notes [attempt] := by
    intro exchange member
    rw [List.mem_singleton.mp member]
    exact ⟨_, _, isAttempt⟩
  by_cases unsupported : event.eventType ≠ "job.created" ∨ event.version ≠ 1
  · rw [if_pos unsupported] at continued
    obtain ⟨rfl, rfl⟩ := transcript_throw continued
    refine ⟨.error .valueError, .malformed noted ?_, rfl⟩
    rintro jobId correlationId ⟨isType, isVersion, _⟩
    exact unsupported.elim (· isType) (· isVersion)
  rw [if_neg unsupported] at continued
  simp only [ne_eq, not_or, not_not] at unsupported
  cases read : readOutboxPayload event.payload with
  | error error =>
      rw [read, Code.ofExcept_error_bind] at continued
      obtain ⟨rfl, rfl⟩ := transcript_throw continued
      refine ⟨.error error, .malformed noted ?_, rfl⟩
      rintro jobId correlationId ⟨_, _, isRead⟩
      rw [read] at isRead
      cases isRead
  | ok pair =>
      obtain ⟨jobId, correlationId⟩ := pair
      have formed : WellFormed event jobId correlationId := ⟨unsupported.1, unsupported.2, read⟩
      rw [read, Code.ofExcept_ok_bind] at continued
      rcases transcript_codeBind continued with
        ⟨sent, value, later, rfl, returned, marking⟩ | ⟨error, rfl, raised⟩
      · rcases transcript_performBind marking with
          ⟨before, published, after, last, rfl, ended⟩ | ⟨before, error, after, rfl, rfl⟩
        · cases published with
          | true =>
              obtain ⟨success, _, rfl, isSuccess, ended⟩ := record_then ended
                fun exchange member => steps exchange (.tail _ (List.mem_append_right _
                  (.tail _ member)))
              obtain ⟨rfl, rfl⟩ := transcript_pure ended
              refine ⟨.ok true, .marked noted formed returned fun exchange member => ?_, rfl⟩
              rw [List.mem_singleton.mp member]
              exact ⟨_, _, isSuccess⟩
          | false =>
              obtain ⟨rfl, rfl⟩ := transcript_pure ended
              exact ⟨.ok false, .marked noted formed returned (List.forall_mem_nil _), rfl⟩
        · exact ⟨.error error, .marked noted formed returned (List.forall_mem_nil _), rfl⟩
      · exact ⟨.error error, .unsent noted formed raised, rfl⟩

/-- One iteration of the loop. -/
theorem dispatchEvent_attempt {dispatched : Nat} {result : Except Exn Nat}
    (ran : Transcript (dispatchEvent publisher dispatched event).run exchanges result)
    (steps : ∀ exchange ∈ exchanges, (jobPlatform isCloud).Steps t exchange)
    (returns : ∀ exchange ∈ exchanges, FailureMarkReturns exchange) :
    Attempt publisher event exchanges ∧ result = .ok (dispatched + publications exchanges) := by
  have caught : ∃ noted body, exchanges = noted ++ body ∧ Notes noted ∧ Transcript
      (tryCatch (publishEvent publisher event dispatched) fun error => do
        record .workerOutboxDispatch ["failure"]
        let _ ← repository (.markOutboxFailed event.id event.claimToken error.typeName)
        return dispatched).run body result := by
    unfold dispatchEvent at ran
    by_cases reclaimed : event.attempts > 1
    · rw [if_pos reclaimed] at ran
      obtain ⟨note, rest, rfl, isNote, continued⟩ := record_then ran steps
      refine ⟨[note], rest, rfl, fun exchange member => ?_, continued⟩
      rw [List.mem_singleton.mp member]
      exact ⟨_, _, isNote⟩
    · rw [if_neg reclaimed] at ran
      exact ⟨[], exchanges, rfl, List.forall_mem_nil _, ran⟩
  obtain ⟨noted, body, rfl, isNoted, continued⟩ := caught
  have stepsBody : ∀ exchange ∈ body, (jobPlatform isCloud).Steps t exchange :=
    fun exchange member => steps exchange (List.mem_append_right _ member)
  rcases transcript_tryCatch continued with
    ⟨value, rfl, returned⟩ | ⟨first, error, rest, rfl, raised, handled⟩
  · obtain ⟨outcome, publishing, isResult⟩ := publishEvent_publishing returned stepsBody
    cases outcome with
    | error error => cases isResult
    | ok published =>
        cases isResult
        refine ⟨.returned isNoted publishing, ?_⟩
        rw [publications_append, isNoted.publications, publishing.publications]
        cases published <;> simp
  · obtain ⟨outcome, publishing, isResult⟩ := publishEvent_publishing raised
      fun exchange member => stepsBody exchange (List.mem_append_left _ member)
    cases outcome with
    | ok published => cases isResult
    | error other =>
        cases isResult
        obtain ⟨note, later, rfl, isNote, marking⟩ := record_then handled
          fun exchange member => stepsBody exchange (List.mem_append_right _ member)
        have isLast : Notes [note] := by
          intro exchange member
          rw [List.mem_singleton.mp member]
          exact ⟨_, _, isNote⟩
        rcases transcript_performBind marking with
          ⟨before, marked, after, last, rfl, ended⟩ | ⟨before, raised, after, rfl, rfl⟩
        · obtain ⟨rfl, rfl⟩ := transcript_pure ended
          refine ⟨.recorded isNoted publishing isLast, ?_⟩
          have unmarked : publications [note, ⟨before, .repository
              (.markOutboxFailed event.id event.claimToken error.typeName), .ok marked, after⟩] = 0 := by
            have none := isLast.publications
            unfold publications at none ⊢
            rw [List.countP_cons] at none ⊢
            simpa [isPublication] using none
          rw [publications_append, publications_append, isNoted.publications,
            publishing.publications, unmarked]
          simp
        · exact (returns _ (List.mem_append_right _ (List.mem_append_right _
            (.tail _ List.mem_cons_self)))).elim

/-- The outbox calls of an attempt present the id and the token of its event. -/
def MarksOnly (event : ClaimedEvent) : PlatformCall → Prop
  | .repository (.markOutboxPublished id claimToken) =>
      id = event.id ∧ claimToken = event.claimToken
  | .repository (.markOutboxFailed id claimToken _) => id = event.id ∧ claimToken = event.claimToken
  | .repository _ => False
  | _ => True

theorem dispatchEvent_marksOnly (dispatched : Nat) :
    Code.Only (MarksOnly event) (dispatchEvent publisher dispatched event) := by
  have recorded (metric : Metric) (labels : List String) :
      Code.Only (MarksOnly event) (record metric labels) := Code.only_perform trivial
  have published (origin : Option (Uuid × Uuid)) (jobId : Uuid) (correlationId : Json) :
      Code.Only (MarksOnly event) (publisher.publish origin jobId correlationId) := by
    cases publisher with
    | sqs => exact Code.only_perform trivial
    | inProcess => exact Code.only_perform trivial
    | noop => exact Code.only_pure _
  have caught : Code.Only (MarksOnly event)
      (tryCatch (publishEvent publisher event dispatched) fun error => do
        record .workerOutboxDispatch ["failure"]
        let _ ← repository (.markOutboxFailed event.id event.claimToken error.typeName)
        return dispatched) := by
    refine Code.Only.tryCatch ?_ fun error => (recorded _ _).bind fun _ =>
      (Code.only_perform ⟨rfl, rfl⟩).bind fun _ => Code.only_pure _
    unfold publishEvent
    refine (recorded _ _).bind fun _ => ?_
    split
    · exact Code.only_throw _
    · refine (Code.only_ofExcept _).bind fun pair => (published _ _ _).bind fun _ => ?_
      refine (Code.only_perform ⟨rfl, rfl⟩).bind fun marked => ?_
      cases marked with
      | true => exact (recorded _ _).bind fun _ => Code.only_pure _
      | false => exact Code.only_pure _
  unfold dispatchEvent
  split
  · exact (recorded _ _).bind fun _ => caught
  · exact caught

/-- The calls of one event: one attempt, on its own row. -/
structure Dispatched (publisher : JobPublisher) (event : ClaimedEvent)
    (segment : List PlatformExchange) : Prop where
  attempt : Attempt publisher event segment
  own : ∀ exchange ∈ segment, MarksOnly event exchange.call

/-- The loop makes one attempt per event, in order, and counts the marks that returned `True`. -/
theorem forEach_segments {events : List ClaimedEvent} {initial : Nat} {result : Except Exn Nat}
    (ran : Transcript (Code.forEach events initial (dispatchEvent publisher)).run exchanges result)
    (steps : ∀ exchange ∈ exchanges, (jobPlatform isCloud).Steps t exchange)
    (returns : ∀ exchange ∈ exchanges, FailureMarkReturns exchange) :
    ∃ segments, exchanges = segments.flatten ∧
      List.Forall₂ (Dispatched publisher) events segments ∧
      result = .ok (initial + publications exchanges) := by
  induction events generalizing exchanges initial with
  | nil =>
      obtain ⟨rfl, rfl⟩ := transcript_pure ran
      exact ⟨[], rfl, .nil, rfl⟩
  | cons event rest inductionHypothesis =>
      unfold Code.forEach at ran
      rcases transcript_codeBind ran with
        ⟨segment, next, later, rfl, first, continued⟩ | ⟨error, rfl, raised⟩
      · obtain ⟨attempt, isNext⟩ := dispatchEvent_attempt first
          (fun exchange member => steps exchange (List.mem_append_left _ member))
          (fun exchange member => returns exchange (List.mem_append_left _ member))
        cases isNext
        obtain ⟨segments, rfl, dispatched, isResult⟩ := inductionHypothesis continued
          (fun exchange member => steps exchange (List.mem_append_right _ member))
          (fun exchange member => returns exchange (List.mem_append_right _ member))
        refine ⟨segment :: segments, rfl, .cons ⟨attempt, ?_⟩ dispatched, ?_⟩
        · exact first.only (dispatchEvent_marksOnly initial)
        · rw [isResult, publications_append, Nat.add_assoc]
      · cases (dispatchEvent_attempt raised steps returns).2

end Run

/-! ### The rows -/

/-- What a fenced mark did: it set the row, it found the row under no such claim and changed
nothing, or it raised and changed nothing. A mark that set the row may have raised all the same. -/
inductive Marked (eventId claimToken : Uuid) (set : Time → OutboxRow → OutboxRow)
    (before after : World) (reply : Except Exn Bool) : Prop where
  | took {row : OutboxRow} {now : Time} (found : before.db.event? eventId = some row)
      (holds : (eventFence claimToken row).Holds)
      (isRow : after.db.event? eventId = some (set now row)) (heard : reply ≠ .ok false)
  | displaced (same : after.db = before.db)
      (rejected : ∀ row, before.db.event? eventId = some row → ¬ (eventFence claimToken row).Holds)
      (heard : reply ≠ .ok true)
  | raised (same : after.db = before.db) {error : Exn} (heard : reply = .error error)

section Marks

variable {isCloud : Bool} {t : ThreadId} {event : ClaimedEvent} {before after : World}
  {reply : Except Exn Bool}

private theorem marked_of_update {eventId claimToken : Uuid} {set : Time → OutboxRow → OutboxRow}
    {now : Time} {fixed : ∀ row, (set now row).id = row.id} {row : Option OutboxRow}
    (update : EventUpdate before.db eventId (eventFence claimToken) (set now) fixed row after.db)
    (heard : reply = .ok row.isSome ∨ ∃ error, reply = .error error) :
    Marked eventId claimToken set before after reply := by
  generalize contents : after.db = later at update
  cases update with
  | @hit old found holds =>
      have isRow : after.db.event? eventId = some (set now old) := by
        rw [contents, Database.event?_setEvents, if_pos List.mem_cons_self, found]
        rfl
      refine .took found holds isRow ?_
      rintro rfl
      rcases heard with isReply | ⟨_, isReply⟩ <;> cases isReply
  | miss rejected =>
      refine .displaced contents rejected ?_
      rintro rfl
      rcases heard with isReply | ⟨_, isReply⟩ <;> cases isReply

theorem publish_marked (step : (jobPlatform isCloud).Steps t ⟨before, .repository
    (.markOutboxPublished event.id event.claimToken), reply, after⟩) :
    Marked event.id event.claimToken publishEventRow before after reply := by
  obtain ⟨done, performed, rfl⟩ := steps_performed step
  obtain ⟨inputs, _, _, ⟨same, error, raised⟩ | ⟨value, effect, heard⟩⟩ := performed.repository_cases
  · exact .raised same raised
  · cases effect with
    | eventPublished isValue update =>
        subst isValue
        exact marked_of_update update heard

theorem fail_marked {text : String} (step : (jobPlatform isCloud).Steps t ⟨before, .repository
    (.markOutboxFailed event.id event.claimToken text), reply, after⟩) :
    Marked event.id event.claimToken (failEventRow text) before after reply := by
  obtain ⟨done, performed, rfl⟩ := steps_performed step
  obtain ⟨inputs, _, _, ⟨same, error, raised⟩ | ⟨value, effect, heard⟩⟩ := performed.repository_cases
  · exact .raised same raised
  · cases effect with
    | eventFailed isValue update =>
        subst isValue
        exact marked_of_update update heard

/-- An attempt changes no row but its own. -/
theorem MarksOnly.frame {exchange : PlatformExchange} (own : MarksOnly event exchange.call)
    (step : (jobPlatform isCloud).Steps t exchange) (id : Uuid) (other : id ≠ event.id) :
    exchange.after.db.event? id = exchange.before.db.event? id := by
  obtain ⟨before, call, reply, after⟩ := exchange
  obtain ⟨done, performed, rfl⟩ := steps_performed step
  rcases performed.database with same | ⟨repoCall, inputs, value, rfl, _, effect⟩
  · exact congrArg (Database.event? · id) same
  · have change := eventChange_of_effect effect id
    change done.db.event? id = before.db.event? id
    generalize before.db.event? id = old at change
    generalize done.db.event? id = new at change
    cases change with
    | same => rfl
    | published => exact absurd own.1 other
    | failed => exact absurd own.1 other
    | created => exact own.elim
    | claimed => exact own.elim

end Marks

/-- The event has been claimed, and of the tokens `issued` by some time only those in `current` may
still be on its row. -/
structure World.EventHeld (w : World) (eventId : Uuid) (issued current : List Uuid) : Prop where
  drawn : issued ⊆ w.drawn
  row : ∃ row, w.db.event? eventId = some row ∧ row.status ≠ .pending ∧
    ∀ token ∈ issued, row.claimToken = some token → token ∈ current

section Held

variable {isCloud : Bool} {t : ThreadId} {w after : World} {eventId : Uuid}
  {issued current : List Uuid} {pool next later : Pool platform World}

/-- No call puts an issued token back on an event. -/
theorem held_of_eventChange {inputs : Inputs} {call : RepoCall} {value : call.Result}
    {before later : Option OutboxRow} (change : EventChange inputs eventId call value before later)
    (new : inputs.uuid 0 ∉ issued)
    (held : ∃ row, before = some row ∧ row.status ≠ .pending ∧
      ∀ token ∈ issued, row.claimToken = some token → token ∈ current) :
    ∃ row, later = some row ∧ row.status ≠ .pending ∧
      ∀ token ∈ issued, row.claimToken = some token → token ∈ current := by
  obtain ⟨row, isRow, started, tokens⟩ := held
  cases change with
  | same => exact ⟨row, isRow, started, tokens⟩
  | created => cases isRow
  | claimed =>
      refine ⟨_, rfl, nofun, fun token member isToken => ?_⟩
      rw [← Option.some.inj isToken] at member
      exact absurd member new
  | published => exact ⟨_, rfl, nofun, nofun⟩
  | failed => exact ⟨_, rfl, nofun, nofun⟩

theorem World.EventHeld.perform {call : PlatformCall} {reply : platform.Reply call} (t : ThreadId)
    (held : w.EventHeld eventId issued current) (performed : w.Perform call reply after) :
    (after.logged t call reply).EventHeld eventId issued current := by
  refine ⟨List.Subset.trans held.drawn performed.drawn_objects.1, ?_⟩
  rcases performed.database with same | ⟨_, inputs, _, _, fresh, effect⟩
  · exact same ▸ held.row
  · refine held_of_eventChange (eventChange_of_effect effect eventId) ?_ held.row
    exact fun member => fresh.new 0 (held.drawn member)

theorem eventHeld_step (step : (jobPlatform isCloud).Step pool next)
    (held : pool.state.EventHeld eventId issued current) :
    next.state.EventHeld eventId issued current :=
  step_of_perform (P := fun w => w.EventHeld eventId issued current) step
    (fun t performed held => held.perform t performed)
    (fun sameDb sameDrawn held => ⟨sameDrawn ▸ held.drawn, sameDb ▸ held.row⟩) held

theorem shape_step (step : (jobPlatform isCloud).Step pool next) (shape : pool.state.db.Shape) :
    next.state.db.Shape :=
  step_of_perform (P := fun w => w.db.Shape) step
    (fun _ performed shape => performed.keeps Database.Shape.effect shape)
    (fun sameDb _ shape => sameDb ▸ shape) shape

/-- The event is published. -/
def World.Published (w : World) (eventId : Uuid) : Prop :=
  ∃ row, w.db.event? eventId = some row ∧ row.status = .published

theorem published_step (step : (jobPlatform isCloud).Step pool next)
    (published : pool.state.Published eventId) : next.state.Published eventId := by
  refine step_of_perform (P := fun w => w.Published eventId) step ?_ ?_ published
  · rintro w done call reply t performed ⟨row, found, status⟩
    rcases performed.database with same | ⟨_, inputs, _, _, _, effect⟩
    · exact ⟨row, (congrArg (Database.event? · eventId) same).trans found, status⟩
    · have change := eventChange_of_effect effect eventId
      rw [found] at change
      change ∃ new, done.db.event? eventId = some new ∧ new.status = .published
      generalize done.db.event? eventId = new at change
      cases change with
      | same => exact ⟨row, rfl, status⟩
      | claimed holds => simp [eventClaimable, status] at holds
      | published => exact ⟨_, rfl, rfl⟩
      | failed holds => simp [eventFence, status] at holds
  · rintro w after sameDb _ ⟨row, found, status⟩
    exact ⟨row, sameDb ▸ found, status⟩

/-- A row that shows none of the current tokens is free of all that were issued. -/
theorem World.EventHeld.release {token : Uuid} (held : w.EventHeld eventId issued [token])
    (gone : ∀ row, w.db.event? eventId = some row → row.claimToken ≠ some token) :
    w.EventHeld eventId issued [] := by
  obtain ⟨row, found, started, tokens⟩ := held.row
  refine ⟨held.drawn, row, found, started, fun other member isToken => ?_⟩
  have same := List.mem_singleton.mp (tokens other member isToken)
  exact absurd (same ▸ isToken) (gone row found)

/-- An event that has been claimed and is free of the issued tokens is published, has failed and
can be claimed at once, or is left to a claim issued later. -/
theorem World.EventHeld.disposition (held : w.EventHeld eventId issued []) (shape : w.db.Shape) :
    ∃ row, w.db.event? eventId = some row ∧
      (row.status = .published ∨
        (row.status = .failed ∧ ∀ leaseSeconds now, (eventClaimable leaseSeconds now row).Holds) ∨
        row.status = .publishing ∧ ∃ newer ∉ issued, row.claimToken = some newer) := by
  obtain ⟨row, found, started, tokens⟩ := held.row
  refine ⟨row, found, ?_⟩
  cases status : row.status with
  | pending => exact absurd status started
  | published => exact .inl rfl
  | failed =>
      refine .inr (.inl ⟨rfl, fun leaseSeconds now => ?_⟩)
      simp [eventClaimable, status]
  | publishing =>
      have isHeld := (shape.events row (Database.event?_eq_some.mp found).1).token.mp status
      obtain ⟨newer, isToken⟩ := Option.ne_none_iff_exists'.mp isHeld
      refine .inr (.inr ⟨rfl, newer, fun member => ?_, isToken⟩)
      exact List.not_mem_nil (tokens newer member isToken)

end Held

/-! ### The guarantee -/

section Guarantee

variable {isCloud : Bool} {t : ThreadId} {publisher : JobPublisher} {event : ClaimedEvent}
  {issued : List Uuid} {exchange : PlatformExchange} {exchanges segment : List PlatformExchange}
  {first pool : Pool platform World}

/-- A call of the dispatcher after it claimed the event. -/
structure UnderEventClaim (isCloud : Bool) (t : ThreadId) (event : ClaimedEvent)
    (issued : List Uuid) (exchange : PlatformExchange) : Prop where
  step : (jobPlatform isCloud).Steps t exchange
  shape : exchange.before.db.Shape
  held : exchange.before.EventHeld event.id issued [event.claimToken]

/-- A mark that returned leaves the row free of the issued tokens. -/
theorem UnderEventClaim.released {set : Time → OutboxRow → OutboxRow} {reply : Except Exn Bool}
    (claim : UnderEventClaim isCloud t event issued exchange)
    (marked : Marked event.id event.claimToken set exchange.before exchange.after reply)
    (cleared : ∀ now row, (set now row).claimToken = none) (returned : ∃ value, reply = .ok value) :
    exchange.after.EventHeld event.id issued [] := by
  have heldAfter : exchange.after.EventHeld event.id issued [event.claimToken] := by
    obtain ⟨done, performed, isAfter⟩ := claim.step
    rw [isAfter]
    exact claim.held.perform t performed
  refine heldAfter.release fun row found isToken => ?_
  cases marked with
  | @took old now _ _ isRow =>
      rw [isRow] at found
      cases found
      rw [cleared] at isToken
      cases isToken
  | displaced same rejected =>
      rw [same] at found
      refine rejected row found ?_
      have publishing := (claim.shape.events row (Database.event?_eq_some.mp found).1).token.mpr
        (by simp [isToken])
      simp only [eventFence, Truth.holds_and, Truth.holds_eq_some]
      exact ⟨congrArg some publishing, isToken⟩
  | raised same heard =>
      obtain ⟨value, isValue⟩ := returned
      rw [heard] at isValue
      cases isValue

/-- Every attempt ends with a mark that returned. -/
theorem Attempt.releases (attempt : Attempt publisher event segment)
    (claims : ∀ exchange ∈ segment, UnderEventClaim isCloud t event issued exchange)
    (returns : ∀ exchange ∈ segment, FailureMarkReturns exchange) :
    ∃ exchange ∈ segment, exchange.after.EventHeld event.id issued [] := by
  cases attempt with
  | @returned noted body published _ ran =>
      cases ran with
      | @marked noted' sent last jobId correlationId before after =>
          have member : (⟨before, .repository (.markOutboxPublished event.id event.claimToken),
              .ok published, after⟩ : PlatformExchange) ∈ noted ++ (noted' ++ (sent ++
                ⟨before, .repository (.markOutboxPublished event.id event.claimToken),
                  .ok published, after⟩ :: last)) := by simp
          have claim := claims _ member
          exact ⟨_, member, claim.released (publish_marked claim.step) (fun _ _ => rfl)
            ⟨published, rfl⟩⟩
  | @recorded noted body last error before after reply =>
      have member : (⟨before, .repository (.markOutboxFailed event.id event.claimToken
          error.typeName), reply, after⟩ : PlatformExchange) ∈ noted ++ (body ++ (last ++
            [⟨before, .repository (.markOutboxFailed event.id event.claimToken error.typeName),
              reply, after⟩])) := by simp
      have claim := claims _ member
      have isReturn : ∃ value, reply = .ok value := by
        cases reply with
        | ok value => exact ⟨value, rfl⟩
        | error raised => exact (returns _ member).elim
      exact ⟨_, member, claim.released (fail_marked claim.step) (fun _ _ => rfl) isReturn⟩

/-- A batch holds its events under one token, each once, and touches no other row. -/
theorem batch_of_claim {limit leaseSeconds : Int} {before after : World}
    {events : List ClaimedEvent} (step : (jobPlatform isCloud).Steps t
      ⟨before, .repository (.claimOutboxEvents limit leaseSeconds), .ok events, after⟩) :
    (events.map ClaimedEvent.id).Nodup ∧
      (∃ claimToken ∈ after.drawn, ∀ event ∈ events, event.claimToken = claimToken) ∧
      (∀ id, id ∉ events.map ClaimedEvent.id → after.db.event? id = before.db.event? id) ∧
      ∀ event ∈ events, after.EventHeld event.id after.drawn [event.claimToken] := by
  obtain ⟨done, performed, rfl⟩ := steps_performed step
  obtain ⟨inputs, _, isDone, effect⟩ := performed.effect
  have drawn : inputs.uuid 0 ∈ done.drawn := by
    rw [isDone]
    exact List.mem_append_right _ (List.mem_ofFn.mpr ⟨0, rfl⟩)
  have changes (id : Uuid) : EventChange inputs id (.claimOutboxEvents limit leaseSeconds) events
      (before.db.event? id) (done.db.event? id) := eventChange_of_effect effect id
  have token : ∀ event ∈ events, event.claimToken = inputs.uuid 0 := by
    intro event member
    have change := changes event.id
    generalize before.db.event? event.id = old at change
    generalize done.db.event? event.id = new at change
    cases change with
    | same idle => exact absurd ⟨event, member, rfl⟩ idle
    | claimed _ returned =>
        rw [(returned event).mp ⟨rfl, member⟩]
        rfl
  refine ⟨?_, ⟨_, drawn, token⟩, ?_, ?_⟩
  · generalize done.db = contents at effect
    cases effect with
    | eventsClaimed _ _ isEvents =>
        subst isEvents
        exact nodup_returnedEvents _ _ _ _
  · intro id outside
    have change := changes id
    change done.db.event? id = _
    generalize before.db.event? id = old at change
    generalize done.db.event? id = new at change
    cases change with
    | same => rfl
    | @claimed _ _ _ old _ returned =>
        have inBatch := ((returned _).mpr rfl)
        exact absurd (List.mem_map.mpr ⟨_, inBatch.2, inBatch.1⟩) outside
  · intro event member
    refine ⟨List.Subset.refl _, ?_⟩
    change ∃ row, done.db.event? event.id = some row ∧ _
    have change := changes event.id
    have isToken := token event member
    generalize before.db.event? event.id = old at change
    generalize done.db.event? event.id = new at change
    cases change with
    | same idle => exact absurd ⟨event, member, rfl⟩ idle
    | claimed =>
        refine ⟨_, rfl, nofun, fun other _ isOther => ?_⟩
        rw [isToken]
        exact List.mem_singleton.mpr (Option.some.inj isOther).symm

/-- What a run does to one event of its batch. -/
structure EventSettled (isCloud : Bool) (publisher : JobPublisher) (issued : List Uuid)
    (pool : Pool platform World) (event : ClaimedEvent) (segment : List PlatformExchange) :
    Prop where
  attempt : Attempt publisher event segment
  frame : ∀ exchange ∈ segment, ∀ id ≠ event.id,
    exchange.after.db.event? id = exchange.before.db.event? id
  publishes : ∀ before reply after, (⟨before, .repository (.markOutboxPublished event.id
    event.claimToken), reply, after⟩ : PlatformExchange) ∈ segment →
      Marked event.id event.claimToken publishEventRow before after reply
  fails : ∀ before text reply after, (⟨before, .repository (.markOutboxFailed event.id
    event.claimToken text), reply, after⟩ : PlatformExchange) ∈ segment →
      Marked event.id event.claimToken (failEventRow text) before after reply
  final : ∀ later, Relation.ReflTransGen (jobPlatform isCloud).Step pool later →
    ∃ row, later.state.db.event? event.id = some row ∧ row.claimToken ≠ some event.claimToken ∧
      (row.status = .published ∨
        (row.status = .failed ∧ ∀ leaseSeconds now, (eventClaimable leaseSeconds now row).Holds) ∨
        row.status = .publishing ∧ ∃ newer ∉ issued, row.claimToken = some newer)
  stays : (∃ exchange ∈ segment, exchange.after.Published event.id) →
    ∀ later, Relation.ReflTransGen (jobPlatform isCloud).Step pool later →
      later.state.Published event.id

/-- One run of `dispatch_outbox` over any outbox, with any payloads, replies and interleaved claims
of other threads, provided the failure marks return: the events of its batch are tried once each,
in claim order, and each attempt changes no row but its own; a mark sets the row, or finds it
displaced and leaves it; in every state from the end of the run on, each event of the batch is
published, has failed and can be claimed at once, or is left to a claim newer than the batch, and a
publication that was committed stays; the claim changes no event outside the batch; and the run
returns the number of `mark_outbox_published` calls that returned `True`. -/
theorem batch_isolated {limit leaseSeconds : Int} (shape : first.state.db.Shape)
    (run : (jobPlatform isCloud).CompleteRun t
      (Code.task (dispatchOutbox publisher limit leaseSeconds)) first pool exchanges)
    (returns : ∀ exchange ∈ exchanges, FailureMarkReturns exchange) {before after : World}
    {events : List ClaimedEvent} {rest : List PlatformExchange}
    (claimed : exchanges =
      ⟨before, .repository (.claimOutboxEvents limit leaseSeconds), .ok events, after⟩ :: rest) :
    (events.map ClaimedEvent.id).Nodup ∧
      (∃ claimToken, ∀ event ∈ events, event.claimToken = claimToken) ∧
      (∀ id, id ∉ events.map ClaimedEvent.id → after.db.event? id = before.db.event? id) ∧
      (∃ segments, rest = segments.flatten ∧
        List.Forall₂ (EventSettled isCloud publisher after.drawn pool) events segments) ∧
      Transcript (dispatchOutbox publisher limit leaseSeconds).run exchanges
        (.ok (publications exchanges)) := by
  subst claimed
  obtain ⟨distinct, ⟨claimToken, drawn, token⟩, outside, held⟩ :=
    batch_of_claim (run.steps _ List.mem_cons_self)
  obtain ⟨result, ran⟩ := transcript_task run.ran
  have looped : Transcript (Code.forEach events 0 (dispatchEvent publisher)).run rest result := by
    rcases transcript_performBind ran with ⟨_, _, _, _, isList, continued⟩ | ⟨_, _, _, isList, _⟩
    · cases isList
      exact continued
    · cases isList
  obtain ⟨segments, rfl, dispatched, rfl⟩ := forEach_segments looped
    (fun exchange member => run.steps exchange (.tail _ member))
    (fun exchange member => returns exchange (.tail _ member))
  refine ⟨distinct, ⟨claimToken, token⟩, outside, ⟨segments, rfl, ?_⟩, ?_⟩
  · obtain ⟨sameLength, pairs⟩ := List.forall₂_iff_zip.mp dispatched
    refine List.forall₂_iff_zip.mpr ⟨sameLength, ?_⟩
    intro event segment pair
    obtain ⟨inEvents, inSegments⟩ := List.of_mem_zip pair
    have own := pairs pair
    have inRun : ∀ exchange ∈ segment, exchange ∈ segments.flatten := fun exchange member =>
      List.mem_flatten.mpr ⟨segment, inSegments, member⟩
    have steps : ∀ exchange ∈ segment, (jobPlatform isCloud).Steps t exchange :=
      fun exchange member => run.steps exchange (.tail _ (inRun exchange member))
    have shapes := run.watched.invariant (P := fun w => w.db.Shape) shape_step shape
    have heldLater := run.watched.pairwise
      (P := fun w => w.EventHeld event.id after.drawn [event.claimToken]) eventHeld_step
    rw [List.map_cons] at heldLater
    have claims : ∀ exchange ∈ segment, UnderEventClaim isCloud t event after.drawn exchange := by
      intro exchange member
      have isCall := List.mem_map_of_mem (f := Exchange.states) (inRun exchange member)
      exact ⟨steps exchange member, shapes.1 _ (List.mem_cons_of_mem _ isCall),
        (List.pairwise_cons.mp heldLater.1).1 _ isCall (held event inEvents)⟩
    obtain ⟨release, inSegment, released⟩ := own.attempt.releases claims
      fun exchange member => returns exchange (.tail _ (inRun exchange member))
    have isCall : ∀ exchange ∈ segment,
        exchange.states ∈ ((⟨before, .repository (.claimOutboxEvents limit leaseSeconds), .ok events,
          after⟩ : PlatformExchange) :: segments.flatten).map Exchange.states :=
      fun exchange member => List.mem_map_of_mem (.tail _ (inRun exchange member))
    have atEnd := (run.watched.pairwise (P := fun w => w.EventHeld event.id after.drawn [])
      eventHeld_step).2 _ (isCall release inSegment) released
    refine ⟨own.attempt, ?_, ?_, ?_, ?_, ?_⟩
    · exact fun exchange member => (own.own exchange member).frame (steps exchange member)
    · exact fun _ _ _ member => publish_marked (steps _ member)
    · exact fun _ _ _ _ member => fail_marked (steps _ member)
    · intro later reached
      have heldAtLater := steps_keep (P := fun w => w.EventHeld event.id after.drawn [])
        eventHeld_step reached atEnd
      obtain ⟨row, found, disposition⟩ := heldAtLater.disposition
        (steps_keep (P := fun w => w.db.Shape) shape_step reached shapes.2)
      refine ⟨row, found, fun isToken => ?_, disposition⟩
      obtain ⟨other, isOther, _, tokens⟩ := heldAtLater.row
      rw [found] at isOther
      cases isOther
      exact List.not_mem_nil (tokens _ (token event inEvents ▸ drawn) isToken)
    · rintro ⟨exchange, member, published⟩ later reached
      refine steps_keep (P := fun w => w.Published event.id) published_step reached ?_
      exact (run.watched.pairwise (P := fun w => w.Published event.id) published_step).2 _
        (isCall exchange member) published
  · have counted : publications ((⟨before, .repository (.claimOutboxEvents limit leaseSeconds),
        .ok events, after⟩ : PlatformExchange) :: segments.flatten) =
          0 + publications segments.flatten := by
      unfold publications
      rw [List.countP_cons, Nat.add_comm]
      rfl
    rw [counted]
    exact ran

/-- An outbox with an event of an unsupported version, and a later one. -/
def mixedOutbox : Database :=
  { Database.empty with
    jobOutbox := ⟨[{ newEvent (Uuid.ofInt 27) none (Uuid.ofInt 28) 0 with version := 2 },
      newEvent (Uuid.ofInt 37) none (Uuid.ofInt 38) 1], by decide⟩ }

theorem mixedOutbox_shape : mixedOutbox.Shape := by
  refine ⟨fun job member => (List.not_mem_nil member).elim, fun event member => ?_⟩
  rcases List.mem_pair.mp member with rfl | rfl
  · constructor <;> simp [newEvent]
  · constructor <;> simp [newEvent]

/-- A dispatcher claims both, refuses the first and publishes the second. -/
theorem mixed_run : ∃ (first pool : Pool platform World) (before after : World)
    (events : List ClaimedEvent) (rest : List PlatformExchange), first.state.db.Shape ∧
      (jobPlatform true).CompleteRun 0 (Code.task (dispatchOutbox .sqs 10 120)) first pool
        (⟨before, .repository (.claimOutboxEvents 10 120), .ok events, after⟩ :: rest) ∧
      events.map ClaimedEvent.version = [2, 1] ∧ publications rest = 1 ∧
      ∀ exchange ∈ (⟨before, .repository (.claimOutboxEvents 10 120), .ok events, after⟩ :: rest :
        List PlatformExchange), FailureMarkReturns exchange := by
  let start : World := { World.initial with db := mixedOutbox }
  let bad : ClaimedEvent :=
    ⟨Uuid.ofInt 28, "job.created", 2, Repository.outboxPayload (Uuid.ofInt 27) none, 1, Uuid.ofInt 0⟩
  let good : ClaimedEvent :=
    ⟨Uuid.ofInt 38, "job.created", 1, Repository.outboxPayload (Uuid.ofInt 37) none, 1, Uuid.ofInt 0⟩
  have claimed : start.Perform (.repository (.claimOutboxEvents 10 120)) (.ok [bad, good]) _ :=
    .answered (show (Inputs.numbered 0 2).Fresh [] by decide) rfl
  have tried : (claimed.exchange 0).after.Perform (.record .workerOutboxDispatch ["attempt"])
      (.ok ()) _ := .recorded
  have noted : (tried.exchange 0).after.Perform (.record .workerOutboxDispatch ["failure"])
      (.ok ()) _ := .recorded
  have failed : (noted.exchange 0).after.Perform (.repository
      (.markOutboxFailed (Uuid.ofInt 28) (Uuid.ofInt 0) "ValueError")) (.ok true) _ :=
    .answered (show (Inputs.numbered 1 2).Fresh (List.ofFn (Inputs.numbered 0 2).uuid) by decide) rfl
  have retried : (failed.exchange 0).after.Perform (.record .workerOutboxDispatch ["attempt"])
      (.ok ()) _ := .recorded
  have sent : (retried.exchange 0).after.Perform (.sendMessage (some (Uuid.ofInt 38, Uuid.ofInt 0))
      (jobMessage (Uuid.ofInt 37) .null)) (.ok ()) _ := .sent _
  have published : (sent.exchange 0).after.Perform (.repository
      (.markOutboxPublished (Uuid.ofInt 38) (Uuid.ofInt 0))) (.ok true) _ :=
    .answered (show (Inputs.numbered 2 2).Fresh
      (List.ofFn (Inputs.numbered 0 2).uuid ++ List.ofFn (Inputs.numbered 1 2).uuid) by decide) rfl
  have counted : (published.exchange 0).after.Perform (.record .workerOutboxDispatch ["success"])
      (.ok ()) _ := .recorded
  let failing := [tried.exchange 0, noted.exchange 0, failed.exchange 0]
  let publishing := [retried.exchange 0, sent.exchange 0, published.exchange 0, counted.exchange 0]
  have refused : Transcript (dispatchEvent .sqs 0 bad).run failing (.ok 0) := .call (.call (.call .done))
  have attempted : Transcript (publishEvent .sqs good 0).run publishing (.ok 1) := by
    have formed : readOutboxPayload good.payload = .ok (Uuid.ofInt 37, .null) := rfl
    have supported : ¬ (good.eventType ≠ "job.created" ∨ good.version ≠ 1) := by simp [good]
    unfold publishEvent
    rw [if_neg supported, formed, Code.ofExcept_ok_bind]
    exact .call (.call (.call (.call .done)))
  have returned : Transcript (dispatchEvent .sqs 0 good).run publishing (.ok 1) :=
    attempted.tryReturn _
  have looped : Transcript (Code.forEach [bad, good] 0 (dispatchEvent .sqs)).run
      (failing ++ publishing) (.ok 1) := refused.codeBind (returned.codeBind .done)
  have ran : Transcript (Code.task (dispatchOutbox .sqs 10 120))
      (claimed.exchange 0 :: (failing ++ publishing)) () := by
    rw [← List.append_nil (claimed.exchange 0 :: _)]
    exact Transcript.bind (.call looped) .done
  have steps : ∀ exchange ∈ claimed.exchange 0 :: (failing ++ publishing),
      (jobPlatform true).Steps 0 exchange := by
    simp only [failing, publishing, List.cons_append, List.nil_append, List.forall_mem_cons]
    exact ⟨claimed.steps _ _, tried.steps _ _, noted.steps _ _, failed.steps _ _, retried.steps _ _,
      sent.steps _ _, published.steps _ _, counted.steps _ _, List.forall_mem_nil _⟩
  let first : Pool platform World :=
    ⟨start, Function.update (fun _ => none) 0 (some (Code.task (dispatchOutbox .sqs 10 120)))⟩
  obtain ⟨pool, run⟩ := completeRun_of_transcript ran
    (show first.threads 0 = some _ from rfl)
    ⟨.inl rfl, .inl rfl, .inl rfl, .inl rfl, .inl rfl, .inl rfl, .inl rfl, .inl rfl, trivial⟩ steps
  refine ⟨first, pool, start, (claimed.exchange 0).after, [bad, good], failing ++ publishing,
    mixedOutbox_shape, run, rfl, rfl, ?_⟩
  simp only [failing, publishing, List.cons_append, List.nil_append, List.forall_mem_cons]
  exact ⟨trivial, trivial, trivial, trivial, trivial, trivial, trivial, trivial,
    List.forall_mem_nil _⟩

/-- The failure of the first event keeps nothing from the second. -/
theorem batch_isolated_mixed : ∃ (pool : Pool platform World) (issued : List Uuid)
    (events : List ClaimedEvent) (segments : List (List PlatformExchange)),
      events.map ClaimedEvent.version = [2, 1] ∧ publications segments.flatten = 1 ∧
      List.Forall₂ (EventSettled true .sqs issued pool) events segments := by
  obtain ⟨first, pool, before, after, events, rest, shape, run, versions, one, returns⟩ := mixed_run
  obtain ⟨_, _, _, ⟨segments, rfl, settled⟩, _⟩ := batch_isolated shape run returns rfl
  exact ⟨pool, after.drawn, events, segments, versions, one, settled⟩

end Guarantee

end JobPlatform.Runtime
