import JobPlatform.Foundation.Execution

/-!
Contract: the exchanges of one complete run of a program.

Owns:
- `Exchange`, one call with its reply and the states around it, and `Transcript`, the exchanges a
  program makes and the value it ends with;
- the inversion rules for sequencing, exceptions and loops;
- the bridge from `Execution`: the exchanges of a thread are steps of its system;
- `Observed`, a stretch of a run of the whole pool that notes the exchanges of one thread.

Does not own the world: a transcript says what the program asks and what it does with the answers,
whatever the answers are and whatever happens between two calls.
-/

namespace JobPlatform.Foundation

/-- One call: the states around it, and the reply. -/
structure Exchange (S : Calls) (σ : Type) where
  before : σ
  call : S.Call
  reply : S.Reply call
  after : σ

/-- The states around a call. -/
def Exchange.states {S : Calls} {σ : Type} (exchange : Exchange S σ) : σ × σ :=
  (exchange.before, exchange.after)

/-- The call with its reply, whatever the states around it. -/
def Exchange.answer {S : Calls} {σ : Type} (exchange : Exchange S σ) : S.Answer :=
  ⟨exchange.call, exchange.reply⟩

/-- The program makes these exchanges, in order, and ends with the value. -/
inductive Transcript {S : Calls} {σ α : Type} :
    Program S α → List (Exchange S σ) → α → Prop where
  | done {value : α} : Transcript (.done value) [] value
  | call {c : S.Call} {rest : S.Reply c → Program S α} {before after : σ} {reply : S.Reply c}
      {exchanges : List (Exchange S σ)} {value : α}
      (continued : Transcript (rest reply) exchanges value) :
      Transcript (.call c rest) (⟨before, c, reply, after⟩ :: exchanges) value

section Rules

variable {S : Calls} {σ α β : Type} {exchanges : List (Exchange S σ)}

theorem transcript_done {value result : α} (ran : Transcript (.done value) exchanges result) :
    exchanges = [] ∧ result = value := by
  cases ran with
  | done => exact ⟨rfl, rfl⟩

/-- A sequence ran its first part to an end, and then its second. -/
theorem transcript_bind {program : Program S α} {next : α → Program S β} {result : β}
    (ran : Transcript (program >>= next) exchanges result) :
    ∃ first value rest, exchanges = first ++ rest ∧ Transcript program first value ∧
      Transcript (next value) rest result := by
  induction program generalizing exchanges with
  | done value => exact ⟨[], value, exchanges, rfl, .done, ran⟩
  | call c rest inductionHypothesis =>
      cases ran with
      | call continued =>
          obtain ⟨first, value, remaining, isExchanges, firstRan, nextRan⟩ :=
            inductionHypothesis _ continued
          exact ⟨_, value, remaining, by rw [isExchanges, List.cons_append], .call firstRan,
            nextRan⟩

/-- Two parts, one after the other. -/
theorem Transcript.bind {program : Program S α} {next : α → Program S β} {value : α} {result : β}
    {later : List (Exchange S σ)} (first : Transcript program exchanges value)
    (rest : Transcript (next value) later result) :
    Transcript (program >>= next) (exchanges ++ later) result := by
  induction first with
  | done => exact rest
  | call _ inductionHypothesis => exact .call (inductionHypothesis rest)

/-! ### Code with exceptions -/

variable {code : Code S α}

theorem transcript_perform {c : S.Call} {result : S.Reply c}
    (ran : Transcript (Code.perform c).run exchanges result) :
    ∃ before after, exchanges = [⟨before, c, result, after⟩] := by
  cases ran with
  | call continued =>
      obtain ⟨rfl, rfl⟩ := transcript_done continued
      exact ⟨_, _, rfl⟩

theorem Transcript.perform {c : S.Call} (before : σ) (reply : S.Reply c) (after : σ) :
    Transcript (Code.perform c).run [⟨before, c, reply, after⟩] reply :=
  .call .done

theorem transcript_pure {value : α} {result : Except S.Error α}
    (ran : Transcript (pure value : Code S α).run exchanges result) :
    exchanges = [] ∧ result = .ok value :=
  transcript_done ran

theorem transcript_throw {error : S.Error} {result : Except S.Error α}
    (ran : Transcript (throw error : Code S α).run exchanges result) :
    exchanges = [] ∧ result = .error error :=
  transcript_done ran

theorem transcript_codeBind {next : α → Code S β} {result : Except S.Error β}
    (ran : Transcript (code >>= next).run exchanges result) :
    (∃ first value rest, exchanges = first ++ rest ∧ Transcript code.run first (.ok value) ∧
      Transcript (next value).run rest result) ∨
    ∃ error, result = .error error ∧ Transcript code.run exchanges (.error error) := by
  rw [ExceptT.run_bind] at ran
  obtain ⟨first, value, rest, isExchanges, firstRan, restRan⟩ := transcript_bind ran
  cases value with
  | ok value => exact .inl ⟨first, value, rest, isExchanges, firstRan, restRan⟩
  | error error =>
      obtain ⟨rfl, rfl⟩ := transcript_done restRan
      rw [List.append_nil] at isExchanges
      exact .inr ⟨error, rfl, isExchanges ▸ firstRan⟩

/-- The first part returned. -/
theorem Transcript.codeBind {next : α → Code S β} {value : α} {result : Except S.Error β}
    {later : List (Exchange S σ)} (first : Transcript code.run exchanges (.ok value))
    (rest : Transcript (next value).run later result) :
    Transcript (code >>= next).run (exchanges ++ later) result := by
  rw [ExceptT.run_bind]
  exact first.bind rest

/-- The first part raised. -/
theorem Transcript.codeRaise {error : S.Error} (raised : Transcript code.run exchanges (.error error))
    (next : α → Code S β) : Transcript (code >>= next).run exchanges (.error error) := by
  rw [ExceptT.run_bind, ← List.append_nil exchanges]
  exact raised.bind .done

/-- A body that returned is not handled. -/
theorem Transcript.tryReturn {value : α} (returned : Transcript code.run exchanges (.ok value))
    (handle : S.Error → Code S α) :
    Transcript (tryCatch code handle).run exchanges (.ok value) := by
  rw [ExceptT.run_tryCatch, ← List.append_nil exchanges]
  exact returned.bind .done

/-- The body ends, and then the cleanup returns. -/
theorem Transcript.finally_ {cleanup : Code S Unit} {result : Except S.Error α}
    {later : List (Exchange S σ)} (body : Transcript code.run exchanges result)
    (cleaned : Transcript cleanup.run later (.ok ())) :
    Transcript (Code.finally_ code cleanup).run (exchanges ++ later) result := by
  rw [← List.append_nil later]
  exact body.bind (cleaned.bind .done)

/-- A call, and what follows it if it returned. -/
theorem transcript_performBind {c : S.Call} {next : S.Result c → Code S β}
    {result : Except S.Error β} (ran : Transcript (Code.perform c >>= next).run exchanges result) :
    (∃ before value after rest, exchanges = ⟨before, c, .ok value, after⟩ :: rest ∧
      Transcript (next value).run rest result) ∨
    ∃ before error after, exchanges = [⟨before, c, .error error, after⟩] ∧
      result = .error error := by
  rcases transcript_codeBind ran with
    ⟨first, value, rest, rfl, called, continued⟩ | ⟨error, isError, raised⟩
  · obtain ⟨before, after, rfl⟩ := transcript_perform called
    exact .inl ⟨before, value, after, rest, rfl, continued⟩
  · obtain ⟨before, after, rfl⟩ := transcript_perform raised
    exact .inr ⟨before, error, after, rfl, isError⟩

theorem transcript_tryCatch {handle : S.Error → Code S α} {result : Except S.Error α}
    (ran : Transcript (tryCatch code handle).run exchanges result) :
    (∃ value, result = .ok value ∧ Transcript code.run exchanges (.ok value)) ∨
    ∃ first error rest, exchanges = first ++ rest ∧ Transcript code.run first (.error error) ∧
      Transcript (handle error).run rest result := by
  rw [ExceptT.run_tryCatch] at ran
  obtain ⟨first, value, rest, isExchanges, firstRan, restRan⟩ := transcript_bind ran
  cases value with
  | ok value =>
      obtain ⟨rfl, rfl⟩ := transcript_done restRan
      rw [List.append_nil] at isExchanges
      exact .inl ⟨value, rfl, isExchanges ▸ firstRan⟩
  | error error => exact .inr ⟨first, error, rest, isExchanges, firstRan, restRan⟩

/-- The cleanup ran after the body, whatever the body ended with. -/
theorem transcript_finally {cleanup : Code S Unit} {result : Except S.Error α}
    (ran : Transcript (Code.finally_ code cleanup).run exchanges result) :
    ∃ first body rest, exchanges = first ++ rest ∧ Transcript code.run first body ∧
      ((Transcript cleanup.run rest (.ok ()) ∧ result = body) ∨
        ∃ error, Transcript cleanup.run rest (.error error) ∧ result = .error error) := by
  obtain ⟨first, body, rest, isExchanges, bodyRan, restRan⟩ := transcript_bind ran
  obtain ⟨cleaning, cleaned, nothing, isRest, cleanupRan, ended⟩ := transcript_bind restRan
  cases cleaned with
  | ok value =>
      obtain ⟨rfl, rfl⟩ := transcript_done ended
      rw [List.append_nil] at isRest
      exact ⟨first, result, rest, isExchanges, bodyRan, .inl ⟨isRest ▸ cleanupRan, rfl⟩⟩
  | error error =>
      obtain ⟨rfl, rfl⟩ := transcript_done ended
      rw [List.append_nil] at isRest
      exact ⟨first, body, rest, isExchanges, bodyRan, .inr ⟨error, isRest ▸ cleanupRan, rfl⟩⟩

theorem transcript_task {code : Code S α} {value : Unit}
    (ran : Transcript code.task exchanges value) :
    ∃ result, Transcript code.run exchanges result := by
  obtain ⟨first, result, rest, rfl, codeRan, ended⟩ := transcript_bind ran
  obtain ⟨rfl, _⟩ := transcript_done ended
  rw [List.append_nil]
  exact ⟨result, codeRan⟩

/-- A transcript depends on the states around its calls in nothing. -/
theorem Transcript.between {τ : Type} {program : Program S α} {value : α}
    {others : List (Exchange S τ)} (ran : Transcript program exchanges value)
    (same : others.map Exchange.answer = exchanges.map Exchange.answer) :
    Transcript program others value := by
  induction ran generalizing others with
  | done =>
      rw [List.map_eq_nil_iff.mp same]
      exact .done
  | call _ inductionHypothesis =>
      obtain ⟨other, rest, rfl, isAnswer, isRest⟩ := List.map_eq_cons_iff.mp same
      obtain ⟨before, call, reply, after⟩ := other
      cases isAnswer
      exact .call (inductionHypothesis isRest)

/-- What every call a program may make satisfies, the calls it made satisfy. -/
theorem Transcript.only {Q : S.Call → Prop} {program : Program S α} {result : α}
    (ran : Transcript program exchanges result) (only : program.Only Q) :
    ∀ exchange ∈ exchanges, Q exchange.call := by
  induction ran with
  | done => simp
  | call _ inductionHypothesis =>
      exact List.forall_mem_cons.mpr ⟨only.1, inductionHypothesis (only.2 _)⟩

/-- A program ends if its calls are answered. -/
theorem exists_transcript (answer : (c : S.Call) → S.Reply c) (state : σ) (program : Program S α) :
    ∃ (exchanges : List (Exchange S σ)) (value : α), Transcript program exchanges value ∧
      ∀ exchange ∈ exchanges, exchange.reply = answer exchange.call := by
  induction program with
  | done value => exact ⟨[], value, .done, List.forall_mem_nil _⟩
  | call c rest inductionHypothesis =>
      obtain ⟨exchanges, value, ran, answered⟩ := inductionHypothesis (answer c)
      exact ⟨⟨state, c, answer c, state⟩ :: exchanges, value, .call ran,
        List.forall_mem_cons.mpr ⟨rfl, answered⟩⟩

/-! ### Where an error comes from -/

/-- The call raised the error. -/
def Exchange.Raised (error : S.Error) (exchange : Exchange S σ) : Prop :=
  exchange.reply = .error error

/-- Every error the code ends with is one of its own, or was raised by one of its calls. -/
def RaisesOnly (σ : Type) (own : S.Error → Prop) (code : Code S α) : Prop :=
  ∀ (exchanges : List (Exchange S σ)) (error : S.Error),
    Transcript code.run exchanges (.error error) →
      own error ∨ ∃ exchange ∈ exchanges, exchange.Raised error

variable {own : S.Error → Prop}

theorem raises_pure (value : α) : RaisesOnly σ own (pure value : Code S α) := by
  intro exchanges error ran
  cases (transcript_pure ran).2

theorem raises_throw {error : S.Error} (isOwn : own error) :
    RaisesOnly σ own (throw error : Code S α) := by
  intro exchanges other ran
  cases (transcript_throw ran).2
  exact .inl isOwn

theorem raises_perform (c : S.Call) : RaisesOnly σ own (Code.perform c) := by
  intro exchanges error ran
  obtain ⟨before, after, rfl⟩ := transcript_perform ran
  exact .inr ⟨_, List.mem_cons_self, rfl⟩

theorem RaisesOnly.bind {next : α → Code S β} (first : RaisesOnly σ own code)
    (rest : ∀ value, RaisesOnly σ own (next value)) : RaisesOnly σ own (code >>= next) := by
  intro exchanges error ran
  rcases transcript_codeBind ran with
    ⟨before, value, after, rfl, _, continued⟩ | ⟨other, isError, raised⟩
  · rcases rest value _ _ continued with isOwn | ⟨exchange, member, isRaised⟩
    · exact .inl isOwn
    · exact .inr ⟨exchange, List.mem_append_right _ member, isRaised⟩
  · cases isError
    exact first _ _ raised

/-- A handler may raise again what it handles. -/
theorem RaisesOnly.tryCatch {handle : S.Error → Code S α} (first : RaisesOnly σ own code)
    (raised : ∀ error, RaisesOnly σ (fun other => own other ∨ other = error) (handle error)) :
    RaisesOnly σ own (tryCatch code handle) := by
  intro exchanges error ran
  rcases transcript_tryCatch ran with ⟨value, isOk, _⟩ | ⟨body, other, rest, rfl, bodyRan, handled⟩
  · cases isOk
  · rcases raised other _ _ handled with (isOwn | rfl) | ⟨exchange, member, isRaised⟩
    · exact .inl isOwn
    · rcases first _ _ bodyRan with isOwn | ⟨exchange, member, isRaised⟩
      · exact .inl isOwn
      · exact .inr ⟨exchange, List.mem_append_left _ member, isRaised⟩
    · exact .inr ⟨exchange, List.mem_append_right _ member, isRaised⟩

theorem RaisesOnly.finally_ {cleanup : Code S Unit} (first : RaisesOnly σ own code)
    (last : RaisesOnly σ own cleanup) : RaisesOnly σ own (Code.finally_ code cleanup) := by
  intro exchanges error ran
  obtain ⟨body, result, rest, rfl, bodyRan, cleaned⟩ := transcript_finally ran
  rcases cleaned with ⟨_, rfl⟩ | ⟨other, raised, isError⟩
  · rcases first _ _ bodyRan with isOwn | ⟨exchange, member, isRaised⟩
    · exact .inl isOwn
    · exact .inr ⟨exchange, List.mem_append_left _ member, isRaised⟩
  · cases isError
    rcases last _ _ raised with isOwn | ⟨exchange, member, isRaised⟩
    · exact .inl isOwn
    · exact .inr ⟨exchange, List.mem_append_right _ member, isRaised⟩

end Rules

namespace ThreadSystem

variable {S : Calls} {σ : Type} {α : Type} {sys : ThreadSystem S σ} {t : ThreadId}

/-- The exchange is a step of the thread. -/
def Steps (sys : ThreadSystem S σ) (t : ThreadId) (exchange : Exchange S σ) : Prop :=
  sys.exec t exchange.before exchange.call exchange.reply exchange.after

/-- A stretch that starts at a reachable pool stays among the reachable pools. -/
theorem Watched.reachable {init : σ} {first pool : Pool S σ} {calls : List (σ × σ)}
    (reached : sys.Reachable init first) (watched : sys.Watched t first calls pool) :
    sys.Reachable init pool := by
  induction watched with
  | start => exact reached
  | own _ running called inductionHypothesis => exact inductionHypothesis.call t running called
  | other _ step _ inductionHypothesis => exact inductionHypothesis.tail step

/-- What every step keeps holds before each call of a stretch, if it held after an earlier one. -/
theorem Watched.pairwise {first pool : Pool S σ} {calls : List (σ × σ)} {P : σ → Prop}
    (keeps : ∀ {before after : Pool S σ}, sys.Step before after → P before.state → P after.state)
    (watched : sys.Watched t first calls pool) :
    calls.Pairwise (fun call later => P call.2 → P later.1) ∧
      ∀ call ∈ calls, P call.2 → P pool.state := by
  induction watched with
  | start => simp
  | @own calls pool c rest reply after before running called inductionHypothesis =>
      obtain ⟨earlier, last⟩ := inductionHypothesis
      constructor
      · rw [List.pairwise_append]
        refine ⟨earlier, List.pairwise_singleton _ _, fun call member later isLast => ?_⟩
        rw [List.mem_singleton.mp isLast]
        exact last call member
      · intro call member holds
        rcases List.mem_append.mp member with inCalls | isLast
        · exact keeps (.call running called) (last call inCalls holds)
        · rw [List.mem_singleton.mp isLast] at holds
          exact holds
  | other before step _ inductionHypothesis =>
      exact ⟨inductionHypothesis.1, fun call member holds =>
        keeps step (inductionHypothesis.2 call member holds)⟩

/-- What every step keeps holds throughout a stretch that starts with it. -/
theorem Watched.invariant {first pool : Pool S σ} {calls : List (σ × σ)} {P : σ → Prop}
    (keeps : ∀ {before after : Pool S σ}, sys.Step before after → P before.state → P after.state)
    (start : P first.state) (watched : sys.Watched t first calls pool) :
    (∀ call ∈ calls, P call.1) ∧ P pool.state := by
  induction watched with
  | start => exact ⟨List.forall_mem_nil _, start⟩
  | own before running called inductionHypothesis =>
      obtain ⟨earlier, last⟩ := inductionHypothesis
      refine ⟨fun call member => ?_, keeps (.call running called) last⟩
      rcases List.mem_append.mp member with inCalls | isLast
      · exact earlier call inCalls
      · rw [List.mem_singleton.mp isLast]
        exact last
  | other before step _ inductionHypothesis =>
      exact ⟨inductionHypothesis.1, keeps step inductionHypothesis.2⟩

/-- Every call of a stretch was made in a reachable pool. -/
theorem Watched.calls_reachable {init : σ} {first pool : Pool S σ} {calls : List (σ × σ)}
    (reached : sys.Reachable init first) (watched : sys.Watched t first calls pool) :
    ∀ call ∈ calls, ∃ earlier, sys.Reachable init earlier ∧ earlier.state = call.1 := by
  induction watched with
  | start => simp
  | own before _ _ inductionHypothesis =>
      intro call member
      rcases List.mem_append.mp member with earlier | last
      · exact inductionHypothesis call earlier
      · rw [List.mem_singleton.mp last]
        exact ⟨_, before.reachable reached, rfl⟩
  | other _ _ _ inductionHypothesis => exact inductionHypothesis

/-- A thread ran a program from its start to its end, inside a run of the pool. -/
structure CompleteRun (sys : ThreadSystem S σ) (t : ThreadId) (program : Program S Unit)
    (first pool : Pool S σ) (exchanges : List (Exchange S σ)) : Prop where
  started : first.threads t = some program
  watched : sys.Watched t first (exchanges.map Exchange.states) pool
  ended : pool.threads t = some (.done ())
  ran : Transcript program exchanges ()
  steps : ∀ exchange ∈ exchanges, sys.Steps t exchange

/-- Each exchange begins where the one before it ended, or one move of the environment later. -/
def Unbroken (sys : ThreadSystem S σ) : σ → List (Exchange S σ) → Prop
  | _, [] => True
  | s, exchange :: rest =>
      (exchange.before = s ∨ sys.env s exchange.before) ∧ Unbroken sys exchange.after rest

/-- Calls that no thread interrupts are a run of the pool. -/
theorem Watched.uninterrupted {first pool : Pool S σ} {calls : List (σ × σ)}
    {program : Program S Unit} {exchanges : List (Exchange S σ)}
    (watched : sys.Watched t first calls pool) (running : pool.threads t = some program)
    (ran : Transcript program exchanges ()) (unbroken : sys.Unbroken pool.state exchanges)
    (steps : ∀ exchange ∈ exchanges, sys.Steps t exchange) :
    ∃ last, sys.Watched t first (calls ++ exchanges.map Exchange.states) last ∧
      last.threads t = some (.done ()) := by
  induction exchanges generalizing calls pool program with
  | nil =>
      cases ran
      exact ⟨pool, by simpa using watched, running⟩
  | cons exchange rest inductionHypothesis =>
      cases ran with
      | @call _ _ start _ _ _ _ continued =>
          obtain ⟨begins, later⟩ := unbroken
          have arrived : ∃ next, sys.Watched t first calls next ∧
              next.threads t = pool.threads t ∧ next.state = start := by
            rcases begins with same | moved
            · exact ⟨pool, watched, rfl, same.symm⟩
            · exact ⟨⟨_, pool.threads⟩, watched.other (.env moved) rfl, rfl, rfl⟩
          obtain ⟨⟨state, threads⟩, watched, same, rfl⟩ := arrived
          obtain ⟨last, whole, ended⟩ := inductionHypothesis
            (watched.own (same.trans running) (steps _ List.mem_cons_self))
            (Function.update_self _ _ _) continued later
            fun exchange member => steps exchange (.tail _ member)
          exact ⟨last, by simpa [Exchange.states] using whole, ended⟩

/-- A program whose calls no thread interrupts runs to its end. -/
theorem completeRun_of_transcript {first : Pool S σ} {program : Program S Unit}
    {exchanges : List (Exchange S σ)} (ran : Transcript program exchanges ())
    (started : first.threads t = some program) (unbroken : sys.Unbroken first.state exchanges)
    (steps : ∀ exchange ∈ exchanges, sys.Steps t exchange) :
    ∃ last, sys.CompleteRun t program first last exchanges := by
  obtain ⟨last, watched, ended⟩ := Watched.start.uninterrupted started ran unbroken steps
  exact ⟨last, started, by simpa using watched, ended, ran, steps⟩

/-- A whole run of the pool that starts at `first`, with the exchanges of thread `t` in it. -/
inductive Observed (sys : ThreadSystem S σ) (t : ThreadId) (first : Pool S σ) :
    List (Exchange S σ) → Pool S σ → Prop where
  | start : Observed sys t first [] first
  | own {exchanges : List (Exchange S σ)} {pool : Pool S σ} {c : S.Call}
      {rest : S.Reply c → Program S Unit} {reply : S.Reply c} {after : σ}
      (before : Observed sys t first exchanges pool)
      (running : pool.threads t = some (.call c rest))
      (called : sys.exec t pool.state c reply after) :
      Observed sys t first (exchanges ++ [⟨pool.state, c, reply, after⟩])
        ⟨after, Function.update pool.threads t (some (rest reply))⟩
  | other {exchanges : List (Exchange S σ)} {pool next : Pool S σ}
      (before : Observed sys t first exchanges pool) (step : sys.Step pool next)
      (same : next.threads t = pool.threads t) : Observed sys t first exchanges next

variable {first pool : Pool S σ} {exchanges : List (Exchange S σ)}

/-- A call of another thread. -/
theorem Observed.beside {u : ThreadId} {c : S.Call} {rest : S.Reply c → Program S Unit}
    {reply : S.Reply c} {after : σ} (before : sys.Observed t first exchanges pool) (isOther : t ≠ u)
    (running : pool.threads u = some (.call c rest)) (called : sys.exec u pool.state c reply after) :
    sys.Observed t first exchanges ⟨after, Function.update pool.threads u (some (rest reply))⟩ :=
  before.other (.call running called) (Function.update_of_ne isOther _ _)

theorem Observed.reachable {init : σ} (reached : sys.Reachable init first)
    (observed : sys.Observed t first exchanges pool) : sys.Reachable init pool := by
  induction observed with
  | start => exact reached
  | own _ running called inductionHypothesis => exact inductionHypothesis.call t running called
  | other _ step _ inductionHypothesis => exact inductionHypothesis.tail step

/-- What a thread still has to do completes what it has done. -/
theorem Observed.transcript {program : Program S Unit} (running : first.threads t = some program)
    (observed : sys.Observed t first exchanges pool) :
    ∃ rest, pool.threads t = some rest ∧ ∀ {later value}, Transcript rest later value →
      Transcript program (exchanges ++ later) value := by
  induction observed with
  | start => exact ⟨program, running, id⟩
  | own before isCall called inductionHypothesis =>
      obtain ⟨rest, isRest, prior⟩ := inductionHypothesis
      rw [isCall] at isRest
      cases isRest
      refine ⟨_, Function.update_self _ _ _, fun continued => ?_⟩
      rw [List.append_assoc]
      exact prior (.call continued)
  | other before step same inductionHypothesis =>
      obtain ⟨rest, isRest, prior⟩ := inductionHypothesis
      exact ⟨rest, same.trans isRest, prior⟩

/-- What a complete run did is a transcript of its program. -/
theorem Observed.ended {program : Program S Unit} (running : first.threads t = some program)
    (observed : sys.Observed t first exchanges pool) (ended : pool.threads t = some (.done ())) :
    Transcript program exchanges () := by
  obtain ⟨rest, isRest, completes⟩ := observed.transcript running
  rw [ended] at isRest
  cases isRest
  have ran := completes .done
  rw [List.append_nil] at ran
  exact ran

/-- Each exchange is a call the thread made in a pool of the run, before the rest of the run. -/
theorem Observed.each {P : Exchange S σ → Pool S σ → Prop}
    (own : ∀ {pool : Pool S σ} {c rest reply after}, pool.threads t = some (.call c rest) →
      (∃ earlier, sys.Observed t first earlier pool) → sys.exec t pool.state c reply after →
      P ⟨pool.state, c, reply, after⟩ ⟨after, Function.update pool.threads t (some (rest reply))⟩)
    (keeps : ∀ {exchange} {before after : Pool S σ}, (∃ earlier, sys.Observed t first earlier before) →
      sys.Step before after → P exchange before → P exchange after)
    (observed : sys.Observed t first exchanges pool) : ∀ exchange ∈ exchanges, P exchange pool := by
  induction observed with
  | start => exact List.forall_mem_nil _
  | own before running called inductionHypothesis =>
      intro exchange member
      rcases List.mem_append.mp member with earlier | last
      · exact keeps ⟨_, before⟩ (.call running called) (inductionHypothesis exchange earlier)
      · rw [List.mem_singleton.mp last]
        exact own running ⟨_, before⟩ called
  | other before step _ inductionHypothesis =>
      exact fun exchange member => keeps ⟨_, before⟩ step (inductionHypothesis exchange member)

end ThreadSystem

end JobPlatform.Foundation
