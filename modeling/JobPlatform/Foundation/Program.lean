import Mathlib.Init

/-!
Contract: programs that act on the world only through calls, each of which may raise.

Owns:
- the program monad, with exceptions as in `try ... except`;
- `interpret`, the sequential meaning of a program under a handler, and its rules;
- `expand`, which replaces every call by a program over finer calls, and its rules;
- `Only`, what every call a program may make satisfies, and `Leads`, a part of a run of it.

Does not own: what a call does, or concurrency.
-/

namespace JobPlatform.Foundation

/-- The calls a program may make, the type of each result, and the type of errors. -/
structure Calls where
  Call : Type
  Result : Call → Type
  Error : Type

/-- What a call gives back: it returned a result or raised an error. -/
abbrev Calls.Reply (S : Calls) (call : S.Call) : Type := Except S.Error (S.Result call)

/-- A call with its reply. -/
abbrev Calls.Answer (S : Calls) : Type := (call : S.Call) × S.Reply call

/-- A finished program, or a call with what happens after each reply. -/
inductive Program (S : Calls) (α : Type) where
  | done (value : α)
  | call (call : S.Call) (rest : S.Reply call → Program S α)

namespace Program

variable {S T : Calls} {α β γ : Type}

/-- Sequencing. -/
def bind : Program S α → (α → Program S β) → Program S β
  | done value, next => next value
  | call c rest, next => call c fun reply => (rest reply).bind next

instance : Monad (Program S) where
  pure := done
  bind := bind

@[simp] theorem pure_eq (value : α) : (pure value : Program S α) = done value := rfl

@[simp] theorem done_bind (value : α) (next : α → Program S β) :
    (done value : Program S α) >>= next = next value := rfl

@[simp] theorem call_bind (c : S.Call) (rest : S.Reply c → Program S α) (next : α → Program S β) :
    call c rest >>= next = call c fun reply => rest reply >>= next := rfl

theorem bind_done (program : Program S α) : program >>= done = program := by
  induction program with
  | done value => rfl
  | call c rest inductionHypothesis => exact congrArg (call c) (funext inductionHypothesis)

theorem bind_assoc (program : Program S α) (first : α → Program S β) (second : β → Program S γ) :
    program >>= first >>= second = program >>= fun value => first value >>= second := by
  induction program with
  | done value => rfl
  | call c rest inductionHypothesis => exact congrArg (call c) (funext inductionHypothesis)

instance : LawfulMonad (Program S) :=
  LawfulMonad.mk' _ bind_done (fun _ _ => rfl) bind_assoc

/-- The sequential meaning of a program: `handler` answers each call and moves the state. -/
def interpret {σ : Type} (handler : (c : S.Call) → σ → S.Reply c × σ) :
    Program S α → σ → α × σ
  | done value, state => (value, state)
  | call c rest, state =>
      let (reply, after) := handler c state
      (rest reply).interpret handler after

/-- Replace every call by a program over other calls. -/
def expand (meaning : (c : S.Call) → Program T (S.Reply c)) : Program S α → Program T α
  | done value => done value
  | call c rest => (meaning c).bind fun reply => (rest reply).expand meaning

/-- Every call the program may make, whatever the replies, satisfies `Q`. -/
def Only (Q : S.Call → Prop) : Program S α → Prop
  | done _ => True
  | call c rest => Q c ∧ ∀ reply, (rest reply).Only Q

/-- The program makes these calls with these replies, and the last program is left of it. -/
inductive Leads : Program S α → List S.Answer → Program S α → Prop where
  | here {program : Program S α} : Leads program [] program
  | call {c : S.Call} {rest : S.Reply c → Program S α} {reply : S.Reply c}
      {answers : List S.Answer} {last : Program S α} (continued : Leads (rest reply) answers last) :
      Leads (call c rest) (⟨c, reply⟩ :: answers) last

theorem Only.mono {Q weaker : S.Call → Prop} {program : Program S α} (only : program.Only Q)
    (implies : ∀ c, Q c → weaker c) : program.Only weaker := by
  induction program with
  | done value => trivial
  | call c rest inductionHypothesis =>
      exact ⟨implies c only.1, fun reply => inductionHypothesis reply (only.2 reply)⟩

theorem Only.bind {Q : S.Call → Prop} {program : Program S α} {next : α → Program S β}
    (first : program.Only Q) (rest : ∀ value, (next value).Only Q) : (program >>= next).Only Q := by
  induction program with
  | done value => exact rest value
  | call c continued inductionHypothesis =>
      exact ⟨first.1, fun reply => inductionHypothesis reply (first.2 reply)⟩

theorem only_true (program : Program S α) : program.Only fun _ => True := by
  induction program with
  | done value => trivial
  | call c rest inductionHypothesis => exact ⟨trivial, inductionHypothesis⟩

section Expand

variable {meaning : (c : S.Call) → Program T (S.Reply c)}

theorem expand_bind (program : Program S α) (next : α → Program S β) :
    (program >>= next).expand meaning =
      program.expand meaning >>= fun value => (next value).expand meaning := by
  induction program with
  | done value => rfl
  | call c rest inductionHypothesis =>
      change (meaning c >>= fun reply => (rest reply >>= next).expand meaning) =
        (meaning c >>= fun reply => (rest reply).expand meaning) >>= _
      rw [bind_assoc]
      exact congrArg (meaning c >>= ·) (funext inductionHypothesis)

theorem Only.expand {Q : S.Call → Prop} {fine : T.Call → Prop} {program : Program S α}
    (only : program.Only Q) (each : ∀ c, Q c → (meaning c).Only fine) :
    (program.expand meaning).Only fine := by
  induction program with
  | done value => trivial
  | call c rest inductionHypothesis =>
      exact Only.bind (each c only.1) fun reply => inductionHypothesis reply (only.2 reply)

end Expand

section Interpret

variable {σ : Type} (handler : (c : S.Call) → σ → S.Reply c × σ)

@[simp] theorem interpret_done (value : α) (state : σ) :
    (done value).interpret handler state = (value, state) := rfl

@[simp] theorem interpret_call (c : S.Call) (rest : S.Reply c → Program S α) (state : σ) :
    (call c rest).interpret handler state =
      (rest (handler c state).1).interpret handler (handler c state).2 := rfl

theorem interpret_bind (program : Program S α) (next : α → Program S β) (state : σ) :
    (program >>= next).interpret handler state =
      (next (program.interpret handler state).1).interpret handler
        (program.interpret handler state).2 := by
  induction program generalizing state with
  | done value => rfl
  | call c rest inductionHypothesis => exact inductionHypothesis _ _

/-- Two handlers that agree on the calls of a program give it the same value, and related states. -/
theorem interpret_simulates {τ : Type} {other : (c : S.Call) → τ → S.Reply c × τ}
    {related : σ → τ → Prop} {Q : S.Call → Prop}
    (agree : ∀ {c state twin}, Q c → related state twin →
      (handler c state).1 = (other c twin).1 ∧ related (handler c state).2 (other c twin).2)
    {program : Program S α} (only : program.Only Q) {state : σ} {twin : τ}
    (start : related state twin) :
    (program.interpret handler state).1 = (program.interpret other twin).1 ∧
      related (program.interpret handler state).2 (program.interpret other twin).2 := by
  induction program generalizing state twin with
  | done value => exact ⟨rfl, start⟩
  | call c rest inductionHypothesis =>
      obtain ⟨sameReply, after⟩ := agree only.1 start
      rw [interpret_call, interpret_call, sameReply]
      exact inductionHypothesis _ (only.2 _) after

end Interpret

end Program

/-- Programs in the language of the source: calls, sequencing and exceptions. -/
abbrev Code (S : Calls) (α : Type) := ExceptT S.Error (Program S) α

namespace Code

variable {S : Calls} {α β : Type}

/-- Make one call. -/
def perform (c : S.Call) : Code S (S.Result c) := ExceptT.mk (.call c .done)

/-- `for item in items: ...` with a running value. -/
def forEach (items : List α) (initial : β) (body : β → α → Code S β) : Code S β :=
  match items with
  | [] => pure initial
  | item :: rest => do
      let next ← body initial item
      forEach rest next body

/-- A computation that may raise, without calls. -/
def ofExcept (result : Except S.Error α) : Code S α := ExceptT.mk (.done result)

@[simp] theorem ofExcept_ok_bind (value : α) (next : α → Code S β) :
    (ofExcept (.ok value) >>= next) = next value := rfl

@[simp] theorem ofExcept_error_bind (error : S.Error) (next : α → Code S β) :
    (ofExcept (.error error) >>= next) = throw error := rfl

/-- `try: body finally: cleanup`. -/
def finally_ (body : Code S α) (cleanup : Code S Unit) : Code S α :=
  ExceptT.mk do
    let result ← body.run
    match ← cleanup.run with
    | .ok () => .done result
    | .error error => .done (.error error)

/-- Code as the program of a thread: its result is dropped. -/
def task (code : Code S α) : Program S Unit := code.run >>= fun _ => .done ()

/-! ### The calls of code -/

section Only

variable {Q : S.Call → Prop} {code : Code S α}

/-- Every call the code may make satisfies `Q`. -/
def Only (Q : S.Call → Prop) (code : Code S α) : Prop := Program.Only Q code.run

theorem Only.mono {weaker : S.Call → Prop} (only : Only Q code) (implies : ∀ c, Q c → weaker c) :
    Only weaker code :=
  Program.Only.mono only implies

theorem only_pure (value : α) : Only Q (pure value : Code S α) := trivial

theorem only_throw (error : S.Error) : Only Q (throw error : Code S α) := trivial

theorem only_ofExcept (result : Except S.Error α) : Only Q (ofExcept result : Code S α) := trivial

theorem only_perform {c : S.Call} (holds : Q c) : Only Q (perform c) :=
  ⟨holds, fun _ => trivial⟩

theorem Only.bind {next : α → Code S β} (first : Only Q code) (rest : ∀ value, Only Q (next value)) :
    Only Q (code >>= next) := by
  unfold Only
  rw [ExceptT.run_bind]
  refine Program.Only.bind first fun result => ?_
  cases result with
  | ok value => exact rest value
  | error error => trivial

theorem Only.tryCatch {handle : S.Error → Code S α} (first : Only Q code)
    (raised : ∀ error, Only Q (handle error)) : Only Q (tryCatch code handle) := by
  unfold Only
  rw [ExceptT.run_tryCatch]
  refine Program.Only.bind first fun result => ?_
  cases result with
  | ok value => trivial
  | error error => exact raised error

theorem Only.finally_ {cleanup : Code S Unit} (first : Only Q code) (last : Only Q cleanup) :
    Only Q (finally_ code cleanup) :=
  Program.Only.bind first fun _ => Program.Only.bind last fun cleaned => by
    cases cleaned <;> trivial

theorem only_forEach {items : List α} {body : β → α → Code S β}
    (each : ∀ item ∈ items, ∀ value, Only Q (body value item)) (initial : β) :
    Only Q (forEach items initial body) := by
  induction items generalizing initial with
  | nil => trivial
  | cons item rest inductionHypothesis =>
      refine Only.bind (each item List.mem_cons_self initial) fun next => ?_
      exact inductionHypothesis (fun other member => each other (List.mem_cons_of_mem _ member)) next

/-- A thread makes the calls of its code. -/
theorem Only.task (only : Only Q code) : Program.Only Q code.task :=
  Program.Only.bind only fun _ => trivial

end Only

section Meaning

variable {σ : Type} (handler : (c : S.Call) → σ → S.Reply c × σ)

/-- The sequential meaning of code: its value or error, and the state it leaves. -/
def meaning (code : Code S α) (state : σ) : Except S.Error α × σ :=
  Program.interpret handler code.run state

@[simp] theorem meaning_pure (value : α) (state : σ) :
    meaning handler (pure value : Code S α) state = (.ok value, state) := rfl

@[simp] theorem meaning_throw (error : S.Error) (state : σ) :
    meaning handler (throw error : Code S α) state = (.error error, state) := rfl

@[simp] theorem meaning_perform (c : S.Call) (state : σ) :
    meaning handler (perform c) state = handler c state := rfl

theorem meaning_bind (code : Code S α) (next : α → Code S β) (state : σ) :
    meaning handler (code >>= next) state =
      match meaning handler code state with
      | (.ok value, after) => meaning handler (next value) after
      | (.error error, after) => (.error error, after) := by
  unfold meaning
  rw [ExceptT.run_bind, Program.interpret_bind]
  cases outcome : Program.interpret handler code.run state with
  | mk result after => cases result <;> rfl

theorem meaning_tryCatch (code : Code S α) (handle : S.Error → Code S α) (state : σ) :
    meaning handler (tryCatch code handle) state =
      match meaning handler code state with
      | (.ok value, after) => (.ok value, after)
      | (.error error, after) => meaning handler (handle error) after := by
  unfold meaning
  rw [ExceptT.run_tryCatch, Program.interpret_bind]
  cases outcome : Program.interpret handler code.run state with
  | mk result after => cases result <;> rfl

@[simp] theorem meaning_ofExcept (result : Except S.Error α) (state : σ) :
    meaning handler (ofExcept result : Code S α) state = (result, state) := rfl

theorem meaning_finally (body : Code S α) (cleanup : Code S Unit) (state : σ) :
    meaning handler (finally_ body cleanup) state =
      match meaning handler cleanup (meaning handler body state).2 with
      | (.ok (), after) => ((meaning handler body state).1, after)
      | (.error error, after) => (.error error, after) := by
  change Program.interpret handler (body.run >>= _) state = _
  rw [Program.interpret_bind, Program.interpret_bind]
  unfold meaning
  cases Program.interpret handler cleanup.run (Program.interpret handler body.run state).2 with
  | mk result after => cases result <;> rfl

/-- Code means the same under two handlers that agree on its calls. -/
theorem meaning_simulates {τ : Type} {other : (c : S.Call) → τ → S.Reply c × τ}
    {related : σ → τ → Prop} {Q : S.Call → Prop}
    (agree : ∀ {c state twin}, Q c → related state twin →
      (handler c state).1 = (other c twin).1 ∧ related (handler c state).2 (other c twin).2)
    {code : Code S α} (only : Only Q code) {state : σ} {twin : τ} (start : related state twin) :
    (meaning handler code state).1 = (meaning other code twin).1 ∧
      related (meaning handler code state).2 (meaning other code twin).2 :=
  Program.interpret_simulates handler agree only start

end Meaning

end Code

end JobPlatform.Foundation
