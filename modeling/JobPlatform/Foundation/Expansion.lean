import JobPlatform.Foundation.ThreadPool

/-!
Contract: safety of a program whose calls are programs themselves.

Owns `SafeVia`, safety of code after each of its calls is replaced by finer calls, with the rules of
`SafeCode` for it. The code is reasoned about as it is written; only its calls are opened.

Does not own: any meaning of a call.
-/

namespace JobPlatform.Foundation.ThreadSystem

namespace Discipline

variable {S T : Calls} {σ α β : Type} {sys : ThreadSystem T σ}

/-- The code is safe when each of its calls runs as the program `meaning` gives it. -/
def SafeVia (D : Discipline sys) (meaning : (c : S.Call) → Program T (S.Reply c)) (t : ThreadId)
    (code : Code S α) (post : Except S.Error α → σ → Prop) (state : σ) : Prop :=
  D.Safe t (Program.expand meaning code.run) post state

variable {D : Discipline sys} {meaning : (c : S.Call) → Program T (S.Reply c)} {t : ThreadId}

theorem SafeVia.mono {code : Code S α} {post weaker : Except S.Error α → σ → Prop} {state : σ}
    (safe : D.SafeVia meaning t code post state)
    (implies : ∀ result s, post result s → weaker result s) :
    D.SafeVia meaning t code weaker state :=
  Safe.mono safe implies

theorem via_pure {value : α} {post : Except S.Error α → σ → Prop} {state : σ}
    (holds : post (.ok value) state) : D.SafeVia meaning t (pure value) post state := holds

theorem via_throw {error : S.Error} {post : Except S.Error α → σ → Prop} {state : σ}
    (holds : post (.error error) state) : D.SafeVia meaning t (throw error) post state := holds

theorem via_ofExcept {result : Except S.Error α} {post : Except S.Error α → σ → Prop} {state : σ}
    (holds : post result state) : D.SafeVia meaning t (Code.ofExcept result) post state := holds

theorem via_perform {c : S.Call} {post : Except S.Error (S.Result c) → σ → Prop} {state : σ}
    (safe : D.Safe t (meaning c) post state) :
    D.SafeVia meaning t (Code.perform c) post state :=
  Safe.bind (Safe.mono safe fun _ _ holds => holds)

theorem via_bind {code : Code S α} {next : α → Code S β} {post : Except S.Error β → σ → Prop}
    {state : σ}
    (safe : D.SafeVia meaning t code (fun result s => match result with
      | .ok value => D.SafeVia meaning t (next value) post s
      | .error error => post (.error error) s) state) :
    D.SafeVia meaning t (code >>= next) post state := by
  unfold SafeVia
  rw [ExceptT.run_bind, Program.expand_bind]
  apply Safe.bind
  refine Safe.mono safe ?_
  intro result s holds
  cases result with
  | ok value => exact holds
  | error error => exact holds

theorem via_tryCatch {code : Code S α} {handle : S.Error → Code S α}
    {post : Except S.Error α → σ → Prop} {state : σ}
    (safe : D.SafeVia meaning t code (fun result s => match result with
      | .ok value => post (.ok value) s
      | .error error => D.SafeVia meaning t (handle error) post s) state) :
    D.SafeVia meaning t (tryCatch code handle) post state := by
  unfold SafeVia
  rw [ExceptT.run_tryCatch, Program.expand_bind]
  apply Safe.bind
  refine Safe.mono safe ?_
  intro result s holds
  cases result with
  | ok value => exact holds
  | error error => exact holds

/-- A thread whose code is safe is safe. -/
theorem via_task {code : Code S α} {post : Except S.Error α → σ → Prop} {state : σ}
    (safe : D.SafeVia meaning t code post state) :
    D.Safe t (code.task.expand meaning) (fun _ _ => True) state := by
  unfold Code.task
  rw [Program.expand_bind]
  exact Safe.bind (Safe.mono safe fun _ _ _ => trivial)

/-- A loop is safe when its body takes the invariant of the items left to that of the rest. -/
theorem via_forEach (loop : List α → β → σ → Prop) {body : β → α → Code S β}
    {post : Except S.Error β → σ → Prop}
    (step : ∀ item rest value s, loop (item :: rest) value s →
      D.SafeVia meaning t (body value item) (fun result s => match result with
        | .ok next => loop rest next s
        | .error error => post (.error error) s) s)
    (finish : ∀ value s, loop [] value s → post (.ok value) s) :
    ∀ {items : List α} {initial : β} {state : σ}, loop items initial state →
      D.SafeVia meaning t (Code.forEach items initial body) post state
  | [], initial, state, holds => via_pure (finish initial state holds)
  | item :: rest, initial, state, holds => by
      apply via_bind
      refine SafeVia.mono (step item rest initial state holds) ?_
      intro result s next
      cases result with
      | ok value => exact via_forEach loop step finish next
      | error error => exact next

end Discipline

end JobPlatform.Foundation.ThreadSystem
