import Mathlib.Init

/-!
Contract: atomic transactions whose statements may fail.

Owns:
- transaction bodies as statement sequences run against a fault plan;
- `commit`, which applies a body in full or leaves the state alone;
- the rule that a body which returns under some fault plan returns the same without faults.

Does not own: isolation between transactions, and the statements themselves.
-/

namespace JobPlatform.Foundation

/-- One entry per statement, in order: the error that statement raises, if any. Statements past
the end of the plan are not disturbed. -/
abbrev Faults (ε : Type) := List (Option ε)

/-- A transaction body: statements over a working copy of the state. -/
abbrev Txn (ε σ : Type) := StateT (Faults ε × σ) (Except ε)

namespace Txn

variable {ε σ α β : Type}

/-- Run one statement, unless the fault plan makes it raise. -/
def execute (statement : σ → Except ε (α × σ)) : Txn ε σ α := fun (faults, state) =>
  match faults with
  | some fault :: _ => .error fault
  | none :: rest => (statement state).map fun (value, after) => (value, rest, after)
  | [] => (statement state).map fun (value, after) => (value, [], after)

/-- Raise an error of the body's own. -/
def raise (error : ε) : Txn ε σ α := fun _ => .error error

/-- Run a body and commit it. An error of a statement, of the body or of the commit itself rolls
back: the state is the one before the transaction. -/
def commit (body : Txn ε σ α) (faults : Faults ε) (state : σ) : Except ε α × σ :=
  match body (faults, state) with
  | .error error => (.error error, state)
  | .ok (_, some fault :: _, _) => (.error fault, state)
  | .ok (value, _, after) => (.ok value, after)

/-- A body whose outcome does not depend on the faults it survived. -/
def Steady (body : Txn ε σ α) : Prop :=
  ∀ {faults state value rest after}, body (faults, state) = .ok (value, rest, after) →
    body ([], state) = .ok (value, [], after)

theorem steady_pure (value : α) : Steady (pure value : Txn ε σ α) := by
  intro faults state value' rest after ran
  change Except.ok (value, faults, state) = .ok (value', rest, after) at ran
  cases ran
  rfl

theorem steady_raise (error : ε) : Steady (raise error : Txn ε σ α) := by
  intro faults state value rest after ran
  cases ran

theorem steady_execute (statement : σ → Except ε (α × σ)) : Steady (execute statement) := by
  intro faults state value rest after ran
  have quiet : ∀ plan : Faults ε,
      (statement state).map (fun result => (result.1, plan, result.2)) = .ok (value, rest, after) →
      execute statement ([], state) = .ok (value, [], after) := by
    intro plan mapped
    change (statement state).map (fun result => (result.1, [], result.2)) = .ok (value, [], after)
    cases outcome : statement state with
    | error error =>
        rw [outcome] at mapped
        cases mapped
    | ok result =>
        rw [outcome] at mapped
        cases mapped
        rfl
  match faults, ran with
  | none :: plan, ran => exact quiet plan ran
  | [], ran => exact quiet [] ran
  | some _ :: _, ran => cases ran

theorem steady_bind {body : Txn ε σ α} {next : α → Txn ε σ β} (first : Steady body)
    (second : ∀ value, Steady (next value)) : Steady (body >>= next) := by
  intro faults state value rest after ran
  change (body (faults, state)).bind (fun result => next result.1 result.2) = _ at ran
  change (body ([], state)).bind (fun result => next result.1 result.2) = _
  cases outcome : body (faults, state) with
  | error error =>
      rw [outcome] at ran
      cases ran
  | ok result =>
      obtain ⟨middle, plan, between⟩ := result
      rw [outcome] at ran
      rw [first outcome]
      exact second middle ran

/-- A statement that runs is disturbed by a fault of the plan, or hands over to the rest. -/
theorem execute_bind_cases {statement : σ → Except ε (α × σ)} {state middle : σ} {value : α}
    (executed : statement state = .ok (value, middle)) (next : α → Txn ε σ β)
    (faults : Faults ε) :
    (∃ fault, some fault ∈ faults ∧ (execute statement >>= next) (faults, state) = .error fault) ∨
      ∃ rest, (∀ fault ∈ rest, fault ∈ faults) ∧
        (execute statement >>= next) (faults, state) = next value (rest, middle) := by
  have continued : ∀ plan : Faults ε,
      ((statement state).map fun result => (result.1, plan, result.2)).bind
        (fun result => next result.1 result.2) = next value (plan, middle) := by
    intro plan
    rw [executed]
    rfl
  match faults with
  | some fault :: _ => exact .inl ⟨fault, List.mem_cons_self, rfl⟩
  | none :: rest => exact .inr ⟨rest, fun _ => List.mem_cons_of_mem _, continued rest⟩
  | [] => exact .inr ⟨[], fun _ => id, continued []⟩

/-- A transaction of one statement fails with a fault of the plan, or commits the statement. -/
theorem commit_lone {statement : σ → Except ε (α × σ)} {result : α → β} {state middle : σ}
    {value : α} (executed : statement state = .ok (value, middle)) (faults : Faults ε) :
    (∃ fault, some fault ∈ faults ∧
      commit (execute statement >>= fun rows => pure (result rows)) faults state =
        (.error fault, state)) ∨
      commit (execute statement >>= fun rows => pure (result rows)) faults state =
        (.ok (result value), middle) := by
  unfold commit
  rcases execute_bind_cases executed (fun rows => pure (result rows)) faults with
    ⟨fault, member, failed⟩ | ⟨rest, sub, continued⟩
  · rw [failed]
    exact .inl ⟨fault, member, rfl⟩
  · rw [continued]
    match rest with
    | some fault :: _ => exact .inl ⟨fault, sub _ List.mem_cons_self, rfl⟩
    | none :: _ => exact .inr rfl
    | [] => exact .inr rfl

/-- A transaction that raises after its first statement fails with a fault of the plan, or with
its own error. -/
theorem commit_raise {statement : σ → Except ε (α × σ)} {next : α → Txn ε σ β} {state middle : σ}
    {value : α} {error : ε} (executed : statement state = .ok (value, middle))
    (raises : next value = raise error) (faults : Faults ε) :
    (∃ fault, some fault ∈ faults ∧
      commit (execute statement >>= next) faults state = (.error fault, state)) ∨
      commit (execute statement >>= next) faults state = (.error error, state) := by
  unfold commit
  rcases execute_bind_cases executed next faults with
    ⟨fault, member, failed⟩ | ⟨rest, _, continued⟩
  · rw [failed]
    exact .inl ⟨fault, member, rfl⟩
  · rw [continued, raises]
    exact .inr rfl

/-- Every error of the body is a fault of its plan, or one it may raise by itself. -/
def Raises (own : ε → Prop) (body : Txn ε σ α) : Prop :=
  ∀ faults state, match body (faults, state) with
    | .error error => some error ∈ faults ∨ own error
    | .ok (_, rest, _) => rest ⊆ faults

section Raises

variable {own : ε → Prop}

theorem raises_execute {statement : σ → Except ε (α × σ)}
    (raises : ∀ state error, statement state = .error error → own error) :
    Raises own (execute statement) := by
  intro faults state
  have ran : ∀ plan ⊆ faults, match (statement state).map fun result =>
      (result.1, plan, result.2) with
        | .error error => some error ∈ faults ∨ own error
        | .ok (_, rest, _) => rest ⊆ faults := by
    intro plan part
    cases executed : statement state with
    | error error => exact .inr (raises state error executed)
    | ok result => exact part
  match faults with
  | some fault :: _ => exact .inl List.mem_cons_self
  | none :: rest => exact ran rest (List.subset_cons_self _ _)
  | [] => exact ran [] (List.Subset.refl _)

theorem Raises.bind {body : Txn ε σ α} {next : α → Txn ε σ β} (first : Raises own body)
    (second : ∀ value, Raises own (next value)) : Raises own (body >>= next) := by
  intro faults state
  change match (body (faults, state)).bind (fun result => next result.1 result.2) with
    | .error error => some error ∈ faults ∨ own error
    | .ok (_, rest, _) => rest ⊆ faults
  have ran := first faults state
  cases outcome : body (faults, state) with
  | error error =>
      rw [outcome] at ran
      exact ran
  | ok result =>
      obtain ⟨value, plan, middle⟩ := result
      rw [outcome] at ran
      change match next value (plan, middle) with
        | .error error => some error ∈ faults ∨ own error
        | .ok (_, rest, _) => rest ⊆ faults
      have continued := second value plan middle
      cases rest : next value (plan, middle) with
      | error error =>
          rw [rest] at continued
          exact continued.imp_left (ran ·)
      | ok result =>
          rw [rest] at continued
          exact List.Subset.trans continued ran

/-- An error after a first statement that runs. -/
theorem Raises.commit {statement : σ → Except ε (α × σ)} {next : α → Txn ε σ β}
    {state middle : σ} {value : α} (executed : statement state = .ok (value, middle))
    (raises : Raises own (next value)) {faults : Faults ε} {error : ε} {after : σ}
    (raised : commit (execute statement >>= next) faults state = (.error error, after)) :
    some error ∈ faults ∨ own error := by
  unfold Txn.commit at raised
  rcases execute_bind_cases executed next faults with
    ⟨fault, member, failed⟩ | ⟨rest, part, continued⟩
  · rw [failed] at raised
    cases raised
    exact .inl member
  · rw [continued] at raised
    have ran := raises rest middle
    split at raised
    next failed =>
      cases raised
      rw [failed] at ran
      exact ran.imp_left (part _)
    next failed =>
      cases raised
      rw [failed] at ran
      exact .inl (part _ (ran List.mem_cons_self))
    next => cases raised

end Raises

/-- A transaction that raised has changed nothing. -/
theorem commit_error {body : Txn ε σ α} {faults : Faults ε} {state after : σ} {error : ε}
    (raised : commit body faults state = (.error error, after)) : after = state := by
  unfold commit at raised
  split at raised <;> cases raised <;> rfl

/-- A transaction that returned under some fault plan has the effect of the undisturbed one. -/
theorem commit_ok {body : Txn ε σ α} (steady : Steady body) {faults : Faults ε}
    {state after : σ} {value : α} (returned : commit body faults state = (.ok value, after)) :
    commit body [] state = (.ok value, after) := by
  unfold commit at returned
  split at returned
  · cases returned
  · cases returned
  next ran =>
    cases returned
    unfold commit
    rw [steady ran]

end Txn

end JobPlatform.Foundation
