import JobPlatform.Foundation.Ledger

/-!
Contract: calls that may use what the call before them handed out, and nothing else.

Owns:
- `Solvent`: no entry of a log settles what its holder did not owe, and a debt that is incurred once
  is settled at most once;
- `Honors`, the same for a program, with its rules;
- `Covered`, kept by every step of a thread pool. A thread may stop while it owes.

Does not own that a debt is ever settled.
-/

namespace JobPlatform.Foundation

/-! ### Logs -/

namespace Accounts

variable {ε κ δ : Type} [DecidableEq κ] (A : Accounts ε κ δ)

/-- No entry settles what its holder did not owe. -/
inductive Solvent : List ε → Prop where
  | nil : Solvent []
  | snoc {log : List ε} {entry : ε} (solvent : Solvent log)
      (owed : ∀ debt, A.settles entry = some debt → A.owes log (A.holder entry) = some debt) :
      Solvent (log ++ [entry])

variable {A} [DecidableEq δ] {log : List ε}

/-- A debt was incurred as often as it was settled, and once more for each debtor. -/
theorem Solvent.count_le (solvent : A.Solvent log) (debt : δ) :
    log.countP (fun entry => A.settles entry = some debt) + (A.debtors debt log).length ≤
      log.countP fun entry => A.incurs entry = some debt := by
  induction solvent with
  | nil => simp [debtors]
  | @snoc log entry solvent owed inductionHypothesis =>
      have isDebtor := (A.debtors_spec debt log).2 (A.holder entry)
      have shorter : ((A.debtors debt log).erase (A.holder entry)).length +
          (if A.settles entry = some debt then 1 else 0) ≤ (A.debtors debt log).length := by
        by_cases settled : A.settles entry = some debt
        · have member := isDebtor.mpr (owed debt settled)
          have positive := List.length_pos_of_mem member
          rw [List.length_erase_of_mem member, if_pos settled]
          omega
        · rw [if_neg settled]
          exact List.length_erase_le
      rw [List.countP_append, List.countP_append, debtors_snoc]
      simp only [List.countP_singleton, decide_eq_true_eq]
      by_cases incurred : A.incurs entry = some debt
      · rw [if_pos incurred, if_pos incurred, List.length_cons]
        omega
      · rw [if_neg incurred, if_neg incurred]
        omega

/-- What is handed out once is used at most once. -/
theorem Solvent.nodup (solvent : A.Solvent log) (once : (log.filterMap A.incurs).Nodup) :
    (log.filterMap A.settles).Nodup := by
  rw [List.nodup_iff_count] at once ⊢
  intro debt
  have incurred := once debt
  have bound := solvent.count_le debt
  rw [List.count_filterMap] at incurred ⊢
  have counts : ∀ f : ε → Option δ, log.countP (fun entry => f entry == some debt) =
      log.countP fun entry => f entry = some debt :=
    fun f => List.countP_congr fun entry _ => by simp
  rw [counts] at incurred ⊢
  omega

end Accounts

/-! ### Programs -/

variable {S : Calls} {δ α β : Type} {L : Ledger S δ}

/-- The program settles only what the call before left owed, its first call only this debt. -/
def Program.Honors (L : Ledger S δ) : Option δ → Program S α → Prop
  | _, .done _ => True
  | owed, .call c rest =>
      (∀ debt, L.settles c = some debt → owed = some debt) ∧
        ∀ reply, (rest reply).Honors L (L.incurs c reply)

/-- Nobody has to settle a debt. -/
theorem Program.Honors.weaken {program : Program S α} (honors : program.Honors L none)
    (owed : Option δ) : program.Honors L owed := by
  cases program with
  | done value => trivial
  | call c rest =>
      refine ⟨fun debt settled => ?_, honors.2⟩
      have impossible := honors.1 debt settled
      simp at impossible

theorem Program.Honors.bind {owed : Option δ} {program : Program S α} {next : α → Program S β}
    (first : program.Honors L owed) (rest : ∀ value, (next value).Honors L none) :
    (program >>= next).Honors L owed := by
  induction program generalizing owed with
  | done value => exact (rest value).weaken owed
  | call c continued inductionHypothesis =>
      exact ⟨first.1, fun reply => inductionHypothesis reply (first.2 reply)⟩

theorem Program.honors_of_only {program : Program S α}
    (only : program.Only fun c => L.settles c = none) : program.Honors L none := by
  induction program with
  | done value => trivial
  | call c rest inductionHypothesis =>
      refine ⟨fun debt settled => ?_, fun reply => ?_⟩
      · simp [only.1] at settled
      · exact (inductionHypothesis reply (only.2 reply)).weaken _

namespace Code

/-- The code settles only what was left owed. -/
def Honors (L : Ledger S δ) (owed : Option δ) (code : Code S α) : Prop := code.run.Honors L owed

variable {owed : Option δ} {code : Code S α}

theorem honors_of_only (only : Only (fun c => L.settles c = none) code) : Honors L none code :=
  Program.honors_of_only only

theorem Honors.bind {next : α → Code S β} (first : Honors L owed code)
    (rest : ∀ value, Honors L none (next value)) : Honors L owed (code >>= next) := by
  unfold Honors
  rw [ExceptT.run_bind]
  apply Program.Honors.bind first
  intro result
  cases result with
  | ok value => exact rest value
  | error error => trivial

/-- A call, and what its reply leaves owed to the code that follows. -/
theorem honors_performBind {c : S.Call} {next : S.Result c → Code S β}
    (settles : ∀ debt, L.settles c = some debt → owed = some debt)
    (returned : ∀ value, Honors L (L.incurs c (.ok value)) (next value)) :
    Honors L owed (perform c >>= next) := by
  refine ⟨settles, fun reply => ?_⟩
  cases reply with
  | ok value => exact returned value
  | error error => trivial

theorem Honors.tryCatch {handle : S.Error → Code S α} (first : Honors L owed code)
    (raised : ∀ error, Honors L none (handle error)) : Honors L owed (tryCatch code handle) := by
  unfold Honors
  rw [ExceptT.run_tryCatch]
  apply Program.Honors.bind first
  intro result
  cases result with
  | ok value => trivial
  | error error => exact raised error

theorem Honors.finally_ {cleanup : Code S Unit} (first : Honors L owed code)
    (last : Honors L none cleanup) : Honors L owed (finally_ code cleanup) := by
  refine Program.Honors.bind first fun _ => Program.Honors.bind last fun cleaned => ?_
  cases cleaned <;> trivial

theorem Honors.task (honors : Honors L owed code) : code.task.Honors L owed :=
  Program.Honors.bind honors fun _ => trivial

end Code

/-! ### Thread pools -/

namespace ThreadSystem

variable {σ ε : Type} (sys : ThreadSystem S σ) (L : Ledger S δ)
  (A : Accounts ε ThreadId δ) (log : σ → List ε)

/-- A call adds one entry to the log, nothing else adds any, and programs start honoring. -/
structure Recorded : Prop where
  exec : ∀ {t s c reply after}, sys.exec t s c reply after → ∃ entry, log after = log s ++ [entry] ∧
    A.holder entry = t ∧ A.incurs entry = L.incurs c reply ∧ A.settles entry = L.settles c
  start : ∀ {t s program after}, sys.start t s program after →
    log after = log s ∧ program.Honors L none
  env : ∀ {s after}, sys.env s after → log after = log s

/-- The log is solvent, and every live thread honors what its last call left. -/
structure Covered (pool : Pool S σ) : Prop where
  solvent : A.Solvent (log pool.state)
  live : ∀ t program, pool.threads t = some program → program.Honors L (A.owes (log pool.state) t)

variable {sys L A log}

private theorem covered_update {pool : Pool S σ} {t : ThreadId} {after : σ}
    {program : Option (Program S Unit)} (kept : Covered L A log pool)
    (solvent : A.Solvent (log after))
    (others : ∀ u, u ≠ t → A.owes (log after) u = A.owes (log pool.state) u)
    (own : ∀ rest, program = some rest → rest.Honors L (A.owes (log after) t)) :
    Covered L A log ⟨after, Function.update pool.threads t program⟩ := by
  refine ⟨solvent, fun u other running => ?_⟩
  dsimp only at running ⊢
  by_cases same : u = t
  · subst same
    rw [Function.update_self] at running
    exact own other running
  · rw [Function.update_of_ne same] at running
    rw [others u same]
    exact kept.live u other running

theorem Covered.step (books : Recorded sys L A log) {pool next : Pool S σ}
    (kept : Covered L A log pool) (step : sys.Step pool next) : Covered L A log next := by
  cases step with
  | @start t program after idle started =>
      have same := (books.start started).1
      apply covered_update kept (same ▸ kept.solvent) fun u _ => by rw [same]
      intro rest isProgram
      cases isProgram
      exact (books.start started).2.weaken _
  | @call t c rest reply after running called =>
      obtain ⟨entry, isLog, holder, incurs, settles⟩ := books.exec called
      have honors := kept.live t _ running
      apply covered_update kept
      · rw [isLog]
        apply kept.solvent.snoc
        rw [settles, holder]
        exact honors.1
      · intro u other
        rw [isLog, A.owes_snoc, holder, if_neg (Ne.symm other)]
      · intro continued isRest
        cases isRest
        rw [isLog, A.owes_snoc, if_pos holder, incurs]
        exact honors.2 reply
  | @stop t =>
      apply covered_update kept kept.solvent fun _ _ => rfl
      intro rest impossible
      simp at impossible
  | env moved =>
      have same := books.env moved
      refine ⟨same ▸ kept.solvent, fun t program running => ?_⟩
      show program.Honors L (A.owes (log _) t)
      rw [same]
      exact kept.live t program running

/-- The logs of all reachable pools are solvent. -/
theorem solvent_of_reachable (books : Recorded sys L A log) {init : σ} (empty : log init = [])
    {pool : Pool S σ} (reached : sys.Reachable init pool) : A.Solvent (log pool.state) := by
  have covered : Covered L A log pool := by
    induction reached with
    | refl =>
        refine ⟨?_, fun t program running => by simp [initial] at running⟩
        show A.Solvent (log init)
        rw [empty]
        exact .nil
    | tail _ step inductionHypothesis => exact inductionHypothesis.step books step
  exact covered.solvent

end ThreadSystem

end JobPlatform.Foundation
