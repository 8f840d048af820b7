import Mathlib.Data.List.Induction
import JobPlatform.Foundation.ThreadPool

/-!
Contract: calls that leave the caller owing its very next call.

Owns:
- `Accounts`, what each entry of a log incurs and settles, `owes`, and the balance of a log: as
  many entries settle a debt as incurred it, but for the debts still owed;
- `Ledger`, the same for the calls of a program, and `Pays`: the program settles each debt with
  its next call, and settles nothing else;
- the soundness rule for thread pools in which no thread stops while it owes.

Does not own what the debts stand for.
-/

namespace JobPlatform.Foundation

/-- Who made each entry of a log, the debt the entry leaves, and the debt it settles. -/
structure Accounts (ε κ δ : Type) where
  holder : ε → κ
  incurs : ε → Option δ
  settles : ε → Option δ

namespace Accounts

variable {ε κ δ : Type} [DecidableEq κ] (A : Accounts ε κ δ)

/-- What the last entry of a holder left owed. -/
def owes (log : List ε) (holder : κ) : Option δ :=
  ((log.filter fun entry => A.holder entry = holder).getLast?).bind A.incurs

@[simp] theorem owes_nil (holder : κ) : A.owes [] holder = none := rfl

@[simp] theorem owes_snoc (log : List ε) (entry : ε) (holder : κ) :
    A.owes (log ++ [entry]) holder =
      if A.holder entry = holder then A.incurs entry else A.owes log holder := by
  unfold owes
  by_cases same : A.holder entry = holder
  · simp [List.filter_append, same]
  · simp [List.filter_append, same]

/-- Every entry settles exactly what its holder owed. -/
inductive Balanced : List ε → Prop where
  | nil : Balanced []
  | snoc {log : List ε} {entry : ε} (balanced : Balanced log)
      (pays : A.settles entry = A.owes log (A.holder entry)) : Balanced (log ++ [entry])

variable [DecidableEq δ]

/-- The holders that owe the debt. -/
def debtors (debt : δ) (log : List ε) : List κ :=
  log.foldl (fun holders entry =>
    if A.incurs entry = some debt then A.holder entry :: holders.erase (A.holder entry)
    else holders.erase (A.holder entry)) []

theorem debtors_snoc (debt : δ) (log : List ε) (entry : ε) :
    A.debtors debt (log ++ [entry]) =
      if A.incurs entry = some debt then
        A.holder entry :: (A.debtors debt log).erase (A.holder entry)
      else (A.debtors debt log).erase (A.holder entry) := by
  simp [debtors]

/-- The list of debtors names each of them once. -/
theorem debtors_spec (debt : δ) (log : List ε) :
    (A.debtors debt log).Nodup ∧
      ∀ holder, holder ∈ A.debtors debt log ↔ A.owes log holder = some debt := by
  induction log using List.reverseRecOn with
  | nil => simp [debtors]
  | append_singleton log entry inductionHypothesis =>
      have nodup := inductionHypothesis.1
      have isDebtor := inductionHypothesis.2
      rw [debtors_snoc]
      by_cases incurred : A.incurs entry = some debt
      · rw [if_pos incurred]
        constructor
        · exact List.nodup_cons.mpr ⟨nodup.not_mem_erase, nodup.erase _⟩
        · intro holder
          by_cases same : A.holder entry = holder
          · simp [same, incurred]
          · simp [same, Ne.symm same, nodup.mem_erase_iff, isDebtor]
      · rw [if_neg incurred]
        constructor
        · exact nodup.erase _
        · intro holder
          by_cases same : A.holder entry = holder
          · simp [same, incurred, nodup.mem_erase_iff]
          · simp [same, Ne.symm same, nodup.mem_erase_iff, isDebtor]

/-- A debt is incurred as often as it is settled, once more for each debtor. -/
theorem Balanced.count {log : List ε} (balanced : A.Balanced log) (debt : δ) :
    log.countP (fun entry => A.incurs entry = some debt) =
      log.countP (fun entry => A.settles entry = some debt) + (A.debtors debt log).length := by
  induction balanced with
  | nil => rfl
  | @snoc log entry balanced pays inductionHypothesis =>
      have isDebtor := (A.debtors_spec debt log).2 (A.holder entry)
      rw [← pays] at isDebtor
      have shorter : ((A.debtors debt log).erase (A.holder entry)).length +
          (if A.settles entry = some debt then 1 else 0) = (A.debtors debt log).length := by
        by_cases settled : A.settles entry = some debt
        · have member := isDebtor.mpr settled
          have positive := List.length_pos_of_mem member
          rw [List.length_erase_of_mem member, if_pos settled]
          omega
        · rw [List.erase_of_not_mem (isDebtor.not.mpr settled), if_neg settled]
          omega
      rw [List.countP_append, List.countP_append, debtors_snoc]
      simp only [List.countP_singleton, decide_eq_true_eq]
      split
      · rw [List.length_cons]
        omega
      · omega

/-- When nobody owes, a debt was settled as often as it was incurred. -/
theorem Balanced.settled {log : List ε} (balanced : A.Balanced log)
    (clear : ∀ holder, A.owes log holder = none) (debt : δ) :
    log.countP (fun entry => A.settles entry = some debt) =
      log.countP (fun entry => A.incurs entry = some debt) := by
  have none : A.debtors debt log = [] := by
    apply List.eq_nil_iff_forall_not_mem.mpr
    intro holder
    rw [(A.debtors_spec debt log).2, clear holder]
    simp
  rw [balanced.count, none]
  rfl

end Accounts

/-- The debt each reply leaves, and the debt each call settles. -/
structure Ledger (S : Calls) (δ : Type) where
  incurs : (c : S.Call) → S.Reply c → Option δ
  settles : S.Call → Option δ

variable {S : Calls} {δ α β : Type} {L : Ledger S δ}

/-- A program that starts with this debt settles it with its first call, and every later debt with
the call after; it settles nothing else, and owes nothing at its end. -/
def Program.Pays (L : Ledger S δ) : Option δ → Program S α → Prop
  | owed, .done _ => owed = none
  | owed, .call c rest => L.settles c = owed ∧ ∀ reply, (rest reply).Pays L (L.incurs c reply)

/-- The call has no part in the accounts. -/
def Ledger.Idle (L : Ledger S δ) (c : S.Call) : Prop :=
  L.settles c = none ∧ ∀ reply, L.incurs c reply = none

theorem Program.Pays.bind {owed : Option δ} {program : Program S α} {next : α → Program S β}
    (first : program.Pays L owed) (rest : ∀ value, (next value).Pays L none) :
    (program >>= next).Pays L owed := by
  induction program generalizing owed with
  | done value =>
      rw [show owed = none from first]
      exact rest value
  | call c continued inductionHypothesis =>
      exact ⟨first.1, fun reply => inductionHypothesis reply (first.2 reply)⟩

theorem Program.pays_of_only {program : Program S α} (only : program.Only L.Idle) :
    program.Pays L none := by
  induction program with
  | done value => rfl
  | call c rest inductionHypothesis =>
      refine ⟨only.1.1, fun reply => ?_⟩
      rw [only.1.2 reply]
      exact inductionHypothesis reply (only.2 reply)

/-! ### Code with exceptions -/

namespace Code

/-- The code pays what it owes. -/
def Pays (L : Ledger S δ) (owed : Option δ) (code : Code S α) : Prop := code.run.Pays L owed

variable {owed : Option δ} {code : Code S α}

theorem pays_pure (value : α) : Pays L none (pure value : Code S α) := rfl

theorem pays_throw (error : S.Error) : Pays L none (throw error : Code S α) := rfl

theorem pays_of_only (only : Only L.Idle code) : Pays L none code := Program.pays_of_only only

theorem Pays.bind {next : α → Code S β} (first : Pays L owed code)
    (rest : ∀ value, Pays L none (next value)) : Pays L owed (code >>= next) := by
  unfold Pays
  rw [ExceptT.run_bind]
  apply Program.Pays.bind first
  intro result
  cases result with
  | ok value => exact rest value
  | error error => rfl

/-- A call, and what its reply leaves owed to the code that follows. -/
theorem pays_performBind {c : S.Call} {next : S.Result c → Code S β} (settles : L.settles c = owed)
    (returned : ∀ value, Pays L (L.incurs c (.ok value)) (next value))
    (raised : ∀ error, L.incurs c (.error error) = none) : Pays L owed (perform c >>= next) := by
  refine ⟨settles, fun reply => ?_⟩
  cases reply with
  | ok value => exact returned value
  | error error => exact raised error

theorem Pays.tryCatch {handle : S.Error → Code S α} (first : Pays L owed code)
    (raised : ∀ error, Pays L none (handle error)) : Pays L owed (tryCatch code handle) := by
  unfold Pays
  rw [ExceptT.run_tryCatch]
  apply Program.Pays.bind first
  intro result
  cases result with
  | ok value => rfl
  | error error => exact raised error

theorem Pays.finally_ {cleanup : Code S Unit} (first : Pays L owed code)
    (last : Pays L none cleanup) : Pays L owed (finally_ code cleanup) := by
  refine Program.Pays.bind first fun _ => Program.Pays.bind last fun cleaned => ?_
  cases cleaned with
  | ok _ => rfl
  | error _ => rfl

theorem Pays.task (pays : Pays L owed code) : code.task.Pays L owed :=
  Program.Pays.bind pays fun _ => rfl

end Code

/-! ### Thread pools -/

namespace ThreadSystem

variable {σ ε : Type} (sys : ThreadSystem S σ) (L : Ledger S δ)
  (A : Accounts ε ThreadId δ) (log : σ → List ε)

/-- The log of the system, read with the ledger: a call adds one entry, starts and the environment
add none, and programs start without debts. -/
structure Bookkept : Prop where
  exec : ∀ {t s c reply after}, sys.exec t s c reply after → ∃ entry, log after = log s ++ [entry] ∧
    A.holder entry = t ∧ A.incurs entry = L.incurs c reply ∧ A.settles entry = L.settles c
  start : ∀ {t s program after}, sys.start t s program after →
    log after = log s ∧ program.Pays L none
  env : ∀ {s after}, sys.env s after → log after = log s

/-- The log is balanced, every live thread pays what it owes, and the others owe nothing. -/
structure InBalance (pool : Pool S σ) : Prop where
  balanced : A.Balanced (log pool.state)
  live : ∀ t program, pool.threads t = some program → program.Pays L (A.owes (log pool.state) t)
  stopped : ∀ t, pool.threads t = none → A.owes (log pool.state) t = none

variable {sys L A log}

theorem inBalance_initial {init : σ} (empty : log init = []) : InBalance L A log (initial init) where
  balanced := by
    change A.Balanced (log init)
    rw [empty]
    exact .nil
  live := by
    intro t program running
    cases running
  stopped := by
    intro t _
    change A.owes (log init) t = none
    rw [empty]
    rfl

/-- After a step of thread `t` that left the debts of the others alone. -/
private theorem inBalance_update {pool : Pool S σ} {t : ThreadId} {after : σ}
    {program : Option (Program S Unit)} (kept : InBalance L A log pool)
    (balanced : A.Balanced (log after))
    (others : ∀ u, u ≠ t → A.owes (log after) u = A.owes (log pool.state) u)
    (live : ∀ rest, program = some rest → rest.Pays L (A.owes (log after) t))
    (stopped : program = none → A.owes (log after) t = none) :
    InBalance L A log ⟨after, Function.update pool.threads t program⟩ := by
  refine ⟨balanced, ?_, ?_⟩
  · intro u other running
    dsimp only at running ⊢
    by_cases same : u = t
    · subst same
      rw [Function.update_self] at running
      exact live other running
    · rw [Function.update_of_ne same] at running
      rw [others u same]
      exact kept.live u other running
  · intro u gone
    dsimp only at gone ⊢
    by_cases same : u = t
    · subst same
      rw [Function.update_self] at gone
      exact stopped gone
    · rw [Function.update_of_ne same] at gone
      rw [others u same]
      exact kept.stopped u gone

/-- A step that stops no thread that owes keeps the balance. -/
theorem InBalance.step (books : Bookkept sys L A log) {pool next : Pool S σ}
    (kept : InBalance L A log pool) (step : sys.Step pool next)
    (alive : ∀ t, A.owes (log pool.state) t ≠ none → next.threads t ≠ none) :
    InBalance L A log next := by
  cases step with
  | @start t program after idle started =>
      have same := (books.start started).1
      apply inBalance_update kept
      · exact same ▸ kept.balanced
      · exact fun u _ => by rw [same]
      · intro rest isProgram
        cases isProgram
        rw [same, kept.stopped t idle]
        exact (books.start started).2
      · intro impossible
        cases impossible
  | @call t c rest reply after running called =>
      obtain ⟨entry, isLog, holder, incurs, settles⟩ := books.exec called
      have pays := kept.live t _ running
      apply inBalance_update kept
      · rw [isLog]
        apply kept.balanced.snoc
        rw [settles, holder]
        exact pays.1
      · intro u other
        rw [isLog, A.owes_snoc, holder, if_neg (Ne.symm other)]
      · intro continued isRest
        cases isRest
        rw [isLog, A.owes_snoc, if_pos holder, incurs]
        exact pays.2 reply
      · intro impossible
        cases impossible
  | @stop t =>
      apply inBalance_update kept
      · exact kept.balanced
      · exact fun _ _ => rfl
      · intro rest impossible
        cases impossible
      · intro _
        by_contra owing
        exact alive t owing (Function.update_self _ _ _)
  | env moved =>
      have same := books.env moved
      refine ⟨same ▸ kept.balanced, ?_, ?_⟩
      · intro t program running
        dsimp only
        rw [same]
        exact kept.live t program running
      · intro t gone
        dsimp only
        rw [same]
        exact kept.stopped t gone

end ThreadSystem

end JobPlatform.Foundation
