import Mathlib.Data.List.Nodup
import Mathlib.Order.Nat
import Mathlib.Order.Basic

/-!
Contract: a lease with fencing tokens on one resource.

A holder claims the resource under a new token, may renew, and finishes by presenting its token. A
later claim displaces the holder once the lease it asks for has run out.

Owns:
- the transitions of the resource, `LeaseStep`, and its runs, `LeaseRun`, in which no token is
  issued twice;
- the guarantees of a run: a token that was lost never comes back, every claim ends at most once
  and in one of two ways, and a displaced claim was last touched more than the lease ago.

Does not own the store that keeps the claim, or the callers.
-/

namespace JobPlatform.Foundation

variable {τ θ : Type*}

/-- The claim a resource is under: its token, and when it was taken or last renewed. -/
structure Claim (τ θ : Type*) where
  token : τ
  since : θ

/-- What a transaction did to the resource. -/
inductive LeaseAction (τ θ : Type*) where
  | idle
  | claim (token : τ) (now lease : θ)
  | renew (token : τ) (now : θ)
  | finish (token : τ)

namespace LeaseAction

/-- The action took or renewed the claim with this token at this time. -/
def Touches (action : LeaseAction τ θ) (token : τ) (time : θ) : Prop :=
  (∃ lease, action = claim token time lease) ∨ action = renew token time

/-- The token the action issued. -/
def issued : LeaseAction τ θ → Option τ
  | claim token _ _ => some token
  | _ => none

theorem issued_eq_some {action : LeaseAction τ θ} {token : τ} :
    action.issued = some token ↔ ∃ now lease, action = claim token now lease := by
  cases action <;> simp [issued]

end LeaseAction

/-- One transition. -/
inductive LeaseStep [LT θ] [Sub θ] :
    Option (Claim τ θ) → LeaseAction τ θ → Option (Claim τ θ) → Prop where
  | idle {current : Option (Claim τ θ)} : LeaseStep current .idle current
  | claim {current : Option (Claim τ θ)} {token : τ} {now lease : θ}
      (expired : ∀ claim, current = some claim → claim.since < now - lease) :
      LeaseStep current (.claim token now lease) (some ⟨token, now⟩)
  | renew {token : τ} {since now : θ} :
      LeaseStep (some ⟨token, since⟩) (.renew token now) (some ⟨token, now⟩)
  | finish {token : τ} {since : θ} : LeaseStep (some ⟨token, since⟩) (.finish token) none

/-- The token a resource is under. -/
def HeldUnder (current : Option (Claim τ θ)) (token : τ) : Prop :=
  ∃ claim, current = some claim ∧ claim.token = token

section Step

variable [LT θ] [Sub θ] {before after : Option (Claim τ θ)} {action : LeaseAction τ θ}

/-- A token becomes current only by being issued. -/
theorem LeaseStep.gained (step : LeaseStep before action after) {token : τ}
    (free : ¬ HeldUnder before token) (held : HeldUnder after token) :
    ∃ now lease, action = .claim token now lease := by
  obtain ⟨claim, isAfter, rfl⟩ := held
  cases step with
  | idle => exact absurd ⟨claim, isAfter, rfl⟩ free
  | claim =>
      cases isAfter
      exact ⟨_, _, rfl⟩
  | renew =>
      cases isAfter
      exact absurd ⟨_, rfl, rfl⟩ free
  | finish => cases isAfter

/-- A token stops being current by its own finish, or by a claim after the lease. -/
theorem LeaseStep.lost (step : LeaseStep before action after) {claim : Claim τ θ}
    (held : before = some claim) (free : ¬ HeldUnder after claim.token) :
    action = .finish claim.token ∨
      ∃ token now lease, action = .claim token now lease ∧ after = some ⟨token, now⟩ ∧
        claim.since < now - lease := by
  cases step with
  | idle => exact absurd ⟨claim, held, rfl⟩ free
  | claim expired => exact .inr ⟨_, _, _, rfl, rfl, expired claim held⟩
  | renew =>
      cases held
      exact absurd ⟨_, rfl, rfl⟩ free
  | finish =>
      cases held
      exact .inl rfl

/-- A claim is taken only after the lease of the current one. -/
theorem LeaseStep.expired {token : τ} {now lease : θ}
    (step : LeaseStep before (.claim token now lease) after) {claim : Claim τ θ}
    (held : before = some claim) : claim.since < now - lease := by
  cases step with
  | claim expired => exact expired claim held

/-- The claim after a step was touched by it, or is the one before. -/
theorem LeaseStep.touched (step : LeaseStep before action after) {claim : Claim τ θ}
    (held : after = some claim) :
    action.Touches claim.token claim.since ∨
      before = some claim ∧ ∀ time, ¬ action.Touches claim.token time := by
  cases step with
  | idle =>
      refine .inr ⟨held, fun time touches => ?_⟩
      rcases touches with ⟨lease, isClaim⟩ | isRenew
      · cases isClaim
      · cases isRenew
  | claim =>
      cases held
      exact .inl (.inl ⟨_, rfl⟩)
  | renew =>
      cases held
      exact .inl (.inr rfl)
  | finish => cases held

end Step

/-- A run of the resource: no claim at first, and no token issued twice. -/
structure LeaseRun (τ θ : Type*) [LT θ] [Sub θ] where
  state : Nat → Option (Claim τ θ)
  action : Nat → LeaseAction τ θ
  start : state 0 = none
  step : ∀ i, LeaseStep (state i) (action i) (state (i + 1))
  issued_once : ∀ {i k token now lease now' lease'}, action i = .claim token now lease →
    action k = .claim token now' lease' → i = k

namespace LeaseRun

variable [LT θ] [Sub θ] (run : LeaseRun τ θ) {token : τ} {i k m : Nat}

/-- The claim with this token ends at step `i`. -/
def EndsAt (token : τ) (i : Nat) : Prop :=
  HeldUnder (run.state i) token ∧ ¬ HeldUnder (run.state (i + 1)) token

variable {run}

/-- A current token was issued before. -/
theorem issued (held : HeldUnder (run.state i) token) :
    ∃ k < i, ∃ now lease, run.action k = .claim token now lease := by
  induction i with
  | zero =>
      obtain ⟨claim, isClaim, _⟩ := held
      rw [run.start] at isClaim
      cases isClaim
  | succ i inductionHypothesis =>
      by_cases before : HeldUnder (run.state i) token
      · obtain ⟨k, earlier, issue⟩ := inductionHypothesis before
        exact ⟨k, earlier.trans i.lt_succ_self, issue⟩
      · exact ⟨i, i.lt_succ_self, (run.step i).gained before held⟩

/-- A token that was lost never comes back. -/
theorem never_returns (held : HeldUnder (run.state i) token) (later : i ≤ k)
    (free : ¬ HeldUnder (run.state k) token) (further : k ≤ m) : ¬ HeldUnder (run.state m) token := by
  induction m, further using Nat.le_induction with
  | base => exact free
  | succ m further inductionHypothesis =>
      intro back
      obtain ⟨now, lease, again⟩ := (run.step m).gained inductionHypothesis back
      obtain ⟨first, earlier, now', lease', issue⟩ := issued held
      have same := run.issued_once issue again
      omega

/-- A claim ends at most once. -/
theorem ends_once (one : run.EndsAt token i) (other : run.EndsAt token k) : i = k := by
  rcases Nat.lt_trichotomy i k with before | same | after
  · exact absurd other.1 (never_returns one.1 i.le_succ one.2 before)
  · exact same
  · exact absurd one.1 (never_returns other.1 k.le_succ other.2 after)

/-- A claim ends by its own finish, or displaced by a newer claim after the lease. -/
theorem ends_by (ends : run.EndsAt token i) :
    run.action i = .finish token ∨
      ∃ claim newer now lease, run.state i = some claim ∧ claim.token = token ∧
        run.action i = .claim newer now lease ∧ run.state (i + 1) = some ⟨newer, now⟩ ∧
        claim.since < now - lease := by
  obtain ⟨claim, held, rfl⟩ := ends.1
  rcases (run.step i).lost held ends.2 with finished | ⟨newer, now, lease, displaced, after, expired⟩
  · exact .inl finished
  · exact .inr ⟨claim, newer, now, lease, held, rfl, displaced, after, expired⟩

/-- A claim was last touched at the time it records. -/
theorem last_touch {claim : Claim τ θ} (held : run.state i = some claim) :
    ∃ k < i, (run.action k).Touches claim.token claim.since ∧
      ∀ m, k < m → m < i → ∀ time, ¬ (run.action m).Touches claim.token time := by
  induction i with
  | zero =>
      rw [run.start] at held
      cases held
  | succ i inductionHypothesis =>
      rcases (run.step i).touched held with touches | ⟨before, untouched⟩
      · exact ⟨i, i.lt_succ_self, touches, fun m above below => by omega⟩
      · obtain ⟨k, earlier, touches, last⟩ := inductionHypothesis before
        refine ⟨k, earlier.trans i.lt_succ_self, touches, fun m above below => ?_⟩
        rcases Nat.lt_succ_iff_lt_or_eq.mp below with inside | rfl
        · exact last m above inside
        · exact untouched

/-- The tokens issued before step `i`. -/
def issuedBefore (run : LeaseRun τ θ) (i : Nat) : List τ :=
  (List.range i).filterMap fun k => (run.action k).issued

theorem issuedBefore_succ (i : Nat) :
    run.issuedBefore (i + 1) = run.issuedBefore i ++ (run.action i).issued.toList := by
  unfold issuedBefore
  rw [List.range_succ, List.filterMap_append]
  cases issued : (run.action i).issued <;> simp [issued]

/-- No token is issued twice. -/
theorem nodup_issuedBefore (i : Nat) : (run.issuedBefore i).Nodup := by
  unfold issuedBefore
  refine List.Nodup.filterMap ?_ List.nodup_range
  intro k m token inOne inOther
  obtain ⟨now, lease, issue⟩ := LeaseAction.issued_eq_some.mp inOne
  obtain ⟨now', lease', again⟩ := LeaseAction.issued_eq_some.mp inOther
  exact run.issued_once issue again

end LeaseRun

end JobPlatform.Foundation
