import Mathlib.Data.List.Range
import JobPlatform.Runtime.Worker

/-!
Contract: the heartbeat thread under any sequence of outcomes of its calls.

Owns:
- `Ticks`, what each interval brings, and `life`, what the thread does under it;
- `Survives`, that only a stop or a refused renewal ends the thread;
- the condition under which it does: no renewal raises.

Does not own the lease: when a claim can be taken is decided in the store.
-/

namespace JobPlatform.Runtime

open JobPlatform.Foundation JobPlatform.Store

/-- What each interval brings: whether `stop` was set during the wait, and the outcome of the two
remote calls, should the thread make them. -/
structure Ticks where
  stopped : Nat → Bool
  renewal : Nat → Except Exn Bool
  extension : Nat → Except Exn Unit

/-- A remote call of the thread, in the interval with this number. -/
inductive Beat where
  | renewal (tick : Nat)
  | extension (tick : Nat)
deriving DecidableEq

/-- The intervals the thread has waited for, and the remote calls it has made. -/
abbrev Pulse := Nat × List Beat

namespace Ticks

/-- The calls of a heartbeat thread. It makes no others. -/
def handle (ticks : Ticks) : (call : PlatformCall) → Pulse → platform.Reply call × Pulse
  | .stopWait .., (waits, beats) => (.ok (ticks.stopped waits), waits + 1, beats)
  | .repository (.renewJobProcessingLease ..), (waits, beats) =>
      (ticks.renewal (waits - 1), waits, beats ++ [.renewal (waits - 1)])
  | .changeMessageVisibility .., (waits, beats) =>
      (ticks.extension (waits - 1), waits, beats ++ [.extension (waits - 1)])
  | .record .., pulse => (.ok (), pulse)
  | _, pulse => (.error (.other "NotImplementedError"), pulse)

/-- What an interval asks for: one renewal, and one extension if the renewal returned `True`. -/
def beats (ticks : Ticks) (tick : Nat) : List Beat :=
  match ticks.renewal tick with
  | .ok true => [.renewal tick, .extension tick]
  | _ => [.renewal tick]

/-- The thread goes on after the interval. -/
def Goes (ticks : Ticks) (tick : Nat) : Prop :=
  ticks.stopped tick = false ∧ ticks.renewal tick = .ok true

/-- Neither `stop` nor a refused renewal ended the thread before the renewal of the interval. -/
def Due (ticks : Ticks) (tick : Nat) : Prop :=
  (∀ earlier ≤ tick, ticks.stopped earlier = false) ∧
    ∀ earlier < tick, ticks.renewal earlier ≠ .ok false

end Ticks

/-- What the thread has done when it has waited for at most `intervals` intervals. -/
def life (heartbeat : VisibilityHeartbeat) (thread : Nat) (ticks : Ticks) (intervals : Nat) :
    Except Exn Unit × Pulse :=
  Code.meaning ticks.handle (heartbeat.run thread intervals) (0, [])

/-- The thread ends only because `stop` was set or a renewal returned `False`, and until then every
interval makes the calls it asks for, in order, whatever the outcomes before it. -/
structure Survives (heartbeat : VisibilityHeartbeat) (thread : Nat) (ticks : Ticks) : Prop where
  ends : ∀ tick, (life heartbeat thread ticks (tick + 1)).2.1 ≤ tick →
    ∃ earlier < tick, ticks.stopped earlier = true ∨ ticks.renewal earlier = .ok false
  attempts : ∀ tick, ticks.Due tick → (life heartbeat thread ticks (tick + 1)).2 =
    (tick + 1, (List.range (tick + 1)).flatMap ticks.beats)

/-- No renewal the thread is due to make raises. -/
def RenewalsReturn (ticks : Ticks) : Prop :=
  ∀ tick, ticks.Due tick → ∀ error, ticks.renewal tick ≠ .error error

section Life

variable (heartbeat : VisibilityHeartbeat) (thread : Nat) {ticks : Ticks}

/-- One interval in which the thread is stopped. -/
theorem meaning_run_stopped {waits : Nat} (stopped : ticks.stopped waits = true) (fuel : Nat)
    (beats : List Beat) :
    Code.meaning ticks.handle (heartbeat.run thread (fuel + 1)) (waits, beats) =
      (.ok (), waits + 1, beats) := by
  have waited : Code.meaning ticks.handle
      (perform (.stopWait thread heartbeat.heartbeatSeconds)) (waits, beats) =
      (.ok (ticks.stopped waits), waits + 1, beats) := rfl
  unfold VisibilityHeartbeat.run
  rw [Code.meaning_bind, waited, stopped]
  rfl

/-- One interval in which the thread is not stopped. -/
theorem meaning_run_renews {waits : Nat} (running : ticks.stopped waits = false) (fuel : Nat)
    (beats : List Beat) :
    Code.meaning ticks.handle (heartbeat.run thread (fuel + 1)) (waits, beats) =
      match ticks.renewal waits with
      | .error error => (.error error, waits + 1, beats ++ ticks.beats waits)
      | .ok false => (.ok (), waits + 1, beats ++ ticks.beats waits)
      | .ok true => Code.meaning ticks.handle (heartbeat.run thread fuel)
          (waits + 1, beats ++ ticks.beats waits) := by
  have waited : Code.meaning ticks.handle
      (perform (.stopWait thread heartbeat.heartbeatSeconds)) (waits, beats) =
      (.ok (ticks.stopped waits), waits + 1, beats) := rfl
  have asked : Code.meaning ticks.handle
      (repository (.renewJobProcessingLease heartbeat.jobId heartbeat.processingToken))
        (waits + 1, beats) = (ticks.renewal waits, waits + 1, beats ++ [.renewal waits]) := rfl
  rw [VisibilityHeartbeat.run, Code.meaning_bind, waited, running]
  dsimp only
  rw [if_neg Bool.false_ne_true, Code.meaning_bind, asked]
  unfold Ticks.beats
  cases outcome : ticks.renewal waits with
  | error error => rfl
  | ok renewed =>
      cases renewed with
      | false => rfl
      | true =>
          dsimp only
          have extended : Code.meaning ticks.handle (tryCatch
              (perform (.changeMessageVisibility heartbeat.receiptHandle
                heartbeat.visibilityTimeoutSeconds))
              fun _ => record .workerVisibilityHeartbeatFailures ["sqs_change_visibility"])
                (waits + 1, beats ++ [.renewal waits]) =
              (.ok (), waits + 1, beats ++ [.renewal waits, .extension waits]) := by
            have called : Code.meaning ticks.handle (perform (.changeMessageVisibility
                heartbeat.receiptHandle heartbeat.visibilityTimeoutSeconds))
                  (waits + 1, beats ++ [.renewal waits]) =
                (ticks.extension waits, waits + 1,
                  beats ++ [.renewal waits] ++ [.extension waits]) := rfl
            rw [Code.meaning_tryCatch, called, List.append_assoc]
            cases ticks.extension waits with
            | ok value => rfl
            | error error => rfl
          rw [Bool.not_true, if_neg Bool.false_ne_true, Code.meaning_bind, extended]

/-- Intervals after which the thread goes on. -/
theorem meaning_run_goes {intervals waits : Nat}
    (goes : ∀ tick, waits ≤ tick → tick < waits + intervals → ticks.Goes tick) (fuel : Nat)
    (beats : List Beat) :
    Code.meaning ticks.handle (heartbeat.run thread (intervals + fuel)) (waits, beats) =
      Code.meaning ticks.handle (heartbeat.run thread fuel)
        (waits + intervals, beats ++ (List.range' waits intervals).flatMap ticks.beats) := by
  induction intervals generalizing waits beats with
  | zero => simp
  | succ intervals inductionHypothesis =>
      obtain ⟨running, renewed⟩ := goes waits le_rfl (by omega)
      have later : ∀ tick, waits + 1 ≤ tick → tick < waits + 1 + intervals → ticks.Goes tick :=
        fun tick after before => goes tick (by omega) (by omega)
      have fuelLeft : intervals + 1 + fuel = intervals + fuel + 1 := by omega
      rw [fuelLeft, meaning_run_renews heartbeat thread running, renewed]
      dsimp only
      rw [inductionHypothesis later, List.range'_succ, List.flatMap_cons, List.append_assoc]
      congr 2
      omega

/-- The life of a thread that went on in every interval before the last. -/
theorem life_succ {tick : Nat} (goes : ∀ earlier < tick, ticks.Goes earlier) :
    life heartbeat thread ticks (tick + 1) = Code.meaning ticks.handle (heartbeat.run thread 1)
      (tick, (List.range tick).flatMap ticks.beats) := by
  unfold life
  rw [meaning_run_goes heartbeat thread (fun earlier _ before => goes earlier (by omega)), Nat.zero_add,
    List.nil_append, List.range_eq_range']

/-- A renewal that is due and made. -/
theorem life_due {tick : Nat} (goes : ∀ earlier < tick, ticks.Goes earlier)
    (running : ticks.stopped tick = false) : (life heartbeat thread ticks (tick + 1)).2 =
      (tick + 1, (List.range (tick + 1)).flatMap ticks.beats) := by
  rw [life_succ heartbeat thread goes, meaning_run_renews heartbeat thread running,
    List.range_succ, List.flatMap_append,
    List.flatMap_singleton]
  cases ticks.renewal tick with
  | error error => rfl
  | ok renewed => cases renewed <;> rfl

/-- Without raising renewals, a thread that neither was stopped nor refused went on. -/
theorem RenewalsReturn.goes (returns : RenewalsReturn ticks) {tick : Nat}
    (running : ∀ earlier < tick, ticks.stopped earlier = false)
    (kept : ∀ earlier < tick, ticks.renewal earlier ≠ .ok false) :
    ∀ earlier < tick, ticks.Goes earlier := by
  intro earlier before
  have due : ticks.Due earlier :=
    ⟨fun first upTo => running first (by omega), fun first upTo => kept first (by omega)⟩
  refine ⟨running earlier before, ?_⟩
  cases outcome : ticks.renewal earlier with
  | error error => exact absurd outcome (returns earlier due error)
  | ok renewed =>
      cases renewed with
      | true => rfl
      | false => exact absurd outcome (kept earlier before)

/-- A renewal that raises ends the thread. -/
theorem life_raised {tick : Nat} (goes : ∀ earlier < tick, ticks.Goes earlier)
    (running : ticks.stopped tick = false) {error : Exn} (raised : ticks.renewal tick = .error error) :
    (life heartbeat thread ticks (tick + 2)).2.1 = tick + 1 := by
  unfold life
  rw [meaning_run_goes heartbeat thread (fun earlier _ before => goes earlier (by omega)), Nat.zero_add,
    meaning_run_renews heartbeat thread running, raised]

end Life

/-- The thread survives failures of its calls exactly when no renewal raises. A raised extension
is caught; a raised renewal is not, and ends the thread. -/
theorem survives_iff (heartbeat : VisibilityHeartbeat) (thread : Nat) (ticks : Ticks) :
    Survives heartbeat thread ticks ↔ RenewalsReturn ticks := by
  constructor
  · intro survives tick due error raised
    induction tick using Nat.strong_induction_on generalizing error with
    | _ tick inductionHypothesis =>
        have goes : ∀ earlier < tick, ticks.Goes earlier := by
          intro earlier before
          have dueEarlier : ticks.Due earlier := ⟨fun first upTo => due.1 first (by omega),
            fun first upTo => due.2 first (by omega)⟩
          refine ⟨due.1 earlier (by omega), ?_⟩
          cases outcome : ticks.renewal earlier with
          | error error => exact (inductionHypothesis earlier before dueEarlier error outcome).elim
          | ok renewed =>
              cases renewed with
              | true => rfl
              | false => exact absurd outcome (due.2 earlier before)
        have last := life_raised heartbeat thread goes (due.1 tick le_rfl) raised
        obtain ⟨earlier, before, stopped | refused⟩ := survives.ends (tick + 1) last.le
        · rw [due.1 earlier (by omega)] at stopped
          cases stopped
        · rcases Nat.lt_succ_iff_lt_or_eq.mp before with first | rfl
          · exact due.2 earlier first refused
          · rw [raised] at refused
            cases refused
  · intro returns
    constructor
    · intro tick ended
      by_contra none
      push Not at none
      have running : ∀ earlier < tick, ticks.stopped earlier = false :=
        fun earlier before => by simpa using (none earlier before).1
      have goes := returns.goes running fun earlier before => (none earlier before).2
      rw [life_succ heartbeat thread goes] at ended
      cases stopped : ticks.stopped tick with
      | true =>
          rw [meaning_run_stopped heartbeat thread stopped] at ended
          exact absurd ended (by simp)
      | false =>
          rw [meaning_run_renews heartbeat thread stopped] at ended
          cases outcome : ticks.renewal tick with
          | error error => simp [outcome] at ended
          | ok renewed => cases renewed <;> simp [outcome, VisibilityHeartbeat.run] at ended
    · intro tick due
      exact life_due heartbeat thread
        (returns.goes (fun earlier before => due.1 earlier (by omega)) due.2)
        (due.1 tick le_rfl)

/-- The first renewal raises once, and every later one would succeed. -/
def stumble : Ticks where
  stopped _ := false
  renewal tick := if tick = 0 then .error (.other "OperationalError") else .ok true
  extension _ := .ok ()

/-- One raised renewal ends the thread: `stop` was not set and no renewal returned `False`. -/
theorem stumble_dies : ¬ Survives ⟨Uuid.ofInt 0, Uuid.ofInt 1, 0, 60, 30⟩ 0 stumble := by
  intro survives
  have none : ∀ earlier < 0, stumble.Goes earlier := fun _ before => absurd before (Nat.not_lt_zero _)
  have last := life_raised ⟨Uuid.ofInt 0, Uuid.ofInt 1, 0, 60, 30⟩ 0 none rfl rfl
  obtain ⟨earlier, before, stopped | refused⟩ := survives.ends 1 last.le
  · cases stopped
  · obtain rfl : earlier = 0 := by omega
    cases refused

end JobPlatform.Runtime
