import JobPlatform.Foundation.Turns

/-!
Contract: forward simulation between two systems of threads, one thread at a time.

Owns:
- `Simulation`: the states are related, and each thread of the concrete system is in a phase of its
  twin; every step of the concrete system is matched by the calls of the one twin, and no step
  disturbs the phases of the others;
- `Simulation.reachable`: every reachable pool has a reachable twin in a related state.
-/

namespace JobPlatform.Foundation

open ThreadSystem

/-- A simulation of one system by another. -/
structure Simulation {S T : Calls} {σ τ : Type} (concrete : ThreadSystem S σ)
    (abstract : ThreadSystem T τ) where
  related : σ → τ → Prop
  phase : ThreadId → σ → Program S Unit → Program T Unit → Prop
  start : ∀ {t s twin program after}, related s twin → concrete.start t s program after →
    ∃ other twinAfter, abstract.start t twin other twinAfter ∧ related after twinAfter ∧
      phase t after program other
  start_phase : ∀ {t u s twin program after mine other}, related s twin →
    concrete.start t s program after → u ≠ t → phase u s mine other → phase u after mine other
  call : ∀ {t s twin c rest reply after other}, related s twin →
    phase t s (.call c rest) other → concrete.exec t s c reply after →
    ∃ next twinAfter, abstract.Moves t other twin next twinAfter ∧ related after twinAfter ∧
      phase t after (rest reply) next
  call_phase : ∀ {t u s twin c reply after mine other}, related s twin →
    concrete.exec t s c reply after → u ≠ t → phase u s mine other → phase u after mine other
  env : ∀ {s twin after}, related s twin → concrete.env s after →
    ∃ twinAfter, Relation.ReflTransGen abstract.env twin twinAfter ∧ related after twinAfter
  env_phase : ∀ {u s twin after mine other}, related s twin → concrete.env s after →
    phase u s mine other → phase u after mine other

namespace Simulation

variable {S T : Calls} {σ τ : Type} {concrete : ThreadSystem S σ} {abstract : ThreadSystem T τ}
  (sim : Simulation concrete abstract)

/-- The states are related, and every thread is in a phase of its twin. -/
structure Twin (pool : Pool S σ) (twin : Pool T τ) : Prop where
  states : sim.related pool.state twin.state
  idle : ∀ t, pool.threads t = none → twin.threads t = none
  phases : ∀ t program, pool.threads t = some program →
    ∃ other, twin.threads t = some other ∧ sim.phase t pool.state program other

variable {sim} {pool next : Pool S σ} {twin : Pool T τ}

/-- One thread and its twin have moved, and all others kept their phases. -/
theorem Twin.update (holds : sim.Twin pool twin) {t : ThreadId} {after : σ} {twinAfter : τ}
    (related : sim.related after twinAfter) {mine : Option (Program S Unit)}
    {other : Option (Program T Unit)} (idle : mine = none → other = none)
    (inPhase : ∀ program, mine = some program →
      ∃ twinProgram, other = some twinProgram ∧ sim.phase t after program twinProgram)
    (kept : ∀ u, u ≠ t → ∀ program twinProgram, sim.phase u pool.state program twinProgram →
      sim.phase u after program twinProgram) :
    sim.Twin ⟨after, Function.update pool.threads t mine⟩
      ⟨twinAfter, Function.update twin.threads t other⟩ where
  states := related
  idle u isIdle := by
    dsimp only at isIdle ⊢
    by_cases same : u = t
    · subst same
      rw [Function.update_self] at isIdle ⊢
      exact idle isIdle
    · rw [Function.update_of_ne same] at isIdle ⊢
      exact holds.idle u isIdle
  phases u program running := by
    dsimp only at running ⊢
    by_cases same : u = t
    · subst same
      rw [Function.update_self] at running ⊢
      exact inPhase program running
    · rw [Function.update_of_ne same] at running ⊢
      obtain ⟨twinProgram, isTwin, inPhase⟩ := holds.phases u program running
      exact ⟨twinProgram, isTwin, kept u same program twinProgram inPhase⟩

/-- Every step is matched. -/
theorem Twin.step (holds : sim.Twin pool twin) (step : concrete.Step pool next) :
    ∃ twinNext, Relation.ReflTransGen abstract.Step twin twinNext ∧ sim.Twin next twinNext := by
  cases step with
  | @start t program after idle started =>
      obtain ⟨other, twinAfter, twinStarted, related, inPhase⟩ := sim.start holds.states started
      refine ⟨_, .single (.start (holds.idle t idle) twinStarted), ?_⟩
      refine holds.update related (fun isNone => by cases isNone) ?_ fun u apart _ _ =>
        sim.start_phase holds.states started apart
      rintro _ ⟨⟩
      exact ⟨other, rfl, inPhase⟩
  | @call t c rest reply after running called =>
      obtain ⟨other, isTwin, inPhase⟩ := holds.phases t _ running
      obtain ⟨next, twinAfter, moves, related, inNext⟩ := sim.call holds.states inPhase called
      refine ⟨_, moves.steps isTwin, ?_⟩
      refine holds.update related (fun isNone => by cases isNone) ?_ fun u apart _ _ =>
        sim.call_phase holds.states called apart
      rintro _ ⟨⟩
      exact ⟨next, rfl, inNext⟩
  | @stop t =>
      refine ⟨_, .single (.stop (t := t)), ?_⟩
      exact holds.update holds.states (fun _ => rfl) (fun _ isSome => by cases isSome)
        fun _ _ _ _ inPhase => inPhase
  | env moved =>
      obtain ⟨twinAfter, moves, related⟩ := sim.env holds.states moved
      refine ⟨⟨twinAfter, twin.threads⟩, ?_, related, holds.idle, fun t program running => ?_⟩
      · refine moves.lift (fun state => (⟨state, twin.threads⟩ : Pool T τ)) fun before after moved => ?_
        have step : abstract.Step ⟨before, twin.threads⟩ ⟨after, twin.threads⟩ := .env moved
        exact step
      · obtain ⟨other, isTwin, inPhase⟩ := holds.phases t program running
        exact ⟨other, isTwin, sim.env_phase holds.states moved inPhase⟩

/-- Every reachable pool has a reachable twin. -/
theorem reachable {init : σ} {twinInit : τ} (first : sim.related init twinInit)
    (reached : concrete.Reachable init pool) :
    ∃ twin, abstract.Reachable twinInit twin ∧ sim.Twin pool twin := by
  induction reached with
  | refl =>
      exact ⟨ThreadSystem.initial twinInit, .refl, first, fun _ _ => rfl,
        fun _ _ running => by cases running⟩
  | tail _ step inductionHypothesis =>
      obtain ⟨twin, reached, holds⟩ := inductionHypothesis
      obtain ⟨twinNext, steps, holdsNext⟩ := holds.step step
      exact ⟨twinNext, reached.trans steps, holdsNext⟩

end Simulation

end JobPlatform.Foundation
