import JobPlatform.Foundation.Transcript

/-!
Contract: threads that run programs of another system, one after the other, between calls of their
own.

Owns:
- `Calls.withOwn`, a language with further calls, and `hosted`, a program seen in it;
- `Serves`, programs that make their own calls and run pieces in between, with its rules;
- `served_of_transcript`: what such a program did is what its pieces did;
- `Hosting`, two systems of which the first hosts the second, and `reachable_of_hosting`: the host
  reaches no state that the second does not reach;
- what a complete run of a thread of the host is to the hosted system.
-/

namespace JobPlatform.Foundation

/-- The calls of `S`, and the host's own. -/
@[reducible] def Calls.withOwn (S : Calls) (Own : Type) (Answer : Own → Type) : Calls where
  Call := S.Call ⊕ Own
  Result := Sum.elim S.Result Answer
  Error := S.Error

section Hosted

variable {S : Calls} {Own : Type} {Answer : Own → Type} {α β γ : Type}

namespace Program

/-- A program in the language of its host. -/
def hosted : Program S α → Program (S.withOwn Own Answer) α
  | done value => done value
  | call c rest => call (.inl c) fun reply => (rest reply).hosted

/-- The host's version of a program makes the same calls. -/
theorem Only.hosted {Q : S.Call → Prop} {wide : S.Call ⊕ Own → Prop} {program : Program S α}
    (only : program.Only Q) (each : ∀ c, Q c → wide (.inl c)) :
    (program.hosted : Program (S.withOwn Own Answer) α).Only wide := by
  induction program with
  | done value => trivial
  | call c rest inductionHypothesis =>
      exact ⟨each c only.1, fun reply => inductionHypothesis reply (only.2 reply)⟩

end Program

/-- Code in the language of its host. -/
def Code.hosted (code : Code S α) : Code (S.withOwn Own Answer) α := ExceptT.mk code.run.hosted

/-! ### Programs that run pieces -/

/-- The program makes calls of its own, and runs pieces in between. -/
inductive Serves (piece : Program S Unit → Prop) : Program (S.withOwn Own Answer) α → Prop where
  | done {value : α} : Serves piece (.done value)
  | own {c : Own} {rest : (S.withOwn Own Answer).Reply (.inr c) → Program (S.withOwn Own Answer) α}
      (each : ∀ reply, Serves piece (rest reply)) : Serves piece (.call (.inr c) rest)
  | piece {β : Type} {program : Program S β} {next : β → Program (S.withOwn Own Answer) α}
      (isPiece : piece (program >>= fun _ => .done ())) (each : ∀ value, Serves piece (next value)) :
      Serves piece (program.hosted >>= next)

variable {piece : Program S Unit → Prop}

theorem Serves.bind {program : Program (S.withOwn Own Answer) α}
    {next : α → Program (S.withOwn Own Answer) β} (first : Serves piece program)
    (rest : ∀ value, Serves piece (next value)) : Serves piece (program >>= next) := by
  induction first with
  | done => exact rest _
  | own _ inductionHypothesis => exact .own inductionHypothesis
  | piece isPiece _ inductionHypothesis =>
      rw [Program.bind_assoc]
      exact .piece isPiece inductionHypothesis

/-- What follows a call of the host's own. -/
theorem Serves.after {c : Own}
    {rest : (S.withOwn Own Answer).Reply (.inr c) → Program (S.withOwn Own Answer) α}
    (serves : Serves piece (.call (S := S.withOwn Own Answer) (.inr c) rest)) (reply : (S.withOwn Own Answer).Reply (.inr c)) :
    Serves piece (rest reply) := by
  generalize isProgram : Program.call (S := S.withOwn Own Answer) (.inr c) rest = program at serves
  induction serves with
  | done => cases isProgram
  | own each =>
      cases isProgram
      exact each reply
  | @piece _ inner next isPiece each inductionHypothesis =>
      cases inner with
      | done value => exact inductionHypothesis value isProgram
      | call => cases isProgram

/-- A hosted call is the first call of a piece. -/
theorem Serves.opens {c : S.Call}
    {rest : (S.withOwn Own Answer).Reply (.inl c) → Program (S.withOwn Own Answer) α}
    (serves : Serves piece (.call (S := S.withOwn Own Answer) (.inl c) rest)) :
    ∃ (γ : Type) (inner : S.Reply c → Program S γ) (next : γ → Program (S.withOwn Own Answer) α),
      piece (.call c fun reply => inner reply >>= fun _ => .done ()) ∧
        (∀ reply, rest reply = (inner reply).hosted >>= next) ∧ ∀ value, Serves piece (next value) := by
  generalize isProgram : Program.call (S := S.withOwn Own Answer) (.inl c) rest = program at serves
  induction serves with
  | done => cases isProgram
  | own => cases isProgram
  | @piece _ inner next isPiece each inductionHypothesis =>
      cases inner with
      | done value => exact inductionHypothesis value isProgram
      | call first later =>
          cases isProgram
          exact ⟨_, later, next, isPiece, fun _ => rfl, each⟩

namespace Code

/-- `Serves` for code. -/
def Serves (piece : Program S Unit → Prop) (code : Code (S.withOwn Own Answer) α) : Prop :=
  Foundation.Serves piece code.run

variable {code : Code (S.withOwn Own Answer) α}

theorem serves_pure (value : α) : Serves piece (pure value : Code (S.withOwn Own Answer) α) := .done

theorem serves_ofExcept (result : Except S.Error α) :
    Serves piece (ofExcept (S := S.withOwn Own Answer) result) := .done

theorem serves_own (c : Own) : Serves piece (perform (S := S.withOwn Own Answer) (.inr c)) :=
  .own fun _ => .done

/-- A piece is code that runs as a task of its own. -/
theorem serves_hosted {inner : Code S α} (isPiece : piece inner.task) :
    Serves piece (inner.hosted : Code (S.withOwn Own Answer) α) := by
  have whole : Foundation.Serves piece ((inner.run.hosted : Program (S.withOwn Own Answer) _) >>=
    .done) := .piece isPiece fun _ => .done
  rwa [Program.bind_done] at whole

theorem Serves.bind {next : α → Code (S.withOwn Own Answer) β} (first : Serves piece code)
    (rest : ∀ value, Serves piece (next value)) : Serves piece (code >>= next) := by
  unfold Serves
  rw [ExceptT.run_bind]
  refine Foundation.Serves.bind first fun result => ?_
  cases result with
  | ok value => exact rest value
  | error error => exact .done

theorem Serves.tryCatch {handle : S.Error → Code (S.withOwn Own Answer) α}
    (first : Serves piece code) (raised : ∀ error, Serves piece (handle error)) :
    Serves piece (tryCatch code handle) := by
  unfold Serves
  rw [ExceptT.run_tryCatch]
  refine Foundation.Serves.bind first fun result => ?_
  cases result with
  | ok value => exact .done
  | error error => exact raised error

theorem Serves.finally_ {cleanup : Code (S.withOwn Own Answer) Unit} (first : Serves piece code)
    (last : Serves piece cleanup) : Serves piece (finally_ code cleanup) :=
  Foundation.Serves.bind first fun _ => Foundation.Serves.bind last fun cleaned => by
    cases cleaned <;> exact .done

theorem Serves.task (serves : Serves piece code) : Foundation.Serves piece code.task :=
  Foundation.Serves.bind serves fun _ => .done

end Code

/-! ### What the pieces did -/

section Transcripts

variable {σ τ : Type} (world : τ → σ)

/-- A hosted call, as the hosted system sees it. -/
def Exchange.inner? : Exchange (S.withOwn Own Answer) τ → Option (Exchange S σ)
  | ⟨before, .inl c, reply, after⟩ => some ⟨world before, c, reply, world after⟩
  | ⟨_, .inr _, _, _⟩ => none

variable {world} {exchanges : List (Exchange (S.withOwn Own Answer) τ)}

/-- A call of the hosted system, as the host sees it. -/
def Exchange.outer (lift : σ → τ) (exchange : Exchange S σ) : Exchange (S.withOwn Own Answer) τ :=
  ⟨lift exchange.before, .inl exchange.call, exchange.reply, lift exchange.after⟩

/-- What a program does, the hosted program does. -/
theorem Transcript.hosted {program : Program S α} {inner : List (Exchange S σ)} {value : α}
    (ran : Transcript program inner value) (lift : σ → τ) :
    Transcript (program.hosted : Program (S.withOwn Own Answer) α)
      (inner.map (Exchange.outer lift)) value := by
  induction ran with
  | done => exact .done
  | call _ inductionHypothesis => exact .call inductionHypothesis

/-- A hosted program does what the program does. -/
theorem transcript_hosted {program : Program S α} {value : α}
    (ran : Transcript (program.hosted : Program (S.withOwn Own Answer) α) exchanges value) :
    Transcript program (exchanges.filterMap (Exchange.inner? world)) value := by
  induction program generalizing exchanges with
  | done result =>
      obtain ⟨rfl, rfl⟩ := transcript_done ran
      exact .done
  | call c rest inductionHypothesis =>
      cases ran with
      | @call _ _ before after reply _ _ continued =>
          have isInner : Exchange.inner? world (⟨before, .inl c, reply, after⟩ :
              Exchange (S.withOwn Own Answer) τ) = some ⟨world before, c, reply, world after⟩ := rfl
          rw [List.filterMap_cons_some isInner]
          exact .call (inductionHypothesis _ continued)

/-- The hosted calls of a run are the calls of its pieces, in order. -/
theorem served_of_transcript {program : Program (S.withOwn Own Answer) α} {value : α}
    (serves : Serves piece program) (ran : Transcript program exchanges value) :
    ∃ pieces : List (Program S Unit × List (Exchange S σ)),
      exchanges.filterMap (Exchange.inner? world) = pieces.flatMap Prod.snd ∧
        ∀ part ∈ pieces, piece part.1 ∧ Transcript part.1 part.2 () := by
  induction serves generalizing exchanges with
  | done =>
      obtain ⟨rfl, _⟩ := transcript_done ran
      exact ⟨[], rfl, List.forall_mem_nil _⟩
  | own _ inductionHypothesis =>
      cases ran with
      | call continued =>
          rw [List.filterMap_cons_none rfl]
          exact inductionHypothesis _ continued
  | @piece _ inner next isPiece _ inductionHypothesis =>
      obtain ⟨first, result, rest, rfl, innerRan, restRan⟩ := transcript_bind ran
      obtain ⟨pieces, isRest, each⟩ := inductionHypothesis result restRan
      have task : Transcript (inner >>= fun _ => .done ())
          (first.filterMap (Exchange.inner? world) ++ []) () :=
        (transcript_hosted innerRan).bind .done
      rw [List.append_nil] at task
      refine ⟨(_, first.filterMap (Exchange.inner? world)) :: pieces, ?_,
        List.forall_mem_cons.mpr ⟨⟨isPiece, task⟩, each⟩⟩
      rw [List.filterMap_append, isRest, List.flatMap_cons]

end Transcripts

end Hosted

/-! ### Hosts -/

namespace ThreadSystem

variable {S : Calls} {Own : Type} {Answer : Own → Type} {σ τ : Type}
  {host : ThreadSystem (S.withOwn Own Answer) τ} {sys : ThreadSystem S σ} {world : τ → σ}
  {piece : Program S Unit → Prop}

/-- The threads of the host run pieces, or programs of the hosted system, and move its state in no
other way. -/
structure Hosting (host : ThreadSystem (S.withOwn Own Answer) τ) (sys : ThreadSystem S σ)
    (world : τ → σ) (piece : Program S Unit → Prop) : Prop where
  hostedCall : ∀ {t s c reply after}, host.exec t s (.inl c) reply after →
    sys.exec t (world s) c reply (world after)
  ownCall : ∀ {t s c reply after}, host.exec t s (.inr c) reply after → world after = world s
  start : ∀ {t s program after}, host.start t s program after →
    (Serves piece program ∧ world after = world s) ∨
      ∃ inner : Program S Unit, program = inner.hosted ∧ sys.start t (world s) inner (world after)
  env : ∀ {s after}, host.env s after → sys.env (world s) (world after) ∨ world after = world s
  startPiece : ∀ {program}, piece program → ∀ t s, sys.start t s program s

/-- Where a thread of the host stands, and where the hosted thread does. -/
inductive Stands (piece : Program S Unit → Prop) :
    Option (Program (S.withOwn Own Answer) Unit) → Option (Program S Unit) → Prop where
  | stopped : Stands piece none none
  | between {program : Program (S.withOwn Own Answer) Unit} (serves : Serves piece program) :
      Stands piece (some program) none
  | inside {β : Type} {inner : Program S β} {next : β → Program (S.withOwn Own Answer) Unit}
      (each : ∀ value, Serves piece (next value)) :
      Stands piece (some (inner.hosted >>= next)) (some (inner >>= fun _ => .done ()))

/-- The hosted pool that a pool of the host stands for. -/
structure StandsFor (world : τ → σ) (piece : Program S Unit → Prop)
    (outer : Pool (S.withOwn Own Answer) τ) (pool : Pool S σ) : Prop where
  state : pool.state = world outer.state
  threads : ∀ t, Stands piece (outer.threads t) (pool.threads t)

variable {outer next : Pool (S.withOwn Own Answer) τ} {pool : Pool S σ} {t : ThreadId}

/-- One thread moves on both sides. -/
theorem StandsFor.update (stands : StandsFor world piece outer pool) (t : ThreadId) (after : τ)
    {program : Option (Program (S.withOwn Own Answer) Unit)} {inner : Option (Program S Unit)}
    (at' : Stands piece program inner) :
    StandsFor world piece ⟨after, Function.update outer.threads t program⟩
      ⟨world after, Function.update pool.threads t inner⟩ := by
  refine ⟨rfl, fun u => ?_⟩
  by_cases isThread : u = t
  · subst isThread
    simpa using at'
  · simpa [isThread] using stands.threads u

/-- A thread that makes its next call is between two pieces, or inside one. -/
theorem StandsFor.settle (stands : StandsFor world piece outer pool)
    {program : Program (S.withOwn Own Answer) Unit} (running : outer.threads t = some program) :
    ∃ threads, Relation.ReflTransGen sys.Step pool ⟨pool.state, threads⟩ ∧
      StandsFor world piece outer ⟨pool.state, threads⟩ ∧
      ((threads t = none ∧ Serves piece program) ∨
        ∃ (β : Type) (c : S.Call) (inner : S.Reply c → Program S β)
          (next : β → Program (S.withOwn Own Answer) Unit),
          program = .call (.inl c) (fun reply => (inner reply).hosted >>= next) ∧
            threads t = some (.call c fun reply => inner reply >>= fun _ => .done ()) ∧
            ∀ value, Serves piece (next value)) := by
  have at' := stands.threads t
  rw [running] at at'
  generalize isInner : pool.threads t = inner at at'
  cases at' with
  | between serves => exact ⟨pool.threads, .refl, stands, .inl ⟨isInner, serves⟩⟩
  | @inside _ inner next each =>
      cases inner with
      | call c rest => exact ⟨pool.threads, .refl, stands, .inr ⟨_, c, rest, next, rfl, isInner, each⟩⟩
      | done value =>
          -- the piece has ended, and its thread stops
          refine ⟨Function.update pool.threads t none, .single .stop, ⟨stands.state, fun u => ?_⟩,
            .inl ⟨by simp, each value⟩⟩
          by_cases isThread : u = t
          · subst isThread
            rw [running]
            show Stands piece _ (Function.update pool.threads u none u)
            rw [Function.update_self]
            exact .between (each value)
          · simpa [isThread] using stands.threads u

/-- A step of the host is a run of the hosted system. -/
theorem Hosting.step (hosting : Hosting host sys world piece)
    (stands : StandsFor world piece outer pool) (step : host.Step outer next) :
    ∃ later, Relation.ReflTransGen sys.Step pool later ∧ StandsFor world piece next later := by
  cases step with
  | @start t program after idle started =>
      have at' := stands.threads t
      rw [idle] at at'
      generalize isInner : pool.threads t = inner at at'
      cases at'
      rcases hosting.start started with ⟨serves, same⟩ | ⟨inner, rfl, innerStarted⟩
      · have whole := stands.update t after (.between serves)
        refine ⟨pool, .refl, stands.state.trans same.symm, ?_⟩
        have idle : Function.update pool.threads t none = pool.threads := by
          rw [← isInner, Function.update_eq_self]
        rw [idle] at whole
        exact whole.threads
      · rw [← stands.state] at innerStarted
        have inside : Stands piece (some (inner.hosted : Program (S.withOwn Own Answer) Unit))
            (some inner) := by
          have whole : Stands piece
              (some ((inner.hosted : Program (S.withOwn Own Answer) Unit) >>= .done))
              (some (inner >>= fun _ => .done ())) := .inside fun _ => .done
          rw [Program.bind_done] at whole
          rwa [show inner >>= (fun _ => .done ()) = inner from Program.bind_done inner] at whole
        exact ⟨_, .single (.start isInner innerStarted), stands.update _ _ inside⟩
  | @call t c rest reply after running called =>
      obtain ⟨threads, settled, standing, place⟩ :
          ∃ threads, Relation.ReflTransGen sys.Step pool ⟨pool.state, threads⟩ ∧ _ :=
        stands.settle running
      cases c with
      | inr c =>
          rcases place with ⟨idle, serves⟩ | ⟨_, _, _, _, isInner, _⟩
          · have whole := standing.update t after (.between (serves.after reply))
            refine ⟨_, settled, ?_, ?_⟩
            · exact stands.state.trans (hosting.ownCall called).symm
            · have same : Function.update threads t none = threads := by
                rw [← idle, Function.update_eq_self]
              rw [same] at whole
              exact whole.threads
          · cases isInner
      | inl c =>
          have innerCalled := hosting.hostedCall called
          rw [← stands.state] at innerCalled
          rcases place with ⟨idle, serves⟩ | ⟨_, _, inner, next, isInner, at', each⟩
          · obtain ⟨_, inner, next, isPiece, isRest, each⟩ := serves.opens
            refine ⟨_, (settled.tail (.start idle (hosting.startPiece isPiece t _))).tail
              (.call (Function.update_self _ _ _) innerCalled), ?_⟩
            rw [Function.update_idem]
            refine standing.update t after ?_
            rw [isRest]
            exact .inside each
          · cases isInner
            exact ⟨_, settled.tail (.call at' innerCalled), standing.update t after (.inside each)⟩
  | @stop t =>
      have whole := stands.update t outer.state .stopped
      rw [← stands.state] at whole
      exact ⟨_, .single .stop, whole⟩
  | env moved =>
      rcases hosting.env moved with innerMoved | same
      · rw [← stands.state] at innerMoved
        exact ⟨_, .single (.env innerMoved), rfl, stands.threads⟩
      · exact ⟨pool, .refl, stands.state.trans same.symm, stands.threads⟩

/-- Every state of the host is a state of the hosted system. -/
theorem reachable_of_hosting (hosting : Hosting host sys world piece) {init : τ}
    (reached : host.Reachable init outer) :
    ∃ pool, sys.Reachable (world init) pool ∧ StandsFor world piece outer pool := by
  induction reached with
  | refl => exact ⟨initial (world init), .refl, rfl, fun _ => .stopped⟩
  | tail _ step inductionHypothesis =>
      obtain ⟨pool, reached, stands⟩ := inductionHypothesis
      obtain ⟨later, steps, standing⟩ := hosting.step stands step
      exact ⟨later, reached.trans steps, standing⟩

/-- What every step of the hosted system keeps, every step of the host keeps. -/
theorem Hosting.keeps (hosting : Hosting host sys world piece) {P : σ → Prop}
    (keeps : ∀ {before after : Pool S σ}, sys.Step before after → P before.state → P after.state)
    (step : host.Step outer next) (holds : P (world outer.state)) : P (world next.state) := by
  cases step with
  | @start t program after idle started =>
      rcases hosting.start started with ⟨_, same⟩ | ⟨inner, rfl, innerStarted⟩
      · exact same ▸ holds
      · have step : sys.Step (initial (world outer.state)) _ := .start rfl innerStarted
        exact keeps step holds
  | @call t c rest reply after running called =>
      cases c with
      | inr c => exact hosting.ownCall called ▸ holds
      | inl c =>
          have innerCalled := hosting.hostedCall called
          let standing : Pool S σ := ⟨world outer.state, fun _ => some (.call c fun _ => .done ())⟩
          have step : sys.Step standing _ := .call rfl innerCalled
          exact keeps step holds
  | stop => exact holds
  | env moved =>
      rcases hosting.env moved with innerMoved | same
      · have step : sys.Step (initial (world outer.state)) _ := .env innerMoved
        exact keeps step holds
      · exact same ▸ holds

/-! ### Complete runs -/

section Runs

variable {program : Program (S.withOwn Own Answer) Unit} {first last : Pool (S.withOwn Own Answer) τ}
  {exchanges : List (Exchange (S.withOwn Own Answer) τ)}

theorem inner?_eq_some {exchange : Exchange (S.withOwn Own Answer) τ} {inner : Exchange S σ}
    (isInner : exchange.inner? world = some inner) :
    inner.before = world exchange.before ∧ inner.after = world exchange.after := by
  obtain ⟨before, call, reply, after⟩ := exchange
  cases call with
  | inl c =>
      cases isInner
      exact ⟨rfl, rfl⟩
  | inr c => cases isInner

/-- The hosted calls of a run are steps of the hosted system, in states it reaches. -/
theorem Hosting.steps (hosting : Hosting host sys world piece) {init : τ}
    (reached : host.Reachable init first) (run : host.CompleteRun t program first last exchanges) :
    ∀ exchange ∈ exchanges.filterMap (Exchange.inner? world), sys.Steps t exchange ∧
      ∃ pool, sys.Reachable (world init) pool ∧ pool.state = exchange.before := by
  intro exchange member
  obtain ⟨outer, isOuter, isInner⟩ := List.mem_filterMap.mp member
  constructor
  · have step := run.steps outer isOuter
    obtain ⟨before, call, reply, after⟩ := outer
    cases call with
    | inl c =>
        cases isInner
        exact hosting.hostedCall step
    | inr c => cases isInner
  · obtain ⟨earlier, reachedEarlier, isState⟩ :=
      run.watched.calls_reachable reached _ (List.mem_map_of_mem isOuter)
    obtain ⟨pool, reachedPool, stands⟩ := reachable_of_hosting hosting reachedEarlier
    refine ⟨pool, reachedPool, ?_⟩
    rw [stands.state, isState, (inner?_eq_some isInner).1]
    rfl

/-- What the hosted system keeps holds from any hosted call of a run to the later ones, and to its
end. -/
theorem Hosting.pairwise (hosting : Hosting host sys world piece) {P : σ → Prop}
    (keeps : ∀ {before after : Pool S σ}, sys.Step before after → P before.state → P after.state)
    (run : host.CompleteRun t program first last exchanges) :
    (exchanges.filterMap (Exchange.inner? world)).Pairwise
        (fun (earlier later : Exchange S σ) => P earlier.after → P later.before) ∧
      ∀ exchange ∈ exchanges.filterMap (Exchange.inner? world),
        P exchange.after → P (world last.state) := by
  obtain ⟨ordered, ends⟩ := run.watched.pairwise (P := fun s => P (world s)) (hosting.keeps keeps)
  constructor
  · refine List.pairwise_filterMap.mpr ((List.pairwise_map.mp ordered).imp ?_)
    intro earlier later kept inner isInner other isOther holds
    rw [(inner?_eq_some isOther).1]
    rw [(inner?_eq_some isInner).2] at holds
    exact kept holds
  · intro exchange member holds
    obtain ⟨outer, isOuter, isInner⟩ := List.mem_filterMap.mp member
    rw [(inner?_eq_some isInner).2] at holds
    exact ends _ (List.mem_map_of_mem isOuter) holds

end Runs

end ThreadSystem

end JobPlatform.Foundation
