import JobPlatform.Foundation.Linearization

/-!
Contract: what an answer promises to the statements that are sent after it.

Owns:
- `Lasting`, a fact of the rows that nothing undoes, with the answers that tell it and the answers
  it leaves possible;
- `RespectsOrder`, which reads the log in real time: an answer to a statement that was sent after
  the fact was told is one of the possible ones;
- `respectsOrder`, for clients whose transactions interleave.
-/

namespace JobPlatform.Foundation

open ThreadSystem

variable {ι κ ρ θ ε : Type}

/-- The client of an event. -/
def ClientEvent.thread : ClientEvent ι ρ ε → ThreadId
  | invoked t _ => t
  | answered t _ _ => t

/-- Somebody was told. -/
def Told (tells : ι → List ρ → Prop) (log : List (ClientEvent ι ρ ε)) : Prop :=
  ∃ t statement rows, .answered t statement (.ok rows) ∈ log ∧ tells statement rows

/-- Whoever sends a statement after somebody was told gets a possible answer. -/
def RespectsOrder (tells possible : ι → List ρ → Prop) (log : List (ClientEvent ι ρ ε)) : Prop :=
  ∀ ⦃before during rest t statement rows⦄,
    log = before ++ .invoked t statement :: (during ++ .answered t statement (.ok rows) :: rest) →
    (∀ event ∈ during, event.thread ≠ t) → Told tells before → possible statement rows

/-- A fact of the rows that no statement and no insert undoes. -/
structure Lasting [DecidableEq κ] (L : PointUpdates ι κ ρ θ) (clients : Clients ι ρ ε) where
  fact : (κ → Option ρ) → Prop
  tells : ι → List ρ → Prop
  possible : ι → List ρ → Prop
  kept : ∀ {statement now latest rows after}, fact latest →
    AtomicRun L statement now latest rows after → fact after
  inserted : ∀ {row latest}, fact latest → clients.inserts row → latest (L.key row) = none →
    fact (Function.update latest (L.key row) (some row))
  established : ∀ {statement now latest rows after}, AtomicRun L statement now latest rows after →
    tells statement rows → fact after
  answers : ∀ {statement now latest rows after}, fact latest →
    AtomicRun L statement now latest rows after → possible statement rows

/-! ### The log -/

section Log

variable {tells possible : ι → List ρ → Prop} {log : List (ClientEvent ι ρ ε)}
  {event : ClientEvent ι ρ ε}

/-- The last element with a property is in one place only. -/
theorem eq_of_split_last {α : Type} {P : α → Prop} {one other : α} {before former during later : List α}
    (isOne : P one) (isOther : P other) (last : ∀ x ∈ during, ¬ P x) (also : ∀ x ∈ later, ¬ P x)
    (same : before ++ one :: during = former ++ other :: later) : before = former := by
  rcases List.append_eq_append_iff.mp same with ⟨between, rfl, tail⟩ | ⟨between, rfl, tail⟩
  · cases between with
    | nil => exact (List.append_nil before).symm
    | cons first between =>
        obtain ⟨_, rfl⟩ := List.cons.inj tail
        exact absurd isOther (last other (by simp))
  · cases between with
    | nil => exact List.append_nil former
    | cons first between =>
        obtain ⟨_, rfl⟩ := List.cons.inj tail
        exact absurd isOne (also one (by simp))

/-- What an event tells is new, or was told before. -/
theorem Told.of_concat (isTold : Told tells (log ++ [event])) :
    Told tells log ∨ ∃ t statement rows, event = .answered t statement (.ok rows) ∧
      tells statement rows := by
  obtain ⟨t, statement, rows, member, told⟩ := isTold
  rcases List.mem_append.mp member with old | new
  · exact .inl ⟨t, statement, rows, old, told⟩
  · exact .inr ⟨t, statement, rows, (List.mem_singleton.mp new).symm, told⟩

/-- A log goes on in order when its new event, if it is an answer, is possible. -/
theorem RespectsOrder.concat (inOrder : RespectsOrder tells possible log)
    (next : ∀ {before during t statement rows}, event = .answered t statement (.ok rows) →
      log = before ++ .invoked t statement :: during → (∀ event ∈ during, event.thread ≠ t) →
      Told tells before → possible statement rows) :
    RespectsOrder tells possible (log ++ [event]) := by
  intro before during rest t statement rows isLog apart isTold
  rcases List.eq_nil_or_concat rest with rfl | ⟨front, last, rfl⟩
  · have split : log ++ [event] = (before ++ .invoked t statement :: during) ++
        [.answered t statement (.ok rows)] := by simpa using isLog
    obtain ⟨isFront, isLast⟩ := List.append_inj' split rfl
    exact next (List.head_eq_of_cons_eq isLast) isFront apart isTold
  · have split : log ++ [event] = (before ++ .invoked t statement ::
        (during ++ .answered t statement (.ok rows) :: front)) ++ [last] := by simpa using isLog
    obtain ⟨isFront, _⟩ := List.append_inj' split rfl
    exact inOrder isFront apart isTold

end Log

/-! ### The discipline -/

namespace Lasting

variable [DecidableEq κ] {L : PointUpdates ι κ ρ θ} {clients : Clients ι ρ ε}
  (lasting : Lasting L clients)

/-- What was told is true, and the log is in order. -/
def Holds (w : AtomWorld ι κ ρ ε) : Prop :=
  (Told lasting.tells w.log → lasting.fact w.latest) ∧
    RespectsOrder lasting.tells lasting.possible w.log

/-- The last statement the client has sent is this one, and the answer may come. -/
def Answerable (t : ThreadId) (w : AtomWorld ι κ ρ ε) (statement : ι) (rows : List ρ) : Prop :=
  (lasting.tells statement rows → lasting.fact w.latest) ∧
    ∀ {before during}, w.log = before ++ .invoked t statement :: during →
      (∀ event ∈ during, event.thread ≠ t) → Told lasting.tells before →
      lasting.possible statement rows

/-- The fact lasts, and the client sends and gets nothing meanwhile. -/
def Later (t : ThreadId) (w after : AtomWorld ι κ ρ ε) : Prop :=
  (lasting.fact w.latest → lasting.fact after.latest) ∧
    ∃ more, after.log = w.log ++ more ∧ ∀ event ∈ more, event.thread ≠ t

/-- The statement is the last the client has sent, and what was told before is true. -/
def Sent (t : ThreadId) (w : AtomWorld ι κ ρ ε) (statement : ι) : Prop :=
  ∃ before during, w.log = before ++ .invoked t statement :: during ∧
    (∀ event ∈ during, event.thread ≠ t) ∧ (Told lasting.tells before → lasting.fact w.latest)

/-- The statement has run: its rows are possible if something was told before it was sent. -/
def Ran (t : ThreadId) (w : AtomWorld ι κ ρ ε) (statement : ι) (rows : List ρ) : Prop :=
  (lasting.tells statement rows → lasting.fact w.latest) ∧
    ∃ before during, w.log = before ++ .invoked t statement :: during ∧
      (∀ event ∈ during, event.thread ≠ t) ∧
      (Told lasting.tells before → lasting.possible statement rows)

variable {lasting} {t : ThreadId} {w after : AtomWorld ι κ ρ ε} {statement : ι} {rows : List ρ}

theorem Sent.later (sent : lasting.Sent t w statement) (later : lasting.Later t w after) :
    lasting.Sent t after statement := by
  obtain ⟨before, during, isLog, apart, holds⟩ := sent
  obtain ⟨lasts, more, isMore, others⟩ := later
  refine ⟨before, during ++ more, by simp [isMore, isLog], fun event member => ?_,
    fun isTold => lasts (holds isTold)⟩
  rcases List.mem_append.mp member with old | new
  · exact apart event old
  · exact others event new

theorem Ran.later (ran : lasting.Ran t w statement rows) (later : lasting.Later t w after) :
    lasting.Ran t after statement rows := by
  obtain ⟨tells, before, during, isLog, apart, holds⟩ := ran
  obtain ⟨lasts, more, isMore, others⟩ := later
  refine ⟨fun told => lasts (tells told), before, during ++ more, by simp [isMore, isLog],
    fun event member => ?_, holds⟩
  rcases List.mem_append.mp member with old | new
  · exact apart event old
  · exact others event new

theorem Ran.answerable (ran : lasting.Ran t w statement rows) :
    lasting.Answerable t w statement rows := by
  obtain ⟨tells, before, during, isLog, apart, holds⟩ := ran
  refine ⟨tells, fun {former later} isSplit others isTold => holds ?_⟩
  have same : before = former := by
    have twice := isLog.symm.trans isSplit
    exact eq_of_split_last (P := fun event => event.thread = t) rfl rfl apart others twice
  rwa [same]

/-- A new event, which is possible if it is an answer. -/
theorem Holds.concat (holds : lasting.Holds w) {event : ClientEvent ι ρ ε}
    (next : ∀ {t statement rows}, event = .answered t statement (.ok rows) →
      lasting.Answerable t w statement rows) :
    lasting.Holds { w with log := w.log ++ [event] } := by
  refine ⟨fun isTold => ?_, holds.2.concat fun isAnswer => (next isAnswer).2⟩
  rcases isTold.of_concat with old | ⟨t, statement, rows, isAnswer, told⟩
  · exact holds.1 old
  · exact (next isAnswer).1 told

theorem later_concat {u : ThreadId} (apart : u ≠ t) {event : ClientEvent ι ρ ε}
    (own : event.thread = t) : lasting.Later u w { w with log := w.log ++ [event] } := by
  refine ⟨id, [event], rfl, fun other member => ?_⟩
  rw [List.mem_singleton.mp member, own]
  exact apart.symm

variable (lasting) in
/-- Clients answer what is possible, and rely on the fact to last. -/
def discipline :
    Discipline (atomSystem L clients : ThreadSystem (atomwise ι ρ ε) (AtomWorld ι κ ρ ε)) where
  inv := lasting.Holds
  pre t w
    | .answer statement (.ok rows) => lasting.Answerable t w statement rows
    | _ => True
  rely := lasting.Later
  rely_refl t w := ⟨id, [], (List.append_nil _).symm, by simp⟩
  rely_trans {t w middle after} := by
    rintro ⟨first, more, isMore, apart⟩ ⟨second, further, isFurther, others⟩
    refine ⟨fun holds => second (first holds), more ++ further, by simp [isFurther, isMore],
      fun event member => ?_⟩
    rcases List.mem_append.mp member with old | new
    · exact apart event old
    · exact others event new
  exec_inv {t w c reply after} holds allowed called := by
    cases called with
    | invoked sends => exact holds.concat fun isAnswer => by cases isAnswer
    | ran ran => exact ⟨fun isTold => lasting.kept (holds.1 isTold) ran, holds.2⟩
    | notRun error => exact holds
    | delivered reply => exact holds
    | answered =>
        refine holds.concat fun isAnswer => ?_
        cases isAnswer
        exact allowed
  exec_rely {t w c reply after} _ _ called u apart := by
    cases called with
    | invoked sends => exact later_concat apart rfl
    | ran ran =>
        exact ⟨fun holds => lasting.kept holds ran, [], (List.append_nil _).symm, by simp⟩
    | notRun error => exact ⟨id, [], (List.append_nil _).symm, by simp⟩
    | delivered reply => exact ⟨id, [], (List.append_nil _).symm, by simp⟩
    | answered => exact later_concat apart rfl
  env_inv {w after} holds moved := by
    obtain ⟨row, inserts, new, rfl⟩ := moved
    exact ⟨fun isTold => lasting.inserted (holds.1 isTold) inserts new, holds.2⟩
  env_rely {w after} _ moved u := by
    obtain ⟨row, inserts, new, rfl⟩ := moved
    exact ⟨fun holds => lasting.inserted holds inserts new, [], (List.append_nil _).symm, by simp⟩

/-! ### The clients -/

theorem delivered_safe (ran : lasting.Ran t w statement rows) :
    lasting.discipline.Safe t ((delivered statement rows).run >>= atomAnswer statement)
      (fun _ _ => True) w := by
  unfold delivered
  rw [run_perform]
  intro before later _
  have still := ran.later later
  refine ⟨trivial, fun reply after called _ => ?_⟩
  cases called with
  | delivered reply =>
      cases reply with
      | error error => exact fun _ _ _ => ⟨trivial, fun _ _ _ _ => trivial⟩
      | ok =>
          intro last later _
          exact ⟨(still.later later).answerable, fun _ _ _ _ => trivial⟩

theorem client_safe : lasting.discipline.Safe t (atomClient statement) (fun _ _ => True) w := by
  intro before _ holds
  refine ⟨trivial, fun reply after called _ => ?_⟩
  cases called with
  | invoked sends =>
      have sent : lasting.Sent t { before with log := before.log ++ [.invoked t statement] }
          statement := ⟨before.log, [], rfl, by simp, holds.1⟩
      unfold atomStatement
      rw [run_perform]
      intro state later _
      obtain ⟨former, during, isLog, apart, fact⟩ := sent.later later
      refine ⟨trivial, fun reply after called _ => ?_⟩
      cases called with
      | notRun error => exact fun _ _ _ => ⟨trivial, fun _ _ _ _ => trivial⟩
      | ran ran =>
          apply delivered_safe
          exact ⟨lasting.established ran, former, during, isLog, apart,
            fun isTold => lasting.answers (fact isTold) ran⟩

variable (lasting) in
theorem starts : lasting.discipline.Starts := by
  intro t s program after holds started
  obtain ⟨rfl, statement, rfl⟩ := started
  exact ⟨holds, fun u _ => lasting.discipline.rely_refl u after, client_safe⟩

variable (lasting) in
/-- In every log of interleaved transactions, what was told before a statement is sent leaves only
the possible answers to it. -/
theorem respectsOrder {latest : κ → Option ρ}
    (keyed : ∀ {key row}, latest key = some row → L.key row = key)
    {pool : Pool (stepwise ι κ ρ ε) (StepWorld ι κ ρ θ ε)}
    (reached : (stepSystem L clients).Reachable ⟨.initial latest, []⟩ pool) :
    RespectsOrder lasting.tells lasting.possible pool.state.log := by
  obtain ⟨twin, twinReached, sameLog, _⟩ := linearizable keyed reached
  have first : lasting.Holds (⟨latest, []⟩ : AtomWorld ι κ ρ ε) := by
    refine ⟨?_, ?_⟩
    · rintro ⟨_, _, _, member, _⟩
      cases member
    · intro before during rest t statement rows isLog
      simp at isLog
  rw [← sameLog]
  exact (Discipline.keeps_of_reachable lasting.starts first twinReached).1.2

end Lasting

end JobPlatform.Foundation
