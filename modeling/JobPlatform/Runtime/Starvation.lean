import Mathlib.Data.Finset.Dedup
import Mathlib.Data.Finset.Order
import Mathlib.Logic.Function.Iterate
import JobPlatform.Runtime.Dispatch

/-!
Contract: an outbox some of whose events always fail, and a dispatcher that goes on.

Owns:
- `rounds`, the contents after any number of rounds, and `Tracks`, what they keep of each event;
- the progress of a round, and the starvation of an event that enough failing events precede;
- the condition under which every event that can be dispatched is published.
-/

namespace JobPlatform.Runtime

open JobPlatform.Foundation JobPlatform.Store
open JobPlatform.Store.Repository

/-- The contents after a number of rounds. -/
def rounds (refuses : Uuid → Bool) (inputs : Nat → Inputs) (limit leaseSeconds : Int)
    (db : Database) (number : Nat) : Database :=
  ((round refuses inputs limit leaseSeconds)^[number] (db, 0)).1

/-! ### What rounds keep -/

/-- Some claim, sooner or later, can take the event: it is not published and, if another dispatcher
holds it, the row says since when. -/
def Eligible (event : OutboxRow) : Prop :=
  event.status ≠ .published ∧ (event.status = .publishing → event.lockedAt.isSome = true)

instance : DecidablePred Eligible := fun _ => inferInstanceAs (Decidable (_ ∧ _))

/-- The event was untouched so far, or some round settled it. -/
inductive Progress (refuses : Uuid → Bool) (first now : OutboxRow) : Prop where
  | untouched (same : now = first)
  | settled (eligible : Eligible first) (settled : Settled refuses first now)

/-- Nothing of another dispatcher is in force: no row is locked, and every lease the table holds
has run out by the time of each transaction. -/
structure Alone (leaseSeconds : Int) (db : Database) (inputs : Nat → Inputs) : Prop where
  unlocked : ∀ number id, (inputs number).plan.locked id = false
  expired : ∀ number, ∀ event ∈ db.jobOutbox.rows, ∀ lockedAt, event.lockedAt = some lockedAt →
    lockedAt < (inputs number).now - interval leaseSeconds

theorem dispatchable_congr {refuses : Uuid → Bool} {before after : OutboxRow}
    (same : SameEvent before after) : Dispatchable refuses after ↔ Dispatchable refuses before := by
  unfold Dispatchable
  rw [same.id, same.eventType, same.version, same.payload]

section Rounds

variable {refuses : Uuid → Bool} {inputs : Nat → Inputs} {limit leaseSeconds : Int}
  {start : Database}

/-- Once its lease is over, an event is claimable exactly when it is eligible. -/
theorem claimable_iff_eligible {event : OutboxRow} {now : Time}
    (expired : ∀ lockedAt, event.lockedAt = some lockedAt → lockedAt < now - interval leaseSeconds) :
    (eventClaimable leaseSeconds now event).Holds ↔ Eligible event := by
  unfold eventClaimable Eligible
  cases status : event.status with
  | publishing =>
      cases locked : event.lockedAt with
      | none => simp
      | some lockedAt => simpa using expired lockedAt locked
  | _ => simp

theorem Progress.same {first now : OutboxRow} (progress : Progress refuses first now) :
    SameEvent first now := by
  cases progress with
  | untouched same => exact same ▸ ⟨rfl, rfl, rfl, rfl, rfl⟩
  | settled _ settled => exact settled.same

/-- An event that has been eligible ever since was so at the start. -/
theorem Progress.eligible {first now : OutboxRow} (progress : Progress refuses first now)
    (eligible : Eligible now) : Eligible first := by
  cases progress with
  | untouched same => exact same ▸ eligible
  | settled eligible _ => exact eligible

/-- An event that cannot be dispatched stays eligible. -/
theorem Progress.stays {first now : OutboxRow} (progress : Progress refuses first now)
    (cannot : ¬ Dispatchable refuses first) (eligible : Eligible first) : Eligible now := by
  cases progress with
  | untouched same => exact same ▸ eligible
  | settled _ settled =>
      have failed := settled.status
      rw [if_neg cannot] at failed
      simp [Eligible, failed]

/-- An event that can be dispatched is published or untouched. -/
theorem Progress.published_or {first now : OutboxRow} (progress : Progress refuses first now)
    (can : Dispatchable refuses first) : now.status = .published ∨ now = first := by
  cases progress with
  | untouched same => exact .inr same
  | settled _ settled =>
      have published := settled.status
      rw [if_pos can] at published
      exact .inl published

/-- What any number of rounds keeps: every event is untouched or settled. -/
def Tracks (refuses : Uuid → Bool) (start db : Database) : Prop :=
  ∀ id, Option.Rel (Progress refuses) (start.event? id) (db.event? id)

theorem Tracks.row {db : Database} (tracks : Tracks refuses start db) {id : Uuid}
    {row : OutboxRow} (found : start.event? id = some row) :
    ∃ now, db.event? id = some now ∧ Progress refuses row now := by
  have related := tracks id
  rw [found] at related
  cases isNow : db.event? id with
  | none =>
      rw [isNow] at related
      cases related
  | some now =>
      rw [isNow] at related
      cases related with
      | some progress => exact ⟨now, rfl, progress⟩

theorem Tracks.origin {db : Database} (tracks : Tracks refuses start db) {id : Uuid}
    {now : OutboxRow} (found : db.event? id = some now) :
    ∃ row, start.event? id = some row ∧ Progress refuses row now := by
  have related := tracks id
  rw [found] at related
  cases isRow : start.event? id with
  | none =>
      rw [isRow] at related
      cases related
  | some row =>
      rw [isRow] at related
      cases related with
      | some progress => exact ⟨row, rfl, progress⟩

/-- A claimable event of a later round is one that is eligible. -/
theorem Tracks.claimable {db : Database} (alone : Alone leaseSeconds start inputs)
    (tracks : Tracks refuses start db) {id : Uuid} {now : OutboxRow}
    (found : db.event? id = some now) (number : Nat) :
    (eventClaimable leaseSeconds (inputs number).now now).Holds ↔ Eligible now := by
  apply claimable_iff_eligible
  intro lockedAt locked
  obtain ⟨row, isRow, progress⟩ := tracks.origin found
  obtain ⟨member, _⟩ := Database.event?_eq_some.mp isRow
  cases progress with
  | untouched same => exact alone.expired number row member lockedAt (same ▸ locked)
  | settled _ settled =>
      rw [settled.unlocked] at locked
      cases locked

theorem Settled.trans {first now later : OutboxRow} (before : SameEvent first now)
    (settled : Settled refuses now later) : Settled refuses first later := by
  refine ⟨⟨settled.same.id.trans before.id, settled.same.eventType.trans before.eventType,
    settled.same.version.trans before.version, settled.same.payload.trans before.payload,
    settled.same.createdAt.trans before.createdAt⟩, ?_, settled.unlocked⟩
  rw [settled.status]
  exact if_congr (dispatchable_congr before) rfl rfl

/-- One more round. -/
theorem Tracks.round {db : Database} (limit : Int) (number : Nat)
    (alone : Alone leaseSeconds start inputs)
    (tracks : Tracks refuses start db) :
    Tracks refuses start (round refuses inputs limit leaseSeconds (db, number)).1 := by
  obtain ⟨after, later, ran, others, settles⟩ :=
    round_settles refuses inputs number db limit leaseSeconds
  rw [ran]
  intro id
  by_cases member : id ∈ batchOf (inputs number) limit leaseSeconds db
  · obtain ⟨row, new, found, isNew, settled⟩ := settles id member
    obtain ⟨event, isEvent, holds⟩ := mem_claimedIds member
    obtain rfl : event = row := Option.some.inj (isEvent.symm.trans found)
    obtain ⟨first, isFirst, progress⟩ := tracks.origin found
    rw [isFirst, isNew]
    exact .some (.settled (progress.eligible ((tracks.claimable alone found number).mp holds))
      (settled.trans progress.same))
  · rw [others id member]
    exact tracks id

theorem rounds_succ (refuses : Uuid → Bool) (inputs : Nat → Inputs) (limit leaseSeconds : Int)
    (start : Database) (number : Nat) : ∃ transactions,
    rounds refuses inputs limit leaseSeconds start (number + 1) =
      (round refuses inputs limit leaseSeconds
        (rounds refuses inputs limit leaseSeconds start number, transactions)).1 :=
  ⟨_, congrArg Prod.fst (Function.iterate_succ_apply' _ number (start, 0))⟩

/-- Any number of rounds. -/
theorem tracks_rounds (refuses : Uuid → Bool) (limit : Int)
    (alone : Alone leaseSeconds start inputs) (number : Nat) :
    Tracks refuses start (rounds refuses inputs limit leaseSeconds start number) := by
  induction number with
  | zero =>
      intro id
      change Option.Rel _ (start.event? id) (start.event? id)
      cases start.event? id with
      | none => exact .none
      | some row => exact .some (.untouched rfl)
  | succ number inductionHypothesis =>
      obtain ⟨transactions, next⟩ := rounds_succ refuses inputs limit leaseSeconds
        start number
      rw [next]
      exact inductionHypothesis.round limit _ alone

/-! ### Progress -/

/-- The events that cannot be dispatched, can be claimed, and were created no later. -/
def poisonBefore (refuses : Uuid → Bool) (db : Database) (event : OutboxRow) : List OutboxRow :=
  db.jobOutbox.rows.filter fun other =>
    ¬ Dispatchable refuses other ∧ Eligible other ∧ other.createdAt ≤ event.createdAt

theorem mem_poisonBefore {db : Database} {event other : OutboxRow} :
    other ∈ poisonBefore refuses db event ↔ other ∈ db.jobOutbox.rows ∧
      ¬ Dispatchable refuses other ∧ Eligible other ∧ other.createdAt ≤ event.createdAt := by
  unfold poisonBefore
  rw [List.mem_filter, decide_eq_true_iff]

/-- The event can be claimed and fewer failing events than the limit precede it. -/
def Unblocked (refuses : Uuid → Bool) (limit : Int) (db : Database) (event : OutboxRow) : Prop :=
  Eligible event ∧ (poisonBefore refuses db event).length < limit

/-- An unpublished event that can be dispatched and is not blocked: the next batch has an event
that can be dispatched. -/
theorem exists_dispatchable_claimed {db : Database} (number : Nat)
    (alone : Alone leaseSeconds start inputs) (tracks : Tracks refuses start db)
    {event : OutboxRow} (member : event ∈ start.jobOutbox.rows) (can : Dispatchable refuses event)
    (unpublished : db.event? event.id = some event)
    (unblocked : Unblocked refuses limit start event) :
    ∃ id ∈ batchOf (inputs number) limit leaseSeconds db, ∃ row, start.event? id = some row ∧
      Dispatchable refuses row := by
  by_contra none
  obtain ⟨eligible, few⟩ := unblocked
  have found : start.event? event.id = some event := Database.event?_eq_some.mpr ⟨member, rfl⟩
  have out : event.id ∉ batchOf (inputs number) limit leaseSeconds db :=
    fun chosen => none ⟨event.id, chosen, event, found, can⟩
  obtain ⟨full, earlier⟩ := full_of_unclaimed (alone.unlocked number) unpublished
    ((tracks.claimable alone unpublished number).mpr eligible) out
  have poison : batchOf (inputs number) limit leaseSeconds db ⊆
      (poisonBefore refuses start event).map OutboxRow.id := by
    intro id chosen
    obtain ⟨other, isOther, holds⟩ := mem_claimedIds chosen
    obtain ⟨row, isRow, progress⟩ := tracks.origin isOther
    obtain ⟨same, isSame, created⟩ := earlier id chosen
    obtain rfl : other = same := Option.some.inj (isOther.symm.trans isSame)
    obtain ⟨inTable, rfl⟩ := Database.event?_eq_some.mp isRow
    refine List.mem_map_of_mem (mem_poisonBefore.mpr ⟨inTable, ?_, ?_, ?_⟩)
    · exact fun canRow => none ⟨row.id, chosen, row, isRow, canRow⟩
    · exact progress.eligible ((tracks.claimable alone isOther number).mp holds)
    · rw [← progress.same.createdAt]
      exact created
  have most := (List.subperm_of_subset (nodup_claimedIds (alone.unlocked number)) poison).length_le
  rw [full, List.length_map] at most
  omega

/-- The events that can be dispatched and are not published yet. -/
def waiting (refuses : Uuid → Bool) (start db : Database) : List OutboxRow :=
  start.jobOutbox.rows.filter fun row =>
    Dispatchable refuses row ∧ (db.event? row.id).all fun now => now.status ≠ .published

theorem mem_waiting {db : Database} (tracks : Tracks refuses start db) {row : OutboxRow} :
    row ∈ waiting refuses start db ↔ row ∈ start.jobOutbox.rows ∧ Dispatchable refuses row ∧
      db.event? row.id = some row ∧ row.status ≠ .published := by
  unfold waiting
  rw [List.mem_filter, decide_eq_true_iff]
  refine and_congr_right fun member => and_congr_right fun can => ?_
  obtain ⟨now, isNow, progress⟩ := tracks.row (Database.event?_eq_some.mpr ⟨member, rfl⟩)
  rw [isNow]
  simp only [Option.all_some, ne_eq, decide_not, Bool.not_eq_true', decide_eq_false_iff_not,
    Option.some.injEq]
  constructor
  · intro unpublished
    have same := (progress.published_or can).resolve_left unpublished
    exact ⟨same, same ▸ unpublished⟩
  · rintro ⟨rfl, unpublished⟩
    exact unpublished

/-- What waits after a round waited before it. -/
theorem waiting_subset {db : Database} (limit : Int) (number : Nat)
    (alone : Alone leaseSeconds start inputs)
    (tracks : Tracks refuses start db) :
    waiting refuses start (round refuses inputs limit leaseSeconds (db, number)).1 ⊆
      waiting refuses start db := by
  have tracksAfter := tracks.round limit number alone
  obtain ⟨after, later, ran, others, settles⟩ :=
    round_settles refuses inputs number db limit leaseSeconds
  rw [ran] at tracksAfter ⊢
  intro row isWaiting
  obtain ⟨member, can, found, unpublished⟩ := (mem_waiting tracksAfter).mp isWaiting
  refine (mem_waiting tracks).mpr ⟨member, can, ?_, unpublished⟩
  by_cases chosen : row.id ∈ batchOf (inputs number) limit leaseSeconds db
  · obtain ⟨before, new, isBefore, isNew, settled⟩ := settles row.id chosen
    obtain rfl : row = new := Option.some.inj (found.symm.trans isNew)
    have published := settled.status
    rw [if_pos ((dispatchable_congr settled.same).mp can)] at published
    exact absurd published unpublished
  · rw [← others row.id chosen]
    exact found

/-- While an event waits and none that waits is blocked, a round publishes one that waits. -/
theorem fewer_waiting {db : Database} (number : Nat) (alone : Alone leaseSeconds start inputs)
    (tracks : Tracks refuses start db)
    (unblocked : ∀ event ∈ start.jobOutbox.rows, Dispatchable refuses event →
      event.status ≠ .published → Unblocked refuses limit start event)
    (nonempty : waiting refuses start db ≠ []) :
    (waiting refuses start (round refuses inputs limit leaseSeconds (db, number)).1).length <
      (waiting refuses start db).length := by
  have subset := waiting_subset limit number alone tracks
  have tracksAfter := tracks.round limit number alone
  obtain ⟨event, isWaiting⟩ := List.exists_mem_of_ne_nil _ nonempty
  obtain ⟨member, can, found, unpublished⟩ := (mem_waiting tracks).mp isWaiting
  obtain ⟨id, chosen, row, isRow, canRow⟩ := exists_dispatchable_claimed number alone
    tracks member can found (unblocked event member can unpublished)
  obtain ⟨after, later, ran, others, settles⟩ :=
    round_settles refuses inputs number db limit leaseSeconds
  rw [ran] at subset tracksAfter ⊢
  obtain ⟨inTable, rfl⟩ := Database.event?_eq_some.mp isRow
  have waited : row ∈ waiting refuses start db := by
    obtain ⟨now, isNow, holds⟩ := mem_claimedIds chosen
    have eligible := (tracks.claimable alone isNow number).mp holds
    obtain ⟨same, isSame, progress⟩ := tracks.row isRow
    obtain rfl : now = same := Option.some.inj (isNow.symm.trans isSame)
    obtain rfl := (progress.published_or canRow).resolve_left eligible.1
    exact (mem_waiting tracks).mpr ⟨inTable, canRow, isNow, eligible.1⟩
  have released : row ∉ waiting refuses start after := by
    intro still
    obtain ⟨_, _, isRowAfter, unpublishedAfter⟩ := (mem_waiting tracksAfter).mp still
    obtain ⟨before, new, isBefore, isNew, settled⟩ := settles row.id chosen
    obtain rfl : row = new := Option.some.inj (isRowAfter.symm.trans isNew)
    have published := settled.status
    rw [if_pos ((dispatchable_congr settled.same).mp canRow)] at published
    exact unpublishedAfter published
  have distinct : (row :: waiting refuses start after).Nodup :=
    List.nodup_cons.mpr ⟨released, (nodup_eventIds start).of_map.filter _⟩
  exact (List.subperm_of_subset distinct (List.cons_subset.mpr ⟨waited, subset⟩)).length_le

/-- After as many rounds as the table has rows nothing waits. -/
theorem waiting_rounds (alone : Alone leaseSeconds start inputs)
    (unblocked : ∀ event ∈ start.jobOutbox.rows, Dispatchable refuses event →
      event.status ≠ .published → Unblocked refuses limit start event) (number : Nat) :
    (waiting refuses start (rounds refuses inputs limit leaseSeconds start number)).length ≤
      start.jobOutbox.rows.length - number := by
  induction number with
  | zero => exact List.length_filter_le _ _
  | succ number inductionHypothesis =>
      have tracks := tracks_rounds refuses limit alone number
      obtain ⟨transactions, next⟩ := rounds_succ refuses inputs limit leaseSeconds
        start number
      rw [next]
      by_cases empty : waiting refuses start
          (rounds refuses inputs limit leaseSeconds start number) = []
      · have subset := waiting_subset limit transactions alone tracks
        rw [empty] at subset
        rw [List.subset_nil.mp subset]
        exact Nat.zero_le _
      · have fewer := fewer_waiting transactions alone tracks unblocked empty
        omega

/-! ### Starvation -/

/-- Inputs that put the failing events before a given event first among those created at the same
time. -/
def adverse (refuses : Uuid → Bool) (start : Database) (event : OutboxRow) (now : Time) : Inputs where
  uuid _ := Uuid.ofInt 0
  now := now
  plan :=
    { tie := fun id =>
        if id ∈ (poisonBefore refuses start event).map OutboxRow.id then 0 else 1
      locked := fun _ => false
      returning := fun _ => 0 }

/-- An event that as many failing events as the limit precede is never in a batch. -/
theorem starves {event : OutboxRow} {now : Time} (member : event ∈ start.jobOutbox.rows)
    (can : Dispatchable refuses event)
    (alone : Alone leaseSeconds start fun _ => adverse refuses start event now)
    (many : limit ≤ (poisonBefore refuses start event).length) (number : Nat) :
    (rounds refuses (fun _ => adverse refuses start event now) limit leaseSeconds start
      number).event? event.id = some event := by
  induction number with
  | zero => exact Database.event?_eq_some.mpr ⟨member, rfl⟩
  | succ number inductionHypothesis =>
      have tracks := tracks_rounds refuses limit alone number
      obtain ⟨transactions, next⟩ := rounds_succ refuses
        (fun _ => adverse refuses start event now) limit leaseSeconds start number
      obtain ⟨after, later, ran, others, _⟩ := round_settles refuses
        (fun _ => adverse refuses start event now) transactions
        (rounds refuses (fun _ => adverse refuses start event now) limit leaseSeconds start number)
        limit leaseSeconds
      rw [next, ran, others event.id ?_, inductionHypothesis]
      intro chosen
      have distinct : ((poisonBefore refuses start event).map OutboxRow.id).Nodup :=
        (nodup_eventIds start).sublist (List.filter_sublist.map _)
      have few :=
        few_before_claimed (alone.unlocked transactions) inductionHypothesis chosen distinct ?_
      · rw [List.length_map] at few
        omega
      intro id isPoison
      obtain ⟨row, inPoison, rfl⟩ := List.mem_map.mp isPoison
      obtain ⟨inTable, cannot, eligible, created⟩ := mem_poisonBefore.mp inPoison
      obtain ⟨current, isCurrent, progress⟩ :=
        tracks.row (Database.event?_eq_some.mpr ⟨inTable, rfl⟩)
      refine ⟨current, isCurrent,
        (tracks.claimable alone isCurrent transactions).mpr (progress.stays cannot eligible), ?_⟩
      have notPoison : event.id ∉ (poisonBefore refuses start event).map OutboxRow.id := by
        intro member'
        obtain ⟨other, otherIn, same⟩ := List.mem_map.mp member'
        obtain ⟨otherTable, otherCannot, _⟩ := mem_poisonBefore.mp otherIn
        exact otherCannot (start.jobOutbox.eq_of_key otherTable member same ▸ can)
      rintro (earlier | ⟨_, tie⟩)
      · rw [progress.same.createdAt] at earlier
        exact absurd earlier (not_lt.mpr created)
      · simp only [adverse, progress.same.id, if_pos isPoison, if_neg notPoison] at tie
        exact absurd tie (by decide)

end Rounds

/-! ### The condition -/

/-- There is a number of rounds, for this table, after which every event that can be dispatched is
published, whatever the rounds draw. -/
def PublishesAll (refuses : Uuid → Bool) (limit leaseSeconds : Int) (start : Database) : Prop :=
  ∃ number, ∀ inputs, Alone leaseSeconds start inputs → ∀ event ∈ start.jobOutbox.rows,
    Dispatchable refuses event →
      ∃ now, (rounds refuses inputs limit leaseSeconds start number).event? event.id = some now ∧
        now.status = .published

/-- A time by which every lease of the table has run out. -/
theorem exists_expired (leaseSeconds : Int) (start : Database) :
    ∃ now, ∀ event ∈ start.jobOutbox.rows, ∀ lockedAt, event.lockedAt = some lockedAt →
      lockedAt < now - interval leaseSeconds := by
  obtain ⟨last, isLast⟩ := Finset.exists_le
    ((start.jobOutbox.rows.filterMap OutboxRow.lockedAt).toFinset)
  refine ⟨last + 1 + interval leaseSeconds, ?_⟩
  intro event member lockedAt locked
  have before := isLast lockedAt (List.mem_toFinset.mpr
    (List.mem_filterMap.mpr ⟨event, member, locked⟩))
  rw [add_sub_cancel_right]
  exact Int.lt_add_one_of_le before

/-- A table with a blocked event is not published in any number of rounds. -/
theorem unblocked_of_publishesAll {refuses : Uuid → Bool} {limit leaseSeconds : Int}
    {start : Database} (publishes : PublishesAll refuses limit leaseSeconds start)
    {event : OutboxRow} (member : event ∈ start.jobOutbox.rows) (can : Dispatchable refuses event)
    (unpublished : event.status ≠ .published) : Unblocked refuses limit start event := by
  obtain ⟨number, all⟩ := publishes
  obtain ⟨time, expired⟩ := exists_expired leaseSeconds start
  have alone : Alone leaseSeconds start fun _ => adverse refuses start event time :=
    ⟨fun _ _ => rfl, fun _ => expired⟩
  obtain ⟨now, isNow, published⟩ := all _ alone event member can
  by_contra blocked
  unfold Unblocked at blocked
  have same : now = event := by
    by_cases eligible : Eligible event
    · have many : limit ≤ (poisonBefore refuses start event).length := by
        by_contra few
        exact blocked ⟨eligible, not_le.mp few⟩
      exact Option.some.inj (isNow.symm.trans (starves member can alone many number))
    · obtain ⟨current, isCurrent, progress⟩ := (tracks_rounds refuses limit alone number).row
        (Database.event?_eq_some.mpr ⟨member, rfl⟩)
      obtain rfl := Option.some.inj (isNow.symm.trans isCurrent)
      cases progress with
      | untouched same => exact same
      | settled eligible' => exact absurd eligible' eligible
  exact unpublished (same ▸ published)

/-- An event of the API can be dispatched unless its send is refused. -/
theorem dispatchable_newEvent {refuses : Uuid → Bool} (eventId : Uuid)
    (accepted : refuses eventId = false) (jobId : Uuid) (correlationId : Option String)
    (now : Time) : Dispatchable refuses (newEvent jobId correlationId eventId now) := by
  refine ⟨rfl, rfl, ?_, accepted⟩
  cases correlationId with
  | none =>
      simp [newEvent, outboxPayload, readOutboxPayload, Json.field?]
      rfl
  | some text =>
      by_cases present : text ≠ ""
      · simp [newEvent, outboxPayload, readOutboxPayload, Json.field?, present]
        rfl
      · simp [newEvent, outboxPayload, readOutboxPayload, Json.field?, present]
        rfl

/-- An outbox whose older event has a version no dispatcher supports. -/
def blockedOutbox : Database :=
  let poison := { newEvent (Uuid.ofInt 0) none (Uuid.ofInt 1) 0 with version := 2 }
  let good := newEvent (Uuid.ofInt 2) none (Uuid.ofInt 3) 1
  { Database.empty with jobOutbox := ⟨[poison, good], by decide⟩ }

/-- With a limit of one event, the older event keeps the younger from ever being published. -/
theorem blockedOutbox_starves : ¬ PublishesAll (fun _ => false) 1 30 blockedOutbox := by
  intro publishes
  have can : Dispatchable (fun _ => false) (newEvent (Uuid.ofInt 2) none (Uuid.ofInt 3) 1) :=
    dispatchable_newEvent (Uuid.ofInt 3) rfl (Uuid.ofInt 2) none 1
  obtain ⟨_, few⟩ := unblocked_of_publishesAll publishes
    (List.mem_cons_of_mem _ List.mem_cons_self) can (by decide)
  have poison : { newEvent (Uuid.ofInt 0) none (Uuid.ofInt 1) 0 with version := 2 } ∈
      poisonBefore (fun _ => false) blockedOutbox (newEvent (Uuid.ofInt 2) none (Uuid.ofInt 3) 1) :=
    mem_poisonBefore.mpr ⟨List.mem_cons_self, fun dispatchable => absurd dispatchable.2.1 (by decide),
      by decide, by decide⟩
  have positive := List.length_pos_of_mem poison
  omega

/-- A lone dispatcher publishes everything it can dispatch, within a number of rounds that depends
on the table alone, exactly when every such event that is not published is eligible and fewer
failing events than the limit were created no later than it. -/
theorem publishes_all_iff (refuses : Uuid → Bool) (limit leaseSeconds : Int) (start : Database) :
    PublishesAll refuses limit leaseSeconds start ↔
      ∀ event ∈ start.jobOutbox.rows, Dispatchable refuses event → event.status ≠ .published →
        Unblocked refuses limit start event := by
  constructor
  · intro publishes event member can unpublished
    exact unblocked_of_publishesAll publishes member can unpublished
  · intro unblocked
    refine ⟨start.jobOutbox.rows.length, ?_⟩
    intro inputs alone event member can
    have tracks := tracks_rounds refuses limit alone
      start.jobOutbox.rows.length
    have none := waiting_rounds alone unblocked start.jobOutbox.rows.length
    rw [Nat.sub_self, Nat.le_zero, List.length_eq_zero_iff] at none
    obtain ⟨now, isNow, progress⟩ := tracks.row (Database.event?_eq_some.mpr ⟨member, rfl⟩)
    refine ⟨now, isNow, ?_⟩
    rcases progress.published_or can with published | rfl
    · exact published
    · by_contra unpublished
      have waits := (mem_waiting tracks).mpr ⟨member, can, isNow, unpublished⟩
      rw [none] at waits
      cases waits

end JobPlatform.Runtime
