import JobPlatform.Foundation.Selection
import JobPlatform.Store.Changes

/-!
Contract: which events a claim selects.

Owns `ranked`, the claimable events in the order of the plan, and what being in the batch or left
out of it says of the events that rank before.
-/

namespace JobPlatform.Store

open JobPlatform.Foundation
open Repository

variable {db : Database}

theorem nodup_eventIds (db : Database) : (db.jobOutbox.rows.map OutboxRow.id).Nodup :=
  List.pairwise_map.mpr (db.jobOutbox.unique.imp fun apart same => apart same)

/-- A claim returns each event once. -/
theorem nodup_returnedEvents (plan : ClaimPlan) (batch : List Uuid) (claimToken : Uuid)
    (now : Time) : ((returnedEvents plan batch claimToken now db).map ClaimedEvent.id).Nodup := by
  unfold returnedEvents
  rw [List.map_map, ((List.perm_insertionSort _ _).map _).nodup_iff, List.map_map]
  exact (nodup_eventIds db).sublist (List.filter_sublist.map _)

section Selection

variable (plan : ClaimPlan) {limit : Nat} {leaseSeconds : Int} {now : Time}

theorem before_refl (row : OutboxRow) : plan.Before row row := .inr ⟨rfl, le_rfl⟩

instance : Std.Total plan.Before where
  total left right := by
    rcases lt_trichotomy left.createdAt right.createdAt with less | same | greater
    · exact .inl (.inl less)
    · rcases le_total (plan.tie left.id) (plan.tie right.id) with first | second
      · exact .inl (.inr ⟨same, first⟩)
      · exact .inr (.inr ⟨same.symm, second⟩)
    · exact .inr (.inl greater)

instance : IsTrans OutboxRow plan.Before where
  trans left middle right first second := by
    rcases first with less | ⟨same, tie⟩ <;> rcases second with later | ⟨also, further⟩
    · exact .inl (less.trans later)
    · exact .inl (also ▸ less)
    · exact .inl (same ▸ later)
    · exact .inr ⟨same.trans also, tie.trans further⟩

/-- The claimable events in the order of the plan. -/
def ranked (leaseSeconds : Int) (now : Time) (db : Database) : List OutboxRow :=
  (db.jobOutbox.matching fun event => (eventClaimable leaseSeconds now event).Holds).insertionSort
    plan.Before

theorem mem_ranked {event : OutboxRow} : event ∈ ranked plan leaseSeconds now db ↔
    event ∈ db.jobOutbox.rows ∧ (eventClaimable leaseSeconds now event).Holds := by
  unfold ranked Table.matching
  rw [List.mem_insertionSort, List.mem_filter, decide_eq_true_iff]

theorem pairwise_ranked : (ranked plan leaseSeconds now db).Pairwise plan.Before :=
  List.pairwise_insertionSort plan.Before _

theorem nodup_ranked : ((ranked plan leaseSeconds now db).map OutboxRow.id).Nodup := by
  unfold ranked
  rw [((List.perm_insertionSort plan.Before _).map OutboxRow.id).nodup_iff]
  exact (nodup_eventIds db).sublist (List.filter_sublist.map _)

variable {plan}

/-- Without locks the batch is the first events of the ranking. -/
theorem claimedIds_unlocked (unlocked : ∀ id, plan.locked id = false) :
    claimedIds plan limit leaseSeconds now db =
      ((ranked plan leaseSeconds now db).take limit).map OutboxRow.id := by
  have all : (ranked plan leaseSeconds now db).filter (fun event => !plan.locked event.id) =
      ranked plan leaseSeconds now db := by
    simp [unlocked]
  unfold claimedIds
  exact congrArg (fun rows => (rows.take limit).map OutboxRow.id) all

theorem nodup_claimedIds (unlocked : ∀ id, plan.locked id = false) :
    (claimedIds plan limit leaseSeconds now db).Nodup := by
  rw [claimedIds_unlocked unlocked]
  exact (nodup_ranked plan).sublist ((List.take_sublist _ _).map _)

/-- A claimable event is left out only by a full batch of events created no later. -/
theorem full_of_unclaimed (unlocked : ∀ id, plan.locked id = false) {eventId : Uuid}
    {event : OutboxRow} (found : db.event? eventId = some event)
    (holds : (eventClaimable leaseSeconds now event).Holds)
    (out : eventId ∉ claimedIds plan limit leaseSeconds now db) :
    (claimedIds plan limit leaseSeconds now db).length = limit ∧
      ∀ id ∈ claimedIds plan limit leaseSeconds now db, ∃ other, db.event? id = some other ∧
        other.createdAt ≤ event.createdAt := by
  obtain ⟨member, rfl⟩ := Database.event?_eq_some.mp found
  rw [claimedIds_unlocked unlocked] at out ⊢
  have notChosen : event ∉ (ranked plan leaseSeconds now db).take limit :=
    fun chosen => out (List.mem_map_of_mem chosen)
  obtain ⟨full, ordered⟩ := Selection.full_of_left_out (pairwise_ranked plan)
    ((mem_ranked plan).mpr ⟨member, holds⟩) notChosen
  refine ⟨by rw [List.length_map, full], ?_⟩
  intro id chosen
  obtain ⟨other, isChosen, rfl⟩ := List.mem_map.mp chosen
  have inTable := ((mem_ranked plan).mp (List.mem_of_mem_take isChosen)).1
  refine ⟨other, Database.event?_eq_some.mpr ⟨inTable, rfl⟩, ?_⟩
  rcases ordered other isChosen with less | ⟨same, _⟩
  · exact less.le
  · exact same.le

/-- Fewer claimable events than the limit rank strictly before a claimed one. -/
theorem few_before_claimed (unlocked : ∀ id, plan.locked id = false) {eventId : Uuid}
    {event : OutboxRow} (found : db.event? eventId = some event)
    (claimed : eventId ∈ claimedIds plan limit leaseSeconds now db) {earlier : List Uuid}
    (distinct : earlier.Nodup)
    (strict : ∀ id ∈ earlier, ∃ other, db.event? id = some other ∧
      (eventClaimable leaseSeconds now other).Holds ∧ ¬ plan.Before event other) :
    earlier.length < limit := by
  obtain ⟨member, rfl⟩ := Database.event?_eq_some.mp found
  rw [claimedIds_unlocked unlocked] at claimed
  obtain ⟨chosen, isChosen, same⟩ := List.mem_map.mp claimed
  have inTable := ((mem_ranked plan).mp (List.mem_of_mem_take isChosen)).1
  obtain rfl : chosen = event := db.jobOutbox.eq_of_key inTable member same
  let rows := (ranked plan leaseSeconds now db).filter fun row => row.id ∈ earlier
  have covered : earlier ⊆ rows.map OutboxRow.id := by
    intro id isEarlier
    obtain ⟨other, isOther, holds, _⟩ := strict id isEarlier
    obtain ⟨otherIn, rfl⟩ := Database.event?_eq_some.mp isOther
    exact List.mem_map_of_mem (List.mem_filter.mpr
      ⟨(mem_ranked plan).mpr ⟨otherIn, holds⟩, decide_eq_true isEarlier⟩)
  have distinctRows : rows.Nodup := (nodup_ranked plan).of_map.filter _
  have few : rows.length < limit := by
    refine Selection.few_before_selected (pairwise_ranked plan) (before_refl plan chosen) isChosen
      distinctRows List.filter_sublist.subset ?_
    intro row isRow
    obtain ⟨inRanking, isEarlier⟩ := List.mem_filter.mp isRow
    obtain ⟨other, isOther, _, later⟩ := strict row.id (of_decide_eq_true isEarlier)
    obtain ⟨otherIn, sameId⟩ := Database.event?_eq_some.mp isOther
    obtain rfl : other = row :=
      db.jobOutbox.eq_of_key otherIn ((mem_ranked plan).mp inRanking).1 sameId
    exact later
  have most := (List.subperm_of_subset distinct covered).length_le
  rw [List.length_map] at most
  omega

end Selection

end JobPlatform.Store
