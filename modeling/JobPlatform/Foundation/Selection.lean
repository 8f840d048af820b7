import Mathlib.Data.List.Nodup
import Mathlib.Data.List.Perm.Subperm

/-!
Contract: the first rows of a ranking, as `ORDER BY ... LIMIT` selects them.

Owns:
- the row that is left out: the selection is full, and everything in it ranks no lower;
- the row that is selected: fewer rows than the limit rank strictly before it.

Does not own how a ranking is computed.
-/

namespace JobPlatform.Foundation.Selection

variable {α : Type*} {before : α → α → Prop} {ranking : List α} {limit : Nat} {row : α}

/-- A row is left out only by a full selection, all of which ranks no lower. -/
theorem full_of_left_out (ranked : ranking.Pairwise before) (member : row ∈ ranking)
    (out : row ∉ ranking.take limit) :
    (ranking.take limit).length = limit ∧ ∀ chosen ∈ ranking.take limit, before chosen row := by
  have split := List.take_append_drop limit ranking
  have dropped : row ∈ ranking.drop limit := by
    rw [← split] at member
    exact (List.mem_append.mp member).resolve_left out
  have long : limit < ranking.length := by
    have nonempty := List.length_pos_of_mem dropped
    rw [List.length_drop] at nonempty
    omega
  constructor
  · rw [List.length_take]
    omega
  · intro chosen inTake
    rw [← split] at ranked
    exact (List.pairwise_append.mp ranked).2.2 chosen inTake row dropped

/-- Fewer rows than the limit rank strictly before a selected row. -/
theorem few_before_selected (ranked : ranking.Pairwise before) (reflexive : before row row)
    (chosen : row ∈ ranking.take limit) {earlier : List α} (distinct : earlier.Nodup)
    (inRanking : earlier ⊆ ranking) (strict : ∀ other ∈ earlier, ¬ before row other) :
    earlier.length < limit := by
  obtain ⟨first, last, isTake⟩ := List.append_of_mem chosen
  have split : first ++ row :: (last ++ ranking.drop limit) = ranking := by
    rw [← List.cons_append, ← List.append_assoc, ← isTake, List.take_append_drop]
  have below : earlier ⊆ first := by
    intro other member
    have inAll := inRanking member
    rw [← split, List.mem_append, List.mem_cons] at inAll
    rcases inAll with inFirst | same | inRest
    · exact inFirst
    · exact absurd (same ▸ reflexive) (strict other member)
    · rw [← split] at ranked
      have ordered := (List.pairwise_cons.mp (List.pairwise_append.mp ranked).2.1).1
      exact absurd (ordered other inRest) (strict other member)
  calc earlier.length ≤ first.length := (List.subperm_of_subset distinct below).length_le
    _ < (ranking.take limit).length := by
        rw [isTake, List.length_append, List.length_cons]
        omega
    _ ≤ limit := List.length_take_le limit ranking

end JobPlatform.Foundation.Selection
