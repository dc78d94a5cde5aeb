import Mathlib.Data.List.Nodup
import Mathlib.Data.List.Perm.Subperm

/-! Indices into a list of which only some items are wanted. -/

namespace Indices

variable {α : Type} {wanted : α → Bool}

def indicesOf (wanted : α → Bool) (items : List α) : List Nat :=
  (List.range items.length).filter fun index => (items[index]?).any wanted

theorem mem_indicesOf {items : List α} {index : Nat} :
    index ∈ indicesOf wanted items ↔ ∃ item, items[index]? = some item ∧ wanted item := by
  simp only [indicesOf, List.mem_filter, List.mem_range, Option.any_eq_true]
  constructor
  · exact And.right
  · rintro ⟨item, found, isWanted⟩
    obtain ⟨inside, -⟩ := List.getElem?_eq_some_iff.mp found
    exact ⟨inside, item, found, isWanted⟩

theorem length_indicesOf (items : List α) :
    (indicesOf wanted items).length = (items.filter wanted).length := by
  induction items with
  | nil => rfl
  | cons first rest ih =>
    have later : ((List.range rest.length).map Nat.succ).filter
        (fun index => ((first :: rest)[index]?).any wanted) =
          (indicesOf wanted rest).map Nat.succ := by
      rw [List.filter_map]
      rfl
    unfold indicesOf
    rw [List.length_cons, List.range_succ_eq_map, List.filter_cons, List.filter_cons, later]
    by_cases isWanted : wanted first = true
    · simp [isWanted, ih]
    · simp [isWanted, ih]

/-- As many distinct indices of wanted items as there are wanted items leave none out. -/
theorem mem_iff_of_count {items : List α} {indices : List Nat} (nodup : indices.Nodup)
    (each : ∀ index ∈ indices, ∃ item, items[index]? = some item ∧ wanted item)
    (count : (items.filter wanted).length = indices.length) (index : Nat) :
    index ∈ indices ↔ ∃ item, items[index]? = some item ∧ wanted item := by
  have among : indices.Subperm (indicesOf wanted items) :=
    nodup.subperm fun index mem => mem_indicesOf.mpr (each index mem)
  have all : indices.Perm (indicesOf wanted items) :=
    among.perm_of_length_le (Nat.le_of_eq ((length_indicesOf items).trans count))
  rw [all.mem_iff, mem_indicesOf]

end Indices
