import Mathlib.Data.List.Sort
import Mathlib.Data.List.Range

/-! Lists in chunks, and lists of items that are consecutive by a number. -/

namespace Chunks

variable {α : Type} {size start : Nat} {items : List α}

/-- The chunks of a list, of the given size but for the last. The fuel is its length. -/
def chunksOf (size : Nat) : Nat → List α → List (List α)
  | 0, _ => []
  | _ + 1, [] => []
  | fuel + 1, items => items.take size :: chunksOf size fuel (items.drop size)

theorem chunksOf_flatten (positive : 0 < size) (fuel : Nat) :
    ∀ items : List α, items.length ≤ fuel → (chunksOf size fuel items).flatten = items := by
  induction fuel with
  | zero =>
    intro items short
    have empty : items = [] := List.length_eq_zero_iff.mp (by omega)
    rw [empty]
    rfl
  | succ fuel ih =>
    intro items short
    cases items with
    | nil => rfl
    | cons first rest =>
      rw [chunksOf, List.flatten_cons, ih _ (by
        rw [List.length_drop, List.length_cons]
        rw [List.length_cons] at short
        omega), List.take_append_drop]
      exact List.cons_ne_nil first rest

theorem ne_nil_of_mem_chunksOf (positive : 0 < size) (fuel : Nat) :
    ∀ items : List α, ∀ chunk ∈ chunksOf size fuel items, chunk ≠ [] := by
  induction fuel with
  | zero => exact nofun
  | succ fuel ih =>
    intro items chunk member
    cases items with
    | nil => cases member
    | cons first rest =>
      rw [chunksOf] at member
      rcases List.mem_cons.mp member with rfl | later
      · intro empty
        rw [List.take_eq_nil_iff] at empty
        rcases empty with none | none
        · omega
        · cases none
      · exact ih _ chunk later
      exact List.cons_ne_nil first rest

/-- What stands between two parts of a range is a range. -/
theorem middle_of_range {total : Nat} {before middle later : List Nat}
    (whole : before ++ middle ++ later = List.range' start total) :
    middle = List.range' (start + before.length) middle.length := by
  obtain ⟨front, within, isFront, -⟩ := List.range'_eq_append_iff.mp whole.symm
  obtain ⟨inner, within', isBefore, isMiddle⟩ := List.range'_eq_append_iff.mp isFront.symm
  have lengthBefore : before.length = inner := by rw [isBefore, List.length_range']
  have lengthMiddle : middle.length = front - inner := by rw [isMiddle, List.length_range']
  rw [lengthBefore, lengthMiddle]
  simpa using isMiddle

variable (key : α → Nat)

/-- The items up to the first that is not followed by the next number. -/
def truncateAtGap : List α → List α
  | first :: second :: rest =>
    if key first + 1 ≠ key second then [first] else first :: truncateAtGap (second :: rest)
  | items => items

def sortByKey (items : List α) : List α :=
  items.mergeSort fun a b => decide (key a ≤ key b)

variable {key}

theorem truncateAtGap_range : ∀ {start : Nat},
    items.map key = List.range' start items.length → truncateAtGap key items = items := by
  induction items with
  | nil => exact fun _ => rfl
  | cons first rest ih =>
    intro start consecutive
    cases rest with
    | nil => rfl
    | cons second rest =>
      rw [List.map_cons, List.length_cons, List.range'_succ, List.cons.injEq] at consecutive
      obtain ⟨isFirst, others⟩ := consecutive
      have isSecond : key second = start + 1 := by
        rw [List.map_cons, List.length_cons, List.range'_succ, List.cons.injEq] at others
        exact others.1
      rw [truncateAtGap, if_neg (by omega), ih others]

/-- Items whose numbers are those of a range, in any order, are consecutive once sorted. -/
theorem sortByKey_range {count : Nat} (perm : (items.map key).Perm (List.range' start count)) :
    (sortByKey key items).map key = List.range' start count := by
  have sorted : ((sortByKey key items).map key).Pairwise (· ≤ ·) := by
    rw [List.pairwise_map]
    refine (List.pairwise_mergeSort ?_ ?_ items).imp (fun le => by simpa using le)
    · intro a b c ab bc
      simp only [decide_eq_true_eq] at ab bc ⊢
      omega
    · intro a b
      simp only [Bool.or_eq_true, decide_eq_true_eq]
      omega
  have ordered : (List.range' start count).Pairwise (· ≤ ·) := List.pairwise_le_range'
  refine List.Perm.eq_of_pairwise ?_ sorted ordered
    (((List.mergeSort_perm items _).map key).trans perm)
  intro a b _ _ ab ba
  exact Nat.le_antisymm ab ba

end Chunks
