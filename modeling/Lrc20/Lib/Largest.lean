import Mathlib.Algebra.Order.BigOperators.Group.List
import Mathlib.Algebra.Order.Ring.Nat
import Mathlib.Data.List.Sort

/-! Items by descending weight: the first ones weigh the most among all choices as large. -/

open scoped List

namespace Largest

variable {α : Type} {weight : α → Nat} {items chosen : List α}

def total (weight : α → Nat) (items : List α) : Nat := (items.map weight).sum

def descending (weight : α → Nat) (items : List α) : List α :=
  items.insertionSort fun a b => weight b ≤ weight a

theorem descending_perm (weight : α → Nat) (items : List α) : descending weight items ~ items :=
  List.perm_insertionSort _ _

theorem total_perm (same : chosen ~ items) : total weight chosen = total weight items :=
  (same.map _).sum_eq

theorem total_le (weight : α → Nat) (within : chosen <+~ items) :
    total weight chosen ≤ total weight items := by
  obtain ⟨picked, same, inOrder⟩ := within
  rw [← total_perm same]
  exact (inOrder.map weight).sum_le_sum fun _ _ => Nat.zero_le _

/-- Without its first item, a list by descending weight does not get heavier. -/
theorem total_take_tail {item : α} {rest : List α}
    (largest : ∀ other ∈ rest, weight other ≤ weight item) (k : Nat) :
    total weight (rest.take k) ≤ total weight ((item :: rest).take k) := by
  cases k with
  | zero => simp
  | succ k =>
    rw [List.take_succ_cons, List.take_add_one]
    cases next : rest[k]? with
    | none => simp [total]
    | some other =>
      have := largest other (List.mem_of_getElem? next)
      simp only [total, Option.toList_some, List.map_append, List.map_cons, List.map_nil,
        List.sum_append, List.sum_cons, List.sum_nil]
      omega

theorem descending_sorted (weight : α → Nat) (items : List α) :
    (descending weight items).Pairwise fun a b => weight b ≤ weight a :=
  have : Std.Total fun a b => weight b ≤ weight a := ⟨fun _ _ => Nat.le_total _ _⟩
  have : IsTrans α fun a b => weight b ≤ weight a := ⟨fun _ _ _ ab bc => bc.trans ab⟩
  List.pairwise_insertionSort _ items

theorem total_le_take (sorted : items.Pairwise fun a b => weight b ≤ weight a)
    (within : chosen <+~ items) :
    total weight chosen ≤ total weight (items.take chosen.length) := by
  obtain ⟨picked, same, inOrder⟩ := within
  rw [← total_perm same, ← same.length_eq]
  clear same
  induction inOrder with
  | slnil => simp
  | cons item inOrder ih =>
    obtain ⟨largest, sorted⟩ := List.pairwise_cons.mp sorted
    exact (ih sorted).trans (total_take_tail largest _)
  | cons_cons item inOrder ih =>
    have rest := ih (List.pairwise_cons.mp sorted).2
    simpa [total] using rest

end Largest
