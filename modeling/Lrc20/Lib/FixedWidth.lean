import Mathlib.Algebra.BigOperators.Group.List.Basic
import Mathlib.Data.ZMod.Defs
import Mathlib.Order.MinMax

/-! Sums of fixed-width numbers: exact, saturating and wrapping. The addition of `Fin` is
the wrapping one. -/

namespace FixedWidth

variable {bound : Nat} {a b : List (Fin bound)}

/-- Addition that stops at the greatest number. -/
def saturatingAdd (a b : Fin bound) : Fin bound :=
  ⟨min (a.val + b.val) (bound - 1), by have := a.isLt; omega⟩

/-- The sum as a natural number. -/
def exactSum (values : List (Fin bound)) : Nat :=
  (values.map Fin.val).sum

@[simp] theorem exactSum_nil : exactSum ([] : List (Fin bound)) = 0 := rfl

@[simp] theorem exactSum_cons (value : Fin bound) (rest : List (Fin bound)) :
    exactSum (value :: rest) = value.val + exactSum rest := rfl

@[simp] theorem exactSum_append (a b : List (Fin bound)) :
    exactSum (a ++ b) = exactSum a + exactSum b := by
  simp [exactSum]

theorem exactSum_le_of_sublist (sublist : a.Sublist b) : exactSum a ≤ exactSum b := by
  induction sublist with
  | slnil => exact Nat.le_refl _
  | cons value _ ih =>
    rw [exactSum_cons]
    omega
  | cons_cons value _ ih =>
    rw [exactSum_cons, exactSum_cons]
    omega

theorem exactSum_perm (perm : a.Perm b) : exactSum a = exactSum b := (perm.map Fin.val).sum_eq

theorem saturatingAdd_val (a b : Fin bound) :
    (saturatingAdd a b).val = min (a.val + b.val) (bound - 1) := rfl

theorem foldl_saturatingAdd_val (values : List (Fin bound)) (start : Fin bound) :
    (values.foldl saturatingAdd start).val = min (start.val + exactSum values) (bound - 1) := by
  induction values generalizing start with
  | nil =>
    have small := start.isLt
    simp only [List.foldl_nil, exactSum_nil]
    omega
  | cons value rest ih =>
    rw [List.foldl_cons, ih, saturatingAdd_val, exactSum_cons]
    omega

section Sums

variable [NeZero bound]

def saturatingSum (values : List (Fin bound)) : Fin bound :=
  values.foldl saturatingAdd 0

theorem saturatingSum_val (values : List (Fin bound)) :
    (saturatingSum values).val = min (exactSum values) (bound - 1) := by
  simp [saturatingSum, foldl_saturatingAdd_val]

theorem wrappingSum_val (values : List (Fin bound)) : values.sum.val = exactSum values % bound := by
  induction values with
  | nil => simp
  | cons value rest ih =>
    rw [List.sum_cons, Fin.val_add, ih, exactSum_cons, Nat.add_mod_mod]

end Sums

end FixedWidth
