import Mathlib.Algebra.BigOperators.Group.Finset.Piecewise

/-! Lists of keyed values read for one key, or for all keys at once. -/

namespace Grouping

variable {κ α : Type} [DecidableEq κ] {entries : List (κ × α)} {a b : List (κ × α)}

/-- `none` selects every key, a key only itself. -/
def selects : Option κ → κ → Bool
  | none, _ => true
  | some own, key => key = own

def selected (who : Option κ) (entries : List (κ × α)) : List α :=
  (entries.filter fun entry => selects who entry.1).map Prod.snd

variable {who : Option κ}

@[simp] theorem selected_nil : selected who ([] : List (κ × α)) = [] := rfl

theorem selected_cons (entry : κ × α) (rest : List (κ × α)) :
    selected who (entry :: rest) =
      if selects who entry.1 then entry.2 :: selected who rest else selected who rest := by
  unfold selected
  by_cases own : selects who entry.1
  · simp [own]
  · simp [own]

@[simp] theorem selected_append (a b : List (κ × α)) :
    selected who (a ++ b) = selected who a ++ selected who b := by
  simp [selected]

theorem selected_perm (perm : a.Perm b) : (selected who a).Perm (selected who b) :=
  (perm.filter _).map _

theorem selected_eq_nil :
    selected who entries = [] ↔ ∀ entry ∈ entries, selects who entry.1 = false := by
  simp [selected]

section Sums

variable [AddCommMonoid α]

theorem selected_cons_sum (entry : κ × α) (rest : List (κ × α)) :
    (selected who (entry :: rest)).sum =
      (if selects who entry.1 then entry.2 else 0) + (selected who rest).sum := by
  rw [selected_cons]
  split
  · simp
  · simp

/-- All values together are the values of each key together. -/
theorem selected_none_sum (keys : Finset κ) (inside : ∀ entry ∈ entries, entry.1 ∈ keys) :
    (selected none entries).sum = ∑ key ∈ keys, (selected (some key) entries).sum := by
  induction entries with
  | nil => simp
  | cons entry rest ih =>
    have head : entry.1 ∈ keys := inside entry (by simp)
    have tail := ih fun other mem => inside other (by simp [mem])
    simp only [selected_cons_sum]
    rw [Finset.sum_add_distrib, tail]
    simp [selects, head]

/-- What balances for every key balances as a whole. -/
theorem selected_sum_eq (each : ∀ key, (selected (some key) a).sum = (selected (some key) b).sum) :
    (selected who a).sum = (selected who b).sum := by
  cases who with
  | some key => exact each key
  | none =>
    have inside : ∀ entry ∈ a ++ b, entry.1 ∈ ((a ++ b).map Prod.fst).toFinset := by
      intro entry mem
      exact List.mem_toFinset.mpr (List.mem_map_of_mem mem)
    rw [selected_none_sum _ fun entry mem => inside entry (List.mem_append_left b mem),
      selected_none_sum _ fun entry mem => inside entry (List.mem_append_right a mem)]
    exact Finset.sum_congr rfl fun key _ => each key

end Sums

end Grouping
