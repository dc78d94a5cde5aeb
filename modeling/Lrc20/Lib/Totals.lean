import Mathlib.Algebra.BigOperators.Group.Finset.Piecewise
import Mathlib.Algebra.Order.BigOperators.Group.Finset
import Mathlib.Data.List.AList

/-! What the entries of a table amount to, each weighed by its key and its value. -/

namespace Totals

variable {κ α β : Type} [DecidableEq κ]

/-- What the entry under a key weighs; nothing when there is none. -/
def weightAt (weigh : κ → α → Nat) (table : AList fun _ : κ => α) (key : κ) : Nat :=
  ((table.lookup key).map (weigh key)).getD 0

def total (weigh : κ → α → Nat) (table : AList fun _ : κ => α) : Nat :=
  ∑ key ∈ table.keys.toFinset, weightAt weigh table key

/-- The weights with one key left out. -/
def except (key : κ) (weigh : κ → α → Nat) (other : κ) (value : α) : Nat :=
  if other = key then 0 else weigh other value

variable {weigh : κ → α → Nat} {table : AList fun _ : κ => α} {key : κ}
  {table' : AList fun _ : κ => β}

theorem weightAt_of_lookup {value : α} (found : table.lookup key = some value) :
    weightAt weigh table key = weigh key value := by
  simp [weightAt, found]

theorem weightAt_of_none (missing : table.lookup key = none) : weightAt weigh table key = 0 := by
  simp [weightAt, missing]

theorem weightAt_except_self : weightAt (except key weigh) table key = 0 := by
  unfold weightAt
  cases table.lookup key <;> simp [except]

theorem weightAt_except_ne {other : κ} (different : other ≠ key) :
    weightAt (except key weigh) table other = weightAt weigh table other := by
  unfold weightAt
  cases table.lookup other <;> simp [except, different]

theorem mem_keys_of_weightAt (weighs : weightAt weigh table key ≠ 0) :
    key ∈ table.keys.toFinset := by
  rw [List.mem_toFinset]
  by_contra missing
  exact weighs (weightAt_of_none (AList.lookup_eq_none.mpr missing))

/-- A total is compared entry by entry, whatever the tables hold. -/
theorem total_le_total {weigh' : κ → β → Nat}
    (le : ∀ key, weightAt weigh table key ≤ weightAt weigh' table' key) :
    total weigh table ≤ total weigh' table' := by
  calc total weigh table
      ≤ ∑ key ∈ table.keys.toFinset, weightAt weigh' table' key :=
        Finset.sum_le_sum fun key _ => le key
    _ ≤ total weigh' table' :=
        Finset.sum_le_sum_of_ne_zero fun _ _ weighs => mem_keys_of_weightAt weighs

theorem total_le_add (key : κ) :
    total weigh table ≤ weightAt weigh table key + total (except key weigh) table := by
  have split : ∀ other, weightAt weigh table other ≤
      (if other = key then weightAt weigh table key else 0) +
        weightAt (except key weigh) table other := by
    intro other
    by_cases same : other = key
    · rw [if_pos same, same]
      exact Nat.le_add_right _ _
    · rw [weightAt_except_ne same]
      exact Nat.le_add_left _ _
  unfold total
  calc ∑ other ∈ table.keys.toFinset, weightAt weigh table other
      ≤ ∑ other ∈ table.keys.toFinset, ((if other = key then weightAt weigh table key else 0) +
          weightAt (except key weigh) table other) := Finset.sum_le_sum fun other _ => split other
    _ = (∑ other ∈ table.keys.toFinset, if other = key then weightAt weigh table key else 0) +
          total (except key weigh) table := Finset.sum_add_distrib
    _ ≤ weightAt weigh table key + total (except key weigh) table := by
        apply Nat.add_le_add_right
        rw [Finset.sum_ite_eq']
        split
        · exact Nat.le_refl _
        · exact Nat.zero_le _

theorem length_selected_eq {p : (_ : κ) × α → Bool} {q : (_ : κ) × β → Bool}
    (same : ∀ key, (∃ value, table.lookup key = some value ∧ p ⟨key, value⟩ = true) ↔
      ∃ value, table'.lookup key = some value ∧ q ⟨key, value⟩ = true) :
    (table.entries.filter p).length = (table'.entries.filter q).length := by
  have keys : ∀ {γ : Type} (selected : AList fun _ : κ => γ) (r : (_ : κ) × γ → Bool) (key : κ),
      key ∈ (selected.entries.filter r).map Sigma.fst ↔
        ∃ value, selected.lookup key = some value ∧ r ⟨key, value⟩ = true := by
    intro γ selected r key
    simp only [List.mem_map, List.mem_filter]
    constructor
    · rintro ⟨⟨_, value⟩, ⟨mem, holds⟩, rfl⟩
      exact ⟨value, AList.mem_lookup_iff.mpr mem, holds⟩
    · rintro ⟨value, found, holds⟩
      exact ⟨⟨key, value⟩, ⟨AList.mem_lookup_iff.mp found, holds⟩, rfl⟩
  have distinct : ∀ {γ : Type} (selected : AList fun _ : κ => γ) (r : (_ : κ) × γ → Bool),
      ((selected.entries.filter r).map Sigma.fst).Nodup := fun selected r =>
    (List.filter_sublist.map Sigma.fst).nodup selected.keys_nodup
  have perm := (List.perm_ext_iff_of_nodup (distinct table p) (distinct table' q)).mpr fun key => by
    rw [keys, keys, same]
  simpa using perm.length_eq

end Totals
