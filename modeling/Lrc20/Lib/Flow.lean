import Mathlib.Algebra.Order.BigOperators.Group.List
import Mathlib.Algebra.Order.Ring.Nat
import Mathlib.Data.List.Nodup
import Mathlib.Data.List.Perm.Subperm

/-! What transactions take from places and put into places. -/

namespace Flow

variable {τ κ γ : Type}

/-- What the contents of some places weigh. -/
def total (weigh : γ → Nat) (entries : List (κ × γ)) : Nat :=
  (entries.map fun entry => weigh entry.2).sum

section Total

variable {weigh : γ → Nat}

@[simp] theorem total_nil : total weigh ([] : List (κ × γ)) = 0 := rfl

@[simp] theorem total_cons (entry : κ × γ) (rest : List (κ × γ)) :
    total weigh (entry :: rest) = weigh entry.2 + total weigh rest := rfl

theorem total_append (a b : List (κ × γ)) :
    total weigh (a ++ b) = total weigh a + total weigh b := by
  simp [total]

theorem total_filter_add (entries : List (κ × γ)) (p : κ × γ → Bool) :
    total weigh (entries.filter p) + total weigh (entries.filter fun entry => !p entry) =
      total weigh entries := by
  induction entries with
  | nil => rfl
  | cons entry rest ih =>
    cases holds : p entry with
    | true | false => simp [holds, ← ih]; omega

theorem total_le_of_subperm {a b : List (κ × γ)} (within : a.Subperm b) :
    total weigh a ≤ total weigh b := by
  obtain ⟨c, perm, sublist⟩ := within
  have same : total weigh c = total weigh a := (perm.map _).sum_eq
  rw [← same]
  exact (sublist.map _).sum_le_sum fun _ _ => Nat.zero_le _

theorem total_flatMap (txs : List τ) (entries : τ → List (κ × γ)) :
    total weigh (txs.flatMap entries) = (txs.map fun tx => total weigh (entries tx)).sum := by
  induction txs with
  | nil => rfl
  | cons tx rest ih => rw [List.flatMap_cons, total_append, ih, List.map_cons, List.sum_cons]

end Total

/-- Every place is emptied once, only filled places are emptied, of what is in them, and no
transaction puts more into places than it takes out of places and mints. -/
structure Conserving (txs : List τ) (produced spent : τ → List (κ × γ)) (weigh : γ → Nat)
    (minted : τ → Nat) : Prop where
  spentOnce : ((txs.flatMap spent).map Prod.fst).Nodup
  grounded : ∀ tx ∈ txs, ∀ entry ∈ spent tx, entry ∈ txs.flatMap produced
  balanced : ∀ tx ∈ txs, total weigh (produced tx) ≤ minted tx + total weigh (spent tx)

/-- The places that are filled and not emptied, with what is in them. -/
def unspent [DecidableEq κ] (txs : List τ) (produced spent : τ → List (κ × γ)) : List (κ × γ) :=
  (txs.flatMap produced).filter fun entry => entry.1 ∉ (txs.flatMap spent).map Prod.fst

/-- What is left in the places was minted. -/
theorem Conserving.unspent_le_minted [DecidableEq κ] {txs : List τ}
    {produced spent : τ → List (κ × γ)} {weigh : γ → Nat} {minted : τ → Nat}
    (conserving : Conserving txs produced spent weigh minted) :
    total weigh (unspent txs produced spent) ≤ (txs.map minted).sum := by
  have emptied : total weigh (txs.flatMap spent) ≤ total weigh ((txs.flatMap produced).filter
      fun entry => !decide (entry.1 ∉ (txs.flatMap spent).map Prod.fst)) := by
    apply total_le_of_subperm
    apply List.subperm_of_subset (List.Nodup.of_map _ conserving.spentOnce)
    intro entry mem
    obtain ⟨tx, isTx, isEntry⟩ := List.mem_flatMap.mp mem
    rw [List.mem_filter]
    refine ⟨conserving.grounded tx isTx entry isEntry, ?_⟩
    have named := List.mem_map_of_mem (f := Prod.fst) mem
    simpa using named
  have filled : total weigh (txs.flatMap produced) ≤
      (txs.map minted).sum + total weigh (txs.flatMap spent) := by
    rw [total_flatMap, total_flatMap, ← List.sum_map_add]
    exact List.sum_le_sum conserving.balanced
  have split := @total_filter_add κ γ weigh (txs.flatMap produced)
    fun entry => decide (entry.1 ∉ (txs.flatMap spent).map Prod.fst)
  unfold unspent
  omega

end Flow
