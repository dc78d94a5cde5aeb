import Mathlib.Data.List.AList

/-! Maps from which some keys have gone, and maps to lists that never hold an empty one. -/

namespace Cuts

variable {κ α : Type} [DecidableEq κ] {β : κ → Type} {map after : AList β} {key : κ}
  {removed : κ → Prop}

/-- The map after some keys have gone from it. -/
structure Cut (removed : κ → Prop) (map after : AList β) : Prop where
  gone : ∀ key, removed key → after.lookup key = none
  kept : ∀ key, ¬ removed key → after.lookup key = map.lookup key

theorem cut_erase (map : AList β) (key : κ) : Cut (· = key) map (map.erase key) where
  gone := by
    rintro _ rfl
    exact AList.lookup_erase _ _
  kept _ other := AList.lookup_erase_ne other

theorem cut_absent (absent : map.lookup key = none) : Cut (· = key) map map where
  gone := by
    rintro _ rfl
    exact absent
  kept _ _ := rfl

theorem cut_insert_erase (map : AList β) (key : κ) (value : β key) :
    Cut (· = key) map ((map.insert key value).erase key) where
  gone := (cut_erase _ key).gone
  kept _ differs := (AList.lookup_erase_ne differs).trans (AList.lookup_insert_ne differs)

theorem Cut.trans {removed' : κ → Prop} {middle : AList β} (first : Cut removed map middle)
    (second : Cut removed' middle after) :
    Cut (fun key => removed key ∨ removed' key) map after where
  gone key either := by
    by_cases later : removed' key
    · exact second.gone key later
    · rw [second.kept key later]
      exact first.gone key (either.resolve_right later)
  kept key neither := by
    rw [second.kept key fun later => neither (.inr later)]
    exact first.kept key fun early => neither (.inl early)

theorem Cut.of_some (cut : Cut removed map after) {value : β key}
    (found : after.lookup key = some value) : ¬ removed key ∧ map.lookup key = some value := by
  have left : ¬ removed key := by
    intro away
    rw [cut.gone key away] at found
    cases found
  exact ⟨left, cut.kept key left ▸ found⟩

section Lists

variable {removed : κ → Prop} {map after : AList fun _ : κ => List α} {key : κ}

section

variable (cut : Cut removed map after)
include cut

theorem Cut.list_gone (away : removed key) : (after.lookup key).getD [] = [] := by
  rw [cut.gone key away, Option.getD_none]

theorem Cut.list_kept (left : ¬ removed key) :
    (after.lookup key).getD [] = (map.lookup key).getD [] := by
  rw [cut.kept key left]

theorem Cut.mem_list {item : α} :
    item ∈ (after.lookup key).getD [] ↔ item ∈ (map.lookup key).getD [] ∧ ¬ removed key := by
  by_cases away : removed key
  · simp [cut.list_gone away, away]
  · simp [cut.list_kept away, away]

theorem Cut.nodup (distinct : ∀ key, ((map.lookup key).getD []).Nodup) (key : κ) :
    ((after.lookup key).getD []).Nodup := by
  by_cases away : removed key
  · rw [cut.list_gone away]
    exact List.nodup_nil
  · rw [cut.list_kept away]
    exact distinct key

theorem Cut.filled (filled : ∀ key, map.lookup key ≠ some []) (key : κ) :
    after.lookup key ≠ some [] :=
  fun empty => filled key (cut.of_some empty).2

end

theorem lookup_eq_none (filled : ∀ key, map.lookup key ≠ some [])
    (empty : (map.lookup key).getD [] = []) : map.lookup key = none := by
  cases found : map.lookup key with
  | none => rfl
  | some listed =>
    rw [found, Option.getD_some] at empty
    exact absurd (found.trans (congrArg some empty)) (filled key)

end Lists

end Cuts
