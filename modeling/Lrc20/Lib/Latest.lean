import Mathlib.Data.List.Basic
import Mathlib.Algebra.Order.Ring.Nat

/-! What the newest of a list of timestamped orders says. -/

namespace Latest

variable {α : Type} {time : α → Nat} {yes : α → Prop} {items : List α} {item : α}

/-- One of the newest items says yes. -/
def SaysYes (time : α → Nat) (yes : α → Prop) (items : List α) : Prop :=
  ∃ item ∈ items, yes item ∧ ∀ other ∈ items, time other ≤ time item

instance [DecidablePred yes] : Decidable (SaysYes time yes items) :=
  inferInstanceAs (Decidable (∃ item ∈ items, yes item ∧ ∀ other ∈ items, time other ≤ time item))

theorem exists_newest {item : α} (mem : item ∈ items) :
    ∃ newest ∈ items, ∀ other ∈ items, time other ≤ time newest := by
  induction items generalizing item with
  | nil => cases mem
  | cons first rest ih =>
    cases rest with
    | nil => exact ⟨first, by simp, by simp⟩
    | cons second others =>
      obtain ⟨newest, newestMem, greatest⟩ := ih (List.mem_cons_self (a := second))
      by_cases newer : time newest ≤ time first
      · refine ⟨first, by simp, ?_⟩
        intro other otherMem
        rcases List.mem_cons.mp otherMem with rfl | inRest
        · exact Nat.le_refl _
        · exact Nat.le_trans (greatest other inRest) newer
      · refine ⟨newest, List.mem_cons_of_mem first newestMem, ?_⟩
        intro other otherMem
        rcases List.mem_cons.mp otherMem with rfl | inRest
        · omega
        · exact greatest other inRest

theorem saysYes_of_newer (mem : item ∈ items)
    (newer : ∀ other ∈ items, ¬ yes other → time other < time item) : SaysYes time yes items := by
  obtain ⟨newest, newestMem, greatest⟩ := @exists_newest α time items item mem
  by_cases agrees : yes newest
  · exact ⟨newest, newestMem, agrees, greatest⟩
  · have older := newer newest newestMem agrees
    have younger := greatest item mem
    omega

theorem not_saysYes_of_newer (mem : item ∈ items)
    (newer : ∀ other ∈ items, yes other → time other < time item) : ¬ SaysYes time yes items := by
  rintro ⟨newest, newestMem, agrees, greatest⟩
  have older := newer newest newestMem agrees
  have younger := greatest item mem
  omega

/-- A further item that is older than one already there, or repeats it, changes nothing. -/
theorem saysYes_append_stale
    (stale : ∃ other ∈ items, time item < time other ∨
      time item = time other ∧ (yes item ↔ yes other)) :
    SaysYes time yes (items ++ [item]) ↔ SaysYes time yes items := by
  obtain ⟨other, otherMem, older⟩ := stale
  have bound : time item ≤ time other := by omega
  constructor
  · rintro ⟨newest, newestMem, agrees, greatest⟩
    have old : ∀ further ∈ items, time further ≤ time newest := fun further mem =>
      greatest further (List.mem_append_left _ mem)
    rcases List.mem_append.mp newestMem with inItems | isItem
    · exact ⟨newest, inItems, agrees, old⟩
    · obtain rfl := List.mem_singleton.mp isItem
      have younger := old other otherMem
      rcases older with older | ⟨same, agree⟩
      · omega
      · refine ⟨other, otherMem, agree.mp agrees, ?_⟩
        rw [← same]
        exact old
  · rintro ⟨newest, newestMem, agrees, greatest⟩
    refine ⟨newest, List.mem_append_left _ newestMem, agrees, ?_⟩
    intro further mem
    rcases List.mem_append.mp mem with inItems | isItem
    · exact greatest further inItems
    · rw [List.mem_singleton.mp isItem]
      exact Nat.le_trans bound (greatest other otherMem)

end Latest
