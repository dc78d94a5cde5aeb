import Mathlib.Data.List.Sort

/-! Maps kept as lists of entries in increasing order of their keys. -/

namespace SortedMap

variable {κ ν : Type} [LinearOrder κ] {entries : List (κ × ν)} {entry : κ × ν} {key : κ}
  {pairs : List (κ × ν)}

def Sorted (entries : List (κ × ν)) : Prop := (entries.map Prod.fst).Pairwise (· < ·)

/-- Puts an entry at its place; an entry with the same key is replaced. -/
def insert (entry : κ × ν) : List (κ × ν) → List (κ × ν)
  | [] => [entry]
  | first :: entries =>
    if entry.1 < first.1 then entry :: first :: entries
    else if entry.1 = first.1 then entry :: entries
    else first :: insert entry entries

/-- The map that the pairs give when they are inserted in order. -/
def insertAll (entries : List (κ × ν)) (pairs : List (κ × ν)) : List (κ × ν) :=
  pairs.foldl (fun entries pair => insert pair entries) entries

theorem mem_keys_insert (mem : key ∈ (insert entry entries).map Prod.fst) :
    key = entry.1 ∨ key ∈ entries.map Prod.fst := by
  induction entries with
  | nil => simpa [insert] using mem
  | cons first entries ih =>
    unfold insert at mem
    split at mem
    · simpa using mem
    · split at mem
      · rename_i same
        simp only [List.map_cons, List.mem_cons] at mem ⊢
        exact mem.imp id .inr
      · simp only [List.map_cons, List.mem_cons] at mem ⊢
        rcases mem with rfl | mem
        · exact .inr (.inl rfl)
        · exact (ih mem).imp id .inr

theorem sorted_insert (entry : κ × ν) (sorted : Sorted entries) :
    Sorted (insert entry entries) := by
  induction entries with
  | nil => simp [Sorted, insert]
  | cons first entries ih =>
    obtain ⟨above, rest⟩ := List.pairwise_cons.mp sorted
    unfold insert
    split
    · rename_i below
      refine List.pairwise_cons.mpr ⟨?_, sorted⟩
      intro key mem
      rcases List.mem_cons.mp mem with rfl | mem
      · exact below
      · exact below.trans (above key mem)
    · rename_i notBelow
      split
      · rename_i same
        refine List.pairwise_cons.mpr ⟨?_, rest⟩
        rw [same]
        exact above
      · rename_i other
        refine List.pairwise_cons.mpr ⟨?_, ih rest⟩
        intro key mem
        rcases mem_keys_insert mem with rfl | mem
        · exact lt_of_le_of_ne (not_lt.mp notBelow) (Ne.symm other)
        · exact above key mem

theorem sorted_insertAll (pairs : List (κ × ν)) (sorted : Sorted entries) :
    Sorted (insertAll entries pairs) := by
  induction pairs generalizing entries with
  | nil => exact sorted
  | cons pair pairs ih => exact ih (sorted_insert pair sorted)

theorem insert_of_last (last : ∀ key ∈ entries.map Prod.fst, key < entry.1) :
    insert entry entries = entries ++ [entry] := by
  induction entries with
  | nil => rfl
  | cons first entries ih =>
    have below : first.1 < entry.1 := last first.1 (by simp)
    unfold insert
    rw [if_neg below.not_gt, if_neg below.ne',
      ih fun key mem => last key (List.mem_cons_of_mem _ mem)]
    rfl

/-- Pairs that are in order already become the map. -/
theorem insertAll_of_sorted (sorted : Sorted (entries ++ pairs)) :
    insertAll entries pairs = entries ++ pairs := by
  induction pairs generalizing entries with
  | nil => simp [insertAll]
  | cons pair pairs ih =>
    have last : ∀ key ∈ entries.map Prod.fst, key < pair.1 := by
      intro key mem
      unfold Sorted at sorted
      rw [List.map_append, List.pairwise_append] at sorted
      exact sorted.2.2 key mem pair.1 (by simp)
    have more : Sorted ((entries ++ [pair]) ++ pairs) := by simpa using sorted
    show insertAll (insert pair entries) pairs = entries ++ pair :: pairs
    rw [insert_of_last last, ih more]
    simp

theorem mem_insert_self (entry : κ × ν) (entries : List (κ × ν)) :
    entry ∈ insert entry entries := by
  induction entries with
  | nil => simp [insert]
  | cons first entries ih =>
    unfold insert
    split
    · simp
    · split
      · simp
      · simp [ih]

theorem length_insert_le (entry : κ × ν) (entries : List (κ × ν)) :
    (insert entry entries).length ≤ entries.length + 1 := by
  induction entries with
  | nil => simp [insert]
  | cons first entries ih =>
    unfold insert
    split
    · simp
    · split
      · simp
      · simpa using ih

theorem mem_insert_of_longer (longer : (insert entry entries).length = entries.length + 1) :
    ∀ kept ∈ entries, kept ∈ insert entry entries := by
  induction entries with
  | nil => simp
  | cons first entries ih =>
    unfold insert at longer ⊢
    split at longer
    · intro kept mem
      rw [if_pos ‹_›]
      exact List.mem_cons_of_mem _ mem
    · split at longer
      · simp at longer
      · intro kept mem
        rw [if_neg ‹_›, if_neg ‹_›]
        rcases List.mem_cons.mp mem with rfl | mem
        · simp
        · exact List.mem_cons_of_mem _ (ih (by simpa using longer) kept mem)

theorem length_insertAll_le (entries pairs : List (κ × ν)) :
    (insertAll entries pairs).length ≤ entries.length + pairs.length := by
  induction pairs generalizing entries with
  | nil => simp [insertAll]
  | cons pair pairs ih =>
    have one := length_insert_le pair entries
    have others : (insertAll entries (pair :: pairs)).length ≤
        (insert pair entries).length + pairs.length := ih (insert pair entries)
    simp only [List.length_cons]
    omega

theorem mem_insertAll_of_length
    (length : (insertAll entries pairs).length = entries.length + pairs.length) :
    ∀ entry, entry ∈ entries ∨ entry ∈ pairs → entry ∈ insertAll entries pairs := by
  induction pairs generalizing entries with
  | nil => simp [insertAll]
  | cons pair pairs ih =>
    have one := length_insert_le pair entries
    have others := length_insertAll_le (insert pair entries) pairs
    have step : insertAll entries (pair :: pairs) = insertAll (insert pair entries) pairs := rfl
    rw [step] at length ⊢
    simp only [List.length_cons] at length
    have later := @ih (insert pair entries) (by omega)
    intro entry mem
    rcases mem with mem | mem
    · exact later entry (.inl (mem_insert_of_longer (by omega) entry mem))
    · rcases List.mem_cons.mp mem with rfl | mem
      · exact later entry (.inl (mem_insert_self entry entries))
      · exact later entry (.inr mem)

theorem Sorted.value_unique (sorted : Sorted entries) {a b : ν} (first : (key, a) ∈ entries)
    (second : (key, b) ∈ entries) : a = b := by
  induction entries with
  | nil => cases first
  | cons entry entries ih =>
    obtain ⟨above, rest⟩ := List.pairwise_cons.mp sorted
    have later : ∀ value, (key, value) ∈ entries → entry.1 < key := fun value mem =>
      above key (List.mem_map.mpr ⟨_, mem, rfl⟩)
    rcases List.mem_cons.mp first with rfl | inA <;> rcases List.mem_cons.mp second with same | inB
    · exact (Prod.mk.inj same).2.symm
    · exact absurd (later b inB) (lt_irrefl _)
    · subst same
      exact absurd (later a inA) (lt_irrefl _)
    · exact ih rest inA inB

end SortedMap
