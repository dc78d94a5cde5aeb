import Mathlib.Data.Finmap
import Lrc20.Lib.FixedWidth

/-! Sums of fixed-width amounts by key, with a checked addition: `none` once one of the sums
does not fit. -/

open FixedWidth Finmap

namespace Tally

variable {κ : Type} [DecidableEq κ] {bound : Nat} {entries : List (κ × Fin bound)}
  {sums : Finmap fun _ : κ => Fin bound} {a b : List (κ × Fin bound)}
  {start : Finmap fun _ : κ => Fin bound} {key : κ}

/-- What the entries amount to under one key. -/
def total (key : κ) (entries : List (κ × Fin bound)) : Nat :=
  exactSum ((entries.filter fun entry => entry.1 = key).map Prod.snd)

@[simp] theorem total_nil (key : κ) : total key ([] : List (κ × Fin bound)) = 0 := rfl

theorem total_cons (key : κ) (entry : κ × Fin bound) (rest : List (κ × Fin bound)) :
    total key (entry :: rest) = (if entry.1 = key then entry.2.val else 0) + total key rest := by
  unfold total
  by_cases own : entry.1 = key
  · simp [own]
  · simp [own]

theorem total_perm (key : κ) (perm : a.Perm b) : total key a = total key b :=
  exactSum_perm ((perm.filter _).map _)

theorem total_eq_zero (missing : key ∉ entries.map Prod.fst) : total key entries = 0 := by
  have others : entries.filter (fun entry => entry.1 = key) = [] := by
    rw [List.filter_eq_nil_iff]
    intro entry mem own
    exact missing (List.mem_map.mpr ⟨entry, mem, of_decide_eq_true own⟩)
  rw [total, others, List.map_nil, exactSum_nil]

theorem le_total_of_mem {entry : κ × Fin bound} (mem : entry ∈ entries) :
    entry.2.val ≤ total entry.1 entries := by
  induction entries with
  | nil => cases mem
  | cons other rest ih =>
    rw [total_cons]
    rcases List.mem_cons.mp mem with rfl | later
    · rw [if_pos rfl]
      omega
    · have := ih later
      omega

/-- Entries of which none is zero are about the keys with an amount. -/
theorem mem_keys_iff (nonzero : ∀ entry ∈ entries, entry.2.val ≠ 0) :
    key ∈ entries.map Prod.fst ↔ total key entries ≠ 0 := by
  constructor
  · intro mem
    obtain ⟨entry, isEntry, rfl⟩ := List.mem_map.mp mem
    have counted := le_total_of_mem isEntry
    have amount := nonzero entry isEntry
    omega
  · intro amount
    by_contra missing
    exact amount (total_eq_zero missing)

variable [NeZero bound]

/-- Adds the entries to the sums so far. -/
def tally : List (κ × Fin bound) → Finmap (fun _ : κ => Fin bound) →
    Option (Finmap fun _ : κ => Fin bound)
  | [], sums => some sums
  | entry :: rest, sums =>
    let sum := (sums.lookup entry.1).getD 0
    if fits : sum.val + entry.2.val < bound then
      tally rest (sums.insert entry.1 ⟨_, fits⟩)
    else none

/-- The sums are exact when they fit. -/
theorem tally_spec (added : tally entries start = some sums) (key : κ) :
    ((sums.lookup key).getD 0).val = ((start.lookup key).getD 0).val + total key entries := by
  induction entries generalizing start with
  | nil =>
    obtain rfl := Option.some.inj added
    simp
  | cons entry rest ih =>
    unfold tally at added
    simp only at added
    split at added
    case isFalse => cases added
    case isTrue fits =>
      rw [ih added, total_cons]
      by_cases own : key = entry.1
      · subst own
        rw [lookup_insert, if_pos rfl]
        simp only [Option.getD_some]
        omega
      · have other : entry.1 ≠ key := fun same => own same.symm
        rw [lookup_insert_of_ne _ own, if_neg other]
        omega

theorem tally_none (failed : tally entries start = none) :
    ∃ key, bound ≤ ((start.lookup key).getD 0).val + total key entries := by
  induction entries generalizing start with
  | nil => cases failed
  | cons entry rest ih =>
    have own := total_cons entry.1 entry rest
    rw [if_pos rfl] at own
    unfold tally at failed
    simp only at failed
    split at failed
    case isFalse large => exact ⟨entry.1, by omega⟩
    case isTrue fits =>
      obtain ⟨key, large⟩ := ih failed
      refine ⟨key, ?_⟩
      rw [total_cons]
      by_cases same : key = entry.1
      · subst same
        rw [lookup_insert] at large
        simp only [Option.getD_some] at large
        rw [if_pos rfl]
        omega
      · rw [lookup_insert_of_ne _ same] at large
        omega

theorem mem_tally (added : tally entries start = some sums) (key : κ) :
    key ∈ sums ↔ key ∈ start ∨ key ∈ entries.map Prod.fst := by
  induction entries generalizing start with
  | nil =>
    obtain rfl := Option.some.inj added
    simp
  | cons entry rest ih =>
    unfold tally at added
    simp only at added
    split at added
    case isFalse => cases added
    case isTrue fits =>
      rw [ih added, mem_insert, List.map_cons, List.mem_cons]
      tauto

theorem total_eq_of_tally (ofA : tally a ∅ = some sums) (ofB : tally b ∅ = some sums) (key : κ) :
    total key a = total key b :=
  Nat.add_left_cancel ((tally_spec ofA key).symm.trans (tally_spec ofB key))

theorem tally_of_fit (fit : ∀ key, total key entries < bound) :
    ∃ sums, tally entries ∅ = some sums := by
  cases added : tally entries ∅ with
  | some sums => exact ⟨sums, rfl⟩
  | none =>
    obtain ⟨key, large⟩ := tally_none added
    rw [lookup_empty] at large
    have small := fit key
    simp only [Option.getD_none, Fin.val_zero] at large
    omega

/-- What is tallied from nothing fits, and the tally holds the exact sums. -/
theorem tally_empty_spec (added : tally entries ∅ = some sums) (key : κ) :
    ((sums.lookup key).getD 0).val = total key entries := by
  rw [tally_spec added, lookup_empty]
  simp

theorem total_lt_of_tally (added : tally entries ∅ = some sums) (key : κ) :
    total key entries < bound := by
  rw [← tally_empty_spec added key]
  exact Fin.isLt _

theorem tally_eq_of_totals (keys : ∀ key, key ∈ a.map Prod.fst ↔ key ∈ b.map Prod.fst)
    (same : ∀ key, total key a = total key b) : tally a ∅ = tally b ∅ := by
  by_cases fit : ∀ key, total key a < bound
  · obtain ⟨sumsA, ofA⟩ := tally_of_fit fit
    obtain ⟨sumsB, ofB⟩ := tally_of_fit fun key => (same key) ▸ fit key
    rw [ofA, ofB, Option.some.injEq]
    apply ext_lookup
    intro key
    have named : (sumsA.lookup key).isSome = (sumsB.lookup key).isSome := by
      rw [Bool.eq_iff_iff, lookup_isSome, lookup_isSome, mem_tally ofA, mem_tally ofB, keys key]
    have values := (tally_empty_spec ofA key).trans
      ((same key).trans (tally_empty_spec ofB key).symm)
    cases foundA : sumsA.lookup key with
    | none =>
      rw [foundA] at named
      exact (Option.isNone_iff_eq_none.mp (by simpa using named.symm)).symm
    | some sumA =>
      rw [foundA] at named values
      obtain ⟨sumB, foundB⟩ := Option.isSome_iff_exists.mp named.symm
      rw [foundB] at values ⊢
      exact congrArg some (Fin.ext values)
  · have overflow : ∀ entries : List (κ × Fin bound),
        (∀ key, total key entries = total key a) → tally entries ∅ = none := by
      intro entries totals
      cases added : tally entries ∅ with
      | none => rfl
      | some sums =>
        exact absurd (fun key => totals key ▸ total_lt_of_tally added key) fit
    rw [overflow a fun _ => rfl, overflow b fun key => (same key).symm]

/-- Two tallies succeed alike exactly when they name the same keys and have the same sums, all
of which fit. -/
theorem tallies_agree_iff :
    (∃ sums, tally a ∅ = some sums ∧ tally b ∅ = some sums) ↔
      (∀ key, key ∈ a.map Prod.fst ↔ key ∈ b.map Prod.fst) ∧
        ∀ key, total key a = total key b ∧ total key a < bound := by
  constructor
  · rintro ⟨sums, ofA, ofB⟩
    refine ⟨fun key => ?_, fun key => ⟨total_eq_of_tally ofA ofB key, total_lt_of_tally ofA key⟩⟩
    have named : ∀ {entries : List (κ × Fin bound)}, tally entries ∅ = some sums →
        (key ∈ entries.map Prod.fst ↔ key ∈ sums) := by
      intro entries added
      rw [mem_tally added]
      simp [notMem_empty]
    rw [named ofA, named ofB]
  · rintro ⟨keys, totals⟩
    obtain ⟨sums, ofA⟩ := tally_of_fit fun key => (totals key).2
    have same := tally_eq_of_totals keys fun key => (totals key).1
    exact ⟨sums, ofA, same ▸ ofA⟩

end Tally
