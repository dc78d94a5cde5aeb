import Lrc20.Lib.Largest

/-! The selection of satoshis in the JavaScript library, and the choices it misses. -/

open scoped List
open Largest

namespace Lrc20.Sdk

/-- A `BitcoinUtxo`, or an `Lrc20Utxo`. -/
structure Utxo where
  txid : String
  vout : Nat
  satoshis : Nat
  isLrc20 : Bool
deriving DecidableEq

def Utxo.outpoint (utxo : Utxo) : String × Nat := (utxo.txid, utxo.vout)

open Utxo

/-- The loop of `greedySelection` from an index on: the selected coins and the target. -/
def greedyLoop (utxoIncrementValue : Nat) :
    Nat → List Utxo → List Utxo → Nat → Nat → List Utxo × Nat
  | _, [], selected, _, target => (selected, target)
  | i, utxo :: rest, selected, currentValue, target =>
    if currentValue ≤ target then
      greedyLoop utxoIncrementValue (i + 1) rest (selected ++ [utxo])
        (currentValue + utxo.satoshis) (if i ≠ 0 then target + utxoIncrementValue else target)
    else greedyLoop utxoIncrementValue (i + 1) rest selected currentValue target

/-- `none` where the source throws. -/
def greedySelection (utxos : List Utxo) (totalValue target utxoIncrementValue : Nat) :
    Option (List Utxo) :=
  let (selected, target) := greedyLoop utxoIncrementValue 0 (descending satoshis utxos) [] 0 target
  if target > totalValue then none else some selected

structure BtcUtxosCoinSelection where
  utxos : List Utxo
  reservedUtxos : List Utxo

variable (selection : BtcUtxosCoinSelection)

namespace BtcUtxosCoinSelection

def unreserved (onlyBtcUtxos : Bool) : List Utxo :=
  (if onlyBtcUtxos then selection.utxos.filter (!·.isLrc20) else selection.utxos).filter fun utxo =>
    !selection.reservedUtxos.any fun reserved =>
      reserved.txid = utxo.txid && reserved.vout = utxo.vout

def coinSelection (target utxoIncrementValue : Nat) (onlyBtcUtxos : Bool) : Option (List Utxo) :=
  let targetOnFirstIteration := target + utxoIncrementValue
  let utxos := selection.unreserved onlyBtcUtxos
  let totalValue := total satoshis utxos
  if totalValue = targetOnFirstIteration + utxos.length * utxoIncrementValue then some utxos
  else if targetOnFirstIteration > totalValue then none
  else
    let matchedValue := utxos.reverse.find? (targetOnFirstIteration ≤ ·.satoshis)
    if totalValue > targetOnFirstIteration ∧ matchedValue.isSome then some matchedValue.toList
    else greedySelection utxos.reverse totalValue targetOnFirstIteration utxoIncrementValue

end BtcUtxosCoinSelection

/-! ### The greedy selection -/

section Greedy

variable {utxos chosen : List Utxo} {target increment : Nat}

/-- The loop ends with the first coins that are worth more than their target, or with all. -/
theorem greedyLoop_spec (rest : List Utxo) : ∀ taken coins : List Utxo, coins = taken ++ rest →
    ∃ k ≤ coins.length,
      greedyLoop increment taken.length rest taken (total satoshis taken)
          (target + max taken.length 1 * increment) =
        (coins.take k, target + max k 1 * increment) ∧
      (k = coins.length ∨ target + max k 1 * increment < total satoshis (coins.take k)) ∧
      ∀ j, taken.length ≤ j → j < k →
        total satoshis (coins.take j) ≤ target + max j 1 * increment := by
  induction rest with
  | nil =>
    rintro taken _ rfl
    exact ⟨taken.length, by simp, by simp [greedyLoop], by simp, by omega⟩
  | cons utxo rest ih =>
    rintro taken _ rfl
    unfold greedyLoop
    split
    · rename_i running
      have next : (if taken.length ≠ 0 then target + max taken.length 1 * increment + increment
          else target + max taken.length 1 * increment) =
          target + max (taken ++ [utxo]).length 1 * increment := by
        cases taken with
        | nil => simp
        | cons first taken => simp [Nat.succ_mul, Nat.add_assoc]
      obtain ⟨k, inside, ends, stops, passed⟩ :=
        ih (taken ++ [utxo]) (taken ++ utxo :: rest) (by simp)
      refine ⟨k, inside, ?_, stops, ?_⟩
      · rw [next, ← ends]
        simp [total]
      · intro j reached below
        rcases Nat.eq_or_lt_of_le reached with rfl | later
        · simpa using running
        · exact passed j (by simpa using Nat.succ_le_of_lt later) below
    · rename_i above
      have stopped : ∀ (rest : List Utxo) (i : Nat), greedyLoop increment i rest taken
          (total satoshis taken) (target + max taken.length 1 * increment) =
          (taken, target + max taken.length 1 * increment) := by
        intro rest
        induction rest with
        | nil => exact fun _ => rfl
        | cons utxo rest ih => exact fun i => (if_neg above).trans (ih (i + 1))
      refine ⟨taken.length, by simp, by simp [stopped], .inr (by simpa using above), by omega⟩

/-- No choice of coins is worth more than its target, and all of them are worth less. -/
def FallsShort (utxos : List Utxo) (target increment : Nat) : Prop :=
  (∀ chosen, chosen <+~ utxos → total satoshis chosen ≤ target + chosen.length * increment) ∧
  total satoshis utxos < target + max utxos.length 1 * increment

theorem fallsShort_reverse :
    FallsShort utxos.reverse target increment ↔ FallsShort utxos target increment := by
  have same := utxos.reverse_perm
  simp only [FallsShort, same.subperm_left, total_perm same, List.length_reverse]

theorem greedySelection_spec (utxos : List Utxo) (target increment : Nat) :
    match greedySelection utxos (total satoshis utxos) (target + increment) increment with
    | none => FallsShort utxos target increment
    | some selected => selected <+~ utxos ∧
        target + selected.length * increment ≤ total satoshis selected ∧
        ¬ FallsShort utxos target increment := by
  have same := descending_perm satoshis utxos
  obtain ⟨k, inside, ends, stops, passed⟩ :=
    @greedyLoop_spec target increment _ [] (descending satoshis utxos) rfl
  rw [same.length_eq] at inside stops
  have within : (descending satoshis utxos).take k <+~ utxos :=
    (List.take_sublist k _).subperm.trans same.subperm
  have length : ((descending satoshis utxos).take k).length = k := by
    rw [List.length_take, same.length_eq, Nat.min_eq_left inside]
  have part := total_le satoshis within
  have grows : k * increment ≤ max k 1 * increment := Nat.mul_le_mul_right _ (le_max_left _ _)
  have selected : greedySelection utxos (total satoshis utxos) (target + increment)
      increment = if target + max k 1 * increment > total satoshis utxos then none
        else some ((descending satoshis utxos).take k) := by
    simp only [List.length_nil, Nat.zero_max, Nat.one_mul] at ends
    exact congrArg (fun result : List Utxo × Nat =>
      if result.2 > total satoshis utxos then none else some result.1) ends
  have whole (all : k = utxos.length) :
      total satoshis ((descending satoshis utxos).take k) = total satoshis utxos := by
    rw [all, ← same.length_eq, List.take_length, total_perm same]
  by_cases short : target + max k 1 * increment > total satoshis utxos
  · rw [selected, if_pos short]
    have all : k = utxos.length := stops.resolve_right (by omega)
    refine ⟨fun chosen inside => ?_, all ▸ short⟩
    refine (total_le_take (descending_sorted satoshis utxos)
      (inside.trans same.symm.subperm)).trans ?_
    rcases Nat.eq_zero_or_pos chosen.length with empty | more
    · simp [empty, total]
    rcases Nat.eq_or_lt_of_le inside.length_le with last | below
    · rw [last, ← all, whole all]
      rw [last, ← all] at more
      rw [Nat.max_eq_left more] at short
      omega
    · have bound := passed _ (Nat.zero_le _) (all ▸ below)
      rwa [Nat.max_eq_left more] at bound
  · rw [selected, if_neg short]
    refine ⟨within, ?_, ?_⟩
    · rw [length]
      rcases stops with all | above
      · rw [whole all]
        omega
      · omega
    · rintro ⟨below, less⟩
      have := below _ within
      rw [length] at this
      rcases stops with all | above
      · rw [← all] at less
        omega
      · omega

/-- What a selection has to be: distinct coins that are worth the target and an increment for
each, or nothing where no choice of coins is. -/
def IsRight (utxos : List Utxo) (target increment : Nat) : Option (List Utxo) → Prop
  | none => ∀ chosen, chosen <+~ utxos → total satoshis chosen < target + chosen.length * increment
  | some selected => (selected.map outpoint).Nodup ∧ selected ⊆ utxos ∧
      target + selected.length * increment ≤ total satoshis selected

/-- Some choice of coins is worth its target exactly, none is worth more, and no single coin is
taken instead. -/
def Missed (utxos : List Utxo) (target increment : Nat) : Prop :=
  FallsShort utxos target increment ∧
    (∃ chosen, chosen <+~ utxos ∧ total satoshis chosen = target + chosen.length * increment) ∧
    ¬ (target + increment < total satoshis utxos ∧
      ∃ utxo ∈ utxos, target + increment ≤ utxo.satoshis)

theorem isRight_some (distinct : (utxos.map outpoint).Nodup) (within : chosen <+~ utxos)
    (enough : target + chosen.length * increment ≤ total satoshis chosen) :
    IsRight utxos target increment (some chosen) := by
  refine ⟨?_, within.subset, enough⟩
  obtain ⟨picked, same, inOrder⟩ := within
  exact (same.map _).nodup_iff.mp ((inOrder.map _).nodup distinct)

theorem isRight_none_iff (short : FallsShort utxos target increment)
    (unmatched : ¬ (target + increment < total satoshis utxos ∧
      ∃ utxo ∈ utxos, target + increment ≤ utxo.satoshis)) :
    IsRight utxos target increment none ↔ ¬ Missed utxos target increment := by
  constructor
  · rintro right ⟨_, ⟨chosen, within, exactly⟩, _⟩
    exact (right chosen within).ne exactly
  · intro notMissed chosen within
    refine lt_of_le_of_ne (short.1 chosen within) fun exactly => ?_
    exact notMissed ⟨short, ⟨chosen, within, exactly⟩, unmatched⟩

end Greedy

namespace BtcUtxosCoinSelection

theorem unreserved_sublist (onlyBtcUtxos : Bool) :
    selection.unreserved onlyBtcUtxos <+ selection.utxos := by
  refine List.filter_sublist.trans ?_
  split
  · exact List.filter_sublist
  · exact .refl _

/-- A selection is right, or throws rightly, exactly unless it misses coins. -/
theorem coinSelection_isRight_iff (target increment : Nat) (onlyBtcUtxos : Bool)
    (distinct : (selection.utxos.map outpoint).Nodup) :
    IsRight (selection.unreserved onlyBtcUtxos) target increment
        (selection.coinSelection target increment onlyBtcUtxos) ↔
      ¬ Missed (selection.unreserved onlyBtcUtxos) target increment := by
  replace distinct := ((selection.unreserved_sublist onlyBtcUtxos).map _).nodup distinct
  unfold coinSelection
  generalize selection.unreserved onlyBtcUtxos = utxos at *
  have matched : (utxos.reverse.find? (target + increment ≤ ·.satoshis)).isSome ↔
      ∃ utxo ∈ utxos, target + increment ≤ utxo.satoshis := by
    simp [List.find?_isSome]
  dsimp only
  split
  · rename_i equal
    refine iff_of_true (isRight_some distinct (.refl _) (by omega)) ?_
    rintro ⟨⟨_, less⟩, _⟩
    have := Nat.mul_le_mul_right increment (Nat.max_le.mpr
      ⟨Nat.le_succ utxos.length, Nat.le_add_left 1 utxos.length⟩)
    rw [Nat.succ_mul] at this
    omega
  split
  · rename_i less
    have grows {size : Nat} (more : 0 < size) := Nat.le_mul_of_pos_left increment more
    refine isRight_none_iff ⟨fun chosen within => ?_, ?_⟩ fun ⟨above, _⟩ => by omega
    · have := total_le satoshis within
      rcases Nat.eq_zero_or_pos chosen.length with empty | more
      · simp [List.length_eq_zero_iff.mp empty, total]
      · have := grows more
        omega
    · have := grows (Nat.le_max_right utxos.length 1)
      omega
  split
  · rename_i single
    obtain ⟨utxo, found⟩ := Option.isSome_iff_exists.mp single.2
    have mem := List.mem_reverse.mp (List.mem_of_find?_eq_some found)
    have enough := List.find?_some found
    rw [found]
    refine iff_of_true (isRight_some distinct (List.singleton_subperm_iff.mpr mem) ?_) ?_
    · simpa [total] using enough
    · exact fun missed => missed.2.2 ⟨single.1, matched.mp single.2⟩
  · rename_i unmatched
    have spec := greedySelection_spec utxos.reverse target increment
    rw [total_perm utxos.reverse_perm] at spec
    split at spec
    · rename_i thrown
      rw [thrown]
      exact isRight_none_iff (fallsShort_reverse.mp spec) (by rwa [← matched])
    · rename_i selected taken
      obtain ⟨within, enough, notShort⟩ := spec
      rw [taken]
      refine iff_of_true (isRight_some distinct ?_ enough) ?_
      · exact within.trans utxos.reverse_perm.subperm
      · exact fun missed => notShort (fallsShort_reverse.mpr missed.1)

def ofValues (values : List Nat) : BtcUtxosCoinSelection :=
  ⟨values.mapIdx fun vout satoshis => ⟨"", vout, satoshis, false⟩, []⟩

theorem coinSelection_isRight_iff_of_values :
    ((ofValues [6, 6, 1]).utxos.map outpoint).Nodup ∧
      (IsRight ((ofValues [6, 6, 1]).unreserved false) 8 2
          ((ofValues [6, 6, 1]).coinSelection 8 2 false) ↔
        ¬ Missed ((ofValues [6, 6, 1]).unreserved false) 8 2) :=
  ⟨by decide, coinSelection_isRight_iff _ 8 2 false (by decide)⟩

/-- Two coins of 6 satoshis are worth a target of 8 and 2 for each, but the loop goes on to the
third, which adds less than it costs. -/
theorem coinSelection_throws : (ofValues [6, 6, 1]).coinSelection 8 2 false = none ∧
    ¬ IsRight ((ofValues [6, 6, 1]).unreserved false) 8 2 none := by
  refine ⟨by decide, fun right => ?_⟩
  have within := List.take_sublist 2 ((ofValues [6, 6, 1]).unreserved false)
  exact absurd (right _ within.subperm) (by decide)

end BtcUtxosCoinSelection

end Lrc20.Sdk
