import Lrc20.Lib.Largest
import Lrc20.Receipts.Receipt

/-! The coin selection of the wallet library. -/

open scoped List
open Largest

namespace Lrc20.DevKit

/-- What a selection reads of an output. -/
structure Utxo where
  outpoint : OutPoint
  scriptPubkey : ScriptBuf
  receipt : Receipt

def amount (utxo : Utxo) : Nat := utxo.receipt.tokenAmount.amount.val

/-- `sort_unstable_by_key` by the amount, which leaves the order of equal amounts open. -/
structure SortsByAmount (sort : List Utxo → List Utxo) : Prop where
  perm : ∀ utxos, sort utxos ~ utxos
  sorted : ∀ utxos, (sort utxos).Pairwise fun a b => amount a ≤ amount b

/-- The `scan` of `select_sorted_utxos`, from the amount selected so far. It ends at the first
output that is not used. -/
def selectSortedUtxos (target : Nat) : Nat → List (Bool × Utxo) → List Utxo × Nat
  | selected, [] => ([], selected)
  | selected, (mustUse, utxo) :: rest =>
    if mustUse || selected < target then
      let (others, reported) :=
        selectSortedUtxos target ((selected + amount utxo) % 2 ^ 128) rest
      (utxo :: others, reported)
    else ([], selected)

/-- The optional outputs that are retained. -/
def retained (token : TokenPubkey) (optional : List Utxo) : List Utxo :=
  optional.filter fun utxo =>
    utxo.receipt.tokenPubkey = token && !utxo.scriptPubkey.isOpReturn

/-- `Lrc20LargestFirstCoinSelection::coin_select`. -/
def coinSelect (sort : List Utxo → List Utxo) (required optional : List Utxo) (target : Nat)
    (token : TokenPubkey) : List Utxo × Nat :=
  selectSortedUtxos target 0
    (required.map (true, ·) ++ (sort (retained token optional)).reverse.map (false, ·))

variable {target : Nat}

theorem selectSortedUtxos_required (rest : List (Bool × Utxo)) (required : List Utxo) :
    ∀ selected, selected + total amount required < 2 ^ 128 →
      selectSortedUtxos target selected (required.map (true, ·) ++ rest) =
        (required ++ (selectSortedUtxos target (selected + total amount required) rest).1,
          (selectSortedUtxos target (selected + total amount required) rest).2) := by
  induction required with
  | nil => simp [total]
  | cons utxo others ih =>
    intro selected fits
    simp only [total, List.map_cons, List.sum_cons] at fits ih ⊢
    rw [List.cons_append, selectSortedUtxos, if_pos (Bool.true_or _), Nat.mod_eq_of_lt (by omega),
      ih _ (by omega), Nat.add_assoc]
    rfl

/-- Optional outputs are taken from the front until they suffice, and the last one is needed. -/
theorem selectSortedUtxos_optional (utxos : List Utxo) :
    ∀ selected, selected + total amount utxos < 2 ^ 128 →
      ∃ picked, picked <+: utxos ∧
        selectSortedUtxos target selected (utxos.map (false, ·)) =
          (picked, selected + total amount picked) ∧
        (picked = utxos ∨ target ≤ selected + total amount picked) ∧
        (picked ≠ [] → selected + total amount picked.dropLast < target) := by
  induction utxos with
  | nil => exact fun selected _ => ⟨[], by simp [selectSortedUtxos, total]⟩
  | cons utxo others ih =>
    intro selected fits
    simp only [total, List.map_cons, List.sum_cons] at fits ih
    by_cases short : selected < target
    · obtain ⟨picked, front, ends, stops, needed⟩ := ih (selected + amount utxo) (by omega)
      refine ⟨utxo :: picked, List.cons_prefix_cons.mpr ⟨rfl, front⟩, ?_, ?_, fun _ => ?_⟩
      · simp only [total, List.map_cons, List.sum_cons, selectSortedUtxos]
        rw [if_pos (by simpa using short), Nat.mod_eq_of_lt (by omega), ends, Nat.add_assoc]
      · rw [total, List.map_cons, List.sum_cons, ← Nat.add_assoc, List.cons_inj_right]
        exact stops
      · cases picked with
        | nil => simpa [total] using short
        | cons next later =>
          have := needed (List.cons_ne_nil _ _)
          simp only [total, List.dropLast_cons_cons, List.map_cons, List.sum_cons] at this ⊢
          omega
    · refine ⟨[], List.nil_prefix, ?_, .inr ?_, by simp⟩
      · simp [selectSortedUtxos, short, total]
      · simpa [total] using short

/-- The selection is all required outputs and, by descending amount, the first of those retained.
It is worth what is reported, which is the target if all of them are worth that, and less would be
with fewer of them. -/
theorem largest_first_least {sort : List Utxo → List Utxo} (sorts : SortsByAmount sort)
    (required optional : List Utxo) (fits : total amount (required ++ optional) < 2 ^ 128)
    (target : Nat) (token : TokenPubkey) :
    ∃ ordered picked, ordered ~ retained token optional ∧
      ordered.Pairwise (fun a b => amount b ≤ amount a) ∧ picked <+: ordered ∧
      coinSelect sort required optional target token =
        (required ++ picked, total amount (required ++ picked)) ∧
      (target ≤ total amount (required ++ ordered) → target ≤ total amount (required ++ picked)) ∧
      ∀ chosen, chosen <+~ retained token optional → chosen.length < picked.length →
        total amount (required ++ chosen) < target := by
  have append : ∀ a b : List Utxo, total amount (a ++ b) = total amount a + total amount b := by
    simp [total]
  let ordered := (sort (retained token optional)).reverse
  have same : ordered ~ retained token optional := (List.reverse_perm _).trans (sorts.perm _)
  have sorted : ordered.Pairwise fun a b => amount b ≤ amount a :=
    List.pairwise_reverse.mpr (sorts.sorted _)
  have less : total amount ordered ≤ total amount optional :=
    total_le amount (same.subperm.trans List.filter_sublist.subperm)
  rw [append] at fits
  obtain ⟨picked, front, ends, stops, needed⟩ :=
    @selectSortedUtxos_optional target ordered (total amount required) (by omega)
  refine ⟨ordered, picked, same, sorted, front, ?_, ?_, ?_⟩
  · rw [coinSelect, selectSortedUtxos_required _ _ 0 (by omega), Nat.zero_add, ends, append]
  · intro enough
    rcases stops with rfl | reached
    · exact enough
    · rwa [append]
  · intro chosen within fewer
    have best := total_le_take sorted (within.trans same.symm.subperm)
    have kept : ordered.take chosen.length <+: picked.dropLast :=
      List.prefix_of_prefix_length_le (List.take_prefix _ _) (picked.dropLast_prefix.trans front)
        (by simp; omega)
    have := needed (List.ne_nil_of_length_pos (by omega))
    have := total_le amount kept.sublist.subperm
    rw [append]
    omega

/-- An output that is worth so much. -/
def worth (value : U128) : Utxo := ⟨⟨0, 0⟩, [], ⟨TokenAmount.new value, zeroPublicKey⟩⟩

theorem largest_first_least_of_two :
    ∃ picked, coinSelect (fun utxos => (descending amount utxos).reverse) [worth 1]
        [worth 2, worth 5] 6 zeroPublicKey =
      ([worth 1] ++ picked, total amount ([worth 1] ++ picked)) := by
  have sorts : SortsByAmount fun utxos => (descending amount utxos).reverse := by
    refine ⟨fun utxos => (List.reverse_perm _).trans (descending_perm _ _), fun utxos => ?_⟩
    exact List.pairwise_reverse.mpr (descending_sorted amount utxos)
  obtain ⟨_, picked, -, -, -, selected, -⟩ :=
    largest_first_least sorts [worth 1] [worth 2, worth 5] (by decide +kernel) 6 zeroPublicKey
  exact ⟨picked, selected⟩

end Lrc20.DevKit
