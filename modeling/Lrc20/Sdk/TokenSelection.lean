import Lrc20.Lib.Largest

/-! The selection of tokens in the Python library. -/

open scoped List
open Largest

namespace Lrc20.Sdk

/-- What `CoinSelector` reads of an output. -/
structure Lrc20Utxo where
  txid : String
  vout : Nat
  tokenPubkey : String
  tokenAmount : Nat
deriving DecidableEq

open Lrc20Utxo

/-- The loop of `select_lrc20_utxos` for one token, from the amount selected so far: what it
selects, what it skips and what it leaves in the queue, or nothing where the queue runs out. -/
def selectToken (token : String) (amount : Nat) :
    Nat → List Lrc20Utxo → Option (List Lrc20Utxo × List Lrc20Utxo × List Lrc20Utxo)
  | selected, [] => if selected < amount then none else some ([], [], [])
  | selected, utxo :: queue =>
    if selected < amount then
      if utxo.tokenPubkey ≠ token then
        (selectToken token amount selected queue).map fun (taken, skipped, left) =>
          (taken, utxo :: skipped, left)
      else
        (selectToken token amount (selected + utxo.tokenAmount) queue).map
          fun (taken, skipped, left) => (utxo :: taken, skipped, left)
    else some ([], [], utxo :: queue)

/-- The loop over the amounts: the outputs and the change. -/
def selectTokens :
    List (String × Nat) → List Lrc20Utxo → Option (List Lrc20Utxo × List (String × Nat))
  | [], _ => some ([], [])
  | (token, amount) :: rest, queue =>
    match selectToken token amount 0 queue with
    | none => none
    | some (taken, skipped, left) =>
      (selectTokens rest (left ++ skipped)).map fun (selected, change) =>
        let surplus := total tokenAmount taken - amount
        (taken ++ selected, if surplus > 0 then (token, surplus) :: change else change)

/-- `select_lrc20_utxos`, with its dictionaries as their items. -/
def selectLrc20Utxos (utxos : List Lrc20Utxo) (amounts : List (String × Nat)) :
    Option (List Lrc20Utxo × List (String × Nat)) :=
  if utxos = [] then none else selectTokens amounts utxos

def ofToken (token : String) (utxos : List Lrc20Utxo) : List Lrc20Utxo :=
  utxos.filter fun utxo => utxo.tokenPubkey = token

/-- What a dictionary has for a token, zero where it has nothing. -/
def amountFor (items : List (String × Nat)) (token : String) : Nat := (items.lookup token).getD 0

/-- The outputs of a token are worth the amount and the change, and less without the last. -/
def Covers (selected : List Lrc20Utxo) (change : List (String × Nat)) (token : String)
    (amount : Nat) : Prop :=
  total tokenAmount (ofToken token selected) = amount + amountFor change token ∧
    (ofToken token selected ≠ [] → total tokenAmount (ofToken token selected).dropLast < amount)

section Loops

variable {token other : String} {amount surplus selected : Nat}
  {queue taken rest : List Lrc20Utxo} {amounts items : List (String × Nat)}

theorem ofToken_append (a b : List Lrc20Utxo) :
    ofToken token (a ++ b) = ofToken token a ++ ofToken token b :=
  List.filter_append ..

theorem amountFor_cons : amountFor ((token, surplus) :: items) other =
    if other = token then surplus else amountFor items other := by
  unfold amountFor
  rw [List.lookup_cons]
  split <;> simp_all

/-- Outputs of the token are taken until they suffice, and all others are kept. -/
structure Takes (token : String) (amount selected : Nat) (queue taken rest : List Lrc20Utxo) :
    Prop where
  perm : queue ~ taken ++ rest
  own : ∀ utxo ∈ taken, utxo.tokenPubkey = token
  enough : amount ≤ selected + total tokenAmount taken
  least : taken ≠ [] → selected + total tokenAmount taken.dropLast < amount

/-- What the loop for one token ends with. -/
def EndsToken (token : String) (amount selected : Nat) (queue : List Lrc20Utxo) :
    Option (List Lrc20Utxo × List Lrc20Utxo × List Lrc20Utxo) → Prop
  | none => selected + total tokenAmount (ofToken token queue) < amount
  | some (taken, skipped, left) => Takes token amount selected queue taken (left ++ skipped)

theorem endsToken_selectToken (queue : List Lrc20Utxo) : ∀ selected,
    EndsToken token amount selected queue (selectToken token amount selected queue) := by
  have nothing {selected : Nat} {queue : List Lrc20Utxo} (enough : ¬ selected < amount) :
      EndsToken token amount selected queue (some ([], [], queue)) :=
    ⟨by simp, by simp, by simpa [total] using enough, by simp⟩
  induction queue with
  | nil =>
    intro selected
    unfold selectToken
    split
    · simpa [EndsToken, total, ofToken]
    · exact nothing ‹_›
  | cons utxo queue ih =>
    intro selected
    unfold selectToken
    split
    · rename_i short
      split
      · rename_i different
        have next := ih selected
        cases found : selectToken token amount selected queue with
        | none => simpa [EndsToken, found, ofToken, different] using next
        | some parts =>
          rw [found] at next
          refine { next with perm := (next.perm.cons utxo).trans ?_ }
          rw [← List.append_assoc, ← List.append_assoc]
          exact List.perm_middle.symm
      · rename_i same
        rw [not_not] at same
        have next := ih (selected + utxo.tokenAmount)
        cases found : selectToken token amount (selected + utxo.tokenAmount) queue with
        | none => simpa [EndsToken, found, ofToken, same, total, Nat.add_assoc] using next
        | some parts =>
          rw [found] at next
          obtain ⟨perm, own, enough, least⟩ := next
          refine ⟨perm.cons utxo, List.forall_mem_cons.mpr ⟨same, own⟩, ?_, fun _ => ?_⟩
          · simpa [total, Nat.add_assoc] using enough
          · by_cases last : parts.1 = []
            · simpa [last, total] using short
            · simpa [List.dropLast_cons_of_ne_nil last, total, Nat.add_assoc] using least last
    · exact nothing ‹_›

/-- What the loop over the amounts ends with. -/
def EndsTokens (amounts : List (String × Nat)) (queue : List Lrc20Utxo) :
    Option (List Lrc20Utxo × List (String × Nat)) → Prop
  | none => ∃ token, total tokenAmount (ofToken token queue) < amountFor amounts token
  | some (selected, change) => selected <+~ queue ∧
      ∀ token, Covers selected change token (amountFor amounts token)

theorem endsTokens_selectTokens (distinct : (amounts.map Prod.fst).Nodup) :
    ∀ queue, EndsTokens amounts queue (selectTokens amounts queue) := by
  induction amounts with
  | nil =>
    intro queue
    simp [selectTokens, EndsTokens, Covers, amountFor, ofToken, total]
  | cons item amounts ih =>
    intro queue
    obtain ⟨token, amount⟩ := item
    obtain ⟨fresh, distinct⟩ := List.nodup_cons.mp distinct
    have once : amountFor amounts token = 0 := by
      have absent : amounts.lookup token = none := by
        refine List.lookup_eq_none_iff.mpr fun item mem => bne_iff_ne.mpr fun same => ?_
        exact fresh (List.mem_map.mpr ⟨item, mem, same.symm⟩)
      rw [amountFor, absent, Option.getD_none]
    have first := @endsToken_selectToken token amount queue 0
    unfold selectTokens
    cases found : selectToken token amount 0 queue with
    | none =>
      rw [found] at first
      refine ⟨token, ?_⟩
      rw [amountFor_cons, if_pos rfl]
      simpa [EndsToken] using first
    | some parts =>
      obtain ⟨taken, skipped, left⟩ := parts
      rw [found] at first
      have skips (other : String) (different : other ≠ token) : ofToken other taken = [] := by
        refine List.filter_eq_nil_iff.mpr fun utxo mem => ?_
        simpa [first.own utxo mem] using different.symm
      have later := ih distinct (left ++ skipped)
      cases rest : selectTokens amounts (left ++ skipped) with
      | none =>
        rw [rest] at later
        obtain ⟨other, short⟩ := later
        have different : other ≠ token := by
          rintro rfl
          simp [once] at short
        have same : ofToken other queue ~ ofToken other taken ++ ofToken other (left ++ skipped) := by
          rw [← ofToken_append]
          exact first.perm.filter _
        rw [skips other different, List.nil_append] at same
        simp only [rest]
        refine ⟨other, ?_⟩
        rwa [amountFor_cons, if_neg different, total_perm same]
      | some result =>
        obtain ⟨selected, change⟩ := result
        rw [rest] at later
        obtain ⟨within, covers⟩ := later
        simp only [rest]
        refine ⟨?_, fun other => ?_⟩
        · exact ((List.subperm_append_left taken).mpr within).trans first.perm.symm.subperm
        · have given := covers other
          unfold Covers
          rw [ofToken_append, amountFor_cons]
          by_cases same : other = token
          · subst same
            rw [once] at given
            have own : ofToken other taken = taken :=
              List.filter_eq_self.mpr (by simpa using first.own)
            have none : ofToken other selected = [] := by
              by_contra more
              exact absurd (given.2 more) (Nat.not_lt_zero _)
            have unchanged : amountFor change other = 0 := by
              simpa [none, total] using given.1.symm
            have enough := first.enough
            rw [if_pos rfl, own, none, List.append_nil]
            refine ⟨?_, by simpa using first.least⟩
            split
            · rw [amountFor_cons, if_pos rfl]
              omega
            · rw [unchanged]
              omega
          · rw [if_neg same, skips other same, List.nil_append]
            split
            · rw [amountFor_cons, if_neg same]
              exact given
            · exact given

end Loops

/-- For distinct outputs and an amount for each token, the selection succeeds exactly when there is
enough of every token. It takes outputs of the list, each once and only of the tokens asked for,
that cover the amounts. -/
theorem selectLrc20Utxos_correct {utxos : List Lrc20Utxo} (nonempty : utxos ≠ [])
    (nodup : utxos.Nodup) {amounts : List (String × Nat)} (distinct : (amounts.map Prod.fst).Nodup) :
    ((selectLrc20Utxos utxos amounts).isSome ↔
      ∀ token, amountFor amounts token ≤ total tokenAmount (ofToken token utxos)) ∧
    ∀ selected change, selectLrc20Utxos utxos amounts = some (selected, change) →
      selected.Nodup ∧ selected ⊆ utxos ∧
      (∀ utxo ∈ selected, 0 < amountFor amounts utxo.tokenPubkey) ∧
      ∀ token, Covers selected change token (amountFor amounts token) := by
  have ends := endsTokens_selectTokens distinct utxos
  rw [selectLrc20Utxos, if_neg nonempty]
  cases result : selectTokens amounts utxos with
  | none =>
    rw [result] at ends
    obtain ⟨token, short⟩ := ends
    refine ⟨iff_of_false (by simp) fun enough => ?_, nofun⟩
    exact absurd (enough token) (Nat.not_le.mpr short)
  | some parts =>
    rw [result] at ends
    obtain ⟨within, covers⟩ := ends
    constructor
    · refine iff_of_true rfl fun token => ?_
      have part := total_le tokenAmount (within.filter fun utxo => utxo.tokenPubkey = token)
      exact (Nat.le_of_add_right_le (covers token).1.ge).trans part
    · rintro selected change same
      cases same
      obtain ⟨picked, perm, inOrder⟩ := id within
      refine ⟨perm.nodup_iff.mp (inOrder.nodup nodup), within.subset, fun utxo mem => ?_, covers⟩
      have own : utxo ∈ ofToken utxo.tokenPubkey selected :=
        List.mem_filter.mpr ⟨mem, decide_eq_true rfl⟩
      exact Nat.zero_lt_of_lt ((covers utxo.tokenPubkey).2 (List.ne_nil_of_mem own))

/-- An output of each token, with change from the first. -/
theorem selectLrc20Utxos_correct_two_tokens :
    let utxos : List Lrc20Utxo := [⟨"a", 0, "T", 3⟩, ⟨"b", 0, "U", 5⟩, ⟨"c", 1, "T", 4⟩]
    (selectLrc20Utxos utxos [("U", 2), ("T", 4)]).isSome ↔
      ∀ token, amountFor [("U", 2), ("T", 4)] token ≤ total tokenAmount (ofToken token utxos) :=
  (selectLrc20Utxos_correct (by decide) (by decide) (by decide)).1

end Lrc20.Sdk
