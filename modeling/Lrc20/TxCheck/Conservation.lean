import Lrc20.TxCheck.Bulletproofs
import Lrc20.TxCheck.Spark

/-! What the two conservation checks decide: that of proofs and that of Spark leaves. -/

open FixedWidth Tally

namespace Lrc20.TxCheck

open PublicKey TokenLeafOutput

namespace WithBulletproofs

section Proofs

variable {α : Type} {proofs : List (ProofForCheck α)}

/-- What the proofs that are not empty amount to in one token. -/
def provedAmount (token : TokenPubkey) (proofs : List (ProofForCheck α)) : Nat :=
  exactSum ((proofs.filter fun proof => !isEmptyReceiptproof proof.inner &&
    proof.inner.receipt.tokenPubkey = token).map fun proof => proof.inner.receipt.tokenAmount.amount)

/-- A proof that no sum takes notice of. -/
def Negligible (proof : ProofForCheck α) : Prop :=
  isEmptyReceiptproof proof.inner ∨ proof.inner.receipt.tokenAmount.amount = 0

theorem countedAmounts_nonzero (proofs : List (ProofForCheck α)) :
    ∀ entry ∈ countedAmounts proofs, entry.2.val ≠ 0 := by
  intro entry mem
  simp only [countedAmounts, List.mem_map, List.mem_filter, Bool.and_eq_true] at mem
  obtain ⟨proof, ⟨-, -, amount⟩, rfl⟩ := mem
  rw [bne_iff_ne] at amount
  exact fun zero => amount (Fin.ext zero)

theorem total_countedAmounts (token : TokenPubkey) (proofs : List (ProofForCheck α)) :
    total token (countedAmounts proofs) = provedAmount token proofs := by
  induction proofs with
  | nil => rfl
  | cons proof rest ih =>
    unfold countedAmounts provedAmount at ih ⊢
    by_cases empty : isEmptyReceiptproof proof.inner
    · simpa [empty] using ih
    · by_cases zero : proof.inner.receipt.tokenAmount.amount = 0
      · by_cases own : proof.inner.receipt.tokenPubkey = token
        · simpa [empty, zero, own] using ih
        · simpa [empty, zero, own] using ih
      · by_cases own : proof.inner.receipt.tokenPubkey = token
        · simpa [empty, zero, own, total_cons] using ih
        · simpa [empty, zero, own, total_cons] using ih

theorem provedAmount_perm (token : TokenPubkey) {proofs' : List (ProofForCheck α)}
    (perm : proofs'.Perm proofs) : provedAmount token proofs' = provedAmount token proofs :=
  exactSum_perm ((perm.filter _).map _)

theorem provedAmount_append (token : TokenPubkey) (a b : List (ProofForCheck α)) :
    provedAmount token (a ++ b) = provedAmount token a + provedAmount token b := by
  simp [provedAmount]

theorem provedAmount_negligible (token : TokenPubkey)
    (negligible : ∀ proof ∈ proofs, Negligible proof) : provedAmount token proofs = 0 := by
  rw [← total_countedAmounts]
  have dropped : countedAmounts proofs = [] := by
    simp only [countedAmounts, List.map_eq_nil_iff, List.filter_eq_nil_iff]
    intro proof mem
    rcases negligible proof mem with empty | zero
    · simp [empty]
    · simp [zero]
  rw [dropped, total_nil]

end Proofs

theorem checkConservationRules_congr {inputs inputs' : List (ProofForCheck TxIn)}
    {outputs outputs' : List (ProofForCheck TxOut)}
    (sameIn : ∀ token, provedAmount token inputs' = provedAmount token inputs)
    (sameOut : ∀ token, provedAmount token outputs' = provedAmount token outputs) :
    checkConservationRules inputs' outputs' = checkConservationRules inputs outputs := by
  have tallies : ∀ {α : Type} {proofs proofs' : List (ProofForCheck α)},
      (∀ token, provedAmount token proofs' = provedAmount token proofs) →
      tally (countedAmounts proofs') ∅ = tally (countedAmounts proofs) ∅ := by
    intro α proofs proofs' same
    have totals : ∀ token, total token (countedAmounts proofs') =
        total token (countedAmounts proofs) := by
      intro token
      rw [total_countedAmounts, total_countedAmounts, same]
    apply tally_eq_of_totals _ totals
    intro token
    rw [mem_keys_iff (countedAmounts_nonzero _), mem_keys_iff (countedAmounts_nonzero _), totals]
  unfold checkConservationRules
  rw [tallies sameIn, tallies sameOut]

theorem checkConservationRules_iff (inputs : List (ProofForCheck TxIn))
    (outputs : List (ProofForCheck TxOut)) :
    checkConservationRules inputs outputs = .ok () ↔
      ∀ token, provedAmount token inputs < 2 ^ 128 ∧ provedAmount token outputs < 2 ^ 128 ∧
        provedAmount token inputs = provedAmount token outputs := by
  have accepted : checkConservationRules inputs outputs = .ok () ↔
      ∃ sums, tally (countedAmounts inputs) ∅ = some sums ∧
        tally (countedAmounts outputs) ∅ = some sums := by
    unfold checkConservationRules
    cases tally (countedAmounts inputs) ∅ <;> cases tally (countedAmounts outputs) ∅ <;> simp
    exact eq_comm
  rw [accepted, tallies_agree_iff]
  constructor
  · rintro ⟨-, totals⟩ token
    obtain ⟨same, fits⟩ := totals token
    rw [total_countedAmounts, total_countedAmounts] at same
    rw [total_countedAmounts] at fits
    exact ⟨fits, same ▸ fits, same⟩
  · intro sums
    have totals : ∀ token, total token (countedAmounts inputs) =
        total token (countedAmounts outputs) := by
      intro token
      rw [total_countedAmounts, total_countedAmounts, (sums token).2.2]
    refine ⟨fun token => ?_, fun token => ⟨totals token, ?_⟩⟩
    · rw [mem_keys_iff (countedAmounts_nonzero _), mem_keys_iff (countedAmounts_nonzero _), totals]
    · rw [total_countedAmounts]
      exact (sums token).1

/-- The build without the feature knows the other kinds of proofs. -/
def ProofForCheck.ofPlain {α : Type} (gathered : TxCheck.ProofForCheck α) : ProofForCheck α :=
  ⟨gathered.statement, gathered.vout, .plain gathered.inner⟩

theorem countedAmounts_ofPlain {α : Type} (proofs : List (TxCheck.ProofForCheck α)) :
    countedAmounts (proofs.map .ofPlain) = TxCheck.countedAmounts proofs := by
  unfold countedAmounts TxCheck.countedAmounts
  rw [List.filter_map, List.map_map]
  rfl

theorem checkConservationRules_ofPlain (inputs : List (TxCheck.ProofForCheck TxIn))
    (outputs : List (TxCheck.ProofForCheck TxOut)) :
    checkConservationRules (inputs.map .ofPlain) (outputs.map .ofPlain) =
      (TxCheck.checkConservationRules inputs outputs).mapError .common := by
  unfold checkConservationRules TxCheck.checkConservationRules
  rw [countedAmounts_ofPlain, countedAmounts_ofPlain]
  cases tally (TxCheck.countedAmounts inputs) ∅ with
  | none => rfl
  | some inputSums =>
    cases tally (TxCheck.countedAmounts outputs) ∅ with
    | none => rfl
    | some outputSums =>
      by_cases same : inputSums = outputSums
      · simp [same, Except.mapError]
      · simp [same, Except.mapError]

/-- The check accepts exactly when every sum fits and inputs and outputs amount to the same; the
order of the proofs and what is worth nothing do not matter. A build without the feature checks
the kinds of proofs it has in the same way. -/
theorem conservation_check_exact (inputs : List (ProofForCheck TxIn))
    (outputs : List (ProofForCheck TxOut)) :
    (checkConservationRules inputs outputs = .ok () ↔
      ∀ token, provedAmount token inputs < 2 ^ 128 ∧ provedAmount token outputs < 2 ^ 128 ∧
        provedAmount token inputs = provedAmount token outputs) ∧
    (∀ (inputs' moreInputs : List (ProofForCheck TxIn))
        (outputs' moreOutputs : List (ProofForCheck TxOut)),
      (∀ proof ∈ moreInputs, Negligible proof) → (∀ proof ∈ moreOutputs, Negligible proof) →
      inputs'.Perm (moreInputs ++ inputs) → outputs'.Perm (moreOutputs ++ outputs) →
      checkConservationRules inputs' outputs' = checkConservationRules inputs outputs) ∧
    ∀ (plainInputs : List (TxCheck.ProofForCheck TxIn))
        (plainOutputs : List (TxCheck.ProofForCheck TxOut)),
      (TxCheck.checkConservationRules plainInputs plainOutputs).mapError .common =
        checkConservationRules (plainInputs.map .ofPlain) (plainOutputs.map .ofPlain) := by
  refine ⟨checkConservationRules_iff inputs outputs, ?_,
    fun plainInputs plainOutputs => (checkConservationRules_ofPlain plainInputs plainOutputs).symm⟩
  intro inputs' moreInputs outputs' moreOutputs negligibleIn negligibleOut permIn permOut
  apply checkConservationRules_congr
  · intro token
    rw [provedAmount_perm token permIn, provedAmount_append,
      provedAmount_negligible token negligibleIn, Nat.zero_add]
  · intro token
    rw [provedAmount_perm token permOut, provedAmount_append,
      provedAmount_negligible token negligibleOut, Nat.zero_add]

def tokenReceipt (amount : U128) : Receipt := ⟨TokenAmount.new amount, repeating 3⟩

def proofOf {α : Type} (statement : α) (proof : ReceiptProof) : ProofForCheck α :=
  ⟨statement, 0, .plain proof⟩

def spendsSeven : ProofForCheck TxIn :=
  proofOf ⟨⟨1, 0⟩, [], []⟩ (.sig ⟨tokenReceipt 7, repeating 5, none⟩)

def createsSeven : ProofForCheck TxOut :=
  proofOf ⟨[]⟩ (.multisig ⟨tokenReceipt 7, [repeating 5], 1⟩)

def createsNothing : ProofForCheck TxOut := proofOf ⟨[]⟩ (.emptyReceipt ⟨repeating 5⟩)

/-- Seven are spent and created, beside an output without a receipt. -/
theorem conservation_check_exact_seven :
    Negligible createsNothing ∧
      checkConservationRules [spendsSeven] [createsSeven, createsNothing] =
        checkConservationRules [spendsSeven] [createsSeven] := by
  have negligible : Negligible createsNothing := .inl rfl
  refine ⟨negligible, ?_⟩
  apply (conservation_check_exact [spendsSeven] [createsSeven]).2.1 _ [] _ [createsNothing]
  · simp
  · simpa using negligible
  · exact .refl _
  · exact .swap _ _ _

end WithBulletproofs

/-! ### Spark leaves -/

/-- What leaves amount to in one token. -/
def tokenSum (token : TokenPubkey) (leaves : List TokenLeafOutput) : Nat :=
  exactSum ((leaves.filter fun leaf => leaf.tokenPubkey = token).map TokenLeafOutput.amount)

/-- What a leaf is worth: its token and its amount, which the hash of its transaction covers
and the storage keeps. -/
def worth (leaf : TokenLeafOutput) : TokenPubkey × U128 := (leaf.tokenPubkey, leaf.amount)

theorem tokenSum_eq_total (token : TokenPubkey) (leaves : List TokenLeafOutput) :
    tokenSum token leaves = total token (leaves.map worth) := by
  unfold tokenSum total
  rw [List.filter_map, List.map_map]
  rfl

theorem sumAmountByTokenPubkey_eq_tally (leaves : List TokenLeafOutput)
    (sums : Finmap fun _ : TokenPubkey => U128) :
    sumAmountByTokenPubkey leaves sums = tally (leaves.map worth) sums := by
  induction leaves generalizing sums with
  | nil => rfl
  | cons leaf rest ih =>
    unfold sumAmountByTokenPubkey
    rw [List.map_cons]
    unfold tally
    simp only [ih]
    rfl

/-- Leaves whose amounts add up below the limit in every token. -/
def SumsFit (leaves : List TokenLeafOutput) : Prop :=
  ∀ token, tokenSum token leaves < 2 ^ 128

variable {leaves spent created : List TokenLeafOutput}

def tokens (leaves : List TokenLeafOutput) : List TokenPubkey := leaves.map tokenPubkey

theorem keys_worth (leaves : List TokenLeafOutput) :
    (leaves.map worth).map Prod.fst = tokens leaves := by
  rw [List.map_map]
  rfl

/-- The two sides amount to the same in every token, within the limit. -/
def Conserved (spent created : List TokenLeafOutput) : Prop :=
  ∀ token, tokenSum token spent = tokenSum token created ∧ tokenSum token spent < 2 ^ 128

theorem tally_eq_none_iff : tally (leaves.map worth) ∅ = none ↔ ¬ SumsFit leaves := by
  constructor
  · intro failed fit
    obtain ⟨sums, added⟩ := tally_of_fit fun token => (tokenSum_eq_total token leaves) ▸ fit token
    cases failed.symm.trans added
  · intro overflow
    by_contra added
    obtain ⟨sums, added⟩ := Option.ne_none_iff_exists'.mp added
    apply overflow
    intro token
    rw [tokenSum_eq_total]
    exact total_lt_of_tally added token

/-- The check accepts when both sides overflow, and when they name the same tokens and amount
to the same in each. -/
theorem checkSparkConservationRules_iff :
    checkSparkConservationRules spent created = true ↔ ¬ SumsFit spent ∧ ¬ SumsFit created ∨
      (∀ token, token ∈ tokens spent ↔ token ∈ tokens created) ∧ Conserved spent created := by
  have agree := tallies_agree_iff (a := spent.map worth) (b := created.map worth)
  simp only [keys_worth, ← tokenSum_eq_total] at agree
  unfold Conserved
  rw [← agree, ← tally_eq_none_iff, ← tally_eq_none_iff, checkSparkConservationRules,
    sumAmountByTokenPubkey_eq_tally, sumAmountByTokenPubkey_eq_tally, decide_eq_true_eq]
  cases tally (spent.map worth) ∅ with
  | none =>
    cases tally (created.map worth) ∅ with
    | none => simp
    | some sums => simp
  | some sums =>
    cases tally (created.map worth) ∅ with
    | none => simp
    | some sums' => simpa using eq_comm

/-- Conservation holds token by token unless both sums overflow. -/
theorem tokenSum_of_conserved (conserved : checkSparkConservationRules spent created)
    (fit : SumsFit spent ∨ SumsFit created) (token : TokenPubkey) :
    tokenSum token spent = tokenSum token created := by
  rcases checkSparkConservationRules_iff.mp conserved with overflow | ⟨-, sums⟩
  · rcases fit with fit | fit
    · exact absurd fit overflow.1
    · exact absurd fit overflow.2
  · exact (sums token).1

/-- One of the two sums fits, and sides that amount to the same name the same tokens. -/
structure Comparable (spent created : List TokenLeafOutput) : Prop where
  fit : SumsFit spent ∨ SumsFit created
  named : (∀ token, tokenSum token spent = tokenSum token created) →
    ∀ token, token ∈ tokens spent ↔ token ∈ tokens created

/-- The check is a test of conservation exactly for comparable sides. -/
theorem decides_conserved_iff : (checkSparkConservationRules spent created = true ↔
    Conserved spent created) ↔ Comparable spent created := by
  rw [checkSparkConservationRules_iff]
  constructor
  · intro decides
    have fit : SumsFit spent ∨ SumsFit created := by
      by_contra overflow
      have sums := decides.mp (.inl (not_or.mp overflow))
      exact overflow (.inl fun token => (sums token).2)
    refine ⟨fit, fun same => ?_⟩
    have conserved : Conserved spent created := by
      intro token
      refine ⟨same token, ?_⟩
      rcases fit with fit | fit
      · exact fit token
      · rw [same token]
        exact fit token
    rcases decides.mpr conserved with overflow | ⟨named, -⟩
    · exact absurd (fun token => (conserved token).2) overflow.1
    · exact named
  · rintro ⟨fit, named⟩
    constructor
    · rintro (overflow | ⟨-, conserved⟩)
      · exact absurd fit (not_or.mpr overflow)
      · exact conserved
    · intro conserved
      exact .inr ⟨named fun token => (conserved token).1, conserved⟩

theorem tokenSum_of_zero {leaf : TokenLeafOutput} (zero : leaf.amount = 0)
    {leaves' : List TokenLeafOutput} (perm : leaves'.Perm (leaf :: leaves)) (token : TokenPubkey) :
    tokenSum token leaves' = tokenSum token leaves := by
  have worthless : (worth leaf).2.val = 0 := congrArg Fin.val zero
  rw [tokenSum_eq_total, tokenSum_eq_total, total_perm token (perm.map worth), List.map_cons,
    total_cons, worthless]
  simp

/-- Two pairs of sides with the same sums get the same verdict when both are comparable, and
when both are not. -/
theorem verdict_eq_iff {spent' created' : List TokenLeafOutput}
    (same : Conserved spent' created' ↔ Conserved spent created) :
    checkSparkConservationRules spent' created' = checkSparkConservationRules spent created ↔
      (Comparable spent' created' ↔ Comparable spent created) := by
  rw [← decides_conserved_iff, ← decides_conserved_iff, same, Bool.eq_iff_iff]
  by_cases conserved : Conserved spent created
  · simp only [conserved, iff_true]
  · simp only [conserved, iff_false, not_iff_not]

/-- The check accepts exactly what is conserved where the sides are comparable and nowhere else;
it refuses an overflow where one side fits; and a leaf without an amount changes its verdict
exactly where it makes comparable sides incomparable or the other way. -/
theorem spark_conservation_exact (spent created : List TokenLeafOutput) :
    ((checkSparkConservationRules spent created = true ↔ Conserved spent created) ↔
      Comparable spent created) ∧
    ((¬ SumsFit spent ∨ ¬ SumsFit created → checkSparkConservationRules spent created = false) ↔
      SumsFit spent ∨ SumsFit created) ∧
    ∀ leaf : TokenLeafOutput, leaf.amount = 0 →
      (∀ spent', spent'.Perm (leaf :: spent) →
        (checkSparkConservationRules spent' created = checkSparkConservationRules spent created ↔
          (Comparable spent' created ↔ Comparable spent created))) ∧
      ∀ created', created'.Perm (leaf :: created) →
        (checkSparkConservationRules spent created' = checkSparkConservationRules spent created ↔
          (Comparable spent created' ↔ Comparable spent created)) := by
  refine ⟨decides_conserved_iff, ⟨?_, ?_⟩, ?_⟩
  · intro refused
    by_contra overflow
    have accepted := checkSparkConservationRules_iff.mpr (.inl (not_or.mp overflow))
    rw [refused (.inl (not_or.mp overflow).1)] at accepted
    cases accepted
  · intro fit overflow
    rw [Bool.eq_false_iff]
    intro accepted
    rcases checkSparkConservationRules_iff.mp accepted with neither | ⟨-, sums⟩
    · exact absurd fit (not_or.mpr neither)
    · rcases overflow with overflow | overflow
      · exact overflow fun token => (sums token).2
      · exact overflow fun token => (sums token).1 ▸ (sums token).2
  · intro leaf zero
    constructor
    · intro spent' perm
      apply verdict_eq_iff
      simp only [Conserved, tokenSum_of_zero zero perm]
    · intro created' perm
      apply verdict_eq_iff
      simp only [Conserved, tokenSum_of_zero zero perm]

def leafOf (token : UInt8) (amount : U128) : TokenLeafOutput where
  id := "leaf"
  ownerPublicKey := repeating 1
  revocationPublicKey := repeating 2
  withdrawalBondSats := 0
  withdrawalLocktime := 0
  receipt := ⟨TokenAmount.new amount, repeating token⟩
  isFrozen := none
  withdrawTxid := none
  withdrawTxVout := none
  withdrawHeight := none
  withdrawBlockHash := none

/-- Seven become three and four, and a leaf of nothing. -/
theorem spark_conservation_exact_seven :
    Comparable [leafOf 1 7] [leafOf 1 3, leafOf 1 4] ∧
      checkSparkConservationRules [leafOf 1 7] [leafOf 1 3, leafOf 1 4, leafOf 1 0] =
        checkSparkConservationRules [leafOf 1 7] [leafOf 1 3, leafOf 1 4] := by
  have sums : ∀ token, tokenSum token [leafOf 1 7] ≤ 7 := fun token =>
    exactSum_le_of_sublist (List.filter_sublist.map TokenLeafOutput.amount)
  have fit : SumsFit [leafOf 1 7] := fun token => Nat.lt_of_le_of_lt (sums token) (by decide)
  have comparable : Comparable [leafOf 1 7] [leafOf 1 3, leafOf 1 4] := by
    refine ⟨.inl fit, fun _ token => ?_⟩
    simp [tokens, leafOf, tokenPubkey]
  have comparable' : Comparable [leafOf 1 7] [leafOf 1 3, leafOf 1 4, leafOf 1 0] := by
    refine ⟨.inl fit, fun _ token => ?_⟩
    simp [tokens, leafOf, tokenPubkey]
  refine ⟨comparable, ?_⟩
  have unchanged := ((spark_conservation_exact [leafOf 1 7] [leafOf 1 3, leafOf 1 4]).2.2
    (leafOf 1 0) rfl).2 _ (List.perm_append_singleton (leafOf 1 0) [leafOf 1 3, leafOf 1 4])
  exact unchanged.mpr (iff_of_true comparable' comparable)

/-- Two sums that overflow count as the same, and a leaf of nothing in a token of its own makes
the two sides differ. -/
theorem overflow_passes_spark_conservation :
    checkSparkConservationRules [leafOf 1 (2 ^ 128 - 1), leafOf 1 1]
        [leafOf 2 (2 ^ 128 - 1), leafOf 2 1] = true ∧
      tokenSum (repeating 2) [leafOf 1 (2 ^ 128 - 1), leafOf 1 1] = 0 ∧
      tokenSum (repeating 2) [leafOf 2 (2 ^ 128 - 1), leafOf 2 1] = 2 ^ 128 ∧
      checkSparkConservationRules [leafOf 1 7] [leafOf 1 7] = true ∧
      checkSparkConservationRules [leafOf 1 7] [leafOf 1 7, leafOf 2 0] = false := by
  decide +kernel

end Lrc20.TxCheck
