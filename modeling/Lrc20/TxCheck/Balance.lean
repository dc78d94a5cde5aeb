import Lrc20.Lib.Flow
import Lrc20.TxCheck.Conservation
import Lrc20.TxCheck.Coverage
import Lrc20.TxCheck.Exit

/-! What a transaction takes from outputs and puts into outputs, and that one which passes the
checks puts in no more than it takes, issues and withdraws from Spark. -/

open FixedWidth Flow Lrc20.Storage Outcome

namespace Lrc20

open Receipt Lrc20Transaction ReceiptProof

/-- What a receipt is worth in one token. -/
def Receipt.amountOf (token : TokenPubkey) (receipt : Receipt) : Nat :=
  if receipt.tokenPubkey = token then receipt.tokenAmount.amount.val else 0

theorem Receipt.amountOf_le (token : TokenPubkey) (receipt : Receipt) :
    receipt.amountOf token ≤ receipt.tokenAmount.amount.val := by
  unfold amountOf
  split <;> omega

theorem ReceiptProof.amountOf_of_empty {proof : ReceiptProof}
    (empty : proof.isEmptyReceiptproof = true) (token : TokenPubkey) :
    proof.receipt.amountOf token = 0 := by
  cases proof with
  | emptyReceipt proof =>
    unfold amountOf
    split <;> rfl
  | _ => cases empty

namespace Lrc20Transaction

/-- The outputs with a proof and what is in them. -/
def produced (tx : Lrc20Transaction) : List (OutPoint × Receipt) :=
  tx.outputs.map fun entry => (⟨tx.txid, entry.1⟩, entry.2.receipt)

/-- The outputs a transfer takes tokens from and what its proofs say is in them. -/
def consumed (tx : Lrc20Transaction) : List (OutPoint × Receipt) :=
  tx.spends.map fun spent => (spent.1, spent.2.receipt)

end Lrc20Transaction

namespace TxCheck

def issueAmount (token : TokenPubkey) (tx : Lrc20Transaction) : Nat :=
  match tx.txType with
  | .issue _ announcement =>
    if announcement.tokenPubkey = token then announcement.amount.val else 0
  | _ => 0

/-- The leaves a transaction has withdrawn and what was in them. -/
def withdrawals (tables : SparkTables) (txid : Txid) : List (SparkOutPoint × Receipt) :=
  (tables.allOutputs.filter fun leaf => leaf.2.withdrawTxid = some txid).map fun leaf =>
    (leaf.1, leaf.2.toLeaf.receipt)

/-- What an exit withdraws. -/
def withdrawnAmount (tables : SparkTables) (token : TokenPubkey) (tx : Lrc20Transaction) : Nat :=
  match tx.txType with
  | .sparkExit _ => total (amountOf token) (withdrawals tables tx.txid)
  | _ => 0

section Sums

variable {α : Type} {token : TokenPubkey}

/-- What the receipts of proofs are worth in one token. -/
def amountIn (token : TokenPubkey) (proofs : List (Nat × ReceiptProof)) : Nat :=
  (proofs.map fun entry => entry.2.receipt.amountOf token).sum

@[simp] theorem amountIn_nil : amountIn token [] = 0 := rfl

@[simp] theorem amountIn_cons (entry : Nat × ReceiptProof) (rest : List (Nat × ReceiptProof)) :
    amountIn token (entry :: rest) = entry.2.receipt.amountOf token + amountIn token rest := rfl

theorem total_produced (tx : Lrc20Transaction) :
    total (amountOf token) tx.produced = amountIn token tx.outputs := by
  unfold total produced amountIn
  rw [List.map_map]
  rfl

theorem amountIn_le (proofs : List (Nat × ReceiptProof)) :
    amountIn token proofs ≤ exactSum (proofs.map fun entry => entry.2.amount) := by
  induction proofs with
  | nil => exact Nat.le_refl _
  | cons entry rest ih =>
    rw [amountIn_cons, List.map_cons, exactSum_cons]
    exact Nat.add_le_add (amountOf_le token entry.2.receipt) ih

/-- Empty receipts are worth nothing. -/
theorem amountIn_exiting (proofs : List (Nat × ReceiptProof)) :
    amountIn token (exiting proofs) = amountIn token proofs := by
  induction proofs with
  | nil => rfl
  | cons entry rest ih =>
    unfold exiting at ih ⊢
    cases empty : entry.2.isEmptyReceiptproof with
    | true => simp [empty, ih, amountOf_of_empty empty]
    | false => simp [empty, ih]

/-- A transfer takes what its input proofs are worth, if each of them is of an input. -/
theorem total_consumed {tx : Lrc20Transaction} {inputProofs outputProofs : ProofMap}
    (kind : tx.txType = .transfer inputProofs outputProofs)
    (inputs : ∀ entry ∈ inputProofs.entries, ∃ txin, tx.bitcoinTx.input[entry.1]? = some txin) :
    total (amountOf token) tx.consumed = amountIn token inputProofs.entries := by
  unfold consumed Lrc20Transaction.spends
  rw [kind]
  dsimp only
  generalize inputProofs.entries = entries at inputs
  induction entries with
  | nil => rfl
  | cons entry rest ih =>
    have others := ih fun entry mem => inputs entry (by simp [mem])
    obtain ⟨txin, found⟩ := inputs entry (by simp)
    cases empty : entry.2.isEmptyReceiptproof with
    | true => simpa [empty, amountOf_of_empty empty] using others
    | false => simpa [empty, found] using others

theorem provedAmount_ofPlain (gathered : List (ProofForCheck α)) :
    WithBulletproofs.provedAmount token (gathered.map .ofPlain) =
      (gathered.map fun proof => proof.inner.receipt.amountOf token).sum := by
  induction gathered with
  | nil => rfl
  | cons proof rest ih =>
    have split := WithBulletproofs.provedAmount_append token
      [WithBulletproofs.ProofForCheck.ofPlain proof] (rest.map .ofPlain)
    have one : WithBulletproofs.provedAmount token
        [WithBulletproofs.ProofForCheck.ofPlain proof] = proof.inner.receipt.amountOf token := by
      have kind : WithBulletproofs.isEmptyReceiptproof (.plain proof.inner) =
          proof.inner.isEmptyReceiptproof := rfl
      unfold WithBulletproofs.provedAmount amountOf
      cases empty : proof.inner.isEmptyReceiptproof with
      | true =>
        have worthless := amountOf_of_empty empty token
        simpa [WithBulletproofs.ProofForCheck.ofPlain, kind, empty, amountOf] using worthless.symm
      | false =>
        by_cases own : proof.inner.receipt.tokenPubkey = token
        · have counted : (AnyReceiptProof.plain proof.inner).receipt.tokenPubkey = token := own
          simp [WithBulletproofs.ProofForCheck.ofPlain, kind, empty, own, counted]
          rfl
        · have other : (AnyReceiptProof.plain proof.inner).receipt.tokenPubkey ≠ token := own
          simp [WithBulletproofs.ProofForCheck.ofPlain, kind, empty, own, other]
    rw [List.map_cons, List.map_cons, List.sum_cons, ← ih, ← one]
    exact split

/-- The check of a transfer adds up what its proofs are worth. -/
theorem provedAmount_of_extract {proofMap : ProofMap} {iterable : List α}
    {gathered : List (ProofForCheck α)}
    (extracted : extractFromIterableByProofMap proofMap iterable = .ok gathered) :
    WithBulletproofs.provedAmount token (gathered.map .ofPlain) =
      amountIn token proofMap.entries := by
  rw [provedAmount_ofPlain]
  unfold amountIn
  apply congrArg List.sum
  refine map_of_mapM ?_ extracted
  rintro ⟨vout, proof⟩ result computed
  dsimp only at computed
  split at computed
  case h_1 => cases computed
  case h_2 =>
    obtain rfl := Except.ok.inj computed
    rfl

end Sums

section Balance

variable {prims : Primitives} {tx : Lrc20Transaction} {token : TokenPubkey}
  {announcement : IssueAnnouncement} {tables : SparkTables} {outputProofs : Option ProofMap}

/-- The outputs of a transfer that passes are worth what it takes. -/
theorem produced_of_transfer {inputProofs outputProofs : ProofMap}
    (kind : tx.txType = .transfer inputProofs outputProofs)
    (accepted : checkTransaction prims tx = .ok ()) :
    total (amountOf token) tx.produced = total (amountOf token) tx.consumed := by
  unfold checkTransaction at accepted
  rw [kind] at accepted
  obtain ⟨_, -, rest⟩ := bind_eq_ok.mp accepted
  obtain ⟨gatheredInputs, extractedInputs, rest⟩ := bind_eq_ok.mp rest
  obtain ⟨gatheredOutputs, extractedOutputs, rest⟩ := bind_eq_ok.mp rest
  obtain ⟨_, passed, rest⟩ := bind_eq_ok.mp rest
  obtain ⟨_, -, conserved⟩ := bind_eq_ok.mp rest
  have confidential : WithBulletproofs.checkConservationRules (gatheredInputs.map .ofPlain)
      (gatheredOutputs.map .ofPlain) = .ok () := by
    rw [WithBulletproofs.checkConservationRules_ofPlain, conserved]
    rfl
  have sums := ((WithBulletproofs.checkConservationRules_iff _ _).mp confidential token).2.2
  rw [provedAmount_of_extract extractedInputs, provedAmount_of_extract extractedOutputs] at sums
  have outputs : tx.outputs = outputProofs.entries := by
    unfold outputs
    rw [kind]
    rfl
  have inputs : ∀ entry ∈ inputProofs.entries,
      ∃ txin, tx.bitcoinTx.input[entry.1]? = some txin := by
    intro entry mem
    obtain ⟨txin, found, -⟩ := passed_of_extract extractedInputs passed entry mem
    exact ⟨txin, found⟩
  rw [total_produced, total_consumed kind inputs, outputs, sums]

/-- The outputs of an issue that passes are worth no more than it announces. -/
theorem produced_of_issue {announcement : IssueAnnouncement}
    (kind : tx.txType = .issue outputProofs announcement)
    (accepted : checkTransaction prims tx = .ok ()) (ordinary : Ordinary tx) :
    total (amountOf token) tx.produced ≤ issueAmount token tx := by
  have proved := (outputsProved_iff_ordinary accepted (by rw [kind]; rfl)).mpr ordinary
  have announced : announcedAmount tx = some announcement.amount := by
    unfold announcedAmount
    rw [kind]
  have amounts := proved.amounts announcement.amount announced
  have issued : issueAmount token tx =
      if announcement.tokenPubkey = token then announcement.amount.val else 0 := by
    unfold issueAmount
    rw [kind]
  rw [total_produced, issued]
  split
  case isTrue =>
    rw [← amounts]
    exact amountIn_le tx.outputs
  case isFalse other =>
    have worthless : amountIn token tx.outputs = 0 := by
      apply List.sum_eq_zero
      intro amount mem
      obtain ⟨entry, isEntry, rfl⟩ := List.mem_map.mp mem
      cases empty : entry.2.isEmptyReceiptproof with
      | true => exact amountOf_of_empty empty token
      | false =>
        have own : entry.2.receipt.tokenPubkey = announcement.tokenPubkey := by
          obtain ⟨bitcoinTx, txType⟩ := tx
          cases kind
          exact token_of_checkIssueIsolated accepted isEntry empty
        exact if_neg (own ▸ other)
    rw [worthless]

theorem withdrawals_of_leaves {txid : Txid} {proofs : List (Nat × ReceiptProof)}
    {places : List SparkOutPoint}
    (leaves : List.Forall₂ (fun entry place => WithdrawnFor tables txid entry.2 place)
      proofs places) :
    ∃ pairs : List (SparkOutPoint × Receipt), pairs.map Prod.fst = places ∧
      total (amountOf token) pairs = amountIn token proofs ∧
      pairs ⊆ withdrawals tables txid := by
  induction leaves with
  | nil => exact ⟨[], rfl, rfl, by simp⟩
  | @cons entry place proofs places own _ ih =>
    obtain ⟨pairs, named, worth, subset⟩ := ih
    obtain ⟨row, stored, marked, receipt⟩ := own
    refine ⟨(place, entry.2.receipt) :: pairs, by simp [named], by simp [worth], ?_⟩
    apply List.cons_subset.mpr
    refine ⟨List.mem_map.mpr ⟨(place, row), ?_, by rw [receipt]⟩, subset⟩
    exact List.mem_filter.mpr ⟨SparkTables.mem_allOutputs.mpr stored, by simp [marked]⟩

/-- The outputs of an exit are worth no more than it withdraws. -/
theorem produced_of_exit {outputProofs : ProofMap} {tables : SparkTables}
    (kind : tx.txType = .sparkExit outputProofs)
    (backed : Backed tables tx.txid (exiting outputProofs.entries)) :
    total (amountOf token) tx.produced ≤ withdrawnAmount tables token tx := by
  obtain ⟨places, distinct, leaves⟩ := backed
  have outputs : tx.outputs = outputProofs.entries := by
    unfold outputs
    rw [kind]
    rfl
  have withdrawn : withdrawnAmount tables token tx =
      total (amountOf token) (withdrawals tables tx.txid) := by
    unfold withdrawnAmount
    rw [kind]
  obtain ⟨pairs, named, worth, subset⟩ := withdrawals_of_leaves leaves
  rw [total_produced, outputs, ← amountIn_exiting, withdrawn, ← worth]
  apply total_le_of_subperm
  apply List.subperm_of_subset _ subset
  exact List.Nodup.of_map Prod.fst (named ▸ distinct)

theorem produced_of_isAnnouncement (kind : tx.txType.isAnnouncement = true) : tx.produced = [] := by
  obtain ⟨bitcoinTx, txType⟩ := tx
  cases txType with
  | announcement announcement => rfl
  | _ => cases kind

/-- A transaction that passes puts no more into outputs than it takes, issues and withdraws. -/
theorem produced_le (accepted : checkTransaction prims tx = .ok ())
    (proofs : tx.txType.isAnnouncement = false) (ordinary : Ordinary tx)
    (backed : ∀ outputProofs, tx.txType = .sparkExit outputProofs →
      Backed tables tx.txid (exiting outputProofs.entries)) :
    total (amountOf token) tx.produced ≤
      issueAmount token tx + withdrawnAmount tables token tx +
        total (amountOf token) tx.consumed := by
  cases kind : tx.txType with
  | issue outputProofs announcement =>
    have issued := @produced_of_issue prims tx token _ _ kind accepted ordinary
    omega
  | transfer inputProofs outputProofs =>
    have same := @produced_of_transfer prims tx token _ _ kind accepted
    omega
  | announcement announcement =>
    rw [kind] at proofs
    cases proofs
  | sparkExit outputProofs =>
    have withdrawn := @produced_of_exit tx token _ tables kind (backed outputProofs kind)
    omega

end Balance

end TxCheck

end Lrc20
