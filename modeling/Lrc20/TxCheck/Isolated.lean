import Lrc20.Lib.Tally
import Lrc20.TxCheck.Owner
import Lrc20.Types.Transaction

/-! The checks of a transaction by itself: `check_transaction` of `isolated_checks`. -/

open Tally

namespace Lrc20.TxCheck

inductive CheckError where
  | invalidProof (proof : ReceiptProof) (vout : Nat) (error : ProofError)
  | notEnoughProofs (provided required : Nat)
  | notSameTokenPubkey
  | conservationRulesViolated
  | proofMappedToNotExistingInputOutput
  | announcedAmountDoesNotMatch (announced total : U128)
  | issueAnnouncementMismatch
  | issueAnnouncementNotProvided
  | burntTokensSpending
  | amountsSumOverflow
  | newOwnerP2TRAddress
deriving DecidableEq

/-- A proof with the input or output it is about. -/
structure ProofForCheck (α : Type) where
  statement : α
  vout : Nat
  inner : ReceiptProof

section Helpers

variable {α : Type}

def extractFromIterableByProofMap (proofMap : ProofMap) (iterable : List α) :
    Except CheckError (List (ProofForCheck α)) :=
  proofMap.entries.mapM fun (vout, proof) =>
    match iterable[vout]? with
    | none => .error .proofMappedToNotExistingInputOutput
    | some item => .ok ⟨item, vout, proof⟩

/-- A loop of checks that ends at the first error. -/
def checkEach (check : ProofForCheck α → Except CheckError Unit) :
    List (ProofForCheck α) → Except CheckError Unit
  | [] => .ok ()
  | first :: rest =>
    match check first with
    | .error error => .error error
    | .ok () => checkEach check rest

/-- The error of a proof check, with the proof and its index. -/
def proofCheck (gathered : ProofForCheck α) (result : Except ProofError Unit) :
    Except CheckError Unit :=
  result.mapError (.invalidProof gathered.inner gathered.vout ·)

/-- The entries that are summed up: neither empty receipts nor zero amounts. -/
def countedAmounts (proofs : List (ProofForCheck α)) : List (TokenPubkey × U128) :=
  (proofs.filter fun proof => !proof.inner.isEmptyReceiptproof && !proof.inner.isZeroAmount).map
    fun proof => (proof.inner.receipt.tokenPubkey, proof.inner.amount)

end Helpers

/-- As many proofs as outputs other than `OP_RETURN`. -/
def checkNumberOfProofs (bitcoinTx : Transaction) (proofs : ProofMap) : Except CheckError Unit :=
  if (bitcoinTx.output.filter fun output => !output.scriptPubkey.isOpReturn).length =
      proofs.entries.length then .ok ()
  else .error (.notEnoughProofs proofs.entries.length bitcoinTx.output.length)

def checkConservationRules (inputs : List (ProofForCheck TxIn)) (outputs : List (ProofForCheck TxOut)) :
    Except CheckError Unit :=
  match tally (countedAmounts inputs) ∅ with
  | none => .error .amountsSumOverflow
  | some inputTokenPubkeys =>
    match tally (countedAmounts outputs) ∅ with
    | none => .error .amountsSumOverflow
    | some outputTokenPubkeys =>
      if inputTokenPubkeys ≠ outputTokenPubkeys then .error .conservationRulesViolated
      else .ok ()

/-- The token of the first proof that is not empty is the announced one, and that of all the
others. -/
def checkSameTokenPubkeyProofs (proofs : List ReceiptProof) (announcement : IssueAnnouncement) :
    Except CheckError Unit :=
  match proofs.filter fun proof => !proof.isEmptyReceiptproof with
  | [] => .ok ()
  | first :: rest =>
    if first.receipt.tokenPubkey ≠ announcement.tokenPubkey then
      .error .issueAnnouncementMismatch
    else if (first :: rest).all fun proof =>
        proof.receipt.tokenPubkey = first.receipt.tokenPubkey then .ok ()
    else .error .notSameTokenPubkey

section Checks

variable (prims : Primitives)

/-- The announced amount. The first output that parses as an issue announcement decides. -/
def checkIssueAnnouncementIsolated (announcement : IssueAnnouncement) :
    List TxOut → Except CheckError U128
  | [] => .error .issueAnnouncementNotProvided
  | output :: rest =>
    match IssueAnnouncement.fromScript prims output.scriptPubkey with
    | none => checkIssueAnnouncementIsolated announcement rest
    | some found =>
      if found ≠ announcement then .error .issueAnnouncementMismatch else .ok found.amount

/-- The output check of issues and exits: a proof of an `OP_RETURN` output is not looked at. -/
def checkOutputProof (gathered : ProofForCheck TxOut) : Except CheckError Unit :=
  if gathered.statement.scriptPubkey.isOpReturn then .ok ()
  else proofCheck gathered (gathered.inner.checkedCheckByOutput prims gathered.statement)

def checkIssueIsolated (bitcoinTx : Transaction) (outputProofs : Option ProofMap)
    (announcement : IssueAnnouncement) : Except CheckError Unit := do
  match outputProofs with
  | none => .error (.notEnoughProofs 0 bitcoinTx.output.length)
  | some outputProofs =>
    let announcedAmount ← checkIssueAnnouncementIsolated prims announcement bitcoinTx.output
    checkNumberOfProofs bitcoinTx outputProofs
    checkSameTokenPubkeyProofs outputProofs.values announcement
    let gathered ← extractFromIterableByProofMap outputProofs bitcoinTx.output
    checkEach (checkOutputProof prims) gathered
    -- The sum of a release build wraps.
    let totalAmount := (outputProofs.values.map ReceiptProof.amount).sum
    if totalAmount ≠ announcedAmount then
      .error (.announcedAmountDoesNotMatch announcedAmount totalAmount)
    else .ok ()

/-- An input proof is not that of a burn address and passes its own check. -/
def checkInputProof (gathered : ProofForCheck TxIn) : Except CheckError Unit :=
  if gathered.inner.isBurn then .error .burntTokensSpending
  else proofCheck gathered (gathered.inner.checkedCheckByInput prims gathered.statement)

/-- `check_transfer_isolated`, that is `check_proofs_isolated`. -/
def checkTransferIsolated (bitcoinTx : Transaction) (inputs outputs : ProofMap) :
    Except CheckError Unit := do
  checkNumberOfProofs bitcoinTx outputs
  let gatheredInputs ← extractFromIterableByProofMap inputs bitcoinTx.input
  let gatheredOutputs ← extractFromIterableByProofMap outputs bitcoinTx.output
  checkEach (checkInputProof prims) gatheredInputs
  checkEach (fun gathered =>
    proofCheck gathered (gathered.inner.checkedCheckByOutput prims gathered.statement))
    gatheredOutputs
  checkConservationRules gatheredInputs gatheredOutputs

def checkSparkExitIsolated (bitcoinTx : Transaction) (outputs : ProofMap) :
    Except CheckError Unit := do
  checkNumberOfProofs bitcoinTx outputs
  let gathered ← extractFromIterableByProofMap outputs bitcoinTx.output
  checkEach (checkOutputProof prims) gathered

/-- Only ownership transfers are looked at: the new owner may not count as taproot. -/
def checkAnnouncementIsolated : Announcement → Except CheckError Unit
  | .transferOwnership announcement =>
    if scriptToAddressType announcement.newOwner = .p2tr then .error .newOwnerP2TRAddress
    else .ok ()
  | _ => .ok ()

def checkTransaction (tx : Lrc20Transaction) : Except CheckError Unit :=
  match tx.txType with
  | .issue outputProofs announcement =>
    checkIssueIsolated prims tx.bitcoinTx outputProofs announcement
  | .transfer inputProofs outputProofs =>
    checkTransferIsolated prims tx.bitcoinTx inputProofs outputProofs
  | .announcement announcement => checkAnnouncementIsolated announcement
  | .sparkExit outputProofs => checkSparkExitIsolated prims tx.bitcoinTx outputProofs

end Checks

end Lrc20.TxCheck
