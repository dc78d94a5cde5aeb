import Lrc20.Confidential.Transfer
import Lrc20.TxCheck.Isolated

/-! The checks of a transaction by itself in a build with the `bulletproof` feature. -/

open Tally

namespace Lrc20.TxCheck.WithBulletproofs

structure ProofMap where
  entries : List (Nat × AnyReceiptProof)
  sorted : (entries.map Prod.fst).Pairwise (· < ·)

def ProofMap.values (proofs : ProofMap) : List AnyReceiptProof := proofs.entries.map Prod.snd

inductive Lrc20TxType where
  | issue (outputProofs : Option ProofMap) (announcement : IssueAnnouncement)
  | transfer (inputProofs outputProofs : ProofMap)
  | announcement (announcement : Announcement)
  | sparkExit (outputProofs : ProofMap)

structure Lrc20Transaction where
  bitcoinTx : Transaction
  txType : Lrc20TxType

inductive CheckError where
  | invalidProof (proof : AnyReceiptProof) (vout : Nat) (error : BulletproofError)
  | mixedBulletproofsAndNonBulletproofs
  | bulletproofConservation (error : Confidential.CheckError)
  /-- An error that the other build has too. -/
  | common (error : TxCheck.CheckError)
deriving DecidableEq

def isEmptyReceiptproof : AnyReceiptProof → Bool
  | .plain proof => proof.isEmptyReceiptproof
  | .bulletproof _ => false

def isBurn : AnyReceiptProof → Bool
  | .plain proof => proof.isBurn
  | .bulletproof _ => false

def isBulletproof : AnyReceiptProof → Bool
  | .plain _ => false
  | .bulletproof _ => true

structure ProofForCheck (α : Type) where
  statement : α
  vout : Nat
  inner : AnyReceiptProof

section Helpers

variable {α : Type}

def extractFromIterableByProofMap (proofMap : ProofMap) (iterable : List α) :
    Except CheckError (List (ProofForCheck α)) :=
  proofMap.entries.mapM fun (vout, proof) =>
    match iterable[vout]? with
    | none => .error (.common .proofMappedToNotExistingInputOutput)
    | some item => .ok ⟨item, vout, proof⟩

def checkEach (check : ProofForCheck α → Except CheckError Unit) :
    List (ProofForCheck α) → Except CheckError Unit
  | [] => .ok ()
  | first :: rest => do
      check first
      checkEach check rest

def proofCheck (gathered : ProofForCheck α) (result : Except BulletproofError Unit) :
    Except CheckError Unit :=
  result.mapError (.invalidProof gathered.inner gathered.vout ·)

def countedAmounts (proofs : List (ProofForCheck α)) : List (TokenPubkey × U128) :=
  (proofs.filter fun proof => !isEmptyReceiptproof proof.inner &&
    proof.inner.receipt.tokenAmount.amount != 0).map fun proof =>
      (proof.inner.receipt.tokenPubkey, proof.inner.receipt.tokenAmount.amount)

end Helpers

def checkNumberOfProofs (bitcoinTx : Transaction) (proofs : ProofMap) : Except CheckError Unit :=
  if (bitcoinTx.output.filter fun output => !output.scriptPubkey.isOpReturn).length =
      proofs.entries.length then .ok ()
  else .error (.common (.notEnoughProofs proofs.entries.length bitcoinTx.output.length))

def checkConservationRules (inputs : List (ProofForCheck TxIn))
    (outputs : List (ProofForCheck TxOut)) : Except CheckError Unit :=
  match tally (countedAmounts inputs) ∅, tally (countedAmounts outputs) ∅ with
  | some inputTokenPubkeys, some outputTokenPubkeys =>
    if inputTokenPubkeys ≠ outputTokenPubkeys then .error (.common .conservationRulesViolated)
    else .ok ()
  | _, _ => .error (.common .amountsSumOverflow)

def checkSameTokenPubkeyProofs (proofs : List AnyReceiptProof) (announcement : IssueAnnouncement) :
    Except CheckError Unit :=
  match proofs.filter fun proof => !isEmptyReceiptproof proof with
  | [] => .ok ()
  | first :: rest =>
    if first.receipt.tokenPubkey ≠ announcement.tokenPubkey then
      .error (.common .issueAnnouncementMismatch)
    else if (first :: rest).all fun proof =>
        proof.receipt.tokenPubkey = first.receipt.tokenPubkey then .ok ()
    else .error (.common .notSameTokenPubkey)

/-- `proof_map_to_bulletproofs`: the bulletproofs, unless there is another proof first, and
whether one was found. -/
def proofMapToBulletproofs (wasFound : Bool) :
    List AnyReceiptProof → Except CheckError (Bool × Option (List Bulletproof))
  | [] => .ok (wasFound, some [])
  | .bulletproof proof :: rest => do
      let (found, others) ← proofMapToBulletproofs true rest
      pure (found, others.map (proof :: ·))
  | .plain _ :: _ =>
    if wasFound then .error .mixedBulletproofsAndNonBulletproofs else .ok (false, none)

def extractBulletproofs (inputs outputs : ProofMap) :
    Except CheckError (Option (List Bulletproof × List Bulletproof)) := do
  let counted (proofs : ProofMap) := proofs.values.filter fun proof => !isEmptyReceiptproof proof
  let (wasFound, inputs) ← proofMapToBulletproofs false (counted inputs)
  let (_, outputs) ← proofMapToBulletproofs wasFound (counted outputs)
  pure (match inputs, outputs with
    | some inputs, some outputs => some (inputs, outputs)
    | _, _ => none)

section Checks

-- `verify` is the range proof verifier and `conserves` the check of the signatures.
variable (prims : Primitives) (verify : ProjectivePoint → RangeProof → Bool)
  (conserves : List Bulletproof → List Bulletproof → Except Confidential.CheckError Unit)

def checkOutputProof (gathered : ProofForCheck TxOut) : Except CheckError Unit :=
  if gathered.statement.scriptPubkey.isOpReturn then .ok ()
  else proofCheck gathered (gathered.inner.checkedCheckByOutput prims verify gathered.statement)

def checkIssueIsolated (bitcoinTx : Transaction) (outputProofs : Option ProofMap)
    (announcement : IssueAnnouncement) : Except CheckError Unit := do
  match outputProofs with
  | none => .error (.common (.notEnoughProofs 0 bitcoinTx.output.length))
  | some outputProofs =>
    let announcedAmount ←
      (checkIssueAnnouncementIsolated prims announcement bitcoinTx.output).mapError .common
    checkNumberOfProofs bitcoinTx outputProofs
    checkSameTokenPubkeyProofs outputProofs.values announcement
    let gathered ← extractFromIterableByProofMap outputProofs bitcoinTx.output
    checkEach (checkOutputProof prims verify) gathered
    if outputProofs.values.any isBulletproof then .ok ()
    else
      let totalAmount := (outputProofs.values.map fun proof =>
        proof.receipt.tokenAmount.amount).sum
      if totalAmount ≠ announcedAmount then
        .error (.common (.announcedAmountDoesNotMatch announcedAmount totalAmount))
      else .ok ()

def checkInputProof (gathered : ProofForCheck TxIn) : Except CheckError Unit :=
  if isBurn gathered.inner then .error (.common .burntTokensSpending)
  else proofCheck gathered (gathered.inner.checkedCheckByInput prims verify gathered.statement)

/-- `check_proofs_isolated`. -/
def checkTransferIsolated (bitcoinTx : Transaction) (inputs outputs : ProofMap) :
    Except CheckError Unit := do
  checkNumberOfProofs bitcoinTx outputs
  let gatheredInputs ← extractFromIterableByProofMap inputs bitcoinTx.input
  let gatheredOutputs ← extractFromIterableByProofMap outputs bitcoinTx.output
  checkEach (checkInputProof prims verify) gatheredInputs
  checkEach (fun gathered =>
    proofCheck gathered (gathered.inner.checkedCheckByOutput prims verify gathered.statement))
    gatheredOutputs
  match ← extractBulletproofs inputs outputs with
  | some (inputs, outputs) => (conserves inputs outputs).mapError .bulletproofConservation
  | none => checkConservationRules gatheredInputs gatheredOutputs

def checkSparkExitIsolated (bitcoinTx : Transaction) (outputs : ProofMap) :
    Except CheckError Unit := do
  checkNumberOfProofs bitcoinTx outputs
  let gathered ← extractFromIterableByProofMap outputs bitcoinTx.output
  checkEach (checkOutputProof prims verify) gathered

def checkTransaction (tx : Lrc20Transaction) : Except CheckError Unit :=
  match tx.txType with
  | .issue outputProofs announcement =>
    checkIssueIsolated prims verify tx.bitcoinTx outputProofs announcement
  | .transfer inputProofs outputProofs =>
    checkTransferIsolated prims verify conserves tx.bitcoinTx inputProofs outputProofs
  | .announcement announcement => (checkAnnouncementIsolated announcement).mapError .common
  | .sparkExit outputProofs => checkSparkExitIsolated prims verify tx.bitcoinTx outputProofs

end Checks

end Lrc20.TxCheck.WithBulletproofs
