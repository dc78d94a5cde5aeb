import Mathlib.Data.List.Sort
import Lrc20.Receipts.Receipt

open Script

namespace Lrc20

structure P2WPKHProof where
  receipt : Receipt
  innerKey : PublicKey
  metadata : Option Metadata
deriving DecidableEq

structure EmptyReceiptProof where
  innerKey : PublicKey
deriving DecidableEq

structure MultisigReceiptProof where
  receipt : Receipt
  innerKeys : List PublicKey
  m : UInt8
deriving DecidableEq

/-- The `to_local` output script of a Lightning commitment transaction. -/
structure ToLocalScript where
  revocationPubkey : PublicKey
  toSelfDelay : UInt16
  localDelayedPubkey : PublicKey
deriving DecidableEq

structure LightningCommitmentProof where
  receipt : Receipt
  data : ToLocalScript
deriving DecidableEq

inductive HtlcScriptKind where
  | offered
  | received (cltvExpiry : UInt32)
deriving DecidableEq

structure LightningHtlcData where
  revocationKeyHash : Bytes20
  remoteHtlcKey : PublicKey
  localHtlcKey : PublicKey
  paymentHash : Bytes20
  kind : HtlcScriptKind
deriving DecidableEq

structure LightningHtlcProof where
  receipt : Receipt
  data : LightningHtlcData
deriving DecidableEq

structure P2WSHProof where
  receipt : Receipt
  innerKey : PublicKey
  script : ScriptBuf
deriving DecidableEq

structure TaprootProof where
  receipt : Receipt
  innerKey : PublicKey
  metadata : Option Metadata
deriving DecidableEq

structure SparkExitScript where
  revocationKey : PublicKey
  delayKey : PublicKey
  locktime : UInt32
deriving DecidableEq

structure SparkExitProof where
  receipt : Receipt
  script : SparkExitScript
  metadata : Option Metadata
deriving DecidableEq

/-- The proof kinds of a build without the `bulletproof` feature. -/
inductive ReceiptProof where
  | sig (proof : P2WPKHProof)
  | emptyReceipt (proof : EmptyReceiptProof)
  | multisig (proof : MultisigReceiptProof)
  | lightning (proof : LightningCommitmentProof)
  | lightningHtlc (proof : LightningHtlcProof)
  | p2wsh (proof : P2WSHProof)
  | p2tr (proof : TaprootProof)
  | sparkExit (proof : SparkExitProof)
deriving DecidableEq

inductive ProofError where
  | stackLengthMismatch
  | invalidSignature
  | invalidPublicKey
  | publicKeyMismatch
  | receiptKey
  | emptyReceiptUsage
  | scriptPubKeyMismatch
  | metadataBytesOverflow
  | emptyWitness
  | witnessStack
  | invalidNumberOfSignatures (got expected : Nat)
  | invalidNumberOfInnerKeys
  | redeemScriptMismatch
  | missingPubkey
  | pubkeyMismatch
  | outputScriptMismatch
  | invalidWitnessProgramStructure
  | invalidWScriptHashSize
  | scriptHashMismatch
  | invalidScriptKind
  | lockTime
  /-- The source panics here. -/
  | panicked
deriving DecidableEq, Repr

namespace ReceiptProof

def receipt : ReceiptProof → Receipt
  | sig proof => proof.receipt
  | emptyReceipt _ => Receipt.empty
  | multisig proof => proof.receipt
  | lightning proof => proof.receipt
  | lightningHtlc proof => proof.receipt
  | p2wsh proof => proof.receipt
  | p2tr proof => proof.receipt
  | sparkExit proof => proof.receipt

/-- The metadata that enters the receipt hash: the metadata of a Spark exit does not. -/
def metadata : ReceiptProof → Option Metadata
  | sig proof => proof.metadata
  | p2tr proof => proof.metadata
  | _ => none

def amount (proof : ReceiptProof) : U128 := proof.receipt.tokenAmount.amount

def isZeroAmount (proof : ReceiptProof) : Bool := proof.amount == 0

def isBurn : ReceiptProof → Bool
  | sig proof => proof.innerKey == zeroPublicKey
  | _ => false

def isEmptyReceiptproof : ReceiptProof → Bool
  | emptyReceipt _ => true
  | _ => false

def spenderKeys : ReceiptProof → List PublicKey
  | sig proof => [proof.innerKey]
  | multisig proof => proof.innerKeys
  | p2tr proof => [proof.innerKey]
  | lightning proof => [proof.data.revocationPubkey, proof.data.localDelayedPubkey]
  | lightningHtlc proof => [proof.data.remoteHtlcKey, proof.data.localHtlcKey]
  | emptyReceipt proof => [proof.innerKey]
  | p2wsh proof => [proof.innerKey]
  | sparkExit proof => [proof.script.delayKey]

end ReceiptProof

/-- `check_metadata_size`: at most `METADATA_MAX_SIZE` bytes, 128 MiB. -/
def checkMetadataSize : Option Metadata → Bool
  | some json => json.length ≤ 128 * 1024 * 1024
  | none => true

/-- `P2WPKHWitness::from_witness`, of which only the key is read later. -/
def p2wpkhWitnessKey (prims : Primitives) (witness : List Bytes) : Except ProofError PublicKey :=
  match witness with
  | [signature, pubkey] =>
    if prims.parsesAsEcdsa signature then
      match prims.publicKeyFromSlice pubkey with
      | some key => .ok key
      | none => .error .invalidPublicKey
    else .error .invalidSignature
  | _ => .error .stackLengthMismatch

namespace P2WPKHProof

variable (prims : Primitives) (proof : P2WPKHProof)

/-- The tweaked key, over the receipt and the metadata. -/
def receiptKey : Option PublicKey :=
  prims.receiptKey (prims.receiptHash proof.receipt proof.metadata) proof.innerKey

def checkedCheckByInput (txin : TxIn) : Except ProofError Unit := do
  let pubkey ← p2wpkhWitnessKey prims txin.witness
  match proof.receiptKey prims with
  | none => .error .receiptKey
  | some key => if key = pubkey then .ok () else .error .publicKeyMismatch

def checkedCheckByOutput (txout : TxOut) : Except ProofError Unit :=
  if proof.receipt = Receipt.empty then .error .emptyReceiptUsage
  else match proof.receiptKey prims with
    | none => .error .receiptKey
    | some key =>
      if txout.scriptPubkey = prims.toP2wpkh key then
        if checkMetadataSize proof.metadata then .ok () else .error .metadataBytesOverflow
      else .error .scriptPubKeyMismatch

end P2WPKHProof

namespace EmptyReceiptProof

variable (prims : Primitives) (proof : EmptyReceiptProof)

def checkedCheckByInput (txin : TxIn) : Except ProofError Unit := do
  let pubkey ← p2wpkhWitnessKey prims txin.witness
  match prims.tweak proof.innerKey Receipt.empty with
  | none => .error .receiptKey
  | some key => if key = pubkey then .ok () else .error .publicKeyMismatch

def checkedCheckByOutput (txout : TxOut) : Except ProofError Unit :=
  match prims.tweak proof.innerKey Receipt.empty with
  | none => .error .receiptKey
  | some key =>
    if txout.scriptPubkey = prims.toP2wpkh key then .ok () else .error .scriptPubKeyMismatch

end EmptyReceiptProof

/-- `P2WSHWitness::from_witness`: the stack below the redeem script, and the script. -/
def p2wshWitness (witness : List Bytes) : Except ProofError (List Bytes × ScriptBuf) :=
  match witness.getLast? with
  | none => .error .emptyWitness
  | some script => .ok (witness.dropLast, script)

def OP_IF : UInt8 := 0x63
def OP_NOTIF : UInt8 := 0x64
def OP_ELSE : UInt8 := 0x67
def OP_ENDIF : UInt8 := 0x68
def OP_DROP : UInt8 := 0x75
def OP_DUP : UInt8 := 0x76
def OP_SWAP : UInt8 := 0x7c
def OP_SIZE : UInt8 := 0x82
def OP_EQUAL : UInt8 := 0x87
def OP_EQUALVERIFY : UInt8 := 0x88
def OP_HASH160 : UInt8 := 0xa9
def OP_CHECKSIG : UInt8 := 0xac
def OP_CHECKMULTISIG : UInt8 := 0xae
def OP_CLTV : UInt8 := 0xb1
def OP_CSV : UInt8 := 0xb2

/-- `Builder::push_smallint`, which panics outside `1..=16`. -/
def pushSmallint (n : UInt8) : Except ProofError Bytes :=
  if 1 ≤ n ∧ n ≤ 16 then .ok [0x50 + n] else .error .panicked

/-- `MultisigScript::to_script`: the key count first and the threshold last. -/
def multisigScript (requiredSignatures : UInt8) (pubkeys : List PublicKey) :
    Except ProofError ScriptBuf := do
  let count ← pushSmallint (UInt8.ofNat pubkeys.length)
  let threshold ← pushSmallint requiredSignatures
  return count ++ pubkeys.flatMap (fun key => pushSlice key.serialize) ++ threshold ++
    [OP_CHECKMULTISIG]

/-- The byte order in which `Vec<PublicKey>::sort` puts keys. -/
def keyLe (a b : PublicKey) : Prop := a.serialize ≤ b.serialize

instance : DecidableRel keyLe := fun a b => inferInstanceAs (Decidable (a.serialize ≤ b.serialize))

namespace MultisigReceiptProof

variable (prims : Primitives) (proof : MultisigReceiptProof)

def sortAndTweakKeys : Except ProofError (List PublicKey) :=
  match proof.innerKeys.insertionSort keyLe with
  | [] => .error .invalidNumberOfInnerKeys
  | first :: others =>
    match prims.tweak first proof.receipt with
    | none => .error .receiptKey
    | some key => .ok (key :: others)

def createMultisigRedeemScript : Except ProofError ScriptBuf := do
  let keys ← proof.sortAndTweakKeys prims
  multisigScript proof.m keys

/-- `MultisigWitnessStack::from_witness_stack`: a placeholder element, then signatures. -/
def witnessSignatures (stack : List Bytes) : Except ProofError (List Bytes) :=
  match stack with
  | [] => .error .witnessStack
  | _ :: signatures =>
    if signatures.all prims.parsesAsEcdsa then .ok signatures else .error .witnessStack

def checkedCheckByInput (txin : TxIn) : Except ProofError Unit := do
  let (stack, redeemScript) ← p2wshWitness txin.witness
  let signatures ← witnessSignatures prims stack
  if signatures.length ≠ proof.m.toNat then
    .error (.invalidNumberOfSignatures signatures.length proof.m.toNat)
  else
    let expected ← proof.createMultisigRedeemScript prims
    if expected = redeemScript then .ok () else .error .redeemScriptMismatch

def checkedCheckByOutput (txout : TxOut) : Except ProofError Unit := do
  let expected ← proof.createMultisigRedeemScript prims
  if txout.scriptPubkey = prims.toP2wsh expected then .ok () else .error .redeemScriptMismatch

variable {prims proof} {keys : List PublicKey}

theorem sortAndTweakKeys_eq_ok :
    proof.sortAndTweakKeys prims = .ok keys ↔ ∃ first others key,
      proof.innerKeys.insertionSort keyLe = first :: others ∧
        prims.tweak first proof.receipt = some key ∧ key :: others = keys := by
  unfold sortAndTweakKeys
  split
  · simp_all
  · rename_i first others sorted
    split
    · simp_all
    · simp_all

theorem length_of_sortAndTweakKeys (tweaked : proof.sortAndTweakKeys prims = .ok keys) :
    keys.length = proof.innerKeys.length := by
  obtain ⟨first, others, key, sorted, -, rfl⟩ := sortAndTweakKeys_eq_ok.mp tweaked
  rw [← List.length_insertionSort keyLe proof.innerKeys, sorted]
  rfl

end MultisigReceiptProof

def ToLocalScript.toScript (script : ToLocalScript) : ScriptBuf :=
  [OP_IF] ++ pushSlice script.revocationPubkey.serialize ++ [OP_ELSE] ++
    pushInt script.toSelfDelay.toNat ++ [OP_CSV, OP_DROP] ++
    pushSlice script.localDelayedPubkey.serialize ++ [OP_ENDIF, OP_CHECKSIG]

namespace LightningCommitmentProof

variable (prims : Primitives) (proof : LightningCommitmentProof)

/-- The script with the revocation key tweaked. -/
def toRedeemScript : Except ProofError ToLocalScript :=
  match prims.tweak proof.data.revocationPubkey proof.receipt with
  | none => .error .receiptKey
  | some key => .ok { proof.data with revocationPubkey := key }

/-- `LightningCommitmentWitnessStack::from_witness_stack`. -/
def checkWitnessStack (stack : List Bytes) : Except ProofError Unit :=
  match stack with
  | [signature, flag] =>
    if prims.parsesAsEcdsa signature ∧ flag.length ≤ 1 then .ok () else .error .witnessStack
  | _ => .error .witnessStack

def checkedCheckByInput (txin : TxIn) : Except ProofError Unit := do
  let (stack, redeemScript) ← p2wshWitness txin.witness
  checkWitnessStack prims stack
  let expected ← proof.toRedeemScript prims
  if expected.toScript = redeemScript then .ok () else .error .redeemScriptMismatch

def checkedCheckByOutput (txout : TxOut) : Except ProofError Unit := do
  let expected ← proof.toRedeemScript prims
  if txout.scriptPubkey = prims.toP2wsh expected.toScript then .ok ()
  else .error .scriptPubKeyMismatch

end LightningCommitmentProof

variable (data : LightningHtlcData)

namespace LightningHtlcData

/-- `2 OP_SWAP <local_htlcpubkey> 2 OP_CHECKMULTISIG`. -/
def localKeyMultisigCheck : ScriptBuf :=
  pushInt 2 ++ [OP_SWAP] ++ pushSlice data.localHtlcKey.serialize ++ pushInt 2 ++ [OP_CHECKMULTISIG]

/-- `OP_HASH160 <payment_hash> OP_EQUALVERIFY`. -/
def paymentHashCheck : ScriptBuf :=
  [OP_HASH160] ++ pushSlice data.paymentHash.toList ++ [OP_EQUALVERIFY]

/-- What the two kinds of contract put between the shared head and tail. -/
def kindScript : ScriptBuf :=
  match data.kind with
  | .offered =>
    [OP_NOTIF, OP_DROP] ++ data.localKeyMultisigCheck ++ [OP_ELSE] ++ data.paymentHashCheck
  | .received cltvExpiry =>
    [OP_IF] ++ data.paymentHashCheck ++ data.localKeyMultisigCheck ++ [OP_ELSE, OP_DROP] ++
      pushInt cltvExpiry.toNat ++ [OP_CLTV, OP_DROP]

def toScript : ScriptBuf :=
  [OP_DUP, OP_HASH160] ++ pushSlice data.revocationKeyHash.toList ++
    [OP_EQUAL, OP_IF, OP_CHECKSIG, OP_ELSE] ++ pushSlice data.remoteHtlcKey.serialize ++
    [OP_SWAP, OP_SIZE] ++ pushInt 32 ++ [OP_EQUAL] ++ data.kindScript ++
    [OP_CHECKSIG, OP_ENDIF, OP_ENDIF]

end LightningHtlcData

namespace LightningHtlcProof

variable (prims : Primitives) (proof : LightningHtlcProof)

/-- The contract with the remote key tweaked; the source's `tweak` panics on failure. -/
def toScript : Except ProofError ScriptBuf :=
  match prims.tweak proof.data.remoteHtlcKey proof.receipt with
  | none => .error .panicked
  | some key => .ok { proof.data with remoteHtlcKey := key }.toScript

def checkedCheckByInput (txin : TxIn) : Except ProofError Unit :=
  match txin.witness.getLast? with
  | none => .error .invalidWitnessProgramStructure
  | some witnessProgram => do
      let expected ← proof.toScript prims
      if prims.sha256 witnessProgram = prims.sha256 expected then .ok ()
      else .error .scriptHashMismatch

def checkedCheckByOutput (txout : TxOut) : Except ProofError Unit := do
  let expected ← proof.toScript prims
  if txout.scriptPubkey.isP2wsh then
    match (instructions txout.scriptPubkey).getLast? with
    | some (.ok (.pushBytes hash)) =>
      if hash.length = 32 then
        if (prims.sha256 expected).toList = hash then .ok () else .error .scriptHashMismatch
      else .error .invalidWScriptHashSize
    | _ => .error .invalidWitnessProgramStructure
  else .error .invalidScriptKind

end LightningHtlcProof

/-- `is_pubkey`: the bytes have the form of a compressed key. -/
def isPubkey (bytes : Bytes) : Bool :=
  bytes.length == 33 && (bytes.head? == some 2 || bytes.head? == some 3)

/-- The first key-like push before the script ends or breaks. -/
def firstPubkey : List Item → Option Bytes
  | .ok (.pushBytes bytes) :: rest => if isPubkey bytes then some bytes else firstPubkey rest
  | .ok (.op _) :: rest => firstPubkey rest
  | _ => none

namespace P2WSHProof

variable (prims : Primitives) (proof : P2WSHProof)

/-- The first key of the script is the inner key tweaked by the receipt. -/
def checkPubkey : Except ProofError Unit :=
  match prims.tweak proof.innerKey proof.receipt with
  | none => .error .panicked
  | some key =>
    match firstPubkey (instructions proof.script) with
    | none => .error .missingPubkey
    | some bytes => if bytes = key.serialize then .ok () else .error .pubkeyMismatch

def checkedCheckByInput (txin : TxIn) : Except ProofError Unit := do
  proof.checkPubkey prims
  let (_, redeemScript) ← p2wshWitness txin.witness
  if redeemScript = proof.script then .ok () else .error .redeemScriptMismatch

def checkedCheckByOutput (txout : TxOut) : Except ProofError Unit := do
  proof.checkPubkey prims
  if prims.toP2wsh proof.script = txout.scriptPubkey then .ok ()
  else .error .outputScriptMismatch

end P2WSHProof

namespace TaprootProof

variable (prims : Primitives) (proof : TaprootProof)

/-- The key-path script of the tweaked key. -/
def toWitnessScript : Except ProofError ScriptBuf :=
  match prims.receiptKey (prims.receiptHash proof.receipt proof.metadata) proof.innerKey with
  | none => .error .receiptKey
  | some key => .ok (ScriptBuf.newP2tr (prims.tapOutputKey key.x none))

/-- The spent script is not in the input, so the isolated check accepts every input. -/
def checkedCheckByInput (_ : TaprootProof) (_ : TxIn) : Except ProofError Unit := .ok ()

def checkedCheckByOutput (txout : TxOut) : Except ProofError Unit := do
  let expected ← proof.toWitnessScript prims
  if txout.scriptPubkey = expected then
    if checkMetadataSize proof.metadata then .ok () else .error .metadataBytesOverflow
  else .error .scriptPubKeyMismatch

end TaprootProof

namespace SparkExitProof

variable (prims : Primitives) (proof : SparkExitProof)

/-- `SparkExitScript::timelock_script`; a lock time of `500000000` or more is not a height. -/
def timelockScript : Except ProofError ScriptBuf :=
  match prims.tweak proof.script.delayKey proof.receipt with
  | none => .error .receiptKey
  | some key =>
    if proof.script.locktime.toNat < 500000000 then
      .ok (pushInt proof.script.locktime.toNat ++ [OP_CLTV, OP_DROP] ++
        pushSlice key.x.toList ++ [OP_CHECKSIG])
    else .error .lockTime

/-- `TaprootSpendInfo::output_key` of the untweaked revocation key and the timelock leaf. -/
def outputKey : Except ProofError Bytes32 := do
  let leaf ← proof.timelockScript prims
  return prims.tapOutputKey proof.script.revocationKey.x (some (prims.tapLeafHash leaf))

/-- Accepts every input, whatever output it spends. -/
def checkedCheckByInput (_ : SparkExitProof) (_ : TxIn) : Except ProofError Unit := .ok ()

def checkedCheckByOutput (txout : TxOut) : Except ProofError Unit := do
  let expected ← proof.outputKey prims
  if ScriptBuf.newP2tr expected = txout.scriptPubkey then .ok ()
  else .error .scriptPubKeyMismatch

end SparkExitProof

namespace ReceiptProof

variable (prims : Primitives)

def checkedCheckByInput (proof : ReceiptProof) (txin : TxIn) : Except ProofError Unit :=
  match proof with
  | sig proof => proof.checkedCheckByInput prims txin
  | p2wsh proof => proof.checkedCheckByInput prims txin
  | p2tr proof => proof.checkedCheckByInput txin
  | emptyReceipt proof => proof.checkedCheckByInput prims txin
  | multisig proof => proof.checkedCheckByInput prims txin
  | lightning proof => proof.checkedCheckByInput prims txin
  | lightningHtlc proof => proof.checkedCheckByInput prims txin
  | sparkExit proof => proof.checkedCheckByInput txin

def checkedCheckByOutput (proof : ReceiptProof) (txout : TxOut) : Except ProofError Unit :=
  match proof with
  | sig proof => proof.checkedCheckByOutput prims txout
  | emptyReceipt proof => proof.checkedCheckByOutput prims txout
  | multisig proof => proof.checkedCheckByOutput prims txout
  | p2tr proof => proof.checkedCheckByOutput prims txout
  | lightning proof => proof.checkedCheckByOutput prims txout
  | lightningHtlc proof => proof.checkedCheckByOutput prims txout
  | p2wsh proof => proof.checkedCheckByOutput prims txout
  | sparkExit proof => proof.checkedCheckByOutput prims txout

end ReceiptProof

end Lrc20
