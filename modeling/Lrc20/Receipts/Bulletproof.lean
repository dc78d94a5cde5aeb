import Lrc20.Receipts.Proof

open ByteOrder

namespace Lrc20

/-- A curve point by the 33 bytes `GroupEncoding::to_bytes` gives it. -/
abbrev ProjectivePoint := List.Vector UInt8 33

/-- A scalar by the 32 bytes of `PrimeField::to_repr`. -/
abbrev Scalar := Bytes32

structure WipProof where
  l : List ProjectivePoint
  r : List ProjectivePoint
  a : ProjectivePoint
  b : ProjectivePoint
  rRev : Scalar
  sRev : Scalar
  deltaRev : Scalar
deriving DecidableEq

namespace WipProof

def toBytes (wip : WipProof) : Bytes :=
  wip.a.toList ++ wip.b.toList ++ wip.rRev.toList ++ wip.sRev.toList ++ wip.deltaRev.toList ++
    (wip.l.zip wip.r).flatMap (fun pair => pair.1.toList ++ pair.2.toList)

end WipProof

/-- Proof that a value is in the range `[0, 2^128)`. -/
structure RangeProof where
  a : ProjectivePoint
  wip : WipProof
deriving DecidableEq

def RangeProof.toBytes (proof : RangeProof) : Bytes :=
  proof.a.toList ++ proof.wip.toBytes

structure Bulletproof where
  receipt : Receipt
  innerKey : PublicKey
  senderKey : PublicKey
  /-- Pedersen commitment of the receipt amount. -/
  commitment : ProjectivePoint
  proof : RangeProof
  signature : Bytes64
  tokenPubkeySignature : Bytes64
deriving DecidableEq

/-- `TokenAmount::from_array`. -/
def TokenAmount.fromArray (bytes : Bytes32) : TokenAmount where
  amount := Fin.ofNat (2 ^ 128) (ofBeBytes (bytes.toList.take 16))
  blindingFactor := ⟨bytes.toList.drop 16, by simp⟩

/-- The errors of `BulletproofError` beside those it shares with the other proofs. -/
inductive BulletproofError where
  | proof (error : ProofError)
  | scriptMismatch
  | tokenAmountMismatch
  | invalidRangeProof
deriving DecidableEq, Repr

namespace Bulletproof

-- `verify` is the range proof verifier of the `bulletproof` crate.
variable (prims : Primitives) (verify : ProjectivePoint → RangeProof → Bool) (proof : Bulletproof)

/-- `check_token_amount`: the receipt's amount is the hash of the commitment and the proof. -/
def checkTokenAmount : Bool :=
  TokenAmount.fromArray (prims.sha256 (proof.commitment.toList ++ proof.proof.toBytes)) ==
    proof.receipt.tokenAmount

def checkedCheckByInput (txin : TxIn) : Except BulletproofError Unit :=
  match p2wpkhWitnessKey prims txin.witness with
  | .error e => .error (.proof e)
  | .ok pubkey =>
    match prims.tweak proof.innerKey proof.receipt with
    | none => .error (.proof .receiptKey)
    | some key =>
      if key ≠ pubkey then .error (.proof .publicKeyMismatch)
      else if verify proof.commitment proof.proof then .ok ()
      else .error .invalidRangeProof

def checkedCheckByOutput (txout : TxOut) : Except BulletproofError Unit :=
  match prims.tweak proof.innerKey proof.receipt with
  | none => .error (.proof .receiptKey)
  | some key =>
    if txout.scriptPubkey ≠ prims.toP2wpkh key then .error .scriptMismatch
    else if !proof.checkTokenAmount prims then .error .tokenAmountMismatch
    else if verify proof.commitment proof.proof then .ok ()
    else .error .invalidRangeProof

end Bulletproof

/-- The proof kinds of a build with the `bulletproof` feature. -/
inductive AnyReceiptProof where
  | plain (proof : ReceiptProof)
  | bulletproof (proof : Bulletproof)
deriving DecidableEq

namespace AnyReceiptProof

variable (prims : Primitives) (verify : ProjectivePoint → RangeProof → Bool)

def receipt : AnyReceiptProof → Receipt
  | plain proof => proof.receipt
  | bulletproof proof => proof.receipt

/-- The metadata that enters the receipt hash. -/
def metadata : AnyReceiptProof → Option Metadata
  | plain proof => proof.metadata
  | bulletproof _ => none

def checkedCheckByInput (proof : AnyReceiptProof) (txin : TxIn) : Except BulletproofError Unit :=
  match proof with
  | plain proof => (proof.checkedCheckByInput prims txin).mapError .proof
  | bulletproof proof => proof.checkedCheckByInput prims verify txin

def checkedCheckByOutput (proof : AnyReceiptProof) (txout : TxOut) : Except BulletproofError Unit :=
  match proof with
  | plain proof => (proof.checkedCheckByOutput prims txout).mapError .proof
  | bulletproof proof => proof.checkedCheckByOutput prims verify txout

end AnyReceiptProof

end Lrc20
