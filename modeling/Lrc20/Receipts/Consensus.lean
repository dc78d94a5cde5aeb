import Lrc20.Lib.Codec
import Lrc20.Receipts.Bulletproof

open ByteOrder Codec Codec.Decoder Codec.Written

namespace Lrc20

open Receipt PublicKey

/-- What the codecs take from the `serde_json`, `k256` and `secp256k1` crates. -/
structure Formats extends Primitives where
  /-- The value `serde_json::from_slice` parses, by the text `serde_json::to_vec` gives it. -/
  parseJson : Bytes → Option Metadata
  /-- Whether `ProjectivePoint::from_bytes` accepts the bytes. -/
  isGroupElement : ProjectivePoint → Bool
  /-- Whether `Scalar::from_repr` accepts the bytes. -/
  isScalar : Scalar → Bool
  /-- Whether `ecdsa::Signature::from_compact` accepts the bytes. -/
  isCompactEcdsa : Bytes64 → Bool
  /-- Whether `SecretKey::from_slice` accepts the bytes. -/
  isSecretKey : Bytes32 → Bool

/-- Stand-ins that accept everything but an empty JSON text. -/
def Formats.plain : Formats where
  toPrimitives := Primitives.plain
  parseJson text := if text = [] then none else some text
  isGroupElement _ := true
  isScalar _ := true
  isCompactEcdsa _ := true
  isSecretKey _ := true

def receiptSize : Nat := 65

namespace Receipt

def toBytes (receipt : Receipt) : Bytes :=
  receipt.tokenAmount.toBytes ++ receipt.tokenPubkey.serialize

/-- `Receipt::from_bytes`, which reads the first `RECEIPT_SIZE` bytes. -/
def fromBytes (prims : Primitives) (bytes : Bytes) : Option Receipt :=
  if enough : receiptSize ≤ bytes.length then
    match prims.publicKeyFromSlice ((bytes.drop 32).take 33) with
    | some tokenPubkey =>
      some ⟨TokenAmount.fromArray ⟨bytes.take 32, by simp [receiptSize] at enough ⊢; omega⟩,
        tokenPubkey⟩
    | none => none
  else none

def consensusEncode (receipt : Receipt) : Written := ⟨receipt.toBytes, receiptSize⟩

def consensusDecode (formats : Formats) : Decoder Receipt := do
  let bytes ← readExact receiptSize
  orFail (.parseFailed "failed to parse the Receipt") (fromBytes formats.toPrimitives bytes)

end Receipt

/-- A key read with `read_exact` and parsed; the error of the parser carries the message. -/
def decodePublicKey (formats : Formats) (message : String) : Decoder PublicKey := do
  let bytes ← readExact 33
  orFail (.parseFailed message) (formats.publicKeyFromSlice bytes)

/-- The length in big-endian order, then the text; no metadata is a length of zero. -/
def tryWriteMetadata : Option Metadata → Written
  | some json => emit (beBytes 4 json.length) ++ emit json
  | none => emit (beBytes 4 0)

/-- `reader.take(length).read_to_end`, which takes what there is. -/
def readToEnd (length : Nat) : Decoder Bytes := fun bytes =>
  .ok (bytes.take length, bytes.drop length)

def tryReadMetadata (formats : Formats) : Decoder (Option Metadata) := do
  let lengthBytes ← readExact 4
  let length := ofBeBytes lengthBytes
  if 0 < length then
    let text ← readToEnd length
    let metadata ← orFail (.parseFailed "Failed to parse metadata") (formats.parseJson text)
    pure (some metadata)
  else pure none

/-- A receipt, its key and metadata: the form of the `P2WPKH` and the taproot proof. -/
def writeKeyed (receipt : Receipt) (innerKey : PublicKey) (metadata : Option Metadata) : Written :=
  receipt.consensusEncode ++ emit innerKey.serialize ++ tryWriteMetadata metadata

def decodeKeyed {α : Type} (formats : Formats)
    (build : Receipt → PublicKey → Option Metadata → α) : Decoder α := do
  let receipt ← consensusDecode formats
  let innerKey ← decodePublicKey formats "Failed to parse public key bytes"
  let metadata ← tryReadMetadata formats
  pure (build receipt innerKey metadata)

namespace P2WPKHProof

def consensusEncode (proof : P2WPKHProof) : Written :=
  writeKeyed proof.receipt proof.innerKey proof.metadata

def consensusDecode (formats : Formats) : Decoder P2WPKHProof := decodeKeyed formats .mk

end P2WPKHProof

namespace TaprootProof

def consensusEncode (proof : TaprootProof) : Written :=
  writeKeyed proof.receipt proof.innerKey proof.metadata

def consensusDecode (formats : Formats) : Decoder TaprootProof := decodeKeyed formats .mk

end TaprootProof

namespace P2WSHProof

def consensusEncode (proof : P2WSHProof) : Written :=
  proof.receipt.consensusEncode ++ emit proof.innerKey.serialize ++ writeVecU8 proof.script

def consensusDecode (formats : Formats) : Decoder P2WSHProof := do
  let receipt ← Receipt.consensusDecode formats
  let innerKey ← decodePublicKey formats "Failed to parse public key bytes"
  let script ← vecU8
  pure ⟨receipt, innerKey, script⟩

end P2WSHProof

namespace EmptyReceiptProof

def consensusEncode (proof : EmptyReceiptProof) : Written := emit proof.innerKey.serialize

def consensusDecode (formats : Formats) : Decoder EmptyReceiptProof := do
  let innerKey ← decodePublicKey formats "Failed to parse the public key"
  pure ⟨innerKey⟩

end EmptyReceiptProof

namespace MultisigReceiptProof

/-- `MultisigReceiptProof::new`, which sorts the keys. -/
def new (receipt : Receipt) (innerKeys : List PublicKey) (m : UInt8) : MultisigReceiptProof :=
  ⟨receipt, innerKeys.insertionSort keyLe, m⟩

/-- The number of keys is written as a `u32`. -/
def consensusEncode (proof : MultisigReceiptProof) : Written :=
  proof.receipt.consensusEncode ++
    writeCounted 4 (fun key => emit key.serialize) proof.innerKeys ++ emit [proof.m]

/-- One inner key; here a reader that ends is a parse failure too. -/
def decodeInnerKey (formats : Formats) : Decoder PublicKey := do
  let bytes ← (readExact 33).failingWith (.parseFailed "Failed to parse the public key")
  orFail (.parseFailed "Failed to create public key from bytes") (formats.publicKeyFromSlice bytes)

def consensusDecode (formats : Formats) : Decoder MultisigReceiptProof := do
  let receipt ← Receipt.consensusDecode formats
  let innerKeys ← counted 4 (decodeInnerKey formats)
  let m ← u8
  pure (new receipt innerKeys m)

end MultisigReceiptProof

namespace LightningCommitmentProof

def consensusEncode (proof : LightningCommitmentProof) : Written :=
  proof.receipt.consensusEncode ++ emit proof.data.revocationPubkey.serialize ++
    emit (leBytes 2 proof.data.toSelfDelay.toNat) ++ emit proof.data.localDelayedPubkey.serialize

def consensusDecode (formats : Formats) : Decoder LightningCommitmentProof := do
  let receipt ← Receipt.consensusDecode formats
  let revocationPubkey ← decodePublicKey formats "Failed to parse the public key"
  let toSelfDelay ← u16
  let localDelayedPubkey ← decodePublicKey formats "Failed to parse the public key"
  pure ⟨receipt, ⟨revocationPubkey, toSelfDelay, localDelayedPubkey⟩⟩

end LightningCommitmentProof

namespace HtlcScriptKind

def consensusEncode : HtlcScriptKind → Written
  | offered => emit [0]
  | received cltvExpiry => emit [1] ++ emit (leBytes 4 cltvExpiry.toNat)

def consensusDecode : Decoder HtlcScriptKind := do
  let flag ← u8
  if flag = 0 then pure offered
  else if flag = 1 then
    let cltvExpiry ← u32
    pure (received cltvExpiry)
  else fail (.parseFailed "Unknown HTLC script kind")

end HtlcScriptKind

namespace LightningHtlcProof

def consensusEncode (proof : LightningHtlcProof) : Written :=
  proof.receipt.consensusEncode ++ (emit proof.data.revocationKeyHash.toList ++
    emit proof.data.remoteHtlcKey.serialize ++ emit proof.data.localHtlcKey.serialize ++
    emit proof.data.paymentHash.toList ++ proof.data.kind.consensusEncode)

def consensusDecode (formats : Formats) : Decoder LightningHtlcProof := do
  let receipt ← Receipt.consensusDecode formats
  let revocationKeyHash ← array 20
  let remoteHtlcKey ← decodePublicKey formats "Failed to parse the public key"
  let localHtlcKey ← decodePublicKey formats "Failed to parse the hash"
  let paymentHash ← array 20
  let kind ← HtlcScriptKind.consensusDecode
  pure ⟨receipt, ⟨revocationKeyHash, remoteHtlcKey, localHtlcKey, paymentHash, kind⟩⟩

end LightningHtlcProof

namespace SparkExitProof

def consensusEncode (proof : SparkExitProof) : Written :=
  proof.receipt.consensusEncode ++ emit proof.script.revocationKey.serialize ++
    emit (leBytes 4 proof.script.locktime.toNat) ++ emit proof.script.delayKey.serialize ++
    tryWriteMetadata proof.metadata

def consensusDecode (formats : Formats) : Decoder SparkExitProof := do
  let receipt ← Receipt.consensusDecode formats
  let revocationKey ← decodePublicKey formats "Failed to parse the public key"
  let locktime ← u32
  let delayKey ← decodePublicKey formats "Failed to parse the public key"
  let metadata ← tryReadMetadata formats
  pure ⟨receipt, ⟨revocationKey, delayKey, locktime⟩, metadata⟩

end SparkExitProof

/-- The range proof parser's failure, as its only caller reports it. -/
def rangeProofFailure : Failure := .parseFailed "Failed to parse the range proof"

/-- `to_point` of the next 33 bytes of a slice; too short a slice panics. -/
def toPoint (formats : Formats) : Decoder ProjectivePoint := do
  let point ← (array 33).failingWith .panicked
  orFail rangeProofFailure (if formats.isGroupElement point then some point else none)

/-- `to_scalar` of the next 32 bytes of a slice. -/
def toScalar (formats : Formats) : Decoder Scalar := do
  let scalar ← (array 32).failingWith .panicked
  orFail rangeProofFailure (if formats.isScalar scalar then some scalar else none)

/-- The loop of `WipProof::from_bytes`: pairs of points up to the end of the slice, of which
there are fewer than it has bytes. -/
def wipPairs (formats : Formats) : Nat → Decoder (List (ProjectivePoint × ProjectivePoint))
  | 0 => pure []
  | fuel + 1 => fun data =>
    if data = [] then .ok ([], [])
    else (do
      let l ← toPoint formats
      let r ← toPoint formats
      let pairs ← wipPairs formats fuel
      pure ((l, r) :: pairs) : Decoder _) data

namespace RangeProof

/-- The parts of a range proof in their order, the last of them by so many rounds. -/
def decodeParts (formats : Formats) (rounds : Nat) : Decoder RangeProof := do
  let aOuter ← toPoint formats
  let a ← toPoint formats
  let b ← toPoint formats
  let rRev ← toScalar formats
  let sRev ← toScalar formats
  let deltaRev ← toScalar formats
  let pairs ← wipPairs formats rounds
  pure ⟨aOuter, ⟨pairs.map Prod.fst, pairs.map Prod.snd, a, b, rRev, sRev, deltaRev⟩⟩

/-- `RangeProof::from_bytes`. -/
def fromBytes (formats : Formats) (data : Bytes) : Except Failure RangeProof :=
  match decodeParts formats data.length data with
  | .ok (proof, _) => .ok proof
  | .error failure => .error failure

end RangeProof

namespace Bulletproof

def consensusEncode (proof : Bulletproof) : Written :=
  proof.receipt.consensusEncode ++ emit proof.innerKey.serialize ++
    emit proof.senderKey.serialize ++ writeVecU8 proof.commitment.toList ++
    writeVecU8 proof.proof.toBytes ++ emit proof.signature.toList ++
    emit proof.tokenPubkeySignature.toList

/-- The commitment's bytes as an array; `GenericArray::from` panics on another length. -/
def commitmentArray (bytes : Bytes) : Decoder ProjectivePoint :=
  if length : bytes.length = 33 then pure ⟨bytes, length⟩ else fail .panicked

/-- `Bulletproof::consensus_decode`, which reads 33 bytes between the commitment and the
range proof and drops them. -/
def consensusDecode (formats : Formats) : Decoder Bulletproof := do
  let receipt ← Receipt.consensusDecode formats
  let innerKey ← decodePublicKey formats "Failed to parse the public key"
  let senderKey ← decodePublicKey formats "Failed to parse the public key"
  let commitmentBytes ← vecU8
  let commitment ← commitmentArray commitmentBytes
  let _ ← readExact 33
  let bytes ← vecU8
  let proof ← ofExcept (RangeProof.fromBytes formats bytes)
  let signature ← array 64
  let tokenPubkeySignature ← array 64
  let commitment ← orFail (.parseFailed "Failed to parse the commitment")
    (if formats.isGroupElement commitment then some commitment else none)
  pure ⟨receipt, innerKey, senderKey, commitment, proof, signature, tokenPubkeySignature⟩

end Bulletproof

namespace ReceiptProof

def consensusEncode : ReceiptProof → Written
  | sig proof => emit [0] ++ proof.consensusEncode
  | p2wsh proof => emit [6] ++ proof.consensusEncode
  | p2tr proof => emit [7] ++ proof.consensusEncode
  | emptyReceipt proof => emit [5] ++ proof.consensusEncode
  | multisig proof => emit [1] ++ proof.consensusEncode
  | lightning proof => emit [2] ++ proof.consensusEncode
  | lightningHtlc proof => emit [3] ++ proof.consensusEncode
  | sparkExit proof => emit [8] ++ proof.consensusEncode

/-- The proof after its flag. -/
def decodeFlagged (formats : Formats) (flag : UInt8) : Decoder ReceiptProof :=
  if flag = 0 then do
    let proof ← P2WPKHProof.consensusDecode formats
    pure (sig proof)
  else if flag = 6 then do
    let proof ← P2WSHProof.consensusDecode formats
    pure (p2wsh proof)
  else if flag = 7 then do
    let proof ← TaprootProof.consensusDecode formats
    pure (p2tr proof)
  else if flag = 5 then do
    let proof ← EmptyReceiptProof.consensusDecode formats
    pure (emptyReceipt proof)
  else if flag = 1 then do
    let proof ← MultisigReceiptProof.consensusDecode formats
    pure (multisig proof)
  else if flag = 2 then do
    let proof ← LightningCommitmentProof.consensusDecode formats
    pure (lightning proof)
  else if flag = 3 then do
    let proof ← LightningHtlcProof.consensusDecode formats
    pure (lightningHtlc proof)
  else if flag = 8 then do
    let proof ← SparkExitProof.consensusDecode formats
    pure (sparkExit proof)
  else fail (.parseFailed "Unknown receipt proof")

/-- `ReceiptProof::consensus_decode` of a build without the `bulletproof` feature. -/
def consensusDecode (formats : Formats) : Decoder ReceiptProof := do
  let flag ← u8
  decodeFlagged formats flag

end ReceiptProof

namespace AnyReceiptProof

def consensusEncode : AnyReceiptProof → Written
  | plain proof => proof.consensusEncode
  | bulletproof proof => emit [4] ++ proof.consensusEncode

/-- `ReceiptProof::consensus_decode` of a build with the `bulletproof` feature. -/
def consensusDecode (formats : Formats) : Decoder AnyReceiptProof := do
  let flag ← u8
  if flag = 4 then
    let proof ← Bulletproof.consensusDecode formats
    pure (bulletproof proof)
  else
    let proof ← ReceiptProof.decodeFlagged formats flag
    pure (plain proof)

end AnyReceiptProof

/-! The keys read back, and so does a receipt. -/

theorem TokenAmount.toBytes_fromArray (bytes : Bytes32) :
    (TokenAmount.fromArray bytes).toBytes = bytes.toList := by
  have length : (bytes.toList.take 16).length = 16 := by simp
  have small : ofBeBytes (bytes.toList.take 16) < 2 ^ 128 := by
    have bound := ofLeBytes_lt (bytes.toList.take 16).reverse
    rw [List.length_reverse, length] at bound
    exact lt_of_lt_of_eq bound (by norm_num)
  have amount : (TokenAmount.fromArray bytes).amount.val = ofBeBytes (bytes.toList.take 16) :=
    Nat.mod_eq_of_lt small
  have front := beBytes_ofBeBytes (bytes.toList.take 16)
  rw [length] at front
  rw [toBytes, amount, front]
  exact List.take_append_drop 16 bytes.toList

theorem TokenAmount.fromArray_toBytes (tokenAmount : TokenAmount) :
    TokenAmount.fromArray ⟨tokenAmount.toBytes, by simp⟩ = tokenAmount :=
  toBytes_injective (toBytes_fromArray _)

section ReadBack

variable {formats : Formats} {metadata : Option Metadata} {receipt : Receipt}

theorem reads_decodePublicKey {message : String} {key : PublicKey} (point : formats.isPoint key) :
    Reads (decodePublicKey formats message) key.serialize key := by
  have front : Reads (readExact 33) key.serialize key.serialize := by
    simpa using reads_readExact key.serialize
  refine front.bind_pure ?_
  rw [Primitives.publicKeyFromSlice_serialize point, orFail_some]

theorem Receipt.fromBytes_toBytes (point : formats.isPoint receipt.tokenPubkey) :
    fromBytes formats.toPrimitives receipt.toBytes = some receipt := by
  have amountBytes : receipt.toBytes.take 32 = receipt.tokenAmount.toBytes := by
    simp [toBytes]
  have keyBytes : (receipt.toBytes.drop 32).take 33 = receipt.tokenPubkey.serialize := by
    simp [toBytes]
  unfold fromBytes
  rw [dif_pos (by simp [toBytes, receiptSize]), keyBytes,
    Primitives.publicKeyFromSlice_serialize point]
  simp only [amountBytes, TokenAmount.fromArray_toBytes]

theorem reads_receipt (point : formats.isPoint receipt.tokenPubkey) :
    Reads (consensusDecode formats) receipt.consensusEncode.bytes receipt := by
  have front : Reads (readExact receiptSize) receipt.toBytes receipt.toBytes := by
    simpa [toBytes, receiptSize] using reads_readExact receipt.toBytes
  refine front.bind_pure ?_
  rw [fromBytes_toBytes point, orFail_some]

/-- The metadata that the decoder gives back: none, or JSON text that parses to itself. -/
def MetadataReadsBack (formats : Formats) : Option Metadata → Prop
  | none => True
  | some json => 0 < json.length ∧ json.length < 2 ^ 32 ∧ formats.parseJson json = some json

/-- A text is given when its length, as it was written, is not zero and so many bytes parse. -/
theorem tryReadMetadata_eq_some {json rest parsed after : Bytes} :
    tryReadMetadata formats ((tryWriteMetadata (some json)).bytes ++ rest) =
        .ok (some parsed, after) ↔
      0 < json.length % 2 ^ 32 ∧
        formats.parseJson ((json ++ rest).take (json.length % 2 ^ 32)) = some parsed ∧
        (json ++ rest).drop (json.length % 2 ^ 32) = after := by
  have front : readExact 4 (beBytes 4 json.length ++ (json ++ rest)) =
      .ok (beBytes 4 json.length, json ++ rest) := readExact_eq_ok.mpr ⟨rfl, by simp⟩
  have width : (256 ^ 4 : Nat) = 2 ^ 32 := by norm_num
  rw [tryWriteMetadata, append_bytes, emit_bytes, emit_bytes, List.append_assoc, tryReadMetadata,
    bind_of_ok front, ofBeBytes_beBytes, width]
  split
  · rename_i positive
    simp only [readToEnd, bind_eq_ok, orFail_eq_ok, pure_eq_ok, positive, true_and]
    grind
  · rename_i zero
    simp only [pure_eq_ok, zero, false_and, reduceCtorEq]

theorem reads_metadata_iff :
    Reads (tryReadMetadata formats) (tryWriteMetadata metadata).bytes metadata ↔
      MetadataReadsBack formats metadata := by
  cases metadata with
  | none =>
    simp only [MetadataReadsBack, iff_true]
    intro rest
    rfl
  | some json =>
    constructor
    · intro reads
      obtain ⟨positive, accepted, left⟩ := tryReadMetadata_eq_some.mp (reads [])
      rw [List.append_nil] at accepted left
      -- Nothing is left over, so the length was written in full.
      have short : json.length ≤ json.length % 2 ^ 32 := List.drop_eq_nil_iff.mp left
      have fits : json.length < 2 ^ 32 := by omega
      rw [Nat.mod_eq_of_lt fits, List.take_length] at accepted
      exact ⟨by omega, fits, accepted⟩
    · rintro ⟨positive, fits, parses⟩ rest
      refine tryReadMetadata_eq_some.mpr ?_
      rw [Nat.mod_eq_of_lt fits, List.take_left, List.drop_left]
      exact ⟨positive, parses, rfl⟩

/-- Metadata that is not read back is misread, when its length fits the field. -/
theorem misreads_metadata (fits : (tryWriteMetadata metadata).bytes.length < 2 ^ 32)
    (lacks : ¬ MetadataReadsBack formats metadata) :
    Misreads (tryReadMetadata formats) (tryWriteMetadata metadata).bytes metadata := by
  intro rest after given
  cases metadata with
  | none => exact lacks trivial
  | some json =>
    have short : json.length < 2 ^ 32 := by
      simp only [tryWriteMetadata, append_bytes, emit_bytes, List.length_append] at fits
      omega
    obtain ⟨positive, accepted, -⟩ := tryReadMetadata_eq_some.mp given
    rw [Nat.mod_eq_of_lt short] at positive accepted
    rw [List.take_left] at accepted
    exact lacks ⟨positive, short, accepted⟩

/-- The decoder reads the value back exactly under the condition; without it the value is not
given, as long as the bytes can be counted by a `u32`. -/
structure Carried {α : Type} (decoder : Decoder α) (bytes : Bytes) (value : α)
    (condition : Prop) : Prop where
  reads_iff : Reads decoder bytes value ↔ condition
  misreads : bytes.length < 2 ^ 32 → ¬ condition → Misreads decoder bytes value

section Carrying

variable {α β : Type} {decoder : Decoder α} {bytes innerBytes : Bytes} {value : α}
  {inner : Decoder β} {innerValue : β} {condition : Prop}

theorem Carried.of_reads (reads : Reads decoder bytes value) : Carried decoder bytes value True :=
  ⟨iff_of_true reads trivial, fun _ lacks => absurd trivial lacks⟩

/-- What every value given has, and suffices, is the condition. -/
theorem Carried.of_yields {property : α → Prop} (yields : Yields decoder property)
    (reads : property value → Reads decoder bytes value) :
    Carried decoder bytes value (property value) :=
  ⟨⟨fun reads => reads.yields yields, reads⟩, fun _ lacks => yields.misreads lacks⟩

theorem Carried.of_tracks (carried : Carried inner innerBytes innerValue condition)
    (tracks : Tracks decoder bytes value inner innerBytes innerValue)
    (shorter : innerBytes.length ≤ bytes.length) : Carried decoder bytes value condition :=
  ⟨tracks.reads_iff.trans carried.reads_iff,
    fun fits lacks => tracks.misreads (carried.misreads (by omega) lacks)⟩

theorem Carried.readsWhen (carried : Carried decoder bytes value condition)
    (fits : bytes.length < 2 ^ 32) : ReadsWhen decoder bytes value condition :=
  ⟨carried.reads_iff.mpr, carried.misreads fits⟩

end Carrying

theorem carried_metadata :
    Carried (tryReadMetadata formats) (tryWriteMetadata metadata).bytes metadata
      (MetadataReadsBack formats metadata) :=
  ⟨reads_metadata_iff, misreads_metadata⟩

theorem carried_keyed {α : Type} {build : Receipt → PublicKey → Option Metadata → α}
    {innerKey : PublicKey} (injective : Function.Injective (build receipt innerKey))
    (token : formats.isPoint receipt.tokenPubkey) (inner : formats.isPoint innerKey) :
    Carried (decodeKeyed formats build) (writeKeyed receipt innerKey metadata).bytes
      (build receipt innerKey metadata) (MetadataReadsBack formats metadata) := by
  simp only [writeKeyed, append_bytes, emit_bytes, List.append_assoc]
  refine carried_metadata.of_tracks ?_ (by simp only [List.length_append]; omega)
  exact (tracks_bind (reads_receipt token)).trans
    ((tracks_bind (reads_decodePublicKey inner)).trans (tracks_map injective))

theorem P2WSHProof.carried {proof : P2WSHProof}
    (token : formats.isPoint proof.receipt.tokenPubkey) (inner : formats.isPoint proof.innerKey) :
    Carried (consensusDecode formats) proof.consensusEncode.bytes proof
      ((writeVecU8 proof.script).bytes.length ≤ maxVecSize) := by
  have injective : Function.Injective (P2WSHProof.mk proof.receipt proof.innerKey) :=
    fun a b same => (P2WSHProof.mk.inj same).2.2
  have script : Carried vecU8 (writeVecU8 proof.script).bytes proof.script
      ((writeVecU8 proof.script).bytes.length ≤ maxVecSize) :=
    .of_yields yields_vecU8 reads_vecU8
  simp only [consensusEncode, append_bytes, emit_bytes, List.append_assoc]
  refine script.of_tracks ?_ (by simp only [List.length_append]; omega)
  exact (tracks_bind (reads_receipt token)).trans
    ((tracks_bind (reads_decodePublicKey inner)).trans (tracks_map injective))

theorem EmptyReceiptProof.reads {proof : EmptyReceiptProof}
    (inner : formats.isPoint proof.innerKey) :
    Reads (consensusDecode formats) proof.consensusEncode.bytes proof :=
  (reads_decodePublicKey inner).map

theorem LightningCommitmentProof.reads {proof : LightningCommitmentProof}
    (token : formats.isPoint proof.receipt.tokenPubkey)
    (revocation : formats.isPoint proof.data.revocationPubkey)
    (delayed : formats.isPoint proof.data.localDelayedPubkey) :
    Reads (consensusDecode formats) proof.consensusEncode.bytes proof := by
  simp only [consensusEncode, append_bytes, emit_bytes, List.append_assoc]
  apply (reads_receipt token).bind
  apply (reads_decodePublicKey revocation).bind
  apply (reads_u16 proof.data.toSelfDelay).bind
  exact (reads_decodePublicKey delayed).map

theorem HtlcScriptKind.reads (kind : HtlcScriptKind) :
    Reads consensusDecode kind.consensusEncode.bytes kind := by
  cases kind with
  | offered => exact (reads_u8 0).bind (b := []) (reads_pure offered)
  | received cltvExpiry =>
    apply (reads_u8 1).bind
    exact (reads_u32 cltvExpiry).map

theorem LightningHtlcProof.reads {proof : LightningHtlcProof}
    (token : formats.isPoint proof.receipt.tokenPubkey)
    (remote : formats.isPoint proof.data.remoteHtlcKey)
    (local_ : formats.isPoint proof.data.localHtlcKey) :
    Reads (consensusDecode formats) proof.consensusEncode.bytes proof := by
  simp only [consensusEncode, append_bytes, emit_bytes, List.append_assoc]
  apply (reads_receipt token).bind
  apply (reads_array proof.data.revocationKeyHash).bind
  apply (reads_decodePublicKey remote).bind
  apply (reads_decodePublicKey local_).bind
  apply (reads_array proof.data.paymentHash).bind
  exact proof.data.kind.reads.map

theorem SparkExitProof.carried {proof : SparkExitProof}
    (token : formats.isPoint proof.receipt.tokenPubkey)
    (revocation : formats.isPoint proof.script.revocationKey)
    (delay : formats.isPoint proof.script.delayKey) :
    Carried (consensusDecode formats) proof.consensusEncode.bytes proof
      (MetadataReadsBack formats proof.metadata) := by
  have injective : Function.Injective (SparkExitProof.mk proof.receipt proof.script) :=
    fun a b same => (SparkExitProof.mk.inj same).2.2
  simp only [consensusEncode, append_bytes, emit_bytes, List.append_assoc]
  refine carried_metadata.of_tracks ?_ (by simp only [List.length_append]; omega)
  exact (tracks_bind (reads_receipt token)).trans
    ((tracks_bind (reads_decodePublicKey revocation)).trans
      ((tracks_bind (reads_u32 proof.script.locktime)).trans
        ((tracks_bind (reads_decodePublicKey delay)).trans (tracks_map injective))))

end ReadBack

instance : Std.Total keyLe := ⟨fun a b => List.le_total a.serialize b.serialize⟩

instance : IsTrans PublicKey keyLe := ⟨fun _ _ _ ab bc => List.le_trans ab bc⟩

namespace MultisigReceiptProof

variable {formats : Formats} {proof : MultisigReceiptProof}

theorem reads_decodeInnerKey {key : PublicKey} (point : formats.isPoint key) :
    Reads (decodeInnerKey formats) key.serialize key := by
  have front : Reads (readExact 33) key.serialize key.serialize := by
    simpa using reads_readExact key.serialize
  refine front.failingWith.bind_pure ?_
  rw [Primitives.publicKeyFromSlice_serialize point, orFail_some]

/-- Every decoded proof has passed `new`, and its keys were counted by a `u32`. -/
theorem yields_consensusDecode : Yields (consensusDecode formats)
    (fun proof => proof.innerKeys.Pairwise keyLe ∧ proof.innerKeys.length < 2 ^ 32) := by
  refine yields_bind fun receipt => counted_length.bind fun innerKeys fits =>
    yields_bind fun m => yields_pure ⟨List.pairwise_insertionSort keyLe innerKeys, ?_⟩
  show (innerKeys.insertionSort keyLe).length < 2 ^ 32
  rw [List.length_insertionSort]
  omega

theorem carried (token : formats.isPoint proof.receipt.tokenPubkey)
    (inner : ∀ key ∈ proof.innerKeys, formats.isPoint key) :
    Carried (consensusDecode formats) proof.consensusEncode.bytes proof
      (proof.innerKeys.Pairwise keyLe ∧ proof.innerKeys.length < 2 ^ 32) := by
  refine .of_yields yields_consensusDecode ?_
  rintro ⟨sorted, fits⟩
  have sortedAlready : new proof.receipt proof.innerKeys proof.m = proof := by
    rw [new, sorted.insertionSort_eq]
  have keys : Reads (counted 4 (decodeInnerKey formats))
      (writeCounted 4 (fun key => emit key.serialize) proof.innerKeys).bytes proof.innerKeys :=
    reads_counted (by omega) fun key mem => reads_decodeInnerKey (inner key mem)
  simp only [consensusEncode, append_bytes, emit_bytes, List.append_assoc]
  apply (reads_receipt token).bind
  apply keys.bind
  refine (reads_u8 proof.m).bind_pure ?_
  rw [sortedAlready]

end MultisigReceiptProof

section RangeProofs

variable {formats : Formats}

theorem consumes_receipt : Consumes (consensusDecode formats) (fun _ => receiptSize) :=
  (consumes_readExact receiptSize).parsed

theorem consumes_decodePublicKey {message : String} :
    Consumes (decodePublicKey formats message) (fun _ => 33) :=
  (consumes_readExact 33).parsed

theorem consumes_toPoint : Consumes (toPoint formats) (fun _ => 33) :=
  (consumes_array 33).failingWith.parsed

theorem consumes_toScalar : Consumes (toScalar formats) (fun _ => 32) :=
  (consumes_array 32).failingWith.parsed

theorem consumes_wipPairs (rounds : Nat) :
    Consumes (wipPairs formats rounds) (fun pairs => 66 * pairs.length) := by
  induction rounds with
  | zero => exact consumes_pure rfl
  | succ rounds ih =>
    intro data pairs rest done
    unfold wipPairs at done
    split at done
    · cases done
      simp
    · refine (consumes_toPoint.bind fun l => consumes_toPoint.bind fun r => ih.bind fun others =>
        consumes_pure ?_ : Consumes _ fun pairs => 66 * pairs.length) _ _ _ done
      simp only [List.length_cons]
      omega

theorem WipProof.toBytes_length (wip : WipProof) :
    wip.toBytes.length = 162 + 66 * min wip.l.length wip.r.length := by
  have pairs : ((wip.l.zip wip.r).flatMap fun pair => pair.1.toList ++ pair.2.toList).length =
      66 * (wip.l.zip wip.r).length := by
    induction wip.l.zip wip.r with
    | nil => rfl
    | cons pair others ih => simp [ih]; omega
  rw [List.length_zip] at pairs
  simp only [toBytes, List.length_append, List.Vector.toList_length, pairs]

theorem RangeProof.consumes_decodeParts (rounds : Nat) :
    Consumes (decodeParts formats rounds) (fun proof => proof.toBytes.length) := by
  refine consumes_toPoint.bind fun aOuter => consumes_toPoint.bind fun a => ?_
  refine consumes_toPoint.bind fun b => consumes_toScalar.bind fun rRev => ?_
  refine consumes_toScalar.bind fun sRev => consumes_toScalar.bind fun deltaRev => ?_
  refine (consumes_wipPairs rounds).bind fun pairs => consumes_pure ?_
  simp only [toBytes, List.length_append, List.Vector.toList_length, WipProof.toBytes_length,
    List.length_map, Nat.min_self]
  omega

/-- The bytes of a parsed range proof are not more than those it was parsed from. -/
theorem RangeProof.fromBytes_length {data : Bytes} {proof : RangeProof}
    (parsed : RangeProof.fromBytes formats data = .ok proof) :
    proof.toBytes.length ≤ data.length := by
  unfold fromBytes at parsed
  split at parsed
  · rename_i read rest done
    cases parsed
    exact le_of_add_le_left (consumes_decodeParts data.length _ _ _ done)
  · cases parsed

theorem Bulletproof.consumes_commitmentArray_bind {α : Type} {bytes : Bytes} {size : α → Nat}
    {next : ProjectivePoint → Decoder α}
    (second : ∀ point, bytes.length = 33 → Consumes (next point) size) :
    Consumes (commitmentArray bytes >>= next) size := by
  unfold commitmentArray
  split
  · rename_i length
    exact second ⟨bytes, length⟩ length
  · exact consumes_fail

/-- The decoder of a bulletproof takes 33 bytes more than its encoder writes. -/
theorem Bulletproof.consumes_consensusDecode : Consumes (Bulletproof.consensusDecode formats)
    (fun proof => proof.consensusEncode.bytes.length + 33) := by
  refine consumes_receipt.bind fun receipt => consumes_decodePublicKey.bind fun innerKey => ?_
  refine consumes_decodePublicKey.bind fun senderKey => ?_
  refine consumes_vecU8.bind fun commitmentBytes => ?_
  refine consumes_commitmentArray_bind fun point length => ?_
  refine (consumes_readExact 33).bind fun _ => consumes_vecU8.bind fun proofBytes => ?_
  refine consumes_ofExcept_bind fun range parsed => (consumes_array 64).bind fun signature => ?_
  refine (consumes_array 64).bind fun tokenSignature => ?_
  refine consumes_orFail_bind fun commitment _ => consumes_pure ?_
  have commitmentSize := writeVecU8_length_mono (a := commitment.toList) (b := commitmentBytes)
    (by simp [length])
  have proofSize := writeVecU8_length_mono (RangeProof.fromBytes_length parsed)
  simp only [consensusEncode, append_bytes, emit_bytes, List.length_append, receiptSize,
    Receipt.consensusEncode, Receipt.toBytes, TokenAmount.toBytes_length,
    serialize_length, List.Vector.toList_length]
  omega

end RangeProofs

namespace ReceiptProof

/-- Every key a proof holds. -/
def publicKeys : ReceiptProof → List PublicKey
  | sig proof => [proof.receipt.tokenPubkey, proof.innerKey]
  | emptyReceipt proof => [proof.innerKey]
  | multisig proof => proof.receipt.tokenPubkey :: proof.innerKeys
  | lightning proof =>
    [proof.receipt.tokenPubkey, proof.data.revocationPubkey, proof.data.localDelayedPubkey]
  | lightningHtlc proof =>
    [proof.receipt.tokenPubkey, proof.data.remoteHtlcKey, proof.data.localHtlcKey]
  | p2wsh proof => [proof.receipt.tokenPubkey, proof.innerKey]
  | p2tr proof => [proof.receipt.tokenPubkey, proof.innerKey]
  | sparkExit proof =>
    [proof.receipt.tokenPubkey, proof.script.revocationKey, proof.script.delayKey]

/-- The proofs that the codec can carry: the metadata's JSON text parses to itself, multisig
keys are sorted and counted by a `u32`, a script stays within the decoder's limit. -/
def Canonical (formats : Formats) : ReceiptProof → Prop
  | sig proof => MetadataReadsBack formats proof.metadata
  | p2tr proof => MetadataReadsBack formats proof.metadata
  | sparkExit proof => MetadataReadsBack formats proof.metadata
  | multisig proof => proof.innerKeys.Pairwise keyLe ∧ proof.innerKeys.length < 2 ^ 32
  | p2wsh proof => (writeVecU8 proof.script).bytes.length ≤ maxVecSize
  | emptyReceipt _ => True
  | lightning _ => True
  | lightningHtlc _ => True

variable {formats : Formats} {proof : ReceiptProof}

/-- The flag is not the one of a bulletproof, and after it the codec decides. -/
theorem carried_decodeFlagged (points : ∀ key ∈ proof.publicKeys, formats.isPoint key) :
    ∃ flag body, flag ≠ 4 ∧ proof.consensusEncode.bytes = [flag] ++ body ∧
      Carried (decodeFlagged formats flag) body proof (proof.Canonical formats) := by
  cases proof
  all_goals simp only [publicKeys, List.forall_mem_cons] at points
  case sig proof =>
    refine ⟨0, _, by decide, rfl, .of_tracks ?_ (tracks_map fun _ _ same => sig.inj same) le_rfl⟩
    exact carried_keyed (fun _ _ same => (P2WPKHProof.mk.inj same).2.2) points.1 points.2.1
  case emptyReceipt proof =>
    refine ⟨5, _, by decide, rfl, .of_tracks ?_ (tracks_map fun _ _ same => emptyReceipt.inj same)
      le_rfl⟩
    exact .of_reads (EmptyReceiptProof.reads points.1)
  case multisig proof =>
    refine ⟨1, _, by decide, rfl, .of_tracks ?_ (tracks_map fun _ _ same => multisig.inj same)
      le_rfl⟩
    exact MultisigReceiptProof.carried points.1 points.2
  case lightning proof =>
    refine ⟨2, _, by decide, rfl, .of_tracks ?_ (tracks_map fun _ _ same => lightning.inj same)
      le_rfl⟩
    exact .of_reads (LightningCommitmentProof.reads points.1 points.2.1 points.2.2.1)
  case lightningHtlc proof =>
    refine ⟨3, _, by decide, rfl, .of_tracks ?_ (tracks_map fun _ _ same => lightningHtlc.inj same)
      le_rfl⟩
    exact .of_reads (LightningHtlcProof.reads points.1 points.2.1 points.2.2.1)
  case p2wsh proof =>
    refine ⟨6, _, by decide, rfl, .of_tracks ?_ (tracks_map fun _ _ same => p2wsh.inj same) le_rfl⟩
    exact P2WSHProof.carried points.1 points.2.1
  case p2tr proof =>
    refine ⟨7, _, by decide, rfl, .of_tracks ?_ (tracks_map fun _ _ same => p2tr.inj same) le_rfl⟩
    exact carried_keyed (fun _ _ same => (TaprootProof.mk.inj same).2.2) points.1 points.2.1
  case sparkExit proof =>
    refine ⟨8, _, by decide, rfl, .of_tracks ?_ (tracks_map fun _ _ same => sparkExit.inj same)
      le_rfl⟩
    exact SparkExitProof.carried points.1 points.2.1 points.2.2.1

theorem carried (points : ∀ key ∈ proof.publicKeys, formats.isPoint key) :
    Carried (consensusDecode formats) proof.consensusEncode.bytes proof
      (proof.Canonical formats) := by
  obtain ⟨flag, body, _, encoded, after⟩ := carried_decodeFlagged points
  rw [encoded]
  exact after.of_tracks (tracks_bind (reads_u8 flag)) (by simp)

end ReceiptProof

namespace AnyReceiptProof

variable {formats : Formats}

def publicKeys : AnyReceiptProof → List PublicKey
  | plain proof => proof.publicKeys
  | bulletproof proof => [proof.receipt.tokenPubkey, proof.innerKey, proof.senderKey]

/-- No bulletproof is carried, of the other proofs the canonical ones. -/
def Canonical (formats : Formats) : AnyReceiptProof → Prop
  | plain proof => proof.Canonical formats
  | bulletproof _ => False

theorem not_reads_bulletproof (proof : Bulletproof) :
    ¬ Reads (Bulletproof.consensusDecode formats) proof.consensusEncode.bytes proof := by
  intro reads
  have taken : proof.consensusEncode.bytes.length + 33 ≤ proof.consensusEncode.bytes.length :=
    reads.size_le Bulletproof.consumes_consensusDecode
  omega

/-- The codec gives a proof back, and the bytes after it, exactly for canonical proofs. -/
theorem consensusDecode_consensusEncode_iff (formats : Formats) (proof : AnyReceiptProof)
    (points : ∀ key ∈ proof.publicKeys, formats.isPoint key) :
    Reads (consensusDecode formats) proof.consensusEncode.bytes proof ↔
      proof.Canonical formats := by
  cases proof with
  | plain proof =>
    obtain ⟨flag, body, other, encoded, after⟩ := ReceiptProof.carried_decodeFlagged points
    show Reads (consensusDecode formats) proof.consensusEncode.bytes (plain proof) ↔
      proof.Canonical formats
    unfold consensusDecode
    rw [encoded, reads_bind_iff (reads_u8 flag), if_neg other,
      reads_map_iff fun _ _ same => plain.inj same, after.reads_iff]
  | bulletproof proof =>
    show Reads (consensusDecode formats) ([4] ++ proof.consensusEncode.bytes) (bulletproof proof) ↔
      False
    unfold consensusDecode
    rw [reads_bind_iff (reads_u8 4), if_pos rfl, reads_map_iff fun _ _ same => bulletproof.inj same]
    exact iff_of_false (not_reads_bulletproof proof) id

/-- A signature proof with metadata reads back. -/
theorem consensusDecode_signature_with_metadata :
    let receipt : Receipt := ⟨TokenAmount.new 100, repeating 7⟩
    let proof := plain (.sig ⟨receipt, repeating 1, some [0x7b, 0x7d]⟩)
    Reads (consensusDecode Formats.plain) proof.consensusEncode.bytes proof := by
  intro receipt proof
  apply (consensusDecode_consensusEncode_iff Formats.plain proof fun _ _ => rfl).mpr
  exact ⟨by decide, by decide, by decide⟩

def zeroRangeProof : RangeProof :=
  let point : ProjectivePoint := List.Vector.replicate 33 0
  let scalar : Scalar := List.Vector.replicate 32 0
  ⟨point, ⟨[point], [point], point, point, scalar, scalar, scalar⟩⟩

/-- A bulletproof and a multisig proof with unsorted keys do not read back. -/
theorem consensusDecode_loses_proofs :
    let receipt : Receipt := ⟨TokenAmount.new 100, repeating 7⟩
    let signature : Bytes64 := List.Vector.replicate 64 0
    let ranged := bulletproof ⟨receipt, repeating 1, repeating 2,
      List.Vector.replicate 33 0, zeroRangeProof, signature, signature⟩
    let unsorted := plain (.multisig ⟨receipt, [repeating 2, repeating 1], 2⟩)
    ¬ Reads (consensusDecode Formats.plain) ranged.consensusEncode.bytes ranged ∧
      ¬ Reads (consensusDecode Formats.plain) unsorted.consensusEncode.bytes unsorted := by
  intro receipt signature ranged unsorted
  constructor
  · intro reads
    have lost : consensusDecode Formats.plain (ranged.consensusEncode.bytes ++ []) ≠
        .ok (ranged, []) := by decide +kernel
    exact lost (reads [])
  · intro reads
    have lost : consensusDecode Formats.plain (unsorted.consensusEncode.bytes ++ []) ≠
        .ok (unsorted, []) := by decide +kernel
    exact lost (reads [])

end AnyReceiptProof

end Lrc20
