import Mathlib.Data.UInt
import Lrc20.Node.Fidelity
import Lrc20.Types.SparkConsensus

/-! The rows of Spark signatures and freezes, and what the converters read back from them. Keys
and hashes stand for their bytes. -/

namespace Lrc20

inductive SignatureType where
  | ecdsa
  | schnorr

namespace SparkSignature

-- `fromDer` is `ecdsa::Signature::from_der`, with the signature in its compact form.
variable (formats : Formats) (fromDer : Bytes → Option Bytes64)

def tryFromSlice (bytes : Bytes) : Option SparkSignature :=
  ((fromDer bytes).map ecdsa).or
    (((parseBytes (fun _ => true) bytes).map schnorr).or
      ((parseBytes formats.isCompactEcdsa bytes).map ecdsa))

def type : SparkSignature → SignatureType
  | ecdsa _ => .ecdsa
  | schnorr _ => .schnorr

/-- A signature with the column that names its kind. -/
def ofTyped (bytes : Bytes) : Option SignatureType → Option SparkSignature
  | some .schnorr => (parseBytes (fun _ => true) bytes).map schnorr
  | some .ecdsa => (parseBytes formats.isCompactEcdsa bytes).map ecdsa
  | none => tryFromSlice formats fromDer bytes

/-- What DER makes of the bytes of a signature: nothing, or that signature. -/
def DerHarmless : SparkSignature → Prop
  | ecdsa signature => fromDer signature.toList = some signature
  | schnorr signature => fromDer signature.toList = none

theorem tryFromSlice_bytes_iff (signature : SparkSignature) :
    tryFromSlice formats fromDer signature.bytes.toList = some signature ↔
      signature.DerHarmless fromDer := by
  have taken : parseBytes (fun _ => true) signature.bytes.toList = some signature.bytes :=
    parseBytes_toList rfl
  unfold tryFromSlice
  rw [taken]
  cases signature with
  | ecdsa signature | schnorr signature =>
    cases read : fromDer signature.toList <;> simp [DerHarmless, bytes, read]

theorem ofTyped_bytes {signature : SparkSignature} (wellFormed : signature.WellFormed formats) :
    ofTyped formats fromDer signature.bytes.toList (some signature.type) = some signature := by
  cases signature with
  | ecdsa signature => exact congrArg (Option.map ecdsa) (parseBytes_toList wellFormed)
  | schnorr signature => exact congrArg (Option.map schnorr) (parseBytes_toList rfl)

end SparkSignature

namespace Storage

structure OperatorSignatureModel where
  txHash : SparkHash
  operatorIdentityPubkey : PublicKey
  signature : Bytes
  type : Option SignatureType

structure UserSignatureModel where
  txHash : SparkHash
  operatorPublicKey : Option PublicKey
  signature : Bytes
  index : Int16
  type : Option SignatureType

/-- `convert_spark_signature_data_to_signature_models`. The index is cut to 16 bits. -/
def signatureModels (data : SparkSignatureData) :
    OperatorSignatureModel × Option UserSignatureModel :=
  (⟨data.tokenTxHash, data.operatorPubkey, data.operatorSignature.bytes.toList,
      some data.operatorSignature.type⟩,
    data.operatorSpecificOwnerSignature.map fun owner =>
      ⟨data.tokenTxHash, owner.operatorIdentityPublicKey, owner.ownerSignature.bytes.toList,
        (owner.inputIndex.getD 0).toUInt16.toInt16, some owner.ownerSignature.type⟩)

structure SparkFreezeDataModel where
  issuerPubkey : PublicKey
  userPubkey : TokenPubkey
  operatorIdentityPubkey : PublicKey
  shouldUnfreeze : Bool
  issuerSignature : Bytes
  issuerProvidedTimestamp : Int64

/-- `convert_spark_freeze_to_active_model`. -/
def freezeModel (freeze : TokensFreezeData) : SparkFreezeDataModel where
  issuerPubkey := freeze.ownerPublicKey
  userPubkey := freeze.tokenPublicKey
  operatorIdentityPubkey := freeze.operatorIdentityPublicKey
  shouldUnfreeze := freeze.shouldUnfreeze
  issuerSignature := freeze.issuerSignature.bytes.toList
  issuerProvidedTimestamp := freeze.timestamp.toInt64

section Reading

variable (formats : Formats) (fromDer : Bytes → Option Bytes64)

def ownerSignature (user : UserSignatureModel) : Option OperatorSpecificOwnerSignature :=
  (SparkSignature.ofTyped formats fromDer user.signature user.type).map fun signature =>
    ⟨user.operatorPublicKey, signature, some user.index.toInt32.toUInt32⟩

/-- `convert_signature_models_to_spark_signature_data`. -/
def signatureData (operator : OperatorSignatureModel) (user : Option UserSignatureModel)
    (secrets : List SparkSignatureLeafData) : Option SparkSignatureData := do
  let signature ← SparkSignature.ofTyped formats fromDer operator.signature operator.type
  let owner ← user.mapM (ownerSignature formats fromDer)
  return ⟨owner, operator.operatorIdentityPubkey, signature, operator.txHash, secrets⟩

/-- `convert_model_to_spark_freeze`. -/
def freezeData (model : SparkFreezeDataModel) : Option TokensFreezeData :=
  (SparkSignature.tryFromSlice formats fromDer model.issuerSignature).map fun signature =>
    ⟨model.operatorIdentityPubkey, model.issuerPubkey, model.userPubkey, model.shouldUnfreeze,
      signature, model.issuerProvidedTimestamp.toUInt64⟩

/-- The data comes back, given the same secrets. -/
def DataKept (data : SparkSignatureData) : Prop :=
  signatureData formats fromDer (signatureModels data).1 (signatureModels data).2
    data.outputsToSpendData = some data

end Reading

/-- The index survives the cut to 16 bits and the widening with the sign. -/
def IndexFits (index : UInt32) : Prop := index.toNat < 2 ^ 15 ∨ 2 ^ 32 - 2 ^ 15 ≤ index.toNat

theorem index_kept_iff (index : UInt32) :
    index.toUInt16.toInt16.toInt32.toUInt32 = index ↔ IndexFits index := by
  have stored : index.toUInt16.toInt16.toInt32.toUInt32.toBitVec =
      (index.toBitVec.setWidth 16).signExtend 32 := rfl
  have value : index.toNat = index.toBitVec.toNat := rfl
  have bound := index.toBitVec.isLt
  rw [← UInt32.toBitVec_inj, stored, ← BitVec.toNat_inj, BitVec.toNat_signExtend, IndexFits, value]
  simp only [BitVec.msb_eq_decide, BitVec.toNat_setWidth, decide_eq_true_eq]
  split <;> omega

def OwnerFits (owner : OperatorSpecificOwnerSignature) : Prop :=
  ∃ index, owner.inputIndex = some index ∧ IndexFits index

variable {formats : Formats} {fromDer : Bytes → Option Bytes64}

/-- The leaf comes back, apart from the blinding factor and the height. -/
def LeafKept (leaf : TokenLeafOutput) : Prop :=
  (SparkOutputRow.ofLeaf leaf).toLeaf =
    { leaf with receipt := ⟨TokenAmount.new leaf.amount, leaf.tokenPubkey⟩, withdrawHeight := none }

theorem leafKept_iff (leaf : TokenLeafOutput) :
    LeafKept leaf ↔ BondFits leaf.withdrawalBondSats := by
  rw [← bond_kept_iff]
  constructor
  · exact congrArg TokenLeafOutput.withdrawalBondSats
  · intro kept
    simp only [LeafKept, SparkOutputRow.toLeaf, SparkOutputRow.ofLeaf, kept]

theorem dataKept_iff {data : SparkSignatureData}
    (operator : data.operatorSignature.WellFormed formats)
    (owners : ∀ owner ∈ data.operatorSpecificOwnerSignature, owner.ownerSignature.WellFormed formats) :
    DataKept formats fromDer data ↔ ∀ owner ∈ data.operatorSpecificOwnerSignature, OwnerFits owner := by
  obtain ⟨specific, key, signature, hash, secrets⟩ := data
  unfold DataKept signatureData signatureModels
  rw [SparkSignature.ofTyped_bytes formats fromDer operator]
  cases specific with
  | none => simp
  | some owner =>
    obtain ⟨identity, owned, index⟩ := owner
    have typed := SparkSignature.ofTyped_bytes formats fromDer (owners _ rfl)
    cases index <;> simp_all [ownerSignature, OwnerFits, index_kept_iff]

theorem freezeKept_iff (freeze : TokensFreezeData) :
    freezeData formats fromDer (freezeModel freeze) = some freeze ↔
      freeze.issuerSignature.DerHarmless fromDer := by
  rw [← SparkSignature.tryFromSlice_bytes_iff formats]
  obtain ⟨operator, owner, token, unfreeze, signature, timestamp⟩ := freeze
  unfold freezeData freezeModel
  cases SparkSignature.tryFromSlice formats fromDer signature.bytes.toList <;> simp

/-- Which values come back from their rows. -/
theorem spark_rows_lossless_iff (formats : Formats) (fromDer : Bytes → Option Bytes64) :
    (∀ leaf, LeafKept leaf ↔ BondFits leaf.withdrawalBondSats) ∧
    (∀ data : SparkSignatureData, data.operatorSignature.WellFormed formats →
      (∀ owner ∈ data.operatorSpecificOwnerSignature, owner.ownerSignature.WellFormed formats) →
      (DataKept formats fromDer data ↔
        ∀ owner ∈ data.operatorSpecificOwnerSignature, OwnerFits owner)) ∧
    (∀ signature : SparkSignature,
      SparkSignature.tryFromSlice formats fromDer signature.bytes.toList = some signature ↔
        signature.DerHarmless fromDer) ∧
    ∀ freeze, freezeData formats fromDer (freezeModel freeze) = some freeze ↔
      freeze.issuerSignature.DerHarmless fromDer :=
  ⟨leafKept_iff, fun _ => dataKept_iff, SparkSignature.tryFromSlice_bytes_iff formats fromDer,
    freezeKept_iff⟩

/-- A bond of `2 ^ 31` comes back with its sign, and an ECDSA signature as a Schnorr one. -/
theorem large_bond_and_ecdsa_changed :
    (SparkOutputRow.ofLeaf { plainLeaf "a" 5 with withdrawalBondSats := 2 ^ 31 }).toLeaf.withdrawalBondSats =
        2 ^ 64 - 2 ^ 31 ∧
      ∀ signature, SparkSignature.tryFromSlice .plain (fun _ => none)
        (SparkSignature.ecdsa signature).bytes.toList = some (.schnorr signature) := by
  refine ⟨by decide +kernel, fun signature => ?_⟩
  simp [SparkSignature.tryFromSlice, SparkSignature.bytes, SparkSignature.parseBytes_toList]

end Storage

end Lrc20
