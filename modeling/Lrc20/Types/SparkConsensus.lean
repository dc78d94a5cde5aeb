import Lrc20.Receipts.Consensus
import Lrc20.Types.Spark

open ByteOrder Codec Codec.Decoder Codec.Written

/-! The consensus encoding of Spark transactions, signatures and freezes. -/

namespace Lrc20

open SparkSignatureData

/-- A transaction id or a block hash. -/
def writeHash (hash : Nat) : Written := emit (leBytes 32 hash)

def writeU32 (value : UInt32) : Written := emit (leBytes 4 value.toNat)

def writeU64 (value : UInt64) : Written := emit (leBytes 8 value.toNat)

def writePublicKey (key : PublicKey) : Written := emit key.serialize

namespace SparkSignature

def consensusEncode : SparkSignature → Written
  | ecdsa signature => emit [0] ++ writeVecU8 signature.toList
  | schnorr signature => emit [1] ++ writeVecU8 signature.toList

/-- A signature of 64 bytes that a parser accepts. -/
def parseBytes (accepts : Bytes64 → Bool) (bytes : Bytes) : Option Bytes64 :=
  if length : bytes.length = 64 then
    if accepts ⟨bytes, length⟩ then some ⟨bytes, length⟩ else none
  else none

def consensusDecode (formats : Formats) : Decoder SparkSignature := do
  let sigFlag ← u8
  if sigFlag = 0 then
    let bytes ← vecU8
    let signature ← orFail (.parseFailed "Failed to parse ECDSA signature bytes")
      (parseBytes formats.isCompactEcdsa bytes)
    pure (ecdsa signature)
  else if sigFlag = 1 then
    let bytes ← vecU8
    let signature ← orFail (.parseFailed "Failed to parse Schnorr signature bytes")
      (parseBytes (fun _ => true) bytes)
    pure (schnorr signature)
  else fail (.parseFailed "Unsupported token transaction input")

end SparkSignature

namespace OperatorSpecificOwnerSignature

/-- The input index is not written. -/
def consensusEncode (signature : OperatorSpecificOwnerSignature) : Written :=
  writeOption writePublicKey signature.operatorIdentityPublicKey ++
    signature.ownerSignature.consensusEncode

/-- The input index is read between the key and the signature. -/
def consensusDecode (formats : Formats) : Decoder OperatorSpecificOwnerSignature := do
  let operatorPubkey ← option (decodePublicKey formats "Failed to parse public key bytes")
  let inputIndex ← option u32
  let signature ← SparkSignature.consensusDecode formats
  pure ⟨operatorPubkey, signature, inputIndex⟩

end OperatorSpecificOwnerSignature

namespace TokenLeafToSpend

def consensusEncode (leaf : TokenLeafToSpend) : Written :=
  emit leaf.parentOutputHash.toList ++ writeU32 leaf.parentOutputVout

def consensusDecode : Decoder TokenLeafToSpend := do
  let parentLeafHash ← array 32
  let parentLeafIndex ← u32
  pure ⟨parentLeafHash, parentLeafIndex⟩

end TokenLeafToSpend

namespace TokenLeafOutput

def consensusEncode (leaf : TokenLeafOutput) : Written :=
  writeVecU8 (utf8 leaf.id) ++ writePublicKey leaf.ownerPublicKey ++
    leaf.receipt.consensusEncode ++ writePublicKey leaf.revocationPublicKey ++
    writeU64 leaf.withdrawalBondSats ++ writeU32 leaf.withdrawalLocktime ++
    writeOption writeBool leaf.isFrozen ++ writeOption writeHash leaf.withdrawTxid ++
    writeOption writeU32 leaf.withdrawTxVout ++ writeOption writeU32 leaf.withdrawHeight ++
    writeOption writeHash leaf.withdrawBlockHash

def consensusDecode (formats : Formats) : Decoder TokenLeafOutput := do
  let idBytes ← vecU8
  let id ← orFail (.parseFailed "Failed to parse id bytes") (ofUtf8 idBytes)
  let ownerPublicKey ← decodePublicKey formats "Failed to parse owner signing public key bytes"
  let receipt ← Receipt.consensusDecode formats
  let revocationPublicKey ← decodePublicKey formats "Failed to parse revocation public key bytes"
  let withdrawalBondSats ← u64
  let withdrawalLocktime ← u32
  let isFrozen ← option Decoder.bool
  let withdrawTxid ← option (number 32)
  let withdrawTxVout ← option u32
  let withdrawHeight ← option u32
  let withdrawBlockHash ← option (number 32)
  pure ⟨id, ownerPublicKey, revocationPublicKey, withdrawalBondSats, withdrawalLocktime, receipt,
    isFrozen, withdrawTxid, withdrawTxVout, withdrawHeight, withdrawBlockHash⟩

end TokenLeafOutput

namespace TokenTransactionInput

def consensusEncode : TokenTransactionInput → Written
  | mint issuerPublicKey issuerSignature issuerProvidedTimestamp =>
    emit [0] ++ writePublicKey issuerPublicKey ++ writeU64 issuerProvidedTimestamp ++
      writeOption OperatorSpecificOwnerSignature.consensusEncode issuerSignature
  | transfer outputsToSpend =>
    emit [1] ++ writeCounted 4 TokenLeafToSpend.consensusEncode outputsToSpend

def consensusDecode (formats : Formats) : Decoder TokenTransactionInput := do
  let inputType ← u8
  if inputType = 0 then
    let issuerPublicKey ← decodePublicKey formats "Failed to parse public key bytes"
    let issuerProvidedTimestamp ← u64
    let issuerSignature ← option (OperatorSpecificOwnerSignature.consensusDecode formats)
    pure (mint issuerPublicKey issuerSignature issuerProvidedTimestamp)
  else if inputType = 1 then
    let outputsToSpend ← counted 4 TokenLeafToSpend.consensusDecode
    pure (transfer outputsToSpend)
  else fail (.parseFailed "Unsupported token transaction input")

end TokenTransactionInput

namespace TokenTransaction

def consensusEncode (tx : TokenTransaction) : Written :=
  writeCounted 4 TokenLeafOutput.consensusEncode tx.leavesToCreate ++ tx.input.consensusEncode ++
    writeCounted 4 writePublicKey tx.sparkOperatorIdentityPublicKeys ++
    writeOption writeU32 tx.network

def consensusDecode (formats : Formats) : Decoder TokenTransaction := do
  let leavesToCreate ← counted 4 (TokenLeafOutput.consensusDecode formats)
  let input ← TokenTransactionInput.consensusDecode formats
  let operators ← counted 4 (decodePublicKey formats "Failed to parse public key bytes")
  let network ← option u32
  pure ⟨input, leavesToCreate, operators, network⟩

end TokenTransaction

namespace SparkSignatureLeafData

def consensusEncode (data : SparkSignatureLeafData) : Written :=
  writeU32 data.tokenTxLeafIndex ++
    writeOption (fun secret : SecretKey => emit secret.toList) data.revocationSecret

/-- Bytes that are no secret key are dropped. -/
def consensusDecode (formats : Formats) : Decoder SparkSignatureLeafData := do
  let tokenTxLeafIndex ← u32
  let revocationPrivateKey ← option (array 32)
  pure ⟨tokenTxLeafIndex, revocationPrivateKey.filter formats.isSecretKey⟩

end SparkSignatureLeafData

namespace SparkSignatureData

def consensusEncode (data : SparkSignatureData) : Written :=
  emit data.tokenTxHash.toList ++ writePublicKey data.operatorPubkey ++
    data.operatorSignature.consensusEncode ++
    writeOption OperatorSpecificOwnerSignature.consensusEncode data.operatorSpecificOwnerSignature ++
    writeCounted 4 SparkSignatureLeafData.consensusEncode data.outputsToSpendData

def consensusDecode (formats : Formats) : Decoder SparkSignatureData := do
  let tokenTxHash ← array 32
  let operatorPubkey ← decodePublicKey formats "Failed to parse operator public key bytes"
  let operatorSignature ← SparkSignature.consensusDecode formats
  let operatorSpecificData ← option (OperatorSpecificOwnerSignature.consensusDecode formats)
  let leavesToSpendData ← counted 4 (SparkSignatureLeafData.consensusDecode formats)
  pure ⟨operatorSpecificData, operatorPubkey, operatorSignature, tokenTxHash, leavesToSpendData⟩

end SparkSignatureData

namespace TokensFreezeData

def consensusEncode (freeze : TokensFreezeData) : Written :=
  freeze.issuerSignature.consensusEncode ++ writePublicKey freeze.ownerPublicKey ++
    writePublicKey freeze.operatorIdentityPublicKey ++ writeBool freeze.shouldUnfreeze ++
    writePublicKey freeze.tokenPublicKey ++ writeU64 freeze.timestamp

def consensusDecode (formats : Formats) : Decoder TokensFreezeData := do
  let issuerSignature ← SparkSignature.consensusDecode formats
  let ownerPublicKey ← decodePublicKey formats "Failed to parse public key bytes"
  let operatorIdentityPublicKey ← decodePublicKey formats "Failed to parse public key bytes"
  let shouldUnfreeze ← Decoder.bool
  let tokenPublicKey ← decodePublicKey formats "Failed to parse public key bytes"
  let timestamp ← u64
  pure { ownerPublicKey, operatorIdentityPublicKey, tokenPublicKey, shouldUnfreeze,
         issuerSignature, timestamp }

end TokensFreezeData

/-! ### What is read back -/

section ReadBack

variable {formats : Formats}

theorem reads_hash {hash : Nat} (fits : hash < 256 ^ 32) :
    Reads (number 32) (writeHash hash).bytes hash :=
  reads_number fits

theorem consumes_publicKey {message : String} : Consumes (decodePublicKey formats message)
    (fun key => (writePublicKey key).bytes.length) := by
  intro bytes key rest done
  have taken : 33 + rest.length ≤ bytes.length := consumes_decodePublicKey _ _ _ done
  simpa [writePublicKey] using taken

theorem consumes_receiptBytes : Consumes (Receipt.consensusDecode formats)
    (fun receipt => receipt.consensusEncode.bytes.length) := by
  intro bytes receipt rest done
  have taken : 65 + rest.length ≤ bytes.length := consumes_receipt _ _ _ done
  simpa [Receipt.consensusEncode, Receipt.toBytes] using taken

theorem consumes_writeU32 : Consumes u32 (fun value => (writeU32 value).bytes.length) :=
  consumes_u32

theorem consumes_writeU64 : Consumes u64 (fun value => (writeU64 value).bytes.length) :=
  consumes_u64

theorem consumes_writeBool : Consumes Decoder.bool (fun value => (writeBool value).bytes.length) :=
  consumes_bool

theorem consumes_hash : Consumes (number 32) (fun hash => (writeHash hash).bytes.length) := by
  intro bytes hash rest done
  have taken : 32 + rest.length ≤ bytes.length := consumes_number 32 _ _ _ done
  simpa [writeHash] using taken

namespace SparkSignature

/-- An ECDSA signature is one the parser accepts. -/
def WellFormed (formats : Formats) : SparkSignature → Prop
  | ecdsa signature => formats.isCompactEcdsa signature
  | schnorr _ => True

variable {accepts : Bytes64 → Bool} {signature : Bytes64} {message : String}
  {build : Bytes64 → SparkSignature}

theorem parseBytes_toList (accepted : accepts signature) :
    parseBytes accepts signature.toList = some signature := by
  unfold parseBytes
  rw [dif_pos (by simp), if_pos]
  · rfl
  · exact accepted

theorem reads_signatureBytes (accepted : accepts signature) :
    Reads (vecU8 >>= fun bytes => orFail (.parseFailed message) (parseBytes accepts bytes) >>=
      fun signature => pure (build signature)) (writeVecU8 signature.toList).bytes
        (build signature) := by
  have vec : Reads vecU8 (writeVecU8 signature.toList).bytes signature.toList :=
    reads_vecU8 (by simp [writeVecU8, writeVarInt, maxVecSize])
  refine vec.bind_pure ?_
  rw [parseBytes_toList accepted]
  rfl

theorem reads {signature : SparkSignature} (wellFormed : signature.WellFormed formats) :
    Reads (consensusDecode formats) signature.consensusEncode.bytes signature := by
  cases signature with
  | ecdsa signature =>
    apply (reads_u8 0).bind
    exact reads_signatureBytes wellFormed
  | schnorr signature =>
    apply (reads_u8 1).bind
    exact reads_signatureBytes rfl

theorem consensusEncode_length (signature : SparkSignature) :
    signature.consensusEncode.bytes.length = 66 := by
  cases signature <;> simp [consensusEncode, writeVecU8, writeVarInt]

theorem consumes_signatureBytes :
    Consumes (vecU8 >>= fun bytes => orFail (.parseFailed message) (parseBytes accepts bytes) >>=
      fun signature => pure (build signature)) (fun _ => 65) := by
  refine consumes_vecU8.bind fun raw => consumes_orFail_bind fun signature parsed =>
    consumes_pure ?_
  have length : raw.length = 64 := by
    unfold parseBytes at parsed
    split at parsed
    · assumption
    · cases parsed
  simp [writeVecU8, writeVarInt, length]

theorem consumes : Consumes (consensusDecode formats)
    (fun signature => signature.consensusEncode.bytes.length) := by
  simp only [consensusEncode_length]
  refine consumes_u8.bind fun flag => ?_
  split
  · exact consumes_signatureBytes
  · split
    · exact consumes_signatureBytes
    · exact consumes_fail

end SparkSignature

namespace OperatorSpecificOwnerSignature

/-- The encoding with the input index, as the decoder expects it. -/
def expected (signature : OperatorSpecificOwnerSignature) : Written :=
  writeOption writePublicKey signature.operatorIdentityPublicKey ++
    writeOption writeU32 signature.inputIndex ++ signature.ownerSignature.consensusEncode

theorem consensusEncode_length_lt (signature : OperatorSpecificOwnerSignature) :
    signature.consensusEncode.bytes.length < signature.expected.bytes.length := by
  have index : 0 < (writeOption writeU32 signature.inputIndex).bytes.length := by
    cases signature.inputIndex <;> simp [writeOption]
  simp only [consensusEncode, expected, append_bytes, List.length_append]
  omega

theorem consumes : Consumes (consensusDecode formats)
    (fun signature => signature.expected.bytes.length) := by
  refine (consumes_option consumes_publicKey).bind fun operatorPubkey => ?_
  refine (consumes_option consumes_writeU32).bind fun inputIndex => ?_
  refine SparkSignature.consumes.bind fun owner => consumes_pure ?_
  simp only [expected, append_bytes, List.length_append]
  omega

theorem option_length_le (signature : Option OperatorSpecificOwnerSignature) :
    (writeOption consensusEncode signature).bytes.length ≤
      (writeOption expected signature).bytes.length := by
  cases signature with
  | none => exact le_rfl
  | some present =>
    have shorter := present.consensusEncode_length_lt
    simp only [writeOption, append_bytes, List.length_append]
    omega

/-- An optional signature is written in full only when it is absent. -/
theorem expected_length_le_iff (signature : Option OperatorSpecificOwnerSignature) :
    (writeOption expected signature).bytes.length ≤
      (writeOption consensusEncode signature).bytes.length ↔ signature = none := by
  cases signature with
  | none => simp [writeOption]
  | some present =>
    have shorter := present.consensusEncode_length_lt
    simp only [writeOption, append_bytes, emit_bytes, List.length_append, reduceCtorEq, iff_false]
    omega

end OperatorSpecificOwnerSignature

namespace TokenLeafToSpend

theorem reads (leaf : TokenLeafToSpend) : Reads consensusDecode leaf.consensusEncode.bytes leaf := by
  apply (reads_array leaf.parentOutputHash).bind
  exact (reads_u32 leaf.parentOutputVout).map

theorem consumes : Consumes consensusDecode (fun leaf => leaf.consensusEncode.bytes.length) := by
  refine (consumes_array 32).bind fun hash => consumes_writeU32.bind fun vout => consumes_pure ?_
  simp [consensusEncode]

end TokenLeafToSpend

namespace TokenLeafOutput

/-- The keys of a leaf are points and its hashes have 32 bytes. -/
structure WellFormed (formats : Formats) (leaf : TokenLeafOutput) : Prop where
  owner : formats.isPoint leaf.ownerPublicKey
  revocation : formats.isPoint leaf.revocationPublicKey
  token : formats.isPoint leaf.receipt.tokenPubkey
  withdrawTxid : ∀ txid, leaf.withdrawTxid = some txid → txid < 256 ^ 32
  withdrawBlockHash : ∀ hash, leaf.withdrawBlockHash = some hash → hash < 256 ^ 32

/-- The id with its length stays within the limit of the decoder. -/
def IdFits (leaf : TokenLeafOutput) : Prop :=
  (writeVecU8 (utf8 leaf.id)).bytes.length ≤ maxVecSize

theorem reads {leaf : TokenLeafOutput} (wellFormed : leaf.WellFormed formats) (fits : leaf.IdFits) :
    Reads (consensusDecode formats) leaf.consensusEncode.bytes leaf := by
  have idBack : ofUtf8 (utf8 leaf.id) = some leaf.id := ofUtf8_eq_some.mpr rfl
  simp only [consensusEncode, append_bytes, List.append_assoc]
  apply (reads_vecU8 fits).bind
  rw [idBack, orFail_some]
  refine Reads.bind (a := []) (reads_pure leaf.id) ?_
  apply (reads_decodePublicKey wellFormed.owner).bind
  apply (reads_receipt wellFormed.token).bind
  apply (reads_decodePublicKey wellFormed.revocation).bind
  apply (reads_u64 leaf.withdrawalBondSats).bind
  apply (reads_u32 leaf.withdrawalLocktime).bind
  apply (reads_option fun value _ => reads_bool value).bind
  apply (reads_option fun txid found => reads_hash (wellFormed.withdrawTxid txid found)).bind
  apply (reads_option fun value _ => reads_u32 value).bind
  apply (reads_option fun value _ => reads_u32 value).bind
  have last := reads_option fun hash found => reads_hash (wellFormed.withdrawBlockHash hash found)
  exact last.map

theorem consumes : Consumes (consensusDecode formats)
    (fun leaf => leaf.consensusEncode.bytes.length) := by
  refine consumes_vecU8.bind fun idBytes => consumes_orFail_bind fun id utf => ?_
  obtain rfl := ofUtf8_eq_some.mp utf
  refine consumes_publicKey.bind fun owner => consumes_receiptBytes.bind fun receipt => ?_
  refine consumes_publicKey.bind fun revocation => consumes_writeU64.bind fun bond => ?_
  refine consumes_writeU32.bind fun locktime => ?_
  refine (consumes_option consumes_writeBool).bind fun frozen => ?_
  refine (consumes_option consumes_hash).bind fun txid => ?_
  refine (consumes_option consumes_writeU32).bind fun vout => ?_
  refine (consumes_option consumes_writeU32).bind fun height => ?_
  refine (consumes_option consumes_hash).bind fun block => consumes_pure ?_
  simp only [consensusEncode, append_bytes, List.length_append]
  omega

theorem yields_idFits : Yields (consensusDecode formats) IdFits := by
  refine yields_vecU8.bind fun idBytes fits => yields_orFail.bind fun id utf => ?_
  -- The other reads say nothing about the id.
  repeat refine yields_bind fun _ => ?_
  apply yields_pure
  unfold IdFits
  rw [← ofUtf8_eq_some.mp utf]
  exact fits

end TokenLeafOutput

namespace TokenTransactionInput

/-- The issuer of a mint is a point. -/
def WellFormed (formats : Formats) : TokenTransactionInput → Prop
  | mint issuerPublicKey _ _ => formats.isPoint issuerPublicKey
  | transfer _ => True

/-- A mint carries no issuer signature, the inputs of a transfer are counted by a `u32`. -/
def Canonical : TokenTransactionInput → Prop
  | mint _ issuerSignature _ => issuerSignature = none
  | transfer outputsToSpend => outputsToSpend.length < 2 ^ 32

/-- The encoding that the decoder expects. -/
def expected : TokenTransactionInput → Written
  | mint issuerPublicKey issuerSignature issuerProvidedTimestamp =>
    emit [0] ++ writePublicKey issuerPublicKey ++ writeU64 issuerProvidedTimestamp ++
      writeOption OperatorSpecificOwnerSignature.expected issuerSignature
  | transfer outputsToSpend =>
    emit [1] ++ writeCounted 4 TokenLeafToSpend.consensusEncode outputsToSpend

variable {input : TokenTransactionInput}

theorem reads (wellFormed : input.WellFormed formats) (canonical : input.Canonical) :
    Reads (consensusDecode formats) input.consensusEncode.bytes input := by
  cases input with
  | mint issuerPublicKey issuerSignature issuerProvidedTimestamp =>
    obtain rfl : issuerSignature = none := canonical
    simp only [consensusEncode, append_bytes, emit_bytes, List.append_assoc]
    apply (reads_u8 0).bind
    apply (reads_decodePublicKey wellFormed).bind
    apply (reads_u64 issuerProvidedTimestamp).bind
    intro rest
    rfl
  | transfer outputsToSpend =>
    have fits : outputsToSpend.length < 256 ^ 4 := lt_of_lt_of_eq canonical (by norm_num)
    apply (reads_u8 1).bind
    exact (reads_counted fits fun leaf _ => leaf.reads).map

theorem consensusEncode_length_le (input : TokenTransactionInput) :
    input.consensusEncode.bytes.length ≤ input.expected.bytes.length := by
  cases input with
  | mint issuerPublicKey issuerSignature issuerProvidedTimestamp =>
    have signature := OperatorSpecificOwnerSignature.option_length_le issuerSignature
    simp only [expected, consensusEncode, append_bytes, List.length_append]
    omega
  | transfer outputsToSpend => exact le_rfl

/-- What a decoder may take decides whether a mint is signed. -/
theorem canonical_of_expected_le
    (inputs : ∀ outputsToSpend, input = transfer outputsToSpend → outputsToSpend.length < 2 ^ 32)
    (le : input.expected.bytes.length ≤ input.consensusEncode.bytes.length) : input.Canonical := by
  cases input with
  | mint issuerPublicKey issuerSignature issuerProvidedTimestamp =>
    apply (OperatorSpecificOwnerSignature.expected_length_le_iff issuerSignature).mp
    simp only [expected, consensusEncode, append_bytes, List.length_append] at le
    omega
  | transfer outputsToSpend => exact inputs outputsToSpend rfl

theorem consumes : Consumes (consensusDecode formats)
    (fun input => input.expected.bytes.length) := by
  refine consumes_u8.bind fun flag => ?_
  split
  · refine consumes_publicKey.bind fun issuer => consumes_writeU64.bind fun timestamp => ?_
    refine (consumes_option OperatorSpecificOwnerSignature.consumes).bind fun signature => ?_
    apply consumes_pure
    simp only [expected, append_bytes, emit_bytes, List.length_append, List.length_singleton]
    omega
  · split
    · refine (consumes_counted TokenLeafToSpend.consumes).bind fun outputs => consumes_pure ?_
      simp [expected]
    · exact consumes_fail

theorem yields_inputs : Yields (consensusDecode formats)
    (fun input => ∀ outputsToSpend, input = transfer outputsToSpend →
      outputsToSpend.length < 2 ^ 32) := by
  refine yields_bind fun flag => ?_
  split
  · refine yields_bind fun _ => yields_bind fun _ => yields_bind fun _ => yields_pure ?_
    intro outputsToSpend isTransfer
    cases isTransfer
  · split
    · refine counted_length.bind fun outputs counted => yields_pure ?_
      intro outputsToSpend isTransfer
      cases isTransfer
      exact counted
    · intro bytes input rest done
      cases done

end TokenTransactionInput

namespace TokenTransaction

/-- What the types of the source guarantee of a transaction. -/
structure WellFormed (formats : Formats) (tx : TokenTransaction) : Prop where
  leaves : ∀ leaf ∈ tx.leavesToCreate, leaf.WellFormed formats
  input : tx.input.WellFormed formats
  operators : ∀ key ∈ tx.sparkOperatorIdentityPublicKeys, formats.isPoint key

/-- The transactions that the codec can carry: no issuer signature, lists counted by a `u32`,
ids within the limit of the decoder. -/
structure Canonical (tx : TokenTransaction) : Prop where
  leaves : tx.leavesToCreate.length < 2 ^ 32
  ids : ∀ leaf ∈ tx.leavesToCreate, leaf.IdFits
  input : tx.input.Canonical
  operators : tx.sparkOperatorIdentityPublicKeys.length < 2 ^ 32

variable {tx : TokenTransaction}

theorem reads (wellFormed : tx.WellFormed formats) (canonical : tx.Canonical) :
    Reads (consensusDecode formats) tx.consensusEncode.bytes tx := by
  have leaves : tx.leavesToCreate.length < 256 ^ 4 := lt_of_lt_of_eq canonical.leaves (by norm_num)
  have operators : tx.sparkOperatorIdentityPublicKeys.length < 256 ^ 4 :=
    lt_of_lt_of_eq canonical.operators (by norm_num)
  simp only [consensusEncode, append_bytes, List.append_assoc]
  apply (reads_counted leaves fun leaf mem =>
    TokenLeafOutput.reads (wellFormed.leaves leaf mem) (canonical.ids leaf mem)).bind
  apply (TokenTransactionInput.reads wellFormed.input canonical.input).bind
  apply (reads_counted operators fun key mem =>
    reads_decodePublicKey (wellFormed.operators key mem)).bind
  exact (reads_option fun value _ => reads_u32 value).map

theorem consensusEncode_pos (tx : TokenTransaction) : 0 < tx.consensusEncode.bytes.length := by
  simp [consensusEncode, writeCounted]

/-- The encoding that the decoder expects. -/
def expected (tx : TokenTransaction) : Written :=
  writeCounted 4 TokenLeafOutput.consensusEncode tx.leavesToCreate ++ tx.input.expected ++
    writeCounted 4 writePublicKey tx.sparkOperatorIdentityPublicKeys ++
    writeOption writeU32 tx.network

theorem consensusEncode_length_le (tx : TokenTransaction) :
    tx.consensusEncode.bytes.length ≤ tx.expected.bytes.length := by
  have input := tx.input.consensusEncode_length_le
  simp only [expected, consensusEncode, append_bytes, List.length_append]
  omega

theorem consumes : Consumes (consensusDecode formats) (fun tx => tx.expected.bytes.length) := by
  refine (consumes_counted TokenLeafOutput.consumes).bind fun leaves => ?_
  refine TokenTransactionInput.consumes.bind fun input => ?_
  refine (consumes_counted consumes_publicKey).bind fun operators => ?_
  refine (consumes_option consumes_writeU32).bind fun network => consumes_pure ?_
  simp only [expected, append_bytes, List.length_append]
  omega

/-- A decoded transaction has counted lists and short ids, so that only the signature of the
issuer is left to exclude. -/
theorem yields_canonical : Yields (consensusDecode formats) (fun tx =>
    tx.expected.bytes.length ≤ tx.consensusEncode.bytes.length → tx.Canonical) := by
  refine (yields_counted TokenLeafOutput.yields_idFits).bind fun leaves ids => ?_
  refine TokenTransactionInput.yields_inputs.bind fun input inputs => ?_
  refine counted_length.bind fun operators count => yields_bind fun network => yields_pure ?_
  intro le
  have input : input.expected.bytes.length ≤ input.consensusEncode.bytes.length := by
    simp only [expected, consensusEncode, append_bytes, List.length_append] at le
    omega
  exact ⟨lt_of_lt_of_eq ids.1 (by norm_num), ids.2,
    TokenTransactionInput.canonical_of_expected_le inputs input,
    lt_of_lt_of_eq count (by norm_num)⟩

theorem canonical_of_reads (reads : Reads (consensusDecode formats) tx.consensusEncode.bytes tx) :
    tx.Canonical :=
  reads.yields yields_canonical (reads.size_le consumes)

end TokenTransaction

namespace SparkSignatureLeafData

theorem reads {data : SparkSignatureLeafData}
    (secret : ∀ secret, data.revocationSecret = some secret → formats.isSecretKey secret) :
    Reads (consensusDecode formats) data.consensusEncode.bytes data := by
  have kept : data.revocationSecret.filter formats.isSecretKey = data.revocationSecret := by
    cases found : data.revocationSecret with
    | none => rfl
    | some present => simp [secret present found]
  apply (reads_u32 data.tokenTxLeafIndex).bind
  refine (reads_option fun value _ => reads_array value).bind_pure ?_
  rw [kept]

theorem consumes : Consumes (consensusDecode formats)
    (fun data => data.consensusEncode.bytes.length) := by
  have secretBytes : Consumes (array 32)
      (fun secret : SecretKey => (emit secret.toList).bytes.length) := by
    simpa using consumes_array 32
  refine consumes_writeU32.bind fun index => ?_
  refine (consumes_option secretBytes).bind fun secret => consumes_pure ?_
  -- A dropped secret is shorter than the bytes that were read for it.
  have shorter : (writeOption (fun secret : SecretKey => emit secret.toList)
      (secret.filter formats.isSecretKey)).bytes.length ≤
      (writeOption (fun secret : SecretKey => emit secret.toList) secret).bytes.length := by
    cases secret with
    | none => exact le_rfl
    | some present =>
      by_cases valid : formats.isSecretKey present
      · rw [Option.filter_some, if_pos valid]
      · rw [Option.filter_some, if_neg valid]
        simp [writeOption]
  simp only [consensusEncode, append_bytes, List.length_append, Nat.sub_sub]
  exact Nat.sub_eq_zero_of_le (Nat.add_le_add_left shorter _)

end SparkSignatureLeafData

namespace SparkSignatureData

/-- What the types of the source guarantee of a signature message. -/
structure WellFormed (formats : Formats) (data : SparkSignatureData) : Prop where
  operator : formats.isPoint data.operatorPubkey
  signature : data.operatorSignature.WellFormed formats
  secrets : ∀ leaf ∈ data.outputsToSpendData, ∀ secret, leaf.revocationSecret = some secret →
    formats.isSecretKey secret

/-- The messages that the codec can carry: without an owner signature, with a list counted by
a `u32`. -/
structure Canonical (data : SparkSignatureData) : Prop where
  unsigned : data.operatorSpecificOwnerSignature = none
  outputs : data.outputsToSpendData.length < 2 ^ 32

variable {data : SparkSignatureData}

theorem reads (wellFormed : data.WellFormed formats) (canonical : data.Canonical) :
    Reads (consensusDecode formats) data.consensusEncode.bytes data := by
  obtain ⟨ownerSignature, operatorPubkey, operatorSignature, tokenTxHash, outputs⟩ := data
  obtain rfl : ownerSignature = none := canonical.unsigned
  have fits : outputs.length < 256 ^ 4 := lt_of_lt_of_eq canonical.outputs (by norm_num)
  simp only [consensusEncode, append_bytes, emit_bytes, List.append_assoc]
  apply (reads_array tokenTxHash).bind
  apply (reads_decodePublicKey wellFormed.operator).bind
  apply (SparkSignature.reads wellFormed.signature).bind
  have absent : Reads (option (OperatorSpecificOwnerSignature.consensusDecode formats))
      (writeOption OperatorSpecificOwnerSignature.consensusEncode none).bytes none :=
    reads_option nofun
  apply absent.bind
  have last := reads_counted fits fun leaf mem =>
    SparkSignatureLeafData.reads (wellFormed.secrets leaf mem)
  exact last.map

theorem consensusEncode_pos (data : SparkSignatureData) :
    0 < data.consensusEncode.bytes.length := by
  simp [consensusEncode]

/-- The encoding that the decoder expects. -/
def expected (data : SparkSignatureData) : Written :=
  emit data.tokenTxHash.toList ++ writePublicKey data.operatorPubkey ++
    data.operatorSignature.consensusEncode ++
    writeOption OperatorSpecificOwnerSignature.expected data.operatorSpecificOwnerSignature ++
    writeCounted 4 SparkSignatureLeafData.consensusEncode data.outputsToSpendData

theorem consensusEncode_length_le (data : SparkSignatureData) :
    data.consensusEncode.bytes.length ≤ data.expected.bytes.length := by
  have owner := OperatorSpecificOwnerSignature.option_length_le data.operatorSpecificOwnerSignature
  simp only [expected, consensusEncode, append_bytes, List.length_append]
  omega

theorem consumes : Consumes (consensusDecode formats) (fun data => data.expected.bytes.length) := by
  refine (consumes_array 32).bind fun hash => consumes_publicKey.bind fun operator => ?_
  refine SparkSignature.consumes.bind fun signature => ?_
  refine (consumes_option OperatorSpecificOwnerSignature.consumes).bind fun owner => ?_
  refine (consumes_counted SparkSignatureLeafData.consumes).bind fun outputs => consumes_pure ?_
  simp only [expected, append_bytes, emit_bytes, List.length_append, List.Vector.toList_length]
  omega

theorem yields_canonical : Yields (consensusDecode formats) (fun data =>
    data.expected.bytes.length ≤ data.consensusEncode.bytes.length → data.Canonical) := by
  refine yields_bind fun _ => yields_bind fun _ => yields_bind fun _ => yields_bind fun owner => ?_
  refine counted_length.bind fun outputs count => yields_pure fun le => ?_
  refine ⟨?_, lt_of_lt_of_eq count (by norm_num)⟩
  apply (OperatorSpecificOwnerSignature.expected_length_le_iff owner).mp
  simp only [expected, consensusEncode, append_bytes, List.length_append] at le
  omega

theorem canonical_of_reads
    (reads : Reads (consensusDecode formats) data.consensusEncode.bytes data) : data.Canonical :=
  reads.yields yields_canonical (reads.size_le consumes)

end SparkSignatureData

namespace TokensFreezeData

/-- What the types of the source guarantee of a freeze. -/
structure WellFormed (formats : Formats) (freeze : TokensFreezeData) : Prop where
  signature : freeze.issuerSignature.WellFormed formats
  owner : formats.isPoint freeze.ownerPublicKey
  operator : formats.isPoint freeze.operatorIdentityPublicKey
  token : formats.isPoint freeze.tokenPublicKey

theorem reads {freeze : TokensFreezeData} (wellFormed : freeze.WellFormed formats) :
    Reads (consensusDecode formats) freeze.consensusEncode.bytes freeze := by
  simp only [consensusEncode, append_bytes, List.append_assoc]
  apply (SparkSignature.reads wellFormed.signature).bind
  apply (reads_decodePublicKey wellFormed.owner).bind
  apply (reads_decodePublicKey wellFormed.operator).bind
  apply (reads_bool freeze.shouldUnfreeze).bind
  apply (reads_decodePublicKey wellFormed.token).bind
  exact (reads_u64 freeze.timestamp).map

end TokensFreezeData

end ReadBack

/-- The codec gives a Spark value back, and the bytes after it, for freezes, and exactly for
transactions and signature messages that carry no operator-specific owner signature and keep
to the counts and limits. -/
theorem spark_consensusDecode_consensusEncode_iff (formats : Formats) :
    (∀ tx : TokenTransaction, tx.WellFormed formats →
      (Reads (TokenTransaction.consensusDecode formats) tx.consensusEncode.bytes tx ↔
        tx.Canonical)) ∧
    (∀ data : SparkSignatureData, data.WellFormed formats →
      (Reads (consensusDecode formats) data.consensusEncode.bytes data ↔ data.Canonical)) ∧
    ∀ freeze : TokensFreezeData, freeze.WellFormed formats →
      Reads (TokensFreezeData.consensusDecode formats) freeze.consensusEncode.bytes freeze := by
  refine ⟨?_, ?_, ?_⟩
  · intro tx wellFormed
    exact ⟨TokenTransaction.canonical_of_reads, TokenTransaction.reads wellFormed⟩
  · intro data wellFormed
    exact ⟨canonical_of_reads, SparkSignatureData.reads wellFormed⟩
  · intro freeze wellFormed
    exact TokensFreezeData.reads wellFormed

theorem plainLeaf_wellFormed (id : String) (amount : U128) :
    (plainLeaf id amount).WellFormed Formats.plain :=
  ⟨rfl, rfl, rfl, nofun, nofun⟩

/-- A transfer, the signature of an operator without that of an owner, and a freeze read back. -/
theorem spark_consensusDecode_plain :
    let transfer := plainTransaction (.transfer [⟨List.Vector.replicate 32 9, 0⟩])
      [plainLeaf "a" 5]
    let signature := SparkSignature.schnorr (List.Vector.replicate 64 8)
    let data : SparkSignatureData := ⟨none, .repeating 4, signature, List.Vector.replicate 32 9,
      [⟨0, some (List.Vector.replicate 32 3)⟩]⟩
    let freeze : TokensFreezeData := ⟨.repeating 4, .repeating 2, .repeating 1, false, signature, 7⟩
    Reads (TokenTransaction.consensusDecode Formats.plain) transfer.consensusEncode.bytes transfer ∧
      Reads (consensusDecode Formats.plain) data.consensusEncode.bytes data ∧
      Reads (TokensFreezeData.consensusDecode Formats.plain) freeze.consensusEncode.bytes freeze := by
  intro transfer signature data freeze
  obtain ⟨transactions, signatures, freezes⟩ :=
    spark_consensusDecode_consensusEncode_iff Formats.plain
  refine ⟨(transactions transfer ?_).mpr ?_, (signatures data ?_).mpr ?_, freezes freeze ?_⟩
  · refine ⟨?_, trivial, fun _ _ => rfl⟩
    intro leaf mem
    obtain rfl := List.mem_singleton.mp mem
    exact plainLeaf_wellFormed "a" 5
  · refine ⟨by decide, ?_, show 1 < 2 ^ 32 by decide, by decide⟩
    intro leaf mem
    obtain rfl := List.mem_singleton.mp mem
    show (writeVecU8 (utf8 "a")).bytes.length ≤ maxVecSize
    decide +kernel
  · exact ⟨rfl, trivial, fun _ _ _ _ => rfl⟩
  · exact ⟨rfl, by decide⟩
  · exact ⟨trivial, rfl, rfl, rfl⟩

/-- A signed mint and a signature message with the signature of an owner do not read back. -/
theorem spark_consensusDecode_loses_owner_signatures : let owner : OperatorSpecificOwnerSignature :=
      ⟨some (.repeating 4), .schnorr (List.Vector.replicate 64 8), some 0⟩
    let data : SparkSignatureData := ⟨some owner, .repeating 4,
      .schnorr (List.Vector.replicate 64 8), List.Vector.replicate 32 9, []⟩
    ¬ Reads (TokenTransaction.consensusDecode Formats.plain)
        (plainMint "a" 5).consensusEncode.bytes (plainMint "a" 5) ∧
      ¬ Reads (consensusDecode Formats.plain) data.consensusEncode.bytes data := by
  intro owner data
  constructor
  · intro reads
    have lost : TokenTransaction.consensusDecode Formats.plain
        ((plainMint "a" 5).consensusEncode.bytes ++ []) ≠ .ok (plainMint "a" 5, []) := by
      decide +kernel
    exact lost (reads [])
  · intro reads
    have lost : consensusDecode Formats.plain
        (data.consensusEncode.bytes ++ []) ≠ .ok (data, []) := by
      decide +kernel
    exact lost (reads [])

end Lrc20
