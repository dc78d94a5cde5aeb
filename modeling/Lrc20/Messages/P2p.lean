import Lrc20.Types.Consensus

open ByteOrder Codec Codec.Decoder Codec.Written

namespace Lrc20

open Lrc20Transaction SparkSignatureData

variable {txs : List Lrc20Transaction}

inductive Inventory where
  | ltx (txid : Txid)
  | sparkTx (hash : SparkHash)
  | sparkSignatures (hash : SparkHash)
  | sparkFreeze (freeze : TokensFreezeData)
deriving DecidableEq

namespace Inventory

def consensusEncode : Inventory → Written
  | ltx txid => emit [0] ++ writeHash txid
  | sparkTx hash => emit [1] ++ emit hash.toList
  | sparkSignatures hash => emit [2] ++ emit hash.toList
  | sparkFreeze freeze => emit [3] ++ freeze.consensusEncode

def decodeFlagged (formats : Formats) (flag : UInt8) : Decoder Inventory :=
  if flag = 0 then do
    let txid ← number 32
    pure (ltx txid)
  else if flag = 1 then do
    let hash ← array 32
    pure (sparkTx hash)
  else if flag = 2 then do
    let hash ← array 32
    pure (sparkSignatures hash)
  else if flag = 3 then do
    let freeze ← TokensFreezeData.consensusDecode formats
    pure (sparkFreeze freeze)
  else fail (.parseFailed "Unknown inventory type")

def consensusDecode (formats : Formats) : Decoder Inventory := do
  let flag ← u8
  decodeFlagged formats flag

end Inventory

/-- A peer's address by its bytes: services, IP and port. -/
abbrev Address := List.Vector UInt8 26

/-- `VersionMessage` of the `bitcoin` crate, its signed fields by their bits. -/
structure VersionMessage where
  version : UInt32
  services : UInt64
  timestamp : UInt64
  receiver : Address
  sender : Address
  nonce : UInt64
  userAgent : String
  startHeight : UInt32
  relay : Bool
deriving DecidableEq

def VersionMessage.consensusEncode (message : VersionMessage) : Written :=
  writeU32 message.version ++ writeU64 message.services ++ writeU64 message.timestamp ++
    emit message.receiver.toList ++ emit message.sender.toList ++ writeU64 message.nonce ++
    writeVecU8 (utf8 message.userAgent) ++ writeU32 message.startHeight ++ writeBool message.relay

/-- A `String` of the `bitcoin` crate. -/
def decodeString : Decoder String := do
  let bytes ← vecU8
  orFail (.parseFailed "String was not valid UTF8") (ofUtf8 bytes)

def VersionMessage.consensusDecode : Decoder VersionMessage := limited maxVecSize do
  let version ← u32
  let services ← u64
  let timestamp ← u64
  let receiver ← array 26
  let sender ← array 26
  let nonce ← u64
  let userAgent ← decodeString
  let startHeight ← u32
  let relay ← Decoder.bool
  pure ⟨version, services, timestamp, receiver, sender, nonce, userAgent, startHeight, relay⟩

/-- When the peer was last active, and its address. -/
def encodePeer (peer : UInt32 × Address) : Written := writeU32 peer.1 ++ emit peer.2.toList

def decodePeer : Decoder (UInt32 × Address) := do
  let lastActive ← u32
  let address ← array 26
  pure (lastActive, address)

def encodePeers (peers : List (UInt32 × Address)) : Written :=
  writeVarInt peers.length ++ concat (peers.map encodePeer)

def decodePeers : Decoder (List (UInt32 × Address)) := limited maxVecSize do
  let count ← varInt
  times decodePeer count

inductive NetworkMessage where
  | inv (inventory : List Inventory)
  | addr (peers : List (UInt32 × Address))
  | getAddr
  | getData (inventory : List Inventory)
  | lrc20Tx (txs : List Lrc20Transaction)
  | sparkTx (txs : List TokenTransaction)
  | sparkSig (signatures : List SparkSignatureData)
  | ping (nonce : UInt64)
  | pong (nonce : UInt64)
  | verack
  | version (message : VersionMessage)
  | wtxidRelay
  | ltxidRelay
  | ltxidack
  | unknown (command : String) (payload : Bytes)
deriving DecidableEq

namespace NetworkMessage

def cmd : NetworkMessage → String
  | inv _ => "inv"
  | addr _ => "addr"
  | getData _ => "getdata"
  | lrc20Tx _ => "lrc20tx"
  | sparkTx _ => "sparktx"
  | sparkSig _ => "sparksig"
  | ping _ => "ping"
  | pong _ => "pong"
  | verack => "verack"
  | version _ => "version"
  | wtxidRelay => "wtxidrelay"
  | ltxidRelay => "ltxidrelay"
  | ltxidack => "ltxidack"
  | getAddr => "getaddr"
  | unknown _ _ => "unknown"

def encodePayload (formats : WireFormats) : NetworkMessage → Written
  | inv inventory => writeCounted 4 Inventory.consensusEncode inventory
  | addr peers => encodePeers peers
  | getData inventory => writeCounted 4 Inventory.consensusEncode inventory
  | lrc20Tx txs => writeCounted 4 (consensusEncode formats) txs
  | sparkTx txs => writeCounted 4 TokenTransaction.consensusEncode txs
  | sparkSig signatures => writeCounted 4 consensusEncode signatures
  | ping nonce => writeU64 nonce
  | pong nonce => writeU64 nonce
  | verack => emit []
  | wtxidRelay => emit []
  | ltxidRelay => emit []
  | ltxidack => emit []
  | getAddr => emit []
  | version message => message.consensusEncode
  | unknown _ payload => writeVecU8 payload

/-- The value at the front of a payload; what follows it is not looked at. -/
def decodeFront {α : Type} (decoder : Decoder α) (build : α → NetworkMessage) (payload : Bytes) :
    Except Failure NetworkMessage :=
  match decoder payload with
  | .ok (value, _) => .ok (build value)
  | .error failure => .error failure

def decodePayload (formats : WireFormats) (cmd : String) (payload : Bytes) :
    Except Failure NetworkMessage :=
  match cmd with
  | "inv" => decodeFront (counted 4 (Inventory.consensusDecode formats.toFormats)) inv payload
  | "getdata" =>
    decodeFront (counted 4 (Inventory.consensusDecode formats.toFormats)) getData payload
  | "lrc20tx" => decodeFront (counted 4 (consensusDecode formats)) lrc20Tx payload
  | "sparktx" =>
    decodeFront (counted 4 (TokenTransaction.consensusDecode formats.toFormats)) sparkTx payload
  | "sparksig" =>
    decodeFront (counted 4 (consensusDecode formats.toFormats)) sparkSig payload
  | "ping" => decodeFront u64 ping payload
  | "pong" => decodeFront u64 pong payload
  | "addr" => decodeFront decodePeers addr payload
  | "version" => decodeFront VersionMessage.consensusDecode version payload
  | "verack" => .ok verack
  | "wtxidrelay" => .ok wtxidRelay
  | "ltxidrelay" => .ok ltxidRelay
  | "ltxidack" => .ok ltxidack
  | "getaddr" => .ok getAddr
  | command => .ok (unknown command payload)

end NetworkMessage

def maxMsgSize : Nat := 5000000

variable (prims : Primitives) (data : Bytes)

/-- The first four bytes of the double SHA-256 hash. -/
def sha2Checksum : Bytes :=
  (prims.sha256 (prims.sha256 data).toList).toList.take 4

/-- `CheckedData::consensus_encode`. -/
def encodeCheckedData : Written :=
  ⟨leBytes 4 data.length ++ sha2Checksum prims data ++ data, 8 + data.length⟩

/-- `CheckedData::consensus_decode_from_finite_reader`. -/
def decodeChecked : Decoder Bytes := do
  let length ← number 4
  let checksum ← readExact 4
  let data ← readExact length
  if sha2Checksum prims data = checksum then pure data else fail .invalidChecksum

/-- `CheckedData::consensus_decode`, which reads at most `maxVecSize` bytes. -/
def decodeCheckedData : Decoder Bytes :=
  limited maxVecSize (decodeChecked prims)

/-- A command filled up with zeros. -/
def commandBytes (cmd : String) : Bytes := utf8 cmd ++ List.replicate (12 - (utf8 cmd).length) 0

structure RawNetworkMessage where
  magic : List.Vector UInt8 4
  payload : NetworkMessage
deriving DecidableEq

namespace RawNetworkMessage

variable (formats : WireFormats)

def consensusEncode (message : RawNetworkMessage) : Written :=
  emit message.magic.toList ++ emit (commandBytes message.payload.cmd) ++
    encodeCheckedData formats.toPrimitives (message.payload.encodePayload formats).bytes

/-- `consensus_decode_from_finite_reader` after the magic bytes and the command. -/
def decodeBody (magic : List.Vector UInt8 4) (cmd : String) : Decoder RawNetworkMessage := do
  let rawPayload ← decodeCheckedData formats.toPrimitives
  let payload ← ofExcept (NetworkMessage.decodePayload formats cmd rawPayload)
  pure ⟨magic, payload⟩

/-- `consensus_decode_from_finite_reader`. -/
def decodeFinite : Decoder RawNetworkMessage := do
  let magic ← array 4
  let command ← readExact 12
  let cmd ← orFail (.parseFailed "invalid command") (formats.parseCommand command)
  decodeBody formats magic cmd

def consensusDecode : Decoder RawNetworkMessage :=
  limited maxMsgSize (decodeFinite formats)

end RawNetworkMessage

/-! The parts of a message that always read back. -/

section ReadBack

variable {formats : Formats}

def Inventory.WellFormed (formats : Formats) : Inventory → Prop
  | ltx txid => txid < 256 ^ 32
  | sparkFreeze freeze => freeze.WellFormed formats
  | _ => True

theorem Inventory.reads {item : Inventory} (wellFormed : item.WellFormed formats) :
    Reads (consensusDecode formats) item.consensusEncode.bytes item := by
  cases item with
  | ltx txid => exact (reads_u8 0).bind (reads_hash wellFormed).map
  | sparkTx hash => exact (reads_u8 1).bind (reads_array hash).map
  | sparkSignatures hash => exact (reads_u8 2).bind (reads_array hash).map
  | sparkFreeze freeze => exact (reads_u8 3).bind (TokensFreezeData.reads wellFormed).map

theorem Inventory.consensusEncode_pos (item : Inventory) : 0 < item.consensusEncode.bytes.length := by
  cases item <;> simp [consensusEncode]

theorem reads_decodeString {text : String}
    (fits : (writeVecU8 (utf8 text)).bytes.length ≤ maxVecSize) :
    Reads decodeString (writeVecU8 (utf8 text)).bytes text := by
  refine (reads_vecU8 fits).bind_pure ?_
  rw [ofUtf8_eq_some.mpr rfl, orFail_some]

theorem VersionMessage.reads {message : VersionMessage}
    (fits : message.consensusEncode.bytes.length ≤ maxVecSize) :
    Reads consensusDecode message.consensusEncode.bytes message := by
  refine Reads.limited ?_ fits
  have agent : (writeVecU8 (utf8 message.userAgent)).bytes.length ≤ maxVecSize := by
    simp only [consensusEncode, append_bytes, List.length_append] at fits
    omega
  simp only [consensusEncode, append_bytes, emit_bytes, List.append_assoc]
  apply (reads_u32 message.version).bind
  apply (reads_u64 message.services).bind
  apply (reads_u64 message.timestamp).bind
  apply (reads_array message.receiver).bind
  apply (reads_array message.sender).bind
  apply (reads_u64 message.nonce).bind
  apply (reads_decodeString agent).bind
  apply (reads_u32 message.startHeight).bind
  exact (reads_bool message.relay).map

theorem reads_decodePeers {peers : List (UInt32 × Address)}
    (fits : (encodePeers peers).bytes.length ≤ maxVecSize) :
    Reads decodePeers (encodePeers peers).bytes peers := by
  have count : peers.length ≤ (concat (peers.map encodePeer)).bytes.length :=
    count_le_concat fun peer _ => by simp [encodePeer, writeU32]
  have short : peers.length < 2 ^ 64 := by
    simp only [encodePeers, append_bytes, List.length_append, maxVecSize] at fits
    omega
  refine Reads.limited ?_ fits
  refine (reads_varInt short).bind (reads_times fun peer _ => ?_)
  exact (reads_u32 peer.1).bind (reads_array peer.2).map

theorem sha2Checksum_length : (sha2Checksum prims data).length = 4 := by
  simp [sha2Checksum]

theorem encodeCheckedData_length :
    (encodeCheckedData prims data).bytes.length = 8 + data.length := by
  simp [encodeCheckedData, sha2Checksum_length]
  omega

theorem reads_decodeCheckedData {prims : Primitives} {data : Bytes}
    (fits : 8 + data.length ≤ maxVecSize) :
    Reads (decodeCheckedData prims) (encodeCheckedData prims data).bytes data := by
  refine Reads.limited ?_ (encodeCheckedData_length prims data ▸ fits)
  have short : data.length < 256 ^ 4 := by
    simp only [maxVecSize] at fits
    omega
  have sum : Reads (readExact 4) (sha2Checksum prims data) (sha2Checksum prims data) :=
    sha2Checksum_length prims data ▸ reads_readExact _
  simp only [encodeCheckedData, List.append_assoc]
  apply (reads_number short).bind
  apply sum.bind
  exact (reads_readExact data).bind_pure (if_pos rfl)

end ReadBack

namespace NetworkMessage

variable {formats : WireFormats} {payload : NetworkMessage} {α : Type} {decoder : Decoder α}
  {build : α → NetworkMessage} {bytes : Bytes} {value : α}

/-- What the types of the source guarantee of a message, and that the `bitcoin` crate carries
its Bitcoin transactions. -/
def WellFormed (formats : WireFormats) : NetworkMessage → Prop
  | inv inventory => ∀ item ∈ inventory, item.WellFormed formats.toFormats
  | getData inventory => ∀ item ∈ inventory, item.WellFormed formats.toFormats
  | lrc20Tx txs => ∀ tx ∈ txs, tx.WellFormed formats
  | sparkTx txs => ∀ tx ∈ txs, tx.WellFormed formats.toFormats
  | sparkSig signatures => ∀ data ∈ signatures, data.WellFormed formats.toFormats
  | _ => True

/-- The messages whose payload can be carried: none of an unknown command, and in the lists no
value that its own codec loses and no transaction after an announcement. -/
def Canonical (formats : Formats) : NetworkMessage → Prop
  | lrc20Tx txs => Lrc20Transaction.CanonicalList formats txs
  | sparkTx txs => ∀ tx ∈ txs, tx.Canonical
  | sparkSig signatures => ∀ data ∈ signatures, data.Canonical
  | unknown _ _ => False
  | _ => True

theorem decodeFront_eq_ok (injective : Function.Injective build) :
    decodeFront decoder build bytes = .ok (build value) ↔
      ∃ after, decoder bytes = .ok (value, after) := by
  unfold decodeFront
  cases decoder bytes with
  | error failure => simp
  | ok read =>
    obtain ⟨found, after⟩ := read
    simp [injective.eq_iff]

theorem decodeFront_of_reads (reads : Reads decoder bytes value) :
    decodeFront decoder build bytes = .ok (build value) := by
  have whole := reads []
  rw [List.append_nil] at whole
  rw [decodeFront, whole]

/-- A list whose values are written as something and whose bytes a `u32` can count. -/
theorem count_lt {write : α → Written} {values : List α}
    (each : ∀ value ∈ values, 0 < (write value).bytes.length)
    (short : (writeCounted 4 write values).bytes.length < 2 ^ 32) : values.length < 256 ^ 4 := by
  have count := count_le_concat each
  rw [length_writeCounted] at short
  omega

theorem decodePayload_lrc20Tx_iff (noTransaction : ∀ read, formats.decodeTransaction [] ≠ .ok read)
    (wellFormed : ∀ tx ∈ txs, tx.WellFormed formats)
    (short : (writeCounted 4 (consensusEncode formats) txs).bytes.length < 2 ^ 32) :
    decodeFront (counted 4 (consensusDecode formats)) lrc20Tx
        (writeCounted 4 (consensusEncode formats) txs).bytes = .ok (lrc20Tx txs) ↔
      Lrc20Transaction.CanonicalList formats.toFormats txs := by
  have count : txs.length < 256 ^ 4 := count_lt (fun tx _ => tx.consensusEncode_pos) short
  rw [length_writeCounted] at short
  rw [decodeFront_eq_ok fun _ _ same => lrc20Tx.inj same,
    ← decodes_iff noTransaction wellFormed (by omega)]
  refine exists_congr fun after => ?_
  have counted : Tracks (counted 4 (consensusDecode formats))
      (writeCounted 4 (consensusEncode formats) txs).bytes txs
      (times (consensusDecode formats) txs.length)
      (concat (txs.map (consensusEncode formats))).bytes txs :=
    tracks_bind (reads_number count)
  have whole := counted [] after
  rwa [List.append_nil, List.append_nil] at whole

/-- The payload is decoded back from its bytes exactly when it can be carried. -/
theorem decodePayload_iff (noTransaction : ∀ read, formats.decodeTransaction [] ≠ .ok read)
    (wellFormed : payload.WellFormed formats)
    (short : (payload.encodePayload formats).bytes.length ≤ maxVecSize) :
    decodePayload formats payload.cmd (payload.encodePayload formats).bytes = .ok payload ↔
      payload.Canonical formats.toFormats := by
  have counted : (payload.encodePayload formats).bytes.length < 2 ^ 32 := by
    simp only [maxVecSize] at short
    omega
  cases payload with
  | inv | getData =>
    refine iff_of_true (decodeFront_of_reads (reads_counted ?_ fun item mem => ?_)) trivial
    · exact count_lt (fun item _ => item.consensusEncode_pos) counted
    · exact Inventory.reads (wellFormed item mem)
  | addr peers => exact iff_of_true (decodeFront_of_reads (reads_decodePeers short)) trivial
  | getAddr | verack | wtxidRelay | ltxidRelay | ltxidack => exact iff_of_true rfl trivial
  | lrc20Tx txs => exact decodePayload_lrc20Tx_iff noTransaction wellFormed counted
  | sparkTx txs =>
    refine (decodeFront_eq_ok fun _ _ same => sparkTx.inj same).trans ?_
    refine counted_eq_ok_iff (count_lt (fun tx _ => tx.consensusEncode_pos) counted)
      TokenTransaction.consumes TokenTransaction.consensusEncode_length_le ?_ ?_
    · exact fun tx mem => TokenTransaction.reads (wellFormed tx mem)
    · exact TokenTransaction.yields_canonical
  | sparkSig signatures =>
    refine (decodeFront_eq_ok fun _ _ same => sparkSig.inj same).trans ?_
    refine counted_eq_ok_iff (count_lt (fun data _ => data.consensusEncode_pos) counted)
      consumes consensusEncode_length_le ?_ ?_
    · exact fun data mem => SparkSignatureData.reads (wellFormed data mem)
    · exact yields_canonical
  | ping nonce | pong nonce => exact iff_of_true (decodeFront_of_reads (reads_u64 nonce)) trivial
  | version message => exact iff_of_true (decodeFront_of_reads (VersionMessage.reads short)) trivial
  | unknown command bytes =>
    refine iff_of_false (fun done => ?_) id
    -- The length of the payload was written before it, and is taken as part of it.
    have same : (writeVecU8 bytes).bytes = bytes := (unknown.inj (Except.ok.inj done)).2
    have longer := congrArg List.length same
    have prefixed := writeVarInt_pos bytes.length
    simp only [writeVecU8, append_bytes, emit_bytes, List.length_append] at longer
    omega

end NetworkMessage

/-- The commands of `cmd`. -/
def commands : List String :=
  ["inv", "addr", "getdata", "lrc20tx", "sparktx", "sparksig", "ping", "pong", "verack", "version",
    "wtxidrelay", "ltxidrelay", "ltxidack", "getaddr", "unknown"]

/-- What is known of the `bitcoin` crate: no transaction is read from nothing, and a command of
at most twelve letters reads back. -/
structure WireFormats.Lawful (formats : WireFormats) : Prop where
  noTransaction : ∀ read, formats.decodeTransaction [] ≠ .ok read
  parseCommand : ∀ cmd ∈ commands, formats.parseCommand (commandBytes cmd) = some cmd

namespace RawNetworkMessage

variable {formats : WireFormats} {message : RawNetworkMessage}

theorem cmd_mem_commands (payload : NetworkMessage) : payload.cmd ∈ commands := by
  cases payload <;> simp [NetworkMessage.cmd, commands]

theorem commandBytes_length {cmd : String} (known : cmd ∈ commands) :
    (commandBytes cmd).length = 12 := by
  have short : ∀ cmd ∈ commands, (commandBytes cmd).length = 12 := by decide +kernel
  exact short cmd known

theorem tracks_body (lawful : formats.Lawful) :
    Tracks (decodeFinite formats) (message.consensusEncode formats).bytes message
      (decodeBody formats message.magic message.payload.cmd)
      (encodeCheckedData formats.toPrimitives (message.payload.encodePayload formats).bytes).bytes
      message := by
  have known := cmd_mem_commands message.payload
  have command : Reads (readExact 12) (commandBytes message.payload.cmd)
      (commandBytes message.payload.cmd) := commandBytes_length known ▸ reads_readExact _
  have parsed : Reads (orFail (.parseFailed "invalid command")
      (formats.parseCommand (commandBytes message.payload.cmd))) [] message.payload.cmd := by
    rw [lawful.parseCommand _ known]
    exact reads_pure _
  simp only [consensusEncode, append_bytes, emit_bytes, List.append_assoc]
  exact (tracks_bind (reads_array message.magic)).trans
    ((tracks_bind command).trans (tracks_bind parsed))

/-- What is decoded with nothing left is within the limit of the checked data, so that the
payload was read back in full. -/
theorem payload_of_body
    (done : decodeBody formats message.magic message.payload.cmd
      (encodeCheckedData formats.toPrimitives (message.payload.encodePayload formats).bytes).bytes =
        .ok (message, [])) :
    8 + (message.payload.encodePayload formats).bytes.length ≤ maxVecSize ∧
      NetworkMessage.decodePayload formats message.payload.cmd
        (message.payload.encodePayload formats).bytes = .ok message.payload := by
  obtain ⟨raw, middle, checked, more⟩ := bind_eq_ok.mp done
  obtain ⟨payload, last, decoded, built⟩ := bind_eq_ok.mp more
  obtain ⟨same, rfl⟩ := pure_eq_ok.mp built
  obtain ⟨accepted, rfl⟩ := ofExcept_eq_ok.mp decoded
  have short : 8 + (message.payload.encodePayload formats).bytes.length ≤ maxVecSize := by
    obtain ⟨inner, _, taken⟩ := limited_eq_ok.mp checked
    have beyond := List.drop_eq_nil_iff.mp (List.append_eq_nil_iff.mp taken).2
    rwa [encodeCheckedData_length] at beyond
  have read := @reads_decodeCheckedData formats.toPrimitives _ short []
  rw [List.append_nil, checked] at read
  cases read
  rw [accepted]
  exact ⟨short, congrArg (fun message : RawNetworkMessage => Except.ok message.payload) same⟩

/-- The messages that come through: the payload can be carried, and stays within the limit that
the decoder of the checked data sets, which is below that of a message. -/
structure Transmissible (formats : WireFormats) (message : RawNetworkMessage) : Prop where
  short : 8 + (message.payload.encodePayload formats).bytes.length ≤ maxVecSize
  payload : message.payload.Canonical formats.toFormats

theorem exact_consensusEncode (message : RawNetworkMessage) :
    (message.consensusEncode formats).Exact := by
  refine ((exact_emit _).append (exact_emit _)).append ?_
  rw [Exact, encodeCheckedData_length]
  rfl

/-- A message that fits comes back with exactly what follows it, and is reported at its length,
exactly when it is transmissible. -/
theorem consensusDecode_consensusEncode_iff_transmissible (formats : WireFormats)
    (lawful : formats.Lawful) (message : RawNetworkMessage)
    (wellFormed : message.payload.WellFormed formats)
    (fits : (message.consensusEncode formats).bytes.length ≤ maxMsgSize) :
    (Reads (consensusDecode formats) (message.consensusEncode formats).bytes message ∧
        (message.consensusEncode formats).reported =
          (message.consensusEncode formats).bytes.length) ↔
      message.Transmissible formats := by
  constructor
  · rintro ⟨reads, _⟩
    obtain ⟨inner, finite, taken⟩ := limited_eq_ok.mp (reads [])
    obtain ⟨rfl, _⟩ := List.append_eq_nil_iff.mp taken
    rw [List.append_nil, List.take_of_length_le fits] at finite
    have body := (tracks_body lawful [] []).mp (by rwa [List.append_nil])
    rw [List.append_nil] at body
    obtain ⟨short, decoded⟩ := payload_of_body body
    refine ⟨short, ?_⟩
    exact (NetworkMessage.decodePayload_iff lawful.noTransaction wellFormed (by omega)).mp decoded
  · rintro ⟨short, canonical⟩
    refine ⟨((tracks_body lawful).reads_iff.mpr ?_).limited fits, exact_consensusEncode message⟩
    have payload := (NetworkMessage.decodePayload_iff lawful.noTransaction wellFormed
      (by omega)).mpr canonical
    intro rest
    unfold decodeBody
    rw [bind_of_ok (reads_decodeCheckedData short rest), payload]
    rfl

/-- A transfer and a freeze announcement, without a proof. -/
def plainTransfer : Lrc20Transaction := ⟨⟨1, [], []⟩, .transfer .empty .empty⟩

def plainFreeze : Lrc20Transaction :=
  ⟨⟨2, [], []⟩, .announcement (.pubkeyFreeze ⟨.repeating 7, .repeating 1⟩)⟩

theorem plain_lawful : WireFormats.plain.Lawful := by
  refine ⟨?_, by decide +kernel⟩
  intro read done
  cases done

theorem plain_wellFormed (known : ∀ tx ∈ txs, tx = plainTransfer ∨ tx = plainFreeze) :
    (NetworkMessage.lrc20Tx txs).WellFormed WireFormats.plain := by
  intro tx mem
  rcases known tx mem with rfl | rfl
  · refine ⟨(reads_number (by decide)).map, ?_, ?_⟩ <;> exact nofun
  · exact ⟨(reads_number (by decide)).map, rfl, rfl⟩

/-- A transfer followed by an announcement comes through. -/
theorem transfer_then_announcement_comes_through : let message : RawNetworkMessage :=
      ⟨List.Vector.replicate 4 1, .lrc20Tx [plainTransfer, plainFreeze]⟩
    Reads (consensusDecode .plain) (message.consensusEncode .plain).bytes message ∧
      (message.consensusEncode .plain).reported =
        (message.consensusEncode .plain).bytes.length := by
  intro message
  apply (consensusDecode_consensusEncode_iff_transmissible .plain plain_lawful message
    (plain_wellFormed (by simp)) (by decide +kernel)).mpr
  refine ⟨by decide +kernel, by decide, ?_⟩
  intro tx mem
  rcases List.mem_pair.mp mem with rfl | rfl
  · constructor <;> exact nofun
  · trivial

/-- The announcement followed by the transfer does not, and neither does a message of an
unknown command. -/
theorem announcement_then_transfer_is_lost : let announced : RawNetworkMessage :=
      ⟨List.Vector.replicate 4 1, .lrc20Tx [plainFreeze, plainTransfer]⟩
    let unknown : RawNetworkMessage := ⟨List.Vector.replicate 4 1, .unknown "feefilter" [1, 2]⟩
    announced.payload.WellFormed .plain ∧
      (announced.consensusEncode .plain).bytes.length ≤ maxMsgSize ∧
      ¬ Reads (consensusDecode .plain) (announced.consensusEncode .plain).bytes announced ∧
      (unknown.consensusEncode .plain).bytes.length ≤ maxMsgSize ∧
      ¬ Reads (consensusDecode .plain) (unknown.consensusEncode .plain).bytes unknown := by
  intro announced unknown
  refine ⟨plain_wellFormed (by simp), by decide +kernel, ?_, by decide +kernel, ?_⟩
  · intro reads
    have lost : consensusDecode .plain ((announced.consensusEncode .plain).bytes ++ []) ≠
        .ok (announced, []) := by decide +kernel
    exact lost (reads [])
  · intro reads
    have lost : consensusDecode .plain ((unknown.consensusEncode .plain).bytes ++ []) ≠
        .ok (unknown, []) := by decide +kernel
    exact lost (reads [])

end RawNetworkMessage

end Lrc20
