import Lrc20.Lib.SortedMap
import Lrc20.Types.AnnouncementParsing
import Lrc20.Types.SparkConsensus
import Lrc20.Types.Transaction

open ByteOrder Codec Codec.Decoder Codec.Written SortedMap

namespace Lrc20

open ProofMap

variable {rest after : Bytes}

/-- What the messages take from the `bitcoin` crate besides the primitives. -/
structure WireFormats extends Formats where
  encodeTransaction : Transaction → Bytes
  decodeTransaction : Decoder Transaction
  /-- `CommandString::consensus_decode` on its twelve bytes. -/
  parseCommand : Bytes → Option String

/-- Stand-ins that write a transaction as its id, and read a command without its zeros. -/
def WireFormats.plain : WireFormats where
  toFormats := Formats.plain
  encodeTransaction tx := leBytes 32 tx.txid
  decodeTransaction := do
    let txid ← number 32
    pure ⟨txid, [], []⟩
  parseCommand bytes := ofUtf8 (bytes.filter (· ≠ 0))

/-- A reader's `read_to_end`. -/
def readAll : Decoder Bytes := fun bytes => .ok (bytes, [])

namespace ProofMap

/-- The pairs inserted in order into an empty `BTreeMap`. -/
def ofPairs (pairs : List (Nat × ReceiptProof)) : ProofMap :=
  ⟨insertAll [] pairs, sorted_insertAll pairs List.Pairwise.nil⟩

def encodeEntry (entry : Nat × ReceiptProof) : Written :=
  emit (leBytes 4 entry.1) ++ entry.2.consensusEncode

def decodeEntry (formats : Formats) : Decoder (Nat × ReceiptProof) := do
  let index ← number 4
  let proof ← ReceiptProof.consensusDecode formats
  pure (index, proof)

def consensusEncode (proofs : ProofMap) : Written := writeCounted 4 encodeEntry proofs.entries

def consensusDecode (formats : Formats) : Decoder ProofMap := do
  let pairs ← counted 4 (decodeEntry formats)
  pure (ofPairs pairs)

end ProofMap

/-! Maps and options over any codec. -/

/-- What is written of a valid value is read back, whatever follows it. -/
def Inverse {α : Type} (valid : α → Prop) (encode : α → Written) (decoder : Decoder α) : Prop :=
  ∀ value, valid value → Reads decoder (encode value).bytes value

namespace BTreeMapWrapper

variable {K V : Type}

def consensusEncode (encodeKey : K → Written) (encodeValue : V → Written)
    (entries : List (K × V)) : Written :=
  writeCounted 4 (fun entry => encodeKey entry.1 ++ encodeValue entry.2) entries

def decodeEntry (decodeKey : Decoder K) (decodeValue : Decoder V) : Decoder (K × V) := do
  let key ← decodeKey
  let value ← decodeValue
  pure (key, value)

def consensusDecode [LinearOrder K] (decodeKey : Decoder K) (decodeValue : Decoder V) :
    Decoder (List (K × V)) := do
  let pairs ← counted 4 (decodeEntry decodeKey decodeValue)
  pure (insertAll [] pairs)

theorem exact_writeCounted {α : Type} {width : Nat} {write : α → Written} {values : List α}
    (each : ∀ value ∈ values, (write value).Exact) : (writeCounted width write values).Exact := by
  refine (exact_emit _).append ?_
  induction values with
  | nil => rfl
  | cons value values ih =>
    obtain ⟨first, others⟩ := List.forall_mem_cons.mp each
    exact first.append (ih others)

/-- Maps and options over codecs that are inverse and self-delimiting are so too and report what
they write, and the codec of a receipt is one of them. -/
theorem containers_inverse [LinearOrder K] (formats : Formats) {validKey : K → Prop}
    {validValue : V → Prop} {encodeKey : K → Written} {encodeValue : V → Written}
    {decodeKey : Decoder K} {decodeValue : Decoder V} (keys : Inverse validKey encodeKey decodeKey)
    (values : Inverse validValue encodeValue decodeValue) :
    Inverse (fun entries => Sorted entries ∧ entries.length < 2 ^ 32 ∧
        ∀ entry ∈ entries, validKey entry.1 ∧ validValue entry.2)
      (consensusEncode encodeKey encodeValue) (consensusDecode decodeKey decodeValue) ∧
    Inverse (fun value => ∀ present, value = some present → validValue present)
      (writeOption encodeValue) (option decodeValue) ∧
    (∀ entries, (∀ entry ∈ entries, (encodeKey entry.1).Exact ∧ (encodeValue entry.2).Exact) →
      (consensusEncode encodeKey encodeValue entries).Exact) ∧
    (∀ value, (∀ present, value = some present → (encodeValue present).Exact) →
      (writeOption encodeValue value).Exact) ∧
    Inverse (fun receipt => formats.isPoint receipt.tokenPubkey) Receipt.consensusEncode
      (Receipt.consensusDecode formats) ∧
    ∀ receipt : Receipt, receipt.consensusEncode.Exact := by
  refine ⟨?_, ?_, ?_, ?_, fun _ point => reads_receipt point, ?_⟩
  · rintro entries ⟨sorted, short, valid⟩
    have each : ∀ entry ∈ entries, Reads (decodeEntry decodeKey decodeValue)
        (encodeKey entry.1 ++ encodeValue entry.2).bytes entry := by
      intro entry mem
      exact (keys _ (valid entry mem).1).bind (values _ (valid entry mem).2).map
    have built : Reads (consensusDecode decodeKey decodeValue)
        (consensusEncode encodeKey encodeValue entries).bytes (insertAll [] entries) :=
      (reads_counted (by omega) each).map
    have inOrder : insertAll [] entries = entries := insertAll_of_sorted sorted
    rwa [inOrder] at built
  · exact fun value valid => reads_option fun present some => values present (valid present some)
  · exact fun entries exact => exact_writeCounted fun entry mem =>
      (exact entry mem).1.append (exact entry mem).2
  · intro value exact
    cases value with
    | none => rfl
    | some present => exact (exact_emit [1]).append (exact present rfl)
  · intro receipt
    simp [Exact, Receipt.consensusEncode, Receipt.toBytes, receiptSize]

theorem receipts_by_index_inverse :
    Inverse (fun entries => Sorted entries ∧ entries.length < 2 ^ 32 ∧ ∀ entry ∈ entries,
        entry.1 < 256 ^ 4 ∧ Formats.plain.isPoint entry.2.tokenPubkey)
      (consensusEncode (fun index : Nat => emit (leBytes 4 index)) Receipt.consensusEncode)
      (consensusDecode (number 4) (Receipt.consensusDecode .plain)) := by
  have index : Inverse (· < 256 ^ 4) (fun index => emit (leBytes 4 index)) (number 4) :=
    fun _ fits => reads_number fits
  have receipt : Inverse (fun receipt => Formats.plain.isPoint receipt.tokenPubkey)
      Receipt.consensusEncode (Receipt.consensusDecode .plain) := fun _ point => reads_receipt point
  exact (containers_inverse .plain index receipt).1

end BTreeMapWrapper

namespace IssueAnnouncement

def consensusEncode (announcement : IssueAnnouncement) : Written :=
  emit (Announcement.issue announcement).toBytes

/-- The longest form of an issue announcement is read; its kind is not looked at. -/
def consensusDecode (formats : Formats) : Decoder IssueAnnouncement := do
  let bytes ← readExact 56
  orFail .invalidData (anyFromBytes (fromAnnouncementDataBytes formats.toPrimitives) bytes)

end IssueAnnouncement

namespace Announcement

def consensusEncode (announcement : Announcement) : Written := emit announcement.toBytes

/-- Takes all the bytes there are. -/
def consensusDecode (formats : Formats) : Decoder Announcement := do
  let bytes ← readAll
  orFail .invalidData (announcementFromBytes formats.toPrimitives bytes)

end Announcement

namespace Lrc20TxType

def consensusEncode : Lrc20TxType → Written
  | issue outputProofs issued =>
    emit [0] ++ issued.consensusEncode ++ writeOption ProofMap.consensusEncode outputProofs
  | transfer inputProofs outputProofs =>
    emit [1] ++ inputProofs.consensusEncode ++ outputProofs.consensusEncode
  | announcement declared => emit [2] ++ declared.consensusEncode
  | sparkExit outputProofs => emit [4] ++ outputProofs.consensusEncode

def decodeFlagged (formats : Formats) (kind : UInt8) : Decoder Lrc20TxType :=
  if kind = 0 then do
    let issued ← IssueAnnouncement.consensusDecode formats
    let outputProofs ← option (consensusDecode formats)
    pure (issue outputProofs issued)
  else if kind = 1 then do
    let inputProofs ← consensusDecode formats
    let outputProofs ← consensusDecode formats
    pure (transfer inputProofs outputProofs)
  else if kind = 2 then do
    let declared ← Announcement.consensusDecode formats
    pure (announcement declared)
  else if kind = 4 then do
    let outputProofs ← consensusDecode formats
    pure (sparkExit outputProofs)
  else fail (.parseFailed "Unknown LRC20 tx type")

def consensusDecode (formats : Formats) : Decoder Lrc20TxType := do
  let kind ← u8
  decodeFlagged formats kind

end Lrc20TxType

namespace Lrc20Transaction

def consensusEncode (formats : WireFormats) (tx : Lrc20Transaction) : Written :=
  emit (formats.encodeTransaction tx.bitcoinTx) ++ tx.txType.consensusEncode

def consensusDecode (formats : WireFormats) : Decoder Lrc20Transaction := do
  let bitcoinTx ← formats.decodeTransaction
  let txType ← Lrc20TxType.consensusDecode formats.toFormats
  pure ⟨bitcoinTx, txType⟩

end Lrc20Transaction

/-! A map of proofs reads back exactly when its proofs do. -/

namespace ProofMap

variable {formats : Formats} {proofs : ProofMap} {entries : List (Nat × ReceiptProof)}

/-- Indices are of the type `u32` and keys are points. -/
def WellFormed (formats : Formats) (proofs : ProofMap) : Prop :=
  ∀ entry ∈ proofs.entries, entry.1 < 256 ^ 4 ∧ ∀ key ∈ entry.2.publicKeys, formats.isPoint key

def Canonical (formats : Formats) (proofs : ProofMap) : Prop :=
  ∀ entry ∈ proofs.entries, entry.2.Canonical formats

theorem ofPairs_entries (proofs : ProofMap) : ofPairs proofs.entries = proofs := by
  have inOrder : insertAll [] proofs.entries = proofs.entries := insertAll_of_sorted proofs.sorted
  cases proofs
  simp only [ofPairs, inOrder]

theorem reads_entry {entry : Nat × ReceiptProof} (index : entry.1 < 256 ^ 4)
    (proof : Reads (ReceiptProof.consensusDecode formats) entry.2.consensusEncode.bytes entry.2) :
    Reads (decodeEntry formats) (encodeEntry entry).bytes entry :=
  (reads_number index).bind proof.map

/-- Before the first proof that is misread every entry is read back, so another proof is found
under its index. -/
theorem exists_other_of_misread (indices : ∀ entry ∈ entries, entry.1 < 256 ^ 4)
    (each : ∀ entry ∈ entries, ReadsWhen (ReceiptProof.consensusDecode formats)
      entry.2.consensusEncode.bytes entry.2 (entry.2.Canonical formats))
    (lacks : ¬ ∀ entry ∈ entries, entry.2.Canonical formats)
    {pairs : List (Nat × ReceiptProof)}
    (read : times (decodeEntry formats) entries.length
      ((concat (entries.map encodeEntry)).bytes ++ rest) = .ok (pairs, after)) :
    ∃ index proof other, (index, proof) ∈ entries ∧ (index, other) ∈ pairs ∧ other ≠ proof := by
  induction entries generalizing pairs with
  | nil => simp at lacks
  | cons entry entries ih =>
    obtain ⟨first, middle, readFirst, more⟩ := bind_eq_ok.mp read
    obtain ⟨others, last, readOthers, built⟩ := bind_eq_ok.mp more
    obtain ⟨rfl, rfl⟩ := pure_eq_ok.mp built
    have bytes : (concat ((entry :: entries).map encodeEntry)).bytes ++ rest =
        leBytes 4 entry.1 ++ (entry.2.consensusEncode.bytes ++
          ((concat (entries.map encodeEntry)).bytes ++ rest)) := by
      simp [encodeEntry]
    rw [bytes] at readFirst
    have index := indices entry (by simp)
    by_cases canonical : entry.2.Canonical formats
    · have front := reads_entry index ((each entry (by simp)).reads canonical)
        ((concat (entries.map encodeEntry)).bytes ++ rest)
      rw [encodeEntry, append_bytes, emit_bytes, List.append_assoc, readFirst] at front
      cases front
      have later : ¬ ∀ entry ∈ entries, entry.2.Canonical formats := fun all =>
        lacks (List.forall_mem_cons.mpr ⟨canonical, all⟩)
      obtain ⟨index, proof, other, mem, found, differ⟩ := ih
        (fun entry mem => indices entry (by simp [mem]))
        (fun entry mem => each entry (by simp [mem])) later readOthers
      exact ⟨index, proof, other, by simp [mem], by simp [found], differ⟩
    · unfold decodeEntry at readFirst
      rw [bind_of_ok (reads_number index _)] at readFirst
      obtain ⟨other, afterProof, readProof, built⟩ := bind_eq_ok.mp readFirst
      obtain ⟨rfl, _⟩ := pure_eq_ok.mp built
      refine ⟨entry.1, entry.2, other, by simp, by simp, ?_⟩
      rintro rfl
      exact (each entry (by simp)).misreads canonical _ _ readProof

/-- As many pairs were decoded as the map has entries, so none replaced another. -/
theorem readsWhen (wellFormed : proofs.WellFormed formats)
    (fits : proofs.consensusEncode.bytes.length < 2 ^ 32) :
    ReadsWhen (consensusDecode formats) proofs.consensusEncode.bytes proofs
      (proofs.Canonical formats) := by
  rw [consensusEncode, length_writeCounted] at fits
  have short : (concat (proofs.entries.map encodeEntry)).bytes.length < 2 ^ 32 := by omega
  have count : proofs.entries.length < 256 ^ 4 := by
    have longer : proofs.entries.length ≤ (concat (proofs.entries.map encodeEntry)).bytes.length :=
      count_le_concat fun entry _ => by simp [encodeEntry]
    exact lt_of_le_of_lt longer (lt_of_lt_of_eq short (by norm_num))
  have each : ∀ entry ∈ proofs.entries, ReadsWhen (ReceiptProof.consensusDecode formats)
      entry.2.consensusEncode.bytes entry.2 (entry.2.Canonical formats) := by
    intro entry mem
    have whole : (encodeEntry entry).bytes.length ≤ _ := length_le_concat mem
    refine (ReceiptProof.carried (wellFormed entry mem).2).readsWhen ?_
    simp only [encodeEntry, append_bytes, emit_bytes, List.length_append] at whole
    omega
  refine ⟨fun canonical => ?_, fun lacks => ?_⟩
  · have pairs : Reads (counted 4 (decodeEntry formats)) proofs.consensusEncode.bytes
        proofs.entries :=
      reads_counted count fun entry mem =>
        reads_entry (wellFormed entry mem).1 ((each entry mem).reads (canonical entry mem))
    have built : Reads (consensusDecode formats) proofs.consensusEncode.bytes
        (ofPairs proofs.entries) := pairs.map
    rwa [ofPairs_entries] at built
  · intro rest after given
    obtain ⟨pairs, _, read, built⟩ := bind_eq_ok.mp given
    obtain ⟨same, rfl⟩ := pure_eq_ok.mp built
    replace read := (tracks_bind (reads_number count) rest _).mp read
    have length : pairs.length = proofs.entries.length :=
      (yields_times (fun _ _ _ _ => trivial) _ _ _ _ read : _ ∧ ∀ _ ∈ pairs, True).1
    obtain ⟨index, proof, other, mem, found, differ⟩ :=
      exists_other_of_misread (fun entry mem => (wellFormed entry mem).1) each lacks read
    have entries : insertAll [] pairs = proofs.entries := congrArg entries same
    have grown : (insertAll [] pairs).length = 0 + pairs.length := by
      rw [entries, length, Nat.zero_add]
    have kept : (index, other) ∈ proofs.entries :=
      entries ▸ mem_insertAll_of_length grown (index, other) (.inr found)
    exact differ (SortedMap.Sorted.value_unique proofs.sorted kept mem)

end ProofMap

/-! So does every type of transaction but an announcement, which takes what follows it. -/

theorem IssueAnnouncement.reads {formats : Formats} {announcement : IssueAnnouncement}
    (point : formats.isPoint announcement.tokenPubkey) :
    Reads (consensusDecode formats) announcement.consensusEncode.bytes announcement := by
  have length : (Announcement.issue announcement).toBytes.length = 56 := by
    simp [Announcement.toBytes, announcementPrefix, Announcement.type, AnnouncementType.kind,
      Announcement.toAnnouncementDataBytes, toAnnouncementDataBytes]
  have front : Reads (readExact 56) (Announcement.issue announcement).toBytes
      (Announcement.issue announcement).toBytes := length ▸ reads_readExact _
  have data : (Announcement.issue announcement).toBytes.drop 7 =
      announcement.toAnnouncementDataBytes := List.drop_left' rfl
  refine front.bind_pure ?_
  rw [anyFromBytes, if_pos (Announcement.isAnnouncement_toBytes _), data,
    fromAnnouncementDataBytes_toAnnouncementDataBytes point, orFail_some]

namespace Lrc20TxType

variable {formats : Formats}

def WellFormed (formats : Formats) : Lrc20TxType → Prop
  | issue outputProofs issued => formats.isPoint issued.tokenPubkey ∧
      ∀ proofs, outputProofs = some proofs → proofs.WellFormed formats
  | transfer inputProofs outputProofs =>
    inputProofs.WellFormed formats ∧ outputProofs.WellFormed formats
  | announcement declared => declared.Representable formats.toPrimitives
  | sparkExit outputProofs => outputProofs.WellFormed formats

/-- Every proof is canonical, and an announcement is legible. -/
def Canonical (formats : Formats) : Lrc20TxType → Prop
  | issue outputProofs _ => ∀ proofs, outputProofs = some proofs → proofs.Canonical formats
  | transfer inputProofs outputProofs =>
    inputProofs.Canonical formats ∧ outputProofs.Canonical formats
  | announcement declared => declared.Legible
  | sparkExit outputProofs => outputProofs.Canonical formats

theorem readsWhen {txType : Lrc20TxType} (wellFormed : txType.WellFormed formats)
    (fits : txType.consensusEncode.bytes.length < 2 ^ 32) (proofs : txType.isAnnouncement = false) :
    ReadsWhen (consensusDecode formats) txType.consensusEncode.bytes txType
      (txType.Canonical formats) := by
  cases txType with
  | issue outputProofs issued =>
    simp only [consensusEncode, append_bytes, emit_bytes, List.append_assoc,
      List.length_append] at fits ⊢
    have map : ReadsWhen (option (ProofMap.consensusDecode formats))
        (writeOption ProofMap.consensusEncode outputProofs).bytes outputProofs
        (∀ proofs, outputProofs = some proofs → proofs.Canonical formats) := by
      refine readsWhen_option fun present some => ProofMap.readsWhen (wellFormed.2 _ some) ?_
      subst some
      simp only [writeOption, append_bytes, List.length_append] at fits
      omega
    refine ((tracks_bind (reads_u8 0)).trans ?_).readsWhen map
    exact (tracks_bind (IssueAnnouncement.reads wellFormed.1)).trans
      (tracks_map fun _ _ same => (issue.inj same).1)
  | transfer inputProofs outputProofs =>
    simp only [consensusEncode, append_bytes, emit_bytes, List.append_assoc,
      List.length_append] at fits ⊢
    have inputs := ProofMap.readsWhen wellFormed.1 (by omega)
    have outputs := ProofMap.readsWhen wellFormed.2 (by omega)
    refine (tracks_bind (reads_u8 1)).readsWhen ?_
    refine inputs.bind ((tracks_map fun _ _ same => (transfer.inj same).2).readsWhen outputs) ?_
    intro read middle after done
    obtain ⟨_, _, _, built⟩ := bind_eq_ok.mp done
    exact (transfer.inj (pure_eq_ok.mp built).1).1
  | announcement declared => cases proofs
  | sparkExit outputProofs =>
    simp only [consensusEncode, append_bytes, emit_bytes, List.length_append] at fits ⊢
    have outputs := ProofMap.readsWhen wellFormed (by omega)
    refine ((tracks_bind (reads_u8 4)).trans ?_).readsWhen outputs
    exact tracks_map fun _ _ same => sparkExit.inj same

/-- The announcement is parsed from everything that is left, and leaves nothing. -/
theorem consensusDecode_announcement {declared : Announcement} {result : Lrc20TxType} :
    consensusDecode formats ((announcement declared).consensusEncode.bytes ++ rest) =
        .ok (result, after) ↔
      ∃ read, announcementFromBytes formats.toPrimitives (declared.toBytes ++ rest) = some read ∧
        announcement read = result ∧ [] = after := by
  have front : u8 ((announcement declared).consensusEncode.bytes ++ rest) =
      .ok (2, declared.toBytes ++ rest) := u8_cons 2 _
  unfold consensusDecode
  rw [bind_of_ok front]
  show (Announcement.consensusDecode formats >>= fun declared => pure (announcement declared))
    (declared.toBytes ++ rest) = _ ↔ _
  rw [bind_eq_ok]
  constructor
  · rintro ⟨read, left, parse, built⟩
    obtain ⟨bytes, none, all, parsed⟩ := bind_eq_ok.mp parse
    cases all
    obtain ⟨accepted, rfl⟩ := orFail_eq_ok.mp parsed
    exact ⟨read, accepted, pure_eq_ok.mp built⟩
  · rintro ⟨read, accepted, rfl, rfl⟩
    refine ⟨read, [], ?_, rfl⟩
    exact (bind_of_ok rfl).trans (orFail_eq_ok.mpr ⟨accepted, rfl⟩)

end Lrc20TxType

namespace Lrc20Transaction

variable {formats : WireFormats} {tx : Lrc20Transaction} {txs : List Lrc20Transaction}
  {declared : Announcement}

/-- The Bitcoin transaction is one that the `bitcoin` crate reads back. -/
structure WellFormed (formats : WireFormats) (tx : Lrc20Transaction) : Prop where
  bitcoinTx : Reads formats.decodeTransaction (formats.encodeTransaction tx.bitcoinTx) tx.bitcoinTx
  txType : tx.txType.WellFormed formats.toFormats

theorem consensusEncode_pos (tx : Lrc20Transaction) :
    0 < (tx.consensusEncode formats).bytes.length := by
  cases type : tx.txType <;> simp [consensusEncode, type, Lrc20TxType.consensusEncode]

theorem readsWhen (wellFormed : tx.WellFormed formats)
    (fits : (tx.consensusEncode formats).bytes.length < 2 ^ 32)
    (proofs : tx.txType.isAnnouncement = false) :
    ReadsWhen (consensusDecode formats) (tx.consensusEncode formats).bytes tx
      (tx.txType.Canonical formats.toFormats) := by
  have body := Lrc20TxType.readsWhen wellFormed.txType
    (lt_of_le_of_lt (by simp [consensusEncode]) fits) proofs
  refine ((tracks_bind wellFormed.bitcoinTx).trans ?_).readsWhen body
  exact tracks_map fun _ _ same => (Lrc20Transaction.mk.inj same).2

theorem consensusDecode_announcement (wellFormed : tx.WellFormed formats)
    (declares : tx.txType = .announcement declared) :
    consensusDecode formats ((tx.consensusEncode formats).bytes ++ rest) = .ok (tx, after) ↔
      announcementFromBytes formats.toPrimitives (declared.toBytes ++ rest) = some declared ∧
        [] = after := by
  have body : Tracks (consensusDecode formats) (tx.consensusEncode formats).bytes tx
      (Lrc20TxType.consensusDecode formats.toFormats) tx.txType.consensusEncode.bytes tx.txType :=
    (tracks_bind wellFormed.bitcoinTx).trans
      (tracks_map fun _ _ same => (Lrc20Transaction.mk.inj same).2)
  rw [body, declares, Lrc20TxType.consensusDecode_announcement]
  constructor
  · rintro ⟨read, parsed, same, left⟩
    cases same
    exact ⟨parsed, left⟩
  · rintro ⟨parsed, left⟩
    exact ⟨declared, parsed, rfl, left⟩

/-- No transaction follows an announcement, and all of them are canonical. -/
def CanonicalList (formats : Formats) (txs : List Lrc20Transaction) : Prop :=
  (∀ tx ∈ txs.dropLast, tx.txType.isAnnouncement = false) ∧ ∀ tx ∈ txs, tx.txType.Canonical formats

theorem canonicalList_cons {formats : Formats} (proofs : tx.txType.isAnnouncement = false) :
    CanonicalList formats (tx :: txs) ↔
      tx.txType.Canonical formats ∧ CanonicalList formats txs := by
  unfold CanonicalList
  cases txs with
  | nil => simp
  | cons next txs =>
    rw [List.dropLast_cons_cons, List.forall_mem_cons, List.forall_mem_cons]
    simp only [proofs, true_and]
    tauto

/-- The transactions are decoded from their bytes, with nothing after them. -/
def Decodes (formats : WireFormats) (txs : List Lrc20Transaction) : Prop :=
  ∃ after, times (consensusDecode formats) txs.length
    (concat (txs.map (consensusEncode formats))).bytes = .ok (txs, after)

theorem decodes_cons_iff :
    Decodes formats (tx :: txs) ↔ ∃ middle after,
      consensusDecode formats ((tx.consensusEncode formats).bytes ++
        (concat (txs.map (consensusEncode formats))).bytes) = .ok (tx, middle) ∧
      times (consensusDecode formats) txs.length middle = .ok (txs, after) := by
  constructor
  · rintro ⟨after, given⟩
    obtain ⟨read, middle, readFirst, more⟩ := bind_eq_ok.mp given
    obtain ⟨others, last, readOthers, built⟩ := bind_eq_ok.mp more
    obtain ⟨same, rfl⟩ := pure_eq_ok.mp built
    cases same
    exact ⟨middle, last, readFirst, readOthers⟩
  · rintro ⟨middle, after, readFirst, readOthers⟩
    refine ⟨after, bind_eq_ok.mpr ⟨tx, middle, readFirst, ?_⟩⟩
    exact bind_eq_ok.mpr ⟨txs, after, readOthers, rfl⟩

theorem decodes_cons_of_proofs (wellFormed : tx.WellFormed formats)
    (proofs : tx.txType.isAnnouncement = false)
    (fits : (tx.consensusEncode formats).bytes.length < 2 ^ 32) :
    Decodes formats (tx :: txs) ↔ tx.txType.Canonical formats.toFormats ∧ Decodes formats txs := by
  have head := readsWhen wellFormed fits proofs
  rw [decodes_cons_iff]
  constructor
  · rintro ⟨middle, after, readFirst, readOthers⟩
    by_cases canonical : tx.txType.Canonical formats.toFormats
    · rw [head.reads canonical] at readFirst
      cases readFirst
      exact ⟨canonical, after, readOthers⟩
    · exact absurd readFirst (head.misreads canonical _ _)
  · rintro ⟨canonical, after, readOthers⟩
    exact ⟨_, after, head.reads canonical _, readOthers⟩

theorem decodes_announcement (wellFormed : tx.WellFormed formats)
    (declares : tx.txType = .announcement declared) : Decodes formats [tx] ↔ declared.Legible := by
  have legible := Announcement.readBack_iff_legible
    (declares ▸ wellFormed.txType : Lrc20TxType.WellFormed _ (.announcement declared))
  rw [← legible, decodes_cons_iff]
  constructor
  · rintro ⟨_, _, readFirst, _⟩
    have parsed := ((consensusDecode_announcement wellFormed declares).mp readFirst).1
    rwa [List.map_nil, concat_nil, List.append_nil] at parsed
  · intro parsed
    refine ⟨[], [], (consensusDecode_announcement wellFormed declares).mpr ⟨?_, rfl⟩, rfl⟩
    rwa [List.map_nil, concat_nil, List.append_nil]

/-- An announcement leaves no byte for a transaction after it. -/
theorem not_decodes_after_announcement {next : Lrc20Transaction}
    (noTransaction : ∀ read, formats.decodeTransaction [] ≠ .ok read)
    (wellFormed : tx.WellFormed formats) (declares : tx.txType = .announcement declared) :
    ¬ Decodes formats (tx :: next :: txs) := by
  rw [decodes_cons_iff]
  rintro ⟨middle, after, readFirst, readOthers⟩
  rw [← ((consensusDecode_announcement wellFormed declares).mp readFirst).2] at readOthers
  obtain ⟨_, _, readNext, _⟩ := bind_eq_ok.mp readOthers
  obtain ⟨_, _, readTransaction, _⟩ := bind_eq_ok.mp readNext
  exact noTransaction _ readTransaction

theorem exists_declared (announces : tx.txType.isAnnouncement = true) :
    ∃ declared, tx.txType = .announcement declared := by
  cases type : tx.txType with
  | announcement declared => exact ⟨declared, rfl⟩
  | _ => simp [type, Lrc20TxType.isAnnouncement] at announces

theorem decodes_iff (noTransaction : ∀ read, formats.decodeTransaction [] ≠ .ok read)
    (wellFormed : ∀ tx ∈ txs, tx.WellFormed formats)
    (fits : (concat (txs.map (consensusEncode formats))).bytes.length < 2 ^ 32) :
    Decodes formats txs ↔ CanonicalList formats.toFormats txs := by
  induction txs with
  | nil => exact iff_of_true ⟨[], rfl⟩ ⟨by simp, by simp⟩
  | cons tx txs ih =>
    have first := wellFormed tx (by simp)
    simp only [List.map_cons, concat_cons, append_bytes, List.length_append] at fits
    cases announces : tx.txType.isAnnouncement with
    | false =>
      rw [decodes_cons_of_proofs first announces (by omega), canonicalList_cons announces,
        ih (fun tx mem => wellFormed tx (by simp [mem])) (by omega)]
    | true =>
      obtain ⟨declared, declares⟩ := exists_declared announces
      cases txs with
      | nil =>
        rw [decodes_announcement first declares]
        simp [CanonicalList, declares, Lrc20TxType.Canonical]
      | cons next txs =>
        refine iff_of_false (not_decodes_after_announcement noTransaction first declares) ?_
        intro canonical
        have proofs := canonical.1 tx (by simp)
        rw [announces] at proofs
        cases proofs

end Lrc20Transaction

end Lrc20
