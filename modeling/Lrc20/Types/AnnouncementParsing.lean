import Mathlib.Data.Nat.Digits.Lemmas
import Lrc20.Types.Announcement

open ByteOrder Script Codec Codec.Decoder

/-! What the parsers of announcements make of written ones, and of each other's input. -/

namespace Lrc20

open AnnouncementType TokenPubkeyAnnouncement TokenLogoAnnouncement PubkeyFreezeAnnouncement
  TransferOwnershipAnnouncement Primitives TxFreezeAnnouncement PublicKey ScriptBuf

variable {prims : Primitives} {bytes : Bytes} {α : Type} {least most : Nat} {script : ScriptBuf}
  {announcement : TransferOwnershipAnnouncement} {data : Bytes} {decoder : Decoder α}

theorem parseFront_of_reads {value : α} (reads : Reads decoder bytes value) :
    parseFront decoder bytes = some value := by
  have read := reads []
  rw [List.append_nil] at read
  rw [parseFront, read]

theorem parseFront_eq_some {value : α} :
    parseFront decoder data = some value ↔ ∃ rest, decoder data = .ok (value, rest) := by
  unfold parseFront
  cases decoded : decoder data with
  | error failure => simp
  | ok read => simp [Prod.ext_iff]

theorem yields_shortText :
    Yields (shortText least most) (fun text => textFits least most text = true) := by
  intro bytes text rest done
  obtain ⟨length, _, _, done⟩ := bind_eq_ok.mp done
  split at done
  · rename_i inRange
    obtain ⟨read, _, exactly, done⟩ := bind_eq_ok.mp done
    have decoded := ofUtf8_eq_some.mp (orFail_eq_ok.mp done).1
    have size := (readExact_eq_ok.mp exactly).2
    rw [decoded] at size
    simp only [textFits, Bool.and_eq_true, decide_eq_true_eq]
    omega
  · cases done

theorem reads_frontKey {key : PublicKey} (point : prims.isPoint key) :
    Reads (frontKey prims) key.serialize key := by
  have front : Reads (readExact 33) key.serialize key.serialize := by
    simpa using reads_readExact key.serialize
  refine front.bind_pure ?_
  rw [publicKeyFromSlice_serialize point, orFail_some]

theorem reads_shortText {text : String} (fits : textFits least most text) (small : most < 256) :
    Reads (shortText least most) (shortTextBytes text) text := by
  simp only [textFits, Bool.and_eq_true, decide_eq_true_eq] at fits
  have length : (UInt8.ofNat (utf8 text).length).toNat = (utf8 text).length := by
    rw [UInt8.toNat_ofNat']
    omega
  intro rest
  show shortText least most (UInt8.ofNat (utf8 text).length :: (utf8 text ++ rest)) = _
  unfold shortText
  rw [bind_of_ok (u8_cons _ _), length, if_pos fits,
    bind_of_ok (reads_readExact (utf8 text) rest), ofUtf8_eq_some.mpr rfl]
  rfl

namespace TokenPubkeyAnnouncement

variable {a : TokenPubkeyAnnouncement}

theorem textFits_of_new
    (accepted : new a.tokenPubkey a.name a.symbol a.decimal a.maxSupply a.isFreezable = some a) :
    textFits 3 17 a.name ∧ textFits 3 6 a.symbol := by
  unfold new at accepted
  split at accepted
  · split at accepted
    · exact ⟨‹_›, ‹_›⟩
    · cases accepted
  · cases accepted

theorem fromAnnouncementDataBytes_toAnnouncementDataBytes {announcement : TokenPubkeyAnnouncement}
    (point : prims.isPoint announcement.tokenPubkey) (name : textFits 3 17 announcement.name)
    (symbol : textFits 3 6 announcement.symbol) :
    fromAnnouncementDataBytes prims announcement.toAnnouncementDataBytes = some announcement := by
  have supply : announcement.maxSupply.val < 256 ^ 16 :=
    lt_of_lt_of_eq announcement.maxSupply.isLt (by norm_num)
  have supplyBack : Fin.ofNat (2 ^ 128) announcement.maxSupply.val = announcement.maxSupply :=
    Fin.ext (Nat.mod_eq_of_lt announcement.maxSupply.isLt)
  have freezable := reads_bool announcement.isFreezable
  have long : ¬ announcement.toAnnouncementDataBytes.length < 58 := by
    simp only [textFits, Bool.and_eq_true, decide_eq_true_eq] at name symbol
    simp only [toAnnouncementDataBytes, shortTextBytes, List.length_append, List.length_cons,
      serialize_length, leBytes_length, List.length_nil]
    omega
  unfold fromAnnouncementDataBytes
  rw [if_neg long]
  apply parseFront_of_reads
  simp only [toAnnouncementDataBytes, List.append_assoc]
  apply (reads_frontKey point).bind
  apply (reads_shortText name (by decide)).bind
  apply (reads_shortText symbol (by decide)).bind
  apply (reads_u8 announcement.decimal).bind
  apply (reads_number supply).bind
  rw [supplyBack]
  exact freezable.map

theorem textFits_of_parsed (parsed : fromAnnouncementDataBytes prims data = some a) :
    textFits 3 17 a.name ∧ textFits 3 6 a.symbol := by
  unfold fromAnnouncementDataBytes at parsed
  split at parsed
  · cases parsed
  · obtain ⟨rest, done⟩ := parseFront_eq_some.mp parsed
    obtain ⟨_, _, _, done⟩ := bind_eq_ok.mp done
    obtain ⟨name, _, readName, done⟩ := bind_eq_ok.mp done
    obtain ⟨symbol, _, readSymbol, done⟩ := bind_eq_ok.mp done
    obtain ⟨_, _, _, done⟩ := bind_eq_ok.mp done
    obtain ⟨_, _, _, done⟩ := bind_eq_ok.mp done
    obtain ⟨_, _, _, done⟩ := bind_eq_ok.mp done
    obtain ⟨rfl, _⟩ := pure_eq_ok.mp done
    exact ⟨yields_shortText _ _ _ readName, yields_shortText _ _ _ readSymbol⟩

end TokenPubkeyAnnouncement

namespace TokenLogoAnnouncement

variable {a : TokenLogoAnnouncement}

theorem textFits_of_new {token : TokenPubkey} {url : String} (accepted : new token url = some a) :
    textFits 15 48 a.logoUrl := by
  unfold new at accepted
  split at accepted
  · rename_i fits
    cases accepted
    exact fits
  · cases accepted

theorem fromAnnouncementDataBytes_toAnnouncementDataBytes {announcement : TokenLogoAnnouncement}
    (point : prims.isPoint announcement.tokenPubkey) (url : textFits 15 48 announcement.logoUrl) :
    fromAnnouncementDataBytes prims announcement.toAnnouncementDataBytes = some announcement := by
  have long : ¬ announcement.toAnnouncementDataBytes.length < 48 := by
    simp only [textFits, Bool.and_eq_true, decide_eq_true_eq] at url
    simp only [toAnnouncementDataBytes, shortTextBytes, List.length_append, List.length_cons,
      serialize_length]
    omega
  have accepted : new announcement.tokenPubkey announcement.logoUrl = some announcement := by
    rw [new, if_pos url]
  unfold fromAnnouncementDataBytes
  rw [if_neg long]
  apply parseFront_of_reads
  apply (reads_frontKey point).bind
  refine (reads_shortText url (by decide)).bind_pure ?_
  rw [accepted, orFail_some]

theorem textFits_of_parsed (parsed : fromAnnouncementDataBytes prims data = some a) :
    textFits 15 48 a.logoUrl := by
  unfold fromAnnouncementDataBytes at parsed
  split at parsed
  · cases parsed
  · obtain ⟨rest, done⟩ := parseFront_eq_some.mp parsed
    obtain ⟨_, _, _, done⟩ := bind_eq_ok.mp done
    obtain ⟨url, _, _, done⟩ := bind_eq_ok.mp done
    exact textFits_of_new (orFail_eq_ok.mp done).1

end TokenLogoAnnouncement

theorem TxFreezeAnnouncement.fromAnnouncementDataBytes_toAnnouncementDataBytes
    {announcement : TxFreezeAnnouncement} (point : prims.isPoint announcement.tokenPubkey)
    (txid : announcement.outpoint.txid < 256 ^ 32) (vout : announcement.outpoint.vout < 256 ^ 4) :
    fromAnnouncementDataBytes prims announcement.toAnnouncementDataBytes = some announcement := by
  obtain ⟨token, outTxid, outVout⟩ := announcement
  have length : (toAnnouncementDataBytes ⟨token, outTxid, outVout⟩).length = 69 := by
    simp [toAnnouncementDataBytes]
  have front : (toAnnouncementDataBytes ⟨token, outTxid, outVout⟩).take 32 = leBytes 32 outTxid := by
    simp [toAnnouncementDataBytes]
  have middle : ((toAnnouncementDataBytes ⟨token, outTxid, outVout⟩).drop 32).take 4 =
      beBytes 4 outVout := by
    simp [toAnnouncementDataBytes]
  have back : (toAnnouncementDataBytes ⟨token, outTxid, outVout⟩).drop 36 = token.serialize :=
    List.drop_left' (by simp)
  unfold fromAnnouncementDataBytes
  rw [if_neg (by omega)]
  simp only [front, middle, back, compressedOrXOnly, serialize_length, if_true,
    publicKeyFromSlice_serialize point, ofLeBytes_leBytes, ofBeBytes_beBytes,
    Nat.mod_eq_of_lt txid, Nat.mod_eq_of_lt vout]

theorem PubkeyFreezeAnnouncement.fromAnnouncementDataBytes_toAnnouncementDataBytes
    {announcement : PubkeyFreezeAnnouncement} (point : prims.isPoint announcement.tokenPubkey)
    (pubkey : prims.isPoint announcement.pubkey) :
    fromAnnouncementDataBytes prims announcement.toAnnouncementDataBytes = some announcement := by
  have front : announcement.toAnnouncementDataBytes.take 33 = announcement.pubkey.serialize := by
    simp [toAnnouncementDataBytes]
  have back : announcement.toAnnouncementDataBytes.drop 33 = announcement.tokenPubkey.serialize := by
    simp [toAnnouncementDataBytes]
  unfold fromAnnouncementDataBytes
  rw [if_neg (by simp [toAnnouncementDataBytes]), front, back,
    publicKeyFromSlice_serialize point, publicKeyFromSlice_serialize pubkey]

theorem IssueAnnouncement.fromAnnouncementDataBytes_toAnnouncementDataBytes
    {announcement : IssueAnnouncement} (point : prims.isPoint announcement.tokenPubkey) :
    fromAnnouncementDataBytes prims announcement.toAnnouncementDataBytes = some announcement := by
  have amount : announcement.amount.val < 256 ^ 16 :=
    lt_of_lt_of_eq announcement.amount.isLt (by norm_num)
  have length : announcement.toAnnouncementDataBytes.length = 49 := by
    simp [toAnnouncementDataBytes]
  have front : announcement.toAnnouncementDataBytes.take 33 = announcement.tokenPubkey.serialize := by
    simp [toAnnouncementDataBytes]
  have back : announcement.toAnnouncementDataBytes.drop 33 = leBytes 16 announcement.amount.val := by
    simp [toAnnouncementDataBytes]
  unfold fromAnnouncementDataBytes
  simp only [length, front]
  rw [if_pos (by decide), if_neg (by decide)]
  simp only [publicKeyFromSlice_serialize point, show 49 - 16 = 33 from rfl, back,
    ofLeBytes_leBytes, Nat.mod_eq_of_lt amount, announcement.amount.isLt, dif_pos]

namespace TransferOwnershipAnnouncement

/-- The scripts that an owner can be: the four kinds of address before taproot. -/
def OwnerScript (script : ScriptBuf) : Prop :=
  script.isP2pkh ∨ script.isP2sh ∨ script.isP2wpkh ∨ script.isP2wsh

theorem OwnerScript.length {script : ScriptBuf} (owner : OwnerScript script) :
    script.length < 33 ∨ script.length = 34 := by
  rcases owner with kind | kind | kind | kind
  · simp only [isP2pkh, Bool.and_eq_true, beq_iff_eq] at kind
    omega
  · simp only [ScriptBuf.isP2sh, Bool.and_eq_true, beq_iff_eq] at kind
    omega
  · simp only [isP2wpkh, Bool.and_eq_true, beq_iff_eq] at kind
    omega
  · simp only [isP2wsh, Bool.and_eq_true, beq_iff_eq] at kind
    omega

/-- The owner is read as the key as well, so only the key itself reads back as an owner. -/
theorem parsed_iff (point : prims.isPoint announcement.tokenPubkey) :
    fromAnnouncementDataBytes prims announcement.toAnnouncementDataBytes = some announcement ↔
      announcement.newOwner = announcement.tokenPubkey.serialize := by
  obtain ⟨token, newOwner⟩ := announcement
  have back : (mk token newOwner).toAnnouncementDataBytes.drop 33 = newOwner := by
    simp [toAnnouncementDataBytes]
  have length : (mk token newOwner).toAnnouncementDataBytes.length = 33 + newOwner.length := by
    simp [toAnnouncementDataBytes]
  unfold fromAnnouncementDataBytes
  rw [back, length]
  show _ ↔ newOwner = token.serialize
  constructor
  · intro parsed
    split at parsed
    · cases parsed
    · rename_i inRange
      split at parsed
      · cases parsed
      · split at parsed
        · cases parsed
        · rename_i key accepted
          cases parsed
          exact (serialize_of_publicKeyFromSlice (by omega) accepted).symm
  · rintro rfl
    rw [publicKeyFromSlice_serialize point, serialize_length]
    rfl

end TransferOwnershipAnnouncement

namespace AnnouncementType

variable {type : AnnouncementType}

theorem ofKind_eq_some : ofKind bytes = some type ↔ bytes = type.kind := by
  constructor
  · intro found
    have same := List.find?_some found
    exact (of_decide_eq_true same).symm
  · rintro rfl
    cases type <;> decide

theorem type_of_parseData {announcement : Announcement}
    (parsed : type.parseData prims data = some announcement) : announcement.type = type := by
  cases type
  all_goals
    obtain ⟨inner, _, rfl⟩ := Option.map_eq_some_iff.mp parsed
    rfl

/-- `AnyAnnouncement::from_script` of the type, as the variant of `Announcement`. -/
def fromScript (prims : Primitives) (type : AnnouncementType) : ScriptBuf → Option Announcement :=
  anyFromScript (type.parseData prims)

end AnnouncementType

theorem isAnnouncement_of_opReturnData (found : opReturnData script = some bytes) :
    isAnnouncement bytes := by
  unfold opReturnData at found
  split at found
  · split at found
    · split at found
      · rename_i announces
        obtain rfl := Option.some.inj found
        exact announces
      · cases found
    · cases found
  · cases found

theorem opReturnData_pushSlice (fits : bytes.length < 2 ^ 32) (announces : isAnnouncement bytes) :
    opReturnData (0x6a :: pushSlice bytes) = some bytes := by
  have notPush : pushLength 0x6a = fun _ => none := rfl
  have isReturn : isOpReturn (0x6a :: pushSlice bytes) := rfl
  have pushed := instructions_pushSlice fits []
  rw [List.append_nil] at pushed
  unfold opReturnData
  rw [if_pos isReturn, instructions_op notPush, pushed, instructions_nil]
  simp [announces]

/-- What the parser of a type accepts is accepted by the dispatching parser, with the same
result, when the kind bytes are those of the type. -/
theorem announcementFromScript_iff_kind {type : AnnouncementType} {announcement : Announcement}
    (parsed : type.fromScript prims script = some announcement) :
    announcementFromScript prims script = some announcement ↔
      (opReturnData script).map kindBytes = some type.kind := by
  unfold fromScript anyFromScript at parsed
  obtain ⟨bytes, found, accepted⟩ := Option.bind_eq_some_iff.mp parsed
  have announces := isAnnouncement_of_opReturnData found
  rw [anyFromBytes, if_pos announces] at accepted
  rw [announcementFromScript, found, Option.bind_some, Option.map_some, Option.some.injEq,
    announcementFromBytes, if_pos announces]
  constructor
  · intro dispatched
    cases other : AnnouncementType.ofKind (kindBytes bytes) with
    | none =>
      rw [other] at dispatched
      cases dispatched
    | some otherType =>
      rw [other] at dispatched
      have same : otherType = type :=
        (type_of_parseData dispatched).symm.trans (type_of_parseData accepted)
      rw [ofKind_eq_some.mp other, same]
  · intro kind
    rw [ofKind_eq_some.mpr kind]
    exact accepted

namespace Announcement

theorem isAnnouncement_toBytes (announcement : Announcement) :
    isAnnouncement announcement.toBytes := by
  cases announcement <;> simp [isAnnouncement, toBytes, announcementPrefix, type,
    AnnouncementType.kind]

theorem announcementFromBytes_toBytes (announcement : Announcement) :
    announcementFromBytes prims announcement.toBytes =
      announcement.type.parseData prims announcement.toAnnouncementDataBytes := by
  have kindLength : announcement.type.kind.length = 2 := by
    cases announcement <;> rfl
  have kind : kindBytes announcement.toBytes = announcement.type.kind := by
    simp [kindBytes, toBytes, announcementPrefix, kindLength]
  have data : announcement.toBytes.drop 7 = announcement.toAnnouncementDataBytes :=
    List.drop_left' (by simp [announcementPrefix, kindLength])
  unfold announcementFromBytes
  rw [if_pos announcement.isAnnouncement_toBytes, kind, ofKind_eq_some.mpr rfl, data]

variable {announcement : Announcement}

/-- Keys are points, an outpoint has the width of its type, the constructors of the announcements
accept their texts, and an owner is the script of an address. -/
def Valid (prims : Primitives) : Announcement → Prop
  | tokenPubkey a => prims.isPoint a.tokenPubkey ∧ TokenPubkeyAnnouncement.new a.tokenPubkey a.name
      a.symbol a.decimal a.maxSupply a.isFreezable = some a
  | tokenLogo a => prims.isPoint a.tokenPubkey ∧
      TokenLogoAnnouncement.new a.tokenPubkey a.logoUrl = some a
  | txFreeze a => prims.isPoint a.tokenPubkey ∧ a.outpoint.txid < 256 ^ 32 ∧
      a.outpoint.vout < 256 ^ 4
  | pubkeyFreeze a => prims.isPoint a.tokenPubkey ∧ prims.isPoint a.pubkey
  | issue a => prims.isPoint a.tokenPubkey
  | transferOwnership a => prims.isPoint a.tokenPubkey ∧
      TransferOwnershipAnnouncement.OwnerScript a.newOwner

/-- No valid announcement is longer than a token announcement with all its texts in full. -/
theorem data_length (valid : announcement.Valid prims) :
    announcement.toAnnouncementDataBytes.length ≤ 82 := by
  cases announcement with
  | tokenPubkey a =>
    obtain ⟨name, symbol⟩ := TokenPubkeyAnnouncement.textFits_of_new valid.2
    simp only [textFits, Bool.and_eq_true, decide_eq_true_eq] at name symbol
    simp only [toAnnouncementDataBytes, TokenPubkeyAnnouncement.toAnnouncementDataBytes,
      shortTextBytes, List.length_append, List.length_cons, List.length_nil,
      serialize_length, leBytes_length]
    omega
  | tokenLogo a =>
    have url := TokenLogoAnnouncement.textFits_of_new valid.2
    simp only [textFits, Bool.and_eq_true, decide_eq_true_eq] at url
    simp only [toAnnouncementDataBytes, TokenLogoAnnouncement.toAnnouncementDataBytes,
      shortTextBytes, List.length_append, List.length_cons, serialize_length]
    omega
  | txFreeze a => simp [toAnnouncementDataBytes, TxFreezeAnnouncement.toAnnouncementDataBytes]
  | pubkeyFreeze a =>
    simp [toAnnouncementDataBytes, PubkeyFreezeAnnouncement.toAnnouncementDataBytes]
  | issue a => simp [toAnnouncementDataBytes, IssueAnnouncement.toAnnouncementDataBytes]
  | transferOwnership a =>
    have owner := valid.2.length
    simp only [toAnnouncementDataBytes, TransferOwnershipAnnouncement.toAnnouncementDataBytes,
      List.length_append, serialize_length]
    omega

theorem toBytes_length (valid : announcement.Valid prims) :
    announcement.toBytes.length < 2 ^ 32 := by
  have data := data_length valid
  have kind : announcement.type.kind.length = 2 := by
    cases announcement <;> rfl
  simp only [toBytes, announcementPrefix, List.length_append, List.length_cons, List.length_nil, kind]
  omega

theorem type_of_readBack {read : Announcement} (parsed : announcement.readBack prims = some read) :
    read.type = announcement.type := by
  rw [readBack, announcementFromBytes_toBytes] at parsed
  cases announcement <;>
    · obtain ⟨_, -, rfl⟩ := Option.map_eq_some_iff.mp parsed
      rfl

/-- Keys are points and an outpoint has the width of its type. -/
def Representable (prims : Primitives) : Announcement → Prop
  | tokenPubkey a => prims.isPoint a.tokenPubkey
  | tokenLogo a => prims.isPoint a.tokenPubkey
  | txFreeze a => prims.isPoint a.tokenPubkey ∧ a.outpoint.txid < 256 ^ 32 ∧
      a.outpoint.vout < 256 ^ 4
  | pubkeyFreeze a => prims.isPoint a.tokenPubkey ∧ prims.isPoint a.pubkey
  | issue a => prims.isPoint a.tokenPubkey
  | transferOwnership a => prims.isPoint a.tokenPubkey

/-- Texts are of a length that the parsers take. A new owner is the token's own key, as the key
is read where the owner is written. -/
def Legible : Announcement → Prop
  | tokenPubkey a => textFits 3 17 a.name ∧ textFits 3 6 a.symbol
  | tokenLogo a => textFits 15 48 a.logoUrl
  | transferOwnership a => a.newOwner = a.tokenPubkey.serialize
  | _ => True

/-- Every announcement, however its fields were set, reads back from its bytes exactly when it
is legible. -/
theorem readBack_iff_legible (representable : announcement.Representable prims) :
    announcement.readBack prims = some announcement ↔ announcement.Legible := by
  rw [readBack, announcementFromBytes_toBytes]
  cases announcement with
  | tokenPubkey a =>
    refine ⟨fun parsed => ?_, fun ⟨name, symbol⟩ => ?_⟩
    · obtain ⟨_, read, same⟩ := Option.map_eq_some_iff.mp parsed
      cases same
      exact textFits_of_parsed read
    · exact Option.map_eq_some_iff.mpr ⟨a, fromAnnouncementDataBytes_toAnnouncementDataBytes
        representable name symbol, rfl⟩
  | tokenLogo a =>
    refine ⟨fun parsed => ?_, fun url => ?_⟩
    · obtain ⟨_, read, same⟩ := Option.map_eq_some_iff.mp parsed
      cases same
      exact textFits_of_parsed read
    · exact Option.map_eq_some_iff.mpr ⟨a, fromAnnouncementDataBytes_toAnnouncementDataBytes
        representable url, rfl⟩
  | txFreeze a =>
    refine iff_of_true (Option.map_eq_some_iff.mpr ⟨a, ?_, rfl⟩) trivial
    exact fromAnnouncementDataBytes_toAnnouncementDataBytes
      representable.1 representable.2.1 representable.2.2
  | pubkeyFreeze a =>
    refine iff_of_true (Option.map_eq_some_iff.mpr ⟨a, ?_, rfl⟩) trivial
    exact fromAnnouncementDataBytes_toAnnouncementDataBytes representable.1 representable.2
  | issue a =>
    refine iff_of_true (Option.map_eq_some_iff.mpr ⟨a, ?_, rfl⟩) trivial
    exact IssueAnnouncement.fromAnnouncementDataBytes_toAnnouncementDataBytes representable
  | transferOwnership a =>
    refine Iff.trans ?_ (parsed_iff representable)
    exact ⟨fun parsed => by
      obtain ⟨_, read, same⟩ := Option.map_eq_some_iff.mp parsed
      cases same
      exact read, fun read => Option.map_eq_some_iff.mpr ⟨a, read, rfl⟩⟩

theorem Valid.representable (valid : announcement.Valid prims) :
    announcement.Representable prims := by
  cases announcement with
  | txFreeze | pubkeyFreeze | issue => exact valid
  | tokenPubkey | tokenLogo | transferOwnership => exact valid.1

/-- No script of an address has the length of a key. -/
theorem Valid.legible_iff (valid : announcement.Valid prims) :
    announcement.Legible ↔ announcement.type ≠ .transferOwnership := by
  cases announcement with
  | tokenPubkey a => exact iff_of_true (textFits_of_new valid.2) (by simp [type])
  | tokenLogo a => exact iff_of_true (textFits_of_new valid.2) (by simp [type])
  | txFreeze | pubkeyFreeze | issue => exact iff_of_true trivial (by simp [type])
  | transferOwnership a =>
    refine iff_of_false (fun same => ?_) (by simp [type])
    have length := congrArg List.length same
    rw [serialize_length] at length
    have owner := valid.2.length
    omega

/-- A valid announcement reads back from its bytes and from its script, unless it is a transfer
of ownership. -/
theorem readBack_iff_not_transferOwnership (prims : Primitives) (announcement : Announcement)
    (valid : announcement.Valid prims) :
    announcementFromBytes prims announcement.toBytes = some announcement ∧
        announcementFromScript prims announcement.toScript = some announcement ↔
      announcement.type ≠ .transferOwnership := by
  have sameBytes : announcementFromScript prims announcement.toScript =
      announcementFromBytes prims announcement.toBytes := by
    rw [announcementFromScript, toScript,
      opReturnData_pushSlice (toBytes_length valid) announcement.isAnnouncement_toBytes]
    rfl
  rw [sameBytes, and_self]
  exact (readBack_iff_legible valid.representable).trans valid.legible_iff

/-- A token announcement with the longest texts reads back, its push needs a length field. -/
theorem readBack_longest_tokenPubkey :
    let announcement := tokenPubkey
      ⟨.repeating 7, "seventeen letters", "SIXLET", 8, 21000000, true⟩
    announcementFromBytes .plain announcement.toBytes = some announcement ∧
      announcementFromScript .plain announcement.toScript = some announcement := by
  intro announcement
  apply (readBack_iff_not_transferOwnership .plain announcement ?_).mpr
  · decide
  · exact ⟨rfl, by decide +kernel⟩

/-- A transfer of ownership to a `P2WPKH` script reads back from neither. -/
theorem readBack_loses_transferOwnership :
    let announcement := transferOwnership
      ⟨.repeating 7, newP2wpkh (List.Vector.replicate 20 1)⟩
    announcement.Valid .plain ∧ announcementFromBytes .plain announcement.toBytes = none ∧
      announcementFromScript .plain announcement.toScript = none := by
  intro announcement
  refine ⟨⟨rfl, .inr (.inr (.inl (by decide)))⟩, by decide +kernel, by decide +kernel⟩

end Announcement

/-! ### The bytes of the JavaScript library -/

/-- `Buffer.from(text, "hex")`: a last digit without a second one is dropped. -/
def bufferFromHex : List Nat → Bytes
  | high :: low :: rest => UInt8.ofNat (16 * high + low) :: bufferFromHex rest
  | _ => []

theorem bufferFromHex_length (digits : List Nat) :
    2 * (bufferFromHex digits).length ≤ digits.length := by
  fun_induction bufferFromHex digits with
  | case1 high low rest ih =>
    simp only [List.length_cons]
    omega
  | case2 => simp

theorem consumes_shortText :
    Consumes (shortText least most) (fun text => 1 + (utf8 text).length) := by
  intro bytes text rest done
  obtain ⟨length, middle, front, done⟩ := bind_eq_ok.mp done
  have taken : 1 + middle.length ≤ bytes.length := consumes_u8 _ _ _ front
  split at done
  · obtain ⟨read, _, exactly, last⟩ := bind_eq_ok.mp done
    obtain ⟨rfl, -⟩ := readExact_eq_ok.mp exactly
    obtain ⟨decoded, rfl⟩ := orFail_eq_ok.mp last
    rw [ofUtf8_eq_some.mp decoded, List.length_append, ← Nat.add_assoc] at taken
    exact taken
  · cases done

namespace TokenPubkeyAnnouncement

/-- `toBuffer`, of an announcement whose fields fit those of the node. -/
def toBuffer (announcement : TokenPubkeyAnnouncement) : Bytes :=
  announcement.tokenPubkey.serialize ++ utf8 announcement.name ++ utf8 announcement.symbol ++
    [announcement.decimal] ++ bufferFromHex (Nat.digits 16 announcement.maxSupply.val).reverse ++
    [if announcement.isFreezable then 1 else 0]

/-- The bytes a node needs for an announcement: the texts, their two lengths and 51 more. -/
def dataLength (announcement : TokenPubkeyAnnouncement) : Nat :=
  (utf8 announcement.name).length + (utf8 announcement.symbol).length + 53

theorem length_of_parsed {data : Bytes} {a : TokenPubkeyAnnouncement}
    (parsed : fromAnnouncementDataBytes prims data = some a) : a.dataLength ≤ data.length := by
  unfold fromAnnouncementDataBytes at parsed
  split at parsed
  · cases parsed
  · obtain ⟨rest, done⟩ := parseFront_eq_some.mp parsed
    have taken : a.dataLength + rest.length ≤ data.length := by
      refine Consumes.bind (consumes_readExact 33).parsed (fun _ => ?_) data a rest done
      refine consumes_shortText.bind fun name => consumes_shortText.bind fun symbol => ?_
      refine consumes_u8.bind fun _ => (consumes_number 16).bind fun _ => ?_
      refine consumes_bool.bind fun _ => consumes_pure ?_
      simp only [dataLength]
      omega
    omega

/-- The node never reads an announcement off the bytes that the JavaScript library makes of it:
they lack the lengths of the two texts. -/
theorem toBuffer_not_parsed (prims : Primitives) (announcement : TokenPubkeyAnnouncement) :
    fromAnnouncementDataBytes prims announcement.toBuffer ≠ some announcement := by
  intro parsed
  have needed := length_of_parsed parsed
  have digits : (Nat.digits 16 announcement.maxSupply.val).length ≤ 32 := by
    apply Nat.digits_length_le_iff (by norm_num) _ |>.mpr
    exact lt_of_lt_of_eq announcement.maxSupply.isLt (by norm_num)
  have supply := bufferFromHex_length (Nat.digits 16 announcement.maxSupply.val).reverse
  simp only [dataLength, toBuffer, List.length_append, List.length_reverse, serialize_length,
    List.length_cons, List.length_nil] at needed supply
  omega

/-- An announcement within the limits of the node, which it refuses. -/
theorem toBuffer_refused :
    let announcement : TokenPubkeyAnnouncement := ⟨.repeating 7, "Token", "TKN", 8, 21000000, true⟩
    new announcement.tokenPubkey announcement.name announcement.symbol announcement.decimal
        announcement.maxSupply announcement.isFreezable = some announcement ∧
      fromAnnouncementDataBytes .plain announcement.toBuffer = none := by
  decide +kernel

end TokenPubkeyAnnouncement

end Lrc20
