import Lrc20.Lib.Codec
import Lrc20.Receipts.Receipt

open ByteOrder Script Codec Codec.Decoder

namespace Lrc20

structure TokenPubkeyAnnouncement where
  tokenPubkey : TokenPubkey
  name : String
  symbol : String
  decimal : UInt8
  maxSupply : U128
  isFreezable : Bool
deriving DecidableEq

structure TxFreezeAnnouncement where
  tokenPubkey : TokenPubkey
  outpoint : OutPoint
deriving DecidableEq

structure PubkeyFreezeAnnouncement where
  tokenPubkey : TokenPubkey
  pubkey : PublicKey
deriving DecidableEq

structure IssueAnnouncement where
  tokenPubkey : TokenPubkey
  amount : U128
deriving DecidableEq

structure TransferOwnershipAnnouncement where
  tokenPubkey : TokenPubkey
  newOwner : ScriptBuf
deriving DecidableEq

structure TokenLogoAnnouncement where
  tokenPubkey : TokenPubkey
  logoUrl : String
deriving DecidableEq

inductive Announcement where
  | tokenPubkey (announcement : TokenPubkeyAnnouncement)
  | tokenLogo (announcement : TokenLogoAnnouncement)
  | txFreeze (announcement : TxFreezeAnnouncement)
  | pubkeyFreeze (announcement : PubkeyFreezeAnnouncement)
  | issue (announcement : IssueAnnouncement)
  | transferOwnership (announcement : TransferOwnershipAnnouncement)
deriving DecidableEq

inductive AnnouncementType where
  | issue
  | txFreeze
  | pubkeyFreeze
  | transferOwnership
  | tokenPubkey
  | tokenLogo
deriving DecidableEq, Repr

def Announcement.token : Announcement → TokenPubkey
  | tokenPubkey announcement => announcement.tokenPubkey
  | tokenLogo announcement => announcement.tokenPubkey
  | txFreeze announcement => announcement.tokenPubkey
  | pubkeyFreeze announcement => announcement.tokenPubkey
  | issue announcement => announcement.tokenPubkey
  | transferOwnership announcement => announcement.tokenPubkey

/-- `ANNOUNCEMENT_PREFIX`, the ASCII letters of `LRC20`. -/
def announcementPrefix : Bytes := [76, 82, 67, 50, 48]

/-- `is_announcement`: at least a prefix and a kind, the prefix being the right one. -/
def isAnnouncement (bytes : Bytes) : Bool :=
  7 ≤ bytes.length && bytes.take 5 == announcementPrefix

/-- `parse_op_return_script` up to the call of the parser: the data of an `OP_RETURN`
script of exactly two instructions. -/
def opReturnData (script : ScriptBuf) : Option Bytes :=
  if script.isOpReturn then
    match instructions script with
    | [.ok _, .ok (.pushBytes bytes)] => if isAnnouncement bytes then some bytes else none
    | _ => none
  else none

/-- `AnyAnnouncement::from_bytes` for a type with this parser of its data. The kind bytes
are not looked at. -/
def anyFromBytes {α : Type} (parse : Bytes → Option α) (bytes : Bytes) : Option α :=
  if isAnnouncement bytes then parse (bytes.drop 7) else none

/-- `AnyAnnouncement::from_script`. -/
def anyFromScript {α : Type} (parse : Bytes → Option α) (script : ScriptBuf) : Option α :=
  (opReturnData script).bind (anyFromBytes parse)

/-- The value at the front of a byte string, whatever follows. -/
def parseFront {α : Type} (decoder : Decoder α) (data : Bytes) : Option α :=
  match decoder data with
  | .ok (value, _) => some value
  | .error _ => none

variable (prims : Primitives)

/-- A key that the data holds in full. -/
def frontKey : Decoder PublicKey := do
  let bytes ← readExact 33
  orFail .invalidData (prims.publicKeyFromSlice bytes)

/-- A text after a byte for its length, which lies in a range. -/
def shortText (least most : Nat) : Decoder String := do
  let length ← u8
  if least ≤ length.toNat ∧ length.toNat ≤ most then
    let bytes ← readExact length.toNat
    orFail .invalidData (ofUtf8 bytes)
  else fail .invalidData

def shortTextBytes (text : String) : Bytes := UInt8.ofNat (utf8 text).length :: utf8 text

/-- Whether the length of a text in bytes lies in a range. -/
def textFits (least most : Nat) (text : String) : Bool :=
  least ≤ (utf8 text).length && (utf8 text).length ≤ most

variable (data : Bytes)

namespace TokenPubkeyAnnouncement

/-- `TokenPubkeyAnnouncement::new`. -/
def new (tokenPubkey : TokenPubkey) (name symbol : String) (decimal : UInt8) (maxSupply : U128)
    (isFreezable : Bool) : Option TokenPubkeyAnnouncement :=
  if textFits 3 17 name then
    if textFits 3 6 symbol then some ⟨tokenPubkey, name, symbol, decimal, maxSupply, isFreezable⟩
    else none
  else none

def toAnnouncementDataBytes (announcement : TokenPubkeyAnnouncement) : Bytes :=
  announcement.tokenPubkey.serialize ++ shortTextBytes announcement.name ++
    shortTextBytes announcement.symbol ++ [announcement.decimal] ++
    leBytes 16 announcement.maxSupply.val ++ [if announcement.isFreezable then 1 else 0]

/-- `from_announcement_data_bytes`: at least 58 bytes; what follows the last field is not
looked at. -/
def fromAnnouncementDataBytes : Option TokenPubkeyAnnouncement :=
  if data.length < 58 then none
  else parseFront (do
    let tokenPubkey ← frontKey prims
    let name ← shortText 3 17
    let symbol ← shortText 3 6
    let decimal ← u8
    let maxSupply ← number 16
    let isFreezable ← Decoder.bool
    pure ⟨tokenPubkey, name, symbol, decimal, Fin.ofNat (2 ^ 128) maxSupply, isFreezable⟩) data

end TokenPubkeyAnnouncement

namespace TokenLogoAnnouncement

/-- `TokenLogoAnnouncement::new`. -/
def new (tokenPubkey : TokenPubkey) (logoUrl : String) : Option TokenLogoAnnouncement :=
  if textFits 15 48 logoUrl then some ⟨tokenPubkey, logoUrl⟩ else none

def toAnnouncementDataBytes (announcement : TokenLogoAnnouncement) : Bytes :=
  announcement.tokenPubkey.serialize ++ shortTextBytes announcement.logoUrl

/-- `from_announcement_data_bytes`: at least 48 bytes. -/
def fromAnnouncementDataBytes : Option TokenLogoAnnouncement :=
  if data.length < 48 then none
  else parseFront (do
    let tokenPubkey ← frontKey prims
    let logoUrl ← shortText 15 48
    orFail .invalidData (new tokenPubkey logoUrl)) data

end TokenLogoAnnouncement

/-- A key in compressed form, or of another length read as an x-only key. -/
def compressedOrXOnly (bytes : Bytes) : Option PublicKey :=
  prims.publicKeyFromSlice (if bytes.length = 33 then bytes else 2 :: bytes)

namespace TxFreezeAnnouncement

def toAnnouncementDataBytes (announcement : TxFreezeAnnouncement) : Bytes :=
  leBytes 32 announcement.outpoint.txid ++ beBytes 4 announcement.outpoint.vout ++
    announcement.tokenPubkey.serialize

/-- `from_announcement_data_bytes`: 68 or 69 bytes, as the key is x-only or compressed. -/
def fromAnnouncementDataBytes : Option TxFreezeAnnouncement :=
  if data.length < 68 ∨ 69 < data.length then none
  else
    let outpoint : OutPoint :=
      ⟨ofLeBytes (data.take 32), ofBeBytes ((data.drop 32).take 4)⟩
    match compressedOrXOnly prims (data.drop 36) with
    | none => none
    | some key => some ⟨key, outpoint⟩

end TxFreezeAnnouncement

namespace PubkeyFreezeAnnouncement

def toAnnouncementDataBytes (announcement : PubkeyFreezeAnnouncement) : Bytes :=
  announcement.pubkey.serialize ++ announcement.tokenPubkey.serialize

/-- `from_announcement_data_bytes`: exactly two keys. -/
def fromAnnouncementDataBytes : Option PubkeyFreezeAnnouncement :=
  if data.length ≠ 66 then none
  else match prims.publicKeyFromSlice (data.take 33), prims.publicKeyFromSlice (data.drop 33) with
    | some pubkey, some tokenPubkey => some ⟨tokenPubkey, pubkey⟩
    | _, _ => none

end PubkeyFreezeAnnouncement

namespace IssueAnnouncement

/-- `from_announcement_data_bytes`: 48 bytes hold an x-only key, 49 a compressed one. -/
def fromAnnouncementDataBytes : Option IssueAnnouncement :=
  let keyBytes := if data.length = 48 then 2 :: data.take 32 else data.take 33
  if data.length = 48 ∨ data.length = 49 then
    match prims.publicKeyFromSlice keyBytes with
    | none => none
    | some key =>
      let amount := ofLeBytes (data.drop (data.length - 16))
      if fits : amount < 2 ^ 128 then some ⟨key, ⟨amount, fits⟩⟩ else none
  else none

def toAnnouncementDataBytes (announcement : IssueAnnouncement) : Bytes :=
  announcement.tokenPubkey.serialize ++ leBytes 16 announcement.amount.val

def fromScript : ScriptBuf → Option IssueAnnouncement :=
  anyFromScript (fromAnnouncementDataBytes prims)

end IssueAnnouncement

namespace TransferOwnershipAnnouncement

def toAnnouncementDataBytes (announcement : TransferOwnershipAnnouncement) : Bytes :=
  announcement.tokenPubkey.serialize ++ announcement.newOwner

/-- `from_announcement_data_bytes`. Both fields are read from byte 33 on. -/
def fromAnnouncementDataBytes : Option TransferOwnershipAnnouncement :=
  if data.length < 48 ∨ 81 < data.length then none
  else if (data.drop 33).length < 33 then none
  else match prims.publicKeyFromSlice (data.drop 33) with
    | none => none
    | some key => some ⟨key, data.drop 33⟩

end TransferOwnershipAnnouncement

namespace AnnouncementType

def kind : AnnouncementType → Bytes
  | tokenPubkey => [0, 0]
  | txFreeze => [0, 1]
  | issue => [0, 2]
  | transferOwnership => [0, 3]
  | pubkeyFreeze => [0, 5]
  | tokenLogo => [0, 6]

/-- The type that `announcement_from_bytes` dispatches to. -/
def ofKind (bytes : Bytes) : Option AnnouncementType :=
  [tokenPubkey, txFreeze, pubkeyFreeze, issue, transferOwnership, tokenLogo].find?
    fun type => type.kind = bytes

/-- `from_announcement_data_bytes` of the type, as the variant of `Announcement`. -/
def parseData : AnnouncementType → Bytes → Option Announcement
  | tokenPubkey, data =>
    (TokenPubkeyAnnouncement.fromAnnouncementDataBytes prims data).map .tokenPubkey
  | txFreeze, data => (TxFreezeAnnouncement.fromAnnouncementDataBytes prims data).map .txFreeze
  | pubkeyFreeze, data =>
    (PubkeyFreezeAnnouncement.fromAnnouncementDataBytes prims data).map .pubkeyFreeze
  | issue, data => (IssueAnnouncement.fromAnnouncementDataBytes prims data).map .issue
  | transferOwnership, data =>
    (TransferOwnershipAnnouncement.fromAnnouncementDataBytes prims data).map .transferOwnership
  | tokenLogo, data => (TokenLogoAnnouncement.fromAnnouncementDataBytes prims data).map .tokenLogo

end AnnouncementType

/-- The two bytes after the prefix. -/
def kindBytes (bytes : Bytes) : Bytes := (bytes.drop 5).take 2

def announcementFromBytes (bytes : Bytes) : Option Announcement :=
  if isAnnouncement bytes then
    match AnnouncementType.ofKind (kindBytes bytes) with
    | some type => type.parseData prims (bytes.drop 7)
    | none => none
  else none

def announcementFromScript (script : ScriptBuf) : Option Announcement :=
  (opReturnData script).bind (announcementFromBytes prims)

variable (announcement : Announcement)

namespace Announcement

def type : Announcement → AnnouncementType
  | tokenPubkey _ => .tokenPubkey
  | tokenLogo _ => .tokenLogo
  | txFreeze _ => .txFreeze
  | pubkeyFreeze _ => .pubkeyFreeze
  | issue _ => .issue
  | transferOwnership _ => .transferOwnership

def toAnnouncementDataBytes : Announcement → Bytes
  | tokenPubkey announcement => announcement.toAnnouncementDataBytes
  | tokenLogo announcement => announcement.toAnnouncementDataBytes
  | txFreeze announcement => announcement.toAnnouncementDataBytes
  | pubkeyFreeze announcement => announcement.toAnnouncementDataBytes
  | issue announcement => announcement.toAnnouncementDataBytes
  | transferOwnership announcement => announcement.toAnnouncementDataBytes

def toBytes : Bytes :=
  announcementPrefix ++ announcement.type.kind ++ announcement.toAnnouncementDataBytes

/-- `to_script`: the bytes pushed after `OP_RETURN`. -/
def toScript : ScriptBuf := 0x6a :: pushSlice announcement.toBytes

def readBack : Option Announcement :=
  announcementFromBytes prims announcement.toBytes

end Announcement

end Lrc20
