import Lrc20.Bitcoin

open ByteOrder

namespace Lrc20

/-- The source's `u128`. -/
abbrev U128 := Fin (2 ^ 128)

instance instNeZeroU128 : NeZero (2 ^ 128) := ⟨by decide⟩

abbrev TokenPubkey := PublicKey

/-- Auxiliary JSON data of a proof, as `serde_json::to_vec` writes it. -/
abbrev Metadata := Bytes

structure TokenAmount where
  amount : U128
  blindingFactor : List.Vector UInt8 16
deriving DecidableEq

namespace TokenAmount

def new (amount : U128) : TokenAmount := ⟨amount, List.Vector.replicate 16 0⟩

def toBytes (tokenAmount : TokenAmount) : Bytes :=
  beBytes 16 tokenAmount.amount.val ++ tokenAmount.blindingFactor.toList

@[simp] theorem toBytes_length (tokenAmount : TokenAmount) : tokenAmount.toBytes.length = 32 := by
  simp [toBytes]

theorem toBytes_injective {a b : TokenAmount} (same : a.toBytes = b.toBytes) : a = b := by
  obtain ⟨amountA, blindingA⟩ := a
  obtain ⟨amountB, blindingB⟩ := b
  obtain ⟨amounts, blindings⟩ := List.append_inj same (by simp)
  have fits : ∀ amount : U128, amount.val < 256 ^ 16 := fun amount =>
    lt_of_lt_of_eq amount.isLt (by norm_num)
  have sameAmount : amountA = amountB :=
    Fin.ext (beBytes_injective (fits amountA) (fits amountB) amounts)
  have sameBlinding : blindingA = blindingB := List.Vector.toList_injective blindings
  rw [sameAmount, sameBlinding]

end TokenAmount

/-- An amount of one token. -/
@[ext] structure Receipt where
  tokenAmount : TokenAmount
  tokenPubkey : TokenPubkey
deriving DecidableEq

/-- `ZERO_PUBLIC_KEY`, the key of `33` bytes `0x02`. -/
def zeroPublicKey : PublicKey := ⟨false, List.Vector.replicate 32 2⟩

def Receipt.empty : Receipt := ⟨TokenAmount.new 0, zeroPublicKey⟩

namespace Primitives

variable (prims : Primitives)

/-- The bytes hashed for a receipt and its optional metadata. -/
def receiptPreimage (receipt : Receipt) (metadata : Option Metadata) : Bytes :=
  (prims.sha256 receipt.tokenAmount.toBytes).toList ++ receipt.tokenPubkey.serialize ++
    match metadata with
    | some json => (prims.sha256 json).toList
    | none => []

/-- `PXH = hash(hash(Y) || UV || hash(metadata))`. -/
def receiptHash (receipt : Receipt) (metadata : Option Metadata) : Bytes32 :=
  prims.sha256 (prims.receiptPreimage receipt metadata)

/-- The bytes whose hash tweaks the inner key: `PXH || Pk`. -/
def tweakPreimage (pxh : Bytes32) (innerKey : PublicKey) : Bytes :=
  pxh.toList ++ innerKey.serialize

/-- `ReceiptKey::new`: `Pk + hash(PXH || Pk) * G`. -/
def receiptKey (pxh : Bytes32) (innerKey : PublicKey) : Option PublicKey :=
  prims.addExpTweak innerKey (prims.sha256 (tweakPreimage pxh innerKey))

/-- The key a receipt without metadata gives to an inner key. -/
def tweak (innerKey : PublicKey) (receipt : Receipt) : Option PublicKey :=
  prims.receiptKey (prims.receiptHash receipt none) innerKey

/-- `ReceiptKey::to_p2wpkh`. -/
def toP2wpkh (key : PublicKey) : ScriptBuf :=
  ScriptBuf.newP2wpkh (prims.hash160 key.serialize)

/-- `ScriptBuf::to_p2wsh`. -/
def toP2wsh (script : ScriptBuf) : ScriptBuf :=
  ScriptBuf.newP2wsh (prims.sha256 script)

end Primitives

end Lrc20
