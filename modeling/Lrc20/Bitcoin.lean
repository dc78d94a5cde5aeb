import Mathlib.Data.Vector.Basic
import Lrc20.Lib.Script

/-! The part of Bitcoin the node reads: transactions, scripts, keys. Hash functions and
curve operations are outside the repository and stay parameters. -/

namespace Lrc20

open ByteOrder

abbrev Bytes := List UInt8
abbrev Bytes20 := List.Vector UInt8 20
abbrev Bytes32 := List.Vector UInt8 32
abbrev Bytes64 := List.Vector UInt8 64
abbrev SecretKey := Bytes32
abbrev ScriptBuf := Bytes

/-- The hash of a transaction without its witnesses. -/
abbrev Txid := Nat

abbrev BlockHash := Nat

structure OutPoint where
  txid : Txid
  vout : Nat
deriving DecidableEq, Repr

structure TxIn where
  previousOutput : OutPoint
  scriptSig : ScriptBuf
  witness : List Bytes
deriving DecidableEq, Repr

structure TxOut where
  scriptPubkey : ScriptBuf
deriving DecidableEq, Repr

/-- A Bitcoin transaction together with its id, which the `bitcoin` crate computes from
everything but the witnesses. -/
structure Transaction where
  txid : Txid
  input : List TxIn
  output : List TxOut
deriving DecidableEq, Repr

/-- A point of the curve by its compressed form: the parity of `y`, and `x`. -/
structure PublicKey where
  odd : Bool
  x : Bytes32
deriving DecidableEq

namespace PublicKey

def serialize (key : PublicKey) : Bytes :=
  (if key.odd then 3 else 2) :: key.x.toList

@[simp] theorem serialize_length (key : PublicKey) : key.serialize.length = 33 := by
  simp [serialize]

theorem serialize_injective {a b : PublicKey} (same : a.serialize = b.serialize) : a = b := by
  obtain ⟨parityA, xA⟩ := a
  obtain ⟨parityB, xB⟩ := b
  simp only [serialize, List.cons.injEq] at same
  obtain ⟨parity, x⟩ := same
  have sameX : xA = xB := List.Vector.toList_injective x
  have sameParity : parityA = parityB := by
    cases parityA <;> cases parityB <;> simp at parity ⊢
  rw [sameX, sameParity]

end PublicKey

/-- What the node takes from the `bitcoin`, `secp256k1` and `serde_json` crates. -/
structure Primitives where
  sha256 : Bytes → Bytes32
  hash160 : Bytes → Bytes20
  /-- `P + t * G`; `none` when `t` is not a scalar or the sum is the point at infinity. -/
  addExpTweak : PublicKey → Bytes32 → Option PublicKey
  /-- Whether some point of the curve has this compressed form. -/
  isPoint : PublicKey → Bool
  /-- The point of a 65-byte uncompressed (or hybrid) encoding. -/
  parseUncompressed : Bytes → Option PublicKey
  /-- Whether `ecdsa::Signature::from_slice` accepts the bytes. -/
  parsesAsEcdsa : Bytes → Bool
  /-- The output key of a taproot spend info: internal key and optional Merkle root. -/
  tapOutputKey : Bytes32 → Option Bytes32 → Bytes32
  tapLeafHash : ScriptBuf → Bytes32
  /-- Whether a compact ECDSA signature of a message verifies under a key. -/
  verifyEcdsa : Bytes64 → Bytes32 → PublicKey → Bool
  /-- Whether a Schnorr signature of a message verifies under an x-only key. -/
  verifySchnorr : Bytes64 → Bytes32 → Bytes32 → Bool
  publicKeyOf : SecretKey → PublicKey
  /-- The token transaction and the leaf a Spark exit names in its metadata. -/
  parseExitMetadata : Bytes → Option (Bytes32 × UInt32)

/-- `secp256k1::PublicKey::from_slice`. -/
def Primitives.publicKeyFromSlice (prims : Primitives) (bytes : Bytes) : Option PublicKey :=
  if bytes.length = 65 then prims.parseUncompressed bytes
  else match bytes with
    | [] => none
    | tag :: x =>
      if tag = 2 ∨ tag = 3 then
        if length : x.length = 32 then
          let key : PublicKey := ⟨tag == 3, ⟨x, length⟩⟩
          if prims.isPoint key then some key else none
        else none
      else none

variable {prims : Primitives} {key : PublicKey}

theorem Primitives.publicKeyFromSlice_serialize (point : prims.isPoint key) :
    prims.publicKeyFromSlice key.serialize = some key := by
  obtain ⟨odd, x⟩ := key
  unfold Primitives.publicKeyFromSlice
  rw [if_neg (by simp)]
  cases odd with
  | false | true => simp [PublicKey.serialize, point]

/-- A key that is not given in full is given by its compressed form. -/
theorem Primitives.serialize_of_publicKeyFromSlice {bytes : Bytes} (short : bytes.length ≠ 65)
    (parsed : prims.publicKeyFromSlice bytes = some key) : key.serialize = bytes := by
  unfold Primitives.publicKeyFromSlice at parsed
  rw [if_neg short] at parsed
  cases bytes with
  | nil => cases parsed
  | cons tag x =>
    dsimp only at parsed
    split at parsed
    · rename_i compressed
      split at parsed
      · split at parsed
        · cases parsed
          rcases compressed with rfl | rfl <;> rfl
        · cases parsed
      · cases parsed
    · cases parsed

/-- A checksum of a byte string. -/
def checksum (width : Nat) (bytes : Bytes) : Bytes :=
  beBytes width <| bytes.foldl (fun sum byte => (sum * 1000003 + byte.toNat + 1) % 256 ^ width) 0

/-- Stand-ins on which concrete runs are evaluated: checksums for the hash functions,
addition for the tweak, and signatures that spell out the message and the key. -/
def Primitives.plain : Primitives where
  sha256 bytes := ⟨checksum 32 bytes, by simp [checksum]⟩
  hash160 bytes := ⟨checksum 20 bytes, by simp [checksum]⟩
  addExpTweak key tweak := some ⟨key.odd,
    ⟨beBytes 32 (ofBeBytes key.x.toList + ofBeBytes tweak.toList), by simp⟩⟩
  isPoint _ := true
  parseUncompressed _ := none
  parsesAsEcdsa bytes := bytes.head? == some 0x30
  tapOutputKey key root :=
    ⟨checksum 32 (key.toList ++ (root.map List.Vector.toList).getD []), by simp [checksum]⟩
  tapLeafHash script := ⟨checksum 32 (0xc0 :: script), by simp [checksum]⟩
  verifyEcdsa signature message key := signature.toList == message.toList ++ key.x.toList
  verifySchnorr signature message key := signature.toList == message.toList ++ key.toList
  publicKeyOf secret := ⟨false, secret⟩
  parseExitMetadata bytes :=
    if length : (bytes.take 32).length = 32 then
      some (⟨bytes.take 32, length⟩, UInt32.ofNat (ofBeBytes (bytes.drop 32)))
    else none

/-- A key of equal bytes. -/
def PublicKey.repeating (byte : UInt8) : PublicKey := ⟨false, List.Vector.replicate 32 byte⟩

/-- The answers of the Bitcoin node. A failed call ends the handler that makes it, except
where the source goes on. -/
structure BitcoinClient where
  /-- The block a transaction is in, if any. -/
  getRawTransactionInfo : Txid → Except Unit (Option BlockHash)
  getBlockHeaderInfo : BlockHash → Except Unit Unit
  getRawTransaction : Txid → Except Unit Transaction
  /-- An output, when it is not spent. -/
  getTxOut : OutPoint → Except Unit (Option TxOut)

namespace ScriptBuf

def newP2wpkh (hash : Bytes20) : ScriptBuf := 0x00 :: 0x14 :: hash.toList
def newP2wsh (hash : Bytes32) : ScriptBuf := 0x00 :: 0x20 :: hash.toList
def newP2tr (outputKey : Bytes32) : ScriptBuf := 0x51 :: 0x20 :: outputKey.toList
def newP2pkh (hash : Bytes20) : ScriptBuf := [0x76, 0xa9, 0x14] ++ hash.toList ++ [0x88, 0xac]
def newP2sh (hash : Bytes20) : ScriptBuf := [0xa9, 0x14] ++ hash.toList ++ [0x87]

section

variable (script : ScriptBuf)

def isP2wpkh : Bool :=
  script.length == 22 && script.take 2 == [0x00, 0x14]

def isP2wsh : Bool :=
  script.length == 34 && script.take 2 == [0x00, 0x20]

def isP2tr : Bool :=
  script.length == 34 && script.take 2 == [0x51, 0x20]

def isP2pkh : Bool :=
  script.length == 25 && script.take 3 == [0x76, 0xa9, 0x14] && script.drop 23 == [0x88, 0xac]

def isP2sh : Bool :=
  script.length == 23 && script.take 2 == [0xa9, 0x14] && script.drop 22 == [0x87]

def isOpReturn : Bool :=
  script.head? == some 0x6a

end

variable {script : ScriptBuf}

theorem eq_newP2wpkh (recognised : script.isP2wpkh) : ∃ hash, script = newP2wpkh hash := by
  simp only [isP2wpkh, Bool.and_eq_true, beq_iff_eq] at recognised
  obtain ⟨length, front⟩ := recognised
  have split := List.take_append_drop 2 script
  rw [front] at split
  exact ⟨⟨script.drop 2, by simp [length]⟩, split.symm⟩

theorem eq_newP2wsh (recognised : script.isP2wsh) : ∃ hash, script = newP2wsh hash := by
  simp only [isP2wsh, Bool.and_eq_true, beq_iff_eq] at recognised
  obtain ⟨length, front⟩ := recognised
  have split := List.take_append_drop 2 script
  rw [front] at split
  exact ⟨⟨script.drop 2, by simp [length]⟩, split.symm⟩

theorem eq_newP2sh (recognised : script.isP2sh) : ∃ hash, script = newP2sh hash := by
  simp only [isP2sh, Bool.and_eq_true, beq_iff_eq] at recognised
  obtain ⟨⟨length, front⟩, back⟩ := recognised
  have split := List.take_append_drop 2 script
  have rest := List.take_append_drop 20 (script.drop 2)
  rw [List.drop_drop, back] at rest
  rw [front, ← rest] at split
  exact ⟨⟨(script.drop 2).take 20, by simp [length]⟩, split.symm⟩

end ScriptBuf

end Lrc20
