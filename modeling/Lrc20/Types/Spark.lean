import Lrc20.Receipts.Proof

/-! Spark token transactions, their hash, and the signatures over it. -/

open ByteOrder

namespace Lrc20

open PublicKey

abbrev SparkHash := Bytes32

inductive SparkSignature where
  | ecdsa (signature : Bytes64)
  | schnorr (signature : Bytes64)
deriving DecidableEq

structure OperatorSpecificOwnerSignature where
  operatorIdentityPublicKey : Option PublicKey
  ownerSignature : SparkSignature
  inputIndex : Option UInt32
deriving DecidableEq

structure TokenLeafToSpend where
  parentOutputHash : SparkHash
  parentOutputVout : UInt32
deriving DecidableEq

inductive TokenTransactionInput where
  | mint (issuerPublicKey : PublicKey)
      (issuerSignature : Option OperatorSpecificOwnerSignature)
      (issuerProvidedTimestamp : UInt64)
  | transfer (outputsToSpend : List TokenLeafToSpend)
deriving DecidableEq

structure TokenLeafOutput where
  id : String
  ownerPublicKey : PublicKey
  revocationPublicKey : PublicKey
  withdrawalBondSats : UInt64
  withdrawalLocktime : UInt32
  receipt : Receipt
  isFrozen : Option Bool
  withdrawTxid : Option Txid
  withdrawTxVout : Option UInt32
  withdrawHeight : Option UInt32
  withdrawBlockHash : Option BlockHash
deriving DecidableEq

structure TokenTransaction where
  input : TokenTransactionInput
  leavesToCreate : List TokenLeafOutput
  sparkOperatorIdentityPublicKeys : List PublicKey
  network : Option UInt32
deriving DecidableEq

inductive TokenTransactionStatus where
  | started
  | signed
  | finalized
deriving DecidableEq, Repr

structure SparkSignatureLeafData where
  tokenTxLeafIndex : UInt32
  revocationSecret : Option SecretKey
deriving DecidableEq

structure SparkSignatureData where
  operatorSpecificOwnerSignature : Option OperatorSpecificOwnerSignature
  operatorPubkey : PublicKey
  operatorSignature : SparkSignature
  tokenTxHash : SparkHash
  outputsToSpendData : List SparkSignatureLeafData
deriving DecidableEq

def sparkThreshold : Nat := 3

/-- A leaf by its place: the transaction that creates it and its index there. -/
structure SparkOutPoint where
  tokenTransactionHash : SparkHash
  outputIndex : Nat
deriving DecidableEq

def TokenLeafToSpend.outPoint (leaf : TokenLeafToSpend) : SparkOutPoint :=
  ⟨leaf.parentOutputHash, leaf.parentOutputVout.toNat⟩

variable (leaf : TokenLeafOutput)

namespace TokenLeafOutput

def amount : U128 := leaf.receipt.tokenAmount.amount

def tokenPubkey : TokenPubkey := leaf.receipt.tokenPubkey

end TokenLeafOutput

namespace TokenTransaction

/-- The leaves a transfer spends; a mint spends none. -/
def outputsToSpend (tx : TokenTransaction) : List TokenLeafToSpend :=
  match tx.input with
  | .mint _ _ _ => []
  | .transfer outputsToSpend => outputsToSpend

def isMint (tx : TokenTransaction) : Bool :=
  match tx.input with
  | .mint _ _ _ => true
  | .transfer _ => false

/-- The issuer and the timestamp of a mint. -/
def issuance (tx : TokenTransaction) : Option (PublicKey × UInt64) :=
  match tx.input with
  | .mint issuer _ timestamp => some (issuer, timestamp)
  | .transfer _ => none

theorem isMint_eq (tx : TokenTransaction) : tx.isMint = tx.issuance.isSome := by
  unfold isMint issuance
  cases tx.input <;> rfl

theorem input_of_transfer {tx : TokenTransaction} (transfer : ¬ tx.isMint) :
    tx.input = .transfer tx.outputsToSpend := by
  unfold isMint at transfer
  unfold outputsToSpend
  cases input : tx.input with
  | mint issuer signature timestamp => simp [input] at transfer
  | transfer outputsToSpend => rfl

end TokenTransaction

namespace SparkHash

/-- The bytes `hash_token_leaf_to_spend` hashes. -/
def leafToSpendPreimage (leaf : TokenLeafToSpend) : Bytes :=
  leaf.parentOutputHash.toList ++ beBytes 4 leaf.parentOutputVout.toNat

/-- The bytes `hash_token_leaf_output` hashes. -/
def leafOutputPreimage (isPartialHash : Bool) : Bytes :=
  (if isPartialHash then [] else leaf.id.toUTF8.data.toList) ++
  leaf.ownerPublicKey.serialize ++
  (if isPartialHash then []
    else leaf.revocationPublicKey.serialize ++ beBytes 8 leaf.withdrawalBondSats.toNat ++
      beBytes 8 leaf.withdrawalLocktime.toNat) ++
  leaf.tokenPubkey.serialize ++ beBytes 16 leaf.amount.val

def mintPreimage (issuer : PublicKey) (timestamp : UInt64) : Bytes :=
  issuer.serialize ++ leBytes 8 timestamp.toNat

def inputPreimages : TokenTransactionInput → List Bytes
  | .transfer outputsToSpend => outputsToSpend.map leafToSpendPreimage
  | .mint issuer _ timestamp => [mintPreimage issuer timestamp]

/-- The strings hashed one by one, in the order in which their hashes are hashed together.
The operator keys come sorted. -/
def preimages (tx : TokenTransaction) (isPartialHash : Bool) : List Bytes :=
  inputPreimages tx.input ++
  tx.leavesToCreate.map (leafOutputPreimage · isPartialHash) ++
  (tx.sparkOperatorIdentityPublicKeys.insertionSort keyLe).map serialize ++
  tx.network.toList.map fun network => beBytes 4 network.toNat

variable (prims : Primitives)

def preimage (tx : TokenTransaction) (isPartialHash : Bool) : Bytes :=
  ((preimages tx isPartialHash).map fun part => (prims.sha256 part).toList).flatten

def hashTokenTransaction (tx : TokenTransaction) (isPartialHash : Bool) : SparkHash :=
  prims.sha256 (preimage prims tx isPartialHash)

end SparkHash

def TokenTransaction.hash (prims : Primitives) (tx : TokenTransaction) : SparkHash :=
  SparkHash.hashTokenTransaction prims tx false

/-- The fields of a leaf that its hash covers. -/
structure HashedLeaf where
  id : String
  ownerPublicKey : PublicKey
  revocationPublicKey : PublicKey
  withdrawalBondSats : UInt64
  withdrawalLocktime : UInt32
  tokenPubkey : TokenPubkey
  amount : U128
deriving DecidableEq

def TokenLeafOutput.hashed : HashedLeaf where
  id := leaf.id
  ownerPublicKey := leaf.ownerPublicKey
  revocationPublicKey := leaf.revocationPublicKey
  withdrawalBondSats := leaf.withdrawalBondSats
  withdrawalLocktime := leaf.withdrawalLocktime
  tokenPubkey := leaf.tokenPubkey
  amount := leaf.amount

/-- Two transactions agree in everything the hash covers: all but signatures, the order of
the operators, and the state of the leaves. -/
structure TokenTransaction.SameContent (a b : TokenTransaction) : Prop where
  spends : a.outputsToSpend = b.outputsToSpend
  issuance : a.issuance = b.issuance
  leaves : a.leavesToCreate.map TokenLeafOutput.hashed =
    b.leavesToCreate.map TokenLeafOutput.hashed
  operators : a.sparkOperatorIdentityPublicKeys.insertionSort keyLe =
    b.sparkOperatorIdentityPublicKeys.insertionSort keyLe
  network : a.network = b.network

theorem TokenTransaction.SameContent.symm {a b : TokenTransaction} (same : a.SameContent b) :
    b.SameContent a :=
  ⟨same.spends.symm, same.issuance.symm, same.leaves.symm, same.operators.symm, same.network.symm⟩

theorem TokenTransaction.SameContent.trans {a b c : TokenTransaction} (first : a.SameContent b)
    (second : b.SameContent c) : a.SameContent c :=
  ⟨first.spends.trans second.spends, first.issuance.trans second.issuance,
    first.leaves.trans second.leaves, first.operators.trans second.operators,
    first.network.trans second.network⟩

namespace SparkHash

section Injectivity

theorem leafToSpendPreimage_length (leaf : TokenLeafToSpend) :
    (leafToSpendPreimage leaf).length = 36 := by
  simp [leafToSpendPreimage]

theorem mintPreimage_length (issuer : PublicKey) (timestamp : UInt64) :
    (mintPreimage issuer timestamp).length = 41 := by
  simp [mintPreimage]

theorem leafOutputPreimage_length : 131 ≤ (leafOutputPreimage leaf false).length := by
  simp [leafOutputPreimage]

theorem beBytes_uint32_injective {a b : UInt32}
    (same : beBytes 4 a.toNat = beBytes 4 b.toNat) : a = b :=
  UInt32.toNat_inj.mp (beBytes_injective a.toNat_lt b.toNat_lt same)

theorem leafToSpendPreimage_injective : Function.Injective leafToSpendPreimage := by
  rintro ⟨hashA, voutA⟩ ⟨hashB, voutB⟩ same
  obtain ⟨hashes, vouts⟩ := List.append_inj same (by simp)
  have sameHash : hashA = hashB := List.Vector.toList_injective hashes
  have sameVout : voutA = voutB := beBytes_uint32_injective vouts
  rw [sameHash, sameVout]

theorem mintPreimage_injective {issuerA issuerB : PublicKey} {timeA timeB : UInt64}
    (same : mintPreimage issuerA timeA = mintPreimage issuerB timeB) :
    issuerA = issuerB ∧ timeA = timeB := by
  obtain ⟨issuers, times⟩ := List.append_inj same (by simp)
  have read := congrArg ofLeBytes times
  rw [ofLeBytes_leBytes, ofLeBytes_leBytes] at read
  have fits : ∀ time : UInt64, time.toNat % 256 ^ 8 = time.toNat :=
    fun time => Nat.mod_eq_of_lt time.toNat_lt
  rw [fits, fits] at read
  exact ⟨serialize_injective issuers, UInt64.toNat_inj.mp read⟩

/-- The fields behind the id have fixed lengths, so the bytes split in one way. -/
theorem leafOutputPreimage_injective {a b : TokenLeafOutput}
    (same : leafOutputPreimage a false = leafOutputPreimage b false) : a.hashed = b.hashed := by
  simp only [leafOutputPreimage, Bool.false_eq_true, if_false] at same
  obtain ⟨same, amounts⟩ := List.append_inj' same (by simp)
  obtain ⟨same, tokens⟩ := List.append_inj' same (by simp)
  obtain ⟨same, middle⟩ := List.append_inj' same (by simp)
  obtain ⟨ids, owners⟩ := List.append_inj' same (by simp)
  obtain ⟨middle, locktimes⟩ := List.append_inj' middle (by simp)
  obtain ⟨revocations, bonds⟩ := List.append_inj' middle (by simp)
  have sameId : a.id = b.id := String.toByteArray_inj.mp (ByteArray.ext (Array.toList_inj.mp ids))
  have sameBond : a.withdrawalBondSats = b.withdrawalBondSats :=
    UInt64.toNat_inj.mp (beBytes_injective (UInt64.toNat_lt _) (UInt64.toNat_lt _) bonds)
  have wide : ∀ time : UInt32, time.toNat < 256 ^ 8 := fun time =>
    lt_trans time.toNat_lt (by decide)
  have sameLocktime : a.withdrawalLocktime = b.withdrawalLocktime :=
    UInt32.toNat_inj.mp (beBytes_injective (wide _) (wide _) locktimes)
  have narrow : ∀ amount : U128, amount.val < 256 ^ 16 := fun amount =>
    lt_of_lt_of_eq amount.isLt (by norm_num)
  have sameAmount : a.amount = b.amount := Fin.ext (beBytes_injective (narrow _) (narrow _) amounts)
  simp only [TokenLeafOutput.hashed, sameId, sameBond, sameLocktime, sameAmount,
    serialize_injective owners, serialize_injective revocations,
    serialize_injective tokens]

theorem toList_injective {α : Type} {a b : Option α} (same : a.toList = b.toList) : a = b := by
  cases a <;> cases b <;> simp_all

/-- Strings of one length are kept or dropped together. -/
theorem filter_map_uniform {α : Type} (keep : Nat → Bool) (encode : α → Bytes) {length : Nat}
    (uniform : ∀ value, (encode value).length = length) (values : List α) :
    (values.map encode).filter (fun part => keep part.length) =
      if keep length then values.map encode else [] := by
  rw [List.filter_map]
  simp only [Function.comp_def, uniform]
  cases keep length <;> simp

theorem filter_preimages (tx : TokenTransaction) (keep : Nat → Bool) :
    (preimages tx false).filter (fun part => keep part.length) =
      (if keep 36 then tx.outputsToSpend.map leafToSpendPreimage else []) ++
      (if keep 41 then tx.issuance.toList.map fun mint => mintPreimage mint.1 mint.2 else []) ++
      (tx.leavesToCreate.map (leafOutputPreimage · false)).filter (fun part => keep part.length) ++
      (if keep 33 then
        (tx.sparkOperatorIdentityPublicKeys.insertionSort keyLe).map serialize
        else []) ++
      (if keep 4 then tx.network.toList.map fun network => beBytes 4 network.toNat else []) := by
  have inputs : inputPreimages tx.input = tx.outputsToSpend.map leafToSpendPreimage ++
      tx.issuance.toList.map fun mint => mintPreimage mint.1 mint.2 := by
    cases kind : tx.input <;>
      simp [inputPreimages, TokenTransaction.outputsToSpend, TokenTransaction.issuance, kind]
  rw [preimages, inputs, List.filter_append, List.filter_append, List.filter_append,
    List.filter_append, filter_map_uniform keep leafToSpendPreimage leafToSpendPreimage_length,
    filter_map_uniform keep (fun mint : PublicKey × UInt64 => mintPreimage mint.1 mint.2)
      (fun mint => mintPreimage_length mint.1 mint.2),
    filter_map_uniform keep serialize serialize_length,
    filter_map_uniform keep (fun network : UInt32 => beBytes 4 network.toNat)
      (fun network => beBytes_length 4 network.toNat)]

theorem filter_leaves_short (tx : TokenTransaction) {length : Nat} (short : length < 131) :
    (tx.leavesToCreate.map (leafOutputPreimage · false)).filter
      (fun part => part.length == length) = [] := by
  apply List.filter_eq_nil_iff.mpr
  intro part mem
  obtain ⟨leaf, -, rfl⟩ := List.mem_map.mp mem
  have long := leafOutputPreimage_length leaf
  simp only [beq_iff_eq]
  omega

theorem filter_leaves_long (tx : TokenTransaction) :
    (tx.leavesToCreate.map (leafOutputPreimage · false)).filter
      (fun part => decide (131 ≤ part.length)) =
      tx.leavesToCreate.map (leafOutputPreimage · false) := by
  apply List.filter_eq_self.mpr
  intro part mem
  obtain ⟨leaf, -, rfl⟩ := List.mem_map.mp mem
  exact decide_eq_true (leafOutputPreimage_length leaf)

variable {a b : TokenTransaction}

/-- The parts of a transaction are told apart by their lengths. -/
theorem sameContent_of_preimages (same : preimages a false = preimages b false) :
    a.SameContent b := by
  have select := fun keep : Nat → Bool =>
    congrArg (List.filter fun part => keep part.length) same
  simp only [filter_preimages] at select
  have spends := select (· == 36)
  have mints := select (· == 41)
  have operators := select (· == 33)
  have networks := select (· == 4)
  have leaves := select fun length => decide (131 ≤ length)
  simp [filter_leaves_short] at spends mints operators networks
  simp [filter_leaves_long] at leaves
  constructor
  case spends => exact List.map_injective_iff.mpr leafToSpendPreimage_injective spends
  case issuance =>
    apply toList_injective
    apply List.map_injective_iff.mpr _ mints
    intro mintA mintB sameMint
    obtain ⟨issuers, times⟩ := mintPreimage_injective sameMint
    exact Prod.ext issuers times
  case leaves =>
    exact map_eq_map_of_determined (fun _ _ _ _ => leafOutputPreimage_injective) leaves
  case operators =>
    exact List.map_injective_iff.mpr (fun _ _ => serialize_injective) operators
  case network =>
    apply toList_injective
    exact List.map_injective_iff.mpr (fun _ _ => beBytes_uint32_injective) networks

theorem preimages_of_sameContent (same : a.SameContent b) :
    preimages a false = preimages b false := by
  have inputs : ∀ tx : TokenTransaction, inputPreimages tx.input =
      tx.outputsToSpend.map leafToSpendPreimage ++
      tx.issuance.toList.map fun mint => mintPreimage mint.1 mint.2 := by
    intro tx
    cases kind : tx.input <;>
      simp [inputPreimages, TokenTransaction.outputsToSpend, TokenTransaction.issuance, kind]
  have leaves : ∀ tx : TokenTransaction, tx.leavesToCreate.map (leafOutputPreimage · false) =
      (tx.leavesToCreate.map TokenLeafOutput.hashed).map fun leaf =>
        leaf.id.toUTF8.data.toList ++ leaf.ownerPublicKey.serialize ++
        (leaf.revocationPublicKey.serialize ++ beBytes 8 leaf.withdrawalBondSats.toNat ++
          beBytes 8 leaf.withdrawalLocktime.toNat) ++
        leaf.tokenPubkey.serialize ++ beBytes 16 leaf.amount.val := by
    intro tx
    rw [List.map_map]
    rfl
  unfold preimages
  rw [inputs a, inputs b, leaves a, leaves b, same.spends, same.issuance, same.leaves,
    same.operators, same.network]

variable {prims : Primitives} {hashed : Set Bytes}

theorem hash_of_sameContent (same : a.SameContent b) : a.hash prims = b.hash prims := by
  unfold TokenTransaction.hash hashTokenTransaction preimage
  rw [preimages_of_sameContent same]

/-- Every string that computing the hash of a transaction hashes is in the set. -/
def Within (prims : Primitives) (hashed : Set Bytes) (tx : TokenTransaction) : Prop :=
  preimage prims tx false ∈ hashed ∧ ∀ part ∈ preimages tx false, part ∈ hashed

theorem within_of_sameContent (same : a.SameContent b) (within : Within prims hashed b) :
    Within prims hashed a := by
  unfold Within preimage at *
  rw [preimages_of_sameContent same]
  exact within

/-- Where `sha256` has no collision, the hash of a transaction determines its content. -/
theorem sameContent_of_hash (collisionFree : Set.InjOn prims.sha256 hashed)
    (aWithin : Within prims hashed a) (bWithin : Within prims hashed b)
    (same : a.hash prims = b.hash prims) : a.SameContent b := by
  have outer : preimage prims a false = preimage prims b false :=
    collisionFree aWithin.1 bWithin.1 same
  have chunks := flatten_injective (show 0 < 32 by decide) (by simp) (by simp) outer
  apply sameContent_of_preimages
  have parts := map_eq_map_of_determined (g := id)
    (fun x xMem y yMem hashes => collisionFree (aWithin.2 x xMem) (bWithin.2 y yMem)
      (List.Vector.toList_injective hashes)) chunks
  simpa using parts

/-- The strings hashed for a transaction: its parts, and their hashes put together. -/
def hashedStrings (prims : Primitives) (tx : TokenTransaction) : List Bytes :=
  preimage prims tx false :: preimages tx false

/-- Where `sha256` has no collision among the strings hashed for them, two transactions with
one hash differ in signatures, in the order of the operators and in the state of the leaves
only. -/
theorem content_of_hashTokenTransaction (prims : Primitives) (t u : TokenTransaction)
    (collisionFree : Set.InjOn prims.sha256
      {part | part ∈ hashedStrings prims t ++ hashedStrings prims u})
    (same : hashTokenTransaction prims t false = hashTokenTransaction prims u false) :
    (t.isMint = u.isMint ∧ t.outputsToSpend = u.outputsToSpend ∧ t.issuance = u.issuance) ∧
    t.leavesToCreate.map TokenLeafOutput.hashed = u.leavesToCreate.map TokenLeafOutput.hashed ∧
    t.sparkOperatorIdentityPublicKeys.Perm u.sparkOperatorIdentityPublicKeys ∧
    t.network = u.network := by
  have within : ∀ tx, (∀ part ∈ hashedStrings prims tx,
      part ∈ hashedStrings prims t ++ hashedStrings prims u) →
      Within prims {part | part ∈ hashedStrings prims t ++ hashedStrings prims u} tx := by
    intro tx all
    refine ⟨all _ List.mem_cons_self, ?_⟩
    intro part mem
    exact all part (List.mem_cons_of_mem _ mem)
  have content := sameContent_of_hash collisionFree
    (within t fun part mem => List.mem_append_left _ mem)
    (within u fun part mem => List.mem_append_right _ mem) same
  have kind : t.isMint = u.isMint := by
    rw [TokenTransaction.isMint_eq, TokenTransaction.isMint_eq, content.issuance]
  have operators : t.sparkOperatorIdentityPublicKeys.Perm u.sparkOperatorIdentityPublicKeys := by
    have sorted := List.perm_insertionSort keyLe t.sparkOperatorIdentityPublicKeys
    rw [content.operators] at sorted
    exact sorted.symm.trans (List.perm_insertionSort keyLe u.sparkOperatorIdentityPublicKeys)
  exact ⟨⟨kind, content.spends, content.issuance⟩, content.leaves, operators, content.network⟩

end Injectivity

end SparkHash

namespace SparkSignature

variable (prims : Primitives)

/-- `bytes`: the kind of the signature is not part of them. -/
def bytes : SparkSignature → Bytes64
  | ecdsa signature => signature
  | schnorr signature => signature

/-- The digest a signature meant for one operator is over. -/
def operatorSpecificMessage (message : Bytes32) (operator : PublicKey) : Bytes32 :=
  prims.sha256 ((prims.sha256 message.toList).toList ++ (prims.sha256 operator.serialize).toList)

def verify (signature : SparkSignature) (pubkey : PublicKey) (message : Bytes32)
    (operatorIdentityPublicKey : Option PublicKey) : Bool :=
  let signed := match operatorIdentityPublicKey with
    | some operator => operatorSpecificMessage prims message operator
    | none => message
  match signature with
  | ecdsa signature => prims.verifyEcdsa signature signed pubkey
  | schnorr signature => prims.verifySchnorr signature signed pubkey.x

end SparkSignature

/-- An order of the issuer to freeze or unfreeze the leaves of one owner. -/
structure TokensFreezeData where
  operatorIdentityPublicKey : PublicKey
  ownerPublicKey : PublicKey
  tokenPublicKey : TokenPubkey
  shouldUnfreeze : Bool
  issuerSignature : SparkSignature
  timestamp : UInt64
deriving DecidableEq

namespace TokensFreezeData

variable (prims : Primitives) (data : TokensFreezeData)

/-- The fields that are hashed, in order. `should_unfreeze` is not among them. -/
def hashedFields : List Bytes :=
  [data.ownerPublicKey.serialize, data.tokenPublicKey.serialize,
    leBytes 8 data.timestamp.toNat, data.operatorIdentityPublicKey.serialize]

def preimage : Bytes :=
  (data.hashedFields.map fun field => (prims.sha256 field).toList).flatten

def hash : Bytes32 := prims.sha256 (data.preimage prims)

/-- All strings that are hashed for the order. -/
def hashedStrings : List Bytes := data.preimage prims :: data.hashedFields

end TokensFreezeData

/-! ### Transactions of concrete runs -/

/-- The signature that `Primitives.plain` accepts. -/
def SparkSignature.plain (message : Bytes32) (key : PublicKey) : SparkSignature :=
  .ecdsa ⟨message.toList ++ key.x.toList, by simp⟩

/-- A leaf of the token with key 1, owned by key 2 and revocable by key 3. -/
def plainLeaf (id : String) (amount : U128) : TokenLeafOutput :=
  ⟨id, .repeating 2, .repeating 3, 10000, 100, ⟨TokenAmount.new amount, .repeating 1⟩,
    none, none, none, none, none⟩

/-- A transaction of the operators 4, 5 and 6. -/
def plainTransaction (input : TokenTransactionInput) (leaves : List TokenLeafOutput) :
    TokenTransaction :=
  ⟨input, leaves, [.repeating 4, .repeating 5, .repeating 6], some 0⟩

/-- A mint of one leaf, signed by its issuer. -/
def plainMint (id : String) (amount : U128) : TokenTransaction :=
  let unsigned := plainTransaction (.mint (.repeating 1) none 0) [plainLeaf id amount]
  let signature := SparkSignature.plain (unsigned.hash .plain) (.repeating 1)
  plainTransaction (.mint (.repeating 1) (some ⟨none, signature, none⟩) 0) [plainLeaf id amount]

/-- The mint without its signature, with the operators in another order and a frozen leaf. -/
def unsignedMint (id : String) (amount : U128) : TokenTransaction :=
  ⟨.mint (.repeating 1) none 0, [{ plainLeaf id amount with isFrozen := some true }],
    [.repeating 6, .repeating 4, .repeating 5], some 0⟩

theorem content_of_unsignedMint : (plainMint "a" 5).hash .plain = (unsignedMint "a" 5).hash .plain ∧
    (plainMint "a" 5).leavesToCreate.map TokenLeafOutput.hashed =
      (unsignedMint "a" 5).leavesToCreate.map TokenLeafOutput.hashed ∧
    (plainMint "a" 5).sparkOperatorIdentityPublicKeys.Perm
      (unsignedMint "a" 5).sparkOperatorIdentityPublicKeys := by
  have same : (plainMint "a" 5).hash .plain = (unsignedMint "a" 5).hash .plain := by
    decide +kernel
  have distinct : ∀ x ∈ SparkHash.hashedStrings .plain (plainMint "a" 5) ++
        SparkHash.hashedStrings .plain (unsignedMint "a" 5),
      ∀ y ∈ SparkHash.hashedStrings .plain (plainMint "a" 5) ++
        SparkHash.hashedStrings .plain (unsignedMint "a" 5),
      Primitives.plain.sha256 x = Primitives.plain.sha256 y → x = y := by
    decide +kernel
  have content := SparkHash.content_of_hashTokenTransaction .plain (plainMint "a" 5)
    (unsignedMint "a" 5) (fun x xMem y yMem => distinct x xMem y yMem) same
  exact ⟨same, content.2.1, content.2.2.1⟩

/-- A transfer of the first leaf of another transaction. -/
def plainTransfer (parent : TokenTransaction) (id : String) (amount : U128) : TokenTransaction :=
  plainTransaction (.transfer [⟨parent.hash .plain, 0⟩]) [plainLeaf id amount]

/-- A signed mint and a transfer of its leaf. -/
def mintAndTransfer : List TokenTransaction :=
  [plainMint "a" 5, plainTransfer (plainMint "a" 5) "b" 5]

/-- The signature of an operator, with the secret of key 3 for the first input. -/
def plainSignatureData (tx : TokenTransaction) (operator : PublicKey) : SparkSignatureData where
  operatorSpecificOwnerSignature := none
  operatorPubkey := operator
  operatorSignature := SparkSignature.plain (tx.hash .plain) operator
  tokenTxHash := tx.hash .plain
  outputsToSpendData := [⟨0, some (repeating 3).x⟩]

/-- The strings hashed for the given transactions. -/
def hashedFor (txs : List TokenTransaction) : List Bytes :=
  txs.flatMap fun tx => SparkHash.preimage .plain tx false :: SparkHash.preimages tx false

theorem within_hashedFor {txs : List TokenTransaction} {tx : TokenTransaction} (mem : tx ∈ txs) :
    SparkHash.Within .plain {part | part ∈ hashedFor txs} tx := by
  constructor
  · exact List.mem_flatMap.mpr ⟨tx, mem, List.mem_cons_self⟩
  · intro part partMem
    exact List.mem_flatMap.mpr ⟨tx, mem, List.mem_cons_of_mem _ partMem⟩

end Lrc20
