import Lrc20.Lib.Outcome
import Lrc20.Receipts.Bulletproof

open Script Outcome

namespace Lrc20

open ScriptBuf PublicKey MultisigReceiptProof

/-- What an output script pays to: the hash of a key, the hash of a redeem script, a taproot
key without leaves, or one over a single leaf. -/
inductive Lock where
  | wpkh (key : PublicKey)
  | wsh (redeemScript : ScriptBuf)
  | keyPath (x : Bytes32)
  | leafPath (internal : Bytes32) (leaf : ScriptBuf)
deriving DecidableEq

namespace Lock

variable (prims : Primitives) {locks : List Lock}

/-- The internal key and the Merkle root of a taproot lock. -/
def spendInfo : Lock → Option (Bytes32 × Option Bytes32)
  | keyPath x => some (x, none)
  | leafPath internal leaf => some (internal, some (prims.tapLeafHash leaf))
  | _ => none

def script : Lock → ScriptBuf
  | wpkh key => prims.toP2wpkh key
  | wsh redeemScript => prims.toP2wsh redeemScript
  | keyPath x => newP2tr (prims.tapOutputKey x none)
  | leafPath internal leaf =>
    newP2tr (prims.tapOutputKey internal (some (prims.tapLeafHash leaf)))

/-- The `x` coordinate of the key a lock makes its spender show: of a redeem script its first
key, of a leaf the key its last check is against. -/
inductive Shows : Lock → Bytes32 → Prop
  | wpkh (key : PublicKey) : Shows (.wpkh key) key.x
  | wsh {redeemScript : ScriptBuf} {key : PublicKey}
      (first : firstPubkey (instructions redeemScript) = some key.serialize) :
      Shows (.wsh redeemScript) key.x
  | keyPath (x : Bytes32) : Shows (.keyPath x) x
  | leafPath (internal : Bytes32) (before : ScriptBuf) (x : Bytes32) :
      Shows (.leafPath internal (before ++ (pushSlice x.toList ++ [OP_CHECKSIG]))) x

theorem shows_unique {lock : Lock} {x y : Bytes32} (showsX : lock.Shows x)
    (showsY : lock.Shows y) : x = y := by
  cases showsX with
  | wpkh | keyPath => cases showsY; rfl
  | @wsh redeemScript key first =>
    cases showsY with
    | @wsh _ key' first' =>
      rw [first, Option.some.injEq] at first'
      rw [serialize_injective first']
  | leafPath internal before x =>
    generalize leafEq : before ++ (pushSlice x.toList ++ [OP_CHECKSIG]) = leaf at showsY
    cases showsY with
    | leafPath _ before' _ =>
      have lengths : (pushSlice x.toList ++ [OP_CHECKSIG]).length =
          (pushSlice y.toList ++ [OP_CHECKSIG]).length := by simp [pushSlice]
      obtain ⟨-, tails⟩ := List.append_inj' leafEq lengths
      have pushes := List.append_cancel_right tails
      simp only [pushSlice, List.Vector.toList_length, show (32 : Nat) < 0x4c by decide,
        if_true, List.cons.injEq] at pushes
      exact List.Vector.toList_injective pushes.2

/-- No two of these locks share a hash, a leaf hash or an output key. -/
structure Binding (locks : List Lock) : Prop where
  sha256 : Set.InjOn prims.sha256 {script | .wsh script ∈ locks}
  hash160 : Set.InjOn prims.hash160 {bytes | ∃ key, .wpkh key ∈ locks ∧ bytes = key.serialize}
  tapLeafHash : Set.InjOn prims.tapLeafHash {leaf | ∃ internal, .leafPath internal leaf ∈ locks}
  tapOutputKey : Set.InjOn (fun info : Bytes32 × Option Bytes32 => prims.tapOutputKey info.1 info.2)
    {info | ∃ lock ∈ locks, lock.spendInfo prims = some info}

def leaf : Lock → Option ScriptBuf
  | leafPath _ leaf => some leaf
  | _ => none

/-- Locks that are told apart by their scripts and by the hashes of their leaves. -/
theorem binding_of_scripts
    (scripts : ∀ a ∈ locks, ∀ b ∈ locks, a.script prims = b.script prims → a = b)
    (leaves : ∀ a ∈ locks.filterMap leaf, ∀ b ∈ locks.filterMap leaf,
      prims.tapLeafHash a = prims.tapLeafHash b → a = b) : Binding prims locks where
  sha256 a aMem b bMem same := by
    have locks := scripts _ aMem _ bMem (congrArg newP2wsh same)
    exact Lock.wsh.inj locks
  hash160 := by
    rintro _ ⟨keyA, aMem, rfl⟩ _ ⟨keyB, bMem, rfl⟩ same
    have locks := scripts _ aMem _ bMem (congrArg newP2wpkh same)
    rw [Lock.wpkh.inj locks]
  tapLeafHash := by
    rintro a ⟨internalA, aMem⟩ b ⟨internalB, bMem⟩ same
    exact leaves a (List.mem_filterMap.mpr ⟨_, aMem, rfl⟩) b (List.mem_filterMap.mpr ⟨_, bMem, rfl⟩)
      same
  tapOutputKey := by
    rintro infoA ⟨lockA, aMem, foundA⟩ infoB ⟨lockB, bMem, foundB⟩ same
    have pays : ∀ {lock : Lock} {info : Bytes32 × Option Bytes32},
        lock.spendInfo prims = some info →
        lock.script prims = newP2tr (prims.tapOutputKey info.1 info.2) := by
      intro lock info found
      cases lock <;> cases found <;> rfl
    have locks := scripts lockA aMem lockB bMem
      ((pays foundA).trans ((congrArg newP2tr same).trans (pays foundB).symm))
    rw [locks] at foundA
    exact Option.some.inj (foundA.symm.trans foundB)

/-- The version and push opcodes an output script of this kind starts with. -/
def tag : Lock → Bytes
  | wpkh _ => [0x00, 0x14]
  | wsh _ => [0x00, 0x20]
  | keyPath _ => [0x51, 0x20]
  | leafPath _ _ => [0x51, 0x20]

def program : Lock → Bytes
  | wpkh key => (prims.hash160 key.serialize).toList
  | wsh redeemScript => (prims.sha256 redeemScript).toList
  | keyPath x => (prims.tapOutputKey x none).toList
  | leafPath internal leaf => (prims.tapOutputKey internal (some (prims.tapLeafHash leaf))).toList

theorem script_eq_program (lock : Lock) : lock.script prims = lock.tag ++ lock.program prims := by
  cases lock <;> rfl

/-- Scripts of different kinds differ in their first bytes, and scripts of one kind are told
apart by what they hash. -/
theorem script_injective (binding : Binding prims locks) {a b : Lock} (aMem : a ∈ locks)
    (bMem : b ∈ locks) (same : a.script prims = b.script prims) : a = b := by
  rw [script_eq_program, script_eq_program] at same
  have width : a.tag.length = b.tag.length := by cases a <;> cases b <;> rfl
  obtain ⟨tags, programs⟩ := List.append_inj same width
  have infos : ∀ infoA infoB, a.spendInfo prims = some infoA → b.spendInfo prims = some infoB →
      prims.tapOutputKey infoA.1 infoA.2 = prims.tapOutputKey infoB.1 infoB.2 → infoA = infoB :=
    fun _ _ foundA foundB => binding.tapOutputKey ⟨a, aMem, foundA⟩ ⟨b, bMem, foundB⟩
  cases a <;> cases b <;> simp [tag] at tags
  case wpkh.wpkh keyA keyB =>
    have keys := binding.hash160 ⟨keyA, aMem, rfl⟩ ⟨keyB, bMem, rfl⟩
      (List.Vector.toList_injective programs)
    rw [serialize_injective keys]
  case wsh.wsh =>
    rw [binding.sha256 aMem bMem (List.Vector.toList_injective programs)]
  case keyPath.keyPath =>
    have info := infos _ _ rfl rfl (List.Vector.toList_injective programs)
    simpa using info
  case keyPath.leafPath =>
    cases infos _ _ rfl rfl (List.Vector.toList_injective programs)
  case leafPath.keyPath =>
    cases infos _ _ rfl rfl (List.Vector.toList_injective programs)
  case leafPath.leafPath internalA leafA internalB leafB =>
    have info := infos _ _ rfl rfl (List.Vector.toList_injective programs)
    simp only [Prod.mk.injEq, Option.some.injEq] at info
    rw [info.1, binding.tapLeafHash ⟨internalA, aMem⟩ ⟨internalB, bMem⟩ info.2]

end Lock

section FirstKey

theorem firstPubkey_op {code : UInt8} (notPush : pushLength code = fun _ => none) (rest : Bytes) :
    firstPubkey (instructions (code :: rest)) = firstPubkey (instructions rest) := by
  rw [instructions_op notPush, firstPubkey]

theorem firstPubkey_key (key : PublicKey) (rest : Bytes) :
    firstPubkey (instructions (pushSlice key.serialize ++ rest)) = some key.serialize := by
  have keyLike : isPubkey key.serialize = true := by
    cases parity : key.odd <;> simp [isPubkey, serialize, parity]
  rw [instructions_pushSlice (by simp), firstPubkey, if_pos keyLike]

theorem firstPubkey_short {data : Bytes} (short : data.length < 33) (rest : Bytes) :
    firstPubkey (instructions (pushSlice data ++ rest)) = firstPubkey (instructions rest) := by
  have notKey : ¬ isPubkey data = true := by
    simp only [isPubkey, Bool.and_eq_true, beq_iff_eq]
    omega
  rw [instructions_pushSlice (by omega), firstPubkey, if_neg notKey]

theorem firstPubkey_int (value : Nat) (rest : Bytes) :
    firstPubkey (instructions (pushInt value ++ rest)) = firstPubkey (instructions rest) := by
  obtain ⟨item, parsed, short⟩ := instructions_pushInt value rest
  rw [parsed]
  cases item with
  | op code => rw [firstPubkey]
  | pushBytes data =>
    have notKey : ¬ isPubkey data = true := by
      have length := short data rfl
      simp only [isPubkey, Bool.and_eq_true, beq_iff_eq]
      omega
    rw [firstPubkey, if_neg notKey]

theorem pushSmallint_eq_pushInt {n : UInt8} {pushed : Bytes} (accepted : pushSmallint n = .ok pushed) :
    pushed = pushInt n.toNat := by
  unfold pushSmallint at accepted
  split at accepted
  · rename_i small
    have range : 1 ≤ n.toNat ∧ n.toNat ≤ 16 := small
    have opcode : (0x50 : UInt8) + n = UInt8.ofNat (0x50 + n.toNat) := by
      rw [UInt8.ofNat_add, UInt8.ofNat_toNat]
      rfl
    simp only [Except.ok.injEq] at accepted
    rw [← accepted, pushInt, if_neg (by omega), if_pos range.2, opcode]
  · cases accepted

theorem firstPubkey_multisigScript {m : UInt8} {key : PublicKey} {others : List PublicKey}
    {script : ScriptBuf} (built : multisigScript m (key :: others) = .ok script) :
    firstPubkey (instructions script) = some key.serialize := by
  simp only [multisigScript, bind_eq_ok, pure_eq_ok] at built
  obtain ⟨count, counted, threshold, -, rfl⟩ := built
  rw [pushSmallint_eq_pushInt counted, List.flatMap_cons]
  simp only [List.append_assoc]
  rw [firstPubkey_int, firstPubkey_key]

theorem firstPubkey_toLocal (script : ToLocalScript) :
    firstPubkey (instructions script.toScript) = some script.revocationPubkey.serialize := by
  unfold ToLocalScript.toScript
  simp only [List.append_assoc, List.cons_append, List.nil_append]
  rw [firstPubkey_op rfl, firstPubkey_key]

theorem firstPubkey_htlc (data : LightningHtlcData) :
    firstPubkey (instructions data.toScript) = some data.remoteHtlcKey.serialize := by
  unfold LightningHtlcData.toScript
  simp only [List.append_assoc, List.cons_append, List.nil_append]
  rw [firstPubkey_op rfl, firstPubkey_op rfl, firstPubkey_short (by simp), firstPubkey_op rfl,
    firstPubkey_op rfl, firstPubkey_op rfl, firstPubkey_op rfl, firstPubkey_key]

end FirstKey

/-- The inner key a proof tweaks by its receipt, and the lock it puts the tweaked key in. -/
def ReceiptProof.opening (prims : Primitives) : ReceiptProof → Except ProofError (PublicKey × Lock)
  | sig proof =>
    match proof.receiptKey prims with
    | none => .error .receiptKey
    | some key => .ok (proof.innerKey, .wpkh key)
  | emptyReceipt proof =>
    match prims.tweak proof.innerKey Receipt.empty with
    | none => .error .receiptKey
    | some key => .ok (proof.innerKey, .wpkh key)
  | multisig proof =>
    match proof.innerKeys.insertionSort keyLe with
    | [] => .error .invalidNumberOfInnerKeys
    | first :: _ => do
        let redeemScript ← proof.createMultisigRedeemScript prims
        return (first, .wsh redeemScript)
  | lightning proof => do
      let redeemScript ← proof.toRedeemScript prims
      return (proof.data.revocationPubkey, .wsh redeemScript.toScript)
  | lightningHtlc proof => do
      let redeemScript ← proof.toScript prims
      return (proof.data.remoteHtlcKey, .wsh redeemScript)
  | p2wsh proof => do
      proof.checkPubkey prims
      return (proof.innerKey, .wsh proof.script)
  | p2tr proof =>
    match prims.receiptKey (prims.receiptHash proof.receipt proof.metadata) proof.innerKey with
    | none => .error .receiptKey
    | some key => .ok (proof.innerKey, .keyPath key.x)
  | sparkExit proof => do
      let leaf ← proof.timelockScript prims
      return (proof.script.delayKey, .leafPath proof.script.revocationKey.x leaf)

/-- The lock shows the inner key tweaked by the receipt. -/
def Opens (prims : Primitives) (receipt : Receipt) (metadata : Option Metadata)
    (innerKey : PublicKey) (lock : Lock) : Prop :=
  ∃ key, prims.receiptKey (prims.receiptHash receipt metadata) innerKey = some key ∧
    lock.Shows key.x

namespace ReceiptProof

variable {prims : Primitives} {proof : ReceiptProof} {innerKey : PublicKey} {lock : Lock}

/-- Whatever the kind of a proof, its lock shows its inner key tweaked by its receipt. -/
theorem opens_of_opening (opened : proof.opening prims = .ok (innerKey, lock)) :
    Opens prims proof.receipt proof.metadata innerKey lock := by
  cases proof with
  | sig | emptyReceipt =>
    simp only [opening] at opened
    split at opened <;> cases opened
    rename_i key tweaked
    exact ⟨key, tweaked, .wpkh key⟩
  | multisig proof =>
    simp only [opening] at opened
    split at opened
    · cases opened
    · rename_i first others sorted
      obtain ⟨script, created, ⟨⟩⟩ := bind_eq_ok.mp opened
      obtain ⟨keys, found, built⟩ := bind_eq_ok.mp created
      obtain ⟨_, _, key, same, tweaked, rfl⟩ := sortAndTweakKeys_eq_ok.mp found
      obtain ⟨rfl, rfl⟩ := List.cons.inj (sorted.symm.trans same)
      exact ⟨key, tweaked, .wsh (firstPubkey_multisigScript built)⟩
  | lightning proof =>
    obtain ⟨script, found, ⟨⟩⟩ := bind_eq_ok.mp opened
    simp only [LightningCommitmentProof.toRedeemScript] at found
    split at found <;> cases found
    rename_i key tweaked
    exact ⟨key, tweaked, .wsh (firstPubkey_toLocal _)⟩
  | lightningHtlc proof =>
    obtain ⟨script, found, ⟨⟩⟩ := bind_eq_ok.mp opened
    simp only [LightningHtlcProof.toScript] at found
    split at found <;> cases found
    rename_i key tweaked
    exact ⟨key, tweaked, .wsh (firstPubkey_htlc _)⟩
  | p2wsh proof =>
    obtain ⟨_, checked, ⟨⟩⟩ := bind_eq_ok.mp opened
    unfold P2WSHProof.checkPubkey at checked
    split at checked
    · cases checked
    · rename_i key tweaked
      split at checked
      · cases checked
      · rename_i bytes first
        rw [(ite_eq_ok.mp checked).1] at first
        exact ⟨key, tweaked, .wsh first⟩
  | p2tr proof =>
    simp only [opening] at opened
    split at opened <;> cases opened
    rename_i key tweaked
    exact ⟨key, tweaked, .keyPath key.x⟩
  | sparkExit proof =>
    obtain ⟨leaf, found, ⟨⟩⟩ := bind_eq_ok.mp opened
    unfold SparkExitProof.timelockScript at found
    split at found
    · cases found
    · rename_i key tweaked
      obtain ⟨-, rfl⟩ := ite_eq_ok.mp found
      rw [List.append_assoc]
      exact ⟨key, tweaked, .leafPath _ _ _⟩

end ReceiptProof

theorem MultisigReceiptProof.opening_of_created {prims : Primitives} {proof : MultisigReceiptProof}
    {redeemScript : ScriptBuf} (built : proof.createMultisigRedeemScript prims = .ok redeemScript) :
    ∃ first, (ReceiptProof.multisig proof).opening prims = .ok (first, .wsh redeemScript) := by
  obtain ⟨keys, found, -⟩ := bind_eq_ok.mp built
  obtain ⟨first, others, key, sorted, -, -⟩ := sortAndTweakKeys_eq_ok.mp found
  refine ⟨first, ?_⟩
  simp only [ReceiptProof.opening, sorted, built]
  rfl

section Outputs

variable {prims : Primitives} {txout : TxOut}

theorem instructions_newP2wsh (hash : Bytes32) :
    instructions (newP2wsh hash) = [.ok (.pushBytes []), .ok (.pushBytes hash.toList)] := by
  have version := @instructions_pushSlice [] (by decide) (0x20 :: hash.toList)
  have pushed := @instructions_pushSlice hash.toList (by simp) []
  have push : pushSlice hash.toList = 0x20 :: hash.toList := by simp [pushSlice]
  rw [List.append_nil, push, instructions_nil] at pushed
  rw [pushed] at version
  exact version

/-- Comparing the hash pushed by a P2WSH output is comparing the script. -/
theorem LightningHtlcProof.script_of_checkedCheckByOutput {proof : LightningHtlcProof}
    (accepted : proof.checkedCheckByOutput prims txout = .ok ()) :
    ∃ redeemScript, proof.toScript prims = .ok redeemScript ∧
      txout.scriptPubkey = prims.toP2wsh redeemScript := by
  obtain ⟨redeemScript, built, checked⟩ := bind_eq_ok.mp accepted
  refine ⟨redeemScript, built, ?_⟩
  by_cases kind : txout.scriptPubkey.isP2wsh = true
  · obtain ⟨hash, isHash⟩ := eq_newP2wsh kind
    rw [if_pos kind, isHash, instructions_newP2wsh] at checked
    simp only [List.getLast?_cons_cons, List.getLast?_singleton, List.Vector.toList_length,
      if_true, ite_eq_ok] at checked
    rw [isHash, ← List.Vector.toList_injective checked.1]
    rfl
  · simp [kind] at checked

end Outputs

namespace ReceiptProof

variable {prims : Primitives} {proof : ReceiptProof}

/-- An accepted output pays to the proof's lock. -/
theorem script_of_checkedCheckByOutput {txout : TxOut}
    (accepted : proof.checkedCheckByOutput prims txout = .ok ()) :
    ∃ innerKey lock, proof.opening prims = .ok (innerKey, lock) ∧
      txout.scriptPubkey = lock.script prims := by
  cases proof with
  | sig proof =>
    simp only [checkedCheckByOutput, P2WPKHProof.checkedCheckByOutput] at accepted
    split at accepted
    · cases accepted
    · split at accepted
      · cases accepted
      · rename_i key tweaked
        split at accepted
        · rename_i pays
          exact ⟨proof.innerKey, .wpkh key, by simp only [opening, tweaked], pays⟩
        · cases accepted
  | emptyReceipt proof =>
    simp only [checkedCheckByOutput, EmptyReceiptProof.checkedCheckByOutput] at accepted
    split at accepted
    · cases accepted
    · rename_i key tweaked
      exact ⟨proof.innerKey, .wpkh key, by simp only [opening, tweaked], (ite_eq_ok.mp accepted).1⟩
  | multisig proof =>
    obtain ⟨redeemScript, built, pays⟩ := bind_eq_ok.mp accepted
    obtain ⟨first, opened⟩ := opening_of_created built
    exact ⟨first, .wsh redeemScript, opened, (ite_eq_ok.mp pays).1⟩
  | lightning proof =>
    obtain ⟨redeemScript, built, pays⟩ := bind_eq_ok.mp accepted
    refine ⟨proof.data.revocationPubkey, .wsh redeemScript.toScript, ?_, (ite_eq_ok.mp pays).1⟩
    exact bind_eq_ok.mpr ⟨redeemScript, built, rfl⟩
  | lightningHtlc proof =>
    obtain ⟨redeemScript, built, pays⟩ := LightningHtlcProof.script_of_checkedCheckByOutput accepted
    refine ⟨proof.data.remoteHtlcKey, .wsh redeemScript, ?_, pays⟩
    exact bind_eq_ok.mpr ⟨redeemScript, built, rfl⟩
  | p2wsh proof =>
    obtain ⟨_, checked, pays⟩ := bind_eq_ok.mp accepted
    refine ⟨proof.innerKey, .wsh proof.script, ?_, (ite_eq_ok.mp pays).1.symm⟩
    exact bind_eq_ok.mpr ⟨(), checked, rfl⟩
  | p2tr proof =>
    obtain ⟨script, built, pays⟩ := bind_eq_ok.mp accepted
    simp only [TaprootProof.toWitnessScript] at built
    split at built
    · cases built
    · rename_i key tweaked
      cases built
      split at pays
      · rename_i same
        exact ⟨proof.innerKey, .keyPath key.x, by simp only [opening, tweaked], same⟩
      · cases pays
  | sparkExit proof =>
    obtain ⟨outputKey, computed, pays⟩ := bind_eq_ok.mp accepted
    obtain ⟨leaf, built, ⟨⟩⟩ := bind_eq_ok.mp computed
    refine ⟨proof.script.delayKey, .leafPath proof.script.revocationKey.x leaf, ?_,
      (ite_eq_ok.mp pays).1.symm⟩
    exact bind_eq_ok.mpr ⟨leaf, built, rfl⟩

end ReceiptProof

namespace AnyReceiptProof

variable (prims : Primitives) (verify : ProjectivePoint → RangeProof → Bool)

def opening : AnyReceiptProof → Except ProofError (PublicKey × Lock)
  | plain proof => proof.opening prims
  | bulletproof proof =>
    match prims.tweak proof.innerKey proof.receipt with
    | none => .error .receiptKey
    | some key => .ok (proof.innerKey, .wpkh key)

/-- The receipt hash and the inner key that are tweaked into one key. -/
def tweaked (proof : AnyReceiptProof) : Option (Bytes32 × PublicKey) :=
  (proof.opening prims).toOption.map fun opened =>
    (prims.receiptHash proof.receipt proof.metadata, opened.1)

def lock (proof : AnyReceiptProof) : Option Lock :=
  (proof.opening prims).toOption.map Prod.snd

/-- The strings hashed for the receipt hash of a proof. -/
def hashed (proof : AnyReceiptProof) : List Bytes :=
  [proof.receipt.tokenAmount.toBytes, prims.receiptPreimage proof.receipt proof.metadata]

/-- The hash functions have no collision among what these proofs hash, and two different pairs
of a receipt hash and an inner key never tweak to one key up to sign. -/
structure NoCollision (proofs : List AnyReceiptProof) : Prop where
  hashes : Set.InjOn prims.sha256 {bytes | bytes ∈ proofs.flatMap (hashed prims)}
  locks : Lock.Binding prims (proofs.filterMap (lock prims))
  tweaks : ∀ a ∈ proofs.filterMap (tweaked prims), ∀ b ∈ proofs.filterMap (tweaked prims),
    ∀ keyA keyB, prims.receiptKey a.1 a.2 = some keyA → prims.receiptKey b.1 b.2 = some keyB →
      keyA.x = keyB.x → a = b

/-- The proofs are told apart by all that is computed from them. -/
def ToldApart (proofs : List AnyReceiptProof) : Prop :=
  (∀ a ∈ proofs.flatMap (hashed prims), ∀ b ∈ proofs.flatMap (hashed prims),
    prims.sha256 a = prims.sha256 b → a = b) ∧
  (∀ a ∈ proofs.filterMap (lock prims), ∀ b ∈ proofs.filterMap (lock prims),
    a.script prims = b.script prims → a = b) ∧
  (∀ a ∈ (proofs.filterMap (lock prims)).filterMap Lock.leaf,
    ∀ b ∈ (proofs.filterMap (lock prims)).filterMap Lock.leaf,
      prims.tapLeafHash a = prims.tapLeafHash b → a = b) ∧
  ∀ a ∈ proofs.filterMap (tweaked prims), ∀ b ∈ proofs.filterMap (tweaked prims),
    ∀ keyA ∈ prims.receiptKey a.1 a.2, ∀ keyB ∈ prims.receiptKey b.1 b.2, keyA.x = keyB.x → a = b

instance (proofs : List AnyReceiptProof) : Decidable (ToldApart prims proofs) :=
  inferInstanceAs (Decidable (_ ∧ _ ∧ _ ∧ _))

variable {prims verify} {proofs : List AnyReceiptProof}

theorem ToldApart.noCollision (apart : ToldApart prims proofs) : NoCollision prims proofs where
  hashes a aMem b bMem := apart.1 a aMem b bMem
  locks := Lock.binding_of_scripts prims apart.2.1 apart.2.2.1
  tweaks a aMem b bMem keyA keyB tweakedA tweakedB :=
    apart.2.2.2 a aMem b bMem keyA tweakedA keyB tweakedB

theorem opens_of_opening {proof : AnyReceiptProof} {innerKey : PublicKey} {lock : Lock}
    (opened : proof.opening prims = .ok (innerKey, lock)) :
    Opens prims proof.receipt proof.metadata innerKey lock := by
  cases proof with
  | plain proof => exact ReceiptProof.opens_of_opening opened
  | bulletproof proof =>
    simp only [opening] at opened
    split at opened <;> cases opened
    rename_i key tweaked
    exact ⟨key, tweaked, .wpkh key⟩

theorem script_of_checkedCheckByOutput {proof : AnyReceiptProof} {txout : TxOut}
    (accepted : proof.checkedCheckByOutput prims verify txout = .ok ()) :
    ∃ innerKey lock, proof.opening prims = .ok (innerKey, lock) ∧
      txout.scriptPubkey = lock.script prims := by
  cases proof with
  | plain proof => exact ReceiptProof.script_of_checkedCheckByOutput (mapError_eq_ok.mp accepted)
  | bulletproof proof =>
    simp only [checkedCheckByOutput, Bulletproof.checkedCheckByOutput] at accepted
    split at accepted
    · cases accepted
    · rename_i key tweaked
      split at accepted
      · cases accepted
      · rename_i pays
        exact ⟨proof.innerKey, .wpkh key, by simp only [opening, tweaked], not_not.mp pays⟩

/-- A receipt hash determines the receipt. The metadata hash stands behind the fixed width of
what it needs. -/
theorem receipt_of_receiptHash {p q : AnyReceiptProof} (pMem : p ∈ proofs) (qMem : q ∈ proofs)
    (hashes : Set.InjOn prims.sha256 {bytes | bytes ∈ proofs.flatMap (hashed prims)})
    (same : prims.receiptHash p.receipt p.metadata = prims.receiptHash q.receipt q.metadata) :
    p.receipt = q.receipt := by
  have considered : ∀ proof ∈ proofs, ∀ bytes ∈ proof.hashed prims,
      bytes ∈ proofs.flatMap (hashed prims) :=
    fun proof mem bytes inProof => List.mem_flatMap.mpr ⟨proof, mem, inProof⟩
  have preimages : prims.receiptPreimage p.receipt p.metadata =
      prims.receiptPreimage q.receipt q.metadata :=
    hashes (considered p pMem _ (by simp [hashed])) (considered q qMem _ (by simp [hashed])) same
  unfold Primitives.receiptPreimage at preimages
  obtain ⟨fixed, -⟩ := List.append_inj preimages (by simp)
  obtain ⟨amountHashes, keys⟩ := List.append_inj fixed (by simp)
  have amounts := TokenAmount.toBytes_injective <|
    hashes (considered p pMem _ (by simp [hashed])) (considered q qMem _ (by simp [hashed]))
      (List.Vector.toList_injective amountHashes)
  exact Receipt.ext amounts (serialize_injective keys)

theorem receipt_of_script {p q : AnyReceiptProof} {innerP innerQ : PublicKey} {lockP lockQ : Lock}
    (noCollision : NoCollision prims [p, q]) (openedP : p.opening prims = .ok (innerP, lockP))
    (openedQ : q.opening prims = .ok (innerQ, lockQ))
    (same : lockP.script prims = lockQ.script prims) : p.receipt = q.receipt := by
  obtain ⟨keyP, tweakedP, showsP⟩ := opens_of_opening openedP
  obtain ⟨keyQ, tweakedQ, showsQ⟩ := opens_of_opening openedQ
  have locks : lockP = lockQ := by
    apply Lock.script_injective prims noCollision.locks
    · simp [lock, openedP, Except.toOption]
    · simp [lock, openedQ, Except.toOption]
    · exact same
  rw [← locks] at showsQ
  have pairs := noCollision.tweaks
    (prims.receiptHash p.receipt p.metadata, innerP) (by simp [tweaked, openedP, Except.toOption])
    (prims.receiptHash q.receipt q.metadata, innerQ) (by simp [tweaked, openedQ, Except.toOption])
    keyP keyQ tweakedP tweakedQ (Lock.shows_unique showsP showsQ)
  apply receipt_of_receiptHash (by simp) (by simp) noCollision.hashes
  exact congrArg Prod.fst pairs

/-- All proofs an output is accepted for carry one receipt, whatever their kinds. -/
theorem receipt_eq_of_same_output {p q : AnyReceiptProof} {txout : TxOut}
    (noCollision : NoCollision prims [p, q])
    (pAccepted : p.checkedCheckByOutput prims verify txout = .ok ())
    (qAccepted : q.checkedCheckByOutput prims verify txout = .ok ()) : p.receipt = q.receipt := by
  obtain ⟨innerP, lockP, openedP, paysP⟩ := script_of_checkedCheckByOutput pAccepted
  obtain ⟨innerQ, lockQ, openedQ, paysQ⟩ := script_of_checkedCheckByOutput qAccepted
  exact receipt_of_script noCollision openedP openedQ (paysP.symm.trans paysQ)

def sharedReceipt : Receipt := ⟨TokenAmount.new 7, repeating 3⟩

def sharedMultisig : MultisigReceiptProof :=
  ⟨sharedReceipt, [repeating 9, repeating 5], 2⟩

def sharedScript : ScriptBuf :=
  (sharedMultisig.createMultisigRedeemScript .plain).toOption.getD []

/-- A multisig proof, and the P2WSH proof of its redeem script. -/
def asMultisig : AnyReceiptProof := .plain (.multisig sharedMultisig)

def asP2wsh : AnyReceiptProof :=
  .plain (.p2wsh ⟨sharedReceipt, repeating 5, sharedScript⟩)

def sharedOutput : TxOut := ⟨Lock.script .plain (.wsh sharedScript)⟩

theorem asMultisig_asP2wsh_receipt :
    asMultisig.checkedCheckByOutput .plain (fun _ _ => false) sharedOutput = .ok () ∧
      asP2wsh.checkedCheckByOutput .plain (fun _ _ => false) sharedOutput = .ok () ∧
      asMultisig.receipt = asP2wsh.receipt := by
  have acceptedMultisig : asMultisig.checkedCheckByOutput .plain (fun _ _ => false) sharedOutput =
      .ok () := by decide +kernel
  have acceptedP2wsh : asP2wsh.checkedCheckByOutput .plain (fun _ _ => false) sharedOutput =
      .ok () := by decide +kernel
  have apart : ToldApart .plain [asMultisig, asP2wsh] := by decide +kernel
  exact ⟨acceptedMultisig, acceptedP2wsh,
    receipt_eq_of_same_output apart.noCollision acceptedMultisig acceptedP2wsh⟩

end AnyReceiptProof

end Lrc20
