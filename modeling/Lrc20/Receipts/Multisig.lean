import Lrc20.Receipts.Binding

/-! Parsing a multisig redeem script, and proving it as any other P2WSH script. -/

open Script Outcome

namespace Lrc20

open AnyReceiptProof P2WSHProof PublicKey

inductive MultisigScriptError where
  | invalidScript
  | parsePubkeyError
deriving DecidableEq

namespace MultisigScript

/-- The next instruction, if the script goes on and is not cut. -/
def next : List Item → Except MultisigScriptError (Instruction × List Item)
  | .ok instruction :: items => .ok (instruction, items)
  | _ => .error .invalidScript

def instructionToSmallint : Instruction → Except MultisigScriptError UInt8
  | .op code => if 0x51 ≤ code ∧ code ≤ 0x60 then .ok (code - 0x51 + 1) else .error .invalidScript
  | .pushBytes _ => .error .invalidScript

/-- The loop of `from_script` over the keys. -/
def takeKeys (prims : Primitives) :
    Nat → List Item → Except MultisigScriptError (List PublicKey × List Item)
  | 0, items => .ok ([], items)
  | count + 1, items => do
    let (instruction, items) ← next items
    match instruction with
    | .op _ => .error .invalidScript
    | .pushBytes pubkeyBytes =>
      match prims.publicKeyFromSlice pubkeyBytes with
      | none => .error .parsePubkeyError
      | some pubkey =>
        let (pubkeys, items) ← takeKeys prims count items
        return (pubkey :: pubkeys, items)

/-- `MultisigScript::from_script`: the number of required signatures and the keys. -/
def fromScript (prims : Primitives) (script : ScriptBuf) :
    Except MultisigScriptError (UInt8 × List PublicKey) := do
  let (instruction, items) ← next (instructions script)
  let pubkeysNumber ← instructionToSmallint instruction
  let (pubkeys, items) ← takeKeys prims pubkeysNumber.toNat items
  let (instruction, items) ← next items
  let requiredSignaturesNumber ← instructionToSmallint instruction
  if items ≠ [] then .error .invalidScript else .ok (requiredSignaturesNumber, pubkeys)

/-- The script Bitcoin takes for `m` of these keys. -/
def standard (m : UInt8) (pubkeys : List PublicKey) : ScriptBuf :=
  UInt8.ofNat (0x50 + m.toNat) :: (pubkeys.flatMap (fun key => pushSlice key.serialize) ++
    (UInt8.ofNat (0x50 + pubkeys.length) :: [OP_CHECKMULTISIG]))

/-- The script is the standard one, and only it is parsed as the threshold and the keys. -/
structure StandardAndInvertible (prims : Primitives) (m : UInt8) (pubkeys : List PublicKey) :
    Prop where
  standard : multisigScript m pubkeys = .ok (standard m pubkeys)
  parsed : ∀ script, multisigScript m pubkeys = .ok script ↔
    fromScript prims script = .ok (m, pubkeys)

variable {prims : Primitives} {m : UInt8} {pubkeys : List PublicKey}

/-- Whatever keys are parsed from the pushes of keys, the rest of the script is left. -/
theorem items_of_takeKeys {rest : Bytes} {parsed : List PublicKey} {items : List Item}
    (taken : takeKeys prims pubkeys.length
      (instructions (pubkeys.flatMap (fun key => pushSlice key.serialize) ++ rest)) =
        .ok (parsed, items)) : items = instructions rest := by
  induction pubkeys generalizing parsed with
  | nil => exact (Prod.mk.inj (Except.ok.inj taken)).2.symm
  | cons key pubkeys ih =>
    rw [List.flatMap_cons, List.append_assoc, instructions_pushSlice (by simp)] at taken
    simp only [List.length_cons, takeKeys, next] at taken
    obtain ⟨_, ⟨⟩, taken⟩ := bind_eq_ok.mp taken
    dsimp only at taken
    split at taken
    · cases taken
    · obtain ⟨⟨others, left⟩, takenOthers, built⟩ := bind_eq_ok.mp taken
      cases built
      exact ih takenOthers

theorem pushSmallint_ofNat {value : Nat} (least : 1 ≤ value) (most : value ≤ 16) :
    pushSmallint (UInt8.ofNat value) = .ok [UInt8.ofNat (0x50 + value)] := by
  have byte : (UInt8.ofNat value).toNat = value := by
    rw [UInt8.toNat_ofNat']
    omega
  have small : 1 ≤ UInt8.ofNat value ∧ UInt8.ofNat value ≤ 16 := by
    rw [UInt8.le_iff_toNat_le, UInt8.le_iff_toNat_le, byte]
    exact ⟨least, most⟩
  rw [pushSmallint, if_pos small, UInt8.ofNat_add]
  rfl

theorem toNat_of_instructionToSmallint {value : Nat} {number : UInt8} (most : value ≤ 16)
    (parsed : instructionToSmallint (.op (UInt8.ofNat (0x50 + value))) = .ok number) :
    number.toNat = value := by
  obtain ⟨⟨low, -⟩, rfl⟩ := ite_eq_ok.mp parsed
  rw [UInt8.le_iff_toNat_le, UInt8.toNat_ofNat'] at low
  rw [UInt8.toNat_add, UInt8.toNat_sub, UInt8.toNat_ofNat']
  simp only [UInt8.reduceToNat] at low ⊢
  omega

theorem multisigScript_eq (least : 1 ≤ m.toNat) (most : m.toNat ≤ pubkeys.length)
    (count : pubkeys.length ≤ 16) :
    multisigScript m pubkeys = .ok (UInt8.ofNat (0x50 + pubkeys.length) ::
      (pubkeys.flatMap (fun key => pushSlice key.serialize) ++
        (UInt8.ofNat (0x50 + m.toNat) :: [OP_CHECKMULTISIG]))) := by
  have threshold := pushSmallint_ofNat least (most.trans count)
  rw [UInt8.ofNat_toNat] at threshold
  rw [multisigScript, pushSmallint_ofNat (least.trans most) count, threshold]
  simp [bind, Except.bind, pure, Except.pure]

/-- The key count is pushed first and the threshold last, so that the script is the standard
one only when they agree. Its last opcode is one instruction too many for the parser. -/
theorem not_standardAndInvertible (prims : Primitives) (m : UInt8) (pubkeys : List PublicKey)
    (least : 1 ≤ m.toNat) (most : m.toNat ≤ pubkeys.length) (count : pubkeys.length ≤ 16) :
    (multisigScript m pubkeys = .ok (standard m pubkeys) ↔ m.toNat = pubkeys.length) ∧
      ¬ StandardAndInvertible prims m pubkeys := by
  have script := multisigScript_eq least most count
  refine ⟨?_, fun invertible => ?_⟩
  · rw [script, standard, Except.ok.injEq]
    constructor
    · intro same
      have heads := congrArg UInt8.toNat (List.cons.inj same).1
      rw [UInt8.toNat_ofNat', UInt8.toNat_ofNat'] at heads
      omega
    · intro same
      rw [same]
  · have parsed := (invertible.parsed _).mp script
    rw [fromScript, instructions_smallInt count] at parsed
    obtain ⟨_, ⟨⟩, parsed⟩ := bind_eq_ok.mp parsed
    obtain ⟨number, isNumber, parsed⟩ := bind_eq_ok.mp parsed
    rw [toNat_of_instructionToSmallint count isNumber] at parsed
    obtain ⟨⟨keys, items⟩, taken, parsed⟩ := bind_eq_ok.mp parsed
    rw [items_of_takeKeys taken, instructions_smallInt (most.trans count),
      instructions_op rfl] at parsed
    obtain ⟨_, ⟨⟩, parsed⟩ := bind_eq_ok.mp parsed
    obtain ⟨threshold, -, parsed⟩ := bind_eq_ok.mp parsed
    cases parsed

/-- For one of two keys the script is another one, and it is not parsed. -/
theorem one_of_two_not_standard :
    let pubkeys := [repeating 5, repeating 9]
    multisigScript 1 pubkeys ≠ .ok (standard 1 pubkeys) ∧
      ((multisigScript 1 pubkeys).toOption.map (fromScript .plain)) =
        some (.error .invalidScript) := by
  decide +kernel

theorem two_of_two_not_invertible : ¬ StandardAndInvertible .plain 2 [repeating 5, repeating 9] :=
  (not_standardAndInvertible .plain 2 [repeating 5, repeating 9] (by decide)
    (by decide) (by decide)).2

end MultisigScript

/-- `TryFrom<MultisigReceiptProof> for P2WSHProof`, which takes the first key after it is
tweaked. -/
def P2WSHProof.tryFrom (prims : Primitives) (proof : MultisigReceiptProof) :
    Except ProofError P2WSHProof := do
  let keys ← proof.sortAndTweakKeys prims
  match keys with
  | [] => .error .invalidNumberOfInnerKeys
  | first :: _ =>
    let script ← proof.createMultisigRedeemScript prims
    return ⟨proof.receipt, first, script⟩

namespace MultisigReceiptProof

variable {prims : Primitives} {proof : MultisigReceiptProof} {first key : PublicKey}
  {others : List PublicKey}

/-- The proof converts to a P2WSH proof of its receipt that accepts the same outputs. -/
def EmbedsInP2wsh (prims : Primitives) (proof : MultisigReceiptProof) : Prop :=
  ∃ embedded, tryFrom prims proof = .ok embedded ∧
    embedded.receipt = proof.receipt ∧ ∀ txout, embedded.checkedCheckByOutput prims txout = .ok () ↔
      proof.checkedCheckByOutput prims txout = .ok ()

/-- The first key of the script is tweaked once, and a P2WSH proof tweaks its key again. -/
theorem checkPubkey_tweaked {script : ScriptBuf}
    (built : multisigScript proof.m (key :: others) = .ok script) :
    checkPubkey prims ⟨proof.receipt, key, script⟩ = .ok () ↔
      prims.tweak key proof.receipt = some key := by
  unfold checkPubkey
  cases tweaked : prims.tweak key proof.receipt with
  | none => simp
  | some again =>
    simp only [firstPubkey_multisigScript built, ite_eq_ok, and_true, Option.some.injEq]
    exact ⟨fun same => (serialize_injective same).symm, fun same => same ▸ rfl⟩

/-- The conversion keeps the tweaked key, so it is right only for a key that a second tweak
leaves as it is. -/
theorem embedsInP2wsh_iff (prims : Primitives) (proof : MultisigReceiptProof)
    (least : 1 ≤ proof.m.toNat) (most : proof.m.toNat ≤ proof.innerKeys.length)
    (count : proof.innerKeys.length ≤ 16) :
    EmbedsInP2wsh prims proof ↔ ∃ first others key,
      proof.innerKeys.insertionSort keyLe = first :: others ∧
        prims.tweak first proof.receipt = some key ∧
        prims.tweak key proof.receipt = some key := by
  have scripted : ∀ {first others key}, proof.innerKeys.insertionSort keyLe = first :: others →
      prims.tweak first proof.receipt = some key →
      ∃ script, multisigScript proof.m (key :: others) = .ok script ∧
        P2WSHProof.tryFrom prims proof = .ok ⟨proof.receipt, key, script⟩ ∧
        ∀ txout, proof.checkedCheckByOutput prims txout = .ok () ↔
          txout.scriptPubkey = prims.toP2wsh script := by
    intro first others key sorted tweaked
    have keys := sortAndTweakKeys_eq_ok.mpr ⟨first, others, key, sorted, tweaked, rfl⟩
    have length := length_of_sortAndTweakKeys keys
    have built := MultisigScript.multisigScript_eq least (length ▸ most) (length ▸ count)
    have created : proof.createMultisigRedeemScript prims = .ok _ :=
      bind_eq_ok.mpr ⟨key :: others, keys, built⟩
    refine ⟨_, built, bind_eq_ok.mpr ⟨key :: others, keys, bind_eq_ok.mpr ⟨_, created, rfl⟩⟩, ?_⟩
    intro txout
    rw [checkedCheckByOutput, created]
    exact ite_eq_ok.trans (and_iff_left rfl)
  constructor
  · rintro ⟨embedded, converted, -, same⟩
    obtain ⟨keys, found, -⟩ := bind_eq_ok.mp converted
    obtain ⟨first, others, key, sorted, tweaked, -⟩ := sortAndTweakKeys_eq_ok.mp found
    obtain ⟨script, built, converted', pays⟩ := scripted sorted tweaked
    obtain rfl := Except.ok.inj (converted.symm.trans converted')
    have accepted := (same ⟨prims.toP2wsh script⟩).mpr ((pays _).mpr rfl)
    obtain ⟨_, checked, -⟩ := bind_eq_ok.mp accepted
    exact ⟨first, others, key, sorted, tweaked, (checkPubkey_tweaked built).mp checked⟩
  · rintro ⟨first, others, key, sorted, tweaked, fixed⟩
    obtain ⟨script, built, converted, pays⟩ := scripted sorted tweaked
    refine ⟨_, converted, rfl, fun txout => ?_⟩
    rw [pays, P2WSHProof.checkedCheckByOutput, (checkPubkey_tweaked built).mpr fixed]
    exact ite_eq_ok.trans ((and_iff_left rfl).trans eq_comm)

/-- The P2WSH proof made of a multisig proof rejects the output that the multisig proof accepts. -/
theorem sharedMultisig_not_embedded : ¬ EmbedsInP2wsh .plain sharedMultisig := by
  have accepted : sharedMultisig.checkedCheckByOutput .plain
      sharedOutput = .ok () := by decide +kernel
  have rejected : ((tryFrom .plain sharedMultisig).toOption.map
      fun embedded => embedded.checkedCheckByOutput .plain sharedOutput) =
        some (.error .pubkeyMismatch) := by decide +kernel
  rintro ⟨embedded, converted, -, same⟩
  rw [converted] at rejected
  cases ((same _).mpr accepted).symm.trans (Option.some.inj rejected)

/-- With a tweak that changes no key every proof embeds. -/
theorem sharedMultisig_embedded_untweaked :
    EmbedsInP2wsh { Primitives.plain with addExpTweak := fun key _ => some key } sharedMultisig :=
  (embedsInP2wsh_iff _ sharedMultisig (by decide) (by decide) (by decide)).mpr
    ⟨.repeating 5, [.repeating 9], .repeating 5, by decide +kernel, rfl, rfl⟩

end MultisigReceiptProof

end Lrc20
