import Lrc20.Lib.Search
import Lrc20.Receipts.Proof

/-! How the checker recognises an input of a token's owner: `script_parser` and
`find_owner_in_txinputs`. -/

open Script Search

namespace Lrc20.TxCheck

open ScriptBuf

inductive AddressType where
  | p2pkh
  | p2sh
  | p2wpkh
  | p2wsh
  | p2tr
deriving DecidableEq, Repr

/-- `script_to_address_type`. Whatever is not recognised counts as taproot. -/
def scriptToAddressType (script : ScriptBuf) : AddressType :=
  if script.isP2pkh then .p2pkh
  else if script.isP2sh then .p2sh
  else if script.isP2wpkh then .p2wpkh
  else if script.isP2wsh then .p2wsh
  else .p2tr

inductive ScriptParseError where
  | unsupportedScript
  | invalidInstruction (error : ScriptError)
  | notDataPush
  | insufficientInstructions (count : Nat)
  | missingWitnessRedeemScript
deriving DecidableEq, Repr

/-- How the search for the owner ends without an answer. -/
inductive OwnerFailure where
  | parse (error : ScriptParseError)
  | rpc
  | panicked
deriving DecidableEq, Repr

inductive SpendingCondition where
  | p2pkh (script : ScriptBuf)
  | p2sh (script : ScriptBuf)
  | p2wpkh (script : ScriptBuf)
  | p2wsh (script : ScriptBuf)
  | p2tr (script : ScriptBuf)
deriving DecidableEq, Repr

namespace SpendingCondition

def intoScript : SpendingCondition → ScriptBuf
  | p2pkh script => script
  | p2sh script => script
  | p2wpkh script => script
  | p2wsh script => script
  | p2tr script => script

variable (prims : Primitives)

/-- `handle_legacy_address_type`: the last instruction of the script signature has to push
the key or the redeem script. -/
def handleLegacyAddressType (txIn : TxIn) (addressType : AddressType) :
    Except OwnerFailure SpendingCondition :=
  match (instructions txIn.scriptSig).getLast? with
  | none => .error (.parse (.insufficientInstructions 0))
  | some (.error error) => .error (.parse (.invalidInstruction error))
  | some (.ok (.op _)) => .error (.parse .notDataPush)
  | some (.ok (.pushBytes bytes)) =>
    match addressType with
    | .p2pkh => .ok (.p2pkh (newP2pkh (prims.hash160 bytes)))
    | .p2sh => .ok (.p2sh (newP2sh (prims.hash160 bytes)))
    | _ => .error (.parse .unsupportedScript)

/-- `from_txin`. The second item of a short witness is read out of bounds. -/
def fromTxin (txIn : TxIn) (addressType : AddressType) : Except OwnerFailure SpendingCondition :=
  match addressType with
  | .p2wpkh =>
    match txIn.witness[1]? with
    | none => .error .panicked
    | some key => .ok (.p2wpkh (newP2wpkh (prims.hash160 key)))
  | .p2wsh =>
    match txIn.witness.getLast? with
    | none => .error (.parse .missingWitnessRedeemScript)
    | some script => .ok (.p2wsh (prims.toP2wsh script))
  | .p2pkh | .p2sh => handleLegacyAddressType prims txIn addressType
  | .p2tr => .error (.parse .unsupportedScript)

/-- `SpendingCondition::p2tr`. -/
def ofP2tr (prevOutScript : ScriptBuf) : Except OwnerFailure SpendingCondition :=
  if prevOutScript.isP2tr then .ok (.p2tr prevOutScript)
  else .error (.parse .unsupportedScript)

end SpendingCondition

section Search

variable (prims : Primitives) (client : BitcoinClient) (tokenPubkey : TokenPubkey)
  (owner : Option ScriptBuf)

/-- `handle_p2wpkh_input`. The tweak of the token's key is expected to exist. -/
def handleP2wpkhInput (witness : List Bytes) : Except OwnerFailure Bool :=
  match p2wpkhWitnessKey prims witness with
  | .error _ => .ok false
  | .ok pubkey =>
    match prims.tweak tokenPubkey Receipt.empty with
    | none => .error .panicked
    | some receiptPubkey => .ok (pubkey = tokenPubkey ∨ pubkey = receiptPubkey)

/-- One turn of the loop: whether the input counts as the owner's. -/
def isOwnerInput (input : TxIn) : Except OwnerFailure Bool :=
  match owner with
  | none => handleP2wpkhInput prims tokenPubkey input.witness
  | some ownerScript =>
    match scriptToAddressType ownerScript with
    | .p2tr =>
      match client.getTxOut input.previousOutput with
      | .error _ => .error .rpc
      | .ok none => .ok false
      | .ok (some prevOut) =>
        (SpendingCondition.ofP2tr prevOut.scriptPubkey).map fun condition =>
          decide (condition.intoScript = ownerScript)
    | addressType =>
      (SpendingCondition.fromTxin prims input addressType).map fun condition =>
        decide (condition.intoScript = ownerScript)

def findOwnerInTxinputs (inputs : List TxIn) : Except OwnerFailure (Option TxIn) :=
  firstMatch (isOwnerInput prims client tokenPubkey owner) inputs

end Search

/-! ### What an input shows -/

section Shows

variable (prims : Primitives) (client : BitcoinClient) (tokenPubkey : TokenPubkey)
  (owner : Option ScriptBuf) (input : TxIn)

/-- The data that the last instruction of the script signature pushes. -/
def lastPush : Option Bytes :=
  match (instructions input.scriptSig).getLast? with
  | some (.ok (.pushBytes bytes)) => some bytes
  | _ => none

/-- The script of the previous output, as long as it is not spent. -/
def unspentScript : Option ScriptBuf :=
  match client.getTxOut input.previousOutput with
  | .ok (some prevOut) => some prevOut.scriptPubkey
  | _ => none

/-- The script an input reveals when it is read as a spend of the given type. -/
def revealed : AddressType → Option ScriptBuf
  | .p2pkh => (lastPush input).map fun key => newP2pkh (prims.hash160 key)
  | .p2sh => (lastPush input).map fun redeem => newP2sh (prims.hash160 redeem)
  | .p2wpkh => input.witness[1]?.map fun key => newP2wpkh (prims.hash160 key)
  | .p2wsh => input.witness.getLast?.map prims.toP2wsh
  | .p2tr => unspentScript client input

/-- The keys of an issuer that has not passed on the ownership. -/
def issuerKeys : List PublicKey :=
  tokenPubkey :: (prims.tweak tokenPubkey Receipt.empty).toList

/-- The key in the witness of a spend of a key hash. -/
def witnessKey : Option PublicKey :=
  (p2wpkhWitnessKey prims input.witness).toOption

/-- Read as a spend of the owner's type, the input shows the owner's script or key. -/
def Shows : Prop :=
  match owner with
  | none => ∃ key ∈ issuerKeys prims tokenPubkey, witnessKey prims input = some key
  | some script => revealed prims client input (scriptToAddressType script) = some script

/-- The input can be read as a spend of the owner's type. For a taproot owner it has to be
one unless its output is spent. -/
def Legible : Prop :=
  match owner with
  | none => (witnessKey prims input).isSome → (prims.tweak tokenPubkey Receipt.empty).isSome
  | some script =>
    match scriptToAddressType script with
    | .p2tr => ∀ shown ∈ unspentScript client input, shown.isP2tr
    | addressType => (revealed prims client input addressType).isSome

/-- The output with script `lock` is locked by the owner. -/
def Locks (lock : ScriptBuf) : Prop :=
  match owner with
  | none => lock ∈ (issuerKeys prims tokenPubkey).map prims.toP2wpkh
  | some script => lock = script

instance : DecidablePred (Shows prims client tokenPubkey owner) := fun input =>
  match owner with
  | none => inferInstanceAs (Decidable (∃ key ∈ issuerKeys prims tokenPubkey, _))
  | some script => inferInstanceAs (Decidable (revealed prims client input _ = some script))

instance : DecidablePred (Locks prims tokenPubkey owner) := fun lock =>
  match owner with
  | none => inferInstanceAs (Decidable (lock ∈ (issuerKeys prims tokenPubkey).map prims.toP2wpkh))
  | some script => inferInstanceAs (Decidable (lock = script))

end Shows

section Results

variable {prims : Primitives} {client : BitcoinClient} {tokenPubkey : TokenPubkey}
  {owner : Option ScriptBuf} {script : ScriptBuf} {input : TxIn} {addressType : AddressType}
  {inputs : List TxIn}

/-- A spending condition read from an input is the script the input reveals. -/
theorem fromTxin_revealed (notTaproot : addressType ≠ .p2tr) :
    (SpendingCondition.fromTxin prims input addressType).toOption.map SpendingCondition.intoScript =
      revealed prims client input addressType := by
  cases addressType with
  | p2tr => exact absurd rfl notTaproot
  | p2wpkh =>
    unfold SpendingCondition.fromTxin revealed
    cases input.witness[1]? <;> rfl
  | p2wsh =>
    unfold SpendingCondition.fromTxin revealed
    cases input.witness.getLast? <;> rfl
  | p2pkh | p2sh =>
    unfold SpendingCondition.fromTxin SpendingCondition.handleLegacyAddressType revealed lastPush
    rcases (instructions input.scriptSig).getLast? with _ | _ | _ | _ <;> rfl

theorem handleP2wpkhInput_inspects (inputs : List TxIn) :
    Inspects (isOwnerInput prims client tokenPubkey none)
      (Shows prims client tokenPubkey none) (Legible prims client tokenPubkey none) inputs := by
  refine inspects_of_each fun input _ => ?_
  unfold Legible isOwnerInput handleP2wpkhInput
  cases parsed : p2wpkhWitnessKey prims input.witness with
  | error failure => exact .inl (by simp [Shows, witnessKey, parsed, Except.toOption])
  | ok pubkey =>
    cases tweaked : prims.tweak tokenPubkey Receipt.empty with
    | none => exact .inr (by simp [witnessKey, parsed, Except.toOption])
    | some receiptPubkey =>
      exact .inl (by simp [Shows, issuerKeys, witnessKey, parsed, tweaked, Except.toOption])

theorem taproot_inspects (taproot : scriptToAddressType script = .p2tr)
    (answered : ∀ input ∈ inputs, client.getTxOut input.previousOutput ≠ .error ()) :
    Inspects (isOwnerInput prims client tokenPubkey (some script))
      (Shows prims client tokenPubkey (some script))
      (Legible prims client tokenPubkey (some script)) inputs := by
  refine inspects_of_each fun input mem => ?_
  simp only [Legible, Shows, isOwnerInput, taproot, revealed, unspentScript]
  cases answer : client.getTxOut input.previousOutput with
  | error failure => exact absurd answer (answered input mem)
  | ok prevOut =>
    cases prevOut with
    | none => exact .inl (by simp)
    | some prevOut =>
      by_cases isTaproot : prevOut.scriptPubkey.isP2tr
      · refine .inl ⟨by simp [isTaproot], ?_⟩
        simp only [SpendingCondition.ofP2tr, isTaproot, if_true, Except.map,
          SpendingCondition.intoScript, Option.some.injEq]
        congr
      · exact .inr (by simp [SpendingCondition.ofP2tr, isTaproot, Except.map])

theorem fromTxin_inspects (other : scriptToAddressType script ≠ .p2tr) (inputs : List TxIn) :
    Inspects (isOwnerInput prims client tokenPubkey (some script))
      (Shows prims client tokenPubkey (some script))
      (Legible prims client tokenPubkey (some script)) inputs := by
  have turn : ∀ input, isOwnerInput prims client tokenPubkey (some script) input =
      (SpendingCondition.fromTxin prims input (scriptToAddressType script)).map
        fun condition => decide (condition.intoScript = script) := by
    intro input
    unfold isOwnerInput
    cases addressType : scriptToAddressType script <;> simp_all
  have legible : ∀ input, Legible prims client tokenPubkey (some script) input ↔
      (revealed prims client input (scriptToAddressType script)).isSome := by
    intro input
    unfold Legible
    cases addressType : scriptToAddressType script <;> simp_all
  refine inspects_of_each fun input _ => ?_
  simp only [legible, turn, Shows, ← fromTxin_revealed other]
  cases SpendingCondition.fromTxin prims input (scriptToAddressType script) with
  | error failure => exact .inr (by simp [Except.toOption, Except.map])
  | ok condition => exact .inl (by simp [Except.toOption, Except.map])

end Results

/-! ### When the search is exact -/

/-- What consensus asks of an input that spends an output with script `lock`. The key of a
`P2PKH` output may come from a script signature that does not end in a push, and a taproot
witness shows neither the script nor the key. -/
structure ValidSpend (prims : Primitives) (lock : ScriptBuf) (input : TxIn) : Prop where
  p2wpkh : ∀ hash, lock = newP2wpkh hash →
    ∃ signature key, input.witness = [signature, key] ∧ prims.hash160 key = hash
  p2wsh : ∀ hash, lock = newP2wsh hash →
    ∃ redeem, input.witness.getLast? = some redeem ∧ prims.sha256 redeem = hash
  p2sh : ∀ hash, lock = newP2sh hash →
    ∃ redeem, lastPush input = some redeem ∧ prims.hash160 redeem = hash

theorem validSpend_newP2wpkh {prims : Primitives} {input : TxIn} {signature key : Bytes}
    (shown : input.witness = [signature, key]) :
    ValidSpend prims (newP2wpkh (prims.hash160 key)) input := by
  constructor
  · intro hash same
    refine ⟨signature, key, shown, List.Vector.toList_injective ?_⟩
    simpa [newP2wpkh] using same
  · intro hash same
    simp [newP2wpkh, newP2wsh] at same
  · intro hash same
    simp [newP2wpkh, newP2sh] at same

/-- The Bitcoin node answers with the output, or with nothing once it is spent. -/
def Answers (client : BitcoinClient) (locks : OutPoint → ScriptBuf) (input : TxIn) : Prop :=
  client.getTxOut input.previousOutput = .ok none ∨
    client.getTxOut input.previousOutput = .ok (some ⟨locks input.previousOutput⟩)

/-- An input is returned when one is locked by the owner, and otherwise the search ends
without one. -/
def Exact (locked : Prop) (result : Except OwnerFailure (Option TxIn)) : Prop :=
  (locked → ∃ input, result = .ok (some input)) ∧ (¬ locked → result = .ok none)

/-- Consensus does not make every spend of this owner's outputs show the owner's script. -/
def MayHide (owner : Option ScriptBuf) : Prop :=
  ∀ script ∈ owner, scriptToAddressType script = .p2pkh ∨ scriptToAddressType script = .p2tr

/-- The owner can be told from the inputs: those up to the first that shows the owner's
script can all be read as spends of the owner's type; none shows it unless some input is
locked by it; and one locked by it shows it. -/
structure Detectable (prims : Primitives) (client : BitcoinClient) (tokenPubkey : TokenPubkey)
    (owner : Option ScriptBuf) (locks : OutPoint → ScriptBuf) (inputs : List TxIn) : Prop where
  legible : GoodUpTo (Shows prims client tokenPubkey owner)
    (Legible prims client tokenPubkey owner) inputs
  noMimic : ∀ input ∈ inputs, Shows prims client tokenPubkey owner input →
    ∃ other ∈ inputs, Locks prims tokenPubkey owner (locks other.previousOutput)
  shown : MayHide owner → ∀ input ∈ inputs,
    Locks prims tokenPubkey owner (locks input.previousOutput) →
      ∃ other ∈ inputs, Shows prims client tokenPubkey owner other

section Exactness

variable {prims : Primitives} {client : BitcoinClient} {tokenPubkey : TokenPubkey}
  {owner : Option ScriptBuf} {locks : OutPoint → ScriptBuf} {inputs : List TxIn}

theorem recognised_of_addressType (script : ScriptBuf) : match scriptToAddressType script with
    | .p2wpkh => script.isP2wpkh
    | .p2wsh => script.isP2wsh
    | .p2sh => script.isP2sh
    | _ => True := by
  unfold scriptToAddressType
  by_cases pkh : script.isP2pkh
  · simp [pkh]
  by_cases sh : script.isP2sh
  · simp [pkh, sh]
  by_cases wpkh : script.isP2wpkh
  · simp [pkh, sh, wpkh]
  by_cases wsh : script.isP2wsh
  · simp [pkh, sh, wpkh, wsh]
  · simp [pkh, sh, wpkh, wsh]

/-- A valid spend of an output of one of the hash types other than `P2PKH` shows its
script. -/
theorem shows_of_validSpend {script : ScriptBuf} {input : TxIn}
    (forced : ¬ MayHide (some script)) (valid : ValidSpend prims script input) :
    Shows prims client tokenPubkey (some script) input := by
  have recognised := recognised_of_addressType script
  unfold Shows
  cases addressType : scriptToAddressType script with
  | p2pkh | p2tr => exact absurd (by simp [MayHide, addressType]) forced
  | p2wpkh =>
    rw [addressType] at recognised
    obtain ⟨hash, rfl⟩ := eq_newP2wpkh recognised
    obtain ⟨signature, key, witness, rfl⟩ := valid.p2wpkh hash rfl
    simp [revealed, addressType, witness]
  | p2wsh =>
    rw [addressType] at recognised
    obtain ⟨hash, rfl⟩ := eq_newP2wsh recognised
    obtain ⟨redeem, last, rfl⟩ := valid.p2wsh hash rfl
    simp [revealed, addressType, last, Primitives.toP2wsh]
  | p2sh =>
    rw [addressType] at recognised
    obtain ⟨hash, rfl⟩ := eq_newP2sh recognised
    obtain ⟨redeem, last, rfl⟩ := valid.p2sh hash rfl
    simp [revealed, addressType, last]

/-- Where the owner is detectable, some input shows the owner's script exactly when some
input is locked by it. -/
theorem Detectable.shows_iff_locked
    (valid : ∀ input ∈ inputs, ValidSpend prims (locks input.previousOutput) input)
    (detectable : Detectable prims client tokenPubkey owner locks inputs) :
    (∃ input ∈ inputs, Shows prims client tokenPubkey owner input) ↔
      ∃ input ∈ inputs, Locks prims tokenPubkey owner (locks input.previousOutput) := by
  constructor
  · rintro ⟨input, mem, shows⟩
    exact detectable.noMimic input mem shows
  · rintro ⟨input, mem, locked⟩
    by_cases mayHide : MayHide owner
    · exact detectable.shown mayHide input mem locked
    · cases owner with
      | none => exact absurd (by simp [MayHide]) mayHide
      | some script =>
        have spend := valid input mem
        rw [show locks input.previousOutput = script from locked] at spend
        exact ⟨input, mem, shows_of_validSpend mayHide spend⟩

end Exactness

/-- For valid spends and a Bitcoin node that answers, the search returns an input exactly when
one is locked by the owner and fails on none, exactly where the owner is detectable. -/
theorem findOwnerInTxinputs_exact_iff (prims : Primitives) (client : BitcoinClient)
    (tokenPubkey : TokenPubkey) (owner : Option ScriptBuf) (locks : OutPoint → ScriptBuf)
    (inputs : List TxIn)
    (valid : ∀ input ∈ inputs, ValidSpend prims (locks input.previousOutput) input)
    (answers : ∀ input ∈ inputs, Answers client locks input) :
    Exact (∃ input ∈ inputs, Locks prims tokenPubkey owner (locks input.previousOutput))
      (findOwnerInTxinputs prims client tokenPubkey owner inputs) ↔
    Detectable prims client tokenPubkey owner locks inputs := by
  have answered : ∀ input ∈ inputs, client.getTxOut input.previousOutput ≠ .error () := by
    intro input mem failed
    rcases answers input mem with spent | unspent
    · rw [spent] at failed
      cases failed
    · rw [unspent] at failed
      cases failed
  have inspects : Inspects (isOwnerInput prims client tokenPubkey owner)
      (Shows prims client tokenPubkey owner) (Legible prims client tokenPubkey owner) inputs := by
    cases owner with
    | none => exact handleP2wpkhInput_inspects inputs
    | some script =>
      by_cases taproot : scriptToAddressType script = .p2tr
      · exact taproot_inspects taproot answered
      · exact fromTxin_inspects taproot inputs
  constructor
  · intro exact
    obtain ⟨result, ended⟩ : ∃ result,
        findOwnerInTxinputs prims client tokenPubkey owner inputs = .ok result := by
      by_cases locked : ∃ input ∈ inputs, Locks prims tokenPubkey owner (locks input.previousOutput)
      · obtain ⟨input, found⟩ := exact.1 locked
        exact ⟨_, found⟩
      · exact ⟨_, exact.2 locked⟩
    have legible := goodUpTo_of_firstMatch inspects ended
    have found := firstMatch_eq_find? inspects legible
    refine ⟨legible, ?_, ?_⟩
    · intro input mem shows
      by_contra unlocked
      have nothing := found.symm.trans (exact.2 unlocked)
      have hidden := List.find?_eq_none.mp (Except.ok.inj nothing) input mem
      exact hidden (by simpa using shows)
    · intro _ input mem locked
      obtain ⟨returned, result⟩ := exact.1 ⟨input, mem, locked⟩
      have first := Except.ok.inj (found.symm.trans result)
      exact ⟨returned, List.mem_of_find?_eq_some first, by simpa using List.find?_some first⟩
  · intro detectable
    have found := firstMatch_eq_find? inspects detectable.legible
    have sameAnswer := detectable.shows_iff_locked valid
    constructor
    · intro locked
      obtain ⟨input, mem, shows⟩ := sameAnswer.mpr locked
      have present : (inputs.find? fun input =>
          decide (Shows prims client tokenPubkey owner input)).isSome :=
        List.find?_isSome.mpr ⟨input, mem, decide_eq_true shows⟩
      obtain ⟨first, returned⟩ := Option.isSome_iff_exists.mp present
      exact ⟨first, by rw [findOwnerInTxinputs, found, returned]⟩
    · intro unlocked
      have absent : inputs.find? (fun input =>
          decide (Shows prims client tokenPubkey owner input)) = none := by
        rw [List.find?_eq_none]
        intro input mem shows
        exact unlocked (sameAnswer.mp ⟨input, mem, of_decide_eq_true shows⟩)
      rw [findOwnerInTxinputs, found, absent]

/-- An owner with a `P2WPKH` script, and a spend of it. -/
def keyHashOwner : ScriptBuf := Primitives.plain.toP2wpkh (.repeating 7)

def keyHashSpend : TxIn := ⟨⟨2, 0⟩, [], [[0x30], (PublicKey.repeating 7).serialize]⟩

/-- A taproot spend by key, with one signature as its witness. -/
def taprootSpend : TxIn := ⟨⟨1, 0⟩, [], [List.replicate 64 0]⟩

def spentLocks (outpoint : OutPoint) : ScriptBuf :=
  if outpoint.txid = 1 then newP2tr (List.Vector.replicate 32 1) else keyHashOwner

/-- A Bitcoin node to which none of these outputs is spent. -/
def unspentClient : BitcoinClient where
  getRawTransactionInfo _ := .ok none
  getBlockHeaderInfo _ := .error ()
  getRawTransaction _ := .error ()
  getTxOut outpoint := .ok (some ⟨spentLocks outpoint⟩)

theorem validSpend_keyHashSpend :
    ValidSpend .plain (spentLocks keyHashSpend.previousOutput) keyHashSpend :=
  validSpend_newP2wpkh rfl

theorem validSpend_taprootSpend :
    ValidSpend .plain (spentLocks taprootSpend.previousOutput) taprootSpend := by
  have lock : spentLocks taprootSpend.previousOutput = newP2tr (List.Vector.replicate 32 1) := rfl
  rw [lock]
  constructor
  · intro hash same
    simp [newP2tr, newP2wpkh] at same
  · intro hash same
    simp [newP2tr, newP2wsh] at same
  · intro hash same
    simp [newP2tr, newP2sh] at same

/-- With the owner's input first, the taproot input behind it does no harm. -/
theorem exact_with_owner_first :
    Exact (∃ input ∈ [keyHashSpend, taprootSpend],
        Locks .plain (.repeating 1) (some keyHashOwner) (spentLocks input.previousOutput))
      (findOwnerInTxinputs .plain unspentClient (.repeating 1) (some keyHashOwner)
        [keyHashSpend, taprootSpend]) := by
  have shows : Shows .plain unspentClient (.repeating 1) (some keyHashOwner) keyHashSpend := by
    decide +kernel
  have addressType : scriptToAddressType keyHashOwner = .p2wpkh := by decide +kernel
  apply (findOwnerInTxinputs_exact_iff .plain unspentClient (.repeating 1) (some keyHashOwner)
    spentLocks [keyHashSpend, taprootSpend] ?_ ?_).mpr
  · refine ⟨⟨?_, fun hidden => absurd shows hidden⟩, ?_, ?_⟩
    · simp only [Legible, addressType]
      decide +kernel
    · intro input _ _
      exact ⟨keyHashSpend, by simp, rfl⟩
    · intro _ input _ _
      exact ⟨keyHashSpend, by simp, shows⟩
  · simp only [List.forall_mem_cons, List.not_mem_nil, false_imp_iff, implies_true, and_true]
    exact ⟨validSpend_keyHashSpend, validSpend_taprootSpend⟩
  · intro input _
    exact .inr rfl

/-- With the taproot input first, its one witness item is read out of bounds. -/
theorem panics_on_taproot_input :
    ValidSpend .plain (spentLocks taprootSpend.previousOutput) taprootSpend ∧
    ValidSpend .plain (spentLocks keyHashSpend.previousOutput) keyHashSpend ∧
    Locks .plain (.repeating 1) (some keyHashOwner) (spentLocks keyHashSpend.previousOutput) ∧
    findOwnerInTxinputs .plain unspentClient (.repeating 1) (some keyHashOwner)
      [taprootSpend, keyHashSpend] = .error .panicked :=
  ⟨validSpend_taprootSpend, validSpend_keyHashSpend, rfl, by decide +kernel⟩

end Lrc20.TxCheck
