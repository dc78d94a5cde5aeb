import Lrc20.TxCheck.Coverage
import Lrc20.TxCheck.Full

/-! What the check of an input proof says about the output that the input spends. -/

open Lrc20.Storage Outcome

namespace Lrc20.TxCheck

open ReceiptProof

def outputAt (chain : Txid → Option Transaction) (outpoint : OutPoint) : Option TxOut :=
  (chain outpoint.txid).bind fun tx => tx.output[outpoint.vout]?

/-- What the check of an input proof takes for granted about the spent output: that it is of the
script type the witness is read as, that the Bitcoin node answers with the chain's transaction,
and for the proof of an exit everything. -/
def SpendsItsKind (prims : Primitives) (client : BitcoinClient)
    (chain : Txid → Option Transaction) (txin : TxIn) (spent : TxOut) : ReceiptProof → Prop
  | .sig _ | .emptyReceipt _ =>
    spent.scriptPubkey.isP2wpkh ∧ ∀ key ∈ txin.witness[1]?, key.length = 33
  | .multisig _ | .lightning _ | .lightningHtlc _ | .p2wsh _ => spent.scriptPubkey.isP2wsh
  | .p2tr _ =>
    ∀ prevTx ∈ (client.getRawTransaction txin.previousOutput.txid).toOption,
      chain txin.previousOutput.txid = some prevTx
  | .sparkExit proof => proof.checkedCheckByOutput prims spent = .ok ()

instance (prims : Primitives) (client : BitcoinClient) (chain : Txid → Option Transaction)
    (txin : TxIn) (spent : TxOut) :
    (proof : ReceiptProof) → Decidable (SpendsItsKind prims client chain txin spent proof)
  | .sig _ | .emptyReceipt _ => inferInstanceAs (Decidable (_ ∧ _))
  | .multisig _ | .lightning _ | .lightningHtlc _ | .p2wsh _ => inferInstanceAs (Decidable (_ = _))
  | .p2tr _ => inferInstanceAs (Decidable (∀ prevTx ∈ Except.toOption _, _))
  | .sparkExit _ => inferInstanceAs (Decidable (_ = _))

section Witnesses

variable {prims : Primitives} {txin : TxIn} {spent : TxOut} {key : PublicKey}

theorem of_p2wpkhWitnessKey {witness : List Bytes}
    (read : p2wpkhWitnessKey prims witness = .ok key) :
    ∃ signature bytes, witness = [signature, bytes] ∧
      prims.publicKeyFromSlice bytes = some key := by
  unfold p2wpkhWitnessKey at read
  split at read
  case h_2 => cases read
  case h_1 signature bytes =>
    split at read
    case isFalse => cases read
    case isTrue =>
      split at read
      case h_2 => cases read
      case h_1 found parsed =>
        obtain rfl := Except.ok.inj read
        exact ⟨signature, bytes, rfl, parsed⟩

/-- A compressed key shown to a P2WPKH output is the one it pays to. -/
theorem script_of_p2wpkhWitness (valid : ValidSpend prims spent.scriptPubkey txin)
    (kind : spent.scriptPubkey.isP2wpkh)
    (compressed : ∀ bytes ∈ txin.witness[1]?, bytes.length = 33)
    (read : p2wpkhWitnessKey prims txin.witness = .ok key) :
    spent.scriptPubkey = prims.toP2wpkh key := by
  obtain ⟨hash, script⟩ := ScriptBuf.eq_newP2wpkh kind
  obtain ⟨signature, shown, witness, rfl⟩ := valid.p2wpkh hash script
  obtain ⟨signature', bytes, witness', parsed⟩ := of_p2wpkhWitnessKey read
  rw [witness'] at witness compressed
  obtain ⟨-, same⟩ : signature' = signature ∧ bytes = shown := by simpa using witness
  have short : bytes.length ≠ 65 := by
    have length := compressed bytes (by simp)
    omega
  have serialized := Primitives.serialize_of_publicKeyFromSlice short parsed
  rw [script, ← same, ← serialized]
  rfl

/-- A redeem script shown to a P2WSH output, or one with its hash, is what it pays to. -/
theorem script_of_redeemScript {shown expected : ScriptBuf}
    (valid : ValidSpend prims spent.scriptPubkey txin) (kind : spent.scriptPubkey.isP2wsh)
    (last : txin.witness.getLast? = some shown)
    (same : prims.sha256 shown = prims.sha256 expected) :
    spent.scriptPubkey = prims.toP2wsh expected := by
  obtain ⟨hash, script⟩ := ScriptBuf.eq_newP2wsh kind
  obtain ⟨redeem, last', rfl⟩ := valid.p2wsh hash script
  rw [last] at last'
  obtain rfl := Option.some.inj last'
  rw [script, same]
  rfl

theorem of_p2wshWitness {stack : List Bytes} {script : ScriptBuf}
    (read : p2wshWitness txin.witness = .ok (stack, script)) :
    txin.witness.getLast? = some script := by
  unfold p2wshWitness at read
  cases last : txin.witness.getLast? with
  | none =>
    rw [last] at read
    cases read
  | some found =>
    rw [last] at read
    obtain ⟨-, rfl⟩ := Prod.mk.inj (Except.ok.inj read)
    rfl

end Witnesses

variable {prims : Primitives} {client : BitcoinClient} {chain : Txid → Option Transaction}
  {txin : TxIn} {spent : TxOut} {tables : L1Tables} {proof : ReceiptProof} {tx : Lrc20Transaction}

theorem script_of_isP2trProofValid {proof : TaprootProof}
    (answers : ∀ prevTx ∈ (client.getRawTransaction txin.previousOutput.txid).toOption,
      chain txin.previousOutput.txid = some prevTx)
    (output : outputAt chain txin.previousOutput = some spent)
    (accepted : isP2trProofValid prims client proof txin.previousOutput) :
    proof.toWitnessScript prims = .ok spent.scriptPubkey := by
  unfold isP2trProofValid at accepted
  cases answer : client.getRawTransaction txin.previousOutput.txid with
  | error failure =>
    rw [answer] at accepted
    cases accepted
  | ok prevTx =>
    rw [answer] at accepted
    have onChain := answers prevTx (by simp [answer, Except.toOption])
    rw [outputAt, onChain, Option.bind_some] at output
    dsimp only at accepted
    rw [output] at accepted
    unfold checkP2trProof at accepted
    simp only [Bool.and_eq_true, beq_iff_eq] at accepted
    cases made : proof.toWitnessScript prims with
    | error failure =>
      rw [made] at accepted
      cases accepted.2
    | ok script =>
      rw [made] at accepted
      exact congrArg Except.ok (Option.some.inj accepted.2)

/-- An accepted input proof opens the output it spends, if it is of its kind. -/
theorem opens_spent_output (output : outputAt chain txin.previousOutput = some spent)
    (valid : ValidSpend prims spent.scriptPubkey txin)
    (kind : SpendsItsKind prims client chain txin spent proof)
    (byInput : proof.checkedCheckByInput prims txin = .ok ())
    (allowed : isInputAllowed prims client tables txin.previousOutput proof) :
    ∃ innerKey lock, proof.opening prims = .ok (innerKey, lock) ∧
      spent.scriptPubkey = lock.script prims := by
  cases proof with
  | sig proof | emptyReceipt proof =>
    obtain ⟨pubkey, read, checked⟩ := bind_eq_ok.mp byInput
    split at checked
    case h_1 => cases checked
    case h_2 key tweaked =>
      obtain rfl := (ite_eq_ok.mp checked).1
      exact ⟨proof.innerKey, .wpkh key, by simp only [opening, tweaked],
        script_of_p2wpkhWitness valid kind.1 kind.2 read⟩
  | multisig proof =>
    obtain ⟨⟨stack, shown⟩, read, rest⟩ := bind_eq_ok.mp byInput
    obtain ⟨signatures, -, counted⟩ := bind_eq_ok.mp rest
    split at counted
    case isTrue => cases counted
    case isFalse =>
      obtain ⟨expected, built, same⟩ := bind_eq_ok.mp counted
      obtain rfl := (ite_eq_ok.mp same).1
      obtain ⟨first, opened⟩ := MultisigReceiptProof.opening_of_created built
      exact ⟨first, .wsh expected, opened,
        script_of_redeemScript valid kind (of_p2wshWitness read) rfl⟩
  | lightning proof =>
    obtain ⟨⟨stack, shown⟩, read, rest⟩ := bind_eq_ok.mp byInput
    obtain ⟨_, -, rest⟩ := bind_eq_ok.mp rest
    obtain ⟨expected, built, same⟩ := bind_eq_ok.mp rest
    obtain rfl := (ite_eq_ok.mp same).1
    exact ⟨proof.data.revocationPubkey, .wsh expected.toScript,
      bind_eq_ok.mpr ⟨expected, built, rfl⟩,
      script_of_redeemScript valid kind (of_p2wshWitness read) rfl⟩
  | lightningHtlc proof =>
    simp only [checkedCheckByInput, LightningHtlcProof.checkedCheckByInput] at byInput
    cases last : txin.witness.getLast? with
    | none =>
      rw [last] at byInput
      cases byInput
    | some shown =>
      rw [last] at byInput
      obtain ⟨expected, built, same⟩ := bind_eq_ok.mp byInput
      exact ⟨proof.data.remoteHtlcKey, .wsh expected, bind_eq_ok.mpr ⟨expected, built, rfl⟩,
        script_of_redeemScript valid kind last (ite_eq_ok.mp same).1⟩
  | p2wsh proof =>
    obtain ⟨_, checked, rest⟩ := bind_eq_ok.mp byInput
    obtain ⟨⟨stack, shown⟩, read, same⟩ := bind_eq_ok.mp rest
    obtain rfl := (ite_eq_ok.mp same).1
    exact ⟨proof.innerKey, .wsh proof.script, bind_eq_ok.mpr ⟨(), checked, rfl⟩,
      script_of_redeemScript valid kind (of_p2wshWitness read) rfl⟩
  | p2tr proof =>
    simp only [isInputAllowed, Bool.and_eq_true] at allowed
    have made := script_of_isP2trProofValid kind output allowed.2
    unfold TaprootProof.toWitnessScript at made
    split at made
    case h_1 => cases made
    case h_2 key tweaked =>
      exact ⟨proof.innerKey, .keyPath key.x, by simp only [opening, tweaked],
        (Except.ok.inj made).symm⟩
  | sparkExit proof =>
    exact @script_of_checkedCheckByOutput _ (.sparkExit proof) _ kind

theorem passed_of_checkTransaction {inputProofs outputProofs : ProofMap}
    (kind : tx.txType = .transfer inputProofs outputProofs)
    (accepted : checkTransaction prims tx = .ok ()) {entry : Nat × ReceiptProof}
    (mem : entry ∈ inputProofs.entries) (isInput : tx.bitcoinTx.input[entry.1]? = some txin) :
    entry.2.checkedCheckByInput prims txin = .ok () := by
  unfold checkTransaction at accepted
  rw [kind] at accepted
  obtain ⟨_, -, rest⟩ := bind_eq_ok.mp accepted
  obtain ⟨_, extracted, rest⟩ := bind_eq_ok.mp rest
  obtain ⟨_, -, rest⟩ := bind_eq_ok.mp rest
  obtain ⟨_, passed, -⟩ := bind_eq_ok.mp rest
  obtain ⟨found, there, checked⟩ := passed_of_extract extracted passed entry mem
  obtain rfl := Option.some.inj (there.symm.trans isInput)
  unfold checkInputProof at checked
  split at checked
  case isTrue => cases checked
  case isFalse => exact mapError_eq_ok.mp checked

theorem allowed_of_checkTransfer {entries : List (Nat × ReceiptProof)}
    (passed : checkTransfer prims client tables tx entries = .ok true) :
    ∀ entry ∈ entries, ∃ txin, tx.bitcoinTx.input[entry.1]? = some txin ∧
      isInputAllowed prims client tables txin.previousOutput entry.2 = true := by
  induction entries with
  | nil => exact nofun
  | cons first rest ih =>
    obtain ⟨index, proof⟩ := first
    unfold checkTransfer at passed
    split at passed
    case h_1 => cases passed
    case h_2 txin found =>
      split at passed
      case isTrue => cases passed
      case isFalse allowed =>
        split at passed
        case h_1 => cases passed
        case h_2 =>
          intro entry mem
          rcases List.mem_cons.mp mem with rfl | mem
          · exact ⟨txin, found, not_not.mp allowed⟩
          · exact ih passed entry mem

/-- A proof that opens a spent output has the receipt that its transaction has put there. -/
theorem receipt_of_opening {parent : Lrc20Transaction} {outpoint : OutPoint} {innerKey : PublicKey}
    {lock : Lock} (onChain : chain outpoint.txid = some parent.bitcoinTx)
    (output : outputAt chain outpoint = some spent)
    (proved : OutputsProved (fun proof output => proof.checkedCheckByOutput prims output = .ok ())
      ReceiptProof.amount parent.bitcoinTx.output parent.outputs (announcedAmount parent))
    (opened : proof.opening prims = .ok (innerKey, lock))
    (pays : spent.scriptPubkey = lock.script prims)
    (noCollision : ∀ entry ∈ parent.outputs,
      AnyReceiptProof.NoCollision prims [.plain entry.2, .plain proof]) :
    ∃ other, (outpoint.vout, other) ∈ parent.outputs ∧ other.receipt = proof.receipt := by
  rw [outputAt, onChain, Option.bind_some] at output
  have spendable : spent.scriptPubkey.isOpReturn = false := pays ▸ Lock.isOpReturn_script prims lock
  obtain ⟨⟨vout, other⟩, mem, rfl⟩ := proved.bijective.surjOn ⟨spent, output, spendable⟩
  refine ⟨other, mem, ?_⟩
  obtain ⟨found, there, checked⟩ := proved.passed _ mem
  obtain rfl := Option.some.inj (there.symm.trans output)
  obtain ⟨_, _, openedOther, paysOther⟩ := script_of_checkedCheckByOutput checked
  exact @AnyReceiptProof.receipt_of_script prims (.plain other) (.plain proof) _ _ _ _
    (noCollision _ mem) openedOther opened (paysOther.symm.trans pays)

end Lrc20.TxCheck
