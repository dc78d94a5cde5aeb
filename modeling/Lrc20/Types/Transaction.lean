import Lrc20.Receipts.Proof
import Lrc20.Types.Announcement

namespace Lrc20

/-- A `BTreeMap<u32, ReceiptProof>`: entries in increasing order of their index. -/
structure ProofMap where
  entries : List (Nat × ReceiptProof)
  sorted : (entries.map Prod.fst).Pairwise (· < ·)
deriving DecidableEq

namespace ProofMap

def empty : ProofMap := ⟨[], List.Pairwise.nil⟩

def values (proofs : ProofMap) : List ReceiptProof := proofs.entries.map Prod.snd

def keys (proofs : ProofMap) : List Nat := proofs.entries.map Prod.fst

end ProofMap

inductive Lrc20TxType where
  | issue (outputProofs : Option ProofMap) (announcement : IssueAnnouncement)
  | transfer (inputProofs outputProofs : ProofMap)
  | announcement (announcement : Announcement)
  | sparkExit (outputProofs : ProofMap)
deriving DecidableEq

namespace Lrc20TxType

def outputProofs : Lrc20TxType → Option ProofMap
  | issue outputProofs _ => outputProofs
  | transfer _ outputProofs => some outputProofs
  | sparkExit outputProofs => some outputProofs
  | announcement _ => none

def inputProofs : Lrc20TxType → Option ProofMap
  | transfer inputProofs _ => some inputProofs
  | _ => none

def isIssue : Lrc20TxType → Bool
  | issue _ _ => true
  | _ => false

def isAnnouncement : Lrc20TxType → Bool
  | announcement _ => true
  | _ => false

end Lrc20TxType

structure Lrc20Transaction where
  bitcoinTx : Transaction
  txType : Lrc20TxType
deriving DecidableEq

namespace Lrc20Transaction

def txid (tx : Lrc20Transaction) : Txid := tx.bitcoinTx.txid

/-- The output proofs, none when the transaction carries no proof map. -/
def outputs (tx : Lrc20Transaction) : List (Nat × ReceiptProof) :=
  match tx.txType.outputProofs with
  | some proofs => proofs.entries
  | none => []

/-- The outpoints a transfer takes tokens from, with their proofs: the input proofs that
are not empty and whose index is an input. -/
def spends (tx : Lrc20Transaction) : List (OutPoint × ReceiptProof) :=
  match tx.txType with
  | .transfer inputProofs _ =>
    inputProofs.entries.filterMap fun (index, proof) =>
      if proof.isEmptyReceiptproof then none
      else (tx.bitcoinTx.input[index]?).map fun input => (input.previousOutput, proof)
  | _ => []

variable {tx : Lrc20Transaction} {spent : OutPoint × ReceiptProof}

/-- An input proof takes from the output its input names, unless it is empty. -/
theorem spend_eq_some {index : Nat} {proof : ReceiptProof} :
    (if proof.isEmptyReceiptproof then none
      else (tx.bitcoinTx.input[index]?).map fun input => (input.previousOutput, proof)) =
        some spent ↔
      proof.isEmptyReceiptproof = false ∧ ∃ input, tx.bitcoinTx.input[index]? = some input ∧
        spent = (input.previousOutput, proof) := by
  cases empty : proof.isEmptyReceiptproof with
  | true => simp
  | false => simp [eq_comm]

theorem mem_spends :
    spent ∈ tx.spends ↔ ∃ inputProofs outputProofs,
      tx.txType = .transfer inputProofs outputProofs ∧ ∃ index proof input,
        (index, proof) ∈ inputProofs.entries ∧ proof.isEmptyReceiptproof = false ∧
        tx.bitcoinTx.input[index]? = some input ∧ spent = (input.previousOutput, proof) := by
  unfold spends
  cases kind : tx.txType with
  | transfer inputProofs outputProofs =>
    dsimp only
    rw [List.mem_filterMap]
    constructor
    · rintro ⟨⟨index, proof⟩, mem, selected⟩
      obtain ⟨notEmpty, input, found, rfl⟩ := spend_eq_some.mp selected
      exact ⟨inputProofs, outputProofs, rfl, index, proof, input, mem, notEmpty, found, rfl⟩
    · rintro ⟨_, _, ⟨⟩, index, proof, input, mem, notEmpty, found, rfl⟩
      exact ⟨(index, proof), mem, spend_eq_some.mpr ⟨notEmpty, input, found, rfl⟩⟩
  | _ => simp

/-- The transactions whose outputs a transfer takes tokens from. -/
def parents (tx : Lrc20Transaction) : List Txid :=
  tx.spends.map fun spent => spent.1.txid

end Lrc20Transaction

end Lrc20
