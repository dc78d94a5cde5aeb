import Lrc20.Receipts.Bulletproof
import Mathlib.Data.List.AList

/-! The rows of `inner_key`, which an insertion of a transaction writes beside its proofs. -/

namespace Lrc20

namespace AnyReceiptProof

def spenderKeys : AnyReceiptProof → List PublicKey
  | plain proof => proof.spenderKeys
  | bulletproof proof => [proof.innerKey, proof.senderKey]

/-- The keys for which `create_proof_models` makes a row. -/
def innerKeys : AnyReceiptProof → List PublicKey
  | plain (.emptyReceipt proof) => [proof.innerKey]
  | plain (.sig proof) => [proof.innerKey]
  | plain (.multisig proof) => proof.innerKeys
  | plain (.p2wsh proof) => [proof.innerKey]
  | plain (.p2tr proof) => [proof.innerKey]
  | plain (.lightning _) | plain (.lightningHtlc _) | plain (.sparkExit _) | bulletproof _ => []

theorem spenderKeys_eq_innerKeys {proof : AnyReceiptProof} (stored : proof.innerKeys ≠ []) :
    proof.spenderKeys = proof.innerKeys := by
  cases proof with
  | bulletproof proof => exact absurd rfl stored
  | plain proof =>
    cases proof with
    | lightning | lightningHtlc | sparkExit => exact absurd rfl stored
    | _ => rfl

end AnyReceiptProof

namespace Storage

/-- `inner_key` has a unique index on the output. -/
abbrev InnerKeyRows := AList fun _ : OutPoint => PublicKey

abbrev OutputProofs := AList fun _ : Nat => AnyReceiptProof

namespace InnerKeyRows

/-- The insertions for one proof: a row of the output takes the next key. -/
def insertKeys (rows : InnerKeyRows) (outpoint : OutPoint) (keys : List PublicKey) : InnerKeyRows :=
  keys.foldl (fun rows key => rows.insert outpoint key) rows

/-- The loop over the proofs in `insert_lrc20_transaction`. -/
def insertProofKeys (txid : Txid) (rows : InnerKeyRows)
    (entries : List (Sigma fun _ : Nat => AnyReceiptProof)) : InnerKeyRows :=
  entries.foldl (fun rows entry => rows.insertKeys ⟨txid, entry.1⟩ entry.2.innerKeys) rows

/-- The rows of an output are the distinct spender keys of its proof. -/
def Keeps (rows : InnerKeyRows) (outpoint : OutPoint) (proof : AnyReceiptProof) : Prop :=
  ∀ key, rows.lookup outpoint = some key ↔ key ∈ proof.spenderKeys

/-- Where a proof has rows, its keys are one key; where it has none, the row that its output has
already is that of its keys. -/
def Fits (rows : InnerKeyRows) (outpoint : OutPoint) (proof : AnyReceiptProof) : Prop :=
  if proof.innerKeys = [] then rows.Keeps outpoint proof
  else ∀ a ∈ proof.spenderKeys, ∀ b ∈ proof.spenderKeys, a = b

variable {txid : Txid} {rows : InnerKeyRows} {outpoint other : OutPoint} {proof : AnyReceiptProof}

/-- The last key stays. -/
theorem lookup_insertKeys (keys : List PublicKey) : (rows.insertKeys outpoint keys).lookup other =
    if other = outpoint then keys.getLast?.or (rows.lookup other) else rows.lookup other := by
  induction keys generalizing rows with
  | nil => exact (ite_self _).symm
  | cons key rest ih =>
    refine ih.trans ?_
    by_cases same : other = outpoint
    · rw [if_pos same, if_pos same, same, AList.lookup_insert, List.getLast?_cons]
      cases rest.getLast? <;> rfl
    · rw [if_neg same, if_neg same, AList.lookup_insert_ne same]

variable {entries : List (Sigma fun _ : Nat => AnyReceiptProof)}

theorem lookup_insertProofKeys_ne (different : ∀ entry ∈ entries, other ≠ ⟨txid, entry.1⟩) :
    (rows.insertProofKeys txid entries).lookup other = rows.lookup other := by
  induction entries generalizing rows with
  | nil => rfl
  | cons entry rest ih =>
    refine (ih fun entry mem => different entry (by simp [mem])).trans ?_
    rw [lookup_insertKeys, if_neg (different entry (by simp))]

theorem lookup_insertProofKeys {vout : Nat} (distinct : entries.NodupKeys)
    (mem : ⟨vout, proof⟩ ∈ entries) : (rows.insertProofKeys txid entries).lookup ⟨txid, vout⟩ =
      proof.innerKeys.getLast?.or (rows.lookup ⟨txid, vout⟩) := by
  induction entries generalizing rows with
  | nil => cases mem
  | cons entry rest ih =>
    obtain ⟨fresh, distinct⟩ := List.nodupKeys_cons.mp distinct
    have apart : ∀ later ∈ rest, (⟨txid, later.1⟩ : OutPoint) ≠ ⟨txid, entry.1⟩ := by
      intro later inRest same
      exact fresh ((OutPoint.mk.inj same).2 ▸ List.mem_keys_of_mem inRest)
    rcases List.mem_cons.mp mem with rfl | inRest
    · have others := @lookup_insertProofKeys_ne txid (rows.insertKeys ⟨txid, vout⟩ proof.innerKeys)
        _ rest fun later inRest => (apart later inRest).symm
      exact others.trans (by rw [lookup_insertKeys, if_pos rfl])
    · refine (ih distinct inRest).trans ?_
      rw [lookup_insertKeys, if_neg (apart _ inRest)]

theorem keeps_insertProofKeys_iff {vout : Nat} (distinct : entries.NodupKeys)
    (mem : ⟨vout, proof⟩ ∈ entries) :
    (rows.insertProofKeys txid entries).Keeps ⟨txid, vout⟩ proof ↔
      rows.Fits ⟨txid, vout⟩ proof := by
  unfold Keeps Fits
  rw [lookup_insertProofKeys distinct mem]
  by_cases none : proof.innerKeys = []
  · rw [none, if_pos rfl]
    rfl
  · rw [if_neg none, AnyReceiptProof.spenderKeys_eq_innerKeys none]
    obtain ⟨front, last, keys⟩ := (List.eq_nil_or_concat' _).resolve_left none
    rw [keys, List.getLast?_concat]
    constructor
    · intro rows a aMem b bMem
      exact Option.some.inj (((rows a).mpr aMem).symm.trans ((rows b).mpr bMem))
    · intro same key
      refine ⟨fun kept => ?_, fun mem => congrArg some (same _ (by simp) _ mem)⟩
      obtain rfl := Option.some.inj kept
      simp

/-- Whatever was inserted before: after an insertion the rows of each output are the spender keys
of its proof exactly if it fits, and the rows of other transactions are as before. -/
theorem spender_keys_kept_iff (rows : InnerKeyRows) (txid : Txid) (proofs : OutputProofs) :
    (∀ vout, ∀ proof ∈ proofs.lookup vout,
      (rows.insertProofKeys txid proofs.entries).Keeps ⟨txid, vout⟩ proof ↔
        rows.Fits ⟨txid, vout⟩ proof) ∧
    ∀ other, other.txid ≠ txid →
      (rows.insertProofKeys txid proofs.entries).lookup other = rows.lookup other := by
  constructor
  · intro vout proof found
    exact keeps_insertProofKeys_iff proofs.nodupKeys (AList.mem_lookup_iff.mp found)
  · intro other different
    exact lookup_insertProofKeys_ne fun entry _ same => different (congrArg OutPoint.txid same)

/-- Of the two keys of a multisig output the second is kept. -/
theorem first_of_two_keys_lost :
    let proof : AnyReceiptProof := .plain
      (.multisig ⟨⟨TokenAmount.new 7, .repeating 3⟩, [.repeating 5, .repeating 6], 2⟩)
    PublicKey.repeating 5 ∈ proof.spenderKeys ∧
      ((∅ : InnerKeyRows).insertProofKeys 1 [⟨0, proof⟩]).lookup ⟨1, 0⟩ = some (.repeating 6) := by
  decide +kernel

end InnerKeyRows

end Storage

end Lrc20
