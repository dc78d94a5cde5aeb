import Lrc20.Lib.Outcome
import Lrc20.TxCheck.Spark

/-! When a Spark transaction passes its check, next to what the batch has already gone
through. -/

open Lrc20.Storage Outcome

namespace Lrc20.TxCheck

section

variable (tables : SparkTables) (checkedTxs : AList fun _ : SparkHash => TokenTransaction)

/-- The transaction a parent hash is resolved to: one in the storage, or else one that
passed earlier in the batch. -/
def findParent (hash : SparkHash) : Option TokenTransaction :=
  (tables.getSparkTxWithOutputs hash).or (checkedTxs.lookup hash)

/-- The leaf an input is resolved to. -/
def findLeaf (input : TokenLeafToSpend) : Option TokenLeafOutput :=
  (findParent tables checkedTxs input.parentOutputHash).bind fun parent =>
    parent.leavesToCreate[input.parentOutputVout.toNat]?

/-- The operator lists are compared as lists. -/
def operatorsMatch (tx parent : TokenTransaction) : Bool :=
  tx.sparkOperatorIdentityPublicKeys = parent.sparkOperatorIdentityPublicKeys

/-- The leaf an input may be spent as: its parent has the operators of the transaction and
the leaf is not frozen. -/
def spendableLeaf (tx : TokenTransaction) (input : TokenLeafToSpend) : Option TokenLeafOutput :=
  (findParent tables checkedTxs input.parentOutputHash).bind fun parent =>
    if operatorsMatch tx parent then
      (parent.leavesToCreate[input.parentOutputVout.toNat]?).filter fun leaf =>
        !leaf.isFrozen.getD false
    else none

/-- The id belongs to a leaf of a stored transaction with another hash. -/
def takenByAnother (hash : SparkHash) (id : String) : Bool :=
  match tables.getSparkOutputModel id with
  | none => false
  | some (place, _) => place.tokenTransactionHash != hash

end

section Loops

variable {tables : SparkTables} {tx : TokenTransaction} {sender : Option SocketAddr}
  {checkedTxs : AList fun _ : SparkHash => TokenTransaction} {input : TokenLeafToSpend}
  {leaf : TokenLeafOutput} {leaves : List TokenLeafOutput}

theorem spendableLeaf_eq_some_iff :
    spendableLeaf tables checkedTxs tx input = some leaf ↔
      ∃ parent, findParent tables checkedTxs input.parentOutputHash = some parent ∧
        operatorsMatch tx parent ∧
        parent.leavesToCreate[input.parentOutputVout.toNat]? = some leaf ∧
        leaf.isFrozen.getD false = false := by
  unfold spendableLeaf
  rw [Option.bind_eq_some_iff]
  apply exists_congr
  intro parent
  apply and_congr_right
  intro _
  by_cases same : operatorsMatch tx parent
  · rw [if_pos same, Option.filter_eq_some_iff]
    simp [same]
  · simp [same]

theorem findLeaf_of_spendableLeaf
    (spendable : spendableLeaf tables checkedTxs tx input = some leaf) :
    findLeaf tables checkedTxs input = some leaf := by
  obtain ⟨parent, found, -, there, -⟩ := spendableLeaf_eq_some_iff.mp spendable
  unfold findLeaf
  rw [found]
  exact there

theorem inputLeaves_cons (input : TokenLeafToSpend) (rest : List TokenLeafToSpend)
    (state : SparkChecking) :
    (inputLeaves tables tx sender (input :: rest) state).2 =
      if input.outPoint ∈ state.spentLeaves then none
      else (spendableLeaf tables state.checkedTxs tx input).bind fun leaf =>
        (inputLeaves tables tx sender rest
          { state with spentLeaves := input.outPoint :: state.spentLeaves }).2.map (leaf :: ·) := by
  unfold spendableLeaf findParent operatorsMatch
  conv_lhs => unfold inputLeaves
  split
  case isTrue => rfl
  case isFalse =>
    split
    case h_1 missing =>
      rw [missing]
      rfl
    case h_2 parent known =>
      rw [known]
      split
      case isTrue differ => simp [differ]
      case isFalse same =>
        simp only [ne_eq, Decidable.not_not] at same
        simp only [same, Option.bind_some, decide_true, if_true]
        cases parent.leavesToCreate[input.parentOutputVout.toNat]? with
        | none => rfl
        | some leaf =>
          simp only [Option.filter_some]
          cases leaf.isFrozen.getD false <;> rfl

/-- The loop over the inputs ends well when the inputs are distinct, none is spent in the
batch, and each can be spent. -/
theorem inputLeaves_eq_some_iff {inputs : List TokenLeafToSpend} {state : SparkChecking} :
    (inputLeaves tables tx sender inputs state).2 = some leaves ↔
      (inputs.map TokenLeafToSpend.outPoint).Nodup ∧
      (∀ input ∈ inputs, input.outPoint ∉ state.spentLeaves) ∧
      inputs.map (spendableLeaf tables state.checkedTxs tx) = leaves.map some := by
  induction inputs generalizing state leaves with
  | nil =>
    constructor
    · intro found
      obtain rfl := Option.some.inj found
      simp
    · rintro ⟨-, -, same⟩
      obtain rfl : leaves = [] := by simpa using same.symm
      rfl
  | cons input rest ih =>
    rw [inputLeaves_cons]
    by_cases spent : input.outPoint ∈ state.spentLeaves
    · rw [if_pos spent]
      constructor
      · intro impossible
        cases impossible
      · rintro ⟨-, unspent, -⟩
        exact absurd spent (unspent input (by simp))
    · rw [if_neg spent, Option.bind_eq_some_iff]
      simp only [Option.map_eq_some_iff, ih, List.map_cons, List.nodup_cons, List.mem_cons,
        forall_eq_or_imp, not_or]
      constructor
      · rintro ⟨leaf, found, others, ⟨distinct, unspent, same⟩, rfl⟩
        refine ⟨⟨?_, distinct⟩, ⟨spent, fun other mem => (unspent other mem).2⟩, ?_⟩
        · intro again
          obtain ⟨other, mem, same⟩ := List.mem_map.mp again
          exact (unspent other mem).1 same
        · rw [found, same, List.map_cons]
      · rintro ⟨⟨new, distinct⟩, ⟨-, unspent⟩, same⟩
        cases leaves with
        | nil => cases same
        | cons leaf others =>
          obtain ⟨found, sameRest⟩ := List.cons.inj same
          refine ⟨leaf, found, others, ⟨distinct, ?_, sameRest⟩, rfl⟩
          intro other mem
          refine ⟨?_, unspent other mem⟩
          intro again
          exact new (again ▸ List.mem_map_of_mem mem)

theorem inputLeaves_checkedTxs (tx : TokenTransaction) (sender : Option SocketAddr)
    (inputs : List TokenLeafToSpend) (state : SparkChecking) :
    (inputLeaves tables tx sender inputs state).1.checkedTxs = state.checkedTxs := by
  induction inputs generalizing state with
  | nil => rfl
  | cons input rest ih =>
    unfold inputLeaves
    repeat' split
    all_goals first | rfl | exact ih _

theorem inputLeaves_newLeaves (tx : TokenTransaction) (sender : Option SocketAddr)
    (inputs : List TokenLeafToSpend) (state : SparkChecking) :
    (inputLeaves tables tx sender inputs state).1.newLeaves = state.newLeaves := by
  induction inputs generalizing state with
  | nil => rfl
  | cons input rest ih =>
    unfold inputLeaves
    repeat' split
    all_goals first | rfl | exact ih _

/-- The loop over the leaves to create ends well when their ids are distinct, new in the batch
and not those of another transaction, and each leaf is valid. -/
theorem createLeaves_eq_true_iff {hash : SparkHash} {valid : TokenLeafOutput → Bool}
    {newLeaves : List String} :
    (createLeaves tables hash valid leaves newLeaves).2 = true ↔
      (leaves.map TokenLeafOutput.id).Nodup ∧ (∀ leaf ∈ leaves, leaf.id ∉ newLeaves) ∧
      ∀ leaf ∈ leaves, takenByAnother tables hash leaf.id = false ∧ valid leaf := by
  induction leaves generalizing newLeaves with
  | nil => simp [createLeaves]
  | cons leaf rest ih =>
    have turn : (createLeaves tables hash valid (leaf :: rest) newLeaves).2 =
        if leaf.id ∈ newLeaves ∨ takenByAnother tables hash leaf.id ∨ ¬ valid leaf then false
        else (createLeaves tables hash valid rest (leaf.id :: newLeaves)).2 :=
      apply_ite Prod.snd _ _ _
    rw [turn]
    split
    case isTrue refused =>
      constructor
      · intro impossible
        cases impossible
      · rintro ⟨-, new, admitted⟩
        obtain ⟨free, ok⟩ := admitted leaf (by simp)
        rcases refused with old | taken | invalid
        · exact absurd old (new leaf (by simp))
        · rw [free] at taken
          cases taken
        · exact absurd ok invalid
    case isFalse admitted =>
      simp only [not_or, Decidable.not_not] at admitted
      obtain ⟨new, notTaken, ok⟩ := admitted
      have free := Bool.eq_false_iff.mpr notTaken
      rw [ih]
      simp only [List.map_cons, List.nodup_cons, List.mem_cons, forall_eq_or_imp, not_or]
      constructor
      · rintro ⟨distinct, unused, others⟩
        refine ⟨⟨?_, distinct⟩, ⟨new, fun other mem => (unused other mem).2⟩, ⟨free, ok⟩, others⟩
        intro again
        obtain ⟨other, mem, same⟩ := List.mem_map.mp again
        exact (unused other mem).1 same
      · rintro ⟨⟨first, distinct⟩, ⟨-, unused⟩, -, others⟩
        refine ⟨distinct, ?_, others⟩
        intro other mem
        exact ⟨fun again => first (again ▸ List.mem_map_of_mem mem), unused other mem⟩

end Loops

/-! ### The verdict -/

/-- The leaves to create have ids of their own. -/
structure IdsFree (prims : Primitives) (tables : SparkTables) (tx : TokenTransaction) : Prop where
  distinct : (tx.leavesToCreate.map TokenLeafOutput.id).Nodup
  free : ∀ leaf ∈ tx.leavesToCreate, takenByAnother tables (tx.hash prims) leaf.id = false

/-- A mint signed by its issuer, of leaves it may issue. -/
def ValidMint (prims : Primitives) (l1 : L1Tables) (validateAnnouncement : Bool)
    (tx : TokenTransaction) : Prop :=
  ∃ issuer signature timestamp, tx.input = .mint issuer (some signature) timestamp ∧
    signature.ownerSignature.verify prims issuer (tx.hash prims)
      signature.operatorIdentityPublicKey ∧
    ∀ leaf ∈ tx.leavesToCreate, isLeafOfIssuer l1 validateAnnouncement issuer leaf

/-- A transfer of distinct leaves that can be spent, which conserves them. -/
structure ValidTransfer (tables : SparkTables)
    (checkedTxs : AList fun _ : SparkHash => TokenTransaction) (tx : TokenTransaction) : Prop where
  transfer : tx.isMint = false
  distinct : (tx.outputsToSpend.map TokenLeafToSpend.outPoint).Nodup
  conserves : ∃ leaves, tx.outputsToSpend.map (spendableLeaf tables checkedTxs tx) =
    leaves.map some ∧ checkSparkConservationRules leaves tx.leavesToCreate

variable {tables : SparkTables} {checkedTxs : AList fun _ : SparkHash => TokenTransaction}
  {input : TokenLeafToSpend}

theorem ValidTransfer.spendable {tx : TokenTransaction} (valid : ValidTransfer tables checkedTxs tx)
    (spent : input ∈ tx.outputsToSpend) :
    ∃ leaf, spendableLeaf tables checkedTxs tx input = some leaf := by
  obtain ⟨leaves, found, -⟩ := valid.conserves
  exact exists_some_of_map found spent

theorem ValidTransfer.operators {tx parent : TokenTransaction}
    (valid : ValidTransfer tables checkedTxs tx) (spent : input ∈ tx.outputsToSpend)
    (stored : tables.getSparkTxWithOutputs input.parentOutputHash = some parent) :
    operatorsMatch tx parent := by
  obtain ⟨leaf, spendable⟩ := valid.spendable spent
  obtain ⟨resolved, resolves, matching, -⟩ := spendableLeaf_eq_some_iff.mp spendable
  unfold findParent at resolves
  rw [stored, Option.some_or] at resolves
  obtain rfl := Option.some.inj resolves
  exact matching

/-- What makes a transaction valid, apart from the other transactions of its batch that spend
the same leaves or create the same ids. -/
structure Valid (prims : Primitives) (tables : SparkTables) (l1 : L1Tables)
    (validateAnnouncement : Bool) (checkedTxs : AList fun _ : SparkHash => TokenTransaction)
    (tx : TokenTransaction) : Prop where
  ids : IdsFree prims tables tx
  kind : ValidMint prims l1 validateAnnouncement tx ∨ ValidTransfer tables checkedTxs tx

/-- Nothing the transaction spends or creates is in the sets the batch shares. -/
structure ClashFree (spentLeaves : List SparkOutPoint) (newLeaves : List String)
    (tx : TokenTransaction) : Prop where
  inputs : ∀ input ∈ tx.outputsToSpend, input.outPoint ∉ spentLeaves
  leaves : ∀ leaf ∈ tx.leavesToCreate, leaf.id ∉ newLeaves

section Verdict

variable {prims : Primitives} {tables : SparkTables} {l1 : L1Tables} {validateAnnouncement : Bool}
  {tx : TokenTransaction} {sender : Option SocketAddr} {state : SparkChecking}

theorem checkSparkTransfer_iff {outputsToSpend : List TokenLeafToSpend}
    (input : tx.input = .transfer outputsToSpend) :
    (checkSparkTransfer prims tables tx sender outputsToSpend state).2 = true ↔
      (IdsFree prims tables tx ∧ ValidTransfer tables state.checkedTxs tx) ∧
        ClashFree state.spentLeaves state.newLeaves tx := by
  have spends : tx.outputsToSpend = outputsToSpend := by
    unfold TokenTransaction.outputsToSpend
    rw [input]
  have transfer : tx.isMint = false := by
    unfold TokenTransaction.isMint
    rw [input]
  unfold checkSparkTransfer
  simp only
  constructor
  · intro passes
    split at passes
    case h_1 => cases passes
    case h_2 leaves found =>
      obtain ⟨distinct, unspent, same⟩ := inputLeaves_eq_some_iff.mp found
      simp only [Bool.and_eq_true, createLeaves_eq_true_iff, inputLeaves_newLeaves] at passes
      obtain ⟨⟨ids, new, free⟩, conserved⟩ := passes
      refine ⟨⟨⟨ids, fun leaf mem => (free leaf mem).1⟩, ?_⟩, ?_, new⟩
      · rw [← spends] at distinct same
        exact ⟨transfer, distinct, leaves, same, conserved⟩
      · rw [spends]
        exact unspent
  · rintro ⟨⟨ids, valid⟩, clashFree⟩
    obtain ⟨leaves, same, conserved⟩ := valid.conserves
    have found : (inputLeaves tables tx sender outputsToSpend state).2 = some leaves := by
      rw [inputLeaves_eq_some_iff, ← spends]
      exact ⟨valid.distinct, clashFree.inputs, same⟩
    rw [found]
    simp only [Bool.and_eq_true, createLeaves_eq_true_iff, inputLeaves_newLeaves, conserved]
    exact ⟨⟨ids.distinct, clashFree.leaves, fun leaf mem => ⟨ids.free leaf mem, trivial⟩⟩, trivial⟩

theorem checkSparkIssue_iff {issuer : PublicKey} {signature : Option OperatorSpecificOwnerSignature}
    {timestamp : UInt64} (input : tx.input = .mint issuer signature timestamp) :
    (checkSparkIssue prims tables l1 validateAnnouncement tx issuer signature state).2 = true ↔
      (IdsFree prims tables tx ∧ ValidMint prims l1 validateAnnouncement tx) ∧
        ClashFree state.spentLeaves state.newLeaves tx := by
  have spends : tx.outputsToSpend = [] := by
    unfold TokenTransaction.outputsToSpend
    rw [input]
  unfold checkSparkIssue
  cases signature with
  | none =>
    constructor
    · intro impossible
      cases impossible
    · rintro ⟨⟨-, other, signature, time, mint, -⟩, -⟩
      rw [input] at mint
      cases mint
  | some signature =>
    simp only
    split
    case isFalse unsigned =>
      constructor
      · intro impossible
        cases impossible
      · rintro ⟨⟨-, other, signature', time, mint, signed, -⟩, -⟩
        rw [input] at mint
        cases mint
        exact absurd signed unsigned
    case isTrue signed =>
      rw [createLeaves_eq_true_iff]
      constructor
      · rintro ⟨ids, new, free⟩
        refine ⟨⟨⟨ids, fun leaf mem => (free leaf mem).1⟩, issuer, signature, timestamp, input,
          signed, fun leaf mem => (free leaf mem).2⟩, ?_, new⟩
        rw [spends]
        simp
      · rintro ⟨⟨ids, other, signature', time, mint, -, issued⟩, clashFree⟩
        rw [input] at mint
        cases mint
        exact ⟨ids.distinct, clashFree.leaves, fun leaf mem => ⟨ids.free leaf mem, issued leaf mem⟩⟩

/-- A transaction passes when it is valid next to what passed before it and clashes with
nothing in the sets the batch shares. -/
theorem checkSparkTransaction_iff :
    (checkSparkTransaction prims tables l1 validateAnnouncement tx sender state).2 = true ↔
      Valid prims tables l1 validateAnnouncement state.checkedTxs tx ∧
        ClashFree state.spentLeaves state.newLeaves tx := by
  unfold checkSparkTransaction
  cases input : tx.input with
  | mint issuer signature timestamp =>
    rw [checkSparkIssue_iff input]
    apply and_congr_left
    intro _
    constructor
    · rintro ⟨ids, mint⟩
      exact ⟨ids, .inl mint⟩
    · rintro ⟨ids, mint | transfer⟩
      · exact ⟨ids, mint⟩
      · have notMint := transfer.transfer
        unfold TokenTransaction.isMint at notMint
        rw [input] at notMint
        cases notMint
  | transfer outputsToSpend =>
    rw [checkSparkTransfer_iff input]
    apply and_congr_left
    intro _
    constructor
    · rintro ⟨ids, transfer⟩
      exact ⟨ids, .inr transfer⟩
    · rintro ⟨ids, ⟨issuer, signature, timestamp, mint, -⟩ | transfer⟩
      · rw [input] at mint
        cases mint
      · exact ⟨ids, transfer⟩

theorem checkSparkTransaction_checkedTxs (l1 : L1Tables) (validateAnnouncement : Bool)
    (tx : TokenTransaction) (sender : Option SocketAddr) (state : SparkChecking) :
    (checkSparkTransaction prims tables l1 validateAnnouncement tx sender state).1.checkedTxs =
      state.checkedTxs := by
  unfold checkSparkTransaction
  split
  case h_1 =>
    unfold checkSparkIssue
    repeat' split
    all_goals rfl
  case h_2 outputsToSpend _ =>
    have spent := @inputLeaves_checkedTxs tables tx sender outputsToSpend state
    simp only [checkSparkTransfer]
    split
    · exact spent
    · exact spent

end Verdict

end Lrc20.TxCheck
