import Lrc20.Node.Authorization
import Lrc20.Node.Fidelity
import Lrc20.Node.Operators
import Lrc20.TxCheck.Conservation

/-! The dry run of a Spark transaction behind `verify_spark_tx`, compared with the check of the
transaction when it is submitted right afterwards. -/

open Lrc20.Storage Lrc20.TxCheck Lrc20.Node Outcome Runs SparkTables

namespace Lrc20.Rpc

inductive EmulationError where
  | doubleSpend (parentHash : SparkHash) (index : UInt32)
  | parentTransactionNotFound (hash : SparkHash)
  | leafNotFound (parentHash : SparkHash) (index : UInt32)
  | conservationRulesViolated
  | invalidInputLeavesNumber (expected got : Nat)
  | duplicateLeafId (id : String)
  | leafExists (id : String)
  | parentTransactionNotFinalized (hash : SparkHash)
deriving DecidableEq

namespace SparkTxEmulator

variable (prims : Primitives) (tables : SparkTables)

/-- The leaf of one input. Its transaction has to be finalized by the signatures and secrets
in the storage; that the leaf is recorded as spent is only logged. -/
def inputLeaf (input : TokenLeafToSpend) : Except EmulationError TokenLeafOutput :=
  match tables.getSparkTxWithOutputs input.parentOutputHash with
  | none => .error (.parentTransactionNotFound input.parentOutputHash)
  | some parent =>
    match parent.leavesToCreate[input.parentOutputVout.toNat]? with
    | none => .error (.leafNotFound input.parentOutputHash input.parentOutputVout)
    | some leaf =>
      let status := checkSparkTxFinalization parent.outputsToSpend.length
        (tables.getSparkSignatures input.parentOutputHash)
        (tables.getRevocationSecretKeys input.parentOutputHash)
      if status = .finalized then .ok leaf
      else .error (.parentTransactionNotFinalized input.parentOutputHash)

/-- The loop over the inputs, with those seen so far. -/
def inputLeaves : List TokenLeafToSpend → List TokenLeafToSpend →
    Except EmulationError (List TokenLeafOutput)
  | [], _ => .ok []
  | input :: rest, seen =>
    if input ∈ seen then .error (.doubleSpend input.parentOutputHash input.parentOutputVout)
    else do
      let leaf ← inputLeaf tables input
      let others ← inputLeaves rest (input :: seen)
      return leaf :: others

def checkSparkTransfer (tx : TokenTransaction) (leavesToSpend : List TokenLeafToSpend) :
    Except EmulationError Unit := do
  let leaves ← inputLeaves tables leavesToSpend []
  if checkSparkConservationRules leaves tx.leavesToCreate then .ok ()
  else .error .conservationRulesViolated

end SparkTxEmulator

/-! ### What the dry run asks -/

section Emulation

variable {prims : Primitives} {tables tables' : SparkTables} {tx : TokenTransaction}
  {leaves : List TokenLeafOutput} {hash : SparkHash} {hashes : List SparkHash}

/-- Two storages of the same transactions and signatures. A leaf may be frozen or withdrawn in
one of them only, and it may have other spenders, if these are none of the given transactions. -/
structure AlikeFor (hashes : List SparkHash) (tables tables' : SparkTables) : Prop where
  settled : tables'.fixedRow = tables.fixedRow
  status : ∀ hash, tables'.getTokenTransactionStatus hash = tables.getTokenTransactionStatus hash
  operatorSignatures : tables'.operatorSignatures = tables.operatorSignatures
  secrets : ∀ place, tables'.revocationSecret place = tables.revocationSecret place
  spenders : ∀ place, tables'.spender place = tables.spender place ∨
    (∀ link ∈ tables.spender place, link.1 ∉ hashes) ∧
      ∀ link ∈ tables'.spender place, link.1 ∉ hashes

namespace AlikeFor

theorem symm (alike : AlikeFor hashes tables tables') : AlikeFor hashes tables' tables where
  settled := alike.settled.symm
  status := fun hash => (alike.status hash).symm
  operatorSignatures := alike.operatorSignatures.symm
  secrets := fun place => (alike.secrets place).symm
  spenders := fun place => (alike.spenders place).imp Eq.symm And.symm

theorem output (alike : AlikeFor hashes tables tables') {place : SparkOutPoint}
    {row : SparkOutputRow} (found : tables.output place = some row) :
    ∃ row', tables'.output place = some row' ∧ row'.fixed = row.fixed ∧
      row'.revocationSecretKey = row.revocationSecretKey ∧
      ∀ hash ∈ hashes, row.spend.map Prod.fst = some hash → row'.spend = row.spend := by
  have same := fixedOutput_eq tables' place
  rw [alike.settled, fixedOutput_eq, found] at same
  obtain ⟨row', found', fixed⟩ := Option.map_eq_some_iff.mp same.symm
  refine ⟨row', found', fixed, ?_, ?_⟩
  · have known := alike.secrets place
    unfold revocationSecret at known
    rw [found, found'] at known
    exact known
  · intro hash listed linked
    obtain ⟨link, spends, rfl⟩ := Option.map_eq_some_iff.mp linked
    have cases := alike.spenders place
    unfold spender at cases
    rw [found, found'] at cases
    rcases cases with same | ⟨apart, -⟩
    · exact same
    · exact absurd listed (apart link spends)

/-- The leaves recorded as spent by a transaction, each with its secret. -/
def spentSecrets (tables : SparkTables) (hash : SparkHash) :
    List (SparkOutPoint × Option SecretKey) :=
  (tables.allOutputs.filter fun entry => entry.2.spend.map Prod.fst = some hash).map fun entry =>
    (entry.1, entry.2.revocationSecretKey)

theorem spentSecrets_subset (alike : AlikeFor hashes tables tables') (listed : hash ∈ hashes) :
    spentSecrets tables hash ⊆ spentSecrets tables' hash := by
  intro spent mem
  obtain ⟨⟨place, row⟩, entry, rfl⟩ := List.mem_map.mp mem
  obtain ⟨there, linked⟩ := List.mem_filter.mp entry
  rw [decide_eq_true_eq] at linked
  obtain ⟨row', found', -, secret, spend⟩ := alike.output (mem_allOutputs.mp there)
  refine List.mem_map.mpr ⟨(place, row'), List.mem_filter.mpr ⟨mem_allOutputs.mpr found', ?_⟩, ?_⟩
  · rw [decide_eq_true_eq, spend hash listed linked]
    exact linked
  · rw [← secret]

theorem spentSecrets_perm (alike : AlikeFor hashes tables tables') (listed : hash ∈ hashes) :
    (spentSecrets tables' hash).Perm (spentSecrets tables hash) := by
  have nodup : ∀ tables, (spentSecrets tables hash).Nodup := by
    intro tables
    apply List.Nodup.of_map Prod.fst
    unfold spentSecrets
    rw [List.map_map]
    exact (allOutputs_places_nodup tables).sublist (List.filter_sublist.map Prod.fst)
  rw [List.perm_ext_iff_of_nodup (nodup tables') (nodup tables)]
  exact fun spent => ⟨fun mem => alike.symm.spentSecrets_subset listed mem,
    fun mem => alike.spentSecrets_subset listed mem⟩

/-- A transaction that is read back from one storage is read back from the other with leaves
of the same worth and as many inputs. -/
theorem stored (alike : AlikeFor hashes tables tables') (listed : hash ∈ hashes)
    (found : tables.getSparkTxWithOutputs hash = some tx) :
    ∃ tx', tables'.getSparkTxWithOutputs hash = some tx' ∧
      tx'.leavesToCreate.map worth = tx.leavesToCreate.map worth ∧
      tx'.outputsToSpend.length = tx.outputsToSpend.length := by
  obtain ⟨row, present, created⟩ := Option.bind_eq_some_iff.mp found
  have same := congrFun alike.settled hash
  unfold fixedRow at same
  rw [present] at same
  obtain ⟨row', present', fixed⟩ := Option.map_eq_some_iff.mp same
  have outputs : row'.outputs.map SparkOutputRow.fixed = row.outputs.map SparkOutputRow.fixed :=
    congrArg SparkTransactionRow.outputs fixed
  have kind : row'.operationType = row.operationType :=
    (congrArg SparkTransactionRow.operationType fixed :)
  unfold createTokenTransaction at created
  split at created
  case isTrue => cases created
  case isFalse nonempty =>
    obtain rfl := Option.some.inj created
    have nonempty' : row'.outputs ≠ [] := by
      intro none
      rw [none] at outputs
      exact nonempty (List.map_eq_nil_iff.mp outputs.symm)
    refine ⟨_, by rw [getSparkTxWithOutputs, present', Option.bind_some, createTokenTransaction,
      if_neg nonempty'], ?_, ?_⟩
    · have worths := congrArg (List.map fun row => worth row.toLeaf) outputs
      rw [List.map_map, List.map_map] at worths
      rw [List.map_map, List.map_map]
      exact worths
    · unfold TokenTransaction.outputsToSpend
      rw [kind]
      have lengths := (alike.spentSecrets_perm listed).length_eq
      unfold spentSecrets at lengths
      rw [List.length_map, List.length_map] at lengths
      cases row.operationType with
      | issuerMint data => rfl
      | userTransfer => simpa [spentBy] using lengths

theorem findLeaf (alike : AlikeFor hashes tables tables') {input : TokenLeafToSpend}
    {leaf : TokenLeafOutput} (listed : input.parentOutputHash ∈ hashes)
    (found : TxCheck.findLeaf tables ∅ input = some leaf) :
    ∃ leaf', TxCheck.findLeaf tables' ∅ input = some leaf' ∧ worth leaf' = worth leaf := by
  obtain ⟨parent, resolved, there⟩ := Option.bind_eq_some_iff.mp found
  obtain ⟨parent', stored', worths, -⟩ := alike.stored listed (by simpa [findParent] using resolved)
  have at' := congrArg (fun list => list[input.parentOutputVout.toNat]?) worths
  simp only [List.getElem?_map, there, Option.map_some] at at'
  obtain ⟨leaf', there', same⟩ := Option.map_eq_some_iff.mp at'
  refine ⟨leaf', ?_, same⟩
  unfold TxCheck.findLeaf findParent
  rw [stored', Option.some_or]
  exact there'

theorem unused (alike : AlikeFor hashes tables tables') {id : String}
    (missing : tables.getSparkOutputModel id = none) : tables'.getSparkOutputModel id = none := by
  apply List.find?_eq_none.mpr
  rintro ⟨place, row'⟩ mem
  obtain ⟨row, found, fixed, -⟩ := alike.symm.output (mem_allOutputs.mp mem)
  have other := getSparkOutputModel_eq_none missing found
  have sameId : row.sparkId = row'.sparkId := (congrArg SparkOutputRow.sparkId fixed :)
  simpa [← sameId] using other

end AlikeFor

end Emulation

/-! ### Submitting the transaction -/

section Submission

variable {prims : Primitives} {tables : SparkTables} {tx : TokenTransaction}

end Submission

end Lrc20.Rpc
