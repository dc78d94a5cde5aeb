import Lrc20.Node.Spark

/-! Which transaction a leaf is recorded as spent by, and what the storage makes of a
transaction when it rebuilds it from its rows. -/

open Lrc20.Storage Lrc20.TxCheck Runs SparkTables SparkTransactionRow

namespace Lrc20.Storage.SparkTables

variable {tables : SparkTables} {hash : SparkHash} {inputs : List TokenLeafToSpend}

/-- The transfer recorded as the spender of a leaf, and its input. -/
def spender (tables : SparkTables) (place : SparkOutPoint) : Option (SparkHash × Nat) :=
  (tables.output place).bind SparkOutputRow.spend

theorem allOutputs_places_nodup (tables : SparkTables) :
    (tables.allOutputs.map Prod.fst).Nodup := by
  have places : tables.allOutputs.map Prod.fst = tables.transactions.entries.flatMap fun entry =>
      (List.range entry.2.outputs.length).map (SparkOutPoint.mk entry.1) := by
    unfold allOutputs
    rw [List.map_flatMap]
    congr 1
    funext entry
    rw [List.map_map]
    show entry.2.outputs.zipIdx.map (SparkOutPoint.mk entry.1 ∘ Prod.snd) = _
    rw [← List.map_map, List.zipIdx_map_snd, List.range'_eq_map_range]
    simp
  rw [places, List.nodup_flatMap]
  constructor
  · intro entry _
    exact List.nodup_range.map fun a b same => (SparkOutPoint.mk.inj same).2
  · have keys := tables.transactions.keys_nodup
    unfold AList.keys List.keys at keys
    rw [List.nodup_iff_pairwise_ne, List.pairwise_map] at keys
    apply keys.imp
    intro a b differ place inA inB
    obtain ⟨i, -, rfl⟩ := List.mem_map.mp inA
    obtain ⟨j, -, same⟩ := List.mem_map.mp inB
    exact differ (SparkOutPoint.mk.inj same).1.symm

/-- The leaves of a list of inputs that are recorded as spent by a transaction, each with
its own index there. -/
def linkedEntries (tables : SparkTables) (hash : SparkHash) (inputs : List TokenLeafToSpend) :
    List (SparkOutPoint × SparkOutputRow) :=
  inputs.zipIdx.filterMap fun (leaf, index) =>
    (tables.output leaf.outPoint).bind fun row =>
      if row.spend = some (hash, index) then some (leaf.outPoint, row) else none

theorem mem_linkedEntries {place : SparkOutPoint} {row : SparkOutputRow} :
    (place, row) ∈ tables.linkedEntries hash inputs ↔
      ∃ leaf index, inputs[index]? = some leaf ∧ leaf.outPoint = place ∧
        tables.output place = some row ∧ row.spend = some (hash, index) := by
  unfold linkedEntries
  simp only [List.mem_filterMap, Prod.exists, List.mem_zipIdx_iff_getElem?, Option.bind_eq_some_iff]
  constructor
  · rintro ⟨leaf, index, found, stored, present, linked⟩
    split at linked
    · obtain ⟨rfl, rfl⟩ := Prod.mk.inj (Option.some.inj linked)
      exact ⟨leaf, index, found, rfl, present, by assumption⟩
    · cases linked
  · rintro ⟨leaf, index, found, rfl, present, linked⟩
    exact ⟨leaf, index, found, row, present, if_pos linked⟩

theorem position_of_linked {leaf : TokenLeafToSpend} {index : Nat}
    {entry : SparkOutPoint × SparkOutputRow}
    (found : entry ∈ (tables.output leaf.outPoint).bind fun row =>
      if row.spend = some (hash, index) then some (leaf.outPoint, row) else none) :
    entry.2.spend = some (hash, index) := by
  obtain ⟨row, -, linked⟩ := Option.bind_eq_some_iff.mp found
  split at linked
  case isTrue spent =>
    rw [← Option.some.inj linked]
    exact spent
  case isFalse => cases linked

/-- The rows linked to a transaction, sorted by input, are those of its inputs in order. -/
theorem spentBy_eq_linkedEntries
    (declared : ∀ place index, tables.spender place = some (hash, index) →
      ∃ leaf, inputs[index]? = some leaf ∧ leaf.outPoint = place) :
    tables.spentBy hash = tables.linkedEntries hash inputs := by
  let position (entry : SparkOutPoint × SparkOutputRow) : Nat :=
    (entry.2.spend.map Prod.snd).getD 0
  have ordered : (tables.linkedEntries hash inputs).Pairwise fun a b => position a < position b := by
    have indices : inputs.zipIdx.Pairwise fun a b => a.2 < b.2 := by
      rw [← List.pairwise_map, List.zipIdx_map_snd]
      exact List.pairwise_lt_range'
    apply indices.filterMap
    rintro ⟨leafA, i⟩ ⟨leafB, j⟩ less entryA foundA entryB foundB
    show (entryA.2.spend.map Prod.snd).getD 0 < (entryB.2.spend.map Prod.snd).getD 0
    rw [position_of_linked foundA, position_of_linked foundB]
    exact less
  have mem : ∀ entry, entry ∈ tables.allOutputs.filter (fun entry =>
      (entry.2.spend.map Prod.fst) = some hash) ↔ entry ∈ tables.linkedEntries hash inputs := by
    rintro ⟨place, row⟩
    rw [List.mem_filter, mem_allOutputs, mem_linkedEntries]
    simp only [decide_eq_true_eq, Option.map_eq_some_iff, Prod.exists]
    constructor
    · rintro ⟨present, other, index, linked, rfl⟩
      obtain ⟨leaf, found, same⟩ := declared place index (by simp [spender, present, linked])
      exact ⟨leaf, index, found, same, present, linked⟩
    · rintro ⟨leaf, index, -, -, present, linked⟩
      exact ⟨present, hash, index, linked, rfl⟩
  have perm : (tables.spentBy hash).Perm (tables.linkedEntries hash inputs) := by
    apply (List.perm_insertionSort _ _).trans
    rw [List.perm_ext_iff_of_nodup]
    · exact mem
    · exact ((allOutputs_places_nodup tables).of_map _).filter _
    · exact ordered.imp fun less same => by
        rw [same] at less
        exact lt_irrefl _ less
  have sorted : (tables.spentBy hash).Pairwise fun a b => position a ≤ position b :=
    List.pairwise_insertionSort _ _
  apply List.Perm.eq_of_pairwise _ sorted (ordered.imp le_of_lt) perm
  -- Entries at the same position are those of the same input.
  rintro ⟨placeA, rowA⟩ ⟨placeB, rowB⟩ inA inB ab ba
  obtain ⟨leafA, i, foundA, rfl, presentA, linkedA⟩ := mem_linkedEntries.mp (perm.mem_iff.mp inA)
  obtain ⟨leafB, j, foundB, rfl, presentB, linkedB⟩ := mem_linkedEntries.mp inB
  simp only [position, linkedA, linkedB, Option.map_some, Option.getD_some] at ab ba
  obtain rfl := le_antisymm ab ba
  obtain rfl := Option.some.inj (foundA.symm.trans foundB)
  obtain rfl := Option.some.inj (presentA.symm.trans presentB)
  rfl

end Lrc20.Storage.SparkTables

namespace Lrc20.Node

variable {prims : Primitives} {tables : SparkTables} {stored : List TokenTransaction}
  {tx rebuilt : TokenTransaction} {hashed : Set Bytes} {hash : SparkHash} {other : TokenTransaction}
  {tables' : SparkTables}

/-- Every link names the input of a stored transaction that spends the leaf. -/
def LinksDeclared (prims : Primitives) (tables : SparkTables) (stored : List TokenTransaction) :
    Prop :=
  ∀ place hash index, tables.spender place = some (hash, index) →
    ∃ tx ∈ stored, tx.hash prims = hash ∧
      ∃ leaf, tx.outputsToSpend[index]? = some leaf ∧ leaf.outPoint = place

/-- The inputs of a transaction that are still recorded as such. -/
def linkedInputs (prims : Primitives) (tables : SparkTables) (tx : TokenTransaction) :
    List TokenLeafToSpend :=
  (tx.outputsToSpend.zipIdx.filter fun (leaf, index) =>
    tables.spender leaf.outPoint = some (tx.hash prims, index)).map Prod.fst

/-- A transaction as the storage gives it back with the given inputs. -/
def restored (tx : TokenTransaction) (inputs : List TokenLeafToSpend) : TokenTransaction where
  input := match tx.input with
    | .mint issuer signature timestamp => .mint issuer signature timestamp
    | .transfer _ => .transfer inputs
  leavesToCreate := tx.leavesToCreate.map fun leaf => (SparkOutputRow.ofLeaf leaf).toLeaf
  sparkOperatorIdentityPublicKeys := tx.sparkOperatorIdentityPublicKeys
  network := tx.network

/-- What is built from the row of a transaction has its content, but for the inputs and for
what the rows do not keep. -/
theorem created_sameContent {row settled : SparkTransactionRow}
    (known : ofTransaction tx = some settled) (sameRow : row.fixed = settled.fixed)
    (created : tables.createTokenTransaction hash row = some rebuilt) :
    rebuilt.SameContent (restored tx ((tables.spentBy hash).map fun entry =>
      ⟨entry.1.tokenTransactionHash, UInt32.ofNat entry.1.outputIndex⟩)) := by
  have fields := SparkTransactionRow.rowOf known
  have sameOperation : row.operationType = settled.operationType := by
    show row.fixed.operationType = settled.fixed.operationType
    rw [sameRow]
  have sameOutputs : row.outputs.map SparkOutputRow.fixed =
      settled.outputs.map SparkOutputRow.fixed :=
    congrArg outputs sameRow
  have sameOperators : row.operatorPubkeys = settled.operatorPubkeys := by
    show row.fixed.operatorPubkeys = settled.fixed.operatorPubkeys
    rw [sameRow]
  have sameNetwork : row.network = settled.network := by
    show row.fixed.network = settled.fixed.network
    rw [sameRow]
  unfold createTokenTransaction at created
  split at created
  case isTrue => cases created
  case isFalse =>
    obtain rfl := Option.some.inj created
    have kinds := fields.operation
    constructor
    case spends =>
      unfold TokenTransaction.outputsToSpend restored
      rcases kinds with ⟨_, _, _, input, operation⟩ | ⟨_, input, operation⟩
      · simp only [input, sameOperation, operation]
      · simp only [input, sameOperation, operation]
    case issuance =>
      unfold TokenTransaction.issuance restored
      rcases kinds with ⟨_, _, _, input, operation⟩ | ⟨_, input, operation⟩
      · simp only [input, sameOperation, operation]
      · simp only [input, sameOperation, operation]
    case leaves =>
      have content : ∀ rows : List SparkOutputRow,
          (rows.map SparkOutputRow.toLeaf).map TokenLeafOutput.hashed =
            (rows.map SparkOutputRow.fixed).map fun row => row.toLeaf.hashed := by
        intro rows
        rw [List.map_map, List.map_map]
        rfl
      show (row.outputs.map SparkOutputRow.toLeaf).map TokenLeafOutput.hashed = _
      rw [content, sameOutputs, ← content, fields.outputs, restored]
      simp only [List.map_map, Function.comp_def]
    case operators =>
      show row.operatorPubkeys.insertionSort keyLe = _
      rw [sameOperators, fields.operators]
      rfl
    case network =>
      show row.network = tx.network
      rw [sameNetwork, fields.network]

/-- Every string hashed for a stored transaction, as it came in and as the storage gives it
back, is in the set. -/
structure Hashable (prims : Primitives) (hashed : Set Bytes) (tables : SparkTables)
    (stored : List TokenTransaction) : Prop where
  original : ∀ tx ∈ stored, SparkHash.Within prims hashed tx
  rebuilt : ∀ tx ∈ stored, SparkHash.Within prims hashed
    (restored tx (linkedInputs prims tables tx))

theorem Hashable.of_spender (hashable : Hashable prims hashed tables stored)
    (same : tables'.spender = tables.spender) : Hashable prims hashed tables' stored where
  original := hashable.original
  rebuilt := by
    unfold linkedInputs
    rw [same]
    exact hashable.rebuilt

/-- Everything of the transaction is linked: its inputs are read back as declared. -/
theorem linkedInputs_eq_iff :
    linkedInputs prims tables tx = tx.outputsToSpend ↔
      ∀ index leaf, tx.outputsToSpend[index]? = some leaf →
        tables.spender leaf.outPoint = some (tx.hash prims, index) := by
  have kept : linkedInputs prims tables tx = tx.outputsToSpend ↔
      tx.outputsToSpend.zipIdx.filter (fun entry =>
        tables.spender entry.1.outPoint = some (tx.hash prims, entry.2)) =
        tx.outputsToSpend.zipIdx := by
    constructor
    · intro all
      apply List.filter_sublist.eq_of_length
      have lengths := congrArg List.length all
      rw [linkedInputs, List.length_map] at lengths
      rw [List.length_zipIdx]
      exact lengths
    · intro all
      exact (congrArg (List.map Prod.fst) all).trans (List.zipIdx_map_fst 0 _)
  rw [kept, List.filter_eq_self]
  constructor
  · intro all index leaf found
    simpa using all (leaf, index) (List.mem_zipIdx_iff_getElem?.mpr found)
  · rintro all ⟨leaf, index⟩ mem
    simpa using all index leaf (List.mem_zipIdx_iff_getElem?.mp mem)

theorem linkedInputs_of_spends
    (spends : (restored tx (linkedInputs prims tables tx)).outputsToSpend = tx.outputsToSpend) :
    linkedInputs prims tables tx = tx.outputsToSpend := by
  cases input : tx.input with
  | mint issuer signature timestamp =>
    have none : tx.outputsToSpend = [] := by
      unfold TokenTransaction.outputsToSpend
      rw [input]
    unfold linkedInputs
    rw [none]
    rfl
  | transfer outputsToSpend =>
    unfold restored at spends
    rw [input] at spends
    exact spends

section

variable (recorded : Recorded prims tables.fixedRow stored)
include recorded

/-- Leaf ids are unique, so the id of one of its leaves determines a transaction. -/
theorem Recorded.eq_of_id {a b : TokenTransaction} (aMem : a ∈ stored) (bMem : b ∈ stored)
    {leafA leafB : TokenLeafOutput} (inA : leafA ∈ a.leavesToCreate)
    (inB : leafB ∈ b.leavesToCreate) (sameId : leafA.id = leafB.id) : a = b := by
  obtain ⟨i, foundA⟩ := List.mem_iff_getElem?.mp inA
  obtain ⟨j, foundB⟩ := List.mem_iff_getElem?.mp inB
  obtain ⟨rowA, presentA, settledA⟩ := recorded.output_of_leaf aMem foundA
  obtain ⟨rowB, presentB, settledB⟩ := recorded.output_of_leaf bMem foundB
  have ids : rowA.fixed.sparkId = rowB.fixed.sparkId := by
    rw [settledA, settledB]
    exact sameId
  have place := recorded.place_eq presentA presentB ids
  exact List.inj_on_of_nodup_map recorded.hashes aMem bMem (SparkOutPoint.mk.inj place).1

/-- Two transactions with the same content, the second one stored, and a leaf of the first one
that a stored transaction creates: the two are that transaction. -/
theorem Recorded.eq_of_content
    {content other : TokenTransaction} (mem : tx ∈ stored) (otherMem : other ∈ stored)
    (same : content.SameContent other) (nonempty : content.leavesToCreate ≠ [])
    (ids : ∀ leaf ∈ content.leavesToCreate, ∃ own ∈ tx.leavesToCreate, own.id = leaf.id) :
    other = tx := by
  obtain ⟨leaf, rest, leaves⟩ := List.exists_cons_of_ne_nil nonempty
  have inContent : leaf ∈ content.leavesToCreate := by simp [leaves]
  obtain ⟨own, ownMem, ownId⟩ := ids leaf inContent
  have listed : leaf.hashed ∈ other.leavesToCreate.map TokenLeafOutput.hashed := by
    rw [← same.leaves]
    exact List.mem_map_of_mem inContent
  obtain ⟨twin, twinMem, twinHashed⟩ := List.mem_map.mp listed
  have twinId : twin.id = leaf.id := congrArg HashedLeaf.id twinHashed
  exact recorded.eq_of_id otherMem mem twinMem ownMem (twinId.trans ownId.symm)

theorem stored_of_rebuilt (found : tables.getSparkTxWithOutputs hash = some rebuilt) :
    ∃ tx ∈ stored, tx.hash prims = hash := by
  obtain ⟨row, present, -⟩ := Option.bind_eq_some_iff.mp found
  apply recorded.known hash
  simp [fixedRow, present]

theorem rebuilt_iff_leaves (mem : tx ∈ stored) :
    (∃ rebuilt, tables.getSparkTxWithOutputs (tx.hash prims) = some rebuilt) ↔
      tx.leavesToCreate ≠ [] := by
  obtain ⟨row, settled, present, known, fixed⟩ := recorded.row mem
  have outputs : row.outputs.map SparkOutputRow.fixed = settled.outputs.map SparkOutputRow.fixed :=
    congrArg outputs fixed
  have empty : row.outputs = [] ↔ tx.leavesToCreate = [] := by
    rw [← List.map_eq_nil_iff (f := SparkOutputRow.fixed), outputs,
      (SparkTransactionRow.rowOf known).outputs, List.map_map, List.map_eq_nil_iff]
  unfold getSparkTxWithOutputs createTokenTransaction
  rw [present, Option.bind_some]
  by_cases none : row.outputs = []
  · simp [none, empty.mp none]
  · simp [none, mt empty.mpr none]

theorem leaves_of_rebuilt (mem : tx ∈ stored)
    (found : tables.getSparkTxWithOutputs (tx.hash prims) = some rebuilt) :
    tx.leavesToCreate ≠ [] :=
  (rebuilt_iff_leaves recorded mem).mp ⟨rebuilt, found⟩

variable (links : LinksDeclared prims tables stored) (mem : tx ∈ stored)
include links mem

theorem LinksDeclared.of_hash {place : SparkOutPoint} {index : Nat}
    (linked : tables.spender place = some (tx.hash prims, index)) :
    ∃ leaf, tx.outputsToSpend[index]? = some leaf ∧ leaf.outPoint = place := by
  obtain ⟨other, otherMem, same, declared⟩ := links place _ index linked
  obtain rfl := List.inj_on_of_nodup_map recorded.hashes otherMem mem same
  exact declared

theorem spentBy_inputs :
    ((tables.spentBy (tx.hash prims)).map fun entry =>
      (⟨entry.1.tokenTransactionHash, UInt32.ofNat entry.1.outputIndex⟩ : TokenLeafToSpend)) =
      linkedInputs prims tables tx := by
  rw [spentBy_eq_linkedEntries fun place index => links.of_hash recorded mem]
  unfold linkedEntries linkedInputs spender
  induction tx.outputsToSpend.zipIdx with
  | nil => rfl
  | cons entry rest ih =>
    obtain ⟨leaf, index⟩ := entry
    cases present : tables.output leaf.outPoint with
    | none => simp [present, ih]
    | some row =>
      have back : (⟨leaf.outPoint.tokenTransactionHash,
          UInt32.ofNat leaf.outPoint.outputIndex⟩ : TokenLeafToSpend) = leaf := by
        simp [TokenLeafToSpend.outPoint]
      by_cases linked : row.spend = some (tx.hash prims, index)
      · simp [present, linked, ih, back]
      · simp [present, linked, ih]

/-- A rebuilt transaction has the content of the stored one, but for inputs recorded as spent
by another and for what the rows do not keep. -/
theorem rebuilt_sameContent (found : tables.getSparkTxWithOutputs (tx.hash prims) = some rebuilt) :
    rebuilt.SameContent (restored tx (linkedInputs prims tables tx)) := by
  obtain ⟨row, present, created⟩ := Option.bind_eq_some_iff.mp found
  obtain ⟨_, settled, again, known, fixed⟩ := recorded.row mem
  obtain rfl := Option.some.inj (present.symm.trans again)
  rw [← spentBy_inputs recorded links mem]
  exact created_sameContent known fixed created

end

/-- A rebuilt transaction that has the hash of a stored one is rebuilt from that one, and
nothing of it was lost. -/
theorem rebuilt_of_hash (collisionFree : Set.InjOn prims.sha256 hashed)
    (hashable : Hashable prims hashed tables stored)
    (recorded : Recorded prims tables.fixedRow stored) (links : LinksDeclared prims tables stored)
    (mem : tx ∈ stored) (found : tables.getSparkTxWithOutputs (tx.hash prims) = some rebuilt)
    (otherMem : other ∈ stored) (sameHash : rebuilt.hash prims = other.hash prims) :
    other = tx ∧ rebuilt.SameContent tx := by
  have content := rebuilt_sameContent recorded links mem found
  have same : rebuilt.SameContent other := SparkHash.sameContent_of_hash collisionFree
    (SparkHash.within_of_sameContent content (hashable.rebuilt tx mem))
    (hashable.original other otherMem) sameHash
  have nonempty : (restored tx (linkedInputs prims tables tx)).leavesToCreate ≠ [] := by
    unfold restored
    simpa using leaves_of_rebuilt recorded mem found
  have sameTx : other = tx := by
    apply recorded.eq_of_content mem otherMem (content.symm.trans same) nonempty
    intro leaf leafMem
    obtain ⟨own, ownMem, rfl⟩ := List.mem_map.mp leafMem
    exact ⟨own, ownMem, rfl⟩
  exact ⟨sameTx, sameTx ▸ same⟩

/-- A status is only ever written for a stored transaction that is linked to all its inputs
and comes back with its own hash. -/
theorem updateStatus_cases (collisionFree : Set.InjOn prims.sha256 hashed)
    (hashable : Hashable prims hashed tables stored)
    (recorded : Recorded prims tables.fixedRow stored) (links : LinksDeclared prims tables stored)
    (handled : List SparkHash) (data : SparkSignatureData) :
    (updateStatus prims (tables, handled) data).1 = tables ∨
      ∃ tx ∈ stored, tx.hash prims = data.tokenTxHash ∧
        linkedInputs prims tables tx = tx.outputsToSpend ∧
        (restored tx tx.outputsToSpend).hash prims = tx.hash prims ∧
        (updateStatus prims (tables, handled) data).1 =
          tables.setTokenTransactionStatus (tx.hash prims)
            (checkSparkTxFinalization tx.outputsToSpend.length
              (tables.getSparkSignatures (tx.hash prims))
              (tables.getRevocationSecretKeys (tx.hash prims))) := by
  unfold updateStatus
  cases found : tables.getSparkTxWithOutputs data.tokenTxHash with
  | none => exact .inl rfl
  | some rebuilt =>
    obtain ⟨tx, mem, same⟩ := stored_of_rebuilt recorded found
    simp only
    cases present : tables.transactions.lookup (rebuilt.hash prims) with
    | none =>
      left
      unfold setTokenTransactionStatus
      rw [present]
    | some row =>
      right
      rw [← same] at found
      obtain ⟨other, otherMem, otherHash⟩ := recorded.known (rebuilt.hash prims) (by
        simp [fixedRow, present])
      obtain ⟨rfl, sameContent⟩ := rebuilt_of_hash collisionFree hashable recorded links mem
        found otherMem otherHash.symm
      have content := rebuilt_sameContent recorded links mem found
      have all := linkedInputs_of_spends (content.spends.symm.trans sameContent.spends)
      rw [all] at content
      refine ⟨other, mem, same, all, ?_, ?_⟩
      · rw [← SparkHash.hash_of_sameContent content, otherHash]
      · rw [sameContent.spends, ← same, otherHash]

/-! ### Links over a run -/

section Steps

variable {validateAnnouncement : Bool} {tables' : SparkTables} {tx : TokenTransaction}

theorem spender_modifyOutput (tables : SparkTables) (place : SparkOutPoint)
    {change : SparkOutputRow → SparkOutputRow} (keeps : ∀ row, (change row).spend = row.spend) :
    (tables.modifyOutput place change).spender = tables.spender := by
  funext other
  unfold spender
  rw [output_modifyOutput]
  split
  · cases tables.output other with
    | none => rfl
    | some row => simp [keeps]
  · rfl

theorem spender_setTokenTransactionStatus (tables : SparkTables) (hash : SparkHash)
    (status : TokenTransactionStatus) :
    (tables.setTokenTransactionStatus hash status).spender = tables.spender := by
  funext place
  unfold spender
  rw [output_setTokenTransactionStatus]

/-- What a field that a new row lacks says of the leaves stays the same when the row is added. -/
theorem field_newRow {row : SparkTransactionRow} {α : Type} {field : SparkOutputRow → Option α}
    (known : ofTransaction tx = some row)
    (fresh : tables.transactions.lookup (tx.hash prims) = none)
    (absent : ∀ leaf ∈ tx.leavesToCreate, field (SparkOutputRow.ofLeaf leaf) = none)
    (place : SparkOutPoint) :
    ((SparkTables.mk (tables.transactions.insert (tx.hash prims) row) tables.operatorSignatures
      tables.userSignatures).output place).bind field = (tables.output place).bind field := by
  unfold SparkTables.output
  by_cases own : place.tokenTransactionHash = tx.hash prims
  · rw [own, AList.lookup_insert, fresh]
    simp only [Option.bind_some, Option.bind_none, (SparkTransactionRow.rowOf known).outputs,
      List.getElem?_map]
    cases found : tx.leavesToCreate[place.outputIndex]? with
    | none => rfl
    | some leaf => exact absent leaf (List.mem_of_getElem? found)
  · rw [AList.lookup_insert_ne own]

section

variable (inserted : SparkTables.Inserted prims tables tx tables')
include inserted

/-- After an insertion the leaves the transaction spends are linked to it, and the other
links are as before. -/
theorem spender_inserted (place : SparkOutPoint) :
    (∃ leaf index, tx.outputsToSpend[index]? = some leaf ∧ leaf.outPoint = place ∧
        tables'.spender place = some (tx.hash prims, index)) ∨
      (∀ leaf ∈ tx.outputsToSpend, leaf.outPoint ≠ place) ∧
        tables'.spender place = tables.spender place := by
  obtain ⟨row, known, linked⟩ := inserted.linked
  by_cases spent : place ∈ (tx.outputsToSpend.map TokenLeafToSpend.outPoint).zipIdx.map Prod.fst
  · obtain ⟨output, index, input, -, after⟩ := linked.linked place spent
    rw [List.mem_zipIdx_iff_getElem?, List.getElem?_map, Option.map_eq_some_iff] at input
    obtain ⟨leaf, found, same⟩ := input
    exact .inl ⟨leaf, index, found, same, by simp [spender, after]⟩
  · right
    have untouched := linked.others place spent
    rw [List.zipIdx_map_fst, List.mem_map, not_exists] at spent
    refine ⟨fun leaf mem same => spent leaf ⟨mem, same⟩, ?_⟩
    unfold spender
    rw [untouched]
    exact field_newRow known inserted.fresh (fun _ _ => rfl) place

/-- What a field that new rows lack and links do not touch says of the leaves stays the same
when a transaction is inserted. -/
theorem field_inserted {α : Type} (field : SparkOutputRow → Option α)
    (untouched : ∀ row spend, field { row with spend } = field row)
    (absent : ∀ leaf ∈ tx.leavesToCreate, field (SparkOutputRow.ofLeaf leaf) = none)
    (place : SparkOutPoint) :
    (tables'.output place).bind field = (tables.output place).bind field := by
  obtain ⟨row, known, linked⟩ := inserted.linked
  rw [← field_newRow known inserted.fresh absent place]
  by_cases spent : place ∈ (tx.outputsToSpend.map TokenLeafToSpend.outPoint).zipIdx.map Prod.fst
  · obtain ⟨output, index, -, before, after⟩ := linked.linked place spent
    rw [after, before]
    exact untouched output _
  · rw [linked.others place spent]

theorem status_inserted (hash : SparkHash) :
    tables'.getTokenTransactionStatus hash =
      if hash = tx.hash prims then .started else tables.getTokenTransactionStatus hash := by
  obtain ⟨row, known, linked⟩ := inserted.linked
  rw [linked.status]
  unfold getTokenTransactionStatus
  by_cases own : hash = tx.hash prims
  · rw [if_pos own, own, AList.lookup_insert]
    exact (SparkTransactionRow.rowOf known).status
  · rw [if_neg own, AList.lookup_insert_ne own]

/-- An insertion links nothing to another transaction, so what is linked to all its inputs
afterwards was so before. -/
theorem linkedInputs_inserted (differs : other.hash prims ≠ tx.hash prims)
    (all : linkedInputs prims tables' other = other.outputsToSpend) :
    linkedInputs prims tables other = other.outputsToSpend := by
  rw [linkedInputs_eq_iff] at all ⊢
  intro index leaf found
  have linked := all index leaf found
  rcases spender_inserted inserted leaf.outPoint with ⟨_, _, -, -, spends⟩ | ⟨-, old⟩
  · rw [spends] at linked
    exact absurd (Prod.mk.inj (Option.some.inj linked)).1.symm differs
  · rw [← old]
    exact linked

end

theorem LinksDeclared.insert {tx : TokenTransaction} (links : LinksDeclared prims tables stored)
    (inserted : SparkTables.Inserted prims tables tx tables') :
    LinksDeclared prims tables' (stored ++ [tx]) := by
  intro place hash index linked
  rcases spender_inserted inserted place with ⟨leaf, own, found, same, spends⟩ | ⟨-, old⟩
  · rw [spends] at linked
    obtain ⟨rfl, rfl⟩ := Prod.mk.inj (Option.some.inj linked)
    exact ⟨tx, by simp, rfl, leaf, found, same⟩
  · rw [old] at linked
    obtain ⟨other, mem, rest⟩ := links place hash index linked
    exact ⟨other, List.mem_append_left _ mem, rest⟩

theorem spender_kept (links : SparkOutPoint → Option (SparkHash × Nat)) :
    KeptByWrites fun tables => tables.spender = links where
  secret tables place _ := Eq.trans (spender_modifyOutput tables place fun _ => rfl)
  mark tables place _ _ _ := Eq.trans (spender_modifyOutput tables place fun _ => rfl)
  signature tables data same := by
    unfold spender SparkTables.output at same ⊢
    rw [transactions_insertSignatureData]
    exact same
  status tables hash status := Eq.trans (spender_setTokenTransactionStatus tables hash status)

theorem linksDeclared_of_spender (links : LinksDeclared prims tables stored)
    (same : tables'.spender = tables.spender) : LinksDeclared prims tables' stored := by
  unfold LinksDeclared
  rw [same]
  exact links

theorem linksDeclared_step (node : SparkNode) (input : SparkNode.Input)
    (links : LinksDeclared prims node.tables node.stored) :
    LinksDeclared prims (SparkNode.step prims validateAnnouncement node input).tables
      (SparkNode.step prims validateAnnouncement node input).stored :=
  step_keeps (P := LinksDeclared prims) (fun _ _ _ _ links inserted => links.insert inserted)
    (fun _ => .of_view spender_kept fun _ _ same links => linksDeclared_of_spender links same)
    node input links

end Steps

end Lrc20.Node
