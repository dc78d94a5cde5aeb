import Lrc20.Lib.Latest
import Lrc20.Node.Spark

/-! Orders to freeze and unfreeze the Spark leaves of an owner. -/

open Lrc20.Storage Lrc20.TxCheck Runs SparkTables

namespace Lrc20

open TokenTransaction

/-- What the object-relational mapper does on `update` of a model whose primary key is not set.
The key of `spark_output` is `id`; the freeze update sets `spark_id` only. -/
inductive KeylessUpdate where
  | panics
  /-- The row is found by the unique column that is set. -/
  | byUniqueColumn
deriving DecidableEq

namespace Storage.SparkTables

def getSparkOutputsByOwnerPubkey (tables : SparkTables) (owner : PublicKey) :
    List TokenLeafOutput :=
  (tables.allOutputs.filter fun entry => entry.2.ownerPubkey = owner).map fun entry =>
    entry.2.toLeaf

def udpateSparkOutputFreezeStatus (orm : KeylessUpdate) (tables : SparkTables) (id : String)
    (isFrozen : Bool) : Except DbFailure SparkTables :=
  match orm with
  | .panics => .error .panic
  | .byUniqueColumn =>
    match tables.getSparkOutputModel id with
    | none => .error .err
    | some (place, _) =>
      .ok (tables.modifyOutput place fun row => { row with isFrozen := some isFrozen })

end Storage.SparkTables

namespace TxCheck

variable (prims : Primitives) (orm : KeylessUpdate)

/-- Whether the issuer's signature of an order verifies. -/
def freezeVerifies (data : TokensFreezeData) : Bool :=
  data.issuerSignature.verify prims data.tokenPublicKey (data.hash prims) none

/-- The loop of `check_token_freeze` over the leaves: the tables, and whether it came to its
end. -/
def freezeLeaves (isFrozen : Bool) : List TokenLeafOutput → SparkTables → SparkTables × Bool
  | [], tables => (tables, true)
  | leaf :: rest, tables =>
    match tables.udpateSparkOutputFreezeStatus orm leaf.id isFrozen with
    | .error _ => (tables, false)
    | .ok tables => freezeLeaves isFrozen rest tables

/-- `check_token_freeze`: the tables, and the answer unless the check failed. -/
def checkTokenFreeze (tables : SparkTables) (data : TokensFreezeData) : SparkTables × Option Bool :=
  if !freezeVerifies prims data then (tables, some false)
  else
    let leaves := (tables.getSparkOutputsByOwnerPubkey data.ownerPublicKey).filter fun leaf =>
      leaf.tokenPubkey = data.tokenPublicKey
    let updated := freezeLeaves orm (!data.shouldUnfreeze) leaves tables
    (updated.1, if updated.2 then some true else none)

/-- `check_token_freezes`: the tables and the orders reported as valid. A failed check ends it
without a report. -/
def checkTokenFreezes : List TokensFreezeData → SparkTables →
    SparkTables × Option (List TokensFreezeData)
  | [], tables => (tables, some [])
  | data :: rest, tables =>
    match checkTokenFreeze prims orm tables data with
    | (tables, none) => (tables, none)
    | (tables, some valid) =>
      let others := checkTokenFreezes rest tables
      (others.1, others.2.map fun reported => if valid then data :: reported else reported)

end TxCheck

namespace Node

/-- How an order reaches the node. -/
inductive Route where
  /-- The `freeze_tokens` call, with or without `enforce_announcement`. -/
  | rpc (enforceAnnouncement : Bool)
  /-- An inventory item of a peer. -/
  | peer
deriving DecidableEq

/-- Whether the order is sent on to the checker. The call asks whether the token is announced
as freezable, `handle_inv` whether the layer-one announcements froze the key. -/
def Route.admits (l1 : L1Tables) (data : TokensFreezeData) : Route → Bool
  | .rpc enforceAnnouncement =>
    if enforceAnnouncement then
      match (l1.getTokenPubkeyInfo data.tokenPublicKey).bind TokenPubkeyInfo.announcement with
      | some announcement => announcement.isFreezable
      | none => false
    else true
  | .peer =>
    let isFrozen := l1.isPubkeyFrozen data.ownerPublicKey data.tokenPublicKey
    (data.shouldUnfreeze && isFrozen) || (!data.shouldUnfreeze && !isFrozen)

/-- The Spark side of the node, and the orders delivered to it so far. -/
structure FreezeNode where
  spark : SparkNode
  delivered : List TokensFreezeData

namespace FreezeNode

def new : FreezeNode := ⟨SparkNode.new, []⟩

inductive Input where
  | spark (input : SparkNode.Input)
  /-- An order, with the layer-one tables read on its way. -/
  | freeze (route : Route) (l1 : L1Tables) (data : TokensFreezeData)

variable (prims : Primitives) (orm : KeylessUpdate) (validateAnnouncement : Bool)

def step (node : FreezeNode) : Input → FreezeNode
  | .spark input => { node with spark := node.spark.step prims validateAnnouncement input }
  | .freeze route l1 data =>
    let tables := if route.admits l1 data then
        (checkTokenFreezes prims orm [data] node.spark.tables).1
      else node.spark.tables
    { spark := { node.spark with tables }, delivered := node.delivered ++ [data] }

end FreezeNode

/-! ### What the orders say -/

section Orders

variable (prims : Primitives) (signed : List TokensFreezeData)

/-- The order as the issuer meant it: everything but the signature. -/
def SameOrder (a b : TokensFreezeData) : Prop :=
  a.hashedFields = b.hashedFields ∧ a.shouldUnfreeze = b.shouldUnfreeze

instance (a b : TokensFreezeData) : Decidable (SameOrder a b) :=
  inferInstanceAs (Decidable (_ ∧ _))

/-- The issuer signed this order, and its signature verifies. `signed` are the orders the
issuers signed. -/
def Genuine (data : TokensFreezeData) : Prop :=
  freezeVerifies prims data = true ∧ ∃ order ∈ signed, SameOrder order data

instance (data : TokensFreezeData) : Decidable (Genuine prims signed data) :=
  inferInstanceAs (Decidable (_ ∧ _))

/-- The genuine orders for the leaves of an owner and a token. -/
def orders (delivered : List TokensFreezeData) (owner : PublicKey) (token : TokenPubkey) :
    List TokensFreezeData :=
  delivered.filter fun data => Genuine prims signed data ∧ data.ownerPublicKey = owner ∧
    data.tokenPublicKey = token

/-- The newest genuine order is to freeze. -/
def FrozenBy (delivered : List TokensFreezeData) (owner : PublicKey) (token : TokenPubkey) : Prop :=
  Latest.SaysYes (fun data : TokensFreezeData => data.timestamp.toNat)
    (fun data => data.shouldUnfreeze = false) (orders prims signed delivered owner token)

instance (delivered : List TokensFreezeData) (owner : PublicKey) (token : TokenPubkey) :
    Decidable (FrozenBy prims signed delivered owner token) :=
  inferInstanceAs (Decidable (Latest.SaysYes _ _ _))

/-- Every leaf is frozen exactly when the newest genuine order for it is to freeze. -/
def FrozenRight (tables : SparkTables) (delivered : List TokensFreezeData) : Prop :=
  ∀ place row, tables.output place = some row →
    (row.isFrozen.getD false = true ↔
      FrozenBy prims signed delivered row.ownerPubkey row.tokenPubkey)

/-- No order is delivered with a forged signature: what verifies was signed, as far as the
signature goes. -/
def Unforged (data : TokensFreezeData) : Prop :=
  freezeVerifies prims data = true → ∃ order ∈ signed, order.hash prims = data.hash prims

end Orders

/-! ### What a step does to the rows -/

section Rows

variable {prims : Primitives} {orm : KeylessUpdate} {validateAnnouncement : Bool}
  {stored : List TokenTransaction} {tables : SparkTables} {data : TokensFreezeData}

/-- The part of a row that freezing is about. -/
def freezeView (row : SparkOutputRow) : PublicKey × TokenPubkey × Option Bool :=
  (row.ownerPubkey, row.tokenPubkey, row.isFrozen)

/-- Every row is an old one as far as freezing goes, or that of a new leaf. -/
def Extends (tables tables' : SparkTables) (leaves : List TokenLeafOutput) : Prop :=
  ∀ place row', tables'.output place = some row' →
    (∃ row, tables.output place = some row ∧ freezeView row' = freezeView row) ∨
      ∃ leaf ∈ leaves, freezeView row' = freezeView (SparkOutputRow.ofLeaf leaf)

theorem Extends.refl (tables : SparkTables) : Extends tables tables [] :=
  fun _ row' found => .inl ⟨row', found, rfl⟩

theorem Extends.trans {a b c : SparkTables} {first second : List TokenLeafOutput}
    (ab : Extends a b first) (bc : Extends b c second) : Extends a c (first ++ second) := by
  intro place row found
  rcases bc place row found with ⟨between, foundBetween, same⟩ | ⟨leaf, mem, same⟩
  · rcases ab place between foundBetween with ⟨old, foundOld, before⟩ | ⟨leaf, mem, before⟩
    · exact .inl ⟨old, foundOld, same.trans before⟩
    · exact .inr ⟨leaf, List.mem_append_left _ mem, same.trans before⟩
  · exact .inr ⟨leaf, List.mem_append_right _ mem, same⟩

theorem extends_modifyOutput (tables : SparkTables) (place : SparkOutPoint)
    {change : SparkOutputRow → SparkOutputRow}
    (keeps : ∀ row, freezeView (change row) = freezeView row) :
    Extends tables (tables.modifyOutput place change) [] := by
  intro other row' found
  rw [output_modifyOutput] at found
  split at found
  · obtain ⟨row, stored, rfl⟩ := Option.map_eq_some_iff.mp found
    exact .inl ⟨row, stored, keeps row⟩
  · exact .inl ⟨row', found, rfl⟩

theorem extends_insert {tables' : SparkTables} {tx : TokenTransaction}
    (inserted : SparkTables.Inserted prims tables tx tables') :
    Extends tables tables' tx.leavesToCreate := by
  obtain ⟨txRow, known, linked⟩ := inserted.linked
  -- Linking the spent leaves only writes their spenders.
  have written : ∀ place row', tables'.output place = some row' →
      ∃ row, SparkTables.output { tables with
        transactions := tables.transactions.insert (tx.hash prims) txRow } place = some row ∧
        freezeView row' = freezeView row := by
    intro place row' found
    by_cases spent : place ∈ ((tx.outputsToSpend.map TokenLeafToSpend.outPoint).zipIdx).map Prod.fst
    · obtain ⟨row, index, -, before, after⟩ := linked.linked place spent
      rw [after] at found
      obtain rfl := Option.some.inj found
      exact ⟨row, before, rfl⟩
    · rw [linked.others place spent] at found
      exact ⟨row', found, rfl⟩
  intro place row' found
  obtain ⟨row, there, same⟩ := written place row' found
  unfold SparkTables.output at there
  by_cases own : place.tokenTransactionHash = tx.hash prims
  · rw [own, AList.lookup_insert, Option.bind_some, (SparkTransactionRow.rowOf known).outputs,
      List.getElem?_map] at there
    obtain ⟨leaf, created, rfl⟩ := Option.map_eq_some_iff.mp there
    exact .inr ⟨leaf, List.mem_of_getElem? created, same⟩
  · rw [AList.lookup_insert_ne own] at there
    exact .inl ⟨row, there, same⟩

/-- A batch adds leaves of the transactions it stores. -/
theorem extends_handleNewSparkTxs (txs : List TokenTransaction) (tables : SparkTables) :
    Extends tables (handleNewSparkTxs prims txs tables).1
      ((handleNewSparkTxs prims txs tables).2.1.flatMap leavesToCreate) := by
  have keeps : ∀ before after stored, ∀ tx ∈ txs,
      Extends tables before (stored.flatMap leavesToCreate) →
      SparkTables.Inserted prims before tx after →
      Extends tables after ((stored ++ [tx]).flatMap leavesToCreate) := by
    intro before after stored tx _ extended inserted
    rw [List.flatMap_append, List.flatMap_singleton]
    exact extended.trans (extends_insert inserted)
  have start : Extends tables tables (List.flatMap leavesToCreate []) := Extends.refl tables
  exact handleNewSparkTxs_keeps (P := fun tables' stored =>
    Extends tables tables' (stored.flatMap leavesToCreate)) keeps start

theorem extends_kept (tables : SparkTables) : KeptByWrites (Extends tables · []) where
  secret tables' place _ extended :=
    extended.trans (extends_modifyOutput tables' place fun _ => rfl)
  mark tables' place _ _ _ extended :=
    extended.trans (extends_modifyOutput tables' place fun _ => rfl)
  signature tables' data extended := by
    intro place row' found
    unfold SparkTables.output at found
    rw [transactions_insertSignatureData] at found
    exact extended place row' found
  status tables' hash status extended := by
    intro place row' found
    rw [output_setTokenTransactionStatus] at found
    exact extended place row' found

/-- The leaves a step of the Spark side adds. -/
def newLeaves (prims : Primitives) (tables : SparkTables) : SparkNode.Input → List TokenLeafOutput
  | .newSparkTxs txs =>
    (handleNewSparkTxs prims txs tables).2.1.flatMap leavesToCreate
  | _ => []

theorem extends_step (node : SparkNode) (input : SparkNode.Input) :
    Extends node.tables (SparkNode.step prims validateAnnouncement node input).tables
      (newLeaves prims node.tables input) := by
  cases input with
  | newSparkTxs txs => exact extends_handleNewSparkTxs txs node.tables
  | checkSparkTxs l1 txs sender => exact Extends.refl _
  | checkSparkSignatures sigs =>
    rw [(@step_checkSparkSignatures prims validateAnnouncement node sigs).1]
    exact (extends_kept _).checkSparkSignatures node.queue sigs (Extends.refl _)
  | checkSparkExit client bitcoinTx outputProofs =>
    obtain ⟨tables | ⟨block, tables⟩, -⟩ := @step_checkSparkExit prims
      validateAnnouncement node client bitcoinTx outputProofs
    · rw [tables.1]
      exact Extends.refl _
    · rw [tables.1]
      exact (extends_kept _).checkExitProofs _ _ _ (Extends.refl _)

/-- With unique ids an update by id changes the one row with that id. -/
theorem udpateSparkOutputFreezeStatus_eq (recorded : Recorded prims tables.fixedRow stored)
    {place : SparkOutPoint} {row : SparkOutputRow} (found : tables.output place = some row)
    (isFrozen : Bool) :
    tables.udpateSparkOutputFreezeStatus .byUniqueColumn row.sparkId isFrozen =
      .ok (tables.modifyOutput place fun row => { row with isFrozen := some isFrozen }) := by
  unfold udpateSparkOutputFreezeStatus
  cases model : tables.getSparkOutputModel row.sparkId with
  | none => exact absurd rfl (getSparkOutputModel_eq_none model found)
  | some entry =>
    obtain ⟨other, otherRow⟩ := entry
    obtain ⟨there, sameId⟩ := getSparkOutputModel_eq_some model
    rw [recorded.place_eq there found sameId]

theorem freezeLeaves_rows (isFrozen : Bool) {leaves : List TokenLeafOutput}
    (recorded : Recorded prims tables.fixedRow stored)
    (known : ∀ leaf ∈ leaves, ∃ place row, tables.output place = some row ∧ row.sparkId = leaf.id) :
    let tables' := (freezeLeaves .byUniqueColumn isFrozen leaves tables).1
    tables'.fixedRow = tables.fixedRow ∧
      ∀ place, tables'.output place = (tables.output place).map fun row =>
        if row.sparkId ∈ leaves.map TokenLeafOutput.id then { row with isFrozen := some isFrozen }
        else row := by
  induction leaves generalizing tables with
  | nil => simp [freezeLeaves]
  | cons leaf rest ih =>
    obtain ⟨place, row, found, sameId⟩ := known leaf (by simp)
    have updated := udpateSparkOutputFreezeStatus_eq recorded found isFrozen
    rw [sameId] at updated
    simp only [freezeLeaves, updated]
    have rows := @fixedRow_modifyOutput tables place
      (fun row => { row with isFrozen := some isFrozen }) (fun _ => rfl)
    have recorded' := recorded
    rw [← rows] at recorded'
    have known' : ∀ other ∈ rest, ∃ there otherRow, (tables.modifyOutput place fun row =>
        { row with isFrozen := some isFrozen }).output there = some otherRow ∧
          otherRow.sparkId = other.id := by
      intro other mem
      obtain ⟨there, otherRow, stored, same⟩ := known other (by simp [mem])
      refine ⟨there, if there = place then { otherRow with isFrozen := some isFrozen }
        else otherRow, ?_, ?_⟩
      · rw [output_modifyOutput, stored]
        split <;> rfl
      · split <;> exact same
    obtain ⟨sameRows, outputs⟩ := ih recorded' known'
    refine ⟨sameRows.trans rows, ?_⟩
    intro other
    rw [outputs, output_modifyOutput]
    by_cases here : other = place
    · rw [if_pos here, here, found]
      simp only [Option.map_some, List.map_cons, List.mem_cons, sameId, true_or, if_true]
      split <;> rfl
    · rw [if_neg here]
      cases there : tables.output other with
      | none => rfl
      | some otherRow =>
        have differs : otherRow.sparkId ≠ leaf.id := by
          intro same
          exact here (recorded.place_eq there found (same.trans sameId.symm))
        simp only [Option.map_some, List.map_cons, List.mem_cons, differs, false_or]

theorem checkTokenFreezes_singleton (tables : SparkTables) (data : TokensFreezeData) :
    (checkTokenFreezes prims orm [data] tables).1 = (checkTokenFreeze prims orm tables data).1 := by
  unfold checkTokenFreezes
  split
  · rename_i after checked
    rw [checked]
  · rename_i after valid checked
    rw [checked]
    rfl

theorem mem_namedLeaves {leaf : TokenLeafOutput} :
    leaf ∈ ((tables.getSparkOutputsByOwnerPubkey data.ownerPublicKey).filter fun leaf =>
        leaf.tokenPubkey = data.tokenPublicKey) ↔
      ∃ place row, tables.output place = some row ∧ row.toLeaf = leaf ∧
        row.ownerPubkey = data.ownerPublicKey ∧ row.tokenPubkey = data.tokenPublicKey := by
  simp only [getSparkOutputsByOwnerPubkey, List.mem_filter, List.mem_map,
    Prod.exists, mem_allOutputs, decide_eq_true_eq]
  constructor
  · rintro ⟨⟨place, row, ⟨found, owner⟩, rfl⟩, token⟩
    exact ⟨place, row, found, rfl, owner, token⟩
  · rintro ⟨place, row, found, rfl, owner, token⟩
    exact ⟨⟨place, row, ⟨found, owner⟩, rfl⟩, token⟩

theorem checkTokenFreezes_rows (recorded : Recorded prims tables.fixedRow stored)
    (verifies : freezeVerifies prims data = true) :
    let tables' := (checkTokenFreezes prims .byUniqueColumn [data] tables).1
    tables'.fixedRow = tables.fixedRow ∧
      ∀ place, tables'.output place = (tables.output place).map fun row =>
        if row.ownerPubkey = data.ownerPublicKey ∧ row.tokenPubkey = data.tokenPublicKey then
          { row with isFrozen := some (!data.shouldUnfreeze) }
        else row := by
  let leaves := (tables.getSparkOutputsByOwnerPubkey data.ownerPublicKey).filter fun leaf =>
    leaf.tokenPubkey = data.tokenPublicKey
  have run : (checkTokenFreezes prims .byUniqueColumn [data] tables).1 =
      (freezeLeaves .byUniqueColumn (!data.shouldUnfreeze) leaves tables).1 := by
    rw [checkTokenFreezes_singleton, checkTokenFreeze, verifies]
    rfl
  have known : ∀ leaf ∈ leaves, ∃ place row, tables.output place = some row ∧
      row.sparkId = leaf.id := by
    intro leaf mem
    obtain ⟨place, row, found, rfl, -, -⟩ := mem_namedLeaves.mp mem
    exact ⟨place, row, found, rfl⟩
  obtain ⟨rows, outputs⟩ := freezeLeaves_rows (!data.shouldUnfreeze) recorded known
  simp only [run]
  refine ⟨rows, ?_⟩
  intro place
  rw [outputs]
  cases found : tables.output place with
  | none => rfl
  | some row =>
    -- Ids are unique, so the rows named by the leaves are those of the owner and the token.
    have named : row.sparkId ∈ leaves.map TokenLeafOutput.id ↔
        row.ownerPubkey = data.ownerPublicKey ∧ row.tokenPubkey = data.tokenPublicKey := by
      constructor
      · intro mem
        obtain ⟨leaf, leafMem, sameId⟩ := List.mem_map.mp mem
        obtain ⟨other, otherRow, there, rfl, pair⟩ := mem_namedLeaves.mp leafMem
        rw [recorded.place_eq there found sameId, found] at there
        obtain rfl := Option.some.inj there
        exact pair
      · intro pair
        exact List.mem_map.mpr ⟨row.toLeaf, mem_namedLeaves.mpr ⟨place, row, found, rfl, pair⟩, rfl⟩
    simp only [Option.map_some, named]

/-- An order that does not verify, or that the mapper panics on, changes nothing. -/
theorem checkTokenFreezes_ignored (ignored : freezeVerifies prims data = false ∨ orm = .panics) :
    (checkTokenFreezes prims orm [data] tables).1 = tables := by
  rw [checkTokenFreezes_singleton, checkTokenFreeze]
  rcases ignored with unverified | rfl
  · simp [unverified]
  · split
    · rfl
    · cases List.filter (fun leaf => decide (TokenLeafOutput.tokenPubkey leaf =
        data.tokenPublicKey)) (tables.getSparkOutputsByOwnerPubkey data.ownerPublicKey) <;> rfl

/-- An order does what it says about every leaf: those of its owner and token carry the flag,
the others are as they were, and the call comes to its end. -/
def FreezesNamed (tables : SparkTables) (data : TokensFreezeData)
    (result : SparkTables × Option Bool) : Prop :=
  result.2 = some true ∧ ∀ place, result.1.output place = (tables.output place).map fun row =>
    if row.ownerPubkey = data.ownerPublicKey ∧ row.tokenPubkey = data.tokenPublicKey then
      { row with isFrozen := some (!data.shouldUnfreeze) }
    else row

/-- The update names no primary key, so a verified order does what it says exactly when there
is no leaf for it to freeze. -/
theorem freezesNamed_iff_no_leaf (prims : Primitives) (tables : SparkTables)
    (data : TokensFreezeData) (verifies : freezeVerifies prims data = true) :
    FreezesNamed tables data (checkTokenFreeze prims .panics tables data) ↔
      ∀ place row, tables.output place = some row →
        ¬ (row.ownerPubkey = data.ownerPublicKey ∧ row.tokenPubkey = data.tokenPublicKey) := by
  cases named : (tables.getSparkOutputsByOwnerPubkey data.ownerPublicKey).filter fun leaf =>
      leaf.tokenPubkey = data.tokenPublicKey with
  | nil =>
    have none : ∀ place row, tables.output place = some row →
        ¬ (row.ownerPubkey = data.ownerPublicKey ∧ row.tokenPubkey = data.tokenPublicKey) := by
      intro place row found pair
      have mem := mem_namedLeaves.mpr ⟨place, row, found, rfl, pair⟩
      rw [named] at mem
      cases mem
    refine iff_of_true ?_ none
    rw [checkTokenFreeze, verifies, named]
    refine ⟨rfl, fun place => ?_⟩
    cases found : tables.output place with
    | none => exact found
    | some row =>
      rw [Option.map_some, if_neg (none place row found)]
      exact found
  | cons leaf rest =>
    have mem : leaf ∈ leaf :: rest := List.mem_cons_self
    rw [← named] at mem
    obtain ⟨place, row, found, -, pair⟩ := mem_namedLeaves.mp mem
    refine iff_of_false ?_ fun none => none place row found pair
    rw [checkTokenFreeze, verifies, named]
    intro held
    cases held.1

end Rows

/-! ### When the flags are right -/

section Integrity

variable (prims : Primitives) (orm : KeylessUpdate) (validateAnnouncement : Bool)
  (signed : List TokensFreezeData) {node : FreezeNode}

/-- One of the genuine orders, this one included, asks what it asks and is newer than all that
ask the opposite. -/
def UpToDate (delivered : List TokensFreezeData) (data : TokensFreezeData) : Prop :=
  ∃ order ∈ orders prims signed (delivered ++ [data]) data.ownerPublicKey data.tokenPublicKey,
    order.shouldUnfreeze = data.shouldUnfreeze ∧
    ∀ other ∈ orders prims signed delivered data.ownerPublicKey data.tokenPublicKey,
      other.shouldUnfreeze ≠ data.shouldUnfreeze → other.timestamp.toNat < order.timestamp.toNat

instance (delivered : List TokensFreezeData) (data : TokensFreezeData) :
    Decidable (UpToDate prims signed delivered data) :=
  inferInstanceAs (Decidable (∃ order ∈ _, _ ∧ ∀ other ∈ _, _))

/-- A genuine order delivered before is newer, or asks the same at the same time. -/
def Stale (delivered : List TokensFreezeData) (data : TokensFreezeData) : Prop :=
  ∃ other ∈ orders prims signed delivered data.ownerPublicKey data.tokenPublicKey,
    data.timestamp.toNat < other.timestamp.toNat ∨
      data.timestamp.toNat = other.timestamp.toNat ∧
        (data.shouldUnfreeze = false ↔ other.shouldUnfreeze = false)

instance (delivered : List TokensFreezeData) (data : TokensFreezeData) :
    Decidable (Stale prims signed delivered data) :=
  inferInstanceAs (Decidable (∃ other ∈ _, _))

/-- What is asked of a step. A new leaf comes with the flag its owner has at the time. An order
for a stored leaf is up to date when it takes effect, and stale when it is genuine and does
not: when its route does not admit it, or the update of the rows fails. -/
def Fits (node : FreezeNode) : FreezeNode.Input → Prop
  | .spark input => ∀ leaf ∈ newLeaves prims node.spark.tables input,
      (leaf.isFrozen.getD false = true ↔
        FrozenBy prims signed node.delivered leaf.ownerPublicKey leaf.tokenPubkey)
  | .freeze route l1 data =>
    (∃ entry ∈ node.spark.tables.allOutputs, entry.2.ownerPubkey = data.ownerPublicKey ∧
      entry.2.tokenPubkey = data.tokenPublicKey) →
    freezeVerifies prims data = true →
    if route.admits l1 data = true ∧ orm = .byUniqueColumn then
      UpToDate prims signed node.delivered data
    else Genuine prims signed data → Stale prims signed node.delivered data

instance (node : FreezeNode) (input : FreezeNode.Input) :
    Decidable (Fits prims orm signed node input) :=
  match input with
  | .spark _ => inferInstanceAs (Decidable (∀ _ ∈ _, _))
  | .freeze _ _ _ => inferInstanceAs (Decidable ((∃ _ ∈ _, _) → _ → _))

variable {prims orm validateAnnouncement signed} {delivered : List TokensFreezeData}
  {data : TokensFreezeData} {owner : PublicKey} {token : TokenPubkey}

theorem orders_append (delivered : List TokensFreezeData) (data : TokensFreezeData)
    (owner : PublicKey) (token : TokenPubkey) :
    orders prims signed (delivered ++ [data]) owner token =
      orders prims signed delivered owner token ++
        if Genuine prims signed data ∧ data.ownerPublicKey = owner ∧ data.tokenPublicKey = token
        then [data] else [] := by
  unfold orders
  rw [List.filter_append]
  congr 1
  by_cases counts : Genuine prims signed data ∧ data.ownerPublicKey = owner ∧
      data.tokenPublicKey = token
  · simp [counts]
  · rw [if_neg counts]
    simpa using counts

/-- An order that is up to date asks what the newest genuine order asks. -/
theorem frozenBy_upToDate (upToDate : UpToDate prims signed delivered data) :
    FrozenBy prims signed (delivered ++ [data]) data.ownerPublicKey data.tokenPublicKey ↔
      data.shouldUnfreeze = false := by
  obtain ⟨order, mem, same, newer⟩ := upToDate
  have opposite : ∀ other ∈ orders prims signed (delivered ++ [data]) data.ownerPublicKey
      data.tokenPublicKey, other.shouldUnfreeze ≠ data.shouldUnfreeze →
      other.timestamp.toNat < order.timestamp.toNat := by
    intro other otherMem differs
    rw [orders_append] at otherMem
    rcases List.mem_append.mp otherMem with old | new
    · exact newer other old differs
    · split at new
      · exact absurd (List.mem_singleton.mp new ▸ rfl) differs
      · cases new
  cases flag : data.shouldUnfreeze with
  | false =>
    rw [flag] at opposite
    exact iff_of_true (Latest.saysYes_of_newer mem opposite) rfl
  | true =>
    rw [flag] at opposite
    refine iff_of_false (Latest.not_saysYes_of_newer mem ?_) (by simp)
    intro other otherMem freezes
    exact opposite other otherMem (by rw [freezes]; simp)

/-- An order that is not genuine, or is stale, or is for other leaves, changes nothing. -/
theorem frozenBy_append
    (idle : Genuine prims signed data → data.ownerPublicKey = owner → data.tokenPublicKey = token →
      Stale prims signed delivered data) :
    FrozenBy prims signed (delivered ++ [data]) owner token ↔
      FrozenBy prims signed delivered owner token := by
  unfold FrozenBy
  rw [orders_append]
  split
  · rename_i counts
    obtain ⟨genuine, rfl, rfl⟩ := counts
    exact Latest.saysYes_append_stale (idle genuine rfl rfl)
  · rw [List.append_nil]

theorem FrozenRight.spark_step {input : SparkNode.Input}
    (right : FrozenRight prims signed node.spark.tables node.delivered)
    (fits : Fits prims orm signed node (.spark input)) :
    FrozenRight prims signed (node.spark.step prims validateAnnouncement input).tables
      node.delivered := by
  intro place row' found
  rcases extends_step node.spark input place row' found with ⟨row, old, same⟩ | ⟨leaf, new, same⟩
  all_goals
    simp only [freezeView, Prod.mk.injEq] at same
    rw [same.1, same.2.1, same.2.2]
  · exact right place row old
  · exact fits leaf new

/-- Orders that leave the tables as they are must not change what the newest order is. -/
theorem FrozenRight.ignored {tables : SparkTables}
    (right : FrozenRight prims signed tables delivered)
    (idle : (∃ entry ∈ tables.allOutputs, entry.2.ownerPubkey = data.ownerPublicKey ∧
        entry.2.tokenPubkey = data.tokenPublicKey) →
      Genuine prims signed data → Stale prims signed delivered data) :
    FrozenRight prims signed tables (delivered ++ [data]) := by
  intro place row found
  rw [right place row found, frozenBy_append]
  intro genuine owner token
  have stored : (place, row) ∈ tables.allOutputs := mem_allOutputs.mpr found
  exact idle ⟨(place, row), stored, owner.symm, token.symm⟩ genuine

theorem freeze_step {route : Route} {l1 : L1Tables} {data : TokensFreezeData}
    (recorded : Recorded prims node.spark.tables.fixedRow node.spark.stored)
    (right : FrozenRight prims signed node.spark.tables node.delivered)
    (fits : Fits prims orm signed node (.freeze route l1 data)) :
    let next := node.step prims orm validateAnnouncement (.freeze route l1 data)
    next.spark.tables.fixedRow = node.spark.tables.fixedRow ∧
      FrozenRight prims signed next.spark.tables next.delivered := by
  simp only [FreezeNode.step]
  by_cases effect : freezeVerifies prims data = true ∧ route.admits l1 data = true ∧
      orm = .byUniqueColumn
  · obtain ⟨verifies, admitted, rfl⟩ := effect
    rw [if_pos admitted]
    obtain ⟨rows, outputs⟩ := checkTokenFreezes_rows recorded verifies
    refine ⟨rows, ?_⟩
    intro place row' found
    rw [outputs] at found
    obtain ⟨row, stored, rfl⟩ := Option.map_eq_some_iff.mp found
    by_cases pair : row.ownerPubkey = data.ownerPublicKey ∧ row.tokenPubkey = data.tokenPublicKey
    · have entry : (place, row) ∈ node.spark.tables.allOutputs := mem_allOutputs.mpr stored
      have upToDate := fits ⟨(place, row), entry, pair⟩ verifies
      rw [if_pos ⟨admitted, rfl⟩] at upToDate
      simp only [pair, and_self, if_true, Option.getD_some, Bool.not_eq_true']
      exact (frozenBy_upToDate upToDate).symm
    · simp only [pair, if_false]
      rw [right place row stored, frozenBy_append]
      intro _ owner token
      exact absurd ⟨owner.symm, token.symm⟩ pair
  · have unchanged : (if route.admits l1 data = true then
        (checkTokenFreezes prims orm [data] node.spark.tables).1 else node.spark.tables) =
        node.spark.tables := by
      split
      · rename_i admitted
        apply checkTokenFreezes_ignored
        cases orm with
        | panics => exact .inr rfl
        | byUniqueColumn => exact .inl (Bool.eq_false_iff.mpr fun ok => effect ⟨ok, admitted, rfl⟩)
      · rfl
    rw [unchanged]
    refine ⟨rfl, right.ignored fun stored genuine => ?_⟩
    have stale := fits stored genuine.1
    rw [if_neg fun takes => effect ⟨genuine.1, takes⟩] at stale
    exact stale genuine

/-- In every run whose steps fit, a leaf is frozen exactly when the newest genuine order for
its owner and token is to freeze. -/
theorem frozenRight_run (prims : Primitives) (orm : KeylessUpdate) (validateAnnouncement : Bool)
    (signed : List TokensFreezeData) (history : List FreezeNode.Input)
    (fits : AllSteps (FreezeNode.step prims orm validateAnnouncement) (Fits prims orm signed)
      FreezeNode.new history) :
    let node := runFrom (FreezeNode.step prims orm validateAnnouncement) FreezeNode.new history
    FrozenRight prims signed node.spark.tables node.delivered := by
  have invariant := AllSteps.invariant (I := fun node : FreezeNode =>
    Recorded prims node.spark.tables.fixedRow node.spark.stored ∧
      FrozenRight prims signed node.spark.tables node.delivered)
    (by
      intro node input ⟨recorded, right⟩ fits
      cases input with
      | spark input => exact ⟨recorded_step node.spark input recorded, right.spark_step fits⟩
      | freeze route l1 data =>
        obtain ⟨rows, right'⟩ := @freeze_step prims orm validateAnnouncement signed node route l1
          data recorded right fits
        refine ⟨?_, right'⟩
        rw [rows]
        exact recorded)
    (s := FreezeNode.new)
    ⟨recorded_new, by intro place row found; cases found⟩ fits
  exact invariant.2

/-! ### Concrete runs -/

/-- An order of the issuer with key 1 about the leaves of the owner with key 2. -/
def plainOrder (shouldUnfreeze : Bool) (timestamp : UInt64) : TokensFreezeData :=
  let unsigned : TokensFreezeData :=
    ⟨.repeating 4, .repeating 2, .repeating 1, shouldUnfreeze, .ecdsa (.replicate 64 0), timestamp⟩
  { unsigned with issuerSignature := .plain (unsigned.hash .plain) (.repeating 1) }

def mintThen (orders : List TokensFreezeData) : List FreezeNode.Input :=
  .spark (.newSparkTxs [plainMint "leaf" 7]) :: orders.map (.freeze (.rpc false) L1Tables.empty)

/-- An order for an owner without leaves, where another owner has one. -/
theorem freezesNamed_without_leaves :
    let tables := (runFrom (SparkNode.step .plain false) SparkNode.new [.newSparkTxs
      [{ plainMint "leaf" 7 with
        leavesToCreate := [{ plainLeaf "leaf" 7 with ownerPublicKey := .repeating 3 }] }]]).tables
    tables.allOutputs.map (fun entry => entry.2.ownerPubkey) = [.repeating 3] ∧
      FreezesNamed tables (plainOrder false 1)
        (checkTokenFreeze .plain .panics tables (plainOrder false 1)) := by
  intro tables
  have others : ∀ entry ∈ tables.allOutputs, entry.2.ownerPubkey ≠ .repeating 2 := by
    decide +kernel
  refine ⟨by decide +kernel, ?_⟩
  apply (freezesNamed_iff_no_leaf .plain tables (plainOrder false 1) (by decide +kernel)).mpr
  intro place row found same
  exact absurd same.1 (others (place, row) (mem_allOutputs.mpr found))

/-- An order for the owner of one stored leaf fails, and the leaf is not frozen. -/
theorem one_leaf_not_frozen :
    let tables := (runFrom (SparkNode.step .plain false) SparkNode.new
      [.newSparkTxs [plainMint "leaf" 7]]).tables
    let result := checkTokenFreeze .plain .panics tables (plainOrder false 1)
    freezeVerifies .plain (plainOrder false 1) = true ∧ result.2 = none ∧
      (result.1.allOutputs.map fun entry => (entry.2.ownerPubkey, entry.2.isFrozen)) =
        [(.repeating 2, none)] ∧ ¬ FreezesNamed tables (plainOrder false 1) result := by
  intro tables result
  have failed : result.2 = none := by decide +kernel
  refine ⟨by decide +kernel, failed, by decide +kernel, fun held => ?_⟩
  cases failed.symm.trans held.1

theorem frozenRight_iff (tables : SparkTables) (delivered : List TokensFreezeData) :
    FrozenRight prims signed tables delivered ↔ ∀ entry ∈ tables.allOutputs,
      (entry.2.isFrozen.getD false = true ↔
        FrozenBy prims signed delivered entry.2.ownerPubkey entry.2.tokenPubkey) := by
  constructor
  · intro right entry mem
    exact right entry.1 entry.2 (mem_allOutputs.mp mem)
  · intro right place row found
    exact right (place, row) (mem_allOutputs.mpr found)

/-- A freeze, an unfreeze and a freeze in the order of their times, the last one twice, where
the mapper updates the leaves. Where it panics, an order before there is a leaf, and an older
one after that. -/
theorem orders_in_time_frozenRight :
    let run := fun orm => runFrom (FreezeNode.step .plain orm false) FreezeNode.new
    let orders := [plainOrder false 1, plainOrder true 2, plainOrder false 3, plainOrder false 3]
    let updated := run .byUniqueColumn (mintThen orders)
    let early := .freeze (.rpc false) L1Tables.empty (plainOrder true 2) ::
      mintThen [plainOrder false 1]
    FrozenRight .plain orders updated.spark.tables updated.delivered ∧
      FrozenBy .plain orders updated.delivered (.repeating 2) (.repeating 1) ∧
      FrozenRight .plain orders (run .panics early).spark.tables (run .panics early).delivered := by
  intro run orders updated early
  have fits : AllSteps (FreezeNode.step .plain .byUniqueColumn false)
      (Fits .plain .byUniqueColumn orders) FreezeNode.new (mintThen orders) := by decide +kernel
  have fitsEarly : AllSteps (FreezeNode.step .plain .panics false)
      (Fits .plain .panics orders) FreezeNode.new early := by decide +kernel
  exact ⟨frozenRight_run .plain .byUniqueColumn false orders (mintThen orders) fits,
    by decide +kernel, frozenRight_run .plain .panics false orders early fitsEarly⟩

/-- The issuer signed one order, to freeze. A copy of it with `should_unfreeze` set verifies
too, and the leaf ends up not frozen, whatever the mapper does. -/
theorem flipped_copy_unfreezes :
    let order := plainOrder false 5
    let copy := { order with shouldUnfreeze := true }
    let run := fun orm => runFrom (FreezeNode.step .plain orm false) FreezeNode.new
      (mintThen [order, copy])
    Unforged .plain [order] order ∧ Unforged .plain [order] copy ∧
      Set.InjOn Primitives.plain.sha256
        {bytes | bytes ∈ order.hashedStrings .plain ++ copy.hashedStrings .plain} ∧
      ¬ FrozenRight .plain [order] (run .byUniqueColumn).spark.tables
        (run .byUniqueColumn).delivered ∧
      ¬ FrozenRight .plain [order] (run .panics).spark.tables (run .panics).delivered := by
  intro order copy run
  have distinct : ∀ x ∈ order.hashedStrings .plain ++ copy.hashedStrings .plain,
      ∀ y ∈ order.hashedStrings .plain ++ copy.hashedStrings .plain,
      Primitives.plain.sha256 x = Primitives.plain.sha256 y → x = y := by decide +kernel
  refine ⟨fun _ => ⟨order, by simp, rfl⟩, fun _ => ⟨order, by simp, rfl⟩,
    fun x xMem y yMem => distinct x xMem y yMem, ?_, ?_⟩
  · rw [frozenRight_iff]
    decide +kernel
  · rw [frozenRight_iff]
    decide +kernel

end Integrity

end Node

end Lrc20
