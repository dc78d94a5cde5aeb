import Lrc20.Storage.L1
import Lrc20.Types.Spark

/-! The Spark tables and the operations of `SparkNodeStorage`. The rows that refer to a
token transaction are kept with it: they are written together and never deleted. -/

namespace Lrc20.Storage

open TokenLeafToSpend

structure SparkOutputRow where
  sparkId : String
  tokenPubkey : TokenPubkey
  ownerPubkey : PublicKey
  withdrawalBondSats : Int32
  withdrawalLocktime : UInt32
  tokenAmount : U128
  revocationPubkey : PublicKey
  revocationSecretKey : Option SecretKey
  isFrozen : Option Bool
  withdrawTxid : Option Txid
  withdrawVout : Option UInt32
  withdrawBlockhash : Option BlockHash
  /-- The transfer recorded as the spender and its input. -/
  spend : Option (SparkHash × Nat)
deriving DecidableEq

structure SparkIssueData where
  issuerPubkey : PublicKey
  issuerSignature : SparkSignature
  operatorPubkey : Option PublicKey
  issuerProvidedTimestamp : UInt64
deriving DecidableEq

inductive OperationType where
  | issuerMint (data : SparkIssueData)
  | userTransfer
deriving DecidableEq

/-- A row of `spark_transaction` with its outputs by index and its operator keys in the
order in which they were written. -/
structure SparkTransactionRow where
  operationType : OperationType
  status : TokenTransactionStatus
  network : Option UInt32
  outputs : List SparkOutputRow
  operatorPubkeys : List PublicKey
deriving DecidableEq

structure UserSignatureRow where
  operatorPublicKey : Option PublicKey
  signature : SparkSignature
  index : Int16
deriving DecidableEq

structure SparkTables where
  transactions : AList fun _ : SparkHash => SparkTransactionRow
  operatorSignatures : AList fun _ : SparkHash × PublicKey => SparkSignature
  /-- By transaction and signature bytes. -/
  userSignatures : AList fun _ : SparkHash × Bytes64 => UserSignatureRow

/-- `convert_spark_output_to_active_model`. The bond is cut to 32 bits. -/
def SparkOutputRow.ofLeaf (leaf : TokenLeafOutput) : SparkOutputRow where
  sparkId := leaf.id
  tokenPubkey := leaf.tokenPubkey
  ownerPubkey := leaf.ownerPublicKey
  withdrawalBondSats := leaf.withdrawalBondSats.toUInt32.toInt32
  withdrawalLocktime := leaf.withdrawalLocktime
  tokenAmount := leaf.amount
  revocationPubkey := leaf.revocationPublicKey
  revocationSecretKey := none
  isFrozen := leaf.isFrozen
  withdrawTxid := leaf.withdrawTxid
  withdrawVout := leaf.withdrawTxVout
  withdrawBlockhash := leaf.withdrawBlockHash
  spend := none

/-- `convert_model_to_spark_output`. The bond is widened with its sign, the height is lost. -/
def SparkOutputRow.toLeaf (row : SparkOutputRow) : TokenLeafOutput where
  id := row.sparkId
  ownerPublicKey := row.ownerPubkey
  revocationPublicKey := row.revocationPubkey
  withdrawalBondSats := row.withdrawalBondSats.toInt64.toUInt64
  withdrawalLocktime := row.withdrawalLocktime
  receipt := ⟨TokenAmount.new row.tokenAmount, row.tokenPubkey⟩
  isFrozen := row.isFrozen
  withdrawTxid := row.withdrawTxid
  withdrawTxVout := row.withdrawVout
  withdrawHeight := none
  withdrawBlockHash := row.withdrawBlockhash

namespace SparkTransactionRow

def isMint (row : SparkTransactionRow) : Bool :=
  match row.operationType with
  | .issuerMint _ => true
  | .userTransfer => false

/-- The row of a new transaction, `none` for a mint without an issuer signature. -/
def ofTransaction (tx : TokenTransaction) : Option SparkTransactionRow :=
  let operation : Option OperationType := match tx.input with
    | .mint _ none _ => none
    | .mint issuer (some signature) timestamp => some (.issuerMint
        ⟨issuer, signature.ownerSignature, signature.operatorIdentityPublicKey, timestamp⟩)
    | .transfer _ => some .userTransfer
  operation.map fun operationType =>
    { operationType
      status := .started
      network := tx.network
      outputs := tx.leavesToCreate.map SparkOutputRow.ofLeaf
      operatorPubkeys := tx.sparkOperatorIdentityPublicKeys }

/-- What the row of a new transaction holds. -/
structure RowOf (tx : TokenTransaction) (row : SparkTransactionRow) : Prop where
  operation :
    (∃ issuer signature timestamp, tx.input = .mint issuer (some signature) timestamp ∧
      row.operationType = .issuerMint
        ⟨issuer, signature.ownerSignature, signature.operatorIdentityPublicKey, timestamp⟩) ∨
    ∃ outputsToSpend, tx.input = .transfer outputsToSpend ∧ row.operationType = .userTransfer
  status : row.status = .started
  network : row.network = tx.network
  outputs : row.outputs = tx.leavesToCreate.map SparkOutputRow.ofLeaf
  operators : row.operatorPubkeys = tx.sparkOperatorIdentityPublicKeys

theorem rowOf {tx : TokenTransaction} {row : SparkTransactionRow}
    (known : ofTransaction tx = some row) : RowOf tx row := by
  obtain ⟨operation, operates, rfl⟩ := Option.map_eq_some_iff.mp known
  refine ⟨?_, rfl, rfl, rfl, rfl⟩
  cases input : tx.input with
  | transfer outputsToSpend =>
    rw [input] at operates
    exact .inr ⟨outputsToSpend, rfl, (Option.some.inj operates).symm⟩
  | mint issuer signature timestamp =>
    rw [input] at operates
    cases signature with
    | none => cases operates
    | some signature =>
      exact .inl ⟨issuer, signature, timestamp, rfl, (Option.some.inj operates).symm⟩

end SparkTransactionRow

namespace SparkTables

def empty : SparkTables := ⟨∅, ∅, ∅⟩

variable (prims : Primitives) (tables : SparkTables)

/-- All rows of `spark_output` with their places. -/
def allOutputs : List (SparkOutPoint × SparkOutputRow) :=
  tables.transactions.entries.flatMap fun entry =>
    entry.2.outputs.zipIdx.map fun (row, vout) => (⟨entry.1, vout⟩, row)

def output (place : SparkOutPoint) : Option SparkOutputRow :=
  (tables.transactions.lookup place.tokenTransactionHash).bind fun row =>
    row.outputs[place.outputIndex]?

def modifyOutput (place : SparkOutPoint) (change : SparkOutputRow → SparkOutputRow) : SparkTables :=
  match tables.transactions.lookup place.tokenTransactionHash with
  | none => tables
  | some row =>
    let changed := { row with outputs := row.outputs.modify place.outputIndex change }
    { tables with
      transactions := tables.transactions.insert place.tokenTransactionHash changed }

/-- `get_spark_output_model`: the place of the output with an id, and its row. -/
def getSparkOutputModel (id : String) : Option (SparkOutPoint × SparkOutputRow) :=
  tables.allOutputs.find? fun entry => entry.2.sparkId = id

def insertSpentOutput (place : SparkOutPoint) (spendTxid : SparkHash) (spendVout : Nat) :
    Except DbFailure SparkTables :=
  match tables.output place with
  | none => .error .err
  | some _ => .ok (tables.modifyOutput place fun row =>
    { row with spend := some (spendTxid, spendVout) })

/-- The loop of `insert_spark_transaction` over the leaves to spend. -/
def insertSpentOutputs (spender : SparkHash) :
    Nat → List TokenLeafToSpend → SparkTables → Except DbFailure SparkTables
  | _, [], tables => .ok tables
  | index, leaf :: rest, tables =>
    match tables.insertSpentOutput leaf.outPoint spender index with
    | .error failure => .error failure
    | .ok tables => insertSpentOutputs spender (index + 1) rest tables

/-- `insert_spark_transaction`, one database transaction: transaction hashes, leaf ids and
the operator keys of a transaction are unique. Of these a conflict is excused only for the
primary key, which the database assigns. -/
def insertSparkTransaction (tx : TokenTransaction) : Except DbFailure SparkTables :=
  let hash := tx.hash prims
  let ids := tx.leavesToCreate.map TokenLeafOutput.id
  if (tables.transactions.lookup hash).isSome ∨ ¬ ids.Nodup ∨
      ids.any (fun id => (tables.getSparkOutputModel id).isSome) ∨
      ¬ tx.sparkOperatorIdentityPublicKeys.Nodup then .error .err
  else match SparkTransactionRow.ofTransaction tx with
    | none => .error .err
    | some row =>
      insertSpentOutputs hash 0 tx.outputsToSpend
        { tables with transactions := tables.transactions.insert hash row }

variable (hash : SparkHash)

/-- The outputs recorded as spent by a transaction, by input. -/
def spentBy : List (SparkOutPoint × SparkOutputRow) :=
  (tables.allOutputs.filter fun entry => (entry.2.spend.map Prod.fst) = some hash).insertionSort
    fun a b => (a.2.spend.map Prod.snd).getD 0 ≤ (b.2.spend.map Prod.snd).getD 0

/-- `create_token_transaction`: a transaction rebuilt from its rows, unless it has no
output. -/
def createTokenTransaction (row : SparkTransactionRow) : Option TokenTransaction :=
  if row.outputs = [] then none
  else some
    { input := match row.operationType with
        | .issuerMint data => .mint data.issuerPubkey
            (some ⟨data.operatorPubkey, data.issuerSignature, some 0⟩)
            data.issuerProvidedTimestamp
        | .userTransfer => .transfer ((tables.spentBy hash).map fun entry =>
          ⟨entry.1.tokenTransactionHash, UInt32.ofNat entry.1.outputIndex⟩)
      leavesToCreate := row.outputs.map SparkOutputRow.toLeaf
      sparkOperatorIdentityPublicKeys := row.operatorPubkeys
      network := row.network }

def getSparkTxWithOutputs : Option TokenTransaction :=
  (tables.transactions.lookup hash).bind (tables.createTokenTransaction hash)

def getTokenTransactionStatus : TokenTransactionStatus :=
  match tables.transactions.lookup hash with
  | none => .started
  | some row => row.status

def setTokenTransactionStatus (status : TokenTransactionStatus) : SparkTables :=
  match tables.transactions.lookup hash with
  | none => tables
  | some row =>
    { tables with transactions := tables.transactions.insert hash { row with status } }

/-- `insert_signature_data`. Of a known owner signature only the operator changes. -/
def insertSignatureData (data : SparkSignatureData) : SparkTables :=
  let operatorSignatures := tables.operatorSignatures.insert
    (data.tokenTxHash, data.operatorPubkey) data.operatorSignature
  match data.operatorSpecificOwnerSignature with
  | none => { tables with operatorSignatures }
  | some owner =>
    let key := (data.tokenTxHash, owner.ownerSignature.bytes)
    let row := match tables.userSignatures.lookup key with
      | none => ⟨owner.operatorIdentityPublicKey, owner.ownerSignature,
          (owner.inputIndex.getD 0).toUInt16.toInt16⟩
      | some row => { row with operatorPublicKey := owner.operatorIdentityPublicKey }
    { tables with operatorSignatures, userSignatures := tables.userSignatures.insert key row }

def setRevocationSecretKey (place : SparkOutPoint) (secret : SecretKey) : SparkTables :=
  tables.modifyOutput place fun row => { row with revocationSecretKey := some secret }

/-- `get_revocation_secret_keys`: the secrets known for the leaves a transaction spends. -/
def getRevocationSecretKeys : List SparkSignatureLeafData :=
  (tables.allOutputs.filter fun entry => (entry.2.spend.map Prod.fst) = some hash).filterMap
    fun entry => entry.2.revocationSecretKey.map fun secret =>
      ⟨UInt32.ofNat ((entry.2.spend.map Prod.snd).getD 0), some secret⟩

/-- `get_spark_signatures`: operator and owner signatures paired by position, the secrets
with the first pair. -/
def getSparkSignatures : List SparkSignatureData :=
  let operators := tables.operatorSignatures.entries.filter fun entry => entry.1.1 = hash
  let users := tables.userSignatures.entries.filter fun entry => entry.1.1 = hash
  operators.zipIdx.map fun (entry, index) =>
    { operatorSpecificOwnerSignature := users[index]?.map fun user =>
        ⟨user.2.operatorPublicKey, user.2.signature, some user.2.index.toInt32.toUInt32⟩
      operatorPubkey := entry.1.2
      operatorSignature := entry.2
      tokenTxHash := hash
      outputsToSpendData := if index = 0 then tables.getRevocationSecretKeys hash else [] }

def markSparkOutputAsWithdrawn (id : String) (txid : Txid) (vout : Nat) (block : BlockHash) :
    Except DbFailure SparkTables :=
  match tables.getSparkOutputModel id with
  | none => .error .err
  | some (place, _) => .ok (tables.modifyOutput place fun row =>
    { row with
      withdrawTxid := some txid, withdrawVout := some (UInt32.ofNat vout)
      withdrawBlockhash := some block })

/-- `get_issue_leaves_by_token_pubkey`: the leaves of a token that mints created. -/
def getIssueLeavesByTokenPubkey (token : TokenPubkey) : List TokenLeafOutput :=
  tables.transactions.entries.flatMap fun entry =>
    if entry.2.isMint then
      (entry.2.outputs.filter fun row => row.tokenPubkey = token).map SparkOutputRow.toLeaf
    else []

end SparkTables

/-! ### What the operations keep -/

namespace SparkOutputRow

/-- A row without the fields that change after it is written. -/
def fixed (row : SparkOutputRow) : SparkOutputRow :=
  { row with
    revocationSecretKey := none, isFrozen := none, withdrawTxid := none, withdrawVout := none
    withdrawBlockhash := none, spend := none }

end SparkOutputRow

/-- The part of a row that is settled when it is written. -/
def SparkTransactionRow.fixed (row : SparkTransactionRow) : SparkTransactionRow :=
  { row with status := .started, outputs := row.outputs.map SparkOutputRow.fixed }

namespace SparkTables

variable {prims : Primitives} {tables : SparkTables} {place : SparkOutPoint} {row : SparkOutputRow}
  {tx : TokenTransaction} {tables' : SparkTables} {hash : SparkHash} {id : String}
  {spender : SparkHash}

/-- What is settled about the transaction stored under a hash. -/
def fixedRow (tables : SparkTables) (hash : SparkHash) : Option SparkTransactionRow :=
  (tables.transactions.lookup hash).map SparkTransactionRow.fixed

theorem lookup_modifyOutput (tables : SparkTables) (place : SparkOutPoint)
    (change : SparkOutputRow → SparkOutputRow) (hash : SparkHash) :
    (tables.modifyOutput place change).transactions.lookup hash =
      if hash = place.tokenTransactionHash then
        (tables.transactions.lookup hash).map fun row =>
          { row with outputs := row.outputs.modify place.outputIndex change }
      else tables.transactions.lookup hash := by
  rw [← L1Tables.lookup_update_ite, modifyOutput]
  cases tables.transactions.lookup place.tokenTransactionHash <;> rfl

theorem output_modifyOutput (tables : SparkTables) (place other : SparkOutPoint)
    (change : SparkOutputRow → SparkOutputRow) :
    (tables.modifyOutput place change).output other =
      if other = place then (tables.output other).map change else tables.output other := by
  obtain ⟨hash, index⟩ := place
  obtain ⟨otherHash, otherIndex⟩ := other
  unfold output
  rw [lookup_modifyOutput]
  by_cases sameHash : otherHash = hash
  · subst sameHash
    cases tables.transactions.lookup otherHash with
    | none => simp
    | some row =>
      by_cases sameIndex : otherIndex = index
      · subst sameIndex
        simp
      · have differs : index ≠ otherIndex := fun same => sameIndex same.symm
        simp [sameIndex, differs]
  · simp [sameHash]

theorem map_modify_of_keeps {change view : SparkOutputRow → SparkOutputRow}
    (keeps : ∀ row, view (change row) = view row) (outputs : List SparkOutputRow) (index : Nat) :
    (outputs.modify index change).map view = outputs.map view := by
  apply List.ext_getElem?
  intro other
  rw [List.getElem?_map, List.getElem?_map, List.getElem?_modify]
  cases outputs[other]? with
  | none => rfl
  | some output => simp only [Option.map_some]; split <;> simp [keeps]

theorem fixedRow_modifyOutput (place : SparkOutPoint) {change : SparkOutputRow → SparkOutputRow}
    (keeps : ∀ row, (change row).fixed = row.fixed) :
    (tables.modifyOutput place change).fixedRow = tables.fixedRow := by
  funext hash
  unfold fixedRow
  rw [lookup_modifyOutput]
  split
  case isFalse => rfl
  case isTrue =>
    cases tables.transactions.lookup hash with
    | none => rfl
    | some row =>
      simp [SparkTransactionRow.fixed, map_modify_of_keeps keeps]

theorem lookup_setTokenTransactionStatus (tables : SparkTables) (changed hash : SparkHash)
    (status : TokenTransactionStatus) :
    (tables.setTokenTransactionStatus changed status).transactions.lookup hash =
      if hash = changed then (tables.transactions.lookup hash).map fun row => { row with status }
      else tables.transactions.lookup hash := by
  rw [← L1Tables.lookup_update_ite, setTokenTransactionStatus]
  cases tables.transactions.lookup changed <;> rfl

theorem output_setTokenTransactionStatus (changed : SparkHash) (status : TokenTransactionStatus)
    (place : SparkOutPoint) :
    (tables.setTokenTransactionStatus changed status).output place = tables.output place := by
  unfold output
  rw [lookup_setTokenTransactionStatus]
  split
  · cases tables.transactions.lookup place.tokenTransactionHash <;> rfl
  · rfl

theorem fixedRow_setTokenTransactionStatus (changed : SparkHash) (status : TokenTransactionStatus) :
    (tables.setTokenTransactionStatus changed status).fixedRow = tables.fixedRow := by
  funext hash
  unfold fixedRow
  rw [lookup_setTokenTransactionStatus]
  split
  · cases tables.transactions.lookup hash <;> rfl
  · rfl

theorem getTokenTransactionStatus_set (tables : SparkTables) (changed hash : SparkHash)
    (status : TokenTransactionStatus) (present : tables.transactions.lookup changed ≠ none) :
    (tables.setTokenTransactionStatus changed status).getTokenTransactionStatus hash =
      if hash = changed then status else tables.getTokenTransactionStatus hash := by
  unfold getTokenTransactionStatus
  rw [lookup_setTokenTransactionStatus]
  by_cases same : hash = changed
  · subst same
    obtain ⟨row, found⟩ := Option.ne_none_iff_exists'.mp present
    rw [if_pos rfl, if_pos rfl, found]
    rfl
  · rw [if_neg same, if_neg same]

theorem operatorSignatures_setTokenTransactionStatus (changed : SparkHash)
    (status : TokenTransactionStatus) :
    (tables.setTokenTransactionStatus changed status).operatorSignatures =
      tables.operatorSignatures := by
  unfold setTokenTransactionStatus
  split <;> rfl

@[simp] theorem transactions_insertSignatureData (data : SparkSignatureData) :
    (tables.insertSignatureData data).transactions = tables.transactions := by
  unfold insertSignatureData
  cases data.operatorSpecificOwnerSignature <;> rfl

@[simp] theorem operatorSignatures_insertSignatureData (data : SparkSignatureData) :
    (tables.insertSignatureData data).operatorSignatures =
      tables.operatorSignatures.insert (data.tokenTxHash, data.operatorPubkey)
        data.operatorSignature := by
  unfold insertSignatureData
  cases data.operatorSpecificOwnerSignature <;> rfl

theorem mem_allOutputs : (place, row) ∈ tables.allOutputs ↔ tables.output place = some row := by
  unfold allOutputs output
  simp only [List.mem_flatMap, List.mem_map, Prod.mk.injEq, Prod.exists,
    List.mem_zipIdx_iff_getElem?, Sigma.exists]
  constructor
  · rintro ⟨hash, txRow, mem, output, vout, found, rfl, rfl⟩
    rw [AList.mem_lookup_iff.mpr mem]
    exact found
  · intro found
    obtain ⟨txRow, stored, found⟩ := Option.bind_eq_some_iff.mp found
    exact ⟨_, txRow, AList.mem_lookup_iff.mp stored, row, place.outputIndex, found, rfl, rfl⟩

/-- An output found by its id is a row of the table with that id. -/
theorem getSparkOutputModel_eq_some (found : tables.getSparkOutputModel id = some (place, row)) :
    tables.output place = some row ∧ row.sparkId = id := by
  have mem := List.mem_of_find?_eq_some found
  have same := List.find?_some found
  exact ⟨mem_allOutputs.mp mem, by simpa using same⟩

theorem getSparkOutputModel_eq_none (missing : tables.getSparkOutputModel id = none)
    (stored : tables.output place = some row) : row.sparkId ≠ id := by
  have absent := List.find?_eq_none.mp missing (place, row) (mem_allOutputs.mpr stored)
  simpa using absent

/-- A transaction that is read back has a row with an output, and its leaves and operators. -/
theorem getSparkTxWithOutputs_eq_some (found : tables.getSparkTxWithOutputs hash = some tx) :
    ∃ row, tables.transactions.lookup hash = some row ∧ row.outputs ≠ [] ∧
      tx.leavesToCreate = row.outputs.map SparkOutputRow.toLeaf ∧
      tx.sparkOperatorIdentityPublicKeys = row.operatorPubkeys := by
  obtain ⟨row, stored, created⟩ := Option.bind_eq_some_iff.mp found
  unfold createTokenTransaction at created
  split at created
  case isTrue => cases created
  case isFalse nonempty =>
    obtain rfl := Option.some.inj created
    exact ⟨row, stored, nonempty, rfl, rfl⟩

theorem getSparkTxWithOutputs_isSome (stored : tables.output place = some row) :
    (tables.getSparkTxWithOutputs place.tokenTransactionHash).isSome := by
  obtain ⟨txRow, found, leaf⟩ := Option.bind_eq_some_iff.mp stored
  have outputs : txRow.outputs ≠ [] := List.ne_nil_of_mem (List.mem_of_getElem? leaf)
  simp [getSparkTxWithOutputs, found, createTokenTransaction, outputs]

theorem leaf_eq_output (found : tables.getSparkTxWithOutputs hash = some tx) (index : Nat) :
    tx.leavesToCreate[index]? = (tables.output ⟨hash, index⟩).map SparkOutputRow.toLeaf := by
  obtain ⟨row, stored, -, leaves, -⟩ := getSparkTxWithOutputs_eq_some found
  rw [leaves, List.getElem?_map]
  simp [output, stored]

/-! ### Inserting a transaction -/

/-- `spender` is recorded as the spender of the given leaves, each with one of the inputs
given for it, and nothing else changes. -/
structure Linked (spender : SparkHash) (inputs : List (SparkOutPoint × Nat))
    (tables tables' : SparkTables) : Prop where
  fixedRow : tables'.fixedRow = tables.fixedRow
  status : ∀ hash, tables'.getTokenTransactionStatus hash = tables.getTokenTransactionStatus hash
  operatorSignatures : tables'.operatorSignatures = tables.operatorSignatures
  userSignatures : tables'.userSignatures = tables.userSignatures
  others : ∀ place, place ∉ inputs.map Prod.fst → tables'.output place = tables.output place
  linked : ∀ place ∈ inputs.map Prod.fst, ∃ row index, (place, index) ∈ inputs ∧
    tables.output place = some row ∧
    tables'.output place = some { row with spend := some (spender, index) }

theorem getTokenTransactionStatus_modifyOutput (place : SparkOutPoint)
    (change : SparkOutputRow → SparkOutputRow) (hash : SparkHash) :
    (tables.modifyOutput place change).getTokenTransactionStatus hash =
      tables.getTokenTransactionStatus hash := by
  unfold getTokenTransactionStatus
  rw [lookup_modifyOutput]
  by_cases same : hash = place.tokenTransactionHash
  · rw [if_pos same]
    cases tables.transactions.lookup hash <;> rfl
  · rw [if_neg same]

theorem linked_modifyOutput (present : tables.output place = some row) (spender : SparkHash)
    (index : Nat) :
    Linked spender [(place, index)] tables
      (tables.modifyOutput place fun row => { row with spend := some (spender, index) }) where
  fixedRow := fixedRow_modifyOutput place fun _ => rfl
  status := getTokenTransactionStatus_modifyOutput place _
  operatorSignatures := by unfold modifyOutput; split <;> rfl
  userSignatures := by unfold modifyOutput; split <;> rfl
  others := by
    intro other absent
    rw [output_modifyOutput, if_neg (by simpa using absent)]
  linked := by
    intro other mem
    obtain rfl := List.mem_singleton.mp mem
    refine ⟨row, index, List.mem_singleton_self _, present, ?_⟩
    rw [output_modifyOutput, if_pos rfl, present]
    rfl

/-- A leaf linked twice in a row keeps the second link. -/
theorem Linked.trans {first second : List (SparkOutPoint × Nat)} {a b c : SparkTables}
    (ab : Linked spender first a b) (bc : Linked spender second b c) :
    Linked spender (first ++ second) a c where
  fixedRow := bc.fixedRow.trans ab.fixedRow
  status := fun hash => (bc.status hash).trans (ab.status hash)
  operatorSignatures := bc.operatorSignatures.trans ab.operatorSignatures
  userSignatures := bc.userSignatures.trans ab.userSignatures
  others := by
    intro place absent
    rw [List.map_append, List.mem_append, not_or] at absent
    rw [bc.others place absent.2, ab.others place absent.1]
  linked := by
    intro place mem
    by_cases inSecond : place ∈ second.map Prod.fst
    · obtain ⟨row, index, input, found, after⟩ := bc.linked place inSecond
      have inBoth : (place, index) ∈ first ++ second := List.mem_append_right _ input
      by_cases inFirst : place ∈ first.map Prod.fst
      · obtain ⟨old, oldIndex, -, before, between⟩ := ab.linked place inFirst
        rw [between] at found
        obtain rfl := Option.some.inj found
        exact ⟨old, index, inBoth, before, after⟩
      · rw [ab.others place inFirst] at found
        exact ⟨row, index, inBoth, found, after⟩
    · have inFirst : place ∈ first.map Prod.fst := by
        rw [List.map_append] at mem
        rcases List.mem_append.mp mem with inFirst | impossible
        · exact inFirst
        · exact absurd impossible inSecond
      obtain ⟨row, index, input, before, between⟩ := ab.linked place inFirst
      refine ⟨row, index, List.mem_append_left _ input, before, ?_⟩
      rw [bc.others place inSecond, between]

theorem insertSpentOutputs_linked {leaves : List TokenLeafToSpend} {index : Nat}
    (inserted : insertSpentOutputs spender index leaves tables = .ok tables') :
    Linked spender ((leaves.map outPoint).zipIdx index) tables tables' := by
  induction leaves generalizing index tables with
  | nil =>
    obtain rfl := Except.ok.inj inserted
    exact ⟨rfl, fun _ => rfl, rfl, rfl, fun _ _ => rfl, by simp⟩
  | cons leaf rest ih =>
    simp only [insertSpentOutputs, insertSpentOutput] at inserted
    cases present : tables.output leaf.outPoint with
    | none => rw [present] at inserted; cases inserted
    | some row =>
      rw [present] at inserted
      exact (linked_modifyOutput present spender index).trans (ih inserted)

/-- What a successful insertion has checked and done. The new transaction is in the tables
when the leaves it spends are linked to it. -/
structure Inserted (prims : Primitives) (tables : SparkTables) (tx : TokenTransaction)
    (tables' : SparkTables) : Prop where
  fresh : tables.transactions.lookup (tx.hash prims) = none
  idsDistinct : (tx.leavesToCreate.map TokenLeafOutput.id).Nodup
  idsFresh : ∀ leaf ∈ tx.leavesToCreate, tables.getSparkOutputModel leaf.id = none
  operatorsDistinct : tx.sparkOperatorIdentityPublicKeys.Nodup
  linked : ∃ row, SparkTransactionRow.ofTransaction tx = some row ∧
    Linked (tx.hash prims) (tx.outputsToSpend.map outPoint).zipIdx
      { tables with transactions := tables.transactions.insert (tx.hash prims) row } tables'

theorem inserted_of_ok (ok : tables.insertSparkTransaction prims tx = .ok tables') :
    Inserted prims tables tx tables' := by
  unfold insertSparkTransaction at ok
  simp only at ok
  split at ok
  case isTrue => cases ok
  case isFalse admitted =>
    simp only [not_or, Decidable.not_not, Bool.not_eq_true, List.any_eq_false,
      List.mem_map, forall_exists_index, and_imp, forall_apply_eq_imp_iff₂] at admitted
    obtain ⟨fresh, distinct, unused, operators⟩ := admitted
    split at ok
    case h_1 => cases ok
    case h_2 row known =>
      exact {
        fresh := by simpa using fresh
        idsDistinct := distinct
        idsFresh := fun leaf mem => by simpa using unused leaf mem
        operatorsDistinct := operators
        linked := ⟨row, known, insertSpentOutputs_linked ok⟩ }

theorem Inserted.leaf (inserted : Inserted prims tables tx tables')
    (other : place.tokenTransactionHash ≠ tx.hash prims) :
    (tables'.output place).map SparkOutputRow.toLeaf =
      (tables.output place).map SparkOutputRow.toLeaf := by
  obtain ⟨row, -, linked⟩ := inserted.linked
  have before : ∀ row : SparkTransactionRow, (SparkTables.mk (tables.transactions.insert
      (tx.hash prims) row) tables.operatorSignatures tables.userSignatures).output place =
      tables.output place := by
    intro row
    unfold output
    rw [AList.lookup_insert_ne other]
  by_cases spent : place ∈ (tx.outputsToSpend.map outPoint).zipIdx.map Prod.fst
  · obtain ⟨output, index, -, there, after⟩ := linked.linked place spent
    rw [before] at there
    rw [after, there]
    rfl
  · rw [linked.others place spent, before]

/-- A transaction stored before has the same leaves and operators after an insertion. -/
theorem Inserted.parent {parent : TokenTransaction} (inserted : Inserted prims tables tx tables')
    (other : hash ≠ tx.hash prims) (found : tables.getSparkTxWithOutputs hash = some parent) :
    ∃ parent', tables'.getSparkTxWithOutputs hash = some parent' ∧
      parent'.leavesToCreate = parent.leavesToCreate ∧
      parent'.sparkOperatorIdentityPublicKeys = parent.sparkOperatorIdentityPublicKeys := by
  obtain ⟨row, present, nonempty, -, operators⟩ := getSparkTxWithOutputs_eq_some found
  obtain ⟨own, -, linked⟩ := inserted.linked
  have settled := congrFun linked.fixedRow hash
  unfold fixedRow at settled
  rw [AList.lookup_insert_ne other, present] at settled
  obtain ⟨row', present', fixed⟩ := Option.map_eq_some_iff.mp settled
  have sameOperators : row'.operatorPubkeys = row.operatorPubkeys := by
    show row'.fixed.operatorPubkeys = row.fixed.operatorPubkeys
    rw [fixed]
  have nonempty' : row'.outputs ≠ [] := by
    intro none
    have outputs : row'.outputs.map SparkOutputRow.fixed = row.outputs.map SparkOutputRow.fixed :=
      congrArg SparkTransactionRow.outputs fixed
    rw [none] at outputs
    exact nonempty (List.map_eq_nil_iff.mp outputs.symm)
  have readable : (tables'.getSparkTxWithOutputs hash).isSome := by
    unfold getSparkTxWithOutputs createTokenTransaction
    rw [present', Option.bind_some, if_neg nonempty']
    rfl
  obtain ⟨parent', found'⟩ := Option.isSome_iff_exists.mp readable
  obtain ⟨_, again, -, -, operators'⟩ := getSparkTxWithOutputs_eq_some found'
  obtain rfl := Option.some.inj (present'.symm.trans again)
  refine ⟨parent', found', ?_, by rw [operators', operators, sameOperators]⟩
  apply List.ext_getElem?
  intro index
  rw [leaf_eq_output found, leaf_eq_output found']
  exact inserted.leaf other

end SparkTables

end Lrc20.Storage
