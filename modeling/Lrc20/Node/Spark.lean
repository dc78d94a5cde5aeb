import Lrc20.Lib.Runs
import Lrc20.TxCheck.Spark

/-! The Spark side of the node: the controller stores transactions, the checker checks
transactions, signatures and exits. Messages between them are inputs of the machine, so a
run covers every order in which they can arrive. -/

open FixedWidth Lrc20.Storage Lrc20.TxCheck Runs SparkTables SparkTransactionRow

namespace Lrc20.Node

variable {stored : List TokenTransaction} {P : SparkTables → List TokenTransaction → Prop}
  {tx : TokenTransaction} {tables : SparkTables}

/-- The loop of `Controller::handle_new_spark_txs`: the tables, the transactions stored, and
whether the loop came to its end, where they are sent to the checker. -/
def handleNewSparkTxs (prims : Primitives) :
    List TokenTransaction → SparkTables → SparkTables × List TokenTransaction × Bool
  | [], tables => (tables, [], true)
  | tx :: rest, tables =>
    if (tables.transactions.lookup (tx.hash prims)).isSome then
      handleNewSparkTxs prims rest tables
    else match tables.insertSparkTransaction prims tx with
      | .error _ => (tables, [], false)
      | .ok tables =>
        let others := handleNewSparkTxs prims rest tables
        (others.1, tx :: others.2.1, others.2.2)

/-- The state of the Spark side, and what happened before: the transactions stored, those
that passed their check, the exits accepted, and the signature data accepted with the hash
it was checked against, each in order. -/
structure SparkNode where
  tables : SparkTables
  queue : SparkQueue
  stored : List TokenTransaction
  accepted : List TokenTransaction
  exits : List Lrc20Transaction
  verified : List (SparkSignatureData × SparkHash)

namespace SparkNode

def new : SparkNode := ⟨SparkTables.empty, ∅, [], [], [], []⟩

variable (prims : Primitives) (validateAnnouncement : Bool)

/-- The transactions of a batch that pass their check, in the order of the batch. -/
def passed (tables : SparkTables) (l1 : L1Tables) (sender : Option SocketAddr) :
    List TokenTransaction → SparkChecking → List TokenTransaction
  | [], _ => []
  | tx :: rest, state =>
    let checked := checkSparkTransaction prims tables l1 validateAnnouncement tx sender state
    let others := passed tables l1 sender rest
      (checkNextSparkTx prims tables l1 validateAnnouncement sender state tx)
    if checked.2 then tx :: others else others

/-- One turn of the first loop of `check_spark_signatures`. -/
def storeSignature (node : SparkNode) (data : SparkSignatureData) : SparkNode :=
  let message := (node.tables.getSparkTxWithOutputs data.tokenTxHash).map (·.hash prims)
  { node with
    tables := TxCheck.storeSignature prims node.tables data
    verified := if (checkSparkSignatureData prims node.tables data).2 then
      node.verified ++ message.toList.map (data, ·) else node.verified }

inductive Input where
  /-- `Controller::handle_new_spark_txs`. -/
  | newSparkTxs (txs : List TokenTransaction)
  /-- `TxChecker::check_spark_txs`, with the layer-one tables it reads. -/
  | checkSparkTxs (l1 : L1Tables) (txs : List TokenTransaction) (sender : Option SocketAddr)
  /-- `TxChecker::check_spark_signatures`. -/
  | checkSparkSignatures (sigs : List SparkSignatureData)
  /-- `TxChecker::check_spark_exit`. -/
  | checkSparkExit (client : BitcoinClient) (bitcoinTx : Transaction) (outputProofs : ProofMap)

def step (node : SparkNode) : Input → SparkNode
  | .newSparkTxs txs =>
    let handled := handleNewSparkTxs prims txs node.tables
    { node with tables := handled.1, stored := node.stored ++ handled.2.1 }
  | .checkSparkTxs l1 txs sender =>
    { node with
      queue := (TxCheck.checkSparkTxs prims node.tables l1 validateAnnouncement node.queue txs
        sender).sparkQueue
      accepted := node.accepted ++ passed prims validateAnnouncement node.tables l1 sender txs
        ⟨∅, [], [], [], node.queue⟩ }
  | .checkSparkSignatures sigs =>
    let signed := sigs.foldl (storeSignature prims) node
    let updated := sigs.foldl (updateStatus prims) (signed.tables, [])
    { signed with
      tables := updated.1
      queue := (handleChildSparkTransactions node.queue updated.2).1 }
  | .checkSparkExit client bitcoinTx outputProofs =>
    let tx : Lrc20Transaction := ⟨bitcoinTx, .sparkExit outputProofs⟩
    match TxCheck.checkSparkExit prims client node.tables node.queue tx outputProofs with
    | .error _ => node
    | .ok (tables, queue, verdict) =>
      { node with
        tables, queue
        exits := if verdict = .valid then node.exits ++ [tx] else node.exits }

end SparkNode

/-! ### The tables record the stored transactions -/

section Records

variable {prims : Primitives} {tables tables' : SparkTables} {tx : TokenTransaction}
  {stored : List TokenTransaction}

/-- The settled part of an output, read from the settled parts of the rows. -/
def fixedOutput (rows : SparkHash → Option SparkTransactionRow) (place : SparkOutPoint) :
    Option SparkOutputRow :=
  (rows place.tokenTransactionHash).bind fun row => row.outputs[place.outputIndex]?

theorem fixedOutput_eq (tables : SparkTables) (place : SparkOutPoint) :
    fixedOutput tables.fixedRow place = (tables.output place).map SparkOutputRow.fixed := by
  unfold fixedOutput fixedRow SparkTables.output
  cases tables.transactions.lookup place.tokenTransactionHash with
  | none => rfl
  | some row => simp [SparkTransactionRow.fixed]

/-- The rows are those of the stored transactions, one for each, and leaf ids are unique. -/
structure Recorded (prims : Primitives) (rows : SparkHash → Option SparkTransactionRow)
    (stored : List TokenTransaction) : Prop where
  written : ∀ tx ∈ stored, ∃ row, ofTransaction tx = some row ∧
    rows (tx.hash prims) = some row.fixed
  known : ∀ hash, rows hash ≠ none → ∃ tx ∈ stored, tx.hash prims = hash
  hashes : (stored.map (·.hash prims)).Nodup
  operators : ∀ tx ∈ stored, tx.sparkOperatorIdentityPublicKeys.Nodup
  ids : ∀ place place' output output', fixedOutput rows place = some output →
    fixedOutput rows place' = some output' → output.sparkId = output'.sparkId → place = place'

theorem recorded_new : Recorded prims SparkTables.empty.fixedRow [] where
  written := by simp
  known := by
    intro hash present
    exact absurd rfl present
  hashes := by simp
  operators := by simp
  ids := by
    intro place place' output output' found
    cases found

section

variable (recorded : Recorded prims tables.fixedRow stored)
include recorded

theorem Recorded.place_eq {a b : SparkOutPoint} {rowA rowB : SparkOutputRow}
    (foundA : tables.output a = some rowA) (foundB : tables.output b = some rowB)
    (same : rowA.sparkId = rowB.sparkId) : a = b := by
  apply recorded.ids a b rowA.fixed rowB.fixed
  · rw [fixedOutput_eq, foundA]
    rfl
  · rw [fixedOutput_eq, foundB]
    rfl
  · exact same

omit recorded in
theorem fixedRow_inserted (inserted : SparkTables.Inserted prims tables tx tables') :
    ∃ row, ofTransaction tx = some row ∧
      tables'.fixedRow = fun hash =>
        if hash = tx.hash prims then some row.fixed else tables.fixedRow hash := by
  obtain ⟨row, known, linked⟩ := inserted.linked
  refine ⟨row, known, ?_⟩
  rw [linked.fixedRow]
  funext hash
  unfold fixedRow
  by_cases same : hash = tx.hash prims
  · rw [if_pos same, same, AList.lookup_insert]
    rfl
  · rw [if_neg same, AList.lookup_insert_ne same]

theorem Recorded.row (mem : tx ∈ stored) :
    ∃ row settled, tables.transactions.lookup (tx.hash prims) = some row ∧
      ofTransaction tx = some settled ∧ row.fixed = settled.fixed := by
  obtain ⟨settled, known, written⟩ := recorded.written tx mem
  obtain ⟨row, present, same⟩ := Option.map_eq_some_iff.mp written
  exact ⟨row, settled, present, known, same⟩

theorem Recorded.present (mem : tx ∈ stored) :
    tables.transactions.lookup (tx.hash prims) ≠ none := by
  obtain ⟨row, -, present, -⟩ := recorded.row mem
  simp [present]

/-- What is inserted has another hash than the stored transactions. -/
theorem Recorded.fresh (inserted : SparkTables.Inserted prims tables tx tables') :
    ∀ other ∈ stored, other.hash prims ≠ tx.hash prims :=
  fun _ mem same => recorded.present mem (same ▸ inserted.fresh)

omit recorded in
theorem fixedOutput_inserted (inserted : SparkTables.Inserted prims tables tx tables')
    (place : SparkOutPoint) :
    fixedOutput tables'.fixedRow place =
      if place.tokenTransactionHash = tx.hash prims then
        tx.leavesToCreate[place.outputIndex]?.map fun leaf => (SparkOutputRow.ofLeaf leaf).fixed
      else fixedOutput tables.fixedRow place := by
  obtain ⟨row, known, rows⟩ := fixedRow_inserted inserted
  unfold fixedOutput
  by_cases own : place.tokenTransactionHash = tx.hash prims
  · simp [rows, own, SparkTransactionRow.fixed, (SparkTransactionRow.rowOf known).outputs,
      Function.comp_def]
  · simp only [rows, own, if_false]

theorem Recorded.insert (inserted : SparkTables.Inserted prims tables tx tables') :
    Recorded prims tables'.fixedRow (stored ++ [tx]) := by
  obtain ⟨row, known, rows⟩ := fixedRow_inserted inserted
  have unused := recorded.fresh inserted
  -- The id of an old output is not that of a new leaf.
  have apart : ∀ place output leaf, fixedOutput tables.fixedRow place = some output →
      leaf ∈ tx.leavesToCreate → output.sparkId ≠ leaf.id := by
    intro place output leaf found mem same
    rw [fixedOutput_eq] at found
    obtain ⟨stored, there, rfl⟩ := Option.map_eq_some_iff.mp found
    exact getSparkOutputModel_eq_none (inserted.idsFresh leaf mem) there same
  constructor
  case written =>
    intro other mem
    rcases List.mem_append.mp mem with old | new
    · obtain ⟨oldRow, oldKnown, present⟩ := recorded.written other old
      refine ⟨oldRow, oldKnown, ?_⟩
      rw [rows]
      simp only [unused other old, if_false]
      exact present
    · obtain rfl := List.mem_singleton.mp new
      refine ⟨row, known, ?_⟩
      rw [rows]
      simp only [if_true]
  case known =>
    intro hash present
    by_cases same : hash = tx.hash prims
    · exact ⟨tx, by simp, same.symm⟩
    · rw [rows] at present
      simp only [same, if_false] at present
      obtain ⟨other, mem, sameHash⟩ := recorded.known hash present
      exact ⟨other, by simp [mem], sameHash⟩
  case hashes =>
    rw [List.map_append, List.nodup_append]
    refine ⟨recorded.hashes, by simp, ?_⟩
    intro hash mem other otherMem same
    obtain ⟨old, oldMem, rfl⟩ := List.mem_map.mp mem
    simp only [List.map_cons, List.map_nil, List.mem_singleton] at otherMem
    exact unused old oldMem (same.trans otherMem)
  case operators =>
    intro other mem
    rcases List.mem_append.mp mem with old | new
    · exact recorded.operators other old
    · rw [List.mem_singleton.mp new]
      exact inserted.operatorsDistinct
  case ids =>
    intro place place' output output' found found' sameId
    rw [fixedOutput_inserted inserted] at found found'
    split at found <;> split at found'
    · rename_i own own'
      obtain ⟨leaf, there, rfl⟩ := Option.map_eq_some_iff.mp found
      obtain ⟨leaf', there', rfl⟩ := Option.map_eq_some_iff.mp found'
      have sameIndex : place.outputIndex = place'.outputIndex := by
        apply (List.getElem?_inj _ inserted.idsDistinct).mp
        · rw [List.getElem?_map, List.getElem?_map, there, there']
          exact congrArg some sameId
        · rw [List.length_map]
          exact (List.getElem?_eq_some_iff.mp there).1
      cases place
      cases place'
      exact congrArg₂ SparkOutPoint.mk (own.trans own'.symm) sameIndex
    · obtain ⟨leaf, there, rfl⟩ := Option.map_eq_some_iff.mp found
      exact absurd sameId.symm (apart _ _ leaf found' (List.mem_of_getElem? there))
    · obtain ⟨leaf, there, rfl⟩ := Option.map_eq_some_iff.mp found'
      exact absurd sameId (apart _ _ leaf found (List.mem_of_getElem? there))
    · exact recorded.ids place place' output output' found found' sameId

theorem Recorded.output_of_leaf (mem : tx ∈ stored) {index : Nat} {leaf : TokenLeafOutput}
    (there : tx.leavesToCreate[index]? = some leaf) :
    ∃ row, tables.output ⟨tx.hash prims, index⟩ = some row ∧
      row.fixed = (SparkOutputRow.ofLeaf leaf).fixed := by
  obtain ⟨txRow, known, written⟩ := recorded.written tx mem
  have settled : fixedOutput tables.fixedRow ⟨tx.hash prims, index⟩ =
      some (SparkOutputRow.ofLeaf leaf).fixed := by
    unfold fixedOutput
    rw [written]
    simp [SparkTransactionRow.fixed, (SparkTransactionRow.rowOf known).outputs, there]
  rw [fixedOutput_eq] at settled
  exact Option.map_eq_some_iff.mp settled

theorem Recorded.leaf_of_output {place : SparkOutPoint} {row : SparkOutputRow}
    (found : tables.output place = some row) :
    ∃ tx ∈ stored, tx.hash prims = place.tokenTransactionHash ∧
      ∃ leaf, tx.leavesToCreate[place.outputIndex]? = some leaf ∧
        row.fixed = (SparkOutputRow.ofLeaf leaf).fixed := by
  have settled := fixedOutput_eq tables place
  rw [found] at settled
  have present : tables.fixedRow place.tokenTransactionHash ≠ none := by
    intro missing
    unfold fixedOutput at settled
    rw [missing] at settled
    cases settled
  obtain ⟨tx, mem, same⟩ := recorded.known place.tokenTransactionHash present
  obtain ⟨txRow, known, written⟩ := recorded.written tx mem
  refine ⟨tx, mem, same, ?_⟩
  unfold fixedOutput at settled
  rw [← same, written] at settled
  simp only [Option.bind_some, SparkTransactionRow.fixed, (SparkTransactionRow.rowOf known).outputs,
    List.map_map, List.getElem?_map, Option.map_some] at settled
  obtain ⟨leaf, there, same⟩ := Option.map_eq_some_iff.mp settled
  exact ⟨leaf, there, same.symm⟩

end

end Records

/-! ### Steps -/

section Steps

variable {prims : Primitives} {validateAnnouncement : Bool}

theorem handleNewSparkTxs_keeps {txs : List TokenTransaction}
    (keeps : ∀ tables tables' stored, ∀ tx ∈ txs, P tables stored →
      SparkTables.Inserted prims tables tx tables' → P tables' (stored ++ [tx]))
    (start : P tables stored) :
    P (handleNewSparkTxs prims txs tables).1
      (stored ++ (handleNewSparkTxs prims txs tables).2.1) := by
  induction txs generalizing tables stored with
  | nil => simpa [handleNewSparkTxs] using start
  | cons tx rest ih =>
    have keepsRest : ∀ tables tables' stored, ∀ tx ∈ rest, P tables stored →
        SparkTables.Inserted prims tables tx tables' → P tables' (stored ++ [tx]) :=
      fun tables tables' stored tx mem => keeps tables tables' stored tx (by simp [mem])
    unfold handleNewSparkTxs
    split
    case isTrue => exact ih keepsRest start
    case isFalse =>
      split
      case h_1 => simpa using start
      case h_2 tables' inserted =>
        have next := ih keepsRest (keeps tables tables' stored tx (by simp) start
          (inserted_of_ok inserted))
        simpa using next

theorem handleNewSparkTxs_single (prims : Primitives) (tx : TokenTransaction)
    (tables : SparkTables) :
    (handleNewSparkTxs prims [tx] tables).1 = tables ∧
        (handleNewSparkTxs prims [tx] tables).2.1 = [] ∨
      SparkTables.Inserted prims tables tx (handleNewSparkTxs prims [tx] tables).1 ∧
        (handleNewSparkTxs prims [tx] tables).2.1 = [tx] := by
  unfold handleNewSparkTxs
  split
  case isTrue => exact .inl ⟨rfl, rfl⟩
  case isFalse =>
    split
    case h_1 => exact .inl ⟨rfl, rfl⟩
    case h_2 tables' ok => exact .inr ⟨inserted_of_ok ok, rfl⟩

theorem fixedRow_kept (rows : SparkHash → Option SparkTransactionRow) :
    KeptByWrites fun tables => tables.fixedRow = rows where
  secret _ place _ := Eq.trans (fixedRow_modifyOutput place fun _ => rfl)
  mark _ place _ _ _ := Eq.trans (fixedRow_modifyOutput place fun _ => rfl)
  signature tables data same := by
    unfold fixedRow at same ⊢
    rw [transactions_insertSignatureData]
    exact same
  status _ _ _ same := (fixedRow_setTokenTransactionStatus _ _).trans same

/-- The history kept beside the tables does not change what happens to them. -/
theorem foldl_storeSignature (sigs : List SparkSignatureData) (node : SparkNode) :
    (sigs.foldl (SparkNode.storeSignature prims) node).tables =
        sigs.foldl (TxCheck.storeSignature prims) node.tables ∧
      (sigs.foldl (SparkNode.storeSignature prims) node).stored = node.stored := by
  induction sigs generalizing node with
  | nil => exact ⟨rfl, rfl⟩
  | cons data rest ih => exact ih (SparkNode.storeSignature prims node data)

theorem step_checkSparkSignatures (node : SparkNode) (sigs : List SparkSignatureData) :
    let next := SparkNode.step prims validateAnnouncement node (.checkSparkSignatures sigs)
    next.tables = (checkSparkSignatures prims node.tables node.queue sigs).1 ∧
      next.stored = node.stored := by
  have signed := @foldl_storeSignature prims sigs node
  simp only [SparkNode.step, checkSparkSignatures, signed]
  exact ⟨trivial, trivial⟩

theorem step_checkSparkSignatures_history (node : SparkNode) (sigs : List SparkSignatureData) :
    let next := SparkNode.step prims validateAnnouncement node (.checkSparkSignatures sigs)
    next.accepted = node.accepted ∧ next.exits = node.exits := by
  apply List.foldlRecOn (motive := fun next : SparkNode =>
    next.accepted = node.accepted ∧ next.exits = node.exits) sigs _ ⟨rfl, rfl⟩
  intro next same data _
  exact same

/-- What an exit leaves behind: the marks of its proofs, and the exit itself when it is
accepted. -/
theorem step_checkSparkExit (node : SparkNode) (client : BitcoinClient) (bitcoinTx : Transaction)
    (outputProofs : ProofMap) :
    let checked := fun block =>
      checkExitProofs prims bitcoinTx.txid block outputProofs.entries node.tables
    let next := SparkNode.step prims validateAnnouncement node
      (.checkSparkExit client bitcoinTx outputProofs)
    (next.tables = node.tables ∧ next.exits = node.exits ∨
      ∃ block, next.tables = (checked block).1 ∧ next.exits =
        if (checked block).2 = .valid then node.exits ++ [⟨bitcoinTx, .sparkExit outputProofs⟩]
        else node.exits) ∧
    next.stored = node.stored ∧ next.accepted = node.accepted ∧ next.verified = node.verified := by
  intro checked next
  have step : next = SparkNode.step prims validateAnnouncement node
      (.checkSparkExit client bitcoinTx outputProofs) := rfl
  rcases checkSparkExit_cases prims client node.tables node.queue
    ⟨bitcoinTx, .sparkExit outputProofs⟩ outputProofs with
    failed | ⟨queue, invalid⟩ | ⟨block, queue, ended⟩
  · simp only [SparkNode.step, failed] at step
    rw [step]
    exact ⟨.inl ⟨rfl, rfl⟩, rfl, rfl, rfl⟩
  · simp only [SparkNode.step, invalid] at step
    rw [step]
    exact ⟨.inl ⟨rfl, rfl⟩, rfl, rfl, rfl⟩
  · simp only [SparkNode.step, ended] at step
    rw [step]
    exact ⟨.inr ⟨block, rfl, rfl⟩, rfl, rfl, rfl⟩

/-- What the insertions and the other writes keep, a step keeps. -/
theorem step_keeps
    (insert : ∀ tables tables' stored tx, P tables stored →
      SparkTables.Inserted prims tables tx tables' → P tables' (stored ++ [tx]))
    (writes : ∀ stored, KeptByWrites (P · stored)) (node : SparkNode) (input : SparkNode.Input)
    (held : P node.tables node.stored) :
    P (SparkNode.step prims validateAnnouncement node input).tables
      (SparkNode.step prims validateAnnouncement node input).stored := by
  cases input with
  | newSparkTxs txs =>
    exact handleNewSparkTxs_keeps (fun tables tables' stored tx _ => insert tables tables' stored tx)
      held
  | checkSparkTxs l1 txs sender => exact held
  | checkSparkSignatures sigs =>
    obtain ⟨tables, stored⟩ := @step_checkSparkSignatures prims validateAnnouncement node sigs
    rw [tables, stored]
    exact (writes _).checkSparkSignatures node.queue sigs held
  | checkSparkExit client bitcoinTx outputProofs =>
    obtain ⟨tables | ⟨block, tables⟩, stored, -, -⟩ := @step_checkSparkExit prims
      validateAnnouncement node client bitcoinTx outputProofs
    · rw [tables.1, stored]
      exact held
    · rw [tables.1, stored]
      exact (writes _).checkExitProofs _ _ _ held

theorem recorded_step (node : SparkNode) (input : SparkNode.Input)
    (recorded : Recorded prims node.tables.fixedRow node.stored) :
    Recorded prims (SparkNode.step prims validateAnnouncement node input).tables.fixedRow
      (SparkNode.step prims validateAnnouncement node input).stored :=
  step_keeps (P := fun tables stored => Recorded prims tables.fixedRow stored)
    (fun _ _ _ _ recorded inserted => recorded.insert inserted)
    (fun _ => .of_view fixedRow_kept fun _ _ same recorded => same ▸ recorded) node input recorded

theorem recorded_run (history : List SparkNode.Input) :
    let node := runFrom (SparkNode.step prims validateAnnouncement) SparkNode.new history
    Recorded prims node.tables.fixedRow node.stored := by
  exact runFrom_invariant (I := fun node : SparkNode => Recorded prims node.tables.fixedRow node.stored)
    recorded_step recorded_new history

end Steps

section Supply

variable {prims : Primitives}

/-! ### What the stored mints amount to -/

def mintedAmount (token : TokenPubkey) (tx : TokenTransaction) : Nat :=
  if tx.isMint then
    exactSum ((tx.leavesToCreate.filter fun leaf => leaf.tokenPubkey = token).map
      TokenLeafOutput.amount)
  else 0

/-- The same, read from a row. -/
def rowMinted (token : TokenPubkey) (row : SparkTransactionRow) : Nat :=
  if row.isMint then
    exactSum ((row.outputs.filter fun output => output.tokenPubkey = token).map
      SparkOutputRow.tokenAmount)
  else 0

theorem rowMinted_fixed (token : TokenPubkey) (row : SparkTransactionRow) :
    rowMinted token row.fixed = rowMinted token row := by
  unfold rowMinted SparkTransactionRow.fixed SparkTransactionRow.isMint
  simp only [List.filter_map, List.map_map]
  rfl

theorem rowMinted_ofTransaction {token : TokenPubkey} {row : SparkTransactionRow}
    (known : ofTransaction tx = some row) : rowMinted token row = mintedAmount token tx := by
  have fields := SparkTransactionRow.rowOf known
  have kind : row.isMint = tx.isMint := by
    unfold SparkTransactionRow.isMint TokenTransaction.isMint
    rcases fields.operation with ⟨_, _, _, input, operation⟩ | ⟨_, input, operation⟩
    · rw [input, operation]
    · rw [input, operation]
  unfold rowMinted mintedAmount
  rw [kind, fields.outputs, List.filter_map, List.map_map]
  rfl

theorem exactSum_issueLeaves (tables : SparkTables) (token : TokenPubkey) :
    exactSum ((tables.getIssueLeavesByTokenPubkey token).map TokenLeafOutput.amount) =
      (tables.transactions.entries.map fun entry => rowMinted token entry.2).sum := by
  unfold getIssueLeavesByTokenPubkey
  induction tables.transactions.entries with
  | nil => rfl
  | cons entry rest ih =>
    rw [List.flatMap_cons, List.map_append, exactSum_append, ih, List.map_cons, List.sum_cons]
    congr 1
    unfold rowMinted
    split
    · rw [List.map_map]
      rfl
    · rfl

/-- The stored leaves of a token add up to what the stored mints amount to. -/
theorem Recorded.issueSum (recorded : Recorded prims tables.fixedRow stored) (token : TokenPubkey) :
    exactSum ((tables.getIssueLeavesByTokenPubkey token).map TokenLeafOutput.amount) =
      (stored.map (mintedAmount token)).sum := by
  let minted (hash : SparkHash) : Nat := ((tables.fixedRow hash).map (rowMinted token)).getD 0
  have keys : tables.transactions.keys.Perm (stored.map (·.hash prims)) := by
    apply (List.perm_ext_iff_of_nodup tables.transactions.keys_nodup recorded.hashes).mpr
    intro hash
    have present : hash ∈ tables.transactions.keys ↔ tables.fixedRow hash ≠ none := by
      unfold fixedRow
      rw [← AList.mem_keys, ← AList.lookup_isSome]
      cases tables.transactions.lookup hash <;> simp
    rw [present, List.mem_map]
    constructor
    · exact recorded.known hash
    · rintro ⟨tx, mem, rfl⟩
      obtain ⟨row, -, written⟩ := recorded.written tx mem
      simp [written]
  have entries : (tables.transactions.entries.map fun entry => rowMinted token entry.2) =
      tables.transactions.keys.map minted := by
    rw [AList.keys, List.keys, List.map_map]
    apply List.map_congr_left
    intro entry mem
    have stored : tables.transactions.lookup entry.1 = some entry.2 := AList.mem_lookup_iff.mpr mem
    simp [minted, fixedRow, stored, rowMinted_fixed]
  have storedTxs : (stored.map (·.hash prims)).map minted = stored.map (mintedAmount token) := by
    rw [List.map_map]
    apply List.map_congr_left
    intro tx mem
    obtain ⟨row, known, written⟩ := recorded.written tx mem
    simp [minted, written, rowMinted_fixed, rowMinted_ofTransaction known]
  rw [exactSum_issueLeaves, entries, (keys.map minted).sum_eq, storedTxs]

end Supply

end Lrc20.Node
