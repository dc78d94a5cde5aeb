import Lrc20.Node.L1
import Lrc20.Types.AnnouncementParsing

/-! What a step of the layer-one side writes to the ledger: new rows, marks, rejections,
deletions, and what the full check leaves behind. -/

open Lrc20.Storage Lrc20.TxAttach Lrc20.TxCheck Runs L1Tables FullChecking

namespace Lrc20.Node

/-- The transactions whose rows a message marks as attached. -/
def ControllerMessage.marked : ControllerMessage → List Lrc20Transaction
  | fullyCheckedTxs txs => txs.filter (·.txType.isAnnouncement)
  | attachedTxs txs => txs
  | _ => []

namespace L1Node

section Mempool

variable {prims : Primitives}

theorem onlyMempool_updateMempool (status : MempoolStatus) (txids : List Txid)
    (tables : L1Tables) : tables.OnlyMempool (updateMempool status txids tables).1 := by
  induction txids generalizing tables with
  | nil => exact .refl tables
  | cons txid rest ih =>
    unfold updateMempool
    cases updated : tables.updateMempoolTxStatus txid status with
    | error failure => exact .refl tables
    | ok tables' => exact (onlyMempool_updateMempoolTxStatus updated).trans (ih tables')

theorem onlyMempool_markMined (txids : List Txid) (tables : L1Tables) :
    tables.OnlyMempool (markMined prims txids tables) := by
  induction txids generalizing tables with
  | nil => exact .refl tables
  | cons txid rest ih =>
    unfold markMined
    split
    · exact .refl tables
    · cases updated : tables.updateMempoolTxStatus txid .mined with
      | error failure => exact .refl tables
      | ok tables' =>
        exact (onlyMempool_updateMempoolTxStatus updated).trans (ih tables')

end Mempool

variable {tx : Lrc20Transaction} {txs : List Lrc20Transaction} {ledger ledger' : Ledger}
  {client : BitcoinClient} {state : FullChecking} {rest : List TxCheckerMessage}
  {bans : SocketAddr → Bool}

/-- What the controller stores is unknown, or an issue over its announcement or over an issue that
was rejected. -/
theorem row_of_isNews {prims : Primitives} {tables : L1Tables} {existing : Option Lrc20Transaction}
    (found : tables.getLrc20TransactionById prims tx.txid = .ok existing)
    (news : isNews existing tx = true) :
    tables.l1Transactions.lookup tx.txid = none ∨
      ∃ row, tables.l1Transactions.lookup tx.txid = some row ∧ tx.txType.isIssue = true ∧
        (row.rawTx.txType.isIssue = true ∧ row.status = .invalidIssue ∨
          ∃ issue, row.rawTx.txType = .announcement (.issue issue)) := by
  unfold getLrc20TransactionById at found
  cases stored : tables.l1Transactions.lookup tx.txid with
  | none => exact .inl rfl
  | some row =>
    rw [stored] at found
    refine .inr ⟨row, rfl, ?_⟩
    cases read : row.read prims with
    | none =>
      simp only [read] at found
      cases found
    | some readTx =>
      simp only [read] at found
      unfold L1Row.read at read
      cases kind : row.rawTx.txType with
      | announcement announcement =>
        simp only [kind] at read
        obtain ⟨back, parsed, rfl⟩ := Option.map_eq_some_iff.mp read
        obtain rfl := Except.ok.inj found
        have same := Announcement.type_of_readBack parsed
        cases back with
        | issue issue =>
          refine ⟨news, .inr ?_⟩
          cases announcement with
          | issue announced => exact ⟨announced, rfl⟩
          | _ => cases same
        | _ => cases news
      | issue outputProofs announcement =>
        simp only [kind] at read
        obtain rfl := Option.some.inj read
        simp only [kind] at found
        cases status : row.status with
        | invalidIssue =>
          simp only [status] at found
          obtain rfl := Except.ok.inj found
          exact ⟨news, .inl ⟨rfl, rfl⟩⟩
        | _ =>
          simp only [status] at found
          obtain rfl := Except.ok.inj found
          simp only [isNews, Option.map_some, kind] at news
          cases news
      | transfer | sparkExit =>
        simp only [kind] at read
        obtain rfl := Option.some.inj read
        simp only [kind] at found
        obtain rfl := Except.ok.inj found
        simp only [isNews, Option.map_some, kind] at news
        cases news

theorem insert_eq_ok {now : Nat} (inserted : ledger.insert now tx = .ok ledger') :
    ∃ tables, ledger.tables.insertLrc20Transaction now tx = .ok tables ∧
      ledger' = { ledger with tables, records := ledger.records.erase tx.txid } := by
  unfold Ledger.insert at inserted
  cases written : ledger.tables.insertLrc20Transaction now tx with
  | error failure =>
    rw [written] at inserted
    cases inserted
  | ok tables =>
    rw [written] at inserted
    exact ⟨tables, rfl, (Except.ok.inj inserted).symm⟩

/-- The row is one that the step marks. -/
def Due (node : L1Node) (input : Input) (txid : Txid) : Prop :=
  ∃ bans message rest, input = .controller bans ∧ node.toController = message :: rest ∧
    ∃ tx ∈ message.marked, tx.txid = txid

/-- What is true after the full check of the step, if it makes one. -/
def AfterCheck (prims : Primitives) (node : L1Node) (input : Input) (Q : FullChecking → Prop) :
    Prop :=
  ∀ client now txs rest, input = .checker client now → node.toChecker = .fullCheck txs :: rest →
    Q (runFrom (checkNextTx prims client now) node.startChecking txs)

theorem afterCheck_of_turns {prims : Primitives} {node : L1Node} {input : Input}
    {Q : FullChecking → Prop} (start : Q node.startChecking)
    (turn : ∀ client now state tx, Q state → Q (checkNextTx prims client now state tx)) :
    node.AfterCheck prims input Q :=
  fun client now txs _ _ _ => runFrom_invariant (turn client now) start txs

/-! Rules for a property of the ledger, one for each loop that writes. -/

section Rules

variable {prims : Primitives} {I : Ledger → Prop} {ledger : Ledger} {node : L1Node} {now : Nat}

/-- The property does not read the mempool. -/
def KeptByMempool (I : Ledger → Prop) : Prop :=
  ∀ ledger tables, I ledger → ledger.tables.OnlyMempool tables → I { ledger with tables }

/-- The property does not read the mempool and the proofs. -/
def Quiet (I : Ledger → Prop) : Prop :=
  ∀ ledger tables, I ledger → ledger.tables.SameRows tables → I { ledger with tables }

theorem Quiet.mempool (quiet : Quiet I) : KeptByMempool I := by
  rintro ledger _ kept ⟨⟨mempool, rfl⟩, -⟩
  exact quiet ledger _ kept ⟨rfl, rfl, rfl, rfl, rfl⟩

/-- The property stays when this transaction is inserted. -/
def KeptByInsert (I : Ledger → Prop) (now : Nat) (tx : Lrc20Transaction) : Prop :=
  ∀ ledger ledger', I ledger → ledger.insert now tx = .ok ledger' → I ledger'

/-- The property stays when the controller stores this transaction. -/
def KeptByNews (prims : Primitives) (I : Ledger → Prop) (now : Nat) (tx : Lrc20Transaction) :
    Prop :=
  ∀ ledger ledger' existing, I ledger →
    ledger.tables.getLrc20TransactionById prims tx.txid = .ok existing →
    isNews existing tx = true → ledger.insert now tx = .ok ledger' → I ledger'

theorem KeptByInsert.news {tx : Lrc20Transaction} (insert : KeptByInsert I now tx) :
    KeptByNews prims I now tx :=
  fun ledger ledger' _ kept _ _ inserted => insert ledger ledger' kept inserted

/-- The property stays when this transaction is rejected: an issue gets a status of its own, any
other row goes. -/
structure KeptByRejecting (I : Ledger → Prop) (tx : Lrc20Transaction) : Prop where
  issue : tx.txType.isIssue → ∀ ledger, I ledger →
    I { ledger with tables := ledger.tables.setLrc20TxStatus tx.txid .invalidIssue }
  delete : ∀ ledger, I ledger → I (ledger.delete tx.txid)

def KeptByReject (I : Ledger → Prop) : Prop :=
  ∀ (ledger : Ledger) (tx : Lrc20Transaction), tx.txType.isIssue → I ledger →
    I { ledger with tables := ledger.tables.setLrc20TxStatus tx.txid .invalidIssue }

def KeptByDelete (I : Ledger → Prop) : Prop := ∀ ledger txid, I ledger → I (ledger.delete txid)

/-- The property stays in any rejection and any deletion. -/
structure Settled (I : Ledger → Prop) : Prop where
  quiet : Quiet I
  reject : KeptByReject I
  delete : KeptByDelete I

theorem Settled.rejecting (settled : Settled I) (tx : Lrc20Transaction) : KeptByRejecting I tx :=
  ⟨fun issue ledger => settled.reject ledger tx issue, fun ledger => settled.delete ledger tx.txid⟩

theorem Settled.and {I' : Ledger → Prop} (first : Settled I) (second : Settled I') :
    Settled fun ledger => I ledger ∧ I' ledger where
  quiet ledger tables kept same :=
    ⟨first.quiet ledger tables kept.1 same, second.quiet ledger tables kept.2 same⟩
  reject ledger tx issue kept :=
    ⟨first.reject ledger tx issue kept.1, second.reject ledger tx issue kept.2⟩
  delete ledger txid kept := ⟨first.delete ledger txid kept.1, second.delete ledger txid kept.2⟩

theorem store_keeps {sender : Option SocketAddr} {ledger : Ledger} {tx : Lrc20Transaction}
    (mempool : KeptByMempool I) (insert : ∀ ledger', ledger.insert now tx = .ok ledger' → I ledger')
    (start : I ledger) : I (store now sender ledger tx).1 := by
  unfold store
  cases inserted : ledger.insert now tx with
  | error failure => exact start
  | ok written =>
    have kept := insert written inserted
    dsimp only
    cases put : written.tables.putMempoolTransaction tx.txid sender with
    | error failure => exact kept
    | ok tables =>
      refine mempool written tables kept (onlyMempool_putMempoolTransaction put ?_)
      obtain ⟨_, stored, rfl⟩ := insert_eq_ok inserted
      exact (inserted_of_insertLrc20Transaction stored).isAttached_self

theorem storeNewTxs_keeps {sender : Option SocketAddr}
    {ledger : Ledger} (mempool : KeptByMempool I) (insert : ∀ tx ∈ txs, KeptByNews prims I now tx)
    (start : I ledger) : I (storeNewTxs prims now sender txs ledger).1 := by
  induction txs generalizing ledger with
  | nil => exact start
  | cons tx rest ih =>
    unfold storeNewTxs
    cases found : ledger.tables.getLrc20TransactionById prims tx.txid with
    | error failure => exact start
    | ok existing =>
      dsimp only
      split
      case isTrue news =>
        have stored := @store_keeps _ now sender ledger tx mempool
          (fun ledger' => insert tx (by simp) ledger ledger' existing start found news) start
        split
        · exact ih (fun tx mem => insert tx (by simp [mem])) stored
        · exact stored
      case isFalse => exact ih (fun tx mem => insert tx (by simp [mem])) start

theorem attachAll_keeps (attach : ∀ tx ∈ txs, ∀ ledger, I ledger → I (ledger.attach tx.txid))
    (start : I ledger) : I (attachAll txs ledger) := by
  induction txs generalizing ledger with
  | nil => exact start
  | cons tx rest ih =>
    exact ih (fun tx mem => attach tx (by simp [mem])) (attach tx (by simp) ledger start)

theorem rejectAll_keeps {entries : List (Lrc20Transaction × Option SocketAddr)}
    (rejecting : ∀ entry ∈ entries, KeptByRejecting I entry.1) (start : I ledger) :
    I (rejectAll bans entries ledger) := by
  induction entries generalizing ledger with
  | nil => exact start
  | cons entry rest ih =>
    have own := rejecting entry (by simp)
    unfold rejectAll
    split
    · exact start
    · apply ih fun entry mem => rejecting entry (by simp [mem])
      unfold L1Node.reject
      split
      · exact own.issue ‹_› ledger start
      · exact own.delete ledger start

theorem deleteAll_keeps {txids : List Txid}
    (delete : ∀ txid ∈ txids, ∀ ledger, I ledger → I (ledger.delete txid)) (start : I ledger) :
    I (txids.foldl Ledger.delete ledger) := by
  induction txids generalizing ledger with
  | nil => exact start
  | cons txid rest ih =>
    exact ih (fun other mem => delete other (by simp [mem])) (delete txid (by simp) ledger start)

theorem withTables_keeps {tables : L1Tables} (mempool : KeptByMempool I) (start : I node.ledger)
    (same : node.ledger.tables.OnlyMempool tables) : I (node.withTables tables).ledger :=
  mempool node.ledger tables start same

theorem handleControllerMessage_keeps {message : ControllerMessage} (mempool : KeptByMempool I)
    (rejecting : ∀ txids, message = .invalidTxs txids →
      ∀ entry ∈ node.ledger.tables.getMempoolByTxids prims txids, KeptByRejecting I entry.1)
    (attach : ∀ tx ∈ message.marked, ∀ ledger, I ledger → I (ledger.attach tx.txid))
    (start : I node.ledger) : I (handleControllerMessage prims bans node message).ledger := by
  cases message with
  | partiallyCheckedTxs txids =>
    exact withTables_keeps mempool start (onlyMempool_updateMempool _ _ _)
  | fullyCheckedTxs txs =>
    have updated := @withTables_keeps I node _ mempool start (onlyMempool_updateMempool
      .attaching ((txs.filter (!·.txType.isAnnouncement)).map Lrc20Transaction.txid)
      node.ledger.tables)
    unfold handleControllerMessage handleFullyCheckedTxs
    dsimp only
    split
    · exact attachAll_keeps attach updated
    · exact updated
  | invalidTxs txids =>
    exact rejectAll_keeps (rejecting txids rfl)
      (mempool _ _ start (onlyMempool_deleteMempoolTxs _ _))
  | attachedTxs txs => exact attachAll_keeps attach start
  | minedTxs txids => exact withTables_keeps mempool start (onlyMempool_markMined _ _)
  | confirmedTxs txids => exact start
  | reorganization txids =>
    unfold handleControllerMessage
    dsimp only
    split
    · exact start
    · exact withTables_keeps mempool start (onlyMempool_updateMempool _ _ _)

/-- A property of the ledger is kept by a step when it is kept by each write of the step. -/
theorem step_keeps_of_writes {input : Input} (mempool : KeptByMempool I)
    (insert : ∀ txs sender now, input = .newLrc20Txs txs sender now →
      ∀ tx ∈ txs, KeptByNews prims I now tx)
    (rejecting : ∀ bans txids rest, input = .controller bans →
      node.toController = .invalidTxs txids :: rest →
      ∀ entry ∈ node.ledger.tables.getMempoolByTxids prims txids, KeptByRejecting I entry.1)
    (attach : ∀ txid, node.Due input txid → ∀ ledger, I ledger → I (ledger.attach txid))
    (cleanup : ∀ env outdatedDuration, input = .cleanup env outdatedDuration →
      ∀ txid ∈ (node.graph.handleCleanup env outdatedDuration).2,
        ∀ ledger, I ledger → I (ledger.delete txid))
    (check : node.AfterCheck prims input (I ·.ledger)) (start : I node.ledger) :
    I (step prims node input).ledger := by
  cases input with
  | newLrc20Txs txs sender now => exact storeNewTxs_keeps mempool (insert txs sender now rfl) start
  | controller bans =>
    unfold step
    cases inbox : node.toController with
    | nil => exact start
    | cons message rest =>
      refine handleControllerMessage_keeps mempool ?_ ?_ start
      · intro txids same
        exact rejecting bans txids rest rfl (same ▸ inbox)
      · exact fun tx mem => attach tx.txid ⟨bans, message, rest, rfl, inbox, tx, mem, rfl⟩
  | checker client now =>
    unfold step
    cases inbox : node.toChecker with
    | nil => exact start
    | cons message rest =>
      cases message with
      | isolatedCheck txs =>
        unfold handleCheckerMessage checkTxsIsolated
        dsimp only
        split <;> exact start
      | fullCheck txs =>
        have checked := check client now txs rest rfl inbox
        unfold handleCheckerMessage checkTxsFull
        dsimp only
        split <;> exact checked
  | graph env =>
    unfold step
    cases node.toGraph <;> exact start
  | confirmator =>
    unfold step
    cases node.toConfirm <;> exact start
  | mined | confirmed | reorganized | unconfirmed | spark | exitsOutdated | restart => exact start
  | cleanup env outdatedDuration => exact deleteAll_keeps (cleanup env outdatedDuration rfl) start
  | exitsReady txs =>
    unfold step
    dsimp only
    split <;> exact start

/-- A settled property is kept by a step when it is kept by what the step stores, marks and
checks. -/
theorem step_keeps {input : Input} (settled : Settled I)
    (insert : ∀ txs sender now, input = .newLrc20Txs txs sender now →
      ∀ tx ∈ txs, KeptByInsert I now tx)
    (attach : ∀ txid, node.Due input txid → ∀ ledger, I ledger → I (ledger.attach txid))
    (check : node.AfterCheck prims input (I ·.ledger)) (start : I node.ledger) :
    I (step prims node input).ledger :=
  step_keeps_of_writes settled.quiet.mempool
    (fun txs sender now same tx mem => (insert txs sender now same tx mem).news)
    (fun _ _ _ _ _ entry _ => settled.rejecting entry.1) attach
    (fun _ _ _ txid _ ledger => settled.delete ledger txid) check start

end Rules

/-! What a step does to the Spark tables. -/

section Spark

variable {prims : Primitives} {node : L1Node}

theorem handleControllerMessage_frame (bans : SocketAddr → Bool) (node : L1Node)
    (message : ControllerMessage) :
    (handleControllerMessage prims bans node message).spark = node.spark ∧
      (handleControllerMessage prims bans node message).toController = node.toController ∧
      (handleControllerMessage prims bans node message).graph = node.graph := by
  cases message with
  | fullyCheckedTxs txs =>
    unfold handleControllerMessage handleFullyCheckedTxs
    dsimp only
    split <;> exact ⟨rfl, rfl, rfl⟩
  | reorganization txids =>
    unfold handleControllerMessage
    dsimp only
    split <;> exact ⟨rfl, rfl, rfl⟩
  | _ => exact ⟨rfl, rfl, rfl⟩

theorem step_fullCheck {now : Nat} (inbox : node.toChecker = .fullCheck txs :: rest) :
    let checked := runFrom (checkNextTx prims client now) node.startChecking txs
    (step prims node (.checker client now)).ledger = checked.ledger ∧
      (step prims node (.checker client now)).spark = checked.spark := by
  unfold step
  rw [inbox]
  unfold handleCheckerMessage checkTxsFull
  dsimp only
  split <;> exact ⟨rfl, rfl⟩

/-- Only the full check and the Spark side itself write to the Spark tables. -/
theorem step_keeps_spark {J : SparkTables → Prop} {input : Input}
    (check : node.AfterCheck prims input (J ·.spark))
    (other : ∀ tables, input = .spark tables → J tables) (start : J node.spark) :
    J (step prims node input).spark := by
  cases input with
  | controller bans =>
    unfold step
    cases node.toController with
    | nil => exact start
    | cons message rest =>
      dsimp only
      rw [(handleControllerMessage_frame bans _ message).1]
      exact start
  | checker client now =>
    cases inbox : node.toChecker with
    | nil =>
      unfold step
      rw [inbox]
      exact start
    | cons message rest =>
      cases message with
      | isolatedCheck txs =>
        unfold step
        rw [inbox]
        unfold handleCheckerMessage checkTxsIsolated
        dsimp only
        split <;> exact start
      | fullCheck txs =>
        rw [(step_fullCheck inbox).2]
        exact check client now txs rest rfl inbox
  | graph env =>
    unfold step
    cases node.toGraph <;> exact start
  | confirmator =>
    unfold step
    cases node.toConfirm <;> exact start
  | exitsReady txs =>
    unfold step
    dsimp only
    split <;> exact start
  | spark tables => exact other tables rfl
  | _ => exact start

end Spark

/-! What one turn of the full check writes. -/

section Checking

variable {prims : Primitives} {client : BitcoinClient} {now : Nat} {state : FullChecking}
  {tx : Lrc20Transaction} {tables : L1Tables}

/-- The ledger after a check that passes. -/
def passed (client : BitcoinClient) (state : FullChecking) (tx : Lrc20Transaction)
    (tables : L1Tables) : Ledger :=
  { state.ledger with tables }.note ⟨tx, client, state.ledger.tables, state.spark⟩

@[simp] theorem passed_tables : (passed client state tx tables).tables = tables := by
  unfold passed Ledger.note
  split <;> rfl

@[simp] theorem passed_attachments :
    (passed client state tx tables).attachments = state.ledger.attachments := by
  unfold passed Ledger.note
  split <;> rfl

/-- A turn of the full check does nothing, or leaves what the check returns. -/
theorem checkNextTx_spec :
    (checkNextTx prims client now state tx).ledger = state.ledger ∧
        (checkNextTx prims client now state tx).spark = state.spark ∨
      ∃ found, checkLrc20Transaction prims client now state.ledger.tables state.spark tx =
          .ok found ∧ (checkNextTx prims client now state tx).spark = found.2.1 ∧
        (checkNextTx prims client now state tx).ledger =
          if found.2.2 = .valid then passed client state tx found.1 else state.ledger := by
  unfold checkNextTx
  cases state.failed with
  | true => exact .inl ⟨rfl, rfl⟩
  | false =>
    cases checked : checkLrc20Transaction prims client now state.ledger.tables state.spark tx with
    | error failure => exact .inl ⟨rfl, rfl⟩
    | ok found =>
      obtain ⟨tables, spark, verdict⟩ := found
      have left := checkLrc20Transaction_eq_ok checked
      refine .inr ⟨_, rfl, ?_⟩
      cases verdict with
      | valid => exact ⟨rfl, rfl⟩
      | invalid | waiting =>
        cases left
        exact ⟨rfl, rfl⟩

theorem checkNextTx_keeps {I : Ledger → Prop} (start : I state.ledger)
    (passes : ∀ tables spark, checkLrc20Transaction prims client now state.ledger.tables state.spark
      tx = .ok (tables, spark, .valid) → I (passed client state tx tables)) :
    I (checkNextTx prims client now state tx).ledger := by
  rcases @checkNextTx_spec prims client now state tx with
    ⟨same, -⟩ | ⟨⟨tables, spark, verdict⟩, checked, -, after⟩
  · rw [same]
    exact start
  · rw [after]
    split
    · rename_i valid
      cases valid
      exact passes tables spark checked
    · exact start

theorem checkNextTx_keeps_tables {J : L1Tables → Prop}
    (proofs : ∀ proofs, J { state.ledger.tables with proofs })
    (issue : ∀ tables, tx.txType.isIssue →
      state.ledger.tables.insertLrc20Transaction now tx = .ok tables → J tables) :
    J (checkNextTx prims client now state tx).ledger.tables := by
  refine checkNextTx_keeps (I := fun ledger => J ledger.tables) (proofs _) fun tables spark checked => ?_
  rw [passed_tables]
  cases checkLrc20Transaction_eq_ok checked with
  | nothing => exact proofs _
  | freeze freeze =>
    obtain ⟨changed, same⟩ := onlyProofs_toggleProofFreeze state.ledger.tables freeze.outpoint
    rw [same]
    exact proofs changed
  | issue tables kind inserted => exact issue tables kind inserted

end Checking

/-! A property of the tables that each single write keeps. -/

section EveryWrite

variable {prims : Primitives} {J : L1Tables → Prop} {node : L1Node}

structure KeptByWrites (J : L1Tables → Prop) : Prop where
  mempool : ∀ {tables tables'}, J tables → tables.OnlyMempool tables' → J tables'
  proofs : ∀ {tables} outpoint, J tables → J (tables.toggleProofFreeze outpoint)
  insert : ∀ {tables tables' now tx}, J tables →
    tables.insertLrc20Transaction now tx = .ok tables' → J tables'
  status : ∀ {tables} txid status, J tables → J (tables.setLrc20TxStatus txid status)
  delete : ∀ {tables} txid, J tables → J (tables.deleteLrc20Transaction txid)

theorem KeptByWrites.checkNextTx (kept : KeptByWrites J) {now : Nat} {tx : Lrc20Transaction}
    (start : J state.ledger.tables) : J (checkNextTx prims client now state tx).ledger.tables := by
  refine checkNextTx_keeps (I := fun ledger => J ledger.tables) start fun tables spark checked => ?_
  rw [passed_tables]
  cases checkLrc20Transaction_eq_ok checked with
  | nothing => exact start
  | freeze freeze => exact kept.proofs freeze.outpoint start
  | issue tables kind inserted => exact kept.insert start inserted

/-- The state of the checker after some transactions of a batch. -/
def checking (prims : Primitives) (client : BitcoinClient) (now : Nat) (node : L1Node)
    (before : List Lrc20Transaction) : FullChecking :=
  runFrom (checkNextTx prims client now) node.startChecking before

theorem KeptByWrites.checking (kept : KeptByWrites J) (start : J node.ledger.tables)
    (client : BitcoinClient) (now : Nat) (before : List Lrc20Transaction) :
    J (checking prims client now node before).ledger.tables := by
  refine runFrom_invariant (I := fun state : FullChecking => J state.ledger.tables) ?_ start before
  intro state tx inv
  exact kept.checkNextTx inv

/-- A property of the tables that does not read the status of a row. -/
theorem step_keeps_tables {input : Input}
    (mempool : ∀ {tables tables'}, J tables → tables.OnlyMempool tables' → J tables')
    (status : ∀ {tables} txid status, J tables → J (tables.setLrc20TxStatus txid status))
    (delete : ∀ {tables} txid, J tables → J (tables.deleteLrc20Transaction txid))
    (insert : ∀ txs sender now, input = .newLrc20Txs txs sender now →
      ∀ tx ∈ txs, KeptByNews prims (J ·.tables) now tx)
    (check : node.AfterCheck prims input (J ·.ledger.tables)) (start : J node.ledger.tables) :
    J (step prims node input).ledger.tables := by
  refine @step_keeps_of_writes prims (J ·.tables) node input ?_ insert ?_ ?_ ?_ check start
  · exact fun ledger tables inv only => mempool inv only
  · intro _ _ _ _ _ entry _
    exact ⟨fun _ _ inv => status entry.1.txid _ inv, fun _ inv => delete entry.1.txid inv⟩
  · intro txid _ ledger inv
    exact mempool (status txid .attached inv) (onlyMempool_deleteMempoolEntry _ txid)
  · exact fun _ _ _ txid _ _ inv => delete txid inv

theorem KeptByWrites.step (kept : KeptByWrites J) (input : Input) (start : J node.ledger.tables) :
    J (step prims node input).ledger.tables := by
  refine step_keeps_tables kept.mempool kept.status kept.delete ?_
    (fun client now txs _ _ _ => kept.checking start client now txs) start
  intro _ _ now _ tx _ ledger ledger' _ inv _ _ inserted
  obtain ⟨tables, written, rfl⟩ := insert_eq_ok inserted
  exact kept.insert inv written

theorem KeptByWrites.reached (kept : KeptByWrites J) (start : J L1Tables.empty)
    (inputs : List Input) : J (runFrom (L1Node.step prims) new inputs).ledger.tables :=
  runFrom_invariant (I := fun node : L1Node => J node.ledger.tables)
    (fun _ input inv => kept.step input inv) start inputs

/-- The tables that some full check of some run is made against. -/
def CheckedAgainst (prims : Primitives) (tables : L1Tables) : Prop :=
  ∃ inputs client now before,
    tables = (checking prims client now (runFrom (L1Node.step prims) new inputs) before).ledger.tables

theorem KeptByWrites.checkedAgainst (kept : KeptByWrites J) (start : J L1Tables.empty)
    {tables : L1Tables} (reached : CheckedAgainst prims tables) : J tables := by
  obtain ⟨inputs, client, now, before, rfl⟩ := reached
  exact kept.checking (kept.reached start inputs) client now before

end EveryWrite

/-! Records of passed checks belong to rows that still hold what was checked. -/

section Records

variable {prims : Primitives} {client : BitcoinClient} {now : Nat} {state : FullChecking}
  {tx : Lrc20Transaction} {ledger : Ledger} {tables : L1Tables}

def RecordsAgree (ledger : Ledger) : Prop :=
  ∀ txid record, ledger.records.lookup txid = some record →
    record.tx.txid = txid ∧
      (ledger.tables.l1Transactions.lookup txid).map L1Row.rawTx = some record.tx

/-- The rows hold the same transactions, under whatever status. -/
theorem RecordsAgree.of_rawTx (agree : RecordsAgree ledger)
    (same : ∀ txid, (tables.l1Transactions.lookup txid).map L1Row.rawTx =
      (ledger.tables.l1Transactions.lookup txid).map L1Row.rawTx) :
    RecordsAgree { ledger with tables } := by
  intro txid record found
  rw [same]
  exact agree txid record found

theorem rawTx_setLrc20TxStatus (tables : L1Tables) (txid other : Txid) (status : L1TxStatus) :
    ((tables.setLrc20TxStatus txid status).l1Transactions.lookup other).map L1Row.rawTx =
      (tables.l1Transactions.lookup other).map L1Row.rawTx := by
  rw [lookup_setLrc20TxStatus]
  split
  · cases tables.l1Transactions.lookup other <;> rfl
  · rfl

theorem RecordsAgree.attach (agree : RecordsAgree ledger) (txid : Txid) :
    RecordsAgree (ledger.attach txid) := by
  intro other record found
  obtain ⟨own, row⟩ := agree other record found
  exact ⟨own, (rawTx_setLrc20TxStatus ledger.tables txid other .attached).trans row⟩

theorem lookup_erase_records {txid other : Txid} {record : CheckRecord}
    (found : (ledger.records.erase txid).lookup other = some record) :
    other ≠ txid ∧ ledger.records.lookup other = some record := by
  rw [lookup_erase_ite] at found
  split at found
  · cases found
  · exact ⟨‹_›, found⟩

theorem settled_recordsAgree : Settled RecordsAgree where
  quiet _ _ agree same := agree.of_rawTx fun txid => by rw [same.rows]
  reject _ _ _ agree := agree.of_rawTx fun _ => rawTx_setLrc20TxStatus _ _ _ _
  delete ledger txid agree other record found := by
    obtain ⟨different, found⟩ := lookup_erase_records found
    obtain ⟨own, row⟩ := agree other record found
    refine ⟨own, ?_⟩
    show ((ledger.tables.deleteLrc20Transaction txid).l1Transactions.lookup other).map _ = _
    rw [lookup_deleteLrc20Transaction, if_neg different]
    exact row

theorem keptByInsert_recordsAgree : KeptByInsert RecordsAgree now tx := by
  intro ledger ledger' agree inserted
  obtain ⟨tables, written, rfl⟩ := insert_eq_ok inserted
  intro other record found
  obtain ⟨different, found⟩ := lookup_erase_records found
  obtain ⟨own, row⟩ := agree other record found
  refine ⟨own, ?_⟩
  show (tables.l1Transactions.lookup other).map _ = _
  rw [(inserted_of_insertLrc20Transaction written).lookup_ne different]
  exact row

/-- After a passed check the rows of the other transactions are as before, and the record of the
checked one, if it was written, is that of the check. -/
theorem passed_spec {spark : SparkTables}
    (checked : checkLrc20Transaction prims client now state.ledger.tables state.spark tx =
      .ok (tables, spark, .valid)) :
    (∀ other, other ≠ tx.txid →
      tables.l1Transactions.lookup other = state.ledger.tables.l1Transactions.lookup other ∧
      (passed client state tx tables).records.lookup other = state.ledger.records.lookup other) ∧
    ((tables.l1Transactions.lookup tx.txid).map L1Row.rawTx = some tx ∧
        (passed client state tx tables).records.lookup tx.txid =
          some ⟨tx, client, state.ledger.tables, state.spark⟩ ∨
      state.ledger.tables.SameRows tables ∧
        (passed client state tx tables).records = state.ledger.records) := by
  have rows : ∀ other, other ≠ tx.txid →
      tables.l1Transactions.lookup other = state.ledger.tables.l1Transactions.lookup other := by
    intro other different
    rcases checkLrc20Transaction_writes checked with same | ⟨_, _, inserted⟩
    · rw [same.rows]
    · exact (inserted_of_insertLrc20Transaction inserted).lookup_ne different
  by_cases held : (tables.l1Transactions.lookup tx.txid).map L1Row.rawTx = some tx
  · have noted : (passed client state tx tables).records =
        state.ledger.records.insert tx.txid ⟨tx, client, state.ledger.tables, state.spark⟩ := by
      unfold passed Ledger.note
      rw [if_pos held]
    refine ⟨fun other different => ⟨rows other different, ?_⟩, .inl ⟨held, ?_⟩⟩
    · rw [noted, AList.lookup_insert_ne different]
    · rw [noted, AList.lookup_insert]
  · have unnoted : (passed client state tx tables).records = state.ledger.records := by
      unfold passed Ledger.note
      rw [if_neg held]
    refine ⟨fun other different => ⟨rows other different, by rw [unnoted]⟩, .inr ⟨?_, unnoted⟩⟩
    rcases checkLrc20Transaction_writes checked with same | ⟨_, _, inserted⟩
    · exact same
    · obtain ⟨timestamp, row⟩ := (inserted_of_insertLrc20Transaction inserted).lookup_self
      rw [row] at held
      exact absurd rfl held

theorem checkNextTx_recordsAgree (agree : RecordsAgree state.ledger) :
    RecordsAgree (checkNextTx prims client now state tx).ledger := by
  refine checkNextTx_keeps agree fun tables spark checked => ?_
  obtain ⟨others, own⟩ := passed_spec checked
  have rows : (passed client state tx tables).tables = tables := passed_tables
  intro txid record found
  rw [rows]
  rcases own with ⟨held, noted⟩ | ⟨same, unnoted⟩
  · by_cases self : txid = tx.txid
    · subst self
      obtain rfl := Option.some.inj (noted.symm.trans found)
      exact ⟨rfl, held⟩
    · obtain ⟨row, records⟩ := others txid self
      rw [row]
      exact agree txid record (records.symm.trans found)
  · rw [same.rows]
    exact agree txid record (unnoted ▸ found)

theorem step_recordsAgree {node : L1Node} (input : Input) (agree : RecordsAgree node.ledger) :
    RecordsAgree (step prims node input).ledger :=
  step_keeps settled_recordsAgree (fun _ _ _ _ _ _ => keptByInsert_recordsAgree)
    (fun txid _ _ kept => kept.attach txid)
    (afterCheck_of_turns agree fun _ _ _ _ kept => checkNextTx_recordsAgree kept) agree

end Records

/-! Apart from the full check, a step only drops records. -/

section Shrinking

variable {prims : Primitives} {I : Ledger → Prop}

def Shrinks (ledger ledger' : Ledger) : Prop :=
  ∀ txid record, ledger'.records.lookup txid = some record →
    ledger.records.lookup txid = some record

theorem shrinks_of_erase {txid : Txid}
    (erased : ledger'.records = ledger.records.erase txid) : Shrinks ledger ledger' := by
  intro other record found
  rw [erased] at found
  exact (lookup_erase_records found).2

theorem step_keeps_of_shrinks {node : L1Node} {input : Input}
    (shrinking : ∀ ledger ledger', Shrinks ledger ledger' → I ledger → I ledger')
    (check : node.AfterCheck prims input (I ·.ledger)) (start : I node.ledger) :
    I (step prims node input).ledger := by
  have kept : ∀ ledger ledger' : Ledger, ledger'.records = ledger.records → I ledger →
      I ledger' := by
    intro ledger ledger' same
    exact shrinking ledger ledger' fun txid record found => same ▸ found
  refine step_keeps ⟨?quiet, ?reject, ?delete⟩ ?insert ?attach check start
  case quiet => exact fun ledger tables inv _ => kept ledger _ rfl inv
  case reject => exact fun ledger tx _ inv => kept ledger _ rfl inv
  case delete => exact fun ledger txid inv => shrinking ledger _ (shrinks_of_erase rfl) inv
  case insert =>
    intro _ _ now _ tx _ ledger ledger' inv inserted
    obtain ⟨tables, -, rfl⟩ := insert_eq_ok inserted
    exact shrinking ledger _ (shrinks_of_erase rfl) inv
  case attach => exact fun txid _ ledger inv => kept ledger _ rfl inv

end Shrinking

/-! What is true of every record. -/

section RecordsAll

variable {prims : Primitives} {P : CheckRecord → Prop}

def RecordsAll (P : CheckRecord → Prop) (ledger : Ledger) : Prop :=
  ∀ txid record, ledger.records.lookup txid = some record → P record

theorem RecordsAll.shrink (all : RecordsAll P ledger)
    (shrinks : Shrinks ledger ledger') : RecordsAll P ledger' :=
  fun txid record found => all txid record (shrinks txid record found)

theorem checkNextTx_recordsAll {now : Nat} {tx : Lrc20Transaction} (all : RecordsAll P state.ledger)
    (new : ∀ tables spark, checkLrc20Transaction prims client now state.ledger.tables state.spark tx =
      .ok (tables, spark, .valid) → P ⟨tx, client, state.ledger.tables, state.spark⟩) :
    RecordsAll P (checkNextTx prims client now state tx).ledger := by
  refine checkNextTx_keeps all fun tables spark checked => ?_
  obtain ⟨others, own⟩ := passed_spec checked
  intro txid record found
  by_cases self : txid = tx.txid
  · subst self
    rcases own with ⟨-, noted⟩ | ⟨-, unnoted⟩
    · obtain rfl := Option.some.inj (noted.symm.trans found)
      exact new tables spark checked
    · exact all tx.txid record (unnoted ▸ found)
  · exact all txid record ((others txid self).2.symm.trans found)

def Passed (prims : Primitives) (record : CheckRecord) : Prop :=
  ∃ now tables spark, checkLrc20Transaction prims record.client now record.tables record.spark
    record.tx = .ok (tables, spark, .valid)

theorem step_recordsPassed {node : L1Node} (input : Input)
    (all : RecordsAll (Passed prims) node.ledger) :
    RecordsAll (Passed prims) (step prims node input).ledger := by
  refine step_keeps_of_shrinks (fun _ _ shrinks all => all.shrink shrinks)
    (afterCheck_of_turns all ?_) all
  intro client now state tx kept
  exact checkNextTx_recordsAll kept fun tables spark checked => ⟨now, tables, spark, checked⟩

end RecordsAll

/-! Rows that are marked only while the record of their check stands. -/

section Attested

variable {prims : Primitives} {P : Lrc20Transaction → Prop} {txs : List Lrc20Transaction}
  {ledger : Ledger} {now : Nat} {node : L1Node} {input : Input} {client : BitcoinClient}
  {tx : Lrc20Transaction}

/-- Every attached row of this kind has a record. -/
def Attested (P : Lrc20Transaction → Prop) (ledger : Ledger) : Prop :=
  ∀ txid row, ledger.tables.l1Transactions.lookup txid = some row → row.status = .attached →
    P row.rawTx → (ledger.records.lookup txid).isSome

/-- The rows of this kind among the listed ones have a record. -/
def Covered (P : Lrc20Transaction → Prop) (txs : List Lrc20Transaction) (ledger : Ledger) : Prop :=
  ∀ tx ∈ txs, ∀ row ∈ ledger.tables.l1Transactions.lookup tx.txid, P row.rawTx →
    (ledger.records.lookup tx.txid).isSome

/-- The controller marks a row of this kind only if it was not written since its check. -/
def MarksChecked (P : Lrc20Transaction → Prop) (node : L1Node) : Input → Prop
  | .controller _ => ∀ message ∈ node.toController.head?, Covered P message.marked node.ledger
  | _ => True

/-- Every row the controller marks meets a condition. -/
def MarksOnly (ok : L1Tables → Txid → Prop) (node : L1Node) : Input → Prop
  | .controller _ => ∀ message ∈ node.toController.head?, ∀ tx ∈ message.marked,
      ok node.ledger.tables tx.txid
  | _ => True

/-- Every transaction a full check comes to meets a condition. -/
def ChecksOnly (prims : Primitives) (ok : BitcoinClient → FullChecking → Lrc20Transaction → Prop)
    (node : L1Node) : Input → Prop
  | .checker client now =>
    match node.toChecker with
    | .fullCheck txs :: _ => AllSteps (checkNextTx prims client now) (ok client)
        node.startChecking txs
    | _ => True
  | _ => True

section Decidable

variable [DecidablePred P]

instance (txs : List Lrc20Transaction) (ledger : Ledger) : Decidable (Covered P txs ledger) :=
  inferInstanceAs (Decidable (∀ tx ∈ txs, ∀ row ∈ ledger.tables.l1Transactions.lookup tx.txid,
    P row.rawTx → (ledger.records.lookup tx.txid).isSome))

instance (node : L1Node) : (input : Input) → Decidable (node.MarksChecked P input)
  | .controller _ => inferInstanceAs
      (Decidable (∀ message ∈ node.toController.head?, Covered P message.marked node.ledger))
  | .newLrc20Txs .. | .checker .. | .graph _ | .confirmator | .mined _ | .confirmed _
  | .reorganized _ | .unconfirmed _ | .cleanup .. | .spark _ | .exitsReady _ | .exitsOutdated _
  | .restart => .isTrue trivial

instance {ok : L1Tables → Txid → Prop} [∀ tables txid, Decidable (ok tables txid)]
    (node : L1Node) : (input : Input) → Decidable (node.MarksOnly ok input)
  | .controller _ => inferInstanceAs (Decidable
      (∀ message ∈ node.toController.head?, ∀ tx ∈ message.marked, ok node.ledger.tables tx.txid))
  | .newLrc20Txs .. | .checker .. | .graph _ | .confirmator | .mined _ | .confirmed _
  | .reorganized _ | .unconfirmed _ | .cleanup .. | .spark _ | .exitsReady _ | .exitsOutdated _
  | .restart => .isTrue trivial

instance {ok : BitcoinClient → FullChecking → Lrc20Transaction → Prop}
    [∀ client state tx, Decidable (ok client state tx)] (node : L1Node) :
    (input : Input) → Decidable (node.ChecksOnly prims ok input)
  | .checker client now =>
    match inbox : node.toChecker with
    | .fullCheck txs :: _ => decidable_of_iff (AllSteps (checkNextTx prims client now)
        (ok client) node.startChecking txs) (by simp [ChecksOnly, inbox])
    | [] => .isTrue (by simp [ChecksOnly, inbox])
    | .isolatedCheck _ :: _ => .isTrue (by simp [ChecksOnly, inbox])
  | .newLrc20Txs .. | .controller _ | .graph _ | .confirmator | .mined _ | .confirmed _
  | .reorganized _ | .unconfirmed _ | .cleanup .. | .spark _ | .exitsReady _ | .exitsOutdated _
  | .restart => .isTrue trivial

end Decidable

theorem ChecksOnly.allSteps {ok : BitcoinClient → FullChecking → Lrc20Transaction → Prop}
    (only : node.ChecksOnly prims ok input)
    (same : input = .checker client now) (inbox : node.toChecker = .fullCheck txs :: rest) :
    AllSteps (checkNextTx prims client now) (ok client) node.startChecking txs := by
  subst same
  simpa only [ChecksOnly, inbox] using only

theorem ChecksOnly.afterCheck {ok : BitcoinClient → FullChecking → Lrc20Transaction → Prop}
    {Q : FullChecking → Prop} (only : node.ChecksOnly prims ok input) (start : Q node.startChecking)
    (turn : ∀ client now state tx, Q state → ok client state tx →
      Q (checkNextTx prims client now state tx)) : node.AfterCheck prims input Q :=
  fun client now _ _ same inbox => (only.allSteps same inbox).invariant (turn client now) start

theorem MarksOnly.due {ok : L1Tables → Txid → Prop} (only : node.MarksOnly ok input) (txid : Txid)
    (isDue : node.Due input txid) : ok node.ledger.tables txid := by
  obtain ⟨bans, message, rest, rfl, inbox, tx, mem, rfl⟩ := isDue
  exact only message (by simp [inbox]) tx mem

/-- Every row of this kind that is attached, or due to be, has a record. -/
def Owed (P : Lrc20Transaction → Prop) (due : Txid → Prop) (ledger : Ledger) : Prop :=
  ∀ txid row, ledger.tables.l1Transactions.lookup txid = some row →
    row.status = .attached ∨ due txid → P row.rawTx → (ledger.records.lookup txid).isSome

variable {due : Txid → Prop}

/-- A row after a change of status is the row before, under that status if it is the one. -/
theorem of_lookup_setLrc20TxStatus {tables : L1Tables} {txid other : Txid} {status : L1TxStatus}
    {row : L1Row}
    (found : (tables.setLrc20TxStatus txid status).l1Transactions.lookup other = some row) :
    ∃ before, tables.l1Transactions.lookup other = some before ∧ row.rawTx = before.rawTx ∧
      (other = txid ∧ row.status = status ∨ row.status = before.status) := by
  rw [lookup_setLrc20TxStatus] at found
  split at found
  · obtain ⟨before, held, rfl⟩ := Option.map_eq_some_iff.mp found
    exact ⟨before, held, rfl, .inl ⟨‹_›, rfl⟩⟩
  · exact ⟨row, found, rfl, .inr rfl⟩

theorem settled_owed : Settled (Owed P due) where
  quiet ledger tables owed same txid row found := by
    rw [same.rows] at found
    exact owed txid row found
  reject ledger tx _ owed txid row found marked kind := by
    obtain ⟨before, held, same, status⟩ := of_lookup_setLrc20TxStatus found
    refine owed txid before held (marked.imp_left fun marked => ?_) (same ▸ kind)
    rcases status with ⟨-, invalid⟩ | unchanged
    · cases invalid.symm.trans marked
    · exact unchanged ▸ marked
  delete ledger deleted owed txid row found marked kind := by
    have kept := (lookup_deleteLrc20Transaction ledger.tables deleted txid).symm.trans found
    split at kept
    · cases kept
    · rw [Ledger.delete, AList.lookup_erase_ne ‹_›]
      exact owed txid row kept marked kind

theorem keptByInsert_owed (other : ¬ due tx.txid) : KeptByInsert (Owed P due) now tx := by
  intro ledger ledger' owed inserted
  obtain ⟨tables, written, rfl⟩ := insert_eq_ok inserted
  have after := inserted_of_insertLrc20Transaction written
  intro txid row found marked kind
  by_cases self : txid = tx.txid
  · subst self
    obtain ⟨timestamp, fresh⟩ := after.lookup_self
    obtain rfl := Option.some.inj (fresh.symm.trans found)
    cases marked.resolve_right other
  · show ((ledger.records.erase tx.txid).lookup txid).isSome
    rw [AList.lookup_erase_ne self]
    exact owed txid row ((after.lookup_ne self).symm.trans found) marked kind

theorem Owed.attach {txid : Txid} (owed : Owed P due ledger) (isDue : due txid) :
    Owed P due (ledger.attach txid) := by
  intro other row found marked kind
  obtain ⟨before, held, same, status⟩ :=
    @of_lookup_setLrc20TxStatus ledger.tables txid other .attached row found
  refine owed other before held ?_ (same ▸ kind)
  rcases status with ⟨rfl, -⟩ | unchanged
  · exact .inr isDue
  · exact unchanged ▸ marked

theorem checkNextTx_owed (owed : Owed P due state.ledger) :
    Owed P due (checkNextTx prims client now state tx).ledger := by
  refine checkNextTx_keeps owed fun tables spark checked => ?_
  obtain ⟨others, own⟩ := passed_spec checked
  intro txid row found marked kind
  rw [passed_tables] at found
  rcases own with ⟨held, noted⟩ | ⟨same, unnoted⟩
  · by_cases self : txid = tx.txid
    · rw [self, noted]
      rfl
    · obtain ⟨unchanged, records⟩ := others txid self
      rw [records]
      exact owed txid row (unchanged.symm.trans found) marked kind
  · rw [unnoted]
    rw [same.rows] at found
    exact owed txid row found marked kind

theorem step_attested (attested : Attested P node.ledger) (checked : node.MarksChecked P input) :
    Attested P (step prims node input).ledger := by
  -- The rows a message marks have their records until the message is done with.
  have owed : Owed P (node.Due input) node.ledger := by
    rintro txid row found (marked | ⟨bans, message, rest, rfl, inbox, tx, mem, rfl⟩) kind
    · exact attested txid row found marked kind
    · exact checked message (by simp [inbox]) tx mem row found kind
  have kept : Owed P (node.Due input) (step prims node input).ledger := by
    refine step_keeps settled_owed ?_ (fun txid isDue ledger owed => owed.attach isDue)
      (afterCheck_of_turns owed fun _ _ _ _ kept => checkNextTx_owed kept) owed
    rintro txs sender now rfl tx _
    exact keptByInsert_owed fun ⟨_, _, _, other, _⟩ => nomatch other
  exact fun txid row found marked => kept txid row found (.inl marked)

end Attested

/-! Writes after which nothing is new. -/

section Fewer

variable {tables tables' : L1Tables} {txid : Txid}

/-- Rows and announcements may be gone, and no transaction is another one. -/
structure Fewer (tables tables' : L1Tables) : Prop where
  rows : ∀ txid row', tables'.l1Transactions.lookup txid = some row' →
    ∃ row, tables.l1Transactions.lookup txid = some row ∧ row'.rawTx = row.rawTx
  announcements : ∀ txid entry, tables'.announcements.lookup txid = some entry →
    tables.announcements.lookup txid = some entry
  tokenPubkeys : ∀ txid row, tables'.tokenPubkeys.lookup txid = some row →
    tables.tokenPubkeys.lookup txid = some row

/-- Moreover nothing is marked anew. -/
structure Calmer (tables tables' : L1Tables) : Prop extends Fewer tables tables' where
  attached : ∀ txid, tables'.isAttached txid = true → tables.isAttached txid = true

theorem Calmer.of_sameRows (same : tables.SameRows tables') : Calmer tables tables' where
  rows _ row' found := ⟨row', same.rows ▸ found, rfl⟩
  announcements _ _ found := same.announcements ▸ found
  tokenPubkeys _ _ found := same.tokenPubkeys ▸ found
  attached _ marked := by
    unfold isAttached at marked ⊢
    rw [same.rows] at marked
    exact marked

theorem fewer_setLrc20TxStatus (status : L1TxStatus) :
    Fewer tables (tables.setLrc20TxStatus txid status) where
  rows _ _ found := by
    obtain ⟨row, held, raw, -⟩ := of_lookup_setLrc20TxStatus found
    exact ⟨row, held, raw⟩
  announcements _ _ found := by simpa using found
  tokenPubkeys _ _ found := by simpa using found

theorem calmer_reject : Calmer tables (tables.setLrc20TxStatus txid .invalidIssue) where
  toFewer := fewer_setLrc20TxStatus .invalidIssue
  attached other marked := by
    obtain ⟨row', found, status'⟩ := isAttached_iff.mp marked
    obtain ⟨row, held, -, status⟩ := of_lookup_setLrc20TxStatus found
    rcases status with ⟨-, invalid⟩ | unchanged
    · cases invalid.symm.trans status'
    · exact isAttached_iff.mpr ⟨row, held, unchanged ▸ status'⟩

theorem calmer_delete : Calmer tables (tables.deleteLrc20Transaction txid) := by
  have rows : ∀ other row, (tables.deleteLrc20Transaction txid).l1Transactions.lookup other =
      some row → tables.l1Transactions.lookup other = some row := by
    intro other row found
    rw [lookup_deleteLrc20Transaction] at found
    split at found
    · cases found
    · exact found
  refine ⟨⟨fun other row found => ⟨row, rows other row found, rfl⟩, ?_, ?_⟩, ?_⟩
  · intro other entry found
    rw [announcement_deleteLrc20Transaction] at found
    split at found
    · cases found
    · exact found
  · intro other row found
    rw [tokenPubkey_deleteLrc20Transaction] at found
    split at found
    · cases found
    · exact found
  · intro other marked
    obtain ⟨row, found, status⟩ := isAttached_iff.mp marked
    exact isAttached_iff.mpr ⟨row, rows other row found, status⟩

theorem fewer_attach (ledger : Ledger) (txid : Txid) :
    Fewer ledger.tables (ledger.attach txid).tables := by
  have fewer := @fewer_setLrc20TxStatus ledger.tables txid .attached
  exact { fewer with }

theorem isAttached_attach {ledger : Ledger} {other : Txid}
    (marked : (ledger.attach txid).tables.isAttached other = true) :
    other = txid ∨ ledger.tables.isAttached other = true := by
  obtain ⟨row', found, status'⟩ := isAttached_iff.mp marked
  obtain ⟨row, held, -, status⟩ :=
    @of_lookup_setLrc20TxStatus ledger.tables txid other .attached row' found
  rcases status with ⟨same, -⟩ | unchanged
  · exact .inl same
  · exact .inr (isAttached_iff.mpr ⟨row, held, unchanged ▸ status'⟩)

theorem Settled.of_calmer {I : Ledger → Prop}
    (kept : ∀ {ledger ledger' : Ledger}, I ledger → Calmer ledger.tables ledger'.tables →
      Shrinks ledger ledger' → ledger'.attachments = ledger.attachments → I ledger') :
    Settled I where
  quiet _ _ inv same := kept inv (.of_sameRows same) (fun _ _ found => found) rfl
  reject _ _ _ inv := kept inv calmer_reject (fun _ _ found => found) rfl
  delete _ _ inv := kept inv calmer_delete (shrinks_of_erase rfl) rfl

end Fewer

/-! A token with a cap of ten, announced by its owner. -/

def cappedToken : TokenPubkey := .repeating 7

def ownerInput : TxIn := ⟨⟨1, 0⟩, [], [[0x30], cappedToken.serialize]⟩

def strangerInput : TxIn := ⟨⟨2, 0⟩, [], [[0x30], (PublicKey.repeating 8).serialize]⟩

def capAnnouncement : Lrc20Transaction :=
  ⟨⟨10, [ownerInput], []⟩, .announcement (.tokenPubkey ⟨cappedToken, "Ten", "TEN", 0, 10, false⟩)⟩

/-- A transaction arrives, is checked, confirmed, checked in full and marked. -/
def throughNode (tx : Lrc20Transaction) : List Input :=
  [.newLrc20Txs [tx] none 0, .checker unspentClient 0, .controller fun _ => true, .confirmator,
    .confirmed [tx.txid], .controller fun _ => true, .checker unspentClient 0,
    .controller fun _ => true]

end L1Node

end Lrc20.Node
