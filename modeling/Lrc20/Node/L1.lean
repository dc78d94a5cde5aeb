import Lrc20.Lib.Runs
import Lrc20.TxAttach.GraphBuilder
import Lrc20.TxCheck.Full

/-! The layer-one side of the node: the controller, the checker, the confirmator and the
graph builder, each with an inbox it takes messages from in order. A handler is one step.
A handler that fails keeps what it has written; the source then stops the node, and a run
may end there, go on, or start the node anew. -/

open Lrc20.Storage Lrc20.TxAttach Lrc20.TxCheck Runs

namespace Lrc20.Node

inductive ControllerMessage where
  | partiallyCheckedTxs (txids : List Txid)
  | fullyCheckedTxs (txs : List Lrc20Transaction)
  | invalidTxs (txids : List Txid)
  /-- The source sends the txids. -/
  | attachedTxs (txs : List Lrc20Transaction)
  | minedTxs (txids : List Txid)
  | confirmedTxs (txids : List Txid)
  | reorganization (txids : List Txid)
deriving DecidableEq

inductive TxCheckerMessage where
  | isolatedCheck (txs : List Lrc20Transaction)
  | fullCheck (txs : List Lrc20Transaction)
deriving DecidableEq

structure L1Node where
  ledger : Ledger
  /-- The tables of the Spark side, which the check of exits reads and writes. -/
  spark : SparkTables
  graph : GraphBuilder
  toController : List ControllerMessage
  toChecker : List TxCheckerMessage
  toGraph : List (List Lrc20Transaction)
  toConfirm : List (List Txid)
  /-- The queue of the confirmator. -/
  confirming : List Txid
  /-- The exits that wait for a Spark transaction. -/
  waitingExits : List Lrc20Transaction

namespace L1Node

def new : L1Node :=
  ⟨Ledger.empty, SparkTables.empty, GraphBuilder.new, [], [], [], [], [], []⟩

variable (prims : Primitives)

/-! ### Controller -/

/-- What the controller stores: an unknown transaction, or an issue of which it knows the
announcement only. -/
def isNews (existing : Option Lrc20Transaction) (tx : Lrc20Transaction) : Bool :=
  match existing.map Lrc20Transaction.txType with
  | none => true
  | some (.announcement (.issue _)) => tx.txType.isIssue
  | some _ => false

/-- Writes a transaction and its mempool entry; `false` when the database fails. -/
def store (now : Nat) (sender : Option SocketAddr) (ledger : Ledger) (tx : Lrc20Transaction) :
    Ledger × Bool :=
  match ledger.insert now tx with
  | .error _ => (ledger, false)
  | .ok written =>
    match written.tables.putMempoolTransaction tx.txid sender with
    | .error _ => (written, false)
    | .ok tables => ({ written with tables }, true)

/-- The loop of `handle_new_lrc20_txs`: the transactions stored, and whether it came to its
end. -/
def storeNewTxs (now : Nat) (sender : Option SocketAddr) :
    List Lrc20Transaction → Ledger → Ledger × List Lrc20Transaction × Bool
  | [], ledger => (ledger, [], true)
  | tx :: rest, ledger =>
    match ledger.tables.getLrc20TransactionById prims tx.txid with
    | .error _ => (ledger, [], false)
    | .ok existing =>
      if isNews existing tx then
        let stored := store now sender ledger tx
        if stored.2 then
          let others := storeNewTxs now sender rest stored.1
          (others.1, tx :: others.2.1, others.2.2)
        else (stored.1, [], false)
      else storeNewTxs now sender rest ledger

def handleNewLrc20Txs (now : Nat) (sender : Option SocketAddr) (txs : List Lrc20Transaction)
    (node : L1Node) : L1Node :=
  let (ledger, newTxs, completed) := storeNewTxs prims now sender txs node.ledger
  { node with
    ledger
    toChecker := if completed ∧ newTxs ≠ [] then node.toChecker ++ [.isolatedCheck newTxs]
      else node.toChecker }

def withTables (node : L1Node) (tables : L1Tables) : L1Node :=
  { node with ledger := { node.ledger with tables } }

/-- A loop of `update_mempool_tx_status` that ends at the first missing entry. -/
def updateMempool (status : MempoolStatus) : List Txid → L1Tables → L1Tables × Bool
  | [], tables => (tables, true)
  | txid :: rest, tables =>
    match tables.updateMempoolTxStatus txid status with
    | .error _ => (tables, false)
    | .ok tables => updateMempool status rest tables

/-- `handle_partially_checked_txs`; `handle_reorganization` does the same. -/
def sendToConfirm (txids : List Txid) (node : L1Node) : L1Node :=
  let (tables, completed) := updateMempool .waitingMined txids node.ledger.tables
  { node.withTables tables with
    toConfirm := if completed then node.toConfirm ++ [txids] else node.toConfirm }

/-- The loop of `handle_mined_txs`. The transaction has to be readable. -/
def markMined : List Txid → L1Tables → L1Tables
  | [], tables => tables
  | txid :: rest, tables =>
    if ((tables.l1Transactions.lookup txid).bind (L1Row.read prims)).isNone then tables
    else match tables.updateMempoolTxStatus txid .mined with
      | .error _ => tables
      | .ok tables => markMined rest tables

/-- `handle_confirmed_txs`: the announcements come first. -/
def handleConfirmedTxs (txids : List Txid) (node : L1Node) : L1Node :=
  let txs := (node.ledger.tables.getMempoolByTxids prims txids).map Prod.fst
  let sorted := txs.filter (·.txType.isAnnouncement) ++ txs.filter (!·.txType.isAnnouncement)
  { node with toChecker := node.toChecker ++ [.fullCheck sorted] }

def attachAll (txs : List Lrc20Transaction) (ledger : Ledger) : Ledger :=
  (txs.map Lrc20Transaction.txid).foldl Ledger.attach ledger

/-- `handle_fully_checked_txs`. Announcements are done with; the graph builder attaches the
others. -/
def handleFullyCheckedTxs (txs : List Lrc20Transaction) (node : L1Node) : L1Node :=
  let others := txs.filter (!·.txType.isAnnouncement)
  let (tables, completed) := updateMempool .attaching (others.map Lrc20Transaction.txid)
    node.ledger.tables
  let updated := node.withTables tables
  if completed then
    { updated with
      ledger := attachAll (txs.filter (·.txType.isAnnouncement)) updated.ledger
      toGraph := if others = [] then node.toGraph else node.toGraph ++ [others] }
  else updated

/-- An issue that is rejected stays, under a status of its own. -/
def reject (ledger : Ledger) (tx : Lrc20Transaction) : Ledger :=
  if tx.txType.isIssue then
    { ledger with tables := ledger.tables.setLrc20TxStatus tx.txid .invalidIssue }
  else ledger.delete tx.txid

/-- The loop of `handle_invalid_txs`: it ends when a peer can not be banned. -/
def rejectAll (bans : SocketAddr → Bool) :
    List (Lrc20Transaction × Option SocketAddr) → Ledger → Ledger
  | [], ledger => ledger
  | (tx, sender) :: rest, ledger =>
    if sender.any fun peer => !bans peer then ledger
    else rejectAll bans rest (reject ledger tx)

def handleInvalidTxs (bans : SocketAddr → Bool) (txids : List Txid) (ledger : Ledger) : Ledger :=
  rejectAll bans (ledger.tables.getMempoolByTxids prims txids)
    { ledger with tables := ledger.tables.deleteMempoolTxs txids }

def handleControllerMessage (bans : SocketAddr → Bool) (node : L1Node) : ControllerMessage → L1Node
  | .partiallyCheckedTxs txids => node.sendToConfirm txids
  | .fullyCheckedTxs txs => node.handleFullyCheckedTxs txs
  | .invalidTxs txids => { node with ledger := handleInvalidTxs prims bans txids node.ledger }
  | .attachedTxs txs => { node with ledger := attachAll txs node.ledger }
  | .minedTxs txids => node.withTables (markMined prims txids node.ledger.tables)
  | .confirmedTxs txids => handleConfirmedTxs prims txids node
  | .reorganization txids => if txids = [] then node else node.sendToConfirm txids

/-! ### Checker -/

/-- A check that panics takes the checker down before anything is sent. -/
def panics (tx : Lrc20Transaction) : Bool :=
  match checkTransaction prims tx with
  | .error (.invalidProof _ _ .panicked) => true
  | _ => false

def passesIsolated (tx : Lrc20Transaction) : Bool := (checkTransaction prims tx).toOption.isSome

def tellInvalid (txs : List Lrc20Transaction) : List ControllerMessage :=
  if txs = [] then [] else [.invalidTxs (txs.map Lrc20Transaction.txid)]

def checkTxsIsolated (txs : List Lrc20Transaction) (node : L1Node) : L1Node :=
  if txs.any (panics prims) then node
  else
    let checked := (txs.filter (passesIsolated prims)).map Lrc20Transaction.txid
    let tellChecked := if checked = [] then [] else [ControllerMessage.partiallyCheckedTxs checked]
    { node with toController := node.toController ++ tellChecked ++
        tellInvalid (txs.filter (!passesIsolated prims ·)) }

def startChecking (node : L1Node) : FullChecking :=
  ⟨node.ledger, node.spark, ∅, [], [], false⟩

def checkTxsFull (client : BitcoinClient) (now : Nat) (txs : List Lrc20Transaction)
    (node : L1Node) : L1Node :=
  let state := txs.foldl (FullChecking.checkNextTx prims client now) node.startChecking
  let written := { node with
    ledger := state.ledger
    spark := state.spark
    waitingExits := node.waitingExits ++ state.waitingExits }
  if state.failed then written
  else
    let tellChecked := if state.checkedValues = [] then []
      else [ControllerMessage.fullyCheckedTxs state.checkedValues]
    { written with
      toController := node.toController ++ tellChecked ++ tellInvalid state.invalidTxs }

def handleCheckerMessage (client : BitcoinClient) (now : Nat) (node : L1Node) :
    TxCheckerMessage → L1Node
  | .isolatedCheck txs => checkTxsIsolated prims txs node
  | .fullCheck txs => checkTxsFull prims client now txs node

/-! ### Graph builder and confirmator -/

def attachBatch (env : Surroundings) (txs : List Lrc20Transaction) (node : L1Node) : L1Node :=
  let (graph, attachedTxs) := node.graph.attachTxs env txs
  { node with
    graph
    toController := if attachedTxs = [] then node.toController
      else node.toController ++ [.attachedTxs attachedTxs] }

def cleanupGraph (env : Surroundings) (outdatedDuration : Nat) (node : L1Node) : L1Node :=
  let (graph, rows) := node.graph.handleCleanup env outdatedDuration
  { node with graph, ledger := rows.foldl Ledger.delete node.ledger }

/-- An event of the confirmator about transactions of its queue. -/
def tell (event : List Txid → ControllerMessage) (txids : List Txid) (node : L1Node) : L1Node :=
  { node with toController := node.toController ++ [event (txids.filter (· ∈ node.confirming))] }

def stopConfirming (txids : List Txid) (node : L1Node) : L1Node :=
  { node with confirming := node.confirming.filter (· ∉ txids) }

/-! ### Runs -/

/-- The transactions of the mempool entries with one of these statuses. -/
def mempoolTxs (statuses : List MempoolStatus) (tables : L1Tables) : List Lrc20Transaction :=
  tables.mempool.entries.filterMap fun entry =>
    if entry.2.status ∈ statuses then
      (tables.l1Transactions.lookup entry.1).bind (L1Row.read prims)
    else none

/-- A start of the node: what was on its way is lost, and `handle_mempool_txs` picks up what
the mempool holds. -/
def restart (node : L1Node) : L1Node :=
  let forCheck := mempoolTxs prims [.initialized, .pending] node.ledger.tables
  let forAttach := mempoolTxs prims [.attaching] node.ledger.tables
  let forConfirm := (mempoolTxs prims [.waitingMined, .mined] node.ledger.tables).map
    Lrc20Transaction.txid
  { node with
    graph := GraphBuilder.new
    toController := []
    toChecker := if forCheck = [] then [] else [.isolatedCheck forCheck]
    toGraph := if forAttach = [] then [] else [forAttach]
    toConfirm := if forConfirm = [] then [] else [forConfirm]
    confirming := []
    waitingExits := [] }

inductive Input where
  /-- Transactions from a peer, from the RPC or from the indexer. -/
  | newLrc20Txs (txs : List Lrc20Transaction) (sender : Option SocketAddr) (now : Nat)
  /-- The controller takes its next message. `bans` says which peers can be banned. -/
  | controller (bans : SocketAddr → Bool)
  | checker (client : BitcoinClient) (now : Nat)
  /-- The graph builder takes its next batch. Others write to the storage while it reads. -/
  | graph (env : Surroundings)
  | confirmator
  | mined (txids : List Txid)
  | confirmed (txids : List Txid)
  | reorganized (txids : List Txid)
  /-- The confirmator gives up on transactions. -/
  | unconfirmed (txids : List Txid)
  | cleanup (env : Surroundings) (outdatedDuration : Nat)
  /-- The Spark side has changed its tables. -/
  | spark (tables : SparkTables)
  /-- The Spark transactions these exits wait for are there. -/
  | exitsReady (txs : List Lrc20Transaction)
  | exitsOutdated (txs : List Lrc20Transaction)
  | restart

def step (node : L1Node) : Input → L1Node
  | .newLrc20Txs txs sender now => handleNewLrc20Txs prims now sender txs node
  | .controller bans =>
    match node.toController with
    | [] => node
    | message :: rest =>
      handleControllerMessage prims bans { node with toController := rest } message
  | .checker client now =>
    match node.toChecker with
    | [] => node
    | message :: rest =>
      handleCheckerMessage prims client now { node with toChecker := rest } message
  | .graph env =>
    match node.toGraph with
    | [] => node
    | batch :: rest => attachBatch env batch { node with toGraph := rest }
  | .confirmator =>
    match node.toConfirm with
    | [] => node
    | txids :: rest =>
      { node with toConfirm := rest, confirming := node.confirming ∪ txids }
  | .mined txids => node.tell .minedTxs txids
  | .confirmed txids => (node.tell .confirmedTxs txids).stopConfirming txids
  | .reorganized txids => (node.tell .reorganization txids).stopConfirming txids
  | .unconfirmed txids => node.stopConfirming txids
  | .cleanup env outdatedDuration => cleanupGraph env outdatedDuration node
  | .spark tables => { node with spark := tables }
  | .exitsReady txs =>
    let ready := node.waitingExits.filter (· ∈ txs)
    if ready = [] then node
    else { node with
      waitingExits := node.waitingExits.filter (· ∉ txs)
      toChecker := node.toChecker ++ [.fullCheck ready] }
  | .exitsOutdated txs =>
    { node with
      waitingExits := node.waitingExits.filter (· ∉ txs)
      toController := node.toController ++ tellInvalid (node.waitingExits.filter (· ∈ txs)) }
  | .restart => restart prims node

end L1Node

end Lrc20.Node
