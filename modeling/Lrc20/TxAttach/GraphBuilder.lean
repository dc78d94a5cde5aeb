import Mathlib.Data.List.AList
import Lrc20.Types.Transaction

namespace Lrc20.TxAttach

/-- The maps of the graph builder: transfers that wait, the parents each of them waits
for, and the waiting children of each such parent. -/
structure GraphBuilder where
  inverseDeps : AList fun _ : Txid => List Txid
  deps : AList fun _ : Txid => List Txid
  storedTxs : AList fun _ : Txid => Lrc20Transaction × Nat

def GraphBuilder.new : GraphBuilder := ⟨∅, ∅, ∅⟩

/-- What one call meets outside the builder. Other services write to the storage while
the call runs, so each read has its own answer; a failed read ends the call. Hash sets
are walked in any order. -/
structure Surroundings where
  /-- `get_lrc20_transaction_by_id(..)?.is_some()` for the `n`-th read of the call. -/
  isStored : Nat → Txid → Except Unit Bool
  order : List Txid → List Txid
  order_perm : ∀ txids, (order txids).Perm txids
  now : Nat

/-- The local variables of `attach_txs`. The source keeps the txids of what it attaches;
the model keeps the transactions, whose txids it reports. -/
structure Attaching where
  graph : GraphBuilder
  queuedTxs : List Txid
  attachedTxs : List Lrc20Transaction
  reads : Nat
  /-- A storage read failed and `?` has left the call. -/
  failed : Bool

namespace GraphBuilder

/-- The parents a transaction still waits for. -/
def waitsFor (graph : GraphBuilder) (txid : Txid) : List Txid :=
  (graph.deps.lookup txid).getD []

/-- The children that wait for a transaction. -/
def children (graph : GraphBuilder) (txid : Txid) : List Txid :=
  (graph.inverseDeps.lookup txid).getD []

def addDep (graph : GraphBuilder) (child parent : Txid) : GraphBuilder :=
  { graph with
    inverseDeps := graph.inverseDeps.insert parent ((graph.children parent).insert child)
    deps := graph.deps.insert child ((graph.waitsFor child).insert parent) }

end GraphBuilder

namespace Attaching

variable (env : Surroundings) (state : Attaching)

def attachedIds : List Txid :=
  state.attachedTxs.map Lrc20Transaction.txid

/-- Attached in this call, or found in the storage. -/
def isAttached (txid : Txid) : Attaching × Bool :=
  if txid ∈ state.attachedIds then (state, true)
  else match env.isStored state.reads txid with
    | .error _ => ({ state with failed := true }, false)
    | .ok stored => ({ state with reads := state.reads + 1 }, stored)

section

variable (tx : Lrc20Transaction)

/-- Announces a transaction and queues the transfers that wait for it. -/
def attach : Attaching :=
  { state with
    attachedTxs := state.attachedTxs ++ [tx]
    queuedTxs := state.queuedTxs ∪ state.graph.children tx.txid
    graph := { state.graph with inverseDeps := state.graph.inverseDeps.erase tx.txid } }

/-- One round of the loop of `handle_transfer` over the parents. -/
def linkParent (child : Txid) (state : Attaching) (parent : Txid) : Attaching :=
  if state.failed then state
  else
    let (state, attached) := state.isAttached env parent
    if state.failed ∨ attached then state
    else { state with graph := state.graph.addDep child parent }

/-- Attaches a transfer with no parent to wait for, stores any other. -/
def settle : Attaching :=
  if state.failed then state
  else if state.graph.waitsFor tx.txid = [] then
    { state with graph := { state.graph with deps := state.graph.deps.erase tx.txid } }.attach tx
  else
    { state with graph := { state.graph with
        storedTxs := state.graph.storedTxs.insert tx.txid (tx, env.now) } }

def handleTransfer : Attaching :=
  (tx.parents.foldl (linkParent env tx.txid) state).settle env tx

/-- One transaction of the batch. An exit does not wake the transfers waiting for it. -/
def handleTx : Attaching :=
  if state.failed then state
  else match tx.txType with
    | .issue _ _ => state.attach tx
    | .transfer _ _ => state.handleTransfer env tx
    | .announcement _ => state
    | .sparkExit _ => { state with attachedTxs := state.attachedTxs ++ [tx] }

end

/-- The loop of `remove_attached_parents`: the waited-for parents found attached. -/
def collectAttached (state : Attaching) : List Txid → Attaching × List Txid
  | [] => (state, [])
  | parent :: rest =>
    let (state, attached) := state.isAttached env parent
    if state.failed then (state, [])
    else
      let (state, found) := collectAttached state rest
      (state, if attached then parent :: found else found)

/-- Drops the attached parents of a waiting transaction; `true` when none is left. -/
def removeAttachedParents (txid : Txid) : Attaching × Bool :=
  match state.graph.deps.lookup txid with
  | none => (state, true)
  | some waiting =>
    let (state, found) := state.collectAttached env (env.order waiting)
    if state.failed then (state, false)
    else
      let left := waiting.filter (· ∉ found)
      ({ state with graph := { state.graph with deps := state.graph.deps.insert txid left } },
        left.isEmpty)

/-- One transaction of the queue: attached when nothing is left to wait for. -/
def wake (txid : Txid) : Attaching :=
  if state.failed then state
  else
    let (state, ready) := state.removeAttachedParents env txid
    if state.failed ∨ ¬ ready then state
    else match state.graph.storedTxs.lookup txid with
      | none => state
      | some (tx, _) =>
        { state with
          attachedTxs := state.attachedTxs ++ [tx]
          queuedTxs := state.queuedTxs ∪ state.graph.children txid
          graph := {
            inverseDeps := state.graph.inverseDeps.erase txid
            deps := state.graph.deps.erase txid
            storedTxs := state.graph.storedTxs.erase txid } }

/-- One turn of the `while` loop: the queue is emptied and its transactions woken. -/
def wakeQueued : Attaching :=
  (env.order state.queuedTxs).foldl (wake env) { state with queuedTxs := [] }

/-- The `while` loop. Every turn but the last takes a transaction out of `storedTxs`. -/
def drain : Nat → Attaching → Attaching
  | 0, state => state
  | fuel + 1, state =>
    if state.failed ∨ state.queuedTxs = [] then state
    else drain fuel (state.wakeQueued env)

end Attaching

variable (env : Surroundings)

namespace GraphBuilder

/-- `attach_txs`: the builder afterwards, and the transactions of the `AttachedTxs` event
it sends (no event when there are none). -/
def attachTxs (graph : GraphBuilder) (checkedTxs : List Lrc20Transaction) :
    GraphBuilder × List Lrc20Transaction :=
  let start : Attaching := ⟨graph, [], [], 0, false⟩
  let handled := checkedTxs.foldl (Attaching.handleTx env) start
  let state := handled.drain env (handled.graph.storedTxs.entries.length + 1)
  (state.graph, if state.failed then [] else state.attachedTxs)

/-- The loop body of `remove_tx_from_deps` for one parent of the removed transaction. -/
def forgetChild (txid : Txid) (state : GraphBuilder × List Txid) (dep : Txid) :
    GraphBuilder × List Txid :=
  match state.1.inverseDeps.lookup dep with
  | none => state
  | some children =>
    let left := children.erase txid
    ({ state.1 with inverseDeps := if left = [] then state.1.inverseDeps.erase dep
        else state.1.inverseDeps.insert dep left },
      state.2 ++ [dep])

/-- `remove_tx_from_deps`, with the txids whose rows it deletes: the transaction and the
parents it waited for. -/
def removeTxFromDeps (graph : GraphBuilder) (txid : Txid) : GraphBuilder × List Txid :=
  (env.order (graph.waitsFor txid)).foldl (forgetChild txid)
    ({ graph with deps := graph.deps.erase txid }, [txid])

/-- The worklist of `remove_outdated_tx`, with the rows deleted on the way. -/
def removeOutdated (env : Surroundings) :
    Nat → GraphBuilder → List Txid → List Txid → List Txid → GraphBuilder × List Txid
  | 0, graph, _, _, rows => (graph, rows)
  | _ + 1, graph, [], _, rows => (graph, rows)
  | fuel + 1, graph, txid :: rest, removed, rows =>
    let cut := removeTxFromDeps env
      { graph with storedTxs := graph.storedTxs.erase txid } txid
    let fresh := (env.order (cut.1.children txid)).filter (· ∉ removed)
    removeOutdated env fuel { cut.1 with inverseDeps := cut.1.inverseDeps.erase txid }
      (rest ++ fresh) (removed ++ fresh) (rows ++ cut.2)

/-- The number of links held, which bounds the transactions one removal can reach. -/
def linkCount (graph : GraphBuilder) : Nat :=
  (graph.inverseDeps.entries.map fun entry => entry.2.length).sum

def removeOutdatedTx (state : GraphBuilder × List Txid) (txid : Txid) : GraphBuilder × List Txid :=
  removeOutdated env (state.1.linkCount + 1) state.1 [txid] [txid] state.2

/-- `handle_cleanup`, with the rows it deletes. A creation time in the future ends it. -/
def handleCleanup (outdatedDuration : Nat) (graph : GraphBuilder) : GraphBuilder × List Txid :=
  let created := graph.storedTxs.entries.map fun entry => (entry.1, entry.2.2)
  if created.any fun entry => env.now < entry.2 then (graph, [])
  else
    let outdated := created.filter fun entry => outdatedDuration < env.now - entry.2
    (env.order (outdated.map Prod.fst)).foldl (removeOutdatedTx env) (graph, [])

end GraphBuilder

end Lrc20.TxAttach
