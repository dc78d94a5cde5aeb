import Mathlib.Data.List.AList
import Lrc20.Bitcoin

namespace Lrc20.TxConfirm

/-- The source's `usize`. -/
abbrev Usize := Fin (2 ^ 64)

/-- What the confirmator and the indexer read of a `GetBlockTxResult`. -/
structure Block where
  hash : BlockHash
  previousblockhash : Option BlockHash
  height : Usize
  txs : List Txid
deriving DecidableEq

structure BlockInfo where
  hash : BlockHash
  txs : List Txid
deriving DecidableEq

def Block.info (block : Block) : BlockInfo := ⟨block.hash, block.txs⟩

/-- The events the confirmator sends to the controller. -/
inductive ControllerMessage where
  | minedTxs (txids : List Txid)
  | confirmedTxs (txids : List Txid)
  | reorganization (txs : List Txid) (newIndexingHeight : Usize)
deriving DecidableEq

/-- Why handling an event fails, which cancels the node. -/
inductive Failure where
  | forkTooBig
  | previousBlockHashMissing
  | bitcoinClient
deriving DecidableEq

/-- The answer of `get_raw_transaction_info`: the confirmations of a transaction. -/
inductive RawTransactionInfo where
  | notFound
  | failed
  | found (confirmations : Option Nat)

structure Confirmator where
  queue : AList fun _ : Txid => Nat
  maxConfirmationTime : Nat
  confirmationsNumber : UInt8
  latestBlocks : List BlockInfo

/-- The confirmator after an event, what it sent, and whether it failed. -/
structure Handled where
  confirmator : Confirmator
  sent : List ControllerMessage
  result : Except Failure Unit

variable (confirmator : Confirmator)

namespace Confirmator

def extractWaitingTxsFromBlock (block : BlockInfo) : List Txid :=
  block.txs.filter fun txid => (confirmator.queue.lookup txid).isSome

def dropFromQueue (txids : List Txid) : Confirmator :=
  { confirmator with queue := txids.foldl (fun queue txid => queue.erase txid) confirmator.queue }

def handleMinedTxs (txids : List Txid) : List ControllerMessage :=
  if txids = [] then [] else [.minedTxs txids]

/-- The loop of `handle_reorg`. The blocks are listed from the back, and those not yet popped
are what it leaves. -/
def reorgLoop (client : BlockHash → Except Unit Block) (confirmator : Confirmator) :
    List BlockInfo → Option BlockHash → Usize → List Txid →
      List BlockInfo × Except Failure (List Txid × Usize)
  | [], _, _, _ => ([], .error .forkTooBig)
  | _ :: rest, none, _, _ => (rest, .error .previousBlockHashMissing)
  | last :: rest, some current, height, reorged =>
    if last.hash = current then (last :: rest, .ok (reorged, height - 1))
    else match client current with
      | .error _ => (rest, .error .bitcoinClient)
      | .ok prevBlock =>
        reorgLoop client confirmator rest prevBlock.previousblockhash (height - 1)
          (reorged ++ confirmator.extractWaitingTxsFromBlock last)

def handleReorg (client : BlockHash → Except Unit Block) (confirmator : Confirmator)
    (newBlock : Block) : Handled :=
  match reorgLoop client confirmator confirmator.latestBlocks.reverse newBlock.previousblockhash
      newBlock.height [] with
  | (left, .error failure) =>
    ⟨{ confirmator with latestBlocks := left.reverse }, [], .error failure⟩
  | (left, .ok (reorgedTxs, newIndexingHeight)) =>
    ⟨{ confirmator with latestBlocks := left.reverse }.dropFromQueue reorgedTxs,
      [.reorganization reorgedTxs newIndexingHeight], .ok ()⟩

/-- What `handle_new_block` does with a block that follows the last one. -/
def acceptBlock (block : BlockInfo) : Handled :=
  let latestBlocks := confirmator.latestBlocks ++ [block]
  let sent := handleMinedTxs (confirmator.extractWaitingTxsFromBlock block)
  match latestBlocks with
  | [] => ⟨{ confirmator with latestBlocks }, sent, .ok ()⟩
  | confirmed :: rest =>
    if latestBlocks.length = confirmator.confirmationsNumber.toNat then
      let lrc20Txs := confirmator.extractWaitingTxsFromBlock confirmed
      let confirmator := { confirmator with latestBlocks := rest }
      if lrc20Txs = [] then ⟨confirmator, sent, .ok ()⟩
      else ⟨confirmator.dropFromQueue lrc20Txs, sent ++ [.confirmedTxs lrc20Txs], .ok ()⟩
    else ⟨{ confirmator with latestBlocks }, sent, .ok ()⟩

def handleNewBlock (client : BlockHash → Except Unit Block) (confirmator : Confirmator)
    (block : Block) : Handled :=
  match block.previousblockhash, confirmator.latestBlocks.getLast? with
  | some newBlockPrevHash, some lastIndexedBlock =>
    if lastIndexedBlock.hash ≠ newBlockPrevHash then confirmator.handleReorg client block
    else confirmator.acceptBlock block.info
  | _, _ => confirmator.acceptBlock block.info

def handleTxToConfirm (now : Nat) (txid : Txid) (answer : RawTransactionInfo) : Handled :=
  let queue := if (confirmator.queue.lookup txid).isSome then confirmator.queue
    else confirmator.queue.insert txid now
  let confirmator := { confirmator with queue }
  match answer with
  | .notFound => ⟨confirmator, [], .ok ()⟩
  | .failed => ⟨confirmator, [], .error .bitcoinClient⟩
  | .found none => ⟨confirmator, [], .ok ()⟩
  | .found (some confirmations) =>
    if confirmator.confirmationsNumber.toNat ≤ confirmations then
      ⟨confirmator.dropFromQueue [txid], [.minedTxs [txid], .confirmedTxs [txid]], .ok ()⟩
    else ⟨confirmator, [.minedTxs [txid]], .ok ()⟩

/-- `clean_up_waiting_txs`, or nothing where `elapsed().unwrap()` panics on a time to come. -/
def cleanUpWaitingTxs (now : Nat) : Option Confirmator :=
  if confirmator.queue.entries.any fun entry => now < entry.2 then none
  else some <| confirmator.dropFromQueue <|
    (confirmator.queue.entries.filter fun entry =>
      confirmator.maxConfirmationTime < now - entry.2).map Sigma.fst

end Confirmator

end Lrc20.TxConfirm
