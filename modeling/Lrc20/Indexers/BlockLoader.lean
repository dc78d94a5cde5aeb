import Lrc20.Bitcoin
import Lrc20.Lib.Chunks

/-! The block loader, its workers and the indexer during `BitcoinBlockIndexer::init`: what each
task does next, with the messages between them. -/

namespace Lrc20.Indexers

/-- What the initial indexing reads of a `GetBlockTxResult`. -/
structure Block where
  hash : BlockHash
  height : Nat
deriving DecidableEq

inductive FetchLoadedBlockEvent where
  | loaded (block : Block)
  | failedBlock (height : Nat)
deriving DecidableEq

inductive IndexBlocksEvent where
  | loadedBlocks (blocks : List Block)
  | finishLoading
  | cancelled
deriving DecidableEq

/-- A worker waits for a height, loads the block of one, or has ended. -/
inductive Worker where
  | idle
  | loading (height : Nat)
  | ended
deriving DecidableEq

/-- Where the block loader is: in `handle_new_blocks`, in the branch taken when it sees the
cancellation, or at its end, with whether it returned `Ok`. -/
inductive Phase where
  | counting
  | sending (heights : List Nat) (chunk : Nat) (rest : List (List Nat))
  | loading (chunk : Nat) (rest : List (List Nat))
  /-- The blocks are out of `loaded_blocks` and not yet in the channel. -/
  | offering (blocks : List Block) (rest : List (List Nat))
  | finishing
  | remaining
  | flushing (blocks : List Block)
  | cancelling
  | ended (ok : Bool)
deriving DecidableEq

inductive Status where
  | running
  | ok
  | failed
deriving DecidableEq

/-- How indexing a block ends. -/
inductive Indexed where
  | done
  | subindexerFailed
  | storageFailed
deriving DecidableEq

/-- What the indexer has done with the blocks it received. -/
structure Indexer where
  /-- `indexer_last_block_height`. -/
  expected : Nat
  /-- The blocks handed to the subindexers. -/
  handed : List Block
  lastIndexedHash : Option BlockHash
  status : Status
deriving DecidableEq

structure Initialization where
  startingHeight : Nat
  chunkSize : Nat
  phase : Phase
  loadedBlocks : List Block
  receivedBlocks : Nat
  /-- Heights for the workers. -/
  queue : List Nat
  workers : List Worker
  /-- Events of the workers for the loader. -/
  fetched : List FetchLoadedBlockEvent
  cancelled : Bool
  /-- Events of the loader for the indexer. -/
  inbox : List IndexBlocksEvent
  indexer : Indexer
  /-- The block count that was read. -/
  blockCount : Option Nat
deriving DecidableEq

/-- What happens next, with the answers of the Bitcoin node and of the storage. -/
inductive Move where
  /-- The loader goes on; the answer is read when it asks for the block count. -/
  | loader (blockCount : Option Nat)
  | cancel
  /-- The loader sees the cancellation. -/
  | seeCancel
  | take (worker : Nat)
  | answer (worker : Nat) (block : Option Block)
  | stop (worker : Nat)
  | index (outcome : Block → Indexed)

def Indexer.initBlocksHandle (outcome : Block → Indexed) : List Block → Indexer → Indexer
  | [], indexer => indexer
  | block :: rest, indexer =>
    if block.height ≠ indexer.expected then { indexer with status := .failed }
    else
      let indexer := { indexer with handed := indexer.handed ++ [block] }
      match outcome block with
      | .done => initBlocksHandle outcome rest { indexer with
          lastIndexedHash := some block.hash
          expected := indexer.expected + 1 }
      | .subindexerFailed | .storageFailed => { indexer with status := .failed }

variable (state : Initialization)

namespace Initialization

/-- A chunk size of zero makes the channels panic. -/
def new (workersNumber chunkSize startingHeight : Nat) (lastIndexedHash : Option BlockHash) :
    Initialization where
  startingHeight := startingHeight
  chunkSize := chunkSize
  phase := if chunkSize = 0 then .ended false else .counting
  loadedBlocks := []
  receivedBlocks := 0
  queue := []
  workers := List.replicate workersNumber .idle
  fetched := []
  cancelled := false
  inbox := []
  indexer := ⟨startingHeight, [], lastIndexedHash, .running⟩
  blockCount := none

/-- Some worker still receives heights and sends events. -/
def hasWorkers : Bool := state.workers.any fun worker => worker ≠ .ended

/-- The indexer still receives events. -/
def isListened : Bool := state.indexer.status = .running

/-- The loop of `handle_new_blocks` at the next chunk. -/
def nextChunk : List (List Nat) → Phase
  | [] => .finishing
  | chunk :: rest => .sending chunk chunk.length rest

/-- `send_loaded_blocks` up to the channel. -/
def drain (phase : List Block → Phase) : Initialization :=
  { state with
    phase := phase (Chunks.truncateAtGap Block.height
      (Chunks.sortByKey Block.height state.loadedBlocks))
    loadedBlocks := [] }

/-- `handle_fetch_event`, or nothing if a height cannot be sent again. -/
def handleFetchEvent : FetchLoadedBlockEvent → Option Initialization
  | .loaded block => some { state with
      loadedBlocks := state.loadedBlocks ++ [block]
      receivedBlocks := state.receivedBlocks + 1 }
  | .failedBlock height =>
    if state.hasWorkers then some { state with queue := state.queue ++ [height] } else none

/-- An error of `handle_new_blocks` is ignored. -/
def endIgnored : Initialization := { state with phase := .ended true }

/-- One round of the loop in `handle_loaded_blocks`. -/
def handleLoadedBlocks (chunk : Nat) (rest : List (List Nat)) : Initialization :=
  match state.fetched with
  | [] => if state.hasWorkers then state else state.drain (.offering · rest)
  | event :: fetched =>
    match { state with fetched }.handleFetchEvent event with
    | none => { state with fetched }.endIgnored
    | some state =>
      if state.receivedBlocks = chunk then
        { state with receivedBlocks := 0 }.drain (.offering · rest)
      else state

/-- One round of the loop in `handle_remained_blocks`. -/
def handleRemainedBlocks : Initialization :=
  match state.fetched with
  | [] => if state.hasWorkers then state else state.drain .flushing
  | event :: fetched =>
    match { state with fetched }.handleFetchEvent event with
    | none => { state with phase := .ended false, fetched }
    | some state => state

/-- What the block loader does next. -/
def runLoader (blockCount : Option Nat) : Initialization :=
  match state.phase with
  | .counting =>
    match blockCount with
    | none => state.endIgnored
    | some count =>
      let heights := List.range' state.startingHeight (count + 1 - state.startingHeight)
      { state with
        phase := nextChunk (Chunks.chunksOf state.chunkSize heights.length heights)
        blockCount := some count }
  | .sending [] chunk rest => { state with phase := .loading chunk rest }
  | .sending (height :: heights) chunk rest =>
    if state.hasWorkers then
      { state with phase := .sending heights chunk rest, queue := state.queue ++ [height] }
    else state.endIgnored
  | .loading chunk rest => state.handleLoadedBlocks chunk rest
  | .offering blocks rest =>
    if state.isListened then
      { state with phase := nextChunk rest, inbox := state.inbox ++ [.loadedBlocks blocks] }
    else state.endIgnored
  | .finishing =>
    if state.isListened then
      { state with phase := .ended true, inbox := state.inbox ++ [.finishLoading] }
    else state.endIgnored
  | .remaining => state.handleRemainedBlocks
  | .flushing blocks =>
    if state.isListened then
      { state with phase := .cancelling, inbox := state.inbox ++ [.loadedBlocks blocks] }
    else { state with phase := .ended false }
  | .cancelling =>
    if state.isListened then
      { state with phase := .ended true, inbox := state.inbox ++ [.cancelled] }
    else { state with phase := .ended false }
  | .ended _ => state

/-- The other branch of the `select!` in `run`. -/
def seeCancel : Initialization :=
  match state.phase with
  | .counting | .sending .. | .loading .. | .offering .. | .finishing =>
    if state.cancelled then { state with phase := .remaining } else state
  | _ => state

def take (worker : Nat) : Initialization :=
  match state.workers[worker]?, state.queue with
  | some .idle, height :: queue =>
    { state with workers := state.workers.set worker (.loading height), queue }
  | _, _ => state

/-- What a worker sends for a height it was asked for. -/
def fetchEvent (height : Nat) : Option Block → FetchLoadedBlockEvent
  | some block => .loaded block
  | none => .failedBlock height

def answer (worker : Nat) (block : Option Block) : Initialization :=
  match state.workers[worker]? with
  | some (.loading height) =>
    { state with
      workers := state.workers.set worker .idle
      fetched := state.fetched ++ [fetchEvent height block] }
  | _ => state

def hasEnded : Bool := state.phase matches .ended _

/-- A worker ends when it sees the cancellation, or when no height can come any more. -/
def stop (worker : Nat) : Initialization :=
  match state.workers[worker]? with
  | some .idle =>
    if state.cancelled || state.hasEnded && state.queue.isEmpty then
      { state with workers := state.workers.set worker .ended }
    else state
  | _ => state

/-- The loader has returned: after an end without failure it waits for the workers. -/
def hasReturned : Bool :=
  match state.phase with
  | .ended ok => !ok || !state.hasWorkers
  | _ => false

/-- One round of the loop in `handle_initial_blocks`. -/
def index (outcome : Block → Indexed) : Initialization :=
  if state.indexer.status = .running then
    match state.inbox with
    | [] => if state.hasReturned then { state with indexer.status := .ok } else state
    | event :: inbox =>
      match event with
      | .finishLoading => { state with inbox, indexer.status := .ok }
      | .cancelled => { state with inbox, indexer.status := .failed }
      | .loadedBlocks blocks =>
        { state with inbox, indexer := state.indexer.initBlocksHandle outcome blocks }
  else state

def step : Move → Initialization
  | .loader blockCount => state.runLoader blockCount
  | .cancel => { state with cancelled := true }
  | .seeCancel => state.seeCancel
  | .take worker => state.take worker
  | .answer worker block => state.answer worker block
  | .stop worker => state.stop worker
  | .index outcome => state.index outcome

/-- Neither the loader nor the indexer has failed, so that `init` returns `Ok` unless it fails to
read what it stored. -/
def isOk : Bool :=
  state.phase = .ended true && state.indexer.status = .ok

end Initialization

end Lrc20.Indexers
