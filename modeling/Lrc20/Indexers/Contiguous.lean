import Lrc20.Indexers.BlockLoader
import Lrc20.Lib.Runs

/-! The heights that the initial indexing hands to the subindexers. -/

open Runs Chunks

namespace Lrc20.Indexers

/-! ### The indexer -/

namespace Indexer

/-- The heights handed over are consecutive, and the next one is expected. -/
structure Consecutive (start : Nat) (indexer : Indexer) : Prop where
  heights : indexer.handed.map Block.height = List.range' start indexer.handed.length
  expected : indexer.status = .running → indexer.expected = start + indexer.handed.length

/-- The last hash stored is that of the last block handed over. -/
def Stored (initial : Option BlockHash) (indexer : Indexer) : Prop :=
  indexer.lastIndexedHash = (indexer.handed.getLast?.map Block.hash).or initial

variable {start : Nat} {outcome : Block → Indexed}

theorem Consecutive.initBlocksHandle (blocks : List Block) : ∀ {indexer : Indexer},
    indexer.Consecutive start → indexer.status = .running →
      (indexer.initBlocksHandle outcome blocks).Consecutive start := by
  induction blocks with
  | nil => exact fun consecutive _ => consecutive
  | cons block rest ih =>
    intro indexer consecutive running
    unfold Indexer.initBlocksHandle
    split
    · exact ⟨consecutive.heights, nofun⟩
    · rename_i same
      have next : block.height = start + indexer.handed.length :=
        (not_not.mp same).trans (consecutive.expected running)
      have grown : (indexer.handed ++ [block]).map Block.height =
          List.range' start (indexer.handed ++ [block]).length := by
        rw [List.map_append, consecutive.heights, List.length_append, List.length_singleton,
          List.range'_1_concat, ← next]
        rfl
      have length : (indexer.handed ++ [block]).length = indexer.handed.length + 1 := by simp
      cases outcome block with
      | done =>
        refine ih ⟨grown, ?_⟩ running
        intro _
        show indexer.expected + 1 = start + (indexer.handed ++ [block]).length
        have := consecutive.expected running
        omega
      | subindexerFailed | storageFailed => exact ⟨grown, nofun⟩

theorem Stored.initBlocksHandle {initial : Option BlockHash} (done : ∀ block, outcome block = .done)
    (blocks : List Block) : ∀ {indexer : Indexer}, indexer.Stored initial →
      (indexer.initBlocksHandle outcome blocks).Stored initial := by
  induction blocks with
  | nil => exact fun stored => stored
  | cons block rest ih =>
    intro indexer stored
    unfold Indexer.initBlocksHandle
    split
    · exact stored
    · rw [done block]
      refine ih ?_
      simp [Stored]

theorem initBlocksHandle_cases (blocks : List Block) : ∀ {indexer : Indexer},
    indexer.status = .running →
      (indexer.initBlocksHandle outcome blocks).status = .failed ∨
        (indexer.initBlocksHandle outcome blocks).status = .running ∧
          (indexer.initBlocksHandle outcome blocks).handed = indexer.handed ++ blocks := by
  induction blocks with
  | nil => exact fun running => Or.inr ⟨running, (List.append_nil _).symm⟩
  | cons block rest ih =>
    intro indexer running
    unfold Indexer.initBlocksHandle
    split
    · exact Or.inl rfl
    · cases outcome block with
      | done =>
        have later := @ih ⟨indexer.expected + 1, indexer.handed ++ [block],
          some block.hash, indexer.status⟩ running
        refine later.imp_right ?_
        rintro ⟨running, handed⟩
        exact ⟨running, handed.trans (by simp)⟩
      | subindexerFailed | storageFailed => exact Or.inl rfl

end Indexer

namespace Initialization

variable {state next : Initialization} {rest : List (List Nat)} {chunk : Nat}
  {front : List (List Block)} {ahead toSend : List Nat} {count : Nat}
  {inbox : List IndexBlocksEvent}

/-- The indexer is left alone. -/
structure Frame (state next : Initialization) : Prop where
  indexer : next.indexer = state.indexer
  startingHeight : next.startingHeight = state.startingHeight

theorem Frame.leaves {P : Prop} (frame : Frame state next) :
    next.startingHeight = state.startingHeight ∧ (next.indexer = state.indexer ∨ P) :=
  ⟨frame.startingHeight, Or.inl frame.indexer⟩

theorem handleFetchEvent_frame {event : FetchLoadedBlockEvent}
    (handled : state.handleFetchEvent event = some next) : Frame state next := by
  cases event with
  | loaded block =>
    cases handled
    exact ⟨rfl, rfl⟩
  | failedBlock height =>
    simp only [handleFetchEvent] at handled
    split at handled
    · cases handled
      exact ⟨rfl, rfl⟩
    · cases handled

section

variable (state : Initialization)

theorem handleLoadedBlocks_frame (chunk : Nat) (rest : List (List Nat)) :
    Frame state (state.handleLoadedBlocks chunk rest) := by
  unfold handleLoadedBlocks
  split
  · split <;> exact ⟨rfl, rfl⟩
  · split
    · exact ⟨rfl, rfl⟩
    · rename_i handled
      obtain ⟨indexer, start⟩ := handleFetchEvent_frame handled
      split <;> exact ⟨indexer, start⟩

theorem handleRemainedBlocks_frame : Frame state state.handleRemainedBlocks := by
  unfold handleRemainedBlocks
  split
  · split <;> exact ⟨rfl, rfl⟩
  · split
    · exact ⟨rfl, rfl⟩
    · rename_i handled
      obtain ⟨indexer, start⟩ := handleFetchEvent_frame handled
      exact ⟨indexer, start⟩

theorem runLoader_frame (blockCount : Option Nat) : Frame state (state.runLoader blockCount) := by
  unfold runLoader
  split
  case h_4 => exact handleLoadedBlocks_frame state _ _
  case h_7 => exact handleRemainedBlocks_frame state
  case h_2 | h_10 => exact ⟨rfl, rfl⟩
  all_goals
    split
    all_goals exact ⟨rfl, rfl⟩

theorem seeCancel_frame : Frame state state.seeCancel := by
  unfold seeCancel
  split
  case h_6 => exact ⟨rfl, rfl⟩
  all_goals
    split
    all_goals exact ⟨rfl, rfl⟩

/-- What a step does with the indexer: nothing, an end, or a chunk. -/
theorem step_cases (move : Move) :
    (state.step move).startingHeight = state.startingHeight ∧
      ((state.step move).indexer = state.indexer ∨
        state.indexer.status = .running ∧
          ((∃ status, status ≠ .running ∧
              (state.step move).indexer = { state.indexer with status }) ∨
            ∃ outcome blocks, move = .index outcome ∧
              (state.step move).indexer = state.indexer.initBlocksHandle outcome blocks)) := by
  cases move with
  | loader blockCount => exact (runLoader_frame state blockCount).leaves
  | cancel => exact ⟨rfl, Or.inl rfl⟩
  | seeCancel => exact (seeCancel_frame state).leaves
  | take worker | answer worker block | stop worker =>
    refine Frame.leaves ?_
    simp only [step, take, answer, stop]
    repeat' split
    all_goals exact ⟨rfl, rfl⟩
  | index outcome =>
    simp only [step, index]
    split
    · rename_i running
      split
      · split
        · exact ⟨rfl, Or.inr ⟨running, Or.inl ⟨.ok, nofun, rfl⟩⟩⟩
        · exact ⟨rfl, Or.inl rfl⟩
      · split
        · exact ⟨rfl, Or.inr ⟨running, Or.inl ⟨.ok, nofun, rfl⟩⟩⟩
        · exact ⟨rfl, Or.inr ⟨running, Or.inl ⟨.failed, nofun, rfl⟩⟩⟩
        · exact ⟨rfl, Or.inr ⟨running, Or.inr ⟨outcome, _, rfl, rfl⟩⟩⟩
    · exact ⟨rfl, Or.inl rfl⟩

end

theorem consecutive_step (consecutive : state.indexer.Consecutive state.startingHeight)
    (move : Move) : (state.step move).indexer.Consecutive (state.step move).startingHeight := by
  obtain ⟨start, same | ⟨running, ⟨status, ended, isEnd⟩ | ⟨outcome, blocks, -, isChunk⟩⟩⟩ :=
    step_cases state move
  · rw [start, same]
    exact consecutive
  · rw [start, isEnd]
    exact ⟨consecutive.heights, fun other => absurd other ended⟩
  · rw [start, isChunk]
    exact consecutive.initBlocksHandle blocks running

theorem stored_step {initial : Option BlockHash} (stored : state.indexer.Stored initial)
    (move : Move) (done : ∀ outcome, move = .index outcome → ∀ block, outcome block = .done) :
    (state.step move).indexer.Stored initial := by
  obtain ⟨-, same | ⟨-, ⟨status, -, isEnd⟩ | ⟨outcome, blocks, isIndex, isChunk⟩⟩⟩ :=
    step_cases state move
  · rw [same]
    exact stored
  · rw [isEnd]
    exact stored
  · rw [isChunk]
    exact stored.initBlocksHandle (done outcome isIndex) blocks

/-! ### The blocks in flight -/

def workerHeight : Worker → Option Nat
  | .loading height => some height
  | _ => none

def eventHeight : FetchLoadedBlockEvent → Nat
  | .loaded block => block.height
  | .failedBlock height => height

/-- The heights of the chunk that the workers were asked for, wherever they are. -/
def flying (state : Initialization) : List Nat :=
  state.queue ++ state.workers.filterMap workerHeight ++ state.fetched.map eventHeight ++
    state.loadedBlocks.map Block.height

/-- Only the place of the blocks in flight differs. -/
structure SameLoad (state next : Initialization) : Prop where
  phase : next.phase = state.phase
  loadedBlocks : next.loadedBlocks = state.loadedBlocks
  receivedBlocks : next.receivedBlocks = state.receivedBlocks
  inbox : next.inbox = state.inbox
  indexer : next.indexer = state.indexer
  startingHeight : next.startingHeight = state.startingHeight
  chunkSize : next.chunkSize = state.chunkSize
  blockCount : next.blockCount = state.blockCount
  flying : next.flying.Perm state.flying

theorem filterMap_workerHeight_cons (worker : Worker) (rest : List Worker) :
    (worker :: rest).filterMap workerHeight =
      (workerHeight worker).toList ++ rest.filterMap workerHeight := by
  cases isHeight : workerHeight worker with
  | none | some => simp [isHeight]

/-- A worker that turns to another state, with the heights before and after. -/
theorem perm_set {workers : List Worker} {place : Nat} {old : Worker} (new : Worker)
    (found : workers[place]? = some old) :
    ((workers.set place new).filterMap workerHeight ++ (workerHeight old).toList).Perm
      (workers.filterMap workerHeight ++ (workerHeight new).toList) := by
  obtain ⟨within, isOld⟩ := List.getElem?_eq_some_iff.mp found
  have split : workers = workers.take place ++ old :: workers.drop (place + 1) := by
    rw [← isOld, List.getElem_cons_drop, List.take_append_drop]
  rw [List.set_eq_take_append_cons_drop, if_pos within]
  conv_rhs => rw [split]
  rw [List.perm_iff_count]
  intro height
  simp only [List.filterMap_append, filterMap_workerHeight_cons, List.count_append]
  omega

theorem sameLoad_take (state : Initialization) (worker : Nat) :
    SameLoad state (state.take worker) := by
  unfold take
  split
  · rename_i height queue isIdle isQueue
    refine ⟨rfl, rfl, rfl, rfl, rfl, rfl, rfl, rfl, ?_⟩
    have turned : ((state.workers.set worker (.loading height)).filterMap workerHeight).Perm
        (state.workers.filterMap workerHeight ++ [height]) := by
      simpa [workerHeight] using perm_set (.loading height) isIdle
    rw [List.perm_iff_count] at turned ⊢
    intro other
    have := turned other
    simp only [flying, isQueue, List.count_append, List.count_cons] at this ⊢
    simp only [List.count_nil] at this
    omega
  · exact ⟨rfl, rfl, rfl, rfl, rfl, rfl, rfl, rfl, .refl _⟩

theorem sameLoad_answer (state : Initialization) (worker : Nat) (block : Option Block)
    (asked : ∀ height answered, state.workers[worker]? = some (.loading height) →
      block = some answered → answered.height = height) :
    SameLoad state (state.answer worker block) := by
  unfold answer
  split
  · rename_i height isLoading
    refine ⟨rfl, rfl, rfl, rfl, rfl, rfl, rfl, rfl, ?_⟩
    have turned : ((state.workers.set worker .idle).filterMap workerHeight ++ [height]).Perm
        (state.workers.filterMap workerHeight) := by
      simpa [workerHeight] using perm_set .idle isLoading
    have answered : eventHeight (fetchEvent height block) = height := by
      cases block with
      | none => rfl
      | some answered => exact asked height answered isLoading rfl
    rw [List.perm_iff_count] at turned ⊢
    intro other
    have := turned other
    simp only [flying, List.map_append, List.map_cons, List.map_nil, answered,
      List.count_append] at this ⊢
    omega
  · exact ⟨rfl, rfl, rfl, rfl, rfl, rfl, rfl, rfl, .refl _⟩

theorem sameLoad_stop (state : Initialization) (worker : Nat) :
    SameLoad state (state.stop worker) := by
  unfold stop
  split
  · rename_i isIdle
    split
    · refine ⟨rfl, rfl, rfl, rfl, rfl, rfl, rfl, rfl, ?_⟩
      have turned : ((state.workers.set worker .ended).filterMap workerHeight).Perm
          (state.workers.filterMap workerHeight) := by
        simpa [workerHeight] using perm_set .ended isIdle
      exact ((turned.append_left _).append_right _).append_right _
    · exact ⟨rfl, rfl, rfl, rfl, rfl, rfl, rfl, rfl, .refl _⟩
  · exact ⟨rfl, rfl, rfl, rfl, rfl, rfl, rfl, rfl, .refl _⟩

/-! ### The phases of the loader -/

/-- What the indexer was handed, what is on its way to it and what lies ahead of the loader are
the heights from the first up to the block count. -/
structure Between (state : Initialization) (front : List (List Block)) (ahead : List Nat)
    (count : Nat) : Prop where
  inbox : state.inbox = front.map .loadedBlocks
  blockCount : state.blockCount = some count
  whole : (state.indexer.handed ++ front.flatten).map Block.height ++ ahead =
    List.range' state.startingHeight (count + 1 - state.startingHeight)

/-- A chunk is being fetched: its heights are still to be sent or in flight. -/
structure Fetching (state : Initialization) (toSend : List Nat) (chunk : Nat)
    (rest : List (List Nat)) : Prop where
  heights : ∃ front heights count, state.Between front (heights ++ rest.flatten) count ∧
    heights.length = chunk ∧ (toSend ++ state.flying).Perm heights
  received : state.receivedBlocks = state.loadedBlocks.length
  unfinished : state.receivedBlocks < chunk
  nonempty : ∀ later ∈ rest, later ≠ []

/-- Nothing is in flight. -/
structure Landed (state : Initialization) : Prop where
  flying : state.flying = []
  received : state.receivedBlocks = 0

/-- What holds while the indexer runs. -/
inductive Progress (state : Initialization) : Prop where
  | counting (phase : state.phase = .counting) (positive : 0 < state.chunkSize)
      (inbox : state.inbox = []) (handed : state.indexer.handed = []) (landed : state.Landed)
  | sending {toSend : List Nat} {chunk : Nat} {rest : List (List Nat)}
      (phase : state.phase = .sending toSend chunk rest)
      (fetching : state.Fetching toSend chunk rest)
  | loading {chunk : Nat} {rest : List (List Nat)} (phase : state.phase = .loading chunk rest)
      (fetching : state.Fetching [] chunk rest)
  | offering {blocks : List Block} {rest : List (List Nat)} {front : List (List Block)}
      {count : Nat} (phase : state.phase = .offering blocks rest)
      (between : state.Between front (blocks.map Block.height ++ rest.flatten) count)
      (landed : state.Landed) (nonempty : ∀ later ∈ rest, later ≠ [])
  | finishing {front : List (List Block)} {count : Nat} (phase : state.phase = .finishing)
      (between : state.Between front [] count)
  | finished {front : List (List Block)} {count : Nat} (phase : state.phase = .ended true)
      (inbox : state.inbox = front.map .loadedBlocks ++ [.finishLoading])
      (blockCount : state.blockCount = some count)
      (whole : (state.indexer.handed ++ front.flatten).map Block.height =
        List.range' state.startingHeight (count + 1 - state.startingHeight))
  | leaving (phase : state.phase = .remaining ∨ (∃ blocks, state.phase = .flushing blocks) ∨
      state.phase = .cancelling) (inbox : .finishLoading ∉ state.inbox)
  | left (phase : state.phase = .ended true) (inbox : .finishLoading ∉ state.inbox)
      (cancelled : .cancelled ∈ state.inbox)
  | broken (phase : state.phase = .ended false)

/-- The blocks handed over reach the block count that was read. -/
def Complete (state : Initialization) : Prop :=
  ∃ count, state.blockCount = some count ∧ state.indexer.handed.map Block.height =
    List.range' state.startingHeight (count + 1 - state.startingHeight)

inductive Sound (state : Initialization) : Prop where
  | failed (status : state.indexer.status = .failed)
  | running (status : state.indexer.status = .running) (progress : state.Progress)
  | finished (status : state.indexer.status = .ok)
      (ended : state.phase = .ended false ∨ state.phase = .ended true ∧ state.Complete)

theorem Between.no_finish (between : state.Between front ahead count) :
    .finishLoading ∉ state.inbox := by
  rw [between.inbox]
  simp

theorem Between.same (between : state.Between front ahead count) (inbox : next.inbox = state.inbox)
    (indexer : next.indexer = state.indexer)
    (startingHeight : next.startingHeight = state.startingHeight)
    (blockCount : next.blockCount = state.blockCount) : next.Between front ahead count := by
  refine ⟨inbox ▸ between.inbox, blockCount ▸ between.blockCount, ?_⟩
  rw [indexer, startingHeight]
  exact between.whole

theorem SameLoad.between (same : SameLoad state next) (between : state.Between front ahead count) :
    next.Between front ahead count :=
  between.same same.inbox same.indexer same.startingHeight same.blockCount

/-- Heights move from the loader to the workers and back to it. -/
theorem Fetching.moved {toSend' : List Nat} (fetching : state.Fetching toSend chunk rest)
    (between : ∀ {front ahead count}, state.Between front ahead count →
      next.Between front ahead count)
    (flying : (toSend' ++ next.flying).Perm (toSend ++ state.flying))
    (received : next.receivedBlocks = next.loadedBlocks.length)
    (unfinished : next.receivedBlocks < chunk) : next.Fetching toSend' chunk rest := by
  obtain ⟨front, heights, count, isBetween, length, perm⟩ := fetching.heights
  exact ⟨⟨front, heights, count, between isBetween, length, flying.trans perm⟩, received,
    unfinished, fetching.nonempty⟩

theorem Fetching.same (fetching : state.Fetching toSend chunk rest) (same : SameLoad state next) :
    next.Fetching toSend chunk rest := by
  refine fetching.moved same.between (same.flying.append_left toSend) ?_ ?_
  · rw [same.receivedBlocks, same.loadedBlocks]
    exact fetching.received
  · rw [same.receivedBlocks]
    exact fetching.unfinished

theorem Landed.same (landed : state.Landed) (same : SameLoad state next) : next.Landed := by
  refine ⟨?_, same.receivedBlocks.trans landed.received⟩
  have flying := same.flying
  rw [landed.flying] at flying
  exact flying.eq_nil

theorem Progress.same (progress : state.Progress) (same : SameLoad state next) : next.Progress := by
  have phase' := same.phase
  cases progress with
  | counting phase positive inbox handed landed =>
    refine .counting (phase'.trans phase) ?_ (same.inbox.trans inbox) ?_ (landed.same same)
    · rw [same.chunkSize]
      exact positive
    · rw [same.indexer]
      exact handed
  | sending phase fetching => exact .sending (phase'.trans phase) (fetching.same same)
  | loading phase fetching => exact .loading (phase'.trans phase) (fetching.same same)
  | offering phase between landed nonempty =>
    exact .offering (phase'.trans phase) (same.between between) (landed.same same) nonempty
  | finishing phase between => exact .finishing (phase'.trans phase) (same.between between)
  | finished phase inbox blockCount whole =>
    refine .finished (phase'.trans phase) (same.inbox.trans inbox)
      (same.blockCount.trans blockCount) ?_
    rw [same.indexer, same.startingHeight]
    exact whole
  | leaving phase inbox =>
    refine .leaving ?_ (same.inbox ▸ inbox)
    rw [phase']
    exact phase
  | left phase inbox cancelled =>
    exact .left (phase'.trans phase) (same.inbox ▸ inbox) (same.inbox ▸ cancelled)
  | broken phase => exact .broken (phase'.trans phase)

theorem Progress.no_finish (progress : state.Progress) (goesOn : ∀ ok, state.phase ≠ .ended ok) :
    .finishLoading ∉ state.inbox := by
  cases progress with
  | counting phase positive inbox handed landed =>
    rw [inbox]
    exact List.not_mem_nil
  | sending phase fetching | loading phase fetching =>
    obtain ⟨front, heights, count, between, -⟩ := fetching.heights
    exact between.no_finish
  | offering phase between landed nonempty | finishing phase between => exact between.no_finish
  | leaving phase inbox => exact inbox
  | finished phase | left phase | broken phase => exact absurd phase (goesOn _)

theorem Progress.seeCancel (progress : state.Progress) : state.seeCancel.Progress := by
  unfold Initialization.seeCancel
  split
  case h_6 => exact progress
  all_goals
    rename_i phase
    split
    · exact .leaving (Or.inl rfl) (progress.no_finish fun ok ended => nomatch phase.symm.trans ended)
    · exact progress

/-! ### The loader -/

/-- The loader would have to send a height to a worker, or waits for one. -/
def needsWorkers (state : Initialization) : Bool :=
  match state.phase, state.fetched with
  | .sending (_ :: _) _ _, _ => true
  | .loading _ _, [] => true
  | .loading _ _, .failedBlock _ :: _ => true
  | _, _ => false

/-- The steps that the completeness rests on: the block count is read, the workers have not all
ended while the loader needs them, the Bitcoin node answers with the block at the height asked
for, and the blocks are indexed. -/
def Reliable (state : Initialization) : Move → Prop
  | .loader blockCount =>
    (state.phase = .counting → blockCount ≠ none) ∧
      (state.needsWorkers = true → state.hasWorkers = true)
  | .answer worker block => ∀ height answered,
      state.workers[worker]? = some (.loading height) → block = some answered →
        answered.height = height
  | .index outcome => ∀ block, outcome block = .done
  | _ => True

/-- The loader goes on with the next chunk, or to the end. -/
theorem progress_nextChunk (front : List (List Block)) (count : Nat)
    (phase : state.phase = nextChunk rest) (between : state.Between front rest.flatten count)
    (landed : state.Landed) (nonempty : ∀ later ∈ rest, later ≠ []) : state.Progress := by
  cases rest with
  | nil => exact .finishing phase between
  | cons chunk rest =>
    refine .sending phase ⟨⟨front, chunk, count, between, rfl, ?_⟩, ?_, ?_, ?_⟩
    · rw [landed.flying, List.append_nil]
    · have flying := landed.flying
      simp only [Initialization.flying, List.append_eq_nil_iff, List.map_eq_nil_iff] at flying
      rw [landed.received, flying.2, List.length_nil]
    · rw [landed.received]
      exact List.length_pos_of_ne_nil (nonempty chunk List.mem_cons_self)
    · exact fun later member => nonempty later (List.mem_cons_of_mem _ member)

/-- A chunk of which every block has been loaded is the next part of the heights. -/
theorem progress_drain (state : Initialization)
    (heights : ∃ front heights count, state.Between front (heights ++ rest.flatten) count ∧
      heights.length = chunk ∧ state.flying.Perm heights) (full : state.loadedBlocks.length = chunk)
    (nonempty : ∀ later ∈ rest, later ≠ []) :
    ({ state with receivedBlocks := 0 }.drain (.offering · rest)).Progress := by
  obtain ⟨front, heights, count, between, length, perm⟩ := heights
  have lengths := perm.length_eq
  simp only [flying, List.length_append, List.length_map] at lengths
  have queue : state.queue = [] := List.length_eq_zero_iff.mp (by omega)
  have workers : state.workers.filterMap workerHeight = [] := List.length_eq_zero_iff.mp (by omega)
  have fetched : state.fetched = [] := List.length_eq_zero_iff.mp (by omega)
  have loaded : (state.loadedBlocks.map Block.height).Perm heights := by
    simpa [flying, queue, workers, fetched] using perm
  have whole := between.whole
  rw [← List.append_assoc] at whole
  have isRange := middle_of_range whole
  rw [isRange] at loaded
  have sorted := sortByKey_range loaded
  rw [← isRange] at sorted
  have kept : truncateAtGap Block.height
      (sortByKey Block.height state.loadedBlocks) = sortByKey Block.height state.loadedBlocks := by
    have count : (sortByKey Block.height state.loadedBlocks).length = heights.length := by
      rw [← sorted, List.length_map]
    have consecutive := sorted.trans isRange
    rw [← count] at consecutive
    exact truncateAtGap_range consecutive
  refine .offering rfl ⟨between.inbox, between.blockCount, ?_⟩ ⟨?_, rfl⟩ nonempty
  · show _ ++ ((truncateAtGap Block.height
      (sortByKey Block.height state.loadedBlocks)).map Block.height ++ rest.flatten) = _
    rw [kept, sorted]
    exact between.whole
  · simp [Initialization.drain, flying, queue, workers, fetched]

theorem Progress.handleLoadedBlocks (phase : state.phase = .loading chunk rest)
    (fetching : state.Fetching [] chunk rest)
    (workers : state.needsWorkers = true → state.hasWorkers = true) :
    (state.handleLoadedBlocks chunk rest).Progress := by
  unfold Initialization.handleLoadedBlocks
  cases isFetched : state.fetched with
  | nil =>
    have alive := workers (by rw [needsWorkers, phase, isFetched])
    simp only [alive, if_true]
    exact .loading phase fetching
  | cons event fetched =>
    have received := fetching.received
    have unfinished := fetching.unfinished
    cases event with
    | loaded block =>
      let loaded : Initialization := { state with
        fetched
        loadedBlocks := state.loadedBlocks ++ [block]
        receivedBlocks := state.receivedBlocks + 1 }
      have moved : loaded.flying.Perm state.flying := by
        refine List.perm_iff_count.mpr ?_
        intro height
        simp only [loaded, flying, isFetched, eventHeight, List.map_append, List.map_cons,
          List.map_nil, List.count_append, List.count_cons, List.count_nil]
        omega
      have length : (state.loadedBlocks ++ [block]).length = state.receivedBlocks + 1 := by
        rw [received, List.length_append, List.length_singleton]
      simp only [handleFetchEvent]
      split
      · rename_i full
        obtain ⟨front, heights, count, between, isChunk, perm⟩ := fetching.heights
        exact progress_drain loaded ⟨front, heights, count, between.same rfl rfl rfl rfl, isChunk,
          moved.trans perm⟩ (length.trans full) fetching.nonempty
      · rename_i notFull
        refine .loading phase (fetching.moved (·.same rfl rfl rfl rfl) moved length.symm ?_)
        have other : state.receivedBlocks + 1 ≠ chunk := notFull
        show state.receivedBlocks + 1 < chunk
        omega
    | failedBlock height =>
      have alive : ({ state with fetched } : Initialization).hasWorkers = true :=
        workers (by rw [needsWorkers, phase, isFetched])
      simp only [handleFetchEvent, alive, if_true, if_neg (Nat.ne_of_lt unfinished)]
      refine .loading phase (fetching.moved (·.same rfl rfl rfl rfl) ?_ received unfinished)
      refine List.perm_iff_count.mpr ?_
      intro other
      simp only [flying, isFetched, eventHeight, List.nil_append, List.map_cons,
        List.count_append, List.count_cons, List.count_nil]
      omega

theorem Progress.handleRemainedBlocks (phase : state.phase = .remaining)
    (inbox : .finishLoading ∉ state.inbox) : state.handleRemainedBlocks.Progress := by
  unfold Initialization.handleRemainedBlocks
  cases isFetched : state.fetched with
  | nil =>
    simp only
    split
    · exact .leaving (Or.inl phase) inbox
    · exact .leaving (Or.inr (Or.inl ⟨_, rfl⟩)) inbox
  | cons event fetched =>
    cases event with
    | loaded block => exact .leaving (Or.inl phase) inbox
    | failedBlock height =>
      simp only [handleFetchEvent]
      split
      · exact .broken rfl
      · rename_i handled
        split at handled
        · cases handled
          exact .leaving (Or.inl phase) inbox
        · cases handled

theorem Progress.runLoader (progress : state.Progress) (running : state.indexer.status = .running)
    {blockCount : Option Nat} (reliable : state.Reliable (.loader blockCount)) :
    (state.runLoader blockCount).Progress := by
  obtain ⟨counts, workers⟩ := reliable
  have listened : state.isListened = true := by
    rw [isListened, running]
    rfl
  cases progress with
  | counting phase positive inbox handed landed =>
    cases blockCount with
    | none => exact absurd rfl (counts phase)
    | some count =>
      simp only [Initialization.runLoader, phase]
      have flatten := chunksOf_flatten positive _ (List.range' state.startingHeight
        (count + 1 - state.startingHeight)) (Nat.le_refl _)
      refine progress_nextChunk [] count rfl ⟨inbox, rfl, ?_⟩
        ⟨landed.flying, landed.received⟩ (ne_nil_of_mem_chunksOf positive _ _)
      rw [handed, flatten]
      rfl
  | sending phase fetching =>
    rename_i toSend chunk rest
    cases toSend with
    | nil =>
      simp only [Initialization.runLoader, phase]
      exact .loading rfl (fetching.moved (·.same rfl rfl rfl rfl) (.refl _) fetching.received
        fetching.unfinished)
    | cons height heights =>
      have alive := workers (by rw [needsWorkers, phase])
      simp only [Initialization.runLoader, phase, alive, if_true]
      refine .sending rfl (fetching.moved (·.same rfl rfl rfl rfl) ?_ fetching.received
        fetching.unfinished)
      refine List.perm_iff_count.mpr ?_
      intro other
      simp only [flying, List.cons_append, List.count_append, List.count_cons, List.count_nil]
      omega
  | loading phase fetching =>
    simp only [Initialization.runLoader, phase]
    exact .handleLoadedBlocks phase fetching workers
  | offering phase between landed nonempty =>
    rename_i blocks rest front count
    simp only [Initialization.runLoader, phase, listened, if_true]
    refine progress_nextChunk (front ++ [blocks]) count rfl ⟨?_,
      between.blockCount, ?_⟩ ⟨landed.flying, landed.received⟩ nonempty
    · rw [List.map_append, ← between.inbox]
      rfl
    · rw [← between.whole]
      simp
  | finishing phase between =>
    rename_i front count
    simp only [Initialization.runLoader, phase, listened, if_true]
    refine @Progress.finished _ front count rfl ?_ between.blockCount ?_
    · rw [between.inbox]
    · have whole := between.whole
      rw [List.append_nil] at whole
      exact whole
  | finished phase inbox blockCount whole =>
    simp only [Initialization.runLoader, phase]
    exact .finished phase inbox blockCount whole
  | leaving phase inbox =>
    rcases phase with phase | ⟨blocks, phase⟩ | phase
    · simp only [Initialization.runLoader, phase]
      exact .handleRemainedBlocks phase inbox
    · simp only [Initialization.runLoader, phase, listened, if_true]
      refine .leaving (Or.inr (Or.inr rfl)) ?_
      simpa using inbox
    · simp only [Initialization.runLoader, phase, listened, if_true]
      refine .left rfl ?_ ?_
      · simpa using inbox
      · simp
  | left phase inbox cancelled =>
    simp only [Initialization.runLoader, phase]
    exact .left phase inbox cancelled
  | broken phase =>
    simp only [Initialization.runLoader, phase]
    exact .broken phase

/-! ### Steps and runs -/

theorem Sound.index_chunk (status : state.indexer.status = .running) (progress : state.Progress)
    {blocks : List Block} (isInbox : state.inbox = .loadedBlocks blocks :: inbox)
    (outcome : Block → Indexed) :
    ({ state with inbox, indexer := state.indexer.initBlocksHandle outcome blocks } :
      Initialization).Sound := by
  rcases Indexer.initBlocksHandle_cases blocks status with failed | ⟨running, handed⟩
  · exact .failed failed
  · refine .running running ?_
    have shift : ∀ {front : List (List Block)}, state.inbox = front.map .loadedBlocks →
        ∃ later, front = blocks :: later ∧ inbox = later.map .loadedBlocks := by
      intro front isFront
      rw [isInbox] at isFront
      cases front with
      | nil => cases isFront
      | cons first later =>
        rw [List.map_cons, List.cons.injEq] at isFront
        obtain ⟨same, rest⟩ := isFront
        cases same
        exact ⟨later, rfl, rest⟩
    have between : ∀ {front : List (List Block)} {ahead : List Nat} {count : Nat},
        state.Between front ahead count → ∃ later, ({ state with
          inbox, indexer := state.indexer.initBlocksHandle outcome blocks } :
            Initialization).Between later ahead count := by
      intro front ahead count between
      obtain ⟨later, rfl, isLater⟩ := shift between.inbox
      refine ⟨later, isLater, between.blockCount, ?_⟩
      rw [handed, ← between.whole]
      simp
    have stillFetching : ∀ {toSend chunk rest}, state.Fetching toSend chunk rest →
        Fetching { state with
          inbox, indexer := state.indexer.initBlocksHandle outcome blocks } toSend chunk rest := by
      intro toSend chunk rest fetching
      obtain ⟨front, heights, count, isBetween, length, perm⟩ := fetching.heights
      obtain ⟨later, isBetween⟩ := between isBetween
      exact { fetching with heights := ⟨later, heights, count, isBetween, length, perm⟩ }
    cases progress with
    | counting phase positive empty handed landed =>
      rw [isInbox] at empty
      cases empty
    | sending phase fetching => exact .sending phase (stillFetching fetching)
    | loading phase fetching => exact .loading phase (stillFetching fetching)
    | offering phase isBetween landed nonempty =>
      obtain ⟨later, isBetween⟩ := between isBetween
      exact .offering phase isBetween ⟨landed.flying, landed.received⟩ nonempty
    | finishing phase isBetween =>
      obtain ⟨later, isBetween⟩ := between isBetween
      exact .finishing phase isBetween
    | finished phase isFinished blockCount whole =>
      rename_i front count
      cases front with
      | nil =>
        rw [isInbox] at isFinished
        cases isFinished
      | cons first later =>
        rw [isInbox, List.map_cons, List.cons_append, List.cons.injEq] at isFinished
        obtain ⟨same, rest⟩ := isFinished
        cases same
        refine .finished phase rest blockCount ?_
        rw [handed, ← whole]
        simp
    | leaving phase none =>
      rw [isInbox] at none
      exact .leaving phase fun member => none (List.mem_cons_of_mem _ member)
    | left phase none cancelled =>
      rw [isInbox] at none cancelled
      refine .left phase (fun member => none (List.mem_cons_of_mem _ member)) ?_
      rcases List.mem_cons.mp cancelled with same | later
      · cases same
      · exact later
    | broken phase => exact .broken phase

theorem Progress.complete (progress : state.Progress)
    (isInbox : state.inbox = .finishLoading :: inbox) :
    state.phase = .ended false ∨ state.phase = .ended true ∧ state.Complete := by
  have announced : .finishLoading ∈ state.inbox := by
    rw [isInbox]
    exact List.mem_cons_self
  have ended : ∃ ok, state.phase = .ended ok := by
    by_contra goesOn
    exact progress.no_finish (not_exists.mp goesOn) announced
  obtain ⟨ok, ended⟩ := ended
  cases progress with
  | counting phase | sending phase | loading phase | offering phase | finishing phase =>
    cases phase.symm.trans ended
  | finished phase isFinished blockCount whole =>
    rename_i front count
    cases front with
    | nil =>
      refine Or.inr ⟨phase, count, blockCount, ?_⟩
      simpa using whole
    | cons first later =>
      rw [isInbox] at isFinished
      cases isFinished
  | leaving phase none | left phase none cancelled => exact absurd announced none
  | broken phase => exact Or.inl phase

theorem Progress.closed (progress : state.Progress) (empty : state.inbox = [])
    (returned : state.hasReturned = true) : state.phase = .ended false := by
  have ended : ∃ ok, state.phase = .ended ok := by
    unfold hasReturned at returned
    split at returned
    · exact ⟨_, ‹_›⟩
    · cases returned
  obtain ⟨ok, ended⟩ := ended
  cases progress with
  | counting phase | sending phase | loading phase | offering phase | finishing phase =>
    cases phase.symm.trans ended
  | finished phase isFinished blockCount whole =>
    rw [empty] at isFinished
    simp at isFinished
  | leaving phase none =>
    rcases phase with phase | ⟨blocks, phase⟩ | phase
    all_goals cases phase.symm.trans ended
  | left phase none cancelled =>
    rw [empty] at cancelled
    cases cancelled
  | broken phase => exact phase

theorem Sound.index (status : state.indexer.status = .running) (progress : state.Progress)
    (outcome : Block → Indexed) : (state.index outcome).Sound := by
  unfold Initialization.index
  rw [if_pos status]
  cases isInbox : state.inbox with
  | nil =>
    simp only
    split
    · rename_i returned
      exact .finished rfl (Or.inl (progress.closed isInbox returned))
    · exact .running status progress
  | cons event inbox =>
    cases event with
    | finishLoading => exact .finished rfl (progress.complete isInbox)
    | cancelled => exact .failed rfl
    | loadedBlocks blocks => exact Sound.index_chunk status progress isInbox outcome

theorem step_ended {ok : Bool} (phase : state.phase = .ended ok) (move : Move) :
    (state.step move).phase = .ended ok ∧ (state.step move).blockCount = state.blockCount ∧
      (state.step move).startingHeight = state.startingHeight := by
  cases move with
  | loader blockCount =>
    have same : state.runLoader blockCount = state := by simp only [runLoader, phase]
    rw [step, same]
    exact ⟨phase, rfl, rfl⟩
  | cancel => exact ⟨phase, rfl, rfl⟩
  | seeCancel =>
    have same : state.seeCancel = state := by simp only [seeCancel, phase]
    rw [step, same]
    exact ⟨phase, rfl, rfl⟩
  | take worker | answer worker block | stop worker | index outcome =>
    simp only [step, take, answer, stop, index]
    repeat' split
    all_goals exact ⟨phase, rfl, rfl⟩

/-- An indexer that has ended stays as it is, and the loader has ended before it. -/
theorem Sound.after_end (sound : state.Sound) (ended : state.indexer.status ≠ .running)
    (move : Move) : (state.step move).Sound := by
  have indexer := (step_cases state move).2.resolve_right fun other => ended other.1
  cases sound with
  | failed status => exact .failed (indexer ▸ status)
  | running status => exact absurd status ended
  | finished status isEnd =>
    refine .finished (indexer ▸ status) ?_
    rcases isEnd with phase | ⟨phase, count, blockCount, whole⟩
    · exact Or.inl (step_ended phase move).1
    · obtain ⟨phase', blockCount', start⟩ := step_ended phase move
      refine Or.inr ⟨phase', count, blockCount'.trans blockCount, ?_⟩
      rw [indexer, start]
      exact whole

theorem Sound.step (sound : state.Sound) (move : Move) (reliable : state.Reliable move) :
    (state.step move).Sound := by
  by_cases ended : state.indexer.status ≠ .running
  · exact sound.after_end ended move
  · have running := not_not.mp ended
    cases sound with
    | failed status | finished status isEnd =>
      rw [running] at status
      cases status
    | running status progress =>
      have loads : ∀ next, SameLoad state next → next.Sound := by
        intro next same
        exact .running (same.indexer ▸ status) (progress.same same)
      cases move with
      | loader blockCount =>
        refine .running ?_ (progress.runLoader status reliable)
        show (state.runLoader blockCount).indexer.status = .running
        rw [(runLoader_frame state blockCount).indexer]
        exact status
      | cancel => exact loads _ ⟨rfl, rfl, rfl, rfl, rfl, rfl, rfl, rfl, .refl _⟩
      | seeCancel =>
        refine .running ?_ progress.seeCancel
        show state.seeCancel.indexer.status = .running
        rw [(seeCancel_frame state).indexer]
        exact status
      | take worker => exact loads _ (sameLoad_take state worker)
      | answer worker block => exact loads _ (sameLoad_answer state worker block reliable)
      | stop worker => exact loads _ (sameLoad_stop state worker)
      | index outcome => exact Sound.index status progress outcome

theorem sound_new (workersNumber chunkSize startingHeight : Nat)
    (lastIndexedHash : Option BlockHash) :
    (new workersNumber chunkSize startingHeight lastIndexedHash).Sound := by
  refine .running rfl ?_
  by_cases zero : chunkSize = 0
  · exact .broken (if_pos zero)
  · refine .counting (if_neg zero) (Nat.pos_of_ne_zero zero) rfl rfl ⟨?_, rfl⟩
    show [] ++ (List.replicate workersNumber Worker.idle).filterMap workerHeight ++ [] ++ [] = []
    simp [workerHeight]

structure Invariant (startingHeight : Nat) (lastIndexedHash : Option BlockHash)
    (state : Initialization) : Prop where
  startingHeight : state.startingHeight = startingHeight
  consecutive : state.indexer.Consecutive state.startingHeight
  stored : state.indexer.Stored lastIndexedHash
  sound : state.Sound

theorem invariant_step {startingHeight : Nat} {lastIndexedHash : Option BlockHash}
    (inv : Invariant startingHeight lastIndexedHash state) (move : Move)
    (reliable : state.Reliable move) :
    Invariant startingHeight lastIndexedHash (state.step move) := by
  refine ⟨(step_cases state move).1.trans inv.startingHeight,
    consecutive_step inv.consecutive move, stored_step inv.stored move ?_,
    inv.sound.step move reliable⟩
  rintro outcome rfl
  exact reliable

/-- In every run in which the block count is read, some worker is left while the loader needs
one, and blocks are answered and indexed, the heights handed to the subindexers are consecutive
from the first, the hash stored is that of the last of them, and they reach the block count if
the loader and the indexer end without failure. -/
theorem handed_contiguous (workersNumber chunkSize startingHeight : Nat)
    (lastIndexedHash : Option BlockHash) (moves : List Move)
    (reliable : AllSteps step Reliable
      (new workersNumber chunkSize startingHeight lastIndexedHash) moves) :
    let state := runFrom step (new workersNumber chunkSize startingHeight lastIndexedHash) moves
    state.indexer.handed.map Block.height = List.range' startingHeight state.indexer.handed.length ∧
      state.indexer.lastIndexedHash =
        (state.indexer.handed.getLast?.map Block.hash).or lastIndexedHash ∧
      (state.isOk = true → ∃ count, state.blockCount = some count ∧
        state.indexer.handed.map Block.height =
          List.range' startingHeight (count + 1 - startingHeight)) := by
  intro state
  have inv : Invariant startingHeight lastIndexedHash state := by
    refine reliable.invariant (fun _ move inv reliable => invariant_step inv move reliable) ?_
    exact ⟨rfl, ⟨rfl, fun _ => rfl⟩, rfl, sound_new _ _ _ _⟩
  have heights := inv.consecutive.heights
  rw [inv.startingHeight] at heights
  refine ⟨heights, inv.stored, ?_⟩
  intro isOk
  rw [Initialization.isOk, Bool.and_eq_true, decide_eq_true_iff, decide_eq_true_iff] at isOk
  obtain ⟨phase, status⟩ := isOk
  have sound := inv.sound
  cases sound with
  | failed failed =>
    rw [status] at failed
    cases failed
  | running running =>
    rw [status] at running
    cases running
  | finished _ ended =>
    rcases ended with broken | ⟨-, count, blockCount, whole⟩
    · rw [phase] at broken
      cases broken
    · rw [inv.startingHeight] at whole
      exact ⟨count, blockCount, whole⟩

/-- A worker loads a block on the second try. -/
theorem handed_contiguous_retried :
    let indexed : Move := .index fun _ => .done
    let moves : List Move := [.loader (some 5), .loader none, .loader none, .take 0,
      .answer 0 none, .loader none, .take 0, .answer 0 (some ⟨50, 5⟩), .loader none, .loader none,
      .loader none, indexed, indexed]
    let state := runFrom step (new 1 1 5 none) moves
    AllSteps step Reliable (new 1 1 5 none) moves ∧ state.isOk = true ∧
      ∃ count, state.blockCount = some count ∧
        state.indexer.handed.map Block.height = List.range' 5 (count + 1 - 5) := by
  intro indexed moves state
  have reliable : AllSteps step Reliable (new 1 1 5 none) moves := by
    refine ⟨?_, ?_, ?_, trivial, ?_, ?_, trivial, ?_, ?_, ?_, ?_, fun _ => rfl, fun _ => rfl,
      trivial⟩
    case refine_4 => exact nofun
    case refine_6 =>
      intro height answered isLoading isBlock
      cases isBlock
      cases isLoading
      rfl
    all_goals exact ⟨by decide +kernel, by decide +kernel⟩
  refine ⟨reliable, by decide +kernel, ?_⟩
  exact (handed_contiguous 1 1 5 none _ reliable).2.2 (by decide +kernel)

/-- The block count cannot be read; there is no worker; the workers see a cancellation first, and
the loader hands on half a chunk and ends without seeing it. Each time `init` returns `Ok`. -/
theorem ends_before_block_count :
    let indexed : Move := .index fun _ => .done
    let unread := runFrom step (new 1 25 5 none) [.loader none, .stop 0, indexed]
    let unstaffed := runFrom step (new 0 25 5 none) [.loader (some 6), .loader none, indexed]
    let cancelled := runFrom step (new 1 25 5 none)
      [.loader (some 6), .loader none, .loader none, .loader none, .take 0,
        .answer 0 (some ⟨50, 5⟩), .cancel, .stop 0, .loader none, .loader none, .loader none,
        .loader none, indexed, indexed]
    (unread.isOk = true ∧ unread.indexer.handed = []) ∧
      (unstaffed.isOk = true ∧ unstaffed.blockCount = some 6 ∧ unstaffed.indexer.handed = []) ∧
      cancelled.isOk = true ∧ cancelled.blockCount = some 6 ∧
        cancelled.indexer.handed = [⟨50, 5⟩] := by
  decide +kernel

end Initialization

end Lrc20.Indexers
