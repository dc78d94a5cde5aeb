import Lrc20.Lib.Ancestry
import Lrc20.Lib.Runs
import Lrc20.TxConfirm.Confirmator

/-! The window of the confirmator and the chain of blocks delivered to it. -/

open Ancestry Runs

namespace Lrc20.TxConfirm

open Confirmator

/-! ### Blocks and their ancestors -/

/-- All blocks there are, by hash: each but a first one has a parent, at the height below. -/
structure BlockTree where
  find : BlockHash → Option Block
  keyed : ∀ hash block, find hash = some block → block.hash = hash
  parent : ∀ hash block prev, find hash = some block → block.previousblockhash = some prev →
    ∃ below, find prev = some below ∧ below.height.val + 1 = block.height.val
  root : ∀ hash block, find hash = some block → block.previousblockhash = none →
    block.height.val = 0

namespace BlockTree

variable (tree : BlockTree)

def Holds (block : Block) : Prop := tree.find block.hash = some block

instance (block : Block) : Decidable (tree.Holds block) :=
  inferInstanceAs (Decidable (tree.find block.hash = some block))

def parentOf (block : Block) : Option Block :=
  if tree.Holds block then block.previousblockhash.bind tree.find else none

/-- The block and its ancestors, down to a number of generations. -/
def lineage : Nat → Block → List Block
  | 0, block => [block]
  | fuel + 1, block => block :: match tree.parentOf block with
      | none => []
      | some below => lineage fuel below

/-- One block is on the chain of another. -/
def isAncestor (below block : Block) : Bool :=
  below ∈ tree.lineage block.height.val block

variable {tree} {block below : Block}

theorem parentOf_eq_some : tree.parentOf block = some below ↔
    tree.Holds block ∧ block.previousblockhash = some below.hash ∧ tree.Holds below := by
  unfold parentOf
  split
  · rename_i held
    rw [Option.bind_eq_some_iff]
    constructor
    · rintro ⟨prev, isPrev, found⟩
      have same := tree.keyed prev below found
      rw [← same] at found isPrev
      exact ⟨held, isPrev, found⟩
    · rintro ⟨-, isPrev, found⟩
      exact ⟨below.hash, isPrev, found⟩
  · simp [*]

theorem ranked : Ranked tree.parentOf fun block => block.height.val := by
  intro block below isParent
  obtain ⟨held, isPrev, found⟩ := parentOf_eq_some.mp isParent
  obtain ⟨below', found', next⟩ := tree.parent _ _ _ held isPrev
  cases found.symm.trans found'
  exact next

theorem exists_parent (held : tree.Holds block) (high : 0 < block.height.val) :
    ∃ below, tree.parentOf block = some below := by
  cases prev : block.previousblockhash with
  | none =>
    have := tree.root _ _ held prev
    omega
  | some hash =>
    obtain ⟨below, found, -⟩ := tree.parent _ _ _ held prev
    exact ⟨below, by rw [parentOf, if_pos held, prev]; exact found⟩

theorem mem_lineage (fuel : Nat) : ∀ {below block : Block},
    block.height.val ≤ below.height.val + fuel →
      (below ∈ tree.lineage fuel block ↔ Ancestor tree.parentOf below block) := by
  induction fuel with
  | zero =>
    intro below block near
    rw [lineage, List.mem_singleton]
    constructor
    · rintro rfl
      exact .self below
    · intro ancestor
      refine Ancestor.eq_of_height ranked ancestor ?_
      have := Ancestor.height_le ranked ancestor
      omega
  | succ fuel ih =>
    intro below block near
    rw [lineage, List.mem_cons]
    constructor
    · rintro (rfl | later)
      · exact .self below
      · cases isParent : tree.parentOf block with
        | none =>
          rw [isParent] at later
          cases later
        | some lower =>
          rw [isParent] at later
          have : lower.height.val + 1 = block.height.val := ranked _ _ isParent
          exact .of_parent isParent ((ih (by omega)).mp later)
    · intro ancestor
      by_cases same : below = block
      · exact Or.inl same
      · obtain ⟨lower, isParent, path⟩ := Ancestor.proper ancestor same
        have : lower.height.val + 1 = block.height.val := ranked _ _ isParent
        rw [isParent]
        exact Or.inr ((ih (by omega)).mpr path)

theorem isAncestor_iff :
    tree.isAncestor below block = true ↔ Ancestor tree.parentOf below block := by
  rw [isAncestor, decide_eq_true_iff]
  exact mem_lineage _ (by omega)

/-- The blocks hold the parent of each. -/
def hasParents (blocks : List Block) : Bool :=
  blocks.all fun block => match block.previousblockhash with
    | none => block.height.val = 0
    | some prev => (blocks.find? fun other => other.hash = prev).any fun below =>
      below.height.val + 1 = block.height.val

def ofBlocks (blocks : List Block) (closed : hasParents blocks = true) : BlockTree where
  find hash := blocks.find? fun other => other.hash = hash
  keyed := by
    intro hash block found
    simpa using List.find?_some found
  parent := by
    intro hash block prev found isPrev
    have parent := List.all_eq_true.mp closed block (List.mem_of_find?_eq_some found)
    rw [isPrev] at parent
    simpa [Option.any_eq_true] using parent
  root := by
    intro hash block found isPrev
    have root := List.all_eq_true.mp closed block (List.mem_of_find?_eq_some found)
    rw [isPrev] at root
    simpa using root

/-- A client that knows all blocks. -/
def client (tree : BlockTree) (hash : BlockHash) : Except Unit Block :=
  match tree.find hash with
  | none => .error ()
  | some block => .ok block

end BlockTree

/-! ### The confirmator and the chain delivered to it -/

/-- The confirmator with the chain of the blocks delivered to it. A block that does not follow
the last one takes away those that are not on its own chain. -/
structure World where
  confirmator : Confirmator
  delivered : List Block
  /-- No event has failed: a failure cancels the node. -/
  running : Bool

inductive Input where
  | block (client : BlockHash → Except Unit Block) (block : Block)
  | tx (now : Nat) (txid : Txid) (answer : RawTransactionInfo)
  | cleanUp (now : Nat)

namespace World

variable (tree : BlockTree)

def new (maxConfirmationTime : Nat) (confirmationsNumber : UInt8) : World :=
  ⟨⟨∅, maxConfirmationTime, confirmationsNumber, []⟩, [], true⟩

section

variable (world : World)

/-- The block follows the last one delivered, or is the first. -/
def follows (block : Block) : Bool :=
  match world.delivered.getLast? with
  | none => true
  | some last => block.previousblockhash = some last.hash

def deliver (block : Block) : List Block :=
  if world.follows block then world.delivered ++ [block]
  else world.delivered.takeWhile fun older => tree.isAncestor older block

/-- The state after an event; one that failed has cancelled the node. -/
def after (handled : Handled) (delivered : List Block) : World :=
  ⟨handled.confirmator, delivered, handled.result matches .ok _⟩

def step (input : Input) : World :=
  if world.running then
    match input with
    | .block client block =>
      after (world.confirmator.handleNewBlock client block) (world.deliver tree block)
    | .tx now txid answer =>
      after (world.confirmator.handleTxToConfirm now txid answer) world.delivered
    | .cleanUp now =>
      match world.confirmator.cleanUpWaitingTxs now with
      | none => { world with running := false }
      | some confirmator => { world with confirmator }
  else world

/-- The blocks of the delivered chain that the window should hold. -/
def window : List Block :=
  world.delivered.drop (world.delivered.length - world.confirmator.latestBlocks.length)

/-- A block delivered in order: it is known, it is at the height after the last one, and the
client knows the blocks below it. -/
structure InOrder (world : World) (client : BlockHash → Except Unit Block) (block : Block) :
    Prop where
  held : tree.Holds block
  next : ∀ last, world.delivered.getLast? = some last →
    block.height.val = last.height.val + 1
  client : ∀ hash known, tree.find hash = some known → client hash = .ok known

/-- The block follows the last one, or its chain meets the window. -/
def MeetsWindow (block : Block) : Prop :=
  world.follows block = true ∨ ∃ older ∈ world.window, tree.isAncestor older block = true

instance (world : World) (block : Block) : Decidable (world.MeetsWindow tree block) :=
  inferInstanceAs (Decidable (_ ∨ _))

def Orderly : Input → Prop
  | .block client block =>
    world.InOrder tree client block ∧ world.MeetsWindow tree block
  | _ => True

end

/-- The window is a linked end of the delivered chain, shorter than the number of
confirmations. -/
structure Tracks (confirmations : Nat) (world : World) : Prop where
  number : world.confirmator.confirmationsNumber.toNat = confirmations
  held : ∀ block ∈ world.delivered, tree.Holds block
  linked : Linked tree.parentOf world.delivered
  latest : world.confirmator.latestBlocks = world.window.map Block.info
  short : world.confirmator.latestBlocks.length < confirmations
  filled : world.delivered ≠ [] → world.confirmator.latestBlocks ≠ []

variable {tree} {confirmations : Nat} {world : World} {client : BlockHash → Except Unit Block}
  {block : Block} {handled : Handled} {kept discarded : List Block} {ancestor : Block}

theorem window_eq {front back : List Block} (split : world.delivered = front ++ back)
    (length : world.confirmator.latestBlocks.length = back.length) : world.window = back := by
  have count : world.delivered.length - world.confirmator.latestBlocks.length = front.length := by
    rw [split, length, List.length_append]
    omega
  rw [window, count, split, List.drop_left]

section

variable (tracks : Tracks tree confirmations world)
include tracks

theorem Tracks.split :
    ∃ front, world.delivered = front ++ world.window ∧
      world.confirmator.latestBlocks.length = world.window.length := by
  refine ⟨world.delivered.take
    (world.delivered.length - world.confirmator.latestBlocks.length), ?_, ?_⟩
  · exact (List.take_append_drop _ _).symm
  · conv_lhs => rw [tracks.latest, List.length_map]

theorem Tracks.getLast? :
    world.confirmator.latestBlocks.getLast? = world.delivered.getLast?.map Block.info := by
  obtain ⟨front, split, length⟩ := tracks.split
  rw [tracks.latest, List.getLast?_map]
  cases isLast : world.window.getLast? with
  | none =>
    have empty := List.getLast?_eq_none_iff.mp isLast
    have none : world.delivered = [] := by
      by_contra some
      refine tracks.filled some (List.length_eq_zero_iff.mp ?_)
      rw [length, empty, List.length_nil]
    rw [none]
    rfl
  | some last =>
    rw [split, List.getLast?_append, isLast]
    rfl

/-- A block in order is taken on if it follows the last one, and else starts a reorganization. -/
theorem handleNewBlock_eq (inOrder : world.InOrder tree client block) :
    world.confirmator.handleNewBlock client block =
      if world.follows block then world.confirmator.acceptBlock block.info
      else world.confirmator.handleReorg client block := by
  have last := tracks.getLast?
  unfold handleNewBlock follows
  cases isLast : world.delivered.getLast? with
  | none =>
    rw [isLast, Option.map_none] at last
    rw [last]
    cases block.previousblockhash <;> simp
  | some older =>
    rw [isLast, Option.map_some] at last
    rw [last]
    have next := inOrder.next older isLast
    cases prev : block.previousblockhash with
    | none =>
      have := tree.root _ _ inOrder.held prev
      omega
    | some hash =>
      simp only [Block.info, Option.some.injEq, decide_eq_true_eq]
      by_cases same : older.hash = hash
      · simp [same]
      · simp [same, Ne.symm same]

/-! ### A block that follows -/

omit tracks in
theorem acceptBlock_eq (confirmator : Confirmator) (block : BlockInfo) :
    (confirmator.acceptBlock block).result = .ok () ∧
      (confirmator.acceptBlock block).confirmator.confirmationsNumber =
        confirmator.confirmationsNumber ∧
      (confirmator.acceptBlock block).confirmator.latestBlocks =
        (if (confirmator.latestBlocks ++ [block]).length = confirmator.confirmationsNumber.toNat
          then (confirmator.latestBlocks ++ [block]).tail
          else confirmator.latestBlocks ++ [block]) ∧
      ∀ txids, .confirmedTxs txids ∈ (confirmator.acceptBlock block).sent →
        (confirmator.latestBlocks ++ [block]).length = confirmator.confirmationsNumber.toNat ∧
          ∃ confirmed, (confirmator.latestBlocks ++ [block]).head? = some confirmed ∧
            ∀ txid ∈ txids, txid ∈ confirmed.txs := by
  have mined : ∀ txids, .confirmedTxs txids ∉ handleMinedTxs
      (confirmator.extractWaitingTxsFromBlock block) := by
    intro txids member
    unfold handleMinedTxs at member
    split at member
    · cases member
    · cases List.mem_singleton.mp member
  unfold acceptBlock
  cases shape : confirmator.latestBlocks ++ [block] with
  | nil => simp at shape
  | cons confirmed rest =>
    simp only
    split
    · split
      · exact ⟨rfl, rfl, rfl, fun txids member => absurd member (mined txids)⟩
      · refine ⟨rfl, rfl, rfl, ?_⟩
        intro txids member
        rename_i full _
        rcases List.mem_append.mp member with early | late
        · exact absurd early (mined txids)
        · cases List.mem_singleton.mp late
          exact ⟨full, confirmed, rfl, fun txid isIn => List.mem_of_mem_filter isIn⟩
    · exact ⟨rfl, rfl, rfl, fun txids member => absurd member (mined txids)⟩

theorem Tracks.grown (block : Block) :
    world.confirmator.latestBlocks ++ [block.info] = (world.window ++ [block]).map Block.info := by
  rw [List.map_append, ← tracks.latest, List.map_singleton]

omit tracks in
/-- A state whose window is an end of the delivered chain. -/
theorem tracks_after {delivered older back : List Block} (whole : delivered = older ++ back)
    (latest : handled.confirmator.latestBlocks = back.map Block.info) (nonempty : back ≠ [])
    (few : back.length < confirmations)
    (number : handled.confirmator.confirmationsNumber.toNat = confirmations)
    (held : ∀ other ∈ delivered, tree.Holds other) (linked : Linked tree.parentOf delivered) :
    Tracks tree confirmations (after handled delivered) := by
  have length : handled.confirmator.latestBlocks.length = back.length := by
    rw [latest, List.length_map]
  have window : (after handled delivered).window = back := window_eq whole length
  refine ⟨number, held, linked, ?_, length ▸ few, ?_⟩
  · rw [window]
    exact latest
  · intro _ empty
    have none : back.map Block.info = [] := latest.symm.trans empty
    exact nonempty (List.map_eq_nil_iff.mp none)

theorem Tracks.accept (several : 2 ≤ confirmations) (held : tree.Holds block)
    (follows : world.follows block = true) :
    Tracks tree confirmations (after (world.confirmator.acceptBlock block.info)
      (world.delivered ++ [block])) := by
  obtain ⟨front, split, length⟩ := tracks.split
  obtain ⟨-, sameNumber, latest, -⟩ := acceptBlock_eq world.confirmator block.info
  have short := tracks.short
  have number := (congrArg UInt8.toNat sameNumber).trans tracks.number
  rw [tracks.grown, tracks.number, List.length_map] at latest
  have linked : Linked tree.parentOf (world.delivered ++ [block]) := by
    refine tracks.linked.append ?_
    intro last isLast
    have prev : block.previousblockhash = some last.hash := by
      simpa [World.follows, isLast] using follows
    exact BlockTree.parentOf_eq_some.mpr ⟨held, prev, tracks.held last (List.mem_of_getLast? isLast)⟩
  have allHeld : ∀ other ∈ world.delivered ++ [block], tree.Holds other := by
    intro other member
    rcases List.mem_append.mp member with old | new
    · exact tracks.held other old
    · exact List.mem_singleton.mp new ▸ held
  -- The window holds the new block, and has lost its first one when it was full.
  by_cases full : (world.window ++ [block]).length = confirmations
  · rw [if_pos full, ← List.map_tail] at latest
    cases shape : world.window ++ [block] with
    | nil => simp at shape
    | cons first rest =>
      have whole : world.delivered ++ [block] = (front ++ [first]) ++ rest := by
        rw [split, List.append_assoc, shape]
        simp
      rw [shape] at latest full
      have count : rest.length + 1 = confirmations := full
      exact tracks_after whole latest (List.ne_nil_of_length_pos (by omega)) (by omega) number
        allHeld linked
  · rw [if_neg full] at latest
    have whole : world.delivered ++ [block] = front ++ (world.window ++ [block]) := by
      rw [split, List.append_assoc]
    refine tracks_after whole latest (by simp) ?_ number allHeld linked
    rw [List.length_append, List.length_singleton] at full ⊢
    omega

/-- The blocks of which `ConfirmedTxs` reports transactions have all their confirmations. -/
theorem Tracks.confirmed {txids : List Txid}
    (sent : .confirmedTxs txids ∈ (world.confirmator.acceptBlock block.info).sent) :
    ∃ before confirmed later, world.delivered ++ [block] = before ++ confirmed :: later ∧
      later.length + 1 = confirmations ∧ ∀ txid ∈ txids, txid ∈ confirmed.txs := by
  obtain ⟨front, split, length⟩ := tracks.split
  obtain ⟨-, -, -, confirmed⟩ := acceptBlock_eq world.confirmator block.info
  obtain ⟨full, info, isFirst, txs⟩ := confirmed txids sent
  rw [tracks.grown, tracks.number, List.length_map] at full
  rw [tracks.grown, List.head?_map] at isFirst
  cases shape : world.window ++ [block] with
  | nil => simp at shape
  | cons first rest =>
    rw [shape] at full isFirst
    cases isFirst
    exact ⟨front, first, rest, by rw [split, List.append_assoc, shape], full, txs⟩

/-! ### A block that does not follow -/

omit tracks in
theorem height_pred {below : Block} (next : below.height.val + 1 = block.height.val) :
    block.height - 1 = below.height := by
  apply Fin.ext
  have bound := block.height.isLt
  have one : (1 : Usize).val = 1 := rfl
  rw [Fin.val_sub, one, ← next]
  omega

omit tracks in
/-- The walk of `handle_reorg`. `cursor` is on the chain of the new block, one above the last
block that has not been popped; the walk stops at the first that is on that chain too. -/
theorem reorgLoop_spec (knows : ∀ hash known, tree.find hash = some known → client hash = .ok known)
    (confirmator : Confirmator) (stack : List Block) :
    ∀ (cursor : Block) (reorged : List Txid), tree.Holds cursor →
      (∀ block ∈ stack, tree.Holds block) → Linked tree.parentOf stack.reverse →
      (∀ last, stack.head? = some last → cursor.height.val = last.height.val + 1) →
      (∃ older ∈ stack, Ancestor tree.parentOf older cursor) →
      ∃ discarded ancestor kept, stack = discarded ++ ancestor :: kept ∧
        Ancestor tree.parentOf ancestor cursor ∧
        (∀ block ∈ discarded, ¬ Ancestor tree.parentOf block cursor) ∧
        reorgLoop client confirmator (stack.map Block.info) cursor.previousblockhash
            cursor.height reorged =
          ((ancestor :: kept).map Block.info,
            .ok (reorged ++ discarded.flatMap fun block =>
              confirmator.extractWaitingTxsFromBlock block.info, ancestor.height)) := by
  induction stack with
  | nil =>
    rintro cursor reorged _ _ _ _ ⟨older, member, -⟩
    cases member
  | cons last rest ih =>
    intro cursor reorged held allHeld linked next common
    have level := next last rfl
    obtain ⟨below, isParent⟩ := BlockTree.exists_parent held (by omega)
    have belowNext : below.height.val + 1 = cursor.height.val :=
      BlockTree.ranked cursor below isParent
    obtain ⟨-, prev, belowHeld⟩ := BlockTree.parentOf_eq_some.mp isParent
    rw [prev, List.map_cons, reorgLoop, height_pred belowNext]
    by_cases same : last.info.hash = below.hash
    · rw [if_pos same]
      have equal : last = below := by
        have found := allHeld last List.mem_cons_self
        rw [BlockTree.Holds, show last.hash = below.hash from same, belowHeld] at found
        exact (Option.some.inj found).symm
      subst equal
      exact ⟨[], last, rest, rfl, .of_parent isParent (.self last), by simp, by simp⟩
    · rw [if_neg same]
      -- A block other than the parent, at its height, is not on the chain of the cursor.
      have apart : ¬ Ancestor tree.parentOf last cursor := by
        intro ancestor
        have other : last ≠ cursor := by
          rintro rfl
          omega
        obtain ⟨lower, isParent', path⟩ := Ancestor.proper ancestor other
        rw [isParent] at isParent'
        cases isParent'
        have equal := Ancestor.eq_of_height BlockTree.ranked path
          (show last.height.val = below.height.val by omega)
        exact same (congrArg Block.hash equal)
      rw [List.reverse_cons] at linked
      have lowerNext : ∀ lower, rest.head? = some lower →
          below.height.val = lower.height.val + 1 := by
        intro lower isHead
        have link := (List.isChain_append.mp linked).2.2 lower (by simpa using isHead) last rfl
        have : lower.height.val + 1 = last.height.val := BlockTree.ranked last lower link
        omega
      have lineage : ∀ older ∈ rest, (Ancestor tree.parentOf older cursor ↔
          Ancestor tree.parentOf older below) := by
        intro older member
        constructor
        · intro ancestor
          obtain ⟨lower, isParent', path⟩ := Ancestor.proper ancestor (by
            rintro rfl
            -- Every block of the stack is below the cursor.
            have isLast : (rest.reverse ++ [last]).getLast? = some last := by simp
            have beneath := linked.ancestor_getLast isLast older (by simp [member])
            have : older.height.val ≤ last.height.val := Ancestor.height_le BlockTree.ranked beneath
            omega)
          rw [isParent] at isParent'
          cases isParent'
          exact path
        · exact .of_parent isParent
      obtain ⟨older, member, ancestor⟩ := common
      have deeper : ∃ older ∈ rest, Ancestor tree.parentOf older below := by
        rcases List.mem_cons.mp member with rfl | later
        · exact absurd ancestor apart
        · exact ⟨older, later, (lineage older later).mp ancestor⟩
      rw [knows below.hash below belowHeld]
      obtain ⟨discarded, found, kept, split, isAncestor, none, result⟩ :=
        ih below (reorged ++ confirmator.extractWaitingTxsFromBlock last.info) belowHeld
          (fun block member => allHeld block (List.mem_cons_of_mem _ member)) linked.front
          lowerNext deeper
      refine ⟨last :: discarded, found, kept, by rw [split, List.cons_append], ?_, ?_, ?_⟩
      · exact .of_parent isParent isAncestor
      · intro block member
        rcases List.mem_cons.mp member with rfl | later
        · exact apart
        · rw [lineage block (by rw [split]; exact List.mem_append_left _ later)]
          exact none block later
      · show reorgLoop _ _ _ _ _ _ = _
        rw [result]
        simp

/-- What a reorganization keeps, discards and reports. -/
structure Reorganizes (tree : BlockTree) (world : World) (block : Block) (handled : Handled)
    (kept : List Block) (ancestor : Block) (discarded : List Block) : Prop where
  split : world.window = kept ++ ancestor :: discarded
  common : tree.isAncestor ancestor block = true
  apart : ∀ other ∈ discarded, tree.isAncestor other block = false
  latest : handled.confirmator.latestBlocks = (kept ++ [ancestor]).map Block.info
  number : handled.confirmator.confirmationsNumber = world.confirmator.confirmationsNumber
  result : handled.result = .ok ()
  sent : ∃ txids, handled.sent = [.reorganization txids ancestor.height] ∧
    ∀ txid, txid ∈ txids ↔ (world.confirmator.queue.lookup txid).isSome ∧
      ∃ other ∈ discarded, txid ∈ other.txs

theorem Tracks.handleReorg (inOrder : world.InOrder tree client block)
    (common : ∃ older ∈ world.window, tree.isAncestor older block = true) :
    ∃ kept ancestor discarded, Reorganizes tree world block
      (world.confirmator.handleReorg client block) kept ancestor discarded := by
  obtain ⟨front, split, -⟩ := tracks.split
  have linked : Linked tree.parentOf world.window := by
    have linked := tracks.linked
    rw [split] at linked
    exact (List.isChain_append.mp linked).2.1
  have held : ∀ other ∈ world.window.reverse, tree.Holds other := by
    intro other member
    refine tracks.held other ?_
    rw [split]
    exact List.mem_append_right _ (List.mem_reverse.mp member)
  have next : ∀ last, world.window.reverse.head? = some last →
      block.height.val = last.height.val + 1 := by
    intro last isLast
    rw [List.head?_reverse] at isLast
    refine inOrder.next last ?_
    rw [split, List.getLast?_append, isLast]
    rfl
  obtain ⟨older, member, isAncestor⟩ := common
  obtain ⟨discarded, ancestor, kept, shape, path, apart, walk⟩ :=
    reorgLoop_spec inOrder.client world.confirmator world.window.reverse block [] inOrder.held held
      (by rwa [List.reverse_reverse]) next
      ⟨older, List.mem_reverse.mpr member, BlockTree.isAncestor_iff.mp isAncestor⟩
  have reversed : world.confirmator.latestBlocks.reverse = world.window.reverse.map Block.info := by
    conv_lhs => rw [tracks.latest]
    exact List.map_reverse.symm
  refine ⟨kept.reverse, ancestor, discarded.reverse, ?_⟩
  have handled : world.confirmator.handleReorg client block =
      ⟨{ world.confirmator with
          latestBlocks := ((ancestor :: kept).map Block.info).reverse }.dropFromQueue
            (discarded.flatMap fun other : Block =>
              world.confirmator.extractWaitingTxsFromBlock other.info),
        [.reorganization (discarded.flatMap fun other : Block =>
          world.confirmator.extractWaitingTxsFromBlock other.info) ancestor.height],
        .ok ()⟩ := by
    rw [Confirmator.handleReorg, reversed, walk]
    rfl
  rw [handled]
  refine ⟨?_, ?_, ?_, ?_, rfl, rfl, _, rfl, ?_⟩
  · rw [← List.reverse_reverse world.window, shape]
    simp
  · exact BlockTree.isAncestor_iff.mpr path
  · intro other member
    rw [Bool.eq_false_iff, Ne, BlockTree.isAncestor_iff]
    exact apart other (List.mem_reverse.mp member)
  · show ((ancestor :: kept).map Block.info).reverse = _
    simp
  · intro txid
    simp only [List.mem_flatMap, Confirmator.extractWaitingTxsFromBlock, List.mem_filter,
      List.mem_reverse, Block.info]
    constructor
    · rintro ⟨other, member, inBlock, waiting⟩
      exact ⟨waiting, other, member, inBlock⟩
    · rintro ⟨waiting, other, member, inBlock⟩
      exact ⟨other, member, inBlock, waiting⟩

section

variable (reorganizes : Reorganizes tree world block handled kept ancestor discarded)
  (away : world.follows block = false)
include reorganizes away

/-- The delivered chain is cut back to the common ancestor. -/
theorem Reorganizes.deliver_eq :
    ∃ front, world.deliver tree block = front ++ (kept ++ [ancestor]) ∧
      world.delivered = front ++ (kept ++ [ancestor]) ++ discarded := by
  obtain ⟨front, split, -⟩ := tracks.split
  have whole : world.delivered = front ++ (kept ++ [ancestor]) ++ discarded := by
    rw [split, reorganizes.split]
    simp
  refine ⟨front, ?_, whole⟩
  have linked : Linked tree.parentOf (front ++ (kept ++ [ancestor])) := by
    have linked := tracks.linked
    rw [whole] at linked
    exact linked.front
  -- Every block up to the common ancestor is below it.
  have below : ∀ older ∈ front ++ (kept ++ [ancestor]), tree.isAncestor older block = true := by
    intro older member
    rw [BlockTree.isAncestor_iff]
    exact (linked.ancestor_getLast (by simp) older member).trans
      (BlockTree.isAncestor_iff.mp reorganizes.common)
  rw [World.deliver, if_neg (by simp [away]), whole, List.takeWhile_append_of_pos below]
  cases discarded with
  | nil => simp
  | cons first rest =>
    rw [List.takeWhile_cons_of_neg (by
      simp [reorganizes.apart first List.mem_cons_self]), List.append_nil]

theorem Tracks.reorganize :
    Tracks tree confirmations (after handled (world.deliver tree block)) := by
  obtain ⟨front, cut, whole⟩ := reorganizes.deliver_eq tracks away
  obtain ⟨-, -, length⟩ := tracks.split
  have linked := tracks.linked
  have short := tracks.short
  rw [whole] at linked
  rw [length, reorganizes.split] at short
  rw [cut]
  refine tracks_after rfl reorganizes.latest (by simp) ?_
    ((congrArg UInt8.toNat reorganizes.number).trans tracks.number) ?_ linked.front
  · simp only [List.length_append, List.length_cons, List.length_nil] at short ⊢
    omega
  · intro other member
    refine tracks.held other ?_
    rw [whole]
    exact List.mem_append_left _ member

end

/-! ### Steps and runs -/

theorem Tracks.same_window {other : World} (delivered : other.delivered = world.delivered)
    (latest : other.confirmator.latestBlocks = world.confirmator.latestBlocks)
    (number : other.confirmator.confirmationsNumber = world.confirmator.confirmationsNumber) :
    Tracks tree confirmations other := by
  have window : other.window = world.window := by
    rw [World.window, World.window, delivered, latest]
  refine ⟨?_, ?_, ?_, ?_, ?_, ?_⟩
  · exact number ▸ tracks.number
  · exact delivered ▸ tracks.held
  · exact delivered ▸ tracks.linked
  · rw [latest, window]
    exact tracks.latest
  · exact latest ▸ tracks.short
  · rw [delivered, latest]
    exact tracks.filled

end

theorem Tracks.step (several : 2 ≤ confirmations) (tracks : Tracks tree confirmations world)
    (input : Input) (orderly : world.Orderly tree input) :
    Tracks tree confirmations (world.step tree input) := by
  unfold World.step
  split
  · cases input with
    | block client block =>
      obtain ⟨inOrder, meets⟩ := orderly
      simp only
      rw [handleNewBlock_eq tracks inOrder]
      by_cases follows : world.follows block = true
      · rw [if_pos follows, World.deliver, if_pos follows]
        exact tracks.accept several inOrder.held follows
      · rw [if_neg follows]
        obtain ⟨kept, ancestor, discarded, reorganizes⟩ :=
          tracks.handleReorg inOrder (meets.resolve_left follows)
        exact tracks.reorganize reorganizes (Bool.eq_false_iff.mpr follows)
    | tx now txid answer =>
      simp only [handleTxToConfirm]
      cases answer with
      | notFound | failed => exact tracks.same_window rfl rfl rfl
      | found confirmations =>
        cases confirmations with
        | none => exact tracks.same_window rfl rfl rfl
        | some count =>
          simp only
          split
          · exact tracks.same_window rfl rfl rfl
          · exact tracks.same_window rfl rfl rfl
    | cleanUp now =>
      simp only
      split
      · exact tracks.same_window rfl rfl rfl
      · rename_i cleaned done
        unfold cleanUpWaitingTxs at done
        split at done
        · cases done
        · cases done
          exact tracks.same_window rfl rfl rfl
  · exact tracks

theorem tracks_new (maxConfirmationTime : Nat) (confirmations : UInt8)
    (several : 2 ≤ confirmations.toNat) :
    Tracks tree confirmations.toNat (new maxConfirmationTime confirmations) := by
  refine ⟨rfl, ?_, List.isChain_nil, rfl, ?_, ?_⟩
  · intro block member
    cases member
  · show 0 < _
    omega
  · intro nonempty
    exact absurd rfl nonempty

/-- In every run in which each block comes at the height after the last one and its chain meets
the window, the window is an end of the delivered chain of fewer blocks than the confirmations
asked for; transactions are reported confirmed when their block has that many; and a block that
does not follow cuts the window back to the last common ancestor, and reports its height and
the waiting transactions of the blocks cut off. -/
theorem window_tracks_chain (tree : BlockTree) (maxConfirmationTime : Nat)
    (confirmations : UInt8) (several : 2 ≤ confirmations.toNat) (inputs : List Input)
    (orderly : AllSteps (step tree) (Orderly tree) (new maxConfirmationTime confirmations) inputs) :
    let world := runFrom (step tree) (new maxConfirmationTime confirmations) inputs
    Tracks tree confirmations.toNat world ∧
      ∀ client block, world.InOrder tree client block → world.MeetsWindow tree block →
        let handled := world.confirmator.handleNewBlock client block
        handled.result = .ok () ∧
          (∀ txids, .confirmedTxs txids ∈ handled.sent →
            ∃ before confirmed later,
              world.deliver tree block = before ++ confirmed :: later ∧
                later.length + 1 = confirmations.toNat ∧
                ∀ txid ∈ txids, txid ∈ confirmed.txs) ∧
          (world.follows block = false →
            ∃ kept ancestor discarded,
              Reorganizes tree world block handled kept ancestor discarded) := by
  intro world
  have tracks : Tracks tree confirmations.toNat world :=
    orderly.invariant (fun _ input tracks orderly => tracks.step several input orderly)
      (tracks_new maxConfirmationTime confirmations several)
  refine ⟨tracks, ?_⟩
  intro client block inOrder meets
  show Handled.result (world.confirmator.handleNewBlock client block) = _ ∧ _
  rw [handleNewBlock_eq tracks inOrder]
  by_cases follows : world.follows block = true
  · rw [if_pos follows, World.deliver, if_pos follows]
    refine ⟨(acceptBlock_eq world.confirmator block.info).1, ?_, ?_⟩
    · intro txids sent
      exact tracks.confirmed sent
    · intro away
      simp [follows] at away
  · rw [if_neg follows]
    obtain ⟨kept, ancestor, discarded, reorganizes⟩ :=
      tracks.handleReorg inOrder (meets.resolve_left follows)
    refine ⟨reorganizes.result, ?_, fun _ => ⟨kept, ancestor, discarded, reorganizes⟩⟩
    intro txids sent
    obtain ⟨reorged, isSent, -⟩ := reorganizes.sent
    rw [isSent] at sent
    cases List.mem_singleton.mp sent

theorem inOrder_client (held : tree.Holds block)
    (next : ∀ last ∈ world.delivered.getLast?, block.height.val = last.height.val + 1) :
    world.InOrder tree tree.client block := by
  refine ⟨held, next, ?_⟩
  intro hash known found
  rw [BlockTree.client, found]

end World

/-- The block of the given height on the first chain of `forked`. -/
def firstChain (height : Fin 10) : Block :=
  ⟨height, if height = 0 then none else some (height - 1), height.castLE (by decide), []⟩

/-- The block of the given height on the second chain, which leaves the first at its start. -/
def secondChain (height : Fin 10) : Block :=
  ⟨10 + height, if height = 1 then some 0 else some (9 + height), height.castLE (by decide), []⟩

def forked : BlockTree :=
  .ofBlocks [firstChain 0, firstChain 1, firstChain 2,
    secondChain 1, secondChain 2, secondChain 3] (by decide)

namespace World

/-- A fork of one block, with three confirmations. -/
theorem window_tracks_chain_forked :
    let inputs := [firstChain 0, firstChain 1].map (Input.block forked.client)
    let world := runFrom (step forked) (new 0 3) inputs
    AllSteps (step forked) (Orderly forked) (new 0 3) inputs ∧
      world.follows (secondChain 2) = false ∧
      ∃ kept ancestor discarded, Reorganizes forked world (secondChain 2)
        (world.confirmator.handleNewBlock forked.client (secondChain 2)) kept ancestor
        discarded := by
  have orderly : AllSteps (step forked) (Orderly forked) (new 0 3)
      ([firstChain 0, firstChain 1].map (Input.block forked.client)) := by
    refine ⟨⟨inOrder_client ?_ ?_, Or.inl ?_⟩, ⟨inOrder_client ?_ ?_, Or.inl ?_⟩, trivial⟩
    all_goals decide +kernel
  have tracked := (window_tracks_chain forked 0 3 (by decide) _ orderly).2 forked.client
    (secondChain 2) (inOrder_client (by decide +kernel) (by decide +kernel))
    (Or.inr (by decide +kernel))
  exact ⟨orderly, by decide +kernel, tracked.2.2 (by decide +kernel)⟩

/-- A fork of two blocks, with three confirmations: the window holds the last two blocks only,
so the common ancestor has left it, and the node is cancelled. -/
theorem fork_below_window :
    let inputs := [firstChain 0, firstChain 1, firstChain 2].map (Input.block forked.client)
    let world := runFrom (step forked) (new 0 3) inputs
    AllSteps (step forked) (Orderly forked) (new 0 3) inputs ∧
      world.delivered = [firstChain 0, firstChain 1, firstChain 2] ∧
      world.InOrder forked forked.client (secondChain 3) ∧
      forked.isAncestor (firstChain 0) (secondChain 3) = true ∧
      (world.confirmator.handleNewBlock forked.client (secondChain 3)).result =
        .error .forkTooBig := by
  refine ⟨⟨⟨inOrder_client ?_ ?_, Or.inl ?_⟩, ⟨inOrder_client ?_ ?_, Or.inl ?_⟩,
    ⟨inOrder_client ?_ ?_, Or.inl ?_⟩, trivial⟩, ?_, inOrder_client ?_ ?_, ?_, rfl⟩
  all_goals decide +kernel

end World

end Lrc20.TxConfirm
