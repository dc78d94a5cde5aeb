import Lrc20.TxConfirm.Tracking

/-! The indexer, the confirmator and the controller, with the messages in flight between them. -/

open Ancestry Runs

namespace Lrc20.TxConfirm

open BlockTree ControllerMessage World

namespace BlockTree

variable (tree : BlockTree)

/-- The chain of a block, from its start. -/
def chain (tip : Block) : List Block := (tree.lineage tip.height.val tip).reverse

/-- `get_block_by_height` for the given best chain. -/
def getBlockByHeight (tip : Block) (height : Nat) : Option Block :=
  (tree.lineage tip.height.val tip).find? fun block => block.height.val = height

variable {tree} {block tip : Block} {height : Nat}

theorem holds_of_ancestor {below : Block} (held : tree.Holds block)
    (ancestor : Ancestor tree.parentOf below block) : tree.Holds below := by
  induction ancestor with
  | refl => exact held
  | tail _ isParent ih => exact ih (parentOf_eq_some.mp isParent).2.2

theorem exists_ancestor (distance : Nat) : ∀ {block : Block} {height : Nat}, tree.Holds block →
    block.height.val = height + distance →
      ∃ below, Ancestor tree.parentOf below block ∧ below.height.val = height := by
  induction distance with
  | zero =>
    intro block height _ level
    exact ⟨block, .self block, level⟩
  | succ distance ih =>
    intro block height held level
    obtain ⟨lower, isParent⟩ := exists_parent held (by omega)
    have next : lower.height.val + 1 = block.height.val := ranked _ _ isParent
    obtain ⟨below, ancestor, found⟩ := ih (parentOf_eq_some.mp isParent).2.2
      (show lower.height.val = height + distance by omega)
    exact ⟨below, .of_parent isParent ancestor, found⟩

theorem getBlockByHeight_spec (found : tree.getBlockByHeight tip height = some block) :
    Ancestor tree.parentOf block tip ∧ block.height.val = height := by
  refine ⟨?_, by simpa using List.find?_some found⟩
  exact (mem_lineage _ (by omega)).mp (List.mem_of_find?_eq_some found)

theorem getBlockByHeight_isSome (held : tree.Holds tip) (within : height ≤ tip.height.val) :
    ∃ block, tree.getBlockByHeight tip height = some block := by
  obtain ⟨below, ancestor, level⟩ := exists_ancestor (tip.height.val - height) held
    (show tip.height.val = height + (tip.height.val - height) by omega)
  have member := (mem_lineage tip.height.val (by omega)).mpr ancestor
  have isSome : (tree.getBlockByHeight tip height).isSome = true := by
    rw [getBlockByHeight, List.find?_isSome]
    exact ⟨below, member, by simpa using level⟩
  exact Option.isSome_iff_exists.mp isSome

/-- A linked list that ends in a block is the end of its chain. -/
theorem suffix_lineage (blocks : List Block) : ∀ {tip : Block} {fuel : Nat},
    tip.height.val ≤ fuel → Linked tree.parentOf blocks → blocks.getLast? = some tip →
      blocks <:+ (tree.lineage fuel tip).reverse := by
  induction blocks using List.reverseRecOn with
  | nil =>
    intro tip fuel low linked isLast
    cases isLast
  | append_singleton front last ih =>
    intro tip fuel low linked isLast
    cases List.getLast?_concat.symm.trans isLast
    cases isPrevious : front.getLast? with
    | none =>
      rw [List.getLast?_eq_none_iff.mp isPrevious]
      cases fuel <;> simp [lineage]
    | some previous =>
      have link := (List.isChain_append.mp linked).2.2 previous isPrevious last rfl
      have next : previous.height.val + 1 = last.height.val := ranked _ _ link
      obtain ⟨lower, rfl⟩ : ∃ lower, fuel = lower + 1 := ⟨fuel - 1, by omega⟩
      obtain ⟨older, whole⟩ := ih (show previous.height.val ≤ lower by omega) linked.front isPrevious
      rw [lineage, link, List.reverse_cons]
      exact ⟨older, by rw [← List.append_assoc, whole]⟩

end BlockTree

/-- The state of the tasks. The controller passes a `Reorganization` on to the indexer. -/
structure Node where
  world : World
  /-- `TxConfirmMessage::Block`s on their way to the confirmator. -/
  blocks : List Block
  /-- Heights of the `Reorganization`s on their way to the controller. -/
  controller : List Usize
  /-- Those on their way from the controller to the indexer. -/
  events : List Usize
  confirmedBlockHeight : Usize
  confirmedBlockHash : Option BlockHash
  /-- The last block of the best chain. -/
  tip : Block

/-- What happens next: which task goes on, or what the Bitcoin network does. -/
inductive Move where
  /-- Another chain becomes the best one. -/
  | bestChain (tip : Block)
  /-- The indexer polls; the count may have been read before the best chain changed. -/
  | poll (bestBlockHeight : Nat)
  /-- The indexer handles a `Reorganization`. -/
  | event
  | controller
  /-- The confirmator handles the next block. -/
  | confirm
  | tx (now : Nat) (txid : Txid) (answer : RawTransactionInfo)
  | cleanUp (now : Nat)

def ControllerMessage.newIndexingHeight : ControllerMessage → Option Usize
  | .reorganization _ newIndexingHeight => some newIndexingHeight
  | _ => none

namespace Node

variable (tree : BlockTree)

/-- The node after `init`, which has sent the confirmator the blocks it indexed. -/
def new (maxConfirmationTime : Nat) (confirmationsNumber : UInt8) (initial : List Block)
    (confirmed tip : Block) : Node :=
  ⟨.new maxConfirmationTime confirmationsNumber, initial, [], [], confirmed.height,
    some confirmed.hash, tip⟩

section

variable (node : Node)

def handleNewBlocks (bestBlockHeight : Nat) : Node :=
  if bestBlockHeight = node.confirmedBlockHeight.val then node
  else match tree.getBlockByHeight node.tip (node.confirmedBlockHeight.val + 1) with
    | none => node
    | some block =>
      if node.confirmedBlockHash = some block.hash then node
      else { node with
        blocks := node.blocks ++ [block]
        confirmedBlockHeight := block.height
        confirmedBlockHash := some block.hash }

def handleReorganization (newHeight : Usize) : Node :=
  match tree.getBlockByHeight node.tip newHeight.val with
  | none => { node with confirmedBlockHeight := newHeight }
  | some block =>
    { node with confirmedBlockHeight := newHeight, confirmedBlockHash := some block.hash }

def handleEvent : Node :=
  match node.events with
  | [] => node
  | newHeight :: rest => { node with events := rest }.handleReorganization tree newHeight

/-- The controller's `handle_reorganization`. -/
def passOn : Node :=
  match node.controller with
  | [] => node
  | newHeight :: rest => { node with controller := rest, events := node.events ++ [newHeight] }

def confirm : Node :=
  match node.blocks with
  | [] => node
  | block :: rest =>
    { node with
      world := node.world.step tree (.block tree.client block)
      blocks := rest
      controller := node.controller ++
        (node.world.confirmator.handleNewBlock tree.client block).sent.filterMap newIndexingHeight }

/-- A failure of the confirmator cancels the node: nothing happens any more. -/
def step (move : Move) : Node :=
  if node.world.running then
    match move with
    | .bestChain tip => { node with tip }
    | .poll bestBlockHeight => node.handleNewBlocks tree bestBlockHeight
    | .event => node.handleEvent tree
    | .controller => node.passOn
    | .confirm => node.confirm tree
    | .tx now txid answer => { node with world := node.world.step tree (.tx now txid answer) }
    | .cleanUp now => { node with world := node.world.step tree (.cleanUp now) }
  else node

/-- The blocks given to the confirmator that it has not taken back, and those in flight. -/
def sentBlocks : List Block := node.world.delivered ++ node.blocks

/-- No reorganization is under way: none is in flight, and every block in flight follows the
one before it. -/
structure Quiet (node : Node) : Prop where
  controller : node.controller = []
  events : node.events = []
  linked : Linked tree.parentOf node.sentBlocks

instance (node : Node) : Decidable (node.Quiet tree) :=
  decidable_of_iff (node.controller = [] ∧ node.events = [] ∧ Linked tree.parentOf node.sentBlocks)
    ⟨fun all => ⟨all.1, all.2.1, all.2.2⟩, fun quiet => ⟨quiet.1, quiet.2, quiet.3⟩⟩

/-- The schedules under which the reorganizations are handled: the indexer gets no next block
while one is under way, the confirmator still knows a common ancestor, and a new best chain is
higher than the indexer. -/
def Scheduled : Move → Prop
  | .bestChain tip => tree.Holds tip ∧ node.confirmedBlockHeight.val < tip.height.val
  | .poll bestBlockHeight => node.Quiet tree ∨
      bestBlockHeight = node.confirmedBlockHeight.val ∨
      node.tip.height.val ≤ node.confirmedBlockHeight.val
  | .confirm => ∀ block ∈ node.blocks.head?, node.world.MeetsWindow tree block
  | _ => True

end

instance (node : Node) : ∀ move, Decidable (node.Scheduled tree move)
  | .bestChain _ => inferInstanceAs (Decidable (_ ∧ _))
  | .poll _ => inferInstanceAs (Decidable (_ ∨ _ ∨ _))
  | .confirm => inferInstanceAs (Decidable (∀ block ∈ node.blocks.head?, _))
  | .event | .controller | .tx .. | .cleanUp _ => .isTrue trivial

/-- Every message has been handled, and the indexer finds no new block. -/
structure AtRest (node : Node) : Prop where
  blocks : node.blocks = []
  controller : node.controller = []
  events : node.events = []
  polled : node.handleNewBlocks tree node.tip.height.val = node

/-- What a node starts from. -/
structure Starts (initial : List Block) (confirmed tip : Block) : Prop where
  held : ∀ block ∈ initial, tree.Holds block
  linked : Linked tree.parentOf initial
  last : ∀ last ∈ initial.getLast?, last = confirmed
  heldConfirmed : tree.Holds confirmed
  heldTip : tree.Holds tip
  below : confirmed.height.val ≤ tip.height.val
  same : confirmed.height.val = tip.height.val → confirmed = tip

/-! ### The phases of a reorganization -/

/-- No reorganization is under way, and the indexer is at the last block sent. -/
structure Settled (node : Node) : Prop where
  quiet : node.Quiet tree
  height : ∀ last ∈ node.sentBlocks.getLast?, last.height = node.confirmedBlockHeight
  atTip : node.tip.height.val = node.confirmedBlockHeight.val →
    ∀ last ∈ node.sentBlocks.getLast?, last = node.tip

/-- The last block in flight does not follow the one before it. -/
structure Departing (node : Node) (front : List Block) (last odd : Block) : Prop where
  controller : node.controller = []
  events : node.events = []
  blocks : node.blocks = front ++ [odd]
  linked : Linked tree.parentOf (node.world.delivered ++ front)
  isLast : (node.world.delivered ++ front).getLast? = some last
  next : odd.height.val = last.height.val + 1
  away : odd.previousblockhash ≠ some last.hash
  height : odd.height = node.confirmedBlockHeight

/-- The confirmator is back at a common ancestor and the indexer is being told. -/
structure Returning (node : Node) (ancestor : Block) : Prop where
  flight : node.controller = [ancestor.height] ∧ node.events = [] ∨
    node.controller = [] ∧ node.events = [ancestor.height]
  blocks : node.blocks = []
  linked : Linked tree.parentOf node.world.delivered
  isLast : node.world.delivered.getLast? = some ancestor
  below : ancestor.height.val < node.confirmedBlockHeight.val

structure Invariant (confirmations : Nat) (node : Node) : Prop where
  tracks : node.world.Tracks tree confirmations
  held : ∀ block ∈ node.blocks, tree.Holds block
  tip : tree.Holds node.tip
  below : node.confirmedBlockHeight.val ≤ node.tip.height.val
  hash : ∀ hash, node.confirmedBlockHash = some hash →
    ∃ block, tree.find hash = some block ∧ block.height = node.confirmedBlockHeight
  phase : node.Settled tree ∨ (∃ front last odd, node.Departing tree front last odd) ∨
    ∃ ancestor, node.Returning tree ancestor

variable {tree} {confirmations : Nat} {node : Node} {block : Block} {rest : List Block}
  {tip confirmed : Block} {initial : List Block} {world : World}

theorem invariant_new (maxConfirmationTime : Nat) (confirmations : UInt8)
    (several : 2 ≤ confirmations.toNat) (starts : Starts tree initial confirmed tip) :
    Invariant tree confirmations.toNat
      (new maxConfirmationTime confirmations initial confirmed tip) where
  tracks := tracks_new maxConfirmationTime confirmations several
  held := starts.held
  tip := starts.heldTip
  below := starts.below
  hash := by
    intro hash isHash
    cases isHash
    exact ⟨confirmed, starts.heldConfirmed, rfl⟩
  phase := by
    refine Or.inl ⟨⟨rfl, rfl, starts.linked⟩, ?_, ?_⟩
    · intro last isLast
      exact congrArg Block.height (starts.last last isLast)
    · intro level last isLast
      exact (starts.last last isLast).trans (starts.same level.symm)

section

variable (several : 2 ≤ confirmations) (inv : Invariant tree confirmations node)
include inv

/-- A quiet node is settled: in the other phases something is in flight or does not link. -/
theorem Invariant.settled (quiet : node.Quiet tree) : node.Settled tree := by
  rcases inv.phase with settled | ⟨front, last, odd, departing⟩ | ⟨ancestor, returning⟩
  · exact settled
  · have linked := quiet.linked
    rw [sentBlocks, departing.blocks, ← List.append_assoc] at linked
    have link := (List.isChain_append.mp linked).2.2 last departing.isLast odd rfl
    exact absurd (parentOf_eq_some.mp link).2.1 departing.away
  · rcases returning.flight with ⟨flies, -⟩ | ⟨-, flies⟩
    · rw [quiet.controller] at flies
      cases flies
    · rw [quiet.events] at flies
      cases flies

/-! ### The indexer -/

theorem handleNewBlocks_cases (bestBlockHeight : Nat) :
    node.handleNewBlocks tree bestBlockHeight = node ∧
        (bestBlockHeight = node.confirmedBlockHeight.val ∨
          node.tip.height.val ≤ node.confirmedBlockHeight.val) ∨
      bestBlockHeight ≠ node.confirmedBlockHeight.val ∧
      ∃ block, Ancestor tree.parentOf block node.tip ∧
        block.height.val = node.confirmedBlockHeight.val + 1 ∧
        node.handleNewBlocks tree bestBlockHeight = { node with
          blocks := node.blocks ++ [block]
          confirmedBlockHeight := block.height
          confirmedBlockHash := some block.hash } := by
  unfold handleNewBlocks
  split
  · rename_i same
    exact Or.inl ⟨rfl, Or.inl same⟩
  · rename_i other
    cases found : tree.getBlockByHeight node.tip (node.confirmedBlockHeight.val + 1) with
    | none =>
      refine Or.inl ⟨rfl, Or.inr ?_⟩
      by_contra higher
      obtain ⟨block, isBlock⟩ := getBlockByHeight_isSome inv.tip
        (show node.confirmedBlockHeight.val + 1 ≤ node.tip.height.val by omega)
      rw [found] at isBlock
      cases isBlock
    | some block =>
      obtain ⟨ancestor, level⟩ := getBlockByHeight_spec found
      have held := holds_of_ancestor inv.tip ancestor
      -- The last hash is that of a block at another height.
      have fresh : node.confirmedBlockHash ≠ some block.hash := by
        intro same
        obtain ⟨confirmed, isBlock, height⟩ := inv.hash block.hash same
        rw [held] at isBlock
        cases isBlock
        have := congrArg Fin.val height
        omega
      refine Or.inr ⟨other, block, ancestor, level, ?_⟩
      simp only
      rw [if_neg fresh]

omit inv in
/-- The block after the last one either follows it or departs from it. -/
theorem Settled.sent (settled : node.Settled tree) (held : tree.Holds block)
    (allHeld : ∀ other ∈ node.sentBlocks, tree.Holds other)
    (level : block.height.val = node.confirmedBlockHeight.val + 1) :
    Linked tree.parentOf (node.sentBlocks ++ [block]) ∨
      ∃ last, node.sentBlocks.getLast? = some last ∧
        block.height.val = last.height.val + 1 ∧ block.previousblockhash ≠ some last.hash := by
  cases isLast : node.sentBlocks.getLast? with
  | none =>
    left
    refine settled.quiet.linked.append ?_
    intro last isLast'
    rw [isLast] at isLast'
    cases isLast'
  | some last =>
    have lastHeld := allHeld last (List.mem_of_getLast? isLast)
    have height := congrArg Fin.val (settled.height last isLast)
    by_cases follows : block.previousblockhash = some last.hash
    · left
      refine settled.quiet.linked.append ?_
      intro last' isLast'
      rw [isLast] at isLast'
      cases isLast'
      exact parentOf_eq_some.mpr ⟨held, follows, lastHeld⟩
    · exact Or.inr ⟨last, rfl, by omega, follows⟩

theorem Invariant.allHeld : ∀ block ∈ node.sentBlocks, tree.Holds block := by
  intro block member
  rcases List.mem_append.mp member with old | new
  · exact inv.tracks.held block old
  · exact inv.held block new

theorem Invariant.handleNewBlocks
    {bestBlockHeight : Nat} (scheduled : node.Scheduled tree (.poll bestBlockHeight)) :
    Invariant tree confirmations (node.handleNewBlocks tree bestBlockHeight) := by
  rcases handleNewBlocks_cases inv bestBlockHeight with ⟨same, -⟩ |
    ⟨other, block, ancestor, level, got⟩
  · rw [same]
    exact inv
  · have held := holds_of_ancestor inv.tip ancestor
    have reached : block.height.val ≤ node.tip.height.val :=
      Ancestor.height_le BlockTree.ranked ancestor
    have quiet : node.Quiet tree := by
      rcases scheduled with quiet | same | high
      · exact quiet
      · exact absurd same other
      · omega
    have settled := inv.settled quiet
    rw [got]
    refine ⟨inv.tracks, ?_, inv.tip, reached, ?_, ?_⟩
    · intro sent member
      rcases List.mem_append.mp member with old | new
      · exact inv.held sent old
      · exact List.mem_singleton.mp new ▸ held
    · intro hash isHash
      cases isHash
      exact ⟨block, held, rfl⟩
    · rcases settled.sent held inv.allHeld level with linked | ⟨last, isLast, next, away⟩
      · have whole : ∀ later ∈ (node.world.delivered ++ (node.blocks ++ [block])).getLast?,
            later = block := by
          intro later isLater
          rw [← List.append_assoc, List.getLast?_concat] at isLater
          exact (Option.some.inj isLater).symm
        refine Or.inl ⟨⟨quiet.controller, quiet.events, ?_⟩, ?_, ?_⟩
        · rw [sentBlocks, List.append_assoc] at linked
          exact linked
        · intro later isLater
          exact congrArg Block.height (whole later isLater)
        · intro atTip later isLater
          rw [whole later isLater]
          exact Ancestor.eq_of_height BlockTree.ranked ancestor atTip.symm
      · exact Or.inr (Or.inl ⟨node.blocks, last, block, quiet.controller, quiet.events, rfl,
          quiet.linked, isLast, next, away, rfl⟩)

/-- Told of a common ancestor, the indexer goes on from there. -/
theorem Invariant.handleEvent : Invariant tree confirmations (node.handleEvent tree) := by
  unfold Node.handleEvent
  cases flies : node.events with
  | nil => exact inv
  | cons newHeight rest =>
    rcases inv.phase with settled | ⟨front, last, odd, departing⟩ | ⟨ancestor, returning⟩
    · rw [settled.quiet.events] at flies
      cases flies
    · rw [departing.events] at flies
      cases flies
    · rcases returning.flight with ⟨-, none⟩ | ⟨idle, one⟩
      · rw [none] at flies
        cases flies
      · rw [one] at flies
        cases flies
        have below := inv.below
        have lower := returning.below
        obtain ⟨block, found⟩ := getBlockByHeight_isSome inv.tip
          (show ancestor.height.val ≤ node.tip.height.val by omega)
        obtain ⟨path, level⟩ := getBlockByHeight_spec found
        simp only [handleReorganization, found]
        refine ⟨inv.tracks, inv.held, inv.tip, ?_, ?_, ?_⟩
        · show ancestor.height.val ≤ node.tip.height.val
          omega
        · intro hash isHash
          cases isHash
          exact ⟨block, holds_of_ancestor inv.tip path, Fin.ext level⟩
        · have sent : ∀ last ∈ (node.world.delivered ++ node.blocks).getLast?, last = ancestor := by
            intro last isLast
            rw [returning.blocks, List.append_nil, returning.isLast] at isLast
            exact (Option.some.inj isLast).symm
          refine Or.inl ⟨⟨idle, rfl, ?_⟩, ?_, ?_⟩
          · show Linked tree.parentOf (node.world.delivered ++ node.blocks)
            rw [returning.blocks, List.append_nil]
            exact returning.linked
          · intro last isLast
            exact congrArg Block.height (sent last isLast)
          · intro level
            have : node.tip.height.val = ancestor.height.val := level
            omega

/-! ### The controller and the best chain -/

theorem Invariant.passOn : Invariant tree confirmations node.passOn := by
  unfold Node.passOn
  cases flies : node.controller with
  | nil => exact inv
  | cons newHeight rest =>
    rcases inv.phase with settled | ⟨front, last, odd, departing⟩ | ⟨ancestor, returning⟩
    · rw [settled.quiet.controller] at flies
      cases flies
    · rw [departing.controller] at flies
      cases flies
    · rcases returning.flight with ⟨one, none⟩ | ⟨idle, -⟩
      · rw [one] at flies
        cases flies
        refine { inv with phase := Or.inr (Or.inr ⟨ancestor, { returning with flight := ?_ }⟩) }
        refine Or.inr ⟨rfl, ?_⟩
        show node.events ++ [ancestor.height] = _
        rw [none, List.nil_append]
      · rw [idle] at flies
        cases flies

theorem Invariant.bestChain (scheduled : node.Scheduled tree (.bestChain tip)) :
    Invariant tree confirmations { node with tip } := by
  obtain ⟨held, higher⟩ := scheduled
  refine { inv with tip := held, below := Nat.le_of_lt higher, phase := ?_ }
  rcases inv.phase with settled | ⟨front, last, odd, departing⟩ | ⟨ancestor, returning⟩
  · refine Or.inl ⟨{ settled.quiet with }, settled.height, ?_⟩
    intro level
    have : tip.height.val = node.confirmedBlockHeight.val := level
    omega
  · exact Or.inr (Or.inl ⟨front, last, odd, { departing with }⟩)
  · exact Or.inr (Or.inr ⟨ancestor, { returning with }⟩)

/-! ### The confirmator -/

omit inv in
theorem acceptBlock_sends_no_height (confirmator : Confirmator) (block : BlockInfo) :
    (confirmator.acceptBlock block).sent.filterMap newIndexingHeight = [] := by
  have mined : (Confirmator.handleMinedTxs
      (confirmator.extractWaitingTxsFromBlock block)).filterMap newIndexingHeight = [] := by
    unfold Confirmator.handleMinedTxs
    split
    · rfl
    · rfl
  unfold Confirmator.acceptBlock
  cases confirmator.latestBlocks ++ [block] with
  | nil => exact mined
  | cons confirmed rest =>
    simp only
    split
    · split
      · exact mined
      · rw [List.filterMap_append, mined]
        rfl
    · exact mined

omit inv in
theorem follows_of_linked (held : tree.Holds block)
    (linked : Linked tree.parentOf (world.delivered ++ block :: rest)) :
    world.InOrder tree tree.client block ∧ world.follows block = true := by
  have link : ∀ last, world.delivered.getLast? = some last → tree.parentOf block = some last := by
    intro last isLast
    exact (List.isChain_append.mp linked).2.2 last isLast block rfl
  constructor
  · refine inOrder_client held ?_
    intro last isLast
    exact (BlockTree.ranked block last (link last isLast)).symm
  · unfold follows
    cases isLast : world.delivered.getLast? with
    | none => rfl
    | some last => simpa using (parentOf_eq_some.mp (link last isLast)).2.1

/-- The next block for the confirmator is in order. It follows the last one delivered, unless
it is the one that departs. -/
theorem Invariant.next (isNext : node.blocks = block :: rest) :
    node.world.InOrder tree tree.client block ∧
      (node.world.follows block = true ∨
        ∃ last, node.Departing tree [] last block ∧ rest = []) := by
  have held := inv.held block (by rw [isNext]; exact List.mem_cons_self)
  rcases inv.phase with settled | ⟨front, last, odd, departing⟩ | ⟨ancestor, returning⟩
  · have linked := settled.quiet.linked
    rw [sentBlocks, isNext] at linked
    obtain ⟨inOrder, follows⟩ := follows_of_linked held linked
    exact ⟨inOrder, Or.inl follows⟩
  · cases front with
    | nil =>
      have blocks := departing.blocks
      rw [isNext, List.nil_append, List.cons.injEq] at blocks
      obtain ⟨rfl, rfl⟩ := blocks
      refine ⟨inOrder_client held ?_, Or.inr ⟨last, departing, rfl⟩⟩
      intro last' isLast
      have isLast' := departing.isLast
      rw [List.append_nil, isLast] at isLast'
      cases isLast'
      exact departing.next
    | cons first front =>
      have blocks := departing.blocks
      rw [isNext, List.cons_append, List.cons.injEq] at blocks
      obtain ⟨rfl, rfl⟩ := blocks
      obtain ⟨inOrder, follows⟩ := follows_of_linked held departing.linked
      exact ⟨inOrder, Or.inl follows⟩
  · rw [returning.blocks] at isNext
    cases isNext

theorem confirm_follows (running : node.world.running = true) (isNext : node.blocks = block :: rest)
    (inOrder : node.world.InOrder tree tree.client block)
    (follows : node.world.follows block = true) :
    node.confirm tree = { node with
      world := .after (node.world.confirmator.acceptBlock block.info)
        (node.world.delivered ++ [block])
      blocks := rest } := by
  simp only [confirm, isNext, World.step, running, if_true, deliver, follows,
    handleNewBlock_eq inv.tracks inOrder, acceptBlock_sends_no_height, List.append_nil]

include several in
theorem Invariant.confirm_follows (running : node.world.running = true)
    (isNext : node.blocks = block :: rest) (inOrder : node.world.InOrder tree tree.client block)
    (follows : node.world.follows block = true) :
    Invariant tree confirmations (node.confirm tree) := by
  have whole : ∀ back, node.world.delivered ++ [block] ++ back =
      node.world.delivered ++ block :: back := by simp
  rw [Node.confirm_follows inv running isNext inOrder follows]
  refine ⟨inv.tracks.accept several inOrder.held follows, ?_, inv.tip, inv.below, inv.hash, ?_⟩
  · intro other member
    refine inv.held other ?_
    rw [isNext]
    exact List.mem_cons_of_mem _ member
  · have sent : node.sentBlocks = node.world.delivered ++ [block] ++ rest := by
      rw [sentBlocks, isNext, whole]
    rcases inv.phase with settled | ⟨front, last, odd, departing⟩ | ⟨ancestor, returning⟩
    · have linked := settled.quiet.linked
      have height := settled.height
      have atTip := settled.atTip
      rw [sent] at linked height atTip
      exact Or.inl ⟨⟨settled.quiet.controller, settled.quiet.events, linked⟩, height, atTip⟩
    · cases front with
      | nil =>
        -- The block that departs does not follow.
        have blocks := departing.blocks
        rw [isNext, List.nil_append, List.cons.injEq] at blocks
        obtain ⟨rfl, rfl⟩ := blocks
        have isLast := departing.isLast
        rw [List.append_nil] at isLast
        have prev : block.previousblockhash = some last.hash := by
          simpa [World.follows, isLast] using follows
        exact absurd prev departing.away
      | cons first front =>
        have blocks := departing.blocks
        rw [isNext, List.cons_append, List.cons.injEq] at blocks
        obtain ⟨rfl, rfl⟩ := blocks
        have linked := departing.linked
        have isLast := departing.isLast
        rw [← whole] at linked isLast
        exact Or.inr (Or.inl ⟨front, last, odd, { departing with blocks := rfl, linked, isLast }⟩)
    · rw [returning.blocks] at isNext
      cases isNext

/-- At the block that departs the confirmator goes back to a common ancestor. -/
theorem Invariant.confirm_departs (running : node.world.running = true) {last : Block}
    (departing : node.Departing tree [] last block)
    (inOrder : node.world.InOrder tree tree.client block)
    (meets : node.world.MeetsWindow tree block) :
    Invariant tree confirmations (node.confirm tree) := by
  have isLast := departing.isLast
  rw [List.append_nil] at isLast
  have away : node.world.follows block = false := by
    simpa [follows, isLast] using departing.away
  have common := meets.resolve_left (by rw [away]; exact Bool.false_ne_true)
  obtain ⟨kept, ancestor, discarded, reorganizes⟩ := inv.tracks.handleReorg inOrder common
  obtain ⟨txids, isSent, -⟩ := reorganizes.sent
  obtain ⟨front, cut, whole⟩ := reorganizes.deliver_eq inv.tracks away
  have confirmed : node.confirm tree = { node with
      world := .after (node.world.confirmator.handleReorg tree.client block)
        (node.world.deliver tree block)
      blocks := []
      controller := [ancestor.height] } := by
    have blocks : node.blocks = [block] := departing.blocks
    have heights : (reorganization txids ancestor.height).newIndexingHeight =
      some ancestor.height := rfl
    simp only [confirm, blocks, World.step, running, if_true, away, Bool.false_eq_true, if_false,
      handleNewBlock_eq inv.tracks inOrder, isSent, departing.controller, List.nil_append,
      List.filterMap_cons, List.filterMap_nil, heights]
  have linked : Linked tree.parentOf (node.world.deliver tree block) := by
    have linked := inv.tracks.linked
    rw [whole] at linked
    rw [cut]
    exact linked.front
  rw [confirmed]
  refine ⟨inv.tracks.reorganize reorganizes away, ?_, inv.tip, inv.below, inv.hash, ?_⟩
  · intro other member
    cases member
  · refine Or.inr (Or.inr ⟨ancestor, Or.inl ⟨rfl, departing.events⟩, rfl, linked, ?_, ?_⟩)
    · show (node.world.deliver tree block).getLast? = some ancestor
      rw [cut]
      simp
    · have member : ancestor ∈ node.world.delivered := by
        rw [whole]
        simp
      have path := inv.tracks.linked.ancestor_getLast isLast ancestor member
      have : ancestor.height.val ≤ last.height.val := Ancestor.height_le BlockTree.ranked path
      have := departing.next
      show ancestor.height.val < node.confirmedBlockHeight.val
      rw [← departing.height]
      omega

include several in
theorem Invariant.confirm (running : node.world.running = true)
    (scheduled : node.Scheduled tree .confirm) :
    Invariant tree confirmations (node.confirm tree) := by
  cases isNext : node.blocks with
  | nil =>
    have idle : node.confirm tree = node := by simp only [Node.confirm, isNext]
    rw [idle]
    exact inv
  | cons block rest =>
    obtain ⟨inOrder, follows | ⟨last, departing, -⟩⟩ := inv.next isNext
    · exact inv.confirm_follows several running isNext inOrder follows
    · exact inv.confirm_departs running departing inOrder (scheduled block (by rw [isNext]; rfl))

/-- An event that leaves the window alone leaves the node as it is. -/
theorem Invariant.same_window (tracks : world.Tracks tree confirmations)
    (delivered : world.delivered = node.world.delivered) :
    Invariant tree confirmations { node with world } := by
  refine { inv with tracks, phase := ?_ }
  have sent : { node with world }.sentBlocks = node.sentBlocks := by
    rw [sentBlocks, sentBlocks, delivered]
  rcases inv.phase with settled | ⟨front, last, odd, departing⟩ | ⟨ancestor, returning⟩
  · refine Or.inl ⟨{ settled.quiet with linked := ?_ }, ?_, ?_⟩
    · exact sent ▸ settled.quiet.linked
    · rw [sent]
      exact settled.height
    · rw [sent]
      exact settled.atTip
  · refine Or.inr (Or.inl ⟨front, last, odd, { departing with linked := ?_, isLast := ?_ }⟩)
    · exact delivered ▸ departing.linked
    · exact delivered ▸ departing.isLast
  · refine Or.inr (Or.inr ⟨ancestor, { returning with linked := ?_, isLast := ?_ }⟩)
    · exact delivered ▸ returning.linked
    · exact delivered ▸ returning.isLast

/-! ### Steps and runs -/

include several in
theorem Invariant.step (move : Move) (scheduled : node.Scheduled tree move) :
    Invariant tree confirmations (node.step tree move) := by
  unfold Node.step
  split
  · rename_i running
    cases move with
    | bestChain tip => exact inv.bestChain scheduled
    | poll bestBlockHeight => exact inv.handleNewBlocks scheduled
    | event => exact inv.handleEvent
    | controller => exact inv.passOn
    | confirm => exact inv.confirm several running scheduled
    | tx now txid answer =>
      refine inv.same_window (inv.tracks.step several (.tx now txid answer) trivial) ?_
      rw [World.step, if_pos running]
      rfl
    | cleanUp now =>
      refine inv.same_window (inv.tracks.step several (.cleanUp now) trivial) ?_
      rw [World.step, if_pos running]
      split
      · rfl
      · rfl
  · exact inv

/-- The confirmator handles its next block, if its chain meets the window. -/
theorem Invariant.handled (isNext : node.blocks.head? = some block)
    (meets : node.world.MeetsWindow tree block) :
    (node.world.confirmator.handleNewBlock tree.client block).result = .ok () := by
  obtain ⟨rest, isNext⟩ := List.head?_eq_some_iff.mp isNext
  obtain ⟨inOrder, -⟩ := inv.next isNext
  rw [handleNewBlock_eq inv.tracks inOrder]
  by_cases follows : node.world.follows block = true
  · rw [if_pos follows]
    exact (acceptBlock_eq _ _).1
  · rw [if_neg follows]
    obtain ⟨kept, ancestor, discarded, reorganizes⟩ :=
      inv.tracks.handleReorg inOrder (meets.resolve_left follows)
    exact reorganizes.result

theorem Invariant.atRest (atRest : node.AtRest tree) :
    node.world.window <:+ tree.chain node.tip := by
  obtain ⟨front, split, length⟩ := inv.tracks.split
  have settled : node.Settled tree := by
    refine inv.settled ⟨atRest.controller, atRest.events, ?_⟩
    rw [sentBlocks, atRest.blocks, List.append_nil]
    exact inv.tracks.linked
  -- The indexer would have got the next block of a higher chain.
  have level : node.tip.height.val = node.confirmedBlockHeight.val := by
    rcases handleNewBlocks_cases inv node.tip.height.val with ⟨-, same | high⟩ |
      ⟨-, block, -, height, got⟩
    · exact same
    · have := inv.below
      omega
    · rw [atRest.polled] at got
      have same : node.confirmedBlockHeight = block.height := congrArg Node.confirmedBlockHeight got
      rw [same] at height
      omega
  have atTip := settled.atTip level
  rw [sentBlocks, atRest.blocks, List.append_nil] at atTip
  cases isLast : node.world.window.getLast? with
  | none =>
    rw [List.getLast?_eq_none_iff.mp isLast]
    exact List.nil_suffix
  | some last =>
    have isTip : last = node.tip := by
      refine atTip last ?_
      rw [split, List.getLast?_append, isLast]
      rfl
    have linked := inv.tracks.linked
    rw [split] at linked
    exact suffix_lineage _ (Nat.le_refl _) (List.isChain_append.mp linked).2.1 (isTip ▸ isLast)

end

/-- Under every schedule in which the indexer gets no next block while a reorganization is under
way, a new best chain is higher than the indexer, and the confirmator knows a common ancestor,
no block fails, and a node at rest has the end of the best chain in its window. -/
theorem reorganizations_handled (tree : BlockTree) (maxConfirmationTime : Nat)
    (confirmations : UInt8) (several : 2 ≤ confirmations.toNat) (initial : List Block)
    (confirmed tip : Block) (starts : Starts tree initial confirmed tip) (moves : List Move)
    (scheduled : AllSteps (step tree) (Scheduled tree)
      (new maxConfirmationTime confirmations initial confirmed tip) moves) :
    let node := runFrom (step tree)
      (new maxConfirmationTime confirmations initial confirmed tip) moves
    (∀ block ∈ node.blocks.head?, node.world.MeetsWindow tree block →
      (node.world.confirmator.handleNewBlock tree.client block).result = .ok ()) ∧
      (node.AtRest tree →
        node.world.confirmator.latestBlocks <:+ (tree.chain node.tip).map Block.info) := by
  intro node
  have inv : Invariant tree confirmations.toNat node :=
    scheduled.invariant (fun _ move inv scheduled => inv.step several move scheduled)
      (invariant_new maxConfirmationTime confirmations several starts)
  refine ⟨fun block isNext meets => inv.handled isNext meets, ?_⟩
  intro atRest
  rw [inv.tracks.latest]
  exact (inv.atRest atRest).map Block.info

theorem starts_forked : Starts forked [firstChain 0, firstChain 1] (firstChain 1)
    (firstChain 1) := by
  refine ⟨?_, ?_, ?_, ?_, ?_, ?_, ?_⟩
  all_goals decide +kernel

/-- The second chain becomes the best one; the indexer waits for the confirmator's answer to
its second block. -/
theorem reorganizations_handled_forked :
    let moves : List Move := [.confirm, .confirm, .bestChain (secondChain 3), .poll 3, .confirm,
      .controller, .event, .poll 3, .poll 3, .poll 3, .confirm, .confirm, .confirm]
    let start := new 0 3 [firstChain 0, firstChain 1] (firstChain 1) (firstChain 1)
    AllSteps (step forked) (Scheduled forked) start moves ∧
      (runFrom (step forked) start moves).AtRest forked ∧
      (runFrom (step forked) start moves).world.confirmator.latestBlocks <:+
        (forked.chain (secondChain 3)).map Block.info := by
  have scheduled : AllSteps (step forked) (Scheduled forked)
      (new 0 3 [firstChain 0, firstChain 1] (firstChain 1) (firstChain 1))
      [.confirm, .confirm, .bestChain (secondChain 3), .poll 3, .confirm, .controller, .event,
        .poll 3, .poll 3, .poll 3, .confirm, .confirm, .confirm] := by
    decide +kernel
  refine ⟨scheduled, ⟨rfl, rfl, rfl, rfl⟩, ?_⟩
  exact (reorganizations_handled forked 0 3 (by decide) _ _ _ starts_forked _ scheduled).2
    ⟨rfl, rfl, rfl, rfl⟩

/-- The indexer polls once more before it is told: the confirmator is handed the third block of
the second chain right after it has gone back to the first, and the node is cancelled. -/
theorem polls_before_told :
    let moves : List Move := [.confirm, .confirm, .bestChain (secondChain 3), .poll 3, .poll 3,
      .confirm, .confirm]
    let start := new 0 3 [firstChain 0, firstChain 1] (firstChain 1) (firstChain 1)
    Starts forked [firstChain 0, firstChain 1] (firstChain 1) (firstChain 1) ∧
      (runFrom (step forked) start (moves.take 5)).world.window = [firstChain 0, firstChain 1] ∧
      forked.isAncestor (firstChain 0) (secondChain 3) = true ∧
      (runFrom (step forked) start (moves.take 6)).controller = [0] ∧
      (runFrom (step forked) start (moves.take 6)).world.running = true ∧
      (runFrom (step forked) start moves).world.running = false := by
  refine ⟨starts_forked, ?_, ?_, ?_, ?_, ?_⟩
  all_goals decide +kernel

end Node

end Lrc20.TxConfirm
