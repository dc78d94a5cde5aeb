import Lrc20.Lib.Cuts
import Lrc20.Lib.Runs
import Lrc20.TxAttach.GraphBuilder

namespace Lrc20.TxAttach

open Cuts GraphBuilder

/-- Every stored transfer waits for something, and each of its parents is waited for or
already good. `good` is what counts as attached. -/
structure Waits (good : Txid → Prop) (graph : GraphBuilder) : Prop where
  keyed : ∀ txid tx created, graph.storedTxs.lookup txid = some (tx, created) → tx.txid = txid
  waiting : ∀ txid tx created, graph.storedTxs.lookup txid = some (tx, created) →
    graph.waitsFor txid ≠ []
  covered : ∀ txid tx created, graph.storedTxs.lookup txid = some (tx, created) →
    ∀ parent ∈ tx.parents, parent ∈ graph.waitsFor txid ∨ good parent

variable {graph : GraphBuilder} {env : Surroundings} {good : Txid → Prop} {env : Surroundings}

theorem Waits.mono {good' : Txid → Prop} (waits : Waits good graph)
    (weaker : ∀ txid, good txid → good' txid) : Waits good' graph where
  keyed := waits.keyed
  waiting := waits.waiting
  covered txid tx created stored parent member :=
    (waits.covered txid tx created stored parent member).imp_right (weaker parent)

theorem waits_new (good : Txid → Prop) : Waits good GraphBuilder.new := by
  constructor <;> intro txid tx created stored <;> cases stored

section

variable (graph : GraphBuilder)

@[simp] theorem waitsFor_insert_self (txid : Txid) (left : List Txid) :
    ({ graph with deps := graph.deps.insert txid left } : GraphBuilder).waitsFor txid = left := by
  simp [waitsFor]

theorem waitsFor_insert_ne {txid other : Txid} (left : List Txid) (ne : other ≠ txid) :
    ({ graph with deps := graph.deps.insert txid left } : GraphBuilder).waitsFor other =
      graph.waitsFor other := by
  simp [waitsFor, AList.lookup_insert_ne ne]

theorem mem_waitsFor_addDep (child parent txid : Txid) (waited : Txid) :
    waited ∈ (graph.addDep child parent).waitsFor txid ↔
      (txid = child ∧ waited = parent) ∨ waited ∈ graph.waitsFor txid := by
  unfold GraphBuilder.addDep waitsFor
  by_cases same : txid = child
  · subst same
    simp [List.mem_insert_iff]
  · simp [AList.lookup_insert_ne same, same]

/-- The links of a child to some parents. -/
def GraphBuilder.addDeps (child : Txid) (parents : List Txid) : GraphBuilder :=
  parents.foldl (·.addDep child) graph

theorem mem_waitsFor_addDeps (child : Txid) (parents : List Txid) (txid waited : Txid) :
    waited ∈ (graph.addDeps child parents).waitsFor txid ↔
      (txid = child ∧ waited ∈ parents) ∨ waited ∈ graph.waitsFor txid := by
  unfold GraphBuilder.addDeps
  induction parents generalizing graph with
  | nil => simp
  | cons parent rest ih =>
    rw [List.foldl_cons, ih, mem_waitsFor_addDep, List.mem_cons]
    tauto

theorem storedTxs_addDeps (child : Txid) (parents : List Txid) :
    (graph.addDeps child parents).storedTxs = graph.storedTxs := by
  induction parents generalizing graph with
  | nil => rfl
  | cons parent rest ih => exact ih _

end

/-- Forgetting a transaction, waiting or not, keeps the others covered. -/
theorem Waits.forget {graph' : GraphBuilder} (waits : Waits good graph) (txid : Txid)
    (deps : ∀ other, other ≠ txid → graph'.waitsFor other = graph.waitsFor other)
    (stored : Cut (· = txid) graph.storedTxs graph'.storedTxs) : Waits good graph' := by
  have older : ∀ other entry, graph'.storedTxs.lookup other = some entry →
      graph.storedTxs.lookup other = some entry ∧ graph'.waitsFor other = graph.waitsFor other := by
    intro other entry found
    obtain ⟨ne, old⟩ := stored.of_some found
    exact ⟨old, deps other ne⟩
  refine ⟨?_, ?_, ?_⟩
  · exact fun other tx created stored =>
      waits.keyed other tx created (older other _ stored).1
  · intro other tx created stored
    obtain ⟨old, same⟩ := older other _ stored
    rw [same]
    exact waits.waiting other tx created old
  · intro other tx created stored parent member
    obtain ⟨old, same⟩ := older other _ stored
    rw [same]
    exact waits.covered other tx created old parent member

/-- The storage also holds every announced transaction a call asks for. -/
def Full (env : Surroundings) (good relevant : Txid → Prop) : Prop :=
  ∀ n parent, relevant parent → good parent → env.isStored n parent = .ok true

namespace Attaching

/-- What is attached as far as the running call knows. -/
def Good (good : Txid → Prop) (state : Attaching) (txid : Txid) : Prop :=
  good txid ∨ txid ∈ state.attachedIds

/-- The answers a call gets from the storage about the parents it asks for: it always
answers, and what it holds is good. -/
def Sound (env : Surroundings) (good relevant : Txid → Prop) : Prop :=
  ∀ n parent, relevant parent →
    (∃ stored, env.isStored n parent = .ok stored) ∧
      (env.isStored n parent = .ok true → good parent)

/-- What holds at every point of a call. `known` is where transactions come from. -/
structure CallInv (good relevant : Txid → Prop) (known : Lrc20Transaction → Prop)
    (state : Attaching) : Prop where
  running : state.failed = false
  waits : Waits (state.Good good) state.graph
  asked : ∀ txid, ∀ parent ∈ state.graph.waitsFor txid, relevant parent
  stored : ∀ txid tx created, state.graph.storedTxs.lookup txid = some (tx, created) → known tx
  attached : ∀ tx ∈ state.attachedTxs, known tx ∧ ∀ parent ∈ tx.parents, state.Good good parent

variable {env : Surroundings} {good relevant : Txid → Prop} {known : Lrc20Transaction → Prop}
  {state : Attaching} {tx : Lrc20Transaction} {txid : Txid} {parent child : Txid} {reads : Nat}
  {waiting : List Txid}

variable (sound : Sound env good relevant) (inv : CallInv good relevant known state)

include sound in
/-- A sound answer: only the read counter moves, and a positive answer is right. A negative one is
right if the storage is full. -/
theorem isAttached_spec (state : Attaching) (asked : relevant parent) :
    ∃ reads attached, state.isAttached env parent = ({ state with reads := reads }, attached) ∧
      (attached = true → state.Good good parent) ∧
      (Full env good relevant → state.Good good parent → attached = true) := by
  unfold isAttached
  split
  · rename_i member
    exact ⟨state.reads, true, rfl, fun _ => Or.inr member, fun _ _ => rfl⟩
  · rename_i absent
    obtain ⟨⟨stored, answer⟩, right⟩ := sound state.reads parent asked
    rw [answer]
    refine ⟨state.reads + 1, stored, rfl, ?_, ?_⟩
    · rintro rfl
      exact Or.inl (right answer)
    · intro full isGood
      have held := full state.reads parent asked (isGood.resolve_right absent)
      exact Except.ok.inj (answer.symm.trans held)

include inv in
theorem CallInv.withReads (reads : Nat) :
    CallInv good relevant known { state with reads := reads } := { inv with }

include inv in
theorem CallInv.addDeps {parents : List Txid} (asked : ∀ parent ∈ parents, relevant parent) :
    CallInv good relevant known { state with graph := state.graph.addDeps child parents } := by
  have same := storedTxs_addDeps state.graph child parents
  refine ⟨inv.running, ⟨?_, ?_, ?_⟩, ?_, ?_, inv.attached⟩
  · rw [same]
    exact inv.waits.keyed
  · intro txid tx created stored
    rw [same] at stored
    obtain ⟨waited, old⟩ := List.exists_mem_of_ne_nil _ (inv.waits.waiting txid tx created stored)
    exact List.ne_nil_of_mem ((mem_waitsFor_addDeps _ _ _ _ _).mpr (Or.inr old))
  · intro txid tx created stored p member
    rw [same] at stored
    refine (inv.waits.covered txid tx created stored p member).imp_left ?_
    exact fun old => (mem_waitsFor_addDeps _ _ _ _ _).mpr (Or.inr old)
  · intro txid waited member
    rcases (mem_waitsFor_addDeps _ _ _ _ _).mp member with ⟨_, linked⟩ | old
    · exact asked waited linked
    · exact inv.asked txid waited old
  · rw [same]
    exact inv.stored

theorem linkParent_eq (running : state.failed = false) {attached : Bool}
    (answer : state.isAttached env parent = ({ state with reads := reads }, attached)) :
    linkParent env child state parent = if attached then { state with reads := reads }
      else { state with reads := reads, graph := state.graph.addDep child parent } := by
  unfold linkParent
  rw [if_neg (by simp [running]), answer]
  cases attached <;> simp [running]

include sound in
/-- The loop over the parents of a transfer links it to every parent that is not good, and if the
storage is full to no other. -/
theorem linkParents_eq (child : Txid) (parents : List Txid) :
    ∀ state : Attaching, state.failed = false → (∀ parent ∈ parents, relevant parent) →
      ∃ reads linked, parents.foldl (linkParent env child) state =
          { state with reads := reads, graph := state.graph.addDeps child linked } ∧
        (∀ parent ∈ linked, parent ∈ parents) ∧
        (∀ parent ∈ parents, parent ∈ linked ∨ state.Good good parent) ∧
        (Full env good relevant → ∀ parent ∈ linked, ¬ state.Good good parent) := by
  induction parents with
  | nil => exact fun state _ _ => ⟨state.reads, [], rfl, by simp⟩
  | cons parent rest ih =>
    intro state running asked
    rw [List.forall_mem_cons] at asked
    obtain ⟨reads, attached, answer, right, complete⟩ := isAttached_spec sound state asked.1
    rw [List.foldl_cons, linkParent_eq running answer]
    cases attached with
    | true =>
      obtain ⟨reads', linked, done, among, all, unmet⟩ := ih { state with reads } running asked.2
      refine ⟨reads', linked, done, ?_, List.forall_mem_cons.mpr ⟨Or.inr (right rfl), all⟩, unmet⟩
      exact fun p member => List.mem_cons_of_mem _ (among p member)
    | false =>
      obtain ⟨reads', linked, done, among, all, unmet⟩ :=
        ih { state with reads, graph := state.graph.addDep child parent } running asked.2
      refine ⟨reads', parent :: linked, done, List.cons_subset_cons parent among, ?_, fun full => ?_⟩
      · refine List.forall_mem_cons.mpr ⟨Or.inl List.mem_cons_self, fun p member => ?_⟩
        exact (all p member).imp_left (List.mem_cons_of_mem _)
      · refine List.forall_mem_cons.mpr ⟨fun isGood => ?_, unmet full⟩
        cases complete full isGood

theorem Good.attach {p : Txid} (right : state.Good good p) : (state.attach tx).Good good p := by
  refine right.imp_right fun member => ?_
  simp only [Attaching.attach, attachedIds, List.map_append, List.mem_append]
  exact Or.inl member

include inv in
theorem CallInv.attach (isKnown : known tx)
    (parents : ∀ parent ∈ tx.parents, state.Good good parent) :
    CallInv good relevant known (state.attach tx) where
  running := inv.running
  asked := inv.asked
  stored := inv.stored
  waits := by
    have grown : Waits ((state.attach tx).Good good) state.graph :=
      inv.waits.mono fun p right => right.attach
    exact { grown with }
  attached := by
    intro other member
    simp only [Attaching.attach, List.mem_append, List.mem_singleton] at member
    rcases member with old | rfl
    · obtain ⟨otherKnown, otherParents⟩ := inv.attached other old
      exact ⟨otherKnown, fun p isParent => (otherParents p isParent).attach⟩
    · exact ⟨isKnown, fun p isParent => (parents p isParent).attach⟩

include inv in
/-- Once a transaction is not stored, its dependencies may go. -/
theorem CallInv.forget {deps : AList fun _ : Txid => List Txid}
    {storedTxs : AList fun _ : Txid => Lrc20Transaction × Nat}
    (depsCut : Cut (· = txid) state.graph.deps deps)
    (storedCut : Cut (· = txid) state.graph.storedTxs storedTxs) :
    CallInv good relevant known { state with graph := { state.graph with
      deps := deps, storedTxs := storedTxs } } where
  running := inv.running
  attached := inv.attached
  asked other waited member := inv.asked other waited (depsCut.mem_list.mp member).1
  stored other tx created present := inv.stored other tx created (storedCut.of_some present).2
  waits := inv.waits.forget txid (fun _ ne => depsCut.list_kept ne) storedCut

include inv in
theorem settle_spec (isKnown : known tx)
    (parents : ∀ parent ∈ tx.parents,
      parent ∈ state.graph.waitsFor tx.txid ∨ state.Good good parent) :
    CallInv good relevant known (state.settle env tx) := by
  unfold settle
  rw [if_neg (by simp [inv.running])]
  split
  · -- Nothing is waited for, so an older version of the transfer is not stored either.
    rename_i empty
    have unstored : state.graph.storedTxs.lookup tx.txid = none := by
      by_contra present
      obtain ⟨⟨old, created⟩, stored⟩ := Option.ne_none_iff_exists'.mp present
      exact inv.waits.waiting _ _ _ stored empty
    refine (inv.forget (cut_erase _ _) (cut_absent unstored)).attach isKnown
      fun parent member => ?_
    rcases parents parent member with waited | right
    · rw [empty] at waited
      cases waited
    · exact right
  · rename_i waited
    have stored : ∀ txid other created,
        (state.graph.storedTxs.insert tx.txid (tx, env.now)).lookup txid = some (other, created) →
          (txid = tx.txid ∧ other = tx) ∨
            state.graph.storedTxs.lookup txid = some (other, created) := by
      intro txid other created present
      by_cases same : txid = tx.txid
      · subst same
        rw [AList.lookup_insert] at present
        cases present
        exact Or.inl ⟨rfl, rfl⟩
      · rw [AList.lookup_insert_ne same] at present
        exact Or.inr present
    refine ⟨inv.running, ⟨?_, ?_, ?_⟩, inv.asked, ?_, inv.attached⟩
    · intro txid other created present
      rcases stored _ _ _ present with ⟨rfl, rfl⟩ | old
      · rfl
      · exact inv.waits.keyed _ _ _ old
    · intro txid other created present
      rcases stored _ _ _ present with ⟨rfl, rfl⟩ | old
      · exact waited
      · exact inv.waits.waiting _ _ _ old
    · intro txid other created present
      rcases stored _ _ _ present with ⟨rfl, rfl⟩ | old
      · exact parents
      · exact inv.waits.covered _ _ _ old
    · intro txid other created present
      rcases stored _ _ _ present with ⟨rfl, rfl⟩ | old
      · exact isKnown
      · exact inv.stored _ _ _ old

include sound inv in
theorem handleTx_spec (isKnown : known tx) (asked : ∀ parent ∈ tx.parents, relevant parent) :
    CallInv good relevant known (state.handleTx env tx) := by
  unfold handleTx
  rw [if_neg (by simp [inv.running])]
  split
  · rename_i kind
    exact inv.attach isKnown (by simp [Lrc20Transaction.parents, Lrc20Transaction.spends, kind])
  · obtain ⟨reads, linked, done, among, covered, -⟩ :=
      linkParents_eq sound tx.txid tx.parents state inv.running asked
    have inv' := @CallInv.addDeps _ _ _ _ tx.txid (inv.withReads reads) linked
      fun parent member => asked parent (among parent member)
    rw [handleTransfer, done]
    refine settle_spec inv' isKnown fun parent member => (covered parent member).imp_left ?_
    exact fun isLinked => (mem_waitsFor_addDeps _ _ _ _ _).mpr (Or.inl ⟨rfl, isLinked⟩)
  · exact inv
  · rename_i kind
    have attached := inv.attach isKnown
      (by simp [Lrc20Transaction.parents, Lrc20Transaction.spends, kind])
    exact { attached with waits := { attached.waits with } }

include sound in
theorem collectAttached_spec (parents : List Txid) :
    ∀ state : Attaching, state.failed = false → (∀ parent ∈ parents, relevant parent) →
      ∃ reads found, state.collectAttached env parents = ({ state with reads := reads }, found) ∧
        (∀ parent ∈ found, state.Good good parent) ∧
        (Full env good relevant → ∀ parent ∈ parents, state.Good good parent → parent ∈ found) := by
  induction parents with
  | nil => exact fun state _ _ => ⟨state.reads, [], rfl, by simp⟩
  | cons parent rest ih =>
    intro state running asked
    obtain ⟨reads, attached, answer, right, complete⟩ :=
      isAttached_spec sound state (asked parent (by simp))
    obtain ⟨reads', found, collected, rights, completes⟩ :=
      ih { state with reads := reads } running fun p member =>
        asked p (List.mem_cons_of_mem _ member)
    refine ⟨reads', if attached then parent :: found else found, ?_, ?_, ?_⟩
    · simp only [collectAttached, answer]
      rw [if_neg (by simp [running]), collected]
    · intro p member
      split at member
      · rename_i isTrue
        rcases List.mem_cons.mp member with rfl | later
        · exact right isTrue
        · exact rights p later
      · exact rights p member
    · intro full p member isGood
      rcases List.mem_cons.mp member with rfl | later
      · rw [if_pos (complete full isGood)]
        exact List.mem_cons_self
      · have isFound := completes full p later isGood
        split
        · exact List.mem_cons_of_mem _ isFound
        · exact isFound

include sound in
/-- The dependencies left after a pass: what was waited for stays or is good. -/
theorem removeAttachedParents_spec (running : state.failed = false)
    (waits : state.graph.deps.lookup txid = some waiting)
    (asked : ∀ parent ∈ waiting, relevant parent) :
    ∃ reads left, state.removeAttachedParents env txid =
        ({ state with
            reads := reads
            graph := { state.graph with deps := state.graph.deps.insert txid left } },
          left.isEmpty) ∧
      (∀ parent ∈ left, parent ∈ waiting) ∧
      (∀ parent ∈ waiting, parent ∈ left ∨ state.Good good parent) ∧
      (Full env good relevant → ∀ parent ∈ left, ¬ state.Good good parent) := by
  have ordered : ∀ {parent}, parent ∈ env.order waiting ↔ parent ∈ waiting :=
    (env.order_perm waiting).mem_iff
  obtain ⟨reads, found, collected, right, complete⟩ := collectAttached_spec sound
    (env.order waiting) state running fun parent member => asked parent (ordered.mp member)
  refine ⟨reads, waiting.filter (· ∉ found), ?_, fun parent member => List.mem_of_mem_filter member,
    ?_, ?_⟩
  · unfold removeAttachedParents
    simp only [waits, collected]
    rw [if_neg (by simp [running])]
  · intro parent member
    by_cases isFound : parent ∈ found
    · exact Or.inr (right parent isFound)
    · exact Or.inl (List.mem_filter.mpr ⟨member, by simpa using isFound⟩)
  · intro full parent member isGood
    obtain ⟨waited, unfound⟩ := List.mem_filter.mp member
    exact of_decide_eq_true unfound (complete full parent (ordered.mpr waited) isGood)

include inv in
/-- Shrinking what a transaction waits for keeps the invariant if it still waits, or is
not stored. -/
theorem CallInv.shrink {left : List Txid} (waits : state.graph.deps.lookup txid = some waiting)
    (subset : ∀ parent ∈ left, parent ∈ waiting)
    (rest : ∀ parent ∈ waiting, parent ∈ left ∨ state.Good good parent)
    (still : left = [] → state.graph.storedTxs.lookup txid = none) :
    CallInv good relevant known { state with
      reads := reads
      graph := { state.graph with deps := state.graph.deps.insert txid left } } := by
  have waitsFor : state.graph.waitsFor txid = waiting := by
    rw [waitsFor, waits, Option.getD_some]
  refine ⟨inv.running, ⟨inv.waits.keyed, ?_, ?_⟩, ?_, inv.stored, inv.attached⟩
  · intro other tx created stored
    by_cases same : other = txid
    · subst same
      rw [waitsFor_insert_self]
      intro empty
      rw [still empty] at stored
      cases stored
    · rw [waitsFor_insert_ne _ _ same]
      exact inv.waits.waiting other tx created stored
  · intro other tx created stored parent member
    have covered := inv.waits.covered other tx created stored parent member
    by_cases same : other = txid
    · subst same
      rw [waitsFor_insert_self]
      rw [waitsFor] at covered
      exact covered.elim (rest parent) Or.inr
    · rw [waitsFor_insert_ne _ _ same]
      exact covered
  · intro other parent member
    by_cases same : other = txid
    · subst same
      rw [waitsFor_insert_self] at member
      exact inv.asked other parent (waitsFor ▸ subset parent member)
    · rw [waitsFor_insert_ne _ _ same] at member
      exact inv.asked other parent member

include sound inv in
theorem wake_spec (txid : Txid) : CallInv good relevant known (state.wake env txid) := by
  unfold wake
  rw [if_neg (by simp [inv.running])]
  cases waits : state.graph.deps.lookup txid with
  | none =>
    have unstored : state.graph.storedTxs.lookup txid = none := by
      by_contra present
      obtain ⟨⟨old, created⟩, stored⟩ := Option.ne_none_iff_exists'.mp present
      exact inv.waits.waiting _ _ _ stored (by simp [waitsFor, waits])
    have same : state.removeAttachedParents env txid = (state, true) := by
      simp [removeAttachedParents, waits]
    simp only [same, unstored]
    split <;> exact inv
  | some waiting =>
    obtain ⟨reads, left, removed, subset, rest, -⟩ := removeAttachedParents_spec sound inv.running
      waits fun parent member => inv.asked txid parent (by rwa [waitsFor, waits])
    simp only [removed]
    split
    · rename_i blocked
      have nonempty : left ≠ [] := by
        rintro rfl
        simp [inv.running] at blocked
      exact inv.shrink waits subset rest fun empty => absurd empty nonempty
    · rename_i ready
      have empty : left = [] := by
        simpa [inv.running] using ready
      split
      · rename_i unstored
        exact inv.shrink waits subset rest fun _ => unstored
      · rename_i tx created stored
        have keyed : tx.txid = txid := inv.waits.keyed _ _ _ stored
        have parents : ∀ parent ∈ tx.parents, state.Good good parent := by
          intro parent member
          rcases inv.waits.covered _ _ _ stored parent member with waited | right
          · rw [waitsFor, waits] at waited
            refine (rest parent waited).resolve_left ?_
            simp [empty]
          · exact right
        subst keyed
        exact ((inv.withReads reads).forget (cut_insert_erase _ _ _) (cut_erase _ _)).attach
          (inv.stored _ _ _ stored) parents

section Drain

-- An invariant of the state and of the transactions still to be woken.
variable {I : List Txid → Attaching → Prop}
  (wakes : ∀ {txid rest state}, I (txid :: rest ++ state.queuedTxs) state →
    I (rest ++ (state.wake env txid).queuedTxs) (state.wake env txid))
include wakes

theorem wakeAll_inv (queue : List Txid) : ∀ state : Attaching,
      I (queue ++ state.queuedTxs) state → I (queue.foldl (wake env) state).queuedTxs
        (queue.foldl (wake env) state) := by
  induction queue with
  | nil => exact fun _ inv => inv
  | cons txid rest ih => exact fun state inv => ih _ (wakes inv)

/-- What waking keeps, the loop over the queue keeps. -/
theorem drain_inv (walk : ∀ {state : Attaching}, I state.queuedTxs state →
      I (env.order state.queuedTxs ++ []) { state with queuedTxs := [] }) (fuel : Nat) :
    ∀ state : Attaching, I state.queuedTxs state →
      I (state.drain env fuel).queuedTxs (state.drain env fuel) := by
  induction fuel with
  | zero => exact fun _ inv => inv
  | succ fuel ih =>
    intro state inv
    unfold drain
    split
    · exact inv
    · exact ih _ (wakeAll_inv wakes _ _ (walk inv))

end Drain

section Termination

variable (env : Surroundings) (state : Attaching)

/-- Reads leave the graph, the queue and what is attached. -/
structure Asks (state after : Attaching) : Prop where
  graph : after.graph = state.graph
  queuedTxs : after.queuedTxs = state.queuedTxs
  attachedTxs : after.attachedTxs = state.attachedTxs

theorem asks_isAttached (txid : Txid) : Asks state (state.isAttached env txid).1 := by
  unfold isAttached
  split
  · exact ⟨rfl, rfl, rfl⟩
  · split <;> exact ⟨rfl, rfl, rfl⟩

theorem asks_collectAttached (parents : List Txid) :
    ∀ state : Attaching, Asks state (state.collectAttached env parents).1 := by
  induction parents with
  | nil => exact fun _ => ⟨rfl, rfl, rfl⟩
  | cons parent rest ih =>
    intro state
    have first := asks_isAttached env state parent
    simp only [collectAttached]
    split
    · exact first
    · have later := ih (state.isAttached env parent).1
      exact ⟨later.graph.trans first.graph, later.queuedTxs.trans first.queuedTxs,
        later.attachedTxs.trans first.attachedTxs⟩

theorem removeAttachedParents_keeps (txid : Txid) :
    (state.removeAttachedParents env txid).1.graph.storedTxs = state.graph.storedTxs ∧
      (state.removeAttachedParents env txid).1.queuedTxs = state.queuedTxs ∧
      (state.removeAttachedParents env txid).1.attachedTxs = state.attachedTxs := by
  unfold removeAttachedParents
  split
  · exact ⟨rfl, rfl, rfl⟩
  · rename_i waiting _
    have asks := asks_collectAttached env (env.order waiting) state
    simp only
    split
    all_goals exact ⟨by rw [asks.graph], asks.queuedTxs, asks.attachedTxs⟩

/-- A transfer that is woken stays stored, or is attached. -/
theorem wake_cases (txid : Txid) :
    (state.wake env txid).graph.storedTxs = state.graph.storedTxs ∧
        (state.wake env txid).queuedTxs = state.queuedTxs ∧
        (state.wake env txid).attachedTxs = state.attachedTxs ∨
      ∃ tx created, state.graph.storedTxs.lookup txid = some (tx, created) ∧
        (state.wake env txid).graph.storedTxs = state.graph.storedTxs.erase txid ∧
        (state.wake env txid).attachedTxs = state.attachedTxs ++ [tx] := by
  obtain ⟨storedTxs, queued, attached⟩ := removeAttachedParents_keeps env state txid
  unfold wake
  split
  · exact Or.inl ⟨rfl, rfl, rfl⟩
  · simp only
    split
    · exact Or.inl ⟨storedTxs, queued, attached⟩
    · split
      · exact Or.inl ⟨storedTxs, queued, attached⟩
      · rename_i tx created present
        exact Or.inr ⟨tx, created, storedTxs ▸ present, by rw [storedTxs], by rw [attached]⟩

/-- The number of stored transfers, the measure of the `while` loop. -/
def storedCount : Nat := state.graph.storedTxs.keys.length

/-- Waking grows the queue only by taking a transfer out of the store. -/
theorem wake_measure (txid : Txid) :
    (state.wake env txid).storedCount ≤ state.storedCount ∧
      ((state.wake env txid).queuedTxs = state.queuedTxs ∨
        (state.wake env txid).storedCount < state.storedCount) := by
  rcases wake_cases env state txid with ⟨stored, queued, -⟩ | ⟨tx, created, present, erased, -⟩
  · exact ⟨by rw [storedCount, stored, storedCount], Or.inl queued⟩
  · have member : txid ∈ state.graph.storedTxs.keys :=
      AList.mem_keys.mp (AList.lookup_isSome.mp (by rw [present]; rfl))
    have fewer : (state.wake env txid).storedCount < state.storedCount := by
      rw [storedCount, erased, AList.keys_erase, List.length_erase_of_mem member, storedCount]
      have := List.length_pos_of_mem member
      omega
    exact ⟨Nat.le_of_lt fewer, Or.inr fewer⟩

theorem wakeQueued_measure :
    (state.wakeQueued env).storedCount ≤ state.storedCount ∧
      ((state.wakeQueued env).queuedTxs = [] ∨
        (state.wakeQueued env).storedCount < state.storedCount) := by
  refine List.foldlRecOn (motive := fun after : Attaching =>
    after.storedCount ≤ state.storedCount ∧
      (after.queuedTxs = [] ∨ after.storedCount < state.storedCount))
    (env.order state.queuedTxs) (wake env) ⟨Nat.le_refl _, Or.inl rfl⟩ ?_
  intro after ih txid _
  obtain ⟨less, grown⟩ := wake_measure env after txid
  refine ⟨less.trans ih.1, ?_⟩
  rcases grown with same | fewer
  · exact ih.2.imp (fun empty => same.trans empty) fun fewer => Nat.lt_of_le_of_lt less fewer
  · exact Or.inr (Nat.lt_of_lt_of_le fewer ih.1)

/-- The fuel `attach_txs` gives its loop is enough: the queue ends empty unless a read
failed. -/
theorem drain_complete (fuel : Nat) :
    ∀ state : Attaching, state.storedCount < fuel →
      (state.drain env fuel).failed = true ∨ (state.drain env fuel).queuedTxs = [] := by
  induction fuel with
  | zero => exact fun _ impossible => absurd impossible (Nat.not_lt_zero _)
  | succ fuel ih =>
    intro state enough
    unfold drain
    split
    · assumption
    · obtain ⟨less, empty | fewer⟩ := wakeQueued_measure env state
      · cases fuel with
        | zero => exact Or.inr empty
        | succ fuel =>
          unfold drain
          rw [if_pos (Or.inr empty)]
          exact Or.inr empty
      · exact ih _ (by omega)

theorem attach_loop_ends (handled : Attaching) :
    (handled.drain env (handled.graph.storedTxs.entries.length + 1)).failed = true ∨
      (handled.drain env (handled.graph.storedTxs.entries.length + 1)).queuedTxs = [] := by
  refine drain_complete env _ handled ?_
  simp [storedCount, AList.keys, List.keys]

end Termination

end Attaching

open Attaching

/-- A parent one call asks the storage for: one of a transaction of the batch, or one that
some transaction already waits for. -/
def Asked (graph : GraphBuilder) (batch : List Lrc20Transaction) (parent : Txid) : Prop :=
  (∃ tx ∈ batch, parent ∈ tx.parents) ∨ ∃ txid, parent ∈ graph.waitsFor txid

/-- What handling the batch establishes and waking keeps holds at the end of a call, when nothing
is left to be woken. -/
theorem attachTxs_inv {I : List Txid → Attaching → Prop} {batch : List Lrc20Transaction}
    (running : ∀ {pending state}, I pending state → state.failed = false)
    (wakes : ∀ {txid rest state}, I (txid :: rest ++ state.queuedTxs) state →
      I (rest ++ (state.wake env txid).queuedTxs) (state.wake env txid))
    (walk : ∀ {state : Attaching}, I state.queuedTxs state →
      I (env.order state.queuedTxs ++ []) { state with queuedTxs := [] })
    (handled : I (batch.foldl (handleTx env) ⟨graph, [], [], 0, false⟩).queuedTxs
      (batch.foldl (handleTx env) ⟨graph, [], [], 0, false⟩)) :
    ∃ state, I [] state ∧ graph.attachTxs env batch = (state.graph, state.attachedTxs) := by
  have drained := drain_inv wakes walk
    ((batch.foldl (handleTx env) ⟨graph, [], [], 0, false⟩).graph.storedTxs.entries.length + 1)
    _ handled
  have idle := (attach_loop_ends env
    (batch.foldl (handleTx env) ⟨graph, [], [], 0, false⟩)).resolve_left
      (by simp [running drained])
  have calm := running drained
  rw [idle] at drained
  exact ⟨_, drained, by simp [attachTxs, calm]⟩

/-- What one call of `attach_txs` does when the storage is sound: every parent of an
attached transfer was good or is attached by the same call. -/
theorem attachTxs_spec {batch : List Lrc20Transaction} (known : Lrc20Transaction → Prop)
    (sound : Sound env good (Asked graph batch)) (waits : Waits good graph)
    (stored : ∀ txid tx created, graph.storedTxs.lookup txid = some (tx, created) → known tx)
    (fresh : ∀ tx ∈ batch, known tx) :
    let after := graph.attachTxs env batch
    let attached := fun txid => txid ∈ after.2.map Lrc20Transaction.txid
    Waits (fun txid => good txid ∨ attached txid) after.1 ∧
      (∀ txid tx created, after.1.storedTxs.lookup txid = some (tx, created) → known tx) ∧
      ∀ tx ∈ after.2, known tx ∧ ∀ parent ∈ tx.parents, good parent ∨ attached parent := by
  have start : CallInv good (Asked graph batch) known ⟨graph, [], [], 0, false⟩ :=
    ⟨rfl, waits.mono fun _ right => Or.inl right,
      fun txid parent member => Or.inr ⟨txid, member⟩, stored, by simp⟩
  have handled : CallInv good (Asked graph batch) known
      (batch.foldl (handleTx env) ⟨graph, [], [], 0, false⟩) :=
    List.foldlRecOn batch (handleTx env) start fun _ ih tx member =>
      handleTx_spec sound ih (fresh tx member) fun parent isParent =>
        Or.inl ⟨tx, member, isParent⟩
  obtain ⟨state, drained, call⟩ := attachTxs_inv
    (I := fun _ => CallInv good (Asked graph batch) known) CallInv.running
    (fun inv => wake_spec sound inv _) (fun inv => { inv with }) handled
  simp only [call]
  exact ⟨drained.waits, drained.stored, drained.attached⟩

theorem attachTxs_filter (env : Surroundings) (graph : GraphBuilder)
    (batch : List Lrc20Transaction) :
    graph.attachTxs env (batch.filter fun tx => !tx.txType.isAnnouncement) =
      graph.attachTxs env batch := by
  have handled : ∀ state : Attaching,
      (batch.filter fun tx => !tx.txType.isAnnouncement).foldl (handleTx env) state =
        batch.foldl (handleTx env) state := by
    induction batch with
    | nil => exact fun _ => rfl
    | cons tx rest ih =>
      intro state
      cases announcement : tx.txType.isAnnouncement with
      | false => simp [announcement, ih]
      | true =>
        have ignored : handleTx env state tx = state := by
          unfold handleTx
          cases kind : tx.txType with
          | announcement announcement => exact ite_self state
          | _ => rw [kind] at announcement; cases announcement
        simp [announcement, ih, ignored]
  simp only [attachTxs, handled]

theorem forgetChild_keeps (txid : Txid) (state : GraphBuilder × List Txid) (dep : Txid) :
    (forgetChild txid state dep).1.deps = state.1.deps ∧
      (forgetChild txid state dep).1.storedTxs = state.1.storedTxs := by
  unfold forgetChild
  split <;> exact ⟨rfl, rfl⟩

theorem removeTxFromDeps_keeps (env : Surroundings) (graph : GraphBuilder) (txid : Txid) :
    (graph.removeTxFromDeps env txid).1.deps = graph.deps.erase txid ∧
      (graph.removeTxFromDeps env txid).1.storedTxs = graph.storedTxs := by
  refine List.foldlRecOn (motive := fun state : GraphBuilder × List Txid =>
    state.1.deps = graph.deps.erase txid ∧ state.1.storedTxs = graph.storedTxs)
    _ (forgetChild txid) ⟨rfl, rfl⟩ ?_
  intro state ih dep _
  obtain ⟨deps, storedTxs⟩ := forgetChild_keeps txid state dep
  exact ⟨deps.trans ih.1, storedTxs.trans ih.2⟩

/-- The graph without a transaction: nothing else is stored or waits otherwise. -/
structure Forgets (txid : Txid) (graph graph' : GraphBuilder) : Prop where
  waitsFor : ∀ other ≠ txid, graph'.waitsFor other = graph.waitsFor other
  stored : ∀ other ≠ txid, graph'.storedTxs.lookup other = graph.storedTxs.lookup other
  gone : graph'.storedTxs.lookup txid = none

theorem Forgets.cut {txid : Txid} {graph graph' : GraphBuilder} (forgets : Forgets txid graph graph') :
    Cut (· = txid) graph.storedTxs graph'.storedTxs where
  gone := by
    rintro _ rfl
    exact forgets.gone
  kept := forgets.stored

/-- What holds of a graph without a transaction if it holds of the graph, a removal keeps. -/
theorem removeOutdated_keeps {I : GraphBuilder → Prop}
    (forget : ∀ graph graph' txid, I graph → Forgets txid graph graph' → I graph') (fuel : Nat) :
    ∀ (graph : GraphBuilder) (worklist removed rows : List Txid), I graph →
      I (graph.removeOutdated env fuel worklist removed rows).1 := by
  induction fuel with
  | zero => exact fun _ _ _ _ inv => inv
  | succ fuel ih =>
    intro graph worklist removed rows inv
    cases worklist with
    | nil => exact inv
    | cons txid rest =>
      rw [removeOutdated]
      obtain ⟨deps, storedTxs⟩ := removeTxFromDeps_keeps env
        { graph with storedTxs := graph.storedTxs.erase txid } txid
      refine ih _ _ _ _ (forget graph _ txid inv ⟨?_, ?_, ?_⟩)
      · intro other ne
        simp only [waitsFor, deps, AList.lookup_erase_ne ne]
      · intro other ne
        rw [storedTxs, AList.lookup_erase_ne ne]
      · rw [storedTxs, AList.lookup_erase]

theorem handleCleanup_keeps {I : GraphBuilder → Prop}
    (forget : ∀ graph graph' txid, I graph → Forgets txid graph graph' → I graph')
    {graph : GraphBuilder} (duration : Nat) (inv : I graph) :
    I (graph.handleCleanup env duration).1 := by
  simp only [handleCleanup]
  split
  · exact inv
  · exact List.foldlRecOn (motive := fun state : GraphBuilder × List Txid => I state.1)
      _ (removeOutdatedTx env) inv
      fun _ ih _ _ => removeOutdated_keeps forget _ _ _ _ _ ih

theorem handleCleanup_waits {good : Txid → Prop} {graph : GraphBuilder} (duration : Nat)
    (waits : Waits good graph) : Waits good (graph.handleCleanup env duration).1 :=
  handleCleanup_keeps
    (fun _ _ txid waits forgets => waits.forget txid forgets.waitsFor forgets.cut)
    duration waits

theorem handleCleanup_stored {known : Lrc20Transaction → Prop} (duration : Nat)
    (stored : ∀ txid tx created, graph.storedTxs.lookup txid = some (tx, created) → known tx) :
    ∀ txid tx created,
      (graph.handleCleanup env duration).1.storedTxs.lookup txid = some (tx, created) → known tx := by
  refine @handleCleanup_keeps env (fun graph => ∀ txid tx created,
    graph.storedTxs.lookup txid = some (tx, created) → known tx) ?_ graph duration stored
  exact fun _ _ _ stored forgets txid tx created found =>
    stored txid tx created (forgets.cut.of_some found).2

/-- The graph builder with the `AttachedTxs` events it has sent, oldest first. -/
structure World where
  graph : GraphBuilder
  events : List (List Lrc20Transaction)

namespace World

def new : World := ⟨GraphBuilder.new, []⟩

inductive Input where
  | attach (env : Surroundings) (batch : List Lrc20Transaction)
  | cleanup (env : Surroundings) (outdatedDuration : Nat)

/-- `handle_event` and the cleanup timer. An empty event is not sent. -/
def step (world : World) : Input → World
  | .attach env batch =>
    let after := world.graph.attachTxs env batch
    ⟨after.1, if after.2 = [] then world.events else world.events ++ [after.2]⟩
  | .cleanup env duration => { world with graph := (world.graph.handleCleanup env duration).1 }

/-- The txids of the events so far. -/
def announced (world : World) : List Txid :=
  world.events.flatten.map Lrc20Transaction.txid

/-- Every parent of an announced transfer is in the same event or an earlier one. -/
def ParentsAnnounced (events : List (List Lrc20Transaction)) : Prop :=
  ∀ earlier event later, events = earlier ++ event :: later →
    ∀ tx ∈ event, ∀ parent ∈ tx.parents,
      parent ∈ (earlier ++ [event]).flatten.map Lrc20Transaction.txid

/-- While a batch is handled, the storage answers for every parent asked for, and holds
it only if it has been announced. -/
def StorageHoldsAnnounced (world : World) : Input → Prop
  | .attach env batch => Sound env (· ∈ world.announced) (Asked world.graph batch)
  | .cleanup _ _ => True

structure Inv (world : World) : Prop where
  waits : Waits (· ∈ world.announced) world.graph
  ordered : ParentsAnnounced world.events

theorem parentsAnnounced_snoc {events : List (List Lrc20Transaction)}
    (ordered : ParentsAnnounced events) {event : List Lrc20Transaction}
    (last : ∀ tx ∈ event, ∀ parent ∈ tx.parents,
      parent ∈ (events ++ [event]).flatten.map Lrc20Transaction.txid) :
    ParentsAnnounced (events ++ [event]) := by
  intro earlier middle later split
  rcases List.eq_nil_or_concat later with rfl | ⟨before, final, rfl⟩
  · obtain ⟨rfl, same⟩ := List.append_inj' split rfl
    cases same
    exact last
  · have shorter : events = earlier ++ middle :: before := by
      rw [List.concat_eq_append, ← List.cons_append, ← List.append_assoc] at split
      exact (List.append_inj' split rfl).1
    exact ordered earlier middle before shorter

theorem step_inv (world : World) (input : Input) (inv : Inv world)
    (holds : world.StorageHoldsAnnounced input) : Inv (world.step input) := by
  cases input with
  | cleanup env duration => exact ⟨handleCleanup_waits duration inv.waits, inv.ordered⟩
  | attach env batch =>
    obtain ⟨waits, -, attached⟩ := attachTxs_spec (fun _ => True) holds inv.waits
      (fun _ _ _ _ => trivial) (fun _ _ => trivial)
    simp only [step]
    split
    · rename_i none
      simp only [none, List.map_nil, List.not_mem_nil, or_false] at waits
      exact ⟨waits, inv.ordered⟩
    · refine ⟨waits.mono fun txid right => ?_, parentsAnnounced_snoc inv.ordered ?_⟩
      · simpa [announced, or_comm] using right
      · intro tx member parent isParent
        have right := (attached tx member).2 parent isParent
        simpa [announced, or_comm] using right

/-- Attachment safety of the graph builder: as long as the storage holds, of the parents
asked for, only announced ones, a transfer is announced no earlier than its parents. -/
theorem parents_announced_of_storage_holds_announced (inputs : List Input)
    (run : Runs.AllSteps step StorageHoldsAnnounced new inputs) :
    ParentsAnnounced (Runs.runFrom step new inputs).events := by
  have start : Inv new := ⟨waits_new _, by intro earlier event later split; simp [new] at split⟩
  exact (run.invariant (I := Inv) step_inv start).ordered

/-- A transfer of transaction `2` that spends output `0` of transaction `1`. -/
def childTransfer : Lrc20Transaction where
  bitcoinTx := ⟨2, [⟨⟨1, 0⟩, [], []⟩], []⟩
  txType := .transfer ⟨[(0, .p2tr ⟨Receipt.empty, zeroPublicKey, none⟩)], by decide⟩ ProofMap.empty

def parentIssue : Lrc20Transaction where
  bitcoinTx := ⟨1, [], []⟩
  txType := .issue none ⟨zeroPublicKey, 0⟩

/-- A storage that holds exactly the listed transactions during the call. -/
def surroundingsHolding (rows : List Txid) : Surroundings where
  isStored _ txid := .ok (rows.contains txid)
  order := id
  order_perm _ := List.Perm.refl _
  now := 0

/-- The controller has stored the parent, which nobody has checked or announced: its child
is announced all the same. -/
theorem child_announced_without_parent :
    ¬ ParentsAnnounced (Runs.runFrom step new
      [.attach (surroundingsHolding [1]) [childTransfer]]).events := by
  intro ordered
  have parent := ordered [] [childTransfer] [] (by rfl) childTransfer (by simp) 1 (by decide)
  revert parent
  decide

theorem parents_announced_in_two_batches :
    Runs.AllSteps step StorageHoldsAnnounced new
        [.attach (surroundingsHolding []) [parentIssue],
          .attach (surroundingsHolding [1]) [childTransfer]] ∧
      ParentsAnnounced (Runs.runFrom step new
        [.attach (surroundingsHolding []) [parentIssue],
          .attach (surroundingsHolding [1]) [childTransfer]]).events := by
  have run : Runs.AllSteps step StorageHoldsAnnounced new
      [.attach (surroundingsHolding []) [parentIssue],
        .attach (surroundingsHolding [1]) [childTransfer]] := by
    refine ⟨?_, ?_, trivial⟩
    · intro n parent _
      exact ⟨⟨_, rfl⟩, fun present => by simp [surroundingsHolding] at present⟩
    · intro n parent _
      refine ⟨⟨_, rfl⟩, fun present => ?_⟩
      have isParent : parent = 1 := by simpa [surroundingsHolding] using present
      subst isParent
      decide
  exact ⟨run, parents_announced_of_storage_holds_announced _ run⟩

end World

end Lrc20.TxAttach
