import Mathlib.Data.Set.Finite.Basic
import Mathlib.Order.WellFounded
import Lrc20.Lib.Cuts
import Lrc20.TxAttach.Attachment

/-! Every transaction handed to the graph builder is announced, whatever the order, if each of
its parents is handed over too and the storage holds what was announced. -/

namespace Lrc20.TxAttach

open Attaching Cuts GraphBuilder Runs

namespace Attaching

/-- How the links of the graph stand within a call, with the children still to be woken. -/
structure Tied (good relevant : Txid → Prop) (pending : List Txid) (state : Attaching) : Prop where
  running : state.failed = false
  waiting : ∀ txid tx created, state.graph.storedTxs.lookup txid = some (tx, created) →
    state.graph.waitsFor txid ≠ []
  waits : ∀ txid, ∀ parent ∈ state.graph.waitsFor txid, relevant parent ∧
    ∃ tx created, state.graph.storedTxs.lookup txid = some (tx, created) ∧ tx.txid = txid ∧
      parent ∈ tx.parents
  linked : ∀ txid, ∀ parent ∈ state.graph.waitsFor txid,
    txid ∈ state.graph.children parent ∨ state.Good good parent ∧ txid ∈ pending
  children : ∀ parent, ∀ child ∈ state.graph.children parent,
    ¬ state.Good good parent ∧ parent ∈ state.graph.waitsFor child
  depsFilled : ∀ txid, state.graph.deps.lookup txid ≠ some []
  childrenFilled : ∀ txid, state.graph.inverseDeps.lookup txid ≠ some []
  distinct : ∀ txid, (state.graph.children txid).Nodup

/-- What else holds within a call that hands over only new transactions, with those handled since
the builder was made. -/
structure Complete (good relevant : Txid → Prop) (handled : List Lrc20Transaction)
    (pending : List Txid) (state : Attaching) : Prop extends
    Tied good relevant pending state where
  stored : ∀ txid tx created, state.graph.storedTxs.lookup txid = some (tx, created) →
    tx ∈ handled ∧ tx.txid = txid ∧ ¬ state.Good good txid
  kept : ∀ tx ∈ handled, state.Good good tx.txid ∨
    ∃ created, state.graph.storedTxs.lookup tx.txid = some (tx, created)
  attached : ∀ tx ∈ state.attachedTxs, tx ∈ handled ∧ ¬ good tx.txid
  once : state.attachedIds.Nodup

variable {env : Surroundings} {good relevant : Txid → Prop} {handled : List Lrc20Transaction}
  {pending : List Txid} {state : Attaching} {txid : Txid} {rest parents : List Txid}
  {parent child : Txid} {tx : Lrc20Transaction} {after : Attaching}

variable (sound : Sound env good relevant) (full : Full env good relevant)
  (tied : Tied good relevant pending state) (inv : Complete good relevant handled pending state)

/-- A transaction with nothing left to wait for is announced. The state afterwards is described
by what it holds, since the four places that announce build it in different ways. -/
structure Announces (good : Txid → Prop) (tx : Lrc20Transaction) (before after : Attaching) :
    Prop where
  running : after.failed = false
  attachedTxs : after.attachedTxs = before.attachedTxs ++ [tx]
  settled : ∀ parent ∈ before.graph.waitsFor tx.txid, before.Good good parent
  storedTxs : Cut (· = tx.txid) before.graph.storedTxs after.graph.storedTxs
  deps : Cut (· = tx.txid) before.graph.deps after.graph.deps
  inverseDeps : Cut (· = tx.txid) before.graph.inverseDeps after.graph.inverseDeps
  queued : ∀ child ∈ before.queuedTxs, child ∈ after.queuedTxs
  woken : ∀ child ∈ before.graph.children tx.txid, child ∈ after.queuedTxs

theorem Announces.good_iff (announces : Announces good tx state after) (txid : Txid) :
    after.Good good txid ↔ state.Good good txid ∨ txid = tx.txid := by
  simp [Good, attachedIds, announces.attachedTxs, or_assoc]

include tied in
theorem Tied.announce (announces : Announces good tx state after)
    (queue : ∀ child ∈ pending, child ≠ tx.txid → child ∈ rest ++ state.queuedTxs) :
    Tied good relevant (rest ++ after.queuedTxs) after := by
  have good_iff := announces.good_iff
  obtain ⟨running, -, settled, storedTxs, deps, inverseDeps, queued, woken⟩ := announces
  constructor
  case running => exact running
  case waiting =>
    intro txid other created present
    obtain ⟨apart, before⟩ := storedTxs.of_some present
    rw [waitsFor, deps.list_kept apart]
    exact tied.waiting txid other created before
  case waits =>
    intro txid parent member
    obtain ⟨waits, apart⟩ := deps.mem_list.mp member
    rw [storedTxs.kept txid apart]
    exact tied.waits txid parent waits
  case linked =>
    intro txid parent member
    obtain ⟨waits, apart⟩ := deps.mem_list.mp member
    rcases tied.linked txid parent waits with link | ⟨isGood, isPending⟩
    · by_cases woke : parent = tx.txid
      · rw [woke] at link
        exact Or.inr ⟨(good_iff parent).mpr (Or.inr woke),
          List.mem_append_right _ (woken txid link)⟩
      · exact Or.inl (inverseDeps.mem_list.mpr ⟨link, woke⟩)
    · refine Or.inr ⟨(good_iff parent).mpr (Or.inl isGood), ?_⟩
      rcases List.mem_append.mp (queue txid isPending apart) with later | next
      · exact List.mem_append_left _ later
      · exact List.mem_append_right _ (queued txid next)
  case children =>
    intro parent child member
    obtain ⟨link, same⟩ := inverseDeps.mem_list.mp member
    obtain ⟨unannounced, waits⟩ := tied.children parent child link
    have apart : child ≠ tx.txid := by
      intro equal
      rw [equal] at waits
      exact unannounced (settled parent waits)
    rw [good_iff]
    exact ⟨not_or_intro unannounced same, deps.mem_list.mpr ⟨waits, apart⟩⟩
  case depsFilled => exact deps.filled tied.depsFilled
  case childrenFilled => exact inverseDeps.filled tied.childrenFilled
  case distinct => exact inverseDeps.nodup tied.distinct

include inv in
theorem Complete.announce {handled' : List Lrc20Transaction}
    (announces : Announces good tx state after) (fresh : ¬ state.Good good tx.txid)
    (grown : ∀ other, other ∈ handled' ↔ other ∈ handled ∨ other = tx)
    (queue : ∀ child ∈ pending, child ≠ tx.txid → child ∈ rest ++ state.queuedTxs) :
    Complete good relevant handled' (rest ++ after.queuedTxs) after := by
  have good_iff := announces.good_iff
  refine { inv.toTied.announce announces queue with
    stored := ?stored, kept := ?kept, attached := ?attached, once := ?once }
  case stored =>
    intro txid other created present
    obtain ⟨apart, before⟩ := announces.storedTxs.of_some present
    obtain ⟨member, keyed, unannounced⟩ := inv.stored txid other created before
    refine ⟨(grown other).mpr (Or.inl member), keyed, ?_⟩
    rw [good_iff]
    exact not_or_intro unannounced apart
  case kept =>
    intro other member
    by_cases same : other.txid = tx.txid
    · exact Or.inl ((good_iff _).mpr (Or.inr same))
    · have older : other ∈ handled := by
        refine ((grown other).mp member).resolve_right ?_
        intro equal
        exact same (congrArg Lrc20Transaction.txid equal)
      rw [good_iff, announces.storedTxs.kept _ same]
      exact (inv.kept other older).imp_left Or.inl
  case attached =>
    intro other member
    rw [announces.attachedTxs, List.mem_append, List.mem_singleton] at member
    rcases member with older | rfl
    · obtain ⟨isHandled, unannounced⟩ := inv.attached other older
      exact ⟨(grown other).mpr (Or.inl isHandled), unannounced⟩
    · exact ⟨(grown other).mpr (Or.inr rfl), fun isGood => fresh (Or.inl isGood)⟩
  case once =>
    rw [attachedIds, announces.attachedTxs, List.map_append, List.map_singleton]
    refine List.nodup_append'.mpr ⟨inv.once, List.nodup_singleton _, ?_⟩
    intro txid member single
    rw [List.mem_singleton.mp single] at member
    exact fresh (Or.inr member)

include tied in
theorem Tied.untied (unstored : state.graph.storedTxs.lookup txid = none) :
    state.graph.waitsFor txid = [] := by
  apply List.eq_nil_iff_forall_not_mem.mpr
  intro parent member
  obtain ⟨-, tx, created, stored, -⟩ := tied.waits txid parent member
  rw [unstored] at stored
  cases stored

include tied in
theorem Tied.undepended (unstored : state.graph.storedTxs.lookup txid = none) :
    state.graph.deps.lookup txid = none :=
  lookup_eq_none tied.depsFilled (tied.untied unstored)

include inv in
/-- A transaction with a new txid is not announced and not stored. -/
theorem Complete.unknown (known : ∀ txid, good txid → ∃ tx ∈ handled, tx.txid = txid)
    (fresh : ∀ tx ∈ handled, tx.txid ≠ txid) :
    ¬ state.Good good txid ∧ state.graph.storedTxs.lookup txid = none := by
  have unannounced : ¬ state.Good good txid := by
    rintro (before | now)
    · obtain ⟨tx, member, same⟩ := known txid before
      exact fresh tx member same
    · obtain ⟨tx, member, same⟩ := List.mem_map.mp now
      exact fresh tx (inv.attached tx member).1 same
  have unstored : state.graph.storedTxs.lookup txid = none := by
    by_contra present
    obtain ⟨⟨tx, created⟩, found⟩ := Option.ne_none_iff_exists'.mp present
    obtain ⟨member, keyed, -⟩ := inv.stored txid tx created found
    exact fresh tx member keyed
  exact ⟨unannounced, unstored⟩

/-- A state in which a child waits for those of the listed parents that are not good, and that
is otherwise the same. -/
structure Links (good : Txid → Prop) (child : Txid) (parents : List Txid)
    (before after : Attaching) : Prop where
  failed : after.failed = before.failed
  attachedTxs : after.attachedTxs = before.attachedTxs
  queuedTxs : after.queuedTxs = before.queuedTxs
  storedTxs : after.graph.storedTxs = before.graph.storedTxs
  waitsFor : ∀ txid parent, parent ∈ after.graph.waitsFor txid ↔
    parent ∈ before.graph.waitsFor txid ∨
      txid = child ∧ parent ∈ parents ∧ ¬ before.Good good parent
  children : ∀ parent txid, txid ∈ after.graph.children parent ↔
    txid ∈ before.graph.children parent ∨
      txid = child ∧ parent ∈ parents ∧ ¬ before.Good good parent
  depsFilled : ∀ txid, after.graph.deps.lookup txid = some [] →
    before.graph.deps.lookup txid = some []
  childrenFilled : ∀ txid, after.graph.inverseDeps.lookup txid = some [] →
    before.graph.inverseDeps.lookup txid = some []
  distinct : (∀ txid, (before.graph.children txid).Nodup) →
    ∀ txid, (after.graph.children txid).Nodup

theorem mem_children_addDep (graph : GraphBuilder) (child parent other txid : Txid) :
    txid ∈ (graph.addDep child parent).children other ↔
      (other = parent ∧ txid = child) ∨ txid ∈ graph.children other := by
  unfold GraphBuilder.addDep children
  by_cases same : other = parent
  · subst same
    simp [List.mem_insert_iff]
  · simp [AList.lookup_insert_ne same, same]

theorem mem_children_addDeps (graph : GraphBuilder) (child : Txid) (parents : List Txid)
    (other txid : Txid) :
    txid ∈ (graph.addDeps child parents).children other ↔
      (txid = child ∧ other ∈ parents) ∨ txid ∈ graph.children other := by
  unfold GraphBuilder.addDeps
  induction parents generalizing graph with
  | nil => simp
  | cons parent rest ih =>
    rw [List.foldl_cons, ih, mem_children_addDep, List.mem_cons]
    tauto

/-- A child that waits for nothing was not linked. -/
theorem eq_nil_of_waitsFor_addDeps {graph : GraphBuilder}
    (empty : (graph.addDeps child parents).waitsFor child = []) : parents = [] := by
  apply List.eq_nil_iff_forall_not_mem.mpr
  intro parent member
  have waited := (mem_waitsFor_addDeps graph child parents child parent).mpr
    (Or.inl ⟨rfl, member⟩)
  rw [empty] at waited
  cases waited

/-- Links leave no list empty that was not, and no child twice in one. -/
theorem addDeps_keeps (graph : GraphBuilder) (child : Txid) (parents : List Txid) :
    (∀ txid, (graph.addDeps child parents).deps.lookup txid = some [] →
        graph.deps.lookup txid = some []) ∧
      (∀ txid, (graph.addDeps child parents).inverseDeps.lookup txid = some [] →
        graph.inverseDeps.lookup txid = some []) ∧
      ((∀ txid, (graph.children txid).Nodup) →
        ∀ txid, ((graph.addDeps child parents).children txid).Nodup) := by
  induction parents generalizing graph with
  | nil => exact ⟨fun _ => id, fun _ => id, id⟩
  | cons parent rest ih =>
    obtain ⟨deps, inverse, nodup⟩ := ih (graph.addDep child parent)
    refine ⟨fun txid empty => ?_, fun txid empty => ?_, fun before => nodup fun txid => ?_⟩
    · have empty := deps txid empty
      by_cases same : txid = child
      · have here := (mem_waitsFor_addDep graph child parent txid parent).mpr (Or.inl ⟨same, rfl⟩)
        rw [waitsFor, empty] at here
        cases here
      · rwa [GraphBuilder.addDep, AList.lookup_insert_ne same] at empty
    · have empty := inverse txid empty
      by_cases same : txid = parent
      · have here := (mem_children_addDep graph child parent txid child).mpr (Or.inl ⟨same, rfl⟩)
        rw [children, empty] at here
        cases here
      · rwa [GraphBuilder.addDep, AList.lookup_insert_ne same] at empty
    · by_cases same : txid = parent
      · subst same
        simpa [GraphBuilder.addDep, children] using (before txid).insert
      · simpa [GraphBuilder.addDep, children, AList.lookup_insert_ne same] using before txid

include sound full in
theorem linkParents_links (running : state.failed = false) (child : Txid)
    (asked : ∀ parent ∈ parents, relevant parent) :
    Links good child parents state (parents.foldl (linkParent env child) state) := by
  obtain ⟨reads, linked, done, among, all, unmet⟩ :=
    linkParents_eq sound child parents state running asked
  have isLinked : ∀ parent, parent ∈ linked ↔ parent ∈ parents ∧ ¬ state.Good good parent :=
    fun parent => ⟨fun member => ⟨among parent member, unmet full parent member⟩,
      fun missing => (all parent missing.1).resolve_right missing.2⟩
  obtain ⟨deps, inverse, nodup⟩ := addDeps_keeps state.graph child linked
  rw [done]
  refine ⟨rfl, rfl, rfl, storedTxs_addDeps _ _ _, ?_, ?_, deps, inverse, nodup⟩
  · intro txid parent
    rw [mem_waitsFor_addDeps, isLinked, or_comm]
  · intro parent txid
    rw [mem_children_addDeps, isLinked, or_comm]

theorem Links.sameGood (links : Links good child parents state after) (txid : Txid) :
    after.Good good txid ↔ state.Good good txid := by
  simp only [Good, attachedIds, links.attachedTxs]

/-- The state in which a transfer is stored. -/
def store (state : Attaching) (tx : Lrc20Transaction) (now : Nat) : Attaching :=
  { state with graph := { state.graph with
    storedTxs := state.graph.storedTxs.insert tx.txid (tx, now) } }

theorem lookup_store_ne {now : Nat} (links : Links good child parents state after)
    (other : txid ≠ tx.txid) : (after.store tx now).graph.storedTxs.lookup txid =
      state.graph.storedTxs.lookup txid := by
  rw [store, AList.lookup_insert_ne other, links.storedTxs]

theorem lookup_store (state : Attaching) (tx : Lrc20Transaction) (now : Nat) :
    (state.store tx now).graph.storedTxs.lookup tx.txid = some (tx, now) :=
  AList.lookup_insert _

section Store

variable {now : Nat} (links : Links good tx.txid tx.parents state after)
  (unstored : state.graph.storedTxs.lookup tx.txid = none)
  (asked : ∀ parent ∈ tx.parents, relevant parent) (waits : after.graph.waitsFor tx.txid ≠ [])
include links unstored asked waits

include tied in
/-- A transfer with a parent to wait for is stored with its links. -/
theorem Tied.store : Tied good relevant pending (after.store tx now) := by
  have storedKept : ∀ txid, txid ≠ tx.txid → (after.store tx now).graph.storedTxs.lookup txid =
      state.graph.storedTxs.lookup txid := fun _ => lookup_store_ne links
  have untied := tied.untied unstored
  have waitsFor : ∀ txid parent, parent ∈ after.graph.waitsFor txid ↔
      parent ∈ state.graph.waitsFor txid ∨
        txid = tx.txid ∧ parent ∈ tx.parents ∧ ¬ state.Good good parent := links.waitsFor
  have isGood := links.sameGood
  constructor
  case running => exact links.failed.trans tied.running
  case waiting =>
    intro txid other created present
    by_cases same : txid = tx.txid
    · rw [same]
      exact waits
    · rw [storedKept txid same] at present
      obtain ⟨parent, member⟩ := List.exists_mem_of_ne_nil _ (tied.waiting _ _ _ present)
      exact List.ne_nil_of_mem ((waitsFor txid parent).mpr (Or.inl member))
  case waits =>
    intro txid parent member
    rcases (waitsFor txid parent).mp member with older | ⟨rfl, isParent, -⟩
    · have apart : txid ≠ tx.txid := by
        intro same
        rw [same, untied] at older
        cases older
      simp only [storedKept txid apart]
      exact tied.waits txid parent older
    · exact ⟨asked parent isParent, tx, now, lookup_store after tx now, rfl, isParent⟩
  case linked =>
    intro txid parent member
    rcases (waitsFor txid parent).mp member with older | new
    · refine (tied.linked txid parent older).imp ?_ ?_
      · exact fun link => (links.children parent txid).mpr (Or.inl link)
      · exact fun queued => ⟨(isGood parent).mpr queued.1, queued.2⟩
    · exact Or.inl ((links.children parent txid).mpr (Or.inr new))
  case children =>
    intro parent child member
    rcases (links.children parent child).mp member with older | new
    · obtain ⟨no, waits⟩ := tied.children parent child older
      exact ⟨fun good => no ((isGood parent).mp good), (waitsFor child parent).mpr (Or.inl waits)⟩
    · exact ⟨fun good => new.2.2 ((isGood parent).mp good),
        (waitsFor child parent).mpr (Or.inr new)⟩
  case depsFilled => exact fun txid empty => tied.depsFilled txid (links.depsFilled txid empty)
  case childrenFilled =>
    exact fun txid empty => tied.childrenFilled txid (links.childrenFilled txid empty)
  case distinct => exact links.distinct tied.distinct

include inv in
theorem Complete.store (unannounced : ¬ state.Good good tx.txid) :
    Complete good relevant (handled ++ [tx]) pending (after.store tx now) := by
  have isGood := links.sameGood
  refine { inv.toTied.store links unstored asked waits with
    stored := ?stored, kept := ?kept, attached := ?attached, once := ?once }
  case stored =>
    intro txid other created present
    by_cases same : txid = tx.txid
    · subst same
      rw [lookup_store] at present
      cases present
      exact ⟨by simp, rfl, fun good => unannounced ((isGood _).mp good)⟩
    · rw [lookup_store_ne links same] at present
      obtain ⟨member, keyed, no⟩ := inv.stored txid other created present
      exact ⟨List.mem_append_left _ member, keyed, fun good => no ((isGood _).mp good)⟩
  case kept =>
    intro other member
    rcases List.mem_append.mp member with older | single
    · rcases inv.kept other older with good | ⟨created, stored⟩
      · exact Or.inl ((isGood _).mpr good)
      · have apart : other.txid ≠ tx.txid := by
          intro same
          rw [same, unstored] at stored
          cases stored
        exact Or.inr ⟨created, (lookup_store_ne links apart).trans stored⟩
    · rw [List.mem_singleton.mp single]
      exact Or.inr ⟨now, lookup_store after tx now⟩
  case attached =>
    intro other member
    obtain ⟨isHandled, no⟩ := inv.attached other (links.attachedTxs ▸ member)
    exact ⟨List.mem_append_left _ isHandled, no⟩
  case once =>
    show after.attachedIds.Nodup
    simpa only [attachedIds, links.attachedTxs] using inv.once

end Store

section Handle

variable (asked : ∀ parent ∈ tx.parents, relevant parent)
include sound full asked

/-- What one transaction of a batch does: an announcement nothing, and any other is announced or
stored. An exit is announced without waking anybody, so that nobody may wait for it. -/
theorem handleTx_cases (tied : Tied good relevant state.queuedTxs state)
    (unstored : state.graph.storedTxs.lookup tx.txid = none)
    (exits : ∀ proofs, tx.txType = .sparkExit proofs → state.graph.children tx.txid = []) :
    (∃ announcement, tx.txType = .announcement announcement) ∧ state.handleTx env tx = state ∨
      Announces good tx state (state.handleTx env tx) ∨
      ∃ after, Links good tx.txid tx.parents state after ∧ after.graph.waitsFor tx.txid ≠ [] ∧
        state.handleTx env tx = after.store tx env.now := by
  have untied := tied.undepended unstored
  have settled : ∀ parent ∈ state.graph.waitsFor tx.txid, state.Good good parent := by
    simp [waitsFor, untied]
  have queued : ∀ child ∈ state.queuedTxs,
      child ∈ state.queuedTxs ∪ state.graph.children tx.txid :=
    fun _ isQueued => List.mem_union_iff.mpr (Or.inl isQueued)
  have woken : ∀ child ∈ state.graph.children tx.txid,
      child ∈ state.queuedTxs ∪ state.graph.children tx.txid :=
    fun _ isChild => List.mem_union_iff.mpr (Or.inr isChild)
  unfold handleTx
  rw [if_neg (by simp [tied.running])]
  split
  case h_1 =>
    exact Or.inr (Or.inl ⟨tied.running, rfl, settled, cut_absent unstored, cut_absent untied,
      cut_erase _ _, queued, woken⟩)
  case h_2 =>
    obtain ⟨reads, linked, done, -⟩ :=
      linkParents_eq sound tx.txid tx.parents state tied.running asked
    have links := linkParents_links sound full tied.running tx.txid asked
    unfold handleTransfer
    rw [done] at links ⊢
    unfold settle
    rw [if_neg (by simp [tied.running])]
    split
    · rename_i empty
      obtain rfl := eq_nil_of_waitsFor_addDeps empty
      exact Or.inr (Or.inl ⟨tied.running, rfl, settled, cut_absent unstored, cut_erase _ _,
        cut_erase _ _, queued, woken⟩)
    · rename_i waits
      exact Or.inr (Or.inr ⟨_, links, waits, rfl⟩)
  case h_3 announcement isKind => exact Or.inl ⟨⟨announcement, isKind⟩, rfl⟩
  case h_4 proofs isKind =>
    have childless := exits proofs isKind
    have keyless := lookup_eq_none tied.childrenFilled childless
    exact Or.inr (Or.inl ⟨tied.running, rfl, settled, cut_absent unstored, cut_absent untied,
      cut_absent keyless, fun _ => id, by simp [childless]⟩)

theorem handleTx_tied (tied : Tied good relevant state.queuedTxs state)
    (unstored : state.graph.storedTxs.lookup tx.txid = none)
    (exits : ∀ proofs, tx.txType = .sparkExit proofs → state.graph.children tx.txid = []) :
    Tied good relevant (state.handleTx env tx).queuedTxs (state.handleTx env tx) := by
  rcases handleTx_cases sound full asked tied unstored exits with
    ⟨-, same⟩ | announces | ⟨after, links, waits, stored⟩
  · rw [same]
    exact tied
  · exact @Tied.announce _ _ _ _ [] _ _ tied announces fun _ queued _ => queued
  · have queue : (after.store tx env.now).queuedTxs = state.queuedTxs := links.queuedTxs
    rw [stored, queue]
    exact tied.store links unstored asked waits

theorem handleTx_complete (inv : Complete good relevant handled state.queuedTxs state)
    (known : ∀ txid, good txid → ∃ tx ∈ handled, tx.txid = txid)
    (fresh : ∀ other ∈ handled, other.txid ≠ tx.txid)
    (kind : ∀ announcement, tx.txType ≠ .announcement announcement)
    (exits : ∀ proofs, tx.txType = .sparkExit proofs → ∀ other ∈ handled, tx.txid ∉ other.parents) :
    Complete good relevant (handled ++ [tx]) (state.handleTx env tx).queuedTxs
      (state.handleTx env tx) := by
  obtain ⟨unannounced, unstored⟩ := inv.unknown known fresh
  have childless : ∀ proofs, tx.txType = .sparkExit proofs →
      state.graph.children tx.txid = [] := by
    intro proofs isKind
    apply List.eq_nil_iff_forall_not_mem.mpr
    intro child member
    obtain ⟨-, other, created, stored, -, isParent⟩ :=
      inv.waits child tx.txid (inv.children tx.txid child member).2
    exact exits proofs isKind other (inv.stored child other created stored).1 isParent
  rcases handleTx_cases sound full asked inv.toTied unstored childless with
    ⟨⟨announcement, isKind⟩, -⟩ | announces | ⟨after, links, waits, stored⟩
  · exact absurd isKind (kind announcement)
  · exact @Complete.announce _ _ _ _ _ [] _ _ inv _ announces unannounced (by simp)
      fun _ queued _ => queued
  · have queue : (after.store tx env.now).queuedTxs = state.queuedTxs := links.queuedTxs
    rw [stored, queue]
    exact inv.store links unstored asked waits unannounced

end Handle

include tied in
theorem Tied.shrink {waiting left : List Txid} {reads : Nat}
    (waits : state.graph.deps.lookup txid = some waiting)
    (kept : ∀ parent, parent ∈ left ↔ parent ∈ waiting ∧ ¬ state.Good good parent)
    (still : left ≠ []) (queue : ∀ child ∈ pending, child ≠ txid → child ∈ rest) :
    Tied good relevant rest { state with
      reads := reads
      graph := { state.graph with deps := state.graph.deps.insert txid left } } := by
  have waitsHere : state.graph.waitsFor txid = waiting := by
    rw [waitsFor, waits, Option.getD_some]
  have fewer : ∀ other, ∀ parent ∈
      ({ state.graph with deps := state.graph.deps.insert txid left } : GraphBuilder).waitsFor other,
      parent ∈ state.graph.waitsFor other ∧ (other = txid → ¬ state.Good good parent) := by
    intro other parent member
    by_cases same : other = txid
    · subst same
      rw [waitsFor_insert_self] at member
      rw [waitsHere]
      exact ⟨((kept parent).mp member).1, fun _ => ((kept parent).mp member).2⟩
    · rw [waitsFor_insert_ne _ _ same] at member
      exact ⟨member, fun equal => absurd equal same⟩
  constructor
  case running => exact tied.running
  case waiting =>
    intro other tx created stored
    by_cases same : other = txid
    · rw [same, waitsFor_insert_self]
      exact still
    · rw [waitsFor_insert_ne _ _ same]
      exact tied.waiting other tx created stored
  case waits => exact fun other parent member => tied.waits other parent (fewer other parent member).1
  case linked =>
    intro other parent member
    obtain ⟨older, unannounced⟩ := fewer other parent member
    refine (tied.linked other parent older).imp_right ?_
    rintro ⟨isGood, queued⟩
    exact ⟨isGood, queue other queued fun same => unannounced same isGood⟩
  case children =>
    intro parent child member
    obtain ⟨unannounced, waited⟩ := tied.children parent child member
    refine ⟨unannounced, ?_⟩
    by_cases same : child = txid
    · subst same
      rw [waitsFor_insert_self]
      rw [waitsHere] at waited
      exact (kept parent).mpr ⟨waited, unannounced⟩
    · rw [waitsFor_insert_ne _ _ same]
      exact waited
  case depsFilled =>
    intro other
    by_cases same : other = txid
    · rw [same, AList.lookup_insert]
      exact fun empty => still (Option.some.inj empty)
    · rw [AList.lookup_insert_ne same]
      exact tied.depsFilled other
  case childrenFilled => exact tied.childrenFilled
  case distinct => exact tied.distinct

include sound full in
/-- What waking a transaction does: it waits for nothing, it waits for fewer parents, or it is
announced. -/
theorem wake_outcome (tied : Tied good relevant pending state) (txid : Txid) :
    state.wake env txid = state ∧ state.graph.waitsFor txid = [] ∨
      (∃ waiting left reads, state.graph.deps.lookup txid = some waiting ∧
        (∀ parent, parent ∈ left ↔ parent ∈ waiting ∧ ¬ state.Good good parent) ∧ left ≠ [] ∧
        state.wake env txid = { state with
          reads := reads
          graph := { state.graph with deps := state.graph.deps.insert txid left } }) ∨
      ∃ tx created, state.graph.storedTxs.lookup txid = some (tx, created) ∧ tx.txid = txid ∧
        Announces good tx state (state.wake env txid) := by
  unfold wake
  rw [if_neg (by simp [tied.running])]
  cases waits : state.graph.deps.lookup txid with
  | none =>
    have none : state.graph.waitsFor txid = [] := by
      rw [waitsFor, waits, Option.getD_none]
    have unstored : state.graph.storedTxs.lookup txid = Option.none := by
      by_contra present
      obtain ⟨⟨tx, created⟩, stored⟩ := Option.ne_none_iff_exists'.mp present
      exact tied.waiting _ _ _ stored none
    have same : state.removeAttachedParents env txid = (state, true) := by
      simp [removeAttachedParents, waits]
    simp only [same, unstored, tied.running]
    rw [if_neg (by simp)]
    exact Or.inl ⟨rfl, none⟩
  | some waiting =>
    have waitsHere : state.graph.waitsFor txid = waiting := by
      rw [waitsFor, waits, Option.getD_some]
    obtain ⟨reads, kept, removed, subset, others', unattached⟩ :=
      removeAttachedParents_spec sound tied.running waits fun parent member =>
        (tied.waits txid parent (waitsHere ▸ member)).1
    have left : ∀ parent, parent ∈ kept ↔ parent ∈ waiting ∧ ¬ state.Good good parent := by
      intro parent
      constructor
      · exact fun member => ⟨subset parent member, unattached full parent member⟩
      · rintro ⟨waited, no⟩
        exact (others' parent waited).resolve_right no
    simp only [removed]
    split
    · rename_i blocked
      refine Or.inr (Or.inl ⟨waiting, kept, _, rfl, left, ?_, rfl⟩)
      rintro rfl
      simp [tied.running] at blocked
    · rename_i ready
      have empty : kept = [] := by simpa [tied.running] using ready
      obtain ⟨parent, member⟩ := List.exists_mem_of_ne_nil waiting fun none =>
        tied.depsFilled txid (waits.trans (congrArg some none))
      obtain ⟨-, tx, created, stored, keyed, -⟩ := tied.waits txid parent (waitsHere ▸ member)
      subst keyed
      simp only [stored]
      refine Or.inr (Or.inr ⟨tx, created, rfl, rfl, tied.running, rfl, ?_, cut_erase _ _,
        cut_insert_erase _ _ _, cut_erase _ _, ?_, ?_⟩)
      · intro other waited
        by_contra no
        have remains := (left other).mpr ⟨waitsHere ▸ waited, no⟩
        rw [empty] at remains
        cases remains
      · exact fun child queued => List.mem_union_iff.mpr (Or.inl queued)
      · exact fun child woken => List.mem_union_iff.mpr (Or.inr woken)

include tied in
theorem Tied.of_waits (queue : ∀ child ∈ pending, state.graph.waitsFor child ≠ [] → child ∈ rest) :
    Tied good relevant rest state := by
  refine { tied with linked := ?_ }
  intro txid parent member
  refine (tied.linked txid parent member).imp_right ?_
  rintro ⟨isGood, queued⟩
  exact ⟨isGood, queue txid queued (List.ne_nil_of_mem member)⟩

/-- A woken transaction is dealt with: what stays pending are the others. -/
theorem mem_others (child : Txid) (member : child ∈ txid :: rest ++ state.queuedTxs)
    (apart : child ≠ txid) : child ∈ rest ++ state.queuedTxs :=
  (List.mem_cons.mp member).resolve_left apart

include sound full in
theorem wake_tied (tied : Tied good relevant (txid :: rest ++ state.queuedTxs) state) :
    Tied good relevant (rest ++ (state.wake env txid).queuedTxs) (state.wake env txid) := by
  rcases wake_outcome sound full tied txid with
    ⟨same, none⟩ | ⟨waiting, left, reads, waits, kept, still, woken⟩ |
      ⟨tx, created, -, rfl, announces⟩
  · rw [same]
    refine tied.of_waits fun child member waits => mem_others child member ?_
    rintro rfl
    exact waits none
  · rw [woken]
    exact tied.shrink waits kept still mem_others
  · exact tied.announce announces mem_others

include sound full in
theorem wake_complete
    (inv : Complete good relevant handled (txid :: rest ++ state.queuedTxs) state) :
    Complete good relevant handled (rest ++ (state.wake env txid).queuedTxs)
      (state.wake env txid) := by
  have tied := wake_tied sound full inv.toTied
  rcases wake_outcome sound full inv.toTied txid with
    ⟨same, -⟩ | ⟨waiting, left, reads, -, -, -, woken⟩ | ⟨tx, created, stored, rfl, announces⟩
  · rw [same] at tied ⊢
    exact { inv with toTied := tied }
  · rw [woken] at tied ⊢
    exact { inv with toTied := tied }
  · obtain ⟨isHandled, -, unannounced⟩ := inv.stored tx.txid tx created stored
    refine inv.announce announces unannounced ?_ mem_others
    intro other
    constructor
    · exact Or.inl
    · rintro (older | rfl)
      · exact older
      · exact isHandled

theorem Tied.walk (tied : Tied good relevant state.queuedTxs state) :
    Tied good relevant (env.order state.queuedTxs ++ []) { state with queuedTxs := [] } := by
  have walked : Tied good relevant (env.order state.queuedTxs ++ []) state :=
    tied.of_waits fun child queued _ => by
      simpa using (env.order_perm state.queuedTxs).mem_iff.mpr queued
  exact { walked with }

/-- With nothing pending, the links also stand in the next call. -/
theorem Tied.atRest {held : Txid → Prop} (tied : Tied good relevant [] state)
    (unlisted : ∀ parent, ∀ child ∈ state.graph.children parent, ¬ held parent) :
    Tied held (fun _ => True) [] ⟨state.graph, [], [], 0, false⟩ where
  running := rfl
  waiting := tied.waiting
  waits txid parent member := ⟨trivial, (tied.waits txid parent member).2⟩
  linked txid parent member := Or.inl ((tied.linked txid parent member).resolve_right (by simp))
  children parent child member := by
    refine ⟨?_, (tied.children parent child member).2⟩
    rintro (before | now)
    · exact unlisted parent child member before
    · cases now
  depsFilled := tied.depsFilled
  childrenFilled := tied.childrenFilled
  distinct := tied.distinct

/-- An exit is not the parent of a transaction handled before it. -/
def NotExitOf (earlier later : Lrc20Transaction) : Prop :=
  ∀ proofs, later.txType = .sparkExit proofs → later.txid ∉ earlier.parents

include sound full in
theorem handleTxs_complete (batch : List Lrc20Transaction) :
    ∀ (handled : List Lrc20Transaction) (state : Attaching),
      Complete good relevant handled state.queuedTxs state →
      (∀ txid, good txid → ∃ tx ∈ handled, tx.txid = txid) →
      ((handled ++ batch).map Lrc20Transaction.txid).Nodup →
      (∀ tx ∈ batch, ∀ announcement, tx.txType ≠ .announcement announcement) →
      (∀ tx ∈ batch, ∀ parent ∈ tx.parents, relevant parent) →
      (handled ++ batch).Pairwise NotExitOf →
        Complete good relevant (handled ++ batch) (batch.foldl (handleTx env) state).queuedTxs
          (batch.foldl (handleTx env) state) := by
  induction batch with
  | nil =>
    intro handled state inv known distinct kinds asked exits
    rw [List.append_nil]
    exact inv
  | cons tx rest ih =>
    intro handled state inv known distinct kinds asked exits
    have fresh : ∀ other ∈ handled, other.txid ≠ tx.txid := by
      intro other member same
      rw [List.map_append, List.nodup_append'] at distinct
      refine distinct.2.2 (List.mem_map_of_mem member) ?_
      rw [same]
      simp
    have before : ∀ proofs, tx.txType = .sparkExit proofs →
        ∀ other ∈ handled, tx.txid ∉ other.parents := by
      intro proofs kind other member
      exact (List.pairwise_append.mp exits).2.2 other member tx (by simp) proofs kind
    have next := handleTx_complete sound full (asked tx (by simp)) inv known fresh
      (kinds tx (by simp)) before
    have shape : handled ++ tx :: rest = handled ++ [tx] ++ rest := by simp
    rw [shape] at distinct exits ⊢
    refine ih (handled ++ [tx]) _ next ?_ distinct (fun other member => kinds other (by simp [member]))
      (fun other member => asked other (by simp [member])) exits
    intro txid isGood
    obtain ⟨other, member, same⟩ := known txid isGood
    exact ⟨other, List.mem_append_left _ member, same⟩

/-- A transaction that the builder does not store, and no exit that is waited for. -/
def Unheld (graph : GraphBuilder) (tx : Lrc20Transaction) : Prop :=
  graph.storedTxs.lookup tx.txid = none ∧
    ∀ proofs, tx.txType = .sparkExit proofs → graph.children tx.txid = []

include sound full in
/-- One transaction stores no other, and gives no children to an exit that comes after it. -/
theorem handleTx_unheld {later : Lrc20Transaction} (asked : ∀ parent ∈ tx.parents, relevant parent)
    (tied : Tied good relevant state.queuedTxs state) (unheld : Unheld state.graph tx)
    (apart : later.txid ≠ tx.txid) (ordered : NotExitOf tx later)
    (before : Unheld state.graph later) : Unheld (state.handleTx env tx).graph later := by
  obtain ⟨unstored, childless⟩ := before
  rcases handleTx_cases sound full asked tied unheld.1 unheld.2 with
    ⟨-, same⟩ | announces | ⟨after, links, -, stored⟩
  · rw [same]
    exact ⟨unstored, childless⟩
  · refine ⟨(announces.storedTxs.kept _ apart).trans unstored, fun proofs isExit => ?_⟩
    rw [children, announces.inverseDeps.list_kept apart]
    exact childless proofs isExit
  · rw [stored]
    refine ⟨(lookup_store_ne links apart).trans unstored, fun proofs isExit => ?_⟩
    apply List.eq_nil_iff_forall_not_mem.mpr
    intro child member
    rcases (links.children later.txid child).mp member with older | ⟨-, isParent, -⟩
    · rw [childless proofs isExit] at older
      cases older
    · exact ordered proofs isExit isParent

include sound full in
theorem handleTxs_tied (batch : List Lrc20Transaction) :
    ∀ state : Attaching, Tied good relevant state.queuedTxs state →
      (batch.map Lrc20Transaction.txid).Nodup → batch.Pairwise NotExitOf →
      (∀ tx ∈ batch, Unheld state.graph tx) →
      (∀ tx ∈ batch, ∀ parent ∈ tx.parents, relevant parent) →
        Tied good relevant (batch.foldl (handleTx env) state).queuedTxs
          (batch.foldl (handleTx env) state) := by
  induction batch with
  | nil => exact fun _ tied _ _ _ _ => tied
  | cons tx rest ih =>
    intro state tied distinct exits unheld asked
    have here := unheld tx List.mem_cons_self
    have asked' := asked tx List.mem_cons_self
    obtain ⟨apart, distinct'⟩ := List.nodup_cons.mp distinct
    obtain ⟨ordered, exits'⟩ := List.pairwise_cons.mp exits
    refine ih _ (handleTx_tied sound full asked' tied here.1 here.2) distinct' exits' ?_ ?_
    · intro later member
      refine handleTx_unheld sound full asked' tied here ?_ (ordered later member)
        (unheld later (List.mem_cons_of_mem _ member))
      exact fun same => apart (same ▸ List.mem_map_of_mem member)
    · exact fun later member => asked later (List.mem_cons_of_mem _ member)

end Attaching

/-- The builder between two calls. -/
def Rests (good : Txid → Prop) (handled : List Lrc20Transaction) (graph : GraphBuilder) : Prop :=
  Complete good (fun _ => True) handled [] ⟨graph, [], [], 0, false⟩

variable {good : Txid → Prop} {graph : GraphBuilder} {txs : List Lrc20Transaction}
  {handled batch : List Lrc20Transaction} {env : Surroundings}

/-- One call of `attach_txs` leaves the links of the graph as they were found. -/
theorem attachTxs_tied
    (sound : Sound env good (Asked graph batch)) (full : Full env good (Asked graph batch))
    (tied : Tied good (fun _ => True) [] ⟨graph, [], [], 0, false⟩)
    (distinct : (batch.map Lrc20Transaction.txid).Nodup) (exits : batch.Pairwise NotExitOf)
    (unheld : ∀ tx ∈ batch, Unheld graph tx) :
    Tied (fun _ => False) (fun _ => True) [] ⟨(graph.attachTxs env batch).1, [], [], 0, false⟩ := by
  have start : Tied good (Asked graph batch) [] ⟨graph, [], [], 0, false⟩ :=
    { tied with
      waits := fun txid parent member =>
        ⟨Or.inr ⟨txid, member⟩, (tied.waits txid parent member).2⟩ }
  have done := handleTxs_tied sound full batch ⟨graph, [], [], 0, false⟩ start distinct exits unheld
    fun tx member parent isParent => Or.inl ⟨tx, member, isParent⟩
  obtain ⟨state, drained, call⟩ := attachTxs_inv (I := Tied good (Asked graph batch)) Tied.running
    (wake_tied sound full) Tied.walk done
  rw [call]
  exact drained.atRest fun _ _ _ => id

/-- One call of `attach_txs` leaves the builder at rest, and announces only what it was handed
and had not announced. -/
theorem attachTxs_complete
    (sound : Sound env good (Asked graph batch)) (full : Full env good (Asked graph batch))
    (rests : Rests good handled graph) (known : ∀ txid, good txid → ∃ tx ∈ handled, tx.txid = txid)
    (distinct : ((handled ++ batch).map Lrc20Transaction.txid).Nodup)
    (kinds : ∀ tx ∈ batch, ∀ announcement, tx.txType ≠ .announcement announcement)
    (exits : (handled ++ batch).Pairwise NotExitOf) :
    let after := graph.attachTxs env batch
    Rests (fun txid => good txid ∨ txid ∈ after.2.map Lrc20Transaction.txid)
        (handled ++ batch) after.1 ∧
      (∀ tx ∈ after.2, tx ∈ handled ++ batch ∧ ¬ good tx.txid) ∧
      (after.2.map Lrc20Transaction.txid).Nodup := by
  have start : Complete good (Asked graph batch) handled [] ⟨graph, [], [], 0, false⟩ :=
    { rests with
      waits := fun txid parent member =>
        ⟨Or.inr ⟨txid, member⟩, (rests.waits txid parent member).2⟩ }
  have done := handleTxs_complete sound full batch handled ⟨graph, [], [], 0, false⟩ start known
    distinct kinds
    (fun tx member parent isParent => Or.inl ⟨tx, member, isParent⟩) exits
  obtain ⟨state, drained, call⟩ := attachTxs_inv
    (I := Complete good (Asked graph batch) (handled ++ batch)) (fun inv => inv.running)
    (wake_complete sound full) (fun inv => { inv with toTied := inv.toTied.walk }) done
  simp only [call]
  refine ⟨?_, drained.attached, drained.once⟩
  have isGood : ∀ txid, (Attaching.mk state.graph [] [] 0 false).Good (fun txid => good txid ∨
      txid ∈ state.attachedTxs.map Lrc20Transaction.txid) txid ↔ state.Good good txid := by
    intro txid
    simp [Good, attachedIds]
  constructor
  case toTied =>
    refine drained.toTied.atRest ?_
    intro parent child member announced
    exact (drained.children parent child member).1 ((isGood parent).mp (Or.inl announced))
  case stored => simpa only [isGood] using drained.stored
  case kept => simpa only [isGood] using drained.kept
  case attached => simp
  case once => exact List.nodup_nil

/-! ### Finite sets of transactions -/

/-- A transfer of the list spends from a parent. -/
def ParentIn (txs : List Lrc20Transaction) (parent child : Txid) : Prop :=
  ∃ tx ∈ txs, tx.txid = child ∧ parent ∈ tx.parents

def Acyclic (txs : List Lrc20Transaction) : Prop :=
  ∀ txid, ¬ Relation.TransGen (ParentIn txs) txid txid

/-- In a finite set without cycles, not every transaction of a non-empty part has a parent
in it. -/
theorem Acyclic.exists_first (acyclic : Acyclic txs) {part : Txid → Prop}
    (inside : ∀ txid, part txid → txid ∈ txs.map Lrc20Transaction.txid) {txid : Txid}
    (member : part txid) :
    ∃ first, part first ∧ ∀ parent, part parent → ¬ ParentIn txs parent first := by
  let Inside := {txid : Txid // txid ∈ txs.map Lrc20Transaction.txid}
  have finite : Finite Inside := (List.finite_toSet _).to_subtype
  let before : Inside → Inside → Prop := fun a b => Relation.TransGen (ParentIn txs) a.1 b.1
  have transitive : IsTrans Inside before := ⟨fun _ _ _ => Relation.TransGen.trans⟩
  have irreflexive : Std.Irrefl before := ⟨fun a => acyclic a.1⟩
  have founded : WellFounded before := Finite.wellFounded_of_trans_of_irrefl before
  obtain ⟨first, isPart, least⟩ := founded.has_min {a : Inside | part a.1}
    ⟨⟨txid, inside txid member⟩, member⟩
  refine ⟨first.1, isPart, ?_⟩
  intro parent parentPart isParent
  exact least ⟨parent, inside parent parentPart⟩ parentPart (.single isParent)

theorem eq_empty_of_lookup {β : Txid → Type} {map : AList β}
    (none : ∀ txid, map.lookup txid = none) : map = ∅ := by
  apply AList.ext
  apply List.eq_nil_iff_forall_not_mem.mpr
  rintro ⟨txid, value⟩ member
  have found := AList.mem_lookup_iff.mpr member
  rw [none] at found
  cases found

/-- A builder at rest that was handed all parents of all transactions has nothing left. -/
theorem Rests.done (rests : Rests good txs graph) (acyclic : Acyclic txs)
    (closed : ∀ tx ∈ txs, ∀ parent ∈ tx.parents, parent ∈ txs.map Lrc20Transaction.txid) :
    graph = GraphBuilder.new ∧ ∀ tx ∈ txs, good tx.txid := by
  have isGood : ∀ txid, (Attaching.mk graph [] [] 0 false).Good good txid ↔ good txid := by
    intro txid
    simp [Good, attachedIds]
  have unstored : ∀ txid, graph.storedTxs.lookup txid = none := by
    intro txid
    by_contra present
    have inside : ∀ other, graph.storedTxs.lookup other ≠ none →
        other ∈ txs.map Lrc20Transaction.txid := by
      intro other isStored
      obtain ⟨⟨tx, created⟩, stored⟩ := Option.ne_none_iff_exists'.mp isStored
      obtain ⟨member, keyed, -⟩ := rests.stored other tx created stored
      exact keyed ▸ List.mem_map_of_mem member
    obtain ⟨first, isStored, least⟩ := acyclic.exists_first inside present
    obtain ⟨⟨tx, created⟩, stored⟩ := Option.ne_none_iff_exists'.mp isStored
    obtain ⟨parent, waits⟩ := List.exists_mem_of_ne_nil _ (rests.waiting first tx created stored)
    obtain ⟨-, tx', created', stored', -, isParent⟩ := rests.waits first parent waits
    obtain ⟨member, keyed, -⟩ := rests.stored first tx' created' stored'
    refine least parent ?_ ⟨tx', member, keyed, isParent⟩
    -- The parent is linked, so it has not been announced, and it was handed over.
    have link := (rests.linked first parent waits).resolve_right fun queued =>
      List.not_mem_nil queued.2
    obtain ⟨unannounced, -⟩ := rests.children parent first link
    obtain ⟨other, otherMember, same⟩ := List.mem_map.mp (closed tx' member parent isParent)
    rcases rests.kept other otherMember with announced | ⟨created'', found⟩
    · exact absurd (same ▸ announced) unannounced
    · rw [← same, found]
      exact Option.some_ne_none _
  have untied := fun txid => rests.untied (unstored txid)
  have childless : ∀ txid, graph.children txid = [] := by
    intro txid
    apply List.eq_nil_iff_forall_not_mem.mpr
    intro child member
    have waits := (rests.children txid child member).2
    rw [untied] at waits
    cases waits
  refine ⟨?_, ?_⟩
  · cases graph
    rw [GraphBuilder.new, GraphBuilder.mk.injEq]
    exact ⟨eq_empty_of_lookup fun txid => lookup_eq_none rests.childrenFilled (childless txid),
      eq_empty_of_lookup fun txid => lookup_eq_none rests.depsFilled (untied txid),
      eq_empty_of_lookup unstored⟩
  · intro tx member
    rcases rests.kept tx member with announced | ⟨created, stored⟩
    · exact (isGood _).mp announced
    · rw [unstored] at stored
      cases stored

namespace World

def StorageHoldsEveryAnnounced (world : World) : Input → Prop
  | .attach env batch => Full env (· ∈ world.announced) (Asked world.graph batch)
  | .cleanup _ _ => True

/-- The batches handed over in calls with the given surroundings. -/
def calls (batches : List (Surroundings × List Lrc20Transaction)) : List Input :=
  batches.map fun call => .attach call.1 call.2

structure Kept (handled : List Lrc20Transaction) (world : World) : Prop where
  rests : Rests (· ∈ world.announced) handled world.graph
  announced : ∀ tx ∈ world.events.flatten, tx ∈ handled
  once : world.announced.Nodup

theorem kept_new : Kept [] new := by
  refine ⟨⟨⟨rfl, ?_, ?_, ?_, ?_, ?_, ?_, ?_⟩, ?_, ?_, ?_, List.nodup_nil⟩, ?_, List.nodup_nil⟩
  all_goals simp [new, GraphBuilder.new, waitsFor, children]

theorem Kept.attach {world : World} (kept : Kept handled world)
    (sound : world.StorageHoldsAnnounced (.attach env batch))
    (full : world.StorageHoldsEveryAnnounced (.attach env batch))
    (distinct : ((handled ++ batch).map Lrc20Transaction.txid).Nodup)
    (kinds : ∀ tx ∈ batch, ∀ announcement, tx.txType ≠ .announcement announcement)
    (exits : (handled ++ batch).Pairwise NotExitOf) :
    Kept (handled ++ batch) (world.step (.attach env batch)) := by
  have known : ∀ txid, txid ∈ world.announced → ∃ tx ∈ handled, tx.txid = txid := by
    intro txid member
    obtain ⟨tx, announced, same⟩ := List.mem_map.mp member
    exact ⟨tx, kept.announced tx announced, same⟩
  obtain ⟨rests, sent, once⟩ := attachTxs_complete sound full kept.rests known distinct kinds exits
  have flat : (world.step (.attach env batch)).events.flatten =
      world.events.flatten ++ (world.graph.attachTxs env batch).2 := by
    simp only [step]
    split
    · rename_i none
      rw [none, List.append_nil]
    · simp
  have ids : (world.step (.attach env batch)).announced =
      world.announced ++ (world.graph.attachTxs env batch).2.map Lrc20Transaction.txid := by
    rw [World.announced, flat, List.map_append]
    rfl
  constructor
  case rests =>
    simp only [ids, List.mem_append]
    exact rests
  case announced =>
    rw [flat]
    intro tx member
    rcases List.mem_append.mp member with older | new
    · exact List.mem_append_left _ (kept.announced tx older)
    · exact (sent tx new).1
  case once =>
    rw [ids, List.nodup_append']
    refine ⟨kept.once, once, ?_⟩
    intro txid before now
    obtain ⟨tx, member, rfl⟩ := List.mem_map.mp now
    exact (sent tx member).2 before

theorem Kept.calls {batches : List (Surroundings × List Lrc20Transaction)} :
    ∀ {handled : List Lrc20Transaction} {world : World}, Kept handled world →
      Runs.AllSteps step StorageHoldsAnnounced world (calls batches) →
      Runs.AllSteps step StorageHoldsEveryAnnounced world (calls batches) →
      ((handled ++ (batches.map Prod.snd).flatten).map Lrc20Transaction.txid).Nodup →
      (∀ tx ∈ (batches.map Prod.snd).flatten, ∀ announcement,
        tx.txType ≠ .announcement announcement) →
      (handled ++ (batches.map Prod.snd).flatten).Pairwise NotExitOf →
        Kept (handled ++ (batches.map Prod.snd).flatten) (runFrom step world (calls batches)) := by
  induction batches with
  | nil =>
    intro handled world kept _ _ _ _ _
    simpa [World.calls] using kept
  | cons call rest ih =>
    intro handled world kept sound full distinct kinds exits
    simp only [List.map_cons, List.flatten_cons, ← List.append_assoc] at distinct kinds exits ⊢
    have shorter : (handled ++ call.2).Sublist
        (handled ++ call.2 ++ (rest.map Prod.snd).flatten) := List.sublist_append_left _ _
    have next := kept.attach sound.1 full.1 (distinct.sublist (shorter.map Lrc20Transaction.txid))
      (fun tx member => kinds tx (List.mem_append_left _ member)) (exits.sublist shorter)
    exact ih next sound.2 full.2 distinct
      (fun tx member => kinds tx (List.mem_append_right _ member)) exits

/-- Attachment is complete, in any order and any batches: every transaction of a finite set that
has no cycle and holds its parents is announced once, and nothing is kept. -/
theorem all_announced_once {txs : List Lrc20Transaction}
    (distinct : (txs.map Lrc20Transaction.txid).Nodup)
    (kinds : ∀ tx ∈ txs, ∀ announcement, tx.txType ≠ .announcement announcement)
    (closed : ∀ tx ∈ txs, ∀ parent ∈ tx.parents, parent ∈ txs.map Lrc20Transaction.txid)
    (acyclic : Acyclic txs) {batches : List (Surroundings × List Lrc20Transaction)}
    (partition : (batches.map Prod.snd).flatten.Perm txs)
    (sound : Runs.AllSteps step StorageHoldsAnnounced new (calls batches))
    (full : Runs.AllSteps step StorageHoldsEveryAnnounced new (calls batches))
    (exits : (batches.map Prod.snd).flatten.Pairwise NotExitOf) :
    (runFrom step new (calls batches)).events.flatten.Perm txs ∧
      (runFrom step new (calls batches)).graph = GraphBuilder.new := by
  have flat : ((batches.map Prod.snd).flatten.map Lrc20Transaction.txid).Nodup :=
    (partition.map Lrc20Transaction.txid).nodup_iff.mpr distinct
  have kept := kept_new.calls sound full flat
    (fun tx member => kinds tx (partition.mem_iff.mp member)) exits
  rw [List.nil_append] at kept
  have ids := fun txid => (partition.map Lrc20Transaction.txid).mem_iff (a := txid)
  obtain ⟨empty, all⟩ := kept.rests.done (by
      intro txid cycle
      refine acyclic txid (Relation.TransGen.mono ?_ txid txid cycle)
      rintro parent child ⟨tx, member, rest⟩
      exact ⟨tx, partition.mem_iff.mp member, rest⟩)
    (by
      intro tx member parent isParent
      exact (ids parent).mpr (closed tx (partition.mem_iff.mp member) parent isParent))
  refine ⟨?_, empty⟩
  have events : (runFrom step new (calls batches)).events.flatten.Nodup :=
    List.Nodup.of_map _ kept.once
  refine (List.perm_ext_iff_of_nodup events (List.Nodup.of_map _ distinct)).mpr ?_
  intro tx
  constructor
  · exact fun member => partition.mem_iff.mp (kept.announced tx member)
  · intro member
    obtain ⟨other, sent, same⟩ := List.mem_map.mp (all tx (partition.mem_iff.mpr member))
    have otherMember := partition.mem_iff.mp (kept.announced other sent)
    rwa [List.inj_on_of_nodup_map distinct otherMember member same] at sent

/-- An exit to output `0` of transaction `1`. -/
def parentExit : Lrc20Transaction where
  bitcoinTx := ⟨1, [], []⟩
  txType := .sparkExit ProofMap.empty

theorem acyclic_child {parent : Lrc20Transaction} (first : parent.txid = 1)
    (root : parent.parents = []) : Acyclic [childTransfer, parent] := by
  have ends : ∀ a b, ParentIn [childTransfer, parent] a b → a = 1 ∧ b = 2 := by
    rintro a b ⟨tx, member, rfl, isParent⟩
    simp only [List.mem_cons, List.not_mem_nil, or_false] at member
    rcases member with rfl | rfl
    · have parents : childTransfer.parents = [1] := by decide
      rw [parents] at isParent
      exact ⟨List.mem_singleton.mp isParent, rfl⟩
    · rw [root] at isParent
      cases isParent
  intro txid cycle
  obtain ⟨next, step, -⟩ := Relation.TransGen.head'_iff.mp cycle
  obtain ⟨before, -, last⟩ := Relation.TransGen.tail'_iff.mp cycle
  have isOne := (ends _ _ step).1
  have isTwo := (ends _ _ last).2
  rw [isOne] at isTwo
  cases isTwo

/-- A transfer handed over before the exit it spends from is never announced, and neither is one
handed over after its parent was announced but before the storage shows it. -/
theorem waits_for_exit_and_for_storage :
    Acyclic [childTransfer, parentExit] ∧
      (runFrom step new (calls [(surroundingsHolding [], [childTransfer]),
        (surroundingsHolding [], [parentExit])])).events.flatten = [parentExit] ∧
      (runFrom step new (calls [(surroundingsHolding [], [childTransfer]),
        (surroundingsHolding [], [parentExit])])).graph.deps.keys = [2] ∧
      Acyclic [childTransfer, parentIssue] ∧
      (runFrom step new (calls [(surroundingsHolding [], [parentIssue]),
        (surroundingsHolding [], [childTransfer])])).events.flatten = [parentIssue] ∧
      (runFrom step new (calls [(surroundingsHolding [], [parentIssue]),
        (surroundingsHolding [], [childTransfer])])).graph.deps.keys = [2] :=
  ⟨acyclic_child rfl rfl, rfl, rfl, acyclic_child rfl rfl, rfl, rfl⟩

theorem all_announced_once_child_first :
    (runFrom step new (calls [(surroundingsHolding [], [childTransfer]),
        (surroundingsHolding [], [parentIssue])])).events.flatten.Perm
          [childTransfer, parentIssue] ∧
      (runFrom step new (calls [(surroundingsHolding [], [childTransfer]),
        (surroundingsHolding [], [parentIssue])])).graph = GraphBuilder.new := by
  have sound : Runs.AllSteps step StorageHoldsAnnounced new
      (calls [(surroundingsHolding [], [childTransfer]),
        (surroundingsHolding [], [parentIssue])]) := by
    refine ⟨?_, ?_, trivial⟩
    all_goals
      intro n parent _
      exact ⟨⟨false, rfl⟩, nofun⟩
  have full : Runs.AllSteps step StorageHoldsEveryAnnounced new
      (calls [(surroundingsHolding [], [childTransfer]),
        (surroundingsHolding [], [parentIssue])]) := by
    refine ⟨?_, ?_, trivial⟩
    all_goals
      intro n parent _ announced
      cases announced
  refine all_announced_once (by decide) ?_ (by decide) (acyclic_child rfl rfl) (List.Perm.refl _)
    sound full ?_
  · intro tx member announcement
    simp only [List.mem_cons, List.not_mem_nil, or_false] at member
    rcases member with rfl | rfl
    · exact nofun
    · exact nofun
  · refine List.pairwise_cons.mpr ⟨?_, List.pairwise_singleton _ _⟩
    intro later member proofs isExit
    rw [List.mem_singleton.mp member] at isExit
    cases isExit

end World

end Lrc20.TxAttach
