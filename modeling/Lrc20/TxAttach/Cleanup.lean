import Lrc20.TxAttach.Completeness

/-! What a cleanup of the graph builder removes: the outdated transactions and those that wait
for them, directly or not. -/

namespace Lrc20.TxAttach

open Attaching Cuts GraphBuilder

namespace GraphBuilder

/-- The links of a builder between two calls: they are recorded in both directions. -/
def Mutual (graph : GraphBuilder) : Prop :=
  Tied (fun _ => False) (fun _ => True) [] ⟨graph, [], [], 0, false⟩

theorem Mutual.links {graph : GraphBuilder} (tied : Mutual graph) (parent child : Txid) :
    child ∈ graph.children parent ↔ parent ∈ graph.waitsFor child := by
  constructor
  · exact fun link => (tied.children parent child link).2
  · exact fun waits => (tied.linked child parent waits).resolve_right (by simp)

def Waiting (graph : GraphBuilder) (parent child : Txid) : Prop :=
  parent ∈ graph.waitsFor child

/-- The stored transactions older than the allowed duration. -/
def outdatedTxs (graph : GraphBuilder) (now outdatedDuration : Nat) : List Txid :=
  (graph.storedTxs.entries.filter fun entry => outdatedDuration < now - entry.2.2).map Sigma.fst

/-- An outdated transaction, or one that waits for an outdated one through others. -/
def ToRemove (graph : GraphBuilder) (now outdatedDuration : Nat) (txid : Txid) : Prop :=
  ∃ first ∈ graph.outdatedTxs now outdatedDuration, Relation.ReflTransGen graph.Waiting first txid

/-- A graph after some transactions and their links have gone from it. -/
structure Without (removed : Txid → Prop) (graph after : GraphBuilder) : Prop where
  storedGone : ∀ txid, removed txid → after.storedTxs.lookup txid = none
  storedKept : ∀ txid, ¬ removed txid →
    after.storedTxs.lookup txid = graph.storedTxs.lookup txid
  depsGone : ∀ txid, removed txid → after.deps.lookup txid = none
  depsKept : ∀ txid, ¬ removed txid → after.deps.lookup txid = graph.deps.lookup txid
  children : ∀ parent child, child ∈ after.children parent ↔
    child ∈ graph.children parent ∧ ¬ removed parent ∧ ¬ removed child
  distinct : ∀ parent, (after.children parent).Nodup
  filled : ∀ parent, after.inverseDeps.lookup parent ≠ some []

variable {graph after : GraphBuilder} {removed : Txid → Prop} {txid : Txid}
  {state : GraphBuilder × List Txid} {removed' : Txid → Prop}

section

variable (without : Without removed graph after)
include without

theorem Without.stored : Cut removed graph.storedTxs after.storedTxs :=
  ⟨without.storedGone, without.storedKept⟩

theorem Without.deps : Cut removed graph.deps after.deps :=
  ⟨without.depsGone, without.depsKept⟩

theorem Without.waitsFor (kept : ¬ removed txid) : after.waitsFor txid = graph.waitsFor txid := by
  rw [GraphBuilder.waitsFor, GraphBuilder.waitsFor, without.depsKept txid kept]

theorem Without.waitsFor_gone (gone : removed txid) : after.waitsFor txid = [] := by
  rw [GraphBuilder.waitsFor, without.depsGone txid gone, Option.getD_none]

omit without in
theorem Mutual.without_none (links : Mutual graph) (none : ∀ txid, ¬ removed txid) :
    Without removed graph graph := by
  refine ⟨fun txid gone => absurd gone (none txid), fun _ _ => rfl,
    fun txid gone => absurd gone (none txid), fun _ _ => rfl, ?_, links.distinct,
    links.childrenFilled⟩
  simp [none]

/-- Links stay mutual when all that wait for the removed go too. -/
theorem Without.mutual (links : Mutual graph)
    (closed : ∀ parent child, removed parent → graph.Waiting parent child → removed child) :
    Mutual after := by
  have waits : ∀ child, ∀ parent ∈ after.waitsFor child,
      ¬ removed child ∧ parent ∈ graph.waitsFor child := by
    intro child parent member
    exact (without.deps.mem_list.mp member).symm
  constructor
  case running => rfl
  case waiting =>
    intro txid tx created present
    obtain ⟨kept, before⟩ := without.stored.of_some present
    show after.waitsFor txid ≠ []
    rw [without.waitsFor kept]
    exact links.waiting txid tx created before
  case waits =>
    intro child parent member
    obtain ⟨kept, before⟩ := waits child parent member
    simp only [without.storedKept child kept]
    exact links.waits child parent before
  case linked =>
    intro child parent member
    obtain ⟨kept, before⟩ := waits child parent member
    refine Or.inl ((without.children parent child).mpr ⟨(links.links parent child).mpr before, ?_, kept⟩)
    exact fun gone => kept (closed parent child gone before)
  case children =>
    intro parent child member
    obtain ⟨link, -, kept⟩ := (without.children parent child).mp member
    obtain ⟨unannounced, before⟩ := links.children parent child link
    exact ⟨unannounced, without.deps.mem_list.mpr ⟨before, kept⟩⟩
  case depsFilled => exact without.deps.filled links.depsFilled
  case childrenFilled => exact without.filled
  case distinct => exact without.distinct

omit without in
theorem Without.trans {middle : GraphBuilder}
    (first : Without removed graph middle) (second : Without removed' middle after) :
    Without (fun txid => removed txid ∨ removed' txid) graph after := by
  have stored := first.stored.trans second.stored
  have deps := first.deps.trans second.deps
  refine ⟨stored.gone, stored.kept, deps.gone, deps.kept, ?_, second.distinct, second.filled⟩
  intro parent child
  rw [second.children, first.children]
  tauto

theorem Without.congr (same : ∀ txid, removed' txid ↔ removed txid) :
    Without removed' graph after := by
  have equal : removed' = removed := funext fun txid => propext (same txid)
  rwa [equal]

end

/-! ### One transaction -/

/-- A turn of the loop takes the transaction off one list, and the list away once it is empty. -/
theorem forgetChild_lookup (txid : Txid) (state : GraphBuilder × List Txid) (dep parent : Txid) :
    (forgetChild txid state dep).1.inverseDeps.lookup parent =
      if parent = dep then
        ((state.1.inverseDeps.lookup dep).map (·.erase txid)).filter (· ≠ [])
      else state.1.inverseDeps.lookup parent := by
  unfold forgetChild
  by_cases here : parent = dep
  · subst here
    cases found : state.1.inverseDeps.lookup parent with
    | none => simp [found]
    | some listed => by_cases empty : listed.erase txid = [] <;> simp [empty, Option.filter]
  · rw [if_neg here]
    split
    · rfl
    · dsimp only
      split
      · exact AList.lookup_erase_ne here
      · exact AList.lookup_insert_ne here

theorem forgetChild_children (txid : Txid) (state : GraphBuilder × List Txid) (dep parent : Txid) :
    (forgetChild txid state dep).1.children parent =
      if parent = dep then (state.1.children dep).erase txid else state.1.children parent := by
  rw [children, forgetChild_lookup]
  split
  · cases found : state.1.inverseDeps.lookup dep with
    | none => simp [children, found]
    | some listed =>
      by_cases empty : listed.erase txid = [] <;> simp [children, found, empty, Option.filter]
  · rfl

theorem mem_forgetChild {state : GraphBuilder × List Txid} {txid dep row : Txid}
    (member : row ∈ (forgetChild txid state dep).2) : row ∈ state.2 ∨ row = dep := by
  unfold forgetChild at member
  split at member
  · exact Or.inl member
  · simpa using member

/-- A parent with a list is deleted with its child, waited for or not. -/
theorem mem_forgetChild_of_listed {state : GraphBuilder × List Txid} {txid dep : Txid}
    (listed : txid ∈ state.1.children dep) : dep ∈ (forgetChild txid state dep).2 := by
  unfold forgetChild
  split
  · rename_i missing
    rw [children, missing] at listed
    cases listed
  · exact List.mem_append_right _ List.mem_cons_self

/-- The loop over the parents of a transaction takes it off their lists. -/
theorem forgetChild_fold (txid : Txid) (deps : List Txid) :
    ∀ state : GraphBuilder × List Txid, (∀ parent, (state.1.children parent).Nodup) →
      (∀ parent, state.1.inverseDeps.lookup parent ≠ some []) →
      let after := deps.foldl (forgetChild txid) state
      after.1.deps = state.1.deps ∧ after.1.storedTxs = state.1.storedTxs ∧
        (∀ parent child, child ∈ after.1.children parent ↔
          child ∈ state.1.children parent ∧ ¬ (child = txid ∧ parent ∈ deps)) ∧
        (∀ parent, (after.1.children parent).Nodup) ∧
        (∀ parent, after.1.inverseDeps.lookup parent ≠ some []) ∧
        (∀ row ∈ state.2, row ∈ after.2) ∧
        (∀ row ∈ after.2, row ∈ state.2 ∨ row ∈ deps) ∧
        ∀ dep ∈ deps, txid ∈ state.1.children dep → dep ∈ after.2 := by
  induction deps with
  | nil =>
    intro state distinct filled
    exact ⟨rfl, rfl, by simp, distinct, filled, fun _ => id, fun _ => Or.inl, by simp⟩
  | cons dep rest ih =>
    intro state distinct filled
    have distinct' : ∀ parent, ((forgetChild txid state dep).1.children parent).Nodup := by
      intro parent
      rw [forgetChild_children]
      split
      · exact (distinct dep).erase txid
      · exact distinct parent
    have filled' : ∀ parent,
        (forgetChild txid state dep).1.inverseDeps.lookup parent ≠ some [] := by
      intro parent
      rw [forgetChild_lookup]
      split
      · simp [Option.filter_eq_some_iff]
      · exact filled parent
    have rowsKept : ∀ row ∈ state.2, row ∈ (forgetChild txid state dep).2 := by
      intro row member
      unfold forgetChild
      split
      · exact member
      · exact List.mem_append_left _ member
    obtain ⟨deps_, storedTxs⟩ := forgetChild_keeps txid state dep
    obtain ⟨deps', storedTxs', children', nodup, full, kept, only, listed'⟩ :=
      ih _ distinct' filled'
    refine ⟨deps'.trans deps_, storedTxs'.trans storedTxs, ?_, nodup, full,
      fun row member => kept row (rowsKept row member), ?_, ?_⟩
    · intro parent child
      rw [List.foldl_cons, children', forgetChild_children]
      split
      · rename_i here
        rw [here, (distinct dep).mem_erase_iff]
        simp only [List.mem_cons]
        tauto
      · rename_i other
        simp only [List.mem_cons, other, false_or]
    · intro row member
      rcases only row member with early | later
      · refine (mem_forgetChild early).imp_right ?_
        rintro rfl
        exact List.mem_cons_self
      · exact Or.inr (List.mem_cons_of_mem _ later)
    · intro other member listed
      by_cases here : other = dep
      · subst here
        exact kept other (mem_forgetChild_of_listed listed)
      · refine listed' other ((List.mem_cons.mp member).resolve_left here) ?_
        rwa [forgetChild_children, if_neg here]

/-- One turn of the worklist removes one transaction more. -/
theorem removeTx_without {env : Surroundings} {graph current : GraphBuilder}
    {done : Txid → Prop} (links : Mutual graph) (without : Without done graph current)
    {txid : Txid} (fresh : ¬ done txid) :
    let cut := removeTxFromDeps env { current with storedTxs := current.storedTxs.erase txid } txid
    Without (fun other => done other ∨ other = txid) graph
        { cut.1 with inverseDeps := cut.1.inverseDeps.erase txid } ∧
      (∀ child, child ∈ cut.1.children txid ↔
        child ∈ graph.children txid ∧ ¬ done child ∧ child ≠ txid) ∧
      (cut.1.children txid).Nodup ∧ txid ∈ cut.2 ∧
      (∀ row ∈ cut.2, row = txid ∨ row ∈ graph.waitsFor txid) ∧
      ∀ parent ∈ graph.waitsFor txid, ¬ done parent → parent ∈ cut.2 := by
  intro cut
  have waits : (env.order (GraphBuilder.waitsFor
      { current with storedTxs := current.storedTxs.erase txid } txid)).Perm
        (graph.waitsFor txid) := by
    refine (env.order_perm _).trans ?_
    exact List.Perm.of_eq (without.waitsFor fresh)
  obtain ⟨deps, storedTxs, children, distinct, filled, kept, rows, parents⟩ :=
    forgetChild_fold txid (env.order (GraphBuilder.waitsFor
      { current with storedTxs := current.storedTxs.erase txid } txid))
      ({ current with storedTxs := current.storedTxs.erase txid,
                      deps := current.deps.erase txid }, [txid]) without.distinct without.filled
  -- No list names the transaction any more, because each link was recorded on both sides.
  have listed : ∀ parent child, child ∈ cut.1.children parent ↔
      (child ∈ graph.children parent ∧ ¬ done parent ∧ ¬ done child) ∧ child ≠ txid := by
    intro parent child
    refine (children parent child).trans ?_
    rw [waits.mem_iff]
    refine (and_congr_left' (without.children parent child)).trans (and_congr_right ?_)
    rintro ⟨link, -, -⟩
    constructor
    · rintro apart rfl
      exact apart ⟨rfl, (links.links parent child).mp link⟩
    · exact fun apart both => apart both.1
  have storedCut : Cut (fun other => done other ∨ other = txid) graph.storedTxs
      cut.1.storedTxs := by
    rw [show cut.1.storedTxs = current.storedTxs.erase txid from storedTxs]
    exact without.stored.trans (cut_erase _ txid)
  have depsCut : Cut (fun other => done other ∨ other = txid) graph.deps cut.1.deps := by
    rw [show cut.1.deps = current.deps.erase txid from deps]
    exact without.deps.trans (cut_erase _ txid)
  have lists := cut_erase cut.1.inverseDeps txid
  refine ⟨⟨storedCut.gone, storedCut.kept, depsCut.gone, depsCut.kept, ?_, lists.nodup distinct,
    lists.filled filled⟩, ?_, distinct txid, kept txid (by simp), ?_, ?_⟩
  · intro parent child
    refine lists.mem_list.trans ?_
    have own := listed parent child
    rw [GraphBuilder.children] at own
    rw [own]
    tauto
  · intro child
    rw [listed]
    tauto
  · intro row member
    refine (rows row member).imp ?_ ?_
    · exact List.mem_singleton.mp
    · exact waits.mem_iff.mp
  · intro parent waited kept
    refine parents parent (waits.mem_iff.mpr waited) ((without.children parent txid).mpr ?_)
    exact ⟨(links.links parent txid).mpr waited, kept, fresh⟩

/-! ### The worklist -/

/-- The state of the worklist: what it has removed, what is left to remove, and what it has
deleted. -/
structure Walk (graph : GraphBuilder) (first : Txid) (earlier done : List Txid)
    (current : GraphBuilder) (worklist removed rows : List Txid) : Prop where
  without : Without (· ∈ done) graph current
  split : removed.Perm (done ++ worklist)
  distinct : removed.Nodup
  reached : ∀ txid ∈ removed, Relation.ReflTransGen graph.Waiting first txid
  closed : ∀ parent ∈ done, ∀ child, graph.Waiting parent child → child ∈ removed
  started : first ∈ removed
  rows : ∀ row, row ∈ rows ↔
    row ∈ earlier ∨ row ∈ done ∨ ∃ txid ∈ done, row ∈ graph.waitsFor txid

variable {env : Surroundings} {graph current : GraphBuilder} {first : Txid}
  {earlier done worklist removed rows : List Txid} {firsts : List Txid}

theorem Walk.step {rest : List Txid} (links : Mutual graph)
    (walk : Walk graph first earlier done current (txid :: rest) removed rows) :
    let cut := removeTxFromDeps env { current with storedTxs := current.storedTxs.erase txid } txid
    let fresh := (env.order (cut.1.children txid)).filter (· ∉ removed)
    Walk graph first earlier (done ++ [txid])
      { cut.1 with inverseDeps := cut.1.inverseDeps.erase txid } (rest ++ fresh)
      (removed ++ fresh) (rows ++ cut.2) := by
  intro cut fresh
  have parts := (walk.split.nodup_iff.mp walk.distinct)
  have notDone : txid ∉ done := by
    intro member
    exact (List.nodup_append'.mp parts).2.2 member List.mem_cons_self
  obtain ⟨without, children, nodup, deleted, only, parents⟩ :=
    @removeTx_without env _ _ _ links walk.without _ notDone
  have listed : ∀ child, child ∈ env.order (cut.1.children txid) ↔ child ∈ cut.1.children txid :=
    fun _ => (env.order_perm _).mem_iff
  have freshIff : ∀ child, child ∈ fresh ↔ child ∈ cut.1.children txid ∧ child ∉ removed := by
    intro child
    rw [List.mem_filter, listed, decide_eq_true_iff]
  have doneRemoved : ∀ other ∈ done, other ∈ removed := fun other member =>
    walk.split.mem_iff.mpr (List.mem_append_left _ member)
  have hereRemoved : txid ∈ removed :=
    walk.split.mem_iff.mpr (List.mem_append_right _ List.mem_cons_self)
  constructor
  case without =>
    refine without.congr ?_
    intro other
    rw [List.mem_append, List.mem_singleton]
  case split =>
    have moved : (done ++ [txid] ++ (rest ++ fresh)) = done ++ (txid :: rest) ++ fresh := by simp
    rw [moved]
    exact walk.split.append_right fresh
  case distinct =>
    refine List.nodup_append'.mpr ⟨walk.distinct, ?_, ?_⟩
    · exact ((env.order_perm _).nodup_iff.mpr nodup).filter _
    · intro child old new
      exact ((freshIff child).mp new).2 old
  case reached =>
    intro other member
    rcases List.mem_append.mp member with old | new
    · exact walk.reached other old
    · have link := ((children other).mp ((freshIff other).mp new).1).1
      exact (walk.reached txid hereRemoved).tail ((links.links txid other).mp link)
  case closed =>
    intro parent member child waits
    rw [List.mem_append]
    rcases List.mem_append.mp member with old | single
    · exact Or.inl (walk.closed parent old child waits)
    · rw [List.mem_singleton.mp single] at waits
      by_cases known : child ∈ removed
      · exact Or.inl known
      · refine Or.inr ((freshIff child).mpr ⟨(children child).mpr ⟨?_, ?_, ?_⟩, known⟩)
        · exact (links.links txid child).mpr waits
        · exact fun gone => known (doneRemoved child gone)
        · rintro rfl
          exact known hereRemoved
  case started => exact List.mem_append_left _ walk.started
  case rows =>
    intro row
    simp only [List.mem_append, walk.rows row, List.mem_singleton, or_and_right, exists_or,
      exists_eq_left]
    constructor
    · rintro ((old | gone | waits) | new)
      · exact Or.inl old
      · exact Or.inr (Or.inl (Or.inl gone))
      · exact Or.inr (Or.inr (Or.inl waits))
      · exact Or.inr ((only row new).imp Or.inr Or.inr)
    · rintro (old | (gone | rfl) | (waits | waited))
      · exact Or.inl (Or.inl old)
      · exact Or.inl (Or.inr (Or.inl gone))
      · exact Or.inr deleted
      · exact Or.inl (Or.inr (Or.inr waits))
      · by_cases gone : row ∈ done
        · exact Or.inl (Or.inr (Or.inl gone))
        · exact Or.inr (parents row waited gone)

theorem mem_flatMap_entries {lists : AList fun _ : Txid => List Txid} :
    txid ∈ lists.entries.flatMap Sigma.snd ↔ ∃ key, txid ∈ (lists.lookup key).getD [] := by
  rw [List.mem_flatMap]
  constructor
  · rintro ⟨⟨key, linked⟩, entry, mem⟩
    have found : lists.lookup key = some linked := AList.mem_lookup_iff.mpr entry
    exact ⟨key, by rw [found]; exact mem⟩
  · rintro ⟨key, mem⟩
    cases found : lists.lookup key with
    | none =>
      rw [found] at mem
      cases mem
    | some linked =>
      rw [found] at mem
      exact ⟨⟨key, linked⟩, AList.mem_lookup_iff.mp found, mem⟩

/-- All but the first transaction removed are on a list of children. -/
theorem Walk.removed_length (links : Mutual graph)
    (walk : Walk graph first earlier done current worklist removed rows) :
    removed.length ≤ graph.linkCount + 1 := by
  have inside : removed ⊆ first :: graph.inverseDeps.entries.flatMap Sigma.snd := by
    intro txid member
    rcases (walk.reached txid member).cases_tail with same | ⟨parent, -, waits⟩
    · rw [same]
      exact List.mem_cons_self
    · have link := (links.links parent txid).mpr waits
      exact List.mem_cons_of_mem _ (mem_flatMap_entries.mpr ⟨parent, link⟩)
  have bound := (walk.distinct.subperm inside).length_le
  simpa [linkCount, List.length_flatMap] using bound

/-- The worklist runs empty: its fuel bounds what can be reached. -/
theorem removeOutdated_walk (links : Mutual graph) (fuel : Nat) :
    ∀ {done : List Txid} {current : GraphBuilder} {worklist removed rows : List Txid},
      Walk graph first earlier done current worklist removed rows →
      graph.linkCount + 1 ≤ fuel + done.length →
      ∃ done' removed', Walk graph first earlier done'
        (removeOutdated env fuel current worklist removed rows).1 [] removed'
        (removeOutdated env fuel current worklist removed rows).2 := by
  induction fuel with
  | zero =>
    intro done current worklist removed rows walk enough
    have total := walk.split.length_eq
    have bound := walk.removed_length links
    rw [List.length_append] at total
    have empty : worklist = [] := List.length_eq_zero_iff.mp (by omega)
    subst empty
    exact ⟨done, removed, walk⟩
  | succ fuel ih =>
    intro done current worklist removed rows walk enough
    cases worklist with
    | nil => exact ⟨done, removed, walk⟩
    | cons txid rest =>
      refine ih (walk.step links) ?_
      rw [List.length_append, List.length_singleton]
      omega

theorem removeOutdatedTx_spec (links : Mutual graph) (txid : Txid) (earlier : List Txid) :
    let after := removeOutdatedTx env (graph, earlier) txid
    Without (Relation.ReflTransGen graph.Waiting txid) graph after.1 ∧
      ∀ row, row ∈ after.2 ↔ row ∈ earlier ∨ Relation.ReflTransGen graph.Waiting txid row ∨
        ∃ other, Relation.ReflTransGen graph.Waiting txid other ∧ row ∈ graph.waitsFor other := by
  have start : Walk graph txid earlier [] graph [txid] [txid] earlier := by
    refine ⟨links.without_none (by simp), List.Perm.refl _, List.nodup_singleton _, ?_, by simp,
      by simp, by simp⟩
    intro other member
    rw [List.mem_singleton.mp member]
  obtain ⟨done, removed, walk⟩ :=
    @removeOutdated_walk env graph txid earlier links (graph.linkCount + 1) _ _ _ _ _ start (by simp)
  have split : ∀ other, other ∈ removed ↔ other ∈ done := by
    intro other
    rw [walk.split.mem_iff, List.append_nil]
  have reached : ∀ other, Relation.ReflTransGen graph.Waiting txid other ↔ other ∈ done := by
    intro other
    constructor
    · intro path
      induction path with
      | refl => exact (split txid).mp walk.started
      | tail _ waits ih => exact (split _).mp (walk.closed _ ih _ waits)
    · exact fun member => walk.reached other ((split other).mpr member)
  refine ⟨walk.without.congr reached, ?_⟩
  intro row
  simp only [reached]
  exact walk.rows row

/-! ### All outdated transactions -/

/-- The transactions that wait for one of the listed ones, through any number of others. -/
def Below (graph : GraphBuilder) (firsts : List Txid) (txid : Txid) : Prop :=
  ∃ first ∈ firsts, Relation.ReflTransGen graph.Waiting first txid

theorem Below.closed {parent child : Txid} (below : graph.Below firsts parent)
    (waits : graph.Waiting parent child) : graph.Below firsts child := by
  obtain ⟨first, member, path⟩ := below
  exact ⟨first, member, path.tail waits⟩

/-- What is reached in the rest of a graph, with what was removed, is what is reached in it. -/
theorem Without.reach_iff {removed : Txid → Prop} (without : Without removed graph after)
    (closed : ∀ parent child, removed parent → graph.Waiting parent child → removed child)
    (txid other : Txid) :
    removed other ∨ Relation.ReflTransGen after.Waiting txid other ↔
      removed other ∨ Relation.ReflTransGen graph.Waiting txid other := by
  constructor
  · refine Or.imp_right fun path => ?_
    refine Relation.ReflTransGen.mono ?_ txid other path
    intro parent child waits
    by_cases gone : removed child
    · rw [Waiting, without.waitsFor_gone gone] at waits
      cases waits
    · rwa [Waiting, without.waitsFor gone] at waits
  · rintro (gone | path)
    · exact Or.inl gone
    · induction path with
      | refl => exact Or.inr .refl
      | tail _ waits ih =>
        rename_i parent child _
        by_cases gone : removed child
        · exact Or.inl gone
        · refine Or.inr ((ih.resolve_left ?_).tail ?_)
          · exact fun parentGone => gone (closed parent child parentGone waits)
          · rw [Waiting, without.waitsFor gone]
            exact waits

/-- What has been removed and deleted once the listed transactions have been dealt with. -/
structure Cleaned (graph : GraphBuilder) (firsts : List Txid) (state : GraphBuilder × List Txid) :
    Prop where
  without : Without (graph.Below firsts) graph state.1
  rows : ∀ row, row ∈ state.2 ↔ graph.Below firsts row ∨
    ∃ txid, graph.Below firsts txid ∧ row ∈ graph.waitsFor txid

theorem Cleaned.remove (links : Mutual graph) (cleaned : Cleaned graph firsts state) (txid : Txid) :
    Cleaned graph (firsts ++ [txid]) (removeOutdatedTx env state txid) := by
  have closed : ∀ parent child, graph.Below firsts parent → graph.Waiting parent child →
      graph.Below firsts child := fun _ _ => Below.closed
  obtain ⟨without, rows⟩ :=
    @removeOutdatedTx_spec env state.1 (cleaned.without.mutual links closed) txid state.2
  have grown : ∀ other, graph.Below (firsts ++ [txid]) other ↔ graph.Below firsts other ∨
      Relation.ReflTransGen state.1.Waiting txid other := by
    intro other
    rw [cleaned.without.reach_iff closed]
    constructor
    · rintro ⟨first, member, path⟩
      rcases List.mem_append.mp member with old | single
      · exact Or.inl ⟨first, old, path⟩
      · rw [List.mem_singleton.mp single] at path
        exact Or.inr path
    · rintro (⟨first, old, path⟩ | path)
      · exact ⟨first, List.mem_append_left _ old, path⟩
      · exact ⟨txid, by simp, path⟩
  refine ⟨(cleaned.without.trans without).congr grown, ?_⟩
  intro row
  have waited : ∀ other, graph.Below firsts other ∨ row ∈ state.1.waitsFor other ↔
      graph.Below firsts other ∨ row ∈ graph.waitsFor other := by
    intro other
    by_cases gone : graph.Below firsts other
    · simp [gone]
    · rw [cleaned.without.waitsFor gone]
  rw [rows row, cleaned.rows row]
  simp only [grown]
  constructor
  · rintro ((old | ⟨other, below, waits⟩) | new | ⟨other, path, waits⟩)
    · exact Or.inl (Or.inl old)
    · exact Or.inr ⟨other, Or.inl below, waits⟩
    · exact Or.inl (Or.inr new)
    · rcases (waited other).mp (Or.inr waits) with gone | waits'
      · rw [cleaned.without.waitsFor_gone gone] at waits
        cases waits
      · exact Or.inr ⟨other, Or.inr path, waits'⟩
  · rintro ((old | new) | ⟨other, below | path, waits⟩)
    · exact Or.inl (Or.inl old)
    · exact Or.inr (Or.inl new)
    · exact Or.inl (Or.inr ⟨other, below, waits⟩)
    · rcases (waited other).mpr (Or.inr waits) with gone | waits'
      · exact Or.inl (Or.inr ⟨other, gone, waits⟩)
      · exact Or.inr (Or.inr ⟨other, path, waits'⟩)

theorem Cleaned.removeAll (links : Mutual graph) (txids : List Txid) :
    ∀ {firsts : List Txid} {state : GraphBuilder × List Txid}, Cleaned graph firsts state →
      Cleaned graph (firsts ++ txids) (txids.foldl (removeOutdatedTx env) state) := by
  induction txids with
  | nil =>
    intro firsts state cleaned
    rwa [List.append_nil]
  | cons txid rest ih =>
    intro firsts state cleaned
    have shape : firsts ++ txid :: rest = firsts ++ [txid] ++ rest := by simp
    rw [shape]
    exact ih (cleaned.remove links txid)

/-- The cleanup meets a creation time in the future, and gives up. -/
def Ahead (graph : GraphBuilder) (now : Nat) : Prop :=
  ∃ txid tx created, graph.storedTxs.lookup txid = some (tx, created) ∧ now < created

theorem ahead_iff {now : Nat} :
    ((graph.storedTxs.entries.map fun entry => (entry.1, entry.2.2)).any
      fun entry => now < entry.2) = true ↔ graph.Ahead now := by
  rw [List.any_eq_true]
  constructor
  · rintro ⟨entry, member, late⟩
    obtain ⟨⟨txid, tx, created⟩, present, rfl⟩ := List.mem_map.mp member
    exact ⟨txid, tx, created, AList.mem_lookup_iff.mpr present, by simpa using late⟩
  · rintro ⟨txid, tx, created, stored, late⟩
    exact ⟨(txid, created),
      List.mem_map.mpr ⟨⟨txid, tx, created⟩, AList.mem_lookup_iff.mp stored, rfl⟩, by simpa using late⟩

theorem handleCleanup_of_ahead {outdatedDuration : Nat} (ahead : graph.Ahead env.now) :
    graph.handleCleanup env outdatedDuration = (graph, []) := by
  simp only [handleCleanup]
  rw [if_pos (ahead_iff.mpr ahead)]

/-- A cleanup that does not give up removes the outdated transactions and those waiting for them,
and deletes their rows and the rows of their parents. -/
theorem handleCleanup_spec {outdatedDuration : Nat} (links : Mutual graph)
    (clock : ¬ graph.Ahead env.now) :
    Without (graph.ToRemove env.now outdatedDuration) graph
        (graph.handleCleanup env outdatedDuration).1 ∧
      ∀ row, row ∈ (graph.handleCleanup env outdatedDuration).2 ↔
        graph.ToRemove env.now outdatedDuration row ∨
          ∃ txid, graph.ToRemove env.now outdatedDuration txid ∧ row ∈ graph.waitsFor txid := by
  have outdated : ((graph.storedTxs.entries.map fun entry => (entry.1, entry.2.2)).filter
      fun entry => outdatedDuration < env.now - entry.2).map Prod.fst =
        graph.outdatedTxs env.now outdatedDuration := by
    simp [outdatedTxs, List.filter_map, Function.comp_def]
  have none : ∀ txid, ¬ graph.Below [] txid := by
    rintro txid ⟨first, member, -⟩
    cases member
  have start : Cleaned graph [] (graph, []) := ⟨links.without_none none, by simp [none]⟩
  have cleaned := @Cleaned.removeAll env graph links
    (env.order (graph.outdatedTxs env.now outdatedDuration)) _ _ start
  have same : ∀ txid, graph.ToRemove env.now outdatedDuration txid ↔
      graph.Below ([] ++ env.order (graph.outdatedTxs env.now outdatedDuration)) txid := by
    intro txid
    simp only [ToRemove, Below, List.nil_append, (env.order_perm _).mem_iff]
  simp only [handleCleanup]
  rw [if_neg (mt ahead_iff.mp clock), outdated]
  refine ⟨cleaned.without.congr same, ?_⟩
  simp only [same]
  exact cleaned.rows

/-- A cleanup takes the outdated transactions and those waiting for them out of the three maps,
and nothing else, and of the rows in the storage it deletes theirs alone. -/
def CleanupExact (graph : GraphBuilder) (env : Surroundings) (outdatedDuration : Nat)
    (isRow : Txid → Prop) : Prop :=
  Without (graph.ToRemove env.now outdatedDuration) graph
      (graph.handleCleanup env outdatedDuration).1 ∧
    ∀ row, isRow row → (row ∈ (graph.handleCleanup env outdatedDuration).2 ↔
      graph.ToRemove env.now outdatedDuration row)

theorem Mutual.cleanupExact_iff (links : Mutual graph) (env : Surroundings)
    (outdatedDuration : Nat) (isRow : Txid → Prop) :
    graph.CleanupExact env outdatedDuration isRow ↔
      (graph.outdatedTxs env.now outdatedDuration = [] ∨ ¬ graph.Ahead env.now) ∧
      ∀ txid, graph.ToRemove env.now outdatedDuration txid →
        ∀ parent ∈ graph.waitsFor txid, isRow parent →
          graph.ToRemove env.now outdatedDuration parent := by
  have none : graph.outdatedTxs env.now outdatedDuration = [] →
      ∀ txid, ¬ graph.ToRemove env.now outdatedDuration txid := by
    rintro nothing txid ⟨first, member, -⟩
    rw [nothing] at member
    cases member
  by_cases ahead : graph.Ahead env.now
  · rw [CleanupExact, handleCleanup_of_ahead ahead]
    constructor
    · rintro ⟨without, -⟩
      -- An outdated transaction stays, unless there is none.
      have nothing : graph.outdatedTxs env.now outdatedDuration = [] := by
        apply List.eq_nil_iff_forall_not_mem.mpr
        intro txid outdated
        obtain ⟨⟨key, entry⟩, member, rfl⟩ := List.mem_map.mp outdated
        have stored := AList.mem_lookup_iff.mpr (List.mem_filter.mp member).1
        rw [Option.mem_def, without.storedGone key ⟨key, outdated, .refl⟩] at stored
        cases stored
      exact ⟨Or.inl nothing, fun txid remove => absurd remove (none nothing txid)⟩
    · rintro ⟨nothing | calm, -⟩
      · exact ⟨links.without_none (none nothing), by simp [none nothing]⟩
      · exact absurd ahead calm
  · obtain ⟨without, rows⟩ := @handleCleanup_spec env graph outdatedDuration links ahead
    constructor
    · rintro ⟨-, exactly⟩
      refine ⟨Or.inr ahead, ?_⟩
      intro txid remove parent waits isRow
      exact (exactly parent isRow).mp ((rows parent).mpr (Or.inr ⟨txid, remove, waits⟩))
    · rintro ⟨-, parents⟩
      refine ⟨without, fun row isRow => ⟨?_, fun remove => (rows row).mpr (Or.inl remove)⟩⟩
      intro deleted
      rcases (rows row).mp deleted with remove | ⟨txid, remove, waits⟩
      · exact remove
      · exact parents txid remove row waits isRow

/-- A cleanup keeps the links. -/
theorem Mutual.cleanup {outdatedDuration : Nat} (links : Mutual graph) :
    Mutual (graph.handleCleanup env outdatedDuration).1 := by
  by_cases ahead : graph.Ahead env.now
  · rw [handleCleanup_of_ahead ahead]
    exact links
  · refine (@handleCleanup_spec env graph outdatedDuration links ahead).1.mutual links ?_
    rintro parent child ⟨first, outdated, path⟩ waits
    exact ⟨first, outdated, path.tail waits⟩

/-! ### What a cleanup can reach, whatever the links -/

section Held

/-- The transactions that the builder stores, lists as children or waits for. -/
def heldTxs (graph : GraphBuilder) : List Txid :=
  graph.storedTxs.keys ++ graph.inverseDeps.entries.flatMap Sigma.snd ++
    graph.deps.entries.flatMap Sigma.snd

theorem mem_heldTxs : txid ∈ graph.heldTxs ↔
    graph.storedTxs.lookup txid ≠ none ∨ (∃ parent, txid ∈ graph.children parent) ∨
      ∃ child, txid ∈ graph.waitsFor child := by
  have stored : txid ∈ graph.storedTxs.keys ↔ graph.storedTxs.lookup txid ≠ none :=
    AList.lookup_eq_none.not_left.symm
  unfold heldTxs
  rw [List.mem_append, List.mem_append, mem_flatMap_entries, mem_flatMap_entries, stored, or_assoc]
  rfl

/-- Everything the builder holds is in the set. -/
def HeldIn (held : Txid → Prop) (graph : GraphBuilder) : Prop := ∀ txid ∈ graph.heldTxs, held txid

variable {held : Txid → Prop}

theorem HeldIn.fewer (inside : HeldIn held graph)
    (stored : ∀ txid, after.storedTxs.lookup txid ≠ none → graph.storedTxs.lookup txid ≠ none)
    (children : ∀ parent, ∀ child ∈ after.children parent, child ∈ graph.children parent)
    (waitsFor : ∀ child, ∀ parent ∈ after.waitsFor child, parent ∈ graph.waitsFor child) :
    HeldIn held after := by
  intro txid mem
  apply inside
  rw [mem_heldTxs] at mem ⊢
  rcases mem with kept | ⟨parent, kept⟩ | ⟨child, kept⟩
  · exact .inl (stored txid kept)
  · exact .inr (.inl ⟨parent, children parent txid kept⟩)
  · exact .inr (.inr ⟨child, waitsFor child txid kept⟩)

theorem HeldIn.dropStored (inside : HeldIn held graph) (txid : Txid) :
    HeldIn held { graph with storedTxs := graph.storedTxs.erase txid } := by
  refine inside.fewer ?_ (fun _ _ mem => mem) (fun _ _ mem => mem)
  intro other kept missing
  obtain ⟨entry, found⟩ := Option.ne_none_iff_exists'.mp kept
  cases missing.symm.trans ((cut_erase _ _).of_some found).2

theorem HeldIn.dropChildren (inside : HeldIn held graph) (txid : Txid) :
    HeldIn held { graph with inverseDeps := graph.inverseDeps.erase txid } :=
  inside.fewer (fun _ kept => kept) (fun _ _ mem => ((cut_erase _ _).mem_list.mp mem).1)
    (fun _ _ mem => mem)

theorem HeldIn.dropDeps (inside : HeldIn held graph) (txid : Txid) :
    HeldIn held { graph with deps := graph.deps.erase txid } :=
  inside.fewer (fun _ kept => kept) (fun _ _ mem => mem)
    (fun _ _ mem => ((cut_erase _ _).mem_list.mp mem).1)

theorem HeldIn.forgetChild (inside : HeldIn held state.1)
    (rows : ∀ row ∈ state.2, held row) (txid : Txid) {dep : Txid} (isHeld : held dep) :
    HeldIn held (forgetChild txid state dep).1 ∧ ∀ row ∈ (forgetChild txid state dep).2, held row := by
  obtain ⟨deps, storedTxs⟩ := forgetChild_keeps txid state dep
  refine ⟨inside.fewer (fun _ kept => storedTxs ▸ kept) ?_ ?_, ?_⟩
  · intro parent child mem
    rw [forgetChild_children] at mem
    split at mem
    · rename_i same
      exact same ▸ List.mem_of_mem_erase mem
    · exact mem
  · intro child parent mem
    rwa [waitsFor, deps] at mem
  · intro row mem
    rcases mem_forgetChild mem with earlier | rfl
    · exact rows row earlier
    · exact isHeld

theorem HeldIn.removeTxFromDeps (inside : HeldIn held graph) {txid : Txid} (isHeld : held txid) :
    HeldIn held (removeTxFromDeps env graph txid).1 ∧
      ∀ row ∈ (removeTxFromDeps env graph txid).2, held row := by
  refine List.foldlRecOn (motive := fun state : GraphBuilder × List Txid =>
    HeldIn held state.1 ∧ ∀ row ∈ state.2, held row) _ _ ⟨inside.dropDeps txid, ?_⟩ ?_
  · intro row mem
    exact List.mem_singleton.mp mem ▸ isHeld
  · rintro state ⟨inside', rows⟩ dep mem
    have waits := (env.order_perm _).mem_iff.mp mem
    exact inside'.forgetChild rows txid (inside dep (mem_heldTxs.mpr (.inr (.inr ⟨txid, waits⟩))))

theorem HeldIn.removeOutdated (fuel : Nat) :
    ∀ {graph : GraphBuilder} {worklist removed rows : List Txid}, HeldIn held graph →
      (∀ txid ∈ worklist, held txid) → (∀ row ∈ rows, held row) →
      HeldIn held (removeOutdated env fuel graph worklist removed rows).1 ∧
        ∀ row ∈ (removeOutdated env fuel graph worklist removed rows).2, held row := by
  induction fuel with
  | zero => exact fun inside _ rows => ⟨inside, rows⟩
  | succ fuel ih =>
    intro graph worklist removed rows inside waiting kept
    cases worklist with
    | nil => exact ⟨inside, kept⟩
    | cons txid rest =>
      obtain ⟨cut, gone⟩ := @HeldIn.removeTxFromDeps env _ held (inside.dropStored txid) txid
        (waiting txid (by simp))
      refine ih (cut.dropChildren txid) ?_ ?_
      · intro other mem
        rcases List.mem_append.mp mem with later | fresh
        · exact waiting other (by simp [later])
        · have child := (env.order_perm _).mem_iff.mp (List.mem_filter.mp fresh).1
          exact cut other (mem_heldTxs.mpr (.inr (.inl ⟨txid, child⟩)))
      · intro row mem
        rcases List.mem_append.mp mem with earlier | own
        · exact kept row earlier
        · exact gone row own

/-- A cleanup deletes rows of transactions that the builder holds. -/
theorem heldTxs_of_handleCleanup {outdatedDuration : Nat} :
    ∀ row ∈ (graph.handleCleanup env outdatedDuration).2, row ∈ graph.heldTxs := by
  unfold handleCleanup
  dsimp only
  split
  · exact nofun
  · refine (List.foldlRecOn (motive := fun state : GraphBuilder × List Txid =>
      HeldIn (· ∈ graph.heldTxs) state.1 ∧ ∀ row ∈ state.2, row ∈ graph.heldTxs) _ _
      ⟨fun _ mem => mem, by simp⟩ ?_).2
    rintro state ⟨inside, rows⟩ txid mem
    refine inside.removeOutdated (state.1.linkCount + 1) (List.forall_mem_singleton.mpr ?_) rows
    have outdated := (env.order_perm _).mem_iff.mp mem
    obtain ⟨⟨_, created⟩, isOutdated, rfl⟩ := List.mem_map.mp outdated
    obtain ⟨⟨key, stored⟩, entry, same⟩ := List.mem_map.mp (List.mem_filter.mp isOutdated).1
    obtain ⟨rfl, rfl⟩ := Prod.mk.inj same
    refine mem_heldTxs.mpr (.inl ?_)
    rw [AList.mem_lookup_iff.mpr entry]
    exact nofun

end Held

end GraphBuilder

open GraphBuilder

namespace World

/-- The inputs that keep the links in step. An attachment hands over new transactions; the
storage answers every read, and one parent always in the same way; what it shows nobody waits
for; and an exit, which wakes nobody, comes before its children. -/
def Orderly (world : World) : Input → Prop
  | .attach env batch =>
    (batch.map Lrc20Transaction.txid).Nodup ∧ batch.Pairwise NotExitOf ∧
    (∀ tx ∈ batch, Unheld world.graph tx) ∧
    (∀ n parent, Asked world.graph batch parent →
      env.isStored n parent = env.isStored 0 parent ∧ ∃ stored, env.isStored 0 parent = .ok stored) ∧
    ∀ parent, env.isStored 0 parent = .ok true → world.graph.children parent = []
  | .cleanup _ _ => True

theorem new_mutual : Mutual new.graph := by
  refine ⟨rfl, ?_, ?_, ?_, ?_, ?_, ?_, ?_⟩
  all_goals simp [new, GraphBuilder.new, waitsFor, children]

theorem step_mutual (world : World) (input : Input) (links : Mutual world.graph)
    (orderly : world.Orderly input) : Mutual (world.step input).graph := by
  cases input with
  | attach env batch =>
    obtain ⟨distinct, exits, unheld, steady, unwaited⟩ := orderly
    refine @attachTxs_tied (fun parent => env.isStored 0 parent = .ok true) _ _ _ ?_ ?_ ?_ distinct
      exits unheld
    · intro n parent asked
      obtain ⟨same, answers⟩ := steady n parent asked
      rw [same]
      exact ⟨answers, id⟩
    · intro n parent asked shown
      rw [(steady n parent asked).1]
      exact shown
    · refine links.atRest ?_
      intro parent child member shown
      rw [unwaited parent shown] at member
      cases member
  | cleanup env outdatedDuration => exact links.cleanup

/-- After every orderly run, a cleanup is exact if and only if it has nothing to remove or meets
no creation time in the future, and no transaction to remove waits for a parent that has a row
and stays. -/
theorem handleCleanup_exact {inputs : List Input}
    (orderly : Runs.AllSteps step Orderly new inputs) (env : Surroundings)
    (outdatedDuration : Nat) (isRow : Txid → Prop) :
    let graph := (Runs.runFrom step new inputs).graph
    graph.CleanupExact env outdatedDuration isRow ↔
      (graph.outdatedTxs env.now outdatedDuration = [] ∨ ¬ graph.Ahead env.now) ∧
      ∀ txid, graph.ToRemove env.now outdatedDuration txid →
        ∀ parent ∈ graph.waitsFor txid, isRow parent →
          graph.ToRemove env.now outdatedDuration parent :=
  (orderly.invariant step_mutual new_mutual).cleanupExact_iff env outdatedDuration isRow

/-- A storage that holds the listed transactions, asked at a time. -/
def surroundingsAt (now : Nat) (rows : List Txid) : Surroundings :=
  { surroundingsHolding rows with now := now }

/-- A builder that waits for transaction `1`. -/
def waitingForOne : World :=
  Runs.runFrom step new (calls [(surroundingsHolding [], [childTransfer])])

theorem handleCleanup_exact_without_row :
    Runs.AllSteps step Orderly new (calls [(surroundingsHolding [], [childTransfer])]) ∧
      waitingForOne.graph.CleanupExact (surroundingsAt 10 []) 5 (· = 2) := by
  have orderly : Runs.AllSteps step Orderly new
      (calls [(surroundingsHolding [], [childTransfer])]) := by
    refine ⟨⟨by decide, List.pairwise_singleton _ _, ?_, ?_, ?_⟩, trivial⟩
    · intro tx member
      rw [List.mem_singleton.mp member]
      exact ⟨rfl, nofun⟩
    · exact fun n parent _ => ⟨rfl, false, rfl⟩
    · exact nofun
  refine ⟨orderly, (handleCleanup_exact orderly (surroundingsAt 10 []) 5 (· = 2)).mpr ⟨?_, ?_⟩⟩
  · refine Or.inr ?_
    rintro ⟨txid, tx, created, stored, late⟩
    have entry := AList.mem_lookup_iff.mp stored
    have only : waitingForOne.graph.storedTxs.entries = [⟨2, childTransfer, 0⟩] := rfl
    rw [waitingForOne] at only
    rw [only, List.mem_singleton] at entry
    cases entry
    exact absurd late (Nat.not_lt_zero 10)
  · intro txid _ parent waits isRow
    -- Transaction `1`, which alone is waited for, has no row.
    have link := ((orderly.invariant step_mutual new_mutual).links parent txid).mpr waits
    subst isRow
    have none : waitingForOne.graph.children 2 = [] := rfl
    rw [waitingForOne] at none
    rw [none] at link
    cases link

/-- The transfer `2` waits for `1` and `3`, which are not handed over with it. -/
def childOfTwo : Lrc20Transaction where
  bitcoinTx := ⟨2, [⟨⟨1, 0⟩, [], []⟩, ⟨⟨3, 0⟩, [], []⟩], []⟩
  txType := .transfer ⟨[(0, .p2tr ⟨Receipt.empty, zeroPublicKey, none⟩),
    (1, .p2tr ⟨Receipt.empty, zeroPublicKey, none⟩)], by decide⟩ ProofMap.empty

def otherIssue : Lrc20Transaction where
  bitcoinTx := ⟨3, [], []⟩
  txType := .issue none ⟨zeroPublicKey, 0⟩

/-- The transfer `1` spends from `9`. -/
def waitingParent : Lrc20Transaction where
  bitcoinTx := ⟨1, [⟨⟨9, 0⟩, [], []⟩], []⟩
  txType := childTransfer.txType

/-- The storage shows `1` before the builder is handed it, so that `2` is announced while it
stays on the list of the children of `1`. -/
def staleChild : World :=
  Runs.runFrom step new (calls [(surroundingsHolding [], [childOfTwo]),
    (surroundingsHolding [1], [otherIssue]), (surroundingsHolding [], [waitingParent])])

/-- A cleanup deletes the parent that an outdated transfer waits for, an announced child of an
outdated transfer, and nothing at all when one creation time is in the future. -/
theorem cleanup_deletes_parent :
    ((waitingForOne.graph.handleCleanup (surroundingsAt 10 []) 5).2 = [2, 1] ∧
      ¬ waitingForOne.graph.ToRemove 10 5 1) ∧
    (2 ∈ staleChild.announced ∧
      (staleChild.graph.handleCleanup (surroundingsAt 10 []) 5).2 = [1, 9, 2]) ∧
    (waitingForOne.step (.attach (surroundingsAt 100 []) [waitingParent])).graph.outdatedTxs 50 5 =
        [2] ∧
      ((waitingForOne.step (.attach (surroundingsAt 100 []) [waitingParent])).graph.handleCleanup
        (surroundingsAt 50 []) 5).1 =
          (waitingForOne.step (.attach (surroundingsAt 100 []) [waitingParent])).graph := by
  refine ⟨⟨rfl, ?_⟩, ⟨by decide, rfl⟩, rfl, rfl⟩
  rintro ⟨first, member, path⟩
  have only : waitingForOne.graph.outdatedTxs 10 5 = [2] := rfl
  rw [only, List.mem_singleton] at member
  subst member
  rcases path.cases_tail with same | ⟨parent, -, waits⟩
  · cases same
  · have none : waitingForOne.graph.waitsFor 1 = [] := rfl
    rw [Waiting, none] at waits
    cases waits

end World

end Lrc20.TxAttach
