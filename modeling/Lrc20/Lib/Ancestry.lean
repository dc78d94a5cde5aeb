import Mathlib.Data.List.Chain

/-! Nodes with at most one parent each, ranked by height: the nodes below a node, and lists in
which each node is the parent of the next. -/

namespace Ancestry

variable {α : Type} (parentOf : α → Option α) (height : α → Nat)

/-- A child is one higher than its parent. -/
def Ranked : Prop :=
  ∀ node below, parentOf node = some below → height below + 1 = height node

/-- Reached from a node by going to the parent any number of times. -/
def Ancestor (below node : α) : Prop :=
  Relation.ReflTransGen (fun lower upper => parentOf upper = some lower) below node

/-- Each node is the parent of the next. -/
def Linked (nodes : List α) : Prop :=
  nodes.IsChain fun lower upper => parentOf upper = some lower

instance [DecidableEq α] (nodes : List α) : Decidable (Linked parentOf nodes) :=
  inferInstanceAs (Decidable (nodes.IsChain fun lower upper => parentOf upper = some lower))

variable {parentOf height}

theorem Ancestor.self (node : α) : Ancestor parentOf node node := Relation.ReflTransGen.refl

theorem Ancestor.of_parent {below node lower : α} (isParent : parentOf node = some lower)
    (ancestor : Ancestor parentOf below lower) : Ancestor parentOf below node :=
  ancestor.tail isParent

theorem Ancestor.proper {below node : α} (ancestor : Ancestor parentOf below node)
    (other : below ≠ node) : ∃ lower, parentOf node = some lower ∧ Ancestor parentOf below lower := by
  rcases ancestor.cases_tail with same | ⟨lower, path, isParent⟩
  · exact absurd same.symm other
  · exact ⟨lower, isParent, path⟩

theorem Ancestor.height_le (ranked : Ranked parentOf height) {below node : α}
    (ancestor : Ancestor parentOf below node) : height below ≤ height node := by
  induction ancestor with
  | refl => exact Nat.le_refl _
  | tail _ isParent ih =>
    have := ranked _ _ isParent
    omega

theorem Ancestor.eq_of_height (ranked : Ranked parentOf height) {below node : α}
    (ancestor : Ancestor parentOf below node) (same : height below = height node) :
    below = node := by
  by_contra proper
  obtain ⟨lower, isParent, path⟩ := Ancestor.proper ancestor proper
  have := ranked _ _ isParent
  have := Ancestor.height_le ranked path
  omega

theorem Linked.ancestor_getLast {nodes : List α} (linked : Linked parentOf nodes) {last : α}
    (isLast : nodes.getLast? = some last) : ∀ node ∈ nodes, Ancestor parentOf node last := by
  induction nodes with
  | nil => cases isLast
  | cons first rest ih =>
    intro node member
    cases rest with
    | nil =>
      rw [List.mem_singleton.mp member]
      cases isLast
      exact Ancestor.self first
    | cons second others =>
      obtain ⟨link, linked⟩ := List.isChain_cons_cons.mp linked
      have isLast' : (second :: others).getLast? = some last := by
        simpa [List.getLast?_cons_cons] using isLast
      have above := ih linked isLast'
      rcases List.mem_cons.mp member with rfl | later
      · exact Relation.ReflTransGen.head link (above second List.mem_cons_self)
      · exact above node later

theorem Linked.append {nodes : List α} {node : α} (linked : Linked parentOf nodes)
    (link : ∀ last, nodes.getLast? = some last → parentOf node = some last) :
    Linked parentOf (nodes ++ [node]) := by
  refine List.isChain_append.mpr ⟨linked, List.isChain_singleton _, ?_⟩
  intro last isLast first isFirst
  cases isFirst
  exact link last isLast

theorem Linked.front {front back : List α} (linked : Linked parentOf (front ++ back)) :
    Linked parentOf front :=
  (List.isChain_append.mp linked).1

end Ancestry
