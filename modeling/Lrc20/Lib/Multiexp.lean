import Mathlib.Tactic.Module

/-! Sums of scalars times points, over any field and any module, and what becomes of them when
the scalars and the points are folded in halves. -/

namespace Multiexp

section Module

variable {F P : Type} [Field F] [AddCommGroup P] [Module F P] {a b : List F} {p q : List P}

def multiexp (terms : List (F × P)) : P :=
  (terms.map fun term => term.1 • term.2).sum

@[simp] theorem multiexp_nil : multiexp ([] : List (F × P)) = 0 := rfl

@[simp] theorem multiexp_cons (term : F × P) (rest : List (F × P)) :
    multiexp (term :: rest) = term.1 • term.2 + multiexp rest := rfl

@[simp] theorem multiexp_append (a b : List (F × P)) :
    multiexp (a ++ b) = multiexp a + multiexp b := by
  simp [multiexp]

theorem multiexp_map_mul (c : F) (terms : List (F × P)) :
    multiexp (terms.map fun term => (term.1 * c, term.2)) = c • multiexp terms := by
  induction terms with
  | nil => simp
  | cons term rest ih =>
    rw [List.map_cons, multiexp_cons, multiexp_cons, ih]
    module

/-- Scalars and points side by side. -/
def dot (scalars : List F) (points : List P) : P := multiexp (scalars.zip points)

@[simp] theorem dot_nil (points : List P) : dot ([] : List F) points = 0 := rfl

@[simp] theorem dot_cons (a : F) (scalars : List F) (p : P) (points : List P) :
    dot (a :: scalars) (p :: points) = a • p + dot scalars points := rfl

theorem dot_append (same : a.length = p.length) (b : List F) (q : List P) :
    dot (a ++ b) (p ++ q) = dot a p + dot b q := by
  unfold dot
  rw [List.zip_append same, multiexp_append]

theorem dot_mul (scalars : List F) (points : List P) (c : F) :
    dot (scalars.map (· * c)) points = c • dot scalars points := by
  unfold dot
  rw [List.zip_map_left]
  exact multiexp_map_mul c (scalars.zip points)

theorem dot_add (same : a.length = b.length) {points : List P} (fits : a.length = points.length) :
    dot (List.zipWith (· + ·) a b) points = dot a points + dot b points := by
  induction a generalizing b points with
  | nil =>
    cases b with
    | nil => simp
    | cons other others => cases same
  | cons first rest ih =>
    cases b with
    | nil => cases same
    | cons other others =>
      cases points with
      | nil => cases fits
      | cons point points =>
        have folded := ih (Nat.succ.inj same) (Nat.succ.inj fits)
        rw [List.zipWith_cons_cons, dot_cons, dot_cons, dot_cons, folded]
        module

def foldPoints (c d : F) (p q : List P) : List P :=
  List.zipWith (fun first second => c • first + d • second) p q

theorem dot_foldPoints (c d : F) {scalars : List F} (fitsP : scalars.length = p.length)
    (fitsQ : scalars.length = q.length) :
    dot scalars (foldPoints c d p q) = c • dot scalars p + d • dot scalars q := by
  induction scalars generalizing p q with
  | nil => simp
  | cons scalar rest ih =>
    cases p with
    | nil => cases fitsP
    | cons first p =>
      cases q with
      | nil => cases fitsQ
      | cons second q =>
        have folded := ih (Nat.succ.inj fitsP) (Nat.succ.inj fitsQ)
        unfold foldPoints at folded ⊢
        rw [List.zipWith_cons_cons, dot_cons, dot_cons, dot_cons, folded]
        module

/-- Scalars and points folded at once: the halves among themselves, and across. -/
theorem dot_fold (c d c' d' : F) (same : a.length = b.length) (fitsP : a.length = p.length)
    (fitsQ : a.length = q.length) :
    dot (List.zipWith (· + ·) (a.map (· * c)) (b.map (· * d))) (foldPoints c' d' p q) =
      (c * c') • dot a p + (d * d') • dot b q + (c * d') • dot a q + (d * c') • dot b p := by
  have fits : (a.map (· * c)).length = (foldPoints c' d' p q).length := by
    simp [foldPoints, ← fitsP, ← fitsQ]
  rw [dot_add (by simpa using same) fits, dot_mul, dot_mul, dot_foldPoints _ _ fitsP fitsQ,
    dot_foldPoints _ _ (same ▸ fitsP) (same ▸ fitsQ)]
  module

end Module

section Weighted

variable {F : Type} [Field F] {a b weights : List F}

/-- The weighted inner product of three lists. -/
def weighted (a b weights : List F) : F :=
  (List.zipWith (fun pair weight => pair.1 * pair.2 * weight) (a.zip b) weights).sum

theorem weighted_eq_dot (a b weights : List F) :
    weighted a b weights = dot a (List.zipWith (· * ·) b weights) := by
  induction a generalizing b weights with
  | nil => simp [weighted]
  | cons first rest ih =>
    cases b with
    | nil => simp [weighted, dot]
    | cons second others =>
      cases weights with
      | nil => simp [weighted, dot]
      | cons weight weights =>
        have tail := ih others weights
        unfold weighted at tail ⊢
        rw [List.zip_cons_cons, List.zipWith_cons_cons, List.sum_cons, tail,
          List.zipWith_cons_cons, dot_cons, smul_eq_mul, mul_assoc]

theorem weighted_append (sameB : a.length = b.length) (sameW : a.length = weights.length)
    (a' b' weights' : List F) :
    weighted (a ++ a') (b ++ b') (weights ++ weights') =
      weighted a b weights + weighted a' b' weights' := by
  have fits : (a.zip b).length = weights.length := by simp [← sameB, ← sameW]
  unfold weighted
  rw [List.zip_append sameB, List.zipWith_append fits, List.sum_append]

theorem weighted_mul (a b weights : List F) (c : F) :
    weighted a b (weights.map (· * c)) = c * weighted a b weights := by
  have scaled : (List.zipWith (fun (pair : F × F) weight => pair.1 * pair.2 * weight) (a.zip b)
      (weights.map (· * c))) = (List.zipWith (fun (pair : F × F) weight =>
        pair.1 * pair.2 * weight) (a.zip b) weights).map (c * ·) := by
    rw [List.zipWith_map_right, List.map_zipWith]
    congr 1
    funext pair weight
    ring
  unfold weighted
  rw [scaled, List.sum_map_mul_left]
  simp

/-- Weights past the end of the lists are not read. -/
theorem weighted_take (same : a.length = b.length) (weights : List F) :
    weighted a b weights = weighted a b (weights.take a.length) := by
  unfold weighted
  congr 1
  apply List.ext_getElem
  · simp [same]
  · intro i _ _
    simp

theorem weighted_fold (c d c' d' : F) {a' b' : List F} (sameB : a.length = b.length)
    (sameA : a.length = a'.length) (sameC : a.length = b'.length)
    (enough : a.length ≤ weights.length) :
    weighted (List.zipWith (· + ·) (a.map (· * c)) (b.map (· * d)))
        (List.zipWith (· + ·) (a'.map (· * c')) (b'.map (· * d'))) weights =
      c * c' * weighted a a' weights + d * d' * weighted b b' weights +
        c * d' * weighted a b' weights + d * c' * weighted b a' weights := by
  have folded : List.zipWith (· * ·) (List.zipWith (· + ·) (a'.map (· * c')) (b'.map (· * d')))
      weights = foldPoints c' d' (List.zipWith (· * ·) a' weights)
        (List.zipWith (· * ·) b' weights) := by
    apply List.ext_getElem
    · simp [foldPoints]
    · intro i _ _
      simp only [foldPoints, List.getElem_zipWith, List.getElem_map, smul_eq_mul]
      ring
  have fitsA : a.length = (List.zipWith (· * ·) a' weights).length := by
    simp [← sameA, enough]
  have fitsB : a.length = (List.zipWith (· * ·) b' weights).length := by
    simp [← sameC, enough]
  simp only [weighted_eq_dot]
  rw [folded, dot_fold c d c' d' sameB fitsA fitsB]
  simp only [smul_eq_mul]

end Weighted

end Multiexp
