import Mathlib.Data.List.Iterate
import Mathlib.Tactic.FieldSimp
import Lrc20.RangeProof.Wip

/-! The prover folds the generators in halves, the verifier scales them where they stand and
remembers which of them belong together. After each round the two agree. -/

open Multiexp

namespace Lrc20.RangeProofs

open VecOps IndexedScalars

section Vectors

variable {m len : Nat}

theorem split_halves {α : Type} [Zero α] {items : List α} (even : items.length = m + m) :
    split items = (items.take m, items.drop m) := by
  have half : items.length / 2 + items.length % 2 = m := by omega
  have full : m - (items.drop m).length = 0 := by simp [even]
  simp only [split, half, full, List.replicate_zero, List.append_nil]

variable {F : Type} [Field F] (y : F)

theorem powers_eq (len : Nat) : powers y len = (List.range len).map fun i => y ^ (i + 1) := by
  have shifted : ∀ i, (· * y)^[i] y = y ^ (i + 1) := by
    intro i
    rw [mul_right_iterate, pow_succ, mul_comm]
  simp only [powers, ← List.range_map_iterate, shifted]

@[simp] theorem powers_length (len : Nat) : (powers y len).length = len := by
  simp [powers_eq]

theorem powers_getD {i : Nat} (inside : i < len) : (powers y len).getD i 0 = y ^ (i + 1) := by
  simp [powers_eq, List.getD_eq_getElem?_getD, inside]

theorem powers_add (m k : Nat) : powers y (m + k) = powers y m ++ (powers y k).map (· * y ^ m) := by
  simp only [powers_eq, List.range_add, List.map_append, List.map_map]
  congr 1
  apply List.map_congr_left
  intro i _
  show y ^ (m + i + 1) = y ^ (i + 1) * y ^ m
  ring

theorem powers_take (inside : m ≤ len) : (powers y len).take m = powers y m := by
  obtain ⟨k, rfl⟩ := Nat.exists_eq_add_of_le inside
  rw [powers_add, List.take_left' (powers_length y m)]

/-- The weighted inner product of two vectors, from those of their halves. -/
theorem wip_halves {a1 a2 b1 b2 : List F} (inside : m + m ≤ len) (a1_len : a1.length = m)
    (a2_len : a2.length = m) (b1_len : b1.length = m) (b2_len : b2.length = m) :
    wip (a1 ++ a2) (b1 ++ b2) (powers y len) =
      wip a1 b1 (powers y len) + y ^ m * wip a2 b2 (powers y len) := by
  have whole : (a1 ++ a2).length = m + m := by simp [a1_len, a2_len]
  have weights : ∀ a b : List F, a.length = m → b.length = m →
      weighted a b (powers y len) = weighted a b (powers y m) := by
    intro a b a_len b_len
    rw [weighted_take (a_len.trans b_len.symm), a_len, powers_take y (by omega)]
  unfold wip
  rw [weights a1 b1 a1_len b1_len, weights a2 b2 a2_len b2_len,
    weighted_take (by simp [*]), whole, powers_take y inside, powers_add,
    weighted_append (a1_len.trans b1_len.symm) (by simp [a1_len]), weighted_mul]

end Vectors

/-! ### Indexed scalars -/

namespace IndexedScalars

variable {F P : Type} [Field F] [AddCommGroup P] [Module F P] {touched : List Nat}

/-- The generators that the scalars stand for. -/
def gathered (scalars : IndexedScalars F) (points : List P) : List P :=
  scalars.positions.map fun group =>
    (group.map fun pos => scalars.inner.getD pos 0 • points.getD pos 0).sum

@[simp] theorem gathered_length (scalars : IndexedScalars F) (points : List P) :
    (scalars.gathered points).length = scalars.positions.length := by
  simp [gathered]

theorem scaled_getD (once : touched.Nodup) (c : F) (inner : List F) (pos : Nat) :
    (touched.foldl (fun inner pos => inner.modify pos (· * c)) inner).getD pos 0 =
      if pos ∈ touched then inner.getD pos 0 * c else inner.getD pos 0 := by
  induction touched generalizing inner with
  | nil => simp
  | cons first rest ih =>
    obtain ⟨absent, once⟩ := List.nodup_cons.mp once
    rw [List.foldl_cons, ih once]
    simp only [List.getD_eq_getElem?_getD, List.getElem?_modify]
    by_cases here : first = pos
    · subst here
      cases inner[first]? <;> simp [absent]
    · simp [here, Ne.symm here]

/-- Scaling the scalars of some groups scales what these stand for, and no group that shares none
of them. -/
theorem gathered_scaled {groups others : List (List Nat)} (once : groups.flatten.Nodup)
    (apart : groups.flatten.Disjoint others.flatten) (c : F) (inner : List F) (points : List P) :
    let scaled := groups.flatten.foldl (fun inner pos => inner.modify pos (· * c)) inner
    gathered ⟨scaled, groups⟩ points = (gathered ⟨inner, groups⟩ points).map (c • ·) ∧
      gathered ⟨scaled, others⟩ points = gathered ⟨inner, others⟩ points := by
  constructor
  · simp only [gathered, List.map_map]
    apply List.map_congr_left
    intro group inGroups
    rw [Function.comp_apply, List.smul_sum, List.map_map]
    congr 1
    apply List.map_congr_left
    intro pos inGroup
    simp only [scaled_getD once, List.mem_flatten_of_mem inGroups inGroup, if_true,
      Function.comp_apply, smul_smul, mul_comm c]
  · apply List.map_congr_left
    intro group inOthers
    congr 1
    apply List.map_congr_left
    intro pos inGroup
    have absent : pos ∉ groups.flatten :=
      fun mem => apart mem (List.mem_flatten_of_mem inOthers inGroup)
    simp only [scaled_getD once, absent, if_false]

theorem gathered_halves (inner : List F) (positions : List (List Nat)) (points : List P) (m : Nat) :
    gathered ⟨inner, positions⟩ points =
      gathered ⟨inner, positions.take m⟩ points ++ gathered ⟨inner, positions.drop m⟩ points := by
  simp only [gathered, ← List.map_append, List.take_append_drop]

variable {scalars : IndexedScalars F} {m : Nat}

variable (even : scalars.positions.length = m + m) (once : scalars.positions.flatten.Nodup)

omit [Field F] in
include once in
theorem nodup_halves : (scalars.positions.take m).flatten.Nodup ∧
    (scalars.positions.drop m).flatten.Nodup ∧
    (scalars.positions.take m).flatten.Disjoint (scalars.positions.drop m).flatten := by
  rwa [← List.nodup_append', ← List.flatten_append, List.take_append_drop]

include even once in
theorem gathered_next_zero (c : F) (points : List P) :
    (scalars.next 0 c).gathered points =
      ((scalars.gathered points).take m).map (c • ·) ++ (scalars.gathered points).drop m := by
  have next : scalars.next 0 c = ⟨(scalars.positions.take m).flatten.foldl
      (fun inner pos => inner.modify pos (· * c)) scalars.inner, scalars.positions⟩ := by
    have high : (m + m) / 2 = m := by omega
    simp [next, even, high]
  obtain ⟨onceFirst, -, apart⟩ := nodup_halves once
  obtain ⟨first, second⟩ := gathered_scaled onceFirst apart c scalars.inner points
  rw [next, gathered_halves _ _ _ m, first, second]
  simp only [gathered, List.map_take, List.map_drop]

include even once in
theorem gathered_next_one (c : F) (points : List P) :
    (scalars.next 1 c).gathered points =
      (scalars.gathered points).take m ++ ((scalars.gathered points).drop m).map (c • ·) := by
  have next : scalars.next 1 c = ⟨(scalars.positions.drop m).flatten.foldl
      (fun inner pos => inner.modify pos (· * c)) scalars.inner, scalars.positions⟩ := by
    have low : 1 * (m + m) / 2 = m := by omega
    simp only [next, even, low]
    rw [List.take_of_length_le (by simp [even])]
  obtain ⟨-, onceSecond, apart⟩ := nodup_halves once
  obtain ⟨second, first⟩ := gathered_scaled onceSecond apart.symm c scalars.inner points
  rw [next, gathered_halves _ _ _ m, first, second]
  simp only [gathered, List.map_take, List.map_drop]

/-- The loop of `merge` from where `first` and `last` are left to be merged. -/
theorem mergeLast_foldl (j : Nat) (first merged last : List (List Nat))
    (same : first.length = last.length) (inside : first.length ≤ j) :
    (List.range' (j - first.length + 1) first.length).foldl (mergeLast j)
      (first ++ merged ++ last) = List.zipWith (· ++ ·) first last ++ merged := by
  induction first using List.reverseRecOn generalizing merged last with
  | nil =>
    have empty : last = [] := List.length_eq_zero_iff.mp same.symm
    simp [empty]
  | append_singleton first a ih =>
    rcases List.eq_nil_or_concat last with empty | ⟨last, b, rfl⟩
    · simp [empty] at same
    · have same' : first.length = last.length := by simpa using same
      have room : first.length + 1 ≤ j := by simpa using inside
      have start : j - (first ++ [a]).length + 1 = j - first.length := by
        simp only [List.length_append, List.length_singleton]
        omega
      have step : mergeLast j (first ++ [a] ++ merged ++ (last ++ [b])) (j - first.length) =
          first ++ (a ++ b) :: merged ++ last := by
        have target : j - (j - first.length) = first.length := by omega
        have shape : first ++ [a] ++ merged ++ (last ++ [b]) =
            (first ++ a :: (merged ++ last)) ++ [b] := by simp
        simp only [mergeLast, target, shape, List.dropLast_concat, List.getLast?_concat,
          Option.getD_some]
        rw [List.modify_eq_take_cons_drop (by simp)]
        simp
      rw [start, List.length_append, List.length_singleton, List.range'_succ, List.foldl_cons,
        List.concat_eq_append, step, ih ((a ++ b) :: merged) last same' (by omega),
        List.zipWith_append same']
      simp

omit [Field F] in
include even in
theorem merge_positions :
    scalars.merge.positions =
      List.zipWith (· ++ ·) (scalars.positions.take m) (scalars.positions.drop m) := by
  have half : scalars.positions.length / 2 = m := by omega
  have short : (scalars.positions.take m).length = m := by simp [even]
  have merged := mergeLast_foldl m (scalars.positions.take m) [] (scalars.positions.drop m)
    (by simp [even]) (by omega)
  simpa [merge, half, short] using merged

omit [Field F] in
include even in
theorem merge_length : scalars.merge.positions.length = m := by
  simp [merge_positions even, even]

theorem flatten_zipWith_append (first last : List (List Nat)) (same : first.length = last.length) :
    (List.zipWith (· ++ ·) first last).flatten.Perm (first.flatten ++ last.flatten) := by
  induction first generalizing last with
  | nil =>
    have empty : last = [] := List.length_eq_zero_iff.mp same.symm
    simp [empty]
  | cons a first ih =>
    cases last with
    | nil => cases same
    | cons b last =>
      have rest := ih last (Nat.succ.inj same)
      simp only [List.zipWith_cons_cons, List.flatten_cons, List.append_assoc]
      apply List.Perm.append_left
      exact (rest.append_left b).trans (List.perm_append_comm_assoc b _ _)

omit [Field F] in
include even in
theorem merge_flatten : scalars.merge.positions.flatten.Perm scalars.positions.flatten := by
  have parts : scalars.positions.flatten =
      (scalars.positions.take m).flatten ++ (scalars.positions.drop m).flatten := by
    rw [← List.flatten_append, List.take_append_drop]
  rw [merge_positions even, parts]
  exact flatten_zipWith_append _ _ (by simp [even])

include even in
theorem gathered_merge (points : List P) :
    scalars.merge.gathered points =
      List.zipWith (· + ·) ((scalars.gathered points).take m)
        ((scalars.gathered points).drop m) := by
  have inner : scalars.merge.inner = scalars.inner := rfl
  simp only [gathered, inner, merge_positions even, List.map_zipWith, List.map_append,
    List.sum_append, ← List.map_take, ← List.map_drop, List.zipWith_map]

include even once in
/-- What a round of the verifier does to the scalars of one list of generators. -/
theorem gathered_round (c d : F) (points : List P) :
    ((scalars.next 0 c).next 1 d).merge.gathered points =
      foldPoints c d ((scalars.gathered points).take m) ((scalars.gathered points).drop m) := by
  have even0 : (scalars.next 0 c).positions.length = m + m := even
  have once0 : (scalars.next 0 c).positions.flatten.Nodup := once
  have even1 : ((scalars.next 0 c).next 1 d).positions.length = m + m := even
  have half : (((scalars.gathered points).take m).map (c • ·)).length = m := by simp [even]
  have half' : ((scalars.gathered points).take m).length = m := by simp [even]
  rw [gathered_merge even1, gathered_next_one even0 once0, gathered_next_zero even once,
    List.take_left' half, List.drop_left' half, List.take_left' half, List.drop_left' half,
    foldPoints, List.zipWith_map]

theorem gathered_withCapacity (points : List P) :
    (withCapacity points.length : IndexedScalars F).gathered points = points := by
  apply List.ext_getElem
  · simp [gathered, withCapacity]
  · intro i _ inside
    have ones : i < points.length + points.length % 2 := by omega
    simp [gathered, withCapacity, List.getD_eq_getElem?_getD, inside, ones]

theorem withCapacity_flatten (capacity : Nat) :
    (withCapacity capacity : IndexedScalars F).positions.flatten = List.range capacity := by
  simp [withCapacity, ← List.flatMap_def]

/-- Once all groups are one, it stands for the sum over all positions. -/
theorem gathered_one {size : Nat} (one : scalars.positions.length = 1)
    (all : scalars.positions.flatten.Perm (List.range size)) (points : List P) :
    scalars.gathered points = [((List.range size).map fun pos =>
      scalars.inner.getD pos 0 • points.getD pos 0).sum] := by
  obtain ⟨group, only⟩ := List.length_eq_one_iff.mp one
  rw [only, List.flatten_singleton] at all
  have sums := (all.map fun pos => scalars.inner.getD pos 0 • points.getD pos 0).sum_eq
  simp only [gathered, only, List.map_singleton, sums]

/-! ### Rounds with given challenges -/

/-- What `next_pairs` does to the scalars of both lists of generators. -/
def nextScalars (y : List F) (scalars : IndexedScalars F × IndexedScalars F) (p : F) :
    IndexedScalars F × IndexedScalars F :=
  let count := scalars.1.positions.length
  let yNHatInv := (y.getD ((count + count % 2) / 2 - 1) 0)⁻¹
  (((scalars.1.next 0 p⁻¹).next 1 (p * yNHatInv)).merge, ((scalars.2.next 0 p).next 1 p⁻¹).merge)

omit [AddCommGroup P] [Module F P] in
theorem nextPairs_scalars (curve : Curve F P) (y : List F) (verifier : Verifier F P)
    (pair : P × P) :
    let after := verifier.nextPairs curve y pair
    (after.gBold, after.hBold) = nextScalars y (verifier.gBold, verifier.hBold)
      (syncPoints curve pair.1 pair.2 verifier.transcript).1 := rfl

/-- What the loop of `generate` makes of both lists of generators. -/
def foldGens (y : List F) : List F → List P × List P → List P × List P
  | [], gens => gens
  | p :: rest, (g, h) =>
    let (g1, g2) := split g
    let (h1, h2) := split h
    foldGens y rest (nextGens p (y.getD (g1.length - 1) 0)⁻¹ g1 g2 h1 h2)

theorem round_gens (curve : Curve F P) (y : List F) (dL dR : F) (prover : Prover F P) :
    let after := prover.round curve y dL dR
    let pair := prover.pair curve y dL dR
    (after.hBold, after.gBold) = foldGens y
      [(syncPoints curve pair.1 pair.2 prover.transcript).1] (prover.hBold, prover.gBold) := rfl

/-- Each position below the size is in one of the groups. -/
structure Divides (scalars : IndexedScalars F) (size count : Nat) : Prop where
  length : scalars.positions.length = count
  all : scalars.positions.flatten.Perm (List.range size)

variable {size : Nat} {g h : IndexedScalars F}

theorem divides_withCapacity (size : Nat) :
    (withCapacity size : IndexedScalars F).Divides size size :=
  ⟨by simp [withCapacity], by rw [withCapacity_flatten]⟩

theorem Divides.round (divides : scalars.Divides size (m + m)) (c d : F) :
    ((scalars.next 0 c).next 1 d).merge.Divides size m := by
  have even : ((scalars.next 0 c).next 1 d).positions.length = m + m := divides.length
  exact ⟨merge_length even, (merge_flatten even).trans divides.all⟩

theorem foldGens_gathered (y : List F) {challenges : List F} (points others : List P)
    (gDivides : g.Divides size (2 ^ challenges.length))
    (hDivides : h.Divides size (2 ^ challenges.length)) :
    let after := challenges.foldl (nextScalars y) (g, h)
    after.1.Divides size 1 ∧ after.2.Divides size 1 ∧
      foldGens y challenges (g.gathered points, h.gathered others) =
        (after.1.gathered points, after.2.gathered others) := by
  induction challenges generalizing g h with
  | nil => exact ⟨gDivides, hDivides, rfl⟩
  | cons p rest ih =>
    have double : 2 ^ (p :: rest).length = 2 ^ rest.length + 2 ^ rest.length := by
      rw [List.length_cons]
      omega
    rw [double] at gDivides hDivides
    have once : ∀ {side : IndexedScalars F} {count : Nat}, side.Divides size count →
        side.positions.flatten.Nodup :=
      fun divides => divides.all.nodup_iff.mpr List.nodup_range
    have half : (g.positions.length + g.positions.length % 2) / 2 = 2 ^ rest.length := by
      rw [gDivides.length]
      omega
    have even : ∀ {side : IndexedScalars F} {count : Nat}, side.Divides size count →
        ∀ points : List P, (side.gathered points).length = count :=
      fun divides points => (gathered_length _ _).trans divides.length
    have short : ((g.gathered points).take (2 ^ rest.length)).length = 2 ^ rest.length := by
      simp [gDivides.length]
    -- what is folded next is what the scalars after this round stand for
    simp only [foldGens, split_halves (even gDivides _), split_halves (even hDivides _), short,
      nextGens, List.foldl_cons, nextScalars, half,
      ← gathered_round gDivides.length (once gDivides),
      ← gathered_round hDivides.length (once hDivides)]
    exact ih (gDivides.round _ _) (hDivides.round _ _)

/-- The generators with the scalars of the verifier add up to what the prover folds them into, on
both sides, for every list of challenges and generators twice as many with each of them. -/
theorem scalars_eq_folded (y challenges : List F) (g h : List.Vector P (2 ^ challenges.length)) :
    foldGens y challenges (g.toList, h.toList) =
      let size := 2 ^ challenges.length
      let scalars := challenges.foldl (nextScalars y) (withCapacity size, withCapacity size)
      let exponentiated (side : IndexedScalars F) (points : List P) : P :=
        multiexp ((List.range size).map fun i => (side.inner.getD i 0, points.getD i 0))
      ([exponentiated scalars.1 g.toList], [exponentiated scalars.2 h.toList]) := by
  have start : ∀ points : List.Vector P (2 ^ challenges.length),
      (withCapacity (2 ^ challenges.length) : IndexedScalars F).gathered points.toList =
        points.toList := by
    intro points
    have whole := gathered_withCapacity (F := F) points.toList
    rwa [points.toList_length] at whole
  obtain ⟨gOne, hOne, folds⟩ := foldGens_gathered y g.toList h.toList
    (divides_withCapacity _) (divides_withCapacity _)
  rw [start, start] at folds
  rw [folds, gathered_one gOne.length gOne.all, gathered_one hOne.length hOne.all]
  simp only [multiexp, List.map_map, Function.comp_def]

end IndexedScalars

/-! ### Rounds -/

section Rounds

variable {F P : Type} [Field F] [AddCommGroup P] [Module F P] {curve : Curve F P}
  {prover : Prover F P} {scalars : IndexedScalars F} {m len : Nat} {transcript : Transcript}
  {verifier : Verifier F P} {y : F} {dL dR p : F} {points folded : List P} {l r : P}

/-- The statement that the prover's vectors are a witness of. -/
def witnessed (curve : Curve F P) (y : List F) (prover : Prover F P) : P :=
  dot prover.aL prover.hBold + dot prover.aR prover.gBold +
    wip prover.aL prover.aR y • curve.h + prover.alpha • curve.g

/-- Scalars that stand for a list of generators of a length, each position in one group. -/
structure StandsFor (scalars : IndexedScalars F) (points folded : List P) (m : Nat) : Prop where
  length : scalars.positions.length = m
  all : scalars.positions.flatten.Perm (List.range rangeProofSize)
  gathers : scalars.gathered points = folded

theorem StandsFor.folded_length (stands : StandsFor scalars points folded m) :
    folded.length = m := by
  rw [← stands.gathers, gathered_length, stands.length]

theorem StandsFor.round (stands : StandsFor scalars points folded (m + m)) (c d : F) :
    StandsFor ((scalars.next 0 c).next 1 d).merge points
      (foldPoints c d (folded.take m) (folded.drop m)) m := by
  have even : ((scalars.next 0 c).next 1 d).positions.length = m + m := stands.length
  refine ⟨merge_length even, ?_, ?_⟩
  · exact (merge_flatten even).trans stands.all
  · have once : scalars.positions.flatten.Nodup := stands.all.nodup_iff.mpr List.nodup_range
    rw [gathered_round stands.length once, stands.gathers]

/-- The verifier and the prover before a round, with vectors of length `m`. -/
structure Agree (curve : Curve F P) (y : List F) (m : Nat) (verifier : Verifier F P)
    (prover : Prover F P) : Prop where
  gBold : StandsFor verifier.gBold curve.hBold prover.hBold m
  hBold : StandsFor verifier.hBold curve.gBold prover.gBold m
  aL_length : prover.aL.length = m
  aR_length : prover.aR.length = m
  transcript : verifier.transcript = prover.transcript
  terms : multiexp verifier.terms = witnessed curve y prover
  proverInverts : ∀ scalar ∈ prover.inverted, scalar ≠ 0
  verifierInverts : ∀ scalar ∈ verifier.inverted, scalar ≠ 0

/-- The points `l` and `r` make up for what folding adds. -/
theorem fold_identity (g h : P) (dL dR alpha : F) {a1 a2 b1 b2 : List F} {h1 h2 g1 g2 : List P}
    (inside : m + m ≤ len) (y_ne : y ≠ 0) (p_ne : p ≠ 0) (a1_len : a1.length = m)
    (a2_len : a2.length = m) (b1_len : b1.length = m) (b2_len : b2.length = m)
    (h1_len : h1.length = m) (h2_len : h2.length = m) (g1_len : g1.length = m)
    (g2_len : g2.length = m) :
    dot (addAll (mul a1 p) (mul a2 (y ^ m * p⁻¹))) (foldPoints p⁻¹ (p * (y ^ m)⁻¹) h1 h2) +
        dot (addAll (mul b1 p⁻¹) (mul b2 p)) (foldPoints p p⁻¹ g1 g2) +
        wip (addAll (mul a1 p) (mul a2 (y ^ m * p⁻¹))) (addAll (mul b1 p⁻¹) (mul b2 p))
          (powers y len) • h + (alpha + (dL * p ^ 2 + dR * p⁻¹ ^ 2)) • g =
      dot (a1 ++ a2) (h1 ++ h2) + dot (b1 ++ b2) (g1 ++ g2) +
          wip (a1 ++ a2) (b1 ++ b2) (powers y len) • h + alpha • g +
        p ^ 2 • multiexp ((mul a1 (y ^ m)⁻¹).zip h2 ++ b2.zip g1 ++
          [(wip a1 b2 (powers y len), h), (dL, g)]) +
        p⁻¹ ^ 2 • multiexp ((mul a2 (y ^ m)).zip h1 ++ b1.zip g2 ++
          [(wip (mul a2 (y ^ m)) b1 (powers y len), h), (dR, g)]) := by
  have ym_ne : y ^ m ≠ 0 := pow_ne_zero m y_ne
  have scaled : wip (mul a2 (y ^ m)) b1 (powers y len) = y ^ m * wip a2 b1 (powers y len) := by
    simp only [wip, mul, weighted_eq_dot, dot_mul, smul_eq_mul]
  rw [scaled, wip_halves y inside a1_len a2_len b1_len b2_len,
    dot_append (a1_len.trans h1_len.symm), dot_append (b1_len.trans g1_len.symm)]
  simp only [multiexp_append, multiexp_cons, multiexp_nil, ← dot.eq_1, mul, addAll, wip, dot_mul]
  rw [dot_fold p (y ^ m * p⁻¹) p⁻¹ (p * (y ^ m)⁻¹) (by omega) (by omega) (by omega),
    dot_fold p⁻¹ p p p⁻¹ (by omega) (by omega) (by omega),
    weighted_fold p (y ^ m * p⁻¹) p⁻¹ p (by omega) (by omega) (by omega) (by simp; omega)]
  match_scalars <;> field_simp
  all_goals ring

omit [Field F] [AddCommGroup P] [Module F P] in
theorem drawn_mono {earlier later : Transcript} (continued : earlier <+: later) {scalar : F}
    (drawn : scalar ∈ curve.drawn earlier) : scalar ∈ curve.drawn later := by
  obtain ⟨asked, before, challenge⟩ := List.mem_filterMap.mp drawn
  have inits := ((List.mem_inits _ _).mp before).trans continued
  exact List.mem_filterMap.mpr ⟨asked, (List.mem_inits _ _).mpr inits, challenge⟩

omit [Field F] [AddCommGroup P] [Module F P] in
theorem syncPoints_drawn (a b : P) (transcript : Transcript) :
    (syncPoints curve a b transcript).1 ∈ curve.drawn (syncPoints curve a b transcript).2 := by
  refine List.mem_filterMap.mpr ⟨_, (List.mem_inits _ _).mpr (List.prefix_refl _), ?_⟩
  simp [syncPoints]

/-- The vectors of the prover have two halves of length `m`. -/
structure Prover.Even (prover : Prover F P) (m : Nat) : Prop where
  aL : prover.aL.length = m + m
  aR : prover.aR.length = m + m
  hBold : prover.hBold.length = m + m
  gBold : prover.gBold.length = m + m

theorem yNHat_eq (y : F) (positive : 0 < m) (inside : m + m ≤ len) :
    (powers y len).getD (m - 1) 0 = y ^ m := by
  rw [powers_getD y (by omega), Nat.sub_add_cancel positive]

theorem Prover.round_eq (positive : 0 < m) (inside : m + m ≤ len) (even : prover.Even m)
    (pair : prover.pair curve (powers y len) dL dR = (l, r))
    (sync : syncPoints curve l r prover.transcript = (p, transcript)) :
    prover.round curve (powers y len) dL dR =
      { hBold := foldPoints p⁻¹ (p * (y ^ m)⁻¹) (prover.hBold.take m) (prover.hBold.drop m)
        gBold := foldPoints p p⁻¹ (prover.gBold.take m) (prover.gBold.drop m)
        aL := addAll (mul (prover.aL.take m) p) (mul (prover.aL.drop m) (y ^ m * p⁻¹))
        aR := addAll (mul (prover.aR.take m) p⁻¹) (mul (prover.aR.drop m) p)
        alpha := prover.alpha + (dL * p ^ 2 + dR * p⁻¹ ^ 2)
        l := prover.l ++ [l]
        r := prover.r ++ [r]
        transcript
        inverted := prover.inverted ++ [y ^ m, p] } := by
  have half : (prover.hBold.take m).length = m := by simp [even.hBold]
  simp only [Prover.round, pair, sync, split_halves even.aL, split_halves even.aR,
    split_halves even.hBold, split_halves even.gBold, half, yNHat_eq y positive inside, nextGens]

/-- What the vectors are a witness of grows in a round by the scaled `l` and `r`. -/
theorem witnessed_round (positive : 0 < m) (inside : m + m ≤ len) (even : prover.Even m)
    (y_ne : y ≠ 0) (p_ne : p ≠ 0) (pair : prover.pair curve (powers y len) dL dR = (l, r))
    (sync : syncPoints curve l r prover.transcript = (p, transcript)) :
    witnessed curve (powers y len) (prover.round curve (powers y len) dL dR) =
      witnessed curve (powers y len) prover + p ^ 2 • l + p⁻¹ ^ 2 • r := by
  have halves : ∀ {α : Type} (items : List α), items.length = m + m →
      (items.take m).length = m ∧ (items.drop m).length = m := by
    intro α items len
    simp [len]
  obtain ⟨a1_len, a2_len⟩ := halves _ even.aL
  obtain ⟨b1_len, b2_len⟩ := halves _ even.aR
  obtain ⟨h1_len, h2_len⟩ := halves _ even.hBold
  obtain ⟨g1_len, g2_len⟩ := halves _ even.gBold
  have folded := fold_identity curve.g curve.h dL dR prover.alpha inside y_ne p_ne a1_len a2_len
    b1_len b2_len h1_len h2_len g1_len g2_len
  simp only [List.take_append_drop] at folded
  rw [Prover.round_eq positive inside even pair sync]
  simp only [Prover.pair, split_halves even.aL, split_halves even.aR, split_halves even.hBold,
    split_halves even.gBold, h1_len, yNHat_eq y positive inside] at pair
  obtain ⟨rfl, rfl⟩ := Prod.mk.inj pair
  exact folded

/-- A round keeps prover and verifier in agreement. -/
theorem Agree.round (agree : Agree curve (powers y len) (m + m) verifier prover) (positive : 0 < m)
    (inside : m + m ≤ len) (y_ne : y ≠ 0)
    (nonzero : ∀ scalar ∈ curve.drawn (prover.round curve (powers y len) dL dR).transcript,
      scalar ≠ 0) :
    Agree curve (powers y len) m
      (verifier.nextPairs curve (powers y len) (prover.pair curve (powers y len) dL dR))
      (prover.round curve (powers y len) dL dR) := by
  have even : prover.Even m := ⟨agree.aL_length, agree.aR_length, agree.gBold.folded_length,
    agree.hBold.folded_length⟩
  have nHat : (verifier.gBold.positions.length + verifier.gBold.positions.length % 2) / 2 = m := by
    rw [agree.gBold.length]
    omega
  have ym_ne : y ^ m ≠ 0 := pow_ne_zero m y_ne
  obtain ⟨l, r, pair⟩ : ∃ l r, prover.pair curve (powers y len) dL dR = (l, r) := ⟨_, _, rfl⟩
  obtain ⟨p, transcript, sync⟩ : ∃ p transcript,
      syncPoints curve l r prover.transcript = (p, transcript) := ⟨_, _, rfl⟩
  have round := Prover.round_eq positive inside even pair sync
  have p_ne : p ≠ 0 := by
    have drawn : p ∈ curve.drawn transcript := by
      rw [← show _ = transcript from congrArg Prod.snd sync, ← show _ = p from
        congrArg Prod.fst sync]
      exact syncPoints_drawn l r prover.transcript
    rw [round] at nonzero
    exact nonzero p drawn
  have next : verifier.nextPairs curve (powers y len) (l, r) =
      { gBold := ((verifier.gBold.next 0 p⁻¹).next 1 (p * (y ^ m)⁻¹)).merge
        hBold := ((verifier.hBold.next 0 p).next 1 p⁻¹).merge
        terms := verifier.terms ++ [(p ^ 2, l), (p⁻¹ ^ 2, r)]
        transcript
        inverted := verifier.inverted ++ [y ^ m, p] } := by
    simp only [Verifier.nextPairs, nHat, yNHat_eq y positive inside, agree.transcript, sync]
  rw [pair, next]
  constructor
  case terms =>
    rw [witnessed_round positive inside even y_ne p_ne pair sync, ← agree.terms]
    simp [add_assoc]
  case verifierInverts => simpa [or_imp, forall_and, ym_ne, p_ne] using agree.verifierInverts
  all_goals rw [round]
  case gBold => exact agree.gBold.round _ _
  case hBold => exact agree.hBold.round _ _
  case aL_length => simp [addAll, mul, agree.aL_length]
  case aR_length => simp [addAll, mul, agree.aR_length]
  case proverInverts => simpa [or_imp, forall_and, ym_ne, p_ne] using agree.proverInverts

/-! ### Runs -/

theorem rounds_continues (y : List F) (random : WipRandomness F) (fuel : Nat) (prover : Prover F P) :
    prover.transcript <+: (prover.rounds curve y random fuel).transcript := by
  induction fuel generalizing prover with
  | zero => exact List.prefix_refl _
  | succ fuel ih =>
    unfold Prover.rounds
    split
    · refine List.IsPrefix.trans ?_ (ih _)
      exact List.prefix_append _ _
    · exact List.prefix_refl _

theorem WipStmt.generate_continues (stmt : WipStmt F P) (aL aR : List F) (alpha : F)
    (random : WipRandomness F) (transcript : Transcript) :
    transcript <+: (stmt.generate curve aL aR alpha random transcript).2.1 := by
  refine List.IsPrefix.trans ?_ (List.prefix_append _ _)
  exact rounds_continues stmt.y random rangeProofSize
    ⟨curve.hBold, curve.gBold, aL, aR, alpha, [], [], transcript, []⟩

/-- From vectors of length `2 ^ k`, the verifier that is given the points of the rounds to come
agrees with the prover at the end of the loop. -/
theorem rounds_agree (y_ne : y ≠ 0) (random : WipRandomness F) {k fuel : Nat} (enough : k ≤ fuel)
    (inside : 2 ^ k ≤ len) (agree : Agree curve (powers y len) (2 ^ k) verifier prover)
    (nonzero : ∀ scalar ∈ curve.drawn
      (prover.rounds curve (powers y len) random fuel).transcript, scalar ≠ 0) :
    ∃ ls rs, (prover.rounds curve (powers y len) random fuel).l = prover.l ++ ls ∧
      (prover.rounds curve (powers y len) random fuel).r = prover.r ++ rs ∧
      Agree curve (powers y len) 1
        ((ls.zip rs).foldl (Verifier.nextPairs curve (powers y len)) verifier)
        (prover.rounds curve (powers y len) random fuel) := by
  induction k generalizing fuel verifier prover with
  | zero =>
    have stops : prover.rounds curve (powers y len) random fuel = prover := by
      have one : prover.hBold.length = 1 := agree.gBold.folded_length
      cases fuel with
      | zero => rfl
      | succ fuel => simp [Prover.rounds, one]
    rw [stops]
    exact ⟨[], [], by simp, by simp, agree⟩
  | succ k ih =>
    obtain ⟨fuel, rfl⟩ := Nat.exists_eq_add_of_lt enough
    have double : 2 ^ (k + 1) = 2 ^ k + 2 ^ k := by omega
    have positive : 0 < 2 ^ k := Nat.two_pow_pos k
    have goesOn : 1 < prover.hBold.length := by
      have := agree.gBold.folded_length
      omega
    rw [double] at agree inside
    generalize taken : prover.round curve (powers y len) (random.dL prover.l.length)
      (random.dR prover.l.length) = after
    have turn : prover.rounds curve (powers y len) random (k + fuel + 1) =
        after.rounds curve (powers y len) random (k + fuel) := by
      rw [Prover.rounds, if_pos goesOn, taken]
    rw [turn] at nonzero ⊢
    have early : ∀ scalar ∈ curve.drawn after.transcript, scalar ≠ 0 := fun scalar drawn =>
      nonzero scalar (drawn_mono (rounds_continues _ _ _ _) drawn)
    rw [← taken] at early
    have next := agree.round positive inside y_ne early
    rw [taken] at next
    obtain ⟨ls, rs, left, right, final⟩ := ih (by omega) (by omega) next nonzero
    refine ⟨(prover.pair curve (powers y len) (random.dL prover.l.length)
      (random.dR prover.l.length)).1 :: ls, (prover.pair curve (powers y len)
      (random.dL prover.l.length) (random.dR prover.l.length)).2 :: rs, ?_, ?_, ?_⟩
    · rw [left, ← taken]
      simp [Prover.round]
    · rw [right, ← taken]
      simp [Prover.round]
    · exact final

/-- The sum over all generators of one list, each with its scalar times a common factor. -/
theorem StandsFor.queued {folded : P} (stands : StandsFor scalars points [folded] 1) (c d : F) :
    multiexp ((List.range rangeProofSize).map fun i =>
      (scalars.inner.getD i 0 * c * d, points.getD i 0)) = (c * d) • folded := by
  have sum := stands.gathers.symm.trans (gathered_one stands.length stands.all points)
  have scaled : ((List.range rangeProofSize).map fun i =>
      (scalars.inner.getD i 0 * c * d, points.getD i 0)) =
        ((List.range rangeProofSize).map fun i => (scalars.inner.getD i 0, points.getD i 0)).map
          fun term => (term.1 * (c * d), term.2) := by
    simp [Function.comp_def, mul_assoc]
  rw [scaled, multiexp_map_mul, List.singleton_inj.mp sum, multiexp, List.map_map]
  rfl

/-- A prover and a verifier that agree on vectors of length one finish with the identity. -/
theorem Agree.finish (positive : 0 < len) (agree : Agree curve (powers y len) 1 verifier prover)
    (random : WipRandomness F) :
    multiexp (verifier.queued curve (powers y len)
      (prover.finish curve (powers y len) random).1) = 0 := by
  obtain ⟨a, aL⟩ := List.length_eq_one_iff.mp agree.aL_length
  obtain ⟨b, aR⟩ := List.length_eq_one_iff.mp agree.aR_length
  obtain ⟨h, hBold⟩ := List.length_eq_one_iff.mp agree.gBold.folded_length
  obtain ⟨g, gBold⟩ := List.length_eq_one_iff.mp agree.hBold.folded_length
  have y0 : (powers y len).getD 0 0 = y := by rw [powers_getD y positive, zero_add, pow_one]
  have wip : wip [a] [b] (powers y len) = a * b * y := by
    obtain ⟨k, rfl⟩ := Nat.exists_eq_add_of_le' positive
    simp [wip, weighted, powers]
  have terms := agree.terms
  have standsH := agree.gBold
  have standsG := agree.hBold
  rw [hBold] at standsH
  rw [gBold] at standsG
  simp only [witnessed, aL, aR, hBold, gBold, wip, dot_cons, dot_nil, add_zero] at terms
  simp only [Verifier.queued, Prover.finish, aL, aR, hBold, gBold, y0, List.getD_cons_zero,
    agree.transcript, multiexp_append, multiexp_map_mul, terms, standsH.queued, standsG.queued,
    multiexp_cons, multiexp_nil]
  generalize (syncPoints curve _ _ prover.transcript).1 = e
  module

/-- The verifier of the argument accepts what the prover makes of a witness. -/
theorem WipStmt.verify_accepts {aHat : P} (y_ne : y ≠ 0) {aL aR : List F} {alpha : F}
    (random : WipRandomness F) (aL_length : aL.length = rangeProofSize)
    (aR_length : aR.length = rangeProofSize)
    (opens : aHat = dot aL curve.hBold + dot aR curve.gBold +
      wip aL aR (powers y rangeProofSize) • curve.h + alpha • curve.g) {proof : WipProof F P}
    {after : Transcript} {inverted : List F}
    (generated : (WipStmt.new aHat y).generate curve aL aR alpha random transcript =
      (proof, after, inverted)) (nonzero : ∀ scalar ∈ curve.drawn after, scalar ≠ 0) :
    (∀ scalar ∈ inverted, scalar ≠ 0) ∧
    (∀ scalar ∈ ((WipStmt.new aHat y).verify curve proof transcript).2, scalar ≠ 0) ∧
    multiexp ((WipStmt.new aHat y).verify curve proof transcript).1 = 0 := by
  simp only [WipStmt.generate, WipStmt.new, Prod.mk.injEq] at generated
  obtain ⟨rfl, rfl, rfl⟩ := generated
  generalize starts : (⟨curve.hBold, curve.gBold, aL, aR, alpha, [], [], transcript, []⟩ :
    Prover F P) = prover at *
  generalize begins : (⟨.withCapacity rangeProofSize, .withCapacity rangeProofSize, [(1, aHat)],
    transcript, []⟩ : Verifier F P) = verifier
  have full : ∀ points : List P, points.length = rangeProofSize →
      StandsFor (.withCapacity rangeProofSize : IndexedScalars F) points points rangeProofSize := by
    intro points length
    refine ⟨by simp [withCapacity], ?_, ?_⟩
    · rw [withCapacity_flatten]
    · rw [← length]
      exact gathered_withCapacity points
  have agree : Agree curve (powers y rangeProofSize) (2 ^ 7) verifier prover := by
    subst starts begins
    exact ⟨full _ curve.hBold_length, full _ curve.gBold_length, aL_length, aR_length, rfl,
      by simpa [witnessed] using opens, by simp, by simp⟩
  have early : ∀ scalar ∈ curve.drawn (prover.rounds curve (powers y rangeProofSize) random
      rangeProofSize).transcript, scalar ≠ 0 := fun scalar drawn =>
    nonzero scalar (drawn_mono (List.prefix_append _ _) drawn)
  obtain ⟨ls, rs, left, right, final⟩ :=
    rounds_agree y_ne random (by decide) (by decide) agree early
  have noneBefore : prover.l = [] ∧ prover.r = [] := by
    subst starts
    exact ⟨rfl, rfl⟩
  rw [noneBefore.1, List.nil_append] at left
  rw [noneBefore.2, List.nil_append] at right
  have follows : (WipStmt.new aHat y).follow curve ((prover.rounds curve
      (powers y rangeProofSize) random rangeProofSize).finish curve
        (powers y rangeProofSize) random).1 transcript =
      (ls.zip rs).foldl (Verifier.nextPairs curve (powers y rangeProofSize)) verifier := by
    simp only [WipStmt.follow, WipStmt.new, Prover.finish, left, right, begins]
  refine ⟨final.proverInverts, ?_, ?_⟩
  · simp only [WipStmt.verify, follows]
    exact final.verifierInverts
  · simp only [WipStmt.verify, follows]
    exact final.finish (by decide) random

end Rounds

end Lrc20.RangeProofs
