import Mathlib.Algebra.BigOperators.Intervals
import Mathlib.Algebra.Field.ZMod
import Mathlib.Tactic.LinearCombination
import Lrc20.RangeProof.Folding
import Lrc20.Receipts.Receipt

/-! Range proofs of the `bulletproof` crate: `range_proof.rs`. -/

open Multiexp

namespace Lrc20.RangeProofs

open VecOps

section Model

variable {F P : Type} [Field F] [AddCommGroup P] [Module F P] (curve : Curve F P)

structure RangeProof (F P : Type) where
  a : P
  wip : WipProof F P

def commit (v r : F) : P := v • curve.h + r • curve.g

def calculatePoint (a : P) (label : String) (transcript : Transcript) : F × Transcript :=
  let asked := transcript ++ [.appendMessage "a" (curve.encode a), .challengeBytes label]
  (curve.challenge asked, asked)

/-- The bits of the value, lowest first. -/
def calculateAL (value : U128) : List F :=
  (List.range rangeProofSize).map fun i => ((value.val >>> i &&& 1 : Nat) : F)

def calculateATerms (alpha : F) (aL aR : List F) : List (F × P) :=
  aL.zip curve.hBold ++ aR.zip curve.gBold ++ [(alpha, curve.g)]

instance instAtLeastTwo : Nat.AtLeastTwo 2 := ⟨le_rfl⟩

/-- `calculate_a_hat`: `powers_y_inv`, `y_inv_mul` and `a_hat`. -/
def calculateAHat (v a : P) (y z : F) : List F × F × P :=
  let twos := newPower (2 : F) rangeProofSize
  let yVec := powers y rangeProofSize
  let yVecInv := yVec.reverse
  let yInvMul := yVecInv.getD 0 0 * y
  let ySum := yVec.sum
  let powersYInv := mulAll twos yVecInv
  let bold := (add powersYInv z).zipIdx.flatMap fun (scalar, i) =>
    [(-z, curve.hBold.getD i 0), (scalar, curve.gBold.getD i 0)]
  let lastTerm := ySum * z - twos.sum * yInvMul * z - ySum * z ^ 2
  (powersYInv, yInvMul, a + multiexp (bold ++ [(yInvMul, v), (lastTerm, curve.h)]))

structure Randomness (F : Type) where
  alpha : F
  wip : WipRandomness F

/-- What `generate` computes, with the transcript it leaves and the scalars it inverts. -/
structure Generated (F P : Type) where
  proof : RangeProof F P
  commit : P
  transcript : Transcript
  inverted : List F

def generating (value : U128) (blinding : F) (random : Randomness F) : Generated F P :=
  let transcript : Transcript := [.new "range_proof"]
  let commit := commit curve (value.val : F) blinding
  let aL := calculateAL value
  let aR := sub aL 1
  let a := multiexp (calculateATerms curve random.alpha aL aR)
  let (y, transcript) := calculatePoint curve a "y" transcript
  let (z, transcript) := calculatePoint curve a "z" transcript
  let (twoDescendingY, yNPlusOne, aHat) := calculateAHat curve commit a y z
  let aL := sub aL z
  let aR := addAll aR (add twoDescendingY z)
  let alpha := random.alpha + blinding * yNPlusOne
  let (wip, transcript, inverted) :=
    (WipStmt.new aHat y).generate curve aL aR alpha random.wip transcript
  ⟨⟨a, wip⟩, commit, transcript, inverted⟩

/-- `generate`, or nothing where it panics. -/
def generate [DecidableEq F] (value : U128) (blinding : F) (random : Randomness F) :
    Option (RangeProof F P × P) :=
  let generated := generating curve value blinding random
  if ∀ scalar ∈ generated.inverted, scalar ≠ 0 then some (generated.proof, generated.commit)
  else none

/-- What `verify` has put into its transcript when it draws `y`, and when it draws `z`. -/
def verifyAsks (_commit : P) (proof : RangeProof F P) : Transcript × Transcript :=
  let askedY := (calculatePoint curve proof.a "y" [.new "range_proof"]).2
  (askedY, (calculatePoint curve proof.a "z" askedY).2)

/-- What `verify` queues, and the scalars it inverts. -/
def verifying (commit : P) (proof : RangeProof F P) : List (F × P) × List F :=
  let (askedY, askedZ) := verifyAsks curve commit proof
  let y := curve.challenge askedY
  let z := curve.challenge askedZ
  let (_, _, aHat) := calculateAHat curve commit proof.a y z
  (WipStmt.new aHat y).verify curve proof.wip askedZ

/-- `verify`, or nothing where it panics. The batch verifier accepts the identity alone. -/
def verify [DecidableEq F] [DecidableEq P] (commit : P) (proof : RangeProof F P) : Option Bool :=
  let (queued, inverted) := verifying curve commit proof
  if ∀ scalar ∈ inverted, scalar ≠ 0 then some (decide (multiexp queued = 0)) else none

end Model

/-- The field of three elements as its own group, with challenges that are always one. -/
def unitCurve : Curve (ZMod 3) (ZMod 3) where
  g := 1
  h := 2
  gBold := List.replicate rangeProofSize 1
  hBold := List.replicate rangeProofSize 2
  gBold_length := List.length_replicate
  hBold_length := List.length_replicate
  encode := fun point => [UInt8.ofNat point.val]
  challenge := fun _ => 1

/-! ### Completeness -/

section Sums

variable {F P : Type} [Field F] [AddCommGroup P] [Module F P] {α : Type}

theorem sum_map_range (f : Nat → P) (n : Nat) :
    ((List.range n).map f).sum = ∑ i ∈ Finset.range n, f i := rfl

theorem dot_map_range {points : List P} {n : Nat} (length : points.length = n) (f : Nat → F) :
    dot ((List.range n).map f) points = ∑ i ∈ Finset.range n, f i • points.getD i 0 := by
  have zipped : ((List.range n).map f).zip points =
      (List.range n).map fun i => (f i, points.getD i 0) := by
    apply List.ext_getElem
    · simp [length]
    · intro i _ inside
      have within : i < points.length := by simpa [length] using inside
      simp [List.getD_eq_getElem?_getD, within]
  rw [dot, zipped, multiexp, List.map_map, ← sum_map_range]
  rfl

theorem weighted_map_range (f g w : Nat → F) (n : Nat) :
    weighted ((List.range n).map f) ((List.range n).map g) ((List.range n).map w) =
      ∑ i ∈ Finset.range n, f i * g i * w i := by
  rw [weighted, List.zip_map', List.zipWith_map, List.zipWith_self, sum_map_range]

theorem newPower_eq (v : F) {len : Nat} (enough : 2 ≤ len) :
    newPower v len = (List.range len).map fun i => v ^ i := by
  obtain ⟨k, rfl⟩ := Nat.exists_eq_add_of_le' enough
  have shifted : ∀ i, (· * v)^[i] 1 = v ^ i := by
    intro i
    simp [mul_right_iterate]
  have whole : newPower v (k + 2) = List.iterate (· * v) 1 (k + 2) := by
    simp [newPower]
  rw [whole, ← List.range_map_iterate]
  simp only [shifted]

theorem powers_reverse (y : F) (len : Nat) :
    (powers y len).reverse = (List.range len).map fun i => y ^ (len - i) := by
  rw [powers_eq]
  apply List.ext_getElem
  · simp
  · intro i _ inside
    have within : i < len := by simpa using inside
    simp only [List.getElem_reverse, List.getElem_map, List.getElem_range, List.length_map,
      List.length_range]
    congr 1
    omega

/-- A value is the sum of its bits times their weights. -/
theorem bits_sum (value n : Nat) :
    ∑ i ∈ Finset.range n, ((value >>> i &&& 1 : Nat) : F) * 2 ^ i = ((value % 2 ^ n : Nat) : F) := by
  induction n with
  | zero => simp [Nat.mod_one]
  | succ n ih =>
    have low : value % 2 ^ (n + 1) = value % 2 ^ n + 2 ^ n * (value >>> n &&& 1) := by
      rw [Nat.and_one_is_mod, Nat.shiftRight_eq_div_pow, Nat.pow_succ, Nat.mod_mul]
    rw [Finset.sum_range_succ, ih, low]
    push_cast
    ring

theorem multiexp_flatMap (items : List α) (terms : α → List (F × P)) :
    multiexp (items.flatMap terms) = (items.map fun item => multiexp (terms item)).sum := by
  induction items with
  | nil => rfl
  | cons item rest ih => rw [List.flatMap_cons, multiexp_append, ih, List.map_cons, List.sum_cons]

theorem zipIdx_map_range (f : Nat → α) (n : Nat) :
    ((List.range n).map f).zipIdx = (List.range n).map fun i => (f i, i) := by
  apply List.ext_getElem
  · simp
  · intro i _ _
    simp

end Sums

section Completeness

variable {F P : Type} [Field F] [AddCommGroup P] [Module F P] (curve : Curve F P)

/-- The scalar that position `i` of the descending powers has. -/
def descending (y : F) (i : Nat) : F := 2 ^ i * y ^ (rangeProofSize - i)

theorem calculateAHat_eq (v a : P) (y z : F) :
    calculateAHat curve v a y z =
      ((List.range rangeProofSize).map (descending y), y ^ (rangeProofSize + 1),
        a + (∑ i ∈ Finset.range rangeProofSize, (-z) • curve.hBold.getD i 0 +
          ∑ i ∈ Finset.range rangeProofSize, (descending y i + z) • curve.gBold.getD i 0 +
          y ^ (rangeProofSize + 1) • v +
          (∑ i ∈ Finset.range rangeProofSize, (y ^ (i + 1) * z -
            2 ^ i * y ^ (rangeProofSize + 1) * z - y ^ (i + 1) * z ^ 2)) • curve.h)) := by
  have descends : mulAll (newPower (2 : F) rangeProofSize) (powers y rangeProofSize).reverse =
      (List.range rangeProofSize).map (descending y) := by
    rw [newPower_eq _ (by decide), powers_reverse, mulAll, List.zipWith_map, List.zipWith_self]
    rfl
  have top : (powers y rangeProofSize).reverse.getD 0 0 * y = y ^ (rangeProofSize + 1) := by
    rw [powers_reverse, pow_succ]
    rfl
  have bold : multiexp ((add ((List.range rangeProofSize).map (descending y)) z).zipIdx.flatMap
      fun (scalar, i) => [(-z, curve.hBold.getD i 0), (scalar, curve.gBold.getD i 0)]) =
      ∑ i ∈ Finset.range rangeProofSize, (-z) • curve.hBold.getD i 0 +
        ∑ i ∈ Finset.range rangeProofSize, (descending y i + z) • curve.gBold.getD i 0 := by
    rw [add, List.map_map, zipIdx_map_range, multiexp_flatMap, List.map_map, sum_map_range,
      ← Finset.sum_add_distrib]
    apply Finset.sum_congr rfl
    intro i _
    simp
  have last : (powers y rangeProofSize).sum * z -
      (newPower (2 : F) rangeProofSize).sum * y ^ (rangeProofSize + 1) * z -
        (powers y rangeProofSize).sum * z ^ 2 =
      ∑ i ∈ Finset.range rangeProofSize, (y ^ (i + 1) * z -
        2 ^ i * y ^ (rangeProofSize + 1) * z - y ^ (i + 1) * z ^ 2) := by
    rw [newPower_eq _ (by decide), powers_eq, sum_map_range, sum_map_range,
      Finset.sum_sub_distrib, Finset.sum_sub_distrib]
    simp only [Finset.sum_mul]
  simp only [calculateAHat, descends, top, multiexp_append, bold, last, multiexp_cons,
    multiexp_nil, add_zero, add_assoc]

variable (value : U128) (blinding alpha y z : F)

def bit (i : Nat) : F := ((value.val >>> i &&& 1 : Nat) : F)

theorem bit_mul_self (i : Nat) : bit (F := F) value i * bit value i = bit value i := by
  have low : value.val >>> i &&& 1 = 0 ∨ value.val >>> i &&& 1 = 1 := by
    rw [Nat.and_one_is_mod]
    omega
  rcases low with zero | one
  · simp [bit, zero]
  · simp [bit, one]

theorem shifted_aL :
    sub (calculateAL value) z = (List.range rangeProofSize).map fun i => bit value i - z := by
  simp only [sub, calculateAL, List.map_map]
  rfl

theorem shifted_aR :
    addAll (sub (calculateAL value) 1) (add ((List.range rangeProofSize).map (descending y)) z) =
      (List.range rangeProofSize).map fun i => bit value i - 1 + (descending y i + z) := by
  simp only [addAll, sub, add, calculateAL, List.map_map, List.zipWith_map, List.zipWith_self]
  rfl

/-- The inner product of the shifted bits is what `a_hat` carries on `H`. -/
theorem wip_bits :
    wip (sub (calculateAL value) z)
        (addAll (sub (calculateAL value) 1)
          (add ((List.range rangeProofSize).map (descending y)) z)) (powers y rangeProofSize) =
      y ^ (rangeProofSize + 1) * (value.val : F) +
        ∑ i ∈ Finset.range rangeProofSize, (y ^ (i + 1) * z -
          2 ^ i * y ^ (rangeProofSize + 1) * z - y ^ (i + 1) * z ^ 2) := by
  have valueBits : (value.val : F) = ∑ i ∈ Finset.range rangeProofSize, bit value i * 2 ^ i := by
    rw [show (∑ i ∈ Finset.range rangeProofSize, bit (F := F) value i * 2 ^ i) = _ from
      bits_sum value.val rangeProofSize]
    exact congrArg Nat.cast (Nat.mod_eq_of_lt value.isLt).symm
  rw [shifted_aL, shifted_aR, powers_eq, wip, weighted_map_range, valueBits, Finset.mul_sum,
    ← Finset.sum_add_distrib]
  apply Finset.sum_congr rfl
  intro i inside
  have within : i < rangeProofSize := Finset.mem_range.mp inside
  have descends : descending y i * y ^ (i + 1) = 2 ^ i * y ^ (rangeProofSize + 1) := by
    rw [descending, mul_assoc, ← pow_add]
    congr 2
    omega
  have square := bit_mul_self (F := F) value i
  linear_combination (bit value i - z) * descends + y ^ (i + 1) * square

theorem calculateAHat_opens :
    (calculateAHat curve (commit curve (value.val : F) blinding)
      (multiexp (calculateATerms curve alpha (calculateAL value) (sub (calculateAL value) 1)))
      y z).2.2 =
    dot (sub (calculateAL value) z) curve.hBold +
      dot (addAll (sub (calculateAL value) 1)
        (add ((List.range rangeProofSize).map (descending y)) z)) curve.gBold +
      wip (sub (calculateAL value) z) (addAll (sub (calculateAL value) 1)
        (add ((List.range rangeProofSize).map (descending y)) z)) (powers y rangeProofSize) •
          curve.h + (alpha + blinding * y ^ (rangeProofSize + 1)) • curve.g := by
  have a : multiexp (calculateATerms curve alpha (calculateAL value) (sub (calculateAL value) 1)) =
      ∑ i ∈ Finset.range rangeProofSize, bit (F := F) value i • curve.hBold.getD i 0 +
        ∑ i ∈ Finset.range rangeProofSize, (bit (F := F) value i - 1) • curve.gBold.getD i 0 +
        alpha • curve.g := by
    rw [shifted_aL, ← dot_map_range curve.hBold_length, ← dot_map_range curve.gBold_length]
    simp only [calculateATerms, multiexp_append, multiexp_cons, multiexp_nil, add_zero]
    rfl
  rw [calculateAHat_eq, wip_bits, a, shifted_aL, shifted_aR, dot_map_range curve.hBold_length,
    dot_map_range curve.gBold_length]
  simp only [add_smul, sub_smul, neg_smul, Finset.sum_add_distrib, Finset.sum_sub_distrib,
    Finset.sum_neg_distrib, commit]
  module

omit [Field F] [AddCommGroup P] [Module F P] in
/-- The challenge of `calculate_point` is drawn from the transcript it leaves, which continues
the one it was given. -/
theorem calculatePoint_drawn {curve : Curve F P} {a : P} {label : String} {y : F}
    {before after : Transcript} (drawn : calculatePoint curve a label before = (y, after)) :
    before <+: after ∧ y = curve.challenge after ∧ y ∈ curve.drawn after := by
  obtain ⟨rfl, rfl⟩ := Prod.mk.inj drawn
  refine ⟨List.prefix_append _ _, rfl, ?_⟩
  refine List.mem_filterMap.mpr ⟨_, (List.mem_inits _ _).mpr (List.prefix_refl _), ?_⟩
  simp

/-- What is generated for a value and a blinding factor is accepted. -/
theorem verify_generate [DecidableEq F] [DecidableEq P] (random : Randomness F)
    (nonzero : ∀ scalar ∈ curve.drawn (generating curve value blinding random).transcript,
      scalar ≠ 0) :
    ∃ proof commit, generate curve value blinding random = some (proof, commit) ∧
      verify curve commit proof = some true := by
  obtain ⟨a, pointA⟩ : ∃ a, multiexp (calculateATerms curve random.alpha (calculateAL value)
    (sub (calculateAL value) 1)) = a := ⟨_, rfl⟩
  obtain ⟨y, askedY, drawY⟩ : ∃ y askedY,
    calculatePoint curve a "y" [.new "range_proof"] = (y, askedY) := ⟨_, _, rfl⟩
  obtain ⟨z, askedZ, drawZ⟩ : ∃ z askedZ,
    calculatePoint curve a "z" askedY = (z, askedZ) := ⟨_, _, rfl⟩
  obtain ⟨_, yIs, yDrawn⟩ := calculatePoint_drawn drawY
  obtain ⟨continued, zIs, _⟩ := calculatePoint_drawn drawZ
  obtain ⟨aHat, hats⟩ : ∃ aHat, calculateAHat curve (commit curve (value.val : F) blinding) a y z =
      ((List.range rangeProofSize).map (descending y), y ^ (rangeProofSize + 1), aHat) :=
    ⟨_, calculateAHat_eq curve _ a y z⟩
  have opens := calculateAHat_opens curve value blinding random.alpha y z
  rw [pointA, hats] at opens
  generalize shiftedL : sub (calculateAL value) z = aL at opens
  generalize shiftedR : addAll (sub (calculateAL value) 1)
    (add ((List.range rangeProofSize).map (descending y)) z) = aR at opens
  have aL_length : aL.length = rangeProofSize := by simp [← shiftedL, shifted_aL]
  have aR_length : aR.length = rangeProofSize := by simp [← shiftedR, shifted_aR]
  obtain ⟨wip, after, inverted, made⟩ : ∃ wip after inverted, (WipStmt.new aHat y).generate curve
      aL aR (random.alpha + blinding * y ^ (rangeProofSize + 1)) random.wip askedZ =
        (wip, after, inverted) := ⟨_, _, _, rfl⟩
  have generated : generating curve value blinding random =
      ⟨⟨a, wip⟩, commit curve (value.val : F) blinding, after, inverted⟩ := by
    simp only [generating, pointA, drawY, drawZ, hats, shiftedL, shiftedR, made]
  rw [generated] at nonzero
  have y_ne : y ≠ 0 := by
    have extended := @WipStmt.generate_continues _ _ _ _ _ curve (WipStmt.new aHat y) aL aR
      (random.alpha + blinding * y ^ (rangeProofSize + 1)) random.wip askedZ
    rw [made] at extended
    exact nonzero y (drawn_mono (continued.trans extended) yDrawn)
  obtain ⟨inverts, verifierInverts, identity⟩ :=
    WipStmt.verify_accepts y_ne random.wip aL_length aR_length opens made nonzero
  refine ⟨⟨a, wip⟩, commit curve (value.val : F) blinding, ?_, ?_⟩
  · simp only [generate, generated, if_pos inverts]
  · have verified : verifying curve (commit curve (value.val : F) blinding) ⟨a, wip⟩ =
        (WipStmt.new aHat y).verify curve wip askedZ := by
      simp only [verifying, verifyAsks, drawY, drawZ, ← yIs, ← zIs, hats]
    simp only [verify, verified, if_pos verifierInverts, identity, decide_true]

omit [Field F] [AddCommGroup P] [Module F P] in
theorem verify_generate_unitCurve :
    ∃ proof commit, generate unitCurve 5 2 ⟨1, ⟨fun _ => 1, fun _ => 2, 1, 2, 0, 1⟩⟩ =
        some (proof, commit) ∧ verify unitCurve commit proof = some true := by
  apply verify_generate unitCurve 5 2 ⟨1, ⟨fun _ => 1, fun _ => 2, 1, 2, 0, 1⟩⟩
  intro scalar drawn
  obtain ⟨asked, _, challenge⟩ := List.mem_filterMap.mp drawn
  split at challenge
  · cases challenge
    exact one_ne_zero
  · cases challenge

end Completeness

/-! ### What the challenges depend on -/

section Binding

variable {F P : Type} [Field F] [AddCommGroup P] [Module F P] {curve : Curve F P} {point : P}
  {verifier verifier' : Verifier F P} {proof : RangeProof F P}

omit [Field F] [AddCommGroup P] [Module F P] in
/-- What is absorbed before `y` and before `z` are drawn tells the first points apart, and nothing
else. -/
theorem verifyAsks_ne_iff (encodes : Function.Injective curve.encode) (commit commit' : P)
    (proof proof' : RangeProof F P) :
    ((verifyAsks curve commit proof).1 ≠ (verifyAsks curve commit' proof').1 ↔
        proof.a ≠ proof'.a) ∧
      ((verifyAsks curve commit proof).2 ≠ (verifyAsks curve commit' proof').2 ↔
        proof.a ≠ proof'.a) := by
  constructor
  · simp [verifyAsks, calculatePoint, encodes.eq_iff]
  · simp [verifyAsks, calculatePoint, encodes.eq_iff]

/-- The challenges `verify` draws: `y` and `z`, those of the rounds as far as they are inverted,
and `e`. -/
structure Draws (F : Type) where
  y : F
  z : F
  rounds : List F
  e : F

def draws (curve : Curve F P) (commit : P) (proof : RangeProof F P) : Draws F :=
  let (askedY, askedZ) := verifyAsks curve commit proof
  let y := curve.challenge askedY
  let z := curve.challenge askedZ
  let (_, _, aHat) := calculateAHat curve commit proof.a y z
  let followed := (WipStmt.new aHat y).follow curve proof.wip askedZ
  ⟨y, z, (verifying curve commit proof).2,
    (syncPoints curve proof.wip.a proof.wip.b followed.transcript).1⟩

/-- A commitment computed from a proof alone. -/
def solveCommitment (curve : Curve F P) (proof : RangeProof F P) : P :=
  let drawn := draws curve 0 proof
  (drawn.e ^ 2 * drawn.y ^ (rangeProofSize + 1))⁻¹ • multiexp (verifying curve 0 proof).1

/-- Two verifiers of statements that differ by a point. -/
structure Apart (point : P) (verifier verifier' : Verifier F P) : Prop where
  gBold : verifier.gBold = verifier'.gBold
  hBold : verifier.hBold = verifier'.hBold
  transcript : verifier.transcript = verifier'.transcript
  inverted : verifier.inverted = verifier'.inverted
  terms : multiexp verifier.terms = point + multiexp verifier'.terms

theorem Apart.nextPairs (apart : Apart point verifier verifier') (y : List F) (pair : P × P) :
    Apart point (verifier.nextPairs curve y pair) (verifier'.nextPairs curve y pair) := by
  obtain ⟨gBold, hBold, transcript, inverted, terms⟩ := apart
  constructor
  all_goals simp only [Verifier.nextPairs, gBold, hBold, transcript, inverted]
  rw [multiexp_append, multiexp_append, terms, add_assoc]

theorem Apart.foldl (apart : Apart point verifier verifier') (y : List F) (pairs : List (P × P)) :
    Apart point (pairs.foldl (Verifier.nextPairs curve y) verifier)
      (pairs.foldl (Verifier.nextPairs curve y) verifier') := by
  induction pairs generalizing verifier verifier' with
  | nil => exact apart
  | cons pair rest ih => exact ih (apart.nextPairs y pair)

/-- The queued sum moves with the statement, the transcript and the scalars inverted stay. -/
theorem WipStmt.verify_add (aHat point : P) (y : F) (proof : WipProof F P)
    (transcript : Transcript) :
    ((WipStmt.new (point + aHat) y).verify curve proof transcript).2 =
      ((WipStmt.new aHat y).verify curve proof transcript).2 ∧
    ((WipStmt.new (point + aHat) y).follow curve proof transcript).transcript =
      ((WipStmt.new aHat y).follow curve proof transcript).transcript ∧
    multiexp ((WipStmt.new (point + aHat) y).verify curve proof transcript).1 =
      multiexp ((WipStmt.new aHat y).verify curve proof transcript).1 -
        (syncPoints curve proof.a proof.b
          ((WipStmt.new aHat y).follow curve proof transcript).transcript).1 ^ 2 • point := by
  have starts : Apart point
      (⟨.withCapacity rangeProofSize, .withCapacity rangeProofSize, [(1, point + aHat)],
        transcript, []⟩ : Verifier F P)
      ⟨.withCapacity rangeProofSize, .withCapacity rangeProofSize, [(1, aHat)],
        transcript, []⟩ := ⟨rfl, rfl, rfl, rfl, by simp⟩
  have apart : Apart point ((WipStmt.new (point + aHat) y).follow curve proof transcript)
      ((WipStmt.new aHat y).follow curve proof transcript) :=
    starts.foldl (powers y rangeProofSize) (proof.l.zip proof.r)
  refine ⟨apart.inverted, apart.transcript, ?_⟩
  have sameY : (WipStmt.new (point + aHat) y).y = (WipStmt.new aHat y).y := rfl
  simp only [WipStmt.verify, Verifier.queued, sameY, apart.gBold, apart.hBold, apart.transcript,
    multiexp_append, multiexp_map_mul, apart.terms]
  module

theorem calculateAHat_commit (v a : P) (y z : F) :
    (calculateAHat curve v a y z).2.2 =
      y ^ (rangeProofSize + 1) • v + (calculateAHat curve 0 a y z).2.2 := by
  rw [calculateAHat_eq, calculateAHat_eq]
  module

theorem verify_returns [DecidableEq F] [DecidableEq P] {commit : P}
    (inverts : ∀ scalar ∈ (verifying curve commit proof).2, scalar ≠ 0) :
    verify curve commit proof = some (decide (multiexp (verifying curve commit proof).1 = 0)) :=
  if_pos inverts

/-- Another commitment leaves the challenges as they are and moves the queued sum. -/
theorem verifying_commit (commit : P) :
    draws curve commit proof = draws curve 0 proof ∧
      multiexp (verifying curve commit proof).1 = multiexp (verifying curve 0 proof).1 -
        (draws curve 0 proof).e ^ 2 • (draws curve 0 proof).y ^ (rangeProofSize + 1) • commit := by
  obtain ⟨askedY, askedZ, asks⟩ : ∃ askedY askedZ, ∀ commit,
      verifyAsks curve commit proof = (askedY, askedZ) := ⟨_, _, fun _ => rfl⟩
  obtain ⟨y, yIs⟩ : ∃ y, curve.challenge askedY = y := ⟨_, rfl⟩
  obtain ⟨inverted, transcript, queued⟩ := @WipStmt.verify_add _ _ _ _ _ curve
    (calculateAHat curve 0 proof.a y (curve.challenge askedZ)).2.2
    (y ^ (rangeProofSize + 1) • commit) y proof.wip askedZ
  rw [← calculateAHat_commit] at inverted transcript queued
  simp only [draws, verifying, asks, yIs, inverted, transcript, true_and]
  exact queued

/-- A proof that was fixed first is accepted for the commitment derived from it. -/
theorem verify_solveCommitment [DecidableEq F] [DecidableEq P]
    (nonzeroY : (draws curve 0 proof).y ≠ 0) (nonzeroE : (draws curve 0 proof).e ≠ 0)
    (runs : ∃ commit, verify curve commit proof ≠ none) :
    verify curve (solveCommitment curve proof) proof = some true := by
  obtain ⟨other, returns⟩ := runs
  have same : ∀ commit, (verifying curve commit proof).2 = (verifying curve 0 proof).2 :=
    fun commit => congrArg Draws.rounds (verifying_commit commit).1
  have inverts : ∀ scalar ∈ (verifying curve (solveCommitment curve proof) proof).2,
      scalar ≠ 0 := by
    by_contra zero
    rw [same, ← same other] at zero
    exact returns (if_neg zero)
  have scale : (draws curve 0 proof).e ^ 2 * (draws curve 0 proof).y ^ (rangeProofSize + 1) ≠ 0 :=
    mul_ne_zero (pow_ne_zero 2 nonzeroE) (pow_ne_zero _ nonzeroY)
  rw [verify_returns inverts, (verifying_commit _).2, solveCommitment, smul_smul, smul_smul,
    mul_inv_cancel₀ scale, one_smul, sub_self]
  simp

/-- The commitment is never bound. For every proof with which the verifier runs and draws no zero
for `y` and `e`, the bytes absorbed before `y` and `z` are the same for all commitments and tell
two proofs apart by their first points only, all challenges are those of the proof alone, and the
commitment solved for from the proof is accepted. -/
theorem commitment_never_bound [DecidableEq F] [DecidableEq P] [Nontrivial P]
    (encodes : Function.Injective curve.encode) (proof : RangeProof F P)
    (nonzeroY : (draws curve 0 proof).y ≠ 0) (nonzeroE : (draws curve 0 proof).e ≠ 0)
    (runs : ∃ commit, verify curve commit proof ≠ none) :
    (∃ commit commit' : P, commit ≠ commit' ∧
      verifyAsks curve commit proof = verifyAsks curve commit' proof) ∧
    (∀ commit commit' proof',
      ((verifyAsks curve commit proof).1 ≠ (verifyAsks curve commit' proof').1 ↔
        proof.a ≠ proof'.a) ∧
      ((verifyAsks curve commit proof).2 ≠ (verifyAsks curve commit' proof').2 ↔
        proof.a ≠ proof'.a)) ∧
    (∀ commit, draws curve commit proof = draws curve 0 proof) ∧
    verify curve (solveCommitment curve proof) proof = some true := by
  obtain ⟨commit, commit', differ⟩ := exists_pair_ne P
  exact ⟨⟨commit, commit', differ, rfl⟩,
    fun commit commit' proof' => verifyAsks_ne_iff encodes commit commit' proof proof',
    fun commit => (verifying_commit commit).1, verify_solveCommitment nonzeroY nonzeroE runs⟩

/-- A proof that was made for no commitment at all. -/
def madeUp : RangeProof (ZMod 3) (ZMod 3) := ⟨1, ⟨[], [], 1, 2, 1, 0, 2⟩⟩

theorem verify_madeUp (commit : ZMod 3) : verify unitCurve commit madeUp ≠ none := by
  have inverts : ∀ scalar ∈ (verifying unitCurve commit madeUp).2, scalar ≠ 0 := by
    intro scalar inverted
    cases inverted
  rw [verify_returns inverts]
  exact Option.some_ne_none _

theorem commitment_never_bound_madeUp :
    verify unitCurve (solveCommitment unitCurve madeUp) madeUp = some true :=
  (@commitment_never_bound _ _ _ _ _ unitCurve _ _ _ (by decide) madeUp one_ne_zero one_ne_zero
    ⟨0, verify_madeUp 0⟩).2.2.2

/-- The transcript is the same for two commitments, and the one that is solved for is accepted. -/
theorem verifyAsks_ignores_commitment :
    (1 : ZMod 3) ≠ 2 ∧ verifyAsks unitCurve 1 madeUp = verifyAsks unitCurve 2 madeUp ∧
      verify unitCurve (solveCommitment unitCurve madeUp) madeUp = some true :=
  ⟨by decide, rfl, verify_solveCommitment one_ne_zero one_ne_zero ⟨0, verify_madeUp 0⟩⟩

end Binding

end Lrc20.RangeProofs
