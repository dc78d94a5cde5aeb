import Lrc20.Bitcoin
import Lrc20.Lib.Multiexp

/-! The weighted inner product argument of the `bulletproof` crate: `vec_ops.rs` and `wip.rs`,
over any field of scalars and any module of points. -/

open Multiexp

namespace Lrc20.RangeProofs

/-! ### Vectors -/

namespace VecOps

variable {F : Type} [Field F]

/-- `new_power`, which has no fewer than two elements. -/
def newPower (v : F) (len : Nat) : List F := 1 :: v :: List.iterate (· * v) (v * v) (len - 2)

/-- `y, y², …`, as two loops of the source build it. -/
def powers (y : F) (len : Nat) : List F := List.iterate (· * y) y len

def addAll (a b : List F) : List F := List.zipWith (· + ·) a b

def mulAll (a b : List F) : List F := List.zipWith (· * ·) a b

def add (a : List F) (v : F) : List F := a.map (· + v)

def sub (a : List F) (v : F) : List F := a.map (· - v)

def mul (a : List F) (v : F) : List F := a.map (· * v)

def wip (a b weights : List F) : F := weighted a b weights

/-- `split`, and `split_points`: the second half is filled up with zeros. -/
def split {α : Type} [Zero α] (items : List α) : List α × List α :=
  let half := items.length / 2 + items.length % 2
  let right := items.drop half
  (items.take half, right ++ List.replicate (half - right.length) 0)

end VecOps

open VecOps

/-! ### Transcripts -/

/-- What is done with a `merlin::Transcript`. -/
inductive TranscriptOp where
  | new (label : String)
  | appendMessage (label : String) (message : Bytes)
  | challengeBytes (label : String)
deriving DecidableEq

/-- The operations on a transcript since it was made. -/
abbrev Transcript := List TranscriptOp

def rangeProofSize : Nat := 128

/-- The generators, the encoding of points, and the scalar that `hash_to_point` makes of the
bytes a transcript yields at its last challenge. -/
structure Curve (F P : Type) where
  g : P
  h : P
  gBold : List P
  hBold : List P
  gBold_length : gBold.length = rangeProofSize
  hBold_length : hBold.length = rangeProofSize
  encode : P → Bytes
  challenge : Transcript → F

section Argument

variable {F P : Type} [Field F] [AddCommGroup P] [Module F P] (curve : Curve F P)

/-- The challenges drawn from a transcript so far. -/
def Curve.drawn (transcript : Transcript) : List F :=
  transcript.inits.filterMap fun asked =>
    match asked.getLast? with
    | some (.challengeBytes _) => some (curve.challenge asked)
    | _ => none

def syncPoints (a b : P) (transcript : Transcript) : F × Transcript :=
  let asked := transcript ++ [.appendMessage "a" (curve.encode a),
    .appendMessage "b" (curve.encode b), .challengeBytes "e"]
  (curve.challenge asked, asked)

/-! ### Indexed scalars -/

/-- A scalar for each position, and the positions that the folded generators gather. -/
structure IndexedScalars (F : Type) where
  inner : List F
  positions : List (List Nat)

namespace IndexedScalars

def withCapacity (capacity : Nat) : IndexedScalars F where
  inner := List.replicate (capacity + capacity % 2) 1
  positions := (List.range capacity).map fun i => [i]

def next (scalars : IndexedScalars F) (part : Nat) (scalar : F) : IndexedScalars F :=
  let low := part * scalars.positions.length / 2
  let high := (part + 1) * scalars.positions.length / 2
  let touched := ((scalars.positions.drop low).take (high - low)).flatten
  let scale (inner : List F) (pos : Nat) := inner.modify pos (· * scalar)
  { scalars with inner := touched.foldl scale scalars.inner }

/-- The loop of `merge`: the last list goes to the end of list `j - i`. -/
def mergeLast (j : Nat) (positions : List (List Nat)) (i : Nat) : List (List Nat) :=
  positions.dropLast.modify (j - i) (· ++ positions.getLast?.getD [])

def merge (scalars : IndexedScalars F) : IndexedScalars F :=
  let j := scalars.positions.length / 2
  { scalars with positions := (List.range' 1 j).foldl (mergeLast j) scalars.positions }

end IndexedScalars

/-! ### Prover -/

structure WipProof (F P : Type) where
  l : List P
  r : List P
  a : P
  b : P
  rRev : F
  sRev : F
  deltaRev : F

structure WipStmt (F P : Type) where
  aHat : P
  y : List F

def WipStmt.new (aHat : P) (y : F) : WipStmt F P := ⟨aHat, powers y rangeProofSize⟩

/-- What the prover draws at random, `dL` and `dR` anew in each round. -/
structure WipRandomness (F : Type) where
  dL : Nat → F
  dR : Nat → F
  r : F
  s : F
  delta : F
  n : F

/-- The variables of `WipStmt::generate`. -/
structure Prover (F P : Type) where
  hBold : List P
  gBold : List P
  aL : List F
  aR : List F
  alpha : F
  l : List P
  r : List P
  transcript : Transcript
  /-- The scalars inverted so far; the source panics at the first that is zero. -/
  inverted : List F

def nextGens (p yNHatInv : F) (g1 g2 h1 h2 : List P) : List P × List P :=
  (foldPoints p⁻¹ (p * yNHatInv) g1 g2, foldPoints p p⁻¹ h1 h2)

/-- The points `l` and `r` of a round. -/
def Prover.pair (y : List F) (dL dR : F) (state : Prover F P) : P × P :=
  let (a1, a2) := split state.aL
  let (b1, b2) := split state.aR
  let (h1, h2) := split state.hBold
  let (g1, g2) := split state.gBold
  let yNHat := y.getD (h1.length - 1) 0
  let cL := wip a1 b2 y
  let cR := wip (mul a2 yNHat) b1 y
  (multiexp ((mul a1 yNHat⁻¹).zip h2 ++ b2.zip g1 ++ [(cL, curve.h), (dL, curve.g)]),
    multiexp ((mul a2 yNHat).zip h1 ++ b1.zip g2 ++ [(cR, curve.h), (dR, curve.g)]))

/-- One turn of the `while` loop. The vector `y` is not cut: `shrink_to` only frees memory. -/
def Prover.round (y : List F) (dL dR : F) (state : Prover F P) : Prover F P :=
  let (a1, a2) := split state.aL
  let (b1, b2) := split state.aR
  let (h1, h2) := split state.hBold
  let (g1, g2) := split state.gBold
  let yNHat := y.getD (h1.length - 1) 0
  let (l, r) := state.pair curve y dL dR
  let (p, transcript) := syncPoints curve l r state.transcript
  let (hBold, gBold) := nextGens p yNHat⁻¹ h1 h2 g1 g2
  { hBold, gBold
    aL := addAll (mul a1 p) (mul a2 (yNHat * p⁻¹))
    aR := addAll (mul b1 p⁻¹) (mul b2 p)
    alpha := state.alpha + (dL * p ^ 2 + dR * p⁻¹ ^ 2)
    l := state.l ++ [l]
    r := state.r ++ [r]
    transcript
    inverted := state.inverted ++ [yNHat, p] }

/-- The `while` loop. A round halves the vectors, so that their length is fuel enough. -/
def Prover.rounds (y : List F) (random : WipRandomness F) : Nat → Prover F P → Prover F P
  | 0, state => state
  | fuel + 1, state =>
    if 1 < state.hBold.length then
      rounds y random fuel
        (state.round curve y (random.dL state.l.length) (random.dR state.l.length))
    else state

/-- What follows the loop. -/
def Prover.finish (y : List F) (random : WipRandomness F) (state : Prover F P) :
    WipProof F P × Transcript :=
  let y0 := y.getD 0 0
  let aL := state.aL.getD 0 0
  let aR := state.aR.getD 0 0
  let rY := random.r * y0
  let a := multiexp [(random.r, state.hBold.getD 0 0), (random.s, state.gBold.getD 0 0),
    (rY * aR + random.s * y0 * aL, curve.h), (random.delta, curve.g)]
  let b := multiexp [(rY * random.s, curve.h), (random.n, curve.g)]
  let (p, transcript) := syncPoints curve a b state.transcript
  ({ l := state.l, r := state.r, a, b
     rRev := random.r + aL * p
     sRev := random.s + aR * p
     deltaRev := random.n + random.delta * p + state.alpha * p ^ 2 }, transcript)

/-- `WipStmt::generate`: the proof, the transcript and the scalars that were inverted. -/
def WipStmt.generate (stmt : WipStmt F P) (aL aR : List F) (alpha : F) (random : WipRandomness F)
    (transcript : Transcript) : WipProof F P × Transcript × List F :=
  let start : Prover F P :=
    ⟨curve.hBold, curve.gBold, aL, aR, alpha, [], [], transcript, []⟩
  let state := start.rounds curve stmt.y random rangeProofSize
  let (proof, transcript) := state.finish curve stmt.y random
  (proof, transcript, state.inverted)

/-! ### Verifier -/

/-- The variables of `WipStmt::verify`. -/
structure Verifier (F P : Type) where
  gBold : IndexedScalars F
  hBold : IndexedScalars F
  terms : List (F × P)
  transcript : Transcript
  inverted : List F

/-- One round: `next_pairs` and what comes before it. -/
def Verifier.nextPairs (y : List F) (state : Verifier F P) (pair : P × P) : Verifier F P :=
  let count := state.gBold.positions.length
  let nHat := (count + count % 2) / 2
  let yNHat := y.getD (nHat - 1) 0
  let yNHatInv := yNHat⁻¹
  let (p, transcript) := syncPoints curve pair.1 pair.2 state.transcript
  { gBold := ((state.gBold.next 0 p⁻¹).next 1 (p * yNHatInv)).merge
    hBold := ((state.hBold.next 0 p).next 1 p⁻¹).merge
    terms := state.terms ++ [(p ^ 2, pair.1), (p⁻¹ ^ 2, pair.2)]
    transcript
    inverted := state.inverted ++ [yNHat, p] }

/-- The terms that go into the multi-exponentiation. -/
def Verifier.queued (y : List F) (proof : WipProof F P) (state : Verifier F P) : List (F × P) :=
  let e := (syncPoints curve proof.a proof.b state.transcript).1
  state.terms.map (fun term => (term.1 * -e ^ 2, term.2)) ++
    (List.range rangeProofSize).map (fun i =>
      (state.gBold.inner.getD i 0 * proof.rRev * e, curve.hBold.getD i 0)) ++
    (List.range rangeProofSize).map (fun i =>
      (state.hBold.inner.getD i 0 * proof.sRev * e, curve.gBold.getD i 0)) ++
    [(-e, proof.a), (proof.rRev * y.getD 0 0 * proof.sRev, curve.h),
      (proof.deltaRev, curve.g), (-1, proof.b)]

/-- The verifier after its rounds. -/
def WipStmt.follow (stmt : WipStmt F P) (proof : WipProof F P) (transcript : Transcript) :
    Verifier F P :=
  (proof.l.zip proof.r).foldl (Verifier.nextPairs curve stmt.y)
    ⟨.withCapacity rangeProofSize, .withCapacity rangeProofSize, [(1, stmt.aHat)], transcript, []⟩

/-- `WipStmt::verify`: the terms it queues and the scalars that were inverted. -/
def WipStmt.verify (stmt : WipStmt F P) (proof : WipProof F P) (transcript : Transcript) :
    List (F × P) × List F :=
  let state := stmt.follow curve proof transcript
  (state.queued curve stmt.y proof, state.inverted)

end Argument

end Lrc20.RangeProofs
