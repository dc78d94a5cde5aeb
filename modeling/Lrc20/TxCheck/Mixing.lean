import Lrc20.TxCheck.Conservation

/-! Which conservation check a transfer comes to when there are bulletproofs among its proofs. -/

open Outcome

namespace Lrc20.TxCheck.WithBulletproofs

open PublicKey

def getBulletproof : AnyReceiptProof → Option Bulletproof
  | .bulletproof proof => some proof
  | .plain _ => none

def nonEmpty (proofs : ProofMap) : List AnyReceiptProof :=
  proofs.values.filter fun proof => !isEmptyReceiptproof proof

def bulletproofs (proofs : ProofMap) : List Bulletproof := (nonEmpty proofs).filterMap getBulletproof

/-- There is a bulletproof among the proofs that are not empty, and another kind. -/
def Mixed (inputs outputs : ProofMap) : Prop :=
  (∃ proof ∈ nonEmpty inputs ++ nonEmpty outputs, isBulletproof proof) ∧
    ∃ proof ∈ nonEmpty inputs ++ nonEmpty outputs, ¬ isBulletproof proof

/-- The proofs start with a bulletproof. -/
def StartsConfidential (proofs : List AnyReceiptProof) : Prop :=
  ∃ first ∈ proofs.head?, isBulletproof first

/-- Where the search comes to a bulletproof before it comes to another kind: the inputs start
with one, or the outputs do and are mixed among themselves. -/
def MixSeen (inputs outputs : ProofMap) : Prop :=
  StartsConfidential (nonEmpty inputs) ∨
    StartsConfidential (nonEmpty outputs) ∧ ∃ proof ∈ nonEmpty outputs, ¬ isBulletproof proof

/-! ### The search for bulletproofs -/

variable {proofs : List AnyReceiptProof} {first : AnyReceiptProof}

/-- Bulletproofs alone are all collected. -/
theorem proofMapToBulletproofs_all (wasFound : Bool) (all : ∀ proof ∈ proofs, isBulletproof proof) :
    proofMapToBulletproofs wasFound proofs =
      .ok (wasFound || !proofs.isEmpty, some (proofs.filterMap getBulletproof)) := by
  induction proofs generalizing wasFound with
  | nil => simp [proofMapToBulletproofs]
  | cons proof rest ih =>
    cases proof with
    | plain proof => exact absurd (all (.plain proof) (by simp)) (by simp [isBulletproof])
    | bulletproof proof =>
      have others := ih true fun other mem => all other (by simp [mem])
      simp [proofMapToBulletproofs, others, getBulletproof, bind, Except.bind, pure, Except.pure]

theorem proofMapToBulletproofs_found (mixed : ∃ proof ∈ proofs, ¬ isBulletproof proof) :
    proofMapToBulletproofs true proofs = .error .mixedBulletproofsAndNonBulletproofs := by
  induction proofs with
  | nil =>
    obtain ⟨proof, mem, -⟩ := mixed
    cases mem
  | cons proof rest ih =>
    cases proof with
    | plain proof => rfl
    | bulletproof proof =>
      have later : ∃ proof ∈ rest, ¬ isBulletproof proof := by
        obtain ⟨other, mem, isPlain⟩ := mixed
        rcases List.mem_cons.mp mem with rfl | mem
        · exact absurd rfl isPlain
        · exact ⟨other, mem, isPlain⟩
      simp [proofMapToBulletproofs, ih later, bind, Except.bind]

theorem proofMapToBulletproofs_plain {rest : List AnyReceiptProof} (plain : ¬ isBulletproof first) :
    proofMapToBulletproofs false (first :: rest) = .ok (false, none) := by
  cases first with
  | plain proof => rfl
  | bulletproof proof => exact absurd rfl plain

/-- A map that starts with a bulletproof and has another proof is an error. -/
theorem proofMapToBulletproofs_mixed {rest : List AnyReceiptProof}
    (isFirst : isBulletproof first) (mixed : ∃ proof ∈ first :: rest, ¬ isBulletproof proof) :
    proofMapToBulletproofs false (first :: rest) = .error .mixedBulletproofsAndNonBulletproofs := by
  cases first with
  | plain proof => cases isFirst
  | bulletproof proof => exact proofMapToBulletproofs_found mixed

section Extraction

variable {inputs outputs : ProofMap}

theorem extractBulletproofs_all
    (all : ∀ proof ∈ nonEmpty inputs ++ nonEmpty outputs, isBulletproof proof) :
    extractBulletproofs inputs outputs = .ok (some (bulletproofs inputs, bulletproofs outputs)) := by
  have ofInputs := proofMapToBulletproofs_all false fun proof mem =>
    all proof (List.mem_append_left (nonEmpty outputs) mem)
  have ofOutputs := fun found => proofMapToBulletproofs_all found fun proof mem =>
    all proof (List.mem_append_right (nonEmpty inputs) mem)
  unfold nonEmpty at ofInputs ofOutputs
  simp [extractBulletproofs, ofInputs, ofOutputs, bind, Except.bind, pure, Except.pure,
    bulletproofs, nonEmpty]

/-- A mix that is not seen goes to the plain check, as do proofs of other kinds alone. -/
theorem extractBulletproofs_unseen
    (plain : ∃ proof ∈ nonEmpty inputs ++ nonEmpty outputs, ¬ isBulletproof proof)
    (unseen : ¬ MixSeen inputs outputs) : extractBulletproofs inputs outputs = .ok none := by
  simp only [extractBulletproofs]
  unfold MixSeen at unseen
  unfold nonEmpty at plain unseen
  generalize inputs.values.filter _ = ofInputs at plain unseen ⊢
  generalize outputs.values.filter _ = ofOutputs at plain unseen ⊢
  obtain ⟨inputsUnseen, outputsUnseen⟩ := not_or.mp unseen
  -- What the search of the inputs gives; the flag is not set.
  have ofInputs_eq : ∃ found, proofMapToBulletproofs false ofInputs = .ok (false, found) ∧
      (ofInputs ≠ [] → found = none) := by
    cases ofInputs with
    | nil => exact ⟨some [], rfl, fun nonempty => absurd rfl nonempty⟩
    | cons head rest =>
      have isPlain : ¬ isBulletproof head := fun isFirst => inputsUnseen ⟨head, rfl, isFirst⟩
      exact ⟨none, proofMapToBulletproofs_plain isPlain, fun _ => rfl⟩
  obtain ⟨found, searched, ends⟩ := ofInputs_eq
  by_cases all : ∀ proof ∈ ofOutputs, isBulletproof proof
  · have inInputs : ofInputs ≠ [] := by
      rintro rfl
      obtain ⟨proof, mem, isPlain⟩ := plain
      exact isPlain (all proof mem)
    simp [searched, ends inInputs, proofMapToBulletproofs_all false all, bind, Except.bind, pure,
      Except.pure]
  · cases ofOutputs with
    | nil => simp at all
    | cons head rest =>
      have isPlain : ¬ isBulletproof head := by
        intro isFirst
        push Not at all
        exact outputsUnseen ⟨⟨head, rfl, isFirst⟩, all⟩
      simp [searched, proofMapToBulletproofs_plain isPlain, bind, Except.bind, pure, Except.pure]

theorem extractBulletproofs_seen (seen : MixSeen inputs outputs)
    (mixed : ∃ proof ∈ nonEmpty inputs ++ nonEmpty outputs, ¬ isBulletproof proof) :
    extractBulletproofs inputs outputs = .error .mixedBulletproofsAndNonBulletproofs := by
  simp only [extractBulletproofs]
  unfold MixSeen at seen
  unfold nonEmpty at seen mixed
  generalize inputs.values.filter _ = ofInputs at seen mixed ⊢
  generalize outputs.values.filter _ = ofOutputs at seen mixed ⊢
  cases ofInputs with
  | nil =>
    rcases seen with ⟨_, impossible, -⟩ | ⟨⟨first, starts, isFirst⟩, -⟩
    · cases impossible
    · obtain ⟨rest, rfl⟩ := List.head?_eq_some_iff.mp starts
      have failed := proofMapToBulletproofs_mixed isFirst mixed
      simp [failed, proofMapToBulletproofs, bind, Except.bind]
  | cons head rest =>
    by_cases isFirst : isBulletproof head
    · by_cases inInputs : ∃ proof ∈ head :: rest, ¬ isBulletproof proof
      · simp [proofMapToBulletproofs_mixed isFirst inInputs, bind, Except.bind]
      · -- The flag carries over to the outputs, where the other proof is.
        push Not at inInputs
        have inOutputs : ∃ proof ∈ ofOutputs, ¬ isBulletproof proof := by
          obtain ⟨proof, mem, isPlain⟩ := mixed
          rcases List.mem_append.mp mem with mem | mem
          · exact absurd (inInputs proof mem) isPlain
          · exact ⟨proof, mem, isPlain⟩
        simp [proofMapToBulletproofs_all false inInputs, proofMapToBulletproofs_found inOutputs,
          bind, Except.bind]
    · rcases seen with ⟨first, starts, isBullet⟩ | ⟨⟨first, starts, isBullet⟩, inOutputs⟩
      · obtain rfl := Option.some.inj starts
        exact absurd isBullet isFirst
      · obtain ⟨others, rfl⟩ := List.head?_eq_some_iff.mp starts
        simp [proofMapToBulletproofs_plain isFirst,
          proofMapToBulletproofs_mixed isBullet inOutputs, bind, Except.bind]

end Extraction

section Checks

variable (prims : Primitives) (verify : ProjectivePoint → RangeProof → Bool)
  (conserves : List Bulletproof → List Bulletproof → Except Confidential.CheckError Unit)
  (bitcoinTx : Transaction) (inputs outputs : ProofMap)

/-- What `check_proofs_isolated` does before it looks at amounts. -/
def checkEachProof :
    Except CheckError (List (ProofForCheck TxIn) × List (ProofForCheck TxOut)) := do
  checkNumberOfProofs bitcoinTx outputs
  let gatheredInputs ← extractFromIterableByProofMap inputs bitcoinTx.input
  let gatheredOutputs ← extractFromIterableByProofMap outputs bitcoinTx.output
  checkEach (checkInputProof prims verify) gatheredInputs
  checkEach (fun gathered =>
    proofCheck gathered (gathered.inner.checkedCheckByOutput prims verify gathered.statement))
    gatheredOutputs
  pure (gatheredInputs, gatheredOutputs)

theorem checkTransferIsolated_eq :
    checkTransferIsolated prims verify conserves bitcoinTx inputs outputs = (do
      let (gatheredInputs, gatheredOutputs) ←
        checkEachProof prims verify bitcoinTx inputs outputs
      match ← extractBulletproofs inputs outputs with
      | some (inputs, outputs) => (conserves inputs outputs).mapError .bulletproofConservation
      | none => checkConservationRules gatheredInputs gatheredOutputs) := by
  unfold checkTransferIsolated checkEachProof
  cases checkNumberOfProofs bitcoinTx outputs with
  | error failure => rfl
  | ok _ =>
    cases extractFromIterableByProofMap inputs bitcoinTx.input with
    | error failure => rfl
    | ok gatheredInputs =>
      cases extractFromIterableByProofMap outputs bitcoinTx.output with
      | error failure => rfl
      | ok gatheredOutputs =>
        dsimp only [bind, Except.bind]
        cases checkEach (checkInputProof prims verify) gatheredInputs with
        | error failure => rfl
        | ok _ =>
          dsimp only
          cases checkEach (fun gathered : ProofForCheck TxOut => proofCheck gathered
            (gathered.inner.checkedCheckByOutput prims verify gathered.statement))
            gatheredOutputs with
          | error | ok => rfl

/-- Every proof passes its own check, and the amounts the receipts are read as, those of the
bulletproofs included, are the same on both sides. -/
def PassesAsPlain : Prop :=
  ∃ gathered, checkEachProof prims verify bitcoinTx inputs outputs = .ok gathered ∧
    ∀ token, provedAmount token gathered.1 < 2 ^ 128 ∧ provedAmount token gathered.2 < 2 ^ 128 ∧
      provedAmount token gathered.1 = provedAmount token gathered.2

/-- A transfer with both kinds of proofs is rejected exactly where the mix is seen or the
transfer would not pass as a plain one. One with bulletproofs only comes to the confidential
check, and one with other kinds only to the plain check. -/
theorem bulletproofs_never_mix :
    ((Mixed inputs outputs → ∃ error,
        checkTransferIsolated prims verify conserves bitcoinTx inputs outputs = .error error) ↔
      (Mixed inputs outputs →
        MixSeen inputs outputs ∨ ¬ PassesAsPlain prims verify bitcoinTx inputs outputs)) ∧
    ((∀ proof ∈ nonEmpty inputs ++ nonEmpty outputs, isBulletproof proof) →
      checkTransferIsolated prims verify conserves bitcoinTx inputs outputs = (do
        let _ ← checkEachProof prims verify bitcoinTx inputs outputs
        (conserves (bulletproofs inputs) (bulletproofs outputs)).mapError
          .bulletproofConservation)) ∧
    ((∀ proof ∈ nonEmpty inputs ++ nonEmpty outputs, ¬ isBulletproof proof) →
      nonEmpty inputs ++ nonEmpty outputs ≠ [] →
      checkTransferIsolated prims verify conserves bitcoinTx inputs outputs = (do
        let (gatheredInputs, gatheredOutputs) ←
          checkEachProof prims verify bitcoinTx inputs outputs
        checkConservationRules gatheredInputs gatheredOutputs)) := by
  refine ⟨forall_congr' fun mixed => ?_, ?_, ?_⟩
  · rw [checkTransferIsolated_eq]
    by_cases seen : MixSeen inputs outputs
    · rw [extractBulletproofs_seen seen mixed.2]
      refine iff_of_true ?_ (.inl seen)
      cases checkEachProof prims verify bitcoinTx inputs outputs with
      | error error => exact ⟨error, rfl⟩
      | ok gathered => exact ⟨.mixedBulletproofsAndNonBulletproofs, rfl⟩
    · rw [extractBulletproofs_unseen mixed.2 seen, or_iff_right seen]
      unfold PassesAsPlain
      cases checkEachProof prims verify bitcoinTx inputs outputs with
      | error error => exact iff_of_true ⟨error, rfl⟩ (by simp)
      | ok gathered =>
        have plain := checkConservationRules_iff gathered.1 gathered.2
        simp only [Except.ok.injEq, exists_eq_left', ← plain]
        show (∃ error, checkConservationRules gathered.1 gathered.2 = .error error) ↔ _
        cases checkConservationRules gathered.1 gathered.2 with
        | error error => simp
        | ok _ => simp
  · intro all
    rw [checkTransferIsolated_eq, extractBulletproofs_all all]
    rfl
  · intro plain some
    obtain ⟨proof, mem⟩ := List.exists_mem_of_ne_nil _ some
    have unseen : ¬ MixSeen inputs outputs := by
      rintro (⟨first, starts, isFirst⟩ | ⟨⟨first, starts, isFirst⟩, -⟩)
      · exact plain first (List.mem_append_left _ (List.mem_of_mem_head? starts)) isFirst
      · exact plain first (List.mem_append_right _ (List.mem_of_mem_head? starts)) isFirst
    rw [checkTransferIsolated_eq, extractBulletproofs_unseen ⟨proof, mem, plain proof mem⟩ unseen]
    rfl

end Checks

/-! ### Examples of transfers -/

def zeroScalar : Scalar := List.Vector.replicate 32 0

def somePoint : ProjectivePoint := List.Vector.replicate 33 2

def someRangeProof : RangeProof := ⟨somePoint, ⟨[], [], somePoint, somePoint, zeroScalar,
  zeroScalar, zeroScalar⟩⟩

/-- The amount of a bulletproof is a hash. -/
def hashedReceipt : Receipt :=
  ⟨TokenAmount.fromArray (Primitives.plain.sha256 (somePoint.toList ++ someRangeProof.toBytes)),
    repeating 3⟩

def confidentialProof : Bulletproof where
  receipt := hashedReceipt
  innerKey := repeating 5
  senderKey := repeating 6
  commitment := somePoint
  proof := someRangeProof
  signature := List.Vector.replicate 64 0
  tokenPubkeySignature := List.Vector.replicate 64 0

def plainProof : P2WPKHProof := ⟨hashedReceipt, repeating 5, none⟩

/-- The key both kinds of proof lock the receipt with. -/
def lockedKey : PublicKey := (plainProof.receiptKey .plain).getD (repeating 0)

def oneToOne : Transaction :=
  ⟨1, [⟨⟨9, 0⟩, [], [[0x30], lockedKey.serialize]⟩], [⟨Primitives.plain.toP2wpkh lockedKey⟩]⟩

def single (proof : AnyReceiptProof) : ProofMap := ⟨[(0, proof)], List.pairwise_singleton _ _⟩

/-- A bulletproof spent to another kind of proof is rejected. -/
theorem bulletproofs_never_mix_spent :
    Mixed (single (.bulletproof confidentialProof)) (single (.plain (.sig plainProof))) ∧
      ∃ error, checkTransferIsolated .plain (fun _ _ => true) (fun _ _ => .ok ()) oneToOne
        (single (.bulletproof confidentialProof)) (single (.plain (.sig plainProof))) =
          .error error := by
  have mixed : Mixed (single (.bulletproof confidentialProof))
      (single (.plain (.sig plainProof))) := by
    constructor
    · exact ⟨.bulletproof confidentialProof, by decide +kernel, by decide +kernel⟩
    · exact ⟨.plain (.sig plainProof), by decide +kernel, by decide +kernel⟩
  refine ⟨mixed, (bulletproofs_never_mix .plain _ _ oneToOne _ _).1.mpr (fun _ => .inl ?_) mixed⟩
  exact .inl ⟨.bulletproof confidentialProof, by decide +kernel, by decide +kernel⟩

/-- Another kind of proof spent to a bulletproof is accepted by the plain check, although the
confidential one would not accept it. -/
theorem mixed_proofs_accepted :
    Mixed (single (.plain (.sig plainProof))) (single (.bulletproof confidentialProof)) ∧
      checkTransferIsolated .plain (fun _ _ => true)
        (fun _ _ => .error .conservationRulesViolated) oneToOne (single (.plain (.sig plainProof)))
        (single (.bulletproof confidentialProof)) = .ok () := by
  refine ⟨⟨⟨.bulletproof confidentialProof, ?_, ?_⟩, ⟨.plain (.sig plainProof), ?_, ?_⟩⟩, ?_⟩ <;>
    decide +kernel

end Lrc20.TxCheck.WithBulletproofs
