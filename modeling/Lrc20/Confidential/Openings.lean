import Lrc20.Confidential.Transfer
import Lrc20.Lib.Grouping
import Lrc20.Lib.Outcome

/-! The keys of a confidential transfer in terms of the openings of its commitments: those the
checker derives, and those the wallet signs with. -/

open Grouping Outcome
open Lrc20.RangeProofs

namespace Lrc20.Confidential

/-! ### The keys of the checker -/

section Commitments

variable {F P S : Type}

def Bulletproof.committed (proof : Bulletproof F P S) : TokenPubkey × P :=
  (proof.receipt.tokenPubkey, proof.commitment)

/-- A proof is one that the key is about. -/
def covers (who : Option TokenPubkey) (proof : Bulletproof F P S) : Bool :=
  selects who proof.receipt.tokenPubkey

theorem selected_committed (who : Option TokenPubkey) (proofs : List (Bulletproof F P S)) :
    selected who (proofs.map Bulletproof.committed) =
      (proofs.filter (covers who)).map Bulletproof.commitment := by
  unfold selected
  rw [List.filter_map, List.map_map]
  rfl

variable [AddCommGroup P]

theorem combineCommitments_eq (start : P) (proofs : List (Bulletproof F P S))
    (filter : Bulletproof F P S → Bool) (op : P → P → P) (signed : P →+ P)
    (adds : ∀ acc point, op acc point = acc + signed point) :
    combineCommitments start proofs op filter =
      start + signed ((proofs.filter filter).map Bulletproof.commitment).sum := by
  unfold combineCommitments
  induction proofs.filter filter generalizing start with
  | nil => simp
  | cons proof rest ih =>
    rw [List.foldl_cons, ih, List.map_cons, List.sum_cons, map_add, adds, add_assoc]

end Commitments

variable {F P S X : Type} [Field F] [AddCommGroup P] [Module F P] {curve : Curve F P}

section Points

/-- A commitment to `v` under the blinding `r`, of a proof of a token. -/
structure Opening (F : Type) where
  token : TokenPubkey
  v : F
  r : F

namespace Opening

def committed (curve : Curve F P) (opening : Opening F) : TokenPubkey × P :=
  (opening.token, commit curve opening.v opening.r)

/-- The amounts that a key is about: the token's, or all of them. -/
def amount (who : Option TokenPubkey) (openings : List (Opening F)) : F :=
  (selected who (openings.map fun opening => (opening.token, opening.v))).sum

def blinding (who : Option TokenPubkey) (openings : List (Opening F)) : F :=
  (selected who (openings.map fun opening => (opening.token, opening.r))).sum

/-- The blindings of the inputs less those of the outputs. -/
def key (who : Option TokenPubkey) (ins outs : List (Opening F)) : F :=
  blinding who ins - blinding who outs

variable {who : Option TokenPubkey}

theorem blinding_append (a b : List (Opening F)) :
    blinding who (a ++ b) = blinding who a + blinding who b := by
  simp [blinding]

theorem blinding_singleton (opening : Opening F) :
    blinding who [opening] = if selects who opening.token then opening.r else 0 := by
  simp [blinding, selected_cons_sum]

theorem blinding_eq_zero {openings : List (Opening F)}
    (others : ∀ opening ∈ openings, selects who opening.token = false) :
    blinding who openings = 0 := by
  have none : selected who (openings.map fun opening => (opening.token, opening.r)) = [] := by
    rw [selected_eq_nil]
    simpa using others
  rw [blinding, none, List.sum_nil]

theorem key_perm {a b outs : List (Opening F)} (perm : a.Perm b) :
    key who a outs = key who b outs := by
  rw [key, key]
  congr 1
  exact (selected_perm (perm.map _)).sum_eq

/-- Commitments add up as their openings do. -/
theorem selected_committed_sum (curve : Curve F P) (openings : List (Opening F)) :
    (selected who (openings.map (committed curve))).sum =
      amount who openings • curve.h + blinding who openings • curve.g := by
  unfold amount blinding
  induction openings with
  | nil => simp
  | cons opening rest ih =>
    simp only [List.map_cons, selected_cons_sum]
    rw [ih]
    simp only [committed, commit]
    by_cases own : selects who opening.token = true
    · simp only [own, if_true]
      module
    · simp only [own, if_false, Bool.false_eq_true]
      module

end Opening

theorem pubkeyCommitment_eq {who : Option TokenPubkey}
    {inputs outputs : List (Bulletproof F P S)} {ins outs : List (Opening F)}
    (opensIns : (inputs.map Bulletproof.committed).Perm (ins.map (Opening.committed curve)))
    (opensOuts : outputs.map Bulletproof.committed = outs.map (Opening.committed curve)) :
    pubkeyCommitment inputs outputs (covers who) =
      Opening.key who ins outs • curve.g +
        (Opening.amount who ins - Opening.amount who outs) • curve.h := by
  unfold pubkeyCommitment Opening.key
  rw [combineCommitments_eq _ _ _ (· - ·) (-AddMonoidHom.id P) fun _ _ => sub_eq_add_neg _ _,
    combineCommitments_eq _ _ _ (· + ·) (AddMonoidHom.id P) fun _ _ => rfl, ← selected_committed,
    ← selected_committed, (selected_perm opensIns).sum_eq, opensOuts,
    Opening.selected_committed_sum, Opening.selected_committed_sum, AddMonoidHom.neg_apply,
    AddMonoidHom.id_apply, AddMonoidHom.id_apply]
  module

end Points

/-! ### The keys of the wallet -/

section Keys

/-- The key of a token, or the general one. -/
def SigningKeys.of (keys : SigningKeys F) : Option TokenPubkey → Option F
  | none => keys.general
  | some token => keys.tokens.lookup token

variable [DecidableEq F] {keys tweaked : SigningKeys F} {who : Option TokenPubkey}
  {token : TokenPubkey} {scalar dhKey : F} {key : F}

variable (done : tweak scalar keys token dhKey = .ok tweaked)

include done in
theorem tweak_of_selected (own : selects who token = true) :
    ∃ key, tweakKey scalar dhKey (keys.of who) = .ok key ∧ tweaked.of who = some key := by
  obtain ⟨general, tweakedGeneral, done⟩ := bind_eq_ok.mp done
  obtain ⟨key, tweakedToken, done⟩ := bind_eq_ok.mp done
  obtain rfl := pure_eq_ok.mp done
  cases who with
  | none => exact ⟨general, tweakedGeneral, rfl⟩
  | some other =>
    obtain rfl : token = other := by simpa [selects] using own
    exact ⟨key, tweakedToken, AList.lookup_insert _⟩

include done in
theorem tweak_of_other (other : selects who token = false) : tweaked.of who = keys.of who := by
  obtain ⟨general, -, done⟩ := bind_eq_ok.mp done
  obtain ⟨key, -, done⟩ := bind_eq_ok.mp done
  obtain rfl := pure_eq_ok.mp done
  cases who with
  | none => cases other
  | some own =>
    have different : own ≠ token := by
      rintro rfl
      simp [selects] at other
    exact AList.lookup_insert_ne different

theorem tweakKey_none (done : tweakKey scalar dhKey none = .ok key) : key = dhKey :=
  (Except.ok.inj done).symm

theorem tweakKey_some {held : F} (done : tweakKey scalar dhKey (some held) = .ok key) :
    key = held + scalar ∧ key ≠ 0 := by
  simp only [tweakKey, addTweak] at done
  split at done
  · cases done
  · obtain rfl := Except.ok.inj done
    exact ⟨rfl, by assumption⟩

/-- The keys are those of the openings, and there is a key where there is an input. -/
structure Keyed (keys : SigningKeys F) (ins outs : List (Opening F)) : Prop where
  absent : ∀ who, keys.of who = none → ∀ opening ∈ ins, selects who opening.token = false
  present : ∀ who key, keys.of who = some key →
    key ≠ 0 ∧ key = Opening.key who ins outs
  funded : ∀ opening ∈ outs, ∃ funding ∈ ins, funding.token = opening.token

variable {ins outs : List (Opening F)} {opening : Opening F}

omit [DecidableEq F] in
theorem Keyed.initial : Keyed (⟨none, ∅⟩ : SigningKeys F) [] [] := by
  refine ⟨by simp, ?_, by simp⟩
  intro who key found
  cases who <;> cases found

omit [DecidableEq F] in
/-- Where there is no input, nothing was blinded. -/
theorem Keyed.key_eq_zero (keyed : Keyed keys ins outs)
    (noIns : ∀ opening ∈ ins, selects who opening.token = false) : Opening.key who ins outs = 0 := by
  rw [Opening.key, Opening.blinding_eq_zero noIns, Opening.blinding_eq_zero, sub_self]
  intro output mem
  obtain ⟨funding, listed, same⟩ := keyed.funded output mem
  rw [← same]
  exact noIns funding listed

omit [DecidableEq F] in
theorem Keyed.exists_input (keyed : Keyed keys ins outs) (found : keys.of who = some key) :
    ∃ opening ∈ ins, selects who opening.token = true := by
  obtain ⟨nonzero, same⟩ := keyed.present who key found
  by_contra none
  refine nonzero (same.trans (keyed.key_eq_zero ?_))
  intro opening mem
  by_contra own
  exact none ⟨opening, mem, by simpa using own⟩

include done in
/-- A key that is absent after a tweak was not meant by it and was absent before. -/
theorem absent_of_tweak (missing : tweaked.of who = none) :
    selects who token = false ∧ keys.of who = none := by
  cases own : selects who token with
  | true =>
    obtain ⟨key, -, found⟩ := tweak_of_selected done own
    rw [missing] at found
    cases found
  | false => exact ⟨rfl, (tweak_of_other done own).symm.trans missing⟩

/-- A tweak adds its scalar to the keys of its token. Where there is none yet, the other key is
taken, which then has to be the scalar itself. -/
theorem Keyed.present_of_tweak (keyed : Keyed keys ins outs)
    (done : tweak scalar keys token dhKey = .ok tweaked)
    (fresh : selects who token = true → keys.of who = none → dhKey ≠ 0 ∧ dhKey = scalar)
    (found : tweaked.of who = some key) :
    key ≠ 0 ∧ key = Opening.key who ins outs + if selects who token then scalar else 0 := by
  cases own : selects who token with
  | false =>
    rw [tweak_of_other done own] at found
    simpa using keyed.present who key found
  | true =>
    obtain ⟨key', next, found'⟩ := tweak_of_selected done own
    obtain rfl : key' = key := Option.some.inj (found'.symm.trans found)
    rw [if_pos rfl]
    cases held : keys.of who with
    | none =>
      rw [held] at next
      obtain rfl := tweakKey_none next
      have zero := keyed.key_eq_zero (keyed.absent who held)
      obtain ⟨nonzero, same⟩ := fresh own held
      exact ⟨nonzero, by simp [zero, same]⟩
    | some before =>
      rw [held] at next
      obtain ⟨rfl, nonzero⟩ := tweakKey_some next
      exact ⟨nonzero, by rw [(keyed.present who before held).2]⟩

theorem Keyed.input (keyed : Keyed keys ins outs) (secret : opening.r ≠ 0)
    (done : tweak opening.r keys opening.token opening.r = .ok tweaked) :
    Keyed tweaked (ins ++ [opening]) outs := by
  refine ⟨?_, ?_, ?_⟩
  · intro who missing earlier mem
    obtain ⟨other, before⟩ := absent_of_tweak done missing
    rcases List.mem_append.mp mem with mem | mem
    · exact keyed.absent who before earlier mem
    · obtain rfl := List.mem_singleton.mp mem
      exact other
  · intro who key found
    obtain ⟨nonzero, sum⟩ := keyed.present_of_tweak done (fun _ _ => ⟨secret, rfl⟩) found
    refine ⟨nonzero, ?_⟩
    rw [sum, Opening.key, Opening.key, Opening.blinding_append, Opening.blinding_singleton]
    ring
  · intro output mem
    obtain ⟨funding, listed, same⟩ := keyed.funded output mem
    exact ⟨funding, by simp [listed], same⟩

/-- An output of a token that has an input takes its blinding from the keys. -/
theorem Keyed.output (keyed : Keyed keys ins outs)
    (funded : ∃ funding ∈ ins, funding.token = opening.token)
    (done : tweak (-opening.r) keys opening.token dhKey = .ok tweaked) :
    Keyed tweaked ins (outs ++ [opening]) := by
  refine ⟨?_, ?_, ?_⟩
  · intro who missing
    exact keyed.absent who (absent_of_tweak done missing).2
  · intro who key found
    have fresh : selects who opening.token = true → keys.of who = none →
        dhKey ≠ 0 ∧ dhKey = -opening.r := by
      -- The token's input has a key already.
      intro own missing
      obtain ⟨funding, listed, same⟩ := funded
      have other := keyed.absent who missing funding listed
      rw [same, own] at other
      cases other
    obtain ⟨nonzero, sum⟩ := keyed.present_of_tweak done fresh found
    refine ⟨nonzero, ?_⟩
    rw [sum, Opening.key, Opening.key, Opening.blinding_append, Opening.blinding_singleton]
    split <;> ring
  · intro output mem
    rcases List.mem_append.mp mem with mem | mem
    · exact keyed.funded output mem
    · obtain rfl := List.mem_singleton.mp mem
      exact funded

end Keys

/-! ### The run over the inputs -/

section Run

variable [DecidableEq F] {scheme : Scheme F P S X} {privateKey : F} {random : Randomness F}
  {dhKey : F} {recipients : List (PublicKey × U128)}

theorem getCommitment_ok {recipient : PublicKey} {amount : U128} {result : CommitmentResult F P}
    (done : getCommitment scheme privateKey recipient amount random = .ok (dhKey, result)) :
    scheme.ecdh privateKey recipient = some dhKey ∧
      result.commitment = commit scheme.curve (amount.val : F) dhKey := by
  unfold getCommitment at done
  split at done
  · cases done
  · rename_i shared
    split at done
    · cases done
    · rename_i generated
      obtain ⟨rfl, rfl⟩ := Prod.mk.inj (Except.ok.inj done)
      unfold generate at generated
      simp only at generated
      split at generated
      · obtain ⟨-, rfl⟩ := Prod.mk.inj (Option.some.inj generated)
        exact ⟨shared, rfl⟩
      · cases generated

def CommitmentResult.committed (commitment : TokenPubkey × CommitmentResult F P) :
    TokenPubkey × P :=
  (commitment.1, commitment.2.commitment)

/-- The keys and the commitments are those of the openings. -/
structure Signed (curve : Curve F P) (signing : Signing F P) (ins outs : List (Opening F)) :
    Prop where
  keyed : Keyed signing.keys ins outs
  committed : signing.commitments.map CommitmentResult.committed =
    outs.map (Opening.committed curve)

variable {signing signed : Signing F P} {ins outs : List (Opening F)}

/-- An amount for a recipient, opened with the key that the wallet shares with them. -/
def recipientOpening (scheme : Scheme F P S X) (privateKey : F) (token : TokenPubkey)
    (recipient : PublicKey × U128) : Opening F :=
  ⟨token, (recipient.2.val : F), (scheme.ecdh privateKey recipient.1).getD 0⟩

theorem signed_tweakRecipients {random : Nat → Randomness F} {token : TokenPubkey} :
    ∀ {drawn : Nat} {signing : Signing F P}
    {outs : List (Opening F)},
    Signed scheme.curve signing ins outs → (∃ funding ∈ ins, funding.token = token) →
    tweakRecipients scheme random privateKey token dhKey recipients drawn signing = .ok signed →
    Signed scheme.curve signed ins
      (outs ++ recipients.map (recipientOpening scheme privateKey token)) := by
  induction recipients with
  | nil =>
    intro drawn signing outs before _ done
    obtain rfl := Except.ok.inj done
    simpa using before
  | cons recipient rest ih =>
    intro drawn signing outs before funded done
    obtain ⟨⟨key, result⟩, made, done⟩ := bind_eq_ok.mp done
    obtain ⟨keys, tweaked, done⟩ := bind_eq_ok.mp done
    obtain ⟨shared, opened⟩ := getCommitment_ok made
    have opening : recipientOpening scheme privateKey token recipient =
        ⟨token, (recipient.2.val : F), key⟩ := by
      simp [recipientOpening, shared]
    have next : Signed scheme.curve ⟨keys, signing.commitments ++ [(token, result)]⟩ ins
        (outs ++ [⟨token, (recipient.2.val : F), key⟩]) := by
      refine ⟨before.keyed.output funded tweaked, ?_⟩
      rw [List.map_append, List.map_append, before.committed]
      simp [CommitmentResult.committed, Opening.committed, opened]
    have after := ih next funded done
    rw [List.append_assoc] at after
    rw [List.map_cons, opening]
    exact after

/-- An input of a value, opened with the key that the wallet shares with its sender. -/
def inputOpening (scheme : Scheme F P S X) (privateKey : F) (value : OutPoint → U128)
    (outpoint : OutPoint) (proof : Bulletproof F P S) : Opening F :=
  ⟨proof.receipt.tokenPubkey, ((value outpoint).val : F),
    (scheme.ecdh privateKey proof.senderKey).getD 0⟩

def openingAt (scheme : Scheme F P S X) (privateKey : F) (value : OutPoint → U128)
    (inputProofs : AList fun _ : OutPoint => Bulletproof F P S) (outpoint : OutPoint) :
    Option (Opening F) :=
  (inputProofs.lookup outpoint).map (inputOpening scheme privateKey value outpoint)

/-- The inputs under which something is asked for. -/
def Asked.outpoints (asked : Asked) : List OutPoint := asked.filterMap Sigma.fst

/-- What is asked for under the inputs: the token of each recipient, and the commitment as the
wallet opens it, under the token of the input. -/
def Asked.made (scheme : Scheme F P S X) (privateKey : F)
    (inputProofs : AList fun _ : OutPoint => Bulletproof F P S) (asked : Asked) :
    List (TokenPubkey × Opening F) :=
  asked.flatMap fun entry =>
    (entry.1.bind fun outpoint => inputProofs.lookup outpoint).toList.flatMap fun proof =>
      entry.2.map fun recipient => (recipient.1, recipientOpening scheme privateKey
        proof.receipt.tokenPubkey (recipient.2.recipient, recipient.2.amount))

theorem signed_tweakSigningKeys {random : Nat → Randomness F} (value : OutPoint → U128)
    (outpoint : OutPoint) {proof : Bulletproof F P S}
    (secret : ∀ key ∈ scheme.ecdh privateKey proof.senderKey, key ≠ 0)
    (before : Signed scheme.curve signing ins outs)
    (done : tweakSigningKeys scheme random privateKey proof recipients signing = .ok signed) :
    Signed scheme.curve signed (ins ++ [inputOpening scheme privateKey value outpoint proof])
      (outs ++ recipients.map
        (recipientOpening scheme privateKey proof.receipt.tokenPubkey)) := by
  unfold tweakSigningKeys at done
  cases shared : scheme.ecdh privateKey proof.senderKey with
  | none =>
    rw [shared] at done
    cases done
  | some key =>
    rw [shared] at done
    obtain ⟨keys, tweaked, done⟩ := bind_eq_ok.mp done
    have opening : inputOpening scheme privateKey value outpoint proof =
        ⟨proof.receipt.tokenPubkey, ((value outpoint).val : F), key⟩ := by
      simp [inputOpening, shared]
    rw [opening]
    have next : Signed scheme.curve ⟨keys, signing.commitments⟩
        (ins ++ [⟨proof.receipt.tokenPubkey, ((value outpoint).val : F), key⟩]) outs :=
      ⟨before.keyed.input (secret key shared) tweaked, before.committed⟩
    exact signed_tweakRecipients next
      ⟨_, List.mem_append_right ins (List.mem_singleton_self _), rfl⟩ done

/-- What the loop over the inputs of a transfer leaves: each input was found, its blinding and
those of the outputs under it are in the keys. -/
theorem signed_tweakAll {random : Option OutPoint → Nat → Randomness F} (value : OutPoint → U128)
    {inputProofs : AList fun _ : OutPoint => Bulletproof F P S}
    (secret : ∀ sender, ∀ key ∈ scheme.ecdh privateKey sender, key ≠ 0)
    {issued : List (Bulletproof F P S)} : ∀ {asked : Asked} {signing : Signing F P}
    {ins outs : List (Opening F)},
    (∀ entry ∈ asked, entry.1.isSome) → Signed scheme.curve signing ins outs →
    tweakAll scheme random privateKey inputProofs asked signing = .ok (signed, issued) →
    issued = [] ∧ (∀ outpoint ∈ asked.outpoints, (inputProofs.lookup outpoint).isSome) ∧
      (asked.made scheme privateKey inputProofs).map (fun made => (made.1, made.2.v)) =
        (asked.flatMap Sigma.snd).map (fun recipient =>
          (recipient.1, (recipient.2.amount.val : F))) ∧
      Signed scheme.curve signed
        (ins ++ asked.outpoints.filterMap (openingAt scheme privateKey value inputProofs))
        (outs ++ (asked.made scheme privateKey inputProofs).map Prod.snd) := by
  intro asked
  induction asked with
  | nil =>
    intro signing ins outs _ before done
    obtain ⟨rfl, rfl⟩ := Prod.mk.inj (Except.ok.inj done)
    refine ⟨rfl, ?_, rfl, ?_⟩
    · simp [Asked.outpoints]
    · simpa [Asked.outpoints, Asked.made] using before
  | cons entry rest ih =>
    intro signing ins outs transfers before done
    obtain ⟨listed, params⟩ := entry
    cases listed with
    | none => simpa using transfers ⟨none, params⟩ (by simp)
    | some outpoint =>
      cases found : inputProofs.lookup outpoint with
      | none =>
        simp only [tweakAll, found] at done
        cases done
      | some proof =>
        simp only [tweakAll, found] at done
        obtain ⟨middle, first, done⟩ := bind_eq_ok.mp done
        have between := signed_tweakSigningKeys value outpoint (secret _) before first
        obtain ⟨none, others, amounts, after⟩ :=
          ih (fun entry mem => transfers entry (by simp [mem])) between done
        have opened : openingAt scheme privateKey value inputProofs outpoint =
            some (inputOpening scheme privateKey value outpoint proof) := by
          simp [openingAt, found]
        have outpoints : Asked.outpoints (⟨some outpoint, params⟩ :: rest) =
            outpoint :: Asked.outpoints rest := rfl
        have made : Asked.made scheme privateKey inputProofs (⟨some outpoint, params⟩ :: rest) =
            params.map (fun recipient => (recipient.1, recipientOpening scheme privateKey
              proof.receipt.tokenPubkey (recipient.2.recipient, recipient.2.amount))) ++
              Asked.made scheme privateKey inputProofs rest := by
          simp [Asked.made, found]
        refine ⟨none, ?_, ?_, ?_⟩
        · rw [outpoints]
          simpa [found] using others
        · rw [made, List.map_append, amounts, List.flatMap_cons, List.map_append, List.map_map]
          rfl
        · rw [outpoints, List.filterMap_cons_some opened, made]
          simpa [Function.comp_def] using after

end Run

end Lrc20.Confidential
