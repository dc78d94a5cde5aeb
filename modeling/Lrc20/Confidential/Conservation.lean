import Lrc20.Confidential.Openings

/-! Confidential amounts are conserved: the keys of the checker are multiples of the generator
exactly when the amounts balance, and it accepts what the wallet assembles exactly when both hold
the same keys and messages. -/

open Grouping Outcome
open Lrc20.RangeProofs

namespace Lrc20.Confidential

open Opening

variable {token : TokenPubkey} {recipients : Recipients}

/-! ### What the hash engines are fed -/

section Hashing

variable {engines : Engines} {who : Option TokenPubkey}

/-- What was fed to the engine of a token, or to the general one. -/
def Engines.fed (engines : Engines) : Option TokenPubkey → Bytes
  | none => engines.1
  | some token => (engines.2.lookup token).getD []

theorem fed_insert (proof : TokenPubkey × Bytes) :
    Engines.fed (engines.1 ++ proof.2,
        engines.2.insert proof.1 ((engines.2.lookup proof.1).getD [] ++ proof.2)) who =
      engines.fed who ++ if selects who proof.1 then proof.2 else [] := by
  cases who with
  | none => rfl
  | some token =>
    by_cases own : proof.1 = token
    · subst own
      simp [Engines.fed, selects]
    · have other : token ≠ proof.1 := fun same => own same.symm
      simp [Engines.fed, selects, own, AList.lookup_insert_ne other]

theorem fed_updateHashes (proofs : List (TokenPubkey × Bytes)) :
    (updateHashes engines proofs).fed who = engines.fed who ++ (selected who proofs).flatten := by
  induction proofs generalizing engines with
  | nil => simp [updateHashes]
  | cons proof rest ih =>
    have step : updateHashes engines (proof :: rest) =
      updateHashes (engines.1 ++ proof.2,
        engines.2.insert proof.1 ((engines.2.lookup proof.1).getD [] ++ proof.2)) rest := rfl
    rw [step, ih, fed_insert, selected_cons]
    split
    · simp
    · simp

theorem updateHashes_append (a b : List (TokenPubkey × Bytes)) :
    updateHashes engines (a ++ b) = updateHashes (updateHashes engines a) b :=
  List.foldl_append

theorem lookup_updateHashes {proofs : List (TokenPubkey × Bytes)}
    (listed : token ∈ proofs.map Prod.fst ∨ (engines.2.lookup token).isSome) :
    (updateHashes engines proofs).2.lookup token =
      some ((updateHashes engines proofs).fed (some token)) := by
  induction proofs generalizing engines with
  | nil =>
    obtain ⟨engine, found⟩ := Option.isSome_iff_exists.mp (listed.resolve_left (by simp))
    simp [updateHashes, Engines.fed, found]
  | cons proof rest ih =>
    apply ih
    by_cases own : token = proof.1
    · right
      rw [own, AList.lookup_insert]
      rfl
    · rw [AList.lookup_insert_ne own]
      rcases listed with listed | held
      · left
        simpa [own] using listed
      · exact .inr held

/-- Entries in any order are hashed in the same order. -/
theorem selected_sortByHash {a b : List (TokenPubkey × Bytes)} (perm : a.Perm b) :
    selected who (sortByHash a) = selected who (sortByHash b) := by
  have sorted : ∀ entries : List (TokenPubkey × Bytes),
      (selected who (sortByHash entries)).Pairwise (· ≤ ·) := by
    intro entries
    have ordered : (sortByHash entries).Pairwise fun a b => a.2 ≤ b.2 := by
      refine (List.pairwise_mergeSort ?_ ?_ entries).imp (fun le => by simpa using le)
      · intro a b c ab bc
        simp only [decide_eq_true_eq] at ab bc ⊢
        exact List.le_trans ab bc
      · intro a b
        simp only [Bool.or_eq_true, decide_eq_true_eq]
        exact List.le_total a.2 b.2
    exact (ordered.filter _).map _ fun _ _ le => le
  have same : (sortByHash a).Perm (sortByHash b) :=
    (List.mergeSort_perm a _).trans (perm.trans (List.mergeSort_perm b _).symm)
  exact List.Perm.eq_of_pairwise (fun _ _ _ _ ab ba => List.le_antisymm ab ba) (sorted a) (sorted b)
    (selected_perm same)

end Hashing

variable {F P S X : Type} {commitments : List (TokenPubkey × CommitmentResult F P)}

/-! ### What the wallet signs -/

section Creating

/-- The commitment as the checker reads it, under the token of the recipient. -/
def received (made : TokenPubkey × Opening F) : Opening F := { made.2 with token := made.1 }

/-- What the outputs add to the hash engines of the wallet, under the tokens of the inputs. -/
def signedHashes (made : List (TokenPubkey × Opening F)) (outputs : List (Bulletproof F P S)) :
    List (TokenPubkey × Bytes) :=
  (made.zip outputs).map fun pair => (pair.1.2.token, pair.2.receipt.tokenAmount.toBytes)

variable {scheme : Scheme F P S X} {engines : Engines} {signatures : AList fun _ : TokenPubkey => S}
  {signature : S}

theorem tokenSignatures_lookup {keys : List (Σ _ : TokenPubkey, F)}
    (done : tokenSignatures scheme engines keys = .ok signatures)
    (found : signatures.lookup token = some signature) :
    ∃ key engine, ⟨token, key⟩ ∈ keys ∧ engines.2.lookup token = some engine ∧
      signature = scheme.signSchnorr (scheme.message engine) key := by
  induction keys generalizing signatures with
  | nil =>
    obtain rfl := Except.ok.inj done
    cases found
  | cons entry rest ih =>
    obtain ⟨signer, key⟩ := entry
    cases held : engines.2.lookup signer with
    | none =>
      simp only [tokenSignatures, held] at done
      cases done
    | some engine =>
      simp only [tokenSignatures, held] at done
      obtain ⟨others, done', done⟩ := bind_eq_ok.mp done
      obtain rfl := pure_eq_ok.mp done
      by_cases own : token = signer
      · subst own
        rw [AList.lookup_insert] at found
        exact ⟨key, engine, by simp, held, (Option.some.inj found).symm⟩
      · rw [AList.lookup_insert_ne own] at found
        obtain ⟨key', engine', mem, rest'⟩ := ih done' found
        exact ⟨key', engine', by simp [mem], rest'⟩

variable [Field F] [AddCommGroup P] [Module F P]

/-- The outputs carry the commitments in their order, each under the token of its recipient. -/
theorem builderOutputs_spec {privateKey : F} {outputs : List (Bulletproof F P S)}
    {made : List (TokenPubkey × Opening F)} (tokens : made.map Prod.fst = recipients.map Prod.fst)
    (opened : commitments.map CommitmentResult.committed =
      (made.map Prod.snd).map (committed scheme.curve))
    (done : builderOutputs scheme privateKey signature signatures recipients commitments =
      .ok outputs) :
    outputs.map Bulletproof.committed = (made.map received).map (committed scheme.curve) ∧
      signedHashes made outputs = commitments.map CommitmentResult.hashed ∧
      ∀ output ∈ outputs, output.signature = signature ∧
        signatures.lookup output.receipt.tokenPubkey = some output.tokenPubkeySignature := by
  induction recipients generalizing commitments made outputs with
  | nil =>
    obtain rfl := Except.ok.inj done
    obtain rfl : made = [] := by simpa using tokens
    obtain rfl : commitments = [] := by simpa using opened
    exact ⟨rfl, rfl, by simp⟩
  | cons recipient rest ih =>
    cases made with
    | nil => cases tokens
    | cons first made =>
      cases commitments with
      | nil => cases opened
      | cons commitment commitments =>
        obtain ⟨own, later⟩ := List.cons.inj tokens
        obtain ⟨same, opened⟩ := List.cons.inj opened
        obtain ⟨under, point⟩ := Prod.mk.inj same
        cases held : signatures.lookup recipient.1 with
        | none =>
          simp only [builderOutputs, held] at done
          cases done
        | some tokenSignature =>
          simp only [builderOutputs, held] at done
          obtain ⟨others, done', done⟩ := bind_eq_ok.mp done
          obtain rfl := pure_eq_ok.mp done
          obtain ⟨committed, hashed, signed⟩ := ih later opened done'
          refine ⟨?_, ?_, ?_⟩
          · rw [List.map_cons, List.map_cons, List.map_cons, committed]
            exact congrArg (· :: _) (Prod.ext own.symm point)
          · rw [signedHashes, List.zip_cons_cons, List.map_cons, List.map_cons, ← hashed]
            refine congrArg (· :: _) (Prod.ext under.symm ?_)
            exact TokenAmount.toBytes_fromArray _
          · intro output mem
            rcases List.mem_cons.mp mem with rfl | mem
            · exact ⟨rfl, held⟩
            · exact signed output mem

end Creating

/-! ### What the checker accepts -/

section Checking

variable {scheme : Scheme F P S X} {inputs outputs : List (Bulletproof F P S)}
  {xonlys : AList fun _ : TokenPubkey => X} {engines : Engines}
  {output : Bulletproof F P S}

theorem verifyAll_ok_iff {general : X} : verifyAll scheme xonlys engines general outputs = .ok () ↔
    ∀ output ∈ outputs, verifySignatures scheme output xonlys engines general = .ok () := by
  induction outputs with
  | nil => simp [verifyAll]
  | cons output rest ih =>
    rw [verifyAll, bind_eq_ok, List.forall_mem_cons, ← ih]
    exact ⟨fun ⟨_, first, others⟩ => ⟨first, others⟩, fun ⟨first, others⟩ => ⟨(), first, others⟩⟩

theorem verifySignatures_ok_iff {general xonly : X} {engine : Bytes}
    (found : xonlys.lookup output.receipt.tokenPubkey = some xonly)
    (fed : engines.2.lookup output.receipt.tokenPubkey = some engine) :
    verifySignatures scheme output xonlys engines general = .ok () ↔
      scheme.verifySchnorr output.signature (scheme.message engines.1) general = true ∧
      scheme.verifySchnorr output.tokenPubkeySignature (scheme.message engine) xonly = true := by
  simp only [verifySignatures, found, fed]
  split
  · simp_all
  · split
    · simp_all
    · simp_all

variable [AddCommGroup P] [DecidableEq P]

theorem lookup_tokenPubkeyXonlys {tokens : List TokenPubkey}
    (done : tokenPubkeyXonlys scheme inputs outputs tokens = .ok xonlys) :
    ∀ token ∈ tokens, ∃ xonly,
      derivePubkey scheme inputs outputs (hasToken token) = .ok xonly ∧
        xonlys.lookup token = some xonly := by
  induction tokens generalizing xonlys with
  | nil => simp
  | cons token rest ih =>
    obtain ⟨xonly, derived, done⟩ := bind_eq_ok.mp done
    obtain ⟨others, done', done⟩ := bind_eq_ok.mp done
    obtain rfl := pure_eq_ok.mp done
    intro other mem
    by_cases own : other = token
    · subst own
      exact ⟨xonly, derived, AList.lookup_insert _⟩
    · rw [AList.lookup_insert_ne own]
      exact ih done' other (List.mem_of_ne_of_mem own mem)

theorem exists_tokenPubkeyXonlys {tokens : List TokenPubkey} (derived : ∀ token ∈ tokens,
      ∃ xonly, derivePubkey scheme inputs outputs (hasToken token) = .ok xonly) :
    ∃ xonlys, tokenPubkeyXonlys scheme inputs outputs tokens = .ok xonlys := by
  induction tokens with
  | nil => exact ⟨∅, rfl⟩
  | cons token rest ih =>
    obtain ⟨xonly, own⟩ := derived token (by simp)
    obtain ⟨others, done⟩ := ih fun other mem => derived other (by simp [mem])
    refine ⟨others.insert token xonly, ?_⟩
    rw [tokenPubkeyXonlys, own, done]
    rfl

def checkEngines (inputs : List (Bulletproof F P S)) (outputs : List (TokenPubkey × Bytes)) :
    Engines :=
  updateHashes ([], ∅) (sortByHash (inputs.map Bulletproof.hashed) ++ outputs)

variable [Field F] [Module F P]

/-- What the claims of the `secp256k1` crate come to: shared keys are secret keys, a signature
verifies under the public key of its secret key, and the generator is not the identity. -/
structure Scheme.Lawful (scheme : Scheme F P S X) : Prop where
  ecdh_ne_zero : ∀ {privateKey publicKey}, ∀ key ∈ scheme.ecdh privateKey publicKey, key ≠ 0
  verify_sign : ∀ message key, key ≠ 0 →
    scheme.verifySchnorr (scheme.signSchnorr message key) message
      (scheme.toXOnly (key • scheme.curve.g)) = true
  g_ne_zero : scheme.curve.g ≠ 0

/-- A signature verifies for no other message and under no other key. -/
def Scheme.Binding (scheme : Scheme F P S X) : Prop :=
  ∀ message key message' xonly, key ≠ 0 →
    scheme.verifySchnorr (scheme.signSchnorr message key) message' xonly = true →
      xonly = scheme.toXOnly (key • scheme.curve.g) ∧ message' = message

/-- What is verified for an output under the key of its token. -/
def verified (scheme : Scheme F P S X) (inputs outputs : List (Bulletproof F P S))
    (ins outs : List (Opening F)) (output : Bulletproof F P S) : Bool :=
  scheme.verifySchnorr output.tokenPubkeySignature
    (scheme.message ((checkEngines inputs (outputs.map Bulletproof.hashed)).fed
      (some output.receipt.tokenPubkey)))
    (scheme.toXOnly (key (some output.receipt.tokenPubkey) ins outs • scheme.curve.g))

variable {ins outs : List (Opening F)} (proper : scheme.curve.g ≠ 0)
  (opensIns : (inputs.map Bulletproof.committed).Perm (ins.map (committed scheme.curve)))
  (opensOuts : outputs.map Bulletproof.committed = outs.map (committed scheme.curve))
  (balanced : ∀ who, Opening.amount who ins = Opening.amount who outs)

include proper opensIns opensOuts balanced

/-- When the amounts balance, the key of the checker is that of the openings. -/
theorem derivePubkey_ok_iff (who : Option TokenPubkey) {xonly : X} :
    derivePubkey scheme inputs outputs (covers who) = .ok xonly ↔
      key who ins outs ≠ 0 ∧ xonly = scheme.toXOnly (key who ins outs • scheme.curve.g) := by
  have point : pubkeyCommitment inputs outputs (covers who) =
      key who ins outs • scheme.curve.g := by
    rw [pubkeyCommitment_eq opensIns opensOuts, balanced who, sub_self, zero_smul, add_zero]
  by_cases zero : key who ins outs = 0
  · simp [derivePubkey, point, zero]
  · simpa [derivePubkey, point, proper, zero] using eq_comm

/-- Balanced outputs that carry the general signature are accepted exactly when each input's token
has a key and the signatures for the tokens verify. -/
theorem check_ok_iff (general : key none ins outs ≠ 0)
    (listed : ∀ output ∈ outputs, ∃ input ∈ inputs,
      input.receipt.tokenPubkey = output.receipt.tokenPubkey)
    (signed : ∀ output ∈ outputs, scheme.verifySchnorr output.signature (scheme.message
      ((checkEngines inputs (outputs.map Bulletproof.hashed)).fed none))
        (scheme.toXOnly (key none ins outs • scheme.curve.g)) = true) :
    checkBulletproofConservationRules scheme inputs outputs = .ok () ↔
      (∀ input ∈ inputs, key (some input.receipt.tokenPubkey) ins outs ≠ 0) ∧
      ∀ output ∈ outputs, verified scheme inputs outputs ins outs output = true := by
  have derive : ∀ who xonly, derivePubkey scheme inputs outputs (covers who) = .ok xonly ↔ _ :=
    fun who _ => derivePubkey_ok_iff proper opensIns opensOuts balanced who
  have fed : ∀ output ∈ outputs, (checkEngines inputs (outputs.map Bulletproof.hashed)).2.lookup
      output.receipt.tokenPubkey = some ((checkEngines inputs (outputs.map Bulletproof.hashed)).fed
        (some output.receipt.tokenPubkey)) := by
    intro output mem
    apply lookup_updateHashes
    left
    rw [List.map_append, List.map_map]
    exact List.mem_append_right _ (List.mem_map_of_mem mem)
  set tokens := (inputs.map fun proof => proof.receipt.tokenPubkey).dedup with tokens_eq
  have mem_tokens : ∀ token, token ∈ tokens ↔
      ∃ input ∈ inputs, input.receipt.tokenPubkey = token := by simp [tokens_eq]
  -- what one output is checked for, once the keys have been derived
  have each : ∀ xonlys, tokenPubkeyXonlys scheme inputs outputs tokens = .ok xonlys →
      ∀ output ∈ outputs, (verifySignatures scheme output xonlys
          (checkEngines inputs (outputs.map Bulletproof.hashed))
          (scheme.toXOnly (key none ins outs • scheme.curve.g)) = .ok () ↔
        verified scheme inputs outputs ins outs output = true) := by
    intro xonlys done output mem
    obtain ⟨xonly, own, found⟩ :=
      lookup_tokenPubkeyXonlys done _ ((mem_tokens _).mpr (listed output mem))
    obtain ⟨-, rfl⟩ := (derive (some _) xonly).mp own
    rw [verifySignatures_ok_iff found (fed output mem)]
    exact and_iff_right (signed output mem)
  show (derivePubkey scheme inputs outputs (covers none) >>= fun general =>
    tokenPubkeyXonlys scheme inputs outputs tokens >>= fun xonlys =>
      verifyAll scheme xonlys (checkEngines inputs (outputs.map Bulletproof.hashed)) general
        outputs) = .ok () ↔ _
  simp only [bind_eq_ok, derive, verifyAll_ok_iff]
  constructor
  · rintro ⟨_, ⟨-, rfl⟩, xonlys, done, verifies⟩
    refine ⟨?_, fun output mem => (each xonlys done output mem).mp (verifies output mem)⟩
    intro input mem
    obtain ⟨xonly, own, -⟩ :=
      lookup_tokenPubkeyXonlys done _ ((mem_tokens _).mpr ⟨input, mem, rfl⟩)
    exact ((derive (some _) xonly).mp own).1
  · rintro ⟨nonzero, verifies⟩
    have derived : ∀ token ∈ tokens,
        ∃ xonly, derivePubkey scheme inputs outputs (hasToken token) = .ok xonly := by
      intro token mem
      obtain ⟨input, isInput, rfl⟩ := (mem_tokens token).mp mem
      exact ⟨_, (derive (some _) _).mpr ⟨nonzero input isInput, rfl⟩⟩
    obtain ⟨xonlys, done⟩ := exists_tokenPubkeyXonlys derived
    exact ⟨_, ⟨general, rfl⟩, xonlys, done, fun output mem =>
      (each xonlys done output mem).mpr (verifies output mem)⟩

end Checking

/-! ### What the wallet assembles -/

section Assembled

variable {scheme : Scheme F P S X} {privateKey : F} {value : OutPoint → U128}
  {inputProofs : AList fun _ : OutPoint => Bulletproof F P S}
  {bulletproofOutputs : AList fun _ : Option OutPoint => Recipients}
  {outputs inputs : List (Bulletproof F P S)}

/-- Where each input is listed and each listed one is an input, they are the same. -/
theorem outpoints_perm
    (listed : ∀ outpoint ∈ inputProofs.keys, some outpoint ∈ bulletproofOutputs.keys)
    (found : ∀ outpoint ∈ Asked.outpoints bulletproofOutputs.entries,
      (inputProofs.lookup outpoint).isSome) :
    (Asked.outpoints bulletproofOutputs.entries).Perm inputProofs.keys := by
  have asked : Asked.outpoints bulletproofOutputs.entries =
      bulletproofOutputs.keys.filterMap id := by
    unfold Asked.outpoints AList.keys List.keys
    rw [List.filterMap_map]
    rfl
  have once : (Asked.outpoints bulletproofOutputs.entries).Nodup := by
    rw [asked]
    refine bulletproofOutputs.keys_nodup.filterMap ?_
    intro a b outpoint ofA ofB
    exact (Option.mem_def.mp ofA).trans (Option.mem_def.mp ofB).symm
  refine (List.perm_ext_iff_of_nodup once inputProofs.keys_nodup).mpr fun outpoint => ⟨?_, ?_⟩
  · intro mem
    exact AList.lookup_isSome.mp (found outpoint mem)
  · intro mem
    rw [asked, List.mem_filterMap]
    exact ⟨some outpoint, listed outpoint mem, rfl⟩

def walletEngines (inputProofs : AList fun _ : OutPoint => Bulletproof F P S)
    (commitments : List (TokenPubkey × CommitmentResult F P)) : Engines :=
  updateHashes (updateHashes ([], ∅)
    (sortByHash (inputProofs.entries.map fun entry => entry.2.hashed)))
    (commitments.map CommitmentResult.hashed)

/-- The wallet hashes the inputs as the checker does, in whatever order that has them. -/
theorem fed_walletEngines {made : List (TokenPubkey × Opening F)}
    (spent : inputs.Perm (inputProofs.entries.map Sigma.snd))
    (hashed : signedHashes made outputs = commitments.map CommitmentResult.hashed)
    (who : Option TokenPubkey) : (walletEngines inputProofs commitments).fed who =
      (checkEngines inputs (signedHashes made outputs)).fed who := by
  have inputsHashed : (inputs.map Bulletproof.hashed).Perm
      (inputProofs.entries.map fun entry => entry.2.hashed) := by
    have mapped := spent.map Bulletproof.hashed
    rw [List.map_map] at mapped
    exact mapped
  unfold checkEngines walletEngines
  rw [updateHashes_append, fed_updateHashes, fed_updateHashes, fed_updateHashes, fed_updateHashes,
    hashed, selected_sortByHash inputsHashed]

/-- The general engine is fed the same under whatever tokens. -/
theorem fed_none_signedHashes {made : List (TokenPubkey × Opening F)}
    (length : made.length = outputs.length) :
    (checkEngines inputs (signedHashes made outputs)).fed none =
      (checkEngines inputs (outputs.map Bulletproof.hashed)).fed none := by
  have all : ∀ entries : List (TokenPubkey × Bytes),
      selected none entries = entries.map Prod.snd := by
    intro entries
    simp [selected, selects]
  have last : (made.zip outputs).map Prod.snd = outputs := List.map_snd_zip length.ge
  have same : (signedHashes made outputs).map Prod.snd =
      (outputs.map Bulletproof.hashed).map Prod.snd := by
    nth_rewrite 2 [← last]
    simp [signedHashes, Bulletproof.hashed, Function.comp_def]
  unfold checkEngines
  rw [fed_updateHashes, fed_updateHashes, selected_append, selected_append, all (signedHashes _ _),
    all (outputs.map _), same]

variable [Field F]

def inputOpenings (scheme : Scheme F P S X) (privateKey : F) (value : OutPoint → U128)
    (inputProofs : AList fun _ : OutPoint => Bulletproof F P S) : List (Opening F) :=
  inputProofs.entries.map fun entry => inputOpening scheme privateKey value entry.1 entry.2

theorem filterMap_openingAt_keys :
    inputProofs.keys.filterMap (openingAt scheme privateKey value inputProofs) =
      inputOpenings scheme privateKey value inputProofs := by
  unfold inputOpenings AList.keys List.keys
  rw [List.filterMap_map, ← List.filterMap_eq_map]
  apply List.filterMap_congr
  intro entry mem
  have found : inputProofs.lookup entry.1 = some entry.2 := AList.mem_lookup_iff.mpr mem
  simp [openingAt, found]

theorem key_none_received {ins : List (Opening F)} {made : List (TokenPubkey × Opening F)} :
    key none ins (made.map received) = key none ins (made.map Prod.snd) := by
  simp [key, blinding, selected, selects, received, Function.comp_def]

variable [AddCommGroup P] [Module F P]

/-- Each input commits to its value, under the key that the wallet shares with its sender. -/
def OpensInputs (scheme : Scheme F P S X) (privateKey : F) (value : OutPoint → U128)
    (inputProofs : AList fun _ : OutPoint => Bulletproof F P S) : Prop :=
  ∀ entry ∈ inputProofs.entries, ∃ key ∈ scheme.ecdh privateKey entry.2.senderKey,
    entry.2.commitment = commit scheme.curve ((value entry.1).val : F) key

/-- The amounts of each token balance. -/
def Balances (F : Type) [Field F] {P S : Type} (value : OutPoint → U128)
    (inputProofs : AList fun _ : OutPoint => Bulletproof F P S)
    (bulletproofOutputs : AList fun _ : Option OutPoint => Recipients) : Prop :=
  ∀ token,
    (selected (some token) (inputProofs.entries.map fun entry =>
      (entry.2.receipt.tokenPubkey, ((value entry.1).val : F)))).sum =
    (selected (some token) ((bulletproofOutputs.entries.flatMap Sigma.snd).map fun recipient =>
      (recipient.1, (recipient.2.amount.val : F)))).sum

theorem committed_inputs (opens : OpensInputs scheme privateKey value inputProofs) :
    (inputProofs.entries.map Sigma.snd).map Bulletproof.committed =
      (inputOpenings scheme privateKey value inputProofs).map (committed scheme.curve) := by
  unfold inputOpenings
  rw [List.map_map, List.map_map]
  apply List.map_congr_left
  intro entry mem
  obtain ⟨key, shared, opened⟩ := opens entry mem
  simp only [Option.mem_def] at shared
  simp [Bulletproof.committed, committed, inputOpening, shared, opened]

theorem createBulletproofOutputs_spec {signing : Signing F P} {engines : Engines}
    {made : List (TokenPubkey × Opening F)} (tokens : made.map Prod.fst = recipients.map Prod.fst)
    (opened : signing.commitments.map CommitmentResult.committed =
      (made.map Prod.snd).map (committed scheme.curve))
    (done : createBulletproofOutputs scheme privateKey signing engines recipients = .ok outputs) :
    outputs.map Bulletproof.committed = (made.map received).map (committed scheme.curve) ∧
      signedHashes made outputs = signing.commitments.map CommitmentResult.hashed ∧
      ∃ key, signing.keys.of none = some key ∧ ∀ output ∈ outputs,
        output.signature = scheme.signSchnorr (scheme.message (engines.fed none)) key ∧
        ∃ own, signing.keys.of (some output.receipt.tokenPubkey) = some own ∧
          output.tokenPubkeySignature = scheme.signSchnorr
            (scheme.message (engines.fed (some output.receipt.tokenPubkey))) own := by
  unfold createBulletproofOutputs at done
  cases general : signing.keys.general with
  | none =>
    rw [general] at done
    cases done
  | some key =>
    rw [general] at done
    obtain ⟨signatures, signed, done⟩ := bind_eq_ok.mp done
    obtain ⟨committed, hashed, each⟩ := builderOutputs_spec tokens opened done
    refine ⟨committed, hashed, key, general, ?_⟩
    intro output mem
    obtain ⟨signature, found⟩ := each output mem
    obtain ⟨own, engine, held, fed, tokenSignature⟩ := tokenSignatures_lookup signed found
    have engine_eq : engines.fed (some output.receipt.tokenPubkey) = engine := by
      simp [Engines.fed, fed]
    rw [engine_eq]
    exact ⟨signature, own, AList.mem_lookup_iff.mpr held, tokenSignature⟩

/-- Each input's token has a key for the checker, and for the token of each output the wallet has
signed under the same key and the same message as the checker: with the recipients under the
tokens of their inputs as with the recipients under their own. -/
def KeysAgree (scheme : Scheme F P S X) (ins : List (Opening F))
    (made : List (TokenPubkey × Opening F)) (inputs outputs : List (Bulletproof F P S)) : Prop :=
  (∀ input ∈ inputs, key (some input.receipt.tokenPubkey) ins (made.map received) ≠ 0) ∧
  ∀ output ∈ outputs,
    scheme.toXOnly
        (key (some output.receipt.tokenPubkey) ins (made.map received) • scheme.curve.g) =
      scheme.toXOnly
        (key (some output.receipt.tokenPubkey) ins (made.map Prod.snd) • scheme.curve.g) ∧
    scheme.message ((checkEngines inputs (outputs.map Bulletproof.hashed)).fed
        (some output.receipt.tokenPubkey)) =
      scheme.message ((checkEngines inputs (signedHashes made outputs)).fed
        (some output.receipt.tokenPubkey))

/-- The outputs that the wallet makes of what is asked for, with signatures under the keys of the
openings for what it has hashed. -/
structure SignedOutputs (scheme : Scheme F P S X) (ins : List (Opening F))
    (made : List (TokenPubkey × Opening F)) (inputs outputs : List (Bulletproof F P S)) : Prop where
  opens : outputs.map Bulletproof.committed = (made.map received).map (committed scheme.curve)
  funded : ∀ output ∈ outputs, ∃ input ∈ inputs,
    input.receipt.tokenPubkey = output.receipt.tokenPubkey
  general : key none ins (made.map Prod.snd) ≠ 0 ∧ ∀ output ∈ outputs,
    output.signature = scheme.signSchnorr (scheme.message
      ((checkEngines inputs (signedHashes made outputs)).fed none)) (key none ins (made.map Prod.snd))
  own : ∀ output ∈ outputs, key (some output.receipt.tokenPubkey) ins (made.map Prod.snd) ≠ 0 ∧
    output.tokenPubkeySignature = scheme.signSchnorr (scheme.message ((checkEngines inputs
        (signedHashes made outputs)).fed (some output.receipt.tokenPubkey)))
      (key (some output.receipt.tokenPubkey) ins (made.map Prod.snd))

section

variable [DecidableEq P] {ins : List (Opening F)} {made : List (TokenPubkey × Opening F)}

/-- Balanced outputs of the wallet are accepted exactly when the keys and messages agree, if
signatures are binding. -/
theorem SignedOutputs.check_ok_iff (lawful : scheme.Lawful)
    (signed : SignedOutputs scheme ins made inputs outputs)
    (opensIns : (inputs.map Bulletproof.committed).Perm (ins.map (committed scheme.curve)))
    (balanced : ∀ who, amount who ins = amount who (made.map received)) :
    (KeysAgree scheme ins made inputs outputs →
        checkBulletproofConservationRules scheme inputs outputs = .ok ()) ∧
      (scheme.Binding → (checkBulletproofConservationRules scheme inputs outputs = .ok () ↔
        KeysAgree scheme ins made inputs outputs)) := by
  obtain ⟨nonzero, signatures⟩ := signed.general
  rw [← key_none_received] at nonzero signatures
  have length : made.length = outputs.length := by
    simpa using (congrArg List.length signed.opens).symm
  have accepted := Confidential.check_ok_iff lawful.g_ne_zero opensIns signed.opens balanced
    nonzero signed.funded (by
      intro output mem
      rw [signatures output mem, fed_none_signedHashes length]
      exact lawful.verify_sign _ _ nonzero)
  have agrees : KeysAgree scheme ins made inputs outputs →
      checkBulletproofConservationRules scheme inputs outputs = .ok () := by
    rintro ⟨present, agree⟩
    refine accepted.mpr ⟨present, fun output mem => ?_⟩
    obtain ⟨sameKey, sameMessage⟩ := agree output mem
    rw [verified, (signed.own output mem).2, sameKey, sameMessage]
    exact lawful.verify_sign _ _ (signed.own output mem).1
  refine ⟨agrees, fun binding => ⟨fun passed => ?_, agrees⟩⟩
  obtain ⟨present, verifies⟩ := accepted.mp passed
  refine ⟨present, fun output mem => ?_⟩
  have verifies := verifies output mem
  rw [verified, (signed.own output mem).2] at verifies
  exact binding _ _ _ _ (signed.own output mem).1 verifies

end

/-- What the wallet assembles are such outputs, with the amounts that were asked for. -/
theorem signedOutputs_of_assembled [DecidableEq F] (lawful : scheme.Lawful)
    {random : Option OutPoint → Nat → Randomness F}
    (done : processBulletproofOutputs scheme random privateKey false bulletproofOutputs
      inputProofs = .ok outputs) (transfers : ∀ key ∈ bulletproofOutputs.keys, key.isSome)
    (listed : ∀ outpoint ∈ inputProofs.keys, some outpoint ∈ bulletproofOutputs.keys)
    (opensIns : (inputs.map Bulletproof.committed).Perm
      ((inputOpenings scheme privateKey value inputProofs).map (committed scheme.curve)))
    (spent : inputs.Perm (inputProofs.entries.map Sigma.snd)) :
    let made := Asked.made scheme privateKey inputProofs bulletproofOutputs.entries
    SignedOutputs scheme (inputOpenings scheme privateKey value inputProofs) made inputs outputs ∧
      made.map (fun made => (made.1, made.2.v)) =
        (bulletproofOutputs.entries.flatMap Sigma.snd).map fun recipient =>
          (recipient.1, (recipient.2.amount.val : F)) := by
  obtain ⟨⟨signing, issued⟩, ran, done⟩ := bind_eq_ok.mp done
  obtain ⟨created, creation, done⟩ := bind_eq_ok.mp done
  obtain rfl := pure_eq_ok.mp done
  have noIssuance : ∀ entry ∈ bulletproofOutputs.entries, entry.1.isSome :=
    fun entry mem => transfers entry.1 (List.mem_map_of_mem mem)
  obtain ⟨rfl, found, amounts, keyed, opened⟩ := signed_tweakAll value
    (fun _ => lawful.ecdh_ne_zero) noIssuance ⟨Keyed.initial, rfl⟩ ran
  rw [List.nil_append, List.nil_append] at keyed
  rw [List.nil_append] at opened ⊢
  have tokens := congrArg (List.map Prod.fst) amounts
  rw [List.map_map, List.map_map] at tokens
  obtain ⟨committed, hashed, general, generalKey, each⟩ :=
    createBulletproofOutputs_spec tokens opened creation
  have fed := fed_walletEngines spent hashed
  have perm := (outpoints_perm listed found).filterMap
    (openingAt scheme privateKey value inputProofs)
  rw [filterMap_openingAt_keys] at perm
  have keys : ∀ who own, signing.keys.of who = some own → own ≠ 0 ∧
      own = key who (inputOpenings scheme privateKey value inputProofs)
        ((Asked.made scheme privateKey inputProofs bulletproofOutputs.entries).map Prod.snd) := by
    intro who own present
    rw [← key_perm perm]
    exact keyed.present who own present
  refine ⟨⟨committed, ?_, ?_, ?_⟩, amounts⟩
  · -- each output has the token of an input, since the wallet has a key for it
    intro output mem
    obtain ⟨-, own, present, -⟩ := each output mem
    obtain ⟨opening, isInput, same⟩ := keyed.exists_input present
    obtain ⟨input, mem', opens⟩ := List.mem_map.mp
      (opensIns.mem_iff.mpr (List.mem_map_of_mem (perm.mem_iff.mp isInput)))
    have token : input.receipt.tokenPubkey = opening.token := congrArg Prod.fst opens
    exact ⟨input, mem', token.trans (by simpa [selects] using same)⟩
  · obtain ⟨nonzero, rfl⟩ := keys none general generalKey
    refine ⟨nonzero, fun output mem => ?_⟩
    rw [← fed]
    exact (each output mem).1
  · intro output mem
    obtain ⟨-, own, present, signature⟩ := each output mem
    obtain ⟨nonzero, rfl⟩ := keys _ own present
    refine ⟨nonzero, ?_⟩
    rw [← fed]
    exact signature

end Assembled

/-! ### Conservation -/

section Opened

variable [Field F] [AddCommGroup P] [Module F P]

/-- A proof whose commitment is one to `v` under the blinding `r`. -/
structure Opened (F P S : Type) where
  proof : Bulletproof F P S
  v : F
  r : F

namespace Opened

def under (curve : Curve F P) (opened : Opened F P S) : Bulletproof F P S :=
  { opened.proof with commitment := commit curve opened.v opened.r }

def opening (opened : Opened F P S) : Opening F :=
  ⟨opened.proof.receipt.tokenPubkey, opened.v, opened.r⟩

/-- The blindings of the inputs of a token less those of the outputs. -/
def blinding (token : TokenPubkey) (ins outs : List (Opened F P S)) : F :=
  Opening.key (some token) (ins.map opening) (outs.map opening)

/-- The amounts of the inputs of a token less those of the outputs. -/
def surplus (token : TokenPubkey) (ins outs : List (Opened F P S)) : F :=
  Opening.amount (some token) (ins.map opening) - Opening.amount (some token) (outs.map opening)

end Opened

variable {token : TokenPubkey} {ins outs : List (Opened F P S)}

theorem pubkeyCommitment_opened (curve : Curve F P) :
    pubkeyCommitment (ins.map (Opened.under curve)) (outs.map (Opened.under curve))
        (hasToken token) =
      Opened.blinding token ins outs • curve.g + Opened.surplus token ins outs • curve.h := by
  have opens : ∀ proofs : List (Opened F P S),
      (proofs.map (Opened.under curve)).map Bulletproof.committed =
        (proofs.map Opened.opening).map (Opening.committed curve) := by
    intro proofs
    rw [List.map_map, List.map_map]
    rfl
  have whole := @pubkeyCommitment_eq F P S _ _ _ curve (some token) _ _ _ _
    (.of_eq (opens ins)) (opens outs)
  exact whole

/-- A multiple of the generator is one because the amounts balance, or it gives the other
generator away. -/
theorem eq_smul_iff {R V x : F} {g h : P} (proper : g ≠ 0) :
    R • g + V • h = x • g ↔ (V = 0 ∧ x = R) ∨ (V ≠ 0 ∧ h = ((x - R) / V) • g) := by
  by_cases balanced : V = 0
  · simp only [balanced, zero_smul, add_zero, ne_eq, not_true_eq_false, false_and, or_false,
      true_and]
    constructor
    · intro same
      exact (smul_left_injective F proper same).symm
    · rintro rfl
      rfl
  · have moved : R • g + V • h = x • g ↔ V • h = (x - R) • g := by
      rw [sub_smul, eq_sub_iff_add_eq, add_comm]
    have divided : V • h = (x - R) • g ↔ h = ((x - R) / V) • g := by
      rw [div_eq_inv_mul, mul_smul]
      constructor
      · intro same
        rw [← same, inv_smul_smul₀ balanced]
      · rintro rfl
        rw [smul_inv_smul₀ balanced]
    simp [balanced, moved, divided]

/-- One scalar serves every choice of the other generator only when the amounts balance. -/
theorem uniform_iff {R V : F} {g : P} (proper : g ≠ 0) :
    (∃ x : F, ∀ h : P, R • g + V • h = x • g) ↔ V = 0 := by
  constructor
  · rintro ⟨x, always⟩
    have atZero := always 0
    have atG := always g
    rw [smul_zero, add_zero] at atZero
    rw [← atZero, add_eq_left] at atG
    exact (smul_eq_zero.mp atG).resolve_right proper
  · rintro rfl
    exact ⟨R, fun h => by rw [zero_smul, add_zero]⟩

end Opened

/-- The key for a token is that of the openings, and a known multiple of the generator exactly
when the amounts balance; and a balanced transfer that the wallet assembles is accepted when the
keys and messages agree, and only then if signatures are binding. -/
theorem confidential_conservation [Field F] [AddCommGroup P] [Module F P] [DecidableEq F]
    [DecidableEq P] (scheme : Scheme F P S X) (lawful : scheme.Lawful) :
    (∀ (ins outs : List (Opened F P S)) (token : TokenPubkey),
      derivePubkey scheme (ins.map (Opened.under scheme.curve))
          (outs.map (Opened.under scheme.curve)) (hasToken token) =
        (if Opened.blinding token ins outs • scheme.curve.g +
            Opened.surplus token ins outs • scheme.curve.h = 0 then .error .invalidPublicKey
        else .ok (scheme.toXOnly (Opened.blinding token ins outs • scheme.curve.g +
          Opened.surplus token ins outs • scheme.curve.h))) ∧
      (∀ x : F, pubkeyCommitment (ins.map (Opened.under scheme.curve))
            (outs.map (Opened.under scheme.curve)) (hasToken token) = x • scheme.curve.g ↔
          (Opened.surplus token ins outs = 0 ∧ x = Opened.blinding token ins outs) ∨
          (Opened.surplus token ins outs ≠ 0 ∧ scheme.curve.h =
            ((x - Opened.blinding token ins outs) / Opened.surplus token ins outs) •
              scheme.curve.g)) ∧
      ((∃ x : F, ∀ h : P,
          pubkeyCommitment (ins.map (Opened.under { scheme.curve with h }))
            (outs.map (Opened.under { scheme.curve with h })) (hasToken token) =
              x • scheme.curve.g) ↔
        Opened.surplus token ins outs = 0)) ∧
    ∀ (random : Option OutPoint → Nat → Randomness F) (privateKey : F)
      (bulletproofOutputs : AList fun _ : Option OutPoint => Recipients)
      (inputProofs : AList fun _ : OutPoint => Bulletproof F P S) (value : OutPoint → U128)
      (inputs outputs : List (Bulletproof F P S)),
      processBulletproofOutputs scheme random privateKey false bulletproofOutputs inputProofs =
        .ok outputs →
      (∀ key ∈ bulletproofOutputs.keys, key.isSome) →
      (∀ outpoint ∈ inputProofs.keys, some outpoint ∈ bulletproofOutputs.keys) →
      OpensInputs scheme privateKey value inputProofs →
      Balances F value inputProofs bulletproofOutputs →
      inputs.Perm (inputProofs.entries.map Sigma.snd) →
      let agree := KeysAgree scheme (inputOpenings scheme privateKey value inputProofs)
        (Asked.made scheme privateKey inputProofs bulletproofOutputs.entries) inputs outputs
      (agree → checkBulletproofConservationRules scheme inputs outputs = .ok ()) ∧
      (scheme.Binding →
        (checkBulletproofConservationRules scheme inputs outputs = .ok () ↔ agree)) := by
  refine ⟨?_, ?_⟩
  · intro ins outs token
    refine ⟨?_, ?_, ?_⟩
    · simp only [derivePubkey, pubkeyCommitment_opened]
    · intro x
      rw [pubkeyCommitment_opened]
      exact eq_smul_iff lawful.g_ne_zero
    · simp only [pubkeyCommitment_opened]
      exact uniform_iff lawful.g_ne_zero
  · intro random privateKey bulletproofOutputs inputProofs value inputs outputs done transfers
      listed opens balanced spent
    have opensIns := spent.map Bulletproof.committed
    rw [committed_inputs opens] at opensIns
    obtain ⟨signed, amounts⟩ :=
      signedOutputs_of_assembled lawful done transfers listed opensIns spent
    refine signed.check_ok_iff lawful opensIns fun who => ?_
    rw [amount, amount, List.map_map, inputOpenings, List.map_map]
    refine (selected_sum_eq balanced).trans ?_
    rw [← amounts]
    rfl

/-! A group of seven elements, where a signature is the message and the secret key. -/

instance primeSeven : Fact (Nat.Prime 7) := ⟨by decide⟩

def smallCurve : Curve (ZMod 7) (ZMod 7) where
  g := 1
  h := 3
  gBold := List.replicate rangeProofSize 1
  hBold := List.replicate rangeProofSize 2
  gBold_length := List.length_replicate
  hBold_length := List.length_replicate
  encode := fun point => [UInt8.ofNat point.val]
  challenge := fun _ => 1

/-- The key shared with a public key is read off its first byte. -/
def smallScheme : Scheme (ZMod 7) (ZMod 7) (Bytes32 × ZMod 7) (ZMod 7) where
  curve := smallCurve
  toXOnly := id
  sha256 := fun _ => List.Vector.replicate 32 0
  proofHash := fun commitment _ => List.Vector.replicate 32 (UInt8.ofNat commitment.val)
  signSchnorr := fun message key => (message, key)
  verifySchnorr := fun signature message point => signature = (message, point)
  publicKey := fun _ => ⟨false, List.Vector.replicate 32 1⟩
  ecdh := fun _ key =>
    let shared : ZMod 7 := (key.x.head.toNat : ZMod 7)
    if shared = 0 then none else some shared

theorem smallScheme_lawful : smallScheme.Lawful where
  ecdh_ne_zero := by
    intro privateKey publicKey key shared
    simp only [smallScheme, Option.mem_def] at shared
    split at shared
    · cases shared
    · obtain rfl := Option.some.inj shared
      assumption
  verify_sign := by
    intro message key _
    simp [smallScheme, smallCurve]
  g_ne_zero := by decide

theorem smallScheme_binding : smallScheme.Binding := by
  intro message key message' xonly _ verifies
  simp only [smallScheme, decide_eq_true_eq, Prod.mk.injEq] at verifies
  exact ⟨by simp [smallScheme, smallCurve, verifies.2], verifies.1.symm⟩

def keyOf (n : UInt8) : PublicKey := ⟨false, List.Vector.replicate 32 n⟩

/-- An input of five units of a token, from a sender. -/
def inputOf (token sender : UInt8) : Bulletproof (ZMod 7) (ZMod 7) (Bytes32 × ZMod 7) where
  receipt := ⟨TokenAmount.new 0, keyOf token⟩
  innerKey := keyOf 1
  senderKey := keyOf sender
  commitment := commit smallCurve 5 ((sender.toNat : Nat) : ZMod 7)
  proof := ⟨0, ⟨[], [], 0, 0, 0, 0, 0⟩⟩
  signature := (List.Vector.replicate 32 0, 0)
  tokenPubkeySignature := (List.Vector.replicate 32 0, 0)

def twoInputs : AList fun _ : OutPoint => Bulletproof (ZMod 7) (ZMod 7) (Bytes32 × ZMod 7) :=
  AList.insert ⟨1, 0⟩ (inputOf 10 1) (AList.insert ⟨1, 1⟩ (inputOf 11 4) ∅)

/-- Five units of token `11` under the input of token `10`, and of token `10` for a recipient under
the input of token `11`. -/
def crossedFor (recipient : UInt8) : AList fun _ : Option OutPoint => Recipients :=
  AList.insert (some ⟨1, 0⟩) [(keyOf 11, ⟨keyOf 2, 5, 0⟩)]
    (AList.insert (some ⟨1, 1⟩) [(keyOf 10, ⟨keyOf recipient, 5, 0⟩)] ∅)

def smallRandom : Option OutPoint → Nat → Randomness (ZMod 7) :=
  fun _ _ => ⟨1, ⟨fun _ => 1, fun _ => 2, 1, 2, 0, 1⟩⟩

def crossedOutputs (recipient : UInt8) :
    Except WalletError (List (Bulletproof (ZMod 7) (ZMod 7) (Bytes32 × ZMod 7))) :=
  processBulletproofOutputs smallScheme smallRandom 1 false (crossedFor recipient) twoInputs

theorem twoInputs_open : OpensInputs smallScheme 1 (fun _ => 5) twoInputs := by
  intro entry mem
  have cases : entry = ⟨⟨1, 0⟩, inputOf 10 1⟩ ∨ entry = ⟨⟨1, 1⟩, inputOf 11 4⟩ := by
    simpa [twoInputs] using mem
  rcases cases with rfl | rfl
  · exact ⟨1, by decide, rfl⟩
  · exact ⟨4, by decide, rfl⟩

theorem crossedFor_balances (recipient : UInt8) :
    Balances (ZMod 7) (fun _ => 5) twoInputs (crossedFor recipient) := by
  intro token
  exact (selected_perm (.swap (keyOf 11, (5 : ZMod 7)) (keyOf 10, 5) [])).sum_eq

theorem exists_of_isOk {ε α : Type} {result : Except ε (List α)} (done : result.isOk = true) :
    result = .ok (result.toOption.getD []) := by
  cases result with
  | error failure => cases done
  | ok outputs => rfl

/-- Crossed tokens are accepted where both recipients are one. -/
theorem confidential_conservation_one_recipient :
    ∃ outputs, crossedOutputs 2 = .ok outputs ∧ smallScheme.Binding ∧
      checkBulletproofConservationRules smallScheme (twoInputs.entries.map Sigma.snd) outputs =
        .ok () := by
  have assembled := exists_of_isOk (show (crossedOutputs 2).isOk = true by decide +kernel)
  refine ⟨_, assembled, smallScheme_binding, ?_⟩
  have exactly := (confidential_conservation smallScheme smallScheme_lawful).2 smallRandom 1
    (crossedFor 2) twoInputs (fun _ => 5) _ _ assembled (by decide) (by decide) twoInputs_open
    (crossedFor_balances 2) (.refl _)
  refine (exactly.2 smallScheme_binding).mpr ?_
  simp only [KeysAgree, checkEngines, updateHashes_append]
  decide +kernel

theorem crossed_tokens_rejected :
    ∃ outputs, crossedOutputs 5 = .ok outputs ∧ smallScheme.Lawful ∧
      (∀ key ∈ (crossedFor 5).keys, key.isSome) ∧
      (∀ outpoint ∈ twoInputs.keys, some outpoint ∈ (crossedFor 5).keys) ∧
      OpensInputs smallScheme 1 (fun _ => 5) twoInputs ∧
      Balances (ZMod 7) (fun _ => 5) twoInputs (crossedFor 5) ∧
      checkBulletproofConservationRules smallScheme (twoInputs.entries.map Sigma.snd) outputs =
        .error .conservationRulesViolated := by
  refine ⟨_, exists_of_isOk (show (crossedOutputs 5).isOk = true by decide +kernel),
    smallScheme_lawful, by decide, by decide, twoInputs_open, crossedFor_balances 5, ?_⟩
  rw [checkBulletproofConservationRules, updateHashes_append]
  decide +kernel

end Lrc20.Confidential
