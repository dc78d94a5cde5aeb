import Mathlib.Data.List.AList
import Lrc20.RangeProof.Range
import Lrc20.Receipts.Consensus

/-! Transfers with the `bulletproof` feature: how the wallet assembles the outputs, and how the
checker verifies that nothing was created. -/

open Lrc20.RangeProofs

namespace Lrc20.Confidential

/-- The curve and the functions of the `secp256k1`, `bitcoin` and `bulletproof` crates, over scalars
`F`, points `P`, signatures `S` and x-only keys `X`. -/
structure Scheme (F P S X : Type) where
  curve : Curve F P
  toXOnly : P → X
  sha256 : Bytes → Bytes32
  proofHash : P → RangeProofs.RangeProof F P → Bytes32
  signSchnorr : Bytes32 → F → S
  verifySchnorr : S → Bytes32 → X → Bool
  publicKey : F → PublicKey
  ecdh : F → PublicKey → Option F

structure Bulletproof (F P S : Type) where
  receipt : Receipt
  innerKey : PublicKey
  senderKey : PublicKey
  commitment : P
  proof : RangeProofs.RangeProof F P
  signature : S
  tokenPubkeySignature : S

/-- The bytes fed to the hash engines, of all proofs and of those of each token. -/
abbrev Engines := Bytes × AList fun _ : TokenPubkey => Bytes

def updateHashes (engines : Engines) (proofs : List (TokenPubkey × Bytes)) : Engines :=
  proofs.foldl (fun engines proof =>
    (engines.1 ++ proof.2,
      engines.2.insert proof.1 ((engines.2.lookup proof.1).getD [] ++ proof.2))) engines

section

variable {F P S X : Type} [Field F] [AddCommGroup P] [Module F P]

/-- What a proof adds to the hash engines. -/
def Bulletproof.hashed (proof : Bulletproof F P S) : TokenPubkey × Bytes :=
  (proof.receipt.tokenPubkey, proof.receipt.tokenAmount.toBytes)

/-- The message signed for what an engine was fed. -/
def Scheme.message (scheme : Scheme F P S X) (engine : Bytes) : Bytes32 :=
  scheme.sha256 (scheme.sha256 engine).toList

/-! ### The checker -/

inductive CheckError where
  | invalidPublicKey
  | publicKeyNotFound
  | messageKeyNotFound
  | conservationRulesViolated
deriving DecidableEq

def combineCommitments (initPoint : P) (proofs : List (Bulletproof F P S)) (op : P → P → P)
    (filter : Bulletproof F P S → Bool) : P :=
  (proofs.filter filter).foldl (fun acc bulletproof => op acc bulletproof.commitment) initPoint

/-- The point of `derive_pubkey`. -/
def pubkeyCommitment (inputs outputs : List (Bulletproof F P S))
    (filter : Bulletproof F P S → Bool) : P :=
  combineCommitments (combineCommitments 0 inputs (· + ·) filter) outputs (· - ·) filter

/-- The identity has no encoding as a public key. -/
def derivePubkey [DecidableEq P] (scheme : Scheme F P S X)
    (inputs outputs : List (Bulletproof F P S)) (filter : Bulletproof F P S → Bool) :
    Except CheckError X :=
  let point := pubkeyCommitment inputs outputs filter
  if point = 0 then .error .invalidPublicKey else .ok (scheme.toXOnly point)

/-- The proof is of the given token. -/
def hasToken (token : TokenPubkey) (proof : Bulletproof F P S) : Bool :=
  proof.receipt.tokenPubkey = token

/-- The public keys for each token of the inputs. -/
def tokenPubkeyXonlys [DecidableEq P] (scheme : Scheme F P S X)
    (inputs outputs : List (Bulletproof F P S)) :
    List TokenPubkey → Except CheckError (AList fun _ : TokenPubkey => X)
  | [] => .ok ∅
  | token :: rest => do
      let xonly ← derivePubkey scheme inputs outputs (hasToken token)
      let xonlys ← tokenPubkeyXonlys scheme inputs outputs rest
      pure (xonlys.insert token xonly)

def verifySignatures (scheme : Scheme F P S X) (proof : Bulletproof F P S)
    (xonlys : AList fun _ : TokenPubkey => X) (engines : Engines) (general : X) :
    Except CheckError Unit :=
  match xonlys.lookup proof.receipt.tokenPubkey with
  | none => .error .publicKeyNotFound
  | some xonly =>
    match engines.2.lookup proof.receipt.tokenPubkey with
    | none => .error .messageKeyNotFound
    | some engine =>
      if !scheme.verifySchnorr proof.signature (scheme.message engines.1) general then
        .error .conservationRulesViolated
      else if !scheme.verifySchnorr proof.tokenPubkeySignature (scheme.message engine) xonly then
        .error .conservationRulesViolated
      else .ok ()

def verifyAll (scheme : Scheme F P S X) (xonlys : AList fun _ : TokenPubkey => X)
    (engines : Engines) (general : X) : List (Bulletproof F P S) → Except CheckError Unit
  | [] => .ok ()
  | proof :: rest => do
      verifySignatures scheme proof xonlys engines general
      verifyAll scheme xonlys engines general rest

def sortByHash (proofs : List (TokenPubkey × Bytes)) : List (TokenPubkey × Bytes) :=
  proofs.mergeSort fun a b => decide (a.2 ≤ b.2)

def checkBulletproofConservationRules [DecidableEq P] (scheme : Scheme F P S X)
    (inputs outputs : List (Bulletproof F P S)) : Except CheckError Unit := do
  let general ← derivePubkey scheme inputs outputs fun _ => true
  let tokens := (inputs.map fun proof => proof.receipt.tokenPubkey).dedup
  let xonlys ← tokenPubkeyXonlys scheme inputs outputs tokens
  let engines := updateHashes ([], ∅)
    (sortByHash (inputs.map Bulletproof.hashed) ++ outputs.map Bulletproof.hashed)
  verifyAll scheme xonlys engines general outputs

/-! ### The wallet -/

structure RecipientParameters where
  recipient : PublicKey
  amount : U128
  satoshis : UInt64

structure CommitmentResult (F P : Type) where
  proof : RangeProofs.RangeProof F P
  commitment : P
  proofHash : Bytes32

/-- What an output adds to the hash engines. -/
def CommitmentResult.hashed (commitment : TokenPubkey × CommitmentResult F P) :
    TokenPubkey × Bytes :=
  (commitment.1, commitment.2.proofHash.toList)

inductive WalletError where
  | inputNotFound
  | invalidRangeProof
  | signatureMissing
  | panicked
deriving DecidableEq

/-- The keys of the signatures: for all proofs, and for each token. -/
structure SigningKeys (F : Type) where
  general : Option F
  tokens : AList fun _ : TokenPubkey => F

structure Signing (F P : Type) where
  keys : SigningKeys F
  commitments : List (TokenPubkey × CommitmentResult F P)

/-- A secret key is not zero. -/
def addTweak [DecidableEq F] (key tweak : F) : Except WalletError F :=
  if key + tweak = 0 then .error .invalidRangeProof else .ok (key + tweak)

/-- What `tweak` makes of a key that is there, or not yet. -/
def tweakKey [DecidableEq F] (tweak dhKey : F) : Option F → Except WalletError F
  | some key => addTweak key tweak
  | none => .ok dhKey

def tweak [DecidableEq F] (scalar : F) (keys : SigningKeys F) (token : TokenPubkey) (dhKey : F) :
    Except WalletError (SigningKeys F) := do
  let general ← tweakKey scalar dhKey keys.general
  let key ← tweakKey scalar dhKey (keys.tokens.lookup token)
  pure ⟨some general, keys.tokens.insert token key⟩

/-- `get_commitment`: `random` is what `generate` draws. -/
def getCommitment [DecidableEq F] (scheme : Scheme F P S X) (privateKey : F) (publicKey : PublicKey)
    (amount : U128) (random : Randomness F) : Except WalletError (F × CommitmentResult F P) :=
  match scheme.ecdh privateKey publicKey with
  | none => .error .invalidRangeProof
  | some dhKey =>
    match generate scheme.curve amount dhKey random with
    | none => .error .panicked
    | some (proof, commitment) =>
      .ok (dhKey, ⟨proof, commitment, scheme.proofHash commitment proof⟩)

/-- The loop of `tweak_signing_keys` over the recipients under an input; `drawn` counts them. -/
def tweakRecipients [DecidableEq F] (scheme : Scheme F P S X) (random : Nat → Randomness F)
    (privateKey : F) (token : TokenPubkey) (inputDhKey : F) :
    List (PublicKey × U128) → Nat → Signing F P → Except WalletError (Signing F P)
  | [], _, signing => .ok signing
  | (recipient, amount) :: rest, drawn, signing => do
      let (dhKey, result) ← getCommitment scheme privateKey recipient amount (random drawn)
      let keys ← tweak (-dhKey) signing.keys token inputDhKey
      tweakRecipients scheme random privateKey token inputDhKey rest (drawn + 1)
        ⟨keys, signing.commitments ++ [(token, result)]⟩

def tweakSigningKeys [DecidableEq F] (scheme : Scheme F P S X) (random : Nat → Randomness F)
    (privateKey : F) (bulletproof : Bulletproof F P S) (recipients : List (PublicKey × U128))
    (signing : Signing F P) : Except WalletError (Signing F P) :=
  match scheme.ecdh privateKey bulletproof.senderKey with
  | none => .error .invalidRangeProof
  | some inputDhKey => do
      let token := bulletproof.receipt.tokenPubkey
      let keys ← tweak inputDhKey signing.keys token inputDhKey
      tweakRecipients scheme random privateKey token inputDhKey recipients 0
        ⟨keys, signing.commitments⟩

/-- The outputs asked for under one input, each of a token. -/
abbrev Recipients := List (TokenPubkey × RecipientParameters)

/-- `process_bulletproof_issuance`: the outputs of an issuance, with signatures that nobody
checks. -/
def processBulletproofIssuance [DecidableEq F] (scheme : Scheme F P S X)
    (random : Nat → Randomness F) (privateKey : F) :
    Recipients → Nat → Except WalletError (List (Bulletproof F P S))
  | [], _ => .ok []
  | (token, params) :: rest, drawn => do
      let (dhKey, result) ← getCommitment scheme privateKey params.recipient params.amount
        (random drawn)
      let signature := scheme.signSchnorr (scheme.sha256 result.proofHash.toList) dhKey
      let others ← processBulletproofIssuance scheme random privateKey rest (drawn + 1)
      pure (⟨⟨.fromArray result.proofHash, token⟩, params.recipient, scheme.publicKey privateKey,
        result.commitment, result.proof, signature, signature⟩ :: others)

/-- `bulletproof_outputs`, in the order of its keys: the outputs asked for under each input, or
under none in an issuance. -/
abbrev Asked := List (Σ _ : Option OutPoint, Recipients)

/-- The loop of `process_bulletproof_outputs` over the inputs: the signing keys with the
commitments of a transfer, and the outputs of an issuance. -/
def tweakAll [DecidableEq F] (scheme : Scheme F P S X)
    (random : Option OutPoint → Nat → Randomness F) (privateKey : F)
    (inputProofs : AList fun _ : OutPoint => Bulletproof F P S) :
    Asked → Signing F P → Except WalletError (Signing F P × List (Bulletproof F P S))
  | [], signing => .ok (signing, [])
  | ⟨none, params⟩ :: rest, signing => do
      let issued ← processBulletproofIssuance scheme (random none) privateKey params 0
      let (signing, others) ← tweakAll scheme random privateKey inputProofs rest signing
      pure (signing, issued ++ others)
  | ⟨some outpoint, params⟩ :: rest, signing =>
    match inputProofs.lookup outpoint with
    | none => .error .inputNotFound
    | some bulletproof => do
        let signing ← tweakSigningKeys scheme (random (some outpoint)) privateKey bulletproof
          (params.map fun param => (param.2.recipient, param.2.amount)) signing
        tweakAll scheme random privateKey inputProofs rest signing

/-- The signatures of `create_signatures` for each token. -/
def tokenSignatures (scheme : Scheme F P S X) (engines : Engines) :
    List (Σ _ : TokenPubkey, F) → Except WalletError (AList fun _ : TokenPubkey => S)
  | [] => .ok ∅
  | ⟨token, key⟩ :: rest =>
    match engines.2.lookup token with
    | none => .error .invalidRangeProof
    | some engine => do
        let signatures ← tokenSignatures scheme engines rest
        pure (signatures.insert token (scheme.signSchnorr (scheme.message engine) key))

/-- The outputs of `create_bulletproof_outputs`: each takes the next commitment. -/
def builderOutputs (scheme : Scheme F P S X) (privateKey : F) (signature : S)
    (signatures : AList fun _ : TokenPubkey => S) :
    Recipients → List (TokenPubkey × CommitmentResult F P) →
      Except WalletError (List (Bulletproof F P S))
  | [], _ => .ok []
  | _ :: _, [] => .error .panicked
  | (token, params) :: rest, (_, result) :: commitments =>
    match signatures.lookup token with
    | none => .error .signatureMissing
    | some tokenSignature => do
        let others ← builderOutputs scheme privateKey signature signatures rest commitments
        pure (⟨⟨.fromArray result.proofHash, token⟩, params.recipient,
          scheme.publicKey privateKey, result.commitment, result.proof, signature,
          tokenSignature⟩ :: others)

def createBulletproofOutputs (scheme : Scheme F P S X) (privateKey : F) (signing : Signing F P)
    (engines : Engines) (outputs : Recipients) : Except WalletError (List (Bulletproof F P S)) :=
  match signing.keys.general with
  | none => .error .panicked
  | some key => do
      let signatures ← tokenSignatures scheme engines signing.keys.tokens.entries
      builderOutputs scheme privateKey (scheme.signSchnorr (scheme.message engines.1) key)
        signatures outputs signing.commitments

/-- `process_bulletproof_outputs`: the proofs of the outputs it adds. -/
def processBulletproofOutputs [DecidableEq F] (scheme : Scheme F P S X)
    (random : Option OutPoint → Nat → Randomness F) (privateKey : F) (isIssuance : Bool)
    (bulletproofOutputs : AList fun _ : Option OutPoint => Recipients)
    (inputProofs : AList fun _ : OutPoint => Bulletproof F P S) :
    Except WalletError (List (Bulletproof F P S)) := do
  let (signing, issued) ← tweakAll scheme random privateKey inputProofs
    bulletproofOutputs.entries ⟨⟨none, ∅⟩, []⟩
  if isIssuance then pure issued
  else
    let mappedInputs := inputProofs.entries.map fun entry => entry.2.hashed
    let engines := updateHashes ([], ∅) (sortByHash mappedInputs)
    let engines := updateHashes engines (signing.commitments.map CommitmentResult.hashed)
    let created ← createBulletproofOutputs scheme privateKey signing engines
      (bulletproofOutputs.entries.flatMap Sigma.snd)
    pure (issued ++ created)

end

end Lrc20.Confidential
