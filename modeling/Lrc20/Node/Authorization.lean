import Lrc20.Node.Links

/-! Who has agreed to a Spark transfer by the time it is finalized. -/

open Lrc20.Storage Lrc20.TxCheck Runs SparkTables

namespace Lrc20.Storage.SparkTables

def revocationSecret (tables : SparkTables) (place : SparkOutPoint) : Option SecretKey :=
  (tables.output place).bind SparkOutputRow.revocationSecretKey

end Lrc20.Storage.SparkTables

namespace Lrc20.Node

variable {prims : Primitives} {tables : SparkTables} {stored : List TokenTransaction}
  {hashed : Set Bytes} {node : SparkNode} {place : SparkOutPoint} {tx : TokenTransaction}
  {data : SparkSignatureData} {tables' : SparkTables} {leaf : TokenLeafOutput} {message : Bytes32}
  {validateAnnouncement : Bool}

/-- The leaf a stored transaction creates at a place. -/
def IsLeaf (prims : Primitives) (stored : List TokenTransaction) (place : SparkOutPoint)
    (leaf : TokenLeafOutput) : Prop :=
  ∃ parent ∈ stored, parent.hash prims = place.tokenTransactionHash ∧
    parent.leavesToCreate[place.outputIndex]? = some leaf

theorem IsLeaf.mono {stored' : List TokenTransaction} (isLeaf : IsLeaf prims stored place leaf)
    (more : ∀ tx ∈ stored, tx ∈ stored') : IsLeaf prims stored' place leaf := by
  obtain ⟨parent, mem, rest⟩ := isLeaf
  exact ⟨parent, more parent mem, rest⟩

/-- The known secrets are those of the revocation keys of their leaves. -/
def SecretsMatch (prims : Primitives) (tables : SparkTables) (stored : List TokenTransaction) :
    Prop :=
  ∀ place secret, tables.revocationSecret place = some secret →
    ∃ leaf, IsLeaf prims stored place leaf ∧ prims.publicKeyOf secret = leaf.revocationPublicKey

/-- The owner signature in the data, if there is one, is that of the owner of the input it
names, over the message or over the digest for the operator it names. -/
def OwnerSigned (prims : Primitives) (stored : List TokenTransaction) (tx : TokenTransaction)
    (data : SparkSignatureData) (message : Bytes32) : Prop :=
  ∀ owner ∈ data.operatorSpecificOwnerSignature,
    ∃ input leaf, tx.outputsToSpend[(owner.inputIndex.getD 0).toNat]? = some input ∧
      IsLeaf prims stored input.outPoint leaf ∧
      owner.ownerSignature.verify prims leaf.ownerPublicKey message owner.operatorIdentityPublicKey

/-- What was checked when signature data for a stored transaction was accepted. The message
is the hash of the transaction unless it had lost inputs. -/
structure Checked (prims : Primitives) (tables : SparkTables) (stored : List TokenTransaction)
    (tx : TokenTransaction) (data : SparkSignatureData) (message : Bytes32) : Prop where
  operator : data.operatorPubkey ∈ tx.sparkOperatorIdentityPublicKeys
  signed : data.operatorSignature.verify prims data.operatorPubkey message none
  intact : linkedInputs prims tables tx = tx.outputsToSpend →
    message = (restored tx tx.outputsToSpend).hash prims
  owner : ¬ tx.isMint → message = tx.hash prims → OwnerSigned prims stored tx data message

def OperatorsSigned (prims : Primitives) (verified : List (SparkSignatureData × SparkHash))
    (tx : TokenTransaction) : Prop :=
  ∃ operators : List PublicKey, operators.Nodup ∧ sparkThreshold ≤ operators.length ∧
    ∀ operator ∈ operators, operator ∈ tx.sparkOperatorIdentityPublicKeys ∧
      ∃ data, (data, tx.hash prims) ∈ verified ∧ data.tokenTxHash = tx.hash prims ∧
        data.operatorPubkey = operator ∧
        data.operatorSignature.verify prims operator (tx.hash prims) none

/-! ### What the checks of signatures do to the tables -/

/-- Rows, links and statuses stay, and no secret is lost. -/
structure Advances (tables tables' : SparkTables) : Prop where
  fixedRow : tables'.fixedRow = tables.fixedRow
  spender : tables'.spender = tables.spender
  status : ∀ hash, tables'.getTokenTransactionStatus hash = tables.getTokenTransactionStatus hash
  secrets : ∀ place, (tables.revocationSecret place).isSome →
    (tables'.revocationSecret place).isSome

/-- A change of a leaf that touches neither its fixed part nor its spender, and loses no secret. -/
theorem Advances.modifyOutput (advances : Advances tables tables')
    {change : SparkOutputRow → SparkOutputRow} (fixed : ∀ row, (change row).fixed = row.fixed)
    (spend : ∀ row, (change row).spend = row.spend)
    (secrets : ∀ other, (tables'.revocationSecret other).isSome →
      ((tables'.modifyOutput place change).revocationSecret other).isSome) :
    Advances tables (tables'.modifyOutput place change) where
  fixedRow := (fixedRow_modifyOutput place fixed).trans advances.fixedRow
  spender := (spender_modifyOutput tables' place spend).trans advances.spender
  status hash :=
    (getTokenTransactionStatus_modifyOutput place change hash).trans (advances.status hash)
  secrets other known := secrets other (advances.secrets other known)

theorem advances_of_rows (rows : tables'.transactions = tables.transactions) :
    Advances tables tables' := by
  have outputs : tables'.output = tables.output := by
    unfold SparkTables.output
    rw [rows]
  refine ⟨?_, ?_, ?_, ?_⟩
  · unfold fixedRow
    rw [rows]
  · unfold spender
    rw [outputs]
  · intro hash
    unfold getTokenTransactionStatus
    rw [rows]
  · unfold revocationSecret
    rw [outputs]
    exact fun _ known => known

theorem SecretsMatch.of_eq (secrets : SecretsMatch prims tables stored)
    (same : tables'.revocationSecret = tables.revocationSecret) :
    SecretsMatch prims tables' stored := by
  unfold SecretsMatch
  rw [same]
  exact secrets

theorem revocationSecret_of_output (outputs : ∀ place, tables'.output place = tables.output place) :
    tables'.revocationSecret = tables.revocationSecret := by
  unfold revocationSecret
  funext place
  rw [outputs]

theorem revocationSecret_insertSignatureData (data : SparkSignatureData) :
    (tables.insertSignatureData data).revocationSecret = tables.revocationSecret :=
  revocationSecret_of_output fun place => by
    unfold SparkTables.output
    rw [transactions_insertSignatureData]

theorem operatorSignatures_modifyOutput (tables : SparkTables) (place : SparkOutPoint)
    (change : SparkOutputRow → SparkOutputRow) :
    (tables.modifyOutput place change).operatorSignatures = tables.operatorSignatures := by
  unfold modifyOutput
  split <;> rfl

theorem revocationSecret_set (tables : SparkTables) (place other : SparkOutPoint)
    (secret : SecretKey) :
    (tables.setRevocationSecretKey place secret).revocationSecret other =
      if other = place ∧ tables.output place ≠ none then some secret
      else tables.revocationSecret other := by
  unfold revocationSecret setRevocationSecretKey
  rw [output_modifyOutput]
  by_cases same : other = place
  · subst same
    cases tables.output other <;> simp
  · simp [same]

theorem SecretsMatch.set {secret : SecretKey} (secrets : SecretsMatch prims tables stored)
    (own : tables.output place ≠ none → IsLeaf prims stored place leaf)
    (opens : prims.publicKeyOf secret = leaf.revocationPublicKey) :
    SecretsMatch prims (tables.setRevocationSecretKey place secret) stored := by
  intro other known found
  rw [revocationSecret_set] at found
  split at found
  case isTrue set =>
    obtain ⟨rfl, present⟩ := set
    obtain rfl := Option.some.inj found
    exact ⟨leaf, own present, opens⟩
  case isFalse => exact secrets other known found

section

variable (collisionFree : Set.InjOn prims.sha256 hashed)
  (hashable : Hashable prims hashed tables stored)
  (recorded : Recorded prims tables.fixedRow stored) (links : LinksDeclared prims tables stored)
include collisionFree hashable recorded links

/-- The leaf an input is resolved to is the declared one. A secret is kept under the hash of
the rebuilt parent: at the leaf's own place, or nowhere. -/
theorem getSparkPrevout_spec {inputs : List TokenLeafToSpend} {index : Nat} {output : TokenLeafOutput}
    (found : getSparkPrevout prims tables inputs index = some (place, output)) :
    ∃ input leaf, inputs[index]? = some input ∧ IsLeaf prims stored input.outPoint leaf ∧
      output.ownerPublicKey = leaf.ownerPublicKey ∧
      output.revocationPublicKey = leaf.revocationPublicKey ∧
      (tables.output place ≠ none → place = input.outPoint) := by
  unfold getSparkPrevout at found
  split at found
  case h_1 => cases found
  case h_2 input there =>
    split at found
    case h_1 => cases found
    case h_2 rebuilt rebuilds =>
      obtain ⟨shown, shownThere, same⟩ := Option.map_eq_some_iff.mp found
      obtain ⟨rfl, rfl⟩ := Prod.mk.inj same
      obtain ⟨parent, mem, parentHash⟩ := stored_of_rebuilt recorded rebuilds
      rw [← parentHash] at rebuilds
      have content := rebuilt_sameContent recorded links mem rebuilds
      have leaves := congrArg (·[input.parentOutputVout.toNat]?) content.leaves
      simp only [List.getElem?_map, shownThere, Option.map_some, restored, List.map_map] at leaves
      obtain ⟨leaf, leafThere, sameLeaf⟩ := Option.map_eq_some_iff.mp leaves.symm
      refine ⟨input, leaf, there, ⟨parent, mem, parentHash, leafThere⟩, ?_, ?_, ?_⟩
      · exact (congrArg HashedLeaf.ownerPublicKey sameLeaf).symm
      · exact (congrArg HashedLeaf.revocationPublicKey sameLeaf).symm
      · intro present
        obtain ⟨row, rowThere⟩ := Option.ne_none_iff_exists'.mp present
        obtain ⟨other, otherMem, otherHash, -⟩ := recorded.leaf_of_output rowThere
        obtain ⟨rfl, -⟩ := rebuilt_of_hash collisionFree hashable recorded links mem rebuilds
          otherMem otherHash.symm
        unfold TokenLeafToSpend.outPoint
        rw [← parentHash, otherHash]

theorem checkSparkSignatureData_advances (secrets : SecretsMatch prims tables stored)
    (data : SparkSignatureData) :
    Advances tables (checkSparkSignatureData prims tables data).1 ∧
      SecretsMatch prims (checkSparkSignatureData prims tables data).1 stored ∧
      (checkSparkSignatureData prims tables data).1.operatorSignatures =
        tables.operatorSignatures := by
  apply checkSparkSignatureData_keeps (P := fun tables' => Advances tables tables' ∧
    SecretsMatch prims tables' stored ∧ tables'.operatorSignatures = tables.operatorSignatures)
  · intro tables' tx outputsToSpend index place output secret held _ _ found opens
    obtain ⟨advances, secrets', operators⟩ := held
    obtain ⟨input, leaf, -, isLeaf, -, revocation, own⟩ := getSparkPrevout_spec collisionFree
      (hashable.of_spender advances.spender) (advances.fixedRow ▸ recorded)
      (linksDeclared_of_spender links advances.spender) found
    refine ⟨advances.modifyOutput (fun _ => rfl) (fun _ => rfl) ?_,
      secrets'.set (fun present => own present ▸ isLeaf) (opens.trans revocation),
      (operatorSignatures_modifyOutput tables' place _).trans operators⟩
    intro other known
    have set := revocationSecret_set tables' place other secret
    unfold setRevocationSecretKey at set
    rw [set]
    split
    · rfl
    · exact known
  · exact ⟨⟨rfl, rfl, fun _ => rfl, fun _ known => known⟩, secrets, rfl⟩

theorem checked_of_accepted (accepted : (checkSparkSignatureData prims tables data).2 = true) :
    ∃ rebuilt, tables.getSparkTxWithOutputs data.tokenTxHash = some rebuilt ∧
      ∃ tx ∈ stored, tx.hash prims = data.tokenTxHash ∧
        Checked prims tables stored tx data (rebuilt.hash prims) := by
  obtain ⟨rebuilt, found, listed, signed, owned⟩ := checkSparkSignatureData_accepts accepted
  obtain ⟨tx, mem, same⟩ := stored_of_rebuilt recorded found
  refine ⟨rebuilt, found, tx, mem, same, ?_⟩
  rw [← same] at found
  have content := rebuilt_sameContent recorded links mem found
  constructor
  case operator =>
    have sorted : data.operatorPubkey ∈
        rebuilt.sparkOperatorIdentityPublicKeys.insertionSort keyLe :=
      (List.perm_insertionSort keyLe _).mem_iff.mpr listed
    rw [content.operators, (List.perm_insertionSort keyLe _).mem_iff] at sorted
    simpa [restored] using sorted
  case signed => exact signed
  case intact =>
    intro all
    rw [← all]
    exact SparkHash.hash_of_sameContent content
  case owner =>
    intro transfer message owner present
    obtain ⟨-, sameContent⟩ := rebuilt_of_hash collisionFree hashable recorded links mem found mem
      message
    have input : rebuilt.input = .transfer tx.outputsToSpend := by
      rw [← sameContent.spends]
      apply TokenTransaction.input_of_transfer
      rw [TokenTransaction.isMint_eq, sameContent.issuance, ← TokenTransaction.isMint_eq]
      exact transfer
    have verified := owned tx.outputsToSpend input
    unfold checkOwnerSignature at verified
    rw [present] at verified
    simp only at verified
    split at verified
    case h_1 => cases verified
    case h_2 place output prevout =>
      obtain ⟨input, leaf, there, isLeaf, ownerKey, -, -⟩ := getSparkPrevout_spec collisionFree
        hashable recorded links prevout
      rw [ownerKey] at verified
      exact ⟨input, leaf, there, isLeaf, verified⟩

end

/-! ### The signatures behind a finalized transfer -/

/-- Everything the node knows about agreement to a transfer was checked. -/
structure Vouched (prims : Primitives) (node : SparkNode) : Prop where
  recorded : Recorded prims node.tables.fixedRow node.stored
  links : LinksDeclared prims node.tables node.stored
  secrets : SecretsMatch prims node.tables node.stored
  operators : ∀ hash operator signature,
    node.tables.operatorSignatures.lookup (hash, operator) = some signature →
      ∃ entry ∈ node.verified, entry.1.tokenTxHash = hash ∧ entry.1.operatorPubkey = operator
  verified : ∀ entry ∈ node.verified, ∃ tx ∈ node.stored, tx.hash prims = entry.1.tokenTxHash ∧
    Checked prims node.tables node.stored tx entry.1 entry.2
  finalized : ∀ tx ∈ node.stored, ¬ tx.isMint →
    node.tables.getTokenTransactionStatus (tx.hash prims) = .finalized →
      OperatorsSigned prims node.verified tx ∧
      ∀ leaf ∈ tx.outputsToSpend, (node.tables.revocationSecret leaf.outPoint).isSome

theorem Checked.of_spender (checked : Checked prims tables stored tx data message)
    (same : tables'.spender = tables.spender) : Checked prims tables' stored tx data message where
  operator := checked.operator
  signed := checked.signed
  intact := by
    unfold linkedInputs
    rw [same]
    exact checked.intact
  owner := checked.owner

theorem vouched_new : Vouched prims SparkNode.new where
  recorded := recorded_new
  links := by
    intro place hash index linked
    cases linked
  secrets := by
    intro place secret found
    cases found
  operators := by
    intro hash operator signature found
    cases found
  verified := by
    intro entry mem
    cases mem
  finalized := by
    intro tx mem
    cases mem

theorem OperatorsSigned.mono {verified verified' : List (SparkSignatureData × SparkHash)}
    (signed : OperatorsSigned prims verified tx) (more : ∀ entry ∈ verified, entry ∈ verified') :
    OperatorsSigned prims verified' tx := by
  obtain ⟨operators, distinct, enough, each⟩ := signed
  refine ⟨operators, distinct, enough, ?_⟩
  intro operator mem
  obtain ⟨listed, data, known, rest⟩ := each operator mem
  exact ⟨listed, data, more _ known, rest⟩

variable (collisionFree : Set.InjOn prims.sha256 hashed)
  (hashable : Hashable prims hashed node.tables node.stored) (vouched : Vouched prims node)

include vouched in
/-- The tables change, but for what was settled, linked and signed. -/
theorem Vouched.move (fixedRow : tables'.fixedRow = node.tables.fixedRow)
    (spender : tables'.spender = node.tables.spender)
    (secrets : SecretsMatch prims tables' node.stored)
    (operators : tables'.operatorSignatures = node.tables.operatorSignatures)
    (finalized : ∀ tx ∈ node.stored, ¬ tx.isMint →
      tables'.getTokenTransactionStatus (tx.hash prims) = .finalized →
        OperatorsSigned prims node.verified tx ∧
        ∀ leaf ∈ tx.outputsToSpend, (tables'.revocationSecret leaf.outPoint).isSome) :
    Vouched prims { node with tables := tables' } where
  recorded := fixedRow ▸ vouched.recorded
  links := linksDeclared_of_spender vouched.links spender
  secrets := secrets
  operators := by
    show ∀ hash operator signature, tables'.operatorSignatures.lookup (hash, operator) = _ → _
    rw [operators]
    exact vouched.operators
  verified := by
    intro entry mem
    obtain ⟨tx, txMem, same, checked⟩ := vouched.verified entry mem
    exact ⟨tx, txMem, same, checked.of_spender spender⟩
  finalized := finalized

include vouched in
theorem Vouched.advance (advances : Advances node.tables tables')
    (secrets : SecretsMatch prims tables' node.stored)
    (operators : tables'.operatorSignatures = node.tables.operatorSignatures) :
    Vouched prims { node with tables := tables' } := by
  refine vouched.move advances.fixedRow advances.spender secrets operators ?_
  intro tx mem transfer finalized
  rw [advances.status] at finalized
  obtain ⟨signed, known⟩ := vouched.finalized tx mem transfer finalized
  exact ⟨signed, fun leaf spent => advances.secrets _ (known leaf spent)⟩

include vouched in
theorem Vouched.insertSignature
    (checked : ∃ tx ∈ node.stored, tx.hash prims = data.tokenTxHash ∧
      Checked prims node.tables node.stored tx data message) :
    Vouched prims { node with
      tables := node.tables.insertSignatureData data
      verified := node.verified ++ [(data, message)] } := by
  have advances := advances_of_rows (@transactions_insertSignatureData node.tables data)
  constructor
  case recorded => exact advances.fixedRow ▸ vouched.recorded
  case links => exact linksDeclared_of_spender vouched.links advances.spender
  case secrets => exact vouched.secrets.of_eq (revocationSecret_insertSignatureData data)
  case operators =>
    intro hash operator signature found
    rw [operatorSignatures_insertSignatureData] at found
    by_cases own : (hash, operator) = (data.tokenTxHash, data.operatorPubkey)
    · obtain ⟨rfl, rfl⟩ := Prod.mk.inj own
      exact ⟨(data, message), by simp, rfl, rfl⟩
    · rw [AList.lookup_insert_ne own] at found
      obtain ⟨entry, mem, rest⟩ := vouched.operators hash operator signature found
      exact ⟨entry, List.mem_append_left _ mem, rest⟩
  case verified =>
    intro entry mem
    rcases List.mem_append.mp mem with old | new
    · obtain ⟨tx, txMem, same, checked⟩ := vouched.verified entry old
      exact ⟨tx, txMem, same, checked.of_spender advances.spender⟩
    · obtain rfl := List.mem_singleton.mp new
      obtain ⟨tx, txMem, same, checked⟩ := checked
      exact ⟨tx, txMem, same, checked.of_spender advances.spender⟩
  case finalized =>
    intro tx mem transfer finalized
    rw [advances.status] at finalized
    obtain ⟨signed, known⟩ := vouched.finalized tx mem transfer finalized
    exact ⟨signed.mono fun entry => List.mem_append_left _, fun leaf spent =>
      advances.secrets _ (known leaf spent)⟩

include collisionFree hashable vouched in
theorem vouched_storeSignature (data : SparkSignatureData) :
    Vouched prims (SparkNode.storeSignature prims node data) := by
  obtain ⟨advances, secrets, operators⟩ := checkSparkSignatureData_advances collisionFree hashable
    vouched.recorded vouched.links vouched.secrets data
  have advanced := vouched.advance advances secrets operators
  unfold SparkNode.storeSignature TxCheck.storeSignature
  by_cases accepted : (checkSparkSignatureData prims node.tables data).2 = true
  · obtain ⟨rebuilt, found, tx, mem, same, checked⟩ := checked_of_accepted collisionFree hashable
      vouched.recorded vouched.links accepted
    have stored := advanced.insertSignature ⟨tx, mem, same, checked.of_spender advances.spender⟩
    simp only [accepted, found, if_true]
    exact stored
  · simp only [accepted, Bool.false_eq_true, if_false]
    exact advanced

theorem dedup_length_le {α : Type} [DecidableEq α] {a b : List α} (subset : a ⊆ b) :
    a.dedup.length ≤ b.dedup.length := by
  rw [← List.card_toFinset, ← List.card_toFinset]
  apply Finset.card_le_card
  intro x mem
  rw [List.mem_toFinset] at mem ⊢
  exact subset mem

theorem mem_operators {hash : SparkHash} {operator : PublicKey} :
    operator ∈ (tables.getSparkSignatures hash).map SparkSignatureData.operatorPubkey ↔
      (tables.operatorSignatures.lookup (hash, operator)).isSome := by
  unfold getSparkSignatures
  simp only [List.map_map, List.mem_map, Prod.exists, List.mem_zipIdx_iff_getElem?,
    Function.comp_apply, Option.isSome_iff_exists]
  constructor
  · rintro ⟨row, index, there, rfl⟩
    obtain ⟨mem, own⟩ := List.mem_filter.mp (List.mem_of_getElem? there)
    refine ⟨row.2, ?_⟩
    rw [← of_decide_eq_true own]
    exact AList.mem_lookup_iff.mpr mem
  · rintro ⟨signature, found⟩
    have mem : (⟨(hash, operator), signature⟩ : (_ : SparkHash × PublicKey) × SparkSignature) ∈
        tables.operatorSignatures.entries.filter fun entry => entry.1.1 = hash :=
      List.mem_filter.mpr ⟨AList.mem_lookup_iff.mp found, by simp⟩
    obtain ⟨index, there⟩ := List.mem_iff_getElem?.mp mem
    exact ⟨_, index, there, rfl⟩

/-- The known revocation secrets of the leaves a transaction declares to spend. -/
def knownSecrets (tables : SparkTables) (tx : TokenTransaction) : List SecretKey :=
  tx.outputsToSpend.filterMap fun input => tables.revocationSecret input.outPoint

include vouched in
theorem Vouched.operatorsSigned (mem : tx ∈ node.stored)
    (all : linkedInputs prims node.tables tx = tx.outputsToSpend)
    (back : (restored tx tx.outputsToSpend).hash prims = tx.hash prims)
    (enough : sparkThreshold ≤ ((node.tables.getSparkSignatures (tx.hash prims)).map
      SparkSignatureData.operatorPubkey).dedup.length) :
    OperatorsSigned prims node.verified tx := by
  refine ⟨_, List.nodup_dedup _, enough, ?_⟩
  intro operator counted
  rw [List.mem_dedup, mem_operators] at counted
  obtain ⟨signature, found⟩ := Option.isSome_iff_exists.mp counted
  obtain ⟨⟨accepted, message⟩, known, sameHash, sameKey⟩ := vouched.operators _ _ _ found
  obtain ⟨other, otherMem, otherHash, checked⟩ := vouched.verified _ known
  obtain rfl := List.inj_on_of_nodup_map vouched.recorded.hashes otherMem mem
    (otherHash.trans sameHash)
  obtain rfl : message = other.hash prims := (checked.intact all).trans back
  simp only at sameHash sameKey
  refine ⟨sameKey ▸ checked.operator, accepted, known, sameHash, sameKey, ?_⟩
  rw [← sameKey]
  exact checked.signed

section

variable (recorded : Recorded prims tables.fixedRow stored)
  (links : LinksDeclared prims tables stored) (mem : tx ∈ stored)
  (linked : linkedInputs prims tables tx = tx.outputsToSpend)
include recorded links mem linked

/-- The secrets counted for a transaction that is linked to all its inputs. -/
theorem mem_revocationSecretKeys {secret : SecretKey} :
    secret ∈ (tables.getRevocationSecretKeys (tx.hash prims)).filterMap
        SparkSignatureLeafData.revocationSecret ↔ secret ∈ knownSecrets tables tx := by
  unfold getRevocationSecretKeys knownSecrets revocationSecret
  simp only [List.mem_filterMap, List.mem_filter, Prod.exists, mem_allOutputs,
    Option.map_eq_some_iff, decide_eq_true_eq, Option.bind_eq_some_iff]
  constructor
  · rintro ⟨_, ⟨place, row, ⟨present, hash, index, linked, rfl⟩, found, known, rfl⟩, same⟩
    obtain rfl := Option.some.inj same
    have spends : tables.spender place = some (tx.hash prims, index) := by
      simp [spender, present, linked]
    obtain ⟨input, there, rfl⟩ := links.of_hash recorded mem spends
    exact ⟨input, List.mem_of_getElem? there, row, present, known⟩
  · rintro ⟨input, spent, row, present, known⟩
    obtain ⟨index, there⟩ := List.mem_iff_getElem?.mp spent
    obtain ⟨row', present', spend⟩ := Option.bind_eq_some_iff.mp
      (linkedInputs_eq_iff.mp linked index input there)
    obtain rfl := Option.some.inj (present.symm.trans present')
    exact ⟨_, ⟨input.outPoint, row, ⟨present, _, index, spend, rfl⟩, secret, known, rfl⟩, rfl⟩

theorem secretCount_eq :
    ((tables.getRevocationSecretKeys (tx.hash prims)).filterMap
      SparkSignatureLeafData.revocationSecret).dedup.length =
      (knownSecrets tables tx).dedup.length := by
  apply le_antisymm
  · exact dedup_length_le fun _ =>
      (mem_revocationSecretKeys recorded links mem linked).mp
  · exact dedup_length_le fun _ =>
      (mem_revocationSecretKeys recorded links mem linked).mpr

theorem secrets_of_finalized
    (covered : tx.outputsToSpend.length ≤ ((tables.getRevocationSecretKeys
      (tx.hash prims)).filterMap SparkSignatureLeafData.revocationSecret).dedup.length) :
    ∀ leaf ∈ tx.outputsToSpend, (tables.revocationSecret leaf.outPoint).isSome := by
  rw [secretCount_eq recorded links mem linked] at covered
  have distinct := (List.dedup_sublist (knownSecrets tables tx)).length_le
  rw [knownSecrets, List.length_filterMap_eq_countP] at distinct
  apply List.countP_eq_length.mp
  apply le_antisymm List.countP_le_length
  exact covered.trans distinct

end

include collisionFree hashable vouched in
theorem vouched_updateStatus (handled : List SparkHash) (data : SparkSignatureData) :
    Vouched prims { node with
      tables := (updateStatus prims (node.tables, handled) data).1 } := by
  rcases updateStatus_cases collisionFree hashable vouched.recorded vouched.links handled data with
    same | ⟨tx, mem, -, all, back, written⟩
  · rw [same]
    exact vouched
  · rw [written]
    have spender := spender_setTokenTransactionStatus node.tables (tx.hash prims)
      (checkSparkTxFinalization tx.outputsToSpend.length
        (node.tables.getSparkSignatures (tx.hash prims))
        (node.tables.getRevocationSecretKeys (tx.hash prims)))
    have secrets := revocationSecret_of_output (@output_setTokenTransactionStatus
      node.tables (tx.hash prims) (checkSparkTxFinalization tx.outputsToSpend.length
        (node.tables.getSparkSignatures (tx.hash prims))
        (node.tables.getRevocationSecretKeys (tx.hash prims))))
    refine vouched.move (fixedRow_setTokenTransactionStatus _ _) spender
      (vouched.secrets.of_eq secrets) (operatorSignatures_setTokenTransactionStatus _ _) ?_
    intro other otherMem transfer finalized
    rw [secrets]
    rw [getTokenTransactionStatus_set _ _ _ _ (vouched.recorded.present mem)] at finalized
    split at finalized
    case isTrue same =>
      obtain rfl := List.inj_on_of_nodup_map vouched.recorded.hashes otherMem mem same
      obtain ⟨enough, covered⟩ := checkSparkTxFinalization_finalized finalized
      exact ⟨vouched.operatorsSigned mem all back enough,
        secrets_of_finalized vouched.recorded vouched.links mem all covered⟩
    case isFalse => exact vouched.finalized other otherMem transfer finalized

include vouched in
theorem Vouched.of_eq {node' : SparkNode} (tables : node'.tables = node.tables)
    (stored : node'.stored = node.stored) (verified : node'.verified = node.verified) :
    Vouched prims node' := by
  obtain ⟨tables', queue', stored', accepted', exits', verified'⟩ := node'
  simp only at tables stored verified
  subst tables stored verified
  exact { vouched with }

include collisionFree hashable vouched in
theorem vouched_checkSparkSignatures (sigs : List SparkSignatureData) :
    Vouched prims (SparkNode.step prims validateAnnouncement node
      (.checkSparkSignatures sigs)) := by
  let signed := sigs.foldl (SparkNode.storeSignature prims) node
  have afterSigning : Vouched prims signed ∧ Hashable prims hashed signed.tables signed.stored := by
    apply List.foldlRecOn (motive := fun node : SparkNode => Vouched prims node ∧
      Hashable prims hashed node.tables node.stored) _ _ ⟨vouched, hashable⟩
    intro node held data _
    exact ⟨vouched_storeSignature collisionFree held.2 held.1 data,
      held.2.of_spender ((spender_kept _).storeSignature data rfl)⟩
  have afterUpdates : Vouched prims { signed with
        tables := (sigs.foldl (updateStatus prims) (signed.tables, [])).1 } ∧
      Hashable prims hashed (sigs.foldl (updateStatus prims) (signed.tables, [])).1
        signed.stored := by
    apply List.foldlRecOn (motive := fun state : SparkTables × List SparkHash =>
      Vouched prims { signed with tables := state.1 } ∧
        Hashable prims hashed state.1 signed.stored) _ _ afterSigning
    intro state held data _
    exact ⟨vouched_updateStatus collisionFree held.2 held.1 state.2 data,
      held.2.of_spender ((spender_kept _).updateStatus state data rfl)⟩
  exact afterUpdates.1.of_eq rfl rfl rfl

theorem revocationSecret_inserted (inserted : SparkTables.Inserted prims tables tx tables')
    (place : SparkOutPoint) : tables'.revocationSecret place = tables.revocationSecret place :=
  field_inserted inserted SparkOutputRow.revocationSecretKey (fun _ _ => rfl) (fun _ _ => rfl) place

theorem SecretsMatch.insert (secrets : SecretsMatch prims tables stored)
    (inserted : SparkTables.Inserted prims tables tx tables') :
    SecretsMatch prims tables' (stored ++ [tx]) := by
  intro place secret found
  rw [revocationSecret_inserted inserted] at found
  obtain ⟨leaf, isLeaf, opens⟩ := secrets place secret found
  exact ⟨leaf, isLeaf.mono fun other => List.mem_append_left _, opens⟩

include vouched in
theorem Vouched.insert (inserted : SparkTables.Inserted prims node.tables tx tables') :
    Vouched prims { node with tables := tables', stored := node.stored ++ [tx] } := by
  have fresh := vouched.recorded.fresh inserted
  have sameSecrets := revocationSecret_inserted inserted
  have more : ∀ other ∈ node.stored, other ∈ node.stored ++ [tx] :=
    fun other => List.mem_append_left _
  constructor
  case recorded => exact vouched.recorded.insert inserted
  case links => exact vouched.links.insert inserted
  case secrets => exact vouched.secrets.insert inserted
  case operators =>
    obtain ⟨row, -, linked⟩ := inserted.linked
    intro hash operator signature found
    rw [linked.operatorSignatures] at found
    exact vouched.operators hash operator signature found
  case verified =>
    intro entry known
    obtain ⟨other, mem, same, checked⟩ := vouched.verified entry known
    refine ⟨other, more other mem, same, ⟨checked.operator, checked.signed, ?_, ?_⟩⟩
    · intro all
      exact checked.intact (linkedInputs_inserted inserted (fresh other mem) all)
    · intro transfer message owner present
      obtain ⟨input, leaf, found, isLeaf, verifies⟩ := checked.owner transfer message owner present
      exact ⟨input, leaf, found, isLeaf.mono more, verifies⟩
  case finalized =>
    intro other mem transfer finalized
    rw [status_inserted inserted] at finalized
    split at finalized
    case isTrue => cases finalized
    case isFalse differs =>
      rcases List.mem_append.mp mem with old | new
      · obtain ⟨signed, known⟩ := vouched.finalized other old transfer finalized
        refine ⟨signed, fun leaf spent => ?_⟩
        rw [sameSecrets]
        exact known leaf spent
      · exact absurd (congrArg (·.hash prims) (List.mem_singleton.mp new)) differs

theorem checkExitProofs_advances (txid : Txid) (block : BlockHash)
    (proofs : List (Nat × ReceiptProof)) (tables : SparkTables) :
    let tables' := (checkExitProofs prims txid block proofs tables).1
    Advances tables tables' ∧ tables'.revocationSecret = tables.revocationSecret ∧
      tables'.operatorSignatures = tables.operatorSignatures := by
  apply checkExitProofs_keeps (P := fun tables' => Advances tables tables' ∧
    tables'.revocationSecret = tables.revocationSecret ∧
    tables'.operatorSignatures = tables.operatorSignatures)
  · rintro tables' place row vout ⟨advances, secrets, operators⟩ _
    have sameSecrets : ((tables'.modifyOutput place fun row => { row with
        withdrawTxid := some txid, withdrawVout := some (UInt32.ofNat vout)
        withdrawBlockhash := some block })).revocationSecret = tables.revocationSecret := by
      rw [← secrets]
      funext other
      unfold revocationSecret
      rw [output_modifyOutput]
      split
      · cases tables'.output other <;> rfl
      · rfl
    refine ⟨advances.modifyOutput (fun _ => rfl) (fun _ => rfl) ?_, sameSecrets,
      (operatorSignatures_modifyOutput tables' place _).trans operators⟩
    intro other known
    rw [sameSecrets, ← secrets]
    exact known
  · exact ⟨⟨rfl, rfl, fun _ => rfl, fun _ known => known⟩, rfl, rfl⟩

include collisionFree in
theorem vouched_step (node : SparkNode) (input : SparkNode.Input) (vouched : Vouched prims node)
    (hashable : Hashable prims hashed node.tables node.stored) :
    Vouched prims (SparkNode.step prims validateAnnouncement node input) := by
  cases input with
  | newSparkTxs txs =>
    exact handleNewSparkTxs_keeps
      (P := fun tables stored => Vouched prims { node with tables, stored })
      (fun _ _ _ _ _ vouched inserted => vouched.insert inserted) vouched
  | checkSparkTxs l1 txs sender => exact vouched.of_eq rfl rfl rfl
  | checkSparkSignatures sigs => exact vouched_checkSparkSignatures collisionFree hashable vouched sigs
  | checkSparkExit client bitcoinTx outputProofs =>
    obtain ⟨tables | ⟨block, tables⟩, stored, -, verified⟩ := @step_checkSparkExit prims
      validateAnnouncement node client bitcoinTx outputProofs
    · exact vouched.of_eq tables.1 stored verified
    · obtain ⟨advances, secrets, operators⟩ := @checkExitProofs_advances prims bitcoinTx.txid block
        outputProofs.entries node.tables
      have marked := vouched.advance advances (vouched.secrets.of_eq secrets) operators
      exact marked.of_eq tables.1 stored verified

/-- The agreement behind a finalized transfer: signatures of enough of its operators over its
hash, the revocation secret of every leaf it spends, and no owner signature that is not that
of the owner of the input it names. -/
structure Authorized (prims : Primitives) (node : SparkNode) (tx : TokenTransaction) : Prop where
  operators : OperatorsSigned prims node.verified tx
  secrets : ∀ input ∈ tx.outputsToSpend, ∃ secret leaf,
    node.tables.revocationSecret input.outPoint = some secret ∧
    IsLeaf prims node.stored input.outPoint leaf ∧
    prims.publicKeyOf secret = leaf.revocationPublicKey
  owners : ∀ data, data.tokenTxHash = tx.hash prims → (data, tx.hash prims) ∈ node.verified →
    OwnerSigned prims node.stored tx data (tx.hash prims)

/-- In every state a node reaches, a finalized transfer is authorized by its operators and by
the revocation secrets of the leaves it spends. -/
theorem finalized_authorized (prims : Primitives) (validateAnnouncement : Bool)
    (history : List SparkNode.Input) (hashed : Set Bytes)
    (collisionFree : Set.InjOn prims.sha256 hashed)
    (hashable : AllSteps (SparkNode.step prims validateAnnouncement)
      (fun node _ => Hashable prims hashed node.tables node.stored) SparkNode.new history) :
    let node := runFrom (SparkNode.step prims validateAnnouncement) SparkNode.new history
    ∀ tx ∈ node.stored, ¬ tx.isMint →
      node.tables.getTokenTransactionStatus (tx.hash prims) = .finalized →
      Authorized prims node tx := by
  intro node tx mem transfer finalized
  have vouched : Vouched prims node :=
    hashable.invariant (I := Vouched prims) (vouched_step collisionFree) vouched_new
  obtain ⟨signed, known⟩ := vouched.finalized tx mem transfer finalized
  refine ⟨signed, ?_, ?_⟩
  · intro input spent
    obtain ⟨secret, found⟩ := Option.isSome_iff_exists.mp (known input spent)
    obtain ⟨leaf, isLeaf, opens⟩ := vouched.secrets input.outPoint secret found
    exact ⟨secret, leaf, found, isLeaf, opens⟩
  · intro data names accepted
    obtain ⟨other, otherMem, same, checked⟩ := vouched.verified _ accepted
    obtain rfl := List.inj_on_of_nodup_map vouched.recorded.hashes otherMem mem (same.trans names)
    exact checked.owner transfer rfl

/-- A mint and a transfer of its leaf are stored, then all three operators sign the transfer
and reveal the secret. -/
def signedTransfer : TokenTransaction := plainTransfer (plainMint "a" 5) "b" 5

def operatorsSign : List SparkNode.Input :=
  [.newSparkTxs [plainMint "a" 5, signedTransfer],
    .checkSparkSignatures [plainSignatureData signedTransfer (.repeating 4),
      plainSignatureData signedTransfer (.repeating 5),
      plainSignatureData signedTransfer (.repeating 6)]]

/-- Data of an operator with the owner's signature for the operator named. -/
def ownerSigned (operator : PublicKey) (named : Option PublicKey) : SparkSignatureData :=
  let hash := signedTransfer.hash .plain
  let message := named.elim hash (SparkSignature.operatorSpecificMessage .plain hash)
  { plainSignatureData signedTransfer operator with
    operatorSpecificOwnerSignature := some ⟨named, .plain message (.repeating 2), some 0⟩ }

/-- The transfer is finalized without an owner signature. Data of one operator is accepted with
the owner's signature of the digest for another operator. -/
theorem finalized_without_owner_signature :
    let node := runFrom (SparkNode.step .plain true) SparkNode.new operatorsSign
    let data := ownerSigned (.repeating 4) (some (.repeating 5))
    let digest := SparkSignature.operatorSpecificMessage .plain (signedTransfer.hash .plain)
    (signedTransfer ∈ node.stored ∧ signedTransfer.outputsToSpend ≠ [] ∧
      node.tables.getTokenTransactionStatus (signedTransfer.hash .plain) = .finalized ∧
      ∀ entry ∈ node.verified, entry.1.operatorSpecificOwnerSignature = none) ∧
    data.operatorPubkey = .repeating 4 ∧
      data.operatorSpecificOwnerSignature.map OperatorSpecificOwnerSignature.ownerSignature =
        some (.plain (digest (.repeating 5)) (.repeating 2)) ∧
      digest (.repeating 5) ≠ digest (.repeating 4) ∧
      data ∈ (runFrom (SparkNode.step .plain true) SparkNode.new
        [.newSparkTxs mintAndTransfer, .checkSparkSignatures [data]]).verified.map Prod.fst := by
  decide +kernel

/-- What is hashed in that run: both transactions as they came and as they are rebuilt. -/
def operatorsSignHashed : List Bytes :=
  hashedFor [plainMint "a" 5, signedTransfer, restored (plainMint "a" 5) [],
    restored signedTransfer signedTransfer.outputsToSpend]

theorem hashable_of_operatorsSign (stored : node.stored = [plainMint "a" 5, signedTransfer])
    (mintLinks : linkedInputs .plain node.tables (plainMint "a" 5) = [])
    (transferLinks : linkedInputs .plain node.tables signedTransfer =
      signedTransfer.outputsToSpend) :
    Hashable .plain {part | part ∈ operatorsSignHashed} node.tables node.stored := by
  rw [stored]
  constructor
  · intro tx mem
    apply within_hashedFor
    rcases List.mem_pair.mp mem with rfl | rfl <;> simp
  · intro tx mem
    apply within_hashedFor
    rcases List.mem_pair.mp mem with rfl | rfl
    · simp [mintLinks]
    · simp [transferLinks]

theorem operatorsSign_hashable :
    AllSteps (SparkNode.step .plain true) (fun node _ =>
      Hashable .plain {part | part ∈ operatorsSignHashed} node.tables node.stored)
      SparkNode.new operatorsSign := by
  refine ⟨⟨by simp [SparkNode.new], by simp [SparkNode.new]⟩, ?_, trivial⟩
  apply hashable_of_operatorsSign
  · decide +kernel
  · decide +kernel
  · decide +kernel

theorem operatorsSign_distinct : Set.InjOn Primitives.plain.sha256
    {part | part ∈ operatorsSignHashed} := by
  have distinct : ∀ a ∈ operatorsSignHashed, ∀ b ∈ operatorsSignHashed,
      Primitives.plain.sha256 a = Primitives.plain.sha256 b → a = b := by
    decide +kernel
  exact fun a aMem b bMem => distinct a aMem b bMem

theorem operatorsSign_authorized :
    Authorized .plain (runFrom (SparkNode.step .plain true) SparkNode.new operatorsSign)
      signedTransfer :=
  finalized_authorized .plain true operatorsSign {part | part ∈ operatorsSignHashed}
    operatorsSign_distinct operatorsSign_hashable signedTransfer
    (by decide +kernel) (by decide +kernel) (by decide +kernel)

end Lrc20.Node
