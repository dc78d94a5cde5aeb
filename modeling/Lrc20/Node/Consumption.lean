import Lrc20.Node.Authorization

/-! How often a Spark leaf is consumed: by finalized transfers, and by exits to layer one. -/

open Lrc20.Storage Lrc20.TxCheck Runs SparkTables SparkOutputRow

namespace Lrc20.Node

open TxCheck

variable {prims : Primitives} {tables tables' : SparkTables} {stored : List TokenTransaction}
  {hashed : Set Bytes} {tx : TokenTransaction} {exits : List Lrc20Transaction}
  {place : SparkOutPoint}

/-! ### What keeps a transaction finalized -/

/-- How many operators signed the transaction with this hash. -/
def operatorCount (tables : SparkTables) (hash : SparkHash) : Nat :=
  ((tables.getSparkSignatures hash).map SparkSignatureData.operatorPubkey).dedup.length

/-- The transaction is linked to all its inputs, and has the signatures and the secrets it is
finalized with. -/
structure Settled (prims : Primitives) (tables : SparkTables) (tx : TokenTransaction) : Prop where
  linked : linkedInputs prims tables tx = tx.outputsToSpend
  operators : sparkThreshold ≤ operatorCount tables (tx.hash prims)
  secrets : tx.outputsToSpend.length ≤ (knownSecrets tables tx).dedup.length

section

variable (recorded : Recorded prims tables.fixedRow stored)
  (links : LinksDeclared prims tables stored) (mem : tx ∈ stored)
  (linked : linkedInputs prims tables tx = tx.outputsToSpend)
include recorded links mem linked

/-- A transaction that is linked to all its inputs gets the status `Finalized` exactly when it
is settled. -/
theorem finalized_iff_settled :
    checkSparkTxFinalization tx.outputsToSpend.length (tables.getSparkSignatures (tx.hash prims))
      (tables.getRevocationSecretKeys (tx.hash prims)) = .finalized ↔ Settled prims tables tx := by
  have count := secretCount_eq recorded links mem linked
  constructor
  · intro finalized
    obtain ⟨enough, covered⟩ := checkSparkTxFinalization_finalized finalized
    exact ⟨linked, enough, count ▸ covered⟩
  · intro settled
    have enough := settled.operators
    have covered := settled.secrets
    unfold operatorCount at enough
    rw [← count] at covered
    have notFew := Nat.not_lt.mpr enough
    simp only [checkSparkTxFinalization, if_pos enough, if_neg notFew, if_pos covered, ite_self]

end

/-- Signatures and secrets are only added, and the inputs stay linked. -/
theorem Settled.keep (settled : Settled prims tables tx)
    (spender : ∀ input ∈ tx.outputsToSpend,
      tables'.spender input.outPoint = tables.spender input.outPoint)
    (operators : ∀ key, (tables.operatorSignatures.lookup key).isSome →
      (tables'.operatorSignatures.lookup key).isSome)
    (secrets : ∀ place secret, tables.revocationSecret place = some secret →
      tables'.revocationSecret place = some secret) : Settled prims tables' tx where
  linked := by
    rw [linkedInputs_eq_iff]
    intro index input there
    rw [spender input (List.mem_of_getElem? there)]
    exact linkedInputs_eq_iff.mp settled.linked index input there
  operators := by
    apply settled.operators.trans
    apply dedup_length_le
    intro operator signed
    rw [mem_operators] at signed ⊢
    exact operators _ signed
  secrets := by
    apply settled.secrets.trans
    apply dedup_length_le
    intro secret known
    obtain ⟨input, spent, found⟩ := List.mem_filterMap.mp known
    exact List.mem_filterMap.mpr ⟨input, spent, secrets _ _ found⟩

theorem Recorded.isLeaf_unique (recorded : Recorded prims tables.fixedRow stored)
    {a b : TokenLeafOutput} (aLeaf : IsLeaf prims stored place a)
    (bLeaf : IsLeaf prims stored place b) : a = b := by
  obtain ⟨parent, mem, hash, there⟩ := aLeaf
  obtain ⟨parent', mem', hash', there'⟩ := bLeaf
  obtain rfl := List.inj_on_of_nodup_map recorded.hashes mem mem' (hash.trans hash'.symm)
  exact Option.some.inj (there.symm.trans there')

/-- A revocation key has one secret, so a known secret is never replaced by another. -/
theorem secrets_kept (oneSecret : Function.Injective prims.publicKeyOf)
    (recorded : Recorded prims tables.fixedRow stored) (before : SecretsMatch prims tables stored)
    (after : SecretsMatch prims tables' stored)
    (known : ∀ place, (tables.revocationSecret place).isSome →
      (tables'.revocationSecret place).isSome)
    (place : SparkOutPoint) (secret : SecretKey)
    (found : tables.revocationSecret place = some secret) :
    tables'.revocationSecret place = some secret := by
  obtain ⟨later, laterFound⟩ := Option.isSome_iff_exists.mp (known place (by rw [found]; rfl))
  obtain ⟨leaf, isLeaf, opens⟩ := before place secret found
  obtain ⟨leaf', isLeaf', opens'⟩ := after place later laterFound
  obtain rfl := recorded.isLeaf_unique isLeaf isLeaf'
  obtain rfl := oneSecret (opens.trans opens'.symm)
  exact laterFound

/-! ### Leaves that are gone -/

/-- The leaf is recorded as spent by a finalized transaction. -/
def SpentFinally (tables : SparkTables) (place : SparkOutPoint) (hash : SparkHash) (index : Nat) :
    Prop :=
  tables.spender place = some (hash, index) ∧ tables.getTokenTransactionStatus hash = .finalized

/-- The leaf an output proof of an exit names. -/
def exitedLeaf (prims : Primitives) : ReceiptProof → Option (SparkHash × UInt32)
  | .sparkExit exit => exit.metadata.bind prims.parseExitMetadata
  | _ => none

/-- An output proof of the exit names the leaf: its transaction, and its id. -/
def Withdraws (prims : Primitives) (tables : SparkTables) (exit : Lrc20Transaction)
    (place : SparkOutPoint) : Prop :=
  ∃ outputProofs, exit.txType = .sparkExit outputProofs ∧ ∃ entry ∈ outputProofs.entries,
    ∃ leafIndex, exitedLeaf prims entry.2 = some (place.tokenTransactionHash, leafIndex) ∧
      (tables.output place).map sparkId = some (toString leafIndex)

theorem withdraws_congr {exit : Lrc20Transaction}
    (same : (tables'.output place).map sparkId = (tables.output place).map sparkId) :
    Withdraws prims tables' exit place ↔ Withdraws prims tables exit place := by
  unfold Withdraws
  rw [same]

theorem sparkId_of_fixedRow
    (same : tables'.fixedRow place.tokenTransactionHash =
      tables.fixedRow place.tokenTransactionHash) :
    (tables'.output place).map sparkId = (tables.output place).map sparkId := by
  have fixed : ∀ tables : SparkTables, (tables.output place).map sparkId =
      (fixedOutput tables.fixedRow place).map sparkId := by
    intro tables
    rw [fixedOutput_eq, Option.map_map]
    rfl
  rw [fixed, fixed]
  unfold fixedOutput
  rw [same]

/-- Finalized transactions are settled, and what they spend was not withdrawn. -/
structure Consumed (prims : Primitives) (tables : SparkTables) (stored : List TokenTransaction)
    (exits : List Lrc20Transaction) : Prop where
  recorded : Recorded prims tables.fixedRow stored
  links : LinksDeclared prims tables stored
  secrets : SecretsMatch prims tables stored
  settled : ∀ tx ∈ stored, tables.getTokenTransactionStatus (tx.hash prims) = .finalized →
    Settled prims tables tx
  notWithdrawn : ∀ place hash index, SpentFinally tables place hash index →
    ∀ exit ∈ exits, ¬ Withdraws prims tables exit place

/-- What an operation that changes neither rows, links nor statuses keeps. -/
theorem Consumed.advance (oneSecret : Function.Injective prims.publicKeyOf)
    (consumed : Consumed prims tables stored exits) (advances : Advances tables tables')
    (secrets : SecretsMatch prims tables' stored)
    (operators : ∀ key, (tables.operatorSignatures.lookup key).isSome →
      (tables'.operatorSignatures.lookup key).isSome) :
    Consumed prims tables' stored exits where
  recorded := advances.fixedRow ▸ consumed.recorded
  links := linksDeclared_of_spender consumed.links advances.spender
  secrets := secrets
  settled := by
    intro tx mem finalized
    rw [advances.status] at finalized
    apply (consumed.settled tx mem finalized).keep _ operators
    · exact secrets_kept oneSecret consumed.recorded consumed.secrets secrets advances.secrets
    · intro input _
      rw [advances.spender]
  notWithdrawn := by
    intro place hash index spent exit mem
    unfold SpentFinally at spent
    rw [advances.spender, advances.status] at spent
    rw [withdraws_congr (sparkId_of_fixedRow (congrFun advances.fixedRow _))]
    exact consumed.notWithdrawn place hash index spent exit mem

section

variable (collisionFree : Set.InjOn prims.sha256 hashed)
  (hashable : Hashable prims hashed tables stored) (consumed : Consumed prims tables stored exits)
include collisionFree hashable consumed

theorem consumed_storeSignature (oneSecret : Function.Injective prims.publicKeyOf)
    (data : SparkSignatureData) :
    Consumed prims (storeSignature prims tables data) stored exits ∧
      ∀ hash, (storeSignature prims tables data).getTokenTransactionStatus hash =
        tables.getTokenTransactionStatus hash := by
  obtain ⟨advances, secrets, operators⟩ := checkSparkSignatureData_advances collisionFree hashable
    consumed.recorded consumed.links consumed.secrets data
  have checked : Consumed prims (checkSparkSignatureData prims tables data).1 stored exits :=
    consumed.advance oneSecret advances secrets (by rw [operators]; exact fun _ known => known)
  unfold storeSignature
  simp only
  split
  case isFalse => exact ⟨checked, advances.status⟩
  case isTrue =>
    have rows := @transactions_insertSignatureData
      (checkSparkSignatureData prims tables data).1 data
    have inserted := advances_of_rows rows
    refine ⟨checked.advance oneSecret inserted
      (secrets.of_eq (revocationSecret_insertSignatureData data)) ?_, ?_⟩
    · intro key known
      rw [operatorSignatures_insertSignatureData]
      by_cases own : key = (data.tokenTxHash, data.operatorPubkey)
      · rw [own, AList.lookup_insert]
        rfl
      · rw [AList.lookup_insert_ne own]
        exact known
    · exact fun hash => (inserted.status hash).trans (advances.status hash)

/-- Updating a status finalizes only a settled transaction, and leaves a settled one
finalized. -/
theorem consumed_updateStatus (handled : List SparkHash) {data : SparkSignatureData}
    (notWithdrawn : ∀ place index, tables.spender place = some (data.tokenTxHash, index) →
      ∀ exit ∈ exits, ¬ Withdraws prims tables exit place) :
    Consumed prims (updateStatus prims (tables, handled) data).1 stored exits ∧
      ∀ hash, tables.getTokenTransactionStatus hash = .finalized →
        (updateStatus prims (tables, handled) data).1.getTokenTransactionStatus hash =
          .finalized := by
  rcases updateStatus_cases collisionFree hashable consumed.recorded consumed.links handled data with
    same | ⟨tx, mem, named, linked, -, written⟩
  · rw [same]
    exact ⟨consumed, fun _ finalized => finalized⟩
  · have present := consumed.recorded.present mem
    have verdict := finalized_iff_settled consumed.recorded consumed.links mem linked
    rw [written]
    generalize checkSparkTxFinalization tx.outputsToSpend.length
      (tables.getSparkSignatures (tx.hash prims))
      (tables.getRevocationSecretKeys (tx.hash prims)) = status at verdict
    have spender := spender_setTokenTransactionStatus tables (tx.hash prims) status
    have fixedRow := @fixedRow_setTokenTransactionStatus tables (tx.hash prims) status
    have statuses := fun hash =>
      getTokenTransactionStatus_set tables (tx.hash prims) hash status present
    have secrets := revocationSecret_of_output
      (@output_setTokenTransactionStatus tables (tx.hash prims) status)
    have keep : ∀ other, Settled prims tables other → Settled prims
        (tables.setTokenTransactionStatus (tx.hash prims) status) other := by
      intro other settled
      apply settled.keep
      · intro input _
        rw [spender]
      · rw [operatorSignatures_setTokenTransactionStatus]
        exact fun _ known => known
      · rw [secrets]
        exact fun _ _ known => known
    refine ⟨⟨?_, ?_, ?_, ?_, ?_⟩, ?_⟩
    · rw [fixedRow]
      exact consumed.recorded
    · exact linksDeclared_of_spender consumed.links spender
    · exact consumed.secrets.of_eq secrets
    · intro other otherMem finalized
      apply keep
      rw [statuses] at finalized
      split at finalized
      case isTrue same =>
        obtain rfl := List.inj_on_of_nodup_map consumed.recorded.hashes otherMem mem same
        exact verdict.mp finalized
      case isFalse => exact consumed.settled other otherMem finalized
    · intro place hash index spent exit exitMem
      unfold SpentFinally at spent
      rw [spender, statuses] at spent
      rw [withdraws_congr (sparkId_of_fixedRow (congrFun fixedRow _))]
      by_cases own : hash = tx.hash prims
      · exact notWithdrawn place index (by rw [spent.1, own, named]) exit exitMem
      · rw [if_neg own] at spent
        exact consumed.notWithdrawn place hash index spent exit exitMem
    · intro hash finalized
      rw [statuses]
      split
      case isTrue own =>
        rw [own] at finalized
        exact verdict.mpr (consumed.settled tx mem finalized)
      case isFalse => exact finalized

/-- Handling a batch of signature data finalizes nothing that spends a withdrawn leaf, and what
was finalized stays so. -/
theorem consumed_checkSparkSignatures (oneSecret : Function.Injective prims.publicKeyOf)
    (queue : SparkQueue) {sigs : List SparkSignatureData}
    (notWithdrawn : ∀ data ∈ sigs, ∀ place index,
      tables.spender place = some (data.tokenTxHash, index) →
      ∀ exit ∈ exits, ¬ Withdraws prims tables exit place) :
    Consumed prims (checkSparkSignatures prims tables queue sigs).1 stored exits ∧
      ∀ hash, tables.getTokenTransactionStatus hash = .finalized →
        (checkSparkSignatures prims tables queue sigs).1.getTokenTransactionStatus hash =
          .finalized := by
  -- Links and rows stay throughout both loops, so the hypotheses about them carry over.
  let Kept (tables' : SparkTables) : Prop := Consumed prims tables' stored exits ∧
    tables'.spender = tables.spender ∧ tables'.fixedRow = tables.fixedRow ∧
    ∀ hash, tables.getTokenTransactionStatus hash = .finalized →
      tables'.getTokenTransactionStatus hash = .finalized
  have start : Kept tables := ⟨consumed, rfl, rfl, fun _ finalized => finalized⟩
  have signed : Kept (sigs.foldl (storeSignature prims) tables) := by
    apply List.foldlRecOn (motive := Kept) _ _ start
    rintro tables' ⟨held, spender, fixedRow, statuses⟩ data _
    obtain ⟨next, same⟩ := consumed_storeSignature collisionFree (hashable.of_spender spender) held
      oneSecret data
    refine ⟨next, (spender_kept _).storeSignature data spender,
      (fixedRow_kept _).storeSignature data fixedRow, ?_⟩
    intro hash finalized
    rw [same]
    exact statuses hash finalized
  have updated : Kept (sigs.foldl (updateStatus prims)
      (sigs.foldl (storeSignature prims) tables, [])).1 := by
    apply List.foldlRecOn (motive := fun state : SparkTables × List SparkHash => Kept state.1) _ _
      signed
    rintro ⟨tables', handled⟩ ⟨held, spender, fixedRow, statuses⟩ data mem
    have unwithdrawn : ∀ place index, tables'.spender place = some (data.tokenTxHash, index) →
        ∀ exit ∈ exits, ¬ Withdraws prims tables' exit place := by
      intro place index linked exit exitMem
      rw [spender] at linked
      rw [withdraws_congr (sparkId_of_fixedRow (congrFun fixedRow _))]
      exact notWithdrawn data mem place index linked exit exitMem
    obtain ⟨next, later⟩ := consumed_updateStatus collisionFree (hashable.of_spender spender) held
      handled unwithdrawn
    exact ⟨next, (spender_kept _).updateStatus _ data spender,
      (fixedRow_kept _).updateStatus _ data fixedRow,
      fun hash finalized => later hash (statuses hash finalized)⟩
  exact ⟨updated.1, updated.2.2.2⟩

end

theorem spentFinally_inserted (inserted : SparkTables.Inserted prims tables tx tables')
    (unspent : ∀ input ∈ tx.outputsToSpend, ∀ hash index,
      ¬ SpentFinally tables input.outPoint hash index)
    (place : SparkOutPoint) (hash : SparkHash) (index : Nat) :
    SpentFinally tables' place hash index ↔ SpentFinally tables place hash index := by
  have started : tables.getTokenTransactionStatus (tx.hash prims) = .started := by
    unfold getTokenTransactionStatus
    rw [inserted.fresh]
  have statuses : tables'.getTokenTransactionStatus hash = tables.getTokenTransactionStatus hash := by
    rw [status_inserted inserted]
    split
    case isTrue own => rw [own, started]
    case isFalse => rfl
  rcases spender_inserted inserted place with ⟨input, own, there, rfl, spends⟩ | ⟨-, same⟩
  · have before := unspent input (List.mem_of_getElem? there) hash index
    refine iff_of_false ?_ before
    rintro ⟨linked, finalized⟩
    rw [spends] at linked
    obtain ⟨rfl, -⟩ := Prod.mk.inj (Option.some.inj linked)
    rw [statuses, started] at finalized
    cases finalized
  · unfold SpentFinally
    rw [same, statuses]

theorem Consumed.insert {exits : List Lrc20Transaction}
    (consumed : Consumed prims tables stored exits)
    (inserted : SparkTables.Inserted prims tables tx tables')
    (unspent : ∀ input ∈ tx.outputsToSpend, ∀ hash index,
      ¬ SpentFinally tables input.outPoint hash index) :
    Consumed prims tables' (stored ++ [tx]) exits := by
  have sameSecrets := revocationSecret_inserted inserted
  constructor
  case recorded => exact consumed.recorded.insert inserted
  case links => exact consumed.links.insert inserted
  case secrets => exact consumed.secrets.insert inserted
  case settled =>
    intro other mem finalized
    rw [status_inserted inserted] at finalized
    split at finalized
    case isTrue => cases finalized
    case isFalse differs =>
      rcases List.mem_append.mp mem with old | new
      · have settled := consumed.settled other old finalized
        apply settled.keep
        · intro input spent
          obtain ⟨index, there⟩ := List.mem_iff_getElem?.mp spent
          have linked := linkedInputs_eq_iff.mp settled.linked index input there
          have after := (spentFinally_inserted inserted unspent _ _ _).mpr ⟨linked, finalized⟩
          exact after.1.trans linked.symm
        · obtain ⟨row, -, linked⟩ := inserted.linked
          rw [linked.operatorSignatures]
          exact fun _ known => known
        · intro place secret known
          rw [sameSecrets]
          exact known
      · exact absurd (congrArg (·.hash prims) (List.mem_singleton.mp new)) differs
  case notWithdrawn =>
    intro place hash index spent exit mem
    have before := (spentFinally_inserted inserted unspent _ _ _).mp spent
    obtain ⟨row, -, rows⟩ := fixedRow_inserted inserted
    have old : place.tokenTransactionHash ≠ tx.hash prims := by
      intro own
      have linked := before.1
      unfold spender SparkTables.output at linked
      rw [own, inserted.fresh] at linked
      cases linked
    have sameRow : tables'.fixedRow place.tokenTransactionHash =
        tables.fixedRow place.tokenTransactionHash := by
      rw [rows]
      exact if_neg old
    rw [withdraws_congr (sparkId_of_fixedRow sameRow)]
    exact consumed.notWithdrawn place hash index before exit mem

/-! ### Runs -/

section Runs

variable {validateAnnouncement : Bool}

/-- No leaf of a finalized transaction is spent or withdrawn again, and no transfer of a
withdrawn leaf is signed. -/
def ConsumesOnce (prims : Primitives) (node : SparkNode) : SparkNode.Input → Prop
  | .newSparkTxs txs => ∀ tx ∈ txs, node.tables.transactions.lookup (tx.hash prims) = none →
      ∀ input ∈ tx.outputsToSpend, ∀ hash index,
        ¬ SpentFinally node.tables input.outPoint hash index
  | .checkSparkTxs _ _ _ => True
  | .checkSparkSignatures sigs => ∀ data ∈ sigs, ∀ place index,
      node.tables.spender place = some (data.tokenTxHash, index) →
      ∀ exit ∈ node.exits, ¬ Withdraws prims node.tables exit place
  | .checkSparkExit _ bitcoinTx outputProofs => ∀ place,
      Withdraws prims node.tables ⟨bitcoinTx, .sparkExit outputProofs⟩ place →
      ∀ hash index, ¬ SpentFinally node.tables place hash index

def StaysSpent (node later : SparkNode) : Prop :=
  ∀ place hash index, SpentFinally node.tables place hash index →
    SpentFinally later.tables place hash index

/-- Storing a batch. The links of finalized transactions are the same at every turn of the
loop. -/
theorem consumed_handleNewSparkTxs {txs : List TokenTransaction}
    (consumed : Consumed prims tables stored exits)
    (unspent : ∀ tx ∈ txs, tables.transactions.lookup (tx.hash prims) = none →
      ∀ input ∈ tx.outputsToSpend, ∀ hash index, ¬ SpentFinally tables input.outPoint hash index) :
    let handled := handleNewSparkTxs prims txs tables
    Consumed prims handled.1 (stored ++ handled.2.1) exits ∧
      ∀ place hash index, SpentFinally handled.1 place hash index ↔
        SpentFinally tables place hash index := by
  let Kept (tables' : SparkTables) (stored' : List TokenTransaction) : Prop :=
    Consumed prims tables' stored' exits ∧
    (∀ hash, tables'.fixedRow hash = none → tables.fixedRow hash = none) ∧
    ∀ place hash index, SpentFinally tables' place hash index ↔ SpentFinally tables place hash index
  have keeps : ∀ before after stored', ∀ tx ∈ txs, Kept before stored' →
      SparkTables.Inserted prims before tx after → Kept after (stored' ++ [tx]) := by
    rintro before after stored' tx mem ⟨held, absent, same⟩ inserted
    have fresh : tables.transactions.lookup (tx.hash prims) = none := by
      have none := absent (tx.hash prims) (by simp [fixedRow, inserted.fresh])
      exact Option.map_eq_none_iff.mp none
    have free : ∀ input ∈ tx.outputsToSpend, ∀ hash index,
        ¬ SpentFinally before input.outPoint hash index := by
      intro input spent hash index
      rw [same]
      exact unspent tx mem fresh input spent hash index
    refine ⟨held.insert inserted free, ?_, ?_⟩
    · intro hash none
      obtain ⟨row, -, rows⟩ := fixedRow_inserted inserted
      rw [rows] at none
      simp only at none
      split at none
      case isTrue => cases none
      case isFalse => exact absent hash none
    · intro place hash index
      rw [spentFinally_inserted inserted free, same]
  have start : Kept tables stored := ⟨consumed, fun _ none => none, fun _ _ _ => Iff.rfl⟩
  have handled := handleNewSparkTxs_keeps keeps start
  exact ⟨handled.1, handled.2.2⟩

/-- An exit marks leaves, and is recorded when it is accepted. -/
theorem consumed_checkSparkExit (oneSecret : Function.Injective prims.publicKeyOf)
    {node : SparkNode} (consumed : Consumed prims node.tables node.stored node.exits)
    {client : BitcoinClient} {bitcoinTx : Transaction} {outputProofs : ProofMap}
    (unspent : ∀ place, Withdraws prims node.tables ⟨bitcoinTx, .sparkExit outputProofs⟩ place →
      ∀ hash index, ¬ SpentFinally node.tables place hash index) :
    let next := SparkNode.step prims validateAnnouncement node
      (.checkSparkExit client bitcoinTx outputProofs)
    Consumed prims next.tables next.stored next.exits ∧ StaysSpent node next := by
  intro next
  obtain ⟨⟨tables, exits⟩ | ⟨block, tables, exits⟩, stored, -, -⟩ := @step_checkSparkExit prims
    validateAnnouncement node client bitcoinTx outputProofs
  · unfold StaysSpent
    rw [tables, exits, stored]
    exact ⟨consumed, fun _ _ _ spent => spent⟩
  · obtain ⟨advances, secrets, operators⟩ := @checkExitProofs_advances prims bitcoinTx.txid block
      outputProofs.entries node.tables
    have marked := consumed.advance oneSecret advances (consumed.secrets.of_eq secrets)
      (by rw [operators]; exact fun _ known => known)
    rw [← tables, ← stored] at marked
    rw [← tables] at advances
    have spentBefore : ∀ place hash index, SpentFinally next.tables place hash index ↔
        SpentFinally node.tables place hash index := by
      intro place hash index
      unfold SpentFinally
      rw [advances.spender, advances.status]
    refine ⟨{ marked with notWithdrawn := ?_ },
      fun place hash index => (spentBefore place hash index).mpr⟩
    intro place hash index spent exit mem
    rw [exits] at mem
    split at mem
    case isFalse => exact marked.notWithdrawn place hash index spent exit mem
    case isTrue =>
      rcases List.mem_append.mp mem with old | new
      · exact marked.notWithdrawn place hash index spent exit old
      · obtain rfl := List.mem_singleton.mp new
        intro withdraws
        rw [withdraws_congr (sparkId_of_fixedRow (congrFun advances.fixedRow _))] at withdraws
        exact unspent place withdraws hash index ((spentBefore place hash index).mp spent)

theorem consumed_step (collisionFree : Set.InjOn prims.sha256 hashed)
    (oneSecret : Function.Injective prims.publicKeyOf) (node : SparkNode) (input : SparkNode.Input)
    (consumed : Consumed prims node.tables node.stored node.exits)
    (condition : Hashable prims hashed node.tables node.stored ∧ ConsumesOnce prims node input) :
    let next := SparkNode.step prims validateAnnouncement node input
    Consumed prims next.tables next.stored next.exits ∧ StaysSpent node next := by
  obtain ⟨hashable, once⟩ := condition
  cases input with
  | newSparkTxs txs =>
    obtain ⟨next, same⟩ := consumed_handleNewSparkTxs consumed once
    exact ⟨next, fun place hash index => (same place hash index).mpr⟩
  | checkSparkTxs l1 txs sender => exact ⟨consumed, fun _ _ _ spent => spent⟩
  | checkSparkSignatures sigs =>
    obtain ⟨tables, stored⟩ := @step_checkSparkSignatures prims validateAnnouncement node sigs
    obtain ⟨-, exits⟩ := @step_checkSparkSignatures_history prims validateAnnouncement node sigs
    obtain ⟨next, finalized⟩ := consumed_checkSparkSignatures collisionFree hashable consumed
      oneSecret node.queue once
    intro after
    constructor
    · rw [tables, stored, exits]
      exact next
    · rintro place hash index ⟨linked, status⟩
      unfold SpentFinally
      rw [tables, (spender_kept _).checkSparkSignatures node.queue sigs rfl]
      exact ⟨linked, finalized hash status⟩
  | checkSparkExit client bitcoinTx outputProofs => exact consumed_checkSparkExit oneSecret consumed once

/-- In every run whose steps meet the condition, a leaf is the input of at most one finalized
transfer and then of no accepted exit, and its recorded spender does not change any more. -/
theorem leaf_consumed_once (prims : Primitives) (validateAnnouncement : Bool)
    (before after : List SparkNode.Input) (hashed : Set Bytes)
    (collisionFree : Set.InjOn prims.sha256 hashed)
    (oneSecret : Function.Injective prims.publicKeyOf)
    (hashable : AllSteps (SparkNode.step prims validateAnnouncement)
      (fun node _ => Hashable prims hashed node.tables node.stored) SparkNode.new (before ++ after))
    (consumesOnce : AllSteps (SparkNode.step prims validateAnnouncement) (ConsumesOnce prims)
      SparkNode.new (before ++ after)) :
    let node := runFrom (SparkNode.step prims validateAnnouncement) SparkNode.new before
    let later := runFrom (SparkNode.step prims validateAnnouncement) SparkNode.new (before ++ after)
    (∀ tx ∈ node.stored, node.tables.getTokenTransactionStatus (tx.hash prims) = .finalized →
      ∀ input ∈ tx.outputsToSpend,
        (∀ other ∈ node.stored,
          node.tables.getTokenTransactionStatus (other.hash prims) = .finalized →
          input ∈ other.outputsToSpend → tx = other) ∧
        ∀ exit ∈ node.exits, ¬ Withdraws prims node.tables exit input.outPoint) ∧
    ∀ place hash index, SpentFinally node.tables place hash index →
      SpentFinally later.tables place hash index := by
  intro node later
  have start : Consumed prims SparkNode.new.tables SparkNode.new.stored SparkNode.new.exits :=
    ⟨recorded_new, vouched_new.links, vouched_new.secrets, by simp [SparkNode.new],
      by simp [SparkNode.new]⟩
  obtain ⟨first, rest⟩ := (allSteps_append _ _ _).mp (hashable.and consumesOnce)
  have consumed : Consumed prims node.tables node.stored node.exits :=
    first.invariant (I := fun node : SparkNode =>
      Consumed prims node.tables node.stored node.exits)
      (fun node input held condition =>
        (consumed_step collisionFree oneSecret node input held condition).1) start
  have linkOf : ∀ tx ∈ node.stored,
      node.tables.getTokenTransactionStatus (tx.hash prims) = .finalized →
      ∀ input ∈ tx.outputsToSpend, ∃ index,
        SpentFinally node.tables input.outPoint (tx.hash prims) index := by
    intro tx mem finalized input spent
    obtain ⟨index, there⟩ := List.mem_iff_getElem?.mp spent
    have settled := consumed.settled tx mem finalized
    exact ⟨index, linkedInputs_eq_iff.mp settled.linked index input there, finalized⟩
  refine ⟨?_, ?_⟩
  · intro tx mem finalized input spent
    obtain ⟨index, link⟩ := linkOf tx mem finalized input spent
    refine ⟨?_, consumed.notWithdrawn _ _ _ link⟩
    intro other otherMem otherFinalized otherSpent
    obtain ⟨index', link'⟩ := linkOf other otherMem otherFinalized input otherSpent
    have same := Option.some.inj (link.1.symm.trans link'.1)
    exact List.inj_on_of_nodup_map consumed.recorded.hashes mem otherMem (Prod.mk.inj same).1
  · have stays : StaysSpent node (runFrom (SparkNode.step prims validateAnnouncement) node after) :=
      rest.related (I := fun node : SparkNode =>
        Consumed prims node.tables node.stored node.exits)
        (fun _ _ _ _ spent => spent)
        (fun a b c ab bc place hash index spent => bc place hash index (ab place hash index spent))
        (consumed_step collisionFree oneSecret) consumed
    rw [← runFrom_append] at stays
    exact stays

/-- Another transfer of the leaf that `signedTransfer` spends. -/
def rivalTransfer : TokenTransaction := plainTransfer (plainMint "a" 5) "c" 5

/-- Both transfers are stored, checked and signed by all operators, one after the other. -/
def rivalsSigned : List SparkNode.Input :=
  [.newSparkTxs [plainMint "a" 5, signedTransfer],
    .checkSparkTxs L1Tables.empty [plainMint "a" 5, signedTransfer] none,
    .checkSparkSignatures [plainSignatureData signedTransfer (.repeating 4),
      plainSignatureData signedTransfer (.repeating 5),
      plainSignatureData signedTransfer (.repeating 6)],
    .newSparkTxs [rivalTransfer],
    .checkSparkTxs L1Tables.empty [rivalTransfer] none,
    .checkSparkSignatures [plainSignatureData rivalTransfer (.repeating 4),
      plainSignatureData rivalTransfer (.repeating 5),
      plainSignatureData rivalTransfer (.repeating 6)]]

theorem rivals_both_finalized :
    let node := runFrom (SparkNode.step .plain false) SparkNode.new rivalsSigned
    node.accepted = [plainMint "a" 5, signedTransfer, rivalTransfer] ∧
    node.tables.getTokenTransactionStatus (signedTransfer.hash .plain) = .finalized ∧
    node.tables.getTokenTransactionStatus (rivalTransfer.hash .plain) = .finalized ∧
    signedTransfer.outputsToSpend = rivalTransfer.outputsToSpend ∧
    signedTransfer.outputsToSpend ≠ [] ∧ signedTransfer ≠ rivalTransfer := by
  decide +kernel

def mintedLeaf : TokenLeafToSpend := ⟨(plainMint "a" 5).hash .plain, 0⟩

theorem mintedLeaf_consumed_once :
    let node := runFrom (SparkNode.step .plain true) SparkNode.new operatorsSign
    (∀ other ∈ node.stored, node.tables.getTokenTransactionStatus (other.hash .plain) = .finalized →
      mintedLeaf ∈ other.outputsToSpend → signedTransfer = other) ∧
    SpentFinally (runFrom (SparkNode.step .plain true) SparkNode.new
        (operatorsSign ++ [.checkSparkTxs L1Tables.empty [rivalTransfer] none])).tables
      mintedLeaf.outPoint (signedTransfer.hash .plain) 0 := by
  intro node
  have state : Hashable .plain {part | part ∈ operatorsSignHashed} node.tables node.stored := by
    apply hashable_of_operatorsSign
    · decide +kernel
    · decide +kernel
    · decide +kernel
  have hashable : AllSteps (SparkNode.step .plain true) (fun node _ =>
      Hashable .plain {part | part ∈ operatorsSignHashed} node.tables node.stored) SparkNode.new
      (operatorsSign ++ [.checkSparkTxs L1Tables.empty [rivalTransfer] none]) :=
    (allSteps_append _ _ _).mpr ⟨operatorsSign_hashable, state, trivial⟩
  have conditions : AllSteps (SparkNode.step .plain true) (ConsumesOnce .plain) SparkNode.new
      (operatorsSign ++ [.checkSparkTxs L1Tables.empty [rivalTransfer] none]) := by
    refine ⟨?_, ?_, trivial, trivial⟩
    · intro tx _ _ input _ hash index spent
      cases spent.1
    · intro data _ place index _ exit mem
      have none : (SparkNode.step .plain true SparkNode.new
        (.newSparkTxs [plainMint "a" 5, signedTransfer])).exits = [] := rfl
      rw [none] at mem
      cases mem
  obtain ⟨once, stays⟩ := leaf_consumed_once .plain true operatorsSign
    [.checkSparkTxs L1Tables.empty [rivalTransfer] none] {part | part ∈ operatorsSignHashed}
    operatorsSign_distinct (by intro a b same; exact (PublicKey.mk.inj same).2) hashable conditions
  refine ⟨?_, stays _ _ _ ⟨by decide +kernel, by decide +kernel⟩⟩
  exact (once signedTransfer (by decide +kernel) (by decide +kernel) mintedLeaf
    (by decide +kernel)).1

end Runs

end Lrc20.Node
