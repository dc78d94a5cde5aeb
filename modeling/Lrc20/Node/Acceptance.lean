import Lrc20.Node.Links
import Lrc20.TxCheck.Conservation
import Lrc20.TxCheck.Verdict

/-! What the parents of an accepted Spark transaction are, and where its amounts come from. -/

open FixedWidth Lrc20.Storage Lrc20.TxCheck Runs Tally

namespace Lrc20.TxCheck

theorem checkSparkTransaction_passes {prims : Primitives} {tables : SparkTables} {l1 : L1Tables}
    {validateAnnouncement : Bool} {tx : TokenTransaction} {sender : Option SocketAddr}
    {state : SparkChecking}
    (passes : (checkSparkTransaction prims tables l1 validateAnnouncement tx sender state).2 = true) :
    (∃ issuer signature timestamp, tx.input = .mint issuer (some signature) timestamp ∧
      signature.ownerSignature.verify prims issuer (tx.hash prims)
        signature.operatorIdentityPublicKey ∧
      ∀ leaf ∈ tx.leavesToCreate, leaf.tokenPubkey = issuer) ∨
    (¬ tx.isMint ∧ ∃ leaves : List TokenLeafOutput,
      tx.outputsToSpend.map (findLeaf tables state.checkedTxs) = leaves.map some ∧
      checkSparkConservationRules leaves tx.leavesToCreate) := by
  obtain ⟨valid, -⟩ := checkSparkTransaction_iff.mp passes
  rcases valid.kind with ⟨issuer, signature, timestamp, input, signed, issued⟩ | transfer
  · refine .inl ⟨issuer, signature, timestamp, input, signed, ?_⟩
    intro leaf mem
    have own := issued leaf mem
    simp only [isLeafOfIssuer, Bool.and_eq_true, beq_iff_eq] at own
    exact own.1
  · obtain ⟨leaves, spendable, conserved⟩ := transfer.conserves
    refine .inr ⟨by simp [transfer.transfer], leaves, ?_, conserved⟩
    apply List.ext_getElem?
    intro index
    have there := congrArg (·[index]?) spendable
    simp only [List.getElem?_map] at there ⊢
    cases found : tx.outputsToSpend[index]? with
    | none => rw [found] at there; exact there
    | some input =>
      rw [found] at there
      simp only [Option.map_some] at there ⊢
      obtain ⟨leaf, atIndex, same⟩ := Option.map_eq_some_iff.mp there.symm
      rw [atIndex, findLeaf_of_spendableLeaf same.symm]
      rfl

end Lrc20.TxCheck

namespace Lrc20.Node

variable {prims : Primitives} {a b : List TokenLeafOutput}

theorem tokenSum_of_worth (same : a.map worth = b.map worth) (token : TokenPubkey) :
    tokenSum token a = tokenSum token b := by
  rw [tokenSum_eq_total, tokenSum_eq_total, same]

theorem worth_of_hashed (same : a.map TokenLeafOutput.hashed = b.map TokenLeafOutput.hashed) :
    a.map worth = b.map worth := by
  have both := congrArg (List.map fun leaf : HashedLeaf => (leaf.tokenPubkey, leaf.amount)) same
  rw [List.map_map, List.map_map] at both
  exact both

/-- A mint that its issuer signed, of the issuer's own token. -/
def SignedMint (prims : Primitives) (tx : TokenTransaction) : Prop :=
  ∃ issuer signature timestamp, tx.input = .mint issuer (some signature) timestamp ∧
    signature.ownerSignature.verify prims issuer (tx.hash prims)
      signature.operatorIdentityPublicKey ∧
    ∀ leaf ∈ tx.leavesToCreate, leaf.tokenPubkey = issuer

/-- A leaf of one of the transactions, named by an input. -/
def LeafAmong (prims : Primitives) (txs : List TokenTransaction) (input : TokenLeafToSpend)
    (leaf : TokenLeafOutput) : Prop :=
  ∃ parent ∈ txs, parent.hash prims = input.parentOutputHash ∧
    parent.leavesToCreate[input.parentOutputVout.toNat]? = some leaf

/-- A transfer of leaves of the transactions that keeps the sum of every token. -/
def ConservingTransfer (prims : Primitives) (txs : List TokenTransaction) (tx : TokenTransaction) :
    Prop :=
  ¬ tx.isMint ∧ ∃ leaves, List.Forall₂ (LeafAmong prims txs) tx.outputsToSpend leaves ∧
    ∀ token, tokenSum token leaves = tokenSum token tx.leavesToCreate

/-- Every transaction is a signed mint or a conserving transfer of leaves of earlier ones. -/
inductive Grounded (prims : Primitives) : List TokenTransaction → Prop where
  | nil : Grounded prims []
  | snoc {earlier : List TokenTransaction} {tx : TokenTransaction}
      (grounded : Grounded prims earlier)
      (supported : SignedMint prims tx ∨ ConservingTransfer prims earlier tx) :
      Grounded prims (earlier ++ [tx])

/-- The amounts of the transaction come from signed mints: it is one, or it conserves what it
spends of transactions for which that is true. -/
inductive Traced (prims : Primitives) : TokenTransaction → Prop where
  | mint {tx : TokenTransaction} (signed : SignedMint prims tx) : Traced prims tx
  | transfer {tx : TokenTransaction} {leaves : List TokenLeafOutput}
      (parents : List TokenTransaction) (traced : ∀ parent ∈ parents, Traced prims parent)
      (spent : List.Forall₂ (LeafAmong prims parents) tx.outputsToSpend leaves)
      (conserved : ∀ token, tokenSum token leaves = tokenSum token tx.leavesToCreate) :
      Traced prims tx

theorem Grounded.traced {accepted : List TokenTransaction} (grounded : Grounded prims accepted) :
    ∀ tx ∈ accepted, Traced prims tx := by
  induction grounded with
  | nil => simp
  | snoc _ supported ih =>
    intro tx mem
    rcases List.mem_append.mp mem with old | new
    · exact ih tx old
    · obtain rfl := List.mem_singleton.mp new
      rcases supported with signed | ⟨-, leaves, spent, conserved⟩
      · exact .mint signed
      · exact .transfer _ ih spent conserved

/-! ### One batch -/

section Batch

variable {tables : SparkTables} {stored accepted : List TokenTransaction} {hashed : Set Bytes}
  {state : SparkChecking} {validateAnnouncement : Bool} {sender : Option SocketAddr}
  {tx : TokenTransaction} {l1 : L1Tables} {leaves : List TokenLeafOutput}
  {start txs : List TokenTransaction}

/-- The leaves the inputs of a transaction are resolved to. -/
def spentLeaves (tables : SparkTables) (state : SparkChecking) (tx : TokenTransaction) :
    List TokenLeafOutput :=
  tx.outputsToSpend.filterMap (findLeaf tables state.checkedTxs)

/-- The stored transactions it spends from passed their check, and the amounts it spends or
those it creates fit. -/
structure ParentsAccepted (prims : Primitives) (tables : SparkTables)
    (accepted : List TokenTransaction) (state : SparkChecking) (tx : TokenTransaction) : Prop where
  parents : ∀ input ∈ tx.outputsToSpend,
    (tables.transactions.lookup input.parentOutputHash).isSome →
    input.parentOutputHash ∈ accepted.map (·.hash prims) ∨ input.parentOutputHash ∈ state.checkedTxs
  fit : SumsFit (spentLeaves tables state tx) ∨ SumsFit tx.leavesToCreate

theorem spentLeaves_eq
    (found : tx.outputsToSpend.map (findLeaf tables state.checkedTxs) = leaves.map some) :
    spentLeaves tables state tx = leaves := by
  unfold spentLeaves
  rw [← Function.id_comp (findLeaf tables state.checkedTxs), ← List.filterMap_map, found,
    List.filterMap_map]
  exact List.filterMap_some

/-- What passed earlier in the batch counts as accepted. -/
def CheckedAccepted (prims : Primitives) (accepted : List TokenTransaction)
    (state : SparkChecking) : Prop :=
  ∀ hash tx, state.checkedTxs.lookup hash = some tx → tx ∈ accepted ∧ tx.hash prims = hash

/-- The leaves found for the inputs are those of accepted transactions. -/
theorem forall₂_leafAmong {inputs : List TokenLeafToSpend}
    (each : ∀ input leaf, findLeaf tables state.checkedTxs input = some leaf →
      input ∈ inputs → ∃ original, LeafAmong prims accepted input original ∧
        worth original = worth leaf)
    (found : inputs.map (findLeaf tables state.checkedTxs) = leaves.map some) :
    ∃ originals, List.Forall₂ (LeafAmong prims accepted) inputs originals ∧
      originals.map worth = leaves.map worth := by
  induction inputs generalizing leaves with
  | nil =>
    obtain rfl : leaves = [] := by simpa using found.symm
    exact ⟨[], .nil, rfl⟩
  | cons input rest ih =>
    cases leaves with
    | nil => cases found
    | cons leaf others =>
      obtain ⟨own, tail⟩ := List.cons.inj found
      obtain ⟨original, among, same⟩ := each input leaf own (by simp)
      obtain ⟨originals, amongRest, sameRest⟩ :=
        ih (fun input leaf found mem => each input leaf found (by simp [mem])) tail
      exact ⟨original :: originals, .cons among amongRest, by simp [same, sameRest]⟩

section

variable (collisionFree : Set.InjOn prims.sha256 hashed)
  (recorded : Recorded prims tables.fixedRow stored) (links : LinksDeclared prims tables stored)
  (storedWithin : ∀ tx ∈ stored, SparkHash.Within prims hashed tx)
  (acceptedWithin : ∀ tx ∈ accepted, SparkHash.Within prims hashed tx)
  (checked : CheckedAccepted prims accepted state)
include collisionFree recorded links storedWithin acceptedWithin checked

theorem leafAmong_of_findLeaf {input : TokenLeafToSpend} {leaf : TokenLeafOutput}
    (parentAccepted : (tables.transactions.lookup input.parentOutputHash).isSome →
      input.parentOutputHash ∈ accepted.map (·.hash prims))
    (found : findLeaf tables state.checkedTxs input = some leaf) :
    ∃ original, LeafAmong prims accepted input original ∧ worth original = worth leaf := by
  obtain ⟨parent, resolved, there⟩ := Option.bind_eq_some_iff.mp found
  unfold findParent at resolved
  cases rebuilt : tables.getSparkTxWithOutputs input.parentOutputHash with
  | none =>
    rw [rebuilt, Option.none_or] at resolved
    obtain ⟨mem, hash⟩ := checked _ _ resolved
    exact ⟨leaf, ⟨parent, mem, hash, there⟩, rfl⟩
  | some fromRows =>
    rw [rebuilt, Option.some_or] at resolved
    obtain rfl := Option.some.inj resolved
    obtain ⟨row, present, -⟩ := Option.bind_eq_some_iff.mp rebuilt
    obtain ⟨own, ownMem, ownHash⟩ := stored_of_rebuilt recorded rebuilt
    obtain ⟨other, mem, hash⟩ := List.mem_map.mp (parentAccepted (by rw [present]; rfl))
    have content := SparkHash.sameContent_of_hash collisionFree (acceptedWithin other mem)
      (storedWithin own ownMem) (hash.trans ownHash.symm)
    have back := rebuilt_sameContent recorded links ownMem (ownHash ▸ rebuilt)
    have leaves : other.leavesToCreate.map worth = fromRows.leavesToCreate.map worth := by
      rw [worth_of_hashed content.leaves, worth_of_hashed back.leaves, restored, List.map_map]
      rfl
    have original := congrArg (·[input.parentOutputVout.toNat]?) leaves
    simp only [List.getElem?_map, there, Option.map_some, Option.map_eq_some_iff] at original
    obtain ⟨leaf', there', same⟩ := original
    exact ⟨leaf', ⟨other, mem, hash, there'⟩, same⟩

theorem supported_of_passes (older : start ⊆ accepted)
    (condition : ParentsAccepted prims tables start state tx)
    (passes :
      (checkSparkTransaction prims tables l1 validateAnnouncement tx sender state).2 = true) :
    SignedMint prims tx ∨ ConservingTransfer prims accepted tx := by
  rcases checkSparkTransaction_passes passes with signed | ⟨transfer, leaves, found, conserved⟩
  · exact .inl signed
  · right
    have fit := condition.fit
    rw [spentLeaves_eq found] at fit
    have parentAccepted : ∀ input ∈ tx.outputsToSpend,
        (tables.transactions.lookup input.parentOutputHash).isSome →
        input.parentOutputHash ∈ accepted.map (·.hash prims) := by
      intro input mem present
      rcases condition.parents input mem present with before | inBatch
      · exact List.map_subset _ older before
      · obtain ⟨parent, lookup⟩ := Option.isSome_iff_exists.mp (AList.lookup_isSome.mpr inBatch)
        obtain ⟨parentMem, hash⟩ := checked _ _ lookup
        exact List.mem_map.mpr ⟨parent, parentMem, hash⟩
    obtain ⟨originals, among, same⟩ := forall₂_leafAmong (fun input leaf found mem =>
      leafAmong_of_findLeaf collisionFree recorded links storedWithin acceptedWithin checked
        (parentAccepted input mem) found) found
    refine ⟨transfer, originals, among, fun token => ?_⟩
    rw [tokenSum_of_worth same]
    exact tokenSum_of_conserved conserved fit token

/-- A batch whose parents are accepted adds only supported transactions. -/
theorem grounded_passed (txsWithin : ∀ tx ∈ txs, SparkHash.Within prims hashed tx)
    (older : start ⊆ accepted) (grounded : Grounded prims accepted)
    (conditions : AllSteps (checkNextSparkTx prims tables l1 validateAnnouncement sender)
      (ParentsAccepted prims tables start) state txs) :
    Grounded prims (accepted ++
      SparkNode.passed prims validateAnnouncement tables l1 sender txs state) := by
  induction txs generalizing state accepted with
  | nil => simpa [SparkNode.passed] using grounded
  | cons tx rest ih =>
    have restWithin : ∀ tx ∈ rest, SparkHash.Within prims hashed tx :=
      fun tx mem => txsWithin tx (by simp [mem])
    have kept := @checkSparkTransaction_checkedTxs prims tables l1 validateAnnouncement tx sender
      state
    unfold SparkNode.passed
    simp only
    split
    case isFalse fails =>
      apply ih acceptedWithin _ restWithin older grounded conditions.2
      intro hash other found
      unfold checkNextSparkTx at found
      simp only [fails, if_false, Bool.false_eq_true, kept] at found
      exact checked hash other found
    case isTrue passes =>
      have supported := supported_of_passes collisionFree recorded links storedWithin
        acceptedWithin checked older conditions.1 passes
      rw [List.append_cons]
      apply ih _ _ restWithin _ (grounded.snoc supported) conditions.2
      · intro other mem
        rcases List.mem_append.mp mem with old | new
        · exact acceptedWithin other old
        · exact txsWithin other (by simp [List.mem_singleton.mp new])
      · intro hash other found
        unfold checkNextSparkTx at found
        simp only [passes, if_true, kept] at found
        by_cases same : hash = tx.hash prims
        · rw [same, AList.lookup_insert] at found
          obtain rfl := Option.some.inj found
          exact ⟨by simp, same.symm⟩
        · rw [AList.lookup_insert_ne same] at found
          obtain ⟨mem, otherHash⟩ := checked hash other found
          exact ⟨by simp [mem], otherHash⟩
      · exact List.Subset.trans older (List.subset_append_left _ _)

end

theorem passed_of_checked {hash : SparkHash}
    (reported : (txs.foldl (checkNextSparkTx prims tables l1 validateAnnouncement sender)
      state).checkedTxs.lookup hash = some tx) :
    state.checkedTxs.lookup hash = some tx ∨
      tx ∈ SparkNode.passed prims validateAnnouncement tables l1 sender txs state := by
  induction txs generalizing state with
  | nil => exact .inl reported
  | cons first rest ih =>
    have kept := @checkSparkTransaction_checkedTxs prims tables l1 validateAnnouncement first
      sender state
    unfold SparkNode.passed
    simp only
    rcases ih reported with before | later
    · unfold checkNextSparkTx at before
      split
      case isFalse fails =>
        simp only [fails, if_false, Bool.false_eq_true, kept] at before
        exact .inl before
      case isTrue passes =>
        simp only [passes, if_true, kept] at before
        by_cases same : hash = first.hash prims
        · rw [same, AList.lookup_insert] at before
          exact .inr (by simp [Option.some.inj before])
        · rw [AList.lookup_insert_ne same] at before
          exact .inl before
    · split
      · exact .inr (by simp [later])
      · exact .inr later

end Batch

/-! ### Runs -/

section Runs

variable {hashed : Set Bytes} {validateAnnouncement : Bool}

/-- The Spark transactions a message brings. -/
def transactionsOf : SparkNode.Input → List TokenTransaction
  | .newSparkTxs txs => txs
  | .checkSparkTxs _ txs _ => txs
  | .checkSparkSignatures _ => []
  | .checkSparkExit _ _ _ => []

/-- Every transaction a message hands to its check spends only from accepted ones. -/
def SpendsAccepted (prims : Primitives) (validateAnnouncement : Bool) (node : SparkNode) :
    SparkNode.Input → Prop
  | .checkSparkTxs l1 txs sender =>
    AllSteps (checkNextSparkTx prims node.tables l1 validateAnnouncement sender)
      (ParentsAccepted prims node.tables node.accepted) ⟨∅, [], [], [], node.queue⟩ txs
  | _ => True

structure SoundlyAccepted (prims : Primitives) (hashed : Set Bytes) (node : SparkNode) : Prop where
  recorded : Recorded prims node.tables.fixedRow node.stored
  links : LinksDeclared prims node.tables node.stored
  storedWithin : ∀ tx ∈ node.stored, SparkHash.Within prims hashed tx
  acceptedWithin : ∀ tx ∈ node.accepted, SparkHash.Within prims hashed tx
  grounded : Grounded prims node.accepted

/-- A step that stores and accepts nothing leaves the histories as they are. -/
theorem SoundlyAccepted.of_histories {node node' : SparkNode}
    (sound : SoundlyAccepted prims hashed node)
    (recorded : Recorded prims node'.tables.fixedRow node'.stored)
    (links : LinksDeclared prims node'.tables node'.stored) (stored : node'.stored = node.stored)
    (accepted : node'.accepted = node.accepted) : SoundlyAccepted prims hashed node' := by
  refine ⟨recorded, links, ?_, ?_, ?_⟩
  · rw [stored]
    exact sound.storedWithin
  · rw [accepted]
    exact sound.acceptedWithin
  · rw [accepted]
    exact sound.grounded

theorem mem_of_passed {tables : SparkTables} {l1 : L1Tables} {sender : Option SocketAddr}
    {txs : List TokenTransaction} {state : SparkChecking} :
    SparkNode.passed prims validateAnnouncement tables l1 sender txs state ⊆ txs := by
  induction txs generalizing state with
  | nil => exact List.nil_subset _
  | cons tx rest ih =>
    unfold SparkNode.passed
    simp only
    split
    · exact List.cons_subset_cons _ ih
    · exact List.subset_cons_of_subset _ ih

theorem soundlyAccepted_step (collisionFree : Set.InjOn prims.sha256 hashed) (node : SparkNode)
    (input : SparkNode.Input) (sound : SoundlyAccepted prims hashed node)
    (condition : SpendsAccepted prims validateAnnouncement node input ∧
      ∀ tx ∈ transactionsOf input, SparkHash.Within prims hashed tx) :
    SoundlyAccepted prims hashed (SparkNode.step prims validateAnnouncement node input) := by
  obtain ⟨accepted, within⟩ := condition
  have recorded := @recorded_step prims validateAnnouncement node input sound.recorded
  have links := @linksDeclared_step prims validateAnnouncement node input sound.links
  cases input with
  | newSparkTxs txs =>
    refine ⟨recorded, links, ?_, sound.acceptedWithin, sound.grounded⟩
    refine @handleNewSparkTxs_keeps _ (fun _ stored =>
      ∀ tx ∈ stored, SparkHash.Within prims hashed tx) node.tables prims txs ?_ sound.storedWithin
    intro _ _ stored tx mem old _ other otherMem
    rcases List.mem_append.mp otherMem with otherMem | otherMem
    · exact old other otherMem
    · rw [List.mem_singleton.mp otherMem]
      exact within tx mem
  | checkSparkTxs l1 txs sender =>
    refine ⟨recorded, links, sound.storedWithin, ?_, ?_⟩
    · intro tx mem
      rcases List.mem_append.mp mem with old | new
      · exact sound.acceptedWithin tx old
      · exact within tx (mem_of_passed new)
    · exact grounded_passed collisionFree sound.recorded sound.links sound.storedWithin
        sound.acceptedWithin (by intro hash tx found; cases found) within (List.Subset.refl _)
        sound.grounded accepted
  | checkSparkSignatures sigs =>
    obtain ⟨sameAccepted, -⟩ :=
      @step_checkSparkSignatures_history prims validateAnnouncement node sigs
    obtain ⟨-, sameStored⟩ := @step_checkSparkSignatures prims validateAnnouncement node sigs
    exact sound.of_histories recorded links sameStored sameAccepted
  | checkSparkExit client bitcoinTx outputProofs =>
    obtain ⟨-, sameStored, sameAccepted, -⟩ := @step_checkSparkExit prims
      validateAnnouncement node client bitcoinTx outputProofs
    exact sound.of_histories recorded links sameStored sameAccepted

/-- In every run whose checked transactions spend only from accepted ones, the accepted
transactions are grounded in signed mints, and a check reports only accepted transactions. -/
theorem accepted_traced (prims : Primitives) (validateAnnouncement : Bool)
    (history : List SparkNode.Input) (hashed : Set Bytes)
    (collisionFree : Set.InjOn prims.sha256 hashed)
    (within : ∀ input ∈ history, ∀ tx ∈ transactionsOf input, SparkHash.Within prims hashed tx)
    (spendsAccepted : AllSteps (SparkNode.step prims validateAnnouncement)
      (SpendsAccepted prims validateAnnouncement) SparkNode.new history) :
    let node := runFrom (SparkNode.step prims validateAnnouncement) SparkNode.new history
    Grounded prims node.accepted ∧ (∀ tx ∈ node.accepted, Traced prims tx) ∧
      ∀ l1 txs sender, ∀ tx ∈ (checkSparkTxs prims node.tables l1 validateAnnouncement node.queue
        txs sender).checkedTxs,
        tx ∈ (SparkNode.step prims validateAnnouncement node
          (.checkSparkTxs l1 txs sender)).accepted := by
  intro node
  have unlinked : LinksDeclared prims SparkTables.empty [] := by
    intro place hash index linked
    cases linked
  have start : SoundlyAccepted prims hashed SparkNode.new :=
    ⟨recorded_new, unlinked, by simp [SparkNode.new], by simp [SparkNode.new], .nil⟩
  have sound : SoundlyAccepted prims hashed node :=
    (spendsAccepted.and_forall within).invariant (soundlyAccepted_step collisionFree) start
  refine ⟨sound.grounded, sound.grounded.traced, ?_⟩
  intro l1 txs sender tx reported
  obtain ⟨entry, mem, rfl⟩ := List.mem_map.mp reported
  rcases passed_of_checked (AList.mem_lookup_iff.mpr mem) with none | passes
  · cases none
  · exact List.mem_append_right _ passes

def storedAndChecked (batch : List TokenTransaction) : List SparkNode.Input :=
  [.newSparkTxs batch, .checkSparkTxs L1Tables.empty batch none]

/-- A mint signed by key 9 in place of the issuer. -/
def forgedMint : TokenTransaction :=
  let unsigned := plainTransaction (.mint (.repeating 1) none 0) [plainLeaf "a" 5]
  let signature := SparkSignature.plain (unsigned.hash .plain) (.repeating 9)
  plainTransaction (.mint (.repeating 1) (some ⟨none, signature, none⟩) 0) [plainLeaf "a" 5]

/-- The mint fails its check, its child passes. -/
theorem child_of_forged_mint_accepted :
    let child := plainTransfer forgedMint "b" 5
    (runFrom (SparkNode.step .plain false) SparkNode.new
      (storedAndChecked [forgedMint, child])).accepted = [child] ∧
    child.outputsToSpend.map TokenLeafToSpend.parentOutputHash = [forgedMint.hash .plain] ∧
    child.hash .plain ≠ forgedMint.hash .plain := by
  decide +kernel

theorem sumsFit_singleton (leaf : TokenLeafOutput) : SumsFit [leaf] := by
  intro token
  have bound := leaf.amount.isLt
  unfold tokenSum
  by_cases own : leaf.tokenPubkey = token
  · simpa only [List.filter_cons, List.filter_nil, own, decide_true, if_true, List.map_cons,
      List.map_nil, exactSum_cons, exactSum_nil, Nat.add_zero] using bound
  · simp [own]

theorem mintAndTransfer_traced : Traced .plain (plainTransfer (plainMint "a" 5) "b" 5) := by
  have distinct : ∀ a ∈ hashedFor mintAndTransfer, ∀ b ∈ hashedFor mintAndTransfer,
      Primitives.plain.sha256 a = Primitives.plain.sha256 b → a = b := by
    decide +kernel
  have within : ∀ input ∈ storedAndChecked mintAndTransfer, ∀ tx ∈ transactionsOf input,
      SparkHash.Within .plain {part | part ∈ hashedFor mintAndTransfer} tx := by
    intro input mem tx txMem
    apply within_hashedFor
    rcases List.mem_pair.mp mem with rfl | rfl
    · exact txMem
    · exact txMem
  have conditions : AllSteps (SparkNode.step .plain false) (SpendsAccepted .plain false)
      SparkNode.new (storedAndChecked mintAndTransfer) := by
    refine ⟨trivial, ⟨⟨?_, .inr (sumsFit_singleton _)⟩, ⟨?_, .inr (sumsFit_singleton _)⟩,
      trivial⟩, trivial⟩
    · decide +kernel
    · decide +kernel
  exact (accepted_traced .plain false (storedAndChecked mintAndTransfer)
    {part | part ∈ hashedFor mintAndTransfer} (fun a aMem b bMem => distinct a aMem b bMem) within
    conditions).2.1 _ (by decide +kernel)

end Runs

end Lrc20.Node
