import Lrc20.Lib.Search
import Lrc20.Node.Links

/-! When a stored Spark transaction comes back from the storage as it went in. -/

open Lrc20.Storage Lrc20.TxCheck Runs SparkTables

namespace Lrc20

open TokenLeafToSpend

theorem TokenLeafToSpend.outPoint_injective : Function.Injective outPoint := by
  rintro ⟨hashA, voutA⟩ ⟨hashB, voutB⟩ same
  obtain ⟨hashes, vouts⟩ := SparkOutPoint.mk.inj same
  have sameVout : voutA = voutB := UInt32.toNat_inj.mp vouts
  rw [show hashA = hashB from hashes, sameVout]

namespace Storage

/-- The bond survives the cut to 32 bits and the widening with the sign. -/
def BondFits (bond : UInt64) : Prop := bond.toNat < 2 ^ 31 ∨ 2 ^ 64 - 2 ^ 31 ≤ bond.toNat

instance (bond : UInt64) : Decidable (BondFits bond) :=
  inferInstanceAs (Decidable (_ ∨ _))

theorem bond_kept_iff (bond : UInt64) :
    bond.toUInt32.toInt32.toInt64.toUInt64 = bond ↔ BondFits bond := by
  have stored : bond.toUInt32.toInt32.toInt64.toUInt64.toBitVec =
      (bond.toBitVec.setWidth 32).signExtend 64 := rfl
  have value : bond.toNat = bond.toBitVec.toNat := rfl
  have bound := bond.toBitVec.isLt
  rw [← UInt64.toBitVec_inj, stored, ← BitVec.toNat_inj, BitVec.toNat_signExtend, BondFits, value]
  simp only [BitVec.msb_eq_decide, BitVec.toNat_setWidth, decide_eq_true_eq]
  split <;> omega

theorem hashed_stored_iff (leaf : TokenLeafOutput) :
    (SparkOutputRow.ofLeaf leaf).toLeaf.hashed = leaf.hashed ↔
      BondFits leaf.withdrawalBondSats := by
  rw [← bond_kept_iff]
  constructor
  · exact congrArg HashedLeaf.withdrawalBondSats
  · intro kept
    simp only [TokenLeafOutput.hashed, SparkOutputRow.toLeaf, SparkOutputRow.ofLeaf, kept]
    rfl

end Storage

namespace Node

/-- What a transaction has to be like, and the transactions stored after it, for it to come
back whole. -/
structure KeptWhole (tx : TokenTransaction) (later : List TokenTransaction) : Prop where
  leaves : tx.leavesToCreate ≠ []
  bonds : ∀ leaf ∈ tx.leavesToCreate, BondFits leaf.withdrawalBondSats
  inputs : tx.outputsToSpend.Nodup
  unspent : ∀ other ∈ later, ∀ leaf ∈ tx.outputsToSpend, leaf ∉ other.outputsToSpend

/-- The storage gives a transaction back with its hash and its inputs. -/
def ReadBack (prims : Primitives) (tables : SparkTables) (tx : TokenTransaction) : Prop :=
  ∃ rebuilt, tables.getSparkTxWithOutputs (tx.hash prims) = some rebuilt ∧
    rebuilt.hash prims = tx.hash prims ∧ rebuilt.outputsToSpend = tx.outputsToSpend ∧
    rebuilt.issuance = tx.issuance

section Fidelity

variable {prims : Primitives} {tables : SparkTables} {stored : List TokenTransaction}
  {before later : List TokenTransaction} {tx : TokenTransaction} {validateAnnouncement : Bool}

/-- A leaf is linked to the last stored transaction that spends it. -/
def LatestLinks (prims : Primitives) (tables : SparkTables) (stored : List TokenTransaction) :
    Prop :=
  ∀ before tx later, stored = before ++ tx :: later → ∀ leaf ∈ tx.outputsToSpend,
    (∀ other ∈ later, leaf ∉ other.outputsToSpend) →
    ∃ index, tx.outputsToSpend[index]? = some leaf ∧
      tables.spender leaf.outPoint = some (tx.hash prims, index)

theorem LatestLinks.insert {tables' : SparkTables} {added : TokenTransaction}
    (links : LatestLinks prims tables stored)
    (inserted : SparkTables.Inserted prims tables added tables') :
    LatestLinks prims tables' (stored ++ [added]) := by
  intro before tx later split leaf spends unspent
  rcases List.eq_nil_or_concat later with rfl | ⟨later', last, rfl⟩
  · -- The transaction is the added one, and the insertion links its leaves to it.
    obtain ⟨rfl, singles⟩ := List.append_inj' split rfl
    obtain rfl := List.head_eq_of_cons_eq singles
    rcases spender_inserted inserted leaf.outPoint with ⟨other, index, found, same, linked⟩ | ⟨no, -⟩
    · obtain rfl := outPoint_injective same
      exact ⟨index, found, linked⟩
    · exact absurd rfl (no leaf spends)
  · rw [List.concat_eq_append, ← List.cons_append, ← List.append_assoc] at split
    obtain ⟨rfl, singles⟩ := List.append_inj' split rfl
    obtain rfl := List.head_eq_of_cons_eq singles
    rw [List.concat_eq_append] at unspent
    have linked := links before tx later' rfl leaf spends
      fun other mem => unspent other (List.mem_append_left _ mem)
    obtain ⟨index, found, link⟩ := linked
    refine ⟨index, found, ?_⟩
    rcases spender_inserted inserted leaf.outPoint with ⟨other, _, there, same, -⟩ | ⟨-, old⟩
    · obtain rfl := outPoint_injective same
      exact absurd (List.mem_of_getElem? there)
        (unspent added (List.mem_append_right _ List.mem_cons_self))
    · rw [old]
      exact link

theorem latestLinks_step (node : SparkNode)
    (input : SparkNode.Input) (links : LatestLinks prims node.tables node.stored) :
    LatestLinks prims (SparkNode.step prims validateAnnouncement node input).tables
      (SparkNode.step prims validateAnnouncement node input).stored := by
  refine step_keeps (P := LatestLinks prims) (fun _ _ _ _ links inserted => links.insert inserted)
    (fun _ => .of_view spender_kept ?_) node input links
  intro tables tables' same links
  unfold LatestLinks
  rw [same]
  exact links

/-- All inputs come back when none is named twice and none is spent again later. -/
theorem linkedInputs_whole_iff (recorded : Recorded prims tables.fixedRow stored)
    (latest : LatestLinks prims tables stored) (split : stored = before ++ tx :: later) :
    linkedInputs prims tables tx = tx.outputsToSpend ↔
      tx.outputsToSpend.Nodup ∧
        ∀ other ∈ later, ∀ leaf ∈ tx.outputsToSpend, leaf ∉ other.outputsToSpend := by
  rw [linkedInputs_eq_iff]
  constructor
  · intro linked
    constructor
    · rw [List.nodup_iff_injective_get]
      intro i j same
      have first := linked i (tx.outputsToSpend.get i) (List.getElem?_eq_getElem i.isLt)
      have second := linked j (tx.outputsToSpend.get j) (List.getElem?_eq_getElem j.isLt)
      rw [same, second] at first
      exact Fin.ext (Prod.mk.inj (Option.some.inj first)).2.symm
    · intro other mem leaf spends again
      -- The link is to the last transaction that spends the leaf, which is another one.
      obtain ⟨between, last, after, rfl, spent, none⟩ :=
        Search.split_at_last (P := fun other : TokenTransaction => leaf ∈ other.outputsToSpend)
          ⟨other, mem, again⟩
      have position : stored = (before ++ tx :: between) ++ last :: after := by
        rw [split, List.append_assoc, List.cons_append]
      obtain ⟨_, -, newest⟩ := latest _ last after position leaf spent none
      obtain ⟨index, found⟩ := List.mem_iff_getElem?.mp spends
      rw [linked index leaf found] at newest
      have sameHash := (Prod.mk.inj (Option.some.inj newest)).1
      have hashes := recorded.hashes
      rw [position, List.map_append, List.map_cons, List.nodup_append] at hashes
      exact hashes.2.2 (tx.hash prims) (List.mem_map_of_mem (by simp)) (last.hash prims)
        List.mem_cons_self sameHash
  · rintro ⟨distinct, unspent⟩ index leaf found
    obtain ⟨other, there, linked⟩ := latest before tx later split leaf (List.mem_of_getElem? found)
      fun other mem => unspent other mem leaf (List.mem_of_getElem? found)
    have sameIndex : other = index :=
      (List.getElem?_inj (List.getElem?_eq_some_iff.mp there).1 distinct).mp
        (there.trans found.symm)
    rw [← sameIndex]
    exact linked

theorem restored_issuance (tx : TokenTransaction) (inputs : List TokenLeafToSpend) :
    (restored tx inputs).issuance = tx.issuance := by
  unfold restored TokenTransaction.issuance
  cases tx.input <;> rfl

theorem restored_spends (tx : TokenTransaction) :
    (restored tx tx.outputsToSpend).outputsToSpend = tx.outputsToSpend := by
  unfold restored TokenTransaction.outputsToSpend
  cases tx.input <;> rfl

theorem restored_sameContent_iff (tx : TokenTransaction) (inputs : List TokenLeafToSpend) :
    (restored tx inputs).SameContent tx ↔ (restored tx inputs).outputsToSpend = tx.outputsToSpend ∧
      ∀ leaf ∈ tx.leavesToCreate, BondFits leaf.withdrawalBondSats := by
  have leaves : (restored tx inputs).leavesToCreate.map TokenLeafOutput.hashed =
      tx.leavesToCreate.map TokenLeafOutput.hashed ↔
      ∀ leaf ∈ tx.leavesToCreate, BondFits leaf.withdrawalBondSats := by
    unfold restored
    rw [List.map_map, List.map_inj_left]
    exact forall₂_congr fun leaf _ => hashed_stored_iff leaf
  constructor
  · intro content
    exact ⟨content.spends, leaves.mp content.leaves⟩
  · rintro ⟨spends, bonds⟩
    exact ⟨spends, restored_issuance tx inputs, leaves.mpr bonds, rfl, rfl⟩

/-- A transaction with leaves is given back as it came in when it is kept whole. -/
theorem restored_linked_iff (recorded : Recorded prims tables.fixedRow stored)
    (latest : LatestLinks prims tables stored) (split : stored = before ++ tx :: later)
    (leaves : tx.leavesToCreate ≠ []) :
    (restored tx (linkedInputs prims tables tx)).SameContent tx ↔ KeptWhole tx later := by
  have whole := linkedInputs_whole_iff recorded latest split
  constructor
  · intro same
    obtain ⟨spends, bonds⟩ := (restored_sameContent_iff tx _).mp same
    obtain ⟨inputs, unspent⟩ := whole.mp (linkedInputs_of_spends spends)
    exact ⟨leaves, bonds, inputs, unspent⟩
  · intro kept
    rw [whole.mpr ⟨kept.inputs, kept.unspent⟩]
    exact (restored_sameContent_iff tx _).mpr ⟨restored_spends tx, kept.bonds⟩

theorem readBack_iff {hashed : Set Bytes} (collisionFree : Set.InjOn prims.sha256 hashed)
    (recorded : Recorded prims tables.fixedRow stored) (links : LinksDeclared prims tables stored)
    (latest : LatestLinks prims tables stored) (split : stored = before ++ tx :: later)
    (original : SparkHash.Within prims hashed tx)
    (rebuildable : SparkHash.Within prims hashed (restored tx (linkedInputs prims tables tx))) :
    ReadBack prims tables tx ↔ KeptWhole tx later := by
  have mem : tx ∈ stored := by simp [split]
  constructor
  · rintro ⟨rebuilt, found, sameHash, -⟩
    have content := rebuilt_sameContent recorded links mem found
    have same : rebuilt.SameContent tx := SparkHash.sameContent_of_hash collisionFree
      (SparkHash.within_of_sameContent content rebuildable) original sameHash
    apply (restored_linked_iff recorded latest split (leaves_of_rebuilt recorded mem found)).mp
    exact content.symm.trans same
  · intro kept
    obtain ⟨rebuilt, found⟩ := (rebuilt_iff_leaves recorded mem).mpr kept.leaves
    have content := rebuilt_sameContent recorded links mem found
    have same : rebuilt.SameContent tx :=
      content.trans ((restored_linked_iff recorded latest split kept.leaves).mpr kept)
    exact ⟨rebuilt, found, SparkHash.hash_of_sameContent same, same.spends, same.issuance⟩

/-- Links name the inputs that declare them, and the latest of these. -/
theorem links_run (history : List SparkNode.Input) :
    let node := runFrom (SparkNode.step prims validateAnnouncement) SparkNode.new history
    LinksDeclared prims node.tables node.stored ∧ LatestLinks prims node.tables node.stored := by
  have start : LinksDeclared prims SparkNode.new.tables SparkNode.new.stored ∧
      LatestLinks prims SparkNode.new.tables SparkNode.new.stored := by
    constructor
    · intro place hash index linked
      cases linked
    · intro before tx later split
      exact absurd split.symm (by simp [SparkNode.new])
  apply runFrom_invariant (I := fun node : SparkNode =>
    LinksDeclared prims node.tables node.stored ∧ LatestLinks prims node.tables node.stored) _ start
  intro node input held
  exact ⟨linksDeclared_step node input held.1, latestLinks_step node input held.2⟩

/-- In every state of the node the settled rows of the outputs are exactly the leaves of the
stored transactions, no two have one id, and a leaf is linked exactly when a stored transaction
spends it, to the last one that does. -/
theorem tables_mirror_stored (prims : Primitives) (validateAnnouncement : Bool)
    (history : List SparkNode.Input) :
    let node := runFrom (SparkNode.step prims validateAnnouncement) SparkNode.new history
    (∀ place settled, (node.tables.output place).map SparkOutputRow.fixed = some settled ↔
      ∃ tx ∈ node.stored, tx.hash prims = place.tokenTransactionHash ∧
        ∃ leaf, tx.leavesToCreate[place.outputIndex]? = some leaf ∧
          settled = (SparkOutputRow.ofLeaf leaf).fixed) ∧
    (∀ place place' row row', node.tables.output place = some row →
      node.tables.output place' = some row' → row.sparkId = row'.sparkId → place = place') ∧
    ∀ leaf : TokenLeafToSpend, match node.tables.spender leaf.outPoint with
      | none => ∀ tx ∈ node.stored, leaf ∉ tx.outputsToSpend
      | some (hash, index) => ∃ before tx later, node.stored = before ++ tx :: later ∧
        tx.hash prims = hash ∧ tx.outputsToSpend[index]? = some leaf ∧
        ∀ other ∈ later, leaf ∉ other.outputsToSpend := by
  intro node
  have recorded := @recorded_run prims validateAnnouncement history
  obtain ⟨links, latest⟩ := @links_run prims validateAnnouncement history
  refine ⟨fun place settled => ⟨fun found => ?_, ?_⟩, ?_, fun leaf => ?_⟩
  · obtain ⟨row, present, rfl⟩ := Option.map_eq_some_iff.mp found
    exact recorded.leaf_of_output present
  · rintro ⟨tx, mem, same, leaf, there, rfl⟩
    obtain ⟨row, present, fixed⟩ := recorded.output_of_leaf mem there
    rw [same] at present
    rw [present, Option.map_some, fixed]
  · exact fun _ _ _ _ found found' => recorded.place_eq found found'
  · -- The last transaction that spends the leaf, if there is one, is the one linked.
    by_cases spent : ∃ tx ∈ node.stored, leaf ∈ tx.outputsToSpend
    · obtain ⟨before, tx, later, split, spends, unspent⟩ := Search.split_at_last
        (P := fun tx : TokenTransaction => leaf ∈ tx.outputsToSpend) spent
      obtain ⟨index, found, linked⟩ := latest before tx later split leaf spends unspent
      rw [linked]
      exact ⟨before, tx, later, split, rfl, found, unspent⟩
    · cases linked : node.tables.spender leaf.outPoint with
      | none => exact fun tx mem spends => spent ⟨tx, mem, spends⟩
      | some link =>
        obtain ⟨tx, mem, -, input, found, same⟩ := links _ link.1 link.2 linked
        obtain rfl := outPoint_injective same
        exact absurd ⟨tx, mem, List.mem_of_getElem? found⟩ spent

/-- In every state of the node, a stored transaction comes back with its hash and its inputs
exactly when it has a leaf, every bond fits, no input is listed twice, and no transaction
stored later spends one of its inputs. -/
theorem readBack_iff_keptWhole (prims : Primitives) (validateAnnouncement : Bool)
    (history : List SparkNode.Input) (before later : List TokenTransaction)
    (tx : TokenTransaction) (hashed : Set Bytes) (collisionFree : Set.InjOn prims.sha256 hashed)
    (stored : (runFrom (SparkNode.step prims validateAnnouncement) SparkNode.new history).stored =
      before ++ tx :: later)
    (original : SparkHash.Within prims hashed tx)
    (rebuildable : SparkHash.Within prims hashed (restored tx (linkedInputs prims
      (runFrom (SparkNode.step prims validateAnnouncement) SparkNode.new history).tables tx))) :
    ReadBack prims
        (runFrom (SparkNode.step prims validateAnnouncement) SparkNode.new history).tables tx ↔
      KeptWhole tx later := by
  have recorded := @recorded_run prims validateAnnouncement history
  obtain ⟨links, latest⟩ := @links_run prims validateAnnouncement history
  exact readBack_iff collisionFree recorded links latest stored original rebuildable

def largeBond : TokenTransaction :=
  { plainMint "a" 5 with
    leavesToCreate := [{ plainLeaf "a" 5 with withdrawalBondSats := 0x80000000 }] }

theorem largeBond_lost :
    let node := runFrom (SparkNode.step .plain false) SparkNode.new [.newSparkTxs [largeBond]]
    node.stored = [largeBond] ∧ ¬ ReadBack .plain node.tables largeBond := by
  intro node
  refine ⟨by decide +kernel, ?_⟩
  rintro ⟨rebuilt, found, sameHash, -⟩
  have differs : (node.tables.getSparkTxWithOutputs (largeBond.hash .plain)).all
      (fun rebuilt => rebuilt.hash .plain ≠ largeBond.hash .plain) := by
    decide +kernel
  rw [found, Option.all_some, decide_eq_true_eq] at differs
  exact differs sameHash

theorem mintAndTransfer_readBack :
    let node := runFrom (SparkNode.step .plain false) SparkNode.new
      [.newSparkTxs mintAndTransfer]
    ReadBack .plain node.tables (plainTransfer (plainMint "a" 5) "b" 5) := by
  intro node
  have distinct : ∀ x ∈ hashedFor mintAndTransfer, ∀ y ∈ hashedFor mintAndTransfer,
      Primitives.plain.sha256 x = Primitives.plain.sha256 y → x = y := by
    decide +kernel
  have whole : restored (plainTransfer (plainMint "a" 5) "b" 5) (linkedInputs .plain node.tables
      (plainTransfer (plainMint "a" 5) "b" 5)) = plainTransfer (plainMint "a" 5) "b" 5 := by
    decide +kernel
  have within := @within_hashedFor mintAndTransfer (plainTransfer (plainMint "a" 5) "b" 5)
    (by decide +kernel)
  have holds := readBack_iff_keptWhole .plain false [.newSparkTxs mintAndTransfer]
    [plainMint "a" 5] [] (plainTransfer (plainMint "a" 5) "b" 5)
    {part | part ∈ hashedFor mintAndTransfer} (fun x xMem y yMem => distinct x xMem y yMem)
    (by decide +kernel) within (by rw [whole]; exact within)
  exact holds.mpr ⟨by decide +kernel, by decide +kernel, by decide +kernel, by simp⟩

end Fidelity

end Node

end Lrc20
