import Lrc20.Node.Links
import Lrc20.TxCheck.Verdict

/-! The comparison of a transfer's operators with those of its parents, whose keys the storage
returns in whatever order their rows come. -/

open Lrc20.Storage Lrc20.TxCheck Runs SparkTables

namespace Lrc20.Storage

/-- An order in which the database returns the rows of `operator_pubkey` of a transaction.
The query asks for none. -/
structure RowOrder where
  keys : SparkHash → List PublicKey → List PublicKey
  perm : ∀ hash stored, (keys hash stored).Perm stored

namespace RowOrder

def written : RowOrder := ⟨fun _ stored => stored, fun _ _ => .refl _⟩

/-- A list of keys that was written in the given order is returned backwards. -/
def reversing (given : List PublicKey) : RowOrder where
  keys := fun _ stored => if stored = given then stored.reverse else stored
  perm := by
    intro hash stored
    split
    · exact List.reverse_perm stored
    · exact .refl _

end RowOrder

namespace SparkTables

variable (tables : SparkTables) (order : RowOrder)

/-- The tables as queries see them when the rows of operator keys come in the given order. -/
def inRowOrder : SparkTables :=
  let returned (hash : SparkHash) (row : SparkTransactionRow) : SparkTransactionRow :=
    { row with operatorPubkeys := order.keys hash row.operatorPubkeys }
  { tables with
    transactions := ⟨tables.transactions.entries.map (Sigma.map id returned),
      List.NodupKeys.map₂ returned _ tables.transactions.nodupKeys⟩ }

theorem lookup_inRowOrder (hash : SparkHash) :
    (tables.inRowOrder order).transactions.lookup hash =
      (tables.transactions.lookup hash).map fun row =>
        { row with operatorPubkeys := order.keys hash row.operatorPubkeys } :=
  List.dlookup_map₂ hash

theorem allOutputs_inRowOrder : (tables.inRowOrder order).allOutputs = tables.allOutputs := by
  unfold allOutputs inRowOrder
  rw [List.flatMap_map]
  rfl

/-- A transaction comes back the same but for the order of its operators. -/
theorem getSparkTxWithOutputs_inRowOrder (hash : SparkHash) :
    (tables.inRowOrder order).getSparkTxWithOutputs hash =
      (tables.getSparkTxWithOutputs hash).map fun tx =>
        { tx with
          sparkOperatorIdentityPublicKeys :=
            order.keys hash tx.sparkOperatorIdentityPublicKeys } := by
  unfold getSparkTxWithOutputs
  rw [lookup_inRowOrder]
  cases tables.transactions.lookup hash with
  | none => rfl
  | some row =>
    simp only [Option.map_some, Option.bind_some, createTokenTransaction, spentBy,
      allOutputs_inRowOrder]
    split <;> rfl

end SparkTables

end Lrc20.Storage

namespace Lrc20.Node

def SameKeys (a b : List PublicKey) : Prop := ∀ key, key ∈ a ↔ key ∈ b

/-- The test of `check_spark_transfer` passes at every input: the list of the transfer is the
list the storage returns for the parent. -/
def OperatorTestPasses (tables : SparkTables) (tx : TokenTransaction) : Prop :=
  ∀ input ∈ tx.outputsToSpend, ∀ parent,
    tables.getSparkTxWithOutputs input.parentOutputHash = some parent → operatorsMatch tx parent

/-- The operators of the transfer are those of each of its parents. -/
def OperatorsAgree (prims : Primitives) (stored : List TokenTransaction) (tx : TokenTransaction) :
    Prop :=
  ∀ input ∈ tx.outputsToSpend, ∀ parent ∈ stored, parent.hash prims = input.parentOutputHash →
    SameKeys tx.sparkOperatorIdentityPublicKeys parent.sparkOperatorIdentityPublicKeys

section Test

variable {prims : Primitives} {tables : SparkTables} {stored : List TokenTransaction}
  {tx : TokenTransaction} {parent rebuilt : TokenTransaction}

theorem rebuilt_operators (recorded : Recorded prims tables.fixedRow stored) (mem : parent ∈ stored)
    (found : tables.getSparkTxWithOutputs (parent.hash prims) = some rebuilt) :
    rebuilt.sparkOperatorIdentityPublicKeys = parent.sparkOperatorIdentityPublicKeys := by
  obtain ⟨row, present, -, -, operators⟩ := getSparkTxWithOutputs_eq_some found
  obtain ⟨_, settled, again, known, fixed⟩ := recorded.row mem
  obtain rfl := Option.some.inj (present.symm.trans again)
  have same : row.operatorPubkeys = settled.operatorPubkeys := by
    show row.fixed.operatorPubkeys = settled.fixed.operatorPubkeys
    rw [fixed]
  rw [operators, same, (SparkTransactionRow.rowOf known).operators]

/-- A list without repetition that reads the same backwards has at most one element. -/
theorem length_le_one_of_reverse {α : Type} {l : List α} (distinct : l.Nodup)
    (same : l = l.reverse) : l.length ≤ 1 := by
  by_contra long
  have first : 0 < l.length := by omega
  have ends := congrArg (·[0]?) same
  rw [List.getElem?_reverse first] at ends
  have last : l.length - 1 - 0 = 0 := (List.getElem?_inj first distinct).mp ends |>.symm
  omega

/-- A list without repetition that has the elements of a list of at most one element is that
list. -/
theorem eq_of_length_le_one {a b : List PublicKey} (short : a.length ≤ 1) (distinct : b.Nodup)
    (same : SameKeys a b) : b = a := by
  match a, short with
  | [], _ =>
    apply List.eq_nil_iff_forall_not_mem.mpr
    intro key mem
    exact List.not_mem_nil ((same key).mpr mem)
  | [key], _ =>
    have perm : b.Perm [key] := (List.perm_ext_iff_of_nodup distinct (by simp)).mpr
      fun other => (same other).symm
    exact List.perm_singleton.mp perm

/-- What the test compares at one input, in the given row order. -/
theorem operatorsMatch_inRowOrder {order : RowOrder} {hash : SparkHash}
    (found : tables.getSparkTxWithOutputs hash = some rebuilt)
    (returned : (tables.inRowOrder order).getSparkTxWithOutputs hash = some parent) :
    operatorsMatch tx parent ↔ tx.sparkOperatorIdentityPublicKeys =
      order.keys hash rebuilt.sparkOperatorIdentityPublicKeys := by
  rw [getSparkTxWithOutputs_inRowOrder, found] at returned
  obtain rfl := Option.some.inj returned
  unfold operatorsMatch
  simp

end Test

/-- In every state of the node, for a transfer whose parents are all in the storage: the test
of the operator lists gives the answer of the operator sets in every row order exactly when
the sets differ, there is no input, or the transfer lists at most one key. -/
theorem operatorTest_exact_iff (prims : Primitives) (validateAnnouncement : Bool)
    (history : List SparkNode.Input) (tx : TokenTransaction)
    (parents : ∀ input ∈ tx.outputsToSpend,
      ((runFrom (SparkNode.step prims validateAnnouncement) SparkNode.new
        history).tables.getSparkTxWithOutputs input.parentOutputHash).isSome) :
    let node := runFrom (SparkNode.step prims validateAnnouncement) SparkNode.new history
    (∀ order : RowOrder, OperatorTestPasses (node.tables.inRowOrder order) tx ↔
      OperatorsAgree prims node.stored tx) ↔
    (OperatorsAgree prims node.stored tx → tx.outputsToSpend ≠ [] →
      tx.sparkOperatorIdentityPublicKeys.length ≤ 1) := by
  intro node
  have recorded := @recorded_run prims validateAnnouncement history
  -- Every input has its parent among the stored transactions, and its keys in the storage.
  have resolve : ∀ input ∈ tx.outputsToSpend, ∃ parent ∈ node.stored, ∃ rebuilt,
      parent.hash prims = input.parentOutputHash ∧
      node.tables.getSparkTxWithOutputs input.parentOutputHash = some rebuilt ∧
      rebuilt.sparkOperatorIdentityPublicKeys.Nodup ∧
      SameKeys rebuilt.sparkOperatorIdentityPublicKeys parent.sparkOperatorIdentityPublicKeys := by
    intro input spent
    obtain ⟨rebuilt, found⟩ := Option.isSome_iff_exists.mp (parents input spent)
    obtain ⟨parent, mem, hash⟩ := stored_of_rebuilt recorded found
    have keys := rebuilt_operators recorded mem (hash ▸ found)
    refine ⟨parent, mem, rebuilt, hash, found, ?_, ?_⟩
    · rw [keys]
      exact recorded.operators parent mem
    · intro key
      rw [keys]
  constructor
  · intro exact agree nonempty
    obtain ⟨input, spent⟩ := List.exists_mem_of_ne_nil _ nonempty
    obtain ⟨-, -, rebuilt, -, found, distinct, -⟩ := resolve input spent
    -- In the order that turns exactly the list of the transfer around, the test passes only
    -- when the list reads the same both ways.
    let order := RowOrder.reversing tx.sparkOperatorIdentityPublicKeys
    have returned := getSparkTxWithOutputs_inRowOrder node.tables order input.parentOutputHash
    rw [found] at returned
    have same := (operatorsMatch_inRowOrder found returned).mp
      ((exact order).mpr agree input spent _ returned)
    change _ = if _ then _ else _ at same
    split at same
    case isTrue stored =>
      rw [stored] at same distinct
      exact length_le_one_of_reverse distinct same
    case isFalse differ => exact absurd same.symm differ
  · intro short order
    constructor
    · intro passes input spent parent mem hash key
      obtain ⟨own, ownMem, rebuilt, ownHash, found, -, keys⟩ := resolve input spent
      obtain rfl := List.inj_on_of_nodup_map recorded.hashes mem ownMem (hash.trans ownHash.symm)
      have returned := getSparkTxWithOutputs_inRowOrder node.tables order input.parentOutputHash
      rw [found] at returned
      have same := (operatorsMatch_inRowOrder found returned).mp (passes input spent _ returned)
      rw [same, (order.perm _ _).mem_iff]
      exact keys key
    · intro agree input spent parent returned
      obtain ⟨own, ownMem, rebuilt, ownHash, found, distinct, keys⟩ := resolve input spent
      have few := short agree (List.ne_nil_of_mem spent)
      have sets : SameKeys tx.sparkOperatorIdentityPublicKeys
          rebuilt.sparkOperatorIdentityPublicKeys :=
        fun key => (agree input spent own ownMem ownHash key).trans (keys key).symm
      rw [operatorsMatch_inRowOrder found returned]
      symm
      apply eq_of_length_le_one few ((order.perm _ _).nodup_iff.mpr distinct)
      intro key
      rw [(order.perm _ _).mem_iff]
      exact sets key

/-- A transfer of the leaf of a mint, with the operators of the mint in another order. -/
def turnedTransfer : TokenTransaction :=
  { plainTransfer (plainMint "a" 5) "b" 5 with
    sparkOperatorIdentityPublicKeys := [.repeating 6, .repeating 5, .repeating 4] }

/-- A mint and a transfer of its leaf, both with one operator. -/
def soleMint : TokenTransaction :=
  { plainMint "a" 5 with sparkOperatorIdentityPublicKeys := [.repeating 4] }

def soleTransfer : TokenTransaction :=
  { plainTransfer soleMint "b" 5 with sparkOperatorIdentityPublicKeys := [.repeating 4] }

theorem soleTransfer_test :
    let node := runFrom (SparkNode.step .plain false) SparkNode.new [.newSparkTxs [soleMint]]
    ∀ order : RowOrder, OperatorTestPasses (node.tables.inRowOrder order) soleTransfer ↔
      OperatorsAgree .plain node.stored soleTransfer :=
  (operatorTest_exact_iff .plain false [.newSparkTxs [soleMint]] soleTransfer
    (by decide +kernel)).mpr fun _ _ => by decide

/-- The transfer has the operators of its parent, and fails the test and the check. -/
theorem turnedTransfer_refused :
    let node := runFrom (SparkNode.step .plain false) SparkNode.new
      [.newSparkTxs [plainMint "a" 5]]
    OperatorsAgree .plain node.stored turnedTransfer ∧
      ¬ OperatorTestPasses (node.tables.inRowOrder .written) turnedTransfer ∧
      (checkSparkTransaction .plain node.tables .empty false turnedTransfer none
        ⟨∅, [], [], [], ∅⟩).2 = false := by
  intro node
  have stored : node.stored = [plainMint "a" 5] := by decide +kernel
  refine ⟨?_, ?_, by decide +kernel⟩
  · intro input _ parent mem _ key
    rw [stored] at mem
    obtain rfl := List.mem_singleton.mp mem
    show key ∈ [_, _, _] ↔ key ∈ [_, _, _]
    simp only [List.mem_cons, List.not_mem_nil, or_false]
    constructor
    · rintro (rfl | rfl | rfl) <;> simp
    · rintro (rfl | rfl | rfl) <;> simp
  · intro passes
    have refused : ((node.tables.inRowOrder .written).getSparkTxWithOutputs
        ((plainMint "a" 5).hash .plain)).all fun parent => !operatorsMatch turnedTransfer parent := by
      decide +kernel
    have found : ((node.tables.inRowOrder .written).getSparkTxWithOutputs
        ((plainMint "a" 5).hash .plain)).isSome := by
      decide +kernel
    obtain ⟨parent, found⟩ := Option.isSome_iff_exists.mp found
    rw [found, Option.all_some] at refused
    have matching := passes ⟨(plainMint "a" 5).hash .plain, 0⟩ (by decide +kernel) parent found
    rw [matching] at refused
    cases refused

end Lrc20.Node
