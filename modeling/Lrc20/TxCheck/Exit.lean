import Lrc20.TxCheck.Spark

/-! What `check_spark_exit` accepts and what it writes. -/

open Lrc20.Storage SparkTables

namespace Lrc20.TxCheck

open PublicKey

/-- The place of the leaf an output proof of an exit names, by its index. -/
def exitPlace (prims : Primitives) : ReceiptProof → Option SparkOutPoint
  | .sparkExit exit => (exit.metadata.bind prims.parseExitMetadata).map
      fun (hash, leafIndex) => ⟨hash, leafIndex.toNat⟩
  | _ => none

/-- The output proofs an exit is about. -/
def exiting (entries : List (Nat × ReceiptProof)) : List (Nat × ReceiptProof) :=
  entries.filter fun entry => !entry.2.isEmptyReceiptproof

theorem exiting_cons (entry : Nat × ReceiptProof) (rest : List (Nat × ReceiptProof)) :
    exiting (entry :: rest) =
      if entry.2.isEmptyReceiptproof then exiting rest else entry :: exiting rest := by
  cases empty : entry.2.isEmptyReceiptproof <;> simp [exiting, empty]

/-- A leaf after its withdrawal. -/
def withdrawn (txid : Txid) (vout : Nat) (block : BlockHash) (row : SparkOutputRow) :
    SparkOutputRow :=
  { row with
    withdrawTxid := some txid, withdrawVout := some (UInt32.ofNat vout)
    withdrawBlockhash := some block }

/-- Leaf ids are unique, as the column is. -/
def UniqueIds (tables : SparkTables) : Prop :=
  ∀ place place' row row', tables.output place = some row → tables.output place' = some row' →
    row.sparkId = row'.sparkId → place = place'

/-- A leaf that is neither frozen nor withdrawn, with the receipt and the keys of the proof. -/
structure Matches (row : SparkOutputRow) (exit : SparkExitProof) : Prop where
  notFrozen : row.isFrozen.getD false = false
  notWithdrawn : row.withdrawTxid = none
  receipt : row.toLeaf.receipt = exit.receipt
  revocationKey : row.revocationPubkey = exit.script.revocationKey
  ownerKey : row.ownerPubkey = exit.script.delayKey

/-- The proof is that of an exit, and the leaf at the place it names is in a finalized transaction,
matches it and is not spent by a Spark transaction. -/
def CanExit (prims : Primitives) (tables : SparkTables) (proof : ReceiptProof) : Prop :=
  ∃ place exit row, proof = .sparkExit exit ∧ exitPlace prims proof = some place ∧
    tables.getTokenTransactionStatus place.tokenTransactionHash = .finalized ∧
    tables.output place = some row ∧ Matches row exit ∧ row.spend = none

/-- Every proof can exit, and no two name the same leaf. -/
def AllCanExit (prims : Primitives) (tables : SparkTables) (outputProofs : ProofMap) : Prop :=
  (∀ entry ∈ exiting outputProofs.entries, CanExit prims tables entry.2) ∧
    ((exiting outputProofs.entries).map fun entry => exitPlace prims entry.2).Nodup

/-- The leaf that the check finds for a proof: no leaf has the text of the hash as its id, and in
the finalized transaction named this leaf has the text of the index as its id and matches. -/
structure FoundById (prims : Primitives) (tables : SparkTables) (proof : ReceiptProof)
    (target : SparkOutPoint) (exit : SparkExitProof) (index : Nat) (row : SparkOutputRow) :
    Prop where
  isExit : proof = .sparkExit exit
  named : exitPlace prims proof = some ⟨target.tokenTransactionHash, index⟩
  clear : tables.getSparkOutputModel (hexString target.tokenTransactionHash) = none
  finalized : tables.getTokenTransactionStatus target.tokenTransactionHash = .finalized
  stored : tables.output target = some row
  id : row.sparkId = toString index
  matching : Matches row exit

def Found (prims : Primitives) (tables : SparkTables) (proof : ReceiptProof)
    (target : SparkOutPoint) : Prop :=
  ∃ exit index row, FoundById prims tables proof target exit index row

/-- A place at which the check looks in the right way: no leaf has the text of the hash as its
id, and the leaf has the text of its index. -/
structure Regular (tables : SparkTables) (place : SparkOutPoint) : Prop where
  hash : tables.getSparkOutputModel (hexString place.tokenTransactionHash) = none
  index : ∀ row, tables.output place = some row → row.sparkId = toString place.outputIndex

/-! ### One proof -/

section Proof

variable {prims : Primitives} {tables : SparkTables} {txid : Txid} {block : BlockHash}

/-- Under unique ids a leaf is marked where it was found. -/
theorem markSparkOutputAsWithdrawn_eq (unique : UniqueIds tables) {place : SparkOutPoint}
    {row : SparkOutputRow} (stored : tables.output place = some row) (vout : Nat) :
    tables.markSparkOutputAsWithdrawn row.sparkId txid vout block =
      .ok (tables.modifyOutput place (withdrawn txid vout block)) := by
  unfold markSparkOutputAsWithdrawn
  cases model : tables.getSparkOutputModel row.sparkId with
  | none => exact absurd rfl (getSparkOutputModel_eq_none model stored)
  | some found =>
    obtain ⟨other, otherRow⟩ := found
    obtain ⟨there, sameId⟩ := getSparkOutputModel_eq_some model
    rw [unique other place otherRow row there stored sameId]
    rfl

theorem leaf_of_getSparkTxWithOutputs {hash : SparkHash} {tx : TokenTransaction}
    {leaf : TokenLeafOutput} (found : tables.getSparkTxWithOutputs hash = some tx)
    (mem : leaf ∈ tx.leavesToCreate) :
    ∃ vout row, tables.output ⟨hash, vout⟩ = some row ∧ row.toLeaf = leaf := by
  obtain ⟨txRow, stored, -, leaves, -⟩ := getSparkTxWithOutputs_eq_some found
  rw [leaves] at mem
  obtain ⟨row, isRow, same⟩ := List.mem_map.mp mem
  obtain ⟨vout, there⟩ := List.getElem?_of_mem isRow
  exact ⟨vout, row, by simp [SparkTables.output, stored, there], same⟩

theorem Found.unique (unique : UniqueIds tables) {proof : ReceiptProof}
    {target target' : SparkOutPoint} (found : Found prims tables proof target)
    (found' : Found prims tables proof target') : target = target' := by
  obtain ⟨_, index, row, found⟩ := found
  obtain ⟨_, index', row', found'⟩ := found'
  obtain ⟨-, sameIndex⟩ := SparkOutPoint.mk.inj (Option.some.inj (found.named.symm.trans found'.named))
  have sameId : row.sparkId = row'.sparkId := by rw [found.id, found'.id, sameIndex]
  exact unique target target' row row' found.stored found'.stored sameId

/-- A check that leaves the tables as they were and does not pass. -/
def Rejected (tables : SparkTables) (result : SparkTables × ExitVerdict) : Prop :=
  result.1 = tables ∧ result.2 ≠ .valid

theorem rejected_invalid : Rejected tables (tables, .invalid) := ⟨rfl, by simp⟩

theorem rejected_waiting (hash : SparkHash) : Rejected tables (tables, .waiting hash) :=
  ⟨rfl, by simp⟩

/-- The check passes an empty proof, or refuses, or has found a leaf by its id and marks it. -/
theorem checkExitProof_cases (unique : UniqueIds tables) (proof : ReceiptProof) (vout : Nat) :
    (proof.isEmptyReceiptproof = true ∧
      checkExitProof prims txid block tables vout proof = (tables, .valid)) ∨
    Rejected tables (checkExitProof prims txid block tables vout proof) ∨
    ∃ target exit index row, FoundById prims tables proof target exit index row ∧
      checkExitProof prims txid block tables vout proof =
        (tables.modifyOutput target (withdrawn txid vout block), .valid) := by
  unfold checkExitProof
  split
  case h_1 => exact .inl ⟨rfl, rfl⟩
  case h_3 => exact .inr (.inl rejected_invalid)
  case h_2 exit =>
    right
    split
    case h_1 => exact .inl rejected_invalid
    case h_2 hash leafIndex parsed =>
      split
      case isTrue => exact .inl rejected_invalid
      case isFalse clear =>
        split
        case h_1 => exact .inl (rejected_waiting hash)
        case h_2 tx found =>
          split
          case isTrue => exact .inl (rejected_waiting hash)
          case isFalse finalized =>
            split
            case h_1 => exact .inl rejected_invalid
            case h_2 leaf named =>
              split
              case isTrue => exact .inl rejected_invalid
              case isFalse accepted =>
                obtain ⟨index, row, stored, rfl⟩ := leaf_of_getSparkTxWithOutputs found
                  (List.mem_of_find?_eq_some named)
                simp only [not_or, not_not, Bool.not_eq_true, Option.isSome_eq_false_iff,
                  Option.isNone_iff_eq_none] at accepted
                obtain ⟨notFrozen, notWithdrawn, receipt, revocation, owner⟩ := accepted
                have id := List.find?_some named
                rw [decide_eq_true_iff] at id
                have marked : tables.markSparkOutputAsWithdrawn row.toLeaf.id txid vout block = _ :=
                  markSparkOutputAsWithdrawn_eq unique stored vout
                refine .inr ⟨⟨hash, index⟩, exit, leafIndex.toNat, row,
                  ⟨rfl, ?_, by simpa using clear, not_not.mp finalized, stored, id,
                    ⟨notFrozen, notWithdrawn, receipt, revocation, owner⟩⟩, ?_⟩
                · simp [exitPlace, parsed]
                · rw [marked]

theorem checkExitProof_of_found (unique : UniqueIds tables) {proof : ReceiptProof}
    {target : SparkOutPoint} (found : Found prims tables proof target) (vout : Nat) :
    checkExitProof prims txid block tables vout proof =
      (tables.modifyOutput target (withdrawn txid vout block), .valid) := by
  obtain ⟨exit, index, row, rfl, named, clear, finalized, stored, id, matching⟩ := found
  obtain ⟨⟨hash, leafIndex⟩, parsed, place⟩ := Option.map_eq_some_iff.mp named
  obtain ⟨rfl, rfl⟩ := SparkOutPoint.mk.inj place
  obtain ⟨tx, read⟩ := Option.isSome_iff_exists.mp (getSparkTxWithOutputs_isSome stored)
  have byId : (tx.leavesToCreate.find? fun leaf => leaf.id = toString leafIndex) =
      some row.toLeaf := by
    have there : tx.leavesToCreate[target.outputIndex]? = some row.toLeaf := by
      rw [leaf_eq_output read, stored]
      rfl
    cases search : tx.leavesToCreate.find? fun leaf => leaf.id = toString leafIndex with
    | none =>
      have other := List.find?_eq_none.mp search _ (List.mem_of_getElem? there)
      exact absurd (decide_eq_true id) other
    | some leaf =>
      obtain ⟨vout, row', stored', rfl⟩ :=
        leaf_of_getSparkTxWithOutputs read (List.mem_of_find?_eq_some search)
      have sameId := List.find?_some search
      rw [decide_eq_true_iff] at sameId
      rw [unique _ _ row' row stored' stored (sameId.trans id.symm)] at stored'
      rw [Option.some.inj (stored'.symm.trans stored)]
  have marked : tables.markSparkOutputAsWithdrawn row.toLeaf.id txid vout block = _ :=
    markSparkOutputAsWithdrawn_eq unique stored vout
  have accepted : ¬ (row.toLeaf.isFrozen.getD false = true ∨ row.toLeaf.withdrawTxid.isSome = true ∨
      row.toLeaf.receipt ≠ (ReceiptProof.sparkExit exit).receipt ∨
      row.toLeaf.revocationPublicKey ≠ exit.script.revocationKey ∨
      row.toLeaf.ownerPublicKey ≠ exit.script.delayKey) := by
    simp only [not_or, not_not, Bool.not_eq_true, Option.isSome_eq_false_iff,
      Option.isNone_iff_eq_none]
    exact ⟨matching.notFrozen, matching.notWithdrawn, matching.receipt, matching.revocationKey,
      matching.ownerKey⟩
  unfold checkExitProof
  simp only [parsed, clear, read, finalized, byId, Option.isSome_none]
  rw [if_neg (by simp), if_neg (by simp), if_neg accepted, marked]

theorem checkExitProof_of_missing (unique : UniqueIds tables) {proof : ReceiptProof}
    (notEmpty : proof.isEmptyReceiptproof = false)
    (missing : ∀ target, ¬ Found prims tables proof target) (vout : Nat) :
    Rejected tables (checkExitProof prims txid block tables vout proof) := by
  rcases @checkExitProof_cases prims tables txid block unique proof vout with
    ⟨empty, -⟩ | rejected | ⟨target, exit, index, row, found, -⟩
  · exact absurd empty (by simp [notEmpty])
  · exact rejected
  · exact absurd ⟨exit, index, row, found⟩ (missing target)

theorem found_of_canExit {proof : ReceiptProof} (can : CanExit prims tables proof)
    (regular : ∀ place, exitPlace prims proof = some place → Regular tables place) :
    ∃ place, exitPlace prims proof = some place ∧ Found prims tables proof place := by
  obtain ⟨place, exit, row, isExit, named, finalized, stored, matching, -⟩ := can
  have atPlace := regular place named
  exact ⟨place, named, exit, place.outputIndex, row, isExit, named, atPlace.hash, finalized, stored,
    atPlace.index row stored, matching⟩

end Proof

/-! ### A leaf that was marked -/

section Marks

variable {prims : Primitives} {tables : SparkTables} {txid : Txid} {block : BlockHash}
  {target : SparkOutPoint} {vout : Nat} {place : SparkOutPoint} {row' : SparkOutputRow}

theorem output_marked
    (stored : (tables.modifyOutput target (withdrawn txid vout block)).output place = some row') :
    ∃ row, tables.output place = some row ∧
      (place = target ∧ row' = withdrawn txid vout block row ∨ place ≠ target ∧ row' = row) := by
  rw [output_modifyOutput] at stored
  by_cases same : place = target
  · rw [if_pos same] at stored
    obtain ⟨row, found, rfl⟩ := Option.map_eq_some_iff.mp stored
    exact ⟨row, found, .inl ⟨same, rfl⟩⟩
  · rw [if_neg same] at stored
    exact ⟨row', stored, .inr ⟨same, rfl⟩⟩

theorem fixed_marked
    (stored : (tables.modifyOutput target (withdrawn txid vout block)).output place = some row') :
    ∃ row, tables.output place = some row ∧ row'.sparkId = row.sparkId := by
  obtain ⟨row, found, ⟨-, rfl⟩ | ⟨-, rfl⟩⟩ := output_marked stored
  · exact ⟨row, found, rfl⟩
  · exact ⟨row', found, rfl⟩

theorem UniqueIds.marked (unique : UniqueIds tables) :
    UniqueIds (tables.modifyOutput target (withdrawn txid vout block)) := by
  intro place place' row row' stored stored' sameId
  obtain ⟨old, found, id⟩ := fixed_marked stored
  obtain ⟨old', found', id'⟩ := fixed_marked stored'
  exact unique place place' old old' found found' (id.symm.trans (sameId.trans id'))

theorem getSparkOutputModel_marked (id : String) :
    (tables.modifyOutput target (withdrawn txid vout block)).getSparkOutputModel id = none ↔
      tables.getSparkOutputModel id = none := by
  have none_iff : ∀ tables : SparkTables, tables.getSparkOutputModel id = none ↔
      ∀ place row, tables.output place = some row → row.sparkId ≠ id := by
    intro tables
    refine ⟨fun missing place row stored => getSparkOutputModel_eq_none missing stored,
      fun absent => List.find?_eq_none.mpr ?_⟩
    rintro ⟨place, row⟩ mem
    simpa using absent place row (mem_allOutputs.mp mem)
  rw [none_iff, none_iff]
  constructor
  · intro absent place row stored
    by_cases same : place = target
    · exact absent place (withdrawn txid vout block row)
        (by rw [output_modifyOutput, if_pos same, stored]; rfl)
    · exact absent place row (by rw [output_modifyOutput, if_neg same, stored])
  · intro absent place row' stored
    obtain ⟨row, found, id⟩ := fixed_marked stored
    rw [id]
    exact absent place row found

theorem found_marked {proof : ReceiptProof} :
    Found prims (tables.modifyOutput target (withdrawn txid vout block)) proof place ↔
      place ≠ target ∧ Found prims tables proof place := by
  constructor
  · rintro ⟨exit, index, row, found⟩
    obtain ⟨old, stored, ⟨-, rfl⟩ | ⟨different, rfl⟩⟩ := output_marked found.stored
    · cases found.matching.notWithdrawn
    · refine ⟨different, exit, index, row, { found with clear := ?_, finalized := ?_, stored }⟩
      · exact (getSparkOutputModel_marked _).mp found.clear
      · rw [← found.finalized, getTokenTransactionStatus_modifyOutput]
  · rintro ⟨different, exit, index, row, found⟩
    refine ⟨exit, index, row, { found with clear := ?_, finalized := ?_, stored := ?_ }⟩
    · exact (getSparkOutputModel_marked _).mpr found.clear
    · rw [← found.finalized, getTokenTransactionStatus_modifyOutput]
    · rw [output_modifyOutput, if_neg different, found.stored]

end Marks

/-! ### The loop -/

section Loop

variable {prims : Primitives} {tables : SparkTables} {txid : Txid} {block : BlockHash}

/-- The leaves the proofs name are marked, each with the index of its proof, and no others. -/
def Marked (names : ReceiptProof → SparkOutPoint → Prop) (txid : Txid) (block : BlockHash)
    (entries : List (Nat × ReceiptProof)) (tables tables' : SparkTables) : Prop :=
  (∀ entry ∈ entries, ∀ place, names entry.2 place →
    tables'.output place = (tables.output place).map (withdrawn txid entry.1 block)) ∧
  ∀ place, (∀ entry ∈ entries, ¬ names entry.2 place) → tables'.output place = tables.output place

theorem checkExitProofs_of_refused {index : Nat} {proof : ReceiptProof}
    (refused : (checkExitProof prims txid block tables index proof).2 ≠ .valid)
    (rest : List (Nat × ReceiptProof)) :
    checkExitProofs prims txid block ((index, proof) :: rest) tables =
      checkExitProof prims txid block tables index proof := by
  unfold checkExitProofs
  dsimp only
  split
  case h_1 valid => exact absurd valid refused
  case h_2 => rfl

theorem checkExitProofs_of_empty {entry : Nat × ReceiptProof}
    (empty : entry.2.isEmptyReceiptproof = true) (rest : List (Nat × ReceiptProof)) :
    checkExitProofs prims txid block (entry :: rest) tables =
      checkExitProofs prims txid block rest tables := by
  obtain ⟨index, proof⟩ := entry
  cases proof with
  | emptyReceipt proof => rfl
  | _ => cases empty

/-- The first proof that is not empty is the first to be checked. -/
theorem checkExitProofs_head {entries : List (Nat × ReceiptProof)} {first : Nat × ReceiptProof}
    (starts : (exiting entries).head? = some first) :
    first.2.isEmptyReceiptproof = false ∧ ∃ rest, checkExitProofs prims txid block entries tables =
      checkExitProofs prims txid block (first :: rest) tables := by
  induction entries with
  | nil => cases starts
  | cons entry rest ih =>
    rw [exiting_cons] at starts
    cases empty : entry.2.isEmptyReceiptproof with
    | true =>
      rw [if_pos empty] at starts
      rw [checkExitProofs_of_empty empty]
      exact ih starts
    | false =>
      rw [if_neg (by simp [empty])] at starts
      obtain rfl := Option.some.inj starts
      exact ⟨empty, rest, rfl⟩

/-- A pair of proofs for which the same leaf is not found. -/
def Apart (prims : Primitives) (tables : SparkTables) (a b : Nat × ReceiptProof) : Prop :=
  ∀ place, Found prims tables a.2 place → ¬ Found prims tables b.2 place

section Cons

variable {place : SparkOutPoint} {index : Nat} {proof : ReceiptProof} (unique : UniqueIds tables)
  (found : Found prims tables proof place) (rest : List (Nat × ReceiptProof))
include unique found

/-- Once a leaf is marked, the proofs after it have leaves of their own exactly when they have
others than the marked one. -/
theorem found_apart_cons :
    ((∀ other ∈ rest, ∃ target,
        Found prims (tables.modifyOutput place (withdrawn txid index block)) other.2 target) ∧
      rest.Pairwise (Apart prims (tables.modifyOutput place (withdrawn txid index block)))) ↔
    (∀ other ∈ (index, proof) :: rest, ∃ target, Found prims tables other.2 target) ∧
      ((index, proof) :: rest).Pairwise (Apart prims tables) := by
  have apart : ∀ other : Nat × ReceiptProof,
      Apart prims tables (index, proof) other ↔ ¬ Found prims tables other.2 place := by
    refine fun other => ⟨fun apart => apart place found, fun absent target isFound => ?_⟩
    rw [isFound.unique unique found]
    exact absent
  rw [List.pairwise_cons, List.forall_mem_cons]
  constructor
  · rintro ⟨others, distinct⟩
    have elsewhere : ∀ other ∈ rest, ∃ target, target ≠ place ∧
        Found prims tables other.2 target :=
      fun other mem => (others other mem).imp fun _ => found_marked.mp
    refine ⟨⟨⟨place, found⟩, fun other mem => (elsewhere other mem).imp fun _ => And.right⟩,
      fun other mem => (apart other).mpr fun isFound => ?_,
      distinct.imp_of_mem fun {first second} firstMem _ separate target inFirst inSecond => ?_⟩
    · obtain ⟨target, different, isTarget⟩ := elsewhere other mem
      exact different (isTarget.unique unique isFound)
    · obtain ⟨own, different, isOwn⟩ := elsewhere first firstMem
      obtain rfl := inFirst.unique unique isOwn
      exact separate target (found_marked.mpr ⟨different, inFirst⟩)
        (found_marked.mpr ⟨different, inSecond⟩)
  · rintro ⟨⟨-, others⟩, absent, distinct⟩
    refine ⟨fun other mem => ?_, distinct.imp fun separate target inFirst inSecond =>
      separate target (found_marked.mp inFirst).2 (found_marked.mp inSecond).2⟩
    obtain ⟨target, isFound⟩ := others other mem
    refine ⟨target, found_marked.mpr ⟨?_, isFound⟩⟩
    rintro rfl
    exact (apart other).mp (absent other mem) isFound

theorem marked_cons {tables' : SparkTables}
    (fresh : ∀ other ∈ rest, ¬ Found prims tables other.2 place)
    (marks : Marked (Found prims (tables.modifyOutput place (withdrawn txid index block))) txid block
      rest (tables.modifyOutput place (withdrawn txid index block)) tables') :
    Marked (Found prims tables) txid block ((index, proof) :: rest) tables tables' := by
  obtain ⟨others, same⟩ := marks
  constructor
  · intro other mem target isFound
    rcases List.mem_cons.mp mem with rfl | mem
    · obtain rfl := isFound.unique unique found
      rw [same target fun other mem isFound => fresh other mem (found_marked.mp isFound).2,
        output_modifyOutput, if_pos rfl]
    · have different : target ≠ place := by
        rintro rfl
        exact fresh other mem isFound
      rw [others other mem target (found_marked.mpr ⟨different, isFound⟩),
        output_modifyOutput, if_neg different]
  · intro target absent
    have different : target ≠ place := by
      rintro rfl
      exact absent (index, proof) List.mem_cons_self found
    rw [same target fun other mem isFound => absent other (List.mem_cons_of_mem _ mem)
      (found_marked.mp isFound).2, output_modifyOutput, if_neg different]

end Cons

/-- The loop passes exactly when for every proof a leaf of its own is found, and then marks
these. -/
theorem checkExitProofs_spec (unique : UniqueIds tables) (entries : List (Nat × ReceiptProof)) :
    ((checkExitProofs prims txid block entries tables).2 = .valid ↔
      (∀ entry ∈ exiting entries, ∃ place, Found prims tables entry.2 place) ∧
        (exiting entries).Pairwise (Apart prims tables)) ∧
    ((checkExitProofs prims txid block entries tables).2 = .valid →
      Marked (Found prims tables) txid block (exiting entries) tables
        (checkExitProofs prims txid block entries tables).1) := by
  induction entries generalizing tables with
  | nil =>
    constructor
    · simp [checkExitProofs, exiting]
    · intro _
      exact ⟨by simp [exiting], fun _ _ => rfl⟩
  | cons entry rest ih =>
    cases empty : entry.2.isEmptyReceiptproof with
    | true =>
      rw [exiting_cons, if_pos empty, checkExitProofs_of_empty empty]
      exact ih unique
    | false =>
      obtain ⟨index, proof⟩ := entry
      rw [exiting_cons, if_neg (by simp [empty])]
      by_cases found : ∃ place, Found prims tables proof place
      · -- The proof marks its leaf, and the rest is checked against that.
        obtain ⟨place, found⟩ := found
        have passes : checkExitProofs prims txid block ((index, proof) :: rest) tables =
            checkExitProofs prims txid block rest
              (tables.modifyOutput place (withdrawn txid index block)) := by
          simp only [checkExitProofs, checkExitProof_of_found unique found]
        obtain ⟨accepts, marks⟩ := @ih
          (tables.modifyOutput place (withdrawn txid index block)) unique.marked
        rw [found_apart_cons unique found] at accepts
        rw [passes]
        refine ⟨accepts, fun valid => marked_cons unique found _ ?_ (marks valid)⟩
        intro other mem
        exact List.rel_of_pairwise_cons (accepts.mp valid).2 mem place found
      · have missing := fun target isFound => found ⟨target, isFound⟩
        obtain ⟨-, refused⟩ := @checkExitProof_of_missing prims tables txid block unique proof empty
          missing index
        rw [checkExitProofs_of_refused refused]
        refine ⟨⟨fun valid => absurd valid refused, fun good => ?_⟩,
          fun valid => absurd valid refused⟩
        exact absurd (good.1 (index, proof) List.mem_cons_self) found

end Loop

/-! ### What an exit withdraws -/

section Withdrawals

variable {prims : Primitives} {tables tables' : SparkTables} {txid : Txid} {block : BlockHash}
  {proof : ReceiptProof} {place : SparkOutPoint} {vout : Nat}

/-- The leaves that were withdrawn are still withdrawn by the same transaction. -/
def KeepsWithdrawn (tables tables' : SparkTables) : Prop :=
  ∀ place row, tables.output place = some row → row.withdrawTxid ≠ none →
    ∃ row', tables'.output place = some row' ∧ row'.withdrawTxid = row.withdrawTxid ∧
      row'.toLeaf.receipt = row.toLeaf.receipt

theorem KeepsWithdrawn.refl (tables : SparkTables) : KeepsWithdrawn tables tables :=
  fun _ row stored _ => ⟨row, stored, rfl, rfl⟩

theorem KeepsWithdrawn.trans {tables'' : SparkTables} (first : KeepsWithdrawn tables tables')
    (second : KeepsWithdrawn tables' tables'') : KeepsWithdrawn tables tables'' := by
  intro place row stored marked
  obtain ⟨row', stored', mark, receipt⟩ := first place row stored marked
  obtain ⟨row'', stored'', mark', receipt'⟩ := second place row' stored' (mark ▸ marked)
  exact ⟨row'', stored'', mark'.trans mark, receipt'.trans receipt⟩

/-- The leaf is withdrawn by the transaction, and its receipt is that of the proof. -/
def WithdrawnFor (tables : SparkTables) (txid : Txid) (proof : ReceiptProof)
    (place : SparkOutPoint) : Prop :=
  ∃ row, tables.output place = some row ∧ row.withdrawTxid = some txid ∧
    row.toLeaf.receipt = proof.receipt

theorem WithdrawnFor.mono (kept : KeepsWithdrawn tables tables')
    (own : WithdrawnFor tables txid proof place) : WithdrawnFor tables' txid proof place := by
  obtain ⟨row, stored, mark, receipt⟩ := own
  obtain ⟨row', stored', mark', receipt'⟩ := kept place row stored (by simp [mark])
  exact ⟨row', stored', mark'.trans mark, receipt'.trans receipt⟩

/-- Each proof has a leaf of its own that the transaction has withdrawn for it. -/
def Backed (tables : SparkTables) (txid : Txid) (proofs : List (Nat × ReceiptProof)) : Prop :=
  ∃ places : List SparkOutPoint, places.Nodup ∧
    List.Forall₂ (fun entry place => WithdrawnFor tables txid entry.2 place) proofs places

theorem Backed.mono {proofs : List (Nat × ReceiptProof)} (kept : KeepsWithdrawn tables tables')
    (backed : Backed tables txid proofs) : Backed tables' txid proofs := by
  obtain ⟨places, distinct, leaves⟩ := backed
  exact ⟨places, distinct, leaves.imp fun _ _ own => own.mono kept⟩

/-- The check of a proof writes nothing, or it marks a leaf with the receipt of the proof that was
not withdrawn. -/
theorem checkExitProof_eq (unique : UniqueIds tables) {verdict : ExitVerdict}
    (ended : checkExitProof prims txid block tables vout proof = (tables', verdict)) :
    (tables' = tables ∧ (verdict = .valid → proof.isEmptyReceiptproof = true)) ∨
    proof.isEmptyReceiptproof = false ∧ ∃ place row, tables.output place = some row ∧
      row.withdrawTxid = none ∧ row.toLeaf.receipt = proof.receipt ∧
      tables' = tables.modifyOutput place (withdrawn txid vout block) := by
  rcases @checkExitProof_cases prims tables txid block unique proof vout with
    ⟨empty, checked⟩ | ⟨same, invalid⟩ | ⟨target, exit, index, row, found, checked⟩
  · obtain ⟨rfl, -⟩ := Prod.mk.inj (ended.symm.trans checked)
    exact .inl ⟨rfl, fun _ => empty⟩
  · rw [ended] at same invalid
    exact .inl ⟨same, fun valid => absurd valid invalid⟩
  · obtain ⟨rfl, -⟩ := Prod.mk.inj (ended.symm.trans checked)
    obtain rfl := found.isExit
    exact .inr ⟨rfl, target, row, found.stored, found.matching.notWithdrawn, found.matching.receipt,
      rfl⟩

/-- The loop keeps the leaves that were withdrawn, and the ids unique. -/
theorem checkExitProofs_keepsWithdrawn (unique : UniqueIds tables)
    (entries : List (Nat × ReceiptProof)) :
    KeepsWithdrawn tables (checkExitProofs prims txid block entries tables).1 ∧
      UniqueIds (checkExitProofs prims txid block entries tables).1 := by
  induction entries generalizing tables with
  | nil => exact ⟨.refl tables, unique⟩
  | cons entry rest ih =>
    obtain ⟨index, proof⟩ := entry
    cases checked : checkExitProof prims txid block tables index proof with
    | mk tables' verdict =>
      have one : KeepsWithdrawn tables tables' ∧ UniqueIds tables' := by
        rcases checkExitProof_eq unique checked with
          ⟨rfl, -⟩ | ⟨-, place, row, stored, free, -, rfl⟩
        · exact ⟨.refl _, unique⟩
        · refine ⟨fun other row' stored' marked => ⟨row', ?_, rfl, rfl⟩, unique.marked⟩
          rw [output_modifyOutput, if_neg ?_, stored']
          rintro rfl
          obtain rfl := Option.some.inj (stored.symm.trans stored')
          exact marked free
      simp only [checkExitProofs, checked]
      split
      case h_1 =>
        obtain ⟨kept, stillUnique⟩ := ih one.2
        exact ⟨one.1.trans kept, stillUnique⟩
      case h_2 => exact one

/-- The leaves of an exit that passes were not withdrawn before, and are now. -/
theorem checkExitProofs_backed (unique : UniqueIds tables) {entries : List (Nat × ReceiptProof)}
    (valid : (checkExitProofs prims txid block entries tables).2 = .valid) :
    ∃ places : List SparkOutPoint, places.Nodup ∧
      (∀ place ∈ places, ∃ row, tables.output place = some row ∧ row.withdrawTxid = none) ∧
      List.Forall₂ (fun entry place => WithdrawnFor
        (checkExitProofs prims txid block entries tables).1 txid entry.2 place)
        (exiting entries) places := by
  obtain ⟨accepts, marks⟩ := @checkExitProofs_spec prims tables txid block unique entries
  obtain ⟨leaves, apart⟩ := accepts.mp valid
  obtain ⟨marked, -⟩ := marks valid
  have : Nonempty SparkOutPoint := ⟨⟨.replicate 32 0, 0⟩⟩
  choose! leafOf isLeaf using leaves
  refine ⟨(exiting entries).map leafOf, ?_, ?_, ?_⟩
  · refine List.Pairwise.map leafOf (R := fun a b => Apart prims tables a b ∧ a ∈ exiting entries ∧
      b ∈ exiting entries) ?_ ?_
    · rintro a b ⟨apart, aMem, bMem⟩ same
      have found := isLeaf b bMem
      rw [← same] at found
      exact apart (leafOf a) (isLeaf a aMem) found
    · exact apart.imp_of_mem fun aMem bMem apart => ⟨apart, aMem, bMem⟩
  · intro place mem
    obtain ⟨entry, isEntry, rfl⟩ := List.mem_map.mp mem
    obtain ⟨_, _, row, found⟩ := isLeaf entry isEntry
    exact ⟨row, found.stored, found.matching.notWithdrawn⟩
  · rw [List.forall₂_map_right_iff, List.forall₂_same]
    intro entry mem
    obtain ⟨exit, _, row, found⟩ := isLeaf entry mem
    refine ⟨withdrawn txid entry.1 block row, ?_, rfl, ?_⟩
    · rw [marked entry mem _ (isLeaf entry mem), found.stored]
      rfl
    · rw [found.isExit]
      exact found.matching.receipt

end Withdrawals

/-! ### The check -/

/-- The Bitcoin node has the transaction in a block and knows the block. -/
def Mined (client : BitcoinClient) (txid : Txid) : Prop :=
  ∃ block, client.getRawTransactionInfo txid = .ok (some block) ∧
    client.getBlockHeaderInfo block = .ok ()

/-- The tables after the check of an exit, and whether it is accepted. -/
def exitOutcome (prims : Primitives) (client : BitcoinClient) (tables : SparkTables)
    (queue : SparkQueue) (tx : Lrc20Transaction) (outputProofs : ProofMap) : SparkTables × Bool :=
  match checkSparkExit prims client tables queue tx outputProofs with
  | .ok (tables', _, verdict) => (tables', decide (verdict = .valid))
  | .error _ => (tables, false)

/-- The exit is accepted when every proof can exit, the leaves the proofs name are marked and no
others, and an exit that is not accepted changes nothing. -/
structure ExactExit (prims : Primitives) (client : BitcoinClient) (tables : SparkTables)
    (tx : Lrc20Transaction) (outputProofs : ProofMap) (outcome : SparkTables × Bool) : Prop where
  verdict : outcome.2 = true ↔ AllCanExit prims tables outputProofs
  marked : outcome.2 = true → ∃ block, client.getRawTransactionInfo tx.txid = .ok (some block) ∧
    Marked (fun proof place => exitPlace prims proof = some place) tx.txid block
      (exiting outputProofs.entries) tables outcome.1
  unchanged : outcome.2 = false → outcome.1 = tables

/-- When every proof can exit, the exit is in a block and the places named are regular. Otherwise
no leaf is found for the first proof, or the exit is in no block. -/
structure RegularExit (prims : Primitives) (client : BitcoinClient) (tables : SparkTables)
    (tx : Lrc20Transaction) (outputProofs : ProofMap) : Prop where
  accepts : AllCanExit prims tables outputProofs → Mined client tx.txid ∧
    ∀ entry ∈ exiting outputProofs.entries, ∀ place,
      exitPlace prims entry.2 = some place → Regular tables place
  refuses : ¬ AllCanExit prims tables outputProofs → Mined client tx.txid →
    ∀ first ∈ (exiting outputProofs.entries).head?, ∀ place, ¬ Found prims tables first.2 place

section Check

variable {prims : Primitives} {client : BitcoinClient} {tables : SparkTables} {queue : SparkQueue}
  {tx : Lrc20Transaction} {outputProofs : ProofMap}

theorem exitOutcome_of_mined {block : BlockHash}
    (mined : client.getRawTransactionInfo tx.txid = .ok (some block))
    (header : client.getBlockHeaderInfo block = .ok ()) :
    exitOutcome prims client tables queue tx outputProofs =
      ((checkExitProofs prims tx.txid block outputProofs.entries tables).1,
        decide ((checkExitProofs prims tx.txid block outputProofs.entries tables).2 = .valid)) := by
  unfold exitOutcome checkSparkExit
  simp only [bind, Except.bind, mined, header, pure, Except.pure]
  generalize checkExitProofs prims tx.txid block outputProofs.entries tables = checked
  obtain ⟨tables', verdict⟩ := checked
  cases verdict <;> rfl

theorem exitOutcome_of_not_mined (unmined : ¬ Mined client tx.txid) :
    exitOutcome prims client tables queue tx outputProofs = (tables, false) := by
  unfold exitOutcome checkSparkExit
  cases info : client.getRawTransactionInfo tx.txid with
  | error failure => rfl
  | ok found =>
    cases found with
    | none => rfl
    | some block =>
      cases header : client.getBlockHeaderInfo block with
      | error failure => simp [bind, Except.bind, header]
      | ok _ => exact absurd ⟨block, info, header⟩ unmined

/-- What is withdrawn is no longer what it was. -/
theorem checkExitProofs_writes (unique : UniqueIds tables) {txid : Txid} {block : BlockHash}
    {first : Nat × ReceiptProof} {place : SparkOutPoint}
    (found : Found prims tables first.2 place) (rest : List (Nat × ReceiptProof)) :
    (checkExitProofs prims txid block (first :: rest) tables).1 ≠ tables := by
  intro same
  have passes : checkExitProofs prims txid block (first :: rest) tables =
      checkExitProofs prims txid block rest
        (tables.modifyOutput place (withdrawn txid first.1 block)) := by
    simp only [checkExitProofs, checkExitProof_of_found unique found]
  obtain ⟨_, _, row, leaf⟩ := found
  obtain ⟨row', stored', mark, -⟩ := (@checkExitProofs_keepsWithdrawn prims _ txid block
    unique.marked rest).1 place (withdrawn txid first.1 block row)
    (by rw [output_modifyOutput, if_pos rfl, leaf.stored]; rfl) nofun
  rw [← passes, same] at stored'
  obtain rfl := Option.some.inj (leaf.stored.symm.trans stored')
  cases leaf.matching.notWithdrawn.symm.trans mark

/-- The places named are regular when exactly the leaves there are marked. -/
theorem regular_of_marked {block : BlockHash} {tables' : SparkTables}
    {entries : List (Nat × ReceiptProof)}
    (keys : (entries.map Prod.fst).Nodup) (small : ∀ entry ∈ entries, entry.1 < 2 ^ 32)
    (can : ∀ entry ∈ entries, CanExit prims tables entry.2)
    (byId : Marked (Found prims tables) tx.txid block entries tables tables')
    (byPlace : Marked (fun proof place => exitPlace prims proof = some place) tx.txid block entries
      tables tables') {entry : Nat × ReceiptProof} (mem : entry ∈ entries) {place : SparkOutPoint}
    (named : exitPlace prims entry.2 = some place) : Regular tables place := by
  obtain ⟨own, exit, row, -, ownNamed, -, stored, matching, -⟩ := can entry mem
  obtain rfl := Option.some.inj (ownNamed.symm.trans named)
  have marked := byPlace.1 entry mem own named
  rw [stored] at marked
  -- The leaf is marked, so it was found, and for the proof with the same index.
  by_cases found : ∃ other ∈ entries, Found prims tables other.2 own
  · obtain ⟨other, otherMem, isFound⟩ := found
    have alsoMarked := byId.1 other otherMem own isFound
    rw [stored, marked] at alsoMarked
    have sameVout := congrArg SparkOutputRow.withdrawVout (Option.some.inj alsoMarked)
    have sameIndex : other.1 = entry.1 := by
      have wrapped := congrArg UInt32.toNat (Option.some.inj sameVout)
      rw [UInt32.toNat_ofNat', UInt32.toNat_ofNat', Nat.mod_eq_of_lt (small entry mem),
        Nat.mod_eq_of_lt (small other otherMem)] at wrapped
      exact wrapped.symm
    obtain rfl := List.inj_on_of_nodup_map keys otherMem mem sameIndex
    obtain ⟨_, index, row', leaf⟩ := isFound
    have index_eq := congrArg SparkOutPoint.outputIndex
      (Option.some.inj (leaf.named.symm.trans named))
    refine ⟨leaf.clear, fun row'' stored'' => ?_⟩
    obtain rfl := Option.some.inj (leaf.stored.symm.trans stored'')
    rw [leaf.id]
    exact congrArg toString index_eq
  · have kept := byId.2 own fun other otherMem isFound => found ⟨other, otherMem, isFound⟩
    rw [kept, stored] at marked
    have mark := congrArg SparkOutputRow.withdrawTxid (Option.some.inj marked)
    cases matching.notWithdrawn.symm.trans mark

/-- At regular places the leaves found are those named. -/
theorem spec_of_regular (unique : UniqueIds tables) {txid : Txid} {block : BlockHash}
    (all : AllCanExit prims tables outputProofs)
    (regular : ∀ entry ∈ exiting outputProofs.entries, ∀ place,
      exitPlace prims entry.2 = some place → Regular tables place) :
    (checkExitProofs prims txid block outputProofs.entries tables).2 = .valid ∧
      Marked (fun proof place => exitPlace prims proof = some place) txid block
        (exiting outputProofs.entries) tables
        (checkExitProofs prims txid block outputProofs.entries tables).1 := by
  obtain ⟨accepts, marks⟩ := @checkExitProofs_spec prims tables txid block unique
    outputProofs.entries
  have found : ∀ entry ∈ exiting outputProofs.entries, ∀ place,
      Found prims tables entry.2 place ↔ exitPlace prims entry.2 = some place := by
    intro entry mem place
    obtain ⟨own, named, isFound⟩ := found_of_canExit (all.1 entry mem) (regular entry mem)
    constructor
    · intro other
      rw [other.unique unique isFound]
      exact named
    · intro other
      rw [← Option.some.inj (named.symm.trans other)]
      exact isFound
  have valid : (checkExitProofs prims txid block outputProofs.entries tables).2 = .valid := by
    refine accepts.mpr ⟨fun entry mem => ?_, ?_⟩
    · obtain ⟨place, -, isFound⟩ := found_of_canExit (all.1 entry mem) (regular entry mem)
      exact ⟨place, isFound⟩
    · refine (List.pairwise_map.mp all.2).imp_of_mem fun aMem bMem differ place inA inB => ?_
      exact differ (((found _ aMem place).mp inA).trans ((found _ bMem place).mp inB).symm)
  refine ⟨valid, fun entry mem place named => ?_, fun place absent => ?_⟩
  · exact (marks valid).1 entry mem place ((found entry mem place).mpr named)
  · exact (marks valid).2 place fun entry mem isFound =>
      absent entry mem ((found entry mem place).mp isFound)

/-- The check of an exit is exact for the regular exits and for no others. -/
theorem spark_exit_exact (prims : Primitives) (client : BitcoinClient) (tables : SparkTables)
    (queue : SparkQueue) (tx : Lrc20Transaction) (outputProofs : ProofMap)
    (unique : UniqueIds tables) (small : ∀ entry ∈ outputProofs.entries, entry.1 < 2 ^ 32) :
    ExactExit prims client tables tx outputProofs
        (exitOutcome prims client tables queue tx outputProofs) ↔
      RegularExit prims client tables tx outputProofs := by
  by_cases mined : Mined client tx.txid
  · obtain ⟨block, info, header⟩ := mined
    rw [exitOutcome_of_mined info header]
    obtain ⟨-, byId⟩ := @checkExitProofs_spec prims tables tx.txid block unique outputProofs.entries
    constructor
    · intro exact
      refine ⟨fun all => ⟨⟨block, info, header⟩, ?_⟩, fun refused _ first starts place found => ?_⟩
      · have valid := exact.verdict.mpr all
        obtain ⟨other, sameInfo, byPlace⟩ := exact.marked valid
        obtain rfl := Option.some.inj (Except.ok.inj (info.symm.trans sameInfo))
        have keys : ((exiting outputProofs.entries).map Prod.fst).Nodup :=
          (List.filter_sublist.map Prod.fst).nodup (outputProofs.sorted.imp Nat.ne_of_lt)
        intro entry mem place named
        exact regular_of_marked keys (fun entry mem => small entry (List.mem_filter.mp mem).1)
          all.1 (byId (of_decide_eq_true valid)) byPlace mem named
      · have invalid := Bool.eq_false_iff.mpr fun valid => refused (exact.verdict.mp valid)
        obtain ⟨-, rest, loop⟩ := @checkExitProofs_head prims tables tx.txid block _ _ starts
        have unchanged := exact.unchanged invalid
        rw [loop] at unchanged
        exact checkExitProofs_writes unique found rest unchanged
    · intro regular
      by_cases all : AllCanExit prims tables outputProofs
      · obtain ⟨valid, byPlace⟩ := @spec_of_regular prims tables outputProofs unique tx.txid block
          all (regular.accepts all).2
        exact ⟨iff_of_true (decide_eq_true valid) all, fun _ => ⟨block, info, byPlace⟩,
          fun invalid => absurd valid (of_decide_eq_false invalid)⟩
      · obtain ⟨first, starts⟩ : ∃ first, (exiting outputProofs.entries).head? = some first := by
          by_contra none
          have nothing := List.head?_eq_none_iff.mp (Option.eq_none_iff_forall_ne_some.mpr
            fun first starts => none ⟨first, starts⟩)
          exact all (by simp [AllCanExit, nothing])
        obtain ⟨notEmpty, rest, loop⟩ := @checkExitProofs_head prims tables tx.txid block _ _ starts
        obtain ⟨same, refused⟩ := @checkExitProof_of_missing prims tables tx.txid block unique
          first.2 notEmpty (regular.refuses all ⟨block, info, header⟩ first starts) first.1
        rw [loop, checkExitProofs_of_refused refused]
        exact ⟨iff_of_false (by simpa using refused) all,
          fun valid => absurd (of_decide_eq_true valid) refused, fun _ => same⟩
  · rw [exitOutcome_of_not_mined mined]
    constructor
    · intro exact
      refine ⟨fun all => ?_, fun _ isMined => absurd isMined mined⟩
      cases exact.verdict.mpr all
    · intro regular
      exact ⟨iff_of_false Bool.false_ne_true fun all => mined (regular.accepts all).1,
        fun valid => absurd valid Bool.false_ne_true, fun _ => rfl⟩

end Check

/-! ### Examples of exits -/

def mintedHash : SparkHash := List.Vector.replicate 32 7

def mintedReceipt : Receipt := ⟨TokenAmount.new 5, repeating 3⟩

/-- A leaf of five, with the transfer that spends it if there is one. -/
def mintedLeaf (id : String) (spend : Option (SparkHash × Nat)) : SparkOutputRow where
  sparkId := id
  tokenPubkey := repeating 3
  ownerPubkey := repeating 1
  withdrawalBondSats := 0
  withdrawalLocktime := 0
  tokenAmount := 5
  revocationPubkey := repeating 2
  revocationSecretKey := none
  isFrozen := none
  withdrawTxid := none
  withdrawVout := none
  withdrawBlockhash := none
  spend := spend

/-- The tables with one finalized transaction. -/
def mintedTables (outputs : List SparkOutputRow) : SparkTables where
  transactions := AList.insert mintedHash ⟨.userTransfer, .finalized, none, outputs, []⟩ ∅
  operatorSignatures := ∅
  userSignatures := ∅

/-- The proof that a leaf of the transaction leaves Spark. -/
def exitOf (leafIndex : UInt8) : ReceiptProof :=
  .sparkExit ⟨mintedReceipt, ⟨repeating 2, repeating 1, 0⟩, some (mintedHash.toList ++ [leafIndex])⟩

def exitProofs (leafIndices : List UInt8) : ProofMap where
  entries := (List.range leafIndices.length).zip (leafIndices.map exitOf)
  sorted := by
    rw [List.map_fst_zip (by simp)]
    exact List.pairwise_lt_range

def exitTx (leafIndices : List UInt8) : Lrc20Transaction :=
  ⟨⟨8, [], []⟩, .sparkExit (exitProofs leafIndices)⟩

def minedClient : BitcoinClient where
  getRawTransactionInfo _ := .ok (some 4)
  getBlockHeaderInfo _ := .ok ()
  getRawTransaction _ := .error ()
  getTxOut _ := .ok none

/-- The check of an exit, its verdict and what is marked at a leaf. -/
def exitResult (outputs : List SparkOutputRow) (leafIndices : List UInt8) (vout : Nat) :
    Option (ExitVerdict × Option (Option Txid)) :=
  (checkSparkExit .plain minedClient (mintedTables outputs) ∅ (exitTx leafIndices)
    (exitProofs leafIndices)).toOption.map fun (tables, _, verdict) =>
      (verdict, (tables.output ⟨mintedHash, vout⟩).map SparkOutputRow.withdrawTxid)

/-- The only leaf of a transaction exits. -/
theorem spark_exit_exact_leaf :
    AllCanExit .plain (mintedTables [mintedLeaf "0" none]) (exitProofs [0]) ∧
      ExactExit .plain minedClient (mintedTables [mintedLeaf "0" none]) (exitTx [0])
        (exitProofs [0]) (exitOutcome .plain minedClient (mintedTables [mintedLeaf "0" none]) ∅
          (exitTx [0]) (exitProofs [0])) := by
  have outputs : (mintedTables [mintedLeaf "0" none]).allOutputs =
      [(⟨mintedHash, 0⟩, mintedLeaf "0" none)] := by decide +kernel
  have stored : ∀ {place row}, (mintedTables [mintedLeaf "0" none]).output place = some row →
      place = ⟨mintedHash, 0⟩ ∧ row = mintedLeaf "0" none := by
    intro place row found
    have mem := mem_allOutputs.mpr found
    rw [outputs, List.mem_singleton] at mem
    exact Prod.mk.inj mem
  have unique : UniqueIds (mintedTables [mintedLeaf "0" none]) :=
    fun _ _ _ _ found found' _ => (stored found).1.trans (stored found').1.symm
  have named : ∀ entry ∈ exiting (exitProofs [0]).entries, entry = (0, exitOf 0) := by
    decide +kernel
  have place : exitPlace .plain (exitOf 0) = some ⟨mintedHash, 0⟩ := by decide +kernel
  have all : AllCanExit .plain (mintedTables [mintedLeaf "0" none]) (exitProofs [0]) := by
    constructor
    · intro entry mem
      rw [named entry mem]
      exact ⟨⟨mintedHash, 0⟩, _, mintedLeaf "0" none, rfl, place, by decide +kernel,
        by decide +kernel, ⟨rfl, rfl, rfl, rfl, rfl⟩, rfl⟩
    · decide +kernel
  refine ⟨all, (spark_exit_exact .plain minedClient _ ∅ (exitTx [0]) (exitProofs [0]) unique
    (by decide +kernel)).mpr ⟨fun _ => ⟨⟨4, rfl, rfl⟩, ?_⟩, fun bad => absurd all bad⟩⟩
  intro entry mem target isTarget
  rw [named entry mem] at isTarget
  obtain rfl := Option.some.inj (place.symm.trans isTarget)
  refine ⟨by decide +kernel, fun row found => ?_⟩
  rw [(stored found).2]
  decide +kernel

/-- A leaf that a Spark transaction has spent exits, a leaf is found by its id and not by its
index, and an exit that is refused for its second leaf has marked its first one. -/
theorem spark_exit_not_atomic :
    exitResult [mintedLeaf "0" (some (mintedHash, 0))] [0] 0 = some (.valid, some (some 8)) ∧
      (¬ AllCanExit .plain (mintedTables [mintedLeaf "0" (some (mintedHash, 0))])
        (exitProofs [0])) ∧
      exitResult [mintedLeaf "a" none, mintedLeaf "0" none] [0] 0 = some (.valid, some none) ∧
      exitResult [mintedLeaf "a" none, mintedLeaf "0" none] [0] 1 = some (.valid, some (some 8)) ∧
      exitResult [mintedLeaf "0" none] [0, 1] 0 = some (.invalid, some (some 8)) := by
  refine ⟨by decide +kernel, ?_, by decide +kernel, by decide +kernel, by decide +kernel⟩
  intro all
  obtain ⟨place, exit, row, -, can, -, stored, -, unspent⟩ :=
    all.1 (0, exitOf 0) (by decide +kernel)
  have named : exitPlace .plain (exitOf 0) = some ⟨mintedHash, 0⟩ := by decide +kernel
  obtain rfl := Option.some.inj (named.symm.trans can)
  have there : (mintedTables [mintedLeaf "0" (some (mintedHash, 0))]).output ⟨mintedHash, 0⟩ =
      some (mintedLeaf "0" (some (mintedHash, 0))) := by decide +kernel
  obtain rfl := Option.some.inj (there.symm.trans stored)
  cases unspent

end Lrc20.TxCheck
