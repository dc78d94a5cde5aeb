import Lrc20.Node.Settlement
import Lrc20.TxCheck.Balance
import Lrc20.TxCheck.Spend

/-! That no tokens come into being on layer one: what an attached transfer takes was put there by
an attached transaction, and what is left was issued or withdrawn from Spark. -/

open Lrc20.Storage Lrc20.TxAttach Lrc20.TxCheck Runs Flow FullChecking

namespace Lrc20.Node

open Lrc20Transaction

/-- What Bitcoin enforces for the transactions of a chain: an input that names one of them spends
an output of it validly, and no other input spends that output. -/
structure Enforced (prims : Primitives) (chain : Txid → Option Transaction) : Prop where
  valid : ∀ txid tx, chain txid = some tx → ∀ txin ∈ tx.input,
    (chain txin.previousOutput.txid).isSome → ∃ spent,
      outputAt chain txin.previousOutput = some spent ∧ ValidSpend prims spent.scriptPubkey txin
  once : ∀ txid tx txid' tx', chain txid = some tx → chain txid' = some tx' →
    ∀ (index index' : Nat) (txin txin' : TxIn),
      tx.input[index]? = some txin → tx'.input[index']? = some txin' →
      txin.previousOutput = txin'.previousOutput → (chain txin.previousOutput.txid).isSome →
      txid = txid' ∧ index = index'

namespace L1Node

def attachedTxs (tables : L1Tables) : List Lrc20Transaction :=
  tables.l1Transactions.entries.filterMap fun entry =>
    if entry.2.status = .attached then some entry.2.rawTx else none

def attachedProofs (tables : L1Tables) : List ReceiptProof :=
  (attachedTxs tables).flatMap fun tx => tx.outputs.map Prod.snd ++ tx.spends.map Prod.snd

/-- What an attached transfer takes is recorded at an output of an attached transaction, and what
is recorded and not taken was issued or withdrawn. -/
structure NoInflation (node : L1Node) : Prop where
  sourced : ∀ txid row inputProofs outputProofs,
    node.ledger.tables.l1Transactions.lookup txid = some row → row.status = .attached →
    row.rawTx.txType = .transfer inputProofs outputProofs →
    ∀ entry ∈ inputProofs.entries, entry.2.isEmptyReceiptproof = false →
    ∃ txin parent proof, row.rawTx.bitcoinTx.input[entry.1]? = some txin ∧
      node.ledger.tables.l1Transactions.lookup txin.previousOutput.txid = some parent ∧
      parent.status = .attached ∧ (txin.previousOutput.vout, proof) ∈ parent.rawTx.outputs ∧
      proof.receipt = entry.2.receipt
  bounded : ∀ token,
    total (Receipt.amountOf token) (unspent (attachedTxs node.ledger.tables) produced consumed) ≤
      ((attachedTxs node.ledger.tables).map (issueAmount token)).sum +
        ((attachedTxs node.ledger.tables).map (withdrawnAmount node.spark token)).sum

/-! ### Conditions on the steps -/

/-- What the checks take for granted about a transaction: that it was checked by itself, that it
is the one on the chain with its witnesses, that its proofs are those of its outputs, and that its
input proofs are of the kind of output they spend. -/
structure GenuineTx (prims : Primitives) (chain : Txid → Option Transaction)
    (client : BitcoinClient) (tx : Lrc20Transaction) : Prop where
  accepted : checkTransaction prims tx = .ok ()
  onChain : chain tx.txid = some tx.bitcoinTx
  ordinary : Ordinary tx
  kinds : ∀ inputProofs ∈ tx.txType.inputProofs, ∀ entry ∈ inputProofs.entries,
    entry.2.isEmptyReceiptproof = false → ∀ txin ∈ tx.bitcoinTx.input[entry.1]?,
    ∀ spent ∈ outputAt chain txin.previousOutput,
      SpendsItsKind prims client chain txin spent entry.2

def GenuineProofs (prims : Primitives) (chain : Txid → Option Transaction) (client : BitcoinClient)
    (_ : FullChecking) (tx : Lrc20Transaction) : Prop :=
  tx.txType.isAnnouncement = false → GenuineTx prims chain client tx

/-- The Spark side keeps the ids of leaves unique and leaves withdrawn ones alone. -/
def LeavesWithdrawn (node : L1Node) : Input → Prop
  | .spark tables => UniqueIds tables ∧ KeepsWithdrawn node.spark tables
  | _ => True

structure Accountable (prims : Primitives) (chain : Txid → Option Transaction) (node : L1Node)
    (input : Input) : Prop where
  leaves : LeavesAttached prims node input
  marks : MarksOwn node input
  finds : FindsAccounted node input
  checks : node.ChecksOnly prims (GenuineProofs prims chain) input
  withdrawn : LeavesWithdrawn node input

/-! ### What the records say -/

/-- The leaves of an exit are withdrawn for its proofs. -/
def BackedBy (spark : SparkTables) (record : CheckRecord) : Prop :=
  ∀ outputProofs, record.tx.txType = .sparkExit outputProofs →
    Backed spark record.tx.txid (exiting outputProofs.entries)

/-- What is attached was checked, and holds up to what it was checked for. -/
structure Proven (prims : Primitives) (chain : Txid → Option Transaction) (node : L1Node) :
    Prop where
  settling : Settling node
  attested : Attested (fun tx => tx.txType.isAnnouncement = false) node.ledger
  passed : RecordsAll (Passed prims) node.ledger
  genuine : RecordsAll (fun record => record.tx.txType.isAnnouncement = false →
    GenuineTx prims chain record.client record.tx) node.ledger
  unique : UniqueIds node.spark
  backed : RecordsAll (BackedBy node.spark) node.ledger

section Records

variable {prims : Primitives} {chain : Txid → Option Transaction} {node : L1Node} {input : Input}

theorem MarksOwn.marksChecked (marks : MarksOwn node input) :
    node.MarksChecked (fun tx => tx.txType.isAnnouncement = false) input := by
  cases input with
  | controller bans =>
    intro message head tx mem row found kind
    have own := marks message head tx mem
    split at own
    · cases kind.symm.trans (own row found)
    · obtain ⟨record, recorded, -⟩ := Option.map_eq_some_iff.mp own
      rw [recorded]
      rfl
  | _ => trivial

end Records

/-! ### What exits withdraw -/

section Exits

variable {prims : Primitives} {node : L1Node} {input : Input} {client : BitcoinClient}

theorem checkLrc20Transaction_withdrawn {now : Nat}
    {tables tables' : L1Tables} {spark spark' : SparkTables} {tx : Lrc20Transaction}
    {verdict : ExitVerdict} (unique : UniqueIds spark)
    (checked : checkLrc20Transaction prims client now tables spark tx =
      .ok (tables', spark', verdict)) :
    KeepsWithdrawn spark spark' ∧ UniqueIds spark' ∧
      (verdict = .valid → ∀ outputProofs, tx.txType = .sparkExit outputProofs →
        Backed spark' tx.txid (exiting outputProofs.entries)) := by
  rcases checkLrc20Transaction_spark checked with ⟨rfl, other⟩ | ⟨outputProofs, block, kind, ended⟩
  · exact ⟨.refl _, unique, fun valid outputProofs same => absurd same (other valid outputProofs)⟩
  · have kept := @checkExitProofs_keepsWithdrawn prims spark tx.txid block unique
      outputProofs.entries
    rw [ended] at kept
    refine ⟨kept.1, kept.2, ?_⟩
    rintro rfl others same
    obtain rfl := Lrc20TxType.sparkExit.inj (kind.symm.trans same)
    obtain ⟨places, distinct, -, leaves⟩ :=
      @checkExitProofs_backed prims spark tx.txid block unique outputProofs.entries (by rw [ended])
    rw [ended] at leaves
    exact ⟨places, distinct, leaves⟩

/-- One more check keeps the withdrawn leaves, and an exit that passes has its own. -/
theorem checkNextTx_withdrawn {now : Nat} {state : FullChecking} {tx : Lrc20Transaction}
    (unique : UniqueIds state.spark) (all : RecordsAll (BackedBy state.spark) state.ledger) :
    KeepsWithdrawn state.spark (checkNextTx prims client now state tx).spark ∧
      UniqueIds (checkNextTx prims client now state tx).spark ∧
      RecordsAll (BackedBy (checkNextTx prims client now state tx).spark)
        (checkNextTx prims client now state tx).ledger := by
  rcases @checkNextTx_spec prims client now state tx with
    ⟨ledger, spark⟩ | ⟨⟨tables, spark, verdict⟩, checked, after, -⟩
  · rw [ledger, spark]
    exact ⟨.refl _, unique, all⟩
  · obtain ⟨kept, stillUnique, own⟩ := checkLrc20Transaction_withdrawn unique checked
    rw [after]
    refine ⟨kept, stillUnique, checkNextTx_recordsAll ?_ ?_⟩
    · exact fun txid record recorded outputProofs kind =>
        (all txid record recorded outputProofs kind).mono kept
    · intro tables' spark' valid
      obtain ⟨-, others⟩ := Prod.mk.inj (Except.ok.inj (checked.symm.trans valid))
      exact own (Prod.mk.inj others).2

theorem step_withdrawn (unique : UniqueIds node.spark)
    (all : RecordsAll (BackedBy node.spark) node.ledger) (leaves : LeavesWithdrawn node input) :
    UniqueIds (step prims node input).spark ∧
      RecordsAll (BackedBy (step prims node input).spark) (step prims node input).ledger := by
  have check : ∀ client now txs,
      KeepsWithdrawn node.spark (checking prims client now node txs).spark ∧
        UniqueIds (checking prims client now node txs).spark ∧
        RecordsAll (BackedBy (checking prims client now node txs).spark)
          (checking prims client now node txs).ledger := by
    intro client now txs
    refine runFrom_invariant (I := fun state : FullChecking =>
      KeepsWithdrawn node.spark state.spark ∧ UniqueIds state.spark ∧
        RecordsAll (BackedBy state.spark) state.ledger) ?_ ⟨.refl _, unique, all⟩ txs
    rintro state tx ⟨kept, unique, all⟩
    obtain ⟨keptOne, still⟩ := @checkNextTx_withdrawn prims client now state tx unique all
    exact ⟨kept.trans keptOne, still⟩
  have spark : KeepsWithdrawn node.spark (step prims node input).spark ∧
      UniqueIds (step prims node input).spark := by
    refine @step_keeps_spark prims node
      (fun spark => KeepsWithdrawn node.spark spark ∧ UniqueIds spark) input ?_ ?_
      ⟨.refl _, unique⟩
    · intro client now txs _ _ _
      obtain ⟨kept, still, -⟩ := check client now txs
      exact ⟨kept, still⟩
    · rintro tables rfl
      exact ⟨leaves.2, leaves.1⟩
  refine ⟨spark.2, step_keeps_of_shrinks (fun _ _ shrinks all => all.shrink shrinks) ?_ ?_⟩
  · rintro client now txs rest rfl inbox
    rw [(step_fullCheck inbox).2]
    exact (check client now txs).2.2
  · exact fun txid record recorded outputProofs kind =>
      (all txid record recorded outputProofs kind).mono spark.1

end Exits

/-! ### Runs -/

section Runs

variable {prims : Primitives} {chain : Txid → Option Transaction} {node : L1Node} {input : Input}

theorem proven_new : Proven prims chain new where
  settling := settling_new
  attested := fun _ _ found => nomatch found
  passed := fun _ _ found => nomatch found
  genuine := fun _ _ found => nomatch found
  unique := fun _ _ _ _ stored => nomatch stored
  backed := fun _ _ found => nomatch found

theorem step_proven (proven : Proven prims chain node)
    (accountable : Accountable prims chain node input) :
    Proven prims chain (step prims node input) := by
  have withdrawn := @step_withdrawn prims node input proven.unique proven.backed
    accountable.withdrawn
  have genuine := @step_keeps_of_shrinks prims _ node input (fun _ _ shrinks all => all.shrink shrinks)
    (accountable.checks.afterCheck proven.genuine fun _ _ _ _ kept genuine =>
      checkNextTx_recordsAll kept fun _ _ _ => genuine) proven.genuine
  exact {
    settling := step_settling proven.settling accountable.leaves accountable.marks accountable.finds
    attested := step_attested proven.attested accountable.marks.marksChecked
    passed := step_recordsPassed input proven.passed
    genuine
    unique := withdrawn.1
    backed := withdrawn.2 }

end Runs

/-! ### What is taken was put there -/

section Sources

variable {prims : Primitives} {chain : Txid → Option Transaction} {node : L1Node} {txid : Txid}
  {row : L1Row} {tables : L1Tables} {inputProofs outputProofs : ProofMap} {proof : ReceiptProof}

theorem mem_attachedTxs {tx : Lrc20Transaction} :
    tx ∈ attachedTxs tables ↔ ∃ txid row, tables.l1Transactions.lookup txid = some row ∧
      row.status = .attached ∧ row.rawTx = tx := by
  unfold attachedTxs
  rw [List.mem_filterMap]
  constructor
  · rintro ⟨⟨txid, row⟩, mem, selected⟩
    split at selected
    case isTrue attached =>
      exact ⟨txid, row, AList.mem_lookup_iff.mpr mem, attached, Option.some.inj selected⟩
    case isFalse => cases selected
  · rintro ⟨txid, row, found, attached, rfl⟩
    exact ⟨⟨txid, row⟩, AList.mem_lookup_iff.mp found, if_pos attached⟩

theorem checkTransfer_of_passed {record : CheckRecord} (passed : Passed prims record)
    (kind : record.tx.txType = .transfer inputProofs outputProofs) :
    checkTransfer prims record.client record.tables record.tx inputProofs.entries = .ok true := by
  obtain ⟨now, tables, spark, checked⟩ := passed
  unfold checkLrc20Transaction at checked
  simp only [kind] at checked
  obtain ⟨valid, result, ended⟩ := Outcome.map_eq_ok.mp checked
  cases valid with
  | true => exact result
  | false => cases ended

theorem mem_attachedProofs (found : tables.l1Transactions.lookup txid = some row)
    (attached : row.status = .attached)
    (mem : proof ∈ row.rawTx.outputs.map Prod.snd ∨ proof ∈ row.rawTx.spends.map Prod.snd) :
    proof ∈ attachedProofs tables :=
  List.mem_flatMap.mpr ⟨row.rawTx, mem_attachedTxs.mpr ⟨txid, row, found, attached, rfl⟩,
    List.mem_append.mpr mem⟩

variable (proven : Proven prims chain node) (enforced : Enforced prims chain)
  (noCollision : ∀ p ∈ attachedProofs node.ledger.tables,
    ∀ q ∈ attachedProofs node.ledger.tables,
      AnyReceiptProof.NoCollision prims [.plain p, .plain q])

section

variable (found : node.ledger.tables.l1Transactions.lookup txid = some row)
  (attached : row.status = .attached)

include proven found attached

theorem Proven.record (kind : row.rawTx.txType.isAnnouncement = false) :
    ∃ record, record.tx = row.rawTx ∧ Passed prims record ∧
      GenuineTx prims chain record.client row.rawTx ∧ BackedBy node.spark record := by
  have noted := proven.attested txid row found attached kind
  obtain ⟨record, recorded⟩ := Option.isSome_iff_exists.mp noted
  have agrees := (proven.settling.agree txid record recorded).2
  rw [found] at agrees
  have same : row.rawTx = record.tx := Option.some.inj agrees
  refine ⟨record, same.symm, proven.passed txid record recorded, ?_,
    proven.backed txid record recorded⟩
  rw [same]
  exact proven.genuine txid record recorded (same ▸ kind)

theorem Proven.onChain (kind : row.rawTx.txType.isAnnouncement = false) :
    chain txid = some row.rawTx.bitcoinTx := by
  obtain ⟨_, -, -, genuine, -⟩ := proven.record found attached kind
  rw [← proven.settling.filed.own txid row found]
  exact genuine.onChain

theorem Proven.parent {outpoint : OutPoint} (spends : (outpoint, proof) ∈ row.rawTx.spends) :
    ∃ parent, node.ledger.tables.l1Transactions.lookup outpoint.txid = some parent ∧
      parent.status = .attached ∧ parent.rawTx.txType.isAnnouncement = false := by
  have isParent : outpoint.txid ∈ row.rawTx.parents := List.mem_map.mpr ⟨_, spends, rfl⟩
  exact isSettled_iff.mp (proven.settling.parents txid row found attached _ isParent)

include enforced noCollision

/-- What an attached transfer takes is recorded at an output of an attached transaction. -/
theorem Proven.source (kind : row.rawTx.txType = .transfer inputProofs outputProofs)
    {entry : Nat × ReceiptProof}
    (mem : entry ∈ inputProofs.entries) (notEmpty : entry.2.isEmptyReceiptproof = false) :
    ∃ txin parent proof, row.rawTx.bitcoinTx.input[entry.1]? = some txin ∧
      node.ledger.tables.l1Transactions.lookup txin.previousOutput.txid = some parent ∧
      parent.status = .attached ∧ (txin.previousOutput.vout, proof) ∈ parent.rawTx.outputs ∧
      proof.receipt = entry.2.receipt := by
  obtain ⟨record, same, passed, genuine, -⟩ := proven.record found attached (by rw [kind]; rfl)
  have checked := checkTransfer_of_passed passed (same ▸ kind)
  rw [same] at checked
  obtain ⟨txin, isInput, allowed⟩ := allowed_of_checkTransfer checked entry mem
  have spends : (txin.previousOutput, entry.2) ∈ row.rawTx.spends :=
    mem_spends.mpr
      ⟨inputProofs, outputProofs, kind, entry.1, entry.2, txin, mem, notEmpty, isInput, rfl⟩
  obtain ⟨parent, parentFound, parentAttached, parentKind⟩ := proven.parent found attached spends
  have parentOnChain := proven.onChain parentFound parentAttached parentKind
  -- Consensus makes the input spend an output of the parent, which the proof opens.
  obtain ⟨spent, output, valid⟩ := enforced.valid _ _ genuine.onChain txin
    (List.mem_of_getElem? isInput) (by rw [parentOnChain]; rfl)
  have kinds := genuine.kinds inputProofs (by rw [kind]; rfl) entry mem notEmpty txin isInput spent
    output
  have byInput := passed_of_checkTransaction kind genuine.accepted mem isInput
  obtain ⟨innerKey, lock, opened, pays⟩ := opens_spent_output output valid kinds byInput allowed
  obtain ⟨_, -, -, parentGenuine, -⟩ := proven.record parentFound parentAttached parentKind
  have proved := (outputsProved_iff_ordinary parentGenuine.accepted parentKind).mpr
    parentGenuine.ordinary
  obtain ⟨other, isOther, receipt⟩ := receipt_of_opening parentOnChain output proved opened pays (by
    intro output isOutput
    exact noCollision _
      (mem_attachedProofs parentFound parentAttached (.inl (List.mem_map_of_mem isOutput))) _
      (mem_attachedProofs found attached (.inr (List.mem_map_of_mem spends))))
  exact ⟨txin, parent, other, isInput, parentFound, parentAttached, isOther, receipt⟩

end

/-! ### What is left was issued or withdrawn -/

variable {tx : Lrc20Transaction}

theorem attachedTxs_distinct {tables : L1Tables} (filed : Filed tables) :
    (attachedTxs tables).Pairwise fun tx tx' => tx.txid ≠ tx'.txid := by
  unfold attachedTxs
  rw [List.pairwise_filterMap]
  have keys : tables.l1Transactions.entries.Pairwise fun entry entry' => entry.1 ≠ entry'.1 :=
    List.pairwise_map.mp tables.l1Transactions.nodupKeys
  refine keys.imp_of_mem ?_
  rintro ⟨txid, row⟩ ⟨txid', row'⟩ mem mem' different tx selected tx' selected'
  split at selected
  case isFalse => cases selected
  case isTrue =>
    split at selected'
    case isFalse => cases selected'
    case isTrue =>
      obtain rfl := Option.some.inj selected
      obtain rfl := Option.some.inj selected'
      rw [filed.own txid row (AList.mem_lookup_iff.mpr mem),
        filed.own txid' row' (AList.mem_lookup_iff.mpr mem')]
      exact different

include proven

theorem Proven.chain_of_spends (mem : tx ∈ attachedTxs node.ledger.tables) {outpoint : OutPoint}
    (spends : (outpoint, proof) ∈ tx.spends) :
    chain tx.txid = some tx.bitcoinTx ∧ (chain outpoint.txid).isSome := by
  obtain ⟨txid, row, found, attached, rfl⟩ := mem_attachedTxs.mp mem
  obtain ⟨_, _, kind, -⟩ := mem_spends.mp spends
  obtain ⟨parent, parentFound, parentAttached, parentKind⟩ := proven.parent found attached spends
  constructor
  · rw [proven.settling.filed.own txid row found]
    exact proven.onChain found attached (by rw [kind]; rfl)
  · rw [proven.onChain parentFound parentAttached parentKind]
    rfl

include enforced

/-- What attached transfers take from one output, they take with one input. -/
theorem Proven.spends_once {tx' : Lrc20Transaction} (mem : tx ∈ attachedTxs node.ledger.tables)
    (mem' : tx' ∈ attachedTxs node.ledger.tables) {index index' : Nat} {txin txin' : TxIn}
    {proof' : ReceiptProof} (spends : (txin.previousOutput, proof) ∈ tx.spends)
    (spends' : (txin'.previousOutput, proof') ∈ tx'.spends)
    (isInput : tx.bitcoinTx.input[index]? = some txin)
    (isInput' : tx'.bitcoinTx.input[index']? = some txin')
    (same : txin.previousOutput = txin'.previousOutput) : tx.txid = tx'.txid ∧ index = index' := by
  obtain ⟨onChain, parentOnChain⟩ := proven.chain_of_spends mem spends
  obtain ⟨onChain', -⟩ := proven.chain_of_spends mem' spends'
  exact enforced.once _ _ _ _ onChain onChain' index index' txin txin' isInput isInput' same
    parentOnChain

theorem Proven.spends_nodup (mem : tx ∈ attachedTxs node.ledger.tables) :
    (tx.spends.map Prod.fst).Nodup := by
  cases kind : tx.txType with
  | transfer inputProofs outputProofs =>
    have listed : ∀ {index : Nat} {proof : ReceiptProof} {txin : TxIn},
        (index, proof) ∈ inputProofs.entries → proof.isEmptyReceiptproof = false →
        tx.bitcoinTx.input[index]? = some txin → (txin.previousOutput, proof) ∈ tx.spends :=
      fun isEntry notEmpty isInput => mem_spends.mpr
        ⟨inputProofs, outputProofs, kind, _, _, _, isEntry, notEmpty, isInput, rfl⟩
    have sorted : inputProofs.entries.Pairwise fun entry entry' => entry.1 < entry'.1 :=
      List.pairwise_map.mp inputProofs.sorted
    have distinct : tx.spends.Pairwise fun spent spent' => spent.1 ≠ spent'.1 := by
      unfold Lrc20Transaction.spends
      rw [kind]
      apply List.pairwise_filterMap.mpr
      refine sorted.imp_of_mem ?_
      rintro ⟨index, proof⟩ ⟨index', proof'⟩ isEntry isEntry' before _ selected _ selected' same
      obtain ⟨notEmpty, txin, isInput, rfl⟩ := spend_eq_some.mp selected
      obtain ⟨notEmpty', txin', isInput', rfl⟩ := spend_eq_some.mp selected'
      have once := (proven.spends_once enforced mem mem (listed isEntry notEmpty isInput)
        (listed isEntry' notEmpty' isInput') isInput isInput' same).2
      dsimp only at before
      omega
    exact List.pairwise_map.mpr distinct
  | _ =>
    unfold Lrc20Transaction.spends
    rw [kind]
    exact List.nodup_nil

include noCollision

theorem Proven.conserving (token : TokenPubkey) :
    Conserving (attachedTxs node.ledger.tables) produced consumed (Receipt.amountOf token)
      fun tx => issueAmount token tx + withdrawnAmount node.spark token tx where
  spentOnce := by
    have places : ∀ tx : Lrc20Transaction, tx.consumed.map Prod.fst = tx.spends.map Prod.fst := by
      intro tx
      unfold consumed
      rw [List.map_map]
      rfl
    rw [List.map_flatMap, List.nodup_flatMap]
    constructor
    · intro tx mem
      rw [places]
      exact proven.spends_nodup enforced mem
    · refine (attachedTxs_distinct proven.settling.filed).imp_of_mem ?_
      intro tx tx' mem mem' different
      show List.Disjoint (tx.consumed.map Prod.fst) (tx'.consumed.map Prod.fst)
      rw [places, places]
      intro outpoint inTx inTx'
      obtain ⟨spent, spends, rfl⟩ := List.mem_map.mp inTx
      obtain ⟨spent', spends', same⟩ := List.mem_map.mp inTx'
      obtain ⟨_, _, -, _, _, txin, -, -, isInput, rfl⟩ := mem_spends.mp spends
      obtain ⟨_, _, -, _, _, txin', -, -, isInput', rfl⟩ := mem_spends.mp spends'
      exact different (proven.spends_once enforced mem mem' spends spends' isInput isInput'
        same.symm).1
  grounded := by
    intro tx mem entry isEntry
    obtain ⟨spent, spends, rfl⟩ := List.mem_map.mp isEntry
    obtain ⟨txid, row, found, attached, rfl⟩ := mem_attachedTxs.mp mem
    obtain ⟨_, _, kind, index, proof, txin, isProof, notEmpty, isInput, rfl⟩ := mem_spends.mp spends
    obtain ⟨txin', parent, other, isInput', parentFound, parentAttached, isOther, receipt⟩ :=
      proven.source enforced noCollision found attached kind isProof notEmpty
    obtain rfl := Option.some.inj (isInput.symm.trans isInput')
    refine List.mem_flatMap.mpr ⟨parent.rawTx, mem_attachedTxs.mpr
      ⟨_, parent, parentFound, parentAttached, rfl⟩, List.mem_map.mpr ⟨_, isOther, ?_⟩⟩
    rw [receipt, proven.settling.filed.own _ _ parentFound]
  balanced := by
    intro tx mem
    obtain ⟨txid, row, found, attached, rfl⟩ := mem_attachedTxs.mp mem
    cases kind : row.rawTx.txType.isAnnouncement with
    | true =>
      rw [produced_of_isAnnouncement kind]
      exact Nat.zero_le _
    | false =>
      obtain ⟨record, same, -, genuine, backed⟩ := proven.record found attached kind
      exact produced_le genuine.accepted kind genuine.ordinary (same ▸ backed)

/-- What the records say rules inflation out. -/
theorem Proven.noInflation : NoInflation node where
  sourced _ _ _ _ found attached kind _ mem notEmpty :=
    proven.source enforced noCollision found attached kind mem notEmpty
  bounded token := by
    rw [← List.sum_map_add]
    exact (proven.conserving enforced noCollision token).unspent_le_minted

end Sources

/-- In every run whose steps are accountable, over a chain that Bitcoin enforces and without a
collision among the proofs of what is attached, nothing is inflated in the state reached. -/
theorem noInflation_of_accountable (prims : Primitives) (chain : Txid → Option Transaction)
    (enforced : Enforced prims chain) (inputs : List Input)
    (run : AllSteps (step prims) (Accountable prims chain) new inputs)
    (noCollision : ∀ p ∈ attachedProofs (runFrom (step prims) new inputs).ledger.tables,
      ∀ q ∈ attachedProofs (runFrom (step prims) new inputs).ledger.tables,
        AnyReceiptProof.NoCollision prims [.plain p, .plain q]) :
    NoInflation (runFrom (step prims) new inputs) := by
  have proven := AllSteps.invariant (I := Proven prims chain)
    (fun _ _ proven accountable => step_proven proven accountable) proven_new run
  exact proven.noInflation enforced noCollision

/-! ### An issue and a transfer of it -/

instance (prims : Primitives) (chain : Txid → Option Transaction) (client : BitcoinClient)
    (tx : Lrc20Transaction) : Decidable (GenuineTx prims chain client tx) :=
  decidable_of_iff (checkTransaction prims tx = .ok () ∧ chain tx.txid = some tx.bitcoinTx ∧
    ((tx.txType.inputProofs = none → NoneOfOpReturn tx.bitcoinTx.output tx.outputs) ∧
      (tx.txType.isIssue →
        FixedWidth.exactSum (tx.outputs.map fun entry => entry.2.amount) < 2 ^ 128)) ∧
    ∀ inputProofs ∈ tx.txType.inputProofs, ∀ entry ∈ inputProofs.entries,
      entry.2.isEmptyReceiptproof = false → ∀ txin ∈ tx.bitcoinTx.input[entry.1]?,
      ∀ spent ∈ outputAt chain txin.previousOutput,
        SpendsItsKind prims client chain txin spent entry.2)
    ⟨fun ⟨accepted, onChain, ordinary, kinds⟩ =>
      ⟨accepted, onChain, ⟨ordinary.1, ordinary.2⟩, kinds⟩,
    fun genuine => ⟨genuine.accepted, genuine.onChain,
      ⟨genuine.ordinary.spendable, genuine.ordinary.fits⟩, genuine.kinds⟩⟩

instance (prims : Primitives) (chain : Txid → Option Transaction) (client : BitcoinClient)
    (state : FullChecking) (tx : Lrc20Transaction) :
    Decidable (GenuineProofs prims chain client state tx) :=
  inferInstanceAs (Decidable (_ → _))

def issueOfFive : Lrc20Transaction := issueWith 5 [5] (proofsOf 1 [5])

/-- The key that the output of the issue pays to. -/
def issuedKey : Bytes := (((issuedProof 5).receiptKey .plain).getD issuedToken).serialize

def spendsIssue : TxIn := ⟨⟨1, 1⟩, [], [[0x30], issuedKey]⟩

/-- A transfer of what an input proof says the issue has put into its output. -/
def spendOfIssue (inputProof : ReceiptProof) (amount : U128) : Lrc20Transaction :=
  ⟨⟨2, [spendsIssue], [outputOf (issuedProof amount)]⟩,
    .transfer ⟨[(0, inputProof)], by simp⟩ (proofsOf 0 [amount])⟩

/-- The chain with the issue and a transfer. -/
def chainWith (transfer : Lrc20Transaction) (txid : Txid) : Option Transaction :=
  if txid = 1 then some issueOfFive.bitcoinTx
  else if txid = 2 then some transfer.bitcoinTx
  else none

/-- A transaction arrives, is checked and attached; the graph builder finds the listed
transactions in the storage. -/
def attaching (tx : Lrc20Transaction) (stored : List Txid) : List Input :=
  throughNode tx ++ [.graph (World.surroundingsAt 0 stored), .controller fun _ => true]

def issueThenTransfer (transfer : Lrc20Transaction) : List Input :=
  attaching issueOfFive [] ++ attaching transfer [1]

/-- The node when both are attached. -/
def afterTransfer (transfer : Lrc20Transaction) : L1Node :=
  runFrom (step .plain) new (issueThenTransfer transfer)

theorem enforced_chainWith {transfer : Lrc20Transaction}
    (inputs : transfer.bitcoinTx.input = [spendsIssue]) : Enforced .plain (chainWith transfer) := by
  -- Only the transfer has an input.
  have only : ∀ {txid : Txid} {tx : Transaction} {index : Nat} {txin : TxIn},
      chainWith transfer txid = some tx → tx.input[index]? = some txin →
      txid = 2 ∧ index = 0 ∧ txin = spendsIssue := by
    intro txid tx index txin found isInput
    unfold chainWith at found
    split at found
    case isTrue =>
      obtain rfl := Option.some.inj found
      cases isInput
    case isFalse =>
      split at found
      case isFalse => cases found
      case isTrue second =>
        obtain rfl := Option.some.inj found
        rw [inputs, List.getElem?_singleton] at isInput
        split at isInput
        case isFalse => cases isInput
        case isTrue first => exact ⟨second, first, (Option.some.inj isInput).symm⟩
  constructor
  · intro txid tx found txin mem _
    obtain ⟨index, isInput⟩ := List.getElem?_of_mem mem
    obtain ⟨-, -, rfl⟩ := only found isInput
    have lock : (outputOf (issuedProof 5)).scriptPubkey =
        ScriptBuf.newP2wpkh (Primitives.plain.hash160 issuedKey) := by decide +kernel
    refine ⟨outputOf (issuedProof 5), rfl, ?_⟩
    rw [lock]
    exact validSpend_newP2wpkh rfl
  · intro txid tx txid' tx' found found' index index' txin txin' isInput isInput' _ _
    obtain ⟨rfl, rfl, -⟩ := only found isInput
    obtain ⟨rfl, rfl, -⟩ := only found' isInput'
    exact ⟨rfl, rfl⟩

/-- The graph builder is asked once, about what is settled. -/
theorem finds_attaching {node : L1Node} {tx : Lrc20Transaction} {stored : List Txid}
    (settled : ∀ txid ∈ stored,
      isSettled (runFrom (step .plain) node (throughNode tx)).ledger.tables txid = true) :
    AllSteps (step .plain)
      (fun node input => FindsAccounted node input ∧ LeavesWithdrawn node input)
      node (attaching tx stored) := by
  unfold attaching
  rw [allSteps_append]
  refine ⟨?_, ⟨fun _ _ _ parent _ => ⟨⟨_, rfl⟩, fun present => .inl (settled parent ?_)⟩, trivial⟩,
    ⟨trivial, trivial⟩, trivial⟩
  · simp [throughNode, AllSteps, FindsAccounted, LeavesWithdrawn]
  · simpa using Except.ok.inj present

/-- A transfer of the five that were issued. -/
def honestTransfer : Lrc20Transaction := spendOfIssue (.sig (issuedProof 5)) 5

/-- The transfer is attached, and there are five. -/
theorem noInflation_of_honestTransfer :
    Enforced .plain (chainWith honestTransfer) ∧
      AllSteps (step .plain) (Accountable .plain (chainWith honestTransfer)) new
        (issueThenTransfer honestTransfer) ∧
      NoInflation (afterTransfer honestTransfer) := by
  have enforced : Enforced .plain (chainWith honestTransfer) := enforced_chainWith rfl
  have decided : AllSteps (step .plain) (fun node input => LeavesAttached .plain node input ∧
      MarksOwn node input ∧
      node.ChecksOnly .plain (GenuineProofs .plain (chainWith honestTransfer)) input) new
      (issueThenTransfer honestTransfer) := by
    decide +kernel
  have finds : AllSteps (step .plain)
      (fun node input => FindsAccounted node input ∧ LeavesWithdrawn node input) new
      (issueThenTransfer honestTransfer) := by
    refine (allSteps_append new (attaching issueOfFive []) _).mpr
      ⟨finds_attaching (fun _ mem => nomatch mem), finds_attaching ?_⟩
    decide +kernel
  have run : AllSteps (step .plain) (Accountable .plain (chainWith honestTransfer)) new
      (issueThenTransfer honestTransfer) :=
    (decided.and finds).mono fun _ _ ⟨⟨leaves, marks, checks⟩, finds, withdrawn⟩ =>
      ⟨leaves, marks, finds, checks, withdrawn⟩
  have apart : ∀ p ∈ attachedProofs (afterTransfer honestTransfer).ledger.tables,
      ∀ q ∈ attachedProofs (afterTransfer honestTransfer).ledger.tables,
        AnyReceiptProof.ToldApart .plain [.plain p, .plain q] := by
    decide +kernel
  unfold afterTransfer at apart ⊢
  refine ⟨enforced, run, ?_⟩
  exact noInflation_of_accountable .plain (chainWith honestTransfer) enforced
    (issueThenTransfer honestTransfer) run fun p pMem q qMem => (apart p pMem q qMem).noCollision

/-- A transfer of a thousand, by the proof that they come from Spark. -/
def inflatingTransfer : Lrc20Transaction :=
  spendOfIssue (.sparkExit ⟨⟨TokenAmount.new 1000, issuedToken⟩,
    ⟨PublicKey.repeating 2, PublicKey.repeating 1, 0⟩, none⟩) 1000

/-- The input proof of an exit is accepted for any output: a thousand are made of five. -/
theorem exit_proof_inflates :
    Enforced .plain (chainWith inflatingTransfer) ∧
      (∀ tx ∈ attachedTxs (afterTransfer inflatingTransfer).ledger.tables,
        chainWith inflatingTransfer tx.txid = some tx.bitcoinTx) ∧
      (∀ p ∈ attachedProofs (afterTransfer inflatingTransfer).ledger.tables,
        ∀ q ∈ attachedProofs (afterTransfer inflatingTransfer).ledger.tables,
          AnyReceiptProof.NoCollision .plain [.plain p, .plain q]) ∧
      ¬ NoInflation (afterTransfer inflatingTransfer) := by
  have apart : ∀ p ∈ attachedProofs (afterTransfer inflatingTransfer).ledger.tables,
      ∀ q ∈ attachedProofs (afterTransfer inflatingTransfer).ledger.tables,
        AnyReceiptProof.ToldApart .plain [.plain p, .plain q] := by
    decide +kernel
  refine ⟨enforced_chainWith rfl, by decide +kernel,
    fun p pMem q qMem => (apart p pMem q qMem).noCollision, fun sound => ?_⟩
  have bounded := sound.bounded issuedToken
  revert bounded
  decide +kernel

end L1Node

end Lrc20.Node
