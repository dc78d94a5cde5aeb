import Lrc20.TxCheck.Isolated
import Lrc20.TxCheck.Spark

/-! The checks of a confirmed transaction against the storage: `check_txs_full`. -/

open Lrc20.Storage Outcome

namespace Lrc20.TxCheck

/-- What ends a check without a verdict. -/
inductive CheckFailure where
  | db (failure : DbFailure)
  | owner (failure : OwnerFailure)
  | rpc
  | inputNotFound
deriving DecidableEq

section Announcements

variable (prims : Primitives) (client : BitcoinClient) (tables : L1Tables)

/-- The owner that is in force for a token, as the storage reports it. -/
def ownerOf (token : TokenPubkey) : Option ScriptBuf :=
  (tables.getTokenPubkeyInfo token).bind TokenPubkeyInfo.owner

variable (tx : Lrc20Transaction)

/-- `TxChecker::find_owner_in_txinputs`, of which only whether there is one is read. -/
def hasOwnerInput (token : TokenPubkey) : Except CheckFailure Bool :=
  ((findOwnerInTxinputs prims client token (ownerOf tables token) tx.bitcoinTx.input).map
    Option.isSome).mapError .owner

def checkTokenPubkeyAnnouncement (announcement : TokenPubkeyAnnouncement) :
    Except CheckFailure Bool := do
  if ¬ (← hasOwnerInput prims client tables tx announcement.tokenPubkey) then return false
  match tables.getTokenPubkeyInfo announcement.tokenPubkey with
  | none => return true
  | some info =>
    if info.announcement.isSome then return false
    return ¬ (announcement.maxSupply ≠ 0 ∧ info.totalSupply > announcement.maxSupply)

def checkTokenLogoAnnouncement (announcement : TokenLogoAnnouncement) :
    Except CheckFailure Bool := do
  if ¬ (← hasOwnerInput prims client tables tx announcement.tokenPubkey) then return false
  match tables.getTokenPubkeyInfo announcement.tokenPubkey with
  | none => return false
  | some info => return info.announcement.isSome

/-- Whether the announcement of a token, if there is one, rules out freezes. -/
def forbidsFreezes (token : TokenPubkey) : Bool :=
  match (tables.getTokenPubkeyInfo token).bind TokenPubkeyInfo.announcement with
  | none => false
  | some announcement => !announcement.isFreezable

/-- A valid freeze takes effect here. -/
def checkTxFreezeAnnouncement (announcement : TxFreezeAnnouncement) :
    Except CheckFailure (L1Tables × Bool) := do
  if forbidsFreezes tables announcement.tokenPubkey then return (tables, false)
  if ¬ (← hasOwnerInput prims client tables tx announcement.tokenPubkey) then
    return (tables, false)
  return (tables.toggleProofFreeze announcement.outpoint, true)

def checkPubkeyFreezeAnnouncement (announcement : PubkeyFreezeAnnouncement) :
    Except CheckFailure Bool := do
  if forbidsFreezes tables announcement.tokenPubkey then return false
  hasOwnerInput prims client tables tx announcement.tokenPubkey

/-- `check_issue_announcement`. A transaction that is stored is not checked; the sum of a
release build wraps. -/
def checkIssueAnnouncement (announcement : IssueAnnouncement) : Except CheckFailure Bool := do
  let known ← (tables.getLrc20TransactionById prims tx.txid).mapError .db
  if known.isSome then return true
  if ¬ (← hasOwnerInput prims client tables tx announcement.tokenPubkey) then return false
  match tables.getTokenPubkeyInfo announcement.tokenPubkey with
  | some ⟨some tokenAnnouncement, totalSupply, _⟩ =>
    return ¬ (tokenAnnouncement.maxSupply ≠ 0 ∧
      tokenAnnouncement.maxSupply < totalSupply + announcement.amount)
  | _ => return true

def checkTransferOwnershipAnnouncement (announcement : TransferOwnershipAnnouncement) :
    Except CheckFailure Bool :=
  hasOwnerInput prims client tables tx announcement.tokenPubkey

def checkAnnouncements : Announcement → Except CheckFailure (L1Tables × Bool)
  | .tokenPubkey announcement =>
    (checkTokenPubkeyAnnouncement prims client tables tx announcement).map (tables, ·)
  | .tokenLogo announcement =>
    (checkTokenLogoAnnouncement prims client tables tx announcement).map (tables, ·)
  | .txFreeze announcement => checkTxFreezeAnnouncement prims client tables tx announcement
  | .pubkeyFreeze announcement =>
    (checkPubkeyFreezeAnnouncement prims client tables tx announcement).map (tables, ·)
  | .issue announcement =>
    (checkIssueAnnouncement prims client tables tx announcement).map (tables, ·)
  | .transferOwnership announcement =>
    (checkTransferOwnershipAnnouncement prims client tables tx announcement).map (tables, ·)

/-- An issue that passes is stored once more. -/
def checkIssuance (now : Nat) (tx : Lrc20Transaction) (announcement : IssueAnnouncement) :
    Except CheckFailure (L1Tables × Bool) := do
  if ¬ (← checkIssueAnnouncement prims client tables tx announcement) then return (tables, false)
  let tables ← (tables.insertLrc20Transaction now tx).mapError .db
  return (tables, true)

end Announcements

section Transfers

variable (prims : Primitives) (client : BitcoinClient) (tables : L1Tables)

/-- `check_p2tr_proof` against the script of the spent output. -/
def checkP2trProof (prevOutputScript : ScriptBuf) (proof : TaprootProof) : Bool :=
  prevOutputScript.isP2tr && (proof.toWitnessScript prims).toOption == some prevOutputScript

/-- A failed call to the Bitcoin node counts as an invalid proof. -/
def isP2trProofValid (proof : TaprootProof) (parent : OutPoint) : Bool :=
  match client.getRawTransaction parent.txid with
  | .error _ => false
  | .ok prevTx =>
    match prevTx.output[parent.vout]? with
    | none => false
    | some prevOutput => checkP2trProof prims prevOutput.scriptPubkey proof

def isOutputFrozen (outpoint : OutPoint) (proof : ReceiptProof) : Bool :=
  !forbidsFreezes tables proof.receipt.tokenPubkey && tables.isProofFrozen outpoint

def isSenderFrozen (proof : ReceiptProof) : Bool :=
  !forbidsFreezes tables proof.receipt.tokenPubkey &&
    proof.spenderKeys.any fun key => tables.isPubkeyFrozen key proof.receipt.tokenPubkey

/-- The verdict on one input proof. -/
def isInputAllowed (parent : OutPoint) (proof : ReceiptProof) : Bool :=
  !isOutputFrozen tables parent proof && !isSenderFrozen tables proof && match proof with
    | .p2tr proof => isP2trProofValid prims client proof parent
    | _ => true

/-- The loop of `check_transfer`. A parent that can not be read ends it. -/
def checkTransfer (tx : Lrc20Transaction) : List (Nat × ReceiptProof) → Except CheckFailure Bool
  | [] => .ok true
  | (index, proof) :: rest =>
    match tx.bitcoinTx.input[index]? with
    | none => .error .inputNotFound
    | some txin =>
      if ¬ isInputAllowed prims client tables txin.previousOutput proof then .ok false
      else match tables.getLrc20TransactionById prims txin.previousOutput.txid with
        | .error failure => .error (.db failure)
        | .ok _ => checkTransfer tx rest

end Transfers

/-! ### A batch -/

/-- What a stored transaction was checked against. -/
structure CheckRecord where
  tx : Lrc20Transaction
  client : BitcoinClient
  tables : L1Tables
  spark : SparkTables

/-- The storage, and a history of its rows that the source does not keep: the statements
about what is attached refer to it. -/
structure Ledger where
  tables : L1Tables
  /-- For each row not written since it passed its full check, the record of that check. -/
  records : AList fun _ : Txid => CheckRecord
  /-- The transactions whose rows were marked as attached, in order. -/
  attachments : List Lrc20Transaction

namespace Ledger

def empty : Ledger := ⟨L1Tables.empty, ∅, []⟩

def insert (now : Nat) (tx : Lrc20Transaction) (ledger : Ledger) : Except DbFailure Ledger :=
  (ledger.tables.insertLrc20Transaction now tx).map fun tables =>
    { ledger with tables, records := ledger.records.erase tx.txid }

def delete (ledger : Ledger) (txid : Txid) : Ledger :=
  { ledger with
    tables := ledger.tables.deleteLrc20Transaction txid
    records := ledger.records.erase txid }

/-- Sets the status of a row and drops its mempool entry. -/
def attach (ledger : Ledger) (txid : Txid) : Ledger :=
  { ledger with
    tables := (ledger.tables.setLrc20TxStatus txid .attached).deleteMempoolEntry txid
    attachments := ledger.attachments ++
      ((ledger.tables.l1Transactions.lookup txid).map L1Row.rawTx).toList }

end Ledger

/-- What `check_txs_full` has written and collected so far. -/
structure FullChecking where
  ledger : Ledger
  spark : SparkTables
  checkedTxs : AList fun _ : Txid => Lrc20Transaction
  invalidTxs : List Lrc20Transaction
  /-- The exits put into the queue of the children of Spark transactions. -/
  waitingExits : List Lrc20Transaction
  /-- A check ended without a verdict, and `?` has left the handler. -/
  failed : Bool

/-- `check_lrc20_transaction`: the tables it leaves behind and the verdict. -/
def checkLrc20Transaction (prims : Primitives) (client : BitcoinClient) (now : Nat)
    (tables : L1Tables) (spark : SparkTables) (tx : Lrc20Transaction) :
    Except CheckFailure (L1Tables × SparkTables × ExitVerdict) :=
  let verdict (valid : Bool) : ExitVerdict := if valid then .valid else .invalid
  match tx.txType with
  | .issue _ announcement =>
    (checkIssuance prims client tables now tx announcement).map fun (tables, valid) =>
      (tables, spark, verdict valid)
  | .announcement announcement =>
    (checkAnnouncements prims client tables tx announcement).map fun (tables, valid) =>
      (tables, spark, verdict valid)
  | .transfer inputProofs _ =>
    (checkTransfer prims client tables tx inputProofs.entries).map fun valid =>
      (tables, spark, verdict valid)
  | .sparkExit outputProofs =>
    ((checkSparkExit prims client spark ∅ tx outputProofs).mapError fun _ => .rpc).map
      fun (spark, _, exitVerdict) => (tables, spark, exitVerdict)

/-- Remembers a passed check, if the row holds the transaction that was checked. -/
def Ledger.note (ledger : Ledger) (record : CheckRecord) : Ledger :=
  if (ledger.tables.l1Transactions.lookup record.tx.txid).map L1Row.rawTx = some record.tx then
    { ledger with records := ledger.records.insert record.tx.txid record }
  else ledger

namespace FullChecking

/-- One turn of the loop of `check_txs_full`. -/
def checkNextTx (prims : Primitives) (client : BitcoinClient) (now : Nat) (state : FullChecking)
    (tx : Lrc20Transaction) : FullChecking :=
  if state.failed then state
  else match checkLrc20Transaction prims client now state.ledger.tables state.spark tx with
    | .error _ => { state with failed := true }
    | .ok (tables, spark, .waiting _) =>
      { state with
        ledger := { state.ledger with tables }
        spark
        waitingExits := state.waitingExits ++ [tx] }
    | .ok (tables, spark, .invalid) =>
      { state with
        ledger := { state.ledger with tables }
        spark
        invalidTxs := state.invalidTxs ++ [tx] }
    | .ok (tables, spark, .valid) =>
      { state with
        ledger := { state.ledger with tables }.note ⟨tx, client, state.ledger.tables, state.spark⟩
        spark
        checkedTxs := state.checkedTxs.insert tx.txid tx }

/-- The checked transactions as a `BTreeMap` lists them. -/
def checkedValues (state : FullChecking) : List Lrc20Transaction :=
  (state.checkedTxs.entries.map Sigma.snd).insertionSort fun a b => a.txid ≤ b.txid

end FullChecking

/-! ### What a check writes -/

section Writes

variable {prims : Primitives} {client : BitcoinClient} {now : Nat} {tables tables' : L1Tables}
  {tx : Lrc20Transaction} {spark spark' : SparkTables} {verdict : ExitVerdict} {valid : Bool}

/-- What a check leaves behind: the tables as they were, a proof frozen or freed, or an issue
stored once more. -/
inductive Left (prims : Primitives) (client : BitcoinClient) (now : Nat) (tables : L1Tables)
    (tx : Lrc20Transaction) : L1Tables → ExitVerdict → Prop
  | nothing (verdict : ExitVerdict)
      (noFreeze : verdict = .valid → ∀ freeze, tx.txType ≠ .announcement (.txFreeze freeze))
      (noIssue : verdict = .valid → tx.txType.isIssue = false) :
      Left prims client now tables tx tables verdict
  | freeze (freeze : TxFreezeAnnouncement) (kind : tx.txType = .announcement (.txFreeze freeze))
      (owned : hasOwnerInput prims client tables tx freeze.tokenPubkey = .ok true) :
      Left prims client now tables tx (tables.toggleProofFreeze freeze.outpoint) .valid
  | issue (tables' : L1Tables) (kind : tx.txType.isIssue)
      (inserted : tables.insertLrc20Transaction now tx = .ok tables') :
      Left prims client now tables tx tables' .valid

theorem checkTxFreezeAnnouncement_eq_ok {freeze : TxFreezeAnnouncement}
    (checked : checkTxFreezeAnnouncement prims client tables tx freeze = .ok (tables', valid)) :
    (tables' = tables ∧ valid = false) ∨
      (valid = true ∧ tables' = tables.toggleProofFreeze freeze.outpoint ∧
        hasOwnerInput prims client tables tx freeze.tokenPubkey = .ok true) := by
  simp only [checkTxFreezeAnnouncement, bind, Except.bind, pure, Except.pure] at checked
  split at checked
  · obtain ⟨rfl, rfl⟩ := Prod.mk.inj (Except.ok.inj checked)
    exact .inl ⟨rfl, rfl⟩
  · cases owner : hasOwnerInput prims client tables tx freeze.tokenPubkey with
    | error failure =>
      rw [owner] at checked
      cases checked
    | ok owned =>
      rw [owner] at checked
      cases owned with
      | false =>
        obtain ⟨rfl, rfl⟩ := Prod.mk.inj (Except.ok.inj checked)
        exact .inl ⟨rfl, rfl⟩
      | true =>
        obtain ⟨rfl, rfl⟩ := Prod.mk.inj (Except.ok.inj checked)
        exact .inr ⟨rfl, rfl, rfl⟩

theorem checkAnnouncements_eq_ok {announcement : Announcement}
    (checked : checkAnnouncements prims client tables tx announcement = .ok (tables', valid)) :
    (tables' = tables ∧ (valid = true → ∀ freeze, announcement ≠ .txFreeze freeze)) ∨
      ∃ freeze, announcement = .txFreeze freeze ∧ valid = true ∧
        tables' = tables.toggleProofFreeze freeze.outpoint ∧
        hasOwnerInput prims client tables tx freeze.tokenPubkey = .ok true := by
  have same : ∀ result : Except CheckFailure Bool,
      result.map (tables, ·) = .ok (tables', valid) → tables' = tables := by
    intro result ended
    obtain ⟨_, -, same⟩ := map_eq_ok.mp ended
    exact (Prod.mk.inj same).1.symm
  cases announcement with
  | txFreeze freeze =>
    rcases checkTxFreezeAnnouncement_eq_ok checked with ⟨rfl, rfl⟩ | ⟨rfl, toggled, owned⟩
    · exact .inl ⟨rfl, nofun⟩
    · exact .inr ⟨freeze, rfl, rfl, toggled, owned⟩
  | tokenPubkey | tokenLogo | pubkeyFreeze | issue | transferOwnership =>
    exact .inl ⟨same _ checked, nofun⟩

theorem checkIssuance_eq_ok {announcement : IssueAnnouncement}
    (checked : checkIssuance prims client tables now tx announcement = .ok (tables', valid)) :
    (tables' = tables ∧ valid = false) ∨
      (valid = true ∧ tables.insertLrc20Transaction now tx = .ok tables') := by
  simp only [checkIssuance, bind, Except.bind, pure, Except.pure] at checked
  split at checked
  · cases checked
  · split at checked
    · obtain ⟨rfl, rfl⟩ := Prod.mk.inj (Except.ok.inj checked)
      exact .inl ⟨rfl, rfl⟩
    · right
      cases inserted : tables.insertLrc20Transaction now tx with
      | error failure =>
        rw [inserted] at checked
        cases checked
      | ok written =>
        rw [inserted] at checked
        obtain ⟨rfl, rfl⟩ := Prod.mk.inj (Except.ok.inj checked)
        exact ⟨rfl, rfl⟩

section

variable (checked : checkLrc20Transaction prims client now tables spark tx =
  .ok (tables', spark', verdict))
include checked

theorem checkLrc20Transaction_eq_ok : Left prims client now tables tx tables' verdict := by
  unfold checkLrc20Transaction at checked
  cases kind : tx.txType with
  | issue outputProofs announcement =>
    have isIssue : tx.txType.isIssue := by rw [kind]; rfl
    simp only [kind] at checked
    obtain ⟨⟨written, valid⟩, result, ended⟩ := map_eq_ok.mp checked
    obtain ⟨rfl, rest⟩ := Prod.mk.inj ended
    obtain ⟨-, rfl⟩ := Prod.mk.inj rest
    rcases checkIssuance_eq_ok result with ⟨rfl, rfl⟩ | ⟨rfl, inserted⟩
    · exact .nothing _ nofun nofun
    · exact .issue _ isIssue inserted
  | announcement announcement =>
    have notIssue : tx.txType.isIssue = false := by rw [kind]; rfl
    simp only [kind] at checked
    obtain ⟨⟨written, valid⟩, result, ended⟩ := map_eq_ok.mp checked
    obtain ⟨rfl, rest⟩ := Prod.mk.inj ended
    obtain ⟨-, rfl⟩ := Prod.mk.inj rest
    rcases checkAnnouncements_eq_ok result with ⟨rfl, noFreeze⟩ | ⟨freeze, rfl, rfl, rfl, owned⟩
    · refine .nothing _ ?_ (fun _ => notIssue)
      intro isValid freeze same
      cases valid with
      | false => cases isValid
      | true => exact noFreeze rfl freeze (Lrc20TxType.announcement.inj (kind.symm.trans same))
    · exact .freeze freeze kind owned
  | transfer | sparkExit =>
    have notIssue : tx.txType.isIssue = false := by rw [kind]; rfl
    simp only [kind] at checked
    obtain ⟨_, -, ended⟩ := map_eq_ok.mp checked
    obtain ⟨rfl, -⟩ := Prod.mk.inj ended
    exact .nothing _ (fun _ freeze same => nomatch kind.symm.trans same) (fun _ => notIssue)

/-- A check writes no row but that of an issue, which it stores once more. -/
theorem checkLrc20Transaction_writes :
    tables.SameRows tables' ∨
      (tx.txType.isIssue ∧ verdict = .valid ∧
        tables.insertLrc20Transaction now tx = .ok tables') := by
  cases checkLrc20Transaction_eq_ok checked with
  | nothing => exact .inl (.refl _)
  | freeze freeze =>
    exact .inl (.of_onlyProofs (L1Tables.onlyProofs_toggleProofFreeze tables freeze.outpoint))
  | issue tables' kind inserted => exact .inr ⟨kind, rfl, inserted⟩

/-- A check leaves the Spark tables as they were, unless it is that of an exit. -/
theorem checkLrc20Transaction_spark :
    (spark' = spark ∧ (verdict = .valid → ∀ outputProofs, tx.txType ≠ .sparkExit outputProofs)) ∨
      ∃ outputProofs block, tx.txType = .sparkExit outputProofs ∧
        checkExitProofs prims tx.txid block outputProofs.entries spark = (spark', verdict) := by
  -- Whatever the check of another kind returns, it returns the Spark tables it was given.
  have same : ∀ {α : Type} (result : Except CheckFailure α)
      (rest : α → L1Tables × SparkTables × ExitVerdict), (∀ found, (rest found).2.1 = spark) →
      result.map rest = .ok (tables', spark', verdict) → spark' = spark := by
    intro α result rest given ended
    obtain ⟨found, -, returned⟩ := map_eq_ok.mp ended
    have same := given found
    rw [returned] at same
    exact same
  unfold checkLrc20Transaction at checked
  cases kind : tx.txType with
  | issue | announcement | transfer =>
    simp only [kind] at checked
    exact .inl ⟨same _ _ (fun _ => rfl) checked, nofun⟩
  | sparkExit outputProofs =>
    simp only [kind] at checked
    rcases checkSparkExit_cases prims client spark ∅ tx outputProofs with
      failed | ⟨queue, invalid⟩ | ⟨block, queue, ended⟩
    · rw [failed] at checked
      cases checked
    · rw [invalid] at checked
      obtain ⟨-, others⟩ := Prod.mk.inj (Except.ok.inj checked)
      obtain ⟨rfl, rfl⟩ := Prod.mk.inj others
      exact .inl ⟨rfl, nofun⟩
    · rw [ended] at checked
      obtain ⟨-, others⟩ := Prod.mk.inj (Except.ok.inj checked)
      exact .inr ⟨outputProofs, block, rfl, others⟩

end

end Writes

end Lrc20.TxCheck
