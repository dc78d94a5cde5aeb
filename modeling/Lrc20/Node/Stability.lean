import Lrc20.Node.Issuance
import Lrc20.TxAttach.Cleanup

/-! What is recorded about an attached transaction, and what may still change it. -/

open Lrc20.Storage Lrc20.TxAttach Lrc20.TxCheck Runs L1Tables

namespace Lrc20

variable {tx : Lrc20Transaction} {now : Nat} {client : BitcoinClient} {state : FullChecking}

namespace Storage.L1Tables

/-- What the announcement tables hold under a txid. -/
def announcementRows (tables : L1Tables) (txid : Txid) :
    Option AnnouncementRow × Option TokenPubkeyRow × Option OutPoint × Option PublicKey ×
      Option U128 × Option ScriptBuf :=
  (tables.announcements.lookup txid, tables.tokenPubkeys.lookup txid,
    tables.txFreezes.lookup txid, tables.pubkeyFreezes.lookup txid, tables.issues.lookup txid,
    tables.transferOwnerships.lookup txid)

/-- The same is recorded about a transaction: its row, which holds the receipts of its proofs, its
announcement rows, and which of its outputs have a proof. -/
structure SameRecord (txid : Txid) (tables tables' : L1Tables) : Prop where
  row : tables'.l1Transactions.lookup txid = tables.l1Transactions.lookup txid
  announcement : tables'.announcementRows txid = tables.announcementRows txid
  proofs : ∀ vout, (tables'.proofs.lookup ⟨txid, vout⟩).isSome =
    (tables.proofs.lookup ⟨txid, vout⟩).isSome

section SameRecord

variable {tables tables' : L1Tables} {txid : Txid} {other : Txid} {status : L1TxStatus}

theorem SameRecord.refl (txid : Txid) (tables : L1Tables) : SameRecord txid tables tables :=
  ⟨rfl, rfl, fun _ => rfl⟩

theorem SameRecord.trans {tables'' : L1Tables} (first : SameRecord txid tables tables')
    (second : SameRecord txid tables' tables'') : SameRecord txid tables tables'' where
  row := second.row.trans first.row
  announcement := second.announcement.trans first.announcement
  proofs vout := (second.proofs vout).trans (first.proofs vout)

theorem SameRecord.isAttached (same : SameRecord txid tables tables') :
    tables'.isAttached txid = tables.isAttached txid := by
  unfold L1Tables.isAttached
  rw [same.row]

theorem SameRecord.of_onlyMempool (only : OnlyMempool tables tables') :
    SameRecord txid tables tables' := by
  obtain ⟨⟨mempool, rfl⟩, -⟩ := only
  exact ⟨rfl, rfl, fun _ => rfl⟩

theorem SameRecord.toggleProofFreeze (tables : L1Tables) (outpoint : OutPoint) :
    SameRecord txid tables (tables.toggleProofFreeze outpoint) := by
  have proofs := proofs_toggleProofFreeze tables outpoint
  obtain ⟨_, only⟩ := onlyProofs_toggleProofFreeze tables outpoint
  refine ⟨by rw [only], by rw [only]; rfl, fun vout => ?_⟩
  rw [proofs]
  split
  · exact Option.isSome_map
  · rfl

theorem announcementRows_describe (different : txid ≠ other) (tables : L1Tables)
    (announcement : Announcement) :
    (tables.describe other announcement).announcementRows txid = tables.announcementRows txid := by
  cases announcement <;> simp [announcementRows, describe, AList.lookup_insert_ne different]

/-- An insertion changes the record of its own transaction only. -/
theorem SameRecord.insert (inserted : tables.insertLrc20Transaction now tx = .ok tables')
    (different : txid ≠ tx.txid) : SameRecord txid tables tables' where
  row := (inserted_of_insertLrc20Transaction inserted).lookup_ne different
  announcement := by
    obtain ⟨proofs, written⟩ := announced_of_insert inserted
    cases written with
    | nothing => rfl
    | announcement | issue =>
      rw [announcementRows_describe different]
      simp only [announcementRows, upsertAnnouncement, AList.lookup_insert_ne different]
      rfl
    | unproved outputProofs announcement kind outputs held =>
      rw [announcementRows_describe different]
      rfl
  proofs vout := by
    rw [proofs_of_insert inserted, if_neg fun own => different own.1]
    have frozen := congrArg Option.isSome (frozen_linkInputs (tables.upsertRow now tx) tx ⟨txid, vout⟩)
    rw [Option.isSome_map, Option.isSome_map] at frozen
    exact frozen

theorem SameRecord.delete (different : txid ≠ other) :
    SameRecord txid tables (tables.deleteLrc20Transaction other) where
  row := by rw [lookup_deleteLrc20Transaction, if_neg different]
  announcement := by
    simp [announcementRows, deleteLrc20Transaction, AList.lookup_erase_ne different]
  proofs vout := by rw [proofs_deleteLrc20Transaction, if_neg different]

theorem SameRecord.of_status
    (row : (tables.setLrc20TxStatus other status).l1Transactions.lookup txid =
      tables.l1Transactions.lookup txid) :
    SameRecord txid tables (tables.setLrc20TxStatus other status) := by
  refine ⟨row, ?_, fun vout => ?_⟩
  · unfold setLrc20TxStatus
    cases tables.l1Transactions.lookup other <;> rfl
  · unfold setLrc20TxStatus
    cases tables.l1Transactions.lookup other <;> rfl

theorem SameRecord.status_ne (different : txid ≠ other) :
    SameRecord txid tables (tables.setLrc20TxStatus other status) :=
  .of_status (by rw [lookup_setLrc20TxStatus, if_neg different])

theorem SameRecord.status_attached (attached : tables.isAttached txid = true) (other : Txid) :
    SameRecord txid tables (tables.setLrc20TxStatus other .attached) := by
  apply SameRecord.of_status
  rw [lookup_setLrc20TxStatus]
  split
  · obtain ⟨row, found, status⟩ := isAttached_iff.mp attached
    rw [found, Option.map_some, ← status]
  · rfl

end SameRecord

end Storage.L1Tables

namespace Node.L1Node

/-- What is recorded about the attached transactions stays. -/
def Steady (tables tables' : L1Tables) : Prop :=
  ∀ txid, tables.isAttached txid = true → L1Tables.SameRecord txid tables tables'

variable {tables tables' tables'' : L1Tables} {node : L1Node}

theorem Steady.trans (first : Steady tables tables') (second : Steady tables' tables'') :
    Steady tables tables'' := by
  intro txid attached
  have same := first txid attached
  exact same.trans (second txid (same.isAttached.trans attached))

/-- A write that leaves the record of each attached transaction. -/
theorem Steady.step (first : Steady tables tables')
    (second : ∀ txid, tables.isAttached txid = true → tables'.isAttached txid = true →
      L1Tables.SameRecord txid tables' tables'') : Steady tables tables'' := by
  intro txid attached
  have same := first txid attached
  exact same.trans (second txid attached (same.isAttached.trans attached))

/-! ### Attached transactions have left the mempool -/

/-- Every row is filed under its own txid, and no attached transaction is in the mempool. -/
structure Filed (tables : L1Tables) : Prop where
  own : ∀ txid row, tables.l1Transactions.lookup txid = some row → row.rawTx.txid = txid
  settled : ∀ txid, tables.isAttached txid = true → tables.mempool.lookup txid = none

section Filed

variable {prims : Primitives} {tables tables' : L1Tables}

theorem Filed.insert (filed : Filed tables)
    (inserted : tables.insertLrc20Transaction now tx = .ok tables') : Filed tables' := by
  have after := inserted_of_insertLrc20Transaction inserted
  have mempool : tables'.mempool = tables.mempool := by
    obtain ⟨proofs, written⟩ := announced_of_insert inserted
    cases written with
    | nothing | issue | unproved => rfl
    | announcement announcement => cases announcement <;> rfl
  constructor
  · intro txid row found
    by_cases same : txid = tx.txid
    · obtain ⟨timestamp, self⟩ := after.lookup_self
      rw [same, self] at found
      obtain rfl := Option.some.inj found
      exact same.symm
    · exact filed.own txid row ((after.lookup_ne same).symm.trans found)
  · intro txid attached
    rw [mempool]
    exact filed.settled txid (after.isAttached attached).2

theorem Filed.calmer (filed : Filed tables) (calmer : Calmer tables tables')
    (mempool : ∀ txid, tables.mempool.lookup txid = none → tables'.mempool.lookup txid = none) :
    Filed tables' := by
  constructor
  · intro txid row found
    obtain ⟨before, held, raw⟩ := calmer.rows txid row found
    rw [raw]
    exact filed.own txid before held
  · intro txid attached
    exact mempool txid (filed.settled txid (calmer.attached txid attached))

theorem mempool_setLrc20TxStatus (tables : L1Tables) (txid : Txid) (status : L1TxStatus) :
    (tables.setLrc20TxStatus txid status).mempool = tables.mempool := by
  unfold setLrc20TxStatus
  cases tables.l1Transactions.lookup txid <;> rfl

theorem Filed.delete (filed : Filed tables) (txid : Txid) :
    Filed (tables.deleteLrc20Transaction txid) := by
  refine filed.calmer calmer_delete fun other missing => ?_
  show (tables.mempool.erase txid).lookup other = none
  rw [lookup_erase_ite, missing, ite_self]

theorem Filed.attach {ledger : Ledger} (filed : Filed ledger.tables) (txid : Txid) :
    Filed (ledger.attach txid).tables := by
  constructor
  · intro other row found
    obtain ⟨before, held, raw⟩ := (fewer_attach ledger txid).rows other row found
    rw [raw]
    exact filed.own other before held
  · intro other attached
    show ((ledger.tables.setLrc20TxStatus txid .attached).mempool.erase txid).lookup other = none
    by_cases same : other = txid
    · rw [same, AList.lookup_erase]
    · rw [AList.lookup_erase_ne same, mempool_setLrc20TxStatus]
      exact filed.settled other ((isAttached_attach attached).resolve_left same)

theorem checkNextTx_filed (filed : Filed state.ledger.tables) :
    Filed (FullChecking.checkNextTx prims client now state tx).ledger.tables := by
  refine checkNextTx_keeps_tables ?_ ?_
  · exact fun _ => ⟨filed.own, filed.settled⟩
  · exact fun tables _ inserted => filed.insert inserted

theorem step_filed (input : Input) (filed : Filed node.ledger.tables) :
    Filed (step prims node input).ledger.tables := by
  refine @step_keeps_of_writes prims (fun ledger => Filed ledger.tables) node input
    ?mempool ?insert ?rejecting ?attach ?cleanup ?check filed
  case mempool =>
    rintro ledger _ inv ⟨⟨mempool, rfl⟩, entries⟩
    exact ⟨inv.own, fun txid attached => entries txid attached (inv.settled txid attached)⟩
  case insert =>
    intro _ _ now _ tx _ ledger ledger' _ inv _ _ inserted
    obtain ⟨tables, written, rfl⟩ := insert_eq_ok inserted
    exact inv.insert written
  case rejecting =>
    intro _ _ _ _ _ entry _
    refine ⟨fun _ ledger inv => ?_, fun ledger inv => inv.delete entry.1.txid⟩
    refine inv.calmer calmer_reject fun txid missing => ?_
    rw [mempool_setLrc20TxStatus]
    exact missing
  case attach => exact fun txid _ ledger inv => inv.attach txid
  case cleanup => exact fun _ _ _ txid _ ledger inv => inv.delete txid
  case check => exact afterCheck_of_turns filed fun _ _ _ _ inv => checkNextTx_filed inv

/-- What is rejected is in the mempool, so it is not attached. -/
theorem Filed.unattached_of_mempool (filed : Filed tables) {txids : List Txid}
    {entry : Lrc20Transaction × Option SocketAddr}
    (mem : entry ∈ tables.getMempoolByTxids prims txids) :
    tables.isAttached entry.1.txid = false := by
  obtain ⟨⟨txid, waiting⟩, listed, selected⟩ := List.mem_filterMap.mp mem
  dsimp only at selected
  split at selected
  case isFalse => cases selected
  case isTrue =>
    obtain ⟨tx, read, rfl⟩ := Option.map_eq_some_iff.mp selected
    obtain ⟨row, found, readRow⟩ := Option.bind_eq_some_iff.mp read
    have same : tx.txid = txid := by
      rw [← filed.own txid row found]
      unfold L1Row.read at readRow
      split at readRow
      · obtain ⟨_, -, rfl⟩ := Option.map_eq_some_iff.mp readRow
        rfl
      · rw [← Option.some.inj readRow]
    rw [Bool.eq_false_iff]
    intro attached
    have missing := filed.settled txid (same ▸ attached)
    cases missing.symm.trans (AList.mem_lookup_iff.mpr listed)

end Filed

/-! ### Steps that leave attached transactions alone -/

/-- An issue is not checked while its row is attached. -/
def NotAttachedYet (_ : BitcoinClient) (state : FullChecking) (tx : Lrc20Transaction) : Prop :=
  tx.txType.isIssue → state.ledger.tables.isAttached tx.txid = false

instance (client : BitcoinClient) (state : FullChecking) (tx : Lrc20Transaction) :
    Decidable (NotAttachedYet client state tx) :=
  inferInstanceAs (Decidable (_ → _))

/-- No issue is delivered while its announcement is attached, none is checked in full while it is
attached itself, and when the graph builder cleans up, it holds no attached transaction. -/
def LeavesAttached (prims : Primitives) (node : L1Node) (input : Input) : Prop :=
  node.ChecksOnly prims NotAttachedYet input ∧ match input with
    | .newLrc20Txs txs _ _ => ∀ tx ∈ txs, tx.txType.isIssue →
        ∀ row ∈ node.ledger.tables.l1Transactions.lookup tx.txid,
          row.rawTx.txType.isAnnouncement → row.status ≠ .attached
    | .cleanup _ _ => ∀ txid ∈ node.graph.heldTxs, node.ledger.tables.isAttached txid = false
    | _ => True

instance (prims : Primitives) (node : L1Node) (input : Input) :
    Decidable (LeavesAttached prims node input) :=
  match input with
  | .newLrc20Txs txs _ _ => inferInstanceAs (Decidable (_ ∧ ∀ tx ∈ txs, tx.txType.isIssue →
      ∀ row ∈ node.ledger.tables.l1Transactions.lookup tx.txid, _))
  | .cleanup _ _ => inferInstanceAs (Decidable (_ ∧ ∀ txid ∈ node.graph.heldTxs, _))
  | .controller _ | .checker .. | .graph _ | .confirmator | .mined _ | .confirmed _
  | .reorganized _ | .unconfirmed _ | .spark _ | .exitsReady _ | .exitsOutdated _
  | .restart => inferInstanceAs (Decidable (_ ∧ True))

section Steps

variable {prims : Primitives} {tx : Lrc20Transaction}

/-- A news over an attached row is an issue over its announcement. -/
theorem announcement_of_news {tables : L1Tables} {existing : Option Lrc20Transaction} {row : L1Row}
    (found : tables.getLrc20TransactionById prims tx.txid = .ok existing)
    (news : isNews existing tx = true) (held : tables.l1Transactions.lookup tx.txid = some row)
    (attached : row.status = .attached) :
    tx.txType.isIssue = true ∧ row.rawTx.txType.isAnnouncement = true := by
  rcases row_of_isNews found news with unknown | ⟨row', held', isIssue, kinds⟩
  · cases unknown.symm.trans held
  · obtain rfl := Option.some.inj (held'.symm.trans held)
    rcases kinds with ⟨-, invalid⟩ | ⟨issue, kind⟩
    · cases invalid.symm.trans attached
    · exact ⟨isIssue, by rw [kind]; rfl⟩

theorem checkNextTx_steady (apart : NotAttachedYet client state tx) :
    Steady state.ledger.tables
      (FullChecking.checkNextTx prims client now state tx).ledger.tables := by
  refine checkNextTx_keeps (I := fun ledger => Steady _ ledger.tables) (fun txid _ => .refl txid _) ?_
  intro tables spark checked txid attached
  rw [passed_tables]
  cases checkLrc20Transaction_eq_ok checked with
  | nothing => exact .refl txid _
  | freeze freeze => exact .toggleProofFreeze _ freeze.outpoint
  | issue tables kind inserted =>
    apply L1Tables.SameRecord.insert inserted
    rintro rfl
    cases (apart kind).symm.trans attached

theorem step_steady {input : Input} (filed : Filed node.ledger.tables)
    (leaves : LeavesAttached prims node input) :
    Steady node.ledger.tables (step prims node input).ledger.tables := by
  refine @step_keeps_of_writes prims (fun ledger => Steady node.ledger.tables ledger.tables) node
    input ?mempool ?insert ?rejecting ?attach ?cleanup ?check fun txid _ => .refl txid _
  case mempool =>
    intro ledger tables steady only
    exact steady.step fun txid _ _ => .of_onlyMempool only
  case insert =>
    intro txs sender now same tx mem ledger ledger' existing steady found news inserted
    obtain ⟨tables, written, rfl⟩ := insert_eq_ok inserted
    subst same
    refine steady.step fun txid before now => L1Tables.SameRecord.insert written ?_
    rintro rfl
    -- The row is still the one the step began with, so it is not an announcement.
    obtain ⟨row, held, attached⟩ := isAttached_iff.mp now
    obtain ⟨isIssue, announcement⟩ := announcement_of_news found news held attached
    rw [(steady _ before).row] at held
    exact leaves.2 tx mem isIssue row held announcement attached
  case rejecting =>
    intro bans txids rest _ inbox entry mem
    have unattached := filed.unattached_of_mempool mem
    have apart : ∀ txid, node.ledger.tables.isAttached txid = true → txid ≠ entry.1.txid := by
      rintro txid attached rfl
      cases unattached.symm.trans attached
    constructor
    · intro _ ledger steady
      exact steady.step fun txid before _ => .status_ne (apart txid before)
    · intro ledger steady
      exact steady.step fun txid before _ => .delete (apart txid before)
  case attach =>
    intro other _ ledger steady
    refine steady.step fun txid _ attached => ?_
    exact (L1Tables.SameRecord.status_attached attached other).trans
      (.of_onlyMempool (onlyMempool_deleteMempoolEntry _ other))
  case cleanup =>
    intro env outdatedDuration same txid mem ledger steady
    subst same
    have unattached := leaves.2 txid (GraphBuilder.heldTxs_of_handleCleanup txid mem)
    refine steady.step fun other before _ => .delete ?_
    rintro rfl
    cases unattached.symm.trans before
  case check =>
    intro client now txs rest same inbox
    exact AllSteps.related (I := fun _ : FullChecking => True)
      (R := fun state state' => Steady state.ledger.tables state'.ledger.tables)
      (fun state txid _ => .refl txid _) (fun _ _ _ first second => first.trans second)
      (fun state tx _ apart => ⟨trivial, checkNextTx_steady apart⟩) trivial
      (leaves.1.allSteps same inbox)

end Steps

section Reported

variable {txid : Txid} {ledger : Ledger} {txs : List Lrc20Transaction}

theorem isAttached_attach_self (stored : ledger.tables.l1Transactions.lookup txid ≠ none) :
    (ledger.attach txid).tables.isAttached txid = true := by
  obtain ⟨row, found⟩ := Option.ne_none_iff_exists'.mp stored
  apply isAttached_iff.mpr
  refine ⟨{ row with status := .attached }, ?_, rfl⟩
  show (ledger.tables.setLrc20TxStatus txid .attached).l1Transactions.lookup txid = _
  rw [lookup_setLrc20TxStatus, if_pos rfl, found]
  rfl

theorem isAttached_attach_of (attached : ledger.tables.isAttached txid = true) (other : Txid) :
    (ledger.attach other).tables.isAttached txid = true :=
  (L1Tables.SameRecord.status_attached attached other).isAttached.trans attached

theorem stored_attach (stored : ledger.tables.l1Transactions.lookup txid ≠ none) (other : Txid) :
    (ledger.attach other).tables.l1Transactions.lookup txid ≠ none := by
  show (ledger.tables.setLrc20TxStatus other .attached).l1Transactions.lookup txid ≠ none
  rw [lookup_setLrc20TxStatus]
  split
  · exact fun missing => stored (Option.map_eq_none_iff.mp missing)
  · exact stored

theorem isAttached_attachAll (mem : tx ∈ txs)
    (stored : ledger.tables.l1Transactions.lookup tx.txid ≠ none) :
    (attachAll txs ledger).tables.isAttached tx.txid = true := by
  have later : ∀ (rest : List Lrc20Transaction) {ledger : Ledger},
      ledger.tables.isAttached tx.txid = true →
      (attachAll rest ledger).tables.isAttached tx.txid = true := by
    intro rest
    induction rest with
    | nil => exact fun attached => attached
    | cons other rest ih => exact fun attached => ih (isAttached_attach_of attached other.txid)
  induction txs generalizing ledger with
  | nil => cases mem
  | cons first rest ih =>
    rcases List.mem_cons.mp mem with rfl | mem
    · exact later rest (isAttached_attach_self stored)
    · exact ih mem (stored_attach stored first.txid)

theorem step_attachedTxs {prims : Primitives} {bans : SocketAddr → Bool}
    {inbox : List ControllerMessage} (head : node.toController = .attachedTxs txs :: inbox) :
    (step prims node (.controller bans)).ledger = attachAll txs node.ledger := by
  unfold step
  rw [head]
  rfl

end Reported

/-- In every run whose steps leave attached transactions alone, what is recorded about a
transaction stays from the moment it is attached: its row with its status, its announcement rows
and its proofs. So does a stored transaction that is reported as attached. -/
theorem attached_stays (prims : Primitives) (before after : List Input)
    (run : AllSteps (step prims) (LeavesAttached prims) new (before ++ after)) :
    Steady (runFrom (step prims) new before).ledger.tables
        (runFrom (step prims) new (before ++ after)).ledger.tables ∧
      ∀ bans rest txs inbox tx, after = .controller bans :: rest →
        (runFrom (step prims) new before).toController = .attachedTxs txs :: inbox → tx ∈ txs →
        (runFrom (step prims) new before).ledger.tables.l1Transactions.lookup tx.txid ≠ none →
        (runFrom (step prims) new (before ++ after)).ledger.tables.isAttached tx.txid = true := by
  have start : Filed new.ledger.tables := by
    constructor
    · exact nofun
    · exact nofun
  have reached : Filed (runFrom (step prims) new before).ledger.tables :=
    runFrom_invariant (I := fun node : L1Node => Filed node.ledger.tables)
      (fun _ input inv => step_filed input inv) start before
  have steady : ∀ {node : L1Node} {inputs : List Input}, Filed node.ledger.tables →
      AllSteps (step prims) (LeavesAttached prims) node inputs →
      Steady node.ledger.tables (runFrom (step prims) node inputs).ledger.tables := by
    intro node inputs filed run
    exact AllSteps.related (I := fun node : L1Node => Filed node.ledger.tables)
      (R := fun node node' => Steady node.ledger.tables node'.ledger.tables)
      (fun node txid _ => .refl txid _) (fun _ _ _ first second => first.trans second)
      (fun node input filed leaves => ⟨step_filed input filed, step_steady filed leaves⟩) filed run
  have rest := ((allSteps_append new before after).mp run).2
  rw [runFrom_append]
  refine ⟨steady reached rest, ?_⟩
  rintro bans later txs inbox tx rfl head mem stored
  have marked : (step prims (runFrom (step prims) new before)
      (.controller bans)).ledger.tables.isAttached tx.txid = true := by
    rw [step_attachedTxs head]
    exact isAttached_attachAll mem stored
  exact (steady (step_filed _ reached) rest.2 tx.txid marked).isAttached.trans marked

/-- An announcement stays attached while an issue goes through and the builder cleans up. -/
theorem attached_stays_announcement :
    (runFrom (step .plain) new (throughNode capAnnouncement ++
      (throughNode (issueOf 20 ownerInput 5) ++
        [.cleanup (World.surroundingsAt 10 []) 5]))).ledger.tables.isAttached 10 = true := by
  have attached : (runFrom (step .plain) new
      (throughNode capAnnouncement)).ledger.tables.isAttached 10 = true := by
    decide +kernel
  have steady := (attached_stays .plain (throughNode capAnnouncement)
    (throughNode (issueOf 20 ownerInput 5) ++ [.cleanup (World.surroundingsAt 10 []) 5])
    (by decide +kernel)).1
  exact (steady 10 attached).isAttached.trans attached

/-- An issue without proofs, of which the announcement is attached. -/
def unprovedIssue : Lrc20Transaction := ⟨⟨20, [ownerInput], []⟩, .issue none ⟨cappedToken, 5⟩⟩

/-- Delivered after its announcement was attached, the issue takes the row over, and when its
isolated check fails the row ends as an invalid issue. -/
theorem issue_detaches_announcement :
    (runFrom (step .plain) new
        (throughNode (issueOf 20 ownerInput 5))).ledger.tables.isAttached 20 = true ∧
      (runFrom (step .plain) new (throughNode (issueOf 20 ownerInput 5) ++
        [.newLrc20Txs [unprovedIssue] none 0])).ledger.tables.isAttached 20 = false ∧
      ((runFrom (step .plain) new (throughNode (issueOf 20 ownerInput 5) ++
        [.newLrc20Txs [unprovedIssue] none 0, .checker unspentClient 0,
          .controller fun _ => true])).ledger.tables.l1Transactions.lookup 20).map L1Row.status =
        some .invalidIssue := by
  decide +kernel

end Node.L1Node

end Lrc20
