import Lrc20.Lib.Totals
import Lrc20.Node.Ledger

/-! Frozen keys: what `is_pubkey_frozen` counts, against the attached announcements. -/

open Lrc20.Storage Lrc20.TxAttach Lrc20.TxCheck Runs L1Tables

namespace Lrc20

open Lrc20Transaction

variable {freeze : PubkeyFreezeAnnouncement} {tx : Lrc20Transaction}

def Lrc20Transaction.keyFreeze (tx : Lrc20Transaction) : Option PubkeyFreezeAnnouncement :=
  match tx.txType with
  | .announcement (.pubkeyFreeze freeze) => some freeze
  | _ => none

theorem Lrc20Transaction.keyFreeze_eq_some :
    tx.keyFreeze = some freeze ↔ tx.txType = .announcement (.pubkeyFreeze freeze) := by
  unfold keyFreeze
  split
  case h_1 found kind => rw [kind]; simp
  case h_2 other => exact iff_of_false nofun (other freeze)

theorem Lrc20Transaction.keyFreeze_of_isIssue
    (issue : tx.txType.isIssue = true) : tx.keyFreeze = none := by
  unfold keyFreeze
  split
  case h_1 kind => rw [kind] at issue; cases issue
  case h_2 => rfl

namespace Node

/-- How many announcements that freeze or free the key for the token are attached. -/
def attachedKeyFreezes (tables : L1Tables) (pubkey : PublicKey) (token : TokenPubkey) : Nat :=
  (tables.l1Transactions.entries.filter fun entry =>
    entry.2.status = .attached ∧ entry.2.rawTx.keyFreeze = some ⟨token, pubkey⟩).length

/-- Every stored announcement that freezes or frees the key for the token is attached. -/
def NonePending (tables : L1Tables) (pubkey : PublicKey) (token : TokenPubkey) : Prop :=
  ∀ entry ∈ tables.l1Transactions.entries,
    entry.2.rawTx.keyFreeze = some ⟨token, pubkey⟩ → entry.2.status = .attached

instance (tables : L1Tables) (pubkey : PublicKey) (token : TokenPubkey) :
    Decidable (NonePending tables pubkey token) :=
  inferInstanceAs (Decidable (∀ entry ∈ tables.l1Transactions.entries, _ → _))

/-- The rows of `pubkey_freeze_announcement` are those of the stored announcements. -/
structure FreezesListed (tables : L1Tables) : Prop where
  stored : ∀ txid key, tables.pubkeyFreezes.lookup txid = some key →
    ∃ row freeze, tables.l1Transactions.lookup txid = some row ∧ row.rawTx.keyFreeze = some freeze
  listed : ∀ txid row freeze, tables.l1Transactions.lookup txid = some row →
    row.rawTx.keyFreeze = some freeze →
    tables.pubkeyFreezes.lookup txid = some freeze.pubkey ∧
      tables.announcements.lookup txid = some ⟨freeze.tokenPubkey, .pubkeyFreeze⟩

/-! ### What an insertion lists -/

section Insertion

variable {tables tables' : L1Tables} {now : Nat} {tx : Lrc20Transaction}

/-- The table is written by the announcement of a freeze only. -/
theorem pubkeyFreezes_of_insert (inserted : tables.insertLrc20Transaction now tx = .ok tables') :
    (∃ freeze, tx.keyFreeze = some freeze ∧
      tables'.pubkeyFreezes = tables.pubkeyFreezes.insert tx.txid freeze.pubkey ∧
      tables'.announcements.lookup tx.txid = some ⟨freeze.tokenPubkey, .pubkeyFreeze⟩) ∨
    (tx.keyFreeze = none ∧ tables'.pubkeyFreezes = tables.pubkeyFreezes) := by
  obtain ⟨proofs, written⟩ := announced_of_insert inserted
  cases written with
  | nothing issue announcement =>
    refine .inr ⟨?_, rfl⟩
    cases frozen : tx.keyFreeze with
    | none => rfl
    | some freeze =>
      rw [keyFreeze_eq_some.mp frozen] at announcement
      cases announcement
  | announcement announcement kind =>
    cases announcement with
    | pubkeyFreeze freeze =>
      refine .inl ⟨freeze, keyFreeze_eq_some.mpr kind, rfl, ?_⟩
      rw [describe_announcements, lookup_upsertAnnouncement_self]
      rfl
    | _ => exact .inr ⟨by simp [keyFreeze, kind], rfl⟩
  | issue outputProofs announcement first rest kind outputs
  | unproved outputProofs announcement kind outputs held =>
    exact .inr ⟨by simp [keyFreeze, kind], rfl⟩

theorem FreezesListed.insert (lists : FreezesListed tables)
    (inserted : tables.insertLrc20Transaction now tx = .ok tables')
    (replaced : tx.keyFreeze = none → ∀ row ∈ tables.l1Transactions.lookup tx.txid,
      row.rawTx.keyFreeze = none) : FreezesListed tables' := by
  have after := inserted_of_insertLrc20Transaction inserted
  obtain ⟨timestamp, self⟩ := after.lookup_self
  have writes := pubkeyFreezes_of_insert inserted
  have others : ∀ txid, txid ≠ tx.txid →
      tables'.pubkeyFreezes.lookup txid = tables.pubkeyFreezes.lookup txid := by
    intro txid different
    rcases writes with ⟨freeze, -, frozen, -⟩ | ⟨-, frozen⟩
    · rw [frozen, AList.lookup_insert_ne different]
    · rw [frozen]
  constructor
  case stored =>
    intro txid key found
    by_cases same : txid = tx.txid
    · subst same
      rcases writes with ⟨freeze, announced, -, -⟩ | ⟨unannounced, frozen⟩
      · exact ⟨_, freeze, self, announced⟩
      · rw [frozen] at found
        obtain ⟨row, freeze, held, announced⟩ := lists.stored tx.txid key found
        rw [replaced unannounced row held] at announced
        cases announced
    · rw [others txid same] at found
      rw [after.lookup_ne same]
      exact lists.stored txid key found
  case listed =>
    intro txid row freeze found announced
    by_cases same : txid = tx.txid
    · subst same
      obtain rfl := Option.some.inj (self.symm.trans found)
      rcases writes with ⟨freeze', announced', frozen, entry⟩ | ⟨unannounced, -⟩
      · obtain rfl := Option.some.inj (announced.symm.trans announced')
        refine ⟨?_, entry⟩
        rw [frozen, AList.lookup_insert]
      · cases announced.symm.trans unannounced
    · rw [after.lookup_ne same] at found
      rw [others txid same, after.others txid same]
      exact lists.listed txid row freeze found announced

theorem FreezesListed.of_same (lists : FreezesListed tables)
    (rows : ∀ txid, (tables'.l1Transactions.lookup txid).map L1Row.rawTx =
      (tables.l1Transactions.lookup txid).map L1Row.rawTx)
    (frozen : tables'.pubkeyFreezes = tables.pubkeyFreezes)
    (announcements : tables'.announcements = tables.announcements) : FreezesListed tables' := by
  have rawTx : ∀ txid row', tables'.l1Transactions.lookup txid = some row' →
      ∃ row, tables.l1Transactions.lookup txid = some row ∧ row.rawTx = row'.rawTx := by
    intro txid row' found
    have same := rows txid
    rw [found, Option.map_some] at same
    exact Option.map_eq_some_iff.mp same.symm
  constructor
  case stored =>
    intro txid key found
    rw [frozen] at found
    obtain ⟨row, freeze, held, announced⟩ := lists.stored txid key found
    have same := rows txid
    rw [held, Option.map_some] at same
    obtain ⟨row', held', raw⟩ := Option.map_eq_some_iff.mp same
    exact ⟨row', freeze, held', raw ▸ announced⟩
  case listed =>
    intro txid row' freeze found announced
    obtain ⟨row, held, raw⟩ := rawTx txid row' found
    rw [frozen, announcements]
    exact lists.listed txid row freeze held (raw ▸ announced)

theorem FreezesListed.delete (lists : FreezesListed tables) (txid : Txid) :
    FreezesListed (tables.deleteLrc20Transaction txid) := by
  have frozen : ∀ other, (tables.deleteLrc20Transaction txid).pubkeyFreezes.lookup other =
      if other = txid then none else tables.pubkeyFreezes.lookup other :=
    fun _ => lookup_erase_ite _ _ _
  constructor
  case stored =>
    intro other key found
    rw [frozen] at found
    rw [lookup_deleteLrc20Transaction]
    split at found
    · cases found
    · rw [if_neg ‹_›]
      exact lists.stored other key found
  case listed =>
    intro other row freeze found announced
    rw [lookup_deleteLrc20Transaction] at found
    rw [frozen, announcement_deleteLrc20Transaction]
    split at found
    · cases found
    · rw [if_neg ‹_›, if_neg ‹_›]
      exact lists.listed other row freeze found announced

end Insertion

/-! ### Counting -/

section Counting

variable {tables : L1Tables} {pubkey : PublicKey} {token : TokenPubkey}

theorem FreezesListed.counted_iff (lists : FreezesListed tables) (txid : Txid) :
    (∃ key, tables.pubkeyFreezes.lookup txid = some key ∧ key = pubkey ∧
        (tables.announcements.lookup txid).map AnnouncementRow.tokenPubkey = some token) ↔
      ∃ row, tables.l1Transactions.lookup txid = some row ∧
        row.rawTx.keyFreeze = some ⟨token, pubkey⟩ := by
  constructor
  · rintro ⟨key, found, rfl, announced⟩
    obtain ⟨row, freeze, held, kind⟩ := lists.stored txid key found
    obtain ⟨own, entry⟩ := lists.listed txid row freeze held kind
    refine ⟨row, held, ?_⟩
    rw [entry] at announced
    rw [kind, ← Option.some.inj announced, Option.some.inj (found.symm.trans own)]
  · rintro ⟨row, held, kind⟩
    obtain ⟨own, entry⟩ := lists.listed txid row _ held kind
    exact ⟨pubkey, own, rfl, by rw [entry]; rfl⟩

theorem isPubkeyFrozen_iff_odd (lists : FreezesListed tables)
    (settled : NonePending tables pubkey token) :
    tables.isPubkeyFrozen pubkey token = true ↔ Odd (attachedKeyFreezes tables pubkey token) := by
  have counts : (tables.pubkeyFreezes.entries.filter fun entry => entry.2 = pubkey ∧
      ((tables.announcements.lookup entry.1).map AnnouncementRow.tokenPubkey) = some token).length =
      attachedKeyFreezes tables pubkey token := by
    unfold attachedKeyFreezes
    apply Totals.length_selected_eq
    intro txid
    simp only [decide_eq_true_eq]
    rw [lists.counted_iff]
    constructor
    · rintro ⟨row, held, kind⟩
      exact ⟨row, held, settled ⟨txid, row⟩ (AList.mem_lookup_iff.mp held) kind, kind⟩
    · rintro ⟨row, held, -, kind⟩
      exact ⟨row, held, kind⟩
  unfold isPubkeyFrozen
  rw [counts, Nat.odd_iff, beq_iff_eq]

end Counting

namespace L1Node

/-! ### Runs -/

/-- An issue is not checked while its row is the announcement of a freeze. -/
def NotOverFreeze (_ : BitcoinClient) (state : FullChecking) (tx : Lrc20Transaction) : Prop :=
  tx.txType.isIssue → ∀ row ∈ state.ledger.tables.l1Transactions.lookup tx.txid,
    row.rawTx.keyFreeze = none

instance (client : BitcoinClient) (state : FullChecking) (tx : Lrc20Transaction) :
    Decidable (NotOverFreeze client state tx) :=
  inferInstanceAs (Decidable (_ → ∀ row ∈ state.ledger.tables.l1Transactions.lookup tx.txid, _))

/-- The announcement of a freeze is marked only if its row was not written since its check, and no
issue comes to a full check while its row is such an announcement. -/
def FreezesAsChecked (prims : Primitives) (node : L1Node) (input : Input) : Prop :=
  node.MarksChecked (·.keyFreeze.isSome) input ∧ node.ChecksOnly prims NotOverFreeze input

instance (prims : Primitives) (node : L1Node) (input : Input) :
    Decidable (FreezesAsChecked prims node input) :=
  inferInstanceAs (Decidable (_ ∧ _))

section Steps

variable {prims : Primitives} {client : BitcoinClient} {now : Nat} {state : FullChecking}
  {tx : Lrc20Transaction}

theorem step_freezesListed {node : L1Node} {input : Input}
    (lists : FreezesListed node.ledger.tables) (only : node.ChecksOnly prims NotOverFreeze input) :
    FreezesListed (step prims node input).ledger.tables := by
  refine step_keeps_tables ?mempool ?status (fun txid inv => inv.delete txid) ?insert
    (only.afterCheck lists fun _ _ _ _ inv apart => checkNextTx_keeps_tables
      (fun _ => inv.of_same (fun _ => rfl) rfl rfl)
      fun tables kind inserted => inv.insert inserted fun _ => apart kind) lists
  case mempool =>
    rintro tables _ inv ⟨⟨mempool, rfl⟩, -⟩
    exact inv.of_same (fun _ => rfl) rfl rfl
  case status =>
    intro tables txid status inv
    exact inv.of_same (fun _ => rawTx_setLrc20TxStatus _ _ _ _) (by simp) (by simp)
  case insert =>
    intro _ _ now _ tx _ ledger ledger' existing inv found news inserted
    obtain ⟨tables, written, rfl⟩ := insert_eq_ok inserted
    refine inv.insert written fun _ row held => ?_
    rcases row_of_isNews found news with unknown | ⟨row', held', -, kinds⟩
    · cases unknown.symm.trans held
    · obtain rfl := Option.some.inj (held'.symm.trans held)
      rcases kinds with ⟨issue, -⟩ | ⟨announcement, kind⟩
      · exact keyFreeze_of_isIssue issue
      · simp [keyFreeze, kind]

/-- A freeze that passed its check was allowed for its token and signed by the owner. -/
theorem owned_of_passed {record : CheckRecord} (passed : Passed prims record)
    (kind : record.tx.keyFreeze = some freeze) :
    checkPubkeyFreezeAnnouncement prims record.client record.tables record.tx freeze = .ok true ∧
      hasOwnerInput prims record.client record.tables record.tx freeze.tokenPubkey = .ok true := by
  obtain ⟨now, tables, spark, checked⟩ := passed
  have accepted : checkPubkeyFreezeAnnouncement prims record.client record.tables record.tx
      freeze = .ok true := by
    unfold checkLrc20Transaction at checked
    simp only [keyFreeze_eq_some.mp kind, checkAnnouncements] at checked
    obtain ⟨_, announced, ended⟩ := Outcome.map_eq_ok.mp checked
    obtain ⟨valid, result, rfl⟩ := Outcome.map_eq_ok.mp announced
    cases valid with
    | true => exact result
    | false => cases ended
  refine ⟨accepted, ?_⟩
  unfold checkPubkeyFreezeAnnouncement at accepted
  split at accepted
  · cases accepted
  · exact accepted

structure FreezeInv (prims : Primitives) (node : L1Node) : Prop where
  lists : FreezesListed node.ledger.tables
  agree : RecordsAgree node.ledger
  attested : Attested (·.keyFreeze.isSome) node.ledger
  passed : RecordsAll (Passed prims) node.ledger

theorem step_freezeInv (node : L1Node) (input : Input) (inv : FreezeInv prims node)
    (orderly : FreezesAsChecked prims node input) : FreezeInv prims (step prims node input) where
  lists := step_freezesListed inv.lists orderly.2
  agree := step_recordsAgree input inv.agree
  attested := step_attested inv.attested orderly.1
  passed := step_recordsPassed input inv.passed

end Steps

/-- The freezes of a key that are attached were accepted, with an input of the token's owner. -/
def FreezesAccepted (prims : Primitives) (ledger : Ledger) (pubkey : PublicKey)
    (token : TokenPubkey) : Prop :=
  ∀ txid row, ledger.tables.l1Transactions.lookup txid = some row → row.status = .attached →
    row.rawTx.keyFreeze = some ⟨token, pubkey⟩ →
    ∃ record, ledger.records.lookup txid = some record ∧ record.tx = row.rawTx ∧
      checkPubkeyFreezeAnnouncement prims record.client record.tables record.tx ⟨token, pubkey⟩ =
        .ok true ∧
      hasOwnerInput prims record.client record.tables record.tx token = .ok true

theorem FreezeInv.accepted {prims : Primitives} {node : L1Node} (inv : FreezeInv prims node)
    (pubkey : PublicKey) (token : TokenPubkey) :
    FreezesAccepted prims node.ledger pubkey token := by
  intro txid row found marked kind
  obtain ⟨record, recorded⟩ :=
    Option.isSome_iff_exists.mp (inv.attested txid row found marked (by simp [kind]))
  have raw := (inv.agree txid record recorded).2
  rw [found] at raw
  have same : row.rawTx = record.tx := Option.some.inj raw
  rw [same] at kind
  obtain ⟨checked, owned⟩ := owned_of_passed (inv.passed txid record recorded) kind
  exact ⟨record, recorded, same.symm, checked, owned⟩

/-- In every run in which freezes are marked as they were checked and not replaced by a check,
whenever no freeze of a key is pending, the key is frozen exactly if an odd number of them is
attached, each accepted and signed by the owner. -/
theorem key_frozen_iff_odd_attached (prims : Primitives) (inputs : List Input)
    (run : AllSteps (step prims) (FreezesAsChecked prims) new inputs) (pubkey : PublicKey)
    (token : TokenPubkey)
    (settled : NonePending (runFrom (step prims) new inputs).ledger.tables pubkey token) :
    ((runFrom (step prims) new inputs).ledger.tables.isPubkeyFrozen pubkey token = true ↔
        Odd (attachedKeyFreezes (runFrom (step prims) new inputs).ledger.tables pubkey token)) ∧
      FreezesAccepted prims (runFrom (step prims) new inputs).ledger pubkey token := by
  have start : FreezeInv prims new := by
    refine ⟨⟨?_, ?_⟩, ?_, ?_, ?_⟩
    · exact nofun
    · exact nofun
    · exact nofun
    · exact nofun
    · exact nofun
  have inv := run.invariant step_freezeInv start
  exact ⟨isPubkeyFrozen_iff_odd inv.lists settled, inv.accepted pubkey token⟩

/-- The owner freezes a key, or frees it. -/
def keyFreezeTx (txid : Txid) : Lrc20Transaction :=
  ⟨⟨txid, [ownerInput], []⟩, .announcement (.pubkeyFreeze ⟨cappedToken, .repeating 9⟩)⟩

theorem key_frozen_iff_odd_attached_twice :
    (runFrom (step .plain) new (throughNode (keyFreezeTx 30))).ledger.tables.isPubkeyFrozen
        (.repeating 9) cappedToken = true ∧
      (runFrom (step .plain) new (throughNode (keyFreezeTx 30) ++
        throughNode (keyFreezeTx 31))).ledger.tables.isPubkeyFrozen
        (.repeating 9) cappedToken = false := by
  have once := (key_frozen_iff_odd_attached .plain (throughNode (keyFreezeTx 30))
    (by decide +kernel) (.repeating 9) cappedToken (by decide +kernel)).1
  have twice := (key_frozen_iff_odd_attached .plain
    (throughNode (keyFreezeTx 30) ++ throughNode (keyFreezeTx 31))
    (by decide +kernel) (.repeating 9) cappedToken (by decide +kernel)).1
  refine ⟨once.mpr ?_, Bool.eq_false_iff.mpr fun frozen => ?_⟩
  · exact Nat.odd_iff.mpr (by decide +kernel)
  · have odd := Nat.odd_iff.mp (twice.mp frozen)
    revert odd
    decide +kernel

/-- A freeze counts as soon as it is delivered, whoever signed it. -/
theorem pending_key_freeze_counts :
    (runFrom (step .plain) new [.newLrc20Txs
        [⟨⟨30, [strangerInput], []⟩, .announcement (.pubkeyFreeze ⟨cappedToken, .repeating 9⟩)⟩]
        none 0]).ledger.tables.isPubkeyFrozen (.repeating 9) cappedToken = true ∧
      attachedKeyFreezes (runFrom (step .plain) new [.newLrc20Txs
        [⟨⟨30, [strangerInput], []⟩, .announcement (.pubkeyFreeze ⟨cappedToken, .repeating 9⟩)⟩]
        none 0]).ledger.tables (.repeating 9) cappedToken = 0 := by
  decide +kernel

end L1Node

end Node

end Lrc20
