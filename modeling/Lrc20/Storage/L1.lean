import Mathlib.Data.List.AList
import Mathlib.Data.List.MinMax
import Lrc20.Lib.FixedWidth
import Lrc20.Types.Transaction

/-! The tables of the layer-one storage and the operations of `Lrc20NodeStorage` and
`MempoolNodeStorage`. A table with a unique column is a map from that column; a query
without an order reads the rows in table order. -/

namespace Lrc20.Storage

inductive L1TxStatus where
  | handling
  | attached
  | invalidIssue
deriving DecidableEq, Repr

/-- A row of `l1_transaction`. The raw transaction stands for its encoding. -/
structure L1Row where
  rawTx : Lrc20Transaction
  status : L1TxStatus
  timestamp : Nat
deriving DecidableEq

structure AnnouncementRow where
  tokenPubkey : TokenPubkey
  type : AnnouncementType
deriving DecidableEq

structure TokenPubkeyRow where
  name : String
  symbol : String
  decimal : UInt8
  maxSupply : U128
  isFreezable : Bool
deriving DecidableEq

/-- A row of `proof`: the transfer that spends the output and its input there. -/
structure ProofRow where
  spend : Option (Txid × Nat)
  isFrozen : Bool
deriving DecidableEq

inductive MempoolStatus where
  | initialized
  | waitingMined
  | pending
  | mined
  | attaching
deriving DecidableEq, Repr

/-- The address of a peer. -/
abbrev SocketAddr := Nat

structure MempoolRow where
  status : MempoolStatus
  sender : Option SocketAddr
deriving DecidableEq

structure L1Tables where
  l1Transactions : AList fun _ : Txid => L1Row
  announcements : AList fun _ : Txid => AnnouncementRow
  tokenPubkeys : AList fun _ : Txid => TokenPubkeyRow
  txFreezes : AList fun _ : Txid => OutPoint
  pubkeyFreezes : AList fun _ : Txid => PublicKey
  issues : AList fun _ : Txid => U128
  transferOwnerships : AList fun _ : Txid => ScriptBuf
  proofs : AList fun _ : OutPoint => ProofRow
  mempool : AList fun _ : Txid => MempoolRow

/-- How a database call ends other than well: with an error, or in a panic of its caller. -/
inductive DbFailure where
  | err
  | panic
deriving DecidableEq, Repr

structure TokenPubkeyInfo where
  announcement : Option TokenPubkeyAnnouncement
  totalSupply : U128
  owner : Option ScriptBuf
deriving DecidableEq

/-- `lrc20_transaction_from_model`: decodes the raw transaction. -/
def L1Row.read (prims : Primitives) (row : L1Row) : Option Lrc20Transaction :=
  match row.rawTx.txType with
  | .announcement announcement =>
    (announcement.readBack prims).map fun read => ⟨row.rawTx.bitcoinTx, .announcement read⟩
  | _ => some row.rawTx

namespace L1Tables

def empty : L1Tables := ⟨∅, ∅, ∅, ∅, ∅, ∅, ∅, ∅, ∅⟩

variable (prims : Primitives) (tables : L1Tables)

/-- `get_lrc20_transaction_by_id`. An invalid issue is shown as its announcement. -/
def getLrc20TransactionById (txid : Txid) : Except DbFailure (Option Lrc20Transaction) :=
  match tables.l1Transactions.lookup txid with
  | none => .ok none
  | some row =>
    match row.read prims with
    | none => .error .err
    | some tx =>
      match tx.txType, row.status with
      | .issue _ announcement, .invalidIssue =>
        .ok (some ⟨tx.bitcoinTx, .announcement (.issue announcement)⟩)
      | _, _ => .ok (some tx)

def setLrc20TxStatus (txid : Txid) (status : L1TxStatus) : L1Tables :=
  match tables.l1Transactions.lookup txid with
  | none => tables
  | some row =>
    { tables with l1Transactions := tables.l1Transactions.insert txid { row with status } }

/-- Deletes a row and, by the foreign keys, every row that refers to it. -/
def deleteLrc20Transaction (txid : Txid) : L1Tables where
  l1Transactions := tables.l1Transactions.erase txid
  announcements := tables.announcements.erase txid
  tokenPubkeys := tables.tokenPubkeys.erase txid
  txFreezes := tables.txFreezes.erase txid
  pubkeyFreezes := tables.pubkeyFreezes.erase txid
  issues := tables.issues.erase txid
  transferOwnerships := tables.transferOwnerships.erase txid
  proofs := (tables.proofs.keys.filter fun outpoint => outpoint.txid = txid).foldl
    (fun proofs outpoint => proofs.erase outpoint) tables.proofs
  mempool := tables.mempool.erase txid

/-! ### Inserting a transaction -/

/-- The row of `l1_transaction`: a second insertion keeps the first timestamp. -/
def upsertRow (now : Nat) (tx : Lrc20Transaction) : L1Tables :=
  let timestamp := match tables.l1Transactions.lookup tx.txid with
    | none => now
    | some row => row.timestamp
  { tables with
    l1Transactions := tables.l1Transactions.insert tx.txid ⟨tx, .handling, timestamp⟩ }

variable (bitcoinTx : Transaction)

/-- Records the transfer as the spender of the proofs its inputs name. -/
def markSpent (tables : L1Tables) (index : Nat) : L1Tables :=
  match bitcoinTx.input[index]? with
  | none => tables
  | some vin =>
    match tables.proofs.lookup vin.previousOutput with
    | none => tables
    | some row =>
      let linked := { row with spend := some (bitcoinTx.txid, index) }
      { tables with proofs := tables.proofs.insert vin.previousOutput linked }

/-- Stores a proof; what was known about it before is forgotten. -/
def upsertProof (txid : Txid) (tables : L1Tables) (vout : Nat) : L1Tables :=
  { tables with proofs := tables.proofs.insert ⟨txid, vout⟩ ⟨none, false⟩ }

def upsertAnnouncement (txid : Txid) (token : TokenPubkey) (type : AnnouncementType) : L1Tables :=
  { tables with announcements := tables.announcements.insert txid ⟨token, type⟩ }

/-- `insert_announcement_model`. The row refers to one of `announcement`, which has to
exist. -/
def insertAnnouncementModel (txid : Txid) (announcement : Announcement) :
    Except DbFailure L1Tables :=
  if tables.announcements.lookup txid = none then .error .err
  else .ok <| match announcement with
    | .tokenPubkey model => { tables with
        tokenPubkeys := tables.tokenPubkeys.insert txid
          ⟨model.name, model.symbol, model.decimal, model.maxSupply, model.isFreezable⟩ }
    | .txFreeze model => { tables with txFreezes := tables.txFreezes.insert txid model.outpoint }
    | .pubkeyFreeze model => { tables with
        pubkeyFreezes := tables.pubkeyFreezes.insert txid model.pubkey }
    | .issue model => { tables with issues := tables.issues.insert txid model.amount }
    | .transferOwnership model => { tables with
        transferOwnerships := tables.transferOwnerships.insert txid model.newOwner }
    | .tokenLogo _ => tables

def announcementType : Announcement → AnnouncementType
  | .tokenPubkey _ => .tokenPubkey
  | .tokenLogo _ => .tokenLogo
  | .txFreeze _ => .txFreeze
  | .pubkeyFreeze _ => .pubkeyFreeze
  | .issue _ => .issue
  | .transferOwnership _ => .transferOwnership

/-- `insert_lrc20_transaction`, one database transaction. A proof of an output that does
not exist panics. The token of an issue is that of its first proof. -/
def insertLrc20Transaction (now : Nat) (tx : Lrc20Transaction) : Except DbFailure L1Tables :=
  if tx.outputs.any fun entry => tx.bitcoinTx.output.length ≤ entry.1 then .error .panic
  else
    let stored := tables.upsertRow now tx
    let storeProofs (tables : L1Tables) :=
      (tx.outputs.map Prod.fst).foldl (upsertProof tx.txid) tables
    match tx.txType with
    | .transfer inputProofs _ =>
      .ok (storeProofs (inputProofs.keys.foldl (markSpent tx.bitcoinTx) stored))
    | .issue _ announcement =>
      let proved := storeProofs stored
      let announced := match tx.outputs with
        | [] => proved
        | (_, proof) :: _ => proved.upsertAnnouncement tx.txid proof.receipt.tokenPubkey .issue
      announced.insertAnnouncementModel tx.txid (.issue announcement)
    | .sparkExit _ => .ok (storeProofs stored)
    | .announcement announcement =>
      (stored.upsertAnnouncement tx.txid announcement.token
        (announcementType announcement)).insertAnnouncementModel tx.txid announcement

/-! ### Mempool -/

/-- `get_mempool_by_txids`: the entries whose transaction can be read. -/
def getMempoolByTxids (txids : List Txid) : List (Lrc20Transaction × Option SocketAddr) :=
  tables.mempool.entries.filterMap fun entry =>
    if entry.1 ∈ txids then
      ((tables.l1Transactions.lookup entry.1).bind (L1Row.read prims)).map (·, entry.2.sender)
    else none

def putMempoolTransaction (txid : Txid) (sender : Option SocketAddr) : Except DbFailure L1Tables :=
  if tables.l1Transactions.lookup txid = none then .error .err
  else if (tables.mempool.lookup txid).isSome then .ok tables
  else .ok { tables with mempool := tables.mempool.insert txid ⟨.initialized, sender⟩ }

def updateMempoolTxStatus (txid : Txid) (status : MempoolStatus) : Except DbFailure L1Tables :=
  match tables.mempool.lookup txid with
  | none => .error .err
  | some entry =>
    .ok { tables with mempool := tables.mempool.insert txid { entry with status } }

def deleteMempoolEntry (txid : Txid) : L1Tables :=
  { tables with mempool := tables.mempool.erase txid }

def deleteMempoolTxs (txids : List Txid) : L1Tables :=
  txids.foldl deleteMempoolEntry tables

/-! ### Tokens -/

variable (token : TokenPubkey)

/-- The announcements of one kind for a token. -/
def announcementsOf (type : AnnouncementType) : List Txid :=
  (tables.announcements.entries.filter fun entry =>
    entry.2.tokenPubkey = token ∧ entry.2.type = type).map Sigma.fst

def isAttached (txid : Txid) : Bool :=
  match tables.l1Transactions.lookup txid with
  | some row => row.status == .attached
  | none => false

/-- The supply of a token: every issue announcement counts, whatever its status. -/
def totalSupply : U128 :=
  let amounts := (tables.announcementsOf token .issue).filterMap fun txid =>
    tables.issues.lookup txid
  FixedWidth.saturatingSum amounts

/-- The owner the youngest ownership transfer names, whatever its status. -/
def reportedOwner : Option ScriptBuf :=
  let stamped := (tables.announcementsOf token .transferOwnership).filterMap fun txid =>
    (tables.l1Transactions.lookup txid).map fun row => (txid, row.timestamp)
  (stamped.argmax Prod.snd).bind fun latest => tables.transferOwnerships.lookup latest.1

def getTokenPubkeyInfo : Option TokenPubkeyInfo :=
  match (tables.announcementsOf token .tokenPubkey).find? tables.isAttached with
  | none => none
  | some txid =>
    (tables.tokenPubkeys.lookup txid).map fun row =>
      ⟨some ⟨token, row.name, row.symbol, row.decimal, row.maxSupply, row.isFreezable⟩,
        tables.totalSupply token, tables.reportedOwner token⟩

/-! ### Freezes -/

def toggleProofFreeze (outpoint : OutPoint) : L1Tables :=
  match tables.proofs.lookup outpoint with
  | none => tables
  | some row =>
    { tables with proofs := tables.proofs.insert outpoint { row with isFrozen := !row.isFrozen } }

def isProofFrozen (outpoint : OutPoint) : Bool :=
  match tables.proofs.lookup outpoint with
  | none => false
  | some row => row.isFrozen

/-- A key is frozen when an odd number of announcements of the token name it. -/
def isPubkeyFrozen (pubkey token : PublicKey) : Bool :=
  ((tables.pubkeyFreezes.entries.filter fun entry => entry.2 = pubkey ∧
    ((tables.announcements.lookup entry.1).map AnnouncementRow.tokenPubkey) = some token).length)
    % 2 == 1

/-! ### What the operations write -/

section Writes

variable {prims : Primitives} {tables tables' : L1Tables} {tx : Lrc20Transaction} {txid : Txid}
  {now : Nat} {other : Txid} {tables'' : L1Tables}

/-- Proofs and mempool aside, the tables are the same. -/
structure SameRows (tables tables' : L1Tables) : Prop where
  rows : tables'.l1Transactions = tables.l1Transactions
  announcements : tables'.announcements = tables.announcements
  tokenPubkeys : tables'.tokenPubkeys = tables.tokenPubkeys
  issues : tables'.issues = tables.issues
  transferOwnerships : tables'.transferOwnerships = tables.transferOwnerships

theorem SameRows.refl (tables : L1Tables) : SameRows tables tables := ⟨rfl, rfl, rfl, rfl, rfl⟩

/-- The mempool aside, the tables are the same, and no attached transaction enters the mempool. -/
structure OnlyMempool (tables tables' : L1Tables) : Prop where
  rest : ∃ mempool, tables' = { tables with mempool }
  entries : ∀ txid, tables.isAttached txid = true → tables.mempool.lookup txid = none →
    tables'.mempool.lookup txid = none

theorem OnlyMempool.refl (tables : L1Tables) : OnlyMempool tables tables :=
  ⟨⟨tables.mempool, rfl⟩, fun _ _ missing => missing⟩

theorem OnlyMempool.trans (first : OnlyMempool tables tables')
    (second : OnlyMempool tables' tables'') : OnlyMempool tables tables'' := by
  obtain ⟨⟨_, rfl⟩, entries⟩ := first
  obtain ⟨⟨mempool, rfl⟩, entries'⟩ := second
  exact ⟨⟨mempool, rfl⟩, fun txid attached missing =>
    entries' txid attached (entries txid attached missing)⟩

theorem onlyMempool_putMempoolTransaction {sender : Option SocketAddr}
    (put : tables.putMempoolTransaction txid sender = .ok tables')
    (unattached : tables.isAttached txid = false) : OnlyMempool tables tables' := by
  unfold putMempoolTransaction at put
  split at put
  · cases put
  · split at put
    · obtain rfl := Except.ok.inj put
      exact .refl tables
    · obtain rfl := Except.ok.inj put
      refine ⟨⟨_, rfl⟩, fun other attached missing => ?_⟩
      have different : other ≠ txid := by
        rintro rfl
        cases unattached.symm.trans attached
      exact (AList.lookup_insert_ne different).trans missing

theorem onlyMempool_updateMempoolTxStatus {status : MempoolStatus}
    (updated : tables.updateMempoolTxStatus txid status = .ok tables') :
    OnlyMempool tables tables' := by
  unfold updateMempoolTxStatus at updated
  cases entry : tables.mempool.lookup txid with
  | none =>
    rw [entry] at updated
    cases updated
  | some found =>
    rw [entry] at updated
    obtain rfl := Except.ok.inj updated
    refine ⟨⟨_, rfl⟩, fun other _ missing => ?_⟩
    have different : other ≠ txid := by
      rintro rfl
      cases entry.symm.trans missing
    exact (AList.lookup_insert_ne different).trans missing

theorem lookup_erase_ite {κ ν : Type} [DecidableEq κ] (table : AList fun _ : κ => ν)
    (key other : κ) :
    (table.erase key).lookup other = if other = key then none else table.lookup other := by
  by_cases same : other = key
  · rw [if_pos same, same, AList.lookup_erase]
  · rw [if_neg same, AList.lookup_erase_ne same]

theorem lookup_update_ite {κ ν : Type} [DecidableEq κ] (table : AList fun _ : κ => ν)
    (key other : κ) (change : ν → ν) :
    (match table.lookup key with
      | none => table
      | some row => table.insert key (change row)).lookup other =
      if other = key then (table.lookup other).map change else table.lookup other := by
  cases found : table.lookup key with
  | none =>
    by_cases same : other = key
    · rw [if_pos same, same, found]
      rfl
    · rw [if_neg same]
  | some row =>
    by_cases same : other = key
    · rw [if_pos same, same, found]
      exact AList.lookup_insert _
    · rw [if_neg same]
      exact AList.lookup_insert_ne same

theorem onlyMempool_deleteMempoolEntry (tables : L1Tables) (txid : Txid) :
    OnlyMempool tables (tables.deleteMempoolEntry txid) := by
  refine ⟨⟨_, rfl⟩, fun other _ missing => ?_⟩
  show (tables.mempool.erase txid).lookup other = none
  rw [lookup_erase_ite, missing, ite_self]

theorem onlyMempool_deleteMempoolTxs (txids : List Txid) :
    ∀ tables : L1Tables, OnlyMempool tables (tables.deleteMempoolTxs txids) := by
  induction txids with
  | nil => exact OnlyMempool.refl
  | cons txid rest ih =>
    intro tables
    exact (onlyMempool_deleteMempoolEntry tables txid).trans (ih (tables.deleteMempoolEntry txid))

/-! A change of status and a deletion, row by row. -/

theorem lookup_setLrc20TxStatus (tables : L1Tables) (txid other : Txid) (status : L1TxStatus) :
    (tables.setLrc20TxStatus txid status).l1Transactions.lookup other =
      if other = txid then (tables.l1Transactions.lookup other).map ({ · with status })
      else tables.l1Transactions.lookup other := by
  rw [← lookup_update_ite, setLrc20TxStatus]
  cases tables.l1Transactions.lookup txid <;> rfl

@[simp] theorem announcements_setLrc20TxStatus (tables : L1Tables) (txid : Txid)
    (status : L1TxStatus) :
    (tables.setLrc20TxStatus txid status).announcements = tables.announcements := by
  unfold setLrc20TxStatus
  cases tables.l1Transactions.lookup txid <;> rfl

@[simp] theorem tokenPubkeys_setLrc20TxStatus (tables : L1Tables) (txid : Txid)
    (status : L1TxStatus) :
    (tables.setLrc20TxStatus txid status).tokenPubkeys = tables.tokenPubkeys := by
  unfold setLrc20TxStatus
  cases tables.l1Transactions.lookup txid <;> rfl

@[simp] theorem pubkeyFreezes_setLrc20TxStatus (tables : L1Tables) (txid : Txid)
    (status : L1TxStatus) :
    (tables.setLrc20TxStatus txid status).pubkeyFreezes = tables.pubkeyFreezes := by
  unfold setLrc20TxStatus
  cases tables.l1Transactions.lookup txid <;> rfl

@[simp] theorem proofs_setLrc20TxStatus (tables : L1Tables) (txid : Txid) (status : L1TxStatus) :
    (tables.setLrc20TxStatus txid status).proofs = tables.proofs := by
  unfold setLrc20TxStatus
  cases tables.l1Transactions.lookup txid <;> rfl

theorem lookup_deleteLrc20Transaction (tables : L1Tables) (txid other : Txid) :
    (tables.deleteLrc20Transaction txid).l1Transactions.lookup other =
      if other = txid then none else tables.l1Transactions.lookup other :=
  lookup_erase_ite _ _ _

theorem announcement_deleteLrc20Transaction (tables : L1Tables) (txid other : Txid) :
    (tables.deleteLrc20Transaction txid).announcements.lookup other =
      if other = txid then none else tables.announcements.lookup other :=
  lookup_erase_ite _ _ _

theorem tokenPubkey_deleteLrc20Transaction (tables : L1Tables) (txid other : Txid) :
    (tables.deleteLrc20Transaction txid).tokenPubkeys.lookup other =
      if other = txid then none else tables.tokenPubkeys.lookup other :=
  lookup_erase_ite _ _ _

/-! Membership in what the queries select. -/

theorem mem_announcementsOf {token : TokenPubkey} {type : AnnouncementType} :
    txid ∈ tables.announcementsOf token type ↔
      tables.announcements.lookup txid = some ⟨token, type⟩ := by
  have entry : ∀ row, tables.announcements.lookup txid = some row ↔
      Sigma.mk txid row ∈ tables.announcements.entries := fun row => AList.mem_lookup_iff
  simp only [announcementsOf, List.mem_map, List.mem_filter, decide_eq_true_eq]
  constructor
  · rintro ⟨⟨key, row⟩, ⟨mem, own, kind⟩, rfl⟩
    rw [entry, ← own, ← kind]
    exact mem
  · intro found
    exact ⟨⟨txid, ⟨token, type⟩⟩, ⟨(entry _).mp found, rfl, rfl⟩, rfl⟩

theorem isAttached_iff : tables.isAttached txid = true ↔
    ∃ row, tables.l1Transactions.lookup txid = some row ∧ row.status = .attached := by
  unfold isAttached
  cases tables.l1Transactions.lookup txid <;> simp

/-! An insertion, case by case. -/

/-- The proofs aside, the tables are the same. -/
def OnlyProofs (tables tables' : L1Tables) : Prop := ∃ proofs, tables' = { tables with proofs }

theorem OnlyProofs.refl (tables : L1Tables) : OnlyProofs tables tables := ⟨tables.proofs, rfl⟩

theorem OnlyProofs.trans (first : OnlyProofs tables tables') (second : OnlyProofs tables' tables'')
    : OnlyProofs tables tables'' := by
  obtain ⟨_, rfl⟩ := first
  obtain ⟨proofs, rfl⟩ := second
  exact ⟨proofs, rfl⟩

theorem OnlyProofs.foldl {α : Type} {write : L1Tables → α → L1Tables}
    (each : ∀ tables item, OnlyProofs tables (write tables item)) (items : List α) :
    ∀ tables, OnlyProofs tables (items.foldl write tables) := by
  induction items with
  | nil => exact OnlyProofs.refl
  | cons item rest ih =>
    intro tables
    exact (each tables item).trans (ih _)

theorem onlyProofs_markSpent (tables : L1Tables) (index : Nat) :
    OnlyProofs tables (markSpent bitcoinTx tables index) := by
  unfold markSpent
  cases bitcoinTx.input[index]? with
  | none => exact .refl tables
  | some vin =>
    simp only
    cases tables.proofs.lookup vin.previousOutput with
    | none => exact .refl tables
    | some row => exact ⟨_, rfl⟩

theorem onlyProofs_toggleProofFreeze (tables : L1Tables) (outpoint : OutPoint) :
    OnlyProofs tables (tables.toggleProofFreeze outpoint) := by
  unfold toggleProofFreeze
  cases tables.proofs.lookup outpoint with
  | none => exact .refl tables
  | some row => exact ⟨_, rfl⟩

theorem SameRows.of_onlyProofs (only : OnlyProofs tables tables') : SameRows tables tables' := by
  obtain ⟨proofs, rfl⟩ := only
  exact ⟨rfl, rfl, rfl, rfl, rfl⟩

section

variable (tables : L1Tables)

/-- The spent proofs of a transfer are marked. -/
def linkInputs (tx : Lrc20Transaction) : L1Tables :=
  match tx.txType with
  | .transfer inputProofs _ => inputProofs.keys.foldl (markSpent tx.bitcoinTx) tables
  | _ => tables

/-- The row and the proofs of a transaction, which every insertion writes. -/
def storeProofs (now : Nat) (tx : Lrc20Transaction) : L1Tables :=
  (tx.outputs.map Prod.fst).foldl (upsertProof tx.txid) ((tables.upsertRow now tx).linkInputs tx)

theorem onlyProofs_storeProofs (now : Nat) (tx : Lrc20Transaction) :
    OnlyProofs (tables.upsertRow now tx) (tables.storeProofs now tx) := by
  have linked : OnlyProofs (tables.upsertRow now tx) ((tables.upsertRow now tx).linkInputs tx) := by
    unfold linkInputs
    cases tx.txType with
    | transfer inputProofs _ => exact OnlyProofs.foldl (onlyProofs_markSpent tx.bitcoinTx) _ _
    | _ => exact .refl _
  exact linked.trans (OnlyProofs.foldl (fun _ _ => ⟨_, rfl⟩) _ _)

/-- What an announcement adds to the table of its kind. -/
def describe (txid : Txid) : Announcement → L1Tables
  | .tokenPubkey model => { tables with
      tokenPubkeys := tables.tokenPubkeys.insert txid
        ⟨model.name, model.symbol, model.decimal, model.maxSupply, model.isFreezable⟩ }
  | .txFreeze model => { tables with txFreezes := tables.txFreezes.insert txid model.outpoint }
  | .pubkeyFreeze model =>
    { tables with pubkeyFreezes := tables.pubkeyFreezes.insert txid model.pubkey }
  | .issue model => { tables with issues := tables.issues.insert txid model.amount }
  | .transferOwnership model =>
    { tables with transferOwnerships := tables.transferOwnerships.insert txid model.newOwner }
  | .tokenLogo _ => tables

@[simp] theorem describe_rows (txid : Txid) (announcement : Announcement) :
    (tables.describe txid announcement).l1Transactions = tables.l1Transactions := by
  cases announcement <;> rfl

@[simp] theorem describe_announcements (txid : Txid) (announcement : Announcement) :
    (tables.describe txid announcement).announcements = tables.announcements := by
  cases announcement <;> rfl

@[simp] theorem describe_proofs (txid : Txid) (announcement : Announcement) :
    (tables.describe txid announcement).proofs = tables.proofs := by
  cases announcement <;> rfl

end

theorem insertAnnouncementModel_eq_ok {announcement : Announcement}
    (inserted : tables.insertAnnouncementModel txid announcement = .ok tables') :
    tables.announcements.lookup txid ≠ none ∧ tables' = tables.describe txid announcement := by
  unfold insertAnnouncementModel at inserted
  split at inserted
  · cases inserted
  · obtain rfl := Except.ok.inj inserted
    refine ⟨‹_›, ?_⟩
    cases announcement <;> rfl

/-- What an insertion writes next to the row and the proofs: nothing for a transfer or an exit, and
an issue without proofs needs the announcement to be there. -/
inductive Announced (tx : Lrc20Transaction) (stored : L1Tables) : L1Tables → Prop
  | nothing (issue : tx.txType.isIssue = false) (announcement : tx.txType.isAnnouncement = false) :
      Announced tx stored stored
  | announcement (announcement : Announcement) (kind : tx.txType = .announcement announcement) :
      Announced tx stored ((stored.upsertAnnouncement tx.txid announcement.token
        (announcementType announcement)).describe tx.txid announcement)
  | issue (outputProofs : Option ProofMap) (announcement : IssueAnnouncement)
      (first : Nat × ReceiptProof) (rest : List (Nat × ReceiptProof))
      (kind : tx.txType = .issue outputProofs announcement) (outputs : tx.outputs = first :: rest) :
      Announced tx stored ((stored.upsertAnnouncement tx.txid first.2.receipt.tokenPubkey
        .issue).describe tx.txid (.issue announcement))
  | unproved (outputProofs : Option ProofMap) (announcement : IssueAnnouncement)
      (kind : tx.txType = .issue outputProofs announcement) (outputs : tx.outputs = [])
      (held : stored.announcements.lookup tx.txid ≠ none) :
      Announced tx stored (stored.describe tx.txid (.issue announcement))

theorem insertLrc20Transaction_eq_ok
    (inserted : tables.insertLrc20Transaction now tx = .ok tables') :
    Announced tx (tables.storeProofs now tx) tables' := by
  have stored : tables.storeProofs now tx =
      (tx.outputs.map Prod.fst).foldl (upsertProof tx.txid)
        ((tables.upsertRow now tx).linkInputs tx) := rfl
  unfold linkInputs at stored
  unfold insertLrc20Transaction at inserted
  split at inserted
  · cases inserted
  · cases kind : tx.txType with
    | transfer | sparkExit =>
      simp only [kind] at inserted stored
      rw [← stored] at inserted
      obtain rfl := Except.ok.inj inserted
      exact .nothing (by rw [kind]; rfl) (by rw [kind]; rfl)
    | announcement announcement =>
      have noOutputs : tx.outputs = [] := by
        unfold Lrc20Transaction.outputs
        rw [kind]
        rfl
      simp only [kind, noOutputs, List.map_nil, List.foldl_nil] at inserted stored
      rw [← stored] at inserted
      obtain ⟨-, rfl⟩ := insertAnnouncementModel_eq_ok inserted
      exact .announcement announcement kind
    | issue outputProofs announcement =>
      simp only [kind] at inserted stored
      rw [← stored] at inserted
      cases outputs : tx.outputs with
      | nil =>
        rw [outputs] at inserted
        obtain ⟨held, rfl⟩ := insertAnnouncementModel_eq_ok inserted
        exact .unproved outputProofs announcement kind outputs held
      | cons first rest =>
        rw [outputs] at inserted
        obtain ⟨-, rfl⟩ := insertAnnouncementModel_eq_ok inserted
        exact .issue outputProofs announcement first rest kind outputs

theorem announced_of_insert (inserted : tables.insertLrc20Transaction now tx = .ok tables') :
    ∃ proofs, Announced tx { tables.upsertRow now tx with proofs } tables' := by
  obtain ⟨proofs, stored⟩ := onlyProofs_storeProofs tables now tx
  exact ⟨proofs, stored ▸ insertLrc20Transaction_eq_ok inserted⟩

/-- What an insertion writes to the rows and the announcements. -/
structure Inserted (tx : Lrc20Transaction) (tables tables' : L1Tables) : Prop where
  row : ∃ timestamp, tables'.l1Transactions =
    tables.l1Transactions.insert tx.txid ⟨tx, .handling, timestamp⟩
  others : ∀ other, other ≠ tx.txid →
    tables'.announcements.lookup other = tables.announcements.lookup other
  entry : ∀ token, tables'.announcements.lookup tx.txid = some ⟨token, .transferOwnership⟩ →
    tables.announcements.lookup tx.txid = some ⟨token, .transferOwnership⟩ ∨
      ∃ newOwner, tx.txType = .announcement (.transferOwnership ⟨token, newOwner⟩)

theorem lookup_upsertAnnouncement_ne (different : other ≠ txid) (tables : L1Tables)
    (token : TokenPubkey) (type : AnnouncementType) :
    (tables.upsertAnnouncement txid token type).announcements.lookup other =
      tables.announcements.lookup other :=
  AList.lookup_insert_ne different

theorem lookup_upsertAnnouncement_self (tables : L1Tables) (txid : Txid) (token : TokenPubkey)
    (type : AnnouncementType) :
    (tables.upsertAnnouncement txid token type).announcements.lookup txid = some ⟨token, type⟩ :=
  AList.lookup_insert _

theorem inserted_of_insertLrc20Transaction
    (inserted : tables.insertLrc20Transaction now tx = .ok tables') :
    Inserted tx tables tables' := by
  obtain ⟨proofs, written⟩ := announced_of_insert inserted
  cases written with
  | nothing | unproved =>
    exact ⟨⟨_, rfl⟩, fun _ _ => rfl, fun _ found => .inl found⟩
  | announcement announcement kind =>
    refine ⟨⟨_, describe_rows _ _ _⟩, ?_, ?_⟩
    · intro other different
      rw [describe_announcements, lookup_upsertAnnouncement_ne different]
      rfl
    · intro token found
      rw [describe_announcements, lookup_upsertAnnouncement_self] at found
      obtain ⟨own, type⟩ := AnnouncementRow.mk.inj (Option.some.inj found)
      cases announcement with
      | transferOwnership model => exact .inr ⟨model.newOwner, own ▸ kind⟩
      | _ => cases type
  | issue outputProofs announcement first rest kind outputs =>
    refine ⟨⟨_, rfl⟩, ?_, ?_⟩
    · intro other different
      rw [describe_announcements, lookup_upsertAnnouncement_ne different]
      rfl
    · intro token found
      rw [describe_announcements, lookup_upsertAnnouncement_self] at found
      cases found

section

variable (inserted : Inserted tx tables tables')
include inserted

theorem Inserted.lookup_self :
    ∃ timestamp, tables'.l1Transactions.lookup tx.txid = some ⟨tx, .handling, timestamp⟩ := by
  obtain ⟨timestamp, rows⟩ := inserted.row
  refine ⟨timestamp, ?_⟩
  rw [rows, AList.lookup_insert]

theorem Inserted.lookup_ne (different : other ≠ tx.txid) :
    tables'.l1Transactions.lookup other = tables.l1Transactions.lookup other := by
  obtain ⟨timestamp, rows⟩ := inserted.row
  rw [rows, AList.lookup_insert_ne different]

/-- An inserted row is not attached, and the others are as before. -/
theorem Inserted.isAttached (attached : tables'.isAttached txid = true) :
    txid ≠ tx.txid ∧ tables.isAttached txid = true := by
  obtain ⟨row, found, status⟩ := isAttached_iff.mp attached
  have other : txid ≠ tx.txid := by
    rintro rfl
    obtain ⟨timestamp, fresh⟩ := inserted.lookup_self
    obtain rfl := Option.some.inj (fresh.symm.trans found)
    cases status
  exact ⟨other, isAttached_iff.mpr ⟨row, (inserted.lookup_ne other).symm.trans found, status⟩⟩

theorem Inserted.isAttached_self : tables'.isAttached tx.txid = false := by
  rw [Bool.eq_false_iff]
  intro attached
  exact (inserted.isAttached attached).1 rfl

end

theorem tokenPubkeys_describe_ne (different : other ≠ txid) (tables : L1Tables)
    (announcement : Announcement) :
    (tables.describe txid announcement).tokenPubkeys.lookup other =
      tables.tokenPubkeys.lookup other := by
  cases announcement with
  | tokenPubkey model => exact AList.lookup_insert_ne different
  | _ => rfl

theorem tokenPubkeys_of_insertLrc20Transaction
    (inserted : tables.insertLrc20Transaction now tx = .ok tables') (different : other ≠ tx.txid) :
    tables'.tokenPubkeys.lookup other = tables.tokenPubkeys.lookup other := by
  obtain ⟨proofs, written⟩ := announced_of_insert inserted
  cases written with
  | nothing | issue | unproved => rfl
  | announcement announcement kind => exact tokenPubkeys_describe_ne different _ announcement

/-! The rows of the proofs. -/

theorem frozen_markSpent (tables : L1Tables) (index : Nat) (outpoint : OutPoint) :
    ((markSpent bitcoinTx tables index).proofs.lookup outpoint).map ProofRow.isFrozen =
      (tables.proofs.lookup outpoint).map ProofRow.isFrozen := by
  unfold markSpent
  cases bitcoinTx.input[index]? with
  | none => rfl
  | some vin =>
    simp only
    cases found : tables.proofs.lookup vin.previousOutput with
    | none => rfl
    | some row =>
      by_cases same : outpoint = vin.previousOutput
      · subst same
        simp [found]
      · simp [AList.lookup_insert_ne same]

theorem frozen_linkInputs (tables : L1Tables) (tx : Lrc20Transaction) (outpoint : OutPoint) :
    ((tables.linkInputs tx).proofs.lookup outpoint).map ProofRow.isFrozen =
      (tables.proofs.lookup outpoint).map ProofRow.isFrozen := by
  unfold linkInputs
  cases tx.txType with
  | transfer inputProofs outputProofs =>
    show ((inputProofs.keys.foldl (markSpent tx.bitcoinTx) tables).proofs.lookup outpoint).map _ = _
    generalize inputProofs.keys = indices
    induction indices generalizing tables with
    | nil => rfl
    | cons index rest ih => rw [List.foldl_cons, ih, frozen_markSpent]
  | _ => rfl

theorem lookup_upsertProofs (txid : Txid) (vouts : List Nat) (tables : L1Tables)
    (outpoint : OutPoint) :
    (vouts.foldl (upsertProof txid) tables).proofs.lookup outpoint =
      if outpoint.txid = txid ∧ outpoint.vout ∈ vouts then some ⟨none, false⟩
      else tables.proofs.lookup outpoint := by
  induction vouts generalizing tables with
  | nil => simp
  | cons vout rest ih =>
    rw [List.foldl_cons, ih]
    by_cases later : outpoint.txid = txid ∧ outpoint.vout ∈ rest
    · rw [if_pos later, if_pos ⟨later.1, List.mem_cons_of_mem vout later.2⟩]
    · rw [if_neg later]
      by_cases own : outpoint = ⟨txid, vout⟩
      · subst own
        rw [if_pos ⟨rfl, by simp⟩]
        exact AList.lookup_insert _
      · have neither : ¬ (outpoint.txid = txid ∧ outpoint.vout ∈ vout :: rest) := by
          rintro ⟨rfl, mem⟩
          rcases List.mem_cons.mp mem with rfl | mem
          · exact own rfl
          · exact later ⟨rfl, mem⟩
        rw [if_neg neither]
        exact AList.lookup_insert_ne own

/-- After an insertion the proofs of the transaction are blank, and the others as they were, but
for the inputs of a transfer. -/
theorem proofs_of_insert (inserted : tables.insertLrc20Transaction now tx = .ok tables')
    (outpoint : OutPoint) :
    tables'.proofs.lookup outpoint =
      if outpoint.txid = tx.txid ∧ outpoint.vout ∈ tx.outputs.map Prod.fst then some ⟨none, false⟩
      else ((tables.upsertRow now tx).linkInputs tx).proofs.lookup outpoint := by
  have proofs : tables'.proofs = (tables.storeProofs now tx).proofs := by
    cases insertLrc20Transaction_eq_ok inserted with
    | nothing | issue | unproved => rfl
    | announcement announcement => exact describe_proofs _ _ announcement
  rw [proofs]
  exact lookup_upsertProofs tx.txid _ _ outpoint

theorem proofs_deleteLrc20Transaction (tables : L1Tables) (txid : Txid) (outpoint : OutPoint) :
    (tables.deleteLrc20Transaction txid).proofs.lookup outpoint =
      if outpoint.txid = txid then none else tables.proofs.lookup outpoint := by
  have erased : ∀ (outpoints : List OutPoint) (proofs : AList fun _ : OutPoint => ProofRow),
      (outpoints.foldl (fun proofs outpoint => proofs.erase outpoint) proofs).lookup outpoint =
        if outpoint ∈ outpoints then none else proofs.lookup outpoint := by
    intro outpoints
    induction outpoints with
    | nil => simp
    | cons first rest ih =>
      intro proofs
      rw [List.foldl_cons, ih, lookup_erase_ite]
      by_cases later : outpoint ∈ rest
      · rw [if_pos later, if_pos (List.mem_cons_of_mem first later)]
      · simp only [List.mem_cons, later, or_false, if_false]
  show (List.foldl _ tables.proofs _).lookup outpoint = _
  rw [erased]
  by_cases own : outpoint.txid = txid
  · rw [if_pos own]
    split
    · rfl
    · rename_i missing
      apply AList.lookup_eq_none.mpr
      intro mem
      exact missing (List.mem_filter.mpr ⟨mem, by simp [own]⟩)
  · rw [if_neg own, if_neg]
    intro mem
    exact own (of_decide_eq_true (List.mem_filter.mp mem).2)

theorem proofs_toggleProofFreeze (tables : L1Tables) (toggled outpoint : OutPoint) :
    (tables.toggleProofFreeze toggled).proofs.lookup outpoint =
      if outpoint = toggled then
        (tables.proofs.lookup outpoint).map fun row => { row with isFrozen := !row.isFrozen }
      else tables.proofs.lookup outpoint := by
  rw [← lookup_update_ite, toggleProofFreeze]
  cases tables.proofs.lookup toggled <;> rfl

end Writes

end L1Tables

end Lrc20.Storage
