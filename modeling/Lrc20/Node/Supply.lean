import Lrc20.Node.Issuance
import Lrc20.Rpc.Spark

/-! Both layers of a token: issues on layer one, mints on Spark, and the one cap that is
announced for them. -/

open Lrc20.Rpc Lrc20.Storage Lrc20.TxAttach Lrc20.TxCheck FixedWidth Runs Totals FullChecking

namespace Lrc20.Node

open L1Node

variable {tx : Lrc20Transaction} {input : L1Node.Input}

/-! ### The layer-one side leaves the Spark transactions as they are -/

section FixedRows

variable {prims : Primitives} {client : BitcoinClient} {now : Nat}

theorem checkNextTx_fixedRow (state : FullChecking) (tx : Lrc20Transaction) :
    (checkNextTx prims client now state tx).spark.fixedRow = state.spark.fixedRow := by
  rcases @checkNextTx_spec prims client now state tx with ⟨-, same⟩ | ⟨found, checked, after, -⟩
  · rw [same]
  · rw [after]
    rcases checkLrc20Transaction_spark checked with ⟨same, -⟩ | ⟨outputProofs, block, -, ended⟩
    · rw [same]
    · have kept := @KeptByWrites.checkExitProofs prims _ _ (fixedRow_kept state.spark.fixedRow)
        tx.txid block outputProofs.entries rfl
      rwa [ended] at kept

theorem L1Node.step_fixedRow (node : L1Node) {input : Input}
    (own : ∀ tables, input ≠ .spark tables) :
    (step prims node input).spark.fixedRow = node.spark.fixedRow := by
  refine @step_keeps_spark prims node (fun spark => spark.fixedRow = node.spark.fixedRow) input
    ?_ (fun tables same => absurd same (own tables)) rfl
  intro client now txs _ _ _
  refine runFrom_invariant
    (I := fun state : FullChecking => state.spark.fixedRow = node.spark.fixedRow) ?_ rfl txs
  intro state tx same
  exact (checkNextTx_fixedRow state tx).trans same

end FixedRows

/-! ### The node with both layers -/

/-- A transaction that the RPC has admitted, with what it saw then. -/
structure Admitted where
  tx : TokenTransaction
  l1 : L1Tables
  spark : SparkNode

/-- The RPC has checked the supply with what it saw. -/
structure Admitted.Sound (prims : Primitives) (admitted : Admitted) : Prop where
  checked : checkSupply admitted.l1 admitted.spark.tables admitted.tx = .ok ()
  recorded : Recorded prims admitted.spark.tables.fixedRow admitted.spark.stored

/-- The two sides over one storage, and the transactions on their way from the RPC to the
controller. -/
structure LayeredNode where
  l1 : L1Node
  spark : SparkNode
  inbox : List Admitted

namespace LayeredNode

def new : LayeredNode := ⟨L1Node.new, SparkNode.new, []⟩

/-- The layer-one side, with the Spark tables of the Spark side. -/
def shared (node : LayeredNode) : L1Node := { node.l1 with spark := node.spark.tables }

inductive Input where
  | l1 (input : L1Node.Input)
  /-- A call of `send_spark_signature` up to the message for the controller. -/
  | sendSparkSignature (sigs : List SparkSignatureData) (tx : TokenTransaction)
  /-- The controller takes the next message of the RPC. -/
  | newSparkTx
  /-- Transactions from a peer go to the controller without a check of the supply. -/
  | peerTxs (txs : List TokenTransaction)
  | checkSparkTxs (txs : List TokenTransaction) (sender : Option SocketAddr)
  | checkSparkSignatures (sigs : List SparkSignatureData)

variable (prims : Primitives)

/-- One step, with announcements enforced. The restart of the layer-one side is that of the
node. -/
def step (node : LayeredNode) : Input → LayeredNode
  | .l1 (.spark _) => node
  | .l1 .restart =>
    { l1 := L1Node.step prims node.l1 .restart
      spark := { node.spark with queue := ∅ }
      inbox := [] }
  | .l1 input =>
    let l1 := L1Node.step prims node.shared input
    { node with l1, spark := { node.spark with tables := l1.spark } }
  | .sendSparkSignature sigs tx =>
    if sigs.any fun data => data.tokenTxHash ≠ tx.hash prims then node
    else match checkSupply node.l1.ledger.tables node.spark.tables tx with
      | .error _ => node
      | .ok _ =>
        if (node.spark.tables.getSparkTxWithOutputs (tx.hash prims)).isSome then node
        else { node with inbox := node.inbox ++ [⟨tx, node.l1.ledger.tables, node.spark⟩] }
  | .newSparkTx =>
    match node.inbox with
    | [] => node
    | admitted :: rest =>
      { node with
        spark := SparkNode.step prims true node.spark (.newSparkTxs [admitted.tx])
        inbox := rest }
  | .peerTxs txs =>
    { node with spark := SparkNode.step prims true node.spark (.newSparkTxs txs) }
  | .checkSparkTxs txs sender =>
    { node with
      spark := SparkNode.step prims true node.spark
        (.checkSparkTxs node.l1.ledger.tables txs sender) }
  | .checkSparkSignatures sigs =>
    { node with spark := SparkNode.step prims true node.spark (.checkSparkSignatures sigs) }

/-- The exact sum of the attached issues of a token. -/
def attachedIssues (node : LayeredNode) (token : TokenPubkey) : Nat :=
  total (fun _ row => if row.status = .attached then row.rawTx.issuedAmount token else 0)
    node.l1.ledger.tables.l1Transactions

/-- The exact sum of the stored mints of a token that have passed their check. -/
def acceptedMints (node : LayeredNode) (token : TokenPubkey) : Nat :=
  ((node.spark.stored.filter fun tx => node.spark.accepted.any fun other =>
    other.hash prims = tx.hash prims).map (mintedAmount token)).sum

/-- The supply over both layers stays below every announced cap, and both layers compare with
the same number. -/
structure OneCap (node : LayeredNode) : Prop where
  bounded : ∀ token, ∀ cap ∈ node.l1.ledger.tables.announcedCaps token, cap ≠ 0 →
    node.attachedIssues token + node.acceptedMints prims token ≤ cap.val
  sameNumber : ∀ token, ∀ cap ∈ node.l1.ledger.tables.announcedCaps token, toBe cap = cap

def storedMints (node : LayeredNode) (token : TokenPubkey) : Nat :=
  (node.spark.stored.map (mintedAmount token)).sum

end LayeredNode

/-- What the rows issue of a token. -/
def storedIssues (tables : L1Tables) (token : TokenPubkey) : Nat :=
  total (fun _ row => row.rawTx.issuedAmount token) tables.l1Transactions

/-- A token whose cap is announced by this row reads the same in both byte orders and was
neither issued nor minted yet. -/
def FreshCap (minted : TokenPubkey → Nat) (tables : L1Tables) (txid : Txid) : Prop :=
  ∀ entry ∈ tables.announcements.lookup txid, entry.type = .tokenPubkey →
    ∀ row ∈ tables.tokenPubkeys.lookup txid, toBe row.maxSupply = row.maxSupply ∧
      storedIssues tables entry.tokenPubkey = 0 ∧ minted entry.tokenPubkey = 0

/-- An issue of a token that is not minted. The check skips one whose row is there, so that one is
asked to be below the caps with what else is stored; of another it compares what is reported. -/
def IssuedAlone (prims : Primitives) (minted : TokenPubkey → Nat) (_ : BitcoinClient)
    (state : FullChecking) (tx : Lrc20Transaction) : Prop :=
  ∀ issue ∈ tx.issued,
    (state.ledger.tables.getLrc20TransactionById prims tx.txid = .ok none →
      SupplyReported state.ledger.tables tx.txid issue) ∧
    (state.ledger.tables.getLrc20TransactionById prims tx.txid ≠ .ok none →
      WithinCaps state.ledger.tables tx.txid issue) ∧
    minted issue.tokenPubkey = 0

namespace LayeredNode

variable (prims : Primitives)

/-- A mint of its issuer's token only, which is not issued on layer one. Since the RPC admitted it
no mint of the token was stored, and the caps are those that the RPC was told; the sum fits. -/
def MintedAlone (node : LayeredNode) (admitted : Admitted) : Prop :=
  ∀ issuance ∈ admitted.tx.issuance,
    (∀ leaf ∈ admitted.tx.leavesToCreate, leaf.tokenPubkey = issuance.1) ∧
    L1Tables.CapsReported admitted.l1 node.l1.ledger.tables issuance.1 ∧
    node.storedMints issuance.1 = (admitted.spark.stored.map (mintedAmount issuance.1)).sum ∧
    storedIssues node.l1.ledger.tables issuance.1 = 0 ∧
    node.storedMints issuance.1 + createdAmount admitted.tx < 2 ^ 128

/-- Every token is issued on one layer only, after its cap was announced, its mints one after the
other, and no mint is taken over from a peer. -/
def OneLayerEach (node : LayeredNode) : Input → Prop
  | .l1 input =>
    node.shared.MarksChecked (·.issued.isSome) input ∧
    node.shared.ChecksOnly prims (IssuedAlone prims node.storedMints) input ∧
    node.shared.MarksOnly (FreshCap node.storedMints) input
  | .newSparkTx => ∀ admitted ∈ node.inbox.head?,
      node.spark.tables.transactions.lookup (admitted.tx.hash prims) = none →
        node.MintedAlone admitted
  | .peerTxs txs => ∀ tx ∈ txs, tx.isMint →
      (node.spark.tables.transactions.lookup (tx.hash prims)).isSome
  | _ => True

end LayeredNode

section Decidable

instance (minted : TokenPubkey → Nat) (tables : L1Tables) (txid : Txid) :
    Decidable (FreshCap minted tables txid) :=
  inferInstanceAs (Decidable (∀ entry ∈ tables.announcements.lookup txid, _ →
    ∀ row ∈ tables.tokenPubkeys.lookup txid, _))

instance (prims : Primitives) (minted : TokenPubkey → Nat) (client : BitcoinClient)
    (state : FullChecking) (tx : Lrc20Transaction) :
    Decidable (IssuedAlone prims minted client state tx) :=
  inferInstanceAs (Decidable (∀ issue ∈ tx.issued, (_ → _) ∧ (_ → _) ∧ _))

instance (node : LayeredNode) (admitted : Admitted) : Decidable (node.MintedAlone admitted) :=
  inferInstanceAs (Decidable (∀ issuance ∈ admitted.tx.issuance, _))

instance (prims : Primitives) (node : LayeredNode) :
    (input : LayeredNode.Input) → Decidable (node.OneLayerEach prims input)
  | .l1 _ => inferInstanceAs (Decidable (_ ∧ _ ∧ _))
  | .newSparkTx => inferInstanceAs (Decidable (∀ admitted ∈ node.inbox.head?, _))
  | .peerTxs txs => inferInstanceAs (Decidable (∀ tx ∈ txs, _))
  | .sendSparkSignature .. | .checkSparkTxs .. | .checkSparkSignatures _ => .isTrue trivial

end Decidable

/-! ### Announced caps -/

section Caps

variable {tables tables' : L1Tables} {token : TokenPubkey} {cap : U128} {txid : Txid}

/-- The row announces the token with this cap, and is attached. -/
structure Announces (tables : L1Tables) (txid : Txid) (token : TokenPubkey) (cap : U128) :
    Prop where
  entry : tables.announcements.lookup txid = some ⟨token, .tokenPubkey⟩
  attached : tables.isAttached txid = true
  row : ∃ row, tables.tokenPubkeys.lookup txid = some row ∧ row.maxSupply = cap

theorem mem_announcedCaps :
    cap ∈ tables.announcedCaps token ↔ ∃ txid, Announces tables txid token cap := by
  simp only [L1Tables.announcedCaps, List.mem_filterMap, List.mem_filter,
    L1Tables.mem_announcementsOf, Option.map_eq_some_iff]
  constructor
  · rintro ⟨txid, ⟨entry, attached⟩, row⟩
    exact ⟨txid, entry, attached, row⟩
  · rintro ⟨txid, entry, attached, row⟩
    exact ⟨txid, ⟨entry, attached⟩, row⟩

theorem L1Node.Calmer.announcedCaps (calmer : Calmer tables tables')
    (announced : cap ∈ tables'.announcedCaps token) : cap ∈ tables.announcedCaps token := by
  obtain ⟨txid, entry, attached, row, found, same⟩ := mem_announcedCaps.mp announced
  exact mem_announcedCaps.mpr ⟨txid, calmer.announcements txid _ entry,
    calmer.attached txid attached, row, calmer.tokenPubkeys txid row found, same⟩

theorem announcedCaps_of_insert {now : Nat}
    (written : tables.insertLrc20Transaction now tx = .ok tables')
    (announced : cap ∈ tables'.announcedCaps token) : cap ∈ tables.announcedCaps token := by
  have inserted := L1Tables.inserted_of_insertLrc20Transaction written
  obtain ⟨txid, entry, attached, row, found, same⟩ := mem_announcedCaps.mp announced
  obtain ⟨other, before⟩ := inserted.isAttached attached
  exact mem_announcedCaps.mpr ⟨txid, (inserted.others txid other).symm.trans entry, before, row,
    (L1Tables.tokenPubkeys_of_insertLrc20Transaction written other).symm.trans found, same⟩

theorem storedIssues_fewer (fewer : L1Node.Fewer tables tables') (token : TokenPubkey) :
    storedIssues tables' token ≤ storedIssues tables token := by
  refine total_le_total fun txid => ?_
  cases found : tables'.l1Transactions.lookup txid with
  | none =>
    rw [weightAt_of_none found]
    exact Nat.zero_le _
  | some row' =>
    obtain ⟨row, held, raw⟩ := fewer.rows txid row' found
    rw [weightAt_of_lookup found, weightAt_of_lookup held, raw]

theorem FreshCap.fewer {minted : TokenPubkey → Nat} (fresh : FreshCap minted tables txid)
    (fewer : L1Node.Fewer tables tables') : FreshCap minted tables' txid := by
  intro entry found kind row cap
  obtain ⟨same, unissued, unminted⟩ := fresh entry (fewer.announcements txid entry found) kind row
    (fewer.tokenPubkeys txid row cap)
  have less := storedIssues_fewer fewer entry.tokenPubkey
  exact ⟨same, by omega, unminted⟩

end Caps

/-! ### The layer-one side -/

section LayerOne

variable {prims : Primitives} {minted : TokenPubkey → Nat} {ledger : Ledger} {ledger' : Ledger}

/-- Beside what is minted, the issues with a record stay below the caps. -/
structure Capped (minted : TokenPubkey → Nat) (ledger : Ledger) : Prop where
  sameNumber : ∀ token, ∀ cap ∈ ledger.tables.announcedCaps token, toBe cap = cap
  bounded : ∀ token, ∀ cap ∈ ledger.tables.announcedCaps token, cap ≠ 0 →
    checkedIssues (fun _ => true) ledger token + minted token ≤ cap.val

theorem Capped.shrink (capped : Capped minted ledger)
    (caps : ∀ {token cap}, cap ∈ ledger'.tables.announcedCaps token →
      cap ∈ ledger.tables.announcedCaps token) (shrinks : L1Node.Shrinks ledger ledger') :
    Capped minted ledger' where
  sameNumber token cap announced := capped.sameNumber token cap (caps announced)
  bounded token cap announced nonzero := by
    have less := @checkedIssues_shrink (fun _ => true) _ _ shrinks token
    have before := capped.bounded token cap (caps announced) nonzero
    omega

theorem Capped.calmer (capped : Capped minted ledger)
    (calmer : L1Node.Calmer ledger.tables ledger'.tables) (shrinks : L1Node.Shrinks ledger ledger')
    : Capped minted ledger' :=
  capped.shrink calmer.announcedCaps shrinks

theorem checkedIssues_le_storedIssues (agree : L1Node.RecordsAgree ledger) (token : TokenPubkey) :
    checkedIssues (fun _ => true) ledger token ≤ storedIssues ledger.tables token :=
  total_le_total fun txid => weightAt_record_le agree token txid

/-- A new mark brings in a cap of a token without any supply. -/
theorem Capped.attach (capped : Capped minted ledger) (agree : L1Node.RecordsAgree ledger)
    {txid : Txid} (fresh : FreshCap minted ledger.tables txid) :
    Capped minted (ledger.attach txid) := by
  have fewer := fewer_attach ledger txid
  have origin : ∀ token cap, cap ∈ (ledger.attach txid).tables.announcedCaps token →
      cap ∈ ledger.tables.announcedCaps token ∨
        (toBe cap = cap ∧ storedIssues ledger.tables token = 0 ∧ minted token = 0) := by
    intro token cap announced
    obtain ⟨other, entry, attached, row, found, rfl⟩ := mem_announcedCaps.mp announced
    have entryBefore := fewer.announcements other _ entry
    have rowBefore := fewer.tokenPubkeys other row found
    rcases isAttached_attach attached with rfl | before
    · exact .inr (fresh _ entryBefore rfl row rowBefore)
    · exact .inl (mem_announcedCaps.mpr ⟨other, entryBefore, before, row, rowBefore, rfl⟩)
  have sameRecords : checkedIssues (fun _ => true) (ledger.attach txid) =
      checkedIssues (fun _ => true) ledger := rfl
  constructor
  case sameNumber =>
    intro token cap announced
    rcases origin token cap announced with old | ⟨same, -, -⟩
    · exact capped.sameNumber token cap old
    · exact same
  case bounded =>
    intro token cap announced nonzero
    rw [sameRecords]
    rcases origin token cap announced with old | ⟨-, unissued, unminted⟩
    · exact capped.bounded token cap old nonzero
    · have less := checkedIssues_le_storedIssues agree token
      omega

theorem checkNextTx_capped {client : BitcoinClient} {now : Nat} {state : FullChecking}
    (capped : Capped minted state.ledger)
    (agree : L1Node.RecordsAgree state.ledger)
    (alone : IssuedAlone prims minted client state tx) :
    Capped minted (checkNextTx prims client now state tx).ledger := by
  have caps : ∀ {token cap}, cap ∈ (checkNextTx prims client now state
      tx).ledger.tables.announcedCaps token → cap ∈ state.ledger.tables.announcedCaps token := by
    intro token cap
    refine checkNextTx_keeps_tables (J := fun tables => cap ∈ tables.announcedCaps token → _) ?_ ?_
    · exact fun _ announced => announced
    · exact fun tables _ written announced => announcedCaps_of_insert written announced
  refine ⟨fun token cap announced => capped.sameNumber token cap (caps announced), ?_⟩
  intro token cap announced nonzero
  have before := capped.bounded token cap (caps announced) nonzero
  have within : checkedIssues (fun _ => true) (checkNextTx prims client now
      state tx).ledger token ≤ cap.val - minted token := by
    refine checkNextTx_checkedIssues_le agree (by omega) ?_
    intro tables spark checked amount weighs
    obtain ⟨-, issue, issued, rfl, same⟩ := issued_of_recordAmount weighs
    obtain ⟨reported, asked, unminted⟩ := alone issue issued
    have below : WithinCaps state.ledger.tables tx.txid issue := by
      by_cases unknown : state.ledger.tables.getLrc20TransactionById prims tx.txid = .ok none
      · exact withinCaps_of_reported unknown (checkIssueAnnouncement_of_checked issued checked)
          (reported unknown)
      · exact asked unknown
    have fits := below cap (caps announced) nonzero
    omega
  omega

theorem step_capped {node : L1Node} (capped : Capped minted node.ledger)
    (agree : L1Node.RecordsAgree node.ledger)
    (checks : node.ChecksOnly prims (IssuedAlone prims minted) input)
    (marks : node.MarksOnly (FreshCap minted) input) :
    Capped minted (L1Node.step prims node input).ledger := by
  have settled : L1Node.Settled fun ledger => (Capped minted ledger ∧ L1Node.RecordsAgree ledger) ∧
      ∀ txid, node.Due input txid → FreshCap minted ledger.tables txid := by
    refine (L1Node.Settled.and ?_ L1Node.settled_recordsAgree).and ?_
    · exact .of_calmer fun kept calmer shrinks _ => kept.calmer calmer shrinks
    · exact .of_calmer fun fresh calmer _ _ txid isDue => (fresh txid isDue).fewer calmer.toFewer
  have check := checks.afterCheck (Q := fun state => Capped minted state.ledger ∧
    L1Node.RecordsAgree state.ledger) ⟨capped, agree⟩ fun _ _ _ _ kept alone =>
      ⟨checkNextTx_capped kept.1 kept.2 alone, L1Node.checkNextTx_recordsAgree kept.2⟩
  refine (L1Node.step_keeps settled ?insert ?attach ?check ⟨⟨capped, agree⟩, marks.due⟩).1.1
  case insert =>
    rintro _ _ now rfl tx _ ledger ledger' ⟨kept, -⟩ inserted
    refine ⟨⟨?_, L1Node.keptByInsert_recordsAgree ledger ledger' kept.2 inserted⟩,
      fun _ ⟨_, _, _, other, _⟩ => nomatch other⟩
    obtain ⟨tables, written, rfl⟩ := L1Node.insert_eq_ok inserted
    exact kept.1.shrink (announcedCaps_of_insert written) (L1Node.shrinks_of_erase rfl)
  case attach =>
    rintro txid isDue ledger ⟨kept, fresh⟩
    refine ⟨⟨kept.1.attach kept.2 (fresh txid isDue), kept.2.attach txid⟩, fun other otherDue => ?_⟩
    exact (fresh other otherDue).fewer (L1Node.fewer_attach ledger txid)
  case check =>
    rintro client now txs rest rfl inbox
    exact ⟨check client now txs rest rfl inbox, fun _ ⟨_, _, _, other, _⟩ => nomatch other⟩

end LayerOne

/-! ### Both layers -/

namespace LayeredNode

variable {prims : Primitives} {node : LayeredNode} {tx : TokenTransaction} {issuer : PublicKey}
  {admitted : Admitted}

/-- The sums of the check are exact where they fit, and still are those of the node. -/
theorem storedMints_add_createdAmount_le {signature : Option OperatorSpecificOwnerSignature}
    {timestamp : UInt64} {cap : U128} (sound : admitted.Sound prims)
    (mint : admitted.tx.input = .mint issuer signature timestamp)
    (alone : node.MintedAlone admitted)
    (announced : cap ∈ node.l1.ledger.tables.announcedCaps issuer) (nonzero : cap ≠ 0)
    (sameNumber : toBe cap = cap) :
    node.storedMints issuer + createdAmount admitted.tx ≤ cap.val := by
  obtain ⟨-, told, same, -, fits⟩ := alone (issuer, timestamp)
    (by simp [TokenTransaction.issuance, mint])
  dsimp only at told same fits
  obtain ⟨announcement, reported, rfl⟩ := Option.map_eq_some_iff.mp (told cap announced)
  have limited : 0 < announcement.maxSupply := Fin.pos_iff_ne_zero.mpr nonzero
  have passes := sound.checked
  rw [checkSupply_eq mint reported limited sound.recorded] at passes
  split at passes
  case isTrue => cases passes
  case isFalse accepts =>
    unfold Rejects at accepts
    rw [sameNumber, ← same, Nat.mod_eq_of_lt (by omega)] at accepts
    omega

theorem mintedAmount_le_createdAmount (token : TokenPubkey) (tx : TokenTransaction) :
    mintedAmount token tx ≤ createdAmount tx := by
  unfold mintedAmount createdAmount
  split
  · exact exactSum_le_of_sublist (List.filter_sublist.map _)
  · exact Nat.zero_le _

/-- A mint of leaves of its issuer's token is no mint of another one. -/
theorem mintedAmount_eq_zero {token : TokenPubkey}
    (own : ∀ leaf ∈ tx.leavesToCreate, leaf.tokenPubkey = issuer) (other : token ≠ issuer) :
    mintedAmount token tx = 0 := by
  have none : (tx.leavesToCreate.filter fun leaf => leaf.tokenPubkey = token) = [] := by
    rw [List.filter_eq_nil_iff]
    intro leaf mem
    simp [own leaf mem, Ne.symm other]
  unfold mintedAmount
  rw [none]
  split <;> rfl

theorem capped_of_mintedAlone {stored : List TokenTransaction} (sound : admitted.Sound prims)
    (agree : L1Node.RecordsAgree node.l1.ledger) (capped : Capped node.storedMints node.l1.ledger)
    (alone : node.MintedAlone admitted) (after : stored = node.spark.stored ++ [admitted.tx]) :
    Capped (fun token => (stored.map (mintedAmount token)).sum) node.l1.ledger := by
  refine ⟨capped.sameNumber, ?_⟩
  intro token cap announced nonzero
  have sum : (stored.map (mintedAmount token)).sum =
      node.storedMints token + mintedAmount token admitted.tx := by
    simp [after, storedMints]
  have before := capped.bounded token cap announced nonzero
  show checkedIssues _ node.l1.ledger token + (stored.map (mintedAmount token)).sum ≤ _
  rw [sum]
  cases input : admitted.tx.input with
  | transfer outputsToSpend =>
    have nothing : mintedAmount token admitted.tx = 0 := by
      unfold mintedAmount TokenTransaction.isMint
      rw [input]
      rfl
    omega
  | mint issuer signature timestamp =>
    obtain ⟨own, -, -, unissued, -⟩ := alone (issuer, timestamp)
      (by simp [TokenTransaction.issuance, input])
    dsimp only at own unissued
    by_cases same : token = issuer
    · subst same
      have room := storedMints_add_createdAmount_le sound input alone announced nonzero
        (capped.sameNumber token cap announced)
      have less := checkedIssues_le_storedIssues agree token
      have most := mintedAmount_le_createdAmount token admitted.tx
      omega
    · have nothing := mintedAmount_eq_zero own same
      omega

theorem storedMints_of_known {txs : List TokenTransaction}
    (known : ∀ tx ∈ txs, tx.isMint → (node.spark.tables.transactions.lookup (tx.hash prims)).isSome)
    (token : TokenPubkey) :
    ((node.spark.stored ++ (handleNewSparkTxs prims txs node.spark.tables).2.1).map
      (mintedAmount token)).sum = node.storedMints token := by
  refine (handleNewSparkTxs_keeps (P := fun tables stored =>
    (∀ hash, node.spark.tables.fixedRow hash ≠ none → tables.fixedRow hash ≠ none) ∧
      (stored.map (mintedAmount token)).sum = node.storedMints token) ?_
    ⟨fun _ present => present, rfl⟩).2
  intro tables tables' stored tx mem kept inserted
  obtain ⟨row, -, rows⟩ := fixedRow_inserted inserted
  constructor
  · intro hash present
    rw [rows]
    dsimp only
    split
    · simp
    · exact kept.1 hash present
  · -- A mint of the batch would have been there.
    have transfer : tx.isMint = false := by
      by_contra mint
      have before : node.spark.tables.fixedRow (tx.hash prims) ≠ none := by
        have there := known tx mem (by simpa using mint)
        unfold SparkTables.fixedRow
        rw [ne_eq, Option.map_eq_none_iff]
        exact Option.isSome_iff_ne_none.mp there
      apply kept.1 _ before
      unfold SparkTables.fixedRow
      rw [inserted.fresh]
      rfl
    rw [List.map_append, List.sum_append, kept.2]
    simp [mintedAmount, transfer]

structure Inv (prims : Primitives) (node : LayeredNode) : Prop where
  agree : L1Node.RecordsAgree node.l1.ledger
  attested : L1Node.Attested (·.issued.isSome) node.l1.ledger
  recorded : Recorded prims node.spark.tables.fixedRow node.spark.stored
  inbox : ∀ admitted ∈ node.inbox, admitted.Sound prims
  capped : Capped node.storedMints node.l1.ledger

theorem inv_l1 (inv : Inv prims node)
    (own : ∀ tables, input ≠ .spark tables) (admitted : node.OneLayerEach prims (.l1 input)) :
    let l1 := L1Node.step prims node.shared input
    Inv prims { node with l1, spark := { node.spark with tables := l1.spark } } := by
  obtain ⟨marked, checks, marks⟩ := admitted
  have rows := @step_fixedRow prims node.shared input own
  constructor
  case agree => exact step_recordsAgree input inv.agree
  case attested => exact step_attested inv.attested marked
  case recorded =>
    show Recorded prims (L1Node.step prims node.shared input).spark.fixedRow node.spark.stored
    rw [rows]
    exact inv.recorded
  case inbox => exact inv.inbox
  case capped => exact step_capped inv.capped inv.agree checks marks

theorem step_inv (node : LayeredNode) (input : Input) (inv : Inv prims node)
    (admitted : node.OneLayerEach prims input) : Inv prims (node.step prims input) := by
  cases input with
  | l1 input =>
    cases input with
    | spark tables => exact inv
    | restart =>
      have stepped := inv_l1 inv (by intro _ same; cases same) admitted
      exact ⟨stepped.agree, stepped.attested, inv.recorded, by simp [step], stepped.capped⟩
    | _ => exact inv_l1 inv (by intro _ same; cases same) admitted
  | sendSparkSignature sigs tx =>
    unfold step
    dsimp only
    split
    · exact inv
    · split
      case h_1 => exact inv
      case h_2 checked =>
        split
        · exact inv
        · refine { inv with inbox := ?_ }
          intro admitted mem
          rcases List.mem_append.mp mem with earlier | added
          · exact inv.inbox admitted earlier
          · obtain rfl := List.mem_singleton.mp added
            exact ⟨checked, inv.recorded⟩
  | newSparkTx =>
    unfold step
    cases inbox : node.inbox with
    | nil => exact inv
    | cons first rest =>
      have sound := inv.inbox
      rw [inbox, List.forall_mem_cons] at sound
      dsimp only
      refine ⟨inv.agree, inv.attested, recorded_step node.spark _ inv.recorded, sound.2, ?_⟩
      have stored : (SparkNode.step prims true node.spark (.newSparkTxs [first.tx])).stored =
          node.spark.stored ++ (handleNewSparkTxs prims [first.tx] node.spark.tables).2.1 := rfl
      rcases handleNewSparkTxs_single prims first.tx node.spark.tables with
        ⟨-, none⟩ | ⟨inserted, one⟩
      · rw [none, List.append_nil] at stored
        have same : storedMints { node with
            spark := SparkNode.step prims true node.spark (.newSparkTxs [first.tx])
            inbox := rest } = node.storedMints := by
          unfold storedMints
          rw [stored]
        rw [same]
        exact inv.capped
      · rw [one] at stored
        have alone := admitted first (by simp [inbox]) inserted.fresh
        exact @capped_of_mintedAlone prims node first _ sound.1 inv.agree inv.capped alone stored
  | peerTxs txs =>
    refine ⟨inv.agree, inv.attested, recorded_step node.spark _ inv.recorded, inv.inbox, ?_⟩
    have same : storedMints (node.step prims (.peerTxs txs)) = node.storedMints :=
      funext (storedMints_of_known admitted)
    rw [same]
    exact inv.capped
  | checkSparkTxs txs sender => exact { inv with }
  | checkSparkSignatures sigs =>
    have stored := (@step_checkSparkSignatures prims true node.spark sigs).2
    refine ⟨inv.agree, inv.attested, recorded_step node.spark _ inv.recorded, inv.inbox, ?_⟩
    have same : storedMints (node.step prims (.checkSparkSignatures sigs)) = node.storedMints := by
      unfold storedMints step
      rw [stored]
    rw [same]
    exact inv.capped

theorem attachedIssues_le (inv : Inv prims node) (token : TokenPubkey) :
    node.attachedIssues token ≤ checkedIssues (fun _ => true) node.l1.ledger token := by
  refine total_le_total fun txid => ?_
  cases found : node.l1.ledger.tables.l1Transactions.lookup txid with
  | none =>
    rw [weightAt_of_none found]
    exact Nat.zero_le _
  | some row =>
    rw [weightAt_of_lookup found]
    by_cases counted : row.status = .attached ∧ row.rawTx.issued.isSome
    · have kept := inv.attested txid row found counted.1 counted.2
      obtain ⟨record, recorded⟩ := Option.isSome_iff_exists.mp kept
      obtain ⟨-, raw⟩ := inv.agree txid record recorded
      rw [found] at raw
      rw [weightAt_of_lookup recorded, if_pos counted.1, Option.some.inj raw]
      exact Nat.le_refl _
    · split
      case isFalse => exact Nat.zero_le _
      case isTrue attached =>
        have none : row.rawTx.issued = none := by
          simpa [attached] using counted
        simp [Lrc20Transaction.issuedAmount, none]

theorem acceptedMints_le (node : LayeredNode) (token : TokenPubkey) :
    node.acceptedMints prims token ≤ node.storedMints token :=
  (List.filter_sublist.map _).sum_le_sum fun _ _ => Nat.zero_le _

theorem Inv.oneCap (inv : Inv prims node) : node.OneCap prims where
  sameNumber := inv.capped.sameNumber
  bounded token cap announced nonzero := by
    have issued := attachedIssues_le inv token
    have minted := @acceptedMints_le prims node token
    have together := inv.capped.bounded token cap announced nonzero
    omega

/-- In every run in which each token is issued on one layer only, after its cap was announced,
where no mint is stored between the check of another one and its storing and none comes from a
peer, the supply over both layers stays below the cap. -/
theorem oneCap_of_oneLayerEach (inputs : List Input)
    (run : AllSteps (step prims) (OneLayerEach prims) new inputs) :
    (runFrom (step prims) new inputs).OneCap prims := by
  have start : Inv prims new := by
    refine ⟨?_, ?_, recorded_new, ?_, ?_, ?_⟩
    · exact nofun
    · exact nofun
    · exact nofun
    · exact nofun
    · exact nofun
  exact (run.invariant step_inv start).oneCap

/-- The announcement of the token with key `repeating 1` by its owner. -/
def announcementWith (maxSupply : U128) : Lrc20Transaction :=
  ⟨⟨10, [⟨⟨1, 0⟩, [], [[0x30], (PublicKey.repeating 1).serialize]⟩], []⟩,
    .announcement (.tokenPubkey ⟨.repeating 1, "token", "TKN", 8, maxSupply, true⟩)⟩

/-- The announcement is attached, and then a mint is sent to the RPC, stored and checked. -/
def announcedAndMinted (maxSupply amount : U128) : List Input :=
  (throughNode (announcementWith maxSupply)).map .l1 ++
    [.sendSparkSignature (Submissions.signatureFor .plain (plainMint "a" amount) (.repeating 4))
      (plainMint "a" amount), .newSparkTx, .checkSparkTxs [plainMint "a" amount] none]

/-- With its bytes reversed, a cap of ten admits a mint of a thousand. -/
theorem minted_over_cap :
    ¬ (runFrom (step .plain) new (announcedAndMinted 10 1000)).OneCap .plain := by
  intro one
  have bounded := one.bounded (.repeating 1) 10 (by decide +kernel) (by decide +kernel)
  revert bounded
  decide +kernel

theorem minted_below_cap :
    AllSteps (step .plain) (OneLayerEach .plain) new (announcedAndMinted Submissions.limit 1000) ∧
      (runFrom (step .plain) new (announcedAndMinted Submissions.limit 1000)).OneCap .plain := by
  have run : AllSteps (step .plain) (OneLayerEach .plain) new
      (announcedAndMinted Submissions.limit 1000) := by
    decide +kernel
  exact ⟨run, oneCap_of_oneLayerEach _ run⟩

end LayeredNode

end Lrc20.Node
