import Lrc20.Node.Ledger
import Lrc20.TxCheck.Coverage

/-! Frozen outputs: the freeze column of the proofs, against the freezes that were accepted. The
toggle is a side effect of the check, so the accepted transactions are watched along the run. -/

open Lrc20.Storage Lrc20.TxAttach Lrc20.TxCheck Runs L1Tables

namespace Lrc20

open Lrc20Transaction

variable {freeze : TxFreezeAnnouncement} {tx : Lrc20Transaction}

def Lrc20Transaction.outputFreeze (tx : Lrc20Transaction) : Option TxFreezeAnnouncement :=
  match tx.txType with
  | .announcement (.txFreeze freeze) => some freeze
  | _ => none

theorem Lrc20Transaction.outputFreeze_eq_some :
    tx.outputFreeze = some freeze ↔ tx.txType = .announcement (.txFreeze freeze) := by
  unfold outputFreeze
  split
  case h_1 found kind => rw [kind]; simp
  case h_2 other => exact iff_of_false nofun (other freeze)

namespace Storage.L1Tables

/-- The token that an output holds, as the stored transaction says. -/
def heldToken (tables : L1Tables) (outpoint : OutPoint) : Option TokenPubkey :=
  (tables.l1Transactions.lookup outpoint.txid).bind fun row =>
    (row.rawTx.outputs.lookup outpoint.vout).map fun proof => proof.receipt.tokenPubkey

theorem isProofFrozen_eq (tables : L1Tables) (outpoint : OutPoint) :
    tables.isProofFrozen outpoint =
      ((tables.proofs.lookup outpoint).map ProofRow.isFrozen).getD false := by
  unfold isProofFrozen
  cases tables.proofs.lookup outpoint <;> rfl

/-- The spend and freeze columns of the stored proofs stay. -/
def SameColumns (tables tables' : L1Tables) : Prop :=
  ∀ outpoint row, tables.proofs.lookup outpoint = some row →
    tables'.proofs.lookup outpoint = some row

end Storage.L1Tables

namespace Node

/-- The distinct accepted freezes of an output by the owner of a token. -/
def freezeCount (accepted : List Lrc20Transaction) (outpoint : OutPoint) (token : TokenPubkey) :
    Nat :=
  ((accepted.filter fun tx => tx.outputFreeze = some ⟨token, outpoint⟩).map
    Lrc20Transaction.txid).toFinset.card

/-- No accepted freeze is of an output of this transaction. -/
def NotFrozenYet (accepted : List Lrc20Transaction) (txid : Txid) : Prop :=
  ∀ old ∈ accepted, ∀ freeze ∈ old.outputFreeze, freeze.outpoint.txid ≠ txid

instance (accepted : List Lrc20Transaction) (txid : Txid) :
    Decidable (NotFrozenYet accepted txid) :=
  inferInstanceAs (Decidable (∀ old ∈ accepted, ∀ freeze ∈ old.outputFreeze, _))

/-- The outputs of stored transactions have proofs, and these are frozen by the accepted freezes
of the token they hold. -/
structure FrozenByAccepted (accepted : List Lrc20Transaction) (tables : L1Tables) : Prop where
  proved : ∀ outpoint, tables.heldToken outpoint ≠ none → tables.proofs.lookup outpoint ≠ none
  frozen : ∀ outpoint, tables.isProofFrozen outpoint = true ↔
    ∃ token ∈ tables.heldToken outpoint, Odd (freezeCount accepted outpoint token)

/-! ### Counting -/

section Counting

variable {accepted : List Lrc20Transaction} {outpoint : OutPoint} {token : TokenPubkey}
  {tx : Lrc20Transaction}

theorem freezeCount_of_notFrozenYet (unfrozen : NotFrozenYet accepted outpoint.txid)
    (token : TokenPubkey) : freezeCount accepted outpoint token = 0 := by
  have none : (accepted.filter fun tx => tx.outputFreeze = some ⟨token, outpoint⟩) = [] := by
    apply List.filter_eq_nil_iff.mpr
    intro old mem names
    exact unfrozen old mem _ (of_decide_eq_true names) rfl
  unfold freezeCount
  rw [none]
  rfl

theorem freezeCount_append_other (other : tx.outputFreeze ≠ some ⟨token, outpoint⟩) :
    freezeCount (accepted ++ [tx]) outpoint token = freezeCount accepted outpoint token := by
  unfold freezeCount
  rw [List.filter_append, List.filter_singleton, decide_eq_false other]
  simp

theorem freezeCount_append_self (names : tx.outputFreeze = some ⟨token, outpoint⟩)
    (first : ∀ old ∈ accepted, old.txid = tx.txid → old.outputFreeze = none) :
    freezeCount (accepted ++ [tx]) outpoint token = freezeCount accepted outpoint token + 1 := by
  have fresh : tx.txid ∉ ((accepted.filter fun tx => tx.outputFreeze = some ⟨token, outpoint⟩).map
      Lrc20Transaction.txid).toFinset := by
    intro mem
    obtain ⟨old, kept, same⟩ := List.mem_map.mp (List.mem_toFinset.mp mem)
    obtain ⟨isOld, isFreeze⟩ := List.mem_filter.mp kept
    cases (first old isOld same).symm.trans (of_decide_eq_true isFreeze)
  unfold freezeCount
  rw [List.filter_append, List.filter_singleton, decide_eq_true names, List.map_append,
    List.toFinset_append]
  simp only [cond_true, List.map_cons, List.map_nil, List.toFinset_cons, List.toFinset_nil,
    insert_empty_eq, Finset.union_singleton]
  exact Finset.card_insert_of_notMem fresh

end Counting

/-! ### What each write does to the freeze column -/

section Writes

variable {accepted : List Lrc20Transaction} {tables tables' : L1Tables} {tx : Lrc20Transaction}

theorem heldToken_of_rawTx (rows : ∀ txid, (tables'.l1Transactions.lookup txid).map L1Row.rawTx =
      (tables.l1Transactions.lookup txid).map L1Row.rawTx) (outpoint : OutPoint) :
    tables'.heldToken outpoint = tables.heldToken outpoint := by
  have reads : ∀ tables : L1Tables, tables.heldToken outpoint =
      ((tables.l1Transactions.lookup outpoint.txid).map L1Row.rawTx).bind fun tx =>
        (tx.outputs.lookup outpoint.vout).map fun proof => proof.receipt.tokenPubkey := by
    intro tables
    unfold heldToken
    cases tables.l1Transactions.lookup outpoint.txid <;> rfl
  rw [reads, reads, rows]

section

variable (state : FrozenByAccepted accepted tables)
include state

theorem FrozenByAccepted.of_same
    (rows : ∀ txid, (tables'.l1Transactions.lookup txid).map L1Row.rawTx =
      (tables.l1Transactions.lookup txid).map L1Row.rawTx)
    (proofs : tables'.proofs = tables.proofs) : FrozenByAccepted accepted tables' := by
  have held := heldToken_of_rawTx rows
  constructor
  · intro outpoint
    rw [held, proofs]
    exact state.proved outpoint
  · intro outpoint
    rw [held, isProofFrozen_eq, proofs, ← isProofFrozen_eq]
    exact state.frozen outpoint

theorem FrozenByAccepted.delete (txid : Txid) :
    FrozenByAccepted accepted (tables.deleteLrc20Transaction txid) := by
  have held : ∀ outpoint, (tables.deleteLrc20Transaction txid).heldToken outpoint =
      if outpoint.txid = txid then none else tables.heldToken outpoint := by
    intro outpoint
    unfold heldToken
    rw [lookup_deleteLrc20Transaction]
    split <;> rfl
  constructor
  · intro outpoint
    rw [held, proofs_deleteLrc20Transaction]
    split
    · exact fun stored => absurd rfl stored
    · exact state.proved outpoint
  · intro outpoint
    rw [held, isProofFrozen_eq, proofs_deleteLrc20Transaction]
    split
    · exact iff_of_false nofun (fun ⟨_, held, _⟩ => nomatch held)
    · rw [← isProofFrozen_eq]
      exact state.frozen outpoint

/-- A transaction of which no output is frozen yet may be stored, also once more. -/
theorem FrozenByAccepted.insert {now : Nat}
    (inserted : tables.insertLrc20Transaction now tx = .ok tables')
    (unfrozen : NotFrozenYet accepted tx.txid) : FrozenByAccepted accepted tables' := by
  have after := inserted_of_insertLrc20Transaction inserted
  have linked := frozen_linkInputs (tables.upsertRow now tx) tx
  have heldOther : ∀ outpoint : OutPoint, outpoint.txid ≠ tx.txid →
      tables'.heldToken outpoint = tables.heldToken outpoint := by
    intro outpoint different
    unfold heldToken
    rw [after.lookup_ne different]
  constructor
  · intro outpoint held
    rw [proofs_of_insert inserted]
    split
    case isTrue => exact nofun
    case isFalse apart =>
      intro missing
      have kept := linked outpoint
      rw [missing] at kept
      have absent : tables.proofs.lookup outpoint = none := Option.map_eq_none_iff.mp kept.symm
      by_cases own : outpoint.txid = tx.txid
      · -- Every output of the transaction gets a proof.
        obtain ⟨timestamp, self⟩ := after.lookup_self
        unfold heldToken at held
        rw [own, self] at held
        apply held
        show (tx.outputs.lookup outpoint.vout).map _ = none
        rw [Option.map_eq_none_iff, List.lookup_eq_none_iff]
        intro entry mem
        rw [bne_iff_ne]
        intro same
        exact apart ⟨own, List.mem_map.mpr ⟨entry, mem, same.symm⟩⟩
      · exact state.proved outpoint (heldOther outpoint own ▸ held) absent
  · intro outpoint
    rw [isProofFrozen_eq, proofs_of_insert inserted]
    by_cases own : outpoint.txid = tx.txid
    · have none : ∀ token, ¬ Odd (freezeCount accepted outpoint token) := by
        intro token
        rw [freezeCount_of_notFrozenYet (own ▸ unfrozen)]
        decide
      refine iff_of_false ?_ (fun ⟨token, _, odd⟩ => none token odd)
      split
      · exact nofun
      · rw [linked]
        intro frozen
        obtain ⟨token, -, odd⟩ := (state.frozen outpoint).mp
          ((isProofFrozen_eq tables outpoint).trans frozen)
        exact none token odd
    · rw [if_neg fun both => own both.1, linked, heldOther outpoint own]
      exact (Bool.eq_iff_iff.mp (isProofFrozen_eq tables outpoint)).symm.trans
        (state.frozen outpoint)

/-- A freeze that is accepted for the first time, of a proof that holds its token or of none. -/
theorem FrozenByAccepted.toggle (kind : tx.outputFreeze = some freeze)
    (first : ∀ old ∈ accepted, old.txid = tx.txid → old.outputFreeze = none)
    (holds : (tables.proofs.lookup freeze.outpoint).isSome →
      tables.heldToken freeze.outpoint = some freeze.tokenPubkey) :
    FrozenByAccepted (accepted ++ [tx]) (tables.toggleProofFreeze freeze.outpoint) := by
  have held : ∀ outpoint, (tables.toggleProofFreeze freeze.outpoint).heldToken outpoint =
      tables.heldToken outpoint := by
    obtain ⟨proofs, only⟩ := onlyProofs_toggleProofFreeze tables freeze.outpoint
    rw [only]
    exact fun _ => rfl
  have proofs := proofs_toggleProofFreeze tables freeze.outpoint
  constructor
  · intro outpoint
    rw [held, proofs]
    split
    · exact fun stored missing =>
        state.proved outpoint stored (Option.map_eq_none_iff.mp missing)
    · exact state.proved outpoint
  · intro outpoint
    rw [held, isProofFrozen_eq, proofs]
    by_cases same : outpoint = freeze.outpoint
    · rw [if_pos same]
      cases found : tables.proofs.lookup outpoint with
      | none =>
        have unheld : tables.heldToken outpoint = none := by
          by_contra stored
          exact state.proved outpoint stored found
        rw [unheld]
        exact iff_of_false nofun (fun ⟨_, held, _⟩ => nomatch held)
      | some row =>
        have token : tables.heldToken outpoint = some freeze.tokenPubkey := by
          rw [same]
          exact holds (by rw [← same, found]; rfl)
        have before := state.frozen outpoint
        rw [isProofFrozen_eq, found, token] at before
        have counted : freezeCount (accepted ++ [tx]) outpoint freeze.tokenPubkey =
            freezeCount accepted outpoint freeze.tokenPubkey + 1 := by
          apply freezeCount_append_self ?_ first
          rw [kind, same]
        simp only [Option.map_some, Option.getD_some, Option.mem_def, Option.some.injEq,
          exists_eq_left'] at before ⊢
        rw [token]
        simp only [Option.some.injEq, exists_eq_left', counted, Nat.odd_add_one, ← before,
          Bool.not_eq_true']
        exact Bool.eq_false_iff
    · rw [if_neg same, ← isProofFrozen_eq, state.frozen outpoint]
      have other : ∀ token, tx.outputFreeze ≠ some ⟨token, outpoint⟩ := by
        intro token names
        obtain rfl := Option.some.inj (kind.symm.trans names)
        exact same rfl
      simp only [freezeCount_append_other (other _)]

theorem FrozenByAccepted.append (other : tx.outputFreeze = none) :
    FrozenByAccepted (accepted ++ [tx]) tables := by
  refine ⟨state.proved, fun outpoint => ?_⟩
  rw [state.frozen outpoint]
  have unnamed : ∀ token, tx.outputFreeze ≠ some ⟨token, outpoint⟩ := by
    intro token names
    cases other.symm.trans names
  simp only [freezeCount_append_other (unnamed _)]

end

end Writes

/-! ### The node with the transactions it has accepted -/

/-- The node, and the transactions that passed their full check, which the source does not keep. -/
structure Watched where
  node : L1Node
  accepted : List Lrc20Transaction

namespace Watched

def new : Watched := ⟨L1Node.new, []⟩

variable (prims : Primitives)

/-- What one turn of the full check accepts. -/
def acceptedBy (client : BitcoinClient) (now : Nat) (state : FullChecking)
    (tx : Lrc20Transaction) : List Lrc20Transaction :=
  if state.failed then []
  else match checkLrc20Transaction prims client now state.ledger.tables state.spark tx with
    | .ok (_, _, .valid) => [tx]
    | _ => []

def checkNextTx (client : BitcoinClient) (now : Nat) (state : FullChecking × List Lrc20Transaction)
    (tx : Lrc20Transaction) : FullChecking × List Lrc20Transaction :=
  (FullChecking.checkNextTx prims client now state.1 tx,
    state.2 ++ acceptedBy prims client now state.1 tx)

def step (watched : Watched) (input : L1Node.Input) : Watched where
  node := L1Node.step prims watched.node input
  accepted := match input with
    | .checker client now =>
      match watched.node.toChecker with
      | .fullCheck txs :: _ => (runFrom (checkNextTx prims client now)
          (watched.node.startChecking, watched.accepted) txs).2
      | _ => watched.accepted
    | _ => watched.accepted

/-! The order in which freezes have to come. -/

/-- A freeze is checked once, and what it freezes holds its token, if it is there. An issue is
checked before its outputs are frozen. -/
def ChecksInOrder (state : FullChecking × List Lrc20Transaction) (tx : Lrc20Transaction) : Prop :=
  (∀ freeze ∈ tx.outputFreeze, (∀ old ∈ state.2, old.txid = tx.txid → old.outputFreeze = none) ∧
    ((state.1.ledger.tables.proofs.lookup freeze.outpoint).isSome →
      state.1.ledger.tables.heldToken freeze.outpoint = some freeze.tokenPubkey)) ∧
  (tx.txType.isIssue → NotFrozenYet state.2 tx.txid)

/-- The controller would store the transaction: it is unknown, or an issue over an announcement or
over a rejected issue. -/
def Replaces (tables : L1Tables) (tx : Lrc20Transaction) : Prop :=
  tables.l1Transactions.lookup tx.txid = none ∨
    tx.txType.isIssue ∧ ∃ row ∈ tables.l1Transactions.lookup tx.txid,
      row.rawTx.txType.isAnnouncement ∨ row.status = .invalidIssue

/-- A transaction is stored before its outputs are frozen, and checked in order. -/
def InOrder (watched : Watched) : L1Node.Input → Prop
  | .newLrc20Txs txs _ _ => ∀ tx ∈ txs, Replaces watched.node.ledger.tables tx →
      NotFrozenYet watched.accepted tx.txid
  | .checker client now =>
    match watched.node.toChecker with
    | .fullCheck txs :: _ => AllSteps (checkNextTx prims client now) ChecksInOrder
        (watched.node.startChecking, watched.accepted) txs
    | _ => True
  | _ => True

section Decidable

instance (state : FullChecking × List Lrc20Transaction) (tx : Lrc20Transaction) :
    Decidable (ChecksInOrder state tx) :=
  inferInstanceAs (Decidable ((∀ freeze ∈ tx.outputFreeze, _ ∧ _) ∧ (_ → _)))

instance (tables : L1Tables) (tx : Lrc20Transaction) : Decidable (Replaces tables tx) :=
  inferInstanceAs (Decidable (_ ∨ _ ∧ ∃ row ∈ tables.l1Transactions.lookup tx.txid, _))

instance (watched : Watched) : (input : L1Node.Input) → Decidable (watched.InOrder prims input)
  | .newLrc20Txs txs _ _ => inferInstanceAs (Decidable (∀ tx ∈ txs,
      Replaces watched.node.ledger.tables tx → NotFrozenYet watched.accepted tx.txid))
  | .checker client now =>
    match inbox : watched.node.toChecker with
    | .fullCheck txs :: _ => decidable_of_iff (AllSteps (checkNextTx prims client now)
        ChecksInOrder (watched.node.startChecking, watched.accepted) txs)
        (by simp [InOrder, inbox])
    | [] => .isTrue (by simp [InOrder, inbox])
    | .isolatedCheck _ :: _ => .isTrue (by simp [InOrder, inbox])
  | .controller _ | .graph _ | .confirmator | .mined _ | .confirmed _ | .reorganized _
  | .unconfirmed _ | .cleanup .. | .spark _ | .exitsReady _ | .exitsOutdated _ | .restart =>
    .isTrue trivial

end Decidable

variable {prims} {accepted : List Lrc20Transaction} {client : BitcoinClient} {now : Nat}
  {tx : Lrc20Transaction} {txs : List Lrc20Transaction} {node : L1Node}

theorem fst_runFrom (txs : List Lrc20Transaction) (state : FullChecking × List Lrc20Transaction) :
    (runFrom (checkNextTx prims client now) state txs).1 =
      runFrom (FullChecking.checkNextTx prims client now) state.1 txs :=
  (List.foldl_hom Prod.fst fun _ _ => rfl).symm

/-- A turn of the full check writes nothing and accepts nothing, or accepts what passes. -/
theorem checkNextTx_cases {client : BitcoinClient} {now : Nat}
    (state : FullChecking × List Lrc20Transaction) (tx : Lrc20Transaction) :
    ((checkNextTx prims client now state tx).1.ledger = state.1.ledger ∧
      (checkNextTx prims client now state tx).2 = state.2) ∨
    ∃ tables, Left prims client now state.1.ledger.tables tx tables .valid ∧
      (checkNextTx prims client now state tx).1.ledger.tables = tables ∧
      (checkNextTx prims client now state tx).2 = state.2 ++ [tx] := by
  unfold checkNextTx acceptedBy FullChecking.checkNextTx
  cases state.1.failed with
  | true => exact .inl ⟨rfl, List.append_nil _⟩
  | false =>
    cases checked : checkLrc20Transaction prims client now state.1.ledger.tables state.1.spark
        tx with
    | error failure => exact .inl ⟨rfl, List.append_nil _⟩
    | ok found =>
      obtain ⟨tables, spark, verdict⟩ := found
      have left := checkLrc20Transaction_eq_ok checked
      cases verdict with
      | valid => exact .inr ⟨tables, left, L1Node.passed_tables, rfl⟩
      | invalid | waiting =>
        cases left
        exact .inl ⟨rfl, List.append_nil _⟩

/-- Every accepted freeze has an input of the owner its token had at the check. -/
def Signed (prims : Primitives) (accepted : List Lrc20Transaction) : Prop :=
  ∀ tx ∈ accepted, ∀ freeze ∈ tx.outputFreeze, ∃ client tables,
    hasOwnerInput prims client tables tx freeze.tokenPubkey = .ok true

theorem Signed.append (signed : Signed prims accepted)
    (own : ∀ freeze ∈ tx.outputFreeze, ∃ client tables,
      hasOwnerInput prims client tables tx freeze.tokenPubkey = .ok true) :
    Signed prims (accepted ++ [tx]) := by
  intro other mem
  rcases List.mem_append.mp mem with earlier | last
  · exact signed other earlier
  · exact List.mem_singleton.mp last ▸ own

/-- The invariant of the run, over the tables and what is accepted so far. -/
structure Tracked (prims : Primitives) (tables : L1Tables) (accepted : List Lrc20Transaction) :
    Prop where
  frozen : FrozenByAccepted accepted tables
  signed : Signed prims accepted

theorem checkNextTx_tracked {state : FullChecking × List Lrc20Transaction}
    (tracked : Tracked prims state.1.ledger.tables state.2) (inOrder : ChecksInOrder state tx) :
    Tracked prims (checkNextTx prims client now state tx).1.ledger.tables
      (checkNextTx prims client now state tx).2 := by
  obtain ⟨frozen, signed⟩ := tracked
  rcases @checkNextTx_cases prims client now state tx with
    ⟨same, unchanged⟩ | ⟨tables, left, written, accepted⟩
  · rw [same, unchanged]
    exact ⟨frozen, signed⟩
  · rw [written, accepted]
    have other {tables : L1Tables} (frozen : FrozenByAccepted state.2 tables)
        (noFreeze : ∀ freeze, tx.outputFreeze ≠ some freeze) :
        Tracked prims tables (state.2 ++ [tx]) :=
      ⟨frozen.append (Option.eq_none_iff_forall_ne_some.mpr noFreeze),
        signed.append fun freeze found => absurd found (noFreeze freeze)⟩
    cases left with
    | nothing _ noFreeze _ =>
      exact other frozen fun freeze kind => noFreeze rfl freeze (outputFreeze_eq_some.mp kind)
    | freeze freeze kind owned =>
      have own := outputFreeze_eq_some.mpr kind
      obtain ⟨first, holds⟩ := inOrder.1 freeze own
      refine ⟨frozen.toggle own first holds, signed.append ?_⟩
      intro other isOther
      obtain rfl := Option.some.inj (own.symm.trans isOther)
      exact ⟨client, state.1.ledger.tables, owned⟩
    | issue tables kind inserted =>
      refine other (frozen.insert inserted (inOrder.2 kind)) fun freeze isFreeze => ?_
      rw [outputFreeze_eq_some.mp isFreeze] at kind
      cases kind

/-- The controller stores new transactions before their outputs are frozen. -/
theorem storeNewTxs_frozen {sender : Option SocketAddr} {ledger : Ledger}
    (frozen : FrozenByAccepted accepted ledger.tables)
    (inOrder : ∀ tx ∈ txs, Replaces ledger.tables tx → NotFrozenYet accepted tx.txid) :
    FrozenByAccepted accepted (L1Node.storeNewTxs prims now sender txs ledger).1.tables := by
  -- A row that is not as at the start was written by this loop, before any freeze of it.
  refine (L1Node.storeNewTxs_keeps (I := fun current =>
    FrozenByAccepted accepted current.tables ∧ ∀ txid,
      current.tables.l1Transactions.lookup txid ≠ ledger.tables.l1Transactions.lookup txid →
        NotFrozenYet accepted txid) ?_ ?_ ⟨frozen, fun _ changed => absurd rfl changed⟩).1
  · rintro current _ ⟨inv, written⟩ ⟨⟨mempool, rfl⟩, -⟩
    exact ⟨inv.of_same (fun _ => rfl) rfl, written⟩
  · intro tx mem current current' existing inv found news inserted
    obtain ⟨tables, stored, rfl⟩ := L1Node.insert_eq_ok inserted
    have unfrozen : NotFrozenYet accepted tx.txid := by
      by_cases same : current.tables.l1Transactions.lookup tx.txid =
          ledger.tables.l1Transactions.lookup tx.txid
      · apply inOrder tx mem
        unfold Replaces
        rw [← same]
        rcases L1Node.row_of_isNews found news with unknown | ⟨row, held, isIssue, kinds⟩
        · exact .inl unknown
        · refine .inr ⟨isIssue, row, held, ?_⟩
          rcases kinds with ⟨-, invalid⟩ | ⟨issue, kind⟩
          · exact .inr invalid
          · exact .inl (by rw [kind]; rfl)
      · exact inv.2 tx.txid same
    refine ⟨inv.1.insert stored unfrozen, fun txid changed => ?_⟩
    by_cases own : txid = tx.txid
    · exact own ▸ unfrozen
    · apply inv.2 txid
      rw [← (inserted_of_insertLrc20Transaction stored).lookup_ne own]
      exact changed

/-- The steps other than a check and a delivery write no freeze column but by a deletion. -/
theorem step_frozen {input : L1Node.Input} (frozen : FrozenByAccepted accepted node.ledger.tables)
    (noNews : ∀ txs sender now, input ≠ .newLrc20Txs txs sender now)
    (noCheck : ∀ client now txs rest, input = .checker client now →
      node.toChecker ≠ .fullCheck txs :: rest) :
    FrozenByAccepted accepted (L1Node.step prims node input).ledger.tables := by
  refine L1Node.step_keeps_tables ?mempool ?status (fun txid inv => inv.delete txid) ?insert ?check
    frozen
  case mempool =>
    rintro tables _ inv ⟨⟨mempool, rfl⟩, -⟩
    exact inv.of_same (fun _ => rfl) rfl
  case status =>
    intro tables txid status inv
    exact inv.of_same (fun _ => L1Node.rawTx_setLrc20TxStatus _ _ _ _)
      (proofs_setLrc20TxStatus _ _ _)
  case insert => exact fun txs sender now same => absurd same (noNews txs sender now)
  case check =>
    exact fun client now txs rest same inbox => absurd inbox (noCheck client now txs rest same)

theorem step_tracked (watched : Watched) (input : L1Node.Input)
    (tracked : Tracked prims watched.node.ledger.tables watched.accepted)
    (inOrder : watched.InOrder prims input) :
    Tracked prims (watched.step prims input).node.ledger.tables
      (watched.step prims input).accepted := by
  cases input with
  | newLrc20Txs txs sender now =>
    exact ⟨storeNewTxs_frozen tracked.frozen inOrder, tracked.signed⟩
  | checker client now =>
    have idle : (∀ txs rest, watched.node.toChecker ≠ .fullCheck txs :: rest) →
        (watched.step prims (.checker client now)).accepted = watched.accepted →
        Tracked prims (watched.step prims (.checker client now)).node.ledger.tables
          (watched.step prims (.checker client now)).accepted := by
      intro noCheck accepted
      rw [accepted]
      exact ⟨step_frozen tracked.frozen (fun _ _ _ => nofun) (fun _ _ txs rest _ => noCheck txs rest),
        tracked.signed⟩
    cases inbox : watched.node.toChecker with
    | nil => exact idle (by simp [inbox]) (by simp [step, inbox])
    | cons message rest =>
      cases message with
      | isolatedCheck txs => exact idle (by simp [inbox]) (by simp [step, inbox])
      | fullCheck txs =>
        have accepted : (watched.step prims (.checker client now)).accepted =
            (runFrom (checkNextTx prims client now)
              (watched.node.startChecking, watched.accepted) txs).2 := by
          simp [step, inbox]
        rw [accepted]
        show Tracked prims (L1Node.step prims watched.node _).ledger.tables _
        rw [(L1Node.step_fullCheck inbox).1]
        have run : AllSteps (checkNextTx prims client now) ChecksInOrder
            (watched.node.startChecking, watched.accepted) txs := by
          simpa only [InOrder, inbox] using inOrder
        have final := run.invariant (I := fun state => Tracked prims state.1.ledger.tables state.2)
          (fun state tx inv ordered => checkNextTx_tracked inv ordered) tracked
        rw [fst_runFrom] at final
        exact final
  | _ => exact ⟨step_frozen tracked.frozen (by simp) (by simp), tracked.signed⟩

/-! ### What a repetition changes -/

section Repetition

variable {accepted : List Lrc20Transaction} {tables tables' : L1Tables} {tx : Lrc20Transaction}
  {bitcoinTx : Transaction}

/-- No output of the transaction is frozen by an accepted freeze or recorded as spent, and the
proofs that a transfer spends are recorded as spent by it. -/
structure Untouched (accepted : List Lrc20Transaction) (tables : L1Tables)
    (tx : Lrc20Transaction) : Prop where
  unfrozen : NotFrozenYet accepted tx.txid
  unspent : ∀ entry ∈ tx.outputs, ∀ row ∈ tables.proofs.lookup ⟨tx.txid, entry.1⟩,
    row.spend = none
  linked : ∀ inputProofs outputProofs, tx.txType = .transfer inputProofs outputProofs →
    ∀ index ∈ inputProofs.keys, ∀ input ∈ tx.bitcoinTx.input[index]?,
      ∀ row ∈ tables.proofs.lookup input.previousOutput, row.spend = some (tx.txid, index)

/-- A proof that is recorded as spent by the input already. -/
theorem markSpent_linked {index : Nat}
    (linked : ∀ input ∈ bitcoinTx.input[index]?,
      ∀ row ∈ tables.proofs.lookup input.previousOutput, row.spend = some (bitcoinTx.txid, index))
    (outpoint : OutPoint) :
    (markSpent bitcoinTx tables index).proofs.lookup outpoint = tables.proofs.lookup outpoint := by
  unfold markSpent
  cases vin : bitcoinTx.input[index]? with
  | none => rfl
  | some input =>
    dsimp only
    cases found : tables.proofs.lookup input.previousOutput with
    | none => rfl
    | some row =>
      have spent := linked input vin row found
      by_cases same : outpoint = input.previousOutput
      · subst same
        rw [found, ← spent]
        exact AList.lookup_insert _
      · exact AList.lookup_insert_ne same

theorem foldl_markSpent_linked (indices : List Nat) :
    ∀ {tables : L1Tables}, (∀ index ∈ indices, ∀ input ∈ bitcoinTx.input[index]?,
      ∀ row ∈ tables.proofs.lookup input.previousOutput, row.spend = some (bitcoinTx.txid, index)) →
      ∀ outpoint, (indices.foldl (markSpent bitcoinTx) tables).proofs.lookup outpoint =
        tables.proofs.lookup outpoint := by
  induction indices with
  | nil => exact fun _ _ => rfl
  | cons index rest ih =>
    intro tables linked outpoint
    have same := markSpent_linked (linked index (by simp))
    rw [List.foldl_cons, ih ?_, same]
    intro other mem input isInput row found
    rw [same] at found
    exact linked other (by simp [mem]) input isInput row found

theorem sameColumns_insert (frozen : FrozenByAccepted accepted tables)
    (untouched : Untouched accepted tables tx)
    (inserted : tables.insertLrc20Transaction now tx = .ok tables') :
    tables.SameColumns tables' := by
  intro outpoint row found
  rw [proofs_of_insert inserted]
  split
  case isTrue own =>
    obtain ⟨own, mem⟩ := own
    obtain ⟨entry, isOutput, index⟩ := List.mem_map.mp mem
    have place : outpoint = ⟨tx.txid, entry.1⟩ := by
      rw [← own, index]
    have unspent := untouched.unspent entry isOutput row (place ▸ found)
    have thawed : row.isFrozen = false := by
      rw [Bool.eq_false_iff]
      intro isFrozen
      have held := (frozen.frozen outpoint).mp (by
        rw [isProofFrozen_eq, found]
        exact isFrozen)
      obtain ⟨token, -, odd⟩ := held
      rw [freezeCount_of_notFrozenYet (own ▸ untouched.unfrozen)] at odd
      exact absurd odd (by decide)
    rw [← unspent, ← thawed]
  case isFalse =>
    have linked : ((tables.upsertRow now tx).linkInputs tx).proofs.lookup outpoint =
        tables.proofs.lookup outpoint := by
      unfold linkInputs
      cases kind : tx.txType with
      | transfer inputProofs outputProofs =>
        have links : ∀ index ∈ inputProofs.keys, ∀ input ∈ tx.bitcoinTx.input[index]?,
            ∀ row ∈ (tables.upsertRow now tx).proofs.lookup input.previousOutput,
              row.spend = some (tx.bitcoinTx.txid, index) :=
          untouched.linked inputProofs outputProofs kind
        exact foldl_markSpent_linked inputProofs.keys links outpoint
      | _ => rfl
    rw [linked]
    exact found

end Repetition

/-- In every run in which freezes and what they freeze come in order, an output is frozen exactly
if the number of distinct accepted freezes by the owner of the token it holds is odd, and storing
or checking an untouched transaction again leaves the spend and freeze columns of all proofs. -/
theorem output_frozen_iff_odd_accepted (prims : Primitives) (inputs : List L1Node.Input)
    (run : AllSteps (step prims) (InOrder prims) new inputs) :
    (runFrom (step prims) new inputs).node = runFrom (L1Node.step prims) L1Node.new inputs ∧
    (∀ outpoint, (runFrom (step prims) new inputs).node.ledger.tables.isProofFrozen outpoint = true ↔
      ∃ token ∈ (runFrom (step prims) new inputs).node.ledger.tables.heldToken outpoint,
        Odd (freezeCount (runFrom (step prims) new inputs).accepted outpoint token)) ∧
    Signed prims (runFrom (step prims) new inputs).accepted ∧
    ∀ tx, Untouched (runFrom (step prims) new inputs).accepted
        (runFrom (step prims) new inputs).node.ledger.tables tx →
      (∀ now tables', (runFrom (step prims) new inputs).node.ledger.tables.insertLrc20Transaction
          now tx = .ok tables' →
        (runFrom (step prims) new inputs).node.ledger.tables.SameColumns tables') ∧
      ∀ client now spark tables' spark' verdict, tx.outputFreeze = none →
        checkLrc20Transaction prims client now (runFrom (step prims) new inputs).node.ledger.tables
          spark tx = .ok (tables', spark', verdict) →
        (runFrom (step prims) new inputs).node.ledger.tables.SameColumns tables' := by
  have start : Tracked prims new.node.ledger.tables new.accepted := by
    refine ⟨⟨fun _ held => absurd rfl held, fun outpoint => ?_⟩, nofun⟩
    exact iff_of_false nofun (fun ⟨_, held, _⟩ => nomatch held)
  have tracked := run.invariant (I := fun watched : Watched =>
    Tracked prims watched.node.ledger.tables watched.accepted) step_tracked start
  refine ⟨?_, tracked.frozen.frozen, tracked.signed, fun tx untouched => ?_⟩
  · -- Watching changes nothing.
    exact (List.foldl_hom Watched.node fun _ _ => rfl).symm
  refine ⟨fun now tables' inserted => sameColumns_insert tracked.frozen untouched inserted, ?_⟩
  intro client now spark tables' spark' verdict noFreeze checked
  cases checkLrc20Transaction_eq_ok checked with
  | nothing => exact fun _ _ found => found
  | freeze freeze kind => cases noFreeze.symm.trans (outputFreeze_eq_some.mpr kind)
  | issue tables' kind inserted => exact sameColumns_insert tracked.frozen untouched inserted

/-- The owner of the issued token freezes the output of an issue of seven, or frees it. -/
def outputFreezeTx (txid : Txid) : Lrc20Transaction :=
  ⟨⟨txid, [⟨⟨5, 0⟩, [], [[0x30], issuedToken.serialize]⟩], []⟩,
    .announcement (.txFreeze ⟨issuedToken, ⟨1, 1⟩⟩)⟩

def sevenToFreeze : Lrc20Transaction := issueWith 7 [7] (proofsOf 1 [7])

theorem output_frozen_iff_odd_accepted_once :
    AllSteps (step .plain) (InOrder .plain) new
        (L1Node.throughNode sevenToFreeze ++ L1Node.throughNode (outputFreezeTx 40)) ∧
      (runFrom (L1Node.step .plain) L1Node.new (L1Node.throughNode sevenToFreeze ++
        L1Node.throughNode (outputFreezeTx 40))).ledger.tables.isProofFrozen ⟨1, 1⟩ = true := by
  have run : AllSteps (step .plain) (InOrder .plain) new
      (L1Node.throughNode sevenToFreeze ++ L1Node.throughNode (outputFreezeTx 40)) := by
    decide +kernel
  obtain ⟨watched, frozen, -, -⟩ := output_frozen_iff_odd_accepted .plain _ run
  refine ⟨run, ?_⟩
  rw [← watched, frozen]
  exact ⟨issuedToken, by decide +kernel, Nat.odd_iff.mpr (by decide +kernel)⟩

/-- A freeze that is accepted before its output is known is lost, and one that is checked again
after a restart is undone. -/
theorem freeze_lost_or_undone :
    ((runFrom (step .plain) new (L1Node.throughNode (outputFreezeTx 40) ++
        L1Node.throughNode sevenToFreeze)).node.ledger.tables.isProofFrozen ⟨1, 1⟩ = false ∧
      (runFrom (step .plain) new (L1Node.throughNode (outputFreezeTx 40) ++
        L1Node.throughNode sevenToFreeze)).node.ledger.tables.heldToken ⟨1, 1⟩ = some issuedToken ∧
      freezeCount (runFrom (step .plain) new (L1Node.throughNode (outputFreezeTx 40) ++
        L1Node.throughNode sevenToFreeze)).accepted ⟨1, 1⟩ issuedToken = 1) ∧
    (runFrom (step .plain) new (L1Node.throughNode sevenToFreeze ++
        (L1Node.throughNode (outputFreezeTx 40)).dropLast ++ [.restart, .confirmator,
          .confirmed [40], .controller fun _ => true,
          .checker unspentClient 0])).node.ledger.tables.isProofFrozen ⟨1, 1⟩ = false ∧
      freezeCount (runFrom (step .plain) new (L1Node.throughNode sevenToFreeze ++
        (L1Node.throughNode (outputFreezeTx 40)).dropLast ++ [.restart, .confirmator,
          .confirmed [40], .controller fun _ => true, .checker unspentClient 0])).accepted
        ⟨1, 1⟩ issuedToken = 1 := by
  decide +kernel

end Watched

end Node

end Lrc20
