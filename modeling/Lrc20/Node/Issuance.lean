import Lrc20.Lib.Totals
import Lrc20.Node.Ledger

/-! Who issues a token and how much of it: the issues that end attached, against the owner and
the cap in force when they were checked. -/

open Lrc20.Storage Lrc20.TxAttach Lrc20.TxCheck Runs Totals

namespace Lrc20

/-- The issue a transaction announces, with its proofs or without them. -/
def Lrc20Transaction.issued (tx : Lrc20Transaction) : Option IssueAnnouncement :=
  match tx.txType with
  | .issue _ announcement => some announcement
  | .announcement (.issue announcement) => some announcement
  | _ => none

def Lrc20Transaction.issuedAmount (tx : Lrc20Transaction) (token : TokenPubkey) : Nat :=
  match tx.issued with
  | some announcement => if announcement.tokenPubkey = token then announcement.amount.val else 0
  | none => 0

namespace Storage.L1Tables

/-- The caps of the attached announcements of a token. -/
def announcedCaps (tables : L1Tables) (token : TokenPubkey) : List U128 :=
  ((tables.announcementsOf token .tokenPubkey).filter tables.isAttached).filterMap fun txid =>
    (tables.tokenPubkeys.lookup txid).map TokenPubkeyRow.maxSupply

/-- The cap that `get_token_pubkey_info` reports. -/
def reportedCap (tables : L1Tables) (token : TokenPubkey) : Option U128 :=
  ((tables.getTokenPubkeyInfo token).bind TokenPubkeyInfo.announcement).map
    TokenPubkeyAnnouncement.maxSupply

/-- The attached caps of a token are the one that was reported. -/
def CapsReported (seen tables : L1Tables) (token : TokenPubkey) : Prop :=
  ∀ cap ∈ tables.announcedCaps token, seen.reportedCap token = some cap

instance (seen tables : L1Tables) (token : TokenPubkey) :
    Decidable (CapsReported seen tables token) :=
  List.decidableBAll _ (tables.announcedCaps token)

/-- What the rows issue of a token, one row left out. -/
def otherIssues (tables : L1Tables) (token : TokenPubkey) (txid : Txid) : Nat :=
  total (except txid fun _ row => row.rawTx.issuedAmount token) tables.l1Transactions

end Storage.L1Tables

namespace Node

def madeUnder (token : TokenPubkey) (cap : U128) (record : CheckRecord) : Bool :=
  decide (cap ∈ record.tables.announcedCaps token)

/-- The exact sum of the attached issues of a token that were checked when an announcement with
this cap was attached already. -/
def attachedIssues (ledger : Ledger) (token : TokenPubkey) (cap : U128) : Nat :=
  total (fun txid row =>
    if row.status = .attached ∧ (ledger.records.lookup txid).any (madeUnder token cap) then
      row.rawTx.issuedAmount token
    else 0) ledger.tables.l1Transactions

/-- Every attached issue has an input of the owner that was in force at its check, and no
attached cap is exceeded. -/
structure IssuesSound (prims : Primitives) (ledger : Ledger) : Prop where
  authorized : ∀ txid row issue, ledger.tables.l1Transactions.lookup txid = some row →
    row.status = .attached → row.rawTx.issued = some issue →
    ∃ record, ledger.records.lookup txid = some record ∧ record.tx = row.rawTx ∧
      hasOwnerInput prims record.client record.tables record.tx issue.tokenPubkey = .ok true
  capped : ∀ token, ∀ cap ∈ ledger.tables.announcedCaps token, cap ≠ 0 →
    attachedIssues ledger token cap ≤ cap.val

namespace L1Node

/-- With what else is stored, the issue stays below every attached cap. -/
def WithinCaps (tables : L1Tables) (txid : Txid) (issue : IssueAnnouncement) : Prop :=
  ∀ cap ∈ tables.announcedCaps issue.tokenPubkey, cap ≠ 0 →
    tables.otherIssues issue.tokenPubkey txid + issue.amount.val ≤ cap.val

-- Over the list, and not over every `u128`.
instance (tables : L1Tables) (txid : Txid) (issue : IssueAnnouncement) :
    Decidable (WithinCaps tables txid issue) :=
  List.decidableBAll _ (tables.announcedCaps issue.tokenPubkey)

/-- What `get_token_pubkey_info` reports is what is stored: the attached caps, and a supply that
counts the other issues and has room for this one in 128 bits. -/
def SupplyReported (tables : L1Tables) (txid : Txid) (issue : IssueAnnouncement) : Prop :=
  L1Tables.CapsReported tables tables issue.tokenPubkey ∧
  tables.otherIssues issue.tokenPubkey txid ≤ (tables.totalSupply issue.tokenPubkey).val ∧
  (tables.totalSupply issue.tokenPubkey).val + issue.amount.val < 2 ^ 128

instance (tables : L1Tables) (txid : Txid) (issue : IssueAnnouncement) :
    Decidable (SupplyReported tables txid issue) :=
  inferInstanceAs (Decidable (_ ∧ _ ∧ _))

/-- The full check skips an issue whose row is there, so the owner's input and the room below the
caps are asked of it. Of another issue it looks at both, so only the report is asked to be right. -/
def IssueAdmissible (prims : Primitives) (client : BitcoinClient) (state : FullChecking)
    (tx : Lrc20Transaction) : Prop :=
  ∀ issue ∈ tx.issued,
    (state.ledger.tables.getLrc20TransactionById prims tx.txid = .ok none →
      SupplyReported state.ledger.tables tx.txid issue) ∧
    (state.ledger.tables.getLrc20TransactionById prims tx.txid ≠ .ok none →
      hasOwnerInput prims client state.ledger.tables tx issue.tokenPubkey = .ok true ∧
        WithinCaps state.ledger.tables tx.txid issue)

/-- The issues a full check comes to are admissible, and an issue is marked only if its row was
not written since its check. -/
def IssuesAdmissible (prims : Primitives) (node : L1Node) (input : Input) : Prop :=
  node.MarksChecked (·.issued.isSome) input ∧ node.ChecksOnly prims (IssueAdmissible prims) input

instance (prims : Primitives) (client : BitcoinClient) (state : FullChecking)
    (tx : Lrc20Transaction) : Decidable (IssueAdmissible prims client state tx) :=
  inferInstanceAs (Decidable (∀ issue ∈ tx.issued, (_ → _) ∧ (_ → _)))

instance (prims : Primitives) (node : L1Node) (input : Input) :
    Decidable (IssuesAdmissible prims node input) :=
  inferInstanceAs (Decidable (_ ∧ _))

variable {prims : Primitives}

/-! ### The check of one issue -/

section Check

variable {client : BitcoinClient} {now : Nat} {tables : L1Tables} {tx : Lrc20Transaction}

theorem checkIssueAnnouncement_of_unknown {announcement : IssueAnnouncement}
    (unknown : tables.getLrc20TransactionById prims tx.txid = .ok none)
    (checked : checkIssueAnnouncement prims client tables tx announcement = .ok true) :
    hasOwnerInput prims client tables tx announcement.tokenPubkey = .ok true ∧
      ∀ told, (tables.getTokenPubkeyInfo announcement.tokenPubkey).bind
          TokenPubkeyInfo.announcement = some told → told.maxSupply ≠ 0 →
        tables.totalSupply announcement.tokenPubkey + announcement.amount ≤ told.maxSupply := by
  simp only [checkIssueAnnouncement, unknown, Except.mapError, bind, Except.bind,
    Option.isSome_none, Bool.false_eq_true, if_false] at checked
  cases owner : hasOwnerInput prims client tables tx announcement.tokenPubkey with
  | error failure =>
    rw [owner] at checked
    cases checked
  | ok found =>
    cases found with
    | false =>
      rw [owner] at checked
      cases checked
    | true =>
      refine ⟨rfl, ?_⟩
      rw [owner] at checked
      intro told reported capped
      obtain ⟨⟨_, supply, _⟩, found, rfl⟩ := Option.bind_eq_some_iff.mp reported
      have counted : supply = tables.totalSupply announcement.tokenPubkey := by
        unfold L1Tables.getTokenPubkeyInfo at found
        split at found
        case h_1 => cases found
        case h_2 =>
          obtain ⟨_, -, same⟩ := Option.map_eq_some_iff.mp found
          exact (congrArg TokenPubkeyInfo.totalSupply same).symm
      rw [found, counted] at checked
      simpa [pure, Except.pure, capped] using checked

/-- The comparison of the check is exact where the report is right. -/
theorem withinCaps_of_reported {issue : IssueAnnouncement}
    (unknown : tables.getLrc20TransactionById prims tx.txid = .ok none)
    (checked : checkIssueAnnouncement prims client tables tx issue = .ok true)
    (reported : SupplyReported tables tx.txid issue) : WithinCaps tables tx.txid issue := by
  obtain ⟨caps, counted, fits⟩ := reported
  intro cap attached nonzero
  obtain ⟨told, announced, rfl⟩ := Option.map_eq_some_iff.mp (caps cap attached)
  have compared := (checkIssueAnnouncement_of_unknown unknown checked).2 told announced nonzero
  have exact : (tables.totalSupply issue.tokenPubkey + issue.amount).val =
      (tables.totalSupply issue.tokenPubkey).val + issue.amount.val := by
    rw [Fin.val_add, Nat.mod_eq_of_lt fits]
  have bound := Fin.le_def.mp compared
  omega

theorem checkIssueAnnouncement_of_checked {spark spark' : SparkTables} {tables' : L1Tables}
    {issue : IssueAnnouncement} (issued : tx.issued = some issue)
    (checked : checkLrc20Transaction prims client now tables spark tx =
      .ok (tables', spark', .valid)) :
    checkIssueAnnouncement prims client tables tx issue = .ok true := by
  unfold checkLrc20Transaction at checked
  unfold Lrc20Transaction.issued at issued
  cases kind : tx.txType with
  | issue outputProofs announcement =>
    simp only [kind] at checked issued
    obtain rfl := Option.some.inj issued
    simp only [checkIssuance, bind, Except.bind, pure, Except.pure] at checked
    cases result : checkIssueAnnouncement prims client tables tx announcement with
    | error failure =>
      rw [result] at checked
      cases checked
    | ok valid =>
      cases valid with
      | true => rfl
      | false =>
        rw [result] at checked
        cases checked
  | announcement announcement =>
    simp only [kind] at checked issued
    cases announcement with
    | issue announcement =>
      obtain rfl := Option.some.inj issued
      simp only [checkAnnouncements] at checked
      obtain ⟨_, announced, ended⟩ := Outcome.map_eq_ok.mp checked
      obtain ⟨valid, result, rfl⟩ := Outcome.map_eq_ok.mp announced
      cases valid with
      | true => exact result
      | false => cases ended
    | _ => cases issued
  | transfer | sparkExit =>
    simp only [kind] at issued
    cases issued

end Check

/-! ### Records of issues -/

section Records

variable {client : BitcoinClient} {now : Nat} {state : FullChecking} {tx : Lrc20Transaction}
  {keep : CheckRecord → Bool} {ledger : Ledger} {token : TokenPubkey}

def recordAmount (keep : CheckRecord → Bool) (token : TokenPubkey) (record : CheckRecord) : Nat :=
  if keep record then record.tx.issuedAmount token else 0

/-- What the issues of a token amount to that have a record of this kind. -/
def checkedIssues (keep : CheckRecord → Bool) (ledger : Ledger) (token : TokenPubkey) : Nat :=
  total (fun _ record => recordAmount keep token record) ledger.records

def Owned (prims : Primitives) (record : CheckRecord) : Prop :=
  ∀ issue, record.tx.issued = some issue →
    hasOwnerInput prims record.client record.tables record.tx issue.tokenPubkey = .ok true

/-- The invariant of the records: each by itself, and all of them together. -/
structure RecordsSound (prims : Primitives) (ledger : Ledger) : Prop where
  owned : ∀ txid record, ledger.records.lookup txid = some record → Owned prims record
  capped : ∀ token cap, cap ≠ 0 → checkedIssues (madeUnder token cap) ledger token ≤ cap.val

theorem checkedIssues_shrink {keep : CheckRecord → Bool} {ledger ledger' : Ledger}
    (shrinks : Shrinks ledger ledger') (token : TokenPubkey) :
    checkedIssues keep ledger' token ≤ checkedIssues keep ledger token := by
  refine total_le_total fun txid => ?_
  cases found : ledger'.records.lookup txid with
  | none =>
    rw [weightAt_of_none found]
    exact Nat.zero_le _
  | some record => rw [weightAt_of_lookup found, weightAt_of_lookup (shrinks txid record found)]

theorem RecordsSound.shrink {ledger' : Ledger} (shrinks : Shrinks ledger ledger')
    (sound : RecordsSound prims ledger) : RecordsSound prims ledger' where
  owned txid record found := sound.owned txid record (shrinks txid record found)
  capped token cap nonzero :=
    Nat.le_trans (checkedIssues_shrink shrinks token) (sound.capped token cap nonzero)

/-- A record weighs no more than the row it is about. -/
theorem weightAt_record_le (agree : RecordsAgree ledger) (token : TokenPubkey) (txid : Txid) :
    weightAt (fun _ record => recordAmount keep token record) ledger.records txid ≤
      weightAt (fun _ row => row.rawTx.issuedAmount token) ledger.tables.l1Transactions txid := by
  cases found : ledger.records.lookup txid with
  | none =>
    rw [weightAt_of_none found]
    exact Nat.zero_le _
  | some record =>
    obtain ⟨row, held, rawTx⟩ := Option.map_eq_some_iff.mp (agree txid record found).2
    rw [weightAt_of_lookup found, weightAt_of_lookup held, rawTx]
    unfold recordAmount
    split
    · exact Nat.le_refl _
    · exact Nat.zero_le _

/-- An issue has an amount for its own token only. -/
theorem issued_of_recordAmount {record : CheckRecord}
    (weighs : recordAmount keep token record ≠ 0) :
    keep record = true ∧ ∃ issue, record.tx.issued = some issue ∧ issue.tokenPubkey = token ∧
      recordAmount keep token record = issue.amount.val := by
  unfold recordAmount at weighs ⊢
  split at weighs
  case isFalse => exact absurd rfl weighs
  case isTrue kept =>
    refine ⟨kept, ?_⟩
    rw [if_pos kept]
    unfold Lrc20Transaction.issuedAmount at weighs ⊢
    cases issued : record.tx.issued with
    | none =>
      rw [issued] at weighs
      exact absurd rfl weighs
    | some issue =>
      rw [issued] at weighs
      dsimp only at weighs ⊢
      split at weighs
      case isFalse => exact absurd rfl weighs
      case isTrue own => exact ⟨issue, rfl, own, if_pos own⟩

/-- A bound on the records stays when the new one fits with the rows of the others. -/
theorem checkNextTx_checkedIssues_le {bound : Nat} (agree : RecordsAgree state.ledger)
    (before : checkedIssues keep state.ledger token ≤ bound)
    (fits : ∀ tables spark, checkLrc20Transaction prims client now state.ledger.tables
        state.spark tx = .ok (tables, spark, .valid) →
      let amount := recordAmount keep token ⟨tx, client, state.ledger.tables, state.spark⟩
      amount ≠ 0 → amount + state.ledger.tables.otherIssues token tx.txid ≤ bound) :
    checkedIssues keep (FullChecking.checkNextTx prims client now state tx).ledger token ≤ bound := by
  refine checkNextTx_keeps (I := fun ledger => checkedIssues keep ledger token ≤ bound) before ?_
  intro tables spark checked
  obtain ⟨others, own⟩ := passed_spec checked
  rcases own with ⟨-, noted⟩ | ⟨-, unnoted⟩
  case inr =>
    have unchanged : Shrinks state.ledger (passed client state tx tables) :=
      fun txid record found => unnoted ▸ found
    exact Nat.le_trans (checkedIssues_shrink unchanged token) before
  case inl =>
    -- Without the new record the sum is as before; with it, the rows bound the others.
    by_cases weighs : recordAmount keep token ⟨tx, client, state.ledger.tables, state.spark⟩ = 0
    · refine Nat.le_trans (total_le_total fun txid => ?_) before
      by_cases self : txid = tx.txid
      · subst self
        rw [weightAt_of_lookup noted, weighs]
        exact Nat.zero_le _
      · unfold weightAt
        rw [(others txid self).2]
    · calc checkedIssues keep (passed client state tx tables) token
          ≤ _ + _ := total_le_add tx.txid
        _ ≤ recordAmount keep token ⟨tx, client, state.ledger.tables, state.spark⟩ +
              state.ledger.tables.otherIssues token tx.txid := by
            rw [weightAt_of_lookup noted]
            refine Nat.add_le_add_left (total_le_total fun txid => ?_) _
            by_cases self : txid = tx.txid
            · subst self
              rw [weightAt_except_self]
              exact Nat.zero_le _
            · rw [weightAt_except_ne self, weightAt_except_ne self]
              unfold weightAt
              rw [(others txid self).2]
              exact weightAt_record_le agree token txid
        _ ≤ bound := fits tables spark checked weighs

/-- An admissible issue that passes is the owner's and stays below the caps. -/
theorem owned_of_admissible {issue : IssueAnnouncement} {tables : L1Tables} {spark : SparkTables}
    (admissible : IssueAdmissible prims client state tx) (issued : tx.issued = some issue)
    (checked : checkLrc20Transaction prims client now state.ledger.tables state.spark tx =
      .ok (tables, spark, .valid)) :
    hasOwnerInput prims client state.ledger.tables tx issue.tokenPubkey = .ok true ∧
      WithinCaps state.ledger.tables tx.txid issue := by
  obtain ⟨reported, asked⟩ := admissible issue issued
  have announced := checkIssueAnnouncement_of_checked issued checked
  by_cases unknown : state.ledger.tables.getLrc20TransactionById prims tx.txid = .ok none
  · exact ⟨(checkIssueAnnouncement_of_unknown unknown announced).1,
      withinCaps_of_reported unknown announced (reported unknown)⟩
  · exact asked unknown

theorem checkNextTx_recordsSound (agree : RecordsAgree state.ledger)
    (sound : RecordsSound prims state.ledger) (admissible : IssueAdmissible prims client state tx) :
    RecordsSound prims (FullChecking.checkNextTx prims client now state tx).ledger := by
  constructor
  case capped =>
    intro token cap nonzero
    refine checkNextTx_checkedIssues_le agree (sound.capped token cap nonzero) ?_
    intro tables spark checked amount weighs
    obtain ⟨under, issue, issued, rfl, same⟩ := issued_of_recordAmount weighs
    have within := (owned_of_admissible admissible issued checked).2 cap (of_decide_eq_true under)
      nonzero
    omega
  case owned =>
    refine checkNextTx_recordsAll sound.owned fun tables spark checked issue issued => ?_
    exact (owned_of_admissible admissible issued checked).1

end Records

/-! ### Runs -/

structure IssuanceInv (prims : Primitives) (node : L1Node) : Prop where
  agree : RecordsAgree node.ledger
  attested : Attested (·.issued.isSome) node.ledger
  sound : RecordsSound prims node.ledger

theorem step_issuanceInv (node : L1Node) (input : Input) (inv : IssuanceInv prims node)
    (admissible : IssuesAdmissible prims node input) :
    IssuanceInv prims (step prims node input) := by
  refine ⟨step_recordsAgree input inv.agree, step_attested inv.attested admissible.1, ?_⟩
  have check := admissible.2.afterCheck
    (Q := fun state => RecordsAgree state.ledger ∧ RecordsSound prims state.ledger)
    ⟨inv.agree, inv.sound⟩ fun _ _ _ _ kept passes =>
      ⟨checkNextTx_recordsAgree kept.1, checkNextTx_recordsSound kept.1 kept.2 passes⟩
  exact step_keeps_of_shrinks (fun _ _ shrinks sound => sound.shrink shrinks)
    (fun client now txs rest same inbox => (check client now txs rest same inbox).2) inv.sound

theorem IssuanceInv.issuesSound {node : L1Node} (inv : IssuanceInv prims node) :
    IssuesSound prims node.ledger := by
  constructor
  case authorized =>
    intro txid row issue found marked issued
    have kept := inv.attested txid row found marked (by simp [issued])
    obtain ⟨record, recorded⟩ := Option.isSome_iff_exists.mp kept
    obtain ⟨held, raw⟩ := inv.agree txid record recorded
    rw [found] at raw
    have same : row.rawTx = record.tx := Option.some.inj raw
    rw [same] at issued ⊢
    exact ⟨record, recorded, rfl, inv.sound.owned txid record recorded issue issued⟩
  case capped =>
    intro token cap _ nonzero
    refine Nat.le_trans (total_le_total fun txid => ?_) (inv.sound.capped token cap nonzero)
    cases found : node.ledger.tables.l1Transactions.lookup txid with
    | none =>
      rw [weightAt_of_none found]
      exact Nat.zero_le _
    | some row =>
      rw [weightAt_of_lookup found]
      split
      case isFalse => exact Nat.zero_le _
      case isTrue counted =>
        cases recorded : node.ledger.records.lookup txid with
        | none =>
          rw [recorded] at counted
          cases counted.2
        | some record =>
          rw [recorded] at counted
          have under : madeUnder token cap record = true := counted.2
          obtain ⟨-, raw⟩ := inv.agree txid record recorded
          rw [found] at raw
          rw [weightAt_of_lookup recorded, Option.some.inj raw]
          unfold recordAmount
          rw [if_pos under]

/-- In every run in which the issues that come to a full check are admissible and marked only as
they were checked, the attached issues are the owner's and stay below the caps. -/
theorem issuesSound_of_admissible (inputs : List Input)
    (run : AllSteps (step prims) (IssuesAdmissible prims) new inputs) :
    IssuesSound prims (runFrom (step prims) new inputs).ledger := by
  have start : IssuanceInv prims new := by
    refine ⟨?_, ?_, ?_, ?_⟩
    · exact nofun
    · exact nofun
    · exact nofun
    · exact fun _ _ _ => Nat.zero_le _
  exact (run.invariant step_issuanceInv start).issuesSound

/-- An issue of five by the owner of the token, or of twenty by a stranger. -/
def issueOf (txid : Txid) (input : TxIn) (amount : U128) : Lrc20Transaction :=
  ⟨⟨txid, [input], []⟩, .announcement (.issue ⟨cappedToken, amount⟩)⟩

theorem stranger_issues_over_cap :
    ¬ IssuesSound .plain (runFrom (step .plain) new
      (throughNode capAnnouncement ++ throughNode (issueOf 20 strangerInput 20))).ledger := by
  intro sound
  have capped := sound.capped cappedToken 10 (by decide +kernel) (by decide +kernel)
  revert capped
  decide +kernel

theorem owner_issues_below_cap :
    AllSteps (step .plain) (IssuesAdmissible .plain) new
        (throughNode capAnnouncement ++ throughNode (issueOf 20 ownerInput 5)) ∧
      IssuesSound .plain (runFrom (step .plain) new
        (throughNode capAnnouncement ++ throughNode (issueOf 20 ownerInput 5))).ledger := by
  have run : AllSteps (step .plain) (IssuesAdmissible .plain) new
      (throughNode capAnnouncement ++ throughNode (issueOf 20 ownerInput 5)) := by
    decide +kernel
  exact ⟨run, issuesSound_of_admissible _ run⟩

end L1Node

end Node

end Lrc20
