import Lrc20.Storage.L1
import Lrc20.TxCheck.Coverage

/-! Which token's supply an issue is counted in once it is stored. -/

open FixedWidth Outcome

namespace Lrc20

namespace Storage.L1Tables

def withoutAnnouncement (tables : L1Tables) (txid : Txid) : L1Tables :=
  { tables with announcements := tables.announcements.erase txid }

def firstToken (tx : Lrc20Transaction) : Option TokenPubkey :=
  tx.outputs.head?.map fun entry => entry.2.receipt.tokenPubkey

variable {tables tables' : L1Tables} {tx : Lrc20Transaction} {now : Nat} {amount : U128}
  {outputProofs : Option ProofMap} {announcement : IssueAnnouncement} {token : TokenPubkey}

/-- What storing an issue does to the announcements. That of its txid goes to the token of the
first proof, whatever it was, and is not attached; the others stay where they are. -/
structure IssueStored (tables : L1Tables) (tx : Lrc20Transaction) (amount : U128)
    (tables' : L1Tables) : Prop where
  entries : ∃ row before after, tables'.announcements.entries = before ++ ⟨tx.txid, row⟩ :: after ∧
    (tables.announcements.erase tx.txid).entries = before ++ after ∧
    ∀ token, firstToken tx = some token → row = ⟨token, .issue⟩
  issues : tables'.issues = tables.issues.insert tx.txid amount
  tokenPubkeys : tables'.tokenPubkeys = tables.tokenPubkeys
  attached : ∀ txid, tables'.isAttached txid = (decide (txid ≠ tx.txid) && tables.isAttached txid)

theorem issueStored_of_insert (kind : tx.txType = .issue outputProofs announcement)
    (stored : tables.insertLrc20Transaction now tx = .ok tables') :
    IssueStored tables tx announcement.amount tables' := by
  have attached : ∀ txid, tables'.isAttached txid =
      (decide (txid ≠ tx.txid) && tables.isAttached txid) := by
    intro txid
    have inserted := inserted_of_insertLrc20Transaction stored
    unfold isAttached
    by_cases own : txid = tx.txid
    · obtain ⟨timestamp, rows⟩ := inserted.row
      subst own
      simp [rows]
    · simp [own, inserted.lookup_ne own]
  obtain ⟨proofs, announced⟩ := announced_of_insert stored
  cases announced with
  | nothing issue => simp [kind, Lrc20TxType.isIssue] at issue
  | announcement other isOther => cases kind.symm.trans isOther
  | issue _ _ first rest same outputs =>
    obtain ⟨-, rfl⟩ := Lrc20TxType.issue.inj (kind.symm.trans same)
    refine ⟨⟨_, [], _, rfl, rfl, fun token isFirst => ?_⟩, rfl, rfl, attached⟩
    rw [firstToken, outputs] at isFirst
    rw [← Option.some.inj isFirst]
  | unproved _ _ same outputs held =>
    -- The announcement is the one that was there.
    obtain ⟨-, rfl⟩ := Lrc20TxType.issue.inj (kind.symm.trans same)
    have present : tx.txid ∈ tables.announcements :=
      AList.lookup_isSome.mp (Option.isSome_iff_ne_none.mpr held)
    obtain ⟨row, before, after, -, entries, erased⟩ := List.exists_of_kerase present
    refine ⟨⟨row, before, after, entries, erased, fun token isFirst => ?_⟩, rfl, rfl, attached⟩
    rw [firstToken, outputs] at isFirst
    cases isFirst

/-- What the announcements among the entries count for a token. -/
def counted (issues : AList fun _ : Txid => U128) (token : TokenPubkey)
    (entries : List (Sigma fun _ : Txid => AnnouncementRow)) : Nat :=
  exactSum (((entries.filter fun entry => entry.2.tokenPubkey = token ∧ entry.2.type = .issue).map
    Sigma.fst).filterMap fun txid => issues.lookup txid)

theorem totalSupply_val (tables : L1Tables) (token : TokenPubkey) : (tables.totalSupply token).val =
    min (counted tables.issues token tables.announcements.entries) (2 ^ 128 - 1) :=
  saturatingSum_val _

theorem counted_append (issues : AList fun _ : Txid => U128)
    (a b : List (Sigma fun _ : Txid => AnnouncementRow)) :
    counted issues token (a ++ b) = counted issues token a + counted issues token b := by
  simp [counted]

theorem totalSupply_without_le (txid : Txid) :
    ((tables.withoutAnnouncement txid).totalSupply token).val ≤ (tables.totalSupply token).val := by
  have fewer : counted tables.issues token (tables.announcements.erase txid).entries ≤
      counted tables.issues token tables.announcements.entries :=
    exactSum_le_of_sublist ((((List.kerase_sublist _ _).filter _).map _).filterMap _)
  rw [totalSupply_val, totalSupply_val]
  exact min_le_min_right _ fewer

/-- The entries that are left are of other txids. -/
theorem ne_of_erased {txid : Txid} {entries : List (Sigma fun _ : Txid => AnnouncementRow)}
    (erased : (tables.announcements.erase txid).entries = entries) {entry} (mem : entry ∈ entries) :
    entry.1 ≠ txid := by
  rw [← erased] at mem
  exact (AList.mem_erase.mp (List.mem_map_of_mem mem)).1

/-- A stored issue is counted for the token of its first proof, in the place of what its txid
counted for before. -/
theorem IssueStored.totalSupply (stored : IssueStored tables tx amount tables')
    (unproved : firstToken tx = none → amount = 0) (token : TokenPubkey) :
    (tables'.totalSupply token).val =
      min (((tables.withoutAnnouncement tx.txid).totalSupply token).val +
        if firstToken tx = some token then amount.val else 0) (2 ^ 128 - 1) := by
  obtain ⟨row, before, after, entries, erased, first⟩ := stored.entries
  have others : ∀ part, (∀ entry ∈ part, entry ∈ before ++ after) →
      counted tables'.issues token part = counted tables.issues token part := by
    intro part within
    unfold counted
    congr 1
    apply List.filterMap_congr
    intro txid mem
    obtain ⟨entry, kept, rfl⟩ := List.mem_map.mp mem
    have other := ne_of_erased erased (within entry (List.mem_filter.mp kept).1)
    rw [stored.issues, AList.lookup_insert_ne other]
  have own : counted tables'.issues token [⟨tx.txid, row⟩] =
      if firstToken tx = some token then amount.val else 0 := by
    have lookup : tables'.issues.lookup tx.txid = some amount := by
      rw [stored.issues, AList.lookup_insert]
    unfold counted
    cases named : firstToken tx with
    | none =>
      rw [unproved named] at lookup
      by_cases counts : row.tokenPubkey = token ∧ row.type = .issue
      · simp [counts, lookup]
      · simp [counts]
    | some other =>
      obtain rfl := first other named
      by_cases same : other = token
      · simp [same, lookup]
      · simp [same]
  have sum : counted tables'.issues token tables'.announcements.entries =
      counted tables.issues token before + (counted tables'.issues token [⟨tx.txid, row⟩] +
        counted tables.issues token after) := by
    rw [entries, List.append_cons, counted_append, counted_append,
      others before fun _ mem => List.mem_append_left _ mem,
      others after fun _ mem => List.mem_append_right _ mem, Nat.add_assoc]
  have left : ((tables.withoutAnnouncement tx.txid).totalSupply token).val =
      min (counted tables.issues token before + counted tables.issues token after)
        (2 ^ 128 - 1) := by
    rw [totalSupply_val, ← counted_append, ← erased]
    rfl
  rw [totalSupply_val, sum, own, left]
  omega

/-- The supply `get_token_pubkey_info` reports. -/
def reportedSupply (tables : L1Tables) (token : TokenPubkey) : Option Nat :=
  (tables.getTokenPubkeyInfo token).map fun info => info.totalSupply.val

theorem reportedSupply_eq (tables : L1Tables) (token : TokenPubkey) :
    tables.reportedSupply token =
      (((tables.announcementsOf token .tokenPubkey).find? tables.isAttached).bind
        fun txid => tables.tokenPubkeys.lookup txid).map fun _ => (tables.totalSupply token).val := by
  unfold reportedSupply getTokenPubkeyInfo
  cases (tables.announcementsOf token .tokenPubkey).find? tables.isAttached with
  | none => rfl
  | some txid => exact Option.map_map _ _ _

/-- A token is known after the issue is stored when it is without the announcement of the txid. -/
theorem IssueStored.reportedSupply (stored : IssueStored tables tx amount tables')
    (token : TokenPubkey) : tables'.reportedSupply token =
      ((tables.withoutAnnouncement tx.txid).reportedSupply token).map
        fun _ => (tables'.totalSupply token).val := by
  obtain ⟨row, before, after, entries, erased, -⟩ := stored.entries
  have found : (tables'.announcementsOf token .tokenPubkey).find? tables'.isAttached =
      ((tables.withoutAnnouncement tx.txid).announcementsOf token .tokenPubkey).find?
        tables.isAttached := by
    have known : ∀ part : List (Sigma fun _ : Txid => AnnouncementRow),
        (∀ entry ∈ part, entry ∈ before ++ after) →
        (part.map Sigma.fst).filter tables'.isAttached =
          (part.map Sigma.fst).filter tables.isAttached := by
      intro part within
      apply List.filter_congr
      intro txid mem
      obtain ⟨entry, kept, rfl⟩ := List.mem_map.mp mem
      simp [stored.attached, ne_of_erased erased (within entry kept)]
    have own : tables'.isAttached tx.txid = false := by simp [stored.attached]
    rw [← List.head?_filter, ← List.head?_filter]
    simp only [announcementsOf, withoutAnnouncement, entries, erased, List.filter_append,
      List.filter_cons, List.map_append]
    rw [known _ fun _ mem => List.mem_append_left _ (List.mem_filter.mp mem).1]
    congr 2
    split
    · rw [List.map_cons, List.filter_cons_of_neg (by simp [own])]
      exact known _ fun _ mem => List.mem_append_right _ (List.mem_filter.mp mem).1
    · exact known _ fun _ mem => List.mem_append_right _ (List.mem_filter.mp mem).1
  rw [reportedSupply_eq, reportedSupply_eq, found, stored.tokenPubkeys, Option.map_map]
  rfl

end Storage.L1Tables

namespace TxCheck

open Storage L1Tables

/-- What is stored under the txid of the issue counts for nothing, and an issue of an amount has
the announced token in its first proof and stays within 128 bits. -/
structure CreditedRight (tables : L1Tables) (tx : Lrc20Transaction)
    (announcement : IssueAnnouncement) : Prop where
  idle : ∀ token,
    (tables.withoutAnnouncement tx.txid).totalSupply token = tables.totalSupply token ∧
    ((tables.withoutAnnouncement tx.txid).reportedSupply token).isSome =
      (tables.reportedSupply token).isSome
  first : announcement.amount ≠ 0 → firstToken tx = some announcement.tokenPubkey
  fits : announcement.amount ≠ 0 →
    (tables.totalSupply announcement.tokenPubkey).val + announcement.amount.val < 2 ^ 128

theorem reportedSupply_eq_totalSupply {tables : L1Tables} {token : TokenPubkey} {supply : Nat}
    (reported : tables.reportedSupply token = some supply) :
    supply = (tables.totalSupply token).val := by
  rw [reportedSupply_eq] at reported
  obtain ⟨_, -, rfl⟩ := Option.map_eq_some_iff.mp reported
  rfl

theorem credit_of_first {tx : Lrc20Transaction} {announcement : IssueAnnouncement}
    (first : announcement.amount ≠ 0 → firstToken tx = some announcement.tokenPubkey)
    (token : TokenPubkey) :
    (if firstToken tx = some token then announcement.amount.val else 0) =
      if token = announcement.tokenPubkey then announcement.amount.val else 0 := by
  by_cases zero : announcement.amount = 0
  · simp [zero]
  · rw [first zero]
    exact if_congr (Option.some_inj.trans eq_comm) rfl rfl

/-- An accepted issue that is stored is counted for the announced token and for no other, and
what is reported about each token that is announced says so, exactly when it is credited
right. -/
theorem issue_credits_announced_token (prims : Primitives) (now : Nat) (tables tables' : L1Tables)
    (bitcoinTx : Transaction) (outputProofs : Option ProofMap) (announcement : IssueAnnouncement)
    (checked : checkIssueIsolated prims bitcoinTx outputProofs announcement = .ok ())
    (stored : tables.insertLrc20Transaction now ⟨bitcoinTx, .issue outputProofs announcement⟩ =
      .ok tables') :
    (∀ token,
      (tables'.totalSupply token).val = (tables.totalSupply token).val +
        (if token = announcement.tokenPubkey then announcement.amount.val else 0) ∧
      tables'.reportedSupply token = (tables.reportedSupply token).map fun supply =>
        supply + if token = announcement.tokenPubkey then announcement.amount.val else 0) ↔
    CreditedRight tables ⟨bitcoinTx, .issue outputProofs announcement⟩ announcement := by
  have issued := issueStored_of_insert rfl stored
  have proofless : firstToken ⟨bitcoinTx, .issue outputProofs announcement⟩ = none →
      announcement.amount = 0 := by
    intro none
    have summed := (@accepted_of_checkTransaction prims
      ⟨bitcoinTx, .issue outputProofs announcement⟩ checked rfl).summed announcement.amount rfl
    rw [firstToken, Option.map_eq_none_iff, List.head?_eq_none_iff] at none
    rw [← summed, none]
    rfl
  have after := issued.totalSupply proofless
  have less := fun token => @totalSupply_without_le tables token
    (Lrc20Transaction.mk bitcoinTx (.issue outputProofs announcement)).txid
  have bound := fun token => (tables.totalSupply token).isLt
  constructor
  · intro credited
    have own := (credited announcement.tokenPubkey).1
    rw [after, if_pos rfl] at own
    have first : announcement.amount ≠ 0 →
        firstToken ⟨bitcoinTx, .issue outputProofs announcement⟩ =
          some announcement.tokenPubkey := by
      intro amount
      by_contra other
      have positive := Fin.val_ne_zero_iff.mpr amount
      have unchanged := less announcement.tokenPubkey
      rw [if_neg other] at own
      omega
    refine ⟨fun token => ⟨?_, ?_⟩, first, fun _ => ?_⟩
    · have counted := (credited token).1
      have unchanged := less token
      rw [after, credit_of_first first] at counted
      apply Fin.ext
      split at counted <;> omega
    · have reported := (credited token).2
      rw [issued.reportedSupply] at reported
      simpa using congrArg Option.isSome reported
    · omega
  · rintro ⟨idle, first, fits⟩ token
    have counted : (tables'.totalSupply token).val = (tables.totalSupply token).val +
        (if token = announcement.tokenPubkey then announcement.amount.val else 0) := by
      rw [after, (idle token).1, credit_of_first first]
      have fit := bound token
      split
      case isTrue same =>
        subst same
        by_cases zero : announcement.amount = 0
        · rw [zero, Fin.val_zero]
          omega
        · have enough := fits zero
          omega
      case isFalse => omega
    refine ⟨counted, ?_⟩
    have known := (idle token).2
    rw [issued.reportedSupply, counted]
    cases reported : tables.reportedSupply token with
    | none =>
      rw [reported, Option.isSome_none, Option.isSome_eq_false_iff, Option.isNone_iff_eq_none]
        at known
      rw [known]
      rfl
    | some supply =>
      rw [reported, Option.isSome_some] at known
      obtain ⟨_, there⟩ := Option.isSome_iff_exists.mp known
      rw [there, reportedSupply_eq_totalSupply reported]
      rfl

/-- The tables after a transaction is stored. -/
def storedOver (tables : L1Tables) (tx : Lrc20Transaction) : L1Tables :=
  (tables.insertLrc20Transaction 0 tx).toOption.getD tables

theorem insert_eq_storedOver {tables : L1Tables} {tx : Lrc20Transaction}
    (stored : (tables.insertLrc20Transaction 0 tx).isOk = true) :
    tables.insertLrc20Transaction 0 tx = .ok (storedOver tables tx) := by
  unfold storedOver
  cases written : tables.insertLrc20Transaction 0 tx with
  | error failure =>
    rw [written] at stored
    cases stored
  | ok tables' => rfl

/-- The issued token is announced, without a cap. -/
def announcedTables : L1Tables :=
  (storedOver .empty ⟨⟨9, [], []⟩, .announcement
    (.tokenPubkey ⟨issuedToken, "Three", "THREE", 0, 0, false⟩)⟩).setLrc20TxStatus 9 .attached

/-- An issue of seven to its only output. -/
def sevenIssued : Lrc20Transaction := issueWith 7 [7] (proofsOf 1 [7])

theorem issue_credits_announced_token_seven :
    announcedTables.reportedSupply issuedToken = some 0 ∧
      (storedOver announcedTables sevenIssued).reportedSupply issuedToken = some 7 := by
  have start : announcedTables.reportedSupply issuedToken = some 0 := by decide +kernel
  have idle : announcedTables.withoutAnnouncement sevenIssued.txid = announcedTables := by
    have absent : announcedTables.announcements.erase sevenIssued.txid =
        announcedTables.announcements := AList.ext (by decide +kernel)
    rw [withoutAnnouncement, absent]
  have credited := (issue_credits_announced_token .plain 0 announcedTables
    (storedOver announcedTables sevenIssued) sevenIssued.bitcoinTx (some (proofsOf 1 [7]))
    ⟨issuedToken, 7⟩ (by decide +kernel) (insert_eq_storedOver (by decide +kernel))).mpr
    ⟨fun token => ⟨congrArg (totalSupply · token) idle,
      congrArg (fun tables => (reportedSupply tables token).isSome) idle⟩,
      fun _ => by decide +kernel, fun _ => by decide +kernel⟩ issuedToken
  refine ⟨start, ?_⟩
  rw [credited.2, start]
  rfl

def emptyProof : EmptyReceiptProof := ⟨PublicKey.repeating 5⟩

/-- An issue of seven with an empty proof before the one of the output. -/
def emptyThenSeven : Lrc20Transaction :=
  ⟨⟨1, [], [announcementOutput 7,
      ⟨((Primitives.plain.tweak emptyProof.innerKey Receipt.empty).map
        Primitives.plain.toP2wpkh).getD []⟩,
      outputOf (issuedProof 7)]⟩,
    .issue (some ⟨[(1, .emptyReceipt emptyProof), (2, .sig (issuedProof 7))], by decide⟩)
      ⟨issuedToken, 7⟩⟩

/-- Stored after an empty proof, seven are counted for the token of empty receipts. An issue that
is stored again is not counted again. -/
theorem issue_credits_empty_token :
    checkTransaction .plain emptyThenSeven = .ok () ∧
      (announcedTables.insertLrc20Transaction 0 emptyThenSeven).isOk = true ∧
      announcedTables.reportedSupply issuedToken = some 0 ∧
      (storedOver announcedTables emptyThenSeven).reportedSupply issuedToken = some 0 ∧
      ((storedOver announcedTables emptyThenSeven).totalSupply Receipt.empty.tokenPubkey).val = 7 ∧
      checkTransaction .plain sevenIssued = .ok () ∧
      ((storedOver announcedTables sevenIssued).insertLrc20Transaction 0 sevenIssued).isOk = true ∧
      (storedOver (storedOver announcedTables sevenIssued) sevenIssued).reportedSupply
        issuedToken = some 7 := by
  decide +kernel

end TxCheck

end Lrc20
