import Lrc20.Node.Issuance
import Lrc20.Node.Ownership

/-! The announcement of a token that may have been issued before: what is known about the token
when its announcement passes the full check. -/

open Lrc20.Storage Lrc20.TxAttach Lrc20.TxCheck Runs Totals L1Tables

namespace Lrc20.Node

/-- The exact sum of the attached issues of a token. -/
def attachedSupply (tables : L1Tables) (token : TokenPubkey) : Nat :=
  total (fun _ row => if row.status = .attached then row.rawTx.issuedAmount token else 0)
    tables.l1Transactions

/-- A row of `announcement` for a token comes with one of `token_pubkey`. -/
def Described (tables : L1Tables) : Prop :=
  ∀ txid token, tables.announcements.lookup txid = some ⟨token, .tokenPubkey⟩ →
    tables.tokenPubkeys.lookup txid ≠ none

/-! ### Described announcements -/

section Described

variable {tables tables' : L1Tables} {now : Nat} {tx : Lrc20Transaction}

theorem Described.of_same (described : Described tables)
    (announcements : tables'.announcements = tables.announcements)
    (tokenPubkeys : tables'.tokenPubkeys = tables.tokenPubkeys) : Described tables' := by
  intro txid token found
  rw [announcements] at found
  rw [tokenPubkeys]
  exact described txid token found

theorem Described.upsertAnnouncement (described : Described tables) (txid : Txid)
    (token : TokenPubkey) {type : AnnouncementType} (other : type ≠ .tokenPubkey) :
    Described (tables.upsertAnnouncement txid token type) := by
  intro txid' token' found
  by_cases same : txid' = txid
  · subst same
    rw [lookup_upsertAnnouncement_self] at found
    obtain ⟨-, kind⟩ := AnnouncementRow.mk.inj (Option.some.inj found)
    exact absurd kind other
  · rw [lookup_upsertAnnouncement_ne same] at found
    exact described txid' token' found

theorem Described.announce (described : Described tables) (txid : Txid)
    (announcement : Announcement) :
    Described ((tables.upsertAnnouncement txid announcement.token
      (announcementType announcement)).describe txid announcement) := by
  cases announcement with
  | tokenPubkey model =>
    intro txid' token found
    by_cases same : txid' = txid
    · subst same
      show (tables.tokenPubkeys.insert txid' _).lookup txid' ≠ none
      rw [AList.lookup_insert]
      exact fun missing => nomatch missing
    · rw [describe_announcements, lookup_upsertAnnouncement_ne same] at found
      rw [tokenPubkeys_describe_ne same]
      exact described txid' token found
  | tokenLogo | txFreeze | pubkeyFreeze | issue | transferOwnership =>
    exact described.upsertAnnouncement txid _ fun same => nomatch same

theorem Described.insert (described : Described tables)
    (inserted : tables.insertLrc20Transaction now tx = .ok tables') : Described tables' := by
  obtain ⟨proofs, written⟩ := announced_of_insert inserted
  have kept : Described { tables.upsertRow now tx with proofs } := described
  cases written with
  | nothing | unproved => exact kept
  | announcement announcement kind => exact kept.announce tx.txid announcement
  | issue outputProofs announcement first rest kind outputs =>
    exact kept.upsertAnnouncement tx.txid first.2.receipt.tokenPubkey fun same => nomatch same

theorem keptByWrites_described : L1Node.KeptByWrites Described where
  mempool described only := by
    obtain ⟨⟨mempool, rfl⟩, -⟩ := only
    exact described
  proofs outpoint described := by
    obtain ⟨proofs, same⟩ := onlyProofs_toggleProofFreeze _ outpoint
    rw [same]
    exact described
  insert described inserted := described.insert inserted
  status txid status described := described.of_same (by simp) (by simp)
  delete txid described := by
    intro other token found
    rw [announcement_deleteLrc20Transaction] at found
    rw [tokenPubkey_deleteLrc20Transaction]
    split at found
    · cases found
    · rw [if_neg ‹_›]
      exact described other token found

/-- Nothing is reported about a token exactly when it has no attached announcement. -/
theorem Described.isAnnounced_eq_false_iff (described : Described tables) {token : TokenPubkey} :
    isAnnounced tables token = false ↔ tables.getTokenPubkeyInfo token = none := by
  unfold getTokenPubkeyInfo isAnnounced
  cases first : (tables.announcementsOf token .tokenPubkey).find? tables.isAttached with
  | none =>
    rw [List.find?_eq_none] at first
    simpa using first
  | some txid =>
    have entry := List.mem_of_find?_eq_some first
    have row := described txid token (mem_announcementsOf.mp entry)
    refine iff_of_false ?_ (by simpa using row)
    rw [List.any_eq_false]
    exact fun none => none txid entry (List.find?_some first)

end Described

namespace L1Node

/-- An announcement passes when an input is its owner's and nothing is reported about its token:
the comparison of the supply with the cap is never reached. -/
theorem checkTokenPubkeyAnnouncement_iff {prims : Primitives} {client : BitcoinClient}
    {tables : L1Tables} {tx : Lrc20Transaction} {announcement : TokenPubkeyAnnouncement} :
    checkTokenPubkeyAnnouncement prims client tables tx announcement = .ok true ↔
      hasOwnerInput prims client tables tx announcement.tokenPubkey = .ok true ∧
        tables.getTokenPubkeyInfo announcement.tokenPubkey = none := by
  unfold checkTokenPubkeyAnnouncement
  cases hasOwnerInput prims client tables tx announcement.tokenPubkey with
  | error failure => exact iff_of_false (fun failed => nomatch failed) (fun both => nomatch both.1)
  | ok owned =>
    cases owned with
    | false => exact iff_of_false (fun failed => nomatch failed) (fun both => nomatch both.1)
    | true =>
      cases reported : tables.getTokenPubkeyInfo announcement.tokenPubkey with
      | none => exact iff_of_true rfl ⟨rfl, rfl⟩
      | some info =>
        have announced : info.announcement.isSome = true := by
          unfold getTokenPubkeyInfo at reported
          split at reported
          · cases reported
          · obtain ⟨_, -, rfl⟩ := Option.map_eq_some_iff.mp reported
            rfl
        simp [announced, bind, Except.bind, pure, Except.pure]

/-- In every state in which a run checks an announcement, the check accepts it whatever its cap and
the supply are, as long as an input is the owner's and no announcement of the token is attached.
So a cap is respected exactly when the check refuses for one of these, or the attached issues are
within it. -/
theorem announcement_respects_supply (prims : Primitives) (tables : L1Tables)
    (reached : CheckedAgainst prims tables) (client : BitcoinClient) (tx : Lrc20Transaction)
    (announcement : TokenPubkeyAnnouncement) :
    (checkTokenPubkeyAnnouncement prims client tables tx announcement = .ok true ↔
      hasOwnerInput prims client tables tx announcement.tokenPubkey = .ok true ∧
        isAnnounced tables announcement.tokenPubkey = false) ∧
    ((checkTokenPubkeyAnnouncement prims client tables tx announcement = .ok true →
        announcement.maxSupply ≠ 0 → isAnnounced tables announcement.tokenPubkey = false ∧
          attachedSupply tables announcement.tokenPubkey ≤ announcement.maxSupply.val) ↔
      hasOwnerInput prims client tables tx announcement.tokenPubkey ≠ .ok true ∨
        isAnnounced tables announcement.tokenPubkey = true ∨ announcement.maxSupply = 0 ∨
        attachedSupply tables announcement.tokenPubkey ≤ announcement.maxSupply.val) := by
  have described : Described tables :=
    keptByWrites_described.checkedAgainst (fun _ _ found => nomatch found) reached
  have accepts : checkTokenPubkeyAnnouncement prims client tables tx announcement = .ok true ↔
      hasOwnerInput prims client tables tx announcement.tokenPubkey = .ok true ∧
        isAnnounced tables announcement.tokenPubkey = false := by
    rw [described.isAnnounced_eq_false_iff]
    exact checkTokenPubkeyAnnouncement_iff
  refine ⟨accepts, ?_⟩
  rw [accepts, ← Bool.not_eq_false (isAnnounced tables announcement.tokenPubkey)]
  constructor
  · intro respects
    by_contra refused
    push Not at refused
    obtain ⟨owned, unannounced, capped, exceeds⟩ := refused
    have within := (respects ⟨owned, unannounced⟩ capped).2
    omega
  · rintro refused ⟨owned, unannounced⟩ capped
    rcases refused with unowned | announced | uncapped | within
    · exact absurd owned unowned
    · exact absurd unannounced announced
    · exact absurd uncapped capped
    · exact ⟨unannounced, within⟩

/-- The tables after an issue of twenty was attached. -/
def issuedTables : L1Tables :=
  (runFrom (step .plain) new (throughNode (issueOf 20 ownerInput 20))).ledger.tables

theorem checkedAgainst_issuedTables : CheckedAgainst .plain issuedTables :=
  ⟨throughNode (issueOf 20 ownerInput 20), unspentClient, 0, [], rfl⟩

/-- A cap of thirty passes after twenty were issued, and is respected. -/
theorem announcement_respects_supply_thirty :
    checkTokenPubkeyAnnouncement .plain unspentClient issuedTables capAnnouncement
        ⟨cappedToken, "Thirty", "THIRTY", 0, 30, false⟩ = .ok true ∧
      isAnnounced issuedTables cappedToken = false ∧
      attachedSupply issuedTables cappedToken ≤ 30 := by
  have accepted : checkTokenPubkeyAnnouncement .plain unspentClient issuedTables capAnnouncement
      ⟨cappedToken, "Thirty", "THIRTY", 0, 30, false⟩ = .ok true := by
    decide +kernel
  refine ⟨accepted, (announcement_respects_supply .plain issuedTables checkedAgainst_issuedTables
    unspentClient capAnnouncement _).2.mpr (.inr (.inr (.inr ?_))) accepted (by decide +kernel)⟩
  decide +kernel

/-- A cap of ten passes after twenty were issued. -/
theorem late_cap_accepted :
    CheckedAgainst .plain issuedTables ∧
      checkTokenPubkeyAnnouncement .plain unspentClient issuedTables capAnnouncement
        ⟨cappedToken, "Ten", "TEN", 0, 10, false⟩ = .ok true ∧
      attachedSupply issuedTables cappedToken = 20 := by
  exact ⟨checkedAgainst_issuedTables, by decide +kernel, by decide +kernel⟩

end L1Node

end Lrc20.Node
