import Lrc20.TxCheck.Isolated
import Lrc20.Types.AnnouncementParsing

open Search

/-! The sub-indexer that finds announcements in blocks. -/

namespace Lrc20

inductive Network where
  | bitcoin
  | testnet
  | signet
  | regtest
  | mutiny
deriving DecidableEq, Repr

/-- `minimal_block_height`: only transfers of ownership have one. -/
def Announcement.minimalBlockHeight (network : Network) : Announcement → Nat
  | transferOwnership _ =>
    match network with
    | .bitcoin => 855000
    | .testnet => 2830000
    | .mutiny => 1200000
    | _ => 0
  | _ => 0

/-- `is_coinbase`: the only input spends the null outpoint. -/
def Transaction.isCoinbase (tx : Transaction) : Bool :=
  match tx.input with
  | [input] => input.previousOutput == ⟨0, 2 ^ 32 - 1⟩
  | _ => false

namespace Indexers

variable (prims : Primitives)

/-- The loop over the outputs of a transaction: a later announcement replaces an earlier one. -/
def lastAnnouncement (tx : Transaction) : Option Announcement :=
  lastSome (fun output => announcementFromScript prims output.scriptPubkey) tx.output

/-- `find_announcements`: the transactions sent to the controller. -/
def findAnnouncements (network : Network) (height : Nat) (block : List Transaction) :
    List Lrc20Transaction :=
  block.filterMap fun tx =>
    if tx.isCoinbase then none
    else match lastAnnouncement prims tx with
      | none => none
      | some announcement =>
        if height < announcement.minimalBlockHeight network then none
        else some ⟨tx, .announcement announcement⟩

variable {prims}

/-- An issue has no minimal height, so it is found when it is the last announcement. -/
theorem mem_findAnnouncements_issue {network : Network} {height : Nat} {block : List Transaction}
    {tx : Transaction} {announcement : IssueAnnouncement} (mem : tx ∈ block) :
    ⟨tx, .announcement (.issue announcement)⟩ ∈ findAnnouncements prims network height block ↔
      ¬ tx.isCoinbase ∧ lastAnnouncement prims tx = some (.issue announcement) := by
  unfold findAnnouncements
  rw [List.mem_filterMap]
  constructor
  · rintro ⟨other, _, found⟩
    split at found
    · cases found
    · rename_i ordinary
      split at found
      · cases found
      · rename_i last isLast
        split at found
        · cases found
        · cases found
          exact ⟨ordinary, isLast⟩
  · rintro ⟨ordinary, isLast⟩
    refine ⟨tx, mem, ?_⟩
    rw [if_neg ordinary, isLast]
    rfl

/-- The two views of an issue agree when an output announces it with the kind of an issue and
no output after that one announces anything, and the transaction is not a coinbase. -/
structure AnnouncedLast (prims : Primitives) (tx : Transaction) (announcement : IssueAnnouncement) :
    Prop where
  ordinary : ¬ tx.isCoinbase
  last : ∃ before output after, tx.output = before ++ output :: after ∧
    announcementFromScript prims output.scriptPubkey = some (.issue announcement) ∧
    ∀ later ∈ after, announcementFromScript prims later.scriptPubkey = none

/-- The parsers of single types agree with the dispatching one on scripts with the kind bytes
of the type, and the indexer finds the issues that the isolated check accepts when they are
announced last. -/
theorem announcement_views_agree_iff (prims : Primitives) :
    (∀ (type : AnnouncementType) (script : ScriptBuf) (announcement : Announcement),
      type.fromScript prims script = some announcement →
      (announcementFromScript prims script = some announcement ↔
        (opReturnData script).map kindBytes = some type.kind)) ∧
    ∀ (network : Network) (height : Nat) (block : List Transaction) (tx : Transaction)
      (outputProofs : Option ProofMap) (announcement : IssueAnnouncement), tx ∈ block →
      TxCheck.checkIssueIsolated prims tx outputProofs announcement = .ok () →
      (⟨tx, .announcement (.issue announcement)⟩ ∈ findAnnouncements prims network height block ↔
        AnnouncedLast prims tx announcement) := by
  constructor
  · intro type script announcement parsed
    exact announcementFromScript_iff_kind parsed
  · intro network height block tx outputProofs announcement mem _
    rw [mem_findAnnouncements_issue mem, lastAnnouncement, lastSome_eq_some_iff]
    exact ⟨fun found => ⟨found.1, found.2⟩, fun found => ⟨found.ordinary, found.last⟩⟩

/-! ### Issues of concrete blocks -/

/-- An issue of 100 tokens with key `repeating 7`. -/
def plainIssue : IssueAnnouncement := ⟨.repeating 7, 100⟩

def plainIssueProof : P2WPKHProof :=
  ⟨⟨TokenAmount.new 100, .repeating 7⟩, .repeating 1, none⟩

def plainIssueProofs : ProofMap :=
  ⟨[(1, .sig plainIssueProof)], List.pairwise_singleton _ _⟩

/-- A script that announces the issue under some kind bytes. -/
def issueScript (kind : Bytes) : ScriptBuf :=
  0x6a :: Script.pushSlice (announcementPrefix ++ kind ++ plainIssue.toAnnouncementDataBytes)

/-- The transaction of the issue, with its announcement first and others last. -/
def issueTransaction (kind : Bytes) (others : List ScriptBuf) : Transaction :=
  let locked := match plainIssueProof.receiptKey .plain with
    | some key => Primitives.plain.toP2wpkh key
    | none => []
  ⟨1, [⟨⟨9, 0⟩, [], []⟩], ([issueScript kind, locked] ++ others).map TxOut.mk⟩

/-- An issue with its own kind bytes and no other announcement is found. -/
theorem issue_found_alone :
    let tx := issueTransaction [0, 2] []
    announcementFromScript .plain (issueScript [0, 2]) = some (.issue plainIssue) ∧
      ⟨tx, .announcement (.issue plainIssue)⟩ ∈ findAnnouncements .plain .regtest 7 [tx] := by
  intro tx
  obtain ⟨scripts, blocks⟩ := announcement_views_agree_iff .plain
  constructor
  · exact (scripts .issue (issueScript [0, 2]) _ (by decide +kernel)).mpr (by decide +kernel)
  · apply (blocks .regtest 7 [tx] tx (some plainIssueProofs) plainIssue (by simp)
      (by decide +kernel)).mpr
    exact ⟨by decide +kernel, [], ⟨issueScript [0, 2]⟩, _, rfl, by decide +kernel,
      by decide +kernel⟩

/-- An accepted issue under unknown kind bytes is not found, and one that is followed by the
announcement of a logo is taken for that. -/
theorem issue_not_found :
    let odd := issueTransaction [0, 9] []
    let logo := Announcement.tokenLogo ⟨.repeating 7, "http://a.example"⟩
    let followed := issueTransaction [0, 2] [logo.toScript]
    AnnouncementType.fromScript .plain .issue (issueScript [0, 9]) = some (.issue plainIssue) ∧
      announcementFromScript .plain (issueScript [0, 9]) = none ∧
      TxCheck.checkIssueIsolated .plain odd (some plainIssueProofs) plainIssue = .ok () ∧
      findAnnouncements .plain .regtest 7 [odd] = [] ∧
      TxCheck.checkIssueIsolated .plain followed (some plainIssueProofs) plainIssue = .ok () ∧
      findAnnouncements .plain .regtest 7 [followed] = [⟨followed, .announcement logo⟩] := by
  intro odd logo followed
  exact ⟨by decide +kernel, by decide +kernel, by decide +kernel, by decide +kernel,
    by decide +kernel, by decide +kernel⟩

end Indexers

end Lrc20
