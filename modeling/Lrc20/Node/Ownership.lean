import Lrc20.Node.Ledger

/-! Who owns a token: the owner the storage reports, against the ownership transfers that were
attached. -/

open Lrc20.Storage Lrc20.TxAttach Lrc20.TxCheck Runs L1Tables

namespace Lrc20

def Lrc20Transaction.ownershipTransfer (tx : Lrc20Transaction) :
    Option TransferOwnershipAnnouncement :=
  match tx.txType with
  | .announcement (.transferOwnership announcement) => some announcement
  | _ => none

namespace Node

/-- The new owner of the last of these transactions that transfers the token. -/
def lastOwner (attachments : List Lrc20Transaction) (token : TokenPubkey) : Option ScriptBuf :=
  (attachments.filterMap fun tx =>
    (tx.ownershipTransfer.filter (·.tokenPubkey = token)).map (·.newOwner)).getLast?

/-- The reported owner is the one the attached transfers lead to, and each of these has an input
of the owner before it. -/
structure OwnershipChain (prims : Primitives) (ledger : Ledger) : Prop where
  reported : ∀ token, ownerOf ledger.tables token = lastOwner ledger.attachments token
  authorized : ∀ before tx after transfer, ledger.attachments = before ++ tx :: after →
    tx.ownershipTransfer = some transfer →
    ∃ client input, findOwnerInTxinputs prims client transfer.tokenPubkey
      (lastOwner before transfer.tokenPubkey) tx.bitcoinTx.input = .ok (some input)

/-! ### Tokens that are announced, and tokens with a transfer stored -/

section Tokens

variable {tables : L1Tables} {token : TokenPubkey}

/-- An announcement of the token is attached. -/
def isAnnounced (tables : L1Tables) (token : TokenPubkey) : Bool :=
  (tables.announcementsOf token .tokenPubkey).any tables.isAttached

/-- A transfer of the token is stored. -/
def isContested (tables : L1Tables) (token : TokenPubkey) : Bool :=
  !(tables.announcementsOf token .transferOwnership).isEmpty

theorem isAnnounced_iff : isAnnounced tables token = true ↔
    ∃ txid, tables.announcements.lookup txid = some ⟨token, .tokenPubkey⟩ ∧
      tables.isAttached txid = true := by
  simp only [isAnnounced, List.any_eq_true, mem_announcementsOf]

theorem isContested_iff : isContested tables token = true ↔
    ∃ txid, tables.announcements.lookup txid = some ⟨token, .transferOwnership⟩ := by
  simp only [isContested, Bool.not_eq_true', List.isEmpty_eq_false_iff_exists_mem,
    mem_announcementsOf]

theorem ownerOf_eq_none (undisputed : isAnnounced tables token → isContested tables token = false) :
    ownerOf tables token = none := by
  unfold ownerOf getTokenPubkeyInfo
  cases first : (tables.announcementsOf token .tokenPubkey).find? tables.isAttached with
  | none => rfl
  | some txid =>
    have announced : isAnnounced tables token :=
      List.any_eq_true.mpr ⟨txid, List.mem_of_find?_eq_some first, List.find?_some first⟩
    have noTransfers : tables.announcementsOf token .transferOwnership = [] := by
      simpa [isContested] using undisputed announced
    have nobody : tables.reportedOwner token = none := by
      simp [reportedOwner, noTransfers]
    dsimp only
    cases tables.tokenPubkeys.lookup txid with
    | none => rfl
    | some row => exact nobody

end Tokens

namespace L1Node

/-- A row that may be marked: no transfer, and no announcement of a token with one. -/
def Uncontested (tables : L1Tables) (txid : Txid) : Prop :=
  (∀ row ∈ tables.l1Transactions.lookup txid, row.rawTx.ownershipTransfer = none) ∧
    ∀ entry ∈ tables.announcements.lookup txid, entry.type = .tokenPubkey →
      isContested tables entry.tokenPubkey = false

/-- No transfer of an announced token is delivered; no transfer is marked, nor an announcement
of a token a transfer of which is stored. -/
def OwnersUncontested (node : L1Node) : Input → Prop
  | .newLrc20Txs txs _ _ => ∀ tx ∈ txs, ∀ transfer ∈ tx.ownershipTransfer,
      isAnnounced node.ledger.tables transfer.tokenPubkey = false
  | .controller _ => ∀ message ∈ node.toController.head?, ∀ tx ∈ message.marked,
      Uncontested node.ledger.tables tx.txid
  | _ => True

instance (tables : L1Tables) (txid : Txid) : Decidable (Uncontested tables txid) :=
  inferInstanceAs (Decidable (_ ∧ _))

instance (node : L1Node) : (input : Input) → Decidable (node.OwnersUncontested input)
  | .newLrc20Txs txs _ _ => inferInstanceAs
      (Decidable (∀ tx ∈ txs, ∀ transfer ∈ tx.ownershipTransfer,
        isAnnounced node.ledger.tables transfer.tokenPubkey = false))
  | .controller _ => inferInstanceAs
      (Decidable (∀ message ∈ node.toController.head?, ∀ tx ∈ message.marked,
        Uncontested node.ledger.tables tx.txid))
  | .checker .. | .graph _ | .confirmator | .mined _ | .confirmed _ | .reorganized _
  | .unconfirmed _ | .cleanup .. | .spark _ | .exitsReady _ | .exitsOutdated _ | .restart =>
    .isTrue trivial

variable {prims : Primitives}

/-! ### What the steps keep -/

section Standing

variable {tokens : List TokenPubkey} {marked : List Lrc20Transaction} {ledger : Ledger}
  {tx : Lrc20Transaction} {tables tables' : L1Tables} {ledger' : Ledger}

/-- No transfer touches an announced token, and none is attached. In a step, also the tokens of
the delivered transfers are not announced and the rows to be marked are not contested. -/
structure Standing (tokens : List TokenPubkey) (marked : List Lrc20Transaction) (ledger : Ledger) :
    Prop where
  undisputed : ∀ token, isAnnounced ledger.tables token →
    isContested ledger.tables token = false
  unattached : ∀ tx ∈ ledger.attachments, tx.ownershipTransfer = none
  unannounced : ∀ token ∈ tokens, isAnnounced ledger.tables token = false
  uncontested : ∀ tx ∈ marked, Uncontested ledger.tables tx.txid

theorem isContested_fewer (fewer : Fewer tables tables') {token : TokenPubkey}
    (free : isContested tables token = false) : isContested tables' token = false := by
  rw [Bool.eq_false_iff] at free ⊢
  intro contested
  obtain ⟨txid, entry⟩ := isContested_iff.mp contested
  exact free (isContested_iff.mpr ⟨txid, fewer.announcements txid _ entry⟩)

theorem Uncontested.fewer {txid : Txid} (free : Uncontested tables txid)
    (fewer : Fewer tables tables') : Uncontested tables' txid := by
  obtain ⟨rows, entries⟩ := free
  refine ⟨?_, ?_⟩
  · intro row' found
    obtain ⟨row, held, raw⟩ := fewer.rows txid row' found
    rw [raw]
    exact rows row held
  · intro entry found kind
    exact isContested_fewer fewer (entries entry (fewer.announcements txid entry found) kind)

theorem Standing.calmer (standing : Standing tokens marked ledger)
    (calmer : Calmer ledger.tables ledger'.tables)
    (same : ledger'.attachments = ledger.attachments) : Standing tokens marked ledger' := by
  have announced : ∀ token, isAnnounced ledger'.tables token → isAnnounced ledger.tables token := by
    intro token announced
    obtain ⟨txid, entry, attached⟩ := isAnnounced_iff.mp announced
    exact isAnnounced_iff.mpr
      ⟨txid, calmer.announcements txid _ entry, calmer.attached txid attached⟩
  constructor
  case undisputed =>
    exact fun token marked => isContested_fewer calmer.toFewer
      (standing.undisputed token (announced token marked))
  case unattached =>
    rw [same]
    exact standing.unattached
  case unannounced =>
    intro token mem
    have before := standing.unannounced token mem
    rw [Bool.eq_false_iff] at before ⊢
    exact fun after => before (announced token after)
  case uncontested => exact fun tx mem => (standing.uncontested tx mem).fewer calmer.toFewer

theorem settled_standing : Settled (Standing tokens marked) :=
  .of_calmer fun standing calmer _ same => standing.calmer calmer same

/-- An insertion announces nothing and contests the token of a transfer only. -/
theorem Standing.inserted (standing : Standing tokens [] ledger)
    (listed : ∀ transfer ∈ tx.ownershipTransfer, transfer.tokenPubkey ∈ tokens)
    (inserted : L1Tables.Inserted tx ledger.tables tables) (written : ledger'.tables = tables)
    (same : ledger'.attachments = ledger.attachments) : Standing tokens [] ledger' := by
  subst written
  have announced : ∀ token, isAnnounced ledger'.tables token → isAnnounced ledger.tables token := by
    intro token announced
    obtain ⟨txid, entry, attached⟩ := isAnnounced_iff.mp announced
    obtain ⟨other, before⟩ := inserted.isAttached attached
    exact isAnnounced_iff.mpr ⟨txid, (inserted.others txid other).symm.trans entry, before⟩
  constructor
  case undisputed =>
    intro token isAnnounced'
    have before := announced token isAnnounced'
    by_contra disputed
    obtain ⟨txid, entry⟩ := isContested_iff.mp (by simpa using disputed)
    have free := standing.undisputed token before
    have stored : ∀ other, ledger.tables.announcements.lookup other ≠
        some ⟨token, .transferOwnership⟩ := by
      intro other found
      exact absurd (isContested_iff.mpr ⟨other, found⟩) (by simp [free])
    by_cases self : txid = tx.txid
    · subst self
      rcases inserted.entry token entry with old | ⟨newOwner, kind⟩
      · exact stored _ old
      · have member := listed ⟨token, newOwner⟩ (by simp [Lrc20Transaction.ownershipTransfer, kind])
        exact absurd before (by simp [standing.unannounced token member])
    · exact stored txid ((inserted.others txid self).symm.trans entry)
  case unattached =>
    rw [same]
    exact standing.unattached
  case unannounced =>
    intro token mem
    by_contra isAnnounced'
    have before := announced token (by simpa using isAnnounced')
    exact absurd before (by simp [standing.unannounced token mem])
  case uncontested => exact fun tx mem => absurd mem (by simp)

theorem Standing.attach (standing : Standing [] marked ledger) (mem : tx ∈ marked) :
    Standing [] marked (ledger.attach tx.txid) := by
  have fewer := fewer_attach ledger tx.txid
  obtain ⟨ownRow, ownEntry⟩ := standing.uncontested tx mem
  constructor
  case undisputed =>
    intro token announced
    obtain ⟨txid, entry, attached⟩ := isAnnounced_iff.mp announced
    have before := fewer.announcements txid _ entry
    rcases isAttached_attach attached with rfl | marked
    · exact isContested_fewer fewer (ownEntry _ before rfl)
    · exact isContested_fewer fewer
        (standing.undisputed token (isAnnounced_iff.mpr ⟨txid, before, marked⟩))
  case unattached =>
    intro other mem
    rcases List.mem_append.mp mem with before | own
    · exact standing.unattached other before
    · obtain ⟨row, held, rfl⟩ : ∃ row, ledger.tables.l1Transactions.lookup tx.txid = some row ∧
          row.rawTx = other := by simpa using own
      exact ownRow row held
  case unannounced => exact fun token mem => absurd mem (by simp)
  case uncontested => exact fun other mem => (standing.uncontested other mem).fewer fewer

theorem checkNextTx_standing {client : BitcoinClient} {now : Nat} {state : FullChecking}
    (standing : Standing [] [] state.ledger) :
    Standing [] [] (FullChecking.checkNextTx prims client now state tx).ledger := by
  refine checkNextTx_keeps standing fun tables spark checked => ?_
  rcases checkLrc20Transaction_writes checked with same | ⟨isIssue, -, inserted⟩
  · refine standing.calmer ?_ passed_attachments
    rw [passed_tables]
    exact .of_sameRows same
  · refine standing.inserted ?_ (inserted_of_insertLrc20Transaction inserted)
      passed_tables passed_attachments
    intro transfer transferred
    unfold Lrc20Transaction.ownershipTransfer at transferred
    cases kind : tx.txType with
    | issue outputProofs announcement =>
      rw [kind] at transferred
      cases transferred
    | _ =>
      rw [kind] at isIssue
      cases isIssue

theorem Standing.forget (standing : Standing tokens marked ledger) : Standing [] [] ledger :=
  ⟨standing.undisputed, standing.unattached, fun _ mem => absurd mem (by simp),
    fun _ mem => absurd mem (by simp)⟩

theorem step_standing {node : L1Node} {input : Input} (standing : Standing [] [] node.ledger)
    (calm : node.OwnersUncontested input) : Standing [] [] (step prims node input).ledger := by
  cases input with
  | newLrc20Txs txs sender now =>
    have start : Standing ((txs.filterMap (·.ownershipTransfer)).map (·.tokenPubkey)) []
        node.ledger := by
      refine { standing with unannounced := ?_ }
      intro token mem
      simp only [List.mem_map, List.mem_filterMap] at mem
      obtain ⟨transfer, ⟨tx, delivered, transferred⟩, rfl⟩ := mem
      exact calm tx delivered transfer transferred
    refine Standing.forget (storeNewTxs_keeps settled_standing.quiet.mempool ?_ start)
    intro tx mem ledger ledger' _ kept _ _ inserted
    obtain ⟨tables, written, rfl⟩ := insert_eq_ok inserted
    refine kept.inserted ?_ (inserted_of_insertLrc20Transaction written) rfl rfl
    intro transfer transferred
    exact List.mem_map.mpr ⟨transfer, List.mem_filterMap.mpr ⟨tx, mem, transferred⟩, rfl⟩
  | controller bans =>
    unfold step
    cases inbox : node.toController with
    | nil => exact standing
    | cons message rest =>
      have start : Standing [] message.marked node.ledger :=
        { standing with uncontested := calm message (by simp [inbox]) }
      refine Standing.forget (handleControllerMessage_keeps settled_standing.quiet.mempool
        (fun _ _ entry _ => settled_standing.rejecting entry.1) ?_ start)
      exact fun tx mem ledger kept => kept.attach mem
  | _ =>
    refine step_keeps settled_standing ?_ ?_
      (afterCheck_of_turns standing fun _ _ _ _ kept => checkNextTx_standing kept) standing
    · exact nofun
    · exact fun _ ⟨_, _, _, other, _⟩ => nomatch other

theorem Standing.ownershipChain (standing : Standing tokens marked ledger) :
    OwnershipChain prims ledger := by
  constructor
  case reported =>
    intro token
    have none : lastOwner ledger.attachments token = none := by
      unfold lastOwner
      rw [List.getLast?_eq_none_iff, List.filterMap_eq_nil_iff]
      intro tx mem
      rw [standing.unattached tx mem]
      rfl
    rw [none]
    exact ownerOf_eq_none (standing.undisputed token)
  case authorized =>
    intro before tx after transfer split transferred
    have mem : tx ∈ ledger.attachments := by simp [split]
    cases (standing.unattached tx mem).symm.trans transferred

end Standing

/-- In every run without transfers that contest an announced token, the reported owner is the
one the attached transfers lead to. -/
theorem ownershipChain_of_uncontested (inputs : List Input)
    (run : AllSteps (step prims) OwnersUncontested new inputs) :
    OwnershipChain prims (runFrom (step prims) new inputs).ledger := by
  have start : Standing [] [] new.ledger := by
    refine ⟨?_, ?_, ?_, ?_⟩
    · exact nofun
    · exact nofun
    · exact nofun
    · exact nofun
  have kept := run.invariant (I := fun node => Standing [] [] node.ledger)
    (fun node input standing calm => step_standing standing calm) start
  exact kept.ownershipChain

/-- A stranger's claim to a token. -/
def transferOf (token : TokenPubkey) : Lrc20Transaction :=
  ⟨⟨30, [strangerInput], []⟩,
    .announcement (.transferOwnership ⟨token, Primitives.plain.toP2wpkh (.repeating 8)⟩)⟩

/-- The claim to an announced token counts once it is stored. -/
theorem stranger_is_reported_as_owner :
    ¬ OwnershipChain .plain (runFrom (step .plain) new
      (throughNode capAnnouncement ++ [.newLrc20Txs [transferOf cappedToken] none 1])).ledger := by
  intro chain
  have reported := chain.reported cappedToken
  revert reported
  decide +kernel

/-- The claim to another token, which is not announced, changes nothing. -/
theorem owner_stays_with_another_token_contested :
    AllSteps (step .plain) OwnersUncontested new (throughNode capAnnouncement ++
        [.newLrc20Txs [transferOf (.repeating 9)] none 1]) ∧
      OwnershipChain .plain (runFrom (step .plain) new (throughNode capAnnouncement ++
        [.newLrc20Txs [transferOf (.repeating 9)] none 1])).ledger := by
  have run : AllSteps (step .plain) OwnersUncontested new (throughNode capAnnouncement ++
      [.newLrc20Txs [transferOf (.repeating 9)] none 1]) := by
    decide +kernel
  exact ⟨run, ownershipChain_of_uncontested _ run⟩

end L1Node

end Node

end Lrc20
