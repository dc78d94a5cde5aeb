import Lrc20.Node.Stability

/-! When a transfer is attached: not before the transactions it takes tokens from. -/

open Lrc20.Storage Lrc20.TxAttach Lrc20.TxCheck Runs L1Tables

namespace Lrc20.Node

open ControllerMessage

/-- The transactions a message of the graph builder reports as attached. -/
def ControllerMessage.reported : ControllerMessage → List Lrc20Transaction
  | attachedTxs txs => txs
  | _ => []

namespace L1Node

/-! ### What is settled, and what is reported as attached -/

/-- Attached, and more than an announcement. -/
def isSettled (tables : L1Tables) (txid : Txid) : Bool :=
  match tables.l1Transactions.lookup txid with
  | some row => row.status == .attached && !row.rawTx.txType.isAnnouncement
  | none => false

variable {tables : L1Tables} {txid : Txid} {message : ControllerMessage}

theorem isSettled_iff :
    isSettled tables txid = true ↔ ∃ row, tables.l1Transactions.lookup txid = some row ∧
      row.status = .attached ∧ row.rawTx.txType.isAnnouncement = false := by
  unfold isSettled
  cases tables.l1Transactions.lookup txid with
  | none | some => simp

theorem isSettled_of_steady {tables' : L1Tables} (steady : Steady tables tables')
    (settled : isSettled tables txid = true) : isSettled tables' txid = true := by
  obtain ⟨row, found, attached, kind⟩ := isSettled_iff.mp settled
  have same := (steady txid (isAttached_iff.mpr ⟨row, found, attached⟩)).row
  exact isSettled_iff.mpr ⟨row, same.trans found, attached, kind⟩

def reportedTxids (messages : List ControllerMessage) : List Txid :=
  (messages.flatMap reported).map Lrc20Transaction.txid

/-- Settled, or reported as attached in a message on its way. -/
def Accounted (node : L1Node) (txid : Txid) : Prop :=
  isSettled node.ledger.tables txid = true ∨ txid ∈ reportedTxids node.toController

/-- Every transaction is reported after its parents are settled or reported, or with them. -/
def Ordered (settled : Txid → Prop) : List ControllerMessage → Prop
  | [] => True
  | message :: rest =>
    (∀ tx ∈ message.reported, ∀ parent ∈ tx.parents,
      settled parent ∨ parent ∈ reportedTxids [message]) ∧
    Ordered (fun txid => settled txid ∨ txid ∈ reportedTxids [message]) rest

section Ordered

variable {settled settled' : Txid → Prop} {messages news : List ControllerMessage}

theorem reportedTxids_cons (message : ControllerMessage) (rest : List ControllerMessage) :
    reportedTxids (message :: rest) = reportedTxids [message] ++ reportedTxids rest := by
  simp [reportedTxids]

theorem Ordered.mono (weaker : ∀ txid, settled txid → settled' txid)
    (ordered : Ordered settled messages) : Ordered settled' messages := by
  induction messages generalizing settled settled' with
  | nil => trivial
  | cons message rest ih =>
    constructor
    · intro tx mem parent isParent
      exact (ordered.1 tx mem parent isParent).imp_left (weaker parent)
    · exact ih (fun txid => Or.imp_left (weaker txid)) ordered.2

theorem Ordered.append (ordered : Ordered settled messages)
    (later : Ordered (fun txid => settled txid ∨ txid ∈ reportedTxids messages) news) :
    Ordered settled (messages ++ news) := by
  induction messages generalizing settled with
  | nil => exact later.mono fun txid known => known.resolve_right (by simp [reportedTxids])
  | cons message rest ih =>
    refine ⟨ordered.1, ih ordered.2 (later.mono fun txid known => ?_)⟩
    rw [reportedTxids_cons, List.mem_append] at known
    tauto

/-- None of the messages reports a transaction as attached. -/
def Silent (messages : List ControllerMessage) : Prop :=
  ∀ message ∈ messages, message.reported = []

theorem Silent.append (first : Silent messages) (second : Silent news) :
    Silent (messages ++ news) := by
  intro message mem
  exact (List.mem_append.mp mem).elim (first message) (second message)

theorem silent_nil : Silent [] := nofun

theorem silent_singleton (silent : message.reported = []) : Silent [message] := by
  intro other mem
  rw [List.mem_singleton.mp mem]
  exact silent

theorem ordered_of_silent (silent : Silent messages) : Ordered settled messages := by
  induction messages generalizing settled with
  | nil => trivial
  | cons message rest ih =>
    constructor
    · rw [silent message (by simp)]
      exact nofun
    · exact ih fun other mem => silent other (by simp [mem])

end Ordered

/-! ### What a step does to the messages and to the graph -/

section Messages

variable {prims : Primitives} {node node' : L1Node}

theorem silent_tellInvalid (txs : List Lrc20Transaction) : Silent (tellInvalid txs) := by
  unfold tellInvalid
  split
  · exact silent_nil
  · exact silent_singleton rfl

/-- A step that reports nothing as attached and leaves the graph. -/
structure Aside (node node' : L1Node) : Prop where
  messages : ∃ news, node'.toController = node.toController ++ news ∧ Silent news
  graph : node'.graph = node.graph

theorem Aside.of_eq (messages : node'.toController = node.toController)
    (graph : node'.graph = node.graph) : Aside node node' :=
  ⟨⟨[], by rw [messages, List.append_nil], silent_nil⟩, graph⟩

theorem aside_checkTxsIsolated (txs : List Lrc20Transaction) (node : L1Node) :
    Aside node (checkTxsIsolated prims txs node) := by
  unfold checkTxsIsolated
  split
  · exact .of_eq rfl rfl
  · refine ⟨⟨_, List.append_assoc _ _ _, Silent.append ?_ (silent_tellInvalid _)⟩, rfl⟩
    split
    · exact silent_nil
    · exact silent_singleton rfl

theorem aside_checkTxsFull (client : BitcoinClient) (now : Nat) (txs : List Lrc20Transaction)
    (node : L1Node) : Aside node (checkTxsFull prims client now txs node) := by
  unfold checkTxsFull
  dsimp only
  split
  · exact .of_eq rfl rfl
  · refine ⟨⟨_, List.append_assoc _ _ _, Silent.append ?_ (silent_tellInvalid _)⟩, rfl⟩
    split
    · exact silent_nil
    · exact silent_singleton rfl

/-- The steps other than those of the controller, of the graph builder and of the node as a
whole. -/
def Input.isAside : Input → Bool
  | .controller _ | .graph _ | .cleanup .. | .restart => false
  | _ => true

theorem aside_of_isAside {node : L1Node} {input : Input} (aside : input.isAside) :
    Aside node (step prims node input) := by
  cases input with
  | controller | graph | cleanup | restart => cases aside
  | newLrc20Txs | unconfirmed | spark => exact .of_eq rfl rfl
  | checker client now =>
    unfold step
    cases node.toChecker with
    | nil => exact .of_eq rfl rfl
    | cons message rest =>
      cases message with
      | isolatedCheck txs =>
        have aside := @aside_checkTxsIsolated prims txs { node with toChecker := rest }
        exact ⟨aside.messages, aside.graph⟩
      | fullCheck txs =>
        have aside := @aside_checkTxsFull prims client now txs { node with toChecker := rest }
        exact ⟨aside.messages, aside.graph⟩
  | confirmator =>
    unfold step
    cases node.toConfirm <;> exact .of_eq rfl rfl
  | mined | confirmed | reorganized => exact ⟨⟨_, rfl, silent_singleton rfl⟩, rfl⟩
  | exitsReady txs =>
    unfold step
    dsimp only
    split <;> exact .of_eq rfl rfl
  | exitsOutdated txs => exact ⟨⟨_, rfl, silent_tellInvalid _⟩, rfl⟩

end Messages

/-! ### Where marks come from -/

section Marks

variable {prims : Primitives} {node : L1Node} {input : Input} {txid : Txid}

theorem Fewer.trans {tables tables' tables'' : L1Tables} (first : Fewer tables tables')
    (second : Fewer tables' tables'') : Fewer tables tables'' where
  rows txid row found := by
    obtain ⟨row', held', raw'⟩ := second.rows txid row found
    obtain ⟨before, held, raw⟩ := first.rows txid row' held'
    exact ⟨before, held, raw'.trans raw⟩
  announcements txid entry found :=
    first.announcements txid entry (second.announcements txid entry found)
  tokenPubkeys txid row found := first.tokenPubkeys txid row (second.tokenPubkeys txid row found)

/-- The controller writes no new transaction. -/
theorem fewer_controller (bans : SocketAddr → Bool) :
    Fewer node.ledger.tables (step prims node (.controller bans)).ledger.tables := by
  refine step_keeps_tables ?mempool
    (fun txid status fewer => fewer.trans (fewer_setLrc20TxStatus status))
    (fun txid fewer => fewer.trans calmer_delete.toFewer) nofun
    nofun (Calmer.of_sameRows (.refl _)).toFewer
  rintro tables _ fewer ⟨⟨mempool, rfl⟩, -⟩
  exact { fewer with }

theorem attached_of_step (attached : (step prims node input).ledger.tables.isAttached txid = true) :
    node.ledger.tables.isAttached txid = true ∨ node.Due input txid := by
  revert txid
  refine @step_keeps_of_writes prims (fun ledger => ∀ {txid : Txid},
    ledger.tables.isAttached txid = true → node.ledger.tables.isAttached txid = true ∨
      node.Due input txid) node input ?mempool ?insert ?rejecting ?attach ?cleanup ?check .inl
  case mempool =>
    rintro ledger _ kept ⟨⟨mempool, rfl⟩, -⟩ txid attached
    exact kept attached
  case insert =>
    intro _ _ _ _ tx _ ledger ledger' _ kept _ _ inserted txid attached
    obtain ⟨tables, written, rfl⟩ := insert_eq_ok inserted
    exact kept ((inserted_of_insertLrc20Transaction written).isAttached attached).2
  case rejecting =>
    intro _ _ _ _ _ entry _
    exact ⟨fun _ ledger kept txid attached => kept (calmer_reject.attached txid attached),
      fun ledger kept txid attached => kept (calmer_delete.attached txid attached)⟩
  case attach =>
    intro other isDue ledger kept txid attached
    rcases isAttached_attach attached with rfl | before
    · exact .inr isDue
    · exact kept before
  case cleanup =>
    intro _ _ _ other _ ledger kept txid attached
    exact kept (calmer_delete.attached txid attached)
  case check =>
    intro client now txs _ _ _ txid attached
    left
    revert attached
    refine runFrom_invariant (I := fun state : FullChecking =>
      state.ledger.tables.isAttached txid = true → node.ledger.tables.isAttached txid = true)
      ?_ id txs
    intro state tx kept
    refine checkNextTx_keeps_tables (J := fun tables => tables.isAttached txid = true → _) ?_ ?_
    · exact fun _ => kept
    · intro tables _ inserted attached
      exact kept ((inserted_of_insertLrc20Transaction inserted).isAttached attached).2

end Marks

/-! ### Settling in order -/

/-- A message marks only what its own check passed: the row of an announcement is one, and any
other row is the transaction of the message, not written since it was checked. -/
def MarksOwn (node : L1Node) : Input → Prop
  | .controller _ => ∀ message ∈ node.toController.head?, ∀ tx ∈ message.marked,
      if tx.txType.isAnnouncement then
        ∀ row ∈ node.ledger.tables.l1Transactions.lookup tx.txid, row.rawTx.txType.isAnnouncement
      else (node.ledger.records.lookup tx.txid).map CheckRecord.tx = some tx
  | _ => True

instance (node : L1Node) : (input : Input) → Decidable (MarksOwn node input)
  | .controller _ => inferInstanceAs (Decidable (∀ message ∈ node.toController.head?,
      ∀ tx ∈ message.marked, if tx.txType.isAnnouncement then
        ∀ row ∈ node.ledger.tables.l1Transactions.lookup tx.txid, row.rawTx.txType.isAnnouncement
      else (node.ledger.records.lookup tx.txid).map CheckRecord.tx = some tx))
  | .newLrc20Txs .. | .checker .. | .graph _ | .confirmator | .mined _ | .confirmed _
  | .reorganized _ | .unconfirmed _ | .cleanup .. | .spark _ | .exitsReady _ | .exitsOutdated _
  | .restart => .isTrue trivial

/-- The graph builder finds a parent in the storage only if it is settled or reported. -/
def FindsAccounted (node : L1Node) : Input → Prop
  | .graph env => ∀ batch ∈ node.toGraph.head?,
      Attaching.Sound env node.Accounted (Asked node.graph batch)
  | _ => True

/-- The parents of what is attached are settled, and what is on its way to be attached is ordered
behind its parents. -/
structure Settling (node : L1Node) : Prop where
  filed : Filed node.ledger.tables
  agree : RecordsAgree node.ledger
  parents : ∀ txid row, node.ledger.tables.l1Transactions.lookup txid = some row →
    row.status = .attached → ∀ parent ∈ row.rawTx.parents,
      isSettled node.ledger.tables parent = true
  ordered : Ordered (isSettled node.ledger.tables · = true) node.toController
  reported : ∀ message ∈ node.toController, ∀ tx ∈ message.reported,
    tx.txType.isAnnouncement = false
  stored : ∀ txid tx created, node.graph.storedTxs.lookup txid = some (tx, created) →
    tx.txType.isAnnouncement = false
  waits : Waits node.Accounted node.graph

theorem settling_new : Settling new where
  filed := ⟨nofun, nofun⟩
  agree := nofun
  parents := nofun
  ordered := trivial
  reported := nofun
  stored := nofun
  waits := waits_new _

section Step

variable {prims : Primitives} {node : L1Node} {input : Input} {bans : SocketAddr → Bool}
  {txid : Txid} {tx : Lrc20Transaction} {message : ControllerMessage}
  {rest : List ControllerMessage} {row : L1Row} {env : Surroundings}

theorem parents_of_isAnnouncement (kind : tx.txType.isAnnouncement = true) : tx.parents = [] := by
  obtain ⟨bitcoinTx, txType⟩ := tx
  cases txType with
  | announcement announcement => rfl
  | _ => cases kind

/-- A row that is newly marked is the reported transaction, or has no parents. -/
theorem row_of_mark (settling : Settling node) (inbox : node.toController = message :: rest)
    (marks : MarksOwn node (.controller bans)) (mem : tx ∈ message.marked)
    (found : (step prims node (.controller bans)).ledger.tables.l1Transactions.lookup tx.txid =
      some row) :
    row.rawTx.txType.isAnnouncement = true ∨ tx ∈ message.reported ∧ row.rawTx = tx := by
  obtain ⟨before, held, raw⟩ := (fewer_controller bans).rows tx.txid row found
  have own := marks message (by simp [inbox]) tx mem
  rw [raw]
  split at own
  · exact .inl (own before held)
  case isFalse kind =>
    right
    obtain ⟨record, recorded, rfl⟩ := Option.map_eq_some_iff.mp own
    have agrees := (settling.agree record.tx.txid record recorded).2
    rw [held] at agrees
    refine ⟨?_, Option.some.inj agrees⟩
    cases message with
    | attachedTxs txs => exact mem
    | fullyCheckedTxs txs => exact absurd (List.mem_filter.mp mem).2 kind
    | _ => cases mem

theorem settled_of_reported (settling : Settling node) (inbox : node.toController = message :: rest)
    (marks : MarksOwn node (.controller bans)) (mem : txid ∈ reportedTxids [message]) :
    isSettled (step prims node (.controller bans)).ledger.tables txid = true := by
  cases message with
  | attachedTxs txs =>
    obtain ⟨tx, isTx, rfl⟩ := List.mem_map.mp mem
    have isTx : tx ∈ txs := by simpa [reported] using isTx
    have kind := settling.reported (.attachedTxs txs) (by simp [inbox]) tx isTx
    have own := marks (.attachedTxs txs) (by simp [inbox]) tx isTx
    rw [if_neg (by simp [kind])] at own
    obtain ⟨record, recorded, same⟩ := Option.map_eq_some_iff.mp own
    have agrees := (settling.agree tx.txid record recorded).2
    obtain ⟨row, held, raw⟩ := Option.map_eq_some_iff.mp agrees
    have marked : (step prims node (.controller bans)).ledger.tables.isAttached tx.txid = true := by
      rw [step_attachedTxs inbox]
      exact isAttached_attachAll isTx (by rw [held]; exact Option.some_ne_none row)
    obtain ⟨row', found, attached⟩ := isAttached_iff.mp marked
    obtain ⟨before, held', raw'⟩ := (fewer_controller bans).rows tx.txid row' found
    obtain rfl := Option.some.inj (held'.symm.trans held)
    exact isSettled_iff.mpr ⟨row', found, attached, by rw [raw', raw, same]; exact kind⟩
  | _ => cases mem

theorem step_parents (settling : Settling node) (leaves : LeavesAttached prims node input)
    (marks : MarksOwn node input)
    (found : (step prims node input).ledger.tables.l1Transactions.lookup txid = some row)
    (attached : row.status = .attached) {parent : Txid} (isParent : parent ∈ row.rawTx.parents) :
    isSettled (step prims node input).ledger.tables parent = true := by
  have steady := step_steady settling.filed leaves
  rcases attached_of_step (isAttached_iff.mpr ⟨row, found, attached⟩) with
    before | ⟨bans, message, rest, rfl, inbox, tx, mem, rfl⟩
  · -- The row was attached before and is the same.
    rw [(steady txid before).row] at found
    exact isSettled_of_steady steady (settling.parents txid row found attached parent isParent)
  · rcases row_of_mark settling inbox marks mem found with announcement | ⟨isReported, rfl⟩
    · rw [parents_of_isAnnouncement announcement] at isParent
      cases isParent
    · have ordered := settling.ordered
      rw [inbox] at ordered
      rcases ordered.1 row.rawTx isReported parent isParent with settled | together
      · exact isSettled_of_steady steady settled
      · exact settled_of_reported settling inbox marks together

theorem Accounted.of_steady {node' : L1Node}
    (steady : Steady node.ledger.tables node'.ledger.tables)
    (messages : txid ∈ reportedTxids node.toController → node'.Accounted txid)
    (accounted : node.Accounted txid) : node'.Accounted txid := by
  rcases accounted with settled | reported
  · exact .inl (isSettled_of_steady steady settled)
  · exact messages reported

theorem reportedTxids_append (messages news : List ControllerMessage) :
    reportedTxids (messages ++ news) = reportedTxids messages ++ reportedTxids news := by
  simp [reportedTxids]

section

variable (settling : Settling node)
include settling

theorem step_settling_aside (leaves : LeavesAttached prims node input)
    (marks : MarksOwn node input) (aside : input.isAside) : Settling (step prims node input) := by
  have steady := step_steady settling.filed leaves
  obtain ⟨⟨news, messages, silent⟩, graph⟩ := @aside_of_isAside prims node input aside
  refine ⟨step_filed input settling.filed, step_recordsAgree input settling.agree,
    fun _ _ found attached _ => step_parents settling leaves marks found attached, ?_, ?_, ?_, ?_⟩
  · rw [messages]
    have kept := settling.ordered.mono fun txid => isSettled_of_steady steady
    exact kept.append (ordered_of_silent silent)
  · rw [messages]
    intro message mem tx reported
    rcases List.mem_append.mp mem with mem | mem
    · exact settling.reported message mem tx reported
    · rw [silent message mem] at reported
      cases reported
  · rw [graph]
    exact settling.stored
  · rw [graph]
    refine settling.waits.mono fun txid => Accounted.of_steady steady fun reported => .inr ?_
    rw [messages, reportedTxids_append]
    exact List.mem_append_left _ reported

theorem step_settling_controller (leaves : LeavesAttached prims node (.controller bans))
    (marks : MarksOwn node (.controller bans)) : Settling (step prims node (.controller bans)) := by
  have steady := step_steady settling.filed leaves
  have filed := @step_filed node prims (.controller bans) settling.filed
  have agree := @step_recordsAgree prims node (.controller bans) settling.agree
  have parents : ∀ txid row,
      (step prims node (.controller bans)).ledger.tables.l1Transactions.lookup txid = some row →
      row.status = .attached → ∀ parent ∈ row.rawTx.parents,
      isSettled (step prims node (.controller bans)).ledger.tables parent = true :=
    fun _ _ found attached _ => step_parents settling leaves marks found attached
  cases inbox : node.toController with
  | nil =>
    have same : step prims node (.controller bans) = node := by
      unfold step
      rw [inbox]
    rw [same]
    exact settling
  | cons message rest =>
    have kept : (step prims node (.controller bans)).toController = rest ∧
        (step prims node (.controller bans)).graph = node.graph := by
      unfold step
      rw [inbox]
      exact (handleControllerMessage_frame bans { node with toController := rest } message).2
    have ordered := settling.ordered
    rw [inbox] at ordered
    have reported := settling.reported
    rw [inbox] at reported
    refine ⟨filed, agree, parents, ?_, ?_, ?_, ?_⟩
    · rw [kept.1]
      exact ordered.2.mono fun txid known => known.elim (isSettled_of_steady steady)
        (settled_of_reported settling inbox marks)
    · rw [kept.1]
      exact fun other mem => reported other (by simp [mem])
    · rw [kept.2]
      exact settling.stored
    · rw [kept.2]
      refine settling.waits.mono fun txid => Accounted.of_steady steady fun known => ?_
      rw [inbox, reportedTxids_cons, List.mem_append] at known
      rcases known with first | later
      · exact .inl (settled_of_reported settling inbox marks first)
      · right
        rw [kept.1]
        exact later

theorem step_settling_graph (finds : FindsAccounted node (.graph env)) :
    Settling (step prims node (.graph env)) := by
  unfold step
  cases inbox : node.toGraph with
  | nil => exact settling
  | cons batch rest =>
    have sound : Attaching.Sound env node.Accounted
        (Asked node.graph (batch.filter fun tx => !tx.txType.isAnnouncement)) := by
      intro n parent asked
      refine finds batch (by simp [inbox]) n parent (asked.imp_left ?_)
      rintro ⟨tx, mem, isParent⟩
      exact ⟨tx, (List.mem_filter.mp mem).1, isParent⟩
    obtain ⟨waits, stored, attached⟩ := attachTxs_spec
      (fun tx => tx.txType.isAnnouncement = false) sound settling.waits settling.stored
      (fun tx mem => by simpa using (List.mem_filter.mp mem).2)
    rw [attachTxs_filter] at waits stored attached
    unfold attachBatch
    dsimp only
    split
    case isTrue nothing =>
      rw [nothing] at waits
      exact { settling with
        stored, waits := waits.mono fun txid known => known.resolve_right (by simp) }
    case isFalse some =>
      refine ⟨settling.filed, settling.agree, settling.parents, settling.ordered.append ?_, ?_,
        stored, waits.mono fun txid known => ?_⟩
      · refine ⟨fun tx mem parent isParent => ?_, trivial⟩
        exact ((attached tx mem).2 parent isParent).imp_right fun together =>
          by simpa [reportedTxids, reported] using together
      · intro message mem tx isReported
        rcases List.mem_append.mp mem with mem | mem
        · exact settling.reported message mem tx isReported
        · rw [List.mem_singleton.mp mem] at isReported
          exact (attached tx isReported).1
      · rcases known with (settled | reported) | together
        · exact .inl settled
        · right
          rw [reportedTxids_append]
          exact List.mem_append_left _ reported
        · right
          rw [reportedTxids_append]
          exact List.mem_append_right _ (by simpa [reportedTxids, reported] using together)

theorem step_settling_cleanup {duration : Nat}
    (leaves : LeavesAttached prims node (.cleanup env duration)) :
    Settling (step prims node (.cleanup env duration)) := by
  have steady := step_steady settling.filed leaves
  refine ⟨step_filed _ settling.filed, step_recordsAgree _ settling.agree,
    fun _ _ found attached _ => step_parents settling leaves trivial found attached,
    settling.ordered.mono fun _ => isSettled_of_steady steady, settling.reported,
    handleCleanup_stored duration settling.stored, ?_⟩
  have waits := @handleCleanup_waits env node.Accounted node.graph duration settling.waits
  exact waits.mono fun txid => Accounted.of_steady steady .inr

theorem step_settling_restart : Settling (step prims node .restart) where
  filed := settling.filed
  agree := settling.agree
  parents := settling.parents
  ordered := trivial
  reported := nofun
  stored := nofun
  waits := waits_new _

theorem step_settling (leaves : LeavesAttached prims node input) (marks : MarksOwn node input)
    (finds : FindsAccounted node input) : Settling (step prims node input) := by
  cases input with
  | controller bans => exact step_settling_controller settling leaves marks
  | graph env => exact step_settling_graph settling finds
  | cleanup env duration => exact step_settling_cleanup settling leaves
  | restart => exact step_settling_restart settling
  | _ => exact step_settling_aside settling leaves marks rfl

end

end Step

end L1Node

end Lrc20.Node
