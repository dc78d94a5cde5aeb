import Lrc20.Lib.Runs
import Lrc20.P2p.PeerManager

/-! The P2P state machine, and what it has seen of a peer when it forwards a message. -/

open Runs
open scoped List

namespace Lrc20.P2p

inductive ControllerP2PMessage where
  | inv (inv : List Inventory) (sender : SocketAddr)
  | getData (inv : List Inventory) (sender : SocketAddr)
  | lrc20Tx (txs : List Lrc20Transaction) (sender : SocketAddr)
  | sparkTxs (txs : List TokenTransaction) (sender : SocketAddr)
  | sparkSignatureData (data : List SparkSignatureData) (sender : SocketAddr)
deriving DecidableEq

def ControllerP2PMessage.sender : ControllerP2PMessage → SocketAddr
  | .inv _ sender | .getData _ sender | .lrc20Tx _ sender | .sparkTxs _ sender
  | .sparkSignatureData _ sender => sender

/-- The messages a payload is forwarded to the controller as. -/
def forwardedAs (payload : NetworkMessage) (sender : SocketAddr) : List ControllerP2PMessage :=
  match payload with
  | .inv inv => [.inv inv sender]
  | .getData inv => [.getData inv sender]
  | .lrc20Tx txs => [.lrc20Tx txs sender]
  | .sparkTx txs => [.sparkTxs txs sender]
  | .sparkSig data => [.sparkSignatureData data sender]
  | _ => []

/-- The part of the state machine that decides on messages. The other managers keep addresses,
pings and sockets. -/
structure StateMachine where
  peermgr : PeerManager
  lastTick : LocalTime
  now : LocalTime

/-- The calls of the reactor and the commands, with the answers of the other managers. -/
inductive Event where
  | initialized (time : LocalTime) (addrs : Addresses)
  | messageReceived (addr : SocketAddr) (message : RawNetworkMessage)
  | attempted (addr : SocketAddr)
  | connected (addr localAddr : SocketAddr) (link : Link) (isBanned : Bool) (nonce : UInt64)
  | disconnected (addr : SocketAddr) (addrs : Addresses)
  | tick (time : LocalTime)
  | timerExpired (refs : SocketAddr → Nat) (addrs : Addresses)
  | connect (addr : SocketAddr)
  | disconnect (addr : SocketAddr)
  | banPeer (addr : SocketAddr)

/-- The machine after an event, what it asks of the reactor, and what it forwards. -/
structure Handled where
  machine : StateMachine
  io : List Io
  forwarded : List ControllerP2PMessage

namespace StateMachine

variable (magic : List.Vector UInt8 4)

def new (config : Config) : StateMachine := ⟨.new config, 0, 0⟩

variable (machine : StateMachine)

/-- The machine with another peer manager. -/
def managed (result : PeerManager × List Io) : Handled :=
  ⟨{ machine with peermgr := result.1 }, result.2, []⟩

/-- The branches of `message_received` on the payload. -/
def receive (addr : SocketAddr) (payload : NetworkMessage) : Handled :=
  match payload with
  | .verack => machine.managed (machine.peermgr.receivedVerack addr machine.lastTick)
  | .wtxidRelay => machine.managed (machine.peermgr.receivedWtxidrelay addr)
  | .ltxidRelay => machine.managed (machine.peermgr.receivedLtxidrelay addr)
  | .ltxidack => machine.managed (machine.peermgr.receivedLtxidack addr machine.lastTick)
  | .version message =>
    machine.managed (machine.peermgr.receivedVersion machine.now addr message)
  | payload => ⟨machine, [], forwardedAs payload addr⟩

/-- A wrong magic number only asks for a disconnection: the message is handled all the same. -/
def messageReceived (addr : SocketAddr) (message : RawNetworkMessage) : Handled :=
  let io := if message.magic ≠ magic then
      machine.peermgr.disconnect addr (.peerMagic message.magic) else []
  if !machine.peermgr.isConnected addr then ⟨machine, io, []⟩
  else
    let handled := machine.receive addr message.payload
    { handled with io := io ++ handled.io }

def timerExpired (refs : SocketAddr → Nat) (addrs : Addresses) : Handled :=
  let handled := machine.managed (machine.peermgr.receivedWake machine.now refs addrs)
  if 10 * 1000 ≤ machine.now - machine.lastTick then
    { handled with machine.lastTick := machine.now }
  else handled

def handle : Event → Handled
  | .initialized time addrs =>
    { machine with now := time }.managed (machine.peermgr.initializePeers time addrs)
  | .messageReceived addr message => machine.messageReceived magic addr message
  | .attempted _ => ⟨machine, [], []⟩
  | .connected addr localAddr link isBanned nonce =>
    if isBanned then ⟨machine, [], []⟩
    else machine.managed (machine.peermgr.peerConnected machine.now nonce addr localAddr link)
  | .disconnected addr addrs =>
    machine.managed (machine.peermgr.peerDisconnected machine.now addrs addr)
  | .tick time => ⟨{ machine with now := time }, [], []⟩
  | .timerExpired refs addrs => machine.timerExpired refs addrs
  | .connect addr =>
    machine.managed ((machine.peermgr.whitelist addr).connect machine.now addr none).2
  | .disconnect addr => ⟨machine, machine.peermgr.disconnect addr .command, []⟩
  | .banPeer addr => ⟨machine, machine.peermgr.disconnect addr .peerBanned, []⟩

def step (event : Event) : StateMachine :=
  (machine.handle magic event).machine

end StateMachine

/-! ### What was received on a connection -/

inductive HandshakeMessage where
  | version
  | ltxidack
  | verack
deriving DecidableEq

def handshakeMessage : NetworkMessage → Option HandshakeMessage
  | .version _ => some .version
  | .ltxidack => some .ltxidack
  | .verack => some .verack
  | _ => none

/-- The messages of a handshake that a state of it stands for. -/
def HandshakeState.received : HandshakeState → List HandshakeMessage
  | .version _ => [.version]
  | .ltxidack _ => [.version, .ltxidack]
  | .verack _ => [.version, .ltxidack, .verack]

/-- The handshake messages received from an address on its current connection, after one more
event. -/
def receivedAfter (addr : SocketAddr) (received : List HandshakeMessage) :
    Event → List HandshakeMessage
  | .connected other _ _ isBanned _ => if other = addr ∧ !isBanned then [] else received
  | .disconnected other _ => if other = addr then [] else received
  | .messageReceived other message =>
    if other = addr then received ++ (handshakeMessage message.payload).toList else received
  | _ => received

def receivedFrom (addr : SocketAddr) (events : List Event) : List HandshakeMessage :=
  events.foldl (receivedAfter addr) []

/-- The address has sent `version`, `ltxidack` and `verack` on its current connection. -/
def CompletedHandshake (addr : SocketAddr) (events : List Event) : Prop :=
  [.version, .ltxidack, .verack] <+ receivedFrom addr events

/-! ### New connections -/

namespace PeerManager

/-- Only addresses that had no peer are dialled. -/
def Dials (manager next : PeerManager) : Prop :=
  ∀ addr, next.peersStorage.lookup addr = manager.peersStorage.lookup addr ∨
    ∃ time host, next.peersStorage.lookup addr = some ⟨.connecting time, host⟩

variable {manager next last : PeerManager} {now : LocalTime} {addrs : Addresses}

theorem Dials.same (same : next.peersStorage = manager.peersStorage) : Dials manager next :=
  fun addr => Or.inl (by rw [same])

theorem Dials.trans (first : Dials manager next) (second : Dials next last) :
    Dials manager last := by
  intro addr
  rcases second addr with same | dialled
  · rw [same]
    exact first addr
  · exact Or.inr dialled

section

variable (manager : PeerManager)

theorem connect_dials (now : LocalTime) (addr : SocketAddr) (host : Option PeerAddr) :
    Dials manager (manager.connect now addr host).2.1 := by
  unfold connect
  split
  · exact .same rfl
  · split
    · exact .same rfl
    · intro other
      by_cases here : other = addr
      · subst here
        exact Or.inr ⟨now, host, AList.lookup_insert _⟩
      · exact Or.inl (AList.lookup_insert_ne here)

theorem sampleConnections_dials (delta : Nat) (sampled : List (Option SocketAddr)) :
    ∀ (connecting : List SocketAddr) (manager : PeerManager),
      Dials manager (sampleConnections now delta sampled connecting manager).1 := by
  induction sampled with
  | nil => exact fun _ _ => .same rfl
  | cons sample rest ih =>
    intro connecting manager
    cases sample with
    | none => exact ih connecting manager
    | some addr =>
      unfold sampleConnections
      split
      · exact (connect_dials manager now addr none).trans (ih _ _)
      · exact .same rfl

theorem maintainConnections_dials : Dials manager (manager.maintainConnections now addrs).1 := by
  unfold maintainConnections
  split
  · exact .same rfl
  · split
    · exact sampleConnections_dials _ _ _ _
    · exact .same rfl

theorem connectAll_dials (host : Option PeerAddr) (found : List SocketAddr) :
    ∀ manager : PeerManager, Dials manager (connectAll now host found manager).1 := by
  induction found with
  | nil => exact fun _ => .same rfl
  | cons addr rest ih =>
    intro manager
    exact (connect_dials manager now addr host).trans (ih _)

theorem connectHosts_dials {unresolved : PeerAddr → PeerManager → PeerManager}
    (keeps : ∀ host manager, Dials manager (unresolved host manager)) (hosts : List PeerAddr) :
    ∀ manager : PeerManager, Dials manager (connectHosts now addrs unresolved hosts manager).1 := by
  induction hosts with
  | nil => exact fun _ => .same rfl
  | cons host rest ih =>
    intro manager
    refine Dials.trans ?_ (ih _)
    cases addrs.resolve host with
    | none => exact keeps host manager
    | some found => exact connectAll_dials (some host) found manager

theorem maintainPersistent_dials : Dials manager (manager.maintainPersistent now addrs).1 := by
  unfold maintainPersistent
  refine Dials.trans ?_ (connectHosts_dials (fun _ _ => .same rfl) _ _)
  exact .same rfl

theorem maintainNewcome_dials (newcome : List (Option SocketAddr)) :
    ∀ manager : PeerManager, Dials manager (maintainNewcome now newcome manager).1 := by
  induction newcome with
  | nil => exact fun _ => .same rfl
  | cons sample rest ih =>
    intro manager
    cases sample with
    | none => exact ih manager
    | some addr =>
      refine Dials.trans (Dials.trans ?_ (connect_dials (manager.whitelist addr) now addr none))
        (ih _)
      exact .same rfl

theorem initializePeers_dials : Dials manager (manager.initializePeers now addrs).1 := by
  refine Dials.trans (connectHosts_dials ?_ _ _) (maintainConnections_dials _)
  exact fun _ _ => .same rfl

theorem receivedWake_dials (refs : SocketAddr → Nat) :
    Dials manager (manager.receivedWake now refs addrs).1 := by
  unfold receivedWake
  refine Dials.trans (Dials.trans ?_ (maintainPersistent_dials _)) (maintainNewcome_dials _ _)
  split
  · exact maintainConnections_dials manager
  · exact .same rfl

end

/-! ### The record of a handshake -/

/-- The information kept on each connected peer is true of what was received from it. -/
def Records (received : SocketAddr → List HandshakeMessage) (manager : PeerManager) : Prop :=
  ∀ addr conn peer host, manager.peersStorage.lookup addr = some ⟨.connected conn peer, host⟩ →
    conn.socketAddr = addr ∧ ∀ info ∈ peer, info.state.received <+ received addr

variable {received later : SocketAddr → List HandshakeMessage} {addr : SocketAddr}

section

variable (records : Records received manager)
include records

theorem Records.dials (dials : Dials manager next) : Records received next := by
  intro addr conn peer host found
  rcases dials addr with same | ⟨time, other, dialled⟩
  · exact records addr conn peer host (same ▸ found)
  · rw [dialled] at found
    cases found

theorem Records.mono (grows : ∀ addr, received addr <+ later addr) : Records later manager := by
  intro addr conn peer host found
  obtain ⟨sameAddr, known⟩ := records addr conn peer host found
  exact ⟨sameAddr, fun info isInfo => (known info isInfo).trans (grows addr)⟩

theorem Records.insert {addr : SocketAddr}
    {conn : Connection} {peer : Option PeerInfo} {host : Option PeerAddr}
    (sameAddr : conn.socketAddr = addr) (known : ∀ info ∈ peer, info.state.received <+ later addr)
    (grows : ∀ other, other ≠ addr → received other <+ later other)
    (stored : next.peersStorage = manager.peersStorage.insert addr ⟨.connected conn peer, host⟩) :
    Records later next := by
  intro other conn' peer' host' found
  rw [stored] at found
  by_cases here : other = addr
  · subst here
    rw [AList.lookup_insert] at found
    cases found
    exact ⟨sameAddr, known⟩
  · rw [AList.lookup_insert_ne here] at found
    obtain ⟨sameAddr', known'⟩ := records other conn' peer' host' found
    exact ⟨sameAddr', fun info isInfo => (known' info isInfo).trans (grows other here)⟩

theorem Records.updateInfo
    {update : PeerInfo → PeerInfo × List Io} (grows : ∀ other, received other <+ later other)
    (updated : ∀ info, info.state.received <+ received addr →
      (update info).1.state.received <+ later addr) :
    Records later (manager.updateInfo addr update).1 := by
  unfold PeerManager.updateInfo
  split
  · rename_i conn info host found
    obtain ⟨sameAddr, known⟩ := records addr conn (some info) host found
    refine records.insert sameAddr ?_ (fun other _ => grows other) rfl
    intro info' isInfo
    cases isInfo
    exact updated info (known info rfl)
  · exact records.mono grows

theorem Records.receivedVersion {message : VersionMessage}
    (grows : ∀ other, received other <+ later other) (now : LocalTime)
    (sent : [.version] <+ later addr) :
    Records later (manager.receivedVersion now addr message).1 := by
  unfold PeerManager.receivedVersion
  split
  · rename_i conn peer host found
    obtain ⟨sameAddr, -⟩ := records addr conn peer host found
    split
    · exact records.mono grows
    · refine records.insert rfl ?_ (fun other _ => grows other) rfl
      intro info isInfo
      cases isInfo
      rw [sameAddr]
      exact sent
  · exact records.mono grows

end

theorem peerConnected_stored (manager : PeerManager) (now : LocalTime) (nonce : UInt64)
    (addr localAddr : SocketAddr) (link : Link) :
    (manager.peerConnected now nonce addr localAddr link).1.peersStorage =
      manager.peersStorage.insert addr ⟨.connected ⟨addr, localAddr, link, now⟩ none, none⟩ := by
  unfold peerConnected
  cases link with
  | inbound =>
    simp only [apply_ite Prod.fst, ite_self]
  | outbound => rfl

theorem Records.erase (records : Records received manager)
    (grows : ∀ other, other ≠ addr → received other <+ later other)
    (stored : next.peersStorage = manager.peersStorage.erase addr) : Records later next := by
  intro other conn peer host found
  rw [stored] at found
  by_cases here : other = addr
  · subst here
    rw [AList.lookup_erase] at found
    cases found
  · rw [AList.lookup_erase_ne here] at found
    obtain ⟨sameAddr, known⟩ := records other conn peer host found
    exact ⟨sameAddr, fun info isInfo => (known info isInfo).trans (grows other here)⟩

end PeerManager

namespace StateMachine

open PeerManager

variable {magic : List.Vector UInt8 4} {machine : StateMachine}
  {received : SocketAddr → List HandshakeMessage} {addr : SocketAddr}
  {forwarded : ControllerP2PMessage} {payload : NetworkMessage}

/-- A message of the handshake is the next of those received. -/
theorem extends_received {message : RawNetworkMessage} {next : HandshakeMessage}
    {messages before : List HandshakeMessage}
    (isNext : handshakeMessage message.payload = some next) (known : before <+ messages) :
    before ++ [next] <+ receivedAfter addr messages (.messageReceived addr message) := by
  rw [receivedAfter, if_pos rfl, isNext]
  exact known.append (List.Sublist.refl _)

theorem messageReceived_connected (message : RawNetworkMessage)
    (connected : machine.peermgr.isConnected addr = true) :
    (machine.messageReceived magic addr message).machine =
        (machine.receive addr message.payload).machine ∧
      (machine.messageReceived magic addr message).forwarded =
        (machine.receive addr message.payload).forwarded := by
  simp [StateMachine.messageReceived, connected]

theorem messageReceived_unknown (message : RawNetworkMessage)
    (unknown : machine.peermgr.isConnected addr = false) :
    (machine.messageReceived magic addr message).machine = machine ∧
      (machine.messageReceived magic addr message).forwarded = [] := by
  simp [StateMachine.messageReceived, unknown]

theorem records_messageReceived (records : Records received machine.peermgr) (addr : SocketAddr)
    (message : RawNetworkMessage) :
    Records (fun other => receivedAfter other (received other) (.messageReceived addr message))
      (machine.messageReceived magic addr message).machine.peermgr := by
  have grows : ∀ other, received other <+
      receivedAfter other (received other) (.messageReceived addr message) := by
    intro other
    by_cases here : addr = other
    · rw [receivedAfter, if_pos here]
      exact List.sublist_append_left _ _
    · rw [receivedAfter, if_neg here]
  have kept := records.mono grows
  cases connected : machine.peermgr.isConnected addr with
  | false =>
    rw [(messageReceived_unknown message connected).1]
    exact kept
  | true =>
    rw [(messageReceived_connected message connected).1]
    unfold receive
    cases payload : message.payload with
    | version version =>
      refine records.receivedVersion grows machine.now ?_
      exact extends_received (by rw [payload]; rfl) (List.nil_sublist _)
    | ltxidack =>
      refine records.updateInfo grows ?_
      intro info known
      cases state : info.state with
      | version since =>
        rw [state] at known
        exact extends_received (by rw [payload]; rfl) known
      | ltxidack | verack => simpa [state] using known.trans (grows addr)
    | verack =>
      refine records.updateInfo grows ?_
      intro info known
      cases state : info.state with
      | version | verack => simpa [state] using known.trans (grows addr)
      | ltxidack since =>
        rw [state] at known
        exact extends_received (by rw [payload]; rfl) known
    | wtxidRelay | ltxidRelay =>
      refine records.updateInfo grows ?_
      intro info known
      cases state : info.state <;> simpa [state] using known.trans (grows addr)
    | inv | addr | getAddr | getData | lrc20Tx | sparkTx | sparkSig | ping | pong | unknown =>
      exact kept

theorem records_step (records : Records received machine.peermgr) (event : Event) :
    Records (fun addr => receivedAfter addr (received addr) event)
      (machine.step magic event).peermgr := by
  cases event with
  | initialized time addrs => exact records.dials (initializePeers_dials machine.peermgr)
  | messageReceived addr message => exact records_messageReceived records addr message
  | attempted | tick | disconnect | banPeer => exact records
  | connected addr localAddr link isBanned nonce =>
    cases isBanned with
    | true =>
      show Records _ machine.peermgr
      refine records.mono ?_
      intro other
      simp [receivedAfter]
    | false =>
      show Records _ (machine.peermgr.peerConnected machine.now nonce addr localAddr link).1
      have stored := peerConnected_stored machine.peermgr machine.now nonce addr localAddr link
      refine @Records.insert _ _ _ _ records addr _ _ _ rfl ?_ ?_ stored
      · intro info isInfo
        cases isInfo
      · intro other there
        rw [receivedAfter, if_neg fun here => there here.1.symm]
  | disconnected addr addrs =>
    have grows : ∀ other, other ≠ addr →
        received other <+ receivedAfter other (received other) (.disconnected addr addrs) := by
      intro other there
      rw [receivedAfter, if_neg there.symm]
    show Records _ (machine.peermgr.peerDisconnected machine.now addrs addr).1
    unfold peerDisconnected
    split
    · exact records.erase grows rfl
    · exact (records.erase grows rfl).dials (maintainConnections_dials _)
  | timerExpired refs addrs =>
    have woken : Records received (machine.peermgr.receivedWake machine.now refs addrs).1 :=
      records.dials (receivedWake_dials machine.peermgr refs)
    unfold step handle timerExpired
    simp only
    split
    · exact woken
    · exact woken
  | connect addr =>
    refine records.dials (Dials.trans ?_ (connect_dials (machine.peermgr.whitelist addr) _ _ _))
    exact .same rfl

theorem records_run (config : Config) (events : List Event) :
    Records (fun addr => receivedFrom addr events)
      (runFrom (step magic) (new config) events).peermgr := by
  induction events using List.reverseRecOn with
  | nil =>
    intro addr conn peer host found
    cases found
  | append_singleton events event ih =>
    have next : Records _ (step magic _ event).peermgr := records_step ih event
    have grown : (fun addr => receivedFrom addr (events ++ [event])) =
        fun addr => receivedAfter addr (receivedFrom addr events) event := by
      funext addr
      exact List.foldl_append
    rw [runFrom_append, grown]
    exact next

/-- The address has a connected peer that is negotiated. -/
def hasNegotiated (machine : StateMachine) (addr : SocketAddr) : Bool :=
  (machine.peermgr.peersStorage.lookup addr).any fun peer => match peer.state with
    | .connected _ (some info) => info.isNegotiated
    | _ => false

/-- A payload for the controller from a connected address carries the magic of the network, and
the peer is negotiated. -/
def Admitted (magic : List.Vector UInt8 4) (machine : StateMachine) : Event → Prop
  | .messageReceived addr message =>
    forwardedAs message.payload addr ≠ [] → machine.peermgr.isConnected addr = true →
      message.magic = magic ∧ machine.hasNegotiated addr = true
  | _ => True

theorem completed_of_negotiated {events : List Event}
    (records : Records (fun addr => receivedFrom addr events) machine.peermgr)
    (negotiated : machine.hasNegotiated addr = true) : CompletedHandshake addr events := by
  unfold hasNegotiated at negotiated
  cases found : machine.peermgr.peersStorage.lookup addr with
  | none =>
    rw [found] at negotiated
    cases negotiated
  | some peer =>
    rw [found, Option.any_some] at negotiated
    obtain ⟨state, host⟩ := peer
    match state with
    | .connecting _ => cases negotiated
    | .connected _ none => cases negotiated
    | .connected conn (some info) =>
      obtain ⟨-, known⟩ := records addr conn (some info) host found
      have received := known info rfl
      have isNegotiated : info.isNegotiated = true := negotiated
      unfold PeerInfo.isNegotiated at isNegotiated
      cases state : info.state with
      | version | ltxidack => simp [state] at isNegotiated
      | verack since =>
        rw [state] at received
        exact received

theorem forwardedAs_sender (sent : forwarded ∈ forwardedAs payload addr) :
    forwarded.sender = addr := by
  cases payload
  case inv | getData | lrc20Tx | sparkTx | sparkSig =>
    rw [List.mem_singleton.mp sent]
    rfl
  all_goals cases sent

theorem receive_forwarded (isForwarded : forwarded ∈ (machine.receive addr payload).forwarded) :
    forwarded ∈ forwardedAs payload addr := by
  cases payload
  all_goals exact isForwarded

/-- Only a message from a connected address is forwarded. -/
theorem forwarded_cases {event : Event}
    (isForwarded : forwarded ∈ (machine.handle magic event).forwarded) :
    ∃ message, event = .messageReceived forwarded.sender message ∧
      forwarded ∈ forwardedAs message.payload forwarded.sender ∧
      machine.peermgr.isConnected forwarded.sender = true := by
  cases event with
  | messageReceived addr message =>
    rw [handle] at isForwarded
    cases connected : machine.peermgr.isConnected addr with
    | false =>
      rw [(messageReceived_unknown message connected).2] at isForwarded
      cases isForwarded
    | true =>
      rw [(messageReceived_connected message connected).2] at isForwarded
      have sent := receive_forwarded isForwarded
      have sender := forwardedAs_sender sent
      subst sender
      exact ⟨message, rfl, sent, connected⟩
  | connected addr localAddr link isBanned nonce =>
    cases isBanned
    all_goals cases isForwarded
  | timerExpired refs addrs =>
    rw [handle, timerExpired] at isForwarded
    split at isForwarded
    all_goals cases isForwarded
  | initialized | attempted | disconnected | tick | connect | disconnect | banPeer =>
    cases isForwarded

/-- What is forwarded in an admitted step of any run comes from an address that completed the
handshake on its current connection, with the magic of the network. -/
theorem forwarded_after_handshake (magic : List.Vector UInt8 4) (config : Config)
    (events : List Event) (event : Event)
    (admitted : Admitted magic (runFrom (step magic) (new config) events) event) :
    ∀ forwarded ∈ ((runFrom (step magic) (new config) events).handle magic event).forwarded,
      ∃ message, event = .messageReceived forwarded.sender message ∧ message.magic = magic ∧
        CompletedHandshake forwarded.sender events := by
  intro forwarded isForwarded
  obtain ⟨message, isMessage, sent, connected⟩ := forwarded_cases isForwarded
  subst isMessage
  obtain ⟨sameMagic, negotiated⟩ := admitted (List.ne_nil_of_mem sent) connected
  refine ⟨message, rfl, sameMagic, ?_⟩
  exact completed_of_negotiated (records_run config events) negotiated

/-- A `version` message as the node sends it itself. -/
def ownVersion : VersionMessage :=
  ⟨100000, 0, 0, .replicate 26 0, .replicate 26 0, 1, "", 0, false⟩

def plainConfig : Config := ⟨100000, [], [], [], 1, 8, 16, 3600000, 1000⟩

def remote : SocketAddr := ⟨.v4 8 8 8 8, 8333⟩

def ours : SocketAddr := ⟨.v4 8 8 4 4, 8333⟩

/-- A peer that connects, completes the handshake and announces a transaction. -/
theorem forwarded_after_handshake_negotiated :
    let magic : List.Vector UInt8 4 := .replicate 4 1
    let events := [.connected remote ours .inbound false 0] ++
      [.version ownVersion, .ltxidRelay, .ltxidack, .verack].map fun payload =>
        Event.messageReceived remote ⟨magic, payload⟩
    let announced := Event.messageReceived remote ⟨magic, .inv []⟩
    ((runFrom (step magic) (new plainConfig) events).handle magic announced).forwarded =
        [.inv [] remote] ∧
      CompletedHandshake remote events := by
  intro magic events announced
  have forwarded : ((runFrom (step magic) (new plainConfig) events).handle magic
      announced).forwarded = [.inv [] remote] := rfl
  refine ⟨forwarded, ?_⟩
  obtain ⟨message, -, -, completed⟩ := forwarded_after_handshake magic plainConfig events announced
    (fun _ _ => ⟨rfl, rfl⟩) (.inv [] remote) (by rw [forwarded]; exact List.mem_singleton_self _)
  exact completed

/-- A peer that has only connected: what it sends is forwarded, and so is what carries another
network's magic. -/
theorem forwards_before_handshake :
    let magic : List.Vector UInt8 4 := .replicate 4 1
    let other : List.Vector UInt8 4 := .replicate 4 2
    let events : List Event := [.connected remote ours .inbound false 0]
    let machine := runFrom (step magic) (new plainConfig) events
    (machine.handle magic (.messageReceived remote ⟨magic, .inv []⟩)).forwarded = [.inv [] remote] ∧
      (machine.handle magic (.messageReceived remote ⟨other, .inv []⟩)).forwarded =
        [.inv [] remote] ∧
      other ≠ magic ∧ ¬ CompletedHandshake remote events := by
  refine ⟨rfl, rfl, by decide, ?_⟩
  intro completed
  exact absurd completed.length_le (by decide)

end StateMachine

end Lrc20.P2p
