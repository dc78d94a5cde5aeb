import Mathlib.Data.List.AList
import Lrc20.Messages.P2p

namespace Lrc20.P2p

inductive IpAddr where
  | v4 (a b c d : UInt8)
  | v6 (octets : List.Vector UInt8 16)
deriving DecidableEq

structure SocketAddr where
  ip : IpAddr
  port : UInt16
deriving DecidableEq

/-- A hostname and port to persist a connection with. -/
structure PeerAddr where
  hostname : String
  port : UInt16
deriving DecidableEq

inductive Link where
  | inbound
  | outbound
deriving DecidableEq

/-- Milliseconds since the epoch. A difference of two is zero if the second is later. -/
abbrev LocalTime := Nat

def handshakeTimeout : Nat := 12 * 1000

def connectionTimeout : Nat := 6 * 1000

def idleTimeout : Nat := 60 * 1000

inductive DisconnectReason where
  | peerMisbehaving (reason : String)
  | peerProtocolVersion (version : UInt32)
  | peerServices (services : UInt64)
  | peerMagic (magic : List.Vector UInt8 4)
  | peerTimeout (reason : String)
  | peerDropped
  | selfConnection
  | connectionLimit
  | command
  | peerBanned
deriving DecidableEq

/-- What is asked of the reactor. -/
inductive Io where
  | disconnect (addr : SocketAddr) (reason : DisconnectReason)
  | connect (addr : SocketAddr)
  | version (addr localAddr : SocketAddr) (nonce : UInt64)
  | wtxidRelay (addr : SocketAddr)
  | ltxidRelay (addr : SocketAddr)
  | ltxidack (addr : SocketAddr)
  | verack (addr : SocketAddr)
deriving DecidableEq

/-- What was received last of the messages of a handshake. -/
inductive HandshakeState where
  | version (since : LocalTime)
  | ltxidack (since : LocalTime)
  | verack (since : LocalTime)
deriving DecidableEq

structure Connection where
  socketAddr : SocketAddr
  localAddr : SocketAddr
  link : Link
  since : LocalTime
deriving DecidableEq

/-- A peer that has sent its `version`. -/
structure PeerInfo where
  services : UInt64
  userAgent : String
  timeOffset : UInt64
  relay : Bool
  version : UInt32
  persistent : Bool
  wtxidrelay : Bool
  ltxidrelay : Bool
  nonce : UInt64
  state : HandshakeState
deriving DecidableEq

def PeerInfo.isNegotiated (peer : PeerInfo) : Bool := peer.state matches .verack _

inductive PeerState where
  | connecting (time : LocalTime)
  | connected (conn : Connection) (peer : Option PeerInfo)
deriving DecidableEq

structure Peer where
  state : PeerState
  addr : Option PeerAddr
deriving DecidableEq

structure Config where
  protocolVersion : UInt32
  whitelistAddr : List IpAddr
  whitelistUserAgent : List String
  persistent : List PeerAddr
  requiredServices : UInt64
  targetOutboundPeers : Nat
  maxInboundPeers : Nat
  retryMaxWait : Nat
  retryMinWait : Nat

structure PeerManager where
  config : Config
  lastIdle : Option LocalTime
  peersStorage : AList fun _ : SocketAddr => Peer
  persistentDisconnected : AList fun _ : PeerAddr => Option LocalTime × Nat

/-- What the address manager and the resolver answer while connections are maintained. -/
structure Addresses where
  /-- The addresses sampled for new connections, each with its socket address if it has one. -/
  sampled : List (Option SocketAddr)
  /-- The addresses that came from other nodes. -/
  newcome : List (Option SocketAddr)
  resolve : PeerAddr → Option (List SocketAddr)

def isLocal : IpAddr → Bool
  | .v4 a b c d =>
    (a = 10 ∨ a = 172 ∧ 16 ≤ b ∧ b ≤ 31 ∨ a = 192 ∧ b = 168) ∨ a = 127 ∨
      a = 169 ∧ b = 254 ∨ a = 0 ∧ b = 0 ∧ c = 0 ∧ d = 0
  | .v6 _ => false

variable (manager : PeerManager) (now : LocalTime) (addr : SocketAddr) (addrs : Addresses)

namespace PeerManager

def new (config : Config) : PeerManager := ⟨config, none, ∅, ∅⟩

def isConnecting : Bool :=
  (manager.peersStorage.lookup addr).any fun peer => peer.state matches .connecting _

def isConnected : Bool :=
  (manager.peersStorage.lookup addr).any fun peer => peer.state matches .connected _ _

def isDisconnected : Bool :=
  !manager.isConnected addr && !manager.isConnecting addr

/-- Peers that have at least sent their `version`. -/
def peers : List (PeerInfo × Connection) :=
  manager.peersStorage.entries.filterMap fun entry => match entry.2.state with
    | .connected conn (some peer) => some (peer, conn)
    | _ => none

def connecting : List SocketAddr :=
  (manager.peersStorage.entries.filter fun entry => entry.2.state matches .connecting _).map
    Sigma.fst

def connected : List Connection :=
  manager.peersStorage.entries.filterMap fun entry => match entry.2.state with
    | .connected conn _ => some conn
    | .connecting _ => none

def negotiated (link : Link) : List (PeerInfo × Connection) :=
  manager.peers.filter fun peer => peer.1.isNegotiated && peer.2.link = link

/-- `connect`, with its result. -/
def connect (peerAddr : Option PeerAddr) : Bool × PeerManager × List Io :=
  if manager.isConnected addr || manager.isConnecting addr then (true, manager, [])
  else if !manager.isDisconnected addr then (false, manager, [])
  else
    (true, { manager with
      peersStorage := manager.peersStorage.insert addr ⟨.connecting now, peerAddr⟩ },
      [.connect addr])

def disconnect (reason : DisconnectReason) : List Io :=
  if manager.isConnected addr then [.disconnect addr reason] else []

def whitelist : PeerManager :=
  { manager with config.whitelistAddr := insert addr.ip manager.config.whitelistAddr }

/-- How many new connections should be made. -/
def delta : Nat :=
  let primary := (manager.negotiated .outbound).length
  let secondary := (manager.negotiated .outbound).length - primary
  let connected := manager.connected.length - primary - secondary
  let connecting := manager.connecting.length
  let target := manager.config.targetOutboundPeers
  let unknown := connecting + connected
  let total := primary + secondary + unknown
  let max := target + target / 2
  if total > max ∨ primary + unknown > target then 0
  else min (max - total) (target - (primary + unknown))

/-- The loop of `maintain_connections`, over the addresses that are sampled. -/
def sampleConnections (now : LocalTime) (delta : Nat) :
    List (Option SocketAddr) → List SocketAddr → PeerManager → PeerManager × List Io
  | [], _, manager => (manager, [])
  | none :: rest, connecting, manager => sampleConnections now delta rest connecting manager
  | some addr :: rest, connecting, manager =>
    if connecting.length < delta then
      match manager.connect now addr none with
      | (didConnect, manager, io) =>
        let connecting := if didConnect then insert addr connecting else connecting
        let (manager, later) := sampleConnections now delta rest connecting manager
        (manager, io ++ later)
    else (manager, [])

/-- Addresses are sampled only with fewer negotiated peers than targeted; the seeds that are
asked otherwise are none. -/
def maintainConnections : PeerManager × List Io :=
  if manager.config.persistent ≠ [] then (manager, [])
  else if (manager.negotiated .outbound).length < manager.config.targetOutboundPeers then
    sampleConnections now manager.delta addrs.sampled [] manager
  else (manager, [])

/-- Connects to addresses one after another. -/
def connectAll (now : LocalTime) (peerAddr : Option PeerAddr) :
    List SocketAddr → PeerManager → PeerManager × List Io
  | [], manager => (manager, [])
  | addr :: rest, manager =>
    let (_, manager, io) := manager.connect now addr peerAddr
    let (manager, later) := connectAll now peerAddr rest manager
    (manager, io ++ later)

/-- The loops of `initialize` and `maintain_persistent` over hostnames: what is done with one
that does not resolve is a parameter. -/
def connectHosts (now : LocalTime) (addrs : Addresses)
    (unresolved : PeerAddr → PeerManager → PeerManager) :
    List PeerAddr → PeerManager → PeerManager × List Io
  | [], manager => (manager, [])
  | host :: rest, manager =>
    let (manager, io) := match addrs.resolve host with
      | some found => connectAll now (some host) found manager
      | none => (unresolved host manager, [])
    let (manager, later) := connectHosts now addrs unresolved rest manager
    (manager, io ++ later)

def maintainPersistent : PeerManager × List Io :=
  let due := (manager.persistentDisconnected.entries.filter fun entry =>
    entry.2.1.any fun retryAt => retryAt ≤ now).map Sigma.fst
  let persistentDisconnected := due.foldl (fun waiting host => match waiting.lookup host with
    | some (_, attempts) => waiting.insert host (none, attempts)
    | none => waiting) manager.persistentDisconnected
  connectHosts now addrs (fun _ manager => manager) due { manager with persistentDisconnected }

def maintainNewcome (now : LocalTime) :
    List (Option SocketAddr) → PeerManager → PeerManager × List Io
  | [], manager => (manager, [])
  | none :: rest, manager => maintainNewcome now rest manager
  | some addr :: rest, manager =>
    let (_, manager, io) := (manager.whitelist addr).connect now addr none
    let (manager, later) := maintainNewcome now rest manager
    (manager, io ++ later)

def initializePeers : PeerManager × List Io :=
  let (manager, io) := connectHosts now addrs (fun host manager =>
    { manager with
      persistentDisconnected :=
        manager.persistentDisconnected.insert host (some (now + 10 * 1000), 1) })
    manager.config.persistent manager
  let (manager, later) := manager.maintainConnections now addrs
  (manager, io ++ later)

/-- `peer_connected`: the nonce is drawn for our `version` to an outbound peer. -/
def peerConnected (nonce : UInt64) (addr localAddr : SocketAddr) (link : Link) :
    PeerManager × List Io :=
  let previous := manager.peersStorage.lookup addr
  let peersStorage := manager.peersStorage.insert addr
    ⟨.connected ⟨addr, localAddr, link, now⟩ none, none⟩
  let persistentDisconnected := match previous.bind Peer.addr with
    | some host => manager.persistentDisconnected.erase host
    | none => manager.persistentDisconnected
  let manager := { manager with peersStorage, persistentDisconnected }
  match link with
  | .inbound =>
    if manager.config.maxInboundPeers ≤
        (manager.connected.filter fun conn => conn.link = .inbound).length then
      (manager, [.disconnect addr .connectionLimit])
    else (manager, [])
  | .outbound => (manager, [.version addr localAddr nonce])

/-- A persistent peer was disconnected: it is retried after a growing delay. -/
def retryLater (host : PeerAddr) (now : LocalTime) : PeerManager :=
  let attempts := ((manager.persistentDisconnected.lookup host).map Prod.snd).getD 0
  let delay := max manager.config.retryMinWait (min (min (2 ^ attempts) (2 ^ 64 - 1) * 1000)
    manager.config.retryMaxWait)
  { manager with
    persistentDisconnected :=
      manager.persistentDisconnected.insert host (some (now + delay), attempts + 1) }

def peerDisconnected (addr : SocketAddr) : PeerManager × List Io :=
  let removed := { manager with peersStorage := manager.peersStorage.erase addr }
  match (manager.peersStorage.lookup addr).bind Peer.addr with
  | some host => (removed.retryLater host now, [])
  | none => removed.maintainConnections now addrs

/-- What a message does to the information on the peer that sent it, if there is any. -/
def updateInfo (update : PeerInfo → PeerInfo × List Io) : PeerManager × List Io :=
  match manager.peersStorage.lookup addr with
  | some ⟨.connected conn (some info), host⟩ =>
    let (info, io) := update info
    ({ manager with
      peersStorage := manager.peersStorage.insert addr ⟨.connected conn (some info), host⟩ }, io)
  | _ => (manager, [])

def receivedWtxidrelay : PeerManager × List Io :=
  manager.updateInfo addr fun info => match info.state with
    | .version _ => ({ info with wtxidrelay := true }, [])
    | _ => (info, [.disconnect addr
        (.peerMisbehaving "`wtxidrelay` must be received before `verack`")])

def receivedLtxidrelay : PeerManager × List Io :=
  manager.updateInfo addr fun info => match info.state with
    | .version _ => ({ info with ltxidrelay := true }, [.ltxidack addr, .verack addr])
    | _ => (info, [.disconnect addr
        (.peerMisbehaving "`ltxidrelay` must be received before `verack`")])

def receivedLtxidack (localTime : LocalTime) : PeerManager × List Io :=
  manager.updateInfo addr fun info => match info.state with
    | .version _ => ({ info with state := .ltxidack localTime }, [])
    | _ => (info, [.disconnect addr
        (.peerMisbehaving "unexpected `ltxidack` message received")])

def receivedVerack (localTime : LocalTime) : PeerManager × List Io :=
  manager.updateInfo addr fun info => match info.state with
    | .ltxidack _ => ({ info with state := .verack localTime }, [])
    | _ => (info, [.disconnect addr
        (.peerMisbehaving "unexpected `verack` message received")])

/-- Why a `version` message is refused. -/
def refuseVersion (conn : Connection) (message : VersionMessage) : Option DisconnectReason :=
  let trusted := addr.ip ∈ manager.config.whitelistAddr ||
    message.userAgent ∈ manager.config.whitelistUserAgent || isLocal addr.ip
  if message.version < 100000 then some (.peerProtocolVersion message.version)
  else if conn.link = .outbound ∧
      message.services &&& manager.config.requiredServices ≠ manager.config.requiredServices ∧
      !trusted then
    some (.peerServices message.services)
  else if manager.peers.any fun peer =>
      peer.2.link = .outbound && peer.1.nonce = message.nonce then
    some .selfConnection
  else if conn.link = .outbound ∧
      manager.config.targetOutboundPeers ≤ (manager.negotiated .outbound).length then
    some .connectionLimit
  else none

/-- `received_version` with `handle_version`. -/
def receivedVersion (message : VersionMessage) : PeerManager × List Io :=
  match manager.peersStorage.lookup addr with
  | some ⟨.connected conn _, host⟩ =>
    match manager.refuseVersion addr conn message with
    | some reason => (manager, [.disconnect addr reason])
    | none =>
      let info : PeerInfo :=
        { services := message.services
          userAgent := message.userAgent
          timeOffset := message.timestamp
          relay := message.relay
          version := min manager.config.protocolVersion message.version
          persistent := host.any fun host => host ∈ manager.config.persistent
          wtxidrelay := false
          ltxidrelay := true
          nonce := message.nonce
          state := .version now }
      let reply := match conn.link with
        | .inbound => [.version conn.socketAddr conn.localAddr message.nonce]
        | .outbound => []
      ({ manager with
        peersStorage := manager.peersStorage.insert conn.socketAddr
          ⟨.connected conn (some info), host⟩ },
        reply ++ [.wtxidRelay conn.socketAddr, .ltxidRelay conn.socketAddr])
  | _ => (manager, [])

/-- The peers that a wake disconnects, with the reason. -/
def timedOut : List (SocketAddr × String) :=
  (manager.peersStorage.entries.filterMap fun entry => match entry.2.state with
    | .connecting time => if connectionTimeout ≤ now - time then some (entry.1, "connection")
        else none
    | _ => none) ++
  (manager.peers.filterMap fun peer => match peer.1.state with
    | .version since => if handshakeTimeout ≤ now - since then
        some (peer.2.socketAddr, "handshake") else none
    | _ => none) ++
  manager.peersStorage.entries.filterMap fun entry => match entry.2.state with
    | .connected conn none => if handshakeTimeout ≤ now - conn.since then
        some (conn.socketAddr, "handshake") else none
    | _ => none

/-- `received_wake`: `refs` counts the other managers that still hold the socket of a peer. -/
def receivedWake (refs : SocketAddr → Nat) (addrs : Addresses) : PeerManager × List Io :=
  let timeouts := (manager.timedOut now).map fun peer =>
    Io.disconnect peer.1 (.peerTimeout peer.2)
  let dropped := ((manager.negotiated .outbound).filter fun peer =>
    refs peer.2.socketAddr = 1).map fun peer => Io.disconnect peer.2.socketAddr .peerDropped
  let (manager, idle) := if idleTimeout ≤ now - manager.lastIdle.getD 0 then
      let (manager, io) := manager.maintainConnections now addrs
      ({ manager with lastIdle := some now }, io)
    else (manager, [])
  let (manager, persistent) := manager.maintainPersistent now addrs
  let (manager, newcome) := maintainNewcome now addrs.newcome manager
  (manager, timeouts ++ dropped ++ idle ++ persistent ++ newcome)

end PeerManager

end Lrc20.P2p
