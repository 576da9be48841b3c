import LowerTier.Gateway.TcpProxy.PacketSafety
import LowerTier.ProofSupport.Arena
import LowerTier.ProofSupport.Trace

/-!
# Connections of the TCP proxy (`gateway/tcp_proxy.rs`)

The handling of packets, the accept loop, the tasks that connect accepted streams and the cleaner of
the SYN table, as steps of one system.  The accept loop makes one step for each access to a table.
The network stack behind the listener is there with its connections only: a SYN that reaches it
opens a connection with the client unless one is open, and it hands over what it has opened.  A
published entry is not changed any more: its state is that of its stream.
-/

namespace LowerTier.Gateway

open ProofSupport ProofSupport.ByteString Tunnel

namespace TcpProxy

variable (proxy : TcpProxy)

/-- The end points of a connection as the stack sees them: the client and the local side. -/
def stackTuple (client : SocketAddr) : Option (SocketAddr × SocketAddr) :=
  proxy.getLocalInet.map fun inet =>
    (⟨proxy.stackSource inet client.ip, client.port⟩, ⟨inet.1, proxy.getLocalPort⟩)

/-- The address under which the accept loop looks for the entry of a stream. -/
def acceptedAddress (address : SocketAddr) : SocketAddr :=
  match proxy.config.ipv4 with
  | some inet => if address.ip = inet.2 then ⟨inet.1, address.port⟩ else address
  | none => address

/-- Where a stream is connected to: a service of the node itself is reached over the loopback
address. -/
def natDst (realDst : SocketAddr) : SocketAddr :=
  if proxy.config.isIpLocalVirtualIp realDst.ip then ⟨0x7f000001, realDst.port⟩ else realDst

def removeEntryFromAllConnMap (entry : NatDstEntry) : TcpProxy :=
  { proxy with
    connMap := proxy.connMap.erase entry.id
    addrConnMap := proxy.addrConnMap.removeIf entry.src entry.id }

def cleanSyns (now : Nat) : TcpProxy :=
  { proxy with synMap := proxy.synMap.retain fun entry => now - entry.startTime ≤ 30 }

/-- Both connection tables get the entry of an accepted stream. -/
def publishEntry (entry : NatDstEntry) : TcpProxy :=
  { proxy with
    addrConnMap := proxy.addrConnMap.insert { entry with state := .connectingDst }
    connMap := proxy.connMap.insert entry.id { entry with state := .connectingDst } }

end TcpProxy

/-- A stream that the stack has handed over with the entry that was found for it, and the
destination of the SYN that opened its connection. -/
structure Accepted where
  entry : NatDstEntry
  opened : SocketAddr
deriving DecidableEq

inductive AcceptLoop where
  | waiting
  | found (accepted : Accepted)
  | unlisted (accepted : Accepted)
  /-- An assertion has failed. -/
  | stopped
deriving DecidableEq

def AcceptLoop.accepted : AcceptLoop → Option Accepted
  | .found accepted | .unlisted accepted => some accepted
  | .waiting | .stopped => none

inductive StreamStage where
  | connecting | connected | closed | removed
deriving DecidableEq

structure NatStream where
  accepted : Accepted
  stage : StreamStage
deriving DecidableEq

structure Relay where
  proxy : TcpProxy
  loop : AcceptLoop
  streams : List NatStream
  /-- The connections of the stack, by client, with the destination of the SYN that opened each. -/
  opened : KeyedMap SocketAddr SocketAddr

namespace Relay

inductive Event where
  | peerPacket (packet : PeerPacket) (start : Option Listener) (now : Nat)
  | nicPacket (packet : PeerPacket)
  /-- The stack drops its connection with a client. -/
  | forget (client : SocketAddr)
  /-- The stack hands over its connection with a client. -/
  | accept (client : SocketAddr)
  /-- The loop takes the entry from the SYN table. -/
  | unlist
  /-- The loop enters it into the connection tables and starts the task of the stream. -/
  | publish
  | connect (stream : Nat) (denied succeeds : Bool)
  | close (stream : Nat)
  | remove (stream : Nat)
  | cleanSyns (now : Nat)

inductive Output where
  /-- A packet of a client goes to the stack. -/
  | taken (packet rewritten : PeerPacket)
  /-- A stream is connected to its destination. -/
  | connected (accepted : Accepted) (target : SocketAddr)
  /-- A packet has passed the filter of the device. -/
  | left (packet leaving : PeerPacket)
deriving DecidableEq

variable [Pnet]

/-- A SYN opens a connection of the stack unless the client has one. -/
def openConnection (opened : KeyedMap SocketAddr SocketAddr) (payload : Bytes) :
    KeyedMap SocketAddr SocketAddr :=
  match fourTuple payload with
  | some (client, destination) =>
    if opensConnection payload && (opened.lookup client).isNone then
      opened.insert client destination
    else opened
  | none => opened

/-- A proxy at its start, before or after its runtime is started. -/
def new (config : ProxyConfig) (gui : Option (Option UInt16)) (myPeerId : PeerId)
    (listener : Option Listener) : Relay where
  proxy :=
    { config := config
      gui := gui
      myPeerId := myPeerId
      listener := listener
      synMap := .empty
      addrConnMap := .empty
      connMap := ∅
      nextId := 0 }
  loop := .waiting
  streams := []
  opened := ∅

variable (relay : Relay)

def peerPacket (packet : PeerPacket) (start : Option Listener) (now : Nat) : Relay × List Output :=
  match relay.proxy.tryHandlePeerPacket packet start now with
  | none => (relay, [])
  | some result =>
    if result.handled then
      ({ relay with proxy := result.proxy, opened := openConnection relay.opened packet.payload },
        [.taken packet result.packet])
    else ({ relay with proxy := result.proxy }, [])

def nicPacket (packet : PeerPacket) : List Output :=
  match relay.proxy.tryProcessPacketFromNic packet with
  | none => []
  | some (_, leaving) => [.left packet leaving]

def accept (client : SocketAddr) : Relay :=
  match relay.loop, relay.opened.lookup client, relay.proxy.stackTuple client with
  | .waiting, some destination, some (address, _) =>
    match relay.proxy.synMap.get (relay.proxy.acceptedAddress address) with
    | none => relay
    | some entry =>
      if entry.state = .synReceived then { relay with loop := .found ⟨entry, destination⟩ }
      else { relay with loop := .stopped }
  | _, _, _ => relay

def unlist : Relay :=
  match relay.loop with
  | .found accepted =>
    { relay with
      proxy := { relay.proxy with
        synMap := relay.proxy.synMap.removeIf accepted.entry.src accepted.entry.id }
      loop := .unlisted accepted }
  | _ => relay

def publish : Relay :=
  match relay.loop with
  | .unlisted accepted =>
    if (relay.proxy.connMap.lookup accepted.entry.id).isSome then
      -- `assert!(old_nat_val.is_none())` comes after both insertions
      { relay with proxy := relay.proxy.publishEntry accepted.entry, loop := .stopped }
    else
      { relay with
        proxy := relay.proxy.publishEntry accepted.entry
        loop := .waiting
        streams := relay.streams ++ [⟨accepted, .connecting⟩] }
  | _ => relay

variable (number : Nat)

def setStage (stage : StreamStage) : Relay :=
  { relay with streams := relay.streams.modify number fun stream => { stream with stage := stage } }

/-- `connect_to_nat_dst`, with the outcome of the check for denied destinations and of the
connection. -/
def connect (denied succeeds : Bool) : Relay × List Output :=
  match relay.streams[number]? with
  | some ⟨accepted, .connecting⟩ =>
    if denied || !succeeds then
      ({ relay.setStage number .removed with
        proxy := relay.proxy.removeEntryFromAllConnMap accepted.entry }, [])
    else
      (relay.setStage number .connected,
        [.connected accepted (relay.proxy.natDst accepted.entry.realDst)])
  | _ => (relay, [])

def close : Relay :=
  match relay.streams[number]? with
  | some ⟨_, .connected⟩ => relay.setStage number .closed
  | _ => relay

def remove : Relay :=
  match relay.streams[number]? with
  | some ⟨accepted, .closed⟩ =>
    { relay.setStage number .removed with
      proxy := relay.proxy.removeEntryFromAllConnMap accepted.entry }
  | _ => relay

def step : Event → Relay × List Output
  | .peerPacket packet start now => relay.peerPacket packet start now
  | .nicPacket packet => (relay, relay.nicPacket packet)
  | .forget client => ({ relay with opened := relay.opened.erase client }, [])
  | .accept client => (relay.accept client, [])
  | .unlist => (relay.unlist, [])
  | .publish => (relay.publish, [])
  | .connect stream denied succeeds => relay.connect stream denied succeeds
  | .close stream => (relay.close stream, [])
  | .remove stream => (relay.remove stream, [])
  | .cleanSyns now => ({ relay with proxy := relay.proxy.cleanSyns now }, [])

end Relay

end LowerTier.Gateway
