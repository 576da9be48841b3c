import LowerTier.Gateway.PacketViews
import LowerTier.ProofSupport.Trace

/-!
# UDP proxy (`gateway/udp_proxy.rs`)

Client packets go out through the socket of a NAT entry, and a task for the entry forwards the
replies of its socket to the client.  The handling of a packet, the two halves of a forwarding task
and the cleaner of the table run concurrently; a step of the model is what one of them does between
two points where it waits.  Entries, packets in progress and forwarding tasks are numbered in the
order of their creation.  Clock readings are in milliseconds and come with the steps, as do the
outcomes of the system calls.
-/

namespace LowerTier.Gateway.UdpProxy

open ProofSupport ProofSupport.ByteString Tunnel

structure UdpNatKey where
  srcSocket : SocketAddr
  dstSocket : SocketAddr
deriving DecidableEq, Repr

/-- What `try_handle_packet` takes from a packet that is for the proxy. -/
structure Request where
  natKey : UdpNatKey
  fromPeerId : PeerId
  toPeerId : PeerId
  realDstIp : Ipv4Addr
  /-- Where the payload goes. -/
  dstSocket : SocketAddr
  payload : Bytes
deriving DecidableEq

/-! ## The state -/

structure UdpNatEntry where
  srcPeerId : PeerId
  myPeerId : PeerId
  srcSocket : SocketAddr
  /-- Whether a handle of a forwarding task is kept. -/
  forwardTask : Bool
  stopped : Bool
  lastActiveTime : Nat
  denied : Bool
deriving DecidableEq

def UdpNatEntry.new (request : Request) (denied : Bool) (now : Nat) : UdpNatEntry where
  srcPeerId := request.fromPeerId
  myPeerId := request.toPeerId
  srcSocket := request.natKey.srcSocket
  forwardTask := false
  stopped := false
  lastActiveTime := now
  denied := denied

def UdpNatEntry.isActive (entry : UdpNatEntry) (now : Nat) : Bool :=
  decide ((now - entry.lastActiveTime) / 1000 < 180)

/-- Where the handling of a packet is: before the first lock of `forward_task`, before the second
one, before the packet is sent, or at the end. -/
inductive Stage where
  | checking | starting | sending | done
deriving DecidableEq

structure Handler where
  request : Request
  entry : Nat
  stage : Stage
deriving DecidableEq

structure Datagram where
  source : SocketAddr
  payload : Bytes
deriving DecidableEq

/-- The receiving half of a forwarding task: at the top of its loop, in the receive call since some
time, handing a datagram over, or at its end. -/
inductive Receiver where
  | looping
  | waiting (since : Nat)
  | handing (datagram : Datagram)
  | ended
deriving DecidableEq

structure Forwarder where
  entry : Nat
  virtualIpv4 : Ipv4Addr
  realIpv4 : Ipv4Addr
  mappedIpv4 : Ipv4Addr
  receiver : Receiver
  /-- The channel between the halves. -/
  queue : List Datagram
  senderEnded : Bool
  finished : Bool
deriving DecidableEq

def CHANNEL_CAPACITY : Nat := 128
def RECEIVE_TIMEOUT : Nat := 120 * 1000

structure State where
  natTable : KeyedMap UdpNatKey Nat
  entries : List UdpNatEntry
  handlers : List Handler
  forwarders : List Forwarder

def State.empty : State := ⟨∅, [], [], []⟩

structure ReplyPacket where
  toPeerId : PeerId
  fromPeerId : PeerId
  source : SocketAddr
  destination : SocketAddr
  payload : Bytes
deriving DecidableEq

inductive Output where
  /-- The packet of a client goes out through the socket of an entry. -/
  | sent (entry : Nat) (request : Request)
  /-- A datagram of the socket of an entry goes to its client. -/
  | replied (entry : Nat) (reply : ReplyPacket)
deriving DecidableEq

def isLoopback (ip : Ipv4Addr) : Bool := ip >>> 24 == 127

def Forwarder.replySource (forwarder : Forwarder) (source : SocketAddr) : SocketAddr :=
  let hasMappedDst := forwarder.realIpv4 != forwarder.mappedIpv4
  let ip :=
    if hasMappedDst && source.ip == forwarder.realIpv4 then forwarder.mappedIpv4
    else if isLoopback source.ip then forwarder.virtualIpv4
    else source.ip
  ⟨if hasMappedDst && ip == forwarder.realIpv4 then forwarder.mappedIpv4 else ip, source.port⟩

def Forwarder.reply (forwarder : Forwarder) (entry : UdpNatEntry) (datagram : Datagram) :
    ReplyPacket where
  toPeerId := entry.srcPeerId
  fromPeerId := entry.myPeerId
  source := forwarder.replySource datagram.source
  destination := entry.srcSocket
  payload := datagram.payload

namespace State

variable (state : State)

variable (index : Nat)

def modifyEntry (f : UdpNatEntry → UdpNatEntry) : State :=
  { state with entries := state.entries.modify index f }

def setStage (stage : Stage) : State :=
  { state with handlers := state.handlers.modify index fun handler => { handler with stage } }

def modifyForwarder (f : Forwarder → Forwarder) : State :=
  { state with forwarders := state.forwarders.modify index f }

def markActive (index now : Nat) : State :=
  state.modifyEntry index fun entry => { entry with lastActiveTime := now }

/-- The lookup of the entry, which creates one if there is none.  `denied` says whether the
destination is denied, and `bound` whether a socket could be bound. -/
def lookUp (request : Request) (denied bound : Bool) (now : Nat) : State :=
  match state.natTable.lookup request.natKey with
  | some index =>
    if (state.entries[index]?).any (·.denied) then state
    else { state with handlers := state.handlers ++ [⟨request, index, .checking⟩] }
  | none =>
    if denied then
      { state with
        natTable := state.natTable.insert request.natKey state.entries.length
        entries := state.entries ++ [UdpNatEntry.new request true now] }
    else if bound then
      { state with
        natTable := state.natTable.insert request.natKey state.entries.length
        entries := state.entries ++ [UdpNatEntry.new request false now]
        handlers := state.handlers ++ [⟨request, state.entries.length, .checking⟩] }
    else state

/-- The first lock: whether there is a handle of a forwarding task. -/
def check (handler : Nat) (now : Nat) : State :=
  match state.handlers[handler]? with
  | some ⟨_, index, .checking⟩ =>
    if (state.entries[index]?).any (·.forwardTask) then
      (state.markActive index now).setStage handler .sending
    else state.setStage handler .starting
  | _ => state

/-- The second lock: the start of a forwarding task, whose handle replaces the one that is kept.
The node may have lost its address. -/
def start (handler : Nat) (virtualIpv4 : Option Ipv4Addr) (now : Nat) : State :=
  match state.handlers[handler]? with
  | some ⟨request, index, .starting⟩ =>
    match virtualIpv4 with
    | none => state.setStage handler .done
    | some virtualIpv4 =>
      let forwarder : Forwarder :=
        { entry := index
          virtualIpv4
          realIpv4 := request.realDstIp
          mappedIpv4 := request.natKey.dstSocket.ip
          receiver := .looping
          queue := []
          senderEnded := false
          finished := false }
      let started := { state with forwarders := state.forwarders ++ [forwarder] }
      ((started.modifyEntry index fun entry => { entry with forwardTask := true }).markActive
        index now).setStage handler .sending
  | _ => state

def send (handler : Nat) (accepted : Bool) : State × List Output :=
  match state.handlers[handler]? with
  | some ⟨request, index, .sending⟩ =>
    (state.setStage handler .done, if accepted then [.sent index request] else [])
  | _ => (state, [])

def listen (index now : Nat) : State :=
  match state.forwarders[index]? with
  | some forwarder =>
    if forwarder.receiver = .looping then
      let stopped := (state.entries[forwarder.entry]?).any (·.stopped)
      state.modifyForwarder index fun forwarder =>
        { forwarder with receiver := if stopped then .ended else .waiting now }
    else state
  | none => state

def receive (datagram : Datagram) : State :=
  state.modifyForwarder index fun forwarder =>
    match forwarder.receiver with
    | .waiting _ => { forwarder with receiver := .handing datagram }
    | _ => forwarder

def receiveError : State :=
  state.modifyForwarder index fun forwarder =>
    match forwarder.receiver with
    | .waiting _ => { forwarder with receiver := .ended }
    | _ => forwarder

def receiveTimeout (index now : Nat) : State :=
  state.modifyForwarder index fun forwarder =>
    match forwarder.receiver with
    | .waiting since =>
      if since + RECEIVE_TIMEOUT ≤ now then { forwarder with receiver := .ended } else forwarder
    | _ => forwarder

def handOver : State :=
  state.modifyForwarder index fun forwarder =>
    match forwarder.receiver with
    | .handing datagram =>
      if forwarder.senderEnded then { forwarder with receiver := .ended }
      else if forwarder.queue.length < CHANNEL_CAPACITY then
        { forwarder with receiver := .looping, queue := forwarder.queue ++ [datagram] }
      else forwarder
    | _ => forwarder

/-- One turn of the sending half; `composed` says whether the packets of the reply were accepted by
the channel of the proxy. -/
def forward (composed : Bool) (now : Nat) : State × List Output :=
  match state.forwarders[index]? with
  | some forwarder =>
    match forwarder.senderEnded, forwarder.queue with
    | false, datagram :: rest =>
      let active := state.markActive forwarder.entry now
      if composed then
        (active.modifyForwarder index fun forwarder => { forwarder with queue := rest },
          match state.entries[forwarder.entry]? with
          | some entry => [.replied forwarder.entry (forwarder.reply entry datagram)]
          | none => [])
      else
        (active.modifyForwarder index fun forwarder =>
          { forwarder with queue := [], senderEnded := true }, [])
    | _, _ => (state, [])
  | none => (state, [])

/-- The sending half ends when the channel is empty and the receiving half is gone. -/
def drained : State :=
  state.modifyForwarder index fun forwarder =>
    if forwarder.receiver = .ended ∧ forwarder.queue = [] then
      { forwarder with senderEnded := true }
    else forwarder

def finish : State :=
  match state.forwarders[index]? with
  | some forwarder =>
    if forwarder.receiver = .ended ∧ forwarder.senderEnded ∧ !forwarder.finished then
      (state.modifyForwarder index fun forwarder => { forwarder with finished := true }).modifyEntry
        forwarder.entry fun entry => { entry with stopped := true }
    else state
  | none => state

def isInactive (now index : Nat) : Bool :=
  (state.entries[index]?).any fun entry => !entry.isActive now

def clean (now : Nat) : State :=
  { state with
    natTable := state.natTable.retain fun index => !state.isInactive now index
    entries := state.entries.mapIdx fun index entry =>
      if !entry.isActive now ∧ state.natTable.entries.any (·.2 == index) then
        { entry with stopped := true }
      else entry }

end State

inductive Event where
  | lookUp (request : Request) (denied bound : Bool) (now : Nat)
  | check (handler now : Nat)
  | start (handler : Nat) (virtualIpv4 : Option Ipv4Addr) (now : Nat)
  | send (handler : Nat) (accepted : Bool)
  | listen (forwarder now : Nat)
  | receive (forwarder : Nat) (datagram : Datagram)
  | receiveError (forwarder : Nat)
  | receiveTimeout (forwarder now : Nat)
  | handOver (forwarder : Nat)
  | forward (forwarder : Nat) (composed : Bool) (now : Nat)
  | drained (forwarder : Nat)
  | finish (forwarder : Nat)
  | clean (now : Nat)

def step (state : State) : Event → State × List Output
  | .lookUp request denied bound now => (state.lookUp request denied bound now, [])
  | .check handler now => (state.check handler now, [])
  | .start handler virtualIpv4 now => (state.start handler virtualIpv4 now, [])
  | .send handler accepted => state.send handler accepted
  | .listen forwarder now => (state.listen forwarder now, [])
  | .receive forwarder datagram => (state.receive forwarder datagram, [])
  | .receiveError forwarder => (state.receiveError forwarder, [])
  | .receiveTimeout forwarder now => (state.receiveTimeout forwarder now, [])
  | .handOver forwarder => (state.handOver forwarder, [])
  | .forward forwarder composed now => state.forward forwarder composed now
  | .drained forwarder => (state.drained forwarder, [])
  | .finish forwarder => (state.finish forwarder, [])
  | .clean now => (state.clean now, [])

end LowerTier.Gateway.UdpProxy
