import LowerTier.Gateway.PacketViews

/-!
# TCP proxy packets (`gateway/tcp_proxy.rs`)

A TCP packet of a client is rewritten so that it goes to the listener of the proxy, and a packet of
the listener so that it seems to come from the address that the client asked for.  The tables are
keyed by the address of the client.  A call that panics is `none`.  All addresses of the tables are
IPv4 addresses: they are made from IPv4 headers only.
-/

namespace LowerTier.Gateway

open ProofSupport ProofSupport.ByteString ProofSupport.ByteFields
open Tunnel

inductive NatDstEntryState where
  | synReceived | connectingDst | connected | closingSrc | closingDst | closed
deriving DecidableEq, Repr

structure NatDstEntry where
  /-- The number of the entry in the order of creation, for its `uuid`. -/
  id : Nat
  src : SocketAddr
  realDst : SocketAddr
  mappedDst : SocketAddr
  startTime : Nat
  state : NatDstEntryState
deriving DecidableEq, Repr

def NatDstEntry.new (id : Nat) (src realDst mappedDst : SocketAddr) (now : Nat) : NatDstEntry where
  id := id
  src := src
  realDst := realDst
  mappedDst := mappedDst
  startTime := now
  state := .synReceived

structure AddrTable where
  map : KeyedMap SocketAddr NatDstEntry
  keyed : ∀ src entry, map.lookup src = some entry → entry.src = src

namespace AddrTable

def empty : AddrTable := ⟨∅, fun _ _ h => nomatch h⟩

variable (table : AddrTable)

def get (src : SocketAddr) : Option NatDstEntry := table.map.lookup src

def insert (entry : NatDstEntry) : AddrTable where
  map := table.map.insert entry.src entry
  keyed src found h := by
    rcases KeyedMap.lookup_insert_cases h with ⟨rfl, rfl⟩ | ⟨-, hold⟩
    · rfl
    · exact table.keyed src found hold

def removeIf (src : SocketAddr) (id : Nat) : AddrTable where
  map := if (table.map.lookup src).any (·.id == id) then table.map.erase src else table.map
  keyed other found h := by
    split at h
    · exact table.keyed other found (KeyedMap.lookup_of_lookup_erase h)
    · exact table.keyed other found h

def retain (keep : NatDstEntry → Bool) : AddrTable where
  map := table.map.retain keep
  keyed src found h := table.keyed src found (KeyedMap.lookup_of_lookup_retain h)

variable {table : AddrTable}

@[simp] theorem get_insert (entry : NatDstEntry) :
    (table.insert entry).get entry.src = some entry := AList.lookup_insert _

variable {entry : NatDstEntry} {src : SocketAddr}

theorem get_insert_ne (hne : src ≠ entry.src) : (table.insert entry).get src = table.get src :=
  AList.lookup_insert_ne hne

theorem get_of_get_removeIf {src other : SocketAddr} {id : Nat}
    (h : (table.removeIf src id).get other = some entry) : table.get other = some entry := by
  simp only [get, removeIf] at h
  split at h
  · exact KeyedMap.lookup_of_lookup_erase h
  · exact h

end AddrTable

/-- The network stack behind the listener: a user space stack, or the kernel with the port of the
listener. -/
inductive Listener where
  | smoltcp
  | kernel (port : UInt16)
deriving DecidableEq

structure TcpProxy where
  config : ProxyConfig
  /-- Whether the proxy is built with the user interface, and its port if that is enabled. -/
  gui : Option (Option UInt16)
  myPeerId : PeerId
  /-- The listener that runs, once the runtime has been started. -/
  listener : Option Listener
  synMap : AddrTable
  addrConnMap : AddrTable
  connMap : KeyedMap Nat NatDstEntry
  /-- The number of the next entry. -/
  nextId : Nat

namespace TcpProxy

section LocalSide

variable (proxy : TcpProxy)

/-- Before the runtime is started the user space stack is assumed. -/
def isSmoltcpEnabled : Bool :=
  match proxy.listener with
  | some (.kernel _) => false
  | _ => true

def getLocalPort : UInt16 :=
  match proxy.listener with
  | none => 0
  | some .smoltcp => 8899
  | some (.kernel port) => port

/-- The address of the local side with the first address of its network: 192.88.99.254/24 with the
user space stack. -/
def getLocalInet : Option (Ipv4Addr × Ipv4Addr) :=
  if proxy.isSmoltcpEnabled then some (0xc05863fe, 0xc0586300) else proxy.config.ipv4

/-- `ensure_runtime`, with the listener that a start yields. -/
def ensureRuntime (start : Option Listener) : Option TcpProxy :=
  match proxy.listener with
  | some _ => some proxy
  | none => start.map fun listener => { proxy with listener := some listener }

end LocalSide

variable [Pnet]

def addressWords (ip : Ipv4Addr) : List Nat := [ip.toNat / 2 ^ 16, ip.toNat % 2 ^ 16]

def replaceWord (sum old new : Nat) : Nat := sum + (0xffff - old) + new

def foldCarry (sum : Nat) : Nat := sum % 2 ^ 16 + sum / 2 ^ 16

/-- A sum of a few words has no carry after two turns, and a turn without one changes nothing. -/
def finishSum (sum : Nat) : Nat := 0xffff - foldCarry (foldCarry sum) % 2 ^ 16

def addressDelta (oldSource oldDestination source destination : Ipv4Addr) : Nat :=
  let words := (addressWords oldSource).zip (addressWords source) ++
    (addressWords oldDestination).zip (addressWords destination)
  words.foldl (fun sum word => replaceWord sum word.1 word.2) 0

/-- The addresses, the ports and the checksums of a TCP packet, with RFC 1624 sums.  The TCP header
must be complete. -/
def rewriteTcpPacket (ip : Ipv4View) (source destination : Ipv4Addr)
    (sourcePort destinationPort : UInt16) : Option Bytes := do
  let tcp ← TcpView.new ip.payload
  let delta := addressDelta ip.getSource ip.getDestination source destination
  let ipChecksum := finishSum ((0xffff - ip.getChecksum) + delta)
  let tcpSum := replaceWord (replaceWord ((0xffff - tcp.getChecksum) + delta) tcp.getSource.toNat
    sourcePort.toNat) tcp.getDestination.toNat destinationPort.toNat
  let bytes := setField ip.bytes 12 4 source.toNat
  let bytes := setField bytes 16 4 destination.toNat
  let bytes := setField bytes 10 2 ipChecksum
  let bytes := setField bytes ip.payloadStart 2 sourcePort.toNat
  let bytes := setField bytes (ip.payloadStart + 2) 2 destinationPort.toNat
  some (setField bytes (ip.payloadStart + 16) 2 (finishSum tcpSum))

variable (proxy : TcpProxy)

/-- A packet that the user interface of the node itself answers; `none` if a header is missing. -/
def isForGui (ip : Ipv4View) : Option Bool :=
  match proxy.gui with
  | none => some false
  | some port =>
    if proxy.config.noTun && proxy.config.isIpLocalVirtualIp ip.getDestination then
      (TcpView.new ip.payload).map fun tcp =>
        tcp.isSyn && !tcp.isAck && port == some tcp.getDestination
    else some false

structure Handling where
  proxy : TcpProxy
  packet : PeerPacket
  handled : Bool

variable (packet : PeerPacket)

/-- The part of `try_handle_peer_packet` that decides whether the packet is for the proxy, with the
real destination and the proxy whose runtime is started. -/
def takesPacket (start : Option Listener) :
    Option (Ipv4View × Ipv4Addr × TcpProxy) := do
  guard proxy.config.checkPacketFromPeerFast
  guard (packet.header.packetType == PacketType.data.code && !isNoProxy packet.header)
  let ip ← Ipv4View.new packet.payload
  guard (ip.getVersion == 4 && ip.getNextLevelProtocol == TCP_PROTOCOL)
  let forGui ← proxy.isForGui ip
  guard !forGui
  let realDstIp ← proxy.config.checkPacketFromPeer packet.header ip.getDestination
  let started ← proxy.ensureRuntime start
  some (ip, realDstIp, started)

/-- The source address that the stack sees: a client on the node itself gets the first address of
the network. -/
def stackSource (inet : Ipv4Addr × Ipv4Addr) (source : Ipv4Addr) : Ipv4Addr :=
  if !proxy.isSmoltcpEnabled && source == inet.1 then inet.2 else source

def insertSyn (src realDst mappedDst : SocketAddr) (now : Nat) : TcpProxy :=
  { proxy with
    synMap := proxy.synMap.insert (NatDstEntry.new proxy.nextId src realDst mappedDst now)
    nextId := proxy.nextId + 1 }

def tryHandlePeerPacket (start : Option Listener) (now : Nat) : Option Handling :=
  match proxy.takesPacket packet start with
  | none => some ⟨proxy, packet, false⟩
  | some (ip, realDstIp, started) =>
    match started.getLocalInet with
    | none => some ⟨started, packet, false⟩
    | some inet => do
        let tcp ← TcpView.new ip.payload
        let src : SocketAddr := ⟨ip.getSource, tcp.getSource⟩
        let isSyn := tcp.isSyn && !tcp.isAck
        let next :=
          if isSyn then
            started.insertSyn src ⟨realDstIp, tcp.getDestination⟩
              ⟨ip.getDestination, tcp.getDestination⟩ now
          else started
        if !isSyn && (started.addrConnMap.get src).isNone && (started.synMap.get src).isNone then
          some ⟨started, packet, false⟩
        else
          let bytes ← rewriteTcpPacket ip (started.stackSource inet ip.getSource) inet.1
            tcp.getSource started.getLocalPort
          some ⟨next, { packet with payload := bytes }, true⟩

def clientAddress (inet : Ipv4Addr × Ipv4Addr) (destination : Ipv4Addr) :
    Ipv4Addr :=
  if !proxy.isSmoltcpEnabled && destination == inet.2 then inet.1 else destination

/-- The entry of a client: the connection tables come before the table of SYNs. -/
def findEntry (client : SocketAddr) : Option NatDstEntry :=
  (proxy.addrConnMap.get client).or (proxy.synMap.get client)

def tryProcessPacketFromNic : Option (Bool × PeerPacket) :=
  match proxy.getLocalInet with
  | none => some (false, packet)
  | some inet => do
      let ip ← Ipv4View.new packet.payload
      if ip.getVersion ≠ 4 ∨ ip.getSource ≠ inet.1 ∨ ip.getNextLevelProtocol ≠ TCP_PROTOCOL then
        some (false, packet)
      else
        let tcp ← TcpView.new ip.payload
        if tcp.getSource ≠ proxy.getLocalPort then some (false, packet)
        else
          let client : SocketAddr :=
            ⟨proxy.clientAddress inet ip.getDestination, tcp.getDestination⟩
          match proxy.findEntry client with
          | none => some (false, packet)
          | some entry =>
            -- `assert_eq!(nat_entry.src, dst_addr)`
            if entry.src ≠ client then none
            else
              let transform := !proxy.isSmoltcpEnabled && ip.getDestination == inet.2
              let header := setNoProxy packet.header
              let header := if transform then { header with toPeerId := proxy.myPeerId } else header
              let bytes ← rewriteTcpPacket ip entry.mappedDst.ip client.ip entry.realDst.port
                client.port
              some (true, ⟨header, bytes⟩)

end TcpProxy

end LowerTier.Gateway
