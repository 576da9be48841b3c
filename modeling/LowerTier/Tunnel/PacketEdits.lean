import LowerTier.Tunnel.Waypoint
import LowerTier.Tunnel.ForeignNetwork

/-!
# Building and editing packets (`tunnel/packet_def.rs`)

The constructors of `ZCPacket`, the parse that `refresh_parsed_metadata` caches, and the
methods that edit a packet in place.  An accessor that hands out a mutable slice or header is
modelled together with the write `f` made through it.  Results are `none` where the source
panics.
-/

namespace LowerTier.Tunnel

open ZCPacketType ProofSupport.ByteString

namespace PeerManagerHeader

def NOT_SEND_TO_TUN : UInt8 := 0b01000000

def isNotSendToTun (h : PeerManagerHeader) : Bool :=
  h.flags &&& NOT_SEND_TO_TUN == NOT_SEND_TO_TUN

end PeerManagerHeader

def VlanStack.default : VlanStack := ⟨.replicate 4 0, 0⟩

/-- `None` once the four tags are taken. -/
def VlanStack.push (s : VlanStack) (tag : UInt16) : Option VlanStack :=
  if hroom : s.len.toNat < 4 then some ⟨s.tags.set s.len.toNat tag hroom, s.len + 1⟩ else none

def u16FromBeBytes (high low : UInt8) : UInt16 := UInt16.ofNat (beValue [high, low])

def isVlanEtherType (etherType : UInt16) : Bool :=
  etherType == 0x8100 || etherType == 0x88a8 || etherType == 0x9100

/-- The loop of `ethernet_network_metadata` over the bytes behind the ether type. -/
def parseVlanTags (etherType : UInt16) (payloadOffset : Nat) (vlanStack : VlanStack) :
    Bytes → Option EthernetNetworkMetadata
  | t0 :: t1 :: e0 :: e1 :: rest =>
    if isVlanEtherType etherType then
      match vlanStack.push (u16FromBeBytes t0 t1 &&& 0x0fff) with
      | some vlanStack =>
        parseVlanTags (u16FromBeBytes e0 e1) (payloadOffset + 4) vlanStack rest
      | none => none
    else
      some ⟨etherType, payloadOffset, vlanStack⟩
  | _ => if isVlanEtherType etherType then none else some ⟨etherType, payloadOffset, vlanStack⟩

def ethernetNetworkMetadata (frame : Bytes) : Option EthernetNetworkMetadata :=
  match slice frame 12 14 with
  | some [high, low] => parseVlanTags (u16FromBeBytes high low) 14 .default (frame.drop 14)
  | _ => none

def ethernetFields (frame : Bytes) : Option Bytes × Option Bytes × Option EthernetNetworkMetadata :=
  match slice frame 0 6, slice frame 6 12, slice frame 12 14 with
  | some destination, some source, some _ =>
    (some destination, some source, ethernetNetworkMetadata frame)
  | _, _, _ => (none, none, none)

def parseMetadata (header : PeerManagerHeader) (frame : Bytes) : ParsedPacketMetadata :=
  let ethernet :=
    if header.packetType = PacketType.ethernet.code then ethernetFields frame
    else (none, none, none)
  { fromPeerId := header.fromPeerId
    toPeerId := header.toPeerId
    packetType := header.packetType
    encrypted := header.isEncrypted
    compressed := header.isCompressed
    notSendToTun := header.isNotSendToTun
    flowShard := header.flowShard
    ethernetDestination := ethernet.1
    ethernetSource := ethernet.2.1
    ethernetNetwork := ethernet.2.2 }

/-- The bytes of a TCP tunnel header in front of the peer-manager header; `none` stands for
`INVALID_OFFSET`. -/
def ZCPacketType.tcpTunnelHeaderOffset : ZCPacketType → Option Nat
  | .tcp => some 0
  | .nic => some (PAYLOAD_OFFSET_FOR_NIC_PACKET - PEER_MANAGER_HEADER_SIZE - TCP_TUNNEL_HEADER_SIZE)
  | .dummyTunnel => none

/-- `dummy_tunnel_header_offset`, valid for every type. -/
def ZCPacketType.dummyTunnelHeaderOffset : ZCPacketType → Nat
  | .tcp => TCP_TUNNEL_HEADER_SIZE
  | .nic => PAYLOAD_OFFSET_FOR_NIC_PACKET - PEER_MANAGER_HEADER_SIZE
  | .dummyTunnel => 0

namespace ZCPacket

variable (p : ZCPacket)

/-- The result and the packet with the result cached; a packet without header keeps its
cache. -/
def refreshParsedMetadata : Option ParsedPacketMetadata × ZCPacket :=
  match p.peerManagerHeader with
  | some header =>
    -- the header puts the payload offset in range
    let metadata := parseMetadata header (p.inner.drop p.payloadOffset)
    (some metadata, { p with parsedMetadata := some metadata })
  | none => (none, p)

/-! ## Constructors -/

def newNicPacket : ZCPacket := newFromBuf [] .nic

def newFromReusableBuf (buf : Bytes) (packetType : ZCPacketType) : ZCPacket :=
  { newFromBuf buf packetType with reusablePool := true }

/-- `new_with_payload_parts`; with one part it is `new_with_payload`. -/
def newWithPayloadParts (parts : List Bytes) : ZCPacket :=
  { newNicPacket with inner := List.replicate nic.payloadOffset 0 ++ parts.flatten }

def newWithPayload (payload : Bytes) : ZCPacket := newWithPayloadParts [payload]

def newWithPayloadLen (payloadLen : Nat) : ZCPacket :=
  { newNicPacket with inner := List.replicate (nic.payloadOffset + payloadLen) 0 }

/-- A buffer that ends in front of `packetInfoLen` bytes of the header; more than the payload
offset asks for an allocation of the wrapped difference. -/
def newForTun (packetInfoLen : Nat) : Option ZCPacket :=
  if packetInfoLen ≤ nic.payloadOffset then
    some { newNicPacket with
      inner := List.replicate (nic.payloadOffset - packetInfoLen) 0 }
  else none

/-! ## Edits of the payload

Each edit has a form that keeps the cached flow hash; the other form drops it as well. -/

def dropFlowHash : ZCPacket := { p with flowHash := none }

def setFlowHash (flowHash : UInt64) : ZCPacket :=
  { p with flowHash := some flowHash }

variable (f : Bytes → Bytes)

def mutPayloadPreservingFlowHash : Option ZCPacket :=
  p.payload.map fun payload => p.setPayloadPreservingFlowHash (f payload)

def mutPayload : Option ZCPacket :=
  (p.mutPayloadPreservingFlowHash f).map dropFlowHash

def removePayloadPrefixPreservingFlowHash (prefixLen : Nat) :
    Option (Except String Unit × ZCPacket) :=
  if prefixLen > p.payloadLen then
    some (.error "payload prefix exceeds the packet length", p)
  else
    (p.advanceInner prefixLen).map fun q => (.ok (), { q with parsedMetadata := none })

/-- A refused edit keeps the flow hash. -/
def dropFlowHashOnSuccess (result : Except String Unit × ZCPacket) :
    Except String Unit × ZCPacket :=
  match result with
  | (.ok (), q) => (.ok (), q.dropFlowHash)
  | (.error message, q) => (.error message, q)

def removePayloadPrefix (prefixLen : Nat) : Option (Except String Unit × ZCPacket) :=
  (p.removePayloadPrefixPreservingFlowHash prefixLen).map dropFlowHashOnSuccess

variable (bytes : Bytes)

/-- The buffer with the headroom in front again and `bytes` at the start of its payload. -/
def restorePayloadPrefixFromReusableHeadroom :
    Option (Bool × ZCPacket) :=
  match p.reusablePrefix with
  | none => some (false, p)
  | some headroom =>
    if headroom.length ≠ bytes.length ∨ p.inner.length < p.payloadOffset + bytes.length then
      some (false, p)
    else
      (copyFromSlice (headroom ++ p.inner) p.payloadOffset (p.payloadOffset + bytes.length)
        bytes).map fun inner =>
          (true, { p with inner := inner, reusablePrefix := none, parsedMetadata := none })

/-- `copy_within` panics for a buffer that ends before the payload; the length sum cannot
overflow for a buffer that fits in memory. -/
def prependPayloadPreservingFlowHash : Option ZCPacket :=
  p.payload.map fun payload => p.setPayloadPreservingFlowHash (bytes ++ payload)

def prependPayload : Option ZCPacket :=
  (p.prependPayloadPreservingFlowHash bytes).map dropFlowHash

def appendPayload (suffix : Bytes) : ZCPacket :=
  (p.appendPayloadPreservingFlowHash suffix).dropFlowHash

def removePayloadSuffix (suffixLen : Nat) : Except String Unit × ZCPacket :=
  dropFlowHashOnSuccess (p.removePayloadSuffixPreservingFlowHash suffixLen)

def mutInnerPreservingFlowHash : ZCPacket :=
  { p with inner := f p.inner, parsedMetadata := none }

def mutInner : ZCPacket :=
  (p.mutInnerPreservingFlowHash f).dropFlowHash

variable (fromPeerId toPeerId : UInt32)

/-- A wrapper for a foreign network keeps the flags it was built with. -/
def fillPeerManagerHdrPreservingFlowHash (packetType : UInt8) : Option ZCPacket :=
  let payloadLen := UInt32.ofNat p.payloadLen
  match p.mutPeerManagerHeader fun header =>
      let filled := PeerManagerHeader.initialized fromPeerId toPeerId packetType payloadLen
      if packetType = PacketType.foreignNetworkPacket.code then
        { filled with flags := header.flags }
      else filled with
  | (true, q) => some q
  | (false, _) => none

def fillPeerManagerHdr (packetType : UInt8) :
    Option ZCPacket :=
  (p.fillPeerManagerHdrPreservingFlowHash fromPeerId toPeerId packetType).map dropFlowHash

def refreshPeerManagerHdrLen : ZCPacket :=
  (p.mutPeerManagerHeader fun header => { header with len := UInt32.ofNat p.payloadLen }).2

/-- `mut_tcp_tunnel_header` followed by the update `f` of its length. -/
def mutTcpTunnelHeader (f : UInt32 → UInt32) : Bool × ZCPacket :=
  match p.packetType.tcpTunnelHeaderOffset with
  | none => (false, p)
  | some offset =>
    match slice p.inner offset (offset + TCP_TUNNEL_HEADER_SIZE) with
    | none => (false, p)
    | some len =>
      (true, { p with
        inner := p.inner.take offset ++ u32ToLeBytes (f (u32FromLeBytes len)) ++
          p.inner.drop (offset + TCP_TUNNEL_HEADER_SIZE) })

/-- Headroom for a larger tunnel header needs a new buffer, which keeps the flow hash and not
the cached parse. -/
def copyIntoType (target : ZCPacketType) : Option ZCPacket :=
  p.tunnelPayload.map fun tunnelPayload =>
    { newFromBuf (List.replicate target.peerManagerHeaderOffset 0 ++ tunnelPayload) target with
      flowHash := p.flowHash }

def convertType (target : ZCPacketType) : Option ZCPacket :=
  if target = p.packetType then some p
  else
    let newOffset :=
      match target with
      | .tcp => p.packetType.tcpTunnelHeaderOffset
      | .dummyTunnel => some p.packetType.dummyTunnelHeaderOffset
      | .nic => none
    match target, newOffset with
    -- `unreachable!`
    | .nic, _ => none
    | _, none => p.copyIntoType target
    | _, some offset => (p.advanceInner offset).map fun q => { q with packetType := target }

end ZCPacket

end LowerTier.Tunnel
