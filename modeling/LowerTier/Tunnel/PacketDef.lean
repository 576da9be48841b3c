import LowerTier.ProofSupport.ByteString

/-!
# Packets (`tunnel/packet_def.rs`)

A `ZCPacket` is one buffer whose layout depends on the packet type: headroom,
the peer-manager header and the payload.  Methods that mutate the packet in
place return the new packet; methods that slice the buffer return `none` where
the source would panic.
-/

namespace LowerTier.Tunnel

open Option ProofSupport.ByteString

abbrev PeerId := UInt32

inductive PacketType where
  | invalid | data | handShake | routePacket | ping | pong | taRpc | route
  | rpcReq | rpcResp | foreignNetworkPacket
  | noiseHandshakeMsg1 | noiseHandshakeMsg2 | noiseHandshakeMsg3
  | relayHandshake | relayHandshakeAck | ethernet | speedProbe | speedProbeAck
  | relayHandshakeConfirm | relayHandshakeConfirmAck
  | relayHandshakeReadyReceipt | relayHandshakeReadyReceiptAck
  | relayHandshakeReady | relayHandshakeReadyAck
  | noiseHandshakeCommit | noiseHandshakeCommitAck | noiseHandshakeCommitDone
  | noiseHandshakeReady | noiseHandshakeReadyAck
  | noiseHandshakeReadyReceipt | noiseHandshakeReadyReceiptAck
  | relayHandshakeReset | relayHandshakeResetAck
  | receiverPressure | overlayStream | waypoint
deriving DecidableEq, Repr

def PacketType.code : PacketType → UInt8
  | .invalid => 0 | .data => 1 | .handShake => 2 | .routePacket => 3 | .ping => 4
  | .pong => 5 | .taRpc => 6 | .route => 7 | .rpcReq => 8 | .rpcResp => 9
  | .foreignNetworkPacket => 10
  | .noiseHandshakeMsg1 => 13 | .noiseHandshakeMsg2 => 14 | .noiseHandshakeMsg3 => 15
  | .relayHandshake => 20 | .relayHandshakeAck => 21 | .ethernet => 22
  | .speedProbe => 25 | .speedProbeAck => 26
  | .relayHandshakeConfirm => 27 | .relayHandshakeConfirmAck => 28
  | .noiseHandshakeCommit => 29 | .noiseHandshakeCommitAck => 30
  | .noiseHandshakeCommitDone => 31
  | .relayHandshakeReadyReceipt => 32 | .relayHandshakeReadyReceiptAck => 33
  | .relayHandshakeReady => 34 | .relayHandshakeReadyAck => 35
  | .noiseHandshakeReady => 36 | .noiseHandshakeReadyAck => 37
  | .noiseHandshakeReadyReceipt => 38 | .noiseHandshakeReadyReceiptAck => 39
  | .relayHandshakeReset => 40 | .relayHandshakeResetAck => 41
  | .receiverPressure => 42 | .overlayStream => 43 | .waypoint => 44

/-! ## The peer-manager header -/

structure PeerManagerHeader where
  fromPeerId : UInt32
  toPeerId : UInt32
  packetType : UInt8
  flags : UInt8
  forwardCounter : UInt8
  reserved : UInt8
  len : UInt32
deriving DecidableEq, Repr

def PEER_MANAGER_HEADER_SIZE : Nat := 16

def u32ToLeBytes (x : UInt32) : Bytes := leBytes 4 x.toNat

def u32FromLeBytes (bytes : Bytes) : UInt32 := UInt32.ofNat (leValue bytes)

theorem u32FromLeBytes_toLeBytes (x : UInt32) : u32FromLeBytes (u32ToLeBytes x) = x := by
  rw [u32FromLeBytes, u32ToLeBytes, leValue_leBytes (by simpa using x.toNat_lt)]
  simp

theorem u32ToLeBytes_fromLeBytes {bytes : Bytes} (hlength : bytes.length = 4) :
    u32ToLeBytes (u32FromLeBytes bytes) = bytes := by
  have hlt := leValue_lt bytes
  rw [hlength] at hlt
  rw [u32ToLeBytes, u32FromLeBytes, UInt32.toNat_ofNat_of_lt' (by simpa using hlt), ← hlength,
    leBytes_leValue]

@[simp] theorem length_u32ToLeBytes (x : UInt32) : (u32ToLeBytes x).length = 4 := by
  simp [u32ToLeBytes]

def PeerManagerHeader.refFromPrefix : Bytes → Option PeerManagerHeader
  | f0 :: f1 :: f2 :: f3 :: t0 :: t1 :: t2 :: t3 :: kind :: flags :: counter :: reserved ::
      l0 :: l1 :: l2 :: l3 :: _ =>
      some {
        fromPeerId := u32FromLeBytes [f0, f1, f2, f3]
        toPeerId := u32FromLeBytes [t0, t1, t2, t3]
        packetType := kind
        flags := flags
        forwardCounter := counter
        reserved := reserved
        len := u32FromLeBytes [l0, l1, l2, l3] }
  | _ => none

def PeerManagerHeader.asBytes (h : PeerManagerHeader) : Bytes :=
  u32ToLeBytes h.fromPeerId ++ u32ToLeBytes h.toPeerId ++
    [h.packetType, h.flags, h.forwardCounter, h.reserved] ++ u32ToLeBytes h.len

@[simp] theorem PeerManagerHeader.length_asBytes (h : PeerManagerHeader) :
    h.asBytes.length = PEER_MANAGER_HEADER_SIZE := by
  simp [asBytes, PEER_MANAGER_HEADER_SIZE]

theorem PeerManagerHeader.refFromPrefix_asBytes (h : PeerManagerHeader) (tail : Bytes) :
    refFromPrefix (h.asBytes ++ tail) = some h := by
  have hfrom := u32FromLeBytes_toLeBytes h.fromPeerId
  have hto := u32FromLeBytes_toLeBytes h.toPeerId
  have hlen := u32FromLeBytes_toLeBytes h.len
  simp only [u32ToLeBytes, leBytes] at hfrom hto hlen
  simp only [asBytes, u32ToLeBytes, leBytes, List.cons_append, List.nil_append,
    refFromPrefix, hfrom, hto, hlen]

theorem PeerManagerHeader.asBytes_of_refFromPrefix {bytes : Bytes} {h : PeerManagerHeader}
    (hparse : refFromPrefix bytes = some h) :
    bytes = h.asBytes ++ bytes.drop PEER_MANAGER_HEADER_SIZE := by
  unfold refFromPrefix at hparse
  split at hparse
  · next f0 f1 f2 f3 t0 t1 t2 t3 kind flags counter reserved l0 l1 l2 l3 rest =>
    have hfrom := u32ToLeBytes_fromLeBytes (show [f0, f1, f2, f3].length = 4 from rfl)
    have hto := u32ToLeBytes_fromLeBytes (show [t0, t1, t2, t3].length = 4 from rfl)
    have hlen := u32ToLeBytes_fromLeBytes (show [l0, l1, l2, l3].length = 4 from rfl)
    cases hparse
    simp [asBytes, hfrom, hto, hlen, PEER_MANAGER_HEADER_SIZE]
  · simp at hparse

variable (bytes : Bytes)

theorem PeerManagerHeader.refFromPrefix_isSome_iff :
    (refFromPrefix bytes).isSome ↔ PEER_MANAGER_HEADER_SIZE ≤ bytes.length := by
  constructor
  · intro hsome
    obtain ⟨h, hparse⟩ := isSome_iff_exists.mp hsome
    rw [asBytes_of_refFromPrefix hparse]
    simp
  · intro hlength
    unfold refFromPrefix
    split
    · rfl
    next hshort =>
    exfalso
    match bytes, hlength with
    | f0 :: f1 :: f2 :: f3 :: t0 :: t1 :: t2 :: t3 :: kind :: flags :: counter ::
        reserved :: l0 :: l1 :: l2 :: l3 :: rest, _ =>
        exact hshort _ _ _ _ _ _ _ _ _ _ _ _ _ _ _ _ _ rfl

namespace PeerManagerHeader

def FLOW_SHARD_PRESENT : UInt8 := 0x80

def FLOW_SHARD_MASK : UInt8 := 0x3f

def CRITICAL_L2_CONTROL : UInt8 := 0x40

/-- `PeerManagerHeaderFlags`, the bits that the modelled functions read. -/
def ENCRYPTED : UInt8 := 0b00000001

def LATENCY_FIRST : UInt8 := 0b00000010

def COMPRESSED : UInt8 := 0b00010000

def SPEED_FIRST : UInt8 := 0b00100000

def isEncrypted (h : PeerManagerHeader) : Bool := h.flags &&& ENCRYPTED == ENCRYPTED

def isCompressed (h : PeerManagerHeader) : Bool := h.flags &&& COMPRESSED == COMPRESSED

def setEncrypted (h : PeerManagerHeader) (encrypted : Bool) : PeerManagerHeader :=
  { h with flags := if encrypted then h.flags ||| ENCRYPTED else h.flags &&& ~~~ENCRYPTED }

def flowShard (h : PeerManagerHeader) : Option UInt8 :=
  if h.reserved &&& FLOW_SHARD_PRESENT != 0 then some (h.reserved &&& FLOW_SHARD_MASK) else none

def isCriticalL2Control (h : PeerManagerHeader) : Bool :=
  h.reserved &&& CRITICAL_L2_CONTROL != 0

/-- The flag bits that no relay may change. -/
def stableAuthFlags (h : PeerManagerHeader) : UInt8 :=
  h.flags &&& ~~~(ENCRYPTED ||| LATENCY_FIRST ||| SPEED_FIRST)

/-- The authenticated header fields in their fixed byte order. -/
def stableAuthData (h : PeerManagerHeader) : Bytes :=
  [0x45, 0x54, 0x41, 0x44] ++ beBytes 4 h.fromPeerId.toNat ++ beBytes 4 h.toPeerId.toNat ++
    [h.packetType, h.stableAuthFlags,
      (match h.flowShard with
        | some shard => 0x80 ||| (shard &&& FLOW_SHARD_MASK)
        | none => 0) |||
      (if h.isCriticalL2Control then CRITICAL_L2_CONTROL else 0)] ++
    beBytes 4 h.len.toNat

end PeerManagerHeader

/-! ## Buffer layout -/

inductive ZCPacketType where
  | tcp | nic | dummyTunnel
deriving DecidableEq, Repr

def TCP_TUNNEL_HEADER_SIZE : Nat := 4

def NIC_TUNNEL_HEADROOM : Nat := 18

def PAYLOAD_OFFSET_FOR_NIC_PACKET : Nat := NIC_TUNNEL_HEADROOM + PEER_MANAGER_HEADER_SIZE

def ZCPacketType.peerManagerHeaderOffset : ZCPacketType → Nat
  | .tcp => TCP_TUNNEL_HEADER_SIZE
  | .nic => PAYLOAD_OFFSET_FOR_NIC_PACKET - PEER_MANAGER_HEADER_SIZE
  | .dummyTunnel => 0

def ZCPacketType.payloadOffset : ZCPacketType → Nat
  | .tcp => TCP_TUNNEL_HEADER_SIZE + PEER_MANAGER_HEADER_SIZE
  | .nic => PAYLOAD_OFFSET_FOR_NIC_PACKET
  | .dummyTunnel => PEER_MANAGER_HEADER_SIZE

theorem ZCPacketType.payloadOffset_eq (t : ZCPacketType) :
    t.payloadOffset = t.peerManagerHeaderOffset + PEER_MANAGER_HEADER_SIZE := by
  cases t <;> rfl

structure VlanStack where
  tags : Vector UInt16 4
  len : UInt8
deriving DecidableEq

structure EthernetNetworkMetadata where
  etherType : UInt16
  payloadOffset : Nat
  vlanStack : VlanStack
deriving DecidableEq

structure ParsedPacketMetadata where
  fromPeerId : UInt32
  toPeerId : UInt32
  packetType : UInt8
  encrypted : Bool
  compressed : Bool
  notSendToTun : Bool
  flowShard : Option UInt8
  ethernetDestination : Option Bytes
  ethernetSource : Option Bytes
  ethernetNetwork : Option EthernetNetworkMetadata
deriving DecidableEq

/-- The buffer of a packet with its cached parse.  The local-only classification
and authentication fields of the source are not read by the modelled methods. -/
structure ZCPacket where
  inner : Bytes
  packetType : ZCPacketType
  flowHash : Option UInt64
  parsedMetadata : Option ParsedPacketMetadata
  /-- Whether the buffer belongs to a reusable pool. -/
  reusablePool : Bool
  /-- Headroom split off the front of the allocation. -/
  reusablePrefix : Option Bytes
deriving DecidableEq

namespace ZCPacket

def newFromBuf (buf : Bytes) (packetType : ZCPacketType) : ZCPacket where
  inner := buf
  packetType := packetType
  flowHash := none
  parsedMetadata := none
  reusablePool := false
  reusablePrefix := none

/-- `new_from_buf_with_prefix`; `split_to` panics on a prefix longer than the buffer. -/
def newFromBufWithPrefix (buf : Bytes) (prefixLength : Nat) (packetType : ZCPacketType) :
    Option ZCPacket :=
  if prefixLength ≤ buf.length then
    some { newFromBuf (buf.drop prefixLength) packetType with
      reusablePrefix := some (buf.take prefixLength) }
  else
    none

variable (p : ZCPacket)

def peerManagerHeaderOffset : Nat := p.packetType.peerManagerHeaderOffset

def payloadOffset : Nat := p.packetType.payloadOffset

def bytesFromOffset (offset : Nat) : Option Bytes :=
  if offset ≤ p.inner.length then some (p.inner.drop offset) else none

def payload : Option Bytes := p.bytesFromOffset p.payloadOffset

def peerManagerHeader : Option PeerManagerHeader := do
  let bytes ← p.bytesFromOffset p.peerManagerHeaderOffset
  PeerManagerHeader.refFromPrefix bytes

def tunnelPayload : Option Bytes :=
  p.bytesFromOffset p.peerManagerHeaderOffset

variable (f : PeerManagerHeader → PeerManagerHeader)

/-- `mut_peer_manager_header` followed by the update `f` of the header in place;
the flag says whether the packet has a header.  The cached parse is dropped
either way. -/
def mutPeerManagerHeader :
    Bool × ZCPacket :=
  match p.peerManagerHeader with
  | some header =>
    (true, { p with
      inner := p.inner.take p.peerManagerHeaderOffset ++ (f header).asBytes ++
        p.inner.drop p.payloadOffset
      parsedMetadata := none })
  | none => (false, { p with parsedMetadata := none })

/-- `mut_payload_preserving_flow_hash` followed by replacing the payload bytes. -/
def setPayloadPreservingFlowHash (bytes : Bytes) : ZCPacket :=
  { p with
    inner := p.inner.take p.payloadOffset ++ bytes
    parsedMetadata := none }

/-- `append_payload_preserving_flow_hash`; the length sum cannot overflow for a
buffer that fits in memory. -/
def appendPayloadPreservingFlowHash (suffix : Bytes) : ZCPacket :=
  { p with
    inner := p.inner ++ suffix
    parsedMetadata := none }

/-- `payload_len`: the difference wraps for a buffer shorter than the payload offset. -/
def payloadLen : Nat :=
  if p.payloadOffset ≤ p.inner.length then p.inner.length - p.payloadOffset
  else 2 ^ 64 + p.inner.length - p.payloadOffset

def removePayloadSuffixPreservingFlowHash (suffixLen : Nat) :
    Except String Unit × ZCPacket :=
  if suffixLen > p.payloadLen then
    (.error "payload suffix exceeds the packet length", p)
  else
    (.ok (), { p with
      -- truncating to a wrapped length keeps the buffer
      inner :=
        if suffixLen ≤ p.inner.length then p.inner.take (p.inner.length - suffixLen) else p.inner
      parsedMetadata := none })

def releaseBuffer : ZCPacket :=
  { p with reusablePool := false, reusablePrefix := none }

/-- `compact_retained_buffer`; how much memory the buffer keeps allocated is not part of the
packet, so it is an argument. -/
def compactRetainedBuffer (retainedBufferCapacity : Nat) : ZCPacket :=
  if retainedBufferCapacity ≤ p.inner.length then p else p.releaseBuffer

/-- `tunnel_payload_with_prefix_into_bytes`: the prefix goes into the headroom
in front of the header, into the reusable headroom, or into a fresh buffer. -/
def tunnelPayloadWithPrefixIntoBytes (pre : Bytes) : Option Bytes :=
  let payloadOffset := p.peerManagerHeaderOffset
  if payloadOffset ≥ pre.length then
    let start := payloadOffset - pre.length
    if payloadOffset ≤ p.inner.length then
      some ((p.inner.take start ++ pre ++ p.inner.drop payloadOffset).drop start)
    else
      none
  else
    match p.reusablePrefix with
    | some headroom =>
      if headroom.length ≥ pre.length then
        let start := headroom.length - pre.length
        -- the whole buffer follows the headroom, the header offset is not skipped
        some ((headroom.take start ++ pre ++ p.inner).drop start)
      else do
        let payload ← p.tunnelPayload
        some (pre ++ payload)
    | none => do
        let payload ← p.tunnelPayload
        some (pre ++ payload)

/-! ## Header and payload of one buffer -/

open List

theorem tunnelPayload_newFromBuf : (newFromBuf bytes .dummyTunnel).tunnelPayload = some bytes := by
  simp [tunnelPayload, bytesFromOffset, newFromBuf, peerManagerHeaderOffset,
    ZCPacketType.peerManagerHeaderOffset]

theorem payloadOffset_eq :
    p.payloadOffset = p.peerManagerHeaderOffset + PEER_MANAGER_HEADER_SIZE :=
  p.packetType.payloadOffset_eq

theorem peerManagerHeader_isSome_iff :
    p.peerManagerHeader.isSome ↔ p.payloadOffset ≤ p.inner.length := by
  rw [payloadOffset_eq]
  unfold peerManagerHeader bytesFromOffset
  split_ifs with hoffset
  · rw [bind_eq_bind, bind_some, PeerManagerHeader.refFromPrefix_isSome_iff, length_drop]
    omega
  · simp only [bind_eq_bind, bind_none, isSome_none, Bool.false_eq_true, false_iff]
    omega

variable {header : PeerManagerHeader}

theorem payload_of_header {p : ZCPacket} (hheader : p.peerManagerHeader = some header) :
    p.payload = some (p.inner.drop p.payloadOffset) := by
  have hoffset := p.peerManagerHeader_isSome_iff.mp (by rw [hheader]; rfl)
  rw [payload, bytesFromOffset, if_pos hoffset]

/-- The buffer of `p` is headroom, header and payload. -/
structure HasParts (p : ZCPacket) (head : Bytes) (header : PeerManagerHeader) (tail : Bytes) :
    Prop where
  length_head : head.length = p.peerManagerHeaderOffset
  inner_eq : p.inner = head ++ header.asBytes ++ tail

theorem HasParts.of_header {p : ZCPacket} (hheader : p.peerManagerHeader = some header) :
    p.HasParts (p.inner.take p.peerManagerHeaderOffset) header (p.inner.drop p.payloadOffset) := by
  have hoffset := p.peerManagerHeader_isSome_iff.mp (by rw [hheader]; rfl)
  rw [payloadOffset_eq] at hoffset
  refine ⟨by rw [length_take]; omega, ?_⟩
  have hparse : PeerManagerHeader.refFromPrefix (p.inner.drop p.peerManagerHeaderOffset) =
      some header := by
    rw [peerManagerHeader, bytesFromOffset, if_pos (by omega)] at hheader
    exact hheader
  have hbytes := PeerManagerHeader.asBytes_of_refFromPrefix hparse
  rw [drop_drop, ← payloadOffset_eq] at hbytes
  rw [append_assoc, ← hbytes, take_append_drop]

namespace HasParts

variable {p : ZCPacket} {head tail : Bytes} {header : PeerManagerHeader}

section

variable (hparts : p.HasParts head header tail)
include hparts

theorem replace (header' : PeerManagerHeader)
    (tail' : Bytes) (metadata : Option ParsedPacketMetadata) :
    { p with
      inner := head ++ header'.asBytes ++ tail', parsedMetadata := metadata }.HasParts
      head header' tail' :=
  ⟨hparts.length_head, rfl⟩

theorem length_inner : p.inner.length = p.payloadOffset + tail.length := by
  rw [hparts.inner_eq, payloadOffset_eq]
  simp [hparts.length_head, Nat.add_assoc]

theorem take_header : p.inner.take p.peerManagerHeaderOffset = head := by
  rw [hparts.inner_eq, append_assoc, ← hparts.length_head, take_left]

theorem take_payload : p.inner.take p.payloadOffset = head ++ header.asBytes := by
  have hlength : (head ++ header.asBytes).length = p.payloadOffset := by
    simp [hparts.length_head, payloadOffset_eq]
  rw [hparts.inner_eq, ← hlength, take_left]

theorem drop_header : p.inner.drop p.peerManagerHeaderOffset = header.asBytes ++ tail := by
  rw [hparts.inner_eq, append_assoc, ← hparts.length_head, drop_left]

theorem drop_payload : p.inner.drop p.payloadOffset = tail := by
  have hlength : (head ++ header.asBytes).length = p.payloadOffset := by
    simp [hparts.length_head, payloadOffset_eq]
  rw [hparts.inner_eq, ← hlength, drop_left]

theorem peerManagerHeader_eq : p.peerManagerHeader = some header := by
  have hoffset : p.peerManagerHeaderOffset ≤ p.inner.length := by
    rw [hparts.length_inner, payloadOffset_eq]
    omega
  rw [peerManagerHeader, bytesFromOffset, if_pos hoffset, bind_eq_bind, bind_some,
    hparts.drop_header, PeerManagerHeader.refFromPrefix_asBytes]

theorem payload_eq : p.payload = some tail := by
  rw [payload_of_header hparts.peerManagerHeader_eq, hparts.drop_payload]

theorem mutPeerManagerHeader_eq :
    p.mutPeerManagerHeader f =
      (true, { p with inner := head ++ (f header).asBytes ++ tail, parsedMetadata := none }) := by
  rw [mutPeerManagerHeader, hparts.peerManagerHeader_eq]
  simp only [hparts.take_header, hparts.drop_payload]

end

theorem removePayloadSuffix_eq {kept suffix : Bytes}
    (hparts : p.HasParts head header (kept ++ suffix)) :
    p.removePayloadSuffixPreservingFlowHash suffix.length =
      (.ok (), { p with inner := head ++ header.asBytes ++ kept, parsedMetadata := none }) := by
  have htake : p.inner.take (p.inner.length - suffix.length) = head ++ header.asBytes ++ kept := by
    rw [hparts.inner_eq, ← append_assoc, length_append, Nat.add_sub_cancel, take_left]
  have hlen : p.payloadLen = (kept ++ suffix).length := by
    rw [payloadLen, hparts.length_inner, if_pos (Nat.le_add_right _ _), Nat.add_sub_cancel_left]
  have hfits : suffix.length ≤ p.inner.length := by
    rw [hparts.length_inner, length_append]
    omega
  rw [removePayloadSuffixPreservingFlowHash, if_neg (by rw [hlen]; simp), if_pos hfits, htake]

end HasParts

end ZCPacket

end LowerTier.Tunnel
