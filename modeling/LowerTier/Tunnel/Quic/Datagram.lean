import LowerTier.Tunnel.Quic.Capsule
import LowerTier.Tunnel.Quic.Fragments

/-!
# CONNECT-IP DATAGRAM frames (`tunnel/quic.rs`, `tunnel/quic/fragments.rs`)

A lossy packet goes into one DATAGRAM frame, or into fragments of at most the size that
the path takes now.  A frame starts with the quarter stream id and a context id; a
fragment adds the id of its packet, its index and the number of fragments.

Slices that start at a length which `decodeQuicVarint` has returned are within the buffer.
-/

namespace LowerTier.Tunnel.Quic

open ProofSupport.ByteString

def DATAGRAM_CONTEXT_WHOLE : Nat := 0

def DATAGRAM_CONTEXT_FRAGMENT : Nat := 1

def DATAGRAM_FRAGMENT_HEADER_LEN : Nat := 6

def connectIpDatagramOverhead (streamId : Nat) : Nat :=
  let quarterStreamId := streamId / 4
  let quarterLength :=
    if quarterStreamId ≤ 63 then 1
    else if quarterStreamId ≤ 16383 then 2
    else if quarterStreamId ≤ 1073741823 then 4
    else 8
  quarterLength + 1

def encodeQuicDatagramPrefix (streamId contextId : Nat) : Bytes :=
  putQuicVarint (streamId / 4) ++ putQuicVarint contextId

def encodeQuicDatagram (packet : ZCPacket) (streamId : Nat) : Option Bytes :=
  packet.tunnelPayloadWithPrefixIntoBytes
    (encodeQuicDatagramPrefix streamId DATAGRAM_CONTEXT_WHOLE)

def encodeFragment (streamId : Nat) (id : UInt32) (total index : Nat) (part : Bytes) : Bytes :=
  encodeQuicDatagramPrefix streamId DATAGRAM_CONTEXT_FRAGMENT ++ u32ToLeBytes id ++
    [UInt8.ofNat index, UInt8.ofNat total] ++ part

/-- The frames that are queued; `fragmentId` is what the counter of fragment ids gives. -/
def encodeLossyQuicDatagrams (packet : ZCPacket) (streamId : Nat) (maxSize : Option Nat)
    (fragmentId : UInt32) : Option (List Bytes) := do
  let whole ← encodeQuicDatagram packet streamId
  match maxSize with
  | none => return [whole]
  | some maxSize =>
    if whole.length ≤ maxSize then
      return [whole]
    else
      let wholePrefix := connectIpDatagramOverhead streamId
      if whole.length < wholePrefix then
        none
      else
        let payload := whole.drop wholePrefix
        let fragPrefixLen := (encodeQuicDatagramPrefix streamId DATAGRAM_CONTEXT_FRAGMENT).length
        let chunk := maxSize - (fragPrefixLen + DATAGRAM_FRAGMENT_HEADER_LEN)
        if chunk = 0 then
          return []
        else
          let total := (payload.length + chunk - 1) / chunk
          if total = 0 ∨ total > 255 then
            return []
          else
            return (chunks chunk payload).mapIdx (encodeFragment streamId fragmentId total)

inductive DecodedDatagram where
  | whole (packet : ZCPacket)
  | fragment (id : UInt32) (index count : UInt8) (payload : Bytes)

def packetFromTunnelPayload (bytes : Bytes) (headerLength : Nat) :
    Option (Except String ZCPacket) :=
  let available := bytes.length - headerLength
  if available < PEER_MANAGER_HEADER_SIZE then
    some (.error s!"QUIC DATAGRAM is too short: {available} < {PEER_MANAGER_HEADER_SIZE}")
  else
    (ZCPacket.newFromBufWithPrefix bytes headerLength .dummyTunnel).map .ok

def decodeFragment (body : Bytes) : Except String DecodedDatagram :=
  match body with
  | i0 :: i1 :: i2 :: i3 :: index :: count :: payload =>
    .ok (.fragment (u32FromLeBytes [i0, i1, i2, i3]) index count payload)
  | _ => .error "CONNECT-IP DATAGRAM fragment is too short"

def decodeQuicDatagramParts (bytes : Bytes) (streamId : Nat) :
    Option (Except String DecodedDatagram) :=
  match decodeQuicVarint bytes with
  | none => some (.error "HTTP/3 DATAGRAM has no Quarter Stream ID")
  | some (quarterStreamId, quarterLength) =>
    match decodeQuicVarint (bytes.drop quarterLength) with
    | none => some (.error "CONNECT-IP DATAGRAM has no Context ID")
    | some (contextId, contextLength) =>
      if quarterStreamId ≠ streamId / 4 then
        some (.error "CONNECT-IP DATAGRAM has an unexpected request")
      else
        let headerLength := quarterLength + contextLength
        if contextId = DATAGRAM_CONTEXT_WHOLE then
          (packetFromTunnelPayload bytes headerLength).map (·.map .whole)
        else if contextId = DATAGRAM_CONTEXT_FRAGMENT then
          some (decodeFragment (bytes.drop headerLength))
        else
          some (.error "CONNECT-IP DATAGRAM has an unexpected context")

structure Delivery where
  bytes : Bytes
  nowMs : Nat
  reserveMetadata : Bool
  extendPermit : Bool
  reserveOutput : Bool

def Delivery.push (delivery : Delivery) (id : UInt32) (index count : UInt8) (payload : Bytes) :
    FragmentPush :=
  { delivery with id, index, count, payload }

namespace DatagramFragments

/-- A malformed frame is dropped. -/
def ingest (s : DatagramFragments) (delivery : Delivery) (streamId : Nat) :
    Option (Option ZCPacket × DatagramFragments) := do
  match ← decodeQuicDatagramParts delivery.bytes streamId with
  | .ok (.whole packet) => return (some packet, s)
  | .ok (.fragment id index count payload) =>
    let (packet, s) ← s.pushFragment (delivery.push id index count payload)
    return (packet, s.scheduleExpiry)
  | .error _ => return (none, s)

def ingestAll (streamId : Nat) :
    DatagramFragments → List Delivery → Option (List (Option ZCPacket) × DatagramFragments)
  | s, [] => some ([], s)
  | s, delivery :: deliveries => do
      let (packet, s) ← s.ingest delivery streamId
      let (packets, s) ← ingestAll streamId s deliveries
      return (packet :: packets, s)

end DatagramFragments

end LowerTier.Tunnel.Quic
