import LowerTier.Tunnel.Batch
import LowerTier.Tunnel.PacketDef

/-!
# QUIC variable-length integers (`tunnel/quic.rs`)

The two top bits of the first byte give the width, one, two, four or eight bytes; the
rest is the value in network order.
-/

namespace LowerTier.Tunnel.Quic

open ProofSupport.ByteString

def putQuicVarint (value : Nat) : Bytes :=
  if value ≤ 63 then
    [UInt8.ofNat value]
  else if value ≤ 16383 then
    beBytes 2 (value ||| 0x4000)
  else if value ≤ 1073741823 then
    beBytes 4 (value ||| 0x80000000)
  else
    beBytes 8 (value ||| 0xc000000000000000)

def decodeQuicVarint (buffer : Bytes) : Option (Nat × Nat) :=
  match buffer with
  | [] => none
  | first :: rest =>
    let length := 1 <<< (first >>> 6).toNat
    if buffer.length < length then
      none
    else
      some (beValue ((first &&& 0x3f) :: rest.take (length - 1)), length)

/-- A first byte that holds the class of the width and the six top bits of the value. -/
theorem first_byte {kind top : Nat} (hkind : kind < 4) (htop : top < 64) :
    (UInt8.ofNat (kind * 64 + top) >>> 6).toNat = kind ∧
      (UInt8.ofNat (kind * 64 + top) &&& 0x3f).toNat = top := by
  have hbyte : (UInt8.ofNat (kind * 64 + top)).toNat = kind * 64 + top := by
    rw [UInt8.toNat_ofNat']
    omega
  constructor
  · rw [UInt8.toNat_shiftRight, hbyte]
    show (kind * 64 + top) >>> 6 = kind
    omega
  · rw [UInt8.toNat_and, hbyte]
    show (kind * 64 + top) &&& (2 ^ 6 - 1) = top
    rw [Nat.and_two_pow_sub_one_eq_mod]
    omega

theorem decodeQuicVarint_beBytes {kind tailWidth value : Nat} (hkind : kind < 4)
    (hwidth : 1 <<< kind = tailWidth + 1) (hvalue : value < 64 * 256 ^ tailWidth) (rest : Bytes) :
    decodeQuicVarint (beBytes (tailWidth + 1) (kind * (64 * 256 ^ tailWidth) + value) ++ rest) =
      some (value, tailWidth + 1) := by
  have hpos : 0 < 256 ^ tailWidth := Nat.pow_pos (by omega)
  have htop : value / 256 ^ tailWidth < 64 := Nat.div_lt_of_lt_mul (by rwa [Nat.mul_comm])
  have hsplit : kind * (64 * 256 ^ tailWidth) + value =
      256 ^ tailWidth * (kind * 64) + value := by ring
  have hdiv : (kind * (64 * 256 ^ tailWidth) + value) / 256 ^ tailWidth % 256 =
      kind * 64 + value / 256 ^ tailWidth := by
    rw [hsplit, Nat.mul_add_div hpos]
    exact Nat.mod_eq_of_lt (by omega)
  obtain ⟨hclass, hmask⟩ := first_byte hkind htop
  have hlow : beValue (beBytes tailWidth (kind * (64 * 256 ^ tailWidth) + value)) =
      value % 256 ^ tailWidth := by
    rw [beValue_beBytes_mod, hsplit, Nat.mul_add_mod]
  rw [beBytes_succ, hdiv, List.cons_append]
  simp only [decodeQuicVarint, hclass, hwidth, Nat.add_sub_cancel]
  rw [if_neg (by simp), List.take_left' (length_beBytes _ _), beValue_cons, hmask, hlow,
    length_beBytes, Nat.div_add_mod']

theorem or_eq_add {value : Nat} (k n : Nat) (hvalue : value < 2 ^ n) :
    value ||| 2 ^ n * k = 2 ^ n * k + value := by
  rw [Nat.or_comm, Nat.two_pow_add_eq_or_of_lt hvalue]

/-- Every value that the wire format can hold is read back, whatever follows it. -/
theorem decodeQuicVarint_putQuicVarint {value : Nat} (hvalue : value < 2 ^ 62) (rest : Bytes) :
    decodeQuicVarint (putQuicVarint value ++ rest) =
      some (value, (putQuicVarint value).length) := by
  unfold putQuicVarint
  split
  · next hone =>
    have hdecode : decodeQuicVarint (beBytes 1 (0 * (64 * 256 ^ 0) + value) ++ rest) =
      some (value, 1) := decodeQuicVarint_beBytes (by omega) rfl (by omega) rest
    have hbytes : beBytes 1 value = [UInt8.ofNat value] := by
      simp [beBytes, leBytes, Nat.mod_eq_of_lt (show value < 256 by omega)]
    simpa [hbytes] using hdecode
  split
  · have hor : value ||| 0x4000 = 1 * (64 * 256 ^ 1) + value := or_eq_add 1 14 (by omega)
    rw [hor, decodeQuicVarint_beBytes (by omega) rfl (by omega), length_beBytes]
  split
  · have hor : value ||| 0x80000000 = 2 * (64 * 256 ^ 3) + value := or_eq_add 2 30 (by omega)
    rw [hor, decodeQuicVarint_beBytes (by omega) rfl (by omega), length_beBytes]
  · have hor : value ||| 0xc000000000000000 = 3 * (64 * 256 ^ 7) + value :=
      or_eq_add 3 62 (by omega)
    rw [hor, decodeQuicVarint_beBytes (by omega) rfl (by omega), length_beBytes]

/-!
## The reliable lane of CONNECT-IP

Packets travel as capsules on the request stream: a type, a length and the tunnel
payload.  The receiver appends each chunk of stream data to a buffer and takes packets
out of it; capsules of other types are skipped.
-/

def LOWTIER_PACKET_CAPSULE_TYPE : Nat := 0x4554

def QUIC_RELIABLE_MAX_PACKET_SIZE : Nat := 64 * 1024

/-- `encode_packet_capsule`; a packet shorter than its own layout panics. -/
def encodePacketCapsule (packet : ZCPacket) : Option (Except String Bytes) := do
  let body ← packet.tunnelPayload
  if body.length < PEER_MANAGER_HEADER_SIZE ∨ body.length > QUIC_RELIABLE_MAX_PACKET_SIZE then
    return .error "CONNECT-IP capsule packet has an invalid length"
  else
    return .ok (putQuicVarint LOWTIER_PACKET_CAPSULE_TYPE ++ putQuicVarint body.length ++ body)

inductive CapsuleRead where
  | incomplete
  | capsule (capsuleType : Nat) (payload rest : Bytes)

/-- The capsule at the front of the buffer.  On a 64-bit target the length fits `usize`,
and the sum of the lengths does not overflow. -/
def readCapsule (buffer : Bytes) : Except String CapsuleRead :=
  match decodeQuicVarint buffer with
  | none => .ok .incomplete
  | some (capsuleType, typeLength) =>
    match decodeQuicVarint (buffer.drop typeLength) with
    | none => .ok .incomplete
    | some (payloadLength, lengthLength) =>
      if payloadLength > QUIC_RELIABLE_MAX_PACKET_SIZE then
        .error "CONNECT-IP capsule exceeds the packet limit"
      else
        let headerLength := typeLength + lengthLength
        if buffer.length < headerLength + payloadLength then
          .ok .incomplete
        else
          .ok (.capsule capsuleType ((buffer.drop headerLength).take payloadLength)
            (buffer.drop (headerLength + payloadLength)))

/-- The loop of `decode_packet_capsules` with the batch so far, for at most `fuel` rounds;
`none` is a loop that has not ended. -/
def decodeLoop : Nat → Bytes → List ZCPacket → Option (Except String (List ZCPacket) × Bytes)
  | 0, _, _ => none
  | fuel + 1, buffer, batch =>
    if batch.length ≥ MAX_PACKET_BATCH_SIZE then
      some (.ok batch, buffer)
    else
      match readCapsule buffer with
      | .error error => some (.error error, buffer)
      | .ok .incomplete => some (.ok batch, buffer)
      | .ok (.capsule capsuleType payload rest) =>
        if capsuleType ≠ LOWTIER_PACKET_CAPSULE_TYPE then
          decodeLoop fuel rest batch
        else if payload.length < PEER_MANAGER_HEADER_SIZE then
          some (.error "CONNECT-IP packet capsule is too short", rest)
        else
          decodeLoop fuel rest (batch ++ [ZCPacket.newFromBuf payload .dummyTunnel])

/-- The batch and what stays in the buffer. -/
def decodePacketCapsules (buffer : Bytes) : Option (Except String (List ZCPacket) × Bytes) :=
  decodeLoop (buffer.length + 1) buffer []

structure ReliableLane where
  delivered : List ZCPacket
  buffer : Bytes

namespace ReliableLane

def new : ReliableLane := ⟨[], []⟩

def RECEIVE_BUFFER_LIMIT : Nat := QUIC_RELIABLE_MAX_PACKET_SIZE + 16

/-- One chunk of data in `run_http3_reliable_lane`; an error ends the lane. -/
def receive (lane : ReliableLane) (data : Bytes) : Option (Except String ReliableLane) :=
  if lane.buffer.length + data.length > RECEIVE_BUFFER_LIMIT then
    some (.error "CONNECT-IP capsule receive buffer is full")
  else do
    match ← decodePacketCapsules (lane.buffer ++ data) with
    | (.error error, _) => return .error error
    | (.ok batch, buffer) => return .ok ⟨lane.delivered ++ batch, buffer⟩

def receiveAll (lane : ReliableLane) : List Bytes → Option (Except String ReliableLane)
  | [] => some (.ok lane)
  | data :: rest =>
    match lane.receive data with
    | some (.ok next) => next.receiveAll rest
    | failed => failed

end ReliableLane

end LowerTier.Tunnel.Quic
