import LowerTier.Tunnel.Quic.Datagram
import LowerTier.Tunnel.Quic.FragmentAccounting

/-!
# Frames and what the decoder makes of them

The encoder and the decoder compute the header of a frame separately.  Here they are
brought together: which bytes of a packet go into its frames, and that the decoder finds
them behind the same header.
-/

namespace LowerTier.Tunnel.Quic

open ZCPacket DatagramFragments Option List ProofSupport.ByteString ProofSupport KeyedMap

theorem length_encodeQuicDatagramPrefix (streamId : Nat) {contextId : Nat}
    (hcontext : contextId ≤ 63) :
    (encodeQuicDatagramPrefix streamId contextId).length = connectIpDatagramOverhead streamId := by
  have hone : (putQuicVarint contextId).length = 1 := by simp [putQuicVarint, hcontext]
  rw [encodeQuicDatagramPrefix, length_append, hone, connectIpDatagramOverhead, putQuicVarint]
  split_ifs <;> simp

variable {streamId : Nat}

abbrev wholePrefix (streamId : Nat) : Bytes :=
  encodeQuicDatagramPrefix streamId DATAGRAM_CONTEXT_WHOLE

theorem length_wholePrefix :
    (wholePrefix streamId).length = connectIpDatagramOverhead streamId :=
  length_encodeQuicDatagramPrefix streamId (by decide)

theorem decode_header {streamId contextId : Nat} (hstream : streamId < 2 ^ 62)
    (hcontext : contextId ≤ 63) (rest : Bytes) :
    decodeQuicVarint (encodeQuicDatagramPrefix streamId contextId ++ rest) =
        some (streamId / 4, (putQuicVarint (streamId / 4)).length) ∧
      decodeQuicVarint ((encodeQuicDatagramPrefix streamId contextId ++ rest).drop
        (putQuicVarint (streamId / 4)).length) =
        some (contextId, (putQuicVarint contextId).length) := by
  have hquarter : streamId / 4 < 2 ^ 62 := by omega
  rw [encodeQuicDatagramPrefix, append_assoc]
  constructor
  · exact decodeQuicVarint_putQuicVarint hquarter _
  · rw [drop_left]
    exact decodeQuicVarint_putQuicVarint (by omega) rest

theorem drop_header (streamId contextId : Nat) (rest : Bytes) :
    (encodeQuicDatagramPrefix streamId contextId ++ rest).drop
      ((putQuicVarint (streamId / 4)).length + (putQuicVarint contextId).length) = rest := by
  rw [encodeQuicDatagramPrefix, ← length_append, drop_left]

/-! ## The payload of the frames -/

variable (packet : ZCPacket)

/-- The header of the frame goes into reusable headroom although the layout of the packet
has bytes of its own in front of the tunnel payload. -/
def Misplaced (streamId : Nat) : Prop :=
  0 < packet.peerManagerHeaderOffset ∧
    packet.peerManagerHeaderOffset < connectIpDatagramOverhead streamId ∧
    packet.reusablePrefix.any fun headroom => connectIpDatagramOverhead streamId ≤ headroom.length

instance (packet : ZCPacket) (streamId : Nat) : Decidable (Misplaced packet streamId) := by
  unfold Misplaced
  infer_instance

def framedBytes (streamId : Nat) : Bytes :=
  if Misplaced packet streamId then
    packet.inner
  else
    packet.inner.drop packet.peerManagerHeaderOffset

theorem encodeQuicDatagram_eq :
    encodeQuicDatagram packet streamId =
      if Misplaced packet streamId ∨ packet.peerManagerHeaderOffset ≤ packet.inner.length then
        some (wholePrefix streamId ++ framedBytes packet streamId)
      else
        none := by
  -- a fresh buffer takes the header and the tunnel payload
  have hfresh : ¬ Misplaced packet streamId →
      (do let payload ← packet.tunnelPayload
          some (wholePrefix streamId ++ payload)) =
        if Misplaced packet streamId ∨ packet.peerManagerHeaderOffset ≤ packet.inner.length then
          some (wholePrefix streamId ++ framedBytes packet streamId)
        else
          none := by
    intro hplaced
    simp only [tunnelPayload, bytesFromOffset, framedBytes, hplaced, false_or, if_false]
    split <;> rfl
  simp only [encodeQuicDatagram, tunnelPayloadWithPrefixIntoBytes, length_wholePrefix]
  split
  · next hoffset =>
    have hplaced : ¬ Misplaced packet streamId := by
      intro hmisplaced
      have := hmisplaced.2.1
      omega
    simp only [framedBytes, hplaced, false_or, if_false]
    split
    · rw [append_assoc, drop_left' (length_take_of_le (by omega))]
    · rfl
  · next hoffset =>
    cases hheadroom : packet.reusablePrefix with
    | none => exact hfresh (by simp [Misplaced, hheadroom])
    | some headroom =>
      simp only
      split
      · next hroom =>
        by_cases hzero : packet.peerManagerHeaderOffset = 0
        · have hplaced : ¬ Misplaced packet streamId := by
            intro hmisplaced
            have := hmisplaced.1
            omega
          simp [framedBytes, hplaced, hzero]
        · have hmisplaced : Misplaced packet streamId := by
            refine ⟨by omega, by omega, ?_⟩
            simpa [hheadroom] using hroom
          simp [framedBytes, hmisplaced]
      · next hroom =>
        refine hfresh ?_
        rintro ⟨-, -, hany⟩
        exact hroom (by simpa [hheadroom] using hany)

/-- The packet has a header, and its frames carry the tunnel payload and nothing else. -/
def WellPlaced (streamId : Nat) : Prop :=
  packet.peerManagerHeader.isSome ∧ ¬ Misplaced packet streamId

/-- In terms of the frames: they carry the tunnel payload, and the decoder does not find
it too short. -/
theorem wellPlaced_iff :
    WellPlaced packet streamId ↔
      PEER_MANAGER_HEADER_SIZE ≤ (framedBytes packet streamId).length ∧
        packet.tunnelPayload = some (framedBytes packet streamId) := by
  rw [WellPlaced, packet.peerManagerHeader_isSome_iff, packet.payloadOffset_eq]
  by_cases hmisplaced : Misplaced packet streamId
  · have hoffset := hmisplaced.1
    simp only [hmisplaced, not_true_eq_false, and_false, framedBytes, if_true, false_iff,
      tunnelPayload, bytesFromOffset]
    rintro ⟨hlength, hpayload⟩
    split at hpayload
    · have hsame := congrArg length (some.inj hpayload)
      rw [length_drop] at hsame
      omega
    · contradiction
  · simp only [hmisplaced, not_false_eq_true, and_true, framedBytes, if_false,
      tunnelPayload, bytesFromOffset, length_drop]
    have hsize : 0 < PEER_MANAGER_HEADER_SIZE := by decide
    constructor
    · intro hlength
      exact ⟨by omega, if_pos (by omega)⟩
    · omega

/-! ## One frame or fragments -/

def fragmentFrames (streamId : Nat) (id : UInt32) (chunk : Nat) (payload : Bytes) : List Bytes :=
  (chunks chunk payload).mapIdx (encodeFragment streamId id (chunks chunk payload).length)

/-- What the encoder emits: one frame that fits, nothing, or fragments that fit. -/
inductive Emits (packet : ZCPacket) (streamId : Nat) (maxSize : Option Nat) (id : UInt32) :
    List Bytes → Prop
  | whole
      (hfits : ∀ max, maxSize = some max →
        connectIpDatagramOverhead streamId + (framedBytes packet streamId).length ≤ max) :
      Emits packet streamId maxSize id
        [wholePrefix streamId ++ framedBytes packet streamId]
  | nothing : Emits packet streamId maxSize id []
  | fragments (chunk : Nat) (hchunk : 0 < chunk)
      (hmax : maxSize =
        some (connectIpDatagramOverhead streamId + DATAGRAM_FRAGMENT_HEADER_LEN + chunk))
      (htotal : (chunks chunk (framedBytes packet streamId)).length ≤ 255) :
      Emits packet streamId maxSize id
        (fragmentFrames streamId id chunk (framedBytes packet streamId))

variable {streamId : Nat} {packet : ZCPacket} {datagrams : List Bytes} {maxSize : Option Nat}

variable {id : UInt32}

theorem encodeLossyQuicDatagrams_emits
    (hencode : encodeLossyQuicDatagrams packet streamId maxSize id = some datagrams) :
    Emits packet streamId maxSize id datagrams := by
  have hfrag : (encodeQuicDatagramPrefix streamId DATAGRAM_CONTEXT_FRAGMENT).length =
      connectIpDatagramOverhead streamId := length_encodeQuicDatagramPrefix streamId (by decide)
  simp only [encodeLossyQuicDatagrams, encodeQuicDatagram_eq] at hencode
  split at hencode
  · simp only [bind_eq_bind, bind_some, length_append, length_wholePrefix, hfrag,
      drop_left' length_wholePrefix] at hencode
    split at hencode
    · cases hencode
      exact .whole (fun max hmax => by contradiction)
    next max =>
    split at hencode
    · next hfits =>
      cases hencode
      refine .whole fun max' hmax => ?_
      cases hmax
      exact hfits
    · split at hencode
      · contradiction
      split at hencode
      · cases hencode
        exact .nothing
      split at hencode
      · cases hencode
        exact .nothing
      · next hchunk htotal =>
        cases hencode
        rw [← length_chunks] at htotal ⊢
        refine .fragments _ (by omega) (congrArg some (by omega)) (by omega)
  · simp at hencode

theorem encodeLossyQuicDatagrams_isSome (h : WellPlaced packet streamId) :
    (encodeLossyQuicDatagrams packet streamId maxSize id).isSome := by
  have hoffset : packet.peerManagerHeaderOffset ≤ packet.inner.length := by
    have hheader := packet.peerManagerHeader_isSome_iff.mp h.1
    rw [packet.payloadOffset_eq] at hheader
    omega
  simp only [encodeLossyQuicDatagrams, encodeQuicDatagram_eq, hoffset, or_true, if_true,
    bind_eq_bind, bind_some, length_append, length_wholePrefix]
  repeat' split
  all_goals first | rfl | omega

theorem length_encodeFragment (id : UInt32) (total index : Nat) (part : Bytes) :
    (encodeFragment streamId id total index part).length =
      connectIpDatagramOverhead streamId + DATAGRAM_FRAGMENT_HEADER_LEN + part.length := by
  have hprefix := length_encodeQuicDatagramPrefix streamId (show DATAGRAM_CONTEXT_FRAGMENT ≤ 63 by
    decide)
  simp only [encodeFragment, length_append, hprefix, length_u32ToLeBytes, length_cons,
    length_nil, DATAGRAM_FRAGMENT_HEADER_LEN]

theorem Emits.length_le (h : Emits packet streamId maxSize id datagrams) {max : Nat}
    (hmax : maxSize = some max) {frame : Bytes} (hframe : frame ∈ datagrams) :
    frame.length ≤ max := by
  cases h with
  | whole hfits =>
    obtain rfl := mem_singleton.mp hframe
    rw [length_append, length_encodeQuicDatagramPrefix streamId (by decide)]
    exact hfits max hmax
  | nothing => simp at hframe
  | fragments chunk hchunk hsize htotal =>
    obtain ⟨index, hindex, rfl⟩ := mem_mapIdx.mp hframe
    have hpart := length_le_of_mem_chunks (getElem_mem hindex)
    rw [hsize] at hmax
    have := some.inj hmax
    rw [length_encodeFragment]
    omega

/-! ## Decoding a frame -/

variable {payload : Bytes}

section

variable (hstream : streamId < 2 ^ 62)
include hstream

/-- A frame with a whole packet is decoded to what `packet_from_tunnel_payload` says. -/
theorem decode_whole_eq : decodeQuicDatagramParts (wholePrefix streamId ++ payload) streamId =
    (packetFromTunnelPayload (wholePrefix streamId ++ payload)
      (wholePrefix streamId).length).map (·.map .whole) := by
  obtain ⟨hquarter, hcontext⟩ :=
    decode_header hstream (show DATAGRAM_CONTEXT_WHOLE ≤ 63 by decide) payload
  simp only [decodeQuicDatagramParts, hquarter, hcontext, ne_eq, not_true_eq_false, if_false,
    if_true]
  rw [wholePrefix, encodeQuicDatagramPrefix, length_append]

theorem decode_whole (hlength : PEER_MANAGER_HEADER_SIZE ≤ payload.length) :
    ∃ packet, decodeQuicDatagramParts (wholePrefix streamId ++ payload) streamId =
      some (.ok (.whole packet)) ∧ packet.tunnelPayload = some payload := by
  rw [decode_whole_eq hstream, packetFromTunnelPayload, length_append,
    Nat.add_sub_cancel_left, if_neg (by omega), newFromBufWithPrefix, if_pos (by simp),
    drop_left]
  exact ⟨_, rfl, tunnelPayload_newFromBuf payload⟩

theorem decode_whole_short (hlength : payload.length < PEER_MANAGER_HEADER_SIZE) :
    ∃ error, decodeQuicDatagramParts (wholePrefix streamId ++ payload) streamId =
      some (.error error) := by
  rw [decode_whole_eq hstream, packetFromTunnelPayload, length_append,
    Nat.add_sub_cancel_left, if_pos hlength]
  exact ⟨_, rfl⟩

theorem decode_fragment (total index : Nat) (part : Bytes) :
    decodeQuicDatagramParts (encodeFragment streamId id total index part) streamId =
      some (.ok (.fragment id (UInt8.ofNat index) (UInt8.ofNat total) part)) := by
  have hframe : encodeFragment streamId id total index part =
      encodeQuicDatagramPrefix streamId DATAGRAM_CONTEXT_FRAGMENT ++
        (u32ToLeBytes id ++ UInt8.ofNat index :: UInt8.ofNat total :: part) := by
    simp [encodeFragment]
  obtain ⟨hquarter, hcontext⟩ :=
    decode_header hstream (show DATAGRAM_CONTEXT_FRAGMENT ≤ 63 by decide)
      (u32ToLeBytes id ++ UInt8.ofNat index :: UInt8.ofNat total :: part)
  have hid := u32FromLeBytes_toLeBytes id
  simp only [u32ToLeBytes, leBytes] at hid
  have hbody : decodeFragment (u32ToLeBytes id ++ UInt8.ofNat index :: UInt8.ofNat total :: part) =
      .ok (.fragment id (UInt8.ofNat index) (UInt8.ofNat total) part) := by
    simp only [u32ToLeBytes, leBytes, cons_append, nil_append, decodeFragment, hid]
  have hcontexts : DATAGRAM_CONTEXT_FRAGMENT ≠ DATAGRAM_CONTEXT_WHOLE := by decide
  simp only [decodeQuicDatagramParts, hframe, hquarter, hcontext, ne_eq, not_true_eq_false,
    if_false, hcontexts, if_true, drop_header, hbody]

end

theorem decodeQuicDatagramParts_isSome (bytes : Bytes) (streamId : Nat) :
    ∃ decoded, decodeQuicDatagramParts bytes streamId = some decoded := by
  unfold decodeQuicDatagramParts
  repeat' split
  all_goals first | exact ⟨_, rfl⟩ | skip
  next contextLength _ _ _ =>
    have hsize : 0 < PEER_MANAGER_HEADER_SIZE := by decide
    simp only [packetFromTunnelPayload]
    split
    · exact ⟨_, rfl⟩
    · rw [newFromBufWithPrefix, if_pos (by omega)]
      exact ⟨_, rfl⟩

/-!
## Reassembly in any order

The frames of a packet reach the store in any order, some of them several times, between
frames of other packets.  While nothing evicts, expires or refuses the assembly, its entry
holds exactly the parts that have arrived, and the last one that is missing yields the
packet.
-/

namespace DatagramFragments

variable {s : DatagramFragments} {push : FragmentPush}

/-! ## Calls that are not disturbed -/

def Unexpired (s : DatagramFragments) (nowMs : Nat) : Prop :=
  ∀ entry ∈ s.order.head?.bind (s.pending.lookup ·), nowMs < entry.expires

/-- There is room for the fragment, and the governor grants what the call asks for. -/
@[mk_iff] structure Admits (s : DatagramFragments) (push : FragmentPush) : Prop where
  room : s.pending.lookup push.id = none → s.pending.size ≠ DATAGRAM_FRAGMENT_MAX_PENDING
  charge : s.metadataBytes push + push.payload.length ≤ RETAINED_BYTES_LIMIT - s.retainedBytes
  metadata : push.reserveMetadata = true
  extend : push.extendPermit = true
  output : push.reserveOutput = true

/-- The call expires nothing, and unless the store has the part already it is admitted. -/
@[mk_iff] structure Undisturbed (s : DatagramFragments) (push : FragmentPush) : Prop where
  unexpired : s.Unexpired push.nowMs
  admits : s.refuses push = some false → s.Admits push

instance (s : DatagramFragments) (push : FragmentPush) : Decidable (s.Admits push) :=
  decidable_of_iff' _ (admits_iff s push)

instance (s : DatagramFragments) (push : FragmentPush) : Decidable (s.Undisturbed push) :=
  have : Decidable (s.Unexpired push.nowMs) := inferInstanceAs (Decidable (∀ _, _))
  decidable_of_iff' _ (undisturbed_iff s push)

theorem Ledger.expire_eq (h : s.Ledger) {nowMs : Nat} (hunexpired : s.Unexpired nowMs) :
    ∃ expiry, s.expire nowMs = some { s with expiry := expiry } := by
  have hloop : DatagramFragments.expireLoop nowMs (s.order.length + 1) s = some s := by
    cases hhead : s.order.head? with
    | none => simp [DatagramFragments.expireLoop, hhead]
    | some id =>
      obtain ⟨entry, hentry⟩ := h.lookup_of_mem (mem_of_head? hhead)
      have hlater := hunexpired entry (by simp [hhead, hentry])
      simp [DatagramFragments.expireLoop, hhead, hentry, hlater]
  obtain ⟨expiry, hschedule⟩ := s.scheduleExpiry_eq
  exact ⟨expiry, by simp [DatagramFragments.expire, hloop, hschedule]⟩

def partEntry (s : DatagramFragments) (push : FragmentPush) : FragmentInProgress :=
  (s.pending.lookup push.id).getD
    (newEntry push.count (push.count.toNat * SIZE_OF_PART) push.nowMs)

/-- What becomes of an entry that gets a part: it waits for more, or it is complete. -/
def Outcome (entry : FragmentInProgress) (push : FragmentPush) (packet : Option ZCPacket)
    (s' : DatagramFragments) : Prop :=
  if entry.filled + 1 ≠ entry.parts.length then
    packet = none ∧ s'.pending.lookup push.id = some (withPart entry push)
  else
    packet = assembledPacket (withPart entry push) push ∧ s'.pending.lookup push.id = none

variable {entry : FragmentInProgress}

theorem Ledger.addPart_outcome (h : s.Ledger) (hentry : s.pending.lookup push.id = some entry)
    (hindex : push.index.toNat < entry.parts.length) (hextend : push.extendPermit = true) :
    ∃ packet s', s.addPart push = some (packet, s') ∧ s'.Ledger ∧
      (∀ other, other ≠ push.id → s'.pending.lookup other = s.pending.lookup other) ∧
      Outcome entry push packet s' := by
  rw [h.addPart_eq hentry hindex]
  simp only [hextend, Bool.not_true, Bool.false_eq_true, if_false, Outcome]
  split
  · exact ⟨none, _, rfl, h.grown hentry rfl rfl, fun other hother => AList.lookup_insert_ne hother,
      rfl, AList.lookup_insert _⟩
  · exact ⟨_, _, rfl, h.without push.id, fun other hother => lookup_without_of_ne hother,
      rfl, AList.lookup_erase _ _⟩

theorem Ledger.admitFragment_outcome (h : s.Ledger) (hindex : push.index.toNat < push.count.toNat)
    (hrefuses : s.refuses push = some false) (hadmits : s.Admits push) :
    ∃ packet s', s.admitFragment push = some (packet, s') ∧ s'.Ledger ∧
      (∀ other, other ≠ push.id → s'.pending.lookup other = s.pending.lookup other) ∧
      Outcome (s.partEntry push) push packet s' := by
  unfold admitFragment partEntry
  cases hentry : s.pending.lookup push.id with
  | some entry =>
    have hlength : entry.parts.length = push.count.toNat := by
      simp only [refuses, hentry] at hrefuses
      split at hrefuses
      · contradiction
      · omega
    simpa using h.addPart_outcome hentry (by omega) hadmits.extend
  | none =>
    have hevict : s.evictOldest = some s := by
      simp [evictOldest, hadmits.room hentry]
    have hmetadata : s.metadataBytes push = push.count.toNat * SIZE_OF_PART := by
      simp [metadataBytes, hentry]
    have hinserted := h.insertEntry push (push.count.toNat * SIZE_OF_PART) hentry
    obtain ⟨packet, s', hadd, hledger, hframe, houtcome⟩ :=
      hinserted.addPart_outcome (AList.lookup_insert _) (by simpa [newEntry] using hindex)
        hadmits.extend
    refine ⟨packet, s', ?_, hledger, fun other hother => ?_, houtcome⟩
    · simpa [hevict, hadmits.metadata, hmetadata] using hadd
    · rw [hframe other hother]
      exact AList.lookup_insert_ne hother

theorem not_invalid (hindex : push.index.toNat < push.count.toNat) :
    ¬ (push.count = 0 ∨ push.index ≥ push.count) := by
  rintro (hzero | hbeyond)
  · simp [hzero] at hindex
  · have := UInt8.le_iff_toNat_le.mp hbeyond
    omega

section

variable (h : s.Ledger) (hindex : push.index.toNat < push.count.toNat)
  (hunexpired : s.Unexpired push.nowMs)
include h hindex hunexpired

theorem Ledger.pushFragment_refused (hrefuses : s.refuses push = some true) :
    ∃ expiry, s.pushFragment push = some (none, { s with expiry := expiry }) := by
  obtain ⟨expiry, hexpire⟩ := h.expire_eq hunexpired
  have hsame : refuses { s with expiry := expiry } push = some true := hrefuses
  refine ⟨expiry, ?_⟩
  simp [pushFragment, not_invalid hindex, hexpire, hsame]

theorem Ledger.pushFragment_outcome (hrefuses : s.refuses push = some false)
    (hadmits : s.Admits push) :
    ∃ packet s', s.pushFragment push = some (packet, s') ∧ s'.Ledger ∧
      (∀ other, other ≠ push.id → s'.pending.lookup other = s.pending.lookup other) ∧
      Outcome (s.partEntry push) push packet s' := by
  obtain ⟨expiry, hexpire⟩ := h.expire_eq hunexpired
  have hsame : refuses { s with expiry := expiry } push = some false := hrefuses
  have hadmits' : Admits { s with expiry := expiry } push := { hadmits with }
  obtain ⟨packet, s', hadmitted, hledger, hframe, houtcome⟩ :=
    (h.withExpiry expiry).admitFragment_outcome hindex hsame hadmits'
  refine ⟨packet, s', ?_, hledger, hframe, houtcome⟩
  have hcharge : metadataBytes { s with expiry := expiry } push + push.payload.length ≤
      RETAINED_BYTES_LIMIT - s.retainedBytes := hadmits.charge
  have hlimit : RETAINED_BYTES_LIMIT < 2 ^ 64 := by decide
  have hfits : ¬ 2 ^ 64 ≤ metadataBytes { s with expiry := expiry } push + push.payload.length := by
    omega
  simp only [pushFragment, if_neg (not_invalid hindex), hexpire, hsame, Option.bind_eq_bind,
    Option.bind_some, Bool.false_eq_true, if_false, ge_iff_le, if_neg hfits,
    if_neg (Nat.not_lt.mpr hcharge), gt_iff_lt]
  exact hadmitted

end

end DatagramFragments

/-! ## The parts that have arrived -/

def heldParts (parts : List Bytes) (got : List Nat) : List (Option Bytes) :=
  parts.mapIdx fun i part => if i ∈ got then some part else none

variable (parts : List Bytes)

@[simp] theorem length_heldParts (got : List Nat) :
    (heldParts parts got).length = parts.length := by
  simp [heldParts]

variable {index : Nat}

theorem getElem?_heldParts {parts : List Bytes} {part : Bytes}
    (hpart : parts[index]? = some part) (got : List Nat) :
    (heldParts parts got)[index]? = some (if index ∈ got then some part else none) := by
  simp [heldParts, hpart]

theorem heldParts_nil : heldParts parts [] = replicate parts.length none := by
  refine ext_getElem? fun i => ?_
  by_cases hi : i < parts.length
  · simp [heldParts, hi]
  · simp [heldParts, hi]

theorem heldParts_cons {parts : List Bytes} {part : Bytes}
    (hpart : parts[index]? = some part) (got : List Nat) :
    heldParts parts (index :: got) = (heldParts parts got).set index (some part) := by
  obtain ⟨hlt, hget⟩ := List.getElem?_eq_some_iff.mp hpart
  refine List.ext_getElem (by simp) fun i hi hi' => ?_
  simp only [heldParts, getElem_mapIdx, getElem_set, mem_cons]
  by_cases hindex : index = i
  · subst hindex
    simp [hget]
  · simp [hindex, Ne.symm hindex]

theorem heldParts_complete {parts : List Bytes} {got : List Nat}
    (hall : ∀ i, i < parts.length → i ∈ got) : heldParts parts got = parts.map some := by
  refine ext_getElem (by simp) fun i hi hi' => ?_
  have hlt : i < parts.length := by simpa using hi
  simp [heldParts, hall i hlt]

theorem joinParts_map_some : joinParts (parts.map some) = some parts.flatten := by
  induction parts with
  | nil => rfl
  | cons part parts ih =>
    simp only [joinParts, map_cons, foldr_cons] at ih ⊢
    rw [ih]
    rfl

def heldBytes (parts : List (Option Bytes)) : Nat :=
  (parts.map fun part => (part.getD []).length).sum

theorem heldBytes_set {parts : List (Option Bytes)} (payload : Bytes)
    (hnone : parts[index]? = some none) :
    heldBytes (parts.set index (some payload)) = heldBytes parts + payload.length := by
  induction parts generalizing index with
  | nil => simp at hnone
  | cons part parts ih =>
    cases index with
    | zero =>
      obtain rfl : part = none := by simpa using hnone
      simp [heldBytes, Nat.add_comm]
    | succ index =>
      have hrest := ih (show parts[index]? = some none by simpa using hnone)
      simp only [heldBytes, set_cons_succ, map_cons, sum_cons] at hrest ⊢
      omega

structure FragmentInProgress.Holds (entry : FragmentInProgress) (parts : List Bytes)
    (got : List Nat) : Prop where
  parts_eq : entry.parts = heldParts parts got
  filled : entry.filled = entry.parts.countP (·.isSome)
  payloadBytes : entry.payloadBytes = heldBytes entry.parts

namespace FragmentInProgress.Holds

open DatagramFragments

variable {entry : FragmentInProgress} {parts : List Bytes} {got : List Nat} {push : FragmentPush}
  {part : Bytes}

theorem newEntry {count : UInt8} (hcount : count.toNat = parts.length) (metadataBytes nowMs : Nat) :
    (newEntry count metadataBytes nowMs).Holds parts [] where
  parts_eq := by rw [heldParts_nil, DatagramFragments.newEntry, hcount]
  filled := by simp [DatagramFragments.newEntry, countP_replicate]
  payloadBytes := by simp [DatagramFragments.newEntry, heldBytes]

variable (h : entry.Holds parts got)
include h

theorem getElem?_missing (hpart : parts[push.index.toNat]? = some part)
    (hnew : push.index.toNat ∉ got) : entry.parts[push.index.toNat]? = some none := by
  rw [h.parts_eq, getElem?_heldParts hpart, if_neg hnew]

theorem withPart (hpart : parts[push.index.toNat]? = some push.payload)
    (hnew : push.index.toNat ∉ got) :
    (withPart entry push).Holds parts (push.index.toNat :: got) where
  parts_eq := by
    rw [heldParts_cons hpart, ← h.parts_eq]
    rfl
  filled := by
    have hcount := countP_set_none push.payload (h.getElem?_missing hpart hnew)
    rw [← h.filled] at hcount
    exact hcount.symm
  payloadBytes := by
    have hbytes := heldBytes_set push.payload (h.getElem?_missing hpart hnew)
    rw [← h.payloadBytes] at hbytes
    exact hbytes.symm

theorem filled_eq_iff : entry.filled = entry.parts.length ↔ ∀ i, i < parts.length → i ∈ got := by
  rw [h.filled, countP_eq_length, h.parts_eq]
  constructor
  · intro hall i hi
    have hget := getElem?_heldParts (getElem?_eq_getElem hi) got
    have hsome := hall _ (mem_of_getElem? hget)
    by_contra hmissing
    simp [hmissing] at hsome
  · intro hall part hmem
    rw [heldParts_complete hall] at hmem
    obtain ⟨bytes, -, rfl⟩ := mem_map.mp hmem
    rfl

theorem assembledPacket (hall : ∀ i, i < parts.length → i ∈ got)
    (houtput : push.reserveOutput = true) :
    assembledPacket entry push = if parts.flatten.length < PEER_MANAGER_HEADER_SIZE then
        none
      else
        some (newFromBuf parts.flatten .dummyTunnel) := by
  have hparts : entry.parts = parts.map some := h.parts_eq.trans (heldParts_complete hall)
  have hbytes : entry.payloadBytes = parts.flatten.length := by
    rw [h.payloadBytes, hparts]
    simp [heldBytes, length_flatten, Function.comp_def]
  simp [DatagramFragments.assembledPacket, hbytes, hparts, joinParts_map_some, houtput]

end FragmentInProgress.Holds

end LowerTier.Tunnel.Quic
