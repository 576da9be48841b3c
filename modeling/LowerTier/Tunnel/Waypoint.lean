import LowerTier.Tunnel.PacketDef

/-!
# Waypoint source routing (`tunnel/packet_def.rs`)

`encode_waypoints` aims a sealed packet at its first waypoint and appends a
trailer that keeps the later ones; `advance_waypoint` consumes the trailer from
its end.  The trailer is
`[later waypoints reversed, u32 LE][final u32 LE][original type][count][version]`.
-/

namespace LowerTier.Tunnel

open UInt8 PacketType List ProofSupport.ByteString

def WAYPOINT_LIMIT : Nat := 4

def WAYPOINT_TAIL : Nat := 7

def WAYPOINT_VERSION : UInt8 := 1

namespace ZCPacket

def waypointTrailer (rest : List PeerId) (destination : PeerId) (originalType : UInt8) : Bytes :=
  rest.reverse.flatMap u32ToLeBytes ++ u32ToLeBytes destination ++
    [originalType, ofNat rest.length, WAYPOINT_VERSION]

variable (p : ZCPacket)

def encodeWaypoints (waypoints : List PeerId) : Except String Unit × ZCPacket :=
  match waypoints with
  | [] => (.error "no waypoints", p)
  | first :: rest =>
    if waypoints.length > WAYPOINT_LIMIT then
      (.error "too many waypoints", p)
    else
      match p.peerManagerHeader with
      | none => (.error "packet without header", p)
      | some header =>
        let destination := header.toPeerId
        let originalType := header.packetType
        let appended := p.appendPayloadPreservingFlowHash
          (waypointTrailer rest destination originalType)
        match appended.mutPeerManagerHeader fun header =>
            { header with toPeerId := first, packetType := waypoint.code } with
        | (true, q) => (.ok (), q)
        | (false, q) => (.error "packet without header", q)

structure WaypointTail where
  destination : PeerId
  originalType : UInt8
  remaining : Nat
deriving DecidableEq, Repr

/-- The checked read of the tail; `none` where an index or a slice would panic. -/
def readWaypointTail (payload : Bytes) : Option (Except String WaypointTail) := do
  let length := payload.length
  if length < WAYPOINT_TAIL then
    return .error "invalid waypoint trailer"
  let version ← payload[length - 1]?
  if version != WAYPOINT_VERSION then
    return .error "invalid waypoint trailer"
  let remaining ← payload[length - 2]?
  let originalType ← payload[length - 3]?
  let destination ← slice payload (length - 7) (length - 3)
  if remaining.toNat ≥ WAYPOINT_LIMIT ∨ length < WAYPOINT_TAIL + 4 * remaining.toNat ∨
      originalType = waypoint.code then
    return .error "invalid waypoint trailer"
  return .ok ⟨u32FromLeBytes destination, originalType, remaining.toNat⟩

/-- The next waypoint, and the payload with the tail slid back over its entry and
the count byte rewritten; the last four bytes are stale until they are removed. -/
def slideWaypointTail (payload : Bytes) (remaining : Nat) : Option (PeerId × Bytes) := do
  let length := payload.length
  let next ← slice payload (length - 11) (length - 7)
  let tail := length - WAYPOINT_TAIL
  let moved ← copyWithin payload tail length (tail - 4)
  let counted ← setByte moved (length - 6) (ofNat (remaining - 1))
  return (u32FromLeBytes next, counted)

/-- The header update at the end of `advance_waypoint`. -/
def retarget (next : PeerId) (tail : WaypointTail) :
    Except String PeerId × ZCPacket :=
  match p.mutPeerManagerHeader fun header =>
      { header with
        toPeerId := next
        packetType := if tail.remaining = 0 then tail.originalType else header.packetType } with
  | (true, q) => (.ok next, q)
  | (false, q) => (.error "packet without header", q)

/-- `none` where an index or a slice would panic. -/
def advanceWaypoint : Option (Except String PeerId × ZCPacket) := do
  let payload ← p.payload
  match ← readWaypointTail payload with
  | .error message => return (.error message, p)
  | .ok tail =>
    if tail.remaining > 0 then
      let (next, slid) ← slideWaypointTail payload tail.remaining
      match (p.setPayloadPreservingFlowHash slid).removePayloadSuffixPreservingFlowHash 4 with
      | (.error message, q) => return (.error message, q)
      | (.ok (), q) => return q.retarget next tail
    else
      match p.removePayloadSuffixPreservingFlowHash WAYPOINT_TAIL with
      | (.error message, q) => return (.error message, q)
      | (.ok (), q) => return q.retarget tail.destination tail

/-! ## Reading and sliding the tail -/

section Tail

variable {front next destination : Bytes} {originalType count version : UInt8}

theorem readWaypointTail_append (hdestination : destination.length = 4) :
    readWaypointTail (front ++ destination ++ [originalType, count, version]) =
      some (if version = WAYPOINT_VERSION ∧ count.toNat < WAYPOINT_LIMIT ∧
          4 * count.toNat ≤ front.length ∧ originalType ≠ waypoint.code then
        .ok ⟨u32FromLeBytes destination, originalType, count.toNat⟩
      else
        .error "invalid waypoint trailer") := by
  have hlength : (front ++ (destination ++ [originalType, count, version])).length =
      front.length + 7 := by simp [hdestination]
  have hversion := getElem?_append_middle (front ++ destination ++ [originalType, count]) version []
    (show front.length + 6 = _ by simp [hdestination])
  have hcount := getElem?_append_middle (front ++ destination ++ [originalType]) count [version]
    (show front.length + 5 = _ by simp [hdestination])
  have htype := getElem?_append_middle (front ++ destination) originalType [count, version]
    (show front.length + 4 = _ by simp [hdestination])
  have hslice := slice_append_middle front destination [originalType, count, version] rfl
    (show front.length + 4 = _ by rw [hdestination])
  simp only [append_assoc, cons_append, nil_append] at hversion hcount htype hslice ⊢
  rw [readWaypointTail, hlength]
  simp only [Nat.reduceSubDiff, Nat.add_one_sub_one, hversion, hcount, htype]
  rw [if_neg (show ¬front.length + 7 < WAYPOINT_TAIL by simp [WAYPOINT_TAIL])]
  simp only [hslice, Option.bind_eq_bind, Option.bind_some]
  have hguard : (count.toNat ≥ WAYPOINT_LIMIT ∨
      front.length + 7 < WAYPOINT_TAIL + 4 * count.toNat ∨
      originalType = waypoint.code) ↔
      ¬(count.toNat < WAYPOINT_LIMIT ∧ 4 * count.toNat ≤ front.length ∧
        originalType ≠ waypoint.code) := by
    have htail : WAYPOINT_TAIL = 7 := rfl
    by_cases hcode : originalType = waypoint.code
    · simp [hcode]
    · simp only [hcode, or_false, ne_eq, not_false_eq_true, and_true]
      omega
  by_cases hversion : version = WAYPOINT_VERSION
  · rw [if_neg (by simp [hversion])]
    simp only [hguard, hversion, true_and]
    split_ifs <;> rfl
  · rw [if_pos (by simp [hversion]), if_neg (fun hvalid => hversion hvalid.1)]
    rfl

theorem slideWaypointTail_append (hnext : next.length = 4) (hdestination : destination.length = 4)
    (remaining : Nat) :
    ∃ stale : Bytes, stale.length = 4 ∧
      slideWaypointTail (front ++ next ++ destination ++ [originalType, count, version]) remaining =
        some (u32FromLeBytes next,
          front ++ destination ++ [originalType, ofNat (remaining - 1), version] ++ stale) := by
  set payload := front ++ next ++ destination ++ [originalType, count, version] with hpayload
  have hlength : payload.length = front.length + 11 := by simp [hpayload, hnext, hdestination]
  have hslice : slice payload front.length (front.length + 4) = some next := by
    rw [hpayload, append_assoc (front ++ next)]
    exact slice_append_middle front next _ rfl (by rw [hnext])
  have hmoved : copyWithin payload (front.length + 4) (front.length + 11) front.length =
      some (front ++ (destination ++ [originalType, count, version]) ++
        payload.drop (front.length + 7)) := by
    rw [hpayload, append_assoc (front ++ next)]
    convert copyWithin_suffix front next (destination ++ [originalType, count, version])
      (show front.length + 4 = _ by rw [hnext])
      (show front.length + 11 = _ by simp [hdestination]) using 4
    simp [hdestination]
  have hcounted : setByte (front ++ (destination ++ [originalType, count, version]) ++
        payload.drop (front.length + 7)) (front.length + 5) (ofNat (remaining - 1)) =
      some (front ++ destination ++ [originalType, ofNat (remaining - 1), version] ++
        payload.drop (front.length + 7)) := by
    simpa using setByte_append_middle (front ++ destination ++ [originalType]) count
      (ofNat (remaining - 1)) (version :: payload.drop (front.length + 7))
      (show front.length + 5 = _ by simp [hdestination])
  refine ⟨payload.drop (front.length + 7), by simp [hlength], ?_⟩
  rw [slideWaypointTail, hlength]
  simp only [WAYPOINT_TAIL, Nat.reduceSubDiff, Nat.add_sub_cancel, hslice, hmoved, hcounted,
    Option.bind_eq_bind, Option.bind_some]
  rfl

theorem exists_append_length {bytes : Bytes} {length : Nat} (hlength : length ≤ bytes.length) :
    ∃ front rest : Bytes, bytes = front ++ rest ∧ rest.length = length :=
  ⟨bytes.take (bytes.length - length), bytes.drop (bytes.length - length),
    (take_append_drop _ _).symm, by rw [length_drop]; omega⟩

theorem exists_waypointTail {payload : Bytes} (hlength : WAYPOINT_TAIL ≤ payload.length) :
    ∃ (front destination : Bytes) (originalType count version : UInt8),
      destination.length = 4 ∧
        payload = front ++ destination ++ [originalType, count, version] := by
  obtain ⟨front, tail, rfl, htail⟩ := exists_append_length hlength
  match tail, htail with
  | [d0, d1, d2, d3, originalType, count, version], _ =>
    exact ⟨front, [d0, d1, d2, d3], originalType, count, version, rfl, by simp⟩

end Tail

/-! ## One call on a packet -/

section Advance

variable {p q : ZCPacket} {head payload slid front next destination : Bytes}
  {header : PeerManagerHeader} {originalType count : UInt8} {target : PeerId} {t : WaypointTail}
  {message : String}

theorem retarget_eq (hparts : p.HasParts head header payload) :
    p.retarget target t = (.ok target, { p with
        inner := head ++ { header with
          toPeerId := target
          packetType :=
            if t.remaining = 0 then t.originalType else header.packetType }.asBytes ++ payload
        parsedMetadata := none }) := by
  rw [retarget, hparts.mutPeerManagerHeader_eq]

section

variable (hpayload : p.payload = some payload)
include hpayload

theorem advanceWaypoint_of_error (hread : readWaypointTail payload = some (.error message)) :
    p.advanceWaypoint = some (.error message, p) := by
  simp [advanceWaypoint, hpayload, hread]

theorem advanceWaypoint_of_zero
    (hread : readWaypointTail payload = some (.ok t)) (hzero : t.remaining = 0)
    (hremove : p.removePayloadSuffixPreservingFlowHash WAYPOINT_TAIL = (.ok (), q)) :
    p.advanceWaypoint = some (q.retarget t.destination t) := by
  simp [advanceWaypoint, hpayload, hread, hzero, hremove]

theorem advanceWaypoint_of_pos (hread : readWaypointTail payload = some (.ok t))
    (hpositive : 0 < t.remaining)
    (hslide : slideWaypointTail payload t.remaining = some (target, slid))
    (hremove : (p.setPayloadPreservingFlowHash slid).removePayloadSuffixPreservingFlowHash 4 =
      (.ok (), q)) : p.advanceWaypoint = some (q.retarget target t) := by
  simp [advanceWaypoint, hpayload, hread, hpositive, hslide, hremove]

end

/-- The last call removes the tail and restores the type and the destination. -/
theorem advanceWaypoint_last (hparts : p.HasParts head header
      (front ++ (destination ++ [originalType, 0, WAYPOINT_VERSION])))
    (hdestination : destination.length = 4) (htype : originalType ≠ waypoint.code) :
    p.advanceWaypoint = some (.ok (u32FromLeBytes destination), { p with
        inner := head ++ { header with
          toPeerId := u32FromLeBytes destination, packetType := originalType }.asBytes ++ front
        parsedMetadata := none }) := by
  have hread : readWaypointTail (front ++ (destination ++ [originalType, 0, WAYPOINT_VERSION])) =
      some (.ok ⟨u32FromLeBytes destination, originalType, 0⟩) := by
    rw [← append_assoc, readWaypointTail_append hdestination,
      if_pos ⟨rfl, by decide, by simp, htype⟩]
    rfl
  have hremove := hparts.removePayloadSuffix_eq
  have hsuffix : (destination ++ [originalType, 0, WAYPOINT_VERSION]).length = WAYPOINT_TAIL := by
    simp [hdestination, WAYPOINT_TAIL]
  rw [hsuffix] at hremove
  rw [advanceWaypoint_of_zero hparts.payload_eq hread rfl hremove,
    retarget_eq (hparts.replace header front none)]
  rfl

theorem advanceWaypoint_next (hparts : p.HasParts head header
      (front ++ next ++ destination ++ [originalType, count, WAYPOINT_VERSION]))
    (hnext : next.length = 4) (hdestination : destination.length = 4)
    (htype : originalType ≠ waypoint.code) (hpositive : 0 < count.toNat)
    (hlimit : count.toNat < WAYPOINT_LIMIT) (hfront : 4 * count.toNat ≤ front.length + 4) :
    p.advanceWaypoint = some (.ok (u32FromLeBytes next), { p with
        inner := head ++ { header with toPeerId := u32FromLeBytes next }.asBytes ++
          (front ++ destination ++ [originalType, ofNat (count.toNat - 1), WAYPOINT_VERSION])
        parsedMetadata := none }) := by
  have hread : readWaypointTail
      (front ++ next ++ destination ++ [originalType, count, WAYPOINT_VERSION]) =
      some (.ok ⟨u32FromLeBytes destination, originalType, count.toNat⟩) := by
    rw [readWaypointTail_append hdestination,
      if_pos ⟨rfl, hlimit, by rw [length_append, hnext]; exact hfront, htype⟩]
  obtain ⟨stale, hstale, hslide⟩ := @slideWaypointTail_append front next destination originalType
    count WAYPOINT_VERSION hnext hdestination count.toNat
  have hremove : (p.setPayloadPreservingFlowHash (front ++ destination ++
      [originalType, ofNat (count.toNat - 1), WAYPOINT_VERSION] ++ stale)
      ).removePayloadSuffixPreservingFlowHash 4 = (.ok (), { p with
        inner := head ++ header.asBytes ++ (front ++ destination ++
          [originalType, ofNat (count.toNat - 1), WAYPOINT_VERSION])
        parsedMetadata := none }) := by
    rw [setPayloadPreservingFlowHash, hparts.take_payload, ← hstale]
    exact (hparts.replace header _ none).removePayloadSuffix_eq
  rw [advanceWaypoint_of_pos hparts.payload_eq hread hpositive hslide hremove,
    retarget_eq (hparts.replace header _ none)]
  simp only [if_neg hpositive.ne']

end Advance

/-! ## A packet on its way -/

variable (header : PeerManagerHeader)

/-- `p` on its way through waypoints: aimed at `target`, with `rest` still to come. -/
def enRoute (target : PeerId) (rest : List PeerId) :
    ZCPacket :=
  { p with
    inner := p.inner.take p.peerManagerHeaderOffset ++
      { header with toPeerId := target, packetType := waypoint.code }.asBytes ++
      (p.inner.drop p.payloadOffset ++ waypointTrailer rest header.toPeerId header.packetType)
    parsedMetadata := none }

theorem length_flatMap_u32ToLeBytes (peers : List PeerId) :
    (peers.flatMap u32ToLeBytes).length = 4 * peers.length := by
  simp [length_flatMap, length_u32ToLeBytes, Nat.mul_comm]

section EnRoute

variable {p : ZCPacket} {header : PeerManagerHeader} (hheader : p.peerManagerHeader = some header)
include hheader

theorem enRoute_hasParts (target : PeerId) (rest : List PeerId) :
    (p.enRoute header target rest).HasParts (p.inner.take p.peerManagerHeaderOffset)
      { header with toPeerId := target, packetType := waypoint.code }
      (p.inner.drop p.payloadOffset ++ waypointTrailer rest header.toPeerId header.packetType) :=
  (HasParts.of_header hheader).replace _ _ none

theorem encodeWaypoints_eq (first : PeerId) (rest : List PeerId)
    (hlimit : (first :: rest).length ≤ WAYPOINT_LIMIT) :
    p.encodeWaypoints (first :: rest) = (.ok (), p.enRoute header first rest) := by
  have hparts := HasParts.of_header hheader
  have happended : (p.appendPayloadPreservingFlowHash
      (waypointTrailer rest header.toPeerId header.packetType)).HasParts
      (p.inner.take p.peerManagerHeaderOffset) header
      (p.inner.drop p.payloadOffset ++ waypointTrailer rest header.toPeerId header.packetType) := by
    refine ⟨hparts.length_head, ?_⟩
    rw [← append_assoc, ← hparts.inner_eq]
    rfl
  rw [encodeWaypoints, if_neg (by omega), hheader]
  simp only [happended.mutPeerManagerHeader_eq]
  rfl

variable (htype : header.packetType ≠ waypoint.code)
include htype

theorem advanceWaypoint_enRoute_nil (target : PeerId) :
    (p.enRoute header target []).advanceWaypoint =
      some (.ok header.toPeerId, { p with parsedMetadata := none }) := by
  have hparts := enRoute_hasParts hheader target []
  rw [waypointTrailer, reverse_nil, flatMap_nil, nil_append] at hparts
  rw [advanceWaypoint_last hparts (length_u32ToLeBytes _) htype, u32FromLeBytes_toLeBytes]
  simp only [enRoute, ← (HasParts.of_header hheader).inner_eq]

theorem advanceWaypoint_enRoute_cons (target next : PeerId) (rest : List PeerId)
    (hlimit : (next :: rest).length < WAYPOINT_LIMIT) :
    (p.enRoute header target (next :: rest)).advanceWaypoint =
      some (.ok next, p.enRoute header next rest) := by
  have hrest : rest.length + 1 < 4 := hlimit
  have hcount : (UInt8.ofNat (rest.length + 1)).toNat = rest.length + 1 := by
    rw [toNat_ofNat']
    omega
  have hparts := enRoute_hasParts hheader target (next :: rest)
  simp only [waypointTrailer, reverse_cons, flatMap_append, flatMap_cons, flatMap_nil, append_nil,
    length_cons, ← append_assoc] at hparts
  have hadvance := advanceWaypoint_next hparts (length_u32ToLeBytes _) (length_u32ToLeBytes _) htype
    (by omega) (by rw [hcount]; exact hlimit)
    (by rw [hcount, length_append, length_flatMap_u32ToLeBytes]; simp; omega)
  rw [hadvance, u32FromLeBytes_toLeBytes, hcount]
  simp [enRoute, waypointTrailer]

end EnRoute

/-- `count` successive calls of `advance_waypoint`: what each one returned, the
target that the header then names, and the packet after the last one.  `none`
where a call panics or fails. -/
def advanceWaypoints : Nat → ZCPacket → Option (List (PeerId × Option PeerId) × ZCPacket)
  | 0, p => some ([], p)
  | count + 1, p => do
      match ← p.advanceWaypoint with
      | (.error _, _) => none
      | (.ok next, q) =>
        let (hops, last) ← advanceWaypoints count q
        return ((next, q.peerManagerHeader.map (·.toPeerId)) :: hops, last)

theorem advanceWaypoints_enRoute {p : ZCPacket} {header : PeerManagerHeader}
    (hheader : p.peerManagerHeader = some header)
    (htype : header.packetType ≠ waypoint.code) (target : PeerId)
    (rest : List PeerId) (hlimit : rest.length < WAYPOINT_LIMIT) :
    advanceWaypoints (rest.length + 1) (p.enRoute header target rest) =
      some ((rest ++ [header.toPeerId]).map fun peer => (peer, some peer),
        { p with parsedMetadata := none }) := by
  -- one call per remaining waypoint, the last one at the empty trailer
  induction rest generalizing target with
  | nil =>
    have hrestored : { p with parsedMetadata := none }.peerManagerHeader = some header := hheader
    simp [advanceWaypoints, advanceWaypoint_enRoute_nil hheader htype, hrestored]
  | cons next rest ih =>
    have htarget := (enRoute_hasParts hheader next rest).peerManagerHeader_eq
    have hrest : rest.length < WAYPOINT_LIMIT := by
      rw [length_cons] at hlimit
      omega
    rw [length_cons, advanceWaypoints, advanceWaypoint_enRoute_cons hheader htype _ _ _ hlimit]
    simp [ih next hrest, htarget]

/-! ## What a call can touch -/

def withPayload (bytes : Bytes) : ZCPacket :=
  { p with inner := p.inner.take p.peerManagerHeaderOffset ++ header.asBytes ++ bytes }

section Frame

variable {p : ZCPacket} {header : PeerManagerHeader}

theorem withPayload_hasParts (hheader : p.peerManagerHeader = some header)
    (header' : PeerManagerHeader) (bytes : Bytes) :
    (p.withPayload header' bytes).HasParts (p.inner.take p.peerManagerHeaderOffset) header' bytes :=
  (HasParts.of_header hheader).replace header' bytes p.parsedMetadata

/-- The call fails on `trailer` behind any body of that length, and changes nothing. -/
def RefusesTrailer (p : ZCPacket) (header : PeerManagerHeader) (body trailer : Bytes) : Prop :=
  ∃ message, ∀ other : Bytes, other.length = body.length →
    (p.withPayload header (other ++ trailer)).advanceWaypoint =
      some (.error message, p.withPayload header (other ++ trailer))

/-- The call replaces `trailer` by a shorter one and retargets the header, behind
any body. -/
def ConsumesTrailer (p : ZCPacket) (header : PeerManagerHeader) (trailer : Bytes) : Prop :=
  ∃ (next : PeerId) (packetType : UInt8) (trailer' : Bytes), trailer'.length < trailer.length ∧
    ∀ other : Bytes, (p.withPayload header (other ++ trailer)).advanceWaypoint =
      some (.ok next, { p.withPayload
        { header with toPeerId := next, packetType := packetType } (other ++ trailer') with
        parsedMetadata := none })

variable (hheader : p.peerManagerHeader = some header)
include hheader

theorem consumesTrailer_of_pos {entries next destination : Bytes} {originalType count : UInt8}
    (hnext : next.length = 4) (hdestination : destination.length = 4)
    (htype : originalType ≠ waypoint.code) (hlimit : count.toNat < WAYPOINT_LIMIT)
    (hpositive : 0 < count.toNat) (hentries : entries.length + 4 = 4 * count.toNat) :
    p.ConsumesTrailer header
      (entries ++ next ++ destination ++ [originalType, count, WAYPOINT_VERSION]) := by
  refine ⟨u32FromLeBytes next, header.packetType,
    entries ++ destination ++ [originalType, ofNat (count.toNat - 1), WAYPOINT_VERSION],
    by simp [hnext], fun other => ?_⟩
  have hparts := withPayload_hasParts hheader header
    (other ++ entries ++ next ++ destination ++ [originalType, count, WAYPOINT_VERSION])
  have hfront : 4 * count.toNat ≤ (other ++ entries).length + 4 := by
    rw [length_append]
    omega
  have hadvance := advanceWaypoint_next hparts hnext hdestination htype hpositive hlimit hfront
  simpa [append_assoc, withPayload] using hadvance

/-- Every call on a packet with a header either refuses or consumes a trailer. -/
theorem advanceWaypoint_frame :
    ∃ body trailer : Bytes, p.withPayload header (body ++ trailer) = p ∧
      trailer.length ≤ WAYPOINT_TAIL + 4 * (WAYPOINT_LIMIT - 1) ∧
      (p.RefusesTrailer header body trailer ∨ p.ConsumesTrailer header trailer) := by
  have hself : p.withPayload header (p.inner.drop p.payloadOffset) = p := by
    rw [withPayload, ← (HasParts.of_header hheader).inner_eq]
  set payload := p.inner.drop p.payloadOffset with hpayload
  by_cases hlength : WAYPOINT_TAIL ≤ payload.length
  · obtain ⟨front, destination, originalType, count, version, hdestination, htail⟩ :=
      exists_waypointTail hlength
    rw [htail] at hself
    by_cases hvalid : version = WAYPOINT_VERSION ∧ count.toNat < WAYPOINT_LIMIT ∧
        4 * count.toNat ≤ front.length ∧ originalType ≠ waypoint.code
    · obtain ⟨rfl, hlimit, hfront, htype⟩ := hvalid
      by_cases hzero : count = 0
      · subst hzero
        refine ⟨front, destination ++ [originalType, 0, WAYPOINT_VERSION], by simpa using hself,
          by simp [hdestination, WAYPOINT_TAIL], .inr ?_⟩
        refine ⟨u32FromLeBytes destination, originalType, [], by simp, fun other => ?_⟩
        rw [advanceWaypoint_last (withPayload_hasParts hheader _ _) hdestination htype, append_nil]
        rfl
      · have hpositive : 0 < count.toNat := Nat.pos_of_ne_zero fun h => hzero (UInt8.toNat_inj.mp h)
        -- the trailer starts at the first of the remaining entries
        obtain ⟨body, rest, rfl, hrest⟩ := exists_append_length hfront
        obtain ⟨entries, next, rfl, hnext⟩ := exists_append_length (show 4 ≤ rest.length by omega)
        rw [length_append, hnext] at hrest
        have hbound : WAYPOINT_LIMIT = 4 := rfl
        refine ⟨body, entries ++ next ++ destination ++ [originalType, count, WAYPOINT_VERSION],
          by simpa using hself, ?_, .inr ?_⟩
        · simp [hnext, hdestination, WAYPOINT_TAIL, WAYPOINT_LIMIT]
          omega
        · exact consumesTrailer_of_pos hheader hnext hdestination htype hlimit hpositive hrest
    · refine ⟨front, destination ++ [originalType, count, version], by simpa using hself,
        by simp [hdestination, WAYPOINT_TAIL],
        .inl ⟨"invalid waypoint trailer", fun other hother => ?_⟩⟩
      refine advanceWaypoint_of_error (withPayload_hasParts hheader _ _).payload_eq ?_
      rw [← append_assoc, readWaypointTail_append hdestination, hother, if_neg hvalid]
  · rw [Nat.not_le] at hlength
    refine ⟨[], payload, by simpa using hself, by simp only [WAYPOINT_TAIL] at *; omega,
      .inl ⟨"invalid waypoint trailer", fun other hother => ?_⟩⟩
    obtain rfl := length_eq_zero_iff.mp hother
    exact advanceWaypoint_of_error (withPayload_hasParts hheader _ _).payload_eq
      (by rw [readWaypointTail, nil_append, if_pos hlength]; rfl)

end Frame

theorem waypoints_restore_sealed_packet (hheader : p.peerManagerHeader = some header) :
    (header.packetType ≠ waypoint.code →
      ∀ (first : PeerId) (rest : List PeerId), (first :: rest).length ≤ WAYPOINT_LIMIT →
        ∃ q, p.encodeWaypoints (first :: rest) = (.ok (), q) ∧
          q.peerManagerHeader = some { header with
            toPeerId := first, packetType := waypoint.code } ∧
          advanceWaypoints (first :: rest).length q =
            some ((rest ++ [header.toPeerId]).map fun peer => (peer, some peer),
              { p with parsedMetadata := none })) ∧
    ∃ body trailer : Bytes, p.withPayload header (body ++ trailer) = p ∧
      trailer.length ≤ WAYPOINT_TAIL + 4 * (WAYPOINT_LIMIT - 1) ∧
      (p.RefusesTrailer header body trailer ∨ p.ConsumesTrailer header trailer) := by
  refine ⟨fun htype first rest hlimit => ?_, advanceWaypoint_frame hheader⟩
  refine ⟨p.enRoute header first rest, encodeWaypoints_eq hheader first rest hlimit,
    (enRoute_hasParts hheader first rest).peerManagerHeader_eq, ?_⟩
  exact advanceWaypoints_enRoute hheader htype first rest hlimit

/-- A data packet from peer 1 to peer 9 with a two-byte payload, sent through
peers 5, 6 and 7. -/
theorem waypoints_restore_sample :
    ∃ q, (newFromBuf [1, 0, 0, 0, 9, 0, 0, 0, 1, 0, 1, 0, 2, 0, 0, 0, 0xaa, 0xbb]
        .dummyTunnel).encodeWaypoints [5, 6, 7] = (.ok (), q) ∧
      q.peerManagerHeader = some ⟨1, 5, 44, 0, 1, 0, 2⟩ ∧
      advanceWaypoints 3 q =
        some ([(6, some 6), (7, some 7), (9, some 9)],
          newFromBuf [1, 0, 0, 0, 9, 0, 0, 0, 1, 0, 1, 0, 2, 0, 0, 0, 0xaa, 0xbb] .dummyTunnel) :=
  (waypoints_restore_sealed_packet
    (newFromBuf [1, 0, 0, 0, 9, 0, 0, 0, 1, 0, 1, 0, 2, 0, 0, 0, 0xaa, 0xbb] .dummyTunnel)
    ⟨1, 9, 1, 0, 1, 0, 2⟩ (by decide)).1 (by decide) 5 [6, 7] (by decide)

end ZCPacket

end LowerTier.Tunnel
