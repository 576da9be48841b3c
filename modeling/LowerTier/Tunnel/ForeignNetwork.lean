import LowerTier.Tunnel.PacketDef

/-!
# Packets of foreign networks

A relay carries a packet of another network inside a packet of its own: a header with the
destination and the name of the network, then the packet from its peer-manager header on
(`tunnel/packet_def.rs`).  Results have an outer `none` where a slice is out of range.
-/

namespace LowerTier.Tunnel

open PacketType Option List ProofSupport.ByteString

namespace PeerManagerHeader

def NO_PROXY : UInt8 := 0b00001000

def isLatencyFirst (h : PeerManagerHeader) : Bool := h.flags &&& LATENCY_FIRST == LATENCY_FIRST

def isSpeedFirst (h : PeerManagerHeader) : Bool := h.flags &&& SPEED_FIRST == SPEED_FIRST

def isNoProxy (h : PeerManagerHeader) : Bool := h.flags &&& NO_PROXY == NO_PROXY

def setFlag (flag : UInt8) (h : PeerManagerHeader) (value : Bool) : PeerManagerHeader :=
  { h with flags := if value then h.flags ||| flag else h.flags &&& ~~~flag }

def setLatencyFirst : PeerManagerHeader → Bool → PeerManagerHeader := setFlag LATENCY_FIRST

def setSpeedFirst : PeerManagerHeader → Bool → PeerManagerHeader := setFlag SPEED_FIRST

def setNoProxy : PeerManagerHeader → Bool → PeerManagerHeader := setFlag NO_PROXY

def initialized (fromPeerId toPeerId : UInt32) (packetType : UInt8) (len : UInt32) :
    PeerManagerHeader where
  fromPeerId := fromPeerId
  toPeerId := toPeerId
  packetType := packetType
  flags := 0
  forwardCounter := 1
  reserved := 0
  len := len

/-- Foreign wrappers use `NO_PROXY` as the mark of control packets. -/
def isForeignControl (h : PeerManagerHeader) : Bool :=
  h.packetType == foreignNetworkPacket.code && h.isNoProxy

end PeerManagerHeader

/-- `traffic_kind(packet_type) == TrafficKind::Data`. -/
def isDataTraffic (packetType : UInt8) : Bool :=
  packetType == data.code || packetType == ethernet.code ||
    packetType == overlayStream.code || packetType == waypoint.code

def isRelayDataPacketType (packetType : UInt8) : Bool :=
  isDataTraffic packetType || packetType == foreignNetworkPacket.code

/-! ## The header of the wrapper -/

structure ForeignNetworkPacketHeader where
  headerLen : UInt16
  dstPeerId : UInt32
  networkNameOffset : UInt16
  networkNameLen : UInt16
deriving DecidableEq, Repr

def FOREIGN_NETWORK_PACKET_HEADER_SIZE : Nat := 10

def nameBytes (name : String) : Bytes := name.toByteArray.data.toList

def nameFromUtf8 (bytes : Bytes) : Option String := String.fromUTF8? ⟨bytes.toArray⟩

def u16ToLeBytes (x : UInt16) : Bytes := leBytes 2 x.toNat

def u16FromLeBytes (bytes : Bytes) : UInt16 := UInt16.ofNat (leValue bytes)

namespace ForeignNetworkPacketHeader

/-- Lengths are cut to sixteen bits, and their sum wraps. -/
def new (dstPeerId : UInt32) (networkName : String) : ForeignNetworkPacketHeader :=
  let networkNameOffset := UInt16.ofNat FOREIGN_NETWORK_PACKET_HEADER_SIZE
  let networkNameLen := UInt16.ofNat (nameBytes networkName).length
  { headerLen := networkNameOffset + networkNameLen
    dstPeerId := dstPeerId
    networkNameOffset := networkNameOffset
    networkNameLen := networkNameLen }

def getHeaderLen (h : ForeignNetworkPacketHeader) : Nat := h.headerLen.toNat

def asBytes (h : ForeignNetworkPacketHeader) : Bytes :=
  u16ToLeBytes h.headerLen ++ u32ToLeBytes h.dstPeerId ++ u16ToLeBytes h.networkNameOffset ++
    u16ToLeBytes h.networkNameLen

def refFromPrefix : Bytes → Option ForeignNetworkPacketHeader
  | l0 :: l1 :: d0 :: d1 :: d2 :: d3 :: o0 :: o1 :: n0 :: n1 :: _ =>
    some {
      headerLen := u16FromLeBytes [l0, l1]
      dstPeerId := u32FromLeBytes [d0, d1, d2, d3]
      networkNameOffset := u16FromLeBytes [o0, o1]
      networkNameLen := u16FromLeBytes [n0, n1] }
  | _ => none

def validate (h : ForeignNetworkPacketHeader) (payload : Bytes) : Bool :=
  let nameOffset := h.networkNameOffset.toNat
  let nameLen := h.networkNameLen.toNat
  decide (FOREIGN_NETWORK_PACKET_HEADER_SIZE ≤ h.getHeaderLen ∧
    h.getHeaderLen ≤ payload.length ∧ FOREIGN_NETWORK_PACKET_HEADER_SIZE ≤ nameOffset ∧
    nameLen ≠ 0 ∧ nameOffset + nameLen = h.getHeaderLen)

def getNetworkName (h : ForeignNetworkPacketHeader) (payload : Bytes) : Option String :=
  if h.validate payload then
    (slice payload h.networkNameOffset.toNat
      (h.networkNameOffset.toNat + h.networkNameLen.toNat)).bind nameFromUtf8
  else none

end ForeignNetworkPacketHeader

namespace ZCPacket

/-- The header of the wrapper takes over what the relays route by. -/
def foreignOuterHeader (totalPayloadLen : Nat) (inner : Option PeerManagerHeader) :
    PeerManagerHeader :=
  let header := PeerManagerHeader.initialized 0 0 foreignNetworkPacket.code
    (UInt32.ofNat totalPayloadLen)
  match inner with
  | some inner =>
    ((header.setLatencyFirst inner.isLatencyFirst).setSpeedFirst inner.isSpeedFirst).setNoProxy
      (inner.isForeignControl || !isRelayDataPacketType inner.packetType)
  | none => header

def newForForeignNetwork (networkName : String) (dstPeerId : UInt32)
    (foreignZcPacket : ZCPacket) : Option ZCPacket := do
  let hdr := ForeignNetworkPacketHeader.new dstPeerId networkName
  let inner ← foreignZcPacket.tunnelPayload
  let totalPayloadLen := hdr.getHeaderLen + inner.length
  let payload := replicate totalPayloadLen 0
  let payload ← copyFromSlice payload 0 FOREIGN_NETWORK_PACKET_HEADER_SIZE hdr.asBytes
  let nameOffset := hdr.networkNameOffset.toNat
  let payload ← copyFromSlice payload nameOffset (nameOffset + hdr.networkNameLen.toNat)
    (nameBytes networkName)
  let payload ← copyFromSlice payload hdr.getHeaderLen payload.length inner
  let ret := newFromBuf (replicate ZCPacketType.nic.payloadOffset 0 ++ payload) .nic
  let (found, ret) := ret.mutPeerManagerHeader fun _ =>
    foreignOuterHeader totalPayloadLen foreignZcPacket.peerManagerHeader
  if found then some ret else none

variable (p : ZCPacket)

def foreignNetworkHdr : Option (Option ForeignNetworkPacketHeader) :=
  match p.peerManagerHeader with
  | none => some none
  | some peerHeader =>
    if peerHeader.packetType = foreignNetworkPacket.code then
      p.payload.map fun payload =>
        (ForeignNetworkPacketHeader.refFromPrefix payload).filter (·.validate payload)
    else some none

def foreignNetworkInnerHeader : Option (Option PeerManagerHeader) :=
  match p.peerManagerHeader with
  | none => some none
  | some peerHeader =>
    if peerHeader.packetType = foreignNetworkPacket.code then do
      let payload ← p.payload
      match ← p.foreignNetworkHdr with
      | none => some none
      | some hdr =>
        if hdr.getHeaderLen ≤ payload.length then
          some (PeerManagerHeader.refFromPrefix (payload.drop hdr.getHeaderLen))
        else some none
    else some none

def foreignNetworkInnerIsData : Option (Option Bool) :=
  p.foreignNetworkInnerHeader.map fun header =>
    header.map fun hdr => !hdr.isForeignControl && isRelayDataPacketType hdr.packetType

/-- `advance_inner`; `split_to` panics past the end. -/
def advanceInner (length : Nat) : Option ZCPacket :=
  if length ≤ p.inner.length then
    let front := p.inner.take length
    some { p with
      inner := p.inner.drop length
      reusablePrefix :=
        match p.reusablePrefix with
        | some existing => some (existing ++ front)
        | none => if p.reusablePool then some front else none }
  else none

/-- The part of `foreign_network_packet` after its check of control packets. -/
def unwrapForeign : Option (Option ZCPacket) := do
  match ← p.foreignNetworkHdr with
  | none => some none
  | some hdr =>
    let foreignHdrLen := hdr.getHeaderLen
    let payload ← p.payload
    if foreignHdrLen < FOREIGN_NETWORK_PACKET_HEADER_SIZE ∨ payload.length < foreignHdrLen then
      some none
    else
      let inner ← p.advanceInner (foreignHdrLen + p.payloadOffset)
      some (some { inner with packetType := .dummyTunnel })

def foreignNetworkPacket : Option (Option ZCPacket) :=
  match p.peerManagerHeader with
  | none => some none
  | some peerHeader =>
    -- A control declaration cannot carry data.
    if peerHeader.isForeignControl then
      p.foreignNetworkInnerIsData.bind fun isData =>
        if isData.getD true then some none else p.unwrapForeign
    else p.unwrapForeign

end ZCPacket

/-! ## Header bytes -/

theorem u16FromLeBytes_toLeBytes (x : UInt16) : u16FromLeBytes (u16ToLeBytes x) = x := by
  rw [u16FromLeBytes, u16ToLeBytes, leValue_leBytes (by simpa using x.toNat_lt)]
  simp

theorem nameFromUtf8_nameBytes (name : String) : nameFromUtf8 (nameBytes name) = some name := by
  have hbytes : (⟨(nameBytes name).toArray⟩ : ByteArray) = name.toByteArray := rfl
  rw [nameFromUtf8, hbytes, String.fromUTF8?, dif_pos name.isValidUTF8]
  rfl

theorem nameBytes_ne_nil {name : String} (hname : name ≠ "") : nameBytes name ≠ [] := by
  intro hempty
  have hsame := nameFromUtf8_nameBytes name
  rw [hempty, show ([] : Bytes) = nameBytes "" from rfl, nameFromUtf8_nameBytes] at hsame
  exact hname (some.inj hsame).symm

namespace ForeignNetworkPacketHeader

variable {h : ForeignNetworkPacketHeader} {payload : Bytes}

@[simp] theorem length_asBytes (h : ForeignNetworkPacketHeader) :
    h.asBytes.length = FOREIGN_NETWORK_PACKET_HEADER_SIZE := by
  simp [asBytes, u16ToLeBytes, FOREIGN_NETWORK_PACKET_HEADER_SIZE]

theorem refFromPrefix_asBytes (h : ForeignNetworkPacketHeader) (tail : Bytes) :
    refFromPrefix (h.asBytes ++ tail) = some h := by
  have hheader := u16FromLeBytes_toLeBytes h.headerLen
  have hdst := u32FromLeBytes_toLeBytes h.dstPeerId
  have hoffset := u16FromLeBytes_toLeBytes h.networkNameOffset
  have hname := u16FromLeBytes_toLeBytes h.networkNameLen
  simp only [u16ToLeBytes, u32ToLeBytes, leBytes] at hheader hdst hoffset hname
  simp only [asBytes, u16ToLeBytes, u32ToLeBytes, leBytes, cons_append, nil_append,
    refFromPrefix, hheader, hdst, hoffset, hname]

structure Inside (h : ForeignNetworkPacketHeader) (payload : Bytes) : Prop where
  fixed_le : FOREIGN_NETWORK_PACKET_HEADER_SIZE ≤ h.networkNameOffset.toNat
  name_end : h.networkNameOffset.toNat + h.networkNameLen.toNat = h.getHeaderLen
  header_le : h.getHeaderLen ≤ payload.length

theorem inside_of_validate (hvalid : h.validate payload = true) : h.Inside payload := by
  obtain ⟨-, hheader, hoffset, -, hend⟩ := of_decide_eq_true hvalid
  exact ⟨hoffset, hend, hheader⟩

section Fits

variable {name : String} (dst : UInt32)
  (hfits : FOREIGN_NETWORK_PACKET_HEADER_SIZE + (nameBytes name).length < 65536)
include hfits

theorem networkNameLen_new : (new dst name).networkNameLen.toNat = (nameBytes name).length :=
  UInt16.toNat_ofNat_of_lt' (by simp only [UInt16.size]; omega)

theorem getHeaderLen_new :
    (new dst name).getHeaderLen = FOREIGN_NETWORK_PACKET_HEADER_SIZE + (nameBytes name).length := by
  have hlen : (UInt16.ofNat (nameBytes name).length).toNat = (nameBytes name).length :=
    networkNameLen_new dst hfits
  have hoffset : (UInt16.ofNat FOREIGN_NETWORK_PACKET_HEADER_SIZE).toNat =
      FOREIGN_NETWORK_PACKET_HEADER_SIZE := rfl
  rw [getHeaderLen, new, UInt16.toNat_add, hoffset, hlen, Nat.mod_eq_of_lt hfits]

theorem validate_new (hname : nameBytes name ≠ []) (tail : Bytes) :
    (new dst name).validate ((new dst name).asBytes ++ nameBytes name ++ tail) = true := by
  have hlen := networkNameLen_new dst hfits
  have hheader := getHeaderLen_new dst hfits
  have hoffset : (new dst name).networkNameOffset.toNat = FOREIGN_NETWORK_PACKET_HEADER_SIZE := rfl
  have hpos := length_pos_iff.mpr hname
  refine decide_eq_true ⟨?_, ?_, ?_, ?_, ?_⟩
  · omega
  · rw [hheader, length_append, length_append, length_asBytes]
    omega
  · omega
  · omega
  · omega

theorem getNetworkName_new (hname : nameBytes name ≠ []) (tail : Bytes) :
    (new dst name).getNetworkName ((new dst name).asBytes ++ nameBytes name ++ tail) =
      some name := by
  have hslice : slice ((new dst name).asBytes ++ nameBytes name ++ tail)
      (new dst name).networkNameOffset.toNat
      ((new dst name).networkNameOffset.toNat + (new dst name).networkNameLen.toNat) =
      some (nameBytes name) := by
    refine slice_append_middle _ _ _ (length_asBytes _).symm ?_
    rw [networkNameLen_new dst hfits, length_asBytes]
    rfl
  rw [getNetworkName, if_pos (validate_new dst hfits hname tail), hslice, bind_some,
    nameFromUtf8_nameBytes]

end Fits

end ForeignNetworkPacketHeader

variable (p : ZCPacket) {hdr : ForeignNetworkPacketHeader} (total : Nat)

namespace ZCPacket

open ForeignNetworkPacketHeader

variable {p : ZCPacket} {header : PeerManagerHeader} {bytes : Bytes} {inner : ZCPacket}

theorem newForForeignNetwork_eq {name : String} (dst : UInt32)
    (hfits : FOREIGN_NETWORK_PACKET_HEADER_SIZE + (nameBytes name).length < 65536)
    (hinner : inner.tunnelPayload = some bytes) :
    newForForeignNetwork name dst inner =
      some (newFromBuf (replicate NIC_TUNNEL_HEADROOM 0 ++
        (foreignOuterHeader ((new dst name).getHeaderLen + bytes.length)
          inner.peerManagerHeader).asBytes ++
        ((new dst name).asBytes ++ nameBytes name ++ bytes)) .nic) := by
  have hlen := networkNameLen_new dst hfits
  have hheader := getHeaderLen_new dst hfits
  have hoffset : (new dst name).networkNameOffset.toNat = FOREIGN_NETWORK_PACKET_HEADER_SIZE := rfl
  set hdr := new dst name with hdef
  have hzeros : replicate (hdr.getHeaderLen + bytes.length) (0 : UInt8) =
      [] ++ replicate FOREIGN_NETWORK_PACKET_HEADER_SIZE 0 ++
        (replicate (nameBytes name).length 0 ++ replicate bytes.length 0) := by
    rw [hheader, replicate_add, replicate_add, nil_append, append_assoc]
  have hfirst : copyFromSlice (replicate (hdr.getHeaderLen + bytes.length) 0) 0
      FOREIGN_NETWORK_PACKET_HEADER_SIZE hdr.asBytes =
      some (hdr.asBytes ++ replicate (nameBytes name).length 0 ++ replicate bytes.length 0) := by
    rw [hzeros, append_assoc hdr.asBytes]
    exact copyFromSlice_append_middle [] (replicate FOREIGN_NETWORK_PACKET_HEADER_SIZE 0) _ _
      rfl (by simp) (by simp)
  have hsecond := copyFromSlice_append_middle hdr.asBytes (replicate (nameBytes name).length 0)
    (replicate bytes.length 0) (nameBytes name) (hoffset.trans (length_asBytes _).symm)
    (show hdr.networkNameOffset.toNat + hdr.networkNameLen.toNat = _ by simp [hoffset, hlen])
    (by simp)
  have hthird := copyFromSlice_append_middle (hdr.asBytes ++ nameBytes name)
    (replicate bytes.length 0) [] bytes (show hdr.getHeaderLen = _ by simp [hheader])
    length_append (by simp)
  rw [append_nil, append_nil] at hthird
  -- The fresh buffer is headroom, a header of zeros and the payload.
  have hparts : (newFromBuf (replicate ZCPacketType.nic.payloadOffset 0 ++
      (hdr.asBytes ++ nameBytes name ++ bytes)) .nic).HasParts (replicate NIC_TUNNEL_HEADROOM 0)
      ⟨0, 0, 0, 0, 0, 0, 0⟩ (hdr.asBytes ++ nameBytes name ++ bytes) := ⟨rfl, rfl⟩
  simp only [newForForeignNetwork, hinner, ← hdef, bind_eq_bind, bind_some, hfirst, hsecond,
    hthird, hparts.mutPeerManagerHeader_eq, if_true]
  rfl

/-! ## Unwrapping -/

theorem foreignNetworkHdr_of_header (hheader : p.peerManagerHeader = some header)
    (htype : header.packetType = PacketType.foreignNetworkPacket.code) :
    p.foreignNetworkHdr = some ((refFromPrefix (p.inner.drop p.payloadOffset)).filter
      (·.validate (p.inner.drop p.payloadOffset))) := by
  simp only [foreignNetworkHdr, hheader, if_pos htype, payload_of_header hheader, map_some]

/-- The header is read inside the buffer, and what it declares lies inside the payload. -/
theorem foreignNetworkHdr_spec :
    ∃ result, p.foreignNetworkHdr = some result ∧
      ∀ h ∈ result, ∃ payload, p.payload = some payload ∧ h.Inside payload := by
  cases hheader : p.peerManagerHeader with
  | none => exact ⟨none, by simp only [foreignNetworkHdr, hheader], by simp⟩
  | some header =>
    by_cases htype : header.packetType = PacketType.foreignNetworkPacket.code
    · refine ⟨_, foreignNetworkHdr_of_header hheader htype, ?_⟩
      intro h hmem
      obtain ⟨-, hvalid⟩ := filter_eq_some_iff.mp hmem
      exact ⟨_, payload_of_header hheader, inside_of_validate hvalid⟩
    · exact ⟨none, by simp only [foreignNetworkHdr, hheader, if_neg htype], by simp⟩

theorem foreignNetworkInnerHeader_isSome : p.foreignNetworkInnerHeader.isSome = true := by
  obtain ⟨result, hresult, -⟩ := p.foreignNetworkHdr_spec
  unfold foreignNetworkInnerHeader
  cases hheader : p.peerManagerHeader with
  | none => rfl
  | some header =>
    dsimp only
    split
    case isFalse => rfl
    case isTrue =>
      simp only [payload_of_header hheader, hresult, bind_eq_bind, bind_some]
      cases result with
      | none => rfl
      | some hdr =>
        dsimp only
        split <;> rfl

structure Unwraps (p inner : ZCPacket) : Prop where
  header : ∃ hdr payload, p.foreignNetworkHdr = some (some hdr) ∧ p.payload = some payload ∧
    hdr.Inside payload ∧ inner.inner = payload.drop hdr.getHeaderLen
  packetType : inner.packetType = .dummyTunnel

theorem advanceInner_eq {length : Nat} (hlength : length ≤ p.inner.length) :
    ∃ front, p.advanceInner length =
      some { p with inner := p.inner.drop length, reusablePrefix := front } := by
  rw [advanceInner, if_pos hlength]
  exact ⟨_, rfl⟩

theorem bytesFromOffset_eq_some {offset : Nat} (h : p.bytesFromOffset offset = some bytes) :
    offset ≤ p.inner.length ∧ bytes = p.inner.drop offset := by
  unfold bytesFromOffset at h
  split at h
  case isTrue hoffset => exact ⟨hoffset, (some.inj h).symm⟩
  case isFalse => cases h

theorem unwrapForeign_of_hdr (hresult : p.foreignNetworkHdr = some (some hdr)) :
    ∃ inner, p.unwrapForeign = some (some inner) ∧ p.Unwraps inner := by
  obtain ⟨result, hspec, hinside⟩ := p.foreignNetworkHdr_spec
  obtain rfl := some.inj (hspec.symm.trans hresult)
  obtain ⟨payload, hpayload, hin⟩ := hinside hdr rfl
  obtain ⟨hoffset, hdrop⟩ := bytesFromOffset_eq_some hpayload
  have hlength : hdr.getHeaderLen + p.payloadOffset ≤ p.inner.length := by
    have hle := hin.header_le
    rw [hdrop, length_drop] at hle
    omega
  have hrange : ¬ (hdr.getHeaderLen < FOREIGN_NETWORK_PACKET_HEADER_SIZE ∨
      payload.length < hdr.getHeaderLen) := by
    have hfixed := hin.fixed_le
    have hend := hin.name_end
    have hle := hin.header_le
    omega
  obtain ⟨front, hadvance⟩ := advanceInner_eq hlength
  refine ⟨{ p with
    inner := p.inner.drop (hdr.getHeaderLen + p.payloadOffset)
    reusablePrefix := front
    packetType := .dummyTunnel }, ?_, ⟨hdr, payload, hresult, hpayload, hin, ?_⟩, rfl⟩
  · simp only [unwrapForeign, hresult, hpayload, if_neg hrange, hadvance, bind_eq_bind, bind_some]
  · rw [hdrop, drop_drop, Nat.add_comm]

theorem unwrapForeign_spec :
    ∃ result, p.unwrapForeign = some result ∧ ∀ inner ∈ result, p.Unwraps inner := by
  obtain ⟨result, hresult, -⟩ := p.foreignNetworkHdr_spec
  cases result with
  | none => exact ⟨none, by simp [unwrapForeign, hresult], by simp⟩
  | some hdr =>
    obtain ⟨inner, hinner, hunwraps⟩ := unwrapForeign_of_hdr hresult
    refine ⟨some inner, hinner, ?_⟩
    intro found hfound
    exact some.inj hfound ▸ hunwraps

theorem foreignNetworkPacket_spec :
    ∃ result, p.foreignNetworkPacket = some result ∧ ∀ inner ∈ result, p.Unwraps inner := by
  obtain ⟨result, hresult, hunwraps⟩ := p.unwrapForeign_spec
  obtain ⟨innerHeader, hinner⟩ := isSome_iff_exists.mp p.foreignNetworkInnerHeader_isSome
  unfold foreignNetworkPacket foreignNetworkInnerIsData
  cases hheader : p.peerManagerHeader with
  | none => exact ⟨none, rfl, by simp⟩
  | some header =>
    dsimp only
    split
    case isFalse => exact ⟨result, hresult, hunwraps⟩
    case isTrue =>
      rw [hinner, map_some, bind_some]
      split
      case isTrue => exact ⟨none, rfl, by simp⟩
      case isFalse => exact ⟨result, hresult, hunwraps⟩

/-! ## Round trips -/

theorem peerManagerHeader_of_tunnelPayload (h : p.tunnelPayload = some bytes) :
    p.peerManagerHeader = PeerManagerHeader.refFromPrefix bytes := by
  rw [tunnelPayload] at h
  rw [peerManagerHeader, h, bind_eq_bind, bind_some]

theorem payload_of_tunnelPayload (h : p.tunnelPayload = some bytes) :
    p.payload = if PEER_MANAGER_HEADER_SIZE ≤ bytes.length then
      some (bytes.drop PEER_MANAGER_HEADER_SIZE) else none := by
  obtain ⟨hoffset, rfl⟩ := bytesFromOffset_eq_some h
  rw [payload, bytesFromOffset, payloadOffset_eq, length_drop, drop_drop]
  congr 1
  exact propext ⟨fun _ => by omega, fun _ => by omega⟩

theorem foreignOuterHeader_packetType (inner : Option PeerManagerHeader) :
    (foreignOuterHeader total inner).packetType = PacketType.foreignNetworkPacket.code := by
  cases inner <;> rfl

theorem isNoProxy_setNoProxy (header : PeerManagerHeader) (noProxy : Bool) :
    (header.setNoProxy noProxy).isNoProxy = noProxy := by
  have hinsert : ∀ flags : BitVec 8, ((⟨flags⟩ : UInt8) ||| 8) &&& 8 = 8 := by decide +kernel
  have hremove : ∀ flags : BitVec 8, ((⟨flags⟩ : UInt8) &&& ~~~8) &&& 8 ≠ 8 := by decide +kernel
  cases noProxy with
  | true => exact beq_iff_eq.mpr (hinsert header.flags.toBitVec)
  | false => exact beq_eq_false_iff_ne.mpr (hremove header.flags.toBitVec)

theorem foreignOuterHeader_isForeignControl (inner : PeerManagerHeader) :
    (foreignOuterHeader total (some inner)).isForeignControl =
      (inner.isForeignControl || !isRelayDataPacketType inner.packetType) :=
  isNoProxy_setNoProxy _ _

theorem foreignNetworkPacket_of_wrapper {payload bytes : Bytes}
    {total : Nat} (hheader : p.peerManagerHeader =
      some (foreignOuterHeader total (PeerManagerHeader.refFromPrefix bytes)))
    (hhdr : p.foreignNetworkHdr = some (some hdr)) (hpayload : p.payload = some payload)
    (hin : hdr.Inside payload) (hbytes : payload.drop hdr.getHeaderLen = bytes) :
    p.foreignNetworkPacket = p.unwrapForeign := by
  have hinner : p.foreignNetworkInnerHeader = some (PeerManagerHeader.refFromPrefix bytes) := by
    simp only [foreignNetworkInnerHeader, hheader, if_pos (foreignOuterHeader_packetType _ _),
      hpayload, hhdr, bind_eq_bind, bind_some, if_pos hin.header_le, hbytes]
  simp only [foreignNetworkPacket, hheader, foreignNetworkInnerIsData, hinner, map_some, bind_some]
  split
  case isFalse => rfl
  case isTrue hcontrol =>
    cases hparse : PeerManagerHeader.refFromPrefix bytes with
    | none =>
      rw [hparse] at hcontrol
      change ((0 : UInt8) &&& 8 == 8) = true at hcontrol
      simp at hcontrol
    | some inner =>
      rw [hparse, foreignOuterHeader_isForeignControl] at hcontrol
      have hdata : (!inner.isForeignControl && isRelayDataPacketType inner.packetType) = false := by
        cases hforeign : inner.isForeignControl <;> simp_all
      rw [map_some, hdata, getD_some, if_neg Bool.false_ne_true]

theorem Unwraps.tunnelPayload_eq (h : p.Unwraps inner)
    (hbytes : inner.inner = bytes) : inner.tunnelPayload = some bytes := by
  have hoffset : inner.peerManagerHeaderOffset = 0 := by
    rw [peerManagerHeaderOffset, h.packetType, ZCPacketType.peerManagerHeaderOffset]
  rw [tunnelPayload, hoffset, bytesFromOffset, if_pos (Nat.zero_le _), drop_zero, hbytes]

section RoundTrip

variable {name : String} {inner : ZCPacket} {bytes : Bytes} (dst : UInt32)
  (hname : name ≠ "")
  (hfits : FOREIGN_NETWORK_PACKET_HEADER_SIZE + (nameBytes name).length < 65536)
  (hinner : inner.tunnelPayload = some bytes)
include hname hfits hinner

theorem wrapped_network_packet :
    ∃ outer unwrapped, newForForeignNetwork name dst inner = some outer ∧
      outer.foreignNetworkHdr = some (some (new dst name)) ∧
      outer.payload = some ((new dst name).asBytes ++ nameBytes name ++ bytes) ∧
      outer.foreignNetworkPacket = some (some unwrapped) ∧
      unwrapped.tunnelPayload = some bytes := by
  have hvalid := validate_new dst hfits (nameBytes_ne_nil hname) bytes
  have houter := newForForeignNetwork_eq dst hfits hinner
  rw [peerManagerHeader_of_tunnelPayload hinner] at houter
  generalize htotal : (new dst name).getHeaderLen + bytes.length = total at houter
  generalize hpacket : newFromBuf _ ZCPacketType.nic = outer at houter
  have hparts : outer.HasParts (replicate NIC_TUNNEL_HEADROOM 0)
      (foreignOuterHeader total (PeerManagerHeader.refFromPrefix bytes))
      ((new dst name).asBytes ++ nameBytes name ++ bytes) := by
    subst hpacket
    exact ⟨rfl, rfl⟩
  have hhdr : outer.foreignNetworkHdr = some (some (new dst name)) := by
    have hparse : refFromPrefix ((new dst name).asBytes ++ nameBytes name ++ bytes) =
        some (new dst name) := by
      rw [append_assoc, refFromPrefix_asBytes]
    rw [foreignNetworkHdr_of_header hparts.peerManagerHeader_eq (foreignOuterHeader_packetType _ _),
      hparts.drop_payload, hparse, filter_some, if_pos hvalid]
  have hdrop : ((new dst name).asBytes ++ nameBytes name ++ bytes).drop
      (new dst name).getHeaderLen = bytes := by
    have hlength : ((new dst name).asBytes ++ nameBytes name).length =
        (new dst name).getHeaderLen := by
      rw [getHeaderLen_new dst hfits, length_append, length_asBytes]
    rw [← hlength, drop_left]
  obtain ⟨unwrapped, hunwrapped, hunwraps⟩ := unwrapForeign_of_hdr hhdr
  obtain ⟨hdr, payload, hhdr', hpayload, -, hrest⟩ := hunwraps.header
  obtain rfl : new dst name = hdr := some.inj (some.inj (hhdr.symm.trans hhdr'))
  obtain rfl := some.inj (hparts.payload_eq.symm.trans hpayload)
  refine ⟨outer, unwrapped, houter, hhdr, hparts.payload_eq, ?_,
    hunwraps.tunnelPayload_eq (hrest.trans hdrop)⟩
  rw [foreignNetworkPacket_of_wrapper hparts.peerManagerHeader_eq hhdr hparts.payload_eq
    (inside_of_validate hvalid) hdrop, hunwrapped]

end RoundTrip

/-- Wrapping and unwrapping give back the name, the destination and the packet; and whatever
bytes a packet has, unwrapping it stays inside its buffer and trusts no length that does not
lie inside the payload. -/
theorem foreign_network_round_trip :
    (∀ (name : String) (dst : UInt32) (inner : ZCPacket) (bytes : Bytes), name ≠ "" →
      FOREIGN_NETWORK_PACKET_HEADER_SIZE + (nameBytes name).length < 65536 →
      inner.tunnelPayload = some bytes →
      ∃ outer hdr unwrapped, newForForeignNetwork name dst inner = some outer ∧
        outer.foreignNetworkHdr = some (some hdr) ∧
        outer.payload.bind hdr.getNetworkName = some name ∧ hdr.dstPeerId = dst ∧
        outer.foreignNetworkPacket = some (some unwrapped) ∧
        unwrapped.tunnelPayload = some bytes ∧
        unwrapped.peerManagerHeader = inner.peerManagerHeader ∧
        unwrapped.payload = inner.payload) ∧
    ∀ p : ZCPacket, ∃ hdr inner, p.foreignNetworkHdr = some hdr ∧
      p.foreignNetworkPacket = some inner ∧
      (∀ h ∈ hdr, ∃ payload, p.payload = some payload ∧ h.Inside payload) ∧
      ∀ unwrapped ∈ inner, p.Unwraps unwrapped := by
  constructor
  · intro name dst inner bytes hname hfits hinner
    obtain ⟨outer, unwrapped, houter, hhdr, hpayload, hunwrapped, htunnel⟩ :=
      wrapped_network_packet dst hname hfits hinner
    refine ⟨outer, _, unwrapped, houter, hhdr, ?_, rfl, hunwrapped, htunnel, ?_, ?_⟩
    · rw [hpayload, bind_some, getNetworkName_new dst hfits (nameBytes_ne_nil hname)]
    · rw [peerManagerHeader_of_tunnelPayload htunnel, peerManagerHeader_of_tunnelPayload hinner]
    · rw [payload_of_tunnelPayload htunnel, payload_of_tunnelPayload hinner]
  · intro p
    obtain ⟨hdr, hhdr, hinside⟩ := p.foreignNetworkHdr_spec
    obtain ⟨inner, hinner, hunwraps⟩ := p.foreignNetworkPacket_spec
    exact ⟨hdr, inner, hhdr, hinner, hinside, hunwraps⟩

def dataPacket : ZCPacket :=
  newFromBuf ((⟨1, 2, data.code, 0, 1, 0, 3⟩ : PeerManagerHeader).asBytes ++ [7, 8, 9])
    .dummyTunnel

theorem foreign_network_round_trip_data :
    ("net" ≠ "" ∧ FOREIGN_NETWORK_PACKET_HEADER_SIZE + (nameBytes "net").length < 65536 ∧
      dataPacket.tunnelPayload = some dataPacket.inner) ∧
    ∃ outer unwrapped, newForForeignNetwork "net" 5 dataPacket = some outer ∧
      outer.foreignNetworkPacket = some (some unwrapped) ∧
      unwrapped.tunnelPayload = some dataPacket.inner := by
  have hname : "net" ≠ "" := by decide
  have hfits : FOREIGN_NETWORK_PACKET_HEADER_SIZE + (nameBytes "net").length < 65536 := by decide
  have hinner : dataPacket.tunnelPayload = some dataPacket.inner := tunnelPayload_newFromBuf _
  obtain ⟨outer, -, unwrapped, houter, -, -, -, hunwrapped, htunnel, -⟩ :=
    foreign_network_round_trip.1 "net" 5 dataPacket dataPacket.inner hname hfits hinner
  exact ⟨⟨hname, hfits, hinner⟩, outer, unwrapped, houter, hunwrapped, htunnel⟩

/-- A wrapper with an empty name is refused by its receiver, and a packet without room for a
header cannot be wrapped. -/
theorem foreign_network_refuses_empty_name :
    (newForForeignNetwork "" 5 dataPacket).map foreignNetworkHdr = some (some none) ∧
      (newForForeignNetwork "" 5 dataPacket).map foreignNetworkPacket = some (some none) ∧
      newForForeignNetwork "net" 5 (newFromBuf [] .nic) = none := by
  decide +kernel

end ZCPacket

end LowerTier.Tunnel
