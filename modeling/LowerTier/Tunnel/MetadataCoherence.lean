import LowerTier.ProofSupport.PartialRun
import LowerTier.Tunnel.PacketEdits

/-!
# Coherence of the cached packet metadata

A packet caches the parse of its header and payload and a flow hash.  The parse is either
dropped by an edit or still what `refresh_parsed_metadata` computes, because the edit left the
bytes from the peer-manager header on as they were.  The flow hash is not computed by the
packet: it is what `set_flow_hash` was last given, until an edit of the dropping kind.
-/

namespace LowerTier.Tunnel.ZCPacket

open ZCPacket Option List ProofSupport.ByteString ProofSupport

/-! ## The operations -/

inductive Constructor where
  | newNicPacket
  | newFromBuf (buf : Bytes) (packetType : ZCPacketType)
  | newFromBufWithPrefix (buf : Bytes) (prefixLength : Nat) (packetType : ZCPacketType)
  | newFromReusableBuf (buf : Bytes) (packetType : ZCPacketType)
  | newWithPayload (payload : Bytes)
  | newWithPayloadParts (parts : List Bytes)
  | newWithPayloadLen (payloadLen : Nat)
  | newForTun (packetInfoLen : Nat)
  | newForForeignNetwork (networkName : String) (dstPeerId : UInt32) (inner : ZCPacket)

def Constructor.build : Constructor → Option ZCPacket
  | .newNicPacket => some ZCPacket.newNicPacket
  | .newFromBuf buf packetType => some (ZCPacket.newFromBuf buf packetType)
  | .newFromBufWithPrefix buf prefixLength packetType =>
    ZCPacket.newFromBufWithPrefix buf prefixLength packetType
  | .newFromReusableBuf buf packetType => some (ZCPacket.newFromReusableBuf buf packetType)
  | .newWithPayload payload => some (ZCPacket.newWithPayload payload)
  | .newWithPayloadParts parts => some (ZCPacket.newWithPayloadParts parts)
  | .newWithPayloadLen payloadLen => some (ZCPacket.newWithPayloadLen payloadLen)
  | .newForTun packetInfoLen => ZCPacket.newForTun packetInfoLen
  | .newForForeignNetwork networkName dstPeerId inner =>
    ZCPacket.newForForeignNetwork networkName dstPeerId inner

inductive Op where
  | refreshParsedMetadata
  | setFlowHash (flowHash : UInt64)
  | mutPayload (f : Bytes → Bytes)
  | mutPayloadPreservingFlowHash (f : Bytes → Bytes)
  | removePayloadPrefix (prefixLen : Nat)
  | removePayloadPrefixPreservingFlowHash (prefixLen : Nat)
  | restorePayloadPrefixFromReusableHeadroom (bytes : Bytes)
  | prependPayload (bytes : Bytes)
  | prependPayloadPreservingFlowHash (bytes : Bytes)
  | appendPayload (suffix : Bytes)
  | appendPayloadPreservingFlowHash (suffix : Bytes)
  | removePayloadSuffix (suffixLen : Nat)
  | removePayloadSuffixPreservingFlowHash (suffixLen : Nat)
  | mutInner (f : Bytes → Bytes)
  | mutInnerPreservingFlowHash (f : Bytes → Bytes)
  | mutPeerManagerHeader (f : PeerManagerHeader → PeerManagerHeader)
  | fillPeerManagerHdr (fromPeerId toPeerId : UInt32) (packetType : UInt8)
  | fillPeerManagerHdrPreservingFlowHash (fromPeerId toPeerId : UInt32) (packetType : UInt8)
  | refreshPeerManagerHdrLen
  | mutTcpTunnelHeader (f : UInt32 → UInt32)
  | encodeWaypoints (waypoints : List PeerId)
  | advanceWaypoint
  | compactRetainedBuffer (retainedBufferCapacity : Nat)
  | clone
  | convertType (target : ZCPacketType)
  | newForForeignNetwork (networkName : String) (dstPeerId : UInt32)
  | foreignNetworkPacket

def reported {α : Type} (result : Except String α × ZCPacket) : Bool × ZCPacket :=
  (result.1.isOk, result.2)

/-- One operation; `none` where it panics or consumes the packet without giving one back.  The
flag is false when the operation reports a failure. -/
def step (p : ZCPacket) : Op → Option (Bool × ZCPacket)
  | .refreshParsedMetadata => some (p.refreshParsedMetadata.1.isSome, p.refreshParsedMetadata.2)
  | .setFlowHash flowHash => some (true, p.setFlowHash flowHash)
  | .mutPayload f => (p.mutPayload f).map (true, ·)
  | .mutPayloadPreservingFlowHash f => (p.mutPayloadPreservingFlowHash f).map (true, ·)
  | .removePayloadPrefix prefixLen => (p.removePayloadPrefix prefixLen).map reported
  | .removePayloadPrefixPreservingFlowHash prefixLen =>
    (p.removePayloadPrefixPreservingFlowHash prefixLen).map reported
  | .restorePayloadPrefixFromReusableHeadroom bytes =>
    p.restorePayloadPrefixFromReusableHeadroom bytes
  | .prependPayload bytes => (p.prependPayload bytes).map (true, ·)
  | .prependPayloadPreservingFlowHash bytes =>
    (p.prependPayloadPreservingFlowHash bytes).map (true, ·)
  | .appendPayload suffix => some (true, p.appendPayload suffix)
  | .appendPayloadPreservingFlowHash suffix =>
    some (true, p.appendPayloadPreservingFlowHash suffix)
  | .removePayloadSuffix suffixLen => some (reported (p.removePayloadSuffix suffixLen))
  | .removePayloadSuffixPreservingFlowHash suffixLen =>
    some (reported (p.removePayloadSuffixPreservingFlowHash suffixLen))
  | .mutInner f => some (true, p.mutInner f)
  | .mutInnerPreservingFlowHash f => some (true, p.mutInnerPreservingFlowHash f)
  | .mutPeerManagerHeader f => some (p.mutPeerManagerHeader f)
  | .fillPeerManagerHdr fromPeerId toPeerId packetType =>
    (p.fillPeerManagerHdr fromPeerId toPeerId packetType).map (true, ·)
  | .fillPeerManagerHdrPreservingFlowHash fromPeerId toPeerId packetType =>
    (p.fillPeerManagerHdrPreservingFlowHash fromPeerId toPeerId packetType).map (true, ·)
  | .refreshPeerManagerHdrLen => some (true, p.refreshPeerManagerHdrLen)
  | .mutTcpTunnelHeader f => some (p.mutTcpTunnelHeader f)
  | .encodeWaypoints waypoints => some (reported (p.encodeWaypoints waypoints))
  | .advanceWaypoint => p.advanceWaypoint.map reported
  | .compactRetainedBuffer capacity => some (true, p.compactRetainedBuffer capacity)
  | .clone => some (true, p.releaseBuffer)
  | .convertType target => (p.convertType target).map (true, ·)
  | .newForForeignNetwork networkName dstPeerId =>
    (newForForeignNetwork networkName dstPeerId p).map (true, ·)
  | .foreignNetworkPacket => p.foreignNetworkPacket.join.map (true, ·)

/-- The cached parse, if there is one, is what a refresh computes. -/
def ParseCoherent (p : ZCPacket) : Prop :=
  ∀ metadata, p.parsedMetadata = some metadata → p.refreshParsedMetadata.1 = some metadata

/-- The operations that forget the flow hash when they succeed. -/
def Op.dropsFlowHash : Op → Bool
  | .mutPayload _ | .removePayloadPrefix _ | .prependPayload _ | .appendPayload _
  | .removePayloadSuffix _ | .mutInner _ | .fillPeerManagerHdr _ _ _
  | .newForForeignNetwork _ _ => true
  | _ => false

def Op.flowHashAfter (op : Op) (succeeded : Bool) (before : Option UInt64) : Option UInt64 :=
  match op with
  | .setFlowHash flowHash => some flowHash
  | op => if op.dropsFlowHash && succeeded then none else before

/-- The last value given to `set_flow_hash`, unless a dropping operation succeeded since. -/
def lastFlowHash (events : List (Op × Bool)) : Option UInt64 :=
  events.foldl (fun before event => event.1.flowHashAfter event.2 before) none

variable {p : ZCPacket}

theorem refreshParsedMetadata_fst :
    p.refreshParsedMetadata.1 = p.tunnelPayload.bind fun bytes =>
      (PeerManagerHeader.refFromPrefix bytes).map fun header =>
        parseMetadata header (bytes.drop PEER_MANAGER_HEADER_SIZE) := by
  rw [refreshParsedMetadata, peerManagerHeader, tunnelPayload, bytesFromOffset]
  split_ifs with hoffset
  · rw [bind_some, bind_eq_bind, bind_some, drop_drop, ← payloadOffset_eq]
    cases PeerManagerHeader.refFromPrefix (p.inner.drop p.peerManagerHeaderOffset) <;> rfl
  · rfl

/-- `q` has no cached parse, or the one of `p` and the same bytes from the header on. -/
def KeepsParse (p q : ZCPacket) : Prop :=
  q.parsedMetadata = none ∨
    q.parsedMetadata = p.parsedMetadata ∧ q.tunnelPayload = p.tunnelPayload

theorem ParseCoherent.of_keepsParse {p q : ZCPacket} (hp : p.ParseCoherent)
    (hkeeps : p.KeepsParse q) : q.ParseCoherent := by
  intro metadata hmetadata
  rcases hkeeps with hnone | ⟨hsame, hbytes⟩
  · rw [hnone] at hmetadata
    simp at hmetadata
  · rw [refreshParsedMetadata_fst, hbytes, ← refreshParsedMetadata_fst]
    exact hp metadata (hsame ▸ hmetadata)

theorem refreshParsedMetadata_cases :
    p.refreshParsedMetadata = (none, p) ∨
      ∃ metadata, p.refreshParsedMetadata =
        (some metadata, { p with parsedMetadata := some metadata }) := by
  unfold refreshParsedMetadata
  cases p.peerManagerHeader with
  | none => exact .inl rfl
  | some header => exact .inr ⟨_, rfl⟩

theorem ParseCoherent.refresh (hp : p.ParseCoherent) : p.refreshParsedMetadata.2.ParseCoherent := by
  rcases p.refreshParsedMetadata_cases with hnone | ⟨metadata, hsome⟩
  · rwa [hnone]
  intro cached hcached
  rw [hsome] at hcached
  calc
    p.refreshParsedMetadata.2.refreshParsedMetadata.1 = p.refreshParsedMetadata.1 := by
      rw [refreshParsedMetadata_fst, refreshParsedMetadata_fst, hsome]
      rfl
    _ = some cached := by rw [hsome]; exact hcached

/-! ## Edits that keep the flow hash -/

/-- An edit with the flow hash of `p` and no outdated parse. -/
structure Edits (p q : ZCPacket) : Prop where
  flowHash : q.flowHash = p.flowHash
  parse : p.KeepsParse q

namespace Edits

variable {p q r : ZCPacket}

theorem refl (p : ZCPacket) : p.Edits p := ⟨rfl, .inr ⟨rfl, rfl⟩⟩

theorem of_dropped (hhash : q.flowHash = p.flowHash) (hparse : q.parsedMetadata = none) :
    p.Edits q :=
  ⟨hhash, .inl hparse⟩

theorem trans (hpq : p.Edits q) (hqr : q.Edits r) : p.Edits r := by
  refine ⟨hqr.flowHash.trans hpq.flowHash, ?_⟩
  rcases hqr.parse with hnone | ⟨hparse, hbytes⟩
  · exact .inl hnone
  · rcases hpq.parse with hnone | ⟨hparse', hbytes'⟩
    · exact .inl (hparse.trans hnone)
    · exact .inr ⟨hparse.trans hparse', hbytes.trans hbytes'⟩

end Edits

section Preserving

variable {p q : ZCPacket}

theorem edits_mutPeerManagerHeader (f : PeerManagerHeader → PeerManagerHeader) :
    p.Edits (p.mutPeerManagerHeader f).2 := by
  unfold mutPeerManagerHeader
  cases p.peerManagerHeader <;> exact .of_dropped rfl rfl

theorem edits_setPayload (bytes : Bytes) :
    p.Edits (p.setPayloadPreservingFlowHash bytes) := .of_dropped rfl rfl

theorem edits_appendPayload (suffix : Bytes) :
    p.Edits (p.appendPayloadPreservingFlowHash suffix) := .of_dropped rfl rfl

theorem edits_removePayloadSuffix (suffixLen : Nat) :
    p.Edits (p.removePayloadSuffixPreservingFlowHash suffixLen).2 := by
  unfold removePayloadSuffixPreservingFlowHash
  split_ifs
  · exact .refl p
  · exact .of_dropped rfl rfl
  · exact .of_dropped rfl rfl

theorem edits_mutPayload {f : Bytes → Bytes} (h : p.mutPayloadPreservingFlowHash f = some q) :
    p.Edits q := by
  obtain ⟨payload, -, rfl⟩ := map_eq_some_iff.mp h
  exact p.edits_setPayload _

theorem edits_prependPayload {bytes : Bytes}
    (h : p.prependPayloadPreservingFlowHash bytes = some q) : p.Edits q := by
  obtain ⟨payload, -, rfl⟩ := map_eq_some_iff.mp h
  exact p.edits_setPayload _

theorem flowHash_advanceInner {length : Nat} (h : p.advanceInner length = some q) :
    q.flowHash = p.flowHash ∧ q.parsedMetadata = p.parsedMetadata ∧
      q.packetType = p.packetType ∧ q.inner = p.inner.drop length := by
  by_cases hlength : length ≤ p.inner.length
  · rw [advanceInner, if_pos hlength] at h
    cases h
    exact ⟨rfl, rfl, rfl, rfl⟩
  · rw [advanceInner, if_neg hlength] at h
    simp at h

theorem edits_removePayloadPrefix {prefixLen : Nat} {result : Except String Unit}
    (h : p.removePayloadPrefixPreservingFlowHash prefixLen = some (result, q)) : p.Edits q := by
  unfold removePayloadPrefixPreservingFlowHash at h
  split_ifs at h
  · cases h
    exact .refl p
  · obtain ⟨advanced, hadvanced, heq⟩ := map_eq_some_iff.mp h
    cases heq
    exact .of_dropped (flowHash_advanceInner hadvanced).1 rfl

theorem edits_restorePayloadPrefix {bytes : Bytes} {restored : Bool}
    (h : p.restorePayloadPrefixFromReusableHeadroom bytes = some (restored, q)) : p.Edits q := by
  unfold restorePayloadPrefixFromReusableHeadroom at h
  cases hheadroom : p.reusablePrefix with
  | none =>
    simp only [hheadroom] at h
    cases h
    exact .refl p
  | some headroom =>
    simp only [hheadroom] at h
    split_ifs at h
    · cases h
      exact .refl p
    · obtain ⟨inner, -, heq⟩ := map_eq_some_iff.mp h
      cases heq
      exact .of_dropped rfl rfl

theorem edits_fillPeerManagerHdr {fromPeerId toPeerId : UInt32} {packetType : UInt8}
    (h : p.fillPeerManagerHdrPreservingFlowHash fromPeerId toPeerId packetType = some q) :
    p.Edits q := by
  unfold fillPeerManagerHdrPreservingFlowHash at h
  dsimp only at h
  split at h
  · next filled hfilled =>
    cases h
    obtain rfl : _ = q := congrArg Prod.snd hfilled
    exact p.edits_mutPeerManagerHeader _
  · simp at h

theorem edits_encodeWaypoints (waypoints : List PeerId) :
    p.Edits (p.encodeWaypoints waypoints).2 := by
  unfold encodeWaypoints
  cases waypoints with
  | nil => exact .refl p
  | cons first rest =>
    split_ifs
    · exact .refl p
    · cases p.peerManagerHeader with
      | none => exact .refl p
      | some header =>
        have hedits := fun f => (p.edits_appendPayload
          (waypointTrailer rest header.toPeerId header.packetType)).trans
            (edits_mutPeerManagerHeader f)
        dsimp only
        split
        · next appended happended => exact congrArg Prod.snd happended ▸ hedits _
        · next appended happended => exact congrArg Prod.snd happended ▸ hedits _

theorem edits_retarget (next : PeerId) (tail : WaypointTail) :
    p.Edits (p.retarget next tail).2 := by
  unfold retarget
  split
  · next q hq => exact congrArg Prod.snd hq ▸ p.edits_mutPeerManagerHeader _
  · next q hq => exact congrArg Prod.snd hq ▸ p.edits_mutPeerManagerHeader _

variable {result : Except String PeerId}

/-- Removing a suffix and aiming at the next peer, as `advance_waypoint` ends. -/
theorem edits_remove_retarget {removed : ZCPacket} {suffixLen : Nat} {next : PeerId}
    {tail : WaypointTail} (hremoved : p.Edits removed)
    (h : (match removed.removePayloadSuffixPreservingFlowHash suffixLen with
      | (.error message, q) => (pure (.error message, q) : Option (Except String PeerId × ZCPacket))
      | (.ok (), q) => pure (q.retarget next tail)) = some (result, q)) : p.Edits q := by
  have hsuffix := hremoved.trans (removed.edits_removePayloadSuffix suffixLen)
  split at h
  · next message shortened hshort =>
    cases h
    rwa [hshort] at hsuffix
  next shortened hshort =>
  rw [hshort] at hsuffix
  have hretarget := hsuffix.trans (shortened.edits_retarget next tail)
  rw [some.inj h] at hretarget
  exact hretarget

theorem edits_advanceWaypoint (h : p.advanceWaypoint = some (result, q)) : p.Edits q := by
  obtain ⟨payload, -, h⟩ := bind_eq_some_iff.mp h
  obtain ⟨read, -, h⟩ := bind_eq_some_iff.mp h
  cases read with
  | error message =>
    cases h
    exact .refl p
  | ok tail =>
    dsimp only at h
    split_ifs at h
    · obtain ⟨⟨next, slid⟩, -, h⟩ := bind_eq_some_iff.mp h
      exact edits_remove_retarget (p.edits_setPayload slid) h
    · exact edits_remove_retarget (.refl p) h

/-! ## Moves of the buffer -/

theorem edits_releaseBuffer : p.Edits p.releaseBuffer := ⟨rfl, .inr ⟨rfl, rfl⟩⟩

theorem edits_compactRetainedBuffer (capacity : Nat) :
    p.Edits (p.compactRetainedBuffer capacity) := by
  unfold compactRetainedBuffer
  split_ifs
  · exact .refl p
  · exact p.edits_releaseBuffer

variable {offset : Nat}

theorem tcpTunnelHeaderOffset_add {t : ZCPacketType}
    (hoffset : t.tcpTunnelHeaderOffset = some offset) :
    offset + TCP_TUNNEL_HEADER_SIZE = t.peerManagerHeaderOffset := by
  cases t <;> simp_all [ZCPacketType.tcpTunnelHeaderOffset, ZCPacketType.peerManagerHeaderOffset,
    PAYLOAD_OFFSET_FOR_NIC_PACKET, NIC_TUNNEL_HEADROOM, TCP_TUNNEL_HEADER_SIZE,
    PEER_MANAGER_HEADER_SIZE]

theorem edits_mutTcpTunnelHeader (f : UInt32 → UInt32) : p.Edits (p.mutTcpTunnelHeader f).2 := by
  unfold mutTcpTunnelHeader
  split
  · exact .refl p
  next offset hoffset =>
  split
  · exact .refl p
  next len hlen =>
  have hfits : offset + TCP_TUNNEL_HEADER_SIZE ≤ p.inner.length := by
    unfold slice at hlen
    split_ifs at hlen with hrange
    exact hrange.2
  have hstart : p.packetType.peerManagerHeaderOffset = offset + TCP_TUNNEL_HEADER_SIZE :=
    (tcpTunnelHeaderOffset_add hoffset).symm
  have hlength : (p.inner.take offset ++ u32ToLeBytes (f (u32FromLeBytes len))).length =
      offset + TCP_TUNNEL_HEADER_SIZE := by
    simp only [length_append, length_take, length_u32ToLeBytes, TCP_TUNNEL_HEADER_SIZE] at *
    omega
  refine ⟨rfl, .inr ⟨rfl, ?_⟩⟩
  simp only [tunnelPayload, bytesFromOffset, peerManagerHeaderOffset, hstart]
  rw [if_pos hfits, if_pos (by rw [length_append, hlength]; omega),
    drop_append_of_le_length (by omega), drop_eq_nil_of_le (by omega),
    nil_append]

variable {target : ZCPacketType}

/-- A target header in front of the peer-manager header is reached by dropping what comes
before it. -/
theorem tunnelPayload_advance
    (hoffset : offset + target.peerManagerHeaderOffset = p.peerManagerHeaderOffset)
    (h : p.advanceInner offset = some q) :
    { q with packetType := target }.tunnelPayload = p.tunnelPayload := by
  obtain ⟨-, -, -, hinner⟩ := flowHash_advanceInner h
  have hlength : offset ≤ p.inner.length := by
    by_contra hlong
    rw [advanceInner, if_neg hlong] at h
    simp at h
  have hrange : target.peerManagerHeaderOffset ≤ p.inner.length - offset ↔
      p.peerManagerHeaderOffset ≤ p.inner.length := by omega
  rw [tunnelPayload, tunnelPayload, bytesFromOffset, bytesFromOffset, ← hoffset, ← drop_drop,
    hoffset]
  simp only [hinner, length_drop, peerManagerHeaderOffset] at hrange ⊢
  exact if_congr hrange rfl rfl

theorem edits_advance
    (hoffset : offset + target.peerManagerHeaderOffset = p.peerManagerHeaderOffset)
    (h : ((p.advanceInner offset).map fun q => { q with packetType := target }) = some q) :
    p.Edits q := by
  obtain ⟨advanced, hadvanced, rfl⟩ := map_eq_some_iff.mp h
  obtain ⟨hhash, hparse, -, -⟩ := flowHash_advanceInner hadvanced
  exact ⟨hhash, .inr ⟨hparse, tunnelPayload_advance hoffset hadvanced⟩⟩

theorem edits_convertType (h : p.convertType target = some q) : p.Edits q := by
  unfold convertType at h
  split_ifs at h with hsame
  · cases h
    exact .refl p
  · cases target with
    | nic => simp at h
    | dummyTunnel =>
      refine edits_advance ?_ h
      rw [peerManagerHeaderOffset]
      cases p.packetType <;> rfl
    | tcp =>
      cases hoffset : p.packetType.tcpTunnelHeaderOffset with
      | some offset =>
        rw [hoffset] at h
        exact edits_advance (tcpTunnelHeaderOffset_add hoffset) h
      | none =>
        rw [hoffset] at h
        obtain ⟨bytes, -, rfl⟩ := map_eq_some_iff.mp h
        exact .of_dropped rfl rfl

end Preserving

/-! ## One operation -/

/-- Unwrapping keeps the cached parse of the wrapper, so it must not have one. -/
def UnwrapsUncached (p : ZCPacket) : Op → Prop
  | .foreignNetworkPacket => p.parsedMetadata = none
  | _ => True

structure StepEffect (p : ZCPacket) (op : Op) (succeeded : Bool) (q : ZCPacket) : Prop where
  flowHash : q.flowHash = op.flowHashAfter succeeded p.flowHash
  parse : p.ParseCoherent → p.UnwrapsUncached op → q.ParseCoherent

section Step

variable {p q : ZCPacket} {op : Op} {succeeded : Bool}

theorem StepEffect.of_edits (hop : op.flowHashAfter succeeded p.flowHash = p.flowHash)
    (hedits : p.Edits q) : StepEffect p op succeeded q :=
  ⟨hedits.flowHash.trans hop.symm, fun hp _ => hp.of_keepsParse hedits.parse⟩

theorem StepEffect.of_dropFlowHash (hop : op.flowHashAfter succeeded p.flowHash = none)
    (hedits : p.Edits q) : StepEffect p op succeeded q.dropFlowHash :=
  ⟨hop.symm, fun hp _ => hp.of_keepsParse hedits.parse⟩

theorem StepEffect.of_dropFlowHashOnSuccess {result : Except String Unit × ZCPacket}
    (hdrops : op.flowHashAfter true p.flowHash = none)
    (hkeeps : op.flowHashAfter false p.flowHash = p.flowHash) (hedits : p.Edits result.2) :
    StepEffect p op (reported (dropFlowHashOnSuccess result)).1
      (reported (dropFlowHashOnSuccess result)).2 := by
  obtain ⟨_ | _, q⟩ := result
  · exact .of_edits hkeeps hedits
  · exact .of_dropFlowHash hdrops hedits

theorem flowHash_newForForeignNetwork {name : String} {dst : UInt32}
    (h : newForForeignNetwork name dst p = some q) :
    q.flowHash = none ∧ q.parsedMetadata = none := by
  simp only [newForForeignNetwork, bind_eq_bind, bind_eq_some_iff] at h
  obtain ⟨bytes, -, fixed, -, named, -, payload, -, h⟩ := h
  split_ifs at h
  cases h
  exact ⟨(edits_mutPeerManagerHeader _).flowHash,
    (edits_mutPeerManagerHeader _).parse.elim id And.left⟩

theorem caches_foreignNetworkPacket (h : p.foreignNetworkPacket.join = some q) :
    q.flowHash = p.flowHash ∧ q.parsedMetadata = p.parsedMetadata := by
  have hunwrap : p.unwrapForeign = some (some q) := by
    unfold foreignNetworkPacket at h
    split at h
    · simp at h
    split_ifs at h
    · cases hdata : p.foreignNetworkInnerIsData with
      | none => simp [hdata] at h
      | some isData =>
        rw [hdata, bind_some] at h
        split_ifs at h
        · simp at h
        · exact join_eq_some_iff.mp h
    · exact join_eq_some_iff.mp h
  obtain ⟨hdr, -, hunwrap⟩ := bind_eq_some_iff.mp hunwrap
  cases hdr with
  | none => simp at hunwrap
  | some hdr =>
    obtain ⟨payload, -, hunwrap⟩ := bind_eq_some_iff.mp hunwrap
    split_ifs at hunwrap
    · simp at hunwrap
    · obtain ⟨advanced, hadvanced, heq⟩ := bind_eq_some_iff.mp hunwrap
      cases heq
      obtain ⟨hhash, hparse, -, -⟩ := flowHash_advanceInner hadvanced
      exact ⟨hhash, hparse⟩

variable {x : Option ZCPacket}

/-- A packet that replaces the old one has its result for the flag `true`. -/
theorem exists_of_map_true (h : x.map (true, ·) = some (succeeded, q)) :
    succeeded = true ∧ x = some q := by
  obtain ⟨r, hr, heq⟩ := map_eq_some_iff.mp h
  cases heq
  exact ⟨rfl, hr⟩

theorem StepEffect.of_map_edits (h : x.map (true, ·) = some (succeeded, q))
    (hop : op.flowHashAfter true p.flowHash = p.flowHash) (hedits : ∀ r, x = some r → p.Edits r) :
    StepEffect p op succeeded q := by
  obtain ⟨rfl, hq⟩ := exists_of_map_true h
  exact .of_edits hop (hedits q hq)

theorem StepEffect.of_map_dropFlowHash
    (h : (x.map dropFlowHash).map (true, ·) = some (succeeded, q))
    (hop : op.flowHashAfter true p.flowHash = none) (hedits : ∀ r, x = some r → p.Edits r) :
    StepEffect p op succeeded q := by
  obtain ⟨rfl, hq⟩ := exists_of_map_true h
  obtain ⟨r, hr, rfl⟩ := map_eq_some_iff.mp hq
  exact .of_dropFlowHash hop (hedits r hr)

theorem step_effect (h : step p op = some (succeeded, q)) : StepEffect p op succeeded q := by
  cases op with
  | refreshParsedMetadata =>
    cases h
    refine ⟨?_, fun hp _ => hp.refresh⟩
    rcases p.refreshParsedMetadata_cases with hnone | ⟨metadata, hsome⟩
    · rw [hnone]; rfl
    · rw [hsome]; rfl
  | setFlowHash flowHash =>
    cases h
    exact ⟨rfl, fun hp _ => hp.of_keepsParse (.inr ⟨rfl, rfl⟩)⟩
  | mutPayload => exact .of_map_dropFlowHash h rfl fun _ => edits_mutPayload
  | mutPayloadPreservingFlowHash => exact .of_map_edits h rfl fun _ => edits_mutPayload
  | removePayloadPrefix prefixLen =>
    obtain ⟨r, hr, heq⟩ := map_eq_some_iff.mp h
    obtain ⟨⟨result, edited⟩, hedited, rfl⟩ := map_eq_some_iff.mp hr
    cases heq
    exact .of_dropFlowHashOnSuccess rfl rfl (edits_removePayloadPrefix hedited)
  | removePayloadPrefixPreservingFlowHash prefixLen =>
    obtain ⟨⟨result, edited⟩, hedited, heq⟩ := map_eq_some_iff.mp h
    cases heq
    exact .of_edits rfl (edits_removePayloadPrefix hedited)
  | restorePayloadPrefixFromReusableHeadroom bytes =>
    exact .of_edits rfl (edits_restorePayloadPrefix h)
  | prependPayload => exact .of_map_dropFlowHash h rfl fun _ => edits_prependPayload
  | prependPayloadPreservingFlowHash => exact .of_map_edits h rfl fun _ => edits_prependPayload
  | appendPayload suffix =>
    cases h
    exact .of_dropFlowHash rfl (p.edits_appendPayload suffix)
  | appendPayloadPreservingFlowHash suffix =>
    cases h
    exact .of_edits rfl (p.edits_appendPayload suffix)
  | removePayloadSuffix suffixLen =>
    cases h
    exact .of_dropFlowHashOnSuccess rfl rfl (p.edits_removePayloadSuffix suffixLen)
  | removePayloadSuffixPreservingFlowHash suffixLen =>
    cases h
    exact .of_edits rfl (p.edits_removePayloadSuffix suffixLen)
  | mutInner f =>
    cases h
    exact .of_dropFlowHash rfl (.of_dropped rfl rfl)
  | mutInnerPreservingFlowHash f =>
    cases h
    exact .of_edits rfl (.of_dropped rfl rfl)
  | mutPeerManagerHeader f =>
    have hedits := p.edits_mutPeerManagerHeader f
    rw [some.inj h] at hedits
    exact .of_edits rfl hedits
  | fillPeerManagerHdr => exact .of_map_dropFlowHash h rfl fun _ => edits_fillPeerManagerHdr
  | fillPeerManagerHdrPreservingFlowHash =>
    exact .of_map_edits h rfl fun _ => edits_fillPeerManagerHdr
  | refreshPeerManagerHdrLen =>
    cases h
    exact .of_edits rfl (p.edits_mutPeerManagerHeader _)
  | mutTcpTunnelHeader f =>
    have hedits := p.edits_mutTcpTunnelHeader f
    rw [some.inj h] at hedits
    exact .of_edits rfl hedits
  | encodeWaypoints waypoints =>
    cases h
    exact .of_edits rfl (p.edits_encodeWaypoints waypoints)
  | advanceWaypoint =>
    obtain ⟨⟨result, edited⟩, hedited, heq⟩ := map_eq_some_iff.mp h
    cases heq
    exact .of_edits rfl (edits_advanceWaypoint hedited)
  | compactRetainedBuffer capacity =>
    cases h
    exact .of_edits rfl (p.edits_compactRetainedBuffer capacity)
  | clone =>
    cases h
    exact .of_edits rfl p.edits_releaseBuffer
  | convertType => exact .of_map_edits h rfl fun _ => edits_convertType
  | newForForeignNetwork networkName dstPeerId =>
    obtain ⟨rfl, hq⟩ := exists_of_map_true h
    obtain ⟨hhash, hparse⟩ := flowHash_newForForeignNetwork hq
    exact ⟨hhash, fun hp _ => hp.of_keepsParse (.inl hparse)⟩
  | foreignNetworkPacket =>
    obtain ⟨rfl, hq⟩ := exists_of_map_true h
    obtain ⟨hhash, hparse⟩ := caches_foreignNetworkPacket hq
    exact ⟨hhash, fun hp huncached => hp.of_keepsParse (.inl (hparse.trans huncached))⟩

end Step

/-! ## Runs -/

theorem Constructor.caches_build {c : Constructor} (h : c.build = some p) :
    p.flowHash = none ∧ p.parsedMetadata = none := by
  cases c with
  | newFromBufWithPrefix buf prefixLength packetType =>
    simp only [build, ZCPacket.newFromBufWithPrefix] at h
    split_ifs at h
    cases h
    exact ⟨rfl, rfl⟩
  | newForTun packetInfoLen =>
    simp only [build, ZCPacket.newForTun] at h
    split_ifs at h
    cases h
    exact ⟨rfl, rfl⟩
  | newForForeignNetwork networkName dstPeerId inner => exact flowHash_newForForeignNetwork h
  | _ =>
    cases h
    exact ⟨rfl, rfl⟩

/-- However a packet was built and edited, a cached parse is what `refresh_parsed_metadata`
computes from its bytes and type, if wrappers with a cached parse are not unwrapped; and the
cached flow hash is the one last set, until an operation that drops it. -/
theorem cached_fields_coherent (c : Constructor) (p q : ZCPacket) (ops : List Op)
    (events : List (Op × Bool)) (hbuild : c.build = some p)
    (hunwraps : PartialRun.Along step UnwrapsUncached p ops)
    (hrun : PartialRun.history step p ops = some (events, q)) :
    (∀ metadata, q.parsedMetadata = some metadata →
      q.refreshParsedMetadata.1 = some metadata) ∧
    q.flowHash = lastFlowHash events := by
  obtain ⟨hhash, hparse⟩ := c.caches_build hbuild
  have hinit : p.ParseCoherent ∧ p.flowHash = lastFlowHash [] :=
    ⟨fun metadata hmetadata => absurd (hparse ▸ hmetadata) (by simp), hhash⟩
  refine PartialRun.history_of_invariant
    (I := fun past s => s.ParseCoherent ∧ s.flowHash = lastFlowHash past) ?_ hinit hunwraps hrun
  intro past s op succeeded s' hs huncached hstep
  have heffect := step_effect hstep
  refine ⟨heffect.parse hs.1 huncached, ?_⟩
  calc
    s'.flowHash = op.flowHashAfter succeeded s.flowHash := heffect.flowHash
    _ = op.flowHashAfter succeeded (lastFlowHash past) := by rw [hs.2]
    _ = lastFlowHash (past ++ [(op, succeeded)]) := by
      rw [lastFlowHash, lastFlowHash, foldl_append, foldl_cons, foldl_nil]

def taggedFrame : Bytes :=
  [2, 0, 0, 0, 0, 1, 2, 0, 0, 0, 0, 2, 0x81, 0x00, 0x20, 0x05, 0x08, 0x00, 0x45]

/-- A frame is wrapped for another network and unwrapped before its parse is cached, then given a
flow hash, parsed and cloned. -/
abbrev wrapAndUnwrap : List Op :=
  [.fillPeerManagerHdr 1 2 PacketType.ethernet.code, .newForForeignNetwork "n" 2,
    .foreignNetworkPacket, .setFlowHash 7, .refreshParsedMetadata, .clone]

theorem cached_fields_coherent_tagged_frame :
    ∃ p q events metadata, (Constructor.newWithPayload taggedFrame).build = some p ∧
      PartialRun.Along step UnwrapsUncached p wrapAndUnwrap ∧
      PartialRun.history step p wrapAndUnwrap = some (events, q) ∧
      q.parsedMetadata = some metadata ∧ q.refreshParsedMetadata.1 = some metadata ∧
      q.flowHash = some 7 := by
  have hunwraps : PartialRun.Along step UnwrapsUncached (newWithPayload taggedFrame)
      wrapAndUnwrap := by
    refine ⟨trivial, fun filled _ => ⟨trivial, fun wrapped hwrapped => ⟨?_, fun _ _ => ⟨trivial,
      fun _ _ => ⟨trivial, fun _ _ => ⟨trivial, fun _ _ => trivial⟩⟩⟩⟩⟩⟩
    exact (flowHash_newForForeignNetwork (exists_of_map_true hwrapped).2).2
  have hcached := cached_fields_coherent (.newWithPayload taggedFrame) _ _ _ _ rfl hunwraps rfl
  exact ⟨_, _, _, _, rfl, hunwraps, rfl, rfl, hcached.1 _ rfl, hcached.2⟩

/-- Neither cache is a function of the bytes and the type in every run: two packets that differ
in the flow hash only, and a packet whose parse is still that of its wrapper. -/
theorem cached_fields_differ_from_bytes :
    (∃ p q r, (Constructor.newWithPayload taggedFrame).build = some p ∧
      PartialRun.run step p [.setFlowHash 7] = some q ∧
      PartialRun.run step p [.setFlowHash 8] = some r ∧
      q.inner = r.inner ∧ q.packetType = r.packetType ∧ q.flowHash ≠ r.flowHash) ∧
    ∃ p q metadata, (Constructor.newWithPayload taggedFrame).build = some p ∧
      PartialRun.run step p
        [.fillPeerManagerHdr 1 2 PacketType.ethernet.code, .newForForeignNetwork "n" 2,
          .refreshParsedMetadata, .foreignNetworkPacket] = some q ∧
      q.parsedMetadata = some metadata ∧ q.refreshParsedMetadata.1 ≠ some metadata := by
  refine ⟨⟨_, _, _, rfl, rfl, rfl, rfl, rfl, by decide⟩, ⟨_, _, _, rfl, rfl, rfl, ?_⟩⟩
  decide

end LowerTier.Tunnel.ZCPacket
