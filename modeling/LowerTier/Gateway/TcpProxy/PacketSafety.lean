import LowerTier.Gateway.TcpProxy.Packets

/-!
# Packets that the TCP proxy survives

A packet that is not a whole IPv4 packet with a whole TCP header should pass the TCP proxy
unchanged, and no packet should make it panic.  The proxy asks for a TCP header in the bytes behind
the IPv4 header without looking at lengths and fragments first, so both fail for packets that are
for the proxy and have no such header.
-/

namespace LowerTier.Gateway

open Ipv4View ProofSupport ProofSupport.ByteString ProofSupport.ByteFields Tunnel

section

variable [Pnet]

/-- A whole IPv4 packet, not a fragment, with a whole TCP header. -/
structure IsCompleteTcp (payload : Bytes) (ip : Ipv4View) (tcp : TcpView) : Prop where
  ipView : new payload = some ip
  version : ip.getVersion = 4
  header : 5 ≤ ip.getHeaderLength ∧ ip.getHeaderLength * 4 ≤ ip.getTotalLength
  total : ip.getTotalLength ≤ payload.length
  whole : ip.isFragmented = false
  protocol : ip.getNextLevelProtocol = TCP_PROTOCOL
  tcpView : TcpView.new ip.payload = some tcp
  tcpHeader : 5 ≤ tcp.getDataOffset ∧ tcp.getDataOffset * 4 ≤ ip.payload.length

def HasCompleteTcp (payload : Bytes) : Prop := ∃ ip tcp, IsCompleteTcp payload ip tcp

variable {ip : Ipv4View}

theorem rewriteTcpPacket_isSome {tcp : TcpView} (htcp : TcpView.new ip.payload = some tcp)
    (source destination : Ipv4Addr) (sourcePort destinationPort : UInt16) :
    ∃ bytes, TcpProxy.rewriteTcpPacket ip source destination sourcePort destinationPort =
      some bytes := by
  rw [TcpProxy.rewriteTcpPacket, htcp]
  exact ⟨_, rfl⟩

omit [Pnet] in
/-- A packet is survived if it is complete or the handling passes it by. -/
theorem survives_iff {α : Type} {result : Option α} {complete passed : Prop} {alone : α → Prop}
    (h : (result = none ∧ ¬complete ∧ ¬passed) ∨
      ∃ after, result = some after ∧ (alone after ∧ passed ∨ ¬alone after ∧ ¬passed)) :
    (∃ after, result = some after ∧ (¬complete → alone after)) ↔ complete ∨ passed := by
  rcases h with ⟨rfl, hshort, hnot⟩ | ⟨after, rfl, ⟨halone, hpassed⟩ | ⟨hchanged, hnot⟩⟩
  · simp [hshort, hnot]
  · simp [halone, hpassed]
  · simp [hchanged, hnot]

namespace TcpProxy

variable {proxy : TcpProxy} {packet : PeerPacket} {start : Option Listener}

/-! ## Packets from peers -/

/-- A packet that is for the proxy as far as the IPv4 header says. -/
structure Takes (proxy : TcpProxy) (packet : PeerPacket) (start : Option Listener) (ip : Ipv4View)
    (started : TcpProxy) (inet : Ipv4Addr × Ipv4Addr) : Prop where
  proxying : proxy.config.checkPacketFromPeerFast = true
  data : packet.header.packetType = PacketType.data.code
  proxied : isNoProxy packet.header = false
  view : new packet.payload = some ip
  version : ip.getVersion = 4
  protocol : ip.getNextLevelProtocol = TCP_PROTOCOL
  noGui : proxy.isForGui ip = some false
  destination : (proxy.config.checkPacketFromPeer packet.header ip.getDestination).isSome
  runtime : proxy.ensureRuntime start = some started
  inet : started.getLocalInet = some inet

/-- A TCP packet that opens no connection, of a client that the proxy does not know. -/
structure IsUnknown (proxy : TcpProxy) (ip : Ipv4View) (tcp : TcpView) : Prop where
  view : TcpView.new ip.payload = some tcp
  noSyn : (tcp.isSyn && !tcp.isAck) = false
  noConnection : proxy.addrConnMap.get ⟨ip.getSource, tcp.getSource⟩ = none
  noEntry : proxy.synMap.get ⟨ip.getSource, tcp.getSource⟩ = none

/-- A packet is handled without a panic, and one without a whole TCP header is left alone. -/
def SurvivesPeerPacket (proxy : TcpProxy) (packet : PeerPacket) (start : Option Listener)
    (now : Nat) : Prop :=
  ∃ result, proxy.tryHandlePeerPacket packet start now = some result ∧
    (¬HasCompleteTcp packet.payload → result.handled = false ∧ result.packet = packet)

theorem takesPacket_eq_some {realDstIp : Ipv4Addr} {started : TcpProxy} :
    proxy.takesPacket packet start = some (ip, realDstIp, started) ↔
      proxy.config.checkPacketFromPeerFast = true ∧
        packet.header.packetType = PacketType.data.code ∧ isNoProxy packet.header = false ∧
        new packet.payload = some ip ∧ ip.getVersion = 4 ∧
        ip.getNextLevelProtocol = TCP_PROTOCOL ∧ proxy.isForGui ip = some false ∧
        proxy.config.checkPacketFromPeer packet.header ip.getDestination = some realDstIp ∧
        proxy.ensureRuntime start = some started := by
  simp only [takesPacket, guard, Option.bind_eq_bind, Option.bind_eq_some_iff, Bool.and_eq_true,
    beq_iff_eq, Bool.not_eq_true']
  constructor
  · intro h
    obtain ⟨_, hfast, _, hheader, view, hview, _, hversion, forGui, hgui, _, hnoGui, real, hreal,
      next, hnext, heq⟩ := h
    cases heq
    split_ifs at hfast hheader hversion hnoGui with h1 h2 h3 h4
    exact ⟨h1, h2.1, h2.2, hview, h3.1, h3.2, h4 ▸ hgui, hreal, hnext⟩
  · rintro ⟨hfast, hdata, hproxied, hview, hversion, hprotocol, hgui, hreal, hnext⟩
    refine ⟨(), if_pos hfast, (), if_pos ⟨hdata, hproxied⟩, ip, hview, (),
      if_pos ⟨hversion, hprotocol⟩,
      false, hgui, (), if_pos rfl, realDstIp, hreal, started, hnext, rfl⟩

variable {inet : Ipv4Addr × Ipv4Addr}

variable {now : Nat}

theorem tryHandlePeerPacket_of_takes {started : TcpProxy}
    (h : Takes proxy packet start ip started inet) :
    (TcpView.new ip.payload = none ∧ proxy.tryHandlePeerPacket packet start now = none) ∨
      (∃ tcp, IsUnknown started ip tcp ∧
        proxy.tryHandlePeerPacket packet start now = some ⟨started, packet, false⟩) ∨
      (∃ tcp next bytes, TcpView.new ip.payload = some tcp ∧ ¬IsUnknown started ip tcp ∧
        proxy.tryHandlePeerPacket packet start now =
          some ⟨next, { packet with payload := bytes }, true⟩) := by
  obtain ⟨realDstIp, hreal⟩ := Option.isSome_iff_exists.mp h.destination
  have htakes : proxy.takesPacket packet start = some (ip, realDstIp, started) :=
    takesPacket_eq_some.mpr ⟨h.proxying, h.data, h.proxied, h.view, h.version, h.protocol, h.noGui,
      hreal, h.runtime⟩
  simp only [tryHandlePeerPacket, htakes, h.inet]
  cases htcp : TcpView.new ip.payload with
  | none => exact .inl ⟨rfl, rfl⟩
  | some tcp =>
    refine .inr ?_
    dsimp only [Option.bind_eq_bind, Option.bind_some]
    split
    · next hunknown =>
      simp only [Bool.and_eq_true, Bool.not_eq_true', Option.isNone_iff_eq_none] at hunknown
      exact .inl ⟨tcp, ⟨htcp, hunknown.1.1, hunknown.1.2, hunknown.2⟩, rfl⟩
    next hknown =>
    obtain ⟨bytes, hbytes⟩ := rewriteTcpPacket_isSome htcp (started.stackSource inet ip.getSource)
      inet.1 tcp.getSource started.getLocalPort
    rw [hbytes]
    refine .inr ⟨tcp, _, bytes, rfl, fun hunknown => hknown ?_, rfl⟩
    simp only [hunknown.noSyn, hunknown.noConnection, hunknown.noEntry]
    rfl

theorem tryHandlePeerPacket_of_not_takes
    (h : ∀ ip started inet, ¬Takes proxy packet start ip started inet) :
    ∃ after, proxy.tryHandlePeerPacket packet start now = some ⟨after, packet, false⟩ := by
  unfold tryHandlePeerPacket
  split
  · exact ⟨_, rfl⟩
  next ip realDstIp started htakes =>
  split
  · exact ⟨_, rfl⟩
  next inet hinet =>
  obtain ⟨hfast, hdata, hproxied, hview, hversion, hprotocol, hgui, hreal, hnext⟩ :=
    takesPacket_eq_some.mp htakes
  exact absurd ⟨hfast, hdata, hproxied, hview, hversion, hprotocol, hgui,
    Option.isSome_of_eq_some hreal, hnext, hinet⟩ (h ip started inet)

theorem survivesPeerPacket_iff :
    proxy.SurvivesPeerPacket packet start now ↔
      HasCompleteTcp packet.payload ∨
        ∀ ip started inet, Takes proxy packet start ip started inet →
          ∃ tcp, IsUnknown started ip tcp := by
  refine survives_iff ?_
  by_cases htakes : ∃ ip started inet, Takes proxy packet start ip started inet
  · obtain ⟨ip, started, inet, htakes⟩ := htakes
    rcases tryHandlePeerPacket_of_takes htakes with ⟨hshort, hresult⟩ | ⟨tcp, hunknown, hresult⟩ |
      ⟨tcp, next, bytes, htcp, hknown, hresult⟩
    · refine .inl ⟨hresult, fun ⟨ip', tcp, hcomplete⟩ => ?_, fun hall => ?_⟩
      · cases hcomplete.ipView.symm.trans htakes.view
        cases hshort.symm.trans hcomplete.tcpView
      · obtain ⟨tcp, hunknown⟩ := hall ip started inet htakes
        cases hshort.symm.trans hunknown.view
    · refine .inr ⟨_, hresult, .inl ⟨⟨rfl, rfl⟩, fun ip' started' inet' h => ?_⟩⟩
      -- the view and the started proxy are determined by the packet
      cases h.view.symm.trans htakes.view
      cases h.runtime.symm.trans htakes.runtime
      exact ⟨tcp, hunknown⟩
    · refine .inr ⟨_, hresult, .inr ⟨nofun, fun hall => ?_⟩⟩
      obtain ⟨tcp', hunknown⟩ := hall ip started inet htakes
      cases htcp.symm.trans hunknown.view
      exact hknown hunknown
  · obtain ⟨after, hresult⟩ := tryHandlePeerPacket_of_not_takes fun ip started inet h =>
      htakes ⟨ip, started, inet, h⟩
    exact .inr ⟨_, hresult, .inl ⟨⟨rfl, rfl⟩, fun ip started inet h =>
      absurd ⟨ip, started, inet, h⟩ htakes⟩⟩

/-! ## Packets from the device -/

/-- A packet of the device is handled without a panic, and one without a whole TCP header is left
alone. -/
def SurvivesNicPacket (proxy : TcpProxy) (packet : PeerPacket) : Prop :=
  ∃ changed after, proxy.tryProcessPacketFromNic packet = some (changed, after) ∧
    (¬HasCompleteTcp packet.payload → changed = false ∧ after = packet)

/-- A packet of the device that is not a TCP packet of the local side by its IPv4 header. -/
def IsOther (inet : Ipv4Addr × Ipv4Addr) (ip : Ipv4View) : Prop :=
  ip.getVersion ≠ 4 ∨ ip.getSource ≠ inet.1 ∨ ip.getNextLevelProtocol ≠ TCP_PROTOCOL

/-- A TCP packet that does not come from the listener or goes to an unknown client. -/
structure IsStray (proxy : TcpProxy) (inet : Ipv4Addr × Ipv4Addr) (ip : Ipv4View) (tcp : TcpView) :
    Prop where
  view : TcpView.new ip.payload = some tcp
  stray : tcp.getSource ≠ proxy.getLocalPort ∨
    proxy.findEntry ⟨proxy.clientAddress inet ip.getDestination, tcp.getDestination⟩ = none

omit [Pnet] in
theorem findEntry_src {client : SocketAddr} {entry : NatDstEntry}
    (h : proxy.findEntry client = some entry) : entry.src = client := by
  rcases Option.or_eq_some_iff.mp h with hconn | ⟨-, hsyn⟩
  · exact proxy.addrConnMap.keyed client entry hconn
  · exact proxy.synMap.keyed client entry hsyn

theorem tryProcessPacketFromNic_cases (hinet : proxy.getLocalInet = some inet)
    (hview : new packet.payload = some ip) (hother : ¬IsOther inet ip) :
    (TcpView.new ip.payload = none ∧ proxy.tryProcessPacketFromNic packet = none) ∨
      (∃ tcp, IsStray proxy inet ip tcp ∧
        proxy.tryProcessPacketFromNic packet = some (false, packet)) ∨
      (∃ tcp after, TcpView.new ip.payload = some tcp ∧ ¬IsStray proxy inet ip tcp ∧
        proxy.tryProcessPacketFromNic packet = some (true, after)) := by
  simp only [tryProcessPacketFromNic, hinet, hview, Option.bind_eq_bind, Option.bind_some]
  rw [if_neg (show ¬(_ ∨ _ ∨ _) from hother)]
  cases htcp : TcpView.new ip.payload with
  | none => exact .inl ⟨rfl, rfl⟩
  | some tcp =>
    refine .inr ?_
    rw [Option.bind_some]
    split
    · next hport => exact .inl ⟨tcp, ⟨htcp, .inl hport⟩, rfl⟩
    next hport =>
    split
    · next hnone => exact .inl ⟨tcp, ⟨htcp, .inr hnone⟩, rfl⟩
    next entry hentry =>
    rw [if_neg (not_not.mpr (findEntry_src hentry))]
    obtain ⟨bytes, hbytes⟩ := rewriteTcpPacket_isSome htcp entry.mappedDst.ip
      (proxy.clientAddress inet ip.getDestination) entry.realDst.port tcp.getDestination
    rw [hbytes]
    refine .inr ⟨tcp, _, rfl, fun hstray => ?_, rfl⟩
    rcases hstray.stray with hne | hnone
    · exact hport hne
    · cases hentry.symm.trans hnone

theorem survivesNicPacket_iff :
    proxy.SurvivesNicPacket packet ↔
      HasCompleteTcp packet.payload ∨
        ∀ inet, proxy.getLocalInet = some inet → ∃ ip, new packet.payload = some ip ∧
          (IsOther inet ip ∨ ∃ tcp, IsStray proxy inet ip tcp) := by
  have hpairs : proxy.SurvivesNicPacket packet ↔
      ∃ after, proxy.tryProcessPacketFromNic packet = some after ∧
        (¬HasCompleteTcp packet.payload → after.1 = false ∧ after.2 = packet) := by
    rw [Prod.exists]
    rfl
  refine hpairs.trans (survives_iff ?_)
  cases hinet : proxy.getLocalInet with
  | none =>
    have hresult : proxy.tryProcessPacketFromNic packet = some (false, packet) := by
      simp only [tryProcessPacketFromNic, hinet]
    exact .inr ⟨_, hresult, .inl ⟨⟨rfl, rfl⟩, nofun⟩⟩
  | some inet =>
    cases hview : new packet.payload with
    | none =>
      have hresult : proxy.tryProcessPacketFromNic packet = none := by
        simp only [tryProcessPacketFromNic, hinet, hview]
        rfl
      refine .inl ⟨hresult, fun ⟨ip, tcp, hcomplete⟩ => ?_, fun hall => ?_⟩
      · cases hview.symm.trans hcomplete.ipView
      · obtain ⟨ip, hip, -⟩ := hall inet rfl
        cases hip
    | some ip =>
      by_cases hother : IsOther inet ip
      · have hresult : proxy.tryProcessPacketFromNic packet = some (false, packet) := by
          simp only [tryProcessPacketFromNic, hinet, hview, Option.bind_eq_bind, Option.bind_some]
          rw [if_pos (show _ ∨ _ ∨ _ from hother)]
        refine .inr ⟨_, hresult, .inl ⟨⟨rfl, rfl⟩, ?_⟩⟩
        rintro _ ⟨⟩
        exact ⟨ip, rfl, .inl hother⟩
      rcases tryProcessPacketFromNic_cases hinet hview hother with ⟨hshort, hresult⟩ |
        ⟨tcp, hstray, hresult⟩ | ⟨tcp, after, htcp, hlistener, hresult⟩
      · refine .inl ⟨hresult, fun ⟨ip', tcp, hcomplete⟩ => ?_, fun hall => ?_⟩
        · cases hview.symm.trans hcomplete.ipView
          cases hshort.symm.trans hcomplete.tcpView
        · obtain ⟨_, ⟨⟩, hfound⟩ := hall inet rfl
          obtain ⟨tcp, hstray⟩ := hfound.resolve_left hother
          cases hshort.symm.trans hstray.view
      · refine .inr ⟨_, hresult, .inl ⟨⟨rfl, rfl⟩, ?_⟩⟩
        rintro _ ⟨⟩
        exact ⟨ip, rfl, .inr ⟨tcp, hstray⟩⟩
      · refine .inr ⟨_, hresult, .inr ⟨nofun, fun hall => ?_⟩⟩
        obtain ⟨_, ⟨⟩, hfound⟩ := hall inet rfl
        obtain ⟨tcp', hstray⟩ := hfound.resolve_left hother
        cases htcp.symm.trans hstray.view
        exact hlistener hstray

/-- The packets of peers and of the device that the proxy survives: those with a whole TCP header,
and those that it passes by before it asks for one or after it has found one. -/
theorem packets_survived_iff (proxy : TcpProxy) (packet : PeerPacket) (start : Option Listener)
    (now : Nat) :
    (proxy.SurvivesPeerPacket packet start now ↔
      HasCompleteTcp packet.payload ∨
        ∀ ip started inet, Takes proxy packet start ip started inet →
          ∃ tcp, IsUnknown started ip tcp) ∧
      (proxy.SurvivesNicPacket packet ↔
        HasCompleteTcp packet.payload ∨
          ∀ inet, proxy.getLocalInet = some inet → ∃ ip, new packet.payload = some ip ∧
            (IsOther inet ip ∨ ∃ tcp, IsStray proxy inet ip tcp)) :=
  ⟨survivesPeerPacket_iff, survivesNicPacket_iff⟩

end TcpProxy

end

namespace TcpProxy

def gateway : TcpProxy where
  config :=
    { cidrSet := [(⟨0x0a010000, 0xffff0000⟩, ⟨0x0a010000, 0xffff0000⟩)]
      enableExitNode := false
      noTun := false
      ipv4 := some (0x0a000001, 0x0a000000) }
  gui := none
  myPeerId := 1
  listener := some (.kernel 40000)
  synMap := .empty
  addrConnMap := .empty
  connMap := ∅
  nextId := 0

/-- The last fragment of a TCP packet from 10.0.0.2 to 10.1.0.1, with eight bytes. -/
def lastFragment : PeerPacket where
  header := ⟨2, 1, PacketType.data.code, 0, 1, 0, 28⟩
  payload := [0x45, 0, 0, 28, 0, 1, 0, 3, 64, 6, 0, 0, 10, 0, 0, 2, 10, 1, 0, 1] ++
    List.replicate 8 0

/-- The fragment makes the handling of peer packets panic, and a packet of eight bytes that of
packets from the device. -/
theorem short_packets_panic :
    gateway.tryHandlePeerPacket lastFragment none 0 = none ∧
      gateway.tryProcessPacketFromNic { lastFragment with payload := List.replicate 8 0 } =
        none := by
  constructor
  · have hshort : (gateway.tryHandlePeerPacket lastFragment none 0).isNone = true := by
      decide +kernel
    exact Option.isNone_iff_eq_none.mp hshort
  · decide +kernel

end TcpProxy

/-!
## The addresses of a rewritten packet

`rewrite_tcp_packet` replaces the addresses, the ports and the checksums of a packet where they
stand.  The IPv4 header keeps its lengths, so the rewritten bytes are read as the same header and
the same TCP segment, with the addresses and ports that were asked for.
-/

variable [Pnet] {ip : Ipv4View}

def tcpHeaders (payload : Bytes) : Option (Ipv4View × TcpView) := do
  let ip ← new payload
  guard (ip.getVersion == 4 && ip.getNextLevelProtocol == TCP_PROTOCOL)
  let tcp ← TcpView.new ip.payload
  some (ip, tcp)

def fourTuple (payload : Bytes) : Option (SocketAddr × SocketAddr) :=
  (tcpHeaders payload).map fun (ip, tcp) =>
    (⟨ip.getSource, tcp.getSource⟩, ⟨ip.getDestination, tcp.getDestination⟩)

def opensConnection (payload : Bytes) : Bool :=
  (tcpHeaders payload).any fun (_, tcp) => tcp.isSyn && !tcp.isAck

variable {payload : Bytes} {tcp : TcpView}

theorem tcpHeaders_eq_some :
    tcpHeaders payload = some (ip, tcp) ↔
      new payload = some ip ∧ ip.getVersion = 4 ∧
        ip.getNextLevelProtocol = TCP_PROTOCOL ∧ TcpView.new ip.payload = some tcp := by
  simp only [tcpHeaders, guard, Option.bind_eq_bind, Option.bind_eq_some_iff, Bool.and_eq_true,
    beq_iff_eq]
  constructor
  · rintro ⟨view, hview, _, hguard, segment, hsegment, heq⟩
    cases heq
    split_ifs at hguard with hheader
    exact ⟨hview, hheader.1, hheader.2, hsegment⟩
  · rintro ⟨hview, hversion, hprotocol, hsegment⟩
    exact ⟨ip, hview, (), if_pos ⟨hversion, hprotocol⟩, tcp, hsegment, rfl⟩

theorem fourTuple_eq_some {tuple : SocketAddr × SocketAddr} :
    fourTuple payload = some tuple ↔
      ∃ ip tcp, tcpHeaders payload = some (ip, tcp) ∧
        (⟨ip.getSource, tcp.getSource⟩, ⟨ip.getDestination, tcp.getDestination⟩) = tuple := by
  simp only [fourTuple, Option.map_eq_some_iff, Prod.exists]

theorem TcpView.new_bytes (h : TcpView.new payload = some tcp) : tcp.bytes = payload := by
  unfold TcpView.new at h
  split at h
  · cases h
    rfl
  · cases h

theorem Ipv4View.segment_fits (h : TCP_HEADER_SIZE ≤ ip.payload.length) :
    ip.payload = (ip.bytes.take ip.payloadStop).drop ip.payloadStart ∧
      ip.payloadStart + TCP_HEADER_SIZE ≤ ip.payloadStop ∧ ip.payloadStop ≤ ip.bytes.length := by
  have hstop : ip.payloadStop ≤ ip.bytes.length := Nat.min_le_right _ _
  rw [payload_eq] at h ⊢
  split at h
  · simp [TCP_HEADER_SIZE] at h
  next hstart =>
  rw [List.length_drop, List.length_take] at h
  refine ⟨if_neg hstart, ?_, hstop⟩
  simp only [TCP_HEADER_SIZE] at h ⊢
  omega

/-- Packets of the same length with the same first ten bytes have their segments at the same
place. -/
theorem Ipv4View.segment_congr {ip ip' : Ipv4View} (hlength : ip'.bytes.length = ip.bytes.length)
    (hlengths : ∀ other size, other + size ≤ 10 →
      field ip'.bytes other size = field ip.bytes other size) :
    ip'.payloadStart = ip.payloadStart ∧ ip'.payloadStop = ip.payloadStop := by
  have hheader : ip'.getHeaderLength = ip.getHeaderLength := by
    rw [getHeaderLength_eq, getHeaderLength_eq, hlengths 0 1 (by decide)]
  have htotal : ip'.getTotalLength = ip.getTotalLength := by
    rw [getTotalLength_eq, getTotalLength_eq, hlengths 2 2 (by decide)]
  have hstart : ip'.payloadStart = ip.payloadStart := by
    rw [payloadStart, payloadStart, hheader]
  refine ⟨hstart, ?_⟩
  rw [payloadStop, payloadStop, payloadStopAt, payloadStopAt, hheader, htotal, hlength]

namespace TcpProxy

structure Rewritten (ip : Ipv4View) (source destination : SocketAddr) (bytes : Bytes) : Prop where
  length : bytes.length = ip.bytes.length
  header : ∀ other size, other + size ≤ 10 → field bytes other size = field ip.bytes other size
  sourceIp : field bytes 12 4 = source.ip.toNat
  destinationIp : field bytes 16 4 = destination.ip.toNat
  sourcePort : field bytes ip.payloadStart 2 = source.port.toNat
  destinationPort : field bytes (ip.payloadStart + 2) 2 = destination.port.toNat

variable {source destination : SocketAddr}

def checksumDelta (ip : Ipv4View) (source destination : SocketAddr) : Nat :=
  addressDelta ip.getSource ip.getDestination source.ip destination.ip

/-- The two checksums, and the bytes outside of the fields that are written. -/
structure Updated (ip : Ipv4View) (tcp : TcpView) (source destination : SocketAddr)
    (bytes : Bytes) : Prop extends Rewritten ip source destination bytes where
  checksum : field bytes 10 2 =
    finishSum (0xffff - ip.getChecksum + checksumDelta ip source destination)
  tcpChecksum : field bytes (ip.payloadStart + 16) 2 = finishSum (replaceWord
    (replaceWord (0xffff - tcp.getChecksum + checksumDelta ip source destination)
      tcp.getSource.toNat source.port.toNat) tcp.getDestination.toNat destination.port.toNat)
  others : ∀ other size, other + size ≤ 10 ∨ 20 ≤ other →
    other + size ≤ ip.payloadStart ∨ ip.payloadStart + 4 ≤ other →
    other + size ≤ ip.payloadStart + 16 ∨ ip.payloadStart + 18 ≤ other →
    (bytes.drop other).take size = (ip.bytes.drop other).take size

omit [Pnet] in
theorem finishSum_lt (sum : Nat) : finishSum sum < 256 ^ 2 := by
  unfold finishSum
  omega

theorem updated {bytes : Bytes} (htcp : TcpView.new ip.payload = some tcp)
    (h : rewriteTcpPacket ip source.ip destination.ip source.port destination.port = some bytes) :
    Updated ip tcp source destination bytes := by
  obtain ⟨-, hfits, hstop⟩ := segment_fits (TcpView.new_bytes htcp ▸ tcp.complete)
  have hstart : 20 ≤ ip.payloadStart := Nat.le_add_right _ _
  have hip := ip.complete
  simp only [TCP_HEADER_SIZE, IPV4_HEADER_SIZE] at hfits hip
  rw [rewriteTcpPacket, htcp] at h
  have hbytes := Option.some.inj h
  -- one write: the length stays, and so do the other bytes
  have hwrite : ∀ {old new : Bytes} {start size value : Nat}, setField old start size value = new →
      start + size ≤ ip.bytes.length → value < 256 ^ size → old.length = ip.bytes.length →
        new.length = ip.bytes.length ∧ field new start size = value ∧
        ∀ other width, other + width ≤ start ∨ start + size ≤ other →
          (new.drop other).take width = (old.drop other).take width := by
    rintro old _ start size value rfl hin hvalue hlength
    rw [← hlength] at hin
    exact ⟨by rw [length_setField hin, hlength],
      (field_setField hin).trans (Nat.mod_eq_of_lt hvalue),
      fun other width hother => drop_take_setField_of_disjoint hin hother⟩
  generalize hb1 : setField ip.bytes 12 4 source.ip.toNat = bytes1 at hbytes
  generalize hb2 : setField bytes1 16 4 destination.ip.toNat = bytes2 at hbytes
  generalize hb3 : setField bytes2 10 2 _ = bytes3 at hbytes
  generalize hb4 : setField bytes3 ip.payloadStart 2 source.port.toNat = bytes4 at hbytes
  generalize hb5 : setField bytes4 (ip.payloadStart + 2) 2 destination.port.toNat = bytes5 at hbytes
  obtain ⟨hl1, hv1, hf1⟩ := hwrite hb1 (by omega) source.ip.toNat_lt rfl
  obtain ⟨hl2, hv2, hf2⟩ := hwrite hb2 (by omega) destination.ip.toNat_lt hl1
  obtain ⟨hl3, hv3, hf3⟩ := hwrite hb3 (by omega) (finishSum_lt _) hl2
  obtain ⟨hl4, hv4, hf4⟩ := hwrite hb4 (by omega) source.port.toNat_lt hl3
  obtain ⟨hl5, hv5, hf5⟩ := hwrite hb5 (by omega) destination.port.toNat_lt hl4
  obtain ⟨hl6, hv6, hf6⟩ := hwrite hbytes (by omega) (finishSum_lt _) hl5
  unfold field at hv1 hv2 hv3 hv4 hv5
  refine ⟨⟨hl6, fun other size hbefore => ?_, ?_, ?_, ?_, ?_⟩, ?_, hv6,
    fun other size h1 h2 h3 => ?_⟩
  · exact congrArg beValue (by simp (disch := omega) only [hf6, hf5, hf4, hf3, hf2, hf1])
  · simp (disch := omega) only [field, hf6, hf5, hf4, hf3, hf2, hv1]
  · simp (disch := omega) only [field, hf6, hf5, hf4, hf3, hv2]
  · simp (disch := omega) only [field, hf6, hf5, hv4]
  · simp (disch := omega) only [field, hf6, hv5]
  · simp (disch := omega) only [field, hf6, hf5, hf4, hv3]
    rfl
  · simp (disch := omega) only [hf6, hf5, hf4, hf3, hf2, hf1]

theorem rewritten {bytes : Bytes}
    (h : rewriteTcpPacket ip source.ip destination.ip source.port destination.port = some bytes) :
    Rewritten ip source destination bytes := by
  obtain ⟨tcp, htcp, -⟩ := Option.bind_eq_some_iff.mp h
  exact (updated htcp h).toRewritten

theorem Rewritten.payload_eq {ip' : Ipv4View} (hread : Rewritten ip source destination ip'.bytes)
    (hfits : ip.payloadStart + TCP_HEADER_SIZE ≤ ip.payloadStop)
    (hstop : ip.payloadStop ≤ ip.bytes.length) :
    ip'.payload = (ip'.bytes.take ip.payloadStop).drop ip.payloadStart := by
  obtain ⟨hstart', hstop'⟩ := segment_congr hread.length hread.header
  have hlong : ¬ip'.bytes.length ≤ ip'.payloadStart := by
    rw [hstart', hread.length]
    simp only [TCP_HEADER_SIZE] at hfits
    omega
  rw [Ipv4View.payload_eq, if_neg hlong, hstart', hstop']

/-- A rewritten packet carries the addresses and ports that were asked for. -/
theorem fourTuple_rewriteTcpPacket {payload bytes : Bytes}
    (hheaders : tcpHeaders payload = some (ip, tcp))
    (h : rewriteTcpPacket ip source.ip destination.ip source.port destination.port = some bytes) :
    fourTuple bytes = some (source, destination) := by
  have hread := rewritten h
  obtain ⟨-, hversion, hprotocol, htcp⟩ := tcpHeaders_eq_some.mp hheaders
  obtain ⟨-, hfits, hstop⟩ := segment_fits (TcpView.new_bytes htcp ▸ tcp.complete)
  have hcomplete : IPV4_HEADER_SIZE ≤ bytes.length := hread.length ▸ ip.complete
  let ip' : Ipv4View := ⟨bytes, hcomplete⟩
  have hview : new bytes = some ip' := dif_pos ((Pnet.isIpv4Packet_iff bytes).mpr hcomplete)
  have hpayload : ip'.payload = (bytes.take ip.payloadStop).drop ip.payloadStart :=
    hread.payload_eq hfits hstop
  have hlength : TCP_HEADER_SIZE ≤ ip'.payload.length := by
    rw [hpayload, List.length_drop, List.length_take, hread.length]
    omega
  have hversion' : ip'.getVersion = 4 := by
    rw [← hversion, ip.getVersion_eq, ip'.getVersion_eq, hread.header 0 1 (by decide)]
  have hprotocol' : ip'.getNextLevelProtocol = TCP_PROTOCOL := by
    rw [← hprotocol, ip.getNextLevelProtocol_eq, ip'.getNextLevelProtocol_eq,
      hread.header 9 1 (by decide)]
  refine fourTuple_eq_some.mpr ⟨ip', _, tcpHeaders_eq_some.mpr ⟨hview, hversion', hprotocol',
    dif_pos ((Pnet.isTcpPacket_iff _).mpr hlength)⟩, ?_⟩
  simp only [TCP_HEADER_SIZE] at hfits
  simp only [getSource_eq, getDestination_eq, TcpView.getSource_eq,
    TcpView.getDestination_eq, hpayload]
  rw [field_part (by omega), field_part (by omega), Nat.add_zero, hread.sourceIp,
    hread.destinationIp,
    hread.sourcePort, hread.destinationPort]
  simp only [UInt32.ofNat_toNat, UInt16.ofNat_toNat]

end TcpProxy

end LowerTier.Gateway
