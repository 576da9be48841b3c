import LowerTier.Gateway.TcpProxy.Connections

/-!
# Translation of TCP connections

Every accepted stream should be connected to the real destination of the SYN that opened it, and
every reply should leave with the address that the client asked for.  The tables have one entry for
a client address, whatever it connects to, so this holds as long as a client address is used for one
destination at a time: for as long as an entry or a connection of the stack reminds of the last one.
-/

namespace LowerTier.Gateway

open AddrTable TcpProxy Option List ProofSupport ProofSupport.ByteString Tunnel

variable (config : ProxyConfig)

def ProxyConfig.realDestination (destination : SocketAddr) : SocketAddr :=
  ⟨(config.cidrSet.containsV4 destination.ip).getD destination.ip, destination.port⟩

theorem ProxyConfig.checkPacketFromPeer_eq {config : ProxyConfig} {header : PeerManagerHeader}
    {destination realDstIp : Ipv4Addr}
    (h : config.checkPacketFromPeer header destination = some realDstIp) :
    (config.cidrSet.containsV4 destination).getD destination = realDstIp := by
  unfold checkPacketFromPeer at h
  split at h
  · next real hreal =>
    rw [hreal, getD_some]
    exact some.inj h
  next hreal =>
  rw [hreal, getD_none]
  split at h
  · exact some.inj h
  · cases h

section

variable {entry : NatDstEntry} {client : SocketAddr}

namespace TcpProxy

variable {proxy : TcpProxy} {start : Option Listener} {now : Nat}

theorem ensureRuntime_eq_some {started : TcpProxy} (h : proxy.ensureRuntime start = some started) :
    ∃ listener, started = { proxy with listener := some listener } := by
  unfold ensureRuntime at h
  split at h
  · next listener hlistener =>
    cases h
    exact ⟨listener, by rw [← hlistener]⟩
  · obtain ⟨listener, -, rfl⟩ := map_eq_some_iff.mp h
    exact ⟨listener, rfl⟩

theorem findEntry_insertSyn {src realDst mappedDst : SocketAddr} :
    ((proxy.insertSyn src realDst mappedDst now).findEntry src).isSome := by
  have hentry : (proxy.insertSyn src realDst mappedDst now).synMap.get src =
      some (NatDstEntry.new proxy.nextId src realDst mappedDst now) := get_insert _
  rw [findEntry, isSome_or, hentry, isSome_some, Bool.or_true]

/-- The address of a client is found again behind the one that the stack sees. -/
theorem clientAddress_stackSource {inet : Ipv4Addr × Ipv4Addr} {source : Ipv4Addr}
    (hother : !proxy.isSmoltcpEnabled → source ≠ inet.2) :
    proxy.clientAddress inet (proxy.stackSource inet source) = source := by
  unfold clientAddress stackSource
  cases hsmoltcp : proxy.isSmoltcpEnabled with
  | true => simp
  | false =>
    rw [hsmoltcp] at hother
    by_cases hsource : source = inet.1
    · simp [hsource]
    · simp [hsource, hother rfl]

end TcpProxy

namespace Relay

/-- Nothing that is kept for a client is for another destination, and the client does not use the
first address of the network, which stands for the node itself. -/
structure Undisturbed (relay : Relay) (client destination : SocketAddr) : Prop where
  syn : ∀ entry, relay.proxy.synMap.get client = some entry → entry.mappedDst = destination
  conn : ∀ entry, relay.proxy.addrConnMap.get client = some entry → entry.mappedDst = destination
  loop : ∀ accepted, relay.loop.accepted = some accepted → accepted.entry.src = client →
    accepted.entry.mappedDst = destination
  stack : ∀ other, relay.opened.lookup client = some other → other = destination
  address : ∀ inet ∈ relay.proxy.config.ipv4, client.ip ≠ inet.2

/-- An entry is for the destination of the connection of its client, if there is one. -/
structure Serves (config : ProxyConfig) (opened : KeyedMap SocketAddr SocketAddr)
    (client : SocketAddr) (entry : NatDstEntry) : Prop where
  real : entry.realDst = config.realDestination entry.mappedDst
  current : ∀ destination, opened.lookup client = some destination → entry.mappedDst = destination

structure Inv (relay : Relay) : Prop where
  syn : ∀ client entry, relay.proxy.synMap.get client = some entry →
    Serves relay.proxy.config relay.opened client entry
  conn : ∀ client entry, relay.proxy.addrConnMap.get client = some entry →
    Serves relay.proxy.config relay.opened client entry
  loop : ∀ accepted, relay.loop.accepted = some accepted →
    Serves relay.proxy.config relay.opened accepted.entry.src accepted.entry ∧
      accepted.entry.mappedDst = accepted.opened
  stream : ∀ stream ∈ relay.streams,
    stream.accepted.entry.realDst = relay.proxy.config.realDestination stream.accepted.opened
  address : ∀ client destination, relay.opened.lookup client = some destination →
    ∀ inet ∈ relay.proxy.config.ipv4, client.ip ≠ inet.2

variable {relay next : Relay} {config : ProxyConfig}
  {opened opened' : KeyedMap SocketAddr SocketAddr}

theorem Serves.of_opened (h : Serves config opened client entry)
    (hopened : ∀ destination, opened'.lookup client = some destination →
      opened.lookup client = some destination) : Serves config opened' client entry :=
  ⟨h.real, fun destination hlookup => h.current destination (hopened destination hlookup)⟩

/-- The step adds nothing to the relay; a field left out is one the step does not touch. -/
structure Shrinks (relay next : Relay) : Prop where
  config : next.proxy.config = relay.proxy.config := by rfl
  syn : ∀ client entry, next.proxy.synMap.get client = some entry →
    relay.proxy.synMap.get client = some entry := by exact fun _ _ => id
  conn : ∀ client entry, next.proxy.addrConnMap.get client = some entry →
    relay.proxy.addrConnMap.get client = some entry := by exact fun _ _ => id
  loop : ∀ accepted, next.loop.accepted = some accepted → relay.loop.accepted = some accepted := by
    exact fun _ => id
  stream : ∀ stream ∈ next.streams, ∃ old ∈ relay.streams, old.accepted = stream.accepted := by
    exact fun stream hin => ⟨stream, hin, rfl⟩
  opened : ∀ client destination, next.opened.lookup client = some destination →
    relay.opened.lookup client = some destination := by exact fun _ _ => id

theorem Inv.of_shrinks (h : Inv relay) (hless : Shrinks relay next) : Inv next where
  syn client entry hentry :=
    hless.config ▸ (h.syn client entry (hless.syn client entry hentry)).of_opened
      (hless.opened client)
  conn client entry hentry :=
    hless.config ▸
      (h.conn client entry (hless.conn client entry hentry)).of_opened (hless.opened client)
  loop accepted haccepted := by
    obtain ⟨hserves, hsame⟩ := h.loop accepted (hless.loop accepted haccepted)
    exact ⟨hless.config ▸ hserves.of_opened (hless.opened accepted.entry.src), hsame⟩
  stream stream hin := by
    obtain ⟨old, hold, hsame⟩ := hless.stream stream hin
    rw [hless.config, ← hsame]
    exact h.stream old hold
  address client destination hlookup := by
    rw [hless.config]
    exact h.address client destination (hless.opened client destination hlookup)

theorem Serves.after_syn {client destination other : SocketAddr}
    (h : Serves config opened other entry)
    (hsyn : opened'.lookup client = some destination ∧
      ∀ other ≠ client, opened'.lookup other = opened.lookup other)
    (hsame : other = client → entry.mappedDst = destination) :
    Serves config opened' other entry := by
  refine ⟨h.real, fun found hfound => ?_⟩
  by_cases hother : other = client
  · rw [hother, hsyn.1] at hfound
    exact (hsame hother).trans (some.inj hfound)
  · rw [hsyn.2 other hother] at hfound
    exact h.current found hfound

/-- A SYN for the proxy keeps the invariant if its client is not busy with another destination. -/
theorem Inv.insertSyn (h : Inv relay) {listener : Listener}
    {client destination realDst : SocketAddr} {now : Nat}
    (hundisturbed : relay.Undisturbed client destination)
    (hreal : realDst = relay.proxy.config.realDestination destination)
    (hopened : opened.lookup client = some destination ∧
      ∀ other ≠ client, opened.lookup other = relay.opened.lookup other) :
    Inv { relay with
      proxy :=
        { relay.proxy with listener := some listener }.insertSyn client realDst destination now
      opened := opened } where
  syn other entry hentry := by
    by_cases hother : other = client
    · subst hother
      have hnew : some (NatDstEntry.new relay.proxy.nextId other realDst destination now) =
          some entry := (get_insert _).symm.trans hentry
      cases hnew
      refine ⟨hreal, fun found hfound => ?_⟩
      exact some.inj (hopened.1.symm.trans hfound)
    · have hold : relay.proxy.synMap.get other = some entry := by
        rw [← hentry]
        exact (get_insert_ne hother).symm
      exact (h.syn other entry hold).after_syn hopened fun hsame => absurd hsame hother
  conn other entry hentry := (h.conn other entry hentry).after_syn hopened fun hsame =>
    hundisturbed.conn entry (hsame ▸ hentry)
  loop accepted haccepted := by
    obtain ⟨hserves, hsame⟩ := h.loop accepted haccepted
    exact ⟨hserves.after_syn hopened (hundisturbed.loop accepted haccepted), hsame⟩
  stream := h.stream
  address other found hfound := by
    by_cases hother : other = client
    · exact hother ▸ hundisturbed.address
    · exact h.address other found (hopened.2 other hother ▸ hfound)

/-- The accept loop finds the entry of the client whose connection it is handed. -/
theorem acceptedAddress_stackTuple {proxy : TcpProxy} {client address localSide : SocketAddr}
    (hother : ∀ inet ∈ proxy.config.ipv4, client.ip ≠ inet.2)
    (hstack : proxy.stackTuple client = some (address, localSide)) :
    proxy.acceptedAddress address = client := by
  obtain ⟨inet, hinet, htuple⟩ := map_eq_some_iff.mp hstack
  cases htuple
  unfold acceptedAddress stackSource
  cases hsmoltcp : proxy.isSmoltcpEnabled with
  | true =>
    cases hipv4 : proxy.config.ipv4 with
    | none => rfl
    | some inet' => exact if_neg (hother inet' hipv4)
  | false =>
    rw [getLocalInet, hsmoltcp] at hinet
    have hipv4 : proxy.config.ipv4 = some inet := hinet
    rw [hipv4]
    by_cases hlocal : client.ip = inet.1
    · simp [← hlocal]
    · simp [hlocal, hother inet hipv4]

section

variable (h : Inv relay)
include h

theorem inv_accept : Inv (relay.accept client) := by
  unfold accept
  split
  · next destination address localSide hloop hopened hstack =>
    have hclient := acceptedAddress_stackTuple (h.address client destination hopened) hstack
    rw [hclient]
    cases hentry : relay.proxy.synMap.get client with
    | none => exact h
    | some entry =>
      dsimp only
      split
      · have hserves := h.syn client entry hentry
        refine ⟨h.syn, h.conn, fun accepted haccepted => ?_, h.stream, h.address⟩
        cases haccepted
        have hsrc : entry.src = client := relay.proxy.synMap.keyed client entry hentry
        exact ⟨hsrc.symm ▸ hserves, hserves.current destination hopened⟩
      · exact { h with loop := nofun }
  · exact h

theorem inv_unlist : Inv relay.unlist := by
  unfold unlist
  split
  · next accepted hloop =>
    refine h.of_shrinks { syn := fun _ _ => get_of_get_removeIf, loop := ?_ }
    intro other hother
    cases hother
    rw [hloop]
    rfl
  · exact h

/-- The entry in the hands of the accept loop serves its client in the connection table too. -/
theorem Inv.publishEntry {accepted : Accepted}
    (haccepted : relay.loop.accepted = some accepted) (client : SocketAddr) (entry : NatDstEntry)
    (hentry : (relay.proxy.publishEntry accepted.entry).addrConnMap.get client = some entry) :
    Serves relay.proxy.config relay.opened client entry := by
  obtain ⟨hserves, -⟩ := h.loop accepted haccepted
  by_cases hclient : client = accepted.entry.src
  · subst hclient
    have hnew : some { accepted.entry with state := .connectingDst } = some entry :=
      (get_insert
        { accepted.entry with state := .connectingDst }).symm.trans hentry
    cases hnew
    exact ⟨hserves.real, hserves.current⟩
  · have hother : client ≠ { accepted.entry with state := .connectingDst }.src := hclient
    refine h.conn client entry ?_
    rw [← hentry]
    exact (get_insert_ne hother).symm

theorem inv_publish : Inv relay.publish := by
  unfold publish
  split
  · next accepted hloop =>
    have haccepted : relay.loop.accepted = some accepted := by
      rw [hloop]
      rfl
    split
    · exact ⟨h.syn, h.publishEntry haccepted, nofun, h.stream, h.address⟩
    refine ⟨h.syn, h.publishEntry haccepted, nofun, fun stream hin => ?_, h.address⟩
    rcases mem_append.mp hin with hold | hnew
    · exact h.stream stream hold
    · cases mem_singleton.mp hnew
      obtain ⟨hserves, hsame⟩ := h.loop accepted haccepted
      rw [← hsame]
      exact hserves.real
  · exact h

variable (number : Nat)

theorem Inv.setStage (stage : StreamStage) : Inv (relay.setStage number stage) := by
  refine h.of_shrinks { stream := fun stream hstream => ?_ }
  obtain ⟨i, hi⟩ := mem_iff_getElem?.mp hstream
  obtain ⟨old, hold, rfl⟩ := Arena.getElem?_modify_some.mp hi
  refine ⟨old, mem_of_getElem? hold, ?_⟩
  split <;> rfl

theorem Inv.removeEntry (entry : NatDstEntry) :
    Inv { relay with proxy := relay.proxy.removeEntryFromAllConnMap entry } :=
  h.of_shrinks { conn := fun _ _ => get_of_get_removeIf }

theorem inv_connect (denied succeeds : Bool) : Inv (relay.connect number denied succeeds).1 := by
  unfold connect
  split
  · split
    · exact (h.setStage number .removed).removeEntry _
    · exact h.setStage number .connected
  · exact h

theorem inv_close : Inv (relay.close number) := by
  unfold close
  split
  · exact h.setStage number .closed
  · exact h

theorem inv_remove : Inv (relay.remove number) := by
  unfold remove
  split
  · exact (h.setStage number .removed).removeEntry _
  · exact h

end

theorem inv_new {gui : Option (Option UInt16)} {myPeerId : PeerId} {listener : Option Listener} :
    Inv (new config gui myPeerId listener) where
  syn _ _ h := nomatch h
  conn _ _ h := nomatch h
  loop := nofun
  stream := nofun
  address _ _ h := nomatch h

end Relay

end

/-! ## Packets -/

section

variable [Pnet] {client : SocketAddr}

namespace TcpProxy

variable {proxy : TcpProxy} {packet : PeerPacket} {start : Option Listener} {now : Nat}

/-- A packet of a client that goes to the stack, with the headers and addresses it was read with. -/
structure HandlesPacket (proxy : TcpProxy) (packet : PeerPacket) (start : Option Listener)
    (ip : Ipv4View) (tcp : TcpView) (started : TcpProxy) (inet : Ipv4Addr × Ipv4Addr)
    (realDstIp : Ipv4Addr) (bytes : Bytes) : Prop where
  takes : Takes proxy packet start ip started inet
  headers : tcpHeaders packet.payload = some (ip, tcp)
  realDestination : proxy.config.checkPacketFromPeer packet.header ip.getDestination =
    some realDstIp
  known : (tcp.isSyn && !tcp.isAck) = true ∨
    (started.findEntry ⟨ip.getSource, tcp.getSource⟩).isSome
  rewritten : rewriteTcpPacket ip (started.stackSource inet ip.getSource) inet.1 tcp.getSource
    started.getLocalPort = some bytes

theorem tryHandlePeerPacket_cases {result : Handling}
    (h : proxy.tryHandlePeerPacket packet start now = some result) :
    (result.handled = false ∧ result.packet = packet ∧
      (result.proxy = proxy ∨ proxy.ensureRuntime start = some result.proxy)) ∨
    ∃ ip tcp started inet realDstIp bytes,
      HandlesPacket proxy packet start ip tcp started inet realDstIp bytes ∧
      result = ⟨if tcp.isSyn && !tcp.isAck then
          started.insertSyn ⟨ip.getSource, tcp.getSource⟩ ⟨realDstIp, tcp.getDestination⟩
            ⟨ip.getDestination, tcp.getDestination⟩ now
        else started, { packet with payload := bytes }, true⟩ := by
  unfold tryHandlePeerPacket at h
  split at h
  · cases h
    exact .inl ⟨rfl, rfl, .inl rfl⟩
  next ip realDstIp started htakes =>
  obtain ⟨hfast, hdata, hproxied, hview, hversion, hprotocol, hgui, hreal, hruntime⟩ :=
    takesPacket_eq_some.mp htakes
  split at h
  · cases h
    exact .inl ⟨rfl, rfl, .inr hruntime⟩
  next inet hinet =>
  obtain ⟨tcp, htcp, h⟩ := bind_eq_some_iff.mp h
  dsimp only at h
  split at h
  · cases h
    exact .inl ⟨rfl, rfl, .inr hruntime⟩
  next hknown =>
  obtain ⟨bytes, hbytes, h⟩ := bind_eq_some_iff.mp h
  cases h
  refine .inr ⟨ip, tcp, started, inet, realDstIp, bytes,
    ⟨⟨hfast, hdata, hproxied, hview, hversion, hprotocol, hgui, isSome_of_eq_some hreal,
      hruntime, hinet⟩, tcpHeaders_eq_some.mpr ⟨hview, hversion, hprotocol, htcp⟩, hreal, ?_,
      hbytes⟩,
    rfl⟩
  cases hsyn : tcp.isSyn && !tcp.isAck with
  | true => exact .inl rfl
  | false =>
    refine .inr ?_
    rw [findEntry, isSome_or]
    cases hconn : started.addrConnMap.get ⟨ip.getSource, tcp.getSource⟩ with
    | some entry => rfl
    | none =>
      cases hentry : started.synMap.get ⟨ip.getSource, tcp.getSource⟩ with
      | some entry => rfl
      | none => simp [hsyn, hconn, hentry] at hknown

def IsReply (proxy : TcpProxy) (packet : PeerPacket) (client : SocketAddr) : Prop :=
  ∃ tuple, proxy.stackTuple client = some tuple ∧ fourTuple packet.payload = some tuple.swap

theorem tryProcessPacketFromNic_of_isReply (hreply : proxy.IsReply packet client)
    (hother : ∀ inet ∈ proxy.config.ipv4, client.ip ≠ inet.2)
    (hentry : proxy.findEntry client = some entry)
    (hport : entry.realDst.port = entry.mappedDst.port) :
    ∃ leaving, proxy.tryProcessPacketFromNic packet = some (true, leaving) ∧
      fourTuple leaving.payload = some (entry.mappedDst, client) := by
  obtain ⟨tuple, hstack, htuple⟩ := hreply
  obtain ⟨inet, hinet, rfl⟩ := map_eq_some_iff.mp hstack
  obtain ⟨ip, tcp, hheaders, hends⟩ := fourTuple_eq_some.mp htuple
  obtain ⟨hview, hversion, hprotocol, htcp⟩ := tcpHeaders_eq_some.mp hheaders
  simp only [Prod.swap_prod_mk, Prod.mk.injEq, SocketAddr.mk.injEq] at hends
  obtain ⟨⟨hsource, hsourcePort⟩, hdestination, hdestinationPort⟩ := hends
  have hclient : proxy.clientAddress inet ip.getDestination = client.ip := by
    rw [hdestination]
    refine clientAddress_stackSource fun hkernel => hother inet ?_
    rw [getLocalInet, if_neg (by simpa using hkernel)] at hinet
    exact hinet
  have hnot : ¬(ip.getVersion ≠ 4 ∨ ip.getSource ≠ inet.1 ∨
      ip.getNextLevelProtocol ≠ TCP_PROTOCOL) := by
    simp [hversion, hprotocol, hsource]
  obtain ⟨bytes, hbytes⟩ := rewriteTcpPacket_isSome htcp entry.mappedDst.ip client.ip
    entry.realDst.port client.port
  simp only [tryProcessPacketFromNic, hinet, hview, bind_eq_bind, bind_some,
    if_neg hnot, htcp, hclient, hsourcePort, ne_eq, not_true_eq_false, if_false,
    hdestinationPort, hentry, findEntry_src hentry, hbytes]
  refine ⟨_, rfl, ?_⟩
  rw [hport] at hbytes
  exact fourTuple_rewriteTcpPacket hheaders hbytes

end TcpProxy

namespace Relay

variable {relay : Relay}

/-- A SYN for the proxy comes from a client that is not busy with another destination, and a reply
of the stack finds an entry of the client in one of the tables. -/
def Allows (relay : Relay) : Event → Prop
  | .peerPacket packet start _ => ∀ ip started inet client destination,
      TcpProxy.Takes relay.proxy packet start ip started inet → opensConnection packet.payload →
        fourTuple packet.payload = some (client, destination) → relay.Undisturbed client destination
  | .nicPacket packet => ∀ client destination, relay.opened.lookup client = some destination →
      relay.proxy.IsReply packet client →
        (relay.proxy.addrConnMap.get client).isSome ∨ (relay.proxy.synMap.get client).isSome
  | _ => True

/-- What is said of an output: a packet of an open connection goes to the stack so that a reply to
it leaves with its addresses exchanged, a stream is connected to the real destination of the SYN
that opened it, and a reply leaves with the address that the client asked for. -/
def Output.Faithful (before after : Relay) : Output → Prop
  | .taken packet rewritten => ∀ client destination,
      fourTuple packet.payload = some (client, destination) →
        (opensConnection packet.payload → after.opened.lookup client = some destination) ∧
        (after.opened.lookup client = some destination →
          fourTuple rewritten.payload = after.proxy.stackTuple client ∧
          ∀ reply, after.proxy.IsReply reply client →
            ∃ leaving, after.proxy.tryProcessPacketFromNic reply = some (true, leaving) ∧
              fourTuple leaving.payload = some (destination, client))
  | .connected accepted target =>
    target = before.proxy.natDst (before.proxy.config.realDestination accepted.opened)
  | .left packet leaving => ∀ client destination,
      before.opened.lookup client = some destination → before.proxy.IsReply packet client →
        fourTuple leaving.payload = some (destination, client)

/-! ## One step -/

section Syn

variable {config : ProxyConfig} {opened : KeyedMap SocketAddr SocketAddr} {payload : Bytes}
  {client destination : SocketAddr}

theorem lookup_openConnection (htuple : fourTuple payload = some (client, destination))
    (hopens : opensConnection payload = true)
    (hstack : ∀ other, opened.lookup client = some other → other = destination) :
    (openConnection opened payload).lookup client = some destination ∧
      ∀ other ≠ client, (openConnection opened payload).lookup other = opened.lookup other := by
  simp only [openConnection, htuple, hopens, Bool.true_and]
  cases hlookup : opened.lookup client with
  | none => exact ⟨AList.lookup_insert _, fun other hne => AList.lookup_insert_ne hne⟩
  | some other => exact ⟨hstack other hlookup ▸ hlookup, fun _ _ => rfl⟩

theorem openConnection_of_not_opens (h : opensConnection payload = false) :
    openConnection opened payload = opened := by
  unfold openConnection
  split
  · rw [h]
    rfl
  · rfl

end Syn

variable {packet : PeerPacket} {start : Option Listener}

theorem peerPacket_cases (h : Inv relay) {now : Nat}
    (hallows : relay.Allows (.peerPacket packet start now)) :
    Inv (relay.peerPacket packet start now).1 ∧
      ((relay.peerPacket packet start now).2 = [] ∨
        ∃ ip tcp started inet realDstIp bytes,
          TcpProxy.HandlesPacket relay.proxy packet start ip tcp started inet realDstIp bytes ∧
          (relay.peerPacket packet start now).2 = [.taken packet { packet with payload := bytes }] ∧
          (relay.peerPacket packet start now).1.proxy.stackTuple = started.stackTuple ∧
          ((relay.peerPacket packet start now).1.proxy.findEntry
            ⟨ip.getSource, tcp.getSource⟩).isSome ∧
          (opensConnection packet.payload → (relay.peerPacket packet start now).1.opened.lookup
            ⟨ip.getSource, tcp.getSource⟩ = some ⟨ip.getDestination, tcp.getDestination⟩)) := by
  unfold peerPacket
  cases hresult : relay.proxy.tryHandlePeerPacket packet start now with
  | none => exact ⟨h, .inl rfl⟩
  | some result =>
    dsimp only
    rcases tryHandlePeerPacket_cases hresult with ⟨hhandled, -, hproxy⟩ |
      ⟨ip, tcp, started, inet, realDstIp, bytes, hhandles, rfl⟩
    · rw [hhandled]
      refine ⟨?_, .inl rfl⟩
      have hlistener : result.proxy = relay.proxy ∨
          ∃ listener, result.proxy = { relay.proxy with listener := some listener } :=
        hproxy.imp_right ensureRuntime_eq_some
      rcases hlistener with hsame | ⟨listener, hsame⟩
      all_goals
        rw [hsame]
        exact h.of_shrinks {}
    · have htuple : fourTuple packet.payload =
          some (⟨ip.getSource, tcp.getSource⟩, ⟨ip.getDestination, tcp.getDestination⟩) :=
        fourTuple_eq_some.mpr ⟨ip, tcp, hhandles.headers, rfl⟩
      have hopens : opensConnection packet.payload = (tcp.isSyn && !tcp.isAck) := by
        rw [opensConnection, hhandles.headers]
        rfl
      obtain ⟨listener, hstarted⟩ := ensureRuntime_eq_some hhandles.takes.runtime
      cases hsyn : tcp.isSyn && !tcp.isAck with
      | false =>
        rw [hsyn] at hopens
        have hknown := hhandles.known.resolve_left (hsyn ▸ nofun)
        refine ⟨?_, .inr ⟨ip, tcp, started, inet, realDstIp, bytes, hhandles, rfl, rfl, hknown,
          fun hopen => absurd (hopens.symm.trans hopen) nofun⟩⟩
        rw [hstarted]
        exact h.of_shrinks { opened := fun client destination hlookup =>
          (congrArg (·.lookup client) (openConnection_of_not_opens hopens)).symm.trans hlookup }
      | true =>
        rw [hsyn] at hopens
        have hundisturbed := hallows ip started inet _ _ hhandles.takes hopens htuple
        have hopened := lookup_openConnection htuple hopens hundisturbed.stack
        refine ⟨?_, .inr ⟨ip, tcp, started, inet, realDstIp, bytes, hhandles, rfl, rfl, ?_,
          fun _ => hopened.1⟩⟩
        · rw [hstarted]
          refine h.insertSyn hundisturbed ?_ hopened
          rw [ProxyConfig.realDestination,
            ProxyConfig.checkPacketFromPeer_eq hhandles.realDestination]
        · exact findEntry_insertSyn

/-- Under the invariant a reply to an open connection leaves with the address that the client asked
for. -/
theorem Inv.reply_leaves (h : Inv relay) {client destination : SocketAddr}
    (hopened : relay.opened.lookup client = some destination)
    (hreply : relay.proxy.IsReply packet client) (hentry : (relay.proxy.findEntry client).isSome) :
    ∃ leaving, relay.proxy.tryProcessPacketFromNic packet = some (true, leaving) ∧
      fourTuple leaving.payload = some (destination, client) := by
  obtain ⟨entry, hentry⟩ := isSome_iff_exists.mp hentry
  have hserves : Serves relay.proxy.config relay.opened client entry := by
    rcases or_eq_some_iff.mp hentry with hconn | ⟨-, hsyn⟩
    · exact h.conn client entry hconn
    · exact h.syn client entry hsyn
  have hport : entry.realDst.port = entry.mappedDst.port := by
    rw [hserves.real]
    rfl
  rw [← hserves.current destination hopened]
  exact tryProcessPacketFromNic_of_isReply hreply (h.address client destination hopened)
    hentry hport

section

variable (h : Inv relay)
include h

theorem inv_step {event : Event} (hallows : relay.Allows event) : Inv (relay.step event).1 := by
  cases event with
  | peerPacket packet start now => exact (peerPacket_cases h hallows).1
  | nicPacket packet => exact h
  | forget client =>
    exact h.of_shrinks { opened := fun _ _ => KeyedMap.lookup_of_lookup_erase }
  | accept client => exact inv_accept h
  | unlist => exact inv_unlist h
  | publish => exact inv_publish h
  | connect stream denied succeeds => exact inv_connect h stream denied succeeds
  | close stream => exact inv_close h stream
  | remove stream => exact inv_remove h stream
  | cleanSyns now =>
    exact h.of_shrinks { syn := fun _ _ => KeyedMap.lookup_of_lookup_retain }

/-! ## Outputs -/

variable {output : Output}

theorem faithful_peerPacket {now : Nat} (hallows : relay.Allows (.peerPacket packet start now))
    (hin : output ∈ (relay.peerPacket packet start now).2) :
    output.Faithful relay (relay.peerPacket packet start now).1 := by
  obtain ⟨hinv,
    hnone | ⟨ip, tcp, started, inet, realDstIp, bytes, hhandles, houtput, hstack, hentry,
    hopens⟩⟩ := peerPacket_cases h hallows
  · exact absurd (hnone ▸ hin) not_mem_nil
  rw [houtput] at hin
  cases mem_singleton.mp hin
  intro client destination htuple
  obtain ⟨ip', tcp', hheaders, hends⟩ := fourTuple_eq_some.mp htuple
  cases hheaders.symm.trans hhandles.headers
  cases hends
  refine ⟨hopens, fun hopened => ⟨?_, fun reply hreply => hinv.reply_leaves hopened hreply hentry⟩⟩
  rw [hstack, stackTuple, hhandles.takes.inet, map_some]
  exact fourTuple_rewriteTcpPacket hhandles.headers hhandles.rewritten

theorem faithful_nicPacket (hallows : relay.Allows (.nicPacket packet))
    (hin : output ∈ relay.nicPacket packet) : output.Faithful relay relay := by
  unfold nicPacket at hin
  split at hin
  · exact absurd hin not_mem_nil
  next changed leaving hresult =>
  cases mem_singleton.mp hin
  intro client destination hopened hreply
  have hentry : (relay.proxy.findEntry client).isSome := by
    rw [findEntry, isSome_or, Bool.or_eq_true]
    exact hallows client destination hopened hreply
  obtain ⟨found, hfound, htuple⟩ := h.reply_leaves hopened hreply hentry
  cases hresult.symm.trans hfound
  exact htuple

theorem faithful_connect {number : Nat} {denied succeeds : Bool}
    (hin : output ∈ (relay.connect number denied succeeds).2) :
    output.Faithful relay (relay.connect number denied succeeds).1 := by
  unfold connect at hin
  split at hin
  · next accepted hstream =>
    split at hin
    · exact absurd hin not_mem_nil
    · cases mem_singleton.mp hin
      exact congrArg relay.proxy.natDst (h.stream _ (mem_of_getElem? hstream))
  · exact absurd hin not_mem_nil

theorem faithful_step {event : Event} (hallows : relay.Allows event)
    (hin : output ∈ (relay.step event).2) : output.Faithful relay (relay.step event).1 := by
  cases event with
  | peerPacket packet start now => exact faithful_peerPacket h hallows hin
  | nicPacket packet => exact faithful_nicPacket h hallows hin
  | connect stream denied succeeds => exact faithful_connect h hin
  | forget | accept | unlist | publish | close | remove | cleanSyns =>
    exact absurd hin not_mem_nil

end

variable (gui : Option (Option UInt16))

def FaithfulStep (relay : Relay) (event : Event) : Prop :=
  ∀ output ∈ (relay.step event).2, output.Faithful relay (relay.step event).1

/-- In every run in which a client address is used for one destination at a time and the replies of
the stack find an entry, every stream is connected to the real destination of the SYN that opened
it, every reply leaves with the address that the client asked for, and a reply to a packet of a
connection leaves with the addresses of that packet exchanged. -/
theorem translation_faithful (myPeerId : PeerId) (listener : Option Listener) (events : List Event)
    (hallows : Trace.Always step (fun relay _ event => relay.Allows event) (new config gui myPeerId
      listener) [] events) :
    Trace.Always step (fun relay _ => FaithfulStep relay) (new config gui myPeerId listener) []
      events :=
  Trace.always_of_always (I := fun relay _ => Inv relay)
    (fun _ _ _ hinv hallow => inv_step hinv hallow)
    (fun _ _ _ hinv hallow _ hin => faithful_step hinv hallow hin) inv_new hallows

end Relay

end

namespace Relay

/-- A SYN from 10.0.0.2, port 5000, to port 80 of an address of 10.1.0.0/24. -/
def opening (host : UInt8) : PeerPacket where
  header := ⟨2, 1, PacketType.data.code, 0, 1, 0, 40⟩
  payload :=
    [0x45, 0, 0, 40, 0, 1, 0, 0, 64, 6, 0, 0, 10, 0, 0, 2, 10, 1, 0, host, 0x13, 0x88, 0, 80,
    0, 0, 0, 0, 0, 0, 0, 0, 0x50, 0x02, 0, 0, 0, 0, 0, 0]

def answer : PeerPacket where
  header := ⟨1, 2, PacketType.data.code, 0, 1, 0, 40⟩
  payload :=
    [0x45, 0, 0, 40, 0, 1, 0, 0, 64, 6, 0, 0, 10, 0, 0, 1, 10, 0, 0, 2, 0x9c, 0x40, 0x13, 0x88,
    0, 0, 0, 0, 0, 0, 0, 0, 0x50, 0x12, 0, 0, 0, 0, 0, 0]

def node : Relay := new gateway.config none 1 (some (.kernel 40000))

def guest : SocketAddr := ⟨0x0a000002, 5000⟩

def connectGuest : List Event := [.accept guest, .unlist, .publish, .connect 0 false true]

theorem translation_faithful_answered :
    (Trace.run step node (.peerPacket (opening 1) none 0 :: connectGuest ++
      [.nicPacket answer])).2.length = 3 ∧
    Trace.Always step (fun relay _ => FaithfulStep relay) node []
      (.peerPacket (opening 1) none 0 :: connectGuest ++ [.nicPacket answer]) := by
  refine ⟨by decide +kernel, translation_faithful _ _ _ _ _ ⟨?_, trivial, trivial, trivial, trivial,
    ?_, trivial⟩⟩
  · intro ip started inet client destination _ _ htuple
    have hclient : fourTuple (opening 1).payload = some (guest, ⟨0x0a010001, 80⟩) := by
      decide +kernel
    cases htuple.symm.trans hclient
    refine ⟨nofun, nofun, nofun, nofun, fun inet hinet => ?_⟩
    cases hinet
    decide
  · intro client destination hopened _
    refine .inl ?_
    rcases KeyedMap.lookup_insert_cases (show (AList.insert guest (⟨0x0a010001, 80⟩ : SocketAddr)
      (∅ : KeyedMap SocketAddr SocketAddr)).lookup client = some destination from hopened) with
      ⟨rfl, -⟩ | ⟨-, hnone⟩
    · decide +kernel
    · cases hnone

/-- A stream that was opened to the first address is connected to the second. -/
def confused : Output :=
  .connected ⟨NatDstEntry.new 1 guest ⟨0x0a010002, 80⟩ ⟨0x0a010002, 80⟩ 0, ⟨0x0a010001, 80⟩⟩
    ⟨0x0a010002, 80⟩

/-- The client opens two connections from one port, the second before the first is accepted.  The
stream of the first is connected to the destination of the second. -/
theorem same_port_confused :
    confused ∈ (Trace.run step node
        (.peerPacket (opening 1) none 0 :: .peerPacket (opening 2) none 0 :: connectGuest)).2 ∧
    ¬Trace.Always step (fun relay _ => FaithfulStep relay) node []
      (.peerPacket (opening 1) none 0 :: .peerPacket (opening 2) none 0 :: connectGuest) := by
  refine ⟨by decide +kernel, fun h => ?_⟩
  have hconnected := h.2.2.2.2.2.1 confused (by decide +kernel)
  exact absurd (show (⟨0x0a010002, 80⟩ : SocketAddr) =
    node.proxy.natDst (node.proxy.config.realDestination ⟨0x0a010001, 80⟩) from hconnected)
    (by decide +kernel)

end Relay

end LowerTier.Gateway
