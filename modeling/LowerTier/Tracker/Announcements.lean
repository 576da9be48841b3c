import LowerTier.Tracker.Admission

/-!
# What the tracker hands out

Every stored address comes from an announce that its owner has sent and not taken back.  The counter
of entries is the number of stored peers, and the limits hold.  A source that has no cookie changes
nothing, and only a STUN binding request gets it more bytes than it has sent.
-/

namespace LowerTier.Tracker

open Store AList Option List ProofSupport ProofSupport.ByteString ProofSupport.ByteFields KeyedMap

/-! ## The counter and the limits -/

namespace Store

structure Bounded (store : Store) : Prop where
  counted : store.entries = store.swarms.sumBy size
  entries : store.entries ≤ MAX_ENTRIES
  swarm : ∀ hash swarm, store.swarms.lookup hash = some swarm → swarm.size ≤ MAX_SWARM_ENTRIES
  swarms : store.swarms.size ≤ MAX_SWARMS

def find (store : Store) (hash : Id) (key : Id × SocketAddr) : Option Entry :=
  (store.swarms.lookup hash).bind (·.lookup key)

variable {store : Store} {hash : Id} {key : Id × SocketAddr} {swarm : Swarm}

theorem lookup_swarm (hash : Id) : (store.swarm hash).lookup key = store.find hash key := by
  rw [swarm, find]
  cases store.swarms.lookup hash <;> rfl

variable {other : Id}

theorem find_setSwarm {entries : Nat} :
    (store.setSwarm hash swarm entries).find other key =
      if other = hash then swarm.lookup key else store.find other key := by
  rw [find, setSwarm]
  split
  · next heq => rw [heq, lookup_insert, bind_some]
  · next hne => rw [lookup_insert_ne hne, find]

theorem Bounded.setSwarm (h : Bounded store) {entries : Nat}
    (hcounted : entries + (store.swarm hash).size = store.entries + swarm.size)
    (hentries : entries ≤ MAX_ENTRIES) (hswarm : swarm.size ≤ MAX_SWARM_ENTRIES)
    (hswarms : (store.swarms.lookup hash).isSome ∨ store.swarms.size < MAX_SWARMS) :
    Bounded (store.setSwarm hash swarm entries) := by
  constructor
  · have hsum : _ + (store.swarm hash).size = _ := sumBy_erase_add size rfl store.swarms hash
    have hbefore := h.counted
    change entries = swarm.size + sumBy size (store.swarms.erase hash)
    omega
  · exact hentries
  · intro other found hfound
    rcases lookup_insert_cases hfound with ⟨-, rfl⟩ | ⟨-, hold⟩
    · exact hswarm
    · exact h.swarm other found hold
  · exact size_insert_le h.swarms hswarms

theorem size_dropExpired (now : Nat) (swarm : Swarm) : (dropExpired now swarm).size ≤ swarm.size :=
  length_filter_le _ _

theorem lookup_cleanUp {now : Nat} (h : (store.cleanUp now).swarms.lookup hash = some swarm) :
    ∃ old, store.swarms.lookup hash = some old ∧ swarm = dropExpired now old := by
  have hmapped := lookup_of_lookup_retain h
  rw [lookup_mapValues] at hmapped
  obtain ⟨old, hold, hsame⟩ := map_eq_some_iff.mp hmapped
  exact ⟨old, hold, hsame.symm⟩

variable {entry : Entry}

section

variable (h : Bounded store)
include h

theorem Bounded.cleanUp (now : Nat) : Bounded (store.cleanUp now) := by
  constructor
  · rfl
  · refine le_trans (sumBy_le_sumBy fun other found hfound _ => ?_)
      (h.counted ▸ h.entries : store.swarms.sumBy size ≤ MAX_ENTRIES)
    obtain ⟨old, hold, rfl⟩ := lookup_cleanUp hfound
    exact ⟨old, hold, size_dropExpired now old⟩
  · intro other found hfound
    obtain ⟨old, hold, rfl⟩ := lookup_cleanUp hfound
    exact (size_dropExpired now old).trans (h.swarm other old hold)
  · refine (length_filter_le _ _).trans ?_
    rw [mapValues, length_map]
    exact h.swarms

theorem Bounded.expire (hash : Id) (now : Nat) : Bounded (store.expire hash now) := by
  unfold Store.expire
  split
  · exact h
  next swarm hlookup =>
  have hle := size_dropExpired now swarm
  have hsum := sumBy_erase size hlookup
  have hcounted := h.counted
  have hentries := h.entries
  have hswarm : (store.swarm hash).size = swarm.size := by rw [Store.swarm, hlookup, getD_some]
  refine h.setSwarm ?_ (by omega) (hle.trans (h.swarm hash swarm hlookup))
    (.inl (isSome_of_eq_some hlookup))
  omega

theorem Bounded.sweep (hash : Id) (clock : Clock) : Bounded (store.sweep hash clock) := by
  refine Bounded.expire ?_ hash clock.now
  split
  · exact h.cleanUp clock.now
  · exact h

theorem Bounded.stop (hash : Id) (key : Id × SocketAddr) (source : IpAddr) :
    Bounded (store.stop hash key source) := by
  unfold Store.stop
  split
  · exact h
  next swarm hlookup =>
  split
  · next hfound =>
    obtain ⟨entry, hentry, -⟩ := (any_eq_true _ _).mp hfound
    have hsize := size_erase hentry
    have hsum := sumBy_erase size hlookup
    have hcounted := h.counted
    have hentries := h.entries
    have hlimit := h.swarm hash swarm hlookup
    have hswarm : (store.swarm hash).size = swarm.size := by
      rw [Store.swarm, hlookup, getD_some]
    refine h.setSwarm ?_ (by omega) (by omega) (.inl (isSome_of_eq_some hlookup))
    omega
  · exact h

theorem Bounded.withSwarm {opened : Store} (hopened : store.withSwarm hash = some opened) :
    Bounded opened ∧ (opened.swarms.lookup hash).isSome ∧
      ∀ other key, opened.find other key = store.find other key := by
  unfold Store.withSwarm at hopened
  split at hopened
  · next hsome =>
    cases hopened
    exact ⟨h, hsome, fun _ _ => rfl⟩
  next hnone =>
  split at hopened
  · next hroom =>
    have hlookup : store.swarms.lookup hash = none := not_isSome_iff_eq_none.mp hnone
    cases hopened
    refine ⟨h.setSwarm ?_ h.entries (Nat.zero_le _) (.inr hroom), ?_, fun other key => ?_⟩
    · rw [Store.swarm, hlookup]
      rfl
    · rw [Store.setSwarm, lookup_insert]
      rfl
    · rw [find_setSwarm]
      split
      · next heq =>
        rw [find, heq, hlookup]
        rfl
      · rfl
  · cases hopened

theorem Bounded.put (hsome : (store.swarms.lookup hash).isSome)
    (hroom : store.find hash key = none →
      store.entries < MAX_ENTRIES ∧ (store.swarm hash).size < MAX_SWARM_ENTRIES) :
    Bounded (store.put hash key entry) := by
  obtain ⟨swarm, hlookup⟩ := isSome_iff_exists.mp hsome
  have hswarm : store.swarm hash = swarm := by rw [Store.swarm, hlookup, getD_some]
  have hfind : swarm.lookup key = store.find hash key := by rw [← hswarm, lookup_swarm]
  unfold Store.put
  rw [hswarm]
  rw [hswarm, ← hfind] at hroom
  cases hold : swarm.lookup key with
  | none =>
    obtain ⟨hentries, hsize⟩ := hroom hold
    dsimp only
    rw [hold, isNone_none, if_pos rfl]
    refine h.setSwarm ?_ hentries ?_ (.inl hsome)
    · rw [hswarm, size_insert_of_none hold]
      omega
    · rw [size_insert_of_none hold]
      exact hsize
  | some old =>
    have hsize := size_insert_of_some (v := entry) hold
    dsimp only
    rw [hold, isNone_some, if_neg Bool.false_ne_true]
    refine h.setSwarm ?_ h.entries ?_ (.inl hsome)
    · rw [hswarm, hsize]
    · rw [hsize]
      exact h.swarm hash swarm hlookup

end

/-! ## Entries after an announce -/

variable {clock : Clock}

theorem find_sweep (h : (store.sweep hash clock).find other key = some entry) :
    store.find other key = some entry := by
  have hexpire : ∀ cleaned : Store, (cleaned.expire hash clock.now).find other key = some entry →
      cleaned.find other key = some entry := by
    intro cleaned hfind
    unfold expire at hfind
    split at hfind
    · exact hfind
    next swarm hlookup =>
    rw [find_setSwarm] at hfind
    split at hfind
    · next heq =>
      rw [find, heq, hlookup, bind_some]
      exact lookup_of_lookup_retain hfind
    · exact hfind
  have hcleaned := hexpire _ h
  split at hcleaned
  · obtain ⟨swarm, hswarm, hentry⟩ := bind_eq_some_iff.mp hcleaned
    obtain ⟨old, hold, rfl⟩ := lookup_cleanUp hswarm
    rw [find, hold, bind_some]
    exact lookup_of_lookup_retain hentry
  · exact hcleaned

variable {otherKey : Id × SocketAddr} {source : IpAddr}

theorem find_stop (hkeyed : ∀ entry, store.find hash key = some entry → entry.address.ip = source)
    (h : (store.stop hash key source).find other otherKey = some entry) :
    store.find other otherKey = some entry ∧ ¬(other = hash ∧ otherKey = key) := by
  unfold stop at h
  split at h
  · next hlookup =>
    refine ⟨h, fun ⟨hhash, _⟩ => ?_⟩
    rw [find, hhash, hlookup] at h
    cases h
  next swarm hlookup =>
  have hfind : ∀ k, store.find hash k = swarm.lookup k := fun k => by
    rw [find, hlookup, bind_some]
  split at h
  · rw [find_setSwarm] at h
    split at h
    · next heq =>
      have hne : otherKey ≠ key := by
        rintro rfl
        rw [lookup_erase] at h
        cases h
      rw [lookup_erase_ne hne] at h
      exact ⟨by rw [heq, hfind, h], fun hsame => hne hsame.2⟩
    · next hne => exact ⟨h, fun hsame => hne hsame.1⟩
  · next hmissing =>
    refine ⟨h, ?_⟩
    rintro ⟨rfl, rfl⟩
    refine hmissing ?_
    rw [← hfind, h, any_some, hkeyed entry h]
    exact beq_self_eq_true source

theorem find_put {entry new : Entry}
    (h : (store.put hash key new).find other otherKey = some entry) :
    other = hash ∧ otherKey = key ∧ entry = new ∨ store.find other otherKey = some entry := by
  unfold put at h
  rw [find_setSwarm] at h
  split at h
  · next heq =>
    rcases lookup_insert_cases h with ⟨hkey, hentry⟩ | ⟨-, hold⟩
    · exact .inl ⟨heq, hkey, hentry⟩
    · rw [lookup_swarm, ← heq] at hold
      exact .inr hold
  · exact .inr h

theorem mem_peersFor {request : Announce} {address : SocketAddr}
    (h : address ∈ store.peersFor request source clock) :
    ∃ key entry, store.find request.hash key = some entry ∧ entry.address = address ∧
      key.1 ≠ request.peer ∧ clock.now < entry.expires ∧ address.ip.isIpv6 = source.isIpv6 := by
  have hsorted := mem_mergeSort.mp (mem_rotate.mp (mem_of_mem_take h))
  obtain ⟨⟨key, entry⟩, hin, rfl⟩ := mem_map.mp hsorted
  obtain ⟨hentry, hcond⟩ := mem_filter.mp hin
  simp only [Bool.and_eq_true, bne_iff_ne, ne_eq, decide_eq_true_eq, beq_iff_eq] at hcond
  refine ⟨key, entry, ?_, rfl, hcond.1.1, hcond.1.2, hcond.2⟩
  rw [← lookup_swarm]
  exact mem_lookup_iff.mpr hentry

theorem announce_cases (h : Bounded store) (interval : Nat) (request : Announce) (source : IpAddr)
    (hkeyed : ∀ entry, store.find request.hash (request.peer, ⟨source, request.port⟩) = some entry →
      entry.address.ip = source) :
    Bounded (store.announce interval request source clock).2 ∧
      (∀ hash key entry,
        (store.announce interval request source clock).2.find hash key = some entry →
        request.event ≠ 3 ∧ request.port ≠ 0 ∧ hash = request.hash ∧
            key = (request.peer, ⟨source, request.port⟩) ∧
            entry = ⟨⟨source, request.port⟩, clock.now + lifetime interval request⟩ ∨
          store.find hash key = some entry ∧
            ¬(request.event = 3 ∧ request.port ≠ 0 ∧ hash = request.hash ∧
              key = (request.peer, ⟨source, request.port⟩))) ∧
      ∀ addresses, (store.announce interval request source clock).1 = some addresses →
        addresses = [] ∨
          addresses =
            (store.announce interval request source clock).2.peersFor request source clock := by
  unfold announce
  split
  · next hinvalid =>
    refine ⟨h, fun hash key entry hentry => .inr ⟨hentry, ?_⟩, nofun⟩
    rintro ⟨hevent, hport, -⟩
    rcases hinvalid with hzero | hlarge
    · exact hport hzero
    · omega
  next hvalid =>
  have hport : request.port ≠ 0 := fun hzero => hvalid (.inl hzero)
  have hswept := h.sweep request.hash clock
  dsimp only
  split
  · refine ⟨hswept.stop _ _ _, fun hash key entry hentry => .inr ?_,
      fun addresses heq => .inl (some.inj heq).symm⟩
    obtain ⟨hfound, hother⟩ :=
      find_stop (fun entry hentry => hkeyed entry (find_sweep hentry)) hentry
    exact ⟨find_sweep hfound, fun hsame => hother hsame.2.2⟩
  next hevent =>
  cases hopened : (store.sweep request.hash clock).withSwarm request.hash with
  | none =>
    exact ⟨hswept, fun _ _ _ hentry => .inr ⟨find_sweep hentry, fun hsame => hevent hsame.1⟩, nofun⟩
  | some opened =>
    obtain ⟨hbounded, hsome, hfind⟩ := hswept.withSwarm hopened
    dsimp only
    split
    · refine ⟨hbounded, fun hash key entry hentry => .inr ⟨?_, fun hsame => hevent hsame.1⟩, nofun⟩
      exact find_sweep ((hfind hash key).symm.trans hentry)
    next hroom =>
    refine ⟨hbounded.put hsome fun hnone => ?_, fun hash key entry hentry => ?_,
      fun addresses heq => .inr (some.inj heq).symm⟩
    · rw [lookup_swarm, hnone, isNone_none, Bool.true_and] at hroom
      simpa using hroom
    · rcases find_put hentry with ⟨hhash, hkey, hnew⟩ | hold
      · exact .inl ⟨hevent, hport, hhash, hkey, hnew⟩
      · exact .inr ⟨find_sweep ((hfind hash key).symm.trans hold), fun hsame => hevent hsame.1⟩

end Store

/-! ## Announces behind the entries -/

/-- An announce that takes back the entry under a key of a swarm. -/
def Output.Stops (hash : Id) (key : Id × SocketAddr) : Output → Prop
  | .announced announce source _ => announce.event = 3 ∧ announce.hash = hash ∧
      key = (announce.peer, ⟨source, announce.port⟩)
  | _ => False

/-- An address was announced in a swarm by a peer that has not stopped since, and the entry lives
until a given time. -/
def AnnouncedBy (interval : Nat) (history : List Output) (hash : Id) (key : Id × SocketAddr)
    (expires : Nat) : Prop :=
  ∃ before announce time after, history = before ++ .announced announce key.2.ip time :: after ∧
    announce.hash = hash ∧ announce.peer = key.1 ∧ announce.port = key.2.port ∧ announce.event ≠ 3 ∧
    expires = time + lifetime interval announce ∧ ∀ output ∈ after, ¬output.Stops hash key

structure Inv (interval : Nat) (store : Store) (history : List Output) : Prop where
  bounded : store.Bounded
  address : ∀ hash key entry, store.find hash key = some entry → entry.address = key.2
  port : ∀ hash key entry, store.find hash key = some entry → key.2.port ≠ 0
  announced : ∀ hash key entry, store.find hash key = some entry →
    AnnouncedBy interval history hash key entry.expires

variable {history new : List Output}

theorem AnnouncedBy.append {interval : Nat} {hash : Id}
    {key : Id × SocketAddr} {expires : Nat} (h : AnnouncedBy interval history hash key expires)
    (hnew : ∀ output ∈ new, ¬output.Stops hash key) :
    AnnouncedBy interval (history ++ new) hash key expires := by
  obtain ⟨before, announce, time, after, rfl, hhash, hpeer, hport, hevent, hexpires, hafter⟩ := h
  refine ⟨before, announce, time, after ++ new, ?_, hhash, hpeer, hport, hevent, hexpires, ?_⟩
  · rw [append_assoc, cons_append]
  · intro output hin
    rcases mem_append.mp hin with hold | hin
    · exact hafter output hold
    · exact hnew output hin

theorem Inv.append {interval : Nat} {store : Store}
    (h : Inv interval store history) (hnew : ∀ output ∈ new, ∀ hash key, ¬output.Stops hash key) :
    Inv interval store (history ++ new) :=
  { h with
    announced := fun hash key entry hentry =>
      (h.announced hash key entry hentry).append fun output hin => hnew output hin hash key }

/-- What is said of the addresses in a reply. -/
def Output.Proper (interval : Nat) (history : List Output) : Output → Prop
  | .peers request source now addresses =>
    addresses.length ≤ request.limit ∧ ∀ address ∈ addresses,
      address.ip.isIpv6 = source.isIpv6 ∧ ∃ peer expires, peer ≠ request.peer ∧ now < expires ∧
        AnnouncedBy interval history request.hash (peer, address) expires
  | _ => True

namespace Server

variable {server : Server} {store : Store} {history : List Output} {source : IpAddr}

theorem inv_announce (h : Inv server.interval store history) (request : Announce) (source : IpAddr)
    (clock : Clock) :
    Inv server.interval (store.announce server.interval request source clock).2
      (history ++ [.announced request source clock.now]) := by
  obtain ⟨hbounded, hfind, -⟩ := announce_cases h.bounded server.interval request source
      fun entry hentry => by rw [h.address _ _ entry hentry]
  refine ⟨hbounded, fun hash key entry hentry => ?_, fun hash key entry hentry => ?_,
    fun hash key entry hentry => ?_⟩
  all_goals rcases hfind hash key entry hentry with ⟨hevent, hport, rfl, rfl, rfl⟩ | ⟨hold, hother⟩
  · rfl
  · exact h.address hash key entry hold
  · exact hport
  · exact h.port hash key entry hold
  · exact ⟨history, request, clock.now, [], rfl, rfl, rfl, rfl, hevent, rfl, nofun⟩
  · refine (h.announced hash key entry hold).append fun output hin hstops => ?_
    cases mem_singleton.mp hin
    obtain ⟨hevent, hhash, rfl⟩ := hstops
    exact hother ⟨hevent, h.port hash _ entry hold, hhash.symm, rfl⟩

variable {around : Surroundings}

/-- An announce keeps the invariant and gives out announced addresses only. -/
theorem inv_handleAnnounce (h : Inv server.interval store history) (request : Announce)
    {datagrams : List SocketAddr → List Output}
    (hdatagrams : ∀ addresses, ∀ output ∈ datagrams addresses,
      ∃ destination bytes, output = .datagram destination bytes) :
    Inv server.interval (server.handleAnnounce store request source around datagrams).1
        (history ++ (server.handleAnnounce store request source around datagrams).2) ∧
      ∀ output ∈ (server.handleAnnounce store request source around datagrams).2,
        output.Proper server.interval
          (history ++ (server.handleAnnounce store request source around datagrams).2) := by
  have hinv := inv_announce h request source around.clock
  obtain ⟨-, -, haddresses⟩ := announce_cases h.bounded server.interval request source
      fun entry hentry => by rw [h.address _ _ entry hentry]
  unfold handleAnnounce
  generalize store.announce server.interval request source around.clock = result at hinv haddresses
  obtain ⟨_ | addresses, next⟩ := result
  · refine ⟨hinv, fun output hin => ?_⟩
    cases mem_singleton.mp hin
    trivial
  dsimp only at hinv haddresses ⊢
  split
  · have hquiet : ∀ output ∈ datagrams addresses ++
        [.peers request source around.clock.now addresses], ∀ hash key, ¬output.Stops hash key := by
      intro output hin hash key
      rcases mem_append.mp hin with hin | hin
      · obtain ⟨destination, bytes, rfl⟩ := hdatagrams addresses output hin
        exact id
      · cases mem_singleton.mp hin
        exact id
    have hall := hinv.append hquiet
    rw [append_assoc, singleton_append] at hall
    refine ⟨hall, fun output hin => ?_⟩
    rcases mem_cons.mp hin with rfl | hin
    · trivial
    rcases mem_append.mp hin with hin | hin
    · obtain ⟨destination, bytes, rfl⟩ := hdatagrams addresses output hin
      trivial
    cases mem_singleton.mp hin
    rcases haddresses addresses rfl with rfl | rfl
    · exact ⟨Nat.zero_le _, nofun⟩
    refine ⟨length_take_le _ _, fun address haddress => ?_⟩
    obtain ⟨key, entry, hentry, rfl, hpeer, hliving, hfamily⟩ := mem_peersFor haddress
    refine ⟨hfamily, key.1, entry.expires, hpeer, hliving, ?_⟩
    rw [hall.address _ key entry hentry]
    exact hall.announced _ key entry hentry
  · refine ⟨hinv, fun output hin => ?_⟩
    cases mem_singleton.mp hin
    trivial

/-! ## Sources without a cookie -/

/-- A datagram with a cookie of its source comes after that cookie was sent there. -/
def Unforged (server : Server) (history : List Output) : Event → Prop
  | .udp packet source _ _ _ => field packet 8 4 = 1 → ∀ minute,
      (server.cookie source minute).toNat = field packet 0 8 → .cookie source minute ∈ history
  | .http .. => True

/-- A datagram of a source without a cookie changes nothing, and what is sent back is not longer
than the datagram, unless it answers a STUN binding request. -/
def Harmless (packet : Bytes) (source : SocketAddr) (store : Store)
    (next : Store × List Output) : Prop :=
  next.1 = store ∧ ∀ output ∈ next.2, (∃ minute, output = .cookie source minute) ∨
    ∃ bytes, output = .datagram source bytes ∧
      (bytes.length ≤ packet.length ∨
        (packet.drop 4).take 4 = Binding.MAGIC ∧ bytes.length = 28 + source.ip.octets.length)

theorem length_octets (ip : IpAddr) : ip.octets.length ≤ 16 := by
  cases ip with
  | v4 address => rw [IpAddr.octets, length_beBytes]; decide
  | v6 address => rw [IpAddr.octets, length_beBytes]

variable {packet : Bytes}

theorem length_connectReply {source : SocketAddr} {minute : Nat}
    (h : 16 ≤ packet.length) :
    (server.connectReply packet source minute).length ≤ packet.length := by
  have htransaction : ((packet.drop 12).take 4).length = 4 := by
    rw [length_take, length_drop]
    omega
  have hoctets := length_octets source.ip
  have hmagic : ECHO_MAGIC.length = 4 := rfl
  unfold connectReply
  split
  · next hecho =>
    simp only [length_append, length_beBytes, htransaction, hmagic, length_singleton]
    omega
  · simp only [length_append, length_beBytes, htransaction, length_nil]
    omega

theorem length_response {source : SocketAddr} {alternate changePort : Bool}
    {reply : Bytes} (h : Binding.response packet source alternate = some (reply, changePort)) :
    reply.length = 28 + source.ip.octets.length := by
  unfold Binding.response at h
  split at h
  · cases h
  next hvalid =>
  obtain ⟨found, -, hreply⟩ := bind_eq_some_iff.mp h
  split at hreply
  · cases hreply
  cases hreply
  have htransaction : ((packet.drop 4).take 16).length = 16 := by
    rw [length_take, length_drop]
    omega
  have hoctets := length_octets source.ip
  simp only [length_append, length_beBytes, htransaction, length_zipWith, length_cons, length_nil]
  omega

theorem serveUdp_cases (source : SocketAddr) (alternate : Bool) (unixSeconds : Nat) :
    Harmless packet source store
        (server.serveUdp store packet source alternate unixSeconds around) ∨
      field packet 8 4 = 1 ∧ server.hasValidCookie packet source (unixSeconds / 60) = true ∧
        server.serveUdp store packet source alternate unixSeconds around =
          server.handleAnnounce store (parseAnnounce packet) source.ip around fun addresses =>
            [.datagram source (server.announceReply packet (parseAnnounce packet) addresses)] := by
  unfold serveUdp
  split
  · next hmagic =>
    refine .inl ?_
    split
    · next reply changePort hreply =>
      refine ⟨rfl, fun output hin => ?_⟩
      split at hin
      · exact .inr ⟨reply, mem_singleton.mp hin, .inr ⟨hmagic.2, length_response hreply⟩⟩
      · cases hin
    · exact ⟨rfl, nofun⟩
  unfold udpResponse
  dsimp only
  split
  · exact .inl ⟨rfl, nofun⟩
  next hlong =>
  split
  · refine .inl ⟨rfl, fun output hin => ?_⟩
    split at hin
    · rcases mem_cons.mp hin with rfl | hin
      · exact .inr ⟨_, rfl, .inl (length_connectReply (by omega))⟩
      · exact .inl ⟨_, mem_singleton.mp hin⟩
    · cases hin
  split
  · exact .inl ⟨rfl, nofun⟩
  next hvalid =>
  split
  · exact .inl ⟨rfl, nofun⟩
  split
  · push Not at hvalid
    exact .inr ⟨hvalid.1, by simpa using hvalid.2.2, rfl⟩
  · exact .inl ⟨rfl, nofun⟩

/-! ## Every history -/

theorem inv_step (h : Inv server.interval store history) (event : Event) :
    Inv server.interval (server.step store event).1 (history ++ (server.step store event).2) ∧
      ∀ output ∈ (server.step store event).2,
        output.Proper server.interval (history ++ (server.step store event).2) := by
  cases event with
  | udp packet source alternate unixSeconds around =>
    simp only [step]
    rcases serveUdp_cases source alternate unixSeconds with
      ⟨hstore, houtputs⟩ | ⟨-, -, hannounce⟩
    · rw [hstore]
      refine ⟨h.append fun output hin hash key => ?_, fun output hin => ?_⟩
      all_goals rcases houtputs output hin with ⟨minute, rfl⟩ | ⟨bytes, rfl, -⟩
      · exact id
      · exact id
      · trivial
      · trivial
    · rw [hannounce]
      exact inv_handleAnnounce h _ fun _ output hin => ⟨_, _, mem_singleton.mp hin⟩
  | http request source around =>
    have hquiet : Inv server.interval store (history ++ []) := by rwa [append_nil]
    simp only [step, httpResponse]
    split
    · split
      · exact inv_handleAnnounce h _ fun _ output hin => nomatch hin
      · exact ⟨hquiet, nofun⟩
    · exact ⟨hquiet, nofun⟩

/-- What is said of a step: the counter and the limits are right afterwards, the addresses of a
reply were announced, and a datagram of a source without a cookie is harmless. -/
structure Safe (server : Server) (store : Store) (history : List Output) (event : Event) :
    Prop where
  bounded : (server.step store event).1.Bounded
  announced : ∀ output ∈ (server.step store event).2,
    output.Proper server.interval (history ++ (server.step store event).2)
  harmless : ∀ packet source alternate unixSeconds around,
    event = .udp packet source alternate unixSeconds around →
      (∀ minute, Output.cookie source minute ∉ history) →
        Harmless packet source store (server.step store event)

theorem safe_step (h : Inv server.interval store history) {event : Event}
    (hunforged : server.Unforged history event) : server.Safe store history event := by
  obtain ⟨hinv, hproper⟩ := inv_step h event
  refine ⟨hinv.bounded, hproper, ?_⟩
  rintro packet source alternate unixSeconds around rfl hnone
  rcases serveUdp_cases source alternate unixSeconds with
    hharmless | ⟨haction, hvalid, -⟩
  · exact hharmless
  · -- some cookie of the source would be in the packet
    obtain ⟨age, -, hcookie⟩ := any_eq_true.mp hvalid
    exact absurd (hunforged haction _ (beq_iff_eq.mp hcookie)) (hnone _)

theorem inv_empty (interval start : Nat) : Inv interval (empty start) [] where
  bounded := ⟨rfl, Nat.zero_le _, nofun, Nat.zero_le _⟩
  address _ _ _ h := nomatch h
  port _ _ _ h := nomatch h
  announced _ _ _ h := nomatch h

def sample : Server where
  interval := 1800
  cookie _ minute := if minute = 1 then 99 else 0
  authorized _ := true
  urlData _ := some ""
  parseQuery _ := none

def always : Surroundings := ⟨⟨0, 0, 0, 0⟩, true, true⟩

def announcePacket (peer : UInt8) (event numwant : Nat) : Bytes :=
  beBytes 8 99 ++ beBytes 4 1 ++ beBytes 4 7 ++ replicate 20 1 ++ replicate 20 peer ++
    replicate 24 0 ++ beBytes 4 event ++ replicate 8 0 ++ beBytes 4 numwant ++ [0, 9]

def send (packet : Bytes) : Event := .udp packet ⟨.v4 1, 5⟩ false 60 always

/-- A source asks for a cookie and announces peers; the last is told of the first. -/
def exchange (later : List Bytes) : List Event :=
  [send (beBytes 8 CONNECT_MAGIC ++ beBytes 8 7), send (announcePacket 1 0 5)] ++ later.map send

theorem unforged_announcePacket {history : List Output} {peer : UInt8}
    (hfield : field (announcePacket peer 0 5) 0 8 = 99)
    (hsent : Output.cookie ⟨.v4 1, 5⟩ 1 ∈ history) :
    sample.Unforged history (send (announcePacket peer 0 5)) := by
  intro _ minute hminute
  have hcookie : (if minute = 1 then (99 : UInt64) else 0).toNat = 99 := hminute.trans hfield
  have hfirst : minute = 1 := by
    by_contra hother
    rw [if_neg hother] at hcookie
    cases hcookie
  exact hfirst ▸ hsent

def bindingRequest : Bytes := [0, 1, 0, 0] ++ Binding.MAGIC ++ replicate 12 0

end Server

end LowerTier.Tracker
