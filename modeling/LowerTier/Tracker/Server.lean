import LowerTier.ProofSupport.ByteFields
import LowerTier.ProofSupport.KeyedMap
import LowerTier.ProofSupport.Trace

/-!
# The tracker (`lowertier-tracker/src/server.rs`, `binding.rs`)

A tracker stores, for every swarm, the addresses from which peers have announced themselves, and
answers an announce with the addresses of others.  Over UDP an announce must carry a cookie that was
sent to its source before.  The store is locked for one call of `announce` at a time.  The admission
counters stand apart from the stored peers and are shared with other tasks, so their verdicts are
inputs; so are the readings of the clocks.
-/

namespace LowerTier.Tracker

open ProofSupport ProofSupport.ByteString ProofSupport.ByteFields

inductive IpAddr where
  | v4 (address : UInt32)
  | v6 (address : BitVec 128)
deriving DecidableEq

def IpAddr.isIpv6 : IpAddr → Bool
  | .v4 _ => false
  | .v6 _ => true

def IpAddr.octets : IpAddr → Bytes
  | .v4 address => beBytes 4 address.toNat
  | .v6 address => beBytes 16 address.toNat

structure SocketAddr where
  ip : IpAddr
  port : UInt16
deriving DecidableEq

/-- The place of an address in the derived order. -/
def SocketAddr.rank (address : SocketAddr) : Nat :=
  ((if address.ip.isIpv6 then 2 ^ 128 else 0) + beValue address.ip.octets) * 2 ^ 16 +
    address.port.toNat

abbrev Id := Bytes

structure Announce where
  hash : Id
  peer : Id
  port : UInt16
  event : Nat
  left : Nat
  numwant : Int
deriving DecidableEq

def MAX_PEERS : Nat := 16
def MAX_SWARMS : Nat := 4096
def MAX_ENTRIES : Nat := 65536
def MAX_SWARM_ENTRIES : Nat := 256
def IDLE_ANNOUNCE_INTERVAL_SECS : Nat := 30

def Announce.limit (announce : Announce) : Nat :=
  if announce.numwant < 0 then MAX_PEERS else min announce.numwant.toNat MAX_PEERS

def second : Nat := 1000000000

def announceInterval (interval : Nat) (announce : Announce) : Nat :=
  if announce.left = 2 then max interval IDLE_ANNOUNCE_INTERVAL_SECS else interval

def lifetime (interval : Nat) (announce : Announce) : Nat :=
  max (announceInterval interval announce * 3) 10 * second

/-! ## The store -/

structure Entry where
  address : SocketAddr
  expires : Nat
deriving DecidableEq

abbrev Swarm := KeyedMap (Id × SocketAddr) Entry

structure Store where
  swarms : KeyedMap Id Swarm
  entries : Nat
  cleanup : Nat

/-- The readings of the clocks during an announce: the time of the announce, the two times at which
the age of the last clean-up is asked for, and the seconds by which the reply is rotated. -/
structure Clock where
  now : Nat
  cleanupCheck : Nat
  capacityCheck : Nat
  unixSeconds : Nat

namespace Store

variable (store : Store)

def empty (start : Nat) : Store := ⟨∅, 0, start⟩

variable (hash : Id)

def swarm : Swarm := (store.swarms.lookup hash).getD ∅

def setSwarm (swarm : Swarm) (entries : Nat) : Store :=
  { store with swarms := store.swarms.insert hash swarm, entries := entries }

def dropExpired (now : Nat) (swarm : Swarm) : Swarm := swarm.retain fun entry => now < entry.expires

def capacityReached : Bool :=
  MAX_ENTRIES ≤ store.entries || MAX_SWARMS ≤ store.swarms.size ||
    (store.swarms.lookup hash).any fun swarm => MAX_SWARM_ENTRIES ≤ swarm.size

def cleanUp (now : Nat) : Store :=
  let swarms := (store.swarms.mapValues (dropExpired now)).retain fun swarm => swarm.size != 0
  { swarms := swarms, entries := swarms.sumBy KeyedMap.size, cleanup := now }

def expire (now : Nat) : Store :=
  match store.swarms.lookup hash with
  | none => store
  | some swarm =>
    let kept := dropExpired now swarm
    store.setSwarm hash kept (store.entries - (swarm.size - kept.size))

def sweep (clock : Clock) : Store :=
  let due := 30 * second ≤ clock.cleanupCheck - store.cleanup ∨
    store.capacityReached hash = true ∧ second ≤ clock.capacityCheck - store.cleanup
  (if due then store.cleanUp clock.now else store).expire hash clock.now

def stop (key : Id × SocketAddr) (source : IpAddr) : Store :=
  match store.swarms.lookup hash with
  | none => store
  | some swarm =>
    if (swarm.lookup key).any (·.address.ip == source) then
      store.setSwarm hash (swarm.erase key) (store.entries - 1)
    else store

def withSwarm : Option Store :=
  if (store.swarms.lookup hash).isSome then some store
  else if store.swarms.size < MAX_SWARMS then some (store.setSwarm hash ∅ store.entries)
  else none

def put (key : Id × SocketAddr) (entry : Entry) : Store :=
  let swarm := store.swarm hash
  store.setSwarm hash (swarm.insert key entry)
    (if (swarm.lookup key).isNone then store.entries + 1 else store.entries)

def peersFor (announce : Announce) (source : IpAddr) (clock : Clock) : List SocketAddr :=
  let others := ((store.swarm announce.hash).entries.filter fun entry =>
    entry.1.1 != announce.peer && decide (clock.now < entry.2.expires) &&
      entry.2.address.ip.isIpv6 == source.isIpv6).map (·.2.address)
  let sorted := others.mergeSort fun a b => a.rank ≤ b.rank
  (sorted.rotate (clock.unixSeconds % sorted.length)).take announce.limit

/-- `announce`: the addresses of the reply, unless it fails, and the store. -/
def announce (interval : Nat) (announce : Announce) (source : IpAddr) (clock : Clock) :
    Option (List SocketAddr) × Store :=
  if announce.port = 0 ∨ 3 < announce.event then (none, store)
  else
    let address : SocketAddr := ⟨source, announce.port⟩
    let key := (announce.peer, address)
    let swept := store.sweep announce.hash clock
    if announce.event = 3 then (some [], swept.stop announce.hash key source)
    else
      match swept.withSwarm announce.hash with
      | none => (none, swept)
      | some opened =>
        let swarm := opened.swarm announce.hash
        if (swarm.lookup key).isNone &&
            !(opened.entries < MAX_ENTRIES && swarm.size < MAX_SWARM_ENTRIES) then
          (none, opened)
        else
          let stored := opened.put announce.hash key
            ⟨address, clock.now + lifetime interval announce⟩
          (some (stored.peersFor announce source clock), stored)

end Store

namespace Binding

def MAGIC : Bytes := [0x21, 0x12, 0xa4, 0x42]
def MAX_MESSAGE : Nat := 20 + 512

/-- The attributes behind the header: whether a change of the port is asked for.  Every turn moves
the offset by four bytes or more. -/
def attributes (packet : Bytes) (alternate : Bool) : Nat → Nat → Bool → Option Bool
  | 0, _, _ => none
  | fuel + 1, offset, changePort =>
    if packet.length ≤ offset then
      if offset = packet.length then some changePort else none
    else if packet.length < offset + 4 then none
    else
      let kind := field packet offset 2
      let length := field packet (offset + 2) 2
      let next := (offset + 4 + length + 3) / 4 * 4
      if packet.length < offset + 4 + length then none
      else if kind = 3 then
        let flags := field packet (offset + 4) 4
        if length ≠ 4 ∨ (flags ≠ 0 ∧ flags ≠ 2) ∨ (flags ≠ 0 ∧ !alternate) then none
        else attributes packet alternate fuel next (flags == 2)
      else if kind < 0x8000 ∧ kind ≠ 0x26 then none
      else attributes packet alternate fuel next changePort

def response (packet : Bytes) (source : SocketAddr) (alternate : Bool) : Option (Bytes × Bool) :=
  if packet.length < 20 ∨ MAX_MESSAGE < packet.length ∨ packet.take 2 ≠ [0, 1] ∨
      (packet.drop 4).take 4 ≠ MAGIC ∨ field packet 2 2 ≠ packet.length - 20 ∨
      (packet.length - 20) % 4 ≠ 0 then none
  else
    (attributes packet alternate packet.length 20 false).bind fun changePort =>
      if source.port = 0 then none
      else
        let address := source.ip.octets
        let length := 4 + address.length
        some ([1, 1] ++ beBytes 2 (length + 4) ++ (packet.drop 4).take 16 ++
          [0, 0x20, 0, UInt8.ofNat length, 0, if source.ip.isIpv6 then 2 else 1] ++
          beBytes 2 (source.port ^^^ 0x2112).toNat ++
          address.zipWith (· ^^^ ·) ((packet.drop 4).take 16), changePort)

end Binding

/-! ## Requests -/

/-- What the handling of requests depends on besides the store.  The cookie is a truncated HMAC of
the source and a minute under the secret of the server; nothing depends on how the option bytes of a
datagram and the query of an HTTP request are read and how a pass key is checked. -/
structure Server where
  interval : Nat
  cookie : SocketAddr → Nat → UInt64
  authorized : Option String → Bool
  urlData : Bytes → Option String
  parseQuery : String → Option Announce

structure Surroundings where
  clock : Clock
  admitted : Bool
  responded : Bool

inductive Output where
  /-- An announce has come in from an address at a time. -/
  | announced (announce : Announce) (source : IpAddr) (now : Nat)
  | datagram (destination : SocketAddr) (bytes : Bytes)
  /-- The datagram before holds the cookie of a minute. -/
  | cookie (destination : SocketAddr) (minute : Nat)
  /-- The addresses in a reply to an announce. -/
  | peers (announce : Announce) (source : IpAddr) (now : Nat) (addresses : List SocketAddr)
deriving DecidableEq

def CONNECT_MAGIC : Nat := 0x41727101980
def ECHO_MAGIC : Bytes := [0x4c, 0x54, 0x4f, 0x31]

def queryOf (target : String) : Option String :=
  match target.splitOn "?" with
  | _ :: part :: rest => some ("?".intercalate (part :: rest))
  | _ => none

variable (packet : Bytes)

def parseAnnounce : Announce where
  hash := (packet.drop 16).take 20
  peer := (packet.drop 36).take 20
  port := UInt16.ofNat (field packet 96 2)
  event := field packet 80 4
  left := field packet 64 8
  numwant := (BitVec.ofNat 32 (field packet 92 4)).toInt

def appendCompact (bytes : Bytes) (address : SocketAddr) : Bytes :=
  bytes ++ address.ip.octets ++ beBytes 2 address.port.toNat

namespace Server

variable (server : Server)

def connectReply (source : SocketAddr) (minute : Nat) : Bytes :=
  beBytes 4 0 ++ (packet.drop 12).take 4 ++ beBytes 8 (server.cookie source minute).toNat ++
    if (packet.drop 16).take 4 = ECHO_MAGIC ∧ 48 ≤ packet.length then
      ECHO_MAGIC ++ [if source.ip.isIpv6 then 6 else 4] ++ beBytes 2 source.port.toNat ++
        source.ip.octets
    else []

def announceReply (announce : Announce) (peers : List SocketAddr) : Bytes :=
  peers.foldl appendCompact (beBytes 4 1 ++ (packet.drop 12).take 4 ++
    beBytes 4 (announceInterval server.interval announce) ++ beBytes 8 0)

/-- Whether a datagram carries a cookie of its source for this minute or one of the two before. -/
def hasValidCookie (source : SocketAddr) (minute : Nat) : Bool :=
  [0, 1, 2].any fun age => (server.cookie source (minute - age)).toNat == field packet 0 8

variable (store : Store)

/-- An announce, with the datagrams that go out if the reply is admitted. -/
def handleAnnounce (announce : Announce) (source : IpAddr) (around : Surroundings)
    (datagrams : List SocketAddr → List Output) : Store × List Output :=
  let received := Output.announced announce source around.clock.now
  match store.announce server.interval announce source around.clock with
  | (none, next) => (next, [received])
  | (some addresses, next) =>
    (next, received :: if around.responded then
      datagrams addresses ++ [.peers announce source around.clock.now addresses] else [])

def udpResponse (packet : Bytes) (source : SocketAddr) (unixSeconds : Nat) (around : Surroundings) :
    Store × List Output :=
  let minute := unixSeconds / 60
  if packet.length < 16 ∨ !around.admitted then (store, [])
  else if field packet 8 4 = 0 ∧ field packet 0 8 = CONNECT_MAGIC then
    (store, if around.responded then
      [.datagram source (server.connectReply packet source minute), .cookie source minute] else [])
  else if field packet 8 4 ≠ 1 ∨ packet.length < 98 ∨
      !server.hasValidCookie packet source minute then
    (store, [])
  else
    match server.urlData packet with
    | none => (store, [])
    | some target =>
      if server.authorized (queryOf target) then
        let announce := parseAnnounce packet
        server.handleAnnounce store announce source.ip around fun addresses =>
          [.datagram source (server.announceReply packet announce addresses)]
      else (store, [])

def serveUdp (packet : Bytes) (source : SocketAddr) (alternate : Bool) (unixSeconds : Nat)
    (around : Surroundings) : Store × List Output :=
  if 20 ≤ packet.length ∧ (packet.drop 4).take 4 = Binding.MAGIC then
    match Binding.response packet source alternate with
    | some (reply, _) =>
      (store, if around.admitted && around.responded then [.datagram source reply] else [])
    | none => (store, [])
  else server.udpResponse store packet source unixSeconds around

structure HttpRequest where
  isGetAnnounce : Bool
  query : Option String

def httpAnnounce (request : HttpRequest) : Option Announce := do
  guard request.isGetAnnounce
  let query ← request.query
  guard (server.authorized (some query))
  server.parseQuery query

/-- `http_response`; a failed request changes nothing. -/
def httpResponse (request : HttpRequest) (source : Option SocketAddr) (around : Surroundings) :
    Store × List Output :=
  match source, server.httpAnnounce request with
  | some source, some announce =>
    if around.admitted then
      server.handleAnnounce store announce source.ip around fun _ => []
    else (store, [])
  | _, _ => (store, [])

inductive Event where
  | udp (packet : Bytes) (source : SocketAddr) (alternate : Bool) (unixSeconds : Nat)
      (around : Surroundings)
  | http (request : HttpRequest) (source : Option SocketAddr) (around : Surroundings)

def step : Event → Store × List Output
  | .udp packet source alternate unixSeconds around =>
    server.serveUdp store packet source alternate unixSeconds around
  | .http request source around => server.httpResponse store request source around

end Server

end LowerTier.Tracker
