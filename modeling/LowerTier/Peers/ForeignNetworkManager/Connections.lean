import LowerTier.Peers.OspfRoute.PeerInfo

/-!
# Connections of foreign peers (`peers/foreign_network_manager.rs`)

`add_peer_conn` records the peer for its network before it checks the peer, and takes this back only
if the same call has created the network.  A peer that is turned away by a network that exists stays
recorded for it.
-/

namespace LowerTier.Peers.ForeignNetworkManager

open Function Finset AList ProofSupport ProofSupport.ByteString Tunnel
open Peers.OspfRoute (PeerIdentityType)

def MAX_DIRECT_CONNS_PER_PEER_IN_FOREIGN_NETWORK : Nat := 3

structure NetworkIdentity where
  networkName : String
  networkSecret : Option String
  networkSecretDigest : Option Bytes
deriving DecidableEq

/-- `NetworkIdentityWithOnlyDigest`, by which identities are compared. -/
def NetworkIdentity.withOnlyDigest (digest : String → String → Bytes) (identity : NetworkIdentity) :
    String × Option Bytes :=
  (identity.networkName,
    identity.networkSecretDigest <|> identity.networkSecret.map (digest identity.networkName))

def networkSecretDigestIsEmpty (identity : NetworkIdentity) : Bool :=
  identity.networkSecretDigest.all (·.all (· == 0))

structure PeerConn where
  peerId : PeerId
  myPeerId : PeerId
  network : NetworkIdentity
  identityType : PeerIdentityType
  noiseRemoteStaticPubkey : Bytes
  isHolePunched : Bool
deriving DecidableEq

structure Conn where
  isHolePunched : Bool
  isClosed : Bool
deriving DecidableEq

/-- A `Peer`, with the epoch of its instance. -/
structure Peer where
  epoch : Nat
  identityType : Option PeerIdentityType
  publicKey : Option Bytes
  conns : List Conn
deriving DecidableEq

structure ForeignNetworkEntry where
  network : NetworkIdentity
  myPeerId : PeerId
  peerMap : KeyedMap PeerId Peer
  nextPeerEpoch : Nat
  locked : Bool
  /-- The peers of `PeerRemoved` events that the event handler has not processed. -/
  removed : List PeerId

/-- The entries are numbered in the order of their creation. -/
structure Data where
  entries : Nat → ForeignNetworkEntry
  nextEntry : Nat
  networkPeerMaps : KeyedMap String Nat
  peerNetworkMap : Finset (PeerId × String)

structure Surroundings where
  digest : String → String → Bytes
  inWhitelist : String → Bool
  relayAllPeerRpc : Bool
  isPubkeyTrusted : String → Bytes → Bool
  admitsConnection : Bool

inductive AddError where
  | notInWhitelist | notEstablished | myPeerIdMismatch | invalidIdentityType | notTrusted
  | tooManyDirectConns | admissionFull | identityTypeMismatch | publicKeyMismatch | stale
deriving DecidableEq

namespace Data

variable (data : Data)

def removePeer (peer : PeerId) (networkName : String) : Data :=
  { data with
    peerNetworkMap := data.peerNetworkMap.erase (peer, networkName)
    networkPeerMaps :=
      if (data.networkPeerMaps.lookup networkName).any fun entry =>
          (data.entries entry).peerMap.size = 0 then
        data.networkPeerMaps.erase networkName
      else data.networkPeerMaps }

/-- The entry of the network and whether it is new. -/
def getOrInsertEntry (identity : NetworkIdentity) (myPeerId dstPeerId : PeerId) :
    (Nat × Bool) × Data :=
  let listed := insert (dstPeerId, identity.networkName) data.peerNetworkMap
  match data.networkPeerMaps.lookup identity.networkName with
  | some entry => ((entry, false), { data with peerNetworkMap := listed })
  | none =>
    ((data.nextEntry, true),
      { entries := update data.entries data.nextEntry ⟨identity, myPeerId, ∅, 0, false, []⟩
        nextEntry := data.nextEntry + 1
        networkPeerMaps := data.networkPeerMaps.insert identity.networkName data.nextEntry
        peerNetworkMap := listed })

def admitConn (conn : PeerConn) (around : Surroundings) : Except AddError ((Nat × Bool) × Data) :=
  if !around.inWhitelist conn.network.networkName && !around.relayAllPeerRpc then
    .error .notInWhitelist
  else if networkSecretDigestIsEmpty conn.network &&
      (data.networkPeerMaps.lookup conn.network.networkName).isNone then
    .error .notEstablished
  else .ok (data.getOrInsertEntry conn.network conn.myPeerId conn.peerId)

def setEntry (number : Nat) (entry : ForeignNetworkEntry) : Data :=
  { data with entries := update data.entries number entry }

end Data

namespace ForeignNetworkEntry

variable (entry : ForeignNetworkEntry)

def isCredentialPubkeyTrusted (pubkey : Bytes) (around : Surroundings) : Bool :=
  pubkey.length == 32 && around.isPubkeyTrusted entry.network.networkName pubkey

variable (conn : PeerConn) (around : Surroundings)

def sameIdentity : Bool :=
  entry.network.withOnlyDigest around.digest == conn.network.withOnlyDigest around.digest

def credentialPeerTrusted : Bool :=
  networkSecretDigestIsEmpty conn.network &&
    entry.isCredentialPubkeyTrusted conn.noiseRemoteStaticPubkey around

def checkIdentity : Except AddError Unit :=
  let credentialIdentityMismatch :=
    entry.credentialPeerTrusted conn around && conn.identityType == .admin
  if entry.myPeerId ≠ conn.myPeerId then .error .myPeerIdMismatch
  else if credentialIdentityMismatch then .error .invalidIdentityType
  else if !(entry.sameIdentity conn around || entry.credentialPeerTrusted conn around) then
    .error .notTrusted
  else .ok ()

def checkDirectConns (newAdded : Bool) : Except AddError Unit :=
  if !newAdded && (entry.peerMap.lookup conn.peerId).any fun peer =>
      MAX_DIRECT_CONNS_PER_PEER_IN_FOREIGN_NETWORK ≤
        (peer.conns.filter (!·.isHolePunched)).length then
    .error .tooManyDirectConns
  else .ok ()

/-- The part of `add_new_peer_conn` up to its await: the peer and the epoch of its instance. -/
def insertPeer :
    Except AddError (Nat × ForeignNetworkEntry) :=
  if !around.admitsConnection then .error .admissionFull
  else
    match entry.peerMap.lookup conn.peerId with
    | some peer => .ok (peer.epoch, entry)
    | none =>
      .ok (entry.nextPeerEpoch, { entry with
        peerMap := entry.peerMap.insert conn.peerId ⟨entry.nextPeerEpoch, none, none, []⟩
        nextPeerEpoch := entry.nextPeerEpoch + 1 })

/-- `Peer::add_peer_conn`.  Every connection comes as a `SharedNode`. -/
def joinPeer (peer : Peer) (conn : PeerConn) : Except AddError Unit × Peer :=
  if peer.identityType.any (· ≠ .sharedNode) then (.error .identityTypeMismatch, peer)
  else
    let peer := { peer with identityType := some .sharedNode }
    if peer.publicKey.any (· ≠ conn.noiseRemoteStaticPubkey) then (.error .publicKeyMismatch, peer)
    else (.ok (), { peer with
      publicKey := some conn.noiseRemoteStaticPubkey
      conns := peer.conns ++ [⟨conn.isHolePunched, false⟩] })

def finishPeer (epoch : Nat) : Except AddError Unit × ForeignNetworkEntry :=
  match (entry.peerMap.lookup conn.peerId).filter (·.epoch == epoch) with
  | none => (.error .stale, entry)
  | some peer =>
    match joinPeer peer conn with
    | (.error error, peer) =>
      if peer.conns.any (!·.isClosed) then
        (.error error, { entry with peerMap := entry.peerMap.insert conn.peerId peer })
      else (.error error, { entry with peerMap := entry.peerMap.erase conn.peerId })
    | (.ok (), peer) => (.ok (), { entry with peerMap := entry.peerMap.insert conn.peerId peer })

end ForeignNetworkEntry

namespace Data

variable (data : Data)

/-- `add_peer_conn` with nothing in between. -/
def addPeerConn (conn : PeerConn) (around : Surroundings) : Except AddError Unit × Data :=
  match data.admitConn conn around with
  | .error error => (.error error, data)
  | .ok ((number, newAdded), data) =>
    let rollback (error : AddError) (data : Data) : Except AddError Unit × Data :=
      (.error error,
        if newAdded then data.removePeer conn.peerId conn.network.networkName else data)
    let entry := data.entries number
    match entry.checkIdentity conn around with
    | .error error => rollback error data
    | .ok () =>
      match entry.checkDirectConns conn newAdded with
      | .error error => rollback error data
      | .ok () =>
        match entry.insertPeer conn around with
        | .error error => rollback error data
        | .ok (epoch, entry) =>
          match entry.finishPeer conn epoch with
          | (.error error, entry) => rollback error (data.setEntry number entry)
          | (.ok (), entry) => (.ok (), data.setEntry number entry)

def registered : Set String := {name | (data.networkPeerMaps.lookup name).isSome}

/-- The call ends before the entry is looked up. -/
def TurnedAway (conn : PeerConn) (around : Surroundings) : Prop :=
  around.inWhitelist conn.network.networkName = false ∧ around.relayAllPeerRpc = false ∨
    networkSecretDigestIsEmpty conn.network = true ∧ conn.network.networkName ∉ data.registered

/-- The entry of a registered network exists and is the network's own. -/
def Numbered : Prop :=
  ∀ name number, data.networkPeerMaps.lookup name = some number →
    number < data.nextEntry ∧ (data.entries number).network.networkName = name

/-- The pairs listed are those of the peers in the maps of registered networks. -/
def Listed : Prop :=
  ∀ peer name, (peer, name) ∈ data.peerNetworkMap ↔
    ∃ number, data.networkPeerMaps.lookup name = some number ∧
      peer ∈ (data.entries number).peerMap

end Data

namespace ForeignNetworkEntry

/-- The connection gets to its peer: it is meant for this node, comes from the network or with a
trusted credential that does not pose as an admin, and there is room for it. -/
def Reaches (entry : ForeignNetworkEntry) (peer : Peer) (conn : PeerConn)
    (around : Surroundings) : Prop :=
  entry.myPeerId = conn.myPeerId ∧
    (entry.credentialPeerTrusted conn around = true → conn.identityType ≠ .admin) ∧
    (entry.sameIdentity conn around = true ∨ entry.credentialPeerTrusted conn around = true) ∧
    (peer.conns.filter (!·.isHolePunched)).length < MAX_DIRECT_CONNS_PER_PEER_IN_FOREIGN_NETWORK ∧
    around.admitsConnection = true

variable {entry inserted left : ForeignNetworkEntry} {peer joined : Peer} {conn : PeerConn}
  {around : Surroundings} {error : AddError} {epoch : Nat}

theorem reaches_iff (hpeer : entry.peerMap.lookup conn.peerId = some peer) :
    entry.Reaches peer conn around ↔ entry.checkIdentity conn around = .ok () ∧
      entry.checkDirectConns conn false = .ok () ∧ around.admitsConnection = true := by
  unfold Reaches checkIdentity checkDirectConns
  rw [hpeer, Option.any_some]
  grind

theorem joinPeer_conns (h : joinPeer peer conn = (.error error, joined)) :
    joined.conns = peer.conns := by
  unfold joinPeer at h
  grind

/-- A peer with an open connection stays in the map, and so does one that the call does not
reach. -/
structure Left (entry left : ForeignNetworkEntry) (conn : PeerConn) (around : Surroundings) :
    Prop where
  own : conn.peerId ∈ left.peerMap ↔ ∃ peer, entry.peerMap.lookup conn.peerId = some peer ∧
    (peer.conns.any (!·.isClosed) = true ∨ ¬entry.Reaches peer conn around)
  others : ∀ peer ≠ conn.peerId, peer ∈ left.peerMap ↔ peer ∈ entry.peerMap

theorem Left.of_unreached (h : ∀ peer, entry.peerMap.lookup conn.peerId = some peer →
    ¬entry.Reaches peer conn around) : Left entry entry conn around where
  own := by
    rw [← lookup_isSome, Option.isSome_iff_exists]
    exact exists_congr fun peer => ⟨fun hpeer => ⟨hpeer, .inr (h peer hpeer)⟩, And.left⟩
  others _ _ := Iff.rfl

theorem finishPeer_of_none (hnone : entry.peerMap.lookup conn.peerId = none)
    (hinsert : entry.insertPeer conn around = .ok (epoch, inserted)) :
    (inserted.finishPeer conn epoch).1 = .ok () := by
  unfold insertPeer at hinsert
  rw [hnone] at hinsert
  split at hinsert
  · cases hinsert
  · cases hinsert
    unfold finishPeer
    rw [lookup_insert, Option.filter_some, beq_self_eq_true, if_pos rfl]
    rfl

theorem Left.of_finishPeer (hreached : ∀ peer, entry.peerMap.lookup conn.peerId = some peer →
      entry.Reaches peer conn around)
    (hinsert : entry.insertPeer conn around = .ok (epoch, inserted))
    (hfinish : inserted.finishPeer conn epoch = (.error error, left)) :
    Left entry left conn around := by
  cases hpeer : entry.peerMap.lookup conn.peerId with
  | none =>
    have hjoined := finishPeer_of_none hpeer hinsert
    rw [hfinish] at hjoined
    cases hjoined
  | some peer =>
    have hsame : epoch = peer.epoch ∧ inserted = entry := by
      unfold insertPeer at hinsert
      grind
    obtain ⟨rfl, rfl⟩ := hsame
    unfold finishPeer at hfinish
    rw [hpeer, Option.filter_some, beq_self_eq_true, if_pos rfl] at hfinish
    dsimp only at hfinish
    split at hfinish
    · next joined hjoin =>
      rw [joinPeer_conns hjoin] at hfinish
      split at hfinish
      · next hopen =>
        cases hfinish
        refine ⟨iff_of_true ((AList.mem_insert _).mpr (.inl rfl)) ⟨peer, hpeer, .inl hopen⟩, ?_⟩
        exact fun other hother => (AList.mem_insert _).trans (or_iff_right hother)
      · next hclosed =>
        cases hfinish
        refine ⟨iff_of_false (fun hmem => (AList.mem_erase.mp hmem).1 rfl) ?_, ?_⟩
        · rintro ⟨found, hfound, hopen | hunreached⟩
          · obtain rfl := Option.some.inj (hpeer.symm.trans hfound)
            exact hclosed hopen
          · exact hunreached (hreached found hfound)
        · exact fun other hother => AList.mem_erase.trans (and_iff_right hother)
    · cases hfinish

end ForeignNetworkEntry

namespace Data

variable {data : Data} {conn : PeerConn} {around : Surroundings} {error : AddError}

open ForeignNetworkEntry

theorem setEntry_self (number : Nat) : data.setEntry number (data.entries number) = data := by
  rw [setEntry, update_eq_self]

theorem addPeerConn_error {number : Nat} {newAdded : Bool} {admitted : Data}
    (hallows : data.admitConn conn around = .ok ((number, newAdded), admitted))
    (hempty : newAdded = true → (admitted.entries number).peerMap = ∅)
    (h : (data.addPeerConn conn around).1 = .error error) :
    ∃ left, (newAdded = true → left.peerMap.size = 0) ∧
      (newAdded = false → Left (admitted.entries number) left conn around) ∧
      (data.addPeerConn conn around).2 =
        if newAdded then (admitted.setEntry number left).removePeer conn.peerId
          conn.network.networkName
        else admitted.setEntry number left := by
  have hsame : newAdded = true → (admitted.entries number).peerMap.size = 0 := fun hnew => by
    rw [hempty hnew]
    rfl
  unfold addPeerConn at h ⊢
  rw [hallows] at h ⊢
  dsimp only at h ⊢
  split at h
  · next hidentity =>
    refine ⟨_, hsame, fun _ => .of_unreached fun peer hpeer => ?_, by rw [setEntry_self]⟩
    rw [reaches_iff hpeer, hidentity]
    exact fun hreached => nomatch hreached.1
  next hidentity =>
  split at h
  · next hlimit =>
    refine ⟨_, hsame, fun hold => .of_unreached fun peer hpeer => ?_, by rw [setEntry_self]⟩
    subst hold
    rw [reaches_iff hpeer, hlimit]
    exact fun hreached => nomatch hreached.2.1
  next hlimit =>
  split at h
  · next hadmission =>
    refine ⟨_, hsame, fun _ => .of_unreached fun peer hpeer => ?_, by rw [setEntry_self]⟩
    unfold insertPeer at hadmission
    rw [reaches_iff hpeer]
    grind
  next epoch inserted hinsert =>
  split at h
  · next hfinish =>
    refine ⟨_, fun hnew => ?_, fun hold => .of_finishPeer (fun peer hpeer => ?_) hinsert hfinish,
      rfl⟩
    · have hjoined := finishPeer_of_none (by rw [hempty hnew, lookup_empty]) hinsert
      rw [hfinish] at hjoined
      cases hjoined
    · subst hold
      refine (reaches_iff hpeer).mpr ⟨hidentity, hlimit, ?_⟩
      unfold insertPeer at hinsert
      grind
  · cases h

theorem admitConn_cases :
    (data.TurnedAway conn around ∧ ∃ error, data.admitConn conn around = .error error) ∨
      ¬data.TurnedAway conn around ∧
        data.admitConn conn around =
          .ok (data.getOrInsertEntry conn.network conn.myPeerId conn.peerId) := by
  unfold admitConn TurnedAway registered
  split_ifs with hlisted hdigest
  · exact .inl ⟨.inl (by simpa using hlisted), _, rfl⟩
  · exact .inl ⟨.inr (by simpa using hdigest), _, rfl⟩
  · refine .inr ⟨?_, rfl⟩
    rintro (hfirst | hsecond)
    · exact hlisted (by simpa using hfirst)
    · exact hdigest (by simpa using hsecond)

theorem addPeerConn_turnedAway (haway : data.TurnedAway conn around) :
    (data.addPeerConn conn around).2 = data := by
  obtain ⟨_, error, hallows⟩ := admitConn_cases.resolve_right fun hlate => hlate.1 haway
  rw [addPeerConn, hallows]

section

variable (haway : ¬data.TurnedAway conn around)
  (h : (data.addPeerConn conn around).1 = .error error)
include haway h

theorem addPeerConn_registered {number : Nat}
    (hlookup : data.networkPeerMaps.lookup conn.network.networkName = some number) :
    ∃ left, Left (data.entries number) left conn around ∧
      (data.addPeerConn conn around).2 = { data with
        entries := update data.entries number left
        peerNetworkMap := insert (conn.peerId, conn.network.networkName) data.peerNetworkMap } := by
  have hallows := (admitConn_cases.resolve_left fun hearly => haway hearly.1).2
  rw [getOrInsertEntry, hlookup] at hallows
  obtain ⟨left, -, hleft, hnext⟩ := addPeerConn_error hallows nofun h
  exact ⟨left, hleft rfl, hnext⟩

/-- The network that a failed call has created is gone again. -/
theorem addPeerConn_unregistered
    (hlookup : data.networkPeerMaps.lookup conn.network.networkName = none) :
    (data.addPeerConn conn around).2.peerNetworkMap =
        data.peerNetworkMap.erase (conn.peerId, conn.network.networkName) ∧
      (∀ name, (data.addPeerConn conn around).2.networkPeerMaps.lookup name =
        data.networkPeerMaps.lookup name) ∧
      ∀ number ≠ data.nextEntry,
        (data.addPeerConn conn around).2.entries number = data.entries number := by
  have hallows := (admitConn_cases.resolve_left fun hearly => haway hearly.1).2
  rw [getOrInsertEntry, hlookup] at hallows
  obtain ⟨left, hempty, -, hnext⟩ := addPeerConn_error hallows
    (fun _ => by dsimp only; rw [update_self]) h
  rw [hnext, if_pos rfl]
  refine ⟨erase_insert_eq_erase _ _, fun name => ?_, fun number hnumber => ?_⟩
  · simp only [removePeer, setEntry, lookup_insert, Option.any_some, update_self,
      hempty rfl, decide_true, if_true]
    by_cases hname : name = conn.network.networkName
    · rw [hname, lookup_erase, hlookup]
    · rw [lookup_erase_ne hname, lookup_insert_ne hname]
  · simp only [removePeer, setEntry, update_of_ne hnumber]

end

/-- The failed call was turned away, or has created the network, or its peer is known and stays in
the map. -/
def KeepsMembers (data : Data) (conn : PeerConn) (around : Surroundings) : Prop :=
  data.TurnedAway conn around ∨
    ∀ number, data.networkPeerMaps.lookup conn.network.networkName = some number →
      ∃ peer, (data.entries number).peerMap.lookup conn.peerId = some peer ∧
        (peer.conns.any (!·.isClosed) = true ∨ ¬(data.entries number).Reaches peer conn around)

section

variable (hnumbered : data.Numbered) (hlisted : data.Listed)
include hnumbered hlisted

/-- The pair of a peer is put into the map and the entry of its network is replaced by one that
differs in this peer only. -/
theorem listed_insert_iff {peerId : PeerId} {name : String} {number : Nat}
    {left : ForeignNetworkEntry} (hlookup : data.networkPeerMaps.lookup name = some number)
    (hleft : ∀ peer ≠ peerId, peer ∈ left.peerMap ↔ peer ∈ (data.entries number).peerMap) :
    Listed { data with
        entries := update data.entries number left
        peerNetworkMap := insert (peerId, name) data.peerNetworkMap } ↔
      peerId ∈ left.peerMap := by
  unfold Listed
  dsimp only
  constructor
  · intro hall
    obtain ⟨other, hsame, hmem⟩ := (hall _ _).mp (mem_insert_self _ _)
    obtain rfl := Option.some.inj (hlookup.symm.trans hsame)
    rwa [update_self] at hmem
  · intro hmem peer other
    by_cases hpair : (peer, other) = (peerId, name)
    · obtain ⟨rfl, rfl⟩ := Prod.mk.inj hpair
      refine iff_of_true (mem_insert_self _ _) ⟨number, hlookup, ?_⟩
      rwa [update_self]
    · refine (mem_insert.trans (or_iff_right hpair)).trans ((hlisted _ _).trans ?_)
      refine exists_congr fun index => and_congr_right fun hother => ?_
      by_cases hsame : index = number
      · subst hsame
        rw [update_self]
        refine (hleft peer fun hpeer => hpair ?_).symm
        rw [hpeer, ← (hnumbered other index hother).2, (hnumbered _ index hlookup).2]
      · rw [update_of_ne hsame]

theorem listed_iff_keepsMembers (h : (data.addPeerConn conn around).1 = .error error) :
    (data.addPeerConn conn around).2.Listed ↔ data.KeepsMembers conn around := by
  by_cases haway : data.TurnedAway conn around
  · rw [addPeerConn_turnedAway haway]
    exact iff_of_true hlisted (.inl haway)
  rw [KeepsMembers, or_iff_right haway]
  cases hlookup : data.networkPeerMaps.lookup conn.network.networkName with
  | none =>
    obtain ⟨hpairs, hmaps, hentries⟩ := addPeerConn_unregistered haway h hlookup
    refine iff_of_true (fun peer name => ?_) nofun
    have hfree : (conn.peerId, conn.network.networkName) ∉ data.peerNetworkMap := by
      rw [hlisted, hlookup]
      rintro ⟨_, ⟨⟩, _⟩
    rw [hpairs, erase_eq_of_notMem hfree, hlisted]
    refine exists_congr fun number => ?_
    rw [hmaps]
    refine and_congr_right fun hname => ?_
    rw [hentries number (hnumbered name number hname).1.ne]
  | some number =>
    obtain ⟨left, hleft, hnext⟩ := addPeerConn_registered haway h hlookup
    rw [hnext, listed_insert_iff hnumbered hlisted hlookup hleft.others, hleft.own]
    exact ⟨fun hkept _ hsame => Option.some.inj hsame ▸ hkept, fun hkept => hkept number rfl⟩

end

/-- A failed call leaves the two sets as they were exactly if it was turned away before the entry or
the network was registered just when the peer was recorded for it.  It leaves the pairs those of the
members, if they were, exactly if it keeps its peer in the map. -/
theorem rejected_conn_leaves_no_trace_iff (data : Data) (conn : PeerConn) (around : Surroundings)
    (error : AddError) (h : (data.addPeerConn conn around).1 = .error error) :
    (((data.addPeerConn conn around).2.peerNetworkMap = data.peerNetworkMap ∧
        (data.addPeerConn conn around).2.registered = data.registered) ↔
      data.TurnedAway conn around ∨
        (conn.network.networkName ∈ data.registered ↔
          (conn.peerId, conn.network.networkName) ∈ data.peerNetworkMap)) ∧
    (data.Numbered → data.Listed →
      ((data.addPeerConn conn around).2.Listed ↔ data.KeepsMembers conn around)) := by
  refine ⟨?_, fun hnumbered hlisted => listed_iff_keepsMembers hnumbered hlisted h⟩
  by_cases haway : data.TurnedAway conn around
  · rw [addPeerConn_turnedAway haway]
    exact iff_of_true ⟨rfl, rfl⟩ (.inl haway)
  rw [or_iff_right haway]
  have hregistered : conn.network.networkName ∈ data.registered ↔
      (data.networkPeerMaps.lookup conn.network.networkName).isSome := Iff.rfl
  rw [hregistered]
  cases hlookup : data.networkPeerMaps.lookup conn.network.networkName with
  | some number =>
    obtain ⟨left, -, hnext⟩ := addPeerConn_registered haway h hlookup
    rw [hnext]
    change (insert _ data.peerNetworkMap = data.peerNetworkMap ∧ _) ↔ _
    rw [insert_eq_self]
    exact ⟨fun hsame => ⟨fun _ => hsame.1, fun _ => rfl⟩, fun hlisted => ⟨hlisted.mp rfl, rfl⟩⟩
  | none =>
    obtain ⟨hpairs, hmaps, -⟩ := addPeerConn_unregistered haway h hlookup
    have hsame : (data.addPeerConn conn around).2.registered = data.registered := by
      ext name
      rw [registered, registered, Set.mem_ofPred_eq, Set.mem_ofPred_eq, hmaps]
    rw [hsame, hpairs, erase_eq_self]
    exact ⟨fun hfree => ⟨nofun, fun hlisted => absurd hlisted hfree.1⟩,
      fun hlisted => ⟨fun hin => absurd (hlisted.mpr hin) nofun, rfl⟩⟩

/-- A network with one peer, whose connection is closed, and what the manager reads. -/
def oneNetwork : Data where
  entries _ := ⟨⟨"n", none, some [1]⟩, 9,
    singleton 1 ⟨0, some .sharedNode, some [1], [⟨false, true⟩]⟩, 1, false, []⟩
  nextEntry := 1
  networkPeerMaps := singleton "n" 0
  peerNetworkMap := {(1, "n")}

def openManager : Surroundings := ⟨fun _ _ => [], fun _ => true, false, fun _ _ => false, true⟩

/-- A peer with this secret digest and this key. -/
def comingWith (peerId : PeerId) (secretDigest key : Bytes) : PeerConn :=
  ⟨peerId, 9, ⟨"n", none, some secretDigest⟩, .admin, key, false⟩

theorem lookup_oneNetwork {name : String} {number : Nat}
    (h : oneNetwork.networkPeerMaps.lookup name = some number) : name = "n" ∧ number = 0 := by
  by_cases hname : name = "n"
  · subst hname
    exact ⟨rfl, (Option.some.inj h).symm⟩
  · rw [lookup_eq_none.mpr (by simpa [oneNetwork, mem_keys] using hname)] at h
    cases h

/-- A peer that is recorded already and knows another secret is turned away without a trace. -/
theorem rejected_conn_leaves_no_trace_iff_known :
    ((oneNetwork.addPeerConn (comingWith 1 [2] []) openManager).2.peerNetworkMap =
        oneNetwork.peerNetworkMap ∧
      (oneNetwork.addPeerConn (comingWith 1 [2] []) openManager).2.registered =
        oneNetwork.registered) ∧
    (oneNetwork.addPeerConn (comingWith 1 [2] []) openManager).2.Listed := by
  have hall := rejected_conn_leaves_no_trace_iff oneNetwork (comingWith 1 [2] []) openManager
    .notTrusted (by decide +kernel)
  refine ⟨hall.1.mpr (.inr (iff_of_true rfl (by decide +kernel))), (hall.2 ?_ ?_).mpr (.inr ?_)⟩
  · intro name number hlookup
    obtain ⟨rfl, rfl⟩ := lookup_oneNetwork hlookup
    decide
  · intro peer name
    constructor
    · intro hlisted
      obtain ⟨rfl, rfl⟩ := Prod.mk.inj (mem_singleton.mp hlisted)
      exact ⟨0, rfl, by decide⟩
    · rintro ⟨number, hlookup, hmem⟩
      obtain ⟨rfl, -⟩ := lookup_oneNetwork hlookup
      rw [mem_singleton.mp hmem]
      exact mem_singleton_self _
  · intro number hlookup
    obtain ⟨-, rfl⟩ := lookup_oneNetwork hlookup
    exact ⟨_, rfl, .inr fun hreaches => absurd hreaches.2.2.1 (by decide)⟩

/-- A peer that a network turns away stays recorded for it, and so does a known one that comes back
with another key after its connection was closed, which takes it out of the map. -/
theorem rejected_peer_recorded :
    ((oneNetwork.addPeerConn (comingWith 2 [2] []) openManager).1 = .error .notTrusted ∧
      (2, "n") ∉ oneNetwork.peerNetworkMap ∧
      (2, "n") ∈ (oneNetwork.addPeerConn (comingWith 2 [2] []) openManager).2.peerNetworkMap) ∧
    (oneNetwork.addPeerConn (comingWith 1 [1] [2]) openManager).1 = .error .publicKeyMismatch ∧
      (1, "n") ∈ (oneNetwork.addPeerConn (comingWith 1 [1] [2]) openManager).2.peerNetworkMap ∧
      1 ∉ ((oneNetwork.addPeerConn (comingWith 1 [1] [2]) openManager).2.entries 0).peerMap := by
  decide +kernel

end Data

end LowerTier.Peers.ForeignNetworkManager
