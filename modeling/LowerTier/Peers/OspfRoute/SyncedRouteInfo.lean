import LowerTier.Peers.OspfRoute.PeerInfo
import LowerTier.ProofSupport.MachineInt

/-!
# The synchronised route state (`SyncedRouteInfo` in `peers/peer_ospf_route.rs`)

Peer records, connection rows and their accounting, and the update that a route synchronisation
makes under the topology lock.  The ordered maps are `KeyedMap`s, whose entries list the last
insertion first; inserting a key again moves it to the front.  The clock and the answers of the
process memory governor are inputs of an update.
-/

namespace LowerTier.Peers.OspfRoute

open ProofSupport ProofSupport.ByteString Tunnel ProofSupport.MachineInt

inductive SyncRouteInfoError where
  | duplicatePeerId | stopped
deriving DecidableEq, Repr

structure RouteConnInfo where
  connectedPeers : OrderedSet PeerId
  version : Nat
  lastUpdate : Nat
deriving DecidableEq

structure ForeignNetworkRouteInfoKey where
  peerId : PeerId
  networkName : String
deriving DecidableEq, Repr

structure ForeignNetworkRouteInfoEntry where
  foreignPeerIds : List PeerId
  lastUpdate : Option Nat
  version : Nat
  networkSecretDigest : Bytes
  myPeerIdForThisNetwork : PeerId := 0
  ownerNoiseStaticPubkey : Bytes
deriving DecidableEq, Repr

/-- The `prost` and `prost_reflect` functions, on raw messages of type `ρ`. -/
structure WireCodec (ρ : Type) where
  /-- `get_field_by_name("peer_id")` as a `u32`. -/
  peerIdField : ρ → Option PeerId
  rawEncodedLen : ρ → Nat
  encodedLen : RoutePeerInfo → Nat
  /-- `transcode_from` into a new message. -/
  transcodeFrom : RoutePeerInfo → ρ
  FieldValue : Type
  getFieldByName : ρ → String → Option FieldValue
  setFieldByName : ρ → String → FieldValue → ρ

/-- `patch_raw_from_info`: the listed fields of the record, written into the raw message. -/
def WireCodec.patchRawFromInfo {ρ : Type} (codec : WireCodec ρ) (raw : ρ) (info : RoutePeerInfo)
    (fields : List String) : ρ :=
  fields.foldl (fun raw name =>
    (codec.getFieldByName (codec.transcodeFrom info) name).elim raw
      (codec.setFieldByName raw name)) raw

structure SyncedRouteInfo (ρ : Type) where
  peerInfos : KeyedMap PeerId RoutePeerInfo
  rawPeerInfos : KeyedMap PeerId ρ
  connMap : KeyedMap PeerId RouteConnInfo
  foreignNetwork : KeyedMap ForeignNetworkRouteInfoKey ForeignNetworkRouteInfoEntry
  retainedPeerBytes : KeyedMap PeerId Nat
  retainedPeerBytesTotal : Nat
  /-- Bytes reserved from the process memory governor less bytes released to it. -/
  processMemory : Int
  version : Nat

/-- The arguments of one update, with the clock and whether the governor grants the memory for
the record at an index. -/
structure UpdateCall (ρ : Type) where
  myPeerId : PeerId
  myPeerRouteId : Nat
  dstPeerId : PeerId
  peerInfos : List RoutePeerInfo
  rawPeerInfos : List ρ
  connInfo : Option ConnInfo
  sourceHasTopologyAuthority : Bool
  now : Nat
  grant : Nat → Bool

namespace SyncedRouteInfo

variable {ρ : Type}

def empty : SyncedRouteInfo ρ where
  peerInfos := ∅
  rawPeerInfos := ∅
  connMap := ∅
  foreignNetwork := ∅
  retainedPeerBytes := ∅
  retainedPeerBytesTotal := 0
  processMemory := 0
  version := 0

variable (s : SyncedRouteInfo ρ)

def incVersion : SyncedRouteInfo ρ :=
  { s with version := wrappingAdd 32 s.version 1 }

def incVersionIf (needIncVersion : Bool) : SyncedRouteInfo ρ :=
  if needIncVersion then s.incVersion else s

variable (now : Nat) (filled : Bool × SyncedRouteInfo ρ) (peerId : PeerId)

def fillRecord :
    Bool × SyncedRouteInfo ρ :=
  if peerId ∈ filled.2.peerInfos then filled
  else (true, { filled.2 with
    peerInfos := filled.2.peerInfos.insert peerId
      { RoutePeerInfo.new with lastUpdate := some now } })

def fillRow :
    Bool × SyncedRouteInfo ρ :=
  if peerId ∈ filled.2.connMap then filled
  else (true, { filled.2 with connMap := filled.2.connMap.insert peerId ⟨.empty, 0, now⟩ })

def fillOne :
    Bool × SyncedRouteInfo ρ :=
  fillRow now (fillRecord now filled peerId) peerId

def fillEmptyPeerInfoLocked (peerIds : OrderedSet PeerId) :
    Bool × SyncedRouteInfo ρ :=
  peerIds.toList.foldl (fillOne now) (false, s)

def fillEmptyPeerInfo (peerIds : OrderedSet PeerId) :
    SyncedRouteInfo ρ :=
  let (needIncVersion, s) := s.fillEmptyPeerInfoLocked now peerIds
  s.incVersionIf needIncVersion

def updateConnInfoOnePeer (peerIdVersion : PeerIdVersion) (connectedPeers : OrderedSet PeerId) :
    Bool × SyncedRouteInfo ρ :=
  if (s.connMap.lookup peerIdVersion.peerId).all fun old => old.version < peerIdVersion.version then
    (true, { s with
      connMap := s.connMap.insert peerIdVersion.peerId
        ⟨connectedPeers, peerIdVersion.version, now⟩ })
  else (false, s)

variable (updated : Bool × SyncedRouteInfo ρ)

def updateConnRow (row : PeerIdVersion × OrderedSet PeerId) : Bool × SyncedRouteInfo ρ :=
  let (replaced, s) := (updated.2.fillEmptyPeerInfo now row.2).updateConnInfoOnePeer now row.1 row.2
  (updated.1 || replaced, s)

def updateConnRows (rows : List (PeerIdVersion × OrderedSet PeerId)) : SyncedRouteInfo ρ :=
  let (needIncVersion, s) := rows.foldl (updateConnRow now) (false, s)
  s.incVersionIf needIncVersion

/-- A bitmap fills in all its peers first. -/
def updateConnInfoWithBitmap (connBitmap : RouteConnBitmap) :
    SyncedRouteInfo ρ :=
  (s.fillEmptyPeerInfo now (.ofList (connBitmap.peerIds.map (·.peerId)))).updateConnRows now
    connBitmap.rows

def updateConnInfoWithList (connPeerList : RouteConnPeerList) : SyncedRouteInfo ρ :=
  s.updateConnRows now connPeerList.rows

def updateConnInfoLocked : ConnInfo → SyncedRouteInfo ρ
  | .connBitmap connBitmap => s.updateConnInfoWithBitmap now connBitmap
  | .connPeerList connPeerList => s.updateConnInfoWithList now connPeerList

/-! ## Peer records -/

def getPeerInfoVersionWithDefault : Nat :=
  ((s.peerInfos.lookup peerId).map (·.version)).getD 0

variable (myPeerId : PeerId)

def checkDuplicatePeerId (myPeerRouteId : Nat) (dstPeerId : PeerId) (dstPeerRouteId : Option Nat)
    (info : RoutePeerInfo) :
    Except SyncRouteInfoError Unit :=
  if info.peerId = myPeerId then
    if info.peerRouteId ≠ myPeerRouteId ∧
        s.getPeerInfoVersionWithDefault info.peerId < info.version then
      .error .duplicatePeerId
    else .ok ()
  else if info.peerId = dstPeerId then
    match dstPeerRouteId with
    | none => .ok ()
    | some dstPeerRouteId =>
      if dstPeerRouteId ≠ info.peerRouteId ∧
          info.version < s.getPeerInfoVersionWithDefault info.peerId then
        .error .duplicatePeerId
      else .ok ()
  else .ok ()

def checkRecord (codec : WireCodec ρ) (call : UpdateCall ρ) (s : SyncedRouteInfo ρ)
    (info : RoutePeerInfo) (raw : ρ) : Except SyncRouteInfoError Unit :=
  let dstPeerRouteId :=
    if info.peerId = call.dstPeerId then
      (s.peerInfos.lookup call.dstPeerId).map (·.peerRouteId)
    else none
  match s.checkDuplicatePeerId call.myPeerId call.myPeerRouteId call.dstPeerId dstPeerRouteId
      info with
  | .error error => .error error
  | .ok () => if codec.peerIdField raw = some info.peerId then .ok () else .error .stopped

def ROUTE_PEER_RETAINED_OVERHEAD_BYTES : Nat := 512

def ROUTE_PEER_RETAINED_EXPANSION_FACTOR : Nat := 4

def retainedBytes (codec : WireCodec ρ) (info : RoutePeerInfo) (raw : ρ) : Nat :=
  saturatingAdd 64
    (saturatingMul 64 (saturatingAdd 64 (codec.encodedLen info) (codec.rawEncodedLen raw))
      ROUTE_PEER_RETAINED_EXPANSION_FACTOR)
    ROUTE_PEER_RETAINED_OVERHEAD_BYTES

def isNewer (info : RoutePeerInfo) : Bool :=
  (s.peerInfos.lookup info.peerId).all fun old => old.version < info.version

def oldRetainedBytes : Nat :=
  (s.retainedPeerBytes.lookup peerId).getD 0

def storeRecord (info : RoutePeerInfo) (raw : ρ) (bytes : Nat) :
    SyncedRouteInfo ρ :=
  let oldBytes := s.oldRetainedBytes info.peerId
  { s with
    rawPeerInfos := s.rawPeerInfos.insert info.peerId raw
    peerInfos := s.peerInfos.insert info.peerId info
    retainedPeerBytes := s.retainedPeerBytes.insert info.peerId bytes
    retainedPeerBytesTotal :=
      if oldBytes ≤ bytes then wrappingAdd 64 s.retainedPeerBytesTotal (bytes - oldBytes)
      else wrappingSub 64 s.retainedPeerBytesTotal (oldBytes - bytes)
    -- more bytes are reserved before the record is stored, fewer are released after it
    processMemory := s.processMemory + ((bytes : Int) - oldBytes) }

/-- One turn of the loop of `update_peer_infos_locked`; the flag says whether the record was
stored. -/
def updatePeerInfo (codec : WireCodec ρ) (call : UpdateCall ρ) (s : SyncedRouteInfo ρ) (idx : Nat)
    (info : RoutePeerInfo) (raw : ρ) : Except SyncRouteInfoError Bool × SyncedRouteInfo ρ :=
  let bytes := retainedBytes codec info raw
  let info := info.normalizeMulticastGroups
  match checkRecord codec call s info raw with
  | .error error => (.error error, s)
  | .ok () =>
    let info := { info with lastUpdate := some call.now }
    if s.isNewer info then
      let addedBytes := bytes - s.oldRetainedBytes info.peerId
      if addedBytes ≠ 0 ∧ ¬call.grant idx then (.error .stopped, s)
      else (.ok true, s.storeRecord info raw bytes)
    else (.ok false, s)

/-- The loop; an early return keeps what was stored before it and does not count a version. -/
def updatePeerInfosLoop (codec : WireCodec ρ) (call : UpdateCall ρ) :
    SyncedRouteInfo ρ → Bool → Nat → List (RoutePeerInfo × ρ) →
      Except SyncRouteInfoError Unit × SyncedRouteInfo ρ
  | s, needIncVersion, _, [] => (.ok (), s.incVersionIf needIncVersion)
  | s, needIncVersion, idx, (info, raw) :: rest =>
    match updatePeerInfo codec call s idx info raw with
    | (.error error, s) => (.error error, s)
    | (.ok stored, s) => updatePeerInfosLoop codec call s (needIncVersion || stored) (idx + 1) rest

def updatePeerInfosLocked (codec : WireCodec ρ) (call : UpdateCall ρ) (s : SyncedRouteInfo ρ) :
    Except SyncRouteInfoError Unit × SyncedRouteInfo ρ :=
  if call.peerInfos.length ≠ call.rawPeerInfos.length then (.error .stopped, s)
  else updatePeerInfosLoop codec call s false 0 (call.peerInfos.zip call.rawPeerInfos)

structure MergedRouteState where
  peerIds : Finset PeerId
  conn : KeyedMap PeerId (Nat × OrderedSet PeerId)

variable (merged : MergedRouteState)

def addPeerId (peerId : PeerId) :
    Except SyncRouteInfoError MergedRouteState :=
  let peerIds := insert peerId merged.peerIds
  if peerIds.card > MAX_ROUTE_SYNC_PEERS then .error .stopped
  else .ok { merged with peerIds := peerIds }

variable (row : PeerIdVersion × OrderedSet PeerId)

def replaceMergedRow :
    MergedRouteState :=
  if (merged.conn.lookup row.1.peerId).all fun old => old.1 < row.1.version then
    { merged with conn := merged.conn.insert row.1.peerId (row.1.version, row.2) }
  else merged

def mergeRow :
    Except SyncRouteInfoError MergedRouteState :=
  (row.2.toList.foldlM addPeerId merged).map fun merged => replaceMergedRow merged row

def mergeListSource (source : PeerConnInfo) :
    Except SyncRouteInfoError MergedRouteState :=
  match source.peerId with
  | none => .error .stopped
  | some peerId =>
    (addPeerId merged peerId.peerId).bind fun merged =>
      mergeRow merged (peerId, .ofList source.connectedPeerIds)

def mergeConnInfo : ConnInfo → Except SyncRouteInfoError MergedRouteState
  | .connBitmap bitmap =>
    ((bitmap.peerIds.map (·.peerId)).foldlM addPeerId merged).bind fun merged =>
      bitmap.rows.foldlM mergeRow merged
  | .connPeerList list => list.peerConnInfos.foldlM mergeListSource merged

/-- The loop over the merged rows; the sum of the edges cannot overflow below its limit. -/
def countEdges (edgeCount : Nat) (entry : (_ : PeerId) × (Nat × OrderedSet PeerId)) :
    Except SyncRouteInfoError Nat :=
  if entry.2.2.size > MAX_ROUTE_SYNC_EDGES_PER_SOURCE then .error .stopped
  else if edgeCount + entry.2.2.size > MAX_ROUTE_SYNC_EDGES then .error .stopped
  else .ok (edgeCount + entry.2.2.size)

variable (peerInfos : List RoutePeerInfo)

def currentMerged : MergedRouteState where
  peerIds := s.peerInfos.keys.toFinset ∪ (peerInfos.map (·.peerId)).toFinset
  conn := s.connMap.mapValues fun info => (info.version, info.connectedPeers)

def validateMergedRouteStateLocked (connInfo : Option ConnInfo) : Except SyncRouteInfoError Unit :=
  let merged := s.currentMerged peerInfos
  (match connInfo with
    | some connInfo => mergeConnInfo merged connInfo
    | none => .ok merged).bind fun merged =>
      if merged.peerIds.card > MAX_ROUTE_SYNC_PEERS then .error .stopped
      else (merged.conn.entries.foldlM countEdges 0).map fun _ => ()

/-- Without topology authority the row of the sender is dropped. -/
def dropSenderRow (call : UpdateCall ρ) : SyncedRouteInfo ρ :=
  if ¬call.sourceHasTopologyAuthority ∧ call.dstPeerId ∈ s.connMap then
    incVersion { s with connMap := s.connMap.erase call.dstPeerId }
  else s

/-- `update_peer_infos_and_conn_info_with_authority`; the result says whether the version
changed. -/
def updateWithAuthority (codec : WireCodec ρ) (s : SyncedRouteInfo ρ) (call : UpdateCall ρ) :
    Except SyncRouteInfoError Bool × SyncedRouteInfo ρ :=
  match s.validateMergedRouteStateLocked call.peerInfos call.connInfo with
  | .error error => (.error error, s)
  | .ok () =>
    match updatePeerInfosLocked codec call (s.dropSenderRow call) with
    | (.error error, updated) => (.error error, updated)
    | (.ok (), updated) =>
      let updated :=
        match call.connInfo with
        | some connInfo => updated.updateConnInfoLocked call.now connInfo
        | none => updated
      (.ok (decide (updated.version ≠ s.version)), updated)

structure ForeignNetworkInfo where
  key : Option ForeignNetworkRouteInfoKey
  value : Option ForeignNetworkRouteInfoEntry

/-- One record of `update_foreign_network`; the flag says whether something changed. -/
def updateForeignNetworkEntry (item : ForeignNetworkInfo) : Bool × SyncedRouteInfo ρ :=
  match item.key, item.value with
  | some key, some entry =>
    let entry := { entry with
      foreignPeerIds := (OrderedSet.ofList entry.foreignPeerIds).toList.take
        MAX_ROUTE_SYNC_EDGES_PER_SOURCE
      ownerNoiseStaticPubkey :=
        if entry.ownerNoiseStaticPubkey.length = 32 then entry.ownerNoiseStaticPubkey else []
      lastUpdate := some now }
    if (updated.2.foreignNetwork.lookup key).all fun old => old.version < entry.version then
      (true, { updated.2 with foreignNetwork := updated.2.foreignNetwork.insert key entry })
    else updated
  | _, _ => updated

def updateForeignNetwork (infos : List ForeignNetworkInfo) :
    Bool × SyncedRouteInfo ρ :=
  infos.foldl (updateForeignNetworkEntry now) (false, s)

/-!
## Changes of the route state

Beside the update of a route synchronisation the route state changes when peers are removed, when
this node refreshes its own record or its own row.
-/

def removePeer : SyncedRouteInfo ρ :=
  let bytes := s.oldRetainedBytes peerId
  { s with
    peerInfos := s.peerInfos.erase peerId
    connMap := s.connMap.erase peerId
    rawPeerInfos := s.rawPeerInfos.erase peerId
    retainedPeerBytes := s.retainedPeerBytes.erase peerId
    retainedPeerBytesTotal := wrappingSub 64 s.retainedPeerBytesTotal bytes
    processMemory := s.processMemory - bytes }

def removePeersLocked (peerIds : List PeerId) : SyncedRouteInfo ρ :=
  if peerIds.isEmpty then s
  else
    let s := peerIds.foldl removePeer s
    let gone := s.foreignNetwork.keys.filter fun key => key.peerId ∈ peerIds
    incVersion { s with
      foreignNetwork := gone.foldl (fun networks key => networks.erase key) s.foreignNetwork }

def UPDATE_PEER_INFO_PERIOD : Nat := 3600 * 1000000000

/-- `try_update_new_peer_info`; the flag says whether a field that is left out here differs. -/
def tryUpdateNewPeerInfo (old new : RoutePeerInfo) (othersDiffer : Bool) : Bool :=
  let lastUpdate := old.lastUpdate.getD 0
  -- `elapsed` fails for a time in the future
  let needUpdatePeriodically :=
    if lastUpdate ≤ now then decide (now - lastUpdate > UPDATE_PEER_INFO_PERIOD) else true
  decide ({ new with version := old.version, lastUpdate := old.lastUpdate } ≠ old) ||
    othersDiffer || needUpdatePeriodically

/-- `update_my_peer_info`, given the record that `new_updated_self` and the refresh of the
attestation make. -/
def updateMyPeerInfo (new : RoutePeerInfo) (othersDiffer : Bool) : SyncedRouteInfo ρ :=
  let new := { new with peerId := myPeerId }
  let newVersion := wrappingAdd 32 (s.getPeerInfoVersionWithDefault myPeerId) 1
  let needInsertNew :=
    (s.peerInfos.lookup myPeerId).all fun old => tryUpdateNewPeerInfo now old new othersDiffer
  if needInsertNew then
    incVersion { s with
      peerInfos := s.peerInfos.insert myPeerId
        { new with lastUpdate := some now, version := newVersion } }
  else s

/-- `update_my_conn_info_locked`; the flag says whether something changed. -/
def updateMyConnInfoLocked (connectedPeers : OrderedSet PeerId) : Bool × SyncedRouteInfo ρ :=
  let (updated, s) := s.fillEmptyPeerInfoLocked now connectedPeers
  let old := s.connMap.lookup myPeerId
  let newVersion := wrappingAdd 32 ((old.map (·.version)).getD 0) 1
  if old.all fun old => old.connectedPeers ≠ connectedPeers then
    (true, { s with connMap := s.connMap.insert myPeerId ⟨connectedPeers, newVersion, now⟩ })
  else (updated, s)

end SyncedRouteInfo

end LowerTier.Peers.OspfRoute
