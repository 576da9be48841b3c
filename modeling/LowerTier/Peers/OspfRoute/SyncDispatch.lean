import LowerTier.Peers.OspfRoute.SyncedRouteInfo

/-!
# From a route synchronisation to the route state (`peers/peer_ospf_route.rs`)

The check of a request against the role of its sender, the records that a restricted role may
store, and the choice of the update that `do_sync_route_info_validated` makes.  The session of
the sender, group trusts and the refresh of credential trusts behind the update are not part of
the route state and are left out.  The parser of CIDR texts is a parameter, and so is what the
service knows of the sender.
-/

namespace LowerTier.Peers.OspfRoute

open ProofSupport ProofSupport.ByteString Tunnel

inductive RoleShapeRejection where
  | foreignNetworkData
  | notOneRecord
  | notOwnRecord
  | relayNotPeerList
  | relayNotOneSource
  | relaySourceMissing
  | relayNotOwnAdjacency
  | sharedNodeTopology
  | credentialTopology
deriving DecidableEq, Repr

variable (fromPeerId : PeerId)

def validateForeignRelayConnScope : ConnInfo → Except RoleShapeRejection Unit
  | .connBitmap _ => .error .relayNotPeerList
  | .connPeerList list =>
    match list.peerConnInfos with
    | [source] =>
      match source.peerId with
      | none => .error .relaySourceMissing
      | some peerId =>
        if peerId.peerId ≠ fromPeerId then .error .relayNotOwnAdjacency else .ok ()
    | _ => .error .relayNotOneSource

def validateRestrictedRecords : Option (List RoutePeerInfo) →
    Except RoleShapeRejection Unit
  | none => .ok ()
  | some [info] => if info.peerId ≠ fromPeerId then .error .notOwnRecord else .ok ()
  | some _ => .error .notOneRecord

def validateRoleConnInfo (connInfo : Option ConnInfo) :
    PeerIdentityType → Except RoleShapeRejection Unit
  | .admin => .ok ()
  | .foreignRelay =>
    match connInfo with
    | some connInfo => validateForeignRelayConnScope fromPeerId connInfo
    | none => .ok ()
  | .sharedNode => if connInfo.isSome then .error .sharedNodeTopology else .ok ()
  | .credential => if connInfo.isSome then .error .credentialTopology else .ok ()

def validateRouteSyncRoleShape (identityType : PeerIdentityType)
    (peerInfos : Option (List RoutePeerInfo)) (connInfo : Option ConnInfo)
    (foreignNetwork : Option (List SyncedRouteInfo.ForeignNetworkInfo)) :
    Except RoleShapeRejection Unit :=
  if identityType ≠ .admin ∧ foreignNetwork.isSome then .error .foreignNetworkData
  else if identityType = .sharedNode ∨ identityType = .credential then
    match validateRestrictedRecords fromPeerId peerInfos with
    | .error rejection => .error rejection
    | .ok () => validateRoleConnInfo fromPeerId connInfo identityType
  else validateRoleConnInfo fromPeerId connInfo identityType

def cidrIsSubset : IpCidr → IpCidr → Bool
  | .v4 child, .v4 parent =>
    decide (parent.firstAddress ≤ child.firstAddress) &&
      decide (child.lastAddress ≤ parent.lastAddress)
  | .v6 child, .v6 parent =>
    decide (parent.firstAddress ≤ child.firstAddress) &&
      decide (child.lastAddress ≤ parent.lastAddress)
  | _, _ => false

def cidrIsSubsetStr (parse : String → Option IpCidr) (child parent : String) : Bool :=
  match parse child, parse parent with
  | some child, some parent => cidrIsSubset child parent
  | _, _ => false

namespace RoutePeerInfo

def scopeToCredential (parse : String → Option IpCidr) (credential : TrustedCredentialPubkey)
    (info : RoutePeerInfo) : RoutePeerInfo :=
  let info := { info with
    noiseStaticPubkey := credential.pubkey
    trustedCredentialPubkeys := []
    proxyCidrs :=
      if credential.allowedProxyCidrs.isEmpty then []
      else info.proxyCidrs.filter fun cidr =>
        credential.allowedProxyCidrs.any fun allowed => cidrIsSubsetStr parse cidr allowed }
  (info.setPeerIdentity .credential).sanitizeUntrustedRoleCapabilities .credential

variable (info : RoutePeerInfo)

def withoutDelegation : RoutePeerInfo :=
  { info with proxyCidrs := [], groups := [], trustedCredentialPubkeys := [] }

def scopeToSharedNode : RoutePeerInfo :=
  (info.withoutDelegation.setPeerIdentity .sharedNode).sanitizeUntrustedRoleCapabilities .sharedNode

def scopeToForeignRelay : RoutePeerInfo :=
  (info.withoutDelegation.setPeerIdentity .foreignRelay).sanitizeUntrustedRoleCapabilities
    .foreignRelay

end RoutePeerInfo

section extract

variable {ρ : Type} (codec : WireCodec ρ) (fromPeerId : PeerId) (peerInfos : List RoutePeerInfo)
  (rawPeerInfos : List ρ)

/-- The sender's record and the raw message at its position; there is no raw message to take
(`none`) where that list is shorter. -/
def ownRecord (idx : Nat) : Option (RoutePeerInfo × ρ) :=
  match peerInfos[idx]?, rawPeerInfos[idx]? with
  | some info, some raw => some (info, raw)
  | _, _ => none

def credentialPatchedFields : List String :=
  ["proxy_cidrs", "feature_flag", "identity_type", "noise_static_pubkey",
    "trusted_credential_pubkeys"]

/-- `extract_credential_peer_info`; the outer `none` is a panic. -/
def extractCredentialPeerInfo (parse : String → Option IpCidr)
    (credential : TrustedCredentialPubkey) : Option (Option (RoutePeerInfo × ρ)) :=
  match peerInfos.findIdx? (fun info => info.peerId == fromPeerId) with
  | none => some none
  | some idx =>
    if credential.pubkey.length ≠ 32 then some none
    else (ownRecord peerInfos rawPeerInfos idx).map fun (info, raw) =>
      let info := info.scopeToCredential parse credential
      some (info, codec.patchRawFromInfo raw info credentialPatchedFields)

/-- `extract_shared_node_peer_info`; the raw message keeps the advertised identity. -/
def extractSharedNodePeerInfo : Option (Option (RoutePeerInfo × ρ)) :=
  match peerInfos.findIdx? (fun info => info.peerId == fromPeerId) with
  | none => some none
  | some idx =>
    (ownRecord peerInfos rawPeerInfos idx).map fun (info, raw) =>
      let info := info.scopeToSharedNode
      some (info, codec.patchRawFromInfo raw info
        ["proxy_cidrs", "groups", "trusted_credential_pubkeys"])

def extractForeignRelayPeerInfos : List (RoutePeerInfo × ρ) :=
  (peerInfos.zip rawPeerInfos).map fun (info, raw) =>
    if info.peerId = fromPeerId then
      let info := info.scopeToForeignRelay
      (info, codec.patchRawFromInfo raw info
        ["proxy_cidrs", "groups", "trusted_credential_pubkeys", "feature_flag",
          "multicast_groups", "identity_type"])
    else (info, raw)

end extract

/-! ## The update of a request -/

/-- A validated request with what the service knows of its sender: whether the service and the
session are there, the credential of the sender, and the peers authenticated here. -/
structure SyncRequest (ρ : Type) where
  myPeerId : PeerId
  myPeerRouteId : Nat
  fromPeerId : PeerId
  fromIdentityType : PeerIdentityType
  peerInfos : Option (List RoutePeerInfo)
  rawPeerInfos : Option (List ρ)
  connInfo : Option ConnInfo
  foreignNetwork : Option (List SyncedRouteInfo.ForeignNetworkInfo)
  session : Except SyncRouteInfoError Unit
  credentialInfo : Option TrustedCredentialPubkey
  authenticatedPeers : PeerId → Bool
  now : Nat
  grant : Nat → Bool

namespace SyncRequest

variable {ρ : Type}

variable (request : SyncRequest ρ)

def acceptConnInfo : Bool :=
  match request.fromIdentityType with
  | .admin | .foreignRelay => true
  | .credential | .sharedNode => false

def updateCall (records : List (RoutePeerInfo × ρ)) (connInfo : Option ConnInfo)
    (authority : Bool) :
    UpdateCall ρ where
  myPeerId := request.myPeerId
  myPeerRouteId := request.myPeerRouteId
  dstPeerId := request.fromPeerId
  peerInfos := records.map Prod.fst
  rawPeerInfos := records.map Prod.snd
  connInfo := connInfo
  sourceHasTopologyAuthority := authority
  now := request.now
  grant := request.grant

/-- A relay's record for this node or for a peer authenticated here. -/
def overwritesLocalPeer (peerInfos : List RoutePeerInfo) : Bool :=
  peerInfos.any fun info =>
    info.peerId == request.myPeerId ||
      (info.peerId != request.fromPeerId && request.authenticatedPeers info.peerId)

variable (codec : WireCodec ρ)

/-- The update for a request with records; the outer `none` is a panic. -/
def recordsCall (parse : String → Option IpCidr) (request : SyncRequest ρ)
    (peerInfos : List RoutePeerInfo) (rawPeerInfos : List ρ) : Option (UpdateCall ρ) :=
  match request.fromIdentityType with
  | .admin =>
    some { request.updateCall [] request.connInfo true with peerInfos, rawPeerInfos }
  | .credential =>
    -- the caller has checked that there is a credential
    request.credentialInfo.bind fun credential =>
      (extractCredentialPeerInfo codec request.fromPeerId peerInfos rawPeerInfos parse
        credential).map fun record => request.updateCall record.toList none false
  | .sharedNode =>
    (extractSharedNodePeerInfo codec request.fromPeerId peerInfos rawPeerInfos).map
      fun record => request.updateCall record.toList none false
  | .foreignRelay =>
    let records := extractForeignRelayPeerInfos codec request.fromPeerId peerInfos rawPeerInfos
    if request.overwritesLocalPeer (records.map Prod.fst) then
      some (request.updateCall [] none false)
    else some (request.updateCall records request.connInfo true)

def noRecordsCall : Option (UpdateCall ρ) :=
  match request.connInfo with
  | some connInfo =>
    some (request.updateCall [] (if request.acceptConnInfo then some connInfo else none)
      request.acceptConnInfo)
  | none =>
    if request.fromIdentityType = .admin then none
    else some (request.updateCall [] none false)

def applyForeignNetwork (s : SyncedRouteInfo ρ) : SyncedRouteInfo ρ :=
  match request.foreignNetwork with
  | some infos =>
    if request.fromIdentityType = .admin then (s.updateForeignNetwork request.now infos).2 else s
  | none => s

def carryOut (request : SyncRequest ρ) (s : SyncedRouteInfo ρ) (call : UpdateCall ρ) :
    Except SyncRouteInfoError Unit × SyncedRouteInfo ρ :=
  match s.updateWithAuthority codec call with
  | (.error error, s) => (.error error, s)
  | (.ok _, s) => (.ok (), request.applyForeignNetwork s)

/-- `do_sync_route_info_validated` on the route state; `none` is a panic. -/
def doSyncRouteInfoValidated (parse : String → Option IpCidr) (s : SyncedRouteInfo ρ)
    (request : SyncRequest ρ) :
    Option (Except SyncRouteInfoError Unit × SyncedRouteInfo ρ) :=
  match request.session with
  | .error error => some (.error error, s)
  | .ok () =>
    if request.fromIdentityType = .credential ∧ request.credentialInfo.isNone then
      some (.error .stopped, s)
    else
      match request.peerInfos, request.rawPeerInfos with
      | some _, none => some (.error .stopped, s)
      | some peerInfos, some rawPeerInfos =>
        (request.recordsCall codec parse peerInfos rawPeerInfos).map (request.carryOut codec s)
      | none, _ =>
        match request.noRecordsCall with
        | some call => some (request.carryOut codec s call)
        | none => some (.ok (), request.applyForeignNetwork s)

end SyncRequest

end LowerTier.Peers.OspfRoute
