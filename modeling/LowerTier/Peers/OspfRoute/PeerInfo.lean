import LowerTier.Peers.ServiceRoute.Cidr
import LowerTier.ProofSupport.OrderedMap
import LowerTier.Tunnel.PacketDef

/-!
# Connection rows on the wire (`peers/peer_ospf_route.rs`)

The records of a route synchronisation carry the credentials that administrators publish.
A route synchronisation carries rows of the connection map either as a square bit matrix over
its peers or as a list of rows.  `validate_route_conn_info` checks the shape and the size of
both.
-/

namespace LowerTier.Peers

open ProofSupport.ByteString

structure CredentialCertificate where
  version : Nat
  networkName : String
  rootPublicKey : Bytes
  rootFingerprint : Bytes
  subjectX25519PublicKey : Bytes
  serial : Nat
  issuedUnix : Int
  expiryUnix : Int
  role : String
  groups : List String
  allowRelay : Bool
  allowedProxyCidrs : List String
  reusable : Bool
  signature : Bytes
  certificateId : Bytes
deriving DecidableEq, Repr, Inhabited

structure TrustedCredentialPubkey where
  pubkey : Bytes
  groups : List String
  allowRelay : Bool
  expiryUnix : Int
  allowedProxyCidrs : List String
  reusable : Option Bool
  credentialVersion : Nat
  serial : Nat
  networkName : String
  rootPublicKey : Bytes
  rootFingerprint : Bytes
  role : String
  certificateSignature : Bytes
  certificate : Option CredentialCertificate
  certificateId : Bytes
deriving DecidableEq, Repr, Inhabited

def ROUTE_CREDENTIAL_ID_BYTES : Nat := 16

namespace TrustedCredentialPubkey

variable (credential : TrustedCredentialPubkey)

/-- The duplicated fields of a credential that differ from its certificate or from the root. -/
def disagrees (rootPublicKey rootFingerprint : Bytes) (certificate : CredentialCertificate) :
    Bool :=
  credential.rootPublicKey != rootPublicKey || credential.rootFingerprint != rootFingerprint ||
    credential.serial != 0 || certificate.serial != 0 ||
    credential.certificateId.length != ROUTE_CREDENTIAL_ID_BYTES ||
    credential.certificateId.all (· == 0) ||
    certificate.certificateId != credential.certificateId ||
    certificate.version != credential.credentialVersion ||
    certificate.networkName != credential.networkName ||
    certificate.rootPublicKey != credential.rootPublicKey ||
    certificate.rootFingerprint != credential.rootFingerprint ||
    certificate.subjectX25519PublicKey != credential.pubkey ||
    certificate.expiryUnix != credential.expiryUnix || certificate.role != credential.role ||
    certificate.groups != credential.groups || certificate.allowRelay != credential.allowRelay ||
    certificate.allowedProxyCidrs != credential.allowedProxyCidrs ||
    credential.reusable != some certificate.reusable ||
    credential.certificateSignature != certificate.signature

/-- The credential with the fields of its certificate. -/
def normalized (certificate : CredentialCertificate) : TrustedCredentialPubkey :=
  { credential with
    credentialVersion := certificate.version
    networkName := certificate.networkName
    rootPublicKey := certificate.rootPublicKey
    rootFingerprint := certificate.rootFingerprint
    pubkey := certificate.subjectX25519PublicKey
    serial := 0
    certificateId := certificate.certificateId
    expiryUnix := certificate.expiryUnix
    role := certificate.role
    groups := certificate.groups
    allowRelay := certificate.allowRelay
    allowedProxyCidrs := certificate.allowedProxyCidrs
    reusable := some certificate.reusable
    certificateSignature := certificate.signature }

end TrustedCredentialPubkey

end LowerTier.Peers

namespace LowerTier.Peers.OspfRoute

open ProofSupport ProofSupport.ByteString Tunnel

def MAX_ROUTE_SYNC_PEERS : Nat := 4096

def MAX_ROUTE_SYNC_EDGES : Nat := 32768

def MAX_ROUTE_SYNC_EDGES_PER_SOURCE : Nat := 1024

structure PeerIdVersion where
  peerId : PeerId
  version : Nat
deriving DecidableEq, Repr

structure RouteConnBitmap where
  peerIds : List PeerIdVersion
  bitmap : Bytes
deriving DecidableEq, Repr

structure PeerConnInfo where
  peerId : Option PeerIdVersion
  connectedPeerIds : List PeerId
deriving DecidableEq, Repr

structure RouteConnPeerList where
  peerConnInfos : List PeerConnInfo
deriving DecidableEq, Repr

inductive ConnInfo where
  | connBitmap (bitmap : RouteConnBitmap)
  | connPeerList (list : RouteConnPeerList)
deriving DecidableEq, Repr

namespace RouteConnBitmap

variable (b : RouteConnBitmap)

def getBit (idx : Nat) : Bool :=
  match b.bitmap[idx / 8]? with
  | some byte => byte.toNat.testBit (idx % 8)
  | none => false

def getConnectedPeers (peerIdx : Nat) : OrderedSet PeerId :=
  .ofList ((b.peerIds.zipIdx.filter fun entry =>
    b.getBit (peerIdx * b.peerIds.length + entry.2)).map (·.1.peerId))

def rows : List (PeerIdVersion × OrderedSet PeerId) :=
  b.peerIds.zipIdx.map fun entry => (entry.1, b.getConnectedPeers entry.2)

theorem mem_getConnectedPeers {b : RouteConnBitmap} {peerIdx : Nat} {p : PeerId}
    (h : p ∈ b.getConnectedPeers peerIdx) : p ∈ b.peerIds.map (·.peerId) := by
  rw [getConnectedPeers, OrderedSet.mem_ofList, List.mem_map] at h
  obtain ⟨entry, hentry, rfl⟩ := h
  exact List.mem_map_of_mem (List.fst_mem_of_mem_zipIdx (List.mem_filter.mp hentry).1)

end RouteConnBitmap

namespace RouteConnPeerList

def rows (list : RouteConnPeerList) : List (PeerIdVersion × OrderedSet PeerId) :=
  list.peerConnInfos.filterMap fun info =>
    info.peerId.map fun peerId => (peerId, .ofList info.connectedPeerIds)

end RouteConnPeerList

/-! ## Shape checks -/

/-- The reasons for which `validate_route_conn_info` refuses. -/
inductive ConnInfoRejection where
  | bitmapTooManyPeers (peerCount : Nat)
  | bitmapDuplicatePeerId (peerId : PeerId)
  | bitmapLength (length peerCount : Nat)
  | bitmapBitsOutsideMatrix
  | bitmapRowOffsetOverflow
  | bitmapSourceTooManyEdges (sourceIdx edgeCount : Nat)
  | bitmapTooManyEdges (edgeCount : Nat)
  | listTooManySources (sourceCount : Nat)
  | listMissingSource
  | listDuplicateSource (peerId : PeerId)
  | listTooManyConnectedPeers (peerId : PeerId) (connectedCount : Nat)
  | listTooManyEdges (edgeCount : Nat)
  | listDuplicateConnectedPeer
  | listTooManyPeerIds (count : Nat)
deriving DecidableEq, Repr

def countOnes (byte : UInt8) : Nat := (List.range 8).countP byte.toNat.testBit

variable (bitmap : RouteConnBitmap)

def rowByte (rowStart rowEnd byteIdx : Nat) : Option UInt8 :=
  bitmap.bitmap[byteIdx]?.map fun byte =>
    let byte :=
      if byteIdx = rowStart / 8 then byte &&& (0xff <<< UInt8.ofNat (rowStart % 8)) else byte
    let validBits := (rowEnd - 1) % 8 + 1
    if byteIdx = (rowEnd - 1) / 8 ∧ validBits < 8 then
      byte &&& ((1 <<< UInt8.ofNat validBits) - 1)
    else byte

/-- `bitmap_row_edge_count`; the products cannot overflow for a matrix of checked size. -/
def bitmapRowEdgeCount (peerCount sourceIdx : Nat) : Option Nat :=
  if peerCount = 0 then some 0
  else
    let rowStart := sourceIdx * peerCount
    let rowEnd := rowStart + peerCount
    let firstByte := rowStart / 8
    let lastByte := (rowEnd - 1) / 8
    ((List.range' firstByte (lastByte + 1 - firstByte)).mapM fun byteIdx =>
      (rowByte bitmap rowStart rowEnd byteIdx).map countOnes).map List.sum

def checkBitmapRow (peerCount edgeCount sourceIdx : Nat) :
    Except ConnInfoRejection Nat :=
  match bitmapRowEdgeCount bitmap peerCount sourceIdx with
  | none => .error .bitmapRowOffsetOverflow
  | some sourceEdgeCount =>
    if sourceEdgeCount > MAX_ROUTE_SYNC_EDGES_PER_SOURCE then
      .error (.bitmapSourceTooManyEdges sourceIdx sourceEdgeCount)
    else if edgeCount + sourceEdgeCount > MAX_ROUTE_SYNC_EDGES then
      .error (.bitmapTooManyEdges (edgeCount + sourceEdgeCount))
    else .ok (edgeCount + sourceEdgeCount)

def firstDuplicate : Finset PeerId → List PeerId → Option PeerId
  | _, [] => none
  | seen, p :: ps => if p ∈ seen then some p else firstDuplicate (insert p seen) ps

def validateConnBitmap : Except ConnInfoRejection Unit :=
  let peerCount := bitmap.peerIds.length
  let edgeBits := peerCount * peerCount
  if peerCount > MAX_ROUTE_SYNC_PEERS then .error (.bitmapTooManyPeers peerCount)
  else
    match firstDuplicate ∅ (bitmap.peerIds.map (·.peerId)) with
    | some peerId => .error (.bitmapDuplicatePeerId peerId)
    | none =>
      if bitmap.bitmap.length ≠ (edgeBits + 7) / 8 then
        .error (.bitmapLength bitmap.bitmap.length peerCount)
      else if edgeBits % 8 ≠ 0 ∧ (bitmap.bitmap.getLast?.any fun lastByte =>
          lastByte &&& ~~~((1 <<< UInt8.ofNat (edgeBits % 8)) - 1) != 0) then
        .error .bitmapBitsOutsideMatrix
      else
        ((List.range peerCount).foldlM (checkBitmapRow bitmap peerCount) 0).map fun _ => ()

/-- What the loop over a list of rows has seen. -/
structure ListScan where
  sourceIds : Finset PeerId
  nodeIds : Finset PeerId
  edgeCount : Nat

def checkListSource (scan : ListScan) (source : PeerConnInfo) : Except ConnInfoRejection ListScan :=
  match source.peerId with
  | none => .error .listMissingSource
  | some peerId =>
    let connectedCount := source.connectedPeerIds.length
    let edgeCount := scan.edgeCount + connectedCount
    let nodeIds := insert peerId.peerId scan.nodeIds ∪ source.connectedPeerIds.toFinset
    if peerId.peerId ∈ scan.sourceIds then .error (.listDuplicateSource peerId.peerId)
    else if connectedCount > MAX_ROUTE_SYNC_EDGES_PER_SOURCE then
      .error (.listTooManyConnectedPeers peerId.peerId connectedCount)
    else if edgeCount > MAX_ROUTE_SYNC_EDGES then .error (.listTooManyEdges edgeCount)
    else if ¬source.connectedPeerIds.Nodup then .error .listDuplicateConnectedPeer
    else if nodeIds.card > MAX_ROUTE_SYNC_PEERS then .error (.listTooManyPeerIds nodeIds.card)
    else .ok ⟨insert peerId.peerId scan.sourceIds, nodeIds, edgeCount⟩

def validateConnPeerList (list : RouteConnPeerList) : Except ConnInfoRejection Unit :=
  let sourceCount := list.peerConnInfos.length
  if sourceCount > MAX_ROUTE_SYNC_PEERS then .error (.listTooManySources sourceCount)
  else (list.peerConnInfos.foldlM checkListSource ⟨∅, ∅, 0⟩).map fun _ => ()

def validateRouteConnInfo : ConnInfo → Except ConnInfoRejection Unit
  | .connBitmap bitmap => validateConnBitmap bitmap
  | .connPeerList list => validateConnPeerList list

/-!
## Peer records

`RoutePeerInfo` with the fields that the modelled functions read, the checks of a received list
of records, and the two edits that scope a record to the role of its sender.  The length of an
encoded message and the parser of CIDR texts belong to other crates and are parameters.
-/

inductive PeerIdentityType where
  | admin | credential | sharedNode | foreignRelay
deriving DecidableEq, Repr

def PeerIdentityType.code : PeerIdentityType → Int
  | .admin => 0
  | .credential => 1
  | .sharedNode => 2
  | .foreignRelay => 3

structure PeerFeatureFlag where
  avoidRelayData : Bool := false
  isCredentialPeer : Bool := false
  ethernetInput : Bool := false
  bridgeInput : Bool := false
  multicastMembership : Bool := false
  denyTransitData : Bool := false
  relaySemanticsV1 : Bool := false
deriving DecidableEq, Repr

structure PeerGroupInfo where
  groupName : String
  groupProof : Bytes
deriving DecidableEq, Repr

structure TrustedCredentialPubkeyProof where
  credential : Option TrustedCredentialPubkey
  credentialHmac : Bytes
deriving DecidableEq, Repr

structure RoutePeerInfo where
  peerId : PeerId
  version : Nat
  peerRouteId : Nat := 0
  lastUpdate : Option Nat := none
  identityType : Int := PeerIdentityType.admin.code
  featureFlag : Option PeerFeatureFlag := none
  proxyCidrs : List String := []
  hostname : Option String := none
  lowertierVersion : String := ""
  groups : List PeerGroupInfo := []
  noiseStaticPubkey : Bytes := []
  trustedCredentialPubkeys : List TrustedCredentialPubkeyProof := []
  multicastGroups : List Bytes := []
  bridgeAttestationHmac : Bytes := []
deriving DecidableEq, Repr

def RoutePeerInfo.new : RoutePeerInfo where
  peerId := 0
  version := 0

def MAX_ROUTE_SYNC_MULTICAST_GROUPS_PER_PEER : Nat := 256

instance linearOrderUInt8 : LinearOrder UInt8 :=
  linearOrderOfLE UInt8.le_refl UInt8.le_trans UInt8.le_antisymm UInt8.le_total UInt8.not_le

def isMulticastAddress : Bytes → Bool
  | [a, _, _, _] => 224 ≤ a && a ≤ 239
  | a :: rest => rest.length == 15 && a == 0xff
  | [] => false

variable (info : RoutePeerInfo)

/-- The valid groups in order, each once. -/
def RoutePeerInfo.normalizeMulticastGroups : RoutePeerInfo :=
  let groups : OrderedSet Bytes := .ofList (info.multicastGroups.filter isMulticastAddress)
  { info with multicastGroups := groups.toList.take MAX_ROUTE_SYNC_MULTICAST_GROUPS_PER_PEER }

namespace RoutePeerInfo

variable (identityType : PeerIdentityType)

def setPeerIdentity : RoutePeerInfo :=
  let featureFlag := info.featureFlag.getD {}
  { info with
    featureFlag := some { featureFlag with isCredentialPeer := identityType == .credential }
    identityType := identityType.code }

def sanitizeForeignRelayFeatureFlag : RoutePeerInfo :=
  let featureFlag := info.featureFlag.getD {}
  { info with
    featureFlag := some { featureFlag with
      ethernetInput := false
      bridgeInput := false
      multicastMembership := false }
    multicastGroups := [] }

def sanitizeUntrustedRoleCapabilities :
    RoutePeerInfo :=
  if identityType = .admin then info else info.sanitizeForeignRelayFeatureFlag

end RoutePeerInfo

end LowerTier.Peers.OspfRoute
