import LowerTier.Peers.OspfRoute.SyncDispatch

/-!
# Credential and group trusts (`peers/peer_ospf_route.rs`)

The credentials that administrators publish, the peers that are removed when a credential is no
longer trusted, and the groups of every peer.  A route synchronisation checks the groups of the
records it received, and refreshes the credentials where it changed the topology.  Message
authentication codes, certificates and raw messages belong to other crates and are parameters; so
is what the credential manager says of a certificate at the time of a refresh.
-/

namespace LowerTier.Peers.OspfRoute

open ProofSupport ProofSupport.ByteString Tunnel

structure GroupIdentity where
  groupName : String
  groupSecret : String
deriving DecidableEq, Repr

/-- The groups of a peer with their proofs; a group without a proof of its own has an empty
one. -/
abbrev GroupMap := KeyedMap String Bytes

structure TrustEnv (ρ : Type) where
  codec : WireCodec ρ
  parseCidr : String → Option IpCidr
  myPeerId : PeerId
  networkSecret : Option String
  aclGroupDeclarations : List GroupIdentity
  /-- `PeerGroupInfo::verify`. -/
  verifyGroup : PeerGroupInfo → String → PeerId → Bool
  /-- Whether a peer with a key authenticated here as an administrator. -/
  isLocallyAuthenticatedAdmin : PeerId → Bytes → Bool
  credentialRootPublicKey : Bytes
  credentialRootFingerprint : Bytes
  /-- `verify_credential_hmac`, over the raw message of the record where there is one. -/
  verifyCredentialHmac : Option ρ → Nat → TrustedCredentialPubkeyProof → String → Bool
  /-- `raw_credential_certificate_bytes_from_route_info`. -/
  rawCertificateBytes : ρ → Nat → Option Bytes
  encodeCertificate : CredentialCertificate → Bytes

/-- What a refresh takes from outside: whether the manager accepts the certificate of a
credential now (its signature, its expiry and the list of revoked ones), and whether the set of
suppressed peers changes. -/
structure RefreshInput where
  certificateIsCurrent : TrustedCredentialPubkey → Bool
  suppressedChanged : Bool

/-- The credentials that are trusted, by their public keys. -/
abbrev TrustedKeys := KeyedMap Bytes TrustedCredentialPubkey

structure TrustState (ρ : Type) where
  routes : SyncedRouteInfo ρ
  groupTrustMap : KeyedMap PeerId GroupMap
  groupTrustMapCache : KeyedMap PeerId (List String)
  trustedCredentialPubkeys : TrustedKeys

variable (info : RoutePeerInfo)

def RoutePeerInfo.isAdminPeer : Bool :=
  info.version != 0 && info.identityType == PeerIdentityType.admin.code

def RoutePeerInfo.isCredentialPeerInfo : Bool :=
  info.identityType == PeerIdentityType.credential.code

namespace TrustEnv

variable {ρ : Type} (env : TrustEnv ρ)

/-! ## Trusted credentials -/

/-- Without the local secret a credential proof has no trust value. -/
def credentialProofIsValid (raw : Option ρ) (proofIdx : Nat)
    (proof : TrustedCredentialPubkeyProof) : Bool :=
  match env.networkSecret with
  | some secret => !secret.isEmpty && env.verifyCredentialHmac raw proofIdx proof secret
  | none => false

variable (input : RefreshInput)

/-- The credential with the fields of its certificate, and the identity of the certificate. -/
def normalizeCredentialPolicy (credential : TrustedCredentialPubkey) :
    Option (TrustedCredentialPubkey × Bytes) :=
  credential.certificate.bind fun certificate =>
    if credential.disagrees env.credentialRootPublicKey env.credentialRootFingerprint
        certificate then
      none
    -- `verify_trusted_credential` starts with the lengths
    else if credential.pubkey.length ≠ 32 ∨ credential.rootPublicKey.length ≠ 32 ∨
        credential.rootFingerprint.length ≠ 32 then none
    else if !input.certificateIsCurrent credential then none
    else some (credential.normalized certificate, 1 :: env.encodeCertificate certificate)

/-- The candidates of `collect_trusted_credentials` and the keys with different certificates. -/
structure Candidates where
  byPubkey : KeyedMap Bytes (TrustedCredentialPubkey × Bytes)
  conflicting : List Bytes

def addCandidate (candidates : Candidates) (credential : TrustedCredentialPubkey)
    (identity : Bytes) : Candidates :=
  match candidates.byPubkey.lookup credential.pubkey with
  | none =>
    { candidates with
      byPubkey := candidates.byPubkey.insert credential.pubkey (credential, identity) }
  | some known =>
    if known.2 ≠ identity then
      { candidates with conflicting := credential.pubkey :: candidates.conflicting }
    else candidates

def collectProof (raw : Option ρ) (candidates : Candidates)
    (indexed : TrustedCredentialPubkeyProof × Nat) : Candidates :=
  let (proof, proofIdx) := indexed
  if !env.credentialProofIsValid raw proofIdx proof then candidates
  else
    match proof.credential.bind (env.normalizeCredentialPolicy input) with
    | none => candidates
    | some (credential, identity) =>
      addCandidate candidates credential
        (((raw.bind fun raw => env.rawCertificateBytes raw proofIdx).map (1 :: ·)).getD identity)

def collectInfo (routes : SyncedRouteInfo ρ) (candidates : Candidates)
    (entry : (_ : PeerId) × RoutePeerInfo) : Candidates :=
  if entry.2.isAdminPeer then
    entry.2.trustedCredentialPubkeys.zipIdx.foldl
      (env.collectProof input (routes.rawPeerInfos.lookup entry.1)) candidates
  else candidates

def collectTrustedCredentials (routes : SyncedRouteInfo ρ) :
    TrustedKeys :=
  let candidates := routes.peerInfos.entries.reverse.foldl (env.collectInfo input routes) ⟨∅, []⟩
  (candidates.byPubkey.retain fun value => value.1.pubkey ∉ candidates.conflicting).mapValues
    Prod.fst

end TrustEnv

namespace TrustState

variable {ρ : Type}

def new (routes : SyncedRouteInfo ρ) : TrustState ρ := ⟨routes, ∅, ∅, ∅⟩

def setPeerGroups (s : TrustState ρ) (peerId : PeerId) (groups : GroupMap) : TrustState ρ :=
  if groups.keys.isEmpty then
    { s with
      groupTrustMap := s.groupTrustMap.erase peerId
      groupTrustMapCache := s.groupTrustMapCache.erase peerId }
  else
    { s with
      groupTrustMap := s.groupTrustMap.insert peerId groups
      groupTrustMapCache := s.groupTrustMapCache.insert peerId groups.keys }

def getProofGroups (s : TrustState ρ) (peerId : PeerId) : GroupMap :=
  ((s.groupTrustMap.lookup peerId).map (KeyedMap.retain fun proof => !proof.isEmpty)).getD ∅

def orDefault (groups : GroupMap) (name : String) : GroupMap :=
  if name ∈ groups then groups else groups.insert name []

end TrustState

namespace TrustEnv

variable {ρ : Type} (env : TrustEnv ρ)

def groupSecret (name : String) : Option String :=
  (env.aclGroupDeclarations.reverse.find? fun group => group.groupName == name).map (·.groupSecret)

/-- Whether the proof of a group in a record verifies under the secret that is declared here. -/
def groupVerifies (group : PeerGroupInfo) : Bool :=
  (env.groupSecret group.groupName).any fun secret => env.verifyGroup group secret info.peerId

def insertVerified (groups : GroupMap) (group : PeerGroupInfo) : GroupMap :=
  if env.groupVerifies info group then groups.insert group.groupName group.groupProof else groups

/-- On a node without a secret, the groups of an administrator that authenticated here are
trusted as declared. -/
def trustsDeclaredGroups : Bool :=
  env.networkSecret.isNone && env.isLocallyAuthenticatedAdmin info.peerId info.noiseStaticPubkey

def verifyGroups : GroupMap :=
  let verified := info.groups.foldl (env.insertVerified info) ∅
  if env.trustsDeclaredGroups info then
    (info.groups.map (·.groupName)).foldl TrustState.orDefault verified
  else verified

end TrustEnv

namespace TrustState

variable {ρ : Type} (env : TrustEnv ρ)

variable (s : TrustState ρ)

def verifyAndUpdateGroupTrusts (peerInfos : List RoutePeerInfo) : TrustState ρ :=
  peerInfos.foldl (fun s info => s.setPeerGroups info.peerId (env.verifyGroups info)) s

variable (allTrusted : TrustedKeys)

/-- The groups of the credential of one record are added to those with a proof. -/
def updateCredentialGroup (s : TrustState ρ) (info : RoutePeerInfo) : TrustState ρ :=
  if info.noiseStaticPubkey.isEmpty then s
  else
    match allTrusted.lookup info.noiseStaticPubkey with
    | none => s
    | some credential =>
      s.setPeerGroups info.peerId (credential.groups.foldl orDefault (s.getProofGroups info.peerId))

def storedInfos : List RoutePeerInfo :=
  s.routes.peerInfos.entries.reverse.map (·.2)

def updateCredentialGroups : TrustState ρ :=
  s.storedInfos.foldl (updateCredentialGroup allTrusted) s

/-- `collect_revoked_credential_peers` without the protected peer. -/
def revokedPeers (protectedPeerId : PeerId) : List PeerId :=
  (s.routes.peerInfos.entries.filter fun entry =>
    !entry.2.noiseStaticPubkey.isEmpty && entry.2.version != 0 &&
      decide (entry.2.noiseStaticPubkey ∈ s.trustedCredentialPubkeys) &&
      decide (entry.2.noiseStaticPubkey ∉ allTrusted) && entry.1 != protectedPeerId).map (·.1)

def removePeers (peerIds : List PeerId) : TrustState ρ :=
  { s with
    routes := s.routes.removePeersLocked peerIds
    groupTrustMap := peerIds.foldl (fun groups peerId => groups.erase peerId) s.groupTrustMap
    groupTrustMapCache :=
      peerIds.foldl (fun cache peerId => cache.erase peerId) s.groupTrustMapCache }

variable (input : RefreshInput)

def refreshTrusts (s : TrustState ρ) : TrustState ρ :=
  let allTrusted := env.collectTrustedCredentials input s.routes
  let revoked := s.revokedPeers allTrusted env.myPeerId
  let s := { s with trustedCredentialPubkeys := allTrusted }
  let s := { s with routes := s.routes.incVersionIf input.suppressedChanged }
  (s.updateCredentialGroups allTrusted).removePeers revoked

/-- The update of a request, the check of the groups it brought, and the refresh where the
topology changed; the flag says whether there was one. -/
def carryOut (request : SyncRequest ρ) (s : TrustState ρ) (call : UpdateCall ρ) :
    (Except SyncRouteInfoError Bool) × TrustState ρ :=
  match s.routes.updateWithAuthority env.codec call with
  | (.error error, routes) => (.error error, { s with routes })
  | (.ok changed, routes) =>
    let s := verifyAndUpdateGroupTrusts env { s with routes } call.peerInfos
    let s := if changed then s.refreshTrusts env input else s
    (.ok changed, { s with routes := request.applyForeignNetwork s.routes })

/-- What a request asks of the route state: nothing because it is refused, no update, or an
update; the outer `none` is a panic. -/
def requestedCall (request : SyncRequest ρ) :
    Option (Except SyncRouteInfoError (Option (UpdateCall ρ))) :=
  match request.session with
  | .error error => some (.error error)
  | .ok () =>
    if request.fromIdentityType = .credential ∧ request.credentialInfo.isNone then
      some (.error .stopped)
    else
      match request.peerInfos, request.rawPeerInfos with
      | some _, none => some (.error .stopped)
      | some peerInfos, some rawPeerInfos =>
        (request.recordsCall env.codec env.parseCidr peerInfos rawPeerInfos).map
          fun call => .ok (some call)
      | none, _ => some (.ok request.noRecordsCall)

/-- `do_sync_route_info_validated` on the route state and the trusts; a panic changes nothing. -/
def syncRouteInfo (s : TrustState ρ) (request : SyncRequest ρ) :
    (Except SyncRouteInfoError Bool) × TrustState ρ :=
  match requestedCall env request with
  | none => (.error .stopped, s)
  | some (.error error) => (.error error, s)
  | some (.ok none) => (.ok false, { s with routes := request.applyForeignNetwork s.routes })
  | some (.ok (some call)) => s.carryOut env input request call

end TrustState

end LowerTier.Peers.OspfRoute
