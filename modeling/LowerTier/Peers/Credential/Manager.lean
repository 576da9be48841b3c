import LowerTier.Common.Acl.Rule
import LowerTier.Peers.OspfRoute.PeerInfo
import LowerTier.ProofSupport.MachineInt
import LowerTier.ProofSupport.Trace

/-!
# Credentials (`peers/credential_manager.rs`, `proto/peer_rpc.proto`)

The messages that a network root signs, the bundle and the trusted credential that carry them, and
the bytes that are signed.  Hashes, signatures, key exchange, base64 and the encoding of messages
belong to other crates and are parameters, collected in `Primitives`.
-/

namespace LowerTier.Peers.Credential

open ProofSupport ProofSupport.ByteString ProofSupport.MachineInt

def CREDENTIAL_BUNDLE_VERSION : Nat := 1
def CREDENTIAL_STATE_VERSION : Nat := 1
def CERTIFICATE_ID_LEN : Nat := 16
def NANOS_PER_SEC : Nat := 10 ^ 9
/-- In nanoseconds, as every `Duration`. -/
def MAX_CREDENTIAL_TTL : Nat := 24 * 60 * 60 * NANOS_PER_SEC
def MAX_REVOCATION_AGE : Int := 24 * 60 * 60
def MAX_FUTURE_SKEW : Int := 5 * 60
def MAX_STATUS_LIFETIME : Nat := 60 * NANOS_PER_SEC

def asSecs (duration : Nat) : Nat := duration / NANOS_PER_SEC

def asciiBytes (text : String) : Bytes := text.toList.map fun c => UInt8.ofNat c.toNat

def ROOT_FINGERPRINT_DOMAIN : Bytes := asciiBytes "lowertier credential root fingerprint v1"
def CERTIFICATE_DOMAIN : Bytes := asciiBytes "lowertier credential certificate v1"
def REVOCATION_DOMAIN : Bytes := asciiBytes "lowertier credential revocation v1"
def STATUS_DOMAIN : Bytes := asciiBytes "lowertier credential certificate status v1"

inductive CredentialError where
  | invalidEncoding | invalidBundle | wrongNetwork | wrongRoot | expired | revoked
  | invalidSignature | invalidSerial | invalidStateVersion | invalidCertificateId
  | invalidLifetime | issuerUnavailable | futureTimestamp | duplicatePolicyValue
  | storageUnavailable
deriving DecidableEq, Repr

structure CredentialBundle where
  version : Nat
  x25519PrivateKey : Bytes
  networkName : String
  rootPublicKey : Bytes
  rootFingerprint : Bytes
  serial : Nat
  certificate : Option CredentialCertificate
  issuedUnix : Int
  expiryUnix : Int
  role : String
  groups : List String
  allowRelay : Bool
  allowedProxyCidrs : List String
  reusable : Bool
  certificateId : Bytes
deriving DecidableEq, Repr

structure CredentialRevocationState where
  version : Nat
  networkName : String
  rootPublicKey : Bytes
  rootFingerprint : Bytes
  stateVersion : Nat
  revokedSerials : List Nat
  issuedUnix : Int
  signature : Bytes
  revokedCertificateIds : List Bytes
deriving DecidableEq, Repr

structure CredentialCertificateStatus where
  version : Nat
  networkName : String
  rootFingerprint : Bytes
  certificateId : Bytes
  sequence : Nat
  issuedUnix : Int
  notAfterUnix : Int
  revoked : Bool
  signature : Bytes
  rootPublicKey : Bytes
deriving DecidableEq, Repr

/-- What other crates compute.  A public or private key, a seed and a digest are byte strings. -/
structure Primitives where
  sha256 : Bytes → Bytes
  ed25519Sign : Bytes → Bytes → Bytes
  /-- `UnparsedPublicKey::verify` of a message and a signature. -/
  ed25519Verify : Bytes → Bytes → Bytes → Bool
  /-- The public key of a private key. -/
  x25519PublicKey : Bytes → Bytes
  encodeBase64 : Bytes → String
  encodeUrlSafe : Bytes → String
  decodeUrlSafe : String → Option Bytes
  encodeCertificate : CredentialCertificate → Bytes
  encodeBundleMessage : CredentialBundle → Bytes
  decodeBundleMessage : Bytes → Option CredentialBundle
  encodeRevocationState : CredentialRevocationState → Bytes
  decodeRevocationState : Bytes → Option CredentialRevocationState
  encodeStatus : CredentialCertificateStatus → Bytes
  decodeStatus : Bytes → Option CredentialCertificateStatus

def isBlank (value : String) : Bool := (Common.Acl.trim value.toList).isEmpty

def allAdjacent {α : Type} (holds : α → α → Bool) : List α → Bool
  | a :: b :: rest => holds a b && allAdjacent holds (b :: rest)
  | _ => true

def isCanonicalStrings (values : List String) : Bool :=
  values.all (fun value => !isBlank value) && allAdjacent (fun a b => decide (a < b)) values

def canonicalStringsChecked (values : List String) : Except CredentialError (List String) :=
  if values.any isBlank then .error .invalidBundle
  else
    let sorted := values.mergeSort
    if allAdjacent (fun a b => a != b) sorted then .ok sorted else .error .duplicatePolicyValue

def isZero (bytes : Bytes) : Bool := bytes.all (· == 0)

/-- The latest start of a certificate, a status or a state that is accepted at `now`. -/
def latestStart (now : Int) : Int := saturatingInt 64 (now + MAX_FUTURE_SKEW)

def lifetime (issuedUnix endUnix : Int) : Int := saturatingInt 64 (endUnix - issuedUnix)

def hasInvalidLifetime (issuedUnix expiryUnix : Int) : Bool :=
  decide (expiryUnix ≤ issuedUnix) ||
    decide (lifetime issuedUnix expiryUnix > (asSecs MAX_CREDENTIAL_TTL : Nat))

def hasInvalidId (certificateId : Bytes) : Bool :=
  certificateId.length != CERTIFICATE_ID_LEN || isZero certificateId

/-! ## Domain separation

The three domains of signed bytes end at different places, so two of them are apart only because
they differ before the shorter one ends. -/

/-- Byte strings that differ before either ends stay apart whatever follows them. -/
theorem append_ne_append {a b : Bytes} (hdiffer : ∃ i, i < a.length ∧ i < b.length ∧ a[i]? ≠ b[i]?)
    (x y : Bytes) : a ++ x ≠ b ++ y := by
  obtain ⟨i, ha, hb, hne⟩ := hdiffer
  intro heq
  apply hne
  have hat := congrArg (·[i]?) heq
  simpa only [List.getElem?_append_left ha, List.getElem?_append_left hb] using hat

variable (x y : Bytes)

theorem certificate_ne_revocation : CERTIFICATE_DOMAIN ++ x ≠ REVOCATION_DOMAIN ++ y :=
  append_ne_append ⟨21, by decide⟩ x y

theorem certificate_ne_status : CERTIFICATE_DOMAIN ++ x ≠ STATUS_DOMAIN ++ y :=
  append_ne_append ⟨33, by decide⟩ x y

theorem revocation_ne_status : REVOCATION_DOMAIN ++ x ≠ STATUS_DOMAIN ++ y :=
  append_ne_append ⟨21, by decide⟩ x y

namespace Primitives

variable (P : Primitives)

def rootFingerprintInput (rootPublicKey : Bytes) : Bytes :=
  ROOT_FINGERPRINT_DOMAIN ++ beBytes 8 rootPublicKey.length ++ rootPublicKey

def rootFingerprintFor (rootPublicKey : Bytes) : Bytes :=
  P.sha256 (rootFingerprintInput rootPublicKey)

variable (certificate : CredentialCertificate)

def certificateSigningBytes : Bytes :=
  CERTIFICATE_DOMAIN ++ P.encodeCertificate { certificate with signature := [] }

variable (state : CredentialRevocationState)

def revocationSigningBytes : Bytes :=
  REVOCATION_DOMAIN ++ P.encodeRevocationState { state with signature := [] }

variable (status : CredentialCertificateStatus)

def statusSigningBytes : Bytes :=
  STATUS_DOMAIN ++ P.encodeStatus { status with signature := [] }

def encodeBundle (bundle : CredentialBundle) : String :=
  P.encodeUrlSafe (P.encodeBundleMessage bundle)

/-!
## Verification of credentials

The verifiers of bundles, certificates, trusted credentials, status assertions and revocation
states, as the manager offers them without any state of its own.
-/

/-- The fields of a certificate that do not fit its root, its network or the time. -/
def isMalformedCertificate (networkName : String) (rootPublicKey : Bytes) (now : Int) : Bool :=
  rootPublicKey.length != 32 || certificate.version != CREDENTIAL_BUNDLE_VERSION ||
    certificate.networkName != networkName || certificate.rootPublicKey != rootPublicKey ||
    certificate.rootFingerprint != P.rootFingerprintFor rootPublicKey ||
    hasInvalidId certificate.certificateId || certificate.serial != 0 ||
    certificate.subjectX25519PublicKey.length != 32 || decide (certificate.expiryUnix ≤ now) ||
    decide (certificate.issuedUnix > latestStart now) ||
    hasInvalidLifetime certificate.issuedUnix certificate.expiryUnix ||
    certificate.signature.length != 64 || !isCanonicalStrings certificate.groups ||
    !isCanonicalStrings certificate.allowedProxyCidrs

def verifyCredentialCertificate (networkName : String) (rootPublicKey : Bytes)
    (pinnedRootFingerprint : Option Bytes) (now : Int) :
    Except CredentialError Unit :=
  if P.isMalformedCertificate certificate networkName rootPublicKey now then
    .error (if certificate.expiryUnix ≤ now then .expired
      else if certificate.issuedUnix > latestStart now then .futureTimestamp
      else if hasInvalidLifetime certificate.issuedUnix certificate.expiryUnix then .invalidLifetime
      else .invalidBundle)
  else if pinnedRootFingerprint.any (· != certificate.rootFingerprint) then .error .wrongRoot
  else if P.ed25519Verify rootPublicKey (P.certificateSigningBytes certificate)
      certificate.signature then .ok ()
  else .error .invalidSignature

def parseCredentialBundle (encoded : String) : Except CredentialError CredentialBundle :=
  match P.decodeUrlSafe encoded with
  | none => .error .invalidEncoding
  | some bytes =>
    match P.decodeBundleMessage bytes with
    | none => .error .invalidBundle
    | some bundle =>
      if P.encodeBundleMessage bundle ≠ bytes then .error .invalidBundle else .ok bundle

/-- The fields of a bundle that differ from those of its certificate. -/
def disagreesWithCertificate (bundle : CredentialBundle) (certificate : CredentialCertificate) :
    Bool :=
  !isCanonicalStrings bundle.groups || !isCanonicalStrings bundle.allowedProxyCidrs ||
    certificate.version != CREDENTIAL_BUNDLE_VERSION || certificate.serial != 0 ||
    certificate.certificateId != bundle.certificateId ||
    certificate.networkName != bundle.networkName ||
    certificate.rootPublicKey != bundle.rootPublicKey ||
    certificate.rootFingerprint != bundle.rootFingerprint ||
    certificate.subjectX25519PublicKey != P.x25519PublicKey bundle.x25519PrivateKey ||
    certificate.expiryUnix != bundle.expiryUnix || certificate.issuedUnix != bundle.issuedUnix ||
    bundle.role != "Credential" || certificate.role != bundle.role ||
    certificate.groups != bundle.groups || certificate.allowRelay != bundle.allowRelay ||
    certificate.allowedProxyCidrs != bundle.allowedProxyCidrs ||
    certificate.reusable != bundle.reusable || certificate.signature.length != 64

variable (encoded networkName : String)

def verifyCredentialBundle (rootPublicKey : Bytes) (now : Int) :
    Except CredentialError CredentialBundle := do
  let bundle ← P.parseCredentialBundle encoded
  if rootPublicKey.length ≠ 32 then .error .wrongRoot
  else if bundle.version ≠ CREDENTIAL_BUNDLE_VERSION ∨ bundle.networkName ≠ networkName ∨
      bundle.rootPublicKey ≠ rootPublicKey ∨
      bundle.rootFingerprint ≠ P.rootFingerprintFor rootPublicKey then
    .error (if bundle.networkName ≠ networkName then .wrongNetwork else .wrongRoot)
  else if bundle.x25519PrivateKey.length ≠ 32 ∨ bundle.expiryUnix ≤ now ∨
      bundle.issuedUnix > latestStart now ∨
      hasInvalidLifetime bundle.issuedUnix bundle.expiryUnix ∨
      hasInvalidId bundle.certificateId then
    .error (if bundle.expiryUnix ≤ now then .expired
      else if bundle.issuedUnix > latestStart now then .futureTimestamp
      else if hasInvalidLifetime bundle.issuedUnix bundle.expiryUnix then .invalidLifetime
      else .invalidCertificateId)
  else
    match bundle.certificate with
    | none => .error .invalidBundle
    | some certificate =>
      if P.disagreesWithCertificate bundle certificate then .error .invalidBundle
      else do
        P.verifyCredentialCertificate certificate networkName rootPublicKey
          (some bundle.rootFingerprint) now
        .ok bundle

def verifyCredentialBundleForNetwork (pinnedRootFingerprint : Option Bytes) (now : Int) :
    Except CredentialError CredentialBundle := do
  let bundle ← P.parseCredentialBundle encoded
  if bundle.networkName ≠ networkName then .error .wrongNetwork
  else if pinnedRootFingerprint.any (· != bundle.rootFingerprint) then .error .wrongRoot
  else P.verifyCredentialBundle encoded networkName bundle.rootPublicKey now

variable (credential : TrustedCredentialPubkey)

/-- The fields of a trusted credential that differ from those of its certificate. -/
def trustedDisagrees (certificate : CredentialCertificate) : Bool :=
  certificate.certificateId != credential.certificateId ||
    certificate.subjectX25519PublicKey != credential.pubkey || certificate.role != "Credential" ||
    certificate.groups != credential.groups || certificate.allowRelay != credential.allowRelay ||
    certificate.expiryUnix != credential.expiryUnix ||
    certificate.allowedProxyCidrs != credential.allowedProxyCidrs ||
    certificate.reusable != credential.reusable.getD false ||
    credential.certificateSignature != certificate.signature

def verifyTrustedCredential (networkName : String) (pinnedRootFingerprint : Option Bytes)
    (now : Int) : Except CredentialError Unit :=
  if credential.pubkey.length ≠ 32 ∨ credential.rootPublicKey.length ≠ 32 ∨
      credential.rootFingerprint.length ≠ 32 ∨ hasInvalidId credential.certificateId then
    .error .invalidBundle
  else
    match credential.certificate with
    | none => .error .invalidBundle
    | some certificate =>
      if trustedDisagrees credential certificate then .error .invalidBundle
      else P.verifyCredentialCertificate certificate networkName credential.rootPublicKey
        pinnedRootFingerprint now

/-! ## Status assertions and revocation states -/

/-- `max_lifetime.as_secs().min(MAX_STATUS_LIFETIME.as_secs())`. -/
def statusLifetimeLimit (maxLifetime : Nat) : Int :=
  (min (asSecs maxLifetime) (asSecs MAX_STATUS_LIFETIME) : Nat)

def isMalformedStatus (networkName : String) (rootFingerprint certificateId : Bytes) (now : Int)
    (maxLifetime minimumSequence : Nat) : Bool :=
  status.version != CREDENTIAL_STATE_VERSION || status.networkName != networkName ||
    status.rootFingerprint != rootFingerprint || status.rootPublicKey.length != 32 ||
    P.rootFingerprintFor status.rootPublicKey != rootFingerprint ||
    status.certificateId != certificateId || decide (status.sequence < minimumSequence) ||
    decide (status.issuedUnix > latestStart now) ||
    decide (status.notAfterUnix ≤ status.issuedUnix) || decide (status.notAfterUnix ≤ now) ||
    decide (lifetime status.issuedUnix status.notAfterUnix > statusLifetimeLimit maxLifetime) ||
    status.signature.length != 64

def verifyStatusEvidenceBytes (statusBytes : Bytes) (networkName : String)
    (rootFingerprint certificateId : Bytes) (now : Int) (maxLifetime minimumSequence : Nat) :
    Except CredentialError CredentialCertificateStatus :=
  match P.decodeStatus statusBytes with
  | none => .error .invalidBundle
  | some status =>
    if P.encodeStatus status ≠ statusBytes ∨ rootFingerprint.length ≠ 32 ∨
        certificateId.length ≠ CERTIFICATE_ID_LEN then .error .invalidBundle
    else if P.isMalformedStatus status networkName rootFingerprint certificateId now maxLifetime
        minimumSequence then
      .error (if status.issuedUnix > latestStart now then .futureTimestamp
        else if status.notAfterUnix ≤ now then .expired
        else .invalidBundle)
    else if !P.ed25519Verify status.rootPublicKey (P.statusSigningBytes status) status.signature
    then .error .invalidSignature
    else if status.revoked then .error .revoked
    else .ok status

def earliestState (now : Int) : Int := saturatingInt 64 (now - MAX_REVOCATION_AGE)

def isMalformedState (networkName : String) (rootPublicKey : Bytes) (now : Int) : Bool :=
  state.version != CREDENTIAL_STATE_VERSION || state.networkName != networkName ||
    state.rootPublicKey != rootPublicKey ||
    state.rootFingerprint != P.rootFingerprintFor rootPublicKey ||
    decide (state.issuedUnix < earliestState now) || decide (state.issuedUnix > latestStart now) ||
    !state.revokedSerials.isEmpty || state.revokedCertificateIds.any hasInvalidId

def verifyRevocationStateAt (rootPublicKey : Bytes) (minimumVersion : Nat) (now : Int) :
    Except CredentialError CredentialRevocationState :=
  if rootPublicKey.length ≠ 32 then .error .wrongRoot
  else
    match P.decodeUrlSafe encoded with
    | none => .error .invalidEncoding
    | some bytes =>
      match P.decodeRevocationState bytes with
      | none => .error .invalidBundle
      | some state =>
        if P.encodeRevocationState state ≠ bytes then .error .invalidBundle
        else if P.isMalformedState state networkName rootPublicKey now then
          .error (if state.issuedUnix > latestStart now then .futureTimestamp
            else if state.issuedUnix < earliestState now then .expired
            else .wrongRoot)
        else if state.stateVersion < minimumVersion ∨
            !allAdjacent (fun a b => decide (a < b)) state.revokedCertificateIds then
          .error .invalidStateVersion
        else if P.ed25519Verify rootPublicKey (P.revocationSigningBytes state) state.signature
        then .ok state
        else .error .invalidSignature

end Primitives

/-!
## Credential manager

The store of issued credentials and of revoked certificate ids, and the calls that change it.
Every call changes the store in memory first and undoes the change by hand when the write of the
file fails.  A call takes the clock readings, the random values and the outcome of each write as
arguments.
-/

structure CredentialEntry where
  pubkey : String
  bundle : String
  certificateId : Bytes
  role : String
  certificateSignature : Bytes
  certificateBytes : Bytes
  groups : List String
  allowRelay : Bool
  allowedProxyCidrs : List String
  reusable : Bool
  expiryUnix : Int
  createdAtUnix : Int
deriving DecidableEq, Repr

structure CredentialStore where
  credentials : KeyedMap String CredentialEntry := ∅
  revocationStateVersion : Nat := 0
  revokedCertificateIds : OrderedSet Bytes := .empty

structure CredentialManager where
  credentials : CredentialStore
  /-- Whether there is a `storage_path`. -/
  hasStoragePath : Bool
  /-- The store in the file. -/
  file : Option CredentialStore := none
  networkName : String
  rootSeed : Option Bytes
  rootPublicKey : Bytes
  rootFingerprint : Bytes

def CredentialEntry.isActiveAt (entry : CredentialEntry) (now : Int)
    (revoked : OrderedSet Bytes) : Bool :=
  entry.certificateId.length == CERTIFICATE_ID_LEN && decide (entry.expiryUnix > now) &&
    decide (entry.certificateId ∉ revoked)

structure IssueRequest where
  groups : List String
  allowRelay : Bool
  allowedProxyCidrs : List String
  /-- In nanoseconds. -/
  ttl : Nat
  credentialId : Option String
  reusable : Bool

def IssueRequest.storedId (request : IssueRequest) (uuid : String) : String :=
  match request.credentialId with
  | some id => if isBlank id then uuid else String.ofList (Common.Acl.trim id.toList)
  | none => uuid

structure IssueReadings where
  /-- The clock of `remove_expired_credentials`, and whether its write succeeds. -/
  cleanupNow : Int
  cleanupWritten : Bool
  uuid : String
  /-- The certificate ids that the random generator yields in turn. -/
  draws : List Bytes
  now : Int
  privateKey : Bytes
  written : Bool

namespace CredentialManager

variable (P : Primitives) (manager : CredentialManager)

def isCertificateIdRevoked (certificateId : Bytes) : Prop :=
  certificateId ∈ manager.credentials.revokedCertificateIds

instance (certificateId : Bytes) : Decidable (manager.isCertificateIdRevoked certificateId) :=
  inferInstanceAs (Decidable (_ ∈ manager.credentials.revokedCertificateIds))

def persistStore (written : Bool) : Except CredentialError CredentialManager :=
  if !manager.hasStoragePath then .ok manager
  else if written then .ok { manager with file := some manager.credentials }
  else .error .storageUnavailable

def saveToDisk (written : Bool) : CredentialManager :=
  if manager.hasStoragePath && written then { manager with file := some manager.credentials }
  else manager

/-! ## Issuing -/

def removeExpiredCredentialsAt (now : Int) (written : Bool) : CredentialManager × Bool :=
  let store := manager.credentials
  let kept := store.credentials.retain (·.isActiveAt now store.revokedCertificateIds)
  let next := { manager with credentials := { store with credentials := kept } }
  if kept.size ≠ store.credentials.size then (next.saveToDisk written, true) else (next, false)

def signCertificate (subjectX25519PublicKey certificateId : Bytes) (issuedUnix expiryUnix : Int)
    (role : String) (groups : List String) (allowRelay : Bool) (allowedProxyCidrs : List String)
    (reusable : Bool) : Except CredentialError CredentialCertificate :=
  match manager.rootSeed with
  | none => .error .issuerUnavailable
  | some rootSeed =>
    if certificateId.length ≠ CERTIFICATE_ID_LEN then .error .invalidCertificateId
    else
      let certificate : CredentialCertificate :=
        { version := CREDENTIAL_BUNDLE_VERSION
          networkName := manager.networkName
          rootPublicKey := manager.rootPublicKey
          rootFingerprint := manager.rootFingerprint
          subjectX25519PublicKey
          serial := 0
          issuedUnix, expiryUnix, role, groups, allowRelay, allowedProxyCidrs, reusable
          signature := []
          certificateId }
      .ok { certificate with
        signature := P.ed25519Sign rootSeed (P.certificateSigningBytes certificate) }

def newEntry (request : IssueRequest) (readings : IssueReadings) (certificateId : Bytes) :
    Except CredentialError CredentialEntry := do
  let expiry := saturatingInt 64 (readings.now + (asSecs request.ttl : Nat))
  let publicKey := P.x25519PublicKey readings.privateKey
  let groups ← canonicalStringsChecked request.groups
  let allowedProxyCidrs ← canonicalStringsChecked request.allowedProxyCidrs
  let certificate ← manager.signCertificate P publicKey certificateId readings.now expiry
    "Credential" groups request.allowRelay allowedProxyCidrs request.reusable
  let bundle : CredentialBundle :=
    { version := CREDENTIAL_BUNDLE_VERSION
      x25519PrivateKey := readings.privateKey
      networkName := manager.networkName
      rootPublicKey := manager.rootPublicKey
      rootFingerprint := manager.rootFingerprint
      serial := 0
      certificate := some certificate
      issuedUnix := readings.now
      expiryUnix := expiry
      role := "Credential"
      groups, allowRelay := request.allowRelay, allowedProxyCidrs, reusable := request.reusable
      certificateId }
  .ok
    { pubkey := P.encodeBase64 publicKey
      bundle := P.encodeBundle bundle
      certificateId
      role := "Credential"
      certificateSignature := certificate.signature
      certificateBytes := P.encodeCertificate certificate
      groups, allowRelay := request.allowRelay, allowedProxyCidrs, reusable := request.reusable
      expiryUnix := expiry
      createdAtUnix := readings.now }

def insertCredential (id : String) (entry : CredentialEntry) : CredentialManager :=
  { manager with credentials :=
    { manager.credentials with credentials := manager.credentials.credentials.insert id entry } }

def removeCredential (id : String) : CredentialManager :=
  { manager with credentials :=
    { manager.credentials with credentials := manager.credentials.credentials.erase id } }

def isFreshId (draw : Bytes) : Bool :=
  !isZero draw && manager.credentials.credentials.entries.all (·.2.certificateId != draw)

/-- The id and the bundle of a credential.  There is no result while no draw is accepted. -/
def generateCredentialBundle (request : IssueRequest) (readings : IssueReadings) :
    CredentialManager × Option (Except CredentialError (String × String)) :=
  if manager.rootSeed.isNone then (manager, some (.error .issuerUnavailable))
  else if asSecs request.ttl = 0 ∨ request.ttl > MAX_CREDENTIAL_TTL then
    (manager, some (.error .invalidLifetime))
  else
    let manager :=
      (manager.removeExpiredCredentialsAt readings.cleanupNow readings.cleanupWritten).1
    let id := request.storedId readings.uuid
    match (manager.credentials.credentials.lookup id).filter (!·.bundle.isEmpty) with
    | some existing => (manager, some (.ok (id, existing.bundle)))
    | none =>
      match readings.draws.find? manager.isFreshId with
      | none => (manager, none)
      | some certificateId =>
        match manager.newEntry P request readings certificateId with
        | .error error => (manager, some (.error error))
        | .ok entry =>
          let stored := manager.insertCredential id entry
          match stored.persistStore readings.written with
          | .ok persisted => (persisted, some (.ok (id, entry.bundle)))
          | .error error => (stored.removeCredential id, some (.error error))

/-! ## Revoking -/

variable (credentialId : String)

def revokeEntry (entry : CredentialEntry) (nextVersion : Nat) :
    CredentialManager :=
  { manager with credentials :=
    { credentials := manager.credentials.credentials.erase credentialId
      revocationStateVersion := nextVersion
      revokedCertificateIds :=
        manager.credentials.revokedCertificateIds.insert entry.certificateId } }

/-- What a revocation does when the write failed. -/
def undoRevocation (entry : CredentialEntry) (nextVersion : Nat) :
    CredentialManager :=
  { manager with credentials :=
    { credentials := manager.credentials.credentials.insert credentialId entry
      revocationStateVersion := nextVersion - 1
      revokedCertificateIds :=
        manager.credentials.revokedCertificateIds.erase entry.certificateId } }

def tryRevokeCredential (written : Bool) :
    CredentialManager × Except CredentialError Bool :=
  if manager.rootSeed.isNone then (manager, .error .issuerUnavailable)
  else
    match manager.credentials.credentials.lookup credentialId with
    | none => (manager, .ok false)
    | some entry =>
      if entry.certificateId.length ≠ CERTIFICATE_ID_LEN then
        (manager, .error .invalidCertificateId)
      else
        match checkedAdd 64 manager.credentials.revocationStateVersion 1 with
        | none => (manager, .error .invalidStateVersion)
        | some nextVersion =>
          let revoked := manager.revokeEntry credentialId entry nextVersion
          match revoked.persistStore written with
          | .ok persisted => (persisted, .ok true)
          | .error error => (revoked.undoRevocation credentialId entry nextVersion, .error error)

/-- The ids and the version of a signed state that another node issued. -/
def extendRevoked (state : CredentialRevocationState) : CredentialManager :=
  { manager with credentials :=
    { manager.credentials with
      revocationStateVersion := max manager.credentials.revocationStateVersion state.stateVersion
      revokedCertificateIds :=
        manager.credentials.revokedCertificateIds.extend state.revokedCertificateIds } }

def applyRevocationState (encoded : String) (now : Int) (written : Bool) :
    CredentialManager × Except CredentialError Unit :=
  match P.verifyRevocationStateAt encoded manager.networkName manager.rootPublicKey 0 now with
  | .error error => (manager, .error error)
  | .ok state =>
    let next := manager.extendRevoked state
    if manager.credentials.revokedCertificateIds.size =
          next.credentials.revokedCertificateIds.size ∧
        manager.credentials.revocationStateVersion = next.credentials.revocationStateVersion then
      (next, .ok ())
    else (next.saveToDisk written, .ok ())

end CredentialManager

end LowerTier.Peers.Credential
