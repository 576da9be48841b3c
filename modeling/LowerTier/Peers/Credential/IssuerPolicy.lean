import LowerTier.Peers.Credential.Manager
import LowerTier.ProofSupport.CheckedFold
import Mathlib.Data.Countable.Basic
import Mathlib.Logic.Equiv.List

/-!
# Trusted credentials carry the policy of their issuer

`normalize_credential_policy` of `peers/peer_ospf_route.rs`, and what it and the verification of a
bundle against a pinned root return: every policy field is the one of a certificate that the pinned
root signed.  The three kinds of signed messages are kept apart by their domains.
-/

namespace LowerTier.Peers.Credential

open List ProofSupport ProofSupport.ByteString ProofSupport.MachineInt CheckedFold

structure RouteRoot where
  networkName : String
  credentialRootPublicKey : Bytes
  credentialRootFingerprint : Bytes
  credentialManager : CredentialManager

def credentialIsCurrent (credential : TrustedCredentialPubkey) (manager : CredentialManager)
    (now : Int) : Bool :=
  decide (credential.expiryUnix > now) &&
    credential.certificateId.length == ROUTE_CREDENTIAL_ID_BYTES &&
    credential.certificateId.any (· != 0) &&
    !decide (manager.isCertificateIdRevoked credential.certificateId)

namespace RouteRoot

variable (P : Primitives) (service : RouteRoot)

/-- The credential with the fields of its certificate, and the identity of the certificate. -/
def normalizeCredentialPolicy (credential : TrustedCredentialPubkey) (now : Int) :
    Option (TrustedCredentialPubkey × Bytes) :=
  credential.certificate.bind fun certificate =>
    if credential.disagrees service.credentialRootPublicKey service.credentialRootFingerprint
        certificate then none
    else
      match P.verifyTrustedCredential credential service.networkName
          (some service.credentialRootFingerprint) now with
      | .error _ => none
      | .ok () =>
        if !credentialIsCurrent credential service.credentialManager now then none
        else some (credential.normalized certificate, 1 :: P.encodeCertificate certificate)

end RouteRoot

inductive Kind where
  | certificate | status | revocation
deriving DecidableEq

/-- A message that the holder of a root key signs. -/
inductive Signable where
  | certificate (certificate : CredentialCertificate)
  | status (status : CredentialCertificateStatus)
  | revocation (state : CredentialRevocationState)

def Signable.kind : Signable → Kind
  | .certificate _ => .certificate
  | .status _ => .status
  | .revocation _ => .revocation

def Primitives.signingBytes (P : Primitives) : Signable → Bytes
  | .certificate certificate => P.certificateSigningBytes certificate
  | .status status => P.statusSigningBytes status
  | .revocation state => P.revocationSigningBytes state

/-- No signature of a root is forged: what verifies under its key was signed by its holder, and a
signature was made for one message.  `Signed` lists the messages with their signatures. -/
structure Unforgeable (P : Primitives) (root : Bytes) (Signed : Signable → Bytes → Prop) :
    Prop where
  accepted : ∀ message signature, P.ed25519Verify root message signature = true →
    ∃ item, Signed item signature ∧ P.signingBytes item = message
  single : ∀ item other signature, Signed item signature → Signed other signature →
    P.signingBytes item = P.signingBytes other

structure InjectiveEncodings (P : Primitives) : Prop where
  certificate : Function.Injective P.encodeCertificate
  status : Function.Injective P.encodeStatus
  revocation : Function.Injective P.encodeRevocationState

/-- No other message has the digest of the fingerprint of a root. -/
def NoCollision (P : Primitives) (root : Bytes) : Prop :=
  ∀ message, P.sha256 message = P.rootFingerprintFor root →
    message = Primitives.rootFingerprintInput root

/-- The fields of a credential that decide what its holder may do. -/
structure Policy where
  pubkey : Bytes
  groups : List String
  allowRelay : Bool
  allowedProxyCidrs : List String
  reusable : Option Bool
  role : String
  expiryUnix : Int
  certificateId : Bytes
deriving DecidableEq

end LowerTier.Peers.Credential

namespace LowerTier.Peers

def CredentialCertificate.policy (certificate : CredentialCertificate) : Credential.Policy :=
  { certificate with
    pubkey := certificate.subjectX25519PublicKey
    reusable := some certificate.reusable }

def TrustedCredentialPubkey.policy (credential : TrustedCredentialPubkey) : Credential.Policy :=
  { credential with }

end LowerTier.Peers

namespace LowerTier.Peers.Credential

open List ProofSupport ProofSupport.ByteString ProofSupport.MachineInt CheckedFold

def CredentialBundle.policy (P : Primitives) (bundle : CredentialBundle) : Policy :=
  { bundle with
    pubkey := P.x25519PublicKey bundle.x25519PrivateKey
    reusable := some bundle.reusable }

/-- A certificate for a credential of a network that the root signed, whose lifetime is at most a
day and contains the present up to the skew. -/
structure IssuedFor (root : Bytes) (Signed : Signable → Bytes → Prop) (networkName : String)
    (now : Int) (certificate : CredentialCertificate) : Prop where
  signed : ∃ signature, Signed (.certificate certificate) signature
  rootKey : certificate.rootPublicKey = root
  network : certificate.networkName = networkName
  role : certificate.role = "Credential"
  started : certificate.issuedUnix ≤ now + 5 * 60
  unexpired : now < certificate.expiryUnix
  lifetime : certificate.expiryUnix - certificate.issuedUnix ≤ 24 * 60 * 60

section Assumptions

variable {P : Primitives} {root : Bytes} {Signed : Signable → Bytes → Prop}

theorem eq_of_rootFingerprintFor_eq (hhash : NoCollision P root) {key : Bytes}
    (h : P.rootFingerprintFor key = P.rootFingerprintFor root) : key = root := by
  have hinput : ROOT_FINGERPRINT_DOMAIN ++ beBytes 8 key.length ++ key =
      ROOT_FINGERPRINT_DOMAIN ++ beBytes 8 root.length ++ root := hhash _ h
  rw [append_assoc, append_assoc] at hinput
  have htail := append_cancel_left hinput
  exact (append_inj htail (by simp)).2

theorem kind_eq_of_signingBytes_eq {item other : Signable}
    (h : P.signingBytes item = P.signingBytes other) : item.kind = other.kind := by
  cases item <;> cases other
  case certificate.certificate | status.status | revocation.revocation => rfl
  case certificate.status => exact absurd h (certificate_ne_status _ _)
  case certificate.revocation => exact absurd h (certificate_ne_revocation _ _)
  case status.certificate => exact absurd h.symm (certificate_ne_status _ _)
  case status.revocation => exact absurd h.symm (revocation_ne_status _ _)
  case revocation.certificate => exact absurd h.symm (certificate_ne_revocation _ _)
  case revocation.status => exact absurd h (revocation_ne_status _ _)

/-- A signature that verifies for a message of one kind was made for that kind. -/
theorem kind_of_accepted (hforge : Unforgeable P root Signed) (item : Signable) {made : Signable}
    {signature : Bytes} (hverify : P.ed25519Verify root (P.signingBytes item) signature = true)
    (hmade : Signed made signature) : made.kind = item.kind := by
  obtain ⟨signed, hsigned, hbytes⟩ := hforge.accepted _ _ hverify
  apply kind_eq_of_signingBytes_eq
  calc P.signingBytes made
    _ = P.signingBytes signed := hforge.single _ _ _ hmade hsigned
    _ = P.signingBytes item := hbytes

variable {certificate : CredentialCertificate}

/-- A certificate that verifies is one that was signed, apart from the signature it carries. -/
theorem signed_of_accepted (hforge : Unforgeable P root Signed) (henc : InjectiveEncodings P)
    {signature : Bytes}
    (hverify : P.ed25519Verify root (P.certificateSigningBytes certificate) signature = true) :
    ∃ issued, Signed (.certificate issued) signature ∧
      { issued with signature := [] } = { certificate with signature := [] } := by
  obtain ⟨item, hsigned, hbytes⟩ := hforge.accepted _ _ hverify
  have hkind : item.kind = (Signable.certificate certificate).kind :=
    kind_eq_of_signingBytes_eq hbytes
  cases item with
  | certificate issued =>
    exact ⟨issued, hsigned, henc.certificate (append_cancel_left hbytes)⟩
  | status status => cases hkind
  | revocation state => cases hkind

/-! ## What the verifiers establish -/

structure Accepted (P : Primitives) (certificate : CredentialCertificate) (networkName : String)
    (rootPublicKey : Bytes) (pinnedRootFingerprint : Option Bytes) (now : Int) : Prop where
  network : certificate.networkName = networkName
  rootKey : certificate.rootPublicKey = rootPublicKey
  fingerprint : certificate.rootFingerprint = P.rootFingerprintFor rootPublicKey
  unexpired : now < certificate.expiryUnix
  started : certificate.issuedUnix ≤ latestStart now
  positive : certificate.issuedUnix < certificate.expiryUnix
  lifetime : lifetime certificate.issuedUnix certificate.expiryUnix ≤ 24 * 60 * 60
  pinned : ∀ pinned ∈ pinnedRootFingerprint, pinned = certificate.rootFingerprint
  verified : P.ed25519Verify rootPublicKey (P.certificateSigningBytes certificate)
    certificate.signature = true

variable {now : Int} {networkName : String} {pinnedRootFingerprint : Option Bytes}
  {rootPublicKey : Bytes}

theorem accepted_of_verify
    (h : P.verifyCredentialCertificate certificate networkName rootPublicKey pinnedRootFingerprint
      now = .ok ()) :
    Accepted P certificate networkName rootPublicKey pinnedRootFingerprint now := by
  unfold Primitives.verifyCredentialCertificate at h
  split at h
  · cases h
  next hfields =>
  split at h
  · cases h
  next hpinned =>
  split at h
  · next hverified =>
    simp only [Primitives.isMalformedCertificate, hasInvalidLifetime, Bool.or_eq_true, bne_iff_ne,
      ne_eq, decide_eq_true_eq, not_or, not_not, not_le, not_lt, Bool.not_eq_true] at hfields
    obtain ⟨⟨⟨⟨⟨⟨⟨⟨⟨⟨⟨⟨⟨-, -⟩, hnetwork⟩, hrootKey⟩, hfingerprint⟩, -⟩, -⟩, -⟩, hunexpired⟩,
      hstarted⟩, hpositive, hlifetime⟩, -⟩, -⟩, -⟩ := hfields
    refine ⟨hnetwork, hrootKey, hfingerprint, hunexpired, hstarted, hpositive, hlifetime, ?_,
      hverified⟩
    rintro pinned hin
    simpa [Option.mem_def.mp hin] using hpinned
  · cases h

/-- A certificate with the fingerprint of the root is verified under its key. -/
theorem Accepted.root_eq {pinned : Bytes}
    (h : Accepted P certificate networkName rootPublicKey (some pinned) now)
    (hhash : NoCollision P root) (hpin : pinned = P.rootFingerprintFor root) :
    rootPublicKey = root := by
  apply eq_of_rootFingerprintFor_eq hhash
  calc P.rootFingerprintFor rootPublicKey
    _ = certificate.rootFingerprint := h.fingerprint.symm
    _ = pinned := (h.pinned _ rfl).symm
    _ = P.rootFingerprintFor root := hpin

/-- The certificate that the root signed behind an accepted one with the role of a credential. -/
theorem Accepted.issued (h : Accepted P certificate networkName root pinnedRootFingerprint now)
    (hforge : Unforgeable P root Signed) (henc : InjectiveEncodings P)
    (hrole : certificate.role = "Credential") (hnow : -2 ^ 63 ≤ now) :
    ∃ issued, IssuedFor root Signed networkName now issued ∧
      issued.policy = certificate.policy := by
  obtain ⟨issued, hsigned, hsame⟩ := signed_of_accepted hforge henc h.verified
  have hfields := CredentialCertificate.mk.inj hsame
  have hstarted : certificate.issuedUnix ≤ now + 5 * 60 := h.started.trans (max_le (by
      omega) (min_le_left _ _))
  have hlifetime : certificate.expiryUnix - certificate.issuedUnix ≤ 24 * 60 * 60 :=
    le_of_saturatingInt_le h.lifetime (by decide)
  obtain ⟨-, hnet, hkey, -, hsubject, -, hissued, hexpiry, hroles, hgroups, hrelay, hcidrs,
    hreusable, -, hid⟩ := hfields
  refine ⟨issued, ⟨⟨_, hsigned⟩, hkey.trans h.rootKey, hnet.trans h.network, hroles.trans hrole,
    hissued ▸ hstarted, hexpiry ▸ h.unexpired, ?_⟩, ?_⟩
  · rw [hexpiry, hissued]
    exact hlifetime
  · simp only [CredentialCertificate.policy, hsubject, hgroups, hrelay, hcidrs, hreusable, hroles,
      hexpiry, hid]

theorem normalized_spec {service : RouteRoot} {credential : TrustedCredentialPubkey}
    {result : TrustedCredentialPubkey × Bytes}
    (h : service.normalizeCredentialPolicy P credential now = some result) :
    ∃ certificate, Accepted P certificate service.networkName service.credentialRootPublicKey
        (some service.credentialRootFingerprint) now ∧
      certificate.role = "Credential" ∧ result.1.policy = certificate.policy ∧
      ¬service.credentialManager.isCertificateIdRevoked certificate.certificateId := by
  obtain ⟨certificate, hcertificate, h⟩ := Option.bind_eq_some_iff.mp h
  split at h
  · cases h
  next hagrees =>
  split at h
  · cases h
  next hverify =>
  split at h
  · cases h
  next hcurrent =>
  cases h
  simp only [TrustedCredentialPubkey.disagrees, Bool.or_eq_true, bne_iff_ne, ne_eq, not_or,
    not_not] at hagrees
  have hrootKey : credential.rootPublicKey = service.credentialRootPublicKey := by tauto
  have hid : certificate.certificateId = credential.certificateId := by tauto
  simp only [Primitives.verifyTrustedCredential, hcertificate] at hverify
  split at hverify
  · cases hverify
  split at hverify
  · cases hverify
  next htrusted =>
  simp only [Primitives.trustedDisagrees, Bool.or_eq_true, bne_iff_ne, ne_eq, not_or,
    not_not] at htrusted
  have hrole : certificate.role = "Credential" := by tauto
  rw [hrootKey] at hverify
  refine ⟨certificate, accepted_of_verify hverify, hrole, rfl, ?_⟩
  rw [hid]
  simp only [credentialIsCurrent, Bool.not_eq_true', Bool.and_eq_false_iff, not_or] at hcurrent
  simpa using hcurrent.2

variable {encoded networkName : String} {bundle : CredentialBundle}

theorem bundle_spec
    (h : P.verifyCredentialBundle encoded networkName rootPublicKey now = .ok bundle) :
    P.parseCredentialBundle encoded = .ok bundle ∧
      ∃ certificate, Accepted P certificate networkName rootPublicKey (some bundle.rootFingerprint)
          now ∧
        certificate.role = "Credential" ∧ bundle.policy P = certificate.policy := by
  obtain ⟨parsed, hparse, h⟩ := bind_eq_ok.mp h
  iterate 3
    split at h
    · cases h
  split at h
  · cases h
  next certificate hcertificate =>
  split at h
  · cases h
  next hagrees =>
  obtain ⟨_, hverify, h⟩ := bind_eq_ok.mp h
  cases h
  simp only [Primitives.disagreesWithCertificate, Bool.or_eq_true, bne_iff_ne, ne_eq, not_or,
    not_not] at hagrees
  obtain ⟨⟨⟨⟨⟨⟨⟨⟨⟨⟨⟨-, hid⟩, -⟩, -⟩, -⟩, hsubject⟩, hexpiry⟩, -⟩, hbundleRole⟩, hrole⟩, hgroups⟩,
    hrelay⟩ := hagrees.1.1.1
  have hcidrs : certificate.allowedProxyCidrs = bundle.allowedProxyCidrs := hagrees.1.1.2
  have hreusable : certificate.reusable = bundle.reusable := hagrees.1.2
  refine ⟨hparse, certificate, accepted_of_verify hverify, hrole.trans hbundleRole, ?_⟩
  simp only [CredentialBundle.policy, CredentialCertificate.policy, hsubject, hgroups, hrelay,
    hcidrs, hreusable, hrole, hexpiry, hid]

/-- With a pinned root, the certificate of an accepted bundle is verified under the root. -/
theorem bundleForNetwork_spec (hhash : NoCollision P root)
    (h : P.verifyCredentialBundleForNetwork encoded networkName (some (P.rootFingerprintFor root))
      now = .ok bundle) :
    ∃ certificate, Accepted P certificate networkName root (some bundle.rootFingerprint) now ∧
      certificate.role = "Credential" ∧ bundle.policy P = certificate.policy := by
  obtain ⟨parsed, hparse, h⟩ := bind_eq_ok.mp h
  split at h
  · cases h
  split at h
  · cases h
  next hpinned =>
  obtain ⟨hsame, certificate, haccepted, hrole, hpolicy⟩ := bundle_spec h
  cases hparse.symm.trans hsame
  have hkey := haccepted.root_eq hhash (by simpa using Eq.symm (by simpa using hpinned))
  exact ⟨certificate, hkey ▸ haccepted, hrole, hpolicy⟩

/-- The signature of a status is verified whether the status says that the certificate is revoked
or not. -/
theorem status_verified (hhash : NoCollision P root) {statusBytes certificateId : Bytes}
    {maxLifetime minimumSequence : Nat}
    {status : CredentialCertificateStatus} (hdecode : P.decodeStatus statusBytes = some status)
    (h : P.verifyStatusEvidenceBytes statusBytes networkName (P.rootFingerprintFor root)
        certificateId now maxLifetime minimumSequence = .ok status ∨
      P.verifyStatusEvidenceBytes statusBytes networkName (P.rootFingerprintFor root)
        certificateId now maxLifetime minimumSequence = .error .revoked) :
    P.ed25519Verify root (P.statusSigningBytes status) status.signature = true := by
  simp only [Primitives.verifyStatusEvidenceBytes, hdecode] at h
  split at h
  · simp at h
  split at h
  · rcases h with h | h
    · cases h
    · split at h <;> simp at h
      split at h <;> simp at h
  next hfields =>
  split at h
  · simp at h
  next hverified =>
  simp only [Primitives.isMalformedStatus, Bool.or_eq_true, bne_iff_ne, ne_eq, not_or,
    not_not] at hfields
  have hkey : status.rootPublicKey = root := eq_of_rootFingerprintFor_eq hhash (by tauto)
  simpa [hkey] using hverified

theorem state_verified {minimumVersion : Nat} {state : CredentialRevocationState}
    (h : P.verifyRevocationStateAt encoded networkName root minimumVersion now = .ok state) :
    P.ed25519Verify root (P.revocationSigningBytes state) state.signature = true := by
  unfold Primitives.verifyRevocationStateAt at h
  iterate 6
    split at h
    · cases h
  split at h
  · next hverified => exact Except.ok.inj h ▸ hverified
  · cases h

/-- If no signature of the root is forged, no other key has its fingerprint and messages are encoded
injectively, then every credential that is normalised, or read from a bundle with the root pinned,
has the policy of a certificate for a credential of the network that the root signed and that is
valid now, a normalised one is not revoked here, and a signature that was made for one kind of
message is not accepted for another. -/
theorem trusted_policy_issued (P : Primitives) (root : Bytes) (Signed : Signable → Bytes → Prop)
    (hforge : Unforgeable P root Signed) (hhash : NoCollision P root)
    (henc : InjectiveEncodings P) :
    (∀ (service : RouteRoot) (credential : TrustedCredentialPubkey) (now : Int)
        (result : TrustedCredentialPubkey × Bytes), -2 ^ 63 ≤ now →
        service.credentialRootFingerprint = P.rootFingerprintFor root →
        service.normalizeCredentialPolicy P credential now = some result →
        ∃ certificate, IssuedFor root Signed service.networkName now certificate ∧
          result.1.policy = certificate.policy ∧
          ¬service.credentialManager.isCertificateIdRevoked certificate.certificateId) ∧
      (∀ (encoded networkName : String) (now : Int) (bundle : CredentialBundle), -2 ^ 63 ≤ now →
        P.verifyCredentialBundleForNetwork encoded networkName
          (some (P.rootFingerprintFor root)) now = .ok bundle →
        ∃ certificate, IssuedFor root Signed networkName now certificate ∧
          bundle.policy P = certificate.policy) ∧
      ∀ (made : Signable) (signature : Bytes), Signed made signature →
        (∀ certificate networkName pinned now, certificate.signature = signature →
          P.verifyCredentialCertificate certificate networkName root pinned now = .ok () →
          made.kind = .certificate) ∧
        (∀ statusBytes status networkName certificateId now maxLifetime minimumSequence,
          P.decodeStatus statusBytes = some status → status.signature = signature →
          (P.verifyStatusEvidenceBytes statusBytes networkName (P.rootFingerprintFor root)
              certificateId now maxLifetime minimumSequence = .ok status ∨
            P.verifyStatusEvidenceBytes statusBytes networkName (P.rootFingerprintFor root)
              certificateId now maxLifetime minimumSequence = .error .revoked) →
          made.kind = .status) ∧
        (∀ encoded networkName minimumVersion now state, state.signature = signature →
          P.verifyRevocationStateAt encoded networkName root minimumVersion now = .ok state →
          made.kind = .revocation) := by
  refine ⟨?_, ?_, ?_⟩
  · intro service credential now result hnow hpin hresult
    obtain ⟨certificate, haccepted, hrole, hpolicy, hcurrent⟩ := normalized_spec hresult
    have hkey := haccepted.root_eq hhash hpin
    obtain ⟨issued, hissued, hsame⟩ := (hkey ▸ haccepted).issued hforge henc hrole hnow
    have hid : issued.certificateId = certificate.certificateId := congrArg (·.certificateId) hsame
    exact ⟨issued, hissued, hpolicy.trans hsame.symm, hid ▸ hcurrent⟩
  · intro encoded networkName now bundle hnow hbundle
    obtain ⟨certificate, haccepted, hrole, hpolicy⟩ := bundleForNetwork_spec hhash hbundle
    obtain ⟨issued, hissued, hsame⟩ := haccepted.issued hforge henc hrole hnow
    exact ⟨issued, hissued, hpolicy.trans hsame.symm⟩
  · intro made signature hmade
    refine ⟨?_, ?_, ?_⟩
    · rintro certificate networkName pinned now rfl hverify
      exact kind_of_accepted hforge (.certificate certificate)
        (accepted_of_verify hverify).verified hmade
    · rintro statusBytes status networkName certificateId now maxLifetime minimumSequence hdecode
        rfl
        hverify
      exact kind_of_accepted hforge (.status status) (status_verified hhash hdecode hverify) hmade
    · rintro encoded networkName minimumVersion now state rfl hverify
      exact kind_of_accepted hforge (.revocation state) (state_verified hverify) hmade

end Assumptions

/-! ### One network

A root that signed one certificate, with primitives that meet the assumptions: the encodings are any
injective ones, and only the signature of that certificate verifies. -/

namespace OneCredential

instance countableUInt8 : Countable UInt8 :=
  Function.Injective.countable (f := UInt8.toNat) fun _ _ h => UInt8.toNat_inj.mp h

instance countableChar : Countable Char :=
  Function.Injective.countable (f := Char.toNat) fun _ _ h => Char.toNat_inj.mp h

instance countableString : Countable String :=
  Function.Injective.countable (f := String.toList) fun _ _ h => String.toList_inj.mp h

instance : Countable CredentialCertificate :=
  Function.Injective.countable (f := fun c => ((c.version, c.networkName, c.rootPublicKey,
      c.rootFingerprint, c.subjectX25519PublicKey, c.serial, c.issuedUnix, c.expiryUnix),
      c.role, c.groups, c.allowRelay, c.allowedProxyCidrs, c.reusable, c.signature,
      c.certificateId)) fun c d h => by
    cases c
    cases d
    simp_all

instance : Countable CredentialCertificateStatus :=
  Function.Injective.countable (f := fun s => (s.version, s.networkName, s.rootFingerprint,
      s.certificateId, s.sequence, s.issuedUnix, s.notAfterUnix, s.revoked, s.signature,
      s.rootPublicKey)) fun s t h => by
    cases s
    cases t
    simp_all

instance : Countable CredentialRevocationState :=
  Function.Injective.countable (f := fun s => (s.version, s.networkName, s.rootPublicKey,
      s.rootFingerprint, s.stateVersion, s.revokedSerials, s.issuedUnix, s.signature,
      s.revokedCertificateIds)) fun s t h => by
    cases s
    cases t
    simp_all

/-- Countably many messages can be told apart by the length of their encoding. -/
theorem exists_encoding (α : Type) [Countable α] :
    ∃ encode : α → Bytes, Function.Injective encode := by
  obtain ⟨number, hnumber⟩ := Countable.exists_injective_nat α
  refine ⟨fun message => replicate (number message) 0, fun a b h => hnumber ?_⟩
  simpa using congrArg length h

def root : Bytes := replicate 32 1

def fingerprint : Bytes := replicate 32 2

def certificate : CredentialCertificate :=
  { (default : CredentialCertificate) with
    version := 1
    networkName := "net"
    rootPublicKey := root
    rootFingerprint := fingerprint
    subjectX25519PublicKey := replicate 32 3
    issuedUnix := 100
    expiryUnix := 3700
    role := "Credential"
    groups := ["guests"]
    reusable := true
    signature := replicate 64 4
    certificateId := replicate 16 5 }

def bundle : CredentialBundle :=
  { certificate with x25519PrivateKey := replicate 32 3, certificate := some certificate }

def credential : TrustedCredentialPubkey :=
  { TrustedCredentialPubkey.normalized default certificate with certificate := some certificate }

noncomputable def primitives : Primitives where
  sha256 message :=
    if message = Primitives.rootFingerprintInput root then fingerprint
    else message ++ replicate 33 0
  ed25519Sign _ _ := replicate 64 4
  ed25519Verify _ message signature := decide (signature = replicate 64 4 ∧
    message = CERTIFICATE_DOMAIN ++
      Classical.choose (exists_encoding CredentialCertificate) { certificate with signature := [] })
  x25519PublicKey key := key
  encodeBase64 _ := ""
  encodeUrlSafe _ := ""
  decodeUrlSafe _ := some []
  encodeCertificate := Classical.choose (exists_encoding CredentialCertificate)
  encodeBundleMessage _ := []
  decodeBundleMessage _ := some bundle
  encodeRevocationState := Classical.choose (exists_encoding CredentialRevocationState)
  decodeRevocationState _ := none
  encodeStatus := Classical.choose (exists_encoding CredentialCertificateStatus)
  decodeStatus _ := none

/-- The root signed the certificate and nothing else. -/
def Signed (item : Signable) (signature : Bytes) : Prop :=
  item = .certificate certificate ∧ signature = replicate 64 4

theorem unforgeable : Unforgeable primitives root Signed where
  accepted message signature h := by
    obtain ⟨hsignature, hmessage⟩ := of_decide_eq_true h
    exact ⟨.certificate certificate, ⟨rfl, hsignature⟩, hmessage.symm⟩
  single item other signature hitem hother := by rw [hitem.1, hother.1]

theorem rootFingerprintFor_root : primitives.rootFingerprintFor root = fingerprint := by
  simp [Primitives.rootFingerprintFor, primitives]

theorem noCollision : NoCollision primitives root := by
  intro message h
  rw [rootFingerprintFor_root] at h
  by_contra hne
  have hlength := congrArg length ((if_neg hne).symm.trans h)
  simp [fingerprint] at hlength

theorem injectiveEncodings : InjectiveEncodings primitives where
  certificate := Classical.choose_spec (exists_encoding CredentialCertificate)
  status := Classical.choose_spec (exists_encoding CredentialCertificateStatus)
  revocation := Classical.choose_spec (exists_encoding CredentialRevocationState)

theorem certificate_accepted : primitives.verifyCredentialCertificate certificate "net" root
    (some fingerprint) 200 = .ok () := by
  have hformed : primitives.isMalformedCertificate certificate "net" root 200 = false := by
    decide
  have hverified : primitives.ed25519Verify root (primitives.certificateSigningBytes certificate)
      certificate.signature = true := decide_eq_true ⟨rfl, rfl⟩
  rw [Primitives.verifyCredentialCertificate, hformed, if_neg Bool.false_ne_true,
    if_neg (by decide), if_pos hverified]

def service (revoked : List Bytes) : RouteRoot where
  networkName := "net"
  credentialRootPublicKey := root
  credentialRootFingerprint := fingerprint
  credentialManager :=
    { credentials := { revokedCertificateIds := .ofList revoked }
      hasStoragePath := false
      networkName := "net"
      rootSeed := none
      rootPublicKey := root
      rootFingerprint := fingerprint }

theorem credential_normalized : ((service []).normalizeCredentialPolicy primitives credential
    200).isSome := by
  have hverify : primitives.verifyTrustedCredential credential "net" (some fingerprint) 200 =
      .ok () := certificate_accepted
  have hcurrent : credentialIsCurrent credential (service []).credentialManager 200 = true := by
    decide
  have hcertificate : credential.certificate = some certificate := rfl
  simp only [RouteRoot.normalizeCredentialPolicy, hcertificate, Option.bind_some,
    show (service []).networkName = "net" from rfl,
    show (service []).credentialRootFingerprint = fingerprint from rfl, hverify, hcurrent]
  rfl

theorem bundle_accepted (encoded : String) :
    primitives.verifyCredentialBundleForNetwork encoded "net"
    (some fingerprint) 200 = .ok bundle := by
  have hparse : primitives.parseCredentialBundle encoded = .ok bundle := rfl
  have hagrees : primitives.disagreesWithCertificate bundle certificate = false := by decide
  have hverify : primitives.verifyCredentialBundle encoded "net" root 200 = .ok bundle := by
    rw [Primitives.verifyCredentialBundle, hparse, rootFingerprintFor_root]
    dsimp only [bind, Except.bind]
    simp only [show bundle.certificate = some certificate from rfl,
      show bundle.rootFingerprint = fingerprint from rfl, hagrees, certificate_accepted]
    rfl
  rw [Primitives.verifyCredentialBundleForNetwork, hparse]
  exact hverify

/-- The id of the certificate is revoked here, and the bundle is accepted all the same: the
verification of a bundle does not consult a manager. -/
theorem revoked_bundle_accepted :
    Unforgeable primitives root Signed ∧ NoCollision primitives root ∧
      InjectiveEncodings primitives ∧
      primitives.verifyCredentialBundleForNetwork "" "net"
        (some (primitives.rootFingerprintFor root)) 200 = .ok bundle ∧
      (service [List.replicate 16 5]).credentialManager.isCertificateIdRevoked
        bundle.certificateId :=
  ⟨unforgeable, noCollision, injectiveEncodings, rootFingerprintFor_root ▸ bundle_accepted "",
    by decide⟩

end OneCredential

theorem trusted_policy_issued_guests :
    ∃ result certificate, (OneCredential.service []).normalizeCredentialPolicy
        OneCredential.primitives OneCredential.credential 200 = some result ∧
      IssuedFor OneCredential.root OneCredential.Signed "net" 200 certificate ∧
      result.1.policy = certificate.policy := by
  obtain ⟨result, hresult⟩ := Option.isSome_iff_exists.mp OneCredential.credential_normalized
  have htrusted := trusted_policy_issued _ _ _ OneCredential.unforgeable OneCredential.noCollision
    OneCredential.injectiveEncodings
  obtain ⟨certificate, hissued, hpolicy, -⟩ := htrusted.1 _ _ _ _ (by decide)
    OneCredential.rootFingerprintFor_root.symm hresult
  exact ⟨result, certificate, hresult, hissued, hpolicy⟩

end LowerTier.Peers.Credential
