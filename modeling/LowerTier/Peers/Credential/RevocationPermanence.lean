import LowerTier.Peers.Credential.Manager

/-!
# Revocation is permanent

Along any sequence of calls on one manager, with writes that succeed or fail, a revoked
certificate id stays revoked and the version of the revocation state does not decrease, and a call
that reports a failed write leaves the revoked ids, the version and the usable credentials as they
were.  This needs a condition on the calls whose write fails: the undo of a revocation takes the id
out of the set also where another node had revoked it before, and a failed issue drops the entries
of older files that have no certificate id or no bundle.
-/

namespace LowerTier.Peers.Credential

open AList ProofSupport ProofSupport.ByteString ProofSupport.MachineInt KeyedMap OrderedSet

inductive Call where
  | generate (request : IssueRequest) (readings : IssueReadings)
  | revoke (credentialId : String) (written : Bool)
  | applyState (encoded : String) (now : Int) (written : Bool)
  | removeExpired (now : Int) (written : Bool)

inductive Reply where
  | issued (id bundle : String)
  /-- No random certificate id was accepted so far. -/
  | drawing
  | revoked (found : Bool)
  | applied
  | removed (any : Bool)
  | failed (error : CredentialError)
deriving DecidableEq

namespace CredentialManager

variable (P : Primitives) (manager : CredentialManager)

def call : Call → CredentialManager × List Reply
  | .generate request readings =>
    let result := manager.generateCredentialBundle P request readings
    (result.1, [match result.2 with
      | none => .drawing
      | some (.ok (id, bundle)) => .issued id bundle
      | some (.error error) => .failed error])
  | .revoke credentialId written =>
    let result := manager.tryRevokeCredential credentialId written
    (result.1, [match result.2 with
      | .ok found => .revoked found
      | .error error => .failed error])
  | .applyState encoded now written =>
    let result := manager.applyRevocationState P encoded now written
    (result.1, [match result.2 with
      | .ok () => .applied
      | .error error => .failed error])
  | .removeExpired now written =>
    let result := manager.removeExpiredCredentialsAt now written
    (result.1, [.removed result.2])

/-- A stored credential that is neither expired nor revoked. -/
structure IsUsable (now : Int) (id : String) (entry : CredentialEntry) : Prop where
  stored : manager.credentials.credentials.lookup id = some entry
  unexpired : entry.expiryUnix > now
  unrevoked : ¬manager.isCertificateIdRevoked entry.certificateId

end CredentialManager

def Call.startedBy : Call → Int → Prop
  | .generate _ readings, now => readings.cleanupNow ≤ now
  | _, _ => True

/-- What a call may do to the revocations and to the usable credentials. -/
structure KeepsRevocations (before after : CredentialManager) (call : Call) (replies : List Reply) :
    Prop where
  revoked : ∀ certificateId, before.isCertificateIdRevoked certificateId →
    after.isCertificateIdRevoked certificateId
  version : before.credentials.revocationStateVersion ≤ after.credentials.revocationStateVersion
  unavailable : Reply.failed .storageUnavailable ∈ replies →
    after.credentials.revokedCertificateIds = before.credentials.revokedCertificateIds ∧
      after.credentials.revocationStateVersion = before.credentials.revocationStateVersion ∧
      ∀ now, call.startedBy now → ∀ id entry,
        after.IsUsable now id entry ↔ before.IsUsable now id entry

/-- The condition on a call: a revocation whose write fails is of a certificate id that is not
revoked yet, and where the write of a new credential fails, every stored credential that is neither
expired nor revoked has a certificate id and a bundle. -/
def Call.UndoIsExact (manager : CredentialManager) : Call → Prop
  | .revoke credentialId written => written = false →
      ∀ entry ∈ manager.credentials.credentials.lookup credentialId,
        ¬manager.isCertificateIdRevoked entry.certificateId
  | .generate _ readings => readings.written = false →
      ∀ stored ∈ manager.credentials.credentials.entries,
        stored.2.expiryUnix > readings.cleanupNow →
        ¬manager.isCertificateIdRevoked stored.2.certificateId →
          stored.2.certificateId.length = CERTIFICATE_ID_LEN ∧ stored.2.bundle.isEmpty = false
  | _ => True

instance (manager : CredentialManager) : (call : Call) → Decidable (call.UndoIsExact manager)
  | .revoke .. => inferInstanceAs (Decidable (_ = false → ∀ entry ∈ _, ¬_))
  | .generate .. =>
    inferInstanceAs (Decidable (_ = false → ∀ stored ∈ _, _ > _ → ¬_ → _ = _ ∧ _ = _))
  | .applyState .. | .removeExpired .. => .isTrue trivial

namespace CredentialManager

variable {P : Primitives} {manager after : CredentialManager}

@[simp] theorem saveToDisk_credentials (written : Bool) :
    (manager.saveToDisk written).credentials = manager.credentials := by
  unfold saveToDisk
  split <;> rfl

variable {written : Bool}

theorem persistStore_ok (h : manager.persistStore written = .ok after) :
    after.credentials = manager.credentials := by
  unfold persistStore at h
  split at h
  · exact Except.ok.inj h ▸ rfl
  · split at h
    · exact Except.ok.inj h ▸ rfl
    · cases h

variable {error : CredentialError}

theorem persistStore_error
    (h : manager.persistStore written = .error error) :
    error = .storageUnavailable ∧ written = false := by
  unfold persistStore at h
  split at h
  · cases h
  · cases written with
    | false => exact ⟨(Except.error.inj h).symm, rfl⟩
    | true => cases h

/-- The manager after `remove_expired_credentials_at`, apart from the file. -/
theorem removeExpired_credentials (manager : CredentialManager) (now : Int) (written : Bool) :
    (manager.removeExpiredCredentialsAt now written).1.credentials = { manager.credentials with
        credentials := manager.credentials.credentials.retain
          (·.isActiveAt now manager.credentials.revokedCertificateIds) } := by
  unfold removeExpiredCredentialsAt
  dsimp only
  split
  · exact saveToDisk_credentials written
  · rfl

variable {entry : CredentialEntry} {now : Int}

variable {id : String}

theorem IsUsable.of_removeExpired {now cleanupNow : Int}
    (h : (manager.removeExpiredCredentialsAt cleanupNow written).1.IsUsable now id entry) :
    manager.IsUsable now id entry := by
  obtain ⟨hstored, hunexpired, hunrevoked⟩ := h
  rw [isCertificateIdRevoked, removeExpired_credentials] at hunrevoked
  rw [removeExpired_credentials] at hstored
  exact ⟨lookup_of_lookup_retain hstored, hunexpired, hunrevoked⟩

theorem IsUsable.removeExpired {now cleanupNow : Int}
    (h : manager.IsUsable now id entry) (hnow : cleanupNow ≤ now)
    (hlength : entry.certificateId.length = CERTIFICATE_ID_LEN) (written : Bool) :
    (manager.removeExpiredCredentialsAt cleanupNow written).1.IsUsable now id entry := by
  obtain ⟨hstored, hunexpired, hunrevoked⟩ := h
  constructor
  · rw [removeExpired_credentials]
    refine lookup_retain_of_keep hstored ?_
    rw [isCertificateIdRevoked] at hunrevoked
    simp [CredentialEntry.isActiveAt, hlength, hnow.trans_lt hunexpired, hunrevoked]
  · exact hunexpired
  · rw [isCertificateIdRevoked, removeExpired_credentials]
    exact hunrevoked

/-! ## What a call can do -/

theorem canonicalStringsChecked_error {values : List String}
    (h : canonicalStringsChecked values = .error error) : error ≠ .storageUnavailable := by
  unfold canonicalStringsChecked at h
  split at h
  · exact Except.error.inj h ▸ nofun
  · dsimp only at h
    split at h
    · cases h
    · exact Except.error.inj h ▸ nofun

variable {readings : IssueReadings} {request : IssueRequest}

theorem newEntry_error {certificateId : Bytes}
    (h : manager.newEntry P request readings certificateId = .error error) :
    error ≠ .storageUnavailable := by
  unfold newEntry at h
  cases hgroups : canonicalStringsChecked request.groups with
  | error found =>
    rw [hgroups] at h
    exact Except.error.inj h ▸ canonicalStringsChecked_error hgroups
  | ok groups =>
    rw [hgroups] at h
    cases hcidrs : canonicalStringsChecked request.allowedProxyCidrs with
    | error found =>
      rw [hcidrs] at h
      exact Except.error.inj h ▸ canonicalStringsChecked_error hcidrs
    | ok cidrs =>
      rw [hcidrs] at h
      dsimp only [bind, Except.bind] at h
      split at h
      · next found hsign =>
        unfold signCertificate at hsign
        rw [← Except.error.inj h]
        split at hsign
        · exact Except.error.inj hsign ▸ nofun
        · split at hsign
          · exact Except.error.inj hsign ▸ nofun
          · cases hsign
      · cases h

/-- The manager without its expired credentials, as a new one is issued. -/
def cleaned (manager : CredentialManager) (readings : IssueReadings) : CredentialManager :=
  (manager.removeExpiredCredentialsAt readings.cleanupNow readings.cleanupWritten).1

/-- What issuing a credential can do to the manager. -/
inductive Issues (manager : CredentialManager) (request : IssueRequest) (readings : IssueReadings) :
    CredentialStore → Option (Except CredentialError (String × String)) → Prop
  /-- The call is refused before it does anything. -/
  | refused (error : CredentialError) (herror : error ≠ .storageUnavailable) :
      Issues manager request readings manager.credentials (some (.error error))
  /-- Only expired credentials are removed. -/
  | cleaned (reply : Option (Except CredentialError (String × String)))
      (hreply : reply ≠ some (.error .storageUnavailable)) :
      Issues manager request readings (manager.cleaned readings).credentials reply
  /-- A new credential is stored. -/
  | stored (entry : CredentialEntry) :
      Issues manager request readings
        ((manager.cleaned readings).insertCredential (request.storedId readings.uuid)
          entry).credentials
        (some (.ok (request.storedId readings.uuid, entry.bundle)))
  /-- The write failed; what stood under the id had no bundle. -/
  | undone (entry : CredentialEntry) (hwritten : readings.written = false)
      (hbare : ∀ old, (manager.cleaned readings).credentials.credentials.lookup
        (request.storedId readings.uuid) = some old → old.bundle.isEmpty = true) :
      Issues manager request readings
        (((manager.cleaned readings).insertCredential (request.storedId readings.uuid)
          entry).removeCredential (request.storedId readings.uuid)).credentials
        (some (.error .storageUnavailable))

theorem issues (manager : CredentialManager) (request : IssueRequest) (readings : IssueReadings) :
    Issues manager request readings
      (manager.generateCredentialBundle P request readings).1.credentials
      (manager.generateCredentialBundle P request readings).2 := by
  unfold generateCredentialBundle
  split
  · exact .refused _ nofun
  split
  · exact .refused _ nofun
  dsimp only
  split
  · exact .cleaned _ nofun
  next hnone =>
  split
  · exact .cleaned _ nofun
  split
  · next error herror => exact .cleaned _ fun heq => newEntry_error herror (by cases heq; rfl)
  next entry _ =>
  split
  · next persisted hpersisted => exact persistStore_ok hpersisted ▸ .stored entry
  next error hfailed =>
  obtain ⟨rfl, hwritten⟩ := persistStore_error hfailed
  refine .undone entry hwritten fun old hold => ?_
  rw [cleaned] at hold
  rw [hold] at hnone
  simpa using hnone

/-- What a revocation can do to the manager. -/
inductive Revokes (manager : CredentialManager) (credentialId : String) (written : Bool) :
    CredentialStore → Except CredentialError Bool → Prop
  | refused (reply : Except CredentialError Bool) (hreply : reply ≠ .error .storageUnavailable) :
      Revokes manager credentialId written manager.credentials reply
  | revoked (entry : CredentialEntry) (nextVersion : Nat)
      (hnext : nextVersion = manager.credentials.revocationStateVersion + 1) :
      Revokes manager credentialId written
        (manager.revokeEntry credentialId entry nextVersion).credentials (.ok true)
  | undone (entry : CredentialEntry) (nextVersion : Nat)
      (hnext : nextVersion = manager.credentials.revocationStateVersion + 1)
      (hstored : manager.credentials.credentials.lookup credentialId = some entry)
      (hwritten : written = false) :
      Revokes manager credentialId written
        ((manager.revokeEntry credentialId entry nextVersion).undoRevocation credentialId entry
          nextVersion).credentials (.error .storageUnavailable)

theorem checkedAdd_eq {a b sum : Nat} (h : checkedAdd 64 a b = some sum) : sum = a + b := by
  unfold checkedAdd at h
  split at h
  · exact (Option.some.inj h).symm
  · cases h

theorem revokes (manager : CredentialManager) (credentialId : String) (written : Bool) :
    Revokes manager credentialId written
      (manager.tryRevokeCredential credentialId written).1.credentials
      (manager.tryRevokeCredential credentialId written).2 := by
  unfold tryRevokeCredential
  split
  · exact .refused _ nofun
  split
  · exact .refused _ nofun
  next entry hstored =>
  split
  · exact .refused _ nofun
  split
  · exact .refused _ nofun
  next nextVersion hnext =>
  dsimp only
  split
  · next persisted hpersisted =>
    exact persistStore_ok hpersisted ▸ .revoked entry nextVersion (checkedAdd_eq hnext)
  next error hfailed =>
  obtain ⟨rfl, hwritten⟩ := persistStore_error hfailed
  exact .undone entry nextVersion (checkedAdd_eq hnext) hstored hwritten

/-! ## One call -/

theorem isUsable_congr {other : CredentialManager}
    (hlookup : ∀ id, manager.credentials.credentials.lookup id =
      other.credentials.credentials.lookup id)
    (hrevoked : manager.credentials.revokedCertificateIds =
      other.credentials.revokedCertificateIds) :
    manager.IsUsable now id entry ↔ other.IsUsable now id entry := by
  have hiff : manager.isCertificateIdRevoked entry.certificateId ↔
      other.isCertificateIdRevoked entry.certificateId := by
    rw [isCertificateIdRevoked, hrevoked, isCertificateIdRevoked]
  constructor
  · rintro ⟨hstored, hunexpired, hunrevoked⟩
    exact ⟨(hlookup id).symm.trans hstored, hunexpired, hiff.not.mp hunrevoked⟩
  · rintro ⟨hstored, hunexpired, hunrevoked⟩
    exact ⟨(hlookup id).trans hstored, hunexpired, hiff.not.mpr hunrevoked⟩

/-- The credentials that are usable after a failed issue: the undo leaves nothing under the id, so
no usable credential may have stood there. -/
theorem isUsable_undone (hwritten : readings.written = false)
    (hexact : (Call.generate request readings).UndoIsExact manager)
    (hbare : ∀ old, (manager.cleaned readings).credentials.credentials.lookup
      (request.storedId readings.uuid) = some old → old.bundle.isEmpty = true)
    (hnow : readings.cleanupNow ≤ now) (id : String) (found : CredentialEntry) :
    (((manager.cleaned readings).insertCredential (request.storedId readings.uuid)
      entry).removeCredential (request.storedId readings.uuid)).IsUsable now id found ↔
      manager.IsUsable now id found := by
  constructor
  · rintro ⟨hstored, hunexpired, hunrevoked⟩
    have hin := lookup_of_lookup_erase hstored
    have hne : id ≠ request.storedId readings.uuid := by
      rintro rfl
      exact absurd (hstored.symm.trans (lookup_erase _ _)) nofun
    have hold : (manager.cleaned readings).credentials.credentials.lookup id = some found :=
      (lookup_insert_ne hne).symm.trans hin
    exact IsUsable.of_removeExpired ⟨hold, hunexpired, hunrevoked⟩
  · intro husable
    obtain ⟨hlength, hbundle⟩ := hexact hwritten ⟨id, found⟩
      (mem_lookup_iff.mp husable.stored) (hnow.trans_lt husable.unexpired) husable.unrevoked
    have hkept : (manager.cleaned readings).IsUsable now id found :=
      husable.removeExpired hnow hlength _
    have hne : id ≠ request.storedId readings.uuid := by
      rintro rfl
      exact absurd (hbundle.symm.trans (hbare found hkept.stored)) nofun
    refine ⟨?_, hkept.unexpired, hkept.unrevoked⟩
    exact (lookup_erase_ne hne).trans ((lookup_insert_ne hne).trans hkept.stored)

section

variable {call : Call} {replies : List Reply}

theorem keeps_of_unchanged
    (hrevoked : after.credentials.revokedCertificateIds = manager.credentials.revokedCertificateIds)
    (hversion : after.credentials.revocationStateVersion =
      manager.credentials.revocationStateVersion)
    (husable : .failed .storageUnavailable ∈ replies → ∀ now, call.startedBy now → ∀ id entry,
      after.IsUsable now id entry ↔ manager.IsUsable now id entry) :
    KeepsRevocations manager after call replies where
  revoked _ hid := show _ ∈ after.credentials.revokedCertificateIds from hrevoked ▸ hid
  version := hversion.ge
  unavailable hfailed := ⟨hrevoked, hversion, husable hfailed⟩

theorem keeps_of_eq (h : after.credentials = manager.credentials) :
    KeepsRevocations manager after call replies :=
  keeps_of_unchanged (congrArg _ h) (congrArg _ h) fun _ _ _ _ _ =>
    isUsable_congr (fun _ => by rw [h]) (congrArg _ h)

end

theorem keeps_generate (hexact : (Call.generate request readings).UndoIsExact manager) :
    KeepsRevocations manager (manager.call P (.generate request readings)).1
      (.generate request readings) (manager.call P (.generate request readings)).2 := by
  have hissues := issues (P := P) manager request readings
  rw [call]
  generalize manager.generateCredentialBundle P request readings = result at hissues ⊢
  obtain ⟨after, reply⟩ := result
  generalize hstore : after.credentials = store at hissues
  -- the removal of expired credentials touches neither the revoked ids nor the version
  have hclean : (manager.cleaned readings).credentials = _ := removeExpired_credentials ..
  cases hissues with
  | refused error herror => exact keeps_of_eq hstore
  | cleaned reply hreply =>
    rw [hclean] at hstore
    refine keeps_of_unchanged (by rw [hstore]) (by rw [hstore]) fun hfailed => absurd ?_ hreply
    rcases reply with _ | ⟨error | ⟨id, bundle⟩⟩ <;> simp_all
  | stored entry =>
    rw [insertCredential, hclean] at hstore
    refine keeps_of_unchanged (by rw [hstore]) (by rw [hstore]) fun hfailed => ?_
    simp at hfailed
  | undone entry hwritten hbare =>
    refine keeps_of_unchanged ?_ ?_ fun _ now hnow id found => ?_
    · rw [hstore, removeCredential, insertCredential, hclean]
    · rw [hstore, removeCredential, insertCredential, hclean]
    · exact (isUsable_congr (fun _ => by rw [hstore]) (congrArg _ hstore)).trans
        (isUsable_undone hwritten hexact hbare hnow id found)

theorem keeps_applyState {encoded : String} :
    KeepsRevocations manager (manager.call P (.applyState encoded now written)).1
      (.applyState encoded now written) (manager.call P (.applyState encoded now written)).2 := by
  rw [call, applyRevocationState]
  cases hverify :
      P.verifyRevocationStateAt encoded manager.networkName manager.rootPublicKey 0 now with
  | error error => exact keeps_of_eq rfl
  | ok state =>
    have hextends : ∀ after : CredentialManager,
        after.credentials = (manager.extendRevoked state).credentials →
        KeepsRevocations manager after (.applyState encoded now written) [.applied] := by
      intro after hafter
      refine ⟨fun id hid => ?_, ?_, fun hfailed => ?_⟩
      · rw [isCertificateIdRevoked, hafter]
        exact mem_extend.mpr (.inl hid)
      · rw [hafter]
        exact le_max_left _ _
      · simp at hfailed
    dsimp only
    split
    · exact hextends _ rfl
    · exact hextends _ (saveToDisk_credentials written)

theorem keeps_call {call : Call} (hexact : call.UndoIsExact manager) :
    KeepsRevocations manager (manager.call P call).1 call (manager.call P call).2 := by
  cases call with
  | generate request readings => exact keeps_generate hexact
  | revoke credentialId written =>
    have hrevokes := revokes manager credentialId written
    rw [call]
    generalize manager.tryRevokeCredential credentialId written = result at hrevokes ⊢
    obtain ⟨after, reply⟩ := result
    generalize hstore : after.credentials = store at hrevokes
    cases hrevokes with
    | refused reply hreply => exact keeps_of_eq hstore
    | revoked entry nextVersion hnext =>
      refine ⟨fun id hid => ?_, ?_, fun hfailed => ?_⟩
      · rw [isCertificateIdRevoked, hstore]
        exact mem_insert.mpr (.inr hid)
      · rw [hstore, revokeEntry, hnext]
        exact Nat.le_succ _
      · simp at hfailed
    | undone entry nextVersion hnext hstored hwritten =>
      have hnew := hexact hwritten entry hstored
      have hrevoked : after.credentials.revokedCertificateIds =
          manager.credentials.revokedCertificateIds := by
        rw [hstore]
        exact erase_insert hnew
      have hlookup : ∀ id, after.credentials.credentials.lookup id =
          manager.credentials.credentials.lookup id := by
        intro id
        rw [hstore]
        by_cases hid : id = credentialId
        · subst hid
          exact (lookup_insert _).trans hstored.symm
        · exact (lookup_insert_ne hid).trans (lookup_erase_ne hid)
      refine keeps_of_unchanged hrevoked ?_ fun _ now _ id found => isUsable_congr hlookup hrevoked
      rw [hstore, undoRevocation, hnext]
      exact Nat.add_sub_cancel _ 1
  | applyState encoded now written => exact keeps_applyState
  | removeExpired now written =>
    have hclean := removeExpired_credentials manager now written
    refine keeps_of_unchanged ?_ ?_ fun hfailed => ?_
    · rw [call, hclean]
    · rw [call, hclean]
    · simp [call] at hfailed

def NotBehind (before after : CredentialManager) : Prop :=
  (∀ certificateId, before.isCertificateIdRevoked certificateId →
    after.isCertificateIdRevoked certificateId) ∧
    before.credentials.revocationStateVersion ≤ after.credentials.revocationStateVersion

theorem notBehind_run {calls : List Call}
    (hexact : Trace.Always (call P) (fun manager _ call => call.UndoIsExact manager) manager []
      calls) : NotBehind manager (Trace.run (call P) manager calls).1 := by
  refine Trace.run_invariant (I := fun now _ => NotBehind manager now)
    (fun now _ call hinv hcall => ?_) ⟨fun _ => id, le_rfl⟩ hexact
  have hkeeps := keeps_call (P := P) hcall
  exact ⟨fun id hid => hkeeps.revoked id (hinv.1 id hid), hinv.2.trans hkeeps.version⟩

/-- In every sequence of calls that meet the condition, every call keeps the revoked ids, does not
lower the version, and changes nothing but expired and revoked credentials if its write fails. -/
theorem revocation_permanent (P : Primitives) (manager : CredentialManager) (calls : List Call)
    (hexact : Trace.Always (call P) (fun manager _ call => call.UndoIsExact manager) manager []
      calls) :
    ((∀ certificateId, manager.isCertificateIdRevoked certificateId →
        (Trace.run (call P) manager calls).1.isCertificateIdRevoked certificateId) ∧
      manager.credentials.revocationStateVersion ≤
        (Trace.run (call P) manager calls).1.credentials.revocationStateVersion) ∧
      Trace.Always (call P) (fun manager _ call =>
        KeepsRevocations manager (manager.call P call).1 call (manager.call P call).2)
        manager [] calls :=
  ⟨notBehind_run hexact, Trace.always_of_always (I := fun _ _ => True) (fun _ _ _ _ _ => trivial)
      (fun _ _ _ _ hcall => keeps_call hcall) trivial hexact⟩

def root : Bytes := List.replicate 32 1

/-- Primitives that hash, sign and encode by copying, for the one root; a text stands for the
revocation state of the certificate id with its bytes. -/
def plain : Primitives where
  sha256 bytes := bytes
  ed25519Sign _ message := message
  ed25519Verify _ message signature := message == signature
  x25519PublicKey key := key
  encodeBase64 bytes := String.ofList (bytes.map fun b => Char.ofNat b.toNat)
  encodeUrlSafe bytes := String.ofList (bytes.map fun b => Char.ofNat b.toNat)
  decodeUrlSafe text := some (asciiBytes text)
  encodeCertificate certificate := certificate.certificateId
  encodeBundleMessage bundle := bundle.certificateId
  decodeBundleMessage _ := none
  encodeRevocationState state := state.revokedCertificateIds.flatten
  decodeRevocationState bytes := some
    { version := 1, networkName := "net", rootPublicKey := root
      rootFingerprint := Primitives.rootFingerprintInput root, stateVersion := 4
      revokedSerials := [], issuedUnix := 100, signature := REVOCATION_DOMAIN ++ bytes
      revokedCertificateIds := [bytes] }
  encodeStatus status := status.certificateId
  decodeStatus _ := none

def administrator : CredentialManager where
  credentials := {}
  hasStoragePath := true
  networkName := "net"
  rootSeed := some root
  rootPublicKey := root
  rootFingerprint := Primitives.rootFingerprintInput root

def issueA (written : Bool) : Call :=
  .generate ⟨[], false, [], 3600 * NANOS_PER_SEC, some "a", true⟩
    ⟨100, true, "", [List.replicate 16 120], 100, [], written⟩

def revokedElsewhere : Call := .applyState "xxxxxxxxxxxxxxxx" 110 true

theorem revocation_permanent_two_failures : Trace.Always (call plain) (fun manager _ call =>
      KeepsRevocations manager (manager.call plain call).1 call (manager.call plain call).2)
      administrator [] [issueA false, issueA true, .revoke "a" false, revokedElsewhere,
        .removeExpired 120 false] :=
  (revocation_permanent plain administrator _ (by decide +kernel)).2

/-- The credential `a` is stored when its revocation by another node is applied, and is then revoked
here as well while the file cannot be written: the certificate is no longer revoked. -/
theorem revocation_undone :
    ((Trace.run (call plain) administrator [issueA true, revokedElsewhere]).1.isCertificateIdRevoked
        (List.replicate 16 120)) ∧
      ¬(Trace.run (call plain) administrator
        [issueA true, revokedElsewhere, .revoke "a" false]).1.isCertificateIdRevoked
          (List.replicate 16 120) := by
  decide +kernel

end CredentialManager

end LowerTier.Peers.Credential
