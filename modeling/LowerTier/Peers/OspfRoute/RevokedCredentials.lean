import LowerTier.Peers.OspfRoute.CredentialTrust
import LowerTier.Peers.OspfRoute.RecordUpdates
import LowerTier.ProofSupport.Trace

/-!
# Peers whose credential is no longer trusted

A refresh compares the trusted keys with those of the refresh before it and removes the records
whose key has just left.  A record that is stored again after that is not looked at, since its key
has been missing already: the peer is back until the key is trusted and revoked once more.
-/

namespace LowerTier.Peers.OspfRoute

open SyncedRouteInfo AList Option List ProofSupport ProofSupport.ByteString Tunnel KeyedMap

variable {key : Bytes}

namespace TrustEnv

variable {ρ : Type} {env : TrustEnv ρ} {input : RefreshInput}

theorem pubkey_normalizeCredentialPolicy {credential normalized : TrustedCredentialPubkey}
    {identity : Bytes}
    (h : env.normalizeCredentialPolicy input credential = some (normalized, identity)) :
    normalized.pubkey.length = 32 := by
  obtain ⟨certificate, -, hrest⟩ := bind_eq_some_iff.mp h
  split_ifs at hrest with hagrees hlengths
  cases hrest
  have hsubject : certificate.subjectX25519PublicKey = credential.pubkey := by
    simp only [TrustedCredentialPubkey.disagrees, Bool.or_eq_true, bne_iff_ne, ne_eq, not_or,
      not_not] at hagrees
    tauto
  rw [not_or, not_not] at hlengths
  exact (congrArg length hsubject).trans hlengths.1

def Candidates.KeysProper (candidates : Candidates) : Prop :=
  ∀ key value, candidates.byPubkey.lookup key = some value → key.length = 32

variable {candidates : Candidates}

theorem Candidates.KeysProper.addCandidate (h : candidates.KeysProper)
    {credential : TrustedCredentialPubkey} (hlength : credential.pubkey.length = 32)
    (identity : Bytes) : (addCandidate candidates credential identity).KeysProper := by
  unfold TrustEnv.addCandidate
  split
  · exact forall_lookup_insert h hlength
  · split_ifs <;> exact h

theorem Candidates.KeysProper.collectProof (h : candidates.KeysProper)
    (raw : Option ρ) (indexed : TrustedCredentialPubkeyProof × Nat) :
    (env.collectProof input raw candidates indexed).KeysProper := by
  obtain ⟨proof, proofIdx⟩ := indexed
  unfold TrustEnv.collectProof
  dsimp only
  split_ifs
  · exact h
  · split
    · exact h
    · next credential identity hnormalized =>
      obtain ⟨found, -, hfound⟩ := bind_eq_some_iff.mp hnormalized
      exact h.addCandidate (pubkey_normalizeCredentialPolicy hfound) _

theorem Candidates.KeysProper.collectInfo (h : candidates.KeysProper)
    (routes : SyncedRouteInfo ρ) (entry : (_ : PeerId) × RoutePeerInfo) :
    (env.collectInfo input routes candidates entry).KeysProper := by
  unfold TrustEnv.collectInfo
  split_ifs
  · exact foldlRecOn (motive := Candidates.KeysProper) _ _ h fun _ h proof _ =>
      h.collectProof _ proof
  · exact h

theorem length_of_mem_collect {routes : SyncedRouteInfo ρ}
    (h : key ∈ env.collectTrustedCredentials input routes) : key.length = 32 := by
  obtain ⟨credential, hlookup⟩ := isSome_iff_exists.mp (lookup_isSome.mpr h)
  rw [collectTrustedCredentials, lookup_mapValues] at hlookup
  obtain ⟨value, hvalue, -⟩ := map_eq_some_iff.mp hlookup
  refine foldlRecOn (motive := Candidates.KeysProper) _ _ ?_
    (fun _ h entry _ => h.collectInfo routes entry)
    key value (lookup_of_lookup_retain hvalue)
  intro other found hfound
  cases hfound

end TrustEnv

namespace TrustState

variable {ρ : Type} {env : TrustEnv ρ} {input : RefreshInput} {s t : TrustState ρ}

/-! ## What a refresh does to the records -/

variable (routes : SyncedRouteInfo ρ) (peerIds : List PeerId)

variable {p : PeerId}

theorem lookup_removePeer :
    (peerIds.foldl removePeer routes).peerInfos.lookup p =
      if p ∈ peerIds then none else routes.peerInfos.lookup p := by
  have hpeers : (peerIds.foldl removePeer routes).peerInfos =
      peerIds.foldl (fun records peerId => records.erase peerId) routes.peerInfos :=
    (foldl_hom SyncedRouteInfo.peerInfos fun _ _ => rfl).symm
  rw [hpeers, lookup_foldl_erase]

theorem lookup_removePeersLocked :
    (routes.removePeersLocked peerIds).peerInfos.lookup p =
      if p ∈ peerIds then none else routes.peerInfos.lookup p := by
  unfold removePeersLocked
  split_ifs with hempty hp hp
  · rw [List.isEmpty_iff] at hempty
    subst hempty
    exact absurd hp not_mem_nil
  · rfl
  · exact (lookup_removePeer routes peerIds).trans (if_pos hp)
  · exact (lookup_removePeer routes peerIds).trans (if_neg hp)

theorem setPeerGroups_keeps (peerId : PeerId) (groups : GroupMap) :
    (s.setPeerGroups peerId groups).routes = s.routes ∧
      (s.setPeerGroups peerId groups).trustedCredentialPubkeys = s.trustedCredentialPubkeys := by
  unfold setPeerGroups
  split_ifs <;> exact ⟨rfl, rfl⟩

theorem foldl_keeps {α : Type} {f : TrustState ρ → α → TrustState ρ}
    (hf : ∀ s x, (f s x).routes = s.routes ∧
      (f s x).trustedCredentialPubkeys = s.trustedCredentialPubkeys)
    (xs : List α) (s : TrustState ρ) :
    (xs.foldl f s).routes = s.routes ∧
      (xs.foldl f s).trustedCredentialPubkeys = s.trustedCredentialPubkeys :=
  foldlRecOn (motive := fun t : TrustState ρ => t.routes = s.routes ∧
      t.trustedCredentialPubkeys = s.trustedCredentialPubkeys) xs f ⟨rfl, rfl⟩
    fun t h x _ => ⟨(hf t x).1.trans h.1, (hf t x).2.trans h.2⟩

theorem verifyAndUpdateGroupTrusts_keeps (env : TrustEnv ρ) (s : TrustState ρ)
    (peerInfos : List RoutePeerInfo) :
    (s.verifyAndUpdateGroupTrusts env peerInfos).routes = s.routes ∧
      (s.verifyAndUpdateGroupTrusts env peerInfos).trustedCredentialPubkeys =
        s.trustedCredentialPubkeys :=
  foldl_keeps (fun _ _ => setPeerGroups_keeps _ _) peerInfos s

theorem updateCredentialGroups_keeps (allTrusted : TrustedKeys) :
    (s.updateCredentialGroups allTrusted).routes = s.routes ∧
      (s.updateCredentialGroups allTrusted).trustedCredentialPubkeys =
        s.trustedCredentialPubkeys := by
  refine foldl_keeps (fun s info => ?_) s.storedInfos s
  unfold updateCredentialGroup
  split_ifs
  · exact ⟨rfl, rfl⟩
  · split
    · exact ⟨rfl, rfl⟩
    · exact setPeerGroups_keeps _ _

theorem trusted_refreshTrusts :
    (s.refreshTrusts env input).trustedCredentialPubkeys =
      env.collectTrustedCredentials input s.routes :=
  (updateCredentialGroups_keeps _).2

/-- After a refresh the records are those before it without the revoked peers. -/
theorem lookup_refreshTrusts :
    (s.refreshTrusts env input).routes.peerInfos.lookup p =
      if p ∈ s.revokedPeers (env.collectTrustedCredentials input s.routes) env.myPeerId then none
      else s.routes.peerInfos.lookup p := by
  unfold refreshTrusts
  rw [removePeers]
  rw [lookup_removePeersLocked, (updateCredentialGroups_keeps _).1]
  cases input.suppressedChanged <;> rfl

/-- A peer other than this node has a record with a version under a key, as a credential
peer. -/
def HasCredentialRecord (env : TrustEnv ρ) (s : TrustState ρ) (key : Bytes) : Prop :=
  ∃ p info, p ≠ env.myPeerId ∧ s.routes.peerInfos.lookup p = some info ∧ 0 < info.version ∧
    info.isCredentialPeerInfo = true ∧ info.noiseStaticPubkey = key

theorem hasCredentialRecord_congr (hroutes : t.routes.peerInfos = s.routes.peerInfos) :
    t.HasCredentialRecord env key ↔ s.HasCredentialRecord env key := by
  unfold HasCredentialRecord
  rw [hroutes]

theorem hasCredentialRecord_of_refresh
    (h : (s.refreshTrusts env input).HasCredentialRecord env key) :
    s.HasCredentialRecord env key := by
  obtain ⟨p, info, hp, hinfo, hrest⟩ := h
  rw [lookup_refreshTrusts] at hinfo
  split_ifs at hinfo
  exact ⟨p, info, hp, hinfo, hrest⟩

theorem not_hasCredentialRecord_of_leaves (htrusted : key ∈ s.trustedCredentialPubkeys)
    (hproper : key ≠ []) (hleaves : key ∉ (s.refreshTrusts env input).trustedCredentialPubkeys) :
    ¬(s.refreshTrusts env input).HasCredentialRecord env key := by
  rw [trusted_refreshTrusts] at hleaves
  rintro ⟨p, info, hp, hinfo, hversion, -, rfl⟩
  rw [lookup_refreshTrusts] at hinfo
  split_ifs at hinfo with hrevoked
  apply hrevoked
  refine mem_map.mpr ⟨⟨p, info⟩, mem_filter.mpr ⟨mem_lookup_iff.mp hinfo, ?_⟩, rfl⟩
  have hzero : info.version ≠ 0 := by omega
  simp [htrusted, hleaves, hp, hzero, hproper]

/-! ## Requests and refreshes -/

inductive TrustInput (ρ : Type) where
  | sync (request : SyncRequest ρ) (input : RefreshInput)
  | refresh (input : RefreshInput)

def step (env : TrustEnv ρ) (s : TrustState ρ) : TrustInput ρ → TrustState ρ × List (TrustState ρ)
  | .sync request input =>
    let (result, next) := s.syncRouteInfo env input { request with myPeerId := env.myPeerId }
    (next, match result with
      | .ok true => [next]
      | _ => [])
  | .refresh input => (s.refreshTrusts env input, [s.refreshTrusts env input])

def offered (env : TrustEnv ρ) (request : SyncRequest ρ) : List RoutePeerInfo :=
  match requestedCall env { request with myPeerId := env.myPeerId } with
  | some (.ok (some call)) => call.peerInfos
  | _ => []

/-- The key was trusted at the end of an earlier refresh. -/
def WasTrusted (history : List (TrustState ρ)) (key : Bytes) : Prop :=
  ∃ past ∈ history, key ∈ past.trustedCredentialPubkeys

instance (history : List (TrustState ρ)) (key : Bytes) : Decidable (WasTrusted history key) :=
  inferInstanceAs (Decidable (∃ past ∈ history, key ∈ past.trustedCredentialPubkeys))

/-- No newer record of another credential peer comes under a key that has lost its trust. -/
def NoneReturns (env : TrustEnv ρ) (s : TrustState ρ) (history : List (TrustState ρ)) :
    TrustInput ρ → Prop
  | .sync request _ =>
    ∀ info ∈ offered env request, s.routes.isNewer info = true → info.peerId ≠ env.myPeerId →
      0 < info.version → info.isCredentialPeerInfo = true →
        WasTrusted history info.noiseStaticPubkey →
          info.noiseStaticPubkey ∈ s.trustedCredentialPubkeys
  | .refresh _ => True

instance (env : TrustEnv ρ) (s : TrustState ρ) (history : List (TrustState ρ)) :
    (action : TrustInput ρ) → Decidable (s.NoneReturns env history action)
  | .sync request _ =>
    inferInstanceAs (Decidable (∀ info ∈ offered env request, _ = true → _ ≠ _ → 0 < _ → _ = true →
      WasTrusted history _ → _ ∈ _))
  | .refresh _ => .isTrue trivial

/-- Trusted keys have been recorded, and keys that lost their trust have no credential record. -/
structure Purged (env : TrustEnv ρ) (s : TrustState ρ) (history : List (TrustState ρ)) :
    Prop where
  recorded : ∀ key ∈ s.trustedCredentialPubkeys, WasTrusted history key
  proper : ∀ key ∈ s.trustedCredentialPubkeys, key ≠ []
  purged : ∀ key, WasTrusted history key → key ∉ s.trustedCredentialPubkeys →
    ¬s.HasCredentialRecord env key

variable {history : List (TrustState ρ)}

theorem Purged.refresh (h : Purged env s history)
    (hafter : t.trustedCredentialPubkeys = (s.refreshTrusts env input).trustedCredentialPubkeys)
    (hroutes : t.routes.peerInfos = (s.refreshTrusts env input).routes.peerInfos) :
    Purged env t (history ++ [t]) where
  recorded key hkey := ⟨t, by simp, hkey⟩
  proper key hkey := by
    rw [hafter, trusted_refreshTrusts] at hkey
    have hlength := TrustEnv.length_of_mem_collect hkey
    rintro rfl
    cases hlength
  purged key hwas hkey := by
    obtain ⟨past, hpast, hpastKey⟩ := hwas
    rw [hasCredentialRecord_congr hroutes]
    rw [hafter] at hkey
    rcases mem_append.mp hpast with hold | hnew
    · by_cases htrusted : key ∈ s.trustedCredentialPubkeys
      · exact not_hasCredentialRecord_of_leaves htrusted (h.proper key htrusted) hkey
      · exact fun hrecord => h.purged key ⟨past, hold, hpastKey⟩ htrusted
          (hasCredentialRecord_of_refresh hrecord)
    · obtain rfl := mem_singleton.mp hnew
      rw [hafter] at hpastKey
      exact absurd hpastKey hkey

theorem peerInfos_applyForeignNetwork (request : SyncRequest ρ) (routes : SyncedRouteInfo ρ) :
    (request.applyForeignNetwork routes).peerInfos = routes.peerInfos := by
  unfold SyncRequest.applyForeignNetwork
  split
  · split_ifs
    · refine foldlRecOn (motive := fun updated : Bool × SyncedRouteInfo ρ =>
        updated.2.peerInfos = routes.peerInfos) _ _ rfl fun updated h item _ => h ▸ ?_
      unfold updateForeignNetworkEntry
      split
      · dsimp only
        split <;> rfl
      · rfl
    · rfl
  · rfl

theorem Purged.of_eq (h : Purged env s history) (hroutes : t.routes.peerInfos = s.routes.peerInfos)
    (htrusted : t.trustedCredentialPubkeys = s.trustedCredentialPubkeys) :
    Purged env t history where
  recorded key hkey := h.recorded key (htrusted ▸ hkey)
  proper key hkey := h.proper key (htrusted ▸ hkey)
  purged key hwas hkey := by
    rw [hasCredentialRecord_congr hroutes]
    exact h.purged key hwas (htrusted ▸ hkey)

section

variable (h : Purged env s history) {call : UpdateCall ρ}
  (hnone : ∀ info ∈ call.peerInfos, s.routes.isNewer info = true → info.peerId ≠ env.myPeerId →
      0 < info.version → info.isCredentialPeerInfo = true →
        WasTrusted history info.noiseStaticPubkey →
          info.noiseStaticPubkey ∈ s.trustedCredentialPubkeys)
include h hnone

theorem Purged.update :
    Purged env { s with routes := (s.routes.updateWithAuthority env.codec call).2 } history where
  recorded := h.recorded
  proper := h.proper
  purged key hwas hkey := by
    rintro ⟨p, info, hp, hinfo, hversion, hcredential, rfl⟩
    have horigin := recordOrigin_updateWithAuthority env.codec s.routes call p
    rw [hinfo] at horigin
    generalize hlookup : some info = lookup at horigin
    cases horigin with
    | kept => exact h.purged _ hwas hkey ⟨p, info, hp, hlookup.symm, hversion, hcredential, rfl⟩
    | blank _ =>
      cases hlookup
      exact absurd hversion (Nat.lt_irrefl 0)
    | stored offer hoffer hpeer hnewer =>
      cases hlookup
      exact hkey (hnone offer hoffer hnewer (hpeer ▸ hp) hversion hcredential hwas)

theorem Purged.carryOut (request : SyncRequest ρ) :
    Purged env (s.carryOut env input request call).2 (history ++
      match (s.carryOut env input request call).1 with
      | .ok true => [(s.carryOut env input request call).2]
      | _ => []) := by
  have hupdated := h.update hnone
  unfold TrustState.carryOut
  cases hupdate : s.routes.updateWithAuthority env.codec call with
  | mk result routes =>
    rw [hupdate] at hupdated
    cases result with
    | error error =>
      rw [append_nil]
      exact hupdated
    | ok changed =>
      obtain ⟨hverified, htrusted⟩ :=
        verifyAndUpdateGroupTrusts_keeps env { s with routes } call.peerInfos
      have hstored := hupdated.of_eq (congrArg _ hverified) htrusted
      cases changed with
      | false =>
        rw [append_nil]
        exact hstored.of_eq (peerInfos_applyForeignNetwork request _) rfl
      | true => exact hstored.refresh rfl (peerInfos_applyForeignNetwork request _)

end

theorem Purged.step (h : Purged env s history)
    {action : TrustInput ρ} (hnone : s.NoneReturns env history action) :
    Purged env (s.step env action).1 (history ++ (s.step env action).2) := by
  cases action with
  | refresh input => exact h.refresh rfl rfl
  | sync request input =>
    unfold TrustState.step syncRouteInfo
    dsimp only
    unfold NoneReturns at hnone
    dsimp only at hnone
    unfold offered at hnone
    generalize requestedCall env { request with myPeerId := env.myPeerId } = requested at hnone ⊢
    match requested with
    | none | some (.error error) =>
      rw [append_nil]
      exact h
    | some (.ok none) =>
      rw [append_nil]
      exact h.of_eq (peerInfos_applyForeignNetwork _ _) rfl
    | some (.ok (some call)) => exact h.carryOut hnone _

theorem eq_of_mem_step {action : TrustInput ρ} {after : TrustState ρ}
    (h : after ∈ (s.step env action).2) : after = (s.step env action).1 := by
  cases action with
  | refresh input => exact mem_singleton.mp h
  | sync request input =>
    unfold TrustState.step at h ⊢
    dsimp only at h ⊢
    split at h
    · exact mem_singleton.mp h
    · cases h

/-- After the action no record of another peer is left under a key that has lost its trust. -/
def StaysAway (env : TrustEnv ρ) (s : TrustState ρ) (history : List (TrustState ρ))
    (action : TrustInput ρ) : Prop :=
  ∀ after ∈ (s.step env action).2, ∀ key, WasTrusted history key →
    key ∉ after.trustedCredentialPubkeys → ¬after.HasCredentialRecord env key

/-- In every run in which no newer credential record comes under a key that has lost its trust,
no refresh leaves such a record of another peer behind. -/
theorem revoked_credentials_stay_away (env : TrustEnv ρ) (routes : SyncedRouteInfo ρ)
    (actions : List (TrustInput ρ))
    (hnone : Trace.Always (step env) (fun s history action => s.NoneReturns env history action)
      (new routes) [] actions) :
    Trace.Always (step env) (StaysAway env) (new routes) [] actions := by
  have hinit : Purged env (new routes) [] :=
    ⟨fun key hkey => absurd hkey (notMem_empty key), fun key hkey => absurd hkey (notMem_empty key),
      fun key hkey => by obtain ⟨past, hpast, -⟩ := hkey; cases hpast⟩
  refine Trace.always_of_always (I := fun s history => Purged env s history)
    (fun s history action h hnone => h.step hnone) ?_ hinit hnone
  intro s history action h haction after hafter key hwas hkey
  obtain rfl := eq_of_mem_step hafter
  obtain ⟨past, hpast, htrusted⟩ := hwas
  exact (h.step haction).purged key ⟨past, mem_append_left _ hpast, htrusted⟩ hkey

/-! ## A record that is sent again -/

def leafKey : Bytes := replicate 32 7

def rootKey : Bytes := replicate 32 1

def leafCertificate : CredentialCertificate :=
  { (default : CredentialCertificate) with
    version := 1
    networkName := "net"
    rootPublicKey := rootKey
    rootFingerprint := rootKey
    subjectX25519PublicKey := leafKey
    expiryUnix := 3700
    role := "Credential"
    groups := ["staff"]
    reusable := true
    certificateId := replicate 16 3 }

def leafCredential : TrustedCredentialPubkey :=
  { TrustedCredentialPubkey.normalized default leafCertificate with
    certificate := some leafCertificate }

def adminRecord : RoutePeerInfo :=
  { recordOf 1 1 with
    trustedCredentialPubkeys := [⟨some leafCredential, []⟩] }

def leafRecord : RoutePeerInfo :=
  { recordOf 2 1 with
    noiseStaticPubkey := leafKey
    identityType := PeerIdentityType.credential.code }

def smallEnv : TrustEnv RoutePeerInfo where
  codec := recordCodec
  parseCidr _ := none
  myPeerId := 9
  networkSecret := some "secret"
  aclGroupDeclarations := [⟨"ops", "key"⟩]
  verifyGroup group _ _ := !group.groupProof.isEmpty
  isLocallyAuthenticatedAdmin _ _ := false
  credentialRootPublicKey := rootKey
  credentialRootFingerprint := rootKey
  verifyCredentialHmac _ _ _ _ := true
  rawCertificateBytes _ _ := none
  encodeCertificate certificate := certificate.certificateId

def adminRequest (records : List RoutePeerInfo) : SyncRequest RoutePeerInfo where
  myPeerId := 9
  myPeerRouteId := 1
  fromPeerId := 1
  fromIdentityType := .admin
  peerInfos := some records
  rawPeerInfos := some records
  connInfo := none
  foreignNetwork := none
  session := .ok ()
  credentialInfo := none
  authenticatedPeers _ := false
  now := 5
  grant _ := true

def valid : RefreshInput := ⟨fun _ => true, false⟩

def revokedAll : RefreshInput := ⟨fun _ => false, false⟩

def arriveAndRevoke : List (TrustInput RoutePeerInfo) :=
  [.sync (adminRequest [adminRecord, leafRecord]) valid, .refresh revokedAll]

theorem revoked_credentials_stay_away_once :
    leafKey ∈ ((new .empty : TrustState RoutePeerInfo).step smallEnv
        (.sync (adminRequest [adminRecord, leafRecord]) valid)).1.trustedCredentialPubkeys ∧
      Trace.Always (step smallEnv) (StaysAway smallEnv) (new .empty) [] arriveAndRevoke :=
  ⟨by decide +kernel,
    revoked_credentials_stay_away smallEnv .empty arriveAndRevoke (by decide +kernel)⟩

/-- The administrator sends the record of the leaf again after the refresh that removed it: the
next refresh leaves it, although its key was trusted and is not any more. -/
theorem resent_record_returns : ∃ after ∈ (Trace.run (step smallEnv) (new .empty)
        (arriveAndRevoke ++ [.sync (adminRequest [leafRecord]) revokedAll])).2,
      WasTrusted (Trace.run (step smallEnv) (new .empty) arriveAndRevoke).2 leafKey ∧
        leafKey ∉
          (Trace.run (step smallEnv) (new .empty) arriveAndRevoke).1.trustedCredentialPubkeys ∧
        leafKey ∉ after.trustedCredentialPubkeys ∧ after.HasCredentialRecord smallEnv leafKey := by
  refine ⟨(Trace.run (step smallEnv) (new .empty)
    (arriveAndRevoke ++ [.sync (adminRequest [leafRecord]) revokedAll])).1, ?_, by decide +kernel,
    by decide +kernel, by decide +kernel, 2, { leafRecord with lastUpdate := some 5 }, by decide,
    ?_, by decide, by decide, rfl⟩
  · exact mem_of_getLast? (by rfl)
  · decide +kernel

end TrustState

end LowerTier.Peers.OspfRoute
