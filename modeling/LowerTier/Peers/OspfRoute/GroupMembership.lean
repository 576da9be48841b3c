import LowerTier.Peers.OspfRoute.RevokedCredentials
import LowerTier.Peers.OspfRoute.UpdateAtomicity

/-!
# The groups of a peer and its stored record

A request checks the groups of the records it received, also of those that are not newer and are
therefore not stored, and the groups of a credential come back only with the next refresh.  Where
every record of a request is stored, the groups of every other peer are those of its stored record
and of the credential that is trusted for the key of that record.
-/

namespace LowerTier.Peers.OspfRoute

open TrustState SyncedRouteInfo Option List ProofSupport ProofSupport.ByteString Tunnel KeyedMap

/-! ## Maps of groups -/

def Proven (groups : GroupMap) (name : String) : Prop :=
  ∃ proof, groups.lookup name = some proof ∧ proof ≠ []

variable {name : String} {groups : GroupMap}

theorem Proven.mem (h : Proven groups name) : name ∈ groups := by
  obtain ⟨proof, hproof, -⟩ := h
  exact AList.lookup_isSome.mp (by rw [hproof]; rfl)

theorem mem_foldl_orDefault (names : List String) :
    name ∈ names.foldl orDefault groups ↔ name ∈ groups ∨ name ∈ names := by
  induction names generalizing groups with
  | nil => simp
  | cons other names ih =>
    have hone : name ∈ orDefault groups other ↔ name = other ∨ name ∈ groups := by
      unfold orDefault
      split_ifs with hmem
      · exact ⟨.inr, fun h => h.elim (fun heq => heq ▸ hmem) id⟩
      · exact AList.mem_insert groups
    rw [foldl_cons, ih, hone, mem_cons]
    tauto

theorem proven_foldl_orDefault (names : List String) :
    Proven (names.foldl orDefault groups) name ↔ Proven groups name := by
  induction names generalizing groups with
  | nil => rfl
  | cons other names ih =>
    rw [foldl_cons, ih]
    unfold orDefault
    split_ifs with hmem
    · rfl
    · by_cases hname : name = other
      · subst hname
        have hnone : groups.lookup name = none := AList.lookup_eq_none.mpr hmem
        simp [Proven, hnone]
      · unfold Proven
        rw [AList.lookup_insert_ne hname]

theorem mem_retain_proofs :
    name ∈ groups.retain (fun proof => !proof.isEmpty) ↔ Proven groups name := by
  constructor
  · intro h
    obtain ⟨proof, hproof⟩ := isSome_iff_exists.mp (AList.lookup_isSome.mpr h)
    refine ⟨proof, lookup_of_lookup_retain hproof, ?_⟩
    have hkept := (mem_filter.mp (AList.mem_lookup_iff.mp hproof)).2
    simpa using hkept
  · rintro ⟨proof, hproof, hne⟩
    exact AList.lookup_isSome.mp (by
      rw [lookup_retain_of_keep hproof (by simpa using hne)]; rfl)

theorem proven_retain_proofs :
    Proven (groups.retain fun proof => !proof.isEmpty) name ↔ Proven groups name := by
  constructor
  · exact fun h => mem_retain_proofs.mp h.mem
  · rintro ⟨proof, hproof, hne⟩
    exact ⟨proof, lookup_retain_of_keep hproof (by simpa using hne), hne⟩

variable {ρ : Type} (env : TrustEnv ρ) (trusted : TrustedKeys)

namespace TrustEnv

/-- No empty proof verifies, as no message authentication code is empty. -/
def ProofsNotEmpty : Prop :=
  ∀ group secret peerId, env.verifyGroup group secret peerId = true → group.groupProof ≠ []

def VerifiedGroup (info : RoutePeerInfo) (name : String) : Prop :=
  ∃ group ∈ info.groups, group.groupName = name ∧ env.groupVerifies info group = true

/-- The record declares the group, and its declarations are trusted. -/
def DeclaredGroup (info : RoutePeerInfo) (name : String) : Prop :=
  env.trustsDeclaredGroups info = true ∧ name ∈ info.groups.map (·.groupName)

variable {env}

theorem foldl_insertVerified (hproofs : env.ProofsNotEmpty) (info : RoutePeerInfo)
    (declared : List PeerGroupInfo) (groups : GroupMap)
    (hgroups : ∀ name proof, groups.lookup name = some proof → proof ≠ []) :
    (∀ name proof, (declared.foldl (env.insertVerified info) groups).lookup name = some proof →
      proof ≠ []) ∧
    ∀ name, name ∈ declared.foldl (env.insertVerified info) groups ↔
      name ∈ groups ∨
        ∃ group ∈ declared, group.groupName = name ∧ env.groupVerifies info group = true := by
  induction declared generalizing groups with
  | nil => exact ⟨hgroups, by simp⟩
  | cons group declared ih =>
    rw [foldl_cons]
    by_cases hverifies : env.groupVerifies info group = true
    · have hproof : group.groupProof ≠ [] := by
        obtain ⟨secret, -, hverified⟩ := (any_eq_true _ _).mp hverifies
        exact hproofs group secret info.peerId hverified
      rw [insertVerified, if_pos hverifies]
      obtain ⟨hnonempty, hmem⟩ := ih (groups.insert group.groupName group.groupProof)
        (forall_lookup_insert hgroups hproof)
      refine ⟨hnonempty, fun name => ?_⟩
      rw [hmem, AList.mem_insert, exists_mem_cons_iff, and_iff_left hverifies, eq_comm]
      tauto
    · rw [insertVerified, if_neg hverifies]
      obtain ⟨hnonempty, hmem⟩ := ih groups hgroups
      refine ⟨hnonempty, fun name => ?_⟩
      rw [hmem, exists_mem_cons_iff]
      exact or_congr_right (or_iff_right fun h => hverifies h.2).symm

/-- The groups of a record: those with a proof verify, the others are declared. -/
theorem verifyGroups_spec (hproofs : env.ProofsNotEmpty) (info : RoutePeerInfo) :
    (Proven (env.verifyGroups info) name ↔ env.VerifiedGroup info name) ∧
      (name ∈ env.verifyGroups info ↔
        env.VerifiedGroup info name ∨ env.DeclaredGroup info name) := by
  obtain ⟨hnonempty, hmem⟩ := foldl_insertVerified hproofs info info.groups ∅ (by simp)
  have hverified : name ∈ info.groups.foldl (env.insertVerified info) ∅ ↔
      env.VerifiedGroup info name := by
    rw [hmem]
    exact or_iff_right (AList.notMem_empty name)
  have hproven : Proven (info.groups.foldl (env.insertVerified info) ∅) name ↔
      env.VerifiedGroup info name := by
    rw [← hverified]
    refine ⟨Proven.mem, fun h => ?_⟩
    obtain ⟨proof, hproof⟩ := isSome_iff_exists.mp (AList.lookup_isSome.mpr h)
    exact ⟨proof, hproof, hnonempty name proof hproof⟩
  unfold verifyGroups DeclaredGroup
  split_ifs with htrusts
  · rw [proven_foldl_orDefault, mem_foldl_orDefault, hverified, htrusts]
    exact ⟨hproven, by simp⟩
  · rw [hverified]
    exact ⟨hproven, by simp [htrusts]⟩

end TrustEnv

/-! ## The groups of one peer -/

/-- The groups of the credential that is trusted for the key of the record. -/
def CredentialGroup (info : RoutePeerInfo) (name : String) : Prop :=
  ∃ credential, trusted.lookup info.noiseStaticPubkey = some credential ∧ name ∈ credential.groups

def RecordGroup (info : RoutePeerInfo) (name : String) : Prop :=
  env.VerifiedGroup info name ∨ env.DeclaredGroup info name ∨ CredentialGroup trusted info name

/-- The groups of a peer are those of its record. -/
def GroupsMatch (groups : GroupMap) (record : Option RoutePeerInfo) : Prop :=
  ∀ name, name ∈ groups ↔ ∃ info, record = some info ∧ RecordGroup env trusted info name

/-- As `GroupsMatch`, where groups of the credential may be missing until the next refresh. -/
structure GroupsFollow (groups : GroupMap) (record : Option RoutePeerInfo) : Prop where
  proven : ∀ name, Proven groups name ↔ ∃ info, record = some info ∧ env.VerifiedGroup info name
  declared : ∀ info, record = some info → ∀ name, env.DeclaredGroup info name → name ∈ groups
  held : ∀ name ∈ groups, ∃ info, record = some info ∧ RecordGroup env trusted info name

def credentialGroupsOf (info : RoutePeerInfo) (groups : GroupMap) : GroupMap :=
  if info.noiseStaticPubkey.isEmpty then groups
  else
    match trusted.lookup info.noiseStaticPubkey with
    | none => groups
    | some credential =>
      credential.groups.foldl orDefault (groups.retain fun proof => !proof.isEmpty)

/-- Keys are not empty, and without a secret there are none. -/
structure TrustedProper : Prop where
  proper : ∀ key ∈ trusted, key ≠ []
  secret : ∀ key ∈ trusted, env.networkSecret ≠ none

section

variable {env : TrustEnv ρ} {trusted trusted' : TrustedKeys} {groups : GroupMap}
  {info : RoutePeerInfo} {record : Option RoutePeerInfo}

theorem CredentialGroup.mem (h : CredentialGroup trusted info name) :
    info.noiseStaticPubkey ∈ trusted := by
  obtain ⟨credential, hcredential, -⟩ := h
  exact AList.lookup_isSome.mp (by rw [hcredential]; rfl)

section

variable (h : GroupsFollow env trusted groups record)
  (hkey : ∀ info, record = some info → info.noiseStaticPubkey ∉ trusted)
include h hkey

theorem GroupsFollow.groupsMatch_of_not_mem : GroupsMatch env trusted groups record := by
  intro name
  refine ⟨h.held name, ?_⟩
  rintro ⟨info, hinfo, hverified | hdeclared | hcredential⟩
  · exact ((h.proven name).mpr ⟨info, hinfo, hverified⟩).mem
  · exact h.declared info hinfo name hdeclared
  · exact absurd hcredential.mem (hkey info hinfo)

theorem GroupsFollow.of_not_mem : GroupsFollow env trusted' groups record := by
  refine ⟨h.proven, h.declared, fun name hname => ?_⟩
  obtain ⟨info, hinfo, hverified | hdeclared | hcredential⟩ := h.held name hname
  · exact ⟨info, hinfo, .inl hverified⟩
  · exact ⟨info, hinfo, .inr (.inl hdeclared)⟩
  · exact absurd hcredential.mem (hkey info hinfo)

end

theorem GroupsFollow.refresh (h : GroupsFollow env trusted groups (some info))
    (hproper : TrustedProper env trusted')
    (hkept : info.noiseStaticPubkey ∈ trusted → info.noiseStaticPubkey ∈ trusted') :
    GroupsFollow env trusted' (credentialGroupsOf trusted' info groups) (some info) ∧
      GroupsMatch env trusted' (credentialGroupsOf trusted' info groups) (some info) := by
  by_cases hmem : info.noiseStaticPubkey ∈ trusted'
  · obtain ⟨credential, hcredential⟩ := isSome_iff_exists.mp (AList.lookup_isSome.mpr hmem)
    have hgroups : credentialGroupsOf trusted' info groups = credential.groups.foldl orDefault
          (groups.retain fun proof => !proof.isEmpty) := by
      have hkey : info.noiseStaticPubkey.isEmpty = false := by
        simpa using hproper.proper _ hmem
      rw [credentialGroupsOf, hkey, hcredential]
      rfl
    rw [hgroups]
    have hdeclared : ∀ name, ¬env.DeclaredGroup info name := by
      rintro name ⟨htrusts, -⟩
      have hsecret := (Bool.and_eq_true_iff.mp htrusts).1
      exact hproper.secret _ hmem (by simpa using hsecret)
    have hverified : ∀ name, Proven groups name ↔ env.VerifiedGroup info name := by
      intro name
      rw [h.proven]
      simp
    have hmatch : GroupsMatch env trusted' (credential.groups.foldl orDefault
        (groups.retain fun proof => !proof.isEmpty)) (some info) := by
      intro name
      rw [mem_foldl_orDefault, mem_retain_proofs, hverified]
      constructor
      · rintro (hproof | hname)
        · exact ⟨info, rfl, .inl hproof⟩
        · exact ⟨info, rfl, .inr (.inr ⟨credential, hcredential, hname⟩)⟩
      · rintro ⟨_, ⟨rfl⟩, hproof | hname | ⟨found, hfound, hname⟩⟩
        · exact .inl hproof
        · exact absurd hname (hdeclared name)
        · rw [hcredential] at hfound
          cases hfound
          exact .inr hname
    refine ⟨⟨fun name => ?_, ?_, fun name => (hmatch name).mp⟩, hmatch⟩
    · rw [proven_foldl_orDefault, proven_retain_proofs, h.proven]
    · rintro _ ⟨rfl⟩ name hname
      exact absurd hname (hdeclared name)
  · have hgroups : credentialGroupsOf trusted' info groups = groups := by
      rw [credentialGroupsOf, AList.lookup_eq_none.mpr hmem, ite_self]
    have hfollow : GroupsFollow env trusted' groups (some info) := by
      refine h.of_not_mem ?_
      rintro _ ⟨rfl⟩ hlost
      exact hmem (hkept hlost)
    rw [hgroups]
    refine ⟨hfollow, hfollow.groupsMatch_of_not_mem ?_⟩
    rintro _ ⟨rfl⟩
    exact hmem

theorem groupsFollow_none :
    GroupsFollow env trusted ∅ none where
  proven name := by
    refine ⟨fun h => absurd h.mem (AList.notMem_empty name), ?_⟩
    rintro ⟨info, hinfo, -⟩
    cases hinfo
  declared info hinfo := by cases hinfo
  held name hname := absurd hname (AList.notMem_empty name)

theorem groupsFollow_verifyGroups (hproofs : env.ProofsNotEmpty) (now : Nat) :
    GroupsFollow env trusted (env.verifyGroups info) (some (info.received now)) where
  proven name := by
    rw [(env.verifyGroups_spec hproofs info).1]
    constructor
    · exact fun h => ⟨info.received now, rfl, h⟩
    · rintro ⟨_, ⟨rfl⟩, h⟩
      exact h
  declared stored hstored name hname := by
    cases hstored
    exact ((env.verifyGroups_spec hproofs info).2).mpr (.inr hname)
  held name hname := by
    rcases ((env.verifyGroups_spec hproofs info).2).mp hname with h | h
    · exact ⟨info.received now, rfl, .inl h⟩
    · exact ⟨info.received now, rfl, .inr (.inl h)⟩

theorem GroupsFollow.blank (h : GroupsFollow env trusted groups none) (now : Nat) :
    GroupsFollow env trusted groups (some (.blank now)) where
  proven name := by
    rw [h.proven]
    constructor
    · rintro ⟨info, hinfo, -⟩
      cases hinfo
    · rintro ⟨info, hinfo, group, hgroup, -⟩
      cases hinfo
      cases hgroup
  declared info hinfo name hname := by
    cases hinfo
    cases hname.2
  held name hname := by
    obtain ⟨info, hinfo, -⟩ := h.held name hname
    cases hinfo

end

namespace TrustState

variable {env : TrustEnv ρ} {input : RefreshInput} {s t : TrustState ρ}

/-! ## The loops over records -/

def groupsOf (s : TrustState ρ) (p : PeerId) : GroupMap := (s.groupTrustMap.lookup p).getD ∅

def Cached (s : TrustState ρ) : Prop :=
  ∀ p, s.groupTrustMapCache.lookup p = (s.groupTrustMap.lookup p).map AList.keys

/-- Records with a key are stored under their own ids. -/
def OwnRecords (records : KeyedMap PeerId RoutePeerInfo) : Prop :=
  ∀ p info, records.lookup p = some info → info.noiseStaticPubkey ≠ [] → info.peerId = p

variable {p : PeerId}

theorem groupsOf_setPeerGroups (q : PeerId) :
    (s.setPeerGroups q groups).groupsOf p = if p = q then groups else s.groupsOf p := by
  unfold groupsOf setPeerGroups
  by_cases hp : p = q
  · subst hp
    rw [if_pos rfl]
    split_ifs with hempty
    · have hnone : groups = ∅ := by
        apply AList.ext
        simpa [AList.keys, keys] using hempty
      rw [hnone]
      exact congrArg (getD · ∅) (AList.lookup_erase p s.groupTrustMap)
    · exact congrArg (getD · ∅) (AList.lookup_insert s.groupTrustMap)
  · split_ifs
    · exact congrArg (getD · ∅) (AList.lookup_erase_ne hp)
    · exact congrArg (getD · ∅) (AList.lookup_insert_ne hp)

theorem Cached.setPeerGroups (h : s.Cached) (q : PeerId) (groups : GroupMap) :
    (s.setPeerGroups q groups).Cached := by
  intro p
  unfold TrustState.setPeerGroups
  by_cases hp : p = q
  · subst hp
    split_ifs
    · simp
    · simp
  · split_ifs
    · simpa [AList.lookup_erase_ne hp] using h p
    · simpa [AList.lookup_insert_ne hp] using h p

variable {peerInfos : List RoutePeerInfo}

theorem groupsOf_verify_of_notMem (h : p ∉ peerInfos.map (·.peerId)) :
    (s.verifyAndUpdateGroupTrusts env peerInfos).groupsOf p = s.groupsOf p := by
  unfold verifyAndUpdateGroupTrusts
  induction peerInfos generalizing s with
  | nil => rfl
  | cons info peerInfos ih =>
    rw [map_cons, mem_cons, not_or] at h
    rw [foldl_cons, ih h.2, groupsOf_setPeerGroups, if_neg h.1]

variable {info : RoutePeerInfo}

/-- A peer with one record in the list has the groups that the check of the record finds. -/
theorem groupsOf_verify_of_mem
    (hmem : info ∈ peerInfos) (hnodup : (peerInfos.map (·.peerId)).Nodup) :
    (s.verifyAndUpdateGroupTrusts env peerInfos).groupsOf info.peerId = env.verifyGroups info := by
  induction peerInfos generalizing s with
  | nil => cases hmem
  | cons first peerInfos ih =>
    rw [map_cons, nodup_cons] at hnodup
    have hrest : s.verifyAndUpdateGroupTrusts env (first :: peerInfos) =
        (s.setPeerGroups first.peerId (env.verifyGroups first)).verifyAndUpdateGroupTrusts env
          peerInfos := rfl
    rw [hrest]
    rcases mem_cons.mp hmem with rfl | hmem
    · rw [groupsOf_verify_of_notMem hnodup.1, groupsOf_setPeerGroups, if_pos rfl]
    · exact ih hmem hnodup.2

theorem Cached.verifyAndUpdateGroupTrusts (h : s.Cached) (peerInfos : List RoutePeerInfo) :
    (s.verifyAndUpdateGroupTrusts env peerInfos).Cached :=
  foldlRecOn (motive := Cached) _ _ h fun _ h _ _ => h.setPeerGroups _ _

theorem getProofGroups_eq :
    s.getProofGroups p = (s.groupsOf p).retain fun proof => !proof.isEmpty := by
  unfold getProofGroups groupsOf
  cases s.groupTrustMap.lookup p with
  | none => rfl
  | some groups => rfl

variable (allTrusted : TrustedKeys)

theorem groupsOf_updateCredentialGroup :
    (updateCredentialGroup allTrusted s info).groupsOf p =
      if p = info.peerId then credentialGroupsOf allTrusted info (s.groupsOf p)
      else s.groupsOf p := by
  unfold updateCredentialGroup credentialGroupsOf
  by_cases hempty : info.noiseStaticPubkey.isEmpty
  · rw [if_pos hempty, if_pos hempty, ite_self]
  rw [if_neg hempty, if_neg hempty]
  cases allTrusted.lookup info.noiseStaticPubkey with
  | none => exact (ite_self _).symm
  | some credential =>
    rw [groupsOf_setPeerGroups]
    split_ifs with hp
    · rw [hp, getProofGroups_eq]
    · rfl

theorem Cached.updateCredentialGroup (h : s.Cached)
    (allTrusted : TrustedKeys) (info : RoutePeerInfo) :
    (updateCredentialGroup allTrusted s info).Cached := by
  unfold TrustState.updateCredentialGroup
  split_ifs
  · exact h
  · split
    · exact h
    · exact h.setPeerGroups _ _

/-- Over records that are stored under their own ids, where they have a key, the loop changes the
groups of a peer by the record of that peer only. -/
theorem groupsOf_foldl_updateCredentialGroup
    {entries : List ((_ : PeerId) × RoutePeerInfo)} (hnodup : entries.NodupKeys)
    (hown : ∀ entry ∈ entries, entry.2.noiseStaticPubkey ≠ [] → entry.2.peerId = entry.1) :
    ((entries.map (·.2)).foldl (updateCredentialGroup allTrusted) s).groupsOf p =
      (entries.dlookup p).elim (s.groupsOf p)
        fun info => credentialGroupsOf allTrusted info (s.groupsOf p) := by
  induction entries generalizing s with
  | nil => rfl
  | cons entry entries ih =>
    obtain ⟨q, info⟩ := entry
    rw [nodupKeys_cons] at hnodup
    rw [map_cons, foldl_cons, ih hnodup.2 fun entry hentry => hown entry (mem_cons_of_mem _ hentry)]
    have hinfo : (updateCredentialGroup allTrusted s info).groupsOf p =
        if p = q then credentialGroupsOf allTrusted info (s.groupsOf p) else s.groupsOf p := by
      rw [groupsOf_updateCredentialGroup]
      by_cases hkey : info.noiseStaticPubkey = []
      · have hsame : credentialGroupsOf allTrusted info (s.groupsOf p) = s.groupsOf p := by
          rw [credentialGroupsOf, hkey]
          rfl
        rw [hsame, ite_self, ite_self]
      · rw [hown ⟨q, info⟩ mem_cons_self hkey]
    rw [hinfo]
    by_cases hp : p = q
    · subst hp
      rw [dlookup_eq_none.mpr hnodup.1, dlookup_cons_eq, if_pos rfl]
      rfl
    · rw [dlookup_cons_ne _ _ hp, if_neg hp]

theorem Cached.updateCredentialGroups (h : s.Cached)
    (allTrusted : TrustedKeys) :
    (s.updateCredentialGroups allTrusted).Cached :=
  foldlRecOn (motive := Cached) _ _ h fun _ h info _ => h.updateCredentialGroup allTrusted info

theorem groupsOf_updateCredentialGroups
    (hown : OwnRecords s.routes.peerInfos) :
    (s.updateCredentialGroups allTrusted).groupsOf p =
      (s.routes.peerInfos.lookup p).elim (s.groupsOf p)
        fun info => credentialGroupsOf allTrusted info (s.groupsOf p) := by
  have hreverse : s.routes.peerInfos.entries.reverse.NodupKeys :=
    (perm_nodupKeys (reverse_perm _)).mpr s.routes.peerInfos.nodupKeys
  have hlookup : s.routes.peerInfos.entries.reverse.dlookup p = s.routes.peerInfos.lookup p :=
    perm_dlookup p hreverse (reverse_perm _)
  rw [← hlookup]
  refine groupsOf_foldl_updateCredentialGroup allTrusted hreverse ?_
  rintro ⟨q, info⟩ hentry
  exact hown q info (AList.mem_lookup_iff.mpr (mem_reverse.mp hentry))

theorem groupsOf_removePeers (peerIds : List PeerId) :
    (s.removePeers peerIds).groupsOf p = if p ∈ peerIds then ∅ else s.groupsOf p := by
  unfold groupsOf removePeers
  rw [lookup_foldl_erase]
  split_ifs <;> rfl

theorem Cached.removePeers (h : s.Cached) (peerIds : List PeerId) :
    (s.removePeers peerIds).Cached := by
  intro p
  unfold TrustState.removePeers
  rw [lookup_foldl_erase, lookup_foldl_erase]
  split_ifs
  · rfl
  · exact h p

/-! ## Refreshes and requests -/

/-- What the groups of all other peers rest on, where groups of credentials may be missing until
the next refresh. -/
structure GroupsCoherent (env : TrustEnv ρ) (s : TrustState ρ) : Prop where
  trusted : TrustedProper env s.trustedCredentialPubkeys
  own : OwnRecords s.routes.peerInfos
  versioned : ∀ p info, s.routes.peerInfos.lookup p = some info → info.noiseStaticPubkey ≠ [] →
    p ≠ env.myPeerId → 0 < info.version
  cached : s.Cached
  follow : ∀ p, p ≠ env.myPeerId →
    GroupsFollow env s.trustedCredentialPubkeys (s.groupsOf p) (s.routes.peerInfos.lookup p)

/-- The groups of every other peer are those of its stored record and of the credential that is
trusted for its key, and the cache lists them. -/
structure GroupsFollowRecords (env : TrustEnv ρ) (s : TrustState ρ) : Prop where
  groups : ∀ p, p ≠ env.myPeerId →
    GroupsMatch env s.trustedCredentialPubkeys (s.groupsOf p) (s.routes.peerInfos.lookup p)
  cached : s.Cached

structure Settled (env : TrustEnv ρ) (s : TrustState ρ) : Prop where
  coherent : GroupsCoherent env s
  follows : GroupsFollowRecords env s

variable {routes : SyncedRouteInfo ρ}

theorem secret_of_mem_collect {key : Bytes}
    (h : key ∈ env.collectTrustedCredentials input routes) : env.networkSecret ≠ none := by
  intro hsecret
  have hproof : ∀ raw candidates indexed,
      env.collectProof input raw candidates indexed = candidates := by
    rintro raw candidates ⟨proof, proofIdx⟩
    have hinvalid : env.credentialProofIsValid raw proofIdx proof = false := by
      rw [TrustEnv.credentialProofIsValid, hsecret]
    rw [TrustEnv.collectProof, hinvalid]
    rfl
  have hinfo : ∀ candidates entry, env.collectInfo input routes candidates entry = candidates := by
    intro candidates entry
    unfold TrustEnv.collectInfo
    split_ifs
    · exact foldl_fixed' (fun indexed => hproof _ candidates indexed) _
    · rfl
  have hempty : routes.peerInfos.entries.reverse.foldl (env.collectInfo input routes) ⟨∅, []⟩ =
      ⟨∅, []⟩ := foldl_fixed' (fun entry => hinfo _ entry) _
  rw [TrustEnv.collectTrustedCredentials, hempty] at h
  exact absurd h (AList.notMem_empty key)

theorem groupsOf_refreshTrusts
    (hown : OwnRecords s.routes.peerInfos) :
    (s.refreshTrusts env input).groupsOf p =
      if p ∈ s.revokedPeers (env.collectTrustedCredentials input s.routes) env.myPeerId then ∅
      else (s.routes.peerInfos.lookup p).elim (s.groupsOf p) fun info =>
        credentialGroupsOf (env.collectTrustedCredentials input s.routes) info (s.groupsOf p) := by
  have hrecords : (s.routes.incVersionIf input.suppressedChanged).peerInfos =
      s.routes.peerInfos := by
    cases input.suppressedChanged <;> rfl
  rw [refreshTrusts]
  rw [groupsOf_removePeers, groupsOf_updateCredentialGroups]
  · rw [hrecords]
    rfl
  · rw [hrecords]
    exact hown

theorem GroupsCoherent.refresh (h : GroupsCoherent env s) :
    Settled env (s.refreshTrusts env input) := by
  have hproper : TrustedProper env (env.collectTrustedCredentials input s.routes) := by
    refine ⟨fun key hkey => ?_, fun _ hkey => secret_of_mem_collect hkey⟩
    have hlength := TrustEnv.length_of_mem_collect hkey
    rintro rfl
    cases hlength
  have hsub : ∀ p info, (s.refreshTrusts env input).routes.peerInfos.lookup p = some info →
      s.routes.peerInfos.lookup p = some info := by
    intro p info hinfo
    rw [lookup_refreshTrusts] at hinfo
    split_ifs at hinfo
    exact hinfo
  have hcached : (s.refreshTrusts env input).Cached := by
    refine Cached.removePeers (Cached.updateCredentialGroups ?_ _) _
    exact h.cached
  have hgroups : ∀ p, p ≠ env.myPeerId →
      GroupsFollow env (env.collectTrustedCredentials input s.routes)
        ((s.refreshTrusts env input).groupsOf p)
        ((s.refreshTrusts env input).routes.peerInfos.lookup p) ∧
      GroupsMatch env (env.collectTrustedCredentials input s.routes)
        ((s.refreshTrusts env input).groupsOf p)
        ((s.refreshTrusts env input).routes.peerInfos.lookup p) := by
    intro p hp
    rw [groupsOf_refreshTrusts h.own, lookup_refreshTrusts]
    have hfollow := h.follow p hp
    split_ifs with hrevoked
    · refine ⟨groupsFollow_none, (groupsFollow_none).groupsMatch_of_not_mem ?_⟩
      exact fun info hinfo => by cases hinfo
    · cases hrecord : s.routes.peerInfos.lookup p with
      | none =>
        rw [hrecord] at hfollow
        have hno : ∀ trusted : TrustedKeys, ∀ info,
            (none : Option RoutePeerInfo) = some info → info.noiseStaticPubkey ∉ trusted :=
          fun _ info hinfo => by cases hinfo
        exact ⟨hfollow.of_not_mem (hno _), (hfollow.of_not_mem (hno _)).groupsMatch_of_not_mem
          (hno _)⟩
      | some info =>
        rw [hrecord] at hfollow
        refine hfollow.refresh hproper fun hold => ?_
        -- a record whose key was trusted and is not any more would have been removed
        by_contra hlost
        apply hrevoked
        have hkey := h.trusted.proper _ hold
        have hversion : info.version ≠ 0 := (h.versioned p info hrecord hkey hp).ne'
        refine mem_map.mpr ⟨⟨p, info⟩, mem_filter.mpr ⟨AList.mem_lookup_iff.mp hrecord, ?_⟩, rfl⟩
        simp [hold, hlost, hp, hversion, hkey]
  have htrusted : (s.refreshTrusts env input).trustedCredentialPubkeys =
      env.collectTrustedCredentials input s.routes := trusted_refreshTrusts
  rw [← htrusted] at hgroups hproper
  refine ⟨⟨hproper, ?_, ?_, hcached, fun p hp => (hgroups p hp).1⟩,
    fun p hp => (hgroups p hp).2, hcached⟩
  · exact fun p info hinfo => h.own p info (hsub p info hinfo)
  · exact fun p info hinfo => h.versioned p info (hsub p info hinfo)

/-- Every record of another peer in the call is newer than the stored one, no peer has two, and
the update is carried out or leaves no trace. -/
structure RecordsStored (env : TrustEnv ρ) (s : TrustState ρ) (call : UpdateCall ρ) : Prop where
  allOrNothing : SyncedRouteInfo.AllOrNothing env.codec s.routes call
  room : s.routes.version + (callRowCount call + 4) < 2 ^ 32
  distinct : (call.peerInfos.map (·.peerId)).Nodup
  newer : ∀ info ∈ call.peerInfos, info.peerId ≠ env.myPeerId →
    s.routes.isNewer info = true ∧ 0 < info.version

variable {call : UpdateCall ρ}

theorem changed_of_lt {codec : WireCodec ρ}
    {changed : Bool} (hok : (routes.updateWithAuthority codec call).1 = .ok changed)
    (hlt : routes.version < (routes.updateWithAuthority codec call).2.version) :
    changed = true := by
  unfold updateWithAuthority at hok hlt
  split at hok
  · cases hok
  next hcheck =>
  rw [hcheck] at hlt
  split at hok
  · cases hok
  · next updated hloop =>
    rw [hloop] at hlt
    rw [← Except.ok.inj hok]
    exact decide_eq_true hlt.ne'

theorem RecordsStored.changed (h : RecordsStored env s call) {changed : Bool}
    (hok : (s.routes.updateWithAuthority env.codec call).1 = .ok changed)
    (hinfo : info ∈ call.peerInfos) (hpeer : info.peerId ≠ env.myPeerId) : changed = true := by
  have hnewer := (h.newer info hinfo hpeer).1
  have hstored := lookup_updateWithAuthority_of_newer hok h.distinct hinfo hnewer
  refine changed_of_lt hok ((h.allOrNothing.atomicAndVersioned h.room).versioned fun hsame => ?_)
  -- the stored record has another version than the one before it
  have hrecord := hsame.records info.peerId
  rw [hstored] at hrecord
  obtain ⟨old, hold, hcontent⟩ := map_eq_some_iff.mp hrecord
  rw [isNewer, hold] at hnewer
  have hlt : old.version < info.version := of_decide_eq_true hnewer
  have hversion : old.content.version = (info.received call.now).content.version := by
    rw [hcontent]
  exact hlt.ne hversion

theorem GroupsCoherent.update (h : GroupsCoherent env s) (hproofs : env.ProofsNotEmpty)
    (hcall : RecordsStored env s call) {changed : Bool}
    (hok : (s.routes.updateWithAuthority env.codec call).1 = .ok changed)
    (hstate : t = verifyAndUpdateGroupTrusts env
      { s with routes := (s.routes.updateWithAuthority env.codec call).2 } call.peerInfos) :
    GroupsCoherent env t ∧
      (GroupsFollowRecords env s → changed = false → GroupsFollowRecords env t) := by
  obtain ⟨hroutes, htrusted⟩ := verifyAndUpdateGroupTrusts_keeps env
    { s with routes := (s.routes.updateWithAuthority env.codec call).2 } call.peerInfos
  rw [← hstate] at hroutes htrusted
  dsimp only at hroutes htrusted
  have hbefore : Cached { s with routes := (s.routes.updateWithAuthority env.codec call).2 } :=
    h.cached
  have hcached : t.Cached := by
    rw [hstate]
    exact hbefore.verifyAndUpdateGroupTrusts _
  have horigin := recordOrigin_updateWithAuthority env.codec s.routes call
  rw [← hroutes] at horigin
  -- a peer of which the call has no record keeps its record or gets a blank one
  have hother : ∀ p, p ∉ call.peerInfos.map (·.peerId) → t.groupsOf p = s.groupsOf p ∧
      (t.routes.peerInfos.lookup p = s.routes.peerInfos.lookup p ∨
        s.routes.peerInfos.lookup p = none ∧
          t.routes.peerInfos.lookup p = some (.blank call.now)) := by
    intro p hp
    refine ⟨by rw [hstate]; exact groupsOf_verify_of_notMem hp, ?_⟩
    have hrecord := horigin p
    generalize t.routes.peerInfos.lookup p = record at hrecord
    cases hrecord with
    | kept => exact .inl rfl
    | blank hnone => exact .inr ⟨hnone, rfl⟩
    | stored info hinfo hpeer hnewer => exact absurd (mem_map.mpr ⟨info, hinfo, hpeer⟩) hp
  have hkey : ∀ p info, t.routes.peerInfos.lookup p = some info → info.noiseStaticPubkey ≠ [] →
      info.peerId = p ∧ (p ≠ env.myPeerId → 0 < info.version) := by
    intro p info hinfo hne
    have hrecord := horigin p
    rw [hinfo] at hrecord
    generalize hlookup : some info = record at hrecord
    cases hrecord with
    | kept => exact ⟨h.own p info hlookup.symm hne, h.versioned p info hlookup.symm hne⟩
    | blank hnone =>
      cases hlookup
      exact absurd rfl hne
    | stored offer hoffer hpeer hnewer =>
      cases hlookup
      exact ⟨hpeer, fun hp => (hcall.newer offer hoffer (hpeer ▸ hp)).2⟩
  have hfollow : ∀ p, p ≠ env.myPeerId →
      GroupsFollow env s.trustedCredentialPubkeys (t.groupsOf p) (t.routes.peerInfos.lookup p) := by
    intro p hp
    by_cases hmem : p ∈ call.peerInfos.map (·.peerId)
    · obtain ⟨info, hinfo, rfl⟩ := mem_map.mp hmem
      have hstored := lookup_updateWithAuthority_of_newer hok hcall.distinct hinfo
        (hcall.newer info hinfo hp).1
      have hchecked : t.groupsOf info.peerId = env.verifyGroups info := by
        rw [hstate]
        exact groupsOf_verify_of_mem hinfo hcall.distinct
      rw [hroutes, hstored, hchecked]
      exact groupsFollow_verifyGroups hproofs call.now
    · obtain ⟨hgroups, hkept | ⟨hnone, hblank⟩⟩ := hother p hmem
      · rw [hgroups, hkept]
        exact h.follow p hp
      · rw [hgroups, hblank]
        exact GroupsFollow.blank (hnone ▸ h.follow p hp) call.now
  rw [← htrusted] at hfollow
  refine ⟨{ trusted := ?_, own := ?_, versioned := ?_, cached := hcached, follow := hfollow },
    fun hmatch hsame => ⟨fun p hp => ?_, hcached⟩⟩
  · rw [htrusted]
    exact h.trusted
  · exact fun p info hinfo hne => (hkey p info hinfo hne).1
  · exact fun p info hinfo hne => (hkey p info hinfo hne).2
  · have hmem : p ∉ call.peerInfos.map (·.peerId) := by
      intro hmem
      obtain ⟨info, hinfo, rfl⟩ := mem_map.mp hmem
      rw [hcall.changed hok hinfo hp] at hsame
      cases hsame
    obtain ⟨hgroups, hkept | ⟨-, hblank⟩⟩ := hother p hmem
    · rw [hgroups, hkept, htrusted]
      exact hmatch.groups p hp
    refine (hfollow p hp).groupsMatch_of_not_mem ?_
    rw [hblank]
    rintro _ ⟨rfl⟩ htrustedKey
    rw [htrusted] at htrustedKey
    exact h.trusted.proper _ htrustedKey rfl

section

variable (h : Settled env s)
include h

theorem settled_of_eq (hroutes : routes.peerInfos = s.routes.peerInfos) :
    Settled env { s with routes } := by
  obtain ⟨⟨htrusted, hown, hversioned, hcached, hfollow⟩, ⟨hgroups, -⟩⟩ := h
  rw [← hroutes] at hown hversioned hfollow hgroups
  exact ⟨⟨htrusted, hown, hversioned, hcached, hfollow⟩, ⟨hgroups, hcached⟩⟩

theorem settled_carryOut (hproofs : env.ProofsNotEmpty) (request : SyncRequest ρ)
    (hcall : RecordsStored env s call) :
    Settled env (s.carryOut env input request call).2 := by
  unfold carryOut
  cases hupdate : s.routes.updateWithAuthority env.codec call with
  | mk result routes =>
    cases result with
    | error error =>
      have hsame : routes = s.routes := by
        rcases hcall.allOrNothing.effect with hsame | ⟨⟨changed, hok⟩, -⟩
        · rwa [hupdate] at hsame
        · rw [hupdate] at hok
          cases hok
      exact settled_of_eq h (by rw [hsame])
    | ok changed =>
      have hok : (s.routes.updateWithAuthority env.codec call).1 = .ok changed := by
        rw [hupdate]
      obtain ⟨hcoherent, hkept⟩ := h.coherent.update hproofs hcall hok rfl
      rw [hupdate] at hcoherent hkept
      cases changed with
      | false =>
        exact settled_of_eq ⟨hcoherent, hkept h.follows rfl⟩
          (peerInfos_applyForeignNetwork request _)
      | true =>
        exact settled_of_eq hcoherent.refresh (peerInfos_applyForeignNetwork request _)

def RequestStored (env : TrustEnv ρ) (s : TrustState ρ) : TrustInput ρ → Prop
  | .sync request _ =>
    ∀ call, requestedCall env { request with myPeerId := env.myPeerId } = some (.ok (some call)) →
      RecordsStored env s call
  | .refresh _ => True

theorem settled_step (hproofs : env.ProofsNotEmpty) {action : TrustInput ρ}
    (haction : s.RequestStored env action) :
    Settled env (s.step env action).1 := by
  cases action with
  | refresh input => exact h.coherent.refresh
  | sync request input =>
    unfold step syncRouteInfo
    dsimp only
    match hrequested : requestedCall env { request with myPeerId := env.myPeerId } with
    | none | some (.error error) => exact h
    | some (.ok none) => exact settled_of_eq h (peerInfos_applyForeignNetwork _ _)
    | some (.ok (some call)) => exact settled_carryOut h hproofs _ (haction call hrequested)

end

theorem settled_new
    (hlocal : ∀ p info, routes.peerInfos.lookup p = some info →
      p = env.myPeerId ∧ info.peerId = p) :
    Settled env (new routes) := by
  have hnone : ∀ p, p ≠ env.myPeerId → routes.peerInfos.lookup p = none := by
    intro p hp
    rw [eq_none_iff_forall_not_mem]
    exact fun info hinfo => hp (hlocal p info hinfo).1
  have htrusted : ∀ key, key ∉ (∅ : TrustedKeys) := fun key => AList.notMem_empty key
  have hfollow : ∀ p, p ≠ env.myPeerId →
      GroupsFollow env ∅ ((new routes).groupsOf p) (routes.peerInfos.lookup p) := by
    intro p hp
    rw [hnone p hp]
    exact groupsFollow_none
  refine ⟨⟨⟨fun key hkey => absurd hkey (htrusted key), fun key hkey => absurd hkey (htrusted key)⟩,
    fun p info hinfo _ => (hlocal p info hinfo).2,
    fun p info hinfo _ hp => absurd (hlocal p info hinfo).1 hp, fun _ => rfl, hfollow⟩,
    fun p hp => ?_, fun _ => rfl⟩
  exact (hfollow p hp).groupsMatch_of_not_mem fun info _ => htrusted _

/-- In every run whose requests bring newer records of different peers only and are carried out
or refused as a whole, the groups of every other peer follow its stored record after each step. -/
theorem groups_follow_records (env : TrustEnv ρ) (hproofs : env.ProofsNotEmpty)
    (routes : SyncedRouteInfo ρ)
    (hlocal : ∀ p info, routes.peerInfos.lookup p = some info →
      p = env.myPeerId ∧ info.peerId = p) (actions : List (TrustInput ρ))
    (hstored : Trace.Always (step env) (fun s _ action => s.RequestStored env action)
      (new routes) [] actions) :
    Trace.Always (step env) (fun s _ action => GroupsFollowRecords env (s.step env action).1)
      (new routes) [] actions :=
  Trace.always_of_always (I := fun s _ => Settled env s)
    (fun _ _ _ h haction => settled_step h hproofs haction)
    (fun _ _ _ h haction => (settled_step h hproofs haction).follows) (settled_new hlocal) hstored

def opsRecord (version : Nat) : RoutePeerInfo :=
  { recordOf 2 version with
    noiseStaticPubkey := leafKey
    groups := [⟨"ops", [1]⟩] }

def plainRecord (version : Nat) : RoutePeerInfo :=
  { recordOf 2 version with noiseStaticPubkey := leafKey }

/-- A peer with a proof and a trusted credential has the groups of both. -/
theorem groups_follow_records_two_groups : Trace.Always (step smallEnv)
      (fun s _ action => GroupsFollowRecords smallEnv (s.step smallEnv action).1)
      (new .empty) [] [.sync (adminRequest [adminRecord, opsRecord 1]) valid] ∧
    (((new .empty).step smallEnv
      (.sync (adminRequest [adminRecord, opsRecord 1]) valid)).1.groupsOf 2).keys =
        ["staff", "ops"] := by
  refine ⟨groups_follow_records smallEnv ?_ .empty ?_ _ ⟨?_, trivial⟩, by decide +kernel⟩
  · intro group secret peerId h
    simpa [smallEnv] using h
  · intro p info hinfo
    cases hinfo
  · intro call hcall
    cases hcall
    exact ⟨.inr (.inl ⟨rfl, by decide +kernel, by decide +kernel, trivial⟩), by decide +kernel,
      by decide +kernel, by decide +kernel⟩

def afterStale : TrustState RoutePeerInfo :=
  (Trace.run (step smallEnv) (new .empty)
    [.sync (adminRequest [plainRecord 2]) valid, .sync (adminRequest [opsRecord 1]) valid]).1

/-- The administrator sends an old record of a peer again: it is not stored, but its group counts,
which the stored record does not have. -/
theorem stale_record_gives_group :
    afterStale.routes.peerInfos.lookup 2 = some ((plainRecord 2).received 5) ∧
      "ops" ∈ afterStale.groupsOf 2 ∧ ¬GroupsFollowRecords smallEnv afterStale := by
  have hstored : afterStale.routes.peerInfos.lookup 2 = some ((plainRecord 2).received 5) := by
    decide +kernel
  have hheld : "ops" ∈ afterStale.groupsOf 2 := by decide +kernel
  refine ⟨hstored, hheld, fun hfollow => ?_⟩
  obtain ⟨info, hinfo, hgroup⟩ := (hfollow.groups 2 (by decide) "ops").mp hheld
  cases hinfo
  rcases hgroup with ⟨group, hmem, -⟩ | ⟨-, hmem⟩ | hcredential
  · cases hmem
  · cases hmem
  · have hnone : leafKey ∉ afterStale.trustedCredentialPubkeys := by decide +kernel
    exact hnone hcredential.mem

end TrustState

end LowerTier.Peers.OspfRoute
