import LowerTier.Peers.OspfRoute.RecordUpdates
import LowerTier.Peers.OspfRoute.SyncDispatch

/-!
# What a restricted sender can change

A credential peer or a shared node reaches the route state only through its own record, cut down
to its role, and through the loss of its own row.
-/

namespace LowerTier.Peers.OspfRoute

open SyncedRouteInfo Option List ProofSupport Tunnel ProofSupport.ByteString

theorem contains_of_cidrIsSubset {child parent : IpCidr} (h : cidrIsSubset child parent = true)
    {address : IpAddr} (haddress : child.contains address = true) :
    parent.contains address = true := by
  cases child <;> cases parent <;> cases address <;>
    simp only [cidrIsSubset, IpCidr.contains, Bool.and_eq_true, decide_eq_true_eq,
      Bool.false_eq_true] at h haddress ⊢
  · exact Cidr.contains_of_bounds h.1 h.2 haddress
  · exact Cidr.contains_of_bounds h.1 h.2 haddress

def CidrTextWithin (parse : String → Option IpCidr) (child parent : String) : Prop :=
  ∃ childBlock parentBlock, parse child = some childBlock ∧ parse parent = some parentBlock ∧
    ∀ address, childBlock.contains address = true → parentBlock.contains address = true

theorem cidrTextWithin_of_subset {parse : String → Option IpCidr} {child parent : String}
    (h : cidrIsSubsetStr parse child parent = true) : CidrTextWithin parse child parent := by
  unfold cidrIsSubsetStr at h
  split at h
  · next childBlock parentBlock hchild hparent =>
    exact ⟨childBlock, parentBlock, hchild, hparent, fun _ => contains_of_cidrIsSubset h⟩
  · cases h

/-- A record of a role other than administrator: no proofs for others, no bridge, Ethernet or
multicast capability, and only proxy blocks that are allowed. -/
structure Restricted (role : PeerIdentityType) (Allowed : String → Prop) (info : RoutePeerInfo) :
    Prop where
  role : info.identityType = role.code
  proofs : info.trustedCredentialPubkeys = []
  capabilities : ∃ flag, info.featureFlag = some flag ∧ flag.bridgeInput = false ∧
    flag.ethernetInput = false ∧ flag.multicastMembership = false
  multicastGroups : info.multicastGroups = []
  proxyCidrs : ∀ cidr ∈ info.proxyCidrs, Allowed cidr

variable {info : RoutePeerInfo} {role : PeerIdentityType}

theorem Restricted.received {Allowed : String → Prop}
    (h : Restricted role Allowed info) (now : Nat) :
    Restricted role Allowed (info.received now) := by
  refine { h with multicastGroups := ?_ }
  simp only [RoutePeerInfo.received, RoutePeerInfo.normalizeMulticastGroups, h.multicastGroups]
  rfl

theorem Restricted.mono {Allowed Allowed' : String → Prop} (h : Restricted role Allowed info)
    (hallowed : ∀ cidr, Allowed cidr → Allowed' cidr) : Restricted role Allowed' info :=
  { h with proxyCidrs := fun cidr hcidr => hallowed cidr (h.proxyCidrs cidr hcidr) }

theorem scopeToSharedNode_restricted :
    Restricted .sharedNode (fun _ => False) info.scopeToSharedNode where
  role := rfl
  proofs := rfl
  capabilities := ⟨_, rfl, rfl, rfl, rfl⟩
  multicastGroups := rfl
  proxyCidrs _ hcidr := by cases hcidr

namespace SyncedRouteInfo

variable {ρ : Type} {codec : WireCodec ρ} {call : UpdateCall ρ} {s : SyncedRouteInfo ρ}

/-- A record is the one before or a received one. -/
def KeptOrReceived (s t : SyncedRouteInfo ρ) (call : UpdateCall ρ) (p : PeerId) : Prop :=
  t.peerInfos.lookup p = s.peerInfos.lookup p ∨
    ∃ info ∈ call.peerInfos, info.peerId = p ∧
      t.peerInfos.lookup p = some (info.received call.now)

theorem keptOrReceived_updatePeerInfosLocked (p : PeerId) :
    KeptOrReceived s (updatePeerInfosLocked codec call s).2 call p := by
  refine updatePeerInfosLocked_invariant (I := fun t => KeptOrReceived s t call p) ?_
    (fun _ => id) (.inl rfl)
  intro t info hinfo raw ht _
  by_cases hp : p = info.peerId
  · subst hp
    exact .inr ⟨info, hinfo, rfl, AList.lookup_insert _⟩
  · rwa [KeptOrReceived, lookup_peerInfos_withRecord_ne hp]

/-- What an update without connection rows and without authority can change. -/
structure RecordsOnly (s t : SyncedRouteInfo ρ) (call : UpdateCall ρ) : Prop where
  records : ∀ p, KeptOrReceived s t call p
  rows : t.connMap = s.connMap ∨ t.connMap = s.connMap.erase call.dstPeerId
  foreignNetwork : t.foreignNetwork = s.foreignNetwork

theorem recordsOnly_updateWithAuthority (codec : WireCodec ρ) (s : SyncedRouteInfo ρ)
    (hconn : call.connInfo = none) : RecordsOnly s (updateWithAuthority codec s call).2 call := by
  have hloop : RecordsOnly s (updatePeerInfosLocked codec call (s.dropSenderRow call)).2 call := by
    refine ⟨fun p => ?_, ?_, ?_⟩
    · rw [KeptOrReceived, ← peerInfos_dropSenderRow s call]
      exact keptOrReceived_updatePeerInfosLocked p
    · rw [connMap_updatePeerInfosLocked]
      exact (connMap_dropSenderRow s call).imp_right fun h => h.2
    · rw [foreignNetwork_updatePeerInfosLocked, foreignNetwork_dropSenderRow]
  rcases updateWithAuthority_cases codec s call with
    ⟨error, -, hupdate⟩ | ⟨-, ⟨error, -, hupdate⟩ | ⟨-, changed, hupdate⟩⟩
  · rw [hupdate]
    exact ⟨fun p => .inl rfl, .inl rfl, rfl⟩
  · rw [hupdate]
    exact hloop
  · have hrows : ∀ t : SyncedRouteInfo ρ, applyCallRows call t = t := fun t => by
      rw [applyCallRows, hconn]
    rw [hupdate, hrows]
    exact hloop

end SyncedRouteInfo

/-! ## The update for a restricted sender -/

namespace SyncRequest

variable {ρ : Type} {codec : WireCodec ρ} {parse : String → Option IpCidr}
  {request : SyncRequest ρ} {s : SyncedRouteInfo ρ}

def FromRestricted (request : SyncRequest ρ) : Prop :=
  request.fromIdentityType = .credential ∨ request.fromIdentityType = .sharedNode

/-- The check of the request before it is carried out. -/
abbrev ShapeOk (request : SyncRequest ρ) : Prop :=
  validateRouteSyncRoleShape request.fromPeerId request.fromIdentityType request.peerInfos
    request.connInfo request.foreignNetwork = .ok ()

theorem FromRestricted.ne_admin (h : request.FromRestricted) :
    request.fromIdentityType ≠ .admin := by
  rcases h with hrole | hrole <;> simp [hrole]

/-- The proxy blocks within an allowed block of the sender's credential. -/
def AllowedProxyCidr (parse : String → Option IpCidr) (request : SyncRequest ρ) (cidr : String) :
    Prop :=
  request.fromIdentityType = .credential ∧ ∃ credential ∈ request.credentialInfo,
    ∃ allowed ∈ credential.allowedProxyCidrs, CidrTextWithin parse cidr allowed

structure OwnRecordCall (parse : String → Option IpCidr) (request : SyncRequest ρ)
    (call : UpdateCall ρ) : Prop where
  sender : call.dstPeerId = request.fromPeerId
  rows : call.connInfo = none
  records : ∀ info ∈ call.peerInfos, info.peerId = request.fromPeerId ∧
    Restricted request.fromIdentityType (AllowedProxyCidr parse request) info

variable {peerInfos : List RoutePeerInfo} {rawPeerInfos : List ρ} {fromPeerId : PeerId} {raw : ρ}

theorem ownRecord_eq_some {idx : Nat}
    (hidx : peerInfos.findIdx? (fun info => info.peerId == fromPeerId) = some idx)
    (h : ownRecord peerInfos rawPeerInfos idx = some (info, raw)) : info.peerId = fromPeerId := by
  obtain ⟨hlt, hfound, -⟩ := findIdx?_eq_some_iff_getElem.mp hidx
  rw [ownRecord, getElem?_eq_getElem hlt] at h
  split at h
  · next hinfo _ =>
    cases h
    rw [← some.inj hinfo]
    exact beq_iff_eq.mp hfound
  · cases h

theorem extractCredentialPeerInfo_eq_some_iff {credential : TrustedCredentialPubkey} :
    extractCredentialPeerInfo codec fromPeerId peerInfos rawPeerInfos parse credential =
        some (some (info, raw)) ↔
      credential.pubkey.length = 32 ∧ ∃ idx own ownRaw,
        peerInfos.findIdx? (fun info => info.peerId == fromPeerId) = some idx ∧
        ownRecord peerInfos rawPeerInfos idx = some (own, ownRaw) ∧
        info = own.scopeToCredential parse credential ∧
        raw = codec.patchRawFromInfo ownRaw info credentialPatchedFields := by
  unfold extractCredentialPeerInfo
  cases peerInfos.findIdx? fun info => info.peerId == fromPeerId with
  | none => simp
  | some idx =>
    by_cases hlength : credential.pubkey.length = 32
    · simp only [hlength, ne_eq, not_true, if_false, map_eq_some_iff, Prod.exists, some.injEq,
        Prod.mk.injEq]
      grind
    · simp [hlength]

theorem extractSharedNodePeerInfo_own
    (h : extractSharedNodePeerInfo codec fromPeerId peerInfos rawPeerInfos =
      some (some (info, raw))) :
    info.peerId = fromPeerId ∧ Restricted .sharedNode (fun _ => False) info := by
  unfold extractSharedNodePeerInfo at h
  split at h
  · cases h
  · next idx hidx =>
    obtain ⟨⟨own, ownRaw⟩, hown, heq⟩ := map_eq_some_iff.mp h
    cases heq
    exact ⟨(ownRecord_eq_some hidx hown :), scopeToSharedNode_restricted⟩

theorem recordsCall_own (hrole : request.FromRestricted) {call : UpdateCall ρ}
    (h : request.recordsCall codec parse peerInfos rawPeerInfos = some call) :
    OwnRecordCall parse request call := by
  unfold recordsCall at h
  rcases hrole with hrole | hrole
  · rw [hrole] at h
    obtain ⟨credential, hcredential, hcall⟩ := bind_eq_some_iff.mp h
    obtain ⟨record, hrecord, rfl⟩ := map_eq_some_iff.mp hcall
    refine ⟨rfl, rfl, fun info hinfo => ?_⟩
    obtain ⟨⟨own, raw⟩, hmem, rfl⟩ := mem_map.mp hinfo
    rw [mem_toList.mp hmem] at hrecord
    obtain ⟨-, idx, sent, _, hidx, hsent, rfl, -⟩ :=
      extractCredentialPeerInfo_eq_some_iff.mp hrecord
    have hpeer := ownRecord_eq_some hidx hsent
    rw [hrole]
    refine ⟨hpeer, rfl, rfl, ⟨_, rfl, rfl, rfl, rfl⟩, rfl, fun cidr hcidr => ?_⟩
    change cidr ∈ (if credential.allowedProxyCidrs.isEmpty then []
      else sent.proxyCidrs.filter fun cidr =>
        credential.allowedProxyCidrs.any fun allowed => cidrIsSubsetStr parse cidr allowed) at hcidr
    split_ifs at hcidr
    · cases hcidr
    · obtain ⟨allowed, hmem, hsubset⟩ := any_eq_true.mp (mem_filter.mp hcidr).2
      exact ⟨hrole, credential, hcredential, allowed, hmem, cidrTextWithin_of_subset hsubset⟩
  · rw [hrole] at h
    obtain ⟨record, hrecord, rfl⟩ := map_eq_some_iff.mp h
    refine ⟨rfl, rfl, fun info hinfo => ?_⟩
    obtain ⟨⟨own, raw⟩, hmem, rfl⟩ := mem_map.mp hinfo
    rw [mem_toList.mp hmem] at hrecord
    obtain ⟨hpeer, hrestricted⟩ := extractSharedNodePeerInfo_own hrecord
    rw [hrole]
    exact ⟨hpeer, hrestricted.mono fun cidr hallowed => hallowed.elim⟩

/-- A restricted sender's request that passes the check has neither rows nor foreign networks. -/
theorem shape_of_restricted (hrole : request.FromRestricted) (hshape : request.ShapeOk) :
    request.connInfo = none ∧ request.foreignNetwork = none := by
  unfold ShapeOk validateRouteSyncRoleShape at hshape
  split_ifs at hshape with hforeign hrestricted
  · have hnone : request.foreignNetwork = none := by
      by_contra hsome
      exact hforeign ⟨hrole.ne_admin, isSome_iff_ne_none.mpr hsome⟩
    refine ⟨?_, hnone⟩
    split at hshape
    · cases hshape
    · cases hconn : request.connInfo with
      | none => rfl
      | some connInfo =>
        rcases hrole with hrole | hrole <;> simp [validateRoleConnInfo, hrole, hconn] at hshape
  · exact absurd hrole.symm hrestricted

theorem noRecordsCall_own (hrole : request.FromRestricted) (hconn : request.connInfo = none) :
    ∃ call, request.noRecordsCall = some call ∧ OwnRecordCall parse request call := by
  refine ⟨request.updateCall [] none false, ?_, rfl, rfl, fun info hinfo => by cases hinfo⟩
  rw [noRecordsCall, hconn]
  exact if_neg hrole.ne_admin

theorem carryOut_state (hforeign : request.foreignNetwork = none) (call : UpdateCall ρ) :
    (request.carryOut codec s call).2 = (s.updateWithAuthority codec call).2 := by
  unfold carryOut
  split
  · next error t h => rw [h]
  · next changed t h =>
    rw [h, applyForeignNetwork, hforeign]

/-- What a request of a restricted sender does to the route state: nothing, or the update with
at most its own record. -/
theorem doSync_restricted (hrole : request.FromRestricted)
    (hshape : request.ShapeOk)
    {result : Except SyncRouteInfoError Unit} {t : SyncedRouteInfo ρ}
    (h : request.doSyncRouteInfoValidated codec parse s = some (result, t)) :
    t = s ∨ ∃ call, OwnRecordCall parse request call ∧
      t = (s.updateWithAuthority codec call).2 := by
  obtain ⟨hconn, hforeign⟩ := shape_of_restricted hrole hshape
  unfold doSyncRouteInfoValidated at h
  split at h
  · exact .inl (Prod.mk.inj (some.inj h)).2.symm
  split_ifs at h
  · exact .inl (Prod.mk.inj (some.inj h)).2.symm
  · split at h
    · exact .inl (Prod.mk.inj (some.inj h)).2.symm
    · obtain ⟨call, hcall, heq⟩ := map_eq_some_iff.mp h
      refine .inr ⟨call, recordsCall_own hrole hcall, ?_⟩
      rw [← carryOut_state hforeign call, heq]
    · obtain ⟨call, hcall, hown⟩ := noRecordsCall_own hrole hconn
      rw [hcall] at h
      refine .inr ⟨call, hown, ?_⟩
      rw [← carryOut_state hforeign call, some.inj h]

/-- A restricted sender changes only its own record, loses at most its own row, and what is
stored for it is cut down to its role. -/
theorem restricted_sender_confined (codec : WireCodec ρ) (parse : String → Option IpCidr)
    (s : SyncedRouteInfo ρ) (request : SyncRequest ρ) (hrole : request.FromRestricted)
    (hshape : request.ShapeOk) (result : Except SyncRouteInfoError Unit) (t : SyncedRouteInfo ρ)
    (h : request.doSyncRouteInfoValidated codec parse s = some (result, t)) :
    (∀ p ≠ request.fromPeerId, t.peerInfos.lookup p = s.peerInfos.lookup p) ∧
    (t.connMap = s.connMap ∨ t.connMap = s.connMap.erase request.fromPeerId) ∧
    t.foreignNetwork = s.foreignNetwork ∧
    (t.peerInfos.lookup request.fromPeerId = s.peerInfos.lookup request.fromPeerId ∨
      ∃ info, t.peerInfos.lookup request.fromPeerId = some info ∧
        Restricted request.fromIdentityType (AllowedProxyCidr parse request) info) := by
  rcases doSync_restricted hrole hshape h with rfl | ⟨call, hown, rfl⟩
  · exact ⟨fun _ _ => rfl, .inl rfl, rfl, .inl rfl⟩
  have honly := recordsOnly_updateWithAuthority codec s hown.rows
  refine ⟨fun p hp => ?_, hown.sender ▸ honly.rows, honly.foreignNetwork, ?_⟩
  · rcases honly.records p with hsame | ⟨info, hinfo, hpeer, -⟩
    · exact hsame
    · exact absurd (hpeer.symm.trans (hown.records info hinfo).1) hp
  · refine (honly.records request.fromPeerId).imp_right ?_
    rintro ⟨info, hinfo, -, hstored⟩
    exact ⟨_, hstored, (hown.records info hinfo).2.received call.now⟩

def parseTen : String → Option IpCidr
  | "10.0.0.0/8" => some .tenSlashEight
  | "10.1.0.0/16" => some (.v4 ⟨0x0a010000#32, 16, by decide, by decide⟩)
  | _ => none

/-- The record that the sender claims: an administrator with a bridge and two proxy blocks. -/
def claimedRecord (version : Nat) : RoutePeerInfo :=
  { recordOf 7 version with
    featureFlag := some { bridgeInput := true }
    proxyCidrs := ["10.1.0.0/16", "11.0.0.0/8"] }

def credentialForTen : TrustedCredentialPubkey :=
  { (default : TrustedCredentialPubkey) with
    pubkey := replicate 32 1
    expiryUnix := 3700
    allowedProxyCidrs := ["10.0.0.0/8"]
    reusable := some true
    credentialVersion := 1
    networkName := "net" }

def credentialRequest : SyncRequest RoutePeerInfo where
  myPeerId := 1
  myPeerRouteId := 1
  fromPeerId := 7
  fromIdentityType := .credential
  peerInfos := some [claimedRecord 3]
  rawPeerInfos := some [claimedRecord 3]
  connInfo := none
  foreignNetwork := none
  session := .ok ()
  credentialInfo := some credentialForTen
  authenticatedPeers _ := false
  now := 5
  grant _ := true

theorem restricted_sender_confined_credential :
    ∃ result t, credentialRequest.doSyncRouteInfoValidated SyncedRouteInfo.recordCodec parseTen
        .empty = some (result, t) ∧
      (t.peerInfos.lookup 7 = (∅ : KeyedMap PeerId RoutePeerInfo).lookup 7 ∨
        ∃ info, t.peerInfos.lookup 7 = some info ∧
          Restricted .credential (AllowedProxyCidr parseTen credentialRequest) info) := by
  obtain ⟨⟨result, t⟩, h⟩ := isSome_iff_exists.mp (by decide +kernel :
    (credentialRequest.doSyncRouteInfoValidated recordCodec parseTen .empty).isSome = true)
  exact ⟨result, t, h, (restricted_sender_confined recordCodec parseTen .empty
    credentialRequest (.inl rfl) (by decide +kernel) result t h).2.2.2⟩

def adminState : SyncedRouteInfo RoutePeerInfo :=
  { empty with
    peerInfos := (∅ : KeyedMap PeerId RoutePeerInfo).insert 7 (claimedRecord 5) }

/-- A record that is not newer is not stored: what was there stays. -/
theorem newer_admin_record_stays :
    credentialRequest.FromRestricted ∧
    credentialRequest.ShapeOk ∧
    ((credentialRequest.doSyncRouteInfoValidated SyncedRouteInfo.recordCodec parseTen
      adminState).any fun outcome =>
        outcome.2.peerInfos.lookup 7 == some (claimedRecord 5)) = true ∧
    (claimedRecord 5).identityType = PeerIdentityType.admin.code ∧
    (claimedRecord 5).featureFlag = some { bridgeInput := true } := by
  refine ⟨.inl rfl, ?_⟩
  decide +kernel

end SyncRequest

/-!
## What a credential peer's record says to the next node

The raw message of a record is sent on as it is stored.  `patch_raw_from_info` writes the listed
fields of the typed record into it and keeps every other field.
-/

/-- The fields that the sanitisation can change. -/
inductive CapabilityField where
  | proxyCidrs | featureFlag | identityType | noiseStaticPubkey | trustedCredentialPubkeys
  | multicastGroups

namespace CapabilityField

def name : CapabilityField → String
  | .proxyCidrs => "proxy_cidrs"
  | .featureFlag => "feature_flag"
  | .identityType => "identity_type"
  | .noiseStaticPubkey => "noise_static_pubkey"
  | .trustedCredentialPubkeys => "trusted_credential_pubkeys"
  | .multicastGroups => "multicast_groups"

def Same (left right : RoutePeerInfo) : CapabilityField → Prop
  | .proxyCidrs => left.proxyCidrs = right.proxyCidrs
  | .featureFlag => left.featureFlag = right.featureFlag
  | .identityType => left.identityType = right.identityType
  | .noiseStaticPubkey => left.noiseStaticPubkey = right.noiseStaticPubkey
  | .trustedCredentialPubkeys => left.trustedCredentialPubkeys = right.trustedCredentialPubkeys
  | .multicastGroups => left.multicastGroups = right.multicastGroups

end CapabilityField

/-- What is assumed of `prost` and `prost_reflect`: a field that is set is read back and leaves the
others as they are, and a message decodes to the fields it holds. -/
structure WireCodec.Reflects {ρ : Type} (codec : WireCodec ρ) (decode : ρ → RoutePeerInfo) :
    Prop where
  decode_transcode : ∀ info, decode (codec.transcodeFrom info) = info
  known : ∀ info (field : CapabilityField),
    (codec.getFieldByName (codec.transcodeFrom info) field.name).isSome = true
  get_set : ∀ raw (field : CapabilityField) value,
    codec.getFieldByName (codec.setFieldByName raw field.name value) field.name = some value
  get_set_of_ne : ∀ raw name other value, other ≠ name →
    codec.getFieldByName (codec.setFieldByName raw name value) other =
      codec.getFieldByName raw other
  decode_field : ∀ left right (field : CapabilityField),
    codec.getFieldByName left field.name = codec.getFieldByName right field.name →
      field.Same (decode left) (decode right)

namespace WireCodec.Reflects

variable {ρ : Type} {codec : WireCodec ρ} {decode : ρ → RoutePeerInfo}
  (h : codec.Reflects decode) {field : CapabilityField} {fields : List String}
  (info : RoutePeerInfo) (raw : ρ)
include h

theorem get_patch_of_notMem (hfield : field.name ∉ fields) :
    codec.getFieldByName (codec.patchRawFromInfo raw info fields) field.name =
      codec.getFieldByName raw field.name := by
  induction fields generalizing raw with
  | nil => rfl
  | cons name fields ih =>
    obtain ⟨hne, hfields⟩ := not_or.mp (mem_cons.not.mp hfield)
    refine (ih _ hfields).trans ?_
    dsimp only
    cases codec.getFieldByName (codec.transcodeFrom info) name with
    | none => rfl
    | some value => exact h.get_set_of_ne raw name field.name value hne

theorem get_patch_of_mem (hfield : field.name ∈ fields) :
    codec.getFieldByName (codec.patchRawFromInfo raw info fields) field.name =
      codec.getFieldByName (codec.transcodeFrom info) field.name := by
  induction fields generalizing raw with
  | nil => cases hfield
  | cons name fields ih =>
    by_cases hlater : field.name ∈ fields
    · exact ih _ hlater
    · obtain rfl := (mem_cons.mp hfield).resolve_right hlater
      obtain ⟨value, hvalue⟩ := isSome_iff_exists.mp (h.known info field)
      refine (h.get_patch_of_notMem info _ hlater).trans ?_
      dsimp only
      rw [hvalue]
      exact h.get_set raw field value

end WireCodec.Reflects

namespace SyncRequest

/-- With a key of 32 bytes, the sender's own raw record lists no multicast groups. -/
def NoGroupsSent {ρ : Type} (decode : ρ → RoutePeerInfo) (request : SyncRequest ρ)
    (peerInfos : List RoutePeerInfo) (rawPeerInfos : List ρ) : Prop :=
  ∀ credential ∈ request.credentialInfo, credential.pubkey.length = 32 →
    ∀ idx, peerInfos.findIdx? (fun info => info.peerId == request.fromPeerId) = some idx →
      ∀ own raw, ownRecord peerInfos rawPeerInfos idx = some (own, raw) →
        (decode raw).multicastGroups = []

/-- Messages that map the name of a field to a record that has its value. -/
def rawCodec : WireCodec (String → RoutePeerInfo) where
  peerIdField raw := some (raw "peer_id").peerId
  rawEncodedLen _ := 16
  encodedLen _ := 16
  transcodeFrom info _ := info
  FieldValue := RoutePeerInfo
  getFieldByName raw name := some (raw name)
  setFieldByName := Function.update

def decodeRaw (raw : String → RoutePeerInfo) : RoutePeerInfo :=
  { raw "peer_id" with
    identityType := (raw "identity_type").identityType
    featureFlag := (raw "feature_flag").featureFlag
    proxyCidrs := (raw "proxy_cidrs").proxyCidrs
    noiseStaticPubkey := (raw "noise_static_pubkey").noiseStaticPubkey
    trustedCredentialPubkeys := (raw "trusted_credential_pubkeys").trustedCredentialPubkeys
    multicastGroups := (raw "multicast_groups").multicastGroups }

theorem reflects_rawCodec : rawCodec.Reflects decodeRaw where
  decode_transcode _ := rfl
  known _ _ := rfl
  get_set raw field _ := congrArg some (Function.update_self (β := fun _ => _) field.name _ raw)
  get_set_of_ne raw _ _ _ hne := congrArg some (Function.update_of_ne (β := fun _ => _) hne _ raw)
  decode_field left right field hsame := by
    have hvalue : left field.name = right field.name := some.inj hsame
    cases field <;>
      · simp only [CapabilityField.Same, decodeRaw]
        exact congrArg _ hvalue

def memberRecord (multicastGroups : List Bytes) : RoutePeerInfo :=
  { claimedRecord 3 with multicastGroups }

def memberRequest (multicastGroups : List Bytes) : SyncRequest (String → RoutePeerInfo) :=
  { credentialRequest with
    peerInfos := some [memberRecord multicastGroups]
    rawPeerInfos := some [fun _ => memberRecord multicastGroups] }

end SyncRequest

end LowerTier.Peers.OspfRoute
