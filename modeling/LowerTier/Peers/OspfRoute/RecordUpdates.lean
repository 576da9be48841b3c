import LowerTier.Peers.OspfRoute.SyncedRouteInfo

/-!
# What the loop over received records does

A record is refused, stored or skipped, and storing changes the maps at the id of the record
only.  The rest of an update leaves the records' maps to this loop, so that later results about
updates use the rules of this module and never the loop itself.
-/

namespace LowerTier.Peers.OspfRoute

open List ProofSupport Tunnel AList

def RoutePeerInfo.received (info : RoutePeerInfo) (now : Nat) : RoutePeerInfo :=
  { info.normalizeMulticastGroups with lastUpdate := some now }

def RoutePeerInfo.blank (now : Nat) : RoutePeerInfo :=
  { RoutePeerInfo.new with lastUpdate := some now }

namespace SyncedRouteInfo

variable {ρ : Type} {codec : WireCodec ρ} {call : UpdateCall ρ} {s : SyncedRouteInfo ρ}

def recordRefusal (codec : WireCodec ρ) (call : UpdateCall ρ) (s : SyncedRouteInfo ρ) (idx : Nat)
    (info : RoutePeerInfo) (raw : ρ) : Option SyncRouteInfoError :=
  match checkRecord codec call s info.normalizeMulticastGroups raw with
  | .error error => some error
  | .ok () =>
    if s.isNewer info ∧ s.oldRetainedBytes info.peerId < retainedBytes codec info raw ∧
        call.grant idx = false then
      some .stopped
    else none

def withRecord (codec : WireCodec ρ) (call : UpdateCall ρ) (s : SyncedRouteInfo ρ)
    (info : RoutePeerInfo) (raw : ρ) : SyncedRouteInfo ρ :=
  s.storeRecord (info.received call.now) raw (retainedBytes codec info raw)

variable (idx : Nat)

theorem updatePeerInfo_eq (info : RoutePeerInfo) (raw : ρ) :
    updatePeerInfo codec call s idx info raw = match recordRefusal codec call s idx info raw with
      | some error => (.error error, s)
      | none =>
        if s.isNewer info then (.ok true, withRecord codec call s info raw)
        else (.ok false, s) := by
  unfold updatePeerInfo recordRefusal
  dsimp only
  cases checkRecord codec call s info.normalizeMulticastGroups raw with
  | error error => rfl
  | ok passed =>
    have hnewer : s.isNewer { info.normalizeMulticastGroups with lastUpdate := some call.now } =
        s.isNewer info := rfl
    have hadded : (retainedBytes codec info raw -
        s.oldRetainedBytes info.normalizeMulticastGroups.peerId ≠ 0 ∧ ¬call.grant idx = true) ↔
        s.oldRetainedBytes info.peerId < retainedBytes codec info raw ∧
          call.grant idx = false := by
      rw [Bool.not_eq_true, Nat.sub_ne_zero_iff_lt]
      rfl
    rw [hnewer]
    by_cases hstored : s.isNewer info = true
    · rw [if_pos hstored]
      by_cases hrefused : s.oldRetainedBytes info.peerId < retainedBytes codec info raw ∧
          call.grant idx = false
      · rw [if_pos (hadded.mpr hrefused), if_pos ⟨hstored, hrefused⟩]
      · rw [if_neg (mt hadded.mp hrefused), if_neg fun h => hrefused h.2]
        rw [if_pos hstored]
        rfl
    · rw [if_neg hstored, if_neg fun h => hstored h.1]
      rw [if_neg hstored]

variable {I : SyncedRouteInfo ρ → Prop} {records : List (RoutePeerInfo × ρ)}

/-- Induction over the loop: what storing a newer record of the list and counting a version
keep. -/
theorem updatePeerInfosLoop_invariant (stored : Bool)
    (hstore : ∀ s info raw, (info, raw) ∈ records → I s → s.isNewer info = true →
      I (withRecord codec call s info raw)) (hversion : ∀ s, I s → I s.incVersion) (h : I s) :
    I (updatePeerInfosLoop codec call s stored idx records).2 := by
  induction records generalizing s idx stored with
  | nil =>
    cases stored with
    | false => exact h
    | true => exact hversion s h
  | cons record records ih =>
    obtain ⟨info, raw⟩ := record
    have hrest : ∀ s info raw, (info, raw) ∈ records → I s → s.isNewer info = true →
        I (withRecord codec call s info raw) :=
      fun s info raw hmem => hstore s info raw (mem_cons_of_mem _ hmem)
    rw [updatePeerInfosLoop, updatePeerInfo_eq]
    cases recordRefusal codec call s idx info raw with
    | some error => exact h
    | none =>
      by_cases hnewer : s.isNewer info = true
      · rw [if_pos hnewer]
        exact ih (idx + 1) _ hrest (hstore s info raw mem_cons_self h hnewer)
      · rw [if_neg hnewer]
        exact ih (idx + 1) _ hrest h

theorem updatePeerInfosLocked_invariant
    (hstore : ∀ s, ∀ info ∈ call.peerInfos, ∀ raw, I s → s.isNewer info = true →
      I (withRecord codec call s info raw)) (hversion : ∀ s, I s → I s.incVersion) (h : I s) :
    I (updatePeerInfosLocked codec call s).2 := by
  unfold updatePeerInfosLocked
  split_ifs
  · exact h
  · exact updatePeerInfosLoop_invariant 0 false
      (fun s info raw hmem => hstore s info (of_mem_zip hmem).1 raw) hversion h

/-! ## What the loop leaves alone -/

theorem connMap_updatePeerInfosLocked :
    (updatePeerInfosLocked codec call s).2.connMap = s.connMap :=
  updatePeerInfosLocked_invariant (I := fun t => t.connMap = s.connMap)
    (fun _ _ _ _ h _ => h) (fun _ => id) rfl

theorem foreignNetwork_updatePeerInfosLocked :
    (updatePeerInfosLocked codec call s).2.foreignNetwork = s.foreignNetwork :=
  updatePeerInfosLocked_invariant (I := fun t => t.foreignNetwork = s.foreignNetwork)
    (fun _ _ _ _ h _ => h) (fun _ => id) rfl

variable {p : PeerId}

variable {info : RoutePeerInfo}

theorem mem_peerInfos_withRecord {raw : ρ} :
    p ∈ (withRecord codec call s info raw).peerInfos ↔ p = info.peerId ∨ p ∈ s.peerInfos :=
  AList.mem_insert s.peerInfos

theorem lookup_peerInfos_withRecord_ne {raw : ρ} (hp : p ≠ info.peerId) :
    (withRecord codec call s info raw).peerInfos.lookup p = s.peerInfos.lookup p :=
  AList.lookup_insert_ne hp

theorem mem_peerInfos_updatePeerInfosLocked
    (h : p ∈ (updatePeerInfosLocked codec call s).2.peerInfos) :
    p ∈ s.peerInfos ∨ p ∈ call.peerInfos.map (·.peerId) := by
  refine updatePeerInfosLocked_invariant
    (I := fun t : SyncedRouteInfo ρ => p ∈ t.peerInfos →
      p ∈ s.peerInfos ∨ p ∈ call.peerInfos.map fun info : RoutePeerInfo => info.peerId)
    ?_ (fun _ => id) .inl h
  intro t info hinfo raw ht _ hp
  rcases mem_peerInfos_withRecord.mp hp with rfl | hp
  · exact .inr (mem_map_of_mem hinfo)
  · exact ht hp

theorem mem_peerInfos_updatePeerInfosLocked_of_mem (h : p ∈ s.peerInfos) :
    p ∈ (updatePeerInfosLocked codec call s).2.peerInfos :=
  updatePeerInfosLocked_invariant (I := fun t => p ∈ t.peerInfos)
    (fun _ _ _ _ hp _ => mem_peerInfos_withRecord.mpr (.inr hp)) (fun _ => id) h

variable {stored : Bool}

theorem mem_peerInfos_updatePeerInfosLoop_ok {idx : Nat}
    (hok : (updatePeerInfosLoop codec call s stored idx records).1 = .ok ())
    (hp : p ∈ records.map (·.1.peerId)) :
    p ∈ (updatePeerInfosLoop codec call s stored idx records).2.peerInfos := by
  have hkeeps : ∀ (t : SyncedRouteInfo ρ) (stored : Bool) (idx : Nat)
      (rest : List (RoutePeerInfo × ρ)), p ∈ t.peerInfos →
        p ∈ (updatePeerInfosLoop codec call t stored idx rest).2.peerInfos := by
    intro t stored idx rest ht
    exact updatePeerInfosLoop_invariant (I := fun t => p ∈ t.peerInfos) idx stored
      (fun _ _ _ _ hp _ => mem_peerInfos_withRecord.mpr (.inr hp)) (fun _ => id) ht
  induction records generalizing s idx stored with
  | nil => cases hp
  | cons record records ih =>
    obtain ⟨info, raw⟩ := record
    rw [updatePeerInfosLoop, updatePeerInfo_eq] at hok ⊢
    cases hrefusal : recordRefusal codec call s idx info raw with
    | some error =>
      rw [hrefusal] at hok
      cases hok
    | none =>
      rw [hrefusal] at hok
      rw [map_cons, mem_cons] at hp
      by_cases hnewer : s.isNewer info = true
      · rw [if_pos hnewer] at hok ⊢
        rcases hp with rfl | hp
        · exact hkeeps _ _ _ _ (mem_peerInfos_withRecord.mpr (.inl rfl))
        · exact ih hok hp
      rw [if_neg hnewer] at hok ⊢
      rcases hp with rfl | hp
      · refine hkeeps _ _ _ _ ?_
        by_contra hmem
        rw [isNewer, AList.lookup_eq_none.mpr hmem] at hnewer
        exact hnewer rfl
      · exact ih hok hp

theorem mem_peerInfos_updatePeerInfosLocked_ok
    (hok : (updatePeerInfosLocked codec call s).1 = .ok ())
    (hp : p ∈ call.peerInfos.map (·.peerId)) :
    p ∈ (updatePeerInfosLocked codec call s).2.peerInfos := by
  unfold updatePeerInfosLocked at hok ⊢
  split_ifs at hok ⊢ with hlength
  apply mem_peerInfos_updatePeerInfosLoop_ok hok
  have hfst : (call.peerInfos.zip call.rawPeerInfos).map Prod.fst = call.peerInfos :=
    map_fst_zip (by omega)
  rw [← hfst, map_map] at hp
  exact hp

def applyCallRows (call : UpdateCall ρ) (s : SyncedRouteInfo ρ) : SyncedRouteInfo ρ :=
  match call.connInfo with
  | some connInfo => s.updateConnInfoLocked call.now connInfo
  | none => s

/-- An update is refused by the check of the merged state, stopped by a record, or carried
out. -/
theorem updateWithAuthority_cases (codec : WireCodec ρ) (s : SyncedRouteInfo ρ)
    (call : UpdateCall ρ) :
    (∃ error, s.validateMergedRouteStateLocked call.peerInfos call.connInfo = .error error ∧
      updateWithAuthority codec s call = (.error error, s)) ∨
    s.validateMergedRouteStateLocked call.peerInfos call.connInfo = .ok () ∧
      ((∃ error, (updatePeerInfosLocked codec call (s.dropSenderRow call)).1 = .error error ∧
        updateWithAuthority codec s call =
          (.error error, (updatePeerInfosLocked codec call (s.dropSenderRow call)).2)) ∨
      (updatePeerInfosLocked codec call (s.dropSenderRow call)).1 = .ok () ∧
        ∃ changed, updateWithAuthority codec s call = (.ok changed,
          applyCallRows call (updatePeerInfosLocked codec call (s.dropSenderRow call)).2)) := by
  unfold updateWithAuthority
  cases hcheck : s.validateMergedRouteStateLocked call.peerInfos call.connInfo with
  | error error => exact .inl ⟨error, rfl, rfl⟩
  | ok passed =>
    refine .inr ⟨rfl, ?_⟩
    cases hloop : updatePeerInfosLocked codec call (s.dropSenderRow call) with
    | mk result updated =>
      cases result with
      | error error => exact .inl ⟨error, rfl, rfl⟩
      | ok done => exact .inr ⟨rfl, _, rfl⟩

@[simp] theorem peerInfos_dropSenderRow (s : SyncedRouteInfo ρ) (call : UpdateCall ρ) :
    (s.dropSenderRow call).peerInfos = s.peerInfos := by
  unfold dropSenderRow
  split_ifs <;> rfl

@[simp] theorem foreignNetwork_dropSenderRow :
    (s.dropSenderRow call).foreignNetwork = s.foreignNetwork := by
  unfold dropSenderRow
  split_ifs <;> rfl

theorem connMap_dropSenderRow (s : SyncedRouteInfo ρ) (call : UpdateCall ρ) :
    (s.dropSenderRow call).connMap = s.connMap ∨
      call.sourceHasTopologyAuthority = false ∧
        (s.dropSenderRow call).connMap = s.connMap.erase call.dstPeerId := by
  unfold dropSenderRow
  split_ifs with hdrop
  · exact .inr ⟨Bool.not_eq_true _ ▸ hdrop.1, rfl⟩
  · exact .inl rfl

def recordCodec : WireCodec RoutePeerInfo where
  peerIdField raw := some raw.peerId
  rawEncodedLen _ := 16
  encodedLen _ := 16
  transcodeFrom := id
  FieldValue := RoutePeerInfo
  getFieldByName raw _ := some raw
  setFieldByName _ _ value := value

def recordOf (peerId : PeerId) (version : Nat) : RoutePeerInfo :=
  { RoutePeerInfo.new with peerId, version }

/-!
## Where stored records come from

After an update the record of a peer is the one before it, a blank one that was filled in for a
neighbour of some row, or a record of the call that was newer than what was stored.
-/

variable {t u : SyncedRouteInfo ρ} {now : Nat}

/-- Records stay, and missing ones may have been filled in. -/
def FilledIn (now : Nat) (s t : SyncedRouteInfo ρ) : Prop :=
  ∀ p, t.peerInfos.lookup p = s.peerInfos.lookup p ∨
    s.peerInfos.lookup p = none ∧ t.peerInfos.lookup p = some (.blank now)

variable {info : RoutePeerInfo}

namespace FilledIn

theorem of_eq (h : t.peerInfos = s.peerInfos) : FilledIn now s t := fun p => .inl (by rw [h])

theorem lookup_of_some (h : FilledIn now s t)
    (hinfo : s.peerInfos.lookup p = some info) : t.peerInfos.lookup p = some info := by
  rcases h p with hkept | ⟨hnone, -⟩
  · rw [hkept, hinfo]
  · rw [hinfo] at hnone
    cases hnone

theorem trans (h : FilledIn now s t) (h' : FilledIn now t u) : FilledIn now s u := by
  intro p
  rcases h' p with hkept | ⟨hnone, hblank⟩
  · rw [hkept]
    exact h p
  · rcases h p with hkept | ⟨-, hsome⟩
    · exact .inr ⟨hkept ▸ hnone, hblank⟩
    · rw [hnone] at hsome
      cases hsome

theorem foldl_flag {α : Type} {f : Bool × SyncedRouteInfo ρ → α → Bool × SyncedRouteInfo ρ}
    (hstep : ∀ flagged x, FilledIn now flagged.2 (f flagged x).2) (xs : List α)
    (flagged : Bool × SyncedRouteInfo ρ) : FilledIn now flagged.2 (xs.foldl f flagged).2 := by
  induction xs generalizing flagged with
  | nil => exact of_eq rfl
  | cons x xs ih => exact (hstep flagged x).trans (ih (f flagged x))

theorem fillOne (filled : Bool × SyncedRouteInfo ρ) (q : PeerId) :
    FilledIn now filled.2 (fillOne now filled q).2 := by
  have hrecord : FilledIn now filled.2 (fillRecord now filled q).2 := by
    unfold fillRecord
    split_ifs with hmem
    · exact of_eq rfl
    · intro p
      by_cases hp : p = q
      · subst hp
        exact .inr ⟨lookup_eq_none.mpr hmem, lookup_insert _⟩
      · exact .inl (lookup_insert_ne hp)
  refine hrecord.trans (of_eq ?_)
  unfold SyncedRouteInfo.fillOne fillRow
  split_ifs <;> rfl

theorem fillEmptyPeerInfoLocked (s : SyncedRouteInfo ρ) (peerIds : OrderedSet PeerId) :
    FilledIn now s (s.fillEmptyPeerInfoLocked now peerIds).2 :=
  foldl_flag fillOne peerIds.toList (false, s)

theorem incVersionIf (needIncVersion : Bool) (s : SyncedRouteInfo ρ) :
    FilledIn now s (s.incVersionIf needIncVersion) := by
  cases needIncVersion <;> exact of_eq rfl

theorem fillEmptyPeerInfo (s : SyncedRouteInfo ρ) (peerIds : OrderedSet PeerId) :
    FilledIn now s (s.fillEmptyPeerInfo now peerIds) :=
  (fillEmptyPeerInfoLocked s peerIds).trans (incVersionIf _ _)

theorem updateConnRows (s : SyncedRouteInfo ρ) (rows : List (PeerIdVersion × OrderedSet PeerId)) :
    FilledIn now s (s.updateConnRows now rows) := by
  refine (foldl_flag (f := updateConnRow now) ?_ rows (false, s)).trans (incVersionIf _ _)
  intro updated row
  refine (fillEmptyPeerInfo updated.2 row.2).trans (of_eq ?_)
  unfold updateConnRow updateConnInfoOnePeer
  split_ifs <;> rfl

theorem updateConnInfoLocked (s : SyncedRouteInfo ρ) (connInfo : ConnInfo) :
    FilledIn now s (s.updateConnInfoLocked now connInfo) := by
  cases connInfo with
  | connBitmap bitmap => exact (fillEmptyPeerInfo s _).trans (updateConnRows _ bitmap.rows)
  | connPeerList list => exact updateConnRows s list.rows

theorem applyCallRows (call : UpdateCall ρ) (s : SyncedRouteInfo ρ) :
    FilledIn call.now s (applyCallRows call s) := by
  unfold SyncedRouteInfo.applyCallRows
  split
  · exact updateConnInfoLocked s _
  · exact of_eq rfl

end FilledIn

/-! ## Whole updates -/

/-- How the record of a peer after an update came about. -/
inductive RecordOrigin (s : SyncedRouteInfo ρ) (call : UpdateCall ρ) (p : PeerId) :
    Option RoutePeerInfo → Prop
  | kept : RecordOrigin s call p (s.peerInfos.lookup p)
  | blank (hnone : s.peerInfos.lookup p = none) : RecordOrigin s call p (some (.blank call.now))
  | stored (info : RoutePeerInfo) (hinfo : info ∈ call.peerInfos) (hpeer : info.peerId = p)
      (hnewer : s.isNewer info = true) : RecordOrigin s call p (some (info.received call.now))

theorem isNewer_of_withRecord {info stored : RoutePeerInfo} {raw : ρ}
    (hstored : s.isNewer stored = true)
    (h : (withRecord codec call s stored raw).isNewer info = true) : s.isNewer info = true := by
  unfold isNewer at h hstored ⊢
  by_cases hp : info.peerId = stored.peerId
  · have hlookup : (withRecord codec call s stored raw).peerInfos.lookup info.peerId =
        some (stored.received call.now) := hp ▸ lookup_insert s.peerInfos
    rw [hlookup] at h
    rw [hp]
    rw [Option.all_eq_true] at hstored ⊢
    intro old hold
    have hlt : stored.version < info.version := of_decide_eq_true h
    have hlt' : old.version < stored.version := of_decide_eq_true (hstored old hold)
    exact decide_eq_true (hlt'.trans hlt)
  · rwa [lookup_peerInfos_withRecord_ne hp] at h

theorem recordOrigin_updatePeerInfosLocked (codec : WireCodec ρ) (s : SyncedRouteInfo ρ)
    (call : UpdateCall ρ) (p : PeerId) :
    RecordOrigin s call p ((updatePeerInfosLocked codec call s).2.peerInfos.lookup p) := by
  refine (updatePeerInfosLocked_invariant
    (I := fun t : SyncedRouteInfo ρ => (∀ info, t.isNewer info = true → s.isNewer info = true) ∧
      RecordOrigin s call p (t.peerInfos.lookup p)) ?_ (fun _ => id) ⟨fun _ => id, .kept⟩).2
  rintro t info hinfo raw ⟨hnewer, horigin⟩ hstored
  refine ⟨fun other h => hnewer other (isNewer_of_withRecord hstored h), ?_⟩
  by_cases hp : p = info.peerId
  · subst hp
    have hlookup : (withRecord codec call t info raw).peerInfos.lookup info.peerId =
        some (info.received call.now) := lookup_insert _
    rw [hlookup]
    exact .stored info hinfo rfl (hnewer info hstored)
  · rwa [lookup_peerInfos_withRecord_ne hp]

theorem RecordOrigin.filledIn (h : RecordOrigin s call p (t.peerInfos.lookup p))
    (hfilled : FilledIn call.now t u) : RecordOrigin s call p (u.peerInfos.lookup p) := by
  rcases hfilled p with hkept | ⟨hnone, hblank⟩
  · rwa [hkept]
  rw [hblank]
  rw [hnone] at h
  generalize hlookup : (none : Option RoutePeerInfo) = lookup at h
  cases h with
  | kept => exact .blank hlookup.symm
  | blank _ => cases hlookup
  | stored _ _ _ _ => cases hlookup

theorem recordOrigin_updateWithAuthority (codec : WireCodec ρ) (s : SyncedRouteInfo ρ)
    (call : UpdateCall ρ) (p : PeerId) :
    RecordOrigin s call p ((updateWithAuthority codec s call).2.peerInfos.lookup p) := by
  have hloop : RecordOrigin s call p
      ((updatePeerInfosLocked codec call (s.dropSenderRow call)).2.peerInfos.lookup p) := by
    have h := recordOrigin_updatePeerInfosLocked codec (s.dropSenderRow call) call p
    generalize (updatePeerInfosLocked codec call (s.dropSenderRow call)).2.peerInfos.lookup p =
      lookup at h ⊢
    have hrecords := peerInfos_dropSenderRow s call
    cases h with
    | kept =>
      rw [hrecords]
      exact .kept
    | blank hnone => exact .blank (hrecords ▸ hnone)
    | stored info hinfo hpeer hnewer =>
      refine .stored info hinfo hpeer ?_
      rwa [isNewer, hrecords] at hnewer
  rcases updateWithAuthority_cases codec s call with
    ⟨error, -, hupdate⟩ | ⟨-, ⟨error, -, hupdate⟩ | ⟨-, changed, hupdate⟩⟩
  · rw [hupdate]
    exact .kept
  · rw [hupdate]
    exact hloop
  · rw [hupdate]
    exact hloop.filledIn (.applyCallRows call _)

theorem lookup_updatePeerInfosLoop_of_notMem {idx : Nat} (hp : p ∉ records.map (·.1.peerId)) :
    (updatePeerInfosLoop codec call s stored idx records).2.peerInfos.lookup p =
      s.peerInfos.lookup p := by
  refine updatePeerInfosLoop_invariant
    (I := fun t : SyncedRouteInfo ρ => t.peerInfos.lookup p = s.peerInfos.lookup p) idx stored ?_
    (fun _ => id) rfl
  intro t info raw hmem h _
  have hne : p ≠ info.peerId := by
    rintro rfl
    exact hp (mem_map.mpr ⟨(info, raw), hmem, rfl⟩)
  exact (lookup_peerInfos_withRecord_ne hne).trans h

/-- Where no record is refused and no peer has two, a newer record is stored. -/
theorem lookup_updatePeerInfosLoop_of_newer {idx : Nat}
    (hok : (updatePeerInfosLoop codec call s stored idx records).1 = .ok ())
    (hnodup : (records.map (·.1.peerId)).Nodup) (hmem : info ∈ records.map Prod.fst)
    (hnewer : s.isNewer info = true) :
    (updatePeerInfosLoop codec call s stored idx records).2.peerInfos.lookup info.peerId =
      some (info.received call.now) := by
  induction records generalizing s idx stored with
  | nil => cases hmem
  | cons record records ih =>
    obtain ⟨first, raw⟩ := record
    rw [map_cons, nodup_cons] at hnodup
    rw [updatePeerInfosLoop, updatePeerInfo_eq] at hok ⊢
    cases hrefusal : recordRefusal codec call s idx first raw with
    | some error =>
      rw [hrefusal] at hok
      cases hok
    | none =>
      rw [hrefusal] at hok
      rcases mem_cons.mp hmem with rfl | hmem
      · rw [if_pos hnewer, lookup_updatePeerInfosLoop_of_notMem hnodup.1]
        exact lookup_insert _
      have hne : info.peerId ≠ first.peerId := by
        intro heq
        obtain ⟨record, hrecord, rfl⟩ := mem_map.mp hmem
        exact hnodup.1 (mem_map.mpr ⟨record, hrecord, heq⟩)
      split_ifs at hok ⊢ with hfirst
      · refine ih hok hnodup.2 hmem ?_
        rwa [isNewer, lookup_peerInfos_withRecord_ne hne]
      · exact ih hok hnodup.2 hmem hnewer

theorem lookup_updateWithAuthority_of_newer {changed : Bool}
    (hok : (updateWithAuthority codec s call).1 = .ok changed)
    (hnodup : (call.peerInfos.map (·.peerId)).Nodup) (hmem : info ∈ call.peerInfos)
    (hnewer : s.isNewer info = true) :
    (updateWithAuthority codec s call).2.peerInfos.lookup info.peerId =
      some (info.received call.now) := by
  rcases updateWithAuthority_cases codec s call with
    ⟨error, -, hupdate⟩ | ⟨-, ⟨error, -, hupdate⟩ | ⟨hloop, _, hupdate⟩⟩
  · rw [hupdate] at hok
    cases hok
  · rw [hupdate] at hok
    cases hok
  rw [hupdate]
  refine (FilledIn.applyCallRows call _).lookup_of_some ?_
  unfold updatePeerInfosLocked at hloop ⊢
  split_ifs at hloop ⊢ with hlength
  have hfst : (call.peerInfos.zip call.rawPeerInfos).map Prod.fst = call.peerInfos :=
    map_fst_zip (by omega)
  refine lookup_updatePeerInfosLoop_of_newer hloop ?_ (by rwa [hfst]) ?_
  · rw [← hfst, map_map] at hnodup
    exact hnodup
  · rwa [isNewer, peerInfos_dropSenderRow]

end SyncedRouteInfo

end LowerTier.Peers.OspfRoute
