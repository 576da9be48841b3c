import LowerTier.Peers.OspfRoute.RouteStateBounds

/-!
# Refused updates and the version of the route state

An update checks its records one after the other and stores each before it looks at the next,
so that a refusal can leave some of them behind, and the version counts them only after the
last.  An update is atomic and versioned exactly where no record is refused after one was
stored or the sender's row was dropped.  Versions are 32-bit counters: what is said about them
is for counters with room for the steps of the update.
-/

namespace LowerTier.Peers.OspfRoute

open ProofSupport Tunnel ProofSupport.MachineInt

def RoutePeerInfo.content (info : RoutePeerInfo) : RoutePeerInfo := { info with lastUpdate := none }

namespace SyncedRouteInfo

variable {ρ : Type} {codec : WireCodec ρ} {call : UpdateCall ρ} {s t u : SyncedRouteInfo ρ}

structure SameContent (s t : SyncedRouteInfo ρ) : Prop where
  records : ∀ p, (s.peerInfos.lookup p).map RoutePeerInfo.content =
    (t.peerInfos.lookup p).map RoutePeerInfo.content
  rows : ∀ p, s.row p = t.row p

theorem SameContent.refl (s : SyncedRouteInfo ρ) : SameContent s s := ⟨fun _ => rfl, fun _ => rfl⟩

theorem SameContent.trans (h : SameContent s t) (h' : SameContent t u) : SameContent s u :=
  ⟨fun p => (h.records p).trans (h'.records p), fun p => (h.rows p).trans (h'.rows p)⟩

/-- From `s` to `t` the version counts at most `n` steps and at least one if the content
changes, in a counter that has room for them. -/
def Counted (n : Nat) (s t : SyncedRouteInfo ρ) : Prop :=
  s.version + n < 2 ^ 32 →
    s.version ≤ t.version ∧ t.version ≤ s.version + n ∧
      (SameContent s t ∨ s.version < t.version)

theorem Counted.refl (s : SyncedRouteInfo ρ) : Counted 0 s s :=
  fun _ => ⟨le_refl _, le_refl _, .inl (.refl s)⟩

variable {n m : Nat}

theorem Counted.trans (h : Counted n s t) (h' : Counted m t u) : Counted (n + m) s u := by
  intro hroom
  obtain ⟨hle, hbound, hchange⟩ := h (by omega)
  obtain ⟨hle', hbound', hchange'⟩ := h' (by omega)
  refine ⟨hle.trans hle', by omega, ?_⟩
  rcases hchange with hsame | hlt
  · rcases hchange' with hsame' | hlt'
    · exact .inl (hsame.trans hsame')
    · exact .inr (by omega)
  · exact .inr (by omega)

theorem Counted.mono (h : Counted n s t) (hle : n ≤ m) : Counted m s t := by
  intro hroom
  obtain ⟨hversion, hbound, hchange⟩ := h (by omega)
  exact ⟨hversion, by omega, hchange⟩

/-- As `Counted`, while a flag says that a version is still to be counted. -/
def Pending (n : Nat) (s : SyncedRouteInfo ρ) (updated : Bool × SyncedRouteInfo ρ) : Prop :=
  s.version + n < 2 ^ 32 →
    s.version ≤ updated.2.version ∧ updated.2.version ≤ s.version + n ∧
      (updated.1 = true ∨ SameContent s updated.2 ∨ s.version < updated.2.version)

theorem Pending.refl (s : SyncedRouteInfo ρ) : Pending 0 s (false, s) :=
  fun _ => ⟨le_refl _, le_refl _, .inr (.inl (.refl s))⟩

variable {updated : Bool × SyncedRouteInfo ρ}

theorem Pending.counted (h : Pending n s updated) :
    Counted (n + 1) s (updated.2.incVersionIf updated.1) := by
  intro hroom
  obtain ⟨hle, hbound, hchange⟩ := h (by omega)
  obtain ⟨changed, t⟩ := updated
  dsimp only at hle hbound hchange
  cases changed with
  | false =>
    have hstate : t.incVersionIf false = t := rfl
    rw [hstate]
    exact ⟨hle, by omega, hchange.resolve_left (by simp)⟩
  | true =>
    have hnext : (t.incVersionIf true).version = t.version + 1 := Nat.mod_eq_of_lt (by omega)
    rw [hnext]
    exact ⟨by omega, by omega, .inr (by omega)⟩

theorem Pending.of_flag {changed : Bool} (hversion : t.version = s.version)
    (hsame : changed = false → t = s) : Pending 0 s (changed, t) := by
  intro _
  refine ⟨hversion.ge, hversion.le, ?_⟩
  cases changed with
  | false =>
    rw [hsame rfl]
    exact .inr (.inl (.refl s))
  | true => exact .inl rfl

/-! ## Rows -/

variable {filled : Bool × SyncedRouteInfo ρ} {p : PeerId} {now : Nat}

theorem fillOne_spec (now : Nat) (filled : Bool × SyncedRouteInfo ρ) (p : PeerId) :
    (fillOne now filled p).2.version = filled.2.version ∧
      ((fillOne now filled p).1 = false → fillOne now filled p = filled) := by
  unfold fillOne fillRow fillRecord
  split_ifs <;> simp

theorem foldl_fillOne_spec (now : Nat) (peers : List PeerId) (filled : Bool × SyncedRouteInfo ρ) :
    (peers.foldl (fillOne now) filled).2.version = filled.2.version ∧
      ((peers.foldl (fillOne now) filled).1 = false →
        peers.foldl (fillOne now) filled = filled) := by
  induction peers generalizing filled with
  | nil => exact ⟨rfl, fun _ => rfl⟩
  | cons p peers ih =>
    obtain ⟨hversion, hsame⟩ := fillOne_spec now filled p
    obtain ⟨hversion', hsame'⟩ := ih (fillOne now filled p)
    refine ⟨hversion'.trans hversion, fun h => ?_⟩
    have hrest := hsame' h
    rw [List.foldl_cons, hrest] at h ⊢
    exact hsame h

theorem counted_fillEmptyPeerInfo (s : SyncedRouteInfo ρ) (now : Nat) (peers : OrderedSet PeerId) :
    Counted 1 s (s.fillEmptyPeerInfo now peers) := by
  obtain ⟨hversion, hsame⟩ := foldl_fillOne_spec now peers.toList (false, s)
  exact (Pending.of_flag hversion fun h => congrArg Prod.snd (hsame h)).counted

theorem updateConnInfoOnePeer_spec (s : SyncedRouteInfo ρ) (now : Nat) (source : PeerIdVersion)
    (connected : OrderedSet PeerId) :
    (s.updateConnInfoOnePeer now source connected).2.version = s.version ∧
      ((s.updateConnInfoOnePeer now source connected).1 = false →
        (s.updateConnInfoOnePeer now source connected).2 = s) := by
  unfold updateConnInfoOnePeer
  split_ifs <;> simp

theorem Pending.updateConnRow (h : Pending n s updated) (now : Nat) (row : ConnRow) :
    Pending (n + 1) s (updateConnRow now updated row) := by
  intro hroom
  obtain ⟨hle, hbound, hchange⟩ := h (by omega)
  obtain ⟨hle', hbound', hchange'⟩ := counted_fillEmptyPeerInfo updated.2 now row.2 (by omega)
  obtain ⟨hversion, hsame⟩ :=
    updateConnInfoOnePeer_spec (updated.2.fillEmptyPeerInfo now row.2) now row.1 row.2
  refine ⟨hversion.symm ▸ hle.trans hle', hversion.symm ▸ (by omega), ?_⟩
  by_cases hflag : (SyncedRouteInfo.updateConnRow now updated row).1 = true
  · exact .inl hflag
  obtain ⟨hold, hkept⟩ := Bool.or_eq_false_iff.mp (Bool.not_eq_true _ ▸ hflag)
  have hstate : (SyncedRouteInfo.updateConnRow now updated row).2 =
      updated.2.fillEmptyPeerInfo now row.2 := hsame hkept
  rw [hstate]
  rcases hchange with hset | hsame | hlt
  · rw [hold] at hset
    cases hset
  · exact .inr (hchange'.imp hsame.trans fun hlt => by omega)
  · exact .inr (.inr (by omega))

theorem Pending.foldl_updateConnRow (now : Nat) (rows : List ConnRow) (h : Pending n s updated) :
    Pending (n + rows.length) s (rows.foldl (SyncedRouteInfo.updateConnRow now) updated) := by
  induction rows generalizing updated n with
  | nil => exact h
  | cons row rows ih =>
    rw [List.foldl_cons, List.length_cons, Nat.add_comm rows.length 1, ← Nat.add_assoc]
    exact ih (h.updateConnRow now row)

theorem counted_updateConnRows (s : SyncedRouteInfo ρ) (now : Nat) (rows : List ConnRow) :
    Counted (rows.length + 1) s (s.updateConnRows now rows) := by
  have hpending := (Pending.refl s).foldl_updateConnRow now rows
  rw [Nat.zero_add] at hpending
  exact hpending.counted

def callRowCount (call : UpdateCall ρ) : Nat :=
  match call.connInfo with
  | some connInfo => connInfo.rows.length
  | none => 0

theorem counted_applyCallRows (call : UpdateCall ρ) (s : SyncedRouteInfo ρ) :
    Counted (callRowCount call + 2) s (applyCallRows call s) := by
  unfold callRowCount applyCallRows
  cases call.connInfo with
  | none => exact (Counted.refl s).mono (Nat.zero_le _)
  | some connInfo =>
    cases connInfo with
    | connBitmap bitmap =>
      have hfill := counted_fillEmptyPeerInfo s call.now (.ofList (bitmap.peerIds.map (·.peerId)))
      exact (hfill.trans (counted_updateConnRows _ call.now bitmap.rows)).mono (Nat.add_comm _ _).le
    | connPeerList list => exact (counted_updateConnRows s call.now list.rows).mono (Nat.le_succ _)

theorem counted_dropSenderRow (s : SyncedRouteInfo ρ) (call : UpdateCall ρ) :
    Counted 1 s (s.dropSenderRow call) := by
  unfold dropSenderRow
  split_ifs
  · have hpending : Pending 0 s (true, { s with connMap := s.connMap.erase call.dstPeerId }) :=
      .of_flag rfl (by simp)
    exact hpending.counted
  · exact (Counted.refl s).mono (Nat.zero_le _)

/-! ## Records -/

/-- No record is refused, each in the state that those before it leave. -/
def RecordsPass (codec : WireCodec ρ) (call : UpdateCall ρ) :
    SyncedRouteInfo ρ → Nat → List (RoutePeerInfo × ρ) → Prop
  | _, _, [] => True
  | s, idx, (info, raw) :: rest =>
    recordRefusal codec call s idx info raw = none ∧
      RecordsPass codec call (if s.isNewer info then withRecord codec call s info raw else s)
        (idx + 1) rest

/-- A record is refused, and none before it is newer than what is stored. -/
def StoppedUntouched (codec : WireCodec ρ) (call : UpdateCall ρ) (s : SyncedRouteInfo ρ) :
    Nat → List (RoutePeerInfo × ρ) → Prop
  | _, [] => False
  | idx, (info, raw) :: rest =>
    recordRefusal codec call s idx info raw ≠ none ∨
      s.isNewer info = false ∧ StoppedUntouched codec call s (idx + 1) rest

variable {idx : Nat} {stored : Bool} {records : List (RoutePeerInfo × ρ)}

theorem updatePeerInfosLoop_ok_iff :
    (updatePeerInfosLoop codec call s stored idx records).1 = .ok () ↔
      RecordsPass codec call s idx records := by
  induction records generalizing s idx stored with
  | nil => exact ⟨fun _ => trivial, fun _ => rfl⟩
  | cons record records ih =>
    obtain ⟨info, raw⟩ := record
    rw [updatePeerInfosLoop, updatePeerInfo_eq, RecordsPass]
    cases recordRefusal codec call s idx info raw with
    | some error => simp
    | none => split_ifs <;> simpa using ih

theorem updatePeerInfosLoop_keeps_version {version : Nat}
    (h : ∃ old, s.peerInfos.lookup p = some old ∧ version ≤ old.version) :
    ∃ old, (updatePeerInfosLoop codec call s stored idx records).2.peerInfos.lookup p = some old ∧
      version ≤ old.version := by
  refine updatePeerInfosLoop_invariant
    (I := fun t : SyncedRouteInfo ρ => ∃ old, t.peerInfos.lookup p = some old ∧
      version ≤ old.version) idx stored ?_ (fun _ => id) h
  rintro t info raw - ⟨old, hold, hle⟩ hnewer
  by_cases hp : p = info.peerId
  · subst hp
    refine ⟨_, AList.lookup_insert _, ?_⟩
    rw [isNewer, hold] at hnewer
    exact hle.trans (of_decide_eq_true hnewer).le
  · exact ⟨old, (lookup_peerInfos_withRecord_ne hp).trans hold, hle⟩

/-- A loop that is stopped and leaves the records as they were stored none. -/
theorem stoppedUntouched_of_same {error : SyncRouteInfoError}
    (herror : (updatePeerInfosLoop codec call s stored idx records).1 = .error error)
    (hsame : (updatePeerInfosLoop codec call s stored idx records).2.peerInfos = s.peerInfos) :
    StoppedUntouched codec call s idx records := by
  induction records generalizing idx stored with
  | nil => cases herror
  | cons record records ih =>
    obtain ⟨info, raw⟩ := record
    rw [updatePeerInfosLoop, updatePeerInfo_eq] at herror hsame
    cases hrefusal : recordRefusal codec call s idx info raw with
    | some reason => exact .inl (by simp [hrefusal])
    | none =>
      rw [hrefusal] at herror hsame
      by_cases hnewer : s.isNewer info = true
      · rw [if_pos hnewer] at hsame
        have hstored : ∃ old, (withRecord codec call s info raw).peerInfos.lookup info.peerId =
            some old ∧ info.version ≤ old.version := ⟨_, AList.lookup_insert _, le_refl _⟩
        obtain ⟨old, hold, hle⟩ := updatePeerInfosLoop_keeps_version hstored
        rw [hsame] at hold
        rw [isNewer, hold] at hnewer
        exact absurd (of_decide_eq_true hnewer) (not_lt.mpr hle)
      · rw [if_neg hnewer] at herror hsame
        exact .inr ⟨Bool.not_eq_true _ ▸ hnewer, ih herror hsame⟩

theorem updatePeerInfosLoop_of_stoppedUntouched (h : StoppedUntouched codec call s idx records) :
    ∃ error, updatePeerInfosLoop codec call s stored idx records = (.error error, s) := by
  induction records generalizing idx stored with
  | nil => exact h.elim
  | cons record records ih =>
    obtain ⟨info, raw⟩ := record
    rw [updatePeerInfosLoop, updatePeerInfo_eq]
    cases hrefusal : recordRefusal codec call s idx info raw with
    | some error => exact ⟨error, rfl⟩
    | none =>
      obtain ⟨hold, hrest⟩ := h.resolve_left (by simp [hrefusal])
      rw [if_neg (by simp [hold])]
      exact ih hrest

theorem Pending.updatePeerInfosLoop (h : Pending 0 s (stored, t))
    (hok : (updatePeerInfosLoop codec call t stored idx records).1 = .ok ()) :
    Counted 1 s (updatePeerInfosLoop codec call t stored idx records).2 := by
  induction records generalizing t stored idx with
  | nil => exact h.counted
  | cons record records ih =>
    obtain ⟨info, raw⟩ := record
    rw [SyncedRouteInfo.updatePeerInfosLoop, updatePeerInfo_eq] at hok ⊢
    cases hrefusal : recordRefusal codec call t idx info raw with
    | some error =>
      rw [hrefusal] at hok
      cases hok
    | none =>
      rw [hrefusal] at hok
      by_cases hnewer : t.isNewer info = true
      · rw [if_pos hnewer] at hok ⊢
        refine ih (fun hroom => ?_) hok
        obtain ⟨hle, hbound, -⟩ := h hroom
        exact ⟨hle, hbound, .inl (Bool.or_true stored)⟩
      · rw [if_neg hnewer] at hok ⊢
        refine ih ?_ hok
        rwa [Bool.or_false]

theorem counted_updatePeerInfosLocked (hok : (updatePeerInfosLocked codec call s).1 = .ok ()) :
    Counted 1 s (updatePeerInfosLocked codec call s).2 := by
  unfold updatePeerInfosLocked at hok ⊢
  split_ifs at hok ⊢
  exact (Pending.refl s).updatePeerInfosLoop hok

/-! ## Atomic and versioned updates -/

structure Unchanged (s t : SyncedRouteInfo ρ) : Prop where
  peerInfos : t.peerInfos = s.peerInfos
  rawPeerInfos : t.rawPeerInfos = s.rawPeerInfos
  connMap : t.connMap = s.connMap
  retainedPeerBytes : t.retainedPeerBytes = s.retainedPeerBytes
  retainedPeerBytesTotal : t.retainedPeerBytesTotal = s.retainedPeerBytesTotal
  processMemory : t.processMemory = s.processMemory

/-- An update that fails changes nothing, and one that changes content counts. -/
structure AtomicAndVersioned (codec : WireCodec ρ) (s : SyncedRouteInfo ρ) (call : UpdateCall ρ) :
    Prop where
  atomic : ∀ error, (updateWithAuthority codec s call).1 = .error error →
    Unchanged s (updateWithAuthority codec s call).2
  versioned : ¬SameContent s (updateWithAuthority codec s call).2 →
    s.version < (updateWithAuthority codec s call).2.version

/-- The merged state is refused; or there is a raw message for every record and no record is
refused; or a record is refused before anything is stored or dropped. -/
def AllOrNothing (codec : WireCodec ρ) (s : SyncedRouteInfo ρ) (call : UpdateCall ρ) : Prop :=
  (∃ error, s.validateMergedRouteStateLocked call.peerInfos call.connInfo = .error error) ∨
  call.peerInfos.length = call.rawPeerInfos.length ∧
    RecordsPass codec call s 0 (call.peerInfos.zip call.rawPeerInfos) ∨
  (call.sourceHasTopologyAuthority = true ∨ call.dstPeerId ∉ s.connMap) ∧
    (call.peerInfos.length ≠ call.rawPeerInfos.length ∨
      StoppedUntouched codec call s 0 (call.peerInfos.zip call.rawPeerInfos))

theorem recordsPass_congr (hrecords : t.peerInfos = s.peerInfos)
    (hbytes : t.retainedPeerBytes = s.retainedPeerBytes) :
    RecordsPass codec call t idx records ↔ RecordsPass codec call s idx records := by
  induction records generalizing s t idx with
  | nil => exact Iff.rfl
  | cons record records ih =>
    obtain ⟨info, raw⟩ := record
    have hrefusal : recordRefusal codec call t idx info raw =
        recordRefusal codec call s idx info raw := by
      cases s
      cases t
      subst hrecords hbytes
      rfl
    rw [RecordsPass, RecordsPass, hrefusal, isNewer, isNewer, hrecords]
    refine and_congr_right fun _ => ?_
    split_ifs
    · refine ih ?_ ?_
      · exact congrArg (AList.insert info.peerId (info.received call.now)) hrecords
      · exact congrArg (AList.insert info.peerId (retainedBytes codec info raw)) hbytes
    · exact ih hrecords hbytes

@[simp] theorem retainedPeerBytes_dropSenderRow :
    (s.dropSenderRow call).retainedPeerBytes = s.retainedPeerBytes := by
  unfold dropSenderRow
  split_ifs <;> rfl

/-- The records of a call pass or not, whether or not the sender's row is dropped first. -/
theorem updatePeerInfosLocked_ok_iff :
    (updatePeerInfosLocked codec call (s.dropSenderRow call)).1 = .ok () ↔
      call.peerInfos.length = call.rawPeerInfos.length ∧
        RecordsPass codec call s 0 (call.peerInfos.zip call.rawPeerInfos) := by
  rw [← recordsPass_congr (t := s.dropSenderRow call) (peerInfos_dropSenderRow s call)
    retainedPeerBytes_dropSenderRow, updatePeerInfosLocked]
  split_ifs with hlength
  · simp [hlength]
  · rw [updatePeerInfosLoop_ok_iff]
    simp [not_not.mp hlength]

theorem dropSenderRow_of_kept
    (h : call.sourceHasTopologyAuthority = true ∨ call.dstPeerId ∉ s.connMap) :
    s.dropSenderRow call = s := by
  rw [dropSenderRow, if_neg]
  rintro ⟨hauthority, hrow⟩
  exact h.elim hauthority fun hnone => hnone hrow

theorem kept_of_unchanged (h : (s.dropSenderRow call).connMap = s.connMap) :
    call.sourceHasTopologyAuthority = true ∨ call.dstPeerId ∉ s.connMap := by
  by_contra hdrop
  rw [not_or, not_not] at hdrop
  rw [dropSenderRow, if_pos hdrop] at h
  have hsame : s.connMap.erase call.dstPeerId = s.connMap := h
  have hrow := hdrop.2
  rw [← hsame, AList.mem_erase] at hrow
  exact hrow.1 rfl

/-- An update that fails without a trace fails before anything is stored or dropped. -/
theorem allOrNothing_of_atomic (h : ∀ error, (updateWithAuthority codec s call).1 = .error error →
    Unchanged s (updateWithAuthority codec s call).2) : AllOrNothing codec s call := by
  rcases updateWithAuthority_cases codec s call with
    ⟨error, hcheck, -⟩ | ⟨-, ⟨error, hloop, hupdate⟩ | ⟨hok, -⟩⟩
  · exact .inl ⟨error, hcheck⟩
  · have hsame := h error (by rw [hupdate])
    rw [hupdate] at hsame
    have hconn := hsame.connMap
    rw [connMap_updatePeerInfosLocked] at hconn
    have hkept := kept_of_unchanged hconn
    refine .inr (.inr ⟨hkept, ?_⟩)
    have hrecords := hsame.peerInfos
    rw [dropSenderRow_of_kept hkept] at hloop hrecords
    unfold updatePeerInfosLocked at hloop hrecords
    split_ifs at hloop hrecords with hlength
    · exact .inl hlength
    · exact .inr (stoppedUntouched_of_same hloop hrecords)
  · exact .inr (.inl (updatePeerInfosLocked_ok_iff.mp hok))

/-- An update that is all or nothing leaves the state alone, or is carried out and counts. -/
theorem AllOrNothing.effect (h : AllOrNothing codec s call) :
    (updateWithAuthority codec s call).2 = s ∨
      (∃ changed, (updateWithAuthority codec s call).1 = .ok changed) ∧
        Counted (callRowCount call + 4) s (updateWithAuthority codec s call).2 := by
  rcases updateWithAuthority_cases codec s call with
    ⟨error, -, hupdate⟩ | ⟨hcheck, ⟨error, hloop, hupdate⟩ | ⟨hok, changed, hupdate⟩⟩
  · exact .inl (by rw [hupdate])
  · left
    rcases h with ⟨error, hrefused⟩ | hpass | ⟨hkept, hstopped⟩
    · rw [hcheck] at hrefused
      cases hrefused
    · rw [updatePeerInfosLocked_ok_iff.mpr hpass] at hloop
      cases hloop
    rw [hupdate, dropSenderRow_of_kept hkept, updatePeerInfosLocked]
    split_ifs with hlength
    · rfl
    · obtain ⟨error, hloop⟩ :=
        updatePeerInfosLoop_of_stoppedUntouched (hstopped.resolve_left hlength)
      rw [hloop]
  · rw [hupdate]
    have hcounted := ((counted_dropSenderRow s call).trans
      (counted_updatePeerInfosLocked hok)).trans (counted_applyCallRows call _)
    exact .inr ⟨⟨changed, rfl⟩, hcounted.mono (by omega)⟩

theorem AllOrNothing.atomicAndVersioned (h : AllOrNothing codec s call)
    (hroom : s.version + (callRowCount call + 4) < 2 ^ 32) : AtomicAndVersioned codec s call := by
  rcases h.effect with hsame | ⟨⟨changed, hok⟩, hcounted⟩
  · refine ⟨fun _ _ => ?_, fun hchange => ?_⟩
    · rw [hsame]
      exact ⟨rfl, rfl, rfl, rfl, rfl, rfl⟩
    · rw [hsame] at hchange
      exact absurd (.refl s) hchange
  · refine ⟨fun error herror => ?_, fun hchange => ?_⟩
    · rw [hok] at herror
      cases herror
    · exact (hcounted hroom).2.2.resolve_left hchange

/-- An update is atomic and versioned exactly where it is all or nothing, and captures of one
version along updates that are have one content. -/
theorem updates_atomic_and_versioned (codec : WireCodec ρ) :
    (∀ (s : SyncedRouteInfo ρ) (call : UpdateCall ρ),
      s.version + (callRowCount call + 4) < 2 ^ 32 →
        (AtomicAndVersioned codec s call ↔ AllOrNothing codec s call)) ∧
    ∀ (s : SyncedRouteInfo ρ) (calls : List (UpdateCall ρ)),
      Trace.Always (updateStep codec) (fun s _ call =>
        s.version + (callRowCount call + 4) < 2 ^ 32 ∧ AllOrNothing codec s call) s [] calls →
      (Trace.run (updateStep codec) s calls).1.version = s.version →
        SameContent s (Trace.run (updateStep codec) s calls).1 := by
  refine ⟨fun s call hroom => ?_, fun s calls hcalls hversion => ?_⟩
  · exact ⟨fun h => allOrNothing_of_atomic h.atomic, fun h => h.atomicAndVersioned hroom⟩
  · refine (Trace.run_invariant
      (I := fun t _ => s.version ≤ t.version ∧ (SameContent s t ∨ s.version < t.version))
      (fun t _ call h hcall => ?_) ⟨le_refl _, .inl (.refl s)⟩ hcalls).2.resolve_right (by omega)
    have hstate : (updateStep codec t call).1 = (updateWithAuthority codec t call).2 := rfl
    rw [hstate]
    rcases hcall.2.effect with hsame | ⟨-, hcounted⟩
    · rwa [hsame]
    obtain ⟨hle, -, hchange⟩ := hcounted hcall.1
    refine ⟨h.1.trans hle, ?_⟩
    rcases h.2 with hfirst | hlt
    · exact hchange.imp hfirst.trans fun hlt => by omega
    · exact .inr (by omega)

def recordsCall (grant : Nat → Bool) : UpdateCall RoutePeerInfo where
  myPeerId := 1
  myPeerRouteId := 1
  dstPeerId := 2
  peerInfos := [recordOf 7 1, recordOf 8 1]
  rawPeerInfos := [recordOf 7 1, recordOf 8 1]
  connInfo := none
  sourceHasTopologyAuthority := true
  now := 5
  grant := grant

theorem updates_atomic_and_versioned_two_records :
    AtomicAndVersioned recordCodec empty (recordsCall fun _ => true) :=
  ((updates_atomic_and_versioned recordCodec).1 empty (recordsCall fun _ => true) (by decide)).mpr
    (.inr (.inl ⟨rfl, by decide +kernel, by decide +kernel, trivial⟩))

/-- The memory for the second record is refused: the update fails, the first record stays and the
version does not move. -/
theorem refused_update_leaves_record :
    (updateWithAuthority recordCodec empty (recordsCall (· == 0))).1 = .error .stopped ∧
    (updateWithAuthority recordCodec empty (recordsCall (· == 0))).2.peerInfos.lookup 7 ≠
      (empty : SyncedRouteInfo RoutePeerInfo).peerInfos.lookup 7 ∧
    (updateWithAuthority recordCodec empty (recordsCall (· == 0))).2.version =
      (empty : SyncedRouteInfo RoutePeerInfo).version := by
  decide +kernel

end SyncedRouteInfo

end LowerTier.Peers.OspfRoute
