import LowerTier.Peers.OspfRoute.MergeConvergence
import LowerTier.Peers.OspfRoute.RecordUpdates
import LowerTier.ProofSupport.CheckedFold
import LowerTier.ProofSupport.Trace

/-!
# Limits of the accumulated route state

Before an update touches the maps, `validate_merged_route_state_locked` merges it into a copy
of the rows and of the ids of the peer records and checks the size of the result.  The merge
itself leaves no more than the copy where every source of a list has a record in the end and
where the row that is dropped for lack of authority does not come back with an old version.
-/

namespace LowerTier.Peers.OspfRoute

open ConnInfo SyncedRouteInfo Except AList List ProofSupport Tunnel KeyedMap OrderedSet
  VersionedRegister
open ProofSupport.VersionedRegister (Event Trails applyAll applyAll_append)
open ProofSupport.CheckedFold (foldlM_cons_eq_ok bind_eq_ok map_eq_ok)

/-! ## What the copy holds -/

variable {merged : MergedRouteState} {p : PeerId} {row : ConnRow} {sources : List PeerId}
  {peers : List PeerId} {first : List PeerId}

namespace SyncedRouteInfo

variable {ρ : Type} {merged merged' : MergedRouteState}

theorem addPeerId_ok {q : PeerId} (h : addPeerId merged q = .ok merged') :
    merged' = { merged with peerIds := insert q merged.peerIds } := by
  unfold addPeerId at h
  dsimp only at h
  split_ifs at h
  exact (ok.inj h).symm

theorem addPeerIds_ok (h : peers.foldlM addPeerId merged = .ok merged') :
    merged'.conn = merged.conn ∧
      ∀ p, p ∈ merged'.peerIds ↔ p ∈ merged.peerIds ∨ p ∈ peers := by
  induction peers generalizing merged with
  | nil =>
    cases h
    simp
  | cons q peers ih =>
    obtain ⟨mid, hmid, hrest⟩ := foldlM_cons_eq_ok.mp h
    obtain rfl := addPeerId_ok hmid
    obtain ⟨hconn, hids⟩ := ih hrest
    refine ⟨hconn, fun p => ?_⟩
    rw [hids, Finset.mem_insert, mem_cons]
    exact or_assoc.trans or_left_comm

/-- The rows and the ids of a copy after a merge: the copy does not fill in placeholders. -/
structure MergeEffect (events : PeerId → List (Event (OrderedSet PeerId)))
    (Mentions : PeerId → Prop) (merged merged' : MergedRouteState) : Prop where
  conn : ∀ p, merged'.conn.lookup p =
    applyAll .empty (merged.conn.lookup p) ((events p).filter Event.isOffer)
  ids : ∀ p, p ∈ merged.peerIds ∨ Mentions p → p ∈ merged'.peerIds

theorem lookup_replaceMergedRow :
    (replaceMergedRow merged row).conn.lookup p =
      applyAll .empty (merged.conn.lookup p) ((rowEvents p row).filter Event.isOffer) := by
  have hoffers : (rowEvents p row).filter Event.isOffer =
      if row.1.peerId = p then [.offer row.1.version row.2] else [] := by
    unfold rowEvents mentionEvents
    split_ifs <;> rfl
  rw [hoffers, replaceMergedRow]
  by_cases hp : row.1.peerId = p
  · subst hp
    rw [if_pos rfl]
    change _ = apply .empty _ (.offer row.1.version row.2)
    rw [apply]
    split_ifs
    · exact lookup_insert _
    · rfl
  · split_ifs
    · exact lookup_insert_ne (Ne.symm hp)
    · rfl

theorem mergeRow_ok (h : mergeRow merged row = .ok merged') :
    MergeEffect (fun p => rowEvents p row) (fun p => p ∈ row.2) merged merged' := by
  obtain ⟨mid, hmid, rfl⟩ := map_eq_ok.mp h
  obtain ⟨hconn, hids⟩ := addPeerIds_ok hmid
  refine ⟨fun p => ?_, fun p hp => ?_⟩
  · rw [lookup_replaceMergedRow, hconn]
  · have hsame : (replaceMergedRow mid row).peerIds = mid.peerIds := by
      unfold replaceMergedRow
      split_ifs <;> rfl
    rw [hsame, hids]
    exact hp

theorem MergeEffect.trans {events events' : PeerId → List (Event (OrderedSet PeerId))}
    {Mentions Mentions' : PeerId → Prop} {mid : MergedRouteState}
    (h : MergeEffect events Mentions merged mid) (h' : MergeEffect events' Mentions' mid merged') :
    MergeEffect (fun p => events p ++ events' p) (fun p => Mentions p ∨ Mentions' p) merged
      merged' where
  conn p := by rw [h'.conn, h.conn, filter_append, applyAll_append]
  ids p hp := by
    rcases hp with hp | hp | hp
    · exact h'.ids p (.inl (h.ids p (.inl hp)))
    · exact h'.ids p (.inl (h.ids p (.inr hp)))
    · exact h'.ids p (.inr hp)

theorem mergeRows_ok {rows : List ConnRow} (h : rows.foldlM mergeRow merged = .ok merged') :
    MergeEffect (fun p => rows.flatMap (rowEvents p)) (fun p => ∃ row ∈ rows, p ∈ row.2)
      merged merged' := by
  induction rows generalizing merged with
  | nil =>
    cases h
    exact ⟨fun p => rfl, fun p hp => by simpa using hp⟩
  | cons row rows ih =>
    obtain ⟨mid, hmid, hrest⟩ := foldlM_cons_eq_ok.mp h
    simpa only [flatMap_cons, exists_mem_cons_iff] using (mergeRow_ok hmid).trans (ih hrest)

theorem mergeListSources_ok {sources : List PeerConnInfo}
    (h : sources.foldlM mergeListSource merged = .ok merged') :
    MergeEffect (fun p => (RouteConnPeerList.mk sources).rows.flatMap (rowEvents p))
      (fun p => ∃ row ∈ (RouteConnPeerList.mk sources).rows, p ∈ row.2) merged merged' := by
  induction sources generalizing merged with
  | nil =>
    cases h
    exact ⟨fun p => rfl, fun p hp => by simpa [RouteConnPeerList.rows] using hp⟩
  | cons source sources ih =>
    obtain ⟨mid, hmid, hrest⟩ := foldlM_cons_eq_ok.mp h
    obtain ⟨peerId, connectedPeerIds⟩ := source
    cases peerId with
    | none => cases hmid
    | some peerId =>
      obtain ⟨named, hnamed, hrow⟩ := bind_eq_ok.mp hmid
      obtain rfl := addPeerId_ok hnamed
      have hrow := mergeRow_ok hrow
      -- the source's own id only adds to the ids
      have hsource : MergeEffect (fun p => rowEvents p (peerId, .ofList connectedPeerIds))
          (fun p => p ∈ ofList connectedPeerIds) merged mid :=
        ⟨hrow.conn, fun p hp => hrow.ids p (hp.imp_left (Finset.mem_insert_of_mem ·))⟩
      have hrows : (RouteConnPeerList.mk (⟨some peerId, connectedPeerIds⟩ :: sources)).rows =
          (peerId, .ofList connectedPeerIds) :: (RouteConnPeerList.mk sources).rows := rfl
      rw [hrows]
      simpa only [flatMap_cons, exists_mem_cons_iff] using hsource.trans (ih hrest)

variable {connInfo : ConnInfo}

theorem mergeConnInfo_ok (h : mergeConnInfo merged connInfo = .ok merged') :
    MergeEffect connInfo.events connInfo.Mentions merged merged' := by
  cases connInfo with
  | connBitmap bitmap =>
    obtain ⟨mid, hmid, hrest⟩ := bind_eq_ok.mp h
    obtain ⟨hconn, hids⟩ := addPeerIds_ok hmid
    have hrows := mergeRows_ok hrest
    refine ⟨fun p => ?_, fun p hp => hrows.ids p (.inl ((hids p).mpr hp))⟩
    have hmention : (mentionEvents p (.ofList (bitmap.peerIds.map (·.peerId)))).filter
        Event.isOffer = [] := by
      unfold mentionEvents
      split_ifs <;> rfl
    rw [hrows.conn, hconn, events, filter_append, hmention, nil_append]
  | connPeerList list => exact mergeListSources_ok h

variable {entries : List ((_ : PeerId) × (Nat × OrderedSet PeerId))}

theorem countEdges_ok {n m : Nat}
    (hstart : n ≤ MAX_ROUTE_SYNC_EDGES) (h : entries.foldlM countEdges n = .ok m) :
    (∀ entry ∈ entries, entry.2.2.size ≤ MAX_ROUTE_SYNC_EDGES_PER_SOURCE) ∧
      n + (entries.map fun entry => entry.2.2.size).sum ≤ MAX_ROUTE_SYNC_EDGES := by
  induction entries generalizing n with
  | nil => simpa using hstart
  | cons entry entries ih =>
    obtain ⟨mid, hmid, hrest⟩ := foldlM_cons_eq_ok.mp h
    unfold countEdges at hmid
    split_ifs at hmid with hrow htotal
    cases hmid
    obtain ⟨hrows, hsum⟩ := ih (by omega) hrest
    refine ⟨fun other hother => ?_, ?_⟩
    · rcases mem_cons.mp hother with rfl | hother
      · omega
      · exact hrows other hother
    · rw [map_cons, sum_cons]
      omega

def callEvents (call : UpdateCall ρ) (p : PeerId) : List (Event (OrderedSet PeerId)) :=
  match call.connInfo with
  | some connInfo => connInfo.events p
  | none => []

def CallMentions (call : UpdateCall ρ) (p : PeerId) : Prop :=
  ∃ connInfo ∈ call.connInfo, connInfo.Mentions p

/-- A copy that passed the check, for a call in a state. -/
structure CheckedCopy (s : SyncedRouteInfo ρ) (call : UpdateCall ρ) (merged : MergedRouteState) :
    Prop where
  conn : ∀ p, merged.conn.lookup p =
    applyAll .empty (s.row p) ((callEvents call p).filter Event.isOffer)
  ids : ∀ p, p ∈ s.peerInfos ∨ p ∈ call.peerInfos.map (·.peerId) ∨ CallMentions call p →
    p ∈ merged.peerIds
  peers : merged.peerIds.card ≤ MAX_ROUTE_SYNC_PEERS
  row : ∀ p held, merged.conn.lookup p = some held →
    held.2.size ≤ MAX_ROUTE_SYNC_EDGES_PER_SOURCE
  edges : merged.conn.sumBy (fun held => held.2.size) ≤ MAX_ROUTE_SYNC_EDGES

theorem currentMerged_effect (s : SyncedRouteInfo ρ) (call : UpdateCall ρ)
    (h : (match call.connInfo with
      | some connInfo => mergeConnInfo (s.currentMerged call.peerInfos) connInfo
      | none => .ok (s.currentMerged call.peerInfos)) = .ok merged) :
    MergeEffect (callEvents call) (CallMentions call) (s.currentMerged call.peerInfos) merged := by
  cases hconn : call.connInfo with
  | none =>
    rw [hconn] at h
    cases h
    refine ⟨fun p => ?_, fun p hp => ?_⟩
    · rw [callEvents, hconn]
      rfl
    · exact hp.resolve_right (by simp [CallMentions, hconn])
  | some connInfo =>
    rw [hconn] at h
    have heffect := mergeConnInfo_ok h
    refine ⟨fun p => ?_, fun p hp => heffect.ids p (hp.imp_right ?_)⟩
    · rw [callEvents, hconn]
      exact heffect.conn p
    · simp [CallMentions, hconn]

variable {s : SyncedRouteInfo ρ} {call : UpdateCall ρ}

theorem validate_ok (h : s.validateMergedRouteStateLocked call.peerInfos call.connInfo = .ok ()) :
    ∃ merged, CheckedCopy s call merged := by
  obtain ⟨merged, hmerged, hcheck⟩ := bind_eq_ok.mp h
  split_ifs at hcheck with hpeers
  obtain ⟨total, hcount, -⟩ := map_eq_ok.mp hcheck
  have heffect := currentMerged_effect s call hmerged
  obtain ⟨hrows, hsum⟩ := countEdges_ok (Nat.zero_le _) hcount
  refine ⟨merged, fun p => ?_, fun p hp => heffect.ids p ?_, not_lt.mp hpeers, ?_, ?_⟩
  · rw [heffect.conn, currentMerged, lookup_mapValues, row]
  · refine hp.elim (fun hp => .inl ?_) fun hp => hp.imp_left fun hp => ?_
    · exact Finset.mem_union_left _ (mem_toFinset.mpr hp)
    · exact Finset.mem_union_right _ (mem_toFinset.mpr hp)
  · exact fun p held hheld => hrows ⟨p, held⟩ (mem_lookup_iff.mp hheld)
  · rw [sumBy, ← Nat.zero_add (sum _)]
    exact hsum

/-- Every source and every neighbour has a record. -/
structure RowsKnown (s : SyncedRouteInfo ρ) : Prop where
  source : ∀ p, s.row p ≠ none → p ∈ s.peerInfos
  neighbour : ∀ p held, s.row p = some held → ∀ q ∈ held.2, q ∈ s.peerInfos

def peerIds (s : SyncedRouteInfo ρ) : Finset PeerId :=
  s.peerInfos.keys.toFinset ∪ s.connMap.keys.toFinset ∪
    (s.connMap.entries.flatMap fun entry => entry.2.connectedPeers.toList).toFinset

structure Bounded (s : SyncedRouteInfo ρ) : Prop where
  peers : s.peerIds.card ≤ MAX_ROUTE_SYNC_PEERS
  row : ∀ p info, s.connMap.lookup p = some info →
    info.connectedPeers.size ≤ MAX_ROUTE_SYNC_EDGES_PER_SOURCE
  edges : s.connMap.sumBy (fun info => info.connectedPeers.size) ≤ MAX_ROUTE_SYNC_EDGES

theorem row_ne_none : s.row p ≠ none ↔ p ∈ s.connMap := by
  rw [row, Ne, Option.map_eq_none_iff, lookup_eq_none, not_not]

theorem row_of_lookup {info : RouteConnInfo}
    (h : s.connMap.lookup p = some info) : s.row p = some (info.version, info.connectedPeers) := by
  rw [row, h]
  rfl

theorem RowsKnown.peerIds_subset (h : s.RowsKnown) {ids : Finset PeerId}
    (hrecords : ∀ p ∈ s.peerInfos, p ∈ ids) : s.peerIds ⊆ ids := by
  intro p hp
  apply hrecords
  simp only [peerIds, Finset.mem_union, mem_toFinset, mem_flatMap] at hp
  rcases hp with (hp | hp) | ⟨⟨source, info⟩, hentry, hp⟩
  · exact hp
  · exact h.source p (row_ne_none.mpr hp)
  · exact h.neighbour source (info.version, info.connectedPeers)
      (row_of_lookup (mem_lookup_iff.mpr hentry)) p hp

theorem bounded_of_rows (hknown : s.RowsKnown) {ids : Finset PeerId}
    (hrecords : ∀ p ∈ s.peerInfos, p ∈ ids) (hids : ids.card ≤ MAX_ROUTE_SYNC_PEERS)
    (conn : KeyedMap PeerId (Nat × OrderedSet PeerId))
    (hrow : ∀ p held, conn.lookup p = some held → held.2.size ≤ MAX_ROUTE_SYNC_EDGES_PER_SOURCE)
    (hedges : conn.sumBy (fun held => held.2.size) ≤ MAX_ROUTE_SYNC_EDGES)
    (hrows : ∀ p, s.row p = conn.lookup p ∨ s.row p = none ∨ s.row p = some (0, .empty)) :
    s.Bounded := by
  have hheld : ∀ p info, s.connMap.lookup p = some info → info.connectedPeers.size ≠ 0 →
      ∃ held, conn.lookup p = some held ∧ info.connectedPeers.size ≤ held.2.size := by
    intro p info hinfo hsize
    have hpresent := row_of_lookup hinfo
    rcases hrows p with hlevel | hnone | hblank
    · exact ⟨_, hlevel.symm.trans hpresent, le_refl _⟩
    · rw [hnone] at hpresent
      cases hpresent
    · rw [hblank, Option.some_inj] at hpresent
      rw [← (Prod.mk.inj hpresent).2] at hsize
      exact absurd rfl hsize
  refine ⟨(Finset.card_le_card (hknown.peerIds_subset hrecords)).trans hids, ?_,
    (sumBy_le_sumBy hheld).trans hedges⟩
  intro p info hinfo
  by_cases hsize : info.connectedPeers.size = 0
  · rw [hsize]
    exact Nat.zero_le _
  · obtain ⟨held, hlookup, hle⟩ := hheld p info hinfo hsize
    exact hle.trans (hrow p held hlookup)

/-! ## One update -/

/-- The check counts what the merge stores: every source of a list has a record in the state or
in the call or is a neighbour in the list, and a row of a sender without authority is newer than
the one stored for it. -/
structure CheckCovers (s : SyncedRouteInfo ρ) (call : UpdateCall ρ) : Prop where
  source : ∀ list, call.connInfo = some (.connPeerList list) → ∀ row ∈ list.rows,
    row.1.peerId ∈ s.peerInfos ∨ row.1.peerId ∈ call.peerInfos.map (·.peerId) ∨
      ∃ other ∈ list.rows, row.1.peerId ∈ other.2
  sender : call.sourceHasTopologyAuthority = false → ∀ connInfo ∈ call.connInfo,
    ∀ row ∈ connInfo.rows, row.1.peerId = call.dstPeerId →
      ∀ info, s.connMap.lookup call.dstPeerId = some info → info.version < row.1.version

theorem row_applyCallRows :
    (applyCallRows call s).row p = applyAll .empty (s.row p) (callEvents call p) := by
  unfold applyCallRows callEvents
  cases call.connInfo with
  | none => rfl
  | some connInfo => exact row_updateConnInfoLocked s call.now connInfo p

theorem mem_peerInfos_applyCallRows (call : UpdateCall ρ) (s : SyncedRouteInfo ρ) (p : PeerId) :
    p ∈ (applyCallRows call s).peerInfos ↔ CallMentions call p ∨ p ∈ s.peerInfos := by
  unfold applyCallRows CallMentions
  cases call.connInfo with
  | none => simp
  | some connInfo => simpa using mem_peerInfos_updateConnInfoLocked s call.now connInfo p

theorem row_dropSenderRow (s : SyncedRouteInfo ρ) (call : UpdateCall ρ) (p : PeerId) :
    (s.dropSenderRow call).row p = s.row p ∨
      call.sourceHasTopologyAuthority = false ∧ p = call.dstPeerId ∧
        (s.dropSenderRow call).row p = none := by
  rcases connMap_dropSenderRow s call with hkept | ⟨hauthority, hdropped⟩
  · rw [row, row, hkept]
    exact .inl rfl
  rw [row, row, hdropped]
  by_cases hp : p = call.dstPeerId
  · subst hp
    exact .inr ⟨hauthority, rfl, by rw [lookup_erase]; rfl⟩
  · rw [lookup_erase_ne hp]
    exact .inl rfl

theorem CheckCovers.trails (h : CheckCovers s call) :
    Trails .empty (callEvents call p) ((s.dropSenderRow call).row p) (s.row p) := by
  rcases row_dropSenderRow s call p with hkept | ⟨hauthority, rfl, hnone⟩
  · rw [hkept]
    exact .of_eq _
  rw [hnone]
  refine ⟨.inr (.inl rfl), fun _ held hheld version connected hoffer => ?_, by simp⟩
  obtain ⟨info, hinfo, rfl⟩ := Option.map_eq_some_iff.mp hheld
  cases hconn : call.connInfo with
  | none => simp [callEvents, hconn] at hoffer
  | some connInfo =>
    rw [callEvents, hconn] at hoffer
    exact h.sender hauthority connInfo hconn _ (offer_mem_events.mp hoffer) rfl info hinfo

theorem mentions_or_source (h : connInfo.events p ≠ []) :
    connInfo.Mentions p ∨ ∃ row ∈ connInfo.rows, row.1.peerId = p := by
  by_contra hnone
  rw [not_or, not_exists] at hnone
  obtain ⟨hmention, hsource⟩ := hnone
  apply h
  cases connInfo with
  | connBitmap bitmap =>
    exact bitmap_events_eq_nil.mpr fun row hrow hp => hsource row ⟨hrow, hp⟩
  | connPeerList list =>
    exact list_events_eq_nil.mpr fun row hrow =>
      ⟨fun hp => hsource row ⟨hrow, hp⟩, fun hp => hmention ⟨row, hrow, hp⟩⟩

theorem mentions_of_neighbour (hrow : row ∈ connInfo.rows)
    {q : PeerId} (hq : q ∈ row.2) : connInfo.Mentions q := by
  cases connInfo with
  | connBitmap bitmap => exact (mem_peerIds_of_row hrow).2 q hq
  | connPeerList list => exact ⟨row, hrow, hq⟩

/-- Rows that are known stay known while rows are dropped and records added. -/
theorem RowsKnown.mono {s t : SyncedRouteInfo ρ} (h : s.RowsKnown)
    (hrows : ∀ p, t.row p = s.row p ∨ t.row p = none)
    (hrecords : ∀ p ∈ s.peerInfos, p ∈ t.peerInfos) : t.RowsKnown where
  source p hp := by
    rcases hrows p with hkept | hnone
    · exact hrecords p (h.source p (hkept ▸ hp))
    · exact absurd hnone hp
  neighbour p held hheld q hq := by
    rcases hrows p with hkept | hnone
    · exact hrecords q (h.neighbour p held (hkept ▸ hheld) q hq)
    · rw [hnone] at hheld
      cases hheld

theorem RowsKnown.applyCallRows (h : s.RowsKnown)
    (hsources : ∀ connInfo, call.connInfo = some connInfo → ∀ row ∈ connInfo.rows,
      row.1.peerId ∈ (applyCallRows call s).peerInfos) : (applyCallRows call s).RowsKnown := by
  cases hconn : call.connInfo with
  | none =>
    have hsame : SyncedRouteInfo.applyCallRows call s = s := by
      rw [SyncedRouteInfo.applyCallRows, hconn]
    rwa [hsame]
  | some connInfo =>
    have hevents : ∀ p, callEvents call p = connInfo.events p := fun p => by
      rw [callEvents, hconn]
    have hmentions : ∀ p, connInfo.Mentions p →
        p ∈ (SyncedRouteInfo.applyCallRows call s).peerInfos := fun p hp =>
      (mem_peerInfos_applyCallRows call s p).mpr (.inl ⟨connInfo, hconn, hp⟩)
    have hkeeps : ∀ p ∈ s.peerInfos, p ∈ (SyncedRouteInfo.applyCallRows call s).peerInfos :=
      fun p hp => (mem_peerInfos_applyCallRows call s p).mpr (.inr hp)
    -- a row is an old one, one of the call, or a placeholder
    have horigin : ∀ p, _ := fun p =>
      (outcome_applyAll .empty (s.row p) (connInfo.events p)).origin
    simp only [← hevents, ← row_applyCallRows] at horigin
    refine ⟨fun p hp => ?_, fun p held hheld q hq => ?_⟩
    · rcases horigin p with hold | ⟨version, connected, hoffer, -⟩ | ⟨-, hne, -⟩
      · exact hkeeps p (h.source p (hold ▸ hp))
      · rw [hevents] at hoffer
        exact hsources connInfo hconn _ (offer_mem_events.mp hoffer)
      · rw [hevents] at hne
        rcases mentions_or_source hne with hmention | ⟨row, hrow, rfl⟩
        · exact hmentions p hmention
        · exact hsources connInfo hconn row hrow
    · rcases horigin p with hold | ⟨version, connected, hoffer, hnew⟩ | ⟨-, -, hblank⟩
      · exact hkeeps q (h.neighbour p held (hold ▸ hheld) q hq)
      · obtain rfl := Option.some.inj (hnew.symm.trans hheld)
        rw [hevents] at hoffer
        exact hmentions q (mentions_of_neighbour (offer_mem_events.mp hoffer) hq)
      · obtain rfl := Option.some.inj (hblank.symm.trans hheld)
        exact absurd hq not_mem_empty

section recorded

variable {codec : WireCodec ρ} {s : SyncedRouteInfo ρ} {call : UpdateCall ρ}

def recorded (codec : WireCodec ρ) (s : SyncedRouteInfo ρ) (call : UpdateCall ρ) :
    SyncedRouteInfo ρ :=
  (updatePeerInfosLocked codec call (s.dropSenderRow call)).2

theorem row_recorded : (recorded codec s call).row p = (s.dropSenderRow call).row p := by
  rw [row, row, recorded, connMap_updatePeerInfosLocked]

theorem mem_peerInfos_recorded (hp : p ∈ s.peerInfos) : p ∈ (recorded codec s call).peerInfos :=
  mem_peerInfos_updatePeerInfosLocked_of_mem (peerInfos_dropSenderRow s call ▸ hp)

theorem CheckedCopy.mem_of_recorded (h : CheckedCopy s call merged)
    (hp : p ∈ (recorded codec s call).peerInfos) : p ∈ merged.peerIds := by
  rcases mem_peerInfos_updatePeerInfosLocked hp with hp | hp
  · exact h.ids p (.inl (peerInfos_dropSenderRow s call ▸ hp))
  · exact h.ids p (.inr (.inl hp))

theorem RowsKnown.recorded (h : s.RowsKnown) : (recorded codec s call).RowsKnown := by
  refine h.mono (fun p => ?_) fun p => mem_peerInfos_recorded
  rw [row_recorded]
  exact (row_dropSenderRow s call p).imp_right fun h => h.2.2

theorem bounded_recorded (hknown : s.RowsKnown) (hbounded : s.Bounded)
    (hcopy : CheckedCopy s call merged) : (recorded codec s call).Bounded := by
  refine bounded_of_rows hknown.recorded (fun p => hcopy.mem_of_recorded) hcopy.peers
    (s.connMap.mapValues fun info => (info.version, info.connectedPeers)) ?_ ?_ ?_
  · intro p held hheld
    rw [lookup_mapValues] at hheld
    obtain ⟨info, hinfo, rfl⟩ := Option.map_eq_some_iff.mp hheld
    exact hbounded.row p info hinfo
  · rw [sumBy_mapValues]
    exact hbounded.edges
  · intro p
    rw [lookup_mapValues, row_recorded]
    exact (row_dropSenderRow s call p).imp_right fun h => .inl h.2.2

theorem bounded_applyCallRows (hknown : s.RowsKnown)
    (hcopy : CheckedCopy s call merged) (hcovers : CheckCovers s call)
    (hok : (updatePeerInfosLocked codec call (s.dropSenderRow call)).1 = .ok ()) :
    (applyCallRows call (recorded codec s call)).RowsKnown ∧
      (applyCallRows call (recorded codec s call)).Bounded := by
  have hafter : (applyCallRows call (recorded codec s call)).RowsKnown := by
    refine hknown.recorded.applyCallRows fun connInfo hconn row hrow => ?_
    rw [mem_peerInfos_applyCallRows]
    cases connInfo with
    | connBitmap bitmap => exact .inl ⟨_, hconn, (mem_peerIds_of_row hrow).1⟩
    | connPeerList list =>
      rcases hcovers.source list hconn row hrow with hp | hp | hp
      · exact .inr (mem_peerInfos_recorded hp)
      · exact .inr (mem_peerInfos_updatePeerInfosLocked_ok hok hp)
      · exact .inl ⟨_, hconn, hp⟩
  refine ⟨hafter, bounded_of_rows hafter (fun p hp => ?_) hcopy.peers merged.conn hcopy.row
    hcopy.edges fun p => ?_⟩
  · rcases (mem_peerInfos_applyCallRows call _ p).mp hp with hp | hp
    · exact hcopy.ids p (.inr (.inr hp))
    · exact hcopy.mem_of_recorded hp
  · rw [row_applyCallRows, row_recorded, hcopy.conn]
    exact hcovers.trails.applyAll.level_or_blank

theorem bounded_updateWithAuthority (hknown : s.RowsKnown) (hbounded : s.Bounded)
    (hcovers : CheckCovers s call) :
    (updateWithAuthority codec s call).2.RowsKnown ∧
      (updateWithAuthority codec s call).2.Bounded := by
  rcases updateWithAuthority_cases codec s call with ⟨error, -, hupdate⟩ | ⟨hcheck, hcases⟩
  · rw [hupdate]
    exact ⟨hknown, hbounded⟩
  · obtain ⟨merged, hcopy⟩ := validate_ok hcheck
    rcases hcases with ⟨error, -, hupdate⟩ | ⟨hok, changed, hupdate⟩ <;> rw [hupdate]
    · exact ⟨hknown.recorded, bounded_recorded hknown hbounded hcopy⟩
    · exact bounded_applyCallRows hknown hcopy hcovers hok

end recorded

def updateStep (codec : WireCodec ρ) (s : SyncedRouteInfo ρ) (call : UpdateCall ρ) :
    SyncedRouteInfo ρ × List (Except SyncRouteInfoError Bool) :=
  let (result, s) := updateWithAuthority codec s call
  (s, [result])

/-- The limits hold after every sequence of updates whose checks cover them. -/
theorem route_state_bounded (codec : WireCodec ρ) (calls : List (UpdateCall ρ))
    (hcovers : Trace.Always (updateStep codec) (fun s _ call => CheckCovers s call) empty []
      calls) : (Trace.run (updateStep codec) empty calls).1.Bounded :=
  (Trace.run_invariant (I := fun s _ => s.RowsKnown ∧ s.Bounded)
    (fun _ _ _ h hcovers => bounded_updateWithAuthority h.1 h.2 hcovers)
    ⟨⟨fun _ h => absurd rfl h, fun _ _ h => by cases h⟩,
      Nat.zero_le _, fun _ _ h => (by cases h), Nat.zero_le _⟩ hcovers).2

def connCall (connInfo : ConnInfo) : UpdateCall RoutePeerInfo where
  myPeerId := 1
  myPeerRouteId := 1
  dstPeerId := 2
  peerInfos := []
  rawPeerInfos := []
  connInfo := some connInfo
  sourceHasTopologyAuthority := true
  now := 1
  grant _ := true

theorem route_state_bounded_pair : (Trace.run (updateStep recordCodec) empty
      [connCall (.connBitmap pairBitmap), connCall (.connPeerList pairList)]).1.Bounded := by
  refine route_state_bounded recordCodec _ ⟨⟨?_, ?_⟩, ⟨⟨?_, ?_⟩, trivial⟩⟩
  · intro list hlist
    cases hlist
  · exact fun hauthority => by cases hauthority
  · intro list hlist row hrow
    obtain rfl : pairList = list := connPeerList.inj (Option.some.inj hlist)
    exact .inr (.inr ((by decide +kernel : ∀ row ∈ pairList.rows,
      ∃ other ∈ pairList.rows, row.1.peerId ∈ other.2) row hrow))
  · exact fun hauthority => by cases hauthority

/-! ## Sources without records -/

def isolated (ids : List PeerId) : RouteConnPeerList := ⟨ids.map fun p => ⟨some ⟨p, 1⟩, []⟩⟩

variable {ids : List PeerId}

theorem checkIsolated_ok (scan : ListScan) (hnodup : ids.Nodup)
    (hfresh : ∀ p ∈ ids, p ∉ scan.sourceIds) (hedges : scan.edgeCount = 0)
    (hcount : scan.nodeIds.card + ids.length ≤ MAX_ROUTE_SYNC_PEERS) :
    ∃ last, (isolated ids).peerConnInfos.foldlM checkListSource scan = .ok last := by
  induction ids generalizing scan with
  | nil => exact ⟨scan, rfl⟩
  | cons p ids ih =>
    obtain ⟨hp, hrest⟩ := nodup_cons.mp hnodup
    have hcard : (insert p scan.nodeIds).card ≤ scan.nodeIds.card + 1 :=
      Finset.card_insert_le p scan.nodeIds
    rw [length_cons] at hcount
    have hsource : checkListSource scan ⟨some ⟨p, 1⟩, []⟩ =
        .ok ⟨insert p scan.sourceIds, insert p scan.nodeIds, 0⟩ := by
      have hnodes : insert p scan.nodeIds ∪ ([] : List PeerId).toFinset =
          insert p scan.nodeIds := by simp
      simp only [checkListSource, length_nil, hedges, hnodes]
      rw [if_neg (hfresh p mem_cons_self), if_neg (by decide), if_neg (by decide),
        if_neg (by simp), if_neg (by omega)]
    have hothers : ∀ q ∈ ids, q ∉ insert p scan.sourceIds := by
      intro q hq
      rw [Finset.mem_insert, not_or]
      exact ⟨fun heq => hp (heq ▸ hq), hfresh q (mem_cons_of_mem p hq)⟩
    obtain ⟨last, hlast⟩ := ih ⟨insert p scan.sourceIds, insert p scan.nodeIds, 0⟩ hrest hothers
      rfl (by dsimp only; omega)
    exact ⟨last, foldlM_cons_eq_ok.mpr ⟨_, hsource, hlast⟩⟩

theorem validate_isolated (hnodup : ids.Nodup) (hcount : ids.length ≤ MAX_ROUTE_SYNC_PEERS) :
    validateRouteConnInfo (.connPeerList (isolated ids)) = .ok () := by
  obtain ⟨last, hlast⟩ := checkIsolated_ok ⟨∅, ∅, 0⟩ hnodup (fun p _ => Finset.notMem_empty p) rfl
    (by simpa using hcount)
  rw [validateRouteConnInfo, validateConnPeerList, if_neg (by simpa [isolated] using hcount), hlast]
  rfl

/-- The copy of a state without records and without edges, after some isolated sources. -/
structure Edgeless (ids : Finset PeerId) (merged : MergedRouteState) : Prop where
  peerIds : merged.peerIds ⊆ ids
  rows : ∀ p held, merged.conn.lookup p = some held → held.2 = .empty

theorem mergeIsolated_ok {ids : Finset PeerId} (hids : ids.card ≤ MAX_ROUTE_SYNC_PEERS)
    (hpeers : ∀ p ∈ peers, p ∈ ids) (merged : MergedRouteState) (h : Edgeless ids merged) :
    ∃ merged', (isolated peers).peerConnInfos.foldlM mergeListSource merged = .ok merged' ∧
      Edgeless ids merged' := by
  induction peers generalizing merged with
  | nil => exact ⟨merged, rfl, h⟩
  | cons p peers ih =>
    have hsubset : insert p merged.peerIds ⊆ ids :=
      Finset.insert_subset (hpeers p mem_cons_self) h.peerIds
    have hadd : addPeerId merged p = .ok { merged with peerIds := insert p merged.peerIds } := by
      exact if_neg (not_lt.mpr ((Finset.card_le_card hsubset).trans hids))
    have hsource : mergeListSource merged ⟨some ⟨p, 1⟩, []⟩ = .ok (replaceMergedRow
        { merged with peerIds := insert p merged.peerIds } (⟨p, 1⟩, .empty)) := by
      rw [mergeListSource]
      dsimp only
      rw [hadd]
      rfl
    have hedgeless : Edgeless ids (replaceMergedRow
        { merged with peerIds := insert p merged.peerIds } (⟨p, 1⟩, .empty)) := by
      unfold replaceMergedRow
      split_ifs
      · exact ⟨hsubset, forall_lookup_insert h.rows rfl⟩
      · exact ⟨hsubset, h.rows⟩
    obtain ⟨merged', hrest, hlast⟩ := ih (fun q hq => hpeers q (mem_cons_of_mem p hq)) _ hedgeless
    exact ⟨merged', foldlM_cons_eq_ok.mpr ⟨_, hsource, hrest⟩, hlast⟩

theorem countEdges_edgeless
    (h : ∀ entry ∈ entries, entry.2.2 = .empty) : entries.foldlM countEdges 0 = .ok 0 := by
  induction entries with
  | nil => rfl
  | cons entry entries ih =>
    refine foldlM_cons_eq_ok.mpr ⟨0, ?_, ih fun other hother => h other (by simp [hother])⟩
    rw [countEdges, h entry mem_cons_self]
    rfl

/-- In a state without records and edges the check sees only the sources of the call. -/
theorem validateMerged_isolated (hrecords : ∀ p, p ∉ s.peerInfos)
    (hrows : ∀ p held, s.row p = some held → held.2 = .empty)
    (hcount : ids.length ≤ MAX_ROUTE_SYNC_PEERS) :
    s.validateMergedRouteStateLocked [] (some (.connPeerList (isolated ids))) = .ok () := by
  have hcard : ids.toFinset.card ≤ MAX_ROUTE_SYNC_PEERS := (toFinset_card_le ids).trans hcount
  have hstart : Edgeless ids.toFinset (s.currentMerged []) := by
    refine ⟨fun p hp => ?_, fun p held hheld => hrows p held ?_⟩
    · simp only [currentMerged, map_nil, toFinset_nil, Finset.union_empty, mem_toFinset] at hp
      exact absurd hp (hrecords p)
    · rw [currentMerged, lookup_mapValues] at hheld
      exact hheld
  obtain ⟨merged, hmerged, hedgeless⟩ := mergeIsolated_ok hcard
    (fun p hp => mem_toFinset.mpr hp) _ hstart
  have hsmall : ¬merged.peerIds.card > MAX_ROUTE_SYNC_PEERS :=
    not_lt.mpr ((Finset.card_le_card hedgeless.peerIds).trans hcard)
  refine bind_eq_ok.mpr ⟨merged, hmerged, ?_⟩
  rw [if_neg hsmall, countEdges_edgeless fun entry hentry =>
    hedgeless.rows entry.1 entry.2 (mem_lookup_iff.mpr hentry)]
  rfl

theorem mem_rows_isolated : row ∈ (isolated ids).rows ↔ ∃ p ∈ ids, row = (⟨p, 1⟩, .empty) := by
  simp only [RouteConnPeerList.rows, isolated, mem_filterMap, mem_map,
    exists_exists_and_eq_and, Option.map_some, Option.some_inj]
  exact exists_congr fun p => and_congr_right fun _ => eq_comm

/-- Rows without neighbours for some sources, and no records. -/
structure OnlySources (sources : List PeerId) (s : SyncedRouteInfo ρ) : Prop where
  records : ∀ p, p ∉ s.peerInfos
  edgeless : ∀ p held, s.row p = some held → held.2 = .empty
  present : ∀ p ∈ sources, s.row p ≠ none

theorem OnlySources.update {s : SyncedRouteInfo RoutePeerInfo}
    (h : OnlySources sources s) (ids : List PeerId) (hcount : ids.length ≤ MAX_ROUTE_SYNC_PEERS) :
    OnlySources (sources ++ ids)
      (updateStep recordCodec s (connCall (.connPeerList (isolated ids)))).1 := by
  have hstate : (updateStep recordCodec s (connCall (.connPeerList (isolated ids)))).1 =
      s.updateConnInfoLocked 1 (.connPeerList (isolated ids)) := by
    have hcheck := validateMerged_isolated h.records h.edgeless hcount
    rw [updateStep, updateWithAuthority]
    dsimp only [connCall]
    rw [hcheck]
    rfl
  have houtcome : ∀ p, _ := fun p => outcome_applyAll .empty (s.row p)
    ((connPeerList (isolated ids)).events p)
  simp only [← row_updateConnInfoLocked s 1] at houtcome
  rw [hstate]
  refine ⟨fun p hp => ?_, fun p held hheld => ?_, fun p hp => ?_⟩
  · rcases (mem_peerInfos_updateConnInfoLocked s 1 _ p).mp hp with ⟨row, hrow, hp⟩ | hp
    · obtain ⟨q, -, rfl⟩ := mem_rows_isolated.mp hrow
      exact not_mem_empty hp
    · exact h.records p hp
  · rcases (houtcome p).origin with hold | ⟨version, connected, hoffer, hnew⟩ | ⟨-, -, hblank⟩
    · exact h.edgeless p held (hold.symm.trans hheld)
    · obtain ⟨q, -, hrow⟩ := mem_rows_isolated.mp (offer_mem_events.mp hoffer)
      obtain rfl := Option.some.inj (hnew.symm.trans hheld)
      exact (Prod.mk.inj hrow).2
    · obtain rfl := Option.some.inj (hblank.symm.trans hheld)
      rfl
  · refine Option.ne_none_iff_exists'.mpr ?_
    rcases mem_append.mp hp with hp | hp
    · obtain ⟨held, hheld⟩ := Option.ne_none_iff_exists'.mp (h.present p hp)
      obtain ⟨held', hheld', -⟩ := (houtcome p).start_le held hheld
      exact ⟨held', hheld'⟩
    · have hoffer : Event.offer 1 .empty ∈ (connPeerList (isolated ids)).events p :=
        offer_mem_events.mpr (mem_rows_isolated.mpr ⟨p, hp, rfl⟩)
      obtain ⟨held', hheld', -⟩ := (houtcome p).offer_le 1 .empty hoffer
      exact ⟨held', hheld'⟩

theorem OnlySources.length_le
    (h : OnlySources sources s) (hnodup : sources.Nodup) : sources.length ≤ s.peerIds.card := by
  rw [← toFinset_card_of_nodup hnodup]
  refine Finset.card_le_card fun p hp => ?_
  have hrow := row_ne_none.mp (h.present p (mem_toFinset.mp hp))
  exact Finset.mem_union_left _ (Finset.mem_union_right _ (mem_toFinset.mpr hrow))

def isolatedCalls (first : List PeerId) (last : PeerId) : List (UpdateCall RoutePeerInfo) :=
  [connCall (.connPeerList (isolated first)), connCall (.connPeerList (isolated [last]))]

theorem one_le_peers : 1 ≤ MAX_ROUTE_SYNC_PEERS := by decide

theorem isolatedCalls_accepted {last : PeerId}
    (hlength : first.length ≤ MAX_ROUTE_SYNC_PEERS) (hnodup : first.Nodup) :
    ∀ call ∈ isolatedCalls first last, ∀ connInfo ∈ call.connInfo,
      validateRouteConnInfo connInfo = .ok () := by
  intro call hcall connInfo hconn
  rcases mem_cons.mp hcall with rfl | hcall
  · cases hconn
    exact validate_isolated hnodup hlength
  · obtain rfl := mem_singleton.mp hcall
    cases hconn
    exact validate_isolated (nodup_singleton _) one_le_peers

/-- Sources get rows but no records, so that the next check does not count them. -/
theorem length_le_of_isolatedCalls {last : PeerId}
    (hlength : first.length ≤ MAX_ROUTE_SYNC_PEERS) (hnodup : (first ++ [last]).Nodup) :
    first.length + 1 ≤
      (Trace.run (updateStep recordCodec) empty (isolatedCalls first last)).1.peerIds.card := by
  have hstart : OnlySources [] (empty : SyncedRouteInfo RoutePeerInfo) :=
    ⟨fun p => notMem_empty p, fun p held hheld => (by cases hheld),
      fun p hp => absurd hp not_mem_nil⟩
  have hlast := (hstart.update first hlength).update [last] one_le_peers
  have hcount := hlast.length_le hnodup
  rw [length_append, length_singleton] at hcount
  exact hcount

theorem nodup_map_ofNat {n : Nat} (h : n ≤ 2 ^ 32) : ((range n).map UInt32.ofNat).Nodup := by
  refine List.Nodup.map_on (fun i hi j hj heq => ?_) nodup_range
  have hi' := mem_range.mp hi
  have hj' := mem_range.mp hj
  have hnat := congrArg UInt32.toNat heq
  rw [UInt32.toNat_ofNat', UInt32.toNat_ofNat', Nat.mod_eq_of_lt (by omega),
    Nat.mod_eq_of_lt (by omega)] at hnat
  exact hnat

theorem isolated_sources_unbounded :
    (∀ call ∈ isolatedCalls ((List.range MAX_ROUTE_SYNC_PEERS).map UInt32.ofNat)
        (UInt32.ofNat MAX_ROUTE_SYNC_PEERS), ∀ connInfo ∈ call.connInfo,
      validateRouteConnInfo connInfo = .ok ()) ∧
    ¬(Trace.run (updateStep recordCodec) empty
      (isolatedCalls ((List.range MAX_ROUTE_SYNC_PEERS).map UInt32.ofNat)
        (UInt32.ofNat MAX_ROUTE_SYNC_PEERS))).1.Bounded := by
  have hlength : ((range MAX_ROUTE_SYNC_PEERS).map UInt32.ofNat).length = MAX_ROUTE_SYNC_PEERS := by
    rw [length_map, length_range]
  have hnodup : ((range MAX_ROUTE_SYNC_PEERS).map UInt32.ofNat ++
      [UInt32.ofNat MAX_ROUTE_SYNC_PEERS]).Nodup := by
    rw [← map_singleton, ← map_append, ← range_succ]
    exact nodup_map_ofNat (by decide)
  refine ⟨isolatedCalls_accepted hlength.le (nodup_append.mp hnodup).1, fun hbounded => ?_⟩
  have hcard := (length_le_of_isolatedCalls hlength.le hnodup).trans hbounded.peers
  rw [hlength] at hcard
  exact Nat.not_succ_le_self _ hcard

end SyncedRouteInfo

end LowerTier.Peers.OspfRoute
