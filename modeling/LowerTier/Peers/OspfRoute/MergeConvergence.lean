import LowerTier.Peers.OspfRoute.SyncedRouteInfo
import LowerTier.ProofSupport.VersionedRegister

/-!
# Merging connection updates converges

Seen from one peer, an update of the connection map is a list of events on a versioned register:
the peer is mentioned as a neighbour or offered as a source.  The rows that a set of updates
leaves therefore do not depend on the order in which they arrive, on repetitions, or on the
encoding that carried them.  Times of arrival are not part of a row.
-/

namespace LowerTier.Peers.OspfRoute

open ConnInfo SyncedRouteInfo AList List ProofSupport Tunnel OrderedSet VersionedRegister
open ProofSupport.VersionedRegister (Event applyAll applyAll_append)

abbrev ConnRow := PeerIdVersion × OrderedSet PeerId

def ConnInfo.rows : ConnInfo → List ConnRow
  | .connBitmap bitmap => bitmap.rows
  | .connPeerList list => list.rows

def ConnInfo.Mentions (connInfo : ConnInfo) (p : PeerId) : Prop :=
  match connInfo with
  | .connBitmap bitmap => p ∈ bitmap.peerIds.map (·.peerId)
  | .connPeerList list => ∃ row ∈ list.rows, p ∈ row.2

/-- What happens to the row of `p` when `peers` are filled in. -/
def mentionEvents (p : PeerId) (peers : OrderedSet PeerId) : List (Event (OrderedSet PeerId)) :=
  if p ∈ peers then [.mention] else []

def rowEvents (p : PeerId) (row : ConnRow) : List (Event (OrderedSet PeerId)) :=
  mentionEvents p row.2 ++
    if row.1.peerId = p then [.offer row.1.version row.2] else []

def ConnInfo.events (connInfo : ConnInfo) (p : PeerId) : List (Event (OrderedSet PeerId)) :=
  match connInfo with
  | .connBitmap bitmap =>
    mentionEvents p (.ofList (bitmap.peerIds.map (·.peerId))) ++
      bitmap.rows.flatMap (rowEvents p)
  | .connPeerList list => list.rows.flatMap (rowEvents p)

variable {bitmap : RouteConnBitmap} (updates : List (Nat × ConnInfo)) (q p : PeerId)
  (peers : OrderedSet PeerId) (rows : List ConnRow)

namespace SyncedRouteInfo

variable {ρ : Type}

def row (s : SyncedRouteInfo ρ) (p : PeerId) : Option (Nat × OrderedSet PeerId) :=
  (s.connMap.lookup p).map fun info => (info.version, info.connectedPeers)

def applyUpdates (s : SyncedRouteInfo ρ) (updates : List (Nat × ConnInfo)) : SyncedRouteInfo ρ :=
  updates.foldl (fun s update => s.updateConnInfoLocked update.1 update.2) s

/-! ## Filling in and offering, at one peer -/

variable (s : SyncedRouteInfo ρ)

@[simp] theorem row_incVersionIf (b : Bool) (p : PeerId) : (s.incVersionIf b).row p = s.row p := by
  cases b <;> rfl

@[simp] theorem peerInfos_incVersionIf (b : Bool) : (s.incVersionIf b).peerInfos = s.peerInfos := by
  cases b <;> rfl

variable (now : Nat) (filled : Bool × SyncedRouteInfo ρ)

@[simp] theorem connMap_fillRecord (q : PeerId) :
    (fillRecord now filled q).2.connMap = filled.2.connMap := by
  unfold fillRecord
  split_ifs <;> rfl

@[simp] theorem peerInfos_fillRow (q : PeerId) :
    (fillRow now filled q).2.peerInfos = filled.2.peerInfos := by
  unfold fillRow
  split_ifs <;> rfl

theorem row_fillRow :
    (fillRow now filled q).2.row p =
      if p = q then apply .empty (filled.2.row p) .mention else filled.2.row p := by
  unfold fillRow
  split_ifs with hrow hpq hpq
  · subst hpq
    obtain ⟨info, hinfo⟩ := Option.isSome_iff_exists.mp (lookup_isSome.mpr hrow)
    rw [row, hinfo]
    rfl
  · rfl
  · subst hpq
    rw [row, row, lookup_insert, lookup_eq_none.mpr hrow]
    rfl
  · rw [row, row, lookup_insert_ne hpq]

theorem row_fillOne :
    (fillOne now filled q).2.row p =
      if p = q then apply .empty (filled.2.row p) .mention else filled.2.row p := by
  have hrecord : (fillRecord now filled q).2.row p = filled.2.row p := by
    rw [row, row, connMap_fillRecord]
  rw [fillOne, row_fillRow, hrecord]

theorem mem_peerInfos_fillOne :
    p ∈ (fillOne now filled q).2.peerInfos ↔ p = q ∨ p ∈ filled.2.peerInfos := by
  rw [fillOne, peerInfos_fillRow]
  unfold fillRecord
  split_ifs with hrecord
  · exact ⟨.inr, fun h => h.elim (fun hp => hp ▸ hrecord) id⟩
  · exact mem_insert filled.2.peerInfos

theorem row_foldl_fillOne (peers : List PeerId) (p : PeerId) :
    (peers.foldl (fillOne now) filled).2.row p =
      applyAll .empty (filled.2.row p) (if p ∈ peers then [.mention] else []) := by
  induction peers generalizing filled with
  | nil => rfl
  | cons q peers ih =>
    rw [foldl_cons, ih, row_fillOne]
    by_cases hpq : p = q
    · subst hpq
      rw [if_pos rfl, if_pos mem_cons_self]
      -- a second mention changes nothing
      split_ifs <;> rfl
    · simp [hpq]

theorem mem_peerInfos_foldl_fillOne (peers : List PeerId) (p : PeerId) :
    p ∈ (peers.foldl (fillOne now) filled).2.peerInfos ↔ p ∈ peers ∨ p ∈ filled.2.peerInfos := by
  induction peers generalizing filled with
  | nil => simp
  | cons q peers ih =>
    rw [foldl_cons, ih, mem_peerInfos_fillOne, mem_cons]
    tauto

theorem row_fillEmptyPeerInfo (p : PeerId) :
    (s.fillEmptyPeerInfo now peers).row p = applyAll .empty (s.row p) (mentionEvents p peers) := by
  rw [fillEmptyPeerInfo, row_incVersionIf, fillEmptyPeerInfoLocked, row_foldl_fillOne]
  simp only [mentionEvents, mem_toList]

theorem mem_peerInfos_fillEmptyPeerInfo (p : PeerId) :
    p ∈ (s.fillEmptyPeerInfo now peers).peerInfos ↔ p ∈ peers ∨ p ∈ s.peerInfos := by
  rw [fillEmptyPeerInfo, peerInfos_incVersionIf]
  exact mem_peerInfos_foldl_fillOne now (false, s) peers.toList p

theorem row_updateConnInfoOnePeer (source : PeerIdVersion)
    (connected : OrderedSet PeerId) (p : PeerId) :
    (s.updateConnInfoOnePeer now source connected).2.row p = applyAll .empty (s.row p)
        (if source.peerId = p then [.offer source.version connected] else []) := by
  unfold updateConnInfoOnePeer
  by_cases hp : source.peerId = p
  · subst hp
    have hheld : ((s.row source.peerId).all fun held => held.1 < source.version) =
        (s.connMap.lookup source.peerId).all fun old => old.version < source.version :=
      Option.all_map
    rw [if_pos rfl]
    change _ = apply .empty (s.row source.peerId) (.offer source.version connected)
    rw [apply, hheld]
    by_cases hnewer : (s.connMap.lookup source.peerId).all fun old => old.version < source.version
    · rw [if_pos hnewer, if_pos hnewer, row, lookup_insert]
      rfl
    · rw [if_neg hnewer, if_neg hnewer]
  · split_ifs
    · rw [row, lookup_insert_ne (Ne.symm hp)]
      rfl
    · rfl

theorem row_updateConnRows (p : PeerId) :
    (s.updateConnRows now rows).row p = applyAll .empty (s.row p) (rows.flatMap (rowEvents p)) := by
  have hfold : ∀ updated : Bool × SyncedRouteInfo ρ,
      (rows.foldl (updateConnRow now) updated).2.row p =
        applyAll .empty (updated.2.row p) (rows.flatMap (rowEvents p)) := by
    induction rows with
    | nil => exact fun _ => rfl
    | cons row rows ih =>
      intro updated
      rw [foldl_cons, ih, flatMap_cons, applyAll_append, rowEvents, applyAll_append,
        ← row_fillEmptyPeerInfo, ← row_updateConnInfoOnePeer]
      rfl
  rw [updateConnRows, row_incVersionIf, hfold]

theorem mem_peerInfos_updateConnRows (p : PeerId) :
    p ∈ (s.updateConnRows now rows).peerInfos ↔ (∃ row ∈ rows, p ∈ row.2) ∨ p ∈ s.peerInfos := by
  have hfold : ∀ updated : Bool × SyncedRouteInfo ρ,
      p ∈ (rows.foldl (updateConnRow now) updated).2.peerInfos ↔
        (∃ row ∈ rows, p ∈ row.2) ∨ p ∈ updated.2.peerInfos := by
    induction rows with
    | nil => simp
    | cons row rows ih =>
      intro updated
      have hrow : (updateConnRow now updated row).2.peerInfos =
          (updated.2.fillEmptyPeerInfo now row.2).peerInfos := by
        unfold updateConnRow updateConnInfoOnePeer
        split_ifs <;> rfl
      rw [foldl_cons, ih, hrow, mem_peerInfos_fillEmptyPeerInfo, exists_mem_cons_iff]
      exact or_left_comm.trans or_assoc.symm
  rw [updateConnRows, peerInfos_incVersionIf, hfold]

theorem row_updateConnInfoLocked (connInfo : ConnInfo) (p : PeerId) :
    (s.updateConnInfoLocked now connInfo).row p =
      applyAll .empty (s.row p) (connInfo.events p) := by
  cases connInfo with
  | connBitmap bitmap =>
    rw [updateConnInfoLocked, updateConnInfoWithBitmap, row_updateConnRows,
      row_fillEmptyPeerInfo, events, applyAll_append]
  | connPeerList list =>
    rw [updateConnInfoLocked, updateConnInfoWithList, row_updateConnRows, events]

theorem mem_peerIds_of_row {row : ConnRow} (hrow : row ∈ bitmap.rows) :
    row.1.peerId ∈ bitmap.peerIds.map (·.peerId) ∧
      ∀ p ∈ row.2, p ∈ bitmap.peerIds.map (·.peerId) := by
  obtain ⟨entry, hentry, rfl⟩ := mem_map.mp hrow
  exact ⟨mem_map_of_mem (fst_mem_of_mem_zipIdx hentry),
    fun p hp => RouteConnBitmap.mem_getConnectedPeers hp⟩

theorem mem_peerInfos_updateConnInfoLocked (connInfo : ConnInfo) (p : PeerId) :
    p ∈ (s.updateConnInfoLocked now connInfo).peerInfos ↔
      connInfo.Mentions p ∨ p ∈ s.peerInfos := by
  cases connInfo with
  | connBitmap bitmap =>
    rw [updateConnInfoLocked, updateConnInfoWithBitmap, mem_peerInfos_updateConnRows,
      mem_peerInfos_fillEmptyPeerInfo, mem_ofList, ← or_assoc, ConnInfo.Mentions]
    refine or_congr ⟨?_, .inr⟩ Iff.rfl
    rintro (⟨row, hrow, hp⟩ | hp)
    · exact (mem_peerIds_of_row hrow).2 p hp
    · exact hp
  | connPeerList list =>
    rw [updateConnInfoLocked, updateConnInfoWithList, mem_peerInfos_updateConnRows,
      ConnInfo.Mentions]

theorem row_applyUpdates (p : PeerId) :
    (s.applyUpdates updates).row p =
      applyAll .empty (s.row p) (updates.flatMap fun update => update.2.events p) := by
  induction updates generalizing s with
  | nil => rfl
  | cons update updates ih =>
    rw [applyUpdates, foldl_cons, flatMap_cons, applyAll_append,
      ← row_updateConnInfoLocked _ update.1]
    exact ih _

theorem mem_peerInfos_applyUpdates (p : PeerId) :
    p ∈ (s.applyUpdates updates).peerInfos ↔
      (∃ update ∈ updates, update.2.Mentions p) ∨ p ∈ s.peerInfos := by
  induction updates generalizing s with
  | nil => simp [applyUpdates]
  | cons update updates ih =>
    have hrest := ih (s.updateConnInfoLocked update.1 update.2)
    rw [mem_peerInfos_updateConnInfoLocked] at hrest
    rw [exists_mem_cons_iff]
    exact hrest.trans (or_left_comm.trans or_assoc.symm)

end SyncedRouteInfo

/-! ## Convergence -/

variable {p : PeerId} {connected : OrderedSet PeerId}

variable {version : Nat}

theorem offer_notMem_mentionEvents : Event.offer version connected ∉ mentionEvents p peers := by
  unfold mentionEvents
  split_ifs <;> simp

theorem offer_mem_rowEvents {row : ConnRow} :
    Event.offer version connected ∈ rowEvents p row ↔ row = (⟨p, version⟩, connected) := by
  obtain ⟨⟨q, rowVersion⟩, neighbours⟩ := row
  have hmention : Event.offer version connected ∉ mentionEvents p neighbours :=
    offer_notMem_mentionEvents neighbours
  rw [rowEvents, mem_append]
  by_cases hq : q = p
  · subst hq
    simp [hmention, eq_comm]
  · simp [hmention, hq]

/-- The offers that a connection update makes to a peer are its rows for that peer. -/
theorem ConnInfo.offer_mem_events {connInfo : ConnInfo} :
    Event.offer version connected ∈ connInfo.events p ↔
      (⟨p, version⟩, connected) ∈ connInfo.rows := by
  have hrows : ∀ rows : List ConnRow, Event.offer version connected ∈ rows.flatMap (rowEvents p) ↔
      (⟨p, version⟩, connected) ∈ rows := by
    intro rows
    rw [mem_flatMap]
    constructor
    · rintro ⟨row, hrow, hoffer⟩
      rwa [← offer_mem_rowEvents.mp hoffer]
    · exact fun hrow => ⟨_, hrow, offer_mem_rowEvents.mpr rfl⟩
  cases connInfo with
  | connBitmap bitmap =>
    rw [events, mem_append, hrows]
    exact ⟨fun h => h.resolve_left (offer_notMem_mentionEvents _), .inr⟩
  | connPeerList list => exact hrows list.rows

/-- Rows of one peer and version are equal, and no row has the version of a placeholder. -/
structure ConsistentRows (updates : List ConnInfo) : Prop where
  agree : ∀ connInfo ∈ updates, ∀ connInfo' ∈ updates, ∀ row ∈ connInfo.rows,
    ∀ row' ∈ connInfo'.rows, row.1 = row'.1 → row.2 = row'.2
  pos : ∀ connInfo ∈ updates, ∀ row ∈ connInfo.rows, 1 ≤ row.1.version

theorem mem_flatMap_events (updates : List (Nat × ConnInfo)) (p : PeerId)
    (event : Event (OrderedSet PeerId)) :
    event ∈ updates.flatMap (fun update => update.2.events p) ↔
      ∃ connInfo ∈ updates.map Prod.snd, event ∈ connInfo.events p := by
  simp only [mem_flatMap, mem_map, exists_exists_and_eq_and]

theorem ConsistentRows.events {updates : List (Nat × ConnInfo)}
    (h : ConsistentRows (updates.map Prod.snd)) (p : PeerId) :
    VersionedRegister.Consistent (updates.flatMap fun update => update.2.events p) := by
  refine ⟨fun version connected connected' hoffer hoffer' => ?_, fun version connected hoffer => ?_⟩
  · obtain ⟨connInfo, hconn, hmem⟩ := (mem_flatMap_events _ p _).mp hoffer
    obtain ⟨connInfo', hconn', hmem'⟩ := (mem_flatMap_events _ p _).mp hoffer'
    exact h.agree connInfo hconn connInfo' hconn' _ (offer_mem_events.mp hmem) _
      (offer_mem_events.mp hmem') rfl
  · obtain ⟨connInfo, hconn, hmem⟩ := (mem_flatMap_events _ p _).mp hoffer
    exact h.pos connInfo hconn _ (offer_mem_events.mp hmem)

/-- The row of a peer after some updates is the one of highest version among its row before
them and the rows that they carry, or a placeholder where there is none. -/
structure HighestRow {ρ : Type} (s : SyncedRouteInfo ρ) (updates : List ConnInfo) (p : PeerId)
    (row : Option (Nat × OrderedSet PeerId)) : Prop where
  origin : row = s.row p ∨
    (∃ connInfo ∈ updates, ∃ version connected,
      (⟨p, version⟩, connected) ∈ connInfo.rows ∧ row = some (version, connected)) ∨
    s.row p = none ∧ row = some (0, .empty)
  start_le : ∀ held ∈ s.row p, ∃ held' ∈ row, held.1 ≤ held'.1
  offer_le : ∀ connInfo ∈ updates, ∀ version connected,
    (⟨p, version⟩, connected) ∈ connInfo.rows → ∃ held ∈ row, version ≤ held.1

theorem highestRow_applyUpdates {ρ : Type} (s : SyncedRouteInfo ρ) (updates : List (Nat × ConnInfo))
    (p : PeerId) : HighestRow s (updates.map Prod.snd) p ((s.applyUpdates updates).row p) := by
  have houtcome := outcome_applyAll .empty (s.row p)
    (updates.flatMap fun update => update.2.events p)
  rw [← row_applyUpdates] at houtcome
  refine ⟨?_, houtcome.start_le, ?_⟩
  · rcases houtcome.origin with hstart | ⟨version, connected, hoffer, hrow⟩ | ⟨hnone, -, hrow⟩
    · exact .inl hstart
    · obtain ⟨connInfo, hconn, hmem⟩ := (mem_flatMap_events _ p _).mp hoffer
      exact .inr (.inl ⟨connInfo, hconn, version, connected, offer_mem_events.mp hmem, hrow⟩)
    · exact .inr (.inr ⟨hnone, hrow⟩)
  · intro connInfo hconn version connected hmem
    exact houtcome.offer_le version connected
      ((mem_flatMap_events _ p _).mpr ⟨connInfo, hconn, offer_mem_events.mpr hmem⟩)

/-! ## The two encodings -/

theorem nodup_of_firstDuplicate_none {seen : Finset PeerId} {peers : List PeerId}
    (h : firstDuplicate seen peers = none) : peers.Nodup ∧ ∀ p ∈ peers, p ∉ seen := by
  induction peers generalizing seen with
  | nil => simp
  | cons q peers ih =>
    rw [firstDuplicate] at h
    split_ifs at h with hq
    obtain ⟨hnodup, hfresh⟩ := ih h
    refine ⟨nodup_cons.mpr ⟨fun hmem => ?_, hnodup⟩, fun p hp => ?_⟩
    · exact hfresh q hmem (Finset.mem_insert_self q seen)
    · rcases mem_cons.mp hp with rfl | hp
      · exact hq
      · exact fun hseen => hfresh p hp (Finset.mem_insert_of_mem hseen)

theorem firstDuplicate_of_validate (h : validateConnBitmap bitmap = .ok ()) :
    firstDuplicate ∅ (bitmap.peerIds.map (·.peerId)) = none := by
  cases hduplicate : firstDuplicate ∅ (bitmap.peerIds.map (·.peerId)) with
  | some peerId =>
    rw [validateConnBitmap, hduplicate] at h
    split_ifs at h
  | none => rfl

theorem nodup_peerIds_of_validate (h : validateConnBitmap bitmap = .ok ()) :
    (bitmap.peerIds.map (·.peerId)).Nodup :=
  (nodup_of_firstDuplicate_none (firstDuplicate_of_validate h)).1

theorem bitmap_rows_agree (h : validateConnBitmap bitmap = .ok ())
    {row row' : ConnRow} (hrow : row ∈ bitmap.rows) (hrow' : row' ∈ bitmap.rows)
    (hsource : row.1.peerId = row'.1.peerId) : row = row' := by
  obtain ⟨entry, hentry, rfl⟩ := mem_map.mp hrow
  obtain ⟨entry', hentry', rfl⟩ := mem_map.mp hrow'
  have hidx := mem_zipIdx_iff_getElem?.mp hentry
  have hidx' := mem_zipIdx_iff_getElem?.mp hentry'
  -- the peers are distinct, so that one position holds both
  have hposition : entry.2 = entry'.2 := by
    refine (getElem?_inj ?_ (nodup_peerIds_of_validate h)).mp ?_
    · rw [length_map]
      exact (List.getElem?_eq_some_iff.mp hidx).1
    · simp only [getElem?_map, hidx, hidx', Option.map_some]
      exact congrArg some hsource
  have hversion : entry.1 = entry'.1 := by
    rw [hposition] at hidx
    exact Option.some.inj (hidx.symm.trans hidx')
  rw [hposition, hversion]

theorem exists_row_of_mem_peerIds
    (hp : p ∈ bitmap.peerIds.map (·.peerId)) : ∃ row ∈ bitmap.rows, row.1.peerId = p := by
  obtain ⟨source, hmem, hsource⟩ := mem_map.mp hp
  obtain ⟨idx, hidx⟩ := mem_iff_getElem?.mp hmem
  exact ⟨(source, bitmap.getConnectedPeers idx),
    mem_map.mpr ⟨(source, idx), mem_zipIdx_iff_getElem?.mpr hidx, rfl⟩, hsource⟩

theorem bitmap_events_eq_nil :
    (connBitmap bitmap).events p = [] ↔ ∀ row ∈ bitmap.rows, row.1.peerId ≠ p := by
  constructor
  · intro hnil row hrow hp
    have hoffer : Event.offer row.1.version row.2 ∈ (connBitmap bitmap).events p :=
      offer_mem_events.mpr (hp ▸ hrow)
    rw [hnil] at hoffer
    cases hoffer
  · intro hsource
    have hids : p ∉ bitmap.peerIds.map (·.peerId) := by
      intro hp
      obtain ⟨row, hrow, hp⟩ := exists_row_of_mem_peerIds hp
      exact hsource row hrow hp
    refine append_eq_nil_iff.mpr ⟨?_, flatMap_eq_nil_iff.mpr fun row hrow => ?_⟩
    · rw [mentionEvents, if_neg (by rwa [mem_ofList])]
    · rw [rowEvents, if_neg (hsource row hrow), mentionEvents,
        if_neg fun hp => hids ((mem_peerIds_of_row hrow).2 p hp)]
      rfl

theorem list_events_eq_nil {list : RouteConnPeerList} :
    (connPeerList list).events p = [] ↔
      ∀ row ∈ list.rows, row.1.peerId ≠ p ∧ p ∉ row.2 := by
  refine flatMap_eq_nil_iff.trans (forall₂_congr fun row _ => ?_)
  rw [rowEvents, append_eq_nil_iff, mentionEvents]
  split_ifs with hp hsource hsource <;> simp [hp, hsource]

/-- A bitmap and a list with the same rows leave the same row for every peer. -/
theorem row_bitmap_eq_row_list {ρ : Type} (s : SyncedRouteInfo ρ)
    {list : RouteConnPeerList} (haccepted : validateConnBitmap bitmap = .ok ())
    (hsame : ∀ row, row ∈ bitmap.rows ↔ row ∈ list.rows)
    (hpos : ∀ row ∈ bitmap.rows, 1 ≤ row.1.version) (now now' : Nat) (p : PeerId) :
    (s.updateConnInfoLocked now (.connBitmap bitmap)).row p =
      (s.updateConnInfoLocked now' (.connPeerList list)).row p := by
  rw [row_updateConnInfoLocked, row_updateConnInfoLocked]
  apply applyAll_eq
  · refine ⟨fun version connected connected' hoffer hoffer' => ?_,
      fun version connected hoffer => ?_⟩
    · exact (Prod.mk.inj (bitmap_rows_agree haccepted (offer_mem_events.mp hoffer)
        (offer_mem_events.mp hoffer') rfl)).2
    · exact hpos _ (offer_mem_events.mp hoffer)
  · intro version connected
    rw [offer_mem_events, offer_mem_events]
    exact hsame _
  · rw [bitmap_events_eq_nil, list_events_eq_nil]
    refine ⟨fun hnone row hrow => ?_, fun hnone row hrow => (hnone row ((hsame row).mp hrow)).1⟩
    have hbitmap := (hsame row).mpr hrow
    refine ⟨hnone row hbitmap, fun hp => ?_⟩
    -- a neighbour in a bitmap has a row of its own
    obtain ⟨own, hown, hsource⟩ := exists_row_of_mem_peerIds ((mem_peerIds_of_row hbitmap).2 p hp)
    exact hnone own hown hsource

def pairBitmap : RouteConnBitmap := ⟨[⟨1, 3⟩, ⟨2, 5⟩], [0b0110]⟩

def pairList : RouteConnPeerList := ⟨[⟨some ⟨2, 5⟩, [1]⟩, ⟨some ⟨1, 3⟩, [2]⟩]⟩

end LowerTier.Peers.OspfRoute
