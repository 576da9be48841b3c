import LowerTier.Peers.OspfRoute.MergeConvergence
import LowerTier.Peers.OspfRoute.RecordUpdates
import LowerTier.ProofSupport.PartialRun

/-!
# The records that this node owns (`peers/peer_ospf_route.rs`)

A node publishes its own record, its own row and the foreign networks it serves.  Record and row
count their version up with every change.  The entry of a foreign network takes the larger of the
listed version plus one and the second of the clock, so that two changes within a second, or a
network that comes back in the second in which it was taken down, do not move its version.
-/

namespace LowerTier.Peers.OspfRoute

open AList Option List ProofSupport ProofSupport.MachineInt Tunnel KeyedMap PartialRun
open ProofSupport.VersionedRegister (Follows)

abbrev ForeignNetworkRouteInfoMap :=
  KeyedMap ForeignNetworkRouteInfoKey ForeignNetworkRouteInfoEntry

namespace ForeignNetworkRouteInfoEntry

def isNewer (next prev : ForeignNetworkRouteInfoEntry) : Option Bool :=
  match next.lastUpdate, prev.lastUpdate with
  | some next, some prev => some (decide (prev < next))
  | _, _ => none

def nowVersion (now : Nat) : Nat := now / 1000000000 % 2 ^ 32

def needRenew (now : Nat) (entry newEntry : ForeignNetworkRouteInfoEntry) : Bool :=
  match newEntry.isNewer entry with
  | some isNewer =>
    isNewer || decide (now - entry.lastUpdate.getD 0 > SyncedRouteInfo.UPDATE_PEER_INFO_PERIOD)
  | none => false

/-- The version of an entry that is replaced or taken down. -/
def nextVersion (now version : Nat) : Nat := max (wrappingAdd 32 version 1) (nowVersion now)

/-- What replaces a stored entry of this node, given what is listed for its network. -/
def renewal (now : Nat) (entry : ForeignNetworkRouteInfoEntry) :
    Option ForeignNetworkRouteInfoEntry → Option ForeignNetworkRouteInfoEntry
  | some newEntry =>
    if entry.needRenew now newEntry then
      some { newEntry with version := nextVersion now newEntry.version }
    else none
  | none =>
    if entry.foreignPeerIds.isEmpty then none
    else some { entry with
      foreignPeerIds := []
      lastUpdate := some now
      version := nextVersion now entry.version }

def content (entry : ForeignNetworkRouteInfoEntry) : ForeignNetworkRouteInfoEntry :=
  { entry with lastUpdate := none, version := 0 }

end ForeignNetworkRouteInfoEntry

namespace SyncedRouteInfo

open ForeignNetworkRouteInfoEntry (nowVersion nextVersion)

variable {ρ : Type}

def foreignRenewal (now : Nat) (listed networks : ForeignNetworkRouteInfoMap)
    (key : ForeignNetworkRouteInfoKey) : Option ForeignNetworkRouteInfoEntry :=
  (networks.lookup key).bind fun entry => entry.renewal now (listed.lookup key)

def renewForeignNetwork (now : Nat) (listed networks : ForeignNetworkRouteInfoMap)
    (key : ForeignNetworkRouteInfoKey) : ForeignNetworkRouteInfoMap :=
  match foreignRenewal now listed networks key with
  | some entry => networks.setInPlace key entry
  | none => networks

def addForeignNetwork (now : Nat) (listed networks : ForeignNetworkRouteInfoMap)
    (key : ForeignNetworkRouteInfoKey) : ForeignNetworkRouteInfoMap :=
  match listed.lookup key with
  | none => networks
  | some newEntry =>
    match networks.lookup key with
    | some entry =>
      if entry.version < newEntry.version then networks.setInPlace key newEntry else networks
    | none => networks.insert key { newEntry with version := nowVersion now }

/-- `update_my_foreign_network`; listed networks without peers panic. -/
def updateMyForeignNetwork (s : SyncedRouteInfo ρ) (now : Nat) (myPeerId : PeerId)
    (listed : ForeignNetworkRouteInfoMap) : Option (SyncedRouteInfo ρ) :=
  if listed.entries.any fun entry => entry.2.foreignPeerIds.isEmpty then none
  else
    let mine := s.foreignNetwork.keys.filter fun key => key.peerId = myPeerId
    let rest := listed.keys.filter fun key => key ∉ mine
    let updated := !rest.isEmpty ||
      mine.any fun key => (foreignRenewal now listed s.foreignNetwork key).isSome
    let renewed := mine.foldl (renewForeignNetwork now listed) s.foreignNetwork
    some (incVersionIf
      { s with foreignNetwork := rest.foldl (addForeignNetwork now listed) renewed } updated)

inductive LocalUpdate where
  | peerInfo (new : RoutePeerInfo) (othersDiffer : Bool)
  | connInfo (connectedPeers : OrderedSet PeerId)
  | foreignNetwork (listed : ForeignNetworkRouteInfoMap)

def updateLocal (myPeerId : PeerId) (s : SyncedRouteInfo ρ) (now : Nat) :
    LocalUpdate → Option (SyncedRouteInfo ρ)
  | .peerInfo new othersDiffer => some (s.updateMyPeerInfo now myPeerId new othersDiffer)
  | .connInfo connectedPeers => some (s.updateMyConnInfoLocked now myPeerId connectedPeers).2
  | .foreignNetwork listed => s.updateMyForeignNetwork now myPeerId listed

/-! ## What the calls leave of a stored value -/

variable {s : SyncedRouteInfo ρ} {now : Nat} {myPeerId : PeerId}
  (listed networks : ForeignNetworkRouteInfoMap)

theorem lookup_renewForeignNetwork (key : ForeignNetworkRouteInfoKey) :
    (renewForeignNetwork now listed networks key).lookup key =
      (networks.lookup key).map fun entry =>
        (entry.renewal now (listed.lookup key)).getD entry := by
  unfold renewForeignNetwork foreignRenewal
  cases hstored : networks.lookup key with
  | none =>
    exact hstored
  | some entry =>
    rw [bind_some]
    cases hrenewal : entry.renewal now (listed.lookup key) with
    | none => simp [hstored, hrenewal]
    | some replacement =>
      rw [lookup_setInPlace, hstored]
      simp [hrenewal]

variable {key other : ForeignNetworkRouteInfoKey}

theorem lookup_renewForeignNetwork_ne (hother : other ≠ key) :
    (renewForeignNetwork now listed networks key).lookup other = networks.lookup other := by
  unfold renewForeignNetwork
  split
  · rw [lookup_setInPlace]
    simp [hother]
  · rfl

theorem lookup_addForeignNetwork_ne (hother : other ≠ key) :
    (addForeignNetwork now listed networks key).lookup other = networks.lookup other := by
  unfold addForeignNetwork
  split
  · rfl
  split
  · split_ifs
    · rw [lookup_setInPlace]
      simp [hother]
    · rfl
  · exact lookup_insert_ne hother

theorem lookup_foldl_addForeignNetwork
    {keys : List ForeignNetworkRouteInfoKey} (hkey : key ∉ keys) :
    (keys.foldl (addForeignNetwork now listed) networks).lookup key = networks.lookup key := by
  induction keys generalizing networks with
  | nil => rfl
  | cons other keys ih =>
    rw [mem_cons, not_or] at hkey
    rw [foldl_cons, ih _ hkey.2, lookup_addForeignNetwork_ne listed networks hkey.1]

variable {t : SyncedRouteInfo ρ}

theorem lookup_updateMyForeignNetwork {listed : ForeignNetworkRouteInfoMap}
    (h : s.updateMyForeignNetwork now myPeerId listed = some t) (hkey : key.peerId = myPeerId)
    {entry : ForeignNetworkRouteInfoEntry} (hentry : s.foreignNetwork.lookup key = some entry) :
    t.foreignNetwork.lookup key = some ((entry.renewal now (listed.lookup key)).getD entry) := by
  have hmine : key ∈ s.foreignNetwork.keys.filter fun key => key.peerId = myPeerId := by
    rw [mem_filter, decide_eq_true_eq]
    exact ⟨lookup_isSome.mp (by rw [hentry]; rfl), hkey⟩
  unfold updateMyForeignNetwork at h
  split_ifs at h with hpanic
  cases h
  have hversion : ∀ (u : SyncedRouteInfo ρ) updated,
      (u.incVersionIf updated).foreignNetwork = u.foreignNetwork := by
    intro u updated
    cases updated <;> rfl
  have hrest : key ∉ listed.keys.filter fun key =>
      key ∉ s.foreignNetwork.keys.filter fun key => key.peerId = myPeerId := by
    intro hmem
    exact of_decide_eq_true (mem_filter.mp hmem).2 hmine
  have hloop := lookup_foldl_of_own_key (renewForeignNetwork now listed)
    (fun key stored => stored.map fun entry => (entry.renewal now (listed.lookup key)).getD entry)
    (lookup_renewForeignNetwork listed)
    (fun m _ _ hother => lookup_renewForeignNetwork_ne listed m hother)
    (s.foreignNetwork.keys_nodup.filter fun key => key.peerId = myPeerId) s.foreignNetwork key
  rw [if_pos hmine, hentry] at hloop
  rw [hversion]
  rw [lookup_foldl_addForeignNetwork listed _ hrest, hloop]
  rfl

variable {p : PeerId} {row : RouteConnInfo}

theorem lookup_connMap_fillOne {filled : Bool × SyncedRouteInfo ρ}
    (h : filled.2.connMap.lookup p = some row) (q : PeerId) :
    (fillOne now filled q).2.connMap.lookup p = some row := by
  rw [fillOne, fillRow]
  split_ifs with hmem
  · rw [connMap_fillRecord]
    exact h
  · have hne : p ≠ q := by
      rintro rfl
      exact hmem (lookup_isSome.mp (by rw [connMap_fillRecord, h]; rfl))
    exact (lookup_insert_ne hne).trans (by rw [connMap_fillRecord, h])

theorem lookup_connMap_fillEmptyPeerInfoLocked (now : Nat) (peerIds : OrderedSet PeerId)
    (h : s.connMap.lookup p = some row) :
    (s.fillEmptyPeerInfoLocked now peerIds).2.connMap.lookup p = some row :=
  foldlRecOn (motive := fun filled : Bool × SyncedRouteInfo ρ =>
    filled.2.connMap.lookup p = some row) _ _ h fun _ h q _ => lookup_connMap_fillOne h q

theorem foreignNetwork_fillEmptyPeerInfoLocked (s : SyncedRouteInfo ρ) (now : Nat)
    (peerIds : OrderedSet PeerId) :
    (s.fillEmptyPeerInfoLocked now peerIds).2.foreignNetwork = s.foreignNetwork := by
  refine foldlRecOn (motive := fun filled : Bool × SyncedRouteInfo ρ =>
    filled.2.foreignNetwork = s.foreignNetwork) _ _ rfl fun filled h q _ => h ▸ ?_
  unfold fillOne fillRow fillRecord
  split_ifs <;> rfl

inductive Owned where
  | info
  | row
  | network (networkName : String)
deriving DecidableEq

inductive OwnedContent where
  | info (content : RoutePeerInfo)
  | row (connectedPeers : OrderedSet PeerId)
  | network (content : ForeignNetworkRouteInfoEntry)

def published (myPeerId : PeerId) (s : SyncedRouteInfo ρ) : Owned → Option (Nat × OwnedContent)
  | .info => (s.peerInfos.lookup myPeerId).map fun info =>
    (info.version, .info { info with version := 0, lastUpdate := none })
  | .row => (s.connMap.lookup myPeerId).map fun row => (row.version, .row row.connectedPeers)
  | .network networkName => (s.foreignNetwork.lookup ⟨myPeerId, networkName⟩).map fun entry =>
    (entry.version, .network entry.content)

def LocalUpdate.othersDiffer : LocalUpdate → Bool
  | .peerInfo _ othersDiffer => othersDiffer
  | _ => false

/-- A call that changes the content of something this node owns leaves it with a higher
version. -/
structure ChangesVisible (myPeerId : PeerId) (update : LocalUpdate) (s t : SyncedRouteInfo ρ) :
    Prop where
  follows : ∀ owned, Follows (s.published myPeerId owned) (t.published myPeerId owned)
  others : update.othersDiffer = true → ∀ old ∈ s.peerInfos.lookup myPeerId,
    ∃ new ∈ t.peerInfos.lookup myPeerId, old.version < new.version

/-- A stored entry leaves room for the next version: below the second of the clock or the listed
version plus one where it is listed again, otherwise below the largest version. -/
def EntryBelow (now : Nat) (entry : ForeignNetworkRouteInfoEntry) :
    Option ForeignNetworkRouteInfoEntry → Prop
  | some newEntry =>
    entry.needRenew now newEntry = true → entry.version < nextVersion now newEntry.version
  | none => entry.version + 1 < 2 ^ 32

/-- The versions before a call leave room for the next ones. -/
def VersionsBelow (myPeerId : PeerId) (s : SyncedRouteInfo ρ) (call : Nat × LocalUpdate) : Prop :=
  match call.2 with
  | .peerInfo _ _ => ∀ info ∈ s.peerInfos.lookup myPeerId, info.version + 1 < 2 ^ 32
  | .connInfo _ => ∀ row ∈ s.connMap.lookup myPeerId, row.version + 1 < 2 ^ 32
  | .foreignNetwork listed =>
    ∀ stored ∈ s.foreignNetwork.entries, stored.1.peerId = myPeerId →
      EntryBelow call.1 stored.2 (listed.lookup stored.1)

/-! ## One call -/

/-- A call that leaves the three tables of this node alone, or some of them. -/
theorem follows_of_lookup_eq
    (hinfo : Follows (s.published myPeerId .info) (t.published myPeerId .info))
    (hrow : Follows (s.published myPeerId .row) (t.published myPeerId .row))
    (hnetwork : ∀ networkName, Follows (s.published myPeerId (.network networkName))
        (t.published myPeerId (.network networkName))) (owned : Owned) :
    Follows (s.published myPeerId owned) (t.published myPeerId owned) := by
  cases owned with
  | info => exact hinfo
  | row => exact hrow
  | network networkName => exact hnetwork networkName

theorem visible_updateMyPeerInfo (new : RoutePeerInfo) (othersDiffer : Bool)
    (hbelow : s.VersionsBelow myPeerId (now, .peerInfo new othersDiffer)) :
    ChangesVisible myPeerId (.peerInfo new othersDiffer) s
      (s.updateMyPeerInfo now myPeerId new othersDiffer) := by
  unfold updateMyPeerInfo
  dsimp only
  cases hstored : s.peerInfos.lookup myPeerId with
  | none =>
    refine ⟨follows_of_lookup_eq ?_ (.refl _) fun _ => .refl _, fun _ old hold => ?_⟩
    · rw [published, hstored]
      exact .of_none _
    · rw [hstored] at hold
      cases hold
  | some old =>
    have hversion : wrappingAdd 32 (s.getPeerInfoVersionWithDefault myPeerId) 1 =
        old.version + 1 := by
      rw [getPeerInfoVersionWithDefault, hstored]
      exact wrappingAdd_of_lt (hbelow old hstored)
    split_ifs with hneeded
    · refine ⟨follows_of_lookup_eq ?_ (.refl _) fun _ => .refl _, fun _ info hinfo => ?_⟩
      · rw [published, published, hstored, incVersion, lookup_insert, hversion]
        exact .of_lt (Nat.lt_succ_self _)
      · obtain rfl := some.inj (hstored.symm.trans hinfo)
        refine ⟨_, lookup_insert _, ?_⟩
        rw [hversion]
        exact Nat.lt_succ_self _
    · refine ⟨fun _ => .refl _, fun hothers => ?_⟩
      -- a difference in another field asks for the update
      obtain rfl : othersDiffer = true := hothers
      simp [tryUpdateNewPeerInfo] at hneeded

theorem renewal_version_lt {entry replacement : ForeignNetworkRouteInfoEntry}
    {listed : Option ForeignNetworkRouteInfoEntry} (hbelow : EntryBelow now entry listed)
    (h : entry.renewal now listed = some replacement) : entry.version < replacement.version := by
  unfold ForeignNetworkRouteInfoEntry.renewal at h
  cases listed with
  | some newEntry =>
    dsimp only at h
    split_ifs at h with hrenew
    cases h
    exact hbelow hrenew
  | none =>
    split_ifs at h
    cases h
    calc entry.version < entry.version + 1 := Nat.lt_succ_self _
      _ = wrappingAdd 32 entry.version 1 := (wrappingAdd_of_lt hbelow).symm
      _ ≤ nextVersion now entry.version := le_max_left _ _

theorem visible_updateMyForeignNetwork {listed : ForeignNetworkRouteInfoMap}
    (h : s.updateMyForeignNetwork now myPeerId listed = some t)
    (hbelow : s.VersionsBelow myPeerId (now, .foreignNetwork listed)) :
    ChangesVisible myPeerId (.foreignNetwork listed) s t := by
  have hkept : t.peerInfos = s.peerInfos ∧ t.connMap = s.connMap := by
    unfold updateMyForeignNetwork at h
    split_ifs at h
    cases h
    unfold incVersionIf
    split_ifs <;> exact ⟨rfl, rfl⟩
  refine ⟨follows_of_lookup_eq ?_ ?_ fun networkName => ?_, fun hothers => by cases hothers⟩
  · rw [published, published, hkept.1]
    exact .refl _
  · rw [published, published, hkept.2]
    exact .refl _
  · cases hstored : s.foreignNetwork.lookup ⟨myPeerId, networkName⟩ with
    | none => simp [published, hstored, Follows]
    | some entry =>
      rw [published, published, hstored, lookup_updateMyForeignNetwork h rfl hstored]
      cases hrenewal : entry.renewal now (listed.lookup ⟨myPeerId, networkName⟩) with
      | none => exact .refl _
      | some replacement =>
        have hmem : ⟨⟨myPeerId, networkName⟩, entry⟩ ∈ s.foreignNetwork.entries :=
          mem_lookup_iff.mp hstored
        exact .of_lt (renewal_version_lt (hbelow _ hmem rfl) hrenewal)

theorem visible_updateLocal {update : LocalUpdate} (h : s.updateLocal myPeerId now update = some t)
    (hbelow : s.VersionsBelow myPeerId (now, update)) : ChangesVisible myPeerId update s t := by
  cases update with
  | peerInfo new othersDiffer =>
    cases h
    exact visible_updateMyPeerInfo new othersDiffer hbelow
  | connInfo connectedPeers =>
    cases h
    refine ⟨follows_of_lookup_eq ?_ ?_ fun networkName => ?_, fun hothers => by cases hothers⟩
    · have hkept : (s.updateMyConnInfoLocked now myPeerId connectedPeers).2.peerInfos =
          (s.fillEmptyPeerInfoLocked now connectedPeers).2.peerInfos := by
        unfold updateMyConnInfoLocked
        dsimp only
        split_ifs <;> rfl
      cases hstored : s.peerInfos.lookup myPeerId with
      | none => simp [published, hstored, Follows]
      | some info =>
        rw [published, published, hkept, hstored,
          (FilledIn.fillEmptyPeerInfoLocked s connectedPeers).lookup_of_some hstored]
        exact .refl _
    · cases hstored : s.connMap.lookup myPeerId with
      | none => simp [published, hstored, Follows]
      | some row =>
        have hfilled := lookup_connMap_fillEmptyPeerInfoLocked now connectedPeers hstored
        rw [published, published, hstored]
        unfold updateMyConnInfoLocked
        dsimp only
        rw [hfilled, all_some]
        split_ifs
        · simp only [lookup_insert, map_some, getD_some, wrappingAdd_of_lt (hbelow row hstored)]
          exact .of_lt (Nat.lt_succ_self _)
        · rw [hfilled]
          exact .refl _
    · have hkept : (s.updateMyConnInfoLocked now myPeerId connectedPeers).2.foreignNetwork =
          s.foreignNetwork := by
        unfold updateMyConnInfoLocked
        dsimp only
        split_ifs <;> exact foreignNetwork_fillEmptyPeerInfoLocked s now connectedPeers
      rw [published, published, hkept]
      exact .refl _
  | foreignNetwork listed => exact visible_updateMyForeignNetwork h hbelow

/-! ## Runs -/

def localStep (myPeerId : PeerId) (s : SyncedRouteInfo ρ) (call : Nat × LocalUpdate) :
    Option ((SyncedRouteInfo ρ × SyncedRouteInfo ρ) × SyncedRouteInfo ρ) :=
  (s.updateLocal myPeerId call.1 call.2).map fun t => ((s, t), t)

/-- Every call so far was visible, and what was published before is followed by what is published
now. -/
structure Recorded (myPeerId : PeerId) (s : SyncedRouteInfo ρ)
    (events : List ((Nat × LocalUpdate) × (SyncedRouteInfo ρ × SyncedRouteInfo ρ)))
    (current : SyncedRouteInfo ρ) : Prop where
  visible : ∀ event ∈ events, ChangesVisible myPeerId event.1.2 event.2.1 event.2.2
  follows : ∀ t ∈ s :: events.map (·.2.2), ∀ owned,
    Follows (t.published myPeerId owned) (current.published myPeerId owned)

theorem Recorded.step
    {events : List ((Nat × LocalUpdate) × (SyncedRouteInfo ρ × SyncedRouteInfo ρ))}
    {current t : SyncedRouteInfo ρ} (h : Recorded myPeerId s events current)
    {call : Nat × LocalUpdate} (hvisible : ChangesVisible myPeerId call.2 current t) :
    Recorded myPeerId s (events ++ [(call, (current, t))]) t where
  visible event hevent := by
    rcases mem_append.mp hevent with hold | hnew
    · exact h.visible event hold
    · obtain rfl := mem_singleton.mp hnew
      exact hvisible
  follows u hu owned := by
    rw [map_append, ← cons_append, mem_append] at hu
    rcases hu with hold | hnew
    · exact (h.follows u hold owned).trans (hvisible.follows owned)
    · obtain rfl := mem_singleton.mp hnew
      exact .refl _

/-- In every run whose calls find versions that leave room, every change of the content of what
this node owns comes with a higher version; a receiver that is offered states of the run, the
last one among them, and keeps what is strictly newer ends with the last content. -/
theorem local_changes_visible (myPeerId : PeerId) (s : SyncedRouteInfo ρ)
    (calls : List (Nat × LocalUpdate))
    (hbelow : PartialRun.Along (localStep myPeerId) (VersionsBelow myPeerId) s calls)
    {events : List ((Nat × LocalUpdate) × (SyncedRouteInfo ρ × SyncedRouteInfo ρ))}
    {last : SyncedRouteInfo ρ}
    (hrun : PartialRun.history (localStep myPeerId) s calls = some (events, last)) :
    (∀ event ∈ events, ChangesVisible myPeerId event.1.2 event.2.1 event.2.2) ∧
      ∀ owned latest, last.published myPeerId owned = some latest →
        ∀ offers : List (Nat × OwnedContent), latest ∈ offers →
          (∀ offer ∈ offers, ∃ t ∈ s :: events.map (·.2.2),
            t.published myPeerId owned = some offer) →
          ∀ blank, VersionedRegister.applyAll blank none
            (offers.map fun offer => .offer offer.1 offer.2) = some latest := by
  have hinvariant : Recorded myPeerId s ([] ++ events) last := by
    refine history_of_invariant (I := Recorded myPeerId s) ?_ ⟨by simp, ?_⟩ hbelow hrun
    · intro past current call output next hpast hcall hstep
      obtain ⟨t, ht, heq⟩ := map_eq_some_iff.mp hstep
      cases heq
      exact hpast.step (visible_updateLocal ht hcall)
    · intro t ht owned
      obtain rfl := mem_singleton.mp ht
      exact .refl _
  refine ⟨hinvariant.visible, fun owned latest hlatest offers hmem hoffers blank => ?_⟩
  refine VersionedRegister.applyAll_latest offers ?_ (by simp) (.inl hmem)
  intro offer hoffer
  obtain ⟨t, ht, hpublished⟩ := hoffers offer hoffer
  obtain ⟨new, hnew, hle⟩ := hinvariant.follows t ht owned offer hpublished
  obtain rfl := some.inj (hlatest.symm.trans hnew)
  exact hle

instance (now : Nat) (entry : ForeignNetworkRouteInfoEntry) :
    (listed : Option ForeignNetworkRouteInfoEntry) → Decidable (EntryBelow now entry listed)
  | some _ => inferInstanceAs (Decidable (_ = true → _ < _))
  | none => inferInstanceAs (Decidable (_ < _))

instance (s : SyncedRouteInfo ρ) : (call : Nat × LocalUpdate) →
    Decidable (VersionsBelow myPeerId s call)
  | (_, .peerInfo ..) => inferInstanceAs (Decidable (∀ info ∈ _, _ < _))
  | (_, .connInfo ..) => inferInstanceAs (Decidable (∀ row ∈ _, _ < _))
  | (now, .foreignNetwork ..) =>
    inferInstanceAs (Decidable (∀ stored ∈ _, _ = _ → EntryBelow now _ _))

def servedNetwork (foreignPeerIds : List PeerId) (lastUpdate : Nat) : LocalUpdate :=
  .foreignNetwork ((∅ : ForeignNetworkRouteInfoMap).insert ⟨1, "guest"⟩
    ⟨foreignPeerIds, some lastUpdate, 0, [], 0, []⟩)

def threeSeconds : List (Nat × LocalUpdate) :=
  [(5000000000, servedNetwork [2] 5000000000), (6000000000, .foreignNetwork ∅),
    (8000000000, servedNetwork [2, 3] 8000000000)]

theorem local_changes_visible_three_seconds :
    ∃ events last,
      PartialRun.history (localStep 1) (empty : SyncedRouteInfo Unit) threeSeconds =
          some (events, last) ∧
        last.published 1 (.network "guest") =
          some (8, .network ⟨[2, 3], none, 0, [], 0, []⟩) ∧
        ∀ event ∈ events, ChangesVisible 1 event.1.2 event.2.1 event.2.2 := by
  have hbelow : PartialRun.Along (localStep 1) (VersionsBelow 1) (empty : SyncedRouteInfo Unit)
      threeSeconds := by decide +kernel
  have hsome : (history (localStep 1) (empty : SyncedRouteInfo Unit)
      threeSeconds).isSome = true := by decide +kernel
  obtain ⟨⟨events, last⟩, hrun⟩ := isSome_iff_exists.mp hsome
  refine ⟨events, last, hrun, ?_, (local_changes_visible 1 empty threeSeconds hbelow hrun).1⟩
  have hlast : (history (localStep 1) (empty : SyncedRouteInfo Unit)
      threeSeconds).bind (fun result => result.2.published 1 (.network "guest")) =
        some (8, .network ⟨[2, 3], none, 0, [], 0, []⟩) := by rfl
  rwa [hrun] at hlast

/-- Two listings in one second: the peers of the network change and its version does not. -/
theorem same_second_keeps_version :
    ∃ first second,
      (empty : SyncedRouteInfo Unit).updateLocal 1 5000000000 (servedNetwork [2] 5000000000) =
          some first ∧
        first.updateLocal 1 5900000000 (servedNetwork [2, 3] 5800000000) = some second ∧
        first.published 1 (.network "guest") = some (5, .network ⟨[2], none, 0, [], 0, []⟩) ∧
        second.published 1 (.network "guest") =
          some (5, .network ⟨[2, 3], none, 0, [], 0, []⟩) ∧
        ¬ChangesVisible 1 (servedNetwork [2, 3] 5800000000) first second := by
  refine ⟨_, _, rfl, rfl, rfl, rfl, fun hvisible => ?_⟩
  obtain ⟨new, hnew, hle⟩ := hvisible.follows (.network "guest")
    (5, .network ⟨[2], none, 0, [], 0, []⟩) rfl
  obtain rfl : (5, OwnedContent.network ⟨[2, 3], none, 0, [], 0, []⟩) = new := some.inj hnew
  rcases hle with hlt | heq
  · omega
  · simp at heq

end SyncedRouteInfo

end LowerTier.Peers.OspfRoute
