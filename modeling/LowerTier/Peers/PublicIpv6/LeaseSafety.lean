import LowerTier.Peers.PublicIpv6.Provider

/-!
# Leases that are neither lost nor shared

The recorded leases are a table from clients to addresses in which no address occurs twice.
Every call keeps it so and keeps the leases that clients hold, except that an acquire which
has waited writes back what it read before: it must find nothing recorded that it did not
read.
-/

namespace LowerTier.Peers.PublicIpv6

open PublicIpv6Service AList Option List ProofSupport Tunnel KeyedMap

theorem findOffset_spec {usableSlots startOffset step remaining offset : Nat} {used : List Nat}
    (hslots : 0 < usableSlots)
    (h : findOffset usableSlots startOffset used step remaining = some offset) :
    offset ∉ used ∧ 0 < offset ∧ offset ≤ usableSlots := by
  induction remaining generalizing step with
  | zero => cases h
  | succ remaining ih =>
    simp only [findOffset] at h
    split at h
    case isTrue => exact ih h
    case isFalse hunused =>
      cases h
      have hlt := Nat.mod_lt (startOffset - 1 + step) hslots
      exact ⟨hunused, Nat.succ_pos _, hlt⟩

theorem newOffset_spec {maxOffsets offset : Nat} {instId : InstanceId} {used : List Nat}
    (hmax : 0 < maxOffsets) (h : newOffset maxOffsets instId used = some offset) :
    offset ∉ used ∧ offset < maxOffsets ∧ (0 < offset ∨ maxOffsets = 1) := by
  simp only [newOffset] at h
  split at h
  case isTrue hsingle =>
    split at h
    case isTrue => cases h
    case isFalse hunused =>
      cases h
      exact ⟨hunused, hmax, by omega⟩
  case isFalse hslots =>
    obtain ⟨hunused, hpos, hle⟩ := findOffset_spec (Nat.pos_of_ne_zero hslots) h
    exact ⟨hunused, by omega, .inl hpos⟩

theorem allocated_notMem_reserved {providerPrefix : Cidr 128} {instId : InstanceId}
    {reserved : List Ipv6Addr} {oldMap : KeyedMap InstanceId Ipv6Inet}
    {lease : PublicIpv6ProviderLease} (hold : oldMap.lookup instId = none)
    (h : (allocatePublicIpv6Leases providerPrefix [instId] reserved oldMap).getLast? = some lease) :
    lease.addr.address ∉ reserved := by
  simp only [allocatePublicIpv6Leases, allocateEach, reusableAddr, hold, filter_none] at h
  split at h
  case isTrue => cases h
  case isFalse =>
    split at h
    case h_1 => cases h
    case h_2 offset hoffset =>
      cases h
      obtain ⟨hunused, hlt, -⟩ := newOffset_spec (Nat.two_pow_pos _) hoffset
      obtain ⟨htoNat, hcontains⟩ := providerPrefix.contains_add_host hlt
      intro hmem
      -- The address would lie in the prefix, and its offset would be a used one.
      apply hunused
      refine mem_map.mpr ⟨_, mem_filter.mpr ⟨hmem, hcontains⟩, ?_⟩
      change (BitVec.ofNat 128 (providerPrefix.network.toNat + offset)).toNat -
        providerPrefix.network.toNat = offset
      rw [htoNat, Nat.add_sub_cancel_left]

def recorded (state : Option PublicIpv6ProviderState) (instId : InstanceId) :
    Option PublicIpv6ProviderLease :=
  state.bind fun state => state.leases.lookup instId

/-- No address is given to two clients. -/
def AddressesDistinct (table : InstanceId → Option PublicIpv6ProviderLease) : Prop :=
  DistinctBy (fun lease => lease.addr.address) table

variable {service : PublicIpv6Service} {provider : PublicIpv6Provider}
  {current : Option PublicIpv6ProviderState} {next : PublicIpv6ProviderState}
  {instId : InstanceId} {lease : PublicIpv6ProviderLease} {now : Nat} {system : System}

theorem sameState_iff (h : sameState current (some next) = true) :
    ∃ state, current = some state ∧ state.provider = next.provider ∧
      state.leases.entries.Perm next.leases.entries := by
  cases current with
  | none => cases h
  | some state =>
    obtain ⟨hprovider, hperm⟩ := of_decide_eq_true h
    exact ⟨state, rfl, hprovider, hperm⟩

theorem recorded_setProviderState :
    recorded (setProviderState current (some next)).2 instId = next.leases.lookup instId := by
  unfold setProviderState
  split
  case isTrue hsame =>
    obtain ⟨state, rfl, -, hperm⟩ := sameState_iff hsame
    exact perm_lookup hperm
  case isFalse => rfl

variable {state : PublicIpv6ProviderState}

theorem provider_setProviderState (h : (setProviderState current (some next)).2 = some state) :
    state.provider = next.provider := by
  unfold setProviderState at h
  split at h
  case isTrue hsame =>
    obtain ⟨state', rfl, hprovider, -⟩ := sameState_iff hsame
    exact some.inj h ▸ hprovider
  case isFalse => exact some.inj h ▸ rfl

theorem recorded_of_pruned
    (h : (pruneExpiredLeases provider current now).leases.lookup instId = some lease) :
    recorded current instId = some lease ∧ now < lease.validUntil := by
  have hmem := AList.mem_lookup_iff.mp h
  have hkeep := (mem_filter.mp hmem).2
  refine ⟨?_, of_decide_eq_true hkeep⟩
  cases current with
  | none => simp [pruneExpiredLeases, retain, AList.lookup] at h
  | some state => exact lookup_of_lookup_retain h

theorem AddressesDistinct.pruned (h : AddressesDistinct (recorded current)) :
    AddressesDistinct fun instId =>
      (pruneExpiredLeases provider current now).leases.lookup instId :=
  h.of_sub fun _ _ hlookup => (recorded_of_pruned hlookup).1

/-! ## What every call keeps -/

/-- An acquire that waits has read a sound table without the client. -/
structure PendingAcquire.Sound (service : PublicIpv6Service) (pending : PendingAcquire) : Prop where
  distinct : AddressesDistinct fun instId => pending.state.leases.lookup instId
  absent : pending.state.leases.lookup pending.instId = none
  selected : service.selectedProvider = some pending.state.provider

structure System.Sound (service : PublicIpv6Service) (system : System) : Prop where
  distinct : AddressesDistinct (recorded system.providerState)
  held : ∀ instId lease, system.held.lookup instId = some lease →
    system.seen < lease.validUntil → recorded system.providerState instId = some lease
  selected : ∀ state, system.providerState = some state →
    service.selectedProvider = some state.provider
  pending : ∀ pending ∈ system.pending, pending.Sound service

theorem PublicIpv6Service.selectedProvider_of_provider (h : service.provider = .ok provider) :
    service.selectedProvider = some provider := by
  unfold PublicIpv6Service.provider at h
  split at h
  case h_1 => cases h
  case h_2 selected hselected =>
    split at h
    case isTrue =>
      cases h
      exact hselected
    case isFalse => cases h

namespace System.Sound

variable (h : system.Sound service)
include h

theorem see (now : Nat) : (system.see now).Sound service :=
  { h with held := fun instId lease hheld hseen =>
      h.held instId lease hheld ((Nat.le_max_left _ _).trans_lt hseen) }

/-- The leases that have not expired at a time that was seen are still recorded after a
prune. -/
theorem held_pruned (hnow : now ≤ system.seen)
    (hheld : system.held.lookup instId = some lease) (hseen : system.seen < lease.validUntil) :
    (pruneExpiredLeases provider system.providerState now).leases.lookup instId = some lease := by
  obtain ⟨state, hstate, hlookup⟩ := bind_eq_some_iff.mp (h.held instId lease hheld hseen)
  rw [hstate]
  exact lookup_retain_of_keep hlookup (decide_eq_true (hnow.trans_lt hseen))

theorem setState {held : KeyedMap InstanceId PublicIpv6ProviderLease}
    (hdistinct : AddressesDistinct fun instId => next.leases.lookup instId)
    (hselected : service.selectedProvider = some next.provider)
    (hheld : ∀ instId lease, held.lookup instId = some lease → system.seen < lease.validUntil →
      next.leases.lookup instId = some lease) :
    { system with
      providerState := (setProviderState system.providerState (some next)).2
      held := held }.Sound service where
  distinct := by
    intro left right leftLease rightLease hleft hright
    rw [recorded_setProviderState] at hleft hright
    exact hdistinct left right leftLease rightLease hleft hright
  held := by
    intro instId lease hlookup hseen
    rw [recorded_setProviderState]
    exact hheld instId lease hlookup hseen
  selected := by
    intro state hstate
    rw [provider_setProviderState hstate]
    exact hselected
  pending := h.pending

theorem hold {result : Except LeaseError PublicIpv6ProviderLease}
    (hrecorded : ∀ lease, result = .ok lease → recorded system.providerState instId = some lease) :
    (system.hold instId result).Sound service := by
  cases result with
  | error error => exact h
  | ok lease =>
    refine ⟨h.distinct, ?_, h.selected, h.pending⟩
    intro other otherLease hlookup hseen
    rcases lookup_insert_cases hlookup with ⟨rfl, rfl⟩ | ⟨-, hold⟩
    · exact hrecorded otherLease rfl
    · exact h.held other otherLease hold hseen

/-- A lease is written for one client into a table that keeps the leases of the others. -/
theorem record (hdistinct : AddressesDistinct fun instId => state.leases.lookup instId)
    (hselected : service.selectedProvider = some state.provider)
    (hheld : ∀ other otherLease, other ≠ instId → system.held.lookup other = some otherLease →
      system.seen < otherLease.validUntil → state.leases.lookup other = some otherLease)
    (hfresh : ∀ other ≠ instId, ∀ otherLease, state.leases.lookup other = some otherLease →
      otherLease.addr.address ≠ lease.addr.address) :
    ({ system with providerState := (setProviderState system.providerState
        (some { state with leases := state.leases.insert instId lease })).2 }.hold instId
      (.ok lease)).Sound service := by
  refine h.setState ?_ hselected ?_
  · exact hdistinct.update (lookup_insert _) (fun other hother => lookup_insert_ne hother) hfresh
  · intro other otherLease hlookup hseen
    by_cases hother : other = instId
    · subst hother
      rw [lookup_insert] at hlookup ⊢
      exact hlookup
    · rw [lookup_insert_ne hother] at hlookup ⊢
      exact hheld other otherLease hother hlookup hseen

/-- An acquire up to its await: it renews the lease of the client, or waits with what it
read. -/
theorem acquire (request : AcquireRequest) {pruneNow now : Nat} (hprune : pruneNow ≤ system.seen) :
    (system.afterAcquire request.instId
      (acquireLease service system.providerState request pruneNow now)).2.Sound service := by
  unfold acquireLease
  cases hprovider : service.provider with
  | error error => exact h
  | ok provider =>
    have hselected := selectedProvider_of_provider hprovider
    dsimp only
    cases hexisting : (pruneExpiredLeases provider system.providerState pruneNow).leases.lookup
        request.instId with
    | some existing =>
      dsimp only
      split
      case isTrue => exact h
      case isFalse =>
        refine h.record h.distinct.pruned hselected ?_ ?_
        · intro other otherLease _ hlookup hseen
          exact h.held_pruned hprune hlookup hseen
        · intro other hother otherLease hlookup hsame
          exact hother (h.distinct.pruned other request.instId otherLease existing hlookup hexisting
            hsame)
    | none =>
      dsimp only
      split
      case isTrue => exact h
      case isFalse =>
        refine ⟨h.distinct, h.held, h.selected, ?_⟩
        intro pending hpending
        rcases mem_append.mp hpending with hold | hnew
        · exact h.pending pending hold
        · obtain rfl := mem_singleton.mp hnew
          exact ⟨h.distinct.pruned, hexisting, hselected⟩

theorem dropPending (index : Nat) :
    { system with pending := system.pending.eraseIdx index }.Sound service :=
  ⟨h.distinct, h.held, h.selected,
    fun pending hpending => h.pending pending (mem_of_mem_eraseIdx hpending)⟩

/-- An acquire after its await, if everything recorded and valid is among what it read. -/
theorem finish {pending : PendingAcquire} (hpending : pending.Sound service)
    (hnow : now ≤ system.seen) (ipList : List Ipv6Addr)
    (hread : ∀ instId lease, recorded system.providerState instId = some lease →
      now < lease.validUntil → pending.state.leases.lookup instId = some lease) :
    ({ system with providerState := (pending.finish system.providerState ipList now).2 }.hold
      pending.instId (pending.finish system.providerState ipList now).1).Sound service := by
  have hold : (oldMap pending.state.leases).lookup pending.instId = none := by
    have habsent := lookup_eq_none.mp hpending.absent
    refine lookup_eq_none.mpr fun hmem => habsent ?_
    obtain ⟨entry, hentry, hkey⟩ := mem_map.mp hmem
    obtain ⟨old, hold, rfl⟩ := mem_map.mp hentry
    exact mem_map.mpr ⟨old, hold, hkey⟩
  unfold PendingAcquire.finish
  dsimp only
  split
  case h_1 => exact h
  case h_2 allocated hallocated =>
    have hunreserved := allocated_notMem_reserved hold hallocated
    refine h.record hpending.distinct hpending.selected ?_ ?_
    · intro other otherLease _ hlookup hseen
      exact hread other otherLease (h.held other otherLease hlookup hseen) (hnow.trans_lt hseen)
    · intro other _ otherLease hlookup hsame
      apply hunreserved
      rw [← hsame]
      exact mem_append_right _ (mem_map.mpr ⟨⟨other, otherLease⟩, mem_lookup_iff.mp hlookup, rfl⟩)

theorem release (peerId : PeerId) (instId : InstanceId) (hnow : now ≤ system.seen) :
    { system with
      providerState := (releaseLease service system.providerState peerId instId now).2
      held := if (releaseLease service system.providerState peerId instId now).1
        then system.held.erase instId else system.held }.Sound service := by
  unfold releaseLease
  cases hprovider : service.provider with
  | error error => exact h
  | ok provider =>
    have hselected := selectedProvider_of_provider hprovider
    dsimp only
    split
    case isFalse => exact h
    case isTrue =>
      split_ifs with hchanged
      · refine h.setState (h.distinct.pruned.of_sub fun _ _ hlookup =>
          lookup_of_lookup_erase hlookup) hselected ?_
        intro other otherLease hlookup hseen
        have hother : other ≠ instId := by
          rintro rfl
          rw [lookup_erase] at hlookup
          cases hlookup
        rw [lookup_erase_ne hother] at hlookup ⊢
        exact h.held_pruned hnow hlookup hseen
      · unfold setProviderState at hchanged ⊢
        split_ifs at hchanged ⊢
        · exact h
        · exact absurd rfl hchanged

theorem get (peerId : PeerId) (instId : InstanceId) (requestedAddr : Option Ipv6Inet) (now : Nat) :
    (system.hold instId ((getLease service system.providerState peerId instId requestedAddr
      now).map Prod.snd)).Sound service := by
  apply h.hold
  intro lease hresult
  unfold getLease at hresult
  cases hprovider : service.provider with
  | error error =>
    rw [hprovider] at hresult
    cases hresult
  | ok provider =>
    rw [hprovider] at hresult
    dsimp only at hresult
    split at hresult
    case h_1 => cases hresult
    case h_2 found hfound =>
      split at hresult
      case isTrue => cases hresult
      case isFalse =>
        split at hresult
        case isTrue => cases hresult
        case isFalse =>
          cases hresult
          exact (recorded_of_pruned hfound).1

theorem clearIfProviderChanged_eq :
    clearIfProviderChanged service system.providerState = system.providerState := by
  unfold clearIfProviderChanged
  split
  case h_1 hnone => exact hnone.symm
  case h_2 state hstate => rw [if_pos (h.selected state hstate)]

theorem gc (hnow : now ≤ system.seen) :
    { system with
      providerState := gcProviderLeases service system.providerState now }.Sound service := by
  unfold gcProviderLeases
  rw [h.clearIfProviderChanged_eq]
  cases hprovider : service.provider with
  | error error => exact h
  | ok provider =>
    exact h.setState h.distinct.pruned (selectedProvider_of_provider hprovider)
      fun _ _ hlookup hseen => h.held_pruned hnow hlookup hseen

end System.Sound

/-! ## Runs -/

/-- An acquire whose await ends finds nothing recorded and valid that it did not read. -/
def System.Undisturbed (system : System) : Event → Prop
  | .resume index _ now =>
    ∀ pending ∈ system.pending[index]?, ∀ state ∈ system.providerState,
      ∀ entry ∈ state.leases.entries, now < entry.2.validUntil →
        pending.state.leases.lookup entry.1 = some entry.2
  | _ => True

instance System.Undisturbed.decidable (system : System) :
    ∀ event, Decidable (system.Undisturbed event)
  | .resume .. =>
    inferInstanceAs (Decidable (∀ pending ∈ _, ∀ state ∈ _, ∀ entry ∈ _, _ < _ → _ = _))
  | .acquire .. | .release .. | .get .. | .gc .. => .isTrue trivial

/-- The leases that clients hold and that have not expired are recorded for them, and no
address is recorded for two clients or held by two. -/
structure System.LeasesSafe (system : System) : Prop where
  recorded : ∀ instId lease, system.held.lookup instId = some lease →
    system.seen < lease.validUntil → recorded system.providerState instId = some lease
  distinct : ∀ instId instId' lease lease',
    PublicIpv6.recorded system.providerState instId = some lease →
    PublicIpv6.recorded system.providerState instId' = some lease' →
    lease.addr.address = lease'.addr.address → instId = instId'
  heldDistinct : ∀ instId instId' lease lease',
    system.held.lookup instId = some lease → system.seen < lease.validUntil →
    system.held.lookup instId' = some lease' → system.seen < lease'.validUntil →
    lease.addr.address = lease'.addr.address → instId = instId'

theorem System.Sound.leasesSafe (h : system.Sound service) : system.LeasesSafe where
  recorded := h.held
  distinct := h.distinct
  heldDistinct := by
    intro instId instId' lease lease' hheld hseen hheld' hseen'
    exact h.distinct instId instId' lease lease' (h.held instId lease hheld hseen)
      (h.held instId' lease' hheld' hseen')

theorem System.sound_new : System.new.Sound service where
  distinct := DistinctBy.of_none fun _ => rfl
  held := by simp [System.new]
  selected := by simp [System.new]
  pending := by simp [System.new]

theorem System.Sound.step (h : system.Sound service) (event : Event)
    (hundisturbed : system.Undisturbed event) :
    ∃ reply system', system.step service event = some (reply, system') ∧
      system'.Sound service := by
  cases event with
  | acquire request pruneNow now =>
    exact ⟨_, _, rfl, ((h.see pruneNow).see now).acquire request
      (le_trans (Nat.le_max_right _ _) (Nat.le_max_left _ _))⟩
  | resume index ipList now =>
    simp only [System.step]
    split
    case h_1 => exact ⟨_, _, rfl, h.see now⟩
    case h_2 pending hpending =>
      have hmem : pending ∈ system.pending := mem_of_getElem? hpending
      have hread : ∀ instId lease, recorded system.providerState instId = some lease →
          now < lease.validUntil → pending.state.leases.lookup instId = some lease := by
        intro instId lease hrecorded hvalid
        obtain ⟨state, hstate, hlookup⟩ := bind_eq_some_iff.mp hrecorded
        exact hundisturbed pending hpending state hstate ⟨instId, lease⟩
          (mem_lookup_iff.mp hlookup) hvalid
      exact ⟨_, _, rfl, ((h.see now).dropPending index).finish (h.pending pending hmem)
        (Nat.le_max_right _ _) ipList hread⟩
  | release peerId instId now =>
    exact ⟨_, _, rfl, (h.see now).release peerId instId (Nat.le_max_right _ _)⟩
  | get peerId instId requestedAddr now =>
    exact ⟨_, _, rfl, (h.see now).get peerId instId requestedAddr now⟩
  | gc now => exact ⟨_, _, rfl, (h.see now).gc (Nat.le_max_right _ _)⟩

/-- Whatever the clients ask for and whenever the awaits end, as long as each acquire finds
nothing recorded that it did not read, no lease is lost and no address shared. -/
theorem leases_safe_while_undisturbed (service : PublicIpv6Service) (events : List Event)
    (hundisturbed : PartialRun.Along (System.step service) System.Undisturbed .new events) :
    ∃ system, PartialRun.run (System.step service) .new events = some system ∧
      system.LeasesSafe := by
  obtain ⟨system, hrun, hsound⟩ := PartialRun.run_of_invariant
    (fun _ event hsystem hevent => System.Sound.step hsystem event hevent)
    System.sound_new hundisturbed
  exact ⟨system, hrun, hsound.leasesSafe⟩

/-! Two clients of a provider with the prefix `2001:db8::/64`. -/

def examplePrefix : Cidr 128 where
  network := 0x20010db8000000000000000000000000
  networkLength := 64
  length_le := by decide
  host_zero := by decide

def exampleService : PublicIpv6Service := ⟨1, some ⟨1, 7, examplePrefix⟩⟩

def firstClient : AcquireRequest := ⟨2, 1, false, none⟩
def secondClient : AcquireRequest := ⟨3, 0x10000000000000000, false, none⟩

/-- The second client asks after the first has got its lease; a collection runs meanwhile. -/
def oneAfterTheOther : List Event :=
  [.acquire firstClient 0 0, .resume 0 [] 1, .acquire secondClient 2 2, .gc 3, .resume 0 [] 4,
    .release 2 1 5]

theorem leases_safe_while_undisturbed_in_turn :
    PartialRun.Along (System.step exampleService) System.Undisturbed .new oneAfterTheOther ∧
      ∃ system, PartialRun.run (System.step exampleService) .new oneAfterTheOther = some system ∧
        system.LeasesSafe := by
  have hundisturbed : PartialRun.Along (System.step exampleService) System.Undisturbed .new
      oneAfterTheOther := by decide +kernel
  exact ⟨hundisturbed, leases_safe_while_undisturbed exampleService oneAfterTheOther hundisturbed⟩

def bothAtOnce : List Event :=
  [.acquire firstClient 0 0, .acquire secondClient 0 0, .resume 0 [] 0, .resume 0 [] 0]

def sharedAddr : Ipv6Inet := ⟨0x20010db8000000000000000000000002, 128⟩

theorem lease_lost_and_shared :
    ∃ system, PartialRun.run (System.step exampleService) .new bothAtOnce = some system ∧
      system.held.lookup firstClient.instId =
        some ⟨2, firstClient.instId, sharedAddr, PUBLIC_IPV6_LEASE_TTL, false⟩ ∧
      system.held.lookup secondClient.instId =
        some ⟨3, secondClient.instId, sharedAddr, PUBLIC_IPV6_LEASE_TTL, false⟩ ∧
      recorded system.providerState firstClient.instId = none ∧ system.seen = 0 := by
  have hrun : (PartialRun.run (System.step exampleService) .new bothAtOnce).any (fun system =>
      decide (system.held.lookup firstClient.instId =
          some ⟨2, firstClient.instId, sharedAddr, PUBLIC_IPV6_LEASE_TTL, false⟩ ∧
        system.held.lookup secondClient.instId =
          some ⟨3, secondClient.instId, sharedAddr, PUBLIC_IPV6_LEASE_TTL, false⟩ ∧
        recorded system.providerState firstClient.instId = none ∧ system.seen = 0)) = true := by
    decide +kernel
  obtain ⟨system, hsystem, hlost⟩ := (any_eq_true _ _).mp hrun
  exact ⟨system, hsystem, of_decide_eq_true hlost⟩

end LowerTier.Peers.PublicIpv6
