import LowerTier.Peers.ServiceRoute.Cidr
import LowerTier.ProofSupport.PartialRun
import LowerTier.Tunnel.PacketDef

/-!
# The provider of public IPv6 leases

`peers/public_ipv6.rs`: the selected provider hands out addresses of its prefix.  An acquire
that finds no lease of the client reads the leases, waits for the addresses that are
reserved on the host, and writes the leases back with the new one; every other call is one
action.  The two readings of the clock in a call are separate inputs.
-/

namespace LowerTier.Peers.PublicIpv6

open ProofSupport Tunnel

abbrev Ipv6Addr := BitVec 128

abbrev InstanceId := BitVec 128

structure Ipv6Inet where
  address : Ipv6Addr
  networkLength : Nat
deriving DecidableEq

/-- Nanoseconds. -/
def PUBLIC_IPV6_LEASE_TTL : Nat := 120 * 1000000000

structure PublicIpv6Provider where
  peerId : PeerId
  instId : InstanceId
  providerPrefix : Cidr 128
deriving DecidableEq

structure PublicIpv6ProviderLease where
  peerId : PeerId
  instId : InstanceId
  addr : Ipv6Inet
  validUntil : Nat
  reused : Bool
deriving DecidableEq

structure PublicIpv6ProviderState where
  provider : PublicIpv6Provider
  leases : KeyedMap InstanceId PublicIpv6ProviderLease

inductive LeaseError where
  | noProvider
  | notSelected
  | mismatch
  | notFound
  | ownerMismatch
  | noFreeAddress (providerPrefix : Cidr 128)
deriving DecidableEq

def findOffset (usableSlots startOffset : Nat) (used : List Nat) : Nat → Nat → Option Nat
  | _, 0 => none
  | step, remaining + 1 =>
    let offset := (startOffset - 1 + step) % usableSlots + 1
    if offset ∈ used then findOffset usableSlots startOffset used (step + 1) remaining
    else some offset

/-- The offset of a new address; a prefix of a single address has only offset zero. -/
def newOffset (maxOffsets : Nat) (instId : InstanceId) (used : List Nat) : Option Nat :=
  let usableSlots := maxOffsets - 1
  if usableSlots = 0 then if 0 ∈ used then none else some 0
  else findOffset usableSlots (instId.toNat % usableSlots + 1) used 0 usableSlots

variable (providerPrefix : Cidr 128)

/-- The old address of an instance, if it lies in the prefix and is not used. -/
def reusableAddr (oldMap : KeyedMap InstanceId Ipv6Inet) (used : List Nat) (instId : InstanceId) :
    Option Ipv6Inet :=
  (oldMap.lookup instId).filter fun existing =>
    providerPrefix.contains existing.address &&
      decide (existing.address.toNat - providerPrefix.network.toNat ∉ used)

def allocateEach (providerPrefix : Cidr 128) (oldMap : KeyedMap InstanceId Ipv6Inet) :
    List Nat → List InstanceId → List PublicIpv6ProviderLease
  | _, [] => []
  | used, instId :: ids =>
    let lease (addr : Ipv6Inet) : PublicIpv6ProviderLease :=
      ⟨0, instId, addr, 0, decide (oldMap.lookup instId = some addr)⟩
    let network := providerPrefix.network.toNat
    match reusableAddr providerPrefix oldMap used instId with
    | some existing =>
      lease existing ::
        allocateEach providerPrefix oldMap ((existing.address.toNat - network) :: used) ids
    | none =>
      -- The whole address space has no number of offsets.
      if providerPrefix.networkLength = 0 then allocateEach providerPrefix oldMap used ids
      else
        match newOffset (2 ^ (128 - providerPrefix.networkLength)) instId used with
        | none => []
        | some offset =>
          lease ⟨BitVec.ofNat 128 (network + offset), 128⟩ ::
            allocateEach providerPrefix oldMap (offset :: used) ids

def allocatePublicIpv6Leases (ids : List InstanceId) (reserved : List Ipv6Addr)
    (oldMap : KeyedMap InstanceId Ipv6Inet) :
    List PublicIpv6ProviderLease :=
  let used := (reserved.filter providerPrefix.contains).map fun addr =>
    addr.toNat - providerPrefix.network.toNat
  allocateEach providerPrefix oldMap used ids

/-! ## Calls -/

def pruneExpiredLeases (provider : PublicIpv6Provider) (current : Option PublicIpv6ProviderState)
    (now : Nat) : PublicIpv6ProviderState :=
  let state := current.getD ⟨provider, ∅⟩
  ⟨provider, state.leases.retain fun lease => decide (now < lease.validUntil)⟩

/-- Whether two states are equal; the order of the leases in the model says nothing. -/
def sameState : Option PublicIpv6ProviderState → Option PublicIpv6ProviderState → Bool
  | none, none => true
  | some left, some right =>
    decide (left.provider = right.provider ∧ left.leases.entries.Perm right.leases.entries)
  | _, _ => false

def setProviderState (current next : Option PublicIpv6ProviderState) :
    Bool × Option PublicIpv6ProviderState :=
  if sameState current next then (false, current) else (true, next)

structure PublicIpv6Service where
  myPeerId : PeerId
  selectedProvider : Option PublicIpv6Provider

def PublicIpv6Service.provider (service : PublicIpv6Service) :
    Except LeaseError PublicIpv6Provider :=
  match service.selectedProvider with
  | none => .error .noProvider
  | some provider =>
    if provider.peerId = service.myPeerId then .ok provider else .error .notSelected

structure AcquireRequest where
  peerId : PeerId
  instId : InstanceId
  renewOnly : Bool
  requestedAddr : Option Ipv6Inet

/-- An acquire that waits for the reserved addresses, with the leases that it has read. -/
structure PendingAcquire where
  provider : PublicIpv6Provider
  state : PublicIpv6ProviderState
  peerId : PeerId
  instId : InstanceId

def mismatches (requestedAddr : Option Ipv6Inet) (lease : PublicIpv6ProviderLease) : Bool :=
  requestedAddr.any fun addr => decide (addr ≠ lease.addr)

inductive AcquireStep where
  | returned (result : Except LeaseError PublicIpv6ProviderLease)
      (state : Option PublicIpv6ProviderState)
  | awaits (pending : PendingAcquire)

variable (service : PublicIpv6Service) (current : Option PublicIpv6ProviderState)

def acquireLease (request : AcquireRequest) (pruneNow now : Nat) : AcquireStep :=
  match service.provider with
  | .error error => .returned (.error error) current
  | .ok provider =>
    let state := pruneExpiredLeases provider current pruneNow
    match state.leases.lookup request.instId with
    | some existing =>
      if mismatches request.requestedAddr existing then
        .returned (.error .mismatch) current
      else
        let lease := { existing with
          peerId := request.peerId, validUntil := now + PUBLIC_IPV6_LEASE_TTL, reused := true }
        let next := { state with leases := state.leases.insert request.instId lease }
        .returned (.ok lease) (setProviderState current (some next)).2
    | none =>
      if request.renewOnly then .returned (.error .notFound) current
      else .awaits ⟨provider, state, request.peerId, request.instId⟩

/-- The addresses of the host that lie in the prefix. -/
def collectReservedAddrs (ipList : List Ipv6Addr) : List Ipv6Addr :=
  ipList.filter providerPrefix.contains

def oldMap (leases : KeyedMap InstanceId PublicIpv6ProviderLease) : KeyedMap InstanceId Ipv6Inet :=
  ⟨leases.entries.map fun entry => ⟨entry.1, entry.2.addr⟩, by
    have hkeys := leases.nodupKeys
    simpa [List.NodupKeys, List.keys, Function.comp_def] using hkeys⟩

def PendingAcquire.finish (pending : PendingAcquire) (current : Option PublicIpv6ProviderState)
    (ipList : List Ipv6Addr) (now : Nat) :
    Except LeaseError PublicIpv6ProviderLease × Option PublicIpv6ProviderState :=
  let recorded := pending.state.leases.entries.map fun entry => entry.2.addr.address
  let reserved := collectReservedAddrs pending.provider.providerPrefix ipList ++ recorded
  match (allocatePublicIpv6Leases pending.provider.providerPrefix [pending.instId] reserved
      (oldMap pending.state.leases)).getLast? with
  | none => (.error (.noFreeAddress pending.provider.providerPrefix), current)
  | some allocated =>
    let lease := { allocated with
      peerId := pending.peerId, validUntil := now + PUBLIC_IPV6_LEASE_TTL }
    let next : PublicIpv6ProviderState :=
      { pending.state with leases := pending.state.leases.insert pending.instId lease }
    (.ok lease, (setProviderState current (some next)).2)

def releaseLease (peerId : PeerId) (instId : InstanceId) (now : Nat) :
    Bool × Option PublicIpv6ProviderState :=
  match service.provider with
  | .error _ => (false, current)
  | .ok provider =>
    let state := pruneExpiredLeases provider current now
    if (state.leases.lookup instId).any (·.peerId == peerId) then
      setProviderState current (some { state with leases := state.leases.erase instId })
    else (false, current)

def getLease (peerId : PeerId) (instId : InstanceId) (requestedAddr : Option Ipv6Inet) (now : Nat) :
    Except LeaseError (PublicIpv6Provider × PublicIpv6ProviderLease) :=
  match service.provider with
  | .error error => .error error
  | .ok provider =>
    match (pruneExpiredLeases provider current now).leases.lookup instId with
    | none => .error .notFound
    | some lease =>
      if lease.peerId ≠ peerId then .error .ownerMismatch
      else if mismatches requestedAddr lease then .error .mismatch
      else .ok (provider, lease)

def clearIfProviderChanged : Option PublicIpv6ProviderState :=
  match current with
  | none => none
  | some state => if service.selectedProvider = some state.provider then current else none

def gcProviderLeases (now : Nat) : Option PublicIpv6ProviderState :=
  let cleared := clearIfProviderChanged service current
  match service.provider with
  | .error _ => cleared
  | .ok provider =>
    (setProviderState cleared (some (pruneExpiredLeases provider cleared now))).2

/-- The provider with the acquires that wait.  The clients' view is kept beside it: the last
lease that each of them got and has not released, and the latest time that was seen. -/
structure System where
  providerState : Option PublicIpv6ProviderState
  pending : List PendingAcquire
  held : KeyedMap InstanceId PublicIpv6ProviderLease
  seen : Nat

def System.new : System := ⟨none, [], ∅, 0⟩

inductive Event where
  | acquire (request : AcquireRequest) (pruneNow now : Nat)
  /-- The await of a waiting acquire ends. -/
  | resume (index : Nat) (ipList : List Ipv6Addr) (now : Nat)
  | release (peerId : PeerId) (instId : InstanceId) (now : Nat)
  | get (peerId : PeerId) (instId : InstanceId) (requestedAddr : Option Ipv6Inet) (now : Nat)
  | gc (now : Nat)

inductive Reply where
  | lease (result : Except LeaseError PublicIpv6ProviderLease)
  | released (removed : Bool)
  | nothing

variable (system : System)

def System.hold (instId : InstanceId) :
    Except LeaseError PublicIpv6ProviderLease → System
  | .ok lease => { system with held := system.held.insert instId lease }
  | .error _ => system

def System.see (now : Nat) : System :=
  { system with seen := max system.seen now }

def System.afterAcquire (instId : InstanceId) : AcquireStep → Reply × System
  | .returned result state =>
    (.lease result, { system with providerState := state }.hold instId result)
  | .awaits pending => (.nothing, { system with pending := system.pending ++ [pending] })

def System.step :
    Event → Option (Reply × System)
  | .acquire request pruneNow now =>
    let system := (system.see pruneNow).see now
    some (system.afterAcquire request.instId
      (acquireLease service system.providerState request pruneNow now))
  | .resume index ipList now =>
    let system := system.see now
    match system.pending[index]? with
    | none => some (.nothing, system)
    | some pending =>
      let (result, state) := pending.finish system.providerState ipList now
      let system :=
        { system with providerState := state, pending := system.pending.eraseIdx index }
      some (.lease result, system.hold pending.instId result)
  | .release peerId instId now =>
    let system := system.see now
    let (removed, state) := releaseLease service system.providerState peerId instId now
    let held := if removed then system.held.erase instId else system.held
    some (.released removed, { system with providerState := state, held := held })
  | .get peerId instId requestedAddr now =>
    let system := system.see now
    let result := (getLease service system.providerState peerId instId requestedAddr now).map
      Prod.snd
    some (.lease result, system.hold instId result)
  | .gc now =>
    let system := system.see now
    some (.nothing,
      { system with providerState := gcProviderLeases service system.providerState now })

end LowerTier.Peers.PublicIpv6
