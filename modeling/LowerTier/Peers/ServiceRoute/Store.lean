import LowerTier.Peers.ServiceRoute.Cidr
import LowerTier.ProofSupport.MachineInt
import LowerTier.Tunnel.PacketDef
import Mathlib.Data.List.Sort

/-!
# Service routes (`peers/service_route.rs`)

The routes of each source, a snapshot of all of them indexed by their blocks, and two
caches: a flow is pinned to the gateway it was given, and the plan for one address and flow
answers without a lookup.

What the standard library leaves open (the order of equal elements after an unstable sort,
the order of iteration over a hash map, the hash function) is an argument of each call.
Times are in one unit; a difference of times saturates.
-/

namespace LowerTier.Peers

open ProofSupport ProofSupport.MachineInt Tunnel

inductive RouteSource where
  | static | bgp | overlay
deriving DecidableEq

inductive ServiceRouteAction where
  | forward | exitSnat | blackhole
deriving DecidableEq

structure ServiceRoute where
  cidr : IpCidr
  gateway : PeerId
  preference : Nat
  metric : Nat
  pathId : UInt64
  action : ServiceRouteAction
deriving DecidableEq

structure ServiceRouteSelection where
  cidr : IpCidr
  gateway : PeerId
  pathId : UInt64
  action : ServiceRouteAction
deriving DecidableEq

def ServiceRoute.selection (route : ServiceRoute) : ServiceRouteSelection := { route with }

structure Runtime where
  /-- `IpCidr::cmp`. -/
  compareCidr : IpCidr → IpCidr → Ordering
  compareCidr_eq : ∀ left right, compareCidr left right = .eq ↔ left = right
  sortUnstableBy : (ServiceRoute → ServiceRoute → Ordering) → List ServiceRoute →
    List ServiceRoute
  sort_perm : ∀ order routes, (sortUnstableBy order routes).Perm routes
  sort_sorted : ∀ order [Std.TransCmp order] routes,
    (sortUnstableBy order routes).Pairwise fun left right => (order left right).isLE
  /-- The entries of a hash map in the order of an iteration. -/
  iterate : {α : Type} → List α → List α
  iterate_perm : ∀ {α : Type} (entries : List α), (iterate entries).Perm entries
  /-- The hash of a flow, a gateway and a path. -/
  routeHash : UInt64 → PeerId → UInt64 → UInt64

/-- A stable sort, and maps in the order of their entries. -/
def Runtime.stable : Runtime where
  compareCidr := IpCidr.order
  compareCidr_eq := IpCidr.order_eq_iff
  sortUnstableBy order routes :=
    routes.insertionSort fun left right => (order left right).isLE = true
  sort_perm order routes := List.perm_insertionSort _ routes
  sort_sorted order htrans routes := by
    have htotal : Std.Total fun left right => (order left right).isLE = true :=
      ⟨fun left right => by
        have hswap : order right left = (order left right).swap := Std.OrientedCmp.eq_swap
        rw [hswap]
        cases order left right <;> simp⟩
    have hcompose : IsTrans ServiceRoute fun left right => (order left right).isLE = true :=
      ⟨fun _ _ _ hleft hright => Std.TransCmp.isLE_trans hleft hright⟩
    exact List.pairwise_insertionSort _ routes
  iterate entries := entries
  iterate_perm entries := List.Perm.refl entries
  routeHash _ gateway _ := gateway.toUInt64

structure ServiceRouteSnapshot where
  generation : Nat
  routes : List ServiceRoute
  ipv4 : KeyedMap (Cidr 32) (List ServiceRoute)
  ipv6 : KeyedMap (Cidr 128) (List ServiceRoute)

namespace ServiceRouteSnapshot

def candidateOrder (left right : ServiceRoute) : Ordering :=
  (compare right.preference left.preference).then
    ((compare left.metric right.metric).then
      ((compare left.gateway right.gateway).then (compare left.pathId right.pathId)))

def addToGroup (groups : KeyedMap IpCidr (List ServiceRoute)) (route : ServiceRoute) :
    KeyedMap IpCidr (List ServiceRoute) :=
  groups.insert route.cidr ((groups.lookup route.cidr).getD [] ++ [route])

def grouped (routes : List ServiceRoute) : KeyedMap IpCidr (List ServiceRoute) :=
  routes.foldl addToGroup ∅

variable (snapshot : ServiceRouteSnapshot)

def insertCandidates (cidr : IpCidr) (candidates : List ServiceRoute) : ServiceRouteSnapshot :=
  match cidr with
  | .v4 block => { snapshot with ipv4 := snapshot.ipv4.insert block candidates }
  | .v6 block => { snapshot with ipv6 := snapshot.ipv6.insert block candidates }

def fromRoutes (runtime : Runtime) (generation : Nat) (routes : List ServiceRoute) :
    ServiceRouteSnapshot :=
  (runtime.iterate (grouped routes).entries).foldl
    (fun snapshot group =>
      snapshot.insertCandidates group.1 (runtime.sortUnstableBy candidateOrder group.2))
    { generation := generation, routes := routes, ipv4 := ∅, ipv6 := ∅ }

def candidates (trie : PrefixTrie) :
    IpAddr → Option (List ServiceRoute)
  | .v4 address => (trie.getLpm snapshot.ipv4 (Cidr.host address)).map (·.2)
  | .v6 address => (trie.getLpm snapshot.ipv6 (Cidr.host address)).map (·.2)

end ServiceRouteSnapshot

structure GatewayFlowKey where
  cidr : IpCidr
  flow : UInt64
deriving DecidableEq

structure GatewayPin where
  selection : ServiceRouteSelection
  createdAt : Nat

structure GatewayFlowPlanKey where
  address : IpAddr
  flow : UInt64
deriving DecidableEq

structure GatewayFlowPlan where
  generation : Nat
  selection : ServiceRouteSelection
  createdAt : Nat

structure ServiceRouteStore where
  routes : KeyedMap RouteSource (List ServiceRoute)
  snapshot : ServiceRouteSnapshot
  pins : KeyedMap GatewayFlowKey GatewayPin
  plans : KeyedMap GatewayFlowPlanKey GatewayFlowPlan
  pinCapacity : Nat
  pinTtl : Nat
  capacity_pos : 0 < pinCapacity

namespace ServiceRouteStore

def new (pinCapacity pinTtl : Nat) (hcapacity : 0 < pinCapacity) : ServiceRouteStore where
  routes := ∅
  snapshot := { generation := 0, routes := [], ipv4 := ∅, ipv6 := ∅ }
  pins := ∅
  plans := ∅
  pinCapacity := pinCapacity
  pinTtl := pinTtl
  capacity_pos := hcapacity

def identityOrder (runtime : Runtime) (left right : ServiceRoute) : Ordering :=
  (runtime.compareCidr left.cidr right.cidr).then
    ((compare left.gateway right.gateway).then (compare left.pathId right.pathId))

def sameIdentity (left right : ServiceRoute) : Bool :=
  left.cidr == right.cidr && left.gateway == right.gateway && left.pathId == right.pathId

/-- `dedup_by` behind an element that stays. -/
def dedupAfter (same : ServiceRoute → ServiceRoute → Bool) (kept : ServiceRoute) :
    List ServiceRoute → List ServiceRoute
  | [] => []
  | route :: routes =>
    if same route kept then dedupAfter same kept routes
    else route :: dedupAfter same route routes

def dedupBy (same : ServiceRoute → ServiceRoute → Bool) : List ServiceRoute → List ServiceRoute
  | [] => []
  | route :: routes => route :: dedupAfter same route routes

def buildSnapshot (runtime : Runtime) (routes : KeyedMap RouteSource (List ServiceRoute))
    (generation : Nat) : ServiceRouteSnapshot :=
  .fromRoutes runtime generation ((runtime.iterate routes.entries).flatMap (·.2))

variable (s : ServiceRouteStore) (runtime : Runtime)

def replaceSource (source : RouteSource) (routes : List ServiceRoute) : ServiceRouteStore :=
  let routes := dedupBy sameIdentity (runtime.sortUnstableBy (identityOrder runtime) routes)
  let table := s.routes.insert source routes
  let generation := max (wrappingAdd 64 s.snapshot.generation 1) 1
  { s with
    routes := table
    snapshot := buildSnapshot runtime table generation }

/-- Keep the entries that pass, and if that is not enough remove some others. -/
def reserveCapacity {κ ν : Type} [DecidableEq κ] (capacity : Nat) (keep : ν → Bool)
    (cache : KeyedMap κ ν) : KeyedMap κ ν :=
  if cache.size < capacity then
    cache
  else
    let cache := cache.retain keep
    if cache.size < capacity then
      cache
    else
      let removeCount := cache.size - min (capacity * 3) (maxValue 64) / 4
      let keys := ((runtime.iterate cache.entries).take (max removeCount 1)).map (·.1)
      keys.foldl (fun cache key => cache.erase key) cache

def reservePinCapacity (now : Nat) :
    ServiceRouteStore :=
  { s with
    pins := reserveCapacity runtime s.pinCapacity
      (fun pin => decide (now - pin.createdAt ≤ s.pinTtl)) s.pins }

def reservePlanCapacity (now : Nat) :
    ServiceRouteStore :=
  { s with
    plans := reserveCapacity runtime s.pinCapacity
      (fun plan => decide (now - plan.createdAt ≤ s.pinTtl) &&
        plan.generation == s.snapshot.generation) s.plans }

/-! ### Selecting a gateway -/

structure SelectCall where
  address : IpAddr
  flow : UInt64
  gatewayIsLive : PeerId → Bool
  now : Nat

namespace SelectCall

variable (call : SelectCall)

def planKey : GatewayFlowPlanKey := ⟨call.address, call.flow⟩

def selectionIsLive (selection : ServiceRouteSelection) : Bool :=
  selection.action == .blackhole || call.gatewayIsLive selection.gateway

def routeIsLive (route : ServiceRoute) : Bool :=
  route.action == .blackhole || call.gatewayIsLive route.gateway

def eligible (candidates : List ServiceRoute) :
    Option (List ServiceRoute) := do
  let bestPreference ← ((candidates.filter call.routeIsLive).map (·.preference)).max?
  let bestMetric ← ((candidates.filter fun route =>
    route.preference == bestPreference && call.routeIsLive route).map (·.metric)).min?
  return candidates.filter fun route =>
    route.preference == bestPreference && route.metric == bestMetric && call.routeIsLive route

end SelectCall

variable (call : SelectCall)

def planIsCurrent (plan : GatewayFlowPlan) : Bool :=
  plan.generation == s.snapshot.generation &&
    decide (call.now - plan.createdAt ≤ s.pinTtl) && call.selectionIsLive plan.selection

def pinIsCurrent (eligible : List ServiceRoute) (pin : GatewayPin) : Bool :=
  decide (call.now - pin.createdAt ≤ s.pinTtl) && eligible.any fun route =>
    route.gateway == pin.selection.gateway && route.pathId == pin.selection.pathId &&
      route.action == pin.selection.action

def insertPlan (selection : ServiceRouteSelection) : ServiceRouteStore :=
  let s := s.reservePlanCapacity runtime call.now
  { s with
    plans := s.plans.insert call.planKey
      { generation := s.snapshot.generation, selection := selection, createdAt := call.now } }

def insertPin (key : GatewayFlowKey) (selection : ServiceRouteSelection) : ServiceRouteStore :=
  let s := s.reservePinCapacity runtime call.now
  { s with pins := s.pins.insert key { selection := selection, createdAt := call.now } }

/-- `max_by_key`: of several elements with the greatest key the last. -/
def maxByKey (key : ServiceRoute → UInt64) : List ServiceRoute → Option ServiceRoute
  | [] => none
  | route :: routes =>
    some (routes.foldl (fun best route => if key best ≤ key route then route else best) route)

def selectNew (key : GatewayFlowKey) (eligible : List ServiceRoute) :
    Option ServiceRouteSelection × ServiceRouteStore :=
  match maxByKey (fun route => runtime.routeHash call.flow route.gateway route.pathId)
      eligible with
  | none => (none, s)
  | some route =>
    (some route.selection,
      (s.insertPin runtime call key route.selection).insertPlan runtime call route.selection)

def selectCandidate (trie : PrefixTrie) (runtime : Runtime) (call : SelectCall) :
    Option ServiceRouteSelection × ServiceRouteStore :=
  match s.snapshot.candidates trie call.address with
  | none => (none, s)
  | some candidates =>
    match call.eligible candidates with
    | none => (none, s)
    | some eligible =>
      match eligible.head? with
      | none => (none, s)
      | some first =>
        let key : GatewayFlowKey := ⟨first.cidr, call.flow⟩
        match s.pins.lookup key with
        | none => s.selectNew runtime call key eligible
        | some pin =>
          if s.pinIsCurrent call eligible pin then
            (some pin.selection, s.insertPlan runtime call pin.selection)
          else
            selectNew { s with pins := s.pins.erase key } runtime call key eligible

def selectGateway (trie : PrefixTrie) (runtime : Runtime) (call : SelectCall) :
    Option ServiceRouteSelection × ServiceRouteStore :=
  match s.plans.lookup call.planKey with
  | none => s.selectCandidate trie runtime call
  | some plan =>
    if s.planIsCurrent call plan then
      (some plan.selection, s)
    else
      selectCandidate { s with plans := s.plans.erase call.planKey } trie runtime call

end ServiceRouteStore

end LowerTier.Peers
