import LowerTier.ProofSupport.MachineInt
import LowerTier.ProofSupport.Trace

/-!
# Rebuilding and publishing route tables (`PeerRouteServiceImpl` in `peers/peer_ospf_route.rs`)

A rebuild holds the rebuild lock from its request to its publication, while other threads change
the topology and its version.  It is a sequence of phases here, one for each stretch of
`rebuild_domains_locked` and `update_route_tables_for_domains` between two reads of the topology,
so that changes fall between any two reads.  What the tables are computed with is a parameter:
the builders of next hops, of the shared address maps and of the peer table, and the measurements
they take.  Foreign networks, counters and the captured graphs of a snapshot are left out.
-/

namespace LowerTier.Peers.OspfRoute

open ProofSupport ProofSupport.MachineInt

structure RouteRebuildDomains where
  topology : Bool := false
  cost : Bool := false
  delivery : Bool := false
  bridge : Bool := false
  foreign : Bool := false
deriving DecidableEq, Repr

namespace RouteRebuildDomains

def all : RouteRebuildDomains := ⟨true, true, true, true, true⟩

variable (domains : RouteRebuildDomains)

def needsRouteInput : Bool :=
  domains.topology || domains.cost || domains.delivery

def needsPublication : Bool :=
  domains.topology || domains.cost || domains.delivery || domains.bridge || domains.foreign

def bits : UInt8 :=
  domains.topology.toUInt8 ||| domains.cost.toUInt8 <<< 1 ||| domains.delivery.toUInt8 <<< 2 |||
    domains.bridge.toUInt8 <<< 3 ||| domains.foreign.toUInt8 <<< 4

end RouteRebuildDomains

structure CapturedTopology (Content : Type) where
  content : Content
  version : Nat
deriving DecidableEq

structure MeasuredTopology (Content Measurements : Type) where
  topology : CapturedTopology Content
  measurements : Measurements
  captureCost : Bool
  captureDelivery : Bool

structure RouteTable (NextHops SharedMaps : Type) where
  nextHops : NextHops
  sharedMaps : Option SharedMaps
  version : Nat
deriving DecidableEq

inductive DataPolicy where
  | leastHop | leastCost | maxGoodput
deriving DecidableEq, Repr

structure RouteModel where
  Content : Type
  Measurements : Type
  NextHops : Type
  SharedMaps : Type
  PeerTable : Type
  Evidence : Type
  withinBudget : MeasuredTopology Content Measurements → RouteRebuildDomains → Bool
  /-- `build_next_hop_map_from_input_checked`. -/
  nextHopMap : MeasuredTopology Content Measurements → DataPolicy → Option NextHops
  controlHops : MeasuredTopology Content Measurements → NextHops
  noHops : NextHops
  buildSharedMaps : MeasuredTopology Content Measurements → NextHops → SharedMaps
  /-- The peers of a hop table, with the verified bridge attestations. -/
  forwardingPeers : RouteTable NextHops SharedMaps → Evidence → PeerTable

namespace RouteModel

variable (M : RouteModel)

abbrev Topology := CapturedTopology M.Content

abbrev Input := MeasuredTopology M.Content M.Measurements

abbrev Table := RouteTable M.NextHops M.SharedMaps

def emptyTable : M.Table := ⟨M.noHops, none, 0⟩

structure ForwardingSnapshot where
  routeTable : M.Table
  routeTableWithCost : M.Table
  routeTableWithSpeed : M.Table
  controlHop : M.NextHops
  forwardingPeers : M.PeerTable

inductive Caller where
  | first (domains : RouteRebuildDomains)
  | second
  | third

inductive Phase where
  | idle
  | chooseTopology (caller : Caller) (domains : RouteRebuildDomains)
  | captureTopology (caller : Caller)
  | measure (caller : Caller) (domains : RouteRebuildDomains) (topology : M.Topology)
  | derive (caller : Caller) (domains : RouteRebuildDomains) (input : M.Input)
  | checkDerived (caller : Caller) (domains : RouteRebuildDomains) (input : M.Input)
  | updated (caller : Caller) (domains : RouteRebuildDomains) (input : M.Input)
  | notUpdated (caller : Caller)
  | checkLast (domains : RouteRebuildDomains) (input : M.Input)
  | conservative
  | publish (domains : RouteRebuildDomains)

structure RebuildState where
  /-- The synchronised route state. -/
  topology : M.Topology
  committedTopology : Option M.Topology
  routeTable : M.Table
  routeTableWithCost : M.Table
  routeTableWithSpeed : M.Table
  controlHop : M.NextHops
  routeRebuildFailures : UInt8
  forwardingSnapshot : M.ForwardingSnapshot
  phase : M.Phase

/-- What happens: another thread changes the topology, a rebuild is requested, or the rebuild
under way goes on with what it then measures, and with the answer of the publication. -/
inductive RebuildInput where
  | mutate (content : M.Content) (versions : Nat)
  | request (domains : RouteRebuildDomains)
  | advance (measurements : M.Measurements) (evidence : M.Evidence) (accepted : Bool)

namespace RebuildState

variable {M}

def init (content : M.Content) (evidence : M.Evidence) : M.RebuildState where
  topology := ⟨content, 0⟩
  committedTopology := none
  routeTable := M.emptyTable
  routeTableWithCost := M.emptyTable
  routeTableWithSpeed := M.emptyTable
  controlHop := M.noHops
  routeRebuildFailures := 0
  forwardingSnapshot :=
    ⟨M.emptyTable, M.emptyTable, M.emptyTable, M.noHops, M.forwardingPeers M.emptyTable evidence⟩
  phase := .idle

/-! ## The parts of a rebuild -/

variable (s : M.RebuildState)

def isCurrent (topology : M.Topology) : Bool :=
  s.topology.version == topology.version

variable (measurements : M.Measurements) (caller : Caller) (domains : RouteRebuildDomains)

def fail : M.RebuildState :=
  { s with routeRebuildFailures := s.routeRebuildFailures ||| domains.bits }

def replacePolicy (nextHops : M.NextHops) (sharedMaps : M.SharedMaps) (version : Nat) : M.Table :=
  ⟨nextHops, some sharedMaps, version⟩

def replaceNextHops (table : M.Table) (nextHops : M.NextHops) (version : Nat) : M.Table :=
  { table with nextHops, version }

def clearForVersion (table : M.Table) (version : Nat) : M.Table :=
  ⟨M.noHops, none, max table.version version⟩

/-- The topology of the build: a fresh one for the topology domain, otherwise the committed one
if it is current. -/
def chooseTopology : M.RebuildState :=
  if ¬domains.needsRouteInput then { s with phase := .notUpdated caller }
  else if domains.topology then { s with phase := .measure caller domains s.topology }
  else
    match s.committedTopology with
    | some committed =>
      if s.isCurrent committed then { s with phase := .measure caller domains committed }
      else { s with phase := .captureTopology caller }
    | none => { s with phase := .captureTopology caller }

/-- The domains whose work is within the budget. -/
def withinBudget (input : M.Input) (domains : RouteRebuildDomains) : RouteRebuildDomains :=
  { domains with
    cost := domains.cost && M.withinBudget input { cost := true }
    delivery := domains.delivery && M.withinBudget input { delivery := true } }

def measure (topology : M.Topology) : M.RebuildState :=
  let input : M.Input :=
    ⟨topology, measurements, domains.topology || domains.cost || domains.delivery,
      domains.topology || domains.delivery⟩
  let s := { s with routeRebuildFailures := s.routeRebuildFailures &&& ~~~domains.bits }
  if domains.topology then
    if M.withinBudget input domains then { s with phase := .derive caller domains input }
    else { s.fail .all with phase := .notUpdated caller }
  else
    let kept := withinBudget input domains
    let s := if domains.cost && !kept.cost then s.fail { cost := true } else s
    let s := if domains.delivery && !kept.delivery then s.fail { delivery := true } else s
    if kept.needsRouteInput then { s with phase := .derive caller kept input }
    else { s with phase := .notUpdated caller }

/-- All tables are built from a captured topology, which becomes the committed one. -/
def deriveAll (input : M.Input) : M.RebuildState :=
  match M.nextHopMap input .leastHop, M.nextHopMap input .leastCost,
      M.nextHopMap input .maxGoodput with
  | some baseline, some cost, some speed =>
    let control := M.controlHops input
    let sharedMaps := M.buildSharedMaps input control
    { s with
      committedTopology := some input.topology
      controlHop := control
      routeTable := replacePolicy baseline sharedMaps input.topology.version
      routeTableWithCost := replacePolicy cost sharedMaps input.topology.version
      routeTableWithSpeed := replacePolicy speed sharedMaps input.topology.version
      phase := .checkDerived caller domains input }
  | _, _, _ => { s.fail .all with phase := .notUpdated caller }

/-- The next hops of one policy are built again, if the domain asks for it and the build
succeeds. -/
def deriveOne (input : M.Input) (policy : DataPolicy) (wanted : Bool) (table : M.Table) :
    Bool × M.Table :=
  if wanted then
    match M.nextHopMap input policy with
    | some nextHops => (true, replaceNextHops table nextHops input.topology.version)
    | none => (false, table)
  else (false, table)

def deriveParts (input : M.Input) : M.RebuildState :=
  let (cost, routeTableWithCost) := deriveOne input .leastCost domains.cost s.routeTableWithCost
  let (delivery, routeTableWithSpeed) :=
    deriveOne input .maxGoodput domains.delivery s.routeTableWithSpeed
  let s := if domains.cost && !cost then s.fail { cost := true } else s
  let s := if domains.delivery && !delivery then s.fail { delivery := true } else s
  { s with
    routeTableWithCost
    routeTableWithSpeed
    phase := .checkDerived caller { domains with cost, delivery } input }

/-- What follows where no tables were built. -/
def notUpdated : Caller → M.RebuildState
  | .first domains =>
    let failures := s.routeRebuildFailures
    let s := { s with routeRebuildFailures := 0 }
    if failures &&& RouteRebuildDomains.all.bits ≠ 0 then { s with phase := .conservative }
    else if s.committedTopology.any s.isCurrent then { s with phase := .publish domains }
    else { s with phase := .chooseTopology .second .all }
  | .second | .third => { s with routeRebuildFailures := 0, phase := .conservative }

/-- What follows where tables were built: they are published unless the topology has changed. -/
def updated (input : M.Input) : M.RebuildState :=
  match caller with
  | .first _ | .second =>
    let s := { s with routeRebuildFailures := 0 }
    if s.isCurrent input.topology then { s with phase := .checkLast domains input }
    else { s with phase := .chooseTopology .third .all }
  | .third => { s with phase := .checkLast domains input }

/-- `publish_conservative_forwarding_snapshot` up to its publication. -/
def clearAll : M.RebuildState :=
  { s with
    routeTable := clearForVersion s.routeTable s.topology.version
    routeTableWithCost := clearForVersion s.routeTableWithCost s.topology.version
    routeTableWithSpeed := clearForVersion s.routeTableWithSpeed s.topology.version
    committedTopology := none
    phase := .publish .all }

variable (evidence : M.Evidence)

/-- The snapshot that `publish_forwarding_snapshot_for_domains` stores if it is accepted. -/
def nextSnapshot :
    M.ForwardingSnapshot :=
  let previous := s.forwardingSnapshot
  let routeTable := if domains.topology then s.routeTable else previous.routeTable
  { routeTable
    routeTableWithCost :=
      if domains.topology || domains.cost then s.routeTableWithCost
      else previous.routeTableWithCost
    routeTableWithSpeed :=
      if domains.topology || domains.delivery then s.routeTableWithSpeed
      else previous.routeTableWithSpeed
    controlHop := s.controlHop
    forwardingPeers :=
      if domains.topology || domains.bridge then M.forwardingPeers routeTable evidence
      else previous.forwardingPeers }

variable (accepted : Bool)

def publish : M.RebuildState :=
  if domains.needsPublication && accepted then
    { s with forwardingSnapshot := s.nextSnapshot domains evidence, phase := .idle }
  else { s with phase := .idle }

def advance : M.RebuildState :=
  match s.phase with
  | .idle => s
  | .chooseTopology caller domains => s.chooseTopology caller domains
  | .captureTopology caller => { s with phase := .measure caller .all s.topology }
  | .measure caller domains topology => s.measure measurements caller domains topology
  | .derive caller domains input =>
    if ¬s.isCurrent input.topology then { s with phase := .notUpdated caller }
    else if domains.topology then s.deriveAll caller domains input
    else s.deriveParts caller domains input
  | .checkDerived caller domains input =>
    if s.isCurrent input.topology then { s with phase := .updated caller domains input }
    else { s with phase := .notUpdated caller }
  | .updated caller domains input => s.updated caller domains input
  | .notUpdated caller => s.notUpdated caller
  | .checkLast domains input =>
    if s.isCurrent input.topology then { s with phase := .publish domains }
    else { s with phase := .idle }
  | .conservative => s.clearAll
  | .publish domains => s.publish domains evidence accepted

def stores : Bool :=
  match s.phase with
  | .publish domains => domains.needsPublication && accepted
  | _ => false

def step : M.RebuildInput → M.RebuildState × List M.ForwardingSnapshot
  | .mutate content versions =>
    ({ s with topology := ⟨content, wrappingAdd 32 s.topology.version versions⟩ }, [])
  | .request domains =>
    match s.phase with
    | .idle => ({ s with phase := .chooseTopology (.first domains) domains }, [])
    | _ => (s, [])
  | .advance measurements evidence accepted =>
    let next := s.advance measurements evidence accepted
    (next, if s.stores accepted then [next.forwardingSnapshot] else [])

end RebuildState

end RouteModel

end LowerTier.Peers.OspfRoute
