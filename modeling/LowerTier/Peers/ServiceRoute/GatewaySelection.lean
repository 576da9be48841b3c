import LowerTier.Peers.ServiceRoute.Snapshot

/-!
# Which gateway a flow gets

A selection is eligible if it belongs to a live route of the longest block that contains
the address, with the best preference among these and then the best metric.  A pin is
checked against the eligible routes at each call; a plan is checked for its age, its
generation and the liveness of its own gateway only, and the result below says when that
is enough.
-/

namespace LowerTier.Peers

open List ProofSupport ProofSupport.MachineInt Tunnel KeyedMap

/-- Higher preference, or the same preference and a lower metric. -/
def ServiceRoute.Outranks (better route : ServiceRoute) : Prop :=
  route.preference < better.preference ∨
    route.preference = better.preference ∧ better.metric < route.metric

instance (better route : ServiceRoute) : Decidable (better.Outranks route) := by
  unfold ServiceRoute.Outranks
  infer_instance

instance (routes : List ServiceRoute) (address : IpAddr) (cidr : IpCidr) :
    Decidable (LongestMatch routes address cidr) :=
  decidable_of_iff' _ (longestMatch_iff routes address cidr)

namespace ServiceRouteStore

variable {s : ServiceRouteStore} {call : SelectCall}

/-! ## Eligible selections -/

/-- Maximal preference among the live routes of the block, and minimal metric among those. -/
def Best (routes : List ServiceRoute) (call : SelectCall) (route : ServiceRoute) : Prop :=
  (∀ other ∈ routes, other.cidr = route.cidr → call.routeIsLive other →
    other.preference ≤ route.preference) ∧
  ∀ other ∈ routes, other.cidr = route.cidr → call.routeIsLive other →
    other.preference = route.preference → route.metric ≤ other.metric

instance (routes : List ServiceRoute) (call : SelectCall) (route : ServiceRoute) :
    Decidable (Best routes call route) := by
  unfold Best
  infer_instance

variable {routes : List ServiceRoute} {route : ServiceRoute}

theorem best_iff :
    Best routes call route ↔ ∀ other ∈ routes, other.cidr = route.cidr → call.routeIsLive other →
      ¬ other.Outranks route := by
  constructor
  · rintro ⟨hpreference, hmetric⟩ other hmem hcidr hlive (hbetter | ⟨hsame, hbetter⟩)
    · have := hpreference other hmem hcidr hlive
      omega
    · have := hmetric other hmem hcidr hlive hsame.symm
      omega
  · intro hnone
    constructor
    · intro other hmem hcidr hlive
      by_contra hlarger
      exact hnone other hmem hcidr hlive (.inl (by omega))
    · intro other hmem hcidr hlive hsame
      by_contra hsmaller
      exact hnone other hmem hcidr hlive (.inr ⟨hsame.symm, by omega⟩)

/-- The selection is that of a live route of the longest block, and the best of these. -/
def Eligible (routes : List ServiceRoute) (call : SelectCall)
    (selection : ServiceRouteSelection) : Prop :=
  ∃ route ∈ routes, route.selection = selection ∧
    LongestMatch routes call.address route.cidr ∧ call.routeIsLive route ∧ Best routes call route

instance (routes : List ServiceRoute) (call : SelectCall) (selection : ServiceRouteSelection) :
    Decidable (Eligible routes call selection) := by
  unfold Eligible
  infer_instance

/-- An eligible selection, or none because the longest block has no live route. -/
def Answers (s : ServiceRouteStore) (call : SelectCall) : Option ServiceRouteSelection → Prop
  | some selection => Eligible s.snapshot.routes call selection
  | none => ∀ route ∈ s.snapshot.routes,
      LongestMatch s.snapshot.routes call.address route.cidr → ¬ call.routeIsLive route

instance (s : ServiceRouteStore) (call : SelectCall) (answer : Option ServiceRouteSelection) :
    Decidable (s.Answers call answer) := by
  cases answer <;> unfold Answers <;> infer_instance

variable {candidates eligible : List ServiceRoute}

theorem eligible_some (h : call.eligible candidates = some eligible) (hroute : route ∈ eligible) :
    route ∈ candidates ∧ call.routeIsLive route ∧
      (∀ other ∈ candidates, call.routeIsLive other → other.preference ≤ route.preference) ∧
      ∀ other ∈ candidates, call.routeIsLive other → other.preference = route.preference →
        route.metric ≤ other.metric := by
  simp only [SelectCall.eligible, Option.bind_eq_bind, Option.bind_eq_some_iff] at h
  obtain ⟨bestPreference, hpreference, bestMetric, hmetric, heligible⟩ := h
  cases heligible
  obtain ⟨-, hmax⟩ := max?_eq_some_iff.mp hpreference
  obtain ⟨-, hmin⟩ := min?_eq_some_iff.mp hmetric
  simp only [mem_filter, Bool.and_eq_true, beq_iff_eq] at hroute
  obtain ⟨hmem, ⟨rfl, rfl⟩, hlive⟩ := hroute
  refine ⟨hmem, hlive, ?_, ?_⟩
  · intro other hother hlive'
    exact hmax _ (mem_map.mpr ⟨other, mem_filter.mpr ⟨hother, hlive'⟩, rfl⟩)
  · intro other hother hlive' hsame
    refine hmin _ (mem_map.mpr ⟨other, mem_filter.mpr ⟨hother, ?_⟩, rfl⟩)
    simp [hsame, hlive']

theorem eligible_none (h : call.eligible candidates = none ∨ call.eligible candidates = some []) :
    ∀ route ∈ candidates, ¬ call.routeIsLive route := by
  intro route hroute hlive
  -- some route has the best preference, and some of these the best metric
  have hpreferences : (candidates.filter call.routeIsLive).map (·.preference) ≠ [] := by
    simpa using ⟨route, hroute, hlive⟩
  obtain ⟨bestPreference, hmax⟩ := Option.isSome_iff_exists.mp (isSome_max?_of_ne_nil hpreferences)
  obtain ⟨hattained, -⟩ := max?_eq_some_iff.mp hmax
  obtain ⟨first, hfirst, rfl⟩ := mem_map.mp hattained
  obtain ⟨hfirstMem, hfirstLive⟩ := mem_filter.mp hfirst
  have hmetrics : (candidates.filter fun route => route.preference == first.preference &&
      call.routeIsLive route).map (·.metric) ≠ [] := by
    simpa using ⟨first, hfirstMem, rfl, hfirstLive⟩
  obtain ⟨bestMetric, hmin⟩ := Option.isSome_iff_exists.mp (isSome_min?_of_ne_nil hmetrics)
  obtain ⟨hattained', -⟩ := min?_eq_some_iff.mp hmin
  obtain ⟨best, hbest, rfl⟩ := mem_map.mp hattained'
  obtain ⟨hbestMem, hbestTest⟩ := mem_filter.mp hbest
  have hin : best ∈ candidates.filter fun route => route.preference == first.preference &&
      route.metric == best.metric && call.routeIsLive route := by
    simp_all
  have heligible : call.eligible candidates = some (candidates.filter fun route =>
      route.preference == first.preference && route.metric == best.metric &&
        call.routeIsLive route) := by
    simp only [SelectCall.eligible, hmax, hmin, Option.bind_eq_bind, Option.bind_some]
    rfl
  rw [heligible] at h
  rcases h with h | h
  · contradiction
  · rw [Option.some.inj h] at hin
    simp at hin

/-! ## The invariant of the caches -/

def OnLongestMatch (snapshot : ServiceRouteSnapshot) (address : IpAddr)
    (selection : ServiceRouteSelection) : Prop :=
  ∃ route ∈ snapshot.routes, route.selection = selection ∧
    LongestMatch snapshot.routes address route.cidr

structure Consistent (s : ServiceRouteStore) : Prop where
  indexed : s.snapshot.Indexed
  pins : ∀ key pin, s.pins.lookup key = some pin → pin.selection.cidr = key.cidr
  generation_le : ∀ key plan, s.plans.lookup key = some plan →
    plan.generation ≤ s.snapshot.generation
  plans : ∀ key plan, s.plans.lookup key = some plan →
    plan.generation = s.snapshot.generation →
      OnLongestMatch s.snapshot key.address plan.selection

variable {κ ν : Type} {cache : KeyedMap κ ν}

theorem lookup_of_lookup_reserveCapacity [DecidableEq κ] {runtime : Runtime}
    {capacity : Nat} {keep : ν → Bool} {key : κ} {value : ν}
    (h : (reserveCapacity runtime capacity keep cache).lookup key = some value) :
    cache.lookup key = some value := by
  simp only [reserveCapacity] at h
  split at h
  · exact h
  split at h
  · exact lookup_of_lookup_retain h
  · rw [lookup_foldl_erase] at h
    split_ifs at h
    exact lookup_of_lookup_retain h

variable {selection : ServiceRouteSelection}

theorem Consistent.insertPlan (h : s.Consistent) (runtime : Runtime)
    (hselection : OnLongestMatch s.snapshot call.address selection) :
    (s.insertPlan runtime call selection).Consistent := by
  have hcases : ∀ key plan, (s.insertPlan runtime call selection).plans.lookup key = some plan →
      key = call.planKey ∧ plan = ⟨s.snapshot.generation, selection, call.now⟩ ∨
        s.plans.lookup key = some plan := by
    intro key plan hplan
    rcases lookup_insert_cases hplan with hnew | ⟨-, hold⟩
    · exact .inl hnew
    · exact .inr (lookup_of_lookup_reserveCapacity hold)
  refine ⟨h.indexed, h.pins, ?_, ?_⟩
  · intro key plan hplan
    rcases hcases key plan hplan with ⟨-, rfl⟩ | hold
    · exact Nat.le_refl _
    · exact h.generation_le key plan hold
  · intro key plan hplan hgeneration
    rcases hcases key plan hplan with ⟨rfl, rfl⟩ | hold
    · exact hselection
    · exact h.plans key plan hold hgeneration

variable {key : GatewayFlowKey}

theorem Consistent.insertPin (h : s.Consistent) (runtime : Runtime)
    (hcidr : selection.cidr = key.cidr) : (s.insertPin runtime call key selection).Consistent := by
  refine ⟨h.indexed, ?_, h.generation_le, h.plans⟩
  intro other pin hpin
  rcases lookup_insert_cases hpin with ⟨rfl, rfl⟩ | ⟨-, hold⟩
  · exact hcidr
  · exact h.pins other pin (lookup_of_lookup_reserveCapacity hold)

theorem Consistent.erasePlan (h : s.Consistent) (key : GatewayFlowPlanKey) :
    Consistent { s with plans := s.plans.erase key } :=
  ⟨h.indexed, h.pins,
    fun other plan hplan => h.generation_le other plan (lookup_of_lookup_erase hplan),
    fun other plan hplan => h.plans other plan (lookup_of_lookup_erase hplan)⟩

theorem Consistent.erasePin (h : s.Consistent) (key : GatewayFlowKey) :
    Consistent { s with pins := s.pins.erase key } :=
  ⟨h.indexed, fun other pin hpin => h.pins other pin (lookup_of_lookup_erase hpin),
    h.generation_le, h.plans⟩

/-! ## A call that no plan answers -/

/-- What such a call leads to: the answer is right, and the store keeps its invariant and
its snapshot. -/
structure Serves (s : ServiceRouteStore) (call : SelectCall)
    (result : Option ServiceRouteSelection × ServiceRouteStore) : Prop where
  answers : s.Answers call result.1
  consistent : result.2.Consistent
  snapshot : result.2.snapshot = s.snapshot

theorem maxByKey_mem {key : ServiceRoute → UInt64}
    (h : maxByKey key routes = some route) : route ∈ routes := by
  cases routes with
  | nil => contradiction
  | cons first rest =>
    cases h
    refine foldlRecOn (motive := (· ∈ first :: rest)) rest _ mem_cons_self
      fun best hbest next hnext => ?_
    split
    · exact mem_cons_of_mem _ hnext
    · exact hbest

theorem maxByKey_isSome (key : ServiceRoute → UInt64)
    (h : routes ≠ []) : ∃ route, maxByKey key routes = some route := by
  cases routes with
  | nil => contradiction
  | cons first rest => exact ⟨_, rfl⟩

theorem Eligible.onLongestMatch (h : Eligible s.snapshot.routes call selection) :
    OnLongestMatch s.snapshot call.address selection := by
  obtain ⟨route, hmem, hselection, hlongest, -⟩ := h
  exact ⟨route, hmem, hselection, hlongest⟩

section

variable (heligible : ∀ route ∈ eligible, route.cidr = key.cidr ∧
  Eligible s.snapshot.routes call route.selection)
include heligible

theorem Consistent.selectNew (h : s.Consistent) (runtime : Runtime) (hsome : eligible ≠ []) :
    s.Serves call (s.selectNew runtime call key eligible) := by
  obtain ⟨route, hmax⟩ := maxByKey_isSome
    (fun route => runtime.routeHash call.flow route.gateway route.pathId) hsome
  obtain ⟨hcidr, hroute⟩ := heligible route (maxByKey_mem hmax)
  have hpinned : (s.insertPin runtime call key route.selection).Consistent :=
    h.insertPin runtime hcidr
  simp only [ServiceRouteStore.selectNew, hmax]
  exact ⟨hroute, hpinned.insertPlan runtime hroute.onLongestMatch, rfl⟩

theorem Consistent.eligible_pin (h : s.Consistent) {pin : GatewayPin}
    (hpin : s.pins.lookup key = some pin) (hcurrent : s.pinIsCurrent call eligible pin) :
    Eligible s.snapshot.routes call pin.selection := by
  simp only [pinIsCurrent, Bool.and_eq_true, any_eq_true, beq_iff_eq] at hcurrent
  obtain ⟨-, route, hroute, ⟨hgateway, hpath⟩, haction⟩ := hcurrent
  obtain ⟨hcidr, hselection⟩ := heligible route hroute
  have hsame : route.selection = pin.selection := by
    have hpinned := h.pins key pin hpin
    cases hpinSelection : pin.selection
    simp_all [ServiceRoute.selection]
  rwa [← hsame]

theorem Consistent.servePinned (h : s.Consistent) (runtime : Runtime) (hsome : eligible ≠ []) :
    s.Serves call (match s.pins.lookup key with
      | none => s.selectNew runtime call key eligible
      | some pin =>
        if s.pinIsCurrent call eligible pin then
          (some pin.selection, s.insertPlan runtime call pin.selection)
        else
          ServiceRouteStore.selectNew { s with pins := s.pins.erase key } runtime call key
            eligible) := by
  split
  · exact h.selectNew heligible runtime hsome
  next pin hpin =>
  split
  · next hcurrent =>
    have hpinned := h.eligible_pin heligible hpin hcurrent
    exact ⟨hpinned, h.insertPlan runtime hpinned.onLongestMatch, rfl⟩
  · exact { (h.erasePin key).selectNew (by exact heligible) runtime hsome with }

end

theorem Consistent.selectCandidate (h : s.Consistent) (trie : PrefixTrie) (runtime : Runtime) :
    s.Serves call (s.selectCandidate trie runtime call) := by
  unfold ServiceRouteStore.selectCandidate
  split
  · next hnone =>
    refine ⟨?_, h, rfl⟩
    intro route hmem hlongest
    exact absurd hlongest.contains (h.indexed.candidates_none hnone route hmem)
  next candidates hcandidates =>
  obtain ⟨cidr, hlongest, hmem⟩ := h.indexed.candidates_some hcandidates
  -- the candidates have no live route, so the longest block has none
  have hdead : (∀ route ∈ candidates, ¬ call.routeIsLive route) → s.Answers call none := by
    intro hdead route hroute hmatch
    exact hdead route ((hmem route).mpr ⟨hroute, hmatch.unique hlongest⟩)
  split
  · next hnone => exact ⟨hdead (eligible_none (.inl hnone)), h, rfl⟩
  next eligible heligible =>
  have hselected : ∀ route ∈ eligible, route.cidr = cidr ∧
      Eligible s.snapshot.routes call route.selection := by
    intro route hroute
    obtain ⟨hin, hlive, hpreference, hmetric⟩ := eligible_some heligible hroute
    obtain ⟨hroutes, hcidr⟩ := (hmem route).mp hin
    refine ⟨hcidr, route, hroutes, rfl, hcidr ▸ hlongest, hlive, ?_, ?_⟩
    · intro other hother hsame
      exact hpreference other ((hmem other).mpr ⟨hother, hsame.trans hcidr⟩)
    · intro other hother hsame
      exact hmetric other ((hmem other).mpr ⟨hother, hsame.trans hcidr⟩)
  split
  · next hempty =>
    rw [head?_eq_none_iff.mp hempty] at heligible
    exact ⟨hdead (eligible_none (.inr heligible)), h, rfl⟩
  next first hfirst =>
  obtain rfl := (hselected first (mem_of_head? hfirst)).1
  have hsome : eligible ≠ [] := by
    rintro rfl
    simp at hfirst
  exact h.servePinned hselected runtime hsome

/-! ## Plans -/

/-- A plan answers the call, although every route that it may stand for is outranked by a
live route of the same block. -/
def Outranked (s : ServiceRouteStore) (call : SelectCall) : Prop :=
  ∃ plan ∈ s.plans.lookup call.planKey, s.planIsCurrent call plan ∧
    ∀ route ∈ s.snapshot.routes, route.selection = plan.selection →
      ∃ better ∈ s.snapshot.routes, better.cidr = route.cidr ∧ call.routeIsLive better ∧
        better.Outranks route

instance (s : ServiceRouteStore) (call : SelectCall) : Decidable (s.Outranked call) := by
  unfold Outranked
  infer_instance

theorem Consistent.selectGateway (h : s.Consistent) (trie : PrefixTrie) (runtime : Runtime)
    (call : SelectCall) :
    (s.selectGateway trie runtime call).2.Consistent ∧
      (s.selectGateway trie runtime call).2.snapshot = s.snapshot := by
  unfold ServiceRouteStore.selectGateway
  split
  · exact ⟨(h.selectCandidate trie runtime).consistent, (h.selectCandidate trie runtime).snapshot⟩
  split
  · exact ⟨h, rfl⟩
  · have herased := h.erasePlan call.planKey
    exact ⟨(herased.selectCandidate trie runtime).consistent,
      (herased.selectCandidate trie runtime).snapshot⟩

/-- The answer of a plan is eligible exactly if the plan is not outranked. -/
theorem Consistent.eligible_plan_iff (h : s.Consistent) {plan : GatewayFlowPlan}
    (hplan : s.plans.lookup call.planKey = some plan) (hcurrent : s.planIsCurrent call plan) :
    Eligible s.snapshot.routes call plan.selection ↔ ¬ s.Outranked call := by
  have hparts := hcurrent
  simp only [planIsCurrent, Bool.and_eq_true, beq_iff_eq] at hparts
  obtain ⟨⟨hgeneration, -⟩, hlive⟩ := hparts
  constructor
  · rintro ⟨route, hmem, hselection, -, -, hbest⟩ ⟨plan', hplan', -, houtranked⟩
    obtain rfl := Option.some.inj (hplan.symm.trans hplan')
    obtain ⟨better, hbetter, hcidr, hbetterLive, hranks⟩ := houtranked route hmem hselection
    exact best_iff.mp hbest better hbetter hcidr hbetterLive hranks
  · intro hnot
    obtain ⟨known, -, hknown, hlongest⟩ := h.plans call.planKey plan hplan hgeneration
    -- a route of the plan that no live route outranks
    obtain ⟨route, hmem, hselection, hunranked⟩ : ∃ route ∈ s.snapshot.routes,
        route.selection = plan.selection ∧ ∀ better ∈ s.snapshot.routes,
          better.cidr = route.cidr → call.routeIsLive better → ¬ better.Outranks route := by
      by_contra hall
      refine hnot ⟨plan, hplan, hcurrent, ?_⟩
      intro route hmem hselection
      by_contra hunranked
      refine hall ⟨route, hmem, hselection, ?_⟩
      intro better hbetter hcidr hbetterLive hranks
      exact hunranked ⟨better, hbetter, hcidr, hbetterLive, hranks⟩
    have hcidr : route.cidr = known.cidr :=
      congrArg ServiceRouteSelection.cidr (hselection.trans hknown.symm)
    refine ⟨route, hmem, hselection, hcidr ▸ hlongest, ?_, best_iff.mpr hunranked⟩
    rw [← hselection] at hlive
    exact hlive

theorem Consistent.answers_iff (h : s.Consistent) (trie : PrefixTrie) (runtime : Runtime) :
    s.Answers call (s.selectGateway trie runtime call).1 ↔ ¬ s.Outranked call := by
  -- without a plan that answers there is nothing to outrank
  have hfree : (∀ plan, s.plans.lookup call.planKey = some plan → ¬ s.planIsCurrent call plan) →
      ¬ s.Outranked call := by
    rintro hnone ⟨plan, hplan, hcurrent, -⟩
    exact hnone plan hplan hcurrent
  unfold ServiceRouteStore.selectGateway
  split
  · next hnone =>
    refine iff_of_true (h.selectCandidate trie runtime).answers (hfree ?_)
    intro plan hplan
    rw [hnone] at hplan
    contradiction
  · next plan hplan =>
    split
    · next hcurrent => exact h.eligible_plan_iff hplan hcurrent
    next hstale =>
    refine iff_of_true ((h.erasePlan call.planKey).selectCandidate trie runtime).answers (hfree ?_)
    intro plan' hplan'
    obtain rfl := Option.some.inj (hplan.symm.trans hplan')
    exact hstale

/-! ## Runs -/

end ServiceRouteStore

inductive RouteOp where
  | replaceSource (runtime : Runtime) (source : RouteSource) (routes : List ServiceRoute)
  | selectGateway (runtime : Runtime) (call : ServiceRouteStore.SelectCall)

def RouteOp.isReplace : RouteOp → Bool
  | .replaceSource .. => true
  | .selectGateway .. => false

namespace ServiceRouteStore

variable {s : ServiceRouteStore}

def step (trie : PrefixTrie) (s : ServiceRouteStore) : RouteOp → ServiceRouteStore
  | .replaceSource runtime source routes => s.replaceSource runtime source routes
  | .selectGateway runtime call => (s.selectGateway trie runtime call).2

theorem new_consistent (pinCapacity pinTtl : Nat) (hcapacity : 0 < pinCapacity) :
    (new pinCapacity pinTtl hcapacity).Consistent where
  indexed := by
    constructor
    · intro cidr candidates h
      cases cidr <;> simp [new, ServiceRouteSnapshot.lookup] at h
    · intro cidr h route hroute
      simp [new] at hroute
  pins key pin hpin := by simp [new] at hpin
  generation_le key plan hplan := by simp [new] at hplan
  plans key plan hplan := by simp [new] at hplan

theorem Consistent.replaceSource (h : s.Consistent) (runtime : Runtime) (source : RouteSource)
    (routes : List ServiceRoute) (hgeneration : s.snapshot.generation + 1 < 2 ^ 64) :
    (s.replaceSource runtime source routes).Consistent ∧
      (s.replaceSource runtime source routes).snapshot.generation = s.snapshot.generation + 1 := by
  have hnext : (s.replaceSource runtime source routes).snapshot.generation =
      s.snapshot.generation + 1 := by
    simp only [ServiceRouteStore.replaceSource, buildSnapshot,
      (ServiceRouteSnapshot.fromRoutes_routes _ _ _).2, wrappingAdd_of_lt hgeneration]
    omega
  refine ⟨⟨ServiceRouteSnapshot.fromRoutes_indexed _ _ _, h.pins, ?_, ?_⟩, hnext⟩
  · intro key plan hplan
    have := h.generation_le key plan hplan
    omega
  · intro key plan hplan hsame
    have := h.generation_le key plan hplan
    omega

theorem Consistent.run (trie : PrefixTrie) {ops : List RouteOp} (h : s.Consistent)
    (hops : s.snapshot.generation + ops.countP RouteOp.isReplace < 2 ^ 64) :
    (ops.foldl (step trie) s).Consistent := by
  induction ops generalizing s with
  | nil => exact h
  | cons op ops ih =>
    cases op with
    | replaceSource runtime source routes =>
      rw [countP_cons_of_pos (by rfl)] at hops
      obtain ⟨hnext, hgeneration⟩ := h.replaceSource runtime source routes (by omega)
      refine ih hnext ?_
      rw [step, hgeneration]
      omega
    | selectGateway runtime call =>
      obtain ⟨hnext, hsnapshot⟩ := h.selectGateway trie runtime call
      refine ih hnext ?_
      rw [step, hsnapshot]
      exact hops

/-- After every run of calls in which the generation does not wrap, with any gateways live
and any time at each call: the answer of `select_gateway` is eligible, or there is no live
route to select, exactly if no plan answers that is outranked by a live route. -/
theorem gateway_selection_eligible_iff (trie : PrefixTrie) {pinCapacity : Nat} (pinTtl : Nat)
    (hcapacity : 0 < pinCapacity) (ops : List RouteOp)
    (hops : ops.countP RouteOp.isReplace < 2 ^ 64) (runtime : Runtime) (call : SelectCall) :
    let s := ops.foldl (step trie) (new pinCapacity pinTtl hcapacity)
    s.Answers call (s.selectGateway trie runtime call).1 ↔ ¬ s.Outranked call := by
  have hconsistent := (new_consistent pinCapacity pinTtl hcapacity).run trie
    (show 0 + ops.countP RouteOp.isReplace < 2 ^ 64 by omega)
  exact hconsistent.answers_iff trie runtime

def preferredRoute : ServiceRoute :=
  ⟨.tenSlashEight, 1, 10, 0, 0, .forward⟩

def fallbackRoute : ServiceRoute :=
  ⟨.tenSlashEight, 2, 5, 0, 0, .forward⟩

def flowCall (gatewayIsLive : PeerId → Bool) (now : Nat) : SelectCall :=
  ⟨.v4 0x0a010203#32, 7, gatewayIsLive, now⟩

/-- The preferred gateway is dead at the first call and at the second. -/
theorem gateway_selection_eligible_fallback :
    let s := [.replaceSource .stable .static [preferredRoute, fallbackRoute],
      .selectGateway .stable (flowCall (· == 2) 0)].foldl (step .scan) (new 4 300 (by decide))
    s.Answers (flowCall (· == 2) 1) (some fallbackRoute.selection) := by
  exact (gateway_selection_eligible_iff .scan 300 (by decide) _ (by decide) .stable
    (flowCall (· == 2) 1)).mpr (by decide +kernel)

/-- The preferred gateway comes back within the lifetime of the plan: the flow stays on the
route with the lower preference. -/
theorem plan_keeps_outranked_gateway :
    let s := [.replaceSource .stable .static [preferredRoute, fallbackRoute],
      .selectGateway .stable (flowCall (· == 2) 0)].foldl (step .scan) (new 4 300 (by decide))
    (s.selectGateway .scan .stable (flowCall (fun _ => true) 1)).1 =
        some fallbackRoute.selection ∧
      ¬ s.Answers (flowCall (fun _ => true) 1)
        (s.selectGateway .scan .stable (flowCall (fun _ => true) 1)).1 := by
  decide +kernel

end ServiceRouteStore

end LowerTier.Peers
