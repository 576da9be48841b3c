import LowerTier.Peers.OspfRoute.RouteRebuild

/-!
# Snapshots from one topology

A rebuild of all domains computes every table from one captured topology and commits it; a
rebuild of costs or deliveries computes the next hops of one policy from the committed topology
and takes the other tables from the stored snapshot.  The tables of the service always go with
the committed topology.  The stored snapshot does not, once a publication has been rejected.
-/

namespace LowerTier.Peers.OspfRoute

open ProofSupport

namespace RouteModel

variable {M : RouteModel}

structure Built (version : Nat) (policy : DataPolicy) (table : M.Table) : Prop where
  version_eq : table.version = version
  nextHops : ∃ input : M.Input, input.topology.version = version ∧
    M.nextHopMap input policy = some table.nextHops
  sharedMaps : ∃ input : M.Input, input.topology.version = version ∧
    table.sharedMaps = some (M.buildSharedMaps input (M.controlHops input))

structure Cleared (table : M.Table) : Prop where
  nextHops : table.nextHops = M.noHops
  sharedMaps : table.sharedMaps = none

structure AllBuilt (version : Nat) (hop cost speed : M.Table) : Prop where
  hop : Built version .leastHop hop
  cost : Built version .leastCost cost
  speed : Built version .maxGoodput speed

structure AllCleared (hop cost speed : M.Table) : Prop where
  hop : Cleared hop
  cost : Cleared cost
  speed : Cleared speed

/-- The hop, cost and goodput tables and their address maps are derived from one version of the
topology, or all of them are empty, and the peer table is that of the hop table. -/
structure ForwardingSnapshot.FromOneTopology (snapshot : M.ForwardingSnapshot) : Prop where
  tables : (∃ version, AllBuilt version snapshot.routeTable snapshot.routeTableWithCost
      snapshot.routeTableWithSpeed) ∨
    AllCleared snapshot.routeTable snapshot.routeTableWithCost snapshot.routeTableWithSpeed
  peers : ∃ evidence, snapshot.forwardingPeers = M.forwardingPeers snapshot.routeTable evidence

namespace RebuildState

variable {s : M.RebuildState}

/-- A rebuild of costs or deliveries only uses the committed topology. -/
def PhaseCommitted (committed : Option M.Topology) : M.Phase → Prop
  | .measure _ domains topology => domains.topology = false → committed = some topology
  | .derive _ domains input | .checkDerived _ domains input | .updated _ domains input
  | .checkLast domains input => domains.topology = false → committed = some input.topology
  | .publish domains =>
    domains.topology = false → domains.cost = true ∨ domains.delivery = true →
      committed.isSome = true
  | _ => True

/-- The tables of the service are those of the committed topology, and the stored snapshot is
derived from one topology. -/
structure Coherent (s : M.RebuildState) : Prop where
  built : ∀ committed ∈ s.committedTopology,
    AllBuilt committed.version s.routeTable s.routeTableWithCost s.routeTableWithSpeed
  cleared : s.committedTopology = none →
    AllCleared s.routeTable s.routeTableWithCost s.routeTableWithSpeed
  snapshot : s.forwardingSnapshot.FromOneTopology
  phase : PhaseCommitted s.committedTopology s.phase

theorem emptyTable_cleared : Cleared M.emptyTable := ⟨rfl, rfl⟩

theorem coherent_init (content : M.Content) (evidence : M.Evidence) :
    (init content evidence : M.RebuildState).Coherent where
  built committed h := by cases h
  cleared _ := ⟨emptyTable_cleared, emptyTable_cleared, emptyTable_cleared⟩
  snapshot := ⟨.inr ⟨emptyTable_cleared, emptyTable_cleared, emptyTable_cleared⟩, evidence, rfl⟩
  phase := trivial

theorem Coherent.goto (h : s.Coherent) {t : M.RebuildState}
    (hphase : PhaseCommitted s.committedTopology t.phase)
    (hcommitted : t.committedTopology = s.committedTopology := by rfl)
    (hhop : t.routeTable = s.routeTable := by rfl)
    (hcost : t.routeTableWithCost = s.routeTableWithCost := by rfl)
    (hspeed : t.routeTableWithSpeed = s.routeTableWithSpeed := by rfl)
    (hsnapshot : t.forwardingSnapshot = s.forwardingSnapshot := by rfl) : t.Coherent where
  built := by
    rw [hcommitted, hhop, hcost, hspeed]
    exact h.built
  cleared := by
    rw [hcommitted, hhop, hcost, hspeed]
    exact h.cleared
  snapshot := hsnapshot ▸ h.snapshot
  phase := hcommitted ▸ hphase

theorem Coherent.chooseTopology (h : s.Coherent) (caller : Caller)
    (domains : RouteRebuildDomains) : (s.chooseTopology caller domains).Coherent := by
  unfold RebuildState.chooseTopology
  by_cases hneeded : domains.needsRouteInput = true
  · rw [if_neg (not_not.mpr hneeded)]
    by_cases htopology : domains.topology = true
    · rw [if_pos htopology]
      refine h.goto fun hpart => ?_
      cases htopology.symm.trans hpart
    rw [if_neg htopology]
    split
    · next committed hcommitted =>
      split_ifs
      · exact h.goto fun _ => hcommitted
      · exact h.goto trivial
    · exact h.goto trivial
  · rw [if_pos hneeded]
    exact h.goto trivial

variable {domains : RouteRebuildDomains}

theorem Coherent.measure (h : s.Coherent) (measurements : M.Measurements) (caller : Caller)
    {topology : M.Topology}
    (hcommitted : domains.topology = false → s.committedTopology = some topology) :
    (s.measure measurements caller domains topology).Coherent := by
  unfold RebuildState.measure
  dsimp only
  split_ifs
  all_goals first
    | exact h.goto hcommitted
    | exact h.goto trivial

theorem Coherent.deriveAll (h : s.Coherent) (caller : Caller) (htopology : domains.topology = true)
    (input : M.Input) : (s.deriveAll caller domains input).Coherent := by
  unfold RebuildState.deriveAll
  split
  · next baseline cost speed hbaseline hcost hspeed =>
    refine ⟨?_, fun hnone => (by cases hnone), h.snapshot, fun hpart => ?_⟩
    · intro committed hcommitted
      cases hcommitted
      exact ⟨⟨rfl, ⟨input, rfl, hbaseline⟩, input, rfl, rfl⟩,
        ⟨rfl, ⟨input, rfl, hcost⟩, input, rfl, rfl⟩,
        ⟨rfl, ⟨input, rfl, hspeed⟩, input, rfl, rfl⟩⟩
    · cases htopology.symm.trans hpart
  · exact h.goto trivial

variable {input : M.Input}

theorem deriveOne_built {policy : DataPolicy} (wanted : Bool) {table : M.Table}
    (h : Built input.topology.version policy table) :
    Built input.topology.version policy (deriveOne input policy wanted table).2 := by
  unfold deriveOne
  split_ifs
  · split
    · next nextHops hnextHops => exact ⟨rfl, ⟨input, rfl, hnextHops⟩, h.sharedMaps⟩
    · exact h
  · exact h

theorem Coherent.deriveParts (h : s.Coherent) (caller : Caller) (domains : RouteRebuildDomains)
    (hcommitted : s.committedTopology = some input.topology) :
    (s.deriveParts caller domains input).Coherent := by
  have hbuilt := h.built input.topology hcommitted
  have hderived : AllBuilt input.topology.version s.routeTable
      (deriveOne input .leastCost domains.cost s.routeTableWithCost).2
      (deriveOne input .maxGoodput domains.delivery s.routeTableWithSpeed).2 :=
    ⟨hbuilt.hop, deriveOne_built domains.cost hbuilt.cost,
      deriveOne_built domains.delivery hbuilt.speed⟩
  -- the failures that are noted on the way change nothing else
  have hcoherent : ∀ t : M.RebuildState, t.committedTopology = s.committedTopology →
      t.routeTable = s.routeTable → t.forwardingSnapshot = s.forwardingSnapshot →
        Coherent { t with
          routeTableWithCost := (deriveOne input .leastCost domains.cost s.routeTableWithCost).2
          routeTableWithSpeed :=
            (deriveOne input .maxGoodput domains.delivery s.routeTableWithSpeed).2
          phase := .checkDerived caller { domains with
              cost := (deriveOne input .leastCost domains.cost s.routeTableWithCost).1
              delivery := (deriveOne input .maxGoodput domains.delivery s.routeTableWithSpeed).1 }
            input } := by
    intro t hcommitted' hhop hsnapshot
    refine ⟨?_, fun hnone => ?_, hsnapshot ▸ h.snapshot, fun _ => hcommitted'.trans hcommitted⟩
    · intro committed hmem
      rw [show committed = input.topology from
        Option.some.inj (hmem.symm.trans (hcommitted'.trans hcommitted)), hhop]
      exact hderived
    · cases hnone.symm.trans (hcommitted'.trans hcommitted)
  unfold RebuildState.deriveParts
  dsimp only
  split_ifs <;> exact hcoherent _ rfl rfl rfl

theorem Coherent.notUpdated (h : s.Coherent) (caller : Caller) :
    (s.notUpdated caller).Coherent := by
  cases caller with
  | first domains =>
    unfold RebuildState.notUpdated
    dsimp only
    by_cases hfailures : s.routeRebuildFailures &&& RouteRebuildDomains.all.bits ≠ 0
    · rw [if_pos hfailures]
      exact h.goto trivial
    split_ifs with hcurrent
    · refine h.goto fun _ _ => ?_
      cases hcommitted : s.committedTopology with
      | none =>
        rw [hcommitted] at hcurrent
        cases hcurrent
      | some committed => rfl
    · exact h.goto trivial
  | second => exact h.goto trivial
  | third => exact h.goto trivial

theorem Coherent.updated (h : s.Coherent) (caller : Caller)
    (hcommitted : domains.topology = false → s.committedTopology = some input.topology) :
    (s.updated caller domains input).Coherent := by
  have hchecked :
      Coherent { s with routeRebuildFailures := 0, phase := .checkLast domains input } :=
    h.goto hcommitted
  cases caller with
  | first requested =>
    unfold RebuildState.updated
    dsimp only
    split_ifs
    · exact hchecked
    · exact h.goto trivial
  | second =>
    unfold RebuildState.updated
    dsimp only
    split_ifs
    · exact hchecked
    · exact h.goto trivial
  | third => exact h.goto hcommitted

theorem Coherent.clearAll (h : s.Coherent) : s.clearAll.Coherent where
  built committed hmem := by cases hmem
  cleared _ := ⟨⟨rfl, rfl⟩, ⟨rfl, rfl⟩, ⟨rfl, rfl⟩⟩
  snapshot := h.snapshot
  phase hpart := by cases hpart

/-- The stored snapshot was built from the version of the committed topology, where a publication
is about to combine it with newly built cost or goodput tables. -/
def PublishesCommitted (s : M.RebuildState) (accepted : Bool) : M.Phase → Prop
  | .publish domains =>
    accepted = true → domains.topology = false → domains.cost = true ∨ domains.delivery = true →
      ∀ committed ∈ s.committedTopology,
        s.forwardingSnapshot.routeTable.sharedMaps.isSome = true ∧
          s.forwardingSnapshot.routeTable.version = committed.version
  | _ => True

instance (s : M.RebuildState) (accepted : Bool) :
    (phase : M.Phase) → Decidable (s.PublishesCommitted accepted phase)
  | .publish _ =>
    inferInstanceAs (Decidable (_ = true → _ = false → _ ∨ _ → ∀ committed ∈ _, _ = true ∧ _ = _))
  | .idle | .chooseTopology _ _ | .captureTopology _ | .measure _ _ _ | .derive _ _ _
  | .checkDerived _ _ _ | .updated _ _ _ | .notUpdated _ | .checkLast _ _ | .conservative =>
    .isTrue trivial

def SnapshotCommitted (s : M.RebuildState) : M.RebuildInput → Prop
  | .advance _ _ accepted => s.PublishesCommitted accepted s.phase
  | .mutate _ _ | .request _ => True

instance (s : M.RebuildState) : (input : M.RebuildInput) → Decidable (s.SnapshotCommitted input)
  | .advance _ _ accepted => inferInstanceAs (Decidable (s.PublishesCommitted accepted s.phase))
  | .mutate _ _ | .request _ => .isTrue trivial

variable {snapshot : M.ForwardingSnapshot}

/-- A snapshot that is not empty is built from the version of its hop table. -/
theorem allBuilt_of_fromOneTopology
    (h : snapshot.FromOneTopology) (hmaps : snapshot.routeTable.sharedMaps.isSome = true) :
    AllBuilt snapshot.routeTable.version snapshot.routeTable snapshot.routeTableWithCost
      snapshot.routeTableWithSpeed := by
  rcases h.tables with ⟨version, hbuilt⟩ | hcleared
  · rw [hbuilt.hop.version_eq]
    exact hbuilt
  · rw [hcleared.hop.sharedMaps] at hmaps
    cases hmaps

theorem Coherent.nextSnapshot (h : s.Coherent)
    (hphase : s.phase = .publish domains) (evidence : M.Evidence)
    (hsnapshot : domains.topology = false → domains.cost = true ∨ domains.delivery = true →
      ∀ committed ∈ s.committedTopology,
        s.forwardingSnapshot.routeTable.sharedMaps.isSome = true ∧
          s.forwardingSnapshot.routeTable.version = committed.version) :
    (s.nextSnapshot domains evidence).FromOneTopology := by
  obtain ⟨hprevious, previousEvidence, hpeers⟩ := h.snapshot
  have hcommitted := h.phase
  rw [hphase] at hcommitted
  unfold RebuildState.nextSnapshot
  cases htopology : domains.topology with
  | true =>
    refine ⟨?_, evidence, by simp⟩
    cases hcase : s.committedTopology with
    | none => exact .inr (h.cleared hcase)
    | some committed => exact .inl ⟨_, h.built committed hcase⟩
  | false =>
    simp only [Bool.false_or, Bool.false_eq_true, if_false]
    refine ⟨?_, ?_⟩
    · by_cases hpart : domains.cost = true ∨ domains.delivery = true
      · obtain ⟨committed, hcase⟩ := Option.isSome_iff_exists.mp (hcommitted htopology hpart)
        obtain ⟨hmaps, hversion⟩ := hsnapshot htopology hpart committed hcase
        have hold := allBuilt_of_fromOneTopology h.snapshot hmaps
        rw [hversion] at hold
        have hnew := h.built committed hcase
        refine .inl ⟨committed.version, hold.hop, ?_, ?_⟩
        · dsimp only
          split_ifs
          · exact hnew.cost
          · exact hold.cost
        · dsimp only
          split_ifs
          · exact hnew.speed
          · exact hold.speed
      · rw [not_or, Bool.not_eq_true, Bool.not_eq_true] at hpart
        rw [hpart.1, hpart.2]
        exact hprevious
    · dsimp only
      split_ifs
      · exact ⟨evidence, rfl⟩
      · exact ⟨previousEvidence, hpeers⟩

theorem Coherent.advance (h : s.Coherent) (measurements : M.Measurements) (evidence : M.Evidence)
    (accepted : Bool) (hsnapshot : s.SnapshotCommitted (.advance measurements evidence accepted)) :
    (s.advance measurements evidence accepted).Coherent := by
  have hphase := h.phase
  unfold SnapshotCommitted at hsnapshot
  unfold RebuildState.advance
  cases hcase : s.phase with
  | idle => exact h
  | chooseTopology caller domains => exact h.chooseTopology caller domains
  | captureTopology caller => exact h.goto fun hpart => (by cases hpart)
  | measure caller domains topology =>
    rw [hcase] at hphase
    exact h.measure measurements caller hphase
  | derive caller domains input =>
    rw [hcase] at hphase
    dsimp only
    by_cases hcurrent : s.isCurrent input.topology = true
    · rw [if_neg (not_not.mpr hcurrent)]
      cases htopology : domains.topology with
      | true => exact h.deriveAll caller htopology input
      | false => exact h.deriveParts caller domains (hphase htopology)
    · rw [if_pos hcurrent]
      exact h.goto trivial
  | checkDerived caller domains input =>
    rw [hcase] at hphase
    dsimp only
    split_ifs
    · exact h.goto hphase
    · exact h.goto trivial
  | updated caller domains input =>
    rw [hcase] at hphase
    exact h.updated caller hphase
  | notUpdated caller => exact h.notUpdated caller
  | checkLast domains input =>
    rw [hcase] at hphase
    dsimp only
    split_ifs
    · refine h.goto fun hpart _ => ?_
      rw [hphase hpart]
      rfl
    · exact h.goto trivial
  | conservative => exact h.clearAll
  | publish domains =>
    rw [hcase] at hsnapshot
    dsimp only
    unfold RebuildState.publish
    split_ifs with hstored
    · rw [Bool.and_eq_true] at hstored
      exact ⟨h.built, h.cleared, h.nextSnapshot hcase evidence (hsnapshot hstored.2), trivial⟩
    · exact h.goto trivial

theorem Coherent.step (h : s.Coherent) {input : M.RebuildInput}
    (hsnapshot : s.SnapshotCommitted input) : (s.step input).1.Coherent := by
  cases input with
  | mutate content versions => exact h.goto h.phase
  | request domains =>
    unfold RebuildState.step
    dsimp only
    split
    · exact h.goto trivial
    · exact h
  | advance measurements evidence accepted =>
    exact h.advance measurements evidence accepted hsnapshot

theorem mem_step_stored {input : M.RebuildInput}
    (h : snapshot ∈ (s.step input).2) : snapshot = (s.step input).1.forwardingSnapshot := by
  cases input with
  | mutate content versions => cases h
  | request domains =>
    unfold RebuildState.step at h
    dsimp only at h
    split at h <;> cases h
  | advance measurements evidence accepted =>
    unfold RebuildState.step at h
    dsimp only at h
    split_ifs at h
    · exact List.mem_singleton.mp h
    · cases h

/-- In every run in which no rejected publication is followed by a publication of costs or
deliveries alone, every stored snapshot is derived from one topology. -/
theorem snapshots_from_one_topology (content : M.Content) (evidence : M.Evidence)
    (inputs : List M.RebuildInput)
    (hsnapshots : Trace.Always step (fun s _ input => s.SnapshotCommitted input)
      (init content evidence) [] inputs) :
    ∀ snapshot ∈ (Trace.run step (init content evidence) inputs).2, snapshot.FromOneTopology := by
  have hrun := Trace.run_invariant (I := fun s stored => s.Coherent ∧
    ∀ snapshot ∈ stored, snapshot.FromOneTopology) ?_ ⟨coherent_init content evidence, by simp⟩
    hsnapshots
  · exact hrun.2
  · rintro s stored input ⟨hcoherent, hstored⟩ hinput
    have hnext := hcoherent.step hinput
    refine ⟨hnext, fun snapshot hmem => ?_⟩
    rcases List.mem_append.mp hmem with hold | hnew
    · exact hstored snapshot hold
    · rw [mem_step_stored hnew]
      exact hnext.snapshot

/-- Only a publication that is accepted uses the stored snapshot. -/
theorem advance_snapshot (measurements : M.Measurements) (evidence : M.Evidence) (accepted : Bool) :
    { s with forwardingSnapshot := snapshot }.advance measurements evidence false =
      { s.advance measurements evidence accepted with forwardingSnapshot := snapshot } := by
  obtain ⟨_, committed, _, _, _, _, _, _, phase⟩ := s
  cases phase with
  | chooseTopology caller | updated caller | notUpdated caller =>
    cases caller <;> cases committed <;>
      grind [advance, chooseTopology, updated, notUpdated, isCurrent]
  | _ => grind [advance, measure, deriveAll, deriveParts, fail, clearAll, isCurrent, publish]

theorem Coherent.step_rejected (h : { s with forwardingSnapshot := snapshot }.Coherent)
    (input : M.RebuildInput) :
    { (s.step input).1 with forwardingSnapshot := snapshot }.Coherent := by
  cases input with
  | mutate => exact h.goto h.phase
  | request =>
    dsimp only [RebuildState.step]
    split
    · exact h.goto trivial
    · exact h
  | advance measurements evidence accepted =>
    refine advance_snapshot measurements evidence accepted ▸
      h.advance measurements evidence false ?_
    show PublishesCommitted _ false s.phase
    cases s.phase with
    | publish => exact nofun
    | _ => trivial

/-- Whatever publications are rejected, the tables of the service are those of the committed
topology, or all empty while there is none. -/
theorem tables_from_committed_topology (content : M.Content) (evidence : M.Evidence)
    (inputs : List M.RebuildInput) :
    let s := (Trace.run step (init content evidence) inputs).1
    (∀ committed ∈ s.committedTopology,
      AllBuilt committed.version s.routeTable s.routeTableWithCost s.routeTableWithSpeed) ∧
    (s.committedTopology = none →
      AllCleared s.routeTable s.routeTableWithCost s.routeTableWithSpeed) := by
  -- the tables are those of the run in which every publication is rejected
  have hrun := @Trace.run_preserves _ _ _ step (init content evidence) [] inputs
    (fun s _ =>
      { s with forwardingSnapshot := (init content evidence).forwardingSnapshot }.Coherent)
    (fun _ _ input h => h.step_rejected input) (coherent_init content evidence)
  exact ⟨hrun.built, hrun.cleared⟩

/-! ## A rejected publication

Next hops and shared maps are the version they are computed from. -/

def versionModel : RouteModel where
  Content := Unit
  Measurements := Unit
  NextHops := Nat
  SharedMaps := Nat
  PeerTable := Nat
  Evidence := Unit
  withinBudget _ _ := true
  nextHopMap input _ := some input.topology.version
  controlHops input := input.topology.version
  noHops := 0
  buildSharedMaps input _ := input.topology.version
  forwardingPeers table _ := table.version

def versionTable (version : Nat) : versionModel.Table := ⟨version, some version, version⟩

/-- A rebuild without changes of the topology in between, from its request to the answer to its
publication. -/
def rebuild (domains : RouteRebuildDomains) (accepted : Bool) : List versionModel.RebuildInput :=
  .request domains :: List.replicate 7 (.advance () () accepted)

def acceptedRebuilds : List versionModel.RebuildInput :=
  .mutate () 1 :: rebuild .all true ++ .mutate () 1 :: rebuild .all true ++
    rebuild { cost := true } true

theorem snapshots_from_one_topology_accepted :
    (Trace.run step (init () ()) acceptedRebuilds).2.length = 3 ∧
      ∀ snapshot ∈ (Trace.run step (init () ()) acceptedRebuilds).2,
        snapshot.FromOneTopology :=
  ⟨by decide +kernel, snapshots_from_one_topology () () acceptedRebuilds (by decide +kernel)⟩

/-- The same run with the publication of the second topology rejected: the snapshot that is
stored last has the hop table of the first topology and the cost table of the second. -/
theorem rejected_publication_mixes_topologies :
    ∃ snapshot ∈ (Trace.run step (init () () : versionModel.RebuildState)
        (.mutate () 1 :: rebuild .all true ++ .mutate () 1 :: rebuild .all false ++
          rebuild { cost := true } true)).2,
      snapshot.routeTable = versionTable 1 ∧ snapshot.routeTableWithCost = versionTable 2 ∧
        ¬snapshot.FromOneTopology := by
  refine ⟨⟨versionTable 1, versionTable 2, versionTable 1, (2 : Nat), (1 : Nat)⟩, ?_, rfl, rfl, ?_⟩
  · exact List.mem_of_getLast? (by rfl)
  · rintro ⟨⟨version, hbuilt⟩ | hcleared, -⟩
    · have hversions : (1 : Nat) = 2 := hbuilt.hop.version_eq.trans hbuilt.cost.version_eq.symm
      omega
    · cases hcleared.hop.sharedMaps

end RebuildState

end RouteModel

end LowerTier.Peers.OspfRoute
