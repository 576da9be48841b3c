import LowerTier.Peers.ServiceRoute.Cidr
import LowerTier.ProofSupport.PriorityOrder
import LowerTier.Tunnel.PacketDef

/-!
# Waypoints and gateways of a path (`peers/path_policy.rs`)

A rule names segments; a flow picks one usable member of each, by the highest score or as the
first of the list.  What is picked for earlier segments is excluded from the later ones.  Scores
are values of a linear order, as `total_cmp` makes of `f64`.  Counters, and the table that keeps
the resolved members of one snapshot, are left out.
-/

namespace LowerTier.Peers.PathPolicy

open Option List ProofSupport ProofSupport.ByteString Tunnel

inductive PeerRef where
  | key (bytes : Bytes)
  | ip (address : IpAddr)
deriving DecidableEq

inductive Balance where
  | flow | failover
deriving DecidableEq, Repr

structure Member where
  peer : PeerRef
  weight : Nat
deriving DecidableEq

structure Segment where
  balance : Balance
  members : List Member

structure Rule where
  via : List Segment
  gateway : Option Segment
  strict : Bool

structure FeatureFlag where
  waypointV1 : Bool
  relaySemanticsV1 : Bool
  denyTransitData : Bool
  exitNode : Bool

structure PeerCapability where
  peerId : PeerId
  staticPubkey : Option Bytes
  featureFlag : Option FeatureFlag

/-- `next_hop` is that of the policy `LeastCost`. -/
structure ForwardingDecisionSnapshot where
  capabilities : List PeerCapability
  peerIdByIp : IpAddr → Option PeerId
  nextHop : PeerId → Option PeerId

/-- Of several peers with one key the last is in the table of keys. -/
def PeerRef.resolve (snapshot : ForwardingDecisionSnapshot) : PeerRef → Option PeerId
  | .key bytes =>
    (snapshot.capabilities.reverse.find? (·.staticPubkey == some bytes)).map (·.peerId)
  | .ip address => snapshot.peerIdByIp address

structure ResolvedMember where
  peer : Option PeerId := none
  reachable : Bool := false
  waypoint : Bool := false
  exit : Bool := false

inductive Role where
  | waypoint | gateway
deriving DecidableEq, Repr

structure GatewayChoice where
  peerId : PeerId
  rule : Nat
  exit : Bool
deriving DecidableEq, Repr

inductive WaypointPlan where
  | automatic
  | via (chain : List PeerId)
  | fallback
  | drop
deriving DecidableEq, Repr

structure PathRuntime (σ : Type) where
  myPeerId : PeerId
  rules : List Rule
  score : UInt64 → UInt64 → PeerId → Nat → σ

namespace PathRuntime

variable {σ : Type} (runtime : PathRuntime σ)
  (snapshot : ForwardingDecisionSnapshot)

def resolveMember (reference : PeerRef) : ResolvedMember :=
  match reference.resolve snapshot with
  | none => {}
  | some peerId =>
    let features := (snapshot.capabilities.find? (·.peerId == peerId)).bind (·.featureFlag)
    { peer := some peerId
      reachable := peerId != runtime.myPeerId && (snapshot.nextHop peerId).isSome
      waypoint := features.any fun features =>
        features.waypointV1 && features.relaySemanticsV1 && !features.denyTransitData
      exit := features.any (·.exitNode) }

/-- The peer of a member that can take the role. -/
def capable (role : Role) (exports : PeerId → Bool) (member : Member) : Option PeerId :=
  let resolved := runtime.resolveMember snapshot member.peer
  resolved.peer.filter fun peerId =>
    resolved.reachable &&
      match role with
      | .waypoint => resolved.waypoint
      | .gateway => resolved.exit || exports peerId

/-- The usable members, each with its peer. -/
def candidates (role : Role) (excluded : List PeerId) (exports : PeerId → Bool)
    (segment : Segment) : List (Member × PeerId) :=
  segment.members.filterMap fun member =>
    ((runtime.capable snapshot role exports member).filter (!excluded.contains ·)).map (member, ·)

variable [LinearOrder σ]

/-- `find_map`, or `max_by`: of several candidates with the highest score the last. -/
def choose (score : Member × PeerId → σ) : Balance → List (Member × PeerId) →
    Option (Member × PeerId)
  | .failover, candidates => candidates.head?
  | .flow, candidates => candidates.reverse.argmax score

def pick (segment : Segment) (flow salt : UInt64) (role : Role) (excluded : List PeerId)
    (exports : PeerId → Bool) : Option PeerId :=
  (choose (fun candidate => runtime.score flow salt candidate.2 candidate.1.weight)
    segment.balance (runtime.candidates snapshot role excluded exports segment)).map Prod.snd

def salt (ruleIndex position : Nat) : UInt64 :=
  UInt64.ofNat ruleIndex <<< 8 ||| UInt64.ofNat position

def gatewayForRule (ruleIndex : Nat) (flow : UInt64) (exports : PeerId → Bool) :
    Option GatewayChoice :=
  runtime.rules[ruleIndex]?.bind fun rule =>
    rule.gateway.bind fun gateway =>
      (runtime.pick snapshot gateway flow (salt ruleIndex rule.via.length) .gateway []
        exports).map fun peerId => ⟨peerId, ruleIndex, !exports peerId⟩

/-- The loop over the segments, with the chain so far. -/
def fillVia (ruleIndex : Nat) (destination : PeerId) (flow : UInt64) :
    List Segment → Nat → List PeerId → Option (List PeerId)
  | [], _, chain => some chain
  | segment :: rest, position, chain =>
    match runtime.pick snapshot segment flow (salt ruleIndex position) .waypoint
        (chain ++ [destination]) (fun _ => false) with
    | some peerId => fillVia ruleIndex destination flow rest (position + 1) (chain ++ [peerId])
    | none => none

def waypoints (ruleIndex : Nat) (destination : PeerId) (flow : UInt64) : WaypointPlan :=
  match runtime.rules[ruleIndex]? with
  | none => .automatic
  | some rule =>
    if rule.via.isEmpty then .automatic
    else
      match runtime.fillVia snapshot ruleIndex destination flow rule.via 0 [] with
      | some chain => .via chain
      | none => if rule.strict then .drop else .fallback

end PathRuntime

/-! ## What is picked -/

namespace PathRuntime

variable {σ : Type} {runtime : PathRuntime σ} {snapshot : ForwardingDecisionSnapshot}
  {segment : Segment} {segments : List Segment} {balance : Balance} {role : Role}
  {excluded chain taken : List PeerId} {exports : PeerId → Bool} {score : Member × PeerId → σ}
  {choices : List (Member × PeerId)} {choice : Member × PeerId} {ruleIndex position : Nat}
  {destination peerId : PeerId} {flow salt : UInt64}

theorem mem_candidates : choice ∈ runtime.candidates snapshot role excluded exports segment ↔
    choice.1 ∈ segment.members ∧
      runtime.capable snapshot role exports choice.1 = some choice.2 ∧ choice.2 ∉ excluded := by
  obtain ⟨member, peerId⟩ := choice
  simp only [candidates, mem_filterMap, map_eq_some_iff, filter_eq_some_iff,
    Bool.not_eq_true', contains_eq_mem, decide_eq_false_iff_not, Prod.mk.injEq]
  constructor
  · rintro ⟨found, hmem, peer, ⟨hcapable, hfree⟩, rfl, rfl⟩
    exact ⟨hmem, hcapable, hfree⟩
  · rintro ⟨hmem, hcapable, hfree⟩
    exact ⟨member, hmem, peerId, ⟨hcapable, hfree⟩, rfl, rfl⟩

variable (runtime snapshot) in
/-- The segment has a usable member with this peer. -/
def Offers (segment : Segment) (peerId : PeerId) : Prop :=
  ∃ member ∈ segment.members,
    runtime.capable snapshot .waypoint (fun _ => false) member = some peerId

theorem Offers.ne_self (h : runtime.Offers snapshot segment peerId) :
    peerId ≠ runtime.myPeerId := by
  obtain ⟨member, -, hcapable⟩ := h
  obtain ⟨hpeer, hable⟩ := filter_eq_some_iff.mp hcapable
  simp only [Bool.and_eq_true] at hable
  unfold resolveMember at hpeer hable
  cases hresolve : member.peer.resolve snapshot with
  | none =>
    rw [hresolve] at hpeer
    cases hpeer
  | some found =>
    rw [hresolve] at hpeer hable
    cases hpeer
    exact bne_iff_ne.mp (Bool.and_eq_true_iff.mp hable.1).1

theorem self_notMem (h : Forall₂ (runtime.Offers snapshot) segments chain) :
    runtime.myPeerId ∉ chain := by
  induction h with
  | nil => exact not_mem_nil
  | cons hoffers _ ih => exact not_mem_cons_of_ne_of_not_mem hoffers.ne_self.symm ih

/-- A member stays as it is, or can no longer be used and none of its peers is kept. -/
def Loses (kept : List PeerId) (before after : Option PeerId) : Prop :=
  after = before ∨ after = none ∧ ∀ peerId ∈ before, peerId ∉ kept

instance {kept before after} : Decidable (Loses kept before after) :=
  @instDecidableOr _ _ _ (@instDecidableAnd _ _ _ (decidableForallMem _))

variable {before after : ForwardingDecisionSnapshot} {exports' : PeerId → Bool}

/-- The candidates that are left are those of before that can still be used. -/
theorem candidates_of_loses (h : ∀ member ∈ segment.members, Loses chain
      (runtime.capable before role exports member) (runtime.capable after role exports' member)) :
    runtime.candidates after role excluded exports' segment =
      (runtime.candidates before role excluded exports segment).filter fun choice =>
        runtime.capable after role exports' choice.1 = some choice.2 := by
  rw [candidates, candidates, filter_filterMap]
  refine filterMap_congr fun member hmember => ?_
  refine ext fun choice => ?_
  simp only [filter_eq_some_iff, map_eq_some_iff]
  constructor
  · rintro ⟨peerId, ⟨hafter, hfree⟩, rfl⟩
    rcases h member hmember with hsame | ⟨hnone, -⟩
    · exact ⟨⟨peerId, ⟨hsame ▸ hafter, hfree⟩, rfl⟩, decide_eq_true hafter⟩
    · cases hnone.symm.trans hafter
  · rintro ⟨⟨peerId, ⟨-, hfree⟩, rfl⟩, hstill⟩
    exact ⟨peerId, ⟨of_decide_eq_true hstill, hfree⟩, rfl⟩

variable [LinearOrder σ]

theorem choose_mem (h : choose score balance choices = some choice) : choice ∈ choices := by
  cases balance with
  | flow => exact mem_reverse.mp (argmax_mem h)
  | failover => exact mem_of_head? h

theorem choose_eq_none (h : choose score balance choices = none) : choices = [] := by
  cases balance with
  | flow => exact reverse_eq_nil_iff.mp (argmax_eq_none.mp h)
  | failover => exact head?_eq_none_iff.mp h

theorem choose_filter (h : choose score balance choices = some choice)
    {test : Member × PeerId → Bool} (htest : test choice = true) :
    choose score balance (choices.filter test) = some choice := by
  cases balance with
  | flow =>
    rw [choose, ← filter_reverse]
    exact PriorityOrder.argmax_filter score test h htest
  | failover =>
    obtain ⟨rest, rfl⟩ := head?_eq_some_iff.mp h
    rw [choose, filter_cons_of_pos htest]
    rfl

theorem pick_eq_some (h : runtime.pick snapshot segment flow salt .waypoint excluded
    (fun _ => false) = some peerId) :
    runtime.Offers snapshot segment peerId ∧ peerId ∉ excluded := by
  obtain ⟨choice, hchoice, rfl⟩ := map_eq_some_iff.mp h
  obtain ⟨hmem, hcapable, hfree⟩ := mem_candidates.mp (choose_mem hchoice)
  exact ⟨⟨choice.1, hmem, hcapable⟩, hfree⟩

theorem pick_eq_none (h : runtime.pick snapshot segment flow salt .waypoint excluded
    (fun _ => false) = none) (hoffers : runtime.Offers snapshot segment peerId) :
    peerId ∈ excluded := by
  obtain ⟨member, hmem, hcapable⟩ := hoffers
  by_contra hfree
  have hcandidate : (member, peerId) ∈ runtime.candidates snapshot .waypoint excluded
      (fun _ => false) segment := mem_candidates.mpr ⟨hmem, hcapable, hfree⟩
  rw [choose_eq_none (map_eq_none_iff.mp h)] at hcandidate
  cases hcandidate

variable (runtime snapshot) in
/-- One usable member for each segment, all different and none the destination. -/
structure Choice (destination : PeerId) (segments : List Segment) (chain : List PeerId) : Prop where
  offered : Forall₂ (runtime.Offers snapshot) segments chain
  nodup : chain.Nodup
  destination : destination ∉ chain

theorem choice_of_fillVia (h : runtime.fillVia snapshot ruleIndex destination flow segments
    position taken = some chain) : ∃ picked, chain = taken ++ picked ∧
      runtime.Choice snapshot destination segments picked ∧ ∀ peerId ∈ picked, peerId ∉ taken := by
  induction segments generalizing position taken with
  | nil =>
    cases h
    exact ⟨[], (append_nil _).symm, ⟨.nil, nodup_nil, not_mem_nil⟩, nofun⟩
  | cons segment rest ih =>
    rw [fillVia] at h
    split at h
    · next peerId hpick =>
      obtain ⟨hoffers, hfree⟩ := pick_eq_some hpick
      obtain ⟨hnew, hdestination⟩ := not_or.mp (mem_append.not.mp hfree)
      obtain ⟨picked, rfl, hchoice, hother⟩ := ih h
      have hhead : peerId ∉ picked := fun hmem =>
        hother peerId hmem (mem_append_right _ mem_cons_self)
      refine ⟨peerId :: picked, append_assoc _ _ _, ⟨.cons hoffers hchoice.offered,
        nodup_cons.mpr ⟨hhead, hchoice.nodup⟩, ?_⟩, forall_mem_cons.mpr ⟨hnew, ?_⟩⟩
      · exact not_mem_cons_of_ne_of_not_mem (fun heq => hdestination (heq ▸ mem_cons_self))
          hchoice.destination
      · exact fun other hmem htaken => hother other hmem (mem_append_left _ htaken)
    · cases h

/-- If nothing taken is offered again, a segment that gets no peer has none but the
destination. -/
theorem no_choice_of_fillVia (hapart : segments.Pairwise fun left right =>
      ∀ peerId, runtime.Offers snapshot left peerId → ¬runtime.Offers snapshot right peerId)
    (htaken : ∀ peerId ∈ taken, ∀ segment ∈ segments, ¬runtime.Offers snapshot segment peerId)
    (h : runtime.fillVia snapshot ruleIndex destination flow segments position taken = none) :
    ¬runtime.Choice snapshot destination segments chain := by
  induction segments generalizing position taken chain with
  | nil => cases h
  | cons segment rest ih =>
    obtain ⟨hfirst, hrest⟩ := pairwise_cons.mp hapart
    rintro ⟨hoffered, hnodup, hdestination⟩
    obtain ⟨peerId, picked, hoffers, hpicked, rfl⟩ := forall₂_cons_left_iff.mp hoffered
    obtain ⟨hne, hdestination⟩ := not_or.mp (mem_cons.not.mp hdestination)
    rw [fillVia] at h
    split at h
    · next found hpick =>
      refine ih hrest ?_ h ⟨hpicked, (nodup_cons.mp hnodup).2, hdestination⟩
      intro other hother later hlater
      rcases mem_append.mp hother with hold | hnew
      · exact htaken other hold later (mem_cons_of_mem _ hlater)
      · exact mem_singleton.mp hnew ▸ hfirst later hlater found (pick_eq_some hpick).1
    · next hpick =>
      rcases mem_append.mp (pick_eq_none hpick hoffers) with hold | hnew
      · exact htaken peerId hold segment mem_cons_self hoffers
      · exact hne (mem_singleton.mp hnew).symm

/-- The loop stops at a segment whose usable members are all taken or the destination. -/
theorem fillVia_eq_none_iff :
    runtime.fillVia snapshot ruleIndex destination flow segments position taken = none ↔
      ∃ filled segment rest picked, segments = filled ++ segment :: rest ∧
        runtime.fillVia snapshot ruleIndex destination flow filled position taken = some picked ∧
        ∀ peerId, runtime.Offers snapshot segment peerId → peerId ∈ picked ++ [destination] := by
  constructor
  · intro h
    induction segments generalizing position taken with
    | nil => cases h
    | cons segment rest ih =>
      rw [fillVia] at h
      split at h
      · next peerId hpick =>
        obtain ⟨filled, stop, later, picked, rfl, hfilled, hstop⟩ := ih h
        refine ⟨segment :: filled, stop, later, picked, rfl, ?_, hstop⟩
        rw [fillVia, hpick]
        exact hfilled
      · next hpick => exact ⟨[], segment, rest, taken, rfl, rfl, fun _ => pick_eq_none hpick⟩
  · rintro ⟨filled, segment, rest, picked, rfl, hfilled, hstop⟩
    induction filled generalizing position taken with
    | nil =>
      cases hfilled
      rw [nil_append, fillVia]
      split
      · next peerId hpick =>
        obtain ⟨hoffers, hfree⟩ := pick_eq_some hpick
        exact absurd (hstop peerId hoffers) hfree
      · rfl
    | cons first filled ih =>
      rw [fillVia] at hfilled
      rw [cons_append, fillVia]
      split at hfilled
      · exact ih hfilled
      · cases hfilled

theorem waypoints_eq_via {rule : Rule} (hrule : runtime.rules[ruleIndex]? = some rule) :
    runtime.waypoints snapshot ruleIndex destination flow = .via chain ↔
      rule.via.isEmpty = false ∧
        runtime.fillVia snapshot ruleIndex destination flow rule.via 0 [] = some chain := by
  simp only [waypoints, hrule]
  cases hempty : rule.via.isEmpty with
  | true => simp
  | false =>
    cases runtime.fillVia snapshot ruleIndex destination flow rule.via 0 [] with
    | some filled => simp
    | none => cases rule.strict <;> simp

theorem waypoints_eq_unfilled {rule : Rule} (hrule : runtime.rules[ruleIndex]? = some rule)
    {plan : WaypointPlan} (hplan : plan ∈ [WaypointPlan.fallback, .drop]) :
    runtime.waypoints snapshot ruleIndex destination flow = plan ↔
      plan = (if rule.strict then .drop else .fallback) ∧
        runtime.fillVia snapshot ruleIndex destination flow rule.via 0 [] = none := by
  simp only [waypoints, hrule]
  cases hvia : rule.via with
  | nil => rcases mem_pair.mp hplan with rfl | rfl <;> simp [fillVia]
  | cons segment rest =>
    rw [isEmpty_cons, if_neg Bool.false_ne_true]
    cases runtime.fillVia snapshot ruleIndex destination flow (segment :: rest) 0 [] with
    | some filled => rcases mem_pair.mp hplan with rfl | rfl <;> simp
    | none => exact eq_comm.trans (and_iff_left rfl).symm

/-- A chain has one usable member of each segment in order, all different, without the destination
and this node.  The packet falls back or is dropped exactly if, with the segments filled in order,
all usable members of the next one are picked already or the destination; if no peer can be used in
two segments, there is no other choice then. -/
theorem waypoints_fill_in_order (runtime : PathRuntime σ) (snapshot : ForwardingDecisionSnapshot)
    (ruleIndex : Nat) (rule : Rule) (destination : PeerId) (flow : UInt64)
    (hrule : runtime.rules[ruleIndex]? = some rule) :
    (∀ chain, runtime.waypoints snapshot ruleIndex destination flow = .via chain →
      runtime.Choice snapshot destination rule.via chain ∧ runtime.myPeerId ∉ chain) ∧
    ∀ plan ∈ [WaypointPlan.fallback, .drop],
      (runtime.waypoints snapshot ruleIndex destination flow = plan ↔
        plan = (if rule.strict then .drop else .fallback) ∧
        ∃ filled segment rest picked, rule.via = filled ++ segment :: rest ∧
          runtime.fillVia snapshot ruleIndex destination flow filled 0 [] = some picked ∧
          ∀ peerId, runtime.Offers snapshot segment peerId → peerId ∈ picked ++ [destination]) ∧
      (runtime.waypoints snapshot ruleIndex destination flow = plan →
        (rule.via.Pairwise fun left right => ∀ peerId, runtime.Offers snapshot left peerId →
          ¬runtime.Offers snapshot right peerId) →
        ¬∃ chain, runtime.Choice snapshot destination rule.via chain) := by
  constructor
  · intro chain hvia
    obtain ⟨picked, rfl, hchoice, -⟩ := choice_of_fillVia ((waypoints_eq_via hrule).mp hvia).2
    exact ⟨hchoice, self_notMem hchoice.offered⟩
  · intro plan hplan
    have hunfilled : runtime.waypoints snapshot ruleIndex destination flow = plan ↔
        plan = (if rule.strict then .drop else .fallback) ∧
          runtime.fillVia snapshot ruleIndex destination flow rule.via 0 [] = none :=
      waypoints_eq_unfilled hrule hplan
    refine ⟨hunfilled.trans (and_congr_right' fillVia_eq_none_iff), ?_⟩
    rintro hnone hapart ⟨chain, hchoice⟩
    exact no_choice_of_fillVia hapart (by simp) (hunfilled.mp hnone).2 hchoice

/-- Every peer with an IPv4 address is a waypoint and an exit node. -/
def openSnapshot : ForwardingDecisionSnapshot where
  capabilities := [2, 3, 4].map fun peerId => ⟨peerId, none, some ⟨true, true, false, true⟩⟩
  peerIdByIp
    | .v4 address => some ⟨address⟩
    | .v6 _ => none
  nextHop peerId := some peerId

def memberAt (address : BitVec 32) : Member := ⟨.ip (.v4 address), 1⟩

def runtimeVia (via : List Segment) : PathRuntime Nat where
  myPeerId := 1
  rules := [⟨via, some ⟨.flow, [memberAt 2, memberAt 3]⟩, false⟩]
  score _ _ peerId weight := weight * peerId.toNat

def apart : List Segment := [⟨.failover, [memberAt 2]⟩, ⟨.flow, [memberAt 3]⟩]

theorem waypoints_fill_in_order_apart :
    ¬∃ chain, (runtimeVia apart).Choice openSnapshot 3 apart chain :=
  ((waypoints_fill_in_order (runtimeVia apart) openSnapshot 0 _ 3 0 rfl).2 .fallback
    mem_cons_self).2 (by decide) (pairwise_pair.mpr fun peerId ⟨_, hleft, h⟩ ⟨_, hright, h'⟩ => by
      rw [mem_singleton.mp hleft] at h
      rw [mem_singleton.mp hright] at h'
      cases h
      cases h')

def overlapping : List Segment :=
  [⟨.failover, [memberAt 2, memberAt 3]⟩, ⟨.failover, [memberAt 2]⟩]

/-- The first segment takes the only member of the second, although it has another one. -/
theorem waypoints_miss_choice :
    (runtimeVia overlapping).waypoints openSnapshot 0 9 0 = .fallback ∧
      (runtimeVia overlapping).Choice openSnapshot 9 overlapping [3, 2] := by
  refine ⟨by decide, ?_, by decide, by decide⟩
  exact .cons ⟨memberAt 3, mem_cons_of_mem _ mem_cons_self, by decide⟩
    (.cons ⟨memberAt 2, mem_cons_self, by decide⟩ .nil)

/-! ## Members that are lost -/

theorem pick_of_loses (h : ∀ member ∈ segment.members, Loses chain
      (runtime.capable before role exports member) (runtime.capable after role exports' member))
    (hpick : runtime.pick before segment flow salt role excluded exports = some peerId)
    (hkept : peerId ∈ chain) :
    runtime.pick after segment flow salt role excluded exports' = some peerId := by
  obtain ⟨choice, hchoice, rfl⟩ := map_eq_some_iff.mp hpick
  obtain ⟨hmem, hcapable, -⟩ := mem_candidates.mp (choose_mem hchoice)
  have hstill : runtime.capable after role exports' choice.1 = some choice.2 := by
    rcases h choice.1 hmem with hsame | ⟨-, hlost⟩
    · exact hsame.trans hcapable
    · exact absurd hkept (hlost choice.2 hcapable)
  rw [pick, candidates_of_loses h, choose_filter hchoice (decide_eq_true hstill)]
  rfl

theorem fillVia_of_loses (h : ∀ segment ∈ segments, ∀ member ∈ segment.members, Loses chain
      (runtime.capable before .waypoint (fun _ => false) member)
      (runtime.capable after .waypoint (fun _ => false) member))
    (hfill : runtime.fillVia before ruleIndex destination flow segments position taken =
      some chain) :
    runtime.fillVia after ruleIndex destination flow segments position taken = some chain := by
  induction segments generalizing position taken with
  | nil => exact hfill
  | cons segment rest ih =>
    rw [fillVia] at hfill ⊢
    split at hfill
    · next peerId hpick =>
      obtain ⟨picked, hchain, -, -⟩ := choice_of_fillVia hfill
      have hkept : peerId ∈ chain := by simp [hchain]
      rw [pick_of_loses (h segment mem_cons_self) hpick hkept]
      exact ih (fun other hother => h other (mem_cons_of_mem _ hother)) hfill
    · cases hfill

/-- The loss of members that are not in the chain leaves the chain as it is, and the loss of other
members leaves the gateway as it is. -/
theorem losses_move_own_flows_only (runtime : PathRuntime σ)
    (before after : ForwardingDecisionSnapshot) (ruleIndex : Nat) (rule : Rule)
    (destination : PeerId) (flow : UInt64) (hrule : runtime.rules[ruleIndex]? = some rule) :
    (∀ chain, runtime.waypoints before ruleIndex destination flow = .via chain →
      (∀ segment ∈ rule.via, ∀ member ∈ segment.members, Loses chain
        (runtime.capable before .waypoint (fun _ => false) member)
        (runtime.capable after .waypoint (fun _ => false) member)) →
      runtime.waypoints after ruleIndex destination flow = .via chain) ∧
    (∀ gateway choice exports exports', rule.gateway = some gateway →
      runtime.gatewayForRule before ruleIndex flow exports = some choice →
      exports' choice.peerId = exports choice.peerId →
      (∀ member ∈ gateway.members, Loses [choice.peerId]
        (runtime.capable before .gateway exports member)
        (runtime.capable after .gateway exports' member)) →
      runtime.gatewayForRule after ruleIndex flow exports' = some choice) := by
  constructor
  · intro chain hvia hloses
    obtain ⟨hvia, hfill⟩ := (waypoints_eq_via hrule).mp hvia
    exact (waypoints_eq_via hrule).mpr ⟨hvia, fillVia_of_loses hloses hfill⟩
  · intro gateway choice exports exports' hgateway hchoice hexports hloses
    simp only [gatewayForRule, hrule, hgateway, bind_some] at hchoice ⊢
    obtain ⟨peerId, hpick, rfl⟩ := map_eq_some_iff.mp hchoice
    rw [pick_of_loses hloses hpick mem_cons_self, map_some, hexports]

/-- The snapshot after peer 2 has become unreachable. -/
def withoutPeerTwo : ForwardingDecisionSnapshot :=
  { openSnapshot with nextHop := fun peerId => if peerId = 2 then none else some peerId }

theorem losses_move_own_flows_only_chain_and_gateway :
    (runtimeVia
      [⟨.flow, [memberAt 2, memberAt 3]⟩, ⟨.failover, [memberAt 4, memberAt 2]⟩]).waypoints
        withoutPeerTwo 0 9 0 = .via [3, 4] ∧
      (runtimeVia []).gatewayForRule withoutPeerTwo 0 0 (fun _ => false) = some ⟨3, 0, true⟩ :=
  ⟨(losses_move_own_flows_only _ openSnapshot _ 0 _ 9 0 rfl).1 [3, 4] (by decide) (by decide),
    (losses_move_own_flows_only _ openSnapshot _ 0 _ 9 0 rfl).2 _ ⟨3, 0, true⟩ (fun _ => false) _
      rfl (by decide) rfl (by decide)⟩

end PathRuntime

end LowerTier.Peers.PathPolicy
