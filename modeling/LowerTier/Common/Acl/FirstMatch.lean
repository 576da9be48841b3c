import LowerTier.Common.Acl.CacheTransparency
import LowerTier.ProofSupport.PriorityOrder

/-!
# First match over the enabled chains

What the priorities of a configuration ask for, without compiled rules: the enabled rule of
highest priority that matches the packet, of all enabled chains of the type.  A fresh processor
asks the enabled chains one after the other instead, and takes its default from the first chain of
the type whether it is enabled or not.
-/

namespace LowerTier.Common.Acl

open AclConfig ChainType Chain List ProofSupport
open Peers (IpAddr IpCidr)

/-- The enabled rule of highest priority that matches; the first of several. -/
def Chain.firstMatch (parseCidr : String → Option IpCidr) (packet : PacketInfo)
    (chain : Chain) : Option Rule :=
  (chain.rules.filter fun rule => rule.enabled && rule.matchesPacket parseCidr packet).argmax
    Rule.priority

def Chain.defaultOf : Option Chain → Action
  | some chain => .ofI32 chain.defaultAction
  | none => .allow

namespace AclConfig

variable (config : AclConfig)

def chains : List Chain := (config.aclV1.map AclV1.chains).getD []

variable (parseCidr : String → Option IpCidr) (chainType : ChainType) (packet : PacketInfo)

def firstChain : Option Chain :=
  config.chains.find? fun chain => ofI32 chain.chainType == chainType

/-- The rule that decides about a packet: that of the first enabled chain that has one. -/
def firstMatch : Option Rule :=
  (config.enabledChains chainType).findSome? (Chain.firstMatch parseCidr packet)

def enabledDefault : Action :=
  defaultOf (config.enabledChains chainType).head?

/-- The rule that the priorities ask for: the highest one of all enabled chains. -/
def highestMatch : Option Rule :=
  (((config.enabledChains chainType).flatMap rules).filter fun rule =>
    rule.enabled && rule.matchesPacket parseCidr packet).argmax Rule.priority

/-- The verdict that the enabled rules and chains ask for. -/
def priorityAction : Action :=
  match config.highestMatch parseCidr chainType packet with
  | some rule => .ofI32 rule.action
  | none => config.enabledDefault chainType

/-- If a later chain has a rule of higher priority than the first chain that has one, the two
rules agree; and if no rule matches, a disabled first chain has the default action of the first
enabled one.  A packet of no chain type is dropped. -/
def OrderKept : Prop :=
  if chainType = .unspecifiedChain then
    config.priorityAction parseCidr chainType packet = .drop
  else
    match config.firstMatch parseCidr chainType packet with
    | some rule => ∀ higher ∈ config.highestMatch parseCidr chainType packet,
        rule.priority < higher.priority → Action.ofI32 rule.action = .ofI32 higher.action
    | none => ∀ chain ∈ config.firstChain chainType,
        chain.enabled = false → Action.ofI32 chain.defaultAction = config.enabledDefault chainType

def FirstChainEnabled : Prop :=
  ∀ chain ∈ config.firstChain chainType, chain.enabled = true

end AclConfig

variable {chainType : ChainType}

theorem ChainType.toI32_beq (raw : Int) (htype : chainType ≠ .unspecifiedChain) :
    (raw == chainType.toI32) = (ofI32 raw == chainType) := by
  rw [Bool.eq_iff_iff, beq_iff_eq, beq_iff_eq]
  constructor
  · rintro rfl
    cases chainType <;> rfl
  · intro hraw
    subst hraw
    unfold ofI32 at htype ⊢
    split
    · rfl
    · rfl
    · rfl
    · simp_all

variable (parseCidr : String → Option IpCidr) (chain : Chain)

theorem chainRules_eq_map :
    chainRules parseCidr chain = ((chain.rules.filter Rule.enabled).insertionSort fun left right =>
        right.priority ≤ left.priority).map (convertToFastLookupRule parseCidr) := by
  symm
  apply map_insertionSort
  intro left _ right _
  exact Iff.rfl

variable (packet : PacketInfo)

/-- The scan of a compiled chain finds the compilation of the rule that decides. -/
theorem find?_chainRules :
    (chainRules parseCidr chain).find? (fun rule => ruleMatches rule packet) =
      (chain.firstMatch parseCidr packet).map (convertToFastLookupRule parseCidr) := by
  rw [chainRules_eq_map, find?_map]
  congr 1
  have htest : (fun rule => ruleMatches rule packet) ∘ convertToFastLookupRule parseCidr =
      fun rule : Rule => rule.matchesPacket parseCidr packet :=
    funext fun rule => Rule.ruleMatches_convert parseCidr rule packet
  rw [htest, PriorityOrder.find?_insertionSort Rule.priority, filter_filter]
  congr 1
  apply filter_congr
  intro rule _
  exact Bool.and_comm _ _

theorem find?_enabledChains (chains : List Chain) :
    (chains.flatMap (chainRules parseCidr)).find? (fun rule => ruleMatches rule packet) =
      (chains.findSome? (firstMatch parseCidr packet)).map
        (convertToFastLookupRule parseCidr) := by
  rw [find?_flatMap, map_findSome?]
  simp only [find?_chainRules]
  rfl

/-! ## The processor decides by the reference semantics -/

theorem defaultActionOf_eq {config : AclConfig} (htype : chainType ≠ .unspecifiedChain) :
    defaultActionOf config chainType = defaultOf (config.firstChain chainType) := by
  unfold defaultActionOf AclConfig.firstChain AclConfig.chains
  cases config.aclV1 with
  | none => rfl
  | some v1 =>
    simp only [toI32_beq _ htype, Option.map_some, Option.getD_some]
    cases v1.chains.find? fun chain => ofI32 chain.chainType == chainType <;> rfl

/-- Behind an enabled first chain, the first chain is the first enabled one. -/
theorem firstChain_eq_head? {config : AclConfig}
    (hfirst : config.FirstChainEnabled chainType) :
    config.firstChain chainType = (config.enabledChains chainType).head? := by
  have hchains : config.enabledChains chainType = config.chains.filter fun chain =>
      chain.enabled && ofI32 chain.chainType == chainType := rfl
  rw [hchains, head?_filter]
  unfold AclConfig.FirstChainEnabled AclConfig.firstChain at hfirst
  unfold AclConfig.firstChain
  generalize config.chains = chains at hfirst
  induction chains with
  | nil => rfl
  | cons chain chains ih =>
    rw [find?_cons] at hfirst ⊢
    rw [find?_cons]
    cases htype : ofI32 chain.chainType == chainType with
    | true =>
      rw [htype] at hfirst
      simp [hfirst chain rfl]
    | false =>
      rw [htype] at hfirst
      simpa using ih hfirst

namespace AclProcessor

variable {parseCidr : String → Option IpCidr} {config config' : AclConfig}
  {chainType : ChainType} {packet : PacketInfo}

def freshAction (parseCidr : String → Option IpCidr) (config : AclConfig)
    (chainType : ChainType) (packet : PacketInfo) (inputs : Inputs) : Option Action :=
  ((new parseCidr config).processPacket packet chainType inputs).map fun result => result.1.action

theorem ruleEntry_action (rule : FastLookupRule) :
    (ruleEntry rule packet [] 0).aclResult.action = rule.action := by
  unfold ruleEntry
  split_ifs with hstateful
  · simp only [Bool.and_eq_true, beq_iff_eq] at hstateful
    exact hstateful.2.symm
  · rfl

theorem defaultActionFor_new (htype : chainType ≠ .unspecifiedChain) :
    (new parseCidr config).defaultActionFor chainType = defaultActionOf config chainType := by
  cases chainType with
  | unspecifiedChain => exact absurd rfl htype
  | inbound => rfl
  | outbound => rfl
  | forward => rfl

/-- The deciding rule gives the action, or else the default of the first chain. -/
theorem freshAction_eq (hconfig : NoRateLimits config) (htype : chainType ≠ .unspecifiedChain)
    (inputs : Inputs) :
    freshAction parseCidr config chainType packet inputs =
      some (match config.firstMatch parseCidr chainType packet with
        | some rule => .ofI32 rule.action
        | none => defaultActionOf config chainType) := by
  have hcompiled := compiled_new parseCidr hconfig
  have hfresh : (new parseCidr config).processPacket packet chainType inputs =
      some ((new parseCidr config).processMiss packet chainType
        ((new parseCidr config).cacheKey packet chainType) inputs) := rfl
  unfold freshAction
  rw [hfresh, Option.map_some, processMiss_fst hcompiled, verdict, rulesFor_new _ _ htype]
  dsimp only
  rw [find?_enabledChains, AclConfig.firstMatch]
  cases (config.enabledChains chainType).findSome? (firstMatch parseCidr packet) with
  | none => rw [← defaultActionFor_new htype]; rfl
  | some rule => exact congrArg some (ruleEntry_action _)

end AclProcessor

/-! ## Disabled rules and chains -/

def Chain.eraseDisabledRules (chain : Chain) : Chain :=
  { chain with rules := chain.rules.filter Rule.enabled }

theorem Chain.defaultOf_eraseDisabledRules (found : Option Chain) :
    defaultOf (found.map eraseDisabledRules) = defaultOf found := by
  cases found <;> rfl

theorem Chain.firstMatch_eraseDisabledRules :
    chain.eraseDisabledRules.firstMatch parseCidr packet = chain.firstMatch parseCidr packet := by
  simp only [firstMatch, eraseDisabledRules, filter_filter]
  congr 1
  apply filter_congr
  intro rule _
  cases rule.enabled <;> simp

variable (config : AclConfig)

namespace AclConfig

variable {config config' : AclConfig}

/-- What the enabled chains of a type say, without disabled rules. -/
def enabledPart (config : AclConfig) (chainType : ChainType) : List Chain :=
  (config.enabledChains chainType).map eraseDisabledRules

def SameEnabled (config config' : AclConfig) : Prop :=
  ∀ chainType, config.enabledPart chainType = config'.enabledPart chainType

def SameButDisabledRules (config config' : AclConfig) : Prop :=
  config.chains.map eraseDisabledRules = config'.chains.map eraseDisabledRules

theorem firstMatch_eq_enabledPart (packet : PacketInfo) :
    config.firstMatch parseCidr chainType packet =
      (config.enabledPart chainType).findSome? (Chain.firstMatch parseCidr packet) := by
  have hsame : Chain.firstMatch parseCidr packet ∘ Chain.eraseDisabledRules =
      Chain.firstMatch parseCidr packet :=
    funext fun chain => chain.firstMatch_eraseDisabledRules parseCidr packet
  rw [firstMatch, enabledPart, findSome?_map, hsame]

theorem enabledPart_eq_filter :
    config.enabledPart chainType = (config.chains.map eraseDisabledRules).filter fun chain =>
        chain.enabled && ofI32 chain.chainType == chainType := by
  rw [filter_map]
  rfl

theorem SameButDisabledRules.sameEnabled (hsame : config.SameButDisabledRules config') :
    config.SameEnabled config' := by
  intro chainType
  rw [enabledPart_eq_filter, enabledPart_eq_filter, hsame]

theorem SameButDisabledRules.defaultActionOf_eq
    (hsame : config.SameButDisabledRules config') (htype : chainType ≠ .unspecifiedChain) :
    defaultActionOf config chainType = defaultActionOf config' chainType := by
  have herased : ∀ config : AclConfig, defaultActionOf config chainType =
      defaultOf ((config.chains.map eraseDisabledRules).find? fun chain =>
        ofI32 chain.chainType == chainType) := by
    intro config
    rw [Acl.defaultActionOf_eq htype, find?_map, defaultOf_eraseDisabledRules]
    rfl
  rw [herased config, herased config', hsame]

end AclConfig

namespace AclProcessor

variable {parseCidr : String → Option IpCidr} {config config' : AclConfig}
  {chainType : ChainType} {packet : PacketInfo}

theorem NoRateLimits.of_sameEnabled (hconfig : NoRateLimits config)
    (hsame : config.SameEnabled config') : NoRateLimits config' := by
  intro chainType chain hchain rule hrule henabled
  have hmem : chain.eraseDisabledRules ∈ config.enabledPart chainType := by
    rw [hsame chainType]
    exact mem_map_of_mem hchain
  obtain ⟨source, hsource, herased⟩ := mem_map.mp hmem
  have hin : rule ∈ source.eraseDisabledRules.rules := by
    rw [herased]
    exact mem_filter.mpr ⟨hrule, henabled⟩
  exact hconfig chainType source hsource rule (mem_of_mem_filter hin) henabled

theorem firstMatch_cases (parseCidr : String → Option IpCidr) (packet : PacketInfo)
    (config : AclConfig) :
    (config.firstMatch parseCidr chainType packet = none ∧
      config.highestMatch parseCidr chainType packet = none) ∨
    ∃ rule higher, config.firstMatch parseCidr chainType packet = some rule ∧
      config.highestMatch parseCidr chainType packet = some higher ∧
        (higher = rule ∨ rule.priority < higher.priority) := by
  rw [highestMatch, filter_flatMap]
  exact PriorityOrder.findSome?_argmax_flatMap Rule.priority (fun chain : Chain =>
    chain.rules.filter fun rule => rule.enabled && rule.matchesPacket parseCidr packet) _

/-- The default action is the one of the first enabled chain unless a disabled chain in front of
it says otherwise. -/
theorem defaultActionOf_eq_enabledDefault_iff (htype : chainType ≠ .unspecifiedChain) :
    defaultActionOf config chainType = config.enabledDefault chainType ↔
      ∀ chain ∈ config.firstChain chainType, chain.enabled = false →
        Action.ofI32 chain.defaultAction = config.enabledDefault chainType := by
  rw [defaultActionOf_eq htype]
  constructor
  · intro hsame chain hchain _
    rw [← hsame, Option.mem_def.mp hchain]
    rfl
  · intro hdisabled
    by_cases hfirst : config.FirstChainEnabled chainType
    · rw [firstChain_eq_head? hfirst]
      rfl
    · obtain ⟨chain, hchain, henabled⟩ := not_forall₂.mp hfirst
      rw [hchain]
      exact hdisabled chain hchain (Bool.eq_false_iff.mpr henabled)

theorem freshAction_eq_priorityAction_iff (hconfig : NoRateLimits config) (inputs : Inputs) :
    freshAction parseCidr config chainType packet inputs =
        some (config.priorityAction parseCidr chainType packet) ↔
      config.OrderKept parseCidr chainType packet := by
  unfold AclConfig.OrderKept
  split_ifs with htype
  · subst htype
    exact Option.some_inj.trans eq_comm
  rw [freshAction_eq hconfig htype, Option.some_inj, priorityAction]
  rcases firstMatch_cases parseCidr packet config with
    ⟨hfirst, hhighest⟩ | ⟨rule, higher, hfirst, hhighest, horder⟩
  · rw [hfirst, hhighest]
    exact defaultActionOf_eq_enabledDefault_iff htype
  · rw [hfirst, hhighest]
    dsimp only
    constructor
    · intro hsame other hother _
      rw [← Option.some_inj.mp hother]
      exact hsame
    · intro hagree
      rcases horder with rfl | hlt
      · rfl
      · exact hagree higher rfl hlt

/-- The configuration behind one more chain, which is disabled. -/
def behindDisabled (config : AclConfig) (chainType : ChainType) (defaultAction : Int) : AclConfig :=
  ⟨some ⟨⟨chainType.toI32, false, [], defaultAction⟩ :: config.chains⟩⟩

theorem sameEnabled_behindDisabled (chainType : ChainType) (defaultAction : Int) :
    config.SameEnabled (behindDisabled config chainType defaultAction) := by
  intro chainType
  rw [enabledPart_eq_filter, enabledPart_eq_filter]
  rfl

theorem defaultActionOf_behindDisabled (defaultAction : Int) :
    defaultActionOf (behindDisabled config chainType defaultAction) chainType =
      .ofI32 defaultAction := by
  simp [defaultActionOf, behindDisabled]

theorem freshAction_of_unspecified (htype : chainType = .unspecifiedChain) (inputs : Inputs) :
    freshAction parseCidr config chainType packet inputs = some .drop := by
  subst htype
  rfl

/-- A disabled chain can change a verdict exactly if no rule gives it. -/
theorem disabled_chains_iff (hconfig : NoRateLimits config) :
    (∀ config' inputs, config.SameEnabled config' →
      freshAction parseCidr config' chainType packet inputs =
        freshAction parseCidr config chainType packet inputs) ↔
      chainType = .unspecifiedChain ∨
        (config.firstMatch parseCidr chainType packet).isSome = true := by
  have hmatch : ∀ config' : AclConfig, config.SameEnabled config' →
      config'.firstMatch parseCidr chainType packet =
        config.firstMatch parseCidr chainType packet := by
    intro config' hsame
    rw [firstMatch_eq_enabledPart, firstMatch_eq_enabledPart, hsame chainType]
  constructor
  · intro hsame
    by_contra hother
    obtain ⟨htype, hfirst⟩ := not_or.mp hother
    rw [Option.not_isSome_iff_eq_none] at hfirst
    -- a disabled chain in front that says something else
    obtain ⟨raw, hraw⟩ : ∃ raw, Action.ofI32 raw ≠ defaultActionOf config chainType := by
      by_cases hallow : defaultActionOf config chainType = .allow
      · exact ⟨2, by rw [hallow]; decide⟩
      · exact ⟨1, Ne.symm hallow⟩
    have henabled : config.SameEnabled _ := sameEnabled_behindDisabled chainType raw
    have hverdict := hsame _ ⟨0, fun _ => true⟩ henabled
    rw [freshAction_eq (hconfig.of_sameEnabled henabled) htype, freshAction_eq hconfig htype,
      hmatch _ henabled, hfirst, defaultActionOf_behindDisabled] at hverdict
    exact hraw (Option.some_inj.mp hverdict)
  · rintro (htype | hfirst) config' inputs hsame
    · rw [freshAction_of_unspecified htype, freshAction_of_unspecified htype]
    · by_cases htype : chainType = .unspecifiedChain
      · rw [freshAction_of_unspecified htype, freshAction_of_unspecified htype]
      · obtain ⟨rule, hrule⟩ := Option.isSome_iff_exists.mp hfirst
        rw [freshAction_eq (hconfig.of_sameEnabled hsame) htype, freshAction_eq hconfig htype,
          hmatch config' hsame, hrule]

/-- A fresh processor gives the verdict of the priorities exactly if the order of the chains does
not overrule them; disabled chains change no verdict of a rule, and disabled rules none at all. -/
theorem first_match_by_priority_iff (parseCidr : String → Option IpCidr) {config : AclConfig}
    (hconfig : NoRateLimits config) (chainType : ChainType) (packet : PacketInfo) :
    ((∀ inputs, freshAction parseCidr config chainType packet inputs =
        some (config.priorityAction parseCidr chainType packet)) ↔
      config.OrderKept parseCidr chainType packet) ∧
    ((∀ config' inputs, config.SameEnabled config' →
        freshAction parseCidr config' chainType packet inputs =
          freshAction parseCidr config chainType packet inputs) ↔
      chainType = .unspecifiedChain ∨
        (config.firstMatch parseCidr chainType packet).isSome = true) ∧
    ∀ config' inputs, config.SameButDisabledRules config' →
      freshAction parseCidr config' chainType packet inputs =
        freshAction parseCidr config chainType packet inputs := by
  refine ⟨⟨fun h => ?_, fun h inputs => ?_⟩, disabled_chains_iff hconfig, ?_⟩
  · exact (freshAction_eq_priorityAction_iff hconfig ⟨0, fun _ => true⟩).mp (h _)
  · exact (freshAction_eq_priorityAction_iff hconfig inputs).mpr h
  · intro config' inputs hsame
    have henabled := hsame.sameEnabled
    by_cases htype : chainType = .unspecifiedChain
    · rw [freshAction_of_unspecified htype, freshAction_of_unspecified htype]
    · rw [freshAction_eq (hconfig.of_sameEnabled henabled) htype, freshAction_eq hconfig htype,
        firstMatch_eq_enabledPart, firstMatch_eq_enabledPart,
        henabled chainType, hsame.defaultActionOf_eq htype]

/-- Two inbound chains: an allowing rule of one priority, then a dropping one of another. -/
def twoInboundChains (first second : Nat) : AclConfig :=
  ⟨some ⟨[⟨1, true, [⟨first, true, 5, [], [], [], [], 1, 0, 0, false, [], []⟩], 2⟩,
    ⟨1, true, [⟨second, true, 5, [], [], [], [], 2, 0, 0, false, [], []⟩], 2⟩]⟩⟩

theorem noRateLimits_twoInboundChains (first second : Nat) :
    NoRateLimits (twoInboundChains first second) := by
  intro chainType chain hchain rule hrule _
  simp only [enabledChains, twoInboundChains] at hchain
  grind

theorem first_match_by_priority_iff_two_chains :
    NoRateLimits (twoInboundChains 1000 10) ∧
    (∀ inputs, freshAction (fun _ => none) (twoInboundChains 1000 10) .inbound
      (packetWithPort .tcp (some 80)) inputs = some .allow) ∧
    ∀ config' inputs, (twoInboundChains 1000 10).SameEnabled config' →
      freshAction (fun _ => none) config' .inbound (packetWithPort .tcp (some 80)) inputs =
        freshAction (fun _ => none) (twoInboundChains 1000 10) .inbound
          (packetWithPort .tcp (some 80)) inputs := by
  have hconfig := noRateLimits_twoInboundChains 1000 10
  have hall := first_match_by_priority_iff (fun _ => none) hconfig .inbound
    (packetWithPort .tcp (some 80))
  refine ⟨hconfig, hall.1.mpr ?_, hall.2.1.mpr (.inr (by decide +kernel))⟩
  have hhighest : ∀ higher ∈ (twoInboundChains 1000 10).highestMatch (fun _ => none) .inbound
      (packetWithPort .tcp (some 80)), ¬1000 < higher.priority := by
    decide +kernel
  intro higher hhigher hlt
  exact absurd hlt (hhighest higher hhigher)

/-- The earlier chain decides, although a rule of the later one has a higher priority; and a chain
that is disabled gives the default. -/
theorem lower_priority_of_earlier_chain_decides :
    let verdict := fun config =>
      freshAction (fun _ => none) config .inbound (packetWithPort .tcp (some 80)) ⟨0, fun _ => true⟩
    (verdict (twoInboundChains 10 1000) = some .allow ∧
      (twoInboundChains 10 1000).priorityAction (fun _ => none) .inbound
        (packetWithPort .tcp (some 80)) = .drop) ∧
    verdict ⟨none⟩ = some .allow ∧ verdict (behindDisabled ⟨none⟩ .inbound 2) = some .drop := by
  decide +kernel

end AclProcessor

end LowerTier.Common.Acl
