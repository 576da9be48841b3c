import LowerTier.Common.Acl.Processor
import LowerTier.ProofSupport.PartialRun

/-!
# The verdict cache is transparent

The cache key keeps of a packet what the rules can tell apart, with one exception: it takes
an absent port for port zero.  As long as the protocol of a packet decides whether it has
ports, every entry holds the verdict of every packet with its key, and a cached verdict is
the one that the rules give.
-/

namespace LowerTier.Common.Acl

open List ProofSupport KeyedMap
open Peers (IpAddr IpCidr)

/-- The protocol decides which ports a packet has. -/
structure PacketInfo.PortsByProtocol (present : Protocol → Bool × Bool) (packet : PacketInfo) :
    Prop where
  src : packet.srcPort.isSome = (present packet.protocol).1
  dst : packet.dstPort.isSome = (present packet.protocol).2

theorem option_eq_of_getD {left right : Option Nat} (hsome : left.isSome = right.isSome)
    (hvalue : left.getD 0 = right.getD 0) : left = right := by
  cases left <;> cases right <;> simp_all

theorem find?_congr_of_mem {α : Type} {p q : α → Bool} {l : List α} (h : ∀ x ∈ l, p x = q x) :
    l.find? p = l.find? q := by
  rw [← head?_filter, ← head?_filter, filter_congr h]

variable {chainType chainType' : ChainType} {p q : PacketInfo}

namespace AclProcessor

variable {processor : AclProcessor} {present : Protocol → Bool × Bool}

def allRules (processor : AclProcessor) : List FastLookupRule :=
  processor.inboundRules ++ processor.outboundRules ++ processor.forwardRules

variable {chainType : ChainType} {rule : FastLookupRule} {rules : List FastLookupRule}

theorem mem_allRules (hrules : processor.rulesFor chainType = some rules) (hrule : rule ∈ rules) :
    rule ∈ processor.allRules := by
  unfold allRules
  cases chainType <;> simp only [rulesFor, Option.some.injEq, reduceCtorEq] at hrules <;>
    simp [hrules, hrule]

/-- What holds of the compiled rules: no rule has a rate limit, and a rule that asks for
groups makes the key hold them. -/
structure Compiled (processor : AclProcessor) : Prop where
  no_rate_limit : ∀ rule ∈ processor.allRules, rule.rateLimit = 0
  src_groups : processor.needsSrcGroups = false →
    ∀ rule ∈ processor.allRules, rule.sourceGroups.isEmpty = true
  dst_groups : processor.needsDstGroups = false →
    ∀ rule ∈ processor.allRules, rule.destinationGroups.isEmpty = true

theorem ruleMatches_of_cacheKey (hcompiled : processor.Compiled) (hrule : rule ∈ processor.allRules)
    (hp : p.PortsByProtocol present) (hq : q.PortsByProtocol present)
    (hkey : processor.cacheKey p chainType = processor.cacheKey q chainType') :
    ruleMatches rule p = ruleMatches rule q := by
  simp only [cacheKey, AclCacheKey.fromPacketInfo, AclCacheKey.mk.injEq] at hkey
  obtain ⟨-, hprotocol, hsrcIp, hdstIp, hsrcPort, hdstPort, hsrcGroups, hdstGroups⟩ := hkey
  have hsrc : p.srcPort = q.srcPort :=
    option_eq_of_getD (by rw [hp.src, hq.src, hprotocol]) hsrcPort
  have hdst : p.dstPort = q.dstPort :=
    option_eq_of_getD (by rw [hp.dst, hq.dst, hprotocol]) hdstPort
  have hsource : groupMatches rule.sourceGroups p.srcGroups =
      groupMatches rule.sourceGroups q.srcGroups := by
    cases hneeds : processor.needsSrcGroups with
    | false => simp [groupMatches, hcompiled.src_groups hneeds rule hrule]
    | true =>
      rw [hneeds, if_pos rfl, if_pos rfl, Option.some.injEq] at hsrcGroups
      rw [hsrcGroups]
  have hdestination : groupMatches rule.destinationGroups p.dstGroups =
      groupMatches rule.destinationGroups q.dstGroups := by
    cases hneeds : processor.needsDstGroups with
    | false => simp [groupMatches, hcompiled.dst_groups hneeds rule hrule]
    | true =>
      rw [hneeds, if_pos rfl, if_pos rfl, Option.some.injEq] at hdstGroups
      rw [hdstGroups]
  unfold ruleMatches
  rw [hprotocol, hsrcIp, hdstIp, hsrc, hdst, hsource, hdestination]

/-! ## Evaluation without the cache -/

def verdict (processor : AclProcessor) (packet : PacketInfo) (chainType : ChainType) : AclResult :=
  match processor.rulesFor chainType with
  | none => ⟨.drop, some .default, false, some .unsupportedChainType⟩
  | some rules =>
    match rules.find? fun rule => ruleMatches rule packet with
    | some rule => (ruleEntry rule packet [] 0).aclResult
    | none => (defaultEntry (processor.defaultActionFor chainType) 0).aclResult

/-- The verdict on a packet when nothing is cached. -/
def uncached (processor : AclProcessor) (packet : PacketInfo) (chainType : ChainType)
    (inputs : Inputs) : Option AclResult :=
  ({ processor with ruleCache := ∅ }.processPacket packet chainType inputs).map Prod.fst

variable {packet : PacketInfo} {key : AclCacheKey}

section

variable (hcompiled : processor.Compiled)
include hcompiled

theorem verdict_of_cacheKey (hp : p.PortsByProtocol present) (hq : q.PortsByProtocol present)
    (hkey : processor.cacheKey p chainType = processor.cacheKey q chainType') :
    processor.verdict p chainType = processor.verdict q chainType' := by
  have hmatches : ∀ rule ∈ processor.allRules, ruleMatches rule p = ruleMatches rule q :=
    fun rule hrule => ruleMatches_of_cacheKey hcompiled hrule hp hq hkey
  simp only [cacheKey, AclCacheKey.fromPacketInfo, AclCacheKey.mk.injEq] at hkey
  obtain ⟨rfl, -, hsrcIp, hdstIp, -, -, -, -⟩ := hkey
  have hentry : ∀ rule, (ruleEntry rule p [] 0).aclResult = (ruleEntry rule q [] 0).aclResult := by
    intro rule
    simp only [ruleEntry, hsrcIp, hdstIp]
  unfold verdict
  cases hrules : processor.rulesFor chainType with
  | none => rfl
  | some rules =>
    have hfind : (rules.find? fun rule => ruleMatches rule p) =
        rules.find? fun rule => ruleMatches rule q :=
      find?_congr_of_mem fun rule hrule => hmatches rule (mem_allRules hrules hrule)
    dsimp only
    rw [hfind]
    cases rules.find? fun rule => ruleMatches rule q with
    | none => rfl
    | some rule => exact hentry rule

theorem Compiled.not_limited (hrules : processor.rulesFor chainType = some rules)
    (hfind : rules.find? (fun rule => ruleMatches rule packet) = some rule) :
    ¬rule.rateLimit > 0 := by
  rw [hcompiled.no_rate_limit rule (mem_allRules hrules (mem_of_find?_eq_some hfind))]
  exact Nat.lt_irrefl 0

theorem processMiss_fst (inputs : Inputs) :
    (processor.processMiss packet chainType key inputs).1 = processor.verdict packet chainType := by
  unfold processMiss verdict
  cases hrules : processor.rulesFor chainType with
  | none => rfl
  | some rules =>
    dsimp only
    cases hfind : rules.find? fun rule => ruleMatches rule packet with
    | none => rfl
    | some rule =>
      dsimp only
      rw [if_neg (hcompiled.not_limited hrules hfind)]
      unfold ruleEntry
      split_ifs <;> rfl

theorem uncached_eq (inputs : Inputs) :
    processor.uncached packet chainType inputs = some (processor.verdict packet chainType) := by
  have hempty : Compiled { processor with ruleCache := ∅ } := { hcompiled with }
  unfold uncached processPacket
  exact congrArg some (processMiss_fst hempty inputs)

end

/-! ## Entries of the cache -/

/-- The entry holds the verdict of every packet with its key. -/
structure Faithful (processor : AclProcessor) (present : Protocol → Bool × Bool)
    (key : AclCacheKey) (entry : AclCacheEntry) : Prop where
  no_limits : entry.rateLimitKeys = []
  result : ∀ packet chainType, packet.PortsByProtocol present →
    processor.cacheKey packet chainType = key →
    entry.aclResult = processor.verdict packet chainType

def CacheFaithful (processor : AclProcessor) (present : Protocol → Bool × Bool)
    (cache : KeyedMap AclCacheKey AclCacheEntry) : Prop :=
  ∀ key entry, cache.lookup key = some entry → processor.Faithful present key entry

variable {cache : KeyedMap AclCacheKey AclCacheEntry} {entry : AclCacheEntry}

theorem CacheFaithful.cleanupCache (hcache : processor.CacheFaithful present cache)
    (maxSize now : Nat) : processor.CacheFaithful present (cleanupCache cache maxSize now) := by
  have hkept : ∀ keep, processor.CacheFaithful present (cache.retain keep) :=
    fun keep key entry hlookup => hcache key entry (lookup_of_lookup_retain hlookup)
  have herased : ∀ keep (removed : List (AclCacheKey × Nat)), processor.CacheFaithful present
        (removed.foldl (fun cache entry => cache.erase entry.1) (cache.retain keep)) := by
    intro keep removed
    refine foldlRecOn (motive := fun cache => processor.CacheFaithful present cache) _ _
      (hkept keep) ?_
    intro current hcurrent entry _ key found hlookup
    exact hcurrent key found (lookup_of_lookup_erase hlookup)
  unfold AclProcessor.cleanupCache
  dsimp only
  split_ifs
  · exact hkept _
  · exact herased _ _
  · exact hkept _
  · exact herased _ _

structure Transparent (processor : AclProcessor) (present : Protocol → Bool × Bool) : Prop where
  compiled : processor.Compiled
  cache : processor.CacheFaithful present processor.ruleCache

section

variable (htransparent : processor.Transparent present)
include htransparent

theorem Transparent.withCache {limiters : KeyedMap RateLimitKey Nat}
    (hcache : processor.CacheFaithful present cache) :
    Transparent { processor with rateLimiters := limiters, ruleCache := cache } present := by
  have hcompiled := htransparent.compiled
  refine ⟨{ hcompiled with }, ?_⟩
  intro key entry hlookup
  obtain ⟨hlimits, hresult⟩ := hcache key entry hlookup
  exact ⟨hlimits, hresult⟩

theorem Transparent.cacheResult (hentry : processor.Faithful present key entry)
    (now : Nat) : (processor.cacheResult key entry now).Transparent present := by
  have hinsert : processor.CacheFaithful present (processor.ruleCache.insert key entry) :=
    forall_lookup_insert htransparent.cache hentry
  apply htransparent.withCache
  split_ifs
  · exact hinsert.cleanupCache processor.cacheMaxSize now
  · exact hinsert

theorem Transparent.processMiss (hpacket : packet.PortsByProtocol present) (inputs : Inputs) :
    (processor.processMiss packet chainType (processor.cacheKey packet chainType)
      inputs).2.Transparent present := by
  have hcompiled := htransparent.compiled
  have hverdict : ∀ other chainType', other.PortsByProtocol present →
      processor.cacheKey other chainType' = processor.cacheKey packet chainType →
      processor.verdict packet chainType = processor.verdict other chainType' :=
    fun other chainType' hother hkey =>
      (verdict_of_cacheKey hcompiled hother hpacket hkey).symm
  have hfst : (processor.processMiss packet chainType (processor.cacheKey packet chainType)
      inputs).1 = processor.verdict packet chainType := processMiss_fst hcompiled inputs
  unfold AclProcessor.processMiss at hfst ⊢
  cases hrules : processor.rulesFor chainType with
  | none => exact htransparent
  | some rules =>
    rw [hrules] at hfst
    dsimp only at hfst ⊢
    cases hfind : rules.find? fun rule => ruleMatches rule packet with
    | none =>
      rw [hfind] at hfst
      exact htransparent.cacheResult
        ⟨rfl, fun other t hother hkey => hfst.trans (hverdict other t hother hkey)⟩ inputs.now
    | some rule =>
      rw [hfind] at hfst
      dsimp only at hfst ⊢
      rw [if_neg (hcompiled.not_limited hrules hfind)] at hfst ⊢
      have hkeys : (ruleEntry rule packet [] inputs.now).rateLimitKeys = [] := by
        unfold ruleEntry
        split_ifs <;> rfl
      exact htransparent.cacheResult
        ⟨hkeys, fun other t hother hkey => hfst.trans (hverdict other t hother hkey)⟩ inputs.now

end

/-! ## Runs -/

def Event.PortsByProtocol (present : Protocol → Bool × Bool) : Event → Prop
  | .packet info _ _ => info.PortsByProtocol present
  | .cleanup _ => True

/-- The verdict on a packet is the one that the rules give at that moment. -/
def VerdictUncached (processor : AclProcessor) : Event → Option AclResult → Prop
  | .packet info chainType inputs, output =>
    output.isSome = true ∧ output = processor.uncached info chainType inputs
  | .cleanup _, _ => True

theorem Transparent.step (event : Event) (htransparent : processor.Transparent present)
    (hevent : event.PortsByProtocol present) :
    ∃ output next, processor.step event = some (output, next) ∧
      processor.VerdictUncached event output ∧ next.Transparent present := by
  have hcompiled := htransparent.compiled
  cases event with
  | cleanup now =>
    have hcache := htransparent.cache.cleanupCache processor.cacheMaxSize now
    exact ⟨none, _, rfl, trivial, htransparent.withCache hcache⟩
  | packet info chainType inputs =>
    have hreference : processor.uncached info chainType inputs =
        some (processor.verdict info chainType) := uncached_eq hcompiled inputs
    unfold AclProcessor.step processPacket
    dsimp only
    cases hlookup : processor.ruleCache.lookup (processor.cacheKey info chainType) with
    | some cached =>
      obtain ⟨hlimits, hresult⟩ := htransparent.cache _ cached hlookup
      refine ⟨some cached.aclResult, processor, ?_, ⟨rfl, ?_⟩, htransparent⟩
      · dsimp only
        rw [hlimits]
        rfl
      · rw [hreference, hresult info chainType hevent rfl]
    | none =>
      refine ⟨_, _, rfl, ⟨rfl, ?_⟩, htransparent.processMiss hevent inputs⟩
      rw [hreference]
      exact congrArg some (processMiss_fst hcompiled inputs)

def NoRateLimits (config : AclConfig) : Prop :=
  ∀ chainType, ∀ chain ∈ config.enabledChains chainType, ∀ rule ∈ chain.rules,
    rule.enabled = true → rule.rateLimit = 0

theorem compiled_new (parseCidr : String → Option IpCidr) {config : AclConfig}
    (hconfig : NoRateLimits config) : (new parseCidr config).Compiled := by
  have hvector : ∀ chainType, ∀ rule ∈ (buildRules parseCidr config).select chainType,
      rule.rateLimit = 0 := by
    intro chainType rule hrule
    by_cases htype : chainType = .unspecifiedChain
    · subst htype
      exact absurd hrule not_mem_nil
    rw [select_buildRules parseCidr config htype] at hrule
    obtain ⟨chain, hchain, hmem⟩ := mem_flatMap.mp hrule
    rw [chainRules, mem_insertionSort] at hmem
    obtain ⟨source, hin, rfl⟩ := mem_map.mp hmem
    obtain ⟨hsource, henabled⟩ := mem_filter.mp hin
    exact hconfig chainType chain hchain source hsource henabled
  refine ⟨?_, ?_, ?_⟩
  · intro rule hrule
    rcases mem_append.mp hrule with hfront | hforward
    · rcases mem_append.mp hfront with hinbound | houtbound
      · exact hvector .inbound rule hinbound
      · exact hvector .outbound rule houtbound
    · exact hvector .forward rule hforward
  · intro hneeds rule hrule
    simpa using any_eq_false.mp hneeds rule hrule
  · intro hneeds rule hrule
    simpa using any_eq_false.mp hneeds rule hrule

/-- Whatever packets and cleanups come in whatever order, a verdict is the one that the rules
give without the cache. -/
theorem verdict_cache_transparent (parseCidr : String → Option IpCidr) {config : AclConfig}
    (hconfig : NoRateLimits config) (present : Protocol → Bool × Bool) {events : List Event}
    (hevents : ∀ event ∈ events, event.PortsByProtocol present) :
    PartialRun.Every step VerdictUncached (new parseCidr config) events := by
  apply PartialRun.every_of_invariant (I := fun processor => processor.Transparent present)
    (fun processor event htransparent hevent => htransparent.step event hevent)
  · exact ⟨compiled_new parseCidr hconfig, fun key entry hlookup => by cases hlookup⟩
  · exact PartialRun.along_of_forall hevents

def tcpAndUdpPorts : Protocol → Bool × Bool
  | .tcp | .udp => (true, true)
  | _ => (false, false)

/-- One rule against source port 80 on an inbound chain that allows the rest. -/
def dropSourcePort80 : AclConfig :=
  ⟨some ⟨[⟨1, true, [⟨10, true, 5, [], [], [], ["80"], 2, 0, 0, false, [], []⟩], 1⟩]⟩⟩

def packetWithPort (protocol : Protocol) (port : Option Nat) : PacketInfo :=
  ⟨.v4 1, .v4 2, port, port, protocol, [], []⟩

theorem noRateLimits_dropSourcePort80 : NoRateLimits dropSourcePort80 := by
  intro chainType chain hchain rule hrule _
  have hmem := mem_of_mem_filter hchain
  simp only [dropSourcePort80, Option.map_some, Option.getD_some, mem_singleton] at hmem
  subst hmem
  simp only [mem_singleton] at hrule
  rw [hrule]

theorem verdict_cache_transparent_two_protocols :
    NoRateLimits dropSourcePort80 ∧
      PartialRun.Every step VerdictUncached (new (fun _ => none) dropSourcePort80)
        [.packet (packetWithPort .tcp (some 80)) .inbound ⟨0, fun _ => true⟩,
          .packet (packetWithPort .icmp none) .inbound ⟨1, fun _ => true⟩,
          .cleanup 2,
          .packet (packetWithPort .tcp (some 80)) .inbound ⟨3, fun _ => true⟩] := by
  refine ⟨noRateLimits_dropSourcePort80,
    verdict_cache_transparent (fun _ => none) noRateLimits_dropSourcePort80 tcpAndUdpPorts ?_⟩
  intro event hevent
  simp only [mem_cons, not_mem_nil, or_false] at hevent
  rcases hevent with rfl | rfl | rfl | rfl
  · exact ⟨rfl, rfl⟩
  · exact ⟨rfl, rfl⟩
  · trivial
  · exact ⟨rfl, rfl⟩

/-- A packet without ports leaves its verdict to a packet of the same protocol with port
zero, although the rules tell them apart. -/
theorem verdict_cache_mixes_absent_and_zero_port :
    ∃ result next second,
      (new (fun _ => none) dropSourcePort80).processPacket (packetWithPort .tcp none) .inbound
          ⟨0, fun _ => true⟩ = some (result, next) ∧
        (next.processPacket (packetWithPort .tcp (some 0)) .inbound ⟨1, fun _ => true⟩).map
          Prod.fst = some second ∧
        second.action = .drop ∧
        (next.uncached (packetWithPort .tcp (some 0)) .inbound ⟨1, fun _ => true⟩).map
          AclResult.action = some .allow := by
  refine ⟨_, _, _, rfl, rfl, ?_, ?_⟩
  · decide +kernel
  · decide +kernel

end AclProcessor

end LowerTier.Common.Acl
