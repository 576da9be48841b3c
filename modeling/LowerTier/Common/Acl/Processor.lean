import LowerTier.Common.Acl.Rule
import Mathlib.Data.List.Sort

/-!
# The access control processor (`common/acl_processor.rs`)

The rules are compiled once and never change.  A packet is looked up in the verdict cache
and evaluated against the rules on a miss.  Readings of the clock (in nanoseconds) and the
answers of the token buckets are arguments; a missing bucket panics, which is `none`.
Counters and the connection table are only written by the processor and are left out.
-/

namespace LowerTier.Common.Acl

open ProofSupport
open Peers (IpAddr IpCidr)

structure RateLimitKey where
  chainType : ChainType
  rulePriority : Nat
deriving DecidableEq

inductive RuleId where
  | priority (priority : Nat)
  | stateful (priority : Nat)
  | default
deriving DecidableEq

inductive AclLogContext where
  | statefulMatch (srcIp dstIp : IpAddr)
  | ruleMatch (srcIp dstIp : IpAddr) (action : Action)
  | defaultDrop
  | defaultAllow
  | unsupportedChainType
  | rateLimitDrop
deriving DecidableEq

structure AclResult where
  action : Action
  matchedRule : Option RuleId
  shouldLog : Bool
  logContext : Option AclLogContext
deriving DecidableEq

structure AclCacheKey where
  chainType : ChainType
  protocol : Protocol
  srcIp : IpAddr
  dstIp : IpAddr
  srcPort : Nat
  dstPort : Nat
  srcGroups : Option (List String)
  dstGroups : Option (List String)
deriving DecidableEq

def AclCacheKey.fromPacketInfo (packet : PacketInfo) (chainType : ChainType)
    (needsSrcGroups needsDstGroups : Bool) : AclCacheKey where
  chainType := chainType
  protocol := packet.protocol
  srcIp := packet.srcIp
  dstIp := packet.dstIp
  srcPort := packet.srcPort.getD 0
  dstPort := packet.dstPort.getD 0
  srcGroups := if needsSrcGroups then some packet.srcGroups else none
  dstGroups := if needsDstGroups then some packet.dstGroups else none

/-- A cached verdict; `acl_result` is set in every entry that is stored. -/
structure AclCacheEntry where
  matchedRule : RuleId
  createdAt : Nat
  rateLimitKeys : List RateLimitKey
  aclResult : AclResult
deriving DecidableEq

structure AclProcessor where
  inboundRules : List FastLookupRule
  outboundRules : List FastLookupRule
  forwardRules : List FastLookupRule
  needsSrcGroups : Bool
  needsDstGroups : Bool
  defaultInboundAction : Action
  defaultOutboundAction : Action
  defaultForwardAction : Action
  /-- The buckets with the time of their last use. -/
  rateLimiters : KeyedMap RateLimitKey Nat
  ruleCache : KeyedMap AclCacheKey AclCacheEntry
  cacheMaxSize : Nat
  cacheCleanupInterval : Nat

/-- One of the three lookups of `build_default_actions`: the first chain of the type. -/
def defaultActionOf (config : AclConfig) (chainType : ChainType) : Action :=
  match config.aclV1 with
  | some v1 =>
    match v1.chains.find? fun chain => chain.chainType == chainType.toI32 with
    | some chain => .ofI32 chain.defaultAction
    | none => .allow
  | none => .allow

variable (parseCidr : String → Option IpCidr)

/-- The rules of a chain as the processor scans them: higher priority first, and the
configured order where priorities are equal. -/
def chainRules (chain : Chain) : List FastLookupRule :=
  ((chain.rules.filter Rule.enabled).map (convertToFastLookupRule parseCidr)).insertionSort
    fun left right => right.priority ≤ left.priority

/-- The rule vectors for inbound, outbound and forward. -/
structure RuleVectors where
  inbound : List FastLookupRule
  outbound : List FastLookupRule
  forward : List FastLookupRule

def RuleVectors.extend (vectors : RuleVectors) (chain : Chain) : RuleVectors :=
  if !chain.enabled then
    vectors
  else
    let rules := chainRules parseCidr chain
    match ChainType.ofI32 chain.chainType with
    | .inbound => { vectors with inbound := vectors.inbound ++ rules }
    | .outbound => { vectors with outbound := vectors.outbound ++ rules }
    | .forward => { vectors with forward := vectors.forward ++ rules }
    | .unspecifiedChain => vectors

def buildRules (config : AclConfig) : RuleVectors :=
  match config.aclV1 with
  | some v1 => v1.chains.foldl (RuleVectors.extend parseCidr) ⟨[], [], []⟩
  | none => ⟨[], [], []⟩

namespace AclProcessor

def new (config : AclConfig) : AclProcessor :=
  let vectors := buildRules parseCidr config
  let all := vectors.inbound ++ vectors.outbound ++ vectors.forward
  { inboundRules := vectors.inbound
    outboundRules := vectors.outbound
    forwardRules := vectors.forward
    needsSrcGroups := all.any fun rule => !rule.sourceGroups.isEmpty
    needsDstGroups := all.any fun rule => !rule.destinationGroups.isEmpty
    defaultInboundAction := defaultActionOf config .inbound
    defaultOutboundAction := defaultActionOf config .outbound
    defaultForwardAction := defaultActionOf config .forward
    rateLimiters := ∅
    ruleCache := ∅
    cacheMaxSize := 1024
    cacheCleanupInterval := 20 * 1000000000 }

end AclProcessor

def AclConfig.enabledChains (config : AclConfig) (chainType : ChainType) : List Chain :=
  ((config.aclV1.map AclV1.chains).getD []).filter fun chain =>
    chain.enabled && ChainType.ofI32 chain.chainType == chainType

def RuleVectors.select (vectors : RuleVectors) : ChainType → List FastLookupRule
  | .inbound => vectors.inbound
  | .outbound => vectors.outbound
  | .forward => vectors.forward
  | .unspecifiedChain => []

variable (parseCidr : String → Option IpCidr) {chainType : ChainType}

theorem RuleVectors.select_extend (vectors : RuleVectors)
    (chain : Chain) (htype : chainType ≠ .unspecifiedChain) :
    (vectors.extend parseCidr chain).select chainType =
      vectors.select chainType ++
        if chain.enabled && ChainType.ofI32 chain.chainType == chainType then
          chainRules parseCidr chain
        else
          [] := by
  unfold extend
  cases chain.enabled with
  | false => simp
  | true =>
    cases ChainType.ofI32 chain.chainType <;> cases chainType <;> simp [select] at htype ⊢

theorem RuleVectors.select_foldl (chains : List Chain)
    (vectors : RuleVectors) (htype : chainType ≠ .unspecifiedChain) :
    (chains.foldl (RuleVectors.extend parseCidr) vectors).select chainType =
      vectors.select chainType ++ (chains.filter fun chain =>
          chain.enabled && ChainType.ofI32 chain.chainType == chainType).flatMap
            (chainRules parseCidr) := by
  induction chains generalizing vectors with
  | nil => simp
  | cons chain chains ih =>
    rw [List.foldl_cons, ih, select_extend parseCidr vectors chain htype, List.filter_cons]
    split_ifs
    · rw [List.flatMap_cons, List.append_assoc]
    · rw [List.append_nil]

/-- The rule vector of a type is the rules of its enabled chains, chain after chain. -/
theorem select_buildRules (config : AclConfig) (htype : chainType ≠ .unspecifiedChain) :
    (buildRules parseCidr config).select chainType =
      (config.enabledChains chainType).flatMap (chainRules parseCidr) := by
  unfold buildRules AclConfig.enabledChains
  cases config.aclV1 with
  | none => cases chainType <;> rfl
  | some v1 =>
    have hempty : RuleVectors.select ⟨[], [], []⟩ chainType = [] := by cases chainType <;> rfl
    exact (RuleVectors.select_foldl parseCidr v1.chains _ htype).trans (by rw [hempty]; rfl)

namespace AclProcessor

/-- `cleanup_cache`: entries older than fifteen seconds go, and the oldest of the rest when
there are too many. -/
def cleanupCache (cache : KeyedMap AclCacheKey AclCacheEntry) (maxSize now : Nat) :
    KeyedMap AclCacheKey AclCacheEntry :=
  let age := 15 * 1000000000
  let expiredTimepoint := if age ≤ now then now - age else now
  let kept := cache.retain fun entry => entry.createdAt > expiredTimepoint
  if kept.size ≤ maxSize then
    kept
  else
    let entries := (kept.entries.map fun entry => (entry.1, entry.2.createdAt)).insertionSort
      fun left right => left.2 ≤ right.2
    let toRemove := kept.size - maxSize + maxSize / 5
    (entries.take toRemove).foldl (fun cache entry => cache.erase entry.1) kept

def cacheResult (processor : AclProcessor) (key : AclCacheKey) (entry : AclCacheEntry)
    (now : Nat) : AclProcessor :=
  let cache : KeyedMap AclCacheKey AclCacheEntry := processor.ruleCache.insert key entry
  { processor with
    ruleCache :=
      if cache.size > processor.cacheMaxSize * 2 then
        cleanupCache cache processor.cacheMaxSize now
      else
        cache }

/-! ## Packets -/

structure Inputs where
  now : Nat
  tryConsume : RateLimitKey → Bool

def rateLimitDropResult (matchedRule : RuleId) : AclResult :=
  ⟨.drop, some matchedRule, false, some .rateLimitDrop⟩

/-- `process_packet_with_cache_entry`: the buckets of the entry are asked in order. -/
def processPacketWithCacheEntry (processor : AclProcessor) (inputs : Inputs)
    (entry : AclCacheEntry) : List RateLimitKey → Option (AclResult × AclProcessor)
  | [] => some (entry.aclResult, processor)
  | key :: keys =>
    match processor.rateLimiters.lookup key with
    | none => none
    | some _ =>
      let limited :=
        { processor with rateLimiters := processor.rateLimiters.insert key inputs.now }
      if inputs.tryConsume key then
        limited.processPacketWithCacheEntry inputs entry keys
      else
        some (rateLimitDropResult entry.matchedRule, limited)

def rulesFor (processor : AclProcessor) : ChainType → Option (List FastLookupRule)
  | .inbound => some processor.inboundRules
  | .outbound => some processor.outboundRules
  | .forward => some processor.forwardRules
  | .unspecifiedChain => none

theorem rulesFor_new (config : AclConfig) (htype : chainType ≠ .unspecifiedChain) :
    (new parseCidr config).rulesFor chainType =
      some ((config.enabledChains chainType).flatMap (chainRules parseCidr)) := by
  rw [← select_buildRules parseCidr config htype]
  cases chainType with
  | unspecifiedChain => exact absurd rfl htype
  | inbound => rfl
  | outbound => rfl
  | forward => rfl

def defaultActionFor (processor : AclProcessor) : ChainType → Action
  | .inbound => processor.defaultInboundAction
  | .outbound => processor.defaultOutboundAction
  | .forward => processor.defaultForwardAction
  | .unspecifiedChain => .allow

def ruleEntry (rule : FastLookupRule) (packet : PacketInfo) (keys : List RateLimitKey)
    (now : Nat) : AclCacheEntry :=
  if rule.stateful && rule.action == .allow then
    { matchedRule := .stateful rule.priority
      createdAt := now
      rateLimitKeys := keys
      aclResult := ⟨.allow, some (.stateful rule.priority), false,
        some (.statefulMatch packet.srcIp packet.dstIp)⟩ }
  else
    { matchedRule := .priority rule.priority
      createdAt := now
      rateLimitKeys := keys
      aclResult := ⟨rule.action, some (.priority rule.priority), false,
        some (.ruleMatch packet.srcIp packet.dstIp rule.action)⟩ }

def defaultEntry (action : Action) (now : Nat) : AclCacheEntry where
  matchedRule := .default
  createdAt := now
  rateLimitKeys := []
  aclResult :=
    ⟨action, some .default, false, some (if action == .drop then .defaultDrop else .defaultAllow)⟩

def finish (processor : AclProcessor) (key : AclCacheKey) (entry : AclCacheEntry) (now : Nat) :
    AclResult × AclProcessor :=
  (entry.aclResult, processor.cacheResult key entry now)

def processMiss (processor : AclProcessor) (packet : PacketInfo) (chainType : ChainType)
    (key : AclCacheKey) (inputs : Inputs) : AclResult × AclProcessor :=
  match processor.rulesFor chainType with
  | none => (⟨.drop, some .default, false, some .unsupportedChainType⟩, processor)
  | some rules =>
    match rules.find? fun rule => ruleMatches rule packet with
    | some rule =>
      if rule.rateLimit > 0 then
        let ruleKey : RateLimitKey := ⟨chainType, rule.priority⟩
        let limited :=
          { processor with rateLimiters := processor.rateLimiters.insert ruleKey inputs.now }
        if inputs.tryConsume ruleKey then
          limited.finish key (ruleEntry rule packet [ruleKey] inputs.now) inputs.now
        else
          (rateLimitDropResult (.priority rule.priority), limited)
      else
        processor.finish key (ruleEntry rule packet [] inputs.now) inputs.now
    | none =>
      processor.finish key (defaultEntry (processor.defaultActionFor chainType) inputs.now)
        inputs.now

def cacheKey (processor : AclProcessor) (packet : PacketInfo) (chainType : ChainType) :
    AclCacheKey :=
  .fromPacketInfo packet chainType processor.needsSrcGroups processor.needsDstGroups

def processPacket (processor : AclProcessor) (packet : PacketInfo) (chainType : ChainType)
    (inputs : Inputs) : Option (AclResult × AclProcessor) :=
  let key := processor.cacheKey packet chainType
  match processor.ruleCache.lookup key with
  | some cached => processor.processPacketWithCacheEntry inputs cached cached.rateLimitKeys
  | none => some (processor.processMiss packet chainType key inputs)

def cleanupTick (processor : AclProcessor) (now : Nat) : AclProcessor :=
  { processor with
    ruleCache := cleanupCache processor.ruleCache processor.cacheMaxSize now
    rateLimiters := processor.rateLimiters.retain fun lastUpdate =>
      now - lastUpdate < processor.cacheCleanupInterval }

inductive Event where
  | packet (info : PacketInfo) (chainType : ChainType) (inputs : Inputs)
  | cleanup (now : Nat)

def step (processor : AclProcessor) : Event → Option (Option AclResult × AclProcessor)
  | .packet info chainType inputs =>
    (processor.processPacket info chainType inputs).map fun (result, next) =>
      (some result, next)
  | .cleanup now => some (none, processor.cleanupTick now)

end AclProcessor

end LowerTier.Common.Acl
