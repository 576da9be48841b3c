import LowerTier.Peers.ServiceRoute.Cidr

/-!
# Access rules (`common/acl_processor.rs`, `proto/acl.proto`)

The configured rules, their compilation to lookup rules and the test of a packet against a
compiled rule.  Enumerations of the configuration are raw integers; a getter gives the
first variant for an integer that names none.  The parser of address blocks belongs to the
`cidr` crate and is a parameter.
-/

namespace LowerTier.Common.Acl

open Peers (IpAddr IpCidr)

inductive Protocol where
  | unspecified | tcp | udp | icmp | icmpv6 | any
deriving DecidableEq, Repr

inductive Action where
  | noop | allow | drop
deriving DecidableEq, Repr

inductive ChainType where
  | unspecifiedChain | inbound | outbound | forward
deriving DecidableEq, Repr

def Protocol.ofI32 : Int → Protocol
  | 1 => .tcp
  | 2 => .udp
  | 3 => .icmp
  | 4 => .icmpv6
  | 5 => .any
  | _ => .unspecified

def Action.ofI32 : Int → Action
  | 1 => .allow
  | 2 => .drop
  | _ => .noop

def ChainType.ofI32 : Int → ChainType
  | 1 => .inbound
  | 2 => .outbound
  | 3 => .forward
  | _ => .unspecifiedChain

def ChainType.toI32 : ChainType → Int
  | .unspecifiedChain => 0
  | .inbound => 1
  | .outbound => 2
  | .forward => 3

structure Rule where
  priority : Nat
  enabled : Bool
  protocol : Int
  ports : List String
  sourceIps : List String
  destinationIps : List String
  sourcePorts : List String
  action : Int
  rateLimit : Nat
  burstLimit : Nat
  stateful : Bool
  sourceGroups : List String
  destinationGroups : List String
deriving DecidableEq

structure Chain where
  chainType : Int
  enabled : Bool
  rules : List Rule
  defaultAction : Int
deriving DecidableEq

structure AclV1 where
  chains : List Chain
deriving DecidableEq

structure AclConfig where
  aclV1 : Option AclV1
deriving DecidableEq

/-- Unicode `White_Space`, which `str::trim` removes. -/
def isWhitespace (c : Char) : Bool :=
  let n := c.toNat
  (9 ≤ n && n ≤ 13) || n == 0x20 || n == 0x85 || n == 0xa0 || n == 0x1680 ||
    (0x2000 ≤ n && n ≤ 0x200a) || n == 0x2028 || n == 0x2029 || n == 0x202f || n == 0x205f ||
    n == 0x3000

variable (text : List Char)

def trim : List Char :=
  ((text.dropWhile isWhitespace).reverse.dropWhile isWhitespace).reverse

def digitValue (c : Char) : Option Nat :=
  if '0' ≤ c ∧ c ≤ '9' then some (c.toNat - '0'.toNat) else none

def parseDigits : Option Nat :=
  text.foldlM (fun value c => (digitValue c).map fun digit => value * 10 + digit) 0

/-- `u16::from_str`: digits after an optional plus sign, below `2 ^ 16`. -/
def parseU16 : Option Nat :=
  let digits := match text with
    | '+' :: rest => rest
    | _ => text
  if digits.isEmpty then
    none
  else
    (parseDigits digits).filter (· < 2 ^ 16)

def splitOnce (separator : Char) : List Char → Option (List Char × List Char)
  | [] => none
  | c :: rest =>
    if c = separator then
      some ([], rest)
    else
      (splitOnce separator rest).map fun parts => (c :: parts.1, parts.2)

def parsePortRange (text : String) : Option (Nat × Nat) :=
  match splitOnce '-' text.toList with
  | some (start, stop) => do
      let start ← parseU16 (trim start)
      let stop ← parseU16 (trim stop)
      some (start, stop)
  | none => do
      let port ← parseU16 (trim text.toList)
      some (port, port)

structure FastLookupRule where
  priority : Nat
  protocol : Protocol
  srcIpRanges : List IpCidr
  dstIpRanges : List IpCidr
  srcPortRanges : List (Nat × Nat)
  dstPortRanges : List (Nat × Nat)
  sourceGroups : List String
  destinationGroups : List String
  action : Action
  stateful : Bool
  rateLimit : Nat
  burstLimit : Nat
deriving DecidableEq

/-- `convert_to_fast_lookup_rule`: entries that do not parse are left out. -/
def convertToFastLookupRule (parseCidr : String → Option IpCidr) (rule : Rule) :
    FastLookupRule where
  priority := rule.priority
  protocol := .ofI32 rule.protocol
  srcIpRanges := rule.sourceIps.filterMap parseCidr
  dstIpRanges := rule.destinationIps.filterMap parseCidr
  srcPortRanges := rule.sourcePorts.filterMap parsePortRange
  dstPortRanges := rule.ports.filterMap parsePortRange
  sourceGroups := rule.sourceGroups
  destinationGroups := rule.destinationGroups
  action := .ofI32 rule.action
  stateful := rule.stateful
  rateLimit := rule.rateLimit
  burstLimit := rule.burstLimit

structure PacketInfo where
  srcIp : IpAddr
  dstIp : IpAddr
  srcPort : Option Nat
  dstPort : Option Nat
  protocol : Protocol
  srcGroups : List String
  dstGroups : List String
deriving DecidableEq

/-- A list of address blocks restricts a packet only if it is not empty. -/
def ipMatches (ranges : List IpCidr) (address : IpAddr) : Bool :=
  ranges.isEmpty || ranges.any fun cidr => cidr.contains address

/-- A port that the packet does not have is not restricted. -/
def portMatches (ranges : List (Nat × Nat)) : Option Nat → Bool
  | some port => ranges.isEmpty || ranges.any fun range => range.1 ≤ port && port ≤ range.2
  | none => true

def groupMatches (groups members : List String) : Bool :=
  groups.isEmpty || members.any groups.contains

def ruleMatches (rule : FastLookupRule) (packet : PacketInfo) : Bool :=
  (rule.protocol == .any || rule.protocol == packet.protocol) &&
    ipMatches rule.srcIpRanges packet.srcIp && ipMatches rule.dstIpRanges packet.dstIp &&
    portMatches rule.srcPortRanges packet.srcPort &&
    portMatches rule.dstPortRanges packet.dstPort &&
    groupMatches rule.sourceGroups packet.srcGroups &&
    groupMatches rule.destinationGroups packet.dstGroups

/-- A list of texts selects an item if one of them parses to something that accepts it, or if
none of them parses. -/
def selects {α : Type} (parse : String → Option α) (accepts : α → Bool)
    (texts : List String) : Bool :=
  (texts.all fun text => (parse text).isNone) || texts.any fun text => (parse text).any accepts

theorem filterMap_selects {α : Type} (parse : String → Option α) (accepts : α → Bool)
    (texts : List String) :
    ((texts.filterMap parse).isEmpty || (texts.filterMap parse).any accepts) =
      selects parse accepts texts := by
  have hempty : (texts.filterMap parse).isEmpty = texts.all fun text => (parse text).isNone := by
    rw [Bool.eq_iff_iff]
    simp [List.isEmpty_iff, List.filterMap_eq_nil_iff]
  have hany : (texts.filterMap parse).any accepts =
      texts.any fun text => (parse text).any accepts := by
    rw [List.any_filterMap]
    rfl
  rw [hempty, hany, selects]

namespace Rule

variable (parseCidr : String → Option IpCidr)

def selectsPort (texts : List String) : Option Nat → Bool
  | some port => selects parsePortRange (fun range => range.1 ≤ port && port ≤ range.2) texts
  | none => true

/-- Whether a packet is one of those that the rule describes. -/
def matchesPacket (rule : Rule) (packet : PacketInfo) : Bool :=
  (Protocol.ofI32 rule.protocol == .any || Protocol.ofI32 rule.protocol == packet.protocol) &&
    selects parseCidr (fun cidr => cidr.contains packet.srcIp) rule.sourceIps &&
    selects parseCidr (fun cidr => cidr.contains packet.dstIp) rule.destinationIps &&
    selectsPort rule.sourcePorts packet.srcPort && selectsPort rule.ports packet.dstPort &&
    (rule.sourceGroups.isEmpty || packet.srcGroups.any rule.sourceGroups.contains) &&
    (rule.destinationGroups.isEmpty || packet.dstGroups.any rule.destinationGroups.contains)

variable {texts : List String}

theorem portMatches_filterMap (port : Option Nat) :
    portMatches (texts.filterMap parsePortRange) port = selectsPort texts port := by
  cases port with
  | none => rfl
  | some port => exact filterMap_selects _ _ texts

theorem ruleMatches_convert (rule : Rule) (packet : PacketInfo) :
    ruleMatches (convertToFastLookupRule parseCidr rule) packet =
      rule.matchesPacket parseCidr packet := by
  simp only [ruleMatches, convertToFastLookupRule, ipMatches, filterMap_selects,
    portMatches_filterMap, groupMatches, matchesPacket]

/-! ## Lists that restrict nothing -/

section

variable {α : Type} (parse : String → Option α) (accepts : α → Bool)

/-- One of the texts parses to something that accepts the item. -/
def Lists (texts : List String) : Prop :=
  ∃ text ∈ texts, ∃ range, parse text = some range ∧ accepts range = true

/-- One of the texts parses. -/
def HasEntry (texts : List String) : Prop := ∃ text ∈ texts, (parse text).isSome = true

variable {parse accepts}

theorem Lists.hasEntry (h : Lists parse accepts texts) : HasEntry parse texts := by
  obtain ⟨text, htext, range, hrange, -⟩ := h
  exact ⟨text, htext, by rw [hrange]; rfl⟩

/-- A list with an entry lets nothing pass but what it lists, and one without lets all pass. -/
theorem selects_iff : selects parse accepts texts = true ↔
    (HasEntry parse texts → Lists parse accepts texts) := by
  have hnone : (texts.all fun text => (parse text).isNone) = true ↔ ¬HasEntry parse texts := by
    simp [HasEntry]
  have hany : (texts.any fun text => (parse text).any accepts) = true ↔
      Lists parse accepts texts := by
    simp [Lists, Option.any_eq_true]
  rw [selects, Bool.or_eq_true, hnone, hany, imp_iff_not_or]

end

def ListsPort (texts : List String) (port : Nat) : Prop :=
  Lists parsePortRange (fun range => range.1 ≤ port && port ≤ range.2) texts

theorem selectsPort_iff {port : Option Nat} : selectsPort texts port = true ↔
    ∀ value ∈ port, HasEntry parsePortRange texts → ListsPort texts value := by
  cases port with
  | none => simp [selectsPort]
  | some value => simpa [selectsPort, ListsPort] using selects_iff

/-- The packet is in every list that is not empty. -/
structure Within (rule : Rule) (packet : PacketInfo) : Prop where
  sourceIps : rule.sourceIps ≠ [] →
    Lists parseCidr (fun cidr => cidr.contains packet.srcIp) rule.sourceIps
  destinationIps : rule.destinationIps ≠ [] →
    Lists parseCidr (fun cidr => cidr.contains packet.dstIp) rule.destinationIps
  sourcePorts : rule.sourcePorts ≠ [] → ∃ port ∈ packet.srcPort, ListsPort rule.sourcePorts port
  ports : rule.ports ≠ [] → ∃ port ∈ packet.dstPort, ListsPort rule.ports port

/-- Every list that is not empty has an entry that parses, and the packet has the ports that the
rule lists. -/
structure Restricts (rule : Rule) (packet : PacketInfo) : Prop where
  sourceIps : rule.sourceIps ≠ [] → HasEntry parseCidr rule.sourceIps
  destinationIps : rule.destinationIps ≠ [] → HasEntry parseCidr rule.destinationIps
  sourcePorts : rule.sourcePorts ≠ [] →
    HasEntry parsePortRange rule.sourcePorts ∧ packet.srcPort.isSome = true
  ports : rule.ports ≠ [] → HasEntry parsePortRange rule.ports ∧ packet.dstPort.isSome = true

/-- Something that the rule does say excludes the packet: its protocol, its groups, or a list with
an entry that parses and none for the packet. -/
inductive Excludes (rule : Rule) (packet : PacketInfo) : Prop where
  | protocol (h : Protocol.ofI32 rule.protocol ≠ .any)
      (hother : Protocol.ofI32 rule.protocol ≠ packet.protocol)
  | sourceIps (h : HasEntry parseCidr rule.sourceIps)
      (hother : ¬Lists parseCidr (fun cidr => cidr.contains packet.srcIp) rule.sourceIps)
  | destinationIps (h : HasEntry parseCidr rule.destinationIps)
      (hother : ¬Lists parseCidr (fun cidr => cidr.contains packet.dstIp) rule.destinationIps)
  | sourcePorts (port : Nat) (hport : packet.srcPort = some port)
      (h : HasEntry parsePortRange rule.sourcePorts) (hother : ¬ListsPort rule.sourcePorts port)
  | ports (port : Nat) (hport : packet.dstPort = some port)
      (h : HasEntry parsePortRange rule.ports) (hother : ¬ListsPort rule.ports port)
  | sourceGroups (h : rule.sourceGroups ≠ [])
      (hother : ∀ group ∈ packet.srcGroups, group ∉ rule.sourceGroups)
  | destinationGroups (h : rule.destinationGroups ≠ [])
      (hother : ∀ group ∈ packet.dstGroups, group ∉ rule.destinationGroups)

variable {parseCidr} {rule : Rule} {packet : PacketInfo}

theorem matchesPacket_iff : rule.matchesPacket parseCidr packet = true ↔
    ¬rule.Excludes parseCidr packet := by
  simp only [matchesPacket, Bool.and_eq_true, Bool.or_eq_true, beq_iff_eq, selects_iff,
    selectsPort_iff, List.isEmpty_iff, List.any_eq_true, List.contains_iff_mem]
  constructor
  · rintro ⟨⟨⟨⟨⟨⟨hprotocol, hsrcIp⟩, hdstIp⟩, hsrcPort⟩, hdstPort⟩, hsrc⟩, hdst⟩ hexcludes
    cases hexcludes with
    | protocol h hother => exact hprotocol.elim h hother
    | sourceIps h hother => exact hother (hsrcIp h)
    | destinationIps h hother => exact hother (hdstIp h)
    | sourcePorts port hport h hother => exact hother (hsrcPort port hport h)
    | ports port hport h hother => exact hother (hdstPort port hport h)
    | sourceGroups h hother =>
      obtain ⟨group, hmem, hlisted⟩ := hsrc.resolve_left h
      exact hother group hmem hlisted
    | destinationGroups h hother =>
      obtain ⟨group, hmem, hlisted⟩ := hdst.resolve_left h
      exact hother group hmem hlisted
  · intro hmatch
    refine ⟨⟨⟨⟨⟨⟨?_, ?_⟩, ?_⟩, ?_⟩, ?_⟩, ?_⟩, ?_⟩
    · exact or_iff_not_and_not.mpr fun h => hmatch (.protocol h.1 h.2)
    · exact fun h => by_contra fun hother => hmatch (.sourceIps h hother)
    · exact fun h => by_contra fun hother => hmatch (.destinationIps h hother)
    · exact fun port hport h => by_contra fun hother => hmatch (.sourcePorts port hport h hother)
    · exact fun port hport h => by_contra fun hother => hmatch (.ports port hport h hother)
    · refine or_iff_not_imp_left.mpr fun h => by_contra fun hnone => hmatch (.sourceGroups h ?_)
      exact fun group hmem hlisted => hnone ⟨group, hmem, hlisted⟩
    · refine or_iff_not_imp_left.mpr fun h => by_contra fun hnone =>
        hmatch (.destinationGroups h ?_)
      exact fun group hmem hlisted => hnone ⟨group, hmem, hlisted⟩

theorem Within.restricts (h : rule.Within parseCidr packet) : rule.Restricts parseCidr packet where
  sourceIps hne := (h.sourceIps hne).hasEntry
  destinationIps hne := (h.destinationIps hne).hasEntry
  sourcePorts hne := by
    obtain ⟨port, hport, hlists⟩ := h.sourcePorts hne
    exact ⟨hlists.hasEntry, Option.isSome_iff_exists.mpr ⟨port, hport⟩⟩
  ports hne := by
    obtain ⟨port, hport, hlists⟩ := h.ports hne
    exact ⟨hlists.hasEntry, Option.isSome_iff_exists.mpr ⟨port, hport⟩⟩

theorem Restricts.within (h : rule.Restricts parseCidr packet)
    (hmatch : ¬rule.Excludes parseCidr packet) : rule.Within parseCidr packet where
  sourceIps hne := by_contra fun hother => hmatch (.sourceIps (h.sourceIps hne) hother)
  destinationIps hne :=
    by_contra fun hother => hmatch (.destinationIps (h.destinationIps hne) hother)
  sourcePorts hne := by
    obtain ⟨hentry, hport⟩ := h.sourcePorts hne
    obtain ⟨port, hport⟩ := Option.isSome_iff_exists.mp hport
    exact ⟨port, hport, by_contra fun hother => hmatch (.sourcePorts port hport hentry hother)⟩
  ports hne := by
    obtain ⟨hentry, hport⟩ := h.ports hne
    obtain ⟨port, hport⟩ := Option.isSome_iff_exists.mp hport
    exact ⟨port, hport, by_contra fun hother => hmatch (.ports port hport hentry hother)⟩

/-- A compiled rule keeps a packet within its lists exactly if each of them restricts it, or if
the packet is excluded by what the rule says beside the lists that do not. -/
theorem match_within_lists_iff (parseCidr : String → Option IpCidr) (rule : Rule)
    (packet : PacketInfo) :
    (ruleMatches (convertToFastLookupRule parseCidr rule) packet = true →
        rule.Within parseCidr packet) ↔
      rule.Restricts parseCidr packet ∨ rule.Excludes parseCidr packet := by
  rw [ruleMatches_convert, matchesPacket_iff]
  constructor
  · intro hwithin
    by_cases hexcludes : rule.Excludes parseCidr packet
    · exact .inr hexcludes
    · exact .inl (hwithin hexcludes).restricts
  · rintro (hrestricts | hexcludes) hmatch
    · exact hrestricts.within hmatch
    · exact absurd hexcludes hmatch

/-- A rule for any protocol that lists nothing but what is given. -/
def listing (sourceIps destinationIps sourcePorts ports : List String) : Rule :=
  ⟨10, true, 5, ports, sourceIps, destinationIps, sourcePorts, 1, 0, 0, false, [], []⟩

def toPort (port : Option Nat) : PacketInfo := ⟨.v4 1, .v4 2, some 1024, port, .tcp, [], []⟩

/-- A rule none of whose entries parse matches a packet, and a packet without a port matches a
rule for one port. -/
theorem match_outside_lists :
    ruleMatches (convertToFastLookupRule (fun _ => none)
      (listing ["10.0.0.0/33"] ["::/129"] ["http"] ["65536"])) (toPort (some 22)) = true ∧
    ¬(listing ["10.0.0.0/33"] ["::/129"] ["http"] ["65536"]).Within (fun _ => none)
      (toPort (some 22)) ∧
    ruleMatches (convertToFastLookupRule (fun _ => none) (listing [] [] [] ["22"]))
      (toPort none) = true ∧
    ¬(listing [] [] [] ["22"]).Within (fun _ => none) (toPort none) := by
  refine ⟨by decide +kernel, fun h => ?_, by decide +kernel, fun h => ?_⟩
  · obtain ⟨text, -, range, hrange, -⟩ := h.sourceIps (by simp [listing])
    cases hrange
  · obtain ⟨port, hport, -⟩ := h.ports (by simp [listing])
    cases hport

end Rule

end LowerTier.Common.Acl
