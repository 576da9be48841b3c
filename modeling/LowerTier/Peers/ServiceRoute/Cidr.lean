import LowerTier.ProofSupport.KeyedMap

/-!
# Address blocks and longest-prefix lookup

The `cidr` and `prefix_trie` crates, as far as the service routes use them.  A block has
no host bits, so that two blocks of one length which contain the same address are equal.
The lookup is a parameter with its documented behaviour.
-/

namespace LowerTier.Peers

open Nat ProofSupport

/-- `Ipv4Cidr` and `Ipv6Cidr`: a network address without host bits. -/
structure Cidr (width : Nat) where
  network : BitVec width
  networkLength : Nat
  length_le : networkLength ≤ width
  host_zero : (network >>> (width - networkLength)) <<< (width - networkLength) = network
deriving DecidableEq

namespace Cidr

variable {width : Nat}

def contains (block : Cidr width) (address : BitVec width) : Bool :=
  address >>> (width - block.networkLength) == block.network >>> (width - block.networkLength)

def host (address : BitVec width) : Cidr width where
  network := address
  networkLength := width
  length_le := le_refl width
  host_zero := by simp

def covers (outer inner : Cidr width) : Bool :=
  decide (outer.networkLength ≤ inner.networkLength) && outer.contains inner.network

variable (block : Cidr width) (address : BitVec width)

theorem covers_host : block.covers (host address) = block.contains address := by
  simp [covers, host, block.length_le]

theorem eq_of_contains {block block' : Cidr width} {address : BitVec width}
    (hlength : block.networkLength = block'.networkLength) (h : block.contains address)
    (h' : block'.contains address) : block = block' := by
  have htop : address >>> (width - block.networkLength) =
      block.network >>> (width - block.networkLength) := by simpa [contains] using h
  have htop' : address >>> (width - block'.networkLength) =
      block'.network >>> (width - block'.networkLength) := by simpa [contains] using h'
  have hnetwork : block.network = block'.network := by
    rw [← block.host_zero, ← block'.host_zero, ← htop, ← htop', hlength]
  cases block
  cases block'
  simp_all

/-- The network is a multiple of the number of hosts. -/
theorem network_multiple : block.network.toNat / 2 ^ (width - block.networkLength) *
    2 ^ (width - block.networkLength) = block.network.toNat := by
  have hnetwork := congrArg BitVec.toNat block.host_zero
  rw [BitVec.toNat_shiftLeft, BitVec.toNat_ushiftRight, shiftRight_eq_div_pow,
    shiftLeft_eq] at hnetwork
  have hle := lt_of_le_of_lt (div_mul_le_self block.network.toNat
    (2 ^ (width - block.networkLength))) block.network.isLt
  rwa [mod_eq_of_lt hle] at hnetwork

/-- The addresses of a block are the sums of its network and a host part. -/
theorem contains_add_host {host : Nat} (hhost : host < 2 ^ (width - block.networkLength)) :
    (BitVec.ofNat width (block.network.toNat + host)).toNat = block.network.toNat + host ∧
      block.contains (BitVec.ofNat width (block.network.toNat + host)) = true := by
  have hmultiple := block.network_multiple
  have hwidth : 2 ^ block.networkLength * 2 ^ (width - block.networkLength) = 2 ^ width := by
    rw [← pow_add, Nat.add_sub_cancel' block.length_le]
  have hlt := block.network.isLt
  generalize hhosts : 2 ^ (width - block.networkLength) = hosts at hhost hmultiple hwidth
  have hquotient : block.network.toNat / hosts < 2 ^ block.networkLength := by
    rw [← hwidth] at hlt
    exact Nat.div_lt_of_lt_mul (by rwa [Nat.mul_comm] at hlt)
  have hsum : block.network.toNat + host < 2 ^ width := by
    calc block.network.toNat + host < block.network.toNat / hosts * hosts + hosts := by omega
      _ = (block.network.toNat / hosts + 1) * hosts := (succ_mul _ _).symm
      _ ≤ 2 ^ block.networkLength * hosts := mul_le_mul_right _ hquotient
      _ = 2 ^ width := hwidth
  have htoNat : (BitVec.ofNat width (block.network.toNat + host)).toNat =
      block.network.toNat + host := by
    rw [BitVec.toNat_ofNat, mod_eq_of_lt hsum]
  refine ⟨htoNat, beq_iff_eq.mpr (BitVec.eq_of_toNat_eq ?_)⟩
  rw [BitVec.toNat_ushiftRight, BitVec.toNat_ushiftRight, htoNat, shiftRight_eq_div_pow,
    shiftRight_eq_div_pow, hhosts, ← hmultiple, mul_comm, mul_add_div (by omega),
    Nat.div_eq_of_lt hhost, Nat.mul_div_cancel_left _ (by omega), Nat.add_zero]

/-! ## First and last address -/

def firstAddress (block : Cidr width) : BitVec width := block.network

def lastAddress (block : Cidr width) : BitVec width :=
  BitVec.ofNat width (block.network.toNat + (2 ^ (width - block.networkLength) - 1))

theorem contains_iff :
    block.contains address = true ↔
      block.firstAddress ≤ address ∧ address ≤ block.lastAddress := by
  have hosts_pos : 0 < 2 ^ (width - block.networkLength) := Nat.two_pow_pos _
  have hlast : block.lastAddress.toNat =
      block.network.toNat + (2 ^ (width - block.networkLength) - 1) :=
    (block.contains_add_host (by omega)).1
  have hmultiple := block.network_multiple
  rw [contains, beq_iff_eq, ← BitVec.toNat_inj, BitVec.toNat_ushiftRight,
    BitVec.toNat_ushiftRight, shiftRight_eq_div_pow, shiftRight_eq_div_pow, firstAddress,
    BitVec.le_def, BitVec.le_def, hlast]
  generalize 2 ^ (width - block.networkLength) = hosts at hosts_pos hmultiple
  rw [Nat.div_eq_iff hosts_pos]
  omega

/-- Of two blocks, one with its first and last address in the other is part of it. -/
theorem contains_of_bounds {inner outer : Cidr width}
    (hfirst : outer.firstAddress ≤ inner.firstAddress)
    (hlast : inner.lastAddress ≤ outer.lastAddress) {address : BitVec width}
    (h : inner.contains address = true) : outer.contains address = true := by
  rw [contains_iff] at h ⊢
  exact ⟨BitVec.le_trans hfirst h.1, BitVec.le_trans h.2 hlast⟩

def order (left right : Cidr width) : Ordering :=
  (compare left.network.toNat right.network.toNat).then
    (compare left.networkLength right.networkLength)

theorem order_eq_iff (left right : Cidr width) : left.order right = .eq ↔ left = right := by
  rw [order, Ordering.then_eq_eq, Nat.compare_eq_eq, Nat.compare_eq_eq]
  constructor
  · rintro ⟨hnetwork, hlength⟩
    have hsame := BitVec.eq_of_toNat_eq hnetwork
    cases left
    cases right
    simp_all
  · rintro rfl
    exact ⟨rfl, rfl⟩

end Cidr

inductive IpAddr where
  | v4 (address : BitVec 32)
  | v6 (address : BitVec 128)
deriving DecidableEq

inductive IpCidr where
  | v4 (block : Cidr 32)
  | v6 (block : Cidr 128)
deriving DecidableEq

namespace IpCidr

def networkLength : IpCidr → Nat
  | v4 block => block.networkLength
  | v6 block => block.networkLength

def contains : IpCidr → IpAddr → Bool
  | v4 block, .v4 address => block.contains address
  | v6 block, .v6 address => block.contains address
  | _, _ => false

theorem eq_of_contains {cidr cidr' : IpCidr} {address : IpAddr}
    (hlength : cidr.networkLength = cidr'.networkLength) (h : cidr.contains address)
    (h' : cidr'.contains address) : cidr = cidr' := by
  cases cidr <;> cases cidr' <;> cases address <;> simp only [contains, Bool.false_eq_true] at h h'
  · exact congrArg v4 (Cidr.eq_of_contains hlength h h')
  · exact congrArg v6 (Cidr.eq_of_contains hlength h h')

/-- An order of blocks: by family, network and length. -/
def order : IpCidr → IpCidr → Ordering
  | v4 left, v4 right => left.order right
  | v4 _, v6 _ => .lt
  | v6 _, v4 _ => .gt
  | v6 left, v6 right => left.order right

theorem order_eq_iff (left right : IpCidr) : left.order right = .eq ↔ left = right := by
  cases left <;> cases right <;> simp [order, Cidr.order_eq_iff]

/-- `10.0.0.0/8`. -/
def tenSlashEight : IpCidr := .v4 ⟨0x0a000000#32, 8, by decide, by decide⟩

end IpCidr

/-- `PrefixMap::get_lpm`: the longest block of the map that covers the query. -/
structure PrefixTrie where
  getLpm : {width : Nat} → {ν : Type} → KeyedMap (Cidr width) ν → Cidr width →
    Option (Cidr width × ν)
  found : ∀ {width : Nat} {ν : Type} {m : KeyedMap (Cidr width) ν} {query block : Cidr width}
    {value : ν}, getLpm m query = some (block, value) →
      m.lookup block = some value ∧ block.covers query ∧
        ∀ other value', m.lookup other = some value' → other.covers query →
          other.networkLength ≤ block.networkLength
  not_found : ∀ {width : Nat} {ν : Type} {m : KeyedMap (Cidr width) ν} {query : Cidr width},
    getLpm m query = none → ∀ other value, m.lookup other = some value → ¬ other.covers query

/-- The lookup by a scan over all blocks. -/
def PrefixTrie.scan : PrefixTrie where
  getLpm m query :=
    ((m.entries.filter fun entry => entry.1.covers query).argmax fun entry =>
      entry.1.networkLength).map fun entry => (entry.1, entry.2)
  found := by
    intro width ν m query block value h
    obtain ⟨⟨key, found⟩, hmax, hpair⟩ := Option.map_eq_some_iff.mp h
    cases hpair
    obtain ⟨hmem, hcovers⟩ := List.mem_filter.mp (List.argmax_mem hmax)
    refine ⟨AList.mem_lookup_iff.mpr hmem, hcovers, ?_⟩
    intro other value' hother hcovers'
    have hin : (⟨other, value'⟩ : Sigma fun _ : Cidr width => ν) ∈
        m.entries.filter fun entry => entry.1.covers query :=
      List.mem_filter.mpr ⟨AList.mem_lookup_iff.mp hother, hcovers'⟩
    have hle := List.le_of_mem_argmax hin hmax
    exact hle
  not_found := by
    intro width ν m query h other value hother hcovers
    rw [Option.map_eq_none_iff, List.argmax_eq_none] at h
    have hin : (⟨other, value⟩ : Sigma fun _ : Cidr width => ν) ∈
        m.entries.filter fun entry => entry.1.covers query :=
      List.mem_filter.mpr ⟨AList.mem_lookup_iff.mp hother, hcovers⟩
    rw [h] at hin
    simp at hin

end LowerTier.Peers
