import LowerTier.Gateway.IpReassembler
import LowerTier.ProofSupport.PartialRun

/-!
# Soundness of the IPv4 reassembly

The total of a packet comes from whichever last fragment came most recently and the sum of
the lengths is compared with it, while the bytes are placed by their offsets.  The two agree
if the fragments of a packet agree on where it ends: `Agrees` is that condition on one
arrival, `Valid` the invariant of the fragments kept under one key.
-/

namespace LowerTier.Gateway

open IpPacket IpFragment ProofSupport ProofSupport.ByteString ProofSupport.MachineInt KeyedMap
open ProofSupport.Tiling ProofSupport.PartialRun

namespace IpFragment

def size (f : IpFragment) : Nat := f.data.length

def stop (f : IpFragment) : Nat := f.offset + f.size

end IpFragment

variable {p : IpPacket}

namespace IpPacket

/-- The fragments tile the data: they lie inside it, no two share a position, every position
has one, the data has its byte there, and a last fragment ends where the data ends. -/
structure Tiled (fragments : List IpFragment) (data : Bytes) : Prop where
  inside : ∀ f ∈ fragments, f.stop ≤ data.length
  disjoint : fragments.Pairwise (Disjoint offset size)
  covered : ∀ i, i < data.length →
    ∃ f ∈ fragments, Covers offset size f i
  bytes : ∀ f ∈ fragments, ∀ i, i < f.size → data[f.offset + i]? = f.data[i]?
  ends : ∃ f ∈ fragments, f.last = true ∧ f.stop = data.length

structure Valid (p : IpPacket) : Prop where
  disjoint : p.fragments.Pairwise (Disjoint offset size)
  stop_lt : ∀ f ∈ p.fragments, f.stop < 2 ^ 16
  ends : ∀ t, p.totalLength = some t →
    (∀ f ∈ p.fragments, f.stop ≤ t) ∧ ∃ f ∈ p.fragments, f.last = true ∧ f.stop = t

theorem valid_new : new.Valid where
  disjoint := List.Pairwise.nil
  stop_lt := by simp [new]
  ends := by simp [new]

theorem asU16_size {f : IpFragment} (hstop : f.stop < 2 ^ 16) : asU16 f.data.length = f.size := by
  have hsize : f.size < 2 ^ 16 := by
    unfold stop at hstop
    omega
  exact Nat.mod_eq_of_lt hsize

theorem startsInside_eq {f : IpFragment} (g : IpFragment) (hstop : f.stop < 2 ^ 16) :
    startsInside f g = some (decide (f.offset ≤ g.offset ∧ g.offset < f.stop)) := by
  unfold startsInside
  rw [asU16_size hstop, checkedAdd_of_lt hstop]
  by_cases hle : f.offset ≤ g.offset
  · simp [hle, stop]
  · simp [hle]

def overlaps (f g : IpFragment) : Bool :=
  decide (f.offset ≤ g.offset ∧ g.offset < f.stop) ||
    decide (g.offset ≤ f.offset ∧ f.offset < g.stop)

variable {fragment : IpFragment} {fragments : List IpFragment}

theorem overlapsAny_eq
    (hfragment : fragment.stop < 2 ^ 16) (hstops : ∀ f ∈ fragments, f.stop < 2 ^ 16) :
    overlapsAny fragment fragments = some (fragments.any (overlaps · fragment)) := by
  induction fragments with
  | nil => rfl
  | cons f fragments ih =>
    have hrest := ih fun g hmem => hstops g (List.mem_cons_of_mem _ hmem)
    unfold overlapsAny
    rw [startsInside_eq fragment (hstops f List.mem_cons_self), startsInside_eq f hfragment,
      hrest, List.any_cons]
    by_cases hfirst : f.offset ≤ fragment.offset ∧ fragment.offset < f.stop
    · simp [overlaps, hfirst]
    · by_cases hsecond : fragment.offset ≤ f.offset ∧ f.offset < fragment.stop
      · simp [overlaps, hfirst, hsecond]
      · simp [overlaps, hfirst, hsecond]

/-- Two ranges with a common position: the one that starts later starts inside the other. -/
theorem disjoint_of_overlaps_eq_false {f g : IpFragment} (h : overlaps f g = false) :
    Disjoint offset size f g := by
  rintro i ⟨hf, hg⟩
  simp only [overlaps, Bool.or_eq_false_iff, decide_eq_false_iff_not] at h
  unfold Covers at hf hg
  unfold stop at h
  omega

/-! ## One arrival -/

/-- The fragments agree on the end of the packet: a last fragment ends where the known total
ends, or no kept fragment reaches beyond it and it will be kept itself; another fragment does
not reach beyond the known total, unless it will be dropped for its overlap. -/
def Agrees (p : IpPacket) (fragment : IpFragment) : Prop :=
  fragment.stop < 2 ^ 16 ∧
    if fragment.last = true then
      p.totalLength = some fragment.stop ∨
        ((∀ f ∈ p.fragments, f.stop ≤ fragment.stop) ∧
          overlapsAny fragment p.fragments = some false)
    else
      ∀ t ∈ p.totalLength, fragment.stop ≤ t ∨ overlapsAny fragment p.fragments = some true

instance (p : IpPacket) (fragment : IpFragment) : Decidable (p.Agrees fragment) := by
  unfold Agrees
  infer_instance

def announce (p : IpPacket) (fragment : IpFragment) : IpPacket :=
  if fragment.last = true then p.setTotalLength fragment.stop else p

@[simp] theorem announce_fragments : (p.announce fragment).fragments = p.fragments := by
  unfold announce
  split <;> rfl

theorem map_fragments_addFragment (p : IpPacket) (fragment : IpFragment) :
    (p.addFragment fragment).map (·.fragments) =
      (overlapsAny fragment p.fragments).map fun overlap =>
        if overlap = true then p.fragments else p.fragments ++ [fragment] := by
  unfold addFragment
  cases overlapsAny fragment p.fragments with
  | none => rfl
  | some overlap => cases overlap <;> rfl

/-- Whichever fragment arrives, if it agrees with the packet the invariant holds after it. -/
theorem Valid.addFragment (hvalid : p.Valid) (hagrees : p.Agrees fragment) :
    ∃ p', (p.announce fragment).addFragment fragment = some p' ∧ p'.Valid := by
  obtain ⟨hstop, hends⟩ := hagrees
  have hoverlaps := overlapsAny_eq hstop hvalid.stop_lt
  unfold IpPacket.addFragment
  cases hany : p.fragments.any (overlaps · fragment) with
  | true =>
    -- dropped: the total can only be the one already known
    rw [hany] at hoverlaps
    refine ⟨p.announce fragment, by simp [hoverlaps], ?_⟩
    unfold announce
    split
    case isTrue hlast =>
      rw [if_pos hlast, hoverlaps] at hends
      have htotal : p.totalLength = some fragment.stop := by simpa using hends
      have hsame : p.setTotalLength fragment.stop = p := by
        unfold setTotalLength
        rw [← htotal]
      rwa [hsame]
    case isFalse => exact hvalid
  | false =>
    rw [hany] at hoverlaps
    refine ⟨{ p.announce fragment with fragments := p.fragments ++ [fragment] },
      by simp [hoverlaps], ?_, ?_, ?_⟩
    · -- the new fragment is disjoint from every kept one
      apply List.pairwise_append.mpr
      refine ⟨hvalid.disjoint, List.pairwise_singleton _ _, ?_⟩
      intro f hf g hg
      rw [List.mem_singleton.mp hg]
      apply disjoint_of_overlaps_eq_false
      simpa using List.any_eq_false.mp hany f hf
    · intro f hf
      rcases List.mem_append.mp hf with hf | hf
      · exact hvalid.stop_lt f hf
      · rwa [List.mem_singleton.mp hf]
    · intro t ht
      by_cases hlast : fragment.last = true
      · -- a last fragment sets the total to its own end
        have ht' : fragment.stop = t := by
          simpa [announce, hlast, setTotalLength] using ht
        subst ht'
        rw [if_pos hlast] at hends
        have hbelow : ∀ f ∈ p.fragments, f.stop ≤ fragment.stop := by
          rcases hends with htotal | ⟨hbelow, -⟩
          · exact (hvalid.ends _ htotal).1
          · exact hbelow
        refine ⟨?_, fragment, by simp, hlast, rfl⟩
        intro f hf
        rcases List.mem_append.mp hf with hf | hf
        · exact hbelow f hf
        · rw [List.mem_singleton.mp hf]
      · have ht' : p.totalLength = some t := by simpa [announce, hlast] using ht
        obtain ⟨hbelow, g, hg, hglast, hgstop⟩ := hvalid.ends t ht'
        rw [if_neg hlast, hoverlaps] at hends
        have hfragment : fragment.stop ≤ t := by simpa using hends t ht'
        refine ⟨?_, g, by simp [hg], hglast, hgstop⟩
        intro f hf
        rcases List.mem_append.mp hf with hf | hf
        · exact hbelow f hf
        · rwa [List.mem_singleton.mp hf]

theorem sumLengths_eq {acc : Nat} (hstops : ∀ f ∈ fragments, f.stop < 2 ^ 16)
    (hsum : acc + (fragments.map IpFragment.size).sum < 2 ^ 16) :
    fragments.foldlM (fun total f => checkedAdd 16 total (asU16 f.data.length)) acc =
      some (acc + (fragments.map IpFragment.size).sum) := by
  induction fragments generalizing acc with
  | nil => rfl
  | cons f fragments ih =>
    rw [List.map_cons, List.sum_cons] at hsum
    rw [List.foldlM_cons, asU16_size (hstops f List.mem_cons_self),
      checkedAdd_of_lt (by omega), List.map_cons, List.sum_cons]
    calc fragments.foldlM (fun total f => checkedAdd 16 total (asU16 f.data.length)) (acc + f.size)
        = some (acc + f.size + (fragments.map IpFragment.size).sum) := by
          apply ih
          · intro g hg
            exact hstops g (List.mem_cons_of_mem _ hg)
          · omega
      _ = some (acc + (f.size + (fragments.map IpFragment.size).sum)) := by
          rw [Nat.add_assoc]

theorem Valid.isComplete (hvalid : p.Valid) :
    p.isComplete = some (decide (p.totalLength = some (p.fragments.map IpFragment.size).sum)) := by
  have hsum : (p.fragments.map IpFragment.size).sum ≤ 2 ^ 16 - 1 := by
    apply sum_size_le hvalid.disjoint
    intro f hf
    have hstop := hvalid.stop_lt f hf
    unfold stop at hstop
    omega
  unfold IpPacket.isComplete
  cases htotal : p.totalLength with
  | none => simp
  | some t =>
    have hlengths := sumLengths_eq hvalid.stop_lt (show 0 + _ < 2 ^ 16 by omega)
    unfold sumLengths
    rw [hlengths, Nat.zero_add]
    simp [beq_eq_decide, eq_comm]

/-- Assembly never panics, and what it returns is tiled by the fragments. -/
theorem Valid.assemble (hvalid : p.Valid) :
    ∃ output, p.assemble = some output ∧ ∀ data, output = some data → Tiled p.fragments data := by
  unfold IpPacket.assemble
  rw [hvalid.isComplete]
  by_cases hcomplete : p.totalLength = some (p.fragments.map IpFragment.size).sum
  · obtain ⟨hbelow, last, hlast, hisLast, hstop⟩ := hvalid.ends _ hcomplete
    have hperm : (sortByOffset p.fragments).Perm p.fragments := List.perm_insertionSort _ _
    have hsorted : (sortByOffset p.fragments).Pairwise
        (Disjoint offset size) :=
      (hperm.pairwise_iff fun h => h.symm).mpr hvalid.disjoint
    obtain ⟨data, hdata, hlength, hbytes, -⟩ :=
      foldlM_writeAt IpFragment.data (List.replicate (p.fragments.map IpFragment.size).sum 0)
        hsorted (by
          intro f hf
          rw [List.length_replicate]
          exact hbelow f (hperm.mem_iff.mp hf))
    rw [List.length_replicate] at hlength
    refine ⟨some data, by simp [hcomplete, copyFragments, hdata], ?_⟩
    rintro data' heq
    cases heq
    exact {
      inside := by rw [hlength]; exact hbelow
      disjoint := hvalid.disjoint
      covered := by
        intro i hi
        rw [hlength] at hi
        exact exists_covers hvalid.disjoint hbelow rfl hi
      bytes := by
        intro f hf i hi
        exact hbytes f (hperm.mem_iff.mpr hf) i hi
      ends := ⟨last, hlast, hisLast, by rw [hlength]; exact hstop⟩ }
  · exact ⟨none, by simp [hcomplete], by simp⟩

end IpPacket

/-! ## Runs -/

namespace IpReassembler

def keyOf (source destination : Ipv4Addr) (packet : Ipv4Packet) : IpResemblerKey :=
  ⟨source, destination, packet.identification⟩

variable (s : IpReassembler)

/-- The condition on a call: the header length is not larger than the total length, and a
packet whose lengths are consistent agrees with the fragments kept under its key. -/
def Fits : ReassemblerOp → Prop
  | .addFragment source destination packet _ =>
    packet.headerLength * 4 ≤ packet.totalLength ∧
      (packet.totalLength - packet.headerLength * 4 = packet.payload.length →
        (s.packetAt (keyOf source destination packet)).Agrees (.ofPacket packet))
  | .removeExpiredPackets _ => True

instance (s : IpReassembler) : ∀ op, Decidable (s.Fits op)
  | .addFragment _ _ _ _ => inferInstanceAs (Decidable (_ ∧ _))
  | .removeExpiredPackets _ => .isTrue trivial

def accepted (source destination : Ipv4Addr) (packet : Ipv4Packet) :
    List IpFragment :=
  (((s.packetAt (keyOf source destination packet)).addFragment (.ofPacket packet)).map
    (·.fragments)).getD []

/-- Whenever the call returns data, the accepted fragments tile it. -/
def Sound : ReassemblerOp → Option Bytes → Prop
  | .addFragment source destination packet _, output =>
    ∀ data, output = some data → IpPacket.Tiled (s.accepted source destination packet) data
  | .removeExpiredPackets _, output => output = none

def Valid : Prop :=
  ∀ key value, s.packets.lookup key = some value → value.packet.Valid

theorem valid_new (timeout : Nat) : (new timeout).Valid := by
  intro key value h
  simp [new] at h

variable {s : IpReassembler}

theorem Valid.packetAt (hvalid : s.Valid) (key : IpResemblerKey) : (s.packetAt key).Valid := by
  unfold IpReassembler.packetAt
  cases hlookup : s.packets.lookup key with
  | none => exact IpPacket.valid_new
  | some value => exact hvalid key value hlookup

theorem Valid.erase (hvalid : s.Valid) (key : IpResemblerKey) :
    Valid { s with packets := s.packets.erase key } := by
  intro k value h
  exact hvalid k value (lookup_of_lookup_erase h)

theorem Valid.insert (hvalid : s.Valid) (key : IpResemblerKey) {value : IpResemblerValue}
    (hvalue : value.packet.Valid) : Valid { s with packets := s.packets.insert key value } :=
  forall_lookup_insert hvalid hvalue

theorem Valid.removeExpiredPackets (hvalid : s.Valid) (now : Nat) :
    (s.removeExpiredPackets now).Valid := by
  intro key value h
  exact hvalid key value (lookup_of_lookup_retain h)

variable {packet : Ipv4Packet}

theorem addFragment_of_eq (hheader : packet.headerLength * 4 ≤ packet.totalLength)
    (heq : packet.totalLength - packet.headerLength * 4 = packet.payload.length)
    (hstop : (ofPacket packet).stop < 2 ^ 16) (source destination : Ipv4Addr)
    (now : Nat) :
    s.addFragment source destination packet now = do
      let key := keyOf source destination packet
      let value ← ((s.packetAt key).announce (.ofPacket packet)).addFragment (.ofPacket packet)
      return s.settle key value now (← value.assemble) := by
  have hpayload : asU16 packet.payload.length = packet.payload.length :=
    Nat.mod_eq_of_lt packet.payload_lt
  have hsum : checkedAdd 16 packet.payload.length (ofPacket packet).offset =
      some (ofPacket packet).stop := by
    have hcomm : packet.payload.length + (ofPacket packet).offset =
        (ofPacket packet).stop := Nat.add_comm _ _
    rw [← hcomm] at hstop ⊢
    exact checkedAdd_of_lt hstop
  unfold addFragment
  rw [checkedSub_of_le hheader, hpayload, heq]
  by_cases hlast : isLastFragment packet = true
  · have hlast' : (ofPacket packet).last = true := hlast
    simp [hlast, hlast', hsum, keyOf, announce]
  · have hlast' : ¬ (ofPacket packet).last = true := hlast
    simp [hlast, hlast', keyOf, announce]

theorem accepted_eq {source destination : Ipv4Addr}
    (h : ((s.packetAt (keyOf source destination packet)).announce
      (.ofPacket packet)).addFragment (.ofPacket packet) = some p) :
    s.accepted source destination packet = p.fragments := by
  have hfragments := map_fragments_addFragment
    ((s.packetAt (keyOf source destination packet)).announce (.ofPacket packet))
    (.ofPacket packet)
  rw [announce_fragments, ← map_fragments_addFragment, h] at hfragments
  unfold accepted
  rw [← hfragments]
  rfl

/-- One call that fits: it does not panic, its result is sound and the invariant holds
after it. -/
theorem Valid.step {op : ReassemblerOp} (hvalid : s.Valid) (hfits : s.Fits op) :
    ∃ output s', s.step op = some (output, s') ∧ s.Sound op output ∧ s'.Valid := by
  cases op with
  | removeExpiredPackets now =>
    exact ⟨none, s.removeExpiredPackets now, rfl, rfl, hvalid.removeExpiredPackets now⟩
  | addFragment source destination packet now =>
    obtain ⟨hheader, hagrees⟩ := hfits
    by_cases hlength : packet.totalLength - packet.headerLength * 4 = packet.payload.length
    · have hagrees := hagrees hlength
      have hkept := hvalid.packetAt (keyOf source destination packet)
      obtain ⟨p, hadd, hp⟩ := hkept.addFragment hagrees
      obtain ⟨output, hassemble, htiled⟩ := hp.assemble
      have hcall : s.step (.addFragment source destination packet now) =
          some (s.settle (keyOf source destination packet) p now output) := by
        have hcall := addFragment_of_eq (s := s) hheader hlength hagrees.1 source destination now
        simpa [IpReassembler.step, hadd, hassemble] using hcall
      rw [← accepted_eq hadd] at htiled
      cases output with
      | some data => exact ⟨some data, _, hcall, htiled, hvalid.erase _⟩
      | none => exact ⟨none, _, hcall, htiled, hvalid.insert _ hp⟩
    · have hpayload : asU16 packet.payload.length = packet.payload.length :=
        Nat.mod_eq_of_lt packet.payload_lt
      have hcall : s.addFragment source destination packet now = some (none, s) := by
        rw [IpReassembler.addFragment, checkedSub_of_le hheader, hpayload]
        simp [hlength]
      refine ⟨none, s, hcall, ?_, hvalid⟩
      intro data hdata
      cases hdata

/-- In every run whose calls all fit, no call panics and every result is sound. -/
theorem reassembly_sound_of_fits (timeout : Nat) (ops : List ReassemblerOp)
    (hfits : Along step Fits (new timeout) ops) : Every step Sound (new timeout) ops := by
  apply every_of_invariant (I := Valid)
  · intro s op hvalid hop
    exact hvalid.step hop
  · exact valid_new timeout
  · exact hfits

def eightBytes (offset : Fin (2 ^ 13)) (flags : UInt8) (byte : UInt8) : Ipv4Packet where
  headerLength := 5
  totalLength := 28
  identification := 7
  flags := flags
  fragmentOffset := offset
  payload := List.replicate 8 byte
  header_lt := by decide
  total_lt := by decide
  offset_lt := offset.isLt
  payload_lt := by simp

theorem reassembly_sound_of_fits_three : Every step Sound (new 10)
      [.addFragment 1 2 (eightBytes 2 0 30) 0, .addFragment 1 2 (eightBytes 0 MORE_FRAGMENTS 10) 1,
        .removeExpiredPackets 2, .addFragment 1 2 (eightBytes 2 0 30) 3,
        .addFragment 1 2 (eightBytes 1 MORE_FRAGMENTS 20) 4] :=
  reassembly_sound_of_fits 10 _ (by decide +kernel)

/-- A fragment at 16 is kept, then a last fragment announces 16 as the total: the lengths add
up to it, and the copy of the first fragment is out of range. -/
theorem fragment_beyond_total_panics :
    (((new 10).step (.addFragment 1 2 (eightBytes 2 MORE_FRAGMENTS 30) 0)).isSome ∧
      ∀ next ∈ (new 10).step (.addFragment 1 2 (eightBytes 2 MORE_FRAGMENTS 30) 0),
        next.2.step (.addFragment 1 2 (eightBytes 1 0 20) 1) = none) ∧
    ¬ Every step Sound (new 10)
      [.addFragment 1 2 (eightBytes 2 MORE_FRAGMENTS 30) 0,
        .addFragment 1 2 (eightBytes 1 0 20) 1] := by
  have hpanic : ∀ next ∈ (new 10).step (.addFragment 1 2 (eightBytes 2 MORE_FRAGMENTS 30) 0),
      (next.2.step (.addFragment 1 2 (eightBytes 1 0 20) 1)).isNone = true := by
    decide +kernel
  refine ⟨⟨by decide +kernel, ?_⟩, ?_⟩
  · intro next hnext
    exact Option.isNone_iff_eq_none.mp (hpanic next hnext)
  · rintro ⟨output, s, hfirst, -, output', s', hsecond, -⟩
    have hnone := hpanic _ hfirst
    rw [hsecond] at hnone
    cases hnone

end IpReassembler

end LowerTier.Gateway
