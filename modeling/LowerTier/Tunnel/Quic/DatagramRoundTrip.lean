import LowerTier.Tunnel.Quic.DatagramCodec

/-!
# Packets through DATAGRAM frames

The frames of one packet are fed to the receiving store among frames of other packets.
`Collecting` is the state of the assembly after some of them; it is kept by every frame of
another packet and by every further frame of this one, so that it holds at the last
missing frame.
-/

namespace LowerTier.Tunnel.Quic

open UInt8 Option List ProofSupport.ByteString

/-- The frame holds one of the parts of the packet with the given id. -/
def IsPart (streamId : Nat) (id : UInt32) (parts : List Bytes) (index : Nat) (frame : Bytes) :
    Prop :=
  ∃ part, parts[index]? = some part ∧ decodeQuicDatagramParts frame streamId =
    some (.ok (.fragment id (ofNat index) (ofNat parts.length) part))

/-- A whole packet, a fragment of a packet with another id or a malformed frame. -/
def Foreign (streamId : Nat) (id : UInt32) (frame : Bytes) : Prop :=
  match decodeQuicDatagramParts frame streamId with
  | some (.ok (.fragment other _ _ _)) => other ≠ id
  | _ => True

instance (streamId : Nat) (id : UInt32) (frame : Bytes) :
    Decidable (Foreign streamId id frame) := by
  unfold Foreign
  split <;> infer_instance

def Delivery.fragment? (delivery : Delivery) (streamId : Nat) : Option FragmentPush :=
  match decodeQuicDatagramParts delivery.bytes streamId with
  | some (.ok (.fragment id index count payload)) => some (delivery.push id index count payload)
  | _ => none

namespace DatagramFragments

variable {s : DatagramFragments} {streamId : Nat} {id : UInt32} {parts : List Bytes}
  {got : List Nat} {delivery : Delivery}

/-- The frame evicts and expires nothing, and no budget refuses it. -/
def Calm (s : DatagramFragments) (streamId : Nat) (delivery : Delivery) : Prop :=
  ∀ push ∈ delivery.fragment? streamId, push.index.toNat < push.count.toNat →
    s.Undisturbed push

instance (s : DatagramFragments) (streamId : Nat) (delivery : Delivery) :
    Decidable (s.Calm streamId delivery) := by
  unfold Calm
  infer_instance

def CalmRun (streamId : Nat) : DatagramFragments → List Delivery → Prop
  | _, [] => True
  | s, delivery :: deliveries => s.Calm streamId delivery ∧
      ∀ outcome ∈ s.ingest delivery streamId, CalmRun streamId outcome.2 deliveries

instance decidableCalmRun (streamId : Nat) : (s : DatagramFragments) →
    (deliveries : List Delivery) → Decidable (CalmRun streamId s deliveries)
  | _, [] => .isTrue trivial
  | s, _ :: deliveries =>
    have := fun s' => decidableCalmRun streamId s' deliveries
    inferInstanceAs (Decidable (s.Calm streamId _ ∧ ∀ outcome ∈ _, CalmRun streamId _ deliveries))

structure Collecting (s : DatagramFragments) (id : UInt32) (parts : List Bytes)
    (got : List Nat) : Prop where
  ledger : s.Ledger
  entry : s.pending.lookup id = none ∧ got = [] ∨
    ∃ entry, s.pending.lookup id = some entry ∧ entry.Holds parts got

section

variable (h : s.Collecting id parts got)
include h

theorem Collecting.withExpiry (expiry : Option Nat) :
    Collecting { s with expiry := expiry } id parts got :=
  ⟨h.ledger.withExpiry expiry, h.entry⟩

theorem Collecting.scheduleExpiry : s.scheduleExpiry.Collecting id parts got := by
  obtain ⟨expiry, hschedule⟩ := s.scheduleExpiry_eq
  rw [hschedule]
  exact h.withExpiry expiry

theorem Collecting.congr {s' : DatagramFragments} (hledger : s'.Ledger)
    (hlookup : s'.pending.lookup id = s.pending.lookup id) : s'.Collecting id parts got := by
  refine ⟨hledger, ?_⟩
  rw [hlookup]
  exact h.entry

end

/-! ## One frame -/

theorem ingest_fragment {index count : UInt8} {payload : Bytes}
    (hdecode : decodeQuicDatagramParts delivery.bytes streamId =
      some (.ok (.fragment id index count payload)))
    {packet : Option ZCPacket} {s' : DatagramFragments}
    (hpush : s.pushFragment (delivery.push id index count payload) = some (packet, s')) :
    s.ingest delivery streamId = some (packet, s'.scheduleExpiry) := by
  simp [ingest, hdecode, hpush]

/-- Any fragment that does not disturb the store keeps its books and the other entries. -/
theorem Ledger.pushFragment_frame (h : s.Ledger) (push : FragmentPush)
    (hcalm : push.index.toNat < push.count.toNat → s.Undisturbed push) :
    ∃ packet s', s.pushFragment push = some (packet, s') ∧ s'.Ledger ∧
      ∀ other, other ≠ push.id → s'.pending.lookup other = s.pending.lookup other := by
  by_cases hindex : push.index.toNat < push.count.toNat
  · have hundisturbed := hcalm hindex
    obtain ⟨refused, hrefuses⟩ := s.refuses_isSome hindex
    cases refused with
    | true =>
      obtain ⟨expiry, hpush⟩ := h.pushFragment_refused hindex hundisturbed.unexpired hrefuses
      exact ⟨none, _, hpush, h.withExpiry expiry, fun _ _ => rfl⟩
    | false =>
      obtain ⟨packet, s', hpush, hledger, hframe, -⟩ :=
        h.pushFragment_outcome hindex hundisturbed.unexpired hrefuses (hundisturbed.admits hrefuses)
      exact ⟨packet, s', hpush, hledger, hframe⟩
  · have hbeyond : push.count = 0 ∨ push.index ≥ push.count := .inr (le_iff_toNat_le.mpr (by omega))
    exact ⟨none, s, by simp [pushFragment, hbeyond], h, fun _ _ => rfl⟩

section

variable (h : s.Collecting id parts got)
include h

theorem Collecting.foreign
    (hforeign : Foreign streamId id delivery.bytes) (hcalm : s.Calm streamId delivery) :
    ∃ packet s', s.ingest delivery streamId = some (packet, s') ∧ s'.Collecting id parts got := by
  obtain ⟨decoded, hdecode⟩ := decodeQuicDatagramParts_isSome delivery.bytes streamId
  match decoded, hdecode with
  | .error error, hdecode => exact ⟨none, s, by simp [ingest, hdecode], h⟩
  | .ok (.whole packet), hdecode => exact ⟨some packet, s, by simp [ingest, hdecode], h⟩
  | .ok (.fragment other index count payload), hdecode =>
    have hother : id ≠ other := by
      rintro rfl
      simp [Foreign, hdecode] at hforeign
    obtain ⟨packet, s', hpush, hledger, hframe⟩ :=
      h.ledger.pushFragment_frame (delivery.push other index count payload)
        (hcalm _ (by simp [Delivery.fragment?, hdecode]))
    exact ⟨packet, _, ingest_fragment hdecode hpush,
      (h.congr hledger (hframe id hother)).scheduleExpiry⟩

variable {push : FragmentPush}

section

variable (hid : push.id = id) (hcount : push.count.toNat = parts.length)
include hid hcount

theorem Collecting.refuses_eq {part : Bytes} (hpart : parts[push.index.toNat]? = some part) :
    s.refuses push = some (decide (push.index.toNat ∈ got)) := by
  subst hid
  rcases h.entry with ⟨hnone, rfl⟩ | ⟨entry, hentry, hholds⟩
  · simp [refuses, hnone]
  have hlength : entry.parts.length = push.count.toNat := by
    rw [hholds.parts_eq, length_heldParts, hcount]
  have hget : entry.parts[push.index.toNat]? =
      some (if push.index.toNat ∈ got then some part else none) := by
    rw [hholds.parts_eq, getElem?_heldParts hpart]
  simp only [refuses, hentry, hlength, ne_eq, not_true_eq_false, if_false, hget,
    bind_eq_bind, bind_some]
  split <;> simp_all

theorem Collecting.holds_partEntry : (s.partEntry push).Holds parts got := by
  subst hid
  unfold partEntry
  rcases h.entry with ⟨hnone, rfl⟩ | ⟨entry, hentry, hholds⟩
  · rw [hnone]
    exact .newEntry hcount _ _
  · rw [hentry]
    exact hholds

theorem Collecting.pushFragment (hpart : parts[push.index.toNat]? = some push.payload)
    (hnew : push.index.toNat ∉ got) (hcalm : s.Undisturbed push) :
    ∃ packet s', s.pushFragment push = some (packet, s') ∧
      if ∀ i, i < parts.length → i ∈ push.index.toNat :: got then
        packet = if parts.flatten.length < PEER_MANAGER_HEADER_SIZE then none
          else some (ZCPacket.newFromBuf parts.flatten .dummyTunnel)
      else
        packet = none ∧ s'.Collecting id parts (push.index.toNat :: got) := by
  obtain ⟨hlt, -⟩ := List.getElem?_eq_some_iff.mp hpart
  have hindex : push.index.toNat < push.count.toNat := by omega
  have hrefuses : s.refuses push = some false := by
    rw [h.refuses_eq hid hcount hpart]
    simp [hnew]
  have hadmits := hcalm.admits hrefuses
  obtain ⟨packet, s', hpush, hledger, -, houtcome⟩ :=
    h.ledger.pushFragment_outcome hindex hcalm.unexpired hrefuses hadmits
  have hholds := (h.holds_partEntry hid hcount).withPart hpart hnew
  have hcomplete := hholds.filled_eq_iff
  have hlength : (withPart (s.partEntry push) push).parts.length =
      (s.partEntry push).parts.length := List.length_set
  rw [hlength] at hcomplete
  have hfilled : (withPart (s.partEntry push) push).filled = (s.partEntry push).filled + 1 := rfl
  rw [hfilled] at hcomplete
  refine ⟨packet, s', hpush, ?_⟩
  unfold Outcome at houtcome
  split
  · next hall =>
    rw [if_neg (not_not.mpr (hcomplete.mpr hall))] at houtcome
    rw [houtcome.1]
    exact hholds.assembledPacket hall hadmits.output
  next hmissing =>
  rw [if_pos (fun hfull => hmissing (hcomplete.mp hfull))] at houtcome
  refine ⟨houtcome.1, hledger, .inr ⟨_, ?_, hholds⟩⟩
  rw [← hid]
  exact houtcome.2

end

end

theorem push_of_isPart {index : Nat} (hparts : parts.length ≤ 255)
    (hpart : IsPart streamId id parts index delivery.bytes) :
    ∃ push : FragmentPush, push.id = id ∧ push.index.toNat = index ∧
      push.count.toNat = parts.length ∧ parts[push.index.toNat]? = some push.payload ∧
      (s.Calm streamId delivery → s.Undisturbed push) ∧
      ∀ packet s', s.pushFragment push = some (packet, s') →
        s.ingest delivery streamId = some (packet, s'.scheduleExpiry) := by
  obtain ⟨part, hget, hdecode⟩ := hpart
  obtain ⟨hlt, -⟩ := List.getElem?_eq_some_iff.mp hget
  have hindex : (ofNat index).toNat = index := toNat_ofNat_of_lt' (show index < 256 by omega)
  have hcount : (ofNat parts.length).toNat = parts.length :=
    toNat_ofNat_of_lt' (show parts.length < 256 by omega)
  refine ⟨delivery.push id (ofNat index) (ofNat parts.length) part, rfl, hindex, hcount, ?_, ?_, ?_⟩
  · exact (congrArg (parts[·]?) hindex).trans hget
  · intro hcalm
    have hvalid : (ofNat index).toNat < (ofNat parts.length).toNat := by omega
    exact hcalm _ (by simp [Delivery.fragment?, hdecode]) hvalid
  · intro packet s' hpush
    exact ingest_fragment hdecode hpush

section

variable {index : Nat} (h : s.Collecting id parts got) (hparts : parts.length ≤ 255)
  (hpart : IsPart streamId id parts index delivery.bytes)
include h hparts hpart

theorem Collecting.part {missing : Nat} (hmissing : missing < parts.length)
    (hnot : missing ∉ index :: got) (hcalm : s.Calm streamId delivery) :
    ∃ s', s.ingest delivery streamId = some (none, s') ∧
      s'.Collecting id parts (index :: got) := by
  obtain ⟨push, hid, hindex, hcount, hget, hundisturbed, hingest⟩ := push_of_isPart hparts hpart
  have hundisturbed := hundisturbed hcalm
  obtain ⟨hlt, -⟩ := List.getElem?_eq_some_iff.mp hget
  by_cases hnew : push.index.toNat ∈ got
  · have hrefuses : s.refuses push = some true := by
      rw [h.refuses_eq hid hcount hget]
      simp [hnew]
    obtain ⟨expiry, hpush⟩ :=
      h.ledger.pushFragment_refused (by omega) hundisturbed.unexpired hrefuses
    have hsame : ∀ i, i ∈ got ↔ i ∈ index :: got := fun i =>
      (List.mem_cons.trans (or_iff_right_of_imp fun heq => heq ▸ hindex ▸ hnew)).symm
    have hcollecting : s.Collecting id parts (index :: got) := by
      refine ⟨h.ledger, ?_⟩
      rcases h.entry with ⟨-, rfl⟩ | ⟨entry, hentry, hholds⟩
      · simp at hnew
      · exact .inr ⟨entry, hentry, hholds.parts_eq.trans (by simp only [heldParts, hsame]),
          hholds.filled, hholds.payloadBytes⟩
    exact ⟨_, hingest _ _ hpush, (hcollecting.withExpiry expiry).scheduleExpiry⟩
  · obtain ⟨packet, s', hpush, houtcome⟩ := h.pushFragment hid hcount hget hnew hundisturbed
    rw [hindex, if_neg (fun hall => hnot (hall missing hmissing))] at houtcome
    obtain ⟨rfl, hcollecting⟩ := houtcome
    exact ⟨_, hingest _ _ hpush, hcollecting.scheduleExpiry⟩

/-- The last part yields the packet, unless it is too short for a header. -/
theorem Collecting.last (hnew : index ∉ got) (hall : ∀ i, i < parts.length → i ∈ index :: got)
    (hcalm : s.Calm streamId delivery) :
    ∃ s', s.ingest delivery streamId =
      some (if parts.flatten.length < PEER_MANAGER_HEADER_SIZE then none
        else some (ZCPacket.newFromBuf parts.flatten .dummyTunnel), s') := by
  obtain ⟨push, hid, hindex, hcount, hget, hundisturbed, hingest⟩ := push_of_isPart hparts hpart
  rw [← hindex] at hnew hall
  obtain ⟨packet, s', hpush, houtcome⟩ := h.pushFragment hid hcount hget hnew (hundisturbed hcalm)
  rw [if_pos hall] at houtcome
  rw [← houtcome]
  exact ⟨_, hingest _ _ hpush⟩

end

/-! ## The frames in front of the last one -/

variable {frame : Bytes}

theorem isPart_unique (hparts : parts.length ≤ 255) {index index' : Nat}
    (h : IsPart streamId id parts index frame) (h' : IsPart streamId id parts index' frame) :
    index = index' := by
  obtain ⟨part, hget, hdecode⟩ := h
  obtain ⟨part', hget', hdecode'⟩ := h'
  obtain ⟨hlt, -⟩ := List.getElem?_eq_some_iff.mp hget
  obtain ⟨hlt', -⟩ := List.getElem?_eq_some_iff.mp hget'
  rw [hdecode] at hdecode'
  have hsame : ofNat index = ofNat index' := by
    injection hdecode' with hok
    injection hok with hfragment
    injection hfragment
  have hindex := congrArg toNat hsame
  rwa [toNat_ofNat_of_lt' (show index < 256 by omega),
    toNat_ofNat_of_lt' (show index' < 256 by omega)] at hindex

theorem not_foreign_of_isPart {index : Nat}
    (h : IsPart streamId id parts index frame) : ¬ Foreign streamId id frame := by
  obtain ⟨part, -, hdecode⟩ := h
  simp [Foreign, hdecode]

/-- The indices that have arrived after some frames: those before and those of the frames,
and the missing one is still missing. -/
structure Arrived (streamId : Nat) (id : UInt32) (parts : List Bytes) (missing : Nat)
    (deliveries : List Delivery) (got got' : List Nat) : Prop where
  still : missing ∉ got'
  before : ∀ i ∈ got, i ∈ got'
  arrived : ∀ delivery ∈ deliveries, ∀ index, IsPart streamId id parts index delivery.bytes →
    index ∈ got'

/-- The frame is of another packet or brings a part other than the missing one. -/
def Leaves (streamId : Nat) (id : UInt32) (parts : List Bytes) (missing : Nat) (frame : Bytes) :
    Prop :=
  Foreign streamId id frame ∨ missing < parts.length ∧
    ∃ index, index ≠ missing ∧ IsPart streamId id parts index frame

theorem Collecting.step (h : s.Collecting id parts got) (hparts : parts.length ≤ 255)
    {missing : Nat} (hnot : missing ∉ got) (hfeed : Leaves streamId id parts missing delivery.bytes)
    (hcalm : s.Calm streamId delivery) :
    ∃ packet s' got', s.ingest delivery streamId = some (packet, s') ∧
      s'.Collecting id parts got' ∧ Arrived streamId id parts missing [delivery] got got' ∧
      (¬ Foreign streamId id delivery.bytes → packet = none) := by
  rcases hfeed with hforeign | ⟨hmissing, index, hother, hpart⟩
  · obtain ⟨packet, s', hingest, hcollecting⟩ := h.foreign hforeign hcalm
    refine ⟨packet, s', got, hingest, hcollecting, ⟨hnot, fun _ hi => hi, ?_⟩, absurd hforeign⟩
    intro other hmem index hpart
    obtain rfl := mem_singleton.mp hmem
    exact absurd hforeign (not_foreign_of_isPart hpart)
  · have hnot' : missing ∉ index :: got := by
      rw [mem_cons]
      rintro (rfl | hmem)
      · exact hother rfl
      · exact hnot hmem
    obtain ⟨s', hingest, hcollecting⟩ := h.part hparts hpart hmissing hnot' hcalm
    refine ⟨none, s', index :: got, hingest, hcollecting,
      ⟨hnot', fun _ hi => mem_cons_of_mem _ hi, ?_⟩, fun _ => rfl⟩
    intro other hmem index' hpart'
    obtain rfl := mem_singleton.mp hmem
    rw [isPart_unique hparts hpart' hpart]
    exact mem_cons_self

variable {deliveries : List Delivery}

theorem Collecting.ingestAll (h : s.Collecting id parts got)
    (hparts : parts.length ≤ 255) {missing : Nat} (hnot : missing ∉ got)
    (hfeed : ∀ delivery ∈ deliveries, Leaves streamId id parts missing delivery.bytes)
    (hcalm : CalmRun streamId s deliveries) :
    ∃ packets s' got', s.ingestAll streamId deliveries = some (packets, s') ∧
      s'.Collecting id parts got' ∧ Arrived streamId id parts missing deliveries got got' ∧
      List.Forall₂ (fun delivery packet => ¬ Foreign streamId id delivery.bytes → packet = none)
        deliveries packets := by
  induction deliveries generalizing s got with
  | nil => exact ⟨[], s, got, rfl, h, ⟨hnot, fun _ hi => hi, by simp⟩, .nil⟩
  | cons delivery deliveries ih =>
    obtain ⟨packet, next, got₁, hingest, hnext, harrived, hsilent⟩ :=
      h.step hparts hnot (hfeed delivery mem_cons_self) hcalm.1
    obtain ⟨packets, s', got₂, hall, hlast, hrest, hsilents⟩ :=
      ih hnext harrived.still (fun other hmem => hfeed other (mem_cons_of_mem _ hmem))
        (hcalm.2 (packet, next) hingest)
    refine ⟨packet :: packets, s', got₂, by simp [DatagramFragments.ingestAll, hingest, hall],
      hlast, ⟨hrest.still, fun i hi => hrest.before i (harrived.before i hi), ?_⟩,
      .cons hsilent hsilents⟩
    intro other hmem index hpart
    rcases mem_cons.mp hmem with rfl | hmem
    · exact hrest.before index (harrived.arrived other (mem_singleton.mpr rfl) index hpart)
    · exact hrest.arrived other hmem index hpart

theorem calmRun_append {last : Delivery} (h : CalmRun streamId s (deliveries ++ [last])) :
    CalmRun streamId s deliveries ∧ ∀ packets s',
      s.ingestAll streamId deliveries = some (packets, s') → s'.Calm streamId last := by
  induction deliveries generalizing s with
  | nil =>
    refine ⟨trivial, fun packets s' hall => ?_⟩
    cases hall
    exact h.1
  | cons delivery deliveries ih =>
    refine ⟨⟨h.1, fun outcome hingest => (ih (h.2 outcome hingest)).1⟩, ?_⟩
    intro packets s' hall
    simp only [DatagramFragments.ingestAll, bind_eq_bind, bind_eq_some_iff] at hall
    obtain ⟨⟨packet, next⟩, hingest, ⟨rest, final⟩, hrest, hpair⟩ := hall
    cases hpair
    exact (ih (h.2 (packet, next) hingest)).2 rest final hrest

/-! ## The frames of one packet -/

/-- Every frame arrives, and the last delivery brings the only one that is still missing;
in between come frames of other packets. -/
@[mk_iff] structure Feed (streamId : Nat) (id : UInt32) (datagrams : List Bytes)
    (before : List Delivery) (last : Delivery) : Prop where
  frames : ∀ delivery ∈ before,
    delivery.bytes ∈ datagrams ∨ Foreign streamId id delivery.bytes
  last_mem : last.bytes ∈ datagrams
  last_new : ∀ delivery ∈ before, delivery.bytes ≠ last.bytes
  complete : ∀ frame ∈ datagrams, frame = last.bytes ∨
    ∃ delivery ∈ before, delivery.bytes = frame

/-- The frames yield nothing up to the last one, which yields a packet with the given tunnel
payload. -/
def YieldsOnce (s : DatagramFragments) (streamId : Nat) (datagrams : List Bytes)
    (before : List Delivery) (last : Delivery) (payload : Option Bytes) : Prop :=
  ∃ packets s', s.ingestAll streamId before = some (packets, s') ∧
    List.Forall₂ (fun delivery packet => delivery.bytes ∈ datagrams → packet = none)
      before packets ∧
    ∃ packet s'', s'.ingest last streamId = some (some packet, s'') ∧
      packet.tunnelPayload = payload

/-- A packet with these bytes, unless they are too short for a header. -/
def Recovers (output : Option ZCPacket) (bytes : Bytes) : Prop :=
  if bytes.length < PEER_MANAGER_HEADER_SIZE then
    output = none
  else
    ∃ packet, output = some packet ∧ packet.tunnelPayload = some bytes

variable {datagrams : List Bytes} {before : List Delivery} {last : Delivery} {bytes : Bytes}
  {packets : List (Option ZCPacket)}

theorem yieldsOnce_iff {s' s'' : DatagramFragments} {output : Option ZCPacket}
    {payload : Option Bytes} (hall : s.ingestAll streamId before = some (packets, s'))
    (hsilent : List.Forall₂ (fun delivery packet => delivery.bytes ∈ datagrams → packet = none)
      before packets) (hlast : s'.ingest last streamId = some (output, s''))
    (hrecovers : Recovers output bytes) :
    s.YieldsOnce streamId datagrams before last payload ↔
      PEER_MANAGER_HEADER_SIZE ≤ bytes.length ∧ payload = some bytes := by
  unfold Recovers at hrecovers
  constructor
  · rintro ⟨packets', t, hall', -, packet, t', hlast', hpayload⟩
    cases hall.symm.trans hall'
    cases hlast.symm.trans hlast'
    split at hrecovers
    · contradiction
    · next hlong =>
      obtain ⟨recovered, hsame, hbytes⟩ := hrecovers
      cases hsame
      exact ⟨by omega, by rw [← hpayload, hbytes]⟩
  · rintro ⟨hlong, rfl⟩
    rw [if_neg (by omega)] at hrecovers
    obtain ⟨packet, rfl, hbytes⟩ := hrecovers
    exact ⟨packets, s', hall, hsilent, packet, s'', hlast, hbytes⟩

theorem forall₂_own (hsilent : List.Forall₂
      (fun delivery packet => ¬ Foreign streamId id delivery.bytes → packet = none) before packets)
    (hown : ∀ delivery ∈ before, delivery.bytes ∈ datagrams →
      ¬ Foreign streamId id delivery.bytes) :
    List.Forall₂ (fun delivery packet => delivery.bytes ∈ datagrams → packet = none)
      before packets := by
  rw [forall₂_iff_zip] at hsilent ⊢
  refine ⟨hsilent.1, fun {delivery packet} hpair hmem => hsilent.2 hpair ?_⟩
  exact hown delivery (of_mem_zip hpair).1 hmem

theorem Feed.whole_iff (hstream : streamId < 2 ^ 62) (h : s.Ledger)
    (hnone : s.pending.lookup id = none)
    (hfeed : Feed streamId id [wholePrefix streamId ++ bytes] before last)
    (hcalm : CalmRun streamId s (before ++ [last])) (payload : Option Bytes) :
    s.YieldsOnce streamId [wholePrefix streamId ++ bytes] before last payload ↔
      PEER_MANAGER_HEADER_SIZE ≤ bytes.length ∧ payload = some bytes := by
  have hlast := mem_singleton.mp hfeed.last_mem
  have hnotown : ∀ delivery ∈ before, delivery.bytes ∉ [wholePrefix streamId ++ bytes] := by
    intro delivery hmem hown
    exact hfeed.last_new delivery hmem ((mem_singleton.mp hown).trans hlast.symm)
  obtain ⟨hcalmBefore, -⟩ := calmRun_append hcalm
  have hstart : s.Collecting id [] [] := ⟨h, .inl ⟨hnone, rfl⟩⟩
  obtain ⟨packets, s', got, hall, -, -, hsilent⟩ :=
    hstart.ingestAll (by decide) (show 0 ∉ ([] : List Nat) by simp)
      (fun delivery hmem => .inl ((hfeed.frames delivery hmem).resolve_left
        (hnotown delivery hmem))) hcalmBefore
  have hown := forall₂_own hsilent fun delivery hmem hin => absurd hin (hnotown delivery hmem)
  by_cases hshort : bytes.length < PEER_MANAGER_HEADER_SIZE
  · obtain ⟨error, hdecode⟩ := decode_whole_short hstream hshort
    have hingest : s'.ingest last streamId = some (none, s') := by
      simp [ingest, hlast, hdecode]
    exact yieldsOnce_iff hall hown hingest (by simp [Recovers, hshort])
  · obtain ⟨packet, hdecode, hpayload⟩ := decode_whole hstream (Nat.not_lt.mp hshort)
    have hingest : s'.ingest last streamId = some (some packet, s') := by
      simp [ingest, hlast, hdecode]
    exact yieldsOnce_iff hall hown hingest (by simp [Recovers, hshort, hpayload])

theorem isPart_encodeFragment (hstream : streamId < 2 ^ 62) (id : UInt32) (parts : List Bytes)
    {index : Nat} (hindex : index < parts.length) :
    IsPart streamId id parts index
      (encodeFragment streamId id parts.length index (parts.get ⟨index, hindex⟩)) :=
  ⟨_, getElem?_eq_getElem hindex, decode_fragment hstream _ _ _⟩

theorem mem_fragmentFrames {chunk : Nat} :
    frame ∈ fragmentFrames streamId id chunk bytes ↔
      ∃ index, ∃ hindex : index < (chunks chunk bytes).length, frame = encodeFragment streamId id
        (chunks chunk bytes).length index ((chunks chunk bytes).get ⟨index, hindex⟩) := by
  rw [fragmentFrames, mem_mapIdx]
  simp only [get_eq_getElem, eq_comm]

theorem Feed.fragments_iff (hstream : streamId < 2 ^ 62) (h : s.Ledger)
    (hnone : s.pending.lookup id = none) {chunk : Nat} (hchunk : 0 < chunk)
    (htotal : (chunks chunk bytes).length ≤ 255)
    (hfeed : Feed streamId id (fragmentFrames streamId id chunk bytes) before last)
    (hcalm : CalmRun streamId s (before ++ [last])) (payload : Option Bytes) :
    s.YieldsOnce streamId (fragmentFrames streamId id chunk bytes) before last payload ↔
      PEER_MANAGER_HEADER_SIZE ≤ bytes.length ∧ payload = some bytes := by
  have hflatten := flatten_chunks hchunk bytes
  obtain ⟨missing, hmissing, hlast⟩ := mem_fragmentFrames.mp hfeed.last_mem
  have hlastPart : IsPart streamId id (chunks chunk bytes) missing last.bytes := by
    rw [hlast]
    exact isPart_encodeFragment hstream id _ hmissing
  have hbefore : ∀ delivery ∈ before,
      Leaves streamId id (chunks chunk bytes) missing delivery.bytes := by
    intro delivery hmem
    rcases hfeed.frames delivery hmem with hown | hforeign
    · obtain ⟨index, hindex, hframe⟩ := mem_fragmentFrames.mp hown
      refine .inr ⟨hmissing, index, ?_, ?_⟩
      · rintro rfl
        exact hfeed.last_new delivery hmem (hframe.trans hlast.symm)
      · rw [hframe]
        exact isPart_encodeFragment hstream id _ hindex
    · exact .inl hforeign
  obtain ⟨hcalmBefore, hcalmLast⟩ := calmRun_append hcalm
  have hstart : s.Collecting id (chunks chunk bytes) [] := ⟨h, .inl ⟨hnone, rfl⟩⟩
  obtain ⟨packets, s', got, hall, hcollecting, harrived, hsilent⟩ :=
    hstart.ingestAll htotal not_mem_nil hbefore hcalmBefore
  have hown := forall₂_own hsilent fun delivery hmem
      (hin : delivery.bytes ∈ fragmentFrames streamId id chunk bytes) => by
    obtain ⟨index, hindex, hframe⟩ := mem_fragmentFrames.mp hin
    rw [hframe]
    exact not_foreign_of_isPart (isPart_encodeFragment hstream id _ hindex)
  -- every part but the missing one has arrived
  have hcomplete : ∀ i, i < (chunks chunk bytes).length → i ∈ missing :: got := by
    intro i hi
    have hpart := isPart_encodeFragment hstream id (chunks chunk bytes) hi
    rcases hfeed.complete _ (mem_fragmentFrames.mpr ⟨i, hi, rfl⟩) with
      hsame | ⟨delivery, hmem, hbytes⟩
    · rw [hsame] at hpart
      rw [isPart_unique htotal hpart hlastPart]
      exact mem_cons_self
    · rw [← hbytes] at hpart
      exact mem_cons_of_mem _ (harrived.arrived delivery hmem i hpart)
  obtain ⟨s'', hingest⟩ :=
    hcollecting.last htotal hlastPart harrived.still hcomplete (hcalmLast packets s' hall)
  rw [hflatten] at hingest
  refine yieldsOnce_iff hall hown hingest ?_
  unfold Recovers
  split
  · rfl
  · exact ⟨_, rfl, ZCPacket.tunnelPayload_newFromBuf bytes⟩

/-- For every packet, stream and size limit: a packet whose frames carry its tunnel payload
is encoded without a panic; no frame is larger than the limit; and from every store with
right books that has no assembly of the same id, the frames in any order, with repetitions
and among undisturbing frames of other packets, yield the tunnel payload once, at the last
missing frame, exactly if the packet has a header and is not misplaced. -/
theorem lossy_datagrams_round_trip_iff (packet : ZCPacket) {streamId : Nat}
    (hstream : streamId < 2 ^ 62) (maxSize : Option Nat) (id : UInt32) :
    (WellPlaced packet streamId →
      (encodeLossyQuicDatagrams packet streamId maxSize id).isSome) ∧
    ∀ datagrams, encodeLossyQuicDatagrams packet streamId maxSize id = some datagrams →
      (∀ max, maxSize = some max → ∀ frame ∈ datagrams, frame.length ≤ max) ∧
      ∀ (s : DatagramFragments) (before : List Delivery) (last : Delivery),
        s.Ledger → s.pending.lookup id = none → Feed streamId id datagrams before last →
        CalmRun streamId s (before ++ [last]) →
        (s.YieldsOnce streamId datagrams before last packet.tunnelPayload ↔
          WellPlaced packet streamId) := by
  refine ⟨fun hplaced => encodeLossyQuicDatagrams_isSome hplaced, ?_⟩
  intro datagrams hencode
  have hemits := encodeLossyQuicDatagrams_emits hencode
  refine ⟨fun max hmax frame hframe => hemits.length_le hmax hframe, ?_⟩
  intro s before last hledger hnone hfeed hcalm
  rw [wellPlaced_iff]
  cases hemits with
  | whole hfits => exact hfeed.whole_iff hstream hledger hnone hcalm packet.tunnelPayload
  | nothing => exact absurd hfeed.last_mem not_mem_nil
  | fragments chunk hchunk hmax htotal =>
    exact hfeed.fragments_iff hstream hledger hnone hchunk htotal hcalm packet.tunnelPayload

/-- A packet of 32 bytes in three fragments, out of order, with a repetition and with the
whole frame of another packet in between. -/
theorem lossy_datagrams_round_trip_three_fragments :
    let packet := ZCPacket.newFromBuf ((List.range 32).map ofNat) .dummyTunnel
    let frame (index : Nat) := encodeFragment 0 7 3 index
      ((chunks 12 ((List.range 32).map ofNat)).getD index [])
    let delivery (bytes : Bytes) : Delivery := ⟨bytes, 5, true, true, true⟩
    new.YieldsOnce 0 [frame 0, frame 1, frame 2]
      [delivery (frame 2), delivery (frame 0), delivery (List.replicate 20 0), delivery (frame 2)]
      (delivery (frame 1)) packet.tunnelPayload := by
  intro packet frame delivery
  have hencode : encodeLossyQuicDatagrams packet 0 (some 20) 7 =
      some [frame 0, frame 1, frame 2] := by decide +kernel
  have hround := (lossy_datagrams_round_trip_iff packet (show 0 < 2 ^ 62 by decide)
    (some 20) 7).2 _ hencode
  refine (hround.2 new _ _ new_accounted.toLedger rfl ?_ ?_).mpr ?_
  · rw [feed_iff]
    decide +kernel
  · decide +kernel
  · exact ⟨by decide +kernel, by decide +kernel⟩

/-- A packet of a buffer pool that was converted to the TCP layout, with sixteen bytes of
tunnel payload behind the four of the TCP header. -/
def pooledTcpPacket : ZCPacket where
  inner := [0, 0, 0, 0] ++ (range 16).map ofNat
  packetType := .tcp
  flowHash := none
  parsedMetadata := none
  reusablePool := true
  reusablePrefix := some (replicate 14 0)

/-- On stream 65536 the header of the frame has five bytes, more than the TCP header, and
the frame carries that header in front of the tunnel payload. -/
theorem pooled_tcp_packet_not_recovered :
    ∃ frame, encodeLossyQuicDatagrams pooledTcpPacket 65536 none 7 = some [frame] ∧
      Feed 65536 7 [frame] [] ⟨frame, 0, true, true, true⟩ ∧
      CalmRun 65536 new [⟨frame, 0, true, true, true⟩] ∧
      ¬ new.YieldsOnce 65536 [frame] [] ⟨frame, 0, true, true, true⟩
        pooledTcpPacket.tunnelPayload := by
  have hfeed : Feed 65536 7 [wholePrefix 65536 ++ pooledTcpPacket.inner] []
      ⟨wholePrefix 65536 ++ pooledTcpPacket.inner, 0, true, true, true⟩ := by
    rw [feed_iff]
    decide +kernel
  have hcalm : CalmRun 65536 new
      [⟨wholePrefix 65536 ++ pooledTcpPacket.inner, 0, true, true, true⟩] := by decide +kernel
  refine ⟨_, by decide +kernel, hfeed, hcalm, ?_⟩
  rw [hfeed.whole_iff (by decide) new_accounted.toLedger rfl hcalm]
  decide +kernel

end DatagramFragments

end LowerTier.Tunnel.Quic
