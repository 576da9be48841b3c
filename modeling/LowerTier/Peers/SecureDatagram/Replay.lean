import LowerTier.Peers.SecureDatagram.Receive

/-!
# Replay state against the accepted packets

A ledger is the set of `(epoch, sequence)` pairs that one direction has
accepted.  A receive slot *tracks* a ledger when its window knows exactly the
sequences accepted in its epoch.  `CommitStep` lists everything a replay commit
can do to the two slots of a direction; the rest of the module derives from it
that a commit into tracked state never accepts a pair of the ledger, as long as
a slot it opens is for an epoch the ledger does not have.
-/

namespace LowerTier.Peers

open ReplayWindow EpochRxSlot Function Option ProofSupport ProofSupport.MachineInt

def seqsOf (seen : Set (Nat × Nat)) (epoch : Nat) : Set Nat := {seq | (epoch, seq) ∈ seen}

def record (accepted : Bool) (epoch seq : Nat) (seen : Set (Nat × Nat)) : Set (Nat × Nat) :=
  if accepted then insert (epoch, seq) seen else seen

variable {seen : Set (Nat × Nat)} {epoch seq : Nat}

@[simp] theorem record_false :
    record false epoch seq seen = seen := rfl

@[simp] theorem record_true :
    record true epoch seq seen = insert (epoch, seq) seen := rfl

theorem seqsOf_insert_self :
    seqsOf (insert (epoch, seq) seen) epoch = insert seq (seqsOf seen epoch) := by
  ext t
  simp [seqsOf]

variable {epoch : Nat}

namespace EpochRxSlot

def Tracks (slot : EpochRxSlot) (seen : Set (Nat × Nat)) : Prop :=
  slot.window.Tracks (seqsOf seen slot.epoch)

variable {slot : EpochRxSlot} {seen : Set (Nat × Nat)}

@[simp] theorem accept_epoch (seq nowMs : Nat) : (slot.accept seq nowMs).2.epoch = slot.epoch := rfl

theorem Tracks.of_ne (htracks : slot.Tracks seen) (hne : slot.epoch ≠ epoch)
    (accepted : Bool) (seq : Nat) : slot.Tracks (record accepted epoch seq seen) := by
  have hsame : seqsOf (record accepted epoch seq seen) slot.epoch = seqsOf seen slot.epoch := by
    ext t
    cases accepted <;> simp [seqsOf, hne]
  rwa [Tracks, hsame]

theorem Tracks.not_mem (htracks : slot.Tracks seen) (seq nowMs : Nat)
    (haccepted : (slot.accept seq nowMs).1 = true) : (slot.epoch, seq) ∉ seen := by
  have hcan : slot.window.canAccept seq = true := by
    rw [← accept_fst]
    exact haccepted
  exact ((canAccept_iff htracks seq).mp hcan).1

theorem Tracks.accept (htracks : slot.Tracks seen) (seq nowMs : Nat) :
    (slot.accept seq nowMs).2.Tracks (record (slot.accept seq nowMs).1 slot.epoch seq seen) := by
  have hfst : (slot.accept seq nowMs).1 = slot.window.canAccept seq := accept_fst _ _
  cases hcan : slot.window.canAccept seq with
  | false =>
    have hwindow : (slot.accept seq nowMs).2.window = slot.window :=
      congrArg Prod.snd (accept_of_not_canAccept hcan)
    rw [hfst, hcan, Tracks, hwindow]
    exact htracks
  | true =>
    rw [hfst, hcan, record_true, Tracks, accept_epoch, seqsOf_insert_self]
    exact accept_tracks htracks hcan

theorem fresh_tracks (hnew : ∀ seq, (epoch, seq) ∉ seen) (nowMs : Nat) :
    (fresh epoch nowMs).Tracks seen := by
  have hempty : seqsOf seen epoch = ∅ := Set.eq_empty_of_forall_notMem hnew
  show ReplayWindow.Tracks default (seqsOf seen epoch)
  rw [hempty]
  exact tracks_default

end EpochRxSlot

/-! ## What a commit does to the slots -/

variable {other : Nat} (slots : EpochRxSlots)

namespace EpochRxSlots

theorem commitState_eq_commit : commitState = commit := by
  funext slots sendEpoch epoch seq nowMs
  obtain ⟨slot0, slot1⟩ := slots
  cases slot0 with
  | none =>
    simp only [commitState, commit, commitFrom]
    split_ifs
    · rfl
    · exact if_pos rfl
  | some slot0 => rfl

structure Ordered (slots : EpochRxSlots) : Prop where
  slot1_none : slots.slot0 = none → slots.slot1 = none
  lt : ∀ current ∈ slots.slot0, ∀ previous ∈ slots.slot1, previous.epoch < current.epoch

theorem holds_iff :
    slots.holds epoch = true ↔
      (∃ slot ∈ slots.slot0, slot.epoch = epoch) ∨ ∃ slot ∈ slots.slot1, slot.epoch = epoch := by
  simp [holds, any_eq_true]

/-- Everything a commit of `(epoch, seq)` can do to the slots of a direction. -/
inductive CommitStep (slots : EpochRxSlots) (sendEpoch epoch seq nowMs : Nat) :
    Bool × EpochRxSlots → Prop where
  /-- The epoch is behind the slots or too far ahead. -/
  | refused : CommitStep slots sendEpoch epoch seq nowMs (false, slots)
  /-- The current epoch. -/
  | current (slot : EpochRxSlot) (hslot : slots.slot0 = some slot) (hepoch : slot.epoch = epoch) :
      CommitStep slots sendEpoch epoch seq nowMs
        ((slot.accept seq nowMs).1, { slots with slot0 := some (slot.accept seq nowMs).2 })
  /-- The epoch before the current one. -/
  | previous (slot : EpochRxSlot) (hslot : slots.slot1 = some slot) (hepoch : slot.epoch = epoch) :
      CommitStep slots sendEpoch epoch seq nowMs
        ((slot.accept seq nowMs).1, { slots with slot1 := some (slot.accept seq nowMs).2 })
  /-- The first epoch of a direction. -/
  | first (hslot0 : slots.slot0 = none) (hslot1 : slots.slot1 = none)
      (hahead : epoch ≤ sendEpoch + SecureDatagramSession.MAX_ACCEPTED_RX_EPOCH_AHEAD) :
      CommitStep slots sendEpoch epoch seq nowMs
        (true, ⟨some ((fresh epoch nowMs).accept seq nowMs).2, none⟩)
  /-- A newer epoch, which shifts the current one down. -/
  | advance (slot : EpochRxSlot) (hslot : slots.slot0 = some slot) (hnewer : slot.epoch < epoch)
      (hshift : ∀ previous ∈ slots.slot1, previous.epoch < slot.epoch)
      (hahead : epoch ≤ SecureDatagramSession.maxWithSlot
        (SecureDatagramSession.maxWithSlot sendEpoch slots.slot0) slots.slot1 +
          SecureDatagramSession.MAX_ACCEPTED_RX_EPOCH_AHEAD) :
      CommitStep slots sendEpoch epoch seq nowMs
        (true, ⟨some ((fresh epoch nowMs).accept seq nowMs).2, some slot⟩)

theorem le_add_of_not_lt_saturatingAdd {w a b n : Nat} (h : ¬n > saturatingAdd w a b) :
    n ≤ a + b := by
  rw [saturatingAdd] at h
  omega

theorem commit_commitStep {slots : EpochRxSlots} (hordered : slots.Ordered)
    (sendEpoch epoch seq nowMs : Nat) :
    CommitStep slots sendEpoch epoch seq nowMs (slots.commit sendEpoch epoch seq nowMs) := by
  obtain ⟨slot0, slot1⟩ := slots
  cases slot0 with
  | none =>
    obtain rfl : slot1 = none := hordered.slot1_none rfl
    simp only [commit]
    split_ifs with hahead
    · exact .refused
    · exact .first rfl rfl (le_add_of_not_lt_saturatingAdd hahead)
  | some slot0 =>
    by_cases hepoch : epoch = slot0.epoch
    · simp only [commit, commitFrom, if_pos hepoch]
      exact .current slot0 rfl hepoch.symm
    simp only [commit, commitFrom, if_neg hepoch]
    cases hprevious : slot1.filter (·.epoch == epoch) with
    | some slot =>
      obtain ⟨hslot, hslotEpoch⟩ := filter_eq_some_iff.mp hprevious
      exact .previous slot hslot (by simpa using hslotEpoch)
    | none =>
      split_ifs with hnewer hahead
      · exact .refused
      · exact .advance slot0 rfl hnewer (hordered.lt slot0 rfl)
          (le_add_of_not_lt_saturatingAdd hahead)
      · exact .refused

theorem acceptHeld_commitStep (sendEpoch epoch seq nowMs : Nat) :
    CommitStep slots sendEpoch epoch seq nowMs (slots.acceptHeld epoch seq nowMs) := by
  unfold acceptHeld
  split
  · next slot hslot0 =>
    obtain ⟨hslot, hepoch⟩ := filter_eq_some_iff.mp hslot0
    exact .current slot hslot (by simpa using hepoch)
  · next slot _ hslot1 =>
    obtain ⟨hslot, hepoch⟩ := filter_eq_some_iff.mp hslot1
    exact .previous slot hslot (by simpa using hepoch)
  · exact .refused

structure Tracks (slots : EpochRxSlots) (seen : Set (Nat × Nat)) : Prop where
  slot0 : ∀ slot ∈ slots.slot0, slot.Tracks seen
  slot1 : ∀ slot ∈ slots.slot1, slot.Tracks seen
  distinct : ∀ current ∈ slots.slot0, ∀ previous ∈ slots.slot1, previous.epoch ≠ current.epoch

theorem Tracks.of_not_holds {slots : EpochRxSlots} {seen : Set (Nat × Nat)}
    (htracks : slots.Tracks seen) (hnot : slots.holds epoch = false)
    (accepted : Bool) (seq : Nat) : slots.Tracks (record accepted epoch seq seen) := by
  rw [Bool.eq_false_iff, ne_eq, holds_iff, not_or] at hnot
  refine ⟨fun slot hslot => ?_, fun slot hslot => ?_, htracks.distinct⟩
  · exact (htracks.slot0 slot hslot).of_ne (fun h => hnot.1 ⟨slot, hslot, h⟩) accepted seq
  · exact (htracks.slot1 slot hslot).of_ne (fun h => hnot.2 ⟨slot, hslot, h⟩) accepted seq

namespace CommitStep

variable {slots : EpochRxSlots} {sendEpoch epoch seq nowMs : Nat} {r : Bool × EpochRxSlots}
  {seen : Set (Nat × Nat)}

theorem ordered (hstep : CommitStep slots sendEpoch epoch seq nowMs r) (hordered : slots.Ordered) :
    r.2.Ordered := by
  cases hstep with
  | refused => exact hordered
  | current slot hslot hepoch =>
    refine ⟨by simp, ?_⟩
    simpa using hordered.lt slot hslot
  | previous slot hslot hepoch =>
    refine ⟨fun hnone => ?_, ?_⟩
    · rw [hordered.slot1_none hnone] at hslot
      simp at hslot
    · intro current hcurrent previous hprevious
      obtain rfl : (slot.accept seq nowMs).2 = previous := by simpa using hprevious
      exact hordered.lt current hcurrent slot hslot
  | first hslot0 hslot1 hahead => exact ⟨by simp, by simp⟩
  | advance slot hslot hnewer hshift hahead =>
    refine ⟨by simp, ?_⟩
    simpa [fresh] using hnewer

theorem holds_eq_false_of_first (hslot0 : slots.slot0 = none) (hslot1 : slots.slot1 = none) :
    slots.holds epoch = false := by
  simp [holds, hslot0, hslot1]

theorem holds_eq_false_of_advance {slot : EpochRxSlot} (hslot : slots.slot0 = some slot)
    (hnewer : slot.epoch < epoch) (hshift : ∀ previous ∈ slots.slot1, previous.epoch < slot.epoch) :
    slots.holds epoch = false := by
  rw [Bool.eq_false_iff, ne_eq, holds_iff]
  rintro (⟨current, hcurrent, hepoch⟩ | ⟨previous, hprevious, hepoch⟩)
  · obtain rfl : slot = current := some.inj (hslot.symm.trans hcurrent)
    omega
  · have := hshift previous hprevious
    omega

/-- An accepted pair is new, if a slot that is opened has an epoch new to the ledger. -/
theorem not_mem (hstep : CommitStep slots sendEpoch epoch seq nowMs r) (htracks : slots.Tracks seen)
    (hnew : slots.holds epoch = false → ∀ seq, (epoch, seq) ∉ seen) (haccepted : r.1 = true) :
    (epoch, seq) ∉ seen := by
  cases hstep with
  | refused => simp at haccepted
  | current slot hslot hepoch =>
    subst hepoch
    exact (htracks.slot0 slot hslot).not_mem seq nowMs haccepted
  | previous slot hslot hepoch =>
    subst hepoch
    exact (htracks.slot1 slot hslot).not_mem seq nowMs haccepted
  | first hslot0 hslot1 hahead => exact hnew (holds_eq_false_of_first hslot0 hslot1) seq
  | advance slot hslot hnewer hshift hahead =>
    exact hnew (holds_eq_false_of_advance hslot hnewer hshift) seq

theorem fresh_accept_tracks (hnew : ∀ seq, (epoch, seq) ∉ seen) :
    ((fresh epoch nowMs).accept seq nowMs).2.Tracks (insert (epoch, seq) seen) :=
  (fresh_tracks hnew nowMs).accept seq nowMs

variable (hstep : CommitStep slots sendEpoch epoch seq nowMs r)
include hstep

theorem tracks (htracks : slots.Tracks seen)
    (hnew : slots.holds epoch = false → ∀ seq, (epoch, seq) ∉ seen) :
    r.2.Tracks (record r.1 epoch seq seen) := by
  cases hstep with
  | refused => exact htracks
  | current slot hslot hepoch =>
    subst hepoch
    refine ⟨?_, fun previous hprevious => ?_, ?_⟩
    · simpa using (htracks.slot0 slot hslot).accept seq nowMs
    · have hne := htracks.distinct slot hslot previous hprevious
      exact (htracks.slot1 previous hprevious).of_ne hne _ seq
    · simpa using htracks.distinct slot hslot
  | previous slot hslot hepoch =>
    subst hepoch
    refine ⟨fun current hcurrent => ?_, ?_, fun current hcurrent => ?_⟩
    · have hne := htracks.distinct current hcurrent slot hslot
      exact (htracks.slot0 current hcurrent).of_ne hne.symm _ seq
    · simpa using (htracks.slot1 slot hslot).accept seq nowMs
    · simpa using htracks.distinct current hcurrent slot hslot
  | first hslot0 hslot1 hahead =>
    have hepoch := hnew (holds_eq_false_of_first hslot0 hslot1)
    refine ⟨?_, by simp, by simp⟩
    simpa using fresh_accept_tracks hepoch
  | advance slot hslot hnewer hshift hahead =>
    have hepoch := hnew (holds_eq_false_of_advance hslot hnewer hshift)
    refine ⟨?_, ?_, ?_⟩
    · simpa using fresh_accept_tracks hepoch
    · simpa using (htracks.slot0 slot hslot).of_ne hnewer.ne true seq
    · simpa [fresh] using hnewer.ne

/-- After the commit the slots hold no epoch but the old ones and the committed one. -/
theorem holds_imp (hholds : r.2.holds other = true) :
    slots.holds other = true ∨ other = epoch ∧ r.1 = true := by
  cases hstep with
  | refused => exact .inl hholds
  | current slot hslot hepoch | previous slot hslot hepoch =>
    refine .inl ?_
    simpa [holds, hslot] using hholds
  | first hslot0 hslot1 hahead =>
    have hother : epoch = other := by simpa [holds, fresh] using hholds
    exact .inr ⟨hother.symm, rfl⟩
  | advance slot hslot hnewer hshift hahead =>
    have hother : epoch = other ∨ slot.epoch = other := by
      simpa [holds, fresh] using hholds
    rcases hother with hother | hother
    · exact .inr ⟨hother.symm, rfl⟩
    · exact .inl ((holds_iff _).mpr (.inl ⟨slot, hslot, hother⟩))

theorem holds_of_le
    (hle : epoch ≤ other) (hholds : slots.holds other = true) : r.2.holds other = true := by
  cases hstep with
  | refused => exact hholds
  | current slot hslot hepoch | previous slot hslot hepoch => simpa [holds, hslot] using hholds
  | first hslot0 hslot1 hahead =>
    rw [holds_eq_false_of_first hslot0 hslot1] at hholds
    simp at hholds
  | advance slot hslot hnewer hshift hahead =>
    -- both old epochs lie below the committed one
    rcases (holds_iff _).mp hholds with ⟨current, hcurrent, hepoch⟩ | ⟨previous, hprevious, hepoch⟩
    · obtain rfl : slot = current := some.inj (hslot.symm.trans hcurrent)
      omega
    · have := hshift previous hprevious
      omega

theorem holds_of_accepted (haccepted : r.1 = true) : r.2.holds epoch = true := by
  cases hstep with
  | refused => simp at haccepted
  | current slot hslot hepoch | previous slot hslot hepoch => simp [holds, hepoch]
  | first hslot0 hslot1 hahead => simp [holds, fresh]
  | advance slot hslot hnewer hshift hahead => simp [holds, fresh]

end CommitStep

end EpochRxSlots

/-! ## Replay state with a grace copy -/

namespace ReplayState

/-- Whether a slot or a grace slot of the direction holds the epoch. -/
def tracksEpoch (state : ReplayState) (dir : Direction) (epoch : Nat) : Bool :=
  (state.rx dir).holds epoch || state.grace.any fun grace => (grace.slots dir).holds epoch

/-- The replay state of a direction agrees with the ledger. -/
structure Coherent (state : ReplayState) (dir : Direction) (seen : Set (Nat × Nat)) : Prop where
  ordered : (state.rx dir).Ordered
  rx : (state.rx dir).Tracks seen
  grace : ∀ grace ∈ state.grace, (grace.slots dir).Tracks seen
  disjoint : ∀ grace ∈ state.grace, ∀ epoch, (grace.slots dir).holds epoch = true →
    (state.rx dir).holds epoch = false

theorem commitState_eq_commit : commitState = commit := by
  rw [commitState, commit, EpochRxSlots.commitState_eq_commit]

/-- A commit works on the grace copy or on the rx slots of its direction. -/
inductive CommitStep (state : ReplayState) (dir : Direction) (sendEpoch epoch seq nowMs : Nat) :
    Bool × ReplayState → Prop where
  | grace (grace : SyncRxGrace) (r : Bool × EpochRxSlots) (hgrace : state.grace = some grace)
      (hholds : (grace.slots dir).holds epoch = true)
      (hslots : (grace.slots dir).CommitStep sendEpoch epoch seq nowMs r) :
      CommitStep state dir sendEpoch epoch seq nowMs
        (r.1, ⟨state.rx, some { grace with slots := update grace.slots dir r.2 }⟩)
  | rx (r : Bool × EpochRxSlots)
      (hnot : ∀ grace ∈ state.grace, (grace.slots dir).holds epoch = false)
      (hslots : (state.rx dir).CommitStep sendEpoch epoch seq nowMs r) :
      CommitStep state dir sendEpoch epoch seq nowMs
        (r.1, ⟨update state.rx dir r.2, state.grace⟩)

section Commit

variable {state : ReplayState} {dir : Direction} {seen : Set (Nat × Nat)}
  {sendEpoch epoch seq nowMs : Nat}

theorem commit_commitStep (hordered : (state.rx dir).Ordered) :
    state.CommitStep dir sendEpoch epoch seq nowMs
      (state.commit sendEpoch epoch seq dir nowMs) := by
  unfold commit commitWith graceFor
  cases hgrace : state.grace.filter fun grace => (grace.slots dir).holds epoch with
  | some grace =>
    obtain ⟨hmem, hholds⟩ := filter_eq_some_iff.mp hgrace
    exact .grace grace _ hmem hholds (EpochRxSlots.acceptHeld_commitStep ..)
  | none =>
    have hnot : ∀ grace ∈ state.grace, (grace.slots dir).holds epoch = false := by
      simpa using filter_eq_none_iff.mp hgrace
    exact .rx _ hnot (EpochRxSlots.commit_commitStep hordered ..)

theorem tracksEpoch_eq_false (hgrace : ∀ grace ∈ state.grace, (grace.slots dir).holds epoch = false)
    (hrx : (state.rx dir).holds epoch = false) : state.tracksEpoch dir epoch = false := by
  rw [tracksEpoch, hrx, Bool.false_or]
  cases hsome : state.grace with
  | none => rfl
  | some grace => exact hgrace grace hsome

namespace CommitStep

variable {r : Bool × ReplayState} (hstep : state.CommitStep dir sendEpoch epoch seq nowMs r)
include hstep

section

variable (hcoherent : state.Coherent dir seen)
  (hnew : state.tracksEpoch dir epoch = false → ∀ seq, (epoch, seq) ∉ seen)
include hcoherent hnew

theorem not_mem (haccepted : r.1 = true) : (epoch, seq) ∉ seen := by
  cases hstep with
  | grace grace r hgrace hholds hslots =>
    exact hslots.not_mem (hcoherent.grace grace hgrace) (by simp [hholds]) haccepted
  | rx r hnot hslots =>
    exact hslots.not_mem hcoherent.rx (fun hrx => hnew (tracksEpoch_eq_false hnot hrx)) haccepted

theorem coherent : r.2.Coherent dir (record r.1 epoch seq seen) := by
  cases hstep with
  | grace grace r hgrace hholds hslots =>
    have hrx := hcoherent.disjoint grace hgrace epoch hholds
    have htracks := hslots.tracks (hcoherent.grace grace hgrace) (by simp [hholds])
    refine ⟨hcoherent.ordered, hcoherent.rx.of_not_holds hrx _ seq, ?_, ?_⟩
    · simpa using htracks
    · intro grace' hgrace' other hother
      obtain rfl : _ = grace' := some.inj hgrace'
      have hheld : r.2.holds other = true := by simpa using hother
      rcases hslots.holds_imp hheld with hold | ⟨rfl, -⟩
      · exact hcoherent.disjoint grace hgrace other hold
      · exact hrx
  | rx r hnot hslots =>
    have htracks := hslots.tracks hcoherent.rx fun hrx => hnew (tracksEpoch_eq_false hnot hrx)
    refine ⟨?_, ?_, fun grace hgrace => ?_, fun grace hgrace other hother => ?_⟩
    · simpa using hslots.ordered hcoherent.ordered
    · simpa using htracks
    · exact (hcoherent.grace grace hgrace).of_not_holds (hnot grace hgrace) _ seq
    · have hheld : r.2.holds other ≠ true := by
        intro hrx
        rcases hslots.holds_imp hrx with hold | ⟨rfl, -⟩
        · rw [hcoherent.disjoint grace hgrace other hother] at hold
          simp at hold
        · rw [hnot grace hgrace] at hother
          simp at hother
      simpa using hheld

end

theorem coherent_other {other : Direction} (hne : other ≠ dir)
    (hcoherent : state.Coherent other seen) : r.2.Coherent other seen := by
  cases hstep with
  | grace grace r hgrace hholds hslots =>
    refine { hcoherent with grace := ?_, disjoint := ?_ }
    · simpa [update_of_ne hne] using hcoherent.grace grace hgrace
    · simpa [update_of_ne hne] using hcoherent.disjoint grace hgrace
  | rx r hnot hslots =>
    refine ⟨?_, ?_, hcoherent.grace, ?_⟩
    · simpa [update_of_ne hne] using hcoherent.ordered
    · simpa [update_of_ne hne] using hcoherent.rx
    · simpa [update_of_ne hne] using hcoherent.disjoint

theorem tracksEpoch_of_le (hle : epoch ≤ other) (htracks : state.tracksEpoch dir other = true) :
    r.2.tracksEpoch dir other = true := by
  rw [tracksEpoch, Bool.or_eq_true] at htracks ⊢
  cases hstep with
  | grace grace r hgrace hholds hslots =>
    refine htracks.imp id fun hold => ?_
    simpa using hslots.holds_of_le hle (by simpa [hgrace] using hold)
  | rx r hnot hslots =>
    refine htracks.imp (fun hold => ?_) id
    simpa using hslots.holds_of_le hle hold

theorem tracksEpoch_of_accepted (haccepted : r.1 = true) : r.2.tracksEpoch dir epoch = true := by
  rw [tracksEpoch, Bool.or_eq_true]
  cases hstep with
  | grace grace r hgrace hholds hslots =>
    exact .inr (by simpa using hslots.holds_of_accepted haccepted)
  | rx r hnot hslots => exact .inl (by simpa using hslots.holds_of_accepted haccepted)

end CommitStep

theorem commit_expiry :
    (state.commit sendEpoch epoch seq dir nowMs).2.grace.map (·.expiresAtMs) =
      state.grace.map (·.expiresAtMs) := by
  unfold ReplayState.commit commitWith graceFor
  cases hgrace : state.grace.filter fun grace => (grace.slots dir).holds epoch with
  | some grace =>
    obtain ⟨hmem, -⟩ := filter_eq_some_iff.mp hgrace
    simp [hmem]
  | none => rfl

end Commit

end ReplayState

/-! ## Commits of a history -/

def ledger (history : List SecureDatagramSession.NonceUse) (dir : Direction) : Set (Nat × Nat) :=
  {pair | ⟨dir, pair.1, pair.2⟩ ∈ history}

def acceptedUses (commits : List ReplayCommit) : List SecureDatagramSession.NonceUse :=
  (commits.filter (·.accepted)).map fun commit => ⟨commit.direction, commit.epoch, commit.seq⟩

theorem acceptedUses_append (left right : List ReplayCommit) :
    acceptedUses (left ++ right) = acceptedUses left ++ acceptedUses right := by
  simp [acceptedUses]

namespace ReplayState

/-- No pair was accepted twice, and the replay state knows what was accepted. -/
structure Consistent (state : ReplayState) (history : List SecureDatagramSession.NonceUse) :
    Prop where
  nodup : history.Nodup
  coherent : ∀ dir, state.Coherent dir (ledger history dir)

/-- An epoch without a slot in the direction has no accepted packet there. -/
def OpensNewEpoch (state : ReplayState) (history : List SecureDatagramSession.NonceUse)
    (dir : Direction) (epoch : Nat) : Prop :=
  state.tracksEpoch dir epoch = false →
    ∀ used ∈ history, ¬(used.direction = dir ∧ used.epoch = epoch)

variable {state : ReplayState} {history : List SecureDatagramSession.NonceUse}
  {dir : Direction} {sendEpoch epoch seq nowMs : Nat}

theorem OpensNewEpoch.not_mem_ledger (hnew : state.OpensNewEpoch history dir epoch)
    (hfree : state.tracksEpoch dir epoch = false) (seq : Nat) :
    (epoch, seq) ∉ ledger history dir := by
  intro hmem
  exact hnew hfree ⟨dir, epoch, seq⟩ hmem ⟨rfl, rfl⟩

/-- The history entry of a commit, if it was accepted. -/
def useOf (accepted : Bool) (dir : Direction) (epoch seq : Nat) :
    List SecureDatagramSession.NonceUse :=
  if accepted then [⟨dir, epoch, seq⟩] else []

theorem acceptedUses_cons (commit : ReplayCommit) (commits : List ReplayCommit) :
    acceptedUses (commit :: commits) =
      useOf commit.accepted commit.direction commit.epoch commit.seq ++ acceptedUses commits := by
  cases haccepted : commit.accepted <;> simp [acceptedUses, useOf, haccepted]

variable {accepted : Bool}

theorem ledger_append_useOf :
    ledger (history ++ useOf accepted dir epoch seq) dir =
      record accepted epoch seq (ledger history dir) := by
  ext pair
  cases accepted
  · simp [ledger, useOf]
  · simp [ledger, useOf, Prod.ext_iff, or_comm]

theorem ledger_append_useOf_of_ne {other : Direction} (hne : other ≠ dir) :
    ledger (history ++ useOf accepted dir epoch seq) other = ledger history other := by
  ext pair
  cases accepted <;> simp [ledger, useOf, hne]

variable {r : Bool × ReplayState}

theorem CommitStep.consistent (hstep : state.CommitStep dir sendEpoch epoch seq nowMs r)
    (hconsistent : state.Consistent history) (hnew : state.OpensNewEpoch history dir epoch) :
    r.2.Consistent (history ++ useOf r.1 dir epoch seq) := by
  have hcoherent := hconsistent.coherent dir
  constructor
  · cases haccepted : r.1 with
    | false => simpa [useOf] using hconsistent.nodup
    | true =>
      rw [useOf, if_pos rfl, ← List.concat_eq_append]
      exact hconsistent.nodup.concat (hstep.not_mem hcoherent hnew.not_mem_ledger haccepted)
  · intro other
    by_cases hother : other = dir
    · subst hother
      rw [ledger_append_useOf]
      exact hstep.coherent hcoherent hnew.not_mem_ledger
    · rw [ledger_append_useOf_of_ne hother]
      exact hstep.coherent_other hother (hconsistent.coherent other)

theorem mem_append_useOf {used : SecureDatagramSession.NonceUse}
    (hused : used ∈ history ++ useOf accepted dir epoch seq) :
    used ∈ history ∨ accepted = true ∧ used = ⟨dir, epoch, seq⟩ := by
  cases accepted with
  | false => exact .inl (by simpa [useOf] using hused)
  | true => simpa [useOf] using hused

/-- Commits in epoch order never close an epoch that a later one of them needs. -/
theorem CommitStep.opensNewEpoch (hstep : state.CommitStep dir sendEpoch epoch seq nowMs r)
    (hle : epoch ≤ other) (hnew : state.OpensNewEpoch history dir other) :
    r.2.OpensNewEpoch (history ++ useOf r.1 dir epoch seq) dir other := by
  intro hfree used hused
  have hbefore : state.tracksEpoch dir other = false := by
    rw [Bool.eq_false_iff]
    intro htracks
    rw [hstep.tracksEpoch_of_le hle htracks] at hfree
    simp at hfree
  rcases mem_append_useOf hused with hold | ⟨haccepted, rfl⟩
  · exact hnew hbefore used hold
  · rintro ⟨-, rfl⟩
    rw [hstep.tracksEpoch_of_accepted haccepted] at hfree
    simp at hfree

open SecureDatagramSession in
theorem commitStep_eq (packet : Opened) :
    commitStep sendEpoch dir nowMs state packet =
      ((state.commit sendEpoch packet.epoch packet.seq dir nowMs).2,
        [(packet.index, ⟨dir, packet.epoch, packet.seq, sendEpoch, state,
          (state.commit sendEpoch packet.epoch packet.seq dir nowMs).2,
          (state.commit sendEpoch packet.epoch packet.seq dir nowMs).1⟩)]) := by
  rw [commitStep, commitState_eq_commit]

open SecureDatagramSession in
theorem Consistent.commitLoop {order : List Opened} (hconsistent : state.Consistent history)
    (hsorted : order.Pairwise fun a b => a.epoch ≤ b.epoch)
    (hnew : ∀ packet ∈ order, state.OpensNewEpoch history dir packet.epoch)
    (sendEpoch nowMs : Nat) :
    (Trace.run (commitStep sendEpoch dir nowMs) state order).1.Consistent (history ++ acceptedUses
        ((Trace.run (commitStep sendEpoch dir nowMs) state order).2.map (·.2))) := by
  induction order generalizing state history with
  | nil => simpa [acceptedUses] using hconsistent
  | cons packet order ih =>
    obtain ⟨hle, hsorted⟩ := List.pairwise_cons.mp hsorted
    have hstep : state.CommitStep dir sendEpoch packet.epoch packet.seq nowMs _ :=
      commit_commitStep (hconsistent.coherent dir).ordered
    have hnext := ih (hstep.consistent hconsistent (hnew packet List.mem_cons_self)) hsorted
      fun other hother =>
        hstep.opensNewEpoch (hle other hother) (hnew other (List.mem_cons_of_mem _ hother))
    rw [Trace.run_cons, commitStep_eq]
    simpa [acceptedUses_cons] using hnext

end ReplayState

end LowerTier.Peers
