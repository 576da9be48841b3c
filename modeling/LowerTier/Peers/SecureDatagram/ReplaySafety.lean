import LowerTier.Peers.SecureDatagram.ReceiveStep

/-!
# Replay safety over whole runs

Between two SYNCs the receive slots of a direction only move to newer epochs, so
every epoch they have left is refused for good.  Across SYNCs this no longer
holds: a SYNC empties the slots, and once the grace copy has expired an old epoch
may open again with an empty window.
-/

namespace LowerTier.Peers

open EpochRxSlots SecureDatagramSession Option List ProofSupport Tunnel Trace

/-! ## Runs without a SYNC -/

/-- What every commit between SYNCs satisfies: an accepted epoch is one of the two
slots' or at most three ahead, and the slots stay ordered. -/
structure ReplayCommit.Admissible (c : ReplayCommit) : Prop where
  epoch : c.accepted = true → ∀ slot0 ∈ (c.before.rx c.direction).slot0,
    c.epoch = slot0.epoch ∨ (∃ slot1 ∈ (c.before.rx c.direction).slot1, c.epoch = slot1.epoch) ∨
      slot0.epoch < c.epoch ∧
        c.epoch ≤ maxWithSlot (max c.sendEpoch slot0.epoch)
          (c.before.rx c.direction).slot1 + 3
  ordered : ∀ slot1 ∈ (c.after.rx c.direction).slot1, ∃ slot0 ∈ (c.after.rx c.direction).slot0,
    slot1.epoch < slot0.epoch

namespace ReplayState

/-- The slots without a grace copy: no accepted epoch is above the first slot. -/
structure Bounded (state : ReplayState) (history : List SecureDatagramSession.NonceUse) :
    Prop where
  grace : state.grace = none
  ordered : ∀ dir, (state.rx dir).Ordered
  le : ∀ used ∈ history, ∃ slot ∈ (state.rx used.direction).slot0, used.epoch ≤ slot.epoch

variable {state : ReplayState} {history : List SecureDatagramSession.NonceUse}
  {dir : Direction} {sendEpoch epoch seq nowMs : Nat}

theorem lt_of_precheck (hfree : state.tracksEpoch dir epoch = false)
    (hallowed : state.precheck sendEpoch epoch seq dir = true) :
    ∀ slot ∈ (state.rx dir).slot0, slot.epoch < epoch := by
  intro slot hslot
  rw [tracksEpoch, Bool.or_eq_false_iff] at hfree
  obtain ⟨hrx, hgrace⟩ := hfree
  have hnone : state.graceFor dir epoch = none := by
    unfold graceFor
    cases hsome : state.grace with
    | none => rfl
    | some grace =>
      rw [hsome] at hgrace
      simpa [filter_some] using hgrace
  have hslots : (state.rx dir).precheck sendEpoch epoch seq = true := by
    rw [precheck, hnone] at hallowed
    exact hallowed
  rw [Bool.eq_false_iff, ne_eq, holds_iff, not_or] at hrx
  have hslot0 : slot.epoch ≠ epoch := fun h => hrx.1 ⟨slot, hslot, h⟩
  have hslot1 : (state.rx dir).slot1.filter (·.epoch == epoch) = none := by
    rw [filter_eq_none_iff]
    intro slot1 hslot1
    simpa using fun h => hrx.2 ⟨slot1, hslot1, h⟩
  rw [mem_def] at hslot
  simp only [EpochRxSlots.precheck, hslot, hslot1, if_neg (Ne.symm hslot0)] at hslots
  split_ifs at hslots with hnewer
  exact hnewer

theorem Bounded.commit_eq (hbounded : state.Bounded history) :
    ∃ r, (state.rx dir).CommitStep sendEpoch epoch seq nowMs r ∧
      state.commit sendEpoch epoch seq dir nowMs =
        (r.1, ⟨Function.update state.rx dir r.2, none⟩) := by
  have hstep : state.CommitStep dir sendEpoch epoch seq nowMs _ :=
    commit_commitStep (hbounded.ordered dir)
  generalize state.commit sendEpoch epoch seq dir nowMs = result at hstep ⊢
  cases hstep with
  | grace grace r hgrace => simp [hbounded.grace] at hgrace
  | rx r _ hslots => exact ⟨r, hslots, by rw [hbounded.grace]⟩

end ReplayState

variable {slots : EpochRxSlots}

theorem EpochRxSlots.Ordered.exists_slot0 (hordered : slots.Ordered) (slot1 : EpochRxSlot)
    (hslot1 : slot1 ∈ slots.slot1) : ∃ slot0 ∈ slots.slot0, slot1.epoch < slot0.epoch := by
  cases hslot0 : slots.slot0 with
  | none => exact absurd (hslot1.symm.trans (hordered.slot1_none hslot0)) (by simp)
  | some slot0 => exact ⟨slot0, rfl, hordered.lt slot0 hslot0 slot1 hslot1⟩

namespace EpochRxSlots.CommitStep

variable {sendEpoch epoch seq nowMs : Nat} {r : Bool × EpochRxSlots}

variable (hstep : slots.CommitStep sendEpoch epoch seq nowMs r)
include hstep

theorem slot0_le : ∀ slot ∈ slots.slot0, ∃ slot' ∈ r.2.slot0, slot.epoch ≤ slot'.epoch := by
  intro slot hslot
  cases hstep with
  | refused => exact ⟨slot, hslot, le_rfl⟩
  | current current hcurrent hepoch =>
    obtain rfl : current = slot := some.inj (hcurrent.symm.trans hslot)
    exact ⟨_, rfl, le_rfl⟩
  | previous previous hprevious hepoch => exact ⟨slot, hslot, le_rfl⟩
  | first hslot0 hslot1 hahead => exact absurd (hslot0.symm.trans hslot) (by simp)
  | advance current hcurrent hnewer hshift hahead =>
    obtain rfl : current = slot := some.inj (hcurrent.symm.trans hslot)
    exact ⟨_, rfl, hnewer.le⟩

theorem le_slot0 (hordered : slots.Ordered) (haccepted : r.1 = true) :
    ∃ slot ∈ r.2.slot0, epoch ≤ slot.epoch := by
  cases hstep with
  | refused => simp at haccepted
  | current slot hslot hepoch => exact ⟨_, rfl, hepoch.ge⟩
  | previous slot hslot hepoch =>
    obtain ⟨current, hcurrent, hlt⟩ := hordered.exists_slot0 slot hslot
    exact ⟨current, hcurrent, by omega⟩
  | first hslot0 hslot1 hahead => exact ⟨_, rfl, le_rfl⟩
  | advance slot hslot hnewer hshift hahead => exact ⟨_, rfl, le_rfl⟩

theorem admissible (haccepted : r.1 = true) (slot0 : EpochRxSlot) (hslot0 : slot0 ∈ slots.slot0) :
    epoch = slot0.epoch ∨ (∃ slot1 ∈ slots.slot1, epoch = slot1.epoch) ∨
      slot0.epoch < epoch ∧
        epoch ≤ maxWithSlot (max sendEpoch slot0.epoch) slots.slot1 + 3 := by
  cases hstep with
  | refused => simp at haccepted
  | current slot hslot hepoch =>
    obtain rfl : slot = slot0 := some.inj (hslot.symm.trans hslot0)
    exact .inl hepoch.symm
  | previous slot hslot hepoch => exact .inr (.inl ⟨slot, hslot, hepoch.symm⟩)
  | first hempty hslot1 hahead => exact absurd (hempty.symm.trans hslot0) (by simp)
  | advance slot hslot hnewer hshift hahead =>
    obtain rfl : slot = slot0 := some.inj (hslot.symm.trans hslot0)
    rw [hslot] at hahead
    exact .inr (.inr ⟨hnewer, hahead⟩)

end EpochRxSlots.CommitStep

namespace ReplayState

variable {state : ReplayState} {history : List SecureDatagramSession.NonceUse}

variable (hbounded : state.Bounded history)
include hbounded

variable (dir : Direction)

theorem Bounded.commit (sendEpoch epoch seq nowMs : Nat) :
    (state.commit sendEpoch epoch seq dir nowMs).2.Bounded
      (history ++ useOf (state.commit sendEpoch epoch seq dir nowMs).1 dir epoch seq) := by
  obtain ⟨r, hstep, hcommit⟩ := hbounded.commit_eq
  rw [hcommit]
  refine ⟨rfl, fun other => ?_, fun used hused => ?_⟩
  · by_cases hother : other = dir
    · subst hother
      simpa using hstep.ordered (hbounded.ordered other)
    · simpa [Function.update_of_ne hother] using hbounded.ordered other
  · rcases mem_append_useOf hused with hold | ⟨haccepted, rfl⟩
    · obtain ⟨slot, hslot, hle⟩ := hbounded.le used hold
      by_cases hother : used.direction = dir
      · subst hother
        obtain ⟨slot', hslot', hle'⟩ := hstep.slot0_le slot hslot
        exact ⟨slot', by simpa using hslot', hle.trans hle'⟩
      · exact ⟨slot, by simpa [Function.update_of_ne hother] using hslot, hle⟩
    · simpa using hstep.le_slot0 (hbounded.ordered dir) haccepted

open SecureDatagramSession in
theorem Bounded.commitStep_admissible (sendEpoch nowMs : Nat) (packet : Opened) :
    ∀ c ∈ (commitStep sendEpoch dir nowMs state packet).2, c.2.Admissible := by
  obtain ⟨r, hstep, hcommit⟩ := hbounded.commit_eq
  rw [commitStep_eq, hcommit]
  simp only [mem_singleton, forall_eq]
  refine ⟨hstep.admissible, ?_⟩
  simpa using (hstep.ordered (hbounded.ordered dir)).exists_slot0

open SecureDatagramSession in
theorem Bounded.commitLoop (sendEpoch nowMs : Nat) (order : List Opened) :
    (run (commitStep sendEpoch dir nowMs) state order).1.Bounded (history ++ acceptedUses
        ((run (commitStep sendEpoch dir nowMs) state order).2.map (·.2))) ∧
    ∀ c ∈ (run (commitStep sendEpoch dir nowMs) state order).2, c.2.Admissible := by
  induction order generalizing state history with
  | nil => exact ⟨by simpa [acceptedUses] using hbounded, by simp⟩
  | cons packet order ih =>
    have hadmissible := hbounded.commitStep_admissible dir sendEpoch nowMs packet
    obtain ⟨hnext, hrest⟩ := ih (hbounded.commit dir sendEpoch packet.epoch packet.seq nowMs)
    rw [run_cons]
    refine ⟨?_, fun c hc => ?_⟩
    · rw [commitStep_eq]
      simpa [acceptedUses_cons] using hnext
    · rcases mem_append.mp hc with hfirst | hlater
      · exact hadmissible c hfirst
      · rw [commitStep_eq] at hlater
        exact hrest c hlater

end ReplayState

namespace SecureDatagramSession

inductive ReceiveCall where
  | payload (dir : Direction) (packet : ZCPacket) (nowMs : Nat)
  | batch (dir : Direction) (packets : List ZCPacket) (nowMs : Nat)

namespace ReceiveCall

def dir : ReceiveCall → Direction
  | payload dir _ _ => dir
  | batch dir _ _ => dir

def packets : ReceiveCall → List ZCPacket
  | payload _ packet _ => [packet]
  | batch _ packets _ => packets

def nowMs : ReceiveCall → Nat
  | payload _ _ nowMs => nowMs
  | batch _ _ nowMs => nowMs

end ReceiveCall

variable (crypto : Crypto)

def receive (s : SecureDatagramSession) :
    ReceiveCall → SecureDatagramSession × List ReplayCommit
  | .payload dir packet nowMs =>
    let r := s.decryptPayload crypto dir packet nowMs
    (r.session, r.commits)
  | .batch dir packets nowMs =>
    let r := s.decryptPayloadBatch crypto dir packets nowMs
    (r.session, r.commits)

variable {s : SecureDatagramSession} {call : ReceiveCall}

theorem receive_receiveStep (hflag : s.receiveSide.GraceFlagOk call.nowMs) (crypto : Crypto) :
    ReceiveStep s call.dir call.nowMs call.packets (s.receive crypto call).1
      (s.receive crypto call).2 := by
  cases call with
  | payload dir packet nowMs => exact decryptPayload_isReceiveStep hflag crypto
  | batch dir packets nowMs => exact decryptPayloadBatch_isReceiveStep hflag

theorem run_commitStep_sendEpoch {sendEpoch nowMs : Nat} {dir : Direction} {state : ReplayState}
    {order : List Opened} :
    ∀ c ∈ (run (commitStep sendEpoch dir nowMs) state order).2, c.2.sendEpoch = sendEpoch := by
  induction order generalizing state with
  | nil => simp
  | cons packet order ih =>
    rw [run_cons, commitStep]
    simpa using ih

/-- The state of a session that has not seen a SYNC. -/
structure Unsynced (initialEpoch : Nat) (s : SecureDatagramSession) (commits : List ReplayCommit) :
    Prop where
  grace : s.syncRxGrace = none
  sendEpoch : s.sendEpoch = initialEpoch
  consistent : ReplayState.Consistent ⟨s.rxSlots, none⟩ (acceptedUses commits)
  bounded : ReplayState.Bounded ⟨s.rxSlots, none⟩ (acceptedUses commits)
  admissible : ∀ c ∈ commits, c.Admissible ∧ c.sendEpoch = initialEpoch

theorem replayStateAt_of_none (hnone : s.syncRxGrace = none)
    (nowMs : Nat) : s.receiveSide.replayStateAt nowMs = ⟨s.rxSlots, none⟩ := by
  refine ReceiveSide.replayStateAt_eq rfl ?_
  show SyncRxGrace.maybeExpire s.syncRxGrace nowMs = none
  rw [hnone]
  rfl

variable (rootKey : ByteString.Bytes) (sessionGeneration initialEpoch : Nat)
  (sendAlgorithm recvAlgorithm : String) (nowMs : Nat)

theorem unsynced_new :
    Unsynced initialEpoch
      (new rootKey sessionGeneration initialEpoch sendAlgorithm recvAlgorithm nowMs) [] where
  grace := rfl
  sendEpoch := rfl
  consistent := by
    refine ⟨nodup_nil, fun dir => ⟨⟨fun _ => rfl, ?_⟩, ⟨?_, ?_, ?_⟩, ?_, ?_⟩⟩ <;>
      simp [new, EpochRxSlots.default]
  bounded := by
    refine ⟨rfl, fun dir => ⟨fun _ => rfl, ?_⟩, ?_⟩ <;>
      simp [new, EpochRxSlots.default, acceptedUses]
  admissible := by simp

variable {commits : List ReplayCommit} {initialEpoch}

theorem Unsynced.receive (hunsynced : Unsynced initialEpoch s commits) (crypto : Crypto)
    (call : ReceiveCall) :
    Unsynced initialEpoch (s.receive crypto call).1 (commits ++ (s.receive crypto call).2) := by
  have hflag : s.receiveSide.GraceFlagOk call.nowMs := by
    intro grace hgrace
    exact absurd (hunsynced.grace.symm.trans hgrace) (by simp)
  obtain ⟨hsend, -, hstored, order, hsorted, hadmitted, hcommits, hstate⟩ :=
    receive_receiveStep hflag crypto
  have hat := replayStateAt_of_none hunsynced.grace call.nowMs
  have hgrace := hstored hunsynced.grace
  rw [replayStateAt_of_none hgrace, hat] at hstate
  rw [hat] at hcommits
  have hnew : ∀ packet ∈ order, ReplayState.OpensNewEpoch ⟨s.rxSlots, none⟩
      (acceptedUses commits) call.dir packet.epoch := by
    intro packet hpacket
    have hallowed := (hadmitted packet hpacket).2
    rw [hat] at hallowed
    rintro hfree used hused ⟨hdir, hepoch⟩
    obtain ⟨slot, hslot, hle⟩ := hunsynced.bounded.le used hused
    rw [hdir] at hslot
    have := ReplayState.lt_of_precheck hfree hallowed slot hslot
    omega
  have hconsistent := hunsynced.consistent.commitLoop hsorted hnew s.sendEpoch call.nowMs
  obtain ⟨hbounded, hadmissible⟩ :=
    hunsynced.bounded.commitLoop call.dir s.sendEpoch call.nowMs order
  rw [← hstate, ← hcommits, ← acceptedUses_append] at hconsistent hbounded
  refine ⟨hgrace, (congrArg SendSide.sendEpoch hsend).trans hunsynced.sendEpoch, hconsistent,
    hbounded, fun c hc => ?_⟩
  rcases mem_append.mp hc with hold | hnew
  · exact hunsynced.admissible c hold
  · rw [hcommits] at hnew
    obtain ⟨indexed, hindexed, rfl⟩ := mem_map.mp hnew
    exact ⟨hadmissible indexed hindexed,
      (run_commitStep_sendEpoch indexed hindexed).trans hunsynced.sendEpoch⟩

variable (initialEpoch)

/-- Between SYNCs no packet is accepted twice, and every commit stays within the
two slots or at most three epochs ahead. -/
theorem replay_safe_between_syncs (calls : List ReceiveCall) :
    let commits := (Trace.run (receive crypto)
      (new rootKey sessionGeneration initialEpoch sendAlgorithm recvAlgorithm nowMs) calls).2
    (acceptedUses commits).Nodup ∧
      ∀ c ∈ commits, c.Admissible ∧ c.sendEpoch = initialEpoch := by
  have hrun : Unsynced initialEpoch _ ([] ++ (run (receive crypto) _ calls).2) :=
    run_preserves (fun _ _ call hs => hs.receive crypto call) (unsynced_new rootKey
      sessionGeneration initialEpoch sendAlgorithm recvAlgorithm nowMs)
  exact ⟨hrun.consistent.nodup, hrun.admissible⟩

/-! ## Runs with SYNCs -/

/-- A call on a session.  A SYNC keeps the root key and the receive epochs, as
`commit_reserved_sync` asks for; it reads the clock twice. -/
inductive Call where
  | receive (call : ReceiveCall)
  | encrypt (dir : Direction) (packet : ZCPacket) (nowMs : Nat)
  | encryptBatch (dir : Direction) (packets : List ZCPacket) (nowMs : Nat)
  | sync (sessionGeneration initialEpoch startedMs graceMs : Nat)

def Call.readings : Call → List Nat
  | .receive call => [call.nowMs]
  | .encrypt _ _ nowMs => [nowMs]
  | .encryptBatch _ _ nowMs => [nowMs]
  | .sync _ _ startedMs graceMs => [startedMs, graceMs]

structure Clocked where
  session : SecureDatagramSession
  clockMs : Nat

variable (state : Clocked)

def callStep (call : Call) : Clocked × List ReplayCommit :=
  let clockMs := call.readings.getLastD state.clockMs
  match call with
  | .receive call =>
    let (session, commits) := state.session.receive crypto call
    (⟨session, clockMs⟩, commits)
  | .encrypt dir packet nowMs =>
    (⟨(state.session.encryptPayload crypto dir packet nowMs).session, clockMs⟩, [])
  | .encryptBatch dir packets nowMs =>
    (⟨(state.session.encryptPayloadBatch crypto dir packets nowMs).session, clockMs⟩, [])
  | .sync sessionGeneration initialEpoch startedMs graceMs =>
    (⟨state.session.syncRootKey state.session.rootKey sessionGeneration initialEpoch true
      startedMs graceMs, clockMs⟩, [])

def ClockOk (_ : List ReplayCommit) (call : Call) : Prop :=
  (state.clockMs :: call.readings).Pairwise (· ≤ ·)

/-- No packet of the call can open a replay window in an epoch that already
accepted a packet: if its epoch has no receive slot and no live grace slot in the
direction, and it passes the replay check, then the direction has no accepted
packet of that epoch. -/
def NoReopen (commits : List ReplayCommit) : Call → Prop
  | .receive call =>
    ∀ packet ∈ call.packets, ∀ nonce, readNonce packet = .ok nonce →
      let replay := state.session.receiveSide.replayStateAt call.nowMs
      replay.tracksEpoch call.dir nonce.epoch = false →
      replay.precheck state.session.sendEpoch nonce.epoch nonce.seq call.dir = true →
      ∀ used ∈ acceptedUses commits, ¬(used.direction = call.dir ∧ used.epoch = nonce.epoch)
  | _ => True

/-- The invariant of a run: the replay state at the last clock reading knows what
was accepted. -/
structure Tracked (state : Clocked) (commits : List ReplayCommit) : Prop where
  flag : state.session.receiveSide.GraceFlagOk state.clockMs
  consistent : (state.session.receiveSide.replayStateAt state.clockMs).Consistent
    (acceptedUses commits)

theorem replayStateAt_consistent_mono {r : ReceiveSide} {clockMs nowMs : Nat}
    {history : List NonceUse} (hle : clockMs ≤ nowMs)
    (hconsistent : (r.replayStateAt clockMs).Consistent history) :
    (r.replayStateAt nowMs).Consistent history := by
  have hgrace : ∀ grace ∈ (r.replayStateAt nowMs).grace,
      grace ∈ (r.replayStateAt clockMs).grace := by
    intro grace hmem
    obtain ⟨hstored, hlive⟩ := maybeExpire_eq_some_iff.mp hmem
    exact maybeExpire_eq_some_iff.mpr ⟨hstored, by omega⟩
  refine ⟨hconsistent.nodup, fun dir => ?_⟩
  obtain ⟨hordered, hrx, htracks, hdisjoint⟩ := hconsistent.coherent dir
  exact ⟨hordered, hrx, fun grace hmem => htracks grace (hgrace grace hmem),
    fun grace hmem => hdisjoint grace (hgrace grace hmem)⟩

variable {state : Clocked}

theorem Tracked.of_receiveSide (htracked : Tracked state commits) {nowMs : Nat}
    (hside : s.receiveSide = state.session.receiveSide) (hle : state.clockMs ≤ nowMs) :
    Tracked ⟨s, nowMs⟩ commits := by
  refine ⟨?_, ?_⟩
  · rw [hside]
    exact htracked.flag.mono hle
  · rw [hside]
    exact replayStateAt_consistent_mono hle htracked.consistent

theorem Tracked.receive (htracked : Tracked state commits) (crypto : Crypto)
    (hle : state.clockMs ≤ call.nowMs) (hreopen : NoReopen state commits (.receive call)) :
    Tracked ⟨(state.session.receive crypto call).1, call.nowMs⟩
      (commits ++ (state.session.receive crypto call).2) := by
  have hconsistent := replayStateAt_consistent_mono hle htracked.consistent
  obtain ⟨-, hflag, -, order, hsorted, hadmitted, hcommits, hstate⟩ :=
    receive_receiveStep (htracked.flag.mono hle) crypto
  have hnew : ∀ packet ∈ order, (state.session.receiveSide.replayStateAt call.nowMs).OpensNewEpoch
        (acceptedUses commits) call.dir packet.epoch := by
    intro packet hpacket hfree
    obtain ⟨⟨sealed, hsealed, nonce, hread, hepoch, hseq⟩, hallowed⟩ := hadmitted packet hpacket
    have hclosed := hreopen sealed hsealed nonce hread
    rw [hepoch, hseq] at hclosed
    exact hclosed hfree hallowed
  have hloop := hconsistent.commitLoop hsorted hnew state.session.sendEpoch call.nowMs
  rw [← hstate, ← hcommits, ← acceptedUses_append] at hloop
  exact ⟨hflag, hloop⟩

/-! ### A SYNC -/

variable {initialEpoch}

theorem keptSlot_eq_some {slot : EpochRxSlot} (hkept : keptSlot slots initialEpoch = some slot) :
    (slots.slot0 = some slot ∨ slots.slot1 = some slot) ∧ slot.epoch = initialEpoch := by
  rw [keptSlot, orElse_eq_orElse, orElse_eq_or, or_eq_some_iff] at hkept
  rcases hkept with hslot0 | ⟨-, hslot1⟩
  · simp only [filter_eq_some_iff, beq_iff_eq] at hslot0
    exact ⟨.inl hslot0.1, hslot0.2⟩
  · simp only [filter_eq_some_iff, beq_iff_eq] at hslot1
    exact ⟨.inr hslot1.1, hslot1.2⟩

theorem graceSlot_eq_some {slot : Option EpochRxSlot} {kept : EpochRxSlot}
    (hgrace : graceSlot initialEpoch slot = some kept) :
    slot = some kept ∧ kept.epoch ≠ initialEpoch := by
  simpa [graceSlot, filter_eq_some_iff] using hgrace

/-- The kept slot and the grace copy share out the tracked slots: the one has the
target epoch, the other the rest. -/
theorem coherent_sync {seen : Set (Nat × Nat)} (htracks : slots.Tracks seen)
    (initialEpoch : Nat) {state : ReplayState} {dir : Direction}
    (hrx : state.rx dir = ⟨keptSlot slots initialEpoch, none⟩)
    (hgrace : ∀ grace ∈ state.grace, grace.slots dir =
      ⟨graceSlot initialEpoch slots.slot0, graceSlot initialEpoch slots.slot1⟩) :
    state.Coherent dir seen := by
  refine ⟨?_, ?_, fun grace hmem => ?_, fun grace hmem epoch hholds => ?_⟩
  · rw [hrx]
    exact ⟨fun _ => rfl, fun _ _ previous hprevious => absurd hprevious (by simp)⟩
  · rw [hrx]
    refine ⟨fun slot hslot => ?_, fun _ hslot => absurd hslot (by simp),
      fun _ _ _ hprevious => absurd hprevious (by simp)⟩
    rcases (keptSlot_eq_some hslot).1 with hslot0 | hslot1
    · exact htracks.slot0 slot hslot0
    · exact htracks.slot1 slot hslot1
  · rw [hgrace grace hmem]
    exact ⟨fun slot hslot => htracks.slot0 slot (graceSlot_eq_some hslot).1,
      fun slot hslot => htracks.slot1 slot (graceSlot_eq_some hslot).1,
      fun current hcurrent previous hprevious => htracks.distinct current
        (graceSlot_eq_some hcurrent).1 previous (graceSlot_eq_some hprevious).1⟩
  · have hne : epoch ≠ initialEpoch := by
      rw [hgrace grace hmem, holds_iff] at hholds
      rcases hholds with ⟨slot, hslot, rfl⟩ | ⟨slot, hslot, rfl⟩ <;>
        exact (graceSlot_eq_some hslot).2
    rw [hrx, Bool.eq_false_iff, ne_eq, holds_iff]
    rintro (⟨slot, hslot, rfl⟩ | ⟨slot, hslot, -⟩)
    · exact hne (keptSlot_eq_some hslot).2
    · simp at hslot

theorem Tracked.sync
    (htracked : Tracked state commits) (sessionGeneration initialEpoch startedMs graceMs : Nat) :
    Tracked ⟨state.session.syncRootKey state.session.rootKey sessionGeneration initialEpoch true
      startedMs graceMs, graceMs⟩ commits := by
  have hpreserve : (true && state.session.rootKey == state.session.rootKey) = true := by simp
  refine ⟨?_, htracked.consistent.nodup, fun dir => ?_⟩
  · rintro grace hgrace -
    simp only [receiveSide, syncRootKey, hpreserve, if_true, mem_def, some.injEq] at hgrace ⊢
    rw [← hgrace]
  · refine coherent_sync (htracked.consistent.coherent dir).rx initialEpoch ?_
      fun grace hgrace => ?_
    · simp only [receiveSide, ReceiveSide.replayStateAt, syncRootKey, hpreserve, if_true]
    · obtain ⟨hstored, -⟩ := maybeExpire_eq_some_iff.mp hgrace
      simp only [receiveSide, syncRootKey, hpreserve, if_true, some.injEq] at hstored
      rw [← hstored]
      rfl

/-! Sending leaves the receive side as it is. -/

section

variable (s : SecureDatagramSession) (crypto : Crypto) (dir : Direction) (nowMs : Nat)

theorem receiveSide_reserveNonceRange (packetCount : Nat) :
    (s.reserveNonceRange dir packetCount nowMs).2.receiveSide = s.receiveSide := by
  unfold reserveNonceRange maybeRotateEpoch rotateEpoch reserveSequence
  dsimp only
  split_ifs <;> rfl

theorem receiveSide_encryptPayload (packet : ZCPacket) :
    (s.encryptPayload crypto dir packet nowMs).session.receiveSide = s.receiveSide := by
  have hreserved := s.receiveSide_reserveNonceRange dir nowMs 1
  unfold encryptPayload
  split
  · rfl
  split
  · next hreserve => rw [hreserve] at hreserved; exact hreserved
  next hreserve =>
  rw [hreserve] at hreserved
  split
  · exact hreserved
  dsimp only
  split <;> exact (getOrCreateEncryptor_receiveSide ..).trans hreserved

theorem receiveSide_encryptPayloadBatch (packets : List ZCPacket) :
    (s.encryptPayloadBatch crypto dir packets nowMs).session.receiveSide = s.receiveSide := by
  have hreserved := s.receiveSide_reserveNonceRange dir nowMs packets.length
  unfold encryptPayloadBatch
  split
  · rfl
  split
  · rfl
  split
  · next hreserve => rw [hreserve] at hreserved; exact hreserved
  next hreserve =>
  rw [hreserve] at hreserved
  dsimp only
  split <;> exact (getOrCreateEncryptor_receiveSide ..).trans hreserved

end

theorem Tracked.callStep (htracked : Tracked state commits) (crypto : Crypto) {call : Call}
    (hclock : ClockOk state commits call) (hreopen : NoReopen state commits call) :
    Tracked (callStep crypto state call).1 (commits ++ (callStep crypto state call).2) := by
  cases call with
  | receive call =>
    have hle : state.clockMs ≤ call.nowMs := by simpa [ClockOk, Call.readings] using hclock
    exact htracked.receive crypto hle hreopen
  | encrypt dir packet nowMs =>
    have hle : state.clockMs ≤ nowMs := by simpa [ClockOk, Call.readings] using hclock
    simp only [SecureDatagramSession.callStep, append_nil]
    exact htracked.of_receiveSide
      (receiveSide_encryptPayload state.session crypto dir nowMs packet) hle
  | encryptBatch dir packets nowMs =>
    have hle : state.clockMs ≤ nowMs := by simpa [ClockOk, Call.readings] using hclock
    simp only [SecureDatagramSession.callStep, append_nil]
    exact htracked.of_receiveSide
      (receiveSide_encryptPayloadBatch state.session crypto dir nowMs packets) hle
  | sync sessionGeneration initialEpoch startedMs graceMs =>
    simp only [SecureDatagramSession.callStep, append_nil]
    exact htracked.sync sessionGeneration initialEpoch startedMs graceMs

variable (initialEpoch)

theorem tracked_new :
    Tracked ⟨new rootKey sessionGeneration initialEpoch sendAlgorithm recvAlgorithm nowMs, nowMs⟩
      [] := by
  have hunsynced := unsynced_new rootKey sessionGeneration initialEpoch sendAlgorithm
    recvAlgorithm nowMs
  exact ⟨fun grace hgrace => absurd (hunsynced.grace.symm.trans hgrace) nofun, hunsynced.consistent⟩

/-- Across receives, sends and SYNCs that keep the root key, under a clock that does
not go back, no packet is accepted twice as long as no packet reopens an epoch. -/
theorem replay_safe_across_syncs (calls : List Call) :
    let start : Clocked :=
      ⟨new rootKey sessionGeneration initialEpoch sendAlgorithm recvAlgorithm nowMs, nowMs⟩
    Trace.Always (callStep crypto) ClockOk start [] calls →
      Trace.Always (callStep crypto) NoReopen start [] calls →
        (acceptedUses (Trace.run (callStep crypto) start calls).2).Nodup := by
  intro start hclock hreopen
  have hrun := run_invariant
    (fun _ _ _ hs (hcall : ClockOk _ _ _ ∧ NoReopen _ _ _) => hs.callStep crypto hcall.1 hcall.2)
    (tracked_new rootKey sessionGeneration initialEpoch sendAlgorithm recvAlgorithm nowMs)
    (hclock.and hreopen)
  exact hrun.consistent.nodup

def sealedPacket (epoch seq : Nat) : ZCPacket :=
  .newFromBuf
    (({ fromPeerId := 1, toPeerId := 2, packetType := 1, flags := PeerManagerHeader.ENCRYPTED,
        forwardCounter := 1, reserved := 0, len := 0 } : PeerManagerHeader).asBytes ++
      replicate TAG_SIZE 0 ++ ByteString.beBytes 4 epoch ++ ByteString.beBytes 8 seq)
    .dummyTunnel

instance decidableForallOk {ε α : Type} (result : Except ε α) (P : α → Prop) [DecidablePred P] :
    Decidable (∀ value, result = .ok value → P value) :=
  match result with
  | .error _ => .isTrue (by simp)
  | .ok value => decidable_of_iff (P value) (by simp)

instance decidableNoReopen (state : Clocked) (commits : List ReplayCommit) (call : Call) :
    Decidable (NoReopen state commits call) :=
  match call with
  | .receive call => by unfold NoReopen; infer_instance
  | .encrypt .. | .encryptBatch .. | .sync .. => .isTrue trivial

instance decidableClockOk (state : Clocked) (commits : List ReplayCommit) (call : Call) :
    Decidable (ClockOk state commits call) :=
  inferInstanceAs (Decidable (List.Pairwise _ _))

/-- Within the grace period a SYNC keeps what the old epoch accepted: the third
packet is a replay and is refused, the fourth is new. -/
theorem replay_safe_across_syncs_in_grace : let calls := [
      Call.receive (.payload .aToB (sealedPacket 0 0) 1000),
      .sync 1 1 1500 1500,
      .receive (.payload .aToB (sealedPacket 0 0) 2000),
      .receive (.batch .aToB [sealedPacket 0 1, sealedPacket 1 0] 2500)]
    let commits := (Trace.run (callStep Crypto.passThrough)
      ⟨new (List.replicate 32 0) 1 0 "aes-256-gcm" "aes-256-gcm" 0, 0⟩ calls).2
    acceptedUses commits = [⟨.aToB, 0, 0⟩, ⟨.aToB, 0, 1⟩, ⟨.aToB, 1, 0⟩] ∧
      (acceptedUses commits).Nodup :=
  ⟨by decide +kernel, replay_safe_across_syncs Crypto.passThrough _ _ _ _ _ _ _ (by decide +kernel)
    (by decide +kernel)⟩

/-- After the grace period the first slot is empty again, and the packet from before
the SYNC opens a new window for its epoch. -/
theorem replay_accepted_after_grace : let calls := [
      Call.receive (.payload .aToB (sealedPacket 0 0) 1000),
      .sync 1 1 1000 1000,
      .receive (.payload .aToB (sealedPacket 0 0) 7000)]
    let start : Clocked := ⟨new (List.replicate 32 0) 1 0 "aes-256-gcm" "aes-256-gcm" 0, 0⟩
    Trace.Always (callStep Crypto.passThrough) ClockOk start [] calls ∧
      acceptedUses (Trace.run (callStep Crypto.passThrough) start calls).2 =
        [⟨.aToB, 0, 0⟩, ⟨.aToB, 0, 0⟩] := by
  decide +kernel

end SecureDatagramSession

end LowerTier.Peers
