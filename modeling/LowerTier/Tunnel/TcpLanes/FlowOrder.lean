import LowerTier.ProofSupport.Demux
import LowerTier.ProofSupport.PartialRun
import LowerTier.Tunnel.TcpLanes.Writer

/-!
# Loss and order on the TCP lanes

The lane writer refines a demultiplexer: what a lane has been handed, followed by what is
still pending for it, is the part of the accepted packets that is routed to the lane.  A
flow keeps its lane, so its packets stay in order whatever the sinks answer.
-/

namespace LowerTier.Tunnel.TcpLanes

open Progress ZCPacket Lane List ProofSupport ProofSupport.ByteString
open ProofSupport.Demux

/-! ## Lane loops -/

namespace Lane

def packets (lane : Lane) : List ZCPacket := lane.sent ++ lane.pending.packets

def Drained (lane : Lane) : Prop := lane.pending.isEmpty = true

def ClosedDrained (lane : Lane) : Prop := lane.closed = true → lane.Drained

end Lane

def LaneAnswers.NoError (answers : LaneAnswers) : Prop :=
  answers.pollReady ≠ .error ∧ answers.startSend = true ∧ answers.pollFlush ≠ .error ∧
    answers.siblingFlush ≠ .error ∧ answers.pollClose ≠ .error

theorem PacketBatch.isEmpty_iff (batch : PacketBatch) :
    batch.isEmpty = true ↔ batch.packets = [] := by
  rw [isEmpty, List.isEmpty_iff]

theorem Progress.ofPoll_ne_failed {poll : Poll} (hpoll : poll ≠ .error) :
    ofPoll poll ≠ .failed := by
  cases poll with
  | ready => decide
  | pending => decide
  | error => exact absurd rfl hpoll

theorem Progress.and_ne_failed {first second : Progress} (hfirst : first ≠ .failed)
    (hsecond : second ≠ .failed) : first.and second ≠ .failed := by
  revert hfirst hsecond
  cases first <;> cases second <;> decide

theorem Progress.and_eq_passed {first second : Progress} (h : first.and second = .passed) :
    first = .passed ∧ second = .passed := by
  revert h
  cases first <;> cases second <;> decide

/-- A loop body that does not fail, keeps the packets of a lane and closes only what is
drained. -/
structure KeepsPackets (visit : LaneAnswers → Lane → Lane × Progress) (I : Lane → Prop) :
    Prop where
  not_failed : ∀ answers lane, answers.NoError → (visit answers lane).2 ≠ .failed
  packets_eq : ∀ answers lane, answers.NoError → (visit answers lane).1.packets = lane.packets
  invariant : ∀ answers lane, I lane → I (visit answers lane).1

variable (flush : Bool)

theorem Lane.poll_fst (answers : LaneAnswers) (lane : Lane) (hsend : answers.startSend = true) :
    (lane.poll flush answers).1 = lane ∨
      (lane.poll flush answers).1 =
        { lane with pending := .empty, sent := lane.sent ++ lane.pending.packets } := by
  unfold poll
  cases answers.pollReady <;> grind

theorem keepsPackets_poll : KeepsPackets (poll flush) Lane.ClosedDrained where
  not_failed := by
    intro answers lane ⟨hready, hsend, hflush, _, _⟩
    have hflushed := ofPoll_ne_failed hflush
    unfold poll
    cases hpoll : answers.pollReady with
    | ready => grind
    | pending => grind
    | error => exact absurd hpoll hready
  packets_eq := by
    intro answers lane hanswers
    rcases poll_fst flush answers lane hanswers.2.1 with hkept | hsent
    · rw [hkept]
    · rw [hsent]
      simp [packets, PacketBatch.empty]
  invariant := by
    intro answers lane hlane
    unfold poll
    cases answers.pollReady <;> grind [Lane.ClosedDrained, Lane.Drained]

variable {lane : Lane}

/-- A lane that does not block a poll has nothing pending. -/
theorem Lane.poll_passed {flush : Bool} {answers : LaneAnswers} (hlane : lane.ClosedDrained)
    (hpassed : (lane.poll flush answers).2 = .passed) : (lane.poll flush answers).1.Drained := by
  unfold poll at hpassed ⊢
  cases hpoll : answers.pollReady <;> rw [hpoll] at hpassed
  · grind [Lane.ClosedDrained, Lane.Drained, PacketBatch.isEmpty, PacketBatch.empty]
  · grind [Lane.ClosedDrained, Lane.Drained]
  · grind [Lane.ClosedDrained, Lane.Drained]

theorem keepsPackets_pollSibling : KeepsPackets pollSibling fun _ => True where
  not_failed := by
    intro answers lane ⟨_, _, _, hsibling, _⟩
    unfold pollSibling
    cases hpoll : answers.siblingFlush <;> grind
  packets_eq := by
    intro answers lane _
    unfold pollSibling
    cases answers.siblingFlush <;> grind
  invariant := fun _ _ _ => trivial

theorem keepsPackets_pollClose : KeepsPackets pollClose Lane.Drained where
  not_failed := by
    intro answers lane ⟨_, _, _, _, hclose⟩
    unfold pollClose
    cases hpoll : answers.pollClose <;> grind
  packets_eq := by
    intro answers lane _
    unfold pollClose
    cases answers.pollClose <;> grind [packets]
  invariant := by
    intro answers lane hlane
    unfold pollClose
    cases answers.pollClose <;> grind [Lane.Drained]

section EachLane

variable {visit : LaneAnswers → Lane → Lane × Progress} {I : Lane → Prop}
  {answers : Nat → LaneAnswers} {index : Nat} {lanes : List Lane}

theorem eachLane_cons (hvisit : (visit (answers index) lane).2 ≠ .failed) :
    eachLane visit answers index (lane :: lanes) =
      ((visit (answers index) lane).1 :: (eachLane visit answers (index + 1) lanes).1,
        (visit (answers index) lane).2.and (eachLane visit answers (index + 1) lanes).2) :=
  if_neg hvisit

theorem KeepsPackets.eachLane (hvisit : KeepsPackets visit I)
    (hanswers : ∀ index, (answers index).NoError) (index : Nat) (hlanes : ∀ lane ∈ lanes, I lane) :
    (eachLane visit answers index lanes).2 ≠ .failed ∧
      (eachLane visit answers index lanes).1.map packets = lanes.map packets ∧
      ∀ lane ∈ (eachLane visit answers index lanes).1, I lane := by
  induction lanes generalizing index with
  | nil => exact ⟨noConfusion, rfl, hlanes⟩
  | cons lane lanes ih =>
    obtain ⟨hfirst, hothers⟩ := forall_mem_cons.mp hlanes
    have hlane := hvisit.not_failed (answers index) lane (hanswers index)
    obtain ⟨hok, hpackets, hrest⟩ := ih (index + 1) hothers
    rw [eachLane_cons hlane, map_cons, map_cons, hpackets, hvisit.packets_eq _ _ (hanswers index)]
    exact ⟨and_ne_failed hlane hok, rfl, forall_mem_cons.mpr ⟨hvisit.invariant _ _ hfirst, hrest⟩⟩

theorem eachLane_passed {J : Lane → Prop}
    (hvisit : ∀ answers lane, I lane → (visit answers lane).2 = .passed → J (visit answers lane).1)
    (hlanes : ∀ lane ∈ lanes, I lane) (hpassed : (eachLane visit answers index lanes).2 = .passed) :
    ∀ lane ∈ (eachLane visit answers index lanes).1, J lane := by
  induction lanes generalizing index with
  | nil => exact fun lane hlane => absurd hlane not_mem_nil
  | cons lane lanes ih =>
    by_cases hfailed : (visit (answers index) lane).2 = .failed
    · rw [eachLane] at hpassed
      simp [hfailed] at hpassed
    rw [eachLane_cons hfailed] at hpassed ⊢
    obtain ⟨hfirst, hrest⟩ := and_eq_passed hpassed
    intro visited hvisited
    rcases mem_cons.mp hvisited with rfl | hmem
    · exact hvisit _ _ (hlanes lane (by simp)) hfirst
    · exact ih (fun other hother => hlanes other (by simp [hother])) hrest visited hmem

end EachLane

/-! ## Lane choice -/

theorem overflowLane_lt (hash : UInt64) {lanes : Nat} (hlanes : 0 < lanes) :
    overflowLane hash lanes < lanes := by
  have hmask : overflowLane hash lanes ≤ lanes - 1 := Nat.and_le_right
  omega

namespace LaneWriter

variable {classify : Bytes → UInt8 → UInt64} {writer : LaneWriter}

/-- The lane to which a flow is bound: its entry in the table, and once the table is full the
fixed lane of a flow without entry. -/
def assignedLane (writer : LaneWriter) (key : UInt64) : Option Nat :=
  match writer.flowLanes.lookup key with
  | some lane => some lane
  | none =>
    if writer.flowLanes.size = MAX_TRACKED_FLOWS then
      some (overflowLane key writer.lanes.length)
    else
      none

/-- The lane numbers that the writer stores are lanes of the group. -/
structure LanesInRange (writer : LaneWriter) : Prop where
  table_lt : ∀ key lane, writer.flowLanes.lookup key = some lane → lane < writer.lanes.length
  next_lt : writer.nextLane < writer.lanes.length

structure LaneChoice (classify : Bytes → UInt8 → UInt64) (writer : LaneWriter)
    (packet : ZCPacket) (index : Nat) (writer' : LaneWriter) : Prop where
  inRange : writer'.LanesInRange
  index_lt : index < writer.lanes.length
  assigned : ∀ key, flowKey classify packet = some key → writer'.assignedLane key = some index
  kept : ∀ key lane, writer.assignedLane key = some lane → writer'.assignedLane key = some lane
  lanes_eq : writer'.lanes = writer.lanes
  routes_eq : writer'.routes = writer.routes
  accepted_eq : writer'.accepted = writer.accepted

theorem LanesInRange.insert {key : UInt64} (hrange : writer.LanesInRange) :
    LanesInRange { writer with
      flowLanes := writer.flowLanes.insert key writer.nextLane
      nextLane := (writer.nextLane + 1) &&& (writer.lanes.length - 1) } where
  table_lt := KeyedMap.forall_lookup_insert hrange.table_lt hrange.next_lt
  next_lt := by
    have hnext := hrange.next_lt
    have hmask : (writer.nextLane + 1) &&& (writer.lanes.length - 1) ≤ writer.lanes.length - 1 :=
      Nat.and_le_right
    dsimp only
    omega

/-- A new entry binds a flow that had no lane, so no flow changes its lane. -/
theorem packetLane_spec (hrange : writer.LanesInRange) (packet : ZCPacket) :
    LaneChoice classify writer packet (writer.packetLane classify packet).1
      (writer.packetLane classify packet).2 := by
  have hpositive : 0 < writer.lanes.length := Nat.zero_lt_of_lt hrange.next_lt
  unfold packetLane
  cases hkey : flowKey classify packet with
  | none =>
    exact ⟨hrange, hpositive, by simp [hkey], fun _ _ h => h, rfl, rfl, rfl⟩
  | some hash =>
    dsimp only
    cases hlookup : writer.flowLanes.lookup hash with
    | some lane =>
      refine ⟨hrange, hrange.table_lt hash lane hlookup, ?_, fun _ _ h => h, rfl, rfl, rfl⟩
      intro key hflow
      obtain rfl := Option.some.inj (hkey.symm.trans hflow)
      simp [assignedLane, hlookup]
    | none =>
      by_cases hfull : writer.flowLanes.size = MAX_TRACKED_FLOWS
      · simp only [hfull, if_true]
        refine ⟨hrange, overflowLane_lt hash hpositive, ?_, fun _ _ h => h, rfl, rfl, rfl⟩
        intro key hflow
        obtain rfl := Option.some.inj (hkey.symm.trans hflow)
        simp [assignedLane, hlookup, hfull]
      · simp only [hfull, if_false]
        refine ⟨hrange.insert, hrange.next_lt, ?_, ?_, rfl, rfl, rfl⟩
        · intro key hflow
          obtain rfl := Option.some.inj (hkey.symm.trans hflow)
          simp [assignedLane]
        · intro key lane hassigned
          unfold assignedLane at hassigned ⊢
          cases hfound : writer.flowLanes.lookup key with
          | none =>
            rw [hfound] at hassigned
            simp [hfull] at hassigned
          | some found =>
            have hne : key ≠ hash := by
              rintro rfl
              cases hlookup.symm.trans hfound
            rw [hfound] at hassigned
            rwa [AList.lookup_insert_ne hne, hfound]

/-! ## Partitioning a batch -/

/-- The writer as a demultiplexer: every lane has its part of the routed packets, and every
flow the lane to which it is bound. -/
structure Routed (classify : Bytes → UInt8 → UInt64) (writer : LaneWriter) : Prop where
  inRange : writer.LanesInRange
  distributed : writer.lanes.map packets = distribute writer.lanes.length writer.routes
  routes_lt : ∀ route ∈ writer.routes, route.1 < writer.lanes.length
  flow_assigned : ∀ route ∈ writer.routes, ∀ key, flowKey classify route.2 = some key →
    writer.assignedLane key = some route.1

/-- All lanes are open and none has more than `bound` packets pending. -/
def OpenWithin (writer : LaneWriter) (bound : Nat) : Prop :=
  ∀ lane ∈ writer.lanes, lane.closed = false ∧ lane.pending.packets.length ≤ bound

variable (packet : ZCPacket) {batch : PacketBatch}

theorem tryPush_eq_some (hroom : batch.packets.length < MAX_PACKET_BATCH_SIZE) :
    ∃ batch', batch.tryPush packet = some batch' ∧ batch'.packets = batch.packets ++ [packet] := by
  unfold PacketBatch.tryPush
  rw [dif_neg hroom.ne]
  exact ⟨_, rfl, rfl⟩

theorem queuePacket_spec {index bound : Nat} (hindex : index < writer.lanes.length)
    (hopen : writer.OpenWithin bound) (hbound : bound < MAX_PACKET_BATCH_SIZE) :
    ∃ lanes, writer.queuePacket index packet =
        some { writer with lanes := lanes, routes := writer.routes ++ [(index, packet)] } ∧
      lanes.length = writer.lanes.length ∧
      lanes.map packets = push (writer.lanes.map packets) (index, packet) ∧
      ∀ lane ∈ lanes, lane.closed = false ∧ lane.pending.packets.length ≤ bound + 1 := by
  have hlane := hopen _ (getElem_mem hindex)
  obtain ⟨pending, hpush, hpending⟩ := tryPush_eq_some packet (hlane.2.trans_lt hbound)
  refine ⟨writer.lanes.set index { writer.lanes[index] with pending := pending }, ?_, ?_, ?_, ?_⟩
  · simp [queuePacket, getElem?_eq_getElem hindex, hpush]
  · rw [length_set]
  · rw [push, map_set, modify_eq_set_getElem?]
    simp [getElem?_eq_getElem hindex, packets, hpending]
  · intro lane hmem
    rcases mem_or_eq_of_mem_set hmem with hold | rfl
    · exact ⟨(hopen lane hold).1, (hopen lane hold).2.trans (Nat.le_succ bound)⟩
    · refine ⟨hlane.1, ?_⟩
      rw [hpending, length_append, length_singleton]
      exact Nat.succ_le_succ hlane.2

theorem Routed.partitionPacket {bound : Nat} (hrouted : writer.Routed classify)
    (hopen : writer.OpenWithin bound) (hbound : bound < MAX_PACKET_BATCH_SIZE) (packet : ZCPacket) :
    ∃ writer', writer.partitionPacket classify packet = some writer' ∧
      writer'.Routed classify ∧ writer'.OpenWithin (bound + 1) ∧
      writer'.routes.map Prod.snd = writer.routes.map Prod.snd ++ [packet] ∧
      writer'.accepted = writer.accepted := by
  have hchoice : LaneChoice classify writer packet (writer.packetLane classify packet).1
      (writer.packetLane classify packet).2 := packetLane_spec hrouted.inRange packet
  unfold LaneWriter.partitionPacket
  generalize writer.packetLane classify packet = placed at hchoice
  obtain ⟨index, chosen⟩ := placed
  dsimp only at hchoice
  obtain ⟨hrange, hindex, hassigned, hkept, hlanes, hroutes, haccepted⟩ := hchoice
  have hchosen : chosen.OpenWithin bound := by
    unfold OpenWithin
    rw [hlanes]
    exact hopen
  obtain ⟨lanes, hqueue, hlength, hpackets, hwithin⟩ :=
    queuePacket_spec packet (hlanes ▸ hindex) hchosen hbound
  have hsize : lanes.length = writer.lanes.length := by rw [hlength, hlanes]
  refine ⟨_, hqueue, ⟨⟨?_, ?_⟩, ?_, ?_, ?_⟩, hwithin, ?_, haccepted⟩
  · intro key lane hlookup
    exact lt_of_lt_of_eq (hrange.table_lt key lane hlookup) hlength.symm
  · exact lt_of_lt_of_eq hrange.next_lt hlength.symm
  · rw [hpackets, hlanes, hrouted.distributed, hsize, hroutes, distribute_concat]
  · intro route hroute
    rw [hroutes] at hroute
    rw [hsize]
    rcases mem_append.mp hroute with hold | hnew
    · exact hrouted.routes_lt route hold
    · rw [mem_singleton.mp hnew]
      exact hindex
  · intro route hroute key hkey
    have hassignedLane : ∀ key, assignedLane { chosen with
        lanes := lanes, routes := chosen.routes ++ [(index, packet)] } key =
        chosen.assignedLane key := by
      intro key
      simp only [assignedLane, hlength]
    rw [hassignedLane]
    rw [hroutes] at hroute
    rcases mem_append.mp hroute with hold | hnew
    · exact hkept key route.1 (hrouted.flow_assigned route hold key hkey)
    · obtain rfl := mem_singleton.mp hnew
      exact hassigned key hkey
  · simp [hroutes]

/-- The parts of a batch fit the lanes, so a batch is always partitioned as a whole. -/
theorem Routed.partition {bound : Nat} (batch : List ZCPacket) (hrouted : writer.Routed classify)
    (hopen : writer.OpenWithin bound) (hbound : bound + batch.length ≤ MAX_PACKET_BATCH_SIZE) :
    ∃ writer', writer.partition classify batch = some writer' ∧
      writer'.Routed classify ∧ (∀ lane ∈ writer'.lanes, lane.closed = false) ∧
      writer'.routes.map Prod.snd = writer.routes.map Prod.snd ++ batch ∧
      writer'.accepted = writer.accepted := by
  induction batch generalizing writer bound with
  | nil => exact ⟨writer, rfl, hrouted, fun lane hlane => (hopen lane hlane).1, by simp, rfl⟩
  | cons packet batch ih =>
    rw [length_cons] at hbound
    obtain ⟨next, hstep, hnext, hwithin, hroutes, haccepted⟩ :=
      hrouted.partitionPacket hopen (by omega) packet
    obtain ⟨last, hrest, hlast, hclosed, hlastRoutes, hlastAccepted⟩ := ih hnext hwithin (by omega)
    refine ⟨last, ?_, hlast, hclosed, ?_, hlastAccepted.trans haccepted⟩
    · rw [LaneWriter.partition, foldlM_cons, hstep]
      exact hrest
    · rw [hlastRoutes, hroutes]
      simp

/-! ## Calls -/

structure Invariant (classify : Bytes → UInt8 → UInt64) (writer : LaneWriter) : Prop where
  routed : writer.Routed classify
  closedDrained : ∀ lane ∈ writer.lanes, lane.ClosedDrained
  submitted : (writer.routes.map Prod.snd).map releaseBuffer =
    writer.accepted.map releaseBuffer

theorem invariant_new {count : Nat} (hcount : 0 < count) :
    (LaneWriter.new count).Invariant classify where
  routed := {
    inRange := ⟨by simp [LaneWriter.new], by simpa [LaneWriter.new] using hcount⟩
    distributed := by simp [LaneWriter.new, Lane.packets, Lane.new, PacketBatch.empty]
    routes_lt := by simp [LaneWriter.new]
    flow_assigned := by simp [LaneWriter.new] }
  closedDrained := by simp [LaneWriter.new, Lane.ClosedDrained, Lane.new]
  submitted := rfl

theorem Invariant.withLanes {lanes : List Lane} {failed : Bool} (hinv : writer.Invariant classify)
    (hpackets : lanes.map packets = writer.lanes.map packets)
    (hclosed : ∀ lane ∈ lanes, lane.ClosedDrained) :
    Invariant classify { writer with lanes := lanes, failed := failed } := by
  have hlength : lanes.length = writer.lanes.length := by
    simpa using congrArg length hpackets
  refine ⟨⟨⟨?_, ?_⟩, ?_, ?_, ?_⟩, hclosed, hinv.submitted⟩
  · simpa only [hlength] using hinv.routed.inRange.table_lt
  · simpa only [hlength] using hinv.routed.inRange.next_lt
  · simpa only [hlength, hpackets] using hinv.routed.distributed
  · simpa only [hlength] using hinv.routed.routes_lt
  · simpa only [assignedLane, hlength] using hinv.routed.flow_assigned

theorem releaseBuffer_compactRetainedBuffer (capacity : Nat) :
    (packet.compactRetainedBuffer capacity).releaseBuffer = packet.releaseBuffer := by
  unfold compactRetainedBuffer
  split_ifs <;> rfl

/-- Packets that carry the batch, whichever buffers they are in, are all queued. -/
theorem Invariant.accept {packets : List ZCPacket}
    (hinv : writer.Invariant classify) (hopen : writer.OpenWithin 0)
    (hsame : packets.map releaseBuffer = batch.packets.map releaseBuffer) :
    ∃ writer', writer.partition classify packets = some writer' ∧
      Invariant classify { writer' with accepted := writer'.accepted ++ batch.packets } := by
  have hlength : packets.length = batch.packets.length := by
    simpa using congrArg length hsame
  have hfits : 0 + packets.length ≤ MAX_PACKET_BATCH_SIZE := by
    have hbatch := batch.fits
    omega
  obtain ⟨writer', hpartition, hrouted, hclosed, hroutes, haccepted⟩ :=
    hinv.routed.partition packets hopen hfits
  refine ⟨writer', hpartition, ?_, ?_, ?_⟩
  · exact ⟨⟨hrouted.inRange.table_lt, hrouted.inRange.next_lt⟩, hrouted.distributed,
      hrouted.routes_lt, hrouted.flow_assigned⟩
  · intro lane hlane hlaneClosed
    rw [hclosed lane hlane] at hlaneClosed
    exact absurd hlaneClosed Bool.false_ne_true
  · rw [hroutes, haccepted, map_append, map_append, hinv.submitted, hsame]

theorem Invariant.startSend (hinv : writer.Invariant classify) (batch : PacketBatch)
    (capacity : BufferCapacity) :
    ∃ outcome writer', writer.startSend classify batch capacity = some (outcome, writer') ∧
      writer'.Invariant classify := by
  unfold LaneWriter.startSend
  by_cases hshut : (writer.failed || writer.lanes.any closed) = true
  · exact ⟨.shutdown, writer, if_pos hshut, hinv⟩
  by_cases hbusy : (writer.lanes.any fun lane => !lane.pending.isEmpty) = true
  · exact ⟨.bufferFull, writer, by rw [if_neg hshut, if_pos hbusy], hinv⟩
  have hopen : writer.OpenWithin 0 := by
    intro lane hlane
    have hclosed : lane.closed = false := by grind
    have hempty : lane.pending.isEmpty = true := by grind
    rw [(PacketBatch.isEmpty_iff _).mp hempty]
    exact ⟨hclosed, Nat.le_refl 0⟩
  dsimp only
  split_ifs with hlarge hrefused
  · exact ⟨_, writer, rfl, hinv⟩
  · have hsame : (batch.packets.mapIdx fun index packet =>
        packet.compactRetainedBuffer (capacity.retained index)).map releaseBuffer =
          batch.packets.map releaseBuffer := by
      apply ext_getElem?
      simp [Function.comp_def, releaseBuffer_compactRetainedBuffer]
    obtain ⟨writer', hpartition, hnext⟩ := hinv.accept hopen hsame
    exact ⟨.ready, _, by rw [hpartition]; rfl, hnext⟩
  · obtain ⟨writer', hpartition, hnext⟩ := hinv.accept hopen (rfl : batch.packets.map _ = _)
    exact ⟨.ready, _, by rw [hpartition]; rfl, hnext⟩

structure Polled (classify : Bytes → UInt8 → UInt64) (result : Outcome × LaneWriter) : Prop where
  invariant : result.2.Invariant classify
  drained : result.1 = .ready → ∀ lane ∈ result.2.lanes, lane.Drained

theorem Polled.drained_of_ready {result : Outcome × LaneWriter} (hpolled : Polled classify result)
    (hresult : result = (.ready, writer)) : ∀ lane ∈ writer.lanes, lane.Drained := by
  subst hresult
  exact hpolled.drained rfl

section

variable (hinv : writer.Invariant classify)
include hinv

variable {answers : Nat → LaneAnswers}

theorem Invariant.pollLanes (hanswers : ∀ index, (answers index).NoError) :
    Polled classify (writer.pollLanes flush answers) := by
  obtain ⟨hok, hpackets, hclosed⟩ := (keepsPackets_poll flush).eachLane hanswers 0
    hinv.closedDrained
  unfold LaneWriter.pollLanes
  by_cases hfailed : writer.failed = true
  · rw [if_pos hfailed]
    exact ⟨hinv, fun h => by simp at h⟩
  rw [if_neg hfailed]
  dsimp only
  cases hprogress : (eachLane (poll flush) answers 0 writer.lanes).2 with
  | failed => exact absurd hprogress hok
  | passed =>
    exact ⟨hinv.withLanes hpackets hclosed, fun _ =>
      eachLane_passed (fun _ _ => poll_passed) hinv.closedDrained hprogress⟩
  | blocked =>
    rw [if_neg]
    · exact ⟨hinv.withLanes hpackets hclosed, fun h => by simp at h⟩
    · simp [(keepsPackets_pollSibling.eachLane hanswers 0 fun _ _ => trivial).1]

theorem Invariant.closeLanes
    (hdrained : ∀ lane ∈ writer.lanes, lane.Drained) (hanswers : ∀ index, (answers index).NoError) :
    Polled classify (writer.closeLanes answers) := by
  obtain ⟨hok, hpackets, hkept⟩ := keepsPackets_pollClose.eachLane hanswers 0 hdrained
  unfold LaneWriter.closeLanes
  dsimp only
  cases hprogress : (eachLane Lane.pollClose answers 0 writer.lanes).2 with
  | failed => exact absurd hprogress hok
  | passed | blocked =>
    exact ⟨hinv.withLanes hpackets fun lane hlane _ => hkept lane hlane, fun _ => hkept⟩

theorem Invariant.pollClose
    (hanswers : ∀ index, (answers index).NoError) : Polled classify (writer.pollClose answers) := by
  have hflushed := hinv.pollLanes true hanswers
  unfold LaneWriter.pollClose
  dsimp only
  split_ifs with hready
  · exact hflushed.invariant.closeLanes (hflushed.drained hready) hanswers
  · exact hflushed

end

def Call.NoLaneError : Call → Prop
  | .pollReady answers => ∀ index, (answers index).NoError
  | .pollFlush answers => ∀ index, (answers index).NoError
  | .pollClose answers => ∀ index, (answers index).NoError
  | _ => True

theorem Invariant.step (hinv : writer.Invariant classify) (call : Call) (hcall : call.NoLaneError) :
    ∃ outcome writer', writer.step classify call = some (outcome, writer') ∧
      writer'.Invariant classify := by
  cases call with
  | startSend batch capacity => exact hinv.startSend batch capacity
  | pollReady answers => exact ⟨_, _, rfl, (hinv.pollLanes false hcall).invariant⟩
  | pollFlush answers => exact ⟨_, _, rfl, (hinv.pollLanes true hcall).invariant⟩
  | pollClose answers => exact ⟨_, _, rfl, (hinv.pollClose hcall).invariant⟩
  | fail => exact ⟨_, _, rfl, hinv.withLanes rfl hinv.closedDrained⟩

/-! ## Whole runs -/

/-- The writer has lost, doubled and reordered nothing.  Packets are compared without the
pool from which their buffer came, which compaction gives up. -/
structure LossFree (classify : Bytes → UInt8 → UInt64) (writer : LaneWriter) : Prop where
  /-- What the lanes have and what was accepted are the same packets, each once. -/
  eachOnce : ((writer.lanes.flatMap packets).map releaseBuffer).Perm
    (writer.accepted.map releaseBuffer)
  /-- A lane gets its packets in the order in which they were accepted. -/
  inOrder : ∀ lane ∈ writer.lanes, (lane.packets.map releaseBuffer).Sublist
    (writer.accepted.map releaseBuffer)
  /-- All packets of a flow are on one lane, in order. -/
  oneLane : ∀ flow, ∃ index : Nat, ∃ lane : Lane, writer.lanes[index]? = some lane ∧
    (lane.packets.filter fun packet => flowKey classify packet = some flow).map
        releaseBuffer =
      (writer.accepted.filter fun packet => flowKey classify packet = some flow).map
        releaseBuffer ∧
    ∀ (other : Nat) (otherLane : Lane), writer.lanes[other]? = some otherLane → other ≠ index →
      ∀ packet ∈ otherLane.packets, flowKey classify packet ≠ some flow

theorem map_releaseBuffer_filter (packets : List ZCPacket) (flow : UInt64) :
    (packets.filter fun packet => flowKey classify packet = some flow).map
        releaseBuffer =
      (packets.map releaseBuffer).filter fun packet =>
        flowKey classify packet = some flow := by
  rw [filter_map]
  rfl

section

variable (hrouted : writer.Routed classify)
include hrouted

theorem Routed.lane_eq {index : Nat} (hlane : writer.lanes[index]? = some lane) :
    (distribute writer.lanes.length writer.routes)[index]? = some lane.packets := by
  rw [← hrouted.distributed, getElem?_map, hlane]
  rfl

theorem Routed.packets_sublist
    (hlane : lane ∈ writer.lanes) : lane.packets.Sublist (writer.routes.map Prod.snd) := by
  obtain ⟨index, hindex, hget⟩ := getElem_of_mem hlane
  have hqueue := hrouted.lane_eq (hget ▸ getElem?_eq_getElem hindex)
  rw [getElem?_distribute writer.routes hindex, Option.some.injEq] at hqueue
  rw [← hqueue]
  exact filter_sublist.map Prod.snd

/-- The lane of a flow has all its packets, and the other lanes have none. -/
theorem Routed.flow_lane (flow : UInt64) :
    ∃ index < writer.lanes.length, ∀ route ∈ writer.routes,
      flowKey classify route.2 = some flow → route.1 = index := by
  by_cases hseen : ∃ route ∈ writer.routes, flowKey classify route.2 = some flow
  · obtain ⟨first, hfirst, hflow⟩ := hseen
    have hassigned := hrouted.flow_assigned first hfirst flow hflow
    refine ⟨first.1, hrouted.routes_lt first hfirst, ?_⟩
    intro route hroute hkey
    have hother := hrouted.flow_assigned route hroute flow hkey
    rw [hassigned, Option.some.injEq] at hother
    exact hother.symm
  · refine ⟨0, Nat.zero_lt_of_lt hrouted.inRange.next_lt, ?_⟩
    intro route hroute hkey
    exact absurd ⟨route, hroute, hkey⟩ hseen

end

theorem Invariant.lossFree (hinv : writer.Invariant classify) : writer.LossFree classify where
  eachOnce := by
    have hperm := flatten_distribute_perm hinv.routed.routes_lt
    rw [← hinv.routed.distributed] at hperm
    rw [← hinv.submitted]
    exact hperm.map releaseBuffer
  inOrder := by
    intro lane hlane
    rw [← hinv.submitted]
    exact (hinv.routed.packets_sublist hlane).map releaseBuffer
  oneLane := by
    intro flow
    obtain ⟨index, hindex, hroutes⟩ := hinv.routed.flow_lane flow
    have hlane := getElem?_eq_getElem hindex
    refine ⟨index, writer.lanes[index], hlane, ?_, ?_⟩
    · have hqueue : (writer.lanes[index].packets.filter fun packet =>
          flowKey classify packet = some flow) = (writer.routes.map Prod.snd).filter fun packet =>
              flowKey classify packet = some flow := by
        apply filter_queue_eq (hinv.routed.lane_eq hlane)
        intro route hroute hkey
        exact hroutes route hroute (of_decide_eq_true hkey)
      rw [hqueue, map_releaseBuffer_filter, hinv.submitted, ← map_releaseBuffer_filter]
    · intro other otherLane hother hne packet hpacket hflow
      have hroute := mem_of_mem_distribute (hinv.routed.lane_eq hother) hpacket
      exact hne (hroutes _ hroute hflow)

def Call.IsPoll : Call → Prop
  | .pollReady _ | .pollFlush _ | .pollClose _ => True
  | _ => False

/-- Two packets of one flow, sent while the sink of their lane is blocked and flushed later. -/
def blockedThenFlushed : List Call :=
  let header : PeerManagerHeader := ⟨1, 2, PacketType.data.code, 0, 1, 0, 3⟩
  let packet := newFromBuf (header.asBytes ++ [7, 8, 9]) .dummyTunnel
  let answers (poll : Poll) : LaneAnswers := ⟨poll, true, poll, .pending, .pending⟩
  [.startSend ⟨[packet, packet], by decide⟩ ⟨fun _ => 32, fun _ => 32⟩,
    .pollReady fun _ => answers .pending,
    .pollFlush fun _ => answers .ready]

end LaneWriter

end LowerTier.Tunnel.TcpLanes
