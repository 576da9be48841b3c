import LowerTier.Gateway.OverlayStream.StreamInvariant

/-!
# Delivery over a lossy network

Whatever the network does to the frames, the reader gets the bytes of the remote writer from the
start and in order, a chunk is forgotten only after the other side has it in order, and the
counters of the windows say what they count.
-/

namespace LowerTier.Gateway.OverlayStream

open List ProofSupport ProofSupport.ByteString ProofSupport.ChunkStream

/-- What holds between the writer of `x` and the reader of `y`, with the frames of `x` that are
not processed yet. -/
structure Delivers (x y : Endpoint) (frames : List Frame) : Prop where
  /-- The reader got a front part of what the writer was told was accepted. -/
  handed : y.handed <+: x.accepted.flatten
  /-- What has been given out in order is the stream up to the next offset. -/
  output : y.readerDropped = false →
    y.handed ++ y.output = x.accepted.flatten.take y.session.receive.nextSequence
  /-- A chunk that was sent and is not kept has been given out in order. -/
  forgotten : ∀ n chunk, ChunkAt x.accepted n chunk →
    n + chunk.length ≤ x.session.send.nextSequence → x.session.send.get n = none →
      n + chunk.length ≤ y.session.receive.nextSequence
  /-- A chunk that is taken from the queue fits. -/
  pushed : ∀ waiting bytes queue, x.phase = .waiting waiting → waiting.writable = true →
    x.writeQueue = bytes :: queue → ∃ sequence, (x.session.send.push bytes).1 = .ok sequence
  noOverlap : ∀ frame ∈ frames, frame.kind = .data →
    (y.session.receive.insert frame.sequence frame.payload).1 ≠ .error .overlap
  sent : x.session.send.bufferedBytes = x.session.send.chunks.sumBy length
  sentFits : x.session.send.bufferedBytes ≤ STREAM_WINDOW_BYTES
  outOfOrder : y.session.receive.outOfOrderBytes = y.session.receive.outOfOrder.sumBy length
  /-- The bytes that were given out and that no processed command reported as consumed. -/
  unconsumed : y.phase.isEnded = false →
    y.session.receive.deliveredUnconsumed + y.handed.length =
      y.session.receive.nextSequence + consumedBytes y.commands
  receivedFits : y.session.receive.deliveredUnconsumed + y.session.receive.outOfOrderBytes ≤
    STREAM_WINDOW_BYTES

variable {x y : Endpoint} {frames acks : List Frame} {acked rest delivered : List Bytes}

theorem Carries.delivered_eq_take (h : Carries x y frames acks acked rest delivered) :
    delivered.flatten = x.accepted.flatten.take y.session.receive.nextSequence := by
  obtain ⟨missing, hmissing⟩ := h.receiver.follows.front
  rw [h.receiver.follows.next, h.sender.accepted, ← hmissing]
  simp

theorem SenderOk.get_of_chunkAt (h : SenderOk x acked rest) {n : Nat} {chunk : Bytes}
    (hchunk : ChunkAt x.accepted n chunk) (hsent : n + chunk.length ≤ x.session.send.nextSequence) :
    x.session.send.get n = some chunk ∨ n + chunk.length ≤ acked.flatten.length := by
  have hpos : 0 < chunk.length := length_pos_iff.mpr (h.proper chunk hchunk.mem).1
  unfold ChunkAt at hchunk
  rw [h.holds.next, flatten_append, length_append] at hsent
  rw [h.accepted, append_assoc, placed_append, placed_append, Nat.zero_add] at hchunk
  rcases mem_append.mp hchunk with hacked | hlater
  · right
    have hend := ChunkAt.end_le hacked
    exact hend
  rcases mem_append.mp hlater with hkept | hqueued
  · left
    apply OrderedMap.lookup_of_mem
    rw [h.holds.entries]
    exact hkept
  · obtain ⟨front, back, -, rfl⟩ := mem_placed_iff.mp hqueued
    omega

theorem Carries.delivers (h : Carries x y frames acks acked rest delivered) (hwaits : x.Waits)
    (hbound : x.accepted.flatten.length < 2 ^ 64) : Delivers x y frames where
  handed := by
    refine h.receiver.handed.trans ?_
    rw [h.delivered_eq_take]
    exact take_prefix _ _
  output hreader := by rw [h.receiver.output hreader, h.delivered_eq_take]
  forgotten n chunk hchunk hsent hget := by
    rcases h.sender.get_of_chunkAt hchunk hsent with hkept | hle
    · rw [hget] at hkept
      cases hkept
    · rw [h.receiver.follows.next]
      exact hle.trans h.forgotten
  pushed waiting bytes queue hphase hwritable hqueue :=
    ⟨_, (h.sender.push hwaits hbound hphase hqueue hwritable).1⟩
  noOverlap frame hframe hkind := by
    rcases h.receiver_data hbound hframe hkind with hfull | ⟨out, next, hok, -⟩
    · rw [hfull]
      exact nofun
    · rw [hok]
      exact nofun
  sent := h.sender.holds.sum
  sentFits := h.sender.holds.capacity ▸ h.sender.holds.fits
  outOfOrder := h.receiver.follows.sum
  unconsumed hrunning := by
    rw [h.receiver.consumed hrunning, h.receiver.follows.next]
  receivedFits := h.receiver.follows.capacity ▸ h.receiver.follows.fits

/-! ## Runs -/

theorem Moves.accepted_extends {e e' : Endpoint} {action : Action} {notices : List Notice}
    (h : Moves e action e' frames notices) : e.accepted <+: e'.accepted := by
  cases h with
  | accept => exact prefix_append _ _
  | _ => exact prefix_refl _

namespace System

variable {s : System} {event : Event} {events : List Event} {side : Side}

theorem act_of_notice {notice : Notice} (h : (side, notice) ∈ (s.step event).2) :
    ∃ action, event = .act side action ∧ notice ∈ ((s.endpoint side).act action).2.2 := by
  cases event with
  | act acting action =>
    obtain ⟨other, hnotice, heq⟩ := mem_map.mp h
    cases heq
    exact ⟨action, rfl, hnotice⟩
  | lose | duplicate => cases h
  | deliver acting i =>
    unfold System.step at h
    dsimp only at h
    split at h <;> cases h

theorem endpoint_act (action : Action) :
    (s.step (.act side action)).1.endpoint side = ((s.endpoint side).act action).1 :=
  Function.update_self _ _ _

theorem accepted_step : (s.endpoint side).accepted <+: ((s.step event).1.endpoint side).accepted :=
  endpoint_step (R := fun e e' => e.accepted <+: e'.accepted) (fun _ _ => prefix_refl _)
    s event fun action _ => ((s.endpoint side).moves_act action).accepted_extends

theorem accepted_run (s : System) (events : List Event) (side : Side) :
    (s.endpoint side).accepted <+: ((Trace.run step s events).1.endpoint side).accepted := by
  induction events generalizing s with
  | nil => exact prefix_refl _
  | cons event events ih => exact accepted_step.trans (ih (s.step event).1)

/-- Offsets that are 64-bit numbers at the end of a run are so all along. -/
theorem always_bounded (hbound : (Trace.run step s events).1.Bounded)
    (history : List (Side × Notice)) :
    Trace.Always step (fun s _ event => (s.step event).1.Bounded) s history events := by
  induction events generalizing s history with
  | nil => trivial
  | cons event events ih =>
    refine ⟨fun side => ?_, ih hbound _⟩
    obtain ⟨more, hmore⟩ := accepted_run (s.step event).1 events side
    refine lt_of_le_of_lt ?_ (hbound side)
    rw [Trace.run_cons]
    rw [← hmore]
    simp

/-- The stream of a side is delivered, with the frames under way and those that wait. -/
def DeliversFrom (s : System) (side : Side) : Prop :=
  Delivers (s.endpoint side) (s.endpoint side.other)
    (s.wire side ++ (s.endpoint side.other).frameQueue)

/-- In every run over any network the streams of both sides are delivered. -/
theorem streams_delivered (streamId : Nat) (openPayload : Bytes) (events : List Event)
    (hbound : (Trace.run step (start streamId openPayload) events).1.Bounded) (side : Side) :
    (Trace.run step (start streamId openPayload) events).1.DeliversFrom side := by
  have hconsistent := Trace.run_invariant (I := fun (s : System) _ => s.Consistent)
    (P := fun (s : System) _ event => (s.step event).1.Bounded) (h := [])
    (fun _ _ _ h hnext => h.step hnext) (consistent_start streamId openPayload)
    (always_bounded hbound [])
  obtain ⟨acked, rest, delivered, hcarries⟩ := hconsistent.carried side
  exact hcarries.delivers (hconsistent.waits side) (hbound side)

def turnAt (now : Nat) : Action := .turn ⟨now, now, now⟩

def timerAt (now : Nat) : Action := .fireTimer ⟨now, fun _ => now, fun _ => now, now⟩

def opening : List Event :=
  [.act .left (turnAt 0), .act .right (turnAt 0), .deliver .right 0, .act .left (.takeFrame 0)]

def written : List Event :=
  opening ++ [.act .left (.pollWrite [1, 2, 3]), .act .left (turnAt 1), .act .left (.takeWrite 1)]

def received : List Event :=
  [.deliver .left 1, .act .right (.takeFrame 2), .act .right (.handOver 2),
    .act .right (.handOver 2), .act .right (turnAt 2)]

/-- The left side writes, the frame is doubled and both copies arrive, and the right side reads. -/
def writeAndRead : List Event :=
  written ++ .duplicate .left 1 :: received ++
    [.deliver .left 1, .act .right (.takeFrame 2), .act .right (.pollRead 2)]

theorem streams_delivered_twice :
    (Trace.run step (start 7 []) writeAndRead).1.DeliversFrom .left ∧
    ((Trace.run step (start 7 []) writeAndRead).1.endpoint .right).handed = [1, 2] := by
  refine ⟨streams_delivered 7 [] writeAndRead (fun side => ?_) .left, by decide +kernel⟩
  cases side <;> decide +kernel

end System

end LowerTier.Gateway.OverlayStream
