import LowerTier.Gateway.OverlayStream.Delivery

/-!
# The end of a stream as its reader sees it

A read reports the end of the stream when the session is gone and nothing is left to read.  That
is the whole stream where every session that ends under a reader has the `Fin` of the other side.
A `Reset` frame ends it without.
-/

namespace LowerTier.Gateway.OverlayStream

open Endpoint List ProofSupport ProofSupport.ByteString ProofSupport.ChunkStream

variable {x y : Endpoint} {frames acks : List Frame} {acked rest delivered : List Bytes}

variable {y' : Endpoint} {out : List Frame} {action : Action} {notices : List Notice}

def Endpoint.readable (y : Endpoint) : List Bytes :=
  y.readCurrent.toList ++ y.readQueue ++ y.phase.rest

structure Endpoint.ReaderOk (y : Endpoint) : Prop where
  proper : ∀ chunk ∈ y.readable, chunk ≠ []
  /-- Only a stream without a reader is reset by its own side. -/
  resets : StreamCommand.reset ∈ y.commands → y.readerDropped = true
  ended : y.phase.isEnded = true → y.readerDropped = false → y.session.remoteComplete = true

/-- No `Reset` frame ends a session under a reader that waits for more. -/
def Endpoint.resetExpected (e : Endpoint) : Bool :=
  match e.phase, e.frameQueue with
  | .waiting _, frame :: _ =>
    decide (frame.kind ≠ .reset) || e.readerDropped || e.session.remoteComplete
  | _, _ => true

theorem Endpoint.ReaderOk.same (h : y.ReaderOk) (hrest : y.phase.rest = [])
    (hended : y'.phase.isEnded = true → y.readerDropped = false → y'.session.remoteComplete = true)
    (hcommands : ∀ command ∈ y'.commands, command ∈ y.commands := by exact fun _ => id)
    (hrest' : y'.phase.rest = [] := by rfl) (hcurrent : y'.readCurrent = y.readCurrent := by rfl)
    (hqueue : y'.readQueue = y.readQueue := by rfl)
    (hreader : y'.readerDropped = y.readerDropped := by rfl) : y'.ReaderOk where
  proper := by
    unfold readable
    rw [hcurrent, hqueue, hrest', ← hrest]
    exact h.proper
  resets hreset := hreader.trans (h.resets (hcommands _ hreset))
  ended he hd := hended he (hreader.symm.trans hd)

theorem Endpoint.mem_commandsWith {e : Endpoint} {command other : StreamCommand}
    (h : other ∈ e.commandsWith command) : other ∈ e.commands ∨ other = command := by
  unfold commandsWith at h
  split_ifs at h
  · exact .inl h
  · exact (mem_append.mp h).imp_right mem_singleton.mp

theorem Endpoint.readable_eq_cons {current : Bytes} {readQueue : List Bytes}
    (hcurrent : y.Reads current readQueue) :
    y.readable = current :: (readQueue ++ y.phase.rest) := by
  unfold readable
  rcases hcurrent with ⟨hcurrent, rfl⟩ | ⟨hcurrent, hqueue⟩
  · rw [hcurrent]
    simp
  · rw [hcurrent, hqueue]
    simp

theorem Moves.readerOk (h : y.ReaderOk) (hmove : Moves y action y' out notices)
    (hreset : ∀ now, action = .takeFrame now → y.resetExpected = true)
    (hchunks : ∀ frame ∈ y.frameQueue, frame.kind = .data → ∀ chunks receive,
      y.session.receive.insert frame.sequence frame.payload = (.ok chunks, receive) →
        ∀ chunk ∈ chunks, chunk ≠ []) : y'.ReaderOk := by
  have hstays : ∀ {command : StreamCommand}, command ≠ .reset →
      StreamCommand.reset ∈ y.commandsWith command → y.readerDropped = true := by
    intro command hne hmem
    rcases mem_commandsWith hmem with hold | hnew
    · exact h.resets hold
    · exact absurd hnew.symm hne
  cases hmove with
  | stay | endOfFile | refuse => exact h
  | accept | closeWriter => exact { h with }
  | turn hphase | control hphase | dataRefused hphase | ack hphase | ackFin hphase | fin hphase
  | write hphase | deliveryDone hphase | timer hphase =>
    exact h.same (by rw [hphase]; rfl) nofun
  | ackLeave hphase _ _ _ hcomplete =>
    exact h.same (by rw [hphase]; rfl) fun _ _ => hcomplete
  | reset hphase hqueue hkind =>
    refine h.same (by rw [hphase]; rfl) fun _ hreader => ?_
    have hexpected := hreset _ rfl
    unfold resetExpected at hexpected
    rw [hphase, hqueue] at hexpected
    have hcomplete : y.session.remoteComplete = true := by simpa [hkind, hreader] using hexpected
    exact hcomplete
  | data hphase hqueue hkind hinsert =>
    refine ⟨fun chunk hchunk => ?_, h.resets, nofun⟩
    rcases mem_append.mp hchunk with hold | hnew
    · exact h.proper chunk (mem_append_left _ hold)
    · exact hchunks _ (hqueue ▸ mem_cons_self) hkind _ _ hinsert chunk hnew
  | readerGone hphase hreader =>
    refine ⟨fun chunk hchunk => h.proper chunk ?_, h.resets,
      fun _ hd => absurd (hreader.symm.trans hd) nofun⟩
    exact mem_append_left _ ((mem_append.mp hchunk).resolve_right not_mem_nil)
  | consumed hphase hcommands | finishRequested hphase hcommands =>
    refine h.same (by rw [hphase]; rfl) nofun fun command hc => ?_
    rw [hcommands]
    exact mem_cons_of_mem _ hc
  | resetRequested hphase hcommands =>
    have hreader := h.resets (hcommands ▸ mem_cons_self)
    refine h.same (by rw [hphase]; rfl) (fun _ hd => absurd (hreader.symm.trans hd) nofun)
      fun command hc => ?_
    rw [hcommands]
    exact mem_cons_of_mem _ hc
  | @timerLeave times waiting _ hphase hleaves =>
    refine h.same (by rw [hphase]; rfl) fun _ _ => ?_
    obtain ⟨⟨_, _, _, _, _, _, hsession, -⟩, -⟩ := y.session.onTimer_spec waiting times
    rw [hsession]
    exact (Session.onTimer_leaves hleaves).1
  | finish => exact ⟨h.proper, hstays nofun, h.ended⟩
  | dropLifecycle hreader => exact ⟨h.proper, fun _ => hreader, h.ended⟩
  | dropReader =>
    refine ⟨fun chunk hchunk => h.proper chunk (mem_append_right _ ?_), fun _ => rfl, nofun⟩
    exact hchunk
  | recv hcurrent hqueue =>
    refine ⟨fun chunk hchunk => h.proper chunk ?_, h.resets, h.ended⟩
    unfold readable at hchunk ⊢
    rw [hcurrent, hqueue]
    simpa using hchunk
  | @read _ current readQueue remaining _ hreader hcurrent =>
    refine ⟨fun chunk hchunk => ?_, hstays nofun, h.ended⟩
    have hold : ∀ chunk ∈ readQueue ++ y.phase.rest, chunk ≠ [] := fun chunk hchunk =>
      h.proper chunk (by rw [readable_eq_cons hcurrent]; exact mem_cons_of_mem _ hchunk)
    split_ifs at hchunk with hempty
    · exact hold chunk hchunk
    · rcases mem_cons.mp hchunk with rfl | hlater
      · simpa using hempty
      · exact hold chunk hlater
  | handedOver hphase =>
    refine ⟨fun chunk hchunk => h.proper chunk ?_, h.resets, nofun⟩
    unfold readable at hchunk ⊢
    rw [hphase]
    simpa [Phase.rest] using hchunk

/-- The reader of `y` has the whole stream of `x`, which was shut down in order, as soon as it has
read what is waiting. -/
theorem Carries.whole (h : Carries x y frames acks acked rest delivered)
    (hcomplete : y.session.remoteComplete = true) (hreader : y.readerDropped = false) :
    y.handed ++ y.output = x.accepted.flatten ∧ x.Finished := by
  obtain ⟨rfl, hfinished⟩ := h.complete hcomplete
  refine ⟨?_, hfinished⟩
  rw [h.receiver.output hreader, h.sender.accepted, hfinished.2.2, append_nil]

/-- The end of the stream is reported where the session is gone and nothing is left. -/
theorem Moves.nothing_left (h : y.ReaderOk) (hmove : Moves y action y' out notices)
    (heof : Notice.endOfFile ∈ notices) :
    y.readerDropped = false ∧ y.phase.isEnded = true ∧ y.output = [] := by
  cases hmove with
  | endOfFile hreader hcurrent hqueue hended =>
    refine ⟨hreader, hended, ?_⟩
    have hrest : y.phase.rest = [] := by
      cases hphase : y.phase with
      | ended => rfl
      | _ =>
        rw [hphase] at hended
        cases hended
    unfold output
    rw [hcurrent, hqueue, hrest]
    rfl
  | @read _ current _ _ _ hreader hcurrent hnotices =>
    -- a chunk on its way to the reader is not empty, so the read returns something
    have hmem : current ∈ y.readable := by
      rw [readable_eq_cons hcurrent]
      exact mem_cons_self
    rw [hnotices.resolve_right fun hempty => h.proper current hmem hempty.1] at heof
    cases heof
  | timer _ _ hnotices | timerLeave _ _ hnotices =>
    rw [hnotices] at heof
    split_ifs at heof <;> simp at heof
  | _ => simp at heof

namespace System

variable {s : System} {event : Event}

/-- No `Reset` frame ends a session under a reader that waits for more. -/
def resetExpected (s : System) : Event → Bool
  | .act side (.takeFrame _) => (s.endpoint side).resetExpected
  | _ => true

variable {side : Side}

theorem Consistent.proper_chunks (h : s.Consistent) (hbound : s.Bounded) :
    ∀ frame ∈ (s.endpoint side).frameQueue, frame.kind = .data → ∀ chunks receive,
      (s.endpoint side).session.receive.insert frame.sequence frame.payload =
        (.ok chunks, receive) → ∀ chunk ∈ chunks, chunk ≠ [] := by
  intro frame hframe hkind chunks receive hinsert chunk hchunk
  obtain ⟨acked, rest, delivered, hcarries⟩ := h.carried side.other
  rw [Side.other_other] at hcarries
  have hdata := hcarries.receiver_data (hbound side.other) (mem_append_right _ hframe) hkind
  rw [hinsert] at hdata
  rcases hdata with hfull | ⟨out, next, hok, hfollows, -⟩
  · cases (Prod.mk.inj hfull).1
  · obtain rfl := Except.ok.inj (Prod.mk.inj hok).1
    exact hcarries.sender.proper_pushed chunk (hfollows.front.subset (mem_append_right _ hchunk))

structure Served (s : System) : Prop where
  bounded : s.Bounded
  consistent : s.Consistent
  readers : ∀ side, (s.endpoint side).ReaderOk

theorem Served.step (h : s.Served) (hbound : (s.step event).1.Bounded)
    (hreset : s.resetExpected event = true) : (s.step event).1.Served where
  bounded := hbound
  consistent := h.consistent.step hbound
  readers side := by
    refine endpoint_step (R := fun e e' => e.ReaderOk → e'.ReaderOk)
      (fun e frameQueue hok => { hok with }) s event ?_ (h.readers side)
    rintro action rfl hok
    refine ((s.endpoint side).moves_act action).readerOk hok ?_
      (h.consistent.proper_chunks h.bounded)
    rintro now rfl
    exact hreset

/-- The bytes are everything that the other side accepted before its orderly shutdown. -/
def Whole (s : System) (side : Side) (bytes : Bytes) : Prop :=
  bytes = (s.endpoint side.other).accepted.flatten ∧ (s.endpoint side.other).Finished

/-- Where a session has ended and its reader is there, the reader has the whole stream once it has
read what is waiting. -/
theorem Served.whole (h : s.Served) (hended : (s.endpoint side).phase.isEnded = true)
    (hreader : (s.endpoint side).readerDropped = false) :
    s.Whole side ((s.endpoint side).handed ++ (s.endpoint side).output) := by
  obtain ⟨acked, rest, delivered, hcarries⟩ := h.consistent.carried side.other
  rw [Side.other_other] at hcarries
  exact hcarries.whole ((h.readers side).ended hended hreader) hreader

theorem Served.endOfFile (h : s.Served) (heof : (side, Notice.endOfFile) ∈ (s.step event).2) :
    s.Whole side (s.endpoint side).handed := by
  obtain ⟨action, rfl, hnotice⟩ := act_of_notice heof
  obtain ⟨hreader, hended, houtput⟩ :=
    ((s.endpoint side).moves_act action).nothing_left (h.readers side) hnotice
  have hwhole := h.whole hended hreader
  rw [houtput, append_nil] at hwhole
  exact hwhole

/-- Where a read reports the end, the reader has the whole stream, and a session that has ended
leaves the rest of it to its reader. -/
structure EndsClean (s : System) (event : Event) : Prop where
  endOfFile : ∀ side, (side, Notice.endOfFile) ∈ (s.step event).2 →
    s.Whole side (s.endpoint side).handed
  ended : ∀ side, ((s.step event).1.endpoint side).phase.isEnded = true →
    ((s.step event).1.endpoint side).readerDropped = false →
      (s.step event).1.Whole side (((s.step event).1.endpoint side).handed ++
        ((s.step event).1.endpoint side).output)

/-- In a run in which no `Reset` frame ends a session under a reader that waits for more, a read
that reports the end has read everything that the other side had accepted before its orderly
shutdown, and no session ends in another way under its reader. -/
theorem endOfFile_after_whole_stream (streamId : Nat) (openPayload : Bytes) (events : List Event)
    (hbound : (Trace.run step (start streamId openPayload) events).1.Bounded)
    (hresets : Trace.Always step (fun s _ event => s.resetExpected event = true)
      (start streamId openPayload) [] events) :
    Trace.Always step (fun s _ event => s.EndsClean event) (start streamId openPayload) []
      events := by
  have hinit : (start streamId openPayload).Served := {
    bounded := fun side => by cases side <;> exact Nat.two_pow_pos 64
    consistent := consistent_start streamId openPayload
    readers := fun side => by cases side <;> exact ⟨nofun, nofun, nofun⟩ }
  refine Trace.always_of_always (I := fun (s : System) _ => s.Served)
    (P := fun (s : System) _ event => (s.step event).1.Bounded ∧ s.resetExpected event = true)
    ?_ ?_ hinit ((always_bounded hbound []).and hresets)
  · exact fun s _ event h hnext => h.step hnext.1 hnext.2
  · exact fun s _ event h hnext =>
      ⟨fun side heof => h.endOfFile heof,
        fun side hended hreader => (h.step hnext.1 hnext.2).whole hended hreader⟩

def oneChunk : List Event := written ++ received

def leftShutDown : List Event :=
  [.act .left .closeWriter, .act .left .finish, .act .left (turnAt 3), .act .left (.takeCommand 3),
    .act .left (turnAt 3), .act .left (timerAt 3)]

def shutdownRun : List Event :=
  oneChunk ++ leftShutDown ++
    [.deliver .left 1, .act .right (.takeFrame 4), .act .right (turnAt 4), .act .right (timerAt 4),
    .act .right (.pollRead 8), .act .right (.pollRead 8)]

theorem endOfFile_after_shutdown :
    Trace.Always step (fun s _ event => s.EndsClean event) (start 7 []) [] shutdownRun ∧
    (Side.right, Notice.endOfFile) ∈ (Trace.run step (start 7 []) shutdownRun).2 ∧
    ((Trace.run step (start 7 []) shutdownRun).1.endpoint .right).handed = [1, 2, 3] := by
  refine ⟨endOfFile_after_whole_stream 7 [] shutdownRun (fun side => ?_) (by decide +kernel),
    by decide +kernel, by decide +kernel⟩
  cases side <;> decide +kernel

/-- The left application has one more byte accepted and drops its stream without a shutdown. -/
def resetRun : List Event :=
  oneChunk ++ [.act .left (.pollWrite [4]), .act .left .closeWriter, .act .left .dropReader,
    .act .left .dropLifecycle, .act .left (turnAt 3), .act .left (.takeCommand 3), .deliver .left 1,
    .act .right (.takeFrame 4), .act .right (.pollRead 8), .act .right (.pollRead 8)]

/-- After a `Reset` the right reader is told that the stream has ended, as after a shutdown,
although a byte is missing. -/
theorem endOfFile_after_reset :
    (Side.right, Notice.endOfFile) ∈ (Trace.run step (start 7 []) resetRun).2 ∧
    ((Trace.run step (start 7 []) resetRun).1.endpoint .right).handed = [1, 2, 3] ∧
    ((Trace.run step (start 7 []) resetRun).1.endpoint .left).accepted.flatten = [1, 2, 3, 4] ∧
    ((Trace.run step (start 7 []) resetRun).1.endpoint .left).session.finishRequested = false := by
  decide +kernel

end System

end LowerTier.Gateway.OverlayStream
