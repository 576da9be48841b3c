import LowerTier.Gateway.OverlayStream.WindowUpdates

/-!
# Waiting for a window that is open

No side waits for a window that is open where the newest frame of each side arrives, and arrives
last.  The frame that announces an open window is sent once: a run that fills the window, empties
it again and loses that frame ends with both sides waiting.
-/

namespace LowerTier.Gateway.OverlayStream

open ReceiveWindow Nat Session List ProofSupport ProofSupport.ByteString ProofSupport.MachineInt
  Trace

variable {later now : Nat} {ack : Option Nat}

namespace Endpoint

def acts (e : Endpoint) : List Action → Endpoint × List Frame
  | [] => (e, [])
  | action :: actions =>
    (((e.act action).1.acts actions).1, (e.act action).2.1 ++ ((e.act action).1.acts actions).2)

theorem acts_append (e : Endpoint) (first second : List Action) {e' : Endpoint}
    {frames : List Frame} (h : e.acts first = (e', frames)) :
    e.acts (first ++ second) = ((e'.acts second).1, frames ++ (e'.acts second).2) := by
  induction first generalizing e frames with
  | nil =>
    cases h
    rfl
  | cons action first ih =>
    cases h
    rw [cons_append, acts, ih _ rfl, append_assoc]

/-- A turn with nothing to open and nothing to finish. -/
theorem turn_idle {e : Endpoint} {times : TurnTimes} (hphase : e.phase = .turn)
    (hfinish : e.session.finishRequested = false)
    (hopened : (e.session.initiator && !e.session.opened) = false) :
    e.turn times = ({ e with phase := .waiting (e.session.wait times.fin) }, []) := by
  simp [turn, hphase, beginTurn, markFin, readyToSendFin, hfinish, openIfDue, hopened]

/-- The session of the writer when `n` bytes were sent and acknowledged. -/
def writerSession (n : Nat) : Session :=
  { Session.new 7 true [] with
    send := ⟨STREAM_WINDOW_BYTES, n, 0, .empty⟩
    remoteWindow := STREAM_WINDOW_BYTES - n
    opened := true
    ready := some (.ok ())
    openSentAt := some 0 }

def writer (chunk : Bytes) (k : Nat) (n : Nat) : Endpoint :=
  { Endpoint.new (writerSession n) with accepted := List.replicate k chunk }

def writerFrame (chunk : Bytes) (n : Nat) : Frame := (writerSession n).sendData n chunk

def writerWaiting (chunk : Bytes) (k n now : Nat) : Endpoint :=
  { writer chunk (k + 1) n with
    session := { writerSession n with
      send := ⟨STREAM_WINDOW_BYTES, n + STREAM_DATA_BYTES, STREAM_DATA_BYTES,
        OrderedMap.empty.insert n chunk⟩
      sentAt := (∅ : KeyedMap Nat Nat).insert n now
      remoteWindow := STREAM_WINDOW_BYTES - (n + STREAM_DATA_BYTES) } }

variable {chunk : Bytes} {n : Nat}

theorem saturatingAdd_chunk (hn : n + STREAM_DATA_BYTES ≤ STREAM_WINDOW_BYTES) :
    saturatingAdd 64 n STREAM_DATA_BYTES = n + STREAM_DATA_BYTES := by
  unfold STREAM_DATA_BYTES STREAM_WINDOW_BYTES at hn
  unfold STREAM_DATA_BYTES saturatingAdd maxValue
  omega

section

variable (hchunk : chunk.length = STREAM_DATA_BYTES)
include hchunk

theorem chunk_ne_nil : chunk ≠ [] := by
  rintro rfl
  cases hchunk

variable (hn : n + STREAM_DATA_BYTES ≤ STREAM_WINDOW_BYTES)
include hn

theorem acts_writer (k now : Nat) :
    (writer chunk k n).acts [.pollWrite chunk, System.turnAt now, .takeWrite now] =
      (writerWaiting chunk k n now, [writerFrame chunk n]) := by
  have hne := chunk_ne_nil hchunk
  have htake : chunk.take STREAM_DATA_BYTES = chunk := take_of_length_le hchunk.le
  have hwindow : STREAM_DATA_BYTES ≤ STREAM_WINDOW_BYTES - n := by omega
  have hsum := saturatingAdd_chunk hn
  have hsmall : ¬STREAM_WINDOW_BYTES < saturatingAdd 64 0 STREAM_DATA_BYTES := by decide
  have hfits : STREAM_DATA_BYTES ≤ STREAM_WINDOW_BYTES := by omega
  simp [acts, act, pollWrite, hne, writer, new, Phase.isEnded, htake, APP_WRITE_QUEUE_CHUNKS,
    replicate_succ', System.turnAt, turn_idle, writerSession, Session.new, takeWrite, Session.wait,
    Session.writable, Session.onWrite, SendWindow.push, hchunk, hsmall, hsum, hwindow, hfits,
    writerWaiting, writerFrame, Session.sendData, Nat.sub_sub]

/-! ## The other side -/

/-- The session of the reader when it has acknowledged `n` bytes, which nobody has consumed. -/
def readerSession (n : Nat) : Session :=
  { Session.new 7 false [] with
    receive := ⟨STREAM_WINDOW_BYTES, n, n, 0, .empty⟩
    ready := some (.ok ())
    lastAcknowledgement := n
    lastAdvertisedWindow := STREAM_WINDOW_BYTES - n }

def reader (chunk : Bytes) (k n : Nat) : Endpoint :=
  { Endpoint.new (readerSession n) with readQueue := List.replicate k chunk }

def readerFrame (n : Nat) : Frame := (readerSession n).sendControl .ack 0 n

def readerOwing (chunk : Bytes) (k n deadline : Nat) : Endpoint :=
  { reader chunk (k + 1) n with
    session := { readerSession n with
      receive := ⟨STREAM_WINDOW_BYTES, n + STREAM_DATA_BYTES, n + STREAM_DATA_BYTES, 0, .empty⟩
      ackPending := true
      ackDeadline := some deadline } }

theorem insert_next :
    (⟨STREAM_WINDOW_BYTES, n, n, 0, .empty⟩ : ReceiveWindow).insert n chunk =
      (.ok [chunk],
        ⟨STREAM_WINDOW_BYTES, n + STREAM_DATA_BYTES, n + STREAM_DATA_BYTES, 0, .empty⟩) := by
  have hne := chunk_ne_nil hchunk
  have hsum := saturatingAdd_chunk hn
  have hfits : ¬STREAM_WINDOW_BYTES < n + STREAM_DATA_BYTES := by omega
  simp [ReceiveWindow.insert, hne, ReceiveWindow.overlaps, OrderedMap.empty,
    bufferedBytes, hchunk, hsum, hfits, drain]

theorem acts_reader (k now : Nat) (hk : k < APP_READ_QUEUE_CHUNKS) :
    { reader chunk k n with frameQueue := [writerFrame chunk n] }.acts
        [System.turnAt now, .takeFrame now, .handOver now, .handOver now] =
      (readerOwing chunk k n (now + ACK_DELAY), []) := by
  have hinsert := insert_next hchunk hn
  have hbatch : ¬ACK_BATCH_BYTES ≤ STREAM_DATA_BYTES := by decide
  have hsmall : STREAM_WINDOW_BYTES % 4294967296 = STREAM_WINDOW_BYTES := by decide
  have htake : { reader chunk k n with frameQueue := [writerFrame chunk n] }.acts
      [System.turnAt now, .takeFrame now] =
      ({ reader chunk k n with
          session := { readerSession n with
            receive := ⟨STREAM_WINDOW_BYTES, n + STREAM_DATA_BYTES, n + STREAM_DATA_BYTES, 0,
              .empty⟩ }
          phase := .delivering [chunk] }, []) := by
    simp [acts, act, reader, new, System.turnAt, turn_idle, readerSession, Session.new, takeFrame,
      Session.onFrame, writerFrame, sendData, hinsert, ackNotices, ReceiveWindow.availableBytes,
      ReceiveWindow.bufferedBytes, ReceiveWindow.new, writerSession, hsmall]
  refine (acts_append _ [_, _] [_, _] htake).trans ?_
  simp [acts, act, reader, new, handOver, hk, Session.afterDelivery, Session.requestAck,
    readerSession, Session.new, hbatch, readerOwing, replicate_succ']

theorem acts_writerWaiting (k now later : Nat) :
    { writerWaiting chunk k n now with
        frameQueue := [readerFrame (n + STREAM_DATA_BYTES)] }.acts
        [System.turnAt later, .takeFrame later] =
      (writer chunk (k + 1) (n + STREAM_DATA_BYTES), []) := by
  have hsum := saturatingAdd_chunk hn
  have hsmall : (STREAM_WINDOW_BYTES - (n + STREAM_DATA_BYTES)) % 2 ^ 32 =
      STREAM_WINDOW_BYTES - (n + STREAM_DATA_BYTES) :=
    mod_eq_of_lt (lt_of_le_of_lt (sub_le _ _) (by decide))
  have hacknowledge : (⟨STREAM_WINDOW_BYTES, n + STREAM_DATA_BYTES, STREAM_DATA_BYTES,
      OrderedMap.empty.insert n chunk⟩ : SendWindow).acknowledge (n + STREAM_DATA_BYTES) =
      ⟨STREAM_WINDOW_BYTES, n + STREAM_DATA_BYTES, 0, .empty⟩ := by
    simp [SendWindow.acknowledge, SendWindow.forget, OrderedMap.insert, OrderedMap.insertEntry,
      OrderedMap.empty, OrderedMap.lookup, OrderedMap.erase, hchunk, hsum]
  have hretain : KeyedMap.retainKeys
      (fun sequence => ((⟨STREAM_WINDOW_BYTES, n + STREAM_DATA_BYTES, 0, .empty⟩ :
        SendWindow).get sequence).isSome) ((∅ : KeyedMap Nat Nat).insert n now) = ∅ := rfl
  simp [acts, act, writerWaiting, writer, new, System.turnAt, turn_idle, writerSession, Session.new,
    takeFrame, Session.onFrame, readerFrame, readerSession, Session.sendControl, Session.onAck,
    hacknowledge, hretain, hsmall, availableBytes, bufferedBytes, ackNotices, -reducePow,
    -AList.insert_empty]

end

/-- A side that owes an acknowledgement sends it when its deadline has passed. -/
theorem acts_ack_due (queue : List Bytes) (handed : Bytes) {s : Session}
    {m u deadline : Nat} (hlater : deadline ≤ later) (hm : m ≤ STREAM_WINDOW_BYTES)
    (hs : s = { readerSession n with
      receive := ⟨STREAM_WINDOW_BYTES, m, u, 0, .empty⟩
      ackPending := true
      ackDeadline := some deadline }) :
    { new s with readQueue := queue, handed := handed }.acts
        [System.turnAt now, System.timerAt later] =
      ({ new { readerSession m with
          receive := ⟨STREAM_WINDOW_BYTES, m, u, 0, .empty⟩
          lastAdvertisedWindow := STREAM_WINDOW_BYTES - u } with
        readQueue := queue
        handed := handed }, [s.sendControl .ack 0 m]) := by
  have hsmall : m % 2 ^ 64 = m := mod_eq_of_lt (lt_of_le_of_lt hm (by decide))
  have hturn : { new s with readQueue := queue, handed := handed }.act (System.turnAt now) =
      ({ new s with
          readQueue := queue
          handed := handed
          phase := .waiting (s.wait now) }, [], []) := by
    simp [act, System.turnAt, turn_idle, hs, new, readerSession, Session.new]
  have hdeadline : (s.wait now).timerDeadline = some deadline := by rw [hs]; rfl
  have hretransmit : (s.wait now).retransmitDeadline = none := by rw [hs]; rfl
  have hfin : (s.wait now).finDeadline = none := by rw [hs]; rfl
  rw [acts, hturn, acts]
  generalize s.wait now = waiting at *
  simp [acts, act, System.timerAt, fireTimer, hdeadline, hlater, onTimer, ackDue,
    hs, Session.sendAck, Session.remoteComplete, remoteFinComplete, Session.resendAndFinish,
    hretransmit, hfin, Session.sendControl, wrappingAdd, hsmall, -reducePow, readerSession,
    Session.new, new, availableBytes, bufferedBytes]

theorem acts_readerOwing (k now : Nat) {deadline : Nat} (hlater : deadline ≤ later)
    (hn : n + STREAM_DATA_BYTES ≤ STREAM_WINDOW_BYTES) :
    (readerOwing chunk k n deadline).acts [System.turnAt now, System.timerAt later] =
      (reader chunk (k + 1) (n + STREAM_DATA_BYTES), [readerFrame (n + STREAM_DATA_BYTES)]) :=
  acts_ack_due (replicate (k + 1) chunk) [] hlater hn rfl

/-! ## The other side empties the window -/

/-- The reader has taken `i` chunks, `j` of them wait, and `u` bytes of the window are in use. -/
def consumer (chunk : Bytes) (n i j u : Nat) (ack : Option Nat) : Endpoint :=
  { reader chunk j n with
    session := { readerSession n with
      receive := ⟨STREAM_WINDOW_BYTES, n, u, 0, .empty⟩
      ackPending := ack.isSome
      ackDeadline := ack }
    handed := (List.replicate i chunk).flatten }

theorem requestAck_deadline (s : Session) (immediate : Bool)
    (hlater : now + ACK_DELAY ≤ later) (hold : ∀ deadline ∈ s.ackDeadline, deadline ≤ later) :
    ∃ deadline, deadline ≤ later ∧ s.requestAck now immediate =
      { s with ackDeadline := some deadline, ackPending := true } := by
  have hnew : (now + if immediate then 0 else ACK_DELAY) ≤ later := by
    split_ifs
    · omega
    · exact hlater
  unfold requestAck
  dsimp only
  generalize (now + if immediate then 0 else ACK_DELAY) = deadline at hnew ⊢
  split_ifs with hsooner
  · exact ⟨deadline, hnew, rfl⟩
  · cases hack : s.ackDeadline with
    | none =>
      rw [hack] at hsooner
      simp at hsooner
    | some current => exact ⟨current, hold current (by rw [hack]; rfl), rfl⟩

theorem acts_consumer (i j u : Nat) (hchunk : chunk.length = STREAM_DATA_BYTES)
    (hlater : now + ACK_DELAY ≤ later) (hack : ∀ deadline ∈ ack, deadline ≤ later) :
    ∃ deadline, deadline ≤ later ∧
      (consumer chunk n i (j + 1) (u + STREAM_DATA_BYTES) ack).acts
          [.pollRead STREAM_DATA_BYTES, System.turnAt now, .takeCommand now] =
        (consumer chunk n (i + 1) j u (some deadline), []) := by
  have htake : chunk.take STREAM_DATA_BYTES = chunk := take_of_length_le hchunk.le
  have hdrop : chunk.drop STREAM_DATA_BYTES = [] := drop_of_length_le hchunk.le
  have hhanded : (replicate (i + 1) chunk).flatten =
      (replicate i chunk).flatten ++ chunk := by simp [replicate_succ']
  have hqueue : replicate (j + 1) chunk = chunk :: replicate j chunk := rfl
  have hread : (consumer chunk n i (j + 1) (u + STREAM_DATA_BYTES) ack).acts
      [.pollRead STREAM_DATA_BYTES, System.turnAt now] =
      ({ consumer chunk n (i + 1) j (u + STREAM_DATA_BYTES) ack with
          phase := .waiting ((consumer chunk n i j (u + STREAM_DATA_BYTES) ack).session.wait now)
          commands := [.consumed STREAM_DATA_BYTES] }, []) := by
    simp [acts, act, consumer, reader, new, pollRead, takeCurrent, sendCommand, Phase.isEnded,
      hqueue, hhanded, htake, hdrop, hchunk, System.turnAt, turn_idle, readerSession, Session.new]
  obtain ⟨deadline, hdeadline, hrequest⟩ := requestAck_deadline
    { (consumer chunk n (i + 1) j (u + STREAM_DATA_BYTES) ack).session with
      receive := ⟨STREAM_WINDOW_BYTES, n, u, 0, .empty⟩ }
    (decide (ACK_BATCH_BYTES ≤ (⟨STREAM_WINDOW_BYTES, n, u, 0, .empty⟩ :
      ReceiveWindow).availableBytes - (STREAM_WINDOW_BYTES - n))) hlater hack
  refine ⟨deadline, hdeadline, (acts_append _ [_, _] [_] hread).trans ?_⟩
  have hconsume : (⟨STREAM_WINDOW_BYTES, n, u + STREAM_DATA_BYTES, 0, .empty⟩ :
      ReceiveWindow).consume STREAM_DATA_BYTES = ⟨STREAM_WINDOW_BYTES, n, u, 0, .empty⟩ := by
    simp [consume]
  simp [acts, act, takeCommand, onCommand, consumer, reader, new, readerSession, new,
    hconsume] at hrequest ⊢
  rw [hrequest]

def rested (chunk : Bytes) (n i : Nat) : Endpoint :=
  { consumer chunk n i 0 0 none with
    session := { (consumer chunk n i 0 0 none).session with
      lastAdvertisedWindow := STREAM_WINDOW_BYTES } }

def announcement (chunk : Bytes) (n i : Nat) : Frame :=
  (rested chunk n i).session.sendControl .ack 0 n

theorem acts_consumer_done (i now : Nat) {deadline : Nat} (hlater : deadline ≤ later)
    (hn : n ≤ STREAM_WINDOW_BYTES) :
    (consumer chunk n i 0 0 (some deadline)).acts [System.turnAt now, System.timerAt later] =
      (rested chunk n i, [announcement chunk n i]) :=
  acts_ack_due [] (replicate i chunk).flatten hlater hn rfl

def idle (chunk : Bytes) (n i now : Nat) : Endpoint :=
  { rested chunk n i with phase := .waiting ((rested chunk n i).session.wait now) }

theorem acts_rested (i now : Nat) :
    (rested chunk n i).acts [System.turnAt now] = (idle chunk n i now, []) := by
  simp [acts, act, idle, rested, consumer, reader, new, System.turnAt, turn_idle, readerSession,
    Session.new]

def blocked (chunk : Bytes) (k n now : Nat) : Endpoint :=
  { writer chunk (k + 1) n with
    phase := .waiting ((writerSession n).wait now)
    writeQueue := [chunk] }

theorem acts_writer_blocked (k now : Nat) (hchunk : chunk.length = STREAM_DATA_BYTES) :
    (writer chunk k n).acts [System.turnAt now, .pollWrite chunk] =
      (blocked chunk k n now, []) := by
  have hne := chunk_ne_nil hchunk
  have htake : chunk.take STREAM_DATA_BYTES = chunk := take_of_length_le hchunk.le
  simp [acts, act, pollWrite, hne, writer, new, Phase.isEnded, htake, APP_WRITE_QUEUE_CHUNKS,
    replicate_succ', System.turnAt, turn_idle, writerSession, Session.new, blocked]

/-- The writer whose window is open again. -/
def reopened (chunk : Bytes) (k n : Nat) : Endpoint :=
  { writer chunk (k + 1) n with
    session := { writerSession n with remoteWindow := STREAM_WINDOW_BYTES }
    writeQueue := [chunk] }

theorem acts_blocked (i k now later : Nat) :
    { blocked chunk k n now with frameQueue := [announcement chunk n i] }.acts [.takeFrame later] =
      (reopened chunk k n, []) := by
  have hretain : ∀ keep, KeyedMap.retainKeys keep (∅ : KeyedMap Nat Nat) = ∅ := fun _ => rfl
  have hsmall : STREAM_WINDOW_BYTES % 4294967296 = STREAM_WINDOW_BYTES := by decide
  simp [acts, act, blocked, writer, new, takeFrame, Session.onFrame, announcement, reopened,
    rested, consumer, reader, readerSession, writerSession, Session.new, Session.sendControl,
    Session.onAck, SendWindow.acknowledge, availableBytes,
    bufferedBytes, ackNotices, OrderedMap.empty, hretain, hsmall]

end Endpoint

/-! ## The run -/

namespace System

open Endpoint

variable {chunk : Bytes} {left right : Endpoint} {leftWire rightWire : List Frame}

def of (left right : Endpoint) (leftWire rightWire : List Frame) : System where
  endpoint
    | .left => left
    | .right => right
  wire
    | .left => leftWire
    | .right => rightWire

theorem ext {s s' : System}
    (h : ∀ side, s.endpoint side = s'.endpoint side ∧ s.wire side = s'.wire side) : s = s' := by
  obtain ⟨endpoint, wire⟩ := s
  obtain ⟨endpoint', wire'⟩ := s'
  rw [mk.injEq]
  exact ⟨funext fun side => (h side).1, funext fun side => (h side).2⟩

/-- The run ends in the given state, and in it the newest frame of a side arrives and arrives
last. -/
structure Runs (s : System) (events : List Event) (s' : System) : Prop where
  ends : (run step s events).1 = s'
  newest : ∀ history, Always step (fun s _ event => s.newestLast event = true) s history events

theorem Runs.append {s s' s'' : System} {first second : List Event} (h : Runs s first s')
    (h' : Runs s' second s'') : Runs s (first ++ second) s'' where
  ends := by rw [run_append_fst, h.ends, h'.ends]
  newest history := always_append (h.newest history) (h.ends.symm ▸ h'.newest _)

theorem runs_acts (s : System) (side : Side) (actions : List Action) :
    Runs s (actions.map (.act side))
      { endpoint := Function.update s.endpoint side ((s.endpoint side).acts actions).1
        wire := Function.update s.wire side
          (s.wire side ++ ((s.endpoint side).acts actions).2) } := by
  induction actions generalizing s with
  | nil => exact ⟨by simp [acts], fun _ => trivial⟩
  | cons action actions ih =>
    obtain ⟨hends, hnewest⟩ := ih (step s (.act side action)).1
    refine ⟨?_, fun _ => ⟨rfl, hnewest _⟩⟩
    rw [map_cons, run_cons, hends]
    simp [step, acts]

variable {actions : List Action} {e : Endpoint} {frames : List Frame}

theorem runs_left (h : left.acts actions = (e, frames)) :
    Runs (of left right leftWire rightWire) (actions.map (.act .left))
      (of e right (leftWire ++ frames) rightWire) := by
  refine ⟨(runs_acts _ _ _).ends.trans (ext fun side => ?_), (runs_acts _ _ _).newest⟩
  cases side <;> simp [of, h]

theorem runs_right (h : right.acts actions = (e, frames)) :
    Runs (of left right leftWire rightWire) (actions.map (.act .right))
      (of left e leftWire (rightWire ++ frames)) := by
  refine ⟨(runs_acts _ _ _).ends.trans (ext fun side => ?_), (runs_acts _ _ _).newest⟩
  cases side <;> simp [of, h]

variable {frame : Frame}

theorem arrive_first (hrunning : e.phase.isEnded = false)
    (hqueue : e.frameQueue = []) : arrive e frame = { e with frameQueue := [frame] } := by
  unfold arrive
  rw [hrunning, hqueue]
  rfl

theorem deliver_left (hrunning : right.phase.isEnded = false) (hqueue : right.frameQueue = []) :
    Runs (of left right [frame] rightWire) [.deliver .left 0]
      (of left { right with frameQueue := [frame] } [] rightWire) := by
  have hroom : 0 < FRAME_QUEUE_PACKETS := by decide
  refine ⟨?_, fun _ => ⟨by simp [newestLast, of, Side.other, hqueue, hroom], trivial⟩⟩
  rw [← arrive_first hrunning hqueue]
  refine ext fun side => ?_
  cases side <;> exact ⟨rfl, rfl⟩

theorem deliver_right (hrunning : left.phase.isEnded = false) (hqueue : left.frameQueue = []) :
    Runs (of left right leftWire [frame]) [.deliver .right 0]
      (of { left with frameQueue := [frame] } right leftWire []) := by
  have hroom : 0 < FRAME_QUEUE_PACKETS := by decide
  refine ⟨?_, fun _ => ⟨by simp [newestLast, of, Side.other, hqueue, hroom], trivial⟩⟩
  rw [← arrive_first hrunning hqueue]
  refine ext fun side => ?_
  cases side <;> exact ⟨rfl, rfl⟩

def fillRound (chunk : Bytes) (now : Nat) : List Event :=
  [.pollWrite chunk, turnAt now, .takeWrite now].map (.act .left) ++ [.deliver .left 0] ++
    [turnAt now, .takeFrame now, .handOver now, .handOver now].map (.act .right) ++
    [turnAt now, timerAt (now + ACK_DELAY)].map (.act .right) ++ [.deliver .right 0] ++
    [turnAt (now + ACK_DELAY), .takeFrame (now + ACK_DELAY)].map (.act .left)

variable {n : Nat}

section

variable (hchunk : chunk.length = STREAM_DATA_BYTES)
include hchunk

theorem runs_fillRound (k now : Nat)
    (hn : n + STREAM_DATA_BYTES ≤ STREAM_WINDOW_BYTES) (hk : k < APP_READ_QUEUE_CHUNKS) :
    Runs (of (writer chunk k n) (reader chunk k n) [] []) (fillRound chunk now)
      (of (writer chunk (k + 1) (n + STREAM_DATA_BYTES))
        (reader chunk (k + 1) (n + STREAM_DATA_BYTES)) [] []) := by
  have hsent : Runs (of _ (reader chunk k n) [] []) _ _ := runs_left (acts_writer hchunk hn k now)
  have hqueued := hsent.append (deliver_left rfl rfl)
  have hread := (hqueued.append (runs_right (acts_reader hchunk hn k now hk))).append
    (runs_right (acts_readerOwing k now (le_refl _) hn))
  exact (hread.append (deliver_right rfl rfl)).append
    (runs_left (acts_writerWaiting hchunk hn k now _))

def readRound (now : Nat) : List Event :=
  [.pollRead STREAM_DATA_BYTES, turnAt now, .takeCommand now].map (.act .right)

theorem runs_readRounds (hlater : now + ACK_DELAY ≤ later) (rounds i : Nat)
    (hack : ∀ deadline ∈ ack, deadline ≤ later) :
    ∃ deadline ≤ later, Runs
      (of left (consumer chunk n i (rounds + 1) (STREAM_DATA_BYTES * (rounds + 1)) ack) [] [])
      (replicate (rounds + 1) (readRound now)).flatten
      (of left (consumer chunk n (i + (rounds + 1)) 0 0 (some deadline)) [] []) := by
  induction rounds generalizing i ack with
  | zero =>
    obtain ⟨deadline, hdeadline, hacts⟩ := acts_consumer i 0 0 hchunk hlater hack (n := n)
    rw [zero_add] at hacts
    exact ⟨deadline, hdeadline, runs_right hacts⟩
  | succ rounds ih =>
    obtain ⟨deadline, hdeadline, hacts⟩ :=
      acts_consumer i (rounds + 1) (STREAM_DATA_BYTES * (rounds + 1)) hchunk hlater hack (n := n)
    obtain ⟨last, hlast, hrun⟩ := ih (i + 1) fun _ hother => Option.some.inj hother ▸ hdeadline
    refine ⟨last, hlast, ?_⟩
    rw [replicate_succ, flatten_cons]
    rw [Nat.add_right_comm i 1] at hrun
    have hfirst : Runs (of left _ [] []) _ _ := runs_right hacts
    exact hfirst.append hrun

/-- The right application reads everything and sends the frame that announces it. -/
def readAll (now later rounds : Nat) : List Event :=
  (List.replicate rounds (readRound now)).flatten ++
    [turnAt now, timerAt later].map (.act .right) ++ [turnAt later].map (.act .right)

theorem runs_readAll (hlater : now + ACK_DELAY ≤ later) (rounds : Nat)
    (hn : n ≤ STREAM_WINDOW_BYTES) :
    Runs (of left
        (consumer chunk n 0 (rounds + 1) (STREAM_DATA_BYTES * (rounds + 1)) none) [] [])
      (readAll now later (rounds + 1))
      (of left (idle chunk n (rounds + 1) later) [] [announcement chunk n (rounds + 1)]) := by
  obtain ⟨deadline, hdeadline, hread⟩ := runs_readRounds hchunk hlater rounds 0
    (show ∀ deadline ∈ none, deadline ≤ later from nofun)
  rw [zero_add] at hread
  exact (hread.append (runs_right (acts_consumer_done _ now hdeadline hn))).append
    (runs_right (acts_rested _ later))

def fillRounds (chunk : Bytes) (rounds : Nat) : List Event :=
  (List.range rounds).flatMap fun k => fillRound chunk (2 * ACK_DELAY * k)

theorem runs_fillRounds (rounds : Nat)
    (hrounds : STREAM_DATA_BYTES * rounds ≤ STREAM_WINDOW_BYTES) :
    Runs (of (writer chunk 0 0) (reader chunk 0 0) [] []) (fillRounds chunk rounds)
      (of (writer chunk rounds (STREAM_DATA_BYTES * rounds))
        (reader chunk rounds (STREAM_DATA_BYTES * rounds)) [] []) := by
  induction rounds with
  | zero => exact ⟨rfl, fun _ => trivial⟩
  | succ rounds ih =>
    rw [mul_succ] at hrounds
    have hroom : rounds < APP_READ_QUEUE_CHUNKS := by
      have hqueue : APP_READ_QUEUE_CHUNKS = 235 := rfl
      unfold STREAM_DATA_BYTES STREAM_WINDOW_BYTES at hrounds
      omega
    unfold fillRounds at ih ⊢
    rw [range_succ, flatMap_append, flatMap_singleton]
    exact (ih (by omega)).append (runs_fillRound hchunk rounds _ hrounds hroom)

omit hchunk in
theorem writable_full (hfull : STREAM_WINDOW_BYTES < n + STREAM_DATA_BYTES) :
    (writerSession n).writable = false := by
  have hpos : 0 < STREAM_DATA_BYTES := by decide
  have hsmall : ¬STREAM_DATA_BYTES ≤ STREAM_WINDOW_BYTES - n := by omega
  simp [writable, writerSession, hsmall]

/-- Once the window has been full and the announcement that it is empty is lost, both sides wait. -/
theorem deadlocked_of_full {i k : Nat}
    (hi : i * STREAM_DATA_BYTES = n) (hfull : STREAM_WINDOW_BYTES < n + STREAM_DATA_BYTES) :
    (of (blocked chunk k n now)
      (idle chunk n i now) [] []).Deadlocked .left := by
  refine ⟨fun side => ?_, fun side => ?_, ?_, ?_, ?_⟩
  · cases side <;> exact ⟨rfl, rfl, rfl, rfl, rfl, rfl, rfl, rfl, rfl⟩
  · cases side <;> rfl
  · show (replicate i chunk).flatten.length = n
    rw [length_flatten, map_replicate, sum_replicate_nat, hchunk, hi]
  · exact cons_ne_nil _ _
  · exact writable_full hfull

end

/-- Where the newest frame of each side arrives and arrives last, no side waits for a window that
is open. -/
theorem no_window_deadlock (streamId : Nat) (openPayload : Bytes) (events : List Event)
    (hbound : (Trace.run step (start streamId openPayload) events).1.Bounded)
    (hnewest : Trace.Always step (fun s _ event => s.newestLast event = true)
      (start streamId openPayload) [] events) (side : Side) :
    ¬(Trace.run step (start streamId openPayload) events).1.Deadlocked side := by
  have hwindows : (run step (start streamId openPayload) events).1.Windows :=
    run_invariant (I := fun (s : System) _ => s.Windows)
      (P := fun (s : System) _ event => (s.step event).1.Bounded ∧ s.newestLast event = true)
      (h := []) (fun _ _ _ h hnext => h.step hnext.1 hnext.2) (windows_start streamId openPayload)
      ((always_bounded hbound []).and hnewest)
  exact hwindows.not_deadlocked

def fullChunk : Bytes := List.replicate STREAM_DATA_BYTES 0

/-- The left side opens the stream and fills the window; the right application reads everything
and sends a frame that says so; and the left application writes one more chunk. -/
def filledRun : List Event :=
  [.act .left (turnAt 0), .deliver .left 0, .act .right (turnAt 0), .act .right (.takeFrame 0),
      .deliver .right 0, .deliver .right 0, .act .left (.takeFrame 0), .act .left (turnAt 0),
      .act .left (.takeFrame 0)] ++
    fillRounds fullChunk 234 ++ readAll 500000000 501000000 234 ++
    [turnAt 501000000, .pollWrite fullChunk].map (.act .left)

theorem runs_filledRun : Runs (start 7 []) filledRun
    (of (blocked fullChunk 234 (STREAM_DATA_BYTES * 234) 501000000)
      (idle fullChunk (STREAM_DATA_BYTES * 234) 234 501000000) []
      [announcement fullChunk (STREAM_DATA_BYTES * 234) 234]) := by
  have hchunk : fullChunk.length = STREAM_DATA_BYTES := length_replicate ..
  have hopen : Runs (start 7 []) (filledRun.take 9)
      (of (writer fullChunk 0 0) (reader fullChunk 0 0) [] []) := by
    refine ⟨ext fun side => ?_, fun _ => ?_⟩
    · cases side <;> exact ⟨rfl, rfl⟩
    · exact ⟨rfl, rfl, rfl, rfl, rfl, rfl, rfl, rfl, rfl, trivial⟩
  have hfilled := hopen.append (runs_fillRounds hchunk 234 (by decide))
  exact (hfilled.append (runs_readAll hchunk (by decide) 233 (by decide))).append
    (runs_left (acts_writer_blocked 234 _ hchunk))

def reopenedRun : List Event := filledRun ++ [.deliver .right 0, .act .left (.takeFrame 501000000)]

theorem runs_reopenedRun : Runs (start 7 []) reopenedRun
    (of (reopened fullChunk 234 (STREAM_DATA_BYTES * 234))
      (idle fullChunk (STREAM_DATA_BYTES * 234) 234 501000000) [] []) :=
  runs_filledRun.append ((deliver_right rfl rfl).append (runs_left (acts_blocked ..)))

theorem no_window_deadlock_reopened :
    ((Trace.run step (start 7 []) filledRun).1.endpoint .left).session.writable = false ∧
      ((Trace.run step (start 7 []) reopenedRun).1.endpoint .left).session.writable = true ∧
      ¬(Trace.run step (start 7 []) reopenedRun).1.Deadlocked .left := by
  refine ⟨?_, ?_, no_window_deadlock 7 [] reopenedRun (fun side => ?_)
    (runs_reopenedRun.newest []) .left⟩
  · rw [runs_filledRun.ends]
    exact writable_full (by decide)
  · rw [runs_reopenedRun.ends]
    rfl
  · rw [runs_reopenedRun.ends]
    cases side with
    | left =>
      show (replicate 235 fullChunk).flatten.length < 2 ^ 64
      rw [length_flatten, map_replicate, sum_replicate_nat, fullChunk, length_replicate]
      decide
    | right => exact (by decide : 0 < 2 ^ 64)

/-- The announcement is lost, and both sides wait: the left one for a larger window, the right one
for data. -/
theorem window_update_lost :
    (Trace.run step (start 7 []) (filledRun ++ [.lose .right 0])).1.Deadlocked .left := by
  have hlost : (run step (start 7 []) (filledRun ++ [.lose .right 0])).1 =
      of (blocked fullChunk 234 (STREAM_DATA_BYTES * 234) 501000000)
        (idle fullChunk (STREAM_DATA_BYTES * 234) 234 501000000) [] [] := by
    rw [run_append_fst, runs_filledRun.ends]
    refine ext fun side => ?_
    cases side <;> exact ⟨rfl, rfl⟩
  rw [hlost]
  exact deadlocked_of_full (length_replicate ..) (by decide) (by decide)

end System

end LowerTier.Gateway.OverlayStream
