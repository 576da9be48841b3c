import LowerTier.Gateway.OverlayStream.Window
import LowerTier.ProofSupport.KeyedMap

/-!
# Sessions of an overlay stream (`gateway/overlay_stream.rs`)

The local variables of `run_session` and what every branch of its loop does to them.  Times are
in nanoseconds; a branch takes the readings of the clock it makes as arguments, in the order in
which it makes them.
-/

namespace LowerTier.Gateway.OverlayStream

open List ProofSupport ProofSupport.ByteString ProofSupport.MachineInt

inductive FrameKind where
  | «open»
  | openAck
  | data
  | ack
  | fin
  | reset
deriving DecidableEq, Repr

structure Frame where
  kind : FrameKind
  streamId : Nat
  sequence : Nat
  acknowledgement : Nat
  receiveWindow : Nat
  payload : Bytes
deriving DecidableEq, Repr

def STREAM_DATA_BYTES : Nat := 1120

def APP_WRITE_QUEUE_CHUNKS : Nat := 64

def APP_READ_QUEUE_CHUNKS : Nat :=
  (STREAM_WINDOW_BYTES + STREAM_DATA_BYTES - 1) / STREAM_DATA_BYTES

def FRAME_QUEUE_PACKETS : Nat := (STREAM_WINDOW_BYTES + STREAM_DATA_BYTES - 1) / STREAM_DATA_BYTES

def ACK_DELAY : Nat := 1000000

def ACK_BATCH_BYTES : Nat := STREAM_WINDOW_BYTES / 4

def RETRANSMIT_AFTER : Nat := 100000000

def FIN_RETRANSMIT_AFTER : Nat := 100000000

def OPEN_RETRANSMIT_AFTER : Nat := 200000000

inductive StreamCommand where
  | consumed (bytes : Nat)
  | finish
  | reset
deriving DecidableEq, Repr

def readyToSendFin (finishRequested writeClosed writeEmpty : Bool) : Bool :=
  finishRequested && writeClosed && writeEmpty

def remoteFinComplete (finSequence : Option Nat) (nextSequence : Nat) : Bool :=
  finSequence.any fun sequence => sequence ≤ nextSequence

def earliestTimerDeadline (deadlines : List (Option Nat)) : Option Nat :=
  (deadlines.filterMap id).min?

structure Session where
  streamId : Nat
  initiator : Bool
  openPayload : Bytes
  receive : ReceiveWindow
  send : SendWindow
  sentAt : KeyedMap Nat Nat
  remoteWindow : Nat
  opened : Bool
  /-- What was sent through `ready_tx`. -/
  ready : Option (Except String Unit)
  openSentAt : Option Nat
  ackPending : Bool
  ackDeadline : Option Nat
  lastAcknowledgement : Nat
  lastAdvertisedWindow : Nat
  finishRequested : Bool
  localFin : Option Nat
  finSentAt : Option Nat
  remoteFinSequence : Option Nat

/-- What a turn of the loop has computed when it waits. -/
structure Waiting where
  retransmitDeadline : Option Nat
  finDeadline : Option Nat
  timerDeadline : Option Nat
  writable : Bool

/-- The clock at the check of the last `Open`, after a new one and for the first `Fin`. -/
structure TurnTimes where
  checked : Nat
  opened : Nat
  fin : Nat

/-- The clock when the timer has fired, at the check of every chunk, after every chunk that is
sent again and after a `Fin`. -/
structure TimerTimes where
  now : Nat
  checked : Nat → Nat
  resent : Nat → Nat
  fin : Nat

/-- What follows a frame: the next turn, chunks for the reader, or the end of the loop. -/
inductive Outcome where
  | next
  | deliver (chunks : List Bytes)
  | leave

namespace Session

def new (streamId : Nat) (initiator : Bool) (openPayload : Bytes) : Session where
  streamId := streamId
  initiator := initiator
  openPayload := openPayload
  receive := .new STREAM_WINDOW_BYTES
  send := .new STREAM_WINDOW_BYTES
  sentAt := ∅
  remoteWindow := STREAM_WINDOW_BYTES
  opened := !initiator
  ready := none
  openSentAt := none
  ackPending := false
  ackDeadline := none
  lastAcknowledgement := 0
  lastAdvertisedWindow := STREAM_WINDOW_BYTES
  finishRequested := false
  localFin := none
  finSentAt := none
  remoteFinSequence := none

variable (s : Session)

def sendData (sequence : Nat) (payload : Bytes) : Frame where
  kind := .data
  streamId := s.streamId
  sequence := sequence
  acknowledgement := s.receive.nextSequence
  receiveWindow := s.receive.availableBytes % 2 ^ 32
  payload := payload

def sendControl (kind : FrameKind) (sequence acknowledgement : Nat) : Frame where
  kind := kind
  streamId := s.streamId
  sequence := sequence
  acknowledgement := acknowledgement
  receiveWindow := s.receive.availableBytes % 2 ^ 32
  payload := []

def sendOpen : Frame where
  kind := .«open»
  streamId := s.streamId
  sequence := 0
  acknowledgement := s.receive.nextSequence
  receiveWindow := s.receive.availableBytes % 2 ^ 32
  payload := s.openPayload

/-- Sends through `ready_tx` where it is still there. -/
def makeReady (result : Except String Unit) : Session :=
  { s with ready := s.ready.or (some result) }

variable (now : Nat)

def requestAck (immediate : Bool) : Session :=
  let deadline := now + if immediate then 0 else ACK_DELAY
  { s with
    ackDeadline :=
      if !s.ackPending || s.ackDeadline.all (fun current => deadline < current) then some deadline
      else s.ackDeadline
    ackPending := true }

/-! ## The loop -/

def start : Session × List Frame :=
  if s.initiator then (s, [])
  else (s.makeReady (.ok ()), [s.sendControl .openAck 0 0])

variable (writeClosed writeEmpty : Bool)

def markFin : Session :=
  if s.localFin.isNone && readyToSendFin s.finishRequested writeClosed writeEmpty then
    { s with localFin := some s.send.nextSequence }
  else s

def openIfDue (times : TurnTimes) : Session × List Frame :=
  if s.initiator && !s.opened &&
      s.openSentAt.all (fun sent => OPEN_RETRANSMIT_AFTER ≤ times.checked - sent) then
    ({ s with openSentAt := some times.opened }, [s.sendOpen])
  else (s, [])

def retransmitDeadline : Option Nat :=
  s.send.firstSequence.bind fun sequence => (s.sentAt.lookup sequence).map (· + RETRANSMIT_AFTER)

def openDeadline : Option Nat :=
  if s.initiator && !s.opened then s.openSentAt.map (· + OPEN_RETRANSMIT_AFTER) else none

def finDeadline : Option Nat :=
  s.localFin.map fun _ => (s.finSentAt.map (· + FIN_RETRANSMIT_AFTER)).getD now

def writable : Bool :=
  s.opened && s.localFin.isNone &&
    decide (s.send.bufferedBytes + STREAM_DATA_BYTES ≤ STREAM_WINDOW_BYTES) &&
    decide (STREAM_DATA_BYTES ≤ s.remoteWindow)

def wait : Waiting where
  retransmitDeadline := s.retransmitDeadline
  finDeadline := s.finDeadline now
  timerDeadline := earliestTimerDeadline
    [s.ackDeadline, s.retransmitDeadline, s.openDeadline, s.finDeadline now]
  writable := s.writable

def beginTurn (times : TurnTimes) :
    Session × List Frame × Waiting :=
  let (s, frames) := (s.markFin writeClosed writeEmpty).openIfDue times
  (s, frames, s.wait times.fin)

def onAck (acknowledgement : Nat) : Session × Outcome :=
  let send := s.send.acknowledge acknowledgement
  let s := { s with send, sentAt := s.sentAt.retainKeys fun sequence => (send.get sequence).isSome }
  if s.localFin.any (· < acknowledgement) then
    let s := { s with localFin := none, finSentAt := none }
    (s, if remoteFinComplete s.remoteFinSequence s.receive.nextSequence then .leave else .next)
  else (s, .next)

def onFrame (frame : Frame) : Session × List Frame × Outcome :=
  let s := { s with remoteWindow := frame.receiveWindow }
  match frame.kind with
  | .«open» => (s, if s.initiator then [] else [s.sendControl .openAck 0 0], .next)
  | .openAck =>
    (if s.initiator then { s.makeReady (.ok ()) with opened := true } else s, [], .next)
  | .data =>
    match s.receive.insert frame.sequence frame.payload with
    | (.ok delivered, receive) => ({ s with receive }, [], .deliver delivered)
    | (.error _, receive) => ({ s with receive }.requestAck now false, [], .next)
  | .ack =>
    let (s, outcome) := s.onAck frame.acknowledgement
    (s, [], outcome)
  | .fin => ({ s with remoteFinSequence := some frame.sequence }.requestAck now true, [], .next)
  | .reset => (s.makeReady (.error "remote rejected overlay stream"), [], .leave)

/-- After the last chunk of a frame has been handed over. -/
def afterDelivery : Session :=
  s.requestAck now (decide (ACK_BATCH_BYTES ≤ s.receive.nextSequence - s.lastAcknowledgement))

def onWrite (bytes : Bytes) : Session × List Frame :=
  match s.send.push bytes with
  | (.ok sequence, send) =>
    let s := { s with send, remoteWindow := s.remoteWindow - bytes.length }
    ({ s with sentAt := s.sentAt.insert sequence now }, [s.sendData sequence bytes])
  | (.error _, send) => ({ s with send }, [])

/-- The flag says whether the loop goes on. -/
def onCommand : StreamCommand → Session × List Frame × Bool
  | .consumed bytes =>
    let s := { s with receive := s.receive.consume bytes }
    let immediate := decide
      (ACK_BATCH_BYTES ≤ s.receive.availableBytes - s.lastAdvertisedWindow)
    (s.requestAck now immediate, [], true)
  | .finish => ({ s with finishRequested := true }, [], true)
  | .reset => (s, [s.sendControl .reset 0 0], false)

def remoteComplete : Bool :=
  remoteFinComplete s.remoteFinSequence s.receive.nextSequence

def ackDue : Bool := s.ackPending && s.ackDeadline.any (· ≤ now)

/-- The acknowledgement of a timer that is due; the flag says whether the loop goes on. -/
def sendAck : Session × Frame × Bool :=
  let acknowledgement := wrappingAdd 64 s.receive.nextSequence (if s.remoteComplete then 1 else 0)
  ({ s with
    ackPending := false
    ackDeadline := none
    lastAcknowledgement := acknowledgement
    lastAdvertisedWindow := s.receive.availableBytes },
    s.sendControl .ack 0 acknowledgement,
    !(s.remoteComplete && decide (s.send.bufferedBytes = 0) && s.localFin.isNone))

def resend (times : TimerTimes) (sent : Session × List Frame) (sequence : Nat) :
    Session × List Frame :=
  match sent.1.send.get sequence with
  | some bytes =>
    ({ sent.1 with sentAt := sent.1.sentAt.insert sequence (times.resent sequence) },
      sent.2 ++ [sent.1.sendData sequence bytes])
  | none => sent

def retransmit (times : TimerTimes) : Session × List Frame :=
  let due := (s.sentAt.entries.filter fun entry =>
    RETRANSMIT_AFTER ≤ times.checked entry.1 - entry.2).map (·.1)
  due.foldl (resend times) (s, [])

def sendFin : Session × List Frame :=
  match s.localFin with
  | some sequence =>
    ({ s with finSentAt := some now },
      [s.sendControl .fin sequence s.receive.nextSequence])
  | none => (s, [])

/-- What a timer does after the acknowledgement. -/
def resendAndFinish (waiting : Waiting) (times : TimerTimes) : Session × List Frame :=
  let (s, resent) :=
    if waiting.retransmitDeadline.any (· ≤ times.now) then s.retransmit times else (s, [])
  let (s, fin) := if waiting.finDeadline.any (· ≤ times.now) then s.sendFin times.fin else (s, [])
  (s, resent ++ fin)

def onTimer (waiting : Waiting) (times : TimerTimes) : Session × List Frame × Bool :=
  if s.ackDue times.now then
    if s.sendAck.2.2 then
      let rest := s.sendAck.1.resendAndFinish waiting times
      (rest.1, s.sendAck.2.1 :: rest.2, true)
    else (s.sendAck.1, [s.sendAck.2.1], false)
  else
    let rest := s.resendAndFinish waiting times
    (rest.1, rest.2, true)

def leave : Session := s.makeReady (.error "overlay stream closed before opening")

/-! ## What a timer does -/

variable {s : Session} {waiting : Waiting} {times : TimerTimes} {frame : Frame}

/-- The frames of a timer: an acknowledgement, chunks that are still kept, and the `Fin`. -/
inductive TimerFrame (s : Session) : Frame → Prop
  | ack : TimerFrame s s.sendAck.2.1
  | data {sequence : Nat} {bytes : Bytes} (hbytes : s.send.get sequence = some bytes) :
      TimerFrame s (s.sendData sequence bytes)
  | fin {sequence : Nat} (hsequence : s.localFin = some sequence) :
      TimerFrame s (s.sendControl .fin sequence s.receive.nextSequence)

theorem resend_foldl (times : TimerTimes) (due : List Nat) (sent : Session × List Frame) :
    ∃ sentAt, (due.foldl (resend times) sent).1 = { sent.1 with sentAt } ∧
      (∀ sequence, sequence ∈ sent.1.sentAt → sequence ∈ sentAt) ∧
      ∀ frame ∈ (due.foldl (resend times) sent).2, frame ∈ sent.2 ∨
        ∃ sequence bytes, sent.1.send.get sequence = some bytes ∧
          frame = sent.1.sendData sequence bytes := by
  induction due generalizing sent with
  | nil => exact ⟨sent.1.sentAt, rfl, fun _ => id, fun _ h => .inl h⟩
  | cons sequence due ih =>
    rw [foldl_cons]
    have hrest := ih (resend times sent sequence)
    cases hget : sent.1.send.get sequence with
    | none =>
      rw [resend, hget] at hrest ⊢
      exact hrest
    | some bytes =>
      rw [resend, hget] at hrest ⊢
      obtain ⟨sentAt, hsession, hkeys, hframes⟩ := hrest
      refine ⟨sentAt, hsession, fun other hother => ?_, fun frame hframe => ?_⟩
      · exact hkeys other ((AList.mem_insert _).mpr (.inr hother))
      · rcases hframes frame hframe with hold | hnew
        · rcases mem_append.mp hold with hold | hlast
          · exact .inl hold
          · exact .inr ⟨sequence, bytes, hget, mem_singleton.mp hlast⟩
        · exact .inr hnew

theorem sendFin_spec (s : Session) (now : Nat) :
    ∃ finSentAt, (s.sendFin now).1 = { s with finSentAt } ∧
      ∀ frame ∈ (s.sendFin now).2, s.TimerFrame frame := by
  unfold sendFin
  split
  · next sequence hfin =>
    refine ⟨some now, rfl, fun frame hframe => ?_⟩
    rw [mem_singleton.mp hframe]
    exact .fin hfin
  · exact ⟨s.finSentAt, rfl, fun _ h => absurd h not_mem_nil⟩

/-- The frames of a timer do not depend on what it has already written. -/
theorem TimerFrame.of_written
    {ackPending ackDeadline lastAcknowledgement lastAdvertisedWindow sentAt}
    (h : TimerFrame { s with
      ackPending, ackDeadline, lastAcknowledgement, lastAdvertisedWindow, sentAt } frame) :
    s.TimerFrame frame := by
  cases h with
  | ack => exact .ack
  | data hbytes => exact .data hbytes
  | fin hsequence => exact .fin hsequence

theorem resendAndFinish_spec (s : Session) (waiting : Waiting) (times : TimerTimes) :
    ∃ sentAt finSentAt, (s.resendAndFinish waiting times).1 = { s with sentAt, finSentAt } ∧
      (∀ sequence, sequence ∈ s.sentAt → sequence ∈ sentAt) ∧
      ∀ frame ∈ (s.resendAndFinish waiting times).2, s.TimerFrame frame := by
  obtain ⟨sentAt, resent, hsent, hkeys, hframes⟩ : ∃ sentAt resent,
      (if waiting.retransmitDeadline.any (· ≤ times.now) then s.retransmit times else (s, [])) =
        ({ s with sentAt }, resent) ∧
      (∀ sequence, sequence ∈ s.sentAt → sequence ∈ sentAt) ∧
      ∀ frame ∈ resent, s.TimerFrame frame := by
    split_ifs
    · obtain ⟨sentAt, hsession, hkeys, hframes⟩ := resend_foldl times _ (s, [])
      refine ⟨sentAt, _, Prod.ext hsession rfl, hkeys, fun frame hframe => ?_⟩
      rcases hframes frame hframe with hnone | ⟨sequence, bytes, hget, rfl⟩
      · cases hnone
      · exact .data hget
    · exact ⟨s.sentAt, [], rfl, fun _ => id, fun _ h => absurd h not_mem_nil⟩
  rw [resendAndFinish, hsent]
  split_ifs
  · obtain ⟨finSentAt, hsession, hfin⟩ := sendFin_spec { s with sentAt } times.fin
    refine ⟨sentAt, finSentAt, hsession, hkeys, fun frame hframe => ?_⟩
    rcases mem_append.mp hframe with hold | hlast
    · exact hframes frame hold
    · exact (hfin frame hlast).of_written
  · exact ⟨sentAt, s.finSentAt, rfl, hkeys, by simpa using hframes⟩

theorem onTimer_spec (s : Session) (waiting : Waiting) (times : TimerTimes) :
    (∃ ackPending ackDeadline lastAcknowledgement lastAdvertisedWindow sentAt finSentAt,
      (s.onTimer waiting times).1 =
        { s with ackPending, ackDeadline, lastAcknowledgement, lastAdvertisedWindow, sentAt,
                 finSentAt } ∧
      (∀ sequence, sequence ∈ s.sentAt → sequence ∈ sentAt)) ∧
    ∀ frame ∈ (s.onTimer waiting times).2.1, s.TimerFrame frame := by
  unfold onTimer
  split_ifs
  · obtain ⟨sentAt, finSentAt, hsession, hkeys, hframes⟩ :=
      resendAndFinish_spec s.sendAck.1 waiting times
    refine ⟨⟨_, _, _, _, sentAt, finSentAt, hsession, hkeys⟩, fun frame hframe => ?_⟩
    rcases mem_cons.mp hframe with rfl | hframe
    · exact .ack
    · exact (hframes frame hframe).of_written
  · refine ⟨⟨_, _, _, _, s.sentAt, s.finSentAt, rfl, fun _ => id⟩, fun frame hframe => ?_⟩
    rw [mem_singleton.mp hframe]
    exact .ack
  · obtain ⟨sentAt, finSentAt, hsession, hkeys, hframes⟩ := resendAndFinish_spec s waiting times
    exact ⟨⟨_, _, _, _, sentAt, finSentAt, hsession, hkeys⟩, hframes⟩

/-- The loop ends with an acknowledgement of everything, where nothing waits for one. -/
theorem onTimer_leaves (h : (s.onTimer waiting times).2.2 = false) :
    s.remoteComplete = true ∧ s.send.bufferedBytes = 0 ∧ s.localFin = none := by
  unfold onTimer at h
  split_ifs at h with hdue hgoesOn
  simpa [sendAck, and_assoc] using hgoesOn

theorem onTimer_ack (s : Session) (waiting : Waiting) (times : TimerTimes) :
    ((s.onTimer waiting times).1.ackPending = s.ackPending ∧
      (s.onTimer waiting times).1.ackDeadline = s.ackDeadline) ∨
    ((s.onTimer waiting times).1.ackPending = false ∧
      (s.onTimer waiting times).2.1 ≠ []) := by
  unfold onTimer
  split_ifs
  · obtain ⟨_, _, hsession, -, -⟩ := resendAndFinish_spec s.sendAck.1 waiting times
    right
    rw [hsession]
    exact ⟨rfl, nofun⟩
  · exact .inr ⟨rfl, nofun⟩
  · obtain ⟨_, _, hsession, -, -⟩ := resendAndFinish_spec s waiting times
    left
    rw [hsession]
    exact ⟨rfl, rfl⟩

/-- A turn marks the `Fin` where the writer has finished, and may send an `Open`. -/
theorem beginTurn_spec (times : TurnTimes) :
    (∃ localFin openSentAt, (s.beginTurn writeClosed writeEmpty times).1 =
        { s with localFin, openSentAt } ∧
      (localFin = s.localFin ∨ localFin = some s.send.nextSequence ∧ s.localFin = none ∧
        s.finishRequested = true ∧ writeClosed = true ∧ writeEmpty = true)) ∧
    (∀ frame ∈ (s.beginTurn writeClosed writeEmpty times).2.1, frame = s.sendOpen) ∧
    (s.beginTurn writeClosed writeEmpty times).2.2 =
      (s.beginTurn writeClosed writeEmpty times).1.wait times.fin := by
  have hmark : ∃ localFin, s.markFin writeClosed writeEmpty = { s with localFin } ∧
      (localFin = s.localFin ∨ localFin = some s.send.nextSequence ∧ s.localFin = none ∧
        s.finishRequested = true ∧ writeClosed = true ∧ writeEmpty = true) := by
    unfold markFin readyToSendFin
    split_ifs with hready
    · simp only [Bool.and_eq_true, Option.isNone_iff_eq_none] at hready
      exact ⟨_, rfl, .inr ⟨rfl, hready.1, hready.2.1.1, hready.2.1.2, hready.2.2⟩⟩
    · exact ⟨s.localFin, rfl, .inl rfl⟩
  obtain ⟨localFin, hsession, hfin⟩ := hmark
  unfold beginTurn openIfDue
  rw [hsession]
  split_ifs
  · refine ⟨⟨localFin, _, rfl, hfin⟩, fun frame hframe => ?_, rfl⟩
    rw [mem_singleton.mp hframe]
    rfl
  · exact ⟨⟨localFin, s.openSentAt, rfl, hfin⟩, fun _ h => absurd h not_mem_nil, rfl⟩

/-- After the top of the loop a `Fin` is marked where the writer has finished. -/
theorem localFin_beginTurn (times : TurnTimes)
    (hnone : (s.beginTurn writeClosed writeEmpty times).1.localFin = none)
    (hrequested : s.finishRequested = true) (hclosed : writeClosed = true) :
    ¬writeEmpty = true := by
  rintro rfl
  subst hclosed
  have hmark : (s.beginTurn true true times).1.localFin = (s.markFin true true).localFin := by
    unfold beginTurn openIfDue
    split_ifs <;> rfl
  rw [hmark, markFin, readyToSendFin, hrequested] at hnone
  cases hfin : s.localFin with
  | none =>
    rw [hfin] at hnone
    cases hnone
  | some sequence =>
    rw [hfin] at hnone
    cases hfin.symm.trans hnone

end Session

end LowerTier.Gateway.OverlayStream
