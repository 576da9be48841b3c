import LowerTier.Gateway.OverlayStream.Session
import LowerTier.ProofSupport.Trace

/-!
# Two endpoints of an overlay stream (`gateway/overlay_stream.rs`)

A session with its queues and the stream that its application holds, and two of them connected by
a network that loses, duplicates, delays and reorders frames.  A branch of the `select!` runs
whenever it is ready: the order in which the branches are polled only rules out some of the runs.
What the applications wrote and read is recorded beside the state.
-/

namespace LowerTier.Gateway.OverlayStream

open ProofSupport ProofSupport.ByteString

inductive Phase where
  /-- At the top of the loop. -/
  | turn
  /-- In the `select!`. -/
  | waiting (waiting : Waiting)
  /-- Handing the chunks of a frame to the reader. -/
  | delivering (rest : List Bytes)
  /-- The function has returned. -/
  | ended

def Phase.rest : Phase → List Bytes
  | .delivering rest => rest
  | _ => []

def Phase.isEnded : Phase → Bool
  | .ended => true
  | _ => false

structure Endpoint where
  session : Session
  phase : Phase
  frameQueue : List Frame
  writeQueue : List Bytes
  /-- All senders of the write queue are gone. -/
  writeClosed : Bool
  readQueue : List Bytes
  readerDropped : Bool
  commands : List StreamCommand
  shutdownSent : Bool
  readCurrent : Option Bytes
  /-- The chunks that the writer was told were accepted, in order. -/
  accepted : List Bytes
  /-- The bytes that the reader got, in order. -/
  handed : Bytes

inductive Notice where
  /-- An acknowledgement of the `Fin` was processed. -/
  | finAcknowledged
  | finSent
  /-- The session left its loop. -/
  | left
  /-- A read reported the end of the stream. -/
  | endOfFile
deriving DecidableEq, Repr

inductive PollResult where
  | ready (bytes : Nat)
  | error
  | pending
deriving DecidableEq, Repr

namespace Endpoint

def new (session : Session) : Endpoint where
  session := session
  phase := .turn
  frameQueue := []
  writeQueue := []
  writeClosed := false
  readQueue := []
  readerDropped := false
  commands := []
  shutdownSent := false
  readCurrent := none
  accepted := []
  handed := []

variable (e : Endpoint)

def leaveLoop : Endpoint := { e with session := e.session.leave, phase := .ended }

def turn (times : TurnTimes) : Endpoint × List Frame :=
  match e.phase with
  | .turn =>
    let (session, frames, waiting) :=
      e.session.beginTurn e.writeClosed e.writeQueue.isEmpty times
    ({ e with session, phase := .waiting waiting }, frames)
  | _ => (e, [])

/-- Whether the frame acknowledges the `Fin`. -/
def ackNotices (frame : Frame) : List Notice :=
  if frame.kind = .ack ∧ e.session.localFin.any (· < frame.acknowledgement) then
    [.finAcknowledged]
  else []

variable (now : Nat)

def takeFrame : Endpoint × List Frame × List Notice :=
  match e.phase, e.frameQueue with
  | .waiting _, frame :: rest =>
    let (session, frames, outcome) := e.session.onFrame now frame
    let next := { e with session, frameQueue := rest }
    match outcome with
    | .next => ({ next with phase := .turn }, frames, e.ackNotices frame)
    | .deliver chunks => ({ next with phase := .delivering chunks }, frames, e.ackNotices frame)
    | .leave => (next.leaveLoop, frames, e.ackNotices frame ++ [.left])
  | _, _ => (e, [], [])

/-- `read_tx.send`, which waits for room; without a reader the function returns. -/
def handOver : Endpoint × List Notice :=
  match e.phase with
  | .delivering [] => ({ e with session := e.session.afterDelivery now, phase := .turn }, [])
  | .delivering (bytes :: rest) =>
    if e.readerDropped then ({ e with phase := .ended }, [.left])
    else if e.readQueue.length < APP_READ_QUEUE_CHUNKS then
      ({ e with readQueue := e.readQueue ++ [bytes], phase := .delivering rest }, [])
    else (e, [])
  | _ => (e, [])

def takeWrite : Endpoint × List Frame :=
  match e.phase, e.writeQueue with
  | .waiting waiting, bytes :: rest =>
    if waiting.writable then
      let (session, frames) := e.session.onWrite now bytes
      ({ e with session, writeQueue := rest, phase := .turn }, frames)
    else (e, [])
  | _, _ => (e, [])

def takeCommand : Endpoint × List Frame × List Notice :=
  match e.phase, e.commands with
  | .waiting _, command :: rest =>
    let (session, frames, goesOn) := e.session.onCommand now command
    let e := { e with session, commands := rest }
    if goesOn then ({ e with phase := .turn }, frames, [])
    else (e.leaveLoop, frames, [.left])
  | _, _ => (e, [], [])

def fireTimer (times : TimerTimes) : Endpoint × List Frame × List Notice :=
  match e.phase with
  | .waiting waiting =>
    if waiting.timerDeadline.any (· ≤ times.now) then
      let (session, frames, goesOn) := e.session.onTimer waiting times
      let sent := if frames.any (·.kind = .fin) then [Notice.finSent] else []
      let e := { e with session }
      if goesOn then ({ e with phase := .turn }, frames, sent)
      else (e.leaveLoop, frames, sent ++ [.left])
    else (e, [], [])
  | _ => (e, [], [])

/-! ## The stream of the application -/

def sendCommand (command : StreamCommand) : Endpoint :=
  if e.phase.isEnded then e else { e with commands := e.commands ++ [command] }

/-- `poll_write`; the upload of `copy_bidirectional_owned` sends chunks of the same length. -/
def pollWrite (source : Bytes) : PollResult × Endpoint :=
  if source.isEmpty then (.ready 0, e)
  else if e.writeClosed || e.phase.isEnded then (.error, e)
  else if e.writeQueue.length < APP_WRITE_QUEUE_CHUNKS then
    let chunk := source.take STREAM_DATA_BYTES
    (.ready chunk.length,
      { e with writeQueue := e.writeQueue ++ [chunk], accepted := e.accepted ++ [chunk] })
  else (.pending, e)

/-- The first part of `poll_shutdown`, and the end of an upload. -/
def closeWriter : Endpoint := { e with writeClosed := true }

/-- `StreamLifecycle::finish`, which follows the end of the senders. -/
def finish : Endpoint :=
  if e.writeClosed ∧ ¬e.shutdownSent then { e with shutdownSent := true }.sendCommand .finish else e

/-- Bytes of the current chunk go to the reader. -/
def takeCurrent (current : Bytes) (remaining : Nat) : Endpoint :=
  { e with
    handed := e.handed ++ current.take remaining
    readCurrent := if (current.drop remaining).isEmpty then none else some (current.drop remaining)
  }.sendCommand (.consumed (current.take remaining).length)

def pollRead (remaining : Nat) : PollResult × Endpoint :=
  match e.readCurrent, e.readQueue with
  | some current, _ =>
    (.ready (current.take remaining).length, e.takeCurrent current remaining)
  | none, bytes :: rest =>
    (.ready (bytes.take remaining).length,
      { e with readQueue := rest }.takeCurrent bytes remaining)
  | none, [] => (if e.phase.isEnded then .ready 0 else .pending, e)

/-- The download of `copy_bidirectional_owned` receives a chunk; the flag says that there is no
more.  The copy drops the `read_current` of its stream, which is empty: `SocksTcpStream::transfer`,
its only caller, copies a stream that nothing was read from.  Here it is the chunk being written. -/
def recv : Bool × Endpoint :=
  match e.readCurrent, e.readQueue with
  | none, bytes :: rest => (false, { e with readCurrent := some bytes, readQueue := rest })
  | none, [] => (e.phase.isEnded, e)
  | some _, _ => (false, e)

def writeAll : Endpoint :=
  match e.readCurrent with
  | some current => e.takeCurrent current current.length
  | none => e

def dropReader : Endpoint :=
  { e with readerDropped := true, readQueue := [], readCurrent := none }

/-- The end of the `StreamLifecycle`, after that of the queues. -/
def dropLifecycle : Endpoint :=
  if e.readerDropped ∧ e.writeClosed ∧ ¬e.shutdownSent then
    { e with shutdownSent := true }.sendCommand .reset
  else e

/-- The `Reset` of an endpoint that refuses to open the stream, once there is no session. -/
def refusal : List Frame :=
  if e.phase.isEnded then
    [{ kind := .reset, streamId := e.session.streamId, sequence := 0, acknowledgement := 0,
       receiveWindow := 0, payload := [] }]
  else []

end Endpoint

inductive Action where
  | turn (times : TurnTimes)
  | takeFrame (now : Nat)
  | handOver (now : Nat)
  | takeWrite (now : Nat)
  | takeCommand (now : Nat)
  | fireTimer (times : TimerTimes)
  | pollWrite (source : Bytes)
  | closeWriter
  | finish
  | pollRead (remaining : Nat)
  | recv
  | writeAll
  | dropReader
  | dropLifecycle
  | refuse

def Endpoint.act (e : Endpoint) : Action → Endpoint × List Frame × List Notice
  | .turn times =>
    let (e, frames) := e.turn times
    (e, frames, [])
  | .takeFrame now => e.takeFrame now
  | .handOver now =>
    let (e, notices) := e.handOver now
    (e, [], notices)
  | .takeWrite now =>
    let (e, frames) := e.takeWrite now
    (e, frames, [])
  | .takeCommand now => e.takeCommand now
  | .fireTimer times => e.fireTimer times
  | .pollWrite source => ((e.pollWrite source).2, [], [])
  | .closeWriter => (e.closeWriter, [], [])
  | .finish => (e.finish, [], [])
  | .pollRead remaining =>
    if e.readerDropped then (e, [], [])
    else
      let (result, e) := e.pollRead remaining
      -- a read of nothing into a buffer with room is the end of the stream
      (e, [], if remaining ≠ 0 ∧ result = .ready 0 then [.endOfFile] else [])
  | .recv =>
    if e.readerDropped then (e, [], [])
    else
      let (closed, e) := e.recv
      (e, [], if closed then [.endOfFile] else [])
  | .writeAll => if e.readerDropped then (e, [], []) else (e.writeAll, [], [])
  | .dropReader => (e.dropReader, [], [])
  | .dropLifecycle => (e.dropLifecycle, [], [])
  | .refuse => (e, e.refusal, [])

inductive Side where
  | left
  | right
deriving DecidableEq, Repr

def Side.other : Side → Side
  | .left => .right
  | .right => .left

structure System where
  endpoint : Side → Endpoint
  wire : Side → List Frame

inductive Event where
  | act (side : Side) (action : Action)
  | lose (side : Side) (i : Nat)
  | duplicate (side : Side) (i : Nat)
  | deliver (side : Side) (i : Nat)

namespace System

def start (streamId : Nat) (openPayload : Bytes) : System where
  endpoint
    | .left => .new (Session.new streamId true openPayload).start.1
    | .right => .new (Session.new streamId false []).start.1
  wire
    | .left => (Session.new streamId true openPayload).start.2
    | .right => (Session.new streamId false []).start.2

def arrive (e : Endpoint) (frame : Frame) : Endpoint :=
  if e.phase.isEnded ∨ FRAME_QUEUE_PACKETS ≤ e.frameQueue.length then e
  else { e with frameQueue := e.frameQueue ++ [frame] }

def step (s : System) : Event → System × List (Side × Notice)
  | .act side action =>
    let (e, frames, notices) := (s.endpoint side).act action
    ({ endpoint := Function.update s.endpoint side e
       wire := Function.update s.wire side (s.wire side ++ frames) },
      notices.map (side, ·))
  | .lose side i =>
    ({ s with wire := Function.update s.wire side ((s.wire side).eraseIdx i) }, [])
  | .duplicate side i =>
    ({ s with
      wire := Function.update s.wire side ((s.wire side).take (i + 1) ++ (s.wire side).drop i) },
      [])
  | .deliver side i =>
    match (s.wire side)[i]? with
    | some frame =>
      ({ endpoint := Function.update s.endpoint side.other
           (arrive (s.endpoint side.other) frame)
         wire := Function.update s.wire side ((s.wire side).eraseIdx i) }, [])
    | none => (s, [])

end System

end LowerTier.Gateway.OverlayStream
