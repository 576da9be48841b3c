import LowerTier.Gateway.OverlayStream.Endpoints

/-!
# What an action can do to an endpoint

One constructor for everything that can happen at an endpoint, with its guard and its result.
Invariants are proved from these cases, without the definitions of the loop.
-/

namespace LowerTier.Gateway.OverlayStream

open Endpoint Session ProofSupport ProofSupport.ByteString

def Endpoint.Finished (e : Endpoint) : Prop :=
  e.session.finishRequested = true ∧ e.writeClosed = true ∧ e.writeQueue = []

def Session.withWindow (s : Session) (frame : Frame) : Session :=
  { s with remoteWindow := frame.receiveWindow }

def Session.acknowledged (s : Session) (acknowledgement : Nat) : Session :=
  { s with
    send := s.send.acknowledge acknowledgement
    sentAt := s.sentAt.retainKeys fun sequence =>
      ((s.send.acknowledge acknowledgement).get sequence).isSome }

namespace Session

variable {s : Session} {frame : Frame}

theorem onAck_of_high (h : s.localFin.any (· < frame.acknowledgement) = true) :
    (s.withWindow frame).onAck frame.acknowledgement =
      ({ (s.withWindow frame).acknowledged frame.acknowledgement with
          localFin := none
          finSentAt := none },
        if s.remoteComplete then .leave else .next) := if_pos h

end Session

/-- The chunk that a read takes from, and those behind it. -/
def Endpoint.Reads (e : Endpoint) (current : Bytes) (readQueue : List Bytes) : Prop :=
  e.readCurrent = some current ∧ readQueue = e.readQueue ∨
    e.readCurrent = none ∧ e.readQueue = current :: readQueue

/-- The commands after one is sent; there is no queue once the session has ended. -/
def Endpoint.commandsWith (e : Endpoint) (command : StreamCommand) : List StreamCommand :=
  if e.phase.isEnded then e.commands else e.commands ++ [command]

theorem Endpoint.sendCommand_eq (e : Endpoint) (command : StreamCommand) :
    e.sendCommand command = { e with commands := e.commandsWith command } := by
  unfold sendCommand commandsWith
  split_ifs <;> rfl

/-- What an action can do: the endpoint after it, the frames it sends and what is seen of it. -/
inductive Moves (e : Endpoint) : Action → Endpoint → List Frame → List Notice → Prop
  | stay {action} : Moves e action e [] []
  | turn {times localFin openSentAt frames}
      (hphase : e.phase = .turn)
      (hfin : localFin = e.session.localFin ∨ localFin = some e.session.send.nextSequence ∧
        e.session.localFin = none ∧ e.Finished)
      (hready : localFin = none → ¬e.Finished)
      (hframes : ∀ frame ∈ frames, frame = e.session.sendOpen) :
      Moves e (.turn times)
        { e with
          session := { e.session with localFin, openSentAt }
          phase := .waiting ({ e.session with localFin, openSentAt }.wait times.fin) }
        frames []
  | control {now waiting frame rest opened ready frames}
      (hphase : e.phase = .waiting waiting) (hqueue : e.frameQueue = frame :: rest)
      (hkind : frame.kind = .«open» ∨ frame.kind = .openAck)
      (hopened : e.session.opened = true → opened = true)
      (hframes : ∀ frame ∈ frames, frame = e.session.sendControl .openAck 0 0) :
      Moves e (.takeFrame now)
        { e with
          session := { e.session.withWindow frame with opened, ready }
          frameQueue := rest
          phase := .turn }
        frames []
  | dataRefused {now waiting frame rest error receive}
      (hphase : e.phase = .waiting waiting) (hqueue : e.frameQueue = frame :: rest)
      (hkind : frame.kind = .data)
      (hinsert : e.session.receive.insert frame.sequence frame.payload = (.error error, receive)) :
      Moves e (.takeFrame now)
        { e with
          session := { e.session.withWindow frame with receive }.requestAck now false
          frameQueue := rest
          phase := .turn }
        [] []
  | data {now waiting frame rest chunks receive}
      (hphase : e.phase = .waiting waiting) (hqueue : e.frameQueue = frame :: rest)
      (hkind : frame.kind = .data)
      (hinsert : e.session.receive.insert frame.sequence frame.payload = (.ok chunks, receive)) :
      Moves e (.takeFrame now)
        { e with
          session := { e.session.withWindow frame with receive }
          frameQueue := rest
          phase := .delivering chunks }
        [] []
  | ack {now waiting frame rest}
      (hphase : e.phase = .waiting waiting) (hqueue : e.frameQueue = frame :: rest)
      (hkind : frame.kind = .ack)
      (hlow : e.session.localFin.any (· < frame.acknowledgement) = false) :
      Moves e (.takeFrame now)
        { e with
          session := (e.session.withWindow frame).acknowledged frame.acknowledgement
          frameQueue := rest
          phase := .turn }
        [] []
  | ackFin {now waiting frame rest}
      (hphase : e.phase = .waiting waiting) (hqueue : e.frameQueue = frame :: rest)
      (hkind : frame.kind = .ack)
      (hhigh : e.session.localFin.any (· < frame.acknowledgement) = true)
      (hopen : e.session.remoteComplete = false) :
      Moves e (.takeFrame now)
        { e with
          session := { (e.session.withWindow frame).acknowledged frame.acknowledgement with
            localFin := none
            finSentAt := none }
          frameQueue := rest
          phase := .turn }
        [] [.finAcknowledged]
  | ackLeave {now waiting frame rest}
      (hphase : e.phase = .waiting waiting) (hqueue : e.frameQueue = frame :: rest)
      (hkind : frame.kind = .ack)
      (hhigh : e.session.localFin.any (· < frame.acknowledgement) = true)
      (hcomplete : e.session.remoteComplete = true) :
      Moves e (.takeFrame now)
        { e with
          session := { (e.session.withWindow frame).acknowledged frame.acknowledgement with
            localFin := none
            finSentAt := none }.leave
          frameQueue := rest
          phase := .ended }
        [] [.finAcknowledged, .left]
  | fin {now waiting frame rest}
      (hphase : e.phase = .waiting waiting) (hqueue : e.frameQueue = frame :: rest)
      (hkind : frame.kind = .fin) :
      Moves e (.takeFrame now)
        { e with
          session := { e.session.withWindow frame with
            remoteFinSequence := some frame.sequence }.requestAck now true
          frameQueue := rest
          phase := .turn }
        [] []
  | reset {now waiting frame rest ready}
      (hphase : e.phase = .waiting waiting) (hqueue : e.frameQueue = frame :: rest)
      (hkind : frame.kind = .reset) :
      Moves e (.takeFrame now)
        { e with
          session := { e.session.withWindow frame with ready }
          frameQueue := rest
          phase := .ended }
        [] [.left]
  | deliveryDone {now} (hphase : e.phase = .delivering []) :
      Moves e (.handOver now)
        { e with session := e.session.afterDelivery now, phase := .turn } [] []
  | readerGone {now bytes rest}
      (hphase : e.phase = .delivering (bytes :: rest)) (hreader : e.readerDropped = true) :
      Moves e (.handOver now) { e with phase := .ended } [] [.left]
  | handedOver {now bytes rest}
      (hphase : e.phase = .delivering (bytes :: rest)) (hreader : e.readerDropped = false)
      (hroom : e.readQueue.length < APP_READ_QUEUE_CHUNKS) :
      Moves e (.handOver now)
        { e with readQueue := e.readQueue ++ [bytes], phase := .delivering rest } [] []
  | write {now waiting bytes rest result send sentAt remoteWindow frames}
      (hphase : e.phase = .waiting waiting) (hqueue : e.writeQueue = bytes :: rest)
      (hwritable : waiting.writable = true) (hpush : e.session.send.push bytes = (result, send))
      (hresult : ∀ sequence, result = .ok sequence →
        sentAt = e.session.sentAt.insert sequence now ∧
          remoteWindow = e.session.remoteWindow - bytes.length ∧
            frames = [e.session.sendData sequence bytes])
      (herror : ∀ payload, result = .error payload → frames = []) :
      Moves e (.takeWrite now)
        { e with
          session := { e.session with send, sentAt, remoteWindow }
          writeQueue := rest
          phase := .turn }
        frames []
  | consumed {now waiting bytes rest immediate}
      (hphase : e.phase = .waiting waiting) (hcommands : e.commands = .consumed bytes :: rest) :
      Moves e (.takeCommand now)
        { e with
          session := { e.session with
            receive := e.session.receive.consume bytes }.requestAck now immediate
          commands := rest
          phase := .turn }
        [] []
  | finishRequested {now waiting rest}
      (hphase : e.phase = .waiting waiting) (hcommands : e.commands = .finish :: rest) :
      Moves e (.takeCommand now)
        { e with
          session := { e.session with finishRequested := true }
          commands := rest
          phase := .turn }
        [] []
  | resetRequested {now waiting rest}
      (hphase : e.phase = .waiting waiting) (hcommands : e.commands = .reset :: rest) :
      Moves e (.takeCommand now)
        { e with session := e.session.leave, commands := rest, phase := .ended }
        [e.session.sendControl .reset 0 0] [.left]
  | timer {times waiting notices}
      (hphase : e.phase = .waiting waiting)
      (hgoesOn : (e.session.onTimer waiting times).2.2 = true)
      (hnotices : notices = if (e.session.onTimer waiting times).2.1.any (·.kind = .fin) then
        [.finSent] else []) :
      Moves e (.fireTimer times)
        { e with session := (e.session.onTimer waiting times).1, phase := .turn }
        (e.session.onTimer waiting times).2.1 notices
  | timerLeave {times waiting notices}
      (hphase : e.phase = .waiting waiting)
      (hleaves : (e.session.onTimer waiting times).2.2 = false)
      (hnotices : notices = if (e.session.onTimer waiting times).2.1.any (·.kind = .fin) then
        [.finSent] else []) :
      Moves e (.fireTimer times)
        { e with session := (e.session.onTimer waiting times).1.leave, phase := .ended }
        (e.session.onTimer waiting times).2.1 (notices ++ [.left])
  | accept {source} (hsource : source ≠ []) (hopen : e.writeClosed = false)
      (hrunning : e.phase.isEnded = false) :
      Moves e (.pollWrite source)
        { e with
          writeQueue := e.writeQueue ++ [source.take STREAM_DATA_BYTES]
          accepted := e.accepted ++ [source.take STREAM_DATA_BYTES] }
        [] []
  | closeWriter : Moves e .closeWriter { e with writeClosed := true } [] []
  | finish (hclosed : e.writeClosed = true) (hfirst : e.shutdownSent = false) :
      Moves e .finish { e with shutdownSent := true, commands := e.commandsWith .finish } [] []
  | read {action current readQueue remaining notices}
      (hreader : e.readerDropped = false) (hcurrent : e.Reads current readQueue)
      (hnotices : notices = [] ∨ current = [] ∧ notices = [.endOfFile]) :
      Moves e action
        { e with
          readQueue
          handed := e.handed ++ current.take remaining
          readCurrent :=
            if (current.drop remaining).isEmpty then none else some (current.drop remaining)
          commands := e.commandsWith (.consumed (current.take remaining).length) }
        [] notices
  | recv {bytes rest} (hcurrent : e.readCurrent = none)
      (hqueue : e.readQueue = bytes :: rest) :
      Moves e .recv { e with readCurrent := some bytes, readQueue := rest } [] []
  | endOfFile {action} (hreader : e.readerDropped = false)
      (hcurrent : e.readCurrent = none) (hqueue : e.readQueue = [])
      (hended : e.phase.isEnded = true) : Moves e action e [] [.endOfFile]
  | dropReader :
      Moves e .dropReader
        { e with readerDropped := true, readQueue := [], readCurrent := none } [] []
  | dropLifecycle (hreader : e.readerDropped = true) (hclosed : e.writeClosed = true)
      (hfirst : e.shutdownSent = false) :
      Moves e .dropLifecycle
        { e with shutdownSent := true, commands := e.commandsWith .reset } [] []
  | refuse {frame} (hended : e.phase.isEnded = true) (hkind : frame.kind = .reset) :
      Moves e .refuse e [frame] []

namespace Endpoint

variable {e : Endpoint}

theorem moves_turn (times : TurnTimes) :
    Moves e (.turn times) (e.turn times).1 (e.turn times).2 [] := by
  unfold turn
  split
  · next hphase =>
    obtain ⟨⟨localFin, openSentAt, hsession, hfin⟩, hframes, hwaiting⟩ :=
      e.session.beginTurn_spec e.writeClosed e.writeQueue.isEmpty times
    have hready := e.session.localFin_beginTurn e.writeClosed e.writeQueue.isEmpty times
    rw [hsession] at hwaiting hready
    dsimp only
    rw [hwaiting, hsession]
    refine .turn hphase ?_ ?_ hframes
    · simpa [Finished] using hfin
    · rintro hnone ⟨hrequested, hclosed, hempty⟩
      exact hready hnone hrequested hclosed (by simp [hempty])
  · exact .stay

theorem ackNotices_of_ne {frame : Frame} (h : frame.kind ≠ .ack) : e.ackNotices frame = [] :=
  if_neg fun hack => h hack.1

variable {now : Nat}

theorem moves_takeFrame :
    Moves e (.takeFrame now) (e.takeFrame now).1 (e.takeFrame now).2.1 (e.takeFrame now).2.2 := by
  unfold takeFrame
  split
  · next waiting frame rest hphase hqueue =>
    cases hkind : frame.kind with
    | «open» =>
      rw [ackNotices_of_ne (hkind ▸ nofun), onFrame, hkind]
      refine @Moves.control e now waiting frame rest e.session.opened e.session.ready _
        hphase hqueue (.inl hkind) id fun reply hreply => ?_
      split_ifs at hreply
      · cases hreply
      · exact List.mem_singleton.mp hreply
    | openAck =>
      rw [ackNotices_of_ne (hkind ▸ nofun), onFrame, hkind]
      dsimp only
      by_cases hinitiator : e.session.initiator = true
      · rw [if_pos hinitiator]
        exact .control hphase hqueue (.inr hkind) (fun _ => rfl) nofun
      · rw [if_neg hinitiator]
        exact @Moves.control e now waiting frame rest e.session.opened e.session.ready _
          hphase hqueue (.inr hkind) id nofun
    | data =>
      rw [ackNotices_of_ne (hkind ▸ nofun), onFrame, hkind]
      cases hinsert : e.session.receive.insert frame.sequence frame.payload with
      | mk result receive =>
        cases result with
        | ok chunks => exact .data hphase hqueue hkind hinsert
        | error error => exact .dataRefused hphase hqueue hkind hinsert
    | ack =>
      have hframe : e.session.onFrame now frame =
          (((e.session.withWindow frame).onAck frame.acknowledgement).1, [],
            ((e.session.withWindow frame).onAck frame.acknowledgement).2) := by
        rw [onFrame, hkind]
        rfl
      rw [hframe]
      by_cases hhigh : e.session.localFin.any (· < frame.acknowledgement) = true
      · have hnotices : e.ackNotices frame = [.finAcknowledged] := if_pos ⟨hkind, hhigh⟩
        rw [onAck_of_high hhigh, hnotices]
        cases hcomplete : e.session.remoteComplete with
        | true => exact .ackLeave hphase hqueue hkind hhigh hcomplete
        | false => exact .ackFin hphase hqueue hkind hhigh hcomplete
      · have hnotices : e.ackNotices frame = [] := if_neg fun h => hhigh h.2
        have hack : (e.session.withWindow frame).onAck frame.acknowledgement = _ := if_neg hhigh
        rw [hack, hnotices]
        exact .ack hphase hqueue hkind (Bool.not_eq_true _ ▸ hhigh)
    | fin =>
      rw [ackNotices_of_ne (hkind ▸ nofun), onFrame, hkind]
      exact .fin hphase hqueue hkind
    | reset =>
      rw [ackNotices_of_ne (hkind ▸ nofun), onFrame, hkind]
      exact .reset hphase hqueue hkind
  · exact .stay

theorem moves_handOver : Moves e (.handOver now) (e.handOver now).1 [] (e.handOver now).2 := by
  unfold handOver
  split
  · next hphase => exact .deliveryDone hphase
  · next bytes rest hphase =>
    split_ifs with hreader hroom
    · exact .readerGone hphase hreader
    · exact .handedOver hphase (Bool.not_eq_true _ ▸ hreader) hroom
    · exact .stay
  · exact .stay

theorem moves_takeWrite : Moves e (.takeWrite now) (e.takeWrite now).1 (e.takeWrite now).2 [] := by
  unfold takeWrite
  split
  · next waiting bytes rest hphase hqueue =>
    split_ifs with hwritable
    · unfold onWrite
      cases hpush : e.session.send.push bytes with
      | mk result send =>
        cases result with
        | ok sequence =>
          refine .write hphase hqueue hwritable hpush ?_ nofun
          intro sequence' hsequence
          cases hsequence
          exact ⟨rfl, rfl, rfl⟩
        | error payload =>
          exact @Moves.write e now waiting bytes rest _ send e.session.sentAt
            e.session.remoteWindow _ hphase hqueue hwritable hpush nofun fun _ _ => rfl
    · exact .stay
  · exact .stay

theorem moves_takeCommand :
    Moves e (.takeCommand now) (e.takeCommand now).1 (e.takeCommand now).2.1
      (e.takeCommand now).2.2 := by
  unfold takeCommand
  split
  · next waiting command rest hphase hcommands =>
    cases command with
    | consumed bytes => exact .consumed hphase hcommands
    | finish => exact .finishRequested hphase hcommands
    | reset => exact .resetRequested hphase hcommands
  · exact .stay

theorem moves_fireTimer (times : TimerTimes) :
    Moves e (.fireTimer times) (e.fireTimer times).1 (e.fireTimer times).2.1
      (e.fireTimer times).2.2 := by
  unfold fireTimer
  split
  · next waiting hphase =>
    split
    · dsimp only
      cases hgoesOn : (e.session.onTimer waiting times).2.2 with
      | true => exact .timer hphase hgoesOn rfl
      | false => exact .timerLeave hphase hgoesOn rfl
    · exact .stay
  · exact .stay

theorem moves_pollWrite (source : Bytes) :
    Moves e (.pollWrite source) (e.pollWrite source).2 [] [] := by
  unfold pollWrite
  split_ifs with hempty hclosed hroom
  · exact .stay
  · exact .stay
  · rw [Bool.or_eq_true, not_or, Bool.not_eq_true, Bool.not_eq_true] at hclosed
    exact .accept (by simpa using hempty) hclosed.1 hclosed.2
  · exact .stay

theorem moves_takeCurrent {action : Action} {current : Bytes} {readQueue : List Bytes}
    (remaining : Nat) {notices : List Notice} (hreader : e.readerDropped = false)
    (hcurrent : e.Reads current readQueue)
    (hnotices : notices = [] ∨ current = [] ∧ notices = [.endOfFile]) :
    Moves e action ({ e with readQueue }.takeCurrent current remaining) [] notices := by
  unfold takeCurrent
  rw [sendCommand_eq]
  exact .read hreader hcurrent hnotices

theorem moves_pollRead (remaining : Nat) (hreader : e.readerDropped = false) :
    Moves e (.pollRead remaining) (e.pollRead remaining).2 []
      (if remaining ≠ 0 ∧ (e.pollRead remaining).1 = .ready 0 then [.endOfFile] else []) := by
  have hlength : ∀ current : Bytes,
      (if remaining ≠ 0 ∧ PollResult.ready (current.take remaining).length = .ready 0 then
        [Notice.endOfFile] else []) = [] ∨
      current = [] ∧
        (if remaining ≠ 0 ∧ PollResult.ready (current.take remaining).length = .ready 0 then
          [Notice.endOfFile] else []) = [.endOfFile] := by
    intro current
    split_ifs with hnothing
    · refine .inr ⟨List.length_eq_zero_iff.mp ?_, rfl⟩
      have hzero := PollResult.ready.inj hnothing.2
      rw [List.length_take] at hzero
      omega
    · exact .inl rfl
  unfold pollRead
  split
  · next current hcurrent =>
    exact moves_takeCurrent remaining hreader (.inl ⟨hcurrent, rfl⟩) (hlength current)
  · next bytes rest hcurrent hqueue =>
    exact moves_takeCurrent remaining hreader (.inr ⟨hcurrent, hqueue⟩) (hlength bytes)
  next hcurrent hqueue =>
  split_ifs with hended hnotice hnotice
  · exact .endOfFile hreader hcurrent hqueue hended
  · exact .stay
  · cases hnotice.2
  · exact .stay

theorem moves_recv (hreader : e.readerDropped = false) :
    Moves e .recv e.recv.2 [] (if e.recv.1 then [.endOfFile] else []) := by
  unfold recv
  split
  · next bytes rest hcurrent hqueue => exact .recv hcurrent hqueue
  · next hcurrent hqueue =>
    split_ifs with hended
    · exact .endOfFile hreader hcurrent hqueue hended
    · exact .stay
  · exact .stay

theorem moves_writeAll (hreader : e.readerDropped = false) :
    Moves e .writeAll e.writeAll [] [] := by
  unfold writeAll
  split
  · next current hcurrent =>
    exact moves_takeCurrent current.length hreader (.inl ⟨hcurrent, rfl⟩) (.inl rfl)
  · exact .stay

theorem moves_act (e : Endpoint) (action : Action) :
    Moves e action (e.act action).1 (e.act action).2.1 (e.act action).2.2 := by
  cases action with
  | turn times => exact moves_turn times
  | takeFrame now => exact moves_takeFrame
  | handOver now => exact moves_handOver
  | takeWrite now => exact moves_takeWrite
  | takeCommand now => exact moves_takeCommand
  | fireTimer times => exact moves_fireTimer times
  | pollWrite source => exact moves_pollWrite source
  | closeWriter => exact .closeWriter
  | finish =>
    unfold act finish
    dsimp only
    split_ifs with hfinish
    · rw [sendCommand_eq]
      exact .finish hfinish.1 (Bool.not_eq_true _ ▸ hfinish.2)
    · exact .stay
  | pollRead remaining =>
    unfold act
    cases hreader : e.readerDropped with
    | true => exact .stay
    | false => exact moves_pollRead remaining hreader
  | recv =>
    unfold act
    cases hreader : e.readerDropped with
    | true => exact .stay
    | false => exact moves_recv hreader
  | writeAll =>
    unfold act
    cases hreader : e.readerDropped with
    | true => exact .stay
    | false => exact moves_writeAll hreader
  | dropReader => exact .dropReader
  | dropLifecycle =>
    unfold act dropLifecycle
    dsimp only
    split_ifs with hdrop
    · rw [sendCommand_eq]
      exact .dropLifecycle hdrop.1 hdrop.2.1 (Bool.not_eq_true _ ▸ hdrop.2.2)
    · exact .stay
  | refuse =>
    unfold act refusal
    dsimp only
    split_ifs with hended
    · exact .refuse hended rfl
    · exact .stay

end Endpoint

end LowerTier.Gateway.OverlayStream
