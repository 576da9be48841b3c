import LowerTier.Gateway.OverlayStream.CleanEnd

/-!
# Closing the directions of a stream one by one

A session leaves its loop with both directions closed where a `Fin` reaches it after its own
writer has finished and its own `Fin` is acknowledged after that of the other side.  In the other
orders it leaves before its writer is done, or starts to send its `Fin` again.
-/

namespace LowerTier.Gateway.OverlayStream

open Endpoint Notice List ProofSupport ProofSupport.ByteString

variable {x y e e' : Endpoint} {frames acks out : List Frame} {acked rest delivered : List Bytes}
  {action : Action} {notices : List Notice}

/-- A `Fin` comes when the own one is marked, it is acknowledged when that of the other side is
complete, no `Reset` comes, and data comes while there is a reader. -/
def Endpoint.closesInOrder (e : Endpoint) : Action → Bool
  | .takeFrame _ =>
    match e.phase, e.frameQueue with
    | .waiting _, frame :: _ =>
      match frame.kind with
      | .reset => false
      | .fin => e.session.localFin.isSome
      | .ack =>
        !e.session.localFin.any (· < frame.acknowledgement) || e.session.remoteComplete
      | _ => true
    | _, _ => true
  | .handOver _ => e.phase.rest.isEmpty || !e.readerDropped
  | _ => true

structure Endpoint.Orderly (e : Endpoint) : Prop where
  /-- The `Fin` of the other side comes after the own one. -/
  fins : e.phase.isEnded = false → e.session.remoteFinSequence ≠ none → e.session.localFin ≠ none
  /-- The application shuts down before it drops the stream. -/
  shutdown : e.readerDropped = true → e.shutdownSent = true
  noReset : StreamCommand.reset ∉ e.commands

structure Endpoint.Closed (e : Endpoint) : Prop where
  finished : e.Finished
  acknowledged : e.session.send.chunks.entries = []
  complete : e.session.remoteComplete = true
  ended : e.phase.isEnded = true

/-- The two ways that frames of the network end a session out of order are ruled out. -/
theorem Endpoint.closesInOrder_frame {waiting : Waiting} {frame : Frame} {queue : List Frame}
    {now : Nat} (h : e.closesInOrder (.takeFrame now) = true) (hphase : e.phase = .waiting waiting)
    (hqueue : e.frameQueue = frame :: queue) :
    frame.kind ≠ .reset ∧ (frame.kind = .fin → e.session.localFin ≠ none) ∧
      (frame.kind = .ack → e.session.localFin.any (· < frame.acknowledgement) = true →
        e.session.remoteComplete = true) := by
  unfold closesInOrder at h
  rw [hphase, hqueue] at h
  dsimp only at h
  refine ⟨fun hkind => ?_, fun hkind => ?_, fun hkind hhigh => ?_⟩
  · rw [hkind] at h
    cases h
  · rw [hkind] at h
    exact Option.isSome_iff_ne_none.mp h
  · rw [hkind] at h
    rwa [hhigh, Bool.not_true, Bool.false_or] at h

theorem Endpoint.Orderly.same (h : e.Orderly) (hrunning : e.phase.isEnded = false)
    (hlocal : e.session.localFin ≠ none → e'.session.localFin ≠ none := by exact id)
    (hcommands : ∀ command ∈ e'.commands, command ∈ e.commands := by exact fun _ => id)
    (hremote : e'.session.remoteFinSequence = e.session.remoteFinSequence := by rfl)
    (hreader : e'.readerDropped = e.readerDropped := by rfl)
    (hshutdown : e'.shutdownSent = e.shutdownSent := by rfl) : e'.Orderly where
  fins _ hremote' := hlocal (h.fins hrunning (hremote ▸ hremote'))
  shutdown hdropped := by
    rw [hshutdown]
    exact h.shutdown (hreader.symm.trans hdropped)
  noReset hreset := h.noReset (hcommands _ hreset)

theorem Moves.orderly (h : e.Orderly) (hmove : Moves e action e' out notices)
    (horder : e.closesInOrder action = true)
    (hdrop : action = .dropReader → e.shutdownSent = true) : e'.Orderly := by
  have hwith : ∀ {command : StreamCommand}, command ≠ .reset →
      StreamCommand.reset ∉ e.commandsWith command := by
    intro command hne hmem
    rcases mem_commandsWith hmem with hold | hnew
    · exact h.noReset hold
    · exact hne hnew.symm
  cases hmove with
  | stay | endOfFile | refuse => exact h
  | accept | closeWriter | recv => exact { h with }
  | read => exact { h with noReset := hwith nofun }
  | finish => exact ⟨h.fins, fun _ => rfl, hwith nofun⟩
  | dropReader => exact ⟨h.fins, fun _ => hdrop rfl, h.noReset⟩
  | dropLifecycle hreader _ hfirst =>
    exact absurd (hfirst.symm.trans (h.shutdown hreader)) nofun
  | turn hphase hfin =>
    refine h.same (by rw [hphase]; rfl) fun hmarked => ?_
    rcases hfin with hsame | ⟨-, hnone, -⟩
    · exact hsame ▸ hmarked
    · exact absurd hnone hmarked
  | control hphase | dataRefused hphase | data hphase | ack hphase | write hphase
  | handedOver hphase | deliveryDone hphase => exact h.same (by rw [hphase]; rfl)
  | ackFin hphase hqueue hkind hhigh hopen =>
    have hcomplete := (closesInOrder_frame horder hphase hqueue).2.2 hkind hhigh
    cases hopen.symm.trans hcomplete
  | fin hphase hqueue hkind =>
    have hmarked := (closesInOrder_frame horder hphase hqueue).2.1 hkind
    exact ⟨fun _ _ => hmarked, h.shutdown, h.noReset⟩
  | ackLeave | reset | readerGone => exact ⟨nofun, h.shutdown, h.noReset⟩
  | consumed hphase hcommands | finishRequested hphase hcommands =>
    refine h.same (by rw [hphase]; rfl) id fun command hc => ?_
    rw [hcommands]
    exact mem_cons_of_mem _ hc
  | resetRequested _ hcommands => exact absurd (hcommands ▸ mem_cons_self) h.noReset
  | @timer times waiting _ hphase =>
    obtain ⟨⟨_, _, _, _, _, _, hsession, -⟩, -⟩ := e.session.onTimer_spec waiting times
    rw [hsession]
    exact h.same (by rw [hphase]; rfl)
  | timerLeave => exact ⟨nofun, h.shutdown, h.noReset⟩

/-- The acknowledgement of the `Fin` covers everything that the writer sent. -/
theorem Carries.ack_fin (h : Carries x y frames acks acked rest delivered)
    (hbound : x.accepted.flatten.length < 2 ^ 64) {acknowledgement : Nat}
    (hhigh : x.session.localFin.any (· < acknowledgement) = true) :
    x.Finished ∧ (x.session.send.acknowledge acknowledgement).chunks.entries = [] := by
  obtain ⟨n, hn, hlt⟩ := (Option.any_eq_true _ _).mp hhigh
  obtain ⟨rfl, hfinished⟩ := h.sender.localFin n hn
  refine ⟨hfinished, ?_⟩
  have hle := (of_decide_eq_true hlt).le
  exact (h.sender.holds.acknowledge_all hle (lt_of_le_of_lt h.sender.length_le hbound)).entries

theorem Carries.received_all (h : Carries x y frames acks acked rest delivered)
    (hclosed : x.Closed) : y.session.receive.nextSequence = x.accepted.flatten.length := by
  have hrest : rest = [] := by
    have hempty := h.sender.holds.entries.symm.trans hclosed.acknowledged
    cases rest with
    | nil => rfl
    | cons chunk rest => cases hempty
  have haccepted := h.sender.accepted
  rw [hclosed.finished.2.2, append_nil, hrest, append_nil] at haccepted
  have hle := h.receiver.follows.front.flatten.length_le
  rw [hrest, append_nil] at hle
  rw [h.receiver.follows.next, haccepted]
  exact le_antisymm hle h.forgotten

theorem Moves.closed_of_left (h : e.Orderly) (hmove : Moves e action e' out notices)
    (horder : e.closesInOrder action = true)
    (hcarries : Carries e y frames acks acked rest delivered)
    (hbound : e.accepted.flatten.length < 2 ^ 64) (hleft : Notice.left ∈ notices) : e'.Closed := by
  cases hmove with
  | ackLeave hphase hqueue hkind hhigh hcomplete =>
    obtain ⟨hfinished, hempty⟩ := hcarries.ack_fin hbound hhigh
    exact ⟨hfinished, hempty, hcomplete, rfl⟩
  | reset hphase hqueue hkind =>
    exact absurd hkind (closesInOrder_frame horder hphase hqueue).1
  | readerGone hphase hreader =>
    unfold closesInOrder at horder
    rw [hphase, hreader] at horder
    cases horder
  | resetRequested _ hcommands => exact absurd (hcommands ▸ mem_cons_self) h.noReset
  | timerLeave hphase hleaves =>
    obtain ⟨hcomplete, -, hnone⟩ := Session.onTimer_leaves hleaves
    refine absurd hnone (h.fins (by rw [hphase]; rfl) fun hremote => ?_)
    unfold Session.remoteComplete at hcomplete
    rw [hremote] at hcomplete
    cases hcomplete
  | timer _ _ hnotices =>
    rw [hnotices] at hleft
    split_ifs at hleft <;> simp at hleft
  | read _ _ hnotices =>
    rcases hnotices with rfl | ⟨-, rfl⟩ <;> simp at hleft
  | _ => simp at hleft

/-- An acknowledgement of the `Fin` is processed at the end of a session. -/
theorem Moves.ended_of_finAcknowledged (hmove : Moves e action e' out notices)
    (horder : e.closesInOrder action = true) (hnotice : finAcknowledged ∈ notices) :
    e'.phase.isEnded = true := by
  cases hmove with
  | ackLeave => rfl
  | ackFin hphase hqueue hkind hhigh hopen =>
    have hcomplete := (closesInOrder_frame horder hphase hqueue).2.2 hkind hhigh
    cases hopen.symm.trans hcomplete
  | timer _ _ hnotices =>
    rw [hnotices] at hnotice
    split_ifs at hnotice <;> simp at hnotice
  | timerLeave => rfl
  | read _ _ hnotices =>
    rcases hnotices with rfl | ⟨-, rfl⟩ <;> simp at hnotice
  | _ => simp at hnotice

theorem Moves.of_ended (hmove : Moves e action e' out notices) (hended : e.phase.isEnded = true) :
    e'.phase.isEnded = true ∧ finSent ∉ notices := by
  have hne : ∀ {phase : Phase}, phase.isEnded = false → e.phase ≠ phase := by
    intro phase hphase heq
    rw [heq] at hended
    cases hphase.symm.trans hended
  cases hmove with
  | turn hphase | control hphase | dataRefused hphase | data hphase | ack hphase | ackFin hphase
  | ackLeave hphase | fin hphase | reset hphase | deliveryDone hphase | readerGone hphase
  | handedOver hphase | write hphase | consumed hphase | finishRequested hphase
  | resetRequested hphase | timer hphase | timerLeave hphase => exact absurd hphase (hne rfl)
  | read _ _ hnotices =>
    rcases hnotices with rfl | ⟨-, rfl⟩ <;> exact ⟨hended, by simp⟩
  | _ => exact ⟨hended, by simp⟩

namespace System

variable {s : System} {history : List (Side × Notice)} {event : Event} {side : Side}

/-- What reaches a session reaches it in the order of `Endpoint.closesInOrder`. -/
def closesInOrder (s : System) : Event → Bool
  | .act side action => (s.endpoint side).closesInOrder action
  | _ => true

def dropsAfterShutdown (s : System) : Event → Bool
  | .act side .dropReader => (s.endpoint side).shutdownSent
  | _ => true

structure ClosingInOrder (s : System) (history : List (Side × Notice)) : Prop where
  bounded : s.Bounded
  consistent : s.Consistent
  orderly : ∀ side, (s.endpoint side).Orderly
  acknowledged : ∀ side, (side, finAcknowledged) ∈ history →
    (s.endpoint side).phase.isEnded = true

theorem closingInOrder_start (streamId : Nat) (openPayload : Bytes) :
    (start streamId openPayload).ClosingInOrder [] where
  bounded side := by cases side <;> exact Nat.two_pow_pos 64
  consistent := consistent_start streamId openPayload
  orderly side := by
    cases side <;> exact ⟨fun _ hremote => absurd rfl hremote, nofun, not_mem_nil⟩
  acknowledged _ := nofun

section

variable (h : s.ClosingInOrder history)
include h

theorem ClosingInOrder.step (hbound : (s.step event).1.Bounded)
    (horder : s.closesInOrder event = true) (hdrops : s.dropsAfterShutdown event = true) :
    (s.step event).1.ClosingInOrder (history ++ (s.step event).2) where
  bounded := hbound
  consistent := h.consistent.step hbound
  orderly side := by
    refine endpoint_step (R := fun e e' => e.Orderly → e'.Orderly)
      (fun e frameQueue hok => { hok with }) s event ?_
      (h.orderly side)
    rintro action rfl hok
    refine ((s.endpoint side).moves_act action).orderly hok horder ?_
    rintro rfl
    exact hdrops
  acknowledged side hnotice := by
    rcases mem_append.mp hnotice with hold | hnew
    · refine endpoint_step (R := fun e e' => e.phase.isEnded = true → e'.phase.isEnded = true)
        (fun _ _ hended => hended) s event (fun action _ hended => ?_) (h.acknowledged side hold)
      exact (((s.endpoint side).moves_act action).of_ended hended).1
    · obtain ⟨action, rfl, hacked⟩ := act_of_notice hnew
      rw [endpoint_act]
      exact ((s.endpoint side).moves_act action).ended_of_finAcknowledged horder hacked

theorem ClosingInOrder.closed (horder : s.closesInOrder event = true)
    (hleft : (side, Notice.left) ∈ (s.step event).2) : ((s.step event).1.endpoint side).Closed := by
  obtain ⟨action, rfl, hnotice⟩ := act_of_notice hleft
  obtain ⟨acked, rest, delivered, hcarries⟩ := h.consistent.carried side
  rw [endpoint_act]
  exact ((s.endpoint side).moves_act action).closed_of_left (h.orderly side) horder hcarries
    (h.bounded side) hnotice

theorem ClosingInOrder.received_all (hclosed : (s.endpoint side).Closed) :
    (s.endpoint side.other).session.receive.nextSequence =
      (s.endpoint side).accepted.flatten.length := by
  obtain ⟨acked, rest, delivered, hcarries⟩ := h.consistent.carried side
  exact hcarries.received_all hclosed

theorem ClosingInOrder.no_fin (hacked : (side, finAcknowledged) ∈ history) :
    (side, finSent) ∉ (s.step event).2 := by
  intro hsent
  obtain ⟨action, rfl, hnotice⟩ := act_of_notice hsent
  exact (((s.endpoint side).moves_act action).of_ended (h.acknowledged side hacked)).2 hnotice

end

/-- A session that leaves its loop has closed its stream and got the whole stream of the other side,
and none sends a `Fin` after one was acknowledged. -/
def LeavesClosed (s : System) (history : List (Side × Notice)) (event : Event) : Prop :=
  ∀ side, ((side, Notice.left) ∈ (s.step event).2 →
      ((s.step event).1.endpoint side).Closed ∧
        ((s.step event).1.endpoint side.other).session.receive.nextSequence =
          ((s.step event).1.endpoint side).accepted.flatten.length) ∧
    ((side, finAcknowledged) ∈ history → (side, finSent) ∉ (s.step event).2)

/-- Where the frames reach both sessions in the order of `closesInOrder` and the applications shut
their streams down before they drop them, a session leaves its loop after its writer was shut down
and everything was acknowledged, with the whole stream of the other side, and sends no `Fin` after
one has been acknowledged. -/
theorem half_close_in_order (streamId : Nat) (openPayload : Bytes) (events : List Event)
    (hbound : (Trace.run step (start streamId openPayload) events).1.Bounded)
    (hdrops : Trace.Always step (fun s _ event => s.dropsAfterShutdown event = true)
      (start streamId openPayload) [] events)
    (horder : Trace.Always step (fun s _ event => s.closesInOrder event = true)
      (start streamId openPayload) [] events) :
    Trace.Always step LeavesClosed (start streamId openPayload) [] events := by
  refine Trace.always_of_always (I := fun (s : System) history => s.ClosingInOrder history)
    (P := fun (s : System) _ event => (s.step event).1.Bounded ∧
      s.closesInOrder event = true ∧ s.dropsAfterShutdown event = true)
    ?_ ?_ (closingInOrder_start streamId openPayload)
    ((always_bounded hbound []).and (horder.and hdrops))
  · exact fun s history event h hnext => h.step hnext.1 hnext.2.1 hnext.2.2
  · intro s history event h hnext side
    refine ⟨fun hleft => ?_, fun hacked => h.no_fin hacked⟩
    have hclosed := h.closed hnext.2.1 hleft
    exact ⟨hclosed, (h.step hnext.1 hnext.2.1 hnext.2.2).received_all hclosed⟩

/-- Both applications shut down, each `Fin` finds the other one marked, and each side sees its own
acknowledged after that. -/
def bothShutDown : List Event :=
  oneChunk ++ [.act .left .closeWriter, .act .left .finish, .act .right .closeWriter,
    .act .right .finish, .act .left (turnAt 3), .act .left (.takeCommand 3), .act .left (turnAt 3),
    .act .right (.takeCommand 3), .act .right (turnAt 3), .act .left (timerAt 3),
    .act .right (timerAt 2000000), .act .left (turnAt 2000000), .act .right (turnAt 2000000),
    .deliver .left 1, .act .right (.takeFrame 2000000), .act .right (turnAt 2000000),
    .act .right (timerAt 2000000), .act .right (turnAt 2000000), .deliver .right 0,
    .act .left (.takeFrame 2000000), .act .left (turnAt 2000000), .deliver .right 0,
    .act .left (.takeFrame 2000000), .act .left (turnAt 2000000), .act .left (timerAt 2000000),
    .act .left (turnAt 2000000), .deliver .right 0, .act .left (.takeFrame 2000000),
    .deliver .left 1, .act .right (.takeFrame 2000000)]

theorem half_close_in_order_both :
    Trace.Always step LeavesClosed (start 7 []) [] bothShutDown ∧
    (Side.left, Notice.left) ∈ (Trace.run step (start 7 []) bothShutDown).2 ∧
    (Side.right, Notice.left) ∈ (Trace.run step (start 7 []) bothShutDown).2 := by
  refine ⟨half_close_in_order 7 [] bothShutDown (fun side => ?_) (by decide +kernel)
    (by decide +kernel), by decide +kernel, by decide +kernel⟩
  cases side <;> decide +kernel

/-- The left side shuts down while a chunk of the right side is not acknowledged. -/
def finAgain : List Event :=
  oneChunk ++ [.act .right (.pollWrite [9]), .act .right (.takeWrite 3), .act .right (turnAt 3)] ++
    leftShutDown ++ [.act .left (turnAt 3), .deliver .left 1, .act .right (.takeFrame 4),
      .act .right (turnAt 4), .act .right (timerAt 4), .deliver .right 1, .act .left (.takeFrame 5),
      .act .left (turnAt 5), .act .left (timerAt 5)]

/-- The right session leaves its loop with the `Fin` of the left side although its own writer is
open, and from then on writes fail; and a session whose `Fin` was acknowledged sends it again. No
application drops its stream in these runs. -/
theorem half_close_out_of_order :
    (Trace.Always step (fun s _ event => s.dropsAfterShutdown event = true) (start 7 []) []
        shutdownRun ∧
      (Side.right, Notice.left) ∈ (Trace.run step (start 7 []) shutdownRun).2 ∧
      ((Trace.run step (start 7 []) shutdownRun).1.endpoint .right).writeClosed = false ∧
      (((Trace.run step (start 7 []) shutdownRun).1.endpoint .right).pollWrite [9]).1 = .error) ∧
    (Trace.Always step (fun s _ event => s.dropsAfterShutdown event = true) (start 7 []) []
        finAgain ∧
      (Trace.run step (start 7 []) finAgain).2 =
        [(.left, .finSent), (.left, .finAcknowledged), (.left, .finSent)]) := by
  decide +kernel

end System

end LowerTier.Gateway.OverlayStream
