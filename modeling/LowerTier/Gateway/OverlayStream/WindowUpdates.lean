import LowerTier.Gateway.OverlayStream.HalfClose

/-!
# Window updates

A sender believes the window in the last frame that it took, and a window that has opened is
announced once.  So a chunk that waits for the window is sent in the end where the newest frame of
each side is not lost and not overtaken.  Without that both sides can wait for each other.
-/

namespace LowerTier.Gateway.OverlayStream

open Function Option List ProofSupport ProofSupport.ByteString ProofSupport.ChunkStream OrderedMap

variable {x x' y y' e e' : Endpoint} {out : List Frame} {action : Action} {notices : List Notice}

structure Endpoint.Timed (e : Endpoint) : Prop where
  ack : e.session.ackPending = true → e.session.ackDeadline ≠ none
  sent : ∀ entry ∈ e.session.send.chunks.entries, entry.1 ∈ e.session.sentAt

def Endpoint.Fits (e : Endpoint) : Prop :=
  ∀ waiting bytes queue, e.phase = .waiting waiting → waiting.writable = true →
    e.writeQueue = bytes :: queue → ∃ sequence, (e.session.send.push bytes).1 = .ok sequence

theorem Session.ackDeadline_requestAck (s : Session) (now : Nat) (immediate : Bool) :
    (s.requestAck now immediate).ackDeadline ≠ none := by
  unfold requestAck
  dsimp only
  generalize (now + if immediate then 0 else ACK_DELAY) = deadline
  split_ifs with hsooner
  · exact nofun
  · intro hnone
    rw [hnone] at hsooner
    simp at hsooner

theorem Endpoint.Timed.acknowledged (h : e.Timed) (acknowledgement : Nat) :
    ∀ entry ∈ (e.session.acknowledged acknowledgement).send.chunks.entries,
      entry.1 ∈ (e.session.acknowledged acknowledgement).sentAt := by
  intro entry hentry
  have hold := h.sent entry (SendWindow.mem_of_mem_acknowledge hentry)
  obtain ⟨time, htime⟩ := isSome_iff_exists.mp (AList.lookup_isSome.mpr hold)
  apply AList.lookup_isSome.mp
  rw [isSome_iff_exists]
  refine ⟨time, KeyedMap.lookup_retainKeys_of_keep htime ?_⟩
  exact isSome_iff_exists.mpr ⟨entry.2, lookup_of_mem hentry⟩

theorem Endpoint.Timed.timer (h : e.Timed) {waiting : Waiting} {times : TimerTimes} {phase : Phase}
    {ready : Option (Except String Unit)}
    (hstate : e' = { e with
      session := { (e.session.onTimer waiting times).1 with ready }
      phase }) : e'.Timed := by
  obtain ⟨⟨_, _, _, _, _, _, hsession, hkeys⟩, -⟩ := e.session.onTimer_spec waiting times
  have hack := e.session.onTimer_ack waiting times
  rw [hsession] at hack hstate
  subst hstate
  refine ⟨fun hpending hdead => ?_, fun entry hentry => hkeys _ (h.sent entry hentry)⟩
  rcases hack with ⟨hsame, hdeadline⟩ | ⟨hnone, -⟩
  · exact h.ack (hsame.symm.trans hpending) (hdeadline.symm.trans hdead)
  · cases hnone.symm.trans hpending

theorem Moves.timed (h : e.Timed) (hmove : Moves e action e' out notices) (hfits : e.Fits) :
    e'.Timed := by
  cases hmove with
  | stay | endOfFile | refuse => exact h
  | turn | control | data | reset | readerGone | handedOver | finishRequested | resetRequested
  | accept | closeWriter | finish | read | recv | dropReader | dropLifecycle =>
    exact ⟨h.ack, h.sent⟩
  | dataRefused | fin | consumed | deliveryDone =>
    exact ⟨fun _ => Session.ackDeadline_requestAck _ _ _, h.sent⟩
  | ack | ackFin | ackLeave => exact ⟨h.ack, h.acknowledged _⟩
  | write hphase hqueue hwritable hpush hresult =>
    obtain ⟨sequence, hok⟩ := hfits _ _ _ hphase hwritable hqueue
    rw [hpush] at hok
    obtain ⟨rfl, -, -⟩ := hresult sequence hok
    dsimp only at hok
    rw [hok] at hpush
    refine ⟨h.ack, fun entry hentry => (AList.mem_insert _).mpr ?_⟩
    exact ((SendWindow.push_ok hpush).2 entry hentry).imp_right (h.sent entry)
  | timer | timerLeave => exact h.timer rfl

/-! ## What a side believes of the window of the other -/

/-- The window that `x` will know of when it has taken the frames of `y`, of which this is the
newest, is not smaller than the window of `y`, apart from what `x` has sent since. -/
def Covered (x y : Endpoint) : Option Frame → Prop
  | none => y.session.receive.availableBytes ≤
      x.session.remoteWindow + x.session.send.bufferedBytes
  | some frame => y.session.receive.availableBytes ≤ frame.receiveWindow

theorem Moves.sender_window (hmove : Moves x action x' out notices) (hfits : x.Fits)
    (hrunning : x'.phase.isEnded = false) :
    (x'.frameQueue = x.frameQueue ∧
      x.session.remoteWindow + x.session.send.bufferedBytes ≤
        x'.session.remoteWindow + x'.session.send.bufferedBytes) ∨
    ∃ frame, x.frameQueue = frame :: x'.frameQueue ∧
      x'.session.remoteWindow = frame.receiveWindow := by
  cases hmove with
  | stay | endOfFile | refuse | turn | deliveryDone | handedOver | consumed | finishRequested
    | accept
  | closeWriter | finish | read | recv | dropReader | dropLifecycle => exact .inl ⟨rfl, le_refl _⟩
  | control _ hqueue | dataRefused _ hqueue | data _ hqueue | ack _ hqueue | ackFin _ hqueue
  | fin _ hqueue => exact .inr ⟨_, hqueue, rfl⟩
  | ackLeave | reset | readerGone | resetRequested | timerLeave => cases hrunning
  | write hphase hqueue hwritable hpush hresult =>
    obtain ⟨sequence, hok⟩ := hfits _ _ _ hphase hwritable hqueue
    rw [hpush] at hok
    obtain ⟨-, rfl, -⟩ := hresult sequence hok
    dsimp only at hok
    rw [hok] at hpush
    have hbuffered := (SendWindow.push_ok hpush).1
    refine .inl ⟨rfl, ?_⟩
    dsimp only
    omega
  | @timer times waiting =>
    obtain ⟨⟨_, _, _, _, _, _, hsession, -⟩, -⟩ := x.session.onTimer_spec waiting times
    rw [hsession]
    exact .inl ⟨rfl, le_refl _⟩

theorem announced_window {s : Session} (h : s.receive.capacity = STREAM_WINDOW_BYTES) :
    s.receive.availableBytes ≤ s.receive.availableBytes % 2 ^ 32 := by
  have hle : s.receive.availableBytes ≤ STREAM_WINDOW_BYTES := by
    unfold ReceiveWindow.availableBytes
    omega
  have hsmall : STREAM_WINDOW_BYTES < 2 ^ 32 := by decide
  rw [Nat.mod_eq_of_lt (hle.trans_lt hsmall)]

/-- While no acknowledgement is pending, the window only gets smaller, or a frame announces it. -/
theorem Moves.receiver_window (hmove : Moves y action y' out notices)
    (hcapacity : y.session.receive.capacity = STREAM_WINDOW_BYTES)
    (hquiet : y'.session.ackPending = false) (hrunning : y'.phase.isEnded = false) :
    (∀ frame ∈ out, y'.session.receive.availableBytes ≤ frame.receiveWindow) ∧
    (out ≠ [] ∨ y.session.ackPending = false ∧
      y'.session.receive.availableBytes ≤ y.session.receive.availableBytes) := by
  have hannounced := announced_window hcapacity
  cases hmove with
  | stay | endOfFile | handedOver | ack | ackFin | finishRequested | accept | closeWriter | finish
  | read | recv | dropReader | dropLifecycle => exact ⟨nofun, .inr ⟨hquiet, le_refl _⟩⟩
  | refuse hended => cases hrunning.symm.trans hended
  | turn _ _ _ hframes | control _ _ _ _ hframes =>
    refine ⟨fun frame hframe => ?_, .inr ⟨hquiet, le_refl _⟩⟩
    rw [hframes frame hframe]
    exact hannounced
  | @data _ _ frame _ _ _ _ _ _ hinsert =>
    have hle := y.session.receive.availableBytes_insert frame.sequence frame.payload
    rw [hinsert] at hle
    exact ⟨nofun, .inr ⟨hquiet, hle⟩⟩
  | dataRefused | fin | consumed | deliveryDone => cases hquiet
  | ackLeave | reset | readerGone | resetRequested | timerLeave => cases hrunning
  | @write _ _ _ _ result _ _ _ _ _ _ _ _ hresult herror =>
    refine ⟨fun frame hframe => ?_, .inr ⟨hquiet, le_refl _⟩⟩
    cases result with
    | ok sequence =>
      rw [(hresult sequence rfl).2.2] at hframe
      rw [mem_singleton.mp hframe]
      exact hannounced
    | error payload =>
      rw [herror payload rfl] at hframe
      cases hframe
  | @timer times waiting =>
    obtain ⟨⟨_, _, _, _, _, _, hsession, -⟩, hframes⟩ := y.session.onTimer_spec waiting times
    have hack := y.session.onTimer_ack waiting times
    rw [hsession] at hack hquiet ⊢
    refine ⟨fun frame hframe => ?_, ?_⟩
    · cases hframes frame hframe <;> exact hannounced
    · rcases hack with ⟨hsame, -⟩ | ⟨-, hsent⟩
      · exact .inr ⟨hsame.symm.trans hquiet, le_refl _⟩
      · exact .inl hsent

theorem Covered.sender {wire : List Frame} (h : Covered x y (x.frameQueue ++ wire).getLast?)
    (hmove : Moves x action x' out notices) (hfits : x.Fits)
    (hrunning : x'.phase.isEnded = false) : Covered x' y (x'.frameQueue ++ wire).getLast? := by
  rcases hmove.sender_window hfits hrunning with ⟨hqueue, hle⟩ | ⟨frame, hqueue, hwindow⟩
  · rw [hqueue]
    cases hlast : (x.frameQueue ++ wire).getLast? with
    | none =>
      rw [hlast] at h
      exact le_trans h hle
    | some newest =>
      rw [hlast] at h
      exact h
  · rw [hqueue, cons_append, getLast?_cons] at h
    cases hlast : (x'.frameQueue ++ wire).getLast? with
    | none =>
      rw [hlast] at h
      have hcovers : y.session.receive.availableBytes ≤ frame.receiveWindow := h
      show _ ≤ _
      omega
    | some newest =>
      rw [hlast] at h
      exact h

/-- The receiver announces its window, or has no more of it than before. -/
theorem Covered.receiver {pending : List Frame}
    (h : y.session.ackPending = false → Covered x y pending.getLast?)
    (hmove : Moves y action y' out notices)
    (hcapacity : y.session.receive.capacity = STREAM_WINDOW_BYTES)
    (hquiet : y'.session.ackPending = false) (hrunning : y'.phase.isEnded = false) :
    Covered x y' (pending ++ out).getLast? := by
  obtain ⟨hframes, hcases⟩ := hmove.receiver_window hcapacity hquiet hrunning
  cases hlast : out.getLast? with
  | some newest =>
    rw [getLast?_append, hlast]
    exact hframes newest (mem_of_getLast? hlast)
  | none =>
    have hnone : out = [] := getLast?_eq_none_iff.mp hlast
    obtain ⟨hquiet', hle⟩ := hcases.resolve_left fun hsent => hsent hnone
    rw [hnone, append_nil]
    have hbefore := h hquiet'
    cases hnewest : pending.getLast? with
    | none =>
      rw [hnewest] at hbefore
      exact le_trans hle hbefore
    | some newest =>
      rw [hnewest] at hbefore
      exact le_trans hle hbefore

/-! ## Frames under way -/

theorem getLast?_eraseIdx {α : Type} {l : List α} {i : Nat} (h : i + 1 ≠ l.length) :
    (l.eraseIdx i).getLast? = l.getLast? := by
  by_cases hlong : l.length ≤ i
  · rw [eraseIdx_of_length_le hlong]
  have hlast : l.getLast?.isSome := by
    rw [getLast?_isSome]
    rintro rfl
    simp at hlong
  rw [eraseIdx_eq_take_drop_succ, getLast?_append, getLast?_drop,
    if_neg (by omega), or_of_isSome hlast]

theorem getLast?_take_append_drop {α : Type} (l : List α) (i : Nat) :
    (l.take (i + 1) ++ l.drop i).getLast? = l.getLast? := by
  rw [getLast?_append, getLast?_drop]
  split_ifs with hlong
  · rw [none_or, take_of_length_le (by omega)]
  · have hlast : l.getLast?.isSome := by
      rw [getLast?_isSome]
      rintro rfl
      simp at hlong
    rw [or_of_isSome hlast]

namespace System

variable {s : System} {event : Event} {side : Side}

/-- The newest frame of a side is not lost, finds room, and arrives after all others. -/
def newestLast (s : System) : Event → Bool
  | .lose side i => decide (i + 1 ≠ (s.wire side).length)
  | .deliver side i =>
    decide (i + 1 ≠ (s.wire side).length ∨
      i = 0 ∧ (s.endpoint side.other).frameQueue.length < FRAME_QUEUE_PACKETS)
  | _ => true

def newest (s : System) (side : Side) : Option Frame :=
  ((s.endpoint side).frameQueue ++ s.wire side.other).getLast?

/-- Each side knows, or will know, of the window of the other. -/
def KnowsWindow (s : System) (side : Side) : Prop :=
  (s.endpoint side.other).session.ackPending = false →
    (s.endpoint side).phase.isEnded = false → (s.endpoint side.other).phase.isEnded = false →
      Covered (s.endpoint side) (s.endpoint side.other) (s.newest side)

structure Windows (s : System) : Prop where
  bounded : s.Bounded
  consistent : s.Consistent
  timed : ∀ side, (s.endpoint side).Timed
  knows : ∀ side, s.KnowsWindow side

theorem Consistent.fits (h : s.Consistent) (hbound : s.Bounded) (side : Side) :
    (s.endpoint side).Fits := by
  obtain ⟨acked, rest, delivered, hcarries⟩ := h.carried side
  exact (hcarries.delivers (h.waits side) (hbound side)).pushed

theorem Consistent.capacity (h : s.Consistent) (side : Side) :
    (s.endpoint side).session.receive.capacity = STREAM_WINDOW_BYTES := by
  obtain ⟨acked, rest, delivered, hcarries⟩ := h.carried side.other
  rw [Side.other_other] at hcarries
  exact hcarries.receiver.follows.capacity

theorem KnowsWindow.of_newest {s' : System} (h : s.KnowsWindow side)
    (hsame : (s'.endpoint side).session = (s.endpoint side).session)
    (hphase : (s'.endpoint side).phase = (s.endpoint side).phase)
    (hother : (s'.endpoint side.other).session = (s.endpoint side.other).session)
    (hphase' : (s'.endpoint side.other).phase = (s.endpoint side.other).phase)
    (hnewest : (s.endpoint side).phase.isEnded = false → s'.newest side = s.newest side) :
    s'.KnowsWindow side := by
  unfold KnowsWindow
  rw [hphase, hother, hphase']
  intro hquiet hrunning hrunning'
  have hcovered := h hquiet hrunning hrunning'
  rw [hnewest hrunning]
  unfold Covered at hcovered ⊢
  rw [hsame, hother]
  exact hcovered

theorem running_of_act (h : (e.act action).1.phase.isEnded = false) : e.phase.isEnded = false := by
  by_contra hended
  rw [Bool.not_eq_false] at hended
  exact absurd (h.symm.trans ((e.moves_act action).of_ended hended).1) nofun

theorem getLast?_arrive {wire : List Frame} {i : Nat} {frame : Frame}
    (hframe : wire[i]? = some frame) (hrunning : e.phase.isEnded = false)
    (hlast : i + 1 ≠ wire.length ∨ i = 0 ∧ e.frameQueue.length < FRAME_QUEUE_PACKETS) :
    ((arrive e frame).frameQueue ++ wire.eraseIdx i).getLast? =
      (e.frameQueue ++ wire).getLast? := by
  have hsome : wire.getLast?.isSome := by
    rw [getLast?_isSome]
    rintro rfl
    cases hframe
  by_cases hend : i + 1 = wire.length
  · obtain ⟨rfl, hroom⟩ := hlast.resolve_left (not_not_intro hend)
    obtain ⟨newest, rfl⟩ := length_eq_one_iff.mp hend.symm
    obtain rfl := some.inj hframe
    have harrive : (arrive e newest).frameQueue = e.frameQueue ++ [newest] := by
      unfold arrive
      rw [if_neg]
      rw [hrunning, not_or]
      exact ⟨Bool.false_ne_true, Nat.not_le.mpr hroom⟩
    rw [harrive]
    simp
  · rw [getLast?_append, getLast?_append, getLast?_eraseIdx hend,
      or_of_isSome hsome, or_of_isSome hsome]

theorem KnowsWindow.deliver (h : s.KnowsWindow side) {sending : Side} {i : Nat} {frame : Frame}
    (hframe : (s.wire sending)[i]? = some frame)
    (hlast : i + 1 ≠ (s.wire sending).length ∨
      i = 0 ∧ (s.endpoint sending.other).frameQueue.length < FRAME_QUEUE_PACKETS) :
    KnowsWindow
      { endpoint := update s.endpoint sending.other
          (arrive (s.endpoint sending.other) frame)
        wire := update s.wire sending ((s.wire sending).eraseIdx i) } side := by
  have hsame : ∀ side',
      (update s.endpoint sending.other (arrive (s.endpoint sending.other) frame)
        side').session = (s.endpoint side').session ∧
      (update s.endpoint sending.other (arrive (s.endpoint sending.other) frame)
        side').phase = (s.endpoint side').phase := by
    intro side'
    obtain ⟨queue, harrive, -⟩ := arrive_eq (s.endpoint sending.other)
    by_cases hside : side' = sending.other
    · subst hside
      rw [update_self, harrive]
      exact ⟨rfl, rfl⟩
    · rw [update_of_ne hside]
      exact ⟨rfl, rfl⟩
  refine h.of_newest (hsame side).1 (hsame side).2 (hsame side.other).1 (hsame side.other).2
    fun hrunning => ?_
  unfold newest
  dsimp only
  rcases Side.eq_or_eq sending side with rfl | rfl
  · rw [update_of_ne Side.other_ne.symm, update_of_ne Side.other_ne]
  · rw [Side.other_other, update_self, update_self]
    exact getLast?_arrive hframe hrunning hlast

theorem Windows.knows_step (h : s.Windows) (hnewest : s.newestLast event = true) :
    (s.step event).1.KnowsWindow side := by
  cases event with
  | act acting action =>
    have hmove := (s.endpoint acting).moves_act action
    have hne : side.other ≠ side := Side.other_ne
    unfold KnowsWindow newest System.step
    dsimp only
    rcases Side.eq_or_eq side acting with rfl | rfl
    · rw [update_self, update_of_ne hne, update_of_ne hne]
      intro hquiet hrunning hrunning'
      have hbefore := h.knows acting hquiet (running_of_act hrunning) hrunning'
      exact hbefore.sender hmove (h.consistent.fits h.bounded acting) hrunning
    rw [update_self, update_self, update_of_ne hne.symm]
    intro hquiet hrunning hrunning'
    rw [← append_assoc]
    refine Covered.receiver (fun hquiet' => ?_) hmove (h.consistent.capacity side.other) hquiet
      hrunning'
    exact h.knows side hquiet' hrunning (running_of_act hrunning')
  | lose losing i =>
    refine (h.knows side).of_newest rfl rfl rfl rfl fun _ => ?_
    unfold newest System.step
    dsimp only
    rw [getLast?_append, getLast?_append]
    by_cases hside : side.other = losing
    · subst hside
      rw [update_self, getLast?_eraseIdx (of_decide_eq_true hnewest)]
    · rw [update_of_ne hside]
  | duplicate doubling i =>
    refine (h.knows side).of_newest rfl rfl rfl rfl fun _ => ?_
    unfold newest System.step
    dsimp only
    rw [getLast?_append, getLast?_append]
    by_cases hside : side.other = doubling
    · subst hside
      rw [update_self, getLast?_take_append_drop]
    · rw [update_of_ne hside]
  | deliver sending i =>
    unfold System.step
    dsimp only
    cases hframe : (s.wire sending)[i]? with
    | none => exact h.knows side
    | some frame =>
      exact (h.knows side).deliver hframe (of_decide_eq_true hnewest)

theorem Windows.step (h : s.Windows) (hbound : (s.step event).1.Bounded)
    (hnewest : s.newestLast event = true) : (s.step event).1.Windows where
  bounded := hbound
  consistent := h.consistent.step hbound
  timed side := by
    refine endpoint_step (R := fun e e' => e.Timed → e'.Timed)
      (fun e frameQueue htimed => ⟨htimed.ack, htimed.sent⟩) s event ?_ (h.timed side)
    rintro action rfl htimed
    exact ((s.endpoint side).moves_act action).timed htimed (h.consistent.fits h.bounded side)
  knows side := h.knows_step hnewest

theorem windows_start (streamId : Nat) (openPayload : Bytes) :
    (start streamId openPayload).Windows where
  bounded side := by cases side <;> exact Nat.two_pow_pos 64
  consistent := consistent_start streamId openPayload
  timed side := by cases side <;> exact ⟨nofun, nofun⟩
  knows side := by
    cases side with
    | left => exact fun _ _ _ => announced_window rfl
    | right => exact fun _ _ _ => le_refl STREAM_WINDOW_BYTES

/-! ## Both sides wait -/

end System

/-- A session that has nothing to do until a frame or the application comes. -/
structure Endpoint.AtRest (e : Endpoint) : Prop where
  running : e.phase.isEnded = false
  unfinished : e.session.finishRequested = false
  opened : e.session.opened = true
  noFrame : e.frameQueue = []
  noCommand : e.commands = []
  noAckTimer : e.session.ackDeadline = none
  noRetransmitTimer : e.session.retransmitDeadline = none
  noOpenTimer : e.session.openDeadline = none
  noFinTimer : e.session.localFin = none

theorem Endpoint.Timed.nothing_sent (h : e.Timed) (hrest : e.AtRest) :
    e.session.send.chunks.entries = [] := by
  cases hentries : e.session.send.chunks.entries with
  | nil => rfl
  | cons entry entries =>
    have hmem := h.sent entry (hentries ▸ mem_cons_self)
    obtain ⟨time, htime⟩ := isSome_iff_exists.mp (AList.lookup_isSome.mpr hmem)
    have hfirst : e.session.send.firstSequence = some entry.1 := by
      unfold SendWindow.firstSequence first
      rw [hentries]
      rfl
    have hnone := hrest.noRetransmitTimer
    unfold Session.retransmitDeadline at hnone
    rw [hfirst, bind_some, htime] at hnone
    cases hnone

/-- Where everything is acknowledged and consumed, the whole window is free. -/
theorem Carries.whole_window {frames acks : List Frame} {acked rest delivered : List Bytes}
    (h : Carries x y frames acks acked rest delivered) (hempty : x.session.send.chunks.entries = [])
    (hrest : y.AtRest) (hconsumed : y.handed.length = y.session.receive.nextSequence) :
    x.session.send.bufferedBytes = 0 ∧
      y.session.receive.availableBytes = STREAM_WINDOW_BYTES := by
  have hnone : rest = [] := by
    have hplaced := h.sender.holds.entries.symm.trans hempty
    cases rest with
    | nil => rfl
    | cons chunk rest => cases hplaced
  have hfollows := h.receiver.follows
  -- a chunk before its turn would lie behind the end of the stream
  have hahead : y.session.receive.outOfOrder.entries = [] := by
    rw [eq_nil_iff_forall_not_mem]
    intro entry hentry
    obtain ⟨hchunk, hle⟩ := hfollows.ahead entry hentry
    have hend := hchunk.end_le
    have hpos : 0 < entry.2.length := length_pos_iff.mpr (h.sender.proper_pushed entry.2 hchunk.mem)
    have hforgotten := h.forgotten
    rw [hnone, append_nil] at hend
    rw [hfollows.next] at hle
    omega
  have hbytes : y.session.receive.outOfOrderBytes = 0 := by
    rw [hfollows.sum]
    unfold sumBy
    rw [hahead]
    rfl
  have hunconsumed := h.receiver.consumed hrest.running
  rw [hrest.noCommand, hconsumed, hfollows.next] at hunconsumed
  have hzero : y.session.receive.deliveredUnconsumed = 0 := by
    have hnothing : consumedBytes [] = 0 := rfl
    omega
  refine ⟨by rw [h.sender.holds.buffered, hnone]; rfl, ?_⟩
  unfold ReceiveWindow.availableBytes ReceiveWindow.bufferedBytes
  rw [hzero, hbytes, hfollows.capacity, Nat.add_zero, Nat.sub_zero]

namespace System

variable {s : System} {event : Event} {side : Side}

/-- Nothing happens any more by itself, everything that was given out has been consumed, and a
chunk waits that may not be sent. -/
structure Deadlocked (s : System) (side : Side) : Prop where
  atRest : ∀ side, (s.endpoint side).AtRest
  wire : ∀ side, s.wire side = []
  consumed : (s.endpoint side.other).handed.length =
    (s.endpoint side.other).session.receive.nextSequence
  queued : (s.endpoint side).writeQueue ≠ []
  blocked : (s.endpoint side).session.writable = false

theorem Windows.not_deadlocked (h : s.Windows) : ¬s.Deadlocked side := by
  intro hdead
  have hx := hdead.atRest side
  have hy := hdead.atRest side.other
  obtain ⟨acked, rest, delivered, hcarries⟩ := h.consistent.carried side
  obtain ⟨hbuffered, hroom⟩ :=
    hcarries.whole_window ((h.timed side).nothing_sent hx) hy hdead.consumed
  have hquiet : (s.endpoint side.other).session.ackPending = false := by
    rw [← Bool.not_eq_true]
    exact fun hpending => (h.timed side.other).ack hpending hy.noAckTimer
  have hcovered := h.knows side hquiet hx.running hy.running
  unfold newest at hcovered
  rw [hx.noFrame, hdead.wire side.other] at hcovered
  have hwindow : STREAM_WINDOW_BYTES ≤ (s.endpoint side).session.remoteWindow := by
    have hle : (s.endpoint side.other).session.receive.availableBytes ≤
      (s.endpoint side).session.remoteWindow + (s.endpoint side).session.send.bufferedBytes :=
        hcovered
    omega
  have hwritable : (s.endpoint side).session.writable = true := by
    unfold Session.writable
    rw [hx.opened, hx.noFinTimer, hbuffered]
    have hdata : STREAM_DATA_BYTES ≤ STREAM_WINDOW_BYTES := by decide
    simp only [isNone_none, Bool.and_true, Bool.true_and, Bool.and_eq_true, decide_eq_true_eq]
    omega
  cases hdead.blocked.symm.trans hwritable

end System

end LowerTier.Gateway.OverlayStream
