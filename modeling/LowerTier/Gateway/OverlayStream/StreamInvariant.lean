import LowerTier.Gateway.OverlayStream.Moves

/-!
# One direction of an overlay stream

What connects the writer of one side with the reader of the other: the chunks that the writer got
rid of are the acknowledged ones, the sent ones and those in its queue; frames under way carry
chunks of that stream; the other side has given out a front part of it; and no acknowledgement
says more than that.
-/

namespace LowerTier.Gateway.OverlayStream

open Side Endpoint Function List ProofSupport ProofSupport.ByteString ProofSupport.ChunkStream
  ProofSupport.MachineInt

variable {x x' y y' : Endpoint} {acked rest acked' rest' delivered delivered' pushed : List Bytes}
  {frames frames' acks acks' : List Frame} {frame : Frame}

def Endpoint.Waits (e : Endpoint) : Prop :=
  ∀ waiting, e.phase = .waiting waiting → ∃ now, waiting = e.session.wait now

def Endpoint.output (y : Endpoint) : Bytes :=
  y.readCurrent.getD [] ++ y.readQueue.flatten ++ y.phase.rest.flatten

def consumedBytes (commands : List StreamCommand) : Nat :=
  (commands.map fun
    | .consumed bytes => bytes
    | _ => 0).sum

structure SenderOk (x : Endpoint) (acked rest : List Bytes) : Prop where
  accepted : x.accepted = acked ++ rest ++ x.writeQueue
  proper : ∀ chunk ∈ x.accepted, chunk ≠ [] ∧ chunk.length ≤ STREAM_DATA_BYTES
  holds : x.session.send.Holds acked rest
  localFin : ∀ n, x.session.localFin = some n → n = (acked ++ rest).flatten.length ∧ x.Finished

structure ReceiverOk (y : Endpoint) (finished : Prop) (pushed delivered : List Bytes) : Prop where
  follows : y.session.receive.Follows pushed delivered
  remoteFin : ∀ n, y.session.remoteFinSequence = some n → n = pushed.flatten.length ∧ finished
  output : y.readerDropped = false → y.handed ++ y.output = delivered.flatten
  handed : y.handed <+: delivered.flatten
  consumed : y.phase.isEnded = false →
    y.session.receive.deliveredUnconsumed + y.handed.length =
      delivered.flatten.length + consumedBytes y.commands

/-- A frame with data carries a chunk of the stream, and a `Fin` its length. -/
def FrameOk (finished : Prop) (pushed : List Bytes) (frame : Frame) : Prop :=
  (frame.kind = .data → ChunkAt pushed frame.sequence frame.payload) ∧
    (frame.kind = .fin → frame.sequence = pushed.flatten.length ∧ finished)

/-- An acknowledgement covers what has been given out, and one more for the `Fin` once that is
everything. -/
def AckOk (finished : Prop) (pushed delivered : List Bytes) (frame : Frame) : Prop :=
  frame.kind = .ack → frame.acknowledgement ≤ delivered.flatten.length ∨
    frame.acknowledgement ≤ delivered.flatten.length + 1 ∧ delivered = pushed ∧ finished

/-- The stream from the writer of `x` to the reader of `y`, with the frames of both that are not
processed yet. -/
structure Carries (x y : Endpoint) (frames acks : List Frame) (acked rest delivered : List Bytes) :
    Prop where
  sender : SenderOk x acked rest
  receiver : ReceiverOk y x.Finished (acked ++ rest) delivered
  frames : ∀ frame ∈ frames, FrameOk x.Finished (acked ++ rest) frame
  acks : ∀ frame ∈ acks, AckOk x.Finished (acked ++ rest) delivered frame
  forgotten : acked.flatten.length ≤ delivered.flatten.length

theorem SenderOk.proper_pushed (h : SenderOk x acked rest) :
    ∀ chunk ∈ acked ++ rest, chunk ≠ [] := by
  intro chunk hchunk
  refine (h.proper chunk ?_).1
  rw [h.accepted]
  exact mem_append_left _ hchunk

theorem SenderOk.length_le (h : SenderOk x acked rest) :
    (acked ++ rest).flatten.length ≤ x.accepted.flatten.length := by
  rw [h.accepted]
  simp

variable {finished : Prop}

theorem frameOk_of_kind (hdata : frame.kind ≠ .data) (hfin : frame.kind ≠ .fin) :
    FrameOk finished pushed frame :=
  ⟨fun h => absurd h hdata, fun h => absurd h hfin⟩

/-! ## Changes of one side -/

theorem ReceiverOk.mono {finished' : Prop} (h : ReceiverOk y finished pushed delivered)
    (more : List Bytes) (hfinished : finished → finished' ∧ more = []) :
    ReceiverOk y finished' (pushed ++ more) delivered := by
  refine { h with follows := h.follows.append more, remoteFin := fun n hn => ?_ }
  obtain ⟨hlength, hdone⟩ := h.remoteFin n hn
  obtain ⟨hdone', rfl⟩ := hfinished hdone
  exact ⟨by rw [hlength, append_nil], hdone'⟩

section

variable (h : Carries x y frames acks acked rest delivered)
include h

theorem Carries.sender_step (more : List Bytes) (hsender : SenderOk x' acked' rest')
    (hpushed : acked' ++ rest' = acked ++ rest ++ more)
    (hfinished : x.Finished → x'.Finished ∧ more = [])
    (hforgotten : acked'.flatten.length ≤ delivered.flatten.length)
    (hframes : ∀ frame ∈ frames', frame ∈ frames ∨ FrameOk x'.Finished (acked' ++ rest') frame)
    (hacks : ∀ frame ∈ acks', frame ∈ acks) :
    Carries x' y frames' acks' acked' rest' delivered where
  sender := hsender
  receiver := by
    rw [hpushed]
    exact h.receiver.mono more hfinished
  frames frame hframe := by
    rcases hframes frame hframe with hold | hnew
    · obtain ⟨hdata, hfin⟩ := h.frames frame hold
      refine ⟨fun hkind => ?_, fun hkind => ?_⟩
      · rw [hpushed]
        exact (hdata hkind).append more
      · obtain ⟨hlength, hdone⟩ := hfin hkind
        obtain ⟨hdone', rfl⟩ := hfinished hdone
        rw [hpushed, append_nil]
        exact ⟨hlength, hdone'⟩
    · exact hnew
  acks frame hframe hkind := by
    rcases h.acks frame (hacks frame hframe) hkind with hle | ⟨hle, hall, hdone⟩
    · exact .inl hle
    · obtain ⟨hdone', rfl⟩ := hfinished hdone
      rw [hpushed, append_nil]
      exact .inr ⟨hle, hall, hdone'⟩
  forgotten := hforgotten

theorem Carries.sender_same
    (hlocalFin : ∀ n, x'.session.localFin = some n →
      x.session.localFin = some n ∨ n = x.session.send.nextSequence ∧ x'.Finished)
    (hframes : ∀ frame ∈ frames', frame ∈ frames ∨ FrameOk x'.Finished (acked ++ rest) frame)
    (hclosed : x.writeClosed = true → x'.writeClosed = true := by exact id)
    (hfinish : x.session.finishRequested = true → x'.session.finishRequested = true := by exact id)
    (haccepted : x'.accepted = x.accepted := by rfl)
    (hqueue : x'.writeQueue = x.writeQueue := by rfl)
    (hsend : x'.session.send = x.session.send := by rfl)
    (hacks : ∀ frame ∈ acks', frame ∈ acks := by exact fun _ => id) :
    Carries x' y frames' acks' acked rest delivered := by
  have hfinished : x.Finished → x'.Finished := fun hdone =>
    ⟨hfinish hdone.1, hclosed hdone.2.1, hqueue.trans hdone.2.2⟩
  refine h.sender_step [] ⟨?_, ?_, ?_, ?_⟩ (append_nil _).symm
    (fun hdone => ⟨hfinished hdone, rfl⟩) h.forgotten hframes hacks
  · rw [haccepted, hqueue]
    exact h.sender.accepted
  · rw [haccepted]
    exact h.sender.proper
  · rw [hsend]
    exact h.sender.holds
  · intro n hn
    rcases hlocalFin n hn with hold | ⟨rfl, hdone⟩
    · obtain ⟨hlength, hdone⟩ := h.sender.localFin n hold
      exact ⟨hlength, hfinished hdone⟩
    · exact ⟨h.sender.holds.next, hdone⟩

theorem Carries.receiver_step (hreceiver : ReceiverOk y' x.Finished (acked ++ rest) delivered')
    (hdelivered : delivered <+: delivered') (hframes : ∀ frame ∈ frames', frame ∈ frames)
    (hacks : ∀ frame ∈ acks', frame ∈ acks ∨
      AckOk x.Finished (acked ++ rest) delivered' frame) :
    Carries x y' frames' acks' acked rest delivered' := by
  have hlength : delivered.flatten.length ≤ delivered'.flatten.length := by
    obtain ⟨more, rfl⟩ := hdelivered
    simp
  refine ⟨h.sender, hreceiver, fun frame hframe => h.frames frame (hframes frame hframe), ?_,
    h.forgotten.trans hlength⟩
  intro frame hframe
  rcases hacks frame hframe with hold | hnew
  · intro hkind
    rcases h.acks frame hold hkind with hle | ⟨hle, hall, hdone⟩
    · exact .inl (hle.trans hlength)
    · have hall' : delivered' = acked ++ rest :=
        hreceiver.follows.front.eq_of_length_le (hall ▸ hdelivered.length_le)
      exact .inr ⟨by omega, hall', hdone⟩
  · exact hnew

end

/-! ## Moves of the sending side -/

variable {notices : List Notice} {action : Action}

theorem Moves.waits (h : Moves x action x' frames notices) (hwaits : x.Waits) : x'.Waits := by
  intro waiting hwaiting
  cases h with
  | stay | endOfFile | refuse => exact hwaits waiting hwaiting
  | turn => exact ⟨_, (Phase.waiting.inj hwaiting).symm⟩
  | accept | closeWriter | finish | read | recv | dropReader | dropLifecycle =>
    exact hwaits waiting hwaiting
  | _ => cases hwaiting

variable {waiting : Waiting}

/-- A waiting session that may write has room for a whole chunk in its window. -/
theorem Endpoint.Waits.room (hwaits : x.Waits)
    (hphase : x.phase = .waiting waiting) (hwritable : waiting.writable = true) :
    x.session.localFin = none ∧
      x.session.send.bufferedBytes + STREAM_DATA_BYTES ≤ STREAM_WINDOW_BYTES ∧
        STREAM_DATA_BYTES ≤ x.session.remoteWindow := by
  obtain ⟨now, rfl⟩ := hwaits waiting hphase
  have hflag : x.session.writable = true := hwritable
  simp only [Session.writable, Bool.and_eq_true, decide_eq_true_eq, Option.isNone_iff_eq_none]
    at hflag
  exact ⟨hflag.1.1.2, hflag.1.2, hflag.2⟩

variable {bytes : Bytes} {queue : List Bytes}

theorem SenderOk.push (h : SenderOk x acked rest) (hwaits : x.Waits)
    (hbound : x.accepted.flatten.length < 2 ^ 64) (hphase : x.phase = .waiting waiting)
    (hqueue : x.writeQueue = bytes :: queue) (hwritable : waiting.writable = true) :
    (x.session.send.push bytes).1 = .ok (acked ++ rest).flatten.length ∧
      (x.session.send.push bytes).2.Holds acked (rest ++ [bytes]) := by
  obtain ⟨-, hroom, -⟩ := hwaits.room hphase hwritable
  have haccepted := h.accepted
  rw [hqueue] at haccepted
  obtain ⟨hbytes, hlength⟩ := h.proper bytes (by rw [haccepted]; simp)
  refine h.holds.push h.proper_pushed hbytes ?_ ?_
  · rw [h.holds.capacity]
    omega
  · refine lt_of_le_of_lt ?_ hbound
    rw [haccepted]
    simp only [flatten_append, flatten_cons, length_append, flatten_nil, append_nil]
    omega

theorem SenderOk.timerFrame (h : SenderOk x acked rest) (hframe : x.session.TimerFrame frame) :
    FrameOk x.Finished (acked ++ rest) frame := by
  cases hframe with
  | ack => exact frameOk_of_kind nofun nofun
  | @data sequence bytes hbytes =>
    refine ⟨fun _ => ?_, nofun⟩
    have hmem := OrderedMap.mem_of_lookup hbytes
    rw [h.holds.entries] at hmem
    have hplaced : placed 0 (acked ++ rest) =
        placed 0 acked ++ placed (0 + acked.flatten.length) rest := placed_append
    rw [Nat.zero_add] at hplaced
    unfold ChunkAt
    rw [hplaced]
    exact mem_append_right _ hmem
  | fin hsequence => exact ⟨nofun, fun _ => h.localFin _ hsequence⟩

variable {out : List Frame} {phase : Phase}

section

variable (h : Carries x y frames acks acked rest delivered)
include h

theorem Carries.acknowledge (hbound : x.accepted.flatten.length < 2 ^ 64) (hframe : frame ∈ acks)
    (hkind : frame.kind = .ack) :
    ∃ front back, rest = front ++ back ∧
      (x.session.send.acknowledge frame.acknowledgement).Holds (acked ++ front) back ∧
      (acked ++ front).flatten.length ≤ delivered.flatten.length := by
  obtain ⟨front, back, hrest, hholds, hfront⟩ :=
    h.sender.holds.acknowledge frame.acknowledgement (lt_of_le_of_lt h.sender.length_le hbound)
  refine ⟨front, back, hrest, hholds, ?_⟩
  rcases hfront with rfl | hle
  · rw [append_nil]
    exact h.forgotten
  · rcases h.acks frame hframe hkind with hcovers | ⟨-, rfl, -⟩
    · exact hle.trans hcovers
    · rw [hrest]
      simp

theorem Carries.sender_ack (hbound : x'.accepted.flatten.length < 2 ^ 64) (hframe : frame ∈ acks)
    (hkind : frame.kind = .ack) (haccepted : x'.accepted = x.accepted)
    (hqueue : x'.writeQueue = x.writeQueue) (hclosed : x'.writeClosed = x.writeClosed)
    (hfinish : x'.session.finishRequested = x.session.finishRequested)
    (hsend : x'.session.send = x.session.send.acknowledge frame.acknowledgement)
    (hfin : ∀ n, x'.session.localFin = some n → x.session.localFin = some n) :
    ∃ acked' rest', Carries x' y frames acks acked' rest' delivered := by
  rw [haccepted] at hbound
  obtain ⟨front, back, rfl, hholds, hforgotten⟩ := h.acknowledge hbound hframe hkind
  have hfinished : x.Finished → x'.Finished := fun hdone =>
    ⟨hfinish.trans hdone.1, hclosed.trans hdone.2.1, hqueue.trans hdone.2.2⟩
  refine ⟨acked ++ front, back, h.sender_step [] ⟨?_, ?_, ?_, ?_⟩ (by simp)
    (fun hdone => ⟨hfinished hdone, rfl⟩) hforgotten (fun _ hf => .inl hf) fun _ => id⟩
  · rw [haccepted, hqueue, h.sender.accepted]
    simp
  · rw [haccepted]
    exact h.sender.proper
  · rw [hsend]
    exact hholds
  · intro n hn
    obtain ⟨hlength, hdone⟩ := h.sender.localFin n (hfin n hn)
    exact ⟨by rw [hlength, append_assoc], hfinished hdone⟩

variable {times : TimerTimes} {ready : Option (Except String Unit)}

theorem Carries.sender_timer (hstate : x' = { x with
      session := { (x.session.onTimer waiting times).1 with ready }
      phase }) :
    Carries x' y (frames ++ (x.session.onTimer waiting times).2.1) acks acked rest delivered := by
  obtain ⟨⟨ackPending, ackDeadline, lastAcknowledgement, lastAdvertisedWindow, sentAt, finSentAt,
    hsession, -⟩, hout⟩ := x.session.onTimer_spec waiting times
  rw [hsession] at hstate
  subst hstate
  refine h.sender_same (fun n hn => .inl hn) fun frame hframe => ?_
  exact (mem_append.mp hframe).imp_right fun hnew => h.sender.timerFrame (hout frame hnew)

theorem Carries.sender_accept {source : Bytes}
    (hsource : source ≠ []) (hopen : x.writeClosed = false) :
    Carries { x with
        writeQueue := x.writeQueue ++ [source.take STREAM_DATA_BYTES]
        accepted := x.accepted ++ [source.take STREAM_DATA_BYTES] }
      y frames acks acked rest delivered := by
  have hunfinished : ¬x.Finished := fun hdone => absurd (hopen.symm.trans hdone.2.1) nofun
  refine h.sender_step [] ⟨?_, ?_, h.sender.holds, ?_⟩ (append_nil _).symm
    (fun hdone => absurd hdone hunfinished) h.forgotten (fun _ hf => .inl hf) fun _ => id
  · rw [h.sender.accepted, append_assoc]
  · intro chunk hchunk
    rcases mem_append.mp hchunk with hold | hnew
    · exact h.sender.proper chunk hold
    · have hpos : 0 < source.length := length_pos_iff.mpr hsource
      rw [mem_singleton.mp hnew, ← length_pos_iff, length_take]
      unfold STREAM_DATA_BYTES
      omega
  · exact fun n hn => absurd (h.sender.localFin n hn).2 hunfinished

theorem Carries.sender_write (hwaits : x.Waits) (hbound : x.accepted.flatten.length < 2 ^ 64)
    {now : Nat} {result : Except Bytes Nat} {send : SendWindow} {sentAt : KeyedMap Nat Nat}
    {remoteWindow : Nat} (hphase : x.phase = .waiting waiting)
    (hqueue : x.writeQueue = bytes :: queue) (hwritable : waiting.writable = true)
    (hpush : x.session.send.push bytes = (result, send))
    (hresult : ∀ sequence, result = .ok sequence →
      sentAt = x.session.sentAt.insert sequence now ∧
        remoteWindow = x.session.remoteWindow - bytes.length ∧
          out = [x.session.sendData sequence bytes]) :
    Carries { x with
        session := { x.session with send, sentAt, remoteWindow }
        writeQueue := queue
        phase := .turn }
      y (frames ++ out) acks acked (rest ++ [bytes]) delivered := by
  obtain ⟨hok, hholds⟩ := h.sender.push hwaits hbound hphase hqueue hwritable
  rw [hpush] at hok hholds
  obtain ⟨-, -, rfl⟩ := hresult _ hok
  have hunfinished : ¬x.Finished := fun hdone => absurd (hqueue.symm.trans hdone.2.2) nofun
  refine h.sender_step [bytes] ⟨?_, h.sender.proper, hholds, ?_⟩
    (append_assoc _ _ _).symm (fun hdone => absurd hdone hunfinished) h.forgotten ?_
    fun _ => id
  · have haccepted := h.sender.accepted
    rw [hqueue] at haccepted
    rw [haccepted]
    simp
  · intro n hn
    have hnone := (hwaits.room hphase hwritable).1
    cases hnone.symm.trans hn
  · intro frame hframe
    rcases mem_append.mp hframe with hold | hnew
    · exact .inl hold
    · rw [mem_singleton.mp hnew]
      refine .inr ⟨fun _ => ?_, nofun⟩
      rw [← append_assoc]
      exact ChunkAt.last _ _

theorem Carries.sender_moves (hwaits : x.Waits) (hmove : Moves x action x' out notices)
    (hbound : x'.accepted.flatten.length < 2 ^ 64) (hqueue : ∀ frame ∈ x.frameQueue, frame ∈ acks) :
    ∃ acked' rest', Carries x' y (frames ++ out) acks acked' rest' delivered := by
  -- frames that carry nothing of this direction
  have hquiet : ∀ {finished : Prop}, (∀ frame ∈ out, FrameOk finished (acked ++ rest) frame) →
      ∀ frame ∈ frames ++ out, frame ∈ frames ∨ FrameOk finished (acked ++ rest) frame :=
    fun hout frame hframe => (mem_append.mp hframe).imp_right (hout frame)
  have hnone : ∀ {finished : Prop}, ∀ frame ∈ ([] : List Frame),
      FrameOk finished (acked ++ rest) frame := fun frame hframe => absurd hframe not_mem_nil
  have hkeep : ∀ {s : Session}, s.localFin = x.session.localFin → ∀ n, s.localFin = some n →
      x.session.localFin = some n ∨ n = x.session.send.nextSequence ∧ x'.Finished :=
    fun hsame n hn => .inl (hsame ▸ hn)
  cases hmove with
  | stay | endOfFile | dataRefused | data | fin | reset | deliveryDone | readerGone | handedOver |
    consumed | finish | read | recv | dropReader | dropLifecycle =>
      exact ⟨acked, rest, h.sender_same (hkeep rfl) (hquiet hnone)⟩
  | finishRequested =>
    exact ⟨acked, rest, h.sender_same (hkeep rfl) (hquiet hnone) id fun _ => rfl⟩
  | closeWriter =>
    exact ⟨acked, rest, h.sender_same (hkeep rfl) (hquiet hnone) fun _ => rfl⟩
  | turn hphase hfin hready hframes =>
    refine ⟨acked, rest, h.sender_same ?_ (hquiet fun frame hframe => ?_)⟩
    · rintro n hn
      rcases hfin with hsame | ⟨hsome, -, hfinished⟩
      · exact .inl (hsame ▸ hn)
      · exact .inr ⟨(Option.some.inj (hsome.symm.trans hn)).symm, hfinished⟩
    · rw [hframes frame hframe]
      exact frameOk_of_kind nofun nofun
  | control hphase hqueue' hkind hopened hframes =>
    refine ⟨acked, rest, h.sender_same (hkeep rfl) (hquiet fun frame hframe => ?_)⟩
    rw [hframes frame hframe]
    exact frameOk_of_kind nofun nofun
  | resetRequested =>
    refine ⟨acked, rest, h.sender_same (hkeep rfl) (hquiet fun frame hframe => ?_)⟩
    rw [mem_singleton.mp hframe]
    exact frameOk_of_kind nofun nofun
  | refuse hended hkind =>
    refine ⟨acked, rest, h.sender_same (hkeep rfl) (hquiet fun frame hframe => ?_)⟩
    rw [mem_singleton.mp hframe]
    exact frameOk_of_kind (hkind ▸ nofun) (hkind ▸ nofun)
  | ack hphase hframes hkind hlow =>
    rw [append_nil]
    exact h.sender_ack hbound (hqueue _ (hframes ▸ mem_cons_self)) hkind rfl rfl
      rfl rfl rfl fun _ hn => hn
  | ackFin hphase hframes hkind | ackLeave hphase hframes hkind =>
    rw [append_nil]
    exact h.sender_ack hbound (hqueue _ (hframes ▸ mem_cons_self)) hkind rfl rfl rfl rfl rfl nofun
  | write hphase hchunks hwritable hpush hresult herror =>
    exact ⟨acked, _, h.sender_write hwaits hbound hphase hchunks hwritable hpush hresult⟩
  | timer | timerLeave => exact ⟨acked, rest, h.sender_timer rfl⟩
  | accept hsource hopen =>
    rw [append_nil]
    exact ⟨acked, rest, h.sender_accept hsource hopen⟩

end

/-! ## Moves of the receiving side -/

/-- A session that was not handing anything over goes on somewhere else. -/
theorem output_of_phase {phase phase' : Phase} (hphase : y.phase = phase) (hrest : phase.rest = [])
    (hrest' : phase'.rest = []) (hphase' : y'.phase = phase')
    (hcurrent : y'.readCurrent = y.readCurrent) (hqueue : y'.readQueue = y.readQueue) :
    y'.output = y.output := by
  unfold output
  rw [hphase, hphase', hrest, hrest', hcurrent, hqueue]

theorem eq_of_length_le {front all : List Bytes} (h : front <+: all)
    (hproper : ∀ chunk ∈ all, chunk ≠ []) (hlength : all.flatten.length ≤ front.flatten.length) :
    front = all := by
  obtain ⟨more, rfl⟩ := h
  cases more with
  | nil => exact (append_nil front).symm
  | cons chunk more =>
    have hpos : 0 < chunk.length := length_pos_iff.mpr (hproper chunk (by simp))
    simp only [flatten_append, flatten_cons, length_append] at hlength
    omega

theorem consumedBytes_append (commands : List StreamCommand) (command : StreamCommand) :
    consumedBytes (commands ++ [command]) = consumedBytes commands + consumedBytes [command] := by
  simp [consumedBytes]

theorem consumedBytes_commandsWith {command : StreamCommand} (hrunning : y.phase.isEnded = false)
    (hnothing : consumedBytes [command] = 0) :
    consumedBytes (y.commandsWith command) = consumedBytes y.commands := by
  unfold commandsWith
  rw [hrunning, if_neg Bool.false_ne_true, consumedBytes_append, hnothing, Nat.add_zero]

section

variable (h : ReceiverOk y finished pushed delivered)
include h

/-- The receiving side keeps what it has received, given out and reported. -/
theorem ReceiverOk.same (hreceive : y'.session.receive = y.session.receive)
    (hremote : y'.session.remoteFinSequence = y.session.remoteFinSequence)
    (hhanded : y'.handed = y.handed) (hreader : y'.readerDropped = y.readerDropped)
    (houtput : y'.output = y.output)
    (hcommands : y'.phase.isEnded = false →
      y.phase.isEnded = false ∧ consumedBytes y'.commands = consumedBytes y.commands) :
    ReceiverOk y' finished pushed delivered where
  follows := by
    rw [hreceive]
    exact h.follows
  remoteFin := by
    rw [hremote]
    exact h.remoteFin
  output hdropped := by
    rw [hhanded, houtput]
    exact h.output (hreader ▸ hdropped)
  handed := by
    rw [hhanded]
    exact h.handed
  consumed hrunning := by
    obtain ⟨hrunning, hsame⟩ := hcommands hrunning
    rw [hreceive, hhanded, hsame]
    exact h.consumed hrunning

/-- A session that was not handing anything over goes on with what it has received. -/
theorem ReceiverOk.of_phase (hphase : y.phase = phase) (hrest : phase.rest = [])
    (hrunning : phase.isEnded = false)
    {session : Session} {phase' : Phase} {frameQueue : List Frame} {writeQueue : List Bytes}
    (hreceive : session.receive = y.session.receive)
    (hremote : session.remoteFinSequence = y.session.remoteFinSequence)
    (hrest' : phase'.rest = []) :
    ReceiverOk { y with session, frameQueue, writeQueue, phase := phase' } finished pushed
      delivered :=
  h.same hreceive hremote rfl rfl (output_of_phase hphase hrest hrest' rfl rfl rfl)
    fun _ => ⟨hphase ▸ hrunning, rfl⟩

theorem ReceiverOk.read (hreader : y.readerDropped = false) {current : Bytes}
    {readQueue : List Bytes} (remaining : Nat)
    (hcurrent : y.Reads current readQueue) :
    ReceiverOk { y with
        readQueue
        handed := y.handed ++ current.take remaining
        readCurrent :=
          if (current.drop remaining).isEmpty then none else some (current.drop remaining)
        commands := y.commandsWith (.consumed (current.take remaining).length) }
      finished pushed delivered := by
  have hleft : (if (current.drop remaining).isEmpty then none
      else some (current.drop remaining)).getD [] = current.drop remaining := by
    split_ifs with hempty
    · exact (isEmpty_iff.mp hempty).symm
    · rfl
  have hout : y.output = current ++ readQueue.flatten ++ y.phase.rest.flatten := by
    unfold Endpoint.output
    rcases hcurrent with ⟨hcurrent, rfl⟩ | ⟨hcurrent, hqueue⟩
    · rw [hcurrent]
      rfl
    · rw [hcurrent, hqueue]
      simp
  have hsplit : (y.handed ++ current.take remaining) ++
      (current.drop remaining ++ readQueue.flatten ++ y.phase.rest.flatten) =
        delivered.flatten := by
    rw [← h.output hreader, hout]
    conv_rhs => rw [← take_append_drop remaining current]
    simp only [append_assoc]
  refine ⟨h.follows, h.remoteFin, fun _ => ?_, ⟨_, hsplit⟩, fun hrunning => ?_⟩
  · unfold Endpoint.output
    rw [hleft]
    exact hsplit
  · have hsum := h.consumed hrunning
    have hcommands : y.commandsWith (.consumed (current.take remaining).length) =
        y.commands ++ [.consumed (current.take remaining).length] :=
      if_neg (hrunning ▸ Bool.false_ne_true)
    rw [hcommands, consumedBytes_append, length_append]
    simp only [consumedBytes, map_cons, map_nil, sum_cons, sum_nil, Nat.add_zero]
    unfold consumedBytes at hsum
    omega

theorem ReceiverOk.consume (hphase : y.phase = .waiting waiting) {bytes : Nat}
    {commands : List StreamCommand}
    (hcommands : y.commands = .consumed bytes :: commands) (now : Nat) (immediate : Bool) :
    ReceiverOk { y with
        session := { y.session with
          receive := y.session.receive.consume bytes }.requestAck now immediate
        commands
        phase := .turn }
      finished pushed delivered where
  follows := h.follows.consume bytes
  remoteFin := h.remoteFin
  output hreader := by
    have hout := h.output hreader
    unfold Endpoint.output at hout ⊢
    rw [hphase] at hout
    exact hout
  handed := h.handed
  consumed _ := by
    have hsum := h.consumed (by rw [hphase]; rfl)
    have hle := h.handed.length_le
    rw [hcommands] at hsum
    have hhead : consumedBytes (.consumed bytes :: commands) = bytes + consumedBytes commands := by
      simp [consumedBytes]
    dsimp only [Session.requestAck, ReceiveWindow.consume]
    omega

theorem ReceiverOk.deliver (hphase : y.phase = .waiting waiting) {chunks : List Bytes}
    {session : Session} {frameQueue : List Frame}
    (hstate : y' = { y with session, frameQueue, phase := .delivering chunks })
    (hfollows : session.receive.Follows pushed (delivered ++ chunks))
    (hbytes : session.receive.deliveredUnconsumed =
      y.session.receive.deliveredUnconsumed + chunks.flatten.length)
    (hremote : session.remoteFinSequence = y.session.remoteFinSequence) :
    ReceiverOk y' finished pushed (delivered ++ chunks) := by
  subst hstate
  refine {
    follows := hfollows, remoteFin := hremote ▸ h.remoteFin, output := fun hreader => ?_,
    handed := ?_, consumed := fun _ => ?_ }
  · have hout := h.output hreader
    unfold Endpoint.output at hout ⊢
    rw [hphase] at hout
    rw [flatten_append, ← hout]
    simp [Phase.rest]
  · rw [flatten_append]
    exact h.handed.trans (prefix_append _ _)
  · have hsum := h.consumed (by rw [hphase]; rfl)
    dsimp only
    rw [hbytes, flatten_append, length_append]
    omega

end

section

variable (h : Carries x y frames acks acked rest delivered)
include h

/-- Once the `Fin` of the writer is complete, everything has been given out. -/
theorem Carries.complete (hcomplete : y.session.remoteComplete = true) :
    delivered = acked ++ rest ∧ x.Finished := by
  obtain ⟨n, hn, hle⟩ := (Option.any_eq_true _ _).mp hcomplete
  obtain ⟨rfl, hfinished⟩ := h.receiver.remoteFin n hn
  refine ⟨eq_of_length_le h.receiver.follows.front h.sender.proper_pushed ?_, hfinished⟩
  rw [← h.receiver.follows.next]
  exact of_decide_eq_true hle

theorem Carries.ackOk_sendAck :
    AckOk x.Finished (acked ++ rest) delivered y.session.sendAck.2.1 := by
  intro _
  have hnext := h.receiver.follows.next
  unfold Session.sendAck Session.sendControl
  rw [hnext]
  by_cases hcomplete : y.session.remoteComplete = true
  · obtain ⟨hall, hfinished⟩ := h.complete hcomplete
    rw [if_pos hcomplete]
    exact .inr ⟨Nat.mod_le _ _, hall, hfinished⟩
  · rw [if_neg hcomplete]
    exact .inl (Nat.mod_le _ _)

theorem Carries.receiver_data (hbound : x.accepted.flatten.length < 2 ^ 64)
    (hframe : frame ∈ frames)
    (hkind : frame.kind = .data) :
    y.session.receive.insert frame.sequence frame.payload = (.error .full, y.session.receive) ∨
      ∃ out next, y.session.receive.insert frame.sequence frame.payload = (.ok out, next) ∧
        next.Follows (acked ++ rest) (delivered ++ out) ∧
        next.deliveredUnconsumed = y.session.receive.deliveredUnconsumed + out.flatten.length :=
  h.receiver.follows.insert h.sender.proper_pushed
    (lt_of_le_of_lt h.sender.length_le hbound) ((h.frames frame hframe).1 hkind)

theorem Carries.receiver_timer (hphase : y.phase = .waiting waiting) (hrest : phase.rest = [])
    (hstate : y' = { y with
      session := { (y.session.onTimer waiting times).1 with ready }
      phase }) :
    Carries x y' frames (acks ++ (y.session.onTimer waiting times).2.1) acked rest delivered := by
  obtain ⟨⟨ackPending, ackDeadline, lastAcknowledgement, lastAdvertisedWindow, sentAt, finSentAt,
    hsession, -⟩, hout⟩ := y.session.onTimer_spec waiting times
  rw [hsession] at hstate
  subst hstate
  refine h.receiver_step (h.receiver.of_phase hphase rfl rfl rfl rfl hrest)
    (prefix_refl _) (fun _ => id) fun frame hframe => ?_
  refine (mem_append.mp hframe).imp_right fun hnew => ?_
  cases hout frame hnew with
  | ack => exact h.ackOk_sendAck
  | data => exact nofun
  | fin => exact nofun

theorem Carries.receiver_moves (hbound : x.accepted.flatten.length < 2 ^ 64)
    (hmove : Moves y action y' out notices) (hqueue : ∀ frame ∈ y.frameQueue, frame ∈ frames) :
    ∃ delivered', Carries x y' frames (acks ++ out) acked rest delivered' := by
  have hquiet : (∀ frame ∈ out, frame.kind ≠ .ack) → ∀ frame ∈ acks ++ out,
      frame ∈ acks ∨ AckOk x.Finished (acked ++ rest) delivered frame := fun hout frame hframe =>
    (mem_append.mp hframe).imp_right fun hnew hkind => absurd hkind (hout frame hnew)
  have hnone : ∀ frame ∈ ([] : List Frame), frame.kind ≠ .ack :=
    fun frame hframe => absurd hframe not_mem_nil
  -- the other side keeps what it has received
  have hsame : ReceiverOk y' x.Finished (acked ++ rest) delivered →
      (∀ frame ∈ out, frame.kind ≠ .ack) →
        ∃ delivered', Carries x y' frames (acks ++ out) acked rest delivered' := by
    intro hreceiver hout
    exact ⟨delivered, h.receiver_step hreceiver (prefix_refl _) (fun _ => id) (hquiet hout)⟩
  have hr := h.receiver
  cases hmove with
  | stay | endOfFile | accept | closeWriter =>
    exact hsame (hr.same rfl rfl rfl rfl rfl fun he => ⟨he, rfl⟩) hnone
  | refuse hended hkind =>
    refine hsame hr fun frame hframe => ?_
    rw [mem_singleton.mp hframe, hkind]
    exact nofun
  | turn hphase _ _ hframes | control hphase _ _ _ hframes =>
    refine hsame (hr.of_phase hphase rfl rfl rfl rfl rfl) fun frame hframe => ?_
    rw [hframes frame hframe]
    exact nofun
  | ack hphase | ackFin hphase | ackLeave hphase | reset hphase | deliveryDone hphase =>
    exact hsame (hr.of_phase hphase rfl rfl rfl rfl rfl) hnone
  | dataRefused hphase hframes hkind hinsert =>
    have hreceive := h.receiver_data hbound (hqueue _ (hframes ▸ mem_cons_self)) hkind
    rw [hinsert] at hreceive
    rcases hreceive with hfull | ⟨out, next, hok, -⟩
    · exact hsame (hr.of_phase hphase rfl rfl (Prod.mk.inj hfull).2 rfl rfl) hnone
    · cases (Prod.mk.inj hok).1
  | data hphase hframes hkind hinsert =>
    have hreceive := h.receiver_data hbound (hqueue _ (hframes ▸ mem_cons_self)) hkind
    rw [hinsert] at hreceive
    rcases hreceive with hfull | ⟨chunks, next, hok, hfollows, hbytes⟩
    · cases (Prod.mk.inj hfull).1
    · obtain ⟨hchunks, rfl⟩ := Prod.mk.inj hok
      cases hchunks
      exact ⟨_, h.receiver_step (hr.deliver hphase rfl hfollows hbytes rfl)
        (prefix_append _ _) (fun _ => id) fun frame hframe => .inl (by simpa using hframe)⟩
  | fin hphase hframes hkind =>
    have hfin := (h.frames _ (hqueue _ (hframes ▸ mem_cons_self))).2 hkind
    refine hsame ⟨hr.follows, ?_, ?_, hr.handed, ?_⟩ hnone
    · intro n hn
      cases hn
      exact hfin
    · intro hreader
      refine Eq.trans ?_ (hr.output hreader)
      exact congrArg (y.handed ++ ·) (output_of_phase hphase rfl rfl rfl rfl rfl)
    · exact fun _ => hr.consumed (by rw [hphase]; rfl)
  | readerGone hphase hreader =>
    exact hsame { hr with
      output := fun hd => absurd (hreader.symm.trans hd) nofun
      consumed := nofun } hnone
  | handedOver hphase hreader hroom =>
    refine hsame (hr.same rfl rfl rfl rfl ?_ fun _ => ⟨by rw [hphase]; rfl, rfl⟩) hnone
    unfold output
    rw [hphase]
    simp [Phase.rest]
  | @write _ _ _ _ result _ _ _ _ hphase _ _ _ hresult herror =>
    refine hsame (hr.of_phase hphase rfl rfl rfl rfl rfl) fun frame hframe => ?_
    cases result with
    | ok sequence =>
      rw [(hresult sequence rfl).2.2] at hframe
      rw [mem_singleton.mp hframe]
      exact nofun
    | error payload =>
      rw [herror payload rfl] at hframe
      cases hframe
  | consumed hphase hcommands => exact hsame (hr.consume hphase hcommands _ _) hnone
  | finishRequested hphase hcommands =>
    refine hsame (hr.same rfl rfl rfl rfl (output_of_phase hphase rfl rfl rfl rfl rfl)
      fun _ => ⟨by rw [hphase]; rfl, ?_⟩) hnone
    rw [hcommands]
    simp [consumedBytes]
  | resetRequested hphase hcommands =>
    refine hsame (hr.same rfl rfl rfl rfl (output_of_phase hphase rfl rfl rfl rfl rfl) nofun)
      fun frame hframe => ?_
    rw [mem_singleton.mp hframe]
    exact nofun
  | timer hphase | timerLeave hphase => exact ⟨delivered, h.receiver_timer hphase rfl rfl⟩
  | finish | dropLifecycle =>
    refine hsame (hr.same rfl rfl rfl rfl rfl fun he => ⟨he, ?_⟩) hnone
    exact consumedBytes_commandsWith he rfl
  | read hreader hcurrent => exact hsame (hr.read hreader _ hcurrent) hnone
  | recv hcurrent hchunks =>
    refine hsame (hr.same rfl rfl rfl rfl ?_ fun he => ⟨he, rfl⟩) hnone
    unfold output
    rw [hcurrent, hchunks]
    simp
  | dropReader => exact hsame { hr with output := nofun } hnone

theorem Carries.of_subset (hframes : frames' ⊆ frames) (hacks : acks' ⊆ acks) :
    Carries x y frames' acks' acked rest delivered :=
  { h with
    frames := fun frame hframe => h.frames frame (hframes hframe)
    acks := fun frame hframe => h.acks frame (hacks hframe) }

end

/-! ## Both directions -/

theorem Moves.mem_frameQueue
    (h : Moves x action x' out notices) : ∀ frame ∈ x'.frameQueue, frame ∈ x.frameQueue := by
  intro frame hframe
  cases h with
  | control _ hqueue | dataRefused _ hqueue | data _ hqueue | ack _ hqueue
  | ackFin _ hqueue | ackLeave _ hqueue | fin _ hqueue | reset _ hqueue =>
    rw [hqueue]
    exact mem_cons_of_mem _ hframe
  | _ => exact hframe

theorem arrive_eq (e : Endpoint) :
    ∃ frameQueue, System.arrive e frame = { e with frameQueue } ∧
      ∀ other ∈ frameQueue, other = frame ∨ other ∈ e.frameQueue := by
  unfold System.arrive
  split_ifs
  · exact ⟨e.frameQueue, rfl, fun _ h => .inr h⟩
  · refine ⟨_, rfl, fun other hother => ?_⟩
    exact (mem_append.mp hother).symm.imp_left mem_singleton.mp

variable {side : Side}

/-- What relates an endpoint to itself with other frames in its queue, and to the one after its
actions, relates it to the one after any event. -/
theorem System.endpoint_step {R : Endpoint → Endpoint → Prop}
    (hqueue : ∀ e frameQueue, R e { e with frameQueue }) (s : System) (event : Event)
    (hact : ∀ action, event = .act side action →
      R (s.endpoint side) ((s.endpoint side).act action).1) :
    R (s.endpoint side) ((s.step event).1.endpoint side) := by
  have hrefl : ∀ e, R e e := fun e => hqueue e e.frameQueue
  cases event with
  | act acting action =>
    unfold System.step
    dsimp only
    rw [update_apply]
    split_ifs with hside
    · subst hside
      exact hact action rfl
    · exact hrefl _
  | lose | duplicate => exact hrefl _
  | deliver acting i =>
    unfold System.step
    dsimp only
    cases (s.wire acting)[i]? with
    | none => exact hrefl _
    | some frame =>
      dsimp only
      rw [update_apply]
      split_ifs with hside
      · obtain ⟨frameQueue, harrive, -⟩ := arrive_eq (s.endpoint acting.other)
        rw [hside, harrive]
        exact hqueue _ _
      · exact hrefl _

theorem Side.other_other : side.other.other = side := by cases side <;> rfl

theorem Side.other_ne : side.other ≠ side := by cases side <;> exact nofun

theorem Side.eq_or_eq (side side' : Side) : side' = side ∨ side' = side.other := by
  cases side <;> cases side' <;> simp [other]

namespace System

variable {s : System} {event : Event}

def Carried (s : System) (side : Side) : Prop :=
  ∃ acked rest delivered, Carries (s.endpoint side) (s.endpoint side.other)
    (s.wire side ++ (s.endpoint side.other).frameQueue)
    (s.wire side.other ++ (s.endpoint side).frameQueue) acked rest delivered

structure Consistent (s : System) : Prop where
  waits : ∀ side, (s.endpoint side).Waits
  carried : ∀ side, s.Carried side

def Bounded (s : System) : Prop := ∀ side, (s.endpoint side).accepted.flatten.length < 2 ^ 64

theorem consistent_start (streamId : Nat) (openPayload : Bytes) :
    (start streamId openPayload).Consistent where
  waits side := by
    intro waiting hwaiting
    cases side <;> cases hwaiting
  carried side := by
    have hsend : ∀ side,
        (((start streamId openPayload).endpoint side).session.send).Holds [] [] := by
      intro side
      cases side <;> exact ⟨rfl, rfl, rfl, rfl, Nat.zero_le _⟩
    have hreceive : ∀ side,
        (((start streamId openPayload).endpoint side).session.receive).Follows [] [] := by
      intro side
      cases side <;> exact ReceiveWindow.follows_new
    have hwire : ∀ side, ∀ frame ∈ (start streamId openPayload).wire side,
        frame.kind = .openAck := by
      intro side frame hframe
      cases side with
      | left => cases hframe
      | right => rw [mem_singleton.mp hframe]; rfl
    have hqueue : ∀ side, ((start streamId openPayload).endpoint side).frameQueue = [] := by
      intro side
      cases side <;> rfl
    refine ⟨[], [], [], ⟨?_, ?_, hsend side, ?_⟩, ⟨hreceive _, ?_, ?_, ?_, ?_⟩, ?_, ?_, le_refl _⟩
    · cases side <;> rfl
    · cases side <;> exact nofun
    · cases side <;> exact nofun
    · cases side <;> exact nofun
    · cases side <;> exact fun _ => rfl
    · cases side <;> exact prefix_refl _
    · cases side <;> exact fun _ => rfl
    · intro frame hframe
      rw [hqueue, append_nil] at hframe
      have hkind := hwire side frame hframe
      exact frameOk_of_kind (hkind ▸ nofun) (hkind ▸ nofun)
    · intro frame hframe hack
      rw [hqueue, append_nil] at hframe
      rw [hwire _ frame hframe] at hack
      cases hack

theorem Carried.of_wire (h : ∀ side, s.Carried side) (side : Side) {wire : List Frame}
    (hwire : ∀ frame ∈ wire, frame ∈ s.wire side) (side' : Side) :
    Carried { s with wire := update s.wire side wire } side' := by
  obtain ⟨acked, rest, delivered, hcarries⟩ := h side'
  have hsub : ∀ other, ∀ frame ∈ update s.wire side wire other, frame ∈ s.wire other :=
    (forall_update_iff s.wire fun other wire => ∀ frame ∈ wire, frame ∈ s.wire other).mpr
      ⟨hwire, fun _ _ _ => id⟩
  exact ⟨acked, rest, delivered, hcarries.of_subset
    (fun frame hframe => mem_append.mpr ((mem_append.mp hframe).imp_left (hsub _ frame)))
    fun frame hframe => mem_append.mpr ((mem_append.mp hframe).imp_left (hsub _ frame))⟩

theorem Consistent.deliver (h : s.Consistent) (side : Side) {i : Nat} {frame : Frame}
    (hframe : (s.wire side)[i]? = some frame) :
    Consistent
      { endpoint := update s.endpoint side.other (arrive (s.endpoint side.other) frame)
        wire := update s.wire side ((s.wire side).eraseIdx i) } := by
  obtain ⟨queue, harrive, hqueue⟩ := arrive_eq (s.endpoint side.other)
  rw [harrive]
  have hne : side ≠ side.other := other_ne.symm
  -- what is under way or queued after the delivery was under way or queued before
  have hold : ∀ other ∈ (s.wire side).eraseIdx i ++ queue,
      other ∈ s.wire side ++ (s.endpoint side.other).frameQueue := by
    intro other hother
    rcases mem_append.mp hother with hold | hold
    · exact mem_append_left _ (mem_of_mem_eraseIdx hold)
    · rcases hqueue other hold with rfl | hold
      · exact mem_append_left _ (mem_of_getElem? hframe)
      · exact mem_append_right _ hold
  constructor
  · exact (forall_update_iff _ fun _ => Endpoint.Waits).mpr
      ⟨h.waits side.other, fun other _ => h.waits other⟩
  · intro side'
    obtain ⟨acked, rest, delivered, hcarries⟩ := h.carried side'
    refine ⟨acked, rest, delivered, ?_⟩
    rcases eq_or_eq side side' with rfl | rfl
    · -- the frame belongs to this direction
      dsimp only
      rw [update_self, update_self, update_of_ne hne, update_of_ne other_ne]
      exact { hcarries with
        receiver := { hcarries.receiver with }
        frames := fun other hother => hcarries.frames other (hold other hother) }
    · -- the frame may acknowledge what this direction sends
      dsimp only
      rw [other_other] at hcarries ⊢
      rw [update_self, update_self, update_of_ne hne, update_of_ne other_ne]
      exact { hcarries with
        sender := { hcarries.sender with }
        acks := fun other hother => hcarries.acks other (hold other hother) }

/-- An action of one side is a move of the sender of one direction and of the receiver of the
other. -/
theorem Consistent.act (h : s.Consistent) (side : Side) {e : Endpoint}
    (hmove : Moves (s.endpoint side) action e out notices)
    (hbound : e.accepted.flatten.length < 2 ^ 64)
    (hother : (s.endpoint side.other).accepted.flatten.length < 2 ^ 64) :
    Consistent
      { endpoint := update s.endpoint side e
        wire := update s.wire side (s.wire side ++ out) } := by
  have hqueue := hmove.mem_frameQueue
  have hne : side.other ≠ side := other_ne
  constructor
  · exact (forall_update_iff _ fun _ => Endpoint.Waits).mpr
      ⟨hmove.waits (h.waits side), fun other _ => h.waits other⟩
  · intro side'
    rcases eq_or_eq side side' with rfl | rfl
    · obtain ⟨acked, rest, delivered, hcarries⟩ := h.carried side'
      obtain ⟨acked', rest', hnext⟩ := hcarries.sender_moves (h.waits side') hmove hbound
        fun frame hframe => mem_append_right _ hframe
      refine ⟨acked', rest', delivered, ?_⟩
      dsimp only
      rw [update_self, update_self, update_of_ne hne, update_of_ne hne]
      refine hnext.of_subset (fun frame hframe => ?_) fun frame hframe => ?_
      · simp only [mem_append] at hframe ⊢
        tauto
      · exact mem_append.mpr ((mem_append.mp hframe).imp_right (hqueue frame))
    · obtain ⟨acked, rest, delivered, hcarries⟩ := h.carried side.other
      rw [other_other] at hcarries
      obtain ⟨delivered', hnext⟩ := hcarries.receiver_moves hother hmove
        fun frame hframe => mem_append_right _ hframe
      refine ⟨acked, rest, delivered', ?_⟩
      dsimp only
      rw [other_other, update_self, update_self, update_of_ne hne, update_of_ne hne]
      refine hnext.of_subset (fun frame hframe => ?_) fun frame hframe => ?_
      · exact mem_append.mpr ((mem_append.mp hframe).imp_right (hqueue frame))
      · simp only [mem_append] at hframe ⊢
        tauto

theorem Consistent.step (h : s.Consistent) (hbound : (s.step event).1.Bounded) :
    (s.step event).1.Consistent := by
  cases event with
  | act side action =>
    have hself := hbound side
    have hother := hbound side.other
    unfold System.step at hself hother
    dsimp only at hself hother
    rw [update_self] at hself
    rw [update_of_ne other_ne] at hother
    exact h.act side ((s.endpoint side).moves_act action) hself hother
  | lose side i =>
    exact ⟨h.waits, Carried.of_wire h.carried side fun _ hf => mem_of_mem_eraseIdx hf⟩
  | duplicate side i =>
    refine ⟨h.waits, Carried.of_wire h.carried side fun frame hframe => ?_⟩
    rcases mem_append.mp hframe with hf | hf
    · exact mem_of_mem_take hf
    · exact mem_of_mem_drop hf
  | deliver side i =>
    unfold System.step
    dsimp only
    cases hframe : (s.wire side)[i]? with
    | none => exact h
    | some frame => exact h.deliver side hframe

end System

end LowerTier.Gateway.OverlayStream
