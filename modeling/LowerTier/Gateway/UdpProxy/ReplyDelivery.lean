import LowerTier.Gateway.UdpProxy.ReplyForwarder

/-!
# Replies reach the client

From the invariant of the forwarding tasks: whenever a client packet goes out, the one task of its
entry is running, and what it then receives it passes on to the client of that packet.
-/

namespace LowerTier.Gateway.UdpProxy

open List ProofSupport ProofSupport.ByteString Tunnel Trace

/-! ## What a running task does with a reply -/

def Receiver.ready (number now : Nat) : Receiver → List Event
  | .looping => [.listen number now]
  | .waiting _ | .ended => []
  | .handing _ => [.handOver number, .forward number true now, .listen number now]

def deliver (number : Nat) (forwarder : Forwarder) (datagram : Datagram) (now : Nat) : List Event :=
  replicate forwarder.queue.length (.forward number true now) ++
    (forwarder.receiver.ready number now ++
      [.receive number datagram, .handOver number, .forward number true now])

def Delivered (request : Request) (index : Nat) (datagram : Datagram) (outputs : List Output) :
    Prop :=
  ∃ reply, Output.replied index reply ∈ outputs ∧ reply.toPeerId = request.fromPeerId ∧
    reply.destination = request.natKey.srcSocket ∧ reply.payload = datagram.payload

/-- A task with its entry, which is not stopped and belongs to the client of a request. -/
structure Serving (state : State) (number : Nat) (forwarder : Forwarder) (request : Request) :
    Prop where
  found : state.forwarders[number]? = some forwarder
  sender : forwarder.senderEnded = false
  entry : ∃ entry, state.entries[forwarder.entry]? = some entry ∧
    entry.client = request.client ∧ entry.stopped = false

namespace Serving

variable {state : State} {number : Nat} {forwarder : Forwarder} {request : Request}

variable (h : Serving state number forwarder request)
include h

theorem modify {f : Forwarder → Forwarder} {next : Forwarder} (hnext : f forwarder = next)
    (howner : next.entry = forwarder.entry) (hsender : next.senderEnded = false) :
    Serving (state.modifyForwarder number f) number next request where
  found := Arena.getElem?_modify_some.mpr ⟨forwarder, h.found, by rw [if_pos rfl, hnext]⟩
  sender := hsender
  entry := howner ▸ h.entry

theorem markActive (index now : Nat) :
    Serving (state.markActive index now) number forwarder request where
  found := h.found
  sender := h.sender
  entry := by
    obtain ⟨entry, hentry, hrest⟩ := h.entry
    refine ⟨_, Arena.getElem?_modify_some.mpr ⟨entry, hentry, rfl⟩, ?_⟩
    split <;> exact hrest

theorem listen (now : Nat) (hreceiver : forwarder.receiver = .looping) :
    Serving (state.listen number now) number { forwarder with receiver := .waiting now }
      request := by
  obtain ⟨entry, hentry, -, hunstopped⟩ := h.entry
  simp only [State.listen, h.found, hreceiver, hentry, Option.any_some, hunstopped, if_true]
  exact h.modify rfl rfl h.sender

theorem receive (datagram : Datagram) {since : Nat}
    (hreceiver : forwarder.receiver = .waiting since) :
    Serving (state.receive number datagram) number { forwarder with receiver := .handing datagram }
      request :=
  h.modify (by rw [hreceiver]) rfl h.sender

theorem handOver {datagram : Datagram} (hreceiver : forwarder.receiver = .handing datagram)
    (hroom : forwarder.queue.length < CHANNEL_CAPACITY) :
    Serving (state.handOver number) number
      { forwarder with receiver := .looping, queue := forwarder.queue ++ [datagram] } request :=
  h.modify (by simp [hreceiver, h.sender, hroom]) rfl h.sender

theorem forward {datagram : Datagram}
    {rest : List Datagram} (hqueue : forwarder.queue = datagram :: rest) (now : Nat) :
    Serving (state.forward number true now).1 number { forwarder with queue := rest } request ∧
      Delivered request forwarder.entry datagram (state.forward number true now).2 := by
  obtain ⟨entry, hentry, hclient, -⟩ := h.entry
  have hforward : state.forward number true now =
      ((state.markActive forwarder.entry now).modifyForwarder number
        fun forwarder => { forwarder with queue := rest },
        [.replied forwarder.entry (forwarder.reply entry datagram)]) := by
    simp only [State.forward, h.found, h.sender, hqueue, if_true, hentry]
  rw [hforward]
  exact ⟨(h.markActive forwarder.entry now).modify rfl rfl h.sender,
    forwarder.reply entry datagram, mem_singleton_self _, congrArg Prod.fst hclient,
    congrArg Prod.snd hclient, rfl⟩

theorem drain (now : Nat) : Serving (run step state
        (replicate forwarder.queue.length (.forward number true now))).1 number
      { forwarder with queue := [] } request := by
  generalize hqueue : forwarder.queue = queue
  induction queue generalizing state forwarder with
  | nil =>
    have hsame : { forwarder with queue := [] } = forwarder := by rw [← hqueue]
    exact hsame ▸ h
  | cons datagram rest ih =>
    have hdrained := ih (h.forward hqueue now).1 rfl
    exact hdrained

theorem ready (hrunning : forwarder.isRunning = true) (hqueue : forwarder.queue = []) (now : Nat) :
    ∃ since, Serving (run step state (forwarder.receiver.ready number now)).1 number
      { forwarder with receiver := .waiting since } request := by
  cases hreceiver : forwarder.receiver with
  | looping => exact ⟨now, h.listen now hreceiver⟩
  | waiting since =>
    refine ⟨since, ?_⟩
    have hsame : { forwarder with receiver := .waiting since } = forwarder := by rw [← hreceiver]
    exact hsame ▸ h
  | handing datagram =>
    have hover := h.handOver hreceiver (by rw [hqueue]; decide)
    rw [hqueue] at hover
    have hforwarded := (hover.forward rfl now).1
    have hlisten := hforwarded.listen now rfl
    refine ⟨now, ?_⟩
    rw [← hqueue] at hlisten
    exact hlisten
  | ended => simp [Forwarder.isRunning, hreceiver] at hrunning

theorem delivered (hrunning : forwarder.isRunning = true) (datagram : Datagram) (now : Nat) :
    Delivered request forwarder.entry datagram
      (run step state (deliver number forwarder datagram now)).2 := by
  have hdrained := h.drain now
  obtain ⟨since, hready⟩ := hdrained.ready (by exact hrunning) rfl now
  have hreceived := (hready.receive datagram rfl).handOver rfl (by simp [CHANNEL_CAPACITY])
  obtain ⟨-, reply, hreply, hclient⟩ := hreceived.forward rfl now
  refine ⟨reply, ?_, hclient⟩
  rw [deliver, run_append_snd, run_append_snd]
  exact mem_append_right _ (mem_append_right _ (mem_append_left [] hreply))

end Serving

/-! ## Every run -/

/-- What is said of an output: a packet goes out through an entry with one running task, which
passes on to its client what it then receives, and a reply goes to the client of the last packet. -/
def Output.Proper (state after : State) (history : List Output) : Output → Prop
  | .sent index request => state.HasOneForwarder index ∧
      ∀ number forwarder, state.forwarders[number]? = some forwarder → forwarder.entry = index →
        forwarder.isRunning = true → ∀ datagram now,
          Delivered request index datagram
            (run step after (deliver number forwarder datagram now)).2
  | .replied index reply => ∀ request ∈ lastSent history index,
      reply.toPeerId = request.fromPeerId ∧ reply.destination = request.natKey.srcSocket

theorem mem_of_lastSent {history : List Output} {index : Nat} {request : Request}
    (h : lastSent history index = some request) : Output.sent index request ∈ history := by
  obtain ⟨output, hin, hsame⟩ := mem_filterMap.mp (mem_of_getLast? h)
  cases output with
  | sent entry found =>
    dsimp only at hsame
    split_ifs at hsame with heq
    cases hsame
    exact heq ▸ hin
  | replied => cases hsame

namespace State

variable {state : State} {history : List Output} {output : Output}

section

variable (h : Inv state history)
include h

theorem hasOneForwarder {number : Nat} {request : Request} {index : Nat}
    (hhandler : state.handlers[number]? = some ⟨request, index, .sending⟩) :
    state.HasOneForwarder index := by
  have hin := mem_of_getElem? hhandler
  obtain ⟨entry, hserves⟩ := h.handler _ hin nofun
  obtain ⟨forwarder, hforwarder, howner⟩ :=
    mem_map.mp ((h.started index entry hserves.found).mp (hserves.sending rfl))
  have hrunning := h.running forwarder hforwarder ⟨_, hin, howner.symm, nofun⟩
  obtain ⟨a, ha⟩ := mem_iff_getElem?.mp hforwarder
  refine ⟨a, ⟨forwarder, ha, howner, hrunning⟩, ?_⟩
  rintro b ⟨other, hb, hsame, -⟩
  -- both are tasks of one entry, and the owners of tasks are distinct
  have hlt : b < state.owners.length := (length_map _).symm ▸ Arena.lt_length hb
  refine (getElem?_inj hlt (nodup_append.mp h.claims).2.1).mp ?_
  rw [owners, getElem?_map, getElem?_map, ha, hb, Option.map_some, Option.map_some, howner, hsame]

theorem proper_send {number : Nat} {accepted : Bool}
    (hin : output ∈ (state.send number accepted).2) :
    output.Proper state (state.send number accepted).1 history := by
  unfold send at hin ⊢
  split at hin
  · next request index hhandler =>
    cases accepted with
    | false => cases hin
    | true =>
      cases mem_singleton.mp hin
      refine ⟨hasOneForwarder h hhandler,
        fun a forwarder hforwarder howner hrunning datagram now => ?_⟩
      obtain ⟨entry, hserves⟩ := h.handler _ (mem_of_getElem? hhandler) nofun
      have hserving : Serving (state.setStage number .done) a forwarder request :=
        ⟨hforwarder, by simpa using (Bool.and_eq_true_iff.mp hrunning).2,
          entry, howner ▸ hserves.found, hserves.client, hserves.unstopped⟩
      exact howner ▸ hserving.delivered hrunning datagram now
  · cases hin

theorem proper_forward {number now : Nat} {composed : Bool}
    (hin : output ∈ (state.forward number composed now).2) :
    output.Proper state (state.forward number composed now).1 history := by
  unfold forward at hin
  split at hin
  · next forwarder hforwarder =>
    split at hin
    · cases composed with
      | false => cases hin
      | true =>
        rw [if_pos rfl] at hin
        split at hin
        · next entry hentry =>
          cases mem_singleton.mp hin
          intro request hlast
          obtain ⟨found, hfound, hclient⟩ := h.sent _ request (mem_of_lastSent hlast)
          cases hentry.symm.trans hfound
          exact ⟨congrArg Prod.fst hclient, congrArg Prod.snd hclient⟩
        · cases hin
    · cases hin
  · cases hin

theorem proper_step (event : Event) :
    ∀ output ∈ (step state event).2, output.Proper state (step state event).1 history := by
  intro output hin
  cases event with
  | send number accepted => exact proper_send h hin
  | forward number composed now => exact proper_forward h hin
  | _ => cases hin

end

theorem inv_empty : Inv State.empty [] where
  table _ _ hlookup := nomatch hlookup
  handler _ hhandler := nomatch hhandler
  claims := nodup_nil
  started _ _ hentry := nomatch hentry
  owned _ howner := nomatch howner
  running _ hforwarder := nomatch hforwarder
  stopped _ _ hentry := nomatch hentry
  sent _ _ hsent := nomatch hsent

end State

def ProperStep (state : State) (history : List Output) (event : Event) : Prop :=
  ∀ output ∈ (step state event).2, output.Proper state (step state event).1 history

/-- In every run whose steps meet the condition, every client packet that goes out finds exactly one
running task of its entry, which passes a later reply on to the client, and every reply goes to the
peer of the last packet of the entry. -/
theorem one_reply_forwarder (events : List Event)
    (horderly : Trace.Always step (fun state _ event => event.Orderly state) State.empty []
      events) :
    Trace.Always step ProperStep State.empty [] events :=
  always_of_always (fun _ _ _ hinv hevent => State.inv_step hinv hevent)
    (fun _ _ event hinv _ => State.proper_step hinv event) State.inv_empty horderly

def query (peer : PeerId) : Request where
  natKey := ⟨⟨0x0a000002, 5000⟩, ⟨0x0a010001, 53⟩⟩
  fromPeerId := peer
  toPeerId := 1
  realDstIp := 0x0a010001
  dstSocket := ⟨0x0a010001, 53⟩
  payload := [1]

def answer : Datagram := ⟨⟨0x0a010001, 53⟩, [2]⟩

def firstPacket : List Event :=
  [.lookUp (query 7) false true 0, .check 0 0, .start 0 (some 0x0a000001) 0, .send 0 true,
   .listen 0 0]

instance (state : State) : (event : Event) → Decidable (event.Orderly state)
  | .lookUp .. => inferInstanceAs (Decidable (∀ index ∈ _, (∀ entry ∈ _, _) ∧ ∀ forwarder ∈ _, _))
  | .check .. => inferInstanceAs (Decidable (∀ handler ∈ _, ∀ other ∈ _, _ → _))
  | .receiveError .. | .receiveTimeout .. | .forward _ false _ =>
    inferInstanceAs (Decidable (∀ forwarder ∈ _, ¬_))
  | .clean .. => inferInstanceAs (Decidable (∀ handler ∈ _, _ → _))
  | .forward _ true _ | .start .. | .send .. | .listen .. | .receive .. | .handOver .. | .drained ..
  | .finish .. => .isTrue trivial

theorem one_reply_forwarder_answered :
    Trace.Always step ProperStep State.empty []
      (firstPacket ++ [.receive 0 answer, .handOver 0, .forward 0 true 20, .listen 0 20,
        .lookUp (query 7) false true 1000, .check 1 1000, .send 1 true, .clean 300000,
        .receiveTimeout 0 300000, .drained 0, .finish 0]) :=
  one_reply_forwarder _ (by decide +kernel)

/-- The client sends a packet a minute.  After two minutes without a reply the task has ended, and
the packet that is sent ten seconds later finds none. -/
theorem forwarder_ended_before_packet :
    ∃ state, state = (Trace.run step State.empty (firstPacket ++
        [.lookUp (query 7) false true 60000, .check 1 60000, .send 1 true, .receiveTimeout 0 120000,
          .clean 125000, .lookUp (query 7) false true 130000, .check 2 130000])).1 ∧
      (state.send 2 true).2 = [.sent 0 (query 7)] ∧
      ∀ forwarder ∈ state.forwarders, forwarder.entry = 0 → forwarder.isRunning = false :=
  ⟨_, rfl, by decide +kernel, by decide +kernel⟩

end LowerTier.Gateway.UdpProxy
