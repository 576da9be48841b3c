import LowerTier.Peers.PeerSession.Session

/-!
# Threads inside the send path

`encrypt_payload` and `encrypt_payload_batch` take a shared reference, so that any
number of threads can be inside them at once, next to a thread that prepares,
cancels or commits a SYNC.  A `Sender` is one such call between two of its atomic
actions.  It holds the read side of `state_transition` from `charge` to `done`,
which keeps `sync_root_key` out, and `rotation_lock` while it rotates the epoch.

A sender that nobody interrupts does what `encryptPayload` and
`encryptPayloadBatch` say (`runAlone_encryptPayload`,
`runAlone_encryptPayloadBatch`).
-/

namespace LowerTier.Peers

open ProofSupport.ByteString ProofSupport.MachineInt Tunnel
open SecureDatagramSession

inductive SendPhase where
  /-- Past the check of the peer session, before the read lock. -/
  | enter
  | charge
  /-- The first look at the rotation condition, with the counter as this thread left it. -/
  | check (packets : Nat)
  | awaitRotation
  /-- The second look, under the rotation lock, and the store of the epoch. -/
  | rotate
  | storeStarted
  | storePackets
  | loadEpoch
  | reserve (epoch : Nat)
  | fetchKey (epoch seq : Nat)
  | sealPackets (encryptor : RingCipher) (epoch seq : Nat)
  | done (result : Except SessionError Unit)
deriving DecidableEq

/-- A call in progress, with the packets that it has sealed and those left. -/
structure Sender where
  /-- `encrypt_payload`, which reads the header before it looks up the key. -/
  single : Bool
  dir : Direction
  output : List ZCPacket
  packets : List ZCPacket
  nowMs : Nat
  phase : SendPhase

namespace Sender

def holdsTransitionLock (s : Sender) : Bool :=
  match s.phase with
  | .enter | .done _ => false
  | _ => true

def holdsRotationLock (s : Sender) : Bool :=
  match s.phase with
  | .rotate | .storeStarted | .storePackets => true
  | _ => false

def goto (s : Sender) (phase : SendPhase) : Sender := { s with phase := phase }

/-- The session, the sender and the nonces handed to the cipher after a step. -/
abbrev StepResult := SecureDatagramSession × Sender × List NonceUse

variable (crypto : Crypto) (d : SecureDatagramSession)

def sealNext (s : Sender) (encryptor : RingCipher) (epoch seq : Nat) : StepResult :=
  match s.packets with
  | [] => (d, s.goto (.done (.ok ())), [])
  | packet :: rest =>
    if seq > maxValue 64 then
      (d, s.goto (.done (.error (.message "secure datagram nonce sequence exhausted"))), [])
    else
      match packetAad packet with
      | .error error => (d, s.goto (.done (.error error)), [])
      | .ok aad =>
        match encryptor.encryptWithNonceAndAad crypto packet (nonce epoch seq) aad with
        | (.error error, packet) =>
          (d.invalidate, { s with
            packets := packet :: rest
            phase := .done (.error (.cipher error)) }, [⟨s.dir, epoch, seq⟩])
        | (.ok (), packet) =>
          (d, { s with
            output := s.output ++ [packet]
            packets := rest
            phase := .sealPackets encryptor epoch (seq + 1) }, [⟨s.dir, epoch, seq⟩])

/-- One atomic action of a sender.  `rotationFree` tells whether no other thread
holds the rotation lock. -/
def step (rotationFree : Bool) (s : Sender) :
    StepResult :=
  match s.phase with
  | .enter =>
    if !d.isValid then
      (d, s.goto (.done (.error (.message "session invalidated"))), [])
    else if s.packets.isEmpty then
      (d, s.goto (.done (.ok ())), [])
    else
      (d, s.goto .charge, [])
  | .charge =>
    let d := d.chargePackets s.packets.length
    (d, s.goto (.check d.sendPacketsSinceEpoch), [])
  | .check packets =>
    if { d with sendPacketsSinceEpoch := packets }.rotationDue s.nowMs then
      (d, s.goto .awaitRotation, [])
    else
      (d, s.goto .loadEpoch, [])
  | .awaitRotation => if rotationFree then (d, s.goto .rotate, []) else (d, s, [])
  | .rotate =>
    if d.rotationDue s.nowMs then
      ({ d with sendEpoch := wrappingAdd 32 d.sendEpoch 1 }, s.goto .storeStarted, [])
    else
      (d, s.goto .loadEpoch, [])
  | .storeStarted => ({ d with sendEpochStartedMs := s.nowMs }, s.goto .storePackets, [])
  | .storePackets => ({ d with sendPacketsSinceEpoch := 0 }, s.goto .loadEpoch, [])
  | .loadEpoch => (d, s.goto (.reserve d.sendEpoch), [])
  | .reserve epoch =>
    match d.reserveSequence s.dir s.packets.length with
    | (none, d) =>
      (d, s.goto (.done (.error (.message "secure datagram nonce sequence exhausted"))), [])
    | (some seq, d) => (d, s.goto (.fetchKey epoch seq), [])
  | .fetchKey epoch seq =>
    match s.single, s.packets.head?.map packetAad with
    | true, some (.error error) => (d, s.goto (.done (.error error)), [])
    | _, _ =>
      let (encryptor, d) := d.getOrCreateEncryptor crypto epoch s.dir d.sessionGeneration true
      (d, s.goto (.sealPackets encryptor epoch seq), [])
  | .sealPackets encryptor epoch seq => sealNext crypto d s encryptor epoch seq
  | .done _ => (d, s, [])

/-! ## A sender that nobody interrupts -/

def runAlone (crypto : Crypto) : Nat → SecureDatagramSession → Sender → StepResult
  | 0, d, s => (d, s, [])
  | fuel + 1, d, s =>
    let (d, s, sealed) := s.step crypto d true
    let (d, s, rest) := runAlone crypto fuel d s
    (d, s, sealed ++ rest)

def Runs (s : Sender) (r : EncryptResult (List ZCPacket)) : Prop :=
  ∃ fuel s', runAlone crypto fuel d s = (r.session, s', r.sealed) ∧
    s'.phase = .done r.result ∧ s'.output ++ s'.packets = r.packets

section Alone

variable {crypto : Crypto} {d d' : SecureDatagramSession} {s s' : Sender}
  {result : Except SessionError Unit} {packets : List ZCPacket}

theorem runs_done (d : SecureDatagramSession) (s : Sender) (result : Except SessionError Unit) :
    Runs crypto d (s.goto (.done result)) ⟨result, s.output ++ s.packets, d, []⟩ :=
  ⟨0, s.goto (.done result), rfl, rfl, rfl⟩

theorem Runs.after_emit {session : SecureDatagramSession} {rest : List NonceUse}
    (sealed : List NonceUse) (hruns : Runs crypto d' s' ⟨result, packets, session, rest⟩)
    (hstep : s.step crypto d true = (d', s', sealed)) :
    Runs crypto d s ⟨result, packets, session, sealed ++ rest⟩ := by
  obtain ⟨fuel, last, hrun, hphase, hpackets⟩ := hruns
  refine ⟨fuel + 1, last, ?_, hphase, hpackets⟩
  simp only [runAlone, hstep, hrun]

variable {r : EncryptResult (List ZCPacket)}

theorem Runs.after (hruns : Runs crypto d' s' r)
    (hstep : s.step crypto d true = (d', s', [])) : Runs crypto d s r :=
  Runs.after_emit [] hruns hstep

theorem runs_seal (encryptor : RingCipher) (epoch seq : Nat) :
    let loop := encryptLoop crypto encryptor s.dir epoch seq s.packets
    Runs crypto d (s.goto (.sealPackets encryptor epoch seq)) ⟨loop.1, s.output ++ loop.2.1,
      if loop.2.2.1 then d.invalidate else d, loop.2.2.2⟩ := by
  obtain ⟨single, dir, output, packets, nowMs, phase⟩ := s
  induction packets generalizing output seq phase with
  | nil => exact (runs_done d ⟨single, dir, output, [], nowMs, phase⟩ (.ok ())).after rfl
  | cons packet rest ih =>
    have hdone (result : Except SessionError Unit) :=
      @runs_done crypto d ⟨single, dir, output, packet :: rest, nowMs, phase⟩ result
    by_cases hroom : seq > maxValue 64
    · simp only [encryptLoop, if_pos hroom]
      exact (hdone _).after (by simp [goto, step, sealNext, hroom])
    simp only [encryptLoop, if_neg hroom]
    cases haad : packetAad packet with
    | error error => exact (hdone _).after (by simp [goto, step, sealNext, hroom, haad])
    | ok aad =>
      rcases hcipher : encryptor.encryptWithNonceAndAad crypto packet (nonce epoch seq) aad
        with ⟨error | ⟨⟩, written⟩
      · simp only [hcipher]
        exact (runs_done d.invalidate
          ⟨single, dir, output, written :: rest, nowMs, phase⟩ _).after_emit
          [⟨dir, epoch, seq⟩] (by simp [goto, step, sealNext, hroom, haad, hcipher])
      · have hrest := ih (seq + 1) (output ++ [written]) phase
        simp only [List.append_assoc, List.singleton_append] at hrest
        simp only [hcipher]
        exact hrest.after_emit [⟨dir, epoch, seq⟩]
          (by simp [goto, step, sealNext, hroom, haad, hcipher])

/-- From the charge to the load of the epoch the sender does what `maybe_rotate_epoch` says. -/
theorem runs_charge
    (hruns : Runs crypto (d.maybeRotateEpoch s.nowMs s.packets.length) (s.goto .loadEpoch) r) :
    Runs crypto d (s.goto .charge) r := by
  have hcharge : step crypto d true (s.goto .charge) = (d.chargePackets s.packets.length,
      s.goto (.check (d.chargePackets s.packets.length).sendPacketsSinceEpoch), []) := rfl
  refine Runs.after ?_ hcharge
  cases hdue : (d.chargePackets s.packets.length).rotationDue s.nowMs with
  | false =>
    rw [maybeRotateEpoch, hdue] at hruns
    refine hruns.after ?_
    simp [step, goto, hdue]
  | true =>
    rw [maybeRotateEpoch, hdue, if_pos rfl, rotateEpoch, if_pos hdue] at hruns
    generalize d.chargePackets s.packets.length = charged at hruns hdue ⊢
    have hcheck : step crypto charged true (s.goto (.check charged.sendPacketsSinceEpoch)) =
        (charged, s.goto .awaitRotation, []) := by
      simp [step, goto, hdue]
    have hrotate : step crypto charged true (s.goto .rotate) =
        ({ charged with sendEpoch := wrappingAdd 32 charged.sendEpoch 1 },
          s.goto .storeStarted, []) := by
      simp [step, goto, hdue]
    -- the lock is taken, and behind the rotation the two counters of the epoch are stored
    refine Runs.after (Runs.after ?_ rfl) hcheck
    refine Runs.after ?_ hrotate
    exact (hruns.after rfl).after rfl

theorem runs_call (hvalid : d.isValid = true) (hpackets : s.packets ≠ []) :
    Runs crypto d (s.goto .enter) ( match d.reserveNonceRange s.dir s.packets.length s.nowMs with
      | (.error error, d) => ⟨.error error, s.output ++ s.packets, d, []⟩
      | (.ok (epoch, seq), d) =>
        match s.single, s.packets.head?.map packetAad with
        | true, some (.error error) => ⟨.error error, s.output ++ s.packets, d, []⟩
        | _, _ =>
          let (encryptor, d) := d.getOrCreateEncryptor crypto epoch s.dir d.sessionGeneration true
          let loop := encryptLoop crypto encryptor s.dir epoch seq s.packets
          ⟨loop.1, s.output ++ loop.2.1, if loop.2.2.1 then d.invalidate else d, loop.2.2.2⟩) := by
  have hcount : s.packets.length ≠ 0 := by simpa using hpackets
  have henter : step crypto d true (s.goto .enter) = (d, s.goto .charge, []) := by
    simp [step, goto, hvalid, hpackets]
  refine (runs_charge (Runs.after ?_ rfl)).after henter
  simp only [reserveNonceRange, if_neg hcount]
  generalize d.maybeRotateEpoch s.nowMs s.packets.length = d
  rcases hreserve : d.reserveSequence s.dir s.packets.length with ⟨_ | seq, d₁⟩
  · exact (runs_done d₁ s _).after (by simp [goto, step, hreserve])
  have hfetch : step crypto d true (s.goto (.reserve d.sendEpoch)) =
      (d₁, s.goto (.fetchKey d.sendEpoch seq), []) := by simp [goto, step, hreserve]
  refine Runs.after ?_ hfetch
  simp only
  split
  · next error hsingle haad =>
    exact (runs_done d₁ s _).after (by simp [goto, step, hsingle, haad])
  · next hother =>
    refine (runs_seal _ d.sendEpoch seq).after ?_
    simp only [step, goto]

variable {dir : Direction}

theorem runAlone_encryptPayloadBatch (nowMs : Nat) :
    Runs crypto d ⟨false, dir, [], packets, nowMs, .enter⟩
      (d.encryptPayloadBatch crypto dir packets nowMs) := by
  let s : Sender := ⟨false, dir, [], packets, nowMs, .enter⟩
  unfold encryptPayloadBatch
  cases hvalid : d.isValid with
  | false => exact (runs_done d s _).after (by simp [step, hvalid, s, goto])
  | true =>
    by_cases hpackets : packets = []
    · subst hpackets
      exact (runs_done d s _).after (by simp [step, hvalid, s, goto])
    have hruns := @runs_call crypto d s hvalid hpackets
    rcases hreserve : d.reserveNonceRange dir packets.length nowMs with ⟨_ | _, _⟩ <;>
      simpa [hpackets, s, goto, hreserve] using hruns

theorem le_of_reserveNonceRange {d d₁ : SecureDatagramSession} {packetCount nowMs epoch seq : Nat}
    (hreserve : d.reserveNonceRange dir packetCount nowMs = (.ok (epoch, seq), d₁)) :
    seq ≤ maxValue 64 := by
  unfold reserveNonceRange reserveSequence at hreserve
  dsimp only at hreserve
  split at hreserve
  · simp only [Prod.mk.injEq, Except.ok.injEq] at hreserve
    omega
  split at hreserve
  · simp at hreserve
  next hseq =>
  split_ifs at hseq with hexhausted
  · simp at hseq
  · simp only [Prod.mk.injEq, Except.ok.injEq, Option.some.injEq] at hreserve hseq
    omega

theorem runAlone_encryptPayload (packet : ZCPacket) (nowMs : Nat) :
    let r := d.encryptPayload crypto dir packet nowMs
    Runs crypto d ⟨true, dir, [], [packet], nowMs, .enter⟩
      ⟨r.result, [r.packets], r.session, r.sealed⟩ := by
  let s : Sender := ⟨true, dir, [], [packet], nowMs, .enter⟩
  simp only [encryptPayload]
  cases hvalid : d.isValid with
  | false => exact (runs_done d s _).after (by simp [step, hvalid, s, goto])
  | true =>
    have hruns := @runs_call crypto d s hvalid (by simp [s])
    simp only [s, goto, List.length_singleton, List.head?_cons, Option.map_some,
      List.nil_append] at hruns
    rcases hreserve : d.reserveNonceRange dir 1 nowMs with ⟨error | ⟨epoch, seq⟩, d₁⟩
    · simpa [hreserve] using hruns
    have hroom : ¬seq > maxValue 64 := Nat.not_lt.mpr (le_of_reserveNonceRange hreserve)
    cases haad : packetAad packet with
    | error error => simpa [hreserve, haad] using hruns
    | ok aad =>
      rcases hcipher : (d₁.getOrCreateEncryptor crypto epoch dir d₁.sessionGeneration
        true).1.encryptWithNonceAndAad crypto packet (nonce epoch seq) aad with
        ⟨error | ⟨⟩, written⟩
      · simpa [hreserve, haad, encryptLoop, hroom, hcipher] using hruns
      · simpa [hreserve, haad, encryptLoop, hroom, hcipher] using hruns

end Alone

end Sender

/-! ## The system -/

/-- A nonce handed to the cipher, with the root key that the cipher's key is derived from. -/
structure KeyedNonce where
  rootKey : Bytes
  use : NonceUse
deriving DecidableEq, Repr

structure SendSystem where
  session : PeerSession
  senders : List Sender
  issued : List PreparedSync

/-- A thread starts a call or takes a step, or a call that is one action runs. -/
inductive SendOp where
  | encryptPayload (senderPeerId receiverPeerId : PeerId) (packet : ZCPacket) (nowMs : Nat)
  | encryptPayloadBatch (senderPeerId receiverPeerId : PeerId) (packets : List ZCPacket)
      (nowMs : Nat)
  | advance (index : Nat)
  | decryptPayload (senderPeerId receiverPeerId : PeerId) (packet : ZCPacket) (nowMs : Nat)
  | decryptPayloadBatch (senderPeerId receiverPeerId : PeerId) (packets : List ZCPacket)
      (nowMs : Nat)
  | prepareSync (requestedEpoch : Option Nat)
  | cancelSync (expectedRevision initialEpoch : Nat)
  /-- `commit_reserved_sync` with the root key of the given result of a preparation. -/
  | commitSync (ticket expectedRevision sessionGeneration initialEpoch : Nat)
      (transitionId : Bytes) (startedMs graceMs : Nat)

namespace SendSystem

variable (sys : SendSystem)

def rotationFree : Bool := sys.senders.all (!·.holdsRotationLock)

def transitionFree : Bool := sys.senders.all (!·.holdsTransitionLock)

def withDatagram (d : SecureDatagramSession) : SendSystem :=
  { sys with session := { sys.session with datagram := d } }

/-- A new call.  The peer session is checked before the datagram session takes its lock. -/
def start (single : Bool) (dir : Direction) (packets : List ZCPacket) (nowMs : Nat) : SendSystem :=
  let phase := if sys.session.isValid then
      .enter
    else
      .done (.error (.message "session invalidated"))
  { sys with senders := sys.senders ++ [⟨single, dir, [], packets, nowMs, phase⟩] }

def advance (crypto : Crypto) (sys : SendSystem) (index : Nat) : SendSystem × List KeyedNonce :=
  match sys.senders[index]? with
  | none => (sys, [])
  | some sender =>
    let (d, sender, sealed) := sender.step crypto sys.session.datagram sys.rotationFree
    ({ sys.withDatagram d with senders := sys.senders.set index sender },
      sealed.map fun use => ⟨d.rootKey, use⟩)

/-- A SYNC commit waits until no sender holds the read lock. -/
def commitSync (rootKey : Bytes) (expectedRevision sessionGeneration initialEpoch : Nat)
    (transitionId : Bytes) (startedMs graceMs : Nat) : SendSystem :=
  if sys.transitionFree then
    { sys with session := (sys.session.commitReservedSync expectedRevision rootKey
        sessionGeneration initialEpoch transitionId startedMs graceMs).2 }
  else
    sys

def step (crypto : Crypto) (sys : SendSystem) : SendOp → SendSystem × List KeyedNonce
  | .encryptPayload senderPeerId receiverPeerId packet nowMs =>
    (sys.start true (PeerSession.dirForSender senderPeerId receiverPeerId) [packet] nowMs, [])
  | .encryptPayloadBatch senderPeerId receiverPeerId packets nowMs =>
    (sys.start false (PeerSession.dirForSender senderPeerId receiverPeerId) packets nowMs, [])
  | .advance index => sys.advance crypto index
  | .decryptPayload senderPeerId receiverPeerId packet nowMs =>
    (sys.withDatagram
      (sys.session.decryptPayload crypto senderPeerId receiverPeerId packet nowMs).session, [])
  | .decryptPayloadBatch senderPeerId receiverPeerId packets nowMs =>
    (sys.withDatagram (sys.session.decryptPayloadBatch crypto senderPeerId receiverPeerId packets
      nowMs).session, [])
  | .prepareSync requestedEpoch =>
    match sys.session.prepareSyncTransitionAt requestedEpoch with
    | (.ok prepared, session) =>
      ({ sys with session := session, issued := sys.issued ++ [prepared] }, [])
    | (.error _, session) => ({ sys with session := session }, [])
  | .cancelSync expectedRevision initialEpoch =>
    ({ sys with session := sys.session.cancelReservedSync expectedRevision initialEpoch }, [])
  | .commitSync ticket expectedRevision sessionGeneration initialEpoch transitionId startedMs
      graceMs =>
      match sys.issued[ticket]? with
      | none => (sys, [])
      | some prepared =>
        (sys.commitSync prepared.rootKey expectedRevision sessionGeneration initialEpoch
          transitionId startedMs graceMs, [])

end SendSystem

end LowerTier.Peers
