import LowerTier.Peers.SecureDatagram.Session
import Mathlib.Data.List.Sort

/-!
# Receiving secure datagrams (`peers/secure_datagram.rs`)

The replay checks before and after the cipher, `decrypt_payload` and
`decrypt_payload_batch`.  Both calls also report the replay commits they made,
in order.
-/

namespace LowerTier.Peers

open ProofSupport ProofSupport.ByteString
open ProofSupport.MachineInt Tunnel

/-! ## Two receive epochs -/

namespace EpochRxSlot

def fresh (epoch nowMs : Nat) : EpochRxSlot := ⟨epoch, .default, nowMs⟩

def accept (slot : EpochRxSlot) (seq nowMs : Nat) : Bool × EpochRxSlot :=
  let (accepted, window) := slot.window.accept seq
  (accepted, { slot with window := window, lastRxMs := nowMs })

end EpochRxSlot

namespace EpochRxSlots

variable (slots : EpochRxSlots)

def holds (epoch : Nat) : Bool :=
  slots.slot0.any (·.epoch == epoch) || slots.slot1.any (·.epoch == epoch)

def canAcceptHeld (epoch seq : Nat) : Bool :=
  match slots.slot0.filter (·.epoch == epoch) <|> slots.slot1.filter (·.epoch == epoch) with
  | some slot => slot.window.canAccept seq
  | none => false

def acceptHeld (epoch seq nowMs : Nat) : Bool × EpochRxSlots :=
  match slots.slot0.filter (·.epoch == epoch), slots.slot1.filter (·.epoch == epoch) with
  | some slot, _ =>
    let (accepted, slot) := slot.accept seq nowMs
    (accepted, { slots with slot0 := some slot })
  | none, some slot =>
    let (accepted, slot) := slot.accept seq nowMs
    (accepted, { slots with slot1 := some slot })
  | none, none => (false, slots)

/-- The highest epoch that may still open: three above the send epoch and the
epochs of the slots. -/
def maxAllowedEpoch (sendEpoch : Nat) : Nat :=
  saturatingAdd 32
    (SecureDatagramSession.maxWithSlot
      (SecureDatagramSession.maxWithSlot sendEpoch slots.slot0) slots.slot1)
    SecureDatagramSession.MAX_ACCEPTED_RX_EPOCH_AHEAD

/-- The part of `precheck_replay` and of `precheck_replay_state` after the grace
lookup. -/
def precheck (sendEpoch epoch seq : Nat) : Bool :=
  match slots.slot0 with
  | none =>
    epoch ≤ saturatingAdd 32 sendEpoch SecureDatagramSession.MAX_ACCEPTED_RX_EPOCH_AHEAD
  | some slot0 =>
    if epoch = slot0.epoch then
      slot0.window.canAccept seq
    else
      match slots.slot1.filter (·.epoch == epoch) with
      | some slot1 => slot1.window.canAccept seq
      | none =>
        if epoch > slot0.epoch then epoch ≤ slots.maxAllowedEpoch sendEpoch else false

variable (sendEpoch epoch seq nowMs : Nat)

/-- The branches of both commit functions with a first slot. -/
def commitFrom (slot0 : EpochRxSlot) : Bool × EpochRxSlots :=
  if epoch = slot0.epoch then
    let (accepted, slot0) := slot0.accept seq nowMs
    (accepted, { slots with slot0 := some slot0 })
  else
    match slots.slot1.filter (·.epoch == epoch) with
    | some slot1 =>
      let (accepted, slot1) := slot1.accept seq nowMs
      (accepted, { slots with slot1 := some slot1 })
    | none =>
      if epoch > slot0.epoch then
        if epoch > slots.maxAllowedEpoch sendEpoch then
          (false, slots)
        else
          let (accepted, fresh) := (EpochRxSlot.fresh epoch nowMs).accept seq nowMs
          (accepted, ⟨some fresh, some slot0⟩)
      else
        (false, slots)

/-- The part of `commit_replay_state` after the grace lookup: an empty first slot
is filled, and the rest of the function then runs on it. -/
def commitState : Bool × EpochRxSlots :=
  let opened : Option (EpochRxSlot × EpochRxSlots) :=
    match slots.slot0 with
    | none =>
      if epoch > saturatingAdd 32 sendEpoch
          SecureDatagramSession.MAX_ACCEPTED_RX_EPOCH_AHEAD then
        none
      else
        some (.fresh epoch nowMs, { slots with slot0 := some (.fresh epoch nowMs) })
    | some slot0 => some (slot0, slots)
  match opened with
  | none => (false, slots)
  | some (slot0, slots) => slots.commitFrom sendEpoch epoch seq nowMs slot0

def commit : Bool × EpochRxSlots :=
  match slots.slot0 with
  | none =>
    if epoch > saturatingAdd 32 sendEpoch
        SecureDatagramSession.MAX_ACCEPTED_RX_EPOCH_AHEAD then
      (false, slots)
    else
      let (accepted, fresh) := (EpochRxSlot.fresh epoch nowMs).accept seq nowMs
      (accepted, { slots with slot0 := some fresh })
  | some slot0 => slots.commitFrom sendEpoch epoch seq nowMs slot0

end EpochRxSlots

/-- The rx slots and the grace copy that one replay check works on. -/
structure ReplayState where
  rx : RxSlots
  grace : Option SyncRxGrace

namespace ReplayState

/-- The grace copy, if it holds the epoch in that direction. -/
def graceFor (state : ReplayState) (dir : Direction) (epoch : Nat) : Option SyncRxGrace :=
  state.grace.filter fun grace => (grace.slots dir).holds epoch

def precheck (state : ReplayState) (sendEpoch epoch seq : Nat) (dir : Direction) : Bool :=
  match state.graceFor dir epoch with
  | some grace => (grace.slots dir).canAcceptHeld epoch seq
  | none => (state.rx dir).precheck sendEpoch epoch seq

/-- The commit functions, by the function that they apply to the rx slots. -/
def commitWith (commitRx : EpochRxSlots → Nat → Nat → Nat → Nat → Bool × EpochRxSlots)
    (state : ReplayState) (sendEpoch epoch seq : Nat) (dir : Direction) (nowMs : Nat) :
    Bool × ReplayState :=
  match state.graceFor dir epoch with
  | some grace =>
    let (accepted, slots) := (grace.slots dir).acceptHeld epoch seq nowMs
    (accepted, { state with
      grace := some { grace with slots := Function.update grace.slots dir slots } })
  | none =>
    let (accepted, slots) := commitRx (state.rx dir) sendEpoch epoch seq nowMs
    (accepted, { state with rx := Function.update state.rx dir slots })

def commitState := commitWith EpochRxSlots.commitState

def commit := commitWith EpochRxSlots.commit

end ReplayState

structure ReplayCommit where
  direction : Direction
  epoch : Nat
  seq : Nat
  sendEpoch : Nat
  before : ReplayState
  after : ReplayState
  accepted : Bool

namespace SecureDatagramSession

variable (s : SecureDatagramSession)

/-- The grace copy that `precheck_replay` and `commit_replay` consult, through the
cached expiry time. -/
def liveGrace (nowMs : Nat) :
    Option SyncRxGrace × SecureDatagramSession :=
  if s.syncRxGraceExpiresAtMs = 0 then
    (none, s)
  else if nowMs < s.syncRxGraceExpiresAtMs then
    match SyncRxGrace.maybeExpire s.syncRxGrace nowMs with
    | some grace => (some grace, { s with syncRxGrace := some grace })
    | none => (none, { s with syncRxGrace := none, syncRxGraceExpiresAtMs := 0 })
  else
    (none, { s with syncRxGraceExpiresAtMs := 0 })

def pruneKeyCache (rx : RxSlots) (grace : Option SyncRxGrace) :
    SecureDatagramSession :=
  let allowed (dir : Direction) (slot : EpochKeySlot) : Bool :=
    slot.epoch == s.sendEpoch || (rx dir).holds slot.epoch ||
      grace.any fun grace => (grace.slots dir).holds slot.epoch
  { s with
    keyCache := fun dir =>
      ((s.keyCache dir).1.filter (allowed dir), (s.keyCache dir).2.filter (allowed dir)) }

variable (epoch seq : Nat) (dir : Direction) (nowMs : Nat)

def precheckReplay :
    Bool × SecureDatagramSession :=
  let (grace, s) := s.liveGrace nowMs
  (ReplayState.precheck ⟨s.rxSlots, grace⟩ s.sendEpoch epoch seq dir, s)

def commitReplay :
    ReplayCommit × SecureDatagramSession :=
  let (grace, s) := s.liveGrace nowMs
  let before : ReplayState := ⟨s.rxSlots, grace⟩
  let (accepted, after) := before.commit s.sendEpoch epoch seq dir nowMs
  -- without a live grace copy the stored one stays as it is
  let written := { s with rxSlots := after.rx, syncRxGrace := after.grace <|> s.syncRxGrace }
  (⟨dir, epoch, seq, s.sendEpoch, before, after, accepted⟩,
    written.pruneKeyCache after.rx after.grace)

structure SealedNonce where
  epoch : Nat
  seq : Nat
  aad : Bytes
deriving DecidableEq

def readNonce (packet : ZCPacket) : Except SessionError SealedNonce :=
  if packet.peerManagerHeader.any (·.isEncrypted) then
    match packet.payload.bind aeadTailNonce with
    | none => .error (.message "no tail")
    | some nonceBytes =>
      match packetAad packet with
      | .error error => .error error
      | .ok aad => .ok ⟨beValue (nonceBytes.take 4), beValue (nonceBytes.drop 4), aad⟩
  else
    .error (.message "secure datagram packet is not encrypted")

structure DecryptResult where
  result : Except SessionError Unit
  packet : ZCPacket
  session : SecureDatagramSession
  /-- The replay commits of the call. -/
  commits : List ReplayCommit

variable (crypto : Crypto)

def openAndCommit (dir : Direction) (packet : ZCPacket) (nonce : SealedNonce) (nowMs : Nat) :
    DecryptResult :=
  let (encryptor, s) := s.getOrCreateEncryptor crypto nonce.epoch dir s.sessionGeneration false
  match encryptor.decryptWithAad crypto packet nonce.aad with
  | (.error error, packet) => ⟨.error (.cipher error), packet, s.recordDecryptFailure, []⟩
  | (.ok (), packet) =>
    let (commit, s) := s.commitReplay nonce.epoch nonce.seq dir nowMs
    if !commit.accepted then
      ⟨.error (.message "replay rejected"), packet, s, [commit]⟩
    else
      ⟨.ok (), packet, s.recordAuthenticatedSuccess, [commit]⟩

def decryptPayload (dir : Direction) (packet : ZCPacket) (nowMs : Nat) : DecryptResult :=
  if !s.isValid then
    ⟨.error (.message "session invalidated"), packet, s, []⟩
  else
    match readNonce packet with
    | .error error => ⟨.error error, packet, s, []⟩
    | .ok nonce =>
      let (allowed, s) := s.precheckReplay nonce.epoch nonce.seq dir nowMs
      if !allowed then
        ⟨.error (.message "replay rejected"), packet, s, []⟩
      else
        s.openAndCommit crypto dir packet nonce nowMs

def NONCE_SLOTS : Nat := 128

abbrev NonceTable := Fin 128 → Option ((Nat × Nat) × Nat)

def nonceSlot : Fin 128 :=
  Fin.ofNat 128 (epoch * 0x9e3779b1 % 2 ^ 64 ^^^ seq ^^^ seq >>> 32)

/-- What the probe loop ends on: an earlier packet with the same nonce, or a free slot. -/
inductive Probe where
  | duplicateOf (first : Nat)
  | vacant (slot : Fin 128)

/-- The probe loop from `slot`, for at most `fuel` slots.  `none` where every slot
of the table holds another nonce, so that the loop never ends. -/
def probe (table : NonceTable) (nonce : Nat × Nat) : Nat → Fin 128 → Option Probe
  | 0, _ => none
  | fuel + 1, slot =>
    match table slot with
    | some (stored, first) =>
      if stored = nonce then some (.duplicateOf first) else probe table nonce fuel (slot + 1)
    | none => some (.vacant slot)

def markDuplicate (duplicate : Fin 64 → Bool) (index : Nat) : Option (Fin 64 → Bool) :=
  if h : index < 64 then some (Function.update duplicate ⟨index, h⟩ true) else none

/-- The scan for duplicate nonces from packet `index` on; `none` where it panics
or does not end. -/
def scanDuplicates : Nat → List (Except SessionError SealedNonce) → NonceTable →
    (Fin 64 → Bool) → Option (Fin 64 → Bool)
  | _, [], _, duplicate => some duplicate
  | index, .error _ :: rest, table, duplicate => scanDuplicates (index + 1) rest table duplicate
  | index, .ok nonce :: rest, table, duplicate =>
    match probe table (nonce.epoch, nonce.seq) NONCE_SLOTS (nonceSlot nonce.epoch nonce.seq) with
    | none => none
    | some (.duplicateOf first) => do
        let duplicate ← markDuplicate duplicate first
        let duplicate ← markDuplicate duplicate index
        scanDuplicates (index + 1) rest table duplicate
    | some (.vacant slot) =>
      scanDuplicates (index + 1) rest
        (Function.update table slot (some ((nonce.epoch, nonce.seq), index))) duplicate

/-! ## Decryption of a batch -/

/-- `replay_state_snapshot`: the working copy of the grace record expires, the
stored one does not. -/
def replayStateSnapshot :
    ReplayState × SecureDatagramSession :=
  match s.syncRxGrace with
  | none => (⟨s.rxSlots, none⟩, s)
  | some grace =>
    match SyncRxGrace.maybeExpire (some grace) nowMs with
    | some grace => (⟨s.rxSlots, some grace⟩, s)
    | none => (⟨s.rxSlots, none⟩, { s with syncRxGraceExpiresAtMs := 0 })

/-- The verdict on one packet with a nonce: it stays a candidate if it is no
duplicate and passes the check on the snapshot. -/
def verdict (snapshot : ReplayState) (sendEpoch : Nat) (dir : Direction) (isDuplicate : Bool)
    (nonce : SealedNonce) : Except SessionError SealedNonce :=
  if isDuplicate then
    .error (.message "duplicate nonce in secure datagram batch")
  else if !snapshot.precheck sendEpoch nonce.epoch nonce.seq dir then
    .error (.message "replay rejected")
  else
    .ok nonce

/-- The candidate loop from packet `index` on; `none` where `duplicate[index]` panics. -/
def classify (snapshot : ReplayState) (sendEpoch : Nat) (dir : Direction)
    (duplicate : Fin 64 → Bool) :
    Nat → List (Except SessionError SealedNonce) → Option (List (Except SessionError SealedNonce))
  | _, [] => some []
  | index, .error error :: rest => do
      let verdicts ← classify snapshot sendEpoch dir duplicate (index + 1) rest
      some (.error error :: verdicts)
  | index, .ok nonce :: rest =>
    if h : index < 64 then do
      let verdicts ← classify snapshot sendEpoch dir duplicate (index + 1) rest
      some (verdict snapshot sendEpoch dir (duplicate ⟨index, h⟩) nonce :: verdicts)
    else
      none

/-- State of the decryption loop: the session, the ciphers looked up so far and
whether some packet failed to open. -/
structure OpenState where
  session : SecureDatagramSession
  decryptors : List (Nat × RingCipher)
  sawDecryptFailure : Bool

def OpenState.decryptor (state : OpenState) (crypto : Crypto) (dir : Direction) (epoch : Nat) :
    RingCipher × OpenState :=
  match state.decryptors.find? (·.1 == epoch) with
  | some (_, decryptor) => (decryptor, state)
  | none =>
    let (decryptor, session) := state.session.getOrCreateEncryptor crypto epoch dir
      state.session.sessionGeneration false
    (decryptor, { state with
      session := session, decryptors := state.decryptors ++ [(epoch, decryptor)] })

/-- The decryption loop over the packets with their verdicts. -/
def openLoop (crypto : Crypto) (dir : Direction) :
    OpenState → List (ZCPacket × Except SessionError SealedNonce) →
      OpenState × List (ZCPacket × Except SessionError SealedNonce)
  | state, [] => (state, [])
  | state, (packet, .error error) :: rest =>
    let tail := openLoop crypto dir state rest
    (tail.1, (packet, .error error) :: tail.2)
  | state, (packet, .ok nonce) :: rest =>
    let (decryptor, state) := state.decryptor crypto dir nonce.epoch
    match decryptor.decryptWithAad crypto packet nonce.aad with
    | (.error error, packet) =>
      let tail := openLoop crypto dir { state with sawDecryptFailure := true } rest
      (tail.1, (packet, .error (.cipher error)) :: tail.2)
    | (.ok (), packet) =>
      let tail := openLoop crypto dir state rest
      (tail.1, (packet, .ok nonce) :: tail.2)

structure Opened where
  epoch : Nat
  seq : Nat
  index : Nat
deriving DecidableEq

/-- The order of the commits: by epoch, then by sequence, then by index. -/
def Opened.le (a b : Opened) : Prop :=
  a.epoch < b.epoch ∨
    a.epoch = b.epoch ∧ (a.seq < b.seq ∨ a.seq = b.seq ∧ a.index ≤ b.index)

instance : DecidableRel Opened.le := fun a b => by
  unfold Opened.le
  infer_instance

def openedPackets : Nat → List (ZCPacket × Except SessionError SealedNonce) → List Opened
  | _, [] => []
  | index, (_, .error _) :: rest => openedPackets (index + 1) rest
  | index, (_, .ok nonce) :: rest =>
    ⟨nonce.epoch, nonce.seq, index⟩ :: openedPackets (index + 1) rest

/-- One turn of the commit loop: the new working state, the packet's index and the
commit. -/
def commitStep (sendEpoch : Nat) (dir : Direction) (nowMs : Nat) (state : ReplayState)
    (packet : Opened) : ReplayState × List (Nat × ReplayCommit) :=
  let (accepted, after) := state.commitState sendEpoch packet.epoch packet.seq dir nowMs
  (after, [(packet.index,
    ⟨dir, packet.epoch, packet.seq, sendEpoch, state, after, accepted⟩)])

/-- Outcomes of the packets from `index` on, after the commits. -/
def outcomes (commits : List (Nat × ReplayCommit)) :
    Nat → List (ZCPacket × Except SessionError SealedNonce) → List (Except SessionError Unit)
  | _, [] => []
  | index, (_, .error error) :: rest => .error error :: outcomes commits (index + 1) rest
  | index, (_, .ok _) :: rest =>
    (if commits.any fun commit => commit.1 == index && !commit.2.accepted then
      .error (.message "replay rejected")
    else
      .ok ()) :: outcomes commits (index + 1) rest

structure BatchDecryptResult where
  /-- `none` if the call panics or does not return. -/
  outcomes : Option (List (Except SessionError Unit))
  packets : List ZCPacket
  session : SecureDatagramSession
  commits : List ReplayCommit

def commitOpened (opened : List Opened) : List (Nat × ReplayCommit) × SecureDatagramSession :=
  let order := opened.insertionSort Opened.le
  let grace := SyncRxGrace.maybeExpire s.syncRxGrace nowMs
  let (work, commits) :=
    Trace.run (commitStep s.sendEpoch dir nowMs) ⟨s.rxSlots, grace⟩ order
  let written := { s with
    rxSlots := work.rx
    syncRxGrace := work.grace
    syncRxGraceExpiresAtMs := if grace.isNone then 0 else s.syncRxGraceExpiresAtMs }
  (commits, written.pruneKeyCache work.rx work.grace)

def recordBatch (results : List (Except SessionError Unit)) (sawDecryptFailure : Bool) :
    SecureDatagramSession :=
  if results.any fun outcome => outcome matches .ok () then
    s.recordAuthenticatedSuccess
  else if sawDecryptFailure then
    s.recordDecryptFailure
  else
    s

def commitBatch (opened : List (ZCPacket × Except SessionError SealedNonce))
    (sawDecryptFailure : Bool) :
    BatchDecryptResult :=
  let (commits, committed) := s.commitOpened dir nowMs (openedPackets 0 opened)
  let results := outcomes commits 0 opened
  ⟨some results, opened.map (·.1), committed.recordBatch results sawDecryptFailure,
    commits.map (·.2)⟩

def decryptPayloadBatch (dir : Direction) (packets : List ZCPacket) (nowMs : Nat) :
    BatchDecryptResult :=
  if !s.isValid then
    ⟨some (packets.map fun _ => .error (.message "session invalidated")), packets, s, []⟩
  else if packets.isEmpty then
    ⟨some [], packets, s, []⟩
  else
    let nonces := packets.map readNonce
    match scanDuplicates 0 nonces (fun _ => none) (fun _ => false) with
    | none => ⟨none, packets, s, []⟩
    | some duplicate =>
      let (snapshot, s) := s.replayStateSnapshot nowMs
      match classify snapshot s.sendEpoch dir duplicate 0 nonces with
      | none => ⟨none, packets, s, []⟩
      | some verdicts =>
        let (state, opened) := openLoop crypto dir ⟨s, [], false⟩ (packets.zip verdicts)
        state.session.commitBatch dir nowMs opened state.sawDecryptFailure

end SecureDatagramSession

end LowerTier.Peers
