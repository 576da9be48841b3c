import LowerTier.Peers.Encrypt
import LowerTier.Peers.ReplayWindow
import LowerTier.ProofSupport.MachineInt

/-!
# Secure datagram sessions (`peers/secure_datagram.rs`)

State of a `SecureDatagramSession`, its key schedule, its send side and its
receive windows.  One session holds, for each direction, two receive epochs
with a replay window each, and for a limited time after a SYNC a copy of the
epochs from before it.

Epochs are `u32` and sequences are `u64` in the source; here they are naturals
with the saturating and wrapping operations written out.  A clock reading is an
argument of each call that takes one.
-/

namespace LowerTier.Peers

open ProofSupport.ByteString ProofSupport.MachineInt Tunnel

inductive Direction where
  | aToB | bToA
deriving DecidableEq, Repr

def Direction.idx : Direction → Nat
  | .aToB => 0
  | .bToA => 1

inductive SessionError where
  | message (text : String)
  | cipher (error : EncryptError)
deriving DecidableEq, Repr

/-- `EpochKeySlot` with `valid: true`; an invalid slot is `none`.  The source reads
no other field of a slot that is not valid, and every valid slot has both ciphers. -/
structure EpochKeySlot where
  epoch : Nat
  generation : Nat
  sendCipher : RingCipher
  recvCipher : RingCipher
deriving DecidableEq

/-- `EpochRxSlot` with `valid: true`; an invalid slot is `none`. -/
structure EpochRxSlot where
  epoch : Nat
  window : ReplayWindow
  lastRxMs : Nat
deriving DecidableEq

structure EpochRxSlots where
  slot0 : Option EpochRxSlot
  slot1 : Option EpochRxSlot
deriving DecidableEq

def EpochRxSlots.default : EpochRxSlots := ⟨none, none⟩

/-- `[[EpochRxSlot; 2]; 2]`, indexed by direction. -/
abbrev RxSlots := Direction → EpochRxSlots

/-- `SyncRxGrace` with `valid: true`; a cleared record is `none`. -/
structure SyncRxGrace where
  slots : RxSlots
  expiresAtMs : Nat

def SyncRxGrace.maybeExpire (grace : Option SyncRxGrace) (nowMs : Nat) : Option SyncRxGrace :=
  grace.filter (nowMs < ·.expiresAtMs)

structure SecureDatagramSession where
  rootKey : Bytes
  sessionGeneration : Nat
  sendEpoch : Nat
  sendSeq : Direction → Nat
  sendEpochStartedMs : Nat
  sendPacketsSinceEpoch : Nat
  rxSlots : RxSlots
  keyCache : Direction → Option EpochKeySlot × Option EpochKeySlot
  syncRxGrace : Option SyncRxGrace
  syncRxGraceExpiresAtMs : Nat
  sendCipherAlgorithm : String
  recvCipherAlgorithm : String
  invalidated : Bool
  decryptFailCount : Nat

namespace SecureDatagramSession

def SYNC_RX_GRACE_AFTER_MS : Nat := 5000

def ROTATE_AFTER_PACKETS : Nat := 1000000

def ROTATE_AFTER_MS : Nat := 10 * 60 * 1000

def MAX_ACCEPTED_RX_EPOCH_AHEAD : Nat := 3

def DECRYPT_FAIL_THRESHOLD : Nat := 10

def new (rootKey : Bytes) (sessionGeneration initialEpoch : Nat)
    (sendCipherAlgorithm recvCipherAlgorithm : String) (nowMs : Nat) : SecureDatagramSession where
  rootKey := rootKey
  sessionGeneration := sessionGeneration
  sendEpoch := initialEpoch
  sendSeq := fun _ => 0
  sendEpochStartedMs := nowMs
  sendPacketsSinceEpoch := 0
  rxSlots := fun _ => .default
  keyCache := fun _ => (none, none)
  syncRxGrace := none
  syncRxGraceExpiresAtMs := 0
  sendCipherAlgorithm := sendCipherAlgorithm
  recvCipherAlgorithm := recvCipherAlgorithm
  invalidated := false
  decryptFailCount := 0

variable (s : SecureDatagramSession)

def invalidate : SecureDatagramSession :=
  { s with invalidated := true }

def isValid : Bool := !s.invalidated

def recordDecryptFailure : SecureDatagramSession :=
  { s with decryptFailCount := min (saturatingAdd 32 s.decryptFailCount 1) DECRYPT_FAIL_THRESHOLD }

def recordAuthenticatedSuccess : SecureDatagramSession :=
  { s with decryptFailCount := 0 }

def maxWithSlot (bound : Nat) (slot : Option EpochRxSlot) : Nat :=
  slot.elim bound fun slot => max bound slot.epoch

def nextSyncEpoch : Nat :=
  let forDirection (bound : Nat) (dir : Direction) : Nat :=
    maxWithSlot (maxWithSlot bound (s.rxSlots dir).slot0) (s.rxSlots dir).slot1
  wrappingAdd 32 (forDirection (forDirection s.sendEpoch .aToB) .bToA) 1

/-- The slot of the target epoch that a SYNC keeps: the first valid one. -/
def keptSlot (slots : EpochRxSlots) (initialEpoch : Nat) : Option EpochRxSlot :=
  slots.slot0.filter (·.epoch == initialEpoch) <|> slots.slot1.filter (·.epoch == initialEpoch)

/-- A slot that goes into the grace copy, cleared if it is the target epoch's. -/
def graceSlot (initialEpoch : Nat) (slot : Option EpochRxSlot) : Option EpochRxSlot :=
  slot.filter (·.epoch != initialEpoch)

/-- `sync_root_key`.  The clock is read once for the send epoch and once more for
the end of the grace period. -/
def syncRootKey (rootKey : Bytes) (sessionGeneration initialEpoch : Nat) (preserveRxGrace : Bool)
    (startedMs graceMs : Nat) : SecureDatagramSession :=
  let canPreserveRxGrace := preserveRxGrace && s.rootKey == rootKey
  let base : SecureDatagramSession := { s with
    rootKey := rootKey
    sessionGeneration := sessionGeneration
    sendEpoch := initialEpoch
    sendSeq := fun _ => 0
    sendEpochStartedMs := startedMs
    sendPacketsSinceEpoch := 0
    keyCache := fun _ => (none, none)
    decryptFailCount := 0 }
  if canPreserveRxGrace then
    let expiresAtMs := saturatingAdd 64 graceMs SYNC_RX_GRACE_AFTER_MS
    { base with
      rxSlots := fun dir =>
        ⟨keptSlot (s.rxSlots dir) initialEpoch, none⟩
      syncRxGrace := some {
        slots := fun dir =>
          ⟨graceSlot initialEpoch (s.rxSlots dir).slot0,
            graceSlot initialEpoch (s.rxSlots dir).slot1⟩
        expiresAtMs := expiresAtMs }
      syncRxGraceExpiresAtMs := expiresAtMs }
  else
    { base with
      rxSlots := fun _ => .default
      syncRxGrace := none
      syncRxGraceExpiresAtMs := 0 }

def TRAFFIC_LABEL : Bytes := "et-traffic".toUTF8.toList

variable (crypto : Crypto)

def hkdfTrafficKey (epoch : Nat) (dir : Direction) : Bytes :=
  let prk := crypto.hmacSha256 (List.replicate 32 0) s.rootKey
  let info := TRAFFIC_LABEL ++ beBytes 4 epoch ++ [UInt8.ofNat dir.idx]
  (crypto.hmacSha256 prk (info ++ [1])).take 32

def newKeySlot (epoch : Nat) (dir : Direction) (generation : Nat) : EpochKeySlot :=
  let key := s.hkdfTrafficKey crypto epoch dir
  let key128 := key.take 16
  { epoch := epoch
    generation := generation
    sendCipher := createSecureDatagramEncryptor s.sendCipherAlgorithm key128 key
    recvCipher := createSecureDatagramEncryptor s.recvCipherAlgorithm key128 key }

def getEncryptor (slot : EpochKeySlot) (isSend : Bool) : RingCipher :=
  if isSend then slot.sendCipher else slot.recvCipher

def getOrCreateEncryptor (epoch : Nat) (dir : Direction) (generation : Nat) (isSend : Bool) :
    RingCipher × SecureDatagramSession :=
  let (first, second) := s.keyCache dir
  let hit (slot : EpochKeySlot) : Bool := slot.epoch == epoch && slot.generation == generation
  match first.filter hit <|> second.filter hit with
  | some slot => (getEncryptor slot isSend, s)
  | none =>
    let slot := s.newKeySlot crypto epoch dir generation
    let cached := if first.all (·.epoch == epoch) then
        (some slot, second)
      else
        (first, some slot)
    (getEncryptor slot isSend, { s with keyCache := Function.update s.keyCache dir cached })

/-! ## Sending -/

def chargePackets (packetCount : Nat) : SecureDatagramSession :=
  { s with
    sendPacketsSinceEpoch := saturatingAdd 64 s.sendPacketsSinceEpoch packetCount }

def rotationDue (nowMs : Nat) : Bool :=
  !(s.sendPacketsSinceEpoch < ROTATE_AFTER_PACKETS &&
    nowMs - s.sendEpochStartedMs < ROTATE_AFTER_MS)

def rotateEpoch (nowMs : Nat) : SecureDatagramSession :=
  if s.rotationDue nowMs then
    { s with
      sendEpoch := wrappingAdd 32 s.sendEpoch 1
      sendEpochStartedMs := nowMs
      sendPacketsSinceEpoch := 0 }
  else
    s

def maybeRotateEpoch (nowMs packetCount : Nat) :
    SecureDatagramSession :=
  let charged := s.chargePackets packetCount
  if charged.rotationDue nowMs then charged.rotateEpoch nowMs else charged

variable (dir : Direction)

/-- The compare-and-swap loop on the sequence counter: the first sequence of the
range, or `none` when the counter is exhausted. -/
def reserveSequence (packetCount : Nat) :
    Option Nat × SecureDatagramSession :=
  let current := s.sendSeq dir
  if current > maxValue 64 - packetCount then
    (none, s)
  else
    (some current, { s with sendSeq := Function.update s.sendSeq dir (current + packetCount) })

def reserveNonceRange (packetCount nowMs : Nat) :
    Except SessionError (Nat × Nat) × SecureDatagramSession :=
  if packetCount = 0 then
    (.ok (s.sendEpoch, 0), s)
  else
    let rotated := s.maybeRotateEpoch nowMs packetCount
    let epoch := rotated.sendEpoch
    match rotated.reserveSequence dir packetCount with
    | (none, s') => (.error (.message "secure datagram nonce sequence exhausted"), s')
    | (some seq, s') => (.ok (epoch, seq), s')

def nonce (epoch seq : Nat) : Bytes := beBytes 4 epoch ++ beBytes 8 seq

def packetAad (packet : ZCPacket) : Except SessionError Bytes :=
  match packet.peerManagerHeader with
  | none => .error (.message "secure datagram packet has no peer header")
  | some header => .ok header.stableAuthData

structure NonceUse where
  direction : Direction
  epoch : Nat
  seq : Nat
deriving DecidableEq, Repr

/-- Result of an encryption call, with the nonces that reached the cipher. -/
structure EncryptResult (α : Type) where
  result : Except SessionError Unit
  packets : α
  session : SecureDatagramSession
  sealed : List NonceUse

def encryptPayload (packet : ZCPacket) (nowMs : Nat) : EncryptResult ZCPacket :=
  if !s.isValid then
    ⟨.error (.message "session invalidated"), packet, s, []⟩
  else
    match s.reserveNonceRange dir 1 nowMs with
    | (.error error, s) => ⟨.error error, packet, s, []⟩
    | (.ok (epoch, seq), s) =>
      match packetAad packet with
      | .error error => ⟨.error error, packet, s, []⟩
      | .ok aad =>
        let (encryptor, s) :=
          s.getOrCreateEncryptor crypto epoch dir s.sessionGeneration true
        match encryptor.encryptWithNonceAndAad crypto packet (nonce epoch seq) aad with
        | (.error error, packet) =>
          ⟨.error (.cipher error), packet, s.invalidate, [⟨dir, epoch, seq⟩]⟩
        | (.ok (), packet) => ⟨.ok (), packet, s, [⟨dir, epoch, seq⟩]⟩

/-- The loop of `encrypt_payload_batch` from `seq` on: the result, the packets,
whether the session is invalidated and the nonces used. -/
def encryptLoop (crypto : Crypto) (encryptor : RingCipher) (dir : Direction) (epoch : Nat) :
    Nat → List ZCPacket → Except SessionError Unit × List ZCPacket × Bool × List NonceUse
  | _, [] => (.ok (), [], false, [])
  | seq, packet :: rest =>
    if seq > maxValue 64 then
      (.error (.message "secure datagram nonce sequence exhausted"), packet :: rest, false, [])
    else
      match packetAad packet with
      | .error error => (.error error, packet :: rest, false, [])
      | .ok aad =>
        match encryptor.encryptWithNonceAndAad crypto packet (nonce epoch seq) aad with
        | (.error error, packet) =>
          (.error (.cipher error), packet :: rest, true, [⟨dir, epoch, seq⟩])
        | (.ok (), packet) =>
          let tail := encryptLoop crypto encryptor dir epoch (seq + 1) rest
          (tail.1, packet :: tail.2.1, tail.2.2.1, ⟨dir, epoch, seq⟩ :: tail.2.2.2)

def encryptPayloadBatch (packets : List ZCPacket) (nowMs : Nat) : EncryptResult (List ZCPacket) :=
  if !s.isValid then
    ⟨.error (.message "session invalidated"), packets, s, []⟩
  else if packets.isEmpty then
    ⟨.ok (), packets, s, []⟩
  else
    match s.reserveNonceRange dir packets.length nowMs with
    | (.error error, s) => ⟨.error error, packets, s, []⟩
    | (.ok (epoch, startSeq), s) =>
      let (encryptor, s) :=
        s.getOrCreateEncryptor crypto epoch dir s.sessionGeneration true
      let loop := encryptLoop crypto encryptor dir epoch startSeq packets
      ⟨loop.1, loop.2.1, if loop.2.2.1 then s.invalidate else s, loop.2.2.2⟩

/-- What receiving never changes. -/
structure SendSide where
  rootKey : Bytes
  sessionGeneration : Nat
  sendEpoch : Nat
  sendSeq : Direction → Nat
  sendEpochStartedMs : Nat
  sendPacketsSinceEpoch : Nat
  sendCipherAlgorithm : String
  recvCipherAlgorithm : String
  invalidated : Bool

def sendSide : SendSide := { s with }

/-- What encryption and the key cache never change. -/
structure ReceiveSide where
  rxSlots : RxSlots
  syncRxGrace : Option SyncRxGrace
  syncRxGraceExpiresAtMs : Nat

def receiveSide : ReceiveSide := { s with }

section KeyCache

variable (s : SecureDatagramSession) (crypto : Crypto) (epoch generation : Nat) (dir : Direction)
  (isSend : Bool)

theorem getOrCreateEncryptor_keyCache :
    ∃ cache, (s.getOrCreateEncryptor crypto epoch dir generation isSend).2 =
      { s with keyCache := cache } := by
  simp only [getOrCreateEncryptor]
  split
  · exact ⟨s.keyCache, rfl⟩
  · exact ⟨_, rfl⟩

@[simp] theorem getOrCreateEncryptor_sendSide :
    (s.getOrCreateEncryptor crypto epoch dir generation isSend).2.sendSide = s.sendSide := by
  obtain ⟨cache, hcache⟩ := s.getOrCreateEncryptor_keyCache crypto epoch generation dir isSend
  rw [hcache]
  rfl

@[simp] theorem getOrCreateEncryptor_receiveSide :
    (s.getOrCreateEncryptor crypto epoch dir generation isSend).2.receiveSide = s.receiveSide := by
  obtain ⟨cache, hcache⟩ := s.getOrCreateEncryptor_keyCache crypto epoch generation dir isSend
  rw [hcache]
  rfl

end KeyCache

end SecureDatagramSession

end LowerTier.Peers
