import LowerTier.Peers.SecureDatagram.Receive

/-!
# Peer sessions (`peers/peer_session.rs`)

A `PeerSession` is a secure datagram session together with the identity of the
peer and the state of one SYNC in preparation.  A SYNC is prepared, which
reserves an epoch and gives out a revision, and is later committed or canceled
with that revision.

Every method below runs under the lock of `transition`, so that it is one step.
-/

namespace LowerTier.Peers

open ProofSupport.ByteString ProofSupport.MachineInt Tunnel

inductive PeerSessionAction where
  | join | sync | create
deriving DecidableEq, Repr

abbrev Uuid := Nat

structure CommittedTransition where
  action : PeerSessionAction
  sessionGeneration : Nat
  rootKey : Bytes
  initialEpoch : Nat
  transitionId : Bytes
  transitionRevision : Nat
deriving DecidableEq, Repr

structure SessionTransition where
  revision : Nat
  reservedEpoch : Nat
  pendingEpoch : Option Nat
  pendingPeerStaticPubkey : Option Bytes
  committedHistory : List CommittedTransition

structure PeerSession where
  peerId : PeerId
  metadataSessionId : Uuid
  peerStaticPubkey : Option Bytes
  datagram : SecureDatagramSession
  transition : SessionTransition
  invalidated : Bool

structure PreparedSync where
  sessionGeneration : Nat
  rootKey : Bytes
  initialEpoch : Nat
  revision : Nat
deriving DecidableEq, Repr

namespace PeerSession

def MAX_COMMITTED_TRANSITIONS_PER_SESSION : Nat := 8

def new (peerId : PeerId) (metadataSessionId : Uuid) (rootKey : Bytes)
    (sessionGeneration initialEpoch : Nat) (sendCipherAlgorithm recvCipherAlgorithm : String)
    (peerStaticPubkey : Option Bytes) (nowMs : Nat) : PeerSession where
  peerId := peerId
  metadataSessionId := metadataSessionId
  peerStaticPubkey := peerStaticPubkey
  datagram := .new rootKey sessionGeneration initialEpoch sendCipherAlgorithm
    recvCipherAlgorithm nowMs
  transition := {
    revision := 0
    reservedEpoch := initialEpoch
    pendingEpoch := none
    pendingPeerStaticPubkey := none
    committedHistory := [] }
  invalidated := false

variable (p : PeerSession)

def invalidate : PeerSession :=
  { p with invalidated := true, datagram := p.datagram.invalidate }

def isValid : Bool := !p.invalidated && p.datagram.isValid

/-! ## SYNC -/

def minimumSyncEpoch : Nat :=
  max p.datagram.nextSyncEpoch (wrappingAdd 32 p.transition.reservedEpoch 1)

def reserveSync (nextEpoch : Nat) : PreparedSync × PeerSession :=
  let revision := wrappingAdd 64 p.transition.revision 1
  let transition := { p.transition with
    reservedEpoch := nextEpoch
    pendingEpoch := some nextEpoch
    revision := revision }
  (⟨p.datagram.sessionGeneration, p.datagram.rootKey, nextEpoch, revision⟩,
    { p with transition := transition })

def prepareSyncTransitionAt (requestedEpoch : Option Nat) :
    Except SessionError PreparedSync × PeerSession :=
  if p.transition.pendingEpoch.isSome then
    (.error (.message "session synchronization is already pending"), p)
  else
    match requestedEpoch with
    | none =>
      let (prepared, p') := p.reserveSync p.minimumSyncEpoch
      (.ok prepared, p')
    | some epoch =>
      if epoch < p.minimumSyncEpoch then
        (.error (.message "session synchronization epoch is stale"), p)
      else
        let (prepared, p') := p.reserveSync epoch
        (.ok prepared, p')

def pushCommitted (history : List CommittedTransition) (entry : CommittedTransition) :
    List CommittedTransition :=
  let extended := history ++ [entry]
  extended.drop (extended.length - MAX_COMMITTED_TRANSITIONS_PER_SESSION)

variable (expectedRevision : Nat) (rootKey : Bytes) (sessionGeneration initialEpoch : Nat)

def applySync (transitionId : Bytes) (startedMs graceMs : Nat) :
    PeerSession :=
  let transition := p.transition
  { p with
    datagram :=
      p.datagram.syncRootKey rootKey sessionGeneration initialEpoch true startedMs graceMs
    -- a pending key is published without a look at the one that is there
    peerStaticPubkey := transition.pendingPeerStaticPubkey <|> p.peerStaticPubkey
    transition := {
      revision := wrappingAdd 64 transition.revision 1
      reservedEpoch := max transition.reservedEpoch initialEpoch
      pendingEpoch := none
      pendingPeerStaticPubkey := none
      committedHistory := pushCommitted transition.committedHistory {
        action := .sync
        sessionGeneration := sessionGeneration
        rootKey := rootKey
        initialEpoch := initialEpoch
        transitionId := transitionId
        transitionRevision := expectedRevision } } }

def commitReservedSync (transitionId : Bytes) (startedMs graceMs : Nat) :
    Except SessionError Unit × PeerSession :=
  if !p.isValid then
    (.error (.message "session invalidated before synchronization commit"), p)
  else if p.transition.revision ≠ expectedRevision ∨
      p.transition.pendingEpoch ≠ some initialEpoch then
    (.error (.message "session changed before synchronization commit"), p)
  else
    (.ok (), p.applySync expectedRevision rootKey sessionGeneration initialEpoch transitionId
      startedMs graceMs)

def cancelReservedSync (expectedRevision initialEpoch : Nat) : PeerSession :=
  if p.transition.revision = expectedRevision ∧ p.transition.pendingEpoch = some initialEpoch then
    { p with transition := { p.transition with
        pendingEpoch := none
        pendingPeerStaticPubkey := none
        reservedEpoch := wrappingSub 32 p.datagram.nextSyncEpoch 1
        revision := wrappingAdd 64 p.transition.revision 1 } }
  else
    p

def syncRootKey (preserveRxGrace : Bool) (startedMs graceMs : Nat) : PeerSession :=
  { p with
    datagram := p.datagram.syncRootKey rootKey sessionGeneration initialEpoch preserveRxGrace
      startedMs graceMs
    transition := { p.transition with
      revision := wrappingAdd 64 p.transition.revision 1
      reservedEpoch := max p.transition.reservedEpoch initialEpoch
      pendingEpoch := none
      pendingPeerStaticPubkey := none } }

def invalidateIfRevision : Bool × PeerSession :=
  if p.transition.revision ≠ expectedRevision then
    (false, p)
  else
    let invalid := p.invalidate
    (true, { invalid with transition := { p.transition with
      revision := wrappingAdd 64 p.transition.revision 1
      pendingEpoch := none
      pendingPeerStaticPubkey := none } })

variable (peerStaticPubkey : Option Bytes)

def reservePeerStaticPubkey :
    Except SessionError Unit × PeerSession :=
  match peerStaticPubkey with
  | none => (.ok (), p)
  | some key =>
    if p.peerStaticPubkey.any (· ≠ key) then
      (.error (.message "peer static pubkey mismatch"), p)
    else if p.transition.pendingPeerStaticPubkey.any (· ≠ key) then
      (.error (.message "peer static pubkey transition is already pending"), p)
    else
      (.ok (), { p with transition := { p.transition with
        pendingPeerStaticPubkey := some key } })

def commitReservedPeerStaticPubkey : Except SessionError Unit × PeerSession :=
  match p.transition.pendingPeerStaticPubkey with
  | none => (.ok (), p)
  | some key =>
    if p.peerStaticPubkey.any (· ≠ key) then
      (.error (.message "peer static pubkey mismatch"), p)
    else
      (.ok (), { p with
        peerStaticPubkey := some key
        transition := { p.transition with pendingPeerStaticPubkey := none } })

def cancelReservedPeerStaticPubkey : PeerSession :=
  { p with transition := { p.transition with pendingPeerStaticPubkey := none } }

def checkOrSetPeerStaticPubkey :
    Except SessionError Unit × PeerSession :=
  match peerStaticPubkey with
  | none => (.ok (), p)
  | some key =>
    if p.transition.pendingPeerStaticPubkey.isSome && p.peerStaticPubkey.isNone then
      (.error (.message "peer static pubkey transition is pending"), p)
    else
      match p.peerStaticPubkey with
      | some existing =>
        if existing ≠ key then
          (.error (.message "peer static pubkey mismatch"), p)
        else
          (.ok (), p)
      | none => (.ok (), { p with peerStaticPubkey := some key })

def dirForSender (senderPeerId receiverPeerId : PeerId) : Direction :=
  if senderPeerId < receiverPeerId then .aToB else .bToA

def decryptPayload (crypto : Crypto) (senderPeerId receiverPeerId : PeerId) (packet : ZCPacket)
    (nowMs : Nat) : SecureDatagramSession.DecryptResult :=
  if !p.isValid then
    ⟨.error (.message "session invalidated"), packet, p.datagram, []⟩
  else
    p.datagram.decryptPayload crypto (dirForSender senderPeerId receiverPeerId) packet nowMs

def decryptPayloadBatch (crypto : Crypto) (senderPeerId receiverPeerId : PeerId)
    (packets : List ZCPacket) (nowMs : Nat) : SecureDatagramSession.BatchDecryptResult :=
  if !p.isValid then
    ⟨some (packets.map fun _ => .error (.message "session invalidated")), packets, p.datagram, []⟩
  else
    p.datagram.decryptPayloadBatch crypto (dirForSender senderPeerId receiverPeerId) packets nowMs

end PeerSession

end LowerTier.Peers
