import LowerTier.Peers.PeerSession.Session

/-!
# The identity of a peer is pinned

A session publishes at most one static key of its peer.  `PeerIdentity` is what
the methods of a session see of it, the published key and the key that a SYNC in
preparation will publish, and `PeerIdentity.Step` lists every change they can make.
The commit of a SYNC publishes the pending key without a look at the published
one, so that pinning rests on the two keys never differing.
-/

namespace LowerTier.Peers

open ProofSupport.ByteString Tunnel

structure PeerIdentity where
  published : Option Bytes
  pending : Option Bytes

namespace PeerIdentity

inductive Step : PeerIdentity → PeerIdentity → Prop where
  | keep (identity : PeerIdentity) : Step identity identity
  | drop (published pending : Option Bytes) : Step ⟨published, pending⟩ ⟨published, none⟩
  | reserve (published pending : Option Bytes) (key : Bytes)
      (hpublished : ∀ existing ∈ published, existing = key) :
      Step ⟨published, pending⟩ ⟨published, some key⟩
  | publish (published : Option Bytes) (key : Bytes) :
      Step ⟨published, some key⟩ ⟨some key, none⟩
  | set (key : Bytes) : Step ⟨none, none⟩ ⟨some key, none⟩

def Consistent (identity : PeerIdentity) : Prop :=
  ∀ pending ∈ identity.pending, ∀ published ∈ identity.published, pending = published

variable {identity next : PeerIdentity}

theorem Step.consistent (hstep : Step identity next)
    (hconsistent : identity.Consistent) : next.Consistent := by
  cases hstep with
  | keep => exact hconsistent
  | drop published pending => exact fun _ hpending => absurd hpending (by simp)
  | reserve published pending key hpublished =>
    intro reserved hreserved existing hexisting
    obtain rfl : key = reserved := Option.some.inj hreserved
    exact (hpublished existing hexisting).symm
  | publish published key => exact fun _ hpending => absurd hpending (by simp)
  | set key => exact fun _ hpending => absurd hpending (by simp)

theorem Step.published (hstep : Step identity next) (hconsistent : identity.Consistent)
    {key : Bytes} (hkey : identity.published = some key) : next.published = some key := by
  cases hstep with
  | keep => exact hkey
  | drop published pending => exact hkey
  | reserve published pending reserved hpublished => exact hkey
  | publish published pending =>
    -- the only step that writes over a published key
    have hsame : pending = key := hconsistent pending rfl key hkey
    exact congrArg some hsame
  | set => simp at hkey

end PeerIdentity

namespace PeerSession

def identity (p : PeerSession) : PeerIdentity where
  published := p.peerStaticPubkey
  pending := p.transition.pendingPeerStaticPubkey

inductive IdentityCall where
  | reservePeerStaticPubkey (key : Option Bytes)
  | commitReservedPeerStaticPubkey
  | cancelReservedPeerStaticPubkey
  | checkOrSetPeerStaticPubkey (key : Option Bytes)
  | prepareSyncTransitionAt (requestedEpoch : Option Nat)
  | commitReservedSync (expectedRevision : Nat) (rootKey : Bytes)
      (sessionGeneration initialEpoch : Nat) (transitionId : Bytes) (startedMs graceMs : Nat)
  | cancelReservedSync (expectedRevision initialEpoch : Nat)
  | syncRootKey (rootKey : Bytes) (sessionGeneration initialEpoch : Nat)
      (preserveRxGrace : Bool) (startedMs graceMs : Nat)
  | invalidateIfRevision (expectedRevision : Nat)

def identityCall (p : PeerSession) : IdentityCall → PeerSession
  | .reservePeerStaticPubkey key => (p.reservePeerStaticPubkey key).2
  | .commitReservedPeerStaticPubkey => p.commitReservedPeerStaticPubkey.2
  | .cancelReservedPeerStaticPubkey => p.cancelReservedPeerStaticPubkey
  | .checkOrSetPeerStaticPubkey key => (p.checkOrSetPeerStaticPubkey key).2
  | .prepareSyncTransitionAt requestedEpoch => (p.prepareSyncTransitionAt requestedEpoch).2
  | .commitReservedSync expectedRevision rootKey sessionGeneration initialEpoch transitionId
      startedMs graceMs =>
      (p.commitReservedSync expectedRevision rootKey sessionGeneration initialEpoch transitionId
        startedMs graceMs).2
  | .cancelReservedSync expectedRevision initialEpoch =>
    p.cancelReservedSync expectedRevision initialEpoch
  | .syncRootKey rootKey sessionGeneration initialEpoch preserveRxGrace startedMs graceMs =>
    p.syncRootKey rootKey sessionGeneration initialEpoch preserveRxGrace startedMs graceMs
  | .invalidateIfRevision expectedRevision => (p.invalidateIfRevision expectedRevision).2

/-! ## Every call is a step of the identity -/

section Steps

variable (p : PeerSession) (key : Option Bytes)

theorem reservePeerStaticPubkey_identity :
    p.identity.Step (p.reservePeerStaticPubkey key).2.identity := by
  cases key with
  | none => exact .keep _
  | some key =>
    simp only [reservePeerStaticPubkey]
    split
    · exact .keep _
    next hmismatch =>
    split
    · exact .keep _
    · refine .reserve _ _ key fun existing hexisting => ?_
      have hpublished : p.peerStaticPubkey = some existing := hexisting
      simpa [hpublished] using hmismatch

theorem commitReservedPeerStaticPubkey_identity :
    p.identity.Step p.commitReservedPeerStaticPubkey.2.identity := by
  unfold commitReservedPeerStaticPubkey
  split
  · exact .keep _
  next key hpending =>
  split
  · exact .keep _
  · show PeerIdentity.Step ⟨p.peerStaticPubkey, p.transition.pendingPeerStaticPubkey⟩ _
    rw [hpending]
    exact .publish _ key

theorem checkOrSetPeerStaticPubkey_identity :
    p.identity.Step (p.checkOrSetPeerStaticPubkey key).2.identity := by
  cases key with
  | none => exact .keep _
  | some key =>
    simp only [checkOrSetPeerStaticPubkey]
    split
    · exact .keep _
    next hfree =>
    split
    · split
      · exact .keep _
      · exact .keep _
    next hpublished =>
    have hpending : p.transition.pendingPeerStaticPubkey = none := by
      simpa [hpublished] using hfree
    show PeerIdentity.Step ⟨p.peerStaticPubkey, p.transition.pendingPeerStaticPubkey⟩
      ⟨some key, p.transition.pendingPeerStaticPubkey⟩
    rw [hpublished, hpending]
    exact .set key

theorem prepareSyncTransitionAt_identity (requestedEpoch : Option Nat) :
    p.identity.Step (p.prepareSyncTransitionAt requestedEpoch).2.identity := by
  unfold prepareSyncTransitionAt
  split
  · exact .keep _
  split
  · exact .keep _
  · split
    · exact .keep _
    · exact .keep _

variable (expectedRevision : Nat) (rootKey : Bytes) (sessionGeneration initialEpoch : Nat)
  (transitionId : Bytes) (startedMs graceMs : Nat)

theorem applySync_identity :
    p.identity.Step (p.applySync expectedRevision rootKey sessionGeneration initialEpoch
      transitionId startedMs graceMs).identity := by
  show PeerIdentity.Step ⟨p.peerStaticPubkey, p.transition.pendingPeerStaticPubkey⟩
    ⟨(p.transition.pendingPeerStaticPubkey <|> p.peerStaticPubkey), none⟩
  cases p.transition.pendingPeerStaticPubkey with
  | none => exact .drop p.peerStaticPubkey none
  | some key => exact .publish _ key

theorem commitReservedSync_identity :
    p.identity.Step (p.commitReservedSync expectedRevision rootKey sessionGeneration initialEpoch
      transitionId startedMs graceMs).2.identity := by
  unfold commitReservedSync
  split
  · exact .keep _
  · split
    · exact .keep _
    · exact p.applySync_identity ..

theorem cancelReservedSync_identity (expectedRevision initialEpoch : Nat) :
    p.identity.Step (p.cancelReservedSync expectedRevision initialEpoch).identity := by
  unfold cancelReservedSync
  split
  · exact .drop _ _
  · exact .keep _

theorem invalidateIfRevision_identity :
    p.identity.Step (p.invalidateIfRevision expectedRevision).2.identity := by
  unfold invalidateIfRevision
  split
  · exact .keep _
  · exact .drop _ _

theorem identityCall_step (call : IdentityCall) :
    p.identity.Step (p.identityCall call).identity := by
  cases call with
  | reservePeerStaticPubkey key => exact p.reservePeerStaticPubkey_identity key
  | commitReservedPeerStaticPubkey => exact p.commitReservedPeerStaticPubkey_identity
  | cancelReservedPeerStaticPubkey => exact .drop _ _
  | checkOrSetPeerStaticPubkey key => exact p.checkOrSetPeerStaticPubkey_identity key
  | prepareSyncTransitionAt requestedEpoch =>
    exact p.prepareSyncTransitionAt_identity requestedEpoch
  | commitReservedSync => exact p.commitReservedSync_identity ..
  | cancelReservedSync expectedRevision initialEpoch =>
    exact p.cancelReservedSync_identity expectedRevision initialEpoch
  | syncRootKey => exact .drop _ _
  | invalidateIfRevision expectedRevision => exact p.invalidateIfRevision_identity expectedRevision

end Steps

theorem identity_run {p : PeerSession} (hconsistent : p.identity.Consistent)
    (calls : List IdentityCall) :
    (calls.foldl identityCall p).identity.Consistent ∧
      ∀ key, p.peerStaticPubkey = some key →
        (calls.foldl identityCall p).peerStaticPubkey = some key := by
  induction calls generalizing p with
  | nil => exact ⟨hconsistent, fun _ hkey => hkey⟩
  | cons call calls ih =>
    have hstep := p.identityCall_step call
    obtain ⟨hrest, hpinned⟩ := ih (hstep.consistent hconsistent)
    exact ⟨hrest, fun key hkey => hpinned key (hstep.published hconsistent hkey)⟩

/-- After any calls a pending key is the published one if there is both, and a
published key stays whatever calls follow. -/
theorem peer_static_pubkey_pinned (peerId : PeerId) (metadataSessionId : Uuid) (rootKey : Bytes)
    (sessionGeneration initialEpoch : Nat) (sendAlgorithm recvAlgorithm : String)
    (peerStaticPubkey : Option Bytes) (nowMs : Nat) (before after : List IdentityCall) :
    let reached := before.foldl identityCall
      (new peerId metadataSessionId rootKey sessionGeneration initialEpoch sendAlgorithm
        recvAlgorithm peerStaticPubkey nowMs)
    (∀ pending published, reached.transition.pendingPeerStaticPubkey = some pending →
      reached.peerStaticPubkey = some published → pending = published) ∧
    ∀ key, reached.peerStaticPubkey = some key →
      (after.foldl identityCall reached).peerStaticPubkey = some key := by
  intro reached
  have hinit : (new peerId metadataSessionId rootKey sessionGeneration initialEpoch sendAlgorithm
      recvAlgorithm peerStaticPubkey nowMs).identity.Consistent :=
    fun _ hpending => absurd hpending (by simp [identity, new])
  have hreached : reached.identity.Consistent := (identity_run hinit before).1
  exact ⟨fun pending published hpending hpublished =>
    hreached pending hpending published hpublished, (identity_run hreached after).2⟩

end PeerSession

end LowerTier.Peers
