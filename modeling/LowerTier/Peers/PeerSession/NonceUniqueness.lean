import LowerTier.Peers.PeerSession.SendThreads
import LowerTier.Peers.SecureDatagram.ReceiveStep

/-!
# Nonces of a session

Which nonces do the threads of a session hand to the cipher?  The key of a cipher
depends on root key, epoch and direction, so no nonce may occur twice under one
root key.

Between two SYNCs the sequence counters only grow, and every sender takes its own
range of them; whatever epoch it loaded before, its pairs of direction and sequence
are its own.  A SYNC sets the counters back to zero.  What keeps the nonces apart
then is the epoch: the reserved epoch has to be above every epoch that was sent in.
`prepare_sync_transition_at` picks it that way, but senders may rotate the epoch
before the commit, up to the reserved one and past it.
-/

namespace LowerTier.Peers

open List ProofSupport ProofSupport.MachineInt Tunnel
open SecureDatagramSession

namespace Sender

def loadedEpoch (s : Sender) : Option Nat :=
  match s.phase with
  | .reserve epoch | .fetchKey epoch _ | .sealPackets _ epoch _ => some epoch
  | _ => none

/-- The sender reserved the sequence and has not used it yet. -/
def Owns (s : Sender) (dir : Direction) (seq : Nat) : Prop :=
  match s.phase with
  | .fetchKey _ first | .sealPackets _ _ first =>
    dir = s.dir ∧ first ≤ seq ∧ seq < first + s.packets.length
  | _ => False

/-- What one action of a sender does to the epoch, the counters and the nonces. -/
inductive Move (d : SecureDatagramSession) (s : Sender) : StepResult → Prop where
  | quiet {d' : SecureDatagramSession} {s' : Sender}
      (hepoch : d'.sendEpoch = d.sendEpoch) (hseq : d'.sendSeq = d.sendSeq)
      (hloaded : ∀ epoch, s'.loadedEpoch = some epoch →
        s.loadedEpoch = some epoch ∨ epoch = d.sendEpoch)
      (howns : ∀ dir seq, s'.Owns dir seq → s.Owns dir seq) : Move d s (d', s', [])
  | rotate {d' : SecureDatagramSession} {s' : Sender} (hphase : s.phase = .rotate)
      (hdue : d.rotationDue s.nowMs = true)
      (hepoch : d'.sendEpoch = wrappingAdd 32 d.sendEpoch 1) (hseq : d'.sendSeq = d.sendSeq)
      (hloaded : s'.loadedEpoch = none) (howns : ∀ dir seq, ¬s'.Owns dir seq) :
      Move d s (d', s', [])
  | reserve {d' : SecureDatagramSession} {s' : Sender}
      (hepoch : d'.sendEpoch = d.sendEpoch) (hseq : ∀ dir, d.sendSeq dir ≤ d'.sendSeq dir)
      (hloaded : s'.loadedEpoch = s.loadedEpoch)
      (howns : ∀ dir seq, s'.Owns dir seq → d.sendSeq dir ≤ seq ∧ seq < d'.sendSeq dir) :
      Move d s (d', s', [])
  | emit {d' : SecureDatagramSession} {s' : Sender} {epoch seq : Nat}
      (hepoch : d'.sendEpoch = d.sendEpoch) (hseq : d'.sendSeq = d.sendSeq)
      (hloaded : s.loadedEpoch = some epoch)
      (hloaded' : ∀ epoch', s'.loadedEpoch = some epoch' → epoch' = epoch)
      (howned : s.Owns s.dir seq)
      (howns : ∀ dir other, s'.Owns dir other → s.Owns dir other ∧ (dir = s.dir → other ≠ seq)) :
      Move d s (d', s', [⟨s.dir, epoch, seq⟩])

variable {d : SecureDatagramSession} {s : Sender} {d' : SecureDatagramSession}

theorem Move.goto {phase : SendPhase} (hepoch : d'.sendEpoch = d.sendEpoch := by rfl)
    (hseq : d'.sendSeq = d.sendSeq := by rfl)
    (hloaded : (s.goto phase).loadedEpoch = none := by rfl)
    (howns : ∀ dir seq, ¬(s.goto phase).Owns dir seq := by exact fun _ _ => id) :
    Move d s (d', s.goto phase, []) :=
  .quiet hepoch hseq (fun _ hepoch' => absurd (hloaded.symm.trans hepoch') (by simp))
    fun dir seq hown => absurd hown (howns dir seq)

variable (crypto : Crypto) {epoch seq : Nat}

theorem sealNext_move {encryptor : RingCipher}
    (hphase : s.phase = .sealPackets encryptor epoch seq) :
    Move d s (s.sealNext crypto d encryptor epoch seq) := by
  have hloaded : s.loadedEpoch = some epoch := by simp [loadedEpoch, hphase]
  unfold sealNext
  split
  · exact .goto
  next packet rest hpackets =>
  have howned : s.Owns s.dir seq := by simp [Owns, hphase, hpackets]
  split
  · exact .goto
  split
  · exact .goto
  split
  · exact .emit rfl rfl hloaded (fun _ hnone => absurd hnone (by simp [loadedEpoch]))
      howned fun _ _ hown => absurd hown (by simp [Owns])
  refine .emit rfl rfl hloaded (fun _ hsame => (Option.some.inj hsame).symm) howned
    fun dir other hown => ?_
  obtain ⟨hdir, hle, hlt⟩ : dir = s.dir ∧ seq + 1 ≤ other ∧ other < seq + 1 + rest.length := hown
  refine ⟨?_, fun _ => by omega⟩
  simp only [Owns, hphase, hpackets, length_cons]
  exact ⟨hdir, by omega, by omega⟩

theorem reserve_move {packetCount : Nat} (hphase : s.phase = .reserve epoch)
    (hcount : packetCount = s.packets.length)
    (hreserve : d.reserveSequence s.dir packetCount = (some seq, d')) :
    Move d s (d', s.goto (.fetchKey epoch seq), []) := by
  unfold reserveSequence at hreserve
  dsimp only at hreserve
  split_ifs at hreserve
  · simp at hreserve
  · obtain ⟨rfl, rfl⟩ := hreserve
    refine .reserve rfl (fun dir => ?_) (by simp [loadedEpoch, Sender.goto, hphase])
      fun dir seq hown => ?_
    · by_cases hdir : dir = s.dir
      · subst hdir
        simp
      · simp [Function.update_of_ne hdir]
    · obtain ⟨rfl, hle, hlt⟩ : dir = s.dir ∧ d.sendSeq s.dir ≤ seq ∧
        seq < d.sendSeq s.dir + s.packets.length := hown
      exact ⟨hle, by simpa [hcount] using hlt⟩

theorem step_move (d : SecureDatagramSession) (rotationFree : Bool) (s : Sender) :
    Move d s (s.step crypto d rotationFree) := by
  unfold step
  cases hphase : s.phase with
  | enter =>
    split_ifs <;> exact .goto
  | charge => exact .goto
  | check packets =>
    dsimp only
    split_ifs <;> exact .goto
  | awaitRotation =>
    dsimp only
    split_ifs
    · exact .goto
    · exact .quiet rfl rfl (fun _ => .inl) fun _ _ => id
  | rotate =>
    dsimp only
    split_ifs with hdue
    · exact .rotate hphase hdue rfl rfl rfl fun _ _ => id
    · exact .goto
  | storeStarted => exact .goto
  | storePackets => exact .goto
  | loadEpoch =>
    exact .quiet rfl rfl (fun _ hepoch => .inr (Option.some.inj hepoch).symm)
      fun _ _ hown => absurd hown id
  | reserve epoch =>
    rcases hreserve : d.reserveSequence s.dir s.packets.length with ⟨_ | seq, d'⟩
    · have hsame : d' = d := by
        unfold reserveSequence at hreserve
        dsimp only at hreserve
        split_ifs at hreserve
        · simpa using hreserve.symm
        · simp at hreserve
      subst hsame
      exact .goto
    · exact reserve_move hphase rfl hreserve
  | fetchKey epoch seq =>
    dsimp only
    split
    · exact .goto
    have hside := d.getOrCreateEncryptor_sendSide crypto epoch d.sessionGeneration s.dir true
    refine .quiet (congrArg SendSide.sendEpoch hside) (congrArg SendSide.sendSeq hside)
      (fun _ hepoch => .inl ?_) fun dir other hown => ?_
    · simpa [loadedEpoch, hphase, Sender.goto] using hepoch
    · simpa [Owns, hphase, Sender.goto] using hown
  | sealPackets encryptor epoch seq => exact sealNext_move crypto hphase
  | done result => exact .quiet rfl rfl (fun _ => .inl) fun _ _ => id

end Sender

/-! ## The invariant of an interval -/

/-- Nonces and reservations since the last SYNC, which started the epoch `start`. -/
structure Fresh (start : Nat) (d : SecureDatagramSession) (senders : List Sender)
    (used : List NonceUse) : Prop where
  start_le : start ≤ d.sendEpoch
  nodup : used.Nodup
  past : ∀ use ∈ used, use.epoch ≤ d.sendEpoch ∧
    (start ≤ use.epoch → use.seq < d.sendSeq use.direction)
  loaded : ∀ (i : Nat) (s : Sender), senders[i]? = some s → ∀ epoch, s.loadedEpoch = some epoch →
    start ≤ epoch ∧ epoch ≤ d.sendEpoch
  owned : ∀ (i : Nat) (s : Sender), senders[i]? = some s → ∀ dir seq, s.Owns dir seq →
    seq < d.sendSeq dir ∧
    ∀ use ∈ used, start ≤ use.epoch → use.direction = dir → use.seq ≠ seq
  apart : ∀ (i j : Nat) (a b : Sender), i ≠ j → senders[i]? = some a → senders[j]? = some b →
    ∀ dir seq, a.Owns dir seq → ¬b.Owns dir seq

namespace Fresh

variable {start : Nat} {d d' : SecureDatagramSession} {senders : List Sender}
  {used : List NonceUse} {i : Nat} {s s' : Sender}

theorem getElem?_set_cases {j : Nat} {t : Sender} (ht : (senders.set i s')[j]? = some t) :
    (j = i ∧ t = s') ∨ (j ≠ i ∧ senders[j]? = some t) := by
  rw [getElem?_set] at ht
  split_ifs at ht with hij hlt
  · exact .inl ⟨hij.symm, (Option.some.inj ht).symm⟩
  · exact .inr ⟨fun h => hij h.symm, ht⟩

variable (hfresh : Fresh start d senders used)
include hfresh

/-- A sender moves on.  What it owns is what it owned or lies above the counters. -/
theorem replace (hi : senders[i]? = some s) (hepoch : d.sendEpoch ≤ d'.sendEpoch)
    (hseq : ∀ dir, d.sendSeq dir ≤ d'.sendSeq dir)
    (hloaded : ∀ epoch, s'.loadedEpoch = some epoch → start ≤ epoch ∧ epoch ≤ d'.sendEpoch)
    (howns : ∀ dir seq, s'.Owns dir seq → s.Owns dir seq ∨
      d.sendSeq dir ≤ seq ∧ seq < d'.sendSeq dir) : Fresh start d' (senders.set i s') used := by
  have hapart : ∀ (j : Nat) (t : Sender), j ≠ i → senders[j]? = some t → ∀ dir seq, t.Owns dir seq →
      ¬s'.Owns dir seq := by
    intro j t hj ht dir seq hown hown'
    rcases howns dir seq hown' with hold | ⟨habove, -⟩
    · exact hfresh.apart j i t s hj ht hi dir seq hown hold
    · have := (hfresh.owned j t ht dir seq hown).1
      omega
  refine ⟨hfresh.start_le.trans hepoch, hfresh.nodup, fun use huse => ?_, fun j t ht => ?_,
    fun j t ht dir seq hown => ?_, fun j k a b hjk ha hb dir seq hown => ?_⟩
  · obtain ⟨hpast, hbelow⟩ := hfresh.past use huse
    exact ⟨hpast.trans hepoch, fun hstart => (hbelow hstart).trans_le (hseq _)⟩
  · rcases getElem?_set_cases ht with ⟨-, rfl⟩ | ⟨-, hold⟩
    · exact hloaded
    · intro epoch hloadedOld
      obtain ⟨hstart, hle⟩ := hfresh.loaded j t hold epoch hloadedOld
      exact ⟨hstart, hle.trans hepoch⟩
  · rcases getElem?_set_cases ht with ⟨-, rfl⟩ | ⟨-, hold⟩
    · rcases howns dir seq hown with hownOld | ⟨habove, hlt⟩
      · obtain ⟨hlt, hunused⟩ := hfresh.owned i s hi dir seq hownOld
        exact ⟨hlt.trans_le (hseq dir), hunused⟩
      · refine ⟨hlt, fun use huse hstart hdir => ?_⟩
        have hbelow := (hfresh.past use huse).2 hstart
        rw [hdir] at hbelow
        omega
    · obtain ⟨hlt, hunused⟩ := hfresh.owned j t hold dir seq hown
      exact ⟨hlt.trans_le (hseq dir), hunused⟩
  · rcases getElem?_set_cases ha with ⟨rfl, rfl⟩ | ⟨hj, haOld⟩
    · rcases getElem?_set_cases hb with ⟨rfl, -⟩ | ⟨hk, hbOld⟩
      · exact absurd rfl hjk
      · exact fun hown' => hapart k b hk hbOld dir seq hown' hown
    · rcases getElem?_set_cases hb with ⟨rfl, rfl⟩ | ⟨hk, hbOld⟩
      · exact hapart j a hj haOld dir seq hown
      · exact hfresh.apart j k a b hjk haOld hbOld dir seq hown

theorem add {use : NonceUse}
    (hnew : ∀ old ∈ used, start ≤ old.epoch → old.direction = use.direction → old.seq ≠ use.seq)
    (hstart : start ≤ use.epoch) (hepoch : use.epoch ≤ d.sendEpoch)
    (hseq : use.seq < d.sendSeq use.direction)
    (hfree : ∀ (j : Nat) (t : Sender), senders[j]? = some t → ¬t.Owns use.direction use.seq) :
    Fresh start d senders (used ++ [use]) := by
  refine ⟨hfresh.start_le, ?_, fun old hold => ?_, hfresh.loaded, fun j t ht dir seq hown => ?_,
    hfresh.apart⟩
  · rw [← concat_eq_append]
    exact hfresh.nodup.concat fun hold => hnew use hold hstart rfl rfl
  · rcases mem_append.mp hold with hold | hold
    · exact hfresh.past old hold
    · obtain rfl := mem_singleton.mp hold
      exact ⟨hepoch, fun _ => hseq⟩
  · obtain ⟨hlt, hunused⟩ := hfresh.owned j t ht dir seq hown
    refine ⟨hlt, fun old hold hle hdir hsame => ?_⟩
    rcases mem_append.mp hold with hold | hold
    · exact hunused old hold hle hdir hsame
    · obtain rfl := mem_singleton.mp hold
      subst hdir hsame
      exact hfree j t ht hown

theorem move (hi : senders[i]? = some s)
    {sealed : List NonceUse} (hmove : s.Move d (d', s', sealed))
    (hsafe : s.phase = .rotate → d.rotationDue s.nowMs = true → d.sendEpoch + 1 < 2 ^ 32) :
    Fresh start d' (senders.set i s') (used ++ sealed) := by
  cases hmove with
  | quiet hepoch hseq hloaded howns =>
    rw [append_nil]
    refine hfresh.replace hi hepoch.ge (fun dir => by rw [hseq]) (fun epoch hload => ?_)
      fun dir seq hown => .inl (howns dir seq hown)
    rw [hepoch]
    rcases hloaded epoch hload with hold | rfl
    · exact hfresh.loaded i s hi epoch hold
    · exact ⟨hfresh.start_le, le_rfl⟩
  | rotate hphase hdue hepoch hseq hloaded howns =>
    rw [append_nil]
    have hnext : d'.sendEpoch = d.sendEpoch + 1 := by
      rw [hepoch, wrappingAdd_of_lt (hsafe hphase hdue)]
    refine hfresh.replace hi (by omega) (fun dir => by rw [hseq])
      (fun epoch hload => absurd (hloaded.symm.trans hload) (by simp))
      fun dir seq hown => absurd hown (howns dir seq)
  | reserve hepoch hseq hloaded howns =>
    rw [append_nil]
    refine hfresh.replace hi hepoch.ge hseq (fun epoch hload => ?_)
      fun dir seq hown => .inr (howns dir seq hown)
    rw [hepoch]
    exact hfresh.loaded i s hi epoch (hloaded ▸ hload)
  | emit hepoch hseq hloaded hloaded' howned howns =>
    rename_i epoch seq
    obtain ⟨hstart, hle⟩ := hfresh.loaded i s hi epoch hloaded
    obtain ⟨hlt, hunused⟩ := hfresh.owned i s hi s.dir seq howned
    have hmoved : Fresh start d' (senders.set i s') used := by
      refine hfresh.replace hi hepoch.ge (fun dir => by rw [hseq]) (fun other hload => ?_)
        fun dir other hown => .inl (howns dir other hown).1
      rw [hloaded' other hload, hepoch]
      exact ⟨hstart, hle⟩
    refine hmoved.add hunused hstart (hepoch ▸ hle) (hseq ▸ hlt) fun j t ht hown => ?_
    rcases getElem?_set_cases ht with ⟨-, rfl⟩ | ⟨hj, hold⟩
    · exact (howns s.dir seq hown).2 rfl rfl
    · exact hfresh.apart i j s t hj.symm hi hold s.dir seq howned hown

theorem start_call (hloaded : s'.loadedEpoch = none)
    (howns : ∀ dir seq, ¬s'.Owns dir seq) : Fresh start d (senders ++ [s']) used := by
  have hold : ∀ {j : Nat} {t : Sender}, (senders ++ [s'])[j]? = some t →
      senders[j]? = some t ∨ t = s' := by
    intro j t ht
    rw [getElem?_append] at ht
    split_ifs at ht
    · exact .inl ht
    · exact .inr (mem_singleton.mp (mem_of_getElem? ht))
  refine ⟨hfresh.start_le, hfresh.nodup, hfresh.past, fun j t ht epoch hload => ?_,
    fun j t ht dir seq hown => ?_, fun j k a b hjk ha hb dir seq hownA hownB => ?_⟩
  · rcases hold ht with hsender | rfl
    · exact hfresh.loaded j t hsender epoch hload
    · exact absurd (hloaded.symm.trans hload) (by simp)
  · rcases hold ht with hsender | rfl
    · exact hfresh.owned j t hsender dir seq hown
    · exact absurd hown (howns dir seq)
  · rcases hold ha with haOld | rfl
    · rcases hold hb with hbOld | rfl
      · exact hfresh.apart j k a b hjk haOld hbOld dir seq hownA hownB
      · exact howns dir seq hownB
    · exact howns dir seq hownA

theorem of_sendSide (hside : d'.sendSide = d.sendSide) : Fresh start d' senders used := by
  have hepoch : d'.sendEpoch = d.sendEpoch := congrArg SendSide.sendEpoch hside
  have hseq : d'.sendSeq = d.sendSeq := congrArg SendSide.sendSeq hside
  refine { hfresh with start_le := ?_, past := ?_, loaded := ?_, owned := ?_ }
  · rw [hepoch]
    exact hfresh.start_le
  · rw [hepoch, hseq]
    exact hfresh.past
  · rw [hepoch]
    exact hfresh.loaded
  · rw [hseq]
    exact hfresh.owned

theorem sync (hfree : ∀ s ∈ senders, s.holdsTransitionLock = false) {initialEpoch : Nat}
    (habove : d.sendEpoch < initialEpoch) (hepoch : d'.sendEpoch = initialEpoch) :
    Fresh initialEpoch d' senders used := by
  have hidle : ∀ {j : Nat} {t : Sender}, senders[j]? = some t →
      t.loadedEpoch = none ∧ ∀ dir seq, ¬t.Owns dir seq := by
    intro j t ht
    have hlock := hfree t (mem_of_getElem? ht)
    unfold Sender.holdsTransitionLock at hlock
    unfold Sender.loadedEpoch Sender.Owns
    split at hlock <;> simp_all
  refine ⟨hepoch.ge, hfresh.nodup, fun use huse => ?_, fun j t ht epoch hload => ?_,
    fun j t ht dir seq hown => absurd hown ((hidle ht).2 dir seq),
    fun j k a b _ ha _ dir seq hown => absurd hown ((hidle ha).2 dir seq)⟩
  · have hpast := (hfresh.past use huse).1
    exact ⟨by omega, fun hlater => by omega⟩
  · exact absurd ((hidle ht).1.symm.trans hload) (by simp)

end Fresh

/-! ## Runs -/

theorem PeerSession.prepareSyncTransitionAt_datagram (p : PeerSession)
    (requestedEpoch : Option Nat) :
    (p.prepareSyncTransitionAt requestedEpoch).2.datagram = p.datagram := by
  unfold PeerSession.prepareSyncTransitionAt
  split
  · rfl
  · split
    · rfl
    · split <;> rfl

/-- The SYNC commit would pass its checks. -/
def PeerSession.acceptsSync (p : PeerSession) (expectedRevision initialEpoch : Nat) : Bool :=
  p.isValid && p.transition.revision == expectedRevision &&
    p.transition.pendingEpoch == some initialEpoch

/-- No rotation wraps the epoch, and a SYNC commit that passes its checks goes to
an epoch above the send epoch. -/
def EpochsAdvance (sys : SendSystem) (_ : List KeyedNonce) : SendOp → Prop
  | .advance index => ∀ sender ∈ sys.senders[index]?, sender.phase = .rotate →
      sys.session.datagram.rotationDue sender.nowMs = true →
      sys.session.datagram.sendEpoch + 1 < 2 ^ 32
  | .commitSync ticket expectedRevision _ initialEpoch _ _ _ =>
    sys.issued[ticket]?.isSome = true → sys.transitionFree = true →
    sys.session.acceptsSync expectedRevision initialEpoch = true →
    sys.session.datagram.sendEpoch < initialEpoch
  | _ => True

namespace SendSystem

/-- The nonces so far are fresh since some epoch on. -/
def NoncesFresh (sys : SendSystem) (nonces : List KeyedNonce) : Prop :=
  ∃ start, Fresh start sys.session.datagram sys.senders (nonces.map (·.use))

variable {sys : SendSystem} {nonces : List KeyedNonce} (crypto : Crypto)

section

variable (hfresh : sys.NoncesFresh nonces)
include hfresh

theorem NoncesFresh.advance {index : Nat} (hsafe : EpochsAdvance sys nonces (.advance index)) :
    (sys.advance crypto index).1.NoncesFresh (nonces ++ (sys.advance crypto index).2) := by
  unfold SendSystem.advance
  split
  · rw [append_nil]
    exact hfresh
  next sender hsender =>
  obtain ⟨start, hfresh⟩ := hfresh
  have hmove := sender.step_move crypto sys.session.datagram sys.rotationFree
  generalize sender.step crypto sys.session.datagram sys.rotationFree = next at hmove ⊢
  obtain ⟨d, sender', sealed⟩ := next
  have hmoved := hfresh.move hsender hmove (hsafe sender hsender)
  exact ⟨start, by simpa [map_append, withDatagram, Function.comp_def] using hmoved⟩

theorem NoncesFresh.commitSync (rootKey transitionId : ByteString.Bytes)
    {expectedRevision sessionGeneration initialEpoch startedMs graceMs : Nat}
    (hsafe : sys.transitionFree = true →
      sys.session.acceptsSync expectedRevision initialEpoch = true →
      sys.session.datagram.sendEpoch < initialEpoch) :
    (sys.commitSync rootKey expectedRevision sessionGeneration initialEpoch transitionId startedMs
      graceMs).NoncesFresh nonces := by
  unfold SendSystem.commitSync PeerSession.commitReservedSync
  split
  · next hfree =>
    split
    · exact hfresh
    next hvalid =>
    split
    · exact hfresh
    next hmatch =>
    have haccepts : sys.session.acceptsSync expectedRevision initialEpoch = true := by
      simp only [ne_eq, not_or, not_not] at hmatch
      simpa [PeerSession.acceptsSync, hmatch.1, hmatch.2] using hvalid
    obtain ⟨start, hfresh⟩ := hfresh
    refine ⟨initialEpoch, hfresh.sync ?_ (hsafe hfree haccepts) ?_⟩
    · simpa [transitionFree] using hfree
    · simp only [PeerSession.applySync, syncRootKey]
      split <;> rfl
  · exact hfresh

theorem NoncesFresh.start (single : Bool) (dir : Direction) (packets : List ZCPacket)
    (nowMs : Nat) : (sys.start single dir packets nowMs).NoncesFresh nonces := by
  obtain ⟨start, hfresh⟩ := hfresh
  refine ⟨start, hfresh.start_call ?_ fun _ _ => ?_⟩
  · split <;> rfl
  · split <;> exact id

theorem NoncesFresh.withDatagram {d : SecureDatagramSession}
    (hside : d.sendSide = sys.session.datagram.sendSide) :
    (sys.withDatagram d).NoncesFresh nonces := by
  obtain ⟨start, hfresh⟩ := hfresh
  exact ⟨start, hfresh.of_sendSide hside⟩

theorem NoncesFresh.step {op : SendOp} (hsafe : EpochsAdvance sys nonces op) :
    (sys.step crypto op).1.NoncesFresh (nonces ++ (sys.step crypto op).2) := by
  cases op with
  | encryptPayload =>
    simp only [SendSystem.step, append_nil]
    exact hfresh.start ..
  | encryptPayloadBatch =>
    simp only [SendSystem.step, append_nil]
    exact hfresh.start ..
  | advance index => exact hfresh.advance crypto hsafe
  | decryptPayload senderPeerId receiverPeerId packet nowMs =>
    simp only [SendSystem.step, append_nil]
    refine hfresh.withDatagram ?_
    unfold PeerSession.decryptPayload
    split
    · rfl
    · exact decryptPayload_keepsSendSide ..
  | decryptPayloadBatch senderPeerId receiverPeerId packets nowMs =>
    simp only [SendSystem.step, append_nil]
    refine hfresh.withDatagram ?_
    unfold PeerSession.decryptPayloadBatch
    split
    · rfl
    · exact decryptPayloadBatch_keepsSendSide ..
  | prepareSync requestedEpoch =>
    have hdatagram := sys.session.prepareSyncTransitionAt_datagram requestedEpoch
    simp only [SendSystem.step]
    generalize sys.session.prepareSyncTransitionAt requestedEpoch = result at hdatagram ⊢
    obtain ⟨_ | prepared, session⟩ := result
    · rw [append_nil]
      exact hfresh.withDatagram (congrArg sendSide hdatagram)
    · rw [append_nil]
      exact hfresh.withDatagram (congrArg sendSide hdatagram)
  | cancelSync expectedRevision initialEpoch =>
    simp only [SendSystem.step, append_nil]
    unfold PeerSession.cancelReservedSync
    split <;> exact hfresh
  | commitSync ticket =>
    simp only [SendSystem.step]
    split
    · rw [append_nil]
      exact hfresh
    · next prepared hticket =>
      rw [append_nil]
      exact hfresh.commitSync _ _ (hsafe (by simp [hticket]))

end

def ofNew (session : PeerSession) : SendSystem := ⟨session, [], []⟩

theorem noncesFresh_ofNew (session : PeerSession) : (ofNew session).NoncesFresh [] := by
  refine ⟨session.datagram.sendEpoch, le_rfl, nodup_nil, ?_, ?_, ?_, ?_⟩ <;> simp [ofNew]

/-- As long as the epochs advance, no nonce is used twice under one root key, whatever
the threads do and however they interleave. -/
theorem nonces_unique_while_epochs_advance (crypto : Crypto) (peerId : PeerId)
    (metadataSessionId : Uuid) (rootKey : ByteString.Bytes) (sessionGeneration initialEpoch : Nat)
    (sendAlgorithm recvAlgorithm : String) (peerStaticPubkey : Option ByteString.Bytes)
    (nowMs : Nat) (ops : List SendOp)
    (hadvance : Trace.Always (step crypto) EpochsAdvance
      (ofNew (.new peerId metadataSessionId rootKey sessionGeneration initialEpoch sendAlgorithm
        recvAlgorithm peerStaticPubkey nowMs)) [] ops) :
    (Trace.run (step crypto)
      (ofNew (.new peerId metadataSessionId rootKey sessionGeneration initialEpoch sendAlgorithm
        recvAlgorithm peerStaticPubkey nowMs)) ops).2.Nodup := by
  obtain ⟨start, hfresh⟩ := Trace.run_invariant (I := NoncesFresh)
    (fun _ _ _ hs hsafe => hs.step crypto hsafe) (noncesFresh_ofNew _) hadvance
  exact hfresh.nodup.of_map

instance decidableEpochsAdvance (sys : SendSystem) (nonces : List KeyedNonce) (op : SendOp) :
    Decidable (EpochsAdvance sys nonces op) := by
  cases op <;> unfold EpochsAdvance <;> infer_instance

def plainPacket : ZCPacket :=
  .newFromBuf
    ({ fromPeerId := 1, toPeerId := 2, packetType := 1, flags := 0,
       forwardCounter := 1, reserved := 0, len := 0 } : PeerManagerHeader).asBytes
    .dummyTunnel

def sampleSystem : SendSystem :=
  ofNew (.new 2 0 (replicate 32 0) 1 0 "aes-256-gcm" "aes-256-gcm" none 0)

/-- Two senders take turns, a SYNC goes to the epoch it reserved, and a third sender follows. -/
theorem nonces_unique_across_sync :
    let ops := [.encryptPayload 1 2 plainPacket 10, .encryptPayloadBatch 1 2 [plainPacket] 10] ++
      (List.replicate 9 [SendOp.advance 0, .advance 1]).flatten ++
      [.prepareSync none, .commitSync 0 1 1 1 [] 20 20, .encryptPayload 1 2 plainPacket 30] ++
      List.replicate 9 (.advance 2)
    (Trace.run (step Crypto.passThrough) sampleSystem ops).2.map (·.use) =
        [⟨.aToB, 0, 0⟩, ⟨.aToB, 0, 1⟩, ⟨.aToB, 1, 0⟩] ∧
      (Trace.run (step Crypto.passThrough) sampleSystem ops).2.Nodup :=
  ⟨by decide +kernel, nonces_unique_while_epochs_advance Crypto.passThrough _ _ _ _ _ _ _ _ _ _
    (by decide +kernel)⟩

/-- A sender rotates to the reserved epoch before the SYNC commits; the SYNC then sets
the counter back to zero in the same epoch. -/
theorem nonce_reused_after_rotation :
    let ops := [.prepareSync none, .encryptPayload 1 2 plainPacket 600000] ++
      List.replicate 12 (SendOp.advance 0) ++
      [.commitSync 0 1 1 1 [] 600001 600001, .encryptPayload 1 2 plainPacket 600002] ++
      List.replicate 12 (.advance 1)
    (Trace.run (step Crypto.passThrough) sampleSystem ops).2 =
      [⟨List.replicate 32 0, .aToB, 1, 0⟩, ⟨List.replicate 32 0, .aToB, 1, 0⟩] := by
  decide +kernel

end SendSystem

end LowerTier.Peers
