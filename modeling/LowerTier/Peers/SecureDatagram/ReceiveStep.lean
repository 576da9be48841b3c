import LowerTier.Peers.SecureDatagram.Replay

/-!
# One receive call

`ReceiveStep` says everything that `decrypt_payload` and `decrypt_payload_batch`
do to a session as far as replay protection and the send side are concerned:
they run a list of commits, in epoch order and for nonces of their own packets,
on the replay state at the time of the call.
-/

namespace LowerTier.Peers.SecureDatagramSession

open ReceiveSide SyncRxGrace Option List ProofSupport Tunnel Trace

variable (s : SecureDatagramSession)

/-! ## The replay state at a time -/

/-- The rx slots with the grace copy, if it is not expired. -/
def ReceiveSide.replayStateAt (r : ReceiveSide) (nowMs : Nat) : ReplayState :=
  ⟨r.rxSlots, maybeExpire r.syncRxGrace nowMs⟩

variable {nowMs : Nat} {r : ReceiveSide}

theorem ReceiveSide.replayStateAt_eq {state : ReplayState} (hrx : r.rxSlots = state.rx)
    (hgrace : maybeExpire r.syncRxGrace nowMs = state.grace) :
    r.replayStateAt nowMs = state := by
  rw [replayStateAt, hrx, hgrace]

variable {grace : Option SyncRxGrace}

theorem maybeExpire_eq_some_iff {live : SyncRxGrace} :
    maybeExpire grace nowMs = some live ↔
      grace = some live ∧ nowMs < live.expiresAtMs := by
  simp [maybeExpire, filter_eq_some_iff]

theorem maybeExpire_eq_none_iff :
    maybeExpire grace nowMs = none ↔ ∀ old ∈ grace, old.expiresAtMs ≤ nowMs := by
  simp [maybeExpire, filter_eq_none_iff]

/-- The cached expiry time is right for every grace copy that is live. -/
def ReceiveSide.GraceFlagOk (r : ReceiveSide) (clockMs : Nat) : Prop :=
  ∀ grace ∈ r.syncRxGrace, clockMs < grace.expiresAtMs →
    r.syncRxGraceExpiresAtMs = grace.expiresAtMs

theorem ReceiveSide.GraceFlagOk.mono {clockMs nowMs : Nat}
    (hflag : r.GraceFlagOk clockMs) (hle : clockMs ≤ nowMs) : r.GraceFlagOk nowMs :=
  fun grace hgrace hlive => hflag grace hgrace (by omega)

/-- What a look at the live grace copy leaves behind. -/
structure GraceLookup (s : SecureDatagramSession) (nowMs : Nat) (live : Option SyncRxGrace)
    (s' : SecureDatagramSession) : Prop where
  sendSide : s'.sendSide = s.sendSide
  rx : s'.rxSlots = s.rxSlots
  grace : maybeExpire s'.syncRxGrace nowMs =
    maybeExpire s.syncRxGrace nowMs
  flag : s'.receiveSide.GraceFlagOk nowMs
  stored : s.syncRxGrace = none → s'.syncRxGrace = none
  live_eq : live = maybeExpire s.syncRxGrace nowMs

theorem liveGrace_lookup {s : SecureDatagramSession} (hflag : s.receiveSide.GraceFlagOk nowMs) :
    GraceLookup s nowMs (s.liveGrace nowMs).1 (s.liveGrace nowMs).2 := by
  unfold liveGrace
  cases hvisible : maybeExpire s.syncRxGrace nowMs with
  | none =>
    have hexpired := maybeExpire_eq_none_iff.mp hvisible
    have hok : ∀ expires, ReceiveSide.GraceFlagOk ⟨s.rxSlots, s.syncRxGrace, expires⟩ nowMs := by
      intro expires grace hgrace hlive
      have := hexpired grace hgrace
      omega
    split_ifs
    · exact ⟨rfl, rfl, rfl, hflag, id, hvisible.symm⟩
    · exact ⟨rfl, rfl, hvisible.symm, by simp [ReceiveSide.GraceFlagOk, receiveSide],
        fun _ => rfl, hvisible.symm⟩
    · exact ⟨rfl, rfl, rfl, hok 0, id, hvisible.symm⟩
  | some grace =>
    obtain ⟨hgrace, hlive⟩ := maybeExpire_eq_some_iff.mp hvisible
    have hcached : s.syncRxGraceExpiresAtMs = grace.expiresAtMs := hflag grace hgrace hlive
    rw [if_neg (by omega), if_pos (by omega)]
    refine ⟨rfl, rfl, ?_, ?_, by simp [hgrace], hvisible.symm⟩
    · rw [hgrace]
    · simpa [ReceiveSide.GraceFlagOk, receiveSide] using fun _ => hcached

/-- A grace copy with the expiry of the live one is live, and the cached time is its own. -/
theorem ReceiveSide.GraceFlagOk.of_expiry (hflag : r.GraceFlagOk nowMs)
    (hexpiry : grace.map (·.expiresAtMs) = (r.replayStateAt nowMs).grace.map (·.expiresAtMs)) :
    ∀ copy ∈ grace, nowMs < copy.expiresAtMs ∧ r.syncRxGraceExpiresAtMs = copy.expiresAtMs := by
  rintro copy rfl
  obtain ⟨live, hvisible, hsame⟩ := map_eq_some_iff.mp hexpiry.symm
  obtain ⟨hgrace, hlive⟩ := maybeExpire_eq_some_iff.mp hvisible
  have hsame : live.expiresAtMs = copy.expiresAtMs := hsame
  rw [← hsame]
  exact ⟨hlive, hflag live hgrace hlive⟩

theorem maybeExpire_eq_self (hlive : ∀ copy ∈ grace, nowMs < copy.expiresAtMs) :
    maybeExpire grace nowMs = grace := by
  cases grace with
  | none => rfl
  | some copy => exact maybeExpire_eq_some_iff.mpr ⟨rfl, hlive copy rfl⟩

/-! ## Receive calls -/

/-- The packet carries a nonce of one of the sealed packets and passed the replay
check before the call. -/
def Admitted (s : SecureDatagramSession) (dir : Direction) (nowMs : Nat) (packets : List ZCPacket)
    (packet : Opened) : Prop :=
  (∃ sealed ∈ packets, ∃ nonce, readNonce sealed = .ok nonce ∧
    nonce.epoch = packet.epoch ∧ nonce.seq = packet.seq) ∧
  (s.receiveSide.replayStateAt nowMs).precheck s.sendEpoch packet.epoch packet.seq dir = true

/-- Everything a receive call does that the replay state and the send side show. -/
structure ReceiveStep (s : SecureDatagramSession) (dir : Direction) (nowMs : Nat)
    (packets : List ZCPacket) (s' : SecureDatagramSession) (commits : List ReplayCommit) :
    Prop where
  sendSide : s'.sendSide = s.sendSide
  flag : s'.receiveSide.GraceFlagOk nowMs
  stored : s.syncRxGrace = none → s'.syncRxGrace = none
  loop : ∃ order : List Opened, order.Pairwise (fun a b => a.epoch ≤ b.epoch) ∧
    (∀ packet ∈ order, s.Admitted dir nowMs packets packet) ∧
    commits = (run (commitStep s.sendEpoch dir nowMs)
      (s.receiveSide.replayStateAt nowMs) order).2.map (·.2) ∧
    s'.receiveSide.replayStateAt nowMs = (run (commitStep s.sendEpoch dir nowMs)
      (s.receiveSide.replayStateAt nowMs) order).1

/-- The call changed nothing that the replay state and the send side show. -/
structure SameReplay (s : SecureDatagramSession) (nowMs : Nat) (s' : SecureDatagramSession) :
    Prop where
  sendSide : s'.sendSide = s.sendSide
  flag : s'.receiveSide.GraceFlagOk nowMs
  stored : s.syncRxGrace = none → s'.syncRxGrace = none
  state : s'.receiveSide.replayStateAt nowMs = s.receiveSide.replayStateAt nowMs

section ReceiveStep

variable {s s₁ s₂ : SecureDatagramSession} {dir : Direction} {nowMs : Nat}
  {packets : List ZCPacket} {commits : List ReplayCommit}

theorem SameReplay.of_sides (hflag : s.receiveSide.GraceFlagOk nowMs)
    (hsend : s₁.sendSide = s.sendSide) (hreceive : s₁.receiveSide = s.receiveSide) :
    SameReplay s nowMs s₁ :=
  ⟨hsend, by rw [hreceive]; exact hflag,
    fun hnone => (congrArg ReceiveSide.syncRxGrace hreceive).trans hnone, by rw [hreceive]⟩

theorem SameReplay.trans (hfirst : SameReplay s nowMs s₁) (hsecond : SameReplay s₁ nowMs s₂) :
    SameReplay s nowMs s₂ :=
  ⟨hsecond.sendSide.trans hfirst.sendSide, hsecond.flag, hsecond.stored ∘ hfirst.stored,
    hsecond.state.trans hfirst.state⟩

section

variable (hsame : SameReplay s nowMs s₁)
include hsame

theorem SameReplay.sendEpoch : s₁.sendEpoch = s.sendEpoch :=
  congrArg SendSide.sendEpoch hsame.sendSide

theorem SameReplay.precheck {epoch seq : Nat}
    (hallowed : (s.receiveSide.replayStateAt nowMs).precheck s.sendEpoch epoch seq dir = true) :
    (s₁.receiveSide.replayStateAt nowMs).precheck s₁.sendEpoch epoch seq dir = true := by
  rw [hsame.state, hsame.sendEpoch]
  exact hallowed

theorem SameReplay.receiveStep : ReceiveStep s dir nowMs packets s₁ [] :=
  ⟨hsame.sendSide, hsame.flag, hsame.stored, [], .nil, by simp, rfl, hsame.state⟩

theorem ReceiveStep.after (hstep : ReceiveStep s₁ dir nowMs packets s₂ commits) :
    ReceiveStep s dir nowMs packets s₂ commits := by
  refine ⟨hstep.sendSide.trans hsame.sendSide, hstep.flag, hstep.stored ∘ hsame.stored, ?_⟩
  unfold Admitted
  rw [← hsame.state, ← hsame.sendEpoch]
  exact hstep.loop

end

theorem ReceiveStep.before (hstep : ReceiveStep s dir nowMs packets s₁ commits)
    (hsame : SameReplay s₁ nowMs s₂) : ReceiveStep s dir nowMs packets s₂ commits := by
  refine ⟨hsame.sendSide.trans hstep.sendSide, hsame.flag, hsame.stored ∘ hstep.stored, ?_⟩
  rw [hsame.state]
  exact hstep.loop

variable (hflag : s.receiveSide.GraceFlagOk nowMs)
include hflag

theorem liveGrace_sameReplay : SameReplay s nowMs (s.liveGrace nowMs).2 :=
  have hlookup := liveGrace_lookup hflag
  ⟨hlookup.sendSide, hlookup.flag, hlookup.stored, replayStateAt_eq hlookup.rx hlookup.grace⟩

theorem recordDecryptFailure_sameReplay : SameReplay s nowMs s.recordDecryptFailure :=
  .of_sides hflag rfl rfl

theorem recordAuthenticatedSuccess_sameReplay : SameReplay s nowMs s.recordAuthenticatedSuccess :=
  .of_sides hflag rfl rfl

end ReceiveStep

theorem commitReplay_spec {s : SecureDatagramSession}
    (hflag : s.receiveSide.GraceFlagOk nowMs) (epoch seq : Nat) (dir : Direction) (index : Nat) :
    let r := s.commitReplay epoch seq dir nowMs
    let step := commitStep s.sendEpoch dir nowMs (s.receiveSide.replayStateAt nowMs)
      ⟨epoch, seq, index⟩
    r.2.sendSide = s.sendSide ∧ r.2.receiveSide.GraceFlagOk nowMs ∧
      (s.syncRxGrace = none → r.2.syncRxGrace = none) ∧
      r.2.receiveSide.replayStateAt nowMs = step.1 ∧ step.2 = [(index, r.1)] := by
  rcases hpair : s.liveGrace nowMs with ⟨grace, s1⟩
  have hlookup : GraceLookup s nowMs grace s1 := by simpa [hpair] using liveGrace_lookup hflag
  have hbefore : (⟨s1.rxSlots, grace⟩ : ReplayState) = s.receiveSide.replayStateAt nowMs := by
    rw [hlookup.rx, hlookup.live_eq]
    rfl
  have hepoch : s.sendEpoch = s1.sendEpoch := congrArg SendSide.sendEpoch hlookup.sendSide.symm
  simp only [commitReplay, hpair, hbefore, hepoch, ReplayState.commitStep_eq, pruneKeyCache]
  set before := s.receiveSide.replayStateAt nowMs with hdef
  set after := before.commit s1.sendEpoch epoch seq dir nowMs with hafter
  have hexpiry : after.2.grace.map (·.expiresAtMs) =
      (s1.receiveSide.replayStateAt nowMs).grace.map (·.expiresAtMs) := by
    rw [hafter, ReplayState.commit_expiry]
    exact congrArg _ hlookup.grace.symm
  have hcopies := hlookup.flag.of_expiry hexpiry
  refine ⟨hlookup.sendSide, ?_, fun hnone => ?_, ?_, trivial⟩
  · intro copy hcopy hlive
    cases hgrace : after.2.grace with
    | none => exact hlookup.flag copy (by simpa [receiveSide, hgrace] using hcopy) hlive
    | some written =>
      obtain rfl : written = copy := by simpa [receiveSide, hgrace] using hcopy
      exact (hcopies written hgrace).2
  · have hstored := hlookup.stored hnone
    have hwritten : after.2.grace = none := by
      simpa [receiveSide, replayStateAt, maybeExpire, hstored] using hexpiry
    rw [hwritten, hstored]
    rfl
  · refine replayStateAt_eq rfl ?_
    cases hgrace : after.2.grace with
    | none =>
      have hnone : (s1.receiveSide.replayStateAt nowMs).grace = none := by
        simpa [hgrace] using hexpiry.symm
      simpa [receiveSide, replayStateAt, hgrace] using hnone
    | some written =>
      have hlive := (hcopies written hgrace).1
      simpa [receiveSide, hgrace] using maybeExpire_eq_some_iff.mpr ⟨rfl, hlive⟩

def DecryptResult.IsReceiveStep (r : DecryptResult) (s : SecureDatagramSession) (dir : Direction)
    (nowMs : Nat) (packet : ZCPacket) : Prop :=
  ReceiveStep s dir nowMs [packet] r.session r.commits

variable {nonce : SealedNonce}

section Scalar

variable {s : SecureDatagramSession} {nowMs : Nat} {packet : ZCPacket}

variable (hflag : s.receiveSide.GraceFlagOk nowMs)
include hflag

variable {dir : Direction}

theorem commitReplay_receiveStep (hnonce : readNonce packet = .ok nonce)
    (hallowed : (s.receiveSide.replayStateAt nowMs).precheck s.sendEpoch nonce.epoch nonce.seq
      dir = true) :
    ReceiveStep s dir nowMs [packet] (s.commitReplay nonce.epoch nonce.seq dir nowMs).2
      [(s.commitReplay nonce.epoch nonce.seq dir nowMs).1] := by
  obtain ⟨hsend, hflag', hstored, hstate, hcommit⟩ :=
    commitReplay_spec hflag nonce.epoch nonce.seq dir 0
  refine ⟨hsend, hflag', hstored, [⟨nonce.epoch, nonce.seq, 0⟩], pairwise_singleton _ _, ?_, ?_, ?_⟩
  · simpa [Admitted] using ⟨⟨nonce, hnonce, rfl, rfl⟩, hallowed⟩
  · rw [run_cons, hcommit]
    rfl
  · rw [hstate, run_cons]
    rfl

theorem openAndCommit_isReceiveStep (crypto : Crypto) (hnonce : readNonce packet = .ok nonce)
    (hallowed : (s.receiveSide.replayStateAt nowMs).precheck s.sendEpoch nonce.epoch nonce.seq
      dir = true) :
    (s.openAndCommit crypto dir packet nonce nowMs).IsReceiveStep s dir nowMs packet := by
  have hcached : SameReplay s nowMs
      (s.getOrCreateEncryptor crypto nonce.epoch dir s.sessionGeneration false).2 :=
    .of_sides hflag (by simp) (by simp)
  have hcommit := commitReplay_receiveStep hcached.flag hnonce (hcached.precheck hallowed)
  simp only [openAndCommit]
  split
  · exact (hcached.trans (recordDecryptFailure_sameReplay hcached.flag)).receiveStep
  · split
    · exact .after hcached hcommit
    · exact (ReceiveStep.after hcached hcommit).before
        (recordAuthenticatedSuccess_sameReplay hcommit.flag)

theorem precheckReplay_fst {epoch seq : Nat}
    (hallowed : (s.precheckReplay epoch seq dir nowMs).1 = true) :
    (s.receiveSide.replayStateAt nowMs).precheck s.sendEpoch epoch seq dir = true := by
  have hlookup := liveGrace_lookup hflag
  have hepoch : (s.liveGrace nowMs).2.sendEpoch = s.sendEpoch :=
    congrArg SendSide.sendEpoch hlookup.sendSide
  simp only [precheckReplay, hlookup.rx, hlookup.live_eq, hepoch] at hallowed
  exact hallowed

theorem decryptPayload_isReceiveStep (crypto : Crypto) :
    (s.decryptPayload crypto dir packet nowMs).IsReceiveStep s dir nowMs packet := by
  have hself : SameReplay s nowMs s := .of_sides hflag rfl rfl
  simp only [decryptPayload]
  split
  · exact hself.receiveStep
  split
  · exact hself.receiveStep
  next nonce hnonce =>
  have hchecked : SameReplay s nowMs
      (s.precheckReplay nonce.epoch nonce.seq dir nowMs).2 := liveGrace_sameReplay hflag
  split
  · exact hchecked.receiveStep
  · next hallowed =>
    refine .after hchecked (openAndCommit_isReceiveStep hchecked.flag crypto hnonce ?_)
    exact hchecked.precheck (precheckReplay_fst hflag (by simpa using hallowed))

end Scalar

/-! ### A batch -/

section Batch

variable {s : SecureDatagramSession} {nowMs : Nat} {dir : Direction} {crypto : Crypto}
  {snapshot : ReplayState} {sendEpoch : Nat}

theorem mem_classify {duplicate : Fin 64 → Bool}
    {nonces verdicts : List (Except SessionError SealedNonce)} {index : Nat}
    (hverdicts : classify snapshot sendEpoch dir duplicate index nonces = some verdicts)
    (hmem : .ok nonce ∈ verdicts) :
    .ok nonce ∈ nonces ∧ snapshot.precheck sendEpoch nonce.epoch nonce.seq dir = true := by
  induction nonces generalizing index verdicts with
  | nil =>
    obtain rfl : [] = verdicts := by simpa [classify] using hverdicts
    simp at hmem
  | cons first rest ih =>
    cases first with
    | error error =>
      obtain ⟨tail, htail, rfl⟩ : ∃ tail, classify snapshot sendEpoch dir duplicate
          (index + 1) rest = some tail ∧ .error error :: tail = verdicts := by
        simpa [classify, bind_eq_some_iff] using hverdicts
      exact (ih htail (by simpa using hmem)).imp_left (mem_cons_of_mem _)
    | ok first =>
      rw [classify] at hverdicts
      split_ifs at hverdicts with hindex
      obtain ⟨tail, htail, rfl⟩ : ∃ tail, classify snapshot sendEpoch dir duplicate
          (index + 1) rest = some tail ∧
          verdict snapshot sendEpoch dir (duplicate ⟨index, hindex⟩) first :: tail = verdicts := by
        simpa [bind_eq_some_iff] using hverdicts
      rcases mem_cons.mp hmem with hfirst | hrest
      · unfold verdict at hfirst
        split_ifs at hfirst with hduplicate hrejected
        cases hfirst
        exact ⟨mem_cons_self, by simpa using hrejected⟩
      · exact (ih htail hrest).imp_left (mem_cons_of_mem _)

theorem mem_openLoop {state : OpenState} {packet : ZCPacket}
    {input : List (ZCPacket × Except SessionError SealedNonce)}
    (hmem : (packet, .ok nonce) ∈ (openLoop crypto dir state input).2) :
    .ok nonce ∈ input.map (·.2) := by
  induction input generalizing state with
  | nil => exact absurd hmem (by simp [openLoop])
  | cons first rest ih =>
    obtain ⟨packet', verdict⟩ := first
    rw [map_cons, mem_cons]
    cases verdict with
    | error error =>
      simp only [openLoop, mem_cons, Prod.mk.injEq, reduceCtorEq, and_false, false_or] at hmem
      exact .inr (ih hmem)
    | ok first =>
      simp only [openLoop] at hmem
      split at hmem
      · simp only [mem_cons, Prod.mk.injEq, reduceCtorEq, and_false, false_or] at hmem
        exact .inr (ih hmem)
      · simp only [mem_cons, Prod.mk.injEq, Except.ok.injEq] at hmem
        rcases hmem with ⟨-, rfl⟩ | hrest
        · exact .inl rfl
        · exact .inr (ih hrest)

theorem decryptor_sides (state : OpenState) (epoch : Nat) :
    (state.decryptor crypto dir epoch).2.session.sendSide = state.session.sendSide ∧
      (state.decryptor crypto dir epoch).2.session.receiveSide = state.session.receiveSide := by
  simp only [OpenState.decryptor]
  split
  · exact ⟨rfl, rfl⟩
  · exact ⟨by simp, by simp⟩

theorem openLoop_sides (state : OpenState)
    (input : List (ZCPacket × Except SessionError SealedNonce)) :
    (openLoop crypto dir state input).1.session.sendSide = state.session.sendSide ∧
      (openLoop crypto dir state input).1.session.receiveSide = state.session.receiveSide := by
  induction input generalizing state with
  | nil => exact ⟨rfl, rfl⟩
  | cons first rest ih =>
    obtain ⟨packet, verdict⟩ := first
    cases verdict with
    | error error => exact ih state
    | ok nonce =>
      obtain ⟨hsend, hreceive⟩ := @decryptor_sides dir crypto state nonce.epoch
      simp only [openLoop]
      split
      · exact ⟨(ih _).1.trans hsend, (ih _).2.trans hreceive⟩
      · exact ⟨(ih _).1.trans hsend, (ih _).2.trans hreceive⟩

variable {opened : List (ZCPacket × Except SessionError SealedNonce)}

theorem mem_openedPackets {packet : Opened} {index : Nat}
    (hmem : packet ∈ openedPackets index opened) :
    ∃ payload nonce, (payload, .ok nonce) ∈ opened ∧
      nonce.epoch = packet.epoch ∧ nonce.seq = packet.seq := by
  induction opened generalizing index with
  | nil => exact absurd hmem (by simp [openedPackets])
  | cons first rest ih =>
    obtain ⟨payload, verdict⟩ := first
    cases verdict with
    | error error =>
      obtain ⟨payload, nonce, hopened, hnonce⟩ := ih hmem
      exact ⟨payload, nonce, mem_cons_of_mem _ hopened, hnonce⟩
    | ok nonce =>
      rcases mem_cons.mp hmem with rfl | hrest
      · exact ⟨payload, nonce, mem_cons_self, rfl, rfl⟩
      · obtain ⟨payload, nonce, hopened, hnonce⟩ := ih hrest
        exact ⟨payload, nonce, mem_cons_of_mem _ hopened, hnonce⟩

instance : Std.Total Opened.le where
  total a b := by
    unfold Opened.le
    omega

instance : IsTrans Opened Opened.le where
  trans a b c := by
    unfold Opened.le
    omega

theorem commitOrder_pairwise (opened : List Opened) :
    (opened.insertionSort Opened.le).Pairwise fun a b => a.epoch ≤ b.epoch := by
  refine (pairwise_insertionSort Opened.le opened).imp ?_
  intro a b hle
  unfold Opened.le at hle
  omega

theorem run_commitStep_expiry (sendEpoch : Nat) (state : ReplayState) (order : List Opened) :
    (run (commitStep sendEpoch dir nowMs) state order).1.grace.map (·.expiresAtMs) =
      state.grace.map (·.expiresAtMs) := by
  induction order generalizing state with
  | nil => rfl
  | cons packet order ih =>
    rw [run_cons, ih, ReplayState.commitStep_eq, ReplayState.commit_expiry]

theorem replayStateSnapshot_sameReplay (hflag : s.receiveSide.GraceFlagOk nowMs) :
    SameReplay s nowMs (s.replayStateSnapshot nowMs).2 := by
  have hself : SameReplay s nowMs s := .of_sides hflag rfl rfl
  unfold replayStateSnapshot
  split
  · exact hself
  next grace hgrace =>
  split
  · exact hself
  next hnone =>
  refine ⟨rfl, fun copy hcopy hlive => ?_, id, rfl⟩
  obtain rfl : grace = copy := some.inj (hgrace.symm.trans hcopy)
  have := maybeExpire_eq_none_iff.mp hnone grace rfl
  omega

theorem replayStateSnapshot_fst :
    (s.replayStateSnapshot nowMs).1 = s.receiveSide.replayStateAt nowMs := by
  have hstate : s.receiveSide.replayStateAt nowMs =
      ⟨s.rxSlots, maybeExpire s.syncRxGrace nowMs⟩ := rfl
  rw [hstate, replayStateSnapshot]
  cases hgrace : s.syncRxGrace with
  | none => rfl
  | some grace =>
    dsimp only
    cases maybeExpire (some grace) nowMs <;> rfl

def BatchDecryptResult.IsReceiveStep (r : BatchDecryptResult) (s : SecureDatagramSession)
    (dir : Direction) (nowMs : Nat) (packets : List ZCPacket) : Prop :=
  ReceiveStep s dir nowMs packets r.session r.commits

variable (hflag : s.receiveSide.GraceFlagOk nowMs)
include hflag

variable {packets : List ZCPacket}

theorem commitOpened_receiveStep {opened : List Opened}
    (hopened : ∀ packet ∈ opened, s.Admitted dir nowMs packets packet) :
    ReceiveStep s dir nowMs packets (s.commitOpened dir nowMs opened).2
      ((s.commitOpened dir nowMs opened).1.map (·.2)) := by
  have hexpiry := @run_commitStep_expiry nowMs dir s.sendEpoch
    (s.receiveSide.replayStateAt nowMs) (opened.insertionSort Opened.le)
  have hcopies := hflag.of_expiry hexpiry
  refine ⟨rfl, fun copy hcopy _ => ?_, fun hnone => ?_, _, commitOrder_pairwise opened, ?_, rfl, ?_⟩
  · have hsome : (maybeExpire s.syncRxGrace nowMs).isNone = false := by
      obtain ⟨live, hlive, -⟩ := map_eq_some_iff.mp (hexpiry.symm.trans (congrArg _ hcopy))
      have hvisible : maybeExpire s.syncRxGrace nowMs = some live := hlive
      rw [hvisible]
      rfl
    show (if (maybeExpire s.syncRxGrace nowMs).isNone then 0
      else s.syncRxGraceExpiresAtMs) = copy.expiresAtMs
    rw [hsome]
    exact (hcopies copy hcopy).2
  · have hnothing : (s.receiveSide.replayStateAt nowMs).grace = none := by
      simp [receiveSide, replayStateAt, maybeExpire, hnone]
    rw [hnothing] at hexpiry
    exact map_eq_none_iff.mp hexpiry
  · intro packet hpacket
    exact hopened packet ((mem_insertionSort Opened.le).mp hpacket)
  · exact replayStateAt_eq rfl (maybeExpire_eq_self fun copy hcopy => (hcopies copy hcopy).1)

theorem recordBatch_sameReplay (results : List (Except SessionError Unit))
    (sawDecryptFailure : Bool) : SameReplay s nowMs (s.recordBatch results sawDecryptFailure) := by
  unfold recordBatch
  split
  · exact recordAuthenticatedSuccess_sameReplay hflag
  · split
    · exact recordDecryptFailure_sameReplay hflag
    · exact .of_sides hflag rfl rfl

theorem commitBatch_isReceiveStep
    (hopened : ∀ payload nonce, (payload, .ok nonce) ∈ opened → .ok nonce ∈ packets.map readNonce ∧
      (s.receiveSide.replayStateAt nowMs).precheck s.sendEpoch nonce.epoch nonce.seq dir = true)
    (sawDecryptFailure : Bool) :
    (s.commitBatch dir nowMs opened sawDecryptFailure).IsReceiveStep s dir nowMs packets := by
  have hstep : ReceiveStep s dir nowMs packets (s.commitOpened dir nowMs (openedPackets 0 opened)).2
      ((s.commitOpened dir nowMs (openedPackets 0 opened)).1.map (·.2)) := by
    refine commitOpened_receiveStep hflag fun packet hpacket => ?_
    obtain ⟨payload, nonce, hmem, hepoch, hseq⟩ := mem_openedPackets hpacket
    obtain ⟨hnonce, hallowed⟩ := hopened payload nonce hmem
    obtain ⟨sealed, hsealed, hread⟩ := mem_map.mp hnonce
    rw [hepoch, hseq] at hallowed
    exact ⟨⟨sealed, hsealed, nonce, hread, hepoch, hseq⟩, hallowed⟩
  exact hstep.before (recordBatch_sameReplay hstep.flag _ _)

theorem decryptPayloadBatch_isReceiveStep :
    (s.decryptPayloadBatch crypto dir packets nowMs).IsReceiveStep s dir nowMs packets := by
  have hself : SameReplay s nowMs s := .of_sides hflag rfl rfl
  have hsnapshot := replayStateSnapshot_sameReplay hflag
  simp only [decryptPayloadBatch]
  split
  · exact hself.receiveStep
  split
  · exact hself.receiveStep
  split
  · exact hself.receiveStep
  split
  · exact hsnapshot.receiveStep
  next verdicts hverdicts =>
  obtain ⟨hsend, hreceive⟩ := @openLoop_sides dir crypto
    ⟨(s.replayStateSnapshot nowMs).2, [], false⟩ (packets.zip verdicts)
  have hsame := hsnapshot.trans (.of_sides hsnapshot.flag hsend hreceive)
  refine .after hsame (commitBatch_isReceiveStep hsame.flag ?_ _)
  intro payload nonce hmem
  obtain ⟨pair, hpair, hok⟩ := mem_map.mp (mem_openLoop hmem)
  have hverdict : .ok nonce ∈ verdicts := by
    rw [← hok]
    exact (of_mem_zip hpair).2
  obtain ⟨hnonce, hallowed⟩ := mem_classify hverdicts hverdict
  rw [replayStateSnapshot_fst, hsnapshot.sendEpoch] at hallowed
  exact ⟨hnonce, hsame.precheck hallowed⟩

end Batch

/-! ## The send side

`ReceiveStep` needs a sound grace flag.  That no receive call writes the send side
needs nothing. -/

section SendSide

variable (s : SecureDatagramSession) (crypto : Crypto) (dir : Direction) (nowMs : Nat)

@[simp] theorem liveGrace_sendSide : (s.liveGrace nowMs).2.sendSide = s.sendSide := by
  unfold liveGrace
  split
  · rfl
  · split
    · split <;> rfl
    · rfl

@[simp] theorem precheckReplay_sendSide (epoch seq : Nat) :
    (s.precheckReplay epoch seq dir nowMs).2.sendSide = s.sendSide :=
  s.liveGrace_sendSide nowMs

@[simp] theorem commitReplay_sendSide (epoch seq : Nat) :
    (s.commitReplay epoch seq dir nowMs).2.sendSide = s.sendSide :=
  s.liveGrace_sendSide nowMs

def DecryptResult.KeepsSendSide (r : DecryptResult) (s : SecureDatagramSession) : Prop :=
  r.session.sendSide = s.sendSide

theorem openAndCommit_keepsSendSide (packet : ZCPacket) :
    (s.openAndCommit crypto dir packet nonce nowMs).KeepsSendSide s := by
  have hencryptor : (s.getOrCreateEncryptor crypto nonce.epoch dir s.sessionGeneration
      false).2.sendSide = s.sendSide := getOrCreateEncryptor_sendSide ..
  simp only [openAndCommit]
  split
  · exact hencryptor
  · split
    · exact (commitReplay_sendSide _ dir nowMs nonce.epoch nonce.seq).trans hencryptor
    · exact (commitReplay_sendSide _ dir nowMs nonce.epoch nonce.seq).trans hencryptor

theorem decryptPayload_keepsSendSide (packet : ZCPacket) :
    (s.decryptPayload crypto dir packet nowMs).KeepsSendSide s := by
  simp only [decryptPayload]
  split
  · rfl
  split
  · rfl
  next nonce _ =>
  have hchecked := s.precheckReplay_sendSide dir nowMs nonce.epoch nonce.seq
  split
  · exact hchecked
  · exact (openAndCommit_keepsSendSide _ crypto dir nowMs packet).trans hchecked

@[simp] theorem replayStateSnapshot_sendSide :
    (s.replayStateSnapshot nowMs).2.sendSide = s.sendSide := by
  unfold replayStateSnapshot
  split
  · rfl
  · split <;> rfl

def BatchDecryptResult.KeepsSendSide (r : BatchDecryptResult) (s : SecureDatagramSession) : Prop :=
  r.session.sendSide = s.sendSide

theorem recordBatch_sendSide (results : List (Except SessionError Unit)) (failed : Bool) :
    (s.recordBatch results failed).sendSide = s.sendSide := by
  unfold recordBatch
  split
  · rfl
  · split <;> rfl

theorem decryptPayloadBatch_keepsSendSide (packets : List ZCPacket) :
    (s.decryptPayloadBatch crypto dir packets nowMs).KeepsSendSide s := by
  simp only [decryptPayloadBatch]
  split
  · rfl
  split
  · rfl
  split
  · rfl
  have hsnapshot := s.replayStateSnapshot_sendSide nowMs
  split
  · exact hsnapshot
  · refine (recordBatch_sendSide _ _ _).trans ?_
    exact (openLoop_sides _ _).1.trans hsnapshot

end SendSide

end LowerTier.Peers.SecureDatagramSession
