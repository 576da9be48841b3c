import LowerTier.Peers.ForeignNetworkManager.Connections
import LowerTier.ProofSupport.Arena
import LowerTier.ProofSupport.Trace

/-!
# Calls that overlap

A call holds the entry of its network over several awaits, and until it has inserted its peer
nothing tells that the entry is in use.  When the last peer of the entry is removed, or the call
that created it fails, the entry leaves the manager with the other calls still on it.
-/

namespace LowerTier.Peers.ForeignNetworkManager

open Data Finset Function Option ProofSupport Tunnel KeyedMap

inductive Stage where
  /-- A new entry is prepared. -/
  | preparing
  /-- The call waits for the lock of the entry, with the outcome of the identity checks. -/
  | waiting (checked : Except AddError Unit)
  /-- The connection is added to its peer. -/
  | inserting (epoch : Nat)
  /-- The call has failed, and a new entry is still to be rolled back. -/
  | failed (error : AddError)
  | returned (result : Except AddError Unit)

structure AddCall where
  conn : PeerConn
  entry : Nat
  newAdded : Bool
  stage : Stage

namespace AddCall

variable (call : AddCall)

def networkName : String := call.conn.network.networkName

def InProgress : Prop :=
  match call.stage with
  | .preparing | .waiting _ | .inserting _ => True
  | .failed _ | .returned _ => False

instance : Decidable call.InProgress :=
  match hstage : call.stage with
  | .preparing | .waiting _ | .inserting _ => .isTrue (by rw [InProgress, hstage]; trivial)
  | .failed _ | .returned _ => .isFalse (by rw [InProgress, hstage]; exact id)

/-- The call has not returned an error. -/
def Live : Prop := ∀ error, call.stage ≠ .returned (.error error)

end AddCall

structure System where
  data : Data
  calls : List AddCall

inductive Event where
  | start (conn : PeerConn) (around : Surroundings)
  | prepared (call : Nat) (around : Surroundings)
  | lockEntry (call : Nat) (around : Surroundings)
  | finish (call : Nat)
  | rollback (call : Nat)
  /-- `clean_peer_without_conn` closes a peer; it has looked at the connections an await before. -/
  | closePeer (entry : Nat) (peer : PeerId)
  /-- The event handler of the entry processes `PeerRemoved`. -/
  | peerRemoved (entry : Nat)

namespace System

variable (s : System)

variable (number : Nat)

def setStage (stage : Stage) : System :=
  { s with calls := s.calls.modify number fun call => { call with stage } }

def setEntry (entry : ForeignNetworkEntry) : System :=
  { s with data := s.data.setEntry number entry }

variable (call : AddCall)

def tryInsert (checked : Except AddError Unit) (around : Surroundings) :
    Except AddError (Nat × ForeignNetworkEntry) := do
  let entry := s.data.entries call.entry
  checked
  entry.checkDirectConns call.conn call.newAdded
  entry.insertPeer call.conn around

def lockEntry (checked : Except AddError Unit) (around : Surroundings) : System :=
  if (s.data.entries call.entry).locked then s
  else
    match s.tryInsert call checked around with
    | .error error => s.setStage number (.failed error)
    | .ok (epoch, entry) =>
      (s.setEntry call.entry { entry with locked := true }).setStage number (.inserting epoch)

def finish (epoch : Nat) : System :=
  match (s.data.entries call.entry).finishPeer call.conn epoch with
  | (.error error, entry) =>
    (s.setEntry call.entry { entry with locked := false }).setStage number (.failed error)
  | (.ok (), entry) =>
    (s.setEntry call.entry { entry with locked := false }).setStage number (.returned (.ok ()))

def rollback (error : AddError) : System :=
  { s with data :=
      if call.newAdded then s.data.removePeer call.conn.peerId call.networkName
      else s.data }.setStage number (.returned (.error error))

def start (conn : PeerConn) (around : Surroundings) : System :=
  match s.data.admitConn conn around with
  | .error error => { s with calls := s.calls ++ [⟨conn, 0, false, .returned (.error error)⟩] }
  | .ok ((entry, newAdded), data) =>
    { data, calls := s.calls ++ [⟨conn, entry, newAdded,
        if newAdded then .preparing
        else .waiting ((data.entries entry).checkIdentity conn around)⟩] }

def withCall (f : AddCall → System) : System := (s.calls[number]?).elim s f

/-- One event; one that does not fit the state changes nothing. -/
def step : Event → System
  | .start conn around => s.start conn around
  | .prepared number around => s.withCall number fun call =>
    match call.stage with
    | .preparing => s.setStage number
        (.waiting ((s.data.entries call.entry).checkIdentity call.conn around))
    | _ => s
  | .lockEntry number around => s.withCall number fun call =>
    match call.stage with
    | .waiting checked => s.lockEntry number call checked around
    | _ => s
  | .finish number => s.withCall number fun call =>
    match call.stage with
    | .inserting epoch => s.finish number call epoch
    | _ => s
  | .rollback number => s.withCall number fun call =>
    match call.stage with
    | .failed error => s.rollback number call error
    | _ => s
  | .closePeer number peer =>
    let entry := s.data.entries number
    s.setEntry number { entry with
      peerMap := entry.peerMap.erase peer, removed := entry.removed ++ [peer] }
  | .peerRemoved number =>
    let entry := s.data.entries number
    match entry.removed with
    | [] => s
    | peer :: removed =>
      { s with data := s.data.removePeer peer entry.network.networkName }.setEntry number
        { entry with removed }

def new : System :=
  ⟨⟨fun _ => ⟨⟨"", none, none⟩, 0, ∅, 0, false, []⟩, 0, ∅, ∅⟩, []⟩

/-! ## Entries in use -/

/-- What the manager records of a peer of a network: the entry and the pair. -/
def Recorded (networkName : String) (entry : Nat) (peer : PeerId) : Prop :=
  s.data.networkPeerMaps.lookup networkName = some entry ∧
    (peer, networkName) ∈ s.data.peerNetworkMap

/-- Every call in progress and every peer in an entry is recorded. -/
structure Inv (s : System) : Prop where
  call : ∀ call ∈ s.calls, call.InProgress →
    s.Recorded call.networkName call.entry call.conn.peerId
  peer : ∀ number peer, ((s.data.entries number).peerMap.lookup peer).isSome →
    s.Recorded (s.data.entries number).network.networkName number peer
  placed : ∀ call ∈ s.calls, call.Live → call.entry < s.data.nextEntry ∧
    (s.data.entries call.entry).network.networkName = call.networkName
  registered : s.data.Numbered

variable {s} {number : Nat}

theorem Inv.setEntry (h : s.Inv) {entry : ForeignNetworkEntry}
    (hname : entry.network = (s.data.entries number).network)
    (hpeers : ∀ peer, (entry.peerMap.lookup peer).isSome →
      s.Recorded (s.data.entries number).network.networkName number peer) :
    (s.setEntry number entry).Inv := by
  have hnames : ∀ other, (update s.data.entries number entry other).network =
      (s.data.entries other).network := by
    intro other
    by_cases hother : other = number
    · rw [hother, update_self, hname]
    · rw [update_of_ne hother]
  refine { h with peer := ?_, placed := ?_, registered := ?_ }
  · intro other peer hpeer
    change s.Recorded (update s.data.entries number entry other).network.networkName other peer
    rw [hnames]
    by_cases hother : other = number
    · subst hother
      exact hpeers peer (by simpa [System.setEntry, Data.setEntry] using hpeer)
    · exact h.peer other peer (by simpa [System.setEntry, Data.setEntry, hother] using hpeer)
  · intro call hcall hlive
    refine (h.placed call hcall hlive).imp id fun hplaced => ?_
    exact (congrArg NetworkIdentity.networkName (hnames call.entry)).trans hplaced
  · intro name other hother
    refine (h.registered name other hother).imp id fun hregistered => ?_
    exact (congrArg NetworkIdentity.networkName (hnames other)).trans hregistered

theorem Inv.setStage (h : s.Inv) {stage : Stage}
    (hcall : ∀ call, s.calls[number]? = some call → call.Live ∧
      (AddCall.InProgress { call with stage } → call.InProgress)) :
    (s.setStage number stage).Inv := by
  refine { h with call := fun call hin hprogress => ?_, placed := fun call hin hlive => ?_ }
  · rcases Arena.mem_modify hin with hold | ⟨old, hold, rfl⟩
    · exact h.call call hold hprogress
    · exact h.call old (List.mem_of_getElem? hold) ((hcall old hold).2 hprogress)
  · rcases Arena.mem_modify hin with hold | ⟨old, hold, rfl⟩
    · exact h.placed call hold hlive
    · exact h.placed old (List.mem_of_getElem? hold) (hcall old hold).1

/-- No call in progress and no peer of the network needs what `remove_peer` removes. -/
structure NotNeeded (s : System) (peer : PeerId) (networkName : String) : Prop where
  absent : ∀ number, s.data.networkPeerMaps.lookup networkName = some number →
    (s.data.entries number).peerMap.lookup peer = none
  unused : ∀ (number : Nat) (call : AddCall), s.calls[number]? = some call → call.InProgress →
    call.networkName = networkName →
      call.conn.peerId ≠ peer ∧ (s.data.entries call.entry).peerMap.size ≠ 0

theorem Inv.removePeer (h : s.Inv) {peer : PeerId} {networkName : String}
    (hneed : s.NotNeeded peer networkName) :
    Inv { s with data := s.data.removePeer peer networkName } := by
  have hkept : ∀ {name other entry}, s.Recorded name entry other →
      (name = networkName → other ≠ peer ∧ (s.data.entries entry).peerMap.size ≠ 0) →
        Recorded { s with data := s.data.removePeer peer networkName } name entry other := by
    intro name other entry hrecorded hother
    refine ⟨?_, mem_erase.mpr ⟨fun hpair => ?_, hrecorded.2⟩⟩
    · unfold Data.removePeer
      by_cases hname : name = networkName
      · subst hname
        rw [hrecorded.1, any_some, if_neg (by simpa using (hother rfl).2)]
        exact hrecorded.1
      · split
        · rw [AList.lookup_erase_ne hname]
          exact hrecorded.1
        · exact hrecorded.1
    · obtain ⟨hpeer, hname⟩ := Prod.mk.inj hpair
      exact (hother hname).1 hpeer
  refine { h with call := ?_, peer := ?_, registered := ?_ }
  · intro call hcall hprogress
    obtain ⟨number, hnumber⟩ := List.mem_iff_getElem?.mp hcall
    exact hkept (h.call call hcall hprogress) (hneed.unused number call hnumber hprogress)
  · intro number other hpeer
    have hrecorded := h.peer number other hpeer
    refine hkept hrecorded fun hname => ⟨?_, fun hsize => ?_⟩
    · rintro rfl
      have habsent := hneed.absent number (hname ▸ hrecorded.1)
      exact absurd ((congrArg isSome habsent).symm.trans hpeer) nofun
    · obtain ⟨found, hfound⟩ := isSome_iff_exists.mp hpeer
      exact Nat.succ_ne_zero _ ((size_erase hfound).trans hsize)
  · intro name number hlookup
    refine h.registered name number ?_
    unfold Data.removePeer at hlookup
    split at hlookup
    · exact lookup_of_lookup_erase hlookup
    · exact hlookup

theorem insertPeer_spec {entry inserted : ForeignNetworkEntry} {conn : PeerConn}
    {around : Surroundings} {epoch : Nat}
    (h : entry.insertPeer conn around = .ok (epoch, inserted)) :
    inserted.network = entry.network ∧ ∀ peer, (inserted.peerMap.lookup peer).isSome →
      (entry.peerMap.lookup peer).isSome ∨ peer = conn.peerId := by
  unfold ForeignNetworkEntry.insertPeer at h
  split at h
  · cases h
  split at h
  · cases h
    exact ⟨rfl, fun _ => .inl⟩
  cases h
  refine ⟨rfl, fun peer hpeer => ?_⟩
  by_cases hsame : peer = conn.peerId
  · exact .inr hsame
  · rw [AList.lookup_insert_ne hsame] at hpeer
    exact .inl hpeer

theorem finishPeer_spec (entry : ForeignNetworkEntry) (conn : PeerConn) (epoch : Nat) :
    (entry.finishPeer conn epoch).2.network = entry.network ∧
      ∀ peer, ((entry.finishPeer conn epoch).2.peerMap.lookup peer).isSome →
        (entry.peerMap.lookup peer).isSome := by
  have hinsert : ∀ {old : Peer} (joined : Peer), entry.peerMap.lookup conn.peerId = some old →
      ∀ peer, ((entry.peerMap.insert conn.peerId joined).lookup peer).isSome →
        (entry.peerMap.lookup peer).isSome := by
    intro old joined hold peer hpeer
    by_cases hsame : peer = conn.peerId
    · rw [hsame, hold]
      rfl
    · rwa [AList.lookup_insert_ne hsame] at hpeer
  unfold ForeignNetworkEntry.finishPeer
  split
  · exact ⟨rfl, fun _ => id⟩
  next old hold =>
  have hlookup := (filter_eq_some_iff.mp hold).1
  split
  · split
    · exact ⟨rfl, hinsert _ hlookup⟩
    · refine ⟨rfl, fun peer hpeer => ?_⟩
      obtain ⟨found, hfound⟩ := isSome_iff_exists.mp hpeer
      exact isSome_iff_exists.mpr ⟨found, lookup_of_lookup_erase hfound⟩
  · exact ⟨rfl, hinsert _ hlookup⟩

variable {call : AddCall}

theorem tryInsert_ok {checked : Except AddError Unit} {around : Surroundings}
    {inserted : Nat × ForeignNetworkEntry} (h : s.tryInsert call checked around = .ok inserted) :
    (s.data.entries call.entry).insertPeer call.conn around = .ok inserted := by
  unfold tryInsert at h
  dsimp only at h
  cases checked with
  | error error => cases h
  | ok =>
    cases hlimit : (s.data.entries call.entry).checkDirectConns call.conn call.newAdded with
    | error error => rw [hlimit] at h; exact nomatch h
    | ok => rw [hlimit] at h; exact h

section

variable (h : s.Inv)
include h

section

variable (hcall : s.calls[number]? = some call) (hprogress : call.InProgress)
include hcall hprogress

theorem Inv.advance (stage : Stage) : (s.setStage number stage).Inv := by
  refine h.setStage fun other hother => ?_
  obtain rfl := some.inj (hcall.symm.trans hother)
  refine ⟨fun error hreturned => ?_, fun _ => hprogress⟩
  rw [AddCall.InProgress, hreturned] at hprogress
  exact hprogress

theorem Inv.lockEntry (checked : Except AddError Unit) (around : Surroundings) :
    (s.lockEntry number call checked around).Inv := by
  unfold System.lockEntry
  split
  · exact h
  split
  · exact h.advance hcall hprogress _
  next epoch entry hinsert =>
  obtain ⟨hnetwork, hpeers⟩ := insertPeer_spec (tryInsert_ok hinsert)
  have hrecorded := h.call call (List.mem_of_getElem? hcall) hprogress
  have hlive : call.Live := fun error hreturned => by
    rw [AddCall.InProgress, hreturned] at hprogress
    exact hprogress
  rw [← (h.placed call (List.mem_of_getElem? hcall) hlive).2] at hrecorded
  have hentry : (s.setEntry call.entry { entry with locked := true }).Inv := by
    refine h.setEntry hnetwork fun peer hpeer => ?_
    rcases hpeers peer hpeer with hold | rfl
    · exact h.peer call.entry peer hold
    · exact hrecorded
  exact hentry.advance hcall hprogress _

theorem Inv.finish (epoch : Nat) : (s.finish number call epoch).Inv := by
  obtain ⟨hnetwork, hpeers⟩ := finishPeer_spec (s.data.entries call.entry) call.conn epoch
  have hentry : (s.setEntry call.entry
      { ((s.data.entries call.entry).finishPeer call.conn epoch).2 with locked := false }).Inv :=
    h.setEntry hnetwork fun peer hpeer => h.peer call.entry peer (hpeers peer hpeer)
  unfold System.finish
  split
  · next hfinish =>
    rw [hfinish] at hentry
    exact hentry.advance hcall hprogress _
  · next hfinish =>
    rw [hfinish] at hentry
    exact hentry.advance hcall hprogress _

end

theorem Inv.appendCall
    (hrecorded : call.InProgress → s.Recorded call.networkName call.entry call.conn.peerId)
    (hplaced : call.Live → call.entry < s.data.nextEntry ∧
      (s.data.entries call.entry).network.networkName = call.networkName) :
    Inv { s with calls := s.calls ++ [call] } := by
  refine { h with call := fun other hin => ?_, placed := fun other hin => ?_ }
  · rcases List.mem_append.mp hin with hold | hnew
    · exact h.call other hold
    · exact List.mem_singleton.mp hnew ▸ hrecorded
  · rcases List.mem_append.mp hin with hold | hnew
    · exact h.placed other hold
    · exact List.mem_singleton.mp hnew ▸ hplaced

/-- The peer is recorded for its network, which may get a new entry. -/
theorem Inv.getOrInsertEntry (identity : NetworkIdentity) (myPeerId peer : PeerId) :
    Inv { s with data := (s.data.getOrInsertEntry identity myPeerId peer).2 } ∧
      Recorded { s with data := (s.data.getOrInsertEntry identity myPeerId peer).2 }
        identity.networkName (s.data.getOrInsertEntry identity myPeerId peer).1.1 peer := by
  unfold Data.getOrInsertEntry
  cases hlookup : s.data.networkPeerMaps.lookup identity.networkName with
  | some entry =>
    have hkept : ∀ {name number other}, s.Recorded name number other →
        s.data.networkPeerMaps.lookup name = some number ∧
          (other, name) ∈ insert (peer, identity.networkName) s.data.peerNetworkMap :=
      fun hrecorded => ⟨hrecorded.1, mem_insert_of_mem hrecorded.2⟩
    refine ⟨{ h with call := ?_, peer := ?_ }, hlookup, mem_insert_self _ _⟩
    · exact fun call hcall hprogress => hkept (h.call call hcall hprogress)
    · exact fun number other hpeer => hkept (h.peer number other hpeer)
  | none =>
    have hkept : ∀ {name number other}, s.Recorded name number other →
        (s.data.networkPeerMaps.insert identity.networkName s.data.nextEntry).lookup name =
            some number ∧
          (other, name) ∈ insert (peer, identity.networkName) s.data.peerNetworkMap := by
      intro name number other hrecorded
      refine ⟨?_, mem_insert_of_mem hrecorded.2⟩
      rw [AList.lookup_insert_ne fun hname => by
        rw [← hname, hrecorded.1] at hlookup
        exact nomatch hlookup]
      exact hrecorded.1
    have hbelow : ∀ {number} (entry : ForeignNetworkEntry), number < s.data.nextEntry →
        update s.data.entries s.data.nextEntry entry number = s.data.entries number :=
      fun entry hnumber => update_of_ne hnumber.ne entry s.data.entries
    refine ⟨{ call := ?_, peer := ?_, placed := ?_, registered := ?_ },
      AList.lookup_insert _, mem_insert_self _ _⟩
    · exact fun call hcall hprogress => hkept (h.call call hcall hprogress)
    · intro number other hpeer
      dsimp only at hpeer ⊢
      by_cases hnumber : number = s.data.nextEntry
      · rw [hnumber, update_self] at hpeer
        cases hpeer
      · rw [update_of_ne hnumber] at hpeer ⊢
        exact hkept (h.peer number other hpeer)
    · intro call hcall hlive
      obtain ⟨hentry, hplaced⟩ := h.placed call hcall hlive
      refine ⟨Nat.lt_succ_of_lt hentry, ?_⟩
      dsimp only
      rw [hbelow _ hentry, hplaced]
    · intro name number hname
      dsimp only at hname ⊢
      rcases lookup_insert_cases hname with ⟨rfl, rfl⟩ | ⟨-, hold⟩
      · rw [update_self]
        exact ⟨Nat.lt_succ_self _, rfl⟩
      · obtain ⟨hentry, hregistered⟩ := h.registered name number hold
        rw [hbelow _ hentry]
        exact ⟨Nat.lt_succ_of_lt hentry, hregistered⟩

theorem Inv.start (conn : PeerConn) (around : Surroundings) : (s.start conn around).Inv := by
  unfold System.start
  rcases @admitConn_cases s.data conn around with ⟨-, error, hallows⟩ | ⟨-, hallows⟩
  · rw [hallows]
    exact h.appendCall False.elim fun hlive => absurd rfl (hlive error)
  · rw [hallows]
    obtain ⟨hinv, hrecorded⟩ := h.getOrInsertEntry conn.network conn.myPeerId conn.peerId
    exact hinv.appendCall (fun _ => hrecorded) fun _ => hinv.registered _ _ hrecorded.1

theorem Inv.rollback {error : AddError}
    (hcall : s.calls[number]? = some call) (hstage : call.stage = .failed error)
    (hneed : call.newAdded = true → s.NotNeeded call.conn.peerId call.networkName) :
    (s.rollback number call error).Inv := by
  have hdata : Inv { s with data :=
      if call.newAdded then s.data.removePeer call.conn.peerId call.networkName else s.data } := by
    split
    · next hnew => exact h.removePeer (hneed hnew)
    · exact h
  refine hdata.setStage fun other hother => ⟨fun returned hreturned => ?_, False.elim⟩
  obtain rfl := some.inj (hcall.symm.trans hother)
  exact nomatch hstage.symm.trans hreturned

end

/-- Where an event runs `remove_peer`, what it removes is not needed. -/
def Harmless (s : System) (_ : List Unit) : Event → Prop
  | .rollback number => ∀ call error, s.calls[number]? = some call → call.stage = .failed error →
    call.newAdded = true → s.NotNeeded call.conn.peerId call.networkName
  | .peerRemoved number => ∀ peer ∈ (s.data.entries number).removed.head?,
    s.NotNeeded peer (s.data.entries number).network.networkName
  | _ => True

theorem Inv.withCall (h : s.Inv) {f : AddCall → System}
    (hf : ∀ call, s.calls[number]? = some call → (f call).Inv) : (s.withCall number f).Inv := by
  unfold System.withCall
  cases hcall : s.calls[number]? with
  | none => exact h
  | some call => exact hf call hcall

theorem Inv.step (h : s.Inv) {event : Event} (hharmless : Harmless s [] event) :
    (s.step event).Inv := by
  cases event with
  | start conn around => exact h.start conn around
  | prepared number around =>
    refine h.withCall fun call hcall => ?_
    split
    · next hstage => exact h.advance hcall (by rw [AddCall.InProgress, hstage]; trivial) _
    · exact h
  | lockEntry number around =>
    refine h.withCall fun call hcall => ?_
    split
    · next hstage => exact h.lockEntry hcall (by rw [AddCall.InProgress, hstage]; trivial) _ around
    · exact h
  | finish number =>
    refine h.withCall fun call hcall => ?_
    split
    · next hstage => exact h.finish hcall (by rw [AddCall.InProgress, hstage]; trivial) _
    · exact h
  | rollback number =>
    refine h.withCall fun call hcall => ?_
    split
    · next error hstage => exact h.rollback hcall hstage (hharmless call error hcall hstage)
    · exact h
  | closePeer number peer =>
    refine h.setEntry rfl fun other hother => ?_
    obtain ⟨found, hfound⟩ := isSome_iff_exists.mp hother
    exact h.peer number other (isSome_iff_exists.mpr ⟨found, lookup_of_lookup_erase hfound⟩)
  | peerRemoved number =>
    unfold System.step
    dsimp only
    split
    · exact h
    · next peer removed hremoved =>
      have hdata := h.removePeer (hharmless peer (by rw [hremoved]; rfl))
      exact hdata.setEntry rfl fun other => hdata.peer number other

theorem inv_new : new.Inv where
  call _ hcall := nomatch hcall
  peer _ _ hpeer := nomatch hpeer
  placed _ hcall := nomatch hcall
  registered _ _ hlookup := nomatch hlookup

def act (s : System) (event : Event) : System × List Unit := (s.step event, [])

/-- In a run that removes nothing that is needed, a peer in the map of the entry its call returned
with is recorded with that entry. -/
theorem accepted_peer_not_orphaned (events : List Event)
    (hharmless : Trace.Always act Harmless new [] events) (number : Nat) (call : AddCall)
    (hcall : (Trace.run act new events).1.calls[number]? = some call)
    (hreturned : call.stage = .returned (.ok ()))
    (hpeer : (((Trace.run act new events).1.data.entries call.entry).peerMap.lookup
      call.conn.peerId).isSome) :
    (Trace.run act new events).1.Recorded call.networkName call.entry call.conn.peerId := by
  have hinv : (Trace.run act new events).1.Inv := Trace.run_invariant (I := fun s _ => s.Inv)
    (fun s _ event h hstep => h.step hstep) inv_new hharmless
  have hlive : call.Live := fun error herror => nomatch hreturned.symm.trans herror
  rw [← (hinv.placed call (List.mem_of_getElem? hcall) hlive).2]
  exact hinv.peer call.entry call.conn.peerId hpeer

def joining (peerId : PeerId) : PeerConn := ⟨peerId, 9, ⟨"n", none, some [1]⟩, .admin, [], false⟩

/-- The first call creates the entry, fails and is rolled back.  Two more calls are accepted into
the next entry; the second of their peers is closed, and its removal is processed. -/
def setbacks : List Event :=
  [.start (joining 1) openManager, .prepared 0 openManager,
    .lockEntry 0 { openManager with admitsConnection := false }, .rollback 0,
    .start (joining 2) openManager, .prepared 1 openManager,
    .lockEntry 1 openManager, .finish 1,
    .start (joining 3) openManager, .lockEntry 2 openManager, .finish 2, .closePeer 1 3,
    .peerRemoved 1]

theorem accepted_peer_not_orphaned_setbacks :
    (Trace.run act new setbacks).1.Recorded "n" 1 2 ∧
      (3, "n") ∉ (Trace.run act new setbacks).1.data.peerNetworkMap := by
  have hidle : ∀ {s : System} {peer name}, (∀ call ∈ s.calls, ¬call.InProgress) →
      (∀ number ∈ s.data.networkPeerMaps.lookup name,
        (s.data.entries number).peerMap.lookup peer = none) → s.NotNeeded peer name :=
    fun hcalls habsent => ⟨habsent, fun _ call hcall hprogress =>
      absurd hprogress (hcalls call (List.mem_of_getElem? hcall))⟩
  refine ⟨accepted_peer_not_orphaned setbacks ?_ 1 ⟨joining 2, 1, true, .returned (.ok ())⟩ rfl rfl
    (by decide +kernel), by decide +kernel⟩
  refine ⟨trivial, trivial, trivial, ?_, trivial, trivial, trivial, trivial, trivial, trivial,
    trivial, trivial, ?_, trivial⟩
  · rintro call error hcall - -
    cases hcall
    exact hidle (by decide +kernel) (by decide +kernel)
  · rintro peer hpeer
    cases hpeer
    exact hidle (by decide +kernel) (by decide +kernel)

/-- The call that created the entry fails while another call waits on it. -/
def overlappingCalls : List Event :=
  [.start (joining 1) openManager, .start (joining 2) openManager,
    .prepared 0 openManager, .lockEntry 0 { openManager with admitsConnection := false },
    .rollback 0, .lockEntry 1 openManager, .finish 1]

/-- The other call is accepted into an entry that the manager no longer has. -/
theorem accepted_peer_orphaned :
    (Trace.run act new overlappingCalls).1.calls[1]? =
        some ⟨joining 2, 0, false, .returned (.ok ())⟩ ∧
      (((Trace.run act new overlappingCalls).1.data.entries 0).peerMap.lookup 2).isSome ∧
      (Trace.run act new overlappingCalls).1.data.networkPeerMaps.lookup "n" = none := by
  refine ⟨rfl, ?_, ?_⟩ <;> decide +kernel

end System

end LowerTier.Peers.ForeignNetworkManager
