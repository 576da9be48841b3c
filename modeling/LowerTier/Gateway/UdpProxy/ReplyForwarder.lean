import LowerTier.Gateway.UdpProxy.Nat
import LowerTier.ProofSupport.Arena

/-!
# Forwarders of UDP mappings

When a client packet goes out through an entry, exactly one forwarding task of the entry is running,
a reply that then comes to its socket reaches the client, and a reply goes to the peer of the last
packet of the entry.  This needs a condition on the steps.  The task ends for good after two minutes
without a reply while the entry lives on as long as the client sends; two packets that both find no
task start two; and the entry keeps the peer of its first packet.
-/

namespace LowerTier.Gateway.UdpProxy

open Forwarder List ProofSupport ProofSupport.ByteString Tunnel KeyedMap

/-- A datagram that comes now is received and forwarded. -/
def Forwarder.isRunning (forwarder : Forwarder) : Bool :=
  forwarder.receiver != .ended && !forwarder.senderEnded

/-- The entry that a packet is about to start the task of. -/
def Handler.claim (handler : Handler) : Option Nat :=
  if handler.stage = .starting then some handler.entry else none

namespace State

def InProgress (state : State) (index : Nat) : Prop :=
  ∃ handler ∈ state.handlers, handler.entry = index ∧ handler.stage ≠ .done

instance (state : State) (index : Nat) : Decidable (state.InProgress index) :=
  inferInstanceAs (Decidable (∃ handler ∈ state.handlers, _ ∧ _))

def HasOneForwarder (state : State) (index : Nat) : Prop :=
  ∃! number : Nat, ∃ forwarder, state.forwarders[number]? = some forwarder ∧
    forwarder.entry = index ∧ forwarder.isRunning = true

def HasEnded (state : State) (index : Nat) : Prop :=
  ∃ forwarder ∈ state.forwarders, forwarder.entry = index ∧ forwarder.isRunning = false

/-- The entries that have a task, running or not. -/
def owners (state : State) : List Nat := state.forwarders.map (·.entry)

/-- The entries that have a task, and those of the packets that are about to start one. -/
def claims (state : State) : List Nat := state.handlers.filterMap Handler.claim ++ state.owners

end State

/-- The condition on a step.  A packet of an entry comes from the peer of its first packet and while
no task of the entry has ended; packets of an entry come to the check of its task one at a time; and
no task ends and no entry is removed while a packet of it is handled. -/
def Event.Orderly (state : State) : Event → Prop
  | .lookUp request _ _ _ => ∀ index ∈ state.natTable.lookup request.natKey,
      (∀ entry ∈ state.entries[index]?, entry.srcPeerId = request.fromPeerId) ∧
        ∀ forwarder ∈ state.forwarders, forwarder.entry = index → forwarder.isRunning = true
  | .check number _ => ∀ handler ∈ state.handlers[number]?, ∀ other ∈ state.handlers,
      other.entry = handler.entry → other.stage ≠ .starting
  | .receiveError number | .receiveTimeout number _ | .forward number false _ =>
    ∀ forwarder ∈ state.forwarders[number]?, ¬state.InProgress forwarder.entry
  | .clean now => ∀ handler ∈ state.handlers, handler.stage ≠ .done →
      state.isInactive now handler.entry = false
  | _ => True

def lastSent (history : List Output) (index : Nat) : Option Request :=
  (history.filterMap fun
    | .sent entry request => if entry = index then some request else none
    | .replied .. => none).getLast?

/-- What never changes of an entry. -/
def UdpNatEntry.client (entry : UdpNatEntry) : PeerId × SocketAddr :=
  (entry.srcPeerId, entry.srcSocket)

def Request.client (request : Request) : PeerId × SocketAddr :=
  (request.fromPeerId, request.natKey.srcSocket)

structure Serves (entries : List UdpNatEntry) (handler : Handler) (entry : UdpNatEntry) : Prop where
  found : entries[handler.entry]? = some entry
  client : entry.client = handler.request.client
  unstopped : entry.stopped = false
  sending : handler.stage = .sending → entry.forwardTask = true

structure Inv (state : State) (history : List Output) : Prop where
  table : ∀ key index, state.natTable.lookup key = some index →
    ∃ entry, state.entries[index]? = some entry ∧ entry.client.2 = key.srcSocket
  handler : ∀ handler ∈ state.handlers, handler.stage ≠ .done →
    ∃ entry, Serves state.entries handler entry
  claims : state.claims.Nodup
  started : ∀ (index : Nat) entry, state.entries[index]? = some entry →
    (entry.forwardTask = true ↔ index ∈ state.owners)
  owned : ∀ index ∈ state.owners, index < state.entries.length
  running : ∀ forwarder ∈ state.forwarders, state.InProgress forwarder.entry →
    forwarder.isRunning = true
  stopped : ∀ (index : Nat) entry, state.entries[index]? = some entry → entry.stopped = true →
    (∀ key, state.natTable.lookup key ≠ some index) ∨ state.HasEnded index
  sent : ∀ index request, Output.sent index request ∈ history →
    ∃ entry, state.entries[index]? = some entry ∧ entry.client = request.client

namespace State

variable {state : State} {history : List Output}

variable {index number : Nat} {f : Forwarder → Forwarder}

/-- A task keeps its entry, does not end while a packet is handled, and does not start again. -/
theorem inv_modifyForwarder (h : Inv state history)
    (hchange : ∀ forwarder, state.forwarders[number]? = some forwarder →
      (f forwarder).entry = forwarder.entry ∧
        (state.InProgress forwarder.entry → forwarder.isRunning = true →
          (f forwarder).isRunning = true) ∧
        (forwarder.isRunning = false → (f forwarder).isRunning = false)) :
    Inv (state.modifyForwarder number f) history := by
  have howners : (state.modifyForwarder number f).owners = state.owners :=
    Arena.map_modify fun old hold => (hchange old hold).1
  refine { h with claims := ?_, started := ?_, owned := ?_, running := ?_, stopped := ?_ }
  · rw [claims, howners]
    exact h.claims
  · rw [howners]
    exact h.started
  · rw [howners]
    exact h.owned
  · intro forwarder hin hprogress
    rcases Arena.mem_modify hin with hold | ⟨old, hold, rfl⟩
    · exact h.running forwarder hold hprogress
    · obtain ⟨hentry, hrunning, -⟩ := hchange old hold
      rw [hentry] at hprogress
      exact hrunning hprogress (h.running old (mem_of_getElem? hold) hprogress)
  · intro index entry hentry hstopped
    refine (h.stopped index entry hentry hstopped).imp_right ?_
    rintro ⟨old, hold, rfl, hended⟩
    rcases Arena.mem_modify_of_mem hold with hkept | ⟨hnumber, hnew⟩
    · exact ⟨old, hkept, rfl, hended⟩
    · obtain ⟨hentry, -, hend⟩ := hchange old hnumber
      exact ⟨f old, hnew, hentry, hend hended⟩

/-! ## Changes of an entry -/

/-- An entry keeps its client and whether it has a task; it is stopped only when no packet is
handled and it has been removed or its task has ended. -/
structure EntryChange (state : State) (natTable : KeyedMap UdpNatKey Nat) (index : Nat)
    (old entry : UdpNatEntry) : Prop where
  client : entry.client = old.client
  task : entry.forwardTask = old.forwardTask
  stopped : entry.stopped = true → old.stopped = true ∨ ¬state.InProgress index ∧
    ((∀ key, natTable.lookup key ≠ some index) ∨ state.HasEnded index)

theorem getElem?_withTask {old : UdpNatEntry} (hold : state.entries[index]? = some old)
    (owner : Nat) :
    ∃ entry, (state.entries.modify owner fun entry => { entry with forwardTask := true })[index]? =
        some entry ∧ entry.client = old.client ∧ entry.stopped = old.stopped ∧
      (entry.forwardTask = true ↔ index = owner ∨ old.forwardTask = true) := by
  refine ⟨_, Arena.getElem?_modify_some.mpr ⟨old, hold, rfl⟩, ?_⟩
  split
  · next heq => exact ⟨rfl, rfl, by simp [heq]⟩
  · next hne => exact ⟨rfl, rfl, by simp [Ne.symm hne]⟩

variable (h : Inv state history)
include h

theorem inv_changeEntries {natTable : KeyedMap UdpNatKey Nat}
    {entries : List UdpNatEntry} (hlength : entries.length = state.entries.length)
    (hsub : ∀ key index, natTable.lookup key = some index → state.natTable.lookup key = some index)
    (hforth : ∀ (index : Nat) old, state.entries[index]? = some old →
      ∃ entry, entries[index]? = some entry ∧ EntryChange state natTable index old entry) :
    Inv { state with natTable, entries } history := by
  have hback : ∀ (index : Nat) entry, entries[index]? = some entry →
      ∃ old, state.entries[index]? = some old ∧ EntryChange state natTable index old entry := by
    intro index entry hentry
    have hold := getElem?_eq_getElem (hlength ▸ Arena.lt_length hentry)
    obtain ⟨found, hfound, hchange⟩ := hforth index _ hold
    cases hfound.symm.trans hentry
    exact ⟨_, hold, hchange⟩
  refine { h with
    table := ?_, handler := ?_, started := ?_, owned := ?_, stopped := ?_, sent := ?_ }
  · intro key index hlookup
    obtain ⟨old, hold, hkey⟩ := h.table key index (hsub key index hlookup)
    obtain ⟨entry, hentry, hchange⟩ := hforth index old hold
    exact ⟨entry, hentry, hchange.client ▸ hkey⟩
  · intro handler hhandler hprogress
    obtain ⟨old, hserves⟩ := h.handler handler hhandler hprogress
    obtain ⟨entry, hentry, hchange⟩ := hforth _ old hserves.found
    refine ⟨entry, hentry, hchange.client.trans hserves.client, ?_,
      fun hstage => hchange.task.trans (hserves.sending hstage)⟩
    by_contra hstopped
    rcases hchange.stopped (by simpa using hstopped) with hbefore | ⟨hidle, -⟩
    · cases hserves.unstopped.symm.trans hbefore
    · exact hidle ⟨handler, hhandler, rfl, hprogress⟩
  · intro index entry hentry
    obtain ⟨old, hold, hchange⟩ := hback index entry hentry
    rw [hchange.task]
    exact h.started index old hold
  · exact fun index howner => hlength ▸ h.owned index howner
  · intro index entry hentry hstopped
    obtain ⟨old, hold, hchange⟩ := hback index entry hentry
    rcases hchange.stopped hstopped with hbefore | ⟨-, hended⟩
    · exact (h.stopped index old hold hbefore).imp_left fun hremoved key hlookup =>
        hremoved key (hsub key index hlookup)
    · exact hended
  · intro index request hsent
    obtain ⟨old, hold, hclient⟩ := h.sent index request hsent
    obtain ⟨entry, hentry, hchange⟩ := hforth index old hold
    exact ⟨entry, hentry, hchange.client.trans hclient⟩

theorem inv_modifyEntry {f : UdpNatEntry → UdpNatEntry}
    (hclient : ∀ entry, (f entry).client = entry.client)
    (htask : ∀ entry, (f entry).forwardTask = entry.forwardTask)
    (hstop : ∀ entry, state.entries[number]? = some entry → (f entry).stopped = true →
      entry.stopped = true ∨ ¬state.InProgress number ∧ state.HasEnded number) :
    Inv (state.modifyEntry number f) history := by
  refine inv_changeEntries h (length_modify ..) (fun _ _ => id) fun index old hold => ?_
  refine ⟨_, Arena.getElem?_modify_some.mpr ⟨old, hold, rfl⟩, ?_⟩
  split
  · next heq =>
    subst heq
    exact ⟨hclient old, htask old, fun hstopped =>
      (hstop old hold hstopped).imp_right fun hended => hended.imp_right .inr⟩
  · exact ⟨rfl, rfl, .inl⟩

theorem inv_markActive (number now : Nat) : Inv (state.markActive number now) history :=
  inv_modifyEntry h (fun _ => rfl) (fun _ => rfl) fun _ _ hstopped => .inl hstopped

/-! ## Changes of a packet in progress -/

variable {current : Handler}

theorem inv_setStage {stage : Stage} (hcurrent : state.handlers[number]? = some current)
    (hserves : stage ≠ .done → current.stage ≠ .done ∧
      ∃ entry, Serves state.entries { current with stage } entry)
    (hfree : stage = .starting → current.entry ∉ state.claims) :
    Inv (state.setStage number stage) history := by
  have hmem : ∀ handler ∈ (state.setStage number stage).handlers,
      handler ∈ state.handlers ∨ handler = { current with stage } := by
    intro handler hin
    refine (Arena.mem_modify hin).imp_right ?_
    rintro ⟨old, hold, rfl⟩
    cases hcurrent.symm.trans hold
    rfl
  refine { h with handler := ?_, claims := ?_, running := ?_ }
  · intro handler hin hprogress
    rcases hmem handler hin with hold | rfl
    · exact h.handler handler hold hprogress
    · exact (hserves hprogress).2
  · obtain ⟨rest, hperm, hmodify⟩ := Arena.exists_modify_perm hcurrent
    have hclaims := ((hperm.filterMap Handler.claim).append_right state.owners)
    have hsub : rest.filterMap Handler.claim ++ state.owners ⊆ state.claims := fun _ hin =>
      hclaims.mem_iff.mpr (((sublist_cons_self _ _).filterMap _).append_right _ |>.subset hin)
    have hrest := (hclaims.nodup_iff.mp h.claims).sublist
      (((sublist_cons_self _ _).filterMap _).append_right _)
    refine (((hmodify _).filterMap Handler.claim).append_right state.owners).nodup_iff.mpr ?_
    rw [filterMap_cons, Handler.claim]
    split_ifs with hstage
    · exact nodup_cons.mpr ⟨fun hin => hfree hstage (hsub hin), hrest⟩
    · exact hrest
  · rintro forwarder hforwarder ⟨handler, hin, hentry, hdone⟩
    apply h.running forwarder hforwarder
    rcases hmem handler hin with hold | rfl
    · exact ⟨handler, hold, hentry, hdone⟩
    · exact ⟨current, mem_of_getElem? hcurrent, hentry, (hserves hdone).1⟩

theorem inv_appendHandler (handler : Handler)
    (hstage : handler.stage = .checking) (hserves : ∃ entry, Serves state.entries handler entry)
    (hrunning : ∀ forwarder ∈ state.forwarders, forwarder.entry = handler.entry →
      forwarder.isRunning = true) :
    Inv { state with handlers := state.handlers ++ [handler] } history := by
  refine { h with handler := ?_, claims := ?_, running := ?_ }
  · intro found hfound hprogress
    rcases mem_append.mp hfound with hold | hnew
    · exact h.handler found hold hprogress
    · exact mem_singleton.mp hnew ▸ hserves
  · simpa [claims, owners, Handler.claim, filterMap_cons, hstage] using h.claims
  · rintro forwarder hforwarder ⟨found, hin, hentry, hdone⟩
    rcases mem_append.mp hin with hold | hnew
    · exact h.running forwarder hforwarder ⟨found, hold, hentry, hdone⟩
    · cases mem_singleton.mp hnew
      exact hrunning forwarder hforwarder hentry.symm

/-! ## New entries and tasks -/

theorem inv_appendEntry (key : UdpNatKey) (entry : UdpNatEntry)
    (hsocket : entry.srcSocket = key.srcSocket) (htask : entry.forwardTask = false)
    (hstopped : entry.stopped = false) :
    Inv { state with
      natTable := state.natTable.insert key state.entries.length
      entries := state.entries ++ [entry] } history := by
  have hforth : ∀ (index : Nat) old, state.entries[index]? = some old →
      (state.entries ++ [entry])[index]? = some old := fun index old hold =>
    Arena.getElem?_append_of_some hold entry
  refine { h with
    table := ?_, handler := ?_, started := ?_, owned := ?_, stopped := ?_, sent := ?_ }
  · intro other index hlookup
    rcases lookup_insert_cases hlookup with ⟨rfl, rfl⟩ | ⟨-, hold⟩
    · exact ⟨entry, Arena.getElem?_last entry, hsocket⟩
    · obtain ⟨found, hfound, hkey⟩ := h.table other index hold
      exact ⟨found, hforth index found hfound, hkey⟩
  · intro handler hhandler hprogress
    obtain ⟨found, hserves⟩ := h.handler handler hhandler hprogress
    exact ⟨found, { hserves with found := hforth _ found hserves.found }⟩
  · intro index found hfound
    rcases Arena.getElem?_append_one.mp hfound with hold | ⟨rfl, rfl⟩
    · exact h.started index found hold
    · rw [htask]
      exact ⟨nofun, fun howner => absurd (h.owned _ howner) (lt_irrefl _)⟩
  · intro index howner
    rw [length_append]
    exact Nat.lt_add_right _ (h.owned index howner)
  · intro index found hfound hstop
    rcases Arena.getElem?_append_one.mp hfound with hold | ⟨rfl, rfl⟩
    · refine (h.stopped index found hold hstop).imp_left fun hremoved other hlookup => ?_
      rcases lookup_insert_cases hlookup with ⟨rfl, rfl⟩ | ⟨-, hin⟩
      · exact absurd (Arena.lt_length hold) (lt_irrefl _)
      · exact hremoved other hin
    · cases hstopped.symm.trans hstop
  · intro index request hsent
    obtain ⟨found, hfound, hclient⟩ := h.sent index request hsent
    exact ⟨found, hforth index found hfound, hclient⟩

theorem inv_startForwarder (hcurrent : state.handlers[number]? = some current)
    (hstage : current.stage = .starting) {forwarder : Forwarder}
    (howner : forwarder.entry = current.entry) (hrunning : forwarder.isRunning = true) :
    Inv (({ state with forwarders := state.forwarders ++ [forwarder] }.modifyEntry current.entry
      fun entry => { entry with forwardTask := true }).setStage number .sending) history := by
  obtain ⟨entry, hserves⟩ := h.handler current (mem_of_getElem? hcurrent) (by rw [hstage]; nofun)
  obtain ⟨rest, hperm, hmodify⟩ := Arena.exists_modify_perm hcurrent
  have hclaims := ((hperm.filterMap Handler.claim).append_right state.owners).nodup_iff.mp h.claims
  rw [filterMap_cons, Handler.claim, if_pos hstage, cons_append, nodup_cons] at hclaims
  have hunowned : current.entry ∉ state.owners := fun hin => hclaims.1 (mem_append_right _ hin)
  have howners : (state.forwarders ++ [forwarder]).map (·.entry) =
      state.owners ++ [current.entry] := by
    rw [map_append, map_singleton, howner, owners]
  refine {
    table := ?_, handler := ?_, claims := ?_, started := ?_, owned := ?_, running := ?_,
    stopped := ?_, sent := ?_ }
  · intro key index hlookup
    obtain ⟨old, hold, hkey⟩ := h.table key index hlookup
    obtain ⟨found, hfound, hclient, -⟩ := getElem?_withTask hold _
    exact ⟨found, hfound, hclient ▸ hkey⟩
  · intro handler hin hprogress
    rcases Arena.mem_modify hin with hold | ⟨old, hold, rfl⟩
    · obtain ⟨old, hold⟩ := h.handler handler hold hprogress
      obtain ⟨found, hfound, hclient, hstopped, htask⟩ := getElem?_withTask hold.found _
      exact ⟨found, hfound, hclient.trans hold.client, hstopped.trans hold.unstopped,
        fun hsending => htask.mpr (.inr (hold.sending hsending))⟩
    · cases hcurrent.symm.trans hold
      obtain ⟨found, hfound, hclient, hstopped, htask⟩ := getElem?_withTask hserves.found _
      exact ⟨found, hfound, hclient.trans hserves.client, hstopped.trans hserves.unstopped,
        fun _ => htask.mpr (.inl rfl)⟩
  · -- the entry goes over from the packets about to start a task to those that have one
    refine (((hmodify _).filterMap Handler.claim).append_right _).nodup_iff.mpr ?_
    change (rest.filterMap Handler.claim ++ (state.forwarders ++ [forwarder]).map (·.entry)).Nodup
    rw [howners, ← append_assoc]
    exact (perm_append_singleton _ _).nodup_iff.mpr (nodup_cons.mpr hclaims)
  · intro index found hfound
    obtain ⟨old, hold, hsame⟩ := Arena.getElem?_modify_some.mp hfound
    obtain ⟨new, hnew, -, -, htask⟩ := getElem?_withTask hold _
    cases hfound.symm.trans hnew
    change _ ↔ index ∈ (state.forwarders ++ [forwarder]).map (·.entry)
    rw [htask, h.started index old hold, howners, mem_append, mem_singleton, or_comm]
  · intro index hin
    rw [setStage, modifyEntry, length_modify]
    change index ∈ (state.forwarders ++ [forwarder]).map (·.entry) at hin
    rw [howners, mem_append, mem_singleton] at hin
    rcases hin with hold | rfl
    · exact h.owned index hold
    · exact Arena.lt_length hserves.found
  · rintro found hfound ⟨handler, hin, hentry, hdone⟩
    rcases mem_append.mp hfound with hold | hnew
    · refine h.running found hold ?_
      rcases Arena.mem_modify hin with hhandler | ⟨old, hnumber, rfl⟩
      · exact ⟨handler, hhandler, hentry, hdone⟩
      · cases hcurrent.symm.trans hnumber
        exact absurd (mem_map.mpr ⟨found, hold, hentry.symm⟩) hunowned
    · exact mem_singleton.mp hnew ▸ hrunning
  · intro index found hfound hstopped
    obtain ⟨old, hold, rfl⟩ := Arena.getElem?_modify_some.mp hfound
    have hwas : old.stopped = true := by
      split at hstopped <;> exact hstopped
    refine (h.stopped index old hold hwas).imp_right ?_
    rintro ⟨task, htask, hended⟩
    exact ⟨task, mem_append_left _ htask, hended⟩
  · intro index request hsent
    obtain ⟨old, hold, hbefore⟩ := h.sent index request hsent
    obtain ⟨found, hfound, hclient, -⟩ := getElem?_withTask hold _
    exact ⟨found, hfound, hclient.trans hbefore⟩

variable {now : Nat}

theorem inv_clean
    (hidle : ∀ handler ∈ state.handlers, handler.stage ≠ .done →
      state.isInactive now handler.entry = false) : Inv (state.clean now) history := by
  refine inv_changeEntries h length_mapIdx (fun key index => lookup_of_lookup_retain)
    fun index old hold => ⟨_, getElem?_mapIdx.trans (by rw [hold]; rfl), ?_⟩
  dsimp only
  split
  · next hinactive =>
    refine ⟨rfl, rfl, fun _ => .inr ⟨?_, .inl fun key hlookup => ?_⟩⟩
    · rintro ⟨handler, hhandler, rfl, hstage⟩
      have hquiet := hidle handler hhandler hstage
      rw [isInactive, hold] at hquiet
      simp only [Option.any_some, Bool.not_eq_false'] at hquiet
      simp [hquiet] at hinactive
    · have hkept := (mem_filter.mp (AList.mem_lookup_iff.mp hlookup)).2
      simp only [isInactive, hold, Option.any_some, Bool.not_not] at hkept
      simp [hkept] at hinactive
  · exact ⟨rfl, rfl, .inl⟩

/-! ## One step -/

variable {request : Request}

theorem inv_lookUp {denied bound : Bool}
    (horderly : (Event.lookUp request denied bound now).Orderly state) :
    Inv (state.lookUp request denied bound now) history := by
  unfold lookUp
  split
  · next index hlookup =>
    obtain ⟨entry, hentry, hsocket⟩ := h.table _ index hlookup
    obtain ⟨hpeer, hrunning⟩ := horderly index hlookup
    split
    · exact h
    refine inv_appendHandler h _ rfl
      ⟨entry, hentry, Prod.ext (hpeer entry hentry) hsocket, ?_, nofun⟩ hrunning
    -- an entry of the table is stopped only by its task, which is still running
    by_contra hstopped
    rcases h.stopped index entry hentry (by simpa using hstopped) with hremoved |
      ⟨forwarder, hforwarder, howner, hended⟩
    · exact hremoved _ hlookup
    · cases hended.symm.trans (hrunning forwarder hforwarder howner)
  · split
    · exact inv_appendEntry h _ _ rfl rfl rfl
    · split
      · have hentry := inv_appendEntry h request.natKey (UdpNatEntry.new request false now) rfl rfl
          rfl
        refine inv_appendHandler hentry ⟨request, state.entries.length, .checking⟩ rfl
          ⟨UdpNatEntry.new request false now, Arena.getElem?_last _, rfl, rfl, nofun⟩ ?_
        intro forwarder hforwarder howner
        have hlt := h.owned _ (mem_map_of_mem hforwarder)
        exact absurd howner (Nat.ne_of_lt hlt)
      · exact h

theorem inv_check (horderly : (Event.check number now).Orderly state) :
    Inv (state.check number now) history := by
  unfold check
  split
  · next request index hhandler =>
    obtain ⟨entry, hserves⟩ := h.handler _ (mem_of_getElem? hhandler) nofun
    split
    · next htask =>
      have hsending : Inv (state.setStage number .sending) history := by
        refine inv_setStage h hhandler
          (fun _ => ⟨nofun, entry, { hserves with sending := fun _ => ?_ }⟩) nofun
        simpa [hserves.found] using htask
      -- the two updates are of different parts of the state
      exact inv_markActive hsending index now
    · next htask =>
      refine inv_setStage h hhandler
        (fun _ => ⟨nofun, entry, { hserves with sending := nofun }⟩) fun _ hclaimed => ?_
      rcases mem_append.mp hclaimed with hstarting | howned
      · obtain ⟨other, hother, hclaim⟩ := mem_filterMap.mp hstarting
        rw [Handler.claim] at hclaim
        split_ifs at hclaim with hstage
        exact horderly _ hhandler other hother (Option.some.inj hclaim) hstage
      · simp [hserves.found, (h.started index entry hserves.found).mpr howned] at htask
  · exact h

theorem inv_start (number : Nat) (virtualIpv4 : Option Ipv4Addr)
    (now : Nat) : Inv (state.start number virtualIpv4 now) history := by
  unfold start
  split
  · next request index hhandler =>
    split
    · exact inv_setStage h hhandler (fun hdone => absurd rfl hdone) nofun
    · exact inv_markActive (inv_startForwarder h hhandler rfl rfl rfl) index now
  · exact h

theorem inv_sent (hhandler : state.handlers[number]? = some ⟨request, index, .sending⟩) :
    Inv state (history ++ [.sent index request]) := by
  obtain ⟨entry, hserves⟩ := h.handler _ (mem_of_getElem? hhandler) nofun
  refine { h with sent := fun other found hin => ?_ }
  rcases mem_append.mp hin with hold | hnew
  · exact h.sent other found hold
  · cases mem_singleton.mp hnew
    exact ⟨entry, hserves.found, hserves.client⟩

theorem inv_send (accepted : Bool) :
    Inv (state.send number accepted).1 (history ++ (state.send number accepted).2) := by
  unfold send
  split
  · next request index hhandler =>
    have hdone := fun {outputs} (h : Inv state outputs) =>
      inv_setStage h hhandler (fun hdone => absurd rfl hdone) nofun
    cases accepted with
    | true => exact hdone (inv_sent h hhandler)
    | false => exact (append_nil history).symm ▸ hdone h
  · exact (append_nil history).symm ▸ h

theorem inv_listen : Inv (state.listen number now) history := by
  unfold listen
  split
  · next forwarder hforwarder =>
    split
    · next hlooping =>
      refine inv_modifyForwarder h fun found hfound => ?_
      cases hforwarder.symm.trans hfound
      refine ⟨rfl, fun hprogress hrun => ?_, fun hended => ?_⟩
      · -- the entry of a packet in progress is not stopped
        obtain ⟨handler, hhandler, hentry, hdone⟩ := hprogress
        obtain ⟨entry, hserves⟩ := h.handler handler hhandler hdone
        have hunstopped : (state.entries[forwarder.entry]?).any (·.stopped) = false := by
          rw [← hentry, hserves.found]
          exact hserves.unstopped
        simpa [isRunning, hunstopped, hlooping] using hrun
      · have hsender : forwarder.senderEnded = true := by
          simpa [isRunning, hlooping] using hended
        simp [isRunning, hsender]
    · exact h
  · exact h

/-- A datagram comes in or goes over; a task whose sending half is gone was not running. -/
theorem inv_receive (datagram : Datagram) : Inv (state.receive number datagram) history := by
  refine inv_modifyForwarder h fun forwarder _ => ?_
  split
  · next since hwaiting =>
    exact ⟨rfl, fun _ hrun => by simpa [isRunning, hwaiting] using hrun,
      fun hended => by simpa [isRunning, hwaiting] using hended⟩
  · exact ⟨rfl, fun _ => id, id⟩

theorem inv_handOver : Inv (state.handOver number) history := by
  refine inv_modifyForwarder h fun forwarder _ => ?_
  split
  · next datagram hhanding =>
    split
    · next hsender =>
      exact ⟨rfl, fun _ hrun => by simp [isRunning, hsender] at hrun,
        fun _ => by simp [isRunning]⟩
    · split
      · exact ⟨rfl, fun _ hrun => by simpa [isRunning, hhanding] using hrun,
          fun hended => by simpa [isRunning, hhanding] using hended⟩
      · exact ⟨rfl, fun _ => id, id⟩
  · exact ⟨rfl, fun _ => id, id⟩

theorem inv_endForwarder
    (hidle : ∀ forwarder ∈ state.forwarders[number]?, ¬state.InProgress forwarder.entry)
    (howner : ∀ forwarder, (f forwarder).entry = forwarder.entry)
    (hended : ∀ forwarder, forwarder.isRunning = false → (f forwarder).isRunning = false) :
    Inv (state.modifyForwarder number f) history :=
  inv_modifyForwarder h fun forwarder hforwarder =>
    ⟨howner forwarder, fun hprogress => absurd hprogress (hidle forwarder hforwarder),
      hended forwarder⟩

theorem inv_receiveError (horderly : (Event.receiveError number).Orderly state) :
    Inv (state.receiveError number) history := by
  refine inv_endForwarder h horderly (fun forwarder => ?_) fun forwarder hended => ?_
  · split <;> rfl
  · split
    · simp [isRunning]
    · exact hended

theorem inv_receiveTimeout (horderly : (Event.receiveTimeout number now).Orderly state) :
    Inv (state.receiveTimeout number now) history := by
  refine inv_endForwarder h horderly (fun forwarder => ?_) fun forwarder hended => ?_
  · split
    · split <;> rfl
    · rfl
  · split
    · split
      · simp [isRunning]
      · exact hended
    · exact hended

theorem inv_forward {composed : Bool}
    (horderly : (Event.forward number composed now).Orderly state) :
    Inv (state.forward number composed now).1
      (history ++ (state.forward number composed now).2) := by
  unfold forward
  split
  · next forwarder hforwarder =>
    split
    · next datagram rest hsender hqueue =>
      have hactive := inv_markActive h forwarder.entry now
      cases composed with
      | true =>
        have hshorter : Inv ((state.markActive forwarder.entry now).modifyForwarder number
            fun forwarder => { forwarder with queue := rest }) history :=
          inv_modifyForwarder hactive fun _ _ => ⟨rfl, fun _ => id, id⟩
        rw [if_pos rfl]
        split
        · refine { hshorter with sent := fun other found hin => ?_ }
          rcases mem_append.mp hin with hold | hnew
          · exact hshorter.sent other found hold
          · exact nomatch mem_singleton.mp hnew
        · exact (append_nil history).symm ▸ hshorter
      | false =>
        refine (append_nil history).symm ▸ inv_endForwarder hactive horderly (fun _ => rfl) ?_
        simp [isRunning]
    · exact (append_nil history).symm ▸ h
  · exact (append_nil history).symm ▸ h

theorem inv_drained : Inv (state.drained number) history := by
  refine inv_modifyForwarder h fun forwarder _ => ?_
  split
  · next hdrained =>
    exact ⟨rfl, fun _ hrun => by simp [isRunning, hdrained.1] at hrun,
      fun _ => by simp [isRunning]⟩
  · exact ⟨rfl, fun _ => id, id⟩

theorem inv_finish : Inv (state.finish number) history := by
  unfold finish
  split
  · next forwarder hforwarder =>
    split
    · next hfinished =>
      have hended : forwarder.isRunning = false := by simp [isRunning, hfinished.1]
      have hmarked : Inv (state.modifyForwarder number fun forwarder =>
          { forwarder with finished := true }) history :=
        inv_modifyForwarder h fun _ _ => ⟨rfl, fun _ => id, id⟩
      refine inv_modifyEntry hmarked (fun _ => rfl) (fun _ => rfl) fun _ _ _ =>
        .inr ⟨fun hprogress => ?_, { forwarder with finished := true }, ?_, rfl, hended⟩
      · have hin := mem_of_getElem? hforwarder
        exact absurd (hended.symm.trans (h.running forwarder hin hprogress)) nofun
      · exact mem_of_getElem?
          (Arena.getElem?_modify_some.mpr ⟨forwarder, hforwarder, (if_pos rfl).symm⟩)
    · exact h
  · exact h

theorem inv_step {event : Event} (horderly : event.Orderly state) :
    Inv (step state event).1 (history ++ (step state event).2) := by
  have hsilent : ∀ {next : State}, Inv next history → Inv next (history ++ []) := fun hnext =>
    (append_nil history).symm ▸ hnext
  cases event with
  | lookUp request denied bound now => exact hsilent (inv_lookUp h horderly)
  | check number now => exact hsilent (inv_check h horderly)
  | start number virtualIpv4 now => exact hsilent (inv_start h number virtualIpv4 now)
  | send number accepted => exact inv_send h accepted
  | listen number now => exact hsilent (inv_listen h)
  | receive number datagram => exact hsilent (inv_receive h datagram)
  | receiveError number => exact hsilent (inv_receiveError h horderly)
  | receiveTimeout number now => exact hsilent (inv_receiveTimeout h horderly)
  | handOver number => exact hsilent (inv_handOver h)
  | forward number composed now => exact inv_forward h horderly
  | drained number => exact hsilent (inv_drained h)
  | finish number => exact hsilent (inv_finish h)
  | clean now => exact hsilent (inv_clean h horderly)

end State

end LowerTier.Gateway.UdpProxy
