import LowerTier.Gateway.OverlayStream.Session
import LowerTier.ProofSupport.Trace
import LowerTier.Tunnel.PacketDef

/-!
# Accepting streams (`OverlayStreamEndpoint`)

The accepting side of the endpoint: `handle_frame`, the tasks that run `accept_open` and the tasks
of the sessions, in steps of one table operation each.  An `Open` frame that arrives once more is
told from a new stream by the tables only, and a stream that has been accepted leaves both.
-/

namespace LowerTier.Gateway.OverlayStream

open List ProofSupport KeyedMap
open Tunnel (PeerId)

abbrev SessionKey := PeerId × Nat

/-- How far the task that entered a key into `opening` has come; it alone takes the key out. -/
inductive AcceptStage where
  | accepting
  | connected
  | finished (accepted : Bool)
deriving DecidableEq

inductive TaskStage where
  | running
  | ended
  | removed
deriving DecidableEq

structure SessionTask where
  key : SessionKey
  stage : TaskStage
deriving DecidableEq

structure OverlayStreamEndpoint where
  acceptInput : Bool
  /-- Each entry is the channel of the task with the number. -/
  sessions : KeyedMap SessionKey Nat := ∅
  opening : KeyedMap SessionKey AcceptStage := ∅
  /-- The calls of `handle_frame` that found no session and go on to `opening`. -/
  calls : List SessionKey := []
  tasks : List SessionTask := []

namespace OverlayStreamEndpoint

inductive Event where
  | handleFrame (key : SessionKey) (kind : FrameKind)
  | insertOpening (key : SessionKey)
  | acceptOpen (key : SessionKey) (connects : Bool)
  | spawnSession (key : SessionKey)
  | removeOpening (key : SessionKey)
  | endSession (number : Nat)
  | removeSession (number : Nat)

inductive Output where
  | reset (key : SessionKey)
  | connected (key : SessionKey)
  | removed (number entry : Nat)
deriving DecidableEq

variable (s : OverlayStreamEndpoint)

def setOpening (key : SessionKey) (stage : AcceptStage) :
    OverlayStreamEndpoint :=
  { s with opening := s.opening.insert key stage }

def addSession (key : SessionKey) : OverlayStreamEndpoint :=
  { s with
    sessions := s.sessions.insert key s.tasks.length
    tasks := s.tasks ++ [SessionTask.mk key .running] }

def setStage (number : Nat) (stage : TaskStage) :
    OverlayStreamEndpoint :=
  { s with tasks := s.tasks.modify number fun task => { task with stage := stage } }

def step : Event → OverlayStreamEndpoint × List Output
  | .handleFrame key kind =>
    if (s.sessions.lookup key).isSome || kind != .open then (s, [])
    else if s.acceptInput then ({ s with calls := key :: s.calls }, [])
    else (s, [.reset key])
  | .insertOpening key =>
    if key ∉ s.calls then (s, [])
    else if (s.opening.lookup key).isSome then ({ s with calls := s.calls.erase key }, [])
    else ({ s with calls := s.calls.erase key }.setOpening key .accepting, [])
  | .acceptOpen key connects =>
    if s.opening.lookup key = some .accepting then
      if connects then (s.setOpening key .connected, [.connected key])
      else (s.setOpening key (.finished false), [])
    else (s, [])
  | .spawnSession key =>
    if s.opening.lookup key = some .connected then
      ((s.addSession key).setOpening key (.finished true), [])
    else (s, [])
  | .removeOpening key =>
    match s.opening.lookup key with
    | some (.finished accepted) =>
      ({ s with opening := s.opening.erase key }, if accepted then [] else [.reset key])
    | _ => (s, [])
  | .endSession number =>
    if (s.tasks[number]?.map (·.stage)) = some .running then (s.setStage number .ended, [])
    else (s, [])
  | .removeSession number =>
    match s.tasks[number]? with
    | some ⟨key, .ended⟩ =>
      ({ s with sessions := s.sessions.erase key }.setStage number .removed,
        (s.sessions.lookup key).toList.map (.removed number))
    | _ => (s, [])

/-- No copy of an `Open` frame enters `opening` once its stream has been connected: neither one that
arrives after the session, nor one that looked for the session before it was there. -/
def EntersOnce (history : List Output) : Event → Prop
  | .insertOpening key => (s.opening.lookup key).isSome ∨ .connected key ∉ history
  | _ => True

instance (s : OverlayStreamEndpoint) (history : List Output) :
    ∀ event, Decidable (s.EntersOnce history event)
  | .insertOpening key =>
    inferInstanceAs (Decidable ((s.opening.lookup key).isSome ∨ .connected key ∉ history))
  | .handleFrame _ _ | .acceptOpen _ _ | .spawnSession _ | .removeOpening _ | .endSession _
  | .removeSession _ => .isTrue trivial

def keys : List SessionKey := s.tasks.map (·.key)

/-- Every connected stream has had one task, and an entry of `sessions` is of its own task. -/
structure Inv (s : OverlayStreamEndpoint) (history : List Output) : Prop where
  accepting : ∀ key, s.opening.lookup key = some .accepting → .connected key ∉ history
  connected : ∀ key, s.opening.lookup key = some .connected →
    .connected key ∈ history ∧ key ∉ s.keys
  task : ∀ key ∈ s.keys, .connected key ∈ history
  own : s.keys.Nodup
  entry : ∀ key number, s.sessions.lookup key = some number → s.keys[number]? = some key
  once : ∀ key, history.count (.connected key) ≤ 1
  removed : ∀ number entry, .removed number entry ∈ history → entry = number

section

variable {s : OverlayStreamEndpoint} {history : List Output} {key : SessionKey}

theorem keys_setStage (number : Nat) (stage : TaskStage) :
    (s.setStage number stage).keys = s.keys := by
  unfold keys setStage
  refine ext_getElem? fun index => ?_
  rw [getElem?_map, getElem?_modify, getElem?_map]
  cases s.tasks[index]? with
  | none => rfl
  | some task => exact congrArg some (by dsimp only; split <;> rfl)

variable (h : Inv s history)
include h

theorem Inv.setStage (number : Nat) (stage : TaskStage) :
    Inv (s.setStage number stage) history := by
  refine { h with connected := ?_, task := ?_, own := ?_, entry := ?_ } <;> rw [keys_setStage]
  · exact h.connected
  · exact h.task
  · exact h.own
  · exact h.entry

theorem Inv.setOpening {stage : AcceptStage}
    (haccepting : stage = .accepting → .connected key ∉ history)
    (hconnected : stage = .connected → .connected key ∈ history ∧ key ∉ s.keys) :
    Inv (s.setOpening key stage) history := by
  refine { h with accepting := ?_, connected := ?_ } <;> intro other hother
  · rcases lookup_insert_cases hother with ⟨rfl, hstage⟩ | ⟨-, hold⟩
    · exact haccepting hstage.symm
    · exact h.accepting other hold
  · rcases lookup_insert_cases hother with ⟨rfl, hstage⟩ | ⟨-, hold⟩
    · exact hconnected hstage.symm
    · exact h.connected other hold

/-- Nothing is entered into either table. -/
theorem Inv.shrink {sessions : KeyedMap SessionKey Nat} {opening : KeyedMap SessionKey AcceptStage}
    (calls : List SessionKey)
    (hsessions : ∀ key number, sessions.lookup key = some number →
      s.sessions.lookup key = some number)
    (hopening : ∀ key stage, opening.lookup key = some stage → s.opening.lookup key = some stage) :
    Inv { s with sessions, opening, calls } history :=
  { h with
    accepting := fun key hkey => h.accepting key (hopening key _ hkey)
    connected := fun key hkey => h.connected key (hopening key _ hkey)
    entry := fun key number hentry => h.entry key number (hsessions key number hentry) }

/-- Outputs that tell of no connection. -/
theorem Inv.emit (outputs : List Output) (hquiet : ∀ key, .connected key ∉ outputs)
    (hremoved : ∀ number entry, .removed number entry ∈ outputs → entry = number) :
    Inv s (history ++ outputs) where
  accepting key hkey hin := h.accepting key hkey ((mem_append.mp hin).resolve_right (hquiet key))
  connected key hkey := (h.connected key hkey).imp_left (mem_append_left _)
  task key hkey := mem_append_left _ (h.task key hkey)
  own := h.own
  entry := h.entry
  once key := by
    rw [count_append, count_eq_zero_of_not_mem (hquiet key)]
    exact h.once key
  removed number entry hentry := by
    rcases mem_append.mp hentry with hold | hnew
    · exact h.removed number entry hold
    · exact hremoved number entry hnew

theorem Inv.connect (hkey : s.opening.lookup key = some .accepting) :
    Inv (s.setOpening key .connected) (history ++ [.connected key]) where
  accepting other hother := by
    rcases lookup_insert_cases hother with ⟨-, hstage⟩ | ⟨hne, hold⟩
    · cases hstage
    · simpa [hne] using h.accepting other hold
  connected other hother := by
    rcases lookup_insert_cases hother with ⟨rfl, -⟩ | ⟨-, hold⟩
    · exact ⟨by simp, fun htask => h.accepting other hkey (h.task other htask)⟩
    · exact (h.connected other hold).imp_left (mem_append_left _)
  task other hother := mem_append_left _ (h.task other hother)
  own := h.own
  entry := h.entry
  once other := by
    rw [count_append]
    by_cases hother : other = key
    · subst hother
      rw [count_eq_zero_of_not_mem (h.accepting other hkey)]
      simp
    · have hquiet : [Output.connected key].count (.connected other) = 0 := by
        simp [Ne.symm hother]
      rw [hquiet]
      exact h.once other
  removed number entry hentry := h.removed number entry (by simpa using hentry)

theorem Inv.spawn (hkey : s.opening.lookup key = some .connected) :
    Inv ((s.addSession key).setOpening key (.finished true)) history := by
  obtain ⟨hconnected, hfresh⟩ := h.connected key hkey
  have hkeys : ((s.addSession key).setOpening key (.finished true)).keys = s.keys ++ [key] :=
    map_append
  refine { h with accepting := ?_, connected := ?_, task := ?_, own := ?_, entry := ?_ }
  · intro other hother
    rcases lookup_insert_cases hother with ⟨-, hstage⟩ | ⟨-, hold⟩
    · cases hstage
    · exact h.accepting other hold
  · intro other hother
    rcases lookup_insert_cases hother with ⟨-, hstage⟩ | ⟨hne, hold⟩
    · cases hstage
    · rw [hkeys]
      exact ⟨(h.connected other hold).1, by simpa [hne] using (h.connected other hold).2⟩
  · rw [hkeys]
    intro other hother
    rcases mem_append.mp hother with hold | hnew
    · exact h.task other hold
    · rwa [mem_singleton.mp hnew]
  · rw [hkeys, ← concat_eq_append]
    exact h.own.concat hfresh
  · intro other number hentry
    rw [hkeys]
    rcases lookup_insert_cases hentry with ⟨rfl, rfl⟩ | ⟨-, hold⟩
    · rw [show s.tasks.length = s.keys.length by rw [keys, length_map]]
      exact getElem?_concat_length
    · have hentry := h.entry other number hold
      rwa [List.getElem?_append_left (List.getElem?_eq_some_iff.mp hentry).1]

theorem Inv.step {event : Event} (henters : s.EntersOnce history event) :
    Inv (s.step event).1 (history ++ (s.step event).2) := by
  have hsame : Inv s (history ++ []) := (append_nil history).symm ▸ h
  cases event with
  | handleFrame key kind =>
    rw [OverlayStreamEndpoint.step]
    split_ifs
    · exact hsame
    · exact hsame.shrink _ (fun _ _ => id) fun _ _ => id
    · exact h.emit _ (by simp) (by simp)
  | insertOpening key =>
    have hcalls := hsame.shrink (s.calls.erase key) (fun _ _ => id) fun _ _ => id
    rw [OverlayStreamEndpoint.step]
    split_ifs with hcall hopening
    · exact hcalls
    · refine hcalls.setOpening (fun _ => ?_) nofun
      rw [append_nil]
      exact henters.resolve_left hopening
    · exact hsame
  | acceptOpen key connects =>
    rw [OverlayStreamEndpoint.step]
    split_ifs with hkey
    · exact h.connect hkey
    · exact hsame.setOpening nofun nofun
    · exact hsame
  | spawnSession key =>
    rw [OverlayStreamEndpoint.step]
    split_ifs with hkey
    · exact hsame.spawn hkey
    · exact hsame
  | removeOpening key =>
    rw [OverlayStreamEndpoint.step]
    split
    · next accepted haccepted =>
      refine (h.emit _ ?_ ?_).shrink s.calls (fun _ _ => id) fun _ _ =>
        lookup_of_lookup_erase <;> cases accepted <;> simp
    · exact hsame
  | endSession number =>
    rw [OverlayStreamEndpoint.step]
    split_ifs
    · exact hsame.setStage number .ended
    · exact hsame
  | removeSession number =>
    rw [OverlayStreamEndpoint.step]
    split
    · next key htask =>
      -- the entry under the key and the task that ends have the same key, so they are the same
      have hkey : s.keys[number]? = some key := by rw [keys, getElem?_map, htask]; rfl
      have hentry : ∀ entry, s.sessions.lookup key = some entry → entry = number := by
        intro entry hlookup
        have hsame := h.entry key entry hlookup
        exact (List.getElem?_inj (List.getElem?_eq_some_iff.mp hsame).1 h.own).mp
          (hsame.trans hkey.symm)
      have hemit := h.emit ((s.sessions.lookup key).toList.map (.removed number)) (by simp) (by
        rintro ended entry hin
        obtain ⟨_, hfound, heq⟩ := mem_map.mp hin
        cases heq
        exact hentry entry (Option.mem_toList.mp hfound))
      exact (hemit.shrink s.calls (fun _ _ => lookup_of_lookup_erase)
        fun _ _ => id).setStage number .removed
    · exact hsame

end

variable (acceptInput : Bool)

def start : OverlayStreamEndpoint := { acceptInput }

theorem inv_start : Inv (start acceptInput) [] :=
  ⟨nofun, nofun, nofun, nodup_nil, nofun, fun _ => Nat.zero_le 1, nofun⟩

/-- Where no copy of an `Open` frame enters `opening` after its stream was connected, each stream
is connected to its destination at most once and a session that ends removes no other's entry. -/
theorem accept_connects_once (events : List Event)
    (henters : Trace.Always step EntersOnce (start acceptInput) [] events) :
    (∀ key, (Trace.run step (start acceptInput) events).2.count (.connected key) ≤ 1) ∧
    ∀ number entry, .removed number entry ∈ (Trace.run step (start acceptInput) events).2 →
      entry = number := by
  have hinv := Trace.run_invariant (I := Inv) (fun _ _ _ h henters => h.step henters)
    (inv_start acceptInput) henters
  exact ⟨hinv.once, hinv.removed⟩

/-- A stream from its first `Open` frame to the end of its session. -/
def oneStream : List Event :=
  [.handleFrame (1, 5) .open, .insertOpening (1, 5), .acceptOpen (1, 5) true,
    .spawnSession (1, 5), .removeOpening (1, 5), .endSession 0, .removeSession 0]

theorem accept_connects_once_one_stream :
    Trace.Always step EntersOnce (start true) [] oneStream ∧
    (∀ key, (Trace.run step (start true) oneStream).2.count (.connected key) ≤ 1) ∧
    ∀ number entry, .removed number entry ∈ (Trace.run step (start true) oneStream).2 →
      entry = number :=
  ⟨by decide, accept_connects_once true oneStream (by decide)⟩

/-- An `Open` frame that looks for its session before the session is there. -/
def overtaken : List Event :=
  .handleFrame (1, 5) .open :: oneStream.take 5 ++
    [.insertOpening (1, 5), .acceptOpen (1, 5) true, .spawnSession (1, 5), .endSession 0,
      .removeSession 0]

/-- A copy of the `Open` frame that arrives after the session connects the stream once more; and
with a copy that was overtaken by the first, the first session removes the entry of the second. -/
theorem accept_connects_twice :
    (Trace.run step (start true) (oneStream ++ oneStream.take 3)).2.count (.connected (1, 5)) = 2 ∧
    .removed 0 1 ∈ (Trace.run step (start true) overtaken).2 ∧
    (Trace.run step (start true) overtaken).1.tasks[1]? = some ⟨(1, 5), .running⟩ := by
  decide

end OverlayStreamEndpoint

end LowerTier.Gateway.OverlayStream
