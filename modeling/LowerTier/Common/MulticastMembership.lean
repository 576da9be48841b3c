import LowerTier.ProofSupport.KeyedMap
import LowerTier.ProofSupport.OrderedMap
import LowerTier.ProofSupport.Trace
import Mathlib.Data.Prod.Lex

/-!
# Multicast memberships (`common/global_ctx.rs`)

Edge hosts report that they join or leave multicast groups.  A membership has a deadline and stands
in an index by deadline, from whose head it is expired or evicted.  A repeated join calls
`refresh_membership_deadline` inside `debug_assert!`, which the release build leaves out, so the
deadline of the first join stays.  Where no join is repeated before the membership has ended, it
lives for the whole lifetime after its latest report.
-/

namespace LowerTier.Common.Multicast

open AList Option List ProofSupport

def MAX_MULTICAST_MEMBERSHIPS : Nat := 4096

/-- In nanoseconds, as every time here. -/
def MULTICAST_MEMBERSHIP_TTL : Nat := 260 * 1000000000

/-- The state, by keys of a reporter and a group and by groups. -/
structure MulticastMembershipState (κ γ : Type) [LinearOrder κ] where
  configuredGroups : List γ
  memberships : KeyedMap κ Nat
  groupRefcounts : KeyedMap γ Nat
  deadlineIndex : OrderedSet (Nat ×ₗ κ)

structure Update (κ : Type) where
  key : κ
  joined : Bool
deriving DecidableEq

/-- What is known of a key: its group, and which groups are multicast addresses. -/
structure Groups (κ γ : Type) where
  group : κ → γ
  isMulticast : γ → Bool

namespace MulticastMembershipState

variable {κ γ : Type} [LinearOrder κ] [DecidableEq γ] (groups : Groups κ γ)

def new : MulticastMembershipState κ γ := ⟨[], ∅, ∅, .empty⟩

section Model

variable (state : MulticastMembershipState κ γ)

def decrementGroupRefcount (group : γ) : Bool × MulticastMembershipState κ γ :=
  match state.groupRefcounts.lookup group with
  | none => (false, state)
  | some count =>
    if count ≤ 1 then (true, { state with groupRefcounts := state.groupRefcounts.erase group })
    else (false, { state with groupRefcounts := state.groupRefcounts.insert group (count - 1) })

def incrementGroupRefcount (group : γ) : Bool × MulticastMembershipState κ γ :=
  let count := (state.groupRefcounts.lookup group).getD 0
  (count = 0, { state with groupRefcounts := state.groupRefcounts.insert group (count + 1) })

def popIndex (entry : Nat ×ₗ κ) : MulticastMembershipState κ γ :=
  { state with deadlineIndex := state.deadlineIndex.erase entry }

/-- A membership goes, and its group with the last of its memberships. -/
def dropMembership (key : κ) : Bool × MulticastMembershipState κ γ :=
  { state with memberships := state.memberships.erase key }.decrementGroupRefcount
    (groups.group key)

def expireLoop (now : Nat) : List (Nat ×ₗ κ) → MulticastMembershipState κ γ →
    Bool × MulticastMembershipState κ γ
  | [], state => (false, state)
  | entry :: rest, state =>
    let (deadline, key) := ofLex entry
    if now < deadline then (false, state)
    else if state.memberships.lookup key = some deadline then
      let (crossedOne, state) := (state.popIndex entry).dropMembership groups key
      let (changed, state) := expireLoop now rest state
      (crossedOne && groups.group key ∉ state.configuredGroups || changed, state)
    else expireLoop now rest (state.popIndex entry)

def expireFromDeadlineHead (now : Nat) : Bool × MulticastMembershipState κ γ :=
  expireLoop groups now state.deadlineIndex.toList state

def removeMembership (key : κ) : Bool × MulticastMembershipState κ γ :=
  match state.memberships.lookup key with
  | none => (false, state)
  | some deadline =>
    let (crossedOne, state) := (state.popIndex (toLex (deadline, key))).dropMembership groups key
    (crossedOne && groups.group key ∉ state.configuredGroups, state)

def evictLoop : List (Nat ×ₗ κ) → MulticastMembershipState κ γ →
    Option (γ × Bool) × MulticastMembershipState κ γ
  | [], state => (none, state)
  | entry :: rest, state =>
    let (deadline, key) := ofLex entry
    if state.memberships.lookup key = some deadline then
      let (crossedOne, state) := (state.popIndex entry).dropMembership groups key
      (some (groups.group key, crossedOne), state)
    else evictLoop rest (state.popIndex entry)

def makeRoom : Nat → MulticastMembershipState κ γ → Bool × MulticastMembershipState κ γ
  | 0, state => (false, state)
  | fuel + 1, state =>
    if state.memberships.size < MAX_MULTICAST_MEMBERSHIPS then (false, state)
    else
      match evictLoop groups state.deadlineIndex.toList state with
      | (none, state) => (false, state)
      | (some (group, crossedOne), state) =>
        let (changed, state) := makeRoom fuel state
        (crossedOne && group ∉ state.configuredGroups || changed, state)

def insertMembership (key : κ) (deadline : Nat) : Bool × MulticastMembershipState κ γ :=
  let (crossedZero, state) := state.incrementGroupRefcount (groups.group key)
  (crossedZero && groups.group key ∉ state.configuredGroups, { state with
    memberships := state.memberships.insert key deadline
    deadlineIndex := state.deadlineIndex.insert (toLex (deadline, key)) })

/-- One report in `update_multicast_memberships`, in the release build. -/
def applyUpdate (now : Nat) (update : Update κ) : Bool × MulticastMembershipState κ γ :=
  if !groups.isMulticast (groups.group update.key) then (false, state)
  else if update.joined then
    -- the refresh of a membership that is there stands inside `debug_assert!`
    if (state.memberships.lookup update.key).isSome then (false, state)
    else
      let (evicted, state) := makeRoom groups (state.memberships.size + 1) state
      if MAX_MULTICAST_MEMBERSHIPS ≤ state.memberships.size then (evicted, state)
      else
        let (changed, state) :=
          state.insertMembership groups update.key (now + MULTICAST_MEMBERSHIP_TTL)
        (evicted || changed, state)
  else state.removeMembership groups update.key

def applyAll (now : Nat) : List (Update κ) → MulticastMembershipState κ γ →
    Bool × MulticastMembershipState κ γ
  | [], state => (false, state)
  | update :: rest, state =>
    let (changed, state) := state.applyUpdate groups now update
    let (more, state) := applyAll now rest state
    (changed || more, state)

def updateMulticastMemberships (updates : List (Update κ)) (now : Nat) :
    Bool × MulticastMembershipState κ γ :=
  if updates.isEmpty then (false, state)
  else
    let (expired, state) := state.expireFromDeadlineHead groups now
    let (changed, state) := applyAll groups now updates state
    (expired || changed, state)

end Model

/-! ## The index and the memberships -/

variable {groups : Groups κ γ} {state : MulticastMembershipState κ γ} {now : Nat}

/-- The index holds the deadlines of the memberships. -/
def Indexed (state : MulticastMembershipState κ γ) : Prop :=
  ∀ entry : Nat ×ₗ κ, entry ∈ state.deadlineIndex ↔
    state.memberships.lookup (ofLex entry).2 = some (ofLex entry).1

theorem decrementGroupRefcount_frame (group : γ) :
    (state.decrementGroupRefcount group).2.memberships = state.memberships ∧
      (state.decrementGroupRefcount group).2.deadlineIndex = state.deadlineIndex := by
  unfold decrementGroupRefcount
  split
  · exact ⟨rfl, rfl⟩
  · split
    · exact ⟨rfl, rfl⟩
    · exact ⟨rfl, rfl⟩

theorem dropMembership_frame (state : MulticastMembershipState κ γ) (groups : Groups κ γ)
    (key : κ) : (state.dropMembership groups key).2.memberships = state.memberships.erase key ∧
      (state.dropMembership groups key).2.deadlineIndex = state.deadlineIndex :=
  decrementGroupRefcount_frame _

theorem Indexed.drop (h : state.Indexed) (groups : Groups κ γ) {deadline : Nat} {key : κ}
    (hlookup : state.memberships.lookup key = some deadline) :
    ((state.popIndex (toLex (deadline, key))).dropMembership groups key).2.Indexed ∧
      ((state.popIndex (toLex (deadline, key))).dropMembership groups key).2.memberships =
        state.memberships.erase key ∧
      ((state.popIndex (toLex (deadline, key))).dropMembership groups key).2.deadlineIndex =
        state.deadlineIndex.erase (toLex (deadline, key)) := by
  obtain ⟨hmemberships, hindex⟩ := dropMembership_frame (state.popIndex (toLex (deadline, key)))
    groups key
  refine ⟨fun entry => ?_, hmemberships, hindex⟩
  rw [hmemberships, hindex, popIndex, OrderedSet.mem_erase, h entry]
  by_cases hkey : (ofLex entry).2 = key
  · rw [hkey, lookup_erase, hlookup]
    refine iff_of_false (fun hother => hother.2 ?_) nofun
    exact ofLex.injective (Prod.ext (some.inj hother.1).symm hkey)
  · rw [lookup_erase_ne hkey]
    exact and_iff_left fun hsame => hkey (congrArg (fun entry => (ofLex entry).2) hsame)

omit [DecidableEq γ] in
theorem Indexed.lookup_filter (h : state.Indexed)
    (hlater : ∀ entry ∈ state.deadlineIndex.toList, now < (ofLex entry).1) (key : κ) :
    state.memberships.lookup key = (state.memberships.lookup key).filter (now < ·) := by
  cases hlookup : state.memberships.lookup key with
  | none => rfl
  | some deadline =>
    have hin := OrderedSet.mem_toList.mpr ((h (toLex (deadline, key))).mpr hlookup)
    exact (if_pos (decide_eq_true (hlater _ hin))).symm

/-- Expiry removes what is due and nothing else. -/
theorem Indexed.expireLoop (h : state.Indexed) (groups : Groups κ γ) (now : Nat)
    {entries : List (Nat ×ₗ κ)} (hentries : state.deadlineIndex.toList = entries) :
    (expireLoop groups now entries state).2.Indexed ∧
      ∀ key, (expireLoop groups now entries state).2.memberships.lookup key =
        (state.memberships.lookup key).filter (now < ·) := by
  induction entries generalizing state with
  | nil => exact ⟨h, h.lookup_filter (hentries ▸ nofun)⟩
  | cons entry rest ih =>
    have hsorted := state.deadlineIndex.sorted
    rw [hentries] at hsorted
    obtain ⟨hfirst, -⟩ := pairwise_cons.mp hsorted
    have hcurrent := (h entry).mp (by rw [← OrderedSet.mem_toList, hentries]; exact mem_cons_self)
    unfold MulticastMembershipState.expireLoop
    dsimp only
    by_cases hlater : now < (ofLex entry).1
    · rw [if_pos hlater]
      refine ⟨h, h.lookup_filter fun other hother => hlater.trans_le ?_⟩
      rw [hentries] at hother
      -- the head has the earliest deadline
      rcases mem_cons.mp hother with rfl | hrest
      · exact le_rfl
      · exact Prod.Lex.monotone_fst_ofLex (hfirst _ hrest).le
    · rw [if_neg hlater, if_pos hcurrent]
      obtain ⟨hnext, hmemberships, hindex⟩ := h.drop groups hcurrent
      have hrest : (state.deadlineIndex.erase entry).toList = rest := by
        change state.deadlineIndex.toList.filter (· ≠ entry) = rest
        rw [hentries, filter_cons_of_neg (by simp)]
        exact filter_eq_self.mpr fun other hother => decide_eq_true (hfirst other hother).ne'
      obtain ⟨hlast, hlookup⟩ := ih hnext (hindex ▸ hrest)
      refine ⟨hlast, fun key => (hlookup key).trans ?_⟩
      rw [hmemberships]
      by_cases hkey : key = (ofLex entry).2
      · rw [hkey, lookup_erase, hcurrent, filter_some, decide_eq_false hlater]
        rfl
      · rw [lookup_erase_ne hkey]

/-- There is room for a membership that is new. -/
def Fits (groups : Groups κ γ) (state : MulticastMembershipState κ γ) (update : Update κ) : Prop :=
  groups.isMulticast (groups.group update.key) = true → update.joined = true →
    state.memberships.lookup update.key = none → state.memberships.size < MAX_MULTICAST_MEMBERSHIPS

/-- A join is not repeated while the membership is there. -/
def NotRepeated (state : MulticastMembershipState κ γ) (update : Update κ) : Prop :=
  update.joined = true → state.memberships.lookup update.key = none

theorem Indexed.applyUpdate (h : state.Indexed) {update : Update κ}
    (hfits : Fits groups state update) (hnew : NotRepeated state update) (now : Nat) :
    (state.applyUpdate groups now update).2.Indexed ∧
      ∀ key, (state.applyUpdate groups now update).2.memberships.lookup key =
        if key = update.key ∧ groups.isMulticast (groups.group key) = true then
          if update.joined then some (now + MULTICAST_MEMBERSHIP_TTL) else none
        else state.memberships.lookup key := by
  unfold MulticastMembershipState.applyUpdate
  cases hmulticast : groups.isMulticast (groups.group update.key) with
  | false =>
    refine ⟨h, fun key => (if_neg ?_).symm⟩
    rintro ⟨rfl, hkey⟩
    cases hmulticast.symm.trans hkey
  | true =>
    cases hjoined : update.joined with
    | false =>
      simp only [Bool.not_true, Bool.false_eq_true, if_false, removeMembership]
      cases hlookup : state.memberships.lookup update.key with
      | none =>
        refine ⟨h, fun key => ?_⟩
        dsimp only
        split
        · next hkey => rw [hkey.1, hlookup]
        · rfl
      | some deadline =>
        obtain ⟨hindexed, hmemberships, -⟩ := h.drop groups hlookup
        refine ⟨hindexed, fun key => ?_⟩
        rw [hmemberships]
        split
        · next hkey => rw [hkey.1, lookup_erase]
        · next hkey =>
          exact lookup_erase_ne fun hsame => hkey ⟨hsame, hsame ▸ hmulticast⟩
    | true =>
      have hnone := hnew hjoined
      have hroom := hfits hmulticast hjoined hnone
      have hmake : makeRoom groups (state.memberships.size + 1) state = (false, state) :=
        if_pos hroom
      simp only [hnone, hmake, Bool.not_true, Bool.false_eq_true, if_false, if_true,
        isSome_none, if_neg (Nat.not_le.mpr hroom), insertMembership, incrementGroupRefcount]
      refine ⟨fun entry => ?_, fun key => ?_⟩
      · rw [OrderedSet.mem_insert, h entry]
        by_cases hkey : (ofLex entry).2 = update.key
        · rw [hkey, lookup_insert, hnone, some_inj]
          refine ⟨fun hsame => ?_, fun hsame => .inl ?_⟩
          · exact congrArg (fun entry => (ofLex entry).1) (hsame.resolve_right nofun).symm
          · exact ofLex.injective (Prod.ext hsame.symm hkey)
        · rw [lookup_insert_ne hkey]
          exact or_iff_right fun hsame => hkey (congrArg (fun entry => (ofLex entry).2) hsame)
      · split
        · next hkey => rw [hkey.1, lookup_insert]
        · next hkey =>
          exact lookup_insert_ne fun hsame => hkey ⟨hsame, hsame ▸ hmulticast⟩

structure Report (κ : Type) where
  update : Update κ
  time : Nat
deriving DecidableEq

def latest (history : List (Report κ)) (key : κ) : Option (Report κ) :=
  (history.filter (·.update.key = key)).getLast?

theorem latest_append (history : List (Report κ)) (report : Report κ) (key : κ) :
    latest (history ++ [report]) key =
      if key = report.update.key then some report else latest history key := by
  unfold latest
  rw [filter_append]
  split
  · next hkey =>
    rw [filter_cons_of_pos (by simp [hkey]), filter_nil, getLast?_concat]
  · next hkey =>
    rw [filter_cons_of_neg (by simpa using Ne.symm hkey), filter_nil, append_nil]

/-- The memberships at a time, after some reports. -/
structure Inv (groups : Groups κ γ) (clock : Nat) (state : MulticastMembershipState κ γ)
    (history : List (Report κ)) : Prop where
  indexed : state.Indexed
  sound : ∀ key deadline, state.memberships.lookup key = some deadline →
    groups.isMulticast (groups.group key) = true ∧
      ∃ time, latest history key = some ⟨⟨key, true⟩, time⟩ ∧
        deadline = time + MULTICAST_MEMBERSHIP_TTL
  complete : ∀ key time, groups.isMulticast (groups.group key) = true →
    latest history key = some ⟨⟨key, true⟩, time⟩ → clock < time + MULTICAST_MEMBERSHIP_TTL →
    state.memberships.lookup key = some (time + MULTICAST_MEMBERSHIP_TTL)

variable {clock : Nat} {history : List (Report κ)}

theorem Inv.expire (h : Inv groups clock state history) (hclock : clock ≤ now) :
    Inv groups now (state.expireFromDeadlineHead groups now).2 history := by
  obtain ⟨hindexed, hlookup⟩ := h.indexed.expireLoop groups now rfl
  refine ⟨hindexed, fun key deadline hkey => ?_, fun key time hmulticast hlatest hlive => ?_⟩
  · exact h.sound key deadline (filter_eq_some_iff.mp ((hlookup key).symm.trans hkey)).1
  · refine (hlookup key).trans ?_
    rw [h.complete key time hmulticast hlatest (hclock.trans_lt hlive), filter_some,
      decide_eq_true hlive, if_pos rfl]

theorem Inv.applyUpdate (h : Inv groups now state history) {update : Update κ}
    (hfits : Fits groups state update) (hnew : NotRepeated state update) :
    Inv groups now (state.applyUpdate groups now update).2 (history ++ [⟨update, now⟩]) := by
  obtain ⟨hindexed, hlookup⟩ := h.indexed.applyUpdate hfits hnew now
  refine ⟨hindexed, fun key deadline hkey => ?_, fun key time hmulticast hlatest hlive => ?_⟩
  · rw [hlookup] at hkey
    rw [latest_append]
    split at hkey
    · next hself =>
      split at hkey
      · next hjoined =>
        refine ⟨hself.2, now, ?_, (some.inj hkey).symm⟩
        rw [if_pos hself.1, hself.1, ← hjoined]
      · cases hkey
    · next hother =>
      obtain ⟨hmulticast, time, hlatest, hdeadline⟩ := h.sound key deadline hkey
      rw [if_neg fun hsame => hother ⟨hsame, hmulticast⟩]
      exact ⟨hmulticast, time, hlatest, hdeadline⟩
  · rw [hlookup]
    rw [latest_append] at hlatest
    split at hlatest
    · next hself =>
      cases hlatest
      rw [if_pos ⟨hself, hmulticast⟩, if_pos rfl]
    · next hother =>
      rw [if_neg fun hsame => hother hsame.1]
      exact h.complete key time hmulticast hlatest hlive

/-! ## Runs of calls -/

inductive Call (κ : Type) where
  | update (updates : List (Update κ)) (now : Nat)
  | expire (now : Nat)

def Call.time : Call κ → Nat
  | .update _ now => now
  | .expire now => now

structure Clocked (κ γ : Type) [LinearOrder κ] where
  state : MulticastMembershipState κ γ
  clock : Nat

def callStep (groups : Groups κ γ) (before : Clocked κ γ) :
    Call κ → Clocked κ γ × List (Report κ)
  | .update updates now =>
    (⟨(before.state.updateMulticastMemberships groups updates now).2, now⟩, updates.map (⟨·, now⟩))
  | .expire now => (⟨(before.state.expireFromDeadlineHead groups now).2, now⟩, [])

/-- Every report of a call meets the condition in the state in which it is applied. -/
def EachReport (groups : Groups κ γ) (P : MulticastMembershipState κ γ → Update κ → Prop)
    (now : Nat) : List (Update κ) → MulticastMembershipState κ γ → Prop
  | [], _ => True
  | update :: rest, state =>
    P state update ∧ EachReport groups P now rest (state.applyUpdate groups now update).2

def InCall (groups : Groups κ γ) (P : MulticastMembershipState κ γ → Update κ → Prop)
    (before : Clocked κ γ) (_ : List (Report κ)) : Call κ → Prop
  | .update updates now =>
    EachReport groups P now updates (before.state.expireFromDeadlineHead groups now).2
  | .expire _ => True

/-- The times of the calls do not go back. -/
def InTime (before : Clocked κ γ) (_ : List (Report κ)) (call : Call κ) : Prop :=
  before.clock ≤ call.time

theorem Inv.applyAll {updates : List (Update κ)} (h : Inv groups now state history)
    (hfits : EachReport groups (Fits groups) now updates state)
    (hnew : EachReport groups NotRepeated now updates state) :
    Inv groups now (MulticastMembershipState.applyAll groups now updates state).2
      (history ++ updates.map (⟨·, now⟩)) := by
  induction updates generalizing state history with
  | nil => rwa [map_nil, append_nil]
  | cons update rest ih =>
    rw [map_cons, append_cons]
    exact ih (h.applyUpdate hfits.1 hnew.1) hfits.2 hnew.2

theorem Inv.callStep {before : Clocked κ γ} {call : Call κ}
    (h : Inv groups before.clock before.state history) (htime : InTime before history call)
    (hfits : InCall groups (Fits groups) before history call)
    (hnew : InCall groups NotRepeated before history call) :
    Inv groups (MulticastMembershipState.callStep groups before call).1.clock
      (MulticastMembershipState.callStep groups before call).1.state
      (history ++ (MulticastMembershipState.callStep groups before call).2) := by
  cases call with
  | expire now =>
    rw [show (MulticastMembershipState.callStep groups before (.expire now)).2 = [] from rfl,
      append_nil]
    exact h.expire htime
  | update updates now =>
    have hall := (h.expire htime).applyAll hfits hnew
    cases updates with
    | nil =>
      -- a call without reports does not even expire, and an older state serves a later time
      refine ⟨h.indexed, fun key => ?_, fun key time hmulticast hlatest hlive => ?_⟩
      · exact (append_nil history).symm ▸ h.sound key
      · exact h.complete key time hmulticast ((append_nil history) ▸ hlatest)
          (Nat.lt_of_le_of_lt htime hlive)
    | cons update rest => exact hall

/-- In a run whose calls are in time, hold at most `MAX_MULTICAST_MEMBERSHIPS` memberships and
repeat no join while its membership is there, a membership is present at a later time exactly when
the latest report of its key is a join less than the lifetime ago. -/
theorem present_iff_latest_join_recent (groups : Groups κ γ) (start : Nat) (calls : List (Call κ))
    (htime : Trace.Always (callStep groups) InTime ⟨new, start⟩ [] calls)
    (hfits : Trace.Always (callStep groups) (InCall groups (Fits groups)) ⟨new, start⟩ [] calls)
    (hnew : Trace.Always (callStep groups) (InCall groups NotRepeated) ⟨new, start⟩ [] calls)
    (key : κ) (t : Nat) (ht : (Trace.run (callStep groups) ⟨new, start⟩ calls).1.clock ≤ t) :
    (((Trace.run (callStep groups) ⟨new, start⟩ calls).1.state.expireFromDeadlineHead
        groups t).2.memberships.lookup key).isSome = true ↔
      groups.isMulticast (groups.group key) = true ∧
        ∃ s, latest (Trace.run (callStep groups) ⟨new, start⟩ calls).2 key = some ⟨⟨key, true⟩, s⟩ ∧
          t < s + MULTICAST_MEMBERSHIP_TTL := by
  have hinit : Inv groups start (new : MulticastMembershipState κ γ) [] :=
    ⟨fun entry => iff_of_false OrderedSet.not_mem_empty nofun, nofun, nofun⟩
  have hrun := Trace.run_invariant (I := fun (s : Clocked κ γ) h => Inv groups s.clock s.state h)
    (fun s h i hs hcall => hs.callStep hcall.1 hcall.2.1 hcall.2.2) hinit
    (htime.and (hfits.and hnew))
  obtain ⟨-, hlookup⟩ := hrun.indexed.expireLoop groups t rfl
  have hlater := hrun.expire ht
  constructor
  · intro hsome
    obtain ⟨deadline, hdeadline⟩ := isSome_iff_exists.mp hsome
    obtain ⟨hmulticast, s, hlatest, rfl⟩ := hlater.sound key deadline hdeadline
    have hkept := (hlookup key).symm.trans hdeadline
    exact ⟨hmulticast, s, hlatest, of_decide_eq_true (filter_eq_some_iff.mp hkept).2⟩
  · rintro ⟨hmulticast, s, hlatest, hlive⟩
    rw [hlater.complete key s hmulticast hlatest hlive]
    rfl

def anyGroup : Groups Nat Nat := ⟨id, fun _ => true⟩

/-- Keys 7 and 8 join, 8 leaves and joins again together with 9, 7 expires, and 9 leaves. -/
def joinsAndLeaves : List (Call Nat) :=
  [.update [⟨7, true⟩, ⟨8, true⟩] 0, .update [⟨8, false⟩] 1000000000,
    .update [⟨8, true⟩, ⟨9, true⟩] 100000000000, .expire 270000000000,
    .update [⟨9, false⟩] 280000000000]

/-- At 290 s the membership of 8 is there, and those of 7 and 9 are not. -/
theorem present_iff_latest_join_recent_rejoined :
    let later := (Trace.run (callStep anyGroup) ⟨new, 0⟩
      joinsAndLeaves).1.state.expireFromDeadlineHead anyGroup 290000000000
    (later.2.memberships.lookup 8).isSome = true ∧
      ∀ key ∈ [7, 9], ¬(later.2.memberships.lookup key).isSome = true := by
  have hpresent := fun key => present_iff_latest_join_recent anyGroup 0 joinsAndLeaves
    (by exact ⟨le_refl 0, Nat.zero_le _, Nat.le_of_ble_eq_true rfl, Nat.le_of_ble_eq_true rfl,
      Nat.le_of_ble_eq_true rfl, trivial⟩)
    (by exact ⟨⟨fun _ _ _ => by decide, fun _ _ _ => by decide, trivial⟩, ⟨fun _ => nofun, trivial⟩,
      ⟨fun _ _ _ => by decide +kernel, fun _ _ _ => by decide +kernel, trivial⟩, trivial,
      ⟨fun _ => nofun, trivial⟩, trivial⟩)
    (by exact ⟨⟨fun _ => rfl, fun _ => rfl, trivial⟩, ⟨nofun, trivial⟩,
      ⟨fun _ => rfl, fun _ => rfl, trivial⟩, trivial, ⟨nofun, trivial⟩, trivial⟩)
    key 290000000000 (Nat.le_of_ble_eq_true rfl)
  exact ⟨(hpresent 8).mpr ⟨rfl, 100000000000, by decide +kernel, by decide⟩, by decide +kernel⟩

/-- A membership joined at 0 s and again at 100 s is gone at 300 s. -/
theorem repeated_join_not_extended :
    ((Trace.run (callStep anyGroup) ⟨new, 0⟩
        [.update [⟨7, true⟩] 0, .update [⟨7, true⟩] 100000000000]).1.state.expireFromDeadlineHead
          anyGroup 300000000000).2.memberships.lookup 7 = none ∧
      latest (Trace.run (callStep anyGroup) ⟨new, 0⟩
        [.update [⟨7, true⟩] 0, .update [⟨7, true⟩] 100000000000]).2 7 =
          some ⟨⟨7, true⟩, 100000000000⟩ ∧
      300000000000 < 100000000000 + MULTICAST_MEMBERSHIP_TTL := by
  decide +kernel

end MulticastMembershipState

end LowerTier.Common.Multicast
