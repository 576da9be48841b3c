import Mathlib.Data.List.Induction
import Mathlib.Data.Option.Basic
import Mathlib.Algebra.Order.Group.Nat

/-!
# Registers that keep the highest version

A register is empty or holds a value with a version.  A mention fills an empty register with a
blank value of version zero; an offer replaces what is there if its version is strictly higher.
Where offers of one version agree, the outcome of a list of events depends only on which offers
it has and on whether there are events at all, not on their order or number.
-/

namespace LowerTier.ProofSupport.VersionedRegister

open List

variable {ν : Type}

inductive Event (ν : Type) where
  | mention
  | offer (version : Nat) (value : ν)

def apply (blank : ν) (register : Option (Nat × ν)) : Event ν → Option (Nat × ν)
  | .mention => some (register.getD (0, blank))
  | .offer version value =>
    if register.all fun held => held.1 < version then some (version, value) else register

def applyAll (blank : ν) (register : Option (Nat × ν)) (events : List (Event ν)) :
    Option (Nat × ν) :=
  events.foldl (apply blank) register

variable {blank : ν} {start result : Option (Nat × ν)} {events events' : List (Event ν)}

theorem applyAll_append :
    applyAll blank start (events ++ events') =
      applyAll blank (applyAll blank start events) events' :=
  foldl_append

@[simp] theorem apply_mention_some (held : Nat × ν) :
    apply blank (some held) .mention = some held := rfl

@[simp] theorem apply_mention_none : apply blank (none : Option (Nat × ν)) .mention =
    some (0, blank) := rfl

/-- What a register holds after some events: the start or an offer, of the highest version, or
the blank value where there was nothing else. -/
structure Outcome (blank : ν) (start : Option (Nat × ν)) (events : List (Event ν))
    (result : Option (Nat × ν)) : Prop where
  origin : result = start ∨
    (∃ version value, .offer version value ∈ events ∧ result = some (version, value)) ∨
    start = none ∧ events ≠ [] ∧ result = some (0, blank)
  start_le : ∀ held ∈ start, ∃ held' ∈ result, held.1 ≤ held'.1
  offer_le : ∀ version value, .offer version value ∈ events → ∃ held ∈ result, version ≤ held.1
  start_kept : ∀ held ∈ start, ∀ held' ∈ result, held'.1 = held.1 → result = start
  filled : events ≠ [] → result ≠ none

theorem Outcome.nil (blank : ν) (start : Option (Nat × ν)) : Outcome blank start [] start where
  origin := .inl rfl
  start_le held hheld := ⟨held, hheld, le_refl _⟩
  offer_le _ _ hoffer := absurd hoffer not_mem_nil
  start_kept _ _ _ _ _ := rfl
  filled hevents := absurd rfl hevents

section

variable (h : Outcome blank start events result)
include h

theorem Outcome.taken {version : Nat} {value : ν} (hnewer : ∀ held ∈ result, held.1 < version) :
    Outcome blank start (events ++ [.offer version value]) (some (version, value)) where
  origin := .inr (.inl ⟨version, value, by simp, rfl⟩)
  start_le held hheld := by
    obtain ⟨held', hheld', hle⟩ := h.start_le held hheld
    exact ⟨(version, value), rfl, hle.trans (hnewer held' hheld').le⟩
  offer_le version' value' hoffer := by
    refine ⟨(version, value), rfl, ?_⟩
    rcases mem_append.mp hoffer with hold | hnew
    · obtain ⟨held, hheld, hle⟩ := h.offer_le version' value' hold
      exact hle.trans (hnewer held hheld).le
    · obtain ⟨rfl, rfl⟩ : version' = version ∧ value' = value := by simpa using hnew
      exact le_refl _
  start_kept held hheld held' hheld' heq := by
    obtain ⟨mid, hmid, hle⟩ := h.start_le held hheld
    cases hheld'
    have hlt := hnewer mid hmid
    omega
  filled _ := by simp

theorem Outcome.kept {event : Event ν} {held : Nat × ν} (hheld : result = some held)
    (hle : ∀ version value, event = .offer version value → version ≤ held.1) :
    Outcome blank start (events ++ [event]) result where
  origin := by
    rcases h.origin with hstart | ⟨version, value, hoffer, heq⟩ | ⟨hnone, hevents, heq⟩
    · exact .inl hstart
    · exact .inr (.inl ⟨version, value, mem_append_left _ hoffer, heq⟩)
    · exact .inr (.inr ⟨hnone, by simp, heq⟩)
  start_le := h.start_le
  offer_le version value hoffer := by
    rcases mem_append.mp hoffer with hold | hnew
    · exact h.offer_le version value hold
    · exact ⟨held, hheld, hle version value (by simpa using Eq.symm (mem_singleton.mp hnew))⟩
  start_kept := h.start_kept
  filled _ := by simp [hheld]

theorem Outcome.step (event : Event ν) :
    Outcome blank start (events ++ [event]) (apply blank result event) := by
  cases event with
  | mention =>
    cases hresult : result with
    | some held =>
      rw [apply_mention_some, ← hresult]
      exact h.kept hresult (by simp)
    | none =>
      -- nothing has happened to an empty register
      obtain rfl : events = [] := by
        by_contra hevents
        exact h.filled hevents hresult
      have hstart : start = none := by
        cases hstart : start with
        | none => rfl
        | some held =>
          obtain ⟨held', hheld', -⟩ := h.start_le held hstart
          rw [hresult] at hheld'
          cases hheld'
      subst hstart
      exact ⟨.inr (.inr ⟨rfl, by simp, rfl⟩), by simp, by simp, by simp, by simp⟩
  | offer version value =>
    by_cases hnewer : result.all fun held => held.1 < version
    · rw [apply, if_pos hnewer]
      refine h.taken fun held hheld => ?_
      simpa [Option.all_eq_true] using (Option.all_eq_true _ _).mp hnewer held hheld
    rw [apply, if_neg hnewer]
    cases hresult : result with
    | none => simp [hresult] at hnewer
    | some held =>
      rw [← hresult]
      refine h.kept hresult fun version' value' heq => ?_
      obtain ⟨rfl, rfl⟩ : version = version' ∧ value = value' := by simpa using heq
      simpa [hresult] using hnewer

end

theorem outcome_applyAll (blank : ν) (start : Option (Nat × ν)) (events : List (Event ν)) :
    Outcome blank start events (applyAll blank start events) := by
  induction events using reverseRecOn with
  | nil => exact .nil blank start
  | append_singleton events event ih =>
    rw [applyAll_append]
    exact ih.step event

/-! ## Outcomes are unique -/

/-- Offers of one version have one value, and none has the version of the blank. -/
structure Consistent (events : List (Event ν)) : Prop where
  agree : ∀ version value value', .offer version value ∈ events →
    .offer version value' ∈ events → value = value'
  pos : ∀ version value, .offer version value ∈ events → 0 < version

variable {result' : Option (Nat × ν)}

theorem Outcome.version_le (h : Outcome blank start events result)
    (h' : Outcome blank start events' result')
    (hoffers : ∀ version value, .offer version value ∈ events → .offer version value ∈ events')
    (hnil : events' = [] → events = []) : ∀ held ∈ result, ∃ held' ∈ result', held.1 ≤ held'.1 := by
  intro held hheld
  rcases h.origin with hstart | ⟨version, value, hoffer, heq⟩ | ⟨hnone, hevents, heq⟩
  · exact h'.start_le held (hstart ▸ hheld)
  · obtain rfl := Option.some.inj (heq.symm.trans hheld)
    exact h'.offer_le version value (hoffers version value hoffer)
  · obtain rfl := Option.some.inj (heq.symm.trans hheld)
    obtain ⟨held', hheld'⟩ := Option.ne_none_iff_exists'.mp (h'.filled fun h => hevents (hnil h))
    exact ⟨held', hheld', Nat.zero_le _⟩

theorem Outcome.unique (h : Outcome blank start events result)
    (h' : Outcome blank start events' result') (hconsistent : Consistent events)
    (hoffers : ∀ version value, .offer version value ∈ events ↔ .offer version value ∈ events')
    (hnil : events = [] ↔ events' = []) : result = result' := by
  have hle := h.version_le h' (fun v x => (hoffers v x).mp) hnil.mpr
  have hge := h'.version_le h (fun v x => (hoffers v x).mpr) hnil.mp
  cases hresult : result with
  | none =>
    cases hresult' : result' with
    | none => rfl
    | some held' =>
      obtain ⟨held, hheld, -⟩ := hge held' hresult'
      rw [hresult] at hheld
      cases hheld
  | some held =>
    obtain ⟨held', hresult', hversion⟩ := hle held hresult
    obtain ⟨held'', hheld'', hversion'⟩ := hge held' hresult'
    obtain rfl := Option.some.inj (hresult.symm.trans hheld'')
    have hsame : held'.1 = held.1 := by omega
    rw [← hresult, hresult']
    -- the three origins of each side, of one version
    rcases h.origin with hstart | ⟨version, value, hoffer, heq⟩ | ⟨hnone, -, heq⟩
    · have hheld : start = some held := hstart ▸ hresult
      rw [hstart, ← hresult']
      exact (h'.start_kept held hheld held' hresult' hsame).symm
    · obtain rfl := Option.some.inj (heq.symm.trans hresult)
      rcases h'.origin with hstart' | ⟨version', value', hoffer', heq'⟩ | ⟨hnone', -, heq'⟩
      · have hheld' : start = some held' := hstart' ▸ hresult'
        rw [← hresult', hstart']
        exact h.start_kept held' hheld' _ hresult hsame.symm
      · obtain rfl := Option.some.inj (heq'.symm.trans hresult')
        obtain rfl : version' = version := hsame
        rw [heq, hconsistent.agree version' value value' hoffer
          ((hoffers version' value').mpr hoffer')]
      · obtain rfl := Option.some.inj (heq'.symm.trans hresult')
        have hpos := hconsistent.pos version value hoffer
        omega
    · rcases h'.origin with hstart' | ⟨version', value', hoffer', heq'⟩ | ⟨hnone', -, heq'⟩
      · rw [hstart', hnone] at hresult'
        cases hresult'
      · obtain rfl := Option.some.inj (heq.symm.trans hresult)
        obtain rfl := Option.some.inj (heq'.symm.trans hresult')
        have hpos := hconsistent.pos version' value' ((hoffers version' value').mpr hoffer')
        omega
      · rw [heq, ← hresult', heq']

/-- Lists with the same offers, both empty or both not, have one outcome. -/
theorem applyAll_eq (hconsistent : Consistent events)
    (hoffers : ∀ version value, .offer version value ∈ events ↔ .offer version value ∈ events')
    (hnil : events = [] ↔ events' = []) :
    applyAll blank start events = applyAll blank start events' :=
  (outcome_applyAll blank start events).unique (outcome_applyAll blank start events') hconsistent
    hoffers hnil

/-! ## Registers that see only offers -/

def Event.isOffer : Event ν → Bool
  | .mention => false
  | .offer _ _ => true

/-- A register that sees every event is level with one that sees only the offers, or it holds
nothing of its own and every offer to come replaces what the other holds. -/
structure Trails (blank : ν) (events : List (Event ν)) (full offered : Option (Nat × ν)) :
    Prop where
  level_or_blank : full = offered ∨ full = none ∨ full = some (0, blank)
  none_above : full = none → ∀ held ∈ offered, ∀ version value,
    .offer version value ∈ events → held.1 < version
  blank_above : full = some (0, blank) → full = offered ∨ ∀ held ∈ offered, held.1 = 0 ∨
    ∀ version value, .offer version value ∈ events → held.1 < version

variable {full offered : Option (Nat × ν)}

theorem Trails.mention (h : Trails blank (.mention :: events) full offered) :
    Trails blank events (apply blank full .mention) offered := by
  cases full with
  | some held =>
    refine ⟨h.level_or_blank, by simp, fun hblank => ?_⟩
    refine (h.blank_above hblank).imp_right fun habove held hheld => ?_
    exact (habove held hheld).imp_right fun hoffers version value hoffer =>
      hoffers version value (mem_cons_of_mem _ hoffer)
  | none =>
    refine ⟨.inr (.inr rfl), by simp, fun _ => .inr fun held hheld => .inr ?_⟩
    exact fun version value hoffer =>
      h.none_above rfl held hheld version value (mem_cons_of_mem _ hoffer)

theorem Trails.of_eq (register : Option (Nat × ν)) : Trails blank events register register :=
  ⟨.inl rfl, by rintro rfl; simp, fun _ => .inl rfl⟩

theorem Trails.offer {version : Nat} {value : ν}
    (h : Trails blank (.offer version value :: events) full offered) :
    Trails blank events (apply blank full (.offer version value))
      (apply blank offered (.offer version value)) := by
  by_cases hlevel : full = offered
  · rw [hlevel]
    exact .of_eq _
  have hmem : Event.offer version value ∈ Event.offer version value :: events := mem_cons_self
  cases full with
  | none =>
    have htaken : offered.all (fun held => held.1 < version) = true := by
      rw [Option.all_eq_true]
      exact fun held hheld => decide_eq_true (h.none_above rfl held hheld version value hmem)
    rw [apply, apply, if_pos htaken, if_pos (by rfl)]
    exact .of_eq _
  | some held =>
    obtain rfl : held = (0, blank) := by
      rcases h.level_or_blank with heq | heq | heq
      · exact absurd heq hlevel
      · cases heq
      · exact Option.some.inj heq
    have habove := (h.blank_above rfl).resolve_left hlevel
    by_cases hpos : 0 < version
    · have htaken : offered.all (fun held => held.1 < version) = true := by
        rw [Option.all_eq_true]
        intro held hheld
        rcases habove held hheld with hzero | hoffers
        · exact decide_eq_true (hzero ▸ hpos)
        · exact decide_eq_true (hoffers version value hmem)
      rw [apply, apply, if_pos htaken, if_pos (by simpa using hpos)]
      exact .of_eq _
    · -- an offer of version zero leaves the blank where it is
      have hzero : version = 0 := by omega
      rw [apply, if_neg (by simpa using hzero)]
      refine ⟨.inr (.inr rfl), by simp, fun _ => .inr fun held hheld => ?_⟩
      rw [apply] at hheld
      split_ifs at hheld
      · cases hheld
        exact .inl hzero
      · exact (habove held hheld).imp_right fun hoffers version value hoffer =>
          hoffers version value (mem_cons_of_mem _ hoffer)

theorem Trails.applyAll (h : Trails blank events full offered) :
    Trails blank [] (applyAll blank full events)
      (applyAll blank offered (events.filter Event.isOffer)) := by
  induction events generalizing full offered with
  | nil => exact h
  | cons event events ih =>
    cases event with
    | mention => exact ih h.mention
    | offer version value => exact ih h.offer

/-- The value stays, or one of a higher version takes its place. -/
def Follows (before after : Option (Nat × ν)) : Prop :=
  ∀ old ∈ before, ∃ new ∈ after, old.1 < new.1 ∨ old = new

theorem Follows.refl (value : Option (Nat × ν)) : Follows value value :=
  fun old hold => ⟨old, hold, .inr rfl⟩

theorem Follows.of_none (after : Option (Nat × ν)) : Follows none after :=
  fun _ hold => nomatch hold

theorem Follows.of_lt {old new : Nat × ν} (h : old.1 < new.1) : Follows (some old) (some new) := by
  intro value hvalue
  cases hvalue
  exact ⟨new, rfl, .inl h⟩

theorem Follows.trans {first second third : Option (Nat × ν)} (h : Follows first second)
    (h' : Follows second third) : Follows first third := by
  intro old hold
  obtain ⟨mid, hmid, hle⟩ := h old hold
  obtain ⟨new, hnew, hle'⟩ := h' mid hmid
  refine ⟨new, hnew, ?_⟩
  rcases hle with hlt | rfl
  · rcases hle' with hlt' | rfl
    · exact .inl (hlt.trans hlt')
    · exact .inl hlt
  · exact hle'

/-- A register that is offered values of such a writer, in any order and number but the latest
among them, ends with the latest. -/
theorem applyAll_latest {latest : Nat × ν} (offers : List (Nat × ν))
    (hoffers : ∀ offer ∈ offers, offer.1 < latest.1 ∨ offer = latest)
    (hstart : ∀ held ∈ start, held.1 < latest.1 ∨ held = latest)
    (hlatest : latest ∈ offers ∨ start = some latest) :
    applyAll blank start (offers.map fun offer => .offer offer.1 offer.2) = some latest := by
  induction offers generalizing start with
  | nil => exact hlatest.resolve_left not_mem_nil
  | cons offer offers ih =>
    have hoffer := hoffers offer mem_cons_self
    apply ih fun other hother => hoffers other (mem_cons_of_mem _ hother)
    · intro held hheld
      rw [apply] at hheld
      split_ifs at hheld
      · cases hheld
        exact hoffer
      · exact hstart held hheld
    · rw [mem_cons, or_assoc] at hlatest
      rw [apply]
      rcases hlatest with rfl | hmem | rfl
      · -- what is held already is the latest, or it makes room
        split_ifs with hnewer
        · exact .inr rfl
        · cases start with
          | none => exact absurd rfl hnewer
          | some held =>
            rcases hstart held rfl with hlt | rfl
            · exact absurd (decide_eq_true hlt) hnewer
            · exact .inr rfl
      · exact .inl hmem
      · right
        rcases hoffer with hlt | rfl
        · exact if_neg (by simp [hlt.le])
        · exact if_neg (by simp)

end LowerTier.ProofSupport.VersionedRegister
