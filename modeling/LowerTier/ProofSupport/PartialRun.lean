import Mathlib.Data.List.Basic

/-!
# Runs of a step function that may fail

A step consumes an input and either fails or gives an output and the next state.  `Along`
says that a condition holds before every step of a run, `Every` that no step of a run fails
and that every output is as required; `run` is the state at the end and `history` what happened
on the way.  The rules `every_of_invariant`, `run_of_invariant` and `history_of_invariant` lead
from one step to whole runs.
-/

namespace LowerTier.ProofSupport.PartialRun

variable {σ ι ω : Type*}

/-- Every step meets the condition, as far as the run gets. -/
def Along (step : σ → ι → Option (ω × σ)) (P : σ → ι → Prop) : σ → List ι → Prop
  | _, [] => True
  | s, i :: is => P s i ∧ ∀ next ∈ step s i, Along step P next.2 is

/-- No step fails, and every output is as required. -/
def Every (step : σ → ι → Option (ω × σ)) (Q : σ → ι → ω → Prop) : σ → List ι → Prop
  | _, [] => True
  | s, i :: is => ∃ output s', step s i = some (output, s') ∧ Q s i output ∧ Every step Q s' is

def run (step : σ → ι → Option (ω × σ)) : σ → List ι → Option σ
  | s, [] => some s
  | s, i :: is => (step s i).bind fun next => run step next.2 is

/-- The inputs with their outputs, and the state after all of them, if no step fails. -/
def history (step : σ → ι → Option (ω × σ)) : σ → List ι → Option (List (ι × ω) × σ)
  | s, [] => some ([], s)
  | s, i :: is =>
    (step s i).bind fun next =>
      (history step next.2 is).map fun rest => ((i, next.1) :: rest.1, rest.2)

instance Along.decidable (step : σ → ι → Option (ω × σ)) (P : σ → ι → Prop)
    [∀ s i, Decidable (P s i)] : ∀ s is, Decidable (Along step P s is)
  | _, [] => .isTrue trivial
  | s, i :: is =>
    have := fun next : ω × σ => Along.decidable step P next.2 is
    inferInstanceAs (Decidable (P s i ∧ ∀ next ∈ step s i, Along step P next.2 is))

variable {step : σ → ι → Option (ω × σ)} {s : σ} {is : List ι}

theorem along_of_forall {P : ι → Prop} (hinputs : ∀ i ∈ is, P i) :
    Along step (fun _ i => P i) s is := by
  induction is generalizing s with
  | nil => trivial
  | cons i is ih =>
    exact ⟨hinputs i (by simp), fun next _ => ih fun j hj => hinputs j (by simp [hj])⟩

variable {P : σ → ι → Prop} {I : σ → Prop}

/-- An invariant under which every step that meets the condition succeeds carries through
every run whose steps meet it. -/
theorem every_of_invariant {Q : σ → ι → ω → Prop}
    (hstep : ∀ s i, I s → P s i → ∃ output s', step s i = some (output, s') ∧ Q s i output ∧ I s')
    (hinit : I s) (halong : Along step P s is) : Every step Q s is := by
  induction is generalizing s with
  | nil => trivial
  | cons i is ih =>
    obtain ⟨output, s', hnext, houtput, hinv⟩ := hstep s i hinit halong.1
    exact ⟨output, s', hnext, houtput, ih hinv (halong.2 (output, s') hnext)⟩

/-- An invariant under which every step that meets the condition succeeds holds at the end of
every run whose steps meet it. -/
theorem run_of_invariant
    (hstep : ∀ s i, I s → P s i → ∃ output s', step s i = some (output, s') ∧ I s')
    (hinit : I s) (halong : Along step P s is) : ∃ s', run step s is = some s' ∧ I s' := by
  induction is generalizing s with
  | nil => exact ⟨s, rfl, hinit⟩
  | cons i is ih =>
    obtain ⟨output, s', hnext, hinv⟩ := hstep s i hinit halong.1
    obtain ⟨last, hrun, hlast⟩ := ih hinv (halong.2 (output, s') hnext)
    exact ⟨last, by rw [run, hnext, Option.bind_some, hrun], hlast⟩

/-- An invariant of the state and of what has happened so far survives every run whose steps
meet the condition. -/
theorem history_of_invariant {I : List (ι × ω) → σ → Prop}
    (hstep : ∀ past s i output s', I past s → P s i → step s i = some (output, s') →
      I (past ++ [(i, output)]) s') {past : List (ι × ω)} (hinit : I past s)
    (halong : Along step P s is) {events : List (ι × ω)} {last : σ}
    (hrun : history step s is = some (events, last)) : I (past ++ events) last := by
  induction is generalizing s past events with
  | nil =>
    cases hrun
    simpa using hinit
  | cons i is ih =>
    rw [history, Option.bind_eq_some_iff] at hrun
    obtain ⟨⟨output, s'⟩, hnext, hrest⟩ := hrun
    obtain ⟨⟨later, final⟩, htail, heq⟩ := Option.map_eq_some_iff.mp hrest
    cases heq
    have hlast := ih (hstep past s i output s' hinit halong.1 hnext)
      (halong.2 (output, s') hnext) htail
    simpa using hlast

end LowerTier.ProofSupport.PartialRun
