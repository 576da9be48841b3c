import Mathlib.Data.List.Basic

/-!
# Runs of a deterministic step function

A component is a step function that consumes one input, changes the state and
may emit outputs.  `run` executes a list of inputs, `Always` says that a
predicate on the state before the step, on the outputs emitted so far and on
the input holds at every step of a run.  An invariant is proved for one step
and carried along a whole run by `run_invariant`; a property of every step
follows from the invariant by `always_of_invariant`.
-/

namespace LowerTier.ProofSupport.Trace

variable {σ ι ω : Type*}

def run (step : σ → ι → σ × List ω) : σ → List ι → σ × List ω
  | s, [] => (s, [])
  | s, i :: is =>
    let next := step s i
    let rest := run step next.1 is
    (rest.1, next.2 ++ rest.2)

/-- `P` holds at every step of the run from `s`, where `h` lists the outputs
emitted before `s`. -/
def Always (step : σ → ι → σ × List ω) (P : σ → List ω → ι → Prop) :
    σ → List ω → List ι → Prop
  | _, _, [] => True
  | s, h, i :: is =>
    P s h i ∧ Always step P (step s i).1 (h ++ (step s i).2) is

instance Always.decidable (step : σ → ι → σ × List ω) (P : σ → List ω → ι → Prop)
    [∀ s h i, Decidable (P s h i)] : ∀ s h is, Decidable (Always step P s h is)
  | _, _, [] => .isTrue trivial
  | s, h, i :: is =>
    have := Always.decidable step P (step s i).1 (h ++ (step s i).2) is
    inferInstanceAs (Decidable (P s h i ∧ _))

variable {step : σ → ι → σ × List ω} {s : σ} {h : List ω} {is : List ι}

@[simp] theorem run_nil : run step s [] = (s, []) := rfl

theorem run_cons (i : ι) :
    run step s (i :: is) =
      ((run step (step s i).1 is).1, (step s i).2 ++ (run step (step s i).1 is).2) := rfl

variable (js : List ι)

theorem run_append_fst : (run step s (is ++ js)).1 = (run step (run step s is).1 js).1 := by
  induction is generalizing s with
  | nil => rfl
  | cons i is ih => exact ih

theorem run_append_snd :
    (run step s (is ++ js)).2 = (run step s is).2 ++ (run step (run step s is).1 js).2 := by
  induction is generalizing s with
  | nil => rfl
  | cons i is ih =>
    rw [List.cons_append, run_cons, run_cons, ih, List.append_assoc]

variable {P Q : σ → List ω → ι → Prop}

theorem Always.and (hP : Always step P s h is)
    (hQ : Always step Q s h is) : Always step (fun s h i => P s h i ∧ Q s h i) s h is := by
  induction is generalizing s h with
  | nil => trivial
  | cons i is ih => exact ⟨⟨hP.1, hQ.1⟩, ih hP.2 hQ.2⟩

theorem always_append {js : List ι} (hfirst : Always step P s h is)
    (hsecond : Always step P (run step s is).1 (h ++ (run step s is).2) js) :
    Always step P s h (is ++ js) := by
  induction is generalizing s h with
  | nil => simpa using hsecond
  | cons i is ih =>
    refine ⟨hfirst.1, ih hfirst.2 ?_⟩
    rw [run_cons] at hsecond
    simpa [List.append_assoc] using hsecond

variable {I : σ → List ω → Prop}

section

variable (hstep : ∀ s h i, I s h → P s h i → I (step s i).1 (h ++ (step s i).2))
include hstep

/-- An invariant of the state and of the outputs so far survives every run
whose steps all meet the side condition `P`. -/
theorem run_invariant (hinit : I s h) (hall : Always step P s h is) :
    I (run step s is).1 (h ++ (run step s is).2) := by
  induction is generalizing s h with
  | nil => simpa using hinit
  | cons i is ih =>
    have hnext := ih (hstep s h i hinit hall.1) hall.2
    rw [run_cons]
    simpa [List.append_assoc] using hnext

/-- Under an invariant that every step with the side condition `P` preserves, what the two imply
of one step holds at every step of every run whose steps all meet `P`. -/
theorem always_of_always (himp : ∀ s h i, I s h → P s h i → Q s h i) (hinit : I s h)
    (hall : Always step P s h is) : Always step Q s h is := by
  induction is generalizing s h with
  | nil => trivial
  | cons i is ih => exact ⟨himp s h i hinit hall.1, ih (hstep s h i hinit hall.1) hall.2⟩

end

variable (hstep : ∀ s h i, I s h → I (step s i).1 (h ++ (step s i).2))
include hstep

/-- Under an invariant that every step preserves, what the invariant implies
of one step holds at every step of every run. -/
theorem always_of_invariant (himp : ∀ s h i, I s h → Q s h i) (hinit : I s h) :
    Always step Q s h is := by
  induction is generalizing s h with
  | nil => trivial
  | cons i is ih => exact ⟨himp s h i hinit, ih (hstep s h i hinit)⟩

theorem run_preserves (hinit : I s h) : I (run step s is).1 (h ++ (run step s is).2) :=
  run_invariant (fun s h i hinv _ => hstep s h i hinv) hinit
    (always_of_invariant hstep (fun _ _ _ _ => trivial) hinit)

end LowerTier.ProofSupport.Trace
