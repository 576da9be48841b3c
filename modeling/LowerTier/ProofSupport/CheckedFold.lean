import Mathlib.Data.List.Basic

/-!
# Folds that may stop with an error

A loop with early returns is a fold in `Except`; it succeeds where every step does.
-/

namespace LowerTier.ProofSupport.CheckedFold

variable {α β ε : Type} {f : β → α → Except ε β} {xs : List α} {b b' : β}

theorem bind_eq_ok {γ : Type} {x : Except ε β} {k : β → Except ε γ} {c : γ} :
    x.bind k = .ok c ↔ ∃ mid, x = .ok mid ∧ k mid = .ok c := by
  cases x <;> simp [Except.bind]

theorem foldlM_cons_eq_ok {x : α} :
    (x :: xs).foldlM f b = .ok b' ↔ ∃ mid, f b x = .ok mid ∧ xs.foldlM f mid = .ok b' :=
  bind_eq_ok

theorem map_eq_ok {γ : Type} {x : Except ε β} {k : β → γ} {c : γ} :
    x.map k = .ok c ↔ ∃ mid, x = .ok mid ∧ k mid = c := by
  cases x <;> simp [Except.map]

theorem mapM_eq_some_map {f : α → Option β} {g : α → β} (h : ∀ x ∈ xs, f x = some (g x)) :
    xs.mapM f = some (xs.map g) := by
  induction xs with
  | nil => rfl
  | cons x xs ih =>
    rw [List.mapM_cons, h x List.mem_cons_self, ih fun y hy => h y (List.mem_cons_of_mem _ hy)]
    rfl

end LowerTier.ProofSupport.CheckedFold
