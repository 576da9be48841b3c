import Mathlib.Data.List.Basic

/-!
# Numbered objects

A component that creates objects and refers to them later keeps them in a list and numbers them in
the order of their creation.  An object is added at the end or changed where it stands.
-/

namespace LowerTier.ProofSupport.Arena

open List

variable {α : Type*} {objects : List α} {number : Nat} {object : α}

theorem getElem?_append_one {new : α} :
    (objects ++ [new])[number]? = some object ↔
      objects[number]? = some object ∨ number = objects.length ∧ object = new := by
  rw [getElem?_append]
  split
  · next hlt => exact ⟨.inl, fun h => h.resolve_right fun hlast => absurd hlast.1 (by omega)⟩
  next hge =>
  have hnone : objects[number]? = none := getElem?_eq_none (by omega)
  rw [hnone]
  by_cases hlast : number = objects.length
  · subst hlast
    simp [eq_comm]
  · have hout : ([new] : List α)[number - objects.length]? = none :=
      getElem?_eq_none (by rw [length_singleton]; omega)
    simp [hout, hlast]

theorem getElem?_last (new : α) : (objects ++ [new])[objects.length]? = some new :=
  getElem?_append_one.mpr (.inr ⟨rfl, rfl⟩)

theorem getElem?_append_of_some (h : objects[number]? = some object) (new : α) :
    (objects ++ [new])[number]? = some object :=
  getElem?_append_one.mpr (.inl h)

theorem lt_length (h : objects[number]? = some object) : number < objects.length :=
  (List.getElem?_eq_some_iff.mp h).1

variable {f : α → α}

/-- An object is changed where it stands; those before and after it stay. -/
theorem exists_modify_eq (h : objects[number]? = some object) :
    ∃ before after, objects = before ++ object :: after ∧
      ∀ f : α → α, objects.modify number f = before ++ f object :: after := by
  obtain ⟨hlt, rfl⟩ := List.getElem?_eq_some_iff.mp h
  refine ⟨objects.take number, objects.drop (number + 1), ?_, fun f => ?_⟩
  · rw [getElem_cons_drop, take_append_drop]
  · rw [modify_eq_take_cons_drop hlt]

theorem exists_modify_perm (h : objects[number]? = some object) :
    ∃ rest, objects ~ object :: rest ∧ ∀ f : α → α, objects.modify number f ~ f object :: rest := by
  obtain ⟨before, after, hsplit, hmodify⟩ := exists_modify_eq h
  exact ⟨before ++ after, hsplit ▸ perm_middle, fun f => hmodify f ▸ perm_middle⟩

theorem mem_modify (h : object ∈ objects.modify number f) :
    object ∈ objects ∨ ∃ old, objects[number]? = some old ∧ object = f old := by
  cases hold : objects[number]? with
  | none =>
    rw [modify_eq_self (getElem?_eq_none_iff.mp hold)] at h
    exact .inl h
  | some old =>
    obtain ⟨before, after, rfl, hmodify⟩ := exists_modify_eq hold
    rw [hmodify] at h
    grind

theorem mem_modify_of_mem (h : object ∈ objects) : object ∈ objects.modify number f ∨
    objects[number]? = some object ∧ f object ∈ objects.modify number f := by
  cases hold : objects[number]? with
  | none =>
    rw [modify_eq_self (getElem?_eq_none_iff.mp hold)]
    exact .inl h
  | some old =>
    obtain ⟨before, after, rfl, hmodify⟩ := exists_modify_eq hold
    rw [hmodify]
    grind

theorem map_modify {β : Type*} {g : α → β}
    (h : ∀ old, objects[number]? = some old → g (f old) = g old) :
    (objects.modify number f).map g = objects.map g := by
  cases hold : objects[number]? with
  | none => rw [modify_eq_self (getElem?_eq_none_iff.mp hold)]
  | some old =>
    have hsame := h old hold
    obtain ⟨before, after, rfl, hmodify⟩ := exists_modify_eq hold
    rw [hmodify, map_append, map_append, map_cons, map_cons, hsame]

theorem getElem?_modify_some {changed : Nat} :
    (objects.modify changed f)[number]? = some object ↔
      ∃ old, objects[number]? = some old ∧ object = if changed = number then f old else old := by
  rw [getElem?_modify]
  constructor
  · intro h
    obtain ⟨old, hold, rfl⟩ := Option.map_eq_some_iff.mp h
    exact ⟨old, hold, rfl⟩
  · rintro ⟨old, hold, rfl⟩
    rw [hold]
    rfl

end LowerTier.ProofSupport.Arena
