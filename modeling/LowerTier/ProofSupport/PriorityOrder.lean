import Mathlib.Data.List.MinMax
import Mathlib.Data.List.Sort

/-!
# First match in order of priority

A list sorted by descending priority, with equal priorities in the order of the list, is
scanned for the first item that passes a test.  The scan finds what `argmax` finds among the
items that pass: the one of highest priority, and the first of these.
-/

namespace LowerTier.ProofSupport.PriorityOrder

open List

variable {α β : Type*} [LinearOrder β] (priority : α → β) (test : α → Bool)

theorem find?_orderedInsert (item : α) {sorted : List α}
    (hsorted : sorted.Pairwise fun left right => priority right ≤ priority left) :
    (sorted.orderedInsert (fun left right => priority right ≤ priority left) item).find? test =
      if test item then
        (sorted.find? test).elim (some item) fun found =>
          if priority item < priority found then some found else some item
      else
        sorted.find? test := by
  induction sorted with
  | nil => cases htest : test item <;> simp [htest]
  | cons head tail ih =>
    obtain ⟨hhead, htail⟩ := pairwise_cons.mp hsorted
    rw [orderedInsert]
    by_cases hle : priority head ≤ priority item
    · -- the new item comes first, and nothing behind it has a higher priority
      rw [if_pos hle, find?_cons]
      by_cases hitem : test item = true
      · have hnone : ∀ found, (head :: tail).find? test = some found →
            ¬priority item < priority found := by
          intro found hfound
          apply not_lt.mpr
          rcases mem_cons.mp (mem_of_find?_eq_some hfound) with rfl | hmem
          · exact hle
          · exact (hhead found hmem).trans hle
        cases hfind : (head :: tail).find? test with
        | none => simp [hitem]
        | some found => simp [hitem, hnone found hfind]
      · simp [hitem]
    · rw [if_neg hle, find?_cons, find?_cons, ih htail]
      have hlt : priority item < priority head := not_le.mp hle
      by_cases htest : test head = true
      · simp [htest, hlt]
      · simp [htest]

theorem find?_insertionSort (items : List α) :
    (items.insertionSort fun left right => priority right ≤ priority left).find? test =
      (items.filter test).argmax priority := by
  induction items with
  | nil => rfl
  | cons item items ih =>
    have hsorted : (items.insertionSort fun left right => priority right ≤ priority left).Pairwise
        fun left right => priority right ≤ priority left := by
      exact pairwise_insertionSort _ items
    rw [insertionSort_cons, find?_orderedInsert priority test item hsorted, ih, filter_cons]
    by_cases hitem : test item = true
    · rw [if_pos hitem, if_pos hitem, argmax_cons]
      cases (items.filter test).argmax priority <;> rfl
    · rw [if_neg hitem, if_neg hitem]

theorem argmax_append (early late : List α) :
    (early ++ late).argmax priority =
      match early.argmax priority, late.argmax priority with
      | none, best => best
      | some first, none => some first
      | some first, some best =>
        if priority first < priority best then some best else some first := by
  induction early with
  | nil => rfl
  | cons item early ih =>
    rw [cons_append, argmax_cons, argmax_cons, ih]
    cases hearly : early.argmax priority with
    | none => cases late.argmax priority <;> rfl
    | some first =>
      cases late.argmax priority with
      | none => dsimp only; split_ifs <;> rfl
      | some best =>
        by_cases hfirst : priority first < priority best <;>
          by_cases hitem : priority item < priority first
        · simp [hfirst, hitem, hitem.trans hfirst]
        · simp [hfirst, hitem]
        · simp [hfirst, hitem]
        · simp [hfirst, hitem, not_lt.mpr ((not_lt.mp hfirst).trans (not_lt.mp hitem))]

section

variable {γ : Type*} (items : γ → List α) (groups : List γ)

/-- The best item of all groups, against that of the first group that has any. -/
theorem findSome?_argmax_flatMap :
    (groups.findSome? (fun group => (items group).argmax priority) = none ∧
      (groups.flatMap items).argmax priority = none) ∨
    ∃ first best, groups.findSome? (fun group => (items group).argmax priority) = some first ∧
      (groups.flatMap items).argmax priority = some best ∧
        (best = first ∨ priority first < priority best) := by
  induction groups with
  | nil => exact .inl ⟨rfl, rfl⟩
  | cons group groups ih =>
    rw [findSome?_cons, flatMap_cons, argmax_append]
    cases (items group).argmax priority with
    | none => exact ih
    | some first =>
      refine .inr ⟨first, ?_⟩
      cases (groups.flatMap items).argmax priority with
      | none => exact ⟨first, rfl, rfl, .inl rfl⟩
      | some best =>
        dsimp only
        split_ifs with hlt
        · exact ⟨best, rfl, rfl, .inr hlt⟩
        · exact ⟨first, rfl, rfl, .inl rfl⟩

end

/-- The choice by `argmax` survives the loss of other items. -/
theorem argmax_filter {items : List α} {best : α} (h : items.argmax priority = some best)
    (hbest : test best = true) : (items.filter test).argmax priority = some best := by
  induction items with
  | nil => cases h
  | cons item items ih =>
    rw [argmax_cons] at h
    cases hitems : items.argmax priority with
    | none =>
      rw [hitems] at h
      cases h
      rw [argmax_eq_none.mp hitems, filter_cons_of_pos hbest]
      rfl
    | some found =>
      rw [hitems] at h
      dsimp only at h
      split_ifs at h with hlt
      · cases h
        by_cases hitem : test item = true
        · rw [filter_cons_of_pos hitem, argmax_cons, ih hitems]
          exact if_pos hlt
        · rw [filter_cons_of_neg hitem]
          exact ih hitems
      · cases h
        rw [filter_cons_of_pos hbest, argmax_cons]
        cases hkept : (items.filter test).argmax priority with
        | none => rfl
        | some other =>
          have hle := le_of_mem_argmax (mem_of_mem_filter (argmax_mem hkept)) hitems
          exact if_neg fun hother => hlt (hother.trans_le hle)

end LowerTier.ProofSupport.PriorityOrder
