import LowerTier.ProofSupport.ByteString
import Mathlib.Algebra.BigOperators.Intervals
import Mathlib.Algebra.Order.BigOperators.Group.Finset

/-!
# Pieces that tile a range

Pieces of any type with a start and a size.  Pieces that do not overlap and lie below a
bound have a total size of at most the bound, and if they have all of it they leave no gap.
The argument counts, for every position, the pieces that cover it.
-/

namespace LowerTier.ProofSupport.Tiling

open List ProofSupport.ByteString

section Pieces

variable {α : Type*} (start size : α → Nat)

def Covers (piece : α) (i : Nat) : Prop := start piece ≤ i ∧ i < start piece + size piece

instance (piece : α) (i : Nat) : Decidable (Covers start size piece i) := by
  unfold Covers
  infer_instance

def Disjoint (a b : α) : Prop := ∀ i, ¬ (Covers start size a i ∧ Covers start size b i)

variable {start size}

theorem Disjoint.symm {a b : α} (h : Disjoint start size a b) : Disjoint start size b a :=
  fun i hcovers => h i ⟨hcovers.2, hcovers.1⟩

def coverage (start size : α → Nat) (pieces : List α) (i : Nat) : Nat :=
  pieces.countP fun piece => Covers start size piece i

variable {pieces : List α}

theorem coverage_le_one (hdisjoint : pieces.Pairwise (Disjoint start size))
    (i : Nat) : coverage start size pieces i ≤ 1 := by
  induction pieces with
  | nil => simp [coverage]
  | cons piece pieces ih =>
    obtain ⟨hpiece, hrest⟩ := pairwise_cons.mp hdisjoint
    have hle := ih hrest
    by_cases hcovers : Covers start size piece i
    · -- no other piece covers the position
      have hnone : coverage start size pieces i = 0 := by
        apply countP_eq_zero.mpr
        intro other hmem hother
        exact hpiece other hmem i ⟨hcovers, of_decide_eq_true hother⟩
      unfold coverage at hnone ⊢
      rw [countP_cons_of_pos (by simpa using hcovers), hnone]
    · unfold coverage at hle ⊢
      rwa [countP_cons_of_neg (by simpa using hcovers)]

variable {bound : Nat}

theorem sum_covers {piece : α} (hbound : start piece + size piece ≤ bound) :
    (∑ i ∈ Finset.range bound, if Covers start size piece i then 1 else 0) = size piece := by
  have hfilter : (Finset.range bound).filter (fun i => Covers start size piece i) =
      Finset.Ico (start piece) (start piece + size piece) := by
    ext i
    rw [Finset.mem_filter, Finset.mem_range, Finset.mem_Ico]
    unfold Covers
    omega
  rw [← Finset.card_filter, hfilter, Nat.card_Ico]
  omega

theorem sum_coverage (hbound : ∀ piece ∈ pieces, start piece + size piece ≤ bound) :
    ∑ i ∈ Finset.range bound, coverage start size pieces i = (pieces.map size).sum := by
  induction pieces with
  | nil => simp [coverage]
  | cons piece pieces ih =>
    have hrest := ih fun other hmem => hbound other (mem_cons_of_mem _ hmem)
    have hpiece := sum_covers (hbound piece mem_cons_self)
    have hstep : ∀ i, coverage start size (piece :: pieces) i =
        (if Covers start size piece i then 1 else 0) + coverage start size pieces i := by
      simp only [coverage, countP_cons, decide_eq_true_eq]
      omega
    calc ∑ i ∈ Finset.range bound, coverage start size (piece :: pieces) i
        = ∑ i ∈ Finset.range bound, ((if Covers start size piece i then 1 else 0) +
            coverage start size pieces i) := Finset.sum_congr rfl fun i _ => hstep i
      _ = size piece + (pieces.map size).sum := by rw [Finset.sum_add_distrib, hpiece, hrest]
      _ = ((piece :: pieces).map size).sum := by rw [map_cons, sum_cons]

/-- Disjoint pieces below a bound are not larger than the bound together. -/
theorem sum_size_le (hdisjoint : pieces.Pairwise (Disjoint start size))
    (hbound : ∀ piece ∈ pieces, start piece + size piece ≤ bound) :
    (pieces.map size).sum ≤ bound := by
  calc (pieces.map size).sum
      = ∑ i ∈ Finset.range bound, coverage start size pieces i := (sum_coverage hbound).symm
    _ ≤ ∑ _i ∈ Finset.range bound, 1 := Finset.sum_le_sum fun i _ => coverage_le_one hdisjoint i
    _ = bound := by simp

/-- Disjoint pieces below a bound that have its size together leave no gap. -/
theorem exists_covers (hdisjoint : pieces.Pairwise (Disjoint start size))
    (hbound : ∀ piece ∈ pieces, start piece + size piece ≤ bound)
    (hsum : (pieces.map size).sum = bound) {i : Nat} (hi : i < bound) :
    ∃ piece ∈ pieces, Covers start size piece i := by
  by_contra hnone
  have hgap : coverage start size pieces i = 0 := by
    apply countP_eq_zero.mpr
    intro piece hmem hcovers
    exact hnone ⟨piece, hmem, of_decide_eq_true hcovers⟩
  have hlt : ∑ j ∈ Finset.range bound, coverage start size pieces j <
      ∑ _j ∈ Finset.range bound, 1 := by
    apply Finset.sum_lt_sum
    · intro j _
      exact coverage_le_one hdisjoint j
    · exact ⟨i, Finset.mem_range.mpr hi, by omega⟩
  rw [sum_coverage hbound, hsum] at hlt
  simp at hlt

end Pieces

/-! ## Writing pieces into a buffer -/

def writeAt (buffer : Bytes) (start : Nat) (bytes : Bytes) : Option Bytes :=
  if start + bytes.length ≤ buffer.length then
    some (buffer.take start ++ bytes ++ buffer.drop (start + bytes.length))
  else
    none

theorem writeAt_eq_some {buffer bytes : Bytes} {start : Nat}
    (hfits : start + bytes.length ≤ buffer.length) :
    ∃ written, writeAt buffer start bytes = some written ∧ written.length = buffer.length ∧
      (∀ i, i < bytes.length → written[start + i]? = bytes[i]?) ∧
      ∀ i, (i < start ∨ start + bytes.length ≤ i) → written[i]? = buffer[i]? := by
  have htake : (buffer.take start).length = start := by
    rw [length_take]
    omega
  refine ⟨_, if_pos hfits, ?_, ?_, ?_⟩
  · simp only [length_append, length_take, length_drop]
    omega
  · intro i hi
    rw [append_assoc, getElem?_append_right (by omega), htake,
      Nat.add_sub_cancel_left, getElem?_append_left hi]
  · rintro i (hbefore | hbehind)
    · rw [append_assoc, getElem?_append_left (by omega), getElem?_take_of_lt hbefore]
    · rw [getElem?_append_right (by rw [length_append]; omega), length_append, htake, getElem?_drop]
      congr 1
      omega

/-- Disjoint pieces written one after the other: every piece stands at its place, and a
position that none covers is as before. -/
theorem foldlM_writeAt {α : Type*} {start : α → Nat} (bytes : α → Bytes) {pieces : List α}
    (buffer : Bytes)
    (hdisjoint : pieces.Pairwise (Disjoint start fun piece => (bytes piece).length))
    (hbound : ∀ piece ∈ pieces, start piece + (bytes piece).length ≤ buffer.length) :
    ∃ written, pieces.foldlM (fun buffer piece => writeAt buffer (start piece) (bytes piece))
        buffer = some written ∧
      written.length = buffer.length ∧
      (∀ piece ∈ pieces, ∀ i, i < (bytes piece).length →
        written[start piece + i]? = (bytes piece)[i]?) ∧
      ∀ i, (∀ piece ∈ pieces, ¬ Covers start (fun piece => (bytes piece).length) piece i) →
        written[i]? = buffer[i]? := by
  induction pieces generalizing buffer with
  | nil => exact ⟨buffer, rfl, rfl, by simp, fun _ _ => rfl⟩
  | cons piece pieces ih =>
    obtain ⟨hpiece, hrest⟩ := pairwise_cons.mp hdisjoint
    obtain ⟨first, hfirst, hlength, hbytes, hother⟩ := writeAt_eq_some (hbound piece mem_cons_self)
    have hbound' : ∀ other ∈ pieces, start other + (bytes other).length ≤ first.length := by
      intro other hmem
      rw [hlength]
      exact hbound other (mem_cons_of_mem _ hmem)
    obtain ⟨written, hwritten, hlength', hbytes', hother'⟩ := ih first hrest hbound'
    refine ⟨written, ?_, by omega, ?_, ?_⟩
    · rw [foldlM_cons, hfirst]
      exact hwritten
    · intro found hmem i hi
      rcases mem_cons.mp hmem with rfl | hmem
      · -- the later pieces do not touch this one
        have hkept : written[start found + i]? = first[start found + i]? := by
          apply hother'
          intro other hmem hcovers
          exact hpiece other hmem _ ⟨⟨by omega, by simpa using hi⟩, hcovers⟩
        rw [hkept]
        exact hbytes i hi
      · exact hbytes' found hmem i hi
    · intro i hnone
      have hkept : written[i]? = first[i]? := by
        apply hother'
        intro other hmem
        exact hnone other (mem_cons_of_mem _ hmem)
      rw [hkept]
      apply hother
      have hnot : ¬ (start piece ≤ i ∧ i < start piece + (bytes piece).length) :=
        hnone piece mem_cons_self
      omega

end LowerTier.ProofSupport.Tiling
