import Mathlib.Algebra.Order.Group.Nat
import Mathlib.Algebra.Ring.Nat
import Mathlib.Tactic.Common

/-!
# A bucket with a fixed-point level

The level of a bucket is a number of whole units and a part of a unit.  `pour` adds an
amount given in parts: full units are carried over and clipped at the capacity, the rest
stays as part.  The lemmas say that pouring adds the amount exactly as long as nothing is
clipped, never adds more, and reaches a level as soon as the amounts reach it.
-/

namespace LowerTier.ProofSupport.FixedPointBucket

open Nat

structure Level where
  whole : Nat
  part : Nat
deriving DecidableEq

def Level.value (unit : Nat) (level : Level) : Nat := level.whole * unit + level.part

def pour (unit capacity : Nat) (level : Level) (amount : Nat) : Level where
  whole := min capacity (level.whole + (amount + level.part) / unit)
  part := (amount + level.part) % unit

variable {unit capacity amount more need : Nat} {level : Level}

theorem whole_pour_le : (pour unit capacity level amount).whole ≤ capacity := min_le_left _ _

theorem part_pour_lt (hunit : 0 < unit) : (pour unit capacity level amount).part < unit :=
  mod_lt _ hunit

theorem carry_value (unit capacity amount : Nat) (level : Level) :
    (level.whole + (amount + level.part) / unit) * unit + (pour unit capacity level amount).part =
      level.value unit + amount := by
  have hsplit : (amount + level.part) / unit * unit + (amount + level.part) % unit =
      amount + level.part := div_add_mod' _ _
  simp only [pour, Level.value, add_mul]
  omega

theorem value_pour_le :
    (pour unit capacity level amount).value unit ≤ level.value unit + amount := by
  rw [← carry_value unit capacity amount level]
  exact Nat.add_le_add_right (Nat.mul_le_mul_right unit (Nat.min_le_right _ _)) _

theorem value_pour_eq (hfits : level.whole + (amount + level.part) / unit ≤ capacity) :
    (pour unit capacity level amount).value unit = level.value unit + amount := by
  rw [← carry_value unit capacity amount level]
  simp only [Level.value, pour, min_eq_right hfits]

theorem whole_pour_eq (hclipped : capacity ≤ level.whole + (amount + level.part) / unit) :
    (pour unit capacity level amount).whole = capacity := min_eq_left hclipped

/-- What is poured after an earlier moment counts from the level at that moment. -/
theorem value_pour_add_le : (pour unit capacity level (amount + more)).value unit ≤
      (pour unit capacity level amount).value unit + more := by
  by_cases hfits : level.whole + (amount + level.part) / unit ≤ capacity
  · rw [value_pour_eq hfits, add_assoc]
    exact value_pour_le
  have hwhole : (pour unit capacity level amount).whole = capacity :=
    whole_pour_eq (Nat.le_of_not_le hfits)
  have hmore : (pour unit capacity level (amount + more)).whole ≤ capacity := whole_pour_le
  have hpart : (pour unit capacity level (amount + more)).part ≤
      (pour unit capacity level amount).part + more := by
    have hsum : amount + more + level.part = amount + level.part + more := by omega
    simp only [pour, hsum, add_mod (amount + level.part) more unit]
    calc
      ((amount + level.part) % unit + more % unit) % unit
          ≤ (amount + level.part) % unit + more % unit := mod_le _ _
      _ ≤ (amount + level.part) % unit + more := Nat.add_le_add_left (Nat.mod_le _ _) _
  have hscaled := mul_le_mul_right unit (hmore.trans_eq hwhole.symm)
  simp only [Level.value]
  omega

/-- A level that the amounts reach is still reached after a part of them is poured. -/
theorem reach_pour (hneed : need ≤ capacity)
    (hreach : need * unit ≤ level.value unit + amount + more) :
    need * unit ≤ (pour unit capacity level amount).value unit + more := by
  by_cases hfits : level.whole + (amount + level.part) / unit ≤ capacity
  · rw [value_pour_eq hfits]
    exact hreach
  have hwhole : (pour unit capacity level amount).whole = capacity :=
    whole_pour_eq (Nat.le_of_not_le hfits)
  have hscaled := mul_le_mul_right unit (hneed.trans_eq hwhole.symm)
  simp only [Level.value]
  omega

/-- The part is less than a unit, so a reached level is reached in whole units. -/
theorem need_le_whole (hunit : 0 < unit) (hneed : need ≤ capacity)
    (hreach : need * unit ≤ level.value unit + amount) :
    need ≤ (pour unit capacity level amount).whole := by
  have hvalue : need * unit ≤ (pour unit capacity level amount).value unit :=
    reach_pour hneed (show need * unit ≤ level.value unit + amount + 0 from hreach)
  have hpart : (pour unit capacity level amount).part < unit := part_pour_lt hunit
  have hlt : need * unit < ((pour unit capacity level amount).whole + 1) * unit := by
    rw [add_mul, one_mul]
    exact hvalue.trans_lt (Nat.add_lt_add_left hpart _)
  exact Nat.le_of_lt_succ (Nat.lt_of_mul_lt_mul_right hlt)

end LowerTier.ProofSupport.FixedPointBucket
