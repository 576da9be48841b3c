import Mathlib.Algebra.Group.Int.Defs
import Mathlib.Algebra.Order.Group.Nat
import Mathlib.Tactic.Common

/-!
# Machine integers as naturals

The `w`-bit operations that the sources call by name, on naturals: saturation
clamps at `maxValue w`, wrapping reduces modulo `2 ^ w`.
-/

namespace LowerTier.ProofSupport.MachineInt

def maxValue (w : Nat) : Nat := 2 ^ w - 1

variable (w a b : Nat)

def saturatingAdd : Nat := min (a + b) (maxValue w)

def saturatingMul : Nat := min (a * b) (maxValue w)

def wrappingAdd : Nat := (a + b) % 2 ^ w

def wrappingSub : Nat := (a + (2 ^ w - b % 2 ^ w)) % 2 ^ w

def checkedAdd : Option Nat := if a + b < 2 ^ w then some (a + b) else none

def checkedSub (a b : Nat) : Option Nat := if b ≤ a then some (a - b) else none

/-- A signed result clamped to `w` bits. -/
def saturatingInt (w : Nat) (value : Int) : Int :=
  max (-2 ^ (w - 1)) (min value (2 ^ (w - 1) - 1))

theorem le_of_saturatingInt_le {w : Nat} {value bound : Int} (hle : saturatingInt w value ≤ bound)
    (hbound : bound < 2 ^ (w - 1) - 1) : value ≤ bound := by
  have hmin : min value (2 ^ (w - 1) - 1) ≤ bound := (le_max_right _ _).trans hle
  rcases min_le_iff.mp hmin with hvalue | habove
  · exact hvalue
  · exact absurd habove (not_le.mpr hbound)

theorem checkedAdd_of_lt {w a b : Nat} (hlt : a + b < 2 ^ w) : checkedAdd w a b = some (a + b) :=
  if_pos hlt

theorem checkedSub_of_le {a b : Nat} (hle : b ≤ a) : checkedSub a b = some (a - b) := if_pos hle

theorem saturatingAdd_of_lt {w a b : Nat} (hlt : a + b < 2 ^ w) : saturatingAdd w a b = a + b :=
  Nat.min_eq_left (Nat.le_sub_one_of_lt hlt)

theorem wrappingAdd_of_lt {w a b : Nat} (hlt : a + b < 2 ^ w) : wrappingAdd w a b = a + b :=
  Nat.mod_eq_of_lt hlt

end LowerTier.ProofSupport.MachineInt
