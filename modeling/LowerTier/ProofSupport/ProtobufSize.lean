import Mathlib.Algebra.Order.Group.Nat
import Mathlib.Data.Nat.Log
import Mathlib.Tactic.Common

/-!
# Sizes of protobuf encodings

The encoded length of a message is the sum of the lengths of its fields.  A scalar field
with the default value and an empty byte field are not written.
-/

namespace LowerTier.ProofSupport.ProtobufSize

def varintLen (n : Nat) : Nat := n.log2 / 7 + 1

/-- The key of a field: its number and three bits of wire type. -/
def keyLen (tag : Nat) : Nat := varintLen (tag * 8)

def varintField (tag n : Nat) : Nat := if n = 0 then 0 else keyLen tag + varintLen n

/-- A message that is present, also if it is empty. -/
def messageField (tag length : Nat) : Nat := keyLen tag + varintLen length + length

def bytesField (tag length : Nat) : Nat :=
  if length = 0 then 0 else keyLen tag + varintLen length + length

theorem varintLen_mono {m n : Nat} (hle : m ≤ n) : varintLen m ≤ varintLen n := by
  have hlog : m.log2 ≤ n.log2 := by
    rw [Nat.log2_eq_log_two, Nat.log2_eq_log_two]
    exact Nat.log_mono_right hle
  unfold varintLen
  omega

theorem varintField_mono (tag : Nat) {m n : Nat} (hle : m ≤ n) :
    varintField tag m ≤ varintField tag n := by
  have hlen := varintLen_mono hle
  unfold varintField
  split <;> split <;> omega

theorem varintLen_le {n : Nat} (hlt : n < 2 ^ 64) : varintLen n ≤ 10 := by
  unfold varintLen
  by_cases hzero : n = 0
  · simp [hzero]
  · have hlog := (Nat.log2_lt hzero).mpr hlt
    omega

theorem varintField_le {tag n : Nat} (hlt : n < 2 ^ 64) : varintField tag n ≤ keyLen tag + 10 := by
  have hlen := varintLen_le hlt
  unfold varintField
  split <;> omega

theorem bytesField_le {tag length : Nat} (hlt : length < 2 ^ 64) :
    bytesField tag length ≤ keyLen tag + 10 + length := by
  have hlen := varintLen_le hlt
  unfold bytesField
  split <;> omega

theorem messageField_le {tag length : Nat} (hlt : length < 2 ^ 64) :
    messageField tag length ≤ keyLen tag + 10 + length := by
  have hlen := varintLen_le hlt
  unfold messageField
  omega

end LowerTier.ProofSupport.ProtobufSize
