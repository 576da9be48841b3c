import Mathlib.Data.List.Basic
import Mathlib.Tactic.Ring

/-!
# Byte strings

Fixed-width little-endian and big-endian encodings of naturals over any width,
and the bounds-checked slices of a byte string.  A slice or an index that would
panic in the source is `none` here.
-/

namespace LowerTier.ProofSupport.ByteString

open Nat List

abbrev Bytes := List UInt8

def leBytes : Nat → Nat → Bytes
  | 0, _ => []
  | width + 1, n => UInt8.ofNat (n % 256) :: leBytes width (n / 256)

def leValue : Bytes → Nat
  | [] => 0
  | b :: bs => b.toNat + 256 * leValue bs

def beBytes (width n : Nat) : Bytes := (leBytes width n).reverse

def beValue (bs : Bytes) : Nat := leValue bs.reverse

variable (width n : Nat)

@[simp] theorem length_leBytes : (leBytes width n).length = width := by
  induction width generalizing n with
  | zero => rfl
  | succ width ih => simp [leBytes, ih]

@[simp] theorem length_beBytes : (beBytes width n).length = width := by
  simp [beBytes]

theorem leValue_lt (bs : Bytes) : leValue bs < 256 ^ bs.length := by
  induction bs with
  | nil => simp [leValue]
  | cons b bs ih =>
    have hb : b.toNat < 256 := b.toNat_lt
    rw [leValue, length_cons, pow_succ]
    omega

theorem leValue_leBytes {width n : Nat} (hn : n < 256 ^ width) : leValue (leBytes width n) = n := by
  induction width generalizing n with
  | zero =>
    have hzero : n = 0 := by simpa using hn
    simp [leBytes, leValue, hzero]
  | succ width ih =>
    have hdiv : n / 256 < 256 ^ width := by
      exact Nat.div_lt_of_lt_mul (by omega)
    have hbyte : (UInt8.ofNat (n % 256)).toNat = n % 256 := by simp
    rw [leBytes, leValue, ih hdiv, hbyte]
    omega

theorem leBytes_leValue (bs : Bytes) : leBytes bs.length (leValue bs) = bs := by
  induction bs with
  | nil => rfl
  | cons b bs ih =>
    have hb : b.toNat < 256 := b.toNat_lt
    have hmod : (b.toNat + 256 * leValue bs) % 256 = b.toNat := by omega
    have hdiv : (b.toNat + 256 * leValue bs) / 256 = leValue bs := by omega
    rw [length_cons, leValue, leBytes, hmod, hdiv, ih]
    simp

theorem leBytes_succ :
    leBytes (width + 1) n = leBytes width n ++ [UInt8.ofNat (n / 256 ^ width % 256)] := by
  induction width generalizing n with
  | zero => simp [leBytes]
  | succ width ih =>
    rw [leBytes, ih, leBytes, cons_append, Nat.div_div_eq_div_mul, ← Nat.pow_succ']

theorem leValue_append (low high : Bytes) :
    leValue (low ++ high) = leValue low + 256 ^ low.length * leValue high := by
  induction low with
  | nil => simp [leValue]
  | cons b low ih =>
    rw [cons_append, leValue, ih, leValue, length_cons, pow_succ']
    ring

theorem leBytes_mod : leBytes width (n % 256 ^ width) = leBytes width n := by
  induction width generalizing n with
  | zero => rfl
  | succ width ih =>
    have hlow : n % 256 ^ (width + 1) % 256 = n % 256 :=
      mod_mod_of_dvd _ (dvd_pow_self 256 (succ_ne_zero width))
    have hhigh : n % 256 ^ (width + 1) / 256 = n / 256 % 256 ^ width := by
      rw [pow_succ', mod_mul_right_div_self]
    rw [leBytes, hlow, hhigh, ih, leBytes]

theorem beBytes_succ :
    beBytes (width + 1) n = UInt8.ofNat (n / 256 ^ width % 256) :: beBytes width n := by
  rw [beBytes, leBytes_succ, reverse_append]
  rfl

theorem beValue_cons (b : UInt8) (bs : Bytes) :
    beValue (b :: bs) = b.toNat * 256 ^ bs.length + beValue bs := by
  rw [beValue, reverse_cons, leValue_append, length_reverse, beValue]
  simp [leValue]
  ring

theorem beValue_beBytes_mod : beValue (beBytes width n) = n % 256 ^ width := by
  rw [beValue, beBytes, reverse_reverse, ← leBytes_mod]
  exact leValue_leBytes (Nat.mod_lt _ (Nat.pow_pos (by omega)))

/-- `bytes[start..stop]`, or `none` where the source would panic. -/
def slice (bytes : Bytes) (start stop : Nat) : Option Bytes :=
  if start ≤ stop ∧ stop ≤ bytes.length then
    some ((bytes.drop start).take (stop - start))
  else
    none

/-- `bytes.copy_within(start..stop, dest)`. -/
def copyWithin (bytes : Bytes) (start stop dest : Nat) : Option Bytes :=
  if start ≤ stop ∧ stop ≤ bytes.length ∧ dest + (stop - start) ≤ bytes.length then
    some (bytes.take dest ++ (bytes.drop start).take (stop - start) ++
      bytes.drop (dest + (stop - start)))
  else
    none

/-- `bytes[start..stop].copy_from_slice(source)`. -/
def copyFromSlice (bytes : Bytes) (start stop : Nat) (source : Bytes) : Option Bytes :=
  if start ≤ stop ∧ stop ≤ bytes.length ∧ source.length = stop - start then
    some (bytes.take start ++ source ++ bytes.drop stop)
  else
    none

def setByte (bytes : Bytes) (index : Nat) (value : UInt8) : Option Bytes :=
  if index < bytes.length then some (bytes.set index value) else none

variable {start stop : Nat}

theorem slice_append_middle (head middle tail : Bytes)
    (hstart : start = head.length) (hstop : stop = head.length + middle.length) :
    slice (head ++ middle ++ tail) start stop = some middle := by
  subst hstart hstop
  unfold slice
  simp

theorem copyFromSlice_append_middle (head middle tail source : Bytes) (hstart : start = head.length)
    (hstop : stop = head.length + middle.length) (hsource : source.length = middle.length) :
    copyFromSlice (head ++ middle ++ tail) start stop source = some (head ++ source ++ tail) := by
  subst hstart hstop
  have htake : (head ++ middle ++ tail).take head.length = head := by
    rw [append_assoc, take_left]
  have hdrop : (head ++ middle ++ tail).drop (head.length + middle.length) = tail := by
    rw [← length_append, drop_left]
  unfold copyFromSlice
  rw [if_pos ⟨by omega, by simp, by omega⟩, htake, hdrop]

theorem getElem?_append_middle (head : Bytes) (b : UInt8) (tail : Bytes) {index : Nat}
    (hindex : index = head.length) : (head ++ b :: tail)[index]? = some b := by
  subst hindex
  simp

theorem copyWithin_suffix (head gap suffix : Bytes)
    (hstart : start = head.length + gap.length) (hstop : stop = start + suffix.length) :
    copyWithin (head ++ gap ++ suffix) start stop head.length =
      some (head ++ suffix ++ (head ++ gap ++ suffix).drop (head.length + suffix.length)) := by
  subst hstart hstop
  have htake : (head ++ gap ++ suffix).take head.length = head := by
    rw [append_assoc, take_left]
  have hdrop : (head ++ gap ++ suffix).drop (head.length + gap.length) = suffix := by
    rw [← length_append, drop_left]
  unfold copyWithin
  rw [if_pos (by simp; omega), htake, hdrop, Nat.add_sub_cancel_left, take_length]

theorem setByte_append_middle (head : Bytes) (old new : UInt8) (tail : Bytes) {index : Nat}
    (hindex : index = head.length) :
    setByte (head ++ old :: tail) index new = some (head ++ new :: tail) := by
  subst hindex
  simp [setByte]

section Chunks

variable {α : Type*}

/-- `chunks`: consecutive pieces of `size` elements, the last one possibly shorter. -/
def chunks (size : Nat) (items : List α) : List (List α) :=
  (range ((items.length + size - 1) / size)).map fun i => (items.drop (i * size)).take size

@[simp] theorem length_chunks (size : Nat) (items : List α) :
    (chunks size items).length = (items.length + size - 1) / size := by
  simp [chunks]

theorem length_le_of_mem_chunks {size : Nat} {items piece : List α}
    (hpiece : piece ∈ chunks size items) : piece.length ≤ size := by
  simp only [chunks, mem_map] at hpiece
  obtain ⟨i, -, rfl⟩ := hpiece
  exact length_take_le _ _

theorem flatten_first_chunks (size count : Nat) (items : List α) :
    ((range count).map fun i => (items.drop (i * size)).take size).flatten =
      items.take (count * size) := by
  induction count with
  | zero => simp
  | succ count ih =>
    rw [range_succ, map_append, flatten_append, ih, succ_mul, take_add]
    simp

theorem flatten_chunks {size : Nat} (hsize : 0 < size) (items : List α) :
    (chunks size items).flatten = items := by
  have hcover : items.length ≤ (items.length + size - 1) / size * size := by
    have hdivide := div_add_mod (items.length + size - 1) size
    have hrest := mod_lt (items.length + size - 1) hsize
    rw [mul_comm] at hdivide
    omega
  rw [chunks, flatten_first_chunks, take_of_length_le hcover]

end Chunks

end LowerTier.ProofSupport.ByteString
