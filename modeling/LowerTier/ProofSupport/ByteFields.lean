import LowerTier.ProofSupport.ByteString

/-!
# Fields at fixed offsets

A header is a byte string whose fields stand at fixed offsets, most significant byte first.
`field` reads one and `setField` replaces one; a replaced field is read back, and fields beside it
keep their values.
-/

namespace LowerTier.ProofSupport.ByteFields

open List ProofSupport.ByteString

def field (bytes : Bytes) (offset width : Nat) : Nat := beValue ((bytes.drop offset).take width)

def setField (bytes : Bytes) (offset width value : Nat) : Bytes :=
  bytes.take offset ++ beBytes width value ++ bytes.drop (offset + width)

variable {bytes : Bytes} {offset width value : Nat}

section

variable (hfits : offset + width ≤ bytes.length)
include hfits

theorem length_setField : (setField bytes offset width value).length = bytes.length := by
  simp only [setField, length_append, length_take, length_drop, length_beBytes]
  omega

theorem field_setField :
    field (setField bytes offset width value) offset width = value % 256 ^ width := by
  have htake : (bytes.take offset).length = offset := by
    rw [length_take]
    omega
  rw [field, setField, append_assoc, drop_left' htake,
    take_left' (length_beBytes width value), beValue_beBytes_mod]

theorem take_setField {stop : Nat} (hstop : stop ≤ offset) :
    (setField bytes offset width value).take stop = bytes.take stop := by
  have hle : stop ≤ (bytes.take offset).length := by
    rw [length_take]
    omega
  rw [setField, append_assoc, take_append_of_le_length hle, take_take, min_eq_left hstop]

theorem drop_setField {start : Nat} (hstart : offset + width ≤ start) :
    (setField bytes offset width value).drop start = bytes.drop start := by
  have hlength : (bytes.take offset ++ beBytes width value).length = offset + width := by
    rw [length_append, length_take, length_beBytes]
    omega
  have hstep : offset + width + (start - (offset + width)) = start := by omega
  rw [setField, drop_append, drop_eq_nil_of_le (by omega), nil_append, hlength, drop_drop, hstep]

theorem drop_take_setField_of_disjoint {other size : Nat}
    (hdisjoint : other + size ≤ offset ∨ offset + width ≤ other) :
    ((setField bytes offset width value).drop other).take size = (bytes.drop other).take size := by
  rcases hdisjoint with hbefore | hbehind
  · rw [take_drop, take_drop, take_setField hfits (by omega)]
  · rw [drop_setField hfits hbehind]

end

theorem field_part {start stop other size : Nat} (hfits : start + other + size ≤ stop) :
    field ((bytes.take stop).drop start) other size = field bytes (start + other) size := by
  have hbytes : (((bytes.take stop).drop start).drop other).take size =
      (bytes.drop (start + other)).take size := by
    rw [drop_drop, drop_take, take_take, min_eq_left (by omega)]
  rw [field, field, hbytes]

end LowerTier.ProofSupport.ByteFields
