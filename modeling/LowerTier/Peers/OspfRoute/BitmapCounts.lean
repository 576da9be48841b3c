import LowerTier.Peers.OspfRoute.MergeConvergence
import LowerTier.ProofSupport.CheckedFold
import Mathlib.Data.Nat.Count

/-!
# Counting the edges of a bitmap

The bytes of a bitmap are one stream of bits, and a row is a window of it.  The masks of
`bitmap_row_edge_count` cut the first and the last byte to the window, so that the count of a row
is the number of its set bits; rows and bytes divide the same stream.
-/

namespace LowerTier.Peers.OspfRoute

open List ProofSupport ProofSupport.CheckedFold RouteConnBitmap

section Windows

variable {p q : Nat → Prop} [DecidablePred p] [DecidablePred q]

theorem count_congr {n : Nat} (h : ∀ j < n, (p j ↔ q j)) : Nat.count p n = Nat.count q n :=
  countP_congr fun j hj => by simp [h j (mem_range.mp hj)]

/-- Pieces of one width divide a stream between them. -/
theorem count_add_sum_pieces (width first pieces : Nat) :
    Nat.count p (first * width) +
        ((range' first pieces).map fun i => Nat.count (fun j => p (i * width + j)) width).sum =
      Nat.count p ((first + pieces) * width) := by
  induction pieces with
  | zero => simp
  | succ pieces ih =>
    rw [range'_1_concat, map_append, sum_append, ← Nat.add_assoc, ih, ← Nat.add_assoc,
      Nat.succ_mul, Nat.count_add]
    simp

theorem sum_count_pieces (width pieces : Nat) :
    ((range pieces).map fun i => Nat.count (fun j => p (i * width + j)) width).sum =
      Nat.count p (pieces * width) := by
  have hpieces := count_add_sum_pieces (p := p) width 0 pieces
  simpa [range_eq_range'] using hpieces

theorem count_eq_of_forall_not {start stop : Nat} (hle : start ≤ stop)
    (hnot : ∀ idx, start ≤ idx → ¬p idx) : Nat.count p stop = Nat.count p start := by
  obtain ⟨rest, rfl⟩ := Nat.exists_eq_add_of_le hle
  rw [Nat.count_add, Nat.count_of_forall_not fun j _ => hnot _ (Nat.le_add_right start j),
    Nat.add_zero]

/-- What a stream has in a window, counted up to some point after the window. -/
theorem count_window {start length stop : Nat} (hstop : start + length ≤ stop) :
    Nat.count (fun idx => p idx ∧ start ≤ idx ∧ idx < start + length) stop =
      Nat.count (fun j => p (start + j)) length := by
  have hbefore : Nat.count (fun idx => p idx ∧ start ≤ idx ∧ idx < start + length) start = 0 :=
    Nat.count_of_forall_not fun idx hidx hwindow => by omega
  rw [count_eq_of_forall_not hstop fun idx hidx hwindow => by omega, Nat.count_add, hbefore,
    Nat.zero_add]
  exact count_congr fun j hj => and_iff_left ⟨by omega, by omega⟩

end Windows

namespace RouteConnBitmap

variable {bitmap : RouteConnBitmap} {k start stop : Nat} {byte : UInt8}

/-- The number of columns that are set in row `i`. -/
def rowEdges (bitmap : RouteConnBitmap) (i : Nat) : Nat :=
  Nat.count (fun j => bitmap.getBit (i * bitmap.peerIds.length + j) = true) bitmap.peerIds.length

/-- A set bit of the row from `start` to `stop`. -/
def InRow (bitmap : RouteConnBitmap) (start stop idx : Nat) : Prop :=
  bitmap.getBit idx = true ∧ start ≤ idx ∧ idx < stop

instance InRow.decidable : DecidablePred (bitmap.InRow start stop) := fun _ =>
  inferInstanceAs (Decidable (_ ∧ _))

theorem countOnes_eq_count (byte : UInt8) :
    countOnes byte = Nat.count (fun j => byte.toNat.testBit j = true) 8 := by
  simp [countOnes, Nat.count]

theorem testBit_eq_getBit (hbyte : bitmap.bitmap[k]? = some byte) {j : Nat} (hj : j < 8) :
    byte.toNat.testBit j = bitmap.getBit (k * 8 + j) := by
  have hdiv : (k * 8 + j) / 8 = k := by omega
  have hmod : (k * 8 + j) % 8 = j := by omega
  rw [getBit, hdiv, hmod, hbyte]

theorem testBit_highMask : ∀ shift < 8, ∀ j < 8,
    ((0xff : UInt8) <<< UInt8.ofNat shift).toNat.testBit j = decide (shift ≤ j) := by decide

theorem testBit_lowMask : ∀ bits < 8, ∀ j < 8,
    ((1 : UInt8) <<< UInt8.ofNat bits - 1).toNat.testBit j = decide (j < bits) := by decide

theorem testBit_outsideMask : ∀ bits < 8, ∀ j < 8,
    (~~~((1 : UInt8) <<< UInt8.ofNat bits - 1)).toNat.testBit j = decide (bits ≤ j) := by decide

/-- The masks leave of a byte the bits that belong to the row. -/
theorem count_rowByte (hbyte : bitmap.bitmap[k]? = some byte) (hnonempty : start < stop)
    (hfirst : start / 8 ≤ k) (hlast : k ≤ (stop - 1) / 8) :
    (rowByte bitmap start stop k).map countOnes =
      some (Nat.count (fun j => bitmap.InRow start stop (k * 8 + j)) 8) := by
  rw [rowByte, hbyte, Option.map_some, Option.map_some, countOnes_eq_count]
  congr 1
  refine count_congr fun j hj => ?_
  have hbit := testBit_eq_getBit hbyte hj
  have hmod : start % 8 < 8 := Nat.mod_lt _ (by decide)
  unfold InRow
  dsimp only
  split_ifs with hlow hhigh hhigh
  · rw [UInt8.toNat_and, UInt8.toNat_and, Nat.testBit_and, Nat.testBit_and, hbit,
      testBit_highMask _ hmod j hj, testBit_lowMask _ hlow.2 j hj]
    grind
  · rw [UInt8.toNat_and, Nat.testBit_and, hbit, testBit_lowMask _ hlow.2 j hj]
    grind
  · rw [UInt8.toNat_and, Nat.testBit_and, hbit, testBit_highMask _ hmod j hj]
    grind
  · grind

theorem bitmapRowEdgeCount_eq
    (hlength : bitmap.bitmap.length = (bitmap.peerIds.length * bitmap.peerIds.length + 7) / 8)
    {i : Nat} (hi : i < bitmap.peerIds.length) :
    bitmapRowEdgeCount bitmap bitmap.peerIds.length i = some (bitmap.rowEdges i) := by
  unfold rowEdges
  generalize bitmap.peerIds.length = n at hlength hi ⊢
  have hend : i * n + n ≤ n * n := by
    rw [← Nat.succ_mul]
    exact Nat.mul_le_mul_right n hi
  rw [bitmapRowEdgeCount, if_neg (by omega)]
  dsimp only
  generalize i * n = start at hend ⊢
  generalize hfirst : start / 8 = first
  generalize hlast : (start + n - 1) / 8 = last
  have hpieces := count_add_sum_pieces (p := bitmap.InRow start (start + n)) 8 first
    (last + 1 - first)
  have hbefore : Nat.count (bitmap.InRow start (start + n)) (first * 8) = 0 :=
    Nat.count_of_forall_not fun idx hidx hrow => by have := hrow.2; omega
  rw [hbefore, Nat.zero_add, Nat.add_sub_cancel' (by omega)] at hpieces
  rw [mapM_eq_some_map fun k hk => ?_, Option.map_some, hpieces]
  · exact congrArg some (count_window (by omega))
  · obtain ⟨hle, hlt⟩ := mem_range'_1.mp hk
    exact count_rowByte (getElem?_eq_getElem (by omega)) (by omega) (by omega) (by omega)

theorem sum_countOnes (bitmap : RouteConnBitmap) :
    (bitmap.bitmap.map countOnes).sum =
      Nat.count (fun idx => bitmap.getBit idx = true) (bitmap.bitmap.length * 8) := by
  rw [← sum_count_pieces]
  congr 1
  refine ext_getElem (by simp) fun k hk _ => ?_
  rw [getElem_map, getElem_map, getElem_range, countOnes_eq_count]
  refine count_congr fun j hj => ?_
  rw [testBit_eq_getBit (getElem?_eq_getElem _) hj]

theorem size_getConnectedPeers (hnodup : (bitmap.peerIds.map (·.peerId)).Nodup) (i : Nat) :
    (bitmap.getConnectedPeers i).size = bitmap.rowEdges i := by
  have hpeers : bitmap.peerIds.zipIdx.map (·.1.peerId) = bitmap.peerIds.map (·.peerId) := by
    conv_rhs => rw [← zipIdx_map_fst 0 bitmap.peerIds, map_map]
    rfl
  rw [← hpeers] at hnodup
  rw [getConnectedPeers, OrderedSet.size_ofList (hnodup.sublist (filter_sublist.map _)), length_map,
    ← countP_eq_length_filter, rowEdges, Nat.count, range_eq_range', ← zipIdx_map_snd, countP_map]
  simp [Function.comp_def]

end RouteConnBitmap

variable {bitmap : RouteConnBitmap}

/-- What an accepted bitmap has: the bytes of its matrix, and zeros after it. -/
theorem shape_of_validate (h : validateConnBitmap bitmap = .ok ()) :
    bitmap.bitmap.length = (bitmap.peerIds.length * bitmap.peerIds.length + 7) / 8 ∧
      (bitmap.peerIds.length * bitmap.peerIds.length % 8 ≠ 0 → ∀ byte ∈ bitmap.bitmap.getLast?,
        byte &&& ~~~((1 <<< UInt8.ofNat (bitmap.peerIds.length * bitmap.peerIds.length % 8)) - 1)
          = 0) := by
  rw [validateConnBitmap, firstDuplicate_of_validate h] at h
  split_ifs at h with _ hlength htrailing
  refine ⟨not_not.mp hlength, fun hpart byte hbyte => ?_⟩
  by_contra hset
  exact htrailing ⟨hpart, by simp [Option.mem_def.mp hbyte, hset]⟩

/-- No bit after the matrix is set. -/
theorem getBit_of_outside {idx : Nat} (h : validateConnBitmap bitmap = .ok ())
    (hidx : bitmap.peerIds.length * bitmap.peerIds.length ≤ idx) : bitmap.getBit idx = false := by
  obtain ⟨hlength, htrailing⟩ := shape_of_validate h
  generalize bitmap.peerIds.length * bitmap.peerIds.length = edgeBits at hlength htrailing hidx
  rw [RouteConnBitmap.getBit]
  split
  case h_2 => rfl
  case h_1 byte hbyte =>
    -- only the last byte reaches beyond the matrix
    have hlt := (List.getElem?_eq_some_iff.mp hbyte).1
    have hlast : idx / 8 = bitmap.bitmap.length - 1 := by omega
    have hbits : edgeBits % 8 < 8 := Nat.mod_lt _ (by decide)
    rw [hlast, ← getLast?_eq_getElem?] at hbyte
    have hzero := congrArg (·.toNat.testBit (idx % 8)) (htrailing (by omega) byte hbyte)
    rw [UInt8.toNat_and, Nat.testBit_and, testBit_outsideMask _ hbits _ (Nat.mod_lt _ (by decide)),
      decide_eq_true (by omega), Bool.and_true] at hzero
    exact hzero.trans (Nat.zero_testBit _)

/-- The masked count of a row is the number of its set columns and the size of the set that is
decoded from it, and the rows together have the set bits of the bytes. -/
theorem row_counts_agree (h : validateRouteConnInfo (.connBitmap bitmap) = .ok ()) :
    (∀ i < bitmap.peerIds.length,
      bitmapRowEdgeCount bitmap bitmap.peerIds.length i = some (bitmap.rowEdges i) ∧
      (bitmap.getConnectedPeers i).size = bitmap.rowEdges i) ∧
    ((range bitmap.peerIds.length).map bitmap.rowEdges).sum =
      (bitmap.bitmap.map countOnes).sum := by
  have hvalid : validateConnBitmap bitmap = .ok () := h
  have hlength := (shape_of_validate hvalid).1
  refine ⟨fun i hi => ⟨bitmapRowEdgeCount_eq hlength hi,
    size_getConnectedPeers (nodup_peerIds_of_validate hvalid) i⟩, ?_⟩
  have hmatrix : bitmap.peerIds.length * bitmap.peerIds.length ≤ bitmap.bitmap.length * 8 := by
    omega
  rw [sum_countOnes, count_eq_of_forall_not hmatrix fun idx hidx => ?_]
  · exact sum_count_pieces (p := fun idx => bitmap.getBit idx = true) _ _
  · rw [getBit_of_outside hvalid hidx]
    exact Bool.false_ne_true

/-- Three peers, each of which knows the next one. -/
def threePeers : RouteConnBitmap := ⟨[⟨1, 1⟩, ⟨2, 1⟩, ⟨3, 1⟩], [0b01100010, 0]⟩

theorem row_counts_agree_threePeers :
    validateRouteConnInfo (.connBitmap threePeers) = .ok () ∧
      ((range 3).map threePeers.rowEdges).sum = (threePeers.bitmap.map countOnes).sum :=
  ⟨by decide, (row_counts_agree (by decide)).2⟩

end LowerTier.Peers.OspfRoute
