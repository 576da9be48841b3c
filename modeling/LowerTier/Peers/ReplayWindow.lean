import LowerTier.ProofSupport.Trace
import Mathlib.Data.Set.Insert

/-!
# Replay window (`peers/replay_window.rs`)

A circular bitmap of `REPLAY_WINDOW_BITS` authenticated sequence numbers below
a high-water mark.  The bitmap is the array of 64-bit words of the source; the
sequence numbers are naturals, since no operation of the window can leave the
`u64` range of its arguments.

`Tracks w seen` says that the window `w` knows exactly the set `seen` of
sequences it has accepted, as far as its history reaches.  `canAccept_iff` and
`accept_tracks` are the only facts the session layer uses.
-/

namespace LowerTier.Peers

def REPLAY_WINDOW_BITS : Nat := 1024

def REPLAY_WINDOW_WORDS : Nat := REPLAY_WINDOW_BITS / 64

def REPLAY_WINDOW_INDEX_MASK : Nat := REPLAY_WINDOW_BITS - 1

structure ReplayWindow where
  maxSequence : Nat
  bitmap : Vector (BitVec 64) REPLAY_WINDOW_WORDS
  valid : Bool
deriving DecidableEq

def ReplayWindow.default : ReplayWindow where
  maxSequence := 0
  bitmap := Vector.replicate REPLAY_WINDOW_WORDS 0
  valid := false

namespace ReplayWindow

def bitIndex (sequence : Nat) : Nat := sequence &&& REPLAY_WINDOW_INDEX_MASK

variable (sequence : Nat)

theorem bitIndex_eq_mod : bitIndex sequence = sequence % 1024 :=
  Nat.and_two_pow_sub_one_eq_mod sequence 10

theorem bitIndex_div_lt : bitIndex sequence / 64 < REPLAY_WINDOW_WORDS := by
  rw [bitIndex_eq_mod]
  change sequence % 1024 / 64 < 16
  omega

def bitMask (sequence : Nat) : BitVec 64 := 1#64 <<< (bitIndex sequence % 64)

variable (w : ReplayWindow)

def word (sequence : Nat) : BitVec 64 :=
  have hindex := bitIndex_div_lt sequence
  w.bitmap[bitIndex sequence / 64]

def testSequence (sequence : Nat) : Bool :=
  w.word sequence &&& bitMask sequence != 0

def setSequence (sequence : Nat) : ReplayWindow :=
  { w with
    bitmap := w.bitmap.set (bitIndex sequence / 64)
      (w.word sequence ||| bitMask sequence) (bitIndex_div_lt sequence) }

def clearSequence (sequence : Nat) : ReplayWindow :=
  { w with
    bitmap := w.bitmap.set (bitIndex sequence / 64)
      (w.word sequence &&& ~~~bitMask sequence) (bitIndex_div_lt sequence) }

/-- Clear the positions that enter the window when its high-water mark moves to
`newMaxSequence`. -/
def clearAdvancedPositions (newMaxSequence : Nat) : ReplayWindow :=
  let distance := newMaxSequence - w.maxSequence
  if distance ≥ REPLAY_WINDOW_BITS then
    { w with bitmap := Vector.replicate REPLAY_WINDOW_WORDS 0 }
  else
    (List.range' 1 distance).foldl
      (fun acc offset => acc.clearSequence (w.maxSequence + offset)) w

def canAccept (sequence : Nat) : Bool :=
  if !w.valid || sequence > w.maxSequence then
    true
  else
    let distance := w.maxSequence - sequence
    distance < REPLAY_WINDOW_BITS && !w.testSequence sequence

def accept (sequence : Nat) : Bool × ReplayWindow :=
  if !w.canAccept sequence then
    (false, w)
  else if !w.valid then
    (true, { w with valid := true, maxSequence := sequence }.setSequence sequence)
  else
    let advanced :=
      if sequence > w.maxSequence then
        { w.clearAdvancedPositions sequence with maxSequence := sequence }
      else
        w
    (true, advanced.setSequence sequence)

variable (s t : Nat)

variable (w : ReplayWindow)

theorem testSequence_eq :
    w.testSequence sequence = (w.word sequence).getLsbD (bitIndex sequence % 64) := by
  have hlt : bitIndex sequence % 64 < 64 := Nat.mod_lt _ (by omega)
  have hmask : bitMask sequence = BitVec.twoPow 64 (bitIndex sequence % 64) := rfl
  rw [testSequence, hmask, BitVec.and_twoPow]
  cases hbit : (w.word sequence).getLsbD (bitIndex sequence % 64) with
  | false => simp
  | true =>
    have hne : BitVec.twoPow 64 (bitIndex sequence % 64) ≠ 0#64 := by
      intro hzero
      have hget := congrArg (fun b => b.getLsbD (bitIndex sequence % 64)) hzero
      simp [hlt] at hget
    simpa using hne

theorem getLsbD_bitMask (s i : Nat) : (bitMask s).getLsbD i = decide (bitIndex s % 64 = i) := by
  have hmask : bitMask s = BitVec.twoPow 64 (bitIndex s % 64) := rfl
  rw [hmask, BitVec.getLsbD_twoPow]
  have hlt : bitIndex s % 64 < 64 := Nat.mod_lt _ (by omega)
  simp [hlt]

/-- A new word in which only the bit of `s` is changed. -/
theorem testSequence_update (f : Bool → Bool → Bool) (hkeep : ∀ bit, f false bit = bit)
    {value : BitVec 64} (hvalue : ∀ i < 64,
      value.getLsbD i = f (decide (bitIndex s % 64 = i)) ((w.word s).getLsbD i)) :
    testSequence { w with bitmap := w.bitmap.set (bitIndex s / 64) value (bitIndex_div_lt s) } t =
      f (decide (s % 1024 = t % 1024)) (w.testSequence t) := by
  have hlt : bitIndex t % 64 < 64 := Nat.mod_lt _ (by omega)
  have hs := bitIndex_eq_mod s
  have ht := bitIndex_eq_mod t
  rw [testSequence_eq, testSequence_eq]
  by_cases hword : bitIndex s / 64 = bitIndex t / 64
  · have hbit : bitIndex s % 64 = bitIndex t % 64 ↔ s % 1024 = t % 1024 := by omega
    have hnew := hvalue _ hlt
    simp only [word, hword, hbit] at hnew ⊢
    rw [Vector.getElem_set_self, hnew]
  · have hne : s % 1024 ≠ t % 1024 := by omega
    simp [word, hword, hne, hkeep]

theorem testSequence_setSequence :
    (w.setSequence s).testSequence t = (decide (s % 1024 = t % 1024) || w.testSequence t) := by
  refine testSequence_update s t w (· || ·) Bool.false_or fun i hi => ?_
  rw [BitVec.getLsbD_or, getLsbD_bitMask, Bool.or_comm]

theorem testSequence_clearSequence :
    (w.clearSequence s).testSequence t = (!decide (s % 1024 = t % 1024) && w.testSequence t) := by
  refine testSequence_update s t w (!· && ·) Bool.true_and fun i hi => ?_
  rw [BitVec.getLsbD_and, BitVec.getLsbD_not, getLsbD_bitMask, Bool.and_comm, decide_eq_true hi,
    Bool.true_and]

theorem testSequence_zero_bitmap (max : Nat) (valid : Bool) (t : Nat) :
    testSequence ⟨max, Vector.replicate REPLAY_WINDOW_WORDS 0, valid⟩ t = false := by
  rw [testSequence_eq]
  simp [word]

open ReplayWindow List

theorem foldl_clearSequence (base : Nat) (offsets : List Nat) (w : ReplayWindow) (t : Nat) :
    (offsets.foldl (fun acc offset => acc.clearSequence (base + offset)) w).testSequence t =
      (w.testSequence t &&
        !offsets.any fun offset => decide ((base + offset) % 1024 = t % 1024)) := by
  induction offsets generalizing w with
  | nil => simp
  | cons offset offsets ih =>
    rw [foldl_cons, ih, testSequence_clearSequence, any_cons]
    cases decide ((base + offset) % 1024 = t % 1024) <;> simp

theorem clearAdvancedPositions_fields (newMax : Nat) :
    (w.clearAdvancedPositions newMax).maxSequence = w.maxSequence ∧
      (w.clearAdvancedPositions newMax).valid = w.valid := by
  simp only [clearAdvancedPositions]
  split_ifs
  · exact ⟨rfl, rfl⟩
  · exact foldlRecOn (motive := fun acc : ReplayWindow => acc.maxSequence = w.maxSequence ∧
      acc.valid = w.valid) _ _ ⟨rfl, rfl⟩ fun _ h _ _ => h

/-- After the advance, the history interval of the new high-water mark holds
the old bits, and the positions that entered it are clear. -/
theorem testSequence_clearAdvancedPositions {newMax t : Nat}
    (hnew : w.maxSequence < newMax) (ht : t ≤ newMax) (hreach : newMax < t + 1024) :
    (w.clearAdvancedPositions newMax).testSequence t =
      (decide (t ≤ w.maxSequence) && w.testSequence t) := by
  have hbits : REPLAY_WINDOW_BITS = 1024 := rfl
  simp only [clearAdvancedPositions]
  split_ifs with hfar
  · have hgt : ¬ t ≤ w.maxSequence := by omega
    rw [testSequence_zero_bitmap]
    simp [hgt]
  · rw [foldl_clearSequence]
    have hany : ((range' 1 (newMax - w.maxSequence)).any fun offset =>
        decide ((w.maxSequence + offset) % 1024 = t % 1024)) = decide (w.maxSequence < t) := by
      rw [Bool.eq_iff_iff]
      simp only [any_eq_true, mem_range'_1, decide_eq_true_eq]
      constructor
      · omega
      · intro hlt
        refine ⟨t - w.maxSequence, by omega, ?_⟩
        congr 1
        omega
    rw [hany, Bool.and_comm]
    by_cases hle : t ≤ w.maxSequence
    · simp [hle, Nat.not_lt.mpr hle]
    · simp [hle, Nat.lt_of_not_le hle]

/-! ## The accepted set -/

/-- The window `w` represents the set `seen` of accepted sequences: it is fresh
exactly as long as nothing was accepted, its high-water mark is the largest
accepted sequence, and inside the history interval a bit is set exactly for an
accepted sequence. -/
structure Tracks (w : ReplayWindow) (seen : Set Nat) : Prop where
  fresh : w.valid = false → w = default ∧ seen = ∅
  max_mem : w.valid = true → w.maxSequence ∈ seen
  le_max : w.valid = true → ∀ t ∈ seen, t ≤ w.maxSequence
  bit_iff : w.valid = true → ∀ t, t ≤ w.maxSequence → w.maxSequence < t + 1024 →
    (w.testSequence t = true ↔ t ∈ seen)

theorem tracks_default : Tracks default ∅ where
  fresh _ := ⟨rfl, rfl⟩
  max_mem h := by simp [default] at h
  le_max h := by simp [default] at h
  bit_iff h := by simp [default] at h

theorem accept_fst (s : Nat) : (w.accept s).1 = w.canAccept s := by
  unfold accept
  cases w.canAccept s
  · simp
  · cases w.valid <;> simp

theorem accept_of_not_canAccept {w : ReplayWindow} {s : Nat} (h : w.canAccept s = false) :
    w.accept s = (false, w) := by
  simp [accept, h]

/-- A sequence is acceptable exactly when it is new and inside the history
interval of every accepted sequence. -/
theorem canAccept_iff {w : ReplayWindow} {seen : Set Nat} (htracks : Tracks w seen) (s : Nat) :
    w.canAccept s = true ↔ s ∉ seen ∧ ∀ m ∈ seen, m < s + 1024 := by
  unfold canAccept REPLAY_WINDOW_BITS
  cases hvalid : w.valid with
  | false =>
    have hempty := (htracks.fresh hvalid).2
    simp [hempty]
  | true =>
    have hmem := htracks.max_mem hvalid
    have hle := htracks.le_max hvalid
    by_cases hgt : s > w.maxSequence
    · simp only [Bool.not_true, Bool.false_or, hgt, decide_true, if_true, true_iff]
      constructor
      · intro hs
        exact absurd (hle s hs) (by omega)
      · intro m hm
        have := hle m hm
        omega
    · simp only [Bool.not_true, Bool.false_or, hgt, decide_false, Bool.false_eq_true,
        if_false, Bool.and_eq_true, decide_eq_true_eq, Bool.not_eq_true']
      constructor
      · rintro ⟨hdistance, hclear⟩
        have hbit := htracks.bit_iff hvalid s (by omega) (by omega)
        refine ⟨fun hs => ?_, fun m hm => ?_⟩
        · rw [hbit.mpr hs] at hclear
          exact Bool.noConfusion hclear
        · have := hle m hm
          omega
      · rintro ⟨hnew, hreach⟩
        have hdistance := hreach _ hmem
        have hbit := htracks.bit_iff hvalid s (by omega) hdistance
        refine ⟨by omega, ?_⟩
        rw [← Bool.not_eq_true, hbit]
        exact hnew

theorem accept_fresh_tracks : Tracks (default.accept s).2 {s} := by
  have hstate : (default.accept s).2 =
      setSequence { default with valid := true, maxSequence := s } s := by
    simp [accept, canAccept, default]
  rw [hstate]
  refine ⟨fun h => ?_, fun _ => rfl, ?_, ?_⟩
  · simp [setSequence] at h
  · rintro - t rfl
    exact le_rfl
  · intro _ t hle hreach
    have hmax : s < t + 1024 := hreach
    have hts : t ≤ s := hle
    rw [testSequence_setSequence]
    simp only [default, testSequence_zero_bitmap, Bool.or_false,
      decide_eq_true_eq, Set.mem_singleton_iff]
    omega

theorem accept_tracks {w : ReplayWindow} {seen : Set Nat} (htracks : Tracks w seen) {s : Nat}
    (haccept : w.canAccept s = true) : Tracks (w.accept s).2 (insert s seen) := by
  cases hvalid : w.valid with
  | false =>
    obtain ⟨hw, hempty⟩ := htracks.fresh hvalid
    rw [hw, hempty, insert_empty_eq]
    exact accept_fresh_tracks s
  | true =>
    have hle := htracks.le_max hvalid
    have hnew := (canAccept_iff htracks s).mp haccept
    have hreach := hnew.2 _ (htracks.max_mem hvalid)
    by_cases hgt : s > w.maxSequence
    · -- the window slides: positions above the old mark are cleared first
      have hstate : (w.accept s).2 =
          setSequence { w.clearAdvancedPositions s with maxSequence := s } s := by
        simp [accept, haccept, hvalid, hgt]
      have hfields := clearAdvancedPositions_fields w s
      rw [hstate]
      refine ⟨fun h => ?_, fun _ => Set.mem_insert _ _, ?_, ?_⟩
      · simp [setSequence, hfields.2, hvalid] at h
      · rintro - t (rfl | ht)
        · exact le_rfl
        · exact (hle t ht).trans hgt.le
      · intro _ t hts hst
        have hts' : t ≤ s := hts
        have hst' : s < t + 1024 := hst
        have hclear := testSequence_clearAdvancedPositions w hgt hts' hst'
        have hsame : testSequence { w.clearAdvancedPositions s with maxSequence := s } t =
            (w.clearAdvancedPositions s).testSequence t := rfl
        rw [testSequence_setSequence, hsame, hclear]
        simp only [Bool.or_eq_true, decide_eq_true_eq, Bool.and_eq_true, Set.mem_insert_iff]
        constructor
        · rintro (hmod | ⟨hold, hbit⟩)
          · exact Or.inl (by omega)
          · exact Or.inr ((htracks.bit_iff hvalid t hold (by omega)).mp hbit)
        · rintro (rfl | ht)
          · exact Or.inl rfl
          · exact Or.inr ⟨hle t ht, (htracks.bit_iff hvalid t (hle t ht) (by
              have := hle t ht; omega)).mpr ht⟩
    · have hstate : (w.accept s).2 = w.setSequence s := by
        simp [accept, haccept, hvalid, hgt]
      rw [hstate]
      refine ⟨fun h => ?_, fun _ => Set.mem_insert_of_mem _ (htracks.max_mem hvalid), ?_, ?_⟩
      · simp [setSequence, hvalid] at h
      · rintro - t (rfl | ht)
        · exact Nat.le_of_not_gt hgt
        · exact hle t ht
      · intro _ t hts hst
        have hts' : t ≤ w.maxSequence := hts
        have hst' : w.maxSequence < t + 1024 := hst
        rw [testSequence_setSequence]
        simp only [Bool.or_eq_true, decide_eq_true_eq, Set.mem_insert_iff,
          htracks.bit_iff hvalid t hts' hst']
        constructor
        · rintro (hmod | ht)
          · exact Or.inl (by omega)
          · exact Or.inr ht
        · rintro (rfl | ht)
          · exact Or.inl rfl
          · exact Or.inr ht

def step (w : ReplayWindow) (sequence : Nat) : ReplayWindow × List Nat :=
  ((w.accept sequence).2, if (w.accept sequence).1 then [sequence] else [])

theorem step_tracks {w : ReplayWindow} {accepted : List Nat} (h : Tracks w {t | t ∈ accepted})
    (sequence : Nat) : Tracks (w.step sequence).1 {t | t ∈ accepted ++ (w.step sequence).2} := by
  unfold step
  rw [accept_fst]
  cases haccept : w.canAccept sequence with
  | false =>
    rw [accept_of_not_canAccept haccept, if_neg Bool.false_ne_true, append_nil]
    exact h
  | true =>
    have hinsert : {t | t ∈ accepted ++ [sequence]} = insert sequence {t | t ∈ accepted} := by
      ext t
      simp [or_comm]
    rw [if_pos rfl, hinsert]
    exact accept_tracks h haccept

/-- After any sequences a further one is accepted exactly if it was not accepted before and is less
than `REPLAY_WINDOW_BITS` below the largest accepted one, and the bitmap holds the accepted
sequences of that interval. -/
theorem accept_iff_new_and_recent (sequences : List Nat) (sequence : Nat) :
    let (w, accepted) := ProofSupport.Trace.run step default sequences
    ((w.accept sequence).1 = true ↔
      sequence ∉ accepted ∧ ∀ max ∈ accepted.max?, max < sequence + REPLAY_WINDOW_BITS) ∧
    ∀ max ∈ accepted.max?, ∀ t, t ≤ max → max < t + REPLAY_WINDOW_BITS →
      (w.testSequence t = true ↔ t ∈ accepted) := by
  have htracks : Tracks (ProofSupport.Trace.run step default sequences).1
      {t | t ∈ (ProofSupport.Trace.run step default sequences).2} :=
    ProofSupport.Trace.run_preserves (h := []) (I := fun w accepted => Tracks w {t | t ∈ accepted})
      (fun _ _ sequence h => step_tracks h sequence) (by simpa using tracks_default)
  generalize ProofSupport.Trace.run step default sequences = final at htracks
  obtain ⟨w, accepted⟩ := final
  constructor
  · rw [accept_fst, canAccept_iff htracks]
    refine and_congr_right fun _ => ⟨fun h max hmax => h max (max?_mem hmax), fun h t ht => ?_⟩
    obtain ⟨max, hmax⟩ := Option.isSome_iff_exists.mp (isSome_max?_of_mem ht)
    exact ((max?_eq_some_iff.mp hmax).2 t ht).trans_lt (h max hmax)
  · intro max hmax t hle hreach
    have hvalid : w.valid = true := by
      by_contra hfresh
      have hempty := (htracks.fresh (Bool.eq_false_iff.mpr hfresh)).2
      exact absurd (max?_mem hmax) (Set.eq_empty_iff_forall_notMem.mp hempty max)
    have hmark : w.maxSequence = max :=
      le_antisymm ((max?_eq_some_iff.mp hmax).2 _ (htracks.max_mem hvalid))
        (htracks.le_max hvalid max (max?_mem hmax))
    exact htracks.bit_iff hvalid t (hmark ▸ hle) (hmark ▸ hreach)

end ReplayWindow

end LowerTier.Peers
