import Mathlib.Data.List.TakeWhile
import LowerTier.ProofSupport.ByteString
import LowerTier.ProofSupport.ChunkStream
import LowerTier.ProofSupport.MachineInt

/-!
# Windows of an overlay stream (`gateway/overlay_stream.rs`)

What a session has sent and not yet seen acknowledged, and what it has received and not yet
consumed or put in order.  Stream offsets are 64-bit numbers.
-/

namespace LowerTier.Gateway.OverlayStream

open List ProofSupport ProofSupport.ByteString ProofSupport.ChunkStream OrderedMap
  ProofSupport.MachineInt

/-- What a side may have sent without an acknowledgement, and may have received without its
application having read it. -/
def STREAM_WINDOW_BYTES : Nat := 256 * 1024

structure SendWindow where
  capacity : Nat
  nextSequence : Nat
  bufferedBytes : Nat
  chunks : OrderedMap Nat Bytes
deriving DecidableEq

inductive ReceiveWindowError where
  | full
  | overlap
deriving DecidableEq, Repr

structure ReceiveWindow where
  capacity : Nat
  nextSequence : Nat
  deliveredUnconsumed : Nat
  outOfOrderBytes : Nat
  outOfOrder : OrderedMap Nat Bytes
deriving DecidableEq

namespace SendWindow

def new (capacity : Nat) : SendWindow := ⟨capacity, 0, 0, .empty⟩

variable (w : SendWindow)

/-- The offset of the chunk, or the chunk where it does not fit. -/
def push (payload : Bytes) : Except Bytes Nat × SendWindow :=
  if payload.isEmpty ∨ w.capacity < saturatingAdd 64 w.bufferedBytes payload.length then
    (.error payload, w)
  else
    (.ok w.nextSequence,
      { w with
        nextSequence := saturatingAdd 64 w.nextSequence payload.length
        bufferedBytes := w.bufferedBytes + payload.length
        chunks := w.chunks.insert w.nextSequence payload })

def forget (sequence : Nat) : SendWindow :=
  match w.chunks.lookup sequence with
  | some payload =>
    { w with
      chunks := w.chunks.erase sequence
      bufferedBytes := w.bufferedBytes - payload.length }
  | none => w

def acknowledge (acknowledgement : Nat) : SendWindow :=
  ((w.chunks.entries.takeWhile fun entry =>
    saturatingAdd 64 entry.1 entry.2.length ≤ acknowledgement).map Prod.fst).foldl forget w

def get (sequence : Nat) : Option Bytes := w.chunks.lookup sequence

def firstSequence : Option Nat := w.chunks.first.map Prod.fst

end SendWindow

namespace ReceiveWindow

def new (capacity : Nat) : ReceiveWindow := ⟨capacity, 0, 0, 0, .empty⟩

variable (w : ReceiveWindow)

def bufferedBytes : Nat := w.deliveredUnconsumed + w.outOfOrderBytes

def availableBytes : Nat := w.capacity - w.bufferedBytes

/-- The loop that takes what has come before its turn and is next now; every turn removes an
entry. -/
def drain : Nat → ReceiveWindow → List Bytes × ReceiveWindow
  | 0, w => ([], w)
  | fuel + 1, w =>
    match w.outOfOrder.lookup w.nextSequence with
    | none => ([], w)
    | some payload =>
      let (delivered, w) := drain fuel
        { w with
          outOfOrder := w.outOfOrder.erase w.nextSequence
          outOfOrderBytes := w.outOfOrderBytes - payload.length
          nextSequence := wrappingAdd 64 w.nextSequence payload.length
          deliveredUnconsumed := w.deliveredUnconsumed + payload.length }
      (payload :: delivered, w)

def overlaps (sequence : Nat) (payload : Bytes) : Bool :=
  w.outOfOrder.entries.any fun entry =>
    sequence < saturatingAdd 64 entry.1 entry.2.length ∧
      entry.1 < saturatingAdd 64 sequence payload.length

def insert (sequence : Nat) (payload : Bytes) :
    Except ReceiveWindowError (List Bytes) × ReceiveWindow :=
  if payload.isEmpty ∨ sequence < w.nextSequence then (.ok [], w)
  else if w.overlaps sequence payload then
    if (w.outOfOrder.lookup sequence).isSome then (.ok [], w) else (.error .overlap, w)
  else if w.capacity < saturatingAdd 64 w.bufferedBytes payload.length then (.error .full, w)
  else if sequence ≠ w.nextSequence then
    (.ok [],
      { w with
        outOfOrderBytes := w.outOfOrderBytes + payload.length
        outOfOrder := w.outOfOrder.insert sequence payload })
  else
    let (delivered, next) := drain w.outOfOrder.entries.length
      { w with
        nextSequence := saturatingAdd 64 sequence payload.length
        deliveredUnconsumed := w.deliveredUnconsumed + payload.length }
    (.ok (payload :: delivered), next)

def consume (bytes : Nat) : ReceiveWindow :=
  { w with deliveredUnconsumed := w.deliveredUnconsumed - bytes }

end ReceiveWindow

/-! ## What a send window holds -/

variable {payload : Bytes} {sequence : Nat} {entry : Nat × Bytes}

namespace SendWindow

variable {w : SendWindow} {acked rest : List Bytes}

/-- The chunks of a stream that are not acknowledged, at their offsets. -/
structure Holds (w : SendWindow) (acked rest : List Bytes) : Prop where
  capacity : w.capacity = STREAM_WINDOW_BYTES
  next : w.nextSequence = (acked ++ rest).flatten.length
  entries : w.chunks.entries = placed acked.flatten.length rest
  buffered : w.bufferedBytes = rest.flatten.length
  fits : w.bufferedBytes ≤ w.capacity

theorem Holds.sum (h : w.Holds acked rest) : w.bufferedBytes = w.chunks.sumBy length := by
  have hplaced : ∀ (offset : Nat) (chunks : List Bytes),
      ((placed offset chunks).map fun entry => entry.2.length).sum = chunks.flatten.length := by
    intro offset chunks
    induction chunks generalizing offset with
    | nil => rfl
    | cons chunk chunks ih =>
      rw [placed, map_cons, sum_cons, ih, flatten_cons, length_append]
  rw [sumBy, h.entries, hplaced, h.buffered]

theorem Holds.push (h : w.Holds acked rest) (hproper : ∀ chunk ∈ acked ++ rest, chunk ≠ [])
    (hpayload : payload ≠ []) (hroom : w.bufferedBytes + payload.length ≤ w.capacity)
    (hbound : (acked ++ rest ++ [payload]).flatten.length < 2 ^ 64) :
    (w.push payload).1 = .ok (acked ++ rest).flatten.length ∧
      (w.push payload).2.Holds acked (rest ++ [payload]) := by
  have htotal : (acked ++ rest ++ [payload]).flatten.length =
      (acked ++ rest).flatten.length + payload.length := by simp [Nat.add_assoc]
  have hrest : rest.flatten.length ≤ (acked ++ rest).flatten.length := by simp
  have hnext : saturatingAdd 64 w.nextSequence payload.length =
      (acked ++ rest).flatten.length + payload.length := by
    rw [h.next]
    exact saturatingAdd_of_lt (by omega)
  have hbuffered : saturatingAdd 64 w.bufferedBytes payload.length =
      w.bufferedBytes + payload.length :=
    saturatingAdd_of_lt (by rw [h.buffered]; omega)
  have haccept : ¬(payload.isEmpty ∨
      w.capacity < saturatingAdd 64 w.bufferedBytes payload.length) := by
    rw [hbuffered]
    simp only [List.isEmpty_iff, not_or, not_lt]
    exact ⟨hpayload, hroom⟩
  -- all chunks that are kept end where the new one starts
  have hlast : (w.chunks.insert w.nextSequence payload).entries =
      w.chunks.entries ++ [(w.nextSequence, payload)] := by
    apply entries_insert_of_gt
    rw [h.entries, h.next]
    rintro ⟨n, chunk⟩ hmem
    obtain ⟨front, back, rfl, rfl⟩ := mem_placed_iff.mp hmem
    have hchunk : 0 < chunk.length := List.length_pos_iff.mpr (hproper chunk (by simp))
    simp only [flatten_append, flatten_cons, length_append]
    omega
  unfold SendWindow.push
  rw [if_neg haccept]
  refine ⟨congrArg _ h.next, h.capacity, ?_, ?_, ?_, hroom⟩
  · rw [hnext]
    simp [Nat.add_assoc]
  · rw [hlast, h.entries, h.next, placed_append]
    simp [placed]
  · rw [h.buffered]
    simp

theorem Holds.forget {front back : List Bytes} (h : w.Holds acked (front ++ back)) :
    (((placed acked.flatten.length front).map Prod.fst).foldl SendWindow.forget w).Holds
      (acked ++ front) back := by
  induction front generalizing w acked with
  | nil =>
    rw [append_nil]
    exact h
  | cons chunk front ih =>
    rw [placed, map_cons, foldl_cons]
    have hentries := h.entries
    have hlookup : w.chunks.lookup acked.flatten.length = some chunk :=
      lookup_of_mem (hentries ▸ mem_cons_self)
    have hforget : (w.forget acked.flatten.length).Holds (acked ++ [chunk]) (front ++ back) := by
      unfold SendWindow.forget
      rw [hlookup]
      refine { h with next := ?_, entries := ?_, buffered := ?_, fits := ?_ }
      · rw [h.next]
        simp
      · rw [entries_erase_head hentries]
        simp
      · rw [h.buffered]
        simp
      · exact (Nat.sub_le _ _).trans h.fits
    have hrest := ih hforget
    simpa using hrest

theorem Holds.acknowledge (h : w.Holds acked rest) (acknowledgement : Nat)
    (hbound : (acked ++ rest).flatten.length < 2 ^ 64) :
    ∃ front back, rest = front ++ back ∧
      (w.acknowledge acknowledgement).Holds (acked ++ front) back ∧
      (front = [] ∨ (acked ++ front).flatten.length ≤ acknowledgement) := by
  obtain ⟨front, back, rfl, htake, hall⟩ := exists_takeWhile_placed
    (fun entry : Nat × Bytes => decide (saturatingAdd 64 entry.1 entry.2.length ≤ acknowledgement))
    acked.flatten.length rest
  refine ⟨front, back, rfl, ?_, ?_⟩
  · unfold SendWindow.acknowledge
    rw [h.entries, htake]
    exact h.forget
  · rcases eq_nil_or_concat' front with rfl | ⟨init, chunk, rfl⟩
    · exact .inl rfl
    · right
      have hlast := hall (acked.flatten.length + init.flatten.length, chunk)
        (mem_placed_iff.mpr ⟨init, [], rfl, rfl⟩)
      have hle := of_decide_eq_true hlast
      dsimp only at hle
      simp only [flatten_append, length_append, flatten_cons, flatten_nil, append_nil] at hbound ⊢
      rw [saturatingAdd_of_lt (by omega)] at hle
      omega

variable {acknowledgement : Nat}

theorem mem_of_mem_acknowledge
    (h : entry ∈ (w.acknowledge acknowledgement).chunks.entries) : entry ∈ w.chunks.entries := by
  refine foldlRecOn (motive := fun next : SendWindow =>
    entry ∈ next.chunks.entries → entry ∈ w.chunks.entries)
    _ _ id (fun next hnext sequence _ hentry => hnext ?_) h
  unfold forget at hentry
  split at hentry
  · exact (mem_entries_erase.mp hentry).1
  · exact hentry

theorem push_ok {next : SendWindow} (h : w.push payload = (.ok sequence, next)) :
    next.bufferedBytes = w.bufferedBytes + payload.length ∧
      ∀ entry ∈ next.chunks.entries, entry.1 = sequence ∨ entry ∈ w.chunks.entries := by
  unfold SendWindow.push at h
  split_ifs at h
  · cases (Prod.mk.inj h).1
  · obtain ⟨hsequence, rfl⟩ := Prod.mk.inj h
    cases hsequence
    refine ⟨rfl, fun entry hentry => ?_⟩
    exact (mem_entries_insert hentry).imp_left fun heq => by rw [heq]

theorem Holds.acknowledge_all (h : w.Holds acked rest)
    (hall : (acked ++ rest).flatten.length ≤ acknowledgement)
    (hbound : (acked ++ rest).flatten.length < 2 ^ 64) :
    (w.acknowledge acknowledgement).Holds (acked ++ rest) [] := by
  have htake : w.chunks.entries.takeWhile (fun entry =>
      decide (saturatingAdd 64 entry.1 entry.2.length ≤ acknowledgement)) =
        placed acked.flatten.length rest := by
    rw [h.entries, takeWhile_eq_self_iff]
    intro entry hentry
    obtain ⟨front, back, hrest, hoffset⟩ := mem_placed_iff.mp hentry
    apply decide_eq_true
    rw [hrest] at hall hbound
    simp only [flatten_append, length_append, flatten_cons] at hall hbound
    rw [saturatingAdd_of_lt (by omega)]
    omega
  have hforget : w.Holds acked (rest ++ []) := by rwa [append_nil]
  unfold SendWindow.acknowledge
  rw [htake]
  exact hforget.forget

end SendWindow

/-! ## What a receive window follows -/

namespace ReceiveWindow

variable {w : ReceiveWindow} {pushed delivered : List Bytes}

/-- Of the chunks that the other side sent, the window has given out the first ones and keeps
some of the others. -/
structure Follows (w : ReceiveWindow) (pushed delivered : List Bytes) : Prop where
  capacity : w.capacity = STREAM_WINDOW_BYTES
  front : delivered <+: pushed
  next : w.nextSequence = delivered.flatten.length
  ahead : ∀ entry ∈ w.outOfOrder.entries,
    ChunkAt pushed entry.1 entry.2 ∧ w.nextSequence ≤ entry.1
  sum : w.outOfOrderBytes = w.outOfOrder.sumBy length
  fits : w.bufferedBytes ≤ w.capacity

theorem follows_new : (new STREAM_WINDOW_BYTES).Follows pushed [] where
  capacity := rfl
  front := nil_prefix
  next := rfl
  ahead _ hentry := absurd hentry not_mem_nil
  sum := rfl
  fits := Nat.zero_le _

section

variable (h : w.Follows pushed delivered)
include h

theorem Follows.append (more : List Bytes) : w.Follows (pushed ++ more) delivered :=
  { h with
    front := h.front.trans (prefix_append pushed more)
    ahead := fun entry hentry =>
      ⟨(h.ahead entry hentry).1.append more, (h.ahead entry hentry).2⟩ }

theorem Follows.consume (bytes : Nat) : (w.consume bytes).Follows pushed delivered where
  capacity := h.capacity
  front := h.front
  next := h.next
  ahead := h.ahead
  sum := h.sum
  fits := by
    have hfits := h.fits
    unfold bufferedBytes ReceiveWindow.consume at *
    dsimp only at *
    omega

variable (hproper : ∀ chunk ∈ pushed, chunk ≠ [])
include hproper

/-- The chunk at the next offset comes next, and what is kept lies behind it. -/
theorem Follows.next_chunk (hchunk : ChunkAt pushed w.nextSequence payload) :
    delivered ++ [payload] <+: pushed ∧
      ∀ entry ∈ w.outOfOrder.entries, entry.1 ≠ w.nextSequence →
        w.nextSequence + payload.length ≤ entry.1 := by
  constructor
  · obtain ⟨missing, rfl⟩ := h.front
    obtain ⟨rest, rfl⟩ := hchunk.eq_next h.next hproper
    exact ⟨rest, by simp⟩
  · intro entry hentry hne
    obtain ⟨hkept, hle⟩ := h.ahead entry hentry
    rcases hchunk.apart_or_eq hkept with hapart | hapart | ⟨hsame, -⟩
    · exact hapart
    · omega
    · exact absurd hsame.symm hne

theorem Follows.drain (hbound : pushed.flatten.length < 2 ^ 64) (fuel : Nat) :
    (drain fuel w).2.Follows pushed (delivered ++ (drain fuel w).1) ∧
      (drain fuel w).2.deliveredUnconsumed =
        w.deliveredUnconsumed + (drain fuel w).1.flatten.length := by
  induction fuel generalizing w delivered with
  | zero => exact ⟨by simpa [ReceiveWindow.drain] using h, rfl⟩
  | succ fuel ih =>
    unfold ReceiveWindow.drain
    cases hlookup : w.outOfOrder.lookup w.nextSequence with
    | none => exact ⟨by simpa using h, rfl⟩
    | some payload =>
      have hchunk : ChunkAt pushed w.nextSequence payload := (h.ahead _ (mem_of_lookup hlookup)).1
      obtain ⟨hfront, hahead⟩ := h.next_chunk hproper hchunk
      have hsum := sumBy_erase length hlookup
      have hend := hchunk.end_le
      have hnext : wrappingAdd 64 w.nextSequence payload.length =
          w.nextSequence + payload.length := wrappingAdd_of_lt (by omega)
      have hstep : Follows { w with
            outOfOrder := w.outOfOrder.erase w.nextSequence
            outOfOrderBytes := w.outOfOrderBytes - payload.length
            nextSequence := wrappingAdd 64 w.nextSequence payload.length
            deliveredUnconsumed := w.deliveredUnconsumed + payload.length }
          pushed (delivered ++ [payload]) := by
        have hbytes := h.sum
        have hfits := h.fits
        unfold bufferedBytes at hfits
        refine { h with front := hfront, next := ?_, ahead := ?_, sum := ?_, fits := ?_ }
        · rw [hnext, h.next]
          simp
        · intro entry hentry
          obtain ⟨hentry, hne⟩ := mem_entries_erase.mp hentry
          rw [hnext]
          exact ⟨(h.ahead entry hentry).1, hahead entry hentry hne⟩
        · dsimp only
          omega
        · unfold bufferedBytes
          dsimp only
          omega
      obtain ⟨hfollows, hbytes⟩ := ih hstep
      refine ⟨by simpa using hfollows, ?_⟩
      rw [hbytes, flatten_cons, length_append]
      exact Nat.add_assoc _ _ _

theorem Follows.ne_of_not_overlaps (hbound : pushed.flatten.length < 2 ^ 64)
    (hchunk : ChunkAt pushed sequence payload) (hoverlaps : ¬w.overlaps sequence payload = true)
    (hentry : entry ∈ w.outOfOrder.entries) : entry.1 ≠ sequence := by
  rintro rfl
  obtain ⟨hkept, -⟩ := h.ahead entry hentry
  have hend := hchunk.end_le
  have hkeptEnd := hkept.end_le
  have hpayload : 0 < payload.length := length_pos_iff.mpr (hproper _ hchunk.mem)
  have hlength : 0 < entry.2.length := length_pos_iff.mpr (hproper _ hkept.mem)
  refine hoverlaps (any_eq_true.mpr ⟨entry, hentry, decide_eq_true ?_⟩)
  rw [saturatingAdd_of_lt (by omega), saturatingAdd_of_lt (by omega)]
  omega

/-- A chunk of the stream is never refused as an overlap; one that does not fit changes nothing,
and otherwise the window gives out what is next. -/
theorem Follows.insert (hbound : pushed.flatten.length < 2 ^ 64)
    (hchunk : ChunkAt pushed sequence payload) :
    w.insert sequence payload = (.error .full, w) ∨
      ∃ out next, w.insert sequence payload = (.ok out, next) ∧
        next.Follows pushed (delivered ++ out) ∧
        next.deliveredUnconsumed = w.deliveredUnconsumed + out.flatten.length := by
  have hunchanged : w.Follows pushed (delivered ++ []) := by simpa using h
  have hend := hchunk.end_le
  have hpayloadEnd : saturatingAdd 64 sequence payload.length = sequence + payload.length :=
    saturatingAdd_of_lt (by omega)
  have hroom : ¬w.capacity < saturatingAdd 64 w.bufferedBytes payload.length →
      w.deliveredUnconsumed + w.outOfOrderBytes + payload.length ≤ w.capacity := by
    have hcapacity := h.capacity
    unfold saturatingAdd maxValue bufferedBytes STREAM_WINDOW_BYTES at *
    omega
  unfold ReceiveWindow.insert
  split_ifs with hold hoverlaps hknown hfull hturn
  · exact .inr ⟨[], w, rfl, hunchanged, rfl⟩
  · exact .inr ⟨[], w, rfl, hunchanged, rfl⟩
  · -- what shares a position with a chunk is that chunk
    obtain ⟨entry, hentry, hshared⟩ := any_eq_true.mp hoverlaps
    obtain ⟨hkept, -⟩ := h.ahead entry hentry
    have hkeptEnd := hkept.end_le
    rw [hpayloadEnd, saturatingAdd_of_lt (by omega)] at hshared
    obtain ⟨hleft, hright⟩ := of_decide_eq_true hshared
    rcases hchunk.apart_or_eq hkept with hapart | hapart | ⟨rfl, -⟩
    · omega
    · omega
    · exact absurd (by rw [lookup_of_mem hentry]; rfl) hknown
  · exact .inl rfl
  · refine .inr ⟨[], _, rfl,
      ⟨h.capacity, by simpa using h.front, by simpa using h.next, ?_, ?_, ?_⟩,
      rfl⟩
    · intro entry hentry
      rcases mem_entries_insert hentry with rfl | hentry
      · exact ⟨hchunk, not_lt.mp (not_or.mp hold).2⟩
      · exact h.ahead entry hentry
    · have hnew : w.outOfOrder.lookup sequence = none := lookup_eq_none.mpr fun _ hentry =>
          h.ne_of_not_overlaps hproper hbound hchunk hoverlaps hentry
      rw [sumBy_insert length hnew, h.sum]
    · unfold bufferedBytes
      dsimp only
      omega
  · right
    obtain rfl := not_not.mp hturn
    obtain ⟨hfront, hahead⟩ := h.next_chunk hproper hchunk
    have hfirst : Follows { w with
          nextSequence := saturatingAdd 64 w.nextSequence payload.length
          deliveredUnconsumed := w.deliveredUnconsumed + payload.length }
        pushed (delivered ++ [payload]) := by
      refine ⟨h.capacity, hfront, ?_, ?_, h.sum, ?_⟩
      · rw [hpayloadEnd, h.next]
        simp
      · intro entry hentry
        rw [hpayloadEnd]
        have hne := h.ne_of_not_overlaps hproper hbound hchunk hoverlaps hentry
        exact ⟨(h.ahead entry hentry).1, hahead entry hentry hne⟩
      · unfold bufferedBytes
        dsimp only
        omega
    obtain ⟨hfollows, hbytes⟩ := hfirst.drain hproper hbound w.outOfOrder.entries.length
    refine ⟨_, _, rfl, by simpa using hfollows, ?_⟩
    rw [hbytes, flatten_cons, length_append]
    exact Nat.add_assoc _ _ _

end

theorem drain_fills (fuel : Nat) (w : ReceiveWindow) :
    (drain fuel w).2.capacity = w.capacity ∧
      w.bufferedBytes ≤ (drain fuel w).2.bufferedBytes := by
  induction fuel generalizing w with
  | zero => exact ⟨rfl, le_refl _⟩
  | succ fuel ih =>
    unfold drain
    split
    · exact ⟨rfl, le_refl _⟩
    next payload hlookup =>
    refine ⟨(ih _).1, le_trans ?_ (ih _).2⟩
    unfold bufferedBytes
    dsimp only
    omega

theorem availableBytes_insert (w : ReceiveWindow) (sequence : Nat) (payload : Bytes) :
    (w.insert sequence payload).2.availableBytes ≤ w.availableBytes := by
  unfold insert
  split_ifs
  all_goals try exact le_refl _
  · unfold availableBytes bufferedBytes
    dsimp only
    omega
  · obtain ⟨hcapacity, hle⟩ := drain_fills w.outOfOrder.entries.length { w with
        nextSequence := saturatingAdd 64 sequence payload.length
        deliveredUnconsumed := w.deliveredUnconsumed + payload.length }
    unfold availableBytes
    rw [hcapacity]
    unfold bufferedBytes at hle ⊢
    dsimp only at hle ⊢
    omega

end ReceiveWindow

end LowerTier.Gateway.OverlayStream
