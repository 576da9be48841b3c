import LowerTier.ProofSupport.OrderedMap

/-!
# Streams that are cut into chunks

A stream is a list of chunks, and a chunk stands at the offset where those before it end.  Chunks
that are not empty are told apart by their offsets and do not overlap.
-/

namespace LowerTier.ProofSupport.ChunkStream

open List

variable {α : Type}

/-- The chunks with their offsets, from an offset on. -/
def placed : Nat → List (List α) → List (Nat × List α)
  | _, [] => []
  | offset, chunk :: chunks => (offset, chunk) :: placed (offset + chunk.length) chunks

variable {offset n n' : Nat} {chunk chunk' : List α} {chunks front back : List (List α)}

theorem placed_append :
    placed offset (front ++ back) =
      placed offset front ++ placed (offset + front.flatten.length) back := by
  induction front generalizing offset with
  | nil => rfl
  | cons chunk front ih =>
    rw [cons_append, placed, placed, ih, flatten_cons, length_append, cons_append, Nat.add_assoc]

theorem mem_placed_iff :
    (n, chunk) ∈ placed offset chunks ↔
      ∃ front back, chunks = front ++ chunk :: back ∧ n = offset + front.flatten.length := by
  induction chunks generalizing offset with
  | nil => simp [placed]
  | cons first chunks ih =>
    rw [placed, mem_cons, ih]
    constructor
    · rintro (hfirst | ⟨front, back, rfl, rfl⟩)
      · cases hfirst
        exact ⟨[], chunks, rfl, rfl⟩
      · refine ⟨first :: front, back, rfl, ?_⟩
        rw [flatten_cons, length_append]
        omega
    · rintro ⟨front, back, hchunks, rfl⟩
      cases front with
      | nil =>
        cases hchunks
        exact .inl rfl
      | cons other front =>
        cases hchunks
        refine .inr ⟨front, back, rfl, ?_⟩
        rw [flatten_cons, length_append]
        omega

/-- A run of placed chunks from the start is the placement of a front part. -/
theorem exists_takeWhile_placed (p : Nat × List α → Bool) (offset : Nat) (chunks : List (List α)) :
    ∃ front back, chunks = front ++ back ∧
      (placed offset chunks).takeWhile p = placed offset front ∧
      ∀ entry ∈ placed offset front, p entry = true := by
  induction chunks generalizing offset with
  | nil => exact ⟨[], [], rfl, rfl, by simp [placed]⟩
  | cons first chunks ih =>
    by_cases hfirst : p (offset, first) = true
    · obtain ⟨front, back, hchunks, htake, hall⟩ := ih (offset + first.length)
      refine ⟨first :: front, back, by rw [hchunks]; rfl, ?_, ?_⟩
      · rw [placed, takeWhile_cons_of_pos hfirst, htake, placed]
      · exact forall_mem_cons.mpr ⟨hfirst, hall⟩
    · refine ⟨[], first :: chunks, rfl, ?_, by simp [placed]⟩
      exact takeWhile_cons_of_neg hfirst

def ChunkAt (chunks : List (List α)) (n : Nat) (chunk : List α) : Prop :=
  (n, chunk) ∈ placed 0 chunks

namespace ChunkAt

theorem iff_split :
    ChunkAt chunks n chunk ↔
      ∃ front back, chunks = front ++ chunk :: back ∧ n = front.flatten.length := by
  unfold ChunkAt
  rw [mem_placed_iff]
  simp only [Nat.zero_add]

theorem append (h : ChunkAt chunks n chunk) (more : List (List α)) :
    ChunkAt (chunks ++ more) n chunk := by
  unfold ChunkAt at h ⊢
  rw [placed_append]
  exact mem_append_left _ h

theorem last (chunks : List (List α)) (chunk : List α) :
    ChunkAt (chunks ++ [chunk]) chunks.flatten.length chunk :=
  iff_split.mpr ⟨chunks, [], rfl, rfl⟩

theorem mem (h : ChunkAt chunks n chunk) : chunk ∈ chunks := by
  obtain ⟨front, back, rfl, -⟩ := iff_split.mp h
  exact mem_append_right _ mem_cons_self

theorem end_le (h : ChunkAt chunks n chunk) : n + chunk.length ≤ chunks.flatten.length := by
  obtain ⟨front, back, rfl, rfl⟩ := iff_split.mp h
  rw [flatten_append, flatten_cons, length_append, length_append]
  omega

theorem apart_or_eq (h : ChunkAt chunks n chunk) (h' : ChunkAt chunks n' chunk') :
    n + chunk.length ≤ n' ∨ n' + chunk'.length ≤ n ∨ n = n' ∧ chunk = chunk' := by
  obtain ⟨front, back, rfl, rfl⟩ := iff_split.mp h
  obtain ⟨front', back', hsame, rfl⟩ := iff_split.mp h'
  rcases append_eq_append_iff.mp hsame with ⟨_ | ⟨first, middle⟩, rfl, hmiddle⟩ |
    ⟨_ | ⟨first, middle⟩, rfl, hmiddle⟩
  all_goals obtain ⟨rfl, -⟩ := cons.inj hmiddle
  · exact .inr (.inr ⟨by simp, rfl⟩)
  · exact .inl (by simp)
  · exact .inr (.inr ⟨by simp, rfl⟩)
  · exact .inr (.inl (by simp))

theorem eq_next (h : ChunkAt (front ++ back) n chunk) (hn : n = front.flatten.length)
    (hproper : ∀ chunk ∈ front ++ back, chunk ≠ []) : ∃ rest, back = chunk :: rest := by
  have hchunk : 0 < chunk.length := length_pos_iff.mpr (hproper chunk h.mem)
  cases back with
  | nil =>
    have hend := h.end_le
    rw [append_nil] at hend
    omega
  | cons next rest =>
    have hnext : ChunkAt (front ++ next :: rest) front.flatten.length next :=
      iff_split.mpr ⟨front, rest, rfl, rfl⟩
    have hlength : 0 < next.length :=
      length_pos_iff.mpr (hproper next (mem_append_right _ mem_cons_self))
    rcases h.apart_or_eq hnext with hapart | hapart | ⟨-, rfl⟩
    · omega
    · omega
    · exact ⟨rest, rfl⟩

end ChunkAt

end LowerTier.ProofSupport.ChunkStream
