import Mathlib.Data.List.Basic

/-!
# Processing a part of a packet batch (`tunnel/batch.rs`)

`process_selected_with_keep_flags` moves the selected packets out of the batch, lets a closure edit
them, and writes what is kept over the slots that were read before.  `ptr::read` leaves the bytes of
a slot behind, so the model has the memory of the batch and what was dropped.  The number of packets
written never passes the slot that is read next.
-/

def LowerTier.Tunnel.MAX_PACKET_BATCH_SIZE : Nat := 64

namespace LowerTier.Tunnel.PacketBatch

open List

variable {α β ε : Type}

inductive Outcome (ε β : Type) where
  | returned (value : β)
  | error (error : ε)
  | panicked
deriving DecidableEq

/-- A closure that edits a slice in place. -/
structure Process (α ε : Type) where
  run : List α → List α × Outcome ε (List Bool)
  length_run : ∀ packets, (run packets).1.length = packets.length

/-- The entries whose flag is set. -/
def choose : List Bool → List α → List α
  | flag :: flags, packet :: packets =>
    if flag then packet :: choose flags packets else choose flags packets
  | _, _ => []

structure Memory (α : Type) where
  slots : List α
  write : Nat
  dropped : List α

def Memory.place (memory : Memory α) (packet : α) (keep : Bool) : Memory α :=
  if keep then
    { memory with slots := memory.slots.set memory.write packet, write := memory.write + 1 }
  else { memory with dropped := memory.dropped ++ [packet] }

/-- The loop after the closure from a slot on, with the selected packets that are left and their
flags; `none` where an `expect` or an index fails. -/
def merge : List Bool → List Bool → List α → List Bool → Nat → Memory α → Option (Memory α)
  | [], _, _, _, _, memory => some memory
  | true :: selected, _ :: keepUnselected, packet :: packets, keep :: flags, index, memory =>
    merge selected keepUnselected packets flags (index + 1) (memory.place packet keep)
  | false :: selected, keep :: keepUnselected, packets, flags, index, memory =>
    memory.slots[index]?.bind fun packet =>
      merge selected keepUnselected packets flags (index + 1) (memory.place packet keep)
  | _, _, _, _, _, _ => none

def restoreSelectedPackets : List Bool → Nat → List α → List α → Option (List α)
  | [], _, _, slots => some slots
  | false :: selected, index, packets, slots =>
    restoreSelectedPackets selected (index + 1) packets slots
  | true :: selected, index, packet :: packets, slots =>
    restoreSelectedPackets selected (index + 1) packets (slots.set index packet)
  | true :: _, _, [], _ => none

/-- What the call ends with, the packets in the batch and those that were dropped. -/
def processSelectedWithKeepFlags (process : Process α ε) (packets : List α)
    (selected keepUnselected : List Bool) : Option (Outcome ε Unit × List α × List α) :=
  if selected.length ≠ packets.length ∨ keepUnselected.length ≠ packets.length then
    some (.panicked, packets, [])
  else
    let (edited, outcome) := process.run (choose selected packets)
    match outcome with
    | .returned flags =>
      -- unwinding drops the packets that were moved out, and the batch still has their slots
      if flags.length ≠ selected.count true then some (.panicked, packets, edited)
      else
        (merge selected keepUnselected edited flags 0 ⟨packets, 0, []⟩).map fun memory =>
          (.returned (), memory.slots.take memory.write, memory.dropped)
    | .error error =>
      (restoreSelectedPackets selected 0 edited packets).map (.error error, ·, [])
    | .panicked => (restoreSelectedPackets selected 0 edited packets).map (.panicked, ·, [])

/-! ## What becomes of the slots -/

/-- The entries of the first list, the selected ones replaced in order by those of the second. -/
def replaceSelected : List Bool → List β → List β → List β
  | true :: selected, _ :: all, new :: rest => new :: replaceSelected selected all rest
  | false :: selected, old :: all, news => old :: replaceSelected selected all news
  | _, _, _ => []

variable {selected keepUnselected flags : List Bool} {rest packets : List α} {index : Nat}

theorem length_choose (h : selected.length = packets.length) :
    (choose selected packets).length = selected.count true := by
  induction selected generalizing packets with
  | nil => rfl
  | cons flag selected ih =>
    cases packets with
    | nil => cases h
    | cons packet packets => cases flag <;> simp [choose, ih (Nat.succ.inj h)]

/-- The batch got the packets whose flag is set behind those it had, and the others were dropped. -/
def Merged (memory : Memory α) (keep : List Bool) (packets : List α) (result : Option (Memory α)) :
    Prop :=
  ∃ final, result = some final ∧
    final.slots.take final.write = memory.slots.take memory.write ++ choose keep packets ∧
    final.dropped = memory.dropped ++ choose (keep.map (!·)) packets

variable {memory : Memory α}

theorem Merged.of_place {packet : α} {keep : Bool} {result : Option (Memory α)}
    (h : Merged (memory.place packet keep) flags packets result)
    (hwrite : memory.write < memory.slots.length) :
    Merged memory (keep :: flags) (packet :: packets) result := by
  obtain ⟨final, hresult, hkept, hdropped⟩ := h
  refine ⟨final, hresult, hkept.trans ?_, hdropped.trans ?_⟩
  · cases keep with
    | false => rfl
    | true =>
      change (memory.slots.set memory.write packet).take (memory.write + 1) ++ _ = _
      rw [take_add_one, take_set_of_le (Nat.le_refl _), getElem?_set_self hwrite, append_assoc]
      rfl
  · cases keep with
    | false => exact append_assoc _ _ _
    | true => rfl

theorem drop_place (hwrite : memory.write ≤ index) (packet : α) (keep : Bool) :
    (memory.place packet keep).slots.drop (index + 1) = memory.slots.drop (index + 1) ∧
      (memory.place packet keep).write ≤ index + 1 := by
  cases keep with
  | false => exact ⟨rfl, Nat.le_succ_of_le hwrite⟩
  | true => exact ⟨drop_set_of_lt (Nat.lt_succ_of_le hwrite), Nat.succ_le_succ hwrite⟩

/-- From a slot on, the loop keeps and drops the packets by their flags. -/
theorem merge_spec (hselected : selected.length = rest.length)
    (hkeep : keepUnselected.length = rest.length) (hpackets : packets.length = selected.count true)
    (hflags : flags.length = selected.count true) (hwrite : memory.write ≤ index)
    (hrest : memory.slots.drop index = rest) :
    Merged memory (replaceSelected selected keepUnselected flags)
      (replaceSelected selected rest packets)
      (merge selected keepUnselected packets flags index memory) := by
  induction selected generalizing keepUnselected rest packets flags index memory with
  | nil => exact ⟨memory, rfl, (append_nil _).symm, (append_nil _).symm⟩
  | cons isSelected selected ih =>
    obtain ⟨packet, rest, rfl⟩ := exists_cons_of_length_eq_add_one hselected.symm
    obtain ⟨keep, keepUnselected, rfl⟩ := exists_cons_of_length_eq_add_one hkeep
    have hslot : memory.slots[index]? = some packet := by rw [← head?_drop, hrest, head?_cons]
    have hbehind : memory.slots.drop (index + 1) = rest := by rw [← tail_drop, hrest, tail_cons]
    have hroom := Nat.lt_of_le_of_lt hwrite (List.getElem?_eq_some_iff.mp hslot).1
    have hplaced := fun new flag => (drop_place hwrite new flag).1.trans hbehind
    cases isSelected with
    | false =>
      simp only [merge, hslot, Option.bind_some]
      exact (ih (Nat.succ.inj hselected) (Nat.succ.inj hkeep) hpackets hflags
        (drop_place hwrite _ _).2 (hplaced _ _)).of_place hroom
    | true =>
      rw [count_cons_self] at hpackets hflags
      obtain ⟨new, packets, rfl⟩ := exists_cons_of_length_eq_add_one hpackets
      obtain ⟨flag, flags, rfl⟩ := exists_cons_of_length_eq_add_one hflags
      exact (ih (Nat.succ.inj hselected) (Nat.succ.inj hkeep) (Nat.succ.inj hpackets)
        (Nat.succ.inj hflags) (drop_place hwrite _ _).2 (hplaced _ _)).of_place hroom

theorem restoreSelectedPackets_eq (before : List α) (hselected : selected.length = rest.length)
    (hpackets : packets.length = selected.count true) :
    restoreSelectedPackets selected before.length packets (before ++ rest) =
      some (before ++ replaceSelected selected rest packets) := by
  induction selected generalizing before rest packets with
  | nil =>
    obtain rfl := length_eq_zero_iff.mp hselected.symm
    rfl
  | cons isSelected selected ih =>
    obtain ⟨old, rest, rfl⟩ := exists_cons_of_length_eq_add_one hselected.symm
    have hnext := fun new packets => @ih rest packets (before ++ [new]) (Nat.succ.inj hselected)
    simp only [append_assoc, singleton_append, length_append, length_singleton] at hnext
    cases isSelected with
    | false => exact hnext old packets hpackets
    | true =>
      rw [count_cons_self] at hpackets
      obtain ⟨new, packets, rfl⟩ := exists_cons_of_length_eq_add_one hpackets
      rw [restoreSelectedPackets, set_append_right _ _ (Nat.le_refl _), Nat.sub_self, set_cons_zero]
      exact hnext new packets (Nat.succ.inj hpackets)

/-- For every batch, flags and closure that returns one flag per selected packet: the call leaves
the packets with their edits whose flag is set, in order, and drops each of the others once.  If the
closure returns an error or panics, the batch holds all packets as the closure left them. -/
theorem selected_batch_filters (process : Process α ε) (packets : List α)
    (selected keepUnselected : List Bool)
    (hflags : ∀ flags, (process.run (choose selected packets)).2 = .returned flags →
      flags.length = (choose selected packets).length) :
    processSelectedWithKeepFlags process packets selected keepUnselected = some (
      if selected.length = packets.length ∧ keepUnselected.length = packets.length then
        let replaced := replaceSelected selected packets (process.run (choose selected packets)).1
        match (process.run (choose selected packets)).2 with
        | .returned flags =>
          let keep := replaceSelected selected keepUnselected flags
          (.returned (), choose keep replaced, choose (keep.map (!·)) replaced)
        | .error error => (.error error, replaced, [])
        | .panicked => (.panicked, replaced, [])
      else (.panicked, packets, [])) := by
  unfold processSelectedWithKeepFlags
  by_cases hlengths : selected.length = packets.length ∧ keepUnselected.length = packets.length
  · have hedited := process.length_run (choose selected packets)
    rw [length_choose hlengths.1] at hedited hflags
    rw [if_neg (by tauto), if_pos hlengths]
    have hrestored := restoreSelectedPackets_eq [] hlengths.1 hedited
    rw [length_nil, nil_append, nil_append] at hrestored
    generalize process.run (choose selected packets) = result at hedited hflags hrestored ⊢
    obtain ⟨edited, outcome⟩ := result
    cases outcome with
    | returned flags =>
      have hcount := hflags flags rfl
      have hstart : Memory.write ⟨packets, 0, []⟩ ≤ 0 := Nat.le_refl 0
      obtain ⟨final, hmerge, hkept, hdropped⟩ :=
        merge_spec hlengths.1 hlengths.2 hedited hcount hstart rfl
      simp only [hcount, ne_eq, not_true_eq_false, if_false, hmerge, Option.map_some, hkept,
        hdropped]
      rfl
    | error error => simp only [hrestored, Option.map_some]
    | panicked => simp only [hrestored, Option.map_some]
  · rw [if_pos (by tauto), if_neg hlengths]

/-- A closure for two packets: it doubles them and gives up the first. -/
def doubling : Process Nat Unit where
  run packets := (packets.map (2 * ·), .returned [false, true])
  length_run _ := length_map _

theorem selected_batch_filters_doubling :
    processSelectedWithKeepFlags doubling [1, 2, 3, 4] [true, false, true, false]
      [true, true, true, false] = some (.returned (), [2, 6], [2, 4]) :=
  selected_batch_filters doubling [1, 2, 3, 4] _ _ fun flags h => by cases h; rfl

end LowerTier.Tunnel.PacketBatch
