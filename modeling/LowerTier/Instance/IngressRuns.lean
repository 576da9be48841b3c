import LowerTier.Instance.IngressOperations

/-!
# Runs of the NIC ingress queue

A turn of `pop` takes a ready flow, fills a batch and either hands the batch out or puts the flow
back.  With admission and completion these are the steps of a run, and the invariant of the queue
holds after every run.
-/

namespace LowerTier.Instance

open NicIngressQueue Nat Option List ProofSupport ProofSupport.MachineInt KeyedMap AList

namespace NicIngressQueue

variable {queue : NicIngressQueue} {history : List Output} {hash : Nat} {old : Flow}

theorem Inv.activate (h : Inv queue history (some hash))
    (hlookup : queue.flows.lookup hash = some old) (hinactive : old.activeBytes = none)
    {batch : Batch} (hfits : batch.Fits queue) (hlimit : queue.activeFlows < ACTIVE_FLOW_LIMIT) :
    Inv (queue.activate hash old batch.retained) (history ++ [.batch hash batch.packets]) none := by
  have hagrees := h.agrees_of_lookup hlookup
  have hflight : some batch.retained = (some batch.packets).map batchBytes :=
    congrArg some hfits.retained
  refine h.update
    { before := flow_of_lookup hlookup
      after := flow_of_lookup (lookup_setFlow _)
      activeFlows := ?_
      activeBytes := ?_ }
    { h.limits with
      flows := (size_insert_of_some hlookup).trans_le h.limits.flows
      activeFlows := hlimit
      activeBytes := hfits.limit }
    (fun other hother => ⟨rfl, held_other hother⟩) ?_ (fun other => filter_append_other rfl)
    (hagrees.append_one rfl hagrees.bytes hagrees.packetBytes (append_nil _) hflight)
  · rw [activity, hinactive]
    rfl
  · rw [hinactive]
    rfl
  · rw [NicIngressQueue.activate, lookup_setFlow]
    exact (h.linked hash).trans (if_neg fun hheld => hheld.1 rfl)

/-- What a call of `pop` returns: the packets of the batch were put into it in this call, and no
other batch of their flow is in flight. -/
def Returned (history outputs : List Output) : Option (Nat × List QueuedPacket) → Prop
  | none => delivered outputs = []
  | some (hash, packets) => ∃ before, outputs = before ++ [.batch hash packets] ∧ packets ≠ [] ∧
      delivered before = packets.map (hash, ·) ∧ Instance.inFlight hash (history ++ before) = none

theorem Returned.append {outputs more : List Output} {result : Option (Nat × List QueuedPacket)}
    (h : Returned (history ++ outputs) more result) (hnone : delivered outputs = []) :
    Returned history (outputs ++ more) result := by
  cases result with
  | none =>
    rw [Returned, delivered, filterMap_append]
    exact append_eq_nil_iff.mpr ⟨hnone, h⟩
  | some batch =>
    obtain ⟨before, rfl, hsome, hdelivered, hflight⟩ := h
    refine ⟨outputs ++ before, (append_assoc _ _ _).symm, hsome, ?_, ?_⟩
    · rw [delivered, filterMap_append]
      exact (congrArg₂ (· ++ ·) hnone hdelivered).trans (nil_append _)
    · rwa [← append_assoc]

theorem relink_spec (queue : NicIngressQueue) (hash : Nat) (new : Flow) :
    (∃ more, (queue.relink hash new).ready = queue.ready ++ more) ∧
      (queue.relink hash new).activeFlows = queue.activeFlows ∧
      (queue.relink hash new).activeBytes = queue.activeBytes ∧
      ∀ other ≠ hash, (queue.relink hash new).flow other = queue.flow other := by
  unfold relink
  split
  · refine ⟨⟨[], (append_nil _).symm⟩, rfl, rfl, fun other hother => ?_⟩
    rw [flow, lookup_erase_ne hother, flow]
  · exact ⟨⟨[hash], rfl⟩, rfl, rfl, fun _ _ => rfl⟩

def Waiting (queue : NicIngressQueue) (turns : Nat) : Prop :=
  ∃ hash ∈ queue.ready.take turns, (queue.flow hash).packets ≠ []

section

variable (h : Inv queue history none)
include h

theorem Inv.popReady (around : Surroundings) {turns : Nat}
    (hturns : turns ≤ queue.ready.length) (hlimit : queue.activeFlows < ACTIVE_FLOW_LIMIT) :
    ∃ result next outputs, popReady around turns queue = some (result, next, outputs) ∧
      Inv next (history ++ outputs) none ∧ Returned history outputs result ∧
      (queue.activeBytes = 0 → queue.Waiting turns → result ≠ none) := by
  induction turns generalizing queue history with
  | zero =>
    refine ⟨none, queue, [], rfl, by rwa [append_nil], rfl, fun _ hwaiting => ?_⟩
    obtain ⟨hash, hin, -⟩ := hwaiting
    exact absurd hin not_mem_nil
  | succ turns ih =>
    cases hready : queue.ready with
    | nil =>
      rw [hready] at hturns
      exact absurd hturns (not_succ_le_zero _)
    | cons hash ready =>
      obtain ⟨old, hlookup, hinactive, hheld⟩ := h.hold hready
      obtain ⟨next, batch, outputs, hgather, hgathered, hprogress⟩ :=
        hheld.gather (show ({} : Batch).Fits _ from ⟨rfl, h.limits.activeBytes⟩)
          (isSome_of_eq_some hlookup) around old.packets.length
      obtain ⟨flow, hnext⟩ := isSome_iff_exists.mp hgathered.held
      have hstill : flow.activeBytes = none := by
        rw [← flow_of_lookup hnext, hgathered.inactive, ← hinactive, ← flow_of_lookup hlookup]
        rfl
      unfold popReady
      simp only [hready, hlookup, hinactive, hgather, hnext, bind_eq_bind, bind_some,
        isSome_none, Bool.false_eq_true, if_false]
      split
      · next hempty =>
        have hnone : delivered outputs = [] := by
          have hall := hgathered.packets
          rw [isEmpty_iff.mp hempty] at hall
          exact hall.symm
        obtain ⟨⟨added, hadded⟩, hflows, hbytes, hothers⟩ := relink_spec next hash flow
        rw [hgathered.ready] at hadded
        rw [hgathered.activeFlows] at hflows
        rw [hgathered.activeBytes] at hbytes
        rw [hready] at hturns
        have hturns' : turns ≤ ready.length := le_of_succ_le_succ hturns
        obtain ⟨result, last, more, hrest, hinv, hreturned, hprogress'⟩ :=
          ih (hgathered.inv.relink hnext hstill)
            (by rw [hadded, length_append]; exact le_add_right_of_le hturns')
            (hflows.trans_lt hlimit)
        refine ⟨result, last, outputs ++ more, bind_eq_some_iff.mpr ⟨_, hrest, rfl⟩,
          by rwa [← append_assoc], hreturned.append hnone, fun hidle hwaiting => ?_⟩
        obtain ⟨other, hin, hpackets⟩ := hwaiting
        have hother : other ≠ hash := by
          rintro rfl
          exact hprogress hidle hpackets (flow_of_lookup hlookup ▸ le_rfl) (isEmpty_iff.mp hempty)
        rw [hready, take_succ_cons] at hin
        refine hprogress' (hbytes.trans hidle) ⟨other, ?_, ?_⟩
        · rw [hadded, take_append_of_le_length hturns']
          exact (mem_cons.mp hin).resolve_left hother
        · rwa [hothers other hother, hgathered.others other hother]
      · next hsome =>
        have hidle : Instance.inFlight hash (history ++ outputs) = none := by
          have hflight := (hgathered.inv.agrees_of_lookup hnext).inFlight
          rw [hstill] at hflight
          exact map_eq_none_iff.mp hflight.symm
        refine ⟨_, _, _, rfl, ?_, ⟨outputs, rfl, ?_, hgathered.packets.symm, hidle⟩,
          fun _ _ => nofun⟩
        · rw [← append_assoc]
          exact hgathered.inv.activate hnext hstill hgathered.fits
            (hgathered.activeFlows.trans_lt hlimit)
        · exact fun hempty => hsome (isEmpty_iff.mpr hempty)

theorem Inv.idle (hactive : queue.activeFlows = 0)
    (hlookup : queue.flows.lookup hash = some old) : old.activeBytes = none := by
  have hle := le_sumBy activity hlookup
  rw [← h.activeFlows, hactive, activity] at hle
  split at hle
  · exact absurd hle (not_succ_le_zero _)
  · next hnone => exact not_isSome_iff_eq_none.mp hnone

theorem Inv.waiting (hpackets : queue.packets ≠ 0)
    (hactive : queue.activeFlows = 0) : queue.Waiting queue.ready.length := by
  by_contra hnone
  rw [Waiting, take_length] at hnone
  push Not at hnone
  refine hpackets (h.packets.trans (sumBy_eq_zero fun hash flow hlookup => ?_))
  have hlinked := h.linked hash
  rw [hlookup, any_some, h.idle hactive hlookup, if_pos ⟨nofun, rfl⟩] at hlinked
  have hempty := hnone hash (count_pos_iff.mp (by omega))
  rw [flow_of_lookup hlookup] at hempty
  rw [hempty, length_nil]

theorem Inv.pop (around : Surroundings) :
    ∃ result next outputs, queue.pop around = some (result, next, outputs) ∧
      Inv next (history ++ outputs) none ∧ Returned history outputs result ∧
      (queue.packets ≠ 0 → queue.activeFlows = 0 → result ≠ none) := by
  unfold NicIngressQueue.pop
  split
  · next hfull =>
    refine ⟨none, queue, [], rfl, by rwa [append_nil], rfl, fun _ hactive => ?_⟩
    rw [hactive] at hfull
    cases hfull
  next hlimit =>
  rw [checkedSub_of_le h.limits.activeBytes]
  obtain ⟨result, next, outputs, hturns, hinv, hreturned, hprogress⟩ :=
    h.popReady around le_rfl (not_le.mp hlimit)
  refine ⟨result, next, outputs, hturns, hinv, hreturned, fun hpackets hactive => ?_⟩
  have hidle : queue.activeBytes = 0 := h.activeBytes.trans <|
    sumBy_eq_zero fun _ _ hlookup => by rw [h.idle hactive hlookup, getD_none]
  exact hprogress hidle (h.waiting hpackets hactive)

theorem Inv.complete (hflight : Instance.inFlight hash history ≠ none) :
    ∃ next outputs, queue.complete hash = some (next, outputs) ∧
      Inv next (history ++ outputs) none ∧
      delivered outputs = [] := by
  obtain ⟨batch, hbatch⟩ := ne_none_iff_exists'.mp hflight
  cases hlookup : queue.flows.lookup hash with
  | none =>
    have hactive := (h.agrees hash).inFlight
    rw [hbatch, flow, hlookup] at hactive
    cases hactive
  | some old =>
    have hagrees := h.agrees_of_lookup hlookup
    have hactive := hagrees.inFlight
    rw [hbatch, map_some] at hactive
    have hbytes := le_sumBy (·.activeBytes.getD 0) hlookup
    have hcount := le_sumBy activity hlookup
    rw [← h.activeBytes] at hbytes
    rw [← h.activeFlows] at hcount
    simp only [activity, hactive, getD_some, isSome_some, if_true] at hbytes hcount
    have hcomplete : queue.complete hash = some (NicIngressQueue.relink { queue.setFlow hash
        { old with activeBytes := none } with
          activeBytes := queue.activeBytes - batchBytes batch
          activeFlows := queue.activeFlows - 1 }
        hash { old with activeBytes := none }, [.completed hash]) := by
      simp only [NicIngressQueue.complete, hlookup, hactive, bind_eq_bind, bind_some,
        checkedSub_of_le hbytes, checkedSub_of_le hcount]
    have hlinked := h.linked hash
    rw [hlookup, any_some, hactive, if_neg fun hfree => by cases hfree.2] at hlinked
    refine ⟨_, _, hcomplete, Inv.relink ?_ (lookup_setFlow _) rfl, rfl⟩
    refine h.update
      { before := flow_of_lookup hlookup
        after := flow_of_lookup (lookup_setFlow _)
        activeFlows := ?_
        activeBytes := ?_ }
      { h.limits with
        flows := (size_insert_of_some hlookup).trans_le h.limits.flows
        activeFlows := (sub_le _ _).trans h.limits.activeFlows
        activeBytes := (sub_le _ _).trans h.limits.activeBytes }
      (fun other hother => ⟨rfl, (held_other hother).symm⟩) ?_
      (fun other => filter_append_other rfl)
      (hagrees.append_one rfl hagrees.bytes hagrees.packetBytes (append_nil _) rfl)
    · simp only [activity, hactive, isSome_some, if_true]
      change queue.activeFlows - 1 + 1 = queue.activeFlows
      omega
    · rw [hactive]
      change queue.activeBytes - batchBytes batch + batchBytes batch = queue.activeBytes
      omega
    · rw [if_neg fun hheld => hheld.1 rfl]
      exact hlinked

end

/-! ## Whole runs -/

/-- Only a batch that was returned is completed, and only once. -/
def Event.allowed (history : List Output) : Event → Bool
  | .complete hash => (Instance.inFlight hash history).isSome
  | _ => true

structure Sound (queue : NicIngressQueue) (history : List Output) (event : Event)
    (result : Option (Nat × List QueuedPacket)) (next : NicIngressQueue) (outputs : List Output) :
    Prop where
  /-- No `expect` and no subtraction fails. -/
  call : queue.call event = some (result, next, outputs)
  inv : Inv next (history ++ outputs) none
  returned : Returned history outputs result
  progress : ∀ around, event = .pop around → queue.packets ≠ 0 → queue.activeFlows = 0 →
    result ≠ none

theorem Inv.sound (h : Inv queue history none) {event : Event}
    (hallowed : event.allowed history = true) :
    ∃ result next outputs, Sound queue history event result next outputs := by
  cases event with
  | push hash packet compacted order =>
    obtain ⟨next, outputs, hpush, hinv, hnone⟩ := h.pushAt hash packet compacted order
    refine ⟨none, next, outputs, ?_, hinv, hnone, nofun⟩
    rw [call, hpush, map_some]
  | pop around =>
    obtain ⟨result, next, outputs, hpop, hinv, hreturned, hprogress⟩ := h.pop around
    exact ⟨result, next, outputs, hpop, hinv, hreturned, fun _ _ => hprogress⟩
  | complete hash =>
    obtain ⟨next, outputs, hcomplete, hinv, hnone⟩ := h.complete (isSome_iff_ne_none.mp hallowed)
    refine ⟨none, next, outputs, ?_, hinv, hnone, nofun⟩
    rw [call, hcomplete, map_some]

theorem inv_empty : Inv empty [] none where
  packets := rfl
  bytes := rfl
  activeFlows := rfl
  activeBytes := rfl
  limits := ⟨zero_le _, zero_le _, zero_le _, zero_le _, zero_le _⟩
  linked _ := rfl
  agrees _ := ⟨rfl, nofun, rfl, rfl⟩

def Accounted (queue : NicIngressQueue) (history : List Output) (event : Event) : Prop :=
  Inv queue history none ∧ ∃ result next outputs, queue.step event = (next, outputs) ∧
    Sound queue history event result next outputs

theorem Inv.accounted (h : Inv queue history none) {event : Event}
    (hallowed : event.allowed history = true) : Accounted queue history event := by
  obtain ⟨result, next, outputs, hsound⟩ := h.sound hallowed
  refine ⟨h, result, next, outputs, ?_, hsound⟩
  rw [step, hsound.call, map_some, getD_some]

/-- Two packets of a flow are queued, handed out and completed. -/
def delivery : List Event :=
  [.push 7 ⟨1, 100, 0⟩ 100 id, .push 7 ⟨2, 200, 0⟩ 200 id,
    .pop ⟨fun next _ => next, fun _ => false, 5, fun _ => (0, false)⟩,
    .complete 7]

end NicIngressQueue

end LowerTier.Instance
