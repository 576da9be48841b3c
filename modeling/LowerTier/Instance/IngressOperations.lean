import LowerTier.Instance.NicIngress

/-!
# Accounting, order and progress of the NIC ingress queue

The counters are the sums over the flows, and every flow is linked once or has one batch in flight.
During a turn of `pop` one flow is held: it is in no list.  An operation changes one flow at a time,
so `Inv.update` carries the invariant through all of them.
-/

namespace LowerTier.Instance

open NicIngressQueue Option List ProofSupport ProofSupport.MachineInt KeyedMap Nat AList

/-! ## What the outputs say -/

namespace Output

def hash : Output → Nat
  | rejected hash _ | admitted hash _ | evicted hash _ | dropped hash _ | delivered hash _
  | batch hash _ | completed hash => hash

def arrived : Output → Option QueuedPacket
  | admitted _ packet => some packet
  | _ => none

def departed : Output → Option QueuedPacket
  | evicted _ packet | dropped _ packet | delivered _ packet => some packet
  | _ => none

def nextFlight (current : Option (List QueuedPacket)) : Output → Option (List QueuedPacket)
  | batch _ packets => some packets
  | completed _ => none
  | _ => current

end Output

def arrivals (hash : Nat) (history : List Output) : List QueuedPacket :=
  (history.filter (·.hash == hash)).filterMap (·.arrived)

def departures (hash : Nat) (history : List Output) : List QueuedPacket :=
  (history.filter (·.hash == hash)).filterMap (·.departed)

/-- The batch of a flow that was returned and is not completed. -/
def inFlight (hash : Nat) (history : List Output) : Option (List QueuedPacket) :=
  (history.filter (·.hash == hash)).foldl Output.nextFlight none

def batchBytes (packets : List QueuedPacket) : Nat := (packets.map (·.bytes)).sum

theorem Codel.signal_of_backlog_le {controlLaw : Nat → Nat → Nat} {codel : Codel}
    {now sojourn backlog maxPacket : Nat} (h : backlog ≤ maxPacket) :
    (codel.signal controlLaw now sojourn backlog maxPacket).1 = false := by
  have hbelow : codel.isAbove now sojourn backlog maxPacket =
      (false, { codel with firstAbove := none }) := if_pos (.inr h)
  simp only [signal, hbelow, Bool.false_eq_true, if_false]
  split
  · rfl
  · rfl

/-- A packet leaves its flow. -/
def Output.Removes (hash : Nat) (packet : QueuedPacket) (output : Output) : Prop :=
  output = .evicted hash packet ∨ output = .dropped hash packet ∨ output = .delivered hash packet

theorem Output.Removes.hash_eq {output : Output} {hash : Nat} {packet : QueuedPacket}
    (h : output.Removes hash packet) : output.hash = hash := by
  rcases h with rfl | rfl | rfl
  · rfl
  · rfl
  · rfl

variable {history history' : List Output} {output : Output} {hash other : Nat}
  {packet : QueuedPacket} {rest : List QueuedPacket}

theorem filter_append_other (houtput : output.hash = hash) (hother : other ≠ hash) :
    (history ++ [output]).filter (·.hash == other) = history.filter (·.hash == other) := by
  have hne : ¬(output.hash == other) = true := fun hsame =>
    hother ((beq_iff_eq.mp hsame).symm.trans houtput)
  rw [filter_append, filter_singleton, eq_false_of_ne_true hne]
  exact append_nil _

theorem filter_append_one (houtput : output.hash = hash) :
    (history ++ [output]).filter (·.hash == hash) =
      history.filter (·.hash == hash) ++ [output] := by
  rw [filter_append, filter_singleton, beq_iff_eq.mpr houtput]
  rfl

theorem inFlight_append_one (houtput : output.hash = hash) :
    inFlight hash (history ++ [output]) = output.nextFlight (inFlight hash history) := by
  rw [inFlight, filter_append_one houtput, foldl_append]
  rfl

/-- What a flow holds is what the outputs say of it. -/
structure Flow.Agrees (flow : Flow) (hash : Nat) (history : List Output) : Prop where
  bytes : flow.bytes = batchBytes flow.packets
  packetBytes : ∀ packet ∈ flow.packets, packet.bytes ≤ ACTIVE_BYTE_LIMIT
  order : arrivals hash history = departures hash history ++ flow.packets
  inFlight : flow.activeBytes = (inFlight hash history).map batchBytes

namespace Flow.Agrees

variable {flow new : Flow}

theorem of_filter (h : flow.Agrees hash history)
    (hsame : history'.filter (·.hash == hash) = history.filter (·.hash == hash)) :
    flow.Agrees hash history' := by
  refine { h with order := ?_, inFlight := ?_ }
  · rw [arrivals, departures, hsame]
    exact h.order
  · rw [Instance.inFlight, hsame]
    exact h.inFlight

theorem append_one (h : flow.Agrees hash history) (houtput : output.hash = hash)
    (hbytes : new.bytes = batchBytes new.packets)
    (hpacketBytes : ∀ packet ∈ new.packets, packet.bytes ≤ ACTIVE_BYTE_LIMIT)
    (horder : flow.packets ++ [output].filterMap (·.arrived) =
      [output].filterMap (·.departed) ++ new.packets)
    (hinFlight : new.activeBytes =
      (output.nextFlight (Instance.inFlight hash history)).map batchBytes) :
    new.Agrees hash (history ++ [output]) where
  bytes := hbytes
  packetBytes := hpacketBytes
  order := by
    have hbefore := h.order
    rw [arrivals, departures] at hbefore ⊢
    rw [filter_append_one houtput, filterMap_append, filterMap_append, hbefore, append_assoc,
      horder, append_assoc]
  inFlight := by rw [inFlight_append_one houtput, hinFlight]

theorem rejected (h : flow.Agrees hash history) (packet : QueuedPacket) :
    flow.Agrees hash (history ++ [.rejected other packet]) := by
  by_cases hsame : hash = other
  · subst hsame
    exact h.append_one rfl h.bytes h.packetBytes (append_nil _) h.inFlight
  · exact h.of_filter (filter_append_other rfl hsame)

theorem removed (h : flow.Agrees hash history) (hpackets : flow.packets = packet :: rest)
    (houtput : output.Removes hash packet) :
    { flow with packets := rest, bytes := flow.bytes - packet.bytes : Flow }.Agrees hash
      (history ++ [output]) := by
  have hbytes := h.bytes
  have hpacketBytes := h.packetBytes
  rw [hpackets] at hbytes hpacketBytes
  have hrest : flow.bytes - packet.bytes = batchBytes rest := by
    rw [hbytes]
    exact Nat.add_sub_cancel_left _ _
  have hlimit : ∀ other ∈ rest, other.bytes ≤ ACTIVE_BYTE_LIMIT := fun other hin =>
    hpacketBytes other (mem_cons_of_mem _ hin)
  have horder : flow.packets ++ [] = [packet] ++ rest := by rw [append_nil, hpackets]; rfl
  rcases houtput with rfl | rfl | rfl
  · exact h.append_one rfl hrest hlimit horder h.inFlight
  · exact h.append_one rfl hrest hlimit horder h.inFlight
  · exact h.append_one rfl hrest hlimit horder h.inFlight

theorem push (h : flow.Agrees hash history) (hbytes : packet.bytes ≤ ACTIVE_BYTE_LIMIT) :
    (flow.push packet).Agrees hash (history ++ [.admitted hash packet]) := by
  refine h.append_one rfl ?_ (fun other hin => ?_) rfl h.inFlight
  · rw [Flow.push, h.bytes, batchBytes, batchBytes, map_append, List.sum_append, map_singleton,
      sum_singleton]
  · rcases mem_append.mp hin with hold | hnew
    · exact h.packetBytes other hold
    · exact mem_singleton.mp hnew ▸ hbytes

end Flow.Agrees

namespace NicIngressQueue

def flow (queue : NicIngressQueue) (hash : Nat) : Flow := (queue.flows.lookup hash).getD {}

def activity (flow : Flow) : Nat := if flow.activeBytes.isSome then 1 else 0

structure WithinLimits (queue : NicIngressQueue) : Prop where
  packets : queue.packets ≤ PACKET_LIMIT
  bytes : queue.bytes ≤ QUEUED_BYTE_LIMIT
  flows : queue.flows.size ≤ FLOW_LIMIT
  activeFlows : queue.activeFlows ≤ ACTIVE_FLOW_LIMIT
  activeBytes : queue.activeBytes ≤ ACTIVE_BYTE_LIMIT

/-- The state of the queue after some outputs, while a flow may be held. -/
structure Inv (queue : NicIngressQueue) (history : List Output) (held : Option Nat) : Prop where
  packets : queue.packets = queue.flows.sumBy (·.packets.length)
  bytes : queue.bytes = queue.flows.sumBy (·.bytes)
  activeFlows : queue.activeFlows = queue.flows.sumBy activity
  activeBytes : queue.activeBytes = queue.flows.sumBy (·.activeBytes.getD 0)
  limits : queue.WithinLimits
  linked : ∀ hash, queue.ready.count hash =
    if held ≠ some hash ∧ (queue.flows.lookup hash).any (·.activeBytes.isNone) then 1 else 0
  agrees : ∀ hash, (queue.flow hash).Agrees hash history

/-- One flow changes, and the counters follow it. -/
structure Change (queue next : NicIngressQueue) (hash : Nat) (old new : Flow) : Prop where
  before : queue.flow hash = old
  after : next.flow hash = new
  others : ∀ other ≠ hash, next.flows.lookup other = queue.flows.lookup other := by
    exact fun _ => lookup_insert_ne
  packets : next.packets + old.packets.length = queue.packets + new.packets.length := by rfl
  bytes : next.bytes + old.bytes = queue.bytes + new.bytes := by rfl
  activeFlows : next.activeFlows + activity old = queue.activeFlows + activity new := by rfl
  activeBytes : next.activeBytes + old.activeBytes.getD 0 =
    queue.activeBytes + new.activeBytes.getD 0 := by rfl

variable {queue next : NicIngressQueue} {held held' : Option Nat} {old new : Flow}

theorem flow_of_lookup (h : queue.flows.lookup hash = some old) : queue.flow hash = old := by
  rw [flow, h, getD_some]

/-- A change of one flow keeps the invariant if the outputs tell of its packets. -/
theorem Inv.update (h : Inv queue history held) (hchange : Change queue next hash old new)
    (hlimits : next.WithinLimits)
    (hothers : ∀ other ≠ hash, next.ready.count other = queue.ready.count other ∧
      (held' = some other ↔ held = some other))
    (hlinked : next.ready.count hash =
      if held' ≠ some hash ∧ (next.flows.lookup hash).any (·.activeBytes.isNone) then 1 else 0)
    (hhistory : ∀ other ≠ hash, history'.filter (·.hash == other) =
      history.filter (·.hash == other))
    (hagrees : new.Agrees hash history') : Inv next history' held' := by
  have hsum : ∀ weight : Flow → Nat, weight {} = 0 →
      next.flows.sumBy weight + weight old = queue.flows.sumBy weight + weight new := by
    intro weight hzero
    rw [← hchange.before, ← hchange.after]
    exact sumBy_add_of_others weight hzero hchange.others
  constructor
  · have hadd := hsum (·.packets.length) rfl
    have hpackets := hchange.packets
    have hbefore := h.packets
    omega
  · have hadd := hsum (·.bytes) rfl
    have hbytes := hchange.bytes
    have hbefore := h.bytes
    omega
  · have hadd := hsum activity rfl
    have hactiveFlows := hchange.activeFlows
    have hbefore := h.activeFlows
    omega
  · have hadd := hsum (·.activeBytes.getD 0) rfl
    have hactiveBytes := hchange.activeBytes
    have hbefore := h.activeBytes
    omega
  · exact hlimits
  · intro other
    by_cases hsame : other = hash
    · rw [hsame, hlinked]
    · rw [(hothers other hsame).1, h.linked, hchange.others other hsame]
      simp only [ne_eq, (hothers other hsame).2]
  · intro other
    by_cases hsame : other = hash
    · rw [hsame, hchange.after]
      exact hagrees
    · rw [flow, hchange.others other hsame]
      exact (h.agrees other).of_filter (hhistory other hsame)

theorem Inv.rejected (h : Inv queue history held) (hash : Nat) (packet : QueuedPacket) :
    Inv queue (history ++ [.rejected hash packet]) held :=
  { h with agrees := fun other => (h.agrees other).rejected packet }

def HasPlace (queue : NicIngressQueue) (hash : Nat) : Prop :=
  (queue.flows.lookup hash).isSome ∨ queue.flows.size < FLOW_LIMIT

theorem lookup_setFlow (flow : Flow) : (queue.setFlow hash flow).flows.lookup hash = some flow :=
  lookup_insert _

section

variable (h : Inv queue history held) (hlookup : queue.flows.lookup hash = some old)
include h hlookup

theorem Inv.agrees_of_lookup : old.Agrees hash history :=
  flow_of_lookup hlookup ▸ h.agrees hash

/-! ## Packets that leave -/

/-- The first packet of a flow can leave, and the invariant holds with the output of it. -/
theorem Inv.popFront (hpackets : old.packets = packet :: rest) :
    ∃ next, queue.popFront hash = some (packet, next) ∧
      next.flows = queue.flows.insert hash
        { old with packets := rest, bytes := old.bytes - packet.bytes } ∧
      next.packets + 1 = queue.packets ∧ next.activeBytes = queue.activeBytes ∧
      next.activeFlows = queue.activeFlows ∧ next.ready = queue.ready ∧
      ∀ output : Output, output.Removes hash packet → Inv next (history ++ [output]) held := by
  have hagrees := h.agrees_of_lookup hlookup
  have hflowBytes : old.bytes = packet.bytes + batchBytes rest := by
    have hbytes := hagrees.bytes
    rw [hpackets] at hbytes
    exact hbytes
  have hbytes : old.bytes ≤ queue.bytes := h.bytes ▸ le_sumBy (·.bytes) hlookup
  have hcount : old.packets.length ≤ queue.packets :=
    h.packets ▸ le_sumBy (·.packets.length) hlookup
  rw [hpackets, length_cons] at hcount
  have hpop : queue.popFront hash = some (packet, { queue.setFlow hash
      { old with packets := rest, bytes := old.bytes - packet.bytes } with
        bytes := queue.bytes - packet.bytes, packets := queue.packets - 1 }) := by
    simp only [NicIngressQueue.popFront, hlookup, bind_eq_bind, bind_some, hpackets,
      checkedSub_of_le (show packet.bytes ≤ old.bytes by omega),
      checkedSub_of_le (show packet.bytes ≤ queue.bytes by omega),
      checkedSub_of_le (show 1 ≤ queue.packets by omega)]
  have hone : queue.packets - 1 + 1 = queue.packets := by omega
  refine ⟨_, hpop, rfl, hone, rfl, rfl, rfl, fun output houtput => ?_⟩
  have hlimits := h.limits
  have hlinked := h.linked hash
  rw [hlookup, any_some] at hlinked
  refine h.update
    { before := flow_of_lookup hlookup
      after := flow_of_lookup (lookup_setFlow _)
      packets := ?_
      bytes := ?_ }
    { hlimits with
      packets := (sub_le _ _).trans hlimits.packets
      bytes := (sub_le _ _).trans hlimits.bytes
      flows := (size_insert_of_some hlookup).trans_le hlimits.flows }
    (fun _ _ => ⟨rfl, Iff.rfl⟩) ?_ (fun other => filter_append_other houtput.hash_eq)
    (hagrees.removed hpackets houtput)
  · rw [hpackets, length_cons]
    change queue.packets - 1 + (rest.length + 1) = queue.packets + rest.length
    omega
  · change queue.bytes - packet.bytes + old.bytes = queue.bytes + (old.bytes - packet.bytes)
    omega
  · rw [lookup_setFlow]
    exact hlinked

theorem Inv.setCodel (codel : Codel) :
    Inv (queue.setFlow hash { old with codel := codel }) history held := by
  have hagrees := h.agrees_of_lookup hlookup
  have hlinked := h.linked hash
  rw [hlookup, any_some] at hlinked
  refine h.update
    { before := flow_of_lookup hlookup
      after := flow_of_lookup (lookup_setFlow _) }
    { h.limits with flows := (size_insert_of_some hlookup).trans_le h.limits.flows }
    (fun _ _ => ⟨rfl, Iff.rfl⟩) ?_ (fun _ _ => rfl) { hagrees with }
  rw [lookup_setFlow]
  exact hlinked

end

/-!
## The operations of the NIC ingress queue

Every call succeeds and keeps the invariant.  CoDel never signals for the last packet of a flow, so
a flow with packets always yields a batch when nothing is in flight.
-/

/-! ## Admission -/

def delivered (outputs : List Output) : List (Nat × QueuedPacket) :=
  outputs.filterMap fun output =>
    match output with
    | .delivered hash packet => some (hash, packet)
    | _ => none

theorem lookup_largest {order : Nat → Nat} (h : queue.largest order = some hash) :
    ∃ flow, queue.flows.lookup hash = some flow ∧ flow.packets ≠ [] := by
  obtain ⟨entry, hargmax, rfl⟩ := map_eq_some_iff.mp h
  obtain ⟨hentry, hnonempty⟩ := mem_filter.mp (argmax_mem hargmax)
  refine ⟨entry.2, mem_lookup_iff.mpr hentry, fun hempty => ?_⟩
  rw [hempty] at hnonempty
  cases hnonempty

theorem hasPlace_insert {flows : KeyedMap Nat Flow}
    (hflows : next.flows = flows.insert other new) (hlookup : flows.lookup other = some old)
    (h : (flows.lookup hash).isSome ∨ flows.size < FLOW_LIMIT) : next.HasPlace hash := by
  rw [HasPlace, hflows, size_insert_of_some hlookup]
  refine h.imp_left fun hsome => ?_
  by_cases hsame : hash = other
  · rw [hsame, lookup_insert]
    rfl
  · rwa [lookup_insert_ne hsame]

theorem count_append_other {ready : List Nat} (h : other ≠ hash) :
    (ready ++ [hash]).count other = ready.count other := by
  rw [count_append, count_singleton, if_neg (by simpa using h.symm), add_zero]

/-- The loop that makes room ends, since every turn takes a packet away. -/
theorem Inv.makeRoom (h : Inv queue history none) (order : Nat → Nat) (bytes : Nat) {fuel : Nat}
    (hfuel : queue.packets < fuel) (hplace : queue.HasPlace hash) :
    ∃ room next outputs, makeRoom order bytes fuel queue = some (room, next, outputs) ∧
      Inv next (history ++ outputs) none ∧ next.HasPlace hash ∧ delivered outputs = [] ∧
      (room = true → next.packets < PACKET_LIMIT ∧ next.bytes + bytes ≤ QUEUED_BYTE_LIMIT) := by
  induction fuel generalizing queue history with
  | zero => exact absurd hfuel (not_lt_zero _)
  | succ fuel ih =>
    unfold makeRoom
    split
    · cases hlargest : queue.largest order with
      | none => exact ⟨false, queue, [], rfl, by rwa [append_nil], hplace, rfl, nofun⟩
      | some victim =>
        obtain ⟨flow, hlookup, hnonempty⟩ := lookup_largest hlargest
        obtain ⟨packet, rest, hpackets⟩ := exists_cons_of_ne_nil hnonempty
        obtain ⟨popped, hpop, hflows, hcount, -, -, -, hinv⟩ := h.popFront hlookup hpackets
        obtain ⟨room, next, outputs, hrest, hnext, hplace', hnone, hroom⟩ :=
          ih (hinv (.evicted victim packet) (.inl rfl)) (by omega)
            (hasPlace_insert hflows hlookup hplace)
        refine ⟨room, next, .evicted victim packet :: outputs, ?_, ?_, hplace', hnone, hroom⟩
        · simp only [hpop, hrest, bind_eq_bind, bind_some]
        · rwa [append_assoc] at hnext
    · next hroom =>
      refine ⟨true, queue, [], rfl, by rwa [append_nil], hplace, rfl, fun _ => ?_⟩
      push Not at hroom
      exact hroom

theorem Inv.enqueue (h : Inv queue history none) (hbytes : packet.bytes ≤ ACTIVE_BYTE_LIMIT)
    (hplace : queue.HasPlace hash) (hpacketRoom : queue.packets < PACKET_LIMIT)
    (hbyteRoom : queue.bytes + packet.bytes ≤ QUEUED_BYTE_LIMIT) :
    Inv (queue.enqueue hash packet) (history ++ [.admitted hash packet]) none := by
  have hlinked := h.linked hash
  refine h.update
    { before := rfl
      after := show _ = (queue.flow hash).push packet from flow_of_lookup (lookup_insert _)
      packets := ?_
      bytes := ?_ }
    { h.limits with
      packets := hpacketRoom
      bytes := hbyteRoom
      flows := size_insert_le h.limits.flows hplace }
    (fun other hother => ⟨?_, Iff.rfl⟩) ?_ (fun other => filter_append_other rfl)
    ((h.agrees hash).push hbytes)
  · rw [Flow.push, length_append, length_singleton]
    change queue.packets + 1 + _ = _
    omega
  · change queue.bytes + packet.bytes + _ = queue.bytes + ((queue.flow hash).bytes + packet.bytes)
    omega
  · change (if _ then queue.ready else queue.ready ++ [hash]).count other = _
    split
    · rfl
    · exact count_append_other hother
  · change (if _ then queue.ready else queue.ready ++ [hash]).count hash = _
    rw [NicIngressQueue.enqueue, lookup_setFlow]
    cases hlookup : queue.flows.lookup hash with
    | none =>
      rw [hlookup] at hlinked
      have hunlinked : queue.ready.count hash = 0 := hlinked
      change (queue.ready ++ [hash]).count hash = 1
      rw [count_append, hunlinked, count_singleton_self]
    | some old =>
      rw [hlookup] at hlinked
      exact hlinked

theorem Inv.pushAt (h : Inv queue history none) (hash : Nat) (packet : QueuedPacket)
    (compacted : Nat)
    (order : Nat → Nat) : ∃ next outputs,
      queue.pushAt hash packet compacted order = some (next, outputs) ∧
      Inv next (history ++ outputs) none ∧ delivered outputs = [] := by
  unfold NicIngressQueue.pushAt
  dsimp only
  generalize compactRetainedBuffer packet compacted = kept
  split
  · exact ⟨queue, _, rfl, h.rejected hash kept, rfl⟩
  next hadmissible =>
  push Not at hadmissible
  have hbytes : kept.bytes ≤ ACTIVE_BYTE_LIMIT := hadmissible.1.trans (min_le_right _ _)
  have hplace : queue.HasPlace hash := by
    by_cases hroom : queue.flows.size < FLOW_LIMIT
    · exact .inr hroom
    · exact .inl (isSome_iff_ne_none.mpr (by simpa using hadmissible.2 (not_lt.mp hroom)))
  obtain ⟨room, next, outputs, hmake, hinv, hplace', hnone, hroom⟩ :=
    h.makeRoom order kept.bytes (lt_succ_self queue.packets) hplace
  simp only [hmake, bind_eq_bind, bind_some]
  have hlast : ∀ output, delivered [output] = [] → delivered (outputs ++ [output]) = [] := by
    intro output houtput
    rw [delivered, filterMap_append]
    exact append_eq_nil_iff.mpr ⟨hnone, houtput⟩
  cases room with
  | true =>
    refine ⟨_, _, rfl, ?_, hlast _ rfl⟩
    rw [← append_assoc]
    exact hinv.enqueue hbytes hplace' (hroom rfl).1 (hroom rfl).2
  | false =>
    refine ⟨_, _, rfl, ?_, hlast _ rfl⟩
    rw [← append_assoc]
    exact hinv.rejected hash kept

/-! ## Building a batch -/

structure Batch.Fits (queue : NicIngressQueue) (batch : Batch) : Prop where
  retained : batch.retained = batchBytes batch.packets
  limit : queue.activeBytes + batch.retained ≤ ACTIVE_BYTE_LIMIT

variable {batch : Batch}

theorem Batch.Fits.add (h : batch.Fits queue)
    (hlimit : queue.activeBytes ≤ ACTIVE_BYTE_LIMIT)
    (hfits : queue.fits batch packet.bytes = true) :
    Batch.Fits queue ⟨batch.packets ++ [packet], batch.retained + packet.bytes⟩ := by
  constructor
  · rw [batchBytes, map_append, List.sum_append, h.retained, batchBytes, map_singleton,
      sum_singleton]
  · have hroom := of_decide_eq_true (Bool.and_eq_true_iff.mp hfits).2
    simp only [ACTIVE_QUEUE_BYTE_LIMIT, ACTIVE_BYTE_LIMIT] at hroom hlimit ⊢
    split at hroom
    · omega
    · omega

theorem fits_of_idle {bytes : Nat} (h : batch.Fits queue) (hempty : batch.packets = [])
    (hidle : queue.activeBytes = 0) (hbytes : bytes ≤ ACTIVE_BYTE_LIMIT) :
    queue.fits batch bytes = true := by
  have hretained : batch.retained = 0 := by rw [h.retained, hempty]; rfl
  refine Bool.and_eq_true_iff.mpr ⟨?_, decide_eq_true ?_⟩
  · rw [hempty]
    rfl
  · rw [if_pos ⟨hidle, hretained⟩]
    omega

structure Gathered (queue : NicIngressQueue) (history : List Output) (hash : Nat) (batch : Batch)
    (next : NicIngressQueue) (batch' : Batch) (outputs : List Output) : Prop where
  inv : Inv next (history ++ outputs) (some hash)
  fits : batch'.Fits next
  packets : batch'.packets.map (hash, ·) = batch.packets.map (hash, ·) ++ delivered outputs
  ready : next.ready = queue.ready
  activeBytes : next.activeBytes = queue.activeBytes
  activeFlows : next.activeFlows = queue.activeFlows
  held : (next.flows.lookup hash).isSome
  inactive : (next.flow hash).activeBytes = (queue.flow hash).activeBytes
  others : ∀ other ≠ hash, next.flow other = queue.flow other

theorem Gathered.stop (h : Inv queue history (some hash)) (hfits : batch.Fits queue)
    (hheld : (queue.flows.lookup hash).isSome) :
    Gathered queue history hash batch queue batch [] where
  inv := by rwa [append_nil]
  fits := hfits
  packets := (append_nil _).symm
  ready := rfl
  activeBytes := rfl
  activeFlows := rfl
  held := hheld
  inactive := rfl
  others _ _ := rfl

theorem Gathered.trans {batch middle batch' : Batch} {next last : NicIngressQueue}
    {outputs more : List Output} (h : Gathered queue history hash batch next middle outputs)
    (hrest : Gathered next (history ++ outputs) hash middle last batch' more) :
    Gathered queue history hash batch last batch' (outputs ++ more) where
  inv := by
    rw [← append_assoc]
    exact hrest.inv
  fits := hrest.fits
  packets := by
    rw [hrest.packets, h.packets, append_assoc, delivered, delivered, delivered, filterMap_append]
  ready := hrest.ready.trans h.ready
  activeBytes := hrest.activeBytes.trans h.activeBytes
  activeFlows := hrest.activeFlows.trans h.activeFlows
  held := hrest.held
  inactive := hrest.inactive.trans h.inactive
  others other hother := (hrest.others other hother).trans (h.others other hother)

def afterFront (flow : Flow) (packet : QueuedPacket) (rest : List QueuedPacket) (codel : Codel) :
    Flow :=
  { flow with packets := rest, bytes := flow.bytes - packet.bytes, codel := codel }

/-- The first packet of a flow is taken: it goes into the batch or is dropped. -/
theorem Inv.takeFront (h : Inv queue history (some hash)) {rest : List QueuedPacket}
    (hlookup : queue.flows.lookup hash = some old) (hpackets : old.packets = packet :: rest) :
    ∃ popped, queue.popFront hash = some (packet, popped) ∧
      popped.flows.lookup hash = some (afterFront old packet rest old.codel) ∧
      ∀ (codel : Codel) (batch middle : Batch) (output : Output), output.Removes hash packet →
        middle.packets.map (hash, ·) = batch.packets.map (hash, ·) ++ delivered [output] →
        middle.Fits queue →
        Gathered queue history hash batch
          (popped.setFlow hash (afterFront old packet rest codel)) middle [output] := by
  obtain ⟨popped, hpop, hflows, -, hactiveBytes, hactiveFlows, hready, hinv⟩ :=
    h.popFront hlookup hpackets
  have hpopped : popped.flows.lookup hash = some (afterFront old packet rest old.codel) := by
    rw [hflows, lookup_insert]
    rfl
  refine ⟨popped, hpop, hpopped, fun codel batch middle output houtput hmiddle hfits => ?_⟩
  constructor
  · exact (hinv output houtput).setCodel hpopped codel
  · exact ⟨hfits.retained, hactiveBytes ▸ hfits.limit⟩
  · exact hmiddle
  · exact hready
  · exact hactiveBytes
  · exact hactiveFlows
  · exact isSome_of_eq_some (lookup_setFlow _)
  · rw [flow_of_lookup hlookup, flow_of_lookup (lookup_setFlow _)]
    rfl
  · intro other hother
    rw [flow, flow, setFlow, lookup_insert_ne hother, hflows, lookup_insert_ne hother]

/-- A batch can be filled.  With nothing in flight it gets a packet: one that CoDel drops leaves
others behind it. -/
theorem Inv.gather (h : Inv queue history (some hash)) (hfits : batch.Fits queue)
    (hheld : (queue.flows.lookup hash).isSome) (around : Surroundings) (fuel : Nat) :
    ∃ next batch' outputs, gather around hash fuel queue batch = some (next, batch', outputs) ∧
      Gathered queue history hash batch next batch' outputs ∧
      (queue.activeBytes = 0 → (queue.flow hash).packets ≠ [] →
        (queue.flow hash).packets.length ≤ fuel → batch'.packets ≠ []) := by
  induction fuel generalizing queue history batch with
  | zero =>
    refine ⟨queue, batch, [], rfl, .stop h hfits hheld, fun _ hsome hlength => ?_⟩
    exact absurd (length_eq_zero_iff.mp (le_zero.mp hlength)) hsome
  | succ fuel ih =>
    obtain ⟨old, hlookup⟩ := isSome_iff_exists.mp hheld
    have hflow := flow_of_lookup hlookup
    have hunfold := flow_of_lookup hlookup
    rw [flow] at hunfold
    unfold gather
    rw [hunfold, hflow]
    cases hpackets : old.packets with
    | nil => exact ⟨queue, batch, [], rfl, .stop h hfits hheld, fun _ hsome => absurd rfl hsome⟩
    | cons packet rest =>
      have hbytes := (h.agrees_of_lookup hlookup).packetBytes packet (hpackets ▸ mem_cons_self)
      dsimp only
      split
      · next hroom =>
        obtain ⟨popped, hpop, hpopped, htaken⟩ := h.takeFront hlookup hpackets
        simp only [hpop, hpopped, bind_eq_bind, bind_some]
        generalize hsignal : Codel.signalWithDownstream _ _ _ _ _ _ _ = signalled
        split
        · next hdrop =>
          have hfirst := htaken signalled.2 batch batch (.dropped hash packet) (.inr (.inl rfl))
            (append_nil _).symm hfits
          obtain ⟨next, batch', outputs, hrest, hgathered, hprogress⟩ :=
            ih hfirst.inv hfirst.fits hfirst.held
          have hleft : rest ≠ [] := by
            rintro rfl
            have hbytes := (h.agrees_of_lookup hlookup).bytes
            rw [hpackets] at hbytes
            have hempty : old.bytes - packet.bytes = 0 := Nat.sub_eq_zero_of_le hbytes.le
            have hsilent : signalled.1 = false := by
              rw [← hsignal]
              exact Codel.signal_of_backlog_le (hempty.trans_le (zero_le _))
            rw [hsilent] at hdrop
            cases hdrop
          refine ⟨next, batch', _, bind_eq_some_iff.mpr ⟨_, hrest, rfl⟩,
            hfirst.trans hgathered, fun hidle _ hlength => ?_⟩
          rw [flow_of_lookup (lookup_setFlow _)] at hprogress
          exact hprogress (hfirst.activeBytes.trans hidle) hleft (le_of_succ_le_succ hlength)
        · have hfirst := htaken signalled.2 batch
            ⟨batch.packets ++ [packet], batch.retained + packet.bytes⟩ (.delivered hash packet)
            (.inr (.inr rfl)) (map_append ..) (hfits.add h.limits.activeBytes hroom)
          obtain ⟨next, batch', outputs, hrest, hgathered, hprogress⟩ :=
            ih hfirst.inv hfirst.fits hfirst.held
          refine ⟨next, batch', _, bind_eq_some_iff.mpr ⟨_, hrest, rfl⟩,
            hfirst.trans hgathered, fun _ _ _ hempty => ?_⟩
          have hall := hgathered.packets
          simp [hempty] at hall
      · next hfull =>
        refine ⟨queue, batch, [], rfl, .stop h hfits hheld, fun hidle _ _ hempty => ?_⟩
        exact hfull (fits_of_idle hfits hempty hidle hbytes)

/-! ## Turns -/

/-- A flow that is not `hash` is linked the same whether `hash` is held or not. -/
theorem linked_other (hother : other ≠ hash) (linked : Prop) [Decidable linked] :
    (if some hash ≠ some other ∧ linked then 1 else 0) =
      if (none : Option Nat) ≠ some other ∧ linked then 1 else 0 := by
  simp [hother.symm]

/-- The first ready flow is there and has no batch in flight; its turn begins. -/
theorem Inv.hold (h : Inv queue history none) {ready : List Nat}
    (hready : queue.ready = hash :: ready) :
    ∃ flow, queue.flows.lookup hash = some flow ∧ flow.activeBytes = none ∧
      Inv { queue with ready := ready } history (some hash) := by
  have hlinked := h.linked hash
  rw [hready, count_cons_self] at hlinked
  split at hlinked
  · next hfree =>
    obtain ⟨flow, hlookup, hinactive⟩ := (any_eq_true _ _).mp hfree.2
    refine ⟨flow, hlookup, isNone_iff_eq_none.mp hinactive, ?_⟩
    refine { h with limits := { h.limits with }, linked := fun other => ?_ }
    by_cases hsame : other = hash
    · rw [hsame, if_neg fun hheld => hheld.1 rfl]
      exact succ_injective hlinked
    · have hother := h.linked other
      rw [hready, count_cons_of_ne (Ne.symm hsame)] at hother
      rw [linked_other hsame]
      exact hother
  · exact absurd hlinked (succ_ne_zero _)

theorem held_other (hother : other ≠ hash) : none = some other ↔ some hash = some other :=
  ⟨nofun, fun hsame => absurd (some.inj hsame) hother.symm⟩

section

variable (h : Inv queue history (some hash)) (hlookup : queue.flows.lookup hash = some old)
  (hinactive : old.activeBytes = none)
include h hlookup hinactive

theorem Inv.erase (hempty : old.packets = []) :
    Inv { queue with flows := queue.flows.erase hash } history none := by
  have hagrees := h.agrees_of_lookup hlookup
  have hsize := size_erase hlookup
  have hlimit := h.limits.flows
  have hbytes := hagrees.bytes
  rw [hempty] at hbytes
  refine h.update
    { before := flow_of_lookup hlookup
      after := show _ = ({} : Flow) by rw [flow, lookup_erase, getD_none]
      others := fun other hne => lookup_erase_ne hne
      packets := by rw [hempty]
      bytes := by rw [hbytes]; rfl
      activeFlows := by rw [activity, hinactive]; rfl
      activeBytes := by rw [hinactive] }
    { h.limits with flows := show size (queue.flows.erase hash) ≤ FLOW_LIMIT by omega }
    (fun other hother => ⟨rfl, held_other hother⟩) ?_ (fun _ _ => rfl)
    { bytes := rfl
      packetBytes := nofun
      order := by rw [hagrees.order, hempty]
      inFlight := by rw [← hagrees.inFlight, hinactive] }
  rw [lookup_erase]
  exact (h.linked hash).trans (if_neg fun hheld => hheld.1 rfl)

theorem Inv.relink : Inv (queue.relink hash old) history none := by
  have hunlinked : queue.ready.count hash = 0 :=
    (h.linked hash).trans (if_neg fun hheld => hheld.1 rfl)
  unfold NicIngressQueue.relink
  split
  · next hempty => exact h.erase hlookup hinactive (isEmpty_iff.mp hempty)
  refine { h with limits := { h.limits with }, linked := fun other => ?_ }
  by_cases hsame : other = hash
  · rw [count_append, hsame, hunlinked, count_singleton_self, hlookup, any_some, hinactive]
    rfl
  · rw [count_append_other hsame, h.linked other, linked_other hsame]

end

end NicIngressQueue

end LowerTier.Instance
