import LowerTier.ProofSupport.KeyedMap
import LowerTier.ProofSupport.MachineInt
import LowerTier.ProofSupport.Trace
import LowerTier.Tunnel.Batch
import Mathlib.Data.Prod.Lex

/-!
# The NIC ingress queue (`instance/nic_ingress.rs`)

Packets of the device wait in queues by flow.  A flow is linked in the list of ready flows or has
one batch in flight; overload is charged to the largest flow, and a CoDel instance of each flow
drops or marks packets that have waited too long.  A call is `none` where an `expect` or a
subtraction would fail.  Times are in nanoseconds.
-/

namespace LowerTier.Instance

open ProofSupport ProofSupport.MachineInt Tunnel

def FLOW_LIMIT : Nat := 128
def PACKET_LIMIT : Nat := 2048
def QUEUED_BYTE_LIMIT : Nat := 4 * 1024 * 1024
def ACTIVE_BYTE_LIMIT : Nat := 2 * 1024 * 1024
def ACTIVE_QUEUE_BYTE_LIMIT : Nat := 3 * 128 * 1024
def ACTIVE_FLOW_LIMIT : Nat := 16
def CODEL_TARGET : Nat := 5000000
def CODEL_INTERVAL : Nat := 100000000

structure Codel where
  firstAbove : Option Nat := none
  nextDrop : Option Nat := none
  dropping : Bool := false
  count : Nat := 0
  lastCount : Nat := 0
deriving DecidableEq

namespace Codel

/-- Whether the delay has been above the target for an interval. -/
def isAbove (codel : Codel) (now sojourn backlog maxPacket : Nat) : Bool × Codel :=
  if sojourn < CODEL_TARGET ∨ backlog ≤ maxPacket then (false, { codel with firstAbove := none })
  else
    match codel.firstAbove with
    | some firstAbove => (decide (firstAbove ≤ now), codel)
    | none => (false, { codel with firstAbove := some (now + CODEL_INTERVAL) })

variable (controlLaw : Nat → Nat → Nat)

/-- `signal`, with the time of the next drop after a time and a count. -/
def signal (codel : Codel) (now sojourn backlog maxPacket : Nat) :
    Bool × Codel :=
  let (above, codel) := codel.isAbove now sojourn backlog maxPacket
  if codel.dropping then
    if above then
      match codel.nextDrop with
      | some next =>
        if next ≤ now then
          let count := min (codel.count + 1) (2 ^ 32 - 1)
          (true, { codel with count := count, nextDrop := some (controlLaw next count) })
        else (false, codel)
      | none => (false, codel)
    else (false, { codel with dropping := false })
  else if above then
    let delta := codel.count - codel.lastCount
    let count :=
      if 1 < delta ∧ codel.nextDrop.any (fun next => now - next < CODEL_INTERVAL * 16) then delta
      else 1
    (true, { codel with
      count := count, lastCount := count, dropping := true,
      nextDrop := some (controlLaw now count) })
  else (false, codel)

def signalWithDownstream (codel : Codel) (now sojourn : Nat) (downstream : Nat × Bool)
    (backlog maxPacket : Nat) : Bool × Codel :=
  let codel :=
    if downstream.2 then
      { codel with firstAbove := some (codel.firstAbove.elim now fun deadline => min deadline now) }
    else codel
  codel.signal controlLaw now (max sojourn downstream.1) backlog maxPacket

end Codel

structure QueuedPacket where
  id : Nat
  bytes : Nat
  enqueued : Nat
deriving DecidableEq

structure Flow where
  packets : List QueuedPacket := []
  bytes : Nat := 0
  activeBytes : Option Nat := none
  maxPacket : Nat := 0
  codel : Codel := {}
deriving DecidableEq

def Flow.push (flow : Flow) (packet : QueuedPacket) : Flow :=
  { flow with
    maxPacket := max flow.maxPacket packet.bytes
    packets := flow.packets ++ [packet]
    bytes := flow.bytes + packet.bytes }

structure NicIngressQueue where
  flows : KeyedMap Nat Flow
  ready : List Nat
  packets : Nat
  bytes : Nat
  activeFlows : Nat
  activeBytes : Nat

inductive Output where
  | rejected (hash : Nat) (packet : QueuedPacket)
  | admitted (hash : Nat) (packet : QueuedPacket)
  | evicted (hash : Nat) (packet : QueuedPacket)
  /-- The queue manager drops a packet. -/
  | dropped (hash : Nat) (packet : QueuedPacket)
  /-- A packet is put into the batch that is being built. -/
  | delivered (hash : Nat) (packet : QueuedPacket)
  | batch (hash : Nat) (packets : List QueuedPacket)
  | completed (hash : Nat)
deriving DecidableEq

/-- What `pop` depends on besides the queue: the law of CoDel, the packets that can be marked, the
time and the feedback of the flows. -/
structure Surroundings where
  controlLaw : Nat → Nat → Nat
  marks : QueuedPacket → Bool
  now : Nat
  feedback : Nat → Nat × Bool

namespace NicIngressQueue

def empty : NicIngressQueue := ⟨∅, [], 0, 0, 0, 0⟩

variable (queue : NicIngressQueue)

variable (hash : Nat)

def setFlow (flow : Flow) : NicIngressQueue :=
  { queue with flows := queue.flows.insert hash flow }

def popFront : Option (QueuedPacket × NicIngressQueue) := do
  let flow ← queue.flows.lookup hash
  match flow.packets with
  | [] => none
  | packet :: rest =>
    let flowBytes ← checkedSub flow.bytes packet.bytes
    let bytes ← checkedSub queue.bytes packet.bytes
    let packets ← checkedSub queue.packets 1
    some (packet, { queue.setFlow hash { flow with packets := rest, bytes := flowBytes } with
      bytes := bytes, packets := packets })

/-- The largest flow with packets; among flows of one size the order of the table decides. -/
def largest (order : Nat → Nat) : Option Nat :=
  ((queue.flows.entries.filter fun entry => !entry.2.packets.isEmpty).argmax fun entry =>
    toLex (entry.2.bytes, order entry.1)).map (·.1)

def makeRoom (order : Nat → Nat) (bytes : Nat) :
    Nat → NicIngressQueue → Option (Bool × NicIngressQueue × List Output)
  | 0, _ => none
  | fuel + 1, queue =>
    if PACKET_LIMIT ≤ queue.packets ∨ QUEUED_BYTE_LIMIT < queue.bytes + bytes then
      match queue.largest order with
      | none => some (false, queue, [])
      | some hash => do
          let (packet, queue) ← queue.popFront hash
          let (room, queue, outputs) ← makeRoom order bytes fuel queue
          some (room, queue, .evicted hash packet :: outputs)
    else some (true, queue, [])

variable (packet : QueuedPacket)

def enqueue : NicIngressQueue :=
  { queue.setFlow hash (((queue.flows.lookup hash).getD {}).push packet) with
    ready := if (queue.flows.lookup hash).isSome then queue.ready else queue.ready ++ [hash]
    bytes := queue.bytes + packet.bytes
    packets := queue.packets + 1 }

def packetLimit : Nat := min QUEUED_BYTE_LIMIT ACTIVE_BYTE_LIMIT

/-- The packet with the bytes that it retains after it was compacted, if it is too large. -/
def compactRetainedBuffer (compacted : Nat) : QueuedPacket :=
  if packetLimit < packet.bytes then { packet with bytes := compacted } else packet

def pushAt (compacted : Nat) (order : Nat → Nat) :
    Option (NicIngressQueue × List Output) :=
  let packet := compactRetainedBuffer packet compacted
  if packetLimit < packet.bytes ∨
      FLOW_LIMIT ≤ queue.flows.size ∧ (queue.flows.lookup hash).isNone then
    some (queue, [.rejected hash packet])
  else do
    let (room, queue, outputs) ← makeRoom order packet.bytes (queue.packets + 1) queue
    if room then some (queue.enqueue hash packet, outputs ++ [.admitted hash packet])
    else some (queue, outputs ++ [.rejected hash packet])

/-! ### Delivery -/

structure Batch where
  packets : List QueuedPacket := []
  retained : Nat := 0

def fits (batch : Batch) (bytes : Nat) : Bool :=
  let available := ACTIVE_QUEUE_BYTE_LIMIT - queue.activeBytes
  let packetAvailable :=
    if queue.activeBytes = 0 ∧ batch.retained = 0 then
      min (max available bytes) (ACTIVE_BYTE_LIMIT - queue.activeBytes)
    else available
  batch.packets.length < MAX_PACKET_BATCH_SIZE && batch.retained + bytes ≤ packetAvailable

def gather (around : Surroundings) (hash : Nat) :
    Nat → NicIngressQueue → Batch → Option (NicIngressQueue × Batch × List Output)
  | 0, queue, batch => some (queue, batch, [])
  | fuel + 1, queue, batch =>
    match ((queue.flows.lookup hash).getD {}).packets with
    | [] => some (queue, batch, [])
    | front :: _ =>
      if queue.fits batch front.bytes then do
        let (packet, queue) ← queue.popFront hash
        let flow ← queue.flows.lookup hash
        let (signal, codel) := flow.codel.signalWithDownstream around.controlLaw around.now
          (around.now - packet.enqueued) (around.feedback hash) flow.bytes flow.maxPacket
        let queue := queue.setFlow hash { flow with codel := codel }
        if signal && !around.marks packet then
          let (queue, batch, outputs) ← gather around hash fuel queue batch
          some (queue, batch, .dropped hash packet :: outputs)
        else
          let (queue, batch, outputs) ← gather around hash fuel queue
            ⟨batch.packets ++ [packet], batch.retained + packet.bytes⟩
          some (queue, batch, .delivered hash packet :: outputs)
      else some (queue, batch, [])

/-- A flow that is in no list is removed if it is empty and linked otherwise. -/
def relink (flow : Flow) : NicIngressQueue :=
  if flow.packets.isEmpty then { queue with flows := queue.flows.erase hash }
  else { queue with ready := queue.ready ++ [hash] }

def activate (flow : Flow) (retained : Nat) : NicIngressQueue :=
  { queue.setFlow hash { flow with activeBytes := some retained } with
    activeBytes := queue.activeBytes + retained
    activeFlows := queue.activeFlows + 1 }

def popReady (around : Surroundings) :
    Nat → NicIngressQueue →
      Option (Option (Nat × List QueuedPacket) × NicIngressQueue × List Output)
  | 0, queue => some (none, queue, [])
  | turns + 1, queue =>
    match queue.ready with
    | [] => none
    | hash :: ready => do
        let flow ← queue.flows.lookup hash
        if flow.activeBytes.isSome then none
        else
          let queue := { queue with ready := ready }
          let (queue, batch, outputs) ← gather around hash flow.packets.length queue {}
          let flow ← queue.flows.lookup hash
          if batch.packets.isEmpty then
            let (result, queue, more) ← popReady around turns (queue.relink hash flow)
            some (result, queue, outputs ++ more)
          else
            some (some (hash, batch.packets), queue.activate hash flow batch.retained,
              outputs ++ [.batch hash batch.packets])

def pop (around : Surroundings) :
    Option (Option (Nat × List QueuedPacket) × NicIngressQueue × List Output) :=
  if ACTIVE_FLOW_LIMIT ≤ queue.activeFlows then some (none, queue, [])
  else do
    let _hardAvailable ← checkedSub ACTIVE_BYTE_LIMIT queue.activeBytes
    popReady around queue.ready.length queue

def complete : Option (NicIngressQueue × List Output) := do
  let flow ← queue.flows.lookup hash
  let retained ← flow.activeBytes
  let activeBytes ← checkedSub queue.activeBytes retained
  let activeFlows ← checkedSub queue.activeFlows 1
  let flow := { flow with activeBytes := none }
  let queue :=
    { queue.setFlow hash flow with activeBytes := activeBytes, activeFlows := activeFlows }
  some (queue.relink hash flow, [.completed hash])

inductive Event where
  | push (hash : Nat) (packet : QueuedPacket) (compacted : Nat) (order : Nat → Nat)
  | pop (around : Surroundings)
  | complete (hash : Nat)

def call : Event → Option (Option (Nat × List QueuedPacket) × NicIngressQueue × List Output)
  | .push hash packet compacted order => (queue.pushAt hash packet compacted order).map (none, ·)
  | .pop around => queue.pop around
  | .complete hash => (queue.complete hash).map (none, ·)

def step (event : Event) : NicIngressQueue × List Output :=
  ((queue.call event).map (·.2)).getD (queue, [])

end NicIngressQueue

end LowerTier.Instance
