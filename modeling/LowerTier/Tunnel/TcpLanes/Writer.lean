import LowerTier.ProofSupport.KeyedMap
import LowerTier.Tunnel.Batch
import LowerTier.Tunnel.PacketDef

/-!
# The TCP lane writer (`tunnel/tcp_lanes.rs`)

A lane group carries one logical tunnel over two or four TCP connections.  The writer
splits every batch over the lanes by flow and hands the parts to the lane sinks as they
become ready.  What a sink answers to a poll is an argument of the poll.  A step that would
panic gives `none`.

The fields `sent`, `routes` and `accepted` are not in the source: they record what was
handed to a sink, the lane chosen for each packet and the packets of accepted batches.
-/

namespace LowerTier.Tunnel.TcpLanes

open ProofSupport ProofSupport.ByteString

structure PacketBatch where
  packets : List ZCPacket
  fits : packets.length ≤ MAX_PACKET_BATCH_SIZE
deriving DecidableEq

namespace PacketBatch

def empty : PacketBatch := ⟨[], Nat.zero_le _⟩

def isEmpty (batch : PacketBatch) : Bool := batch.packets.isEmpty

def tryPush (batch : PacketBatch) (packet : ZCPacket) : Option PacketBatch :=
  if hfull : batch.packets.length = MAX_PACKET_BATCH_SIZE then
    none
  else
    some ⟨batch.packets ++ [packet], by
      have hfits := batch.fits
      simp only [List.length_append, List.length_singleton]
      omega⟩

end PacketBatch

def MAX_TRACKED_FLOWS : Nat := 256

def MAX_PENDING_BYTES : Nat := MAX_PACKET_BATCH_SIZE * 4096

inductive Poll where
  | ready | pending | error
deriving DecidableEq

structure LaneAnswers where
  pollReady : Poll
  /-- Whether `start_send` accepts the batch. -/
  startSend : Bool
  pollFlush : Poll
  /-- The flush that a blocked sibling triggers. -/
  siblingFlush : Poll
  pollClose : Poll
deriving DecidableEq

structure Lane where
  pending : PacketBatch
  closed : Bool
  sent : List ZCPacket
deriving DecidableEq

/-- How the loop over the lanes goes on after one lane. -/
inductive Progress where
  | passed | blocked | failed
deriving DecidableEq

def Progress.ofPoll : Poll → Progress
  | .ready => .passed
  | .pending => .blocked
  | .error => .failed

/-- A blocked lane blocks the whole poll, a failed one fails it. -/
def Progress.and : Progress → Progress → Progress
  | .passed, later => later
  | .blocked, .passed => .blocked
  | .blocked, later => later
  | .failed, _ => .failed

namespace Lane

def new : Lane := ⟨.empty, false, []⟩

def poll (flush : Bool) (answers : LaneAnswers) (lane : Lane) : Lane × Progress :=
  let flushed : Progress := if flush then .ofPoll answers.pollFlush else .passed
  if lane.closed then
    (lane, .passed)
  else if lane.pending.isEmpty then
    (lane, flushed)
  else
    match answers.pollReady with
    | .ready =>
      if answers.startSend then
        ({ lane with pending := .empty, sent := lane.sent ++ lane.pending.packets }, flushed)
      else
        -- the batch was taken before the sink refused it
        ({ lane with pending := .empty }, .failed)
    | .error => (lane, .failed)
    | .pending => (lane, .blocked)

def pollSibling (answers : LaneAnswers) (lane : Lane) : Lane × Progress :=
  if lane.closed || !lane.pending.isEmpty then
    (lane, .passed)
  else
    match answers.siblingFlush with
    | .error => (lane, .failed)
    | _ => (lane, .passed)

def pollClose (answers : LaneAnswers) (lane : Lane) : Lane × Progress :=
  if lane.closed then
    (lane, .passed)
  else
    match answers.pollClose with
    | .ready => ({ lane with closed := true }, .passed)
    | .error => (lane, .failed)
    | .pending => (lane, .blocked)

end Lane

/-- A loop over the lanes that stops at the first failure. -/
def eachLane (visit : LaneAnswers → Lane → Lane × Progress) (answers : Nat → LaneAnswers) :
    Nat → List Lane → List Lane × Progress
  | _, [] => ([], .passed)
  | index, lane :: lanes =>
    let visited := visit (answers index) lane
    if visited.2 = .failed then
      (visited.1 :: lanes, .failed)
    else
      let rest := eachLane visit answers (index + 1) lanes
      (visited.1 :: rest.1, visited.2.and rest.2)

/-! ## The writer -/

structure LaneWriter where
  lanes : List Lane
  flowLanes : KeyedMap UInt64 Nat
  nextLane : Nat
  /-- `state.failed`, which the reader can set as well. -/
  failed : Bool
  routes : List (Nat × ZCPacket)
  accepted : List ZCPacket

inductive Outcome where
  | ready | pending | shutdown | bufferFull
  | exceedMaxPacketSize (limit size : Nat)
  | laneError
deriving DecidableEq

section FlowKey

variable (classifyPayloadFlow : Bytes → UInt8 → UInt64)

/-- The key by which `packet_lane` tells flows apart; packets without one stay on lane 0.
A packet with a header has its payload in range. -/
def flowKey (packet : ZCPacket) : Option UInt64 := do
  let header ← packet.peerManagerHeader
  if header.isEncrypted || header.forwardCounter != 1 || header.isCriticalL2Control ||
      !(header.packetType == PacketType.data.code || header.packetType == PacketType.ethernet.code)
  then none
  else if header.isCompressed then
    packet.flowHash
  else do
    let payload ← packet.payload
    some (classifyPayloadFlow payload header.packetType)

/-- The lane of a flow that came after the flow table was full. -/
def overflowLane (hash : UInt64) (lanes : Nat) : Nat :=
  ((hash * 0x9e3779b97f4a7c15) >>> 32).toNat &&& (lanes - 1)

namespace LaneWriter

def new (count : Nat) : LaneWriter where
  lanes := List.replicate count .new
  flowLanes := ∅
  nextLane := 0
  failed := false
  routes := []
  accepted := []

variable (writer : LaneWriter)

def packetLane (packet : ZCPacket) : Nat × LaneWriter :=
  match flowKey classifyPayloadFlow packet with
  | none => (0, writer)
  | some hash =>
    match writer.flowLanes.lookup hash with
    | some lane => (lane, writer)
    | none =>
      if writer.flowLanes.size = MAX_TRACKED_FLOWS then
        (overflowLane hash writer.lanes.length, writer)
      else
        (writer.nextLane, { writer with
          flowLanes := writer.flowLanes.insert hash writer.nextLane
          nextLane := (writer.nextLane + 1) &&& (writer.lanes.length - 1) })

def queuePacket (index : Nat) (packet : ZCPacket) : Option LaneWriter := do
  let lane ← writer.lanes[index]?
  let pending ← lane.pending.tryPush packet
  some { writer with
    lanes := writer.lanes.set index { lane with pending := pending }
    routes := writer.routes ++ [(index, packet)] }

def partitionPacket (packet : ZCPacket) : Option LaneWriter :=
  let placed := writer.packetLane classifyPayloadFlow packet
  placed.2.queuePacket placed.1 packet

def partition (batch : List ZCPacket) : Option LaneWriter :=
  batch.foldlM (partitionPacket classifyPayloadFlow) writer

/-- The memory that the packets of a batch keep allocated, before and after compaction. -/
structure BufferCapacity where
  retained : Nat → Nat
  compacted : Nat → Nat

def BufferCapacity.total (capacity : Nat → Nat) (batch : List ZCPacket) : Nat :=
  ((List.range batch.length).map capacity).sum

def startSend (batch : PacketBatch) (capacity : BufferCapacity) :
    Option (Outcome × LaneWriter) :=
  if writer.failed || writer.lanes.any Lane.closed then
    some (.shutdown, writer)
  else if writer.lanes.any fun lane => !lane.pending.isEmpty then
    some (.bufferFull, writer)
  else
    let place (packets : List ZCPacket) : Option (Outcome × LaneWriter) := do
      let writer ← writer.partition classifyPayloadFlow packets
      some (.ready, { writer with accepted := writer.accepted ++ batch.packets })
    if BufferCapacity.total capacity.retained batch.packets > MAX_PENDING_BYTES then
      if BufferCapacity.total capacity.compacted batch.packets > MAX_PENDING_BYTES then
        some (.exceedMaxPacketSize MAX_PENDING_BYTES
          (BufferCapacity.total capacity.compacted batch.packets), writer)
      else
        place (batch.packets.mapIdx fun index packet =>
          packet.compactRetainedBuffer (capacity.retained index))
    else
      place batch.packets

def pollLanes (flush : Bool) (answers : Nat → LaneAnswers) :
    Outcome × LaneWriter :=
  if writer.failed then
    (.shutdown, writer)
  else
    let polled := eachLane (Lane.poll flush) answers 0 writer.lanes
    match polled.2 with
    | .failed => (.laneError, { writer with lanes := polled.1, failed := true })
    | .passed => (.ready, { writer with lanes := polled.1 })
    | .blocked =>
      if !flush && (eachLane Lane.pollSibling answers 0 polled.1).2 = .failed then
        (.laneError, { writer with lanes := polled.1, failed := true })
      else
        (.pending, { writer with lanes := polled.1 })

variable (answers : Nat → LaneAnswers)

def pollReady : Outcome × LaneWriter :=
  writer.pollLanes false answers

def pollFlush : Outcome × LaneWriter :=
  writer.pollLanes true answers

def closeLanes : Outcome × LaneWriter :=
  let closed := eachLane Lane.pollClose answers 0 writer.lanes
  match closed.2 with
  | .failed => (.laneError, { writer with lanes := closed.1, failed := true })
  | .passed => (.ready, { writer with lanes := closed.1 })
  | .blocked => (.pending, { writer with lanes := closed.1 })

def pollClose : Outcome × LaneWriter :=
  let flushed := writer.pollLanes true answers
  if flushed.1 = .ready then flushed.2.closeLanes answers else flushed

inductive Call where
  | startSend (batch : PacketBatch) (capacity : BufferCapacity)
  | pollReady (answers : Nat → LaneAnswers)
  | pollFlush (answers : Nat → LaneAnswers)
  | pollClose (answers : Nat → LaneAnswers)
  | fail

def step : Call → Option (Outcome × LaneWriter)
  | .startSend batch capacity => writer.startSend classifyPayloadFlow batch capacity
  | .pollReady answers => some (writer.pollReady answers)
  | .pollFlush answers => some (writer.pollFlush answers)
  | .pollClose answers => some (writer.pollClose answers)
  | .fail => some (.ready, { writer with failed := true })

end LaneWriter

end FlowKey

end LowerTier.Tunnel.TcpLanes
