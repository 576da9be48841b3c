import LowerTier.ProofSupport.MachineInt
import LowerTier.Tunnel.TcpLanes.Writer

/-!
# The transit budget (`common/transit_budget.rs`)

A token bucket in bits: a refill adds the rate times the elapsed nanoseconds, whole bits to
the credit and the rest to the remainder.  Times are nanoseconds; the reading of the clock
that a call makes is an argument of the call.
-/

namespace LowerTier.Common

open ProofSupport.MachineInt

def MAX_TRANSIT_PACKET_BYTES : Nat := Tunnel.TcpLanes.MAX_PENDING_BYTES

structure RelayConfig where
  transitBpsLimit : Option UInt64
  transitBurstBytes : Option UInt64
deriving DecidableEq

variable (config : RelayConfig)

def RelayConfig.validate : Except String Unit := do
  if let some bits := config.transitBpsLimit then
    if ¬bits > 0 then
      throw "relay.transit_bps_limit must be positive"
  if let some burst := config.transitBurstBytes then
    if ¬(config.transitBpsLimit.isSome ∧ burst.toNat ≥ MAX_TRANSIT_PACKET_BYTES ∧
        burst.toNat ≤ maxValue 64 / 8) then
      throw <| "relay.transit_burst_bytes requires a limit and at least " ++
        s!"{MAX_TRANSIT_PACKET_BYTES} bytes for a maximum frame"

structure TransitBudget where
  rate : Option UInt64
  capacity : Nat
  credit : Nat
  remainder : Nat
  updated : Nat
deriving DecidableEq

namespace TransitBudget

def capacityOf : Nat :=
  (match config.transitBurstBytes with
    | some burst => burst.toNat
    | none =>
      max (((config.transitBpsLimit.getD 0).toNat + 7) / 8) MAX_TRANSIT_PACKET_BYTES) * 8

def new (now : Nat) : TransitBudget where
  rate := config.transitBpsLimit
  capacity := capacityOf config
  credit := capacityOf config
  remainder := 0
  updated := now

variable (budget : TransitBudget)

/-- The credit that a refill finds, in billionths of a bit. -/
def accrued (rate : UInt64) (now : Nat) : Nat :=
  saturatingAdd 128 (saturatingMul 128 (now - budget.updated) rate.toNat) budget.remainder

def refill (now : Nat) : TransitBudget :=
  match budget.rate with
  | some rate =>
    let bits := budget.accrued rate now
    { budget with
      updated := now
      credit := min budget.capacity (saturatingAdd 128 budget.credit (bits / 1000000000))
      remainder := bits % 1000000000 }
  | none => { budget with updated := now }

def update (now : Nat) (config : RelayConfig) : TransitBudget :=
  let refilled := budget.refill now
  { refilled with
    rate := config.transitBpsLimit
    capacity := capacityOf config
    credit := min refilled.credit (capacityOf config) }

def consume (now bytes : Nat) : Bool × TransitBudget :=
  let refilled := budget.refill now
  if refilled.rate.isNone then
    (true, refilled)
  else if bytes * 8 > refilled.credit then
    (false, refilled)
  else
    (true, { refilled with credit := refilled.credit - bytes * 8 })

/-- The granted chunk and the delay in nanoseconds.  The division by the rate is not reached
with a rate of zero, which `validate` refuses. -/
def receiveChunk (now bytes : Nat) : (Nat × Nat) × TransitBudget :=
  match budget.rate with
  | none => ((bytes, 0), budget)
  | some rate =>
    let chunk := min bytes (budget.capacity / 8 % 2 ^ 64)
    let consumed := budget.consume now chunk
    if consumed.1 then
      ((chunk, 0), consumed.2)
    else
      let missing := saturatingMul 128 (chunk * 8 - consumed.2.credit) 1000000000
      let nanos := (missing + (rate.toNat - 1)) / rate.toNat
      ((0, min nanos (maxValue 64)), consumed.2)

inductive Call where
  | consume (bytes : Nat)
  | receiveChunk (bytes : Nat)
  | update (config : RelayConfig)
deriving DecidableEq

structure Event where
  now : Nat
  call : Call
deriving DecidableEq

def step (event : Event) : Nat × TransitBudget :=
  match event.call with
  | .consume bytes =>
    let consumed := budget.consume event.now bytes
    (if consumed.1 then bytes * 8 else 0, consumed.2)
  | .receiveChunk bytes =>
    let received := budget.receiveChunk event.now bytes
    (received.1.1 * 8, received.2)
  | .update config => (0, budget.update event.now config)

def after (events : List Event) : TransitBudget :=
  events.foldl (fun budget event => (budget.step event).2) budget

def admitted (budget : TransitBudget) : List Event → Nat
  | [] => 0
  | event :: events => (budget.step event).1 + admitted (budget.step event).2 events

/-- The integral of the rate from `start` to the last event, in billionths of a bit. -/
def earned (budget : TransitBudget) (start : Nat) : List Event → Nat
  | [] => 0
  | event :: events =>
    (budget.rate.getD 0).toNat * (event.now - start) +
      earned (budget.step event).2 event.now events

def InOrder (start : Nat) : List Event → Prop
  | [] => True
  | event :: events => start ≤ event.now ∧ InOrder event.now events

end TransitBudget

end LowerTier.Common
