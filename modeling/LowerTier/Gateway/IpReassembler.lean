import LowerTier.ProofSupport.KeyedMap
import LowerTier.ProofSupport.MachineInt
import LowerTier.ProofSupport.Tiling

/-!
# Reassembly of IPv4 packets (`gateway/ip_reassembler.rs`)

The fragments of a packet are collected under its source, destination and identification
until their lengths add up to the total that a last fragment has announced.

A call that would panic is `none`: an index out of range, or an overflow of the `u16`
arithmetic in a build that checks it.  The clock readings are arguments.
-/

namespace LowerTier.Gateway

open ProofSupport ProofSupport.ByteString ProofSupport.MachineInt
open ProofSupport.Tiling

/-- The fields of an `Ipv4Packet` in the widths of the header.  Its payload is cut at the
total length. -/
structure Ipv4Packet where
  headerLength : Nat
  totalLength : Nat
  identification : Nat
  flags : UInt8
  fragmentOffset : Nat
  payload : Bytes
  header_lt : headerLength < 2 ^ 4
  total_lt : totalLength < 2 ^ 16
  offset_lt : fragmentOffset < 2 ^ 13
  payload_lt : payload.length < 2 ^ 16

abbrev Ipv4Addr := UInt32

def asU16 (n : Nat) : Nat := n % 2 ^ 16

def MORE_FRAGMENTS : UInt8 := 0b001

structure IpFragment where
  offset : Nat
  data : Bytes
  /-- Whether the packet was a last fragment; the source does not keep this. -/
  last : Bool
deriving DecidableEq

def isLastFragment (packet : Ipv4Packet) : Bool := packet.flags &&& MORE_FRAGMENTS == 0

/-- `IpFragment::from`; thirteen bits times eight fit in sixteen. -/
def IpFragment.ofPacket (packet : Ipv4Packet) : IpFragment where
  offset := packet.fragmentOffset * 8
  data := packet.payload
  last := isLastFragment packet

structure IpPacket where
  totalLength : Option Nat
  fragments : List IpFragment
deriving DecidableEq

namespace IpPacket

def new : IpPacket := ⟨none, []⟩

/-- `f.offset <= g.offset && g.offset < f.offset + f.data.len() as u16`; the sum is computed
only if the first comparison holds. -/
def startsInside (f g : IpFragment) : Option Bool :=
  if f.offset ≤ g.offset then do
    let stop ← checkedAdd 16 f.offset (asU16 f.data.length)
    return decide (g.offset < stop)
  else
    some false

def overlapsAny (fragment : IpFragment) : List IpFragment → Option Bool
  | [] => some false
  | f :: fragments => do
      if ← startsInside f fragment then
        return true
      else if ← startsInside fragment f then
        return true
      else
        overlapsAny fragment fragments

variable (p : IpPacket)

def addFragment (fragment : IpFragment) : Option IpPacket := do
  if ← overlapsAny fragment p.fragments then
    return p
  else
    return { p with fragments := p.fragments ++ [fragment] }

def sumLengths (fragments : List IpFragment) : Option Nat :=
  fragments.foldlM (fun total fragment => checkedAdd 16 total (asU16 fragment.data.length)) 0

def isComplete : Option Bool :=
  match p.totalLength with
  | none => some false
  | some totalLength => do
      let sum ← sumLengths p.fragments
      return sum == totalLength

def setTotalLength (totalLength : Nat) : IpPacket :=
  { p with totalLength := some totalLength }

def sortByOffset (fragments : List IpFragment) : List IpFragment :=
  fragments.insertionSort (·.offset ≤ ·.offset)

def copyFragments (buffer : Bytes) (fragments : List IpFragment) : Option Bytes :=
  fragments.foldlM (fun buffer fragment => writeAt buffer fragment.offset fragment.data) buffer

def assemble : Option (Option Bytes) := do
  if ← p.isComplete then
    let totalLength ← p.totalLength
    let packet ← copyFragments (List.replicate totalLength 0) (sortByOffset p.fragments)
    return some packet
  else
    return none

end IpPacket

structure IpResemblerKey where
  source : Ipv4Addr
  destination : Ipv4Addr
  id : Nat
deriving DecidableEq

structure IpResemblerValue where
  packet : IpPacket
  timestamp : Nat

structure IpReassembler where
  packets : KeyedMap IpResemblerKey IpResemblerValue
  timeout : Nat

namespace IpReassembler

def new (timeout : Nat) : IpReassembler := ⟨∅, timeout⟩

variable (s : IpReassembler)

def packetAt (key : IpResemblerKey) : IpPacket :=
  (s.packets.lookup key).elim .new (·.packet)

/-- The entry goes with the data that it gave, or stays with a new timestamp. -/
def settle (key : IpResemblerKey) (value : IpPacket) (now : Nat) :
    Option Bytes → Option Bytes × IpReassembler
  | some data => (some data, { s with packets := s.packets.erase key })
  | none => (none, { s with packets := s.packets.insert key ⟨value, now⟩ })

def addFragment (source destination : Ipv4Addr) (packet : Ipv4Packet) (now : Nat) :
    Option (Option Bytes × IpReassembler) := do
  let totalLength ← checkedSub packet.totalLength (packet.headerLength * 4)
  if totalLength ≠ asU16 packet.payload.length then
    return (none, s)
  else
    let fragment := IpFragment.ofPacket packet
    let key : IpResemblerKey := ⟨source, destination, packet.identification⟩
    let value := s.packetAt key
    let value ←
      if isLastFragment packet then do
        let stop ← checkedAdd 16 totalLength fragment.offset
        pure (value.setTotalLength stop)
      else
        pure value
    let value ← value.addFragment fragment
    return s.settle key value now (← value.assemble)

def removeExpiredPackets (now : Nat) : IpReassembler :=
  { s with packets := s.packets.retain fun value => decide (now - value.timestamp ≤ s.timeout) }

end IpReassembler

inductive ReassemblerOp where
  | addFragment (source destination : Ipv4Addr) (packet : Ipv4Packet) (now : Nat)
  | removeExpiredPackets (now : Nat)

def IpReassembler.step (s : IpReassembler) : ReassemblerOp →
    Option (Option Bytes × IpReassembler)
  | .addFragment source destination packet now => s.addFragment source destination packet now
  | .removeExpiredPackets now => some (none, s.removeExpiredPackets now)

end LowerTier.Gateway
