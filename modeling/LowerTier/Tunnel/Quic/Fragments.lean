import LowerTier.ProofSupport.KeyedMap
import LowerTier.ProofSupport.MachineInt
import LowerTier.Tunnel.PacketDef

/-!
# Partial DATAGRAM frames (`tunnel/quic/fragments.rs`)

`DatagramFragments` collects the fragments of packets that did not fit a QUIC
DATAGRAM.  It bounds what it retains per connection, and every retained byte is also
charged to the memory governor of the process, which may refuse.

The answers of the governor and the clock readings are arguments.  A call whose indexing,
`unwrap`, `expect` or unsigned subtraction would panic is `none`, and so is a call that
would not return.
-/

namespace LowerTier.Tunnel.Quic

open ProofSupport ProofSupport.ByteString ProofSupport.MachineInt

def DATAGRAM_FRAGMENT_MAX_PENDING : Nat := 64

def RETAINED_BYTES_LIMIT : Nat := 2 * 1024 * 1024

def ASSEMBLY_LIFETIME_MS : Nat := 15 * 1000

/-- `size_of::<Option<Bytes>>()` on a 64-bit target. -/
def SIZE_OF_PART : Nat := 32

structure FragmentInProgress where
  parts : List (Option Bytes)
  filled : Nat
  payloadBytes : Nat
  retainedBytes : Nat
  expires : Nat
  /-- The bytes that its permit holds. -/
  permit : Nat
deriving DecidableEq

structure DatagramFragments where
  pending : KeyedMap UInt32 FragmentInProgress
  order : List UInt32
  retainedBytes : Nat
  /-- What the governor has charged to this store. -/
  charged : Nat
  /-- The deadline of the timer. -/
  expiry : Option Nat

structure FragmentPush where
  id : UInt32
  index : UInt8
  count : UInt8
  payload : Bytes
  nowMs : Nat
  reserveMetadata : Bool
  extendPermit : Bool
  reserveOutput : Bool

namespace DatagramFragments

def new : DatagramFragments where
  pending := ∅
  order := []
  retainedBytes := 0
  charged := 0
  expiry := none

variable (s : DatagramFragments)

def releasePermit (entry : FragmentInProgress) :
    Option DatagramFragments := do
  let charged ← checkedSub s.charged entry.permit
  return { s with charged := charged }

def remove (id : UInt32) :
    Option (Option FragmentInProgress × DatagramFragments) :=
  match s.pending.lookup id with
  | none => some (none, s)
  | some entry => do
      let retainedBytes ← checkedSub s.retainedBytes entry.retainedBytes
      return (some entry, { s with
        pending := s.pending.erase id
        retainedBytes := retainedBytes
        order := s.order.filter (· ≠ id) })

def discard (id : UInt32) : Option DatagramFragments := do
  match ← s.remove id with
  | (none, s) => return s
  | (some entry, s) => s.releasePermit entry

def scheduleExpiry : DatagramFragments :=
  match s.order.head?.bind (s.pending.lookup ·) with
  | none => s
  | some entry => { s with expiry := some entry.expires }

def expireLoop (nowMs : Nat) : Nat → DatagramFragments → Option DatagramFragments
  | 0, _ => none
  | fuel + 1, s =>
    match s.order.head? with
    | none => some s
    | some id => do
        let entry ← s.pending.lookup id
        if entry.expires > nowMs then
          return s
        else
          expireLoop nowMs fuel (← s.discard id)

def expire (nowMs : Nat) : Option DatagramFragments := do
  let s ← expireLoop nowMs (s.order.length + 1) s
  return s.scheduleExpiry

/-- `poll_expiry`; `pollMs` is the time at which the timer is polled. -/
def pollExpiry (pollMs nowMs : Nat) : Option DatagramFragments :=
  if s.pending.size ≠ 0 ∧ s.expiry.any (· ≤ pollMs) then s.expire nowMs else some s

/-- Room for a new entry: the oldest one makes way when the cache is full. -/
def evictOldest : Option DatagramFragments :=
  if s.pending.size = DATAGRAM_FRAGMENT_MAX_PENDING then do
    let oldest ← s.order.head?
    s.discard oldest
  else
    some s

def newEntry (count : UInt8) (metadataBytes nowMs : Nat) : FragmentInProgress where
  parts := List.replicate count.toNat none
  filled := 0
  payloadBytes := 0
  retainedBytes := metadataBytes
  expires := nowMs + ASSEMBLY_LIFETIME_MS
  permit := metadataBytes

variable (push : FragmentPush)

def insertEntry (metadataBytes : Nat) :
    DatagramFragments :=
  { s with
    pending := s.pending.insert push.id (newEntry push.count metadataBytes push.nowMs)
    order := s.order ++ [push.id]
    retainedBytes := s.retainedBytes + metadataBytes
    charged := s.charged + metadataBytes }

/-- The entry once the part is in place. -/
def withPart (entry : FragmentInProgress) (push : FragmentPush) : FragmentInProgress :=
  { entry with
    parts := entry.parts.set push.index.toNat (some push.payload)
    filled := entry.filled + 1
    payloadBytes := entry.payloadBytes + push.payload.length
    retainedBytes := entry.retainedBytes + push.payload.length
    permit := entry.permit + push.payload.length }

/-- Put the part in place; `parts[index]` panics out of range. -/
def fillPart (entry : FragmentInProgress) (push : FragmentPush) : Option FragmentInProgress :=
  if push.index.toNat < entry.parts.length then some (withPart entry push) else none

/-- Join the parts; a part that is missing ends the call without a packet. -/
def joinParts (parts : List (Option Bytes)) : Option Bytes :=
  parts.foldr (fun part rest => do return (← part) ++ (← rest)) (some [])

def assemble :
    Option (Option ZCPacket × DatagramFragments) := do
  match ← s.remove push.id with
  | (none, s) => return (none, s)
  | (some assembled, s) =>
    let s ← s.releasePermit assembled
    if assembled.payloadBytes < PEER_MANAGER_HEADER_SIZE ∨ !push.reserveOutput then
      return (none, s)
    else
      return ((joinParts assembled.parts).map (ZCPacket.newFromBuf · .dummyTunnel), s)

/-- Put the part in place, and assemble the packet if it was the last one missing. -/
def addPart :
    Option (Option ZCPacket × DatagramFragments) := do
  let entry ← s.pending.lookup push.id
  if !push.extendPermit then
    return (none, ← s.discard push.id)
  else
    let filled ← fillPart entry push
    let s := { s with
      pending := s.pending.insert push.id filled
      retainedBytes := s.retainedBytes + push.payload.length
      charged := s.charged + push.payload.length }
    if filled.filled ≠ filled.parts.length then
      return (none, s)
    else
      s.assemble push

/-- Whether the store has the part already, or a different number of parts. -/
def refuses : Option Bool :=
  match s.pending.lookup push.id with
  | none => some false
  | some entry =>
    if entry.parts.length ≠ push.count.toNat then
      some true
    else do
      return (← entry.parts[push.index.toNat]?).isSome

def metadataBytes : Nat :=
  if (s.pending.lookup push.id).isSome then 0 else push.count.toNat * SIZE_OF_PART

/-- The part of `push_fragment` after the checks on what is retained. -/
def admitFragment :
    Option (Option ZCPacket × DatagramFragments) :=
  if (s.pending.lookup push.id).isSome then
    s.addPart push
  else do
    let metadataBytes := s.metadataBytes push
    let s ← s.evictOldest
    if !push.reserveMetadata then
      return (none, s)
    else
      (s.insertEntry push metadataBytes).addPart push

def pushFragment :
    Option (Option ZCPacket × DatagramFragments) :=
  if push.count = 0 ∨ push.index ≥ push.count then
    some (none, s)
  else do
    let s ← s.expire push.nowMs
    if ← s.refuses push then
      return (none, s)
    else
      let charge := s.metadataBytes push + push.payload.length
      if charge ≥ 2 ^ 64 then
        return (none, s)
      else if charge > RETAINED_BYTES_LIMIT - s.retainedBytes then
        return (none, ← s.discard push.id)
      else
        s.admitFragment push

end DatagramFragments

end LowerTier.Tunnel.Quic
