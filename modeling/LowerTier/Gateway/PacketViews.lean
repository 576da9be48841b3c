import LowerTier.Gateway.IpReassembler
import LowerTier.ProofSupport.ByteFields
import LowerTier.Tunnel.PacketDef

/-!
# Packets at the gateways (`gateway/mod.rs`)

The packets that the proxies take from peers, the views of IPv4 and TCP headers that the crate
`pnet` gives on their bytes, and the networks that a node proxies.  `pnet` is a parameter, with what
is assumed of it: a view exists as soon as the bytes of a minimal header are there, a field is read
where it stands in the header, and the payload of an IPv4 view starts behind the options and is cut
at the total length of the header and at the end of the bytes.
-/

namespace LowerTier.Gateway

open ProofSupport.ByteString ProofSupport.ByteFields Tunnel

structure SocketAddr where
  ip : Ipv4Addr
  port : UInt16
deriving DecidableEq, Repr

structure PeerPacket where
  header : PeerManagerHeader
  payload : Bytes
deriving DecidableEq

def EXIT_NODE : UInt8 := 0b00000100
def NO_PROXY : UInt8 := 0b00001000

variable (header : PeerManagerHeader)

def isExitNode : Bool := header.flags &&& EXIT_NODE == EXIT_NODE

def isNoProxy : Bool := header.flags &&& NO_PROXY == NO_PROXY

def setNoProxy : PeerManagerHeader :=
  { header with flags := header.flags ||| NO_PROXY }

def TCP_PROTOCOL : Nat := 6

def IPV4_HEADER_SIZE : Nat := 20

def TCP_HEADER_SIZE : Nat := 20

inductive HeaderField where
  | version | headerLength | totalLength | flags | fragmentOffset | nextLevelProtocol | checksum
  | source | destination
  | tcpSource | tcpDestination | tcpDataOffset | tcpFlags | tcpChecksum

variable (bytes : Bytes)

/-- The value of a field in the bytes of its header. -/
def HeaderField.inHeader : HeaderField → Nat
  | .version => field bytes 0 1 / 16
  | .headerLength => field bytes 0 1 % 16
  | .totalLength => field bytes 2 2
  | .flags => field bytes 6 2 / 2 ^ 13
  | .fragmentOffset => field bytes 6 2 % 2 ^ 13
  | .nextLevelProtocol => field bytes 9 1
  | .checksum => field bytes 10 2
  | .source => field bytes 12 4
  | .destination => field bytes 16 4
  | .tcpSource => field bytes 0 2
  | .tcpDestination => field bytes 2 2
  | .tcpDataOffset => field bytes 12 1 / 16
  | .tcpFlags => field bytes 13 1
  | .tcpChecksum => field bytes 16 2

/-- Where the payload starts: the words beyond the five of the header are options. -/
def payloadStartAt (headerLength : Nat) : Nat := IPV4_HEADER_SIZE + (headerLength - 5) * 4

variable (headerLength totalLength : Nat)

def payloadStopAt : Nat :=
  min (payloadStartAt headerLength + (totalLength - headerLength * 4)) bytes.length

def payloadAt : Bytes :=
  if bytes.length ≤ payloadStartAt headerLength then []
  else (bytes.take (payloadStopAt bytes headerLength totalLength)).drop
    (payloadStartAt headerLength)

/-- The crate `pnet`. -/
class Pnet where
  isIpv4Packet : Bytes → Bool
  isTcpPacket : Bytes → Bool
  get : HeaderField → Bytes → Nat
  payload : Bytes → Bytes
  isIpv4Packet_iff : ∀ bytes, isIpv4Packet bytes = true ↔ IPV4_HEADER_SIZE ≤ bytes.length
  isTcpPacket_iff : ∀ bytes, isTcpPacket bytes = true ↔ TCP_HEADER_SIZE ≤ bytes.length
  get_eq : ∀ header bytes, IPV4_HEADER_SIZE ≤ bytes.length →
    get header bytes = header.inHeader bytes
  payload_eq : ∀ bytes, IPV4_HEADER_SIZE ≤ bytes.length →
    payload bytes = payloadAt bytes (get .headerLength bytes) (get .totalLength bytes)

/-- One that reads as it should. -/
instance headerReader : Pnet where
  isIpv4Packet bytes := decide (IPV4_HEADER_SIZE ≤ bytes.length)
  isTcpPacket bytes := decide (TCP_HEADER_SIZE ≤ bytes.length)
  get header bytes := header.inHeader bytes
  payload bytes := payloadAt bytes (HeaderField.headerLength.inHeader bytes)
    (HeaderField.totalLength.inHeader bytes)
  isIpv4Packet_iff _ := decide_eq_true_iff
  isTcpPacket_iff _ := decide_eq_true_iff
  get_eq _ _ _ := rfl
  payload_eq _ _ := rfl

structure Ipv4View where
  bytes : Bytes
  complete : IPV4_HEADER_SIZE ≤ bytes.length

structure TcpView where
  bytes : Bytes
  complete : TCP_HEADER_SIZE ≤ bytes.length

section

variable [Pnet]

namespace Ipv4View

def new : Option Ipv4View :=
  if accepted : Pnet.isIpv4Packet bytes = true then
    some ⟨bytes, (Pnet.isIpv4Packet_iff bytes).mp accepted⟩
  else none

variable (view : Ipv4View)

def getVersion : Nat := Pnet.get .version view.bytes

def getHeaderLength : Nat := Pnet.get .headerLength view.bytes

def getTotalLength : Nat := Pnet.get .totalLength view.bytes

def getFlags : Nat := Pnet.get .flags view.bytes

def getFragmentOffset : Nat := Pnet.get .fragmentOffset view.bytes

def getNextLevelProtocol : Nat := Pnet.get .nextLevelProtocol view.bytes

def getChecksum : Nat := Pnet.get .checksum view.bytes

def getSource : Ipv4Addr := UInt32.ofNat (Pnet.get .source view.bytes)

def getDestination : Ipv4Addr := UInt32.ofNat (Pnet.get .destination view.bytes)

def payloadStart : Nat := payloadStartAt view.getHeaderLength

def payloadStop : Nat := payloadStopAt view.bytes view.getHeaderLength view.getTotalLength

def payload : Bytes := Pnet.payload view.bytes

def isFragmented : Bool := view.getFragmentOffset != 0 || view.getFlags % 2 != 0

theorem getVersion_eq : view.getVersion = field view.bytes 0 1 / 16 :=
  Pnet.get_eq .version _ view.complete

theorem getHeaderLength_eq : view.getHeaderLength = field view.bytes 0 1 % 16 :=
  Pnet.get_eq .headerLength _ view.complete

theorem getTotalLength_eq : view.getTotalLength = field view.bytes 2 2 :=
  Pnet.get_eq .totalLength _ view.complete

theorem getNextLevelProtocol_eq : view.getNextLevelProtocol = field view.bytes 9 1 :=
  Pnet.get_eq .nextLevelProtocol _ view.complete

theorem getSource_eq : view.getSource = UInt32.ofNat (field view.bytes 12 4) :=
  congrArg _ (Pnet.get_eq .source _ view.complete)

theorem getDestination_eq : view.getDestination = UInt32.ofNat (field view.bytes 16 4) :=
  congrArg _ (Pnet.get_eq .destination _ view.complete)

theorem payload_eq : view.payload = if view.bytes.length ≤ view.payloadStart then []
    else (view.bytes.take view.payloadStop).drop view.payloadStart :=
  Pnet.payload_eq view.bytes view.complete

end Ipv4View

namespace TcpView

def new : Option TcpView :=
  if accepted : Pnet.isTcpPacket bytes = true then
    some ⟨bytes, (Pnet.isTcpPacket_iff bytes).mp accepted⟩
  else none

variable (view : TcpView)

def getSource : UInt16 := UInt16.ofNat (Pnet.get .tcpSource view.bytes)

def getDestination : UInt16 := UInt16.ofNat (Pnet.get .tcpDestination view.bytes)

def getChecksum : Nat := Pnet.get .tcpChecksum view.bytes

/-- The words of the header with its options. -/
def getDataOffset : Nat := Pnet.get .tcpDataOffset view.bytes

def isSyn : Bool := Pnet.get .tcpFlags view.bytes / 2 % 2 == 1

def isAck : Bool := Pnet.get .tcpFlags view.bytes / 16 % 2 == 1

theorem getSource_eq : view.getSource = UInt16.ofNat (field view.bytes 0 2) :=
  congrArg _ (Pnet.get_eq .tcpSource _ view.complete)

theorem getDestination_eq : view.getDestination = UInt16.ofNat (field view.bytes 2 2) :=
  congrArg _ (Pnet.get_eq .tcpDestination _ view.complete)

end TcpView

end

structure Ipv4Cidr where
  first : Ipv4Addr
  mask : Ipv4Addr
deriving DecidableEq

def Ipv4Cidr.contains (cidr : Ipv4Cidr) (ip : Ipv4Addr) : Bool := ip &&& cidr.mask == cidr.first

abbrev CidrSet := List (Ipv4Cidr × Ipv4Cidr)

def CidrSet.containsV4 : CidrSet → Ipv4Addr → Option Ipv4Addr
  | [], _ => none
  | (cidr, realCidr) :: rest, ip =>
    if cidr.contains ip then
      some (if cidr ≠ realCidr then (ip &&& ~~~cidr.mask) ||| realCidr.first else ip)
    else CidrSet.containsV4 rest ip

structure ProxyConfig where
  cidrSet : CidrSet
  enableExitNode : Bool
  noTun : Bool
  /-- The virtual address of the node with the first address of its network. -/
  ipv4 : Option (Ipv4Addr × Ipv4Addr)

namespace ProxyConfig

variable (config : ProxyConfig)

def checkPacketFromPeerFast : Bool :=
  !config.cidrSet.isEmpty || config.enableExitNode || config.noTun

/-- The real destination of a packet that the node proxies. -/
def checkPacketFromPeer (destination : Ipv4Addr) : Option Ipv4Addr :=
  match config.cidrSet.containsV4 destination with
  | some realDestination => some realDestination
  | none =>
    if isExitNode header || config.noTun && some destination == config.ipv4.map (·.1) then
      some destination
    else none

def isIpLocalVirtualIp (ip : Ipv4Addr) : Bool := config.ipv4.any (·.1 == ip)

end ProxyConfig

end LowerTier.Gateway
