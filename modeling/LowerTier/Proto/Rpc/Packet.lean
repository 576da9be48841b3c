import LowerTier.Peers.Encrypt
import LowerTier.ProofSupport.KeyedMap
import LowerTier.ProofSupport.MachineInt
import LowerTier.ProofSupport.ProtobufSize

/-!
# RPC packets and their pieces (`proto/rpc_impl/packet.rs`)

A request or response is cut into pieces that fit one record.  The cut is planned with the
largest piece counters, before the number of pieces is known.  The sizes are those of the
protobuf encoding of `proto/common.proto`; the encoding itself is not modelled.
-/

namespace LowerTier.Proto.Rpc

open ProofSupport ProofSupport.ByteString ProofSupport.MachineInt ProofSupport.ProtobufSize Tunnel
  Peers

def RPC_PACKET_RECORD_BUDGET : Nat := 1300

def MAX_RPC_BODY_BYTES : Nat := 256 * 1024

def MAX_RPC_PIECES : Nat := 1024

structure RpcDescriptor where
  domainName : String
  protoName : String
  serviceName : String
  methodIndex : UInt32
deriving DecidableEq, Repr

structure RpcCompressionInfo where
  algo : Int32
  acceptedAlgo : Int32
deriving DecidableEq, Repr

def COMPRESSION_NONE : Int32 := 1

structure RpcPacket where
  fromPeer : PeerId
  toPeer : PeerId
  transactionId : Int64
  descriptor : Option RpcDescriptor
  body : Bytes
  isRequest : Bool
  totalPieces : Nat
  pieceIdx : Nat
  traceId : Int32
  compressionInfo : Option RpcCompressionInfo
deriving DecidableEq, Repr

def RpcDescriptor.encodedLen (d : RpcDescriptor) : Nat :=
  bytesField 1 d.domainName.utf8ByteSize + bytesField 2 d.protoName.utf8ByteSize +
    bytesField 3 d.serviceName.utf8ByteSize + varintField 4 d.methodIndex.toNat

/-- A signed number is widened to 64 bits before it is written. -/
def signedField (tag : Nat) (n : Int64) : Nat := varintField tag n.toUInt64.toNat

def RpcCompressionInfo.encodedLen (info : RpcCompressionInfo) : Nat :=
  signedField 1 info.algo.toInt64 + signedField 2 info.acceptedAlgo.toInt64

def RpcPacket.metadataLen (p : RpcPacket) : Nat :=
  varintField 1 p.fromPeer.toNat + varintField 2 p.toPeer.toNat + signedField 3 p.transactionId +
    p.descriptor.elim 0 (messageField 4 ·.encodedLen) + varintField 6 p.isRequest.toNat +
    varintField 7 p.totalPieces + varintField 8 p.pieceIdx + signedField 9 p.traceId.toInt64 +
    p.compressionInfo.elim 0 (messageField 10 ·.encodedLen)

def RpcPacket.encodedLen (p : RpcPacket) : Nat := p.metadataLen + bytesField 5 p.body.length

structure BuildRpcPacketArgs where
  fromPeer : PeerId
  toPeer : PeerId
  rpcDesc : RpcDescriptor
  transactionId : Int64
  isReq : Bool
  content : Bytes
  traceId : Int32
  compressionInfo : RpcCompressionInfo
deriving Repr

def rpcRecordOverhead : Nat := ZCPacketType.payloadOffset .nic + TAIL_RESERVED_SIZE

def maxRpcPacketEncodedLen : Nat := RPC_PACKET_RECORD_BUDGET - rpcRecordOverhead

variable (args : BuildRpcPacketArgs)

def buildRpcPiece (totalPieces pieceIdx : Nat) (body : Bytes) :
    RpcPacket where
  fromPeer := args.fromPeer
  toPeer := args.toPeer
  descriptor := some args.rpcDesc
  isRequest := args.isReq
  totalPieces := totalPieces
  pieceIdx := pieceIdx
  transactionId := args.transactionId
  body := body
  traceId := args.traceId
  compressionInfo := if pieceIdx = 0 then some args.compressionInfo else none

def pickPieceLenForBudget (baseEncodedLenWithoutBody remaining maxEncodedLen : Nat) : Nat :=
  if remaining = 0 then
    0
  else if baseEncodedLenWithoutBody + 3 > maxEncodedLen then
    1
  else
    let budget := maxEncodedLen - baseEncodedLenWithoutBody
    let reservedForBodyHeader := 1 + varintLen budget
    max (min remaining (budget - reservedForBodyHeader)) 1

/-- The loop of `split_rpc_content_for_record_budget`; `none` if it takes more rounds than
the fuel. -/
def splitLoop (contentLen firstPieceBaseLen otherPieceBaseLen maxEncodedLen : Nat) :
    Nat → List (Nat × Nat) → Nat → Option (List (Nat × Nat))
  | 0, _, _ => none
  | fuel + 1, pieces, offset =>
    if offset < contentLen then
      let baseLen := if pieces.isEmpty then firstPieceBaseLen else otherPieceBaseLen
      let pieceLen := pickPieceLenForBudget baseLen (contentLen - offset) maxEncodedLen
      splitLoop contentLen firstPieceBaseLen otherPieceBaseLen maxEncodedLen fuel
        (pieces ++ [(offset, pieceLen)]) (offset + pieceLen)
    else
      some pieces

def splitRpcContentForRecordBudget : Option (List (Nat × Nat)) :=
  if args.content.isEmpty then
    some [(0, 0)]
  else
    let maxEncodedLen := max maxRpcPacketEncodedLen 1
    let firstPieceBaseLen := (buildRpcPiece args (maxValue 32) 0 []).encodedLen
    let otherPieceBaseLen := (buildRpcPiece args (maxValue 32) (maxValue 32) []).encodedLen
    splitLoop args.content.length firstPieceBaseLen otherPieceBaseLen maxEncodedLen
      (args.content.length + 1) [] 0

def asU32 (n : Nat) : Nat := n % 2 ^ 32

def rpcPieces (pieces : List (Nat × Nat)) : Option (List RpcPacket) :=
  (pieces.zipIdx).mapM fun piece => do
    let body ← slice args.content piece.1.1 (piece.1.1 + piece.1.2)
    return buildRpcPiece args (asU32 pieces.length) (asU32 piece.2) body

/-!
## Merging the pieces of an RPC

A merger keeps the pieces of one transaction until it has all of them.  A call that fails
can have changed the merger, so the state is returned with the error.  The clock reading is
an argument.
-/

def RPC_MERGER_MAP_ENTRY_OVERHEAD : Nat := 64

def RPC_MERGER_ENVELOPE_OVERHEAD : Nat := 128

inductive RpcError where
  | malformatRpcPacket (text : String)
deriving DecidableEq, Repr

structure FragmentEnvelope where
  fromPeer : PeerId
  toPeer : PeerId
  descriptor : Option RpcDescriptor
  isRequest : Bool
  totalPieces : Nat
  transactionId : Int64
  traceId : Int32
deriving DecidableEq, Repr

def FragmentEnvelope.fromPacket (packet : RpcPacket) : FragmentEnvelope := { packet with }

structure PacketMerger where
  firstEnvelope : Option FragmentEnvelope
  firstCompressionInfo : Option RpcCompressionInfo
  compressionInfoKnown : Bool
  pieces : KeyedMap Nat RpcPacket
  bodyBytes : Nat
  retainedBytes : Nat
  lastUpdated : Nat

namespace PacketMerger

def new (now : Nat) : PacketMerger where
  firstEnvelope := none
  firstCompressionInfo := none
  compressionInfoKnown := false
  pieces := ∅
  bodyBytes := 0
  retainedBytes := 0
  lastUpdated := now

def compressionIsLegal (packet : RpcPacket) : Bool :=
  packet.pieceIdx = 0 || packet.compressionInfo.isNone

variable (m : PacketMerger)

def pieceFits (envelope : FragmentEnvelope) (pieceIdx : Nat) : Bool :=
  (m.pieces.lookup pieceIdx).any fun p =>
    p.totalPieces ≠ 0 && p.pieceIdx = pieceIdx && envelope = .fromPacket p && compressionIsLegal p

/-- The bodies in the order of the pieces; every piece has been looked up before. -/
def mergedBody (totalPieces : Nat) : Bytes :=
  (List.range totalPieces).flatMap fun pieceIdx => (m.pieces.lookup pieceIdx).elim [] (·.body)

def tryMergePieces : Option RpcPacket := do
  let firstEnvelope ← m.firstEnvelope
  if m.pieces.size = 0 then
    none
  else if m.pieces.size ≠ firstEnvelope.totalPieces then
    none
  else if !(List.range firstEnvelope.totalPieces).all (m.pieceFits firstEnvelope) then
    none
  else
    let tmplPacket ← m.pieces.lookup 0
    some { tmplPacket with
      totalPieces := 1, pieceIdx := 0, body := m.mergedBody firstEnvelope.totalPieces }

variable (packet : RpcPacket)

def checkPiece : Except RpcError Unit :=
  if packet.totalPieces = 0 then
    .error (.malformatRpcPacket "fragmented RPC packet has zero total_pieces")
  else if packet.descriptor.isNone then
    .error (.malformatRpcPacket "descriptor is missing")
  else if !compressionIsLegal packet then
    .error (.malformatRpcPacket "compression metadata is only allowed on piece zero")
  else if packet.totalPieces > MAX_RPC_PIECES then
    .error (.malformatRpcPacket s!"total_pieces is invalid: {packet.totalPieces}")
  else if packet.pieceIdx ≥ packet.totalPieces then
    .error (.malformatRpcPacket "piece_idx >= total_pieces")
  else
    .ok ()

/-- The first piece sets the envelope, every other one has to match it. -/
def checkEnvelope : Except RpcError PacketMerger :=
  match m.firstEnvelope with
  | some firstEnvelope =>
    if firstEnvelope ≠ .fromPacket packet then
      .error (.malformatRpcPacket "RPC fragment envelope does not match the first fragment")
    else
      .ok m
  | none => .ok { m with firstEnvelope := some (.fromPacket packet) }

def checkCompression : Except RpcError PacketMerger :=
  if packet.pieceIdx = 0 then
    if m.compressionInfoKnown && m.firstCompressionInfo ≠ packet.compressionInfo then
      .error (.malformatRpcPacket "piece zero compression metadata changed")
    else
      .ok { m with firstCompressionInfo := packet.compressionInfo, compressionInfoKnown := true }
  else
    .ok m

/-- What a piece adds to the retained bytes: the envelope is counted with the first one. -/
def retainedPieceBytes : Option Nat := do
  let bytes ← checkedAdd 64 packet.encodedLen RPC_MERGER_MAP_ENTRY_OVERHEAD
  if m.pieces.size = 0 then
    checkedAdd 64 bytes RPC_MERGER_ENVELOPE_OVERHEAD
  else
    some bytes

def addPiece (now : Nat) :
    Except RpcError (Option RpcPacket) × PacketMerger :=
  match checkedAdd 64 m.bodyBytes packet.body.length with
  | none => (.error (.malformatRpcPacket "RPC body size overflow"), m)
  | some newBodyBytes =>
    if newBodyBytes > MAX_RPC_BODY_BYTES then
      (.error (.malformatRpcPacket
        s!"reassembled RPC body is too large: {newBodyBytes} bytes"), m)
    else
      let m := { m with bodyBytes := newBodyBytes }
      match (m.retainedPieceBytes packet).bind (checkedAdd 64 m.retainedBytes) with
      | none => (.error (.malformatRpcPacket "RPC retained size overflow"), m)
      | some retainedBytes =>
        let m := { m with
          retainedBytes := retainedBytes
          pieces := m.pieces.insert packet.pieceIdx packet
          lastUpdated := now }
        (.ok m.tryMergePieces, m)

def feed (now : Nat) :
    Except RpcError (Option RpcPacket) × PacketMerger :=
  if packet.totalPieces = 0 ∧ packet.pieceIdx = 0 then
    if packet.body.length > MAX_RPC_BODY_BYTES then
      (.error (.malformatRpcPacket
        s!"unfragmented RPC body is too large: {packet.body.length} bytes"), m)
    else
      (.ok (some packet), m)
  else
    match checkPiece packet with
    | .error error => (.error error, m)
    | .ok () =>
      match m.checkEnvelope packet with
      | .error error => (.error error, m)
      | .ok m =>
        match m.checkCompression packet with
        | .error error => (.error error, m)
        | .ok m =>
          match m.pieces.lookup packet.pieceIdx with
          | some piece =>
            if piece.body ≠ packet.body ∨
                piece.compressionInfo ≠ packet.compressionInfo then
              (.error (.malformatRpcPacket
                "duplicate RPC fragment has a different body"), m)
            else
              let m := { m with lastUpdated := now }
              (.ok m.tryMergePieces, m)
          | none => m.addPiece packet now

end PacketMerger

end LowerTier.Proto.Rpc
