import LowerTier.Proto.Rpc.Packet
import LowerTier.ProofSupport.CheckedFold

/-!
# Pieces within the record budget

The plan tiles the content, and a piece of it fits the budget with the largest counters, so
it fits with the real ones.
-/

namespace LowerTier.Proto.Rpc

open Nat List ProofSupport ProofSupport.ByteString
open ProofSupport.MachineInt ProofSupport.ProtobufSize

/-- A body of this length fits behind the given metadata; a single byte is the fallback. -/
def FitsBudget (baseLen maxEncodedLen length : Nat) : Prop :=
  length ≤ 1 ∨ baseLen + bytesField 5 length ≤ maxEncodedLen

theorem pickPieceLenForBudget_pos (baseLen : Nat) {remaining : Nat} (hremaining : 0 < remaining)
    (maxEncodedLen : Nat) : 0 < pickPieceLenForBudget baseLen remaining maxEncodedLen := by
  unfold pickPieceLenForBudget
  split
  · omega
  · split
    · omega
    · exact lt_of_lt_of_le zero_lt_one (le_max_right _ _)

variable (baseLen remaining maxEncodedLen : Nat)

theorem pickPieceLenForBudget_le :
    pickPieceLenForBudget baseLen remaining maxEncodedLen ≤ remaining := by
  unfold pickPieceLenForBudget
  split
  · omega
  · split
    · omega
    · exact Nat.max_le.mpr ⟨Nat.min_le_left _ _, by omega⟩

/-- The width of the budget is at least the width of the body's length, so the reserved
bytes are enough for the header of the body. -/
theorem pickPieceLenForBudget_fits :
    FitsBudget baseLen maxEncodedLen (pickPieceLenForBudget baseLen remaining maxEncodedLen) := by
  unfold pickPieceLenForBudget
  split
  · exact .inl (by omega)
  split
  · exact .inl (by omega)
  next hbase =>
  generalize hbudget : maxEncodedLen - baseLen = budget
  generalize hbody : max (min remaining (budget - (1 + varintLen budget))) 1 = body
  by_cases hone : body ≤ 1
  · exact .inl hone
  right
  have hwidth : varintLen body ≤ varintLen budget := varintLen_mono (by omega)
  have hkey : keyLen 5 = 1 := rfl
  unfold bytesField
  rw [if_neg (by omega), hkey]
  omega

/-! ## The plan -/

/-- Each piece starts where the one before it ends. -/
def Consecutive : List (Nat × Nat) → Nat → Nat → Prop
  | [], start, stop => start = stop
  | (offset, length) :: pieces, start, stop =>
    offset = start ∧ Consecutive pieces (start + length) stop

variable {start stop length : Nat} {pieces : List (Nat × Nat)}

theorem Consecutive.append (h : Consecutive pieces start stop) :
    Consecutive (pieces ++ [(stop, length)]) start (stop + length) := by
  induction pieces generalizing start with
  | nil => exact ⟨h.symm, by rw [show start = stop from h]; rfl⟩
  | cons piece pieces ih => exact ⟨h.1, ih h.2⟩

theorem Consecutive.le (h : Consecutive pieces start stop) : start ≤ stop := by
  induction pieces generalizing start with
  | nil => exact le_of_eq h
  | cons piece pieces ih =>
    have hrest := ih h.2
    omega

theorem Consecutive.stop_le
    (h : Consecutive pieces start stop) : ∀ piece ∈ pieces, piece.1 + piece.2 ≤ stop := by
  induction pieces generalizing start with
  | nil => simp
  | cons piece pieces ih =>
    intro found hfound
    rcases mem_cons.mp hfound with rfl | hfound
    · have hle := Consecutive.le h.2
      have hoffset := h.1
      omega
    · exact ih h.2 found hfound

def pieceBody (content : Bytes) (piece : Nat × Nat) : Bytes :=
  (content.drop piece.1).take piece.2

theorem Consecutive.flatten {content : Bytes} (h : Consecutive pieces start content.length) :
    (pieces.map (pieceBody content)).flatten = content.drop start := by
  induction pieces generalizing start with
  | nil =>
    have hstart : start = content.length := h
    simp [hstart]
  | cons piece pieces ih =>
    obtain ⟨offset, length⟩ := piece
    obtain ⟨rfl, hrest⟩ := h
    rw [map_cons, flatten_cons, ih hrest, pieceBody, ← drop_drop, take_append_drop]

/-- What holds of the plan: it tiles the content, and each piece fits behind the metadata
that it was planned with. -/
structure Plan (firstPieceBaseLen otherPieceBaseLen maxEncodedLen : Nat)
    (pieces : List (Nat × Nat)) (offset : Nat) : Prop where
  consecutive : Consecutive pieces 0 offset
  fits : ∀ i piece, pieces[i]? = some piece →
    FitsBudget (if i = 0 then firstPieceBaseLen else otherPieceBaseLen) maxEncodedLen piece.2

section Loop

variable {contentLen firstPieceBaseLen otherPieceBaseLen maxEncodedLen : Nat}

variable {offset : Nat}

theorem Plan.append (h : Plan firstPieceBaseLen otherPieceBaseLen maxEncodedLen pieces offset)
    (hlength : FitsBudget (if pieces.isEmpty then firstPieceBaseLen else otherPieceBaseLen)
      maxEncodedLen length) :
    Plan firstPieceBaseLen otherPieceBaseLen maxEncodedLen
      (pieces ++ [(offset, length)]) (offset + length) where
  consecutive := h.consecutive.append
  fits := by
    intro i piece hpiece
    by_cases hi : i < pieces.length
    · rw [getElem?_append_left hi] at hpiece
      exact h.fits i piece hpiece
    have hi' : i = pieces.length := by
      have hlt := (List.getElem?_eq_some_iff.mp hpiece).1
      rw [length_append, length_singleton] at hlt
      omega
    subst hi'
    have hpiece' : (offset, length) = piece := by simpa using hpiece
    subst hpiece'
    simpa [List.isEmpty_iff] using hlength

/-- Every round takes at least one byte, so the loop ends, and it ends with a plan. -/
theorem splitLoop_plan {fuel : Nat}
    (hfuel : contentLen - offset < fuel) (hoffset : offset ≤ contentLen)
    (hplan : Plan firstPieceBaseLen otherPieceBaseLen maxEncodedLen pieces offset) :
    ∃ plan, splitLoop contentLen firstPieceBaseLen otherPieceBaseLen maxEncodedLen fuel pieces
        offset = some plan ∧
      Plan firstPieceBaseLen otherPieceBaseLen maxEncodedLen plan contentLen := by
  induction fuel generalizing pieces offset with
  | zero => omega
  | succ fuel ih =>
    unfold splitLoop
    by_cases hmore : offset < contentLen
    · rw [if_pos hmore]
      have hremaining : 0 < contentLen - offset := by omega
      generalize hbase : (if pieces.isEmpty then firstPieceBaseLen else otherPieceBaseLen) = baseLen
      have hpos := pickPieceLenForBudget_pos baseLen hremaining maxEncodedLen
      have hle := pickPieceLenForBudget_le baseLen (contentLen - offset) maxEncodedLen
      have hfits := pickPieceLenForBudget_fits baseLen (contentLen - offset) maxEncodedLen
      apply ih
      · omega
      · omega
      · apply hplan.append
        rw [hbase]
        exact hfits
    · rw [if_neg hmore]
      have hend : offset = contentLen := by omega
      subst hend
      exact ⟨pieces, rfl, hplan⟩

end Loop

def plannedMetadataLen (args : BuildRpcPacketArgs) (pieceIdx : Nat) : Nat :=
  (buildRpcPiece args (maxValue 32) (if pieceIdx = 0 then 0 else maxValue 32) []).metadataLen

variable {p : RpcPacket}

variable (args : BuildRpcPacketArgs)

theorem splitRpcContentForRecordBudget_plan :
    ∃ plan, splitRpcContentForRecordBudget args = some plan ∧ plan ≠ [] ∧
      Consecutive plan 0 args.content.length ∧
      ∀ i piece, plan[i]? = some piece →
        FitsBudget (plannedMetadataLen args i) maxRpcPacketEncodedLen piece.2 := by
  unfold splitRpcContentForRecordBudget
  by_cases hempty : args.content.isEmpty = true
  · rw [if_pos hempty]
    have hcontent : args.content = [] := isEmpty_iff.mp hempty
    refine ⟨[(0, 0)], rfl, by simp, ?_, ?_⟩
    · simp [Consecutive, hcontent]
    · intro i piece hpiece
      have hpiece' := mem_of_getElem? hpiece
      rw [mem_singleton.mp hpiece']
      exact .inl (by omega)
  · rw [if_neg hempty]
    have hmax : max maxRpcPacketEncodedLen 1 = maxRpcPacketEncodedLen := by decide
    have hstart : Plan (buildRpcPiece args (maxValue 32) 0 []).metadataLen
        (buildRpcPiece args (maxValue 32) (maxValue 32) []).metadataLen maxRpcPacketEncodedLen
        [] 0 := ⟨rfl, by simp⟩
    obtain ⟨plan, hloop, hplan⟩ :=
      splitLoop_plan (lt_succ_self (args.content.length - 0)) (zero_le _) hstart
    refine ⟨plan, hloop, ?_, hplan.consecutive, ?_⟩
    · rintro rfl
      have hzero : 0 = args.content.length := hplan.consecutive
      exact hempty (isEmpty_iff.mpr (length_eq_zero_iff.mp hzero.symm))
    · intro i piece hpiece
      have hfits := hplan.fits i piece hpiece
      unfold plannedMetadataLen
      split at hfits
      · next hi => rwa [if_pos hi]
      · next hi => rwa [if_neg hi]

/-! ## The packets of a plan -/

def plannedPacket (args : BuildRpcPacketArgs) (plan : List (Nat × Nat))
    (piece : (Nat × Nat) × Nat) : RpcPacket :=
  buildRpcPiece args plan.length piece.2 (pieceBody args.content piece.1)

variable {plan : List (Nat × Nat)}

theorem rpcPieces_eq {args : BuildRpcPacketArgs}
    (hplan : Consecutive plan 0 args.content.length) (hcount : plan.length ≤ MAX_RPC_PIECES) :
    rpcPieces args plan = some (plan.zipIdx.map (plannedPacket args plan)) := by
  have hlimit : MAX_RPC_PIECES < 2 ^ 32 := by decide
  apply CheckedFold.mapM_eq_some_map
  intro piece hpiece
  obtain ⟨i, hi⟩ := mem_iff_getElem?.mp hpiece
  have hmem : piece.1 ∈ plan := fst_mem_of_mem_zipIdx hpiece
  have hidx : piece.2 < plan.length := by
    have hlt := snd_lt_of_mem_zipIdx hpiece
    omega
  have hslice : slice args.content piece.1.1 (piece.1.1 + piece.1.2) =
      some (pieceBody args.content piece.1) := by
    have hstop := hplan.stop_le piece.1 hmem
    unfold slice
    rw [if_pos ⟨by omega, hstop⟩, Nat.add_sub_cancel_left]
    rfl
  have htotal : asU32 plan.length = plan.length := mod_eq_of_lt (by omega)
  have hindex : asU32 piece.2 = piece.2 := mod_eq_of_lt (by omega)
  rw [hslice, htotal, hindex]
  rfl

variable {total pieceIdx : Nat}

theorem metadataLen_le_planned (body : Bytes)
    (htotal : total ≤ maxValue 32) (hidx : pieceIdx ≤ maxValue 32) :
    (buildRpcPiece args total pieceIdx body).metadataLen ≤ plannedMetadataLen args pieceIdx := by
  have htotal' := varintField_mono 7 htotal
  have hidx' : varintField 8 pieceIdx ≤
      varintField 8 (if pieceIdx = 0 then 0 else maxValue 32) := by
    apply varintField_mono
    split <;> omega
  have hmax : maxValue 32 ≠ 0 := by decide
  unfold plannedMetadataLen RpcPacket.metadataLen buildRpcPiece
  by_cases hzero : pieceIdx = 0
  · simp only [hzero, if_true] at hidx' ⊢
    omega
  · simp only [hzero, hmax, if_false] at hidx' ⊢
    omega

/-- A packet whose metadata leaves room for a byte of body is within the budget. -/
theorem plannedPacket_encodedLen_le {args : BuildRpcPacketArgs}
    (hcount : plan.length ≤ MAX_RPC_PIECES)
    (hfits : ∀ i piece, plan[i]? = some piece →
      FitsBudget (plannedMetadataLen args i) maxRpcPacketEncodedLen piece.2)
    (hp : p ∈ plan.zipIdx.map (plannedPacket args plan))
    (hmetadata : p.metadataLen + 3 ≤ maxRpcPacketEncodedLen) :
    p.encodedLen ≤ maxRpcPacketEncodedLen := by
  have hlimit : MAX_RPC_PIECES ≤ maxValue 32 := by decide
  obtain ⟨⟨piece, i⟩, hpiece, rfl⟩ := List.mem_map.mp hp
  have hget : plan[i]? = some piece := mem_zipIdx_iff_getElem?.mp hpiece
  have hidx := (List.getElem?_eq_some_iff.mp hget).1
  have hle := metadataLen_le_planned args (pieceBody args.content piece)
    (show plan.length ≤ maxValue 32 by omega) (show i ≤ maxValue 32 by omega)
  have hbody : (pieceBody args.content piece).length ≤ piece.2 := by
    unfold pieceBody
    rw [length_take]
    omega
  have hmono : bytesField 5 (pieceBody args.content piece).length ≤ bytesField 5 piece.2 := by
    have hwidth := varintLen_mono hbody
    unfold bytesField
    split <;> split <;> omega
  have hencoded : (plannedPacket args plan (piece, i)).encodedLen =
      (plannedPacket args plan (piece, i)).metadataLen +
        bytesField 5 (pieceBody args.content piece).length := rfl
  have hbase : (plannedPacket args plan (piece, i)).metadataLen ≤ plannedMetadataLen args i := hle
  rcases hfits i piece hget with hone | hfits
  · have hthree : bytesField 5 piece.2 ≤ 3 := by
      have hcases : piece.2 = 0 ∨ piece.2 = 1 := by omega
      rcases hcases with hzero | hone
      · simp [bytesField, hzero]
      · rw [hone]
        decide
    omega
  · omega

theorem signedField_le (tag : Nat) (n : Int64) : signedField tag n ≤ keyLen tag + 10 :=
  varintField_le n.toUInt64.toNat_lt

theorem RpcCompressionInfo.encodedLen_le (info : RpcCompressionInfo) : info.encodedLen ≤ 22 := by
  have halgo := signedField_le 1 info.algo.toInt64
  have haccepted := signedField_le 2 info.acceptedAlgo.toInt64
  have hkeys : keyLen 1 = 1 ∧ keyLen 2 = 1 := ⟨rfl, rfl⟩
  unfold RpcCompressionInfo.encodedLen
  omega

theorem encodedLen_buildRpcPiece_le
    {body : Bytes} (htotal : total < 2 ^ 64) (hidx : pieceIdx < 2 ^ 64)
    (hdescriptor : args.rpcDesc.encodedLen < 2 ^ 64) (hbody : body.length < 2 ^ 64) :
    (buildRpcPiece args total pieceIdx body).encodedLen ≤
      args.rpcDesc.encodedLen + body.length + 256 := by
  have hfrom : varintField 1 args.fromPeer.toNat ≤ keyLen 1 + 10 := by
    have hlt := args.fromPeer.toNat_lt
    exact varintField_le (by omega)
  have hto : varintField 2 args.toPeer.toNat ≤ keyLen 2 + 10 := by
    have hlt := args.toPeer.toNat_lt
    exact varintField_le (by omega)
  have hrequest : varintField 6 args.isReq.toNat ≤ keyLen 6 + 10 := by
    have hlt := args.isReq.toNat_le
    exact varintField_le (by omega)
  have htransaction := signedField_le 3 args.transactionId
  have htrace := signedField_le 9 args.traceId.toInt64
  have hdesc : messageField 4 _ ≤ _ := messageField_le hdescriptor
  have htotal' : varintField 7 _ ≤ _ := varintField_le htotal
  have hidx' : varintField 8 _ ≤ _ := varintField_le hidx
  have hbody' : bytesField 5 _ ≤ _ := bytesField_le hbody
  have hinfo := args.compressionInfo.encodedLen_le
  have hcompression : messageField 10 args.compressionInfo.encodedLen ≤ keyLen 10 + 10 + 22 :=
    le_trans (messageField_le (by omega)) (by omega)
  have hkeys : keyLen 1 = 1 ∧ keyLen 2 = 1 ∧ keyLen 3 = 1 ∧ keyLen 4 = 1 ∧ keyLen 5 = 1 ∧
      keyLen 6 = 1 ∧ keyLen 7 = 1 ∧ keyLen 8 = 1 ∧ keyLen 9 = 1 ∧ keyLen 10 = 1 := by decide
  unfold RpcPacket.encodedLen RpcPacket.metadataLen buildRpcPiece
  by_cases hzero : pieceIdx = 0
  · simp only [hzero, if_true, Option.elim_some] at hidx' ⊢
    omega
  · simp only [hzero, if_false, Option.elim_some, Option.elim_none]
    omega

end LowerTier.Proto.Rpc
