import LowerTier.Proto.Rpc.RecordBudget
import Mathlib.Algebra.BigOperators.Intervals
import Mathlib.Algebra.Group.Action.Defs

/-!
# RPC fragmentation round trips

The pieces of one packet reach a fresh merger in any order, some of them several times.
`Collected` is the state of the merger after the pieces with the given indices; one more
piece adds its index, and the merger answers with the packet exactly when no index is
missing.
-/

namespace LowerTier.Proto.Rpc

open PacketMerger List ProofSupport ProofSupport.ByteString ProofSupport.MachineInt
open ProofSupport.ProtobufSize KeyedMap

/-! ## Families of pieces -/

def RpcPacket.entryBytes (p : RpcPacket) : Nat := p.encodedLen + RPC_MERGER_MAP_ENTRY_OVERHEAD

structure IsFamily (packets : List RpcPacket) (envelope : FragmentEnvelope)
    (info : RpcCompressionInfo) : Prop where
  piece : ∀ i p, packets[i]? = some p → p.pieceIdx = i ∧ .fromPacket p = envelope ∧
    p.compressionInfo = if i = 0 then some info else none
  total : envelope.totalPieces = packets.length
  descriptor : envelope.descriptor.isSome
  nonempty : packets ≠ []
  count : packets.length ≤ MAX_RPC_PIECES
  body : (packets.map (·.body.length)).sum ≤ MAX_RPC_BODY_BYTES
  retained : (packets.map (·.entryBytes)).sum + RPC_MERGER_ENVELOPE_OVERHEAD < 2 ^ 64

namespace IsFamily

variable {packets : List RpcPacket} {envelope : FragmentEnvelope} {info : RpcCompressionInfo}
  {k : Nat} {p : RpcPacket}

variable (h : IsFamily packets envelope info)
include h

theorem length_pos : 0 < packets.length := length_pos_iff.mpr h.nonempty

theorem totalPieces_eq (hp : packets[k]? = some p) : p.totalPieces = packets.length := by
  have henvelope := (h.piece k p hp).2.1
  rw [← h.total, ← henvelope]
  rfl

theorem compressionIsLegal (hp : packets[k]? = some p) :
    compressionIsLegal p = true := by
  obtain ⟨hidx, -, hinfo⟩ := h.piece k p hp
  unfold PacketMerger.compressionIsLegal
  rw [hidx, hinfo]
  by_cases hzero : k = 0
  · simp [hzero]
  · simp [hzero]

theorem checkPiece (hp : packets[k]? = some p) : checkPiece p = .ok () := by
  obtain ⟨hidx, henvelope, -⟩ := h.piece k p hp
  have htotal := h.totalPieces_eq hp
  have hlt := (List.getElem?_eq_some_iff.mp hp).1
  have hcount := h.count
  have hdescriptor : p.descriptor.isNone = false := by
    have hsome := h.descriptor
    rw [← henvelope] at hsome
    simpa [FragmentEnvelope.fromPacket, Option.isSome_iff_ne_none] using hsome
  unfold PacketMerger.checkPiece
  rw [if_neg (by omega), hdescriptor, h.compressionIsLegal hp, if_neg (by simp), if_neg (by simp),
    if_neg (by omega), if_neg (by omega)]

end IsFamily

/-- The total of a measure over the pieces with the given indices. -/
def sumAt (packets : List RpcPacket) (f : RpcPacket → Nat) (got : Finset Nat) : Nat :=
  ∑ i ∈ got, (packets[i]?).elim 0 f

theorem sumAt_range (packets : List RpcPacket) (f : RpcPacket → Nat) :
    sumAt packets f (Finset.range packets.length) = (packets.map f).sum := by
  unfold sumAt
  induction packets with
  | nil => rfl
  | cons p packets ih =>
    rw [length_cons, Finset.sum_range_succ', map_cons, sum_cons, ← ih]
    simp [Nat.add_comm]

variable {packets : List RpcPacket} {got : Finset Nat}

theorem sumAt_le (f : RpcPacket → Nat)
    (hsubset : got ⊆ Finset.range packets.length) : sumAt packets f got ≤ (packets.map f).sum := by
  rw [← sumAt_range]
  exact Finset.sum_le_sum_of_subset hsubset

variable {p : RpcPacket}

theorem sumAt_insert {k : Nat} (hp : packets[k]? = some p) (f : RpcPacket → Nat) (hnew : k ∉ got) :
    sumAt packets f (insert k got) = f p + sumAt packets f got := by
  unfold sumAt
  rw [Finset.sum_insert hnew, hp]
  rfl

theorem insert_subset_range {k : Nat} (hp : packets[k]? = some p)
    (hsubset : got ⊆ Finset.range packets.length) : insert k got ⊆ Finset.range packets.length := by
  apply Finset.insert_subset
  · exact Finset.mem_range.mpr (List.getElem?_eq_some_iff.mp hp).1
  · exact hsubset

def mergedPacket (packets : List RpcPacket) : Option RpcPacket :=
  (packets[0]?).map fun p =>
    { p with totalPieces := 1, pieceIdx := 0, body := (packets.map (·.body)).flatten }

namespace PacketMerger

variable {packets : List RpcPacket} {envelope : FragmentEnvelope} {info : RpcCompressionInfo}
  {m : PacketMerger} {got : Finset Nat} {k : Nat} {p : RpcPacket}

structure Collected (packets : List RpcPacket) (envelope : FragmentEnvelope)
    (info : RpcCompressionInfo) (m : PacketMerger) (got : Finset Nat) : Prop where
  subset : got ⊆ Finset.range packets.length
  envelope : m.firstEnvelope = some envelope ∨ (m.firstEnvelope = none ∧ got = ∅)
  lookup : ∀ i, m.pieces.lookup i = if i ∈ got then packets[i]? else none
  size : m.pieces.size = got.card
  known : m.compressionInfoKnown = true → m.firstCompressionInfo = some info
  bodyBytes : m.bodyBytes = sumAt packets (·.body.length) got
  retained : m.retainedBytes ≤
    sumAt packets (·.entryBytes) got + if got = ∅ then 0 else RPC_MERGER_ENVELOPE_OVERHEAD

theorem collected_new (now : Nat) : Collected packets envelope info (new now) ∅ where
  subset := Finset.empty_subset _
  envelope := .inr ⟨rfl, rfl⟩
  lookup := by simp [new]
  size := rfl
  known := by simp [new]
  bodyBytes := rfl
  retained := by simp [new]

theorem Collected.pieceFits (h : Collected packets envelope info m got)
    (hfamily : IsFamily packets envelope info) (hp : packets[k]? = some p) (hk : k ∈ got) :
    m.pieceFits envelope k = true := by
  obtain ⟨hidx, henvelope, -⟩ := hfamily.piece k p hp
  unfold PacketMerger.pieceFits
  rw [h.lookup, if_pos hk, hp]
  simp [hidx, henvelope, hfamily.compressionIsLegal hp, hfamily.totalPieces_eq hp, hfamily.nonempty]

theorem Collected.mergedBody (h : Collected packets envelope info m (Finset.range packets.length)) :
    m.mergedBody packets.length = (packets.map (·.body)).flatten := by
  have hmap : (range packets.length).map (fun i => (m.pieces.lookup i).elim [] (·.body)) =
      packets.map (·.body) := by
    refine ext_getElem (by simp) fun i hi _ => ?_
    have hlt : i < packets.length := by simpa using hi
    simp [h.lookup, hlt]
  rw [PacketMerger.mergedBody, flatMap_def, hmap]

section

variable (h : Collected packets envelope info m got) (hfamily : IsFamily packets envelope info)
include h hfamily

theorem Collected.tryMergePieces (henvelope : m.firstEnvelope = some envelope) (hgot : got ≠ ∅) :
    m.tryMergePieces =
      if got = Finset.range packets.length then mergedPacket packets else none := by
  have hcard : got.card ≠ 0 := fun hzero => hgot (Finset.card_eq_zero.mp hzero)
  unfold PacketMerger.tryMergePieces
  rw [henvelope, h.size, Option.bind_eq_bind, Option.bind_some, hfamily.total]
  by_cases hcomplete : got = Finset.range packets.length
  · subst hcomplete
    have hall : (range packets.length).all (m.pieceFits envelope) = true := by
      apply all_eq_true.mpr
      intro i hi
      have hlt : i < packets.length := mem_range.mp hi
      exact h.pieceFits hfamily (getElem?_eq_getElem hlt) (Finset.mem_range.mpr hlt)
    have hfirst : m.pieces.lookup 0 = packets[0]? := by
      rw [h.lookup, if_pos (Finset.mem_range.mpr (hfamily.length_pos))]
    rw [Finset.card_range] at hcard ⊢
    rw [hfirst, h.mergedBody]
    simp only [hcard, hall, if_false, ne_eq, not_true_eq_false, Bool.not_true, Bool.false_eq_true,
      if_true, mergedPacket]
    cases packets[0]? <;> rfl
  · have hmissing : got.card ≠ packets.length := by
      intro hcount
      apply hcomplete
      apply Finset.eq_of_subset_of_card_le h.subset
      rw [Finset.card_range, hcount]
    simp [hcard, hmissing, hcomplete]

/-! ## One piece -/

/-- The envelope and the compression of a further piece of the family are accepted. -/
theorem Collected.check (hp : packets[k]? = some p) :
    ∃ m₁ m₂, m.checkEnvelope p = .ok m₁ ∧ m₁.checkCompression p = .ok m₂ ∧
      m₂.firstEnvelope = some envelope ∧ Collected packets envelope info m₂ got := by
  obtain ⟨hidx, henvelope, hinfo⟩ := hfamily.piece k p hp
  have hfirst : m.checkEnvelope p = .ok { m with firstEnvelope := some envelope } := by
    unfold checkEnvelope
    rcases h.envelope with hsome | ⟨hnone, -⟩
    · rw [hsome]
      simp only [henvelope, ne_eq, not_true_eq_false, if_false]
      rw [← hsome]
    · rw [hnone]
      simp only [henvelope]
  by_cases hzero : k = 0
  · have hinfo' : p.compressionInfo = some info := by simpa [hzero] using hinfo
    have hidx' : p.pieceIdx = 0 := by omega
    have hsame : ¬ (m.compressionInfoKnown && m.firstCompressionInfo ≠ some info) = true := by
      cases hknown : m.compressionInfoKnown with
      | false => simp
      | true => simp [h.known hknown]
    refine ⟨_, { m with
      firstEnvelope := some envelope
      firstCompressionInfo := some info
      compressionInfoKnown := true }, hfirst, ?_, rfl, ?_⟩
    · unfold checkCompression
      simp only [hidx', hinfo', if_true, if_neg hsame]
    · exact ⟨h.subset, .inl rfl, h.lookup, h.size, fun _ => rfl, h.bodyBytes, h.retained⟩
  · refine ⟨_, { m with firstEnvelope := some envelope }, hfirst, ?_, rfl, h.subset, .inl rfl,
      h.lookup, h.size, h.known, h.bodyBytes, h.retained⟩
    unfold checkCompression
    rw [if_neg (by omega)]

theorem Collected.bodyBytes_add_le (hp : packets[k]? = some p) (hnew : k ∉ got) :
    m.bodyBytes + p.body.length ≤ MAX_RPC_BODY_BYTES := by
  have hle := sumAt_le (·.body.length) (insert_subset_range hp h.subset)
  rw [sumAt_insert hp _ hnew, ← h.bodyBytes] at hle
  have hlimit := hfamily.body
  omega

/-- The retained size fits in a word, with the envelope counted for the first piece. -/
theorem Collected.retainedBytes_add (hp : packets[k]? = some p) (hnew : k ∉ got) :
    ∃ retained, (retainedPieceBytes { m with bodyBytes := m.bodyBytes + p.body.length } p).bind
        (checkedAdd 64 m.retainedBytes) = some retained ∧
      retained ≤ p.entryBytes + sumAt packets (·.entryBytes) got +
        RPC_MERGER_ENVELOPE_OVERHEAD := by
  have hle := sumAt_le (·.entryBytes) (insert_subset_range hp h.subset)
  rw [sumAt_insert hp _ hnew] at hle
  have hfits := hfamily.retained
  have hretained := h.retained
  have hsize : m.pieces.size = 0 ↔ got = ∅ := by rw [h.size, Finset.card_eq_zero]
  have hfirst : checkedAdd 64 p.encodedLen RPC_MERGER_MAP_ENTRY_OVERHEAD =
      some p.entryBytes := checkedAdd_of_lt (show p.entryBytes < _ by omega)
  unfold retainedPieceBytes
  by_cases hempty : got = ∅
  · have hzero := hsize.mpr hempty
    rw [if_pos hempty] at hretained
    have hsecond : checkedAdd 64 p.entryBytes RPC_MERGER_ENVELOPE_OVERHEAD =
        some (p.entryBytes + RPC_MERGER_ENVELOPE_OVERHEAD) := checkedAdd_of_lt (by omega)
    refine ⟨m.retainedBytes + (p.entryBytes + RPC_MERGER_ENVELOPE_OVERHEAD), ?_, by omega⟩
    simp only [hfirst, Option.bind_eq_bind, Option.bind_some, hzero, if_true, hsecond]
    exact checkedAdd_of_lt (by omega)
  · have hzero : ¬ m.pieces.size = 0 := fun hzero => hempty (hsize.mp hzero)
    rw [if_neg hempty] at hretained
    refine ⟨m.retainedBytes + p.entryBytes, ?_, by omega⟩
    simp only [hfirst, Option.bind_eq_bind, Option.bind_some, hzero, if_false]
    exact checkedAdd_of_lt (by omega)

section

variable (henvelope : m.firstEnvelope = some envelope) (hp : packets[k]? = some p) (hnew : k ∉ got)
include henvelope hp hnew

theorem Collected.insertPiece {retained : Nat}
    (hretained : retained ≤ p.entryBytes + sumAt packets (·.entryBytes) got +
      RPC_MERGER_ENVELOPE_OVERHEAD) (now : Nat) :
    Collected packets envelope info { m with
      bodyBytes := m.bodyBytes + p.body.length
      retainedBytes := retained
      pieces := m.pieces.insert p.pieceIdx p
      lastUpdated := now } (insert k got) := by
  have hidx := (hfamily.piece k p hp).1
  refine { h with
    subset := insert_subset_range hp h.subset
    envelope := .inl henvelope
    lookup := ?_, size := ?_, bodyBytes := ?_, retained := ?_ }
  · intro i
    rw [hidx]
    by_cases hi : i = k
    · subst hi
      simp [hp]
    · simp only [AList.lookup_insert_ne hi, h.lookup, Finset.mem_insert, hi, false_or]
  · have hnone : m.pieces.lookup p.pieceIdx = none := by rw [h.lookup, hidx, if_neg hnew]
    rw [size_insert_of_none hnone, h.size, Finset.card_insert_of_notMem hnew]
  · rw [sumAt_insert hp _ hnew, ← h.bodyBytes, Nat.add_comm]
  · rw [sumAt_insert hp _ hnew, if_neg (Finset.insert_ne_empty k got)]
    exact hretained

/-- A piece that is not there yet is added, within the limits of the merger. -/
theorem Collected.addPiece (now : Nat) :
    ∃ m', m.addPiece p now =
        (.ok (if insert k got = Finset.range packets.length then mergedPacket packets else none),
          m') ∧
      Collected packets envelope info m' (insert k got) := by
  have hbody := h.bodyBytes_add_le hfamily hp hnew
  have hlimit : MAX_RPC_BODY_BYTES < 2 ^ 64 := by decide
  have hbodyAdd : checkedAdd 64 m.bodyBytes p.body.length = some (m.bodyBytes + p.body.length) :=
    checkedAdd_of_lt (by omega)
  obtain ⟨retained, hpiece, hretained⟩ := h.retainedBytes_add hfamily hp hnew
  have hcollected := h.insertPiece hfamily henvelope hp hnew hretained now
  refine ⟨_, ?_, hcollected⟩
  unfold PacketMerger.addPiece
  rw [hbodyAdd]
  simp only [if_neg (Nat.not_lt.mpr hbody), hpiece,
    hcollected.tryMergePieces hfamily henvelope (Finset.insert_ne_empty k got)]

end

/-- One piece of the family: the merger has its index afterwards, and answers with the packet
exactly when it has all of them. -/
theorem Collected.feed (hp : packets[k]? = some p) (now : Nat) :
    ∃ m', m.feed p now =
        (.ok (if insert k got = Finset.range packets.length then mergedPacket packets else none),
          m') ∧
      Collected packets envelope info m' (insert k got) := by
  obtain ⟨m₁, m₂, hfirst, hsecond, henvelope, h₂⟩ := h.check hfamily hp
  have hidx := (hfamily.piece k p hp).1
  have htotal := hfamily.totalPieces_eq hp
  have hpos := hfamily.length_pos
  have hfragmented : ¬ (p.totalPieces = 0 ∧ p.pieceIdx = 0) := by omega
  unfold PacketMerger.feed
  rw [if_neg hfragmented, hfamily.checkPiece hp]
  simp only [hfirst, hsecond, h₂.lookup, hidx]
  by_cases hk : k ∈ got
  · -- a duplicate
    have hsame : insert k got = got := Finset.insert_eq_of_mem hk
    have hnonempty : got ≠ ∅ := Finset.ne_empty_of_mem hk
    have hcollected : Collected packets envelope info { m₂ with lastUpdated := now } got :=
      ⟨h₂.subset, h₂.envelope, h₂.lookup, h₂.size, h₂.known, h₂.bodyBytes, h₂.retained⟩
    rw [if_pos hk, hp, hsame]
    refine ⟨{ m₂ with lastUpdated := now }, ?_, hcollected⟩
    simp only [ne_eq, not_true_eq_false, or_self, if_false,
      hcollected.tryMergePieces hfamily henvelope hnonempty]
  · rw [if_neg hk]
    exact h₂.addPiece hfamily henvelope hp hk now

end

def feedAll (m : PacketMerger) : List (RpcPacket × Nat) →
    List (Except RpcError (Option RpcPacket)) × PacketMerger
  | [] => ([], m)
  | (packet, now) :: arrivals =>
    let (result, m) := m.feed packet now
    let (results, m) := feedAll m arrivals
    (result :: results, m)

/-- As long as a piece is missing, the answer is that there is no packet yet. -/
theorem Collected.feedAll (h : Collected packets envelope info m got)
    (hfamily : IsFamily packets envelope info) {arrivals : List (RpcPacket × Nat)}
    (hpieces : ∀ arrival ∈ arrivals, arrival.1 ∈ packets) (hmissing : k < packets.length)
    (hgot : k ∉ got) (harrivals : ∀ arrival ∈ arrivals, packets[k]? ≠ some arrival.1) :
    ∃ m' got', m.feedAll arrivals = (replicate arrivals.length (.ok none), m') ∧
      Collected packets envelope info m' got' ∧ k ∉ got' ∧
      (∀ i ∈ got, i ∈ got') ∧
      ∀ i p, packets[i]? = some p → p ∈ arrivals.map Prod.fst → i ∈ got' := by
  induction arrivals generalizing m got with
  | nil => exact ⟨m, got, rfl, h, hgot, fun _ hi => hi, by simp⟩
  | cons arrival arrivals ih =>
    obtain ⟨packet, now⟩ := arrival
    obtain ⟨j, hj⟩ := mem_iff_getElem?.mp (hpieces (packet, now) mem_cons_self)
    have hother : k ≠ j := by
      rintro rfl
      exact harrivals (packet, now) mem_cons_self hj
    obtain ⟨m₁, hfeed, h₁⟩ := h.feed hfamily hj now
    have hgot₁ : k ∉ insert j got := by
      rw [Finset.mem_insert]
      rintro (hkj | hk)
      · exact hother hkj
      · exact hgot hk
    have hincomplete : insert j got ≠ Finset.range packets.length := by
      intro hall
      exact hgot₁ (hall ▸ Finset.mem_range.mpr hmissing)
    rw [if_neg hincomplete] at hfeed
    obtain ⟨m', got', hrest, h', hk', hkept, hfed⟩ := ih h₁
      (fun arrival harrival => hpieces arrival (mem_cons_of_mem _ harrival)) hgot₁
      (fun arrival harrival => harrivals arrival (mem_cons_of_mem _ harrival))
    refine ⟨m', got', ?_, h', hk', ?_, ?_⟩
    · simp only [feedAll, hfeed, hrest, length_cons, replicate_succ]
    · intro i hi
      exact hkept i (Finset.mem_insert_of_mem hi)
    · intro i p hi hp
      rcases mem_cons.mp hp with rfl | hp
      · -- two indices of one piece are equal
        have hij : i = j := by
          rw [← (hfamily.piece i _ hi).1, ← (hfamily.piece j _ hj).1]
        rw [hij]
        exact hkept j (Finset.mem_insert_self j got)
      · exact hfed i p hi hp

end PacketMerger

/-! ## The round trip -/

variable (args : BuildRpcPacketArgs) (plan : List (Nat × Nat))

section Plan

variable {args : BuildRpcPacketArgs} {plan : List (Nat × Nat)}

def plannedPackets (args : BuildRpcPacketArgs) (plan : List (Nat × Nat)) : List RpcPacket :=
  plan.zipIdx.map (plannedPacket args plan)

@[simp] theorem length_plannedPackets : (plannedPackets args plan).length = plan.length := by
  simp [plannedPackets]

theorem exists_of_getElem?_plannedPackets {i : Nat} (hp : (plannedPackets args plan)[i]? = some p) :
    ∃ piece, plan[i]? = some piece ∧ p = plannedPacket args plan (piece, i) := by
  rw [plannedPackets, getElem?_map, getElem?_zipIdx, Nat.zero_add, Option.map_map] at hp
  obtain ⟨piece, hpiece, hp⟩ := Option.map_eq_some_iff.mp hp
  exact ⟨piece, hpiece, hp.symm⟩

theorem map_body_plannedPackets :
    (plannedPackets args plan).map (·.body) = plan.map (pieceBody args.content) := by
  have hcomp : (fun p : RpcPacket => p.body) ∘ plannedPacket args plan =
      pieceBody args.content ∘ Prod.fst := rfl
  rw [plannedPackets, map_map, hcomp, ← map_map, zipIdx_map_fst]

def plannedEnvelope (args : BuildRpcPacketArgs) (plan : List (Nat × Nat)) : FragmentEnvelope :=
  .fromPacket (buildRpcPiece args plan.length 0 [])

theorem isFamily_plannedPackets (hplan : Consecutive plan 0 args.content.length)
    (hnonempty : plan ≠ []) (hcount : plan.length ≤ MAX_RPC_PIECES)
    (hcontent : args.content.length ≤ MAX_RPC_BODY_BYTES)
    (hdescriptor : args.rpcDesc.encodedLen < 2 ^ 48) :
    IsFamily (plannedPackets args plan) (plannedEnvelope args plan) args.compressionInfo where
  piece := by
    intro i p hp
    obtain ⟨piece, -, rfl⟩ := exists_of_getElem?_plannedPackets hp
    exact ⟨rfl, rfl, rfl⟩
  total := by simp [plannedEnvelope, FragmentEnvelope.fromPacket, buildRpcPiece]
  descriptor := rfl
  nonempty := by simpa [plannedPackets] using hnonempty
  count := by simpa using hcount
  body := by
    have hlength : ((plannedPackets args plan).map (·.body.length)).sum =
        ((plannedPackets args plan).map (·.body)).flatten.length := by
      rw [length_flatten, map_map]
      rfl
    rw [hlength, map_body_plannedPackets, hplan.flatten, drop_zero]
    exact hcontent
  retained := by
    have hlimits : MAX_RPC_BODY_BYTES = 262144 ∧ MAX_RPC_PIECES = 1024 ∧
        RPC_MERGER_MAP_ENTRY_OVERHEAD = 64 ∧ RPC_MERGER_ENVELOPE_OVERHEAD = 128 := by decide
    have hbound : ∀ size ∈ (plannedPackets args plan).map (·.entryBytes), size ≤ 2 ^ 49 := by
      intro size hsize
      obtain ⟨p, hp, rfl⟩ := mem_map.mp hsize
      obtain ⟨i, hi⟩ := mem_iff_getElem?.mp hp
      obtain ⟨piece, hpiece, rfl⟩ := exists_of_getElem?_plannedPackets hi
      have hlt := (List.getElem?_eq_some_iff.mp hpiece).1
      have hbody : (pieceBody args.content piece).length ≤ args.content.length := by
        unfold pieceBody
        rw [length_take, length_drop]
        omega
      have hle := encodedLen_buildRpcPiece_le args (show plan.length < 2 ^ 64 by omega)
        (show i < 2 ^ 64 by omega) (show args.rpcDesc.encodedLen < 2 ^ 64 by omega)
        (show (pieceBody args.content piece).length < 2 ^ 64 by omega)
      have hencoded : (plannedPacket args plan (piece, i)).encodedLen ≤
          args.rpcDesc.encodedLen + (pieceBody args.content piece).length + 256 := hle
      unfold RpcPacket.entryBytes
      omega
    have hsum := sum_le_card_nsmul _ _ hbound
    rw [length_map, length_plannedPackets, smul_eq_mul] at hsum
    omega

end Plan

/-- The packet has the content and the metadata of the arguments. -/
structure Restores (args : BuildRpcPacketArgs) (p : RpcPacket) : Prop where
  body : p.body = args.content
  compressionInfo : p.compressionInfo = some args.compressionInfo
  fromPeer : p.fromPeer = args.fromPeer
  toPeer : p.toPeer = args.toPeer
  transactionId : p.transactionId = args.transactionId
  descriptor : p.descriptor = some args.rpcDesc
  isRequest : p.isRequest = args.isReq

theorem mergedPacket_restores {args : BuildRpcPacketArgs} {plan : List (Nat × Nat)}
    (hplan : Consecutive plan 0 args.content.length) (hnonempty : plan ≠ []) :
    ∃ p, mergedPacket (plannedPackets args plan) = some p ∧ Restores args p := by
  obtain ⟨piece, pieces, rfl⟩ := exists_cons_of_ne_nil hnonempty
  refine ⟨_, rfl, ?_, rfl, rfl, rfl, rfl, rfl, rfl⟩
  rw [map_body_plannedPackets, hplan.flatten, drop_zero]

/-- The content is cut into consecutive pieces, each within the budget if its metadata leaves
room for a byte, and the pieces in any order, with duplicates, give the packet back when the
last missing one arrives and nothing before.  The descriptor lies in a 48-bit address
space. -/
theorem rpc_fragmentation_round_trips (args : BuildRpcPacketArgs)
    (hcontent : args.content.length ≤ MAX_RPC_BODY_BYTES)
    (hdescriptor : args.rpcDesc.encodedLen < 2 ^ 48) :
    ∃ plan, splitRpcContentForRecordBudget args = some plan ∧
      Consecutive plan 0 args.content.length ∧
      (plan.length ≤ MAX_RPC_PIECES →
        ∃ packets, rpcPieces args plan = some packets ∧
          (∀ p ∈ packets, p.metadataLen + 3 ≤ maxRpcPacketEncodedLen →
            p.encodedLen ≤ maxRpcPacketEncodedLen) ∧
          ∀ (created : Nat) (arrivals : List (RpcPacket × Nat)) (last : RpcPacket) (now : Nat),
            (∀ arrival ∈ arrivals, arrival.1 ∈ packets) → last ∈ packets →
            last ∉ arrivals.map Prod.fst →
            (∀ p ∈ packets, p ∈ arrivals.map Prod.fst ∨ p = last) →
            ∃ m p m', (new created).feedAll arrivals =
                (List.replicate arrivals.length (.ok none), m) ∧
              m.feed last now = (.ok (some p), m') ∧ Restores args p) := by
  obtain ⟨plan, hsplit, hnonempty, hplan, hfits⟩ := splitRpcContentForRecordBudget_plan args
  refine ⟨plan, hsplit, hplan, ?_⟩
  intro hcount
  refine ⟨plannedPackets args plan, rpcPieces_eq hplan hcount, ?_, ?_⟩
  · intro p hp hmetadata
    exact plannedPacket_encodedLen_le hcount hfits hp hmetadata
  · intro created arrivals last now hpieces hlast hmissing hall
    have hfamily := isFamily_plannedPackets hplan hnonempty hcount hcontent hdescriptor
    obtain ⟨k, hk⟩ := mem_iff_getElem?.mp hlast
    have hlt := (List.getElem?_eq_some_iff.mp hk).1
    have hnot : ∀ arrival ∈ arrivals, (plannedPackets args plan)[k]? ≠ some arrival.1 := by
      intro arrival harrival hsome
      rw [hk] at hsome
      apply hmissing
      rw [Option.some.inj hsome]
      exact mem_map_of_mem harrival
    obtain ⟨m, got, hfeedAll, hcollected, -, -, hfed⟩ :=
      (collected_new created).feedAll hfamily hpieces hlt (by simp) hnot
    -- with the last piece nothing is missing
    have hcomplete : insert k got = Finset.range (plannedPackets args plan).length := by
      apply Finset.Subset.antisymm
      · exact insert_subset_range hk hcollected.subset
      · intro i hi
        have hget := getElem?_eq_getElem (Finset.mem_range.mp hi)
        rcases hall _ (mem_of_getElem? hget) with harrived | heq
        · exact Finset.mem_insert_of_mem (hfed i _ hget harrived)
        · have hik : i = k := by
            rw [← (hfamily.piece i _ hget).1, ← (hfamily.piece k _ hk).1, heq]
          rw [hik]
          exact Finset.mem_insert_self k got
    obtain ⟨m', hfeed, -⟩ := hcollected.feed hfamily hk now
    obtain ⟨p, hp, hrestores⟩ := mergedPacket_restores hplan hnonempty
    rw [if_pos hcomplete, hp] at hfeed
    exact ⟨m, p, m', hfeedAll, hfeed, hrestores⟩

def sampleArgs : BuildRpcPacketArgs where
  fromPeer := 1
  toPeer := 2
  rpcDesc := ⟨"net", "DirectConnectorRpc", "DirectConnectorRpc", 1⟩
  transactionId := 77
  isReq := true
  content := replicate 1300 5
  traceId := 9
  compressionInfo := ⟨COMPRESSION_NONE, COMPRESSION_NONE⟩

/-- It is cut in two; the second piece comes twice before the first. -/
theorem rpc_fragmentation_round_trips_two_pieces :
    ∃ plan first second, splitRpcContentForRecordBudget sampleArgs = some plan ∧
      rpcPieces sampleArgs plan = some [first, second] ∧
      ∃ m p m', (new 0).feedAll [(second, 1), (second, 2)] =
          ([.ok none, .ok none], m) ∧
        m.feed first 3 = (.ok (some p), m') ∧ Restores sampleArgs p := by
  have hplan : splitRpcContentForRecordBudget sampleArgs = some [(0, 1164), (1164, 136)] := by
    decide +kernel
  obtain ⟨plan, hsplit, hconsecutive, hpackets⟩ :=
    rpc_fragmentation_round_trips sampleArgs (by decide +kernel) (by decide +kernel)
  obtain rfl : plan = [(0, 1164), (1164, 136)] := Option.some.inj (hsplit.symm.trans hplan)
  obtain ⟨packets, hpieces, -, hmerge⟩ := hpackets (by decide)
  obtain rfl : packets = plannedPackets sampleArgs [(0, 1164), (1164, 136)] :=
    Option.some.inj (hpieces.symm.trans (rpcPieces_eq hconsecutive (by decide)))
  refine ⟨_, plannedPacket sampleArgs [(0, 1164), (1164, 136)] ((0, 1164), 0),
    plannedPacket sampleArgs [(0, 1164), (1164, 136)] ((1164, 136), 1), hsplit, hpieces, ?_⟩
  apply hmerge 0 [(_, 1), (_, 2)]
  · simp [plannedPackets]
  · simp [plannedPackets]
  · simp [plannedPacket, buildRpcPiece]
  · simp [plannedPackets]

end LowerTier.Proto.Rpc
