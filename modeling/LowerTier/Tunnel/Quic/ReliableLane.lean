import LowerTier.Tunnel.Quic.Capsule

/-!
# What the reliable lane delivers, and when

The lane runs the decoder once for each chunk, and the decoder returns at most one batch.
A chunk that completes more packets than a batch holds leaves the others in the buffer
until more data arrives; short of that, every packet is delivered with the chunk that
completes it.
-/

namespace LowerTier.Tunnel.Quic

open Nat Except Option List ProofSupport.ByteString

/-- A capsule of a sender: a packet that `encode_packet_capsule` accepts, or anything of
another type that the wire format can hold. -/
inductive Capsule where
  | packet (packet : ZCPacket) (bytes : Bytes)
      (haccepted : encodePacketCapsule packet = some (.ok bytes))
  | other (capsuleType : Nat) (payload : Bytes) (htype : capsuleType < 2 ^ 62)
      (hother : capsuleType ≠ LOWTIER_PACKET_CAPSULE_TYPE) (hlength : payload.length < 2 ^ 62)

variable (c : Capsule)

namespace Capsule

def encode : Capsule → Bytes
  | packet _ bytes _ => bytes
  | other capsuleType payload _ _ _ =>
    putQuicVarint capsuleType ++ putQuicVarint payload.length ++ payload

def packet? : Capsule → Option ZCPacket
  | packet p _ _ => some p
  | other _ _ _ _ _ => none

/-- The packets whose capsules lie completely inside the first `received` bytes. -/
def completePackets : List Capsule → Nat → List ZCPacket
  | [], _ => []
  | c :: rest, received =>
    if c.encode.length ≤ received then
      c.packet?.toList ++ completePackets rest (received - c.encode.length)
    else
      []

/-- The lane takes a capsule of any type only up to this size. -/
def Fits : Capsule → Prop
  | packet _ _ _ => True
  | other _ payload _ _ _ => payload.length ≤ QUIC_RELIABLE_MAX_PACKET_SIZE

def capsuleType : Capsule → Nat
  | packet _ _ _ => LOWTIER_PACKET_CAPSULE_TYPE
  | other capsuleType _ _ _ _ => capsuleType

def body : Capsule → Bytes
  | packet p _ _ => p.tunnelPayload.getD []
  | other _ payload _ _ _ => payload

def header (c : Capsule) : Bytes := putQuicVarint c.capsuleType ++ putQuicVarint c.body.length

theorem accepted_body {packet : ZCPacket} {bytes : Bytes}
    (haccepted : encodePacketCapsule packet = some (.ok bytes)) :
    ∃ body, packet.tunnelPayload = some body ∧ PEER_MANAGER_HEADER_SIZE ≤ body.length ∧
      body.length ≤ QUIC_RELIABLE_MAX_PACKET_SIZE ∧
      bytes = putQuicVarint LOWTIER_PACKET_CAPSULE_TYPE ++ putQuicVarint body.length ++ body := by
  unfold encodePacketCapsule at haccepted
  cases hbody : packet.tunnelPayload with
  | none => simp [hbody] at haccepted
  | some body =>
    simp only [hbody, bind_eq_bind, bind_some] at haccepted
    split at haccepted
    · simp at haccepted
    · next hlength =>
      have hbytes := ok.inj (some.inj haccepted)
      exact ⟨body, rfl, by omega, by omega, hbytes.symm⟩

theorem encode_eq : c.encode = c.header ++ c.body := by
  cases c with
  | packet packet bytes haccepted =>
    obtain ⟨payload, hpayload, -, -, hbytes⟩ := accepted_body haccepted
    simp [encode, header, body, capsuleType, hpayload, hbytes]
  | other => rfl

theorem capsuleType_lt : c.capsuleType < 2 ^ 62 := by
  cases c with
  | packet => simp [capsuleType, LOWTIER_PACKET_CAPSULE_TYPE]
  | other _ _ htype => exact htype

theorem fits_iff : c.Fits ↔ c.body.length ≤ QUIC_RELIABLE_MAX_PACKET_SIZE := by
  cases c with
  | packet packet bytes haccepted =>
    obtain ⟨payload, hpayload, -, hle, -⟩ := accepted_body haccepted
    simp [Fits, body, hpayload, hle]
  | other => rfl

theorem body_length_lt : c.body.length < 2 ^ 62 := by
  cases c with
  | packet packet bytes haccepted =>
    obtain ⟨payload, hpayload, -, hle, -⟩ := accepted_body haccepted
    simp only [body, hpayload, getD_some, QUIC_RELIABLE_MAX_PACKET_SIZE] at hle ⊢
    omega
  | other _ _ _ _ hlength => exact hlength

end Capsule

/-! ## Reading one capsule -/

/-- A varint that is cut off is not read, and one that is not is read as before. -/
theorem decodeQuicVarint_take {bytes : Bytes} {value width : Nat}
    (h : decodeQuicVarint bytes = some (value, width)) (n : Nat) :
    decodeQuicVarint (bytes.take n) = if width ≤ n then some (value, width) else none := by
  cases bytes with
  | nil => simp [decodeQuicVarint] at h
  | cons first rest =>
    simp only [decodeQuicVarint] at h
    split at h
    · contradiction
    next hlong =>
    obtain ⟨hvalue, hwidth⟩ := Prod.mk.inj (some.inj h)
    have hpos : 0 < width := by
      rw [← hwidth, one_shiftLeft]
      exact Nat.two_pow_pos _
    rw [hwidth] at hlong hvalue
    cases n with
    | zero => simp [decodeQuicVarint, not_le.mpr hpos]
    | succ n =>
      simp only [take_succ_cons, decodeQuicVarint, hwidth]
      by_cases hn : width ≤ n + 1
      · rw [if_neg, if_pos hn, take_take, min_eq_left (by omega), hvalue]
        simp only [length_cons, length_take] at hlong ⊢
        omega
      · rw [if_pos, if_neg hn]
        simp only [length_cons, length_take] at hlong ⊢
        omega

variable {capsules : List Capsule} {n : Nat} {batch : List ZCPacket}

namespace Capsule

/-- What the decoder makes of the first bytes of a stream that starts with the capsule. -/
theorem readCapsule_take (rest : Bytes) (hn : n ≤ (c.encode ++ rest).length) :
    readCapsule ((c.encode ++ rest).take n) = if n < c.header.length then
        .ok .incomplete
      else if ¬ c.body.length ≤ QUIC_RELIABLE_MAX_PACKET_SIZE then
        .error "CONNECT-IP capsule exceeds the packet limit"
      else if n < c.encode.length then
        .ok .incomplete
      else
        .ok (.capsule c.capsuleType c.body (rest.take (n - c.encode.length))) := by
  generalize htype : putQuicVarint c.capsuleType = typeBytes
  generalize hlength : putQuicVarint c.body.length = lengthBytes
  have hheader : c.header = typeBytes ++ lengthBytes := by rw [header, htype, hlength]
  have hcut : c.header.length = typeBytes.length + lengthBytes.length := by
    rw [hheader, length_append]
  have hstream : c.encode ++ rest = typeBytes ++ (lengthBytes ++ (c.body ++ rest)) := by
    rw [encode_eq, hheader]
    simp
  have hfirst := decodeQuicVarint_putQuicVarint c.capsuleType_lt (lengthBytes ++ (c.body ++ rest))
  have hsecond := decodeQuicVarint_putQuicVarint c.body_length_lt (c.body ++ rest)
  rw [htype] at hfirst
  rw [hlength] at hsecond
  have hencode : c.encode.length = typeBytes.length + lengthBytes.length + c.body.length := by
    rw [encode_eq, length_append, hcut]
  unfold readCapsule
  rw [hstream, decodeQuicVarint_take hfirst]
  by_cases htypeRead : typeBytes.length ≤ n
  · have hdrop : ((typeBytes ++ (lengthBytes ++ (c.body ++ rest))).take n).drop typeBytes.length =
        (lengthBytes ++ (c.body ++ rest)).take (n - typeBytes.length) := by
      rw [drop_take, drop_left]
    simp only [if_pos htypeRead, hdrop, decodeQuicVarint_take hsecond]
    by_cases hlengthRead : lengthBytes.length ≤ n - typeBytes.length
    · have hheaderRead : ¬ n < c.header.length := by omega
      simp only [if_pos hlengthRead, if_neg hheaderRead, not_le]
      by_cases hfits : QUIC_RELIABLE_MAX_PACKET_SIZE < c.body.length
      · rw [if_pos hfits, if_pos hfits]
      have htaken : ((typeBytes ++ (lengthBytes ++ (c.body ++ rest))).take n).length = n := by
        rw [length_take, ← hstream]
        exact min_eq_left hn
      rw [if_neg hfits, if_neg hfits, htaken, ← hencode]
      by_cases hcomplete : n < c.encode.length
      · rw [if_pos hcomplete, if_pos hcomplete]
      have hbody : ((((typeBytes ++ (lengthBytes ++ (c.body ++ rest))).take n).drop
          (typeBytes.length + lengthBytes.length)).take c.body.length) = c.body := by
        rw [← append_assoc, ← length_append, drop_take, drop_left,
          take_take, Nat.min_eq_left (by rw [length_append]; omega), take_left]
      have hrest : ((typeBytes ++ (lengthBytes ++ (c.body ++ rest))).take n).drop
          c.encode.length = rest.take (n - c.encode.length) := by
        rw [← hstream, drop_take, drop_left]
      rw [hbody, hrest]
    · have hheaderCut : n < c.header.length := by omega
      simp only [if_neg hlengthRead, if_pos hheaderCut]
  · have hheaderCut : n < c.header.length := by omega
    simp only [if_neg htypeRead, if_pos hheaderCut]

/-! ## One run of the decoder -/

def stream (capsules : List Capsule) : Bytes := capsules.flatMap encode

def received (c : Capsule) : Option ZCPacket :=
  c.packet?.map fun _ => ZCPacket.newFromBuf c.body .dummyTunnel

@[simp] theorem stream_cons :
    stream (c :: capsules) = c.encode ++ stream capsules := rfl

@[simp] theorem stream_append (front back : List Capsule) :
    stream (front ++ back) = stream front ++ stream back := flatMap_append

theorem header_length_le : c.header.length ≤ c.encode.length := by
  rw [encode_eq, length_append]
  exact le_add_right _ _

theorem putQuicVarint_length_pos (value : Nat) : 0 < (putQuicVarint value).length := by
  unfold putQuicVarint
  split
  · exact one_pos
  split
  · simp
  split <;> simp

theorem header_length_pos : 0 < c.header.length := by
  rw [header, length_append]
  exact Nat.add_pos_left (putQuicVarint_length_pos _) _

theorem encode_length_pos : 0 < c.encode.length :=
  lt_of_lt_of_le c.header_length_pos c.header_length_le

/-- No packet can be taken from the first `n` bytes of the capsules, and no capsule that
is too large has come into sight. -/
def Starved (capsules : List Capsule) (n : Nat) : Prop :=
  ∀ c rest, capsules = c :: rest →
    n < c.encode.length ∧ (¬ c.Fits → n < c.header.length)

/-- What the decoder does with the first `n` bytes of a stream. -/
inductive Decodes (capsules : List Capsule) (n : Nat) (batch : List ZCPacket) :
    Option (Except String (List ZCPacket) × Bytes) → Prop where
  | batch (taken rest : List Capsule) (hsplit : capsules = taken ++ rest)
      (hfits : ∀ c ∈ taken, c.Fits) (hlength : (stream taken).length ≤ n)
      (hbatch : batch.length + (taken.filterMap received).length ≤ MAX_PACKET_BATCH_SIZE)
      (hstop : batch.length + (taken.filterMap received).length = MAX_PACKET_BATCH_SIZE ∨
        Starved rest (n - (stream taken).length)) :
      Decodes capsules n batch (some (.ok (batch ++ taken.filterMap received),
        (stream rest).take (n - (stream taken).length)))
  | tooLarge (c : Capsule) (hmem : c ∈ capsules) (hlarge : ¬ c.Fits) (error : String)
      (buffer : Bytes) : Decodes capsules n batch (some (.error error, buffer))

theorem Decodes.cons {c : Capsule}
    {batch batch' : List ZCPacket} {result : Option (Except String (List ZCPacket) × Bytes)}
    (h : Decodes capsules (n - c.encode.length) batch' result)
    (hbatch : batch' = batch ++ c.received.toList) (hfits : c.Fits)
    (hlength : c.encode.length ≤ n) : Decodes (c :: capsules) n batch result := by
  have hreceived : ∀ taken, (c :: taken).filterMap received =
      c.received.toList ++ taken.filterMap received := by
    cases hc : c.received <;> simp [hc]
  cases h with
  | batch taken rest hsplit hall hle hcount hstop =>
    have hsum : (stream (c :: taken)).length = c.encode.length + (stream taken).length := by
      simp
    have hsub : n - c.encode.length - (stream taken).length =
        n - (stream (c :: taken)).length := by omega
    have htaken : batch ++ (c :: taken).filterMap received =
        batch' ++ taken.filterMap received := by
      rw [hreceived, ← append_assoc, ← hbatch]
    have hcounts : batch.length + ((c :: taken).filterMap received).length =
        batch'.length + (taken.filterMap received).length := by
      rw [← length_append, htaken, length_append]
    rw [← htaken, hsub]
    refine .batch (c :: taken) rest (by rw [hsplit]; rfl) (by simpa using ⟨hfits, hall⟩)
      (by omega) (hcounts ▸ hcount) ?_
    rw [hcounts, ← hsub]
    exact hstop
  | tooLarge large hmem hlarge error buffer =>
    exact .tooLarge large (mem_cons_of_mem _ hmem) hlarge error buffer

theorem Decodes.nothing (hbatch : batch.length ≤ MAX_PACKET_BATCH_SIZE)
    (hstop : batch.length = MAX_PACKET_BATCH_SIZE ∨ Starved capsules n) :
    Decodes capsules n batch (some (.ok batch, (stream capsules).take n)) := by
  have h : Decodes capsules n batch _ := .batch [] capsules rfl (by simp) (zero_le _)
    (by simpa using hbatch) (by simpa [stream] using hstop)
  simpa [stream] using h

theorem starved_cons {c : Capsule} (hcut : n < c.encode.length)
    (hlarge : ¬ c.Fits → n < c.header.length) : Starved (c :: capsules) n := by
  rintro first rest heq
  cases heq
  exact ⟨hcut, hlarge⟩

theorem decodeLoop_stream {n fuel : Nat} (hn : n ≤ (stream capsules).length) (hfuel : n < fuel)
    (hbatch : batch.length ≤ MAX_PACKET_BATCH_SIZE) :
    Decodes capsules n batch (decodeLoop fuel ((stream capsules).take n) batch) := by
  induction capsules generalizing n fuel batch with
  | nil =>
    obtain ⟨fuel, rfl⟩ := exists_eq_succ_of_ne_zero (ne_zero_of_lt hfuel)
    have hread : readCapsule ((stream []).take n) = .ok .incomplete := by
      simp [stream, readCapsule, decodeQuicVarint]
    simp only [decodeLoop, hread]
    split
    · next hfull => exact .nothing hbatch (.inl (le_antisymm hbatch hfull))
    · exact .nothing hbatch (.inr (by simp [Starved]))
  | cons c capsules ih =>
    obtain ⟨fuel, rfl⟩ := exists_eq_succ_of_ne_zero (ne_zero_of_lt hfuel)
    rw [decodeLoop]
    split
    · next hfull => exact .nothing hbatch (.inl (le_antisymm hbatch hfull))
    next hroom =>
    rw [stream_cons, c.readCapsule_take (stream capsules) hn]
    have hheader := c.header_length_le
    by_cases hcut : n < c.header.length
    · rw [if_pos hcut]
      exact .nothing hbatch (.inr (starved_cons (by omega) fun _ => hcut))
    rw [if_neg hcut]
    by_cases hfits : c.body.length ≤ QUIC_RELIABLE_MAX_PACKET_SIZE
    · have hcfits : c.Fits := c.fits_iff.mpr hfits
      rw [if_neg (not_not.mpr hfits)]
      by_cases hcomplete : n < c.encode.length
      · rw [if_pos hcomplete]
        exact .nothing hbatch (.inr (starved_cons hcomplete fun hlarge => absurd hcfits hlarge))
      rw [if_neg hcomplete]
      have hpos := c.header_length_pos
      have hn' : n - c.encode.length ≤ (stream capsules).length := by
        rw [stream_cons, length_append] at hn
        omega
      cases c with
      | packet p bytes haccepted =>
        obtain ⟨payload, hpayload, hshort, -, -⟩ := accepted_body haccepted
        have hbody : (packet p bytes haccepted).body = payload := by
          simp [body, hpayload]
        simp only [capsuleType, hbody, ne_eq, not_true_eq_false, if_false,
          if_neg (not_lt.mpr hshort)]
        refine Decodes.cons (ih hn' (by omega) (by simp; omega)) ?_ hcfits (by omega)
        simp [received, packet?, hbody]
      | other capsuleType payload htype hother hlength =>
        simp only [Capsule.capsuleType, ne_eq, hother, not_false_eq_true, if_true]
        refine Decodes.cons (ih hn' (by omega) hbatch) ?_ hcfits (by omega)
        simp [received, packet?]
    · rw [if_pos hfits]
      exact .tooLarge c (by simp) (fun h => hfits (c.fits_iff.mp h)) _ _

/-! ## Complete packets -/

theorem completePackets_append {taken : List Capsule} (rest : List Capsule)
    (hlength : (stream taken).length ≤ n) :
    completePackets (taken ++ rest) n =
      taken.filterMap packet? ++ completePackets rest (n - (stream taken).length) := by
  induction taken generalizing n with
  | nil => simp [stream]
  | cons c taken ih =>
    rw [stream_cons, length_append] at hlength
    rw [cons_append, completePackets, if_pos (by omega), ih (by omega), stream_cons,
      length_append, sub_add_eq, ← append_assoc]
    cases hc : c.packet? <;> simp [hc]

theorem Starved.completePackets (h : Starved capsules n) : completePackets capsules n = [] := by
  cases capsules with
  | nil => rfl
  | cons c rest => rw [Capsule.completePackets, if_neg (not_le.mpr (h c rest rfl).1)]

theorem length_filterMap_received (capsules : List Capsule) :
    (capsules.filterMap received).length = (capsules.filterMap packet?).length := by
  induction capsules with
  | nil => rfl
  | cons c capsules ih => cases hc : c.packet? <;> simp [received, hc, ih]

theorem tunnelPayload_received :
    (capsules.filterMap received).map (·.tunnelPayload) =
      (capsules.filterMap packet?).map (·.tunnelPayload) := by
  rw [map_filterMap, map_filterMap]
  refine filterMap_congr fun c _ => ?_
  cases c with
  | other => rfl
  | packet p bytes haccepted =>
    obtain ⟨payload, hpayload, -⟩ := accepted_body haccepted
    have hbody : (packet p bytes haccepted).body = payload := by simp [body, hpayload]
    rw [received, hbody]
    simp [packet?, ZCPacket.tunnelPayload_newFromBuf, hpayload]

end Capsule

namespace ReliableLane

open Capsule

/-- The lane has taken some capsules out of the first `n` bytes of the stream. -/
structure Follows (capsules : List Capsule) (n : Nat) (lane : ReliableLane)
    (taken rest : List Capsule) : Prop where
  split : capsules = taken ++ rest
  fits : ∀ c ∈ taken, c.Fits
  length_le : (stream taken).length ≤ n
  delivered : lane.delivered = taken.filterMap received
  buffer : lane.buffer = (stream rest).take (n - (stream taken).length)

variable {lane : ReliableLane}

variable {data : Bytes}

theorem Follows.buffer_append {capsules taken rest : List Capsule}
    (h : Follows capsules n lane taken rest)
    (hdata : (stream capsules).take (n + data.length) = (stream capsules).take n ++ data) :
    lane.buffer ++ data = (stream rest).take (n + data.length - (stream taken).length) := by
  have hle := h.length_le
  have hstream : stream capsules = stream taken ++ stream rest := by
    rw [h.split]
    simp [stream]
  have hdrop := congrArg (drop (stream taken).length) hdata
  rw [hstream, drop_take, drop_left, take_append, take_of_length_le hle,
    append_assoc, drop_left] at hdrop
  rw [h.buffer, ← hdrop]

theorem Follows.receive {capsules taken rest : List Capsule}
    (h : Follows capsules n lane taken rest) (hn : n + data.length ≤ (stream capsules).length)
    (hdata : (stream capsules).take (n + data.length) = (stream capsules).take n ++ data)
    (hlimit : lane.buffer.length + data.length ≤ RECEIVE_BUFFER_LIMIT) :
    (∃ more rest' next, rest = more ++ rest' ∧ lane.receive data = some (.ok next) ∧
      Follows capsules (n + data.length) next (taken ++ more) rest' ∧
      next.delivered = lane.delivered ++ more.filterMap received ∧
      (more.filterMap received).length ≤ MAX_PACKET_BATCH_SIZE ∧
      ((more.filterMap received).length = MAX_PACKET_BATCH_SIZE ∨
        Starved rest' (n + data.length - (stream (taken ++ more)).length))) ∨
    (∃ c ∈ rest, ¬ c.Fits) ∧ ∃ error, lane.receive data = some (.error error) := by
  have hbuffer := h.buffer_append hdata
  have hle := h.length_le
  have htotal : (stream capsules).length = (stream taken).length + (stream rest).length := by
    rw [h.split]
    simp [stream]
  have hwhole : n + data.length - (stream taken).length ≤ (stream rest).length := by omega
  have hlength : (lane.buffer ++ data).length = n + data.length - (stream taken).length := by
    rw [hbuffer, length_take, min_eq_left hwhole]
  have hdecodes : Decodes rest _ [] _ := decodeLoop_stream hwhole (lt_succ_self _) (zero_le _)
  rw [← hbuffer, ← hlength] at hdecodes
  unfold ReliableLane.receive
  rw [if_neg (not_lt.mpr hlimit), decodePacketCapsules]
  generalize decodeLoop ((lane.buffer ++ data).length + 1) (lane.buffer ++ data) [] = result
    at hdecodes ⊢
  cases hdecodes with
  | batch more rest' hsplit hfits hmore hcount hstop =>
    have hstream : (stream (taken ++ more)).length =
        (stream taken).length + (stream more).length := by simp
    have hsub : (lane.buffer ++ data).length - (stream more).length =
        n + data.length - (stream (taken ++ more)).length := by omega
    refine .inl ⟨more, rest', ⟨lane.delivered ++ more.filterMap received, _⟩, hsplit, rfl,
      ⟨?_, ?_, ?_, ?_, ?_⟩, rfl, by simpa using hcount, ?_⟩
    · rw [h.split, hsplit, append_assoc]
    · intro c hc
      rcases mem_append.mp hc with hc | hc
      · exact h.fits c hc
      · exact hfits c hc
    · omega
    · rw [h.delivered, filterMap_append]
    · rw [hsub]
    · rw [← hsub]
      simpa using hstop
  | tooLarge c hmem hlarge error buffer => exact .inr ⟨⟨c, hmem, hlarge⟩, error, rfl⟩

theorem receiveAll_append (lane : ReliableLane) (chunks : List Bytes) (data : Bytes) :
    lane.receiveAll (chunks ++ [data]) = match lane.receiveAll chunks with
      | some (.ok next) => next.receive data
      | failed => failed := by
  induction chunks generalizing lane with
  | nil =>
    simp only [nil_append, receiveAll]
    split
    · next h => rw [h]
    · rfl
  | cons first chunks ih =>
    simp only [cons_append, receiveAll]
    cases hfirst : lane.receive first with
    | none => rfl
    | some result =>
      cases result with
      | error error => rfl
      | ok next => exact ih next

/-! ## Promptness -/

/-- After each chunk, the packets delivered so far are those whose capsules lie completely
inside the bytes received so far. -/
def Prompt (capsules : List Capsule) (chunks : List Bytes) : Prop :=
  ∀ i ≤ chunks.length, ∃ lane, new.receiveAll (chunks.take i) = some (.ok lane) ∧
    lane.delivered.map (·.tunnelPayload) =
      (completePackets capsules (chunks.take i).flatten.length).map (·.tunnelPayload)

/-- The chunks keep the buffer of the lane within its limit. -/
def WithinLimit (chunks : List Bytes) : Prop :=
  ∀ i data lane, chunks[i]? = some data → new.receiveAll (chunks.take i) = some (.ok lane) →
    lane.buffer.length + data.length ≤ RECEIVE_BUFFER_LIMIT

/-- No chunk completes more packets than a batch holds. -/
def BatchSized (capsules : List Capsule) (chunks : List Bytes) : Prop :=
  ∀ i < chunks.length,
    (completePackets capsules (chunks.take (i + 1)).flatten.length).length ≤
      (completePackets capsules (chunks.take i).flatten.length).length + MAX_PACKET_BATCH_SIZE

section Runs

variable {capsules : List Capsule} {chunks : List Bytes}

theorem new_follows (capsules : List Capsule) : Follows capsules 0 new [] capsules :=
  ⟨rfl, by simp, le_refl _, rfl, by simp [new]⟩

variable {i : Nat}

theorem take_chunk (hstream : chunks.flatten = stream capsules) (hdata : chunks[i]? = some data) :
    (chunks.take (i + 1)).flatten.length = (chunks.take i).flatten.length + data.length ∧
      (chunks.take i).flatten.length + data.length ≤ (stream capsules).length ∧
      (stream capsules).take ((chunks.take i).flatten.length + data.length) =
        (stream capsules).take (chunks.take i).flatten.length ++ data := by
  have hnext : chunks.take (i + 1) = chunks.take i ++ [data] := by
    rw [take_add_one, hdata]
    rfl
  have hflat : (chunks.take (i + 1)).flatten = (chunks.take i).flatten ++ data := by
    rw [hnext]
    simp
  have hwhole : ∀ j, (stream capsules).take (chunks.take j).flatten.length =
      (chunks.take j).flatten := by
    intro j
    have hsplit : stream capsules = (chunks.take j).flatten ++ (chunks.drop j).flatten := by
      rw [← hstream, ← flatten_append, take_append_drop]
    rw [hsplit, take_left]
  have hlength : (chunks.take (i + 1)).flatten.length =
      (chunks.take i).flatten.length + data.length := by
    rw [hflat, length_append]
  refine ⟨hlength, ?_, ?_⟩
  · have htaken := congrArg length (hwhole (i + 1))
    rw [length_take, hlength] at htaken
    omega
  · rw [← hlength, hwhole, hwhole, hflat]

theorem receiveAll_take_succ (hdata : chunks[i]? = some data)
    (hlane : new.receiveAll (chunks.take i) = some (.ok lane)) :
    new.receiveAll (chunks.take (i + 1)) = lane.receive data := by
  rw [take_add_one, hdata, toList_some, receiveAll_append, hlane]

section

variable (hstream : chunks.flatten = stream capsules)
include hstream

theorem exists_follows (hlimit : WithinLimit chunks) (hi : i ≤ chunks.length)
    (hlane : new.receiveAll (chunks.take i) = some (.ok lane)) :
    ∃ taken rest, Follows capsules (chunks.take i).flatten.length lane taken rest := by
  induction i generalizing lane with
  | zero =>
    have hnew : lane = new := by
      simpa [receiveAll] using hlane.symm
    exact ⟨[], capsules, hnew ▸ new_follows capsules⟩
  | succ i ih =>
    have hdata := getElem?_eq_getElem hi
    obtain ⟨before, hbefore⟩ : ∃ before, new.receiveAll (chunks.take i) = some (.ok before) := by
      rw [take_add_one, hdata, toList_some, receiveAll_append] at hlane
      split at hlane
      · next before hbefore => exact ⟨before, hbefore⟩
      · next hfailed => exact absurd hlane (hfailed lane)
    obtain ⟨taken, rest, hfollows⟩ := ih (by omega) hbefore
    obtain ⟨hlength, hle, hbytes⟩ := take_chunk hstream hdata
    rw [receiveAll_take_succ hdata hbefore] at hlane
    rcases hfollows.receive hle hbytes (hlimit i _ before hdata hbefore) with
      ⟨more, rest', next, -, hnext, hfollows', -⟩ | ⟨-, error, herror⟩
    · rw [hnext] at hlane
      cases hlane
      exact ⟨taken ++ more, rest', hlength ▸ hfollows'⟩
    · cases herror.symm.trans hlane

/-- A lane that has delivered all that is complete does so again after the next chunk. -/
theorem caught_up (hlimit : WithinLimit chunks) (hbatch : BatchSized capsules chunks)
    (hfits : ∀ c ∈ capsules, c.Fits) (hi : i ≤ chunks.length) :
    ∃ lane taken rest, new.receiveAll (chunks.take i) = some (.ok lane) ∧
      Follows capsules (chunks.take i).flatten.length lane taken rest ∧
      completePackets rest ((chunks.take i).flatten.length - (stream taken).length) = [] := by
  induction i with
  | zero =>
    refine ⟨new, [], capsules, rfl, new_follows capsules, ?_⟩
    cases capsules with
    | nil => rfl
    | cons c rest =>
      exact if_neg (not_le.mpr c.encode_length_pos)
  | succ i ih =>
    have hdata := getElem?_eq_getElem hi
    obtain ⟨lane, taken, rest, hlane, hfollows, hcomplete⟩ := ih (by omega)
    obtain ⟨hlength, hle, hbytes⟩ := take_chunk hstream hdata
    rcases hfollows.receive hle hbytes (hlimit i _ lane hdata hlane) with
      ⟨more, rest', next, -, hnext, hfollows', -, -, hstop⟩ | ⟨⟨c, hmem, hlarge⟩, -⟩
    · refine ⟨next, taken ++ more, rest', ?_, hlength ▸ hfollows', ?_⟩
      · rw [receiveAll_take_succ hdata hlane, hnext]
      · rw [hlength]
        rcases hstop with hfull | hstarved
        · -- the batch is full, and the chunk completes no more than a batch
          have hbefore := hbatch i (by omega)
          rw [hlength, hfollows'.split, completePackets_append rest' hfollows'.length_le,
            ← hfollows'.split, hfollows.split, completePackets_append rest hfollows.length_le,
            hcomplete, append_nil, filterMap_append, length_append,
            length_append, ← length_filterMap_received more, hfull] at hbefore
          exact eq_nil_of_length_eq_zero (by omega)
        · exact hstarved.completePackets
    · refine absurd (hfits c ?_) hlarge
      rw [hfollows.split]
      exact mem_append_right _ hmem

end

theorem Prompt.batchSized (hprompt : Prompt capsules chunks)
    (hstream : chunks.flatten = stream capsules) (hlimit : WithinLimit chunks) :
    BatchSized capsules chunks := by
  intro i hi
  have hdata := getElem?_eq_getElem hi
  obtain ⟨lane, hlane, hdelivered⟩ := hprompt i (by omega)
  obtain ⟨next, hnext, hdelivered'⟩ := hprompt (i + 1) hi
  obtain ⟨taken, rest, hfollows⟩ := exists_follows hstream hlimit (by omega) hlane
  obtain ⟨hlength, hle, hbytes⟩ := take_chunk hstream hdata
  rw [receiveAll_take_succ hdata hlane] at hnext
  have hbefore := congrArg length hdelivered
  have hafter := congrArg length hdelivered'
  rw [length_map, length_map] at hbefore hafter
  rcases hfollows.receive hle hbytes (hlimit i _ lane hdata hlane) with
    ⟨more, rest', next', -, hnext', -, happend, hcount, -⟩ | ⟨-, error, herror⟩
  · rw [hnext'] at hnext
    cases hnext
    rw [happend, length_append] at hafter
    omega
  · cases herror.symm.trans hnext

theorem packets_length_le (capsules : List Capsule) :
    (capsules.filterMap received).length * PEER_MANAGER_HEADER_SIZE ≤ (stream capsules).length := by
  induction capsules with
  | nil => simp
  | cons c capsules ih =>
    rw [stream_cons, length_append]
    cases c with
    | other => rw [filterMap_cons_none rfl]; omega
    | packet p bytes haccepted =>
      obtain ⟨payload, hpayload, hle, -, hbytes⟩ := accepted_body haccepted
      have hencode : PEER_MANAGER_HEADER_SIZE ≤ (packet p bytes haccepted).encode.length := by
        simp only [encode, hbytes, length_append]
        omega
      have hreceived : (packet p bytes haccepted).received.isSome := rfl
      obtain ⟨q, hq⟩ := isSome_iff_exists.mp hreceived
      rw [filterMap_cons_some hq, length_cons, succ_mul]
      omega

theorem encode_length_le_stream {c : Capsule} (hmem : c ∈ capsules) :
    c.encode.length ≤ (stream capsules).length := by
  obtain ⟨front, back, rfl⟩ := append_of_mem hmem
  simp only [stream, flatMap_append, flatMap_cons, length_append]
  omega

/-- A capsule that is too large cannot wait in the buffer behind a full batch: together
they are over the limit. -/
theorem Prompt.fits (hprompt : Prompt capsules chunks) (hstream : chunks.flatten = stream capsules)
    (hlimit : WithinLimit chunks) : ∀ c ∈ capsules, c.Fits := by
  intro c hc
  by_contra hlarge
  cases hcount : chunks.length with
  | zero =>
    obtain rfl := eq_nil_of_length_eq_zero hcount
    have hle := encode_length_le_stream hc
    rw [← hstream, flatten_nil] at hle
    exact absurd hle (not_le.mpr c.encode_length_pos)
  | succ i =>
    have hi : i < chunks.length := by omega
    have hdata := getElem?_eq_getElem hi
    obtain ⟨lane, hlane, -⟩ := hprompt i (by omega)
    obtain ⟨next, hnext, -⟩ := hprompt (i + 1) hi
    obtain ⟨taken, rest, hfollows⟩ := exists_follows hstream hlimit (by omega) hlane
    obtain ⟨hlength, hle, hbytes⟩ := take_chunk hstream hdata
    have hroom := hlimit i _ lane hdata hlane
    have hbuffer := congrArg length (hfollows.buffer_append hbytes)
    rw [receiveAll_take_succ hdata hlane] at hnext
    -- after the last chunk the whole stream has been received
    have hall : (chunks.take (i + 1)).flatten.length = (stream capsules).length := by
      rw [← hcount, take_length, hstream]
    rcases hfollows.receive hle hbytes hroom with
      ⟨more, rest', next', hsplit, -, hfollows', -, -, hstop⟩ | ⟨-, error, herror⟩
    · have hrest : c ∈ rest' := by
        rw [hfollows'.split] at hc
        rcases mem_append.mp hc with htaken | hrest
        · exact absurd (hfollows'.fits c htaken) hlarge
        · exact hrest
      have hsum : (stream capsules).length =
          (stream (taken ++ more)).length + (stream rest').length := by
        rw [← length_append, ← stream_append, ← hfollows'.split]
      rcases hstop with hfull | hstarved
      · have hpackets := packets_length_le more
        have hbig := encode_length_le_stream hrest
        have hbody : QUIC_RELIABLE_MAX_PACKET_SIZE < c.encode.length := by
          rw [encode_eq, length_append]
          have := not_le.mp fun h => hlarge (c.fits_iff.mpr h)
          omega
        have hmore : (stream (taken ++ more)).length =
            (stream taken).length + (stream more).length := by simp
        have hrestLength : (stream rest).length = (stream more).length + (stream rest').length := by
          rw [hsplit]
          simp
        rw [length_append, length_take] at hbuffer
        simp only [MAX_PACKET_BATCH_SIZE, PEER_MANAGER_HEADER_SIZE, RECEIVE_BUFFER_LIMIT] at *
        omega
      · cases rest' with
        | nil => contradiction
        | cons first more' =>
          have hshort := (hstarved first more' rfl).1
          rw [stream_cons, length_append] at hsum
          omega
    · cases herror.symm.trans hnext

/-- While the chunks keep within the receive buffer, the lane delivers every packet with
the chunk that completes it exactly if no chunk completes more than one batch of packets
and no capsule of another type is larger than a packet may be. -/
theorem lane_prompt_iff_batch_sized (capsules : List Capsule) (chunks : List Bytes)
    (hstream : chunks.flatten = stream capsules) (hlimit : WithinLimit chunks) :
    Prompt capsules chunks ↔ BatchSized capsules chunks ∧ ∀ c ∈ capsules, c.Fits := by
  constructor
  · intro hprompt
    exact ⟨hprompt.batchSized hstream hlimit, hprompt.fits hstream hlimit⟩
  · rintro ⟨hbatch, hfits⟩ i hi
    obtain ⟨lane, taken, rest, hlane, hfollows, hcomplete⟩ :=
      caught_up hstream hlimit hbatch hfits hi
    refine ⟨lane, hlane, ?_⟩
    rw [hfollows.split, completePackets_append rest hfollows.length_le, hcomplete, append_nil,
      hfollows.delivered, tunnelPayload_received]

end Runs

def smallPacket : ZCPacket := ZCPacket.newFromBuf (replicate 16 0) .dummyTunnel

def smallCapsuleBytes : Bytes :=
  putQuicVarint LOWTIER_PACKET_CAPSULE_TYPE ++ putQuicVarint 16 ++ replicate 16 0

def smallCapsule : Capsule := .packet smallPacket smallCapsuleBytes (by decide)

def progress : Option (Except String ReliableLane) → Option (Nat × Nat)
  | some (.ok lane) => some (lane.delivered.length, lane.buffer.length)
  | _ => none

theorem lane_prompt_two_packets : let capsules := [smallCapsule, smallCapsule]
    let chunks := [smallCapsuleBytes ++ smallCapsuleBytes.take 7, smallCapsuleBytes.drop 7]
    chunks.flatten = stream capsules ∧ WithinLimit chunks ∧
      (Prompt capsules chunks ↔ BatchSized capsules chunks ∧ ∀ c ∈ capsules, c.Fits) := by
  intro capsules chunks
  have hstream : chunks.flatten = stream capsules := by decide
  have hfirst : progress (new.receiveAll (chunks.take 1)) = some (1, 7) := by decide +kernel
  have hlimit : WithinLimit chunks := by
    intro i data lane hdata hlane
    match i with
    | 0 =>
      cases hdata
      cases hlane
      decide
    | 1 =>
      cases hdata
      rw [hlane] at hfirst
      have hbuffer : lane.buffer.length = 7 := (Prod.mk.inj (some.inj hfirst)).2
      rw [hbuffer]
      decide
    | i + 2 => simp [chunks] at hdata
  exact ⟨hstream, hlimit, lane_prompt_iff_batch_sized capsules chunks hstream hlimit⟩

theorem withinLimit_singleton (hlength : data.length ≤ RECEIVE_BUFFER_LIMIT) :
    WithinLimit [data] := by
  intro i chunk lane hchunk hlane
  cases i with
  | zero =>
    have hdata : data = chunk := by simpa using hchunk
    have hnew : new = lane := by simpa [receiveAll] using hlane
    rw [← hdata, ← hnew]
    simpa [new] using hlength
  | succ i => simp at hchunk

/-- Of 65 small packets in one chunk, the lane delivers 64 and keeps the last. -/
theorem lane_keeps_packet_after_full_batch : let capsules := List.replicate 65 smallCapsule
    let chunks := [stream capsules]
    chunks.flatten = stream capsules ∧ WithinLimit chunks ∧
      progress (new.receiveAll chunks) = some (64, smallCapsuleBytes.length) ∧
      ¬ Prompt capsules chunks := by
  intro capsules chunks
  have hrun : progress (new.receiveAll chunks) = some (64, smallCapsuleBytes.length) := by
    decide +kernel
  have hlength : (stream capsules).length = 1365 := by decide +kernel
  refine ⟨by simp [chunks], withinLimit_singleton (by rw [hlength]; decide), hrun, ?_⟩
  · intro hprompt
    obtain ⟨lane, hlane, hdelivered⟩ := hprompt 1 (le_refl _)
    have hall : chunks.take 1 = chunks := rfl
    rw [hall] at hlane hdelivered
    rw [hlane] at hrun
    have hcount : lane.delivered.length = 64 := (Prod.mk.inj (some.inj hrun)).1
    have hcomplete : (completePackets capsules chunks.flatten.length).length = 65 := by
      decide +kernel
    have hlengths := congrArg length hdelivered
    rw [length_map, length_map, hcount, hcomplete] at hlengths
    omega

end ReliableLane

end LowerTier.Tunnel.Quic
