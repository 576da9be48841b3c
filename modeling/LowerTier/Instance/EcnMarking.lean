import LowerTier.Gateway.TcpProxy.Packets
import LowerTier.Tunnel.PacketEdits

/-!
# ECN marks of the NIC ingress queue (`mark_inner_ce`)

A packet that would be dropped is marked instead if its sender supports that.  A call is `none`
where an access would be out of range.
-/

namespace LowerTier.Instance

open Option List ProofSupport ProofSupport.ByteString
open Gateway.TcpProxy Tunnel

/-- The sum of the words of `chunks_exact(2)`. -/
def wordSum : Bytes → Nat
  | high :: low :: rest => high.toNat * 256 + low.toNat + wordSum rest
  | _ => 0

variable (ip : Bytes)

def ipVersion : Option Nat := ip.head?.map (UInt8.toNat · / 16)

def headerLen (first : UInt8) : Nat := (first &&& 0x0f).toNat * 4

def markIpv4 : Option (Option Bytes) :=
  if ip.length < 20 then some none else do
    let headerLen := headerLen (← ip[0]?)
    let totalLen := beValue (← slice ip 2 4)
    let traffic ← ip[1]?
    if headerLen < 20 ∨ ip.length < headerLen ∨ totalLen < headerLen ∨ ip.length < totalLen ∨
        traffic &&& 3 = 0 then some none
    else
      let ip ← setByte ip 1 (traffic ||| 3)
      let ip ← setByte ip 10 0
      let ip ← setByte ip 11 0
      let header ← slice ip 0 headerLen
      let checksum := finishSum (wordSum header)
      let ip ← setByte ip 10 (.ofNat (checksum / 256))
      some <$> setByte ip 11 (.ofNat checksum)

def markIpv6 : Option (Option Bytes) :=
  if ip.length < 40 then some none else do
    let traffic ← ip[1]?
    if traffic &&& 0x30 = 0 then some none
    else
      let payloadLen := beValue (← slice ip 4 6)
      if payloadLen ≠ 0 ∧ ip.length < payloadLen + 40 then some none
      else some <$> setByte ip 1 (traffic ||| 0x30)

/-- The new bytes of an IP packet, if they are marked. -/
def markIp : Option (Option Bytes) :=
  match ipVersion ip with
  | some 4 => markIpv4 ip
  | some 6 => markIpv6 ip
  | _ => some none

def innerOffset (payload : Bytes) (nativeEthernet : Bool) : Option Nat :=
  if nativeEthernet then do
    let metadata ← ethernetNetworkMetadata payload
    if metadata.etherType = 0x0800 ∨ metadata.etherType = 0x86dd then some metadata.payloadOffset
    else none
  else some 0

/-- Whether the packet is marked, and the packet. -/
def markInnerCe (packet : ZCPacket) (nativeEthernet : Bool) : Option (Bool × ZCPacket) := do
  let payload ← packet.payload
  match (innerOffset payload nativeEthernet).filter (· ≤ payload.length) with
  | none => some (false, packet)
  | some offset =>
    match ← markIp (payload.drop offset) with
    | none => some (false, packet)
    | some ip =>
      let packet ← packet.mutPayloadPreservingFlowHash fun payload => payload.take offset ++ ip
      some (true, packet)

/-- The two ECN bits of a header that has one of them become `11`, and no other byte changes but for
the checksum. -/
structure MarkedCe (ecn : UInt8) (checksum : List Nat) (ip marked : Bytes) : Prop where
  capable : ∃ traffic, ip[1]? = some traffic ∧ traffic &&& ecn ≠ 0 ∧
    marked[1]? = some (traffic ||| ecn)
  unchanged : ∀ i, i ≠ 1 → i ∉ checksum → marked[i]? = ip[i]?

/-- The words of the whole header add up to all ones, with the carries added at the low end. -/
def HeaderVerifies : Prop :=
  ∃ first, ip[0]? = some first ∧ headerLen first ≤ ip.length ∧
    foldCarry (foldCarry (wordSum (ip.take (headerLen first)))) = 0xffff

def MarkedIp (ip marked : Bytes) : Prop :=
  ipVersion ip = some 4 ∧ MarkedCe 3 [10, 11] ip marked ∧ HeaderVerifies marked ∨
    ipVersion ip = some 6 ∧ MarkedCe 0x30 [] ip marked

theorem wordSum_le (bytes : Bytes) : wordSum bytes ≤ 65535 * bytes.length := by
  fun_induction wordSum bytes with
  | case1 high low rest ih =>
    have hhigh := high.toNat_lt
    have hlow := low.toNat_lt
    rw [length_cons, length_cons]
    omega
  | case2 => exact Nat.zero_le _

theorem wordSum_set (n : Nat) {bytes : Bytes} (hfits : 2 * n + 2 ≤ bytes.length)
    (high low : UInt8) :
    wordSum ((bytes.set (2 * n) high).set (2 * n + 1) low) =
      wordSum ((bytes.set (2 * n) 0).set (2 * n + 1) 0) + (high.toNat * 256 + low.toNat) := by
  induction n generalizing bytes with
  | zero =>
    match bytes, hfits with
    | _ :: _ :: rest, _ => simp [wordSum, Nat.add_comm]
  | succ n ih =>
    match bytes, hfits with
    | _ :: _ :: rest, hfits =>
      have hrest := ih (Nat.le_of_add_le_add_right hfits)
      exact (congrArg _ hrest).trans (Nat.add_assoc ..).symm

/-- Two turns are enough for the sum of a header, and its complement fills it up to all ones. -/
theorem foldCarry_add_finishSum {sum : Nat} (hsmall : sum < 2 ^ 24) :
    foldCarry (foldCarry (sum + finishSum sum)) = 0xffff := by
  have hfold : ∀ sum, foldCarry sum + 65535 * (sum / 2 ^ 16) = sum := by
    unfold foldCarry
    omega
  have hfirst := hfold sum
  have hsecond := hfold (foldCarry sum)
  have hlt : foldCarry (foldCarry sum) < 2 ^ 16 := by
    omega
  obtain ⟨k, hk, hsum⟩ : ∃ k < 65536, sum + finishSum sum = 65535 * (k + 1) := by
    refine ⟨sum / 2 ^ 16 + foldCarry sum / 2 ^ 16, by omega, ?_⟩
    rw [finishSum, Nat.mod_eq_of_lt hlt]
    omega
  have hones : foldCarry (65535 * (k + 1)) = 0xffff := by
    unfold foldCarry
    omega
  rw [hsum, hones]
  rfl

theorem wordSum_checksum {header : Bytes} (hlong : 12 ≤ header.length)
    (hshort : header.length ≤ 60) :
    let checksum := finishSum (wordSum ((header.set 10 0).set 11 0))
    foldCarry (foldCarry (wordSum
      ((header.set 10 (.ofNat (checksum / 256))).set 11 (.ofNat checksum)))) = 0xffff := by
  intro checksum
  have hword : (UInt8.ofNat (checksum / 256)).toNat * 256 + (UInt8.ofNat checksum).toNat =
      checksum := by
    have hlt : checksum ≤ 0xffff := Nat.sub_le ..
    rw [UInt8.toNat_ofNat', UInt8.toNat_ofNat']
    omega
  have hle := wordSum_le ((header.set 10 0).set 11 0)
  rw [length_set, length_set] at hle
  have hsmall : wordSum ((header.set 10 0).set 11 0) < 2 ^ 24 := by omega
  rw [wordSum_set 5 hlong, hword]
  exact foldCarry_add_finishSum hsmall

variable {ip : Bytes}

theorem markIpv4_spec (hversion : ipVersion ip = some 4) :
    ∃ result, markIpv4 ip = some result ∧ ∀ marked ∈ result, MarkedIp ip marked := by
  unfold markIpv4
  split
  · exact ⟨none, rfl, nofun⟩
  next hlong =>
  have h0 : 0 < ip.length := by omega
  have h1 : 1 < ip.length := by omega
  have hfields : slice ip 2 4 = some ((ip.drop 2).take 2) := if_pos (by omega)
  rw [getElem?_eq_getElem h0, getElem?_eq_getElem h1, hfields]
  dsimp only [bind_eq_bind, bind_some]
  split
  · exact ⟨none, rfl, nofun⟩
  next hvalid =>
  simp only [not_or, not_lt] at hvalid
  obtain ⟨hmin, hfits, -, -, hcapable⟩ := hvalid
  have hmax : headerLen ip[0] ≤ 60 := by
    have hnibble : (ip[0] &&& 0x0f).toNat ≤ 15 := by
      exact Nat.and_le_right
    unfold headerLen
    omega
  have hchecksum := @wordSum_checksum ((ip.set 1 (ip[1] ||| 3)).take (headerLen ip[0]))
    (by simp; omega) (by simp; omega)
  have h10 : 10 < ip.length := by omega
  have h11 : 11 < ip.length := by omega
  simp only [setByte, slice, length_set, h1, h10, h11, hfits, if_true, bind_some,
    Nat.zero_le, true_and, Nat.sub_zero, drop_zero, take_set] at hchecksum ⊢
  refine ⟨_, rfl, ?_⟩
  rintro marked ⟨⟩
  -- the zeros are overwritten
  rw [set_comm 0 _ (show 11 ≠ 10 by decide), set_set, set_set]
  refine .inl ⟨hversion, ⟨⟨ip[1], getElem?_eq_getElem h1, hcapable, ?_⟩, fun i hne hother => ?_⟩,
    ip[0], ?_, ?_, ?_⟩
  · simp [h1]
  · rw [mem_cons, mem_singleton, not_or] at hother
    rw [getElem?_set_ne (Ne.symm hother.2), getElem?_set_ne (Ne.symm hother.1),
      getElem?_set_ne hne.symm]
  · simp [h0]
  · simpa using hfits
  · simpa only [take_set] using hchecksum

theorem markIpv6_spec (hversion : ipVersion ip = some 6) :
    ∃ result, markIpv6 ip = some result ∧ ∀ marked ∈ result, MarkedIp ip marked := by
  unfold markIpv6
  split
  · exact ⟨none, rfl, nofun⟩
  next hlong =>
  have h1 : 1 < ip.length := by omega
  have hfields : slice ip 4 6 = some ((ip.drop 4).take 2) := if_pos (by omega)
  rw [getElem?_eq_getElem h1, hfields]
  dsimp only [bind_eq_bind, bind_some]
  split
  · exact ⟨none, rfl, nofun⟩
  next hcapable =>
  split
  · exact ⟨none, rfl, nofun⟩
  · refine ⟨some (ip.set 1 (ip[1] ||| 0x30)), by rw [setByte, if_pos h1]; rfl, ?_⟩
    rintro marked ⟨⟩
    exact .inr ⟨hversion, ⟨ip[1], getElem?_eq_getElem h1, hcapable, getElem?_set_self h1⟩,
      fun i hne _ => getElem?_set_ne hne.symm⟩

theorem markIp_spec (ip : Bytes) :
    ∃ result, markIp ip = some result ∧ ∀ marked ∈ result, MarkedIp ip marked := by
  unfold markIp
  split
  · next hversion => exact markIpv4_spec hversion
  · next hversion => exact markIpv6_spec hversion
  · exact ⟨none, rfl, nofun⟩

/-- The only access that can be out of range is that to the payload of a buffer without one. -/
theorem mark_inner_ce_changes_ecn (packet : ZCPacket) (nativeEthernet : Bool) :
    match markInnerCe packet nativeEthernet with
    | none => packet.payload = none
    | some (false, result) => result = packet
    | some (true, result) => ∃ payload offset marked, packet.payload = some payload ∧
        innerOffset payload nativeEthernet = some offset ∧ MarkedIp (payload.drop offset) marked ∧
        result = packet.setPayloadPreservingFlowHash (payload.take offset ++ marked) := by
  unfold markInnerCe
  cases hpayload : packet.payload with
  | none => rfl
  | some payload =>
    dsimp only [bind_eq_bind, bind_some]
    cases hoffset : (innerOffset payload nativeEthernet).filter (· ≤ payload.length) with
    | none => rfl
    | some offset =>
      obtain ⟨result, hresult, hspec⟩ := markIp_spec (payload.drop offset)
      dsimp only
      rw [hresult, bind_some]
      cases result with
      | none => rfl
      | some marked =>
        simp only [ZCPacket.mutPayloadPreservingFlowHash, hpayload, map_some, bind_some]
        exact ⟨payload, offset, marked, rfl, (filter_eq_some_iff.mp hoffset).1,
          hspec marked rfl, rfl⟩

end LowerTier.Instance
