import LowerTier.Tunnel.Quic.Fragments

/-!
# The books of the fragment store

The map of assemblies, the queue that orders them, the byte total and the charge at the
governor repeat each other.  `Ledger` says how they agree, which is all that removing an
entry needs; `Accounted` adds the limits and what is known of an entry between two calls.
-/

namespace LowerTier.Tunnel.Quic

open DatagramFragments Nat AList Option List ProofSupport ProofSupport.ByteString
  ProofSupport.MachineInt KeyedMap

variable {time : Nat}

namespace DatagramFragments

structure Ledger (s : DatagramFragments) : Prop where
  order_nodup : s.order.Nodup
  mem_order : ∀ id, id ∈ s.order ↔ ∃ entry, s.pending.lookup id = some entry
  retained : s.retainedBytes = s.pending.sumBy (·.retainedBytes)
  charged : s.charged = s.retainedBytes
  permit : ∀ id entry, s.pending.lookup id = some entry → entry.permit = entry.retainedBytes

def ExpiryOrdered (s : DatagramFragments) : Prop :=
  s.order.Pairwise fun a b => ∀ entry entry', s.pending.lookup a = some entry →
    s.pending.lookup b = some entry' → entry.expires ≤ entry'.expires

structure Accounted (s : DatagramFragments) : Prop extends Ledger s where
  order_sorted : s.ExpiryOrdered
  retained_le : s.retainedBytes ≤ RETAINED_BYTES_LIMIT
  size_le : s.pending.size ≤ DATAGRAM_FRAGMENT_MAX_PENDING
  filled : ∀ id entry, s.pending.lookup id = some entry →
    entry.filled = entry.parts.countP (·.isSome) ∧ entry.filled < entry.parts.length

def ExpiresBy (s : DatagramFragments) (time : Nat) : Prop :=
  ∀ id entry, s.pending.lookup id = some entry → entry.expires ≤ time

/-! ## Removing an entry -/

def without (s : DatagramFragments) (id : UInt32) : DatagramFragments :=
  { s with
    pending := s.pending.erase id
    order := s.order.filter (· ≠ id)
    retainedBytes := sumBy (·.retainedBytes) (s.pending.erase id)
    charged := sumBy (·.retainedBytes) (s.pending.erase id) }

variable {s s' : DatagramFragments} {id : UInt32}

variable {other : UInt32} {entry : FragmentInProgress}

theorem lookup_without (h : (s.without id).pending.lookup other = some entry) :
    other ≠ id ∧ s.pending.lookup other = some entry := by
  have herased : (s.pending.erase id).lookup other = some entry := h
  by_cases hother : other = id
  · subst hother
    simp [lookup_erase] at herased
  · rw [lookup_erase_ne hother] at herased
    exact ⟨hother, herased⟩

theorem lookup_without_of_ne (hother : other ≠ id) :
    (s.without id).pending.lookup other = s.pending.lookup other :=
  lookup_erase_ne hother

section

variable (h : s.Ledger)
include h

theorem Ledger.without (id : UInt32) : (s.without id).Ledger where
  order_nodup := h.order_nodup.filter _
  mem_order other := by
    constructor
    · intro hmem
      have hfilter : other ∈ s.order ∧ other ≠ id := by
        simpa [DatagramFragments.without] using hmem
      obtain ⟨entry, hentry⟩ := (h.mem_order other).mp hfilter.1
      exact ⟨entry, by rw [lookup_without_of_ne hfilter.2, hentry]⟩
    · rintro ⟨entry, hentry⟩
      obtain ⟨hother, hlookup⟩ := lookup_without hentry
      have hmem : other ∈ s.order := (h.mem_order other).mpr ⟨entry, hlookup⟩
      simpa [DatagramFragments.without] using ⟨hmem, hother⟩
  retained := rfl
  charged := rfl
  permit other entry hentry := h.permit other entry (lookup_without hentry).2

theorem Ledger.remove_eq (hentry : s.pending.lookup id = some entry) :
    s.remove id = some (some entry, { s.without id with charged := s.charged }) := by
  have hsum := sumBy_erase (·.retainedBytes) hentry
  have hle : entry.retainedBytes ≤ s.retainedBytes := by rw [h.retained]; omega
  have hrest : s.retainedBytes - entry.retainedBytes =
      sumBy (·.retainedBytes) (s.pending.erase id) := by rw [h.retained]; omega
  simp only [remove, hentry, checkedSub, if_pos hle, hrest]
  rfl

theorem Ledger.releasePermit_eq (hentry : s.pending.lookup id = some entry) :
    releasePermit { s.without id with charged := s.charged } entry = some (s.without id) := by
  have hsum := sumBy_erase (·.retainedBytes) hentry
  have hcharged : s.charged = s.pending.sumBy (·.retainedBytes) := h.charged.trans h.retained
  have hpermit := h.permit id entry hentry
  have hle : entry.permit ≤ s.charged := by rw [hpermit, hcharged]; omega
  have hrest : s.charged - entry.permit = sumBy (·.retainedBytes) (s.pending.erase id) := by
    omega
  simp only [releasePermit, checkedSub, if_pos hle, hrest]
  rfl

theorem Ledger.without_of_none (hnone : s.pending.lookup id = none) : s.without id = s := by
  have hpending : s.pending.erase id = s.pending :=
    ext (kerase_of_notMem_keys (lookup_eq_none.mp hnone))
  have horder : s.order.filter (· ≠ id) = s.order := by
    refine filter_eq_self.mpr fun other hmem => ?_
    obtain ⟨entry, hentry⟩ := (h.mem_order other).mp hmem
    have hother : other ≠ id := by
      rintro rfl
      rw [hnone] at hentry
      contradiction
    simpa using hother
  simp only [DatagramFragments.without, hpending, horder, ← h.retained]
  exact congrArg (fun charged => { s with charged := charged }) h.charged.symm

theorem Ledger.discard_eq : s.discard id = some (s.without id) := by
  cases hentry : s.pending.lookup id with
  | none =>
    rw [h.without_of_none hentry]
    simp [discard, remove, hentry]
  | some entry =>
    simp only [discard, h.remove_eq hentry, bind_eq_bind, bind_some]
    exact h.releasePermit_eq hentry

end

/-! ## Expiry -/

/-- The second store has some of the entries of the first and no others. -/
structure Shrinks (s s' : DatagramFragments) : Prop where
  lookup : ∀ id entry, s'.pending.lookup id = some entry → s.pending.lookup id = some entry
  order : s'.order.Sublist s.order
  retained : s'.retainedBytes ≤ s.retainedBytes
  size : s'.pending.size ≤ s.pending.size

theorem Shrinks.refl (s : DatagramFragments) : s.Shrinks s :=
  ⟨fun _ _ h => h, List.Sublist.refl _, le_refl _, le_refl _⟩

theorem Shrinks.trans {s'' : DatagramFragments} (h : s.Shrinks s') (h' : s'.Shrinks s'') :
    s.Shrinks s'' :=
  ⟨fun id entry hentry => h.lookup id entry (h'.lookup id entry hentry),
    h'.order.trans h.order, le_trans h'.retained h.retained, le_trans h'.size h.size⟩

theorem Ledger.shrinks_without (h : s.Ledger) (id : UInt32) : s.Shrinks (s.without id) := by
  cases hentry : s.pending.lookup id with
  | none =>
    rw [h.without_of_none hentry]
    exact .refl s
  | some entry =>
    refine ⟨fun other found hfound => (lookup_without hfound).2, filter_sublist, ?_, ?_⟩
    · have hsum := sumBy_erase (·.retainedBytes) hentry
      show sumBy (fun entry => entry.retainedBytes) (s.pending.erase id) ≤ s.retainedBytes
      rw [h.retained]
      omega
    · have hsize := size_erase hentry
      show size (s.pending.erase id) ≤ s.pending.size
      omega

theorem ExpiryOrdered.shrinks (h : s.ExpiryOrdered) (hshrinks : s.Shrinks s') :
    s'.ExpiryOrdered := by
  refine (h.sublist hshrinks.order).imp ?_
  intro a b hsorted entry entry' hentry hentry'
  exact hsorted entry entry' (hshrinks.lookup a entry hentry) (hshrinks.lookup b entry' hentry')

theorem Accounted.shrinks (h : s.Accounted) (hledger : s'.Ledger) (hshrinks : s.Shrinks s') :
    s'.Accounted where
  toLedger := hledger
  order_sorted := h.order_sorted.shrinks hshrinks
  retained_le := le_trans hshrinks.retained h.retained_le
  size_le := le_trans hshrinks.size h.size_le
  filled id entry hentry := h.filled id entry (hshrinks.lookup id entry hentry)

theorem Accounted.without (h : s.Accounted) (id : UInt32) : (s.without id).Accounted :=
  h.shrinks (h.toLedger.without id) (h.toLedger.shrinks_without id)

theorem ExpiresBy.shrinks (h : s.ExpiresBy time) (hshrinks : s.Shrinks s') : s'.ExpiresBy time :=
  fun id entry hentry => h id entry (hshrinks.lookup id entry hentry)

theorem Ledger.lookup_of_mem (h : s.Ledger) (hmem : id ∈ s.order) :
    ∃ entry, s.pending.lookup id = some entry := (h.mem_order id).mp hmem

theorem Ledger.expireLoop (h : s.Ledger) (nowMs : Nat) {fuel : Nat}
    (hfuel : s.order.length < fuel) :
    ∃ s', expireLoop nowMs fuel s = some s' ∧ s'.Ledger ∧ s.Shrinks s' := by
  induction fuel generalizing s with
  | zero => exact absurd hfuel (not_lt_zero _)
  | succ fuel ih =>
    cases hhead : s.order.head? with
    | none => exact ⟨s, by simp [expireLoop, hhead], h, .refl s⟩
    | some id =>
      have hmem : id ∈ s.order := mem_of_head? hhead
      obtain ⟨entry, hentry⟩ := h.lookup_of_mem hmem
      by_cases hexpired : entry.expires > nowMs
      · exact ⟨s, by simp [expireLoop, hhead, hentry, hexpired], h, .refl s⟩
      have hshorter : (s.without id).order.length < s.order.length :=
        length_filter_lt_length_iff_exists.mpr ⟨id, hmem, by simp⟩
      obtain ⟨s', hloop, hledger, hshrinks⟩ := ih (h.without id) (by omega)
      refine ⟨s', ?_, hledger, (h.shrinks_without id).trans hshrinks⟩
      simp [expireLoop, hhead, hentry, hexpired, h.discard_eq, hloop]

theorem scheduleExpiry_eq : ∃ expiry, s.scheduleExpiry = { s with expiry := expiry } := by
  unfold scheduleExpiry
  split
  · exact ⟨s.expiry, rfl⟩
  · exact ⟨_, rfl⟩

theorem Ledger.withExpiry (h : s.Ledger) (expiry : Option Nat) :
    Ledger { s with expiry := expiry } :=
  { h with }

theorem Ledger.expire (h : s.Ledger) (nowMs : Nat) :
    ∃ s', s.expire nowMs = some s' ∧ s'.Ledger ∧ s.Shrinks s' := by
  obtain ⟨expired, hloop, hledger, hshrinks⟩ := h.expireLoop nowMs (lt_succ_self _)
  obtain ⟨expiry, hschedule⟩ := expired.scheduleExpiry_eq
  refine ⟨{ expired with expiry := expiry }, ?_, hledger.withExpiry expiry, { hshrinks with }⟩
  simp [DatagramFragments.expire, hloop, hschedule]

/-! ## Adding a part -/

theorem Ledger.not_mem_order (h : s.Ledger) (hnone : s.pending.lookup id = none) :
    id ∉ s.order := by
  intro hmem
  obtain ⟨entry, hentry⟩ := h.lookup_of_mem hmem
  rw [hnone] at hentry
  contradiction

theorem Ledger.insertEntry (h : s.Ledger) (push : FragmentPush) (metadataBytes : Nat)
    (hnone : s.pending.lookup push.id = none) : (s.insertEntry push metadataBytes).Ledger where
  order_nodup := nodup_append.mpr ⟨h.order_nodup, by simp, fun a ha b hb hab =>
    h.not_mem_order hnone (by rw [← mem_singleton.mp hb, ← hab]; exact ha)⟩
  mem_order id := by
    by_cases hid : id = push.id
    · subst hid
      exact ⟨fun _ => ⟨_, lookup_insert _⟩, fun _ => mem_append_right _ (mem_singleton.mpr rfl)⟩
    · simp [DatagramFragments.insertEntry, hid, lookup_insert_ne, h.mem_order]
  retained := by
    have hsum := sumBy_erase_of_none (·.retainedBytes) hnone
    show s.retainedBytes + metadataBytes = sumBy (fun entry => entry.retainedBytes)
      (s.pending.insert push.id (newEntry push.count metadataBytes push.nowMs))
    rw [sumBy_insert, hsum, h.retained]
    exact add_comm _ _
  charged := congrArg (· + metadataBytes) h.charged
  permit id entry hentry := by
    rcases lookup_insert_cases hentry with ⟨-, rfl⟩ | ⟨-, hentry⟩
    · rfl
    · exact h.permit id entry hentry

variable {push : FragmentPush}

theorem ExpiryOrdered.insertEntry (h : s.ExpiryOrdered) (metadataBytes : Nat)
    (hnew : push.id ∉ s.order) (hexpires : s.ExpiresBy (push.nowMs + ASSEMBLY_LIFETIME_MS)) :
    (s.insertEntry push metadataBytes).ExpiryOrdered := by
  refine pairwise_append.mpr ⟨?_, pairwise_singleton _ _, ?_⟩
  · refine h.imp_of_mem ?_
    intro a b ha hb hsorted entry entry' hentry hentry'
    rcases lookup_insert_cases hentry with ⟨rfl, -⟩ | ⟨-, hentry⟩
    · exact absurd ha hnew
    · rcases lookup_insert_cases hentry' with ⟨rfl, -⟩ | ⟨-, hentry'⟩
      · exact absurd hb hnew
      · exact hsorted entry entry' hentry hentry'
  · -- the new entry expires last
    intro a ha b hb entry entry' hentry hentry'
    obtain rfl := mem_singleton.mp hb
    rcases lookup_insert_cases hentry with ⟨rfl, -⟩ | ⟨-, hentry⟩
    · exact absurd ha hnew
    · rcases lookup_insert_cases hentry' with ⟨-, rfl⟩ | ⟨hne, -⟩
      · exact hexpires a entry hentry
      · exact absurd rfl hne

def grown (s : DatagramFragments) (id : UInt32) (entry : FragmentInProgress) (bytes : Nat) :
    DatagramFragments :=
  { s with
    pending := s.pending.insert id entry
    retainedBytes := s.retainedBytes + bytes
    charged := s.charged + bytes }

variable {entry' : FragmentInProgress}

theorem Ledger.grown (h : s.Ledger) {bytes : Nat} (hentry : s.pending.lookup id = some entry)
    (hretained : entry'.retainedBytes = entry.retainedBytes + bytes)
    (hpermit : entry'.permit = entry.permit + bytes) : (s.grown id entry' bytes).Ledger where
  order_nodup := h.order_nodup
  mem_order other := by
    by_cases hother : other = id
    · subst hother
      have hmem : other ∈ s.order := (h.mem_order other).mpr ⟨entry, hentry⟩
      exact ⟨fun _ => ⟨entry', lookup_insert _⟩, fun _ => hmem⟩
    · have hsame : (s.grown id entry' bytes).pending.lookup other = s.pending.lookup other :=
        lookup_insert_ne hother
      rw [hsame]
      exact h.mem_order other
  retained := by
    have hsum := sumBy_erase (·.retainedBytes) hentry
    show s.retainedBytes + bytes =
      sumBy (fun entry => entry.retainedBytes) (s.pending.insert id entry')
    rw [sumBy_insert, hretained, h.retained]
    omega
  charged := congrArg (· + bytes) h.charged
  permit other found hfound := by
    rcases lookup_insert_cases hfound with ⟨-, rfl⟩ | ⟨-, hfound⟩
    · rw [hpermit, hretained, h.permit id entry hentry]
    · exact h.permit other found hfound

theorem ExpiryOrdered.grown (h : s.ExpiryOrdered)
    (bytes : Nat) (hentry : s.pending.lookup id = some entry)
    (hexpires : entry'.expires = entry.expires) : (s.grown id entry' bytes).ExpiryOrdered := by
  have hold : ∀ other found, (s.grown id entry' bytes).pending.lookup other = some found →
      ∃ old, s.pending.lookup other = some old ∧ found.expires = old.expires := by
    intro other found hfound
    rcases lookup_insert_cases hfound with ⟨rfl, rfl⟩ | ⟨-, hfound⟩
    · exact ⟨entry, hentry, hexpires⟩
    · exact ⟨found, hfound, rfl⟩
  refine h.imp ?_
  intro a b hsorted found found' hfound hfound'
  obtain ⟨old, hlookup, hsame⟩ := hold a found hfound
  obtain ⟨old', hlookup', hsame'⟩ := hold b found' hfound'
  rw [hsame, hsame']
  exact hsorted old old' hlookup hlookup'

theorem countP_set_none {parts : List (Option Bytes)} {index : Nat} (payload : Bytes)
    (hnone : parts[index]? = some none) :
    (parts.set index (some payload)).countP (·.isSome) = parts.countP (·.isSome) + 1 := by
  obtain ⟨hlt, hget⟩ := List.getElem?_eq_some_iff.mp hnone
  rw [List.countP_set hlt]
  simp [hget]

theorem grown_without (bytes : Nat) : (s.grown id entry bytes).without id = s.without id := by
  have hpending : (s.pending.insert id entry).erase id = s.pending.erase id :=
    ext (kerase_cons_eq rfl)
  simp only [without, grown, hpending]

/-- The packet that a complete assembly yields. -/
def assembledPacket (entry : FragmentInProgress) (push : FragmentPush) : Option ZCPacket :=
  if entry.payloadBytes < PEER_MANAGER_HEADER_SIZE ∨ !push.reserveOutput then
    none
  else
    (joinParts entry.parts).map (ZCPacket.newFromBuf · .dummyTunnel)

theorem Ledger.assemble_eq (h : s.Ledger) (hentry : s.pending.lookup push.id = some entry) :
    s.assemble push = some (assembledPacket entry push, s.without push.id) := by
  simp only [assemble, h.remove_eq hentry, h.releasePermit_eq hentry, bind_eq_bind,
    bind_some, assembledPacket]
  split <;> rfl

/-- What `addPart` does, by the answer of the governor and by whether a part is missing. -/
theorem Ledger.addPart_eq (h : s.Ledger) (hentry : s.pending.lookup push.id = some entry)
    (hindex : push.index.toNat < entry.parts.length) :
    s.addPart push = if !push.extendPermit then
        some (none, s.without push.id)
      else if entry.filled + 1 ≠ entry.parts.length then
        some (none, s.grown push.id (withPart entry push) push.payload.length)
      else
        some (assembledPacket (withPart entry push) push, s.without push.id) := by
  have hgrown : (s.grown push.id (withPart entry push) push.payload.length).Ledger :=
    h.grown hentry rfl rfl
  have hassemble := hgrown.assemble_eq (lookup_insert _)
  rw [grown_without] at hassemble
  simp only [addPart, hentry, bind_eq_bind, bind_some, fillPart, if_pos hindex]
  split
  · simp [h.discard_eq]
  · simp only [withPart, List.length_set]
    split
    · rfl
    · exact hassemble

theorem Accounted.addPart (h : s.Accounted) (hentry : s.pending.lookup push.id = some entry)
    (hpart : entry.parts[push.index.toNat]? = some none)
    (hroom : s.retainedBytes + push.payload.length ≤ RETAINED_BYTES_LIMIT)
    (htime : s.ExpiresBy time) :
    ∃ packet s', s.addPart push = some (packet, s') ∧ s'.Accounted ∧ s'.ExpiresBy time := by
  obtain ⟨hindex, -⟩ := List.getElem?_eq_some_iff.mp hpart
  obtain ⟨hfilled, hbelow⟩ := h.filled push.id entry hentry
  have hwithout := htime.shrinks (h.toLedger.shrinks_without push.id)
  rw [h.toLedger.addPart_eq hentry hindex]
  split
  · exact ⟨_, _, rfl, h.without push.id, hwithout⟩
  split
  · next hmissing =>
    refine ⟨_, _, rfl, ⟨h.toLedger.grown hentry rfl rfl, h.order_sorted.grown _ hentry rfl, hroom,
      ?_, ?_⟩, ?_⟩
    · show size (s.pending.insert push.id (withPart entry push)) ≤ _
      rw [size_insert_of_some hentry]
      exact h.size_le
    · intro id found hfound
      rcases lookup_insert_cases hfound with ⟨-, rfl⟩ | ⟨-, hfound⟩
      · refine ⟨?_, ?_⟩
        · show entry.filled + 1 = (entry.parts.set _ _).countP _
          rw [countP_set_none push.payload hpart, hfilled]
        · show entry.filled + 1 < (entry.parts.set _ _).length
          rw [length_set]
          omega
      · exact h.filled id found hfound
    · intro id found hfound
      rcases lookup_insert_cases hfound with ⟨-, rfl⟩ | ⟨-, hfound⟩
      · exact htime push.id entry hentry
      · exact htime id found hfound
  · exact ⟨_, _, rfl, h.without push.id, hwithout⟩

/-! ## Pushing a fragment -/

theorem Accounted.insertEntry (h : s.Accounted) {metadataBytes : Nat}
    (hcount : 0 < push.count.toNat) (hnone : s.pending.lookup push.id = none)
    (hexpires : s.ExpiresBy (push.nowMs + ASSEMBLY_LIFETIME_MS))
    (hroom : s.retainedBytes + metadataBytes ≤ RETAINED_BYTES_LIMIT)
    (hsize : s.pending.size < DATAGRAM_FRAGMENT_MAX_PENDING) :
    (s.insertEntry push metadataBytes).Accounted where
  toLedger := h.toLedger.insertEntry push metadataBytes hnone
  order_sorted := h.order_sorted.insertEntry metadataBytes (h.toLedger.not_mem_order hnone) hexpires
  retained_le := hroom
  size_le := by
    show size (s.pending.insert push.id _) ≤ _
    rw [size_insert_of_none hnone]
    exact hsize
  filled id entry hentry := by
    rcases lookup_insert_cases hentry with ⟨-, rfl⟩ | ⟨-, hentry⟩
    · simpa [newEntry, countP_replicate] using hcount
    · exact h.filled id entry hentry

theorem Accounted.evictOldest (h : s.Accounted) :
    ∃ s', s.evictOldest = some s' ∧ s'.Accounted ∧ s.Shrinks s' ∧
      s'.pending.size < DATAGRAM_FRAGMENT_MAX_PENDING := by
  unfold DatagramFragments.evictOldest
  split
  · next hfull =>
    -- a full cache has an oldest entry
    obtain ⟨oldest, hhead⟩ : ∃ oldest, s.order.head? = some oldest := by
      cases horder : s.order with
      | cons oldest rest => exact ⟨oldest, rfl⟩
      | nil =>
        have hentries : s.pending.entries = [] := by
          refine eq_nil_iff_forall_not_mem.mpr fun entry hentry => ?_
          have hmem : entry.1 ∈ s.order :=
            (h.mem_order entry.1).mpr ⟨entry.2, mem_lookup_iff.mpr hentry⟩
          simp [horder] at hmem
        simp [KeyedMap.size, hentries, DATAGRAM_FRAGMENT_MAX_PENDING] at hfull
    obtain ⟨entry, hentry⟩ := h.toLedger.lookup_of_mem (mem_of_head? hhead)
    refine ⟨s.without oldest, by simp [hhead, h.toLedger.discard_eq], h.without oldest,
      h.toLedger.shrinks_without oldest, ?_⟩
    have hsize := size_erase hentry
    show size (s.pending.erase oldest) < _
    omega
  · next hroom =>
    exact ⟨s, rfl, h, .refl s, lt_of_le_of_ne h.size_le hroom⟩

theorem Accounted.admitFragment (h : s.Accounted)
    (hindex : push.index.toNat < push.count.toNat) (hrefuses : s.refuses push = some false)
    (hcharge : s.metadataBytes push + push.payload.length ≤ RETAINED_BYTES_LIMIT - s.retainedBytes)
    (htime : s.ExpiresBy (push.nowMs + ASSEMBLY_LIFETIME_MS)) :
    ∃ packet s', s.admitFragment push = some (packet, s') ∧ s'.Accounted ∧
      s'.ExpiresBy (push.nowMs + ASSEMBLY_LIFETIME_MS) := by
  have hretained := h.retained_le
  unfold DatagramFragments.admitFragment
  cases hentry : s.pending.lookup push.id with
  | some entry =>
    have hpart : entry.parts[push.index.toNat]? = some none := by
      simp only [refuses, hentry] at hrefuses
      split at hrefuses
      · contradiction
      · cases hget : entry.parts[push.index.toNat]? with
        | none => simp [hget] at hrefuses
        | some part => cases part <;> simp_all
    have hroom : s.retainedBytes + push.payload.length ≤ RETAINED_BYTES_LIMIT := by omega
    simpa using h.addPart hentry hpart hroom htime
  | none =>
    obtain ⟨evicted, hevict, haccounted, hshrinks, hsize⟩ := h.evictOldest
    simp only [isSome_none, Bool.false_eq_true, if_false, hevict, bind_eq_bind, bind_some]
    split
    · exact ⟨none, evicted, rfl, haccounted, htime.shrinks hshrinks⟩
    have hnone : evicted.pending.lookup push.id = none := by
      cases hfound : evicted.pending.lookup push.id with
      | none => rfl
      | some found =>
        have hstill := hshrinks.lookup push.id found hfound
        rw [hentry] at hstill
        contradiction
    have hless := hshrinks.retained
    have hinserted : (evicted.insertEntry push (s.metadataBytes push)).Accounted :=
      haccounted.insertEntry (by omega) hnone (htime.shrinks hshrinks) (by omega) hsize
    refine hinserted.addPart (lookup_insert _) ?_ ?_ ?_
    · simp [newEntry, hindex]
    · show evicted.retainedBytes + s.metadataBytes push + push.payload.length ≤ _
      omega
    · intro id entry hfound
      rcases lookup_insert_cases hfound with ⟨-, rfl⟩ | ⟨-, hfound⟩
      · exact le_refl _
      · exact htime.shrinks hshrinks id entry hfound

theorem refuses_isSome
    (hindex : push.index.toNat < push.count.toNat) : ∃ refused, s.refuses push = some refused := by
  unfold refuses
  split
  · exact ⟨_, rfl⟩
  next entry _ =>
  split
  · exact ⟨_, rfl⟩
  · next hcount =>
    have hlt : push.index.toNat < entry.parts.length := by omega
    simp [getElem?_eq_getElem hlt]

theorem Accounted.pushFragment (h : s.Accounted)
    (hnow : s.ExpiresBy (push.nowMs + ASSEMBLY_LIFETIME_MS)) :
    ∃ packet s', s.pushFragment push = some (packet, s') ∧ s'.Accounted ∧
      s'.ExpiresBy (push.nowMs + ASSEMBLY_LIFETIME_MS) := by
  unfold DatagramFragments.pushFragment
  split
  · exact ⟨none, s, rfl, h, hnow⟩
  next hvalid =>
  have hindex : push.index.toNat < push.count.toNat := by
    rcases not_or.mp hvalid with ⟨-, hless⟩
    exact UInt8.lt_iff_toNat_lt.mp (by simpa using hless)
  obtain ⟨expired, hexpire, hledger, hshrinks⟩ := h.toLedger.expire push.nowMs
  have haccounted := h.shrinks hledger hshrinks
  have hlater := hnow.shrinks hshrinks
  obtain ⟨refused, hrefuses⟩ := expired.refuses_isSome hindex
  simp only [hexpire, hrefuses, bind_eq_bind, bind_some]
  split
  · exact ⟨none, expired, rfl, haccounted, hlater⟩
  next hrefused =>
  split
  · exact ⟨none, expired, rfl, haccounted, hlater⟩
  split
  · exact ⟨none, expired.without push.id, by simp [hledger.discard_eq],
      haccounted.without push.id, hlater.shrinks (hledger.shrinks_without push.id)⟩
  · next hcharge =>
    have hfalse : refused = false := by simpa using hrefused
    exact haccounted.admitFragment hindex (hfalse ▸ hrefuses) (by omega) hlater

/-! ## Runs -/

end DatagramFragments

inductive FragmentOp where
  | push (fragment : FragmentPush)
  | expire (nowMs : Nat)
  | poll (pollMs nowMs : Nat)

def FragmentOp.nowMs : FragmentOp → Nat
  | .push fragment => fragment.nowMs
  | .expire nowMs => nowMs
  | .poll _ nowMs => nowMs

namespace DatagramFragments

variable {s : DatagramFragments}

def step (s : DatagramFragments) : FragmentOp → Option DatagramFragments
  | .push fragment => (s.pushFragment fragment).map (·.2)
  | .expire nowMs => s.expire nowMs
  | .poll pollMs nowMs => s.pollExpiry pollMs nowMs

theorem Accounted.step (h : s.Accounted) (op : FragmentOp) (hclock : time ≤ op.nowMs)
    (htime : s.ExpiresBy (time + ASSEMBLY_LIFETIME_MS)) :
    ∃ s', s.step op = some s' ∧ s'.Accounted ∧ s'.ExpiresBy (op.nowMs + ASSEMBLY_LIFETIME_MS) := by
  have hnow : s.ExpiresBy (op.nowMs + ASSEMBLY_LIFETIME_MS) :=
    fun id entry hentry => le_trans (htime id entry hentry) (by omega)
  have hexpire : ∀ nowMs, ∃ s', s.expire nowMs = some s' ∧ s'.Accounted ∧
      s'.ExpiresBy (op.nowMs + ASSEMBLY_LIFETIME_MS) := by
    intro nowMs
    obtain ⟨expired, hexpired, hledger, hshrinks⟩ := h.toLedger.expire nowMs
    exact ⟨expired, hexpired, h.shrinks hledger hshrinks, hnow.shrinks hshrinks⟩
  cases op with
  | push fragment =>
    obtain ⟨packet, s', hpush, haccounted, hlater⟩ := h.pushFragment hnow
    exact ⟨s', by simp [DatagramFragments.step, hpush], haccounted, hlater⟩
  | expire nowMs => exact hexpire nowMs
  | poll pollMs nowMs =>
    simp only [DatagramFragments.step, pollExpiry]
    split
    · exact hexpire nowMs
    · exact ⟨s, rfl, h, hnow⟩

theorem Accounted.run {ops : List FragmentOp} (h : s.Accounted)
    (htime : s.ExpiresBy (time + ASSEMBLY_LIFETIME_MS))
    (hclock : (time :: ops.map FragmentOp.nowMs).Pairwise (· ≤ ·)) :
    ∃ s', ops.foldlM DatagramFragments.step s = some s' ∧ s'.Accounted := by
  induction ops generalizing s time with
  | nil => exact ⟨s, rfl, h⟩
  | cons op ops ih =>
    obtain ⟨hfirst, hrest⟩ := pairwise_cons.mp hclock
    obtain ⟨next, hstep, hnext, hlater⟩ := h.step op (hfirst _ (by simp)) htime
    obtain ⟨last, hrun, hlast⟩ := ih hnext hlater hrest
    exact ⟨last, by simp [hstep, hrun], hlast⟩

theorem new_accounted : new.Accounted where
  order_nodup := nodup_nil
  mem_order id := by simp [new]
  order_sorted := List.Pairwise.nil
  retained := rfl
  charged := rfl
  permit id entry hentry := by simp [new] at hentry
  retained_le := zero_le _
  size_le := zero_le _
  filled id entry hentry := by simp [new] at hentry

/-- In every run of the store on a clock that does not go back, with any fragments and any
answers of the governor, no call panics and the books are right after each. -/
theorem fragment_store_accounted (ops : List FragmentOp)
    (hclock : (ops.map FragmentOp.nowMs).Pairwise (· ≤ ·)) :
    ∃ s, ops.foldlM step new = some s ∧ s.Accounted := by
  have htime : new.ExpiresBy (0 + ASSEMBLY_LIFETIME_MS) := by
    intro id entry hentry
    simp [new] at hentry
  exact new_accounted.run htime (pairwise_cons.mpr ⟨fun _ _ => zero_le _, hclock⟩)

theorem fragment_store_accounted_two_packets :
    let fragment (id : UInt32) (index : UInt8) (nowMs : Nat) : FragmentOp :=
      .push ⟨id, index, 2, [1, 2, 3, 4, 5, 6, 7, 8], nowMs, true, true, true⟩
    ∃ s, [fragment 7 1 0, fragment 9 0 10, fragment 7 0 20, .expire 20000].foldlM
      step new = some s ∧ s.Accounted :=
  fragment_store_accounted _ (by decide)

end DatagramFragments

end LowerTier.Tunnel.Quic
