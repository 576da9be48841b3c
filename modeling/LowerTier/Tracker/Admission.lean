import LowerTier.Tracker.Server

/-!
# Admission of requests to the tracker

The tasks of a tracker count the requests of a second and of every source in it.  A task reads the
clock before it takes the lock, and the counters start again as soon as the second is another one
than before.  Where the seconds arrive in order the limits hold for each second; where a second
comes back, its requests are counted from zero again.
-/

namespace LowerTier.Tracker

open List ProofSupport

/-- The source whose requests are counted together: an IPv4 address, mapped or not, or the first
half of an IPv6 address. -/
def IpAddr.limited : IpAddr → IpAddr
  | .v4 address => .v4 address
  | .v6 address =>
    if address >>> 32 = 0xffff then .v4 (UInt32.ofNat address.toNat)
    else .v6 (address &&& (BitVec.allOnes 128 <<< 64))

/-- The counters of the store. -/
structure Admission where
  rateSecond : Nat
  rates : KeyedMap IpAddr Nat
  requests : Nat
  responseBytes : Nat

inductive AdmissionCall where
  | request (source : IpAddr) (now : Nat)
  | response (bytes : Nat)

structure Admitted where
  second : Nat
  source : IpAddr
deriving DecidableEq

namespace Admission

def new : Admission := ⟨0, ∅, 0, 0⟩

variable (store : Admission)

def enter (now : Nat) : Admission := if store.rateSecond ≠ now then ⟨now, ∅, 0, 0⟩ else store

def count (source : IpAddr) : Nat := (store.rates.lookup source).getD 0

def record (source : IpAddr) : Admission :=
  { store with
    rates := store.rates.insert source (store.count source + 1)
    requests := store.requests + 1 }

/-- The function `admit` of the store. -/
def admitRequest (source : IpAddr) (now : Nat) : Bool × Admission :=
  let source := source.limited
  let store := store.enter now
  if 2048 ≤ store.requests then (false, store)
  else if (store.rates.lookup source).isNone ∧ 2048 ≤ store.rates.size then (false, store)
  else if 32 ≤ store.count source then (false, store)
  else (true, store.record source)

def admitResponse (bytes : Nat) : Bool × Admission :=
  if 128 * 1024 < store.responseBytes + bytes then (false, store)
  else (true, { store with responseBytes := store.responseBytes + bytes })

/-- A call of some task, with the request that it admits. -/
def step : AdmissionCall → Admission × List Admitted
  | .request source now =>
    let (admitted, store) := store.admitRequest source now
    (store, if admitted then [⟨now, source⟩] else [])
  | .response bytes => ((store.admitResponse bytes).2, [])

/-- The second of a call is not before the one of the store. -/
def InOrder (store : Admission) (_ : List Admitted) : AdmissionCall → Prop
  | .request _ now => store.rateSecond ≤ now
  | .response _ => True

def inSecond (h : List Admitted) (second : Nat) : Nat := h.countP (·.second = second)

def fromSource (h : List Admitted) (second : Nat) (source : IpAddr) : Nat :=
  h.countP fun request => request.second = second ∧ request.source.limited = source

/-- The limits of every second. -/
def Limited (h : List Admitted) : Prop :=
  ∀ second, inSecond h second ≤ 2048 ∧ ∀ source, fromSource h second source ≤ 32

/-- The counters are those of the latest second. -/
structure Counted (store : Admission) (h : List Admitted) : Prop where
  requests : inSecond h store.rateSecond = store.requests
  rates : ∀ source, fromSource h store.rateSecond source = store.count source
  past : ∀ request ∈ h, request.second ≤ store.rateSecond
  limited : Limited h

variable {store : Admission} {h : List Admitted} {source : IpAddr} {now : Nat}

theorem Counted.enter (hcounted : store.Counted h) (horder : store.rateSecond ≤ now) :
    (store.enter now).Counted h ∧ (store.enter now).rateSecond = now := by
  unfold Admission.enter
  split_ifs with hnew
  · -- no request of a later second has been admitted yet
    have hpast : ∀ request ∈ h, ¬request.second = now := fun request hrequest hsecond =>
      hnew (horder.antisymm (hsecond ▸ hcounted.past request hrequest))
    refine ⟨⟨?_, fun source => ?_, fun request hrequest => ?_, hcounted.limited⟩, rfl⟩
    · exact countP_eq_zero.mpr fun request hrequest => by simpa using hpast request hrequest
    · exact countP_eq_zero.mpr fun request hrequest => by simp [hpast request hrequest]
    · exact (hcounted.past request hrequest).trans horder
  · exact ⟨hcounted, not_not.mp hnew⟩

theorem count_record (source other : IpAddr) :
    (store.record source).count other = store.count other + if source = other then 1 else 0 := by
  unfold count record
  by_cases hother : other = source
  · rw [hother, AList.lookup_insert, if_pos rfl]
    rfl
  · rw [AList.lookup_insert_ne hother, if_neg (Ne.symm hother)]
    rfl

theorem Counted.record (hcounted : store.Counted h) (hrequests : store.requests < 2048)
    (hcount : store.count source.limited < 32) :
    (store.record source.limited).Counted (h ++ [⟨store.rateSecond, source⟩]) := by
  have hsecond : ∀ second, inSecond (h ++ [⟨store.rateSecond, source⟩]) second =
      inSecond h second + if store.rateSecond = second then 1 else 0 := by
    simp [inSecond, countP_singleton]
  have hsource : ∀ second other, fromSource (h ++ [⟨store.rateSecond, source⟩]) second other =
      fromSource h second other +
        if store.rateSecond = second ∧ source.limited = other then 1 else 0 := by
    simp [fromSource, countP_singleton]
  refine ⟨?_, fun other => ?_, fun request hrequest => ?_, fun second => ⟨?_, fun other => ?_⟩⟩
  · rw [hsecond]
    exact congrArg₂ (· + ·) hcounted.requests (if_pos rfl)
  · rw [hsource, count_record, ← hcounted.rates]
    simp [Admission.record]
  · rcases mem_append.mp hrequest with hold | hlast
    · exact hcounted.past request hold
    · rw [mem_singleton.mp hlast]
      exact Nat.le_refl _
  · have hold := (hcounted.limited second).1
    rw [hsecond]
    split_ifs with hnow
    · rw [← hnow, hcounted.requests]
      exact hrequests
    · exact hold
  · have hold := (hcounted.limited second).2 other
    rw [hsource]
    split_ifs with hnow
    · rw [← hnow.1, ← hnow.2, hcounted.rates]
      exact hcount
    · exact hold

theorem admitRequest_cases (store : Admission) (source : IpAddr) (now : Nat) :
    store.admitRequest source now = (false, store.enter now) ∨
      (store.enter now).requests < 2048 ∧ (store.enter now).count source.limited < 32 ∧
        ((store.enter now).rates.lookup source.limited = none →
          (store.enter now).rates.size < 2048) ∧
        store.admitRequest source now = (true, (store.enter now).record source.limited) := by
  unfold admitRequest
  dsimp only
  split_ifs with hrequests hfull hcount
  · exact .inl rfl
  · exact .inl rfl
  · exact .inl rfl
  · refine .inr ⟨Nat.lt_of_not_le hrequests, Nat.lt_of_not_le hcount, fun hnone => ?_, rfl⟩
    exact Nat.lt_of_not_le fun hle => hfull ⟨by rw [hnone]; rfl, hle⟩

theorem Counted.step {call : AdmissionCall} (hcounted : store.Counted h)
    (horder : InOrder store h call) : (store.step call).1.Counted (h ++ (store.step call).2) := by
  cases call with
  | response bytes =>
    simp only [Admission.step, Admission.admitResponse, append_nil]
    split_ifs
    · exact hcounted
    · exact { hcounted with }
  | request source now =>
    obtain ⟨hentered, hsecond⟩ := hcounted.enter horder
    rw [Admission.step]
    rcases admitRequest_cases store source now with hstep | ⟨hrequests, hcount, -, hstep⟩
    · rw [hstep]
      exact (append_nil h).symm ▸ hentered
    · have hnext := hentered.record hrequests hcount
      rw [hsecond] at hnext
      rwa [hstep]

theorem size_step (hsize : store.rates.size ≤ 2048) (call : AdmissionCall) :
    (store.step call).1.rates.size ≤ 2048 := by
  cases call with
  | response bytes =>
    simp only [Admission.step, Admission.admitResponse]
    split_ifs <;> exact hsize
  | request source now =>
    have hentered : (store.enter now).rates.size ≤ 2048 := by
      unfold enter
      split_ifs
      · exact Nat.zero_le _
      · exact hsize
    rw [Admission.step]
    rcases admitRequest_cases store source now with hstep | ⟨-, -, hroom, hstep⟩
    · rwa [hstep]
    rw [hstep]
    refine KeyedMap.size_insert_le hentered ?_
    cases hlookup : (store.enter now).rates.lookup source.limited with
    | none => exact .inr (hroom hlookup)
    | some count => exact .inl rfl

/-- In every run the table of rates stays within its bound; where the seconds arrive in order, so do
the requests of each second and of each source in it. -/
theorem admission_limited (calls : List AdmissionCall) :
    (Trace.run step new calls).1.rates.size ≤ 2048 ∧
      (Trace.Always step InOrder new [] calls → Limited (Trace.run step new calls).2) := by
  refine ⟨?_, fun horder => ?_⟩
  · exact Trace.run_preserves (I := fun (store : Admission) _ => store.rates.size ≤ 2048) (h := [])
      (fun store h call hsize => size_step hsize call) (Nat.zero_le _)
  · have hinit : new.Counted [] :=
      ⟨rfl, fun _ => rfl, nofun, fun _ => ⟨Nat.zero_le _, fun _ => Nat.zero_le _⟩⟩
    have hrun := Trace.run_invariant (fun _ _ _ => Counted.step) hinit horder
    exact hrun.limited

instance (store : Admission) (h : List Admitted) : (call : AdmissionCall) →
    Decidable (InOrder store h call)
  | .request _ _ => inferInstanceAs (Decidable (_ ≤ _))
  | .response _ => .isTrue trivial

/-- A source asks 33 times in one second, and again in the next: one request is refused. -/
theorem admission_limited_two_seconds :
    (Trace.run step new (replicate 33 (.request (.v4 7) 1) ++ [.request (.v4 7) 2])).2.length = 33 ∧
      Limited (Trace.run step new (replicate 33 (.request (.v4 7) 1) ++ [.request (.v4 7) 2])).2 :=
  ⟨by decide +kernel, (admission_limited _).2 (by decide +kernel)⟩

/-- A source asks 32 times in one second, once in the next and, by a task that has read the clock
before, once more in the first: all 34 requests are admitted. -/
theorem returning_second_not_limited :
    ¬Limited (Trace.run step new
      (replicate 32 (.request (.v4 7) 1) ++ [.request (.v4 7) 2, .request (.v4 7) 1])).2 := by
  intro hlimited
  have hcount := (hlimited 1).2 (.v4 7)
  revert hcount
  decide +kernel

end Admission

end LowerTier.Tracker
