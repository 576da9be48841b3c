import LowerTier.Common.TransitBudget
import LowerTier.ProofSupport.FixedPointBucket

/-!
# The transit budget admits at its rate

The budget is a fixed-point bucket whose unit is a billion parts of a bit.  What a run
admits is bounded by the level at its start and the integral of the rate; below the
capacity the two sides are equal, so no part of a bit is lost to rounding.
-/

namespace LowerTier.Common.TransitBudget

open Nat Option ProofSupport.MachineInt
open ProofSupport.FixedPointBucket

def UNIT : Nat := 1000000000

def level (budget : TransitBudget) : Level := ⟨budget.credit, budget.remainder⟩

def value (budget : TransitBudget) : Nat := budget.level.value UNIT

/-- What holds of every budget that is built and updated from validated configurations. -/
structure Valid (budget : TransitBudget) : Prop where
  credit_le : budget.credit ≤ budget.capacity
  remainder_lt : budget.remainder < UNIT
  capacity_lt : budget.capacity < 2 ^ 67
  packet_le : MAX_TRANSIT_PACKET_BYTES * 8 ≤ budget.capacity
  rate_pos : ∀ rate, budget.rate = some rate → 0 < rate.toNat

variable {budget : TransitBudget} {rate : UInt64} {now start : Nat} {config : RelayConfig}

theorem validate_ok (hconfig : config.validate = .ok ()) :
    (∀ rate, config.transitBpsLimit = some rate → 0 < rate.toNat) ∧
      ∀ burst, config.transitBurstBytes = some burst → MAX_TRANSIT_PACKET_BYTES ≤ burst.toNat := by
  obtain ⟨limit, burst⟩ := config
  unfold RelayConfig.validate at hconfig
  constructor
  · rintro rate ⟨⟩
    by_contra hzero
    have hnot : ¬rate > 0 := fun hpos => hzero (UInt64.lt_iff_toNat_lt.mp hpos)
    dsimp only at hconfig
    rw [if_pos hnot] at hconfig
    cases hconfig
  · rintro burst ⟨⟩
    by_contra hsmall
    have hnot : ¬(limit.isSome = true ∧ burst.toNat ≥ MAX_TRANSIT_PACKET_BYTES ∧
        burst.toNat ≤ maxValue 64 / 8) := fun h => hsmall h.2.1
    cases limit with
    | none => cases hconfig
    | some rate =>
      dsimp only at hconfig
      split_ifs at hconfig
      cases hconfig

theorem capacityOf_bounds (hconfig : config.validate = .ok ()) :
    MAX_TRANSIT_PACKET_BYTES * 8 ≤ capacityOf config ∧ capacityOf config < 2 ^ 67 := by
  have hburst := (validate_ok hconfig).2
  unfold capacityOf
  cases hbytes : config.transitBurstBytes with
  | some burst =>
    have hlower := hburst burst hbytes
    have hupper := burst.toNat_lt
    dsimp only
    omega
  | none =>
    have hupper := (config.transitBpsLimit.getD 0).toNat_lt
    have hpacket : MAX_TRANSIT_PACKET_BYTES < 2 ^ 64 := by decide
    dsimp only
    omega

theorem valid_new (hconfig : config.validate = .ok ()) (now : Nat) : (new config now).Valid where
  credit_le := le_refl _
  remainder_lt := show 0 < UNIT by decide
  capacity_lt := (capacityOf_bounds hconfig).2
  packet_le := (capacityOf_bounds hconfig).1
  rate_pos := (validate_ok hconfig).1

/-! ## Refills -/

/-- What a refill adds, in parts of a bit; the product saturates only far beyond any
capacity. -/
def gained (budget : TransitBudget) (rate : UInt64) (now : Nat) : Nat :=
  min (rate.toNat * (now - budget.updated)) (maxValue 128 - budget.remainder)

theorem earned_add (rate : UInt64) {first middle last : Nat} (h : first ≤ middle)
    (h' : middle ≤ last) : rate.toNat * (last - first) =
      rate.toNat * (middle - first) + rate.toNat * (last - middle) := by
  rw [← mul_add, Nat.add_comm, Nat.sub_add_sub_cancel h' h]

theorem accrued_eq (hvalid : budget.Valid) :
    budget.accrued rate now = budget.gained rate now + budget.remainder := by
  have hremainder := hvalid.remainder_lt
  have hmax : UNIT ≤ maxValue 128 := by decide
  unfold accrued gained saturatingAdd saturatingMul
  rw [mul_comm]
  omega

theorem refill_level (hvalid : budget.Valid) (hrate : budget.rate = some rate) :
    (budget.refill now).level =
      pour UNIT budget.capacity budget.level (budget.gained rate now) := by
  have hcredit := hvalid.credit_le
  have hcapacity := hvalid.capacity_lt
  have hparts : budget.accrued rate now ≤ maxValue 128 := min_le_right _ _
  have hsum : saturatingAdd 128 budget.credit (budget.accrued rate now / 1000000000) =
      budget.credit + budget.accrued rate now / 1000000000 := by
    have hroom : 2 ^ 67 + maxValue 128 / 1000000000 ≤ maxValue 128 := by decide
    apply Nat.min_eq_left
    omega
  unfold refill
  rw [hrate]
  simp only [level, pour, hsum, ← accrued_eq hvalid, UNIT]

theorem refill_frame (budget : TransitBudget) (now : Nat) :
    (budget.refill now).rate = budget.rate ∧ (budget.refill now).capacity = budget.capacity ∧
      (budget.refill now).updated = now := by
  unfold refill
  split <;> exact ⟨rfl, rfl, rfl⟩

section

variable (hvalid : budget.Valid)
include hvalid

/-- Either the refill adds all that was earned, or it adds more than any capacity. -/
theorem gained_eq_or_large :
    budget.gained rate now = rate.toNat * (now - budget.updated) ∨
      2 ^ 67 ≤ (budget.gained rate now + budget.remainder) / UNIT := by
  by_cases hsmall : rate.toNat * (now - budget.updated) ≤ maxValue 128 - budget.remainder
  · exact .inl (min_eq_left hsmall)
  right
  have hremainder := hvalid.remainder_lt
  have hunit : UNIT ≤ maxValue 128 := by decide
  have hgained : budget.gained rate now + budget.remainder = maxValue 128 := by
    unfold gained
    omega
  rw [hgained]
  decide

theorem gained_eq_or_full (rate : UInt64) (now : Nat) :
    budget.gained rate now = rate.toNat * (now - budget.updated) ∨
      (pour UNIT budget.capacity budget.level (budget.gained rate now)).whole =
        budget.capacity := by
  rcases gained_eq_or_large hvalid with heq | hlarge
  · exact .inl heq
  · right
    apply whole_pour_eq
    exact hvalid.capacity_lt.le.trans (hlarge.trans (le_add_left _ _))

theorem Valid.refill (now : Nat) : (budget.refill now).Valid := by
  obtain ⟨hrate, hcapacity, -⟩ := budget.refill_frame now
  cases hbudget : budget.rate with
  | none =>
    have hsame : budget.refill now = { budget with updated := now } := by
      unfold TransitBudget.refill
      rw [hbudget]
    rw [hsame]
    exact { hvalid with }
  | some rate =>
    have hlevel : (budget.refill now).level = _ := refill_level hvalid hbudget
    exact {
      credit_le := hcapacity ▸ (congrArg Level.whole hlevel).trans_le whole_pour_le
      remainder_lt := (congrArg Level.part hlevel).trans_lt (part_pour_lt (by decide))
      capacity_lt := hcapacity ▸ hvalid.capacity_lt
      packet_le := hcapacity ▸ hvalid.packet_le
      rate_pos := hrate ▸ hvalid.rate_pos }

/-- A refill adds no more than what was earned since an earlier moment. -/
theorem refill_value_le {middle : Nat} (hrate : budget.rate = some rate)
    (hstart : budget.updated ≤ middle) (hmiddle : middle ≤ now) :
    (budget.refill now).value ≤ (budget.refill middle).value + rate.toNat * (now - middle) := by
  have hsplit := earned_add rate hstart hmiddle
  obtain ⟨more, hmore⟩ : ∃ more, budget.gained rate now = budget.gained rate middle + more :=
    Nat.exists_eq_add_of_le (by unfold gained; omega)
  have hmore_le : more ≤ rate.toNat * (now - middle) := by
    unfold gained at hmore
    omega
  unfold value
  rw [refill_level hvalid hrate, refill_level hvalid hrate, hmore]
  exact value_pour_add_le.trans (Nat.add_le_add_left hmore_le _)

theorem refill_updated : budget.refill budget.updated = budget := by
  have hcredit := hvalid.credit_le
  have hremainder : budget.remainder < 1000000000 := hvalid.remainder_lt
  have hcapacity := hvalid.capacity_lt
  have hmax : 2 ^ 67 ≤ maxValue 128 := by decide
  unfold refill
  split
  · next rate hrate =>
    have haccrued : budget.accrued rate budget.updated = budget.remainder := by
      rw [accrued_eq hvalid, gained, Nat.sub_self, Nat.mul_zero, Nat.zero_min, Nat.zero_add]
    simp only [haccrued, saturatingAdd, div_eq_of_lt hremainder, mod_eq_of_lt hremainder, add_zero]
    rw [min_eq_left (hcredit.trans (hcapacity.le.trans hmax)), min_eq_right hcredit]
  · rfl

end

/-! ## Steps -/

def spend (budget : TransitBudget) (bits : Nat) : TransitBudget :=
  { budget with credit := budget.credit - bits }

theorem value_spend {bits : Nat} (hbits : bits ≤ budget.credit) :
    (budget.spend bits).value + UNIT * bits = budget.value := by
  simp only [value, Level.value, level, spend]
  rw [Nat.mul_comm UNIT bits, Nat.add_right_comm, ← Nat.add_mul, Nat.sub_add_cancel hbits]

variable {bytes : Nat}

section

variable (hrate : budget.rate = some rate)
include hrate

theorem refill_rate_isNone : (budget.refill now).rate.isNone = false := by
  rw [(budget.refill_frame now).1, hrate]
  rfl

theorem consume_refused (hlarge : (budget.refill now).credit < bytes * 8) :
    budget.consume now bytes = (false, budget.refill now) := by
  simp only [consume, refill_rate_isNone hrate, Bool.false_eq_true, if_false]
  exact if_pos hlarge

theorem consume_granted (hfits : bytes * 8 ≤ (budget.refill now).credit) :
    budget.consume now bytes = (true, (budget.refill now).spend (bytes * 8)) := by
  simp only [consume, refill_rate_isNone hrate, Bool.false_eq_true, if_false]
  exact if_neg (not_lt.mpr hfits)

end

def chunk (budget : TransitBudget) (bytes : Nat) : Nat := min bytes (budget.capacity / 8 % 2 ^ 64)

def wait (rate : UInt64) (missing : Nat) : Nat :=
  (saturatingMul 128 missing UNIT + (rate.toNat - 1)) / rate.toNat

variable {event : Event}

section

variable (hrate : budget.rate = some rate)
include hrate

theorem receiveChunk_refused (hlarge : (budget.refill now).credit < budget.chunk bytes * 8) :
    budget.receiveChunk now bytes =
      ((0, min (wait rate (budget.chunk bytes * 8 - (budget.refill now).credit)) (maxValue 64)),
        budget.refill now) := by
  unfold receiveChunk
  rw [hrate]
  dsimp only
  rw [show min bytes (budget.capacity / 8 % 2 ^ 64) = budget.chunk bytes from rfl,
    consume_refused hrate hlarge]
  rfl

theorem receiveChunk_granted (hfits : budget.chunk bytes * 8 ≤ (budget.refill now).credit) :
    budget.receiveChunk now bytes =
      ((budget.chunk bytes, 0), (budget.refill now).spend (budget.chunk bytes * 8)) := by
  unfold receiveChunk
  rw [hrate]
  dsimp only
  rw [show min bytes (budget.capacity / 8 % 2 ^ 64) = budget.chunk bytes from rfl,
    consume_granted hrate hfits]
  rfl

/-- While a rate is set, a call is an update, or it refills the budget and then spends what it
admits. -/
theorem step_cases : (∃ config, event.call = .update config ∧
      budget.step event = (0, budget.update event.now config)) ∨
    ∃ bits ≤ (budget.refill event.now).credit,
      budget.step event = (bits, (budget.refill event.now).spend bits) := by
  unfold step
  cases event.call with
  | consume bytes =>
    right
    dsimp only
    rcases lt_or_ge (budget.refill event.now).credit (bytes * 8) with hlarge | hfits
    · rw [consume_refused hrate hlarge]
      exact ⟨0, zero_le _, rfl⟩
    · rw [consume_granted hrate hfits]
      exact ⟨bytes * 8, hfits, rfl⟩
  | receiveChunk bytes =>
    right
    dsimp only
    rcases lt_or_ge (budget.refill event.now).credit (budget.chunk bytes * 8) with hlarge | hfits
    · rw [receiveChunk_refused hrate hlarge]
      exact ⟨0, zero_le _, by rw [zero_mul]; rfl⟩
    · rw [receiveChunk_granted hrate hfits]
      exact ⟨budget.chunk bytes * 8, hfits, rfl⟩
  | update config => exact .inl ⟨config, rfl, rfl⟩

end

theorem step_unlimited (hrate : budget.rate = none)
    (hcall : ∀ config, event.call ≠ .update config) :
    (budget.step event).2 = budget.refill event.now ∨ (budget.step event).2 = budget := by
  unfold step
  cases hevent : event.call with
  | consume bytes =>
    left
    have hnone : (budget.refill event.now).rate.isNone = true := by
      rw [(budget.refill_frame event.now).1, hrate]
      rfl
    simp only [consume, hnone, if_true]
  | receiveChunk bytes =>
    right
    simp only [receiveChunk, hrate]
  | update config => exact absurd hevent (hcall config)

def Event.ValidConfig (event : Event) : Prop :=
  ∀ config, event.call = .update config → config.validate = .ok ()

def Event.KeepsRate (event : Event) : Prop :=
  ∀ config, event.call = .update config → config.transitBpsLimit.isSome = true

variable {events : List Event}

section

variable (hvalid : budget.Valid)
include hvalid

theorem Valid.spend (bits : Nat) : (budget.spend bits).Valid :=
  ⟨(sub_le _ _).trans hvalid.credit_le, hvalid.remainder_lt, hvalid.capacity_lt,
    hvalid.packet_le, hvalid.rate_pos⟩

theorem Valid.update
    (hconfig : config.validate = .ok ()) (now : Nat) : (budget.update now config).Valid :=
  ⟨min_le_right _ _, (hvalid.refill now).remainder_lt, (capacityOf_bounds hconfig).2,
    (capacityOf_bounds hconfig).1, (validate_ok hconfig).1⟩

theorem Valid.step (hevent : event.ValidConfig) : (budget.step event).2.Valid := by
  by_cases hupdate : ∃ config, event.call = .update config
  · obtain ⟨config, hcall⟩ := hupdate
    rw [TransitBudget.step, hcall]
    exact hvalid.update (hevent config hcall) event.now
  have hcall : ∀ config, event.call ≠ .update config := fun config h => hupdate ⟨config, h⟩
  cases hrate : budget.rate with
  | none =>
    rcases step_unlimited hrate hcall with hrefill | hsame
    · rw [hrefill]
      exact hvalid.refill event.now
    · rw [hsame]
      exact hvalid
  | some rate =>
    obtain ⟨bits, -, hstep⟩ := (step_cases hrate).resolve_left fun ⟨config, h, _⟩ => hcall config h
    rw [hstep]
    exact (hvalid.refill event.now).spend bits

theorem Valid.after
    (hevents : ∀ event ∈ events, event.ValidConfig) : (budget.after events).Valid := by
  induction events generalizing budget with
  | nil => exact hvalid
  | cons event events ih =>
    exact ih (hvalid.step (hevents event (by simp)))
      fun other hother => hevents other (by simp [hother])

end

theorem credit_update_le (budget : TransitBudget) (now : Nat) (config : RelayConfig) :
    (budget.update now config).credit ≤ (budget.refill now).credit := min_le_left _ _

theorem step_value_le (hrate : budget.rate = some rate) :
    (budget.step event).2.value + UNIT * (budget.step event).1 ≤
      (budget.refill event.now).value := by
  rcases step_cases hrate with ⟨config, -, hstep⟩ | ⟨bits, hbits, hstep⟩
  · have hcredit := mul_le_mul_right UNIT (credit_update_le budget event.now config)
    rw [hstep, mul_zero, add_zero]
    exact Nat.add_le_add_right hcredit _
  · rw [hstep]
    exact (value_spend hbits).le

theorem step_rate (hrate : budget.rate = some rate) (hevent : event.KeepsRate) :
    (∃ next, (budget.step event).2.rate = some next) ∧
      (budget.step event).2.updated = event.now := by
  obtain ⟨hkept, -, hupdated⟩ := budget.refill_frame event.now
  rcases step_cases hrate with ⟨config, hcall, hstep⟩ | ⟨bits, -, hstep⟩
  · rw [hstep]
    exact ⟨isSome_iff_exists.mp (hevent config hcall), hupdated⟩
  · rw [hstep]
    exact ⟨⟨rate, hkept.trans hrate⟩, hupdated⟩

/-! ## Windows -/

/-- A stretch of calls from a moment on, during which a rate stays set. -/
structure Window (budget : TransitBudget) (start : Nat) (events : List Event) : Prop where
  updated_le : budget.updated ≤ start
  inOrder : InOrder start events
  validConfig : ∀ event ∈ events, event.ValidConfig
  rate_set : budget.rate.isSome = true
  keepsRate : ∀ event ∈ events, event.KeepsRate

theorem Window.next (hwindow : budget.Window start (event :: events)) :
    (budget.step event).2.Window (budget.step event).2.updated events ∧
      (budget.step event).2.updated = event.now := by
  obtain ⟨rate, hrate⟩ := isSome_iff_exists.mp hwindow.rate_set
  obtain ⟨hnext, hupdated⟩ := step_rate hrate (hwindow.keepsRate event (by simp))
  refine ⟨⟨le_refl _, ?_, ?_, isSome_iff_exists.mpr hnext, ?_⟩, hupdated⟩
  · rw [hupdated]
    exact hwindow.inOrder.2
  · exact fun other hother => hwindow.validConfig other (by simp [hother])
  · exact fun other hother => hwindow.keepsRate other (by simp [hother])

/-- What a window admits comes from the level at its start and from the rate. -/
theorem Window.admitted_le (hvalid : budget.Valid) (hwindow : budget.Window start events) :
    UNIT * budget.admitted events ≤ (budget.refill start).value + budget.earned start events := by
  induction events generalizing budget start with
  | nil => exact zero_le _
  | cons event events ih =>
    obtain ⟨rate, hrate⟩ := isSome_iff_exists.mp hwindow.rate_set
    obtain ⟨hnext, hupdated⟩ := hwindow.next
    have hstep : (budget.step event).2.Valid := hvalid.step (hwindow.validConfig event (by simp))
    have hrest := ih hstep hnext
    rw [refill_updated hstep, hupdated] at hrest
    have hfirst : (budget.step event).2.value + UNIT * (budget.step event).1 ≤ _ :=
      step_value_le hrate
    have hrefill := refill_value_le hvalid hrate hwindow.updated_le hwindow.inOrder.1
    rw [admitted, earned, hrate, getD_some, mul_add]
    omega

theorem Window.admitted_lt (hvalid : budget.Valid) (hwindow : budget.Window start events) :
    UNIT * budget.admitted events < UNIT * (budget.capacity + 1) + budget.earned start events := by
  have hadmitted := hwindow.admitted_le hvalid
  have hrefill := hvalid.refill start
  have hcredit : (budget.refill start).credit ≤ budget.capacity := by
    rw [← (budget.refill_frame start).2.1]
    exact hrefill.credit_le
  have hscaled := mul_le_mul_right UNIT hcredit
  have hremainder := hrefill.remainder_lt
  have hvalue : (budget.refill start).value =
      (budget.refill start).credit * UNIT + (budget.refill start).remainder := rfl
  rw [mul_add, mul_one, mul_comm UNIT budget.capacity]
  omega

/-- No refill and no update of the run is clipped at a capacity. -/
def BelowCapacity (budget : TransitBudget) : List Event → Prop
  | [] => True
  | event :: events =>
    budget.credit + ((budget.rate.getD 0).toNat * (event.now - budget.updated) +
      budget.remainder) / UNIT ≤ budget.capacity ∧
    (∀ config, event.call = .update config →
      (budget.refill event.now).credit ≤ capacityOf config) ∧
    BelowCapacity (budget.step event).2 events

theorem refill_value_eq (hvalid : budget.Valid) (hrate : budget.rate = some rate)
    (hfits : budget.credit + (rate.toNat * (now - budget.updated) + budget.remainder) / UNIT ≤
      budget.capacity) :
    (budget.refill now).value = budget.value + rate.toNat * (now - budget.updated) := by
  have hgained : budget.gained rate now = rate.toNat * (now - budget.updated) := by
    rcases gained_eq_or_large hvalid with heq | hlarge
    · exact heq
    have hcapacity := hvalid.capacity_lt
    have hearned : (budget.gained rate now + budget.remainder) / UNIT ≤
        (rate.toNat * (now - budget.updated) + budget.remainder) / UNIT :=
      Nat.div_le_div_right (Nat.add_le_add_right (min_le_left _ _) _)
    omega
  unfold value
  rw [refill_level hvalid hrate, hgained]
  exact value_pour_eq hfits

theorem step_value_eq (hrate : budget.rate = some rate)
    (hupdate : ∀ config, event.call = .update config →
      (budget.refill event.now).credit ≤ capacityOf config) :
    (budget.step event).2.value + UNIT * (budget.step event).1 =
      (budget.refill event.now).value := by
  rcases step_cases hrate with ⟨config, hcall, hstep⟩ | ⟨bits, hbits, hstep⟩
  · have hcredit : (budget.update event.now config).credit = (budget.refill event.now).credit :=
      min_eq_left (hupdate config hcall)
    rw [hstep, mul_zero, add_zero]
    simp only [value, Level.value, level, hcredit]
    rfl
  · rw [hstep]
    exact value_spend hbits

theorem Window.admitted_eq (hvalid : budget.Valid)
    (hwindow : budget.Window budget.updated events) (hbelow : budget.BelowCapacity events) :
    (budget.after events).value + UNIT * budget.admitted events =
      budget.value + budget.earned budget.updated events := by
  induction events generalizing budget with
  | nil => rfl
  | cons event events ih =>
    obtain ⟨rate, hrate⟩ := isSome_iff_exists.mp hwindow.rate_set
    obtain ⟨hnext, hupdated⟩ := hwindow.next
    obtain ⟨hfits, hupdate, hlater⟩ := hbelow
    rw [hrate, getD_some] at hfits
    have hrest := ih (hvalid.step (hwindow.validConfig event (by simp))) hnext hlater
    have hfirst := step_value_eq hrate hupdate
    have hrefill := refill_value_eq hvalid hrate hfits
    rw [admitted, earned, hrate, getD_some, mul_add]
    rw [hupdated] at hrest
    simp only [after, List.foldl_cons] at hrest ⊢
    omega

/-! ## Delays -/

/-- With the credit earned until `later`, the budget holds `need` bits. -/
def Reaches (budget : TransitBudget) (rate : UInt64) (need later : Nat) : Prop :=
  need * UNIT ≤ budget.value + rate.toNat * (later - budget.updated)

theorem Reaches.refill {need later : Nat} (hvalid : budget.Valid)
    (hrate : budget.rate = some rate) (hneed : need ≤ budget.capacity)
    (hreach : budget.Reaches rate need later) (hstart : budget.updated ≤ now)
    (hlater : now ≤ later) : (budget.refill now).Reaches rate need later := by
  have hupdated := (budget.refill_frame now).2.2
  have hsplit := earned_add rate hstart hlater
  unfold Reaches value
  rw [hupdated, refill_level hvalid hrate]
  rcases gained_eq_or_full hvalid rate now with heq | hfull
  · apply reach_pour hneed
    rw [heq, add_assoc, ← hsplit]
    exact hreach
  · have hscaled := mul_le_mul_right UNIT (hneed.trans_eq hfull.symm)
    exact hscaled.trans ((le_add_right _ _).trans (le_add_right _ _))

theorem Reaches.credit {need later : Nat} (hvalid : budget.Valid)
    (hrate : budget.rate = some rate) (hneed : need ≤ budget.capacity)
    (hreach : budget.Reaches rate need later) : need ≤ (budget.refill later).credit := by
  have hcredit : (budget.refill later).credit =
      (pour UNIT budget.capacity budget.level (budget.gained rate later)).whole :=
    congrArg Level.whole (refill_level hvalid hrate)
  rw [hcredit]
  rcases gained_eq_or_full hvalid rate later with heq | hfull
  · apply need_le_whole (by decide) hneed
    rw [heq]
    exact hreach
  · rw [hfull]
    exact hneed

/-- Calls up to `later` that neither change the configuration nor admit anything. -/
structure Idle (budget : TransitBudget) (start later : Nat) (events : List Event) : Prop where
  inOrder : InOrder start events
  now_le : ∀ event ∈ events, event.now ≤ later
  no_update : ∀ event ∈ events, ∀ config, event.call ≠ .update config
  admitted_eq : budget.admitted events = 0

/-- What matters for a delayed request while the budget is idle. -/
structure Awaits (budget : TransitBudget) (rate : UInt64) (need later capacity : Nat) : Prop where
  valid : budget.Valid
  rate_eq : budget.rate = some rate
  capacity_eq : budget.capacity = capacity
  updated_le : budget.updated ≤ later
  reaches : budget.Reaches rate need later

theorem Awaits.idle {need later capacity : Nat} (hneed : need ≤ capacity)
    (hawaits : budget.Awaits rate need later capacity)
    (hidle : budget.Idle budget.updated later events) :
    (budget.after events).Awaits rate need later capacity := by
  induction events generalizing budget with
  | nil => exact hawaits
  | cons event events ih =>
    obtain ⟨bits, -, hstep⟩ := (step_cases hawaits.rate_eq).resolve_left fun ⟨config, h, _⟩ =>
      hidle.no_update event (by simp) config h
    have hadmitted := hidle.admitted_eq
    rw [admitted, hstep] at hadmitted
    obtain ⟨rfl, hrest⟩ := Nat.add_eq_zero_iff.mp hadmitted
    have hnext : (budget.step event).2 = budget.refill event.now := by rw [hstep]; rfl
    obtain ⟨hrate, hcapacity, hupdated⟩ := budget.refill_frame event.now
    have hlater := hidle.now_le event (by simp)
    have hreaches := hawaits.reaches.refill hawaits.valid hawaits.rate_eq
      (hneed.trans_eq hawaits.capacity_eq.symm) hidle.inOrder.1 hlater
    rw [after, List.foldl_cons, hnext]
    apply ih
    · exact ⟨hawaits.valid.refill event.now, hrate.trans hawaits.rate_eq,
        hcapacity.trans hawaits.capacity_eq, hupdated.trans_le hlater, hreaches⟩
    · refine ⟨?_, ?_, ?_, hrest⟩
      · rw [hupdated]
        exact hidle.inOrder.2
      · exact fun other hother => hidle.now_le other (by simp [hother])
      · exact fun other hother => hidle.no_update other (by simp [hother])

theorem chunk_bounds (hvalid : budget.Valid) (hbytes : 0 < bytes) :
    0 < budget.chunk bytes ∧ budget.chunk bytes * 8 ≤ budget.capacity := by
  have hupper := hvalid.capacity_lt
  have hlower := hvalid.packet_le
  have hpacket : 0 < MAX_TRANSIT_PACKET_BYTES := by decide
  have hfits : budget.capacity / 8 < 2 ^ 64 := by omega
  unfold chunk
  omega

theorem missing_le_wait {missing : Nat} (hrate : 0 < rate.toNat) (hmissing : missing < 2 ^ 67) :
    missing * UNIT ≤ rate.toNat * wait rate missing := by
  have hexact : saturatingMul 128 missing UNIT = missing * UNIT := by
    apply Nat.min_eq_left
    have hscaled : missing * UNIT ≤ 2 ^ 67 * UNIT := mul_le_mul_right UNIT hmissing.le
    exact hscaled.trans (by decide)
  have hdivision := div_add_mod (missing * UNIT + (rate.toNat - 1)) rate.toNat
  have hmod := mod_lt (missing * UNIT + (rate.toNat - 1)) hrate
  unfold wait
  rw [hexact]
  omega

/-- A refused request is granted after its delay, unless the delay was cut at the largest
representable one. -/
theorem granted_after_delay {bytes delay later : Nat} {idle : List Event} (hvalid : budget.Valid)
    (hbytes : 0 < bytes) (hrefused : (budget.receiveChunk now bytes).1 = (0, delay))
    (hdelay : delay < maxValue 64) (hlater : now + delay ≤ later)
    (hidle : (budget.receiveChunk now bytes).2.Idle now later idle) :
    ∃ granted, 0 < granted ∧
      (((budget.receiveChunk now bytes).2.after idle).receiveChunk later bytes).1 =
        (granted, 0) := by
  obtain ⟨hpositive, hchunk⟩ := chunk_bounds hvalid hbytes
  cases hrate : budget.rate with
  | none =>
    have hall : (budget.receiveChunk now bytes).1 = (bytes, 0) := by
      simp only [receiveChunk, hrate]
    rw [hall, Prod.mk.injEq] at hrefused
    omega
  | some rate =>
    rcases lt_or_ge (budget.refill now).credit (budget.chunk bytes * 8) with hlarge | hfits
    · obtain ⟨hrate', hcapacity, hupdated⟩ := budget.refill_frame now
      rw [receiveChunk_refused hrate hlarge] at hrefused hidle ⊢
      have hwait : wait rate (budget.chunk bytes * 8 - (budget.refill now).credit) = delay := by
        have hmin := (Prod.mk.inj hrefused).2
        rcases min_choice (wait rate (budget.chunk bytes * 8 - (budget.refill now).credit))
          (maxValue 64) with hexact | hcut
        · exact hexact.symm.trans hmin
        · exact absurd (hmin.symm.trans hcut) hdelay.ne
      have hmissing := missing_le_wait (hvalid.rate_pos rate hrate)
        (show budget.chunk bytes * 8 - (budget.refill now).credit < 2 ^ 67 by
          have hupper := hvalid.capacity_lt
          omega)
      have hearned : rate.toNat * delay ≤ rate.toNat * (later - now) := mul_le_mul_left _ (by omega)
      have hreaches : (budget.refill now).Reaches rate (budget.chunk bytes * 8) later := by
        rw [hwait, Nat.sub_mul] at hmissing
        simp only [Reaches, value, Level.value, level, hupdated]
        omega
      have hawaits : (budget.refill now).Awaits rate (budget.chunk bytes * 8) later
          budget.capacity :=
        ⟨hvalid.refill now, hrate'.trans hrate, hcapacity, by omega, hreaches⟩
      have hafter := hawaits.idle hchunk (by rw [hupdated]; exact hidle)
      have hsame : ((budget.refill now).after idle).chunk bytes = budget.chunk bytes := by
        rw [chunk, chunk, hafter.capacity_eq]
      have hcredit := hafter.reaches.credit hafter.valid hafter.rate_eq
        (hchunk.trans_eq hafter.capacity_eq.symm)
      rw [← hsame] at hcredit hpositive
      exact ⟨_, hpositive, by rw [receiveChunk_granted hafter.rate_eq hcredit]⟩
    · rw [receiveChunk_granted hrate hfits, Prod.mk.injEq] at hrefused
      omega

/-! ## The budget over whole runs -/

/-- What the limiter guarantees from a state on. -/
structure AdmitsAtRate (budget : TransitBudget) : Prop where
  /-- A window admits less than one bit more than the capacity at its start and the integral
  of the rate. -/
  window : ∀ start events, budget.Window start events →
    UNIT * budget.admitted events < UNIT * (budget.capacity + 1) + budget.earned start events
  /-- Below the capacity credit, remainder and admitted bits balance exactly. -/
  exact : ∀ events, budget.Window budget.updated events → budget.BelowCapacity events →
    (budget.after events).credit * UNIT + (budget.after events).remainder +
        UNIT * budget.admitted events =
      budget.credit * UNIT + budget.remainder + budget.earned budget.updated events
  /-- An update gives no credit beyond the refill that is due. -/
  update : ∀ now config, (budget.update now config).credit ≤ (budget.refill now).credit
  /-- A request that has to wait is granted after the wait. -/
  delay : ∀ now bytes delay later idle, 0 < bytes →
    (budget.receiveChunk now bytes).1 = (0, delay) → delay < maxValue 64 →
    (budget.receiveChunk now bytes).2.Idle now later idle → now + delay ≤ later →
    ∃ granted, 0 < granted ∧
      (((budget.receiveChunk now bytes).2.after idle).receiveChunk later bytes).1 = (granted, 0)

theorem transit_budget_admits_at_rate {config : RelayConfig} (hconfig : config.validate = .ok ())
    (start : Nat) {history : List Event} (hhistory : ∀ event ∈ history, event.ValidConfig) :
    AdmitsAtRate ((new config start).after history) := by
  have hvalid := (valid_new hconfig start).after hhistory
  refine ⟨?_, ?_, ?_, ?_⟩
  · intro start events hwindow
    exact hwindow.admitted_lt hvalid
  · intro events hwindow hbelow
    exact hwindow.admitted_eq hvalid hbelow
  · intro now config
    exact credit_update_le _ now config
  · intro now bytes delay later idle hbytes hrefused hdelay hidle hlater
    exact granted_after_delay hvalid hbytes hrefused hdelay hlater hidle

theorem transit_budget_admits_at_rate_spent_burst :
    RelayConfig.validate ⟨some 8, none⟩ = .ok () ∧
      AdmitsAtRate ((new ⟨some 8, none⟩ 0).after
        [⟨0, .consume 262144⟩, ⟨5, .update ⟨some 8, none⟩⟩]) := by
  refine ⟨rfl, transit_budget_admits_at_rate rfl 0 ?_⟩
  intro event hevent config hcall
  simp only [List.mem_cons, List.not_mem_nil, or_false] at hevent
  rcases hevent with rfl | rfl
  · cases hcall
  · cases hcall
    rfl

/-- The remainder survives at a full credit, so a window can admit a part of a bit more than
the capacity and the integral of its rate; a wait of more than `u64::MAX` nanoseconds is cut, so the
request is refused again after it; an update refills; and after an update to a lower rate a request
is refused again after its wait. -/
theorem transit_budget_exceeds_capacity_and_rate :
    (let config : RelayConfig := ⟨some 1, some 262144⟩
      let budget := (new config 0).after [⟨999999999, .consume 0⟩]
      let window : List Event := [⟨999999999, .consume 262144⟩, ⟨8000000000, .consume 1⟩]
      config.validate = .ok () ∧ budget.updated = 999999999 ∧ budget.capacity = 2097152 ∧
        budget.admitted window = 2097160 ∧ budget.earned 999999999 window = 7000000001 ∧
        UNIT * budget.capacity + budget.earned 999999999 window <
          UNIT * budget.admitted window) ∧
    (let burst := 2305843009213693951
      let config : RelayConfig := ⟨some 1, some 2305843009213693951⟩
      let budget := (new config 0).after [⟨0, .consume burst⟩]
      let waiting := budget.receiveChunk 0 burst
      config.validate = .ok () ∧ waiting.1 = (0, 18446744073709551615) ∧
        (waiting.2.receiveChunk 18446744073709551615 burst).1 = (0, 18446744073709551615)) ∧
    (let budget := (new ⟨some 8, some 262144⟩ 0).after [⟨0, .consume 262144⟩]
      let waiting := budget.receiveChunk 0 1
      budget.credit < (budget.update 1000000000 ⟨some 8, some 262144⟩).credit ∧
        waiting.1 = (0, 1000000000) ∧
        ((waiting.2.update 0 ⟨some 1, some 262144⟩).receiveChunk 1000000000 1).1 =
          (0, 7000000000)) := by
  refine ⟨⟨rfl, ?_⟩, ⟨rfl, ?_⟩, ?_⟩
  · decide +kernel
  · decide +kernel
  · decide +kernel

end LowerTier.Common.TransitBudget
