import LowerTier.ProofSupport.MachineInt
import LowerTier.ProofSupport.Trace
import Mathlib.Algebra.GroupWithZero.Nat

/-!
# The token bucket (`common/token_bucket.rs`)

A background task refills the bucket at its ticks and callers take tokens from it.  Times are
microseconds since the bucket was made.  The product of rate and time is read as exact;
`refill` adds its whole tokens, and the part that it rounds away at a tick is lost.
-/

namespace LowerTier.Common

open ProofSupport ProofSupport.MachineInt Trace

structure BucketConfig where
  capacity : Nat
  fillRate : Nat
  capacity_le : capacity ≤ maxValue 64

structure TokenBucket (config : BucketConfig) where
  availableTokens : Nat
  lastRefillTime : Nat
  available_le : availableTokens ≤ config.capacity

namespace TokenBucket

variable {config : BucketConfig}

def new (config : BucketConfig) : TokenBucket config := ⟨config.capacity, 0, le_refl _⟩

def refill (bucket : TokenBucket config) (now : Nat) : TokenBucket config :=
  let tokensToAdd :=
    min (config.fillRate * (now - bucket.lastRefillTime) / 1000000) (maxValue 64)
  if tokensToAdd = 0 then
    { bucket with lastRefillTime := now }
  else
    { availableTokens :=
        min (saturatingAdd 64 bucket.availableTokens tokensToAdd) config.capacity
      lastRefillTime := now
      available_le := Nat.min_le_right _ _ }

def tryConsume (bucket : TokenBucket config) (tokens : Nat) : Bool × TokenBucket config :=
  if config.capacity < tokens then
    (false, bucket)
  else if bucket.availableTokens < tokens then
    (false, bucket)
  else
    (true, { bucket with
      availableTokens := bucket.availableTokens - tokens
      available_le := (Nat.sub_le _ _).trans bucket.available_le })

variable (bucket : TokenBucket config)

theorem refill_lastRefillTime (now : Nat) : (bucket.refill now).lastRefillTime = now := by
  simp only [refill]
  split <;> rfl

/-- The bounds of `u64` never show, since the capacity is below them. -/
theorem refill_availableTokens (now : Nat) :
    (bucket.refill now).availableTokens =
      min (bucket.availableTokens + config.fillRate * (now - bucket.lastRefillTime) / 1000000)
        config.capacity := by
  have hcapacity := config.capacity_le
  have havailable := bucket.available_le
  simp only [refill, apply_ite availableTokens, saturatingAdd]
  split <;> omega

theorem tryConsume_spec (tokens : Nat) :
    (bucket.tryConsume tokens).2.lastRefillTime = bucket.lastRefillTime ∧
      ((bucket.tryConsume tokens).2.availableTokens +
        if (bucket.tryConsume tokens).1 then tokens else 0) = bucket.availableTokens := by
  unfold tryConsume
  split
  · exact ⟨rfl, rfl⟩
  · split
    · exact ⟨rfl, rfl⟩
    · exact ⟨rfl, Nat.sub_add_cancel (not_lt.mp ‹_›)⟩

/-! ## Runs -/

/-- A bucket with the tokens that its refills have credited and those that were taken. -/
structure Run (config : BucketConfig) where
  bucket : TokenBucket config
  credited : Nat
  consumed : Nat

def start (bucket : TokenBucket config) : Run config := ⟨bucket, 0, 0⟩

inductive Event where
  | tick (now : Nat)
  | tryConsume (tokens : Nat)

def step (run : Run config) : Event → Run config × List Bool
  | .tick now =>
    let next := run.bucket.refill now
    ({ run with
      bucket := next
      credited := run.credited + (next.availableTokens - run.bucket.availableTokens) }, [])
  | .tryConsume tokens =>
    let (taken, next) := run.bucket.tryConsume tokens
    ({ run with
      bucket := next
      consumed := run.consumed + if taken then tokens else 0 }, [taken])

def tickTimes (events : List Event) : List Nat :=
  events.filterMap fun
    | .tick now => some now
    | .tryConsume _ => none

/-- The times from each tick to the next. -/
def gaps (last : Nat) : List Nat → List Nat
  | [] => []
  | now :: times => (now - last) :: gaps now times

/-- The tokens of a tick fit in the bucket. -/
def HasRoom (run : Run config) (_ : List Bool) : Event → Prop
  | .tick now => run.bucket.availableTokens +
      config.fillRate * (now - run.bucket.lastRefillTime) / 1000000 ≤ config.capacity
  | .tryConsume _ => True

/-- What a run takes from one state to another: `gaps` are the times between its ticks. -/
structure Accounts (before after : Run config) (gaps : List Nat) : Prop where
  time : after.bucket.lastRefillTime = before.bucket.lastRefillTime + gaps.sum
  tokens : after.bucket.availableTokens + after.consumed + before.credited =
    before.bucket.availableTokens + before.consumed + after.credited
  credited : after.credited ≤
    before.credited + (gaps.map fun gap => config.fillRate * gap / 1000000).sum

variable {run : Run config} {events : List Event}

theorem Accounts.trans {next last : Run config} {early late : List Nat}
    (hearly : Accounts run next early) (hlate : Accounts next last late) :
    Accounts run last (early ++ late) := by
  obtain ⟨htime, htokens, hcredited⟩ := hearly
  obtain ⟨htime', htokens', hcredited'⟩ := hlate
  refine ⟨?_, ?_, ?_⟩
  · rw [List.sum_append]
    omega
  · omega
  · rw [List.map_append, List.sum_append]
    omega

theorem accounts_tryConsume (run : Run config) (tokens : Nat) :
    Accounts run (step run (.tryConsume tokens)).1 [] := by
  obtain ⟨htime, htaken⟩ := run.bucket.tryConsume_spec tokens
  refine ⟨htime, ?_, le_refl _⟩
  simp only [step]
  omega

theorem accounts_tick {now : Nat} (horder : run.bucket.lastRefillTime ≤ now) :
    Accounts run (step run (.tick now)).1 [now - run.bucket.lastRefillTime] := by
  have havailable := run.bucket.refill_availableTokens now
  have hfull := run.bucket.available_le
  refine ⟨?_, ?_, ?_⟩
  · simp only [step, refill_lastRefillTime, List.sum_singleton]
    omega
  · simp only [step]
    omega
  · simp only [step, List.map_singleton, List.sum_singleton]
    omega

theorem accounts_run
    (horder : (run.bucket.lastRefillTime :: tickTimes events).Pairwise (· ≤ ·)) :
    Accounts run (Trace.run step run events).1
      (gaps run.bucket.lastRefillTime (tickTimes events)) := by
  induction events generalizing run with
  | nil => exact ⟨rfl, rfl, le_refl _⟩
  | cons event events ih =>
    cases event with
    | tryConsume tokens =>
      have hstep := accounts_tryConsume run tokens
      have htime : (step run (.tryConsume tokens)).1.bucket.lastRefillTime =
          run.bucket.lastRefillTime := hstep.time
      have hrest := @ih (step run (.tryConsume tokens)).1 (htime ▸ horder)
      rw [htime] at hrest
      exact hstep.trans hrest
    | tick now =>
      obtain ⟨hlater, hsorted⟩ := List.pairwise_cons.mp horder
      have hstep := accounts_tick (hlater now List.mem_cons_self)
      have htime : (step run (.tick now)).1.bucket.lastRefillTime = now :=
        run.bucket.refill_lastRefillTime now
      have hrest := @ih (step run (.tick now)).1 (by rw [htime]; exact hsorted)
      rw [htime] at hrest
      exact hstep.trans hrest

/-- With room for the tokens of every tick, what is credited is what the ticks round down to. -/
theorem credited_of_room {history : List Bool}
    (hroom : Trace.Always step HasRoom run history events) :
    (Trace.run step run events).1.credited = run.credited +
      ((gaps run.bucket.lastRefillTime (tickTimes events)).map fun gap =>
        config.fillRate * gap / 1000000).sum := by
  induction events generalizing run history with
  | nil => rfl
  | cons event events ih =>
    obtain ⟨hfits, hroom⟩ := hroom
    rw [Trace.run_cons]
    dsimp only
    rw [ih hroom]
    cases event with
    | tryConsume tokens =>
      have htime : (step run (.tryConsume tokens)).1.bucket.lastRefillTime =
          run.bucket.lastRefillTime := (run.bucket.tryConsume_spec tokens).1
      rw [htime]
      rfl
    | tick now =>
      have htime : (step run (.tick now)).1.bucket.lastRefillTime = now :=
        run.bucket.refill_lastRefillTime now
      have havailable := run.bucket.refill_availableTokens now
      have hcredited : (step run (.tick now)).1.credited = run.credited +
          config.fillRate * (now - run.bucket.lastRefillTime) / 1000000 := by
        simp only [HasRoom] at hfits
        simp only [step]
        omega
      rw [htime, hcredited, Nat.add_assoc]
      rfl

theorem sum_div_add_sum_mod (rate : Nat) (times : List Nat) :
    rate * times.sum = (times.map fun gap => rate * gap / 1000000).sum * 1000000 +
      (times.map fun gap => rate * gap % 1000000).sum := by
  induction times with
  | nil => simp
  | cons gap times ih =>
    have hgap := Nat.div_add_mod (rate * gap) 1000000
    simp only [List.sum_cons, List.map_cons, Nat.mul_add]
    omega

/-- A run never takes more than the capacity and the rate allow.  As long as there is room for the
tokens of every tick, the credit is within one token of the rate exactly if what is left over
between the ticks is less than one token in all, and a token is credited at all exactly if some
tick comes a token's time after the one before it. -/
theorem refills_at_rate (first : TokenBucket config) (events : List Event)
    (horder : (first.lastRefillTime :: tickTimes events).Pairwise (· ≤ ·)) :
    let run := (Trace.run step (start first) events).1
    let due := config.fillRate * (run.bucket.lastRefillTime - first.lastRefillTime)
    let gaps := gaps first.lastRefillTime (tickTimes events)
    run.consumed * 1000000 ≤ config.capacity * 1000000 + due ∧
      (Trace.Always step HasRoom (start first) [] events →
        (run.credited * 1000000 < due + 1000000 ∧ due < run.credited * 1000000 + 1000000 ↔
          (gaps.map fun gap => config.fillRate * gap % 1000000).sum < 1000000) ∧
        (0 < run.credited ↔ ∃ gap ∈ gaps, 1000000 ≤ config.fillRate * gap)) := by
  intro run due gaps
  obtain ⟨htime, htokens, hcredited⟩ : Accounts (start first) run gaps := accounts_run horder
  have hdue : due = config.fillRate * gaps.sum := by
    change config.fillRate * (run.bucket.lastRefillTime - first.lastRefillTime) = _
    rw [htime]
    exact congrArg _ (Nat.add_sub_cancel_left ..)
  have hsplit := sum_div_add_sum_mod config.fillRate gaps
  have hfull := first.available_le
  refine ⟨?_, fun hroom => ?_⟩
  · change run.bucket.availableTokens + run.consumed + 0 =
      first.availableTokens + 0 + run.credited at htokens
    change run.credited ≤ 0 + (gaps.map fun gap => config.fillRate * gap / 1000000).sum at hcredited
    omega
  · have hexact : run.credited =
        0 + (gaps.map fun gap => config.fillRate * gap / 1000000).sum := credited_of_room hroom
    refine ⟨by omega, ?_⟩
    rw [hexact, Nat.zero_add, List.sum_pos_iff_exists_pos_nat]
    simp only [List.mem_map, exists_exists_and_eq_and, Nat.div_pos_iff]
    exact exists_congr fun gap => and_congr_right fun _ => and_iff_right (by decide)

/-- A rule for fifty packets per second; half a token is due each ten milliseconds. -/
def fiftyPerSecond : BucketConfig := ⟨1, 50, by decide⟩

theorem refills_at_rate_one_token :
    let run := (Trace.run step (start (new fiftyPerSecond)) [.tryConsume 1, .tick 25000]).1
    run.credited = 1 ∧ 50 * 25000 < run.credited * 1000000 + 1000000 ∧ 0 < run.credited := by
  obtain ⟨-, hrate⟩ := refills_at_rate (new fiftyPerSecond) [.tryConsume 1, .tick 25000] (by decide)
  obtain ⟨hwithin, hever⟩ := hrate ⟨trivial, Nat.le_of_ble_eq_true rfl, trivial⟩
  exact ⟨by decide +kernel, (hwithin.mpr (by decide)).2, hever.mpr ⟨25000, by decide, by decide⟩⟩

/-- Fifty tokens are due after a second of ticks, and the bucket is as empty as before. -/
theorem never_refills : let run := (Trace.run step (start (new fiftyPerSecond))
      (.tryConsume 1 :: (List.range 100).map fun n => .tick (10000 * (n + 1)))).1
    run.bucket.availableTokens = 0 ∧ 50 * run.bucket.lastRefillTime = 50 * 1000000 := by
  decide +kernel

end TokenBucket

end LowerTier.Common
