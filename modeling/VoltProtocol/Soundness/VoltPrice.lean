import VoltProtocol.Machine.History
import VoltProtocol.Model.VoltSystemOracle

/-! # The Volt price does not depend on when interest is compounded

A call that compounds stores the price of the end of its period, however late it is made, and moves
the start of the period to that end. The state is therefore a function of the number of calls that
succeeded, that number is at most the number of whole periods that have passed, and two oracles that
are caught up agree.
-/

namespace VoltProtocol.VoltPrice

open Machine VoltSystemOracle

/-- Time passes, or somebody compounds the interest. -/
inductive Call where
  | wait (seconds : ℕ)
  | compoundInterest
deriving DecidableEq

structure State where
  now : ℕ
  oracle : VoltSystemOracle
deriving DecidableEq

def step (s : State) : Call → Except Revert State
  | .wait seconds => .ok { s with now := s.now + seconds }
  | .compoundInterest => (fun oracle => { s with oracle }) <$> s.oracle.compoundInterest s.now

/-- The price quoted in a state. -/
def State.quote (s : State) : Except Revert ℕ := s.oracle.getCurrentOraclePrice s.now

/-- The price after one period. -/
def compound (rate price : ℕ) : ℕ := price + price * rate / BASIS_POINTS_GRANULARITY

/-- The oracle after a number of periods. -/
def after (o : VoltSystemOracle) (count : ℕ) : VoltSystemOracle where
  oraclePrice := (compound o.monthlyChangeRateBasisPoints)^[count] o.oraclePrice
  periodStartTime := o.periodStartTime + count * TIMEFRAME
  monthlyChangeRateBasisPoints := o.monthlyChangeRateBasisPoints

/-- The whole periods that have passed. -/
def periods (o : VoltSystemOracle) (now : ℕ) : ℕ := (now - o.periodStartTime) / TIMEFRAME

/-- How many of the calls tried compound the interest. -/
def compoundings (s : State) (calls : List Call) : ℕ := (succeeded step s calls).count .compoundInterest

/-- `_calculateLinearInterpolation` of the tests -/
def linearInterpolation (x x1 x2 y1 y2 : ℕ) : ℕ := (x - x1) * (y2 - y1) / (x2 - x1) + y1

/-- Interest does not overflow in any of the periods up to a time. -/
def NoOverflow (o : VoltSystemOracle) (now : ℕ) : Prop :=
  now < 2 ^ 256 ∧ ∀ count ≤ periods o now, (after o count).Fits

instance (o : VoltSystemOracle) (now : ℕ) : Decidable (NoOverflow o now) :=
  inferInstanceAs (Decidable (_ ∧ _))

section Periods

variable {o : VoltSystemOracle} {now later count : ℕ}

theorem after_zero : after o 0 = o := by
  simp [after]

theorem after_succ : after o (count + 1) = (after o count).compounded := by
  simp only [after, compounded, pricePercentageChange, Function.iterate_succ_apply', compound,
    Nat.succ_mul, Nat.add_assoc]

/-- One more period has passed exactly when the current one is over. -/
theorem succ_le_periods : count + 1 ≤ periods o now ↔ (after o count).periodStartTime + TIMEFRAME ≤ now := by
  rw [periods, Nat.le_div_iff_mul_le (by decide)]
  simp only [after, TIMEFRAME]
  omega

theorem periods_mono (order : now ≤ later) : periods o now ≤ periods o later :=
  Nat.div_le_div_right (Nat.sub_le_sub_right order _)

/-- The price between the ends of two periods is the straight line between the two prices. -/
theorem price_after (current : ¬ (after o count).periodStartTime + TIMEFRAME ≤ now) : (after o count).price now =
    linearInterpolation now (after o count).periodStartTime (after o (count + 1)).periodStartTime
      (after o count).oraclePrice (after o (count + 1)).oraclePrice := by
  have within : min (now - (after o count).periodStartTime) TIMEFRAME =
      now - (after o count).periodStartTime := by omega
  rw [after_succ, linearInterpolation, compounded, Nat.add_sub_cancel_left, Nat.add_sub_cancel_left,
    price, within, Nat.mul_comm, Nat.add_comm]

end Periods

/-! ### Runs -/

/-- A run compounds as often as it says, and no more often than whole periods have passed. -/
theorem oracle_of_run {o : VoltSystemOracle} {count : ℕ} {s t : State} {calls : List Call}
    (compounded : s.oracle = after o count) (within : count ≤ periods o s.now)
    (success : run step s calls = .ok t) :
    t.oracle = after o (count + calls.count .compoundInterest) ∧
      count + calls.count .compoundInterest ≤ periods o t.now := by
  induction calls generalizing s count with
  | nil =>
    obtain rfl := run_nil_ok.mp success
    exact ⟨compounded, within⟩
  | cons call rest ih =>
    obtain ⟨middle, stepped, suffix⟩ := run_cons_ok.mp success
    cases call with
    | wait seconds =>
      obtain rfl := Except.ok.inj stepped
      have longer : count ≤ periods o (s.now + seconds) := within.trans (periods_mono (Nat.le_add_right ..))
      have waited : (Call.wait seconds :: rest).count .compoundInterest = rest.count .compoundInterest :=
        List.count_cons_of_ne (by simp)
      rw [waited]
      refine ih ?_ ?_ suffix
      · exact compounded
      · exact longer
    | compoundInterest =>
      obtain ⟨oracle, compounding, rfl⟩ := map_eq_ok.mp stepped
      rw [compounded] at compounding
      obtain ⟨past, same⟩ := compoundInterest_spec compounding
      have counted : count + (Call.compoundInterest :: rest).count .compoundInterest =
          count + 1 + rest.count .compoundInterest := by
        rw [List.count_cons_self]
        omega
      rw [counted]
      refine ih ?_ ?_ suffix
      · rw [after_succ]
        exact same
      · exact succ_le_periods.mpr past

/-- After any calls, some of which may fail, the state depends on the number of those that compounded. -/
theorem oracle_of_attempts (s : State) (calls : List Call) :
    (attempts step s calls).oracle = after s.oracle (compoundings s calls) ∧
      compoundings s calls ≤ periods s.oracle (attempts step s calls).now := by
  have ran := oracle_of_run after_zero.symm (Nat.zero_le _) (run_succeeded s calls)
  rw [Nat.zero_add] at ran
  exact ran

/-- From a state some periods behind, exactly the calls that catch up succeed, one after the other. -/
theorem catchUp {o : VoltSystemOracle} {count : ℕ} {t : State} (compounded : t.oracle = after o count)
    (within : count ≤ periods o t.now) (fits : NoOverflow o t.now) (more : ℕ) :
    (∃ u, run step t (List.replicate more .compoundInterest) = .ok u) ↔ count + more ≤ periods o t.now := by
  constructor
  · rintro ⟨u, success⟩
    have timeless (state : State) (call : Call) (next : State) (compounds : call = .compoundInterest)
        (same : state.now = t.now) (stepped : step state call = .ok next) : next.now = t.now := by
      subst compounds
      obtain ⟨oracle, -, rfl⟩ := map_eq_ok.mp stepped
      exact same
    have still : u.now = t.now := @run_invariant _ _ _ _ (· = .compoundInterest) (·.now = t.now) _ _ _
      timeless (fun _ => List.eq_of_mem_replicate) rfl success
    obtain ⟨-, bound⟩ := oracle_of_run compounded within success
    rw [still, List.count_replicate_self] at bound
    exact bound
  · intro enough
    induction more generalizing t count with
    | zero => exact ⟨t, rfl⟩
    | succ more ih =>
      have past := succ_le_periods.mp (by omega : count + 1 ≤ periods o t.now)
      have compounding := compoundInterest_of_fits (fits.2 count within) fits.1 past
      rw [← compounded] at compounding
      have next : ({ t with oracle := t.oracle.compounded } : State).oracle = after o (count + 1) := by
        rw [after_succ, ← compounded]
      have enough : count + 1 + more ≤ periods o t.now := by omega
      obtain ⟨u, rest⟩ := ih next (succ_le_periods.mpr past) fits enough
      refine ⟨u, run_cons_ok.mpr ⟨_, map_eq_ok.mpr ⟨_, ?_, rfl⟩, rest⟩⟩
      exact compounding

section Quotes

variable {o : VoltSystemOracle} {count : ℕ} {t : State}

/-- A caught-up oracle quotes the straight line between the prices of two periods. -/
theorem quote_of_caughtUp (compounded : t.oracle = after o count) (caughtUp : count = periods o t.now)
    (fits : NoOverflow o t.now) : t.quote =
      .ok (linearInterpolation t.now (after o count).periodStartTime (after o (count + 1)).periodStartTime
        (after o count).oraclePrice (after o (count + 1)).oraclePrice) := by
  have current : ¬ (after o count).periodStartTime + TIMEFRAME ≤ t.now := by
    intro past
    have later := succ_le_periods.mpr past
    omega
  rw [State.quote, compounded, getCurrentOraclePrice_of_fits (fits.2 count caughtUp.le), price_after current]

/-- At the end of a period, the quote is the price of that end, compounded already or not yet. -/
theorem quote_of_boundary {period : ℕ} (compounded : t.oracle = after o count)
    (within : count ≤ periods o t.now) (boundary : t.now = o.periodStartTime + period * TIMEFRAME)
    (called : count = period ∨ count + 1 = period) (fits : NoOverflow o t.now) :
    t.quote = .ok (after o period).oraclePrice := by
  rw [State.quote, compounded, getCurrentOraclePrice_of_fits (fits.2 count within)]
  rcases called with rfl | rfl
  · rw [price_of_le boundary.le]
  · have past : (after o count).periodStartTime + TIMEFRAME ≤ t.now := by
      simp only [boundary, after, Nat.succ_mul]
      omega
    rw [price_of_past past, after_succ]

end Quotes

/-- Whenever the calls were made and whichever failed: the state is that of as many periods as calls
succeeded; a call succeeds exactly while a whole period has not been compounded, and so do as many
calls in a row as there are such periods; a caught-up oracle quotes the straight line between two
prices; at the end of a period it quotes the price of that end before and after the call; and
two caught-up oracles agree. -/
theorem timing_irrelevant (s : State) (calls : List Call) :
    let t := attempts step s calls
    let count := compoundings s calls
    let passed := periods s.oracle t.now
    NoOverflow s.oracle t.now →
    t.oracle = after s.oracle count ∧
    ((∃ u, step t .compoundInterest = .ok u) ↔ count < passed) ∧
    (∀ more, (∃ u, run step t (List.replicate more .compoundInterest) = .ok u) ↔ more ≤ passed - count) ∧
    (count = passed → t.quote =
      .ok (linearInterpolation t.now (after s.oracle count).periodStartTime
        (after s.oracle (count + 1)).periodStartTime (after s.oracle count).oraclePrice
        (after s.oracle (count + 1)).oraclePrice)) ∧
    (∀ period, t.now = s.oracle.periodStartTime + period * TIMEFRAME →
      count = period ∨ count + 1 = period → t.quote = .ok (after s.oracle period).oraclePrice) ∧
    ∀ (other : State) (otherCalls : List Call), other.oracle = s.oracle →
      (attempts step other otherCalls).now = t.now → count = passed →
      compoundings other otherCalls = passed → (attempts step other otherCalls).quote = t.quote := by
  intro t count passed fits
  obtain ⟨compounded, within⟩ := oracle_of_attempts s calls
  have together (more : ℕ) : (∃ u, run step t (List.replicate more .compoundInterest) = .ok u) ↔
      count + more ≤ passed := catchUp compounded within fits more
  refine ⟨compounded, ?_, ?_, ?_, ?_, ?_⟩
  · have once := together 1
    simp only [List.replicate_one, run_cons_ok, run_nil_ok] at once
    rw [← Nat.succ_le_iff, Nat.succ_eq_add_one, ← once]
    constructor
    · rintro ⟨u, stepped⟩
      exact ⟨u, u, stepped, rfl⟩
    · rintro ⟨_, u, stepped, rfl⟩
      exact ⟨_, stepped⟩
  · intro more
    rw [together more]
    have bounded : count ≤ passed := within
    omega
  · intro caughtUp
    exact quote_of_caughtUp compounded caughtUp fits
  · intro period boundary called
    exact quote_of_boundary compounded within boundary called fits
  · intro other otherCalls same simultaneous caughtUp otherCaughtUp
    have otherOracle := (oracle_of_attempts other otherCalls).1
    rw [State.quote, State.quote, simultaneous, otherOracle, same, otherCaughtUp, ← caughtUp]
    exact congrArg (fun o => VoltSystemOracle.getCurrentOraclePrice o t.now) compounded.symm

/-- One oracle is compounded late and twice in a row, another one at the end of each period. -/
theorem timing_irrelevant_late_calls :
    let start : State := ⟨1000, ⟨1050 * 10 ^ 15, 1000, 27⟩⟩
    let late := [.wait TIMEFRAME, .wait (TIMEFRAME + 77), .compoundInterest, .compoundInterest, .compoundInterest]
    let early := [.wait 5, .compoundInterest, .wait (TIMEFRAME - 5), .compoundInterest, .compoundInterest,
      .wait TIMEFRAME, .compoundInterest, .wait 77]
    compoundings start late = 2 ∧ compoundings start early = 2 ∧
      (attempts step start early).quote = (attempts step start late).quote := by
  intro start late early
  have fits : NoOverflow start.oracle (attempts step start late).now := by decide +kernel
  obtain ⟨-, -, -, -, -, agree⟩ := timing_irrelevant start late fits
  have lateCaughtUp : compoundings start late = periods start.oracle (attempts step start late).now := by
    decide +kernel
  have earlyCaughtUp : compoundings start early = periods start.oracle (attempts step start late).now := by
    decide +kernel
  exact ⟨by decide +kernel, by decide +kernel,
    agree start early rfl (by decide +kernel) lateCaughtUp earlyCaughtUp⟩

end VoltProtocol.VoltPrice
