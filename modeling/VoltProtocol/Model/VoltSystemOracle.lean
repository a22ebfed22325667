import VoltProtocol.Model.OracleRef

/-! # VoltSystemOracle and the pass-through in front of it

The oracle stores a price with the start of a period and adds the interest of the period linearly in
time, up to its end. Anyone may compound once a period is over: the price of its end is stored and
the next period starts there. `OraclePassThrough` hands the price on as a decimal that is always valid.
-/

namespace VoltProtocol

/-- The storage of the oracle and its immutable rate. -/
structure VoltSystemOracle where
  oraclePrice : ℕ
  periodStartTime : ℕ
  monthlyChangeRateBasisPoints : ℕ
deriving DecidableEq, Repr

namespace VoltSystemOracle

/-- 30.42 days in seconds. -/
def TIMEFRAME : ℕ := 2628288

/-- `Constants.BASIS_POINTS_GRANULARITY` -/
def BASIS_POINTS_GRANULARITY : ℕ := 10000

variable (o : VoltSystemOracle)

def getCurrentOraclePrice (now : ℕ) : Except Revert ℕ :=
  -- interest only accrues after the start time
  if o.periodStartTime ≥ now then
    return o.oraclePrice
  else do
    let elapsed ← checkedSub now o.periodStartTime
    let timeDelta := min elapsed TIMEFRAME
    let product ← uint 256 (o.oraclePrice * o.monthlyChangeRateBasisPoints)
    let pricePercentageChange ← checkedDiv product BASIS_POINTS_GRANULARITY
    let scaled ← uint 256 (pricePercentageChange * timeDelta)
    let priceDelta ← checkedDiv scaled TIMEFRAME
    uint 256 (o.oraclePrice + priceDelta)

def compoundInterest (now : ℕ) : Except Revert VoltSystemOracle := do
  let periodEndTime ← uint 256 (o.periodStartTime + TIMEFRAME)
  require (now ≥ periodEndTime) "VoltSystemOracle: not past end time"
  let oraclePrice ← o.getCurrentOraclePrice now
  return { o with oraclePrice, periodStartTime := periodEndTime }

/-! ### The price, without overflow -/

/-- The interest of one whole period. -/
def pricePercentageChange : ℕ :=
  o.oraclePrice * o.monthlyChangeRateBasisPoints / BASIS_POINTS_GRANULARITY

/-- The price at a time, in unbounded arithmetic. -/
def price (now : ℕ) : ℕ :=
  o.oraclePrice + o.pricePercentageChange * min (now - o.periodStartTime) TIMEFRAME / TIMEFRAME

/-- The state that one more period of interest leads to. -/
def compounded : VoltSystemOracle :=
  { o with
    oraclePrice := o.oraclePrice + o.pricePercentageChange
    periodStartTime := o.periodStartTime + TIMEFRAME }

/-- Nothing overflows while interest accrues for one period. -/
def Fits : Prop :=
  o.oraclePrice * o.monthlyChangeRateBasisPoints < 2 ^ 256 ∧
    o.pricePercentageChange * TIMEFRAME < 2 ^ 256 ∧ o.compounded.oraclePrice < 2 ^ 256

instance : Decidable o.Fits := inferInstanceAs (Decidable (_ ∧ _ ∧ _))

variable {o} {now later result : ℕ} {next : VoltSystemOracle}

@[simp] theorem price_of_le (early : now ≤ o.periodStartTime) : o.price now = o.oraclePrice := by
  rw [price, Nat.sub_eq_zero_of_le early, Nat.zero_min, Nat.mul_zero, Nat.zero_div, Nat.add_zero]

/-- From the end of its period on, the price has the interest of the whole period. -/
theorem price_of_past (past : o.periodStartTime + TIMEFRAME ≤ now) :
    o.price now = o.compounded.oraclePrice := by
  rw [price, min_eq_right (by omega), Nat.mul_div_cancel _ (by decide), compounded]

theorem price_mono (order : now ≤ later) : o.price now ≤ o.price later := by
  have elapsed : now - o.periodStartTime ≤ later - o.periodStartTime := by omega
  have delta := min_le_min_right TIMEFRAME elapsed
  apply Nat.add_le_add_left
  exact Nat.div_le_div_right (Nat.mul_le_mul_left _ delta)

theorem oraclePrice_le_price : o.oraclePrice ≤ o.price now := Nat.le_add_right ..

theorem price_le_compounded : o.price now ≤ o.compounded.oraclePrice := by
  rw [← price_of_past (le_max_left (o.periodStartTime + TIMEFRAME) now)]
  exact price_mono (le_max_right ..)

theorem getCurrentOraclePrice_spec (success : o.getCurrentOraclePrice now = .ok result) :
    result = o.price now := by
  rw [getCurrentOraclePrice] at success
  split_ifs at success with early
  · rw [price_of_le early]
    exact (pure_eq_ok.mp success).symm
  · simp only [bind_eq_ok, checkedSub_eq_ok, uint_eq_ok, checkedDiv_eq_ok] at success
    obtain ⟨_, ⟨-, rfl⟩, _, ⟨-, rfl⟩, _, ⟨-, rfl⟩, _, ⟨-, rfl⟩, _, ⟨-, rfl⟩, -, rfl⟩ := success
    rfl

theorem getCurrentOraclePrice_of_fits (fits : o.Fits) : o.getCurrentOraclePrice now = .ok (o.price now) := by
  obtain ⟨product, scaled, sum⟩ := fits
  rw [getCurrentOraclePrice]
  split_ifs with early
  · rw [price_of_le early]
    rfl
  · have delta : o.pricePercentageChange * min (now - o.periodStartTime) TIMEFRAME < 2 ^ 256 :=
      (Nat.mul_le_mul_left _ (min_le_right ..)).trans_lt scaled
    have within : o.price now < 2 ^ 256 := price_le_compounded.trans_lt sum
    simp only [bind_eq_ok, checkedSub_eq_ok, uint_eq_ok, checkedDiv_eq_ok]
    exact ⟨_, ⟨by omega, rfl⟩, _, ⟨product, rfl⟩, _, ⟨by decide, rfl⟩, _, ⟨delta, rfl⟩, _,
      ⟨by decide, rfl⟩, within, rfl⟩

/-- Compounding needs the period to be over and stores what it leads to, whenever it is called. -/
theorem compoundInterest_spec (success : o.compoundInterest now = .ok next) :
    o.periodStartTime + TIMEFRAME ≤ now ∧ next = o.compounded := by
  simp only [compoundInterest, bind_eq_ok, uint_eq_ok, require_eq_ok, pure_eq_ok] at success
  obtain ⟨_, ⟨-, rfl⟩, _, past, current, read, rfl⟩ := success
  refine ⟨past, ?_⟩
  rw [getCurrentOraclePrice_spec read, price_of_past past]
  rfl

theorem compoundInterest_of_fits (fits : o.Fits) (range : now < 2 ^ 256)
    (past : o.periodStartTime + TIMEFRAME ≤ now) : o.compoundInterest now = .ok o.compounded := by
  simp only [compoundInterest, bind_eq_ok, uint_eq_ok, require_eq_ok, pure_eq_ok]
  refine ⟨_, ⟨past.trans_lt range, rfl⟩, (), past, _, getCurrentOraclePrice_of_fits fits, ?_⟩
  rw [price_of_past past]
  rfl

/-- Compounding does not lower the price at any time from which it is allowed on. -/
theorem price_le_price_compounded (past : o.periodStartTime + TIMEFRAME ≤ now) :
    o.price now ≤ o.compounded.price now := by
  rw [price_of_past past]
  exact oraclePrice_le_price

end VoltSystemOracle

/-- The pass-through, which only its owner can point to another oracle. -/
structure OraclePassThrough where
  owner : Address
  scalingPriceOracle : Address
deriving DecidableEq, Repr

namespace OraclePassThrough

variable {ω : Type} (scalingPrice : ω → Address → Option ℕ) (o : OraclePassThrough)

def getCurrentOraclePrice (w : ω) : Except Revert ℕ := external (scalingPrice w o.scalingPriceOracle)

def currPegPrice (w : ω) : Except Revert ℕ := external (scalingPrice w o.scalingPriceOracle)

def read (w : ω) : Except Revert (D256 × Bool) := do
  let currentPrice ← external (scalingPrice w o.scalingPriceOracle)
  let scaled ← Decimal.fromUint256 currentPrice
  let price ← Decimal.divUint256 scaled (10 ^ 18)
  return (price, true)

def updateScalingPriceOracle (sender newScalingPriceOracle : Address) : Except Revert OraclePassThrough := do
  require (sender = o.owner) "Ownable: caller is not the owner"
  return { o with scalingPriceOracle := newScalingPriceOracle }

variable {scalingPrice o} {w : ω} {answer : D256 × Bool}

/-- The price read is the price of the scaling oracle, as a decimal, and valid. -/
theorem read_spec (success : o.read scalingPrice w = .ok answer) :
    ∃ current, scalingPrice w o.scalingPriceOracle = some current ∧ answer = (⟨current⟩, true) := by
  simp only [read, bind_eq_ok, external_eq_ok, Decimal.fromUint256_eq_ok, Decimal.divUint256_eq_ok,
    pure_eq_ok] at success
  obtain ⟨current, priced, scaled, ⟨-, scaledIs⟩, price, ⟨-, priceIs⟩, rfl⟩ := success
  refine ⟨current, priced, ?_⟩
  have same : price.value = current := by
    rw [priceIs, scaledIs]
    exact Nat.mul_div_cancel _ (by decide)
  rw [← same]

end OraclePassThrough

end VoltProtocol
