import VoltProtocol.Soundness.FixedPrice
import VoltProtocol.Soundness.VoltPrice

/-! # The value of Volt at a PSM that inverts the Volt price

The price oracle of such a PSM is a pass-through, and the PSM trades at the inverse of the price it
reads, truncated to 18 decimals and scaled. The Volt price only rises, so what a redemption pays only
rises and what a mint pays only falls. A mint never pays more than the exact price allows; a
redemption divides by the truncated inverse and may, by as much as the truncation loses.
-/

namespace VoltProtocol.RedemptionValue

open Machine PegStabilityModule VoltPrice

variable {ω : Type}

/-- A PSM with an inverted price, whose oracle is a pass-through to a scaling price oracle. -/
structure ReadsThrough (contracts : Contracts ω) (psm : PegStabilityModule)
    (scalingPrice : ω → Address → Option ℕ) (passThrough : OraclePassThrough) : Prop where
  inverts : psm.doInvert = true
  read : ∀ w, contracts.read w psm.oracle = (passThrough.read scalingPrice w).toOption

/-- `10 ** decimals` times a price, or the price over `10 ** -decimals`. -/
def scaled (decimals : ℤ) (price : ℕ) : ℕ :=
  if decimals < 0 then price / 10 ^ (-decimals).toNat else price * 10 ^ decimals.toNat

theorem scaled_mono (decimals : ℤ) {price higher : ℕ} (order : price ≤ higher) :
    scaled decimals price ≤ scaled decimals higher := by
  rw [scaled, scaled]
  split_ifs
  · exact Nat.div_le_div_right order
  · exact Nat.mul_le_mul_right _ order

/-- The price such a PSM trades at. -/
def tradedPrice (psm : PegStabilityModule) (voltPrice : ℕ) : ℕ :=
  scaled psm.decimalsNormalizer (10 ^ 36 / voltPrice)

section Quotes

variable {contracts : Contracts ω} {psm : PegStabilityModule} {scalingPrice : ω → Address → Option ℕ}
  {passThrough : OraclePassThrough} {w : ω} {amountIn amountOut : ℕ}

theorem scale_spec {o : OracleRef} {peg price : D256} (success : o.scale peg = .ok price) :
    price.value = scaled o.decimalsNormalizer peg.value := by
  rw [OracleRef.scale] at success
  rw [scaled]
  split_ifs at success ⊢ with negative
  · simp only [bind_eq_ok, int_eq_ok, toUint256_eq_ok, checkedPow10_eq_ok, Decimal.divUint256_eq_ok] at success
    obtain ⟨_, ⟨-, rfl⟩, exponent, exponentIs, _, ⟨-, rfl⟩, -, value⟩ := success
    have same : (-o.decimalsNormalizer).toNat = exponent := by omega
    rw [value, same]
  · simp only [bind_eq_ok, toUint256_eq_ok, checkedPow10_eq_ok, Decimal.mulUint256_eq_ok] at success
    obtain ⟨exponent, exponentIs, _, ⟨-, rfl⟩, -, value⟩ := success
    have same : o.decimalsNormalizer.toNat = exponent := by omega
    rw [value, same]

/-- The price read is the traded price of the Volt price at that moment, which is not zero. -/
theorem readOracle_spec {price : D256} (through : ReadsThrough contracts psm scalingPrice passThrough)
    (success : psm.readOracle contracts.toOracles w = .ok price) :
    ∃ voltPrice, scalingPrice w passThrough.scalingPriceOracle = some voltPrice ∧ voltPrice ≠ 0 ∧
      price.value = tradedPrice psm voltPrice := by
  simp only [OracleRef.readOracle, OracleRef.readValid, through.read, through.inverts, if_true,
    bind_eq_ok, external_eq_ok] at success
  obtain ⟨peg, ⟨answer, answered, valid⟩, inverted, inverting, scaling⟩ := success
  cases result : passThrough.read scalingPrice w with
  | error reason =>
    rw [result] at answered
    cases answered
  | ok read =>
    rw [result] at answered
    obtain rfl := Option.some.inj answered
    obtain ⟨voltPrice, priced, rfl⟩ := OraclePassThrough.read_spec result
    simp only [Bool.not_true, Bool.false_and, Bool.false_eq_true, if_false, bind_eq_ok, require_eq_ok,
      pure_eq_ok] at valid
    obtain ⟨_, -, rfl⟩ := valid
    obtain ⟨-, nonzero, value⟩ := Decimal.div_eq_ok.mp inverting
    refine ⟨voltPrice, priced, nonzero, ?_⟩
    rw [scale_spec scaling, value]
    rfl

/-- At a known Volt price, every read gives the traded price. -/
theorem reads_of_price {voltPrice : ℕ} (through : ReadsThrough contracts psm scalingPrice passThrough)
    (priced : scalingPrice w passThrough.scalingPriceOracle = some voltPrice) :
    FixedPrice.Reads contracts psm w (tradedPrice psm voltPrice) := by
  intro read reading
  obtain ⟨current, same, -, value⟩ := readOracle_spec through reading
  obtain rfl := Option.some.inj (priced.symm.trans same)
  exact value

end Quotes

/-! ### Quotes over time -/

/-- The scaling price oracle at one address. -/
def feed (address : Address) (s : State) (a : Address) : Option ℕ :=
  if a = address then s.quote.toOption else none

theorem feed_eq_some {address : Address} {s : State} {voltPrice : ℕ}
    (priced : feed address s address = some voltPrice) : voltPrice = s.oracle.price s.now := by
  rw [feed, if_pos rfl] at priced
  cases quoted : s.quote with
  | error reason =>
    rw [quoted] at priced
    cases priced
  | ok quote =>
    rw [quoted] at priced
    obtain rfl := Option.some.inj priced
    exact VoltSystemOracle.getCurrentOraclePrice_spec quoted

/-- No call lowers the price. -/
theorem price_le_of_step {s t : State} {call : Call} (stepped : step s call = .ok t) :
    s.oracle.price s.now ≤ t.oracle.price t.now := by
  cases call with
  | wait seconds =>
    obtain rfl := Except.ok.inj stepped
    exact VoltSystemOracle.price_mono (Nat.le_add_right ..)
  | compoundInterest =>
    obtain ⟨oracle, compounding, rfl⟩ := map_eq_ok.mp stepped
    obtain ⟨past, rfl⟩ := VoltSystemOracle.compoundInterest_spec compounding
    exact VoltSystemOracle.price_le_price_compounded past

/-- The price never falls, whatever calls are made and whichever fail. -/
theorem price_le_of_attempts (s : State) (calls : List Call) :
    s.oracle.price s.now ≤ (attempts step s calls).oracle.price (attempts step s calls).now := by
  refine @attempts_invariant _ _ _ _ (fun _ => True)
    (fun t : State => s.oracle.price s.now ≤ t.oracle.price t.now) _ _ ?_
    (fun _ _ => trivial) le_rfl
  intro state call next _ risen stepped
  exact risen.trans (price_le_of_step stepped)

/-- A higher Volt price is a lower traded price. -/
theorem tradedPrice_anti (psm : PegStabilityModule) {voltPrice higher : ℕ} (positive : voltPrice ≠ 0)
    (order : voltPrice ≤ higher) : tradedPrice psm higher ≤ tradedPrice psm voltPrice :=
  scaled_mono _ (Nat.div_le_div_left order (Nat.pos_of_ne_zero positive))

/-- As the Volt price rises, the price that the PSM reads falls. -/
theorem read_le_of_price_le {contracts : Contracts State} {psm : PegStabilityModule}
    {passThrough : OraclePassThrough} {s t : State} {first second : D256}
    (through : ReadsThrough contracts psm (feed passThrough.scalingPriceOracle) passThrough)
    (rises : s.oracle.price s.now ≤ t.oracle.price t.now)
    (reading : psm.readOracle contracts.toOracles s = .ok first)
    (readingLater : psm.readOracle contracts.toOracles t = .ok second) : second.value ≤ first.value := by
  obtain ⟨voltPrice, priced, positive, value⟩ := readOracle_spec through reading
  obtain ⟨voltPriceLater, pricedLater, -, valueLater⟩ := readOracle_spec through readingLater
  rw [← feed_eq_some priced, ← feed_eq_some pricedLater] at rises
  rw [value, valueLater]
  exact tradedPrice_anti psm positive rises

/-- While time passes and interest is compounded, by anyone and in any order, the Volt price and every
redeem quote never fall, and no mint quote rises. -/
theorem redemption_value_mono {contracts : Contracts State} {psm : PegStabilityModule}
    {passThrough : OraclePassThrough}
    (through : ReadsThrough contracts psm (feed passThrough.scalingPriceOracle) passThrough) (s : State)
    (calls : List Call) :
    let t := attempts step s calls
    (∀ before after, s.quote = .ok before → t.quote = .ok after → before ≤ after) ∧
    (∀ y before after, psm.getRedeemAmountOut contracts s y = .ok before →
      psm.getRedeemAmountOut contracts t y = .ok after → before ≤ after) ∧
    ∀ x before after, psm.getMintAmountOut contracts s x = .ok before →
      psm.getMintAmountOut contracts t x = .ok after → after ≤ before := by
  intro t
  have rises : s.oracle.price s.now ≤ t.oracle.price t.now := price_le_of_attempts s calls
  refine ⟨?_, ?_, ?_⟩
  · intro before after first second
    rw [VoltSystemOracle.getCurrentOraclePrice_spec first, VoltSystemOracle.getCurrentOraclePrice_spec second]
    exact rises
  · intro y before after first second
    obtain ⟨read, reading, -, rfl⟩ := getRedeemAmountOut_spec first
    obtain ⟨later, readingLater, nonzero, rfl⟩ := getRedeemAmountOut_spec second
    have falls := read_le_of_price_le through rises reading readingLater
    apply Nat.div_le_div_right
    exact Nat.div_le_div_left falls (Nat.pos_of_ne_zero nonzero)
  · intro x before after first second
    obtain ⟨read, reading, rfl⟩ := getMintAmountOut_spec first
    obtain ⟨later, readingLater, rfl⟩ := getMintAmountOut_spec second
    have falls := read_le_of_price_le through rises reading readingLater
    apply Nat.div_le_div_right
    apply Nat.div_le_div_right
    exact Nat.mul_le_mul_right _ (Nat.mul_le_mul_right _ falls)

/-- Contracts in which every oracle is the given pass-through, and no token answers. -/
def passThroughContracts (scalingPrice : ω → Address → Option ℕ) (passThrough : OraclePassThrough) :
    Contracts ω where
  read w _ := (passThrough.read scalingPrice w).toOption
  update w _ := some w
  balanceOf _ _ _ := none
  transfer _ _ _ _ _ := none
  transferFrom _ _ _ _ _ _ := none
  mint _ _ _ _ _ := none
  deposit _ _ := none

/-- A PSM without fees that inverts the price. -/
def invertingPSM (decimalsNormalizer : ℤ) : PegStabilityModule :=
  { CONTRACT_ADMIN_ROLE := .psmAdmin, paused := false,
    MAX_RATE_LIMIT_PER_SECOND := MAX_FEI_LIMIT_PER_SECOND, rateLimitPerSecond := 10 ^ 18,
    lastBufferUsedTime := 50, bufferCap := 10 ^ 21, doPartialAction := false, bufferStored := 10 ^ 21,
    oracle := 7, backupOracle := 0, decimalsNormalizer, doInvert := true, self := 100, volt := 5,
    underlyingToken := 6, surplusTarget := 8, mintFeeBasisPoints := 0, redeemFeeBasisPoints := 0,
    reservesThreshold := 1, MAX_FEE := 300, redeemPaused := false, mintPaused := false, priceBound := none }

theorem passThroughContracts_reads (scalingPrice : ω → Address → Option ℕ) (passThrough : OraclePassThrough)
    (decimalsNormalizer : ℤ) : ReadsThrough (passThroughContracts scalingPrice passThrough)
      (invertingPSM decimalsNormalizer) scalingPrice passThrough where
  inverts := rfl
  read _ := rfl

/-- Quotes for a token of six decimals, within the first period and after the second, compounded late. -/
theorem redemption_value_mono_late_calls :
    let passThrough : OraclePassThrough := ⟨1, 9⟩
    let contracts := passThroughContracts (feed 9) passThrough
    let psm := invertingPSM 12
    let start : State := ⟨1000, ⟨1050 * 10 ^ 15, 1000, 27⟩⟩
    let calls := [.wait (2 * VoltSystemOracle.TIMEFRAME + 5), .compoundInterest, .compoundInterest, .compoundInterest]
    psm.getRedeemAmountOut contracts start (10 ^ 18) = .ok 1050000 ∧
      psm.getRedeemAmountOut contracts (attempts step start calls) (10 ^ 18) = .ok 1055677 ∧ 1050000 ≤ 1055677 := by
  intro passThrough contracts psm start calls
  have first : psm.getRedeemAmountOut contracts start (10 ^ 18) = .ok 1050000 := by decide +kernel
  have second : psm.getRedeemAmountOut contracts (attempts step start calls) (10 ^ 18) = .ok 1055677 := by
    decide +kernel
  have through := passThroughContracts_reads (feed 9) passThrough 12
  have mono := @redemption_value_mono contracts psm passThrough through start calls
  exact ⟨first, second, mono.2.1 _ _ _ first second⟩

/-! ### Quotes against the exact price -/

/-- With a normalizer that is not negative, a mint never pays more than the exact Volt price allows. A
redemption never pays more than the truncated inverse of the Volt price allows, which is the exact
price when it divides `10 ** 36`. -/
theorem quotes_le_exact_price {contracts : Contracts ω} {psm : PegStabilityModule}
    {scalingPrice : ω → Address → Option ℕ} {passThrough : OraclePassThrough} {w : ω} {n voltPrice : ℕ}
    (through : ReadsThrough contracts psm scalingPrice passThrough) (normalizer : psm.decimalsNormalizer = n)
    (priced : scalingPrice w passThrough.scalingPriceOracle = some voltPrice) :
    (∀ x out, psm.getMintAmountOut contracts w x = .ok out → out * voltPrice ≤ x * 10 ^ n * 10 ^ 18) ∧
    (∀ y out, psm.getRedeemAmountOut contracts w y = .ok out →
      out * 10 ^ n * (10 ^ 36 - 10 ^ 36 % voltPrice) ≤ y * voltPrice * 10 ^ 18) ∧
    (voltPrice ∣ 10 ^ 36 → ∀ y out, psm.getRedeemAmountOut contracts w y = .ok out →
      out * 10 ^ n * 10 ^ 18 ≤ y * voltPrice) := by
  have reads := reads_of_price through priced
  have traded : tradedPrice psm voltPrice = 10 ^ 36 / voltPrice * 10 ^ n := by
    rw [tradedPrice, scaled, normalizer, if_neg (by omega), Int.toNat_natCast]
  have truncated : 10 ^ 36 / voltPrice * voltPrice = 10 ^ 36 - 10 ^ 36 % voltPrice := by
    have divided := Nat.div_add_mod' (10 ^ 36) voltPrice
    omega
  have redeemed (y out : ℕ) (quoted : psm.getRedeemAmountOut contracts w y = .ok out) :
      out * 10 ^ n * (10 ^ 36 - 10 ^ 36 % voltPrice) ≤ y * voltPrice * 10 ^ 18 := by
    have quote := FixedPrice.redeem_quote_le reads quoted
    rw [traded] at quote
    calc
      out * 10 ^ n * (10 ^ 36 - 10 ^ 36 % voltPrice)
        = 10 ^ 36 / voltPrice * 10 ^ n * out * voltPrice := by rw [← truncated]; ring
      _ ≤ Decimal.BASE * y * voltPrice := Nat.mul_le_mul_right _ quote
      _ = y * voltPrice * 10 ^ 18 := by rw [Decimal.BASE]; ring
  refine ⟨?_, redeemed, ?_⟩
  · intro x out quoted
    have quote := FixedPrice.mint_quote_le reads quoted
    rw [traded] at quote
    have inverse : 10 ^ 36 / voltPrice * voltPrice ≤ 10 ^ 36 := Nat.div_mul_le_self ..
    apply Nat.le_of_mul_le_mul_left _ (by decide : 0 < Decimal.BASE)
    calc
      Decimal.BASE * (out * voltPrice)
        = Decimal.BASE * out * voltPrice := by ring
      _ ≤ 10 ^ 36 / voltPrice * 10 ^ n * x * voltPrice := Nat.mul_le_mul_right _ quote
      _ = 10 ^ 36 / voltPrice * voltPrice * (10 ^ n * x) := by ring
      _ ≤ 10 ^ 36 * (10 ^ n * x) := Nat.mul_le_mul_right _ inverse
      _ = Decimal.BASE * (x * 10 ^ n * 10 ^ 18) := by rw [Decimal.BASE]; ring
  · intro divides y out quoted
    have bound := redeemed y out quoted
    rw [Nat.mod_eq_zero_of_dvd divides, Nat.sub_zero] at bound
    apply Nat.le_of_mul_le_mul_right _ (by norm_num : 0 < 10 ^ 18)
    calc
      out * 10 ^ n * 10 ^ 18 * 10 ^ 18 = out * 10 ^ n * 10 ^ 36 := by ring
      _ ≤ y * voltPrice * 10 ^ 18 := bound

/-- Quotes for a token of six decimals at a Volt price that divides `10 ** 36`. -/
theorem quotes_le_exact_price_six_decimals :
    let passThrough : OraclePassThrough := ⟨1, 9⟩
    let contracts := passThroughContracts (feed 9) passThrough
    let psm := invertingPSM 12
    let start : State := ⟨1000, ⟨1250 * 10 ^ 15, 1000, 27⟩⟩
    psm.getMintAmountOut contracts start 1000001 = .ok 800000800000000000 ∧
      psm.getRedeemAmountOut contracts start (10 ^ 18 + 1) = .ok 1250000 ∧
      800000800000000000 * (1250 * 10 ^ 15) ≤ 1000001 * 10 ^ 12 * 10 ^ 18 ∧
      1250000 * 10 ^ 12 * 10 ^ 18 ≤ (10 ^ 18 + 1) * (1250 * 10 ^ 15) := by
  intro passThrough contracts psm start
  have minted : psm.getMintAmountOut contracts start 1000001 = .ok 800000800000000000 := by decide +kernel
  have redeemed : psm.getRedeemAmountOut contracts start (10 ^ 18 + 1) = .ok 1250000 := by decide +kernel
  have priced : feed 9 start passThrough.scalingPriceOracle = some (1250 * 10 ^ 15) := by decide +kernel
  have through := passThroughContracts_reads (feed 9) passThrough 12
  obtain ⟨mints, -, redeems⟩ := quotes_le_exact_price through (rfl : psm.decimalsNormalizer = (12 : ℕ)) priced
  exact ⟨minted, redeemed, mints _ _ minted, redeems (by norm_num) _ _ redeemed⟩

/-- A redemption of Volt worth just under one token at the exact price of 1.05 pays a whole token. -/
theorem redeem_exceeds_exact_price :
    let passThrough : OraclePassThrough := ⟨1, 9⟩
    let contracts := passThroughContracts (feed 9) passThrough
    let psm := invertingPSM 0
    let start : State := ⟨1000, ⟨1050 * 10 ^ 15, 1000, 27⟩⟩
    ReadsThrough contracts psm (feed 9) passThrough ∧
      feed 9 start passThrough.scalingPriceOracle = some (1050 * 10 ^ 15) ∧
      psm.getRedeemAmountOut contracts start 952380952380952380 = .ok (10 ^ 18) ∧
      ¬ 10 ^ 18 * 10 ^ 0 * 10 ^ 18 ≤ 952380952380952380 * (1050 * 10 ^ 15) := by
  intro passThrough contracts psm start
  exact ⟨passThroughContracts_reads (feed 9) passThrough 0, by decide +kernel, by decide +kernel, by norm_num⟩

end VoltProtocol.RedemptionValue
