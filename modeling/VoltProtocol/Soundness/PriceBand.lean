import VoltProtocol.Machine.History
import VoltProtocol.Soundness.PegStabilitySystem

/-! # Trades of a PriceBoundPSM

The floor and the ceiling are set one at a time, and each setter keeps the floor positive and below the
ceiling; the fees stay below their maximum. So whatever an oracle answers, a trade that succeeds pays
out at most what the better bound allows, and at least what the worse bound leaves after the largest fee.
-/

namespace VoltProtocol.PriceBand

open Machine PegStabilityModule PegStabilitySystem

variable {ω : Type}

/-! ### The bounds -/

section Bounds

variable {b after : PriceBound} {psm : PegStabilityModule} {price : D256} {basisPoints : ℕ}

/-- Basis points as a decimal. -/
theorem ratio_spec {result : D256} (success : Decimal.ratio basisPoints BASIS_POINTS_GRANULARITY = .ok result) :
    result.value = basisPoints * 10 ^ 14 := by
  obtain ⟨-, -, value⟩ := Decimal.ratio_eq_ok.mp success
  have split : basisPoints * Decimal.BASE = basisPoints * 10 ^ 14 * BASIS_POINTS_GRANULARITY := by
    rw [Nat.mul_assoc]
    rfl
  rw [value, split, Nat.mul_div_cancel _ (by decide)]

theorem setCeiling_spec (success : PriceBound.setCeiling b basisPoints = .ok after) :
    b.floor < basisPoints ∧ after = { b with ceiling := basisPoints } := by
  simp only [PriceBound.setCeiling, bind_eq_ok, require_eq_ok, pure_eq_ok, Decimal.greaterThan_eq_true] at success
  obtain ⟨_, -, ceiling, ceilingIs, floor, floorIs, _, order, rfl⟩ := success
  rw [ratio_spec ceilingIs, ratio_spec floorIs] at order
  exact ⟨Nat.lt_of_mul_lt_mul_right order, rfl⟩

theorem setFloor_spec (success : PriceBound.setFloor b basisPoints = .ok after) :
    0 < basisPoints ∧ basisPoints < b.ceiling ∧ after = { b with floor := basisPoints } := by
  simp only [PriceBound.setFloor, bind_eq_ok, require_eq_ok, pure_eq_ok, Decimal.lessThan_eq_true] at success
  obtain ⟨_, nonzero, floor, floorIs, ceiling, ceilingIs, _, order, rfl⟩ := success
  rw [ratio_spec ceilingIs, ratio_spec floorIs] at order
  exact ⟨Nat.pos_of_ne_zero nonzero, Nat.lt_of_mul_lt_mul_right order, rfl⟩

/-- The check before a quote passes strictly between the bounds only. -/
theorem validatePriceRange_spec (bound : psm.priceBound = some b)
    (valid : psm.validatePriceRange price = .ok ()) :
    b.floor * 10 ^ 14 < price.value ∧ price.value < b.ceiling * 10 ^ 14 := by
  simp only [validatePriceRange, bound, PriceBound.validPrice, bind_eq_ok, require_eq_ok] at valid
  obtain ⟨answer, ⟨floor, floorIs, compared⟩, passed⟩ := valid
  split_ifs at compared with above
  · simp only [bind_eq_ok, pure_eq_ok] at compared
    obtain ⟨ceiling, ceilingIs, rfl⟩ := compared
    rw [Decimal.greaterThan_eq_true, ratio_spec floorIs] at above
    rw [Decimal.lessThan_eq_true, ratio_spec ceilingIs] at passed
    exact ⟨above, passed⟩
  · obtain rfl := pure_eq_ok.mp compared
    cases passed

end Bounds

/-! ### The invariant -/

/-- A PriceBoundPSM with a positive floor below the ceiling, and fees of at most 300 basis points. -/
structure Banded (psm : PegStabilityModule) (b : PriceBound) : Prop where
  bound : psm.priceBound = some b
  positive : 0 < b.floor
  ordered : b.floor < b.ceiling
  maxFee : psm.MAX_FEE = 300
  mintFee : psm.mintFeeBasisPoints ≤ 300
  redeemFee : psm.redeemFeeBasisPoints ≤ 300

/-- A freshly deployed PriceBoundPSM, at any time and in any world. -/
def Initial (s : State ω) : Prop :=
  ∃ params, params.priceBound.isSome = true ∧ PegStabilityModule.deploy s.now params = .ok s.psm

theorem deploy_banded {now : ℕ} {p : Params} {psm : PegStabilityModule} (bounded : p.priceBound.isSome = true)
    (success : deploy now p = .ok psm) : ∃ b, Banded psm b := by
  obtain ⟨bound, given⟩ := Option.isSome_iff_exists.mp bounded
  simp only [deploy, setReservesThresholdInternal, setMintFeeInternal, setRedeemFeeInternal,
    setSurplusTargetInternal, given, PriceBound.deploy, bind_eq_ok, pure_eq_ok, map_eq_ok, require_eq_ok] at success
  obtain ⟨_, -, limiter, -, _, ⟨_, -, rfl⟩, _, ⟨_, mintFee, rfl⟩, _, ⟨_, redeemFee, rfl⟩, _, ⟨_, -, rfl⟩, _,
    ⟨capped, ceiling, floored, floor, rfl⟩, rfl⟩ := success
  obtain ⟨-, rfl⟩ := setCeiling_spec ceiling
  obtain ⟨positive, order, rfl⟩ := setFloor_spec floor
  exact ⟨_, rfl, positive, order, rfl, mintFee, redeemFee⟩

variable {contracts : Contracts ω} {s t : State ω} {call : Call ω}

/-- Every transaction keeps the invariant. -/
theorem banded_of_step (inv : ∃ b, Banded s.psm b) (stepped : step contracts s call = .ok t) :
    ∃ b, Banded t.psm b := by
  obtain ⟨b, banded⟩ := inv
  cases call with
  | wait | environment =>
    obtain rfl := Except.ok.inj stepped
    exact ⟨b, banded⟩
  | mint sender recipient amountIn minAmountOut =>
    obtain ⟨o, minting, rfl⟩ := map_eq_ok.mp stepped
    rw [State.commit, (mint_limiter minting).1]
    exact ⟨b, { banded with }⟩
  | redeem sender recipient amountFeiIn minAmountOut =>
    obtain ⟨o, redeeming, rfl⟩ := map_eq_ok.mp stepped
    obtain ⟨-, -, -, -, -, -, same, -⟩ := redeem_spec redeeming
    rw [State.commit, same]
    exact ⟨b, banded⟩
  | allocateSurplus | deposit | withdraw | withdrawERC20 =>
    obtain ⟨_, -, rfl⟩ := map_eq_ok.mp stepped
    exact ⟨b, banded⟩
  | setMintFee ctx fee =>
    simp only [step, setMintFee, setMintFeeInternal, map_eq_ok, bind_eq_ok, require_eq_ok, pure_eq_ok] at stepped
    obtain ⟨_, ⟨_, -, _, allowed, rfl⟩, rfl⟩ := stepped
    exact ⟨b, { banded with mintFee := allowed.trans banded.maxFee.le }⟩
  | setRedeemFee ctx fee =>
    simp only [step, setRedeemFee, setRedeemFeeInternal, map_eq_ok, bind_eq_ok, require_eq_ok,
      pure_eq_ok] at stepped
    obtain ⟨_, ⟨_, -, _, allowed, rfl⟩, rfl⟩ := stepped
    exact ⟨b, { banded with redeemFee := allowed.trans banded.maxFee.le }⟩
  | setReservesThreshold | setSurplusTarget =>
    simp only [step, setReservesThreshold, setReservesThresholdInternal, setSurplusTarget,
      setSurplusTargetInternal, map_eq_ok, bind_eq_ok, pure_eq_ok] at stepped
    obtain ⟨_, ⟨_, -, _, -, rfl⟩, rfl⟩ := stepped
    exact ⟨b, { banded with }⟩
  | setRedeemPaused | setMintPaused =>
    simp only [step, setRedeemPaused, setMintPaused, map_eq_ok, bind_eq_ok, pure_eq_ok] at stepped
    obtain ⟨_, ⟨_, -, rfl⟩, rfl⟩ := stepped
    exact ⟨b, { banded with }⟩
  | setOracleFloorBasisPoints ctx floor =>
    simp only [step, setOracleFloorBasisPoints, bounds, map_eq_ok, bind_eq_ok, external_eq_ok, pure_eq_ok] at stepped
    obtain ⟨_, ⟨before, found, _, -, after, set, rfl⟩, rfl⟩ := stepped
    obtain rfl := Option.some.inj (banded.bound.symm.trans found)
    obtain ⟨positive, order, rfl⟩ := setFloor_spec set
    exact ⟨_, { banded with bound := rfl, positive := positive, ordered := order }⟩
  | setOracleCeilingBasisPoints ctx ceiling =>
    simp only [step, setOracleCeilingBasisPoints, bounds, map_eq_ok, bind_eq_ok, external_eq_ok, pure_eq_ok] at stepped
    obtain ⟨_, ⟨before, found, _, -, after, set, rfl⟩, rfl⟩ := stepped
    obtain rfl := Option.some.inj (banded.bound.symm.trans found)
    obtain ⟨order, rfl⟩ := setCeiling_spec set
    exact ⟨_, { banded with bound := rfl, positive := banded.positive, ordered := order }⟩
  | setOracle | setBackupOracle | setDoInvert | setDecimalsNormalizer | setRateLimitPerSecond | setBufferCap
  | pause | unpause | setContractAdminRole =>
    obtain ⟨_, -, rfl⟩ := map_eq_ok.mp stepped
    exact ⟨b, { banded with }⟩

/-! ### Trades -/

section Quotes

variable {psm : PegStabilityModule} {b : PriceBound} {w : ω} {amountIn amountOut : ℕ}

/-- A mint quote at the price that passed the check. -/
theorem mint_quote_in_band (banded : Banded psm b)
    (quoted : psm.getMintAmountOut contracts w amountIn = .ok amountOut) :
    amountOut * 10 ^ 4 ≤ amountIn * b.ceiling ∧ amountIn * b.floor * 9700 / 10 ^ 8 ≤ amountOut := by
  obtain ⟨price, reading, out⟩ := getMintAmountOut_spec quoted
  obtain ⟨read, again, _, valid, -⟩ := by
    simpa only [getMintAmountOut, bind_eq_ok] using quoted
  obtain rfl := Except.ok.inj (reading.symm.trans again)
  obtain ⟨above, below⟩ := validatePriceRange_spec banded.bound valid
  have fee := banded.mintFee
  rw [BASIS_POINTS_GRANULARITY, Decimal.BASE] at out
  set kept := 10000 - psm.mintFeeBasisPoints
  have least : 9700 ≤ kept := by omega
  have most : kept ≤ 10000 := by omega
  constructor
  · have truncated : amountOut * 10 ^ 18 * 10000 ≤ price.value * amountIn * kept := by
      rw [out]
      exact (Nat.mul_le_mul_right _ (Nat.div_mul_le_self ..)).trans (Nat.div_mul_le_self ..)
    have scaled : amountOut * 10 ^ 4 * 10 ^ 18 ≤ amountIn * b.ceiling * 10 ^ 18 := by
      calc
        amountOut * 10 ^ 4 * 10 ^ 18 = amountOut * 10 ^ 18 * 10000 := by ring
        _ ≤ price.value * amountIn * kept := truncated
        _ ≤ b.ceiling * 10 ^ 14 * amountIn * 10000 :=
            Nat.mul_le_mul (Nat.mul_le_mul_right _ below.le) most
        _ = amountIn * b.ceiling * 10 ^ 18 := by ring
    exact Nat.le_of_mul_le_mul_right scaled (by norm_num)
  · have least : b.floor * 10 ^ 14 * amountIn * 9700 ≤ price.value * amountIn * kept :=
      Nat.mul_le_mul (Nat.mul_le_mul_right _ above.le) least
    have product : amountIn * b.floor * 9700 * 10 ^ 14 = b.floor * 10 ^ 14 * amountIn * 9700 := by ring
    have units : 10 ^ 8 * 10 ^ 14 = 10000 * 10 ^ 18 := by norm_num
    calc
      amountIn * b.floor * 9700 / 10 ^ 8
        = amountIn * b.floor * 9700 * 10 ^ 14 / (10 ^ 8 * 10 ^ 14) :=
          (Nat.mul_div_mul_right _ _ (by norm_num)).symm
      _ = b.floor * 10 ^ 14 * amountIn * 9700 / 10000 / 10 ^ 18 := by
          rw [Nat.div_div_eq_div_mul, product, units]
      _ ≤ amountOut := by
          rw [out]
          exact Nat.div_le_div_right (Nat.div_le_div_right least)

/-- A redeem quote at the price that passed the check. -/
theorem redeem_quote_in_band (banded : Banded psm b)
    (quoted : psm.getRedeemAmountOut contracts w amountIn = .ok amountOut) :
    amountOut * b.floor ≤ amountIn * 10 ^ 4 ∧
      amountIn * 9700 / 10 ^ 4 * 10 ^ 4 / b.ceiling ≤ amountOut := by
  obtain ⟨price, reading, nonzero, out⟩ := getRedeemAmountOut_spec quoted
  obtain ⟨read, again, _, valid, -⟩ := by
    simpa only [getRedeemAmountOut, bind_eq_ok] using quoted
  obtain rfl := Except.ok.inj (reading.symm.trans again)
  obtain ⟨above, below⟩ := validatePriceRange_spec banded.bound valid
  have fee := banded.redeemFee
  rw [BASIS_POINTS_GRANULARITY, Decimal.BASE] at out
  set kept := 10000 - psm.redeemFeeBasisPoints
  set charged := amountIn * kept / 10000
  have least : 9700 ≤ kept := by omega
  have most : charged * 10000 ≤ amountIn * 10000 :=
    (Nat.div_mul_le_self ..).trans (Nat.mul_le_mul_left _ (by omega))
  constructor
  · have truncated : amountOut * 10 ^ 18 * price.value ≤ charged * 10 ^ 18 * 10 ^ 18 := by
      rw [out]
      exact (Nat.mul_le_mul_right _ (Nat.div_mul_le_self ..)).trans (Nat.div_mul_le_self ..)
    have scaled : amountOut * b.floor * 10 ^ 32 ≤ amountIn * 10 ^ 4 * 10 ^ 32 := by
      calc
        amountOut * b.floor * 10 ^ 32 = amountOut * 10 ^ 18 * (b.floor * 10 ^ 14) := by ring
        _ ≤ amountOut * 10 ^ 18 * price.value := Nat.mul_le_mul_left _ above.le
        _ ≤ charged * 10 ^ 18 * 10 ^ 18 := truncated
        _ = charged * 10000 * 10 ^ 32 := by ring
        _ ≤ amountIn * 10000 * 10 ^ 32 := Nat.mul_le_mul_right _ most
        _ = amountIn * 10 ^ 4 * 10 ^ 32 := by ring
    exact Nat.le_of_mul_le_mul_right scaled (by norm_num)
  · have remains : amountIn * 9700 / 10 ^ 4 ≤ charged :=
      Nat.div_le_div_right (Nat.mul_le_mul_left _ least)
    have product : charged * 10 ^ 4 * 10 ^ 32 = charged * 10 ^ 18 * 10 ^ 18 := by ring
    have units : b.ceiling * 10 ^ 32 = b.ceiling * 10 ^ 14 * 10 ^ 18 := by ring
    calc
      amountIn * 9700 / 10 ^ 4 * 10 ^ 4 / b.ceiling
        ≤ charged * 10 ^ 4 / b.ceiling := Nat.div_le_div_right (Nat.mul_le_mul_right _ remains)
      _ = charged * 10 ^ 4 * 10 ^ 32 / (b.ceiling * 10 ^ 32) :=
          (Nat.mul_div_mul_right _ _ (by norm_num)).symm
      _ = charged * 10 ^ 18 * 10 ^ 18 / (b.ceiling * 10 ^ 14) / 10 ^ 18 := by
          rw [Nat.div_div_eq_div_mul, product, units]
      _ ≤ amountOut := by
          rw [out]
          exact Nat.div_le_div_right (Nat.div_le_div_left below.le (Nat.pos_of_ne_zero nonzero))

end Quotes

/-- In every state that a PriceBoundPSM reaches, its floor is positive and below its ceiling and its fees
are at most 300 basis points; a price that passes its check is not zero; and every trade that succeeds
pays out within the band, whatever the oracle answers. -/
theorem trades_in_band (reached : Reachable (step contracts) Initial s) :
    ∃ floor ceiling, s.psm.priceBound = some ⟨floor, ceiling⟩ ∧ 0 < floor ∧ floor < ceiling ∧
      s.psm.mintFeeBasisPoints ≤ 300 ∧ s.psm.redeemFeeBasisPoints ≤ 300 ∧
      (∀ price, s.psm.validatePriceRange price = .ok () → price.value ≠ 0) ∧
      (∀ now w sender recipient x minAmountOut o,
        s.psm.mint contracts now w sender recipient x minAmountOut = .ok o →
        o.amountOut * 10 ^ 4 ≤ x * ceiling ∧ x * floor * 9700 / 10 ^ 8 ≤ o.amountOut) ∧
      ∀ w sender recipient y minAmountOut o,
        s.psm.redeem contracts w sender recipient y minAmountOut = .ok o →
        o.amountOut * floor ≤ y * 10 ^ 4 ∧ y * 9700 / 10 ^ 4 * 10 ^ 4 / ceiling ≤ o.amountOut := by
  obtain ⟨b, banded⟩ : ∃ b, Banded s.psm b := by
    have initial (state : State ω) (fresh : Initial state) : ∃ b, Banded state.psm b := by
      obtain ⟨params, bounded, deployed⟩ := fresh
      exact deploy_banded bounded deployed
    exact reached.invariant initial fun _ _ _ inv stepped => banded_of_step inv stepped
  refine ⟨b.floor, b.ceiling, banded.bound, banded.positive, banded.ordered, banded.mintFee, banded.redeemFee,
    ?_, ?_, ?_⟩
  · intro price valid
    have above := (validatePriceRange_spec banded.bound valid).1
    omega
  · intro now w sender recipient x minAmountOut o minting
    obtain ⟨updated, paid, held, sent, -, quoted, -⟩ := mint_spec minting
    exact mint_quote_in_band banded quoted
  · intro w sender recipient y minAmountOut o redeeming
    obtain ⟨updated, paid, -, quoted, -⟩ := redeem_spec redeeming
    exact redeem_quote_in_band banded quoted

/-- Trades at the largest fees, after both bounds were moved apart. -/
theorem trades_in_band_moved_bounds :
    let governor := Context.withRoles 1 [.governor]
    let contracts := exactContracts ⟨11 * 10 ^ 17⟩
    let psm : PegStabilityModule :=
      { CONTRACT_ADMIN_ROLE := .psmAdmin, paused := false,
        MAX_RATE_LIMIT_PER_SECOND := MAX_FEI_LIMIT_PER_SECOND, rateLimitPerSecond := 10 ^ 18,
        lastBufferUsedTime := 50, bufferCap := 10 ^ 21, doPartialAction := false, bufferStored := 10 ^ 21,
        oracle := 7, backupOracle := 0, decimalsNormalizer := 0, doInvert := false, self := 100, volt := 5,
        underlyingToken := 6, surplusTarget := 8, mintFeeBasisPoints := 30, redeemFeeBasisPoints := 0,
        reservesThreshold := 1, MAX_FEE := 300, redeemPaused := false, mintPaused := false,
        priceBound := some ⟨9800, 10200⟩ }
    let world := fun token a => if token = 6 ∧ (a = 2 ∨ a = 100) ∨ token = 5 ∧ a = 2 then 10 ^ 20 else 0
    let calls := [.setOracleCeilingBasisPoints governor 12000, .setOracleFloorBasisPoints governor 9000,
      .setMintFee governor 300, .setRedeemFee governor 300]
    let s := attempts (step contracts) ⟨50, psm, world, 0⟩ calls
    s.psm.priceBound = some ⟨9000, 12000⟩ ∧
      (∃ o, s.psm.mint contracts 50 s.world 2 2 1003 0 = .ok o ∧
        o.amountOut * 10 ^ 4 ≤ 1003 * 12000 ∧ 1003 * 9000 * 9700 / 10 ^ 8 ≤ o.amountOut) ∧
      ∃ o, s.psm.redeem contracts s.world 2 2 1003 0 = .ok o ∧
        o.amountOut * 9000 ≤ 1003 * 10 ^ 4 ∧ 1003 * 9700 / 10 ^ 4 * 10 ^ 4 / 12000 ≤ o.amountOut := by
  intro governor contracts psm world calls s
  have deployed : deploy 50 ⟨100, 5, 7, 0, 0, false, 30, 0, 1, 10 ^ 18, 10 ^ 21, 6, 8, some ⟨9800, 10200⟩⟩ =
      .ok psm := by decide +kernel
  have reached : Reachable (step contracts) Initial s :=
    ⟨⟨50, psm, world, 0⟩, _, ⟨_, rfl, deployed⟩, run_succeeded _ calls⟩
  have bounds : s.psm.priceBound = some ⟨9000, 12000⟩ := by decide +kernel
  obtain ⟨floor, ceiling, bound, -, -, -, -, -, mints, redeems⟩ := trades_in_band reached
  obtain ⟨rfl, rfl⟩ := PriceBound.mk.inj (Option.some.inj (bounds.symm.trans bound))
  have minting : (s.psm.mint contracts 50 s.world 2 2 1003 0).isOk = true := by decide +kernel
  have redeeming : (s.psm.redeem contracts s.world 2 2 1003 0).isOk = true := by decide +kernel
  obtain ⟨o, minted⟩ := exists_of_isOk minting
  obtain ⟨u, redeemed⟩ := exists_of_isOk redeeming
  exact ⟨bounds, ⟨o, minted, mints _ _ _ _ _ _ _ minted⟩, u, redeemed, redeems _ _ _ _ _ _ redeemed⟩

end VoltProtocol.PriceBand
