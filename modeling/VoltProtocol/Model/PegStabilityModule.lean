import VoltProtocol.ToMathlib.Ledger
import VoltProtocol.Model.OracleRef
import VoltProtocol.Model.RateLimited

/-! # PegStabilityModule, minting and redeeming VOLT at the oracle price

The PSM quotes a price, moves the underlying token one way and VOLT the other, and mints VOLT only
for what its own VOLT balance does not cover, through its rate limiter. `PriceBoundPSM` adds a floor
and a ceiling on the price and does not call the surplus target; it is the same module with a
`priceBound`. Tokens, oracles and the surplus target are a parameter that acts on a world `ω`.
-/

namespace VoltProtocol

/-- The accepted prices of PriceBoundPSM, in basis points. -/
structure PriceBound where
  floor : ℕ
  ceiling : ℕ
deriving DecidableEq, Repr

structure PegStabilityModule extends CoreRef, RateLimited, OracleRef where
  self : Address
  volt : Address
  underlyingToken : Address
  surplusTarget : Address
  mintFeeBasisPoints : ℕ
  redeemFeeBasisPoints : ℕ
  reservesThreshold : ℕ
  MAX_FEE : ℕ
  redeemPaused : Bool
  mintPaused : Bool
  priceBound : Option PriceBound
deriving DecidableEq, Repr

namespace PegStabilityModule

/-- The contracts a PSM calls. The first account of a token call is its sender; a token that
returns false is a revert, which is what SafeERC20 makes of it. -/
structure Contracts (ω : Type) extends Oracles ω where
  balanceOf : ω → (token account : Address) → Option ℕ
  transfer : ω → (token sender recipient : Address) → ℕ → Option ω
  transferFrom : ω → (token sender owner recipient : Address) → ℕ → Option ω
  mint : ω → (token sender account : Address) → ℕ → Option ω
  deposit : ω → (target : Address) → Option ω

/-- Tokens kept as one table of balances per token, for which all approvals were given, oracles that
answer one price, and a surplus target that leaves what it holds where it is. -/
def exactContracts (price : D256) : Contracts (Address → Address → ℕ) where
  read _ _ := some (price, true)
  update held _ := some held
  balanceOf held token account := some (held token account)
  transfer held token sender recipient amount :=
    if amount ≤ held token sender then some (Ledger.moveIn held token sender recipient amount) else none
  transferFrom held token _ owner recipient amount :=
    if amount ≤ held token owner then some (Ledger.moveIn held token owner recipient amount) else none
  mint held token _ account amount := some (Ledger.creditIn held token account amount)
  deposit held _ := some held

/-- What a trade leaves behind, with the amount it returns and the VOLT it had minted. -/
structure Outcome (ω : Type) where
  psm : PegStabilityModule
  world : ω
  amountOut : ℕ
  minted : ℕ

/-- `MAX_FEI_LIMIT_PER_SECOND` of RateLimitedMinter -/
def MAX_FEI_LIMIT_PER_SECOND : ℕ := 10000 * 10 ^ 18

/-- `Constants.BASIS_POINTS_GRANULARITY` -/
def BASIS_POINTS_GRANULARITY : ℕ := 10000

variable {ω : Type} (contracts : Contracts ω) (s : PegStabilityModule)

/-! ### Setters -/

/-- `_setMintFee` -/
def setMintFeeInternal (newMintFeeBasisPoints : ℕ) : Except Revert PegStabilityModule := do
  require (newMintFeeBasisPoints ≤ s.MAX_FEE) "PegStabilityModule: Mint fee exceeds max fee"
  return { s with mintFeeBasisPoints := newMintFeeBasisPoints }

/-- `_setRedeemFee` -/
def setRedeemFeeInternal (newRedeemFeeBasisPoints : ℕ) : Except Revert PegStabilityModule := do
  require (newRedeemFeeBasisPoints ≤ s.MAX_FEE) "PegStabilityModule: Redeem fee exceeds max fee"
  return { s with redeemFeeBasisPoints := newRedeemFeeBasisPoints }

/-- `_setReservesThreshold` -/
def setReservesThresholdInternal (newReservesThreshold : ℕ) : Except Revert PegStabilityModule := do
  require (newReservesThreshold > 0) "PegStabilityModule: Invalid new reserves threshold"
  return { s with reservesThreshold := newReservesThreshold }

/-- `_setSurplusTarget` -/
def setSurplusTargetInternal (newSurplusTarget : Address) : Except Revert PegStabilityModule := do
  require (newSurplusTarget ≠ 0) "PegStabilityModule: Invalid new surplus target"
  return { s with surplusTarget := newSurplusTarget }

def setMintFee (ctx : Context) (newMintFeeBasisPoints : ℕ) : Except Revert PegStabilityModule := do
  s.onlyGovernorOrAdmin ctx
  s.setMintFeeInternal newMintFeeBasisPoints

def setRedeemFee (ctx : Context) (newRedeemFeeBasisPoints : ℕ) : Except Revert PegStabilityModule := do
  s.onlyGovernorOrAdmin ctx
  s.setRedeemFeeInternal newRedeemFeeBasisPoints

def setReservesThreshold (ctx : Context) (newReservesThreshold : ℕ) :
    Except Revert PegStabilityModule := do
  s.onlyGovernorOrAdmin ctx
  s.setReservesThresholdInternal newReservesThreshold

def setSurplusTarget (ctx : Context) (newTarget : Address) : Except Revert PegStabilityModule := do
  s.onlyGovernorOrAdmin ctx
  s.setSurplusTargetInternal newTarget

/-- `pauseRedeem` and `unpauseRedeem` -/
def setRedeemPaused (ctx : Context) (redeemPaused : Bool) : Except Revert PegStabilityModule := do
  s.onlyGovernorOrGuardianOrAdmin ctx
  return { s with redeemPaused }

/-- `pauseMint` and `unpauseMint` -/
def setMintPaused (ctx : Context) (mintPaused : Bool) : Except Revert PegStabilityModule := do
  s.onlyGovernorOrGuardianOrAdmin ctx
  return { s with mintPaused }

/-- `_setCeilingBasisPoints` of PriceBoundPSM -/
def PriceBound.setCeiling (b : PriceBound) (newCeilingBasisPoints : ℕ) : Except Revert PriceBound := do
  require (newCeilingBasisPoints ≠ 0) "PegStabilityModule: invalid ceiling"
  let newCeiling ← Decimal.ratio newCeilingBasisPoints BASIS_POINTS_GRANULARITY
  let floor ← Decimal.ratio b.floor BASIS_POINTS_GRANULARITY
  require (Decimal.greaterThan newCeiling floor) "PegStabilityModule: ceiling must be greater than floor"
  return { b with ceiling := newCeilingBasisPoints }

/-- `_setFloorBasisPoints` of PriceBoundPSM -/
def PriceBound.setFloor (b : PriceBound) (newFloorBasisPoints : ℕ) : Except Revert PriceBound := do
  require (newFloorBasisPoints ≠ 0) "PegStabilityModule: invalid floor"
  let newFloor ← Decimal.ratio newFloorBasisPoints BASIS_POINTS_GRANULARITY
  let ceiling ← Decimal.ratio b.ceiling BASIS_POINTS_GRANULARITY
  require (Decimal.lessThan newFloor ceiling) "PegStabilityModule: floor must be less than ceiling"
  return { b with floor := newFloorBasisPoints }

/-- The bounds, for the functions that only PriceBoundPSM has. -/
def bounds : Except Revert PriceBound := external s.priceBound

def setOracleFloorBasisPoints (ctx : Context) (newFloorBasisPoints : ℕ) :
    Except Revert PegStabilityModule := do
  let b ← s.bounds
  s.onlyGovernorOrAdmin ctx
  let bound ← PriceBound.setFloor b newFloorBasisPoints
  return { s with priceBound := some bound }

def setOracleCeilingBasisPoints (ctx : Context) (newCeilingBasisPoints : ℕ) :
    Except Revert PegStabilityModule := do
  let b ← s.bounds
  s.onlyGovernorOrAdmin ctx
  let bound ← PriceBound.setCeiling b newCeilingBasisPoints
  return { s with priceBound := some bound }

/-! ### Quotes -/

/-- `_validPrice` of PriceBoundPSM -/
def PriceBound.validPrice (b : PriceBound) (price : D256) : Except Revert Bool := do
  let floor ← Decimal.ratio b.floor BASIS_POINTS_GRANULARITY
  if Decimal.greaterThan price floor then
    let ceiling ← Decimal.ratio b.ceiling BASIS_POINTS_GRANULARITY
    return Decimal.lessThan price ceiling
  else
    return false

/-- `_validatePriceRange`, empty except in PriceBoundPSM. -/
def validatePriceRange (price : D256) : Except Revert Unit :=
  match s.priceBound with
  | none => return ()
  | some b => do require (← PriceBound.validPrice b price) "PegStabilityModule: price out of bounds"

/-- `_getMintAmountOut` -/
def getMintAmountOut (w : ω) (amountIn : ℕ) : Except Revert ℕ := do
  let price ← s.readOracle contracts.toOracles w
  s.validatePriceRange price
  let adjustedAmountIn ← Decimal.mulUint256 price amountIn
  let kept ← checkedSub BASIS_POINTS_GRANULARITY s.mintFeeBasisPoints
  let scaled ← Decimal.mulUint256 adjustedAmountIn kept
  let charged ← Decimal.divUint256 scaled BASIS_POINTS_GRANULARITY
  Decimal.asUint256 charged

/-- `_getRedeemAmountOut` -/
def getRedeemAmountOut (w : ω) (amountFeiIn : ℕ) : Except Revert ℕ := do
  let price ← s.readOracle contracts.toOracles w
  s.validatePriceRange price
  let kept ← checkedSub BASIS_POINTS_GRANULARITY s.redeemFeeBasisPoints
  let scaled ← uint 256 (amountFeiIn * kept)
  let charged ← checkedDiv scaled BASIS_POINTS_GRANULARITY
  let adjustedAmountIn ← Decimal.fromUint256 charged
  let amountOut ← Decimal.div adjustedAmountIn price
  Decimal.asUint256 amountOut

def balance (w : ω) : Except Revert ℕ :=
  external (contracts.balanceOf w s.underlyingToken s.self)

def balanceReportedIn : Address := s.underlyingToken

def getMaxMintAmountOut (now : ℕ) (w : ω) : Except Revert ℕ := do
  let held ← external (contracts.balanceOf w s.volt s.self)
  let room ← s.buffer now
  uint 256 (held + room)

def hasSurplus (w : ω) : Except Revert Bool := do
  let held ← s.balance contracts w
  return decide (held > s.reservesThreshold)

def reservesSurplus (w : ω) : Except Revert ℤ := do
  let held ← toInt256 (← s.balance contracts w)
  let threshold ← toInt256 s.reservesThreshold
  int 256 (held - threshold)

/-! ### Moving reserves -/

/-- `_allocate`. PriceBoundPSM does not call the target. -/
def allocate (w : ω) (amount : ℕ) : Except Revert ω := do
  let sent ← external (contracts.transfer w s.underlyingToken s.self s.surplusTarget amount)
  match s.priceBound with
  | none => external (contracts.deposit sent s.surplusTarget)
  | some _ => return sent

def allocateSurplus (w : ω) : Except Revert ω := do
  let currentSurplus ← s.reservesSurplus contracts w
  require (currentSurplus > 0) "PegStabilityModule: No surplus to allocate"
  s.allocate contracts w (← toUint256 currentSurplus)

def deposit (w : ω) : Except Revert ω := do
  let currentSurplus ← s.reservesSurplus contracts w
  if currentSurplus > 0 then
    s.allocate contracts w (← toUint256 currentSurplus)
  else
    return w

def withdrawERC20 (ctx : Context) (w : ω) (token recipient : Address) (amount : ℕ) :
    Except Revert ω := do
  ctx.onlyPCVController
  external (contracts.transfer w token s.self recipient amount)

def withdraw (ctx : Context) (w : ω) (recipient : Address) (amount : ℕ) : Except Revert ω :=
  s.withdrawERC20 contracts ctx w s.underlyingToken recipient amount

/-! ### Trades -/

/-- `_mintVolt` of RateLimitedMinter and of CoreRef: what is minted is what the buffer gave. -/
def mintVolt (now : ℕ) (w : ω) (recipient : Address) (amount : ℕ) :
    Except Revert (RateLimited × ω × ℕ) := do
  let (limiter, mintAmount) ← s.depleteBuffer now amount
  if mintAmount ≠ 0 then
    let minted ← external (contracts.mint w s.volt s.self recipient mintAmount)
    return (limiter, minted, mintAmount)
  else
    return (limiter, w, 0)

/-- `_redeem` -/
def redeemInternal (w : ω) (sender recipient : Address) (amountFeiIn minAmountOut : ℕ) :
    Except Revert (Outcome ω) := do
  let updated ← s.updateOracle contracts.toOracles w
  let amountOut ← s.getRedeemAmountOut contracts updated amountFeiIn
  require (amountOut ≥ minAmountOut) "PegStabilityModule: Redeem not enough out"
  let paid ← external (contracts.transferFrom updated s.volt s.self sender s.self amountFeiIn)
  let sent ← external (contracts.transfer paid s.underlyingToken s.self recipient amountOut)
  return ⟨s, sent, amountOut, 0⟩

/-- The VOLT already held goes out first. -/
def sendHeldVolt (w : ω) (recipient : Address) (amountFeiToTransfer : ℕ) : Except Revert ω :=
  if amountFeiToTransfer ≠ 0 then
    external (contracts.transfer w s.volt s.self recipient amountFeiToTransfer)
  else
    return w

/-- `_mint` -/
def mintInternal (now : ℕ) (w : ω) (sender recipient : Address) (amountIn minAmountOut : ℕ) :
    Except Revert (Outcome ω) := do
  let updated ← s.updateOracle contracts.toOracles w
  let amountFeiOut ← s.getMintAmountOut contracts updated amountIn
  require (amountFeiOut ≥ minAmountOut) "PegStabilityModule: Mint not enough out"
  let paid ← external (contracts.transferFrom updated s.underlyingToken s.self sender s.self amountIn)
  let held ← external (contracts.balanceOf paid s.volt s.self)
  let amountFeiToTransfer := min held amountFeiOut
  let amountFeiToMint ← checkedSub amountFeiOut amountFeiToTransfer
  let sent ← s.sendHeldVolt contracts paid recipient amountFeiToTransfer
  if amountFeiToMint ≠ 0 then
    let (limiter, done, minted) ← s.mintVolt contracts now sent recipient amountFeiToMint
    return ⟨{ s with toRateLimited := limiter }, done, amountFeiOut, minted⟩
  else
    return ⟨s, sent, amountFeiOut, 0⟩

def redeem (w : ω) (sender recipient : Address) (amountFeiIn minAmountOut : ℕ) :
    Except Revert (Outcome ω) := do
  s.whenNotPaused
  require (!s.redeemPaused) "PegStabilityModule: Redeem paused"
  s.redeemInternal contracts w sender recipient amountFeiIn minAmountOut

def mint (now : ℕ) (w : ω) (sender recipient : Address) (amountIn minAmountOut : ℕ) :
    Except Revert (Outcome ω) := do
  s.whenNotPaused
  require (!s.mintPaused) "PegStabilityModule: Minting paused"
  s.mintInternal contracts now w sender recipient amountIn minAmountOut

/-! ### Deployment -/

/-- The arguments of the constructor; `priceBound` is the floor and the ceiling of PriceBoundPSM. -/
structure Params where
  self : Address
  volt : Address
  oracleAddress : Address
  backupOracle : Address
  decimalsNormalizer : ℤ
  doInvert : Bool
  mintFeeBasisPoints : ℕ
  redeemFeeBasisPoints : ℕ
  reservesThreshold : ℕ
  feiLimitPerSecond : ℕ
  mintingBufferCap : ℕ
  underlyingToken : Address
  surplusTarget : Address
  priceBound : Option PriceBound

/-- The bounds PriceBoundPSM sets at construction, the ceiling first. -/
def PriceBound.deploy : Option PriceBound → Except Revert (Option PriceBound)
  | none => return none
  | some b => do
    let capped ← PriceBound.setCeiling ⟨0, 0⟩ b.ceiling
    some <$> PriceBound.setFloor capped b.floor

def deploy (now : ℕ) (p : Params) : Except Revert PegStabilityModule := do
  let oracleRef ← OracleRef.deploy p.oracleAddress p.backupOracle p.decimalsNormalizer p.doInvert
  let limiter ← RateLimited.deploy now MAX_FEI_LIMIT_PER_SECOND p.feiLimitPerSecond p.mintingBufferCap false
  let blank : PegStabilityModule :=
    { toCoreRef := ⟨.psmAdmin, false⟩, toRateLimited := limiter, toOracleRef := oracleRef,
      self := p.self, volt := p.volt, underlyingToken := p.underlyingToken, surplusTarget := 0,
      mintFeeBasisPoints := 0, redeemFeeBasisPoints := 0, reservesThreshold := 0, MAX_FEE := 300,
      redeemPaused := false, mintPaused := false, priceBound := none }
  let reserved ← blank.setReservesThresholdInternal p.reservesThreshold
  let mintFee ← reserved.setMintFeeInternal p.mintFeeBasisPoints
  let redeemFee ← mintFee.setRedeemFeeInternal p.redeemFeeBasisPoints
  let targeted ← redeemFee.setSurplusTargetInternal p.surplusTarget
  let priceBound ← PriceBound.deploy p.priceBound
  return { targeted with priceBound }

/-! ### What the quotes promise -/

section Quotes

variable {contracts s} {w : ω} {amountIn amountOut : ℕ}

/-- A mint quote: the value of the amount in at the price read, less the fee, truncated twice. -/
theorem getMintAmountOut_spec (success : s.getMintAmountOut contracts w amountIn = .ok amountOut) :
    ∃ price, s.readOracle contracts.toOracles w = .ok price ∧
      amountOut = price.value * amountIn * (BASIS_POINTS_GRANULARITY - s.mintFeeBasisPoints) /
        BASIS_POINTS_GRANULARITY / Decimal.BASE := by
  simp only [getMintAmountOut, bind_eq_ok, Decimal.mulUint256_eq_ok, checkedSub_eq_ok,
    Decimal.divUint256_eq_ok, Decimal.asUint256_eq_ok] at success
  obtain ⟨price, read, _, -, adjusted, ⟨-, adjustedIs⟩, _, ⟨-, rfl⟩, scaled, ⟨-, scaledIs⟩, charged,
    ⟨-, chargedIs⟩, rfl⟩ := success
  exact ⟨price, read, by rw [chargedIs, scaledIs, adjustedIs]⟩

/-- A redeem quote: the amount in less the fee, divided by the price read, truncated three times. -/
theorem getRedeemAmountOut_spec (success : s.getRedeemAmountOut contracts w amountIn = .ok amountOut) :
    ∃ price, s.readOracle contracts.toOracles w = .ok price ∧ price.value ≠ 0 ∧
      amountOut = amountIn * (BASIS_POINTS_GRANULARITY - s.redeemFeeBasisPoints) /
        BASIS_POINTS_GRANULARITY * Decimal.BASE * Decimal.BASE / price.value / Decimal.BASE := by
  simp only [getRedeemAmountOut, bind_eq_ok, checkedSub_eq_ok, uint_eq_ok, checkedDiv_eq_ok,
    Decimal.fromUint256_eq_ok, Decimal.div_eq_ok, Decimal.asUint256_eq_ok] at success
  obtain ⟨price, read, _, -, _, ⟨-, rfl⟩, _, ⟨-, rfl⟩, _, ⟨-, rfl⟩, adjusted, ⟨-, adjustedIs⟩, quotient,
    ⟨-, nonzero, quotientIs⟩, rfl⟩ := success
  exact ⟨price, read, nonzero, by rw [quotientIs, adjustedIs]⟩

end Quotes

/-! ### What a trade does -/

section Trades

variable {contracts s} {now : ℕ} {w : ω} {sender recipient : Address} {amountIn minAmountOut : ℕ}
  {o : Outcome ω}

/-- A mint takes the amount in, pays out VOLT the PSM holds and has the rest minted. -/
theorem mint_spec (success : s.mint contracts now w sender recipient amountIn minAmountOut = .ok o) :
    ∃ updated paid held sent, contracts.update w s.oracle = some updated ∧
      s.getMintAmountOut contracts updated amountIn = .ok o.amountOut ∧
      contracts.transferFrom updated s.underlyingToken s.self sender s.self amountIn = some paid ∧
      contracts.balanceOf paid s.volt s.self = some held ∧
      s.sendHeldVolt contracts paid recipient (min held o.amountOut) = .ok sent ∧
      ((o.psm = s ∧ o.minted = 0 ∧ o.world = sent ∧ o.amountOut ≤ held) ∨
        ∃ limiter, s.depleteBuffer now (o.amountOut - min held o.amountOut) = .ok (limiter, o.minted) ∧
          o.psm = { s with toRateLimited := limiter } ∧
          ((o.minted = 0 ∧ o.world = sent) ∨
            contracts.mint sent s.volt s.self recipient o.minted = some o.world)) := by
  simp only [mint, mintInternal, OracleRef.updateOracle, bind_eq_ok, external_eq_ok, require_eq_ok,
    checkedSub_eq_ok] at success
  obtain ⟨_, -, _, -, updated, updating, amountFeiOut, quoted, _, -, paid, pulled, held, read,
    amountFeiToMint, ⟨-, rfl⟩, sent, sending, success⟩ := success
  split_ifs at success with needed
  · simp only [mintVolt, bind_eq_ok, pure_eq_ok] at success
    obtain ⟨⟨limiter, done, minted⟩, ⟨⟨limiter, mintAmount⟩, depleted, success⟩, rfl⟩ := success
    refine ⟨updated, paid, held, sent, updating, quoted, pulled, read, sending, .inr ?_⟩
    split_ifs at success with positive
    · simp only [bind_eq_ok, external_eq_ok, pure_eq_ok, Prod.mk.injEq] at success
      obtain ⟨_, minting, rfl, rfl, rfl⟩ := success
      exact ⟨limiter, depleted, rfl, .inr minting⟩
    · simp only [pure_eq_ok, Prod.mk.injEq] at success
      obtain ⟨rfl, rfl, rfl⟩ := success
      obtain rfl : mintAmount = 0 := not_not.mp positive
      exact ⟨limiter, depleted, rfl, .inl ⟨rfl, rfl⟩⟩
  · obtain rfl := pure_eq_ok.mp success
    have covered : amountFeiOut ≤ held := by omega
    exact ⟨updated, paid, held, sent, updating, quoted, pulled, read, sending, .inl ⟨rfl, rfl, rfl, covered⟩⟩

/-- A mint writes nothing but the limiter, which it leaves alone or depletes by what it has minted. -/
theorem mint_limiter (success : s.mint contracts now w sender recipient amountIn minAmountOut = .ok o) :
    o.psm = { s with toRateLimited := o.psm.toRateLimited } ∧
      ((o.psm.toRateLimited = s.toRateLimited ∧ o.minted = 0) ∨
        ∃ amount, s.depleteBuffer now amount = .ok (o.psm.toRateLimited, o.minted)) := by
  obtain ⟨updated, paid, held, sent, -, -, -, -, -, outcome⟩ := mint_spec success
  obtain ⟨same, unminted, -⟩ | ⟨limiter, depleted, written, -⟩ := outcome
  · rw [same]
    exact ⟨rfl, .inl ⟨rfl, unminted⟩⟩
  · rw [written]
    exact ⟨rfl, .inr ⟨_, depleted⟩⟩

/-- A redemption takes VOLT in and pays out the underlying token. -/
theorem redeem_spec (success : s.redeem contracts w sender recipient amountIn minAmountOut = .ok o) :
    ∃ updated paid, contracts.update w s.oracle = some updated ∧
      s.getRedeemAmountOut contracts updated amountIn = .ok o.amountOut ∧
      contracts.transferFrom updated s.volt s.self sender s.self amountIn = some paid ∧
      contracts.transfer paid s.underlyingToken s.self recipient o.amountOut = some o.world ∧
      o.psm = s ∧ o.minted = 0 := by
  simp only [redeem, redeemInternal, OracleRef.updateOracle, bind_eq_ok, external_eq_ok,
    require_eq_ok, pure_eq_ok] at success
  obtain ⟨_, -, _, -, updated, updating, amountOut, quoted, _, -, paid, pulled, sent, sending, rfl⟩ :=
    success
  exact ⟨updated, paid, updating, quoted, pulled, sending, rfl, rfl⟩

theorem sendHeldVolt_spec {amount : ℕ} {sent : ω} (success : s.sendHeldVolt contracts w recipient amount = .ok sent) :
    (amount = 0 ∧ sent = w) ∨ contracts.transfer w s.volt s.self recipient amount = some sent := by
  rw [sendHeldVolt] at success
  split_ifs at success with positive
  · exact .inr (external_eq_ok.mp success)
  · exact .inl ⟨not_not.mp positive, (pure_eq_ok.mp success).symm⟩

end Trades

/-- A new PSM has the limiter its parameters describe. -/
theorem deploy_limiter {now : ℕ} {p : Params} {t : PegStabilityModule} (success : deploy now p = .ok t) :
    RateLimited.deploy now MAX_FEI_LIMIT_PER_SECOND p.feiLimitPerSecond p.mintingBufferCap false =
      .ok t.toRateLimited := by
  simp only [deploy, setReservesThresholdInternal, setMintFeeInternal, setRedeemFeeInternal,
    setSurplusTargetInternal, bind_eq_ok, pure_eq_ok] at success
  obtain ⟨_, -, limiter, deployed, _, ⟨_, -, rfl⟩, _, ⟨_, -, rfl⟩, _, ⟨_, -, rfl⟩, _, ⟨_, -, rfl⟩, _, -,
    rfl⟩ := success
  exact deployed

end PegStabilityModule

end VoltProtocol
