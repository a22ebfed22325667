import VoltProtocol.Model.CompoundPCVRouter
import VoltProtocol.Model.PegStabilityModule

/-! # MakerRouter, swaps of FEI for DAI and USDC

A swap takes FEI from its sender, redeems it for DAI at the FEI PSM with a minimum, and trades a part of
that minimum for USDC at Maker. Three entry points are given the amount and the minimum; the three
others take all FEI that the sender holds and allows, and work the minimum out from a fee of 3 basis
points. As in CompoundPCVRouter, the router's only state is the world `ω` of the contracts it calls.
-/

namespace VoltProtocol

structure MakerRouter where
  self : Address
  daiPSM : Address
  feiPSM : Address
deriving DecidableEq, Repr

namespace MakerRouter

open PegStabilityModule (BASIS_POINTS_GRANULARITY)

def DAI : Address := 0x6B175474E89094C44Da98b954EedeAC495271d0F

def FEI : Address := 0x956F47F50A910163D8BF957Cf5846D573E7f87CA

def USDC_SCALING_FACTOR : ℕ := 10 ^ 12

/-- The contracts a router calls. `redeem` has the sender, the recipient, the amount and the minimum as
arguments, and answers with the DAI that it paid. -/
structure Contracts (ω : Type) extends CompoundPCVRouter.IDSSPSM ω where
  allowance : ω → (token owner spender : Address) → Option ℕ
  balanceOf : ω → (token account : Address) → Option ℕ
  transfer : ω → (token sender recipient : Address) → ℕ → Option ω
  transferFrom : ω → (token spender owner recipient : Address) → ℕ → Option ω
  redeem : ω → (sender recipient : Address) → (amountFeiIn minAmountOut : ℕ) → Option (ω × ℕ)

/-- The tokens and Maker of one market, with a FEI PSM that takes a fee. -/
def exactContracts (feiPSM : Address) (redeemFeeBasisPoints : ℕ) : Contracts CompoundPCVRouter.Market where
  toIDSSPSM := (CompoundPCVRouter.exactContracts fun _ => 0).toIDSSPSM
  allowance m token owner spender := some (m.allowed token owner spender)
  balanceOf m token account := some (m.held token account)
  transfer m token sender recipient amount := m.pay token sender recipient amount
  transferFrom m token spender owner recipient amount := m.pull token owner spender recipient amount
  redeem m sender recipient amountFeiIn minAmountOut := do
    let paid := amountFeiIn * (BASIS_POINTS_GRANULARITY - redeemFeeBasisPoints) / BASIS_POINTS_GRANULARITY
    if minAmountOut ≤ paid then
      let pulled ← m.pull FEI sender feiPSM feiPSM amountFeiIn
      let redeemed ← pulled.pay DAI feiPSM recipient paid
      return (redeemed, paid)
    else none

variable {ω : Type} (contracts : Contracts ω) (r : MakerRouter) (w : ω)

/-- `_redeemFromFeiPSM` -/
def redeemFromFeiPSM (sender : Address) (amountFeiIn minDaiAmountOut : ℕ) (recipient : Address) :
    Except Revert ω := do
  require (amountFeiIn > 10 ^ 18) "MakerRouter: Must deposit at least 1 FEI"
  let pulled ← external (contracts.transferFrom w FEI r.self sender r.self amountFeiIn)
  let (redeemed, _) ← external (contracts.redeem pulled r.self recipient amountFeiIn minDaiAmountOut)
  return redeemed

/-- `_redeemAllBalanceFromFeiPSM`, with the minimum that it worked out. -/
def redeemAllBalanceFromFeiPSM (sender recipient : Address) : Except Revert (ω × ℕ) := do
  let allowance ← external (contracts.allowance w FEI sender r.self)
  let balance ← external (contracts.balanceOf w FEI sender)
  let amountFeiIn := min balance allowance
  require (amountFeiIn > 10 ^ 18) "MakerRouter: Must deposit at least 1 FEI"
  let pulled ← external (contracts.transferFrom w FEI r.self sender r.self amountFeiIn)
  let userBalanceBefore ← external (contracts.balanceOf pulled DAI recipient)
  let scaled ← uint 256 (amountFeiIn * (BASIS_POINTS_GRANULARITY - 3))
  let minDaiAmountOut := scaled / BASIS_POINTS_GRANULARITY
  let (redeemed, _) ← external (contracts.redeem pulled r.self recipient amountFeiIn minDaiAmountOut)
  let userBalanceAfter ← external (contracts.balanceOf redeemed DAI recipient)
  let received ← checkedSub userBalanceAfter userBalanceBefore
  require (received ≥ minDaiAmountOut) "MakerRouter: Not enough DAI received"
  return (redeemed, minDaiAmountOut)

/-- `_swapForUsdcAndDai` -/
def swapForUsdcAndDai (minDaiAmountOut : ℕ) (usdcTo daiTo : Address) (ratioUSDC : ℕ) : Except Revert ω := do
  let scaled ← uint 256 (minDaiAmountOut * ratioUSDC)
  let usdcAmount := scaled / BASIS_POINTS_GRANULARITY
  require (usdcAmount / USDC_SCALING_FACTOR ≠ 0) "MakerRouter: Not enough USDC out"
  let bought ← external (contracts.buyGem w r.self usdcTo (usdcAmount / USDC_SCALING_FACTOR))
  let daiAmount ← checkedSub minDaiAmountOut usdcAmount
  external (contracts.transfer bought DAI r.self daiTo daiAmount)

variable (ctx : Context)

def swapFeiForDai (amountFeiIn minDaiAmountOut : ℕ) (recipient : Address) : Except Revert ω := do
  ctx.hasAnyOfTwoRoles .governor .pcvController
  r.redeemFromFeiPSM contracts w ctx.sender amountFeiIn minDaiAmountOut recipient

def swapAllFeiForDai (recipient : Address) : Except Revert ω := do
  ctx.hasAnyOfTwoRoles .governor .pcvController
  let (redeemed, _) ← r.redeemAllBalanceFromFeiPSM contracts w ctx.sender recipient
  return redeemed

def swapFeiForUsdc (amountFeiIn minDaiAmountOut : ℕ) (recipient : Address) : Except Revert ω := do
  ctx.hasAnyOfTwoRoles .governor .pcvController
  let redeemed ← r.redeemFromFeiPSM contracts w ctx.sender amountFeiIn minDaiAmountOut r.self
  external (contracts.buyGem redeemed r.self recipient (minDaiAmountOut / USDC_SCALING_FACTOR))

def swapAllFeiForUsdc (recipient : Address) : Except Revert ω := do
  ctx.hasAnyOfTwoRoles .governor .pcvController
  let (redeemed, minDaiAmountOut) ← r.redeemAllBalanceFromFeiPSM contracts w ctx.sender r.self
  external (contracts.buyGem redeemed r.self recipient (minDaiAmountOut / USDC_SCALING_FACTOR))

def swapFeiForUsdcAndDai (amountFeiIn minDaiAmountOut : ℕ) (usdcTo daiTo : Address) (ratioUSDC : ℕ) :
    Except Revert ω := do
  ctx.hasAnyOfTwoRoles .governor .pcvController
  require (ratioUSDC < BASIS_POINTS_GRANULARITY ∧ ratioUSDC > 0) "MakerRouter: Invalid USDC Ratio"
  let redeemed ← r.redeemFromFeiPSM contracts w ctx.sender amountFeiIn minDaiAmountOut r.self
  r.swapForUsdcAndDai contracts redeemed minDaiAmountOut usdcTo daiTo ratioUSDC

/-- Unlike its sibling, this one does not check the ratio. -/
def swapAllFeiForUsdcAndDai (usdcTo daiTo : Address) (ratioUSDC : ℕ) : Except Revert ω := do
  ctx.hasAnyOfTwoRoles .governor .pcvController
  let (redeemed, minDaiAmountOut) ← r.redeemAllBalanceFromFeiPSM contracts w ctx.sender r.self
  r.swapForUsdcAndDai contracts redeemed minDaiAmountOut usdcTo daiTo ratioUSDC

/-! ### What a redemption asks of the FEI PSM -/

section Specs

variable {contracts r w} {sender recipient usdcTo daiTo : Address} {amountFeiIn minDaiAmountOut ratioUSDC : ℕ}
  {redeemed u : ω}

/-- Both helpers pull some amount of FEI and redeem it with a minimum. -/
def Redeems (contracts : Contracts ω) (r : MakerRouter) (w : ω) (sender recipient : Address)
    (amountFeiIn minDaiAmountOut : ℕ) (redeemed : ω) (paid : ℕ) : Prop :=
  ∃ pulled, contracts.transferFrom w FEI r.self sender r.self amountFeiIn = some pulled ∧
    contracts.redeem pulled r.self recipient amountFeiIn minDaiAmountOut = some (redeemed, paid)

theorem redeemFromFeiPSM_spec
    (success : r.redeemFromFeiPSM contracts w sender amountFeiIn minDaiAmountOut recipient = .ok redeemed) :
    ∃ paid, Redeems contracts r w sender recipient amountFeiIn minDaiAmountOut redeemed paid := by
  simp only [redeemFromFeiPSM, bind_eq_ok, external_eq_ok, pure_eq_ok] at success
  obtain ⟨_, -, pulled, pulling, ⟨redeemed, paid⟩, redeeming, rfl⟩ := success
  exact ⟨paid, pulled, pulling, redeeming⟩

theorem redeemAllBalanceFromFeiPSM_spec
    (success : r.redeemAllBalanceFromFeiPSM contracts w sender recipient = .ok (redeemed, minDaiAmountOut)) :
    ∃ allowance balance paid, contracts.allowance w FEI sender r.self = some allowance ∧
      contracts.balanceOf w FEI sender = some balance ∧
      minDaiAmountOut = min balance allowance * (BASIS_POINTS_GRANULARITY - 3) / BASIS_POINTS_GRANULARITY ∧
      Redeems contracts r w sender recipient (min balance allowance) minDaiAmountOut redeemed paid := by
  simp only [redeemAllBalanceFromFeiPSM, bind_eq_ok, external_eq_ok, uint_eq_ok, pure_eq_ok,
    Prod.mk.injEq] at success
  obtain ⟨allowance, allowing, balance, holding, _, -, pulled, pulling, _, -, _, ⟨-, rfl⟩, ⟨_, paid⟩,
    redeeming, _, -, _, -, _, -, rfl, rfl⟩ := success
  exact ⟨allowance, balance, paid, allowing, holding, rfl, pulled, pulling, redeeming⟩

theorem swapForUsdcAndDai_spec
    (success : r.swapForUsdcAndDai contracts w minDaiAmountOut usdcTo daiTo ratioUSDC = .ok u) :
    let usdcAmount := minDaiAmountOut * ratioUSDC / BASIS_POINTS_GRANULARITY
    usdcAmount ≤ minDaiAmountOut ∧ ∃ bought,
      contracts.buyGem w r.self usdcTo (usdcAmount / USDC_SCALING_FACTOR) = some bought ∧
      contracts.transfer bought DAI r.self daiTo (minDaiAmountOut - usdcAmount) = some u := by
  simp only [swapForUsdcAndDai, bind_eq_ok, external_eq_ok, uint_eq_ok, checkedSub_eq_ok] at success
  obtain ⟨_, ⟨-, rfl⟩, _, -, bought, buying, _, ⟨within, rfl⟩, paying⟩ := success
  exact ⟨within, bought, buying, paying⟩

end Specs

end MakerRouter

end VoltProtocol
