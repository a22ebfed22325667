import VoltProtocol.Model.MakerRouter

/-! # What swaps leave behind in MakerRouter

A swap of FEI for DAI has the FEI PSM pay the recipient. The other four have it pay the router and then
spend the minimum that was asked for, not what was paid: the excess stays in the router, with what is
left of the part for USDC, which Maker sells in units of 10^12 DAI only.
-/

namespace VoltProtocol.MakerLeftovers

open MakerRouter Ledger
open PegStabilityModule (BASIS_POINTS_GRANULARITY)
open CompoundPCVRouter (USDC Market)

variable {ω : Type}

/-- The six swaps. -/
inductive Swap where
  | feiForDai (amountFeiIn minDaiAmountOut : ℕ) (recipient : Address)
  | allFeiForDai (recipient : Address)
  | feiForUsdc (amountFeiIn minDaiAmountOut : ℕ) (recipient : Address)
  | allFeiForUsdc (recipient : Address)
  | feiForUsdcAndDai (amountFeiIn minDaiAmountOut : ℕ) (usdcTo daiTo : Address) (ratioUSDC : ℕ)
  | allFeiForUsdcAndDai (usdcTo daiTo : Address) (ratioUSDC : ℕ)

def step (contracts : Contracts ω) (r : MakerRouter) (w : ω) (ctx : Context) : Swap → Except Revert ω
  | .feiForDai amountFeiIn minDaiAmountOut recipient =>
    r.swapFeiForDai contracts w ctx amountFeiIn minDaiAmountOut recipient
  | .allFeiForDai recipient => r.swapAllFeiForDai contracts w ctx recipient
  | .feiForUsdc amountFeiIn minDaiAmountOut recipient =>
    r.swapFeiForUsdc contracts w ctx amountFeiIn minDaiAmountOut recipient
  | .allFeiForUsdc recipient => r.swapAllFeiForUsdc contracts w ctx recipient
  | .feiForUsdcAndDai amountFeiIn minDaiAmountOut usdcTo daiTo ratioUSDC =>
    r.swapFeiForUsdcAndDai contracts w ctx amountFeiIn minDaiAmountOut usdcTo daiTo ratioUSDC
  | .allFeiForUsdcAndDai usdcTo daiTo ratioUSDC =>
    r.swapAllFeiForUsdcAndDai contracts w ctx usdcTo daiTo ratioUSDC

namespace Swap

def usdcTo : Swap → Address
  | feiForDai _ _ recipient | allFeiForDai recipient => recipient
  | feiForUsdc _ _ recipient | allFeiForUsdc recipient => recipient
  | feiForUsdcAndDai _ _ usdcTo _ _ | allFeiForUsdcAndDai usdcTo _ _ => usdcTo

def daiTo : Swap → Address
  | feiForDai _ _ recipient | allFeiForDai recipient => recipient
  | feiForUsdc _ _ recipient | allFeiForUsdc recipient => recipient
  | feiForUsdcAndDai _ _ _ daiTo _ | allFeiForUsdcAndDai _ daiTo _ => daiTo

/-- Whom the FEI PSM pays. -/
def redeemTo (r : MakerRouter) : Swap → Address
  | feiForDai _ _ recipient | allFeiForDai recipient => recipient
  | _ => r.self

/-- The FEI that a swap takes and the DAI that it asks for at least. -/
def terms (contracts : Contracts ω) (r : MakerRouter) (w : ω) (sender : Address) : Swap → Option (ℕ × ℕ)
  | feiForDai amountFeiIn minDaiAmountOut _ | feiForUsdc amountFeiIn minDaiAmountOut _
  | feiForUsdcAndDai amountFeiIn minDaiAmountOut .. => some (amountFeiIn, minDaiAmountOut)
  | allFeiForDai _ | allFeiForUsdc _ | allFeiForUsdcAndDai .. => do
    let allowance ← contracts.allowance w FEI sender r.self
    let balance ← contracts.balanceOf w FEI sender
    let amountFeiIn := min balance allowance
    return (amountFeiIn, amountFeiIn * (BASIS_POINTS_GRANULARITY - 3) / BASIS_POINTS_GRANULARITY)

/-- The part of the minimum that is meant for USDC. -/
def usdcAmount (minDaiAmountOut : ℕ) : Swap → ℕ
  | feiForDai .. | allFeiForDai _ => 0
  | feiForUsdc .. | allFeiForUsdc _ => minDaiAmountOut
  | feiForUsdcAndDai _ _ _ _ ratioUSDC | allFeiForUsdcAndDai _ _ ratioUSDC =>
    minDaiAmountOut * ratioUSDC / BASIS_POINTS_GRANULARITY

/-- What the FEI PSM pays for the FEI of a swap made now. -/
def payout (contracts : Contracts ω) (r : MakerRouter) (w : ω) (sender : Address) (swap : Swap) :
    Option ℕ := do
  let (amountFeiIn, minDaiAmountOut) ← swap.terms contracts r w sender
  let pulled ← contracts.transferFrom w FEI r.self sender r.self amountFeiIn
  let (_, paid) ← contracts.redeem pulled r.self (swap.redeemTo r) amountFeiIn minDaiAmountOut
  return paid

/-- What was paid above the minimum, and what Maker cannot convert of the part for USDC. -/
def excess (minDaiAmountOut paid : ℕ) : Swap → ℕ
  | feiForDai .. | allFeiForDai _ => 0
  | swap => paid - minDaiAmountOut + swap.usdcAmount minDaiAmountOut % 10 ^ 12

end Swap

/-- The contracts around the router, for balances `held` per token and account: exact tokens, a FEI PSM
that pays no less than the minimum, and a Maker PSM that sells USDC out of `gemJoin` without a fee. -/
structure Assumed (contracts : Contracts ω) (r : MakerRouter) (gemJoin : Address)
    (held : ω → Address → Address → ℕ) : Prop where
  feiPSM : r.feiPSM ≠ r.self
  daiPSM : r.daiPSM ≠ r.self
  transferFrom {w u : ω} {owner : Address} {amount : ℕ}
    (pulled : contracts.transferFrom w FEI r.self owner r.self amount = some u) :
    Moved (held w FEI) (held u FEI) owner r.self amount ∧ ∀ token ≠ FEI, held u token = held w token
  transfer {w u : ω} {recipient : Address} {amount : ℕ}
    (paid : contracts.transfer w DAI r.self recipient amount = some u) :
    Moved (held w DAI) (held u DAI) r.self recipient amount ∧ ∀ token ≠ DAI, held u token = held w token
  redeem {w u : ω} {recipient : Address} {amountFeiIn minAmountOut paid : ℕ}
    (redeemed : contracts.redeem w r.self recipient amountFeiIn minAmountOut = some (u, paid)) :
    minAmountOut ≤ paid ∧ Moved (held w FEI) (held u FEI) r.self r.feiPSM amountFeiIn ∧
      Moved (held w DAI) (held u DAI) r.feiPSM recipient paid ∧ held u USDC = held w USDC
  buyGem {w u : ω} {usr : Address} {gemAmt : ℕ} (bought : contracts.buyGem w r.self usr gemAmt = some u) :
    Moved (held w DAI) (held u DAI) r.self r.daiPSM (gemAmt * 10 ^ 12) ∧
      Moved (held w USDC) (held u USDC) gemJoin usr gemAmt ∧ held u FEI = held w FEI

variable {contracts : Contracts ω} {r : MakerRouter} {gemJoin : Address} {held : ω → Address → Address → ℕ}
  {w redeemed u : ω} {ctx : Context} {swap : Swap} {sender recipient : Address}
  {amountFeiIn minDaiAmountOut paid : ℕ}

/-! ### The two halves of a swap -/

/-- How a swap spends the minimum after the redemption. -/
def Spends (contracts : Contracts ω) (r : MakerRouter) (redeemed : ω) (minDaiAmountOut : ℕ) (u : ω) :
    Swap → Prop
  | .feiForDai .. | .allFeiForDai _ => u = redeemed
  | .feiForUsdc _ _ recipient | .allFeiForUsdc recipient =>
    contracts.buyGem redeemed r.self recipient (minDaiAmountOut / 10 ^ 12) = some u
  | .feiForUsdcAndDai _ _ usdcTo daiTo ratioUSDC | .allFeiForUsdcAndDai usdcTo daiTo ratioUSDC =>
    let usdcAmount := minDaiAmountOut * ratioUSDC / BASIS_POINTS_GRANULARITY
    usdcAmount ≤ minDaiAmountOut ∧ ∃ bought,
      contracts.buyGem redeemed r.self usdcTo (usdcAmount / 10 ^ 12) = some bought ∧
      contracts.transfer bought DAI r.self daiTo (minDaiAmountOut - usdcAmount) = some u

/-- Every swap redeems on its terms and spends the minimum. -/
theorem step_spec (success : step contracts r w ctx swap = .ok u) :
    ∃ amountFeiIn minDaiAmountOut redeemed paid,
      swap.terms contracts r w ctx.sender = some (amountFeiIn, minDaiAmountOut) ∧
      Redeems contracts r w ctx.sender (swap.redeemTo r) amountFeiIn minDaiAmountOut redeemed paid ∧
      Spends contracts r redeemed minDaiAmountOut u swap := by
  cases swap with
  | feiForDai amountFeiIn minDaiAmountOut recipient =>
    obtain ⟨_, -, redeeming⟩ := bind_eq_ok.mp success
    obtain ⟨paid, redeems⟩ := redeemFromFeiPSM_spec redeeming
    exact ⟨amountFeiIn, minDaiAmountOut, u, paid, rfl, redeems, rfl⟩
  | feiForUsdc amountFeiIn minDaiAmountOut recipient =>
    simp only [step, swapFeiForUsdc, bind_eq_ok, external_eq_ok] at success
    obtain ⟨_, -, redeemed, redeeming, buying⟩ := success
    obtain ⟨paid, redeems⟩ := redeemFromFeiPSM_spec redeeming
    exact ⟨amountFeiIn, minDaiAmountOut, redeemed, paid, rfl, redeems, buying⟩
  | feiForUsdcAndDai amountFeiIn minDaiAmountOut usdcTo daiTo ratioUSDC =>
    simp only [step, swapFeiForUsdcAndDai, bind_eq_ok] at success
    obtain ⟨_, -, _, -, redeemed, redeeming, spending⟩ := success
    obtain ⟨paid, redeems⟩ := redeemFromFeiPSM_spec redeeming
    exact ⟨amountFeiIn, minDaiAmountOut, redeemed, paid, rfl, redeems, swapForUsdcAndDai_spec spending⟩
  | allFeiForDai recipient =>
    simp only [step, swapAllFeiForDai, bind_eq_ok, pure_eq_ok] at success
    obtain ⟨_, -, ⟨redeemed, minDaiAmountOut⟩, redeeming, rfl⟩ := success
    obtain ⟨allowance, balance, paid, allowing, holding, rfl, redeems⟩ :=
      redeemAllBalanceFromFeiPSM_spec redeeming
    refine ⟨_, _, redeemed, paid, ?_, redeems, rfl⟩
    rw [Swap.terms, allowing, holding]
    rfl
  | allFeiForUsdc recipient =>
    simp only [step, swapAllFeiForUsdc, bind_eq_ok, external_eq_ok] at success
    obtain ⟨_, -, ⟨redeemed, minDaiAmountOut⟩, redeeming, buying⟩ := success
    obtain ⟨allowance, balance, paid, allowing, holding, rfl, redeems⟩ :=
      redeemAllBalanceFromFeiPSM_spec redeeming
    refine ⟨_, _, redeemed, paid, ?_, redeems, buying⟩
    rw [Swap.terms, allowing, holding]
    rfl
  | allFeiForUsdcAndDai usdcTo daiTo ratioUSDC =>
    simp only [step, swapAllFeiForUsdcAndDai, bind_eq_ok] at success
    obtain ⟨_, -, ⟨redeemed, minDaiAmountOut⟩, redeeming, spending⟩ := success
    obtain ⟨allowance, balance, paid, allowing, holding, rfl, redeems⟩ :=
      redeemAllBalanceFromFeiPSM_spec redeeming
    refine ⟨_, _, redeemed, paid, ?_, redeems, swapForUsdcAndDai_spec spending⟩
    rw [Swap.terms, allowing, holding]
    rfl

/-- What the redemption of a swap pays is its payout. -/
theorem payout_of_redeems (agreed : swap.terms contracts r w sender = some (amountFeiIn, minDaiAmountOut))
    (redeems : Redeems contracts r w sender (swap.redeemTo r) amountFeiIn minDaiAmountOut redeemed paid) :
    swap.payout contracts r w sender = some paid := by
  obtain ⟨pulled, pulling, redeeming⟩ := redeems
  simp only [Swap.payout, agreed, pulling, redeeming, Option.bind_eq_bind, Option.bind_some, Option.pure_def]

theorem held_of_redeems (assumed : Assumed contracts r gemJoin held)
    (redeems : Redeems contracts r w sender recipient amountFeiIn minDaiAmountOut redeemed paid) :
    minDaiAmountOut ≤ paid ∧ Moved (held w FEI) (held redeemed FEI) sender r.feiPSM amountFeiIn ∧
      Moved (held w DAI) (held redeemed DAI) r.feiPSM recipient paid ∧
      held redeemed USDC = held w USDC := by
  obtain ⟨pulled, pulling, redeeming⟩ := redeems
  obtain ⟨arrived, others⟩ := assumed.transferFrom pulling
  obtain ⟨enough, left, delivered, usdc⟩ := assumed.redeem redeeming
  refine ⟨enough, arrived.trans left, ?_, ?_⟩
  · rw [others DAI (by decide)] at delivered
    exact delivered
  · rw [usdc, others USDC (by decide)]

/-- Where the FEI of a swap and the DAI that was paid for it end up. -/
structure Delivered (r : MakerRouter) (gemJoin : Address) (before after : Address → Address → ℕ)
    (swap : Swap) (sender : Address) (amountFeiIn paid gems dai : ℕ) : Prop where
  fei : Moved (before FEI) (after FEI) sender r.feiPSM amountFeiIn
  usdc : Moved (before USDC) (after USDC) gemJoin swap.usdcTo gems
  others : ∀ a ≠ r.self, after DAI a + (if a = r.feiPSM then paid else 0) =
    before DAI a + (if a = r.daiPSM then gems * 10 ^ 12 else 0) + if a = swap.daiTo then dai else 0
  router : after DAI r.self + (gems * 10 ^ 12 + dai) = before DAI r.self + paid

/-- DAI that arrives at the router and leaves it in two parts. -/
theorem forwarded {before arrived bought after : Address → ℕ} {daiTo : Address} {sold dai : ℕ}
    (feiPSM : r.feiPSM ≠ r.self) (daiPSM : r.daiPSM ≠ r.self) (outside : daiTo ≠ r.self)
    (arrives : Moved before arrived r.feiPSM r.self paid) (sells : Moved arrived bought r.self r.daiPSM sold)
    (pays : Moved bought after r.self daiTo dai) :
    (∀ a ≠ r.self, after a + (if a = r.feiPSM then paid else 0) =
      before a + (if a = r.daiPSM then sold else 0) + if a = daiTo then dai else 0) ∧
    after r.self + (sold + dai) = before r.self + paid := by
  constructor
  · intro a other
    have first := arrives a
    have second := sells a
    have third := pays a
    simp only [if_neg other, add_zero] at first second third
    omega
  · have first := arrives.at_target feiPSM
    have second := sells.add_source daiPSM.symm
    have third := pays.add_source outside.symm
    omega

/-- The redemption followed by the spending of the minimum. -/
theorem delivered_of_spends (assumed : Assumed contracts r gemJoin held) (outside : swap.daiTo ≠ r.self)
    (redeems : Redeems contracts r w sender (swap.redeemTo r) amountFeiIn minDaiAmountOut redeemed paid)
    (spends : Spends contracts r redeemed minDaiAmountOut u swap) :
    ∃ gems dai, Delivered r gemJoin (held w) (held u) swap sender amountFeiIn paid gems dai ∧
      paid = gems * 10 ^ 12 + dai + swap.excess minDaiAmountOut paid := by
  obtain ⟨enough, fei, arrives, usdc⟩ := held_of_redeems assumed redeems
  cases swap with
  | feiForDai _ _ recipient | allFeiForDai recipient =>
    obtain rfl := spends
    refine ⟨0, paid, ⟨fei, ?_, ?_, ?_⟩, ?_⟩
    · rw [usdc]
      exact Moved.zero _ _ _
    · intro a _
      rw [zero_mul, ite_self, add_zero]
      exact arrives a
    · have elsewhere : recipient ≠ r.self := outside
      have router := arrives.elsewhere assumed.feiPSM.symm elsewhere.symm
      omega
    · rw [Swap.excess, zero_mul, zero_add, add_zero]
  | feiForUsdc _ _ recipient | allFeiForUsdc recipient =>
    obtain ⟨sells, delivers, same⟩ := assumed.buyGem spends
    obtain ⟨others, router⟩ :=
      forwarded assumed.feiPSM assumed.daiPSM outside arrives sells (Moved.zero _ _ _)
    refine ⟨_, 0, ⟨?_, ?_, others, router⟩, ?_⟩
    · rw [same]
      exact fei
    · rw [← usdc]
      exact delivers
    · simp only [Swap.excess, Swap.usdcAmount]
      omega
  | feiForUsdcAndDai _ _ usdcTo daiTo ratioUSDC | allFeiForUsdcAndDai usdcTo daiTo ratioUSDC =>
    obtain ⟨within, bought, buying, paying⟩ := spends
    obtain ⟨sells, delivers, same⟩ := assumed.buyGem buying
    obtain ⟨pays, rest⟩ := assumed.transfer paying
    obtain ⟨others, router⟩ := forwarded assumed.feiPSM assumed.daiPSM outside arrives sells pays
    refine ⟨_, _, ⟨?_, ?_, others, router⟩, ?_⟩
    · rw [rest FEI (by decide), same]
      exact fei
    · rw [← usdc, rest USDC (by decide)]
      exact delivers
    · simp only [Swap.excess, Swap.usdcAmount]
      omega

/-! ### What stays in the router -/

/-- The router keeps no FEI and less than 10^12 DAI of a swap, and what else was paid for the FEI reaches
the recipients, as USDC out of Maker or as DAI. -/
structure PassesThrough (r : MakerRouter) (gemJoin : Address) (before after : Address → Address → ℕ)
    (swap : Swap) (paid : ℕ) : Prop where
  fei : after FEI r.self = before FEI r.self
  grows : before DAI r.self ≤ after DAI r.self
  dust : after DAI r.self < before DAI r.self + 10 ^ 12
  delivered : ∃ gems dai, paid = after DAI r.self - before DAI r.self + gems * 10 ^ 12 + dai ∧
    Moved (before USDC) (after USDC) gemJoin swap.usdcTo gems ∧
    ∀ a ≠ r.self, after DAI a + (if a = r.feiPSM then paid else 0) =
      before DAI a + (if a = r.daiPSM then gems * 10 ^ 12 else 0) + if a = swap.daiTo then dai else 0

/-- A swap passes everything through exactly when what the FEI PSM pays above the minimum, together with
the part for USDC that Maker cannot convert, is below 10^12. -/
theorem passesThrough_iff (assumed : Assumed contracts r gemJoin held) (caller : ctx.sender ≠ r.self)
    (outside : swap.daiTo ≠ r.self) (success : step contracts r w ctx swap = .ok u) :
    ∃ amountFeiIn minDaiAmountOut paid,
      swap.terms contracts r w ctx.sender = some (amountFeiIn, minDaiAmountOut) ∧
      swap.payout contracts r w ctx.sender = some paid ∧
      (PassesThrough r gemJoin (held w) (held u) swap paid ↔ swap.excess minDaiAmountOut paid < 10 ^ 12) := by
  obtain ⟨amountFeiIn, minDaiAmountOut, redeemed, paid, agreed, redeems, spends⟩ := step_spec success
  refine ⟨amountFeiIn, minDaiAmountOut, paid, agreed, payout_of_redeems agreed redeems, ?_⟩
  obtain ⟨gems, dai, delivered, balance⟩ := delivered_of_spends assumed outside redeems spends
  have left := delivered.router
  constructor
  · intro passes
    have dust := passes.dust
    omega
  · intro small
    have fei := delivered.fei.elsewhere caller.symm assumed.feiPSM.symm
    exact ⟨fei, by omega, by omega, gems, dai, by omega, delivered.usdc, delivered.others⟩

/-! ### A market of exact contracts -/

/-- A router whose Maker PSM is the one of the market. -/
def router : MakerRouter := ⟨100, CompoundPCVRouter.daiPSM, 50⟩

theorem assumed_exactContracts (fee : ℕ) :
    Assumed (exactContracts 50 fee) router CompoundPCVRouter.GEM_JOIN Market.held where
  feiPSM := by decide
  daiPSM := by decide
  transferFrom pulled := by
    obtain ⟨fei, others, -⟩ := Market.pull_spec pulled
    exact ⟨fei, others⟩
  transfer paid := by
    obtain ⟨dai, others, -⟩ := Market.pay_spec paid
    exact ⟨dai, others⟩
  redeem {w u recipient amountFeiIn minAmountOut paid} redeemed := by
    simp only [exactContracts, Option.bind_eq_bind, Option.pure_def] at redeemed
    split_ifs at redeemed with enough
    simp only [Option.bind_eq_some_iff, Option.some.injEq, Prod.mk.injEq] at redeemed
    obtain ⟨pulled, pulling, _, paying, rfl, rfl⟩ := redeemed
    obtain ⟨fei, rest, -⟩ := Market.pull_spec pulling
    obtain ⟨dai, others, -⟩ := Market.pay_spec paying
    refine ⟨enough, ?_, ?_, ?_⟩
    · rw [others FEI (by decide)]
      exact fei
    · rw [rest DAI (by decide)] at dai
      exact dai
    · rw [others USDC (by decide), rest USDC (by decide)]
  buyGem {w u usr gemAmt} bought := by
    obtain ⟨pulled, pulling, paying⟩ := Option.bind_eq_some_iff.mp bought
    obtain ⟨dai, rest, -⟩ := Market.pull_spec pulling
    obtain ⟨usdc, others, -⟩ := Market.pay_spec paying
    refine ⟨?_, ?_, ?_⟩
    · rw [others _ (by decide)]
      exact dai
    · rw [rest USDC (by decide)] at usdc
      exact usdc
    · rw [others FEI (by decide), rest FEI (by decide)]

/-- A governor with FEI, PSMs with DAI and USDC, and the allowances that the router gives and gets. -/
def market : Market where
  held token account :=
    if token = FEI ∧ account = 7 ∨ token = DAI ∧ account = 50 ∨
      token = USDC ∧ account = CompoundPCVRouter.GEM_JOIN then 10 ^ 30 else 0
  allowed token owner spender :=
    if token = FEI ∧ owner = 7 ∧ spender = 100 ∨ token = FEI ∧ owner = 100 ∧ spender = 50 ∨
      token = DAI ∧ owner = 100 ∧ spender = CompoundPCVRouter.daiPSM then uint256Max else 0

/-- With the fee that the router assumes, all FEI in USDC and DAI leaves the remainder of the USDC part. -/
theorem passesThrough_iff_all :
    let contracts := exactContracts 50 3
    let governor := Context.withRoles 7 [.governor]
    let swap : Swap := .allFeiForUsdcAndDai 8 9 3333
    ∃ u, step contracts router market governor swap = .ok u ∧
      PassesThrough router CompoundPCVRouter.GEM_JOIN market.held u.held swap (10 ^ 26 * 9997) := by
  intro contracts governor swap
  have ok : (step contracts router market governor swap).isOk = true := by decide +kernel
  obtain ⟨u, success⟩ := exists_of_isOk ok
  obtain ⟨amountFeiIn, least, paid, agreed, pays, exact⟩ :=
    passesThrough_iff (assumed_exactContracts 3) (by decide) (by decide) success
  have terms : swap.terms contracts router market 7 = some (10 ^ 30, 10 ^ 26 * 9997) := by decide +kernel
  have payout : swap.payout contracts router market 7 = some (10 ^ 26 * 9997) := by decide +kernel
  obtain ⟨rfl, rfl⟩ := Prod.mk.inj (Option.some.inj (agreed.symm.trans terms))
  obtain rfl := Option.some.inj (pays.symm.trans payout)
  exact ⟨u, success, exact.mpr (by decide)⟩

/-- A swap of 10000 FEI for USDC that asks for at least 9000 DAI. The PSM pays 9997 DAI, and 997 DAI stay in
the router. -/
theorem not_passesThrough_low_minimum :
    let contracts := exactContracts 50 3
    let governor := Context.withRoles 7 [.governor]
    let swap : Swap := .feiForUsdc (10000 * 10 ^ 18) (9000 * 10 ^ 18) 8
    Assumed contracts router CompoundPCVRouter.GEM_JOIN Market.held ∧
      ∃ u, step contracts router market governor swap = .ok u ∧
        swap.payout contracts router market 7 = some (9997 * 10 ^ 18) ∧
        u.held DAI router.self = 997 * 10 ^ 18 ∧
        ∀ paid, ¬ PassesThrough router CompoundPCVRouter.GEM_JOIN market.held u.held swap paid := by
  intro contracts governor swap
  have observed : (fun u : Market => u.held DAI router.self) <$> step contracts router market governor swap =
      .ok (997 * 10 ^ 18) := by decide +kernel
  obtain ⟨u, success, left⟩ := map_eq_ok.mp observed
  refine ⟨assumed_exactContracts 3, u, success, by decide +kernel, left, fun paid passes => ?_⟩
  have dust := passes.dust
  have none : market.held DAI router.self = 0 := by decide
  omega

end VoltProtocol.MakerLeftovers
