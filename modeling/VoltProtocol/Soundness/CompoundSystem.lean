import VoltProtocol.Machine.Run
import VoltProtocol.Model.CompoundPCVRouter
import VoltProtocol.Model.ERC20CompoundPCVDeposit
import VoltProtocol.ToMathlib.Ledger

/-! # PCV on Compound is conserved

The router swaps between deposits of this repository, which lend on Compound. The PCV is what the deposits can redeem,
as their `balance()` reports it, with the tokens that they and the router hold. Whoever calls them, what goes to a
cToken can be redeemed from it, up to rounding and with the interest that is due, and Maker trades one to one; so PCV
is lost to nothing but what PCV controllers withdraw. What a swap of DAI cannot trade for whole units of USDC stays in
the router.
-/

namespace VoltProtocol.CompoundSystem

open Machine CompoundPCVRouter

/-- The contracts outside the repository: tokens, cTokens and Maker. -/
structure Externals (ω : Type) extends ERC20CompoundPCVDeposit.Contracts ω, IDSSPSM ω where
  allowance : ω → (token owner spender : Address) → Option ℕ

/-- The deposits at their addresses, and who has which role. -/
structure State (ω : Type) where
  world : ω
  hasRole : Role → Address → Bool
  deposits : Address → Option ERC20CompoundPCVDeposit

variable {ω : Type}

def State.context (s : State ω) (sender : Address) : Context := ⟨sender, s.hasRole⟩

/-- Another world, with the same deposits and roles. -/
def State.enter (s : State ω) (world : ω) : State ω := { s with world }

/-- A deposit at its address, new or with new storage. -/
def State.place (s : State ω) (a : Address) (deposit : ERC20CompoundPCVDeposit) : State ω :=
  { s with deposits := Function.update s.deposits a (some deposit) }

/-- A deposit writes its part of CoreRef. -/
def State.write (s : State ω) (a : Address) (deposit : ERC20CompoundPCVDeposit) (c : CoreRef) : State ω :=
  s.place a { deposit with toCoreRef := c }

/-- The contracts that the router calls. -/
def routerContracts (e : Externals ω) (s : State ω) : CompoundPCVRouter.Contracts ω where
  toIDSSPSM := e.toIDSSPSM
  withdraw w a sender recipient amount := (s.deposits a).bind fun deposit =>
    (deposit.withdraw e.toContracts (s.context sender) w recipient amount).toOption
  deposit w a _ := (s.deposits a).bind fun deposit => (deposit.deposit e.toContracts w).toOption
  allowance := e.allowance
  approve := e.approve

/-- The calls of the router and of deposits, deployments of deposits, and transactions elsewhere. -/
inductive Call (ω : Type) where
  | environment (change : ω → ω)
  | roles (hasRole : Role → Address → Bool)
  | swapUsdcForDai (sender : Address) (amountUsdcIn : ℕ)
  | swapDaiForUsdc (sender : Address) (amountDaiIn : ℕ)
  | deposit (a : Address)
  | withdraw (a sender recipient : Address) (amountUnderlying : ℕ)
  | withdrawERC20 (a sender token recipient : Address) (amount : ℕ)
  | pause (a sender : Address)
  | unpause (a sender : Address)
  | setContractAdminRole (a sender : Address) (newContractAdminRole : Role)
  | deploy (a cToken : Address)

def step (e : Externals ω) (r : CompoundPCVRouter) (s : State ω) : Call ω → Except Revert (State ω)
  | .environment change => .ok (s.enter (change s.world))
  | .roles hasRole => .ok { s with hasRole }
  | .swapUsdcForDai sender amount =>
    s.enter <$> r.swapUsdcForDai (routerContracts e s) s.world (s.context sender) amount
  | .swapDaiForUsdc sender amount =>
    s.enter <$> r.swapDaiForUsdc (routerContracts e s) s.world (s.context sender) amount
  | .deposit a => do
    let deposit ← external (s.deposits a)
    s.enter <$> deposit.deposit e.toContracts s.world
  | .withdraw a sender recipient amount => do
    let deposit ← external (s.deposits a)
    s.enter <$> deposit.withdraw e.toContracts (s.context sender) s.world recipient amount
  | .withdrawERC20 a sender token recipient amount => do
    let deposit ← external (s.deposits a)
    s.enter <$> deposit.withdrawERC20 e.toContracts (s.context sender) s.world token recipient amount
  | .pause a sender => do
    let deposit ← external (s.deposits a)
    s.write a deposit <$> deposit.pause (s.context sender)
  | .unpause a sender => do
    let deposit ← external (s.deposits a)
    s.write a deposit <$> deposit.unpause (s.context sender)
  | .setContractAdminRole a sender role => do
    let deposit ← external (s.deposits a)
    s.write a deposit <$> deposit.setContractAdminRole (s.context sender) role
  | .deploy a cToken => do
    require (s.deposits a = none) "address is taken"
    s.place a <$> ERC20CompoundPCVDeposit.deploy e.toContracts s.world a cToken

/-! ### The books -/

/-- The two tokens, and what a unit of each is worth in units of DAI. -/
def unit (token : Address) : ℕ := if token = DAI then 1 else if token = USDC then USDC_SCALING_FACTOR else 0

/-- An account paid another in one of the tokens, or in one that is neither, and nothing else happened to the two. -/
def Paid (held : ω → Address → Address → ℕ) (token sender recipient : Address) (amount : ℕ) (w u : ω) : Prop :=
  amount ≤ held w token sender ∧
    ∀ t ∈ [DAI, USDC], held u t = Ledger.moveIn (held w) token sender recipient amount t

/-- What accounts other than Maker's gave and got in a trade. -/
def Traded (held : ω → Address → Address → ℕ) (sold : Address) (sender : Address) (soldAmount : ℕ) (bought : Address)
    (recipient : Address) (boughtAmount : ℕ) (w u : ω) : Prop :=
  ∀ account, account ≠ daiPSM → account ≠ GEM_JOIN →
    held u sold account + (if account = sender then soldAmount else 0) = held w sold account ∧
    held u bought account = held w bought account + if account = recipient then boughtAmount else 0

/-- Maker takes the same fees. -/
def SameFees (e : Externals ω) (w u : ω) : Prop := e.tin u = e.tin w ∧ e.tout u = e.tout w

/-- As much can be redeemed from a cToken. -/
def SameClaims (e : Externals ω) (cToken : Address) (w u : ω) : Prop :=
  ∀ account, e.redeemable u cToken account = e.redeemable w cToken account

/-- What a cToken lends comes to be redeemable by one account, and what others can redeem stays. For each of them the
rounding takes at most `loss` units of DAI, and rounding and the interest that is due add at most `gain`. -/
def Credited (e : Externals ω) (asset : Address → Address) (loss gain : ℕ) (cToken creditor : Address) (amount : ℤ)
    (w u : ω) : Prop :=
  ∀ c account, (unit (asset c) * e.redeemable u c account : ℤ) -
    (unit (asset c) * e.redeemable w c account + if c = cToken ∧ account = creditor then unit (asset c) * amount else 0) ∈
      Set.Icc (-loss : ℤ) gain

/-- Tokens and cTokens move exactly what they are asked to when they report success, and do not change the fees of
Maker, which without a fee trades one to one. A cToken has one underlying token for ever, and what it takes and pays
can be redeemed from it more or less, up to rounding and the interest that it lets accrue first; payments change that
only for the token paid in and the account paid. -/
structure Exact (e : Externals ω) (held : ω → Address → Address → ℕ) (asset : Address → Address) (loss gain : ℕ) :
    Prop where
  underlying {w : ω} {cToken token : Address} (answer : e.underlying w cToken = some token) : asset cToken = token
  transfer {w u : ω} {token sender recipient : Address} {amount : ℕ}
    (sent : e.transfer w token sender recipient amount = some u) :
    Paid held token sender recipient amount w u ∧ SameFees e w u ∧
      ∀ cToken, cToken ≠ token → cToken ≠ recipient → SameClaims e cToken w u
  approve {w u : ω} {token sender spender : Address} {amount : ℕ}
    (approved : e.approve w token sender spender amount = some u) :
    (∀ t ∈ [DAI, USDC], held u t = held w t) ∧ SameFees e w u ∧ ∀ cToken, SameClaims e cToken w u
  mint {w u : ω} {cToken sender : Address} {amount : ℕ} (minted : e.mint w cToken sender amount = some (u, 0)) :
    Paid held (asset cToken) sender cToken amount w u ∧ Credited e asset loss gain cToken sender amount w u
  redeemUnderlying {w u : ω} {cToken sender : Address} {amount : ℕ}
    (redeemed : e.redeemUnderlying w cToken sender amount = some (u, 0)) :
    Paid held (asset cToken) cToken sender amount w u ∧ SameFees e w u ∧
      Credited e asset loss gain cToken sender (-amount) w u
  sellGem {w u : ω} {sender usr : Address} {gemAmt : ℕ} (free : e.tin w = some 0)
    (sold : e.sellGem w sender usr gemAmt = some u) :
    Traded held USDC sender gemAmt DAI usr (gemAmt * USDC_SCALING_FACTOR) w u ∧
      ∀ cToken, cToken ≠ usr → SameClaims e cToken w u
  buyGem {w u : ω} {sender usr : Address} {gemAmt : ℕ} (free : e.tout w = some 0)
    (bought : e.buyGem w sender usr gemAmt = some u) :
    Traded held DAI sender (gemAmt * USDC_SCALING_FACTOR) USDC usr gemAmt w u ∧
      ∀ cToken, cToken ≠ usr → SameClaims e cToken w u

/-- What custodians hold of a token. -/
def holdings (held : ω → Address → Address → ℕ) (custodians : Finset Address) (w : ω) (token : Address) : ℕ :=
  ∑ a ∈ custodians, held w token a

/-- What they hold of both tokens, in units of DAI. -/
def idle (held : ω → Address → Address → ℕ) (custodians : Finset Address) (w : ω) : ℕ :=
  holdings held custodians w DAI + USDC_SCALING_FACTOR * holdings held custodians w USDC

/-- What the deposits among them can redeem, in units of DAI. -/
def lent (e : Externals ω) (custodians : Finset Address) (deposits : Address → Option ERC20CompoundPCVDeposit) (w : ω) : ℕ :=
  ∑ a ∈ custodians, (deposits a).elim 0 fun deposit =>
    unit deposit.token * e.redeemable w deposit.cToken deposit.self

/-- The PCV of deposits and their router: what they can redeem and what they hold. -/
def pcv (e : Externals ω) (held : ω → Address → Address → ℕ) (custodians : Finset Address)
    (deposits : Address → Option ERC20CompoundPCVDeposit) (w : ω) : ℤ :=
  idle held custodians w + lent e custodians deposits w

/-- The PCV in a state. -/
def worth (e : Externals ω) (held : ω → Address → Address → ℕ) (custodians : Finset Address) (s : State ω) : ℤ :=
  pcv e held custodians s.deposits s.world

section Books

variable {e : Externals ω} {held : ω → Address → Address → ℕ} {custodians : Finset Address} {w u v : ω}
  {token sender recipient sold bought : Address} {amount soldAmount boughtAmount : ℕ}

/-- A payment takes its amount from the custodians if one of them pays, and adds it if one is paid. -/
theorem Paid.idle (custodians : Finset Address) (paid : Paid held token sender recipient amount w u) :
    idle held custodians u + (if sender ∈ custodians then unit token * amount else 0) =
      idle held custodians w + if recipient ∈ custodians then unit token * amount else 0 := by
  obtain ⟨covered, moved⟩ := paid
  have each (t : Address) (member : t ∈ [DAI, USDC]) :
      holdings held custodians u t + (if t = token then if sender ∈ custodians then amount else 0 else 0) =
        holdings held custodians w t + if t = token then if recipient ∈ custodians then amount else 0 else 0 := by
    rw [holdings, moved t member]
    by_cases same : t = token
    · subst same
      rw [Ledger.moveIn_self, if_pos rfl, if_pos rfl]
      exact Ledger.sum_move custodians recipient covered
    · rw [Ledger.moveIn_of_ne same, if_neg same, if_neg same, holdings]
  have dai := each DAI (by simp)
  have usdc := each USDC (by simp)
  have different : DAI ≠ USDC := by decide
  rw [CompoundSystem.idle, CompoundSystem.idle, unit, USDC_SCALING_FACTOR]
  by_cases isDai : token = DAI
  · rw [isDai, if_pos rfl, if_pos rfl] at dai
    rw [isDai, if_neg different.symm, if_neg different.symm] at usdc
    rw [if_pos isDai]
    split_ifs at dai ⊢ <;> omega
  · rw [if_neg (Ne.symm isDai), if_neg (Ne.symm isDai)] at dai
    rw [if_neg isDai]
    by_cases isUsdc : token = USDC
    · rw [isUsdc, if_pos rfl, if_pos rfl] at usdc
      rw [if_pos isUsdc]
      split_ifs at usdc ⊢ <;> omega
    · rw [if_neg (Ne.symm isUsdc), if_neg (Ne.symm isUsdc)] at usdc
      rw [if_neg isUsdc]
      split_ifs <;> omega

theorem idle_of_same (same : ∀ t ∈ [DAI, USDC], held u t = held w t) : idle held custodians u = idle held custodians w := by
  rw [idle, idle, holdings, holdings, holdings, holdings, same DAI (by simp), same USDC (by simp)]

/-- What custodians give and get in a trade of one of them for the benefit of another. -/
theorem Traded.holdings (traded : Traded held sold sender soldAmount bought recipient boughtAmount w u)
    (psm : daiPSM ∉ custodians) (join : GEM_JOIN ∉ custodians) (inside : sender ∈ custodians)
    (benefits : recipient ∈ custodians) :
    CompoundSystem.holdings held custodians u sold + soldAmount = CompoundSystem.holdings held custodians w sold ∧
      CompoundSystem.holdings held custodians u bought =
        CompoundSystem.holdings held custodians w bought + boughtAmount := by
  have away {a : Address} (member : a ∈ custodians) : a ≠ daiPSM ∧ a ≠ GEM_JOIN :=
    ⟨fun same => psm (same ▸ member), fun same => join (same ▸ member)⟩
  constructor
  · have paid : ∑ a ∈ custodians, (if a = sender then soldAmount else 0) = soldAmount := by
      rw [Finset.sum_ite_eq', if_pos inside]
    rw [CompoundSystem.holdings, ← paid, ← Finset.sum_add_distrib]
    exact Finset.sum_congr rfl fun a member => (traded a (away member).1 (away member).2).1
  · have got : ∑ a ∈ custodians, (if a = recipient then boughtAmount else 0) = boughtAmount := by
      rw [Finset.sum_ite_eq', if_pos benefits]
    rw [CompoundSystem.holdings, CompoundSystem.holdings, ← got, ← Finset.sum_add_distrib]
    exact Finset.sum_congr rfl fun a member => (traded a (away member).1 (away member).2).2

end Books

/-! ### What the deposits can redeem -/

/-- A deposit where it was deployed, that lends the token of its cToken. -/
structure Kept (custodians markets : Finset Address) (asset : Address → Address) (a : Address)
    (deposit : ERC20CompoundPCVDeposit) : Prop where
  self : deposit.self = a
  inside : a ∈ custodians
  cToken : deposit.cToken ∈ markets
  token : deposit.token = asset deposit.cToken

/-- The router and the deposits are the custodians, and neither their cTokens nor Maker is one. No cToken lends
another. -/
structure Closed (custodians markets : Finset Address) (asset : Address → Address) (r : CompoundPCVRouter) (s : State ω) :
    Prop where
  router : r.self ∈ custodians
  psm : daiPSM ∉ custodians
  join : GEM_JOIN ∉ custodians
  apart : Disjoint custodians markets
  assets : ∀ cToken ∈ markets, asset cToken ∉ markets
  deposits : ∀ a deposit, s.deposits a = some deposit → Kept custodians markets asset a deposit

section Claims

variable {e : Externals ω} {r : CompoundPCVRouter} {asset : Address → Address} {custodians markets : Finset Address}
  {loss gain : ℕ} {s : State ω} {w u : ω} {a : Address} {deposit : ERC20CompoundPCVDeposit} {amount : ℤ}

theorem lent_of_same (closed : Closed custodians markets asset r s) (same : ∀ cToken ∈ markets, SameClaims e cToken w u) :
    lent e custodians s.deposits u = lent e custodians s.deposits w := by
  refine Finset.sum_congr rfl fun a _ => ?_
  cases here : s.deposits a with
  | none => rfl
  | some deposit => exact congrArg (unit deposit.token * ·) (same _ (closed.deposits a deposit here).cToken deposit.self)

/-- What a deposit is credited with, the deposits together can redeem, up to what each is short by. -/
theorem lent_of_credited (closed : Closed custodians markets asset r s) (here : s.deposits a = some deposit)
    (credited : Credited e asset loss gain deposit.cToken deposit.self amount w u) :
    (lent e custodians s.deposits u : ℤ) - (lent e custodians s.deposits w + unit deposit.token * amount) ∈
      Set.Icc (-(custodians.card * loss) : ℤ) (custodians.card * gain) := by
  have kept := closed.deposits a deposit here
  have share : (unit deposit.token * amount : ℤ) =
      ∑ b ∈ custodians, if b = a then unit deposit.token * amount else 0 := by
    rw [Finset.sum_ite_eq', if_pos kept.inside]
  rw [share, lent, lent, Nat.cast_sum, Nat.cast_sum, ← Finset.sum_add_distrib, ← Finset.sum_sub_distrib]
  rw [← mul_neg, ← nsmul_eq_mul, ← nsmul_eq_mul]
  suffices each : ∀ b ∈ custodians, _ ∈ Set.Icc (-loss : ℤ) gain from
    ⟨Finset.card_nsmul_le_sum _ _ _ fun b member => (each b member).1,
      Finset.sum_le_card_nsmul _ _ _ fun b member => (each b member).2⟩
  intro b _
  cases there : s.deposits b with
  | none =>
    have elsewhere : b ≠ a := fun same => by cases there.symm.trans (same ▸ here)
    simp [elsewhere]
  | some other =>
    have lends := closed.deposits b other there
    have bound := credited other.cToken other.self
    rw [← lends.token, lends.self, kept.self] at bound
    simp only [Option.elim_some, Nat.cast_mul, lends.self]
    by_cases same : b = a
    · subst same
      obtain rfl := Option.some.inj (here.symm.trans there)
      simpa only [and_self, if_true] using bound
    · simpa only [same, and_false, if_false] using bound

end Claims

/-! ### Calls -/

section Calls

variable {e : Externals ω} {r : CompoundPCVRouter} {held : ω → Address → Address → ℕ} {asset : Address → Address}
  {custodians markets : Finset Address} {loss gain : ℕ} {s t : State ω} {w u : ω} {a sender recipient : Address} {amount : ℕ}
  {deposit : ERC20CompoundPCVDeposit} {ctx : Context} {call : Call ω}

theorem Closed.not_market (closed : Closed custodians markets asset r s) (inside : a ∈ custodians) : a ∉ markets :=
  Finset.disjoint_left.mp closed.apart inside

theorem pcv_of_approve (closed : Closed custodians markets asset r s) (exact : Exact e held asset loss gain)
    {token spender : Address} (approved : e.approve w token sender spender amount = some u) :
    pcv e held custodians s.deposits u = pcv e held custodians s.deposits w := by
  obtain ⟨same, -, claims⟩ := exact.approve approved
  rw [pcv, pcv, idle_of_same same, lent_of_same closed fun cToken _ => claims cToken]

/-- A deposit can redeem what it supplies. -/
theorem pcv_of_deposit (closed : Closed custodians markets asset r s) (exact : Exact e held asset loss gain)
    (here : s.deposits a = some deposit) (supplied : deposit.deposit e.toContracts w = .ok u) :
    pcv e held custodians s.deposits u - pcv e held custodians s.deposits w ∈
      Set.Icc (-(custodians.card * loss) : ℤ) (custodians.card * gain) := by
  obtain ⟨amount, approved, -, approving, minting⟩ := ERC20CompoundPCVDeposit.deposit_spec supplied
  have kept := closed.deposits a deposit here
  obtain ⟨paid, credited⟩ := exact.mint minting
  have given := paid.idle custodians
  rw [← kept.token, if_pos (kept.self ▸ kept.inside), if_neg fun inside => closed.not_market inside kept.cToken] at given
  rw [← pcv_of_approve closed exact approving, pcv, pcv]
  refine Set.mem_of_eq_of_mem ?_ (lent_of_credited closed here credited)
  zify at given
  linarith

/-- A withdrawal pays out what it redeems. -/
theorem pcv_of_withdraw (closed : Closed custodians markets asset r s) (exact : Exact e held asset loss gain)
    (here : s.deposits a = some deposit) (elsewhere : recipient ∉ markets)
    (withdrawn : deposit.withdraw e.toContracts ctx w recipient amount = .ok u) :
    pcv e held custodians s.deposits u + (if recipient ∈ custodians then (0 : ℤ) else (unit deposit.token * amount : ℕ)) -
        pcv e held custodians s.deposits w ∈ Set.Icc (-(custodians.card * loss) : ℤ) (custodians.card * gain) ∧
      SameFees e w u := by
  obtain ⟨-, redeemed, redeeming, sent⟩ := ERC20CompoundPCVDeposit.withdraw_spec withdrawn
  have kept := closed.deposits a deposit here
  have inside : deposit.self ∈ custodians := kept.self ▸ kept.inside
  obtain ⟨taken, ⟨tin, tout⟩, credited⟩ := exact.redeemUnderlying redeeming
  obtain ⟨paid, ⟨sameTin, sameTout⟩, claims⟩ := exact.transfer sent
  refine ⟨?_, sameTin.trans tin, sameTout.trans tout⟩
  have got := taken.idle custodians
  rw [← kept.token, if_pos inside, if_neg fun inside => closed.not_market inside kept.cToken, Nat.add_zero] at got
  have given := paid.idle custodians
  rw [if_pos inside, got] at given
  have lending := lent_of_credited closed here credited
  have same := lent_of_same closed fun cToken market =>
    claims cToken (fun same => closed.assets _ kept.cToken (kept.token ▸ same ▸ market)) (fun same => elsewhere (same ▸ market))
  rw [← same] at lending
  rw [pcv, pcv]
  refine Set.mem_of_eq_of_mem ?_ lending
  split_ifs at given ⊢ <;> zify at given <;> push_cast <;> linarith

theorem routerContracts_withdraw (closed : Closed custodians markets asset r s) (exact : Exact e held asset loss gain)
    (withdrawn : (routerContracts e s).withdraw w a r.self r.self amount = some u) :
    pcv e held custodians s.deposits u - pcv e held custodians s.deposits w ∈
        Set.Icc (-(custodians.card * loss) : ℤ) (custodians.card * gain) ∧
      SameFees e w u := by
  obtain ⟨deposit, here, success⟩ := Option.bind_eq_some_iff.mp withdrawn
  obtain ⟨paid, same⟩ := pcv_of_withdraw closed exact here (closed.not_market closed.router) (toOption_eq_some.mp success)
  rw [if_pos closed.router, add_zero] at paid
  exact ⟨paid, same⟩

theorem routerContracts_deposit (closed : Closed custodians markets asset r s) (exact : Exact e held asset loss gain)
    (supplied : (routerContracts e s).deposit w a sender = some u) :
    a ∈ custodians ∧ pcv e held custodians s.deposits u - pcv e held custodians s.deposits w ∈
      Set.Icc (-(custodians.card * loss) : ℤ) (custodians.card * gain) := by
  obtain ⟨deposit, here, success⟩ := Option.bind_eq_some_iff.mp supplied
  exact ⟨(closed.deposits a deposit here).inside, pcv_of_deposit closed exact here (toOption_eq_some.mp success)⟩

/-- Between a withdrawal and a supply, each as exact as a cToken is, nothing is lost. -/
theorem pcv_of_between {before withdrawn sold after least most : ℤ} (received : withdrawn - before ∈ Set.Icc (-least) most)
    (same : sold = withdrawn) (supplied : after - sold ∈ Set.Icc (-least) most) :
    after - before ∈ Set.Icc (-(least * 2)) (most * 2) := by
  rw [same] at supplied
  constructor <;> linarith only [received.1, received.2, supplied.1, supplied.2]

/-- A swap conserves the PCV, with what stays in the router, up to the rounding and the interest of two cTokens. -/
theorem pcv_of_swapUsdcForDai (closed : Closed custodians markets asset r s) (exact : Exact e held asset loss gain)
    (swapped : r.swapUsdcForDai (routerContracts e s) w ctx amount = .ok u) :
    pcv e held custodians s.deposits u - pcv e held custodians s.deposits w ∈
      Set.Icc (-(custodians.card * loss * 2) : ℤ) (custodians.card * gain * 2) := by
  simp only [swapUsdcForDai, bind_eq_ok, external_eq_ok, require_eq_ok, safeApprove_eq_ok] at swapped
  obtain ⟨_, -, _, free, _, rfl, withdrawn, withdrawing, approved, ⟨-, approving⟩, sold, selling, supplying⟩ := swapped
  obtain ⟨received, tin, -⟩ := routerContracts_withdraw closed exact withdrawing
  obtain ⟨-, ⟨sameTin, -⟩, -⟩ := exact.approve approving
  obtain ⟨inside, supplied⟩ := routerContracts_deposit closed exact supplying
  have fee : e.tin approved = some 0 := sameTin.trans (tin.trans free)
  obtain ⟨trade, traded⟩ := exact.sellGem fee selling
  obtain ⟨paid, got⟩ := trade.holdings closed.psm closed.join closed.router inside
  have sale : pcv e held custodians s.deposits sold = pcv e held custodians s.deposits approved := by
    have same := lent_of_same closed fun cToken market =>
      traded cToken fun benefits => closed.not_market inside (benefits ▸ market)
    rw [pcv, pcv, same, idle, idle, got, ← paid]
    push_cast
    ring
  exact pcv_of_between received (sale.trans (pcv_of_approve closed exact approving)) supplied

theorem pcv_of_swapDaiForUsdc (closed : Closed custodians markets asset r s) (exact : Exact e held asset loss gain)
    (swapped : r.swapDaiForUsdc (routerContracts e s) w ctx amount = .ok u) :
    pcv e held custodians s.deposits u - pcv e held custodians s.deposits w ∈
      Set.Icc (-(custodians.card * loss * 2) : ℤ) (custodians.card * gain * 2) := by
  simp only [swapDaiForUsdc, bind_eq_ok, external_eq_ok, require_eq_ok, safeApprove_eq_ok] at swapped
  obtain ⟨_, -, _, free, _, rfl, withdrawn, withdrawing, approved, ⟨-, approving⟩, bought, buying, supplying⟩ := swapped
  obtain ⟨received, -, tout⟩ := routerContracts_withdraw closed exact withdrawing
  obtain ⟨-, ⟨-, sameTout⟩, -⟩ := exact.approve approving
  obtain ⟨inside, supplied⟩ := routerContracts_deposit closed exact supplying
  have fee : e.tout approved = some 0 := sameTout.trans (tout.trans free)
  obtain ⟨trade, traded⟩ := exact.buyGem fee buying
  obtain ⟨paid, got⟩ := trade.holdings closed.psm closed.join closed.router inside
  have purchase : pcv e held custodians s.deposits bought = pcv e held custodians s.deposits approved := by
    have same := lent_of_same closed fun cToken market =>
      traded cToken fun benefits => closed.not_market inside (benefits ▸ market)
    rw [pcv, pcv, same, idle, idle, got, ← paid]
    push_cast
    ring
  exact pcv_of_between received (purchase.trans (pcv_of_approve closed exact approving)) supplied

/-! ### Runs -/

/-- What comes in from elsewhere, or goes there when it is negative, and what a new deposit finds on Compound. -/
def inflow (e : Externals ω) (held : ω → Address → Address → ℕ) (custodians : Finset Address) (s : State ω) (call : Call ω)
    (t : State ω) : ℤ :=
  match call with
  | .environment _ | .deploy _ _ => worth e held custodians t - worth e held custodians s
  | _ => 0

/-- What a call of a deposit pays to others, in units of DAI; cTokens that it gives away count by what can no longer be
redeemed. -/
def outflow (e : Externals ω) (custodians markets : Finset Address) (s : State ω) (call : Call ω) (t : State ω) : ℤ :=
  match call with
  | .withdraw a _ recipient amount =>
    if recipient ∈ custodians then 0 else (s.deposits a).elim 0 fun deposit => (unit deposit.token * amount : ℕ)
  | .withdrawERC20 _ _ token recipient amount =>
    (if recipient ∈ custodians then 0 else (unit token * amount : ℕ)) +
      if token ∈ markets then (lent e custodians s.deposits s.world - lent e custodians t.deposits t.world : ℤ) else 0
  | _ => 0

/-- A PCV controller makes the call. -/
def ByController (s : State ω) : Call ω → Prop
  | .withdraw _ sender _ _ | .withdrawERC20 _ sender _ _ _ => s.hasRole .pcvController sender = true
  | _ => False

/-- How often a call supplies to a cToken or redeems from one. -/
def lendings : Call ω → ℕ
  | .swapUsdcForDai _ _ | .swapDaiForUsdc _ _ => 2
  | .deposit _ | .withdraw _ _ _ _ => 1
  | _ => 0

/-- The custodians count all deposits and the markets their cTokens, and nothing is withdrawn to a cToken itself, which
would be shared by all who lend there. -/
def Counted (custodians markets : Finset Address) : Call ω → Prop
  | .deploy a cToken => a ∈ custodians ∧ cToken ∈ markets
  | .withdraw _ _ recipient _ | .withdrawERC20 _ _ _ recipient _ => recipient ∉ markets
  | _ => True

theorem Closed.enter (closed : Closed custodians markets asset r s) (w : ω) :
    Closed custodians markets asset r (s.enter w) :=
  ⟨closed.router, closed.psm, closed.join, closed.apart, closed.assets, closed.deposits⟩

theorem Closed.place (closed : Closed custodians markets asset r s) (kept : Kept custodians markets asset a deposit) :
    Closed custodians markets asset r (s.place a deposit) := by
  refine ⟨closed.router, closed.psm, closed.join, closed.apart, closed.assets, fun other found here => ?_⟩
  change Function.update s.deposits a (some deposit) other = some found at here
  by_cases same : other = a
  · rw [same, Function.update_self] at here
    exact same ▸ Option.some.inj here ▸ kept
  · rw [Function.update_of_ne same] at here
    exact closed.deposits other found here

theorem Closed.write (closed : Closed custodians markets asset r s) (here : s.deposits a = some deposit) (c : CoreRef) :
    Closed custodians markets asset r (s.write a deposit c) := by
  obtain ⟨self, inside, cToken, token⟩ := closed.deposits a deposit here
  exact closed.place ⟨self, inside, cToken, token⟩

/-- What a deposit can redeem does not depend on its part of CoreRef. -/
theorem worth_write (here : s.deposits a = some deposit) (c : CoreRef) :
    worth e held custodians (s.write a deposit c) = worth e held custodians s := by
  have same : lent e custodians (s.write a deposit c).deposits s.world = lent e custodians s.deposits s.world := by
    refine Finset.sum_congr rfl fun b _ => ?_
    change (Function.update s.deposits a (some { deposit with toCoreRef := c }) b).elim 0 _ = _
    by_cases address : b = a
    · subst address
      rw [Function.update_self, here]
      rfl
    · rw [Function.update_of_ne address]
  rw [worth, worth, pcv, pcv, ← same]
  rfl

theorem kept_of_deploy (exact : Exact e held asset loss gain) {cToken : Address}
    (counted : a ∈ custodians ∧ cToken ∈ markets)
    (deployed : ERC20CompoundPCVDeposit.deploy e.toContracts w a cToken = .ok deposit) :
    Kept custodians markets asset a deposit := by
  simp only [ERC20CompoundPCVDeposit.deploy, bind_eq_ok, external_eq_ok, require_eq_ok, pure_eq_ok] at deployed
  obtain ⟨_, -, _, -, token, answer, rfl⟩ := deployed
  exact ⟨rfl, counted.1, counted.2, (exact.underlying answer).symm⟩

/-- Each call changes the PCV by what comes in and what it pays out, up to the rounding and the interest of cTokens. -/
theorem pcv_of_step (exact : Exact e held asset loss gain) (counted : Counted custodians markets call)
    (closed : Closed custodians markets asset r s) (stepped : step e r s call = .ok t) :
    Closed custodians markets asset r t ∧
      worth e held custodians t + outflow e custodians markets s call t -
          (worth e held custodians s + inflow e held custodians s call t) ∈
        Set.Icc (-(custodians.card * loss * lendings call) : ℤ) (custodians.card * gain * lendings call) := by
  have within {u : ω} {bounds : Set ℤ}
      (near : pcv e held custodians s.deposits u - pcv e held custodians s.deposits s.world ∈ bounds) :
      Closed custodians markets asset r (s.enter u) ∧
        worth e held custodians (s.enter u) + 0 - (worth e held custodians s + 0) ∈ bounds := by
    rw [add_zero, add_zero]
    exact ⟨closed.enter u, near⟩
  have balanced {difference : ℤ} (zero : difference = 0) :
      difference ∈ Set.Icc (-(custodians.card * loss * (0 : ℕ)) : ℤ) (custodians.card * gain * (0 : ℕ)) := by
    simp [zero]
  have unchanged {u : State ω} (same : worth e held custodians u = worth e held custodians s) :
      worth e held custodians u + 0 - (worth e held custodians s + 0) ∈
        Set.Icc (-(custodians.card * loss * (0 : ℕ)) : ℤ) (custodians.card * gain * (0 : ℕ)) :=
    balanced (by rw [same, sub_self])
  cases call with
  | environment change =>
    obtain rfl := Except.ok.inj stepped
    refine ⟨closed.enter _, ?_⟩
    simp [outflow, inflow, lendings]
  | roles hasRole =>
    obtain rfl := Except.ok.inj stepped
    exact ⟨⟨closed.router, closed.psm, closed.join, closed.apart, closed.assets, closed.deposits⟩, unchanged rfl⟩
  | swapUsdcForDai sender amount =>
    obtain ⟨u, swapped, rfl⟩ := map_eq_ok.mp stepped
    exact within (pcv_of_swapUsdcForDai closed exact swapped)
  | swapDaiForUsdc sender amount =>
    obtain ⟨u, swapped, rfl⟩ := map_eq_ok.mp stepped
    exact within (pcv_of_swapDaiForUsdc closed exact swapped)
  | deposit a =>
    obtain ⟨deposit, here, rest⟩ := bind_eq_ok.mp stepped
    obtain ⟨u, supplied, rfl⟩ := map_eq_ok.mp rest
    rw [lendings, Nat.cast_one, mul_one, mul_one]
    exact within (pcv_of_deposit closed exact (external_eq_ok.mp here) supplied)
  | withdraw a sender recipient amount =>
    obtain ⟨deposit, here, rest⟩ := bind_eq_ok.mp stepped
    obtain ⟨u, withdrawn, rfl⟩ := map_eq_ok.mp rest
    have here := external_eq_ok.mp here
    obtain ⟨paid, -⟩ := pcv_of_withdraw closed exact here counted withdrawn
    refine ⟨closed.enter u, ?_⟩
    simp only [outflow, here, Option.elim_some, inflow, add_zero, lendings, Nat.cast_one, mul_one]
    exact paid
  | withdrawERC20 a sender token recipient amount =>
    obtain ⟨deposit, here, rest⟩ := bind_eq_ok.mp stepped
    obtain ⟨u, withdrawn, rfl⟩ := map_eq_ok.mp rest
    have kept := closed.deposits a deposit (external_eq_ok.mp here)
    obtain ⟨-, sent⟩ := ERC20CompoundPCVDeposit.withdrawERC20_eq_ok.mp withdrawn
    obtain ⟨transferred, -, claims⟩ := exact.transfer sent
    have paid := transferred.idle custodians
    rw [if_pos (kept.self ▸ kept.inside)] at paid
    have given : (if token ∈ markets then
        (lent e custodians s.deposits s.world - lent e custodians s.deposits u : ℤ) else 0) =
        lent e custodians s.deposits s.world - lent e custodians s.deposits u := by
      split_ifs with market
      · rfl
      · rw [lent_of_same closed fun cToken lists =>
          claims cToken (fun same => market (same ▸ lists)) (fun same => counted (same ▸ lists)), sub_self]
    refine ⟨closed.enter u, balanced ?_⟩
    simp only [worth, pcv, State.enter, outflow, given, inflow]
    split_ifs at paid ⊢ <;> zify at paid <;> push_cast <;> linarith
  | pause a | unpause a | setContractAdminRole a =>
    obtain ⟨deposit, here, rest⟩ := bind_eq_ok.mp stepped
    obtain ⟨c, -, rfl⟩ := map_eq_ok.mp rest
    have here := external_eq_ok.mp here
    exact ⟨closed.write here c, unchanged (worth_write here c)⟩
  | deploy a cToken =>
    obtain ⟨_, -, rest⟩ := bind_eq_ok.mp stepped
    obtain ⟨deposit, deployed, rfl⟩ := map_eq_ok.mp rest
    refine ⟨closed.place (kept_of_deploy exact counted deployed), ?_⟩
    simp [outflow, inflow, lendings]

/-- Only PCV controllers have anything paid to others. -/
theorem byController_of_step (stepped : step e r s call = .ok t) :
    outflow e custodians markets s call t = 0 ∨ ByController s call := by
  cases call with
  | withdraw a sender recipient amount =>
    obtain ⟨deposit, -, rest⟩ := bind_eq_ok.mp stepped
    obtain ⟨u, withdrawn, -⟩ := map_eq_ok.mp rest
    exact .inr (ERC20CompoundPCVDeposit.withdraw_spec withdrawn).1
  | withdrawERC20 a sender token recipient amount =>
    obtain ⟨deposit, -, rest⟩ := bind_eq_ok.mp stepped
    obtain ⟨u, withdrawn, -⟩ := map_eq_ok.mp rest
    exact .inr (ERC20CompoundPCVDeposit.withdrawERC20_eq_ok.mp withdrawn).1
  | _ => exact .inl rfl

/-- In every run the PCV changes by what comes in from elsewhere and what PCV controllers have paid to others, up to what
rounding takes and what rounding and interest add when cTokens are called: the swaps neither make nor lose anything
else. What it counts for a deposit on Compound is what the `balance()` of the deposit reports. -/
theorem pcv_conserved {source target : State ω} {calls : List (Call ω)} (exact : Exact e held asset loss gain)
    (closed : Closed custodians markets asset r source) (counted : ∀ call ∈ calls, Counted custodians markets call)
    (success : run (step e r) source calls = .ok target) :
    worth e held custodians target + total (step e r) (outflow e custodians markets) source calls -
        (worth e held custodians source + total (step e r) (inflow e held custodians) source calls) ∈
      Set.Icc (-total (step e r) (fun _ call _ => (custodians.card * loss * lendings call : ℤ)) source calls)
        (total (step e r) (fun _ call _ => (custodians.card * gain * lendings call : ℤ)) source calls) ∧
      Along (step e r) (fun s call t => outflow e custodians markets s call t = 0 ∨ ByController s call) source calls ∧
      ∀ a deposit reported, target.deposits a = some deposit →
        deposit.balance e.toContracts target.world = .ok reported →
          reported = e.redeemable target.world deposit.cToken deposit.self := by
  refine ⟨?_, ?_, fun _ _ _ _ => ERC20CompoundPCVDeposit.redeemable_of_balance⟩
  · have balanced (state : State ω) (call : Call ω) (next : State ω) (counted : Counted custodians markets call)
        (closed : Closed custodians markets asset r state) (stepped : step e r state call = .ok next) :
        Closed custodians markets asset r next ∧
          worth e held custodians next + outflow e custodians markets state call next -
              (worth e held custodians state + inflow e held custodians state call next) ∈
            Set.Icc (-(custodians.card * loss * lendings call) : ℤ) (custodians.card * gain * lendings call) :=
      pcv_of_step exact counted closed stepped
    exact total_balance_between balanced counted closed success
  · have authorized (state : State ω) (call : Call ω) (next : State ω) (_ : True) (_ : True)
        (stepped : step e r state call = .ok next) :
        True ∧ (outflow e custodians markets state call next = 0 ∨ ByController state call) :=
      ⟨trivial, byController_of_step stepped⟩
    exact along_of_step authorized (fun _ _ => trivial) trivial

end Calls

/-! ### A market -/

/-- What the cTokens of the market lend. -/
def assetOf (cToken : Address) : Address := if cToken = 5 then DAI else USDC

/-- What each is worth of it. -/
def priceOf (cToken : Address) : ℕ := if cToken = 5 then 3 else 1

/-- The two cTokens of the market. -/
def IsCToken (cToken : Address) : Prop := cToken = 5 ∨ cToken = 6

instance decidableIsCToken (cToken : Address) : Decidable (IsCToken cToken) := inferInstanceAs (Decidable (_ ∨ _))

theorem ne_of_isCToken {cToken : Address} (listed : IsCToken cToken) : ∀ t ∈ [DAI, USDC], t ≠ cToken := by
  rw [List.forall_mem_cons, List.forall_mem_singleton]
  rcases listed with rfl | rfl
  · exact ⟨by decide, by decide⟩
  · exact ⟨by decide, by decide⟩

theorem assetOf_mem (cToken : Address) : assetOf cToken ∈ [DAI, USDC] := by
  rw [assetOf]
  split_ifs <;> simp

/-- `mint` of a cToken, which credits whole cTokens only -/
def lend (m : Market) (cToken sender : Address) (amount : ℕ) : Option (Market × ℕ) :=
  if IsCToken cToken then do
    let paid ← m.pull (assetOf cToken) sender cToken cToken amount
    return ({ paid with held := Ledger.creditIn paid.held cToken sender (amount / priceOf cToken) }, 0)
  else none

/-- `redeemUnderlying` of a cToken, which burns whole cTokens only and fails with a code -/
def redeem (m : Market) (cToken sender : Address) (amount : ℕ) : Option (Market × ℕ) :=
  if IsCToken cToken ∧ amount / priceOf cToken ≤ m.held cToken sender then do
    let paid ← m.pay (assetOf cToken) cToken sender amount
    let burnt := Ledger.debit (paid.held cToken) sender (amount / priceOf cToken)
    return ({ paid with held := Function.update paid.held cToken burnt }, 0)
  else some (m, 9)

/-- One market for the two tokens and the cTokens, where Maker takes no fees. -/
def market : Externals Market where
  toIDSSPSM := (exactContracts assetOf).toIDSSPSM
  balanceOf m token account := some (m.held token account)
  transfer m token sender recipient amount := m.pay token sender recipient amount
  allowance m token owner spender := some (m.allowed token owner spender)
  approve m token sender spender amount := some (m.setAllowance token sender spender amount)
  isCToken _ cToken := some (decide (IsCToken cToken))
  underlying _ cToken := if IsCToken cToken then some (assetOf cToken) else none
  exchangeRateStored _ cToken := if IsCToken cToken then some (priceOf cToken * 10 ^ 18) else none
  mint := lend
  redeemUnderlying := redeem

section Market

variable {m u : Market} {token sender owner recipient spender sold bought source cToken account : Address}
  {amount price : ℕ}

theorem paid_of_pay (sent : m.pay token sender recipient amount = some u) :
    Paid Market.held token sender recipient amount m u := by
  rw [Market.pay] at sent
  split_ifs at sent with covered
  obtain rfl := Option.some.inj sent
  exact ⟨covered, fun _ _ => rfl⟩

theorem paid_of_pull (pulled : m.pull token owner spender recipient amount = some u) :
    Paid Market.held token owner recipient amount m u := by
  rw [Market.pull] at pulled
  split_ifs at pulled
  have paid := paid_of_pay pulled
  exact paid

/-- What happens to a third token does not matter to a payment. -/
theorem Paid.update (paid : Paid Market.held token sender recipient amount m u) {other : Address}
    (different : ∀ t ∈ [DAI, USDC], t ≠ other) (balances : Address → ℕ) :
    Paid Market.held token sender recipient amount m { u with held := Function.update u.held other balances } := by
  obtain ⟨covered, moved⟩ := paid
  refine ⟨covered, fun t member => ?_⟩
  rw [← moved t member]
  exact Function.update_of_ne (different t member) ..

theorem traded_of_payments {paid : Market} (pulled : m.pull sold sender spender spender amount = some paid)
    (sent : paid.pay bought source recipient price = some u) (different : sold ≠ bought)
    (maker : (spender = daiPSM ∨ spender = GEM_JOIN) ∧ (source = daiPSM ∨ source = GEM_JOIN)) :
    Traded Market.held sold sender amount bought recipient price m u := by
  intro account notPSM notJoin
  obtain ⟨given, othersGiven, -⟩ := Market.pull_spec pulled
  obtain ⟨got, othersGot, -⟩ := Market.pay_spec sent
  have notSpender : account ≠ spender := by
    rintro rfl
    exact maker.1.elim notPSM notJoin
  have notSource : account ≠ source := by
    rintro rfl
    exact maker.2.elim notPSM notJoin
  have here := given account
  have there := got account
  rw [if_neg notSpender, add_zero] at here
  rw [if_neg notSource, add_zero, othersGiven bought different.symm] at there
  rw [othersGot sold different]
  exact ⟨here, there⟩

theorem market_redeemable (m : Market) (listed : IsCToken cToken) (account : Address) :
    market.redeemable m cToken account = m.held cToken account * priceOf cToken := by
  have rate : market.exchangeRateStored m cToken = some (priceOf cToken * 10 ^ 18) := if_pos listed
  have held : market.balanceOf m cToken account = some (m.held cToken account) := rfl
  simp only [ERC20CompoundPCVDeposit.Contracts.redeemable, rate, held, ERC20CompoundPCVDeposit.EXCHANGE_RATE_SCALE]
  rw [← Nat.mul_assoc, Nat.mul_div_cancel _ (by norm_num)]

theorem market_unredeemable (m : Market) (unlisted : ¬ IsCToken cToken) (account : Address) :
    market.redeemable m cToken account = 0 := by
  have rate : market.exchangeRateStored m cToken = none := if_neg unlisted
  simp only [ERC20CompoundPCVDeposit.Contracts.redeemable, rate]

theorem sameClaims_of_held (same : IsCToken cToken → u.held cToken = m.held cToken) : SameClaims market cToken m u := by
  intro account
  by_cases listed : IsCToken cToken
  · rw [market_redeemable u listed, market_redeemable m listed, same listed]
  · rw [market_unredeemable u listed, market_unredeemable m listed]

/-- A cToken credits what the cTokens that it makes or burns are worth. -/
theorem credited_of_held (listed : IsCToken cToken) {made change : ℤ}
    (claims : ∀ c a, IsCToken c → (u.held c a : ℤ) = m.held c a + if c = cToken ∧ a = account then made else 0)
    (rounded : |(unit (assetOf cToken) : ℤ) * (made * priceOf cToken) - unit (assetOf cToken) * change| ≤ 2) :
    Credited market assetOf 2 2 cToken account change m u := by
  intro c a
  by_cases lists : IsCToken c
  · rw [market_redeemable u lists, market_redeemable m lists]
    push_cast
    rw [claims c a lists]
    by_cases same : c = cToken ∧ a = account
    · rw [if_pos same, if_pos same]
      obtain ⟨rfl, rfl⟩ := same
      refine Set.mem_of_eq_of_mem ?_ (abs_le.mp rounded)
      ring
    · simp [same]
  · have other : c ≠ cToken := fun same => lists (same ▸ listed)
    rw [market_unredeemable u lists, market_unredeemable m lists]
    simp [other]

/-- Whole cTokens for an amount leave at most two units of DAI of it. -/
theorem rounded (listed : IsCToken cToken) (amount : ℕ) :
    |(unit (assetOf cToken) : ℤ) * ((amount / priceOf cToken : ℕ) * priceOf cToken) - unit (assetOf cToken) * amount| ≤
      2 := by
  rcases listed with rfl | rfl
  · have dai : unit (assetOf 5) = 1 := by decide
    have three : priceOf 5 = 3 := by decide
    rw [dai, three, abs_le]
    push_cast
    omega
  · have one : priceOf 6 = 1 := by decide
    rw [one, Nat.div_one, Nat.cast_one, mul_one, sub_self]
    norm_num

theorem market_exact : Exact market Market.held assetOf 2 2 where
  underlying {w cToken token} answer := by
    change (if IsCToken cToken then some (assetOf cToken) else none) = some token at answer
    split_ifs at answer
    exact Option.some.inj answer
  transfer {w u token sender recipient amount} sent := by
    refine ⟨paid_of_pay sent, ⟨rfl, rfl⟩, fun cToken different _ => sameClaims_of_held fun _ => ?_⟩
    exact (Market.pay_spec sent).2.1 cToken different
  approve {w u token sender spender amount} approved := by
    obtain rfl := Option.some.inj approved
    exact ⟨fun _ _ => rfl, ⟨rfl, rfl⟩, fun _ _ => rfl⟩
  mint {w u cToken sender amount} minted := by
    change lend w cToken sender amount = some (u, 0) at minted
    rw [lend] at minted
    split_ifs at minted with listed
    obtain ⟨paid, pulled, rest⟩ := Option.bind_eq_some_iff.mp minted
    obtain rfl := (Prod.mk.inj (Option.some.inj rest)).1
    refine ⟨(paid_of_pull pulled).update (ne_of_isCToken listed) _, credited_of_held listed ?_ (rounded listed amount)⟩
    intro c a lists
    have others := (Market.pull_spec pulled).2.1 c (ne_of_isCToken lists _ (assetOf_mem cToken)).symm
    dsimp only
    by_cases same : c = cToken
    · subst same
      rw [Ledger.creditIn_self, others]
      by_cases address : a = sender
      · subst address
        simp
      · simp [address]
    · rw [Ledger.creditIn_of_ne same, others]
      simp [same]
  redeemUnderlying {w u cToken sender amount} redeemed := by
    change redeem w cToken sender amount = some (u, 0) at redeemed
    rw [redeem] at redeemed
    split_ifs at redeemed with possible
    · obtain ⟨listed, enough⟩ := possible
      obtain ⟨paid, sent, rest⟩ := Option.bind_eq_some_iff.mp redeemed
      obtain rfl := (Prod.mk.inj (Option.some.inj rest)).1
      have burnt : |(unit (assetOf cToken) : ℤ) * (-(amount / priceOf cToken : ℕ) * priceOf cToken) -
          unit (assetOf cToken) * -amount| ≤ 2 := by
        rw [← abs_neg]
        exact (congrArg abs (by ring)).trans_le (rounded listed amount)
      refine ⟨(paid_of_pay sent).update (ne_of_isCToken listed) _, ⟨rfl, rfl⟩,
        credited_of_held listed ?_ burnt⟩
      intro c a lists
      have others := (Market.pay_spec sent).2.1 c (ne_of_isCToken lists _ (assetOf_mem cToken)).symm
      dsimp only
      by_cases same : c = cToken
      · subst same
        rw [Function.update_self, others]
        by_cases address : a = sender
        · subst address
          rw [Ledger.debit_self, Nat.cast_sub enough]
          simp [sub_eq_add_neg]
        · simp [address]
      · rw [Function.update_of_ne same, others]
        simp [same]
    · exact absurd (Prod.mk.inj (Option.some.inj redeemed)).2 (by decide)
  sellGem {w u sender usr gemAmt} _ sold := by
    obtain ⟨paid, pulled, sent⟩ := Option.bind_eq_some_iff.mp sold
    refine ⟨traded_of_payments pulled sent (by decide) ⟨.inr rfl, .inl rfl⟩, ?_⟩
    refine fun cToken _ => sameClaims_of_held fun listed => ?_
    have others := ne_of_isCToken listed
    rw [(Market.pay_spec sent).2.1 cToken (others DAI (by simp)).symm,
      (Market.pull_spec pulled).2.1 cToken (others USDC (by simp)).symm]
  buyGem {w u sender usr gemAmt} _ bought := by
    obtain ⟨paid, pulled, sent⟩ := Option.bind_eq_some_iff.mp bought
    refine ⟨traded_of_payments pulled sent (by decide) ⟨.inl rfl, .inr rfl⟩, ?_⟩
    refine fun cToken _ => sameClaims_of_held fun listed => ?_
    have others := ne_of_isCToken listed
    rw [(Market.pay_spec sent).2.1 cToken (others USDC (by simp)).symm,
      (Market.pull_spec pulled).2.1 cToken (others DAI (by simp)).symm]

end Market

/-- Two deposits are deployed and supplied, a controller swaps DAI for USDC, of which the router keeps three units, and
then has a unit of USDC paid out. -/
theorem pcv_conserved_swap :
    let r : CompoundPCVRouter := ⟨2, 3, 4⟩
    let custodians : Finset Address := {2, 3, 4}
    let held (token a : Address) : ℕ :=
      if token = DAI ∧ a = 3 ∨ token = USDC ∧ a = GEM_JOIN then 5 * 10 ^ 12 else 0
    let source : State Market :=
      ⟨⟨held, fun _ _ _ => 0⟩, fun role a => decide (role = .pcvController ∧ (a = 2 ∨ a = 1)), fun _ => none⟩
    let calls : List (Call Market) := [.deploy 3 5, .deploy 4 6, .deposit 3, .deposit 4,
      .swapDaiForUsdc 1 (2 * 10 ^ 12 + 3), .withdraw 4 1 9 1]
    ∃ target, run (step market r) source calls = .ok target ∧
      worth market Market.held custodians source = 5 * 10 ^ 12 ∧
      total (step market r) (outflow market custodians {5, 6}) source calls = 10 ^ 12 ∧
      |worth market Market.held custodians target - 4 * 10 ^ 12| ≤ 30 := by
  intro r custodians held source calls
  have ok : (run (step market r) source calls).isOk = true := by decide +kernel
  obtain ⟨target, success⟩ := exists_of_isOk ok
  have closed : Closed custodians {5, 6} assetOf r source :=
    ⟨by decide, by decide, by decide, by simp [custodians], by simp [assetOf, DAI, USDC], fun a deposit here => by cases here⟩
  have counted : ∀ call ∈ calls, Counted custodians {5, 6} call := by
    simp [calls, Counted, custodians]
  obtain ⟨conserved, -⟩ := pcv_conserved market_exact closed counted success
  have paid : total (step market r) (outflow market custodians {5, 6}) source calls = 10 ^ 12 := by decide +kernel
  have nothing : total (step market r) (inflow market Market.held custodians) source calls = 0 := by decide +kernel
  have bound : total (step market r) (fun _ call _ => (custodians.card * (2 : ℕ) * lendings call : ℤ)) source calls = 30 := by
    decide +kernel
  have before : worth market Market.held custodians source = 5 * 10 ^ 12 := by decide +kernel
  refine ⟨target, success, before, paid, ?_⟩
  rw [paid, nothing, before, bound] at conserved
  rw [abs_le]
  constructor <;> linarith [conserved.1, conserved.2]

end VoltProtocol.CompoundSystem
