import VoltProtocol.Model.CoreRef

/-! # ERC20CompoundPCVDeposit, PCV lent on Compound

The deposit supplies all it holds of one token to its cToken, and redeems what PCV controllers withdraw. It keeps
nothing in storage: its balance is read off the cTokens it holds. Compound reports errors by codes, of which zero
means success. The cTokens and the tokens are a parameter that acts on a world `ω`.
-/

namespace VoltProtocol

structure ERC20CompoundPCVDeposit extends CoreRef where
  self : Address
  cToken : Address
  token : Address
deriving DecidableEq, Repr

namespace ERC20CompoundPCVDeposit

/-- The tokens and cTokens that a deposit calls. The first account of a call is its sender, and cTokens answer with
an error code. -/
structure Contracts (ω : Type) where
  balanceOf : ω → (token account : Address) → Option ℕ
  transfer : ω → (token sender recipient : Address) → ℕ → Option ω
  approve : ω → (token sender spender : Address) → ℕ → Option ω
  isCToken : ω → (cToken : Address) → Option Bool
  underlying : ω → (cToken : Address) → Option Address
  exchangeRateStored : ω → (cToken : Address) → Option ℕ
  mint : ω → (cToken sender : Address) → (mintAmount : ℕ) → Option (ω × ℕ)
  redeemUnderlying : ω → (cToken sender : Address) → (redeemAmount : ℕ) → Option (ω × ℕ)

def EXCHANGE_RATE_SCALE : ℕ := 10 ^ 18

variable {ω : Type} (contracts : Contracts ω) (s : ERC20CompoundPCVDeposit)

/-- The constructors of CompoundPCVDepositBase and of the deposit. -/
def deploy (w : ω) (self cToken : Address) : Except Revert ERC20CompoundPCVDeposit := do
  let isCToken ← external (contracts.isCToken w cToken)
  require isCToken "CompoundPCVDeposit: Not a cToken"
  let token ← external (contracts.underlying w cToken)
  return { toCoreRef := ⟨.governor, false⟩, self, cToken, token }

def balance (w : ω) : Except Revert ℕ := do
  let exchangeRate ← external (contracts.exchangeRateStored w s.cToken)
  let held ← external (contracts.balanceOf w s.cToken s.self)
  return (← uint 256 (held * exchangeRate)) / EXCHANGE_RATE_SCALE

/-- `resistantBalanceAndVolt` of PCVDeposit -/
def resistantBalanceAndVolt (w : ω) : Except Revert (ℕ × ℕ) := do
  return (← s.balance contracts w, 0)

def balanceReportedIn : Address := s.token

def deposit (w : ω) : Except Revert ω := do
  s.whenNotPaused
  let amount ← external (contracts.balanceOf w s.token s.self)
  let approved ← external (contracts.approve w s.token s.self s.cToken amount)
  let (minted, error) ← external (contracts.mint approved s.cToken s.self amount)
  require (error = 0) "ERC20CompoundPCVDeposit: deposit error"
  return minted

/-- `withdraw` of CompoundPCVDepositBase, with the transfer of `_transferUnderlying` -/
def withdraw (ctx : Context) (w : ω) (recipient : Address) (amountUnderlying : ℕ) : Except Revert ω := do
  ctx.onlyPCVController
  s.whenNotPaused
  let (redeemed, error) ← external (contracts.redeemUnderlying w s.cToken s.self amountUnderlying)
  require (error = 0) "CompoundPCVDeposit: redeem error"
  external (contracts.transfer redeemed s.token s.self recipient amountUnderlying)

/-- `withdrawERC20` of PCVDeposit -/
def withdrawERC20 (ctx : Context) (w : ω) (token recipient : Address) (amount : ℕ) : Except Revert ω := do
  ctx.onlyPCVController
  external (contracts.transfer w token s.self recipient amount)

/-- What an account can redeem with the cTokens it holds, where it can be read. -/
def Contracts.redeemable (w : ω) (cToken account : Address) : ℕ :=
  match contracts.exchangeRateStored w cToken, contracts.balanceOf w cToken account with
  | some exchangeRate, some held => held * exchangeRate / EXCHANGE_RATE_SCALE
  | _, _ => 0

section Spec

variable {contracts s} {ctx : Context} {w u : ω} {token recipient : Address} {amount reported : ℕ}

/-- `balance()` reports what the deposit can redeem. -/
theorem redeemable_of_balance (read : s.balance contracts w = .ok reported) :
    reported = contracts.redeemable w s.cToken s.self := by
  simp only [balance, bind_eq_ok, external_eq_ok, uint_eq_ok, pure_eq_ok] at read
  obtain ⟨exchangeRate, rate, held, answer, _, ⟨-, rfl⟩, rfl⟩ := read
  rw [Contracts.redeemable, rate, answer]

theorem deposit_spec (success : s.deposit contracts w = .ok u) : ∃ amount approved,
    contracts.balanceOf w s.token s.self = some amount ∧
      contracts.approve w s.token s.self s.cToken amount = some approved ∧
      contracts.mint approved s.cToken s.self amount = some (u, 0) := by
  simp only [deposit, bind_eq_ok, external_eq_ok, require_eq_ok, pure_eq_ok] at success
  obtain ⟨_, -, amount, read, approved, approving, ⟨minted, error⟩, minting, _, rfl, rfl⟩ := success
  exact ⟨amount, approved, read, approving, minting⟩

theorem withdraw_spec (success : s.withdraw contracts ctx w recipient amount = .ok u) :
    ctx.isPCVController ctx.sender = true ∧ ∃ redeemed,
      contracts.redeemUnderlying w s.cToken s.self amount = some (redeemed, 0) ∧
        contracts.transfer redeemed s.token s.self recipient amount = some u := by
  simp only [withdraw, Context.onlyPCVController, bind_eq_ok, external_eq_ok, require_eq_ok] at success
  obtain ⟨_, controller, _, -, ⟨redeemed, error⟩, redeeming, _, rfl, sent⟩ := success
  exact ⟨controller, redeemed, redeeming, sent⟩

theorem withdrawERC20_eq_ok : s.withdrawERC20 contracts ctx w token recipient amount = .ok u ↔
    ctx.isPCVController ctx.sender = true ∧ contracts.transfer w token s.self recipient amount = some u := by
  rw [withdrawERC20, Context.onlyPCVController, require_bind_eq_ok, external_eq_ok]

end Spec

end ERC20CompoundPCVDeposit

end VoltProtocol
