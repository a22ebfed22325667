import VoltProtocol.ToMathlib.Ledger
import VoltProtocol.Model.CoreRef

/-! # ERC20HoldingPCVDeposit, a safe harbour for tokens

The deposit holds one token, reports its own balance of it and pays it out to governors and PCV
controllers. PCV controllers can take any other token out as well, and depositing does nothing. A
withdrawal works while the deposit is paused; only the empty `deposit` does not.
-/

namespace VoltProtocol

structure ERC20HoldingPCVDeposit extends CoreRef where
  self : Address
  token : Address
deriving DecidableEq, Repr

namespace ERC20HoldingPCVDeposit

/-- The tokens a deposit calls. The first account of a transfer is its sender. -/
structure Tokens (ω : Type) where
  balanceOf : ω → (token account : Address) → Option ℕ
  transfer : ω → (token sender recipient : Address) → ℕ → Option ω

/-- `MainnetAddresses.VOLT` -/
def MAINNET_VOLT : Address := 0x559eBC30b0E58a45Cc9fF573f77EF1e5eb1b3E18

/-- `ArbitrumAddresses.VOLT` -/
def ARBITRUM_VOLT : Address := 0x6Ba6f18a290Cd55cf1B00be2bEc5c954cb29fAc5

def deploy (self token : Address) : Except Revert ERC20HoldingPCVDeposit := do
  require (token ≠ MAINNET_VOLT ∧ token ≠ ARBITRUM_VOLT) "VOLT not supported"
  return { toCoreRef := ⟨.governor, false⟩, self, token }

variable {ω : Type} (tokens : Tokens ω) (s : ERC20HoldingPCVDeposit)

def balance (w : ω) : Except Revert ℕ := external (tokens.balanceOf w s.token s.self)

def resistantBalanceAndVolt (w : ω) : Except Revert (ℕ × ℕ) := do
  return (← s.balance tokens w, 0)

def balanceReportedIn : Address := s.token

def deposit : Except Revert Unit := s.whenNotPaused

def withdraw (ctx : Context) (w : ω) (recipient : Address) (amountUnderlying : ℕ) : Except Revert ω := do
  ctx.hasAnyOfTwoRoles .governor .pcvController
  external (tokens.transfer w s.token s.self recipient amountUnderlying)

def withdrawAll (ctx : Context) (w : ω) (recipient : Address) : Except Revert ω := do
  ctx.hasAnyOfTwoRoles .governor .pcvController
  let amountUnderlying ← s.balance tokens w
  external (tokens.transfer w s.token s.self recipient amountUnderlying)

/-- `withdrawERC20` of PCVDeposit -/
def withdrawERC20 (ctx : Context) (w : ω) (token recipient : Address) (amount : ℕ) : Except Revert ω := do
  ctx.onlyPCVController
  external (tokens.transfer w token s.self recipient amount)

section Spec

variable {tokens s} {ctx : Context} {w u : ω} {token recipient : Address} {amount : ℕ}

theorem withdraw_eq_ok : s.withdraw tokens ctx w recipient amount = .ok u ↔
    (ctx.hasRole .governor ctx.sender || ctx.hasRole .pcvController ctx.sender) = true ∧
      tokens.transfer w s.token s.self recipient amount = some u := by
  rw [withdraw, Context.hasAnyOfTwoRoles, require_bind_eq_ok, external_eq_ok]

theorem withdrawAll_eq_ok : s.withdrawAll tokens ctx w recipient = .ok u ↔
    (ctx.hasRole .governor ctx.sender || ctx.hasRole .pcvController ctx.sender) = true ∧
      ∃ held, tokens.balanceOf w s.token s.self = some held ∧
        tokens.transfer w s.token s.self recipient held = some u := by
  rw [withdrawAll, Context.hasAnyOfTwoRoles, require_bind_eq_ok]
  simp only [balance, bind_eq_ok, external_eq_ok]

theorem withdrawERC20_eq_ok : s.withdrawERC20 tokens ctx w token recipient amount = .ok u ↔
    ctx.hasRole .pcvController ctx.sender = true ∧
      tokens.transfer w token s.self recipient amount = some u := by
  rw [withdrawERC20, Context.onlyPCVController, require_bind_eq_ok, external_eq_ok]
  rfl

end Spec

end ERC20HoldingPCVDeposit

end VoltProtocol
