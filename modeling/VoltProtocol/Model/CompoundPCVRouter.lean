import VoltProtocol.ToMathlib.Ledger
import VoltProtocol.Model.CoreRef

/-! # CompoundPCVRouter, swaps between the DAI and the USDC deposit

A swap withdraws from one PCV deposit, approves the token to Maker, trades it there for the benefit of
the other deposit and has that deposit supply what it got. The router has no storage of its own: what
it may leave behind are tokens and allowances in the world `ω` of the contracts it calls.
-/

namespace VoltProtocol

structure CompoundPCVRouter where
  self : Address
  daiPcvDeposit : Address
  usdcPcvDeposit : Address
deriving DecidableEq, Repr

namespace CompoundPCVRouter

def daiPSM : Address := 0x89B78CfA322F6C5dE0aBcEecab66Aee45393cC5A

def DAI : Address := 0x6B175474E89094C44Da98b954EedeAC495271d0F

def USDC : Address := 0xA0b86991c6218b36c1d19D4a2e9Eb0cE3606eB48

def GEM_JOIN : Address := 0x0A59649758aa4d66E25f08Dd01271e891fe52199

def USDC_SCALING_FACTOR : ℕ := 10 ^ 12

/-- The Maker PSM, with the sender of each trade. -/
structure IDSSPSM (ω : Type) where
  tin : ω → Option ℕ
  tout : ω → Option ℕ
  sellGem : ω → (sender usr : Address) → (gemAmt : ℕ) → Option ω
  buyGem : ω → (sender usr : Address) → (gemAmt : ℕ) → Option ω

/-- The contracts a router calls; the router is the sender of every call. -/
structure Contracts (ω : Type) extends IDSSPSM ω where
  withdraw : ω → (pcvDeposit sender recipient : Address) → ℕ → Option ω
  deposit : ω → (pcvDeposit sender : Address) → Option ω
  allowance : ω → (token owner spender : Address) → Option ℕ
  approve : ω → (token sender spender : Address) → ℕ → Option ω

/-- Balances per token, and allowances per token, owner and spender. -/
structure Market where
  held : Address → Address → ℕ
  allowed : Address → Address → Address → ℕ

namespace Market

variable (m : Market) (token owner spender recipient : Address) (amount : ℕ)

def setAllowance : Market :=
  { m with
    allowed := fun t o s => if t = token ∧ o = owner ∧ s = spender then amount else m.allowed t o s }

theorem setAllowance_self : (m.setAllowance token owner spender amount).allowed token owner spender = amount :=
  if_pos ⟨rfl, rfl, rfl⟩

theorem setAllowance_of_ne {other : Address} (different : other ≠ token) (account target : Address) :
    (m.setAllowance token owner spender amount).allowed other account target =
      m.allowed other account target :=
  if_neg fun same => different same.1

/-- A transfer by the owner. -/
def pay : Option Market :=
  if amount ≤ m.held token owner then
    some { m with held := Ledger.moveIn m.held token owner recipient amount }
  else none

/-- A transfer out of an allowance, which it reduces. -/
def pull : Option Market := do
  let allowed := m.allowed token owner spender
  if amount ≤ allowed then
    (m.setAllowance token owner spender (allowed - amount)).pay token owner recipient amount
  else none

section Moves

variable {m : Market} {token owner spender recipient : Address} {amount : ℕ} {u : Market}

theorem pay_spec (paid : m.pay token owner recipient amount = some u) :
    Ledger.Moved (m.held token) (u.held token) owner recipient amount ∧
      (∀ other ≠ token, u.held other = m.held other) ∧ u.allowed = m.allowed := by
  rw [pay] at paid
  split_ifs at paid with covered
  obtain rfl := Option.some.inj paid
  refine ⟨?_, fun other different => Ledger.moveIn_of_ne different, rfl⟩
  simp only [Ledger.moveIn_self]
  exact Ledger.moved_move recipient covered

theorem pull_spec (pulled : m.pull token owner spender recipient amount = some u) :
    Ledger.Moved (m.held token) (u.held token) owner recipient amount ∧
      (∀ other ≠ token, u.held other = m.held other) ∧
      u.allowed = (m.setAllowance token owner spender (m.allowed token owner spender - amount)).allowed := by
  rw [pull] at pulled
  split_ifs at pulled
  have paid := pay_spec pulled
  exact paid

end Moves

end Market

/-- Deposits that hold their token themselves, and a Maker PSM without fees, in one market. -/
def exactContracts (tokenOf : Address → Address) : Contracts Market where
  tin _ := some 0
  tout _ := some 0
  sellGem m sender usr gemAmt := do
    let pulled ← m.pull USDC sender GEM_JOIN GEM_JOIN gemAmt
    pulled.pay DAI daiPSM usr (gemAmt * 10 ^ 12)
  buyGem m sender usr gemAmt := do
    let pulled ← m.pull DAI sender daiPSM daiPSM (gemAmt * 10 ^ 12)
    pulled.pay USDC GEM_JOIN usr gemAmt
  withdraw m pcvDeposit _ recipient amount := m.pay (tokenOf pcvDeposit) pcvDeposit recipient amount
  deposit m _ _ := some m
  allowance m token owner spender := some (m.allowed token owner spender)
  approve m token sender spender amount := some (m.setAllowance token sender spender amount)

variable {ω : Type} (contracts : Contracts ω) (r : CompoundPCVRouter) (w : ω)

/-- The check in `safeApprove` of SafeERC20, which asks for the allowance only when it has to. -/
def checkAllowance (token spender : Address) (value : ℕ) : Except Revert Unit :=
  if value = 0 then
    return ()
  else do
    let allowed ← external (contracts.allowance w token r.self spender)
    require (allowed = 0) "SafeERC20: approve from non-zero to non-zero allowance"

def safeApprove (token spender : Address) (value : ℕ) : Except Revert ω := do
  r.checkAllowance contracts w token spender value
  external (contracts.approve w token r.self spender value)

def swapUsdcForDai (ctx : Context) (amountUsdcIn : ℕ) : Except Revert ω := do
  ctx.hasAnyOfThreeRoles .governor .pcvController .pcvGuard
  let tin ← external (contracts.tin w)
  require (tin = 0) "CompoundPCVRouter: maker fee not 0"
  let withdrawn ← external (contracts.withdraw w r.usdcPcvDeposit r.self r.self amountUsdcIn)
  let approved ← r.safeApprove contracts withdrawn USDC GEM_JOIN amountUsdcIn
  let sold ← external (contracts.sellGem approved r.self r.daiPcvDeposit amountUsdcIn)
  external (contracts.deposit sold r.daiPcvDeposit r.self)

def swapDaiForUsdc (ctx : Context) (amountDaiIn : ℕ) : Except Revert ω := do
  ctx.hasAnyOfThreeRoles .governor .pcvController .pcvGuard
  let tout ← external (contracts.tout w)
  require (tout = 0) "CompoundPCVRouter: maker fee not 0"
  let withdrawn ← external (contracts.withdraw w r.daiPcvDeposit r.self r.self amountDaiIn)
  let approved ← r.safeApprove contracts withdrawn DAI daiPSM amountDaiIn
  let bought ← external (contracts.buyGem approved r.self r.usdcPcvDeposit (amountDaiIn / USDC_SCALING_FACTOR))
  external (contracts.deposit bought r.usdcPcvDeposit r.self)

/-! ### When an approval passes -/

section Specs

variable {contracts r w} {token spender : Address} {value : ℕ} {approved : ω}

/-- The allowance is only asked for, and has to be zero, when the new one is not. -/
theorem safeApprove_eq_ok : r.safeApprove contracts w token spender value = .ok approved ↔
    (value = 0 ∨ contracts.allowance w token r.self spender = some 0) ∧
      contracts.approve w token r.self spender value = some approved := by
  simp only [safeApprove, checkAllowance, bind_eq_ok, external_eq_ok]
  by_cases zero : value = 0
  · simp [zero]
  · simp [zero]

end Specs

end CompoundPCVRouter

end VoltProtocol
