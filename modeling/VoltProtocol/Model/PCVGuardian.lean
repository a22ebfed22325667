import Mathlib.Data.Finset.Basic
import VoltProtocol.Model.CoreRef

/-! # PCVGuardian, moving PCV to an immutable safe address

Governors, guardians and PCV guards may have the guardian withdraw from deposits on its whitelist, and
only to its safe address. It unpauses a paused deposit for the withdrawal and pauses it again. Governors
add to the whitelist, and guardians may remove from it. The deposits and the tokens are a parameter that
acts on a world `ω`; the guardian is the sender of all calls it makes.
-/

namespace VoltProtocol

/-- The whitelist is an `EnumerableSet`, of which only membership is used. -/
structure PCVGuardian extends CoreRef where
  safeAddress : Address
  whitelistAddresses : Finset Address
deriving DecidableEq

namespace PCVGuardian

/-- The deposits and tokens that a guardian calls. -/
structure Contracts (ω : Type) where
  paused : ω → (pcvDeposit : Address) → Option Bool
  pause : ω → (pcvDeposit : Address) → Option ω
  unpause : ω → (pcvDeposit : Address) → Option ω
  withdraw : ω → (pcvDeposit recipient : Address) → ℕ → Option ω
  withdrawERC20 : ω → (pcvDeposit token recipient : Address) → ℕ → Option ω
  balance : ω → (pcvDeposit : Address) → Option ℕ
  balanceOf : ω → (token account : Address) → Option ℕ

variable {ω : Type} (contracts : Contracts ω) (s : PCVGuardian)

def isWhitelistAddress (pcvDeposit : Address) : Bool := decide (pcvDeposit ∈ s.whitelistAddresses)

/-- The modifier `onlyWhitelist`. -/
def onlyWhitelist (pcvDeposit : Address) : Except Revert Unit :=
  require (s.isWhitelistAddress pcvDeposit) "PCVGuardian: Provided address is not whitelisted"

/-! ### The whitelist -/

/-- `_addWhitelistAddress` -/
def addWhitelistAddressInternal (pcvDeposit : Address) : Except Revert PCVGuardian := do
  require (pcvDeposit ∉ s.whitelistAddresses) "PCVGuardian: Failed to add address to whitelist"
  return { s with whitelistAddresses := insert pcvDeposit s.whitelistAddresses }

/-- `_removeWhitelistAddress` -/
def removeWhitelistAddressInternal (pcvDeposit : Address) : Except Revert PCVGuardian := do
  require (pcvDeposit ∈ s.whitelistAddresses) "PCVGuardian: Failed to remove address from whitelist"
  return { s with whitelistAddresses := s.whitelistAddresses.erase pcvDeposit }

def addWhitelistAddress (ctx : Context) (pcvDeposit : Address) : Except Revert PCVGuardian := do
  ctx.onlyGovernor
  s.addWhitelistAddressInternal pcvDeposit

def addWhitelistAddresses (ctx : Context) (whitelistAddresses : List Address) : Except Revert PCVGuardian := do
  ctx.onlyGovernor
  whitelistAddresses.foldlM addWhitelistAddressInternal s

def removeWhitelistAddress (ctx : Context) (pcvDeposit : Address) : Except Revert PCVGuardian := do
  ctx.onlyGuardianOrGovernor
  s.removeWhitelistAddressInternal pcvDeposit

def removeWhitelistAddresses (ctx : Context) (whitelistAddresses : List Address) :
    Except Revert PCVGuardian := do
  ctx.onlyGuardianOrGovernor
  whitelistAddresses.foldlM removeWhitelistAddressInternal s

def deploy (safeAddress : Address) (whitelistAddresses : List Address) : Except Revert PCVGuardian :=
  whitelistAddresses.foldlM addWhitelistAddressInternal
    { toCoreRef := ⟨.governor, false⟩, safeAddress, whitelistAddresses := ∅ }

/-! ### Withdrawals -/

/-- `_withdrawToSafeAddress` -/
def withdrawToSafeAddressInternal (w : ω) (pcvDeposit : Address) (amount : ℕ) : Except Revert ω := do
  if ← external (contracts.paused w pcvDeposit) then
    let unpaused ← external (contracts.unpause w pcvDeposit)
    let withdrawn ← external (contracts.withdraw unpaused pcvDeposit s.safeAddress amount)
    external (contracts.pause withdrawn pcvDeposit)
  else
    external (contracts.withdraw w pcvDeposit s.safeAddress amount)

/-- `_withdrawERC20ToSafeAddress` -/
def withdrawERC20ToSafeAddressInternal (w : ω) (pcvDeposit token : Address) (amount : ℕ) : Except Revert ω :=
  external (contracts.withdrawERC20 w pcvDeposit token s.safeAddress amount)

/-- Who may withdraw, and from where. -/
def onlyGuards (ctx : Context) (pcvDeposit : Address) : Except Revert Unit := do
  ctx.hasAnyOfThreeRoles .governor .guardian .pcvGuard
  s.onlyWhitelist pcvDeposit

def withdrawToSafeAddress (ctx : Context) (w : ω) (pcvDeposit : Address) (amount : ℕ) : Except Revert ω := do
  s.onlyGuards ctx pcvDeposit
  s.withdrawToSafeAddressInternal contracts w pcvDeposit amount

def withdrawAllToSafeAddress (ctx : Context) (w : ω) (pcvDeposit : Address) : Except Revert ω := do
  s.onlyGuards ctx pcvDeposit
  let amount ← external (contracts.balance w pcvDeposit)
  s.withdrawToSafeAddressInternal contracts w pcvDeposit amount

def withdrawERC20ToSafeAddress (ctx : Context) (w : ω) (pcvDeposit token : Address) (amount : ℕ) :
    Except Revert ω := do
  s.onlyGuards ctx pcvDeposit
  s.withdrawERC20ToSafeAddressInternal contracts w pcvDeposit token amount

def withdrawAllERC20ToSafeAddress (ctx : Context) (w : ω) (pcvDeposit token : Address) : Except Revert ω := do
  s.onlyGuards ctx pcvDeposit
  let amount ← external (contracts.balanceOf w token pcvDeposit)
  s.withdrawERC20ToSafeAddressInternal contracts w pcvDeposit token amount

/-! ### What a withdrawal does -/

/-- The calls a withdrawal makes: the withdrawal itself, between unpausing and pausing if the deposit was
paused. -/
inductive Withdrawn (contracts : Contracts ω) (s : PCVGuardian) (w : ω) (pcvDeposit : Address) : ω → Prop
  | running {u : ω} (amount : ℕ) (running : contracts.paused w pcvDeposit = some false)
      (withdrawn : contracts.withdraw w pcvDeposit s.safeAddress amount = some u) :
      Withdrawn contracts s w pcvDeposit u
  | paused {first second u : ω} (amount : ℕ) (paused : contracts.paused w pcvDeposit = some true)
      (unpaused : contracts.unpause w pcvDeposit = some first)
      (withdrawn : contracts.withdraw first pcvDeposit s.safeAddress amount = some second)
      (repaused : contracts.pause second pcvDeposit = some u) : Withdrawn contracts s w pcvDeposit u
  | token {u : ω} (token : Address) (amount : ℕ)
      (withdrawn : contracts.withdrawERC20 w pcvDeposit token s.safeAddress amount = some u) :
      Withdrawn contracts s w pcvDeposit u

section Spec

variable {contracts s} {ctx : Context} {w u : ω} {pcvDeposit token : Address} {amount : ℕ}

/-- The accounts that may have the guardian withdraw. -/
def MayWithdraw (ctx : Context) : Prop :=
  (ctx.hasRole .governor ctx.sender || ctx.hasRole .guardian ctx.sender || ctx.hasRole .pcvGuard ctx.sender) = true

theorem onlyGuards_eq_ok {done : Unit} : s.onlyGuards ctx pcvDeposit = .ok done ↔
    MayWithdraw ctx ∧ pcvDeposit ∈ s.whitelistAddresses := by
  rw [onlyGuards, Context.hasAnyOfThreeRoles, require_bind_eq_ok, onlyWhitelist, require_eq_ok,
    isWhitelistAddress, decide_eq_true_iff, MayWithdraw]

theorem withdrawToSafeAddressInternal_spec
    (success : s.withdrawToSafeAddressInternal contracts w pcvDeposit amount = .ok u) :
    Withdrawn contracts s w pcvDeposit u := by
  obtain ⟨flag, read, success⟩ := bind_eq_ok.mp success
  have answer := external_eq_ok.mp read
  split_ifs at success with paused
  · simp only [bind_eq_ok, external_eq_ok] at success
    obtain ⟨first, unpaused, second, withdrawn, repaused⟩ := success
    rw [paused] at answer
    exact .paused amount answer unpaused withdrawn repaused
  · rw [Bool.not_eq_true] at paused
    rw [paused] at answer
    exact .running amount answer (external_eq_ok.mp success)

theorem withdrawToSafeAddress_spec (success : s.withdrawToSafeAddress contracts ctx w pcvDeposit amount = .ok u) :
    MayWithdraw ctx ∧ pcvDeposit ∈ s.whitelistAddresses ∧ Withdrawn contracts s w pcvDeposit u := by
  obtain ⟨_, guarded, success⟩ := bind_eq_ok.mp success
  obtain ⟨allowed, listed⟩ := onlyGuards_eq_ok.mp guarded
  exact ⟨allowed, listed, withdrawToSafeAddressInternal_spec success⟩

theorem withdrawAllToSafeAddress_spec (success : s.withdrawAllToSafeAddress contracts ctx w pcvDeposit = .ok u) :
    MayWithdraw ctx ∧ pcvDeposit ∈ s.whitelistAddresses ∧ Withdrawn contracts s w pcvDeposit u := by
  obtain ⟨_, guarded, success⟩ := bind_eq_ok.mp success
  obtain ⟨allowed, listed⟩ := onlyGuards_eq_ok.mp guarded
  obtain ⟨amount, -, success⟩ := bind_eq_ok.mp success
  exact ⟨allowed, listed, withdrawToSafeAddressInternal_spec success⟩

theorem withdrawERC20ToSafeAddress_spec
    (success : s.withdrawERC20ToSafeAddress contracts ctx w pcvDeposit token amount = .ok u) :
    MayWithdraw ctx ∧ pcvDeposit ∈ s.whitelistAddresses ∧ Withdrawn contracts s w pcvDeposit u := by
  obtain ⟨_, guarded, success⟩ := bind_eq_ok.mp success
  obtain ⟨allowed, listed⟩ := onlyGuards_eq_ok.mp guarded
  exact ⟨allowed, listed, .token token amount (external_eq_ok.mp success)⟩

theorem withdrawAllERC20ToSafeAddress_spec
    (success : s.withdrawAllERC20ToSafeAddress contracts ctx w pcvDeposit token = .ok u) :
    MayWithdraw ctx ∧ pcvDeposit ∈ s.whitelistAddresses ∧ Withdrawn contracts s w pcvDeposit u := by
  obtain ⟨_, guarded, success⟩ := bind_eq_ok.mp success
  obtain ⟨allowed, listed⟩ := onlyGuards_eq_ok.mp guarded
  obtain ⟨amount, -, success⟩ := bind_eq_ok.mp success
  exact ⟨allowed, listed, .token token amount (external_eq_ok.mp success)⟩

end Spec

end PCVGuardian

end VoltProtocol
