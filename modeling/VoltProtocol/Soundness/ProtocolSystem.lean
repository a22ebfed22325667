import VoltProtocol.Model.ERC20HoldingPCVDeposit
import VoltProtocol.Model.PCVGuardian
import VoltProtocol.Model.Volt
import VoltProtocol.Model.VoltSystemOracle
import VoltProtocol.Soundness.AllocatorSystem
import VoltProtocol.Soundness.GuardianPowers
import VoltProtocol.Soundness.PegStabilitySystem

/-! # The contracts of the protocol together

Core with PCVGuardAdmin, VOLT, the price oracles, any number of PSMs and deposits, the allocator and
PCVGuardian, each as modelled on its own, call each other at their addresses. Every role check asks
the one Core, every price read through the pass-through comes from a VoltSystemOracle, and only what
lies outside the repository is a parameter: the ERC20 tokens and other oracles. A PSM may have a
surplus target that is a PSM; such calls nest, and fail at the depth `depth`.
-/

namespace VoltProtocol.ProtocolSystem

open Machine

/-- The contracts outside the repository: all ERC20 tokens, with the part of VOLT that it inherits, other
oracles, and the hash functions. The first account of a transfer is its sender. -/
structure Externals (τ κ : Type) extends InheritedERC20 τ κ, Oracles τ where
  balanceOf : τ → (token account : Address) → Option ℕ
  transfer : τ → (token sender recipient : Address) → ℕ → Option τ
  transferFrom : τ → (token sender owner recipient : Address) → ℕ → Option τ
  crypto : Crypto

/-- The addresses of the contracts that there is one of. -/
structure Deployment where
  core : Address
  guardAdmin : Address
  volt : Address
  passThrough : Address
  allocator : Address
  guardian : Address
deriving DecidableEq, Repr

/-- A contract that holds PCV. -/
inductive PCVContract where
  | psm (psm : PegStabilityModule)
  | deposit (deposit : ERC20HoldingPCVDeposit)
deriving DecidableEq, Repr

namespace PCVContract

def toCoreRef : PCVContract → CoreRef
  | .psm p => p.toCoreRef
  | .deposit d => d.toCoreRef

def withCoreRef (c : CoreRef) : PCVContract → PCVContract
  | .psm p => .psm { p with toCoreRef := c }
  | .deposit d => .deposit { d with toCoreRef := c }

def self : PCVContract → Address
  | .psm p => p.self
  | .deposit d => d.self

def balanceReportedIn : PCVContract → Address
  | .psm p => p.balanceReportedIn
  | .deposit d => d.balanceReportedIn

end PCVContract

/-- The storage of all contracts, and the time. -/
structure Protocol (τ : Type) where
  now : ℕ
  roles : GuardianPowers.State
  volt : Volt τ
  passThrough : OraclePassThrough
  oracles : Address → Option VoltSystemOracle
  pcv : Address → Option PCVContract
  allocator : ERC20Allocator
  guardian : PCVGuardian

variable {τ κ : Type}

namespace Protocol

variable (p : Protocol τ)

/-- The storage of the tokens. -/
def tokens : τ := p.volt.token

def withTokens (token : τ) : Protocol τ := { p with volt := { p.volt with token } }

def withPCV (a : Address) (c : PCVContract) : Protocol τ := { p with pcv := Function.update p.pcv a (some c) }

/-- What Core answers during a call of a sender. -/
def context (sender : Address) : Context := p.roles.core.toPermissions.context sender

/-- The price that a VoltSystemOracle answers. -/
def scalingPrice (oracle : Address) : Option ℕ :=
  (p.oracles oracle).bind fun o => (o.getCurrentOraclePrice p.now).toOption

end Protocol

/-! ### How the contracts call each other -/

section Wiring

variable (d : Deployment) (e : Externals τ κ)

/-- The contracts a PSM calls, when its surplus target answers no call. -/
def leafContracts : PegStabilityModule.Contracts (Protocol τ) where
  read p oracle := if oracle = d.passThrough
    then (p.passThrough.read Protocol.scalingPrice p).toOption else e.read p.tokens oracle
  update p oracle := if oracle = d.passThrough then some p else p.withTokens <$> e.update p.tokens oracle
  balanceOf p token account := e.balanceOf p.tokens token account
  transfer p token sender recipient amount :=
    p.withTokens <$> e.transfer p.tokens token sender recipient amount
  transferFrom p token sender owner recipient amount :=
    p.withTokens <$> e.transferFrom p.tokens token sender owner recipient amount
  mint p token sender account amount := if token = d.volt
    then (fun volt => { p with volt }) <$>
      (p.volt.mint e.toInheritedERC20 (p.context sender) account amount).toOption
    else none
  deposit _ _ := none

/-- `deposit()` of the contract at an address. -/
def depositAt (contracts : PegStabilityModule.Contracts (Protocol τ)) (p : Protocol τ) (a : Address) :
    Option (Protocol τ) :=
  match p.pcv a with
  | some (.psm psm) => (psm.deposit contracts p).toOption
  | some (.deposit deposit) => deposit.deposit.toOption.map fun _ => p
  | none => none

/-- The contracts a PSM calls, with surplus targets down to a depth. -/
def psmContracts : ℕ → PegStabilityModule.Contracts (Protocol τ)
  | 0 => leafContracts d e
  | depth + 1 => { leafContracts d e with deposit := depositAt (psmContracts depth) }

/-- The tokens a deposit calls. -/
def depositTokens : ERC20HoldingPCVDeposit.Tokens (Protocol τ) where
  balanceOf p token account := e.balanceOf p.tokens token account
  transfer p token sender recipient amount :=
    p.withTokens <$> e.transfer p.tokens token sender recipient amount

/-- `balance()` of the contract at an address. -/
def balanceAt (p : Protocol τ) (a : Address) : Option ℕ :=
  match p.pcv a with
  | some (.psm psm) => (psm.balance (leafContracts d e) p).toOption
  | some (.deposit deposit) => (deposit.balance (depositTokens e) p).toOption
  | none => none

/-- `withdraw(to, amount)` of the contract at an address. -/
def withdrawAt (sender : Address) (p : Protocol τ) (a recipient : Address) (amount : ℕ) : Option (Protocol τ) :=
  match p.pcv a with
  | some (.psm psm) => (psm.withdraw (leafContracts d e) (p.context sender) p recipient amount).toOption
  | some (.deposit deposit) => (deposit.withdraw (depositTokens e) (p.context sender) p recipient amount).toOption
  | none => none

/-- `withdrawERC20(token, to, amount)` of the contract at an address. -/
def withdrawERC20At (sender : Address) (p : Protocol τ) (a token recipient : Address) (amount : ℕ) :
    Option (Protocol τ) :=
  match p.pcv a with
  | some (.psm psm) =>
    (psm.withdrawERC20 (leafContracts d e) (p.context sender) p token recipient amount).toOption
  | some (.deposit deposit) =>
    (deposit.withdrawERC20 (depositTokens e) (p.context sender) p token recipient amount).toOption
  | none => none

/-- A function of CoreRef of the contract at an address. -/
def coreRefAt (function : CoreRef → Except Revert CoreRef) (p : Protocol τ) (a : Address) : Option (Protocol τ) :=
  (p.pcv a).bind fun contract =>
    (fun c => p.withPCV a (contract.withCoreRef c)) <$> (function contract.toCoreRef).toOption

/-- The contracts the allocator calls. -/
def allocatorContracts (depth : ℕ) : ERC20Allocator.Contracts (Protocol τ) where
  balanceReportedIn p a := (p.pcv a).map PCVContract.balanceReportedIn
  balance := balanceAt d e
  withdraw := withdrawAt d e d.allocator
  deposit := depositAt (psmContracts d e depth)
  balanceOf p token account := e.balanceOf p.tokens token account
  transfer p token recipient amount := p.withTokens <$> e.transfer p.tokens token d.allocator recipient amount

/-- The contracts PCVGuardian calls. -/
def guardianContracts : PCVGuardian.Contracts (Protocol τ) where
  paused p a := (p.pcv a).map fun contract => contract.toCoreRef.paused
  pause p a := coreRefAt (fun c => c.pause (p.context d.guardian)) p a
  unpause p a := coreRefAt (fun c => c.unpause (p.context d.guardian)) p a
  withdraw := withdrawAt d e d.guardian
  withdrawERC20 := withdrawERC20At d e d.guardian
  balance := balanceAt d e
  balanceOf p token account := e.balanceOf p.tokens token account

end Wiring

/-! ### Calls -/

/-- The public functions of a PSM that may write. -/
inductive PSMFunction where
  | mint (recipient : Address) (amountIn minAmountOut : ℕ)
  | redeem (recipient : Address) (amountFeiIn minAmountOut : ℕ)
  | allocateSurplus
  | deposit
  | withdraw (recipient : Address) (amount : ℕ)
  | withdrawERC20 (token recipient : Address) (amount : ℕ)
  | setMintFee (newMintFeeBasisPoints : ℕ)
  | setRedeemFee (newRedeemFeeBasisPoints : ℕ)
  | setReservesThreshold (newReservesThreshold : ℕ)
  | setSurplusTarget (newTarget : Address)
  | setRedeemPaused (redeemPaused : Bool)
  | setMintPaused (mintPaused : Bool)
  | setOracleFloorBasisPoints (newFloorBasisPoints : ℕ)
  | setOracleCeilingBasisPoints (newCeilingBasisPoints : ℕ)
  | setOracle (newOracle : Address)
  | setBackupOracle (newBackupOracle : Address)
  | setDoInvert (newDoInvert : Bool)
  | setDecimalsNormalizer (newDecimalsNormalizer : ℤ)
  | setRateLimitPerSecond (newRateLimitPerSecond : ℕ)
  | setBufferCap (newBufferCap : ℕ)
  | pause
  | unpause
  | setContractAdminRole (newContractAdminRole : Role)

/-- The call of a PSM that such a function is, for a sender. -/
def PSMFunction.call {ω : Type} (ctx : Context) : PSMFunction → PegStabilitySystem.Call ω
  | mint recipient amountIn minAmountOut => .mint ctx.sender recipient amountIn minAmountOut
  | redeem recipient amountFeiIn minAmountOut => .redeem ctx.sender recipient amountFeiIn minAmountOut
  | allocateSurplus => .allocateSurplus
  | deposit => .deposit
  | withdraw recipient amount => .withdraw ctx recipient amount
  | withdrawERC20 token recipient amount => .withdrawERC20 ctx token recipient amount
  | setMintFee fee => .setMintFee ctx fee
  | setRedeemFee fee => .setRedeemFee ctx fee
  | setReservesThreshold threshold => .setReservesThreshold ctx threshold
  | setSurplusTarget target => .setSurplusTarget ctx target
  | setRedeemPaused paused => .setRedeemPaused ctx paused
  | setMintPaused paused => .setMintPaused ctx paused
  | setOracleFloorBasisPoints floor => .setOracleFloorBasisPoints ctx floor
  | setOracleCeilingBasisPoints ceiling => .setOracleCeilingBasisPoints ctx ceiling
  | setOracle oracle => .setOracle ctx oracle
  | setBackupOracle oracle => .setBackupOracle ctx oracle
  | setDoInvert doInvert => .setDoInvert ctx doInvert
  | setDecimalsNormalizer decimals => .setDecimalsNormalizer ctx decimals
  | setRateLimitPerSecond rate => .setRateLimitPerSecond ctx rate
  | setBufferCap cap => .setBufferCap ctx cap
  | pause => .pause ctx
  | unpause => .unpause ctx
  | setContractAdminRole role => .setContractAdminRole ctx role

/-- The public functions of a deposit that may write. -/
inductive DepositFunction where
  | deposit
  | withdraw (recipient : Address) (amountUnderlying : ℕ)
  | withdrawAll (recipient : Address)
  | withdrawERC20 (token recipient : Address) (amount : ℕ)
  | pause
  | unpause
  | setContractAdminRole (newContractAdminRole : Role)

/-- The public functions of the allocator that may write. -/
inductive AllocatorFunction where
  | connectPSM (psm : Address) (psmTargetBalance : Uint 248) (decimalsNormalizer : SInt 8)
  | editPSMTargetBalance (psm : Address) (psmTargetBalance : Uint 248)
  | disconnectPSM (psm : Address)
  | connectDeposit (psm pcvDeposit : Address)
  | deleteDeposit (pcvDeposit : Address)
  | sweep (token recipient : Address) (amount : ℕ)
  | skim (pcvDeposit : Address)
  | drip (pcvDeposit : Address)
  | doAction (pcvDeposit : Address)
  | setRateLimitPerSecond (newRateLimitPerSecond : Uint 128)
  | setBufferCap (newBufferCap : Uint 128)
  | pause
  | unpause
  | setContractAdminRole (newContractAdminRole : Role)

/-- The call of the allocator that such a function is, for a sender. -/
def AllocatorFunction.call {ω : Type} (ctx : Context) : AllocatorFunction → AllocatorSystem.Call ω
  | connectPSM psm target decimals => .connectPSM ctx psm target decimals
  | editPSMTargetBalance psm target => .editPSMTargetBalance ctx psm target
  | disconnectPSM psm => .disconnectPSM ctx psm
  | connectDeposit psm pcvDeposit => .connectDeposit ctx psm pcvDeposit
  | deleteDeposit pcvDeposit => .deleteDeposit ctx pcvDeposit
  | sweep token recipient amount => .sweep ctx token recipient amount
  | skim pcvDeposit => .skim pcvDeposit
  | drip pcvDeposit => .drip pcvDeposit
  | doAction pcvDeposit => .doAction pcvDeposit
  | setRateLimitPerSecond rate => .setRateLimitPerSecond ctx rate
  | setBufferCap cap => .setBufferCap ctx cap
  | pause => .pause ctx
  | unpause => .unpause ctx
  | setContractAdminRole role => .setContractAdminRole ctx role

/-- The public functions of PCVGuardian that may write. -/
inductive GuardianFunction where
  | addWhitelistAddress (pcvDeposit : Address)
  | addWhitelistAddresses (whitelistAddresses : List Address)
  | removeWhitelistAddress (pcvDeposit : Address)
  | removeWhitelistAddresses (whitelistAddresses : List Address)
  | withdrawToSafeAddress (pcvDeposit : Address) (amount : ℕ)
  | withdrawAllToSafeAddress (pcvDeposit : Address)
  | withdrawERC20ToSafeAddress (pcvDeposit token : Address) (amount : ℕ)
  | withdrawAllERC20ToSafeAddress (pcvDeposit token : Address)
  | pause
  | unpause
  | setContractAdminRole (newContractAdminRole : Role)

/-- The public functions of VOLT beside those it inherits from ERC20. -/
inductive VoltFunction where
  | mint (account : Address) (amount : ℕ)
  | burn (amount : ℕ)
  | permit (owner spender : Address) (value deadline v r s : ℕ)
  | pause
  | unpause
  | setContractAdminRole (newContractAdminRole : Role)

/-- The transactions of the protocol: the passing of time, transactions of tokens, calls of each contract
and deployments. -/
inductive Call (κ : Type) where
  | wait (seconds : ℕ)
  | token (transaction : κ)
  | roles (call : GuardianPowers.Call)
  | volt (sender : Address) (function : VoltFunction)
  | compoundInterest (oracle : Address)
  | updateScalingPriceOracle (sender newScalingPriceOracle : Address)
  | psm (psm sender : Address) (function : PSMFunction)
  | deposit (deposit sender : Address) (function : DepositFunction)
  | allocator (sender : Address) (function : AllocatorFunction)
  | guardian (sender : Address) (function : GuardianFunction)
  | deployPSM (address : Address) (params : PegStabilityModule.Params)
  | deployDeposit (address token : Address)
  | deployOracle (address : Address) (oracle : VoltSystemOracle)

section Step

variable (d : Deployment) (e : Externals τ κ)

/-- A call of a deposit. -/
def depositStep (deposit : ERC20HoldingPCVDeposit) (a : Address) (ctx : Context) (p : Protocol τ) :
    DepositFunction → Except Revert (Protocol τ)
  | .deposit => (fun _ => p) <$> deposit.deposit
  | .withdraw recipient amount => deposit.withdraw (depositTokens e) ctx p recipient amount
  | .withdrawAll recipient => deposit.withdrawAll (depositTokens e) ctx p recipient
  | .withdrawERC20 token recipient amount => deposit.withdrawERC20 (depositTokens e) ctx p token recipient amount
  | .pause => (fun c => p.withPCV a (.deposit { deposit with toCoreRef := c })) <$> deposit.pause ctx
  | .unpause => (fun c => p.withPCV a (.deposit { deposit with toCoreRef := c })) <$> deposit.unpause ctx
  | .setContractAdminRole role =>
    (fun c => p.withPCV a (.deposit { deposit with toCoreRef := c })) <$> deposit.setContractAdminRole ctx role

/-- A call of PCVGuardian. -/
def guardianStep (ctx : Context) (p : Protocol τ) : GuardianFunction → Except Revert (Protocol τ)
  | .addWhitelistAddress a => (fun guardian => { p with guardian }) <$> p.guardian.addWhitelistAddress ctx a
  | .addWhitelistAddresses list => (fun guardian => { p with guardian }) <$> p.guardian.addWhitelistAddresses ctx list
  | .removeWhitelistAddress a => (fun guardian => { p with guardian }) <$> p.guardian.removeWhitelistAddress ctx a
  | .removeWhitelistAddresses list =>
    (fun guardian => { p with guardian }) <$> p.guardian.removeWhitelistAddresses ctx list
  | .withdrawToSafeAddress a amount => p.guardian.withdrawToSafeAddress (guardianContracts d e) ctx p a amount
  | .withdrawAllToSafeAddress a => p.guardian.withdrawAllToSafeAddress (guardianContracts d e) ctx p a
  | .withdrawERC20ToSafeAddress a token amount =>
    p.guardian.withdrawERC20ToSafeAddress (guardianContracts d e) ctx p a token amount
  | .withdrawAllERC20ToSafeAddress a token =>
    p.guardian.withdrawAllERC20ToSafeAddress (guardianContracts d e) ctx p a token
  | .pause => (fun c => { p with guardian := { p.guardian with toCoreRef := c } }) <$> p.guardian.pause ctx
  | .unpause => (fun c => { p with guardian := { p.guardian with toCoreRef := c } }) <$> p.guardian.unpause ctx
  | .setContractAdminRole role =>
    (fun c => { p with guardian := { p.guardian with toCoreRef := c } }) <$> p.guardian.setContractAdminRole ctx role

/-- A call of VOLT. A permit reads nothing of the block but its time. -/
def voltStep (ctx : Context) (now : ℕ) (volt : Volt τ) : VoltFunction → Except Revert (Volt τ)
  | .mint account amount => volt.mint e.toInheritedERC20 ctx account amount
  | .burn amount => volt.burn e.toInheritedERC20 ctx.sender amount
  | .permit owner spender value deadline v r s =>
    volt.permit e.toInheritedERC20 e.crypto ⟨0, now, 0⟩ owner spender value deadline v r s
  | .pause => (fun c => { volt with toCoreRef := c }) <$> volt.pause ctx
  | .unpause => (fun c => { volt with toCoreRef := c }) <$> volt.unpause ctx
  | .setContractAdminRole role => (fun c => { volt with toCoreRef := c }) <$> volt.setContractAdminRole ctx role

/-- A new contract that holds PCV, where there is none yet. -/
def deployAt (p : Protocol τ) (a : Address) (contract : Except Revert PCVContract) : Except Revert (Protocol τ) := do
  require (p.pcv a = none) "address is taken"
  let deployed ← contract
  return p.withPCV a deployed

variable (depth : ℕ)

def step (p : Protocol τ) : Call κ → Except Revert (Protocol τ)
  | .wait seconds => .ok { p with now := p.now + seconds }
  | .token transaction => (fun volt => { p with volt }) <$> p.volt.transact e.toInheritedERC20 transaction
  | .roles call => (fun roles => { p with roles }) <$> GuardianPowers.step d.core d.guardAdmin p.roles call
  | .volt sender function => (fun volt => { p with volt }) <$> voltStep e (p.context sender) p.now p.volt function
  | .compoundInterest oracle => do
    let compounded ← (← external (p.oracles oracle)).compoundInterest p.now
    return { p with oracles := Function.update p.oracles oracle (some compounded) }
  | .updateScalingPriceOracle sender oracle =>
    (fun passThrough => { p with passThrough }) <$> p.passThrough.updateScalingPriceOracle sender oracle
  | .psm a sender function =>
    match p.pcv a with
    | some (.psm psm) =>
      (fun s => s.world.withPCV a (.psm s.psm)) <$>
        PegStabilitySystem.step (psmContracts d e depth) ⟨p.now, psm, p, 0⟩ (function.call (p.context sender))
    | _ => .error .callee
  | .deposit a sender function =>
    match p.pcv a with
    | some (.deposit deposit) => depositStep e deposit a (p.context sender) p function
    | _ => .error .callee
  | .allocator sender function =>
    (fun s => { s.world with allocator := s.allocator }) <$>
      AllocatorSystem.step (allocatorContracts d e depth) ⟨p.now, p.allocator, p, []⟩
        (function.call (p.context sender))
  | .guardian sender function => guardianStep d e (p.context sender) p function
  | .deployPSM a params =>
    deployAt p a (PCVContract.psm <$> PegStabilityModule.deploy p.now { params with self := a, volt := d.volt })
  | .deployDeposit a token => deployAt p a (PCVContract.deposit <$> ERC20HoldingPCVDeposit.deploy a token)
  | .deployOracle a oracle => do
    require (p.oracles a = none) "address is taken"
    return { p with oracles := Function.update p.oracles a (some oracle) }

end Step

/-- The start: no PSM, deposit or oracle is deployed yet, and the allocator is new. -/
structure Initial (p : Protocol τ) : Prop where
  empty : ∀ a, p.pcv a = none
  allocator : ∃ maxRateLimitPerSecond rateLimitPerSecond bufferCap,
    ERC20Allocator.deploy p.now maxRateLimitPerSecond rateLimitPerSecond bufferCap = .ok p.allocator

end VoltProtocol.ProtocolSystem
