import VoltProtocol.Machine.Run
import VoltProtocol.Model.PegStabilityModule

/-! # Runs of a PegStabilityModule

One step is one transaction: a call of the PSM, the passing of time, or a transaction elsewhere that
changes tokens and oracles in any way. The VOLT that the last call had minted stays in the state.
-/

namespace VoltProtocol.PegStabilitySystem

open Machine PegStabilityModule

/-- The transactions a PSM takes part in or sees. -/
inductive Call (ω : Type) where
  | wait (seconds : ℕ)
  | environment (world : ω)
  | mint (sender recipient : Address) (amountIn minAmountOut : ℕ)
  | redeem (sender recipient : Address) (amountFeiIn minAmountOut : ℕ)
  | allocateSurplus
  | deposit
  | withdraw (ctx : Context) (recipient : Address) (amount : ℕ)
  | withdrawERC20 (ctx : Context) (token recipient : Address) (amount : ℕ)
  | setMintFee (ctx : Context) (newMintFeeBasisPoints : ℕ)
  | setRedeemFee (ctx : Context) (newRedeemFeeBasisPoints : ℕ)
  | setReservesThreshold (ctx : Context) (newReservesThreshold : ℕ)
  | setSurplusTarget (ctx : Context) (newTarget : Address)
  | setRedeemPaused (ctx : Context) (redeemPaused : Bool)
  | setMintPaused (ctx : Context) (mintPaused : Bool)
  | setOracleFloorBasisPoints (ctx : Context) (newFloorBasisPoints : ℕ)
  | setOracleCeilingBasisPoints (ctx : Context) (newCeilingBasisPoints : ℕ)
  | setOracle (ctx : Context) (newOracle : Address)
  | setBackupOracle (ctx : Context) (newBackupOracle : Address)
  | setDoInvert (ctx : Context) (newDoInvert : Bool)
  | setDecimalsNormalizer (ctx : Context) (newDecimalsNormalizer : ℤ)
  | setRateLimitPerSecond (ctx : Context) (newRateLimitPerSecond : ℕ)
  | setBufferCap (ctx : Context) (newBufferCap : ℕ)
  | pause (ctx : Context)
  | unpause (ctx : Context)
  | setContractAdminRole (ctx : Context) (newContractAdminRole : Role)

/-- The time, the PSM, the contracts around it and the VOLT minted for the last call. -/
structure State (ω : Type) where
  now : ℕ
  psm : PegStabilityModule
  world : ω
  minted : ℕ

variable {ω : Type}

namespace State

variable (s : State ω)

/-- A call that only writes the storage of the PSM. -/
def write (psm : PegStabilityModule) : State ω := { s with psm, minted := 0 }

/-- A setter of the rate limiter. -/
def writeLimiter (limiter : RateLimited) : State ω := s.write { s.psm with toRateLimited := limiter }

/-- A setter of OracleRef. -/
def writeOracle (o : OracleRef) : State ω := s.write { s.psm with toOracleRef := o }

/-- A call of a function of CoreRef. -/
def writeCore (c : CoreRef) : State ω := s.write { s.psm with toCoreRef := c }

/-- A call that only moves tokens. -/
def move (world : ω) : State ω := { s with world, minted := 0 }

/-- A trade. -/
def commit (o : Outcome ω) : State ω := { s with psm := o.psm, world := o.world, minted := o.minted }

end State

def step (contracts : Contracts ω) (s : State ω) : Call ω → Except Revert (State ω)
  | .wait seconds => .ok { s with now := s.now + seconds, minted := 0 }
  | .environment world => .ok (s.move world)
  | .mint sender recipient amountIn minAmountOut =>
    s.commit <$> s.psm.mint contracts s.now s.world sender recipient amountIn minAmountOut
  | .redeem sender recipient amountFeiIn minAmountOut =>
    s.commit <$> s.psm.redeem contracts s.world sender recipient amountFeiIn minAmountOut
  | .allocateSurplus => s.move <$> s.psm.allocateSurplus contracts s.world
  | .deposit => s.move <$> s.psm.deposit contracts s.world
  | .withdraw ctx recipient amount => s.move <$> s.psm.withdraw contracts ctx s.world recipient amount
  | .withdrawERC20 ctx token recipient amount =>
    s.move <$> s.psm.withdrawERC20 contracts ctx s.world token recipient amount
  | .setMintFee ctx fee => s.write <$> s.psm.setMintFee ctx fee
  | .setRedeemFee ctx fee => s.write <$> s.psm.setRedeemFee ctx fee
  | .setReservesThreshold ctx threshold => s.write <$> s.psm.setReservesThreshold ctx threshold
  | .setSurplusTarget ctx target => s.write <$> s.psm.setSurplusTarget ctx target
  | .setRedeemPaused ctx paused => s.write <$> s.psm.setRedeemPaused ctx paused
  | .setMintPaused ctx paused => s.write <$> s.psm.setMintPaused ctx paused
  | .setOracleFloorBasisPoints ctx floor => s.write <$> s.psm.setOracleFloorBasisPoints ctx floor
  | .setOracleCeilingBasisPoints ctx ceiling => s.write <$> s.psm.setOracleCeilingBasisPoints ctx ceiling
  | .setOracle ctx oracle => s.writeOracle <$> s.psm.setOracle ctx oracle
  | .setBackupOracle ctx oracle => s.writeOracle <$> s.psm.setBackupOracle s.psm.toCoreRef ctx oracle
  | .setDoInvert ctx doInvert => s.writeOracle <$> s.psm.setDoInvert ctx doInvert
  | .setDecimalsNormalizer ctx decimals => s.writeOracle <$> s.psm.setDecimalsNormalizer ctx decimals
  | .setRateLimitPerSecond ctx rate =>
    s.writeLimiter <$> s.psm.setRateLimitPerSecond s.psm.toCoreRef ctx s.now rate
  | .setBufferCap ctx cap => s.writeLimiter <$> s.psm.setBufferCap s.psm.toCoreRef ctx s.now cap
  | .pause ctx => s.writeCore <$> s.psm.pause ctx
  | .unpause ctx => s.writeCore <$> s.psm.unpause ctx
  | .setContractAdminRole ctx role => s.writeCore <$> s.psm.setContractAdminRole ctx role

/-- A freshly deployed PSM, at any time and in any world. -/
def Initial (s : State ω) : Prop := ∃ params, PegStabilityModule.deploy s.now params = .ok s.psm

/-- The calls that only write what governance configures, and not the limiter. -/
def Call.configures : Call ω → Bool
  | .setMintFee .. | .setRedeemFee .. | .setReservesThreshold .. | .setSurplusTarget ..
  | .setRedeemPaused .. | .setMintPaused .. | .setOracleFloorBasisPoints ..
  | .setOracleCeilingBasisPoints .. | .setOracle .. | .setBackupOracle .. | .setDoInvert ..
  | .setDecimalsNormalizer .. | .pause _ | .unpause _ | .setContractAdminRole .. => true
  | _ => false

/-- What no setter outside the limiter changes. -/
structure Configured (before after : PegStabilityModule) : Prop where
  limiter : after.toRateLimited = before.toRateLimited
  self : after.self = before.self
  volt : after.volt = before.volt
  underlyingToken : after.underlyingToken = before.underlyingToken

variable {contracts : Contracts ω} {s t : State ω} {call : Call ω}

theorem configured_of_step (configures : call.configures = true) (stepped : step contracts s call = .ok t) :
    ∃ psm, t = s.write psm ∧ Configured s.psm psm := by
  cases call with
  | setMintFee | setRedeemFee | setReservesThreshold | setSurplusTarget =>
    simp only [step, setMintFee, setMintFeeInternal, setRedeemFee, setRedeemFeeInternal,
      setReservesThreshold, setReservesThresholdInternal, setSurplusTarget, setSurplusTargetInternal,
      map_eq_ok, bind_eq_ok, pure_eq_ok] at stepped
    obtain ⟨_, ⟨_, -, _, -, rfl⟩, rfl⟩ := stepped
    exact ⟨_, rfl, ⟨rfl, rfl, rfl, rfl⟩⟩
  | setRedeemPaused | setMintPaused =>
    simp only [step, setRedeemPaused, setMintPaused, map_eq_ok, bind_eq_ok, pure_eq_ok] at stepped
    obtain ⟨_, ⟨_, -, rfl⟩, rfl⟩ := stepped
    exact ⟨_, rfl, ⟨rfl, rfl, rfl, rfl⟩⟩
  | setOracleFloorBasisPoints | setOracleCeilingBasisPoints =>
    simp only [step, setOracleFloorBasisPoints, setOracleCeilingBasisPoints, map_eq_ok, bind_eq_ok,
      pure_eq_ok] at stepped
    obtain ⟨_, ⟨_, -, _, -, _, -, rfl⟩, rfl⟩ := stepped
    exact ⟨_, rfl, ⟨rfl, rfl, rfl, rfl⟩⟩
  | setOracle | setBackupOracle | setDoInvert | setDecimalsNormalizer | pause | unpause
  | setContractAdminRole =>
    obtain ⟨_, -, rfl⟩ := map_eq_ok.mp stepped
    exact ⟨_, rfl, ⟨rfl, rfl, rfl, rfl⟩⟩
  | _ => cases configures

/-- The calls that may write the rate limiter or take time. -/
def Call.limits : Call ω → Bool
  | .wait _ | .mint .. | .setRateLimitPerSecond .. | .setBufferCap .. => true
  | _ => false

/-- Any other call leaves the time and the limiter alone and mints nothing. -/
theorem limiter_of_step (limits : call.limits = false) (stepped : step contracts s call = .ok t) :
    t.now = s.now ∧ t.psm.toRateLimited = s.psm.toRateLimited ∧ t.minted = 0 := by
  cases call with
  | wait | mint | setRateLimitPerSecond | setBufferCap => cases limits
  | environment world =>
    obtain rfl := Except.ok.inj stepped
    exact ⟨rfl, rfl, rfl⟩
  | redeem sender recipient amountFeiIn minAmountOut =>
    obtain ⟨o, redeemed, rfl⟩ := map_eq_ok.mp stepped
    obtain ⟨updated, paid, -, -, -, -, same, unminted⟩ := redeem_spec redeemed
    exact ⟨rfl, congrArg PegStabilityModule.toRateLimited same, unminted⟩
  | allocateSurplus | deposit | withdraw | withdrawERC20 =>
    obtain ⟨_, -, rfl⟩ := map_eq_ok.mp stepped
    exact ⟨rfl, rfl, rfl⟩
  | _ =>
    obtain ⟨psm, rfl, configured⟩ := configured_of_step rfl stepped
    exact ⟨rfl, configured.limiter, rfl⟩

/-- What a call has minted is the amount of the one call of VOLT that it makes for it. -/
theorem minted_of_step (stepped : step contracts s call = .ok t) : t.minted = 0 ∨
    ∃ sender recipient amountIn minAmountOut sent, call = .mint sender recipient amountIn minAmountOut ∧
      contracts.mint sent s.psm.volt s.psm.self recipient t.minted = some t.world := by
  by_cases limits : call.limits
  · cases call with
    | mint sender recipient amountIn minAmountOut =>
      obtain ⟨o, minting, rfl⟩ := map_eq_ok.mp stepped
      obtain ⟨updated, paid, held, sent, -, -, -, -, -, outcome⟩ := mint_spec minting
      obtain ⟨-, unminted, -⟩ | ⟨limiter, -, -, ⟨unminted, -⟩ | issued⟩ := outcome
      · exact .inl unminted
      · exact .inl unminted
      · exact .inr ⟨sender, recipient, amountIn, minAmountOut, sent, rfl, issued⟩
    | wait seconds =>
      obtain rfl := Except.ok.inj stepped
      exact .inl rfl
    | setRateLimitPerSecond | setBufferCap =>
      obtain ⟨_, -, rfl⟩ := map_eq_ok.mp stepped
      exact .inl rfl
    | _ => cases limits
  · exact .inl (limiter_of_step (Bool.eq_false_iff.mpr limits) stepped).2.2

end VoltProtocol.PegStabilitySystem
