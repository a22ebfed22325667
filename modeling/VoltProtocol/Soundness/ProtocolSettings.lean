import VoltProtocol.Soundness.ProtocolBooks

/-! # What only governance changes

The settings of a contract are its storage without the pause flags, which guardians write, and without the
levels of rate limiters, which trades write. Accounts with no role but those of guardians and PCV guards
change no setting of any contract: every setter asks for a role that they do not hold, and what they may
do to roles never gives them one.
-/

namespace VoltProtocol

/-- The roles that only protect: they pause, revoke roles and move PCV to safety. -/
def Role.protects : Role → Bool
  | .guardian | .pcvGuard => true
  | _ => false

/-- The sender of a call holds no role but those that protect. -/
def Context.Protects (ctx : Context) : Prop := ∀ role, ctx.hasRole role ctx.sender = true → role.protects = true

namespace Context.Protects

variable {ctx : Context} {done : Unit}

theorem lacks (protects : ctx.Protects) (role : Role) (other : role.protects = false) : ctx.hasRole role ctx.sender = false := by
  rw [Bool.eq_false_iff]
  intro held
  exact Bool.false_ne_true (other.symm.trans (protects role held))

theorem onlyGovernor (protects : ctx.Protects) (checked : ctx.onlyGovernor = .ok done) : False :=
  Bool.false_ne_true ((protects.lacks .governor rfl).symm.trans (require_eq_ok.mp checked))

theorem onlyPCVController (protects : ctx.Protects) (checked : ctx.onlyPCVController = .ok done) : False :=
  Bool.false_ne_true ((protects.lacks .pcvController rfl).symm.trans (require_eq_ok.mp checked))

theorem onlyMinter (protects : ctx.Protects) (checked : ctx.onlyMinter = .ok done) : False :=
  Bool.false_ne_true ((protects.lacks .minter rfl).symm.trans (require_eq_ok.mp checked))

theorem governorOrController (protects : ctx.Protects)
    (held : (ctx.hasRole .governor ctx.sender || ctx.hasRole .pcvController ctx.sender) = true) : False := by
  rw [protects.lacks _ rfl, protects.lacks _ rfl] at held
  cases held

theorem onlyGovernorOrAdmin (protects : ctx.Protects) {c : CoreRef} (other : c.CONTRACT_ADMIN_ROLE.protects = false)
    (checked : c.onlyGovernorOrAdmin ctx = .ok done) : False := by
  have held := require_eq_ok.mp checked
  rw [Context.isGovernor, CoreRef.isContractAdmin, protects.lacks _ rfl, protects.lacks _ other] at held
  cases held

end Context.Protects

/-! ### Settings -/

def RateLimited.settings (s : RateLimited) : RateLimited := { s with lastBufferUsedTime := 0, bufferStored := 0 }

def RateLimitedV2.settings (s : RateLimitedV2) : RateLimitedV2 := { s with lastBufferUsedTime := 0, bufferStored := 0 }

def PegStabilityModule.settings (s : PegStabilityModule) : PegStabilityModule :=
  { s with paused := false, toRateLimited := s.toRateLimited.settings, redeemPaused := false, mintPaused := false }

def ERC20HoldingPCVDeposit.settings (s : ERC20HoldingPCVDeposit) : ERC20HoldingPCVDeposit := { s with paused := false }

def ERC20Allocator.settings (s : ERC20Allocator) : ERC20Allocator :=
  { s with paused := false, toRateLimitedV2 := s.toRateLimitedV2.settings }

def ProtocolSystem.PCVContract.settings : ProtocolSystem.PCVContract → ProtocolSystem.PCVContract
  | .psm p => .psm p.settings
  | .deposit d => .deposit d.settings

section Limiters

variable {now amount used : ℕ}

theorem RateLimited.depleteBuffer_settings {s t : RateLimited} (success : s.depleteBuffer now amount = .ok (t, used)) :
    t.settings = s.settings := by
  simp only [depleteBuffer, bind_eq_ok, pure_eq_ok, Prod.mk.injEq] at success
  obtain ⟨_, -, _, -, _, -, _, -, rfl, -⟩ := success
  rfl

theorem RateLimitedV2.depleteBuffer_settings {s t : RateLimitedV2} (success : s.depleteBuffer now amount = .ok t) :
    t.settings = s.settings := by
  simp only [depleteBuffer, bind_eq_ok, pure_eq_ok] at success
  obtain ⟨_, -, _, -, _, -, _, -, _, -, _, -, rfl⟩ := success
  rfl

theorem RateLimitedV2.replenishBuffer_settings {s t : RateLimitedV2} (success : s.replenishBuffer now amount = .ok t) :
    t.settings = s.settings := by
  obtain ⟨newBuffer, -, success⟩ := bind_eq_ok.mp success
  split_ifs at success
  · rw [pure_eq_ok.mp success]
  · simp only [bind_eq_ok, pure_eq_ok] at success
    obtain ⟨_, -, _, -, _, -, rfl⟩ := success
    rfl

end Limiters

namespace ProtocolSettings

open Machine ProtocolSystem ProtocolBooks ProtocolCallers

variable {τ κ : Type} {d : Deployment} {e : Externals τ κ} {depth : ℕ} {p q : Protocol τ} {call : Call κ}

/-! ### One call -/

section Calls

variable {ω : Type} {ctx : Context}

/-- Such a sender changes no setting of a PSM, unless its contract admin role is one that protects. -/
theorem settings_of_psm {contracts : PegStabilityModule.Contracts ω} {s t : PegStabilitySystem.State ω}
    {function : PSMFunction} (protects : ctx.Protects) (admin : s.psm.CONTRACT_ADMIN_ROLE.protects = false)
    (stepped : PegStabilitySystem.step contracts s (function.call ctx) = .ok t) : t.psm.settings = s.psm.settings := by
  cases function with
  | mint recipient amountIn minAmountOut =>
    obtain ⟨o, minting, rfl⟩ := map_eq_ok.mp stepped
    obtain ⟨written, limiter⟩ := PegStabilityModule.mint_limiter minting
    have kept : o.psm.toRateLimited.settings = s.psm.toRateLimited.settings := by
      obtain ⟨same, -⟩ | ⟨amount, depleted⟩ := limiter
      · rw [same]
      · exact RateLimited.depleteBuffer_settings depleted
    rw [PegStabilitySystem.State.commit, written, PegStabilityModule.settings, kept]
    rfl
  | redeem recipient amountFeiIn minAmountOut =>
    obtain ⟨o, redeeming, rfl⟩ := map_eq_ok.mp stepped
    obtain ⟨-, -, -, -, -, -, same, -⟩ := PegStabilityModule.redeem_spec redeeming
    rw [PegStabilitySystem.State.commit, same]
  | allocateSurplus | deposit =>
    obtain ⟨_, -, rfl⟩ := map_eq_ok.mp stepped
    rfl
  | pause =>
    obtain ⟨c, paused, rfl⟩ := map_eq_ok.mp stepped
    obtain ⟨-, -, rfl⟩ := pause_eq_ok.mp paused
    rfl
  | unpause =>
    obtain ⟨c, unpaused, rfl⟩ := map_eq_ok.mp stepped
    obtain ⟨-, -, rfl⟩ := unpause_eq_ok.mp unpaused
    rfl
  | withdraw | withdrawERC20 =>
    obtain ⟨_, withdrawn, -⟩ := map_eq_ok.mp stepped
    obtain ⟨_, checked, -⟩ := bind_eq_ok.mp withdrawn
    exact (protects.onlyPCVController checked).elim
  | setRedeemPaused | setMintPaused =>
    obtain ⟨_, written, rfl⟩ := map_eq_ok.mp stepped
    obtain ⟨_, -, written⟩ := bind_eq_ok.mp written
    obtain rfl := pure_eq_ok.mp written
    rfl
  | setMintFee | setRedeemFee | setReservesThreshold | setSurplusTarget | setBackupOracle | setRateLimitPerSecond
  | setBufferCap =>
    obtain ⟨_, written, -⟩ := map_eq_ok.mp stepped
    obtain ⟨_, checked, -⟩ := bind_eq_ok.mp written
    exact (protects.onlyGovernorOrAdmin admin checked).elim
  | setOracleFloorBasisPoints | setOracleCeilingBasisPoints =>
    obtain ⟨_, written, -⟩ := map_eq_ok.mp stepped
    obtain ⟨_, -, written⟩ := bind_eq_ok.mp written
    obtain ⟨_, checked, -⟩ := bind_eq_ok.mp written
    exact (protects.onlyGovernorOrAdmin admin checked).elim
  | setOracle | setDoInvert | setDecimalsNormalizer | setContractAdminRole =>
    obtain ⟨_, written, -⟩ := map_eq_ok.mp stepped
    obtain ⟨_, checked, -⟩ := bind_eq_ok.mp written
    exact (protects.onlyGovernor checked).elim

/-- Nor one of the allocator. -/
theorem settings_of_allocator {contracts : ERC20Allocator.Contracts ω} {s t : AllocatorSystem.State ω}
    {function : AllocatorFunction} (protects : ctx.Protects)
    (stepped : AllocatorSystem.step contracts s (function.call ctx) = .ok t) :
    t.allocator.settings = s.allocator.settings := by
  have allocated (a : Address) (allocated : AllocatorSystem.Allocated contracts s a t) :
      t.allocator.settings = s.allocator.settings := by
    cases allocated with
    | dripped o amount drips =>
      obtain ⟨limiter, depleted, written⟩ := drips.charged
      rw [AllocatorSystem.State.commit, written, ERC20Allocator.settings,
        RateLimitedV2.depleteBuffer_settings depleted]
      rfl
    | skimmed o amount skims =>
      obtain ⟨limiter, replenished, written⟩ := skims.credited
      rw [AllocatorSystem.State.commit, written, ERC20Allocator.settings,
        RateLimitedV2.replenishBuffer_settings replenished]
      rfl
    | idle => rfl
  cases function with
  | skim a => exact allocated a (AllocatorSystem.allocated_of_step (.skim a) stepped)
  | drip a => exact allocated a (AllocatorSystem.allocated_of_step (.drip a) stepped)
  | doAction a => exact allocated a (AllocatorSystem.allocated_of_step (.doAction a) stepped)
  | pause =>
    obtain ⟨c, paused, rfl⟩ := map_eq_ok.mp stepped
    obtain ⟨-, -, rfl⟩ := pause_eq_ok.mp paused
    rfl
  | unpause =>
    obtain ⟨c, unpaused, rfl⟩ := map_eq_ok.mp stepped
    obtain ⟨-, -, rfl⟩ := unpause_eq_ok.mp unpaused
    rfl
  | _ =>
    obtain ⟨_, written, -⟩ := map_eq_ok.mp stepped
    obtain ⟨_, checked, -⟩ := bind_eq_ok.mp written
    exact (protects.onlyGovernor checked).elim

/-- Nor one of a deposit, out of which it moves nothing either. -/
theorem depositStep_protects {deposit : ERC20HoldingPCVDeposit} {a : Address} {function : DepositFunction}
    (protects : ctx.Protects) (called : depositStep e deposit a ctx p function = .ok q) :
    q = p ∨ ∃ paused, q = p.withPCV a (.deposit { deposit with paused }) := by
  cases function with
  | deposit =>
    obtain ⟨_, -, rfl⟩ := map_eq_ok.mp called
    exact .inl rfl
  | withdraw => exact (protects.governorOrController (ERC20HoldingPCVDeposit.withdraw_eq_ok.mp called).1).elim
  | withdrawAll => exact (protects.governorOrController (ERC20HoldingPCVDeposit.withdrawAll_eq_ok.mp called).1).elim
  | withdrawERC20 =>
    obtain ⟨_, checked, -⟩ := bind_eq_ok.mp called
    exact (protects.onlyPCVController checked).elim
  | pause =>
    obtain ⟨c, paused, rfl⟩ := map_eq_ok.mp called
    obtain ⟨-, -, rfl⟩ := pause_eq_ok.mp paused
    exact .inr ⟨true, rfl⟩
  | unpause =>
    obtain ⟨c, unpaused, rfl⟩ := map_eq_ok.mp called
    obtain ⟨-, -, rfl⟩ := unpause_eq_ok.mp unpaused
    exact .inr ⟨false, rfl⟩
  | setContractAdminRole =>
    obtain ⟨_, written, -⟩ := map_eq_ok.mp called
    obtain ⟨_, checked, -⟩ := bind_eq_ok.mp written
    exact (protects.onlyGovernor checked).elim

/-- Removing addresses from the whitelist of PCVGuardian one by one. -/
theorem removed_of_foldlM {addresses : List Address} {guardian after : PCVGuardian}
    (success : addresses.foldlM PCVGuardian.removeWhitelistAddressInternal guardian = .ok after) :
    ∃ listed, listed ⊆ guardian.whitelistAddresses ∧ after = { guardian with whitelistAddresses := listed } := by
  induction addresses generalizing guardian with
  | nil =>
    obtain rfl := pure_eq_ok.mp success
    exact ⟨_, Finset.Subset.refl _, rfl⟩
  | cons a rest ih =>
    rw [List.foldlM_cons] at success
    obtain ⟨next, removed, success⟩ := bind_eq_ok.mp success
    obtain ⟨_, -, removed⟩ := bind_eq_ok.mp removed
    obtain rfl := pure_eq_ok.mp removed
    obtain ⟨listed, fewer, rfl⟩ := ih success
    exact ⟨listed, fewer.trans (Finset.erase_subset ..), rfl⟩

/-- PCVGuardian keeps its settings, and its whitelist does not grow. -/
theorem guardianStep_protects {function : GuardianFunction} (protects : ctx.Protects)
    (called : guardianStep d e ctx p function = .ok q) :
    ∃ paused listed, listed ⊆ p.guardian.whitelistAddresses ∧
      q.guardian = { p.guardian with paused, whitelistAddresses := listed } := by
  have withdrawal {a : Address} (withdrawn : PCVGuardian.Withdrawn (guardianContracts d e) p.guardian p a q) :
      ∃ paused listed, listed ⊆ p.guardian.whitelistAddresses ∧
        q.guardian = { p.guardian with paused, whitelistAddresses := listed } := by
    obtain ⟨token, -, rfl⟩ := withdrawn_onTokens (flows_true e) withdrawn
    exact ⟨_, _, Finset.Subset.refl _, rfl⟩
  cases function with
  | addWhitelistAddress | addWhitelistAddresses | setContractAdminRole =>
    obtain ⟨_, written, -⟩ := map_eq_ok.mp called
    obtain ⟨_, checked, -⟩ := bind_eq_ok.mp written
    exact (protects.onlyGovernor checked).elim
  | removeWhitelistAddress a =>
    obtain ⟨guardian, removed, rfl⟩ := map_eq_ok.mp called
    obtain ⟨_, -, removed⟩ := bind_eq_ok.mp removed
    obtain ⟨_, -, removed⟩ := bind_eq_ok.mp removed
    obtain rfl := pure_eq_ok.mp removed
    exact ⟨_, _, Finset.erase_subset .., rfl⟩
  | removeWhitelistAddresses addresses =>
    obtain ⟨guardian, removed, rfl⟩ := map_eq_ok.mp called
    obtain ⟨_, -, removed⟩ := bind_eq_ok.mp removed
    obtain ⟨listed, fewer, rfl⟩ := removed_of_foldlM removed
    exact ⟨_, listed, fewer, rfl⟩
  | pause =>
    obtain ⟨c, paused, rfl⟩ := map_eq_ok.mp called
    obtain ⟨-, -, rfl⟩ := pause_eq_ok.mp paused
    exact ⟨true, _, Finset.Subset.refl _, rfl⟩
  | unpause =>
    obtain ⟨c, unpaused, rfl⟩ := map_eq_ok.mp called
    obtain ⟨-, -, rfl⟩ := unpause_eq_ok.mp unpaused
    exact ⟨false, _, Finset.Subset.refl _, rfl⟩
  | withdrawToSafeAddress => exact withdrawal (PCVGuardian.withdrawToSafeAddress_spec called).2.2
  | withdrawAllToSafeAddress => exact withdrawal (PCVGuardian.withdrawAllToSafeAddress_spec called).2.2
  | withdrawERC20ToSafeAddress => exact withdrawal (PCVGuardian.withdrawERC20ToSafeAddress_spec called).2.2
  | withdrawAllERC20ToSafeAddress => exact withdrawal (PCVGuardian.withdrawAllERC20ToSafeAddress_spec called).2.2

/-- VOLT keeps its admin role and its domain separator, and nothing is minted. -/
theorem voltStep_protects {now : ℕ} {volt after : Volt τ} {function : VoltFunction} (protects : ctx.Protects)
    (called : voltStep e ctx now volt function = .ok after) :
    after.CONTRACT_ADMIN_ROLE = volt.CONTRACT_ADMIN_ROLE ∧ after.DOMAIN_SEPARATOR = volt.DOMAIN_SEPARATOR := by
  cases function with
  | mint account amount =>
    obtain ⟨_, checked, -⟩ := bind_eq_ok.mp called
    exact (protects.onlyMinter checked).elim
  | burn amount =>
    obtain ⟨token, -, written⟩ := bind_eq_ok.mp called
    obtain rfl := pure_eq_ok.mp written
    exact ⟨rfl, rfl⟩
  | permit owner spender value deadline v r s =>
    simp only [voltStep, Volt.permit, bind_eq_ok, pure_eq_ok] at called
    obtain ⟨_, -, _, -, _, -, token, -, rfl⟩ := called
    exact ⟨rfl, rfl⟩
  | pause =>
    obtain ⟨c, paused, rfl⟩ := map_eq_ok.mp called
    obtain ⟨-, -, rfl⟩ := pause_eq_ok.mp paused
    exact ⟨rfl, rfl⟩
  | unpause =>
    obtain ⟨c, unpaused, rfl⟩ := map_eq_ok.mp called
    obtain ⟨-, -, rfl⟩ := unpause_eq_ok.mp unpaused
    exact ⟨rfl, rfl⟩
  | setContractAdminRole =>
    obtain ⟨_, written, -⟩ := map_eq_ok.mp called
    obtain ⟨_, checked, -⟩ := bind_eq_ok.mp written
    exact (protects.onlyGovernor checked).elim

/-- PCVGuardAdmin keeps its admin role. -/
theorem guardAdmin_of_step {core guardAdmin : Address} {s t : GuardianPowers.State} {call : GuardianPowers.Call}
    (protects : (s.core.toPermissions.context call.sender).Protects)
    (stepped : GuardianPowers.step core guardAdmin s call = .ok t) :
    t.guardAdmin.CONTRACT_ADMIN_ROLE = s.guardAdmin.CONTRACT_ADMIN_ROLE := by
  obtain ⟨sender, function⟩ := call
  cases function with
  | pause =>
    obtain ⟨c, paused, rfl⟩ := map_eq_ok.mp stepped
    obtain ⟨-, -, rfl⟩ := pause_eq_ok.mp paused
    rfl
  | unpause =>
    obtain ⟨c, unpaused, rfl⟩ := map_eq_ok.mp stepped
    obtain ⟨-, -, rfl⟩ := unpause_eq_ok.mp unpaused
    rfl
  | setContractAdminRole =>
    obtain ⟨_, written, -⟩ := map_eq_ok.mp stepped
    obtain ⟨_, checked, -⟩ := bind_eq_ok.mp written
    exact (protects.onlyGovernor checked).elim
  | _ =>
    obtain ⟨_, -, rfl⟩ := map_eq_ok.mp stepped
    rfl

end Calls

/-! ### Runs -/

/-- The sender holds no role at the start but those that protect, is not PCVGuardAdmin and does not own the
pass-through. -/
structure Protector (d : Deployment) (p : Protocol τ) (sender : Address) : Prop where
  roles : ∀ role, p.roles.core.hasRole role sender = true → role.protects = true
  guardAdmin : sender ≠ d.guardAdmin
  owner : sender ≠ p.passThrough.owner

/-- No PSM has a contract admin role that only protects. -/
def Administered (p : Protocol τ) : Prop :=
  ∀ a psm, p.pcv a = some (.psm psm) → psm.CONTRACT_ADMIN_ROLE.protects = false

/-- Every contract that was there has the settings it had, no role gained a member, and the whitelist of
PCVGuardian did not grow. The prices of oracles, whose rates are immutable, were only compounded. -/
structure Kept (p q : Protocol τ) : Prop where
  roles : GuardianPowers.Contained p.roles.core.toPermissions q.roles
  guardAdmin : q.roles.guardAdmin.CONTRACT_ADMIN_ROLE = p.roles.guardAdmin.CONTRACT_ADMIN_ROLE
  oracles : ∀ a oracle, p.oracles a = some oracle →
    ∃ count, q.oracles a = some (VoltSystemOracle.compounded^[count] oracle)
  pcv : ∀ a contract, p.pcv a = some contract → ∃ after, q.pcv a = some after ∧ after.settings = contract.settings
  allocator : q.allocator.settings = p.allocator.settings
  guardian : ∃ paused listed, listed ⊆ p.guardian.whitelistAddresses ∧
    q.guardian = { p.guardian with paused, whitelistAddresses := listed }
  volt : q.volt.CONTRACT_ADMIN_ROLE = p.volt.CONTRACT_ADMIN_ROLE ∧ q.volt.DOMAIN_SEPARATOR = p.volt.DOMAIN_SEPARATOR
  passThrough : q.passThrough = p.passThrough

theorem Kept.refl (initialized : p.roles.core.initialized = true) : Kept p p where
  roles := ⟨.refl _, initialized⟩
  guardAdmin := rfl
  oracles _ _ here := ⟨0, here⟩
  pcv _ contract here := ⟨contract, here, rfl⟩
  allocator := rfl
  guardian := ⟨_, _, Finset.Subset.refl _, rfl⟩
  volt := ⟨rfl, rfl⟩
  passThrough := rfl

/-- A contract with the settings of the one before it, or the first at its address. -/
theorem pcv_withPCV {u : Protocol τ} {a : Address} {contract : PCVContract}
    (kept : ∀ b before, p.pcv b = some before → ∃ after, u.pcv b = some after ∧ after.settings = before.settings)
    (same : ∀ before, u.pcv a = some before → contract.settings = before.settings) :
    ∀ b before, p.pcv b = some before →
      ∃ after, (u.withPCV a contract).pcv b = some after ∧ after.settings = before.settings := by
  intro b before there
  obtain ⟨after, here, settings⟩ := kept b before there
  by_cases address : b = a
  · subst address
    exact ⟨contract, withPCV_pcv contract, (same after here).trans settings⟩
  · exact ⟨after, (withPCV_pcv_of_ne address).trans here, settings⟩

/-- An oracle that is the one before it compounded, or the first at its address. -/
theorem compounded_update {start current : Address → Option VoltSystemOracle} {a : Address} {oracle : VoltSystemOracle}
    (kept : ∀ b first, start b = some first → ∃ count, current b = some (VoltSystemOracle.compounded^[count] first))
    (written : ∀ before, current a = some before → oracle = before.compounded) :
    ∀ b first, start b = some first →
      ∃ count, Function.update current a (some oracle) b = some (VoltSystemOracle.compounded^[count] first) := by
  intro b first there
  obtain ⟨count, here⟩ := kept b first there
  by_cases address : b = a
  · subst address
    refine ⟨count + 1, ?_⟩
    rw [Function.update_self, written _ here, Function.iterate_succ_apply']
  · exact ⟨count, (Function.update_of_ne address ..).trans here⟩

theorem administered_withPCV {u : Protocol τ} {a : Address} {contract : PCVContract} (administered : Administered u)
    (admin : ∀ psm, contract = .psm psm → psm.CONTRACT_ADMIN_ROLE.protects = false) :
    Administered (u.withPCV a contract) := by
  intro b psm here
  by_cases address : b = a
  · subst address
    exact admin psm (Option.some.inj ((withPCV_pcv contract).symm.trans here))
  · exact administered b psm ((withPCV_pcv_of_ne address).symm.trans here)

section Step

variable {u v : Protocol τ} {sender : Address}

/-- A sender that held only roles that protect holds no other later. -/
theorem Protector.context (protector : Protector d p sender) (kept : Kept p u) : (u.context sender).Protects := by
  intro role held
  exact protector.roles role (kept.roles.shrinks.members role sender held)

theorem Protector.kept (protector : Protector d p sender) (kept : Kept p u) : Protector d u sender where
  roles := protector.context kept
  guardAdmin := protector.guardAdmin
  owner := kept.passThrough ▸ protector.owner

theorem Protector.plain (protector : Protector d p sender) :
    GuardianPowers.Plain d.guardAdmin p.roles.core.toPermissions sender := by
  refine ⟨?_, protector.guardAdmin⟩
  rw [Bool.eq_false_iff]
  intro governor
  cases protector.roles .governor governor

/-- A transaction of such accounts keeps all settings. -/
theorem kept_of_changes (setup : GuardianPowers.Setup d.core d.guardAdmin p.roles.core.toPermissions)
    (sent : SentBy (Protector d p) call) (kept : Kept p u) (administered : Administered u)
    (changes : Changes d e depth u call v) : Kept p v ∧ Administered v := by
  have roles := contained_of_changes setup (sent.mono fun _ => Protector.plain) kept.roles changes
  cases changes with
  | wait | token | withdrawal | deposit => exact ⟨{ kept with }, administered⟩
  | roles call _ called =>
    have admin := guardAdmin_of_step ((sent call.sender rfl).context kept) called
    exact ⟨{ kept with roles, guardAdmin := admin.trans kept.guardAdmin }, administered⟩
  | compoundInterest oracle before after here compounded =>
    obtain ⟨-, rfl⟩ := VoltSystemOracle.compoundInterest_spec compounded
    refine ⟨{ kept with oracles := compounded_update kept.oracles ?_ }, administered⟩
    intro current there
    rw [Option.some.inj (here.symm.trans there)]
  | deployOracle a oracle vacant =>
    refine ⟨{ kept with oracles := compounded_update kept.oracles ?_ }, administered⟩
    intro current there
    cases vacant.symm.trans there
  | volt sender function volt called =>
    have protects := (sent sender rfl).context kept
    obtain ⟨admin, separator⟩ := voltStep_protects protects called
    exact ⟨{ kept with volt := ⟨admin.trans kept.volt.1, separator.trans kept.volt.2⟩ }, administered⟩
  | updateScalingPriceOracle sender oracle passThrough called =>
    obtain ⟨_, owner, -⟩ := bind_eq_ok.mp called
    have same : sender = p.passThrough.owner := (require_eq_ok.mp owner).trans (congrArg _ kept.passThrough)
    exact absurd same (sent sender rfl).owner
  | psm a sender function psm t token here called world =>
    have settings := settings_of_psm ((sent sender rfl).context kept) (administered a psm here) called
    refine ⟨{ kept with pcv := pcv_withPCV kept.pcv ?_ }, administered_withPCV administered ?_⟩
    · intro before there
      obtain rfl := Option.some.inj (here.symm.trans there)
      exact congrArg PCVContract.psm settings
    · intro _ same
      obtain rfl := PCVContract.psm.inj same
      have admin := congrArg (fun psm : PegStabilityModule => psm.CONTRACT_ADMIN_ROLE) settings
      exact (congrArg Role.protects admin).trans (administered a psm here)
  | depositCore a sender function deposit c here called =>
    refine ⟨{ kept with pcv := pcv_withPCV kept.pcv ?_ }, administered_withPCV administered fun _ other => by cases other⟩
    intro before there
    obtain rfl := Option.some.inj (here.symm.trans there)
    obtain same | ⟨paused, same⟩ := depositStep_protects ((sent sender rfl).context kept) called
    · have unchanged := congrArg (fun w => w.pcv a) same
      simp only [withPCV_pcv, here] at unchanged
      exact congrArg PCVContract.settings (Option.some.inj unchanged)
    · have written := congrArg (fun w => w.pcv a) same
      simp only [withPCV_pcv] at written
      exact (congrArg PCVContract.settings (Option.some.inj written)).trans rfl
  | allocator sender function t token called world =>
    have settings := settings_of_allocator ((sent sender rfl).context kept) called
    exact ⟨{ kept with allocator := settings.trans kept.allocator }, administered⟩
  | guardian sender function guardian called =>
    obtain ⟨paused, listed, fewer, written⟩ := guardianStep_protects ((sent sender rfl).context kept) called
    obtain ⟨_, before, subset, same⟩ := kept.guardian
    rw [same] at fewer written
    exact ⟨{ kept with guardian := ⟨paused, listed, fewer.trans subset, written⟩ }, administered⟩
  | deployPSM a params psm vacant deployed =>
    obtain ⟨-, -, core, -⟩ := deploy_accounts deployed
    refine ⟨{ kept with pcv := pcv_withPCV kept.pcv ?_ }, administered_withPCV administered ?_⟩
    · intro before there
      cases vacant.symm.trans there
    · intro _ same
      obtain rfl := PCVContract.psm.inj same
      rw [core]
      rfl
  | deployDeposit a token deposit vacant =>
    refine ⟨{ kept with pcv := pcv_withPCV kept.pcv ?_ }, administered_withPCV administered fun _ other => by cases other⟩
    intro before there
    cases vacant.symm.trans there

/-- Over any run, accounts whose roles only protect change no setting of any contract that is deployed: price
bounds, fees, limits, rates, targets, links, admin roles and addresses stay what governance has set, no account gains
a role, and the whitelist of PCVGuardian does not grow. Prices themselves anyone may compound. -/
theorem settings_kept {calls : List (Call κ)}
    (setup : GuardianPowers.Setup d.core d.guardAdmin p.roles.core.toPermissions)
    (initialized : p.roles.core.initialized = true) (administered : Administered p)
    (sent : ∀ call ∈ calls, SentBy (Protector d p) call) (success : run (step d e depth) p calls = .ok q) : Kept p q := by
  have preserved (state : Protocol τ) (call : Call κ) (next : Protocol τ) (sent : SentBy (Protector d p) call)
      (inv : Kept p state ∧ Administered state) (stepped : step d e depth state call = .ok next) :
      Kept p next ∧ Administered next :=
    kept_of_changes setup sent inv.1 inv.2 (changes_of_step stepped)
  exact (run_invariant preserved sent ⟨.refl initialized, administered⟩ success).1

end Step

section Trading

variable {p : Protocol Books}

/-- The accounts that trade protect at most. -/
theorem protector_trader (launched : Launched p) {sender : Address} (trader : sender ∈ [2, 3, 4, 7]) :
    Protector addresses p sender := by
  have owner : p.passThrough.owner = 1 := congrArg OraclePassThrough.owner launched.passThrough
  have roles (role : Role) (held : p.roles.core.hasRole role sender = true) :
      (role, sender) ∈ [(.governor, 1), (.governor, 1000), (.minter, 1006), (.burner, 9), (.pcvController, 1005),
        (.pcvController, 1004), (.guardian, 1005), (.guardian, 2), (.pcvGuardAdmin, 1001), (.pcvGuard, 3)] := by
    rw [← mem_roles, ← launched.core]
    exact held
  simp only [List.mem_cons, List.not_mem_nil, or_false] at trader
  refine ⟨?_, ?_, ?_⟩
  · intro role held
    have listed := roles role held
    rcases trader with rfl | rfl | rfl | rfl <;> simp at listed
    · rw [listed]
      rfl
    · rw [listed]
      rfl
  · rcases trader with rfl | rfl | rfl | rfl <;> decide
  · rw [owner]
    rcases trader with rfl | rfl | rfl | rfl <;> decide

theorem administered_launched (launched : Launched p) : Administered p := by
  intro a psm here
  obtain ⟨-, admin, -⟩ := launched.only_psm here
  rw [admin]
  rfl

/-- A trader, a guardian and a PCV guard use the launched protocol, which stays as it was set up. -/
theorem settings_kept_trading : ∃ p q, Launched p ∧ run system p trading = .ok q ∧ Kept p q := by
  obtain ⟨p, q, launched, traded⟩ := launch_trading
  refine ⟨p, q, launched, traded, settings_kept launched.setup launched.initialized (administered_launched launched)
    ?_ traded⟩
  intro call member
  exact (sent_trading call member).mono fun _ => protector_trader launched

end Trading

end ProtocolSettings

end VoltProtocol
