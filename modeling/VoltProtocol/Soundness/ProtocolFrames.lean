import VoltProtocol.Soundness.ProtocolSystem

/-! # What a call can change in the protocol

A relation between worlds that every call of another contract establishes holds between the worlds
before and after any call of a PSM, up to what it mints, and of the allocator. In the protocol the
tokens are the only storage that PSMs, deposits and the allocator reach through each other, so each
transaction changes one contract and the tokens. The inversion of a step says what each may do.
-/

namespace VoltProtocol

namespace PegStabilityModule

variable {ω : Type} {contracts : Contracts ω} {s : PegStabilityModule} {w u : ω} {amount : ℕ}

/-- Reserves go to the surplus target, which is then called unless the PSM is a PriceBoundPSM. -/
theorem allocate_spec (success : s.allocate contracts w amount = .ok u) :
    ∃ sent, contracts.transfer w s.underlyingToken s.self s.surplusTarget amount = some sent ∧
      (u = sent ∨ contracts.deposit sent s.surplusTarget = some u) := by
  obtain ⟨sent, sending, success⟩ := bind_eq_ok.mp success
  refine ⟨sent, external_eq_ok.mp sending, ?_⟩
  split at success
  · exact .inr (external_eq_ok.mp success)
  · exact .inl (pure_eq_ok.mp success).symm

theorem allocateSurplus_spec (success : s.allocateSurplus contracts w = .ok u) :
    ∃ amount, s.allocate contracts w amount = .ok u := by
  simp only [allocateSurplus, bind_eq_ok] at success
  obtain ⟨_, -, _, -, amount, -, allocated⟩ := success
  exact ⟨amount, allocated⟩

theorem deposit_spec (success : s.deposit contracts w = .ok u) :
    u = w ∨ ∃ amount, s.allocate contracts w amount = .ok u := by
  obtain ⟨surplus, -, success⟩ := bind_eq_ok.mp success
  split_ifs at success
  · obtain ⟨amount, -, allocated⟩ := bind_eq_ok.mp success
    exact .inr ⟨amount, allocated⟩
  · exact .inl (pure_eq_ok.mp success).symm

theorem withdrawERC20_eq_ok {ctx : Context} {token recipient : Address} :
    s.withdrawERC20 contracts ctx w token recipient amount = .ok u ↔
      ctx.isPCVController ctx.sender = true ∧ contracts.transfer w token s.self recipient amount = some u := by
  rw [withdrawERC20, Context.onlyPCVController, require_bind_eq_ok, external_eq_ok]

end PegStabilityModule

namespace ProtocolSystem

open Machine

section PSM

open PegStabilityModule PegStabilitySystem

variable {ω : Type} {contracts : Contracts ω} {R : ω → ω → Prop} {s t : PegStabilitySystem.State ω} {ctx : Context}
  {function : PSMFunction}

/-- A preorder on worlds that all calls a PSM makes respect, but for those that mint. -/
structure Moves (contracts : Contracts ω) (R : ω → ω → Prop) : Prop where
  refl : ∀ w, R w w
  trans : ∀ {u v w}, R u v → R v w → R u w
  update : ∀ {w u oracle}, contracts.update w oracle = some u → R w u
  transfer : ∀ {w u token sender recipient amount},
    contracts.transfer w token sender recipient amount = some u → R w u
  transferFrom : ∀ {w u token sender owner recipient amount},
    contracts.transferFrom w token sender owner recipient amount = some u → R w u
  deposit : ∀ {w u target}, contracts.deposit w target = some u → R w u

theorem Moves.allocate (moves : Moves contracts R) {psm : PegStabilityModule} {w u : ω} {amount : ℕ}
    (success : psm.allocate contracts w amount = .ok u) : R w u := by
  obtain ⟨sent, sending, rfl | deposited⟩ := allocate_spec success
  · exact moves.transfer sending
  · exact moves.trans (moves.transfer sending) (moves.deposit deposited)

/-- Any call of a PSM moves the world, and then mints at most once. -/
theorem world_of_call (moves : Moves contracts R)
    (stepped : PegStabilitySystem.step contracts s (function.call ctx) = .ok t) :
    ∃ w, R s.world w ∧ ((t.minted = 0 ∧ t.world = w) ∨
      ∃ recipient, contracts.mint w s.psm.volt s.psm.self recipient t.minted = some t.world) := by
  cases function with
  | mint recipient amountIn minAmountOut =>
    obtain ⟨o, minting, rfl⟩ := map_eq_ok.mp stepped
    obtain ⟨updated, paid, held, sent, updating, -, pulled, -, sending, outcome⟩ := mint_spec minting
    have moved : R s.world sent := by
      apply moves.trans (moves.trans (moves.update updating) (moves.transferFrom pulled))
      obtain ⟨-, rfl⟩ | sending := sendHeldVolt_spec sending
      · exact moves.refl _
      · exact moves.transfer sending
    refine ⟨sent, moved, ?_⟩
    obtain ⟨-, unminted, same, -⟩ | ⟨limiter, -, -, ⟨unminted, same⟩ | minted⟩ := outcome
    · exact .inl ⟨unminted, same⟩
    · exact .inl ⟨unminted, same⟩
    · exact .inr ⟨recipient, minted⟩
  | redeem recipient amountFeiIn minAmountOut =>
    obtain ⟨o, redeeming, rfl⟩ := map_eq_ok.mp stepped
    obtain ⟨updated, paid, updating, -, pulled, sending, -, unminted⟩ := redeem_spec redeeming
    have moved := moves.trans (moves.trans (moves.update updating) (moves.transferFrom pulled)) (moves.transfer sending)
    exact ⟨o.world, moved, .inl ⟨unminted, rfl⟩⟩
  | allocateSurplus =>
    obtain ⟨u, allocated, rfl⟩ := map_eq_ok.mp stepped
    obtain ⟨amount, allocated⟩ := allocateSurplus_spec allocated
    exact ⟨u, moves.allocate allocated, .inl ⟨rfl, rfl⟩⟩
  | deposit =>
    obtain ⟨u, deposited, rfl⟩ := map_eq_ok.mp stepped
    obtain rfl | ⟨amount, allocated⟩ := deposit_spec deposited
    · exact ⟨_, moves.refl _, .inl ⟨rfl, rfl⟩⟩
    · exact ⟨u, moves.allocate allocated, .inl ⟨rfl, rfl⟩⟩
  | withdraw | withdrawERC20 =>
    obtain ⟨u, withdrawn, rfl⟩ := map_eq_ok.mp stepped
    exact ⟨u, moves.transfer (withdrawERC20_eq_ok.mp withdrawn).2, .inl ⟨rfl, rfl⟩⟩
  | setRateLimitPerSecond | setBufferCap =>
    obtain ⟨_, -, rfl⟩ := map_eq_ok.mp stepped
    exact ⟨_, moves.refl _, .inl ⟨rfl, rfl⟩⟩
  | _ =>
    obtain ⟨psm, rfl, -⟩ := configured_of_step rfl stepped
    exact ⟨_, moves.refl _, .inl ⟨rfl, rfl⟩⟩

/-- No call changes the accounts a PSM works with, or takes time. -/
theorem accounts_of_call (stepped : PegStabilitySystem.step contracts s (function.call ctx) = .ok t) :
    t.now = s.now ∧ t.psm.self = s.psm.self ∧ t.psm.volt = s.psm.volt ∧
      t.psm.underlyingToken = s.psm.underlyingToken := by
  cases function with
  | mint recipient amountIn minAmountOut =>
    obtain ⟨o, minting, rfl⟩ := map_eq_ok.mp stepped
    obtain ⟨written, -⟩ := mint_limiter minting
    rw [PegStabilitySystem.State.commit, written]
    exact ⟨rfl, rfl, rfl, rfl⟩
  | redeem recipient amountFeiIn minAmountOut =>
    obtain ⟨o, redeeming, rfl⟩ := map_eq_ok.mp stepped
    obtain ⟨-, -, -, -, -, -, same, -⟩ := redeem_spec redeeming
    rw [PegStabilitySystem.State.commit, same]
    exact ⟨rfl, rfl, rfl, rfl⟩
  | allocateSurplus | deposit | withdraw | withdrawERC20 | setRateLimitPerSecond | setBufferCap =>
    obtain ⟨_, -, rfl⟩ := map_eq_ok.mp stepped
    exact ⟨rfl, rfl, rfl, rfl⟩
  | _ =>
    obtain ⟨psm, rfl, configured⟩ := configured_of_step rfl stepped
    exact ⟨rfl, configured.self, configured.volt, configured.underlyingToken⟩

end PSM

section Allocator

open ERC20Allocator AllocatorSystem

variable {ω : Type} {contracts : Contracts ω} {R : ω → ω → Prop} {s t : AllocatorSystem.State ω} {ctx : Context}
  {function : AllocatorFunction}

/-- A preorder on worlds that all calls the allocator makes respect. -/
structure Shifts (contracts : Contracts ω) (R : ω → ω → Prop) : Prop where
  refl : ∀ w, R w w
  trans : ∀ {u v w}, R u v → R v w → R u w
  withdraw : ∀ {w u a recipient amount}, contracts.withdraw w a recipient amount = some u → R w u
  deposit : ∀ {w u a}, contracts.deposit w a = some u → R w u
  transfer : ∀ {w u token recipient amount}, contracts.transfer w token recipient amount = some u → R w u

theorem Shifts.allocated (shifts : Shifts contracts R) {pcvDeposit : Address}
    (allocated : Allocated contracts s pcvDeposit t) : R s.world t.world := by
  cases allocated with
  | dripped o amount drips => exact shifts.withdraw drips.moved
  | skimmed o amount skims =>
    obtain ⟨pulled, withdrawn, supplied⟩ := skims.moved
    exact shifts.trans (shifts.withdraw withdrawn) (shifts.deposit supplied)
  | idle => exact shifts.refl _

theorem world_of_allocator (shifts : Shifts contracts R)
    (stepped : AllocatorSystem.step contracts s (function.call ctx) = .ok t) :
    t.now = s.now ∧ R s.world t.world := by
  cases function with
  | skim a =>
    have allocated := allocated_of_step (.skim a) stepped
    exact ⟨allocated.mappings.1, shifts.allocated allocated⟩
  | drip a =>
    have allocated := allocated_of_step (.drip a) stepped
    exact ⟨allocated.mappings.1, shifts.allocated allocated⟩
  | doAction a =>
    have allocated := allocated_of_step (.doAction a) stepped
    exact ⟨allocated.mappings.1, shifts.allocated allocated⟩
  | sweep token recipient amount =>
    obtain ⟨u, swept, rfl⟩ := map_eq_ok.mp stepped
    obtain ⟨_, -, sent⟩ := bind_eq_ok.mp swept
    exact ⟨rfl, shifts.transfer (external_eq_ok.mp sent)⟩
  | _ =>
    obtain ⟨_, -, rfl⟩ := map_eq_ok.mp stepped
    exact ⟨rfl, shifts.refl _⟩

end Allocator

/-! ### The tokens as the only shared storage -/

section Tokens

variable {τ κ : Type} {d : Deployment} {e : Externals τ κ} {S : τ → τ → Prop} {p q : Protocol τ}
  {a sender : Address} {depth : ℕ}

/-- A preorder on the storage of the tokens that all calls of tokens and other oracles respect, but for those
that mint. -/
structure Flows (e : Externals τ κ) (S : τ → τ → Prop) : Prop where
  refl : ∀ t, S t t
  trans : ∀ {t u v}, S t u → S u v → S t v
  update : ∀ {t u oracle}, e.update t oracle = some u → S t u
  transfer : ∀ {t u token sender recipient amount}, e.transfer t token sender recipient amount = some u → S t u
  transferFrom : ∀ {t u token sender owner recipient amount},
    e.transferFrom t token sender owner recipient amount = some u → S t u

/-- Nothing changed but the tokens, and those by the relation. -/
def OnTokens (S : τ → τ → Prop) (p q : Protocol τ) : Prop := ∃ token, S p.tokens token ∧ q = p.withTokens token

namespace OnTokens

theorem of_map {result : Option τ} (each : ∀ token, result = some token → S p.tokens token)
    (moved : p.withTokens <$> result = some q) : OnTokens S p q := by
  obtain ⟨token, answer, rfl⟩ := Option.map_eq_some_iff.mp moved
  exact ⟨token, each token answer, rfl⟩

theorem refl (flows : Flows e S) (p : Protocol τ) : OnTokens S p p := ⟨p.tokens, flows.refl _, rfl⟩

theorem tokens (moved : OnTokens S p q) : S p.tokens q.tokens := by
  obtain ⟨token, moved, rfl⟩ := moved
  exact moved

theorem trans (flows : Flows e S) {p q r : Protocol τ} (first : OnTokens S p q) (second : OnTokens S q r) :
    OnTokens S p r := by
  obtain ⟨token, moved, rfl⟩ := first
  obtain ⟨last, again, rfl⟩ := second
  exact ⟨last, flows.trans moved again, rfl⟩

end OnTokens

theorem moves_leafContracts (flows : Flows e S) : Moves (leafContracts d e) (OnTokens S) where
  refl := .refl flows
  trans := .trans flows
  update {w u oracle} updated := by
    simp only [leafContracts] at updated
    split_ifs at updated
    · exact Option.some.inj updated ▸ .refl flows w
    · exact .of_map (fun _ => flows.update) updated
  transfer := .of_map fun _ => flows.transfer
  transferFrom := .of_map fun _ => flows.transferFrom
  deposit impossible := by cases impossible

theorem depositAt_onTokens (flows : Flows e S) {contracts : PegStabilityModule.Contracts (Protocol τ)}
    (moves : Moves contracts (OnTokens S)) (deposited : depositAt contracts p a = some q) : OnTokens S p q := by
  rw [depositAt] at deposited
  split at deposited
  · obtain rfl | ⟨amount, allocated⟩ := PegStabilityModule.deposit_spec (toOption_eq_some.mp deposited)
    · exact .refl flows _
    · exact moves.allocate allocated
  · obtain ⟨_, -, rfl⟩ := Option.map_eq_some_iff.mp deposited
    exact .refl flows _
  · cases deposited

/-- PSMs reach nothing but the tokens, however deep their calls nest. -/
theorem moves_psmContracts (flows : Flows e S) : ∀ depth, Moves (psmContracts d e depth) (OnTokens S)
  | 0 => moves_leafContracts flows
  | depth + 1 =>
    { moves_leafContracts (d := d) flows with
      deposit := depositAt_onTokens flows (moves_psmContracts flows depth) }

/-- At any depth a PSM calls the same tokens and oracles. -/
theorem psmContracts_eq (d : Deployment) (e : Externals τ κ) (depth : ℕ) :
    psmContracts d e depth = { leafContracts d e with deposit := (psmContracts d e depth).deposit } := by
  cases depth <;> rfl

theorem withdrawAt_onTokens (flows : Flows e S) {recipient : Address} {amount : ℕ}
    (withdrawn : withdrawAt d e sender p a recipient amount = some q) : OnTokens S p q := by
  rw [withdrawAt] at withdrawn
  split at withdrawn
  · exact .of_map (fun _ => flows.transfer) (PegStabilityModule.withdrawERC20_eq_ok.mp (toOption_eq_some.mp withdrawn)).2
  · exact .of_map (fun _ => flows.transfer) (ERC20HoldingPCVDeposit.withdraw_eq_ok.mp (toOption_eq_some.mp withdrawn)).2
  · cases withdrawn

theorem withdrawERC20At_onTokens (flows : Flows e S) {token recipient : Address} {amount : ℕ}
    (withdrawn : withdrawERC20At d e sender p a token recipient amount = some q) : OnTokens S p q := by
  rw [withdrawERC20At] at withdrawn
  split at withdrawn
  · exact .of_map (fun _ => flows.transfer) (PegStabilityModule.withdrawERC20_eq_ok.mp (toOption_eq_some.mp withdrawn)).2
  · exact .of_map (fun _ => flows.transfer) (ERC20HoldingPCVDeposit.withdrawERC20_eq_ok.mp (toOption_eq_some.mp withdrawn)).2
  · cases withdrawn

/-- So does the allocator. -/
theorem shifts_allocatorContracts (flows : Flows e S) : Shifts (allocatorContracts d e depth) (OnTokens S) where
  refl := .refl flows
  trans := .trans flows
  withdraw := withdrawAt_onTokens flows
  deposit := depositAt_onTokens flows (moves_psmContracts flows depth)
  transfer := .of_map fun _ => flows.transfer

theorem mint_onTokens {token account : Address} {amount : ℕ}
    (minted : (psmContracts d e depth).mint p token sender account amount = some q) :
    token = d.volt ∧ (p.context sender).isMinter sender = true ∧
      ∃ after, e.mint p.tokens account amount = .ok after ∧ q = p.withTokens after := by
  rw [psmContracts_eq] at minted
  simp only [leafContracts] at minted
  split_ifs at minted with volt
  obtain ⟨u, minting, rfl⟩ := Option.map_eq_some_iff.mp minted
  have success := toOption_eq_some.mp minting
  simp only [Volt.mint, Context.onlyMinter, require_bind_eq_ok] at success
  obtain ⟨minter, success⟩ := success
  obtain ⟨_, -, success⟩ := bind_eq_ok.mp success
  obtain ⟨after, issued, success⟩ := bind_eq_ok.mp success
  obtain rfl := pure_eq_ok.mp success
  exact ⟨volt, minter, after, issued, rfl⟩

end Tokens

/-! ### PCVGuardian and the pause flag -/

section Guardian

variable {τ κ : Type} {d : Deployment} {e : Externals τ κ} {S : τ → τ → Prop} {p q : Protocol τ} {a : Address}

namespace PCVContract

@[simp] theorem toCoreRef_withCoreRef (contract : PCVContract) (c : CoreRef) :
    (contract.withCoreRef c).toCoreRef = c := by
  cases contract <;> rfl

@[simp] theorem withCoreRef_withCoreRef (contract : PCVContract) (c other : CoreRef) :
    (contract.withCoreRef c).withCoreRef other = contract.withCoreRef other := by
  cases contract <;> rfl

@[simp] theorem withCoreRef_toCoreRef (contract : PCVContract) : contract.withCoreRef contract.toCoreRef = contract := by
  cases contract <;> rfl

end PCVContract

@[simp] theorem withPCV_pcv (contract : PCVContract) : (p.withPCV a contract).pcv a = some contract :=
  Function.update_self ..

theorem withPCV_pcv_of_ne {b : Address} {contract : PCVContract} (different : b ≠ a) :
    (p.withPCV a contract).pcv b = p.pcv b := Function.update_of_ne different ..

@[simp] theorem withPCV_withPCV (contract other : PCVContract) :
    (p.withPCV a contract).withPCV a other = p.withPCV a other := by
  simp only [Protocol.withPCV, Function.update_idem]

theorem withPCV_same {contract : PCVContract} (here : p.pcv a = some contract) : p.withPCV a contract = p := by
  rw [Protocol.withPCV, ← here, Function.update_eq_self]

theorem coreRefAt_eq_some {function : CoreRef → Except Revert CoreRef} : coreRefAt function p a = some q ↔
    ∃ contract c, p.pcv a = some contract ∧ function contract.toCoreRef = .ok c ∧
      q = p.withPCV a (contract.withCoreRef c) := by
  rw [coreRefAt, Option.bind_eq_some_iff]
  constructor
  · rintro ⟨contract, here, written⟩
    obtain ⟨c, answer, rfl⟩ := Option.map_eq_some_iff.mp written
    exact ⟨contract, c, here, toOption_eq_some.mp answer, rfl⟩
  · rintro ⟨contract, c, here, answer, rfl⟩
    refine ⟨contract, here, ?_⟩
    rw [answer]
    rfl

theorem pause_eq_ok {c after : CoreRef} {ctx : Context} : c.pause ctx = .ok after ↔
    (ctx.isGovernor ctx.sender || ctx.isGuardian ctx.sender) = true ∧ c.paused = false ∧
      { c with paused := true } = after := by
  rw [CoreRef.pause, Context.onlyGuardianOrGovernor, require_bind_eq_ok, CoreRef.whenNotPaused, require_bind_eq_ok,
    pure_eq_ok, Bool.not_eq_true']

theorem unpause_eq_ok {c after : CoreRef} {ctx : Context} : c.unpause ctx = .ok after ↔
    (ctx.isGovernor ctx.sender || ctx.isGuardian ctx.sender) = true ∧ c.paused = true ∧
      { c with paused := false } = after := by
  rw [CoreRef.unpause, Context.onlyGuardianOrGovernor, require_bind_eq_ok, require_bind_eq_ok, pure_eq_ok]

/-- A withdrawal by PCVGuardian changes only the tokens, as its withdrawals from deposits do: a deposit that was
paused is paused again. -/
theorem withdrawn_of_withdrawals {guardian : PCVGuardian}
    (withdraws : ∀ {w u amount}, withdrawAt d e d.guardian w a guardian.safeAddress amount = some u → OnTokens S w u)
    (takes : ∀ {w u token amount},
      withdrawERC20At d e d.guardian w a token guardian.safeAddress amount = some u → OnTokens S w u)
    (withdrawn : PCVGuardian.Withdrawn (guardianContracts d e) guardian p a q) : OnTokens S p q := by
  cases withdrawn with
  | running amount running withdrawn => exact withdraws withdrawn
  | token token amount withdrawn => exact takes withdrawn
  | @paused first second _ amount paused unpaused withdrawn repaused =>
    change coreRefAt (fun c => c.unpause (p.context d.guardian)) p a = some first at unpaused
    obtain ⟨contract, c, here, unpausing, rfl⟩ := coreRefAt_eq_some.mp unpaused
    obtain ⟨token, moved, rfl⟩ := withdraws withdrawn
    change coreRefAt (fun c => c.pause _) _ a = some q at repaused
    obtain ⟨between, last, again, repausing, rfl⟩ := coreRefAt_eq_some.mp repaused
    obtain rfl : contract.withCoreRef c = between := Option.some.inj ((withPCV_pcv _).symm.trans again)
    obtain ⟨-, was, rfl⟩ := unpause_eq_ok.mp unpausing
    obtain ⟨-, -, rfl⟩ := pause_eq_ok.mp repausing
    refine ⟨token, moved, ?_⟩
    have restored : (⟨contract.toCoreRef.CONTRACT_ADMIN_ROLE, true⟩ : CoreRef) = contract.toCoreRef := by
      rw [← was]
    rw [PCVContract.toCoreRef_withCoreRef, PCVContract.withCoreRef_withCoreRef, restored,
      PCVContract.withCoreRef_toCoreRef]
    change ((p.withTokens token).withPCV a _).withPCV a contract = _
    rw [withPCV_withPCV]
    exact withPCV_same here

theorem withdrawn_onTokens (flows : Flows e S) {guardian : PCVGuardian}
    (withdrawn : PCVGuardian.Withdrawn (guardianContracts d e) guardian p a q) : OnTokens S p q :=
  withdrawn_of_withdrawals (withdrawAt_onTokens flows) (withdrawERC20At_onTokens flows) withdrawn

end Guardian

/-! ### The steps of the protocol -/

section Steps

variable {τ κ : Type} {d : Deployment} {e : Externals τ κ} {depth : ℕ} {p q : Protocol τ} {a sender : Address}

/-- Nothing changed but the tokens. -/
abbrev OnlyTokens (p q : Protocol τ) : Prop := OnTokens (fun _ _ => True) p q

theorem flows_true (e : Externals τ κ) : Flows e fun _ _ => True where
  refl _ := trivial
  trans _ _ := trivial
  update _ := trivial
  transfer _ := trivial
  transferFrom _ := trivial

/-- What each transaction may change: the storage of one contract, and the tokens. -/
inductive Changes (d : Deployment) (e : Externals τ κ) (depth : ℕ) (p : Protocol τ) : Call κ → Protocol τ → Prop
  | wait (seconds : ℕ) : Changes d e depth p (.wait seconds) { p with now := p.now + seconds }
  | token (transaction : κ) (token : τ) (transacted : e.transact p.tokens transaction = .ok token) :
      Changes d e depth p (.token transaction) (p.withTokens token)
  | roles (call : GuardianPowers.Call) (roles : GuardianPowers.State)
      (called : GuardianPowers.step d.core d.guardAdmin p.roles call = .ok roles) :
      Changes d e depth p (.roles call) { p with roles }
  | volt (sender : Address) (function : VoltFunction) (volt : Volt τ)
      (called : voltStep e (p.context sender) p.now p.volt function = .ok volt) :
      Changes d e depth p (.volt sender function) { p with volt }
  | compoundInterest (oracle : Address) (before after : VoltSystemOracle) (here : p.oracles oracle = some before)
      (compounded : before.compoundInterest p.now = .ok after) :
      Changes d e depth p (.compoundInterest oracle)
        { p with oracles := Function.update p.oracles oracle (some after) }
  | updateScalingPriceOracle (sender oracle : Address) (passThrough : OraclePassThrough)
      (called : p.passThrough.updateScalingPriceOracle sender oracle = .ok passThrough) :
      Changes d e depth p (.updateScalingPriceOracle sender oracle) { p with passThrough }
  | psm (a sender : Address) (function : PSMFunction) (psm : PegStabilityModule)
      (t : PegStabilitySystem.State (Protocol τ)) (token : τ) (here : p.pcv a = some (.psm psm))
      (called : PegStabilitySystem.step (psmContracts d e depth) ⟨p.now, psm, p, 0⟩
        (function.call (p.context sender)) = .ok t) (world : t.world = p.withTokens token) :
      Changes d e depth p (.psm a sender function) ((p.withTokens token).withPCV a (.psm t.psm))
  | deposit (a sender : Address) (function : DepositFunction) (deposit : ERC20HoldingPCVDeposit) (token : τ)
      (here : p.pcv a = some (.deposit deposit))
      (called : depositStep e deposit a (p.context sender) p function = .ok (p.withTokens token)) :
      Changes d e depth p (.deposit a sender function) (p.withTokens token)
  | depositCore (a sender : Address) (function : DepositFunction) (deposit : ERC20HoldingPCVDeposit) (c : CoreRef)
      (here : p.pcv a = some (.deposit deposit))
      (called : depositStep e deposit a (p.context sender) p function =
        .ok (p.withPCV a (.deposit { deposit with toCoreRef := c }))) :
      Changes d e depth p (.deposit a sender function) (p.withPCV a (.deposit { deposit with toCoreRef := c }))
  | allocator (sender : Address) (function : AllocatorFunction) (t : AllocatorSystem.State (Protocol τ)) (token : τ)
      (called : AllocatorSystem.step (allocatorContracts d e depth) ⟨p.now, p.allocator, p, []⟩
        (function.call (p.context sender)) = .ok t) (world : t.world = p.withTokens token) :
      Changes d e depth p (.allocator sender function) { p.withTokens token with allocator := t.allocator }
  | guardian (sender : Address) (function : GuardianFunction) (guardian : PCVGuardian)
      (called : guardianStep d e (p.context sender) p function = .ok { p with guardian }) :
      Changes d e depth p (.guardian sender function) { p with guardian }
  | withdrawal (sender : Address) (function : GuardianFunction) (a : Address) (token : τ)
      (may : PCVGuardian.MayWithdraw (p.context sender)) (listed : a ∈ p.guardian.whitelistAddresses)
      (withdrawn : PCVGuardian.Withdrawn (guardianContracts d e) p.guardian p a (p.withTokens token)) :
      Changes d e depth p (.guardian sender function) (p.withTokens token)
  | deployPSM (a : Address) (params : PegStabilityModule.Params) (psm : PegStabilityModule) (vacant : p.pcv a = none)
      (deployed : PegStabilityModule.deploy p.now { params with self := a, volt := d.volt } = .ok psm) :
      Changes d e depth p (.deployPSM a params) (p.withPCV a (.psm psm))
  | deployDeposit (a token : Address) (deposit : ERC20HoldingPCVDeposit) (vacant : p.pcv a = none)
      (deployed : ERC20HoldingPCVDeposit.deploy a token = .ok deposit) :
      Changes d e depth p (.deployDeposit a token) (p.withPCV a (.deposit deposit))
  | deployOracle (a : Address) (oracle : VoltSystemOracle) (vacant : p.oracles a = none) :
      Changes d e depth p (.deployOracle a oracle) { p with oracles := Function.update p.oracles a (some oracle) }

theorem psm_changes {function : PSMFunction} (stepped : step d e depth p (.psm a sender function) = .ok q) :
    Changes d e depth p (.psm a sender function) q := by
  simp only [step] at stepped
  split at stepped
  · obtain ⟨t, called, rfl⟩ := map_eq_ok.mp stepped
    have moved : OnlyTokens p t.world := by
      obtain ⟨w, moved, ⟨-, same⟩ | ⟨recipient, minted⟩⟩ :=
        world_of_call (moves_psmContracts (flows_true e) depth) called
      · exact same ▸ moved
      · obtain ⟨-, -, token, -, issued⟩ := mint_onTokens minted
        exact moved.trans (flows_true e) ⟨token, trivial, issued⟩
    obtain ⟨token, -, world⟩ := moved
    rw [world]
    exact .psm a sender function _ t token ‹_› called world
  · cases stepped

/-- A call of a deposit moves tokens, or writes its part of CoreRef. -/
theorem depositStep_spec {S : τ → τ → Prop} (flows : Flows e S) {deposit : ERC20HoldingPCVDeposit} {ctx : Context}
    {function : DepositFunction} (called : depositStep e deposit a ctx p function = .ok q) :
    OnTokens S p q ∨ ∃ c, q = p.withPCV a (.deposit { deposit with toCoreRef := c }) := by
  cases function with
  | deposit =>
    obtain ⟨_, -, rfl⟩ := map_eq_ok.mp called
    exact .inl (.refl flows p)
  | withdraw =>
    obtain ⟨-, sent⟩ := ERC20HoldingPCVDeposit.withdraw_eq_ok.mp called
    exact .inl (.of_map (fun _ => flows.transfer) sent)
  | withdrawAll =>
    obtain ⟨-, _, -, sent⟩ := ERC20HoldingPCVDeposit.withdrawAll_eq_ok.mp called
    exact .inl (.of_map (fun _ => flows.transfer) sent)
  | withdrawERC20 =>
    obtain ⟨-, sent⟩ := ERC20HoldingPCVDeposit.withdrawERC20_eq_ok.mp called
    exact .inl (.of_map (fun _ => flows.transfer) sent)
  | pause | unpause | setContractAdminRole =>
    obtain ⟨c, -, rfl⟩ := map_eq_ok.mp called
    exact .inr ⟨c, rfl⟩

theorem deposit_changes {function : DepositFunction} (stepped : step d e depth p (.deposit a sender function) = .ok q) :
    Changes d e depth p (.deposit a sender function) q := by
  simp only [step] at stepped
  split at stepped
  · obtain ⟨token, -, rfl⟩ | ⟨c, rfl⟩ := depositStep_spec (flows_true e) stepped
    · exact .deposit a sender function _ token ‹_› stepped
    · exact .depositCore a sender function _ c ‹_› stepped
  · cases stepped

theorem guardian_changes {function : GuardianFunction} (stepped : step d e depth p (.guardian sender function) = .ok q) :
    Changes d e depth p (.guardian sender function) q := by
  have withdrawal (a : Address) (spec : PCVGuardian.MayWithdraw (p.context sender) ∧
      a ∈ p.guardian.whitelistAddresses ∧ PCVGuardian.Withdrawn (guardianContracts d e) p.guardian p a q) :
      Changes d e depth p (.guardian sender function) q := by
    obtain ⟨may, listed, withdrawn⟩ := spec
    obtain ⟨token, -, rfl⟩ := withdrawn_onTokens (flows_true e) withdrawn
    exact .withdrawal sender function a token may listed withdrawn
  cases function with
  | withdrawToSafeAddress a amount => exact withdrawal a (PCVGuardian.withdrawToSafeAddress_spec stepped)
  | withdrawAllToSafeAddress a => exact withdrawal a (PCVGuardian.withdrawAllToSafeAddress_spec stepped)
  | withdrawERC20ToSafeAddress a token amount => exact withdrawal a (PCVGuardian.withdrawERC20ToSafeAddress_spec stepped)
  | withdrawAllERC20ToSafeAddress a token =>
    exact withdrawal a (PCVGuardian.withdrawAllERC20ToSafeAddress_spec stepped)
  | _ =>
    obtain ⟨_, -, rfl⟩ := map_eq_ok.mp stepped
    exact .guardian sender _ _ stepped

/-- A deployment puts a contract where there was none. -/
theorem deployAt_eq_ok {contract : Except Revert PCVContract} :
    deployAt p a contract = .ok q ↔ p.pcv a = none ∧ ∃ deployed, contract = .ok deployed ∧ q = p.withPCV a deployed := by
  rw [deployAt, require_bind_eq_ok]
  simp only [bind_eq_ok, pure_eq_ok, eq_comm (a := q)]

theorem changes_of_step {call : Call κ} (stepped : step d e depth p call = .ok q) : Changes d e depth p call q := by
  cases call with
  | wait seconds =>
    obtain rfl := Except.ok.inj stepped
    exact .wait seconds
  | token transaction =>
    obtain ⟨volt, success, rfl⟩ := map_eq_ok.mp stepped
    obtain ⟨token, transacted, written⟩ := bind_eq_ok.mp success
    obtain rfl := pure_eq_ok.mp written
    exact .token transaction token transacted
  | roles call =>
    obtain ⟨roles, called, rfl⟩ := map_eq_ok.mp stepped
    exact .roles call roles called
  | volt sender function =>
    obtain ⟨volt, called, rfl⟩ := map_eq_ok.mp stepped
    exact .volt sender function volt called
  | compoundInterest oracle =>
    simp only [step, bind_eq_ok, external_eq_ok, pure_eq_ok] at stepped
    obtain ⟨before, here, after, compounded, rfl⟩ := stepped
    exact .compoundInterest oracle before after here compounded
  | updateScalingPriceOracle sender oracle =>
    obtain ⟨passThrough, called, rfl⟩ := map_eq_ok.mp stepped
    exact .updateScalingPriceOracle sender oracle passThrough called
  | psm => exact psm_changes stepped
  | deposit => exact deposit_changes stepped
  | allocator sender function =>
    obtain ⟨t, called, rfl⟩ := map_eq_ok.mp stepped
    obtain ⟨-, token, -, world⟩ := world_of_allocator (shifts_allocatorContracts (flows_true e)) called
    rw [world]
    exact .allocator sender function t token called world
  | guardian => exact guardian_changes stepped
  | deployPSM a params =>
    obtain ⟨vacant, contract, success, rfl⟩ := deployAt_eq_ok.mp stepped
    obtain ⟨psm, deployed, rfl⟩ := map_eq_ok.mp success
    exact .deployPSM a params psm vacant deployed
  | deployDeposit a token =>
    obtain ⟨vacant, contract, success, rfl⟩ := deployAt_eq_ok.mp stepped
    obtain ⟨deposit, deployed, rfl⟩ := map_eq_ok.mp success
    exact .deployDeposit a token deposit vacant deployed
  | deployOracle a oracle =>
    simp only [step, require_bind_eq_ok, pure_eq_ok] at stepped
    obtain ⟨vacant, rfl⟩ := stepped
    exact .deployOracle a oracle vacant

/-- The contract that holds PCV that a transaction is addressed to. -/
def Call.target : Call κ → Option Address
  | .psm a _ _ | .deposit a _ _ | .deployPSM a _ | .deployDeposit a _ => some a
  | _ => none

/-- The time that a transaction takes. -/
def Call.seconds : Call κ → ℕ
  | .wait seconds => seconds
  | _ => 0

theorem Changes.now {call : Call κ} (changes : Changes d e depth p call q) : q.now = p.now + call.seconds := by
  cases changes <;> rfl

/-- Only a transaction addressed to a contract that holds PCV changes its storage. PCVGuardian pauses what it
has unpaused. -/
theorem Changes.pcv {call : Call κ} (changes : Changes d e depth p call q) (elsewhere : call.target ≠ some a) :
    q.pcv a = p.pcv a := by
  cases changes with
  | psm | depositCore | deployPSM | deployDeposit =>
    exact withPCV_pcv_of_ne fun same => elsewhere (congrArg some same.symm)
  | _ => rfl

/-- No contract that holds PCV ever vanishes. -/
theorem Changes.persists {call : Call κ} (changes : Changes d e depth p call q) (deployed : p.pcv a ≠ none) :
    q.pcv a ≠ none := by
  by_cases elsewhere : call.target = some a
  · cases changes with
    | psm | depositCore | deployPSM | deployDeposit =>
      obtain rfl := Option.some.inj elsewhere
      rw [withPCV_pcv]
      exact Option.some_ne_none _
    | _ => exact deployed
  · rw [changes.pcv elsewhere]
    exact deployed

/-- Only its own functions change the allocator. -/
theorem Changes.allocator_eq {call : Call κ} (changes : Changes d e depth p call q)
    (elsewhere : ∀ sender function, call ≠ .allocator sender function) : q.allocator = p.allocator := by
  cases changes with
  | allocator sender function => exact absurd rfl (elsewhere sender function)
  | _ => rfl

/-- Only its own functions change PCVGuardian. -/
theorem Changes.guardian_eq {call : Call κ} (changes : Changes d e depth p call q)
    (elsewhere : ∀ sender function, call ≠ .guardian sender function) : q.guardian = p.guardian := by
  cases changes with
  | guardian sender function => exact absurd rfl (elsewhere sender function)
  | _ => rfl

/-- Only calls of Core and PCVGuardAdmin change roles. -/
theorem Changes.roles_eq {call : Call κ} (changes : Changes d e depth p call q) (elsewhere : ∀ c, call ≠ .roles c) :
    q.roles = p.roles := by
  cases changes with
  | roles call => exact absurd rfl (elsewhere call)
  | _ => rfl

/-- Every contract is where it was deployed, and PSMs trade the VOLT of Core. -/
structure Placed (d : Deployment) (p : Protocol τ) : Prop where
  self : ∀ a contract, p.pcv a = some contract → contract.self = a
  volt : ∀ a psm, p.pcv a = some (.psm psm) → psm.volt = d.volt

theorem Placed.of_pcv (placed : Placed d p) (same : q.pcv = p.pcv) : Placed d q :=
  ⟨by rw [same]; exact placed.self, by rw [same]; exact placed.volt⟩

theorem Placed.withPCV (placed : Placed d p) {contract : PCVContract} (self : contract.self = a)
    (volt : ∀ psm, contract = .psm psm → psm.volt = d.volt) : Placed d (p.withPCV a contract) where
  self b other here := by
    by_cases same : b = a
    · subst same
      obtain rfl := Option.some.inj ((withPCV_pcv _).symm.trans here)
      exact self
    · rw [withPCV_pcv_of_ne same] at here
      exact placed.self b other here
  volt b psm here := by
    by_cases same : b = a
    · subst same
      exact volt psm (Option.some.inj ((withPCV_pcv _).symm.trans here))
    · rw [withPCV_pcv_of_ne same] at here
      exact placed.volt b psm here

theorem deploy_accounts {now : ℕ} {params : PegStabilityModule.Params} {psm : PegStabilityModule}
    (deployed : PegStabilityModule.deploy now params = .ok psm) :
    psm.self = params.self ∧ psm.volt = params.volt ∧ psm.toCoreRef = ⟨.psmAdmin, false⟩ ∧
      psm.underlyingToken = params.underlyingToken ∧ psm.surplusTarget = params.surplusTarget := by
  simp only [PegStabilityModule.deploy, PegStabilityModule.setReservesThresholdInternal,
    PegStabilityModule.setMintFeeInternal, PegStabilityModule.setRedeemFeeInternal,
    PegStabilityModule.setSurplusTargetInternal, bind_eq_ok, pure_eq_ok] at deployed
  obtain ⟨_, -, _, -, _, ⟨_, -, rfl⟩, _, ⟨_, -, rfl⟩, _, ⟨_, -, rfl⟩, _, ⟨_, -, rfl⟩, _, -, rfl⟩ := deployed
  exact ⟨rfl, rfl, rfl, rfl, rfl⟩

theorem Changes.placed {call : Call κ} (changes : Changes d e depth p call q) (placed : Placed d p) : Placed d q := by
  cases changes with
  | psm a sender function psm t token here called world =>
    obtain ⟨-, self, volt, -⟩ := accounts_of_call called
    have moved : Placed d (p.withTokens token) := placed.of_pcv rfl
    have kept : (PCVContract.psm t.psm).self = a := self.trans (placed.self a _ here)
    refine moved.withPCV kept ?_
    intro _ same
    exact PCVContract.psm.inj same ▸ volt.trans (placed.volt a psm here)
  | depositCore a sender function deposit c here =>
    have kept : (PCVContract.deposit { deposit with toCoreRef := c }).self = a := placed.self a (.deposit deposit) here
    exact placed.withPCV kept fun _ other => by cases other
  | deployPSM a params psm vacant deployed =>
    obtain ⟨self, volt, -⟩ := deploy_accounts deployed
    have here : (PCVContract.psm psm).self = a := self
    refine placed.withPCV here ?_
    intro _ same
    exact PCVContract.psm.inj same ▸ volt
  | deployDeposit a token deposit vacant deployed =>
    obtain ⟨_, -, written⟩ := bind_eq_ok.mp deployed
    obtain rfl := pure_eq_ok.mp written
    exact placed.withPCV rfl fun _ other => by cases other
  | _ => exact placed.of_pcv rfl

theorem placed_of_reachable (reached : Reachable (step d e depth) Initial p) : Placed d p := by
  apply reached.invariant
  · intro start initial
    constructor
    · intro a _ here
      cases (initial.empty a).symm.trans here
    · intro a _ here
      cases (initial.empty a).symm.trans here
  · intro state call next placed stepped
    exact (changes_of_step stepped).placed placed

end Steps

end ProtocolSystem

end VoltProtocol
