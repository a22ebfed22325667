import VoltProtocol.ToMathlib.Ledger
import VoltProtocol.Soundness.ProtocolCallers

/-! # Exact books under the protocol

The results about amounts rest on tokens that move, mint and burn exactly what they are asked to, as
VOLT and the tokens it is backed with do. Such books are kept by tables of balances, on which the protocol
can be run.
-/

namespace VoltProtocol.ProtocolBooks

open Machine ProtocolSystem ProtocolCallers

variable {τ κ : Type}

/-- Tokens that move, mint and burn exactly what they are asked to; their own transactions mint no VOLT, and
oracles move no tokens. `held` is what an account holds of a token, and `supply` that of VOLT. -/
structure Exact (volt : Address) (e : Externals τ κ) (held : τ → Address → Address → ℕ) (supply : τ → ℕ) : Prop where
  update {t u : τ} {oracle : Address} (updated : e.update t oracle = some u) :
    held u = held t ∧ supply u = supply t
  transfer {t u : τ} {token sender recipient : Address} {amount : ℕ}
    (sent : e.transfer t token sender recipient amount = some u) :
    (amount ≤ held t token sender ∧ held u = Ledger.moveIn (held t) token sender recipient amount) ∧
      supply u = supply t
  transferFrom {t u : τ} {token sender owner recipient : Address} {amount : ℕ}
    (pulled : e.transferFrom t token sender owner recipient amount = some u) :
    (amount ≤ held t token owner ∧ held u = Ledger.moveIn (held t) token owner recipient amount) ∧
      supply u = supply t
  approve {t u : τ} {owner spender : Address} {value : ℕ} (approved : e.approve t owner spender value = .ok u) :
    held u = held t ∧ supply u = supply t
  mint {t u : τ} {account : Address} {amount : ℕ} (minted : e.mint t account amount = .ok u) :
    held u = Ledger.creditIn (held t) volt account amount ∧ supply u = supply t + amount
  burn {t u : τ} {sender : Address} {amount : ℕ} (burnt : e.burn t sender amount = .ok u) :
    (∀ token account, account ≠ sender → held u token account = held t token account) ∧
      supply u + amount = supply t
  transact {t u : τ} {transaction : κ} (transacted : e.transact t transaction = .ok u) : supply u ≤ supply t

/-- The supply does not change. -/
def SameSupply (supply : τ → ℕ) (t u : τ) : Prop := supply u = supply t

theorem Exact.flows {volt : Address} {e : Externals τ κ} {held : τ → Address → Address → ℕ} {supply : τ → ℕ}
    (exact : Exact volt e held supply) : Flows e (SameSupply supply) where
  refl _ := rfl
  trans first second := second.trans first
  update updated := (exact.update updated).2
  transfer sent := (exact.transfer sent).2
  transferFrom pulled := (exact.transferFrom pulled).2

/-! ### Tables -/

/-- One table of balances per token, and the supply of VOLT. -/
structure Books where
  held : Address → Address → ℕ
  supply : ℕ

/-- A transfer of a token by an account outside the protocol. -/
structure Payment where
  token : Address
  sender : Address
  recipient : Address
  amount : ℕ

/-- Move an amount that the source holds. -/
def Books.pay (b : Books) (token source recipient : Address) (amount : ℕ) : Option Books :=
  if amount ≤ b.held token source then some { b with held := Ledger.moveIn b.held token source recipient amount }
  else none

/-- Tables for which all approvals were given, with no other oracles. -/
def tables (volt : Address) : Externals Books Payment where
  approve b _ _ _ := .ok b
  mint b account amount := .ok ⟨Ledger.creditIn b.held volt account amount, b.supply + amount⟩
  burn b sender amount := if amount ≤ b.held volt sender ∧ amount ≤ b.supply
    then .ok ⟨Function.update b.held volt (Ledger.debit (b.held volt) sender amount), b.supply - amount⟩
    else .error .callee
  transact b payment := external (b.pay payment.token payment.sender payment.recipient payment.amount)
  read _ _ := none
  update b _ := some b
  balanceOf b token account := some (b.held token account)
  transfer b token sender recipient amount := b.pay token sender recipient amount
  transferFrom b token _ owner recipient amount := b.pay token owner recipient amount
  crypto := ⟨fun _ => 0, fun _ => 0, fun _ _ => 0, fun _ _ _ _ => 0⟩

theorem pay_spec {b after : Books} {token source recipient : Address} {amount : ℕ}
    (paid : b.pay token source recipient amount = some after) :
    (amount ≤ b.held token source ∧ after.held = Ledger.moveIn b.held token source recipient amount) ∧
      after.supply = b.supply := by
  rw [Books.pay] at paid
  split_ifs at paid with covered
  obtain rfl := Option.some.inj paid
  exact ⟨⟨covered, rfl⟩, rfl⟩

theorem tables_exact (volt : Address) : Exact volt (tables volt) Books.held Books.supply where
  update updated := Option.some.inj updated ▸ ⟨rfl, rfl⟩
  transfer := pay_spec
  transferFrom := pay_spec
  approve approved := Except.ok.inj approved ▸ ⟨rfl, rfl⟩
  mint minted := Except.ok.inj minted ▸ ⟨rfl, rfl⟩
  burn {t u sender amount} burnt := by
    simp only [tables] at burnt
    split_ifs at burnt with covered
    obtain rfl := Except.ok.inj burnt
    refine ⟨?_, Nat.sub_add_cancel covered.2⟩
    intro token account other
    by_cases same : token = volt
    · subst same
      simp [Ledger.debit_of_ne other]
    · simp [Function.update_of_ne same]
  transact transacted := (pay_spec (external_eq_ok.mp transacted)).2.le

/-! ### A launch -/

/-- Core, PCVGuardAdmin, VOLT, the pass-through, the allocator and PCVGuardian, in that order. -/
def addresses : Deployment := ⟨1000, 1001, 1002, 1003, 1004, 1005⟩

/-- The roles of the fixtures, with account 1 as governor, 2 as guardian and 3 as PCV guard. The PSM at 1006
mints, and the allocator and PCVGuardian withdraw PCV. -/
def roles : Permissions :=
  (((GuardianPowers.fixed 1000 1 1006 9 1005 1005 1001).grantRoleInternal .pcvController 1004).grantRoleInternal
    .guardian 2).grantRoleInternal .pcvGuard 3

/-- Who holds which role. -/
theorem mem_roles {role : Role} {account : Address} : roles.members role account = true ↔
    (role, account) ∈ [(.governor, 1), (.governor, 1000), (.minter, 1006), (.burner, 9), (.pcvController, 1005),
      (.pcvController, 1004), (.guardian, 1005), (.guardian, 2), (.pcvGuardAdmin, 1001), (.pcvGuard, 3)] := by
  cases role <;> simp [roles, GuardianPowers.fixed, Permissions.setRoleAdmin, GuardianPowers.deploy_members, or_comm]

theorem roles_setup : GuardianPowers.Setup 1000 1001 roles := by
  have fixed : GuardianPowers.Setup 1000 1001 (GuardianPowers.fixed 1000 1 1006 9 1005 1005 1001) :=
    GuardianPowers.setup_fixed (by decide)
  constructor
  · exact fixed.distinct
  · simpa [roles] using fixed.governs
  · simpa [roles] using fixed.pcvGuard
  · intro account held
    exact fixed.guardAdmins account (by simpa [roles] using held)
  · intro role other
    refine (fixed.others role other).imp (by simp [roles]) ?_
    intro nobody account
    have admin : roles.admin role = (GuardianPowers.fixed 1000 1 1006 9 1005 1005 1001).admin role := by simp [roles]
    rw [admin]
    cases role <;> simp_all [roles, GuardianPowers.fixed, Permissions.setRoleAdmin, GuardianPowers.deploy_admin,
      Permissions.DEFAULT_ADMIN_ROLE]

/-- Nothing is deployed yet that holds PCV. Account 4 has a million units of the token at 2001. -/
def blank : Protocol Books where
  now := 100
  roles := ⟨⟨roles, true⟩, PCVGuardAdmin.deploy⟩
  volt :=
    { CONTRACT_ADMIN_ROLE := .governor, paused := false, DOMAIN_SEPARATOR := 0, nonces := fun _ => 0,
      token := ⟨fun token a => if token = 2001 ∧ a = 4 then 10 ^ 24 else 0, 0⟩ }
  passThrough := ⟨1, 1010⟩
  oracles _ := none
  pcv _ := none
  allocator :=
    { CONTRACT_ADMIN_ROLE := .governor, paused := false, MAX_RATE_LIMIT_PER_SECOND := 10 ^ 20,
      rateLimitPerSecond := 10 ^ 18, bufferCap := 10 ^ 23, lastBufferUsedTime := 100, bufferStored := 10 ^ 23,
      allPSMs := fun _ => .blank, pcvDepositToPSM := fun _ => 0 }
  guardian := ⟨⟨.governor, false⟩, 1009, ∅⟩

theorem blank_initial : Initial blank where
  empty _ := rfl
  allocator := by
    have deployed : RateLimitedV2.deploy 100 (10 ^ 20) (10 ^ 18) (10 ^ 23) = .ok blank.allocator.toRateLimitedV2 := by
      decide +kernel
    exact ⟨10 ^ 20, 10 ^ 18, 10 ^ 23, bind_eq_ok.mpr ⟨_, deployed, rfl⟩⟩

/-- A PriceBoundPSM for the token at 2001, which reads the price of VOLT from the pass-through. -/
def params : PegStabilityModule.Params where
  self := 1006
  volt := 1002
  oracleAddress := 1003
  backupOracle := 0
  decimalsNormalizer := 0
  doInvert := true
  mintFeeBasisPoints := 0
  redeemFeeBasisPoints := 10
  reservesThreshold := 10 ^ 21
  feiLimitPerSecond := 10 ^ 20
  mintingBufferCap := 10 ^ 23
  underlyingToken := 2001
  surplusTarget := 1008
  priceBound := some ⟨8000, 10500⟩

theorem zero_fits : -2 ^ (8 - 1) ≤ (0 : ℤ) ∧ (0 : ℤ) < 2 ^ (8 - 1) := by decide

/-- An oracle at a price of 1.05, the PSM, a deposit of the same token, and their connections. -/
def launch : List (Call Payment) :=
  [.deployOracle 1010 ⟨105 * 10 ^ 16, 100, 144⟩, .deployPSM 1006 params, .deployDeposit 1008 2001,
    .allocator 1 (.connectPSM 1006 (10 ^ 20) ⟨0, zero_fits⟩), .allocator 1 (.connectDeposit 1006 1008),
    .guardian 1 (.addWhitelistAddresses [1006, 1008])]

/-- A user trades, reserves move, and a PCV guard withdraws from the paused PSM. -/
def trading : List (Call Payment) :=
  [.psm 1006 4 (.mint 4 (21 * 10 ^ 21) 0), .wait 1314144, .psm 1006 4 (.redeem 5 (10 ^ 21) 0), .allocator 7 (.skim 1008),
    .psm 1006 2 .pause, .guardian 3 (.withdrawToSafeAddress 1006 (10 ^ 19)), .psm 1006 2 .unpause,
    .allocator 7 (.doAction 1008), .guardian 2 (.withdrawAllToSafeAddress 1008)]

/-- Only accounts 2, 3, 4 and 7 trade. -/
theorem sent_trading : ∀ call ∈ trading, SentBy (· ∈ [2, 3, 4, 7]) call := by
  simp only [trading, List.forall_mem_cons, SentBy, senderOf]
  simp

/-- The system of the examples. -/
abbrev system : Protocol Books → Call Payment → Except Revert (Protocol Books) := step addresses (tables 1002) 1

/-- Neither the launch nor the trading calls Core or PCVGuardAdmin. -/
theorem others : ∀ call ∈ launch ++ trading, ∀ c, call ≠ .roles c := by
  simp [launch, trading]

/-- The roles are those of the start. -/
def Staffed (p : Protocol Books) : Prop := p.roles = blank.roles

theorem staffed_of_step {p q : Protocol Books} {call : Call Payment} (other : ∀ c, call ≠ .roles c)
    (staffed : Staffed p) (stepped : system p call = .ok q) : Staffed q :=
  ((changes_of_step stepped).roles_eq other).trans staffed

/-- What the launch leaves behind. -/
structure Launched (p : Protocol Books) : Prop where
  run : run system blank launch = .ok p
  staffed : Staffed p
  passThrough : p.passThrough = blank.passThrough
  safeAddress : p.guardian.safeAddress = 1009
  psm : ∃ psm, p.pcv 1006 = some (.psm psm) ∧ psm.CONTRACT_ADMIN_ROLE = .psmAdmin ∧ psm.surplusTarget = 1008 ∧
    psm.underlyingToken = 2001
  deposit : ∃ deposit, p.pcv 1008 = some (.deposit deposit)
  elsewhere : ∀ a, a ≠ 1006 → a ≠ 1008 → p.pcv a = none
  links : ∀ a, p.allocator.pcvDepositToPSM a = if a = 1008 then 1006 else 0

theorem launched_of_run {p : Protocol Books} (success : Machine.run system blank launch = .ok p) : Launched p := by
  have staffed : Staffed p := run_invariant (fun _ _ _ => staffed_of_step)
    (fun call member => others call (List.mem_append_left _ member)) rfl success
  have whole := success
  simp only [launch, run_cons_ok, run_nil_ok] at success
  obtain ⟨p₁, first, p₂, second, p₃, third, p₄, fourth, p₅, fifth, p₆, sixth, rfl⟩ := success
  cases changes_of_step first
  cases changes_of_step second with
  | deployPSM _ _ psm vacant deployed =>
  obtain ⟨-, -, core, traded, target⟩ := deploy_accounts deployed
  cases changes_of_step third with
  | deployDeposit _ _ deposit =>
  cases changes_of_step fourth with
  | allocator _ _ t token called world =>
  obtain ⟨a, connected, rfl⟩ := AllocatorSystem.links_of_step rfl called
  cases connected
  cases changes_of_step fifth with
  | allocator _ _ t token called world =>
  obtain ⟨a, connected, rfl⟩ := AllocatorSystem.links_of_step rfl called
  cases connected
  obtain ⟨guardian, added, rfl⟩ := map_eq_ok.mp sixth
  simp only [PCVGuardian.addWhitelistAddresses, List.foldlM_cons, List.foldlM_nil,
    PCVGuardian.addWhitelistAddressInternal, bind_eq_ok, pure_eq_ok] at added
  obtain ⟨_, -, _, ⟨_, -, rfl⟩, _, ⟨_, -, rfl⟩, rfl⟩ := added
  constructor
  · exact whole
  · exact staffed
  · rfl
  · rfl
  · exact ⟨psm, rfl, congrArg CoreRef.CONTRACT_ADMIN_ROLE core, target, traded⟩
  · exact ⟨deposit, rfl⟩
  · intro a psm deposit
    exact (Function.update_of_ne deposit ..).trans (Function.update_of_ne psm ..)
  · intro a
    exact Function.update_apply ..

namespace Launched

variable {p : Protocol Books} (launched : Launched p)

include launched

theorem reached : Reachable system Initial p := ⟨blank, launch, blank_initial, launched.run⟩

theorem core : p.roles.core.toPermissions = roles := congrArg (fun s => s.core.toPermissions) launched.staffed

theorem setup : GuardianPowers.Setup 1000 1001 p.roles.core.toPermissions := launched.core ▸ roles_setup

theorem initialized : p.roles.core.initialized = true := congrArg (fun s => s.core.initialized) launched.staffed

/-- There is only one PSM. -/
theorem only_psm {a : Address} {psm : PegStabilityModule} (here : p.pcv a = some (.psm psm)) :
    a = 1006 ∧ psm.CONTRACT_ADMIN_ROLE = .psmAdmin ∧ psm.surplusTarget = 1008 ∧ psm.underlyingToken = 2001 := by
  by_cases launchedPSM : a = 1006
  · obtain ⟨first, there, configured⟩ := launched.psm
    rw [launchedPSM, there] at here
    obtain rfl := PCVContract.psm.inj (Option.some.inj here)
    exact ⟨launchedPSM, configured⟩
  · by_cases launchedDeposit : a = 1008
    · obtain ⟨deposit, there⟩ := launched.deposit
      rw [launchedDeposit, there] at here
      cases here
    · rw [launched.elsewhere a launchedPSM launchedDeposit] at here
      cases here

end Launched

/-- The protocol launches, and is traded with. -/
theorem launch_trading : ∃ p q, Launched p ∧ run system p trading = .ok q := by
  have all : (run system blank (launch ++ trading)).isOk = true := by decide +kernel
  obtain ⟨q, success⟩ := exists_of_isOk all
  obtain ⟨p, launched, traded⟩ := run_append_ok.mp success
  exact ⟨p, q, launched_of_run launched, traded⟩

end VoltProtocol.ProtocolBooks
