import VoltProtocol.Machine.History
import VoltProtocol.Model.Permissions

/-! # What accounts without GOVERN_ROLE can do to the roles

With the roles administered as in the fixtures, an account that is not a governor administers no role.
So it can only renounce its own roles, and as a guardian have Core or PCVGuardAdmin revoke for it: roles
only lose members, and GOVERN_ROLE loses none. That leaves the administration as it was, and the same
holds of every later call.
-/

namespace VoltProtocol.GuardianPowers

open Machine Permissions

/-- The public functions of Permissions, AccessControl, Core and PCVGuardAdmin that may write. -/
inductive Function where
  | createRole (role adminRole : Role)
  | grantMinter (minter : Address)
  | grantBurner (burner : Address)
  | grantPCVController (pcvController : Address)
  | grantGovernor (governor : Address)
  | grantGuardian (guardian : Address)
  | revokeMinter (minter : Address)
  | revokeBurner (burner : Address)
  | revokePCVController (pcvController : Address)
  | revokeGovernor (governor : Address)
  | revokeGuardian (guardian : Address)
  | revokeOverride (role : Role) (account : Address)
  | grantRole (role : Role) (account : Address)
  | revokeRole (role : Role) (account : Address)
  | renounceRole (role : Role) (account : Address)
  | init
  | grantPCVGuardRole (newGuard : Address)
  | revokePCVGuardRole (oldGuard : Address)
  | pause
  | unpause
  | setContractAdminRole (newContractAdminRole : Role)

structure Call where
  sender : Address
  function : Function

/-- Core, and the storage of PCVGuardAdmin. -/
structure State where
  core : Core
  guardAdmin : CoreRef

/-- A call that replaces the roles. -/
def State.write (s : State) (p : Permissions) : State := { s with core := { s.core with toPermissions := p } }

/-- A call of a function that PCVGuardAdmin has from CoreRef. -/
def State.writeGuardAdmin (s : State) (guardAdmin : CoreRef) : State := { s with guardAdmin }

/-- One call, with Core and PCVGuardAdmin at their addresses. -/
def step (core guardAdmin : Address) (s : State) (call : Call) : Except Revert State :=
  let p := s.core.toPermissions
  let sender := call.sender
  match call.function with
  | .createRole role adminRole => s.write <$> p.createRole sender role adminRole
  | .grantMinter minter => s.write <$> p.grantMinter sender minter
  | .grantBurner burner => s.write <$> p.grantBurner sender burner
  | .grantPCVController pcvController => s.write <$> p.grantPCVController sender pcvController
  | .grantGovernor governor => s.write <$> p.grantGovernor sender governor
  | .grantGuardian guardian => s.write <$> p.grantGuardian sender guardian
  | .revokeMinter minter => s.write <$> p.revokeMinter sender minter
  | .revokeBurner burner => s.write <$> p.revokeBurner sender burner
  | .revokePCVController pcvController => s.write <$> p.revokePCVController sender pcvController
  | .revokeGovernor governor => s.write <$> p.revokeGovernor sender governor
  | .revokeGuardian guardian => s.write <$> p.revokeGuardian sender guardian
  | .revokeOverride role account => s.write <$> p.revokeOverride core sender role account
  | .grantRole role account => s.write <$> p.grantRole sender role account
  | .revokeRole role account => s.write <$> p.revokeRole sender role account
  | .renounceRole role account => s.write <$> p.renounceRole sender role account
  | .init => (fun c => { s with core := c }) <$> s.core.init sender
  | .grantPCVGuardRole newGuard => s.write <$> PCVGuardAdmin.grantPCVGuardRole p guardAdmin sender newGuard
  | .revokePCVGuardRole oldGuard => s.write <$> PCVGuardAdmin.revokePCVGuardRole p guardAdmin sender oldGuard
  | .pause => s.writeGuardAdmin <$> s.guardAdmin.pause (p.context sender)
  | .unpause => s.writeGuardAdmin <$> s.guardAdmin.unpause (p.context sender)
  | .setContractAdminRole role => s.writeGuardAdmin <$> s.guardAdmin.setContractAdminRole (p.context sender) role

/-- Roles set up as in the fixtures: Core is a governor; PCV guards are administered by a role that no
account but PCVGuardAdmin holds; and every other role by GOVERN_ROLE, or like roles that were never
created by one that nobody holds. -/
structure Setup (core guardAdmin : Address) (p : Permissions) : Prop where
  distinct : core ≠ guardAdmin
  governs : p.members .governor core = true
  pcvGuard : p.admin .pcvGuard = .pcvGuardAdmin
  guardAdmins : ∀ account, p.members .pcvGuardAdmin account = true → account = guardAdmin
  others : ∀ role, role ≠ .pcvGuard → p.admin role = .governor ∨ ∀ account, p.members (p.admin role) account = false

/-- Roles may lose members, but not governors, and keep their admins. -/
structure Shrinks (p q : Permissions) : Prop where
  members : ∀ role account, q.members role account = true → p.members role account = true
  admin : q.admin = p.admin
  governors : ∀ account, q.members .governor account = p.members .governor account

theorem Shrinks.refl (p : Permissions) : Shrinks p p := ⟨fun _ _ held => held, rfl, fun _ => rfl⟩

theorem Shrinks.trans {p q r : Permissions} (first : Shrinks p q) (second : Shrinks q r) : Shrinks p r where
  members role account held := first.members role account (second.members role account held)
  admin := second.admin.trans first.admin
  governors account := (second.governors account).trans (first.governors account)

variable {core guardAdmin : Address} {p q : Permissions} {s t : State} {call : Call} {sender account : Address}
  {role : Role}

namespace Setup

/-- The setup does not depend on the members that a role may lose. -/
theorem shrinks (setup : Setup core guardAdmin p) (shrinks : Shrinks p q) : Setup core guardAdmin q where
  distinct := setup.distinct
  governs := (shrinks.governors core).trans setup.governs
  pcvGuard := (congrFun shrinks.admin .pcvGuard).trans setup.pcvGuard
  guardAdmins account held := setup.guardAdmins account (shrinks.members _ _ held)
  others role other := by
    rw [shrinks.admin]
    apply (setup.others role other).imp_right
    intro nobody account
    rw [Bool.eq_false_iff]
    intro held
    exact Bool.false_ne_true ((nobody account).symm.trans (shrinks.members _ _ held))

/-- An account that administers a role is a governor or PCVGuardAdmin. -/
theorem of_admin (setup : Setup core guardAdmin p) (held : p.members (p.admin role) account = true) :
    (p.admin role = .governor ∧ p.members .governor account = true) ∨ account = guardAdmin := by
  by_cases guard : role = .pcvGuard
  · rw [guard, setup.pcvGuard] at held
    exact .inr (setup.guardAdmins account held)
  · obtain governed | nobody := setup.others role guard
    · exact .inl ⟨governed, by rw [← governed]; exact held⟩
    · exact (Bool.false_ne_true ((nobody account).symm.trans held)).elim

end Setup

theorem shrinks_of_revoke (role : Role) (account : Address)
    (keeps : role ≠ .governor ∨ p.members .governor account = false) :
    Shrinks p (p.revokeRoleInternal role account) where
  members r a held := by
    rw [revokeRoleInternal_members] at held
    split_ifs at held
    exact held
  admin := revokeRoleInternal_admin p role account
  governors a := by
    rw [revokeRoleInternal_members]
    split_ifs with here
    · obtain ⟨rfl, rfl⟩ := here
      exact (keeps.resolve_left (not_not.mpr rfl)).symm
    · rfl

/-- What Core revokes for a guardian is administered by GOVERN_ROLE and is not that role. -/
theorem revokeOverride_spec (setup : Setup core guardAdmin p)
    (success : p.revokeOverride core sender role account = .ok q) :
    p.members .guardian sender = true ∧ role ≠ .governor ∧ p.admin role = .governor ∧
      q = p.revokeRoleInternal role account := by
  simp only [revokeOverride, onlyGuardian, revokeRole, checkRole, bind_eq_ok, require_eq_ok, pure_eq_ok] at success
  obtain ⟨_, guardian, _, other, _, held, rfl⟩ := success
  obtain ⟨governed, -⟩ | same := setup.of_admin held
  · exact ⟨guardian, other, governed, rfl⟩
  · exact (setup.distinct same).elim

/-- A caller who is not a governor. Nor is it PCVGuardAdmin, which calls Core only in its own functions. -/
def Plain (guardAdmin : Address) (p : Permissions) (sender : Address) : Prop :=
  p.members .governor sender = false ∧ sender ≠ guardAdmin

namespace Plain

variable {next : Unit → Except Revert Permissions}

/-- Such a caller does not get past the check for governors. -/
theorem onlyGovernor (plain : Plain guardAdmin p sender) (q : Permissions)
    (success : p.onlyGovernor sender >>= next = .ok q) : Shrinks p q := by
  obtain ⟨_, checked, -⟩ := bind_eq_ok.mp success
  exact (Bool.false_ne_true (plain.1.symm.trans (require_eq_ok.mp checked))).elim

/-- Nor past the check for the admin of any role. -/
theorem checkRole (plain : Plain guardAdmin p sender) (setup : Setup core guardAdmin p) (q : Permissions)
    (success : p.checkRole (p.getRoleAdmin role) sender >>= next = .ok q) : Shrinks p q := by
  obtain ⟨_, checked, -⟩ := bind_eq_ok.mp success
  obtain ⟨-, governor⟩ | same := setup.of_admin (require_eq_ok.mp checked)
  · exact (Bool.false_ne_true (plain.1.symm.trans governor)).elim
  · exact (plain.2 same).elim

end Plain

/-- A call by such an account shrinks the roles. -/
theorem step_shrinks (setup : Setup core guardAdmin s.core.toPermissions) (initialized : s.core.initialized = true)
    (plain : Plain guardAdmin s.core.toPermissions call.sender) (stepped : step core guardAdmin s call = .ok t) :
    Shrinks s.core.toPermissions t.core.toPermissions ∧ t.core.initialized = true := by
  obtain ⟨sender, function⟩ := call
  have written {result : Except Revert Permissions} (success : s.write <$> result = .ok t)
      (safe : ∀ q, result = .ok q → Shrinks s.core.toPermissions q) :
      Shrinks s.core.toPermissions t.core.toPermissions ∧ t.core.initialized = true := by
    obtain ⟨q, succeeded, rfl⟩ := map_eq_ok.mp success
    exact ⟨safe q succeeded, initialized⟩
  cases function with
  | createRole | grantMinter | grantBurner | grantPCVController | grantGovernor | grantGuardian | revokeMinter
  | revokeBurner | revokePCVController | revokeGovernor | revokeGuardian =>
    exact written stepped plain.onlyGovernor
  | grantRole | revokeRole => exact written stepped (plain.checkRole setup)
  | revokeOverride role account =>
    apply written stepped
    intro q success
    obtain ⟨-, other, -, rfl⟩ := revokeOverride_spec setup success
    exact shrinks_of_revoke role account (.inl other)
  | renounceRole role account =>
    apply written stepped
    intro q success
    obtain ⟨_, own, rfl⟩ := by simpa only [renounceRole, bind_eq_ok, require_eq_ok, pure_eq_ok] using success
    rw [own]
    exact shrinks_of_revoke role sender (.inr plain.1)
  | init =>
    obtain ⟨c, success, -⟩ := map_eq_ok.mp stepped
    obtain ⟨_, fresh, -⟩ := bind_eq_ok.mp success
    rw [initialized] at fresh
    cases fresh
  | grantPCVGuardRole newGuard =>
    apply written stepped
    intro q success
    obtain ⟨_, governor, -⟩ := bind_eq_ok.mp success
    exact (Bool.false_ne_true (plain.1.symm.trans (require_eq_ok.mp governor))).elim
  | revokePCVGuardRole oldGuard =>
    apply written stepped
    intro q success
    obtain ⟨_, -, success⟩ := bind_eq_ok.mp success
    obtain ⟨_, -, success⟩ := bind_eq_ok.mp success
    obtain rfl := pure_eq_ok.mp success
    exact shrinks_of_revoke .pcvGuard oldGuard (.inl (by decide))
  | pause | unpause | setContractAdminRole =>
    obtain ⟨c, -, rfl⟩ := map_eq_ok.mp stepped
    exact ⟨.refl _, initialized⟩

/-- What holds of the roles in every state that calls by plain accounts lead to. -/
structure Contained (start : Permissions) (t : State) : Prop where
  shrinks : Shrinks start t.core.toPermissions
  initialized : t.core.initialized = true

theorem contained_of_attempts {calls : List Call} (setup : Setup core guardAdmin s.core.toPermissions)
    (initialized : s.core.initialized = true)
    (plain : ∀ call ∈ calls, Plain guardAdmin s.core.toPermissions call.sender) :
    Contained s.core.toPermissions (attempts (step core guardAdmin) s calls) := by
  refine attempts_invariant ?_ plain ⟨.refl _, initialized⟩
  intro t call u caller before stepped
  have still : Plain guardAdmin t.core.toPermissions call.sender :=
    ⟨(before.shrinks.governors _).trans caller.1, caller.2⟩
  obtain ⟨shrinks, kept⟩ := step_shrinks (setup.shrinks before.shrinks) before.initialized still stepped
  exact ⟨before.shrinks.trans shrinks, kept⟩

/-- Whatever accounts that are no governors call, in any order, no role gains a member or gets another
admin, and GOVERN_ROLE loses no member. A guardian has Core remove a member of a role administered by
GOVERN_ROLE, other than that role, and nothing more. -/
theorem guardians_cannot_escalate {calls : List Call} (setup : Setup core guardAdmin s.core.toPermissions)
    (initialized : s.core.initialized = true)
    (plain : ∀ call ∈ calls, Plain guardAdmin s.core.toPermissions call.sender) :
    let t := attempts (step core guardAdmin) s calls
    (∀ role account, t.core.hasRole role account = true → s.core.hasRole role account = true) ∧
    (∀ role, t.core.getRoleAdmin role = s.core.getRoleAdmin role) ∧
    (∀ account, s.core.isGovernor account = true → t.core.isGovernor account = true) ∧
    ∀ guardian role account u, step core guardAdmin t ⟨guardian, .revokeOverride role account⟩ = .ok u →
      t.core.isGuardian guardian = true ∧ role ≠ .governor ∧ t.core.getRoleAdmin role = .governor ∧
      u = t.write (t.core.revokeRoleInternal role account) := by
  intro t
  obtain ⟨⟨members, admin, governors⟩, -⟩ := contained_of_attempts setup initialized plain
  refine ⟨members, congrFun admin, fun account held => (governors account).trans held, ?_⟩
  intro guardian role account u stepped
  obtain ⟨q, success, rfl⟩ := map_eq_ok.mp stepped
  obtain ⟨appointed, other, governed, rfl⟩ := revokeOverride_spec (setup.shrinks ⟨members, admin, governors⟩) success
  exact ⟨appointed, other, governed, rfl⟩

/-! ### The fixtures -/

/-- Core after `init` is what the constructor of L2Core leaves. -/
theorem init_deploy (core governor : Address) :
    (Core.deploy core).init governor = .ok (L2Core.deploy core governor) := rfl

/-- What the fixtures have the governor do. -/
def fixture (governor minter burner pcvController guardian guardAdmin : Address) : List Call :=
  [⟨governor, .grantMinter minter⟩, ⟨governor, .grantBurner burner⟩,
    ⟨governor, .grantPCVController pcvController⟩, ⟨governor, .grantGuardian guardian⟩,
    ⟨governor, .createRole .pcvGuardAdmin .governor⟩, ⟨governor, .grantRole .pcvGuardAdmin guardAdmin⟩,
    ⟨governor, .createRole .pcvGuard .pcvGuardAdmin⟩]

/-- The roles that the fixtures leave. -/
def fixed (core governor minter burner pcvController guardian guardAdmin : Address) : Permissions :=
  let deployed := (L2Core.deploy core governor).toPermissions
  let controllers := ((deployed.grantRoleInternal .minter minter).grantRoleInternal .burner burner).grantRoleInternal
    .pcvController pcvController
  let guarded := (controllers.grantRoleInternal .guardian guardian).setRoleAdmin .pcvGuardAdmin .governor
  (guarded.grantRoleInternal .pcvGuardAdmin guardAdmin).setRoleAdmin .pcvGuard .pcvGuardAdmin

section Fixture

variable {governor minter burner pcvController guardian : Address}

theorem fixture_run :
    run (step core guardAdmin) ⟨L2Core.deploy core governor, PCVGuardAdmin.deploy⟩
        (fixture governor minter burner pcvController guardian guardAdmin) =
      .ok ⟨⟨fixed core governor minter burner pcvController guardian guardAdmin, true⟩, PCVGuardAdmin.deploy⟩ := by
  simp [run, fixture, fixed, step, grantMinter, grantBurner, grantPCVController, grantGuardian, grantByGovernor,
    Permissions.onlyGovernor, isGovernor, hasRole, Permissions.grantRole, Permissions.checkRole, getRoleAdmin,
    createRole, L2Core.deploy, Permissions.deploy, setupGovernor, setRoleAdmin, require, State.write, bind, Except.bind,
    Functor.map, Except.map, pure, Except.pure]

/-- The roles that Core deploys with are all administered by GOVERN_ROLE. -/
theorem deploy_admin (role : Role) : (L2Core.deploy core governor).admin role =
    if role ∈ [.minter, .burner, .pcvController, .governor, .guardian] then .governor else DEFAULT_ADMIN_ROLE := by
  cases role <;> simp [L2Core.deploy, Permissions.deploy, setupGovernor, setRoleAdmin]

/-- Core and its deployer govern, and nobody holds any other role. -/
theorem deploy_members (role : Role) (account : Address) : (L2Core.deploy core governor).members role account =
    decide (role = .governor ∧ (account = governor ∨ account = core)) := by
  simp [L2Core.deploy, Permissions.deploy, setupGovernor, setRoleAdmin, Bool.and_or_distrib_left]

theorem setup_fixed (distinct : core ≠ guardAdmin) :
    Setup core guardAdmin (fixed core governor minter burner pcvController guardian guardAdmin) where
  distinct := distinct
  governs := by simp [fixed, setRoleAdmin, deploy_members]
  pcvGuard := by simp [fixed, setRoleAdmin]
  guardAdmins account := by simp [fixed, setRoleAdmin, deploy_members]
  others role other := by
    cases role with
    | pcvGuard => exact absurd rfl other
    | psmAdmin | other =>
      exact .inr fun account => by simp [fixed, setRoleAdmin, deploy_members, deploy_admin, DEFAULT_ADMIN_ROLE]
    | _ => exact .inl (by simp [fixed, setRoleAdmin, deploy_admin])

end Fixture

/-- The roles of the fixtures, on the Core at 1000 with PCVGuardAdmin at 1001. -/
def deployed : State := ⟨⟨fixed 1000 5 9 16 8 17 1001, true⟩, PCVGuardAdmin.deploy⟩

/-- A guardian and a stranger try every way to a role. -/
def hostile : List Call :=
  [⟨17, .revokeOverride .minter 9⟩, ⟨17, .revokeOverride .governor 5⟩, ⟨17, .revokeOverride .pcvGuard 3⟩,
    ⟨17, .createRole .minter .guardian⟩, ⟨17, .grantRole .pcvGuardAdmin 17⟩, ⟨17, .grantPCVGuardRole 17⟩,
    ⟨17, .revokeOverride .pcvGuardAdmin 1001⟩, ⟨23, .init⟩, ⟨23, .grantGovernor 23⟩, ⟨17, .renounceRole .guardian 17⟩]

theorem guardians_cannot_escalate_hostile :
    let t := attempts (step 1000 1001) deployed hostile
    (∀ role account, t.core.hasRole role account = true → deployed.core.hasRole role account = true) ∧
    (∀ role, t.core.getRoleAdmin role = deployed.core.getRoleAdmin role) ∧
    (∀ account, deployed.core.isGovernor account = true → t.core.isGovernor account = true) ∧
    ∀ guardian role account u, step 1000 1001 t ⟨guardian, .revokeOverride role account⟩ = .ok u →
      t.core.isGuardian guardian = true ∧ role ≠ .governor ∧ t.core.getRoleAdmin role = .governor ∧
      u = t.write (t.core.revokeRoleInternal role account) :=
  guardians_cannot_escalate (setup_fixed (by decide)) rfl (by
    unfold Plain
    decide +kernel)

end VoltProtocol.GuardianPowers
