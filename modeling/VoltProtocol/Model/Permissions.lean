import VoltProtocol.Model.CoreRef

/-! # Permissions, Core and PCVGuardAdmin

Core keeps the roles of the system in an AccessControl of OpenZeppelin: who holds a role, and which
role grants and revokes it. Permissions adds a function for each built-in role, and lets guardians
revoke through a call of Core to itself. PCVGuardAdmin holds a role of its own to manage PCV guards.
-/

namespace VoltProtocol

/-- The storage of AccessControl, to which Permissions adds none. -/
structure Permissions where
  members : Role → Address → Bool
  admin : Role → Role

namespace Permissions

/-- `DEFAULT_ADMIN_ROLE`, zero, the admin of every role that was not given one. -/
def DEFAULT_ADMIN_ROLE : Role := .other 0

variable (p : Permissions)

/-! ### AccessControl -/

def hasRole (role : Role) (account : Address) : Bool := p.members role account

def getRoleAdmin (role : Role) : Role := p.admin role

/-- `_checkRole`; its message goes on to print the account and the role. -/
def checkRole (role : Role) (account : Address) : Except Revert Unit :=
  require (p.hasRole role account) "AccessControl: account is missing role"

/-- `_setRoleAdmin` -/
def setRoleAdmin (role adminRole : Role) : Permissions :=
  { p with admin := Function.update p.admin role adminRole }

/-- Set whether an account holds a role. -/
def setMember (role : Role) (account : Address) (member : Bool) : Permissions :=
  { p with members := Function.update p.members role (Function.update (p.members role) account member) }

/-- `_grantRole`, also called as `_setupRole`. -/
def grantRoleInternal (role : Role) (account : Address) : Permissions :=
  if !p.hasRole role account then p.setMember role account true else p

/-- `_revokeRole` -/
def revokeRoleInternal (role : Role) (account : Address) : Permissions :=
  if p.hasRole role account then p.setMember role account false else p

def grantRole (sender : Address) (role : Role) (account : Address) : Except Revert Permissions := do
  p.checkRole (p.getRoleAdmin role) sender
  return p.grantRoleInternal role account

def revokeRole (sender : Address) (role : Role) (account : Address) : Except Revert Permissions := do
  p.checkRole (p.getRoleAdmin role) sender
  return p.revokeRoleInternal role account

def renounceRole (sender : Address) (role : Role) (account : Address) : Except Revert Permissions := do
  require (account = sender) "AccessControl: can only renounce roles for self"
  return p.revokeRoleInternal role account

/-! ### Permissions -/

def isGovernor (account : Address) : Bool := p.hasRole .governor account
def isGuardian (account : Address) : Bool := p.hasRole .guardian account

/-- `_setupGovernor` -/
def setupGovernor (governor : Address) : Permissions := p.grantRoleInternal .governor governor

/-- The constructor of Permissions, of the contract at `self`. -/
def deploy (self : Address) : Permissions :=
  let blank : Permissions := ⟨fun _ _ => false, fun _ => DEFAULT_ADMIN_ROLE⟩
  let governed := blank.setupGovernor self
  let minter := governed.setRoleAdmin .minter .governor
  let burner := minter.setRoleAdmin .burner .governor
  let pcvController := burner.setRoleAdmin .pcvController .governor
  let governor := pcvController.setRoleAdmin .governor .governor
  governor.setRoleAdmin .guardian .governor

def onlyGovernor (sender : Address) : Except Revert Unit :=
  require (p.isGovernor sender) "Permissions: Caller is not a governor"

def onlyGuardian (sender : Address) : Except Revert Unit :=
  require (p.isGuardian sender) "Permissions: Caller is not a guardian"

def createRole (sender : Address) (role adminRole : Role) : Except Revert Permissions := do
  p.onlyGovernor sender
  return p.setRoleAdmin role adminRole

/-- A grant by a governor, who must also pass the check of AccessControl. -/
def grantByGovernor (role : Role) (sender account : Address) : Except Revert Permissions := do
  p.onlyGovernor sender
  p.grantRole sender role account

/-- A revocation by a governor, who must also pass the check of AccessControl. -/
def revokeByGovernor (role : Role) (sender account : Address) : Except Revert Permissions := do
  p.onlyGovernor sender
  p.revokeRole sender role account

def grantMinter := p.grantByGovernor .minter
def grantBurner := p.grantByGovernor .burner
def grantPCVController := p.grantByGovernor .pcvController
def grantGovernor := p.grantByGovernor .governor
def grantGuardian := p.grantByGovernor .guardian
def revokeMinter := p.revokeByGovernor .minter
def revokeBurner := p.revokeByGovernor .burner
def revokePCVController := p.revokeByGovernor .pcvController
def revokeGovernor := p.revokeByGovernor .governor
def revokeGuardian := p.revokeByGovernor .guardian

/-- Core, at `self`, calls itself as a governor. -/
def revokeOverride (self sender : Address) (role : Role) (account : Address) : Except Revert Permissions := do
  p.onlyGuardian sender
  require (role ≠ .governor) "Permissions: Guardian cannot revoke governor"
  p.revokeRole self role account

/-- What a contract that asks Core sees during a call. -/
def context (sender : Address) : Context := ⟨sender, p.hasRole⟩

/-! ### What a grant and a revocation write -/

section Specs

variable (role r : Role) (account a : Address)

@[simp] theorem setMember_members (member : Bool) : (p.setMember role account member).members r a =
    if r = role ∧ a = account then member else p.members r a := by
  simp only [setMember, Function.update_apply]
  by_cases same : r = role
  · subst same
    simp [Function.update_apply]
  · simp [same]

/-- A grant adds one member to one role. -/
@[simp] theorem grantRoleInternal_members : (p.grantRoleInternal role account).members r a =
    if r = role ∧ a = account then true else p.members r a := by
  rw [grantRoleInternal]
  split_ifs with held here here
  · rw [setMember_members, if_pos here]
  · rw [setMember_members, if_neg here]
  · rw [here.1, here.2]
    simpa [hasRole] using held
  · rfl

@[simp] theorem grantRoleInternal_admin : (p.grantRoleInternal role account).admin = p.admin := by
  rw [grantRoleInternal]
  split_ifs <;> rfl

/-- A revocation takes one member from one role. -/
@[simp] theorem revokeRoleInternal_members : (p.revokeRoleInternal role account).members r a =
    if r = role ∧ a = account then false else p.members r a := by
  rw [revokeRoleInternal]
  split_ifs with held here here
  · rw [setMember_members, if_pos here]
  · rw [setMember_members, if_neg here]
  · rw [here.1, here.2]
    exact Bool.eq_false_iff.mpr held
  · rfl

@[simp] theorem revokeRoleInternal_admin : (p.revokeRoleInternal role account).admin = p.admin := by
  rw [revokeRoleInternal]
  split_ifs <;> rfl

end Specs

end Permissions

/-- Core. -/
structure Core extends Permissions where
  initialized : Bool

namespace Core

def deploy (self : Address) : Core := ⟨Permissions.deploy self, false⟩

/-- `init`, which also deploys VOLT. -/
def init (c : Core) (sender : Address) : Except Revert Core := do
  require (!c.initialized) "Initializable: contract is already initialized"
  return ⟨c.toPermissions.setupGovernor sender, true⟩

end Core

/-- The constructor of L2Core, which has no `init`, as a Core on which it was called. -/
def L2Core.deploy (self sender : Address) : Core := ⟨(Permissions.deploy self).setupGovernor sender, true⟩

/-! ### PCVGuardAdmin -/

namespace PCVGuardAdmin

variable (p : Permissions) (self : Address)

/-- The constructor of CoreRef. -/
def deploy : CoreRef := ⟨.governor, false⟩

def grantPCVGuardRole (sender newGuard : Address) : Except Revert Permissions := do
  (p.context sender).onlyGovernor
  p.grantRole self .pcvGuard newGuard

def revokePCVGuardRole (sender oldGuard : Address) : Except Revert Permissions := do
  (p.context sender).onlyGuardianOrGovernor
  p.revokeRole self .pcvGuard oldGuard

end PCVGuardAdmin

end VoltProtocol
