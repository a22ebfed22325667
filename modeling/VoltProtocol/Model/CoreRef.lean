import VoltProtocol.Model.Solidity

/-! # Roles and the modifiers of CoreRef

Every contract of the system asks Core which roles an account has. A call is made in a `Context`
that holds its sender and the answers Core gives while it runs, so nothing is assumed about how
roles change between calls. `CoreRef` is the storage this contract adds to every contract that
inherits it, and its modifiers are checks on that storage and the context.
-/

namespace VoltProtocol

/-- The roles named in Core and `TribeRoles`; any other role is one of `other`. -/
inductive Role where
  | governor
  | guardian
  | pcvController
  | minter
  | burner
  | pcvGuard
  | pcvGuardAdmin
  | psmAdmin
  | other (id : ℕ)
deriving DecidableEq, Repr

/-- The sender of a call and the answers of Core during it. -/
structure Context where
  sender : Address
  hasRole : Role → Address → Bool

namespace Context

/-- A context in which the sender is the only account with roles. -/
def withRoles (sender : Address) (roles : List Role) : Context where
  sender
  hasRole role account := decide (account = sender ∧ role ∈ roles)

def isGovernor (ctx : Context) (account : Address) : Bool := ctx.hasRole .governor account
def isGuardian (ctx : Context) (account : Address) : Bool := ctx.hasRole .guardian account
def isMinter (ctx : Context) (account : Address) : Bool := ctx.hasRole .minter account
def isPCVController (ctx : Context) (account : Address) : Bool := ctx.hasRole .pcvController account

def onlyGovernor (ctx : Context) : Except Revert Unit :=
  require (ctx.isGovernor ctx.sender) "CoreRef: Caller is not a governor"

def onlyPCVController (ctx : Context) : Except Revert Unit :=
  require (ctx.isPCVController ctx.sender) "CoreRef: Caller is not a PCV controller"

def onlyMinter (ctx : Context) : Except Revert Unit :=
  require (ctx.isMinter ctx.sender) "CoreRef: Caller is not a minter"

def onlyGuardianOrGovernor (ctx : Context) : Except Revert Unit :=
  require (ctx.isGovernor ctx.sender || ctx.isGuardian ctx.sender)
    "CoreRef: Caller is not a guardian or governor"

def hasAnyOfTwoRoles (ctx : Context) (role1 role2 : Role) : Except Revert Unit :=
  require (ctx.hasRole role1 ctx.sender || ctx.hasRole role2 ctx.sender) "UNAUTHORIZED"

def hasAnyOfThreeRoles (ctx : Context) (role1 role2 role3 : Role) : Except Revert Unit :=
  require (ctx.hasRole role1 ctx.sender || ctx.hasRole role2 ctx.sender ||
    ctx.hasRole role3 ctx.sender) "UNAUTHORIZED"

end Context

/-- The storage of CoreRef, with the pause flag it inherits from Pausable. -/
structure CoreRef where
  CONTRACT_ADMIN_ROLE : Role
  paused : Bool
deriving DecidableEq, Repr

namespace CoreRef

def isContractAdmin (c : CoreRef) (ctx : Context) (admin : Address) : Bool :=
  ctx.hasRole c.CONTRACT_ADMIN_ROLE admin

def onlyGovernorOrAdmin (c : CoreRef) (ctx : Context) : Except Revert Unit :=
  require (ctx.isGovernor ctx.sender || c.isContractAdmin ctx ctx.sender)
    "CoreRef: Caller is not a governor or contract admin"

def onlyGovernorOrGuardianOrAdmin (c : CoreRef) (ctx : Context) : Except Revert Unit :=
  require (ctx.isGovernor ctx.sender || ctx.isGuardian ctx.sender ||
    c.isContractAdmin ctx ctx.sender) "CoreRef: Caller is not governor or guardian or admin"

def whenNotPaused (c : CoreRef) : Except Revert Unit :=
  require (!c.paused) "Pausable: paused"

/-- `_pause` of Pausable, behind the modifier of CoreRef. -/
def pause (c : CoreRef) (ctx : Context) : Except Revert CoreRef := do
  ctx.onlyGuardianOrGovernor
  c.whenNotPaused
  return { c with paused := true }

def unpause (c : CoreRef) (ctx : Context) : Except Revert CoreRef := do
  ctx.onlyGuardianOrGovernor
  require c.paused "Pausable: not paused"
  return { c with paused := false }

def setContractAdminRole (c : CoreRef) (ctx : Context) (newContractAdminRole : Role) :
    Except Revert CoreRef := do
  ctx.onlyGovernor
  return { c with CONTRACT_ADMIN_ROLE := newContractAdminRole }

end CoreRef

end VoltProtocol
