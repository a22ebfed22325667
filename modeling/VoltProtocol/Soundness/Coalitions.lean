import VoltProtocol.Soundness.ProtocolCallers

/-! # What a coalition can do to the roles

Accounts that act together can come to hold a role if one of them holds it, or if they can come to hold its admin
role. Whatever the admin roles are, and however the contracts of the protocol are called, a coalition that cannot
come to govern hands out the roles whose admin roles it can come to hold, and no others. It takes away those, its
own, and what Core and PCVGuardAdmin revoke for guardians.
-/

namespace VoltProtocol.Coalitions

open Machine Permissions ProtocolSystem ProtocolCallers

variable {A : Address → Prop} {s t : Permissions} {role : Role} {account sender : Address}

/-- Some account of a coalition holds a role, or can come to hold it. -/
inductive Gains (A : Address → Prop) (s : Permissions) : Role → Prop
  | holds {role : Role} {account : Address} (ally : A account) (held : s.members role account = true) : Gains A s role
  | granted {role : Role} (admin : Gains A s (s.admin role)) : Gains A s role

/-- A coalition can come to govern, in the end by being first to call `init`. -/
def Takeover (A : Address → Prop) (c : Core) : Prop :=
  Gains A c.toPermissions .governor ∨ (c.initialized = false ∧ ∃ account, A account)

/-- Roles that guardians have revoked for them, by Core as a governor or by PCVGuardAdmin. -/
def Overridable (core guardAdmin : Address) (s : Permissions) (role : Role) : Prop :=
  (role ≠ .governor ∧ s.members (s.admin role) core = true) ∨
    (role = .pcvGuard ∧ s.members (s.admin .pcvGuard) guardAdmin = true)

/-! ### What a call does to the roles -/

/-- What a successful call of a sender does to the roles in Core. -/
inductive Effect (core guardAdmin : Address) (c : Core) (sender : Address) : Core → Prop
  | same : Effect core guardAdmin c sender c
  | administers (role adminRole : Role) (governs : c.members .governor sender = true) :
      Effect core guardAdmin c sender { c with toPermissions := c.setRoleAdmin role adminRole }
  | grants (role : Role) (account : Address) (held : c.members (c.admin role) sender = true) :
      Effect core guardAdmin c sender { c with toPermissions := c.grantRoleInternal role account }
  | appoints (account : Address) (governs : c.members .governor sender = true) :
      Effect core guardAdmin c sender { c with toPermissions := c.grantRoleInternal .pcvGuard account }
  | revokes (role : Role) (account : Address) (held : c.members (c.admin role) sender = true) :
      Effect core guardAdmin c sender { c with toPermissions := c.revokeRoleInternal role account }
  | renounces (role : Role) :
      Effect core guardAdmin c sender { c with toPermissions := c.revokeRoleInternal role sender }
  | overrides (role : Role) (account : Address) (guards : c.members .guardian sender = true)
      (other : role ≠ .governor) (held : c.members (c.admin role) core = true) :
      Effect core guardAdmin c sender { c with toPermissions := c.revokeRoleInternal role account }
  | dismisses (account : Address) (guards : c.members .governor sender = true ∨ c.members .guardian sender = true)
      (held : c.members (c.admin .pcvGuard) guardAdmin = true) :
      Effect core guardAdmin c sender { c with toPermissions := c.revokeRoleInternal .pcvGuard account }
  | init (fresh : c.initialized = false) : Effect core guardAdmin c sender ⟨c.setupGovernor sender, true⟩

theorem effect_of_step {core guardAdmin : Address} {s t : GuardianPowers.State} {call : GuardianPowers.Call}
    (stepped : GuardianPowers.step core guardAdmin s call = .ok t) :
    Effect core guardAdmin s.core call.sender t.core := by
  obtain ⟨sender, function⟩ := call
  have granted {role : Role} {account : Address} {q : Permissions} (success : s.core.grantRole sender role account = .ok q) :
      Effect core guardAdmin s.core sender { s.core with toPermissions := q } := by
    simp only [grantRole, checkRole, require_bind_eq_ok, pure_eq_ok] at success
    obtain ⟨held, rfl⟩ := success
    exact .grants role account held
  have revoked {role : Role} {account : Address} {q : Permissions} (success : s.core.revokeRole sender role account = .ok q) :
      Effect core guardAdmin s.core sender { s.core with toPermissions := q } := by
    simp only [revokeRole, checkRole, require_bind_eq_ok, pure_eq_ok] at success
    obtain ⟨held, rfl⟩ := success
    exact .revokes role account held
  cases function with
  | createRole role adminRole =>
    obtain ⟨q, success, rfl⟩ := map_eq_ok.mp stepped
    simp only [createRole, Permissions.onlyGovernor, require_bind_eq_ok, pure_eq_ok] at success
    obtain ⟨governs, rfl⟩ := success
    exact .administers role adminRole governs
  | grantMinter | grantBurner | grantPCVController | grantGovernor | grantGuardian =>
    obtain ⟨q, success, rfl⟩ := map_eq_ok.mp stepped
    exact granted (require_bind_eq_ok.mp success).2
  | revokeMinter | revokeBurner | revokePCVController | revokeGovernor | revokeGuardian =>
    obtain ⟨q, success, rfl⟩ := map_eq_ok.mp stepped
    exact revoked (require_bind_eq_ok.mp success).2
  | revokeOverride role account =>
    obtain ⟨q, success, rfl⟩ := map_eq_ok.mp stepped
    simp only [revokeOverride, onlyGuardian, revokeRole, checkRole, require_bind_eq_ok, pure_eq_ok] at success
    obtain ⟨guards, other, held, rfl⟩ := success
    exact .overrides role account guards other held
  | grantRole role account =>
    obtain ⟨q, success, rfl⟩ := map_eq_ok.mp stepped
    exact granted success
  | revokeRole role account =>
    obtain ⟨q, success, rfl⟩ := map_eq_ok.mp stepped
    exact revoked success
  | renounceRole role account =>
    obtain ⟨q, success, rfl⟩ := map_eq_ok.mp stepped
    simp only [renounceRole, require_bind_eq_ok, pure_eq_ok] at success
    obtain ⟨rfl, rfl⟩ := success
    exact .renounces role
  | init =>
    obtain ⟨c, success, rfl⟩ := map_eq_ok.mp stepped
    simp only [Core.init, require_bind_eq_ok, pure_eq_ok, Bool.not_eq_true'] at success
    obtain ⟨fresh, rfl⟩ := success
    exact .init fresh
  | grantPCVGuardRole newGuard =>
    obtain ⟨q, success, rfl⟩ := map_eq_ok.mp stepped
    simp only [PCVGuardAdmin.grantPCVGuardRole, Context.onlyGovernor, grantRole, checkRole, require_bind_eq_ok,
      pure_eq_ok] at success
    obtain ⟨governs, -, rfl⟩ := success
    exact .appoints newGuard governs
  | revokePCVGuardRole oldGuard =>
    obtain ⟨q, success, rfl⟩ := map_eq_ok.mp stepped
    simp only [PCVGuardAdmin.revokePCVGuardRole, Context.onlyGuardianOrGovernor, revokeRole, checkRole,
      require_bind_eq_ok, pure_eq_ok, Bool.or_eq_true] at success
    obtain ⟨guards, held, rfl⟩ := success
    exact .dismisses oldGuard guards held
  | pause | unpause | setContractAdminRole =>
    obtain ⟨c, -, rfl⟩ := map_eq_ok.mp stepped
    exact .same

/-! ### What a coalition cannot do -/

/-- Nobody holds more than at the start, but for what the coalition can hand out; the admin roles are the same. -/
structure Contained (A : Address → Prop) (start c : Core) : Prop where
  members : ∀ role account, c.members role account = true →
    start.members role account = true ∨ Gains A start.toPermissions (start.admin role)
  admin : c.admin = start.admin
  initialized : c.initialized = start.initialized

namespace Contained

variable {start c after : Core} {core guardAdmin : Address}

theorem refl (c : Core) : Contained A c c := ⟨fun _ _ => .inl, rfl, rfl⟩

/-- What an ally holds, the coalition could come to hold at the start. -/
theorem gains (contained : Contained A start c) (ally : A sender) (held : c.members role sender = true) :
    Gains A start.toPermissions role := by
  obtain already | admin := contained.members role sender held
  · exact .holds ally already
  · exact .granted admin

theorem not_governor (contained : Contained A start c) (peaceful : ¬ Takeover A start) (ally : A sender) :
    c.members .governor sender ≠ true :=
  fun governs => peaceful (.inl (contained.gains ally governs))

theorem grant (contained : Contained A start c) (ally : A sender) (held : c.members (c.admin role) sender = true)
    (account : Address) : Contained A start { c with toPermissions := c.grantRoleInternal role account } := by
  refine ⟨?_, (grantRoleInternal_admin ..).trans contained.admin, contained.initialized⟩
  intro other member here
  rw [grantRoleInternal_members] at here
  split_ifs at here with granted
  · rw [granted.1]
    rw [contained.admin] at held
    exact .inr (contained.gains ally held)
  · exact contained.members other member here

theorem revoke (contained : Contained A start c) (role : Role) (account : Address) :
    Contained A start { c with toPermissions := c.revokeRoleInternal role account } := by
  refine ⟨?_, (revokeRoleInternal_admin ..).trans contained.admin, contained.initialized⟩
  intro other member here
  rw [revokeRoleInternal_members] at here
  split_ifs at here
  exact contained.members other member here

/-- Calls by a coalition that cannot come to govern keep to what it can hand out. -/
theorem effect (contained : Contained A start c) (peaceful : ¬ Takeover A start) (ally : A sender)
    (effect : Effect core guardAdmin c sender after) : Contained A start after := by
  cases effect with
  | same => exact contained
  | administers role adminRole governs => exact absurd governs (contained.not_governor peaceful ally)
  | grants role account held => exact contained.grant ally held account
  | appoints account governs => exact absurd governs (contained.not_governor peaceful ally)
  | revokes role account => exact contained.revoke role account
  | renounces role => exact contained.revoke role sender
  | overrides role account => exact contained.revoke role account
  | dismisses account => exact contained.revoke .pcvGuard account
  | init fresh => exact absurd (.inr ⟨contained.initialized.symm.trans fresh, sender, ally⟩) peaceful

/-- And they take away only what the coalition may. -/
theorem effect_keeps (contained : Contained A start c) (peaceful : ¬ Takeover A start) (ally : A sender)
    (effect : Effect core guardAdmin c sender after) (held : c.members role account = true) (foreign : ¬ A account)
    (unruled : ¬ Gains A start.toPermissions (start.admin role))
    (unguarded : ¬ (Gains A start.toPermissions .guardian ∧ Overridable core guardAdmin start.toPermissions role)) :
    after.members role account = true := by
  have kept {other : Role} {member : Address} (elsewhere : ¬ (role = other ∧ account = member)) :
      (c.revokeRoleInternal other member).members role account = true := by
    rw [revokeRoleInternal_members, if_neg elsewhere]
    exact held
  have settled {holder : Address} (overrides : c.members (c.admin role) holder = true) :
      start.members (start.admin role) holder = true := by
    rw [contained.admin] at overrides
    exact (contained.members _ _ overrides).resolve_right fun gains => unruled (.granted gains)
  cases effect with
  | same => exact held
  | administers role adminRole governs => exact absurd governs (contained.not_governor peaceful ally)
  | grants other member | appoints member =>
    rw [grantRoleInternal_members, held, ite_self]
  | revokes other member admin =>
    apply kept
    rintro ⟨rfl, -⟩
    rw [contained.admin] at admin
    exact unruled (contained.gains ally admin)
  | renounces other =>
    apply kept
    rintro ⟨-, rfl⟩
    exact foreign ally
  | overrides other member guards ordinary admin =>
    apply kept
    rintro ⟨rfl, -⟩
    exact unguarded ⟨contained.gains ally guards, .inl ⟨ordinary, settled admin⟩⟩
  | dismisses member guards admin =>
    apply kept
    rintro ⟨rfl, -⟩
    obtain governs | guards := guards
    · exact contained.not_governor peaceful ally governs
    · exact unguarded ⟨contained.gains ally guards, .inr ⟨rfl, settled admin⟩⟩
  | init fresh => exact absurd (.inr ⟨contained.initialized.symm.trans fresh, sender, ally⟩) peaceful

end Contained

/-! ### In the protocol -/

section Protocol

variable {τ κ : Type} {d : Deployment} {e : Externals τ κ} {depth : ℕ} {p q : Protocol τ}

/-- One transaction of the protocol changes the roles as its sender may, or not at all. -/
theorem effect_of_changes {call : Call κ} (sent : SentBy A call) (changes : Changes d e depth p call q) :
    q.roles.core = p.roles.core ∨ ∃ sender, A sender ∧ Effect d.core d.guardAdmin p.roles.core sender q.roles.core := by
  cases changes with
  | roles call roles called => exact .inr ⟨call.sender, sent call.sender rfl, effect_of_step called⟩
  | _ => exact .inl rfl

theorem contained_of_leads (peaceful : ¬ Takeover A p.roles.core) (leads : LeadsTo (step d e depth) (SentBy A) p q) :
    Contained A p.roles.core q.roles.core := by
  refine leads.invariant (fun q => Contained A p.roles.core q.roles.core) ?_ (.refl _)
  intro state call next sent contained stepped
  obtain same | ⟨sender, ally, effect⟩ := effect_of_changes sent (changes_of_step stepped)
  · rw [same]
    exact contained
  · exact contained.effect peaceful ally effect

theorem keeps_of_leads (peaceful : ¬ Takeover A p.roles.core) (leads : LeadsTo (step d e depth) (SentBy A) p q)
    (held : p.roles.core.members role account = true) (foreign : ¬ A account)
    (unruled : ¬ Gains A p.roles.core.toPermissions (p.roles.core.admin role))
    (unguarded : ¬ (Gains A p.roles.core.toPermissions .guardian ∧
      Overridable d.core d.guardAdmin p.roles.core.toPermissions role)) :
    q.roles.core.members role account = true := by
  have kept : Contained A p.roles.core q.roles.core ∧ q.roles.core.members role account = true := by
    refine leads.invariant (fun q => Contained A p.roles.core q.roles.core ∧
      q.roles.core.members role account = true) ?_ ⟨.refl _, held⟩
    rintro state call next sent ⟨contained, here⟩ stepped
    obtain same | ⟨sender, ally, effect⟩ := effect_of_changes sent (changes_of_step stepped)
    · rw [same]
      exact ⟨contained, here⟩
    · exact ⟨contained.effect peaceful ally effect,
        contained.effect_keeps peaceful ally effect here foreign unruled unguarded⟩
  exact kept.2

/-! ### What it can do -/

/-- Another call of Core or PCVGuardAdmin by an ally. -/
theorem leads_roles {roles : GuardianPowers.State} (leads : LeadsTo (step d e depth) (SentBy A) p q) (ally : A sender)
    (function : GuardianPowers.Function)
    (called : GuardianPowers.step d.core d.guardAdmin q.roles ⟨sender, function⟩ = .ok roles) :
    LeadsTo (step d e depth) (SentBy A) p { q with roles } := by
  refine leads.tail (.roles ⟨sender, function⟩) ?_ (map_eq_ok.mpr ⟨roles, called, rfl⟩)
  intro account sent
  exact Option.some.inj sent ▸ ally

/-- An ally that holds the admin role of a role grants it. -/
theorem leads_grant (leads : LeadsTo (step d e depth) (SentBy A) p q) (ally : A sender)
    (held : q.roles.core.members (q.roles.core.admin role) sender = true) (account : Address) :
    LeadsTo (step d e depth) (SentBy A) p
      { q with roles := q.roles.write (q.roles.core.grantRoleInternal role account) } := by
  refine leads_roles leads ally (.grantRole role account) (map_eq_ok.mpr ⟨_, ?_, rfl⟩)
  rw [grantRole, checkRole, require_bind_eq_ok]
  exact ⟨held, rfl⟩

theorem leads_revoke (leads : LeadsTo (step d e depth) (SentBy A) p q) (ally : A sender)
    (held : q.roles.core.members (q.roles.core.admin role) sender = true) (account : Address) :
    LeadsTo (step d e depth) (SentBy A) p
      { q with roles := q.roles.write (q.roles.core.revokeRoleInternal role account) } := by
  refine leads_roles leads ally (.revokeRole role account) (map_eq_ok.mpr ⟨_, ?_, rfl⟩)
  rw [revokeRole, checkRole, require_bind_eq_ok]
  exact ⟨held, rfl⟩

/-- Nothing was taken away, and the admin roles are the same. -/
structure Extends (s t : Permissions) : Prop where
  members : ∀ role account, s.members role account = true → t.members role account = true
  admin : t.admin = s.admin

theorem Extends.grant (s : Permissions) (role : Role) (account : Address) :
    Extends s (s.grantRoleInternal role account) where
  members other member held := by rw [grantRoleInternal_members, held, ite_self]
  admin := grantRoleInternal_admin ..

theorem Extends.trans {s t u : Permissions} (first : Extends s t) (second : Extends t u) : Extends s u :=
  ⟨fun role account held => second.members role account (first.members role account held),
    second.admin.trans first.admin⟩

/-- A coalition comes to hold a role by granting itself the admin roles on the way. -/
theorem leads_of_gains (gains : Gains A p.roles.core.toPermissions role) : ∃ q account,
    LeadsTo (step d e depth) (SentBy A) p q ∧ A account ∧ q.roles.core.members role account = true ∧
      Extends p.roles.core.toPermissions q.roles.core.toPermissions := by
  generalize same : p.roles.core.toPermissions = start at gains
  induction gains with
  | holds ally held =>
    subst same
    exact ⟨p, _, .refl p, ally, held, fun _ _ => id, rfl⟩
  | @granted role _ ih =>
    obtain ⟨q, account, leads, ally, held, grows⟩ := ih
    rw [← grows.admin] at held
    refine ⟨_, account, leads_grant leads ally held account, ally, ?_, grows.trans (.grant _ role account)⟩
    exact (grantRoleInternal_members ..).trans (if_pos ⟨rfl, rfl⟩)

/-- A coalition that takes over has an ally who governs, and may make any role one that governors administer. -/
theorem leads_of_takeover (takeover : Takeover A p.roles.core) (role : Role) : ∃ q account,
    LeadsTo (step d e depth) (SentBy A) p q ∧ A account ∧
      q.roles.core.members (q.roles.core.admin role) account = true := by
  obtain ⟨q, account, leads, ally, governs⟩ : ∃ q account, LeadsTo (step d e depth) (SentBy A) p q ∧ A account ∧
      q.roles.core.members .governor account = true := by
    obtain gains | ⟨fresh, account, ally⟩ := takeover
    · obtain ⟨q, account, leads, ally, governs, -⟩ := leads_of_gains gains
      exact ⟨q, account, leads, ally, governs⟩
    · have initialized : p.roles.core.init account = .ok ⟨p.roles.core.setupGovernor account, true⟩ := by
        simp only [Core.init, require_bind_eq_ok, pure_eq_ok, fresh, Bool.not_false, true_and]
      refine ⟨_, account, leads_roles (.refl p) ally .init (map_eq_ok.mpr ⟨_, initialized, rfl⟩), ally, ?_⟩
      exact (grantRoleInternal_members ..).trans (if_pos ⟨rfl, rfl⟩)
  have created : q.roles.core.createRole account role .governor = .ok (q.roles.core.setRoleAdmin role .governor) := by
    rw [createRole, Permissions.onlyGovernor, require_bind_eq_ok]
    exact ⟨governs, rfl⟩
  refine ⟨_, account, leads_roles leads ally (.createRole role .governor) (map_eq_ok.mpr ⟨_, created, rfl⟩), ally, ?_⟩
  exact (congrArg (q.roles.core.members · account) (Function.update_self ..)).trans governs

/-- Accounts that act together, calling any contract of the protocol in any order, can give a role to an account
exactly when it has the role, when one of them can come to hold the admin role, or when they can come to govern. -/
theorem obtainable_iff (A : Address → Prop) (d : Deployment) (e : Externals τ κ) (depth : ℕ) (p : Protocol τ)
    (role : Role) (account : Address) :
    (∃ q, LeadsTo (step d e depth) (SentBy A) p q ∧ q.roles.core.hasRole role account = true) ↔
      p.roles.core.hasRole role account = true ∨
        Gains A p.roles.core.toPermissions (p.roles.core.getRoleAdmin role) ∨ Takeover A p.roles.core := by
  constructor
  · rintro ⟨q, leads, held⟩
    by_cases takeover : Takeover A p.roles.core
    · exact .inr (.inr takeover)
    · exact ((contained_of_leads takeover leads).members role account held).imp_right .inl
  · have granted (q : Protocol τ) : (q.roles.core.grantRoleInternal role account).members role account = true :=
      (grantRoleInternal_members ..).trans (if_pos ⟨rfl, rfl⟩)
    rintro (held | gains | takeover)
    · exact ⟨p, .refl p, held⟩
    · obtain ⟨q, sender, leads, ally, admin, grows⟩ := leads_of_gains gains
      rw [getRoleAdmin, ← grows.admin] at admin
      exact ⟨_, leads_grant leads ally admin account, granted q⟩
    · obtain ⟨q, sender, leads, ally, admin⟩ := leads_of_takeover takeover role
      exact ⟨_, leads_grant leads ally admin account, granted q⟩

/-- They can take it away exactly when the account does not have it or is one of them, when one of them can come to
hold the admin role, when they can come to govern, or when one of them can come to be a guardian and Core or
PCVGuardAdmin may revoke the role. -/
theorem removable_iff (A : Address → Prop) (d : Deployment) (e : Externals τ κ) (depth : ℕ) (p : Protocol τ)
    (role : Role) (account : Address) :
    (∃ q, LeadsTo (step d e depth) (SentBy A) p q ∧ q.roles.core.hasRole role account = false) ↔
      p.roles.core.hasRole role account = false ∨ A account ∨
        Gains A p.roles.core.toPermissions (p.roles.core.getRoleAdmin role) ∨ Takeover A p.roles.core ∨
        (Gains A p.roles.core.toPermissions .guardian ∧
          Overridable d.core d.guardAdmin p.roles.core.toPermissions role) := by
  constructor
  · rintro ⟨q, leads, lost⟩
    by_contra! unable
    obtain ⟨held, foreign, unruled, peaceful, unguarded⟩ := unable
    have kept := keeps_of_leads peaceful leads ((Bool.not_eq_false _).mp held) foreign unruled (not_and.mpr unguarded)
    exact Bool.false_ne_true (lost.symm.trans kept)
  · have revoked (q : Protocol τ) : (q.roles.core.revokeRoleInternal role account).members role account = false :=
      (revokeRoleInternal_members ..).trans (if_pos ⟨rfl, rfl⟩)
    rintro (lost | ally | gains | takeover | ⟨gains, overridable⟩)
    · exact ⟨p, .refl p, lost⟩
    · refine ⟨_, leads_roles (.refl p) ally (.renounceRole role account) (map_eq_ok.mpr ⟨_, ?_, rfl⟩), revoked p⟩
      rw [renounceRole, require_bind_eq_ok]
      exact ⟨rfl, rfl⟩
    · obtain ⟨q, sender, leads, ally, admin, grows⟩ := leads_of_gains gains
      rw [getRoleAdmin, ← grows.admin] at admin
      exact ⟨_, leads_revoke leads ally admin account, revoked q⟩
    · obtain ⟨q, sender, leads, ally, admin⟩ := leads_of_takeover takeover role
      exact ⟨_, leads_revoke leads ally admin account, revoked q⟩
    · obtain ⟨q, sender, leads, ally, guards, grows⟩ := leads_of_gains gains
      obtain ⟨ordinary, core⟩ | ⟨rfl, guardAdmin⟩ := overridable
      · refine ⟨_, leads_roles leads ally (.revokeOverride role account) (map_eq_ok.mpr ⟨_, ?_, rfl⟩), revoked q⟩
        rw [revokeOverride, onlyGuardian, require_bind_eq_ok, require_bind_eq_ok, revokeRole, checkRole,
          require_bind_eq_ok, hasRole, getRoleAdmin, grows.admin]
        exact ⟨guards, ordinary, grows.members _ _ core, rfl⟩
      · refine ⟨_, leads_roles leads ally (.revokePCVGuardRole account) (map_eq_ok.mpr ⟨_, ?_, rfl⟩), revoked q⟩
        rw [PCVGuardAdmin.revokePCVGuardRole, Context.onlyGuardianOrGovernor, require_bind_eq_ok, revokeRole, checkRole,
          require_bind_eq_ok, hasRole, getRoleAdmin, grows.admin]
        exact ⟨Bool.or_eq_true_iff.mpr (.inr guards), grows.members _ _ guardAdmin, rfl⟩

end Protocol

end VoltProtocol.Coalitions
