import VoltProtocol.Soundness.MintLimit
import VoltProtocol.Soundness.ProtocolCallers
import VoltProtocol.Soundness.ProtocolViews

/-! # How fast the supply of VOLT can grow

VOLT is minted by accounts with MINTER_ROLE, and among the contracts only PSMs mint, each through its own
rate limiter. The levels of all their buffers together, less the maximum rate of each for the time since the start of
a run, are a potential for the whole protocol: every VOLT is paid out of it, was there when its PSM was deployed,
or was minted by an account. A minter that is no PSM has no buffer and adds nothing to it.
-/

namespace VoltProtocol.SupplyGrowth

open Machine ProtocolSystem ProtocolBooks ProtocolViews ProtocolCallers PegStabilityModule TokenBucket

variable {τ κ : Type} {d : Deployment} {e : Externals τ κ} {held : τ → Address → Address → ℕ} {supply : τ → ℕ}
  {depth : ℕ} {p q : Protocol τ} {call : Call κ} {modules : Finset Address} {a : Address}

/-- The level of the buffer of a contract, zero if it is no PSM. -/
def levelOf (now : ℕ) : Option PCVContract → ℕ
  | some (.psm psm) => psm.level now
  | _ => 0

/-- The level of the buffer of the PSM at an address. -/
def room (p : Protocol τ) (a : Address) : ℕ := levelOf p.now (p.pcv a)

/-- What the buffer of a contract can still pay out, less what it earns at most since a time. -/
def share (start now : ℕ) : Option PCVContract → ℤ
  | some (.psm psm) => psm.toLazy.credit ℤ MAX_FEI_LIMIT_PER_SECOND now + MAX_FEI_LIMIT_PER_SECOND * start
  | _ => 0

/-- The shares of all modules. -/
def potential (start : ℕ) (modules : Finset Address) (p : Protocol τ) : ℤ :=
  ∑ a ∈ modules, share start p.now (p.pcv a)

/-- There is a PSM at the address. -/
def IsPSM (p : Protocol τ) (a : Address) : Prop := ∃ psm, p.pcv a = some (.psm psm)

instance decidableIsPSM (p : Protocol τ) (a : Address) : Decidable (IsPSM p a) :=
  match here : p.pcv a with
  | some (.psm psm) => .isTrue ⟨psm, here⟩
  | some (.deposit deposit) => .isFalse fun found => by cases here.symm.trans found.choose_spec
  | none => .isFalse fun found => by cases here.symm.trans found.choose_spec

/-- What a function of VOLT mints. -/
def mintedBy : VoltFunction → ℕ
  | .mint _ amount => amount
  | _ => 0

/-- The VOLT that an account mints itself, and the buffer that a new PSM starts with. -/
def granted (modules : Finset Address) (_ : Protocol τ) (call : Call κ) (q : Protocol τ) : ℤ :=
  match call with
  | .volt _ function => mintedBy function
  | .deployPSM a _ => if a ∈ modules then room q a else 0
  | _ => 0

/-- All accounts with MINTER_ROLE are in the set. -/
def Covers (modules : Finset Address) (p : Protocol τ) : Prop :=
  ∀ a, p.roles.core.hasRole .minter a = true → a ∈ modules

/-- A limiter that a view of the protocol reached keeps its bounds. -/
theorem limited_of_viewed (viewed : Viewed d e depth p) {psm : PegStabilityModule}
    (here : p.pcv a = some (.psm psm)) (w : Protocol τ) (minted : ℕ) : MintLimit.Limited ⟨p.now, psm, w, minted⟩ := by
  obtain ⟨s, ⟨there, now, -⟩, reached⟩ := viewed.psm a psm here
  obtain rfl := PCVContract.psm.inj (Option.some.inj (there.symm.trans here))
  obtain ⟨within, immutable⟩ := MintLimit.limited_of_reachable reached
  rw [now] at within
  exact ⟨within, immutable⟩

/-- The share of a PSM is its level less what it earns at most. -/
theorem share_psm (start now : ℕ) (psm : PegStabilityModule) :
    share start now (some (.psm psm)) = psm.level now - MAX_FEI_LIMIT_PER_SECOND * ((now : ℤ) - start) := by
  rw [share, Lazy.credit, RateLimited.level]
  ring

/-- Time adds to no share. -/
theorem share_wait (viewed : Viewed d e depth p) (start seconds : ℕ) (a : Address) :
    share start (p.now + seconds) (p.pcv a) ≤ share start p.now (p.pcv a) := by
  rcases here : p.pcv a with _ | ⟨psm | deposit⟩
  · exact le_rfl
  · exact add_le_add_left ((limited_of_viewed viewed here p 0).within.credit_wait seconds) _
  · exact le_rfl

/-- A transaction that changes at most one contract and takes no time changes one summand of the potential. -/
theorem potential_withPCV (start : ℕ) (modules : Finset Address) (w : Protocol τ) (a : Address) (contract : PCVContract) :
    potential start modules (w.withPCV a contract) + (if a ∈ modules then share start w.now (w.pcv a) else 0) =
      potential start modules w + if a ∈ modules then share start w.now (some contract) else 0 := by
  have changed := Ledger.sum_update (fun b => share start w.now (w.pcv b)) a (share start w.now (some contract)) modules
  have shares (b : Address) : share start w.now ((w.withPCV a contract).pcv b) =
      Function.update (fun b => share start w.now (w.pcv b)) a (share start w.now (some contract)) b := by
    by_cases same : b = a
    · subst same
      rw [Function.update_self, withPCV_pcv]
    · rw [Function.update_of_ne same, withPCV_pcv_of_ne same]
  rw [potential, potential]
  exact (congrArg (· + _) (Finset.sum_congr rfl fun b _ => shares b)).trans changed

/-- A contract that is no PSM has no share. -/
theorem potential_of_other {start : ℕ} {w : Protocol τ} {contract : PCVContract}
    (before : share start w.now (w.pcv a) = 0) (after : share start w.now (some contract) = 0) :
    potential start modules (w.withPCV a contract) = potential start modules w := by
  have changed := potential_withPCV start modules w a contract
  rw [before, after] at changed
  simpa only [ite_self, add_zero] using changed

/-- A call of a function of VOLT mints what it says, and no other function raises the supply. -/
theorem supply_of_volt (exact : Exact d.volt e held supply) {ctx : Context} {now : ℕ} {volt after : Volt τ}
    {function : VoltFunction} (called : voltStep e ctx now volt function = .ok after) :
    supply after.token ≤ supply volt.token + mintedBy function := by
  cases function with
  | mint account amount =>
    obtain ⟨_, -, called⟩ := bind_eq_ok.mp called
    obtain ⟨_, -, called⟩ := bind_eq_ok.mp called
    obtain ⟨token, minted, written⟩ := bind_eq_ok.mp called
    obtain rfl := pure_eq_ok.mp written
    exact (exact.mint minted).2.le
  | burn amount =>
    obtain ⟨token, burnt, written⟩ := bind_eq_ok.mp called
    obtain rfl := pure_eq_ok.mp written
    have less := (exact.burn burnt).2
    change supply token ≤ _
    omega
  | permit owner spender value deadline v r s =>
    simp only [voltStep, Volt.permit, bind_eq_ok, pure_eq_ok] at called
    obtain ⟨_, -, _, -, _, -, token, approved, rfl⟩ := called
    exact (exact.approve approved).2.le
  | pause | unpause | setContractAdminRole =>
    obtain ⟨c, -, rfl⟩ := map_eq_ok.mp called
    exact le_rfl

/-- A call of a PSM raises the supply by what it minted, which is nothing without MINTER_ROLE. -/
theorem supply_of_psm (exact : Exact d.volt e held supply) {psm : PegStabilityModule} {ctx : Context}
    {function : PSMFunction} {t : PegStabilitySystem.State (Protocol τ)}
    (called : PegStabilitySystem.step (psmContracts d e depth) ⟨p.now, psm, p, 0⟩ (function.call ctx) = .ok t) :
    supply t.world.tokens = supply p.tokens + t.minted ∧
      (t.minted = 0 ∨ p.roles.core.hasRole .minter psm.self = true) := by
  obtain ⟨w, moved, ⟨unminted, same⟩ | ⟨recipient, minted⟩⟩ :=
    world_of_call (moves_psmContracts exact.flows depth) called
  · have kept : supply w.tokens = supply p.tokens := moved.tokens
    rw [unminted, same, kept]
    exact ⟨rfl, .inl rfl⟩
  · have kept : supply w.tokens = supply p.tokens := moved.tokens
    obtain ⟨token, -, rfl⟩ := moved
    obtain ⟨-, minter, after, minting, same⟩ := mint_onTokens minted
    rw [same, ← kept]
    exact ⟨(exact.mint minting).2, .inr minter⟩

/-- Every transaction pays for the VOLT it creates. -/
theorem step_grows {start : ℕ} (exact : Exact d.volt e held supply) (viewed : Viewed d e depth p) (placed : Placed d p)
    (covers : Covers modules p) (since : start ≤ p.now) (changes : Changes d e depth p call q) :
    potential start modules q + supply q.tokens ≤
      potential start modules p + supply p.tokens + granted modules p call q := by
  cases changes with
  | wait seconds =>
    simp only [granted, add_zero]
    exact add_le_add_left (Finset.sum_le_sum fun a _ => share_wait viewed start seconds a) _
  | token transaction token transacted =>
    have less := exact.transact transacted
    simp only [granted, add_zero]
    exact add_le_add_right (Nat.cast_le.mpr less) (potential start modules p)
  | volt sender function volt called =>
    have more := supply_of_volt exact called
    change potential start modules p + (supply volt.token : ℤ) ≤ _
    simp only [granted, Protocol.tokens]
    rw [add_assoc]
    exact add_le_add_right (by exact_mod_cast more) _
  | psm a sender function psm t token here called world =>
    obtain ⟨-, paid⟩ := MintLimit.step_pays (limited_of_viewed viewed here p 0) called
    obtain ⟨now, -⟩ := accounts_of_call called
    obtain ⟨issued, entitled⟩ := supply_of_psm exact called
    rw [world] at issued
    have changed := potential_withPCV start modules (p.withTokens token) a (.psm t.psm)
    change potential start modules _ + (if a ∈ modules then share start p.now (p.pcv a) else 0) =
      potential start modules p + (if a ∈ modules then share start p.now (some (.psm t.psm)) else 0) at changed
    simp only [MintLimit.Pays, MintLimit.potential, MintLimit.minted, now, add_zero] at paid
    change supply token = _ at issued
    change potential start modules _ + (supply token : ℤ) ≤ _
    simp only [granted, issued]
    push_cast
    by_cases member : a ∈ modules
    · rw [if_pos member, if_pos member, here, share, share] at changed
      linarith
    · rw [if_neg member, if_neg member] at changed
      have self : psm.self = a := placed.self a (.psm psm) here
      obtain nothing | minter := entitled
      · rw [nothing]
        push_cast
        linarith
      · exact absurd (covers a (self ▸ minter)) member
  | deposit a sender function deposit token here called =>
    have same : supply token = supply p.tokens := by
      obtain moved | ⟨c, written⟩ := depositStep_spec exact.flows called
      · exact moved.tokens
      · exact congrArg (fun w => supply (Protocol.tokens w)) written
    change potential start modules p + (supply token : ℤ) ≤ _
    rw [same]
    simp [granted]
  | depositCore a sender function deposit c here called =>
    rw [potential_of_other (by rw [here]; rfl) rfl]
    simp [granted, Protocol.tokens, Protocol.withPCV]
  | allocator sender function t token called world =>
    have same : supply token = supply p.tokens := by
      obtain ⟨-, moved⟩ := world_of_allocator (shifts_allocatorContracts exact.flows) called
      rw [world] at moved
      exact moved.tokens
    change potential start modules p + (supply token : ℤ) ≤ _
    rw [same]
    simp [granted]
  | withdrawal sender function a token may listed withdrawn =>
    have same : supply token = supply p.tokens := (withdrawn_onTokens exact.flows withdrawn).tokens
    change potential start modules p + (supply token : ℤ) ≤ _
    rw [same]
    simp [granted]
  | deployPSM a params psm vacant deployed =>
    have changed := potential_withPCV start modules p a (.psm psm)
    have after : room (p.withPCV a (.psm psm)) a = psm.level p.now := by
      rw [room, withPCV_pcv]
      rfl
    -- a PSM starts to earn when it is deployed, which is not before the run
    have earned : (0 : ℤ) ≤ MAX_FEI_LIMIT_PER_SECOND * ((p.now : ℤ) - start) :=
      mul_nonneg (by norm_num) (by omega)
    have nothing : share start p.now none = 0 := rfl
    rw [vacant, nothing, ite_self, add_zero, share_psm] at changed
    change potential start modules _ + (supply p.tokens : ℤ) ≤ _
    simp only [granted, after]
    split_ifs at changed ⊢ <;> linarith
  | deployDeposit a token deposit vacant deployed =>
    rw [potential_of_other (by rw [vacant]; rfl) rfl]
    simp [granted, Protocol.tokens, Protocol.withPCV]
  | roles | compoundInterest | updateScalingPriceOracle | guardian | deployOracle =>
    simp only [granted, add_zero]
    exact le_rfl

/-- At the start of a run the shares are the levels of the buffers. -/
theorem potential_start (modules : Finset Address) (p : Protocol τ) :
    potential p.now modules p = ∑ a ∈ modules, (room p a : ℤ) := by
  refine Finset.sum_congr rfl fun a _ => ?_
  rw [room]
  rcases p.pcv a with _ | ⟨psm | deposit⟩
  · rfl
  · rw [share_psm, sub_self, mul_zero, sub_zero, levelOf]
  · rfl

/-- Later no more than what the PSMs among them can have earned is missing. -/
theorem le_potential (start : ℕ) (modules : Finset Address) (q : Protocol τ) :
    -((modules.filter (IsPSM q)).card * MAX_FEI_LIMIT_PER_SECOND * ((q.now : ℤ) - start)) ≤
      potential start modules q := by
  have each (a : Address) : (if IsPSM q a then -(MAX_FEI_LIMIT_PER_SECOND * ((q.now : ℤ) - start)) else 0) ≤
      share start q.now (q.pcv a) := by
    by_cases psm : IsPSM q a
    · obtain ⟨psm, here⟩ := psm
      rw [if_pos ⟨psm, here⟩, here, share_psm]
      have left : (0 : ℤ) ≤ psm.level q.now := Int.natCast_nonneg _
      linarith
    · rw [if_neg psm]
      rcases here : q.pcv a with _ | ⟨found | deposit⟩
      · exact le_rfl
      · exact absurd ⟨found, here⟩ psm
      · exact le_rfl
  refine le_trans ?_ (Finset.sum_le_sum fun a _ => each a)
  rw [← Finset.sum_filter, Finset.sum_const, nsmul_eq_mul]
  linarith

/-- Over any run of the protocol from a reachable state, whoever calls, the supply of VOLT grows by at most the
levels of the buffers at the start, the maximum rate of each PSM for the time the run takes, what accounts with
MINTER_ROLE mint themselves and the buffers that new PSMs start with. Only accounts that hold the role during
the run count. -/
theorem supply_le {calls : List (Call κ)} (exact : Exact d.volt e held supply)
    (reached : Reachable (step d e depth) Initial p)
    (covers : Along (step d e depth) (fun u _ _ => Covers modules u) p calls)
    (success : run (step d e depth) p calls = .ok q) :
    (supply q.tokens : ℤ) ≤ supply p.tokens + ∑ a ∈ modules, (room p a : ℤ) +
      (modules.filter (IsPSM q)).card * MAX_FEI_LIMIT_PER_SECOND * ((q.now : ℤ) - p.now) +
      total (step d e depth) (granted modules) p calls := by
  have grows (state : Protocol τ) (call : Call κ) (next : Protocol τ) (covers : Covers modules state)
      (inv : (Viewed d e depth state ∧ Placed d state) ∧ p.now ≤ state.now)
      (stepped : step d e depth state call = .ok next) :
      ((Viewed d e depth next ∧ Placed d next) ∧ p.now ≤ next.now) ∧ potential p.now modules next + supply next.tokens ≤
        potential p.now modules state + supply state.tokens + granted modules state call next := by
    obtain ⟨⟨viewed, placed⟩, since⟩ := inv
    have changes := changes_of_step stepped
    have later : p.now ≤ next.now := changes.now ▸ since.trans (Nat.le_add_right ..)
    exact ⟨⟨⟨viewed_of_step viewed stepped, changes.placed placed⟩, later⟩,
      step_grows exact viewed placed covers since changes⟩
  have paid := run_le_total grows covers ⟨⟨viewed_of_reachable reached, placed_of_reachable reached⟩, le_rfl⟩ success
  have left := le_potential p.now modules q
  rw [potential_start] at paid
  linarith

/-- The PSM at 1006 is the only minter of the examples. -/
theorem covers_roles {p : Protocol Books} (staffed : Staffed p) : Covers {1006} p := by
  intro a minter
  rw [staffed] at minter
  have listed := mem_roles.mp (show roles.members .minter a = true from minter)
  simpa using listed

/-- Trading with the launched PSM, which alone mints. -/
theorem supply_le_trading : ∃ p q, Launched p ∧ run system p trading = .ok q ∧
    (q.tokens.supply : ℤ) ≤ p.tokens.supply + ∑ a ∈ {1006}, (room p a : ℤ) +
      (Finset.filter (IsPSM q) {1006}).card * MAX_FEI_LIMIT_PER_SECOND * ((q.now : ℤ) - p.now) +
        total system (granted {1006}) p trading := by
  obtain ⟨p, q, launched, traded⟩ := launch_trading
  have covers : Along system (fun u _ _ => Covers {1006} u) p trading := by
    refine along_of_step ?_ (fun call member => others call (List.mem_append_right _ member)) launched.staffed
    intro state call next other staffed stepped
    exact ⟨staffed_of_step other staffed stepped, covers_roles staffed⟩
  exact ⟨p, q, launched, traded, supply_le (tables_exact 1002) launched.reached covers traded⟩

/-! ### Without minters -/

/-- Neither a governor nor a minter at the start. -/
def Unminting (d : Deployment) (start : Permissions) (sender : Address) : Prop :=
  GuardianPowers.Plain d.guardAdmin start sender ∧ start.members .minter sender = false

/-- Such accounts mint nothing themselves, and a PSM that is deployed already cannot be deployed again. -/
theorem granted_eq_zero {start : Permissions} (contained : GuardianPowers.Contained start p.roles)
    (sent : SentBy (Unminting d start) call) (deployed : ∀ a ∈ modules, p.pcv a ≠ none)
    (changes : Changes d e depth p call q) : granted modules p call q = 0 := by
  cases changes with
  | volt sender function volt called =>
    cases function with
    | mint account amount =>
      obtain ⟨_, minter, -⟩ := bind_eq_ok.mp called
      have held : p.roles.core.hasRole .minter sender = true := require_eq_ok.mp minter
      rw [not_member_of_contained contained (sent sender rfl).2] at held
      cases held
    | _ => rfl
  | deployPSM a params psm vacant =>
    simp only [granted]
    exact if_neg fun member => deployed a member vacant
  | _ => rfl

/-- With the roles set up as in the fixtures and every minter a PSM, transactions of accounts that neither govern
nor mint raise the supply of VOLT by at most the levels of the buffers and the maximum rate of each PSM for the time
that passes. -/
theorem supply_le_of_unminting {calls : List (Call κ)} (exact : Exact d.volt e held supply)
    (reached : Reachable (step d e depth) Initial p)
    (setup : GuardianPowers.Setup d.core d.guardAdmin p.roles.core.toPermissions)
    (initialized : p.roles.core.initialized = true) (covers : Covers modules p)
    (deployed : ∀ a ∈ modules, p.pcv a ≠ none)
    (sent : ∀ call ∈ calls, SentBy (Unminting d p.roles.core.toPermissions) call)
    (success : run (step d e depth) p calls = .ok q) :
    (supply q.tokens : ℤ) ≤ supply p.tokens + ∑ a ∈ modules, (room p a : ℤ) +
      (modules.filter (IsPSM q)).card * MAX_FEI_LIMIT_PER_SECOND * ((q.now : ℤ) - p.now) := by
  set start := p.roles.core.toPermissions
  let Inv (u : Protocol τ) : Prop := (Viewed d e depth u ∧ Placed d u) ∧
    GuardianPowers.Contained start u.roles ∧ (∀ a ∈ modules, u.pcv a ≠ none) ∧ p.now ≤ u.now
  have grows (state : Protocol τ) (call : Call κ) (next : Protocol τ) (sent : SentBy (Unminting d start) call)
      (inv : Inv state) (stepped : step d e depth state call = .ok next) :
      Inv next ∧ potential p.now modules next + supply next.tokens ≤
        potential p.now modules state + supply state.tokens + 0 := by
    obtain ⟨⟨viewed, placed⟩, contained, deployed, since⟩ := inv
    have changes := changes_of_step stepped
    have plain : SentBy (GuardianPowers.Plain d.guardAdmin start) call := fun sender here => (sent sender here).1
    have covered : Covers modules state := fun a minter => covers a (contained.shrinks.members _ a minter)
    have bound := step_grows exact viewed placed covered since changes
    have later : p.now ≤ next.now := changes.now ▸ since.trans (Nat.le_add_right ..)
    rw [granted_eq_zero contained sent deployed changes] at bound
    exact ⟨⟨⟨viewed_of_step viewed stepped, changes.placed placed⟩, contained_of_changes setup plain contained changes,
      fun a member => changes.persists (deployed a member), later⟩, bound⟩
  have inv : Inv p :=
    ⟨⟨viewed_of_reachable reached, placed_of_reachable reached⟩, ⟨.refl _, initialized⟩, deployed, le_rfl⟩
  have paid := run_le_total grows ((along_call_iff success).mpr sent) inv success
  rw [total_zero, add_zero, potential_start] at paid
  have left := le_potential p.now modules q
  linarith

theorem unminting_trader {sender : Address} (trader : sender ∈ [2, 3, 4, 7]) : Unminting addresses roles sender := by
  simp only [List.mem_cons, List.not_mem_nil, or_false] at trader
  rcases trader with rfl | rfl | rfl | rfl <;> exact ⟨⟨rfl, by decide⟩, rfl⟩

theorem supply_le_of_unminting_trading : ∃ p q, Launched p ∧ run system p trading = .ok q ∧
    (q.tokens.supply : ℤ) ≤ p.tokens.supply + ∑ a ∈ {1006}, (room p a : ℤ) +
      (Finset.filter (IsPSM q) {1006}).card * MAX_FEI_LIMIT_PER_SECOND * ((q.now : ℤ) - p.now) := by
  obtain ⟨p, q, launched, traded⟩ := launch_trading
  have deployed : ∀ a ∈ ({1006} : Finset Address), p.pcv a ≠ none := by
    intro a member
    obtain ⟨psm, here, -⟩ := launched.psm
    rw [Finset.mem_singleton.mp member, here]
    exact Option.some_ne_none _
  have sent : ∀ call ∈ trading, SentBy (Unminting addresses p.roles.core.toPermissions) call := by
    rw [launched.core]
    intro call member
    exact (sent_trading call member).mono fun _ => unminting_trader
  exact ⟨p, q, launched, traded, supply_le_of_unminting (tables_exact 1002) launched.reached launched.setup
    launched.initialized (covers_roles launched.staffed) deployed sent traded⟩

end VoltProtocol.SupplyGrowth
