import VoltProtocol.Machine.Projection
import VoltProtocol.Soundness.ProtocolBooks

/-! # The protocol seen from a PSM and from the allocator

Each contract was verified in a system of its own, where everything else is an environment that does what
it likes. A run of the whole protocol is a run of each of these systems: a PSM sees time pass, the transactions
sent to it with the roles that Core gives at that moment, and changes elsewhere. So what holds of every run of a
PSM or of the allocator holds of each of them in the protocol. What other contracts call on it inside their own
transactions, such as a withdrawal by the allocator, leaves its storage alone and is one of the changes elsewhere.
-/

namespace VoltProtocol.ProtocolViews

open Machine ProtocolSystem ProtocolBooks

variable {τ κ : Type} {d : Deployment} {e : Externals τ κ} {depth : ℕ} {p q : Protocol τ} {call : Call κ}
  {a : Address}

/-- What a PSM sees of a step of the protocol. -/
def seenByPSM (a : Address) (p : Protocol τ) (call : Call κ) (q : Protocol τ) :
    List (PegStabilitySystem.Call (Protocol τ)) :=
  match call with
  | .wait seconds => [.wait seconds, .environment q]
  | .psm b sender function =>
    if b = a then [.environment p, function.call (p.context sender), .environment q] else [.environment q]
  | _ => [.environment q]

/-- What the allocator sees of a step of the protocol. -/
def seenByAllocator (p : Protocol τ) (call : Call κ) (q : Protocol τ) : List (AllocatorSystem.Call (Protocol τ)) :=
  match call with
  | .wait seconds => [.wait seconds, .environment q]
  | .allocator sender function => [.environment p, function.call (p.context sender), .environment q]
  | _ => [.environment q]

/-- What Core and PCVGuardAdmin see of a step of the protocol. -/
def seenByCore (_ : Protocol τ) (call : Call κ) (_ : Protocol τ) : List GuardianPowers.Call :=
  match call with
  | .roles call => [call]
  | _ => []

/-- The state of the system of a PSM that stands for a state of the protocol. -/
def PSMView (a : Address) (p : Protocol τ) (s : PegStabilitySystem.State (Protocol τ)) : Prop :=
  p.pcv a = some (.psm s.psm) ∧ s.now = p.now ∧ s.world = p

/-- The state of the system of the allocator that stands for a state of the protocol. -/
def AllocatorView (p : Protocol τ) (s : AllocatorSystem.State (Protocol τ)) : Prop :=
  s.allocator = p.allocator ∧ s.now = p.now ∧ s.world = p

/-- What a PSM sees of a step is a run of its own system. -/
theorem psm_sees {s : PegStabilitySystem.State (Protocol τ)} (view : PSMView a p s)
    (stepped : step d e depth p call = .ok q) :
    ∃ t, run (PegStabilitySystem.step (psmContracts d e depth)) s (seenByPSM a p call q) = .ok t ∧ PSMView a q t := by
  obtain ⟨here, now, rfl⟩ := view
  have changes := changes_of_step stepped
  have unseen (elsewhere : call.target ≠ some a) (instant : call.seconds = 0) :
      ∃ t, run (PegStabilitySystem.step (psmContracts d e depth)) s [.environment q] = .ok t ∧ PSMView a q t := by
    refine ⟨_, rfl, (changes.pcv elsewhere).trans here, ?_, rfl⟩
    rw [changes.now, instant]
    exact now
  cases call with
  | wait seconds =>
    refine ⟨_, rfl, (changes.pcv nofun).trans here, ?_, rfl⟩
    rw [changes.now]
    exact congrArg (· + seconds) now
  | psm b sender function =>
    rw [seenByPSM]
    split_ifs with same
    · subst same
      cases changes with
      | psm _ _ _ psm t token found called world =>
        obtain rfl := PCVContract.psm.inj (Option.some.inj (found.symm.trans here))
        have called : PegStabilitySystem.step (psmContracts d e depth) ⟨s.now, s.psm, s.world, 0⟩
            (function.call (s.world.context sender)) = .ok t := by
          rw [now]
          exact called
        obtain ⟨instant, -⟩ := accounts_of_call called
        refine ⟨_, run_cons_ok.mpr ⟨_, rfl, run_cons_ok.mpr ⟨t, called, rfl⟩⟩, withPCV_pcv _, ?_, rfl⟩
        exact instant.trans now
    · exact unseen (fun target => same (Option.some.inj target)) rfl
  | deposit b sender function =>
    apply unseen _ rfl
    intro target
    obtain rfl := Option.some.inj target
    cases changes with
    | deposit _ _ _ deposit token found | depositCore _ _ _ deposit c found => cases here.symm.trans found
  | deployPSM b params =>
    apply unseen _ rfl
    intro target
    obtain rfl := Option.some.inj target
    cases changes with
    | deployPSM _ _ psm vacant => cases here.symm.trans vacant
  | deployDeposit b token =>
    apply unseen _ rfl
    intro target
    obtain rfl := Option.some.inj target
    cases changes with
    | deployDeposit _ _ deposit vacant => cases here.symm.trans vacant
  | _ => exact unseen nofun rfl

/-- What the allocator sees of a step is a run of its own system. -/
theorem allocator_sees {s : AllocatorSystem.State (Protocol τ)} (view : AllocatorView p s)
    (stepped : step d e depth p call = .ok q) :
    ∃ t, run (AllocatorSystem.step (allocatorContracts d e depth)) s (seenByAllocator p call q) = .ok t ∧
      AllocatorView q t := by
  obtain ⟨same, now, rfl⟩ := view
  have changes := changes_of_step stepped
  cases call with
  | wait seconds =>
    refine ⟨_, rfl, same.trans (changes.allocator_eq (by simp)).symm, ?_, rfl⟩
    rw [changes.now]
    exact congrArg (· + seconds) now
  | allocator sender function =>
    cases changes with
    | allocator _ _ t token called world =>
      have called : AllocatorSystem.step (allocatorContracts d e depth) ⟨s.now, s.allocator, s.world, []⟩
          (function.call (s.world.context sender)) = .ok t := by
        rw [now, same]
        exact called
      obtain ⟨instant, -⟩ := world_of_allocator (shifts_allocatorContracts (flows_true e)) called
      exact ⟨_, run_cons_ok.mpr ⟨_, rfl, run_cons_ok.mpr ⟨t, called, rfl⟩⟩, rfl, instant.trans now, rfl⟩
  | _ => exact ⟨_, rfl, same.trans (changes.allocator_eq (by simp)).symm, now.trans changes.now.symm, rfl⟩

/-- Core and PCVGuardAdmin see exactly the calls of theirs. -/
theorem core_sees {roles : GuardianPowers.State} (view : p.roles = roles) (stepped : step d e depth p call = .ok q) :
    ∃ after, run (GuardianPowers.step d.core d.guardAdmin) roles (seenByCore p call q) = .ok after ∧
      q.roles = after := by
  subst view
  have changes := changes_of_step stepped
  cases changes with
  | roles call roles called => exact ⟨roles, run_cons_ok.mpr ⟨roles, called, rfl⟩, rfl⟩
  | _ => exact ⟨p.roles, rfl, rfl⟩

/-- The systems of the contracts can reach where the protocol is. -/
structure Viewed (d : Deployment) (e : Externals τ κ) (depth : ℕ) (p : Protocol τ) : Prop where
  psm : ∀ a psm, p.pcv a = some (.psm psm) → ∃ s, PSMView a p s ∧
    Reachable (PegStabilitySystem.step (psmContracts d e depth)) PegStabilitySystem.Initial s
  allocator : ∃ s, AllocatorView p s ∧
    Reachable (AllocatorSystem.step (allocatorContracts d e depth)) AllocatorSystem.Initial s

theorem viewed_of_initial (initial : Initial p) : Viewed d e depth p where
  psm a psm here := by cases (initial.empty a).symm.trans here
  allocator :=
    let s : AllocatorSystem.State (Protocol τ) := ⟨p.now, p.allocator, p, []⟩
    ⟨s, ⟨rfl, rfl, rfl⟩, s, [], initial.allocator, rfl⟩

theorem viewed_of_step (viewed : Viewed d e depth p) (stepped : step d e depth p call = .ok q) :
    Viewed d e depth q where
  psm a psm here := by
    have continued (before : PegStabilityModule) (there : p.pcv a = some (.psm before)) : ∃ s, PSMView a q s ∧
        Reachable (PegStabilitySystem.step (psmContracts d e depth)) PegStabilitySystem.Initial s := by
      obtain ⟨s, view, reached⟩ := viewed.psm a before there
      obtain ⟨t, success, after⟩ := psm_sees view stepped
      exact ⟨t, after, reached.run success⟩
    have changes := changes_of_step stepped
    by_cases elsewhere : call.target = some a
    · cases changes with
      | psm b sender function before t token found =>
        obtain rfl := Option.some.inj elsewhere
        exact continued before found
      | deposit b sender function deposit token found =>
        obtain rfl := Option.some.inj elsewhere
        cases found.symm.trans here
      | depositCore b sender function deposit c found =>
        obtain rfl := Option.some.inj elsewhere
        cases (withPCV_pcv _).symm.trans here
      | deployPSM b params fresh vacant deployed =>
        obtain rfl := Option.some.inj elsewhere
        obtain rfl := PCVContract.psm.inj (Option.some.inj ((withPCV_pcv _).symm.trans here))
        let s : PegStabilitySystem.State (Protocol τ) := ⟨p.now, fresh, p.withPCV b (.psm fresh), 0⟩
        have initial : PegStabilitySystem.Initial s := ⟨{ params with self := b, volt := d.volt }, deployed⟩
        exact ⟨s, ⟨here, rfl, rfl⟩, s, [], initial, rfl⟩
      | deployDeposit b token deposit vacant =>
        obtain rfl := Option.some.inj elsewhere
        cases (withPCV_pcv _).symm.trans here
      | _ => cases elsewhere
    · exact continued psm ((changes.pcv elsewhere).symm.trans here)
  allocator := by
    obtain ⟨s, view, reached⟩ := viewed.allocator
    obtain ⟨t, success, after⟩ := allocator_sees view stepped
    exact ⟨t, after, reached.run success⟩

theorem viewed_of_reachable (reached : Reachable (step d e depth) Initial p) : Viewed d e depth p :=
  reached.invariant (fun _ => viewed_of_initial) fun _ _ _ => viewed_of_step

/-- A run of the protocol from a reachable state is, for each PSM and for the allocator, a run of its own system
from a reachable state, and for Core and PCVGuardAdmin a run of theirs. The calls of that run are those that were
transactions; all else, calls inside the transactions of other contracts among it, changes the environment. -/
theorem protocol_projects {calls : List (Call κ)} (reached : Reachable (step d e depth) Initial p)
    (success : run (step d e depth) p calls = .ok q) :
    (∀ a psm, p.pcv a = some (.psm psm) → ∃ s t, PSMView a p s ∧ PSMView a q t ∧
      Reachable (PegStabilitySystem.step (psmContracts d e depth)) PegStabilitySystem.Initial s ∧
      run (PegStabilitySystem.step (psmContracts d e depth)) s
        (projection (step d e depth) (seenByPSM a) p calls) = .ok t) ∧
    (∃ s t, AllocatorView p s ∧ AllocatorView q t ∧
      Reachable (AllocatorSystem.step (allocatorContracts d e depth)) AllocatorSystem.Initial s ∧
      run (AllocatorSystem.step (allocatorContracts d e depth)) s
        (projection (step d e depth) seenByAllocator p calls) = .ok t) ∧
    run (GuardianPowers.step d.core d.guardAdmin) p.roles (projection (step d e depth) seenByCore p calls) =
      .ok q.roles := by
  have viewed := viewed_of_reachable reached
  refine ⟨?_, ?_, ?_⟩
  · intro a psm here
    obtain ⟨s, view, before⟩ := viewed.psm a psm here
    obtain ⟨t, seen, after⟩ := run_projects (fun _ _ _ _ => psm_sees) view success
    exact ⟨s, t, view, after, before, seen⟩
  · obtain ⟨s, view, before⟩ := viewed.allocator
    obtain ⟨t, seen, after⟩ := run_projects (fun _ _ _ _ => allocator_sees) view success
    exact ⟨s, t, view, after, before, seen⟩
  · obtain ⟨after, seen, same⟩ := run_projects (R := fun p roles => p.roles = roles) (fun _ _ _ _ => core_sees) rfl success
    rw [same]
    exact seen

/-- A PSM that is launched, used by traders, the allocator and a guardian, and paused in between. -/
theorem protocol_projects_trading :
    ∃ p q, run system blank launch = .ok p ∧ run system p trading = .ok q ∧
      ∀ psm, p.pcv 1006 = some (.psm psm) → ∃ s t, PSMView 1006 p s ∧ PSMView 1006 q t ∧
        Reachable (PegStabilitySystem.step (psmContracts addresses (tables 1002) 1)) PegStabilitySystem.Initial s ∧
        run (PegStabilitySystem.step (psmContracts addresses (tables 1002) 1)) s
          (projection system (seenByPSM 1006) p trading) = .ok t := by
  obtain ⟨p, q, launched, traded⟩ := launch_trading
  exact ⟨p, q, launched.run, traded, (protocol_projects launched.reached traded).1 1006⟩

end VoltProtocol.ProtocolViews
