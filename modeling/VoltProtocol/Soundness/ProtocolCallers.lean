import VoltProtocol.Soundness.ProtocolFrames

/-! # Transactions by accounts that do not govern

Only calls of Core and PCVGuardAdmin change roles. So while no governor sends a transaction, the roles in the
protocol shrink as they do in Core alone: what an account was not allowed at the start it is never allowed
later.
-/

namespace VoltProtocol.ProtocolCallers

open Machine ProtocolSystem GuardianPowers

variable {τ κ : Type} {d : Deployment} {e : Externals τ κ} {depth : ℕ} {p q : Protocol τ}
  {call : ProtocolSystem.Call κ} {start : Permissions} {sender : Address} {role : Role}

/-- The account that sends a transaction to the protocol. -/
def senderOf : ProtocolSystem.Call κ → Option Address
  | .roles call => some call.sender
  | .volt sender _ | .updateScalingPriceOracle sender _ | .psm _ sender _ | .deposit _ sender _
  | .allocator sender _ | .guardian sender _ => some sender
  | _ => none

/-- Every account that sends a transaction has the property. -/
def SentBy (Account : Address → Prop) (call : ProtocolSystem.Call κ) : Prop :=
  ∀ sender, senderOf call = some sender → Account sender

theorem SentBy.mono {A B : Address → Prop} (sent : SentBy A call) (weaker : ∀ sender, A sender → B sender) :
    SentBy B call := fun sender here => weaker sender (sent sender here)

/-- Transactions of accounts that are no governors keep the roles contained in those at the start. -/
theorem contained_of_changes (setup : Setup d.core d.guardAdmin start) (sent : SentBy (Plain d.guardAdmin start) call)
    (before : Contained start p.roles) (changes : Changes d e depth p call q) : Contained start q.roles := by
  cases changes with
  | roles call roles called =>
    have caller := sent call.sender rfl
    have still : Plain d.guardAdmin p.roles.core.toPermissions call.sender :=
      ⟨(before.shrinks.governors _).trans caller.1, caller.2⟩
    obtain ⟨shrinks, kept⟩ := step_shrinks (setup.shrinks before.shrinks) before.initialized still called
    exact ⟨before.shrinks.trans shrinks, kept⟩
  | _ => exact before

/-- A role that an account did not hold at the start it does not hold. -/
theorem not_member_of_contained (contained : Contained start p.roles) (without : start.members role sender = false) :
    p.roles.core.hasRole role sender = false := by
  rw [Bool.eq_false_iff]
  intro held
  exact Bool.false_ne_true (without.symm.trans (contained.shrinks.members role sender held))

end VoltProtocol.ProtocolCallers
