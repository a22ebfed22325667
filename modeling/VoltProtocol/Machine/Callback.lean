import Mathlib.Data.Nat.Notation

/-! # Machines that are called back

A call of a machine may hand control to a guest before it returns, and the guest may call the machine
again. A guest is a script: it sees the state, calls, and goes on from the outcome, so it may also catch
the failure of a call. Its calls run one level deeper, and the depth of calls is limited. What every
level preserves when the level below does, all levels preserve.
-/

namespace Machine

variable {σ ι ρ ε : Type*} {step : σ → ι → Except ε σ}

/-- What a guest does: call the machine and go on from the state after, or from none if the call failed. -/
inductive Script (σ ι ρ : Type*) where
  | stop (result : ρ)
  | revert
  | call (request : ι) (next : Option σ → Script σ ι ρ)

/-- Play a script on a machine. A call that fails leaves the state as it was. -/
def Script.play (step : σ → ι → Except ε σ) (state : σ) : Script σ ι ρ → Option (σ × ρ)
  | .stop result => some (state, result)
  | .revert => none
  | .call request next =>
    match step state request with
    | .ok after => (next (some after)).play step after
    | .error _ => (next none).play step state

/-- The machine whose calls run `level` over the machine of one level deeper, down to a depth at which
every call fails. -/
def nested (level : (σ → ι → Except ε σ) → σ → ι → Except ε σ) (limit : ε) : ℕ → σ → ι → Except ε σ
  | 0 => fun _ _ => .error limit
  | depth + 1 => level (nested level limit depth)

/-- Every call that succeeds preserves the invariant. -/
def Preserves (step : σ → ι → Except ε σ) (Inv : σ → Prop) : Prop :=
  ∀ state call next, step state call = .ok next → Inv state → Inv next

/-- A script preserves what each of its calls preserves. -/
theorem Script.play_preserves {Inv : σ → Prop} {script : Script σ ι ρ} {state final : σ} {result : ρ}
    (preserves : Preserves step Inv) (start : Inv state) (played : script.play step state = some (final, result)) :
    Inv final := by
  induction script generalizing state with
  | stop value =>
    simp only [play, Option.some.injEq, Prod.mk.injEq] at played
    exact played.1 ▸ start
  | revert => cases played
  | call request next ih =>
    cases stepped : step state request with
    | ok after =>
      simp only [play, stepped] at played
      exact ih (some after) (preserves state request after stepped start) played
    | error reason =>
      simp only [play, stepped] at played
      exact ih none start played

/-- Invariants that each level preserves when the level below preserves them all. -/
theorem nested_preserves {κ : Type*} {Inv : κ → σ → Prop} {level : (σ → ι → Except ε σ) → σ → ι → Except ε σ}
    {limit : ε} (preserved : ∀ below, (∀ k, Preserves below (Inv k)) → ∀ k, Preserves (level below) (Inv k)) :
    ∀ depth k, Preserves (nested level limit depth) (Inv k) := by
  intro depth
  induction depth with
  | zero =>
    intro k state call next success
    cases success
  | succ depth ih => exact preserved _ ih

end Machine
