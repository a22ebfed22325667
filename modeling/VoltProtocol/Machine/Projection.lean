import VoltProtocol.Machine.Run

/-! # What a run of a system looks like from one of its parts

A system steps, and each of its parts sees some calls of its own: none, one or several for one step of
the whole. If what a part sees of each step is a run of the part that keeps its view of the whole, then
what it sees of a run of the whole is one, too.
-/

namespace Machine

variable {σ ι ε ρ κ δ : Type*} {step : σ → ι → Except ε σ} {part : ρ → κ → Except δ ρ}
  {seen : σ → ι → σ → List κ} {R : σ → ρ → Prop}

/-- All that a part sees of a run. -/
def projection (step : σ → ι → Except ε σ) (seen : σ → ι → σ → List κ) : σ → List ι → List κ
  | _, [] => []
  | state, call :: rest =>
    match step state call with
    | .ok next => seen state call next ++ projection step seen next rest
    | .error _ => []

theorem projection_cons_of_ok {source middle : σ} {call : ι} {rest : List ι}
    (stepped : step source call = .ok middle) :
    projection step seen source (call :: rest) = seen source call middle ++ projection step seen middle rest := by
  simp only [projection, stepped]

/-- If a part sees its own run in every step of the whole, it sees its own run in every run of the whole. -/
theorem run_projects {source target : σ} {view : ρ} {calls : List ι}
    (each : ∀ whole call next view, R whole view → step whole call = .ok next →
      ∃ after, run part view (seen whole call next) = .ok after ∧ R next after)
    (start : R source view) (success : run step source calls = .ok target) :
    ∃ after, run part view (projection step seen source calls) = .ok after ∧ R target after := by
  induction calls generalizing source view with
  | nil =>
    obtain rfl := run_nil_ok.mp success
    exact ⟨view, rfl, start⟩
  | cons call rest ih =>
    obtain ⟨middle, stepped, suffix⟩ := run_cons_ok.mp success
    obtain ⟨between, first, related⟩ := each source call middle view start stepped
    obtain ⟨after, second, final⟩ := ih related suffix
    rw [projection_cons_of_ok stepped]
    exact ⟨after, run_append_ok.mpr ⟨between, first, second⟩, final⟩

end Machine
