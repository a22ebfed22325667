import VoltProtocol.Machine.Run
import Mathlib.Order.Bounds.Basic
import Mathlib.Algebra.Order.Group.MinMax
import Mathlib.Tactic

/-! # What a reservoir cannot cover

A reservoir serves demands out of its level and has the rest of each demand supplied from elsewhere; a
negative demand fills it. Over a whole run, what has to be supplied is the excess of the peak of the
net demand over the first level: a reflection law, by induction on the run.
-/

namespace Machine

variable {σ ι ε α : Type*} [AddCommGroup α] [LinearOrder α] {step : σ → ι → Except ε σ}

/-- The largest total of the demand over the prefixes of a run. -/
def peak (step : σ → ι → Except ε σ) (demand : σ → ι → σ → α) : σ → List ι → α
  | _, [] => 0
  | state, call :: rest =>
    match step state call with
    | .ok next => max 0 (demand state call next + peak step demand next rest)
    | .error _ => 0

variable {demand : σ → ι → σ → α}

theorem peak_cons_of_ok {source middle : σ} {call : ι} {rest : List ι}
    (stepped : step source call = .ok middle) : peak step demand source (call :: rest) =
      max 0 (demand source call middle + peak step demand middle rest) := by
  rw [peak, stepped]

theorem peak_nonneg (source : σ) (calls : List ι) : 0 ≤ peak step demand source calls := by
  cases calls with
  | nil => exact le_rfl
  | cons call rest =>
    rw [peak]
    cases step source call with
    | ok next => exact le_max_left ..
    | error reason => exact le_rfl

variable [IsOrderedAddMonoid α]

/-- The peak is the total of some prefix, and no prefix has a larger one. -/
theorem isGreatest_peak (source : σ) (calls : List ι) :
    IsGreatest {net | ∃ start, start <+: calls ∧ net = total step demand source start}
      (peak step demand source calls) := by
  induction calls generalizing source with
  | nil =>
    refine ⟨⟨[], List.prefix_rfl, rfl⟩, ?_⟩
    rintro _ ⟨start, shorter, rfl⟩
    rw [List.prefix_nil.mp shorter]
    exact le_rfl
  | cons call rest ih =>
    cases stepped : step source call with
    | error reason =>
      rw [peak, stepped]
      refine ⟨⟨[], List.nil_prefix, rfl⟩, ?_⟩
      rintro _ ⟨start, shorter, rfl⟩
      cases start with
      | nil => exact le_rfl
      | cons first others =>
        obtain rfl := (List.cons_prefix_cons.mp shorter).1
        rw [total, stepped]
    | ok middle =>
      obtain ⟨⟨start, shorter, attained⟩, bound⟩ := ih middle
      rw [peak_cons_of_ok stepped]
      constructor
      · rcases le_total 0 (demand source call middle + peak step demand middle rest) with up | down
        · refine ⟨call :: start, List.cons_prefix_cons.mpr ⟨rfl, shorter⟩, ?_⟩
          rw [max_eq_right up, total_cons_of_ok stepped, attained]
        · exact ⟨[], List.nil_prefix, max_eq_left down⟩
      · rintro _ ⟨other, shorter, rfl⟩
        cases other with
        | nil => exact le_max_left ..
        | cons first others =>
          obtain ⟨rfl, within⟩ := List.cons_prefix_cons.mp shorter
          rw [total_cons_of_ok stepped]
          exact (add_le_add_right (bound ⟨others, within, rfl⟩) _).trans (le_max_right ..)

/-- One demand and the peak of those that follow. -/
theorem reflect {level first later : α} (positive : 0 ≤ level) (rest : 0 ≤ later) :
    max 0 (first - level) + max 0 (later - (level - first + max 0 (first - level))) =
      max 0 (max 0 (first + later) - level) := by
  rcases le_total first level with covered | short
  · have none : max 0 (first - level) = 0 := max_eq_left (sub_nonpos.mpr covered)
    have below : 0 - level ≤ 0 := sub_nonpos.mpr positive
    rw [none, zero_add, add_zero, ← max_sub_sub_right, ← max_assoc, max_eq_left below]
    congr 1
    abel
  · have all : max 0 (first - level) = first - level := max_eq_right (sub_nonneg.mpr short)
    have net : 0 ≤ first + later := add_nonneg (positive.trans short) rest
    have left : 0 ≤ first + later - level := by
      rw [add_sub_right_comm]
      exact add_nonneg (sub_nonneg.mpr short) rest
    rw [all, max_eq_right net, max_eq_right left, sub_add_sub_cancel, sub_self, sub_zero, max_eq_right rest]
    abel

/-- If every step of a run supplies exactly what the level does not cover of its demand, the run
supplies what the first level does not cover of the peak demand. -/
theorem total_eq_peak {Inv : σ → Prop} {P : σ → ι → σ → Prop} {level : σ → α} {supplied : σ → ι → σ → α}
    {source target : σ} {calls : List ι}
    (each : ∀ state call next, P state call next → Inv state → step state call = .ok next →
      Inv next ∧ supplied state call next = max 0 (demand state call next - level state) ∧
        level next = level state - demand state call next + supplied state call next)
    (positive : ∀ state, Inv state → 0 ≤ level state) (along : Along step P source calls)
    (start : Inv source) (success : run step source calls = .ok target) :
    total step supplied source calls = max 0 (peak step demand source calls - level source) := by
  induction calls generalizing source with
  | nil => rw [total, peak, max_eq_left (sub_nonpos.mpr (positive source start))]
  | cons call rest ih =>
    obtain ⟨middle, stepped, suffix⟩ := run_cons_ok.mp success
    obtain ⟨holds, later⟩ := (along_cons_of_ok stepped).mp along
    obtain ⟨inv, here, left⟩ := each source call middle holds start stepped
    rw [total_cons_of_ok stepped, peak_cons_of_ok stepped, ih later inv suffix, left, here]
    exact reflect (positive source start) (peak_nonneg middle rest)

end Machine
