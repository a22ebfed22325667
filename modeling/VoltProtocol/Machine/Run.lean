import Mathlib.Algebra.Order.Monoid.Defs
import Mathlib.Order.Interval.Set.Defs
import Mathlib.Tactic.Abel

/-! # Finite runs of a deterministic fallible machine

`run step` executes a list of calls and stops at the first failure, so a successful run is one in
which every call succeeded. Three arguments about runs recur: an invariant carried from call to
call, a potential that pays for what the calls spend, and a property of the states reached that
is equivalent to a condition on the calls made. Each is stated once here, over an arbitrary
state, call and error type.
-/

namespace Machine

variable {σ ι ε : Type*} {step : σ → ι → Except ε σ}

/-- Execute the calls in order; the first failure is the result of the whole run. -/
def run (step : σ → ι → Except ε σ) : σ → List ι → Except ε σ
  | state, [] => .ok state
  | state, call :: rest =>
    match step state call with
    | .ok next => run step next rest
    | .error reason => .error reason

@[simp] theorem run_nil_ok {source target : σ} :
    run step source [] = .ok target ↔ target = source := by
  simp [run, eq_comm]

theorem run_cons_ok {source target : σ} {call : ι} {rest : List ι} :
    run step source (call :: rest) = .ok target ↔
      ∃ middle, step source call = .ok middle ∧ run step middle rest = .ok target := by
  cases stepped : step source call <;> simp [run, stepped]

theorem run_append_ok {source target : σ} {first second : List ι} :
    run step source (first ++ second) = .ok target ↔
      ∃ middle, run step source first = .ok middle ∧ run step middle second = .ok target := by
  induction first generalizing source with
  | nil => simp
  | cons call rest ih =>
    simp only [List.cons_append, run_cons_ok, ih]
    constructor
    · rintro ⟨next, stepped, middle, left, right⟩
      exact ⟨middle, ⟨next, stepped, left⟩, right⟩
    · rintro ⟨middle, ⟨next, stepped, left⟩, right⟩
      exact ⟨next, stepped, middle, left, right⟩

/-- A run that ends with a known call has that call as its last step. -/
theorem run_concat_ok {source target : σ} {calls : List ι} {last : ι} :
    run step source (calls ++ [last]) = .ok target ↔
      ∃ middle, run step source calls = .ok middle ∧ step middle last = .ok target := by
  simp [run_append_ok, run_cons_ok]

/-! ### Invariants -/

/-- An invariant preserved by every allowed call holds after every run of allowed calls. -/
theorem run_invariant {Allowed : ι → Prop} {Inv : σ → Prop} {source target : σ} {calls : List ι}
    (preserved : ∀ state call next, Allowed call → Inv state → step state call = .ok next → Inv next)
    (allowed : ∀ call ∈ calls, Allowed call) (start : Inv source)
    (success : run step source calls = .ok target) : Inv target := by
  induction calls generalizing source with
  | nil => exact run_nil_ok.mp success ▸ start
  | cons call rest ih =>
    obtain ⟨middle, stepped, suffix⟩ := run_cons_ok.mp success
    have here := preserved source call middle (allowed call (List.mem_cons_self ..)) start stepped
    exact ih (fun other member => allowed other (List.mem_cons_of_mem _ member)) here suffix

/-- The states a machine can reach from one of its initial states. -/
def Reachable (step : σ → ι → Except ε σ) (Initial : σ → Prop) (target : σ) : Prop :=
  ∃ source calls, Initial source ∧ run step source calls = .ok target

theorem Reachable.invariant {Initial Inv : σ → Prop} {target : σ}
    (reached : Reachable step Initial target) (initial : ∀ state, Initial state → Inv state)
    (preserved : ∀ state call next, Inv state → step state call = .ok next → Inv next) :
    Inv target := by
  obtain ⟨source, calls, start, success⟩ := reached
  have preserved' (state : σ) (call : ι) (next : σ) (_ : True) (inv : Inv state)
      (stepped : step state call = .ok next) : Inv next := preserved state call next inv stepped
  exact run_invariant preserved' (fun _ _ => trivial) (initial source start) success

theorem Reachable.run {Initial : σ → Prop} {source target : σ} {calls : List ι}
    (reached : Reachable step Initial source) (success : Machine.run step source calls = .ok target) :
    Reachable step Initial target := by
  obtain ⟨origin, prior, start, before⟩ := reached
  exact ⟨origin, prior ++ calls, start, run_append_ok.mpr ⟨source, before, success⟩⟩

/-- Allowed calls lead from one state to another. -/
def LeadsTo (step : σ → ι → Except ε σ) (Allowed : ι → Prop) (source target : σ) : Prop :=
  ∃ calls, (∀ call ∈ calls, Allowed call) ∧ run step source calls = .ok target

namespace LeadsTo

variable {Allowed : ι → Prop} {source middle target : σ}

theorem refl (source : σ) : LeadsTo step Allowed source source := ⟨[], by simp, run_nil_ok.mpr rfl⟩

theorem tail (leads : LeadsTo step Allowed source middle) (call : ι) (allowed : Allowed call)
    (stepped : step middle call = .ok target) : LeadsTo step Allowed source target := by
  obtain ⟨calls, all, before⟩ := leads
  refine ⟨calls ++ [call], ?_, run_concat_ok.mpr ⟨middle, before, stepped⟩⟩
  intro other member
  obtain earlier | last := List.mem_append.mp member
  · exact all other earlier
  · exact List.mem_singleton.mp last ▸ allowed

theorem invariant (leads : LeadsTo step Allowed source target) (Inv : σ → Prop)
    (preserved : ∀ state call next, Allowed call → Inv state → step state call = .ok next → Inv next)
    (start : Inv source) : Inv target := by
  obtain ⟨calls, all, success⟩ := leads
  exact run_invariant preserved all start success

end LeadsTo

/-! ### Sums along a run -/

section Total

variable {M : Type*} [AddCommMonoid M]

/-- The sum of what `observe` reads off each successful step. -/
def total (step : σ → ι → Except ε σ) (observe : σ → ι → σ → M) : σ → List ι → M
  | _, [] => 0
  | state, call :: rest =>
    match step state call with
    | .ok next => observe state call next + total step observe next rest
    | .error _ => 0

theorem total_cons_of_ok {observe : σ → ι → σ → M} {source middle : σ} {call : ι} {rest : List ι}
    (stepped : step source call = .ok middle) :
    total step observe source (call :: rest) =
      observe source call middle + total step observe middle rest := by
  simp only [total, stepped]

theorem total_add (first second : σ → ι → σ → M) (source : σ) (calls : List ι) :
    total step (fun s call t => first s call t + second s call t) source calls =
      total step first source calls + total step second source calls := by
  induction calls generalizing source with
  | nil => simp [total]
  | cons call rest ih =>
    cases stepped : step source call with
    | ok middle =>
      rw [total_cons_of_ok stepped, total_cons_of_ok stepped, total_cons_of_ok stepped, ih]
      abel
    | error reason => simp [total, stepped]

theorem total_congr {first second : σ → ι → σ → M} (source : σ) (calls : List ι)
    (same : ∀ state call next, step state call = .ok next → first state call next = second state call next) :
    total step first source calls = total step second source calls := by
  induction calls generalizing source with
  | nil => rfl
  | cons call rest ih =>
    cases stepped : step source call with
    | ok middle =>
      rw [total_cons_of_ok stepped, total_cons_of_ok stepped, same source call middle stepped, ih]
    | error reason => simp [total, stepped]

/-- A quantity that every allowed step changes by what it observes changes by the total over the run. -/
theorem total_telescope {Allowed : ι → Prop} {Inv : σ → Prop} {observe : σ → ι → σ → M} {φ : σ → M}
    {source target : σ} {calls : List ι} (change : ∀ state call next, Allowed call → Inv state →
      step state call = .ok next → Inv next ∧ φ next = φ state + observe state call next)
    (allowed : ∀ call ∈ calls, Allowed call) (start : Inv source)
    (success : run step source calls = .ok target) :
    φ target = φ source + total step observe source calls := by
  induction calls generalizing source with
  | nil => simp [run_nil_ok.mp success, total]
  | cons call rest ih =>
    obtain ⟨middle, stepped, suffix⟩ := run_cons_ok.mp success
    obtain ⟨inv, changed⟩ := change source call middle (allowed call (List.mem_cons_self ..)) start stepped
    have later := ih (fun other member => allowed other (List.mem_cons_of_mem _ member)) inv suffix
    rw [total_cons_of_ok stepped, later, changed, add_assoc]

/-- If no step observes anything while an invariant holds, neither does the run. -/
theorem total_eq_zero {Inv : σ → Prop} {observe : σ → ι → σ → M} {source : σ} {calls : List ι}
    (each : ∀ state call next, Inv state → step state call = .ok next →
      Inv next ∧ observe state call next = 0)
    (start : Inv source) : total step observe source calls = 0 := by
  induction calls generalizing source with
  | nil => rfl
  | cons call rest ih =>
    cases stepped : step source call with
    | ok middle =>
      obtain ⟨inv, nothing⟩ := each source call middle start stepped
      rw [total_cons_of_ok stepped, nothing, ih inv, add_zero]
    | error reason => simp [total, stepped]

theorem total_zero (source : σ) (calls : List ι) : total step (fun _ _ _ => (0 : M)) source calls = 0 :=
  total_eq_zero (fun _ _ _ _ _ => ⟨trivial, rfl⟩) trivial

/-- Potential argument: if every step pays for what it spends out of the potential and what it
earns, so does the whole run. -/
theorem total_le_of_potential [PartialOrder M] [IsOrderedAddMonoid M] {Inv : σ → Prop}
    {spent earned : σ → ι → σ → M} (φ : σ → M) {source target : σ} {calls : List ι}
    (preserved : ∀ state call next, Inv state → step state call = .ok next → Inv next)
    (paid : ∀ state call next, Inv state → step state call = .ok next →
      φ next + spent state call next ≤ φ state + earned state call next)
    (start : Inv source) (success : run step source calls = .ok target) :
    φ target + total step spent source calls ≤ φ source + total step earned source calls := by
  induction calls generalizing source with
  | nil => simp [run_nil_ok.mp success, total]
  | cons call rest ih =>
    obtain ⟨middle, stepped, suffix⟩ := run_cons_ok.mp success
    rw [total_cons_of_ok stepped, total_cons_of_ok stepped]
    have here := paid source call middle start stepped
    have later := ih (preserved source call middle start stepped) suffix
    calc
      φ target + (spent source call middle + total step spent middle rest)
        = (φ target + total step spent middle rest) + spent source call middle := by abel
      _ ≤ (φ middle + total step earned middle rest) + spent source call middle :=
          add_le_add_left later _
      _ = (φ middle + spent source call middle) + total step earned middle rest := by abel
      _ ≤ (φ source + earned source call middle) + total step earned middle rest :=
          add_le_add_left here _
      _ = φ source + (earned source call middle + total step earned middle rest) := by abel

/-- If what every allowed step earns pays for what it spends and adds to a quantity, up to some loss and some gain, so it
does over the run, up to the totals of these. -/
theorem total_balance_between {M : Type*} [AddCommGroup M] [PartialOrder M] [IsOrderedAddMonoid M] {Allowed : ι → Prop}
    {Inv : σ → Prop} {spent earned loss gain : σ → ι → σ → M} {φ : σ → M} {source target : σ} {calls : List ι}
    (balanced : ∀ state call next, Allowed call → Inv state → step state call = .ok next → Inv next ∧
      φ next + spent state call next - (φ state + earned state call next) ∈
        Set.Icc (-loss state call next) (gain state call next))
    (allowed : ∀ call ∈ calls, Allowed call) (start : Inv source) (success : run step source calls = .ok target) :
    φ target + total step spent source calls - (φ source + total step earned source calls) ∈
      Set.Icc (-total step loss source calls) (total step gain source calls) := by
  induction calls generalizing source with
  | nil => simp [run_nil_ok.mp success, total]
  | cons call rest ih =>
    obtain ⟨middle, stepped, suffix⟩ := run_cons_ok.mp success
    obtain ⟨inv, least, most⟩ := balanced source call middle (allowed call (List.mem_cons_self ..)) start stepped
    obtain ⟨leastLater, mostLater⟩ := ih (fun other member => allowed other (List.mem_cons_of_mem _ member)) inv suffix
    rw [total_cons_of_ok stepped, total_cons_of_ok stepped, total_cons_of_ok stepped, total_cons_of_ok stepped]
    have split : φ target + (spent source call middle + total step spent middle rest) -
        (φ source + (earned source call middle + total step earned middle rest)) =
          (φ middle + spent source call middle - (φ source + earned source call middle)) +
            (φ target + total step spent middle rest - (φ middle + total step earned middle rest)) := by abel
    rw [split, neg_add]
    exact ⟨add_le_add least leastLater, add_le_add most mostLater⟩

end Total

/-! ### Properties of every step of a run -/

/-- `P` holds of every step of the run: of the state before it, the call and the state after. -/
def Along (step : σ → ι → Except ε σ) (P : σ → ι → σ → Prop) : σ → List ι → Prop
  | _, [] => True
  | state, call :: rest =>
    ∀ next, step state call = .ok next → P state call next ∧ Along step P next rest

theorem along_cons_of_ok {P : σ → ι → σ → Prop} {source middle : σ} {call : ι} {rest : List ι}
    (stepped : step source call = .ok middle) :
    Along step P source (call :: rest) ↔ P source call middle ∧ Along step P middle rest := by
  constructor
  · intro along
    exact along middle stepped
  · intro parts next other
    obtain rfl := Except.ok.inj (stepped.symm.trans other)
    exact parts

/-- What holds of every step of a run holds of the steps after any of its states. -/
theorem Along.suffix {P : σ → ι → σ → Prop} {source middle : σ} {first second : List ι}
    (along : Along step P source (first ++ second)) (prior : run step source first = .ok middle) :
    Along step P middle second := by
  induction first generalizing source with
  | nil => exact run_nil_ok.mp prior ▸ along
  | cons call rest ih =>
    obtain ⟨next, stepped, remaining⟩ := run_cons_ok.mp prior
    exact ih (along next stepped).2 remaining

theorem Along.mono {P Q : σ → ι → σ → Prop} {source : σ} {calls : List ι}
    (weaker : ∀ state call next, P state call next → Q state call next)
    (along : Along step P source calls) : Along step Q source calls := by
  induction calls generalizing source with
  | nil => exact trivial
  | cons call rest ih =>
    intro next stepped
    obtain ⟨holds, later⟩ := along next stepped
    exact ⟨weaker source call next holds, ih later⟩

theorem Along.and {P Q : σ → ι → σ → Prop} {source : σ} {calls : List ι} (first : Along step P source calls)
    (second : Along step Q source calls) :
    Along step (fun state call next => P state call next ∧ Q state call next) source calls := by
  induction calls generalizing source with
  | nil => exact trivial
  | cons call rest ih =>
    intro next stepped
    obtain ⟨here, later⟩ := first next stepped
    obtain ⟨also, rest⟩ := second next stepped
    exact ⟨⟨here, also⟩, ih later rest⟩

instance decidableAlong {P : σ → ι → σ → Prop} [∀ state call next, Decidable (P state call next)] :
    (source : σ) → (calls : List ι) → Decidable (Along step P source calls)
  | _, [] => .isTrue trivial
  | source, call :: rest =>
    match stepped : step source call with
    | .error reason => .isTrue fun next other => by rw [stepped] at other; cases other
    | .ok middle =>
      have : Decidable (Along step P middle rest) := decidableAlong middle rest
      decidable_of_iff (P source call middle ∧ Along step P middle rest) (along_cons_of_ok stepped).symm

/-- Of what is never negative, a run observes nothing exactly if none of its steps does. -/
theorem total_eq_zero_iff {M : Type*} [AddCommMonoid M] [PartialOrder M] [IsOrderedAddMonoid M]
    {observe : σ → ι → σ → M} {source : σ} {calls : List ι}
    (nonneg : ∀ state call next, step state call = .ok next → 0 ≤ observe state call next) :
    0 ≤ total step observe source calls ∧ (total step observe source calls = 0 ↔
      Along step (fun state call next => observe state call next = 0) source calls) := by
  induction calls generalizing source with
  | nil => exact ⟨le_rfl, iff_of_true rfl trivial⟩
  | cons call rest ih =>
    cases stepped : step source call with
    | ok middle =>
      have here := nonneg source call middle stepped
      obtain ⟨later, zero⟩ := @ih middle
      rw [total_cons_of_ok stepped, along_cons_of_ok stepped, add_eq_zero_iff_of_nonneg here later, zero]
      exact ⟨add_nonneg here later, Iff.rfl⟩
    | error reason =>
      have failed : total step observe source (call :: rest) = 0 := by simp only [total, stepped]
      refine ⟨failed.ge, iff_of_true failed fun next other => ?_⟩
      rw [stepped] at other
      cases other

/-- A condition on calls alone holds along a successful run when it holds of all its calls. -/
theorem along_call_iff {C : ι → Prop} {source target : σ} {calls : List ι}
    (success : run step source calls = .ok target) :
    Along step (fun _ call _ => C call) source calls ↔ ∀ call ∈ calls, C call := by
  induction calls generalizing source with
  | nil => simp [Along]
  | cons call rest ih =>
    obtain ⟨middle, stepped, suffix⟩ := run_cons_ok.mp success
    rw [along_cons_of_ok stepped, ih suffix, List.forall_mem_cons]

/-- An invariant that allowed calls preserve in steps with a property holds after a run of such
steps. -/
theorem run_invariant_along {Allowed : ι → Prop} {Inv : σ → Prop} {P : σ → ι → σ → Prop}
    {source target : σ} {calls : List ι} (preserved : ∀ state call next, Allowed call →
      P state call next → Inv state → step state call = .ok next → Inv next)
    (allowed : ∀ call ∈ calls, Allowed call) (along : Along step P source calls) (start : Inv source)
    (success : run step source calls = .ok target) : Inv target := by
  induction calls generalizing source with
  | nil => exact run_nil_ok.mp success ▸ start
  | cons call rest ih =>
    obtain ⟨middle, stepped, suffix⟩ := run_cons_ok.mp success
    obtain ⟨holds, later⟩ := (along_cons_of_ok stepped).mp along
    have here := preserved source call middle (allowed call (List.mem_cons_self ..)) holds start stepped
    exact ih (fun other member => allowed other (List.mem_cons_of_mem _ member)) later here suffix

/-- What a marked call brings about and no later call undoes holds after every run that makes such a call. -/
theorem run_establishes {Allowed Marked : ι → Prop} {Inv Goal : σ → Prop} {P : σ → ι → σ → Prop}
    {source target : σ} {calls : List ι} (preserved : ∀ state call next, Allowed call →
      P state call next → Inv state → step state call = .ok next →
      Inv next ∧ (Marked call ∨ Goal state → Goal next))
    (allowed : ∀ call ∈ calls, Allowed call) (along : Along step P source calls) (start : Inv source)
    (marked : ∃ call ∈ calls, Marked call) (success : run step source calls = .ok target) : Goal target := by
  induction calls generalizing source with
  | nil => simp at marked
  | cons call rest ih =>
    obtain ⟨middle, stepped, suffix⟩ := run_cons_ok.mp success
    obtain ⟨holds, later⟩ := (along_cons_of_ok stepped).mp along
    obtain ⟨inv, reaches⟩ := preserved source call middle (allowed call (List.mem_cons_self ..)) holds start stepped
    have remaining (other : ι) (member : other ∈ rest) : Allowed other := allowed other (List.mem_cons_of_mem _ member)
    obtain ⟨mark, member, isMarked⟩ := marked
    obtain rfl | member := List.mem_cons.mp member
    · have both (state : σ) (other : ι) (next : σ) (permitted : Allowed other) (holds : P state other next)
          (kept : Inv state ∧ Goal state) (stepped : step state other = .ok next) : Inv next ∧ Goal next := by
        obtain ⟨inv, goal⟩ := preserved state other next permitted holds kept.1 stepped
        exact ⟨inv, goal (.inr kept.2)⟩
      exact (run_invariant_along both remaining later ⟨inv, reaches (.inl isMarked)⟩ suffix).2
    · exact ih remaining later inv ⟨mark, member, isMarked⟩ suffix

/-- A quantity that no step with a property raises by more than it observes rises by no more than the total over
a run of such steps. -/
theorem run_le_total {M : Type*} [AddCommMonoid M] [PartialOrder M] [IsOrderedAddMonoid M] {Inv : σ → Prop}
    {P : σ → ι → σ → Prop} {observe : σ → ι → σ → M} {φ : σ → M} {source target : σ} {calls : List ι}
    (change : ∀ state call next, P state call next → Inv state → step state call = .ok next →
      Inv next ∧ φ next ≤ φ state + observe state call next)
    (along : Along step P source calls) (start : Inv source) (success : run step source calls = .ok target) :
    φ target ≤ φ source + total step observe source calls := by
  induction calls generalizing source with
  | nil => simp [run_nil_ok.mp success, total]
  | cons call rest ih =>
    obtain ⟨middle, stepped, suffix⟩ := run_cons_ok.mp success
    obtain ⟨holds, later⟩ := (along_cons_of_ok stepped).mp along
    obtain ⟨inv, changed⟩ := change source call middle holds start stepped
    rw [total_cons_of_ok stepped, ← add_assoc]
    exact (ih later inv suffix).trans (add_le_add_left changed _)

/-- The same for a quantity that no step lowers by more than it observes. -/
theorem run_ge_total {M : Type*} [AddCommMonoid M] [PartialOrder M] [IsOrderedAddMonoid M] {Inv : σ → Prop}
    {P : σ → ι → σ → Prop} {observe : σ → ι → σ → M} {φ : σ → M} {source target : σ} {calls : List ι}
    (change : ∀ state call next, P state call next → Inv state → step state call = .ok next →
      Inv next ∧ φ state ≤ φ next + observe state call next)
    (along : Along step P source calls) (start : Inv source) (success : run step source calls = .ok target) :
    φ source ≤ φ target + total step observe source calls := by
  induction calls generalizing source with
  | nil => simp [run_nil_ok.mp success, total]
  | cons call rest ih =>
    obtain ⟨middle, stepped, suffix⟩ := run_cons_ok.mp success
    obtain ⟨holds, later⟩ := (along_cons_of_ok stepped).mp along
    obtain ⟨inv, changed⟩ := change source call middle holds start stepped
    rw [total_cons_of_ok stepped, add_comm (observe ..), ← add_assoc]
    exact changed.trans (add_le_add_left (ih later inv suffix) _)

/-- If an allowed step out of a good state has a property exactly when `Condition` holds of it, and such
steps end in good states, then all steps of a run have the property exactly when the condition holds of
them all. -/
theorem along_iff {Allowed : ι → Prop} {Inv Good : σ → Prop} {P Condition : σ → ι → σ → Prop}
    {source target : σ} {calls : List ι}
    (exact_step : ∀ state call next, Allowed call → Inv state → Good state → step state call = .ok next →
      Inv next ∧ (P state call next ↔ Condition state call next) ∧ (P state call next → Good next))
    (allowed : ∀ call ∈ calls, Allowed call) (inv : Inv source) (start : Good source)
    (success : run step source calls = .ok target) :
    Along step P source calls ↔ Along step Condition source calls := by
  induction calls generalizing source with
  | nil => exact Iff.rfl
  | cons call rest ih =>
    obtain ⟨middle, stepped, suffix⟩ := run_cons_ok.mp success
    obtain ⟨kept, here, good⟩ :=
      exact_step source call middle (allowed call (List.mem_cons_self ..)) inv start stepped
    rw [along_cons_of_ok stepped, along_cons_of_ok stepped, ← here]
    apply and_congr_right
    intro holds
    exact ih (fun other member => allowed other (List.mem_cons_of_mem _ member)) kept (good holds) suffix

/-- If an allowed step out of a good state ends in a good state exactly when `Condition` holds of it,
then all states of a run are good exactly when the condition holds of all its steps. -/
theorem along_good_iff {Allowed : ι → Prop} {Inv Good : σ → Prop} {Condition : σ → ι → σ → Prop}
    {source target : σ} {calls : List ι}
    (exact_step : ∀ state call next, Allowed call → Inv state → Good state →
      step state call = .ok next → Inv next ∧ (Good next ↔ Condition state call next))
    (allowed : ∀ call ∈ calls, Allowed call) (inv : Inv source) (start : Good source)
    (success : run step source calls = .ok target) :
    Along step (fun _ _ next => Good next) source calls ↔ Along step Condition source calls := by
  apply along_iff _ allowed inv start success
  intro state call next permitted inv good stepped
  obtain ⟨kept, exact⟩ := exact_step state call next permitted inv good stepped
  exact ⟨kept, exact, id⟩

/-- What every allowed step establishes from an invariant holds of all steps of a run. -/
theorem along_of_step {Allowed : ι → Prop} {Inv : σ → Prop} {P : σ → ι → σ → Prop} {source : σ}
    {calls : List ι} (each : ∀ state call next, Allowed call → Inv state →
      step state call = .ok next → Inv next ∧ P state call next)
    (allowed : ∀ call ∈ calls, Allowed call) (start : Inv source) : Along step P source calls := by
  induction calls generalizing source with
  | nil => exact trivial
  | cons call rest ih =>
    intro next stepped
    obtain ⟨preserved, holds⟩ :=
      each source call next (allowed call (List.mem_cons_self ..)) start stepped
    exact ⟨holds, ih (fun other member => allowed other (List.mem_cons_of_mem _ member)) preserved⟩

/-! ### Simulation -/

/-- A concrete run is simulated by an abstract one when each of its steps is. -/
theorem run_simulates {τ κ δ : Type*} {astep : τ → κ → Except δ τ} (abstractCall : ι → κ)
    {R : σ → τ → Prop} {source target : σ} {spec : τ} {calls : List ι}
    (simulates : ∀ state call next abstract, R state abstract → step state call = .ok next →
      ∃ after, astep abstract (abstractCall call) = .ok after ∧ R next after)
    (related : R source spec) (success : run step source calls = .ok target) :
    ∃ after, run astep spec (calls.map abstractCall) = .ok after ∧ R target after := by
  induction calls generalizing source spec with
  | nil => exact ⟨spec, rfl, run_nil_ok.mp success ▸ related⟩
  | cons call rest ih =>
    obtain ⟨middle, stepped, suffix⟩ := run_cons_ok.mp success
    obtain ⟨between, matched, related⟩ := simulates source call middle spec related stepped
    obtain ⟨after, tail, final⟩ := ih related suffix
    exact ⟨after, run_cons_ok.mpr ⟨between, matched, tail⟩, final⟩

end Machine
