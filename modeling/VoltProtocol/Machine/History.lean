import VoltProtocol.Machine.Run

/-! # Transactions that may fail, and what a run was like at a past time

A transaction that fails leaves the state as it was, so any sequence of transactions has the effect of
the run of those that succeeded. A machine that keeps time may also keep a record of the past; the
record is exact when each step leaves it alone for the times that are over, and reads the present
for the times that are not.
-/

namespace Machine

variable {σ ι ε : Type*} {step : σ → ι → Except ε σ}

/-! ### Transactions -/

/-- Try a call; a failure undoes it. -/
def attempt (step : σ → ι → Except ε σ) (state : σ) (call : ι) : σ :=
  match step state call with
  | .ok next => next
  | .error _ => state

/-- Try all calls in order. -/
def attempts (step : σ → ι → Except ε σ) : σ → List ι → σ
  | state, [] => state
  | state, call :: rest => attempts step (attempt step state call) rest

/-- The calls that succeed when all are tried in order. -/
def succeeded (step : σ → ι → Except ε σ) : σ → List ι → List ι
  | _, [] => []
  | state, call :: rest =>
    match step state call with
    | .ok next => call :: succeeded step next rest
    | .error _ => succeeded step state rest

theorem attempt_of_ok {state next : σ} {call : ι} (stepped : step state call = .ok next) :
    attempt step state call = next := by
  rw [attempt, stepped]

theorem attempt_of_error {state : σ} {call : ι} {reason : ε} (failed : step state call = .error reason) :
    attempt step state call = state := by
  rw [attempt, failed]

/-- An invariant that allowed calls preserve when they succeed holds after trying any of them. -/
theorem attempts_invariant {Allowed : ι → Prop} {Inv : σ → Prop} {source : σ} {calls : List ι}
    (preserved : ∀ state call next, Allowed call → Inv state → step state call = .ok next → Inv next)
    (allowed : ∀ call ∈ calls, Allowed call) (start : Inv source) : Inv (attempts step source calls) := by
  induction calls generalizing source with
  | nil => exact start
  | cons call rest ih =>
    apply ih fun other member => allowed other (List.mem_cons_of_mem _ member)
    cases stepped : step source call with
    | ok next =>
      rw [attempt_of_ok stepped]
      exact preserved source call next (allowed call (List.mem_cons_self ..)) start stepped
    | error reason =>
      rw [attempt_of_error stepped]
      exact start

theorem attempts_append (state : σ) (first second : List ι) :
    attempts step state (first ++ second) = attempts step (attempts step state first) second := by
  induction first generalizing state with
  | nil => rfl
  | cons call rest ih => exact ih (attempt step state call)

/-- Trying calls runs those that succeed. -/
theorem run_succeeded (state : σ) (calls : List ι) :
    run step state (succeeded step state calls) = .ok (attempts step state calls) := by
  induction calls generalizing state with
  | nil => rfl
  | cons call rest ih =>
    cases stepped : step state call with
    | ok next =>
      rw [succeeded, stepped, attempts, attempt_of_ok stepped]
      exact run_cons_ok.mpr ⟨next, stepped, ih next⟩
    | error reason =>
      rw [succeeded, stepped, attempts, attempt_of_error stepped]
      exact ih state

/-! ### Notes taken on the way -/

/-- What `observe` reads off the calls that succeed when all are tried in order. -/
def noted {β : Type*} (step : σ → ι → Except ε σ) (observe : σ → ι → Option β) : σ → List ι → List β
  | _, [] => []
  | state, call :: rest =>
    match step state call with
    | .ok next => (observe state call).toList ++ noted step observe next rest
    | .error _ => noted step observe state rest

theorem noted_append {β : Type*} {observe : σ → ι → Option β} (state : σ) (first second : List ι) :
    noted step observe state (first ++ second) =
      noted step observe state first ++ noted step observe (attempts step state first) second := by
  induction first generalizing state with
  | nil => rfl
  | cons call rest ih =>
    rw [List.cons_append, noted, noted, attempts]
    cases stepped : step state call with
    | ok next =>
      rw [attempt_of_ok stepped]
      simp only [ih, List.append_assoc]
    | error reason =>
      rw [attempt_of_error stepped]
      exact ih state

/-- A relation between the state and the notes so far, kept by every allowed call that succeeds, holds
between the final state and all notes, the earlier ones included, if only allowed calls succeed. -/
theorem noted_invariant_append {β : Type*} {observe : σ → ι → Option β} {Allowed : ι → Prop}
    {Inv : σ → List β → Prop} {source : σ} {prior : List β} {calls : List ι}
    (preserved : ∀ state log call next, Allowed call → Inv state log → step state call = .ok next →
      Inv next (log ++ (observe state call).toList))
    (allowed : ∀ call ∈ succeeded step source calls, Allowed call) (start : Inv source prior) :
    Inv (attempts step source calls) (prior ++ noted step observe source calls) := by
  induction calls generalizing source prior with
  | nil =>
    rw [noted, List.append_nil]
    exact start
  | cons call rest ih =>
    cases stepped : step source call with
    | ok next =>
      rw [succeeded, stepped] at allowed
      obtain ⟨here, later⟩ := List.forall_mem_cons.mp allowed
      rw [noted, stepped, attempts, attempt_of_ok stepped, ← List.append_assoc]
      exact ih later (preserved source prior call next here start stepped)
    | error reason =>
      rw [succeeded, stepped] at allowed
      rw [noted, stepped, attempts, attempt_of_error stepped]
      exact ih allowed start

/-- The same for the notes of the run alone. -/
theorem noted_invariant {β : Type*} {observe : σ → ι → Option β} {Allowed : ι → Prop}
    {Inv : σ → List β → Prop} {source : σ} {calls : List ι}
    (preserved : ∀ state log call next, Allowed call → Inv state log → step state call = .ok next →
      Inv next (log ++ (observe state call).toList))
    (allowed : ∀ call ∈ succeeded step source calls, Allowed call) (start : Inv source []) :
    Inv (attempts step source calls) (noted step observe source calls) :=
  noted_invariant_append preserved allowed start

/-- What every step says of its note, under an invariant, holds of all notes. -/
theorem forall_mem_noted {β : Type*} {observe : σ → ι → Option β} {Inv : σ → Prop} {P : β → Prop} {source : σ}
    {calls : List ι} (each : ∀ state call next, Inv state → step state call = .ok next →
      Inv next ∧ ∀ note, observe state call = some note → P note)
    (start : Inv source) : ∀ note ∈ noted step observe source calls, P note := by
  have kept (state : σ) (log : List β) (call : ι) (next : σ) (_ : True)
      (inv : Inv state ∧ ∀ note ∈ log, P note) (stepped : step state call = .ok next) :
      Inv next ∧ ∀ note ∈ log ++ (observe state call).toList, P note := by
    obtain ⟨after, fresh⟩ := each state call next inv.1 stepped
    refine ⟨after, fun note member => ?_⟩
    rcases List.mem_append.mp member with earlier | now
    · exact inv.2 note earlier
    · exact fresh note (Option.mem_toList.mp now)
  have none (note : β) (member : note ∈ []) : P note := by cases member
  exact (noted_invariant kept (fun _ _ => trivial) ⟨start, none⟩).2

/-! ### Records of the past -/

/-- The last state of a run with a property. -/
def latest (step : σ → ι → Except ε σ) (p : σ → Prop) [DecidablePred p] : σ → List ι → Option σ
  | state, [] => if p state then some state else none
  | state, call :: rest =>
    match step state call with
    | .ok next => (latest step p next rest).or (if p state then some state else none)
    | .error _ => if p state then some state else none

theorem latest_cons_of_ok {p : σ → Prop} [DecidablePred p] {source middle : σ} {call : ι} {rest : List ι}
    (stepped : step source call = .ok middle) : latest step p source (call :: rest) =
      (latest step p middle rest).or (if p source then some source else none) := by
  rw [latest, stepped]

/-- The state a run starts in counts. -/
theorem not_of_latest_eq_none {p : σ → Prop} [DecidablePred p] {source : σ} {calls : List ι}
    (none : latest step p source calls = none) : ¬ p source := by
  intro holds
  cases calls with
  | nil => simp [latest, holds] at none
  | cons call rest =>
    rw [latest] at none
    cases stepped : step source call <;> simp [stepped, holds] at none

/-- The last state of a run with a property has it, and splits the run in two. -/
theorem latest_spec {p : σ → Prop} [DecidablePred p] {source target state : σ} {calls : List ι}
    (success : run step source calls = .ok target) (found : latest step p source calls = some state) :
    p state ∧ ∃ before after, run step source before = .ok state ∧ run step state after = .ok target ∧
      calls = before ++ after := by
  have here {source : σ} {calls : List ι} (success : run step source calls = .ok target)
      (found : (if p source then some source else none) = some state) :
      p state ∧ ∃ before after, run step source before = .ok state ∧ run step state after = .ok target ∧
        calls = before ++ after := by
    split_ifs at found with holds
    obtain rfl := Option.some.inj found
    exact ⟨holds, [], calls, run_nil_ok.mpr rfl, success, rfl⟩
  induction calls generalizing source with
  | nil =>
    rw [latest] at found
    exact here success found
  | cons call rest ih =>
    obtain ⟨middle, stepped, suffix⟩ := run_cons_ok.mp success
    rw [latest_cons_of_ok stepped] at found
    cases later : latest step p middle rest with
    | none =>
      rw [later, Option.none_or] at found
      exact here success found
    | some last =>
      rw [later, Option.some_or, Option.some.injEq] at found
      subst found
      obtain ⟨holds, before, after, prior, onward, split⟩ := ih suffix later
      exact ⟨holds, call :: before, after, run_cons_ok.mpr ⟨middle, stepped, prior⟩, onward, by rw [split]; rfl⟩

/-- A record that each step leaves alone for all times that are over reads, at such a time, what was
current in the last state not after it, or what it read at first if there is none. -/
theorem recorded_eq_latest {β : Type*} {Inv : σ → Prop} {now : σ → ℕ} {current : σ → β}
    {recorded : σ → ℕ → β} {source target : σ} {calls : List ι} {time : ℕ}
    (preserved : ∀ state call next, Inv state → step state call = .ok next → Inv next)
    (kept : ∀ state call next, Inv state → step state call = .ok next →
      ∀ time < now next, recorded next time = recorded state time)
    (present : ∀ state, Inv state → ∀ time, now state ≤ time → recorded state time = current state)
    (start : Inv source) (success : run step source calls = .ok target) (past : time < now target) :
    recorded target time =
      (latest step (fun state => now state ≤ time) source calls).elim (recorded source time) current := by
  induction calls generalizing source with
  | nil =>
    obtain rfl := run_nil_ok.mp success
    rw [latest, if_neg (by omega), Option.elim_none]
  | cons call rest ih =>
    obtain ⟨middle, stepped, suffix⟩ := run_cons_ok.mp success
    rw [ih (preserved source call middle start stepped) suffix, latest_cons_of_ok stepped]
    cases later : latest step (fun state => now state ≤ time) middle rest with
    | some state => rfl
    | none =>
      have before := not_of_latest_eq_none later
      rw [Option.elim_none, Option.none_or, kept source call middle start stepped time (by omega)]
      split_ifs with early
      · exact present source start time early
      · rfl

end Machine
