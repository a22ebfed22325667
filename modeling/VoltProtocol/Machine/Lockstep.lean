import VoltProtocol.Machine.History

/-! # Computations and machines in lockstep

Two fallible computations are in lockstep when they fail together or succeed with related results;
errors need not be the same. Composition keeps lockstep, so a simulation between two programs can be
proved statement by statement, and two machines whose steps are in lockstep stay related while the
same calls are tried on both.
-/

namespace Machine

universe u v

/-- Both computations fail, or both succeed with related results. -/
inductive Lockstep {ε δ : Type*} {α : Type u} {β : Type v} (R : α → β → Prop) :
    Except ε α → Except δ β → Prop
  | ok {a b} (related : R a b) : Lockstep R (.ok a) (.ok b)
  | error {e d} : Lockstep R (.error e) (.error d)

namespace Lockstep

variable {ε δ : Type*} {α α' : Type u} {β β' : Type v} {R : α → β → Prop} {S : α' → β' → Prop}
  {x : Except ε α} {y : Except δ β} {f : α → Except ε α'} {g : β → Except δ β'}

/-- A computation is in lockstep with itself. -/
theorem refl (x : Except ε α) : Lockstep (fun a b => x = .ok a ∧ a = b) x x := by
  cases x with
  | ok a => exact .ok ⟨rfl, rfl⟩
  | error reason => exact .error

theorem pure {a : α} {b : β} (related : R a b) :
    Lockstep R (Pure.pure a : Except ε α) (Pure.pure b : Except δ β) := .ok related

theorem bind (first : Lockstep R x y) (next : ∀ a b, R a b → Lockstep S (f a) (g b)) :
    Lockstep S (x >>= f) (y >>= g) := by
  cases first with
  | ok related => exact next _ _ related
  | error => exact .error

/-- A statement that only the second computation has, and that succeeds. -/
theorem bind_right {b : β} {x : Except ε α'} (success : y = .ok b) (next : Lockstep S x (g b)) :
    Lockstep S x (y >>= g) := by
  rw [success]
  exact next

theorem map {h : α → α'} {k : β → β'} (first : Lockstep R x y) (keep : ∀ a b, R a b → S (h a) (k b)) :
    Lockstep S (x.map h) (y.map k) := by
  cases first with
  | ok related => exact .ok (keep _ _ related)
  | error => exact .error

/-- Success of one computation is success of the other. -/
theorem ok_iff (lockstep : Lockstep R x y) : (∃ a, x = .ok a) ↔ ∃ b, y = .ok b := by
  cases lockstep <;> simp

end Lockstep

variable {σ τ ι ε δ : Type*} {step : σ → ι → Except ε σ} {other : τ → ι → Except δ τ} {R : σ → τ → Prop}

theorem attempt_lockstep {s : σ} {t : τ} {call : ι} (related : R s t)
    (lockstep : Lockstep R (step s call) (other t call)) : R (attempt step s call) (attempt other t call) := by
  rw [attempt, attempt]
  generalize step s call = x at lockstep ⊢
  generalize other t call = y at lockstep ⊢
  cases lockstep with
  | ok after => exact after
  | error => exact related

/-- Trying calls does not leave a region that no call leads back into. -/
theorem within_of_attempts {Within : τ → Prop}
    (back : ∀ t call, Within (attempt other t call) → Within t) {t : τ} {calls : List ι}
    (within : Within (attempts other t calls)) : Within t := by
  induction calls generalizing t with
  | nil => exact within
  | cons call rest ih => exact back t call (ih within)

/-- Machines whose steps are in lockstep, while the second stays within a region, stay related. -/
theorem attempts_lockstep {Allowed : ι → Prop} {Within : τ → Prop}
    (back : ∀ t call, Within (attempt other t call) → Within t)
    (each : ∀ s t call, Allowed call → Within t → R s t → Lockstep R (step s call) (other t call))
    {s : σ} {t : τ} {calls : List ι} (related : R s t) (allowed : ∀ call ∈ calls, Allowed call)
    (within : Within (attempts other t calls)) : R (attempts step s calls) (attempts other t calls) := by
  induction calls generalizing s t with
  | nil => exact related
  | cons call rest ih =>
    have here := each s t call (allowed call (List.mem_cons_self ..)) (within_of_attempts back within) related
    exact ih (attempt_lockstep related here) (fun later member => allowed later (List.mem_cons_of_mem _ member))
      within

end Machine
