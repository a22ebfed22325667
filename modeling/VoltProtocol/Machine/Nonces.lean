import Mathlib.Data.List.Nodup
import Mathlib.Data.List.Range
import VoltProtocol.Machine.History

/-! # Notes numbered by counters

A machine that keeps a counter for each owner may number its notes: a step that takes a note gives it
the owner's counter and raises that by one. The notes of one owner then carry the numbers from zero on
in order, so an owner and a number name one note of a run.
-/

namespace Machine

variable {κ β : Type*} [DecidableEq κ] {owner : β → κ} {number : β → ℕ} {log : List β} {counter : κ → ℕ}

/-- The notes of each owner carry the numbers below its counter, in order. -/
def Numbered (owner : β → κ) (number : β → ℕ) (counter : κ → ℕ) (log : List β) : Prop :=
  ∀ key, (log.filter (owner · = key)).map number = List.range (counter key)

namespace Numbered

theorem nil (fresh : ∀ key, counter key = 0) : Numbered owner number counter [] := by
  intro key
  rw [fresh key]
  rfl

/-- A note with its owner's next number. -/
theorem concat {note : β} (numbered : Numbered owner number counter log)
    (next : number note = counter (owner note)) :
    Numbered owner number (Function.update counter (owner note) (counter (owner note) + 1))
      (log ++ [note]) := by
  intro key
  rw [List.filter_append, List.map_append, numbered key]
  by_cases own : owner note = key
  · subst own
    rw [Function.update_self, List.filter_singleton, decide_eq_true rfl, List.range_succ, ← next]
    rfl
  · rw [Function.update_of_ne (Ne.symm own), List.filter_singleton, decide_eq_false own]
    exact List.append_nil _

/-- No owner has two notes of one number. -/
theorem nodup (numbered : Numbered owner number counter log) :
    (log.map fun note => (owner note, number note)).Nodup := by
  have each (key : κ) : ((log.filter (owner · = key)).map number).Nodup := by
    rw [numbered key]
    exact List.nodup_range
  clear numbered
  induction log with
  | nil => exact List.nodup_nil
  | cons note rest ih =>
    rw [List.map_cons, List.nodup_cons]
    constructor
    · intro again
      obtain ⟨other, member, same⟩ := List.mem_map.mp again
      obtain ⟨owned, equal⟩ := Prod.mk.inj same
      have own := each (owner note)
      rw [List.filter_cons_of_pos (by simp), List.map_cons, List.nodup_cons] at own
      exact own.1 (List.mem_map.mpr ⟨other, List.mem_filter.mpr ⟨member, decide_eq_true owned⟩, equal⟩)
    · apply ih
      intro key
      exact (each key).sublist ((List.sublist_cons_self note rest).filter _ |>.map number)

end Numbered

variable {σ ι ε : Type*} {step : σ → ι → Except ε σ}

/-- Notes that every step numbers are numbered after the whole run. -/
theorem noted_numbered {observe : σ → ι → Option β} (count : σ → κ → ℕ) {source : σ} {calls : List ι}
    (quiet : ∀ state call next, step state call = .ok next → observe state call = none →
      count next = count state)
    (counted : ∀ state call next note, step state call = .ok next → observe state call = some note →
      number note = count state (owner note) ∧
        count next = Function.update (count state) (owner note) (count state (owner note) + 1))
    (fresh : ∀ key, count source key = 0) :
    Numbered owner number (count (attempts step source calls)) (noted step observe source calls) := by
  have kept (state : σ) (log : List β) (call : ι) (next : σ) (_ : True)
      (numbered : Numbered owner number (count state) log) (stepped : step state call = .ok next) :
      Numbered owner number (count next) (log ++ (observe state call).toList) := by
    cases taken : observe state call with
    | none =>
      rw [quiet state call next stepped taken, Option.toList_none, List.append_nil]
      exact numbered
    | some note =>
      obtain ⟨number, raised⟩ := counted state call next note stepped taken
      rw [raised]
      exact numbered.concat number
  exact noted_invariant kept (fun _ _ => trivial) (.nil fresh)

end Machine
