import Mathlib.Order.Interval.Set.Basic
import Mathlib.Order.Monotone.Defs
import Mathlib.Tactic

/-! # Timelines

A timeline is a list of values with the times they were set, in the order of the times. Its value at a
time is the one set last, up to that time.
-/

namespace Timeline

variable {α : Type*}

/-- The value at a time on a timeline of `n` entries. -/
def lookup (times : ℕ → ℕ) (values : ℕ → α) (initial : α) (time : ℕ) : ℕ → α
  | 0 => initial
  | n + 1 => if times n ≤ time then values n else lookup times values initial time n

variable {times times' : ℕ → ℕ} {values values' : ℕ → α} {initial : α} {time n i : ℕ}

theorem lookup_succ_of_le (early : times n ≤ time) :
    lookup times values initial time (n + 1) = values n := by
  rw [lookup, if_pos early]

theorem lookup_succ_of_lt (late : time < times n) :
    lookup times values initial time (n + 1) = lookup times values initial time n := by
  rw [lookup, if_neg (by omega)]

/-- Before the first entry. -/
theorem lookup_of_lt (late : ∀ j < n, time < times j) : lookup times values initial time n = initial := by
  induction n with
  | zero => rfl
  | succ n ih =>
    rw [lookup_succ_of_lt (late n (Nat.lt_succ_self n))]
    exact ih fun j below => late j (by omega)

/-- Between one entry and the next. -/
theorem lookup_of_between (below : i < n) (early : times i ≤ time)
    (late : ∀ j < n, i < j → time < times j) : lookup times values initial time n = values i := by
  induction n with
  | zero => omega
  | succ n ih =>
    rcases Nat.lt_or_eq_of_le (Nat.le_of_lt_succ below) with earlier | rfl
    · rw [lookup_succ_of_lt (late n (Nat.lt_succ_self n) earlier)]
      exact ih earlier fun j within => late j (by omega)
    · exact lookup_succ_of_le early

/-- Entries set later than a time do not matter at that time. -/
theorem lookup_congr (same : ∀ j < n, times' j = times j)
    (agree : ∀ j < n, times j ≤ time → values' j = values j) :
    lookup times' values' initial time n = lookup times values initial time n := by
  induction n with
  | zero => rfl
  | succ n ih =>
    rw [lookup, lookup, same n (Nat.lt_succ_self n)]
    split_ifs with early
    · exact agree n (Nat.lt_succ_self n) early
    · exact ih (fun j below => same j (by omega)) fun j below => agree j (by omega)

/-- A new entry, set later than all others. -/
theorem strictMonoOn_update (increasing : StrictMonoOn times (Set.Iio n)) {last : ℕ}
    (latest : ∀ j < n, times j < last) :
    StrictMonoOn (Function.update times n last) (Set.Iio (n + 1)) := by
  intro i _ j within order
  have below : i < n := by
    have bound := Set.mem_Iio.mp within
    omega
  rw [Function.update_of_ne below.ne]
  rcases Nat.lt_or_eq_of_le (Nat.le_of_lt_succ (Set.mem_Iio.mp within)) with earlier | rfl
  · rw [Function.update_of_ne earlier.ne]
    exact increasing below earlier order
  · rw [Function.update_self]
    exact latest i below

end Timeline
