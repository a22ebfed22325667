import Mathlib.Algebra.Order.Monoid.Unbundled.MinMax
import Mathlib.Algebra.Order.Monoid.Canonical.Defs
import Mathlib.Algebra.Order.Sub.Basic
import Mathlib.Tactic

/-! # Token buckets, eager and lazy

An eager bucket gains its rate every second and is cut off at its cap at once, so its level never
exceeds its cap. A lazy bucket stores a level with the time it was computed for, and its stored
level may lie above its cap. `Lazy.bucket` reads the eager bucket off the lazy one; it commutes
with the passing of time and with every update made after a `sync`, which is what an
implementation that only stores a level and a timestamp has to establish.
-/

namespace TokenBucket

variable {α : Type*} [AddCommMonoid α] [LinearOrder α]

/-- A bucket whose level is cut off at its cap. -/
@[ext] structure Bucket (α : Type*) [LE α] where
  level : α
  cap : α
  rate : α
  level_le_cap : level ≤ cap

namespace Bucket

/-- A bucket at its cap. -/
@[simps] def full (cap rate : α) : Bucket α := ⟨cap, cap, rate, le_rfl⟩

/-- One second: the level grows by the rate and is cut off at the cap. -/
@[simps] def tick (b : Bucket α) : Bucket α where
  level := min (b.level + b.rate) b.cap
  cap := b.cap
  rate := b.rate
  level_le_cap := min_le_right ..

/-- Let a number of seconds pass, one at a time. -/
def wait (b : Bucket α) (seconds : ℕ) : Bucket α := tick^[seconds] b

/-- Take from the level. -/
@[simps] def drain [Sub α] [OrderedSub α] [CanonicallyOrderedAdd α] (b : Bucket α) (amount : α) : Bucket α where
  level := b.level - amount
  cap := b.cap
  rate := b.rate
  level_le_cap := tsub_le_self.trans b.level_le_cap

/-- Add to the level, up to the cap. -/
@[simps] def refill (b : Bucket α) (amount : α) : Bucket α where
  level := min (b.level + amount) b.cap
  cap := b.cap
  rate := b.rate
  level_le_cap := min_le_right ..

/-- Change the rate and keep the level. -/
@[simps] def setRate (b : Bucket α) (rate : α) : Bucket α := { b with rate }

/-- Change the cap and cut the level off at the new one. -/
@[simps] def setCap (b : Bucket α) (cap : α) : Bucket α where
  level := min b.level cap
  cap := cap
  rate := b.rate
  level_le_cap := min_le_right ..

@[simp] theorem drain_zero [Sub α] [OrderedSub α] [CanonicallyOrderedAdd α] (b : Bucket α) : b.drain 0 = b :=
  Bucket.ext (tsub_zero _) rfl rfl

theorem refill_level_le (b : Bucket α) (amount : α) : (b.refill amount).level ≤ b.level + amount :=
  min_le_left ..

@[simp] theorem wait_zero (b : Bucket α) : b.wait 0 = b := rfl

theorem wait_succ (b : Bucket α) (seconds : ℕ) : b.wait (seconds + 1) = (b.wait seconds).tick :=
  Function.iterate_succ_apply' ..

theorem wait_cap_rate (b : Bucket α) (seconds : ℕ) :
    (b.wait seconds).cap = b.cap ∧ (b.wait seconds).rate = b.rate := by
  induction seconds with
  | zero => exact ⟨rfl, rfl⟩
  | succ n ih => rw [wait_succ]; exact ih

section Level

variable [IsOrderedAddMonoid α] [CanonicallyOrderedAdd α]

/-- Cutting off before a gain or after it makes no difference to what is cut off in the end. -/
theorem min_add_min (a gain cap : α) : min (min a cap + gain) cap = min (a + gain) cap := by
  rw [← min_add_add_right, min_assoc, min_eq_right (le_self_add : cap ≤ cap + gain)]

/-- The closed form of waiting: only the total gain is cut off. -/
theorem wait_level (b : Bucket α) (seconds : ℕ) :
    (b.wait seconds).level = min (b.level + seconds • b.rate) b.cap := by
  induction seconds with
  | zero => simp [b.level_le_cap]
  | succ n ih =>
    obtain ⟨cap, rate⟩ := b.wait_cap_rate n
    rw [wait_succ, tick_level, ih, cap, rate, min_add_min, succ_nsmul, add_assoc]

/-- Waiting adds at most the rate for every second. -/
theorem wait_level_le (b : Bucket α) (seconds : ℕ) :
    (b.wait seconds).level ≤ b.level + seconds • b.rate :=
  (b.wait_level seconds).trans_le (min_le_left ..)

omit [IsOrderedAddMonoid α] in
/-- Refilling a full bucket changes nothing. -/
theorem refill_of_full {b : Bucket α} (full : b.level = b.cap) (amount : α) : b.refill amount = b := by
  refine Bucket.ext ?_ rfl rfl
  rw [refill_level, full, min_eq_right le_self_add]

end Level

/-! ### Draining as much as there is -/

section Greedy

/-- One bucket has paid out no less than another, and what it still holds does not fall behind what it paid out
in advance. -/
structure Ahead (b c : Bucket α) (spent other : α) : Prop where
  cap : c.cap = b.cap
  rate : c.rate = b.rate
  reserve : c.level + other ≤ b.level + spent
  spent : other ≤ spent

namespace Ahead

variable {b c : Bucket α} {spent other : α}

theorem refl (b : Bucket α) (spent : α) : Ahead b b spent spent := ⟨rfl, rfl, le_rfl, le_rfl⟩

theorem setRate (ahead : Ahead b c spent other) (rate : α) : Ahead (b.setRate rate) (c.setRate rate) spent other :=
  ⟨ahead.cap, rfl, ahead.reserve, ahead.spent⟩

variable [IsOrderedAddMonoid α]

/-- Cutting both levels off at one cap, after the same gain, keeps the order. -/
theorem min_add_le (ahead : Ahead b c spent other) (gain cap : α) :
    min (c.level + gain) cap + other ≤ min (b.level + gain) cap + spent := by
  rw [← min_add_add_right (b.level + gain)]
  apply le_min
  · calc
      min (c.level + gain) cap + other ≤ c.level + gain + other := add_le_add_left (min_le_left ..) _
      _ = c.level + other + gain := add_right_comm ..
      _ ≤ b.level + spent + gain := add_le_add_left ahead.reserve _
      _ = b.level + gain + spent := add_right_comm ..
  · exact add_le_add (min_le_right ..) ahead.spent

theorem tick (ahead : Ahead b c spent other) : Ahead b.tick c.tick spent other := by
  refine ⟨ahead.cap, ahead.rate, ?_, ahead.spent⟩
  rw [tick_level, tick_level, ahead.cap, ahead.rate]
  exact ahead.min_add_le b.rate b.cap

theorem wait (ahead : Ahead b c spent other) (seconds : ℕ) : Ahead (b.wait seconds) (c.wait seconds) spent other := by
  induction seconds with
  | zero => exact ahead
  | succ n ih =>
    rw [wait_succ, wait_succ]
    exact ih.tick

theorem setCap (ahead : Ahead b c spent other) (cap : α) : Ahead (b.setCap cap) (c.setCap cap) spent other := by
  refine ⟨rfl, ahead.rate, ?_, ahead.spent⟩
  rw [setCap_level, setCap_level]
  simpa only [add_zero] using ahead.min_add_le 0 cap

variable [CanonicallyOrderedAdd α] [Sub α] [OrderedSub α]

/-- Draining all that is asked for, as far as it is there, stays ahead of draining any part of it. -/
theorem drain (ahead : Ahead b c spent other) {demand taken : α} (less : taken ≤ demand) (covered : taken ≤ c.level) :
    Ahead (b.drain (min demand b.level)) (c.drain taken) (spent + min demand b.level) (other + taken) := by
  refine ⟨ahead.cap, ahead.rate, ?_, ?_⟩
  · rw [drain_level, drain_level, add_comm other, ← add_assoc, tsub_add_cancel_of_le covered, add_comm spent,
      ← add_assoc, tsub_add_cancel_of_le (min_le_right ..)]
    exact ahead.reserve
  · obtain short | short := le_total demand b.level
    · rw [min_eq_left short]
      exact add_le_add ahead.spent less
    · rw [min_eq_right short]
      calc
        other + taken ≤ other + c.level := add_le_add_right covered _
        _ ≤ spent + b.level := by
            rw [add_comm other, add_comm spent]
            exact ahead.reserve

end Ahead

end Greedy

end Bucket

/-- A bucket kept as the level stored at an earlier time. -/
@[ext] structure Lazy (α : Type*) where
  stored : α
  cap : α
  rate : α
  since : ℕ

namespace Lazy

/-- The level at a later time. -/
def level (l : Lazy α) (now : ℕ) : α := min (l.stored + (now - l.since) • l.rate) l.cap

/-- The eager bucket a lazy one stands for at a given time. -/
@[simps] def bucket (l : Lazy α) (now : ℕ) : Bucket α where
  level := l.level now
  cap := l.cap
  rate := l.rate
  level_le_cap := min_le_right ..

/-- Store a level computed for the present. -/
@[simps] def store (l : Lazy α) (now : ℕ) (stored : α) : Lazy α := { l with stored, since := now }

/-- Store the present level. -/
def sync (l : Lazy α) (now : ℕ) : Lazy α := l.store now (l.level now)

@[simp] theorem level_store (l : Lazy α) (now : ℕ) (stored : α) :
    (l.store now stored).level now = min stored l.cap := by simp [level, store]

theorem level_le_cap (l : Lazy α) (now : ℕ) : l.level now ≤ l.cap := min_le_right ..

/-- Storing what is left is draining the eager bucket. -/
theorem bucket_store_drain [Sub α] [OrderedSub α] [CanonicallyOrderedAdd α] (l : Lazy α) (now : ℕ)
    (amount : α) : (l.store now (l.level now - amount)).bucket now = (l.bucket now).drain amount := by
  refine Bucket.ext ?_ rfl rfl
  rw [bucket_level, level_store, min_eq_left (tsub_le_self.trans (l.level_le_cap now))]
  rfl

theorem bucket_store_refill (l : Lazy α) (now : ℕ) (amount : α) :
    (l.store now (min (l.level now + amount) l.cap)).bucket now = (l.bucket now).refill amount := by
  refine Bucket.ext ?_ rfl rfl
  rw [bucket_level, level_store, min_assoc, min_self]
  rfl

theorem bucket_setRate (l : Lazy α) (now : ℕ) (rate : α) :
    ({ l.sync now with rate } : Lazy α).bucket now = (l.bucket now).setRate rate := by
  refine Bucket.ext ?_ rfl rfl
  simp [level, sync]

/-- A cap set after a sync cuts the level off, whatever was stored before. -/
theorem bucket_setCap (l : Lazy α) (now : ℕ) (cap : α) :
    ({ l.sync now with cap } : Lazy α).bucket now = (l.bucket now).setCap cap := by
  refine Bucket.ext ?_ rfl rfl
  simp [level, sync]

/-- The lazy bucket needs no update while time passes. -/
theorem bucket_wait [IsOrderedAddMonoid α] [CanonicallyOrderedAdd α] (l : Lazy α) {now : ℕ}
    (past : l.since ≤ now) (seconds : ℕ) :
    l.bucket (now + seconds) = (l.bucket now).wait seconds := by
  obtain ⟨cap, rate⟩ := (l.bucket now).wait_cap_rate seconds
  refine Bucket.ext ?_ cap.symm rate.symm
  have split : now + seconds - l.since = (now - l.since) + seconds := by omega
  rw [Bucket.wait_level]
  simp only [bucket_level, bucket_cap, bucket_rate, level, Bucket.min_add_min, split, add_nsmul,
    add_assoc]

/-- While nothing is stored, the level gains at most the rate for every second. -/
theorem level_wait_le [IsOrderedAddMonoid α] [CanonicallyOrderedAdd α] (l : Lazy α) {now : ℕ}
    (past : l.since ≤ now) (seconds : ℕ) : l.level (now + seconds) ≤ l.level now + seconds • l.rate := by
  have waited := congrArg Bucket.level (l.bucket_wait past seconds)
  exact waited.trans_le ((l.bucket now).wait_level_le seconds)

/-! ### What a lazy bucket pays out -/

/-- The level was stored in the past, and the rate does not exceed a maximum. -/
structure Within (l : Lazy ℕ) (maximum now : ℕ) : Prop where
  past : l.since ≤ now
  rate : l.rate ≤ maximum

theorem Within.wait {l : Lazy ℕ} {maximum now : ℕ} (within : l.Within maximum now) (seconds : ℕ) :
    l.Within maximum (now + seconds) :=
  ⟨within.past.trans (Nat.le_add_right ..), within.rate⟩

/-- The level, less the most that time can have added to it. -/
def credit (R : Type*) [Ring R] (l : Lazy ℕ) (maximum now : ℕ) : R := l.level now - maximum * now

section Credit

variable {R : Type*} [CommRing R] [LinearOrder R] [IsStrictOrderedRing R] {l written : Lazy ℕ} {maximum now : ℕ}

/-- Time adds no more than the maximum. -/
theorem Within.credit_wait (within : l.Within maximum now) (seconds : ℕ) :
    l.credit R maximum (now + seconds) ≤ l.credit R maximum now := by
  have gain : l.level (now + seconds) ≤ l.level now + seconds * maximum :=
    (l.level_wait_le within.past seconds).trans (Nat.add_le_add_left (Nat.mul_le_mul_left seconds within.rate) _)
  have raised : (l.level (now + seconds) : R) ≤ l.level now + seconds * maximum := by exact_mod_cast gain
  rw [credit, credit, Nat.cast_add]
  linarith

/-- A bucket written at the present time pays for what is spent if its level does, with what is gained. -/
theorem pays_of_bucket {b : Bucket ℕ} {spent gained : R} (stored : written.since ≤ now) (same : written.bucket now = b)
    (rate : b.rate ≤ maximum) (paid : (b.level : R) + spent ≤ l.level now + gained) :
    written.Within maximum now ∧ written.credit R maximum now + spent ≤ l.credit R maximum now + gained := by
  subst same
  refine ⟨⟨stored, rate⟩, ?_⟩
  rw [credit, credit]
  change (written.level now : R) + spent ≤ _ at paid
  linarith

/-- What is spent over a time comes out of the level and what the time adds. -/
theorem le_of_credit {spent gained : R} {later : ℕ} (paid : written.credit R maximum later + spent ≤
    l.credit R maximum now + gained) : spent ≤ l.level now + maximum * ((later : R) - now) + gained := by
  have left : (0 : R) ≤ written.level later := Nat.cast_nonneg _
  rw [credit, credit] at paid
  linarith

end Credit

end Lazy

end TokenBucket
