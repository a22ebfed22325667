import VoltProtocol.Machine.Run
import VoltProtocol.Model.RateLimitedV2

/-! # RateLimitedV2 refines an eager token bucket

The machine below makes every call a contract built on RateLimitedV2 can make, at timestamps that
never decrease. Its storage is related to an eager bucket by reading the lazy bucket at the
present time; each call keeps the relation, so after any run of successful calls `buffer()` is
the level of the eager bucket.
-/

namespace VoltProtocol.LimiterRefinement

open Machine TokenBucket

/-- The calls to a rate limiter, and the passing of time. -/
inductive Call where
  | wait (seconds : ℕ)
  | depleteBuffer (amount : ℕ)
  | replenishBuffer (amount : ℕ)
  | setRateLimitPerSecond (ctx : Context) (newRateLimitPerSecond : Uint 128)
  | setBufferCap (ctx : Context) (newBufferCap : Uint 128)

/-- A rate limiter and the timestamp of the current block. -/
structure State where
  now : ℕ
  limiter : RateLimitedV2
deriving DecidableEq

def step (s : State) : Call → Except Revert State
  | .wait seconds => .ok { s with now := s.now + seconds }
  | .depleteBuffer amount => (s.limiter.depleteBuffer s.now amount).map fun l => { s with limiter := l }
  | .replenishBuffer amount =>
    (s.limiter.replenishBuffer s.now amount).map fun l => { s with limiter := l }
  | .setRateLimitPerSecond ctx rate =>
    (s.limiter.setRateLimitPerSecond ctx s.now rate).map fun l => { s with limiter := l }
  | .setBufferCap ctx cap =>
    (s.limiter.setBufferCap ctx s.now cap).map fun l => { s with limiter := l }

/-- What the calls mean for an eager bucket. A depletion needs a level that is not zero, even to
take nothing. -/
def eagerStep (b : Bucket ℕ) : Call → Except Unit (Bucket ℕ)
  | .wait seconds => .ok (b.wait seconds)
  | .depleteBuffer amount => if b.level ≠ 0 ∧ amount ≤ b.level then .ok (b.drain amount) else .error ()
  | .replenishBuffer amount => .ok (b.refill amount)
  | .setRateLimitPerSecond _ rate => .ok (b.setRate rate.val)
  | .setBufferCap _ cap => .ok (b.setCap cap.val)

/-- The storage, read at the present time, is the eager bucket. -/
def Represents (s : State) (b : Bucket ℕ) : Prop :=
  s.limiter.lastBufferUsedTime.val ≤ s.now ∧ s.limiter.bucket s.now = b

theorem step_represents {s t : State} {call : Call} {b : Bucket ℕ} (related : Represents s b)
    (success : step s call = .ok t) : ∃ after, eagerStep b call = .ok after ∧ Represents t after := by
  obtain ⟨past, rfl⟩ := related
  cases call with
  | wait seconds =>
    obtain rfl := Except.ok.inj success
    exact ⟨_, rfl, past.trans (Nat.le_add_right ..), RateLimitedV2.bucket_wait past seconds⟩
  | depleteBuffer amount =>
    obtain ⟨l, drained, rfl⟩ := map_eq_ok.mp success
    obtain ⟨⟨-, nonzero, enough⟩, readable, same, -⟩ := RateLimitedV2.depleteBuffer_spec drained
    exact ⟨_, if_pos ⟨nonzero, enough⟩, readable.1, same⟩
  | replenishBuffer amount =>
    obtain ⟨l, refilled, rfl⟩ := map_eq_ok.mp success
    obtain ⟨-, readable, same, -⟩ := RateLimitedV2.replenishBuffer_spec refilled
    exact ⟨_, rfl, readable.1, same⟩
  | setRateLimitPerSecond ctx rate =>
    obtain ⟨l, set, rfl⟩ := map_eq_ok.mp success
    obtain ⟨-, -, readable, same, -⟩ := RateLimitedV2.setRateLimitPerSecond_spec set
    exact ⟨_, rfl, readable.1, same⟩
  | setBufferCap ctx cap =>
    obtain ⟨l, set, rfl⟩ := map_eq_ok.mp success
    obtain ⟨-, readable, same, -⟩ := RateLimitedV2.setBufferCap_spec set
    exact ⟨_, rfl, readable.1, same⟩

/-- No call made while the buffer is readable fails in a cast of the buffer level. -/
theorem step_ne_castFailure {s : State} (readable : s.limiter.Readable s.now) (call : Call) :
    step s call ≠ .error (.message "SafeCast: value doesn't fit in 224 bits") := by
  intro failure
  cases call with
  | wait seconds => cases failure
  | depleteBuffer amount =>
    rcases RateLimitedV2.depleteBuffer_error readable (map_eq_error.mp failure) with
      ⟨-, other⟩ | ⟨-, other⟩ <;> simp at other
  | replenishBuffer amount =>
    have other := RateLimitedV2.replenishBuffer_error readable (map_eq_error.mp failure)
    simp at other
  | setRateLimitPerSecond ctx rate =>
    rcases RateLimitedV2.setRateLimitPerSecond_error readable (map_eq_error.mp failure) with
      other | other <;> simp at other
  | setBufferCap ctx cap =>
    have other := RateLimitedV2.setBufferCap_error readable (map_eq_error.mp failure)
    simp at other

/-- After any run that starts from the constructor and stays below `2 ** 32`, `buffer()` does not
revert and is the level of the eager bucket that started full and made the same calls; the next
depletion succeeds exactly when that level is not zero and covers it; and no call fails in a cast
of the level. -/
theorem buffer_eq_eager_level {start maxRateLimitPerSecond : ℕ} {rateLimitPerSecond bufferCap : Uint 128}
    {limiter : RateLimitedV2} {calls : List Call} {t : State}
    (deployed : RateLimitedV2.deploy start maxRateLimitPerSecond rateLimitPerSecond bufferCap =
      .ok limiter)
    (success : run step ⟨start, limiter⟩ calls = .ok t) (inTime : t.now < 2 ^ 32) :
    ∃ b, run eagerStep (Bucket.full bufferCap.val rateLimitPerSecond.val) calls = .ok b ∧
      t.limiter.buffer t.now = .ok b.level ∧
      (∀ amount, (∃ l, t.limiter.depleteBuffer t.now amount = .ok l) ↔
        b.level ≠ 0 ∧ amount ≤ b.level) ∧
      ∀ call, step t call ≠ .error (.message "SafeCast: value doesn't fit in 224 bits") := by
  obtain ⟨-, readable, full, -⟩ := RateLimitedV2.deploy_spec deployed
  have simulates (state : State) (call : Call) (next : State) (b : Bucket ℕ)
      (related : Represents state b) (stepped : step state call = .ok next) :
      ∃ after, eagerStep b (id call) = .ok after ∧ Represents next after :=
    step_represents related stepped
  obtain ⟨b, eager, past, rfl⟩ := run_simulates id simulates ⟨readable.1, full⟩ success
  rw [List.map_id] at eager
  have now : t.limiter.Readable t.now := ⟨past, inTime⟩
  refine ⟨_, eager, RateLimitedV2.buffer_of_readable now, ?_, step_ne_castFailure now⟩
  intro amount
  constructor
  · rintro ⟨l, drained⟩
    exact (RateLimitedV2.depleteBuffer_spec drained).1.2
  · rintro ⟨nonzero, enough⟩
    exact RateLimitedV2.depleteBuffer_succeeds now nonzero enough

/-- A cap lowered below the stored level and raised again. -/
theorem buffer_eq_eager_level_cap_lowered :
    let governor := Context.withRoles 1 [.governor]
    let calls := [.depleteBuffer 600, .setBufferCap governor 200, .wait 5, .setBufferCap governor 1000,
      .replenishBuffer 50, .setRateLimitPerSecond governor 20, .wait 7]
    ∃ b, run eagerStep (Bucket.full 1000 10) calls = .ok b ∧
      (⟨100, 20, 1000, 5, 250⟩ : RateLimitedV2).buffer 12 = .ok b.level := by
  intro governor calls
  have deployed : RateLimitedV2.deploy 0 100 10 1000 = .ok ⟨100, 10, 1000, 0, 1000⟩ := by decide
  have success : run step ⟨0, ⟨100, 10, 1000, 0, 1000⟩⟩ calls = .ok ⟨12, ⟨100, 20, 1000, 5, 250⟩⟩ := by
    decide +kernel
  obtain ⟨b, eager, level, -⟩ := buffer_eq_eager_level deployed success (by decide)
  exact ⟨b, eager, level⟩

end VoltProtocol.LimiterRefinement
