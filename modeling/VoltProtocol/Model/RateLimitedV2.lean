import VoltProtocol.Model.CoreRef
import VoltProtocol.Machine.TokenBucket

/-! # RateLimitedV2, the rate limiter in two storage slots

The level is stored lazily, with the time it was computed for. `setBufferCap` may leave the stored
level above the cap, and `replenishBuffer` returns early at the cap without touching the
timestamp; `toLazy` reads the storage as a lazy token bucket, and one lemma for each operation
says when it succeeds and what it does to that bucket.
-/

namespace VoltProtocol

/-- What the numerals of a rate or a cap rest on. -/
instance rateNumerals : NeZero (2 ^ 128) := ⟨by decide⟩

/-- What the numerals of a stored level rest on. -/
instance levelNumerals : NeZero (2 ^ 224) := ⟨by decide⟩

/-- What the numerals of times rest on. -/
instance timeNumerals : NeZero (2 ^ 32) := ⟨by decide⟩

/-- The two storage slots and the immutable maximum rate. -/
structure RateLimitedV2 where
  MAX_RATE_LIMIT_PER_SECOND : ℕ
  rateLimitPerSecond : Uint 128
  bufferCap : Uint 128
  lastBufferUsedTime : Uint 32
  bufferStored : Uint 224
deriving DecidableEq, Repr

namespace RateLimitedV2

open TokenBucket

def buffer (s : RateLimitedV2) (now : ℕ) : Except Revert ℕ := do
  let timestamp ← toUint32 now
  let elapsed ← checkedSub timestamp.val s.lastBufferUsedTime.val
  let earned ← uint 256 (s.rateLimitPerSecond.val * elapsed)
  let level ← uint 256 (s.bufferStored.val + earned)
  return min level s.bufferCap.val

def depleteBuffer (s : RateLimitedV2) (now amount : ℕ) : Except Revert RateLimitedV2 := do
  let newBuffer ← s.buffer now
  require (newBuffer ≠ 0) "RateLimited: no rate limit buffer"
  require (amount ≤ newBuffer) "RateLimited: rate limit hit"
  let remaining ← checkedSub newBuffer amount
  let bufferStored ← toUint224 remaining
  let lastBufferUsedTime ← toUint32 now
  return { s with bufferStored, lastBufferUsedTime }

def replenishBuffer (s : RateLimitedV2) (now amount : ℕ) : Except Revert RateLimitedV2 := do
  let newBuffer ← s.buffer now
  -- at the cap already: neither the stored level nor the timestamp is touched
  if newBuffer = s.bufferCap.val then
    return s
  else
    let lastBufferUsedTime ← toUint32 now
    let raised ← uint 256 (newBuffer + amount)
    let bufferStored ← toUint224 (min raised s.bufferCap.val)
    return { s with bufferStored, lastBufferUsedTime }

def updateBufferStored (s : RateLimitedV2) (now : ℕ) : Except Revert RateLimitedV2 := do
  let newBuffer ← s.buffer now
  let bufferStored ← toUint224 newBuffer
  let lastBufferUsedTime ← toUint32 now
  return { s with bufferStored, lastBufferUsedTime }

/-- `_setRateLimitPerSecond` -/
def setRateLimitPerSecondInternal (s : RateLimitedV2) (newRateLimitPerSecond : Uint 128) :
    RateLimitedV2 :=
  { s with rateLimitPerSecond := newRateLimitPerSecond }

/-- `_setBufferCap` -/
def setBufferCapInternal (s : RateLimitedV2) (now : ℕ) (newBufferCap : Uint 128) :
    Except Revert RateLimitedV2 := do
  let updated ← s.updateBufferStored now
  return { updated with bufferCap := newBufferCap }

def setRateLimitPerSecond (s : RateLimitedV2) (ctx : Context) (now : ℕ)
    (newRateLimitPerSecond : Uint 128) : Except Revert RateLimitedV2 := do
  ctx.onlyGovernor
  require (newRateLimitPerSecond.val ≤ s.MAX_RATE_LIMIT_PER_SECOND)
    "RateLimited: rateLimitPerSecond too high"
  let updated ← s.updateBufferStored now
  return updated.setRateLimitPerSecondInternal newRateLimitPerSecond

def setBufferCap (s : RateLimitedV2) (ctx : Context) (now : ℕ) (newBufferCap : Uint 128) :
    Except Revert RateLimitedV2 := do
  ctx.onlyGovernor
  s.setBufferCapInternal now newBufferCap

/-- The constructor: the storage is zero when `_setBufferCap` first reads it. -/
def deploy (now maxRateLimitPerSecond : ℕ) (rateLimitPerSecond bufferCap : Uint 128) :
    Except Revert RateLimitedV2 := do
  let lastBufferUsedTime ← toUint32 now
  let blank : RateLimitedV2 :=
    { MAX_RATE_LIMIT_PER_SECOND := maxRateLimitPerSecond, rateLimitPerSecond := 0, bufferCap := 0,
      lastBufferUsedTime, bufferStored := 0 }
  let capped ← blank.setBufferCapInternal now bufferCap
  let filled := { capped with bufferStored := bufferCap.widen (by norm_num) }
  require (rateLimitPerSecond.val ≤ maxRateLimitPerSecond) "RateLimited: rateLimitPerSecond too high"
  return filled.setRateLimitPerSecondInternal rateLimitPerSecond

/-! ### The lazy bucket in storage -/

/-- The storage read as a lazy token bucket. -/
def toLazy (s : RateLimitedV2) : Lazy ℕ where
  stored := s.bufferStored.val
  cap := s.bufferCap.val
  rate := s.rateLimitPerSecond.val
  since := s.lastBufferUsedTime.val

/-- What `buffer()` returns when it does not revert. -/
def level (s : RateLimitedV2) (now : ℕ) : ℕ := s.toLazy.level now

/-- Times at which the buffer can be read: at or after the stored time and below `2 ** 32`. -/
def Readable (s : RateLimitedV2) (now : ℕ) : Prop :=
  s.lastBufferUsedTime.val ≤ now ∧ now < 2 ^ 32

theorem level_le_cap (s : RateLimitedV2) (now : ℕ) : s.level now ≤ s.bufferCap.val :=
  s.toLazy.level_le_cap now

/-- A level always fits the field it is stored in. -/
theorem level_lt (s : RateLimitedV2) (now : ℕ) : s.level now < 2 ^ 224 :=
  ((s.level_le_cap now).trans_lt s.bufferCap.isLt).trans (by norm_num)

/-- The packed types leave no room for an overflow while the timestamp fits in 32 bits. -/
theorem no_overflow (s : RateLimitedV2) (elapsed : ℕ) (fits : elapsed < 2 ^ 32) :
    s.bufferStored.val + s.rateLimitPerSecond.val * elapsed < 2 ^ 256 := by
  have rate : s.rateLimitPerSecond.val * elapsed ≤ 2 ^ 128 * 2 ^ 32 :=
    Nat.mul_le_mul s.rateLimitPerSecond.isLt.le fits.le
  have stored := s.bufferStored.isLt
  have room : (2 : ℕ) ^ 224 + 2 ^ 128 * 2 ^ 32 < 2 ^ 256 := by norm_num
  omega

theorem buffer_eq_ok {s : RateLimitedV2} {now result : ℕ} :
    s.buffer now = .ok result ↔ s.Readable now ∧ result = s.level now := by
  simp only [buffer, bind_eq_ok, toUint32_eq_ok, checkedSub_eq_ok, uint_eq_ok, pure_eq_ok]
  constructor
  · rintro ⟨timestamp, rfl, elapsed, ⟨past, rfl⟩, earned, ⟨-, rfl⟩, sum, ⟨-, rfl⟩, rfl⟩
    refine ⟨⟨past, timestamp.isLt⟩, ?_⟩
    simp only [level, Lazy.level, toLazy, smul_eq_mul, Nat.mul_comm]
  · rintro ⟨⟨past, fits⟩, rfl⟩
    have room := s.no_overflow (now - s.lastBufferUsedTime.val) (by omega)
    have product := (Nat.le_add_left _ _).trans_lt room
    refine ⟨⟨now, fits⟩, rfl, _, ⟨past, rfl⟩, _, ⟨product, rfl⟩, _, ⟨room, rfl⟩, ?_⟩
    simp only [level, Lazy.level, toLazy, smul_eq_mul, Nat.mul_comm]

/-- `buffer()` does not revert at readable times. -/
theorem buffer_of_readable {s : RateLimitedV2} {now : ℕ} (readable : s.Readable now) :
    s.buffer now = .ok (s.level now) := buffer_eq_ok.mpr ⟨readable, rfl⟩

/-! ### What each operation does to the bucket -/

/-- The eager bucket the storage stands for. -/
def bucket (s : RateLimitedV2) (now : ℕ) : Bucket ℕ := s.toLazy.bucket now

@[simp] theorem bucket_level (s : RateLimitedV2) (now : ℕ) : (s.bucket now).level = s.level now := rfl

theorem bucket_wait {s : RateLimitedV2} {now : ℕ} (past : s.lastBufferUsedTime.val ≤ now)
    (seconds : ℕ) : s.bucket (now + seconds) = (s.bucket now).wait seconds :=
  s.toLazy.bucket_wait past seconds

/-- Writing a level for the present, as `depleteBuffer`, `replenishBuffer` and
`updateBufferStored` do. -/
private theorem toLazy_store {s : RateLimitedV2} {now value : ℕ} {bufferStored : Uint 224}
    {lastBufferUsedTime : Uint 32} (stored : bufferStored.val = value)
    (time : lastBufferUsedTime.val = now) :
    ({ s with bufferStored, lastBufferUsedTime } : RateLimitedV2).toLazy =
      s.toLazy.store now value := by
  simp [toLazy, Lazy.store, stored, time]

theorem depleteBuffer_spec {s t : RateLimitedV2} {now amount : ℕ}
    (success : s.depleteBuffer now amount = .ok t) :
    (s.Readable now ∧ s.level now ≠ 0 ∧ amount ≤ s.level now) ∧ t.Readable now ∧
      t.bucket now = (s.bucket now).drain amount ∧
      t.MAX_RATE_LIMIT_PER_SECOND = s.MAX_RATE_LIMIT_PER_SECOND := by
  simp only [depleteBuffer, bind_eq_ok, buffer_eq_ok, require_eq_ok, checkedSub_eq_ok,
    toUint32_eq_ok, toUint224_eq_ok, pure_eq_ok] at success
  obtain ⟨_, ⟨readable, rfl⟩, _, nonzero, _, enough, _, ⟨-, rfl⟩, stored, same, time, now_eq, rfl⟩ :=
    success
  refine ⟨⟨readable, nonzero, enough⟩, ⟨now_eq.le, readable.2⟩, ?_, rfl⟩
  rw [bucket, toLazy_store same now_eq]
  exact s.toLazy.bucket_store_drain now amount

theorem depleteBuffer_succeeds {s : RateLimitedV2} {now amount : ℕ} (readable : s.Readable now)
    (nonzero : s.level now ≠ 0) (enough : amount ≤ s.level now) :
    ∃ t, s.depleteBuffer now amount = .ok t := by
  have fits : s.level now - amount < 2 ^ 224 := by
    have bounded := s.level_lt now
    omega
  simp only [depleteBuffer, bind_eq_ok, buffer_eq_ok, require_eq_ok, checkedSub_eq_ok,
    toUint32_eq_ok, toUint224_eq_ok, pure_eq_ok]
  exact ⟨_, _, ⟨readable, rfl⟩, (), nonzero, (), enough, _, ⟨enough, rfl⟩, ⟨_, fits⟩, rfl,
    ⟨now, readable.2⟩, rfl, rfl⟩

/-- A readable bucket refuses a depletion only for want of level, never in a cast. -/
theorem depleteBuffer_error {s : RateLimitedV2} {now amount : ℕ} {reason : Revert}
    (readable : s.Readable now) (failure : s.depleteBuffer now amount = .error reason) :
    (s.level now = 0 ∧ reason = .message "RateLimited: no rate limit buffer") ∨
      (s.level now < amount ∧ reason = .message "RateLimited: rate limit hit") := by
  simp only [depleteBuffer, bind_eq_error, buffer_of_readable readable, reduceCtorEq, false_or,
    Except.ok.injEq, exists_eq_left', require_eq_ok, require_eq_error, checkedSub_eq_ok,
    checkedSub_eq_error, toUint224_eq_ok, toUint224_eq_error, toUint32_eq_error, pure_ne_error,
    and_false, exists_const, or_false] at failure
  rcases failure with ⟨zero, rfl⟩ | ⟨-, ⟨short, rfl⟩ |
    ⟨enough, ⟨under, -⟩ | ⟨_, ⟨-, rfl⟩, ⟨large, -⟩ | ⟨_, -, late, -⟩⟩⟩⟩
  · exact .inl ⟨not_not.mp zero, rfl⟩
  · exact .inr ⟨by omega, rfl⟩
  · omega
  · have bounded := s.level_lt now
    omega
  · have early := readable.2
    omega

theorem updateBufferStored_spec {s t : RateLimitedV2} {now : ℕ}
    (success : s.updateBufferStored now = .ok t) :
    s.Readable now ∧ t.toLazy = s.toLazy.sync now ∧
      t.MAX_RATE_LIMIT_PER_SECOND = s.MAX_RATE_LIMIT_PER_SECOND := by
  simp only [updateBufferStored, bind_eq_ok, buffer_eq_ok, toUint32_eq_ok, toUint224_eq_ok, pure_eq_ok] at success
  obtain ⟨_, ⟨readable, rfl⟩, stored, same, time, now_eq, rfl⟩ := success
  exact ⟨readable, toLazy_store same now_eq, rfl⟩

theorem updateBufferStored_succeeds {s : RateLimitedV2} {now : ℕ} (readable : s.Readable now) :
    ∃ t, s.updateBufferStored now = .ok t := by
  simp only [updateBufferStored, bind_eq_ok, buffer_eq_ok, toUint32_eq_ok, toUint224_eq_ok, pure_eq_ok]
  exact ⟨_, _, ⟨readable, rfl⟩, ⟨_, s.level_lt now⟩, rfl, ⟨now, readable.2⟩, rfl, rfl⟩

/-- The early return at the cap agrees with the refill it skips. -/
theorem replenishBuffer_spec {s t : RateLimitedV2} {now amount : ℕ}
    (success : s.replenishBuffer now amount = .ok t) :
    s.Readable now ∧ t.Readable now ∧ t.bucket now = (s.bucket now).refill amount ∧
      t.MAX_RATE_LIMIT_PER_SECOND = s.MAX_RATE_LIMIT_PER_SECOND := by
  simp only [replenishBuffer, bind_eq_ok, buffer_eq_ok] at success
  obtain ⟨_, ⟨readable, rfl⟩, success⟩ := success
  split_ifs at success with full
  · obtain rfl := pure_eq_ok.mp success
    exact ⟨readable, readable, (Bucket.refill_of_full full amount).symm, rfl⟩
  · simp only [bind_eq_ok, uint_eq_ok, toUint32_eq_ok, toUint224_eq_ok, pure_eq_ok] at success
    obtain ⟨time, now_eq, _, ⟨-, rfl⟩, stored, same, rfl⟩ := success
    refine ⟨readable, ⟨now_eq.le, readable.2⟩, ?_, rfl⟩
    rw [bucket, toLazy_store same now_eq]
    exact s.toLazy.bucket_store_refill now amount

/-- A replenishment fails only when the credited level overflows `uint256`: the cast of the
credited level never does. -/
theorem replenishBuffer_succeeds {s : RateLimitedV2} {now amount : ℕ} (readable : s.Readable now)
    (fits : s.level now + amount < 2 ^ 256) : ∃ t, s.replenishBuffer now amount = .ok t := by
  have small : min (s.level now + amount) s.bufferCap.val < 2 ^ 224 :=
    ((min_le_right ..).trans_lt s.bufferCap.isLt).trans (by norm_num)
  simp only [replenishBuffer, bind_eq_ok, buffer_eq_ok]
  by_cases full : s.level now = s.bufferCap.val
  · exact ⟨s, _, ⟨readable, rfl⟩, by rw [if_pos full]; rfl⟩
  · refine ⟨{ s with bufferStored := ⟨_, small⟩, lastBufferUsedTime := ⟨now, readable.2⟩ }, _,
      ⟨readable, rfl⟩, ?_⟩
    rw [if_neg full]
    simp only [bind_eq_ok, uint_eq_ok, toUint32_eq_ok, toUint224_eq_ok, pure_eq_ok]
    exact ⟨⟨now, readable.2⟩, rfl, _, ⟨fits, rfl⟩, ⟨_, small⟩, rfl, rfl⟩

theorem replenishBuffer_error {s : RateLimitedV2} {now amount : ℕ} {reason : Revert}
    (readable : s.Readable now) (failure : s.replenishBuffer now amount = .error reason) :
    reason = .panic := by
  have small : min (s.level now + amount) s.bufferCap.val < 2 ^ 224 :=
    ((min_le_right ..).trans_lt s.bufferCap.isLt).trans (by norm_num)
  simp only [replenishBuffer, bind_eq_error, buffer_of_readable readable, reduceCtorEq, false_or,
    Except.ok.injEq, exists_eq_left'] at failure
  split_ifs at failure
  · exact (pure_ne_error.mp failure).elim
  · simp only [bind_eq_error, uint_eq_ok, uint_eq_error, toUint32_eq_error, toUint224_eq_error,
      pure_ne_error, and_false, exists_const, or_false] at failure
    rcases failure with ⟨late, -⟩ | ⟨_, -, ⟨-, panicked⟩ | ⟨_, ⟨-, rfl⟩, large, -⟩⟩
    · have early := readable.2
      omega
    · exact panicked
    · omega

theorem setBufferCapInternal_spec {s t : RateLimitedV2} {now : ℕ} {newBufferCap : Uint 128}
    (success : s.setBufferCapInternal now newBufferCap = .ok t) :
    s.Readable now ∧ t.Readable now ∧ t.bucket now = (s.bucket now).setCap newBufferCap.val ∧
      t.MAX_RATE_LIMIT_PER_SECOND = s.MAX_RATE_LIMIT_PER_SECOND := by
  simp only [setBufferCapInternal, bind_eq_ok, pure_eq_ok] at success
  obtain ⟨updated, synced, rfl⟩ := success
  obtain ⟨readable, same, immutable⟩ := updateBufferStored_spec synced
  refine ⟨readable, ⟨(congrArg Lazy.since same).le, readable.2⟩, ?_, immutable⟩
  rw [bucket, bucket, ← Lazy.bucket_setCap, ← same]
  rfl

theorem setRateLimitPerSecond_spec {s t : RateLimitedV2} {ctx : Context} {now : ℕ}
    {newRateLimitPerSecond : Uint 128}
    (success : s.setRateLimitPerSecond ctx now newRateLimitPerSecond = .ok t) :
    newRateLimitPerSecond.val ≤ s.MAX_RATE_LIMIT_PER_SECOND ∧ s.Readable now ∧ t.Readable now ∧
      t.bucket now = (s.bucket now).setRate newRateLimitPerSecond.val ∧
      t.MAX_RATE_LIMIT_PER_SECOND = s.MAX_RATE_LIMIT_PER_SECOND := by
  simp only [setRateLimitPerSecond, bind_eq_ok, require_eq_ok, pure_eq_ok] at success
  obtain ⟨_, -, _, allowed, updated, synced, rfl⟩ := success
  obtain ⟨readable, same, immutable⟩ := updateBufferStored_spec synced
  refine ⟨allowed, readable, ⟨(congrArg Lazy.since same).le, readable.2⟩, ?_, immutable⟩
  rw [bucket, bucket, ← Lazy.bucket_setRate, ← same]
  rfl

theorem setBufferCap_spec {s t : RateLimitedV2} {ctx : Context} {now : ℕ} {newBufferCap : Uint 128}
    (success : s.setBufferCap ctx now newBufferCap = .ok t) :
    s.Readable now ∧ t.Readable now ∧ t.bucket now = (s.bucket now).setCap newBufferCap.val ∧
      t.MAX_RATE_LIMIT_PER_SECOND = s.MAX_RATE_LIMIT_PER_SECOND := by
  simp only [setBufferCap, bind_eq_ok] at success
  obtain ⟨_, -, capped⟩ := success
  exact setBufferCapInternal_spec capped

/-- At readable times the setters only fail their own checks. -/
theorem setRateLimitPerSecond_error {s : RateLimitedV2} {ctx : Context} {now : ℕ}
    {newRateLimitPerSecond : Uint 128} {reason : Revert} (readable : s.Readable now)
    (failure : s.setRateLimitPerSecond ctx now newRateLimitPerSecond = .error reason) :
    reason = .message "CoreRef: Caller is not a governor" ∨
      reason = .message "RateLimited: rateLimitPerSecond too high" := by
  obtain ⟨updated, synced⟩ := updateBufferStored_succeeds readable
  simp only [setRateLimitPerSecond, Context.onlyGovernor, bind_eq_error, require_eq_error, synced,
    reduceCtorEq, pure_ne_error, and_false, exists_false, or_false] at failure
  rcases failure with ⟨-, unauthorized⟩ | ⟨_, -, -, high⟩
  · exact .inl unauthorized
  · exact .inr high

theorem setBufferCap_error {s : RateLimitedV2} {ctx : Context} {now : ℕ} {newBufferCap : Uint 128}
    {reason : Revert} (readable : s.Readable now)
    (failure : s.setBufferCap ctx now newBufferCap = .error reason) :
    reason = .message "CoreRef: Caller is not a governor" := by
  obtain ⟨updated, synced⟩ := updateBufferStored_succeeds readable
  simp only [setBufferCap, setBufferCapInternal, Context.onlyGovernor, bind_eq_error,
    require_eq_error, synced, reduceCtorEq, pure_ne_error, and_false, exists_false,
    or_false] at failure
  exact failure.2

/-- A deployed limiter starts full, with an admissible rate. -/
theorem deploy_spec {t : RateLimitedV2} {now maxRateLimitPerSecond : ℕ}
    {rateLimitPerSecond bufferCap : Uint 128}
    (success : deploy now maxRateLimitPerSecond rateLimitPerSecond bufferCap = .ok t) :
    rateLimitPerSecond.val ≤ maxRateLimitPerSecond ∧ t.Readable now ∧
      t.bucket now = Bucket.full bufferCap.val rateLimitPerSecond.val ∧
      t.MAX_RATE_LIMIT_PER_SECOND = maxRateLimitPerSecond := by
  simp only [deploy, bind_eq_ok, toUint32_eq_ok, require_eq_ok, pure_eq_ok] at success
  obtain ⟨time, now_eq, capped, success, _, allowed, rfl⟩ := success
  simp only [setBufferCapInternal, updateBufferStored, bind_eq_ok, toUint32_eq_ok, toUint224_eq_ok, pure_eq_ok] at success
  obtain ⟨updated, ⟨_, -, _, -, later, later_eq, rfl⟩, rfl⟩ := success
  refine ⟨allowed, ⟨later_eq.le, now_eq ▸ time.isLt⟩, ?_, rfl⟩
  refine Bucket.ext ?_ rfl rfl
  simp [bucket, Lazy.level, toLazy, setRateLimitPerSecondInternal, later_eq, Uint.val_widen]

end RateLimitedV2

end VoltProtocol
