import VoltProtocol.Model.CoreRef
import VoltProtocol.Machine.TokenBucket

/-! # RateLimited, the first rate limiter

All fields are `uint256`, so `buffer()` can overflow, and a depletion may be partial: it returns
the amount it used. The storage is read as a lazy token bucket, as that of RateLimitedV2 is.
-/

namespace VoltProtocol

structure RateLimited where
  MAX_RATE_LIMIT_PER_SECOND : ℕ
  rateLimitPerSecond : ℕ
  lastBufferUsedTime : ℕ
  bufferCap : ℕ
  doPartialAction : Bool
  bufferStored : ℕ
deriving DecidableEq, Repr

namespace RateLimited

open TokenBucket

variable (s : RateLimited)

def buffer (now : ℕ) : Except Revert ℕ := do
  let elapsed ← checkedSub now s.lastBufferUsedTime
  let earned ← uint 256 (s.rateLimitPerSecond * elapsed)
  let level ← uint 256 (s.bufferStored + earned)
  return min level s.bufferCap

/-- `_depleteBuffer`, with the amount it used. -/
def depleteBuffer (now amount : ℕ) : Except Revert (RateLimited × ℕ) := do
  let newBuffer ← s.buffer now
  let usedAmount := if s.doPartialAction ∧ amount > newBuffer then newBuffer else amount
  require (newBuffer ≠ 0) "RateLimited: no rate limit buffer"
  require (usedAmount ≤ newBuffer) "RateLimited: rate limit hit"
  let bufferStored ← checkedSub newBuffer usedAmount
  return ({ s with bufferStored, lastBufferUsedTime := now }, usedAmount)

def replenishBuffer (now amount : ℕ) : Except Revert RateLimited := do
  let newBuffer ← s.buffer now
  if newBuffer = s.bufferCap then
    return s
  else
    let raised ← uint 256 (newBuffer + amount)
    return { s with bufferStored := min raised s.bufferCap, lastBufferUsedTime := now }

def updateBufferStored (now : ℕ) : Except Revert RateLimited := do
  let bufferStored ← s.buffer now
  return { s with bufferStored, lastBufferUsedTime := now }

/-- `_setRateLimitPerSecond` -/
def setRateLimitPerSecondInternal (newRateLimitPerSecond : ℕ) : RateLimited :=
  { s with rateLimitPerSecond := newRateLimitPerSecond }

/-- `_setBufferCap` -/
def setBufferCapInternal (now newBufferCap : ℕ) : Except Revert RateLimited := do
  let updated ← s.updateBufferStored now
  return { updated with bufferCap := newBufferCap }

def setRateLimitPerSecond (c : CoreRef) (ctx : Context) (now newRateLimitPerSecond : ℕ) :
    Except Revert RateLimited := do
  c.onlyGovernorOrAdmin ctx
  require (newRateLimitPerSecond ≤ s.MAX_RATE_LIMIT_PER_SECOND)
    "RateLimited: rateLimitPerSecond too high"
  let updated ← s.updateBufferStored now
  return updated.setRateLimitPerSecondInternal newRateLimitPerSecond

def setBufferCap (c : CoreRef) (ctx : Context) (now newBufferCap : ℕ) : Except Revert RateLimited := do
  c.onlyGovernorOrAdmin ctx
  s.setBufferCapInternal now newBufferCap

/-- The constructor: the storage is zero when `_setBufferCap` first reads it. -/
def deploy (now maxRateLimitPerSecond rateLimitPerSecond bufferCap : ℕ) (doPartialAction : Bool) :
    Except Revert RateLimited := do
  let blank : RateLimited :=
    { MAX_RATE_LIMIT_PER_SECOND := maxRateLimitPerSecond, rateLimitPerSecond := 0,
      lastBufferUsedTime := now, bufferCap := 0, doPartialAction, bufferStored := 0 }
  let capped ← blank.setBufferCapInternal now bufferCap
  let filled := { capped with bufferStored := bufferCap }
  require (rateLimitPerSecond ≤ maxRateLimitPerSecond) "RateLimited: rateLimitPerSecond too high"
  return filled.setRateLimitPerSecondInternal rateLimitPerSecond

/-! ### The lazy bucket in storage -/

/-- The storage read as a lazy token bucket. -/
def toLazy : Lazy ℕ where
  stored := s.bufferStored
  cap := s.bufferCap
  rate := s.rateLimitPerSecond
  since := s.lastBufferUsedTime

/-- What `buffer()` returns when it does not revert. -/
def level (now : ℕ) : ℕ := s.toLazy.level now

/-- The eager bucket the storage stands for. -/
def bucket (now : ℕ) : Bucket ℕ := s.toLazy.bucket now

/-- Times at which `buffer()` does not revert: the time stored is past and the sum it computes
before it looks at the cap fits `uint256`. -/
def Readable (now : ℕ) : Prop :=
  s.lastBufferUsedTime ≤ now ∧
    s.bufferStored + s.rateLimitPerSecond * (now - s.lastBufferUsedTime) < 2 ^ 256

variable {s} {t : RateLimited} {now amount result : ℕ}

theorem buffer_eq_ok : s.buffer now = .ok result ↔ s.Readable now ∧ result = s.level now := by
  simp only [buffer, bind_eq_ok, checkedSub_eq_ok, uint_eq_ok, pure_eq_ok]
  constructor
  · rintro ⟨elapsed, ⟨past, rfl⟩, earned, ⟨-, rfl⟩, sum, ⟨fits, rfl⟩, rfl⟩
    refine ⟨⟨past, fits⟩, ?_⟩
    simp only [level, Lazy.level, toLazy, smul_eq_mul, Nat.mul_comm]
  · rintro ⟨⟨past, fits⟩, rfl⟩
    have product := (Nat.le_add_left _ _).trans_lt fits
    refine ⟨_, ⟨past, rfl⟩, _, ⟨product, rfl⟩, _, ⟨fits, rfl⟩, ?_⟩
    simp only [level, Lazy.level, toLazy, smul_eq_mul, Nat.mul_comm]

/-- A time once unreadable stays so while nothing is written. -/
theorem Readable.of_add {seconds : ℕ} (past : s.lastBufferUsedTime ≤ now)
    (later : s.Readable (now + seconds)) : s.Readable now := by
  obtain ⟨-, fits⟩ := later
  have sooner : now - s.lastBufferUsedTime ≤ now + seconds - s.lastBufferUsedTime := by omega
  have less := Nat.mul_le_mul_left s.rateLimitPerSecond sooner
  refine ⟨past, ?_⟩
  omega

/-- A depletion drains the bucket by the amount it reports, never by more than the amount asked. -/
theorem depleteBuffer_spec {used : ℕ} (success : s.depleteBuffer now amount = .ok (t, used)) :
    (s.Readable now ∧ used ≤ s.level now ∧ used ≤ amount) ∧ t.lastBufferUsedTime = now ∧
      t.bucket now = (s.bucket now).drain used ∧
      t.MAX_RATE_LIMIT_PER_SECOND = s.MAX_RATE_LIMIT_PER_SECOND := by
  simp only [depleteBuffer, bind_eq_ok, buffer_eq_ok, require_eq_ok, checkedSub_eq_ok, pure_eq_ok,
    Prod.mk.injEq] at success
  obtain ⟨_, ⟨readable, rfl⟩, _, -, _, enough, _, ⟨-, rfl⟩, rfl, rfl⟩ := success
  refine ⟨⟨readable, enough, ?_⟩, rfl, s.toLazy.bucket_store_drain now _, rfl⟩
  split_ifs with short
  · exact short.2.le
  · exact le_rfl

/-- Without partial actions a depletion uses the amount asked. -/
theorem depleteBuffer_whole {used : ℕ} (whole : s.doPartialAction = false)
    (success : s.depleteBuffer now amount = .ok (t, used)) : used = amount ∧ t.doPartialAction = false := by
  simp only [depleteBuffer, bind_eq_ok, require_eq_ok, checkedSub_eq_ok, pure_eq_ok, Prod.mk.injEq] at success
  obtain ⟨newBuffer, -, _, -, _, -, _, -, rfl, rfl⟩ := success
  have notPartial : ¬ (s.doPartialAction = true ∧ amount > newBuffer) := by simp [whole]
  exact ⟨if_neg notPartial, whole⟩

theorem updateBufferStored_spec (success : s.updateBufferStored now = .ok t) :
    s.Readable now ∧ t.toLazy = s.toLazy.sync now ∧
      t.MAX_RATE_LIMIT_PER_SECOND = s.MAX_RATE_LIMIT_PER_SECOND := by
  simp only [updateBufferStored, bind_eq_ok, buffer_eq_ok, pure_eq_ok] at success
  obtain ⟨_, ⟨readable, rfl⟩, rfl⟩ := success
  exact ⟨readable, rfl, rfl⟩

theorem setBufferCapInternal_spec {newBufferCap : ℕ}
    (success : s.setBufferCapInternal now newBufferCap = .ok t) :
    s.Readable now ∧ t.lastBufferUsedTime = now ∧ t.bucket now = (s.bucket now).setCap newBufferCap ∧
      t.MAX_RATE_LIMIT_PER_SECOND = s.MAX_RATE_LIMIT_PER_SECOND := by
  simp only [setBufferCapInternal, bind_eq_ok, pure_eq_ok] at success
  obtain ⟨updated, synced, rfl⟩ := success
  obtain ⟨readable, same, immutable⟩ := updateBufferStored_spec synced
  refine ⟨readable, congrArg Lazy.since same, ?_, immutable⟩
  rw [bucket, bucket, ← Lazy.bucket_setCap, ← same]
  rfl

theorem setRateLimitPerSecond_spec {c : CoreRef} {ctx : Context} {newRateLimitPerSecond : ℕ}
    (success : s.setRateLimitPerSecond c ctx now newRateLimitPerSecond = .ok t) :
    newRateLimitPerSecond ≤ s.MAX_RATE_LIMIT_PER_SECOND ∧ s.Readable now ∧
      t.lastBufferUsedTime = now ∧ t.bucket now = (s.bucket now).setRate newRateLimitPerSecond ∧
      t.MAX_RATE_LIMIT_PER_SECOND = s.MAX_RATE_LIMIT_PER_SECOND := by
  simp only [setRateLimitPerSecond, bind_eq_ok, require_eq_ok, pure_eq_ok] at success
  obtain ⟨_, -, _, allowed, updated, synced, rfl⟩ := success
  obtain ⟨readable, same, immutable⟩ := updateBufferStored_spec synced
  refine ⟨allowed, readable, congrArg Lazy.since same, ?_, immutable⟩
  rw [bucket, bucket, ← Lazy.bucket_setRate, ← same]
  rfl

theorem setBufferCap_spec {c : CoreRef} {ctx : Context} {newBufferCap : ℕ}
    (success : s.setBufferCap c ctx now newBufferCap = .ok t) :
    s.Readable now ∧ t.lastBufferUsedTime = now ∧ t.bucket now = (s.bucket now).setCap newBufferCap ∧
      t.MAX_RATE_LIMIT_PER_SECOND = s.MAX_RATE_LIMIT_PER_SECOND := by
  simp only [setBufferCap, bind_eq_ok] at success
  obtain ⟨_, -, capped⟩ := success
  exact setBufferCapInternal_spec capped

/-- No setter allows partial actions. -/
theorem setRateLimitPerSecond_whole {c : CoreRef} {ctx : Context} {newRateLimitPerSecond : ℕ}
    (success : s.setRateLimitPerSecond c ctx now newRateLimitPerSecond = .ok t) :
    t.doPartialAction = s.doPartialAction := by
  simp only [setRateLimitPerSecond, updateBufferStored, bind_eq_ok, pure_eq_ok] at success
  obtain ⟨_, -, _, -, _, ⟨_, -, rfl⟩, rfl⟩ := success
  rfl

theorem setBufferCap_whole {c : CoreRef} {ctx : Context} {newBufferCap : ℕ}
    (success : s.setBufferCap c ctx now newBufferCap = .ok t) : t.doPartialAction = s.doPartialAction := by
  simp only [setBufferCap, setBufferCapInternal, updateBufferStored, bind_eq_ok, pure_eq_ok] at success
  obtain ⟨_, -, _, ⟨_, -, rfl⟩, rfl⟩ := success
  rfl

/-- A new cap leaves in the buffer what was there, up to the cap. -/
theorem buffer_setBufferCap {c : CoreRef} {ctx : Context} {newBufferCap : ℕ}
    (success : s.setBufferCap c ctx now newBufferCap = .ok t) :
    ∃ level, s.buffer now = .ok level ∧ t.buffer now = .ok (min level newBufferCap) := by
  simp only [setBufferCap, setBufferCapInternal, updateBufferStored, bind_eq_ok, pure_eq_ok] at success
  obtain ⟨_, -, _, ⟨level, read, rfl⟩, rfl⟩ := success
  obtain ⟨⟨-, fits⟩, rfl⟩ := buffer_eq_ok.mp read
  have bounded : s.level now ≤ s.bufferStored + s.rateLimitPerSecond * (now - s.lastBufferUsedTime) := by
    rw [Nat.mul_comm]
    exact min_le_left ..
  refine ⟨_, read, buffer_eq_ok.mpr ⟨⟨le_rfl, ?_⟩, ?_⟩⟩
  · simpa using bounded.trans_lt fits
  · simp [level, Lazy.level, toLazy]

/-- A deployed limiter has an admissible rate. -/
theorem deploy_spec {maxRateLimitPerSecond rateLimitPerSecond bufferCap : ℕ} {doPartialAction : Bool}
    (success : deploy now maxRateLimitPerSecond rateLimitPerSecond bufferCap doPartialAction = .ok t) :
    rateLimitPerSecond ≤ maxRateLimitPerSecond ∧ t.lastBufferUsedTime = now ∧
      t.bucket now = Bucket.full bufferCap rateLimitPerSecond ∧
      t.MAX_RATE_LIMIT_PER_SECOND = maxRateLimitPerSecond := by
  simp only [deploy, bind_eq_ok, require_eq_ok, pure_eq_ok, setBufferCapInternal,
    updateBufferStored] at success
  obtain ⟨capped, ⟨updated, ⟨_, -, rfl⟩, rfl⟩, _, allowed, rfl⟩ := success
  refine ⟨allowed, rfl, ?_, rfl⟩
  refine Bucket.ext ?_ rfl rfl
  simp [bucket, Lazy.level, toLazy, setRateLimitPerSecondInternal]

end RateLimited

end VoltProtocol
