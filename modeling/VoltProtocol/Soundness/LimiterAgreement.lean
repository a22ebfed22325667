import VoltProtocol.Machine.Lockstep
import VoltProtocol.Model.RateLimited
import VoltProtocol.Soundness.LimiterRefinement

/-! # RateLimitedV2 agrees with RateLimited

Below timestamp `2 ** 32`, the storage of both limiters reads as the same lazy bucket, and every
function of one is in lockstep with that of the other: the casts of the second never fail, and the sums
of the first never overflow when those of the second do not. The first limiter takes whole amounts here.
-/

namespace VoltProtocol.LimiterAgreement

open Machine TokenBucket LimiterRefinement

theorem toUint32_of_lt {value : ℕ} (fits : value < 2 ^ 32) : toUint32 value = .ok ⟨value, fits⟩ :=
  toUint32_eq_ok.mpr rfl

theorem toUint224_of_lt {value : ℕ} (fits : value < 2 ^ 224) : toUint224 value = .ok ⟨value, fits⟩ :=
  toUint224_eq_ok.mpr rfl

/-- Both limiters store the same numbers. -/
structure Agrees (now : ℕ) (s : RateLimited) (t : RateLimitedV2) : Prop where
  stored : s.bufferStored = t.bufferStored.val
  cap : s.bufferCap = t.bufferCap.val
  rate : s.rateLimitPerSecond = t.rateLimitPerSecond.val
  since : s.lastBufferUsedTime = t.lastBufferUsedTime.val
  maximum : s.MAX_RATE_LIMIT_PER_SECOND = t.MAX_RATE_LIMIT_PER_SECOND
  whole : s.doPartialAction = false
  past : t.lastBufferUsedTime.val ≤ now

section Functions

variable {s : RateLimited} {t : RateLimitedV2} {now : ℕ}

namespace Agrees

theorem later (agrees : Agrees now s t) (seconds : ℕ) : Agrees (now + seconds) s t :=
  { agrees with past := agrees.past.trans (Nat.le_add_right ..) }

theorem toLazy (agrees : Agrees now s t) : s.toLazy = t.toLazy :=
  Lazy.ext agrees.stored agrees.cap agrees.rate agrees.since

theorem buffer (agrees : Agrees now s t) (early : now < 2 ^ 32) :
    s.buffer now = .ok (t.level now) ∧ t.buffer now = .ok (t.level now) := by
  refine ⟨RateLimited.buffer_eq_ok.mpr ⟨⟨?_, ?_⟩, ?_⟩, RateLimitedV2.buffer_of_readable ⟨agrees.past, early⟩⟩
  · rw [agrees.since]
    exact agrees.past
  · rw [agrees.stored, agrees.rate]
    exact t.no_overflow _ (by omega)
  · rw [RateLimited.level, RateLimitedV2.level, agrees.toLazy]

/-- Storing the same level now keeps agreement. -/
theorem store (agrees : Agrees now s t) {value : ℕ} (fits : value < 2 ^ 224) (early : now < 2 ^ 32) :
    Agrees now { s with bufferStored := value, lastBufferUsedTime := now }
      { t with bufferStored := ⟨value, fits⟩, lastBufferUsedTime := ⟨now, early⟩ } :=
  { agrees with stored := rfl, since := rfl, past := le_rfl }

variable (agrees : Agrees now s t) (early : now < 2 ^ 32)
include agrees early

theorem depleteBuffer (amount : ℕ) : Lockstep (fun r u => Agrees now r.1 u)
    (s.depleteBuffer now amount) (t.depleteBuffer now amount) := by
  obtain ⟨first, second⟩ := agrees.buffer early
  rw [RateLimited.depleteBuffer, RateLimitedV2.depleteBuffer, first, second]
  apply Lockstep.bind (Lockstep.refl _)
  rintro level _ ⟨read, rfl⟩
  obtain rfl := Except.ok.inj read
  have whole : ¬ (s.doPartialAction = true ∧ amount > t.level now) := by simp [agrees.whole]
  simp only [if_neg whole]
  apply Lockstep.bind (Lockstep.refl _)
  intro _ _ _
  apply Lockstep.bind (Lockstep.refl _)
  intro _ _ _
  apply Lockstep.bind (Lockstep.refl _)
  rintro left _ ⟨subtracted, rfl⟩
  obtain ⟨-, rfl⟩ := checkedSub_eq_ok.mp subtracted
  have fits : t.level now - amount < 2 ^ 224 := (Nat.sub_le ..).trans_lt (t.level_lt now)
  apply Lockstep.bind_right (toUint224_of_lt fits)
  apply Lockstep.bind_right (toUint32_of_lt early)
  exact Lockstep.pure (agrees.store fits early)

theorem replenishBuffer (amount : ℕ) :
    Lockstep (Agrees now) (s.replenishBuffer now amount) (t.replenishBuffer now amount) := by
  obtain ⟨first, second⟩ := agrees.buffer early
  rw [RateLimited.replenishBuffer, RateLimitedV2.replenishBuffer, first, second]
  apply Lockstep.bind (Lockstep.refl _)
  rintro level _ ⟨-, rfl⟩
  rw [agrees.cap]
  split_ifs
  · exact Lockstep.pure agrees
  · apply Lockstep.bind_right (toUint32_of_lt early)
    apply Lockstep.bind (Lockstep.refl _)
    rintro raised _ ⟨-, rfl⟩
    have fits : min raised t.bufferCap.val < 2 ^ 224 :=
      ((min_le_right ..).trans_lt t.bufferCap.isLt).trans (by norm_num)
    apply Lockstep.bind_right (toUint224_of_lt fits)
    exact Lockstep.pure { agrees.store fits early with cap := rfl }

theorem updateBufferStored :
    Lockstep (Agrees now) (s.updateBufferStored now) (t.updateBufferStored now) := by
  obtain ⟨first, second⟩ := agrees.buffer early
  rw [RateLimited.updateBufferStored, RateLimitedV2.updateBufferStored, first, second]
  apply Lockstep.bind (Lockstep.refl _)
  rintro level _ ⟨read, rfl⟩
  obtain rfl := Except.ok.inj read
  apply Lockstep.bind_right (toUint224_of_lt (t.level_lt now))
  apply Lockstep.bind_right (toUint32_of_lt early)
  exact Lockstep.pure (agrees.store _ early)

theorem setBufferCapInternal (newBufferCap : Uint 128) : Lockstep (Agrees now)
    (s.setBufferCapInternal now newBufferCap.val) (t.setBufferCapInternal now newBufferCap) := by
  apply Lockstep.bind (agrees.updateBufferStored early)
  intro r u synced
  exact Lockstep.pure { synced with cap := rfl }

theorem setBufferCap {c : CoreRef} {ctx : Context} (authorised : ctx.isGovernor ctx.sender = true)
    (newBufferCap : Uint 128) : Lockstep (Agrees now)
      (s.setBufferCap c ctx now newBufferCap.val) (t.setBufferCap ctx now newBufferCap) := by
  have either : c.onlyGovernorOrAdmin ctx = .ok () := by
    rw [CoreRef.onlyGovernorOrAdmin, authorised, Bool.true_or, require_eq_ok]
  have governor : ctx.onlyGovernor = .ok () := require_eq_ok.mpr authorised
  rw [RateLimited.setBufferCap, RateLimitedV2.setBufferCap, either, governor]
  exact agrees.setBufferCapInternal early newBufferCap

theorem setRateLimitPerSecond {c : CoreRef} {ctx : Context} (authorised : ctx.isGovernor ctx.sender = true)
    (newRate : Uint 128) : Lockstep (Agrees now)
      (s.setRateLimitPerSecond c ctx now newRate.val) (t.setRateLimitPerSecond ctx now newRate) := by
  have either : c.onlyGovernorOrAdmin ctx = .ok () := by
    rw [CoreRef.onlyGovernorOrAdmin, authorised, Bool.true_or, require_eq_ok]
  have governor : ctx.onlyGovernor = .ok () := require_eq_ok.mpr authorised
  rw [RateLimited.setRateLimitPerSecond, RateLimitedV2.setRateLimitPerSecond, either, governor, agrees.maximum]
  apply Lockstep.bind (Lockstep.refl _)
  intro _ _ _
  apply Lockstep.bind (Lockstep.refl _)
  intro _ _ _
  apply Lockstep.bind (agrees.updateBufferStored early)
  intro r u synced
  exact Lockstep.pure { synced with rate := rfl }

end Agrees

/-- The constructors succeed together, and the limiters they deploy agree. -/
theorem deploy_lockstep (early : now < 2 ^ 32) (maxRateLimitPerSecond : ℕ)
    (rateLimitPerSecond bufferCap : Uint 128) : Lockstep (Agrees now)
      (RateLimited.deploy now maxRateLimitPerSecond rateLimitPerSecond.val bufferCap.val false)
      (RateLimitedV2.deploy now maxRateLimitPerSecond rateLimitPerSecond bufferCap) := by
  apply Lockstep.bind_right (toUint32_of_lt early)
  have blank : Agrees now
      { MAX_RATE_LIMIT_PER_SECOND := maxRateLimitPerSecond, rateLimitPerSecond := 0,
        lastBufferUsedTime := now, bufferCap := 0, doPartialAction := false, bufferStored := 0 }
      { MAX_RATE_LIMIT_PER_SECOND := maxRateLimitPerSecond, rateLimitPerSecond := 0, bufferCap := 0,
        lastBufferUsedTime := ⟨now, early⟩, bufferStored := 0 } :=
    ⟨rfl, rfl, rfl, rfl, rfl, rfl, le_rfl⟩
  apply Lockstep.bind (blank.setBufferCapInternal early bufferCap)
  intro r u capped
  apply Lockstep.bind (Lockstep.refl _)
  intro _ _ _
  exact Lockstep.pure { capped with stored := rfl, rate := rfl }

end Functions

/-! ### Runs -/

/-- The first limiter and the timestamp of the current block. -/
structure Original where
  now : ℕ
  limiter : RateLimited
deriving DecidableEq

/-- The same calls on the first limiter, with the numbers widened. -/
def originalStep (c : CoreRef) (s : Original) : Call → Except Revert Original
  | .wait seconds => .ok { s with now := s.now + seconds }
  | .depleteBuffer amount =>
    (s.limiter.depleteBuffer s.now amount).map fun r => { s with limiter := r.1 }
  | .replenishBuffer amount =>
    (s.limiter.replenishBuffer s.now amount).map fun l => { s with limiter := l }
  | .setRateLimitPerSecond ctx rate =>
    (s.limiter.setRateLimitPerSecond c ctx s.now rate.val).map fun l => { s with limiter := l }
  | .setBufferCap ctx cap =>
    (s.limiter.setBufferCap c ctx s.now cap.val).map fun l => { s with limiter := l }

/-- Setters are called by a governor, who may call those of both limiters. -/
def Authorised : Call → Prop
  | .setRateLimitPerSecond ctx _ => ctx.isGovernor ctx.sender = true
  | .setBufferCap ctx _ => ctx.isGovernor ctx.sender = true
  | _ => True

/-- The same time, and limiters that agree at it. -/
def Related (s : Original) (t : State) : Prop := s.now = t.now ∧ Agrees t.now s.limiter t.limiter

theorem step_lockstep {c : CoreRef} {s : Original} {t : State} {call : Call} (authorised : Authorised call)
    (early : t.now < 2 ^ 32) (related : Related s t) :
    Lockstep Related (originalStep c s call) (step t call) := by
  obtain ⟨now, agrees⟩ := related
  cases call with
  | wait seconds => exact .ok ⟨congrArg (· + seconds) now, agrees.later seconds⟩
  | depleteBuffer amount =>
    rw [originalStep, step, now]
    exact (agrees.depleteBuffer early amount).map fun _ _ after => ⟨rfl, after⟩
  | replenishBuffer amount =>
    rw [originalStep, step, now]
    exact (agrees.replenishBuffer early amount).map fun _ _ after => ⟨rfl, after⟩
  | setRateLimitPerSecond ctx rate =>
    rw [originalStep, step, now]
    exact (agrees.setRateLimitPerSecond early authorised rate).map fun _ _ after => ⟨rfl, after⟩
  | setBufferCap ctx cap =>
    rw [originalStep, step, now]
    exact (agrees.setBufferCap early authorised cap).map fun _ _ after => ⟨rfl, after⟩

/-- Time does not go back. -/
theorem now_le_attempt (t : State) (call : Call) : t.now ≤ (attempt step t call).now := by
  cases stepped : step t call with
  | error reason => rw [attempt_of_error stepped]
  | ok next =>
    rw [attempt_of_ok stepped]
    cases call with
    | wait seconds =>
      obtain rfl := Except.ok.inj stepped
      exact Nat.le_add_right ..
    | depleteBuffer | replenishBuffer | setRateLimitPerSecond | setBufferCap =>
      obtain ⟨_, -, rfl⟩ := map_eq_ok.mp stepped
      exact le_rfl

/-- The constructors of both limiters succeed together. After any calls, tried on both in the same order
before timestamp `2 ** 32`, both quote the same buffer, and each further call succeeds on one exactly
when it succeeds on the other. -/
theorem limiters_agree {c : CoreRef} {start maxRateLimitPerSecond : ℕ}
    {rateLimitPerSecond bufferCap : Uint 128} (early : start < 2 ^ 32) :
    ((∃ original, RateLimited.deploy start maxRateLimitPerSecond rateLimitPerSecond.val bufferCap.val false =
        .ok original) ↔
      ∃ packed, RateLimitedV2.deploy start maxRateLimitPerSecond rateLimitPerSecond bufferCap = .ok packed) ∧
    ∀ original packed calls,
      RateLimited.deploy start maxRateLimitPerSecond rateLimitPerSecond.val bufferCap.val false =
        .ok original →
      RateLimitedV2.deploy start maxRateLimitPerSecond rateLimitPerSecond bufferCap = .ok packed →
      (∀ call ∈ calls, Authorised call) → (attempts step ⟨start, packed⟩ calls).now < 2 ^ 32 →
      let s := attempts (originalStep c) ⟨start, original⟩ calls
      let t := attempts step ⟨start, packed⟩ calls
      s.now = t.now ∧
      (∃ level, s.limiter.buffer s.now = .ok level ∧ t.limiter.buffer t.now = .ok level) ∧
      ∀ call, Authorised call →
        ((∃ next, originalStep c s call = .ok next) ↔ ∃ next, step t call = .ok next) := by
  have constructors := deploy_lockstep early maxRateLimitPerSecond rateLimitPerSecond bufferCap
  refine ⟨constructors.ok_iff, ?_⟩
  intro original packed calls first second authorised inTime s t
  rw [first, second] at constructors
  cases constructors with
  | ok agrees =>
    have back (t : State) (call : Call) (within : (attempt step t call).now < 2 ^ 32) : t.now < 2 ^ 32 :=
      (now_le_attempt t call).trans_lt within
    have each (s : Original) (t : State) (call : Call) (allowed : Authorised call) (within : t.now < 2 ^ 32)
        (related : Related s t) : Lockstep Related (originalStep c s call) (step t call) :=
      step_lockstep allowed within related
    obtain ⟨now, after⟩ : Related s t := attempts_lockstep back each ⟨rfl, agrees⟩ authorised inTime
    obtain ⟨quote, packedQuote⟩ := after.buffer inTime
    refine ⟨now, ⟨_, ?_, packedQuote⟩, ?_⟩
    · rw [now]
      exact quote
    · intro call allowed
      exact (step_lockstep allowed inTime ⟨now, after⟩).ok_iff

/-- Depletions that succeed and fail, and a cap lowered below the level and raised again. -/
theorem limiters_agree_cap_lowered :
    let c : CoreRef := ⟨.governor, false⟩
    let governor := Context.withRoles 1 [.governor]
    let calls := [.depleteBuffer 600, .setBufferCap governor 200, .wait 5, .depleteBuffer 300,
      .setBufferCap governor 1000, .replenishBuffer 50, .setRateLimitPerSecond governor 20, .wait 7]
    let s := attempts (originalStep c) ⟨0, ⟨100, 10, 0, 1000, false, 1000⟩⟩ calls
    let t := attempts step ⟨0, ⟨100, 10, 1000, 0, 1000⟩⟩ calls
    s.limiter.buffer s.now = .ok 390 ∧ t.limiter.buffer t.now = .ok 390 := by
  intro c governor calls s t
  have original : RateLimited.deploy 0 100 10 1000 false = .ok ⟨100, 10, 0, 1000, false, 1000⟩ := by decide
  have packed : RateLimitedV2.deploy 0 100 10 1000 = .ok ⟨100, 10, 1000, 0, 1000⟩ := by decide
  have authorised : ∀ call ∈ calls, Authorised call := by
    simp [calls, Authorised, governor, Context.isGovernor, Context.withRoles]
  have inTime : t.now < 2 ^ 32 := by decide +kernel
  have quote : t.limiter.buffer t.now = .ok 390 := by decide +kernel
  obtain ⟨level, first, second⟩ := ((@limiters_agree c 0 100 10 1000 (by decide)).2 _ _ calls original packed
    authorised inTime).2.1
  obtain rfl := Except.ok.inj (quote.symm.trans second)
  exact ⟨first, second⟩

end VoltProtocol.LimiterAgreement
