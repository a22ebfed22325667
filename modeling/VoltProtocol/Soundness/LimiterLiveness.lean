import VoltProtocol.Machine.History
import VoltProtocol.Model.PegStabilityModule

/-! # When the rate limiter of a PSM can be read and configured

`buffer()` adds the stored level and what accrued since before it cuts the sum off at the cap, and
both setters call it first. A limiter deployed with a cap so high that the sum can leave `uint256` is
therefore disabled for good: no call can lower the cap again. The constructor takes any cap and stores
it as the level, while that of RateLimitedV2 only takes numbers of 128 bits. Caps set later do no harm,
because the level stored then is cut off at the old cap. So a limiter stays alive in every run exactly
when its first cap and all that can ever accrue fit a word together.
-/

namespace VoltProtocol.LimiterLiveness

open Machine RateLimited PegStabilityModule

/-- The calls that read or write the limiter, and the passing of time. -/
inductive Call where
  | wait (seconds : ℕ)
  | depleteBuffer (amount : ℕ)
  | setRateLimitPerSecond (c : CoreRef) (ctx : Context) (newRateLimitPerSecond : ℕ)
  | setBufferCap (c : CoreRef) (ctx : Context) (newBufferCap : ℕ)

structure State where
  now : ℕ
  limiter : RateLimited

def step (s : State) : Call → Except Revert State
  | .wait seconds => .ok { s with now := s.now + seconds }
  | .depleteBuffer amount => (fun depleted => { s with limiter := depleted.1 }) <$> s.limiter.depleteBuffer s.now amount
  | .setRateLimitPerSecond c ctx rate =>
    (fun limiter => { s with limiter }) <$> s.limiter.setRateLimitPerSecond c ctx s.now rate
  | .setBufferCap c ctx cap => (fun limiter => { s with limiter }) <$> s.limiter.setBufferCap c ctx s.now cap

/-- The buffer can be read, and a governor can set any word as the cap and any admissible rate. -/
structure Live (s : State) : Prop where
  buffer : ∃ level, s.limiter.buffer s.now = .ok level
  setBufferCap (c : CoreRef) (ctx : Context) (governs : ctx.isGovernor ctx.sender = true) (cap : Uint 256) :
    ∃ limiter, s.limiter.setBufferCap c ctx s.now cap = .ok limiter
  setRateLimitPerSecond (c : CoreRef) (ctx : Context) (governs : ctx.isGovernor ctx.sender = true) (rate : ℕ)
    (admissible : rate ≤ s.limiter.MAX_RATE_LIMIT_PER_SECOND) :
    ∃ limiter, s.limiter.setRateLimitPerSecond c ctx s.now rate = .ok limiter

/-- A limiter stays alive while timestamps have 64 bits, whatever calls are made and whichever fail. -/
def StaysLive (now : ℕ) (limiter : RateLimited) : Prop :=
  ∀ calls, (attempts step ⟨now, limiter⟩ calls).now < 2 ^ 64 → Live (attempts step ⟨now, limiter⟩ calls)

variable {s t : State} {call : Call} {now rateLimitPerSecond bufferCap : ℕ} {doPartialAction : Bool}
  {limiter : RateLimited}

/-! ### Reading and configuring -/

/-- A limiter whose buffer can be read can be configured. -/
theorem live_of_readable (readable : s.limiter.Readable s.now) : Live s := by
  have read : s.limiter.buffer s.now = .ok (s.limiter.level s.now) := buffer_eq_ok.mpr ⟨readable, rfl⟩
  obtain ⟨synced, updated⟩ : ∃ synced, s.limiter.updateBufferStored s.now = .ok synced := by
    simp only [updateBufferStored, bind_eq_ok, pure_eq_ok]
    exact ⟨_, _, read, rfl⟩
  refine ⟨⟨_, read⟩, ?_, ?_⟩
  · intro c ctx governs cap
    refine ⟨{ synced with bufferCap := cap }, ?_⟩
    simp only [RateLimited.setBufferCap, setBufferCapInternal, CoreRef.onlyGovernorOrAdmin, bind_eq_ok,
      require_eq_ok, governs, Bool.true_or, pure_eq_ok]
    exact ⟨(), trivial, synced, updated, rfl⟩
  · intro c ctx governs rate admissible
    refine ⟨synced.setRateLimitPerSecondInternal rate, ?_⟩
    simp only [RateLimited.setRateLimitPerSecond, CoreRef.onlyGovernorOrAdmin, bind_eq_ok,
      require_eq_ok, governs, Bool.true_or, pure_eq_ok]
    exact ⟨(), trivial, (), admissible, synced, updated, rfl⟩

theorem Live.readable (live : Live s) : s.limiter.Readable s.now := by
  obtain ⟨level, read⟩ := live.buffer
  exact (buffer_eq_ok.mp read).1

/-- Every call but the passing of time reads the buffer first. -/
theorem readable_of_step (stepped : step s call = .ok t) :
    (∃ seconds, call = .wait seconds) ∨ s.limiter.Readable s.now := by
  cases call with
  | wait seconds => exact .inl ⟨seconds, rfl⟩
  | depleteBuffer amount =>
    obtain ⟨⟨limiter, used⟩, depleted, -⟩ := map_eq_ok.mp stepped
    exact .inr (depleteBuffer_spec depleted).1.1
  | setRateLimitPerSecond c ctx rate =>
    obtain ⟨limiter, written, -⟩ := map_eq_ok.mp stepped
    exact .inr (setRateLimitPerSecond_spec written).2.1
  | setBufferCap c ctx cap =>
    obtain ⟨limiter, written, -⟩ := map_eq_ok.mp stepped
    exact .inr (setBufferCap_spec written).1

/-- A limiter that is stuck stays stuck: nothing but time can pass. -/
theorem not_live_attempts (past : s.limiter.lastBufferUsedTime ≤ s.now) (stuck : ¬ Live s) (calls : List Call) :
    ¬ Live (attempts step s calls) := by
  have kept := @attempts_invariant _ _ _ step (fun _ => True)
    (fun t => t.limiter.lastBufferUsedTime ≤ t.now ∧ ¬ t.limiter.Readable t.now) s calls ?_
    (fun _ _ => trivial) ⟨past, fun readable => stuck (live_of_readable readable)⟩
  · intro live
    exact kept.2 live.readable
  · rintro state call next _ ⟨earlier, unreadable⟩ stepped
    obtain ⟨seconds, rfl⟩ | readable := readable_of_step stepped
    · obtain rfl := Except.ok.inj stepped
      refine ⟨earlier.trans (Nat.le_add_right ..), ?_⟩
      intro later
      exact unreadable (Readable.of_add earlier later)
    · exact absurd readable unreadable

/-! ### What the stored level keeps -/

/-- The stored level does not exceed the first cap and all that accrued since the deployment at the maximum
rate, whatever caps were set in between. -/
structure Bounded (now bufferCap : ℕ) (s : State) : Prop where
  since : now ≤ s.limiter.lastBufferUsedTime
  past : s.limiter.lastBufferUsedTime ≤ s.now
  stored : s.limiter.bufferStored ≤ bufferCap + MAX_FEI_LIMIT_PER_SECOND * (s.limiter.lastBufferUsedTime - now)
  rate : s.limiter.rateLimitPerSecond ≤ MAX_FEI_LIMIT_PER_SECOND
  maximum : s.limiter.MAX_RATE_LIMIT_PER_SECOND = MAX_FEI_LIMIT_PER_SECOND

/-- The sum that `buffer()` computes is bounded in the same way. -/
theorem Bounded.sum_le (bounded : Bounded now bufferCap s) :
    s.limiter.bufferStored + s.limiter.rateLimitPerSecond * (s.now - s.limiter.lastBufferUsedTime) ≤
      bufferCap + MAX_FEI_LIMIT_PER_SECOND * (s.now - now) := by
  obtain ⟨since, past, stored, rate, -⟩ := bounded
  have split : s.now - now = (s.limiter.lastBufferUsedTime - now) + (s.now - s.limiter.lastBufferUsedTime) := by omega
  rw [split, Nat.mul_add, ← Nat.add_assoc]
  exact Nat.add_le_add stored (Nat.mul_le_mul_right _ rate)

/-- So is the level, which is all that is ever stored. -/
theorem Bounded.level_le (bounded : Bounded now bufferCap s) :
    s.limiter.level s.now ≤ bufferCap + MAX_FEI_LIMIT_PER_SECOND * (s.now - now) := by
  have sum := bounded.sum_le
  rw [Nat.mul_comm s.limiter.rateLimitPerSecond] at sum
  exact (min_le_left ..).trans sum

theorem Bounded.step (bounded : Bounded now bufferCap s) (stepped : LimiterLiveness.step s call = .ok t) :
    Bounded now bufferCap t := by
  have level := bounded.level_le
  obtain ⟨since, past, stored, rate, maximum⟩ := bounded
  cases call with
  | wait seconds =>
    obtain rfl := Except.ok.inj stepped
    exact ⟨since, past.trans (Nat.le_add_right ..), stored, rate, maximum⟩
  | depleteBuffer amount =>
    obtain ⟨⟨limiter, used⟩, depleted, rfl⟩ := map_eq_ok.mp stepped
    simp only [RateLimited.depleteBuffer, bind_eq_ok, buffer_eq_ok, require_eq_ok, checkedSub_eq_ok, pure_eq_ok,
      Prod.mk.injEq] at depleted
    obtain ⟨_, ⟨-, rfl⟩, _, -, _, -, left, ⟨-, rfl⟩, rfl, -⟩ := depleted
    exact ⟨since.trans past, le_rfl, (Nat.sub_le ..).trans level, rate, maximum⟩
  | setRateLimitPerSecond c ctx newRate =>
    obtain ⟨limiter, written, rfl⟩ := map_eq_ok.mp stepped
    simp only [RateLimited.setRateLimitPerSecond, updateBufferStored, bind_eq_ok, buffer_eq_ok, require_eq_ok,
      pure_eq_ok] at written
    obtain ⟨_, -, _, admissible, _, ⟨_, ⟨-, rfl⟩, rfl⟩, rfl⟩ := written
    exact ⟨since.trans past, le_rfl, level, maximum ▸ admissible, maximum⟩
  | setBufferCap c ctx newCap =>
    obtain ⟨limiter, written, rfl⟩ := map_eq_ok.mp stepped
    simp only [RateLimited.setBufferCap, setBufferCapInternal, updateBufferStored, bind_eq_ok, buffer_eq_ok,
      pure_eq_ok] at written
    obtain ⟨_, -, _, ⟨_, ⟨-, rfl⟩, rfl⟩, rfl⟩ := written
    -- what is stored was cut off at the old cap, so the new one does not matter
    exact ⟨since.trans past, le_rfl, level, rate, maximum⟩

/-- A deployed limiter is filled to its cap. -/
theorem deploy_eq_ok {maxRateLimitPerSecond : ℕ} :
    RateLimited.deploy now maxRateLimitPerSecond rateLimitPerSecond bufferCap doPartialAction = .ok limiter ↔
      rateLimitPerSecond ≤ maxRateLimitPerSecond ∧
        limiter = ⟨maxRateLimitPerSecond, rateLimitPerSecond, now, bufferCap, doPartialAction, bufferCap⟩ := by
  simp only [RateLimited.deploy, bind_eq_ok, require_eq_ok, pure_eq_ok, setBufferCapInternal, updateBufferStored]
  constructor
  · rintro ⟨_, ⟨_, ⟨_, -, rfl⟩, rfl⟩, _, admissible, rfl⟩
    exact ⟨admissible, rfl⟩
  · rintro ⟨admissible, rfl⟩
    refine ⟨_, ⟨_, ⟨0, ?_, rfl⟩, rfl⟩, (), admissible, rfl⟩
    exact buffer_eq_ok.mpr ⟨⟨le_rfl, by simp⟩, by simp [level, TokenBucket.Lazy.level, toLazy]⟩

/-! ### The first cap -/

/-- A governor sets the maximum rate at once, and then nothing happens until the last timestamp. -/
theorem room_of_staysLive (cap : Uint 256) (before : now < 2 ^ 64)
    (stays : StaysLive now ⟨MAX_FEI_LIMIT_PER_SECOND, rateLimitPerSecond, now, cap, doPartialAction, cap⟩) :
    cap.val + MAX_FEI_LIMIT_PER_SECOND * (2 ^ 64 - 1 - now) < 2 ^ 256 := by
  have raised : step ⟨now, ⟨MAX_FEI_LIMIT_PER_SECOND, rateLimitPerSecond, now, cap, doPartialAction, cap⟩⟩
      (.setRateLimitPerSecond ⟨.governor, false⟩ (Context.withRoles 1 [.governor]) MAX_FEI_LIMIT_PER_SECOND) =
      .ok ⟨now, ⟨MAX_FEI_LIMIT_PER_SECOND, MAX_FEI_LIMIT_PER_SECOND, now, cap, doPartialAction, cap⟩⟩ := by
    simp only [step, map_eq_ok, RateLimited.setRateLimitPerSecond, updateBufferStored, bind_eq_ok, require_eq_ok,
      pure_eq_ok]
    refine ⟨_, ⟨(), rfl, (), le_rfl, _, ⟨cap, ?_, rfl⟩, rfl⟩, rfl⟩
    exact buffer_eq_ok.mpr ⟨⟨le_rfl, by simp⟩, by simp [level, TokenBucket.Lazy.level, toLazy]⟩
  have live := stays [.setRateLimitPerSecond ⟨.governor, false⟩ (Context.withRoles 1 [.governor])
    MAX_FEI_LIMIT_PER_SECOND, .wait (2 ^ 64 - 1 - now)]
  rw [attempts, attempts, attempts, attempt_of_ok raised, attempt_of_ok rfl] at live
  obtain ⟨-, fits⟩ := (live (by change now + (2 ^ 64 - 1 - now) < 2 ^ 64; omega)).readable
  simpa only [Nat.add_sub_cancel_left] using fits

/-- Whatever arguments the constructor accepts, the limiter stays alive in every run exactly when its cap leaves
room in a word for all that can accrue from the deployment to the last timestamp of 64 bits. -/
theorem staysLive_iff (cap : Uint 256) (deployed : RateLimited.deploy now MAX_FEI_LIMIT_PER_SECOND rateLimitPerSecond
    cap doPartialAction = .ok limiter) :
    StaysLive now limiter ↔ cap.val + MAX_FEI_LIMIT_PER_SECOND * (2 ^ 64 - 1 - now) < 2 ^ 256 := by
  obtain ⟨admissible, rfl⟩ := deploy_eq_ok.mp deployed
  constructor
  · intro stays
    obtain before | late := Nat.lt_or_ge now (2 ^ 64)
    · exact room_of_staysLive cap before stays
    · rw [Nat.sub_eq_zero_of_le (by omega), Nat.mul_zero, Nat.add_zero]
      exact cap.isLt
  · intro room calls recent
    have start : Bounded now cap
        ⟨now, ⟨MAX_FEI_LIMIT_PER_SECOND, rateLimitPerSecond, now, cap, doPartialAction, cap⟩⟩ :=
      ⟨le_rfl, le_rfl, Nat.le_add_right .., admissible, rfl⟩
    have bounded := @attempts_invariant _ _ _ step (fun _ => True) (Bounded now cap) _ calls
      (fun state call next _ bounded stepped => bounded.step stepped) (fun _ _ => trivial) start
    refine live_of_readable ⟨bounded.past, bounded.sum_le.trans_lt ?_⟩
    refine lt_of_le_of_lt (Nat.add_le_add_left (Nat.mul_le_mul_left _ ?_) _) room
    omega

/-- A limiter with a cap of a hundred, whatever caps are set later. -/
theorem staysLive_iff_hundred : StaysLive 5 ⟨MAX_FEI_LIMIT_PER_SECOND, 1, 5, 100, false, 100⟩ := by
  have deployed : RateLimited.deploy 5 MAX_FEI_LIMIT_PER_SECOND 1 (100 : Uint 256) false =
      .ok ⟨MAX_FEI_LIMIT_PER_SECOND, 1, 5, 100, false, 100⟩ := by decide +kernel
  exact (staysLive_iff 100 deployed).mpr (by decide +kernel)

/-- A limiter deployed with the largest cap and a rate of one is stuck a second later, and for ever. -/
theorem not_staysLive_uint256Max :
    ∃ limiter, RateLimited.deploy 5 MAX_FEI_LIMIT_PER_SECOND 1 uint256Max false = .ok limiter ∧
      ¬ StaysLive 5 limiter ∧ ∀ calls, ¬ Live (attempts step ⟨6, limiter⟩ calls) := by
  have deployed : RateLimited.deploy 5 MAX_FEI_LIMIT_PER_SECOND 1 uint256Max false =
      .ok ⟨MAX_FEI_LIMIT_PER_SECOND, 1, 5, uint256Max, false, uint256Max⟩ := by decide +kernel
  have stuck : ¬ Live ⟨6, ⟨MAX_FEI_LIMIT_PER_SECOND, 1, 5, uint256Max, false, uint256Max⟩⟩ := by
    intro live
    obtain ⟨-, fits⟩ := live.readable
    norm_num [uint256Max] at fits
  refine ⟨_, deployed, ?_, not_live_attempts (by decide) stuck⟩
  intro stays
  exact stuck (stays [.wait 1] (by decide))

end VoltProtocol.LimiterLiveness
