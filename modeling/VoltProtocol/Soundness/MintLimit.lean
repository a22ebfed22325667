import VoltProtocol.Soundness.PegStabilitySystem

/-! # The rate limit on the VOLT a PSM has minted

The level of the buffer, less the maximum rate times the present time, is a potential that no call
raises and that every minted VOLT is paid from. A buffer that reverts pays for nothing: every call
that would write the limiter reverts with it, and it stays unreadable.
-/

namespace VoltProtocol.MintLimit

open Machine PegStabilityModule PegStabilitySystem TokenBucket

variable {ω : Type} {contracts : Contracts ω} {s t : State ω} {call : Call ω}

/-- The limiter as the constructor leaves it and every call keeps it. -/
structure Limited (s : State ω) : Prop where
  within : s.psm.toLazy.Within MAX_FEI_LIMIT_PER_SECOND s.now
  immutable : s.psm.MAX_RATE_LIMIT_PER_SECOND = MAX_FEI_LIMIT_PER_SECOND

/-- The VOLT minted for a call, which is the amount of its call of VOLT's `mint` (`minted_of_step`). -/
def minted (_ : State ω) (_ : Call ω) (t : State ω) : ℤ := t.minted

/-- The level of the buffer, less the most that time can have added to it. -/
def potential (s : State ω) : ℤ := s.psm.toLazy.credit ℤ MAX_FEI_LIMIT_PER_SECOND s.now

/-- What a call has minted comes out of the buffer and the time that passed. -/
def Pays (s : State ω) (call : Call ω) (t : State ω) : Prop := potential t + minted s call t ≤ potential s + 0

theorem limited_of_initial (initial : Initial s) : Limited s := by
  obtain ⟨params, deployed⟩ := initial
  obtain ⟨allowed, now, same, immutable⟩ := RateLimited.deploy_spec (deploy_limiter deployed)
  have stored : s.psm.rateLimitPerSecond = params.feiLimitPerSecond := congrArg Bucket.rate same
  exact ⟨⟨now.le, stored.trans_le allowed⟩, immutable⟩

/-- A call that leaves the limiter and the time alone and has nothing minted. -/
private theorem pays_of_same (limited : Limited s) (now : t.now = s.now)
    (same : t.psm.toRateLimited = s.psm.toRateLimited) (unminted : t.minted = 0) :
    Limited t ∧ Pays s call t := by
  obtain ⟨within, immutable⟩ := limited
  refine ⟨⟨?_, ?_⟩, ?_⟩
  · rw [same, now]
    exact within
  · rw [same]
    exact immutable
  · simp [Pays, potential, minted, unminted, same, now]

/-- A call that writes a limiter that has paid. -/
private theorem pays_of_written {b : Bucket ℕ} (limited : Limited s) (now : t.now = s.now)
    (written : t.psm.lastBufferUsedTime = s.now) (same : t.psm.bucket s.now = b)
    (rate : b.rate ≤ MAX_FEI_LIMIT_PER_SECOND)
    (immutable : t.psm.MAX_RATE_LIMIT_PER_SECOND = s.psm.MAX_RATE_LIMIT_PER_SECOND)
    (paid : b.level + t.minted ≤ s.psm.level s.now) : Limited t ∧ Pays s call t := by
  have covers : (b.level : ℤ) + t.minted ≤ s.psm.toLazy.level s.now + 0 := by
    rw [add_zero]
    exact_mod_cast paid
  obtain ⟨within, pays⟩ := Lazy.pays_of_bucket written.le same rate covers
  rw [Pays, potential, now]
  exact ⟨⟨now ▸ within, immutable.trans limited.immutable⟩, pays⟩

/-- Every call keeps the limiter within its bounds and pays for what it has minted. -/
theorem step_pays (limited : Limited s) (stepped : step contracts s call = .ok t) :
    Limited t ∧ Pays s call t := by
  by_cases limits : call.limits
  · cases call with
    | wait seconds =>
      obtain rfl := Except.ok.inj stepped
      refine ⟨⟨limited.within.wait seconds, limited.immutable⟩, ?_⟩
      simp only [Pays, minted, Nat.cast_zero, add_zero]
      exact limited.within.credit_wait seconds
    | mint sender recipient amountIn minAmountOut =>
      obtain ⟨o, minting, rfl⟩ := map_eq_ok.mp stepped
      obtain ⟨-, ⟨same, unminted⟩ | ⟨amount, depleted⟩⟩ := mint_limiter minting
      · exact pays_of_same limited rfl same unminted
      · obtain ⟨⟨-, enough, -⟩, now, same, immutable⟩ := RateLimited.depleteBuffer_spec depleted
        refine pays_of_written limited rfl now same limited.within.rate immutable ?_
        exact (Nat.sub_add_cancel enough).le
    | setRateLimitPerSecond ctx rate =>
      obtain ⟨limiter, set, rfl⟩ := map_eq_ok.mp stepped
      obtain ⟨allowed, -, now, same, immutable⟩ := RateLimited.setRateLimitPerSecond_spec set
      rw [limited.immutable] at allowed
      exact pays_of_written limited rfl now same allowed immutable le_rfl
    | setBufferCap ctx cap =>
      obtain ⟨limiter, set, rfl⟩ := map_eq_ok.mp stepped
      obtain ⟨-, now, same, immutable⟩ := RateLimited.setBufferCap_spec set
      exact pays_of_written limited rfl now same limited.within.rate immutable (min_le_left ..)
    | _ => cases limits
  · obtain ⟨now, same, unminted⟩ := limiter_of_step (Bool.eq_false_iff.mpr limits) stepped
    exact pays_of_same limited now same unminted

/-- A limiter whose buffer reverts now and whose time stored is past. -/
def Stuck (s : State ω) : Prop :=
  s.psm.lastBufferUsedTime ≤ s.now ∧ ¬ s.psm.Readable s.now

/-- While the buffer reverts nothing is minted and nothing about the limiter can be changed. -/
theorem stuck_of_step (stuck : Stuck s) (stepped : step contracts s call = .ok t) :
    Stuck t ∧ t.minted = 0 := by
  obtain ⟨past, unreadable⟩ := stuck
  by_cases limits : call.limits
  · cases call with
    | wait seconds =>
      obtain rfl := Except.ok.inj stepped
      refine ⟨⟨past.trans (Nat.le_add_right ..), ?_⟩, rfl⟩
      intro later
      apply unreadable
      exact later.of_add past
    | mint sender recipient amountIn minAmountOut =>
      obtain ⟨o, minting, rfl⟩ := map_eq_ok.mp stepped
      obtain ⟨-, ⟨same, unminted⟩ | ⟨amount, depleted⟩⟩ := mint_limiter minting
      · refine ⟨?_, unminted⟩
        rw [Stuck, State.commit, same]
        exact ⟨past, unreadable⟩
      · exact absurd (RateLimited.depleteBuffer_spec depleted).1.1 unreadable
    | setRateLimitPerSecond ctx rate =>
      obtain ⟨limiter, set, rfl⟩ := map_eq_ok.mp stepped
      exact absurd (RateLimited.setRateLimitPerSecond_spec set).2.1 unreadable
    | setBufferCap ctx cap =>
      obtain ⟨limiter, set, rfl⟩ := map_eq_ok.mp stepped
      exact absurd (RateLimited.setBufferCap_spec set).1 unreadable
    | _ => cases limits
  · obtain ⟨now, same, unminted⟩ := limiter_of_step (Bool.eq_false_iff.mpr limits) stepped
    refine ⟨?_, unminted⟩
    rw [Stuck, now, same]
    exact ⟨past, unreadable⟩

theorem limited_of_reachable (reached : Reachable (step contracts) Initial s) : Limited s :=
  reached.invariant (fun _ => limited_of_initial) fun _ _ _ limited stepped => (step_pays limited stepped).1

/-- From a reachable state, any run has at most the buffer at its start and the maximum rate for the
time it takes minted, and nothing at all when that buffer reverts. A new cap leaves in the buffer
what was there, up to the cap. -/
theorem minted_le {calls : List (Call ω)} (reached : Reachable (step contracts) Initial s)
    (success : run (step contracts) s calls = .ok t) :
    (∀ level, s.psm.buffer s.now = .ok level → total (step contracts) minted s calls ≤
      level + MAX_FEI_LIMIT_PER_SECOND * ((t.now : ℤ) - s.now)) ∧
    ((∀ level, s.psm.buffer s.now ≠ .ok level) → total (step contracts) minted s calls = 0) ∧
    ∀ ctx cap u, step contracts s (.setBufferCap ctx cap) = .ok u →
      ∃ level, s.psm.buffer s.now = .ok level ∧ u.psm.buffer u.now = .ok (min level cap) := by
  have limited := limited_of_reachable reached
  refine ⟨?_, ?_, ?_⟩
  · intro level read
    have paid := total_le_of_potential potential (fun _ _ _ limited stepped => (step_pays limited stepped).1)
      (fun _ _ _ limited stepped => (step_pays limited stepped).2) limited success
    rw [total_zero] at paid
    obtain ⟨-, rfl⟩ := RateLimited.buffer_eq_ok.mp read
    exact (Lazy.le_of_credit paid).trans_eq (add_zero _)
  · intro reverts
    have unreadable : ¬ s.psm.Readable s.now := by
      intro readable
      exact reverts _ (RateLimited.buffer_eq_ok.mpr ⟨readable, rfl⟩)
    have nothing (state : State ω) (call : Call ω) (next : State ω) (stuck : Stuck state)
        (stepped : step contracts state call = .ok next) : Stuck next ∧ minted state call next = 0 := by
      obtain ⟨still, unminted⟩ := stuck_of_step stuck stepped
      exact ⟨still, by rw [minted, unminted, Nat.cast_zero]⟩
    exact total_eq_zero nothing ⟨limited.within.past, unreadable⟩
  · intro ctx cap u stepped
    obtain ⟨limiter, set, rfl⟩ := map_eq_ok.mp stepped
    exact RateLimited.buffer_setBufferCap set

/-- A cap lowered below the level and raised again between mints, with a redemption on the way. -/
theorem minted_le_cap_lowered :
    let governor := Context.withRoles 1 [.governor]
    let contracts := exactContracts ⟨10 ^ 18⟩
    let start : State (Address → Address → ℕ) :=
      { now := 50
        psm :=
          { CONTRACT_ADMIN_ROLE := .psmAdmin, paused := false,
            MAX_RATE_LIMIT_PER_SECOND := MAX_FEI_LIMIT_PER_SECOND, rateLimitPerSecond := 10 ^ 18,
            lastBufferUsedTime := 50, bufferCap := 10 ^ 21, doPartialAction := false,
            bufferStored := 10 ^ 21, oracle := 7, backupOracle := 0, decimalsNormalizer := 0,
            doInvert := false, self := 100, volt := 5, underlyingToken := 6, surplusTarget := 8,
            mintFeeBasisPoints := 30, redeemFeeBasisPoints := 0, reservesThreshold := 1, MAX_FEE := 300,
            redeemPaused := false, mintPaused := false, priceBound := none }
        world := fun token a => if token = 6 ∧ a = 2 then 10 ^ 24 else if token = 5 ∧ a = 100 then 40 else 0
        minted := 0 }
    let calls := [.mint 2 3 (10 ^ 20) 0, .setBufferCap governor (10 ^ 19), .wait 5,
      .setRateLimitPerSecond governor MAX_FEI_LIMIT_PER_SECOND, .setBufferCap governor (10 ^ 22),
      .mint 2 3 (10 ^ 19) 0, .wait 1, .redeem 3 2 (10 ^ 19) 0, .mint 2 3 (10 ^ 22) (9 * 10 ^ 21)]
    ∃ t, run (step contracts) start calls = .ok t ∧
      total (step contracts) minted start calls = 1006967 * 10 ^ 16 - 40 ∧
      total (step contracts) minted start calls ≤
        (10 ^ 21 : ℕ) + MAX_FEI_LIMIT_PER_SECOND * ((t.now : ℤ) - (50 : ℕ)) := by
  intro governor contracts start calls
  have ok : (run (step contracts) start calls).isOk = true := by decide +kernel
  have initial : Initial start := by
    refine ⟨⟨100, 5, 7, 0, 0, false, 30, 0, 1, 10 ^ 18, 10 ^ 21, 6, 8, none⟩, ?_⟩
    decide +kernel
  have read : start.psm.buffer start.now = .ok (10 ^ 21) := by decide +kernel
  obtain ⟨t, success⟩ := exists_of_isOk ok
  exact ⟨t, success, by decide +kernel, (minted_le ⟨start, [], initial, rfl⟩ success).1 _ read⟩

end VoltProtocol.MintLimit
