import VoltProtocol.Soundness.AllocatorSystem

/-! # The rate limit over all PSMs of an allocator

Drips and skims of tokens with different decimals share one buffer. Measured in the unit of the
buffer, what is dripped is paid for by the level of the buffer, by the time that passes and by what
is skimmed: the level less the maximum rate times the present time is a potential that no call
overdraws, except by the fraction of a unit that a drip with a negative normalizer rounds away.
-/

namespace VoltProtocol.AllocatorLimit

open Machine ERC20Allocator AllocatorSystem TokenBucket

variable {ω : Type}

/-- The exact value of an amount of the token of a PSM. -/
def value (info : PSMInfo) (amount : ℕ) : ℚ := amount * info.unitValue

/-- The value an event reports as dripped. -/
def drippedValue (a : ERC20Allocator) : Event → ℚ
  | .dripped amount psm => value (a.allPSMs psm) amount
  | .skimmed _ _ => 0

/-- The value an event reports as skimmed. -/
def skimmedValue (a : ERC20Allocator) : Event → ℚ
  | .dripped _ _ => 0
  | .skimmed amount pcvDeposit => value (a.linkedPSM pcvDeposit) amount

/-- Counts the drips made for a PSM with a negative normalizer. -/
def roundedDrip (a : ERC20Allocator) : Event → ℚ
  | .dripped _ psm => if (a.allPSMs psm).decimalsNormalizer.val < 0 then 1 else 0
  | .skimmed _ _ => 0

/-- What the events of one call report, read with the PSMs stored when it was made. The amounts are those that the call
withdraws (`Allocated.withdrawn`). -/
def observed (measure : ERC20Allocator → Event → ℚ) (s : State ω) (_ : Call ω) (t : State ω) : ℚ :=
  (t.events.map (measure s.allocator)).sum

/-- The limiter as the constructor leaves it and every call keeps it. -/
structure Limited (maximum : ℕ) (s : State ω) : Prop where
  within : s.allocator.toLazy.Within maximum s.now
  immutable : s.allocator.MAX_RATE_LIMIT_PER_SECOND = maximum

/-- The level of the buffer, less the most that time can have added to it. -/
def potential (maximum : ℕ) (s : State ω) : ℚ := s.allocator.toLazy.credit ℚ maximum s.now

variable {contracts : Contracts ω} {s t : State ω} {call : Call ω} {maximum : ℕ}

theorem limited_of_initial (initial : Initial s) :
    Limited s.allocator.MAX_RATE_LIMIT_PER_SECOND s := by
  obtain ⟨⟨maximum, rate, cap, deployed⟩, -⟩ := initial_spec initial
  obtain ⟨allowed, readable, same, immutable⟩ := RateLimitedV2.deploy_spec deployed
  have stored : s.allocator.rateLimitPerSecond.val = rate.val := congrArg Bucket.rate same
  exact ⟨⟨readable.1, stored.trans_le (immutable ▸ allowed)⟩, rfl⟩

/-- What a call pays: the value it drips, out of the potential and what it skims. -/
def Pays (maximum : ℕ) (s : State ω) (call : Call ω) (t : State ω) : Prop :=
  potential maximum t + observed drippedValue s call t ≤
    potential maximum s + (observed skimmedValue s call t + observed roundedDrip s call t)

/-- A call without events that leaves the limiter alone. -/
private theorem pays_of_same (limited : Limited maximum s) (now : t.now = s.now)
    (same : t.allocator.toRateLimitedV2 = s.allocator.toRateLimitedV2) (quiet : t.events = []) :
    Limited maximum t ∧ Pays maximum s call t := by
  obtain ⟨within, immutable⟩ := limited
  refine ⟨⟨?_, ?_⟩, ?_⟩
  · rw [same, now]
    exact within
  · rw [same]
    exact immutable
  · simp [Pays, potential, observed, quiet, same, now]

/-- A call that writes a limiter that has paid, with what it did to the bucket. -/
private theorem pays_of_written {limiter : RateLimitedV2} {b : Bucket ℕ} (limited : Limited maximum s)
    (now : t.now = s.now) (written : t.allocator.toRateLimitedV2 = limiter) (readable : limiter.Readable s.now)
    (same : limiter.bucket s.now = b) (rate : b.rate ≤ maximum)
    (immutable : limiter.MAX_RATE_LIMIT_PER_SECOND = s.allocator.MAX_RATE_LIMIT_PER_SECOND)
    (paid : (b.level : ℚ) + observed drippedValue s call t ≤
      s.allocator.toLazy.level s.now + (observed skimmedValue s call t + observed roundedDrip s call t)) :
    Limited maximum t ∧ Pays maximum s call t := by
  subst written
  obtain ⟨within, pays⟩ := Lazy.pays_of_bucket readable.1 same rate paid
  rw [Pays, potential, now]
  exact ⟨⟨now ▸ within, immutable.trans limited.immutable⟩, pays⟩

/-- A setter pays when it does not raise the level. -/
private theorem pays_of_setter {limiter : RateLimitedV2} {b : Bucket ℕ} (limited : Limited maximum s)
    (readable : limiter.Readable s.now) (same : limiter.bucket s.now = b) (rate : b.rate ≤ maximum)
    (lower : b.level ≤ s.allocator.level s.now)
    (immutable : limiter.MAX_RATE_LIMIT_PER_SECOND = s.allocator.MAX_RATE_LIMIT_PER_SECOND) :
    Limited maximum (s.writeLimiter limiter) ∧ Pays maximum s call (s.writeLimiter limiter) := by
  refine pays_of_written limited rfl rfl readable same rate immutable ?_
  simp only [observed, State.writeLimiter, State.write, List.map_nil, List.sum_nil, add_zero]
  exact Nat.cast_le.mpr lower

theorem drips_pays {pcvDeposit : Address} {o : Outcome ω} {amount : ℕ} (limited : Limited maximum s)
    (drips : Drips contracts s.allocator s.now s.world pcvDeposit o amount) :
    Limited maximum (s.commit o) ∧ Pays maximum s call (s.commit o) := by
  obtain ⟨limiter, charged, written⟩ := drips.charged
  obtain ⟨⟨-, -, enough⟩, readable, same, immutable⟩ := RateLimitedV2.depleteBuffer_spec charged
  have stored : (s.commit o).allocator.toRateLimitedV2 = limiter := by rw [State.commit, written]
  refine pays_of_written limited rfl stored readable same limited.within.rate immutable ?_
  have cost := @value_le_rescale amount (s.allocator.linkedPSM pcvDeposit)
  rw [Bucket.drain_level, RateLimitedV2.bucket_level, Nat.cast_sub enough, RateLimitedV2.level]
  simp only [observed, State.commit, drips.logged, List.map_cons, List.map_nil, List.sum_cons,
    List.sum_nil, drippedValue, skimmedValue, roundedDrip, value]
  linarith

theorem skims_pays {pcvDeposit : Address} {o : Outcome ω} {amount : ℕ} (limited : Limited maximum s)
    (skims : Skims contracts s.allocator s.now s.world pcvDeposit o amount) :
    Limited maximum (s.commit o) ∧ Pays maximum s call (s.commit o) := by
  obtain ⟨limiter, credited, written⟩ := skims.credited
  obtain ⟨-, readable, same, immutable⟩ := RateLimitedV2.replenishBuffer_spec credited
  have stored : (s.commit o).allocator.toRateLimitedV2 = limiter := by rw [State.commit, written]
  refine pays_of_written limited rfl stored readable same limited.within.rate immutable ?_
  have credit := @rescale_le _ _ _ _ _ amount _ (s.allocator.linkedPSM pcvDeposit).unitValue_pos
  have refilled := Bucket.refill_level_le (s.allocator.bucket s.now)
    (rescale amount (s.allocator.linkedPSM pcvDeposit).unitValue)
  have raised : ((((s.allocator.bucket s.now).refill
      (rescale amount (s.allocator.linkedPSM pcvDeposit).unitValue)).level : ℕ) : ℚ) ≤
      s.allocator.toLazy.level s.now + rescale amount (s.allocator.linkedPSM pcvDeposit).unitValue := by
    exact_mod_cast refilled
  simp only [observed, State.commit, skims.logged, List.map_cons, List.map_nil, List.sum_cons,
    List.sum_nil, drippedValue, skimmedValue, roundedDrip, value]
  linarith

/-- Every call keeps the limiter within its bounds and pays for what it drips. -/
theorem step_pays (limited : Limited maximum s) (stepped : step contracts s call = .ok t) :
    Limited maximum t ∧ Pays maximum s call t := by
  have allocated {pcvDeposit : Address} (allocates : call.Allocates pcvDeposit) :
      Limited maximum t ∧ Pays maximum s call t := by
    cases allocated_of_step allocates stepped with
    | dripped o amount drips => exact drips_pays limited drips
    | skimmed o amount skims => exact skims_pays limited skims
    | idle => exact pays_of_same limited rfl rfl rfl
  cases call with
  | wait seconds =>
    obtain rfl := Except.ok.inj stepped
    refine ⟨⟨limited.within.wait seconds, limited.immutable⟩, ?_⟩
    simp only [Pays, observed, List.map_nil, List.sum_nil, add_zero]
    exact limited.within.credit_wait seconds
  | environment world =>
    obtain rfl := Except.ok.inj stepped
    exact pays_of_same limited rfl rfl rfl
  | skim pcvDeposit => exact allocated (.skim pcvDeposit)
  | drip pcvDeposit => exact allocated (.drip pcvDeposit)
  | doAction pcvDeposit => exact allocated (.doAction pcvDeposit)
  | setRateLimitPerSecond ctx rate =>
    obtain ⟨limiter, set, rfl⟩ := map_eq_ok.mp stepped
    obtain ⟨allowed, -, readable, same, immutable⟩ := RateLimitedV2.setRateLimitPerSecond_spec set
    rw [limited.immutable] at allowed
    exact pays_of_setter limited readable same allowed le_rfl immutable
  | setBufferCap ctx cap =>
    obtain ⟨limiter, set, rfl⟩ := map_eq_ok.mp stepped
    obtain ⟨-, readable, same, immutable⟩ := RateLimitedV2.setBufferCap_spec set
    exact pays_of_setter limited readable same limited.within.rate (min_le_left ..) immutable
  | connectPSM | editPSMTargetBalance | disconnectPSM | connectDeposit | deleteDeposit =>
    obtain ⟨a, links, rfl⟩ := links_of_step rfl stepped
    exact pays_of_same limited rfl links.limiter rfl
  | sweep | pause | unpause | setContractAdminRole =>
    obtain ⟨_, -, rfl⟩ := map_eq_ok.mp stepped
    exact pays_of_same limited rfl rfl rfl

theorem limited_of_reachable (reached : Reachable (step contracts) Initial s) :
    ∃ maximum, Limited maximum s := by
  have preserved (state : State ω) (call : Call ω) (next : State ω)
      (limited : ∃ maximum, Limited maximum state) (stepped : step contracts state call = .ok next) :
      ∃ maximum, Limited maximum next := by
    obtain ⟨maximum, limited⟩ := limited
    exact ⟨maximum, (step_pays limited stepped).1⟩
  exact reached.invariant (fun state initial => ⟨_, limited_of_initial initial⟩) preserved

/-- Over any run from a reachable state, the value dripped is at most the buffer at the start, the
maximum rate for the time that passed, the value skimmed, and one unit for every drip made for a
PSM with a negative normalizer. -/
theorem dripped_value_le {calls : List (Call ω)} {level : ℕ} (reached : Reachable (step contracts) Initial s)
    (read : s.allocator.buffer s.now = .ok level) (success : run (step contracts) s calls = .ok t) :
    total (step contracts) (observed drippedValue) s calls ≤
      level + s.allocator.MAX_RATE_LIMIT_PER_SECOND * ((t.now : ℚ) - s.now) +
        total (step contracts) (observed skimmedValue) s calls +
        total (step contracts) (observed roundedDrip) s calls := by
  obtain ⟨maximum, limited⟩ := limited_of_reachable reached
  have paid := total_le_of_potential (potential maximum)
    (fun _ _ _ limited stepped => (step_pays limited stepped).1)
    (fun _ _ _ limited stepped => (step_pays limited stepped).2) limited success
  rw [total_add] at paid
  obtain ⟨-, rfl⟩ := RateLimitedV2.buffer_eq_ok.mp read
  rw [limited.immutable, add_assoc]
  exact Lazy.le_of_credit paid

/-- A six-decimal and a twenty-decimal token on one buffer; the second drip rounds down. -/
theorem dripped_value_le_two_tokens :
    let governor := Context.withRoles 1 [.governor]
    let reported (a : Address) : Address := if a = 10 ∨ a = 20 then 5 else if a = 11 ∨ a = 21 then 6 else 0
    let start : State (Address → Address → ℕ) :=
      { now := 0
        allocator :=
          { CONTRACT_ADMIN_ROLE := .governor, paused := false, MAX_RATE_LIMIT_PER_SECOND := 10 ^ 18,
            rateLimitPerSecond := 10 ^ 17, bufferCap := 10 ^ 21, lastBufferUsedTime := 0,
            bufferStored := 10 ^ 21, allPSMs := fun _ => .blank, pcvDepositToPSM := fun _ => 0 }
        world := fun token a => if token = 5 ∧ a = 20 then 2 * 10 ^ 9 else
          if token = 6 ∧ a = 21 then 7 * 10 ^ 20 + 55 else 0
        events := [] }
    let calls := [.connectPSM governor 10 (3 * 10 ^ 8) ⟨12, by decide⟩,
      .connectPSM governor 11 (7 * 10 ^ 20 + 55) ⟨-2, by decide⟩, .connectDeposit governor 10 20,
      .connectDeposit governor 11 21, .drip 20, .wait 10, .drip 21, .setBufferCap governor (10 ^ 20),
      .setRateLimitPerSecond governor (10 ^ 18), .editPSMTargetBalance governor 10 (2 * 10 ^ 8),
      .skim 20, .setBufferCap governor (10 ^ 21)]
    ∃ t, run (step (exactContracts reported)) start calls = .ok t ∧
      total (step (exactContracts reported)) (observed drippedValue) start calls = 307 * 10 ^ 18 + 55 / 100 ∧
      total (step (exactContracts reported)) (observed drippedValue) start calls ≤
        (10 ^ 21 : ℕ) + (10 ^ 18 : ℕ) * ((t.now : ℚ) - (0 : ℕ)) +
          total (step (exactContracts reported)) (observed skimmedValue) start calls +
          total (step (exactContracts reported)) (observed roundedDrip) start calls := by
  intro governor reported start calls
  have ok : (run (step (exactContracts reported)) start calls).isOk = true := by decide +kernel
  have deployed : RateLimitedV2.deploy 0 (10 ^ 18) (10 ^ 17) (10 ^ 21) =
      .ok start.allocator.toRateLimitedV2 := by decide +kernel
  have initial : Initial start :=
    ⟨10 ^ 18, 10 ^ 17, 10 ^ 21, bind_eq_ok.mpr ⟨_, deployed, rfl⟩⟩
  have read : start.allocator.buffer start.now = .ok (10 ^ 21) := by decide +kernel
  obtain ⟨t, success⟩ := exists_of_isOk ok
  exact ⟨t, success, by decide +kernel, dripped_value_le ⟨start, [], initial, rfl⟩ read success⟩

end VoltProtocol.AllocatorLimit
