import VoltProtocol.Soundness.LimiterLiveness

/-! # Partial actions use the buffer as well as can be

A limiter that allows partial actions takes what is left when a depletion asks for more, and fails only when
nothing is left. Whatever comes in between, no other choice of amounts, each at most what was asked for, could
have used more by then. That holds also where the buffer overflows: the sum that `buffer()` computes is
never larger for the limiter that used as much as it could, so the others are stuck no later.
-/

namespace VoltProtocol.PartialActions

open Machine TokenBucket RateLimited PegStabilityModule LimiterLiveness

variable {s t : State} {call smaller : Call} {calls : List Call} {spent other : ℕ}

/-- What a call uses of the buffer, which is nothing if it fails. -/
def used (s : State) : Call → ℕ
  | .depleteBuffer amount =>
    match s.limiter.depleteBuffer s.now amount with
    | .ok (_, usedAmount) => usedAmount
    | .error _ => 0
  | _ => 0

/-- What all calls use together when they are tried in order. -/
def usage : State → List Call → ℕ
  | _, [] => 0
  | s, call :: rest => used s call + usage (attempt step s call) rest

/-- The same call, but for a depletion that may ask for less. -/
inductive Within : Call → Call → Prop
  | depletes {taken demand : ℕ} (less : taken ≤ demand) : Within (.depleteBuffer taken) (.depleteBuffer demand)
  | same (call : Call) : Within call call

/-- The sum that `buffer()` computes before it looks at the cap. -/
def sum (s : State) : ℕ :=
  s.limiter.bufferStored + s.limiter.rateLimitPerSecond * (s.now - s.limiter.lastBufferUsedTime)

theorem level_eq_min (s : State) : s.limiter.level s.now = min (sum s) s.limiter.bufferCap := by
  simp only [level, Lazy.level, toLazy, sum, smul_eq_mul, Nat.mul_comm]

theorem sum_of_written (written : s.limiter.lastBufferUsedTime = s.now) : sum s = s.limiter.bufferStored := by
  rw [sum, written, Nat.sub_self, Nat.mul_zero, Nat.add_zero]

theorem sum_wait (past : s.limiter.lastBufferUsedTime ≤ s.now) (seconds : ℕ) :
    sum { s with now := s.now + seconds } = sum s + s.limiter.rateLimitPerSecond * seconds := by
  have split : s.now + seconds - s.limiter.lastBufferUsedTime =
      (s.now - s.limiter.lastBufferUsedTime) + seconds := by omega
  simp only [sum, split, Nat.mul_add, Nat.add_assoc]

/-! ### One call -/

/-- A call that succeeds either lets time pass or stores what is left of the level, and a depletion finds some. -/
theorem sum_of_step (stepped : step s call = .ok t) :
    (∃ seconds, call = .wait seconds ∧ t = { s with now := s.now + seconds }) ∨
      t.now = s.now ∧ t.limiter.lastBufferUsedTime = t.now ∧ sum t = s.limiter.level s.now - used s call ∧
        (∀ amount, call = .depleteBuffer amount → s.limiter.level s.now ≠ 0) := by
  cases call with
  | wait seconds => exact .inl ⟨seconds, rfl, (Except.ok.inj stepped).symm⟩
  | depleteBuffer amount =>
    obtain ⟨⟨limiter, usedAmount⟩, depleted, rfl⟩ := map_eq_ok.mp stepped
    simp only [used, depleted]
    simp only [RateLimited.depleteBuffer, bind_eq_ok, buffer_eq_ok, require_eq_ok, checkedSub_eq_ok, pure_eq_ok,
      Prod.mk.injEq] at depleted
    obtain ⟨_, ⟨-, rfl⟩, _, nonempty, _, -, left, ⟨-, rfl⟩, rfl, rfl⟩ := depleted
    exact .inr ⟨trivial, rfl, sum_of_written rfl, fun _ _ => nonempty⟩
  | setRateLimitPerSecond c ctx rate =>
    obtain ⟨limiter, written, rfl⟩ := map_eq_ok.mp stepped
    simp only [RateLimited.setRateLimitPerSecond, updateBufferStored, bind_eq_ok, buffer_eq_ok, pure_eq_ok] at written
    obtain ⟨_, -, _, -, _, ⟨_, ⟨-, rfl⟩, rfl⟩, rfl⟩ := written
    exact .inr ⟨rfl, rfl, sum_of_written rfl, fun _ other => by cases other⟩
  | setBufferCap c ctx cap =>
    obtain ⟨limiter, written, rfl⟩ := map_eq_ok.mp stepped
    simp only [RateLimited.setBufferCap, setBufferCapInternal, updateBufferStored, bind_eq_ok, buffer_eq_ok,
      pure_eq_ok] at written
    obtain ⟨_, -, _, ⟨_, ⟨-, rfl⟩, rfl⟩, rfl⟩ := written
    exact .inr ⟨rfl, rfl, sum_of_written rfl, fun _ other => by cases other⟩

/-- What no call changes. -/
theorem immutable_of_step (stepped : step s call = .ok t) :
    t.limiter.doPartialAction = s.limiter.doPartialAction ∧
      t.limiter.MAX_RATE_LIMIT_PER_SECOND = s.limiter.MAX_RATE_LIMIT_PER_SECOND := by
  cases call with
  | wait seconds =>
    obtain rfl := Except.ok.inj stepped
    exact ⟨rfl, rfl⟩
  | depleteBuffer amount =>
    obtain ⟨⟨limiter, usedAmount⟩, depleted, rfl⟩ := map_eq_ok.mp stepped
    simp only [RateLimited.depleteBuffer, bind_eq_ok, pure_eq_ok, Prod.mk.injEq] at depleted
    obtain ⟨_, -, _, -, _, -, _, -, rfl, -⟩ := depleted
    exact ⟨rfl, rfl⟩
  | setRateLimitPerSecond c ctx rate =>
    obtain ⟨limiter, written, rfl⟩ := map_eq_ok.mp stepped
    exact ⟨setRateLimitPerSecond_whole written, (setRateLimitPerSecond_spec written).2.2.2.2⟩
  | setBufferCap c ctx cap =>
    obtain ⟨limiter, written, rfl⟩ := map_eq_ok.mp stepped
    exact ⟨setBufferCap_whole written, (setBufferCap_spec written).2.2.2⟩

theorem immutable_attempt (s : State) (call : Call) :
    (attempt step s call).limiter.doPartialAction = s.limiter.doPartialAction ∧
      (attempt step s call).limiter.MAX_RATE_LIMIT_PER_SECOND = s.limiter.MAX_RATE_LIMIT_PER_SECOND := by
  cases stepped : step s call with
  | error reason =>
    rw [attempt_of_error stepped]
    exact ⟨rfl, rfl⟩
  | ok next =>
    rw [attempt_of_ok stepped]
    exact immutable_of_step stepped

/-- The time stored is never in the future. -/
theorem past_attempt (past : s.limiter.lastBufferUsedTime ≤ s.now) (call : Call) :
    (attempt step s call).limiter.lastBufferUsedTime ≤ (attempt step s call).now := by
  cases stepped : step s call with
  | error reason =>
    rw [attempt_of_error stepped]
    exact past
  | ok next =>
    rw [attempt_of_ok stepped]
    obtain ⟨seconds, -, rfl⟩ | ⟨-, written, -⟩ := sum_of_step stepped
    · exact past.trans (Nat.le_add_right ..)
    · exact written.le

/-- A depletion by a limiter of either kind uses some part of the amount and drains the bucket by that. -/
theorem attempt_deplete (s : State) (amount : ℕ) :
    used s (.depleteBuffer amount) ≤ amount ∧ used s (.depleteBuffer amount) ≤ s.limiter.level s.now ∧
      (attempt step s (.depleteBuffer amount)).now = s.now ∧
      (attempt step s (.depleteBuffer amount)).limiter.bucket s.now =
        (s.limiter.bucket s.now).drain (used s (.depleteBuffer amount)) := by
  cases depleted : s.limiter.depleteBuffer s.now amount with
  | ok result =>
    obtain ⟨limiter, usedAmount⟩ := result
    obtain ⟨⟨-, enough, less⟩, -, drained, -⟩ := depleteBuffer_spec depleted
    have stepped : step s (.depleteBuffer amount) = .ok { s with limiter } := by
      rw [step, depleted]
      rfl
    rw [attempt_of_ok stepped]
    simp only [used, depleted]
    exact ⟨less, enough, trivial, drained⟩
  | error reason =>
    have stepped : step s (.depleteBuffer amount) = .error reason := by
      rw [step, depleted]
      rfl
    rw [attempt_of_error stepped]
    simp only [used, depleted]
    exact ⟨Nat.zero_le _, Nat.zero_le _, trivial, (Bucket.drain_zero _).symm⟩

/-- A partial action fails only if nothing is left, and uses all of the amount that the level covers. -/
theorem depletes_of_allowed (allowed : s.limiter.doPartialAction = true) (readable : s.limiter.Readable s.now)
    (nonempty : s.limiter.level s.now ≠ 0) (amount : ℕ) :
    ∃ limiter, s.limiter.depleteBuffer s.now amount = .ok (limiter, min amount (s.limiter.level s.now)) := by
  have read : s.limiter.buffer s.now = .ok (s.limiter.level s.now) := buffer_eq_ok.mpr ⟨readable, rfl⟩
  have whole : (if s.limiter.doPartialAction = true ∧ amount > s.limiter.level s.now then s.limiter.level s.now
      else amount) = min amount (s.limiter.level s.now) := by
    simp only [allowed, true_and]
    split_ifs <;> omega
  simp only [RateLimited.depleteBuffer, bind_eq_ok, require_eq_ok, checkedSub_eq_ok, pure_eq_ok, Prod.mk.injEq]
  exact ⟨_, _, read, (), nonempty, (), whole.trans_le (min_le_right ..), _, ⟨whole.trans_le (min_le_right ..), rfl⟩,
    rfl, whole⟩

theorem used_of_allowed (allowed : s.limiter.doPartialAction = true) (readable : s.limiter.Readable s.now) (amount : ℕ) :
    used s (.depleteBuffer amount) = min amount (s.limiter.level s.now) := by
  by_cases empty : s.limiter.level s.now = 0
  · have less := (attempt_deplete s amount).2.1
    rw [empty] at less ⊢
    rw [Nat.min_zero, Nat.le_zero.mp less]
  · obtain ⟨limiter, depleted⟩ := depletes_of_allowed allowed readable empty amount
    simp only [used, depleted]

/-! ### A limiter that cannot be read -/

/-- Only a limiter that can be read lets anything through. -/
theorem used_of_not_readable (stuck : ¬ s.limiter.Readable s.now) (call : Call) : used s call = 0 := by
  cases call with
  | wait seconds => rfl
  | setRateLimitPerSecond c ctx rate => rfl
  | setBufferCap c ctx cap => rfl
  | depleteBuffer amount =>
    cases depleted : s.limiter.depleteBuffer s.now amount with
    | ok result => exact absurd (depleteBuffer_spec depleted).1.1 stuck
    | error reason => simp only [used, depleted]

/-- So one that cannot be read uses nothing any more. -/
theorem usage_of_not_live (past : s.limiter.lastBufferUsedTime ≤ s.now) (stuck : ¬ Live s) (schedule : List Call) :
    usage s schedule = 0 := by
  induction schedule generalizing s with
  | nil => rfl
  | cons call rest ih =>
    have unreadable : ¬ s.limiter.Readable s.now := fun readable => stuck (live_of_readable readable)
    have later : ¬ Live (attempt step s call) := not_live_attempts past stuck [call]
    rw [usage, used_of_not_readable unreadable, ih (past_attempt past call) later]

/-! ### Two limiters side by side -/

/-- If the buffer can be read, a setter succeeds exactly for its callers and values. -/
theorem setRateLimitPerSecond_succeeds (c : CoreRef) (ctx : Context) (rate : ℕ) (readable : s.limiter.Readable s.now) :
    (∃ u, step s (.setRateLimitPerSecond c ctx rate) = .ok u) ↔
      c.onlyGovernorOrAdmin ctx = .ok () ∧ rate ≤ s.limiter.MAX_RATE_LIMIT_PER_SECOND := by
  have read : s.limiter.buffer s.now = .ok (s.limiter.level s.now) := buffer_eq_ok.mpr ⟨readable, rfl⟩
  simp only [step, map_eq_ok, RateLimited.setRateLimitPerSecond, updateBufferStored, bind_eq_ok, require_eq_ok,
    pure_eq_ok]
  constructor
  · rintro ⟨_, _, ⟨_, checked, _, admissible, -⟩, -⟩
    exact ⟨checked, admissible⟩
  · rintro ⟨checked, admissible⟩
    exact ⟨_, _, ⟨(), checked, (), admissible, _, ⟨_, read, rfl⟩, rfl⟩, rfl⟩

theorem setBufferCap_succeeds (c : CoreRef) (ctx : Context) (cap : ℕ) (readable : s.limiter.Readable s.now) :
    (∃ u, step s (.setBufferCap c ctx cap) = .ok u) ↔ c.onlyGovernorOrAdmin ctx = .ok () := by
  have read : s.limiter.buffer s.now = .ok (s.limiter.level s.now) := buffer_eq_ok.mpr ⟨readable, rfl⟩
  simp only [step, map_eq_ok, RateLimited.setBufferCap, setBufferCapInternal, updateBufferStored, bind_eq_ok,
    pure_eq_ok]
  constructor
  · rintro ⟨_, _, ⟨_, checked, -⟩, -⟩
    exact checked
  · intro checked
    exact ⟨_, _, ⟨(), checked, _, ⟨_, read, rfl⟩, rfl⟩, rfl⟩

/-- The first limiter takes partial actions and is ahead of the second. -/
structure Leads (s t : State) (spent other : ℕ) : Prop where
  now : t.now = s.now
  past : s.limiter.lastBufferUsedTime ≤ s.now
  otherPast : t.limiter.lastBufferUsedTime ≤ t.now
  maximum : t.limiter.MAX_RATE_LIMIT_PER_SECOND = s.limiter.MAX_RATE_LIMIT_PER_SECOND
  allowed : s.limiter.doPartialAction = true
  ahead : Bucket.Ahead (s.limiter.bucket s.now) (t.limiter.bucket s.now) spent other
  sum : sum s ≤ sum t

theorem Leads.level_le (leads : Leads s t spent other) : s.limiter.level s.now ≤ t.limiter.level t.now := by
  rw [level_eq_min, level_eq_min, show t.limiter.bufferCap = s.limiter.bufferCap from leads.ahead.cap]
  exact min_le_min_right _ leads.sum

/-- Whenever the second limiter can be read, so can the first. -/
theorem Leads.readable (leads : Leads s t spent other) (readable : t.limiter.Readable t.now) :
    s.limiter.Readable s.now :=
  ⟨leads.past, leads.sum.trans_lt readable.2⟩

/-- A depletion leaves the first limiter with no larger sum, whether or not it succeeds for the second. -/
theorem Leads.sum_deplete (leads : Leads s t spent other) {taken demand : ℕ} (less : taken ≤ demand)
    (readable : s.limiter.Readable s.now) :
    PartialActions.sum (attempt step s (.depleteBuffer demand)) ≤
      PartialActions.sum (attempt step t (.depleteBuffer taken)) := by
  have level := leads.level_le
  have most := used_of_allowed leads.allowed readable demand
  have part := (attempt_deplete t taken).1
  have sum := leads.sum
  have below : s.limiter.level s.now ≤ PartialActions.sum s := (level_eq_min s).trans_le (min_le_left ..)
  cases stepped : step s (.depleteBuffer demand) with
  | ok u =>
    obtain ⟨_, other, -⟩ | ⟨-, -, left, -⟩ := sum_of_step stepped
    · cases other
    rw [attempt_of_ok stepped, left]
    cases otherStepped : step t (.depleteBuffer taken) with
    | ok v =>
      obtain ⟨_, other, -⟩ | ⟨-, -, otherLeft, -⟩ := sum_of_step otherStepped
      · cases other
      rw [attempt_of_ok otherStepped, otherLeft]
      omega
    | error reason =>
      rw [attempt_of_error otherStepped]
      omega
  | error reason =>
    rw [attempt_of_error stepped]
    cases otherStepped : step t (.depleteBuffer taken) with
    | error otherReason =>
      rw [attempt_of_error otherStepped]
      exact sum
    | ok v =>
      -- the first fails only when it is empty, and the cap is positive since the second is not
      have empty : s.limiter.level s.now = 0 := by
        by_contra nonempty
        obtain ⟨limiter, depleted⟩ := depletes_of_allowed leads.allowed readable nonempty demand
        rw [step, depleted] at stepped
        cases stepped
      obtain ⟨_, other, -⟩ | ⟨-, -, -, nonempty⟩ := sum_of_step otherStepped
      · cases other
      have positive := nonempty taken rfl
      rw [level_eq_min, show t.limiter.bufferCap = s.limiter.bufferCap from leads.ahead.cap] at positive
      rw [level_eq_min] at empty
      omega

/-- What the two limiters keep apart from their buckets when both try a call. -/
theorem Leads.tried_of_ahead (leads : Leads s t spent other) {spent' other' : ℕ}
    (sameTime : (attempt step t smaller).now = (attempt step s call).now)
    (ahead : Bucket.Ahead ((attempt step s call).limiter.bucket (attempt step s call).now)
      ((attempt step t smaller).limiter.bucket (attempt step s call).now) spent' other')
    (sum : PartialActions.sum (attempt step s call) ≤ PartialActions.sum (attempt step t smaller)) :
    Leads (attempt step s call) (attempt step t smaller) spent' other' := by
  obtain ⟨allowed, maximum⟩ := immutable_attempt s call
  obtain ⟨-, otherMaximum⟩ := immutable_attempt t smaller
  exact ⟨sameTime, past_attempt leads.past call, past_attempt leads.otherPast smaller,
    otherMaximum.trans (leads.maximum.trans maximum.symm), allowed.trans leads.allowed, ahead, sum⟩

/-- The first limiter stays ahead when both try to deplete their buffers. -/
theorem Leads.deplete (leads : Leads s t spent other) {taken demand : ℕ} (less : taken ≤ demand)
    (readable : s.limiter.Readable s.now) : Leads (attempt step s (.depleteBuffer demand))
      (attempt step t (.depleteBuffer taken)) (spent + used s (.depleteBuffer demand))
      (other + used t (.depleteBuffer taken)) := by
  obtain ⟨-, -, sameTime, drained⟩ := attempt_deplete s demand
  obtain ⟨part, covered, otherTime, otherDrained⟩ := attempt_deplete t taken
  rw [leads.now] at covered otherDrained
  refine leads.tried_of_ahead ((otherTime.trans leads.now).trans sameTime.symm) ?_ (leads.sum_deplete less readable)
  rw [sameTime, drained, otherDrained, used_of_allowed leads.allowed readable]
  exact leads.ahead.drain (part.trans less) covered

/-- And when both try a call that writes the same to both. -/
theorem Leads.write (leads : Leads s t spent other) {effect : Bucket ℕ → Bucket ℕ}
    (keeps : ∀ {b c : Bucket ℕ}, Bucket.Ahead b c spent other → Bucket.Ahead (effect b) (effect c) spent other)
    (both : (∃ u, step s call = .ok u) ↔ ∃ v, step t call = .ok v)
    (writes : ∀ {u v : State}, step u call = .ok v → v.now = u.now ∧
      v.limiter.bucket u.now = effect (u.limiter.bucket u.now) ∧ PartialActions.sum v = u.limiter.level u.now) :
    Leads (attempt step s call) (attempt step t call) spent other := by
  cases stepped : step s call with
  | ok u =>
    obtain ⟨v, otherStepped⟩ := both.mp ⟨u, stepped⟩
    obtain ⟨now, bucket, sum⟩ := writes stepped
    obtain ⟨otherNow, otherBucket, otherSum⟩ := writes otherStepped
    rw [leads.now] at otherBucket
    apply leads.tried_of_ahead <;> rw [attempt_of_ok stepped, attempt_of_ok otherStepped]
    · exact (otherNow.trans leads.now).trans now.symm
    · rw [now, bucket, otherBucket]
      exact keeps leads.ahead
    · rw [sum, otherSum]
      exact leads.level_le
  | error reason =>
    cases otherStepped : step t call with
    | ok v =>
      obtain ⟨u, other⟩ := both.mpr ⟨v, otherStepped⟩
      cases stepped.symm.trans other
    | error otherReason =>
      rw [attempt_of_error stepped, attempt_of_error otherStepped]
      exact leads

/-- The first limiter stays ahead when both try a call, the second perhaps a smaller one. -/
theorem Leads.tried (leads : Leads s t spent other) (within : Within smaller call)
    (otherReadable : t.limiter.Readable t.now) :
    Leads (attempt step s call) (attempt step t smaller) (spent + used s call) (other + used t smaller) := by
  have readable := leads.readable otherReadable
  cases within with
  | depletes less => exact leads.deplete less readable
  | same call =>
    cases call with
    | depleteBuffer amount => exact leads.deplete le_rfl readable
    | wait seconds =>
      refine leads.tried_of_ahead (congrArg (· + seconds) leads.now) ?_ ?_
      · have waited := s.limiter.toLazy.bucket_wait leads.past seconds
        have otherWaited := t.limiter.toLazy.bucket_wait leads.otherPast seconds
        rw [leads.now] at otherWaited
        change Bucket.Ahead (s.limiter.toLazy.bucket (s.now + seconds)) (t.limiter.toLazy.bucket (s.now + seconds)) _ _
        rw [waited, otherWaited]
        exact leads.ahead.wait seconds
      · change PartialActions.sum { s with now := s.now + seconds } ≤ PartialActions.sum { t with now := t.now + seconds }
        rw [sum_wait leads.past, sum_wait leads.otherPast,
          show t.limiter.rateLimitPerSecond = s.limiter.rateLimitPerSecond from leads.ahead.rate]
        exact Nat.add_le_add_right leads.sum _
    | setRateLimitPerSecond c ctx rate =>
      refine leads.write (fun ahead => ahead.setRate rate) ?_ ?_
      · rw [setRateLimitPerSecond_succeeds c ctx rate readable, setRateLimitPerSecond_succeeds c ctx rate otherReadable,
          leads.maximum]
      · intro u v stepped
        obtain ⟨_, other, -⟩ | ⟨now, -, sum, -⟩ := sum_of_step stepped
        · cases other
        obtain ⟨limiter, written, rfl⟩ := map_eq_ok.mp stepped
        exact ⟨now, (setRateLimitPerSecond_spec written).2.2.2.1, sum⟩
    | setBufferCap c ctx cap =>
      refine leads.write (fun ahead => ahead.setCap cap) ?_ ?_
      · rw [setBufferCap_succeeds c ctx cap readable, setBufferCap_succeeds c ctx cap otherReadable]
      · intro u v stepped
        obtain ⟨_, other, -⟩ | ⟨now, -, sum, -⟩ := sum_of_step stepped
        · cases other
        obtain ⟨limiter, written, rfl⟩ := map_eq_ok.mp stepped
        exact ⟨now, (setBufferCap_spec written).2.2.1, sum⟩

/-! ### All calls -/

theorem Leads.total_le {schedule : List Call} (leads : Leads s t spent other)
    (within : List.Forall₂ Within schedule calls) : other + usage t schedule ≤ spent + usage s calls := by
  induction within generalizing s t spent other with
  | nil => exact leads.ahead.spent
  | @cons smaller call schedule calls less _ ih =>
    by_cases readable : t.limiter.Readable t.now
    · have rest := ih (leads.tried less readable)
      rw [usage, usage, ← Nat.add_assoc, ← Nat.add_assoc]
      exact rest
    · -- the second limiter is stuck, so what it used so far is all it will ever use
      rw [usage_of_not_live leads.otherPast (fun live => readable live.readable)]
      exact leads.ahead.spent.trans (Nat.le_add_right ..)

/-- However long a limiter runs, whatever comes in between, one that takes partial actions lets through as much of
what is asked for as any choice of smaller amounts could use, with partial actions or without. -/
theorem usage_le {now maxRateLimitPerSecond rateLimitPerSecond bufferCap : ℕ} {doPartialAction : Bool}
    {greedy limiter : RateLimited} {demands schedule : List Call}
    (deployed : RateLimited.deploy now maxRateLimitPerSecond rateLimitPerSecond bufferCap true = .ok greedy)
    (otherDeployed :
      RateLimited.deploy now maxRateLimitPerSecond rateLimitPerSecond bufferCap doPartialAction = .ok limiter)
    (within : List.Forall₂ Within schedule demands) :
    usage ⟨now, limiter⟩ schedule ≤ usage ⟨now, greedy⟩ demands := by
  obtain ⟨-, rfl⟩ := deploy_eq_ok.mp deployed
  obtain ⟨-, rfl⟩ := deploy_eq_ok.mp otherDeployed
  have start : Leads ⟨now, ⟨maxRateLimitPerSecond, rateLimitPerSecond, now, bufferCap, true, bufferCap⟩⟩
      ⟨now, ⟨maxRateLimitPerSecond, rateLimitPerSecond, now, bufferCap, doPartialAction, bufferCap⟩⟩ 0 0 :=
    ⟨rfl, le_rfl, le_rfl, rfl, rfl, Bucket.Ahead.refl _ 0, le_rfl⟩
  simpa only [Nat.zero_add] using start.total_le within

/-- A burst that exceeds the buffer, and one held back so that a later demand, after the cap was first raised to the
largest word and then lowered, still fits. -/
theorem usage_le_burst :
    let c : CoreRef := ⟨.governor, false⟩
    let governor := Context.withRoles 1 [.governor]
    let demands := [.depleteBuffer 130, .setBufferCap c governor uint256Max, .wait 5, .setBufferCap c governor 20,
      .depleteBuffer 15]
    let schedule := [.depleteBuffer 90, .setBufferCap c governor uint256Max, .wait 5, .setBufferCap c governor 20,
      .depleteBuffer 15]
    usage ⟨0, ⟨MAX_FEI_LIMIT_PER_SECOND, 2, 0, 100, true, 100⟩⟩ demands = 110 ∧
      usage ⟨0, ⟨MAX_FEI_LIMIT_PER_SECOND, 2, 0, 100, false, 100⟩⟩ schedule = 105 ∧ 105 ≤ 110 := by
  intro c governor demands schedule
  have most : usage ⟨0, ⟨MAX_FEI_LIMIT_PER_SECOND, 2, 0, 100, true, 100⟩⟩ demands = 110 := by decide +kernel
  have less : usage ⟨0, ⟨MAX_FEI_LIMIT_PER_SECOND, 2, 0, 100, false, 100⟩⟩ schedule = 105 := by decide +kernel
  have deployed (partly : Bool) : RateLimited.deploy 0 MAX_FEI_LIMIT_PER_SECOND 2 100 partly =
      .ok ⟨MAX_FEI_LIMIT_PER_SECOND, 2, 0, 100, partly, 100⟩ := by cases partly <;> decide +kernel
  have within : List.Forall₂ Within schedule demands :=
    .cons (.depletes (by decide)) (.cons (.same _) (.cons (.same _) (.cons (.same _) (.cons (.same _) .nil))))
  refine ⟨most, less, ?_⟩
  rw [← most, ← less]
  exact usage_le (deployed true) (deployed false) within

end VoltProtocol.PartialActions
