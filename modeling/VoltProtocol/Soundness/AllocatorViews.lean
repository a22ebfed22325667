import VoltProtocol.Soundness.AllocatorSystem

/-! # What the allocator allows and what it then does

`checkActionAllowed` reads the same balances as `doAction` and asks in addition for a buffer that is not
zero; each of the three amounts whose minimum a drip moves is thereby checked not to be zero. The buffer
is checked before it is converted to units of the token, though, and a buffer worth less than one unit
converts to none. A state in which the buffer is worth at least one unit, and in which the conversions
fit a word, is a state in which every allowed action succeeds and moves something. An action that is not
allowed never moves anything.
-/

namespace VoltProtocol.AllocatorViews

open Machine ERC20Allocator AllocatorSystem

variable {ω : Type} {contracts : Contracts ω} {held : ω → Address → Address → ℕ} {s : ERC20Allocator}
  {now : ℕ} {w : ω} {d : Address} {o : Outcome ω}

/-- A PSM and a deposit that keep exact books in one token and do what the allocator asks of them. -/
structure ExactPair (contracts : Contracts ω) (held : ω → Address → Address → ℕ)
    (token psm pcvDeposit : Address) : Prop where
  balanceOf (w : ω) : contracts.balanceOf w token psm = some (held w token psm)
  balance (w : ω) : contracts.balance w pcvDeposit = some (held w token pcvDeposit)
  pay {w : ω} {amount : ℕ} (covered : amount ≤ held w token pcvDeposit) :
    ∃ u, contracts.withdraw w pcvDeposit psm amount = some u ∧
      held u = Ledger.moveIn (held w) token pcvDeposit psm amount
  collect {w : ω} {amount : ℕ} (covered : amount ≤ held w token psm) :
    ∃ u, contracts.withdraw w psm pcvDeposit amount = some u ∧
      held u = Ledger.moveIn (held w) token psm pcvDeposit amount
  deposit (w : ω) : ∃ u, contracts.deposit w pcvDeposit = some u ∧ held u = held w

/-- Some of the token has moved between the two, one way or the other, and the event says how much. -/
def Moved (held : ω → Address → Address → ℕ) (token psm pcvDeposit : Address) (w : ω) (o : Outcome ω) : Prop :=
  ∃ amount, 0 < amount ∧
    ((o.events = [.dripped amount psm] ∧ held o.world = Ledger.moveIn (held w) token pcvDeposit psm amount) ∨
      (o.events = [.skimmed amount pcvDeposit] ∧
        held o.world = Ledger.moveIn (held w) token psm pcvDeposit amount))

/-- What `checkActionAllowed` says is what `doAction` does. -/
structure ViewAgrees (contracts : Contracts ω) (held : ω → Address → Address → ℕ) (s : ERC20Allocator)
    (now : ℕ) (w : ω) (d : Address) : Prop where
  allowed (answer : s.checkActionAllowed contracts now w d = .ok true) :
    ∃ o, s.doAction contracts now w d = .ok o ∧
      Moved held (s.linkedPSM d).token (s.pcvDepositToPSM d) d w o
  refused (answer : s.checkActionAllowed contracts now w d = .ok false) (o : Outcome ω)
      (acted : s.doAction contracts now w d = .ok o) : o = ⟨s, w, []⟩

/-- The PSM is short of its target, the deposit holds something and the buffer is not empty. -/
def Short (held : ω → Address → Address → ℕ) (s : ERC20Allocator) (w : ω) (d : Address) (level : ℕ) : Prop :=
  held w (s.linkedPSM d).token (s.pcvDepositToPSM d) < (s.linkedPSM d).targetBalance.val ∧
    held w (s.linkedPSM d).token d ≠ 0 ∧ level ≠ 0

instance decidableShort (held : ω → Address → Address → ℕ) (s : ERC20Allocator) (w : ω) (d : Address) (level : ℕ) :
    Decidable (Short held s w d level) := inferInstanceAs (Decidable (_ ∧ _))

/-- What the PSM holds beyond its target. -/
def excess (held : ω → Address → Address → ℕ) (s : ERC20Allocator) (w : ω) (d : Address) : ℕ :=
  held w (s.linkedPSM d).token (s.pcvDepositToPSM d) - (s.linkedPSM d).targetBalance.val

/-- The buffer is worth at least one unit of the token, and no more units than a word can count. -/
def Drippable (info : PSMInfo) (level : ℕ) : Prop :=
  0 < rescale level info.unitValue⁻¹ ∧ rescale level info.unitValue⁻¹ < 2 ^ 256

/-- The value of an amount, and the buffer raised by it unless it is full, fit a word; and the
normalizer is not below the least one for which the power of ten fits. -/
def Skimmable (s : ERC20Allocator) (info : PSMInfo) (level amount : ℕ) : Prop :=
  -77 ≤ info.decimalsNormalizer.val ∧
    (0 < info.decimalsNormalizer.val → rescale amount info.unitValue < 2 ^ 256) ∧
    (level = s.bufferCap.val ∨ level + rescale amount info.unitValue < 2 ^ 256)

/-- Whichever action a state calls for can be converted. -/
def Convertible (held : ω → Address → Address → ℕ) (s : ERC20Allocator) (w : ω) (d : Address) (level : ℕ) :
    Prop :=
  (Short held s w d level → Drippable (s.linkedPSM d) level) ∧
    (0 < excess held s w d → Skimmable s (s.linkedPSM d) level (excess held s w d))

/-! ### Conditions -/

section Conditions

variable (exact : ExactPair contracts held (s.linkedPSM d).token (s.pcvDepositToPSM d) d)
include exact

theorem checkDrip_eq_ok : s.checkDripConditionInternal contracts w (s.pcvDepositToPSM d) d =
    .ok (decide (held w (s.linkedPSM d).token (s.pcvDepositToPSM d) < (s.linkedPSM d).targetBalance.val ∧
      held w (s.linkedPSM d).token d ≠ 0)) := by
  rw [checkDripConditionInternal_eq_ok]
  refine ⟨_, exact.balanceOf w, ?_⟩
  split_ifs with short
  · refine ⟨_, exact.balance w, ?_⟩
    rw [Bool.eq_iff_iff, bne_iff_ne, decide_eq_true_iff]
    exact (and_iff_right short).symm
  · simp [short]

theorem checkSkim_eq_ok : s.checkSkimConditionInternal contracts w (s.pcvDepositToPSM d) =
    .ok (decide (0 < excess held s w d)) := by
  rw [checkSkimConditionInternal_eq_ok]
  refine ⟨_, exact.balanceOf w, ?_⟩
  rw [decide_eq_decide, excess, gt_iff_lt, Nat.sub_pos_iff_lt]

/-- An action is allowed when a drip or a skim is called for. -/
theorem checkActionAllowed_of_buffer (unpaused : s.paused = false) {level : ℕ}
    (read : s.buffer now = .ok level) : s.checkActionAllowed contracts now w d =
      .ok (decide (Short held s w d level ∨ 0 < excess held s w d)) := by
  rw [checkActionAllowed, unpaused]
  simp only [Bool.false_eq_true, if_false, read, ok_bind, checkDrip_eq_ok exact, checkSkim_eq_ok exact]
  by_cases empty : level = 0
  · have notShort : ¬ Short held s w d level := fun short => short.2.2 empty
    rw [if_neg (not_not.mpr empty)]
    simp only [notShort, false_or]
    rfl
  · rw [if_pos empty]
    by_cases short : Short held s w d level
    · simp only [short, true_or, decide_true]
      rw [if_pos (decide_eq_true ⟨short.1, short.2.1⟩)]
      rfl
    · simp only [short, false_or]
      rw [if_neg]
      intro checked
      obtain ⟨below, holds⟩ := of_decide_eq_true checked
      exact short ⟨below, holds, empty⟩

/-- The view answers only when the buffer can be read. -/
theorem checkActionAllowed_spec (unpaused : s.paused = false) {answer : Bool}
    (success : s.checkActionAllowed contracts now w d = .ok answer) :
    ∃ level, s.buffer now = .ok level ∧
      answer = decide (Short held s w d level ∨ 0 < excess held s w d) := by
  cases read : s.buffer now with
  | ok level =>
    rw [checkActionAllowed_of_buffer exact unpaused read] at success
    exact ⟨level, rfl, (Except.ok.inj success).symm⟩
  | error reason =>
    rw [checkActionAllowed, unpaused] at success
    simp only [Bool.false_eq_true, if_false, read, bind_eq_ok, reduceCtorEq, false_and, exists_false] at success

end Conditions

/-! ### Conversions -/

section Conversions

variable {info : PSMInfo} {level amount : ℕ}

theorem unitValue_inv (info : PSMInfo) : info.unitValue⁻¹ = (10 : ℚ) ^ (-info.decimalsNormalizer.val) := by
  rw [PSMInfo.unitValue, zpow_neg]

/-- A factor of at most one does not enlarge an amount. -/
theorem rescale_le_self {factor : ℚ} (positive : 0 < factor) (small : factor ≤ 1) : rescale amount factor ≤ amount := by
  have bound : (rescale amount factor : ℚ) ≤ amount := by
    calc (rescale amount factor : ℚ) ≤ amount * factor := rescale_le positive
      _ ≤ amount * 1 := by gcongr
      _ = amount := mul_one _
  exact Nat.cast_le.mp bound

/-- A level that is worth something in units of the token, and counted by a word, has a normalizer whose
power of ten fits a word. -/
theorem Drippable.normalizer (drippable : Drippable info level) (bounded : level < 2 ^ 128) (positive : level ≠ 0) :
    -77 ≤ info.decimalsNormalizer.val ∧ info.decimalsNormalizer.val ≤ 77 := by
  obtain ⟨some, fits⟩ := drippable
  rw [unitValue_inv] at some fits
  have edge : (2 : ℕ) ^ 256 ≤ 10 ^ 78 ∧ (2 : ℕ) ^ 128 ≤ 10 ^ 78 := by norm_num
  constructor
  · by_contra low
    obtain ⟨digits, same⟩ : ∃ digits : ℕ, -info.decimalsNormalizer.val = digits :=
      ⟨info.decimalsNormalizer.val.natAbs, by omega⟩
    have power : ((10 : ℚ) ^ digits) = ((10 ^ digits : ℕ) : ℚ) := by norm_num
    rw [same, zpow_natCast, power, rescale_natCast] at fits
    have large : 10 ^ 78 ≤ 10 ^ digits := Nat.pow_le_pow_right (by norm_num) (by omega)
    have least : 1 * 10 ^ digits ≤ level * 10 ^ digits := Nat.mul_le_mul_right _ (by omega)
    omega
  · by_contra high
    obtain ⟨digits, same⟩ : ∃ digits : ℕ, info.decimalsNormalizer.val = digits :=
      ⟨info.decimalsNormalizer.val.natAbs, by omega⟩
    have power : ((10 : ℚ) ^ digits) = ((10 ^ digits : ℕ) : ℚ) := by norm_num
    rw [same, zpow_neg, zpow_natCast, power, rescale_inv_natCast] at some
    have large : 10 ^ 78 ≤ 10 ^ digits := Nat.pow_le_pow_right (by norm_num) (by omega)
    rw [Nat.div_eq_of_lt (by omega)] at some
    exact absurd some (lt_irrefl 0)

theorem level_lt_of_buffer (read : s.buffer now = .ok level) : level < 2 ^ 128 := by
  obtain ⟨-, rfl⟩ := RateLimitedV2.buffer_eq_ok.mp read
  exact (s.level_le_cap now).trans_lt s.bufferCap.isLt

theorem replenishBuffer_isOk_iff (read : s.buffer now = .ok level) :
    (∃ limiter, s.replenishBuffer now amount = .ok limiter) ↔ level = s.bufferCap.val ∨ level + amount < 2 ^ 256 := by
  obtain ⟨readable, rfl⟩ := RateLimitedV2.buffer_eq_ok.mp read
  constructor
  · rintro ⟨limiter, replenished⟩
    simp only [RateLimitedV2.replenishBuffer, read, ok_bind] at replenished
    split_ifs at replenished with full
    · exact .inl full
    · simp only [bind_eq_ok, uint_eq_ok] at replenished
      obtain ⟨_, -, _, ⟨fits, -⟩, -⟩ := replenished
      exact .inr fits
  · rintro (full | fits)
    · refine ⟨s.toRateLimitedV2, ?_⟩
      simp only [RateLimitedV2.replenishBuffer, read, ok_bind]
      rw [if_pos full]
      rfl
    · exact RateLimitedV2.replenishBuffer_succeeds readable fits

/-- A drip that went through was converted: the buffer had a worth that a word counts. -/
theorem worth_of_drip (dripped : s.dripInternal contracts now w (s.pcvDepositToPSM d) d = .ok o)
    (read : s.buffer now = .ok level) : rescale level (s.linkedPSM d).unitValue⁻¹ < 2 ^ 256 := by
  simp only [dripInternal, getDripDetails, read, bind_eq_ok, int_eq_ok, Except.ok.injEq, exists_eq_left'] at dripped
  obtain ⟨_, -, _, -, _, ⟨_, -, _, -, _, -, inverse, ⟨-, rfl⟩, adjusted, converted, -⟩, -⟩ := dripped
  obtain ⟨-, fits, -⟩ := getAdjustedAmount_eq_ok.mp converted
  have small := level_lt_of_buffer read
  have factor : (s.linkedPSM d).unitValue⁻¹ = (10 : ℚ) ^ ((s.linkedPSM d).decimalsNormalizer.val * -1) := by
    rw [unitValue_inv, mul_neg_one]
  rw [factor]
  rcases lt_or_ge 0 ((s.linkedPSM d).decimalsNormalizer.val * -1) with raises | lowers
  · exact fits raises
  · have shrinks : (10 : ℚ) ^ ((s.linkedPSM d).decimalsNormalizer.val * -1) ≤ 1 :=
      zpow_le_one_of_nonpos₀ (by norm_num) lowers
    exact ((rescale_le_self (by positivity) shrinks).trans_lt small).trans (by norm_num)

/-- An amount whose value fits a word has a normalizer whose power of ten does. -/
theorem normalizer_le_of_value (positive : 0 < amount)
    (fits : 0 < info.decimalsNormalizer.val → rescale amount info.unitValue < 2 ^ 256) :
    info.decimalsNormalizer.val ≤ 77 := by
  by_contra high
  have value := fits (by omega)
  obtain ⟨digits, same⟩ : ∃ digits : ℕ, info.decimalsNormalizer.val = digits :=
    ⟨info.decimalsNormalizer.val.natAbs, by omega⟩
  have power : ((10 : ℚ) ^ digits) = ((10 ^ digits : ℕ) : ℚ) := by norm_num
  rw [PSMInfo.unitValue, same, zpow_natCast, power, rescale_natCast] at value
  have edge : (2 : ℕ) ^ 256 ≤ 10 ^ 78 := by norm_num
  have large : 10 ^ 78 ≤ 10 ^ digits := Nat.pow_le_pow_right (by norm_num) (by omega)
  have least : 1 * 10 ^ digits ≤ amount * 10 ^ digits := Nat.mul_le_mul_right _ (by omega)
  omega

end Conversions

/-! ### Actions -/

section Actions

variable (exact : ExactPair contracts held (s.linkedPSM d).token (s.pcvDepositToPSM d) d) {level : ℕ}

include exact

/-- `doAction` drips, skims or does nothing, as the balances say. -/
theorem doAction_eq (unpaused : s.paused = false) (linked : s.pcvDepositToPSM d ≠ 0) :
    s.doAction contracts now w d =
      if held w (s.linkedPSM d).token (s.pcvDepositToPSM d) < (s.linkedPSM d).targetBalance.val ∧
          held w (s.linkedPSM d).token d ≠ 0 then
        s.dripInternal contracts now w (s.pcvDepositToPSM d) d
      else if 0 < excess held s w d then s.skimInternal contracts now w (s.pcvDepositToPSM d) d
      else .ok ⟨s, w, []⟩ := by
  simp only [doAction, CoreRef.whenNotPaused, unpaused, Bool.not_false, require_of, ok_bind, linked, ne_eq,
    not_false_eq_true, checkDrip_eq_ok exact, checkSkim_eq_ok exact, decide_eq_true_eq]
  rfl

/-- A drip that is called for and can be converted goes through. -/
theorem drip_succeeds (read : s.buffer now = .ok level) (short : Short held s w d level)
    (drippable : Drippable (s.linkedPSM d) level) :
    ∃ o, s.dripInternal contracts now w (s.pcvDepositToPSM d) d = .ok o := by
  obtain ⟨below, holds, positive⟩ := short
  have small := level_lt_of_buffer read
  obtain ⟨low, high⟩ := drippable.normalizer small positive
  have inverse : int 8 ((s.linkedPSM d).decimalsNormalizer.val * -1) =
      .ok (-(s.linkedPSM d).decimalsNormalizer.val) :=
    int_eq_ok.mpr ⟨⟨by omega, by omega⟩, by ring⟩
  have room : getAdjustedAmount level (-(s.linkedPSM d).decimalsNormalizer.val) =
      .ok (rescale level (s.linkedPSM d).unitValue⁻¹) := by
    rw [unitValue_inv]
    refine getAdjustedAmount_eq_ok.mpr ⟨⟨by omega, by omega⟩, fun _ => ?_, rfl⟩
    rw [← unitValue_inv]
    exact drippable.2
  set amount := min (min ((s.linkedPSM d).targetBalance.val -
    held w (s.linkedPSM d).token (s.pcvDepositToPSM d)) (held w (s.linkedPSM d).token d))
    (rescale level (s.linkedPSM d).unitValue⁻¹) with amountIs
  have charged : rescale amount (s.linkedPSM d).unitValue ≤ level :=
    rescale_le_of_le_rescale_inv (s.linkedPSM d).unitValue_pos (min_le_right ..)
  have charge : getAdjustedAmount amount (s.linkedPSM d).decimalsNormalizer.val =
      .ok (rescale amount (s.linkedPSM d).unitValue) :=
    getAdjustedAmount_eq_ok.mpr ⟨⟨low, high⟩, fun _ => charged.trans_lt (small.trans (by norm_num)), rfl⟩
  have delta : checkedSub (s.linkedPSM d).targetBalance.val
      (held w (s.linkedPSM d).token (s.pcvDepositToPSM d)) = .ok ((s.linkedPSM d).targetBalance.val -
        held w (s.linkedPSM d).token (s.pcvDepositToPSM d)) := checkedSub_eq_ok.mpr ⟨below.le, rfl⟩
  have details : s.getDripDetails contracts now w (s.pcvDepositToPSM d) d =
      .ok (amount, rescale amount (s.linkedPSM d).unitValue) := by
    simp only [getDripDetails, exact.balanceOf, exact.balance, external_some, ok_bind, delta, read, inverse,
      room, ← amountIs, charge]
    rfl
  obtain ⟨readable, rfl⟩ := RateLimitedV2.buffer_eq_ok.mp read
  obtain ⟨limiter, depleted⟩ := RateLimitedV2.depleteBuffer_succeeds readable positive charged
  have covered : amount ≤ held w (s.linkedPSM d).token d := (min_le_left ..).trans (min_le_right ..)
  obtain ⟨u, paid, -⟩ := exact.pay covered
  refine ⟨⟨{ s with toRateLimitedV2 := limiter }, u, [.dripped amount (s.pcvDepositToPSM d)]⟩, ?_⟩
  simp only [dripInternal, checkDrip_eq_ok exact, ok_bind, details, depleted, paid, external_some]
  rw [require_of (decide_eq_true ⟨below, holds⟩), ok_bind]
  rfl

/-- What a skim that is called for needs to go through. -/
theorem skim_isOk_iff (read : s.buffer now = .ok level) (above : 0 < excess held s w d) :
    (∃ o, s.skimInternal contracts now w (s.pcvDepositToPSM d) d = .ok o) ↔
      Skimmable s (s.linkedPSM d) level (excess held s w d) := by
  have subtract : checkedSub (held w (s.linkedPSM d).token (s.pcvDepositToPSM d))
      (s.linkedPSM d).targetBalance.val = .ok (excess held s w d) := by
    rw [excess] at above
    exact checkedSub_eq_ok.mpr ⟨by omega, rfl⟩
  constructor
  · rintro ⟨o, skimmed⟩
    simp only [skimInternal, getSkimDetails, exact.balanceOf, external_some, ok_bind, subtract,
      bind_eq_ok, pure_eq_ok] at skimmed
    obtain ⟨_, -, _, -, _, ⟨adjusted, converted, rfl⟩, limiter, replenished, -⟩ := skimmed
    obtain ⟨⟨low, high⟩, fits, rfl⟩ := getAdjustedAmount_eq_ok.mp converted
    exact ⟨low, fits, (replenishBuffer_isOk_iff read).mp ⟨limiter, replenished⟩⟩
  · rintro ⟨low, fits, room⟩
    have converted : getAdjustedAmount (excess held s w d) (s.linkedPSM d).decimalsNormalizer.val =
        .ok (rescale (excess held s w d) (s.linkedPSM d).unitValue) :=
      getAdjustedAmount_eq_ok.mpr ⟨⟨low, normalizer_le_of_value above fits⟩, fits, rfl⟩
    obtain ⟨limiter, replenished⟩ := (replenishBuffer_isOk_iff read).mpr room
    have covered : excess held s w d ≤ held w (s.linkedPSM d).token (s.pcvDepositToPSM d) := Nat.sub_le ..
    obtain ⟨pulled, collected, -⟩ := exact.collect covered
    obtain ⟨deposited, supplied, -⟩ := exact.deposit pulled
    refine ⟨⟨{ s with toRateLimitedV2 := limiter }, deposited, [.skimmed (excess held s w d) d]⟩, ?_⟩
    simp only [skimInternal, getSkimDetails, exact.balanceOf, external_some, ok_bind, subtract, converted,
      checkSkim_eq_ok exact, pure_bind, replenished, collected, supplied]
    rw [require_of (decide_eq_true above), ok_bind]
    rfl

/-- What a drip that went through moved. -/
theorem drip_moves (linked : s.pcvDepositToPSM d ≠ 0)
    (dripped : s.dripInternal contracts now w (s.pcvDepositToPSM d) d = .ok o) :
    ∃ amount, o.events = [.dripped amount (s.pcvDepositToPSM d)] ∧
      (∀ level, s.buffer now = .ok level → (0 < amount ↔ 0 < rescale level (s.linkedPSM d).unitValue⁻¹)) ∧
      held o.world = Ledger.moveIn (held w) (s.linkedPSM d).token d (s.pcvDepositToPSM d) amount := by
  obtain ⟨amount, drips⟩ := dripInternal_spec linked dripped
  obtain ⟨reserves, available, room, read, below, balance, nonzero, buffered, smallest⟩ := drips.smallest
  have covered : amount ≤ held w (s.linkedPSM d).token d := by
    obtain rfl := Option.some.inj ((exact.balance w).symm.trans balance)
    rw [smallest]
    exact (min_le_left ..).trans (min_le_right ..)
  obtain ⟨u, paid, moved⟩ := exact.pay covered
  obtain rfl := Option.some.inj (drips.moved.symm.trans paid)
  refine ⟨amount, drips.logged, ?_, moved⟩
  intro level same
  obtain rfl := Except.ok.inj (buffered.symm.trans same)
  rw [smallest, lt_min_iff, lt_min_iff]
  constructor
  · rintro ⟨-, worth⟩
    exact worth
  · intro worth
    exact ⟨⟨by omega, by omega⟩, worth⟩

/-- What a skim that went through moved. -/
theorem skim_moves (linked : s.pcvDepositToPSM d ≠ 0)
    (skimmed : s.skimInternal contracts now w (s.pcvDepositToPSM d) d = .ok o) :
    Moved held (s.linkedPSM d).token (s.pcvDepositToPSM d) d w o := by
  obtain ⟨amount, skims⟩ := skimInternal_spec linked skimmed
  obtain ⟨pulled, withdrawn, supplied⟩ := skims.moved
  have holding := Option.some.inj ((exact.balanceOf w).symm.trans skims.holding)
  have covered : amount ≤ held w (s.linkedPSM d).token (s.pcvDepositToPSM d) := by omega
  obtain ⟨u, collected, moved⟩ := exact.collect covered
  obtain rfl := Option.some.inj (withdrawn.symm.trans collected)
  obtain ⟨after, deposited, same⟩ := exact.deposit pulled
  obtain rfl : o.world = after := Option.some.inj (supplied.symm.trans deposited)
  exact ⟨amount, skims.positive, .inr ⟨skims.logged, same.trans moved⟩⟩

omit exact in
/-- A PSM above its target is not below it. -/
theorem not_below_of_excess (above : 0 < excess held s w d) :
    ¬ (held w (s.linkedPSM d).token (s.pcvDepositToPSM d) < (s.linkedPSM d).targetBalance.val ∧
      held w (s.linkedPSM d).token d ≠ 0) := by
  rintro ⟨below, -⟩
  rw [excess] at above
  omega

/-- An action that is not allowed moves nothing: a drip that the balances call for then finds the buffer
empty and reverts. -/
theorem idle_of_refused (unpaused : s.paused = false) (linked : s.pcvDepositToPSM d ≠ 0)
    (answer : s.checkActionAllowed contracts now w d = .ok false)
    (acted : s.doAction contracts now w d = .ok o) : o = ⟨s, w, []⟩ := by
  obtain ⟨level, read, uncalled⟩ := checkActionAllowed_spec exact unpaused answer
  obtain ⟨notShort, notAbove⟩ := not_or.mp (of_decide_eq_false uncalled.symm)
  rw [doAction_eq exact unpaused linked] at acted
  split_ifs at acted with below
  · obtain ⟨amount, drips⟩ := dripInternal_spec linked acted
    obtain ⟨limiter, depleted, -⟩ := drips.charged
    obtain ⟨⟨-, nonzero, -⟩, -⟩ := RateLimitedV2.depleteBuffer_spec depleted
    obtain ⟨-, rfl⟩ := RateLimitedV2.buffer_eq_ok.mp read
    exact absurd ⟨below.1, below.2, nonzero⟩ notShort
  · exact (Except.ok.inj acted).symm

/-- An allowed action that can be converted goes through and moves something. -/
theorem moved_of_allowed (unpaused : s.paused = false) (linked : s.pcvDepositToPSM d ≠ 0)
    (answer : s.checkActionAllowed contracts now w d = .ok true)
    (convertible : ∀ level, s.buffer now = .ok level → Convertible held s w d level) :
    ∃ o, s.doAction contracts now w d = .ok o ∧
      Moved held (s.linkedPSM d).token (s.pcvDepositToPSM d) d w o := by
  obtain ⟨level, read, called⟩ := checkActionAllowed_spec exact unpaused answer
  obtain ⟨drippable, skimmable⟩ := convertible level read
  rw [doAction_eq exact unpaused linked]
  rcases of_decide_eq_true called.symm with short | above
  · obtain ⟨o, dripped⟩ := drip_succeeds exact read short (drippable short)
    obtain ⟨amount, logged, worth, moved⟩ := drip_moves exact linked dripped
    rw [if_pos ⟨short.1, short.2.1⟩]
    exact ⟨o, dripped, amount, (worth level read).mpr (drippable short).1, .inl ⟨logged, moved⟩⟩
  · obtain ⟨o, skimmed⟩ := (skim_isOk_iff exact read above).mpr (skimmable above)
    rw [if_neg (not_below_of_excess above), if_pos above]
    exact ⟨o, skimmed, skim_moves exact linked skimmed⟩

/-- A buffer that let a drip move something was worth something. -/
theorem drippable_of_moved (linked : s.pcvDepositToPSM d ≠ 0) (read : s.buffer now = .ok level)
    (dripped : s.dripInternal contracts now w (s.pcvDepositToPSM d) d = .ok o)
    (moved : Moved held (s.linkedPSM d).token (s.pcvDepositToPSM d) d w o) : Drippable (s.linkedPSM d) level := by
  obtain ⟨amount, logged, worth, -⟩ := drip_moves exact linked dripped
  refine ⟨(worth level read).mp ?_, worth_of_drip dripped read⟩
  obtain ⟨reported, positive, ⟨same, -⟩ | ⟨other, -⟩⟩ := moved
  · rw [logged] at same
    simp only [List.cons.injEq, Event.dripped.injEq, and_true] at same
    exact same ▸ positive
  · rw [logged] at other
    simp at other

/-- The allocator does what its view says exactly when whatever action the balances call for can be
converted. -/
theorem viewAgrees_iff (unpaused : s.paused = false) (linked : s.pcvDepositToPSM d ≠ 0) :
    ViewAgrees contracts held s now w d ↔
      ∀ level, s.buffer now = .ok level → Convertible held s w d level := by
  constructor
  · intro agrees level read
    have acts : s.doAction contracts now w d = _ := doAction_eq exact unpaused linked
    have viewed := checkActionAllowed_of_buffer (w := w) exact unpaused read
    refine ⟨?_, ?_⟩
    · intro short
      rw [decide_eq_true (.inl short)] at viewed
      obtain ⟨o, acted, moved⟩ := agrees.allowed viewed
      rw [acts, if_pos ⟨short.1, short.2.1⟩] at acted
      exact drippable_of_moved exact linked read acted moved
    · intro above
      rw [decide_eq_true (.inr above)] at viewed
      obtain ⟨o, acted, -⟩ := agrees.allowed viewed
      rw [acts, if_neg (not_below_of_excess above), if_pos above] at acted
      exact (skim_isOk_iff exact read above).mp ⟨o, acted⟩
  · intro convertible
    exact ⟨fun answer => moved_of_allowed exact unpaused linked answer convertible,
      fun answer o acted => idle_of_refused exact unpaused linked answer acted⟩

end Actions

/-! ### A buffer worth fifty units and a buffer worth none -/

theorem exactPair_exactContracts {reported : Address → Address} {token psm pcvDeposit : Address}
    (nonzero : token ≠ 0) (psmToken : reported psm = token) (depositToken : reported pcvDeposit = token) :
    ExactPair (exactContracts reported) id token psm pcvDeposit where
  balanceOf w := if_neg nonzero
  balance w := by rw [← depositToken]; rfl
  pay {w amount} covered := by
    refine ⟨_, if_pos ?_, by rw [depositToken]; rfl⟩
    rw [depositToken]
    exact covered
  collect {w amount} covered := by
    refine ⟨_, if_pos ?_, by rw [psmToken]; rfl⟩
    rw [psmToken]
    exact covered
  deposit w := ⟨w, rfl, rfl⟩

/-- The PSM at 10 and the deposit at 20 hold the token at 5. -/
def pairToken (a : Address) : Address := if a = 10 ∨ a = 20 then 5 else 0

/-- The deposit holds 900 units and the PSM none. -/
def pairBooks : Address → Address → ℕ := fun token a => if token = 5 ∧ a = 20 then 900 else 0

/-- An allocator with a full buffer, before anything is connected. -/
def fresh (bufferCap : Uint 128) : ERC20Allocator :=
  { CONTRACT_ADMIN_ROLE := .governor, paused := false, MAX_RATE_LIMIT_PER_SECOND := 0,
    rateLimitPerSecond := 0, bufferCap, lastBufferUsedTime := 0,
    bufferStored := bufferCap.widen (by decide), allPSMs := fun _ => .blank, pcvDepositToPSM := fun _ => 0 }

/-- The same allocator with the PSM at a target of 100 and two decimals more, and the deposit linked to it. -/
def connected (bufferCap : Uint 128) : ERC20Allocator :=
  { fresh bufferCap with
    allPSMs := Function.update (fresh bufferCap).allPSMs 10 ⟨5, 100, ⟨2, by decide⟩⟩
    pcvDepositToPSM := Function.update (fresh bufferCap).pcvDepositToPSM 20 10 }

/-- A buffer of 5000 is worth 50 units of the token, which the allowed action moves. -/
theorem viewAgrees_connected : ViewAgrees (exactContracts pairToken) id (connected 5000) 0 pairBooks 20 := by
  have exact : ExactPair (exactContracts pairToken) id ((connected 5000).linkedPSM 20).token
      ((connected 5000).pcvDepositToPSM 20) 20 :=
    exactPair_exactContracts (by decide) (by decide) (by decide)
  apply (viewAgrees_iff exact (by decide) (by decide)).mpr
  intro level read
  have full : (connected 5000).buffer 0 = .ok 5000 := by decide +kernel
  obtain rfl := Except.ok.inj (read.symm.trans full)
  have unit : ((connected 5000).linkedPSM 20).unitValue = ((100 : ℕ) : ℚ) := by
    have decimals : ((connected 5000).linkedPSM 20).decimalsNormalizer.val = 2 := by decide
    rw [PSMInfo.unitValue, decimals]
    norm_num
  have nothing : excess id (connected 5000) pairBooks 20 = 0 := by decide
  refine ⟨?_, fun above => absurd above (by rw [nothing]; exact lt_irrefl 0)⟩
  intro _
  rw [Drippable, unit, rescale_inv_natCast]
  norm_num

/-- With a buffer of 99 the view allows an action that moves nothing: 99 hundredths of a unit are no unit. -/
theorem not_viewAgrees_dust :
    let governor := Context.withRoles 1 [.governor]
    let start : State (Address → Address → ℕ) := ⟨0, fresh 99, pairBooks, []⟩
    let calls := [.connectPSM governor 10 100 ⟨2, by decide⟩, .connectDeposit governor 10 20]
    ∃ s, Initial start ∧ run (step (exactContracts pairToken)) start calls = .ok s ∧
      s.allocator.paused = false ∧ s.allocator.pcvDepositToPSM 20 = 10 ∧
      (s.allocator.linkedPSM 20).token = 5 ∧
      ¬ ViewAgrees (exactContracts pairToken) id s.allocator s.now s.world 20 := by
  intro governor start calls
  have deployed : RateLimitedV2.deploy 0 0 0 99 = .ok start.allocator.toRateLimitedV2 := by decide +kernel
  have connects : (fun s => (s.allocator.paused, s.allocator.pcvDepositToPSM 20, (s.allocator.linkedPSM 20).token)) <$>
      run (step (exactContracts pairToken)) start calls = .ok (false, 10, 5) := by decide +kernel
  have acts : (fun s => (s.allocator.checkActionAllowed (exactContracts pairToken) s.now s.world 20,
      Outcome.events <$> s.allocator.doAction (exactContracts pairToken) s.now s.world 20)) <$>
      run (step (exactContracts pairToken)) start calls = .ok (.ok true, .ok [.dripped 0 10]) := by
    decide +kernel
  obtain ⟨s, reached, wired⟩ := map_eq_ok.mp connects
  rw [reached] at acts
  have observed := Except.ok.inj acts
  simp only [Prod.mk.injEq] at wired observed
  obtain ⟨unpaused, linked, token⟩ := wired
  obtain ⟨viewed, acted⟩ := observed
  refine ⟨s, ⟨0, 0, 99, bind_eq_ok.mpr ⟨_, deployed, rfl⟩⟩, reached, unpaused, linked, token, ?_⟩
  intro agrees
  obtain ⟨o, success, amount, positive, moves⟩ := agrees.allowed viewed
  rw [success] at acted
  have logged : o.events = [.dripped 0 10] := Except.ok.inj acted
  rcases moves with ⟨same, -⟩ | ⟨other, -⟩
  · rw [logged] at same
    simp only [List.cons.injEq, Event.dripped.injEq, and_true] at same
    omega
  · rw [logged] at other
    simp at other

end VoltProtocol.AllocatorViews
