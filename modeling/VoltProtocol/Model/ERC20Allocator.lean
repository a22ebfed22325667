import VoltProtocol.Model.RateLimitedV2
import VoltProtocol.ToMathlib.Ledger
import VoltProtocol.ToMathlib.Rescale

/-! # ERC20Allocator, moving PCV between PSMs and yield venues

The allocator keeps two mappings, from PSMs to their targets and from PCV deposits to PSMs, and one
rate limit that all of them share. Tokens, PSMs and deposits are other contracts: they are a
parameter `Contracts ω` that answers reads of a world `ω` and executes calls on it, and any of them
may revert. The lemmas about `skim`, `drip` and `doAction` say everything that a successful call
has read, charged and moved.
-/

namespace VoltProtocol

/-- What the numerals of a target balance rest on. -/
instance targetNumerals : NeZero (2 ^ 248) := ⟨by decide⟩

/-- The target and the decimals of one PSM. -/
structure PSMInfo where
  token : Address
  targetBalance : Uint 248
  decimalsNormalizer : SInt 8
deriving DecidableEq

/-- The value of a mapping entry that was never written or was deleted. -/
def PSMInfo.blank : PSMInfo := ⟨0, 0, 0, by norm_num⟩

/-- The exact value of one unit of the token of a PSM, in the unit of the shared buffer. -/
def PSMInfo.unitValue (info : PSMInfo) : ℚ := 10 ^ info.decimalsNormalizer.val

theorem PSMInfo.unitValue_pos (info : PSMInfo) : 0 < info.unitValue := by
  rw [unitValue]
  positivity

structure ERC20Allocator extends CoreRef, RateLimitedV2 where
  allPSMs : Address → PSMInfo
  pcvDepositToPSM : Address → Address

namespace ERC20Allocator

open TokenBucket

/-- The contracts an allocator calls. Reads cannot change the world; `none` is a revert. -/
structure Contracts (ω : Type) where
  balanceReportedIn : ω → Address → Option Address
  balance : ω → Address → Option ℕ
  withdraw : ω → Address → Address → ℕ → Option ω
  deposit : ω → Address → Option ω
  balanceOf : ω → Address → Address → Option ℕ
  transfer : ω → Address → Address → ℕ → Option ω

/-- Contracts that pay out and count exactly what they hold. The world is how much of each token
each account holds; `reported` is the token of each PSM and deposit, zero for any other account. -/
def exactContracts (reported : Address → Address) : Contracts (Address → Address → ℕ) where
  balanceReportedIn _ a := if reported a = 0 then none else some (reported a)
  balance held a := some (held (reported a) a)
  withdraw held a recipient amount :=
    if amount ≤ held (reported a) a then
      some (Ledger.moveIn held (reported a) a recipient amount)
    else none
  deposit held _ := some held
  balanceOf held token a := if token = 0 then none else some (held token a)
  transfer held _ _ amount := if amount = 0 then some held else none

/-- The events of the allocation functions. -/
inductive Event where
  | skimmed (amountSkimmed : ℕ) (pcvDeposit : Address)
  | dripped (amountDripped : ℕ) (psm : Address)
deriving DecidableEq, Repr

/-- What an allocation function leaves behind. -/
structure Outcome (ω : Type) where
  allocator : ERC20Allocator
  world : ω
  events : List Event

variable {ω : Type} (contracts : Contracts ω) (s : ERC20Allocator)

/-- The constructor. CoreRef makes the governor role the admin role; nothing is connected yet. -/
def deploy (now maxRateLimitPerSecond : ℕ) (rateLimitPerSecond bufferCap : Uint 128) :
    Except Revert ERC20Allocator := do
  let limiter ← RateLimitedV2.deploy now maxRateLimitPerSecond rateLimitPerSecond bufferCap
  return { toCoreRef := ⟨.governor, false⟩, toRateLimitedV2 := limiter,
           allPSMs := fun _ => .blank, pcvDepositToPSM := fun _ => 0 }

/-! ### Governor only -/

def connectPSM (ctx : Context) (w : ω) (psm : Address) (psmTargetBalance : Uint 248)
    (decimalsNormalizer : SInt 8) : Except Revert ERC20Allocator := do
  ctx.onlyGovernor
  let token ← external (contracts.balanceReportedIn w psm)
  require ((s.allPSMs psm).token = 0) "ERC20Allocator: cannot overwrite existing deposit"
  let newPSM : PSMInfo := { token, targetBalance := psmTargetBalance, decimalsNormalizer }
  return { s with allPSMs := Function.update s.allPSMs psm newPSM }

def editPSMTargetBalance (ctx : Context) (w : ω) (psm : Address) (psmTargetBalance : Uint 248) :
    Except Revert ERC20Allocator := do
  ctx.onlyGovernor
  let token ← external (contracts.balanceReportedIn w psm)
  let storedToken := (s.allPSMs psm).token
  require (storedToken ≠ 0) "ERC20Allocator: cannot edit non-existent deposit"
  require (token = storedToken) "ERC20Allocator: psm changed underlying"
  let edited := { s.allPSMs psm with targetBalance := psmTargetBalance }
  return { s with allPSMs := Function.update s.allPSMs psm edited }

def disconnectPSM (ctx : Context) (psm : Address) : Except Revert ERC20Allocator := do
  ctx.onlyGovernor
  -- the deposits linked to this PSM keep their links
  return { s with allPSMs := Function.update s.allPSMs psm .blank }

def connectDeposit (ctx : Context) (w : ω) (psm pcvDeposit : Address) :
    Except Revert ERC20Allocator := do
  ctx.onlyGovernor
  let pcvToken := (s.allPSMs psm).token
  let reported ← external (contracts.balanceReportedIn w pcvDeposit)
  require (reported = pcvToken) "ERC20Allocator: token mismatch"
  require (pcvToken ≠ 0) "ERC20Allocator: invalid underlying"
  return { s with pcvDepositToPSM := Function.update s.pcvDepositToPSM pcvDeposit psm }

def deleteDeposit (ctx : Context) (pcvDeposit : Address) : Except Revert ERC20Allocator := do
  ctx.onlyGovernor
  return { s with pcvDepositToPSM := Function.update s.pcvDepositToPSM pcvDeposit 0 }

def sweep (ctx : Context) (w : ω) (token recipient : Address) (amount : ℕ) : Except Revert ω := do
  ctx.onlyGovernor
  external (contracts.transfer w token recipient amount)

/-! ### Views -/

def targetBalance (psm : Address) : ℕ := (s.allPSMs psm).targetBalance.val

def getAdjustedAmount (amountToDrip : ℕ) (decimalsNormalizer : ℤ) : Except Revert ℕ := do
  if decimalsNormalizer = 0 then
    return amountToDrip
  else if 0 < decimalsNormalizer then
    let scalingFactor ← checkedPow10 (← toUint256 decimalsNormalizer)
    uint 256 (amountToDrip * scalingFactor)
  else
    let negated ← int 8 (-1 * decimalsNormalizer)
    let scalingFactor ← checkedPow10 (← toUint256 negated)
    checkedDiv amountToDrip scalingFactor

def getSkimDetails (w : ω) (pcvDeposit : Address) : Except Revert (ℕ × ℕ) := do
  let psm := s.pcvDepositToPSM pcvDeposit
  let toSkim := s.allPSMs psm
  let held ← external (contracts.balanceOf w toSkim.token psm)
  let amountToSkim ← checkedSub held toSkim.targetBalance.val
  let adjustedAmountToSkim ← getAdjustedAmount amountToSkim toSkim.decimalsNormalizer
  return (amountToSkim, adjustedAmountToSkim)

def getDripDetails (now : ℕ) (w : ω) (psm pcvDeposit : Address) : Except Revert (ℕ × ℕ) := do
  let toDrip := s.allPSMs psm
  let held ← external (contracts.balanceOf w toDrip.token psm)
  let targetBalanceDelta ← checkedSub toDrip.targetBalance.val held
  let available ← external (contracts.balance w pcvDeposit)
  let room ← s.buffer now
  let inverse ← int 8 (toDrip.decimalsNormalizer * -1)
  let adjustedRoom ← getAdjustedAmount room inverse
  let amountToDrip := min (min targetBalanceDelta available) adjustedRoom
  let adjustedAmountToDrip ← getAdjustedAmount amountToDrip toDrip.decimalsNormalizer
  return (amountToDrip, adjustedAmountToDrip)

/-- `_checkDripCondition` -/
def checkDripConditionInternal (w : ω) (psm pcvDeposit : Address) : Except Revert Bool := do
  let held ← external (contracts.balanceOf w (s.allPSMs psm).token psm)
  if held < (s.allPSMs psm).targetBalance.val then
    let available ← external (contracts.balance w pcvDeposit)
    return available != 0
  else
    return false

/-- `_checkSkimCondition` -/
def checkSkimConditionInternal (w : ω) (psm : Address) : Except Revert Bool := do
  let held ← external (contracts.balanceOf w (s.allPSMs psm).token psm)
  return decide (held > (s.allPSMs psm).targetBalance.val)

def checkDripCondition (now : ℕ) (w : ω) (pcvDeposit : Address) : Except Revert Bool := do
  if s.paused then
    return false
  else if (← s.buffer now) = 0 then
    return false
  else
    s.checkDripConditionInternal contracts w (s.pcvDepositToPSM pcvDeposit) pcvDeposit

def checkSkimCondition (w : ω) (pcvDeposit : Address) : Except Revert Bool := do
  if s.paused then
    return false
  else
    s.checkSkimConditionInternal contracts w (s.pcvDepositToPSM pcvDeposit)

def checkActionAllowed (now : ℕ) (w : ω) (pcvDeposit : Address) : Except Revert Bool := do
  if s.paused then
    return false
  else
    let psm := s.pcvDepositToPSM pcvDeposit
    let dripAllowed ← if (← s.buffer now) ≠ 0
      then s.checkDripConditionInternal contracts w psm pcvDeposit else pure false
    if dripAllowed then return true else s.checkSkimConditionInternal contracts w psm

/-! ### Permissionless allocation -/

/-- `_skim` -/
def skimInternal (now : ℕ) (w : ω) (psm pcvDeposit : Address) : Except Revert (Outcome ω) := do
  require (← s.checkSkimConditionInternal contracts w psm) "ERC20Allocator: skim condition not met"
  let (amountToSkim, adjustedAmountToSkim) ← s.getSkimDetails contracts w pcvDeposit
  let limiter ← s.replenishBuffer now adjustedAmountToSkim
  let pulled ← external (contracts.withdraw w psm pcvDeposit amountToSkim)
  let deposited ← external (contracts.deposit pulled pcvDeposit)
  return ⟨{ s with toRateLimitedV2 := limiter }, deposited, [.skimmed amountToSkim pcvDeposit]⟩

/-- `_drip` -/
def dripInternal (now : ℕ) (w : ω) (psm pcvDeposit : Address) : Except Revert (Outcome ω) := do
  require (← s.checkDripConditionInternal contracts w psm pcvDeposit)
    "ERC20Allocator: drip condition not met"
  let (amountToDrip, adjustedAmountToDrip) ← s.getDripDetails contracts now w psm pcvDeposit
  let limiter ← s.depleteBuffer now adjustedAmountToDrip
  let pulled ← external (contracts.withdraw w pcvDeposit psm amountToDrip)
  return ⟨{ s with toRateLimitedV2 := limiter }, pulled, [.dripped amountToDrip psm]⟩

def skim (now : ℕ) (w : ω) (pcvDeposit : Address) : Except Revert (Outcome ω) := do
  s.whenNotPaused
  let psm := s.pcvDepositToPSM pcvDeposit
  require (psm ≠ 0) "ERC20Allocator: invalid PCVDeposit"
  s.skimInternal contracts now w psm pcvDeposit

def drip (now : ℕ) (w : ω) (pcvDeposit : Address) : Except Revert (Outcome ω) := do
  s.whenNotPaused
  let psm := s.pcvDepositToPSM pcvDeposit
  require (psm ≠ 0) "ERC20Allocator: invalid PCVDeposit"
  s.dripInternal contracts now w psm pcvDeposit

def doAction (now : ℕ) (w : ω) (pcvDeposit : Address) : Except Revert (Outcome ω) := do
  s.whenNotPaused
  let psm := s.pcvDepositToPSM pcvDeposit
  require (psm ≠ 0) "ERC20Allocator: invalid PCVDeposit"
  if ← s.checkDripConditionInternal contracts w psm pcvDeposit then
    s.dripInternal contracts now w psm pcvDeposit
  else if ← s.checkSkimConditionInternal contracts w psm then
    s.skimInternal contracts now w psm pcvDeposit
  else
    return ⟨s, w, []⟩

/-! ### Rounding of the adjusted amounts -/

section Adjusted

variable {amount result : ℕ} {decimalsNormalizer : ℤ}

private theorem pow_toNat (nonneg : 0 ≤ decimalsNormalizer) :
    (10 : ℚ) ^ decimalsNormalizer = ((10 ^ decimalsNormalizer.toNat : ℕ) : ℚ) := by
  obtain ⟨digits, rfl⟩ := Int.eq_ofNat_of_zero_le nonneg
  rw [Int.toNat_natCast, zpow_natCast]
  norm_num

/-- Both directions of `getAdjustedAmount` are one rescaling by a power of ten, rounded down. -/
theorem getAdjustedAmount_spec (success : getAdjustedAmount amount decimalsNormalizer = .ok result) :
    result = rescale amount ((10 : ℚ) ^ decimalsNormalizer) := by
  rw [getAdjustedAmount] at success
  split_ifs at success with zero positive
  · obtain rfl := pure_eq_ok.mp success
    rw [zero, zpow_zero, rescale_one]
  · simp only [bind_eq_ok, toUint256_eq_ok, checkedPow10_eq_ok, uint_eq_ok] at success
    obtain ⟨digits, rfl, _, ⟨-, rfl⟩, -, rfl⟩ := success
    rw [pow_toNat positive.le, rescale_natCast, Int.toNat_natCast]
  · simp only [bind_eq_ok, int_eq_ok, toUint256_eq_ok, checkedPow10_eq_ok, checkedDiv_eq_ok] at success
    obtain ⟨_, ⟨-, rfl⟩, digits, negated, _, ⟨-, rfl⟩, -, rfl⟩ := success
    have inverse : decimalsNormalizer = -(digits : ℤ) := by omega
    rw [inverse, zpow_neg, pow_toNat (Int.natCast_nonneg digits), rescale_inv_natCast,
      Int.toNat_natCast]

/-- Multiplying by a power of ten can overflow; no other power than these fits a word. -/
theorem getAdjustedAmount_eq_ok : getAdjustedAmount amount decimalsNormalizer = .ok result ↔
    (-77 ≤ decimalsNormalizer ∧ decimalsNormalizer ≤ 77) ∧
      (0 < decimalsNormalizer → rescale amount ((10 : ℚ) ^ decimalsNormalizer) < 2 ^ 256) ∧
      result = rescale amount ((10 : ℚ) ^ decimalsNormalizer) := by
  constructor
  · intro success
    refine ⟨?_, ?_, getAdjustedAmount_spec success⟩
    · rw [getAdjustedAmount] at success
      split_ifs at success with zero positive
      · omega
      · simp only [bind_eq_ok, toUint256_eq_ok, checkedPow10_eq_ok] at success
        obtain ⟨digits, rfl, _, ⟨small, -⟩, -⟩ := success
        omega
      · simp only [bind_eq_ok, int_eq_ok, toUint256_eq_ok, checkedPow10_eq_ok] at success
        obtain ⟨_, ⟨-, rfl⟩, digits, negated, _, ⟨small, -⟩, -⟩ := success
        omega
    · intro positive
      rw [← getAdjustedAmount_spec success]
      rw [getAdjustedAmount, if_neg positive.ne', if_pos positive] at success
      simp only [bind_eq_ok, uint_eq_ok] at success
      obtain ⟨_, -, _, -, fits, rfl⟩ := success
      exact fits
  · rintro ⟨⟨low, high⟩, fits, rfl⟩
    rw [getAdjustedAmount]
    split_ifs with zero positive
    · rw [zero, zpow_zero, rescale_one]
      rfl
    · obtain ⟨digits, rfl⟩ := Int.eq_ofNat_of_zero_le positive.le
      have whole := fits positive
      rw [pow_toNat positive.le, rescale_natCast, Int.toNat_natCast] at whole ⊢
      simp only [bind_eq_ok, toUint256_eq_ok, checkedPow10_eq_ok, uint_eq_ok]
      exact ⟨digits, rfl, _, ⟨by omega, rfl⟩, whole, rfl⟩
    · obtain ⟨digits, rfl⟩ : ∃ digits : ℕ, decimalsNormalizer = -(digits : ℤ) :=
        ⟨decimalsNormalizer.natAbs, by omega⟩
      rw [zpow_neg, pow_toNat (Int.natCast_nonneg digits), rescale_inv_natCast, Int.toNat_natCast]
      simp only [bind_eq_ok, int_eq_ok, toUint256_eq_ok, checkedPow10_eq_ok, checkedDiv_eq_ok]
      exact ⟨digits, ⟨by omega, by omega⟩, digits, rfl, _, ⟨by omega, rfl⟩, by positivity, rfl⟩

/-- Multiplying by a power of ten is exact. -/
theorem rescale_of_nonneg (nonneg : 0 ≤ decimalsNormalizer) :
    (rescale amount ((10 : ℚ) ^ decimalsNormalizer) : ℚ) = amount * 10 ^ decimalsNormalizer := by
  rw [pow_toNat nonneg, rescale_natCast, Nat.cast_mul]

/-- An adjusted amount misses the exact value by less than one unit, and only for a negative
normalizer. -/
theorem value_le_rescale (info : PSMInfo) : amount * info.unitValue ≤
    rescale amount info.unitValue + if info.decimalsNormalizer.val < 0 then 1 else 0 := by
  split_ifs with negative
  · exact lt_rescale_add_one.le
  · rw [PSMInfo.unitValue, rescale_of_nonneg (Int.not_lt.mp negative), add_zero]

end Adjusted

/-! ### What the allocation functions do -/

section Spec

variable {contracts s} {now : ℕ} {w : ω} {psm pcvDeposit : Address} {o : Outcome ω}

theorem checkDripConditionInternal_eq_ok {allowed : Bool} :
    s.checkDripConditionInternal contracts w psm pcvDeposit = .ok allowed ↔
      ∃ held, contracts.balanceOf w (s.allPSMs psm).token psm = some held ∧
        if held < (s.allPSMs psm).targetBalance.val
          then ∃ available, contracts.balance w pcvDeposit = some available ∧ (available != 0) = allowed
          else false = allowed := by
  simp only [checkDripConditionInternal, bind_eq_ok, external_eq_ok]
  apply exists_congr
  intro held
  apply and_congr_right
  intro _
  split_ifs <;> simp

theorem checkSkimConditionInternal_eq_ok {allowed : Bool} :
    s.checkSkimConditionInternal contracts w psm = .ok allowed ↔
      ∃ held, contracts.balanceOf w (s.allPSMs psm).token psm = some held ∧
        decide (held > (s.allPSMs psm).targetBalance.val) = allowed := by
  simp only [checkSkimConditionInternal, bind_eq_ok, external_eq_ok, pure_eq_ok]

/-- A PSM is below its target or above it, never both. -/
theorem conditions_exclusive
    (below : s.checkDripConditionInternal contracts w psm pcvDeposit = .ok true) :
    s.checkSkimConditionInternal contracts w psm ≠ .ok true := by
  intro above
  obtain ⟨held, read, low⟩ := checkDripConditionInternal_eq_ok.mp below
  obtain ⟨other, again, high⟩ := checkSkimConditionInternal_eq_ok.mp above
  obtain rfl : held = other := Option.some.inj (read.symm.trans again)
  have above := of_decide_eq_true high
  rw [if_neg (Nat.not_lt.mpr above.le)] at low
  cases low

/-- The PSM a deposit is linked to, as the allocator stores it. -/
abbrev linkedPSM (s : ERC20Allocator) (pcvDeposit : Address) : PSMInfo :=
  s.allPSMs (s.pcvDepositToPSM pcvDeposit)

/-- What a skim of an amount out of a PSM that holds more than its target does. -/
structure Skims (contracts : Contracts ω) (s : ERC20Allocator) (now : ℕ) (w : ω)
    (pcvDeposit : Address) (o : Outcome ω) (amount : ℕ) : Prop where
  linked : s.pcvDepositToPSM pcvDeposit ≠ 0
  holding : contracts.balanceOf w (s.linkedPSM pcvDeposit).token (s.pcvDepositToPSM pcvDeposit) =
    some ((s.linkedPSM pcvDeposit).targetBalance.val + amount)
  positive : 0 < amount
  credited : ∃ limiter,
    s.replenishBuffer now (rescale amount (s.linkedPSM pcvDeposit).unitValue) = .ok limiter ∧
      o.allocator = { s with toRateLimitedV2 := limiter }
  moved : ∃ pulled, contracts.withdraw w (s.pcvDepositToPSM pcvDeposit) pcvDeposit amount =
    some pulled ∧ contracts.deposit pulled pcvDeposit = some o.world
  logged : o.events = [.skimmed amount pcvDeposit]

theorem skimInternal_spec (linked : s.pcvDepositToPSM pcvDeposit ≠ 0)
    (success : s.skimInternal contracts now w (s.pcvDepositToPSM pcvDeposit) pcvDeposit = .ok o) :
    ∃ amount, Skims contracts s now w pcvDeposit o amount := by
  simp only [skimInternal, getSkimDetails, bind_eq_ok, external_eq_ok, require_eq_ok,
    checkedSub_eq_ok, pure_eq_ok] at success
  obtain ⟨allowed, checked, _, rfl, details, ⟨held, read, amount, ⟨covered, difference⟩, adjusted,
    scaled, rfl⟩, limiter, credited, pulled, withdrawn, deposited, supplied, rfl⟩ := success
  obtain ⟨other, again, high⟩ := checkSkimConditionInternal_eq_ok.mp checked
  obtain rfl : held = other := Option.some.inj (read.symm.trans again)
  have above := of_decide_eq_true high
  obtain rfl := getAdjustedAmount_spec scaled
  have total : held = (s.linkedPSM pcvDeposit).targetBalance.val + amount :=
    difference ▸ (Nat.add_sub_cancel' covered).symm
  refine ⟨amount, ?_⟩
  exact
    { linked
      holding := total ▸ read
      positive := by omega
      credited := ⟨limiter, credited, rfl⟩
      moved := ⟨pulled, withdrawn, supplied⟩
      logged := rfl }

/-- What a drip of an amount into a PSM that is short of its target does. -/
structure Drips (contracts : Contracts ω) (s : ERC20Allocator) (now : ℕ) (w : ω)
    (pcvDeposit : Address) (o : Outcome ω) (amount : ℕ) : Prop where
  linked : s.pcvDepositToPSM pcvDeposit ≠ 0
  smallest : ∃ held available room,
    contracts.balanceOf w (s.linkedPSM pcvDeposit).token (s.pcvDepositToPSM pcvDeposit) =
      some held ∧
    held < (s.linkedPSM pcvDeposit).targetBalance.val ∧
    contracts.balance w pcvDeposit = some available ∧ available ≠ 0 ∧ s.buffer now = .ok room ∧
    amount = min (min ((s.linkedPSM pcvDeposit).targetBalance.val - held) available)
      (rescale room (s.linkedPSM pcvDeposit).unitValue⁻¹)
  charged : ∃ limiter,
    s.depleteBuffer now (rescale amount (s.linkedPSM pcvDeposit).unitValue) = .ok limiter ∧
      o.allocator = { s with toRateLimitedV2 := limiter }
  moved : contracts.withdraw w pcvDeposit (s.pcvDepositToPSM pcvDeposit) amount = some o.world
  logged : o.events = [.dripped amount (s.pcvDepositToPSM pcvDeposit)]

/-- The details of a drip: the smallest of three amounts, and what it is charged. -/
theorem getDripDetails_spec {details : ℕ × ℕ}
    (success : s.getDripDetails contracts now w psm pcvDeposit = .ok details) :
    ∃ held available room, contracts.balanceOf w (s.allPSMs psm).token psm = some held ∧
      contracts.balance w pcvDeposit = some available ∧ s.buffer now = .ok room ∧
      details.1 = min (min ((s.allPSMs psm).targetBalance.val - held) available)
        (rescale room (s.allPSMs psm).unitValue⁻¹) ∧
      details.2 = rescale details.1 (s.allPSMs psm).unitValue := by
  simp only [getDripDetails, bind_eq_ok, external_eq_ok, checkedSub_eq_ok, int_eq_ok,
    pure_eq_ok] at success
  obtain ⟨held, read, _, ⟨-, rfl⟩, available, balance, room, buffered, inverse, ⟨-, negated⟩,
    adjustedRoom, converted, adjusted, scaled, rfl⟩ := success
  have factor : (10 : ℚ) ^ inverse = (s.allPSMs psm).unitValue⁻¹ := by
    rw [negated, mul_neg_one, zpow_neg, PSMInfo.unitValue]
  have smallest := getAdjustedAmount_spec converted
  rw [factor] at smallest
  exact ⟨held, available, room, read, balance, buffered, by rw [smallest],
    getAdjustedAmount_spec scaled⟩

/-- A drip is never charged more than the buffer held when its amount was computed. -/
theorem getDripDetails_le_buffer {details : ℕ × ℕ} {room : ℕ} (buffered : s.buffer now = .ok room)
    (success : s.getDripDetails contracts now w psm pcvDeposit = .ok details) : details.2 ≤ room := by
  obtain ⟨held, available, other, -, -, again, smallest, charge⟩ := getDripDetails_spec success
  obtain rfl : room = other := Except.ok.inj (buffered.symm.trans again)
  rw [charge]
  apply rescale_le_of_le_rescale_inv (s.allPSMs psm).unitValue_pos
  rw [smallest]
  exact min_le_right ..

theorem dripInternal_spec (linked : s.pcvDepositToPSM pcvDeposit ≠ 0)
    (success : s.dripInternal contracts now w (s.pcvDepositToPSM pcvDeposit) pcvDeposit = .ok o) :
    ∃ amount, Drips contracts s now w pcvDeposit o amount := by
  simp only [dripInternal, bind_eq_ok, external_eq_ok, require_eq_ok, pure_eq_ok] at success
  obtain ⟨allowed, checked, _, rfl, ⟨amount, adjusted⟩, details, limiter, charged, pulled, withdrawn,
    rfl⟩ := success
  obtain ⟨other, again, low⟩ := checkDripConditionInternal_eq_ok.mp checked
  obtain ⟨held, available, room, read, balance, buffered, smallest, charge⟩ :=
    getDripDetails_spec details
  obtain rfl : held = other := Option.some.inj (read.symm.trans again)
  split_ifs at low with short
  obtain ⟨same, seen, nonzero⟩ := low
  obtain rfl : available = same := Option.some.inj (balance.symm.trans seen)
  have some_left : available ≠ 0 := bne_iff_ne.mp nonzero
  simp only at smallest charge
  refine ⟨amount, ?_⟩
  exact
    { linked
      smallest := ⟨held, available, room, read, short, balance, some_left, buffered, smallest⟩
      charged := ⟨limiter, charge ▸ charged, rfl⟩
      moved := withdrawn
      logged := rfl }

theorem skim_spec (success : s.skim contracts now w pcvDeposit = .ok o) :
    ∃ amount, Skims contracts s now w pcvDeposit o amount := by
  simp only [skim, bind_eq_ok, require_eq_ok] at success
  obtain ⟨_, -, _, linked, skimmed⟩ := success
  exact skimInternal_spec linked skimmed

theorem drip_spec (success : s.drip contracts now w pcvDeposit = .ok o) :
    ∃ amount, Drips contracts s now w pcvDeposit o amount := by
  simp only [drip, bind_eq_ok, require_eq_ok] at success
  obtain ⟨_, -, _, linked, dripped⟩ := success
  exact dripInternal_spec linked dripped

/-- An action drips, skims, or does nothing because neither condition is met. -/
theorem doAction_cases (success : s.doAction contracts now w pcvDeposit = .ok o) :
    (∃ amount, Drips contracts s now w pcvDeposit o amount) ∨
      (∃ amount, Skims contracts s now w pcvDeposit o amount) ∨
      (o = ⟨s, w, []⟩ ∧ s.pcvDepositToPSM pcvDeposit ≠ 0 ∧
        s.checkDripConditionInternal contracts w (s.pcvDepositToPSM pcvDeposit) pcvDeposit = .ok false ∧
        s.checkSkimConditionInternal contracts w (s.pcvDepositToPSM pcvDeposit) = .ok false) := by
  simp only [doAction, bind_eq_ok, require_eq_ok] at success
  obtain ⟨_, -, _, linked, below, noDrip, success⟩ := success
  split_ifs at success with drips
  · exact .inl (dripInternal_spec linked success)
  · obtain ⟨above, noSkim, success⟩ := bind_eq_ok.mp success
    split_ifs at success with skims
    · exact .inr (.inl (skimInternal_spec linked success))
    · rw [Bool.not_eq_true] at drips skims
      subst drips skims
      exact .inr (.inr ⟨(pure_eq_ok.mp success).symm, linked, noDrip, noSkim⟩)

/-- An action drips, skims or does nothing at all. -/
theorem doAction_spec (success : s.doAction contracts now w pcvDeposit = .ok o) :
    (∃ amount, Drips contracts s now w pcvDeposit o amount) ∨
      (∃ amount, Skims contracts s now w pcvDeposit o amount) ∨ o = ⟨s, w, []⟩ :=
  (doAction_cases success).imp_right fun other => other.imp_right And.left

end Spec

/-! ### No drip is refused by the rate limit -/

section Failure

variable {contracts s} {now : ℕ} {w : ω} {psm pcvDeposit : Address}

/-- The failure of a depletion that asks for more than the buffer holds. -/
abbrev rateLimitHit : Revert := .message "RateLimited: rate limit hit"

private theorem getAdjustedAmount_ne_hit {amount : ℕ} {decimalsNormalizer : ℤ} :
    getAdjustedAmount amount decimalsNormalizer ≠ .error rateLimitHit := by
  rw [getAdjustedAmount]
  split_ifs <;> simp [toUint256]

private theorem buffer_ne_hit : s.buffer now ≠ .error rateLimitHit := by
  simp [RateLimitedV2.buffer]

private theorem getSkimDetails_ne_hit :
    s.getSkimDetails contracts w pcvDeposit ≠ .error rateLimitHit := by
  simp [getSkimDetails, getAdjustedAmount_ne_hit]

private theorem getDripDetails_ne_hit :
    s.getDripDetails contracts now w psm pcvDeposit ≠ .error rateLimitHit := by
  simp [getDripDetails, getAdjustedAmount_ne_hit, buffer_ne_hit]

private theorem checkDripConditionInternal_ne_hit :
    s.checkDripConditionInternal contracts w psm pcvDeposit ≠ .error rateLimitHit := by
  simp only [checkDripConditionInternal, ne_eq, bind_eq_error, external_eq_error, reduceCtorEq,
    and_false, false_or, not_exists, not_and]
  intro held _
  split_ifs <;> simp

private theorem checkSkimConditionInternal_ne_hit :
    s.checkSkimConditionInternal contracts w psm ≠ .error rateLimitHit := by
  simp [checkSkimConditionInternal]

private theorem replenishBuffer_ne_hit {amount : ℕ} :
    s.replenishBuffer now amount ≠ .error rateLimitHit := by
  simp only [RateLimitedV2.replenishBuffer, ne_eq, bind_eq_error, buffer_ne_hit, false_or,
    not_exists, not_and]
  intro level _
  split_ifs <;> simp

theorem skimInternal_ne_hit :
    s.skimInternal contracts now w psm pcvDeposit ≠ .error rateLimitHit := by
  simp [skimInternal, checkSkimConditionInternal_ne_hit, getSkimDetails_ne_hit, replenishBuffer_ne_hit]

/-- The amount of a drip was bounded by the buffer, so the buffer covers its charge. -/
private theorem charge_ne_hit {details : ℕ × ℕ}
    (detailed : s.getDripDetails contracts now w psm pcvDeposit = .ok details) :
    s.depleteBuffer now details.2 ≠ .error rateLimitHit := by
  intro refused
  obtain ⟨held, available, room, -, -, buffered, -, -⟩ := getDripDetails_spec detailed
  have within := getDripDetails_le_buffer buffered detailed
  obtain ⟨readable, rfl⟩ := RateLimitedV2.buffer_eq_ok.mp buffered
  rcases RateLimitedV2.depleteBuffer_error readable refused with ⟨-, other⟩ | ⟨short, -⟩
  · simp at other
  · exact absurd short (Nat.not_lt.mpr within)

theorem dripInternal_ne_hit :
    s.dripInternal contracts now w psm pcvDeposit ≠ .error rateLimitHit := by
  intro failure
  rcases bind_eq_error.mp failure with refused | ⟨allowed, -, failure⟩
  · exact checkDripConditionInternal_ne_hit refused
  rcases bind_eq_error.mp failure with refused | ⟨_, -, failure⟩
  · simp at refused
  rcases bind_eq_error.mp failure with refused | ⟨details, detailed, failure⟩
  · exact getDripDetails_ne_hit refused
  rcases bind_eq_error.mp failure with refused | ⟨limiter, -, failure⟩
  · exact charge_ne_hit detailed refused
  · simp at failure

private theorem whenNotPaused_ne_hit : s.whenNotPaused ≠ .error rateLimitHit := by
  simp [CoreRef.whenNotPaused]

theorem skim_ne_hit : s.skim contracts now w pcvDeposit ≠ .error rateLimitHit := by
  simp [skim, whenNotPaused_ne_hit, skimInternal_ne_hit]

theorem drip_ne_hit : s.drip contracts now w pcvDeposit ≠ .error rateLimitHit := by
  simp [drip, whenNotPaused_ne_hit, dripInternal_ne_hit]

theorem doAction_ne_hit : s.doAction contracts now w pcvDeposit ≠ .error rateLimitHit := by
  intro failure
  rcases bind_eq_error.mp failure with refused | ⟨_, -, failure⟩
  · exact whenNotPaused_ne_hit refused
  rcases bind_eq_error.mp failure with refused | ⟨_, -, failure⟩
  · simp at refused
  rcases bind_eq_error.mp failure with refused | ⟨below, -, failure⟩
  · exact checkDripConditionInternal_ne_hit refused
  split_ifs at failure
  · exact dripInternal_ne_hit failure
  rcases bind_eq_error.mp failure with refused | ⟨above, -, failure⟩
  · exact checkSkimConditionInternal_ne_hit refused
  split_ifs at failure
  · exact skimInternal_ne_hit failure
  · exact pure_ne_error.mp failure

end Failure

end ERC20Allocator

end VoltProtocol
