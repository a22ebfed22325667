import VoltProtocol.Model.CoreRef

/-! # Fixed-point prices and the oracle a contract reads

`Decimal` numbers carry 18 decimal places; each operation is one or two checked steps, so every
rounding is a truncating division that can be read off. `OracleRef` reads its oracle, or a backup
when the oracle calls its own answer invalid, inverts the answer if asked to, and scales it by a
power of ten.
-/

namespace VoltProtocol

/-- `Decimal.D256`, a number of units of `10 ** -18`. -/
structure D256 where
  value : ℕ
deriving DecidableEq, Repr

namespace Decimal

def BASE : ℕ := 10 ^ 18

def one : D256 := ⟨BASE⟩

/-- `Decimal.from` -/
def fromUint256 (a : ℕ) : Except Revert D256 := D256.mk <$> uint 256 (a * BASE)

def getPartial (target numerator denominator : ℕ) : Except Revert ℕ := do
  let product ← uint 256 (target * numerator)
  checkedDiv product denominator

def ratio (a b : ℕ) : Except Revert D256 := D256.mk <$> getPartial a BASE b

/-- `mul` by a `uint256` -/
def mulUint256 (self : D256) (b : ℕ) : Except Revert D256 := D256.mk <$> uint 256 (self.value * b)

/-- `div` by a `uint256` -/
def divUint256 (self : D256) (b : ℕ) : Except Revert D256 := D256.mk <$> checkedDiv self.value b

/-- `div` by another decimal -/
def div (self b : D256) : Except Revert D256 := D256.mk <$> getPartial self.value BASE b.value

def asUint256 (self : D256) : Except Revert ℕ := checkedDiv self.value BASE

def compareTo (a b : D256) : ℕ := if a.value = b.value then 1 else if a.value > b.value then 2 else 0

def greaterThan (self b : D256) : Bool := compareTo self b == 2

def lessThan (self b : D256) : Bool := compareTo self b == 0

section Success

variable {self b result : D256} {a n out : ℕ}

theorem fromUint256_eq_ok : fromUint256 a = .ok result ↔ a * BASE < 2 ^ 256 ∧ result.value = a * BASE := by
  simp only [fromUint256, map_eq_ok, uint_eq_ok]
  constructor
  · rintro ⟨_, ⟨fits, rfl⟩, rfl⟩
    exact ⟨fits, rfl⟩
  · rintro ⟨fits, same⟩
    exact ⟨_, ⟨fits, rfl⟩, by rw [← same]⟩

theorem mulUint256_eq_ok : mulUint256 self n = .ok result ↔
    self.value * n < 2 ^ 256 ∧ result.value = self.value * n := by
  simp only [mulUint256, map_eq_ok, uint_eq_ok]
  constructor
  · rintro ⟨_, ⟨fits, rfl⟩, rfl⟩
    exact ⟨fits, rfl⟩
  · rintro ⟨fits, same⟩
    exact ⟨_, ⟨fits, rfl⟩, by rw [← same]⟩

theorem divUint256_eq_ok : divUint256 self n = .ok result ↔ n ≠ 0 ∧ result.value = self.value / n := by
  simp only [divUint256, map_eq_ok, checkedDiv_eq_ok]
  constructor
  · rintro ⟨_, ⟨nonzero, rfl⟩, rfl⟩
    exact ⟨nonzero, rfl⟩
  · rintro ⟨nonzero, same⟩
    exact ⟨_, ⟨nonzero, rfl⟩, by rw [← same]⟩

theorem div_eq_ok : div self b = .ok result ↔
    self.value * BASE < 2 ^ 256 ∧ b.value ≠ 0 ∧ result.value = self.value * BASE / b.value := by
  simp only [div, getPartial, map_eq_ok, bind_eq_ok, uint_eq_ok, checkedDiv_eq_ok]
  constructor
  · rintro ⟨_, ⟨_, ⟨fits, rfl⟩, nonzero, rfl⟩, rfl⟩
    exact ⟨fits, nonzero, rfl⟩
  · rintro ⟨fits, nonzero, same⟩
    exact ⟨_, ⟨_, ⟨fits, rfl⟩, nonzero, rfl⟩, by rw [← same]⟩

theorem ratio_eq_ok {d : ℕ} : ratio a d = .ok result ↔
    a * BASE < 2 ^ 256 ∧ d ≠ 0 ∧ result.value = a * BASE / d := by
  simp only [ratio, getPartial, map_eq_ok, bind_eq_ok, uint_eq_ok, checkedDiv_eq_ok]
  constructor
  · rintro ⟨_, ⟨_, ⟨fits, rfl⟩, nonzero, rfl⟩, rfl⟩
    exact ⟨fits, nonzero, rfl⟩
  · rintro ⟨fits, nonzero, same⟩
    exact ⟨_, ⟨_, ⟨fits, rfl⟩, nonzero, rfl⟩, by rw [← same]⟩

theorem asUint256_eq_ok : asUint256 self = .ok out ↔ out = self.value / BASE := by
  rw [asUint256, checkedDiv_eq_ok]
  exact and_iff_right (by decide)

theorem greaterThan_eq_true : greaterThan self b = true ↔ b.value < self.value := by
  simp only [greaterThan, compareTo, beq_iff_eq]
  constructor
  · intro answer
    split_ifs at answer <;> omega
  · intro order
    rw [if_neg order.ne', if_pos order]

theorem lessThan_eq_true : lessThan self b = true ↔ self.value < b.value := by
  simp only [lessThan, compareTo, beq_iff_eq]
  constructor
  · intro answer
    split_ifs at answer
    omega
  · intro order
    rw [if_neg order.ne, if_neg (Nat.lt_asymm order)]

end Success

end Decimal

/-- The oracles a contract may point to. `read` returns a price and whether it is valid. -/
structure Oracles (ω : Type) where
  read : ω → Address → Option (D256 × Bool)
  update : ω → Address → Option ω

/-- The storage of OracleRef. -/
structure OracleRef where
  oracle : Address
  backupOracle : Address
  decimalsNormalizer : ℤ
  doInvert : Bool
deriving DecidableEq, Repr

namespace OracleRef

variable {ω : Type} (oracles : Oracles ω) (o : OracleRef)

def invert (price : D256) : Except Revert D256 := Decimal.div Decimal.one price

def updateOracle (w : ω) : Except Revert ω := external (oracles.update w o.oracle)

/-- The scaling at the end of `readOracle`. -/
def scale (peg : D256) : Except Revert D256 := do
  if o.decimalsNormalizer < 0 then
    let negated ← int 256 (-1 * o.decimalsNormalizer)
    let scalingFactor ← checkedPow10 (← toUint256 negated)
    Decimal.divUint256 peg scalingFactor
  else
    let scalingFactor ← checkedPow10 (← toUint256 o.decimalsNormalizer)
    Decimal.mulUint256 peg scalingFactor

/-- The answer of the oracle, or of the backup when there is one and the oracle's is invalid. -/
def readValid (w : ω) : Except Revert D256 := do
  let (peg, valid) ← external (oracles.read w o.oracle)
  if !valid && o.backupOracle != 0 then
    let (backupPeg, backupValid) ← external (oracles.read w o.backupOracle)
    require backupValid "OracleRef: oracle invalid"
    return backupPeg
  else
    require valid "OracleRef: oracle invalid"
    return peg

def readOracle (w : ω) : Except Revert D256 := do
  let peg ← o.readValid oracles w
  if o.doInvert then
    let inverted ← invert peg
    o.scale inverted
  else
    o.scale peg

/-- `_setOracle` -/
def setOracleInternal (newOracle : Address) : Except Revert OracleRef := do
  require (newOracle ≠ 0) "OracleRef: zero address"
  return { o with oracle := newOracle }

/-- `_setBackupOracle` -/
def setBackupOracleInternal (newBackupOracle : Address) : OracleRef :=
  { o with backupOracle := newBackupOracle }

/-- `_setDecimalsNormalizer` -/
def setDecimalsNormalizerInternal (newDecimalsNormalizer : ℤ) : OracleRef :=
  { o with decimalsNormalizer := newDecimalsNormalizer }

/-- `_setDoInvert` -/
def setDoInvertInternal (newDoInvert : Bool) : Except Revert OracleRef := do
  let flipped := { o with doInvert := newDoInvert }
  if o.doInvert ≠ newDoInvert then
    let negated ← int 256 (-1 * o.decimalsNormalizer)
    return flipped.setDecimalsNormalizerInternal negated
  else
    return flipped

def setOracle (ctx : Context) (newOracle : Address) : Except Revert OracleRef := do
  ctx.onlyGovernor
  o.setOracleInternal newOracle

def setDoInvert (ctx : Context) (newDoInvert : Bool) : Except Revert OracleRef := do
  ctx.onlyGovernor
  o.setDoInvertInternal newDoInvert

def setDecimalsNormalizer (ctx : Context) (newDecimalsNormalizer : ℤ) : Except Revert OracleRef := do
  ctx.onlyGovernor
  return o.setDecimalsNormalizerInternal newDecimalsNormalizer

def setBackupOracle (c : CoreRef) (ctx : Context) (newBackupOracle : Address) : Except Revert OracleRef := do
  c.onlyGovernorOrAdmin ctx
  return o.setBackupOracleInternal newBackupOracle

/-- The constructor, on zero storage. -/
def deploy (oracle backupOracle : Address) (decimalsNormalizer : ℤ) (doInvert : Bool) :
    Except Revert OracleRef := do
  let blank : OracleRef := ⟨0, 0, 0, false⟩
  let pointed ← blank.setOracleInternal oracle
  let backed := if backupOracle ≠ 0 ∧ backupOracle ≠ oracle
    then pointed.setBackupOracleInternal backupOracle else pointed
  let inverted ← backed.setDoInvertInternal doInvert
  return inverted.setDecimalsNormalizerInternal decimalsNormalizer

end OracleRef

end VoltProtocol
