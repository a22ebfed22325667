import Mathlib.Data.Fintype.Basic
import Mathlib.Tactic

/-! # Solidity values, checked arithmetic and reverts

A call either returns or reverts, and a revert undoes everything the call did: this is `Except
Revert`. Values of type `uint256` are natural numbers and `int256` values are integers; every
arithmetic step that the compiler checks sends its result through `uint 256` or `int 256`.
Narrower storage fields and arguments have the bounded types `Uint w` and `SInt w`, which only
the checked casts can produce.
-/

namespace VoltProtocol

/-- Why a call reverts: a failed `require` with its text, a compiler check (overflow or division by
zero), or a called contract that reverted. -/
inductive Revert where
  | message (text : String)
  | panic
  | callee
deriving DecidableEq, Repr

/-- An account or contract address; `0` is the zero address. -/
abbrev Address := Fin (2 ^ 160)

/-- What the numerals of an address rest on. -/
instance addressNumerals : NeZero (2 ^ 160) := ⟨by decide⟩

/-- An unsigned integer of `w` bits. -/
abbrev Uint (w : ℕ) := Fin (2 ^ w)

/-- An implicit conversion to a wider type. -/
def Uint.widen {v w : ℕ} (wider : v ≤ w) (value : Uint v) : Uint w :=
  Fin.castLE (Nat.pow_le_pow_right (by norm_num) wider) value

theorem Uint.val_widen {v w : ℕ} (wider : v ≤ w) (value : Uint v) : (value.widen wider).val = value.val := rfl

/-- A two's complement integer of `w` bits. -/
abbrev SInt (w : ℕ) := {value : ℤ // -2 ^ (w - 1) ≤ value ∧ value < 2 ^ (w - 1)}

/-- `type(uint256).max` -/
def uint256Max : ℕ := 2 ^ 256 - 1

/-- `require(condition, text)` -/
def require (condition : Prop) [Decidable condition] (text : String) : Except Revert Unit :=
  if condition then .ok () else .error (.message text)

/-- The answer of another contract, whose own revert reverts the caller. -/
def external {α : Type*} : Option α → Except Revert α
  | some answer => .ok answer
  | none => .error .callee

/-- A checked result of type `uintw`. -/
def uint (w value : ℕ) : Except Revert ℕ :=
  if value < 2 ^ w then .ok value else .error .panic

/-- A checked result of type `intw`. -/
def int (w : ℕ) (value : ℤ) : Except Revert ℤ :=
  if -2 ^ (w - 1) ≤ value ∧ value < 2 ^ (w - 1) then .ok value else .error .panic

/-- Checked unsigned subtraction, of any width. -/
def checkedSub (a b : ℕ) : Except Revert ℕ :=
  if b ≤ a then .ok (a - b) else .error .panic

/-- Unsigned division, of any width. -/
def checkedDiv (a b : ℕ) : Except Revert ℕ :=
  if b = 0 then .error .panic else .ok (a / b)

/-- `10 ** exponent` in `uint256`: `10 ** 77` is the largest power of ten that fits. -/
def checkedPow10 (exponent : ℕ) : Except Revert ℕ :=
  if exponent ≤ 77 then .ok (10 ^ exponent) else .error .panic

/-! ### SafeCast -/

/-- A cast to `w` bits that reverts with a text of its own. -/
def safeCast (w : ℕ) (text : String) (value : ℕ) : Except Revert (Uint w) :=
  if fits : value < 2 ^ w then .ok ⟨value, fits⟩ else .error (.message text)

/-- `SafeCast.toUint32` -/
def toUint32 : ℕ → Except Revert (Uint 32) :=
  safeCast 32 "SafeCast: value doesn't fit in 32 bits"

/-- `SafeCast.toUint224` -/
def toUint224 : ℕ → Except Revert (Uint 224) :=
  safeCast 224 "SafeCast: value doesn't fit in 224 bits"

/-- `SafeCast.toInt256` -/
def toInt256 (value : ℕ) : Except Revert ℤ := do
  require (value < 2 ^ 255) "SafeCast: value doesn't fit in an int256"
  return value

/-- `SafeCast.toUint256` -/
def toUint256 (value : ℤ) : Except Revert ℕ := do
  require (0 ≤ value) "SafeCast: value must be positive"
  return value.toNat

/-! ### Block and signatures -/

/-- The block a call executes in. -/
structure Block where
  number : ℕ
  timestamp : ℕ
  chainid : ℕ
deriving DecidableEq, Repr

/-- The hash functions and signature recovery of the EVM. `keccakWords` hashes the ABI encoding of
a list of words, and `keccakTypedData` the EIP-712 prefix with a domain separator and a struct
hash. -/
structure Crypto where
  keccakText : String → ℕ
  keccakWords : List ℕ → ℕ
  keccakTypedData : ℕ → ℕ → ℕ
  ecrecover : (digest v r s : ℕ) → Address

/-! ### What a success says -/

section Success

universe u

variable {α β : Type u}

theorem ok_bind (a : α) (f : α → Except Revert β) : (.ok a : Except Revert α) >>= f = f a := rfl

@[simp] theorem bind_eq_ok {x : Except Revert α} {f : α → Except Revert β} {b : β} :
    x >>= f = .ok b ↔ ∃ a, x = .ok a ∧ f a = .ok b := by
  cases x <;> simp [bind, Except.bind]

@[simp] theorem pure_eq_ok {a b : α} : (pure a : Except Revert α) = .ok b ↔ a = b := by
  simp [pure, Except.pure]

@[simp] theorem map_eq_ok {x : Except Revert α} {f : α → β} {b : β} :
    f <$> x = .ok b ↔ ∃ a, x = .ok a ∧ f a = b := by
  cases x <;> simp [Functor.map, Except.map]

theorem require_of {condition : Prop} [Decidable condition] (holds : condition) (text : String) :
    require condition text = .ok () := if_pos holds

@[simp] theorem require_eq_ok {condition : Prop} [Decidable condition] {text : String} {u : Unit} :
    require condition text = .ok u ↔ condition := by
  simp only [require]
  split <;> simp_all

/-- A check and what comes after it. -/
theorem require_bind_eq_ok {γ : Type} {condition : Prop} [Decidable condition] {text : String}
    {f : Unit → Except Revert γ} {c : γ} : require condition text >>= f = .ok c ↔ condition ∧ f () = .ok c := by
  by_cases holds : condition
  · rw [require, if_pos holds, ok_bind]
    exact (and_iff_right holds).symm
  · rw [require, if_neg holds]
    exact iff_of_false (fun failed => by cases failed) fun both => holds both.1

theorem external_some (answer : α) : external (some answer) = .ok answer := rfl

@[simp] theorem external_eq_ok {answer : Option α} {a : α} :
    external answer = .ok a ↔ answer = some a := by
  cases answer <;> simp [external]

@[simp] theorem uint_eq_ok {w value result : ℕ} :
    uint w value = .ok result ↔ value < 2 ^ w ∧ result = value := by
  simp only [uint]
  split <;> simp_all [eq_comm]

@[simp] theorem int_eq_ok {w : ℕ} {value result : ℤ} :
    int w value = .ok result ↔ (-2 ^ (w - 1) ≤ value ∧ value < 2 ^ (w - 1)) ∧ result = value := by
  simp only [int]
  split <;> simp_all [eq_comm]

@[simp] theorem checkedSub_eq_ok {a b result : ℕ} :
    checkedSub a b = .ok result ↔ b ≤ a ∧ result = a - b := by
  simp only [checkedSub]
  split <;> simp_all [eq_comm]

@[simp] theorem checkedDiv_eq_ok {a b result : ℕ} :
    checkedDiv a b = .ok result ↔ b ≠ 0 ∧ result = a / b := by
  simp only [checkedDiv]
  split <;> simp_all [eq_comm]

@[simp] theorem checkedPow10_eq_ok {exponent result : ℕ} :
    checkedPow10 exponent = .ok result ↔ exponent ≤ 77 ∧ result = 10 ^ exponent := by
  simp only [checkedPow10]
  split <;> simp_all [eq_comm]

theorem safeCast_eq_ok {w value : ℕ} {text : String} {result : Uint w} :
    safeCast w text value = .ok result ↔ result.val = value := by
  simp only [safeCast]
  split
  · simp [Fin.ext_iff, eq_comm]
  · rename_i large
    simp only [reduceCtorEq, false_iff]
    rintro rfl
    exact large result.isLt

@[simp] theorem toUint32_eq_ok {value : ℕ} {result : Uint 32} :
    toUint32 value = .ok result ↔ result.val = value := safeCast_eq_ok

@[simp] theorem toUint224_eq_ok {value : ℕ} {result : Uint 224} :
    toUint224 value = .ok result ↔ result.val = value := safeCast_eq_ok

@[simp] theorem toInt256_eq_ok {value : ℕ} {result : ℤ} :
    toInt256 value = .ok result ↔ value < 2 ^ 255 ∧ result = value := by
  simp only [toInt256, bind_eq_ok, require_eq_ok, pure_eq_ok]
  constructor
  · rintro ⟨_, fits, rfl⟩
    exact ⟨fits, rfl⟩
  · rintro ⟨fits, rfl⟩
    exact ⟨(), fits, rfl⟩

@[simp] theorem toUint256_eq_ok {value : ℤ} {result : ℕ} :
    toUint256 value = .ok result ↔ (result : ℤ) = value := by
  simp only [toUint256, bind_eq_ok, require_eq_ok, pure_eq_ok]
  constructor
  · rintro ⟨_, positive, rfl⟩
    exact Int.toNat_of_nonneg positive
  · rintro rfl
    exact ⟨(), Int.natCast_nonneg result, Int.toNat_natCast result⟩

end Success

/-! ### What a failure says -/

section Failure

universe u

variable {α β : Type u} {reason : Revert}

@[simp] theorem bind_eq_error {x : Except Revert α} {f : α → Except Revert β} :
    x >>= f = .error reason ↔ x = .error reason ∨ ∃ a, x = .ok a ∧ f a = .error reason := by
  cases x <;> simp [bind, Except.bind]

@[simp] theorem pure_ne_error {a : α} : (pure a : Except Revert α) = .error reason ↔ False := by
  simp [pure, Except.pure]

@[simp] theorem map_eq_error {x : Except Revert α} {f : α → β} :
    f <$> x = .error reason ↔ x = .error reason := by
  cases x <;> simp [Functor.map, Except.map]

@[simp] theorem require_eq_error {condition : Prop} [Decidable condition] {text : String} :
    require condition text = .error reason ↔ ¬ condition ∧ reason = .message text := by
  simp only [require]
  split <;> simp_all [eq_comm]

@[simp] theorem external_eq_error {answer : Option α} :
    external answer = .error reason ↔ answer = none ∧ reason = .callee := by
  cases answer <;> simp [external, eq_comm]

@[simp] theorem uint_eq_error {w value : ℕ} :
    uint w value = .error reason ↔ 2 ^ w ≤ value ∧ reason = .panic := by
  simp only [uint]
  split <;> simp_all [eq_comm]

@[simp] theorem int_eq_error {w : ℕ} {value : ℤ} : int w value = .error reason ↔
    ¬ (-2 ^ (w - 1) ≤ value ∧ value < 2 ^ (w - 1)) ∧ reason = .panic := by
  simp only [int]
  split <;> simp_all [eq_comm]

@[simp] theorem checkedSub_eq_error {a b : ℕ} :
    checkedSub a b = .error reason ↔ a < b ∧ reason = .panic := by
  simp only [checkedSub]
  split <;> simp_all [eq_comm]

@[simp] theorem checkedDiv_eq_error {a b : ℕ} :
    checkedDiv a b = .error reason ↔ b = 0 ∧ reason = .panic := by
  simp only [checkedDiv]
  split <;> simp_all [eq_comm]

@[simp] theorem checkedPow10_eq_error {exponent : ℕ} :
    checkedPow10 exponent = .error reason ↔ 77 < exponent ∧ reason = .panic := by
  simp only [checkedPow10]
  split <;> simp_all [eq_comm]

theorem safeCast_eq_error {w value : ℕ} {text : String} :
    safeCast w text value = .error reason ↔ 2 ^ w ≤ value ∧ reason = .message text := by
  simp only [safeCast]
  split <;> simp_all [eq_comm]

@[simp] theorem toUint32_eq_error {value : ℕ} : toUint32 value = .error reason ↔
    2 ^ 32 ≤ value ∧ reason = .message "SafeCast: value doesn't fit in 32 bits" := safeCast_eq_error

@[simp] theorem toUint224_eq_error {value : ℕ} : toUint224 value = .error reason ↔
    2 ^ 224 ≤ value ∧ reason = .message "SafeCast: value doesn't fit in 224 bits" := safeCast_eq_error

end Failure

/-- A call that did not fail returned something. -/
theorem toOption_eq_some {ε α : Type*} {x : Except ε α} {a : α} : x.toOption = some a ↔ x = .ok a := by
  cases x <;> simp [Except.toOption]

theorem exists_of_isOk {ε α : Type*} {x : Except ε α} (ok : x.isOk = true) : ∃ a, x = .ok a := by
  cases x with
  | ok a => exact ⟨a, rfl⟩
  | error reason => cases ok

end VoltProtocol
