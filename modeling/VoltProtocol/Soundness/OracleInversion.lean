import VoltProtocol.Soundness.RedemptionValue

/-! # The two prices of an oracle and its inverse

Flipping `doInvert` negates `decimalsNormalizer` in the same call, so that the contract reads the
reciprocal in the same units. The plain price scales the answer and the inverted one scales its
truncated reciprocal, and which of the two scalings divides depends on the sign of the normalizer.
Nested truncating divisions collapse into one, which makes the inverse exact when the plain side
multiplies; when it divides, each side rounds down and the product of the two stays below one.
-/

namespace VoltProtocol.OracleInversion

open RedemptionValue (scaled scale_spec)

variable {ω : Type} {oracles : Oracles ω} {o flipped : OracleRef} {ctx later : Context} {w : ω}
  {price reciprocal : D256}

/-- The price read from a valid answer of the oracle. -/
def shown (o : OracleRef) (peg : ℕ) : ℕ :=
  scaled o.decimalsNormalizer (if o.doInvert then 10 ^ 36 / peg else peg)

/-! ### Scaling one way and back -/

theorem scaled_of_nonneg {decimals : ℤ} (nonneg : 0 ≤ decimals) (value : ℕ) :
    scaled decimals value = value * 10 ^ decimals.toNat := by
  rw [scaled, if_neg (by omega)]

theorem scaled_neg_of_nonneg {decimals : ℤ} (nonneg : 0 ≤ decimals) (value : ℕ) :
    scaled (-decimals) value = value / 10 ^ decimals.toNat := by
  rw [scaled, neg_neg]
  split_ifs with negative
  · rfl
  · have zero : decimals = 0 := by omega
    subst zero
    simp

/-- The reciprocal of a scaled up answer is the scaled down reciprocal: the two truncations are one. -/
theorem scaled_reciprocal {decimals : ℤ} (nonneg : 0 ≤ decimals) (peg : ℕ) :
    scaled (-decimals) (10 ^ 36 / peg) = 10 ^ 36 / scaled decimals peg := by
  rw [scaled_neg_of_nonneg nonneg, scaled_of_nonneg nonneg, Nat.div_div_eq_div_mul]

/-- An answer and its reciprocal, scaled opposite ways, never multiply to more than one. -/
theorem scaled_mul_reciprocal_le (decimals : ℤ) (peg : ℕ) :
    scaled decimals peg * scaled (-decimals) (10 ^ 36 / peg) ≤ 10 ^ 36 := by
  rcases le_total 0 decimals with nonneg | nonpos
  · rw [scaled_reciprocal nonneg]
    exact Nat.mul_div_le ..
  · obtain ⟨opposite, rfl⟩ : ∃ opposite, decimals = -opposite := ⟨-decimals, (neg_neg decimals).symm⟩
    have nonneg : 0 ≤ opposite := by omega
    rw [neg_neg, scaled_neg_of_nonneg nonneg, scaled_of_nonneg nonneg]
    calc
      peg / 10 ^ opposite.toNat * (10 ^ 36 / peg * 10 ^ opposite.toNat)
        = peg / 10 ^ opposite.toNat * 10 ^ opposite.toNat * (10 ^ 36 / peg) := by ring
      _ ≤ peg * (10 ^ 36 / peg) := Nat.mul_le_mul_right _ (Nat.div_mul_le_self ..)
      _ ≤ 10 ^ 36 := Nat.mul_div_le ..

/-! ### What is read -/

/-- A normalizer whose power of ten fits a word can be negated. -/
theorem decimals_of_scale {peg : D256} (success : o.scale peg = .ok price) :
    -2 ^ 255 < o.decimalsNormalizer ∧ o.decimalsNormalizer < 2 ^ 255 := by
  rw [OracleRef.scale] at success
  split_ifs at success with negative
  · simp only [bind_eq_ok, int_eq_ok] at success
    obtain ⟨_, ⟨⟨-, fits⟩, rfl⟩, -⟩ := success
    omega
  · simp only [bind_eq_ok, toUint256_eq_ok, checkedPow10_eq_ok] at success
    obtain ⟨exponent, exponentIs, _, ⟨small, -⟩, -⟩ := success
    omega

/-- A price read is the one shown for the answer of the oracle. -/
theorem readOracle_shown (reading : o.readOracle oracles w = .ok price) :
    ∃ peg, o.readValid oracles w = .ok peg ∧ price.value = shown o peg.value ∧
      -2 ^ 255 < o.decimalsNormalizer ∧ o.decimalsNormalizer < 2 ^ 255 := by
  simp only [OracleRef.readOracle, bind_eq_ok] at reading
  obtain ⟨peg, answered, reading⟩ := reading
  refine ⟨peg, answered, ?_⟩
  cases inverts : o.doInvert with
  | true =>
    simp only [inverts, if_true, bind_eq_ok] at reading
    obtain ⟨inverted, inverting, scaling⟩ := reading
    obtain ⟨-, -, value⟩ := Decimal.div_eq_ok.mp inverting
    refine ⟨?_, decimals_of_scale scaling⟩
    rw [scale_spec scaling, shown, value, inverts, if_pos rfl]
    rfl
  | false =>
    simp only [inverts, Bool.false_eq_true, if_false] at reading
    refine ⟨?_, decimals_of_scale reading⟩
    rw [scale_spec reading, shown, inverts, if_neg Bool.false_ne_true]

/-! ### Setting the flag -/

/-- The contract after the flag is flipped. -/
def flip (o : OracleRef) : OracleRef :=
  { o with doInvert := !o.doInvert, decimalsNormalizer := -o.decimalsNormalizer }

@[simp] theorem flip_doInvert : (flip o).doInvert = !o.doInvert := rfl

@[simp] theorem flip_decimalsNormalizer : (flip o).decimalsNormalizer = -o.decimalsNormalizer := rfl

@[simp] theorem flip_flip : flip (flip o) = o := by
  simp [flip]

/-- A flip does not change which oracles are asked. -/
theorem readValid_flip : (flip o).readValid oracles w = o.readValid oracles w := rfl

/-- What a governor's call leaves when it changes the flag. -/
theorem setDoInvert_flip (governs : ctx.isGovernor ctx.sender = true)
    (above : -2 ^ 255 < o.decimalsNormalizer) (below : o.decimalsNormalizer < 2 ^ 255) :
    o.setDoInvert ctx (!o.doInvert) = .ok (flip o) := by
  have changed : o.doInvert ≠ !o.doInvert := by cases o.doInvert <;> decide
  simp only [OracleRef.setDoInvert, OracleRef.setDoInvertInternal, Context.onlyGovernor, bind_eq_ok,
    require_eq_ok, governs, if_pos changed, int_eq_ok, pure_eq_ok]
  refine ⟨(), trivial, -o.decimalsNormalizer, ⟨⟨by omega, by omega⟩, by ring⟩, ?_⟩
  rfl

/-- A governor's call that sets the flag to what it is changes nothing. -/
theorem setDoInvert_same (governs : ctx.isGovernor ctx.sender = true) :
    o.setDoInvert ctx o.doInvert = .ok o := by
  simp only [OracleRef.setDoInvert, OracleRef.setDoInvertInternal, Context.onlyGovernor, bind_eq_ok,
    require_eq_ok, governs, ne_eq, not_true_eq_false, if_false, pure_eq_ok]
  exact ⟨(), trivial, trivial⟩

/-! ### The pair of prices -/

/-- The two prices shown for one answer never multiply to more than one. -/
theorem shown_mul_shown_flip_le (o : OracleRef) (peg : ℕ) : shown o peg * shown (flip o) peg ≤ 10 ^ 36 := by
  rw [shown, shown, flip_decimalsNormalizer, flip_doInvert]
  cases o.doInvert with
  | false => exact scaled_mul_reciprocal_le ..
  | true =>
    have product := scaled_mul_reciprocal_le (-o.decimalsNormalizer) peg
    rw [neg_neg, Nat.mul_comm] at product
    exact product

/-- From a plain side that does not divide, the flipped contract shows the floor of the reciprocal. -/
theorem shown_flip (plain : o.doInvert = false) (nonneg : 0 ≤ o.decimalsNormalizer) (peg : ℕ) :
    shown (flip o) peg = 10 ^ 36 / shown o peg := by
  rw [shown, shown, flip_decimalsNormalizer, flip_doInvert, plain]
  exact scaled_reciprocal nonneg peg

/-- A contract that can read its price can flip the inversion, and the flipped contract reads the
reciprocal: the two prices never multiply to more than one, and the inverted one is the exact floor
of the reciprocal when the plain side has no negative normalizer. A second flip restores the
contract, and so its price, and setting the flag to its current value changes nothing. -/
theorem setDoInvert_reciprocal (oracles : Oracles ω) (o : OracleRef) (ctx later : Context) (w : ω)
    (governs : ctx.isGovernor ctx.sender = true) (governsLater : later.isGovernor later.sender = true)
    {price : D256} (reading : o.readOracle oracles w = .ok price) :
    o.setDoInvert ctx o.doInvert = .ok o ∧
    ∃ flipped, o.setDoInvert ctx (!o.doInvert) = .ok flipped ∧ flipped.doInvert = !o.doInvert ∧
      flipped.decimalsNormalizer = -o.decimalsNormalizer ∧
      flipped.setDoInvert later o.doInvert = .ok o ∧
      ∀ reciprocal, flipped.readOracle oracles w = .ok reciprocal →
        price.value * reciprocal.value ≤ 10 ^ 36 ∧
        (o.doInvert = false → 0 ≤ o.decimalsNormalizer →
          reciprocal.value = 10 ^ 36 / price.value) ∧
        (o.doInvert = true → 0 ≤ flipped.decimalsNormalizer →
          price.value = 10 ^ 36 / reciprocal.value) := by
  obtain ⟨peg, answered, value, above, below⟩ := readOracle_shown reading
  refine ⟨setDoInvert_same governs, flip o, setDoInvert_flip governs above below, rfl, rfl, ?_, ?_⟩
  · have again := setDoInvert_flip (o := flip o) governsLater
      (by rw [flip_decimalsNormalizer]; omega) (by rw [flip_decimalsNormalizer]; omega)
    rw [flip_doInvert, Bool.not_not, flip_flip] at again
    exact again
  · intro reciprocal readingFlipped
    obtain ⟨same, answeredFlipped, valueFlipped, -⟩ := readOracle_shown readingFlipped
    rw [readValid_flip, answered] at answeredFlipped
    obtain rfl := Except.ok.inj answeredFlipped
    rw [value, valueFlipped]
    refine ⟨shown_mul_shown_flip_le o _, ?_, ?_⟩
    · intro plain nonneg
      exact shown_flip plain nonneg _
    · intro inverts nonneg
      have plain : (flip o).doInvert = false := by rw [flip_doInvert, inverts, Bool.not_true]
      have inverse := shown_flip plain nonneg peg.value
      rw [flip_flip] at inverse
      exact inverse

/-- At an answer of 0.3 for a token with 6 decimals, the plain price is 0.3 shifted by 12 places and
the inverted one a truncated third. -/
theorem setDoInvert_reciprocal_third :
    let oracles : Oracles Unit := ⟨fun _ _ => some (⟨3 * 10 ^ 17⟩, true), fun w _ => some w⟩
    let o : OracleRef := ⟨1, 0, 12, false⟩
    o.readOracle oracles () = .ok ⟨3 * 10 ^ 29⟩ ∧
    ∃ flipped, o.setDoInvert (.withRoles 7 [.governor]) true = .ok flipped ∧
      flipped.readOracle oracles () = .ok ⟨3333333⟩ ∧ 3333333 = 10 ^ 36 / (3 * 10 ^ 29) ∧
      flipped.setDoInvert (.withRoles 8 [.governor]) false = .ok o := by
  intro oracles o
  have reading : o.readOracle oracles () = .ok ⟨3 * 10 ^ 29⟩ := by decide +kernel
  obtain ⟨-, flipped, flipping, -, -, back, pair⟩ :=
    setDoInvert_reciprocal oracles o (.withRoles 7 [.governor]) (.withRoles 8 [.governor]) ()
      (by decide) (by decide) reading
  have same : flipped = ⟨1, 0, -12, true⟩ := by
    have run : o.setDoInvert (.withRoles 7 [.governor]) true = .ok ⟨1, 0, -12, true⟩ := by decide +kernel
    exact Except.ok.inj (flipping.symm.trans run)
  have inverted : flipped.readOracle oracles () = .ok ⟨3333333⟩ := by
    rw [same]
    decide +kernel
  obtain ⟨-, floor, -⟩ := pair _ inverted
  exact ⟨reading, flipped, flipping, inverted, floor rfl (by decide), back⟩

end VoltProtocol.OracleInversion
