import VoltProtocol.Model.PegStabilityModule

/-! # The two ways a PSM compares its reserves with their threshold

`hasSurplus` compares two unsigned numbers, while `deposit` and `allocateSurplus` subtract them as
signed ones and so revert when either does not fit an `int256`. The setter accepts any threshold above
zero, among them the largest one, which is used for reserves that are never to be allocated. Within
the signed range the two ways agree, and a deposit settles: a second one changes nothing.
-/

namespace VoltProtocol.SurplusTests

open PegStabilityModule

variable {ω : Type} {contracts : Contracts ω} {psm : PegStabilityModule} {held : ω → Address → ℕ} {w u : ω}
  {b : PriceBound}

/-- The underlying token tells the PSM its balance and moves exactly what the PSM sends to its surplus
target: `held` is the table of balances in a world. -/
structure ExactUnderlying (contracts : Contracts ω) (psm : PegStabilityModule) (held : ω → Address → ℕ) :
    Prop where
  balanceOf (w : ω) : contracts.balanceOf w psm.underlyingToken psm.self = some (held w psm.self)
  transfer {w : ω} {amount : ℕ} (covered : amount ≤ held w psm.self) :
    ∃ u, contracts.transfer w psm.underlyingToken psm.self psm.surplusTarget amount = some u ∧
      held u = Ledger.move (held w) psm.self psm.surplusTarget amount

/-- What the surplus functions of a PSM promise together in a world. -/
structure Agree (contracts : Contracts ω) (psm : PegStabilityModule) (held : ω → Address → ℕ) (w : ω) :
    Prop where
  above (surplus : psm.hasSurplus contracts w = .ok true) :
    ∃ u, psm.allocateSurplus contracts w = .ok u ∧ psm.deposit contracts w = .ok u ∧
      held u = Ledger.move (held w) psm.self psm.surplusTarget (held w psm.self - psm.reservesThreshold) ∧
      held u psm.self = psm.reservesThreshold
  below (noSurplus : psm.hasSurplus contracts w = .ok false) :
    psm.deposit contracts w = .ok w ∧ ∃ reason, psm.allocateSurplus contracts w = .error reason
  settled (u : ω) (called : psm.allocateSurplus contracts w = .ok u ∨ psm.deposit contracts w = .ok u) :
    psm.deposit contracts u = .ok u

/-! ### The functions one by one -/

theorem balance_eq_ok (exact : ExactUnderlying contracts psm held) {amount : ℕ} :
    psm.balance contracts w = .ok amount ↔ amount = held w psm.self := by
  rw [PegStabilityModule.balance, external_eq_ok, exact.balanceOf, Option.some.injEq, eq_comm]

theorem hasSurplus_eq_ok (exact : ExactUnderlying contracts psm held) {answer : Bool} :
    psm.hasSurplus contracts w = .ok answer ↔ answer = decide (psm.reservesThreshold < held w psm.self) := by
  simp only [hasSurplus, bind_eq_ok, balance_eq_ok exact, exists_eq_left, pure_eq_ok, gt_iff_lt]
  exact eq_comm

/-- The signed surplus, which only numbers of 255 bits have. -/
theorem reservesSurplus_eq_ok (exact : ExactUnderlying contracts psm held) {surplus : ℤ} :
    psm.reservesSurplus contracts w = .ok surplus ↔
      held w psm.self < 2 ^ 255 ∧ psm.reservesThreshold < 2 ^ 255 ∧
        surplus = held w psm.self - psm.reservesThreshold := by
  simp only [reservesSurplus, bind_eq_ok, balance_eq_ok exact, exists_eq_left, toInt256_eq_ok, int_eq_ok]
  constructor
  · rintro ⟨_, ⟨fits, rfl⟩, _, ⟨threshold, rfl⟩, -, rfl⟩
    exact ⟨fits, threshold, rfl⟩
  · rintro ⟨fits, threshold, rfl⟩
    exact ⟨_, ⟨fits, rfl⟩, _, ⟨threshold, rfl⟩, by omega, rfl⟩

/-- A PriceBoundPSM that sends what it has to its target sends exactly that. -/
theorem allocate_spec (exact : ExactUnderlying contracts psm held) (bounded : psm.priceBound = some b)
    {amount : ℕ} (covered : amount ≤ held w psm.self) :
    ∃ u, psm.allocate contracts w amount = .ok u ∧
      held u = Ledger.move (held w) psm.self psm.surplusTarget amount := by
  obtain ⟨u, sent, moved⟩ := exact.transfer covered
  refine ⟨u, ?_, moved⟩
  simp only [allocate, bounded, bind_eq_ok, external_eq_ok]
  exact ⟨u, sent, rfl⟩

/-- Above the threshold, both calls send the surplus to the target. -/
theorem allocated_of_above (exact : ExactUnderlying contracts psm held) (bounded : psm.priceBound = some b)
    (fits : held w psm.self < 2 ^ 255) (above : psm.reservesThreshold < held w psm.self) :
    ∃ u, psm.allocateSurplus contracts w = .ok u ∧ psm.deposit contracts w = .ok u ∧
      held u = Ledger.move (held w) psm.self psm.surplusTarget (held w psm.self - psm.reservesThreshold) := by
  obtain ⟨u, allocating, moved⟩ :=
    allocate_spec exact bounded (Nat.sub_le (held w psm.self) psm.reservesThreshold)
  have surplus : psm.reservesSurplus contracts w = .ok ((held w psm.self : ℤ) - psm.reservesThreshold) :=
    (reservesSurplus_eq_ok exact).mpr ⟨fits, by omega, rfl⟩
  have positive : (held w psm.self : ℤ) - psm.reservesThreshold > 0 := by omega
  have unsigned : toUint256 ((held w psm.self : ℤ) - psm.reservesThreshold) =
      .ok (held w psm.self - psm.reservesThreshold) := toUint256_eq_ok.mpr (by omega)
  refine ⟨u, ?_, ?_, moved⟩
  · simp only [allocateSurplus, bind_eq_ok, require_eq_ok]
    exact ⟨_, surplus, (), positive, _, unsigned, allocating⟩
  · simp only [deposit, bind_eq_ok]
    refine ⟨_, surplus, ?_⟩
    simp only [if_pos positive, bind_eq_ok]
    exact ⟨_, unsigned, allocating⟩

/-- At or below the threshold, a deposit does nothing. -/
theorem deposit_of_not_above (exact : ExactUnderlying contracts psm held) (fits : held w psm.self < 2 ^ 255)
    (threshold : psm.reservesThreshold < 2 ^ 255) (notAbove : held w psm.self ≤ psm.reservesThreshold) :
    psm.deposit contracts w = .ok w := by
  simp only [deposit, bind_eq_ok]
  refine ⟨_, (reservesSurplus_eq_ok exact).mpr ⟨fits, threshold, rfl⟩, ?_⟩
  have nothing : ¬ (held w psm.self : ℤ) - psm.reservesThreshold > 0 := by omega
  rw [if_neg nothing]
  rfl

/-- An allocation that does not revert found numbers of 255 bits and a surplus. -/
theorem allocateSurplus_spec (exact : ExactUnderlying contracts psm held)
    (success : psm.allocateSurplus contracts w = .ok u) :
    held w psm.self < 2 ^ 255 ∧ psm.reservesThreshold < 2 ^ 255 ∧ psm.reservesThreshold < held w psm.self := by
  simp only [allocateSurplus, bind_eq_ok, require_eq_ok] at success
  obtain ⟨surplus, computed, _, positive, -⟩ := success
  obtain ⟨fits, threshold, rfl⟩ := (reservesSurplus_eq_ok exact).mp computed
  exact ⟨fits, threshold, by omega⟩

/-- A deposit that does not revert found numbers of 255 bits. -/
theorem deposit_spec (exact : ExactUnderlying contracts psm held) (success : psm.deposit contracts w = .ok u) :
    held w psm.self < 2 ^ 255 ∧ psm.reservesThreshold < 2 ^ 255 := by
  simp only [deposit, bind_eq_ok] at success
  obtain ⟨surplus, computed, -⟩ := success
  obtain ⟨fits, threshold, -⟩ := (reservesSurplus_eq_ok exact).mp computed
  exact ⟨fits, threshold⟩

/-! ### Agreement -/

/-- What either call leaves behind is settled: another deposit does nothing. -/
theorem deposit_settled (exact : ExactUnderlying contracts psm held) (bounded : psm.priceBound = some b)
    (different : psm.surplusTarget ≠ psm.self)
    (called : psm.allocateSurplus contracts w = .ok u ∨ psm.deposit contracts w = .ok u) :
    psm.deposit contracts u = .ok u := by
  have signed : held w psm.self < 2 ^ 255 ∧ psm.reservesThreshold < 2 ^ 255 := by
    rcases called with allocating | depositing
    · obtain ⟨fits, threshold, -⟩ := allocateSurplus_spec exact allocating
      exact ⟨fits, threshold⟩
    · exact deposit_spec exact depositing
  obtain ⟨fits, threshold⟩ := signed
  rcases lt_or_ge psm.reservesThreshold (held w psm.self) with above | notAbove
  · -- both calls end in the world in which the reserves are at the threshold
    obtain ⟨v, allocated, deposited, moved⟩ := allocated_of_above exact bounded fits above
    have same : u = v := by
      rcases called with allocating | depositing
      · exact Except.ok.inj (allocating.symm.trans allocated)
      · exact Except.ok.inj (depositing.symm.trans deposited)
    subst same
    have left : held u psm.self = held w psm.self - (held w psm.self - psm.reservesThreshold) := by
      rw [moved, Ledger.move_source different.symm]
    exact deposit_of_not_above exact (by omega) threshold (by omega)
  · have still := deposit_of_not_above exact fits threshold notAbove
    rcases called with allocating | depositing
    · obtain ⟨-, -, above⟩ := allocateSurplus_spec exact allocating
      omega
    · obtain rfl := Except.ok.inj (depositing.symm.trans still)
      exact still

/-- The surplus functions of a PriceBoundPSM agree exactly when its balance and its threshold both fit a
signed word. -/
theorem agree_iff (exact : ExactUnderlying contracts psm held) (bounded : psm.priceBound = some b)
    (different : psm.surplusTarget ≠ psm.self) (w : ω) :
    Agree contracts psm held w ↔ held w psm.self < 2 ^ 255 ∧ psm.reservesThreshold < 2 ^ 255 := by
  constructor
  · intro agree
    -- whatever `hasSurplus` answers, `deposit` is promised to go through
    cases answer : decide (psm.reservesThreshold < held w psm.self) with
    | true =>
      obtain ⟨u, -, depositing, -⟩ := agree.above ((hasSurplus_eq_ok exact).mpr answer.symm)
      exact deposit_spec exact depositing
    | false =>
      obtain ⟨depositing, -⟩ := agree.below ((hasSurplus_eq_ok exact).mpr answer.symm)
      exact deposit_spec exact depositing
  · rintro ⟨fits, threshold⟩
    refine ⟨?_, ?_, fun u called => deposit_settled exact bounded different called⟩
    · intro surplus
      have above : psm.reservesThreshold < held w psm.self :=
        of_decide_eq_true ((hasSurplus_eq_ok exact).mp surplus).symm
      obtain ⟨u, allocating, depositing, moved⟩ := allocated_of_above exact bounded fits above
      refine ⟨u, allocating, depositing, moved, ?_⟩
      rw [moved, Ledger.move_source different.symm]
      omega
    · intro noSurplus
      have notAbove : ¬ psm.reservesThreshold < held w psm.self :=
        of_decide_eq_false ((hasSurplus_eq_ok exact).mp noSurplus).symm
      refine ⟨deposit_of_not_above exact fits threshold (by omega), ?_⟩
      cases allocating : psm.allocateSurplus contracts w with
      | ok u =>
        obtain ⟨-, -, above⟩ := allocateSurplus_spec exact allocating
        exact absurd above notAbove
      | error reason => exact ⟨reason, rfl⟩

/-! ### A PSM that never allocates -/

/-- A table of balances is an exact token. -/
theorem exactContracts_exactUnderlying (price : D256) (psm : PegStabilityModule) :
    ExactUnderlying (exactContracts price) psm (fun held => held psm.underlyingToken) where
  balanceOf _ := rfl
  transfer {w amount} covered :=
    ⟨Ledger.moveIn w psm.underlyingToken psm.self psm.surplusTarget amount, if_pos covered, Ledger.moveIn_self⟩

/-- A PriceBoundPSM whose constructor is given a reserves threshold. -/
def guarded (reservesThreshold : ℕ) : Params :=
  ⟨10, 1, 2, 0, 0, false, 0, 0, reservesThreshold, 0, 0, 3, 4, some ⟨9000, 11000⟩⟩

/-- With a threshold of 5 and reserves of 7, the three functions agree on a surplus of 2. -/
theorem agree_iff_guarded : ∃ psm, PegStabilityModule.deploy 0 (guarded 5) = .ok psm ∧
    Agree (exactContracts ⟨10 ^ 18⟩) psm (fun held => held psm.underlyingToken) (fun _ _ => 7) := by
  obtain ⟨psm, deployed⟩ := exists_of_isOk (by decide +kernel :
    (PegStabilityModule.deploy 0 (guarded 5)).isOk = true)
  have fields : (fun s : PegStabilityModule => (s.priceBound, s.surplusTarget, s.self, s.reservesThreshold)) <$>
      PegStabilityModule.deploy 0 (guarded 5) = .ok (some ⟨9000, 11000⟩, 4, 10, 5) := by decide +kernel
  obtain ⟨_, same, read⟩ := map_eq_ok.mp fields
  obtain rfl := Except.ok.inj (deployed.symm.trans same)
  simp only [Prod.mk.injEq] at read
  obtain ⟨bounded, target, itself, threshold⟩ := read
  refine ⟨psm, deployed, ?_⟩
  apply (agree_iff (exactContracts_exactUnderlying ⟨10 ^ 18⟩ psm) bounded ?_ _).mpr
  · rw [threshold]
    norm_num
  · rw [target, itself]
    decide

/-- With the largest threshold, `hasSurplus` answers that there is none and `deposit` reverts. -/
theorem not_agree_of_uint256Max : ∃ psm, PegStabilityModule.deploy 0 (guarded uint256Max) = .ok psm ∧
    ¬ Agree (exactContracts ⟨10 ^ 18⟩) psm (fun held => held psm.underlyingToken) (fun _ _ => 0) := by
  obtain ⟨psm, deployed⟩ := exists_of_isOk (by decide +kernel :
    (PegStabilityModule.deploy 0 (guarded uint256Max)).isOk = true)
  have fields : (fun s : PegStabilityModule => (s.hasSurplus (exactContracts ⟨10 ^ 18⟩) (fun _ _ => 0),
      (s.deposit (exactContracts ⟨10 ^ 18⟩) (fun _ _ => 0)).isOk)) <$>
      PegStabilityModule.deploy 0 (guarded uint256Max) = .ok (.ok false, false) := by decide +kernel
  obtain ⟨_, same, read⟩ := map_eq_ok.mp fields
  obtain rfl := Except.ok.inj (deployed.symm.trans same)
  simp only [Prod.mk.injEq] at read
  obtain ⟨noSurplus, reverts⟩ := read
  refine ⟨psm, deployed, ?_⟩
  intro agree
  obtain ⟨depositing, -⟩ := agree.below noSurplus
  rw [depositing] at reverts
  cases reverts

end VoltProtocol.SurplusTests
