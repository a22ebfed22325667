import VoltProtocol.Soundness.MorphoSystem

/-! # Whether all PCV oracles together count the deposit once

A new oracle is told the whole balance while the old one keeps what it was told, so at an exact venue
the totals of all oracles ever set sum to the record until an oracle is set again on a record that is
not zero, and from then on they exceed it.
-/

namespace VoltProtocol.PCVOracleTotals

open Machine MorphoCompoundPCVDeposit MorphoSystem

variable {ω : Type} {v : Venue ω} {s t : State ω} {call : Call ω}

/-- A venue that credits each supply exactly; approvals move nothing there. -/
structure Exact (v : Venue ω) : Prop where
  approve {w u : ω} {token sender spender : Address} {amount : ℕ}
    (approved : v.approve w token sender spender amount = some u) (cToken account : Address) :
    v.getCurrentSupplyBalanceInOf u cToken account = v.getCurrentSupplyBalanceInOf w cToken account
  supply {w u : ω} {sender cToken onBehalf : Address} {amount before : ℕ}
    (supplied : v.supply w sender cToken onBehalf amount = some u)
    (read : v.getCurrentSupplyBalanceInOf w cToken onBehalf = some before) :
    v.getCurrentSupplyBalanceInOf u cToken onBehalf = some (before + amount)

/-- An exact venue leaves no credit error. -/
theorem Exact.creditError (exact : Exact v) (s : State ω) (call : Call ω) : creditError v s call = 0 := by
  cases call with
  | deposit sender =>
    rw [MorphoSystem.creditError, Frame.creditError]
    split
    · next amount held =>
      cases credit : s.toFrame.credited v (amount + 1) with
      | none => rfl
      | some error =>
        simp only [Frame.credited, Option.bind_eq_bind, Option.bind_eq_some_iff, Option.pure_def,
          Option.some.injEq] at credit
        obtain ⟨accrued, -, before, read, approved, approving, supplied, supplying, after, final, rfl⟩ := credit
        have exactly := exact.supply supplying ((exact.approve approving _ _).trans read)
        obtain rfl := Option.some.inj (exactly.symm.trans final)
        simp
    · rfl
  | _ => rfl

/-- After an oracle was set, the totals of all oracles set so far sum to the record. -/
def Counted (s : State ω) : Prop :=
  s.oracles.Nonempty → ∑ oracle ∈ s.oracles, s.pcvAmount oracle = s.storage.lastRecordedBalance

/-- Only oracles that were set hold anything, and the one the deposit reports to was set. -/
structure Tracked (s : State ω) : Prop where
  unset : s.storage.pcvOracle = 0 → s.oracles = ∅
  set : s.storage.pcvOracle ≠ 0 → s.storage.pcvOracle ∈ s.oracles
  untold : ∀ oracle, oracle ∉ s.oracles → s.pcvAmount oracle = 0

/-- An oracle is set for the first time, or while the record is zero. -/
def SetsOnEmpty (s : State ω) (call : Call ω) : Prop :=
  call.setsOracle = true → s.oracles.Nonempty → s.storage.lastRecordedBalance = 0

instance (s : State ω) : Decidable (Counted s) :=
  inferInstanceAs (Decidable (_ → _))

instance (s : State ω) (call : Call ω) : Decidable (SetsOnEmpty s call) :=
  inferInstanceAs (Decidable (_ → _ → _))

theorem tracked_of_initial (initial : Initial s) : Tracked s ∧ Counted s := by
  obtain ⟨⟨WETH, self, morpho, token, cToken, underlying, deployed⟩, untold, none⟩ := initial
  simp only [MorphoCompoundPCVDeposit.deploy, bind_eq_ok, pure_eq_ok] at deployed
  obtain ⟨_, -, storage⟩ := deployed
  refine ⟨⟨?_, ?_, ?_⟩, ?_⟩
  · intro _
    exact none
  · intro set
    rw [← storage] at set
    exact absurd rfl set
  · intro oracle _
    rw [untold]
  · intro set
    rw [none] at set
    exact absurd set Finset.not_nonempty_empty

/-- A call that reports the change of the record keeps the totals counted. -/
theorem counted_of_reported (tracked : Tracked s) (counted : Counted s) (reported : Reported s t 0) :
    Tracked t ∧ Counted t := by
  obtain ⟨oracles, pcvOracle, amounts⟩ := reported
  by_cases present : s.storage.pcvOracle = 0
  · have none := tracked.unset present
    rw [Frame.reportTo, if_pos present] at amounts
    refine ⟨⟨?_, ?_, ?_⟩, ?_⟩
    · rw [pcvOracle, oracles]
      exact tracked.unset
    · rw [pcvOracle, oracles]
      exact tracked.set
    · rw [oracles, amounts]
      exact tracked.untold
    · rw [Counted, oracles, none]
      intro some
      exact absurd some Finset.not_nonempty_empty
  · have member := tracked.set present
    rw [Frame.reportTo, if_neg present, add_zero] at amounts
    refine ⟨⟨?_, ?_, ?_⟩, ?_⟩
    · rw [pcvOracle, oracles]
      exact tracked.unset
    · rw [pcvOracle, oracles]
      exact tracked.set
    · intro oracle unset
      rw [oracles] at unset
      have different : oracle ≠ s.storage.pcvOracle := by
        intro same
        apply unset
        exact same ▸ member
      rw [amounts, Ledger.credit_of_ne different]
      exact tracked.untold oracle unset
    · intro _
      rw [oracles, amounts, Ledger.sum_credit, if_pos member, counted ⟨_, member⟩]
      ring

/-- Setting an oracle adds the whole record to what the oracles held before. -/
theorem counted_of_set {ctx : Context} {oracle : Address} (tracked : Tracked s) (counted : Counted s)
    (stepped : step v s (.setPCVOracle ctx oracle) = .ok t) :
    Tracked t ∧ (Counted t ↔ SetsOnEmpty s (.setPCVOracle ctx oracle)) := by
  obtain ⟨f, set, rfl⟩ := map_eq_ok.mp stepped
  obtain ⟨present, storage, amounts⟩ := Frame.setPCVOracle_spec set
  have pointed : f.storage.pcvOracle = oracle := by rw [storage]
  have before : ∑ o ∈ insert oracle s.oracles, s.pcvAmount o = ∑ o ∈ s.oracles, s.pcvAmount o :=
    Finset.sum_insert_of_eq_zero_if_notMem (tracked.untold oracle)
  have after : ∑ o ∈ insert oracle s.oracles, f.pcvAmount o =
      ∑ o ∈ s.oracles, s.pcvAmount o + f.storage.lastRecordedBalance := by
    rw [amounts, Ledger.sum_credit, if_pos (Finset.mem_insert_self ..), before]
  refine ⟨⟨?_, ?_, ?_⟩, ?_⟩
  · intro unset
    exact absurd (pointed.symm.trans unset) present
  · intro _
    exact pointed.symm ▸ Finset.mem_insert_self ..
  · intro o unset
    have notMember : o ≠ oracle ∧ o ∉ s.oracles := by simpa [State.point] using unset
    exact (congrFun amounts o).trans ((Ledger.credit_of_ne notMember.1).trans (tracked.untold o notMember.2))
  · have counts : Counted (s.point oracle f) ↔ ∑ o ∈ s.oracles, s.pcvAmount o = 0 := by
      rw [Counted, State.point, after]
      simp
    rw [counts, SetsOnEmpty]
    constructor
    · intro zero _ some
      exact_mod_cast (counted some).symm.trans zero
    · intro empty
      obtain none | some := s.oracles.eq_empty_or_nonempty
      · rw [none, Finset.sum_empty]
      · rw [counted some, empty rfl some, Nat.cast_zero]

/-- At an exact venue, in every run of a new deposit, the totals of all oracles ever set sum to the
record in all states that follow the first setting exactly when an oracle is only ever set again
while the record is zero. -/
theorem totals_counted_iff {calls : List (Call ω)} (exact : Exact v) (initial : Initial s)
    (success : run (step v) s calls = .ok t) :
    Along (step v) (fun _ _ next => Counted next) s calls ↔
      Along (step v) (fun state call _ => SetsOnEmpty state call) s calls := by
  have exact_step (state : State ω) (call : Call ω) (next : State ω) (_ : True) (tracked : Tracked state)
      (counted : Counted state) (stepped : step v state call = .ok next) :
      Tracked next ∧ (Counted next ↔ SetsOnEmpty state call) := by
    by_cases sets : call.setsOracle = true
    · cases call with
      | setPCVOracle ctx oracle => exact counted_of_set tracked counted stepped
      | _ => cases sets
    · have reported := reported_of_step (Bool.eq_false_iff.mpr sets) stepped
      rw [exact.creditError] at reported
      obtain ⟨kept, still⟩ := counted_of_reported tracked counted reported
      refine ⟨kept, iff_of_true still ?_⟩
      intro set
      exact absurd set sets
  obtain ⟨tracked, counted⟩ := tracked_of_initial initial
  exact along_good_iff exact_step (fun _ _ => trivial) tracked counted success

theorem exact_mockMorpho (token morpho : Address) : Exact (mockMorpho token morpho 0) where
  approve {w u token sender spender amount} approved cToken account := by
    obtain rfl := Option.some.inj approved
    rfl
  supply {w u sender cToken onBehalf amount before} supplied read := by
    simp only [mockMorpho] at supplied read ⊢
    split_ifs at supplied
    obtain rfl := Option.some.inj supplied
    obtain rfl := Option.some.inj read
    exact congrArg some Ledger.credit_self

/-- The oracle is replaced while the deposit is empty, and set back while it is empty again. -/
theorem totals_counted_iff_emptied :
    let governor := Context.withRoles 1 [.governor]
    let controller := Context.withRoles 2 [.pcvController]
    let v := mockMorpho 6 30 0
    let calls := [.deposit 1, .setPCVOracle governor 40, .withdraw controller 50 30, .withdrawAll controller 20,
      .setPCVOracle governor 41, .deposit 1, .accrue, .withdrawAll controller 50, .setPCVOracle governor 40]
    ∃ t, run (step v) fresh calls = .ok t ∧ Along (step v) (fun _ _ next => Counted next) fresh calls := by
  intro governor controller v calls
  have ok : (run (step v) fresh calls).isOk = true := by decide +kernel
  have empty : Along (step v) (fun state call _ => SetsOnEmpty state call) fresh calls := by decide +kernel
  obtain ⟨t, success⟩ := exists_of_isOk ok
  exact ⟨t, success, (totals_counted_iff (exact_mockMorpho 6 30) fresh_initial success).mpr empty⟩

/-- The oracle is replaced once while the deposit holds 100 units. -/
theorem totals_count_twice :
    let governor := Context.withRoles 1 [.governor]
    let v := mockMorpho 6 30 0
    Exact v ∧ Initial fresh ∧
      ∃ t, run (step v) fresh [.setPCVOracle governor 40, .deposit 1, .setPCVOracle governor 41] = .ok t ∧
        t.oracles.card = 2 ∧ ∑ oracle ∈ t.oracles, t.pcvAmount oracle = 200 ∧
        t.storage.lastRecordedBalance = 100 := by
  intro governor v
  have observed : (fun t : State MockMorpho =>
      (t.oracles.card, ∑ oracle ∈ t.oracles, t.pcvAmount oracle, t.storage.lastRecordedBalance)) <$>
        run (step v) fresh [.setPCVOracle governor 40, .deposit 1, .setPCVOracle governor 41] =
          .ok (2, 200, 100) := by
    decide +kernel
  obtain ⟨t, ran, values⟩ := map_eq_ok.mp observed
  simp only [Prod.mk.injEq] at values
  exact ⟨exact_mockMorpho 6 30, fresh_initial, t, ran, values.1, values.2.1, values.2.2⟩

end VoltProtocol.PCVOracleTotals
