import VoltProtocol.Soundness.MorphoSystem

/-! # How far a PCV oracle drifts from the deposit it follows

Every call reports the change of the record, except that a deposit reports the change up to the
balance the venue shows after the supply and records the amount supplied. What the venue did not
credit is thus reported as lost by the deposit and once more by the next call, so the difference
between the oracle and the record changes by exactly the credit error of each supply, and by nothing
else.
-/

namespace VoltProtocol.PCVOracleDrift

open Machine MorphoCompoundPCVDeposit MorphoSystem

variable {ω : Type} {v : Venue ω} {oracle : Address} {s t u : State ω} {call : Call ω}

/-- What the oracle holds beyond the record of the deposit. -/
def drift (oracle : Address) (s : State ω) : ℤ := s.pcvAmount oracle - s.storage.lastRecordedBalance

/-- The deposit reports to the given oracle. -/
def Follows (oracle : Address) (s : State ω) : Prop := s.storage.pcvOracle = oracle

/-- What the venue credited off the amount supplied, in one call. -/
def error (v : Venue ω) (s : State ω) (call : Call ω) (_ : State ω) : ℤ := creditError v s call

/-- A call with the oracle set changes the drift by the error of its supply. -/
theorem drift_of_step (present : oracle ≠ 0) (keeps : call.setsOracle = false)
    (follows : Follows oracle s) (stepped : step v s call = .ok t) :
    Follows oracle t ∧ drift oracle t = drift oracle s + error v s call t := by
  have reported := reported_of_step keeps stepped
  have set : s.storage.pcvOracle = oracle := follows
  refine ⟨reported.pcvOracle.trans set, ?_⟩
  rw [drift, reported.amounts, set, Frame.reportTo, if_neg present, Ledger.credit_self, drift, error]
  ring

/-- Setting a fresh oracle leaves no drift. -/
theorem drift_of_set {ctx : Context} (fresh : s.pcvAmount oracle = 0)
    (stepped : step v s (.setPCVOracle ctx oracle) = .ok t) :
    oracle ≠ 0 ∧ Follows oracle t ∧ drift oracle t = 0 := by
  obtain ⟨f, set, rfl⟩ := map_eq_ok.mp stepped
  obtain ⟨present, storage, amounts⟩ := Frame.setPCVOracle_spec set
  refine ⟨present, ?_, ?_⟩
  · rw [Follows, State.point, storage]
  · rw [drift, State.point, amounts, Ledger.credit_self, fresh, zero_add, sub_self]

/-- After an accrual the record is the balance at the venue, and the drift is what it was. -/
theorem drift_of_accrue (present : oracle ≠ 0) (follows : Follows oracle s)
    (stepped : step v s .accrue = .ok t) :
    t.balance v.contracts = .ok t.storage.lastRecordedBalance ∧ drift oracle t = drift oracle s := by
  have same := (drift_of_step present rfl follows stepped).2
  obtain ⟨⟨f, result⟩, accrued, rfl⟩ := map_eq_ok.mp stepped
  refine ⟨(Frame.accrue_spec accrued).2.1, ?_⟩
  exact same.trans (add_zero _)

/-- After any run that follows the setting of a fresh oracle, an accrual leaves the oracle at the
record, which is the balance, exactly when the errors of all supplies since then sum to zero. -/
theorem oracle_matches_iff {ctx : Context} {start : State ω} {calls : List (Call ω)}
    (fresh : start.pcvAmount oracle = 0) (setting : step v start (.setPCVOracle ctx oracle) = .ok s)
    (keep : ∀ call ∈ calls, call.setsOracle = false) (success : run (step v) s calls = .ok t)
    (accrued : step v t .accrue = .ok u) :
    (u.pcvAmount oracle = u.storage.lastRecordedBalance ∧
        u.balance v.contracts = .ok u.storage.lastRecordedBalance) ↔
      total (step v) (error v) s calls = 0 := by
  obtain ⟨present, follows, none⟩ := drift_of_set fresh setting
  have changes (state : State ω) (call : Call ω) (next : State ω) (keeps : call.setsOracle = false)
      (follows : Follows oracle state) (stepped : step v state call = .ok next) :
      Follows oracle next ∧ drift oracle next = drift oracle state + error v state call next :=
    drift_of_step present keeps follows stepped
  have telescoped := total_telescope changes keep follows success
  have still : Follows oracle t := run_invariant (fun state call next keeps follows stepped =>
    (changes state call next keeps follows stepped).1) keep follows success
  obtain ⟨balance, same⟩ := drift_of_accrue present still accrued
  rw [none, zero_add] at telescoped
  rw [← telescoped, ← same, drift, sub_eq_zero]
  exact and_iff_left balance

/-- Interest, a loss, a partial and a full withdrawal at a venue that credits exactly. -/
theorem oracle_matches_iff_exact_venue :
    let governor := Context.withRoles 1 [.governor]
    let controller := Context.withRoles 2 [.pcvController]
    let v := mockMorpho 6 30 0
    let worth (supplied : ℕ) : MockMorpho :=
      ⟨fun token account => if token = 6 ∧ account = 20 then 50 else 1000, fun _ => supplied⟩
    let calls := [.deposit 1, .environment (worth 105), .withdraw controller 50 30, .environment (worth 60),
      .deposit 1, .environment (worth 120), .withdrawAll controller 50, .environment (worth 1)]
    ∃ s t u, step v fresh (.setPCVOracle governor 40) = .ok s ∧ run (step v) s calls = .ok t ∧
      step v t .accrue = .ok u ∧ u.pcvAmount 40 = u.storage.lastRecordedBalance ∧
      u.balance v.contracts = .ok u.storage.lastRecordedBalance := by
  intro governor controller v worth calls
  have ok : (run (step v) fresh (.setPCVOracle governor 40 :: (calls ++ [.accrue]))).isOk = true := by
    decide +kernel
  obtain ⟨u, ran⟩ := exists_of_isOk ok
  obtain ⟨s, setting, ran⟩ := run_cons_ok.mp ran
  obtain ⟨t, success, accrued⟩ := run_concat_ok.mp ran
  have errors : total (step v) (error v) fresh (.setPCVOracle governor 40 :: calls) = 0 := by
    decide +kernel
  have exactly : total (step v) (error v) s calls = 0 := by
    rw [total_cons_of_ok setting] at errors
    exact (zero_add _).symm.trans errors
  have keep : ∀ call ∈ calls, call.setsOracle = false := by simp [calls, Call.setsOracle]
  exact ⟨s, t, u, setting, success, accrued, (oracle_matches_iff rfl setting keep success accrued).mpr exactly⟩

/-- One supply of 100 units that is credited one unit short. -/
theorem oracle_drifts :
    let governor := Context.withRoles 1 [.governor]
    let v := mockMorpho 6 30 1
    ∃ u, run (step v) fresh [.setPCVOracle governor 40, .deposit 1, .accrue] = .ok u ∧
      u.pcvAmount 40 = 98 ∧ u.storage.lastRecordedBalance = 99 ∧ u.balance v.contracts = .ok 99 := by
  intro governor v
  have observed : (fun u : State MockMorpho =>
      (u.pcvAmount 40, u.storage.lastRecordedBalance, u.balance v.contracts)) <$>
        run (step v) fresh [.setPCVOracle governor 40, .deposit 1, .accrue] = .ok (98, 99, .ok 99) := by
    decide +kernel
  obtain ⟨u, ran, values⟩ := map_eq_ok.mp observed
  simp only [Prod.mk.injEq] at values
  exact ⟨u, ran, values.1, values.2.1, values.2.2⟩

end VoltProtocol.PCVOracleDrift
