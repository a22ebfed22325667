import VoltProtocol.Soundness.PCVOracleTotals

/-! # PCV oracles that follow many deposits

Any number of deposits share a venue and report to PCV oracles, which governors set and replace as they like. What an
oracle holds beyond the records of the deposits that report to it comes from two sources only: supplies that the
venue credited otherwise than supplied, and records that stayed behind when a deposit was given an oracle anew.
-/

namespace VoltProtocol.PCVOracleFleet

open Machine MorphoCompoundPCVDeposit

/-- The deposits at their addresses, the totals of the oracles, and the world. -/
structure State (ω : Type) where
  world : ω
  pcvAmount : Address → ℤ
  deposits : Address → Option MorphoCompoundPCVDeposit

/-- Deployments, calls of deposits and transactions elsewhere. -/
inductive Call (ω : Type) where
  | environment (change : ω → ω)
  | deploy (a WETH morpho token cToken underlying : Address)
  | call (a : Address) (call : MorphoSystem.Call ω)

variable {ω : Type}

namespace State

/-- What a deposit sees. -/
def view (s : State ω) (deposit : MorphoCompoundPCVDeposit) : MorphoSystem.State ω where
  storage := deposit
  world := s.world
  pcvAmount := s.pcvAmount
  logs := []
  oracles := ∅

/-- What a call leaves at a deposit, in the oracles and in the world. -/
def write (s : State ω) (a : Address) (t : MorphoSystem.State ω) : State ω where
  world := t.world
  pcvAmount := t.pcvAmount
  deposits := Function.update s.deposits a (some t.storage)

/-- The record of the deposit at an address. -/
def record (s : State ω) (a : Address) : ℤ := (s.deposits a).elim 0 fun deposit => deposit.lastRecordedBalance

/-- The oracle of the deposit at an address. -/
def oracle (s : State ω) (a : Address) : Address := (s.deposits a).elim 0 fun deposit => deposit.pcvOracle

end State

def step (v : Venue ω) (s : State ω) : Call ω → Except Revert (State ω)
  | .environment change => .ok { s with world := change s.world }
  | .deploy a WETH morpho token cToken underlying => do
    require (s.deposits a = none) "address is taken"
    let deposit ← MorphoCompoundPCVDeposit.deploy WETH a morpho token cToken underlying
    return { s with deposits := Function.update s.deposits a (some deposit) }
  | .call a call => do
    let deposit ← external (s.deposits a)
    s.write a <$> MorphoSystem.step v (s.view deposit) call

/-- No deposits yet, and oracles that were told nothing. -/
def Initial (s : State ω) : Prop := s.deposits = (fun _ => none) ∧ s.pcvAmount = fun _ => 0

/-! ### What an oracle holds -/

/-- The records of all deposits that report to an oracle. -/
def followed (oracle : Address) (s : State ω) : ℤ := Ledger.group s.oracle s.record oracle

/-- What an oracle holds beyond them. -/
def drift (oracle : Address) (s : State ω) : ℤ := s.pcvAmount oracle - followed oracle s

/-- What a call adds to that: a record that stays behind, or the error of a supply. -/
def discrepancy (v : Venue ω) (oracle : Address) (s : State ω) (call : Call ω) (_ : State ω) : ℤ :=
  match call with
  | .call a call =>
    if s.oracle a = oracle then
      if call.setsOracle then s.record a
      else (s.deposits a).elim 0 fun deposit => MorphoSystem.creditError v (s.view deposit) call
    else 0
  | _ => 0

section Ledgers

variable {s : State ω} {a oracle : Address} {deposit : MorphoCompoundPCVDeposit}

/-- The oracles and the records after one deposit is written. -/
theorem ledgers_update (world : ω) (amounts : Address → ℤ) :
    State.oracle ⟨world, amounts, Function.update s.deposits a (some deposit)⟩ =
        Function.update s.oracle a deposit.pcvOracle ∧
      State.record ⟨world, amounts, Function.update s.deposits a (some deposit)⟩ =
        Function.update s.record a deposit.lastRecordedBalance := by
  constructor
  · funext b
    by_cases same : b = a
    · simp [State.oracle, same]
    · simp [State.oracle, same]
  · funext b
    by_cases same : b = a
    · simp [State.record, same]
    · simp [State.record, same]

/-- A written deposit takes its old record from its old oracle and brings its new one to its new oracle. -/
theorem followed_update (world : ω) (amounts : Address → ℤ) (oracle : Address) :
    followed oracle ⟨world, amounts, Function.update s.deposits a (some deposit)⟩ +
        (if s.oracle a = oracle then s.record a else 0) =
      followed oracle s + if deposit.pcvOracle = oracle then (deposit.lastRecordedBalance : ℤ) else 0 := by
  obtain ⟨oracles, records⟩ := @ledgers_update _ s a deposit world amounts
  have recorded : Function.update s.record a (deposit.lastRecordedBalance : ℤ) =
      Ledger.credit s.record a (deposit.lastRecordedBalance - s.record a) := by
    rw [Ledger.credit, add_sub_cancel]
  have regrouped := Ledger.group_relabel s.oracle s.record a deposit.pcvOracle oracle
  rw [followed, oracles, records, recorded, Ledger.group_credit, Function.update_self, followed]
  split_ifs at regrouped ⊢ <;> linarith

end Ledgers

section Steps

variable {v : Venue ω} {s t : State ω} {call : Call ω} {oracle : Address}

theorem record_eq {a : Address} {deposit : MorphoCompoundPCVDeposit} (here : s.deposits a = some deposit) :
    s.record a = deposit.lastRecordedBalance ∧ s.oracle a = deposit.pcvOracle := by
  rw [State.record, State.oracle, here]
  exact ⟨rfl, rfl⟩

theorem reportTo_apply (amounts : Address → ℤ) (target : Address) (pcvDelta : ℤ) (present : oracle ≠ 0) :
    Frame.reportTo amounts target pcvDelta oracle = amounts oracle + if target = oracle then pcvDelta else 0 := by
  by_cases same : target = oracle
  · rw [Frame.reportTo, if_neg (same ▸ present), if_pos same, same, Ledger.credit_self]
  · rw [if_neg same, add_zero, Frame.reportTo]
    split_ifs
    · rfl
    · exact Ledger.credit_of_ne (Ne.symm same)

/-- What a call of a deposit tells the oracles, beside the change of its record. -/
theorem told_of_call {deposit : MorphoCompoundPCVDeposit} {call : MorphoSystem.Call ω} {u : MorphoSystem.State ω}
    (present : oracle ≠ 0) (called : MorphoSystem.step v (s.view deposit) call = .ok u) :
    u.pcvAmount oracle + (if deposit.pcvOracle = oracle then (deposit.lastRecordedBalance : ℤ) else 0) =
      s.pcvAmount oracle + (if u.storage.pcvOracle = oracle then (u.storage.lastRecordedBalance : ℤ) else 0) +
        if deposit.pcvOracle = oracle then
          if call.setsOracle then (deposit.lastRecordedBalance : ℤ)
          else MorphoSystem.creditError v (s.view deposit) call
        else 0 := by
  by_cases sets : call.setsOracle = true
  · cases call with
    | setPCVOracle ctx newOracle =>
      obtain ⟨f, set, rfl⟩ := map_eq_ok.mp called
      obtain ⟨-, storage, amounts⟩ := Frame.setPCVOracle_spec set
      have pointed : f.storage.pcvOracle = newOracle := by rw [storage]
      have held : f.pcvAmount oracle = s.pcvAmount oracle +
          if newOracle = oracle then (f.storage.lastRecordedBalance : ℤ) else 0 := by
        rw [amounts]
        by_cases same : newOracle = oracle
        · rw [same, Ledger.credit_self, if_pos rfl]
          rfl
        · rw [Ledger.credit_of_ne (Ne.symm same), if_neg same, add_zero]
          rfl
      simp only [MorphoSystem.State.point, pointed, held, sets, if_true]
    | _ => cases sets
  · have reported := MorphoSystem.reported_of_step (Bool.eq_false_iff.mpr sets) called
    have same : u.storage.pcvOracle = deposit.pcvOracle := reported.pcvOracle
    have amounts : u.pcvAmount oracle = s.pcvAmount oracle + if deposit.pcvOracle = oracle then
        (u.storage.lastRecordedBalance : ℤ) - deposit.lastRecordedBalance +
          MorphoSystem.creditError v (s.view deposit) call else 0 := by
      rw [reported.amounts]
      exact reportTo_apply _ _ _ present
    rw [amounts, same, if_neg sets]
    split_ifs <;> ring

/-- A call changes the drift of each oracle by its discrepancy there. -/
theorem drift_of_step (present : oracle ≠ 0) (stepped : step v s call = .ok t) :
    drift oracle t = drift oracle s + discrepancy v oracle s call t := by
  cases call with
  | environment change =>
    obtain rfl := Except.ok.inj stepped
    exact (add_zero _).symm
  | deploy a WETH morpho token cToken underlying =>
    simp only [step, bind_eq_ok, require_eq_ok, pure_eq_ok] at stepped
    obtain ⟨_, vacant, deposit, deployed, rfl⟩ := stepped
    have empty : deposit.lastRecordedBalance = 0 := by
      simp only [MorphoCompoundPCVDeposit.deploy, bind_eq_ok, pure_eq_ok] at deployed
      obtain ⟨_, -, rfl⟩ := deployed
      rfl
    have nothing : s.record a = 0 := by rw [State.record, vacant, Option.elim_none]
    have moved := @followed_update _ s a deposit s.world s.pcvAmount oracle
    rw [nothing, empty, Nat.cast_zero, ite_self, ite_self, add_zero, add_zero] at moved
    rw [drift, moved]
    exact (add_zero _).symm
  | call a call =>
    obtain ⟨deposit, here, called⟩ := bind_eq_ok.mp stepped
    obtain ⟨u, success, rfl⟩ := map_eq_ok.mp called
    have here := external_eq_ok.mp here
    obtain ⟨record, reports⟩ := record_eq here
    have moved := @followed_update _ s a u.storage u.world u.pcvAmount oracle
    have told := told_of_call present success
    simp only [discrepancy, drift, State.write, here, Option.elim_some, record, reports] at moved told ⊢
    linarith

theorem drift_of_initial (initial : Initial s) : drift oracle s = 0 := by
  obtain ⟨none, untold⟩ := initial
  have nothing : s.record = fun _ => 0 := by
    funext a
    rw [State.record, none, Option.elim_none]
  rw [drift, untold, followed, nothing, Ledger.group, Finset.sum_const_zero, sub_zero]

/-- The call gives no deposit with a record another oracle for this one, or this one again. -/
def LeavesNothing (oracle : Address) (s : State ω) (call : Call ω) : Prop :=
  ∀ a ctx newOracle, call = .call a (.setPCVOracle ctx newOracle) → s.oracle a = oracle → s.record a = 0

theorem record_nonneg (s : State ω) (a : Address) : 0 ≤ s.record a := by
  rw [State.record]
  cases s.deposits a with
  | none => exact le_rfl
  | some deposit => exact Int.natCast_nonneg _

/-- An exact venue leaves only records behind. -/
theorem discrepancy_of_exact (exact : PCVOracleTotals.Exact v) (oracle : Address) (s : State ω) (call : Call ω)
    (t : State ω) :
    0 ≤ discrepancy v oracle s call t ∧ (discrepancy v oracle s call t = 0 ↔ LeavesNothing oracle s call) := by
  cases call with
  | environment | deploy => exact ⟨le_rfl, iff_of_true rfl nofun⟩
  | call a call =>
    have credited : (s.deposits a).elim (0 : ℤ) (fun deposit => MorphoSystem.creditError v (s.view deposit) call) = 0 := by
      cases s.deposits a with
      | none => rfl
      | some deposit => exact exact.creditError _ _
    by_cases reports : s.oracle a = oracle
    · by_cases sets : call.setsOracle = true
      · rw [discrepancy, if_pos reports, if_pos sets]
        refine ⟨record_nonneg s a, ?_⟩
        cases call with
        | setPCVOracle ctx newOracle =>
          constructor
          · intro empty b _ _ same _
            obtain ⟨rfl, -⟩ := Call.call.inj same
            exact empty
          · intro leaves
            exact leaves a ctx newOracle rfl reports
        | _ => cases sets
      · rw [discrepancy, if_pos reports, if_neg sets, credited]
        refine ⟨le_rfl, iff_of_true rfl ?_⟩
        intro b ctx newOracle same
        obtain ⟨-, rfl⟩ := Call.call.inj same
        exact absurd rfl sets
    · rw [discrepancy, if_neg reports]
      refine ⟨le_rfl, iff_of_true rfl ?_⟩
      intro b ctx newOracle same pointed
      obtain ⟨rfl, -⟩ := Call.call.inj same
      exact absurd pointed reports

/-- In every run of any number of deposits, at any venue, an oracle holds the records of the deposits that report
to it, and the discrepancies of all calls. At an exact venue it never holds less than these records, and it holds
more exactly if a deposit that reported to it was given an oracle while it had a record. -/
theorem oracle_accounts {calls : List (Call ω)} (present : oracle ≠ 0) (initial : Initial s)
    (success : run (step v) s calls = .ok t) :
    t.pcvAmount oracle = followed oracle t + total (step v) (discrepancy v oracle) s calls ∧
      (PCVOracleTotals.Exact v → followed oracle t ≤ t.pcvAmount oracle ∧ (t.pcvAmount oracle = followed oracle t ↔
        Along (step v) (fun state call _ => LeavesNothing oracle state call) s calls)) := by
  have changed (state : State ω) (call : Call ω) (next : State ω) (_ : True) (_ : True)
      (stepped : step v state call = .ok next) :
      True ∧ drift oracle next = drift oracle state + discrepancy v oracle state call next :=
    ⟨trivial, drift_of_step present stepped⟩
  have drifted := total_telescope changed (fun _ _ => trivial) trivial success
  rw [drift_of_initial initial, zero_add, drift, sub_eq_iff_eq_add'] at drifted
  refine ⟨drifted, fun exact => ?_⟩
  have nonneg (state : State ω) (call : Call ω) (next : State ω) (_ : step v state call = .ok next) :
      0 ≤ discrepancy v oracle state call next := (discrepancy_of_exact exact oracle state call next).1
  have leaves (state : State ω) (call : Call ω) (next : State ω) :
      discrepancy v oracle state call next = 0 ↔ LeavesNothing oracle state call :=
    (discrepancy_of_exact exact oracle state call next).2
  obtain ⟨more, none⟩ := @total_eq_zero_iff _ _ _ _ ℤ _ _ _ _ s calls nonneg
  simp only [leaves] at none
  rw [drifted, ← none]
  exact ⟨le_add_of_nonneg_right more, add_eq_left⟩

end Steps

/-- Two deposits report to one oracle, which keeps what the second told it when that is given another. -/
theorem oracle_accounts_replaced :
    let governor := Context.withRoles 1 [.governor]
    let v := mockMorpho 6 30 0
    let start : State MockMorpho :=
      ⟨⟨fun token a => if token = 6 ∧ a = 20 then 100 else if token = 6 ∧ a = 21 then 50 else 0, fun _ => 0⟩,
        fun _ => 0, fun _ => none⟩
    let calls : List (Call MockMorpho) := [.deploy 20 9 30 6 7 6, .deploy 21 9 30 6 7 6, .call 20 (.setPCVOracle governor 40),
      .call 21 (.setPCVOracle governor 40), .call 20 (.deposit 1), .call 21 (.deposit 1),
      .call 21 (.setPCVOracle governor 41), .call 20 .accrue]
    ∃ t, run (step v) start calls = .ok t ∧ t.pcvAmount 40 = 150 ∧ t.record 20 = 100 ∧
      t.pcvAmount 40 = followed 40 t + 50 ∧ t.pcvAmount 41 = followed 41 t ∧
      Along (step v) (fun state call _ => LeavesNothing 41 state call) start calls := by
  intro governor v start calls
  have observed : (fun t : State MockMorpho => (t.pcvAmount 40, t.record 20)) <$> run (step v) start calls =
      .ok (150, 100) := by
    decide +kernel
  have behind : total (step v) (discrepancy v 40) start calls = 50 := by decide +kernel
  have nothing : total (step v) (discrepancy v 41) start calls = 0 := by decide +kernel
  obtain ⟨t, success, values⟩ := map_eq_ok.mp observed
  simp only [Prod.mk.injEq] at values
  have first := (@oracle_accounts _ v _ t 40 _ (by decide) ⟨rfl, rfl⟩ success).1
  obtain ⟨second, exactly⟩ := @oracle_accounts _ v _ t 41 _ (by decide) ⟨rfl, rfl⟩ success
  obtain ⟨-, iff⟩ := exactly (PCVOracleTotals.exact_mockMorpho 6 30)
  rw [behind] at first
  rw [nothing, add_zero] at second
  exact ⟨t, success, values.1, values.2, first, second, iff.mp second⟩

end VoltProtocol.PCVOracleFleet
