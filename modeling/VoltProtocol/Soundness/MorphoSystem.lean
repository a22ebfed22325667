import VoltProtocol.Machine.Run
import VoltProtocol.Model.MorphoCompoundPCVDeposit

/-! # Runs of a MorphoCompoundPCVDeposit

One step is one transaction: a call of the deposit, or a transaction elsewhere that changes the world
in any way, such as interest, a loss, a transfer of tokens to the deposit, or an `emergencyAction` of
the governor. The venue makes no callbacks. The state remembers which PCV oracles were ever set.
-/

namespace VoltProtocol.MorphoSystem

open Machine MorphoCompoundPCVDeposit

inductive Call (ω : Type) where
  | environment (world : ω)
  | deposit (sender : Address)
  | harvest
  | accrue
  | withdraw (ctx : Context) (recipient : Address) (amount : ℕ)
  | withdrawAll (ctx : Context) (recipient : Address)
  | setPCVOracle (ctx : Context) (newOracle : Address)
  | withdrawERC20 (ctx : Context) (token recipient : Address) (amount : ℕ)
  | pause (ctx : Context)
  | unpause (ctx : Context)
  | setContractAdminRole (ctx : Context) (newContractAdminRole : Role)

/-- A frame between transactions, and the PCV oracles set so far. -/
structure State (ω : Type) extends Frame ω where
  oracles : Finset Address

variable {ω : Type}

namespace State

variable (s : State ω)

/-- A call that leaves the PCV oracle. -/
def commit (f : Frame ω) : State ω := { s with toFrame := f }

/-- A call that sets the PCV oracle. -/
def point (newOracle : Address) (f : Frame ω) : State ω where
  toFrame := f
  oracles := insert newOracle s.oracles

/-- A call of a function of CoreRef. -/
def writeCore (c : CoreRef) : State ω :=
  { s with storage := { s.storage with toCoreRef := c } }

end State

def step (v : Venue ω) (s : State ω) : Call ω → Except Revert (State ω)
  | .environment world => .ok { s with world }
  | .deposit sender => s.commit <$> s.deposit v.contracts sender
  | .harvest => s.commit <$> s.harvest v.contracts
  | .accrue => (fun r => s.commit r.1) <$> s.accrue v.contracts
  | .withdraw ctx recipient amount => s.commit <$> s.withdraw v.contracts ctx recipient amount
  | .withdrawAll ctx recipient => s.commit <$> s.withdrawAll v.contracts ctx recipient
  | .setPCVOracle ctx newOracle => s.point newOracle <$> s.setPCVOracle v.contracts ctx newOracle
  | .withdrawERC20 ctx token recipient amount =>
    s.commit <$> s.withdrawERC20 v.contracts ctx token recipient amount
  | .pause ctx => s.writeCore <$> s.storage.pause ctx
  | .unpause ctx => s.writeCore <$> s.storage.unpause ctx
  | .setContractAdminRole ctx role => s.writeCore <$> s.storage.setContractAdminRole ctx role

/-- A freshly deployed deposit in any world; no oracle has been told anything. -/
def Initial (s : State ω) : Prop :=
  (∃ WETH self morpho token cToken underlying,
    MorphoCompoundPCVDeposit.deploy WETH self morpho token cToken underlying = .ok s.storage) ∧
  s.pcvAmount = (fun _ => 0) ∧ s.oracles = ∅

/-- A new deposit that holds 100 units of its token. -/
def fresh : State MockMorpho where
  storage :=
    { CONTRACT_ADMIN_ROLE := .governor
      paused := false
      self := 20
      morpho := 30
      token := 6
      cToken := 7
      lastRecordedBalance := 0
      pcvOracle := 0
      entered := false }
  world := ⟨fun token account => if token = 6 ∧ account = 20 then 100 else 0, fun _ => 0⟩
  pcvAmount := fun _ => 0
  logs := []
  oracles := ∅

theorem fresh_initial : Initial fresh :=
  ⟨⟨9, 20, 30, 6, 7, 6, rfl⟩, rfl, rfl⟩

/-- The calls that set the PCV oracle. -/
def Call.setsOracle : Call ω → Bool
  | .setPCVOracle .. => true
  | _ => false

/-- How far the venue credits the supply made by a call off the amount supplied. -/
def creditError (v : Venue ω) (s : State ω) : Call ω → ℤ
  | .deposit _ => s.toFrame.creditError v
  | _ => 0

/-- What a call that does not set the oracle does to the record and the totals. -/
structure Reported (s t : State ω) (error : ℤ) : Prop where
  oracles : t.oracles = s.oracles
  pcvOracle : t.storage.pcvOracle = s.storage.pcvOracle
  amounts : t.pcvAmount = Frame.reportTo s.pcvAmount s.storage.pcvOracle
    ((t.storage.lastRecordedBalance : ℤ) - s.storage.lastRecordedBalance + error)

variable {v : Venue ω} {s t : State ω} {call : Call ω}

theorem Reported.of_reports {f : Frame ω} {error : ℤ} (reports : Frame.Reports s.toFrame f error) :
    Reported s (s.commit f) error where
  oracles := rfl
  pcvOracle := by rw [State.commit, reports.storage]
  amounts := reports.reported

/-- A call that leaves the record and the totals alone. -/
private theorem reported_of_same (oracles : t.oracles = s.oracles)
    (pcvOracle : t.storage.pcvOracle = s.storage.pcvOracle)
    (last : t.storage.lastRecordedBalance = s.storage.lastRecordedBalance)
    (amounts : t.pcvAmount = s.pcvAmount) : Reported s t 0 := by
  refine ⟨oracles, pcvOracle, ?_⟩
  rw [amounts, last, sub_self, add_zero, Frame.reportTo_zero]

/-- Any call that does not set the oracle reports the change of the record, up to what the venue did
not credit. -/
theorem reported_of_step (keeps : call.setsOracle = false) (stepped : step v s call = .ok t) :
    Reported s t (creditError v s call) := by
  cases call with
  | setPCVOracle => cases keeps
  | environment world =>
    obtain rfl := Except.ok.inj stepped
    exact reported_of_same rfl rfl rfl rfl
  | deposit sender =>
    obtain ⟨f, deposited, rfl⟩ := map_eq_ok.mp stepped
    exact .of_reports (Frame.deposit_spec deposited)
  | accrue =>
    obtain ⟨⟨f, result⟩, accrued, rfl⟩ := map_eq_ok.mp stepped
    exact .of_reports (Frame.accrue_spec accrued).1
  | withdraw ctx recipient amount =>
    obtain ⟨f, withdrawn, rfl⟩ := map_eq_ok.mp stepped
    exact .of_reports (Frame.withdraw_spec withdrawn)
  | withdrawAll ctx recipient =>
    obtain ⟨f, withdrawn, rfl⟩ := map_eq_ok.mp stepped
    exact .of_reports (Frame.withdrawAll_spec withdrawn)
  | harvest =>
    obtain ⟨f, harvested, rfl⟩ := map_eq_ok.mp stepped
    simp only [Frame.harvest, Venue.contracts, bind_eq_ok, external_eq_ok, Option.bind_eq_bind,
      Option.bind_eq_some_iff, Option.pure_def, Option.some.injEq, pure_eq_ok] at harvested
    obtain ⟨_, ⟨_, -, rfl⟩, rfl⟩ := harvested
    exact reported_of_same rfl rfl rfl rfl
  | withdrawERC20 ctx token recipient amount =>
    obtain ⟨f, withdrawn, rfl⟩ := map_eq_ok.mp stepped
    simp only [Frame.withdrawERC20, bind_eq_ok, pure_eq_ok] at withdrawn
    obtain ⟨_, -, world, -, rfl⟩ := withdrawn
    exact reported_of_same rfl rfl rfl rfl
  | pause | unpause | setContractAdminRole =>
    obtain ⟨_, -, rfl⟩ := map_eq_ok.mp stepped
    exact reported_of_same rfl rfl rfl rfl

end VoltProtocol.MorphoSystem
