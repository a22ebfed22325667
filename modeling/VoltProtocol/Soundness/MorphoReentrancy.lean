import VoltProtocol.Machine.Callback
import VoltProtocol.Machine.History
import VoltProtocol.Soundness.MorphoSystem

/-! # The ledger of a Morpho deposit, under callbacks

Every change of the record is logged: profits and losses by Harvest events for the token, supplies by
Deposit and withdrawals by Withdrawal. Between a change and its event the venue may call back, and the
record is then off the ledger by a fixed amount. A nested call leaves it off by that amount, whatever
it is, so that the event always makes up for it.
-/

namespace VoltProtocol.MorphoReentrancy

open Machine MorphoCompoundPCVDeposit MorphoSystem

variable {ω : Type}

/-! ### Callbacks -/

/-- One call of the deposit, or a change of the world. -/
def perform (contracts : Contracts ω) (f : Frame ω) : Call ω → Except Revert (Frame ω)
  | .environment world => .ok { f with world }
  | .deposit sender => f.deposit contracts sender
  | .harvest => f.harvest contracts
  | .accrue => Prod.fst <$> f.accrue contracts
  | .withdraw ctx recipient amount => f.withdraw contracts ctx recipient amount
  | .withdrawAll ctx recipient => f.withdrawAll contracts ctx recipient
  | .setPCVOracle ctx newOracle => f.setPCVOracle contracts ctx newOracle
  | .withdrawERC20 ctx token recipient amount => f.withdrawERC20 contracts ctx token recipient amount
  | .pause ctx => (fun c => { f with storage := { f.storage with toCoreRef := c } }) <$> f.storage.pause ctx
  | .unpause ctx => (fun c => { f with storage := { f.storage with toCoreRef := c } }) <$> f.storage.unpause ctx
  | .setContractAdminRole ctx role =>
    (fun c => { f with storage := { f.storage with toCoreRef := c } }) <$> f.storage.setContractAdminRole ctx role

/-- Without callbacks, a call performs as in `MorphoSystem`. -/
theorem perform_of_step {v : Venue ω} {s t : State ω} {call : Call ω} (stepped : MorphoSystem.step v s call = .ok t) :
    perform v.contracts s.toFrame call = .ok t.toFrame := by
  cases call with
  | environment world =>
    obtain rfl := Except.ok.inj stepped
    rfl
  | accrue | pause | unpause | setContractAdminRole =>
    obtain ⟨_, success, rfl⟩ := map_eq_ok.mp stepped
    exact map_eq_ok.mpr ⟨_, success, rfl⟩
  | deposit | harvest | withdraw | withdrawAll | setPCVOracle | withdrawERC20 =>
    obtain ⟨_, success, rfl⟩ := map_eq_ok.mp stepped
    exact success

/-- A Morpho whose functions are scripts that change the world and call the deposit at will. -/
structure Attacker (ω : Type) extends Ground ω where
  updateP2PIndexes : Frame ω → (cToken : Address) → Script (Frame ω) (Call ω) Unit
  supply : Frame ω → (sender cToken onBehalf : Address) → ℕ → Script (Frame ω) (Call ω) Unit
  withdraw : Frame ω → (sender cToken : Address) → ℕ → Script (Frame ω) (Call ω) Unit
  claimRewards : Frame ω → (sender cToken : Address) → (swapForMorpho : Bool) → Script (Frame ω) (Call ω) ℕ

namespace Attacker

variable (attacker : Attacker ω)

/-- The contracts around a deposit whose nested calls are those of `below`. -/
def contracts (below : Frame ω → Call ω → Except Revert (Frame ω)) : Contracts ω where
  toGround := attacker.toGround
  updateP2PIndexes f cToken := Prod.fst <$> (attacker.updateP2PIndexes f cToken).play below f
  supply f sender cToken onBehalf amount :=
    Prod.fst <$> (attacker.supply f sender cToken onBehalf amount).play below f
  withdraw f sender cToken amount := Prod.fst <$> (attacker.withdraw f sender cToken amount).play below f
  claimRewards f sender cToken swapForMorpho :=
    (attacker.claimRewards f sender cToken swapForMorpho).play below f

/-- A call under which calls nest to a depth. -/
def step (depth : ℕ) : Frame ω → Call ω → Except Revert (Frame ω) :=
  nested (fun below => perform (attacker.contracts below)) .callee depth

end Attacker

/-! ### The ledger -/

/-- The profit in the Harvest events for a token, less the losses. -/
def profits (token : Address) (logs : List Event) : ℤ :=
  (logs.map fun
    | .harvest harvested profit => if harvested = token then profit else 0
    | _ => 0).sum

/-- The sum of the Deposit amounts. -/
def deposits (logs : List Event) : ℕ :=
  (logs.map fun
    | .deposit _ amount => amount
    | _ => 0).sum

/-- The sum of the Withdrawal amounts. -/
def withdrawals (logs : List Event) : ℕ :=
  (logs.map fun
    | .withdrawal _ _ amount => amount
    | _ => 0).sum

/-- What an event adds to the ledger. -/
def worth (token : Address) (event : Event) : ℤ := profits token [event] + deposits [event] - withdrawals [event]

@[simp] theorem worth_deposit (token sender : Address) (amount : ℕ) : worth token (.deposit sender amount) = amount := by
  simp [worth, profits, deposits, withdrawals]

@[simp] theorem worth_withdrawal (token sender recipient : Address) (amount : ℕ) :
    worth token (.withdrawal sender recipient amount) = -amount := by
  simp [worth, profits, deposits, withdrawals]

@[simp] theorem worth_harvest (token harvested : Address) (profit : ℤ) :
    worth token (.harvest harvested profit) = if harvested = token then profit else 0 := by
  simp [worth, profits, deposits, withdrawals]

@[simp] theorem worth_pcvOracleUpdated (token oldOracle newOracle : Address) :
    worth token (.pcvOracleUpdated oldOracle newOracle) = 0 := rfl

@[simp] theorem worth_withdrawERC20 (token sender withdrawn recipient : Address) (amount : ℕ) :
    worth token (.withdrawERC20 sender withdrawn recipient amount) = 0 := rfl

/-- The record is off the ledger of the underlying token by an amount. -/
structure Off (token : Address) (off : ℤ) (f : Frame ω) : Prop where
  underlying : f.storage.token = token
  record : (f.storage.lastRecordedBalance : ℤ) =
    profits token f.logs + deposits f.logs - withdrawals f.logs + off

variable {token : Address} {d : ℤ} {f g : Frame ω} {contracts : Contracts ω} {sender recipient oracle : Address}
  {amount : ℕ} {ctx : Context}

namespace Off

/-- What neither the record nor the events depend on. -/
theorem congr (off : Off token d f) (storage : g.storage.token = f.storage.token)
    (record : g.storage.lastRecordedBalance = f.storage.lastRecordedBalance) (logs : g.logs = f.logs) :
    Off token d g where
  underlying := storage.trans off.underlying
  record := by rw [record, logs, off.record]

theorem emit (off : Off token d f) (event : Event) : Off token (d - worth token event) (f.emit event) where
  underlying := off.underlying
  record := by
    have before := off.record
    simp only [Frame.emit, profits, deposits, withdrawals, worth, List.map_append, List.sum_append, Nat.cast_add]
      at before ⊢
    linarith

theorem write (off : Off token d f) (balance : ℕ) :
    Off token (d + (balance - f.storage.lastRecordedBalance)) (f.record balance) where
  underlying := off.underlying
  record := by
    have before := off.record
    simp only [Frame.record]
    linarith

end Off

/-! ### One call -/

/-- The venue leaves the record off by as much as it was. -/
structure Keeps (token : Address) (contracts : Contracts ω) : Prop where
  updateP2PIndexes : ∀ d f g cToken, contracts.updateP2PIndexes f cToken = some g → Off token d f → Off token d g
  supply : ∀ d f g sender cToken onBehalf amount,
    contracts.supply f sender cToken onBehalf amount = some g → Off token d f → Off token d g
  withdraw : ∀ d f g sender cToken amount,
    contracts.withdraw f sender cToken amount = some g → Off token d f → Off token d g
  claimRewards : ∀ d f g sender cToken swapForMorpho amount,
    contracts.claimRewards f sender cToken swapForMorpho = some (g, amount) → Off token d f → Off token d g

theorem report_off {starting ending : ℤ} (off : Off token d f) (success : f.report starting ending = .ok g) :
    Off token d g := by
  obtain rfl := Frame.report_spec success
  exact off.congr rfl rfl rfl

theorem recordProfit_off (off : Off token d f) (success : f.recordProfit amount = .ok g) : Off token d g := by
  rw [Frame.recordProfit] at success
  split_ifs at success with empty
  · exact pure_eq_ok.mp success ▸ off
  · simp only [bind_eq_ok, toInt256_eq_ok, int_eq_ok, pure_eq_ok] at success
    obtain ⟨_, ⟨-, rfl⟩, _, ⟨-, rfl⟩, profit, ⟨-, rfl⟩, rfl⟩ := success
    have logged := (off.write amount).emit (.harvest f.storage.token (amount - f.storage.lastRecordedBalance))
    rwa [worth_harvest, if_pos off.underlying, add_sub_cancel_right] at logged

theorem nonReentrant_off {body : Frame ω → Except Revert (Frame ω)} (off : Off token d f)
    (inside : ∀ f g, Off token d f → body f = .ok g → Off token d g) (success : f.nonReentrant body = .ok g) :
    Off token d g := by
  obtain ⟨-, done, finished, rfl⟩ := Frame.nonReentrant_eq_ok.mp success
  exact (inside (f.lock true) done (off.congr rfl rfl rfl) finished).congr rfl rfl rfl

theorem withdrawERC20_off {sent : Address} (off : Off token d f)
    (success : f.withdrawERC20 contracts ctx sent recipient amount = .ok g) : Off token d g := by
  simp only [Frame.withdrawERC20, bind_eq_ok, pure_eq_ok] at success
  obtain ⟨_, -, world, -, rfl⟩ := success
  have logged := off.emit (.withdrawERC20 ctx.sender sent recipient amount)
  rw [worth_withdrawERC20, sub_zero] at logged
  exact logged.congr rfl rfl rfl

section Venue

variable (keeps : Keeps token contracts)
include keeps

theorem recordPNL_off (off : Off token d f) (success : f.recordPNL contracts = .ok g) : Off token d g := by
  simp only [Frame.recordPNL, bind_eq_ok, external_eq_ok] at success
  obtain ⟨accrued, updated, current, -, recorded⟩ := success
  exact recordProfit_off (keeps.updateP2PIndexes _ _ _ _ updated off) recorded

theorem supplyHeld_off (off : Off token d f) (success : f.supplyHeld contracts sender amount = .ok g) :
    Off token d g := by
  simp only [Frame.supplyHeld, bind_eq_ok, toInt256_eq_ok, uint_eq_ok, external_eq_ok, pure_eq_ok] at success
  obtain ⟨_, -, recorded, recording, raised, ⟨-, rfl⟩, world, -, supplied, supplying, _, -, _, -, reported,
    reporting, rfl⟩ := success
  have before := recordPNL_off keeps off recording
  have ahead := before.write (recorded.storage.lastRecordedBalance + amount)
  rw [Nat.cast_add, add_sub_cancel_left] at ahead
  -- The record is ahead of the ledger by the amount until the event is emitted.
  have after := keeps.supply _ _ _ _ _ _ _ supplying (ahead.congr rfl rfl rfl)
  have logged := (report_off after reporting).emit (.deposit sender amount)
  rwa [worth_deposit, add_sub_cancel_right] at logged

theorem withdrawRecorded_off (off : Off token d f)
    (success : f.withdrawRecorded contracts sender recipient amount = .ok g) : Off token d g := by
  simp only [Frame.withdrawRecorded, bind_eq_ok, checkedSub_eq_ok, external_eq_ok, pure_eq_ok] at success
  obtain ⟨_, ⟨within, rfl⟩, freed, freeing, world, -, rfl⟩ := success
  have behind := off.write (f.storage.lastRecordedBalance - amount)
  rw [Nat.cast_sub within, sub_sub_cancel_left] at behind
  -- The record is behind the ledger by the amount until the event is emitted.
  have after := keeps.withdraw _ _ _ _ _ _ freeing behind
  have logged := (after.congr (g := { freed with world }) rfl rfl rfl).emit (.withdrawal sender recipient amount)
  rwa [worth_withdrawal, sub_neg_eq_add, neg_add_cancel_right] at logged

theorem deposit_off (off : Off token d f) (success : f.deposit contracts sender = .ok g) : Off token d g := by
  obtain ⟨_, -, entered⟩ := bind_eq_ok.mp success
  refine nonReentrant_off off ?_ entered
  intro f g off body
  obtain ⟨amount, -, supplied⟩ := bind_eq_ok.mp body
  split_ifs at supplied with nothing
  · exact pure_eq_ok.mp supplied ▸ off
  · exact supplyHeld_off keeps off supplied

theorem harvest_off (other : token ≠ COMP) (off : Off token d f) (success : f.harvest contracts = .ok g) :
    Off token d g := by
  simp only [Frame.harvest, bind_eq_ok, external_eq_ok, pure_eq_ok, Prod.exists] at success
  obtain ⟨claimed, amount, claiming, rfl⟩ := success
  have logged := (keeps.claimRewards _ _ _ _ _ _ _ claiming off).emit (.harvest COMP (wrapInt256 amount))
  rwa [worth_harvest, if_neg other.symm, sub_zero] at logged

theorem accrue_off {result : ℕ} (off : Off token d f) (success : f.accrue contracts = .ok (g, result)) :
    Off token d g := by
  simp only [Frame.accrue, bind_eq_ok, pure_eq_ok, Prod.mk.injEq] at success
  obtain ⟨done, entered, rfl, -⟩ := success
  refine nonReentrant_off off ?_ entered
  intro f g off body
  simp only [Frame.recordAndReport, bind_eq_ok] at body
  obtain ⟨_, -, _, -, recorded, recording, _, -, reporting⟩ := body
  exact report_off (recordPNL_off keeps off recording) reporting

theorem withdraw_off (off : Off token d f) (success : f.withdraw contracts ctx recipient amount = .ok g) :
    Off token d g := by
  obtain ⟨_, -, entered⟩ := bind_eq_ok.mp success
  refine nonReentrant_off off ?_ entered
  intro f g off body
  simp only [Frame.withdrawInternal, if_true, bind_eq_ok] at body
  obtain ⟨_, -, withdrawn, ⟨recorded, recording, withdrawing⟩, _, -, reporting⟩ := body
  exact report_off (withdrawRecorded_off keeps (recordPNL_off keeps off recording) withdrawing) reporting

theorem withdrawAll_off (off : Off token d f) (success : f.withdrawAll contracts ctx recipient = .ok g) :
    Off token d g := by
  obtain ⟨_, -, entered⟩ := bind_eq_ok.mp success
  refine nonReentrant_off off ?_ entered
  intro f g off body
  simp only [Frame.withdrawInternal, Bool.false_eq_true, if_false, bind_eq_ok] at body
  obtain ⟨_, -, recorded, recording, withdrawn, withdrawing, _, -, reporting⟩ := body
  exact report_off (withdrawRecorded_off keeps (recordPNL_off keeps off recording) withdrawing) reporting

theorem setPCVOracle_off (off : Off token d f) (success : f.setPCVOracle contracts ctx oracle = .ok g) :
    Off token d g := by
  simp only [Frame.setPCVOracle, bind_eq_ok, pure_eq_ok] at success
  obtain ⟨_, -, recorded, recording, _, -, updated, updating, rfl⟩ := success
  obtain ⟨-, rfl⟩ := Frame.updateLiquidBalance_spec updating
  have pointed : Off token d { f with storage := { f.storage with pcvOracle := oracle } } := off.congr rfl rfl rfl
  have before := recordPNL_off keeps pointed recording
  have logged := before.emit (.pcvOracleUpdated f.storage.pcvOracle oracle)
  rw [worth_pcvOracleUpdated, sub_zero] at logged
  exact logged.congr rfl rfl rfl

/-- Every call keeps the record off by as much as it was. -/
theorem perform_preserves (other : token ≠ COMP) (d : ℤ) : Preserves (perform contracts) (Off token d) := by
  intro f call g success off
  cases call with
  | environment world =>
    obtain rfl := Except.ok.inj success
    exact off.congr rfl rfl rfl
  | deposit sender => exact deposit_off keeps off success
  | harvest => exact harvest_off keeps other off success
  | accrue =>
    obtain ⟨⟨g, result⟩, accrued, rfl⟩ := map_eq_ok.mp success
    exact accrue_off keeps off accrued
  | withdraw ctx recipient amount => exact withdraw_off keeps off success
  | withdrawAll ctx recipient => exact withdrawAll_off keeps off success
  | setPCVOracle ctx newOracle => exact setPCVOracle_off keeps off success
  | withdrawERC20 ctx sent recipient amount => exact withdrawERC20_off off success
  | pause | unpause | setContractAdminRole =>
    obtain ⟨_, -, rfl⟩ := map_eq_ok.mp success
    exact off.congr rfl rfl rfl

end Venue

/-! ### Nested calls -/

/-- A venue keeps what the calls it nests keep. -/
theorem keeps_of_preserves {below : Frame ω → Call ω → Except Revert (Frame ω)} (attacker : Attacker ω)
    (preserves : ∀ d, Preserves below (Off token d)) : Keeps token (attacker.contracts below) := by
  have played {ρ : Type} {script : Script (Frame ω) (Call ω) ρ} {d : ℤ} {f g : Frame ω}
      (success : Prod.fst <$> script.play below f = some g) (off : Off token d f) : Off token d g := by
    obtain ⟨⟨_, result⟩, played, rfl⟩ := Option.map_eq_some_iff.mp success
    exact Script.play_preserves (preserves d) off played
  exact
    { updateP2PIndexes := fun _ _ _ _ success off => played success off
      supply := fun _ _ _ _ _ _ _ success off => played success off
      withdraw := fun _ _ _ _ _ _ success off => played success off
      claimRewards := fun d _ _ _ _ _ _ success off => Script.play_preserves (preserves d) off success }

theorem step_preserves (other : token ≠ COMP) (attacker : Attacker ω) :
    ∀ depth d, Preserves (attacker.step depth) (Off token d) :=
  nested_preserves fun _ preserves => perform_preserves (keeps_of_preserves attacker preserves) other

/-- A freshly deployed deposit in any world, with nothing logged. -/
def Initial (f : Frame ω) : Prop :=
  (∃ WETH self morpho token cToken underlying,
    MorphoCompoundPCVDeposit.deploy WETH self morpho token cToken underlying = .ok f.storage) ∧ f.logs = []

theorem off_of_initial (initial : Initial f) : Off f.storage.token 0 f := by
  obtain ⟨⟨WETH, self, morpho, token, cToken, underlying, deployed⟩, logs⟩ := initial
  simp only [deploy, bind_eq_ok, pure_eq_ok] at deployed
  obtain ⟨_, -, same⟩ := deployed
  refine ⟨rfl, ?_⟩
  rw [logs, ← same]
  rfl

/-- Whatever the venue reports and however it calls back, after each call the record is the sum of the
profits and the deposits less the withdrawals that were logged. -/
theorem record_eq_ledger (initial : Initial f) (other : f.storage.token ≠ COMP) (attacker : Attacker ω)
    (depth : ℕ) (calls : List (Call ω)) :
    let g := attempts (attacker.step depth) f calls
    (g.storage.lastRecordedBalance : ℤ) = profits f.storage.token g.logs + deposits g.logs - withdrawals g.logs := by
  intro g
  have allowed : ∀ call ∈ calls, True := fun _ _ => trivial
  have final : Off f.storage.token 0 g := attempts_invariant
    (fun state call next _ off stepped => step_preserves other attacker depth 0 state call next stepped off)
    allowed (off_of_initial initial)
  rw [final.record, add_zero]

/-- `MockMorphoMaliciousReentrancy`, except that it goes on when a call back fails, keeps balances like
`MockMorpho`, credits the deposit with interest on every update, and calls back on a claim. -/
def insistent : Attacker MockMorpho where
  toGround := (mockMorpho 6 30 0).toGround
  updateP2PIndexes f _ :=
    .call (.environment { f.world with balances := Ledger.credit f.world.balances f.storage.self 5 }) fun _ =>
      .call .accrue fun _ => .stop ()
  supply f sender cToken onBehalf amount :=
    .call (.deposit 30) fun after =>
      match (mockMorpho 6 30 0).supply (after.getD f).world sender cToken onBehalf amount with
      | some world => .call (.environment world) fun _ => .stop ()
      | none => .revert
  withdraw f sender cToken amount :=
    .call .accrue fun after =>
      match (mockMorpho 6 30 0).withdraw (after.getD f).world sender cToken amount with
      | some world => .call (.environment world) fun _ => .stop ()
      | none => .revert
  claimRewards _ _ _ _ := .call (.deposit 30) fun _ => .stop 3

/-- A claim and a new PCV oracle, in which calls back succeed, and two calls that hold the lock. -/
def transactions : List (Call MockMorpho) :=
  [.harvest, .setPCVOracle (Context.withRoles 1 [.governor]) 77, .accrue,
    .withdraw (Context.withRoles 2 [.pcvController]) 9 40]

theorem record_eq_ledger_insistent :
    let g := attempts (insistent.step 3) fresh.toFrame transactions
    (g.storage.lastRecordedBalance : ℤ) = profits 6 g.logs + deposits g.logs - withdrawals g.logs ∧
      profits 6 g.logs = 25 ∧ deposits g.logs = 100 ∧ withdrawals g.logs = 40 :=
  ⟨record_eq_ledger ⟨fresh_initial.1, rfl⟩ (by decide) insistent 3 transactions, by decide +kernel⟩

end VoltProtocol.MorphoReentrancy
