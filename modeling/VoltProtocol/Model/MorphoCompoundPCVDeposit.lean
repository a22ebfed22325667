import VoltProtocol.ToMathlib.Ledger
import VoltProtocol.Model.CoreRef

/-! # MorphoCompoundPCVDeposit, a PCV deposit on a lending market

The deposit records the balance it last saw at the venue and reports every change of that record to a
PCV oracle, which adds up what is reported to it. A call executes on a `Frame`: the storage of the
deposit, the totals of the oracles, the events so far and the world outside. A venue may act on the
whole frame, as it does when it calls back into the deposit; a `Venue` only acts on the world.
-/

namespace VoltProtocol

structure MorphoCompoundPCVDeposit extends CoreRef where
  self : Address
  morpho : Address
  token : Address
  cToken : Address
  lastRecordedBalance : ℕ
  pcvOracle : Address
  /-- The lock of ReentrancyGuard. -/
  entered : Bool
deriving DecidableEq, Repr

namespace MorphoCompoundPCVDeposit

/-- The address of the COMP token. -/
def COMP : Address := 0xc00e94Cb662C3520282E6f5717214004A7f26888

inductive Event where
  | pcvOracleUpdated (oldOracle newOracle : Address)
  | harvest (token : Address) (profit : ℤ)
  | deposit (sender : Address) (amount : ℕ)
  | withdrawal (sender recipient : Address) (amount : ℕ)
  | withdrawERC20 (sender token recipient : Address) (amount : ℕ)
deriving DecidableEq, Repr

/-- What a call reads and writes. `pcvAmount` is the total of each PCV oracle. -/
structure Frame (ω : Type) where
  storage : MorphoCompoundPCVDeposit
  world : ω
  pcvAmount : Address → ℤ
  logs : List Event

/-- The calls that never enter the deposit: ERC20 tokens, and the view of the Morpho lens. -/
structure Ground (ω : Type) where
  balanceOf : ω → (token account : Address) → Option ℕ
  approve : ω → (token sender spender : Address) → ℕ → Option ω
  transfer : ω → (token sender recipient : Address) → ℕ → Option ω
  getCurrentSupplyBalanceInOf : ω → (cToken account : Address) → Option ℕ

/-- The contracts around a deposit, with a Morpho that may call back. -/
structure Contracts (ω : Type) extends Ground ω where
  updateP2PIndexes : Frame ω → (cToken : Address) → Option (Frame ω)
  supply : Frame ω → (sender cToken onBehalf : Address) → ℕ → Option (Frame ω)
  withdraw : Frame ω → (sender cToken : Address) → ℕ → Option (Frame ω)
  claimRewards : Frame ω → (sender cToken : Address) → (swapForMorpho : Bool) → Option (Frame ω × ℕ)

/-- A Morpho that acts on the world alone. -/
structure Venue (ω : Type) extends Ground ω where
  updateP2PIndexes : ω → (cToken : Address) → Option ω
  supply : ω → (sender cToken onBehalf : Address) → ℕ → Option ω
  withdraw : ω → (sender cToken : Address) → ℕ → Option ω
  claimRewards : ω → (sender cToken : Address) → (swapForMorpho : Bool) → Option (ω × ℕ)

/-- A venue makes no callbacks. -/
def Venue.contracts {ω : Type} (v : Venue ω) : Contracts ω where
  toGround := v.toGround
  updateP2PIndexes f cToken := do
    let world ← v.updateP2PIndexes f.world cToken
    return { f with world }
  supply f sender cToken onBehalf amount := do
    let world ← v.supply f.world sender cToken onBehalf amount
    return { f with world }
  withdraw f sender cToken amount := do
    let world ← v.withdraw f.world sender cToken amount
    return { f with world }
  claimRewards f sender cToken swapForMorpho := do
    let (world, claimed) ← v.claimRewards f.world sender cToken swapForMorpho
    return ({ f with world }, claimed)

/-- The tokens everyone holds and the balances kept by `MockMorpho`. -/
structure MockMorpho where
  held : Address → Address → ℕ
  balances : Address → ℕ

/-- `MockMorpho`, except that it credits each supply short by a fixed amount. All approvals were given. -/
def mockMorpho (token morpho : Address) (short : ℕ) : Venue MockMorpho where
  balanceOf w token account := some (w.held token account)
  approve w _ _ _ _ := some w
  transfer w token sender recipient amount :=
    if amount ≤ w.held token sender then
      some { w with held := Ledger.moveIn w.held token sender recipient amount }
    else none
  getCurrentSupplyBalanceInOf w _ account := some (w.balances account)
  updateP2PIndexes w _ := some w
  supply w sender _ recipient amount :=
    if amount ≤ w.held token sender then
      some { held := Ledger.moveIn w.held token sender morpho amount
             balances := Ledger.credit w.balances recipient (amount - short) }
    else none
  withdraw w sender _ amount :=
    if amount ≤ w.balances sender ∧ amount ≤ w.held token morpho then
      some { held := Ledger.moveIn w.held token morpho sender amount
             balances := Ledger.debit w.balances sender amount }
    else none
  claimRewards w _ _ _ := some (w, 0)

/-- The explicit conversion `int256(value)`. -/
def wrapInt256 (value : ℕ) : ℤ := if value < 2 ^ 255 then value else value - 2 ^ 256

namespace Frame

variable {ω : Type} (contracts : Contracts ω) (f : Frame ω)

/-! ### Helpers -/

def emit (event : Event) : Frame ω := { f with logs := f.logs ++ [event] }

def lock (entered : Bool) : Frame ω := { f with storage := { f.storage with entered } }

def record (lastRecordedBalance : ℕ) : Frame ω :=
  { f with storage := { f.storage with lastRecordedBalance } }

/-- The modifier of ReentrancyGuard. -/
def nonReentrant (body : Frame ω → Except Revert (Frame ω)) : Except Revert (Frame ω) := do
  require (!f.storage.entered) "ReentrancyGuard: reentrant call"
  let done ← body (f.lock true)
  return done.lock false

/-- The hook of a PCV oracle, which adds up the deltas. There is no contract at the zero address. -/
def updateLiquidBalance (oracle : Address) (pcvDelta : ℤ) : Except Revert (Frame ω) := do
  require (oracle ≠ 0) ""
  let total ← int 256 (f.pcvAmount oracle + pcvDelta)
  return { f with pcvAmount := Function.update f.pcvAmount oracle total }

/-- The report at the end of a call, if an oracle is set. -/
def report (startingRecordedBalance endingRecordedBalance : ℤ) : Except Revert (Frame ω) :=
  if f.storage.pcvOracle ≠ 0 then do
    let pcvDelta ← int 256 (endingRecordedBalance - startingRecordedBalance)
    f.updateLiquidBalance f.storage.pcvOracle pcvDelta
  else
    return f

def balance : Except Revert ℕ :=
  external (contracts.getCurrentSupplyBalanceInOf f.world f.storage.cToken f.storage.self)

def balanceReportedIn : Address := f.storage.token

def resistantBalanceAndVolt : Except Revert (ℕ × ℕ) := do
  let held ← f.balance contracts
  return (held, 0)

/-- The second half of `_recordPNL`, after the indexes are updated. -/
def recordProfit (currentBalance : ℕ) : Except Revert (Frame ω) :=
  if currentBalance = 0 ∧ f.storage.lastRecordedBalance = 0 then
    return f
  else do
    let current ← toInt256 currentBalance
    let last ← toInt256 f.storage.lastRecordedBalance
    let profit ← int 256 (current - last)
    return (f.record currentBalance).emit (.harvest f.storage.token profit)

/-- `_recordPNL` -/
def recordPNL : Except Revert (Frame ω) := do
  let accrued ← external (contracts.updateP2PIndexes f f.storage.cToken)
  let currentBalance ← accrued.balance contracts
  accrued.recordProfit currentBalance

/-! ### Permissionless calls -/

/-- Supply an amount the deposit holds. -/
def supplyHeld (sender : Address) (amount : ℕ) : Except Revert (Frame ω) := do
  let startingRecordedBalance ← toInt256 f.storage.lastRecordedBalance
  let recorded ← f.recordPNL contracts
  let raised ← uint 256 (recorded.storage.lastRecordedBalance + amount)
  let world ← external (contracts.approve recorded.world f.storage.token f.storage.self f.storage.morpho amount)
  let supplied ← external (contracts.supply { recorded.record raised with world } f.storage.self
    f.storage.cToken f.storage.self amount)
  let endingRecordedBalance ← toInt256 (← supplied.balance contracts)
  let reported ← supplied.report startingRecordedBalance endingRecordedBalance
  return reported.emit (.deposit sender amount)

def deposit (sender : Address) : Except Revert (Frame ω) := do
  f.storage.whenNotPaused
  f.nonReentrant fun f => do
    let amount ← external (contracts.balanceOf f.world f.storage.token f.storage.self)
    if amount = 0 then
      return f
    else
      f.supplyHeld contracts sender amount

def harvest : Except Revert (Frame ω) := do
  let (claimed, amount) ← external (contracts.claimRewards f f.storage.self f.storage.cToken false)
  return claimed.emit (.harvest COMP (wrapInt256 amount))

/-- Record the balance and report the change. -/
def recordAndReport : Except Revert (Frame ω) := do
  let startingRecordedBalance ← toInt256 f.storage.lastRecordedBalance
  let recorded ← f.recordPNL contracts
  let endingRecordedBalance ← toInt256 recorded.storage.lastRecordedBalance
  recorded.report startingRecordedBalance endingRecordedBalance

def accrue : Except Revert (Frame ω × ℕ) := do
  let done ← f.nonReentrant fun f => do
    f.storage.whenNotPaused
    f.recordAndReport contracts
  return (done, done.storage.lastRecordedBalance)

/-! ### Permissioned calls -/

/-- `_withdraw` after the profit is recorded, if it is. -/
def withdrawRecorded (sender recipient : Address) (amount : ℕ) : Except Revert (Frame ω) := do
  let lastRecordedBalance ← checkedSub f.storage.lastRecordedBalance amount
  let freed ← external (contracts.withdraw (f.record lastRecordedBalance) f.storage.self f.storage.cToken amount)
  let world ← external (contracts.transfer freed.world f.storage.token f.storage.self recipient amount)
  return { freed with world }.emit (.withdrawal sender recipient amount)

/-- `_withdraw` -/
def withdrawInternal (sender recipient : Address) (amount : ℕ) (recordPnl : Bool) :
    Except Revert (Frame ω) :=
  if recordPnl then do
    let recorded ← f.recordPNL contracts
    recorded.withdrawRecorded contracts sender recipient amount
  else
    f.withdrawRecorded contracts sender recipient amount

def withdraw (ctx : Context) (recipient : Address) (amount : ℕ) : Except Revert (Frame ω) := do
  ctx.onlyPCVController
  f.nonReentrant fun f => do
    let startingRecordedBalance ← toInt256 f.storage.lastRecordedBalance
    let withdrawn ← f.withdrawInternal contracts ctx.sender recipient amount true
    let endingRecordedBalance ← toInt256 withdrawn.storage.lastRecordedBalance
    withdrawn.report startingRecordedBalance endingRecordedBalance

def withdrawAll (ctx : Context) (recipient : Address) : Except Revert (Frame ω) := do
  ctx.onlyPCVController
  f.nonReentrant fun f => do
    let startingRecordedBalance ← toInt256 f.storage.lastRecordedBalance
    let recorded ← f.recordPNL contracts
    let withdrawn ← recorded.withdrawInternal contracts ctx.sender recipient
      recorded.storage.lastRecordedBalance false
    let endingRecordedBalance ← toInt256 withdrawn.storage.lastRecordedBalance
    withdrawn.report startingRecordedBalance endingRecordedBalance

def setPCVOracle (ctx : Context) (newOracle : Address) : Except Revert (Frame ω) := do
  ctx.onlyGovernor
  let oldOracle := f.storage.pcvOracle
  let recorded ← { f with storage := { f.storage with pcvOracle := newOracle } }.recordPNL contracts
  let lastRecordedBalance ← toInt256 recorded.storage.lastRecordedBalance
  let updated ← recorded.updateLiquidBalance recorded.storage.pcvOracle lastRecordedBalance
  return updated.emit (.pcvOracleUpdated oldOracle newOracle)

/-- `withdrawERC20` of PCVDeposit -/
def withdrawERC20 (ctx : Context) (token recipient : Address) (amount : ℕ) : Except Revert (Frame ω) := do
  ctx.onlyPCVController
  let world ← external (contracts.transfer f.world token f.storage.self recipient amount)
  return { f with world }.emit (.withdrawERC20 ctx.sender token recipient amount)

/-! ### What a call does to the record and the totals -/

/-- The totals after a report to an oracle, if one is set. -/
def reportTo (amounts : Address → ℤ) (oracle : Address) (pcvDelta : ℤ) : Address → ℤ :=
  if oracle = 0 then amounts else Ledger.credit amounts oracle pcvDelta

@[simp] theorem reportTo_zero (amounts : Address → ℤ) (oracle : Address) : reportTo amounts oracle 0 = amounts := by
  rw [reportTo, Ledger.credit, add_zero, Function.update_eq_self, ite_self]

/-- What a call other than `setPCVOracle` does: it writes nothing but the record, and reports its
change up to an error. -/
structure Reports (f g : Frame ω) (error : ℤ) : Prop where
  storage : g.storage = { f.storage with lastRecordedBalance := g.storage.lastRecordedBalance }
  reported : g.pcvAmount = reportTo f.pcvAmount f.storage.pcvOracle
    ((g.storage.lastRecordedBalance : ℤ) - f.storage.lastRecordedBalance + error)

/-- What a venue credits for the supply that a deposit makes, when there is something to supply. -/
def credited (v : Venue ω) (amount : ℕ) : Option ℤ := do
  let accrued ← v.updateP2PIndexes f.world f.storage.cToken
  let before ← v.getCurrentSupplyBalanceInOf accrued f.storage.cToken f.storage.self
  let approved ← v.approve accrued f.storage.token f.storage.self f.storage.morpho amount
  let supplied ← v.supply approved f.storage.self f.storage.cToken f.storage.self amount
  let after ← v.getCurrentSupplyBalanceInOf supplied f.storage.cToken f.storage.self
  return (after : ℤ) - before

/-- How far the supply of a deposit made in this frame is credited off the amount supplied. -/
def creditError (v : Venue ω) : ℤ :=
  match v.balanceOf f.world f.storage.token f.storage.self with
  | some (amount + 1) => (f.credited v (amount + 1)).elim 0 (· - (amount + 1))
  | _ => 0

section Specs

variable {f} {g : Frame ω} {v : Venue ω} {oracle sender recipient : Address} {amount : ℕ} {ctx : Context}

theorem nonReentrant_eq_ok {body : Frame ω → Except Revert (Frame ω)} : f.nonReentrant body = .ok g ↔
    f.storage.entered = false ∧ ∃ done, body (f.lock true) = .ok done ∧ done.lock false = g := by
  simp only [nonReentrant, bind_eq_ok, require_eq_ok, pure_eq_ok, Bool.not_eq_true', exists_const]

/-- A call made under the lock and released. -/
theorem Reports.unlock {error : ℤ} (reports : Reports (f.lock true) g error)
    (unlocked : f.storage.entered = false) : Reports f (g.lock false) error where
  storage := by
    have same := reports.storage
    simp only [lock] at same ⊢
    rw [same, ← unlocked]
  reported := reports.reported

theorem updateLiquidBalance_spec {pcvDelta : ℤ} (success : f.updateLiquidBalance oracle pcvDelta = .ok g) :
    oracle ≠ 0 ∧ g = { f with pcvAmount := Ledger.credit f.pcvAmount oracle pcvDelta } := by
  simp only [updateLiquidBalance, bind_eq_ok, require_eq_ok, int_eq_ok, pure_eq_ok] at success
  obtain ⟨_, present, _, ⟨-, rfl⟩, rfl⟩ := success
  exact ⟨present, rfl⟩

theorem report_spec {starting ending : ℤ} (success : f.report starting ending = .ok g) :
    g = { f with pcvAmount := reportTo f.pcvAmount f.storage.pcvOracle (ending - starting) } := by
  rw [report] at success
  split_ifs at success with set
  · simp only [bind_eq_ok, int_eq_ok] at success
    obtain ⟨_, ⟨-, rfl⟩, updated⟩ := success
    rw [(updateLiquidBalance_spec updated).2, reportTo, if_neg set]
  · rw [reportTo, if_pos (not_not.mp set)]
    exact (pure_eq_ok.mp success).symm

theorem recordProfit_spec (success : f.recordProfit amount = .ok g) :
    g.storage = { f.storage with lastRecordedBalance := amount } ∧ g.world = f.world ∧
      g.pcvAmount = f.pcvAmount := by
  rw [recordProfit] at success
  split_ifs at success with empty
  · obtain rfl := pure_eq_ok.mp success
    refine ⟨?_, rfl, rfl⟩
    rw [empty.1, ← empty.2]
  · simp only [bind_eq_ok, pure_eq_ok] at success
    obtain ⟨_, -, _, -, _, -, rfl⟩ := success
    exact ⟨rfl, rfl, rfl⟩

/-- The record becomes the balance that the venue reports after it updated its indexes. -/
theorem recordPNL_spec (success : f.recordPNL v.contracts = .ok g) :
    ∃ current, v.updateP2PIndexes f.world f.storage.cToken = some g.world ∧
      v.getCurrentSupplyBalanceInOf g.world f.storage.cToken f.storage.self = some current ∧
      g.storage = { f.storage with lastRecordedBalance := current } ∧ g.pcvAmount = f.pcvAmount := by
  simp only [recordPNL, balance, Venue.contracts, bind_eq_ok, external_eq_ok, Option.bind_eq_bind,
    Option.bind_eq_some_iff, Option.pure_def, Option.some.injEq] at success
  obtain ⟨_, ⟨world, updated, rfl⟩, current, read, recorded⟩ := success
  obtain ⟨storage, same, amounts⟩ := recordProfit_spec recorded
  exact ⟨current, same ▸ updated, same ▸ read, storage, amounts⟩

theorem recordAndReport_spec (success : f.recordAndReport v.contracts = .ok g) :
    Reports f g 0 ∧ g.balance v.contracts = .ok g.storage.lastRecordedBalance := by
  simp only [recordAndReport, bind_eq_ok, toInt256_eq_ok] at success
  obtain ⟨_, ⟨-, rfl⟩, recorded, recording, _, ⟨-, rfl⟩, reported⟩ := success
  obtain ⟨current, -, read, storage, amounts⟩ := recordPNL_spec recording
  obtain rfl := report_spec reported
  refine ⟨⟨?_, ?_⟩, ?_⟩
  · simp only [storage]
  · simp only [storage, amounts, add_zero]
  · simp only [balance, storage]
    exact external_eq_ok.mpr read

theorem accrue_spec {result : ℕ} (success : f.accrue v.contracts = .ok (g, result)) :
    Reports f g 0 ∧ g.balance v.contracts = .ok g.storage.lastRecordedBalance ∧
      result = g.storage.lastRecordedBalance := by
  simp only [accrue, bind_eq_ok, nonReentrant_eq_ok, pure_eq_ok, Prod.mk.injEq] at success
  obtain ⟨_, ⟨unlocked, done, ⟨_, -, recorded⟩, rfl⟩, rfl, rfl⟩ := success
  obtain ⟨reports, read⟩ := recordAndReport_spec recorded
  exact ⟨reports.unlock unlocked, read, rfl⟩

theorem supplyHeld_spec (success : f.supplyHeld v.contracts sender amount = .ok g) :
    ∃ error : ℤ, f.credited v amount = some (error + amount) ∧ Reports f g error := by
  simp only [supplyHeld, bind_eq_ok, toInt256_eq_ok, uint_eq_ok, external_eq_ok, pure_eq_ok] at success
  obtain ⟨_, ⟨-, rfl⟩, recorded, recording, raised, ⟨-, rfl⟩, approved, approving, supplied, supplying,
    after, read, _, ⟨-, rfl⟩, reported, reporting, rfl⟩ := success
  obtain ⟨before, accruing, readBefore, storage, amounts⟩ := recordPNL_spec recording
  simp only [Venue.contracts, Option.bind_eq_bind, Option.bind_eq_some_iff, Option.pure_def,
    Option.some.injEq] at supplying
  obtain ⟨world, supplying, rfl⟩ := supplying
  obtain rfl := report_spec reporting
  simp only [balance, record, storage, external_eq_ok] at read
  have credit : f.credited v amount = some ((after : ℤ) - before) := by
    simp only [credited, Option.bind_eq_bind, Option.bind_eq_some_iff, Option.pure_def]
    exact ⟨_, accruing, _, readBefore, _, approving, _, supplying, _, read, rfl⟩
  refine ⟨after - before - amount, ?_, ⟨?_, ?_⟩⟩
  · rw [credit, sub_add_cancel]
  · simp only [emit, record, storage]
  · simp only [emit, record, storage, amounts]
    congr 1
    push_cast
    ring

theorem deposit_spec (success : f.deposit v.contracts sender = .ok g) : Reports f g (f.creditError v) := by
  simp only [deposit, bind_eq_ok, nonReentrant_eq_ok, external_eq_ok] at success
  obtain ⟨_, -, unlocked, done, ⟨amount, held, supplied⟩, rfl⟩ := success
  have read : v.balanceOf f.world f.storage.token f.storage.self = some amount := held
  refine Reports.unlock ?_ unlocked
  split_ifs at supplied with nothing
  · obtain rfl := pure_eq_ok.mp supplied
    rw [creditError, read, nothing]
    exact ⟨rfl, by rw [sub_self, add_zero, reportTo_zero]⟩
  · obtain ⟨error, credit, reports⟩ := supplyHeld_spec supplied
    have same : f.credited v amount = some (error + amount) := credit
    obtain ⟨less, rfl⟩ := Nat.exists_eq_succ_of_ne_zero nothing
    rw [creditError, read]
    simp only [Nat.succ_eq_add_one] at same ⊢
    rw [same, Option.elim_some]
    simpa using reports

theorem withdrawRecorded_spec (success : f.withdrawRecorded v.contracts sender recipient amount = .ok g) :
    g.storage = { f.storage with lastRecordedBalance := f.storage.lastRecordedBalance - amount } ∧
      g.pcvAmount = f.pcvAmount := by
  simp only [withdrawRecorded, bind_eq_ok, checkedSub_eq_ok, external_eq_ok, pure_eq_ok,
    Venue.contracts, Option.bind_eq_bind, Option.bind_eq_some_iff, Option.pure_def,
    Option.some.injEq] at success
  obtain ⟨_, ⟨-, rfl⟩, _, ⟨world, -, rfl⟩, sent, -, rfl⟩ := success
  exact ⟨rfl, rfl⟩

/-- A call that ends in a report of the record it leaves. -/
private theorem reports_of_report {h : Frame ω} (storage : g.storage =
      { f.storage with lastRecordedBalance := g.storage.lastRecordedBalance })
    (amounts : g.pcvAmount = f.pcvAmount)
    (success : g.report f.storage.lastRecordedBalance g.storage.lastRecordedBalance = .ok h) :
    Reports f h 0 := by
  obtain rfl := report_spec success
  refine ⟨storage, ?_⟩
  rw [amounts, add_zero, storage]

theorem withdraw_spec (success : f.withdraw v.contracts ctx recipient amount = .ok g) : Reports f g 0 := by
  simp only [withdraw, withdrawInternal, if_true, bind_eq_ok, nonReentrant_eq_ok, toInt256_eq_ok] at success
  obtain ⟨_, -, unlocked, done, ⟨_, ⟨-, rfl⟩, withdrawn, ⟨recorded, recording, withdrawing⟩, _, ⟨-, rfl⟩,
    reporting⟩, rfl⟩ := success
  obtain ⟨current, -, -, storage, amounts⟩ := recordPNL_spec recording
  obtain ⟨final, same⟩ := withdrawRecorded_spec withdrawing
  refine (reports_of_report ?_ (same.trans amounts) reporting).unlock unlocked
  rw [final, storage]

theorem withdrawAll_spec (success : f.withdrawAll v.contracts ctx recipient = .ok g) : Reports f g 0 := by
  simp only [withdrawAll, withdrawInternal, Bool.false_eq_true, if_false, bind_eq_ok,
    nonReentrant_eq_ok, toInt256_eq_ok] at success
  obtain ⟨_, -, unlocked, done, ⟨_, ⟨-, rfl⟩, recorded, recording, withdrawn, withdrawing, _, ⟨-, rfl⟩,
    reporting⟩, rfl⟩ := success
  obtain ⟨current, -, -, storage, amounts⟩ := recordPNL_spec recording
  obtain ⟨final, same⟩ := withdrawRecorded_spec withdrawing
  refine (reports_of_report ?_ (same.trans amounts) reporting).unlock unlocked
  rw [final, storage]

/-- A new oracle is told the whole balance, and the old one nothing. -/
theorem setPCVOracle_spec (success : f.setPCVOracle v.contracts ctx oracle = .ok g) :
    oracle ≠ 0 ∧ g.storage =
        { f.storage with
          pcvOracle := oracle, lastRecordedBalance := g.storage.lastRecordedBalance } ∧
      g.pcvAmount = Ledger.credit f.pcvAmount oracle g.storage.lastRecordedBalance := by
  simp only [setPCVOracle, bind_eq_ok, toInt256_eq_ok, pure_eq_ok] at success
  obtain ⟨_, -, recorded, recording, _, ⟨-, rfl⟩, updated, updating, rfl⟩ := success
  obtain ⟨current, -, -, storage, amounts⟩ := recordPNL_spec recording
  obtain ⟨present, rfl⟩ := updateLiquidBalance_spec updating
  simp only [storage] at present
  refine ⟨present, ?_, ?_⟩
  · simp only [emit, storage]
  · simp only [emit, storage, amounts]

end Specs

end Frame

/-- The constructor, which compares the token of the market unless it is that of wrapped ether. -/
def deploy (WETH self morpho token cToken underlying : Address) : Except Revert MorphoCompoundPCVDeposit := do
  require (token = WETH ∨ underlying = token) "MorphoCompoundPCVDeposit: Underlying mismatch"
  return { CONTRACT_ADMIN_ROLE := .governor, paused := false, self, morpho, token, cToken,
           lastRecordedBalance := 0, pcvOracle := 0, entered := false }

end MorphoCompoundPCVDeposit

end VoltProtocol
