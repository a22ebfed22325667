import VoltProtocol.Machine.Reservoir
import VoltProtocol.Soundness.FixedPrice

/-! # The VOLT a PSM has minted over a run of trades

A PSM pays mints out of the VOLT it holds first, and what is redeemed or sent to it refills that
reservoir. So what it has minted over a run is what its first balance did not cover of the peak of the
net demand, and redeeming before every mint uses none of the buffer.
-/

namespace VoltProtocol.PeakDemand

open Machine PegStabilityModule PegStabilitySystem

variable {ω : Type}

/-- VOLT moves exactly as asked and only when asked: `balance` is what each account holds in a world. -/
structure ExactVolt (contracts : Contracts ω) (volt : Address) (balance : ω → Address → ℕ) : Prop where
  balanceOf {w : ω} {account : Address} {amount : ℕ}
    (read : contracts.balanceOf w volt account = some amount) : amount = balance w account
  update {w u : ω} {oracle : Address} (updated : contracts.update w oracle = some u) : balance u = balance w
  transfer {w u : ω} {sender recipient : Address} {amount : ℕ}
    (sent : contracts.transfer w volt sender recipient amount = some u) :
    amount ≤ balance w sender ∧ balance u = Ledger.move (balance w) sender recipient amount
  transferFrom {w u : ω} {sender owner recipient : Address} {amount : ℕ}
    (pulled : contracts.transferFrom w volt sender owner recipient amount = some u) :
    amount ≤ balance w owner ∧ balance u = Ledger.move (balance w) owner recipient amount
  mint {w u : ω} {sender account : Address} {amount : ℕ}
    (minted : contracts.mint w volt sender account amount = some u) :
    balance u = Ledger.credit (balance w) account amount
  otherTransfer {w u : ω} {token sender recipient : Address} {amount : ℕ} (other : token ≠ volt)
    (sent : contracts.transfer w token sender recipient amount = some u) : balance u = balance w
  otherTransferFrom {w u : ω} {token sender owner recipient : Address} {amount : ℕ} (other : token ≠ volt)
    (pulled : contracts.transferFrom w token sender owner recipient amount = some u) : balance u = balance w

/-- A call of the PSM, the passing of time, or VOLT sent to the PSM. -/
inductive Call (ω : Type) where
  | psm (call : PegStabilitySystem.Call ω)
  | sendVolt (sender : Address) (amount : ℕ)

def step (contracts : Contracts ω) (s : State ω) : Call ω → Except Revert (State ω)
  | .psm call => PegStabilitySystem.step contracts s call
  | .sendVolt sender amount =>
    s.move <$> external (contracts.transfer s.world s.psm.volt sender s.psm.self amount)

/-- The calls of a run of trades: mints to others, redemptions, VOLT sent to the PSM, the passing of time
and setters. -/
def Trades (self : Address) : Call ω → Prop
  | .psm (.mint _ recipient ..) => recipient ≠ self
  | .psm (.environment _) | .psm .allocateSurplus | .psm .deposit | .psm (.withdraw ..)
  | .psm (.withdrawERC20 ..) => False
  | _ => True

variable (contracts : Contracts ω)

/-- The VOLT a mint pays out, `amountFeiOut`. -/
def outflow (s : State ω) (call : Call ω) (_ : State ω) : ℤ :=
  match call with
  | .psm (.mint sender recipient amountIn minAmountOut) =>
    match s.psm.mint contracts s.now s.world sender recipient amountIn minAmountOut with
    | .ok o => o.amountOut
    | .error _ => 0
  | _ => 0

/-- The VOLT that enters the PSM; nothing enters that comes from it. -/
def inflow (s : State ω) (call : Call ω) (_ : State ω) : ℤ :=
  match call with
  | .psm (.redeem sender _ amountFeiIn _) => if sender = s.psm.self then 0 else amountFeiIn
  | .sendVolt sender amount => if sender = s.psm.self then 0 else amount
  | _ => 0

/-- What a call takes out of the VOLT the PSM holds, and more. -/
def demand (s : State ω) (call : Call ω) (t : State ω) : ℤ := outflow contracts s call t - inflow s call t

/-- The VOLT minted for a call, which is the amount of its call of VOLT's `mint` (`minted_of_step`). -/
def minted (_ : State ω) (_ : Call ω) (t : State ω) : ℤ := t.minted

/-- What a mint takes out of the buffer. -/
def taken (s : State ω) (call : Call ω) (t : State ω) : ℤ :=
  match call with
  | .psm (.mint ..) => s.psm.level s.now - t.psm.level t.now
  | _ => 0

/-- The VOLT that the PSM holds. -/
def level (balance : ω → Address → ℕ) (s : State ω) : ℤ := balance s.world s.psm.self

/-- A PSM at its addresses, whose limiter takes whole amounts. -/
structure Whole (account volt underlyingToken : Address) (s : State ω) : Prop where
  address : s.psm.self = account
  token : s.psm.volt = volt
  underlying : s.psm.underlyingToken = underlyingToken
  whole : s.psm.doPartialAction = false

/-! ### One call -/

section Steps

variable {contracts} {balance : ω → Address → ℕ} {self volt underlyingToken : Address} {s t : State ω}
  {call : Call ω}

/-- No call of the PSM allows partial mints. -/
theorem whole_of_step {call : PegStabilitySystem.Call ω} (whole : s.psm.doPartialAction = false)
    (stepped : PegStabilitySystem.step contracts s call = .ok t) : t.psm.doPartialAction = false := by
  cases call with
  | wait seconds =>
    obtain rfl := Except.ok.inj stepped
    exact whole
  | mint sender recipient amountIn minAmountOut =>
    obtain ⟨o, minting, rfl⟩ := map_eq_ok.mp stepped
    obtain ⟨-, ⟨same, -⟩ | ⟨amount, depleted⟩⟩ := mint_limiter minting
    · rw [State.commit, same]
      exact whole
    · exact (RateLimited.depleteBuffer_whole whole depleted).2
  | setRateLimitPerSecond ctx rate =>
    obtain ⟨limiter, set, rfl⟩ := map_eq_ok.mp stepped
    exact (RateLimited.setRateLimitPerSecond_whole set).trans whole
  | setBufferCap ctx cap =>
    obtain ⟨limiter, set, rfl⟩ := map_eq_ok.mp stepped
    exact (RateLimited.setBufferCap_whole set).trans whole
  | _ =>
    rw [(limiter_of_step rfl stepped).2.1]
    exact whole

/-- What a mint to another account does to the VOLT held, and what it has minted. -/
theorem mint_demand {sender recipient : Address} {amountIn minAmountOut : ℕ} {o : Outcome ω}
    (exact : ExactVolt contracts s.psm.volt balance) (distinct : s.psm.underlyingToken ≠ s.psm.volt)
    (whole : s.psm.doPartialAction = false) (other : recipient ≠ s.psm.self)
    (minting : s.psm.mint contracts s.now s.world sender recipient amountIn minAmountOut = .ok o) :
    o.minted = o.amountOut - balance s.world s.psm.self ∧
      balance o.world s.psm.self = balance s.world s.psm.self - o.amountOut := by
  obtain ⟨updated, paid, held, sent, updating, -, pulled, read, sending, outcome⟩ := mint_spec minting
  have before : balance paid = balance s.world := by
    rw [exact.otherTransferFrom distinct pulled, exact.update updating]
  obtain rfl : held = balance s.world s.psm.self := by rw [exact.balanceOf read, before]
  have left : balance sent s.psm.self = balance s.world s.psm.self - o.amountOut := by
    obtain ⟨none, rfl⟩ | moved := sendHeldVolt_spec sending
    · rw [before]
      omega
    · obtain ⟨-, moved⟩ := exact.transfer moved
      rw [moved, Ledger.move_source other.symm, before]
      omega
  obtain ⟨-, unminted, rfl, covered⟩ | ⟨limiter, depleted, -, outcome⟩ := outcome
  · exact ⟨by omega, left⟩
  · obtain ⟨used, -⟩ := RateLimited.depleteBuffer_whole whole depleted
    refine ⟨by omega, ?_⟩
    obtain ⟨-, rfl⟩ | issued := outcome
    · exact left
    · rw [exact.mint issued, Ledger.credit_of_ne other.symm]
      exact left

/-- What the recipient of a transfer holds after it, which is no more than before if it sent it. -/
theorem move_recipient (held : Address → ℕ) (sender recipient : Address) {amount : ℕ}
    (covered : amount ≤ held sender) : Ledger.move held sender recipient amount recipient =
      held recipient + if sender = recipient then 0 else amount := by
  by_cases same : sender = recipient
  · subst same
    rw [if_pos rfl, Ledger.move, Ledger.credit_self, Ledger.debit_self]
    omega
  · rw [if_neg same, Ledger.move_target same]

/-- What a step of a run of trades supplies and leaves. -/
def Supplies (contracts : Contracts ω) (balance : ω → Address → ℕ) (self volt underlyingToken : Address)
    (s : State ω) (call : Call ω) (t : State ω) : Prop :=
  Whole self volt underlyingToken t ∧
    minted s call t = max 0 (demand contracts s call t - level balance s) ∧
    level balance t = level balance s - demand contracts s call t + minted s call t

/-- A call that mints nothing and fills the reservoir with what enters the PSM. -/
private theorem supplies_of_fill (amount : ℕ) (whole : Whole self volt underlyingToken t)
    (unminted : t.minted = 0) (net : demand contracts s call t = -amount)
    (filled : balance t.world t.psm.self = balance s.world s.psm.self + amount) :
    Supplies contracts balance self volt underlyingToken s call t := by
  have positive : 0 ≤ level balance s := Int.natCast_nonneg _
  refine ⟨whole, ?_, ?_⟩
  · rw [minted, unminted, net, max_eq_left (by omega), Nat.cast_zero]
  · rw [minted, unminted, net, level, level, filled]
    omega

/-- Every step of a run of trades mints what the VOLT held does not cover. -/
theorem step_supplies (exact : ExactVolt contracts volt balance) (distinct : underlyingToken ≠ volt)
    (trades : Trades self call) (inv : Whole self volt underlyingToken s)
    (stepped : step contracts s call = .ok t) :
    Supplies contracts balance self volt underlyingToken s call t := by
  obtain ⟨rfl, rfl, rfl, whole⟩ := inv
  cases call with
  | sendVolt sender amount =>
    obtain ⟨world, sent, rfl⟩ := map_eq_ok.mp stepped
    obtain ⟨covered, moved⟩ := exact.transfer (external_eq_ok.mp sent)
    refine supplies_of_fill (if sender = s.psm.self then 0 else amount) ⟨rfl, rfl, rfl, whole⟩ rfl ?_ ?_
    · simp only [demand, outflow, inflow]
      split_ifs <;> simp
    · rw [State.move, moved]
      exact move_recipient _ _ _ covered
  | psm call =>
    change PegStabilitySystem.step contracts s call = .ok t at stepped
    have kept := whole_of_step whole stepped
    cases call with
    | environment | allocateSurplus | deposit | withdraw | withdrawERC20 => exact trades.elim
    | wait seconds =>
      obtain rfl := Except.ok.inj stepped
      exact supplies_of_fill 0 ⟨rfl, rfl, rfl, kept⟩ rfl rfl rfl
    | mint sender recipient amountIn minAmountOut =>
      obtain ⟨o, minting, rfl⟩ := map_eq_ok.mp stepped
      obtain ⟨supplied, left⟩ := mint_demand exact distinct whole trades minting
      have written := (mint_limiter minting).1
      have self : o.psm.self = s.psm.self := by rw [written]
      have net : demand contracts s (.psm (.mint sender recipient amountIn minAmountOut)) (s.commit o) =
          o.amountOut := by
        simp [demand, outflow, inflow, minting]
      have out : (s.commit o).minted = o.amountOut - balance s.world s.psm.self := supplied
      refine ⟨⟨self, by rw [State.commit, written], by rw [State.commit, written], kept⟩, ?_, ?_⟩
      · rw [minted, net, out, level]
        omega
      · have remains : level balance (s.commit o) = (balance s.world s.psm.self - o.amountOut : ℕ) := by
          rw [level, State.commit, self, left]
        rw [minted, net, out, remains, level]
        omega
    | redeem sender recipient amountFeiIn minAmountOut =>
      obtain ⟨o, redeeming, rfl⟩ := map_eq_ok.mp stepped
      obtain ⟨updated, paid, updating, -, pulled, sending, same, unminted⟩ := redeem_spec redeeming
      obtain ⟨covered, moved⟩ := exact.transferFrom pulled
      refine supplies_of_fill (if sender = s.psm.self then 0 else amountFeiIn) ?_ unminted ?_ ?_
      · exact ⟨congrArg PegStabilityModule.self same, congrArg PegStabilityModule.volt same,
          congrArg PegStabilityModule.underlyingToken same, kept⟩
      · simp only [demand, outflow, inflow]
        split_ifs <;> simp
      · rw [State.commit, same, exact.otherTransfer distinct sending, moved, move_recipient _ _ _ covered,
          exact.update updating]
    | setRateLimitPerSecond | setBufferCap =>
      obtain ⟨limiter, -, rfl⟩ := map_eq_ok.mp stepped
      exact supplies_of_fill 0 ⟨rfl, rfl, rfl, kept⟩ rfl rfl rfl
    | _ =>
      obtain ⟨psm, rfl, configured⟩ := configured_of_step rfl stepped
      refine supplies_of_fill 0 ⟨configured.self, configured.volt, configured.underlyingToken, kept⟩ rfl rfl ?_
      rw [State.write, configured.self]
      rfl

/-- What a mint takes out of the buffer is minted, and no other call takes anything. -/
theorem taken_eq_minted (stepped : step contracts s call = .ok t) : taken s call t = minted s call t := by
  cases call with
  | sendVolt sender amount =>
    obtain ⟨world, -, rfl⟩ := map_eq_ok.mp stepped
    rfl
  | psm call =>
    change PegStabilitySystem.step contracts s call = .ok t at stepped
    cases call with
    | mint sender recipient amountIn minAmountOut =>
      obtain ⟨o, minting, rfl⟩ := map_eq_ok.mp stepped
      obtain ⟨-, ⟨same, unminted⟩ | ⟨amount, depleted⟩⟩ := mint_limiter minting
      · rw [taken, minted, State.commit, same, unminted, sub_self, Nat.cast_zero]
      · obtain ⟨⟨-, enough, -⟩, -, drained, -⟩ := RateLimited.depleteBuffer_spec depleted
        have lowered : o.psm.level s.now = s.psm.level s.now - o.minted := congrArg TokenBucket.Bucket.level drained
        rw [taken, minted, State.commit, lowered, Nat.cast_sub enough, sub_sub_cancel]
    | wait seconds =>
      obtain rfl := Except.ok.inj stepped
      rfl
    | setRateLimitPerSecond | setBufferCap =>
      obtain ⟨limiter, -, rfl⟩ := map_eq_ok.mp stepped
      rfl
    | _ =>
      have unminted := (limiter_of_step rfl stepped).2.2
      rw [minted, unminted]
      rfl

end Steps

/-! ### Runs -/

section Runs

variable {contracts} {balance : ω → Address → ℕ} {self volt underlyingToken : Address} {s t : State ω}
  {calls : List (Call ω)}

/-- The constructor has no partial mints, and no call allows them. -/
theorem whole_of_reachable (reached : Reachable (PegStabilitySystem.step contracts) Initial s) :
    s.psm.doPartialAction = false := by
  have initial (state : State ω) (fresh : Initial state) : state.psm.doPartialAction = false := by
    obtain ⟨params, deployed⟩ := fresh
    have limiter := deploy_limiter deployed
    simp only [RateLimited.deploy, RateLimited.setBufferCapInternal, RateLimited.updateBufferStored,
      RateLimited.setRateLimitPerSecondInternal, bind_eq_ok, pure_eq_ok] at limiter
    obtain ⟨_, ⟨_, ⟨_, -, rfl⟩, rfl⟩, _, -, same⟩ := limiter
    rw [← same]
  exact reached.invariant initial fun _ _ _ whole stepped => whole_of_step whole stepped

/-- Redemptions, each followed by a mint that pays out at most as much. -/
inductive Cycles (contracts : Contracts ω) (self : Address) : State ω → List (Call ω) → State ω → Prop
  | nil (s : State ω) : Cycles contracts self s [] s
  | cons {s m t u : State ω} {redeemer minter tokenTo voltTo : Address} {y minTokens amountIn minVolt : ℕ}
      {rest : List (Call ω)} (outside : redeemer ≠ self) (others : voltTo ≠ self)
      (redeemed : step contracts s (.psm (.redeem redeemer tokenTo y minTokens)) = .ok m)
      (minted : step contracts m (.psm (.mint minter voltTo amountIn minVolt)) = .ok t)
      (covered : outflow contracts m (.psm (.mint minter voltTo amountIn minVolt)) t ≤ y)
      (cycles : Cycles contracts self t rest u) :
      Cycles contracts self s
        (.psm (.redeem redeemer tokenTo y minTokens) :: .psm (.mint minter voltTo amountIn minVolt) :: rest) u

theorem Cycles.run (cycles : Cycles contracts self s calls t) : run (step contracts) s calls = .ok t := by
  induction cycles with
  | nil => rfl
  | cons outside others redeemed minted covered cycles ih =>
    exact run_cons_ok.mpr ⟨_, redeemed, run_cons_ok.mpr ⟨_, minted, ih⟩⟩

theorem Cycles.trades (cycles : Cycles contracts self s calls t) : ∀ call ∈ calls, Trades self call := by
  induction cycles with
  | nil => simp
  | cons outside others redeemed minted covered cycles ih =>
    intro call member
    obtain rfl | rfl | later := List.mem_cons.mp member |>.imp_right List.mem_cons.mp
    · exact trivial
    · exact others
    · exact ih call later

/-- The net demand of cycles is never positive. -/
theorem Cycles.peak (exact : ExactVolt contracts volt balance) (distinct : underlyingToken ≠ volt)
    (cycles : Cycles contracts self s calls t) (inv : Whole self volt underlyingToken s) :
    peak (step contracts) (demand contracts) s calls = 0 := by
  induction cycles with
  | nil => rfl
  | @cons s m t u redeemer minter tokenTo voltTo y minTokens amountIn minVolt rest outside others redeemed minted
      covered cycles ih =>
    have between : Supplies contracts balance self volt underlyingToken s
        (.psm (.redeem redeemer tokenTo y minTokens)) m := step_supplies exact distinct trivial inv redeemed
    have after : Supplies contracts balance self volt underlyingToken m
        (.psm (.mint minter voltTo amountIn minVolt)) t := step_supplies exact distinct others between.1 minted
    have filled : demand contracts s (.psm (.redeem redeemer tokenTo y minTokens)) m = -y := by
      rw [← inv.address] at outside
      simp [demand, outflow, inflow, outside]
    have paid : demand contracts m (.psm (.mint minter voltTo amountIn minVolt)) t ≤ y := by
      have nothing : inflow m (.psm (.mint minter voltTo amountIn minVolt)) t = 0 := rfl
      rw [demand, nothing, sub_zero]
      exact covered
    rw [peak_cons_of_ok redeemed, peak_cons_of_ok minted, ih after.1, filled]
    omega

/-- The VOLT that a PSM mints over a run of trades is what its first balance does not cover of the peak of
what mints pay out less what enters, and so is what it takes out of the buffer. Redemptions that cover
the mints after them use none of the buffer. -/
theorem minted_eq_peak (reached : Reachable (PegStabilitySystem.step contracts) Initial s)
    (exact : ExactVolt contracts s.psm.volt balance) (distinct : s.psm.underlyingToken ≠ s.psm.volt) :
    (∀ calls t, (∀ call ∈ calls, Trades s.psm.self call) → run (step contracts) s calls = .ok t →
      ∃ M, IsGreatest {net | ∃ start, start <+: calls ∧ net = total (step contracts) (outflow contracts) s start -
          total (step contracts) inflow s start} M ∧
        total (step contracts) minted s calls = max 0 (M - balance s.world s.psm.self) ∧
        total (step contracts) taken s calls = max 0 (M - balance s.world s.psm.self)) ∧
    ∀ calls t, Cycles contracts s.psm.self s calls t →
      total (step contracts) minted s calls = 0 ∧ total (step contracts) taken s calls = 0 := by
  have whole : Whole s.psm.self s.psm.volt s.psm.underlyingToken s := ⟨rfl, rfl, rfl, whole_of_reachable reached⟩
  have same (calls : List (Call ω)) :
      total (step contracts) taken s calls = total (step contracts) minted s calls :=
    total_congr s calls fun _ _ _ stepped => taken_eq_minted stepped
  have reflected (calls : List (Call ω)) (t : State ω) (trades : ∀ call ∈ calls, Trades s.psm.self call)
      (success : run (step contracts) s calls = .ok t) : total (step contracts) minted s calls =
        max 0 (peak (step contracts) (demand contracts) s calls - balance s.world s.psm.self) := by
    have each (u : State ω) (call : Call ω) (v : State ω) (trade : Trades s.psm.self call)
        (inv : Whole s.psm.self s.psm.volt s.psm.underlyingToken u) (stepped : step contracts u call = .ok v) :
        Supplies contracts balance s.psm.self s.psm.volt s.psm.underlyingToken u call v :=
      step_supplies exact distinct trade inv stepped
    have positive (u : State ω) (_ : Whole s.psm.self s.psm.volt s.psm.underlyingToken u) : 0 ≤ level balance u :=
      Int.natCast_nonneg _
    exact total_eq_peak each positive ((along_call_iff success).mpr trades) whole success
  refine ⟨?_, ?_⟩
  · intro calls t trades success
    have net (start : List (Call ω)) : total (step contracts) (demand contracts) s start =
        total (step contracts) (outflow contracts) s start - total (step contracts) inflow s start := by
      rw [eq_sub_iff_add_eq, ← total_add]
      congr 1
      funext u call v
      exact sub_add_cancel _ _
    refine ⟨peak (step contracts) (demand contracts) s calls, ?_, reflected calls t trades success, ?_⟩
    · simp only [← net]
      exact isGreatest_peak s calls
    · rw [same]
      exact reflected calls t trades success
  · intro calls t cycles
    have nothing : total (step contracts) minted s calls = 0 := by
      rw [reflected calls t cycles.trades cycles.run, cycles.peak exact distinct whole]
      omega
    exact ⟨nothing, (same calls).trans nothing⟩

end Runs

/-- Exact tables of balances are exact for VOLT. -/
theorem exactVolt_of_exact {contracts : Contracts ω} {held : ω → Address → Address → ℕ} {volt : Address}
    (exact : FixedPrice.Exact contracts held)
    (reads : ∀ w account amount, contracts.balanceOf w volt account = some amount → amount = held w volt account) :
    ExactVolt contracts volt fun w => held w volt where
  balanceOf read := reads _ _ _ read
  update updated := congrFun (exact.update updated) volt
  transfer sent := by
    obtain ⟨covered, moved⟩ := exact.transfer sent
    exact ⟨covered, by rw [moved, Ledger.moveIn_self]⟩
  transferFrom pulled := by
    obtain ⟨covered, moved⟩ := exact.transferFrom pulled
    exact ⟨covered, by rw [moved, Ledger.moveIn_self]⟩
  mint minted := by rw [exact.mint minted, Ledger.creditIn_self]
  otherTransfer other sent := by rw [(exact.transfer sent).2, Ledger.moveIn_of_ne other.symm]
  otherTransferFrom other pulled := by rw [(exact.transferFrom pulled).2, Ledger.moveIn_of_ne other.symm]

/-- Mints around a redemption and a transfer, each beyond the VOLT held. -/
theorem minted_eq_peak_two_peaks :
    let contracts := exactContracts ⟨10 ^ 18⟩
    let start : State (Address → Address → ℕ) :=
      { now := 50
        psm :=
          { CONTRACT_ADMIN_ROLE := .psmAdmin, paused := false,
            MAX_RATE_LIMIT_PER_SECOND := MAX_FEI_LIMIT_PER_SECOND, rateLimitPerSecond := 10 ^ 18,
            lastBufferUsedTime := 50, bufferCap := 10 ^ 21, doPartialAction := false,
            bufferStored := 10 ^ 21, oracle := 7, backupOracle := 0, decimalsNormalizer := 0,
            doInvert := false, self := 100, volt := 5, underlyingToken := 6, surplusTarget := 8,
            mintFeeBasisPoints := 30, redeemFeeBasisPoints := 0, reservesThreshold := 1, MAX_FEE := 300,
            redeemPaused := false, mintPaused := false, priceBound := none }
        world := fun token a => if token = 6 ∧ a = 2 then 10 ^ 24 else if token = 5 ∧ a = 100 then 40 else 0
        minted := 0 }
    let calls := [.psm (.mint 2 3 1000 0), .psm (.redeem 3 2 700 0), .sendVolt 3 50, .psm (.wait 5),
      .psm (.mint 2 4 2000 0)]
    ∃ t, run (step contracts) start calls = .ok t ∧ total (step contracts) minted start calls = 2201 ∧
      ∃ M, IsGreatest {net | ∃ first, first <+: calls ∧ net = total (step contracts) (outflow contracts) start first -
          total (step contracts) inflow start first} M ∧
        total (step contracts) minted start calls = max 0 (M - 40) := by
  intro contracts start calls
  have ok : (run (step contracts) start calls).isOk = true := by decide +kernel
  have initial : Initial start := by
    refine ⟨⟨100, 5, 7, 0, 0, false, 30, 0, 1, 10 ^ 18, 10 ^ 21, 6, 8, none⟩, ?_⟩
    decide +kernel
  have exact : ExactVolt contracts start.psm.volt fun w => w start.psm.volt :=
    exactVolt_of_exact (FixedPrice.exact_exactContracts _) fun _ _ _ read => (Option.some.inj read).symm
  have trades : ∀ call ∈ calls, Trades start.psm.self call := by
    simp [calls, Trades, start]
  obtain ⟨t, success⟩ := exists_of_isOk ok
  obtain ⟨M, greatest, supplied, -⟩ :=
    (minted_eq_peak ⟨start, [], initial, rfl⟩ exact (by decide)).1 calls t trades success
  exact ⟨t, success, by decide +kernel, M, greatest, supplied⟩

end VoltProtocol.PeakDemand
