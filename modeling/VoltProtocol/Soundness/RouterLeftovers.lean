import VoltProtocol.Machine.Run
import VoltProtocol.Model.CompoundPCVRouter

/-! # What swaps leave behind in the router

The router approves what it withdrew, but Maker takes DAI only in multiples of 10^12. What is left of
a DAI swap stays in the router together with an allowance of the same amount, and SafeERC20 refuses
to replace that allowance by another one, so later DAI swaps revert.
-/

namespace VoltProtocol.RouterLeftovers

open Machine CompoundPCVRouter

variable {ω : Type}

/-- The swaps, and transactions elsewhere. -/
inductive Call (ω : Type) where
  | environment (change : ω → ω)
  | swapUsdcForDai (ctx : Context) (amountUsdcIn : ℕ)
  | swapDaiForUsdc (ctx : Context) (amountDaiIn : ℕ)

def step (contracts : Contracts ω) (r : CompoundPCVRouter) (w : ω) : Call ω → Except Revert ω
  | .environment change => .ok (change w)
  | .swapUsdcForDai ctx amountUsdcIn => r.swapUsdcForDai contracts w ctx amountUsdcIn
  | .swapDaiForUsdc ctx amountDaiIn => r.swapDaiForUsdc contracts w ctx amountDaiIn

/-- What the router holds, and allows Maker to take. -/
structure Books where
  dai : ℕ
  usdc : ℕ
  daiAllowance : ℕ
  usdcAllowance : ℕ
deriving DecidableEq, Repr

/-- No tokens and no allowances. -/
def Books.clean : Books := ⟨0, 0, 0, 0⟩

/-- The contracts around the router: deposits deliver exactly what is withdrawn and accept any deposit,
approvals replace allowances, and Maker without a fee pulls exactly what it trades, out of the balance
and the allowance. -/
structure Assumed (contracts : Contracts ω) (r : CompoundPCVRouter) (books : ω → Books) : Prop where
  withdrawDai {w u : ω} {amount : ℕ}
    (withdrawn : contracts.withdraw w r.daiPcvDeposit r.self r.self amount = some u) :
    books u = { books w with dai := (books w).dai + amount } ∧ contracts.tout u = contracts.tout w
  withdrawUsdc {w u : ω} {amount : ℕ}
    (withdrawn : contracts.withdraw w r.usdcPcvDeposit r.self r.self amount = some u) :
    books u = { books w with usdc := (books w).usdc + amount } ∧ contracts.tin u = contracts.tin w
  allowanceDai (w : ω) : contracts.allowance w DAI r.self daiPSM = some (books w).daiAllowance
  allowanceUsdc (w : ω) : contracts.allowance w USDC r.self GEM_JOIN = some (books w).usdcAllowance
  approveDai {w u : ω} {amount : ℕ} (approved : contracts.approve w DAI r.self daiPSM amount = some u) :
    books u = { books w with daiAllowance := amount } ∧ contracts.tout u = contracts.tout w
  approveUsdc {w u : ω} {amount : ℕ} (approved : contracts.approve w USDC r.self GEM_JOIN amount = some u) :
    books u = { books w with usdcAllowance := amount } ∧ contracts.tin u = contracts.tin w
  buyGem {w u : ω} {gemAmt : ℕ} (free : contracts.tout w = some 0)
    (bought : contracts.buyGem w r.self r.usdcPcvDeposit gemAmt = some u) :
    books u =
      { books w with
        dai := (books w).dai - gemAmt * 10 ^ 12
        daiAllowance := (books w).daiAllowance - gemAmt * 10 ^ 12 }
  sellGem {w u : ω} {gemAmt : ℕ} (free : contracts.tin w = some 0)
    (sold : contracts.sellGem w r.self r.daiPcvDeposit gemAmt = some u) :
    books u =
      { books w with
        usdc := (books w).usdc - gemAmt
        usdcAllowance := (books w).usdcAllowance - gemAmt }
  depositDai {w u : ω} (deposited : contracts.deposit w r.daiPcvDeposit r.self = some u) : books u = books w
  depositUsdc {w u : ω} (deposited : contracts.deposit w r.usdcPcvDeposit r.self = some u) : books u = books w

variable {contracts : Contracts ω} {r : CompoundPCVRouter} {books : ω → Books} {w u : ω} {ctx : Context}
  {amount : ℕ} {call : Call ω}

/-- A DAI swap leaves the remainder of the amount, and an allowance for it. -/
theorem books_of_swapDaiForUsdc (assumed : Assumed contracts r books)
    (success : r.swapDaiForUsdc contracts w ctx amount = .ok u) :
    books u =
      { books w with
        dai := (books w).dai + amount - amount / 10 ^ 12 * 10 ^ 12
        daiAllowance := amount - amount / 10 ^ 12 * 10 ^ 12 } := by
  simp only [swapDaiForUsdc, bind_eq_ok, external_eq_ok, require_eq_ok, safeApprove_eq_ok] at success
  obtain ⟨_, -, _, free, _, rfl, withdrawn, withdrawing, approved, ⟨-, approving⟩, bought, buying,
    deposited⟩ := success
  obtain ⟨received, sameFee⟩ := assumed.withdrawDai withdrawing
  obtain ⟨allowed, stillFree⟩ := assumed.approveDai approving
  have paid := assumed.buyGem (stillFree.trans (sameFee.trans free)) buying
  rw [assumed.depositUsdc deposited, paid, allowed, received, USDC_SCALING_FACTOR]

/-- A USDC swap leaves nothing of the amount. -/
theorem books_of_swapUsdcForDai (assumed : Assumed contracts r books)
    (success : r.swapUsdcForDai contracts w ctx amount = .ok u) :
    books u = { books w with usdcAllowance := 0 } := by
  simp only [swapUsdcForDai, bind_eq_ok, external_eq_ok, require_eq_ok, safeApprove_eq_ok] at success
  obtain ⟨_, -, _, free, _, rfl, withdrawn, withdrawing, approved, ⟨-, approving⟩, sold, selling,
    deposited⟩ := success
  obtain ⟨received, sameFee⟩ := assumed.withdrawUsdc withdrawing
  obtain ⟨allowed, stillFree⟩ := assumed.approveUsdc approving
  have paid := assumed.sellGem (stillFree.trans (sameFee.trans free)) selling
  rw [assumed.depositDai deposited, paid, allowed, received]
  simp

/-- The sender has a role, Maker takes no fee and every contract called accepts what the router asks. -/
def Funded (contracts : Contracts ω) (r : CompoundPCVRouter) (w : ω) : Call ω → Prop
  | .environment _ => True
  | .swapUsdcForDai ctx amount =>
    ctx.hasAnyOfThreeRoles .governor .pcvController .pcvGuard = .ok () ∧ contracts.tin w = some 0 ∧
      ((contracts.withdraw w r.usdcPcvDeposit r.self r.self amount).bind fun withdrawn =>
        (contracts.approve withdrawn USDC r.self GEM_JOIN amount).bind fun approved =>
        (contracts.sellGem approved r.self r.daiPcvDeposit amount).bind fun sold =>
        contracts.deposit sold r.daiPcvDeposit r.self).isSome
  | .swapDaiForUsdc ctx amount =>
    ctx.hasAnyOfThreeRoles .governor .pcvController .pcvGuard = .ok () ∧ contracts.tout w = some 0 ∧
      ((contracts.withdraw w r.daiPcvDeposit r.self r.self amount).bind fun withdrawn =>
        (contracts.approve withdrawn DAI r.self daiPSM amount).bind fun approved =>
        (contracts.buyGem approved r.self r.usdcPcvDeposit (amount / USDC_SCALING_FACTOR)).bind fun bought =>
        contracts.deposit bought r.usdcPcvDeposit r.self).isSome

instance (contracts : Contracts ω) (r : CompoundPCVRouter) (w : ω) :
    (call : Call ω) → Decidable (Funded contracts r w call)
  | .environment _ => .isTrue trivial
  | .swapUsdcForDai _ _ => inferInstanceAs (Decidable (_ ∧ _ ∧ _))
  | .swapDaiForUsdc _ _ => inferInstanceAs (Decidable (_ ∧ _ ∧ _))

/-- The router holds nothing and allows nothing, and every funded swap succeeds. -/
def LeavesNothing (contracts : Contracts ω) (r : CompoundPCVRouter) (books : ω → Books) (w : ω) : Prop :=
  books w = .clean ∧ ∀ call, Funded contracts r w call → ∃ u, step contracts r w call = .ok u

/-- With no allowance left, no check of the router stands in the way of a funded swap. -/
theorem leavesNothing_of_clean (assumed : Assumed contracts r books) (clean : books w = .clean) :
    LeavesNothing contracts r books w := by
  refine ⟨clean, ?_⟩
  intro call funded
  cases call with
  | environment change => exact ⟨_, rfl⟩
  | swapUsdcForDai ctx amount =>
    obtain ⟨permitted, free, accepted⟩ := funded
    obtain ⟨supplied, accepted⟩ := Option.isSome_iff_exists.mp accepted
    simp only [Option.bind_eq_some_iff] at accepted
    obtain ⟨withdrawn, withdrawing, approved, approving, sold, selling, supplying⟩ := accepted
    have unapproved : contracts.allowance withdrawn USDC r.self GEM_JOIN = some 0 := by
      rw [assumed.allowanceUsdc, (assumed.withdrawUsdc withdrawing).1, clean, Books.clean]
    refine ⟨supplied, ?_⟩
    simp only [step, swapUsdcForDai, bind_eq_ok, external_eq_ok, require_eq_ok, safeApprove_eq_ok]
    exact ⟨(), permitted, 0, free, (), rfl, withdrawn, withdrawing, approved, ⟨.inr unapproved, approving⟩,
      sold, selling, supplying⟩
  | swapDaiForUsdc ctx amount =>
    obtain ⟨permitted, free, accepted⟩ := funded
    obtain ⟨supplied, accepted⟩ := Option.isSome_iff_exists.mp accepted
    simp only [Option.bind_eq_some_iff] at accepted
    obtain ⟨withdrawn, withdrawing, approved, approving, bought, buying, supplying⟩ := accepted
    have unapproved : contracts.allowance withdrawn DAI r.self daiPSM = some 0 := by
      rw [assumed.allowanceDai, (assumed.withdrawDai withdrawing).1, clean, Books.clean]
    refine ⟨supplied, ?_⟩
    simp only [step, swapDaiForUsdc, bind_eq_ok, external_eq_ok, require_eq_ok, safeApprove_eq_ok]
    exact ⟨(), permitted, 0, free, (), rfl, withdrawn, withdrawing, approved, ⟨.inr unapproved, approving⟩,
      bought, buying, supplying⟩

/-- Transactions elsewhere do not touch what is the router's. -/
def Elsewhere (books : ω → Books) : Call ω → Prop
  | .environment change => ∀ w, books (change w) = books w
  | _ => True

/-- A DAI swap is of a multiple of what Maker trades. -/
def Even : Call ω → Prop
  | .swapDaiForUsdc _ amountDaiIn => 10 ^ 12 ∣ amountDaiIn
  | _ => True

/-- From a clean router, a call leaves nothing exactly when it has no remainder. -/
theorem leavesNothing_of_step (assumed : Assumed contracts r books) (elsewhere : Elsewhere books call)
    (clean : books w = .clean) (stepped : step contracts r w call = .ok u) :
    LeavesNothing contracts r books u ↔ Even call := by
  have reduced : LeavesNothing contracts r books u ↔ books u = .clean :=
    ⟨fun nothing => nothing.1, leavesNothing_of_clean assumed⟩
  rw [reduced]
  cases call with
  | environment change =>
    obtain rfl := Except.ok.inj stepped
    exact iff_of_true ((elsewhere w).trans clean) trivial
  | swapUsdcForDai ctx amount =>
    refine iff_of_true ?_ trivial
    rw [books_of_swapUsdcForDai assumed stepped, clean, Books.clean]
  | swapDaiForUsdc ctx amount =>
    have divided := Nat.div_add_mod' amount (10 ^ 12)
    rw [books_of_swapDaiForUsdc assumed stepped, clean, Books.clean, Even, Nat.dvd_iff_mod_eq_zero]
    simp only [Books.mk.injEq, true_and, and_true, Nat.zero_add]
    omega

/-- Over every run of swaps from a clean router, the router holds nothing and allows nothing after each
call, and no earlier swap makes a later funded one revert, exactly when every DAI swap is of a
multiple of 10^12. -/
theorem leaves_nothing_iff {calls : List (Call ω)} (assumed : Assumed contracts r books)
    (elsewhere : ∀ call ∈ calls, Elsewhere books call) (clean : books w = .clean)
    (success : run (step contracts r) w calls = .ok u) :
    Along (step contracts r) (fun _ _ next => LeavesNothing contracts r books next) w calls ↔
      ∀ call ∈ calls, Even call := by
  have exact_step (state : ω) (call : Call ω) (next : ω) (elsewhere : Elsewhere books call) (_ : True)
      (nothing : LeavesNothing contracts r books state) (stepped : step contracts r state call = .ok next) :
      True ∧ (LeavesNothing contracts r books next ↔ Even call) :=
    ⟨trivial, leavesNothing_of_step assumed elsewhere nothing.1 stepped⟩
  rw [← along_call_iff success]
  exact along_good_iff exact_step elsewhere trivial (leavesNothing_of_clean assumed clean) success

/-- A router at 100 between a DAI deposit at 10 and a USDC deposit at 11. -/
def router : CompoundPCVRouter := ⟨100, 10, 11⟩

def tokenOf (pcvDeposit : Address) : Address := if pcvDeposit = 10 then DAI else USDC

/-- The books of that router in a market. -/
def marketBooks (m : Market) : Books where
  dai := m.held DAI 100
  usdc := m.held USDC 100
  daiAllowance := m.allowed DAI 100 daiPSM
  usdcAllowance := m.allowed USDC 100 GEM_JOIN

/-- A payment to the router. -/
private theorem held_pay_self {m u : Market} {token owner : Address} (outside : owner ≠ 100)
    (paid : m.pay token owner 100 amount = some u) :
    u.held token 100 = m.held token 100 + amount ∧ (∀ t, t ≠ token → u.held t = m.held t) ∧
      u.allowed = m.allowed := by
  obtain ⟨moved, others, same⟩ := Market.pay_spec paid
  exact ⟨moved.at_target outside, others, same⟩

/-- A payment between others. -/
private theorem held_pay_other {m u : Market} {token owner recipient : Address} (outside : owner ≠ 100)
    (elsewhere : recipient ≠ 100) (paid : m.pay token owner recipient amount = some u) :
    (∀ t, u.held t 100 = m.held t 100) ∧ u.allowed = m.allowed := by
  obtain ⟨moved, others, allowed⟩ := Market.pay_spec paid
  refine ⟨fun t => ?_, allowed⟩
  by_cases same : t = token
  · subst same
    exact moved.elsewhere outside.symm elsewhere.symm
  · rw [others t same]

/-- What Maker pulls from the router. -/
private theorem held_pull {m u : Market} {token spender recipient : Address} (elsewhere : recipient ≠ 100)
    (pulled : m.pull token 100 spender recipient amount = some u) :
    u.held token 100 = m.held token 100 - amount ∧ (∀ t, t ≠ token → u.held t = m.held t) ∧
      u.allowed = (m.setAllowance token 100 spender (m.allowed token 100 spender - amount)).allowed := by
  obtain ⟨moved, others, allowed⟩ := Market.pull_spec pulled
  have left := moved.add_source elsewhere.symm
  exact ⟨by omega, others, allowed⟩

private theorem DAI_ne_USDC : DAI ≠ USDC := by decide

/-- The books after a trade, by what it pulled. -/
private theorem books_of_pay {m u : Market} {token owner recipient : Address} (outside : owner ≠ 100)
    (elsewhere : recipient ≠ 100) (paid : m.pay token owner recipient amount = some u) :
    marketBooks u = marketBooks m := by
  obtain ⟨kept, same⟩ := held_pay_other outside elsewhere paid
  simp only [marketBooks, kept, same]

theorem assumed_exactContracts : Assumed (exactContracts tokenOf) router marketBooks where
  withdrawDai {w u amount} withdrawn := by
    obtain ⟨received, others, same⟩ := held_pay_self (by decide) withdrawn
    have dai : u.held DAI 100 = w.held DAI 100 + amount := received
    have usdc : u.held USDC = w.held USDC := others USDC DAI_ne_USDC.symm
    exact ⟨by simp only [marketBooks, dai, usdc, same], rfl⟩
  withdrawUsdc {w u amount} withdrawn := by
    obtain ⟨received, others, same⟩ := held_pay_self (by decide) withdrawn
    have usdc : u.held USDC 100 = w.held USDC 100 + amount := received
    have dai : u.held DAI = w.held DAI := others DAI DAI_ne_USDC
    exact ⟨by simp only [marketBooks, dai, usdc, same], rfl⟩
  allowanceDai w := rfl
  allowanceUsdc w := rfl
  approveDai {w u amount} approved := by
    obtain rfl := Option.some.inj approved
    refine ⟨?_, rfl⟩
    simp only [marketBooks, router, Market.setAllowance_self,
      Market.setAllowance_of_ne _ _ _ _ _ DAI_ne_USDC.symm]
    rfl
  approveUsdc {w u amount} approved := by
    obtain rfl := Option.some.inj approved
    refine ⟨?_, rfl⟩
    simp only [marketBooks, router, Market.setAllowance_self, Market.setAllowance_of_ne _ _ _ _ _ DAI_ne_USDC]
    rfl
  buyGem {w u gemAmt} free bought := by
    obtain ⟨pulled, pulling, paying⟩ := Option.bind_eq_some_iff.mp bought
    obtain ⟨taken, others, allowed⟩ := held_pull (by decide) pulling
    have usdc : pulled.held USDC = w.held USDC := others USDC DAI_ne_USDC.symm
    rw [books_of_pay (by decide) (by decide) paying]
    simp only [marketBooks, taken, usdc, allowed, Market.setAllowance_self,
      Market.setAllowance_of_ne _ _ _ _ _ DAI_ne_USDC.symm]
  sellGem {w u gemAmt} free sold := by
    obtain ⟨pulled, pulling, paying⟩ := Option.bind_eq_some_iff.mp sold
    obtain ⟨taken, others, allowed⟩ := held_pull (by decide) pulling
    have dai : pulled.held DAI = w.held DAI := others DAI DAI_ne_USDC
    rw [books_of_pay (by decide) (by decide) paying]
    simp only [marketBooks, taken, dai, allowed, Market.setAllowance_self,
      Market.setAllowance_of_ne _ _ _ _ _ DAI_ne_USDC]
  depositDai {w u} deposited := by
    obtain rfl := Option.some.inj deposited
    rfl
  depositUsdc {w u} deposited := by
    obtain rfl := Option.some.inj deposited
    rfl

/-- A market in which both deposits and Maker have plenty and the router has nothing. -/
def market : Market where
  held token account :=
    if token = DAI ∧ (account = 10 ∨ account = daiPSM) ∨ token = USDC ∧ (account = 11 ∨ account = GEM_JOIN)
    then 10 ^ 30 else 0
  allowed _ _ _ := 0

/-- Swaps both ways, the DAI swaps of whole USDC units. -/
theorem leaves_nothing_iff_whole_units :
    let guard := Context.withRoles 2 [.pcvGuard]
    let calls := [.swapDaiForUsdc guard (5 * 10 ^ 18), .swapUsdcForDai guard 1234567, .swapDaiForUsdc guard 0,
      .swapDaiForUsdc guard (10 ^ 12)]
    ∃ u, run (step (exactContracts tokenOf) router) market calls = .ok u ∧
      Along (step (exactContracts tokenOf) router)
        (fun _ _ next => LeavesNothing (exactContracts tokenOf) router marketBooks next) market calls := by
  intro guard calls
  have ok : (run (step (exactContracts tokenOf) router) market calls).isOk = true := by decide +kernel
  have elsewhere : ∀ call ∈ calls, Elsewhere marketBooks call := by simp [calls, Elsewhere]
  have even : ∀ call ∈ calls, Even call := by
    simp [calls, Even]
  have clean : marketBooks market = .clean := by decide
  obtain ⟨u, success⟩ := exists_of_isOk ok
  exact ⟨u, success, (leaves_nothing_iff assumed_exactContracts elsewhere clean success).mpr even⟩

/-- A DAI swap of one unit too many, and the next one, which the contracts around would accept. -/
theorem leaves_remainder :
    let contracts := exactContracts tokenOf
    let guard := Context.withRoles 2 [.pcvGuard]
    Assumed contracts router marketBooks ∧ marketBooks market = .clean ∧
      ∃ u, step contracts router market (.swapDaiForUsdc guard (10 ^ 12 + 1)) = .ok u ∧
        marketBooks u = ⟨1, 0, 1, 0⟩ ∧ Funded contracts router u (.swapDaiForUsdc guard (10 ^ 12)) ∧
        step contracts router u (.swapDaiForUsdc guard (10 ^ 12)) =
          .error (.message "SafeERC20: approve from non-zero to non-zero allowance") := by
  intro contracts guard
  let again : Call Market := .swapDaiForUsdc guard (10 ^ 12)
  have observed : (fun u => (marketBooks u, decide (Funded contracts router u again),
      (fun _ => ()) <$> step contracts router u again)) <$>
        step contracts router market (.swapDaiForUsdc guard (10 ^ 12 + 1)) = .ok (⟨1, 0, 1, 0⟩, true,
          .error (.message "SafeERC20: approve from non-zero to non-zero allowance")) := by
    decide +kernel
  obtain ⟨u, swapped, values⟩ := map_eq_ok.mp observed
  simp only [Prod.mk.injEq, decide_eq_true_eq, map_eq_error] at values
  exact ⟨assumed_exactContracts, by decide, u, swapped, values⟩

end VoltProtocol.RouterLeftovers
