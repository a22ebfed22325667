import VoltProtocol.Soundness.PegStabilitySystem

/-! # No profit from trading with a PSM at a fixed price

Both quotes round against the user: what a trade pays out is worth at most what it takes in, at the
price read. With tokens that move exactly what they are asked to, the value that any group of users
holds therefore never rises while its members trade, whatever the fees are set to in between.
-/

namespace VoltProtocol.FixedPrice

open Machine PegStabilityModule PegStabilitySystem

variable {ω : Type} {contracts : Contracts ω} {held : ω → Address → Address → ℕ}

/-! ### Rounding -/

section Quotes

variable {psm : PegStabilityModule} {w : ω} {amountIn amountOut price : ℕ}

/-- Every price that the PSM reads is the given one. -/
def Reads (contracts : Contracts ω) (psm : PegStabilityModule) (w : ω) (price : ℕ) : Prop :=
  ∀ read, psm.readOracle contracts.toOracles w = .ok read → read.value = price

/-- VOLT minted is worth at most the tokens paid for it. -/
theorem mint_quote_le (reads : Reads contracts psm w price)
    (quoted : psm.getMintAmountOut contracts w amountIn = .ok amountOut) :
    Decimal.BASE * amountOut ≤ price * amountIn := by
  obtain ⟨read, reading, rfl⟩ := getMintAmountOut_spec quoted
  rw [reads read reading]
  set kept := BASIS_POINTS_GRANULARITY - psm.mintFeeBasisPoints
  have less : kept ≤ BASIS_POINTS_GRANULARITY := by omega
  calc
    Decimal.BASE * (price * amountIn * kept / BASIS_POINTS_GRANULARITY / Decimal.BASE)
      ≤ price * amountIn * kept / BASIS_POINTS_GRANULARITY := Nat.mul_div_le ..
    _ ≤ price * amountIn * BASIS_POINTS_GRANULARITY / BASIS_POINTS_GRANULARITY :=
        Nat.div_le_div_right (Nat.mul_le_mul_left _ less)
    _ = price * amountIn := Nat.mul_div_cancel _ (by decide)

/-- Tokens paid out are worth at most the VOLT redeemed for them. -/
theorem redeem_quote_le (reads : Reads contracts psm w price)
    (quoted : psm.getRedeemAmountOut contracts w amountIn = .ok amountOut) :
    price * amountOut ≤ Decimal.BASE * amountIn := by
  obtain ⟨read, reading, -, rfl⟩ := getRedeemAmountOut_spec quoted
  rw [reads read reading]
  set kept := BASIS_POINTS_GRANULARITY - psm.redeemFeeBasisPoints
  set charged := amountIn * kept / BASIS_POINTS_GRANULARITY
  have less : charged ≤ amountIn := by
    have capped : amountIn * kept ≤ amountIn * BASIS_POINTS_GRANULARITY :=
      Nat.mul_le_mul_left _ (Nat.sub_le ..)
    exact (Nat.div_le_div_right capped).trans (Nat.mul_div_cancel _ (by decide)).le
  have scaled : price * (charged * Decimal.BASE * Decimal.BASE / price / Decimal.BASE) * Decimal.BASE ≤
      charged * Decimal.BASE * Decimal.BASE := by
    rw [Nat.mul_assoc]
    exact (Nat.mul_le_mul_left _ (Nat.div_mul_le_self ..)).trans (Nat.mul_div_le ..)
  have unscaled := Nat.le_of_mul_le_mul_right scaled (by decide : 0 < Decimal.BASE)
  rw [Nat.mul_comm] at unscaled ⊢
  exact unscaled.trans ((Nat.mul_le_mul_right _ less).trans (Nat.mul_comm ..).le)

end Quotes

/-! ### Trades with exact tokens -/

/-- The tokens transfer and mint exactly the requested amount, and oracles move no tokens: `held` is
the table of balances per token in a world. -/
structure Exact (contracts : Contracts ω) (held : ω → Address → Address → ℕ) : Prop where
  update {w u : ω} {oracle : Address} (updated : contracts.update w oracle = some u) : held u = held w
  transfer {w u : ω} {token sender recipient : Address} {amount : ℕ}
    (sent : contracts.transfer w token sender recipient amount = some u) :
    amount ≤ held w token sender ∧ held u = Ledger.moveIn (held w) token sender recipient amount
  transferFrom {w u : ω} {token sender owner recipient : Address} {amount : ℕ}
    (pulled : contracts.transferFrom w token sender owner recipient amount = some u) :
    amount ≤ held w token owner ∧ held u = Ledger.moveIn (held w) token owner recipient amount
  mint {w u : ω} {token sender account : Address} {amount : ℕ}
    (minted : contracts.mint w token sender account amount = some u) :
    held u = Ledger.creditIn (held w) token account amount

/-- The units of a token that some users hold together. -/
def holdings (held : ω → Address → Address → ℕ) (users : Finset Address) (w : ω) (token : Address) : ℕ :=
  ∑ user ∈ users, held w token user

section Transfers

variable {users : Finset Address} {w u : ω} {token other sender owner recipient : Address} {amount : ℕ}

/-- What a PSM pulls leaves the users. -/
theorem Exact.pull (exact : Exact contracts held) (inside : owner ∈ users) (outside : recipient ∉ users)
    (pulled : contracts.transferFrom w token sender owner recipient amount = some u) :
    holdings held users u token + amount = holdings held users w token ∧
      ∀ other, other ≠ token → holdings held users u other = holdings held users w other := by
  obtain ⟨covered, moved⟩ := exact.transferFrom pulled
  rw [holdings, moved, Ledger.moveIn_self]
  refine ⟨Ledger.sum_move_out users covered inside outside, ?_⟩
  intro other different
  rw [holdings, moved, Ledger.moveIn_of_ne different, holdings]

/-- What a PSM sends reaches the users at most once. -/
theorem Exact.push (exact : Exact contracts held) (outside : sender ∉ users)
    (sent : contracts.transfer w token sender recipient amount = some u) :
    holdings held users u token ≤ holdings held users w token + amount ∧
      ∀ other, other ≠ token → holdings held users u other = holdings held users w other := by
  obtain ⟨covered, moved⟩ := exact.transfer sent
  rw [holdings, moved, Ledger.moveIn_self]
  refine ⟨Ledger.sum_move_in_le users covered outside, ?_⟩
  intro other different
  rw [holdings, moved, Ledger.moveIn_of_ne different, holdings]

/-- What a PSM has minted reaches the users at most once. -/
theorem Exact.issue (exact : Exact contracts held)
    (minted : contracts.mint w token sender recipient amount = some u) :
    holdings held users u token ≤ holdings held users w token + amount ∧
      ∀ other, other ≠ token → holdings held users u other = holdings held users w other := by
  have moved := exact.mint minted
  rw [holdings, moved, Ledger.creditIn_self]
  refine ⟨?_, ?_⟩
  · rw [Ledger.sum_credit]
    split_ifs
    · exact le_rfl
    · exact Nat.le_add_right ..
  · intro other different
    rw [holdings, moved, Ledger.creditIn_of_ne different, holdings]

theorem Exact.refresh (exact : Exact contracts held) {oracle : Address}
    (updated : contracts.update w oracle = some u) (token : Address) :
    holdings held users u token = holdings held users w token := by
  rw [holdings, exact.update updated, holdings]

end Transfers

section Trades

variable {users : Finset Address} {psm : PegStabilityModule} {now : ℕ} {w : ω}
  {sender recipient : Address} {amountIn minAmountOut : ℕ} {o : Outcome ω}

/-- A mint takes its amount of tokens from the users and gives them at most the VOLT quoted. -/
theorem holdings_of_mint (exact : Exact contracts held) (distinct : psm.volt ≠ psm.underlyingToken)
    (outside : psm.self ∉ users) (inside : sender ∈ users)
    (success : psm.mint contracts now w sender recipient amountIn minAmountOut = .ok o) :
    holdings held users o.world psm.underlyingToken + amountIn = holdings held users w psm.underlyingToken ∧
      holdings held users o.world psm.volt ≤ holdings held users w psm.volt + o.amountOut := by
  obtain ⟨updated, paid, available, sent, updating, -, pulled, -, sending, outcome⟩ := mint_spec success
  obtain ⟨taken, kept⟩ := exact.pull inside outside pulled
  have voltKept := kept _ distinct
  rw [exact.refresh updating] at taken voltKept
  have given : holdings held users sent psm.underlyingToken = holdings held users paid psm.underlyingToken ∧
      holdings held users sent psm.volt ≤
        holdings held users paid psm.volt + min available o.amountOut := by
    obtain ⟨none, rfl⟩ | moved := sendHeldVolt_spec sending
    · exact ⟨rfl, by omega⟩
    · obtain ⟨raised, same⟩ := exact.push outside moved
      exact ⟨same _ distinct.symm, raised⟩
  have issued : holdings held users o.world psm.underlyingToken = holdings held users sent psm.underlyingToken ∧
      holdings held users o.world psm.volt ≤
        holdings held users sent psm.volt + (o.amountOut - min available o.amountOut) := by
    obtain ⟨-, -, same, -⟩ | ⟨limiter, depleted, -, ⟨-, same⟩ | minting⟩ := outcome
    · rw [same]
      exact ⟨rfl, by omega⟩
    · rw [same]
      exact ⟨rfl, by omega⟩
    · obtain ⟨raised, same⟩ := exact.issue minting
      have enough := (RateLimited.depleteBuffer_spec depleted).1.2.2
      exact ⟨same _ distinct.symm, by omega⟩
  exact ⟨by omega, by omega⟩

/-- A redemption takes its amount of VOLT from the users and gives them at most the tokens quoted. -/
theorem holdings_of_redeem (exact : Exact contracts held) (distinct : psm.volt ≠ psm.underlyingToken)
    (outside : psm.self ∉ users) (inside : sender ∈ users)
    (success : psm.redeem contracts w sender recipient amountIn minAmountOut = .ok o) :
    holdings held users o.world psm.volt + amountIn = holdings held users w psm.volt ∧
      holdings held users o.world psm.underlyingToken ≤
        holdings held users w psm.underlyingToken + o.amountOut := by
  obtain ⟨updated, paid, updating, -, pulled, sending, -, -⟩ := redeem_spec success
  obtain ⟨taken, kept⟩ := exact.pull inside outside pulled
  have tokensKept := kept _ distinct.symm
  obtain ⟨raised, same⟩ := exact.push outside sending
  have voltSame := same _ distinct
  rw [exact.refresh updating] at taken tokensKept
  exact ⟨by omega, by omega⟩

end Trades

/-! ### Runs -/

/-- The calls of a run of trades: mints and redemptions by the users, the passing of time and setters.
Nothing else moves tokens. -/
def Trades (users : Finset Address) : Call ω → Prop
  | .mint sender .. | .redeem sender .. => sender ∈ users
  | .environment _ | .allocateSurplus | .deposit | .withdraw .. | .withdrawERC20 .. => False
  | _ => True

/-- In this state a trade would read the given price. -/
def Fixed (contracts : Contracts ω) (price : ℕ) (s : State ω) : Prop :=
  ∀ updated, contracts.update s.world s.psm.oracle = some updated → Reads contracts s.psm updated price

/-- The value the users hold, in units of `10 ** -18` at the given price. -/
def usersValue (held : ω → Address → Address → ℕ) (users : Finset Address) (price : ℕ) (s : State ω) : ℕ :=
  price * holdings held users s.world s.psm.underlyingToken +
    Decimal.BASE * holdings held users s.world s.psm.volt

variable {users : Finset Address} {price : ℕ} {s t : State ω} {call : Call ω}

/-- The accounts a PSM works with, which no call changes. -/
structure SameAccounts (s t : State ω) : Prop where
  self : t.psm.self = s.psm.self
  volt : t.psm.volt = s.psm.volt
  underlyingToken : t.psm.underlyingToken = s.psm.underlyingToken

/-- A call that moves no tokens changes no value. -/
private theorem value_of_same (same : SameAccounts s t) (world : t.world = s.world) :
    SameAccounts s t ∧ usersValue held users price t ≤ usersValue held users price s := by
  refine ⟨same, ?_⟩
  rw [usersValue, same.volt, same.underlyingToken, world, usersValue]

/-- No call of a run of trades raises the value the users hold. -/
theorem value_of_step (exact : Exact contracts held) (distinct : s.psm.volt ≠ s.psm.underlyingToken)
    (outside : s.psm.self ∉ users) (trades : Trades users call) (fixed : Fixed contracts price s)
    (stepped : step contracts s call = .ok t) :
    SameAccounts s t ∧ usersValue held users price t ≤ usersValue held users price s := by
  cases call with
  | environment | allocateSurplus | deposit | withdraw | withdrawERC20 => exact trades.elim
  | wait seconds =>
    obtain rfl := Except.ok.inj stepped
    exact value_of_same ⟨rfl, rfl, rfl⟩ rfl
  | setRateLimitPerSecond | setBufferCap =>
    obtain ⟨_, -, rfl⟩ := map_eq_ok.mp stepped
    exact value_of_same ⟨rfl, rfl, rfl⟩ rfl
  | mint sender recipient amountIn minAmountOut =>
    obtain ⟨o, minting, rfl⟩ := map_eq_ok.mp stepped
    obtain ⟨updated, paid, available, sent, updating, quoted, -⟩ := mint_spec minting
    have same : SameAccounts s (s.commit o) := by
      have written := (mint_limiter minting).1
      constructor <;> rw [State.commit, written]
    have worth := mint_quote_le (fixed updated updating) quoted
    obtain ⟨taken, given⟩ := holdings_of_mint exact distinct outside trades minting
    refine ⟨same, ?_⟩
    rw [usersValue, same.volt, same.underlyingToken, usersValue, ← taken]
    calc
      price * holdings held users o.world s.psm.underlyingToken +
          Decimal.BASE * holdings held users o.world s.psm.volt
        ≤ price * holdings held users o.world s.psm.underlyingToken +
            Decimal.BASE * (holdings held users s.world s.psm.volt + o.amountOut) :=
          Nat.add_le_add_left (Nat.mul_le_mul_left _ given) _
      _ ≤ price * (holdings held users o.world s.psm.underlyingToken + amountIn) +
            Decimal.BASE * holdings held users s.world s.psm.volt := by
          rw [Nat.mul_add, Nat.mul_add]
          omega
  | redeem sender recipient amountFeiIn minAmountOut =>
    obtain ⟨o, redeeming, rfl⟩ := map_eq_ok.mp stepped
    obtain ⟨updated, paid, updating, quoted, -, -, kept, -⟩ := redeem_spec redeeming
    have same : SameAccounts s (s.commit o) :=
      ⟨congrArg self kept, congrArg volt kept, congrArg underlyingToken kept⟩
    have worth := redeem_quote_le (fixed updated updating) quoted
    obtain ⟨taken, given⟩ := holdings_of_redeem exact distinct outside trades redeeming
    refine ⟨same, ?_⟩
    rw [usersValue, same.volt, same.underlyingToken, usersValue, ← taken]
    calc
      price * holdings held users o.world s.psm.underlyingToken +
          Decimal.BASE * holdings held users o.world s.psm.volt
        ≤ price * (holdings held users s.world s.psm.underlyingToken + o.amountOut) +
            Decimal.BASE * holdings held users o.world s.psm.volt :=
          Nat.add_le_add_right (Nat.mul_le_mul_left _ given) _
      _ ≤ price * holdings held users s.world s.psm.underlyingToken +
            Decimal.BASE * (holdings held users o.world s.psm.volt + amountFeiIn) := by
          rw [Nat.mul_add, Nat.mul_add]
          omega
  | _ =>
    obtain ⟨psm, rfl, configured⟩ := configured_of_step rfl stepped
    exact value_of_same ⟨configured.self, configured.volt, configured.underlyingToken⟩ rfl

/-- While a PSM reads one positive price, the value its users hold never rises over a run of their trades,
whatever the fees are set to in between, and a quote of a quote is at most what went in. VOLT and the
underlying are two tokens, and the PSM is not one of its users. -/
theorem no_profit {calls : List (Call ω)} (exact : Exact contracts held) (positive : 0 < price)
    (distinct : s.psm.volt ≠ s.psm.underlyingToken) (outside : s.psm.self ∉ users)
    (trades : ∀ call ∈ calls, Trades users call)
    (fixed : Along (step contracts) (fun u _ _ => Fixed contracts price u) s calls)
    (success : run (step contracts) s calls = .ok t) :
    usersValue held users price t ≤ usersValue held users price s ∧
    ∀ v w, Reads contracts s.psm v price → Reads contracts t.psm w price →
      (∀ x volt back, s.psm.getMintAmountOut contracts v x = .ok volt →
        t.psm.getRedeemAmountOut contracts w volt = .ok back → back ≤ x) ∧
      ∀ y tokens back, s.psm.getRedeemAmountOut contracts v y = .ok tokens →
        t.psm.getMintAmountOut contracts w tokens = .ok back → back ≤ y := by
  refine ⟨?_, ?_⟩
  · have preserved (u : State ω) (call : Call ω) (next : State ω) (trade : Trades users call)
        (fixed : Fixed contracts price u)
        (inv : SameAccounts s u ∧ usersValue held users price u ≤ usersValue held users price s)
        (stepped : step contracts u call = .ok next) :
        SameAccounts s next ∧ usersValue held users price next ≤ usersValue held users price s := by
      obtain ⟨same, lower⟩ := inv
      rw [← same.volt, ← same.underlyingToken] at distinct
      rw [← same.self] at outside
      obtain ⟨accounts, value⟩ := value_of_step exact distinct outside trade fixed stepped
      refine ⟨⟨?_, ?_, ?_⟩, value.trans lower⟩
      · exact accounts.self.trans same.self
      · exact accounts.volt.trans same.volt
      · exact accounts.underlyingToken.trans same.underlyingToken
    exact (run_invariant_along preserved trades fixed ⟨⟨rfl, rfl, rfl⟩, le_rfl⟩ success).2
  · intro v w first second
    constructor
    · intro x volt back minted redeemed
      have there := mint_quote_le first minted
      have again := redeem_quote_le second redeemed
      exact Nat.le_of_mul_le_mul_left (again.trans there) positive
    · intro y tokens back redeemed minted
      have there := redeem_quote_le first redeemed
      have again := mint_quote_le second minted
      exact Nat.le_of_mul_le_mul_left (again.trans there) (by decide)

/-- The tables of balances of `exactContracts` are exact. -/
theorem exact_exactContracts (price : D256) : Exact (exactContracts price) id where
  update updated := (Option.some.inj updated).symm
  transfer {w u token sender recipient amount} sent := by
    simp only [exactContracts] at sent
    split_ifs at sent with covered
    exact ⟨covered, (Option.some.inj sent).symm⟩
  transferFrom {w u token sender owner recipient amount} pulled := by
    simp only [exactContracts] at pulled
    split_ifs at pulled with covered
    exact ⟨covered, (Option.some.inj pulled).symm⟩
  mint minted := (Option.some.inj minted).symm

/-- A constant oracle that is neither inverted nor scaled is read as it is. -/
theorem reads_exactContracts {psm : PegStabilityModule} {w : Address → Address → ℕ} {price : ℕ}
    (unscaled : psm.decimalsNormalizer = 0) (upright : psm.doInvert = false) :
    Reads (exactContracts ⟨price⟩) psm w price := by
  intro read reading
  simp only [OracleRef.readOracle, OracleRef.readValid, exactContracts, bind_eq_ok, external_eq_ok] at reading
  obtain ⟨peg, ⟨answer, same, answered⟩, scaled⟩ := reading
  obtain rfl := Option.some.inj same
  obtain rfl : ⟨price⟩ = peg := by simpa [require] using answered
  simp only [upright, OracleRef.scale, unscaled, Bool.false_eq_true, if_false, lt_irrefl, bind_eq_ok,
    toUint256_eq_ok, checkedPow10_eq_ok, Decimal.mulUint256_eq_ok] at scaled
  obtain ⟨_, zero, _, ⟨-, rfl⟩, -, value⟩ := scaled
  obtain rfl := Int.ofNat_eq_zero.mp zero
  rw [value, pow_zero, mul_one]

/-- Two users trade at an uneven price while both fees change. -/
theorem no_profit_fees_changed :
    let governor := Context.withRoles 1 [.governor]
    let price := 1234567890123456789
    let contracts := exactContracts ⟨price⟩
    let start : State (Address → Address → ℕ) :=
      { now := 50
        psm :=
          { CONTRACT_ADMIN_ROLE := .psmAdmin, paused := false,
            MAX_RATE_LIMIT_PER_SECOND := MAX_FEI_LIMIT_PER_SECOND, rateLimitPerSecond := 10 ^ 18,
            lastBufferUsedTime := 50, bufferCap := 10 ^ 21, doPartialAction := false,
            bufferStored := 10 ^ 21, oracle := 7, backupOracle := 0, decimalsNormalizer := 0,
            doInvert := false, self := 100, volt := 5, underlyingToken := 6, surplusTarget := 8,
            mintFeeBasisPoints := 30, redeemFeeBasisPoints := 0, reservesThreshold := 1, MAX_FEE := 300,
            redeemPaused := false, mintPaused := false, priceBound := none }
        world := fun token a => if token = 6 ∧ (a = 2 ∨ a = 3) then 10 ^ 20 else if token = 5 ∧ a = 100 then 40 else 0
        minted := 0 }
    let calls := [.mint 2 2 1003 0, .setRedeemFee governor 300, .redeem 2 3 77 0, .setMintFee governor 0,
      .mint 3 2 (10 ^ 19 + 1) 0, .setRedeemFee governor 0, .wait 1, .redeem 2 2 999 0]
    ∃ t, run (step contracts) start calls = .ok t ∧
      Along (step contracts) (fun _ _ next => next.psm.redeemFeeBasisPoints ≤ 300) start calls ∧
      usersValue id {2, 3} price t ≤ usersValue id {2, 3} price start := by
  intro governor price contracts start calls
  have ok : (run (step contracts) start calls).isOk = true := by decide +kernel
  obtain ⟨t, success⟩ := exists_of_isOk ok
  have pointed : Along (step contracts)
      (fun u _ _ => u.psm.decimalsNormalizer = 0 ∧ u.psm.doInvert = false) start calls := by decide +kernel
  have fixed : Along (step contracts) (fun u _ _ => Fixed contracts price u) start calls :=
    pointed.mono fun _ _ _ pointed _ _ => reads_exactContracts pointed.1 pointed.2
  have trades : ∀ call ∈ calls, Trades {2, 3} call := by
    simp [calls, Trades]
  have fees : Along (step contracts) (fun _ _ next => next.psm.redeemFeeBasisPoints ≤ 300) start calls := by
    decide +kernel
  exact ⟨t, success, fees, (no_profit (exact_exactContracts _) (by decide) (by decide) (by decide)
    trades fixed success).1⟩

end VoltProtocol.FixedPrice
