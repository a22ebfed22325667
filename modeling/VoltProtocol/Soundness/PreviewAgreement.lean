import VoltProtocol.Soundness.PeakDemand

/-! # What a PSM previews and what a trade then does

A preview computes the amount out and the largest mint without touching a token; a trade pulls tokens,
pays out VOLT that the PSM holds, and has the rest minted out of a buffer that refuses even an empty
depletion when it is empty. With exact tokens and an oracle that answers the same after an update, a
trade succeeds exactly when the previews allow it and then moves exactly the previewed amounts. The
preview of the largest mint may itself revert, when the sum it returns leaves `uint256`; a mint that the
VOLT held covers does not compute that sum.
-/

namespace VoltProtocol.PreviewAgreement

open Machine PegStabilityModule PegStabilitySystem

variable {ω : Type}

/-- What can be read off a world: for each token the balances and what each account approved the PSM to
pull, and the total supply of VOLT. -/
structure Views (ω : Type) where
  held : ω → (token account : Address) → ℕ
  approved : ω → (token owner : Address) → ℕ
  supply : ω → ℕ

/-- The tokens around a PSM move exactly what it asks them to move whenever they can: they refuse only
what is not covered, what is not approved, what goes to the zero address, and a mint that overflows the
supply. An update of the oracle leaves its answers as they are. -/
structure Exact (contracts : Contracts ω) (psm : PegStabilityModule) (views : Views ω) : Prop where
  balanceOf (w : ω) (token account : Address) :
    contracts.balanceOf w token account = some (views.held w token account)
  update (w : ω) : ∃ u, contracts.update w psm.oracle = some u ∧ contracts.read u = contracts.read w ∧
    views.held u = views.held w ∧ views.approved u = views.approved w ∧ views.supply u = views.supply w
  pull {w : ω} {token owner : Address} {amount : ℕ} (covered : amount ≤ views.held w token owner)
    (approved : amount ≤ views.approved w token owner) :
    ∃ u, contracts.transferFrom w token psm.self owner psm.self amount = some u ∧
      views.held u = Ledger.moveIn (views.held w) token owner psm.self amount ∧
      views.supply u = views.supply w
  push {w : ω} {token recipient : Address} {amount : ℕ} (proper : recipient ≠ 0)
    (covered : amount ≤ views.held w token psm.self) :
    ∃ u, contracts.transfer w token psm.self recipient amount = some u ∧
      views.held u = Ledger.moveIn (views.held w) token psm.self recipient amount ∧
      views.supply u = views.supply w
  refuse {w : ω} {token recipient : Address} {amount : ℕ} (short : views.held w token psm.self < amount) :
    contracts.transfer w token psm.self recipient amount = none
  mint {w : ω} {account : Address} {amount : ℕ} (proper : account ≠ 0)
    (room : views.supply w + amount < 2 ^ 256) :
    ∃ u, contracts.mint w psm.volt psm.self account amount = some u ∧
      views.held u = Ledger.creditIn (views.held w) psm.volt account amount ∧
      views.supply u = views.supply w + amount
  overflow {w : ω} {account : Address} {amount : ℕ} (full : 2 ^ 256 ≤ views.supply w + amount) :
    contracts.mint w psm.volt psm.self account amount = none

/-- The VOLT held covers a mint, or the buffer covers the rest. -/
def Covered (psm : PegStabilityModule) (now held amountOut : ℕ) : Prop :=
  amountOut ≤ held ∨ ∃ level, psm.buffer now = .ok level ∧ amountOut - held ≤ level

/-- What the VOLT held does not cover still fits the supply. -/
def Issuable (views : Views ω) (w : ω) (psm : PegStabilityModule) (amountOut : ℕ) : Prop :=
  views.held w psm.volt psm.self < amountOut →
    views.supply w + (amountOut - views.held w psm.volt psm.self) < 2 ^ 256

/-- A mint does what the previews say. -/
structure MintAgrees (contracts : Contracts ω) (psm : PegStabilityModule) (views : Views ω) (now : ℕ) (w : ω)
    (caller recipient : Address) (amountIn minAmountOut : ℕ) : Prop where
  /-- It succeeds exactly when the quote is enough, covered, and fits the supply. -/
  succeeds : (∃ o, psm.mint contracts now w caller recipient amountIn minAmountOut = .ok o) ↔
    ∃ out, psm.getMintAmountOut contracts w amountIn = .ok out ∧ minAmountOut ≤ out ∧
      Covered psm now (views.held w psm.volt psm.self) out ∧ Issuable views w psm out
  /-- To be covered is not to exceed the largest mint, whenever that preview answers. -/
  maximum (largest : ℕ) (previewed : psm.getMaxMintAmountOut contracts now w = .ok largest) (out : ℕ) :
    Covered psm now (views.held w psm.volt psm.self) out ↔ out ≤ largest
  /-- It moves the previewed amounts, first what the PSM holds and then what it has minted. -/
  moves (o : Outcome ω) (minted : psm.mint contracts now w caller recipient amountIn minAmountOut = .ok o) :
    psm.getMintAmountOut contracts w amountIn = .ok o.amountOut ∧
      views.held o.world psm.underlyingToken =
        Ledger.move (views.held w psm.underlyingToken) caller psm.self amountIn ∧
      views.held o.world psm.volt = Ledger.credit (Ledger.debit (views.held w psm.volt) psm.self
        (min (views.held w psm.volt psm.self) o.amountOut)) recipient o.amountOut ∧
      views.supply o.world =
        views.supply w + (o.amountOut - min (views.held w psm.volt psm.self) o.amountOut) ∧
      o.psm.buffer now = (fun level => level - (o.amountOut - min (views.held w psm.volt psm.self) o.amountOut)) <$>
        psm.buffer now
  /-- Read account by account, between others and the PSM. -/
  amounts (o : Outcome ω) (minted : psm.mint contracts now w caller recipient amountIn minAmountOut = .ok o)
      (payer : caller ≠ psm.self) (payee : recipient ≠ psm.self) :
    views.held o.world psm.underlyingToken caller = views.held w psm.underlyingToken caller - amountIn ∧
      views.held o.world psm.volt recipient = views.held w psm.volt recipient + o.amountOut ∧
      views.held o.world psm.volt psm.self = views.held w psm.volt psm.self -
        min (views.held w psm.volt psm.self) o.amountOut

/-- A redemption does what the preview says. -/
structure RedeemAgrees (contracts : Contracts ω) (psm : PegStabilityModule) (views : Views ω) (w : ω)
    (caller recipient : Address) (amountFeiIn minAmountOut : ℕ) : Prop where
  /-- It succeeds exactly when the quote is enough and the PSM holds it. -/
  succeeds : (∃ o, psm.redeem contracts w caller recipient amountFeiIn minAmountOut = .ok o) ↔
    ∃ out, psm.getRedeemAmountOut contracts w amountFeiIn = .ok out ∧ minAmountOut ≤ out ∧
      out ≤ views.held w psm.underlyingToken psm.self
  /-- It moves the previewed amounts and neither mints VOLT nor takes from the buffer. -/
  moves (o : Outcome ω) (redeemed : psm.redeem contracts w caller recipient amountFeiIn minAmountOut = .ok o) :
    psm.getRedeemAmountOut contracts w amountFeiIn = .ok o.amountOut ∧
      views.held o.world psm.volt = Ledger.move (views.held w psm.volt) caller psm.self amountFeiIn ∧
      views.held o.world psm.underlyingToken =
        Ledger.move (views.held w psm.underlyingToken) psm.self recipient o.amountOut ∧
      views.supply o.world = views.supply w ∧ o.psm = psm
  /-- Read account by account, between others and the PSM. -/
  amounts (o : Outcome ω) (redeemed : psm.redeem contracts w caller recipient amountFeiIn minAmountOut = .ok o)
      (payer : caller ≠ psm.self) (payee : recipient ≠ psm.self) :
    views.held o.world psm.volt caller = views.held w psm.volt caller - amountFeiIn ∧
      views.held o.world psm.volt psm.self = views.held w psm.volt psm.self + amountFeiIn ∧
      views.held o.world psm.underlyingToken recipient =
        views.held w psm.underlyingToken recipient + o.amountOut ∧
      views.held o.world psm.underlyingToken psm.self =
        views.held w psm.underlyingToken psm.self - o.amountOut

/-! ### Quotes and the buffer -/

section Reads

variable {contracts : Contracts ω} {psm : PegStabilityModule} {w u : ω} {now amount level : ℕ}

/-- Quotes depend on a world only through what its oracles answer. -/
theorem getMintAmountOut_congr (same : contracts.read u = contracts.read w) (amount : ℕ) :
    psm.getMintAmountOut contracts u amount = psm.getMintAmountOut contracts w amount := by
  simp only [getMintAmountOut, OracleRef.readOracle, OracleRef.readValid, same]

theorem getRedeemAmountOut_congr (same : contracts.read u = contracts.read w) (amount : ℕ) :
    psm.getRedeemAmountOut contracts u amount = psm.getRedeemAmountOut contracts w amount := by
  simp only [getRedeemAmountOut, OracleRef.readOracle, OracleRef.readValid, same]

/-- A limiter that takes whole amounts gives what its buffer holds. -/
theorem depleteBuffer_of_le {limiter : RateLimited} (whole : limiter.doPartialAction = false)
    (read : limiter.buffer now = .ok level) (positive : level ≠ 0) (enough : amount ≤ level) :
    limiter.depleteBuffer now amount =
      .ok ({ limiter with bufferStored := level - amount, lastBufferUsedTime := now }, amount) := by
  have notPartial : ¬ (limiter.doPartialAction = true ∧ amount > level) := by simp [whole]
  simp only [RateLimited.depleteBuffer, bind_eq_ok, require_eq_ok, checkedSub_eq_ok, pure_eq_ok]
  refine ⟨level, read, (), positive, (), ?_, level - amount, ⟨?_, ?_⟩, ?_⟩
  all_goals simp only [if_neg notPartial]
  · exact enough
  · exact enough

/-- What is left in the buffer right after. -/
theorem buffer_depleted {limiter : RateLimited} (read : limiter.buffer now = .ok level) (amount : ℕ) :
    RateLimited.buffer { limiter with bufferStored := level - amount, lastBufferUsedTime := now } now =
      .ok (level - amount) := by
  obtain ⟨⟨-, fits⟩, rfl⟩ := RateLimited.buffer_eq_ok.mp read
  have capped : limiter.level now ≤ limiter.bufferCap := min_le_right ..
  have bounded : limiter.level now ≤
      limiter.bufferStored + limiter.rateLimitPerSecond * (now - limiter.lastBufferUsedTime) := by
    rw [Nat.mul_comm]
    exact min_le_left ..
  refine RateLimited.buffer_eq_ok.mpr ⟨⟨le_rfl, ?_⟩, ?_⟩
  · simp only [Nat.sub_self, Nat.mul_zero, Nat.add_zero]
    omega
  · simp only [RateLimited.level, TokenBucket.Lazy.level, RateLimited.toLazy, Nat.sub_self, zero_smul, Nat.add_zero]
    exact (min_eq_left ((Nat.sub_le ..).trans capped)).symm

end Reads

/-! ### Mints -/

section Mints

variable {contracts : Contracts ω} {psm : PegStabilityModule} {views : Views ω} {w : ω} {now level : ℕ}
  {caller recipient : Address} {amountIn minAmountOut amount out : ℕ} {o : Outcome ω}

/-- The caller pays the PSM. -/
theorem Exact.pay (exact : Exact contracts psm views) {token : Address}
    (covered : amount ≤ views.held w token caller) (approved : amount ≤ views.approved w token caller) :
    ∃ updated paid, contracts.update w psm.oracle = some updated ∧ contracts.read updated = contracts.read w ∧
      contracts.transferFrom updated token psm.self caller psm.self amount = some paid ∧
      views.held paid = Ledger.moveIn (views.held w) token caller psm.self amount ∧
      views.supply paid = views.supply w := by
  obtain ⟨updated, updating, same, held, approvals, supply⟩ := exact.update w
  rw [← held] at covered
  rw [← approvals] at approved
  obtain ⟨paid, pulled, moved, kept⟩ := exact.pull covered approved
  exact ⟨updated, paid, updating, same, pulled, held ▸ moved, kept.trans supply⟩

/-- The PSM pays out VOLT it holds, or nothing. -/
theorem Exact.payOut (exact : Exact contracts psm views) (proper : recipient ≠ 0)
    (covered : amount ≤ views.held w psm.volt psm.self) :
    ∃ sent, psm.sendHeldVolt contracts w recipient amount = .ok sent ∧
      views.held sent = Ledger.moveIn (views.held w) psm.volt psm.self recipient amount ∧
      views.supply sent = views.supply w := by
  rw [sendHeldVolt]
  split_ifs with positive
  · obtain ⟨sent, transferred, moved, kept⟩ := exact.push proper covered
    exact ⟨sent, external_eq_ok.mpr transferred, moved, kept⟩
  · obtain rfl : amount = 0 := not_not.mp positive
    exact ⟨w, rfl, (Ledger.moveIn_zero ..).symm, rfl⟩

/-- A mint up to the point where VOLT may have to be minted: what was paid in, and what the PSM held
paid out. -/
theorem Exact.begun (exact : Exact contracts psm views) (now : ℕ) (distinct : psm.underlyingToken ≠ psm.volt)
    (unpaused : psm.paused = false) (mintable : psm.mintPaused = false) (proper : recipient ≠ 0)
    (covered : amountIn ≤ views.held w psm.underlyingToken caller)
    (approved : amountIn ≤ views.approved w psm.underlyingToken caller)
    (quoted : psm.getMintAmountOut contracts w amountIn = .ok out) (enough : minAmountOut ≤ out) :
    ∃ sent, views.held sent psm.underlyingToken =
        Ledger.move (views.held w psm.underlyingToken) caller psm.self amountIn ∧
      views.held sent psm.volt = Ledger.move (views.held w psm.volt) psm.self recipient
        (min (views.held w psm.volt psm.self) out) ∧
      views.supply sent = views.supply w ∧
      psm.mint contracts now w caller recipient amountIn minAmountOut =
        if out - min (views.held w psm.volt psm.self) out ≠ 0 then do
          let (limiter, done, minted) ← psm.mintVolt contracts now sent recipient
            (out - min (views.held w psm.volt psm.self) out)
          return ⟨{ psm with toRateLimited := limiter }, done, out, minted⟩
        else return ⟨psm, sent, out, 0⟩ := by
  obtain ⟨updated, paid, updating, same, pulled, moved, kept⟩ := exact.pay covered approved
  have untouched : views.held paid psm.volt = views.held w psm.volt := by
    rw [moved, Ledger.moveIn_of_ne distinct.symm]
  have less : min (views.held w psm.volt psm.self) out ≤ views.held paid psm.volt psm.self := by
    rw [untouched]
    exact min_le_left ..
  obtain ⟨sent, sending, paidOut, supply⟩ := exact.payOut proper less
  refine ⟨sent, ?_, ?_, supply.trans kept, ?_⟩
  · rw [paidOut, Ledger.moveIn_of_ne distinct, moved, Ledger.moveIn_self]
  · rw [paidOut, Ledger.moveIn_self, untouched]
  · have read := exact.balanceOf paid psm.volt psm.self
    rw [untouched] at read
    have requote := (getMintAmountOut_congr same amountIn).trans quoted
    have subtract : checkedSub out (min (views.held w psm.volt psm.self) out) =
        .ok (out - min (views.held w psm.volt psm.self) out) :=
      checkedSub_eq_ok.mpr ⟨min_le_right .., rfl⟩
    have guarded : psm.mint contracts now w caller recipient amountIn minAmountOut =
        psm.mintInternal contracts now w caller recipient amountIn minAmountOut := by
      simp only [PegStabilityModule.mint, CoreRef.whenNotPaused, unpaused, mintable, Bool.not_false,
        require_of, ok_bind]
    rw [guarded, mintInternal, OracleRef.updateOracle, updating, external_some, ok_bind, requote, ok_bind,
      require_of enough, ok_bind, pulled, external_some, ok_bind, read, external_some, ok_bind]
    simp only [subtract, ok_bind, sending]

/-- A mint that succeeds has a quote that is enough. -/
theorem quote_of_mint (exact : Exact contracts psm views)
    (success : psm.mint contracts now w caller recipient amountIn minAmountOut = .ok o) :
    psm.getMintAmountOut contracts w amountIn = .ok o.amountOut ∧ minAmountOut ≤ o.amountOut := by
  obtain ⟨updated, updating, same, -⟩ := exact.update w
  simp only [PegStabilityModule.mint, mintInternal, OracleRef.updateOracle, updating, external_some, bind_eq_ok,
    require_eq_ok, Except.ok.injEq, exists_eq_left'] at success
  obtain ⟨_, -, _, -, out, quoted, _, enough, _, -, _, -, _, -, _, -, success⟩ := success
  rw [getMintAmountOut_congr same] at quoted
  split_ifs at success with needed
  · simp only [bind_eq_ok, pure_eq_ok] at success
    obtain ⟨_, -, rfl⟩ := success
    exact ⟨quoted, enough⟩
  · obtain rfl := pure_eq_ok.mp success
    exact ⟨quoted, enough⟩

/-- What minting VOLT does when the limiter takes whole amounts. -/
theorem mintVolt_eq_ok (exact : Exact contracts psm views) (whole : psm.doPartialAction = false)
    (positive : amount ≠ 0) {limiter : RateLimited} {done : ω} {minted : ℕ} :
    psm.mintVolt contracts now w recipient amount = .ok (limiter, done, minted) ↔
      ∃ level, psm.buffer now = .ok level ∧ amount ≤ level ∧ views.supply w + amount < 2 ^ 256 ∧
        contracts.mint w psm.volt psm.self recipient amount = some done ∧ minted = amount ∧
        limiter = { psm.toRateLimited with bufferStored := level - amount, lastBufferUsedTime := now } := by
  constructor
  · intro success
    simp only [mintVolt, bind_eq_ok] at success
    obtain ⟨⟨depleted, used⟩, depleting, success⟩ := success
    obtain ⟨rfl, -⟩ := RateLimited.depleteBuffer_whole whole depleting
    simp only [if_pos positive, bind_eq_ok, external_eq_ok, pure_eq_ok, Prod.mk.injEq] at success
    obtain ⟨_, minting, rfl, rfl, rfl⟩ := success
    obtain ⟨⟨readable, enough, -⟩, -⟩ := RateLimited.depleteBuffer_spec depleting
    have read : psm.buffer now = .ok (psm.level now) := RateLimited.buffer_eq_ok.mpr ⟨readable, rfl⟩
    have same := depleteBuffer_of_le whole read (by omega) enough
    refine ⟨psm.level now, read, enough, ?_, minting, rfl, ?_⟩
    · by_contra full
      rw [exact.overflow (Nat.not_lt.mp full)] at minting
      cases minting
    · exact congrArg Prod.fst (Except.ok.inj (depleting.symm.trans same))
  · rintro ⟨level, read, enough, -, minting, rfl, rfl⟩
    have depleting : psm.depleteBuffer now minted = _ := depleteBuffer_of_le whole read (by omega) enough
    simp only [mintVolt, bind_eq_ok]
    refine ⟨_, depleting, ?_⟩
    simp only [if_pos positive, bind_eq_ok, external_eq_ok, pure_eq_ok]
    exact ⟨_, minting, rfl⟩

/-- What is covered by the VOLT held and what is not. -/
theorem rest_cases (held out : ℕ) :
    (out ≤ held ∧ min held out = out ∧ out - min held out = 0) ∨
      (held < out ∧ min held out = held ∧ out - min held out = out - held ∧ out - min held out ≠ 0) := by
  rcases le_or_gt out held with covered | short
  · exact .inl ⟨covered, min_eq_right covered, by omega⟩
  · exact .inr ⟨short, min_eq_left short.le, by omega, by omega⟩

/-- When the largest mint can be previewed, it is what the VOLT held and the buffer cover. -/
theorem covered_iff_le_maximum (exact : Exact contracts psm views) {largest : ℕ}
    (previewed : psm.getMaxMintAmountOut contracts now w = .ok largest) (out : ℕ) :
    Covered psm now (views.held w psm.volt psm.self) out ↔ out ≤ largest := by
  simp only [getMaxMintAmountOut, exact.balanceOf, external_some, ok_bind, bind_eq_ok, uint_eq_ok] at previewed
  obtain ⟨level, read, -, rfl⟩ := previewed
  constructor
  · rintro (covered | ⟨same, read', enough⟩)
    · omega
    · obtain rfl := Except.ok.inj (read.symm.trans read')
      omega
  · intro enough
    exact .inr ⟨level, read, by omega⟩

variable (exact : Exact contracts psm views) (whole : psm.doPartialAction = false)
  (distinct : psm.underlyingToken ≠ psm.volt) (unpaused : psm.paused = false) (mintable : psm.mintPaused = false)
  (proper : recipient ≠ 0) (covered : amountIn ≤ views.held w psm.underlyingToken caller)
  (approved : amountIn ≤ views.approved w psm.underlyingToken caller)

include exact whole distinct unpaused mintable proper covered approved

/-- A covered quote that is enough goes through. -/
theorem mint_of_covered (quoted : psm.getMintAmountOut contracts w amountIn = .ok out)
    (enough : minAmountOut ≤ out) (covers : Covered psm now (views.held w psm.volt psm.self) out)
    (issuable : Issuable views w psm out) :
    ∃ o, psm.mint contracts now w caller recipient amountIn minAmountOut = .ok o := by
  obtain ⟨sent, -, -, supply, tail⟩ := exact.begun now distinct unpaused mintable proper covered
    approved quoted enough
  rw [tail]
  obtain ⟨-, -, nothing⟩ | ⟨short, -, rest, positive⟩ := rest_cases (views.held w psm.volt psm.self) out
  · rw [nothing, if_neg (not_not.mpr rfl)]
    exact ⟨_, rfl⟩
  · have room := issuable short
    obtain ⟨level, read, room'⟩ := covers.resolve_left (by omega)
    rw [← rest] at room room'
    rw [← supply] at room
    obtain ⟨done, minting, -⟩ := exact.mint proper room
    have minted := (mintVolt_eq_ok exact whole positive).mpr ⟨level, read, room', room, minting, rfl, rfl⟩
    rw [if_pos positive, minted]
    exact ⟨_, rfl⟩

/-- A mint that goes through was covered, and moved the quoted amounts. -/
theorem mint_outcome (success : psm.mint contracts now w caller recipient amountIn minAmountOut = .ok o) :
    Covered psm now (views.held w psm.volt psm.self) o.amountOut ∧ Issuable views w psm o.amountOut ∧
      views.held o.world psm.underlyingToken =
        Ledger.move (views.held w psm.underlyingToken) caller psm.self amountIn ∧
      views.held o.world psm.volt = Ledger.credit (Ledger.debit (views.held w psm.volt) psm.self
        (min (views.held w psm.volt psm.self) o.amountOut)) recipient o.amountOut ∧
      views.supply o.world =
        views.supply w + (o.amountOut - min (views.held w psm.volt psm.self) o.amountOut) ∧
      o.psm.buffer now = (fun level => level - (o.amountOut - min (views.held w psm.volt psm.self) o.amountOut)) <$>
        psm.buffer now := by
  obtain ⟨quoted, enough⟩ := quote_of_mint exact success
  obtain ⟨sent, paidIn, paidOut, supply, tail⟩ := exact.begun now distinct unpaused mintable proper
    covered approved quoted enough
  rw [tail] at success
  obtain ⟨covers, all, nothing⟩ | ⟨short, all, rest, positive⟩ :=
    rest_cases (views.held w psm.volt psm.self) o.amountOut
  · -- the VOLT held covers the mint and the limiter is not touched
    rw [nothing, if_neg (not_not.mpr rfl)] at success
    have done : o = ⟨psm, sent, o.amountOut, 0⟩ := (pure_eq_ok.mp success).symm
    have sameWorld : o.world = sent := congrArg Outcome.world done
    have samePsm : o.psm = psm := congrArg Outcome.psm done
    rw [sameWorld, samePsm, nothing]
    refine ⟨.inl covers, fun short => absurd covers (by omega), paidIn, ?_, supply, ?_⟩
    · rw [paidOut, all]
      rfl
    · simp
  · -- the rest is minted out of the buffer
    rw [if_pos positive, bind_eq_ok] at success
    obtain ⟨⟨limiter, done, minted⟩, minting, outcome⟩ := success
    obtain ⟨level, read, enough, room, issued, rfl, rfl⟩ := (mintVolt_eq_ok exact whole positive).mp minting
    obtain ⟨_, same, credited, raised⟩ := exact.mint proper room
    obtain rfl := Option.some.inj (issued.symm.trans same)
    have sameWorld : o.world = done := congrArg Outcome.world (pure_eq_ok.mp outcome).symm
    have samePsm := congrArg Outcome.psm (pure_eq_ok.mp outcome)
    rw [sameWorld, ← samePsm]
    refine ⟨.inr ⟨level, read, rest ▸ enough⟩, fun _ => ?_, ?_, ?_, ?_, ?_⟩
    · rw [← rest, ← supply]
      exact room
    · rw [credited, Ledger.creditIn_of_ne distinct, paidIn]
    · rw [credited, Ledger.creditIn_self, paidOut, Ledger.credit_move, all]
      congr 1
      omega
    · rw [raised, supply]
    · rw [read]
      exact buffer_depleted read _

theorem mint_agrees :
    MintAgrees contracts psm views now w caller recipient amountIn minAmountOut := by
  refine ⟨⟨?_, ?_⟩, fun largest previewed => covered_iff_le_maximum exact previewed, ?_, ?_⟩
  · rintro ⟨o, success⟩
    obtain ⟨quoted, enough⟩ := quote_of_mint exact success
    obtain ⟨covers, issuable, -⟩ :=
      mint_outcome exact whole distinct unpaused mintable proper covered approved success
    exact ⟨o.amountOut, quoted, enough, covers, issuable⟩
  · rintro ⟨out, quoted, enough, covers, issuable⟩
    exact mint_of_covered exact whole distinct unpaused mintable proper covered approved quoted enough
      covers issuable
  · intro o success
    obtain ⟨-, -, moves⟩ :=
      mint_outcome exact whole distinct unpaused mintable proper covered approved success
    exact ⟨(quote_of_mint exact success).1, moves⟩
  · intro o success payer payee
    obtain ⟨-, -, underlying, volt, -⟩ :=
      mint_outcome exact whole distinct unpaused mintable proper covered approved success
    rw [underlying, volt]
    refine ⟨Ledger.move_source payer, ?_, ?_⟩
    · rw [Ledger.credit_self, Ledger.debit_of_ne payee]
    · rw [Ledger.credit_of_ne payee.symm, Ledger.debit_self]

end Mints

/-! ### Redemptions -/

section Redemptions

variable {contracts : Contracts ω} {psm : PegStabilityModule} {views : Views ω} {w : ω}
  {caller recipient : Address} {amountFeiIn minAmountOut out : ℕ} {o : Outcome ω}

/-- A redemption is a quote, a payment of VOLT and a transfer of the quoted amount. -/
theorem Exact.redeem_eq_ok (exact : Exact contracts psm views) (unpaused : psm.paused = false)
    (redeemable : psm.redeemPaused = false) (covered : amountFeiIn ≤ views.held w psm.volt caller)
    (approved : amountFeiIn ≤ views.approved w psm.volt caller) :
    ∃ paid, views.held paid = Ledger.moveIn (views.held w) psm.volt caller psm.self amountFeiIn ∧
      views.supply paid = views.supply w ∧
      ∀ o, psm.redeem contracts w caller recipient amountFeiIn minAmountOut = .ok o ↔
        psm.getRedeemAmountOut contracts w amountFeiIn = .ok o.amountOut ∧ minAmountOut ≤ o.amountOut ∧
          contracts.transfer paid psm.underlyingToken psm.self recipient o.amountOut = some o.world ∧
          o.psm = psm ∧ o.minted = 0 := by
  obtain ⟨updated, paid, updating, same, pulled, moved, kept⟩ := exact.pay covered approved
  refine ⟨paid, moved, kept, ?_⟩
  intro o
  simp only [redeem, redeemInternal, CoreRef.whenNotPaused, OracleRef.updateOracle, unpaused, redeemable,
    updating, getRedeemAmountOut_congr same, pulled, Bool.not_false, require_of, external_some, ok_bind,
    bind_eq_ok, require_eq_ok, external_eq_ok, pure_eq_ok]
  constructor
  · rintro ⟨amountOut, quoted, _, enough, sent, sending, rfl⟩
    exact ⟨quoted, enough, sending, rfl, rfl⟩
  · rintro ⟨quoted, enough, sending, samePsm, unminted⟩
    refine ⟨o.amountOut, quoted, (), enough, o.world, sending, ?_⟩
    rw [← samePsm, ← unminted]

variable (exact : Exact contracts psm views) (distinct : psm.underlyingToken ≠ psm.volt)
  (unpaused : psm.paused = false) (redeemable : psm.redeemPaused = false) (proper : recipient ≠ 0)
  (covered : amountFeiIn ≤ views.held w psm.volt caller)
  (approved : amountFeiIn ≤ views.approved w psm.volt caller)

include exact distinct unpaused redeemable proper covered approved

/-- A redemption that goes through was covered, and moved the quoted amounts. -/
theorem redeem_outcome (success : psm.redeem contracts w caller recipient amountFeiIn minAmountOut = .ok o) :
    psm.getRedeemAmountOut contracts w amountFeiIn = .ok o.amountOut ∧ minAmountOut ≤ o.amountOut ∧
      o.amountOut ≤ views.held w psm.underlyingToken psm.self ∧
      views.held o.world psm.volt = Ledger.move (views.held w psm.volt) caller psm.self amountFeiIn ∧
      views.held o.world psm.underlyingToken =
        Ledger.move (views.held w psm.underlyingToken) psm.self recipient o.amountOut ∧
      views.supply o.world = views.supply w ∧ o.psm = psm := by
  obtain ⟨paid, moved, kept, outcome⟩ := exact.redeem_eq_ok unpaused redeemable covered approved
  obtain ⟨quoted, enough, sending, samePsm, -⟩ := (outcome o).mp success
  have reserves : views.held paid psm.underlyingToken = views.held w psm.underlyingToken := by
    rw [moved, Ledger.moveIn_of_ne distinct]
  have held : o.amountOut ≤ views.held paid psm.underlyingToken psm.self := by
    by_contra short
    rw [exact.refuse (Nat.not_le.mp short)] at sending
    cases sending
  obtain ⟨sent, transferred, paidOut, supply⟩ := exact.push proper held
  obtain rfl := Option.some.inj (sending.symm.trans transferred)
  refine ⟨quoted, enough, reserves ▸ held, ?_, ?_, supply.trans kept, samePsm⟩
  · rw [paidOut, Ledger.moveIn_of_ne distinct.symm, moved, Ledger.moveIn_self]
  · rw [paidOut, Ledger.moveIn_self, reserves]

theorem redeem_agrees : RedeemAgrees contracts psm views w caller recipient amountFeiIn minAmountOut := by
  refine ⟨⟨?_, ?_⟩, ?_, ?_⟩
  · rintro ⟨o, success⟩
    obtain ⟨quoted, enough, held, -⟩ :=
      redeem_outcome exact distinct unpaused redeemable proper covered approved success
    exact ⟨o.amountOut, quoted, enough, held⟩
  · rintro ⟨out, quoted, enough, held⟩
    obtain ⟨paid, moved, -, outcome⟩ := exact.redeem_eq_ok unpaused redeemable covered approved
    have reserves : views.held paid psm.underlyingToken = views.held w psm.underlyingToken := by
      rw [moved, Ledger.moveIn_of_ne distinct]
    rw [← reserves] at held
    obtain ⟨sent, sending, -⟩ := exact.push proper held
    exact ⟨⟨psm, sent, out, 0⟩, (outcome _).mpr ⟨quoted, enough, sending, rfl, rfl⟩⟩
  · intro o success
    obtain ⟨quoted, -, -, moves⟩ :=
      redeem_outcome exact distinct unpaused redeemable proper covered approved success
    exact ⟨quoted, moves⟩
  · intro o success payer payee
    obtain ⟨-, -, -, volt, underlying, -⟩ :=
      redeem_outcome exact distinct unpaused redeemable proper covered approved success
    rw [volt, underlying]
    exact ⟨Ledger.move_source payer, Ledger.move_target payer, Ledger.move_target payee.symm,
      Ledger.move_source payee.symm⟩

end Redemptions

/-! ### Every reachable PSM -/

/-- Trades of an unpaused PSM do what its previews say, in every state it can reach: they succeed exactly
when the quote is enough and covered, and they move exactly the quoted amounts. -/
theorem previews_agree {contracts : Contracts ω} {s : State ω} {views : Views ω} {caller recipient : Address}
    (reached : Reachable (step contracts) Initial s) (exact : Exact contracts s.psm views)
    (distinct : s.psm.underlyingToken ≠ s.psm.volt) (unpaused : s.psm.paused = false) (proper : recipient ≠ 0) :
    (∀ amountIn minAmountOut, s.psm.mintPaused = false →
      amountIn ≤ views.held s.world s.psm.underlyingToken caller →
      amountIn ≤ views.approved s.world s.psm.underlyingToken caller →
      MintAgrees contracts s.psm views s.now s.world caller recipient amountIn minAmountOut) ∧
    (∀ amountFeiIn minAmountOut, s.psm.redeemPaused = false →
      amountFeiIn ≤ views.held s.world s.psm.volt caller →
      amountFeiIn ≤ views.approved s.world s.psm.volt caller →
      RedeemAgrees contracts s.psm views s.world caller recipient amountFeiIn minAmountOut) := by
  have whole := PeakDemand.whole_of_reachable reached
  refine ⟨?_, ?_⟩
  · intro amountIn minAmountOut mintable covered approved
    exact mint_agrees exact whole distinct unpaused mintable proper covered approved
  · intro amountFeiIn minAmountOut redeemable covered approved
    exact redeem_agrees exact distinct unpaused redeemable proper covered approved

/-! ### Tokens kept in tables -/

/-- Balances and approvals for each token, and the supply of VOLT. -/
structure Bank where
  held : Address → Address → ℕ
  approved : Address → Address → ℕ
  supply : ℕ

/-- Tokens that keep these tables, and oracles that answer one price. -/
def bankContracts (price : D256) : Contracts Bank where
  read _ _ := some (price, true)
  update bank _ := some bank
  balanceOf bank token account := some (bank.held token account)
  transfer bank token sender recipient amount :=
    if recipient ≠ 0 ∧ amount ≤ bank.held token sender then
      some { bank with held := Ledger.moveIn bank.held token sender recipient amount }
    else none
  transferFrom bank token _ owner recipient amount :=
    if amount ≤ bank.held token owner ∧ amount ≤ bank.approved token owner then
      some { bank with
        held := Ledger.moveIn bank.held token owner recipient amount
        approved := Function.update bank.approved token (Ledger.debit (bank.approved token) owner amount) }
    else none
  mint bank token _ account amount :=
    if account ≠ 0 ∧ bank.supply + amount < 2 ^ 256 then
      some { bank with
        held := Ledger.creditIn bank.held token account amount
        supply := bank.supply + amount }
    else none
  deposit bank _ := some bank

def bankViews : Views Bank := ⟨Bank.held, Bank.approved, Bank.supply⟩

theorem exact_bankContracts (price : D256) (psm : PegStabilityModule) :
    Exact (bankContracts price) psm bankViews where
  balanceOf _ _ _ := rfl
  update bank := ⟨bank, rfl, rfl, rfl, rfl, rfl⟩
  pull covered approved := ⟨_, if_pos ⟨covered, approved⟩, rfl, rfl⟩
  push proper covered := ⟨_, if_pos ⟨proper, covered⟩, rfl, rfl⟩
  refuse short := if_neg fun fits => absurd fits.2 (Nat.not_le.mpr short)
  mint proper room := ⟨_, if_pos ⟨proper, room⟩, rfl, rfl⟩
  overflow full := if_neg fun fits => absurd fits.2 (Nat.not_lt.mpr full)

/-- A PSM at 10 for VOLT at 1 and the token at 3, whose limiter has the given cap. -/
def trading (mintingBufferCap : ℕ) : Params :=
  ⟨10, 1, 2, 0, 0, false, 0, 0, 1, 1, mintingBufferCap, 3, 4, none⟩

/-- The PSM right after its deployment at time 5. -/
def deployed (mintingBufferCap : ℕ) : PegStabilityModule :=
  { toCoreRef := ⟨.psmAdmin, false⟩
    toRateLimited := ⟨MAX_FEI_LIMIT_PER_SECOND, 1, 5, mintingBufferCap, false, mintingBufferCap⟩
    toOracleRef := ⟨2, 0, 0, false⟩
    self := 10, volt := 1, underlyingToken := 3, surplusTarget := 4
    mintFeeBasisPoints := 0, redeemFeeBasisPoints := 0, reservesThreshold := 1, MAX_FEE := 300
    redeemPaused := false, mintPaused := false, priceBound := none }

/-- The PSM holds 10 VOLT and 20 of the token; the caller at 7 holds and approves 50 of either. -/
def funded : Bank where
  held token account := if account = 10 then (if token = 1 then 10 else 20) else if account = 7 then 50 else 0
  approved _ account := if account = 7 then 50 else 0
  supply := 60

/-- At a price of one, a mint of 30 pays out the 10 VOLT held and 20 new ones, and a redemption of 20
pays out all the reserves. -/
theorem previews_agree_funded :
    (∃ o, (deployed 100).mint (bankContracts ⟨10 ^ 18⟩) 5 funded 7 8 30 30 = .ok o ∧
      o.world.held 1 8 = 30 ∧ o.world.held 1 10 = 0 ∧ o.world.supply = 80) ∧
    (∃ o, (deployed 100).redeem (bankContracts ⟨10 ^ 18⟩) funded 7 8 20 20 = .ok o ∧
      o.world.held 3 8 = 20 ∧ o.world.held 3 10 = 0 ∧ o.world.supply = 60) := by
  have start : PegStabilityModule.deploy 5 (trading 100) = .ok (deployed 100) := by decide +kernel
  have reached : Reachable (step (bankContracts ⟨10 ^ 18⟩)) Initial ⟨5, deployed 100, funded, 0⟩ :=
    ⟨_, [], ⟨trading 100, start⟩, rfl⟩
  obtain ⟨mints, redemptions⟩ := @previews_agree _ _ _ _ 7 8 reached
    (exact_bankContracts ⟨10 ^ 18⟩ (deployed 100)) (by decide) rfl (by decide)
  have mintQuote : (deployed 100).getMintAmountOut (bankContracts ⟨10 ^ 18⟩) funded 30 = .ok 30 := by
    decide +kernel
  have redeemQuote : (deployed 100).getRedeemAmountOut (bankContracts ⟨10 ^ 18⟩) funded 20 = .ok 20 := by
    decide +kernel
  have full : (deployed 100).buffer 5 = .ok 100 := by decide +kernel
  refine ⟨?_, ?_⟩
  · have agrees := mints 30 30 rfl (by decide) (by decide)
    obtain ⟨o, success⟩ := agrees.succeeds.mpr
      ⟨30, mintQuote, le_rfl, .inr ⟨100, full, by decide⟩, fun _ => by decide +kernel⟩
    obtain ⟨quoted, -, -, supply, -⟩ := agrees.moves o success
    obtain ⟨-, received, left⟩ := agrees.amounts o success (by decide) (by decide)
    obtain same : o.amountOut = 30 := Except.ok.inj (quoted.symm.trans mintQuote)
    rw [same] at received left supply
    exact ⟨o, success, received, left, supply⟩
  · have agrees := redemptions 20 20 rfl (by decide) (by decide)
    obtain ⟨o, success⟩ := agrees.succeeds.mpr ⟨20, redeemQuote, le_rfl, by decide⟩
    obtain ⟨quoted, -, -, supply, -⟩ := agrees.moves o success
    obtain ⟨-, -, received, left⟩ := agrees.amounts o success (by decide) (by decide)
    obtain same : o.amountOut = 20 := Except.ok.inj (quoted.symm.trans redeemQuote)
    rw [same] at received left
    exact ⟨o, success, received, left, supply⟩

/-- The PSM deployed with the largest cap and a rate of zero. -/
def unlimited : PegStabilityModule := { deployed uint256Max with rateLimitPerSecond := 0 }

/-- With the largest cap and a rate of zero the buffer can always be read, but the largest mint cannot be
previewed once the PSM holds VOLT, and yet a mint that the VOLT held covers goes through. -/
theorem mint_without_preview :
    Reachable (step (bankContracts ⟨10 ^ 18⟩)) Initial ⟨6, unlimited, funded, 0⟩ ∧
    Exact (bankContracts ⟨10 ^ 18⟩) unlimited bankViews ∧ unlimited.buffer 6 = .ok uint256Max ∧
    ¬ ((∃ o, unlimited.mint (bankContracts ⟨10 ^ 18⟩) 6 funded 7 8 5 5 = .ok o) ↔
      ∃ out largest, unlimited.getMintAmountOut (bankContracts ⟨10 ^ 18⟩) funded 5 = .ok out ∧
        unlimited.getMaxMintAmountOut (bankContracts ⟨10 ^ 18⟩) 6 funded = .ok largest ∧
        5 ≤ out ∧ out ≤ largest) := by
  have start : PegStabilityModule.deploy 5 { trading uint256Max with feiLimitPerSecond := 0 } = .ok unlimited := by
    decide +kernel
  have minted : (unlimited.mint (bankContracts ⟨10 ^ 18⟩) 6 funded 7 8 5 5).isOk = true := by
    decide +kernel
  have unpreviewed : unlimited.getMaxMintAmountOut (bankContracts ⟨10 ^ 18⟩) 6 funded = .error .panic := by
    decide +kernel
  refine ⟨⟨⟨5, unlimited, funded, 0⟩, [.wait 1], ⟨_, start⟩, rfl⟩, exact_bankContracts _ _, ?_, ?_⟩
  · decide +kernel
  · intro asPreviewed
    obtain ⟨out, largest, -, previewed, -⟩ := asPreviewed.mp (exists_of_isOk minted)
    rw [unpreviewed] at previewed
    cases previewed

end VoltProtocol.PreviewAgreement
