import VoltProtocol.Soundness.FixedPrice
import VoltProtocol.Soundness.ProtocolSettings
import VoltProtocol.Soundness.SupplyGrowth

/-! # VOLT stays backed

The equity of the protocol is the worth of the tokens that its custodians hold, less the VOLT that is held
elsewhere. No account whose roles only protect can lower it: trades round against the trader, allocations and
withdrawals to safety stay among the custodians, and nobody else is paid out. What remains is the change of
the prices themselves.
-/

namespace VoltProtocol.Solvency

open Machine ProtocolSystem ProtocolBooks ProtocolCallers ProtocolSettings

variable {τ κ : Type} {d : Deployment} {e : Externals τ κ} {held : τ → Address → Address → ℕ} {supply : τ → ℕ}
  {depth : ℕ} {p q : Protocol τ} {call : Call κ} {custodians tokens : Finset Address} {price : Address → ℕ}

/-! ### Custody -/

section Custody

variable {t u v : τ} {token source target : Address} {amount : ℕ}

/-- The units of a token that the custodians hold. -/
abbrev custody (held : τ → Address → Address → ℕ) (custodians : Finset Address) (t : τ) (token : Address) : ℕ :=
  FixedPrice.holdings held custodians t token

/-- What the custodians hold beyond the VOLT that others hold, in units of `10 ** -18` VOLT. -/
def equity (held : τ → Address → Address → ℕ) (supply : τ → ℕ) (volt : Address) (custodians tokens : Finset Address)
    (price : Address → ℕ) (t : τ) : ℤ :=
  ∑ token ∈ tokens, (price token : ℤ) * custody held custodians t token +
    Decimal.BASE * (custody held custodians t volt - supply t)

/-- The custodians lost nothing, and no VOLT was created. -/
structure Preserves (held : τ → Address → Address → ℕ) (supply : τ → ℕ) (custodians : Finset Address) (t u : τ) :
    Prop where
  custody : ∀ token, custody held custodians t token ≤ custody held custodians u token
  supply : supply u ≤ supply t

theorem Preserves.refl (t : τ) : Preserves held supply custodians t t := ⟨fun _ => le_rfl, le_rfl⟩

theorem Preserves.trans (first : Preserves held supply custodians t u) (second : Preserves held supply custodians u v) :
    Preserves held supply custodians t v :=
  ⟨fun token => (first.custody token).trans (second.custody token), second.supply.trans first.supply⟩

/-- One token may lose what pays for the VOLT that comes in or is not created, and the other way round. -/
theorem equity_le {volt : Address} (gain : ℤ) (member : token ∈ tokens)
    (others : ∀ other ∈ tokens, other ≠ token → custody held custodians t other ≤ custody held custodians u other)
    (changed : (custody held custodians t token : ℤ) + gain ≤ custody held custodians u token)
    (covered : Decimal.BASE * ((custody held custodians t volt : ℤ) - supply t) ≤
      Decimal.BASE * (custody held custodians u volt - supply u) + price token * gain) :
    equity held supply volt custodians tokens price t ≤ equity held supply volt custodians tokens price u := by
  have rest : ∑ other ∈ tokens.erase token, (price other : ℤ) * custody held custodians t other ≤
      ∑ other ∈ tokens.erase token, (price other : ℤ) * custody held custodians u other := by
    apply Finset.sum_le_sum
    intro other inside
    obtain ⟨different, inside⟩ := Finset.mem_erase.mp inside
    exact mul_le_mul_of_nonneg_left (by exact_mod_cast others other inside different) (Int.natCast_nonneg _)
  have one : (price token : ℤ) * (custody held custodians t token + gain) ≤
      price token * custody held custodians u token := mul_le_mul_of_nonneg_left changed (Int.natCast_nonneg _)
  simp only [equity, ← Finset.add_sum_erase tokens _ member]
  linarith

theorem Preserves.equity {volt : Address} (preserves : Preserves held supply custodians t u) :
    equity held supply volt custodians tokens price t ≤ equity held supply volt custodians tokens price u := by
  have reserves : ∑ token ∈ tokens, (price token : ℤ) * Solvency.custody held custodians t token ≤
      ∑ token ∈ tokens, (price token : ℤ) * Solvency.custody held custodians u token := by
    apply Finset.sum_le_sum
    intro token _
    exact mul_le_mul_of_nonneg_left (by exact_mod_cast preserves.custody token) (Int.natCast_nonneg _)
  have volts := preserves.custody volt
  have created := preserves.supply
  have net : (Decimal.BASE : ℤ) * (Solvency.custody held custodians t volt - supply t) ≤
      Decimal.BASE * (Solvency.custody held custodians u volt - supply u) := by
    apply mul_le_mul_of_nonneg_left _ (Int.natCast_nonneg _)
    omega
  exact add_le_add reserves net

/-- A move of a token between two accounts. -/
def Sent (held : τ → Address → Address → ℕ) (token source target : Address) (amount : ℕ) (t u : τ) : Prop :=
  amount ≤ held t token source ∧ held u = Ledger.moveIn (held t) token source target amount

theorem Sent.elsewhere (sent : Sent held token source target amount t u) {other : Address} (different : other ≠ token) :
    custody held custodians u other = custody held custodians t other := by
  rw [custody, FixedPrice.holdings, sent.2, Ledger.moveIn_of_ne different, custody, FixedPrice.holdings]

/-- A move takes its amount from the custodians if it starts with one, and gives it to them if it ends with one. -/
theorem Sent.moved (sent : Sent held token source target amount t u) (custodians : Finset Address) :
    custody held custodians u token + (if source ∈ custodians then amount else 0) =
      custody held custodians t token + if target ∈ custodians then amount else 0 := by
  rw [custody, FixedPrice.holdings, sent.2, Ledger.moveIn_self]
  exact Ledger.sum_move custodians target sent.1

/-- A move that only leaves custodians for custodians takes nothing from them. -/
theorem Sent.keeps (sent : Sent held token source target amount t u) (kept : source ∈ custodians → target ∈ custodians)
    (other : Address) : custody held custodians t other ≤ custody held custodians u other := by
  by_cases here : other = token
  · subst here
    have moved := sent.moved custodians
    split_ifs at moved with inside outside outside
    · omega
    · exact absurd (kept inside) outside
    · omega
    · omega
  · exact (sent.elsewhere here).ge

theorem Sent.preserves (sent : Sent held token source target amount t u) (same : supply u = supply t)
    (kept : source ∈ custodians → target ∈ custodians) : Preserves held supply custodians t u :=
  ⟨sent.keeps kept, same.le⟩

end Custody

/-! ### Trades -/

section Trades

variable {psm : PegStabilityModule} {sender recipient token oracle : Address} {amount : ℕ}

theorem sent_of_transfer (exact : Exact d.volt e held supply)
    (moved : p.withTokens <$> e.transfer p.tokens token sender recipient amount = some q) :
    ∃ t, q = p.withTokens t ∧ Sent held token sender recipient amount p.tokens t ∧ supply t = supply p.tokens := by
  obtain ⟨t, sent, rfl⟩ := Option.map_eq_some_iff.mp moved
  exact ⟨t, rfl, exact.transfer sent⟩

/-- What a trade did to the tokens before it minted or paid out: the oracle was updated, then the trader paid. -/
theorem paid_of_pull (exact : Exact d.volt e held supply) {u : Protocol τ} {owner : Address}
    (updated : (psmContracts d e depth).update p oracle = some u)
    (pulled : (psmContracts d e depth).transferFrom u token sender owner recipient amount = some q) :
    Sent held token owner recipient amount p.tokens q.tokens ∧ supply q.tokens = supply p.tokens := by
  rw [psmContracts_eq] at updated pulled
  simp only [leafContracts] at updated pulled
  have refreshed : held u.tokens = held p.tokens ∧ supply u.tokens = supply p.tokens := by
    split_ifs at updated
    · exact Option.some.inj updated ▸ ⟨rfl, rfl⟩
    · obtain ⟨t, answer, rfl⟩ := Option.map_eq_some_iff.mp updated
      exact exact.update answer
  obtain ⟨t, answer, rfl⟩ := Option.map_eq_some_iff.mp pulled
  obtain ⟨moved, same⟩ := exact.transferFrom answer
  rw [refreshed.1] at moved
  exact ⟨moved, same.trans refreshed.2⟩

theorem Sent.zero (t : τ) (token source target : Address) : Sent held token source target 0 t t := by
  refine ⟨Nat.zero_le _, ?_⟩
  rw [Ledger.moveIn_zero]

/-- The custodians keep what they have when VOLT is minted, whoever gets it. -/
theorem custody_of_created (custodians : Finset Address) {t u : τ} {account : Address}
    (created : held u = Ledger.creditIn (held t) d.volt account amount) :
    (∀ other, other ≠ d.volt → custody held custodians u other = custody held custodians t other) ∧
      custody held custodians t d.volt ≤ custody held custodians u d.volt := by
  constructor
  · intro other different
    rw [custody, FixedPrice.holdings, created, Ledger.creditIn_of_ne different, custody, FixedPrice.holdings]
  · rw [custody, custody, FixedPrice.holdings, FixedPrice.holdings, created, Ledger.creditIn_self, Ledger.sum_credit]
    exact Nat.le_add_right ..

/-- What a mint does to the tokens: the trader pays, VOLT that the PSM held goes out, and the rest may be minted. -/
structure Minted (held : τ → Address → Address → ℕ) (supply : τ → ℕ) (custodians : Finset Address) (d : Deployment)
    (p : Protocol τ) (psm : PegStabilityModule) (sender recipient : Address) (amountIn : ℕ)
    (o : PegStabilityModule.Outcome (Protocol τ)) (paid sent : τ) (given : ℕ) : Prop where
  pays : Sent held psm.underlyingToken sender psm.self amountIn p.tokens paid
  gives : Sent held d.volt psm.self recipient given paid sent
  covered : given + o.minted ≤ o.amountOut
  others : ∀ other, other ≠ d.volt → custody held custodians o.world.tokens other = custody held custodians sent other
  volt : custody held custodians sent d.volt ≤ custody held custodians o.world.tokens d.volt
  supply : supply o.world.tokens = supply p.tokens + o.minted
  minter : o.minted = 0 ∨ p.roles.core.hasRole .minter psm.self = true

theorem mint_flows (custodians : Finset Address) (exact : Exact d.volt e held supply) (volt : psm.volt = d.volt) {now amountIn minAmountOut : ℕ}
    {o : PegStabilityModule.Outcome (Protocol τ)}
    (success : psm.mint (psmContracts d e depth) now p sender recipient amountIn minAmountOut = .ok o) :
    ∃ paid sent given, Minted held supply custodians d p psm sender recipient amountIn o paid sent given := by
  obtain ⟨updated, paid, available, sent, updating, -, pulled, -, sending, outcome⟩ :=
    PegStabilityModule.mint_spec success
  obtain ⟨taken, unraised⟩ := paid_of_pull exact updating pulled
  have given : Sent held d.volt psm.self recipient (min available o.amountOut) paid.tokens sent.tokens ∧
      supply sent.tokens = supply paid.tokens := by
    obtain ⟨nothing, rfl⟩ | moved := PegStabilityModule.sendHeldVolt_spec sending
    · rw [nothing]
      exact ⟨.zero .., rfl⟩
    · rw [psmContracts_eq, volt] at moved
      obtain ⟨t, rfl, answer⟩ := sent_of_transfer exact moved
      exact answer
  have same : supply sent.tokens = supply p.tokens := given.2.trans unraised
  have unminted (none : o.minted = 0) (world : o.world = sent) :
      Minted held supply custodians d p psm sender recipient amountIn o paid.tokens sent.tokens
        (min available o.amountOut) := by
    refine ⟨taken, given.1, ?_, fun _ _ => by rw [world], by rw [world], ?_, .inl none⟩
    · rw [none]
      exact min_le_right ..
    · rw [world, none, same, add_zero]
  refine ⟨paid.tokens, sent.tokens, min available o.amountOut, ?_⟩
  obtain ⟨-, none, world, -⟩ | ⟨limiter, depleted, -, ⟨none, world⟩ | minting⟩ := outcome
  · exact unminted none world
  · exact unminted none world
  · obtain ⟨-, minter, after, issued, world⟩ := mint_onTokens minting
    obtain ⟨created, raised⟩ := exact.mint issued
    have enough := (RateLimited.depleteBuffer_spec depleted).1.2.2
    obtain ⟨others, more⟩ := custody_of_created custodians created
    have moves := moves_psmContracts (d := d) (flows_true e) depth
    obtain ⟨token, -, rfl⟩ : OnlyTokens p sent := by
      apply moves.trans (moves.trans (moves.update updating) (moves.transferFrom pulled))
      obtain ⟨-, rfl⟩ | sending := PegStabilityModule.sendHeldVolt_spec sending
      · exact moves.refl _
      · exact moves.transfer sending
    obtain rfl : o.world.tokens = after := congrArg Protocol.tokens world
    exact ⟨taken, given.1, by omega, others, more, by rw [raised, same], .inr minter⟩

/-- What a redemption does to the tokens: the trader pays VOLT and the PSM pays out its token. -/
theorem redeem_flows (exact : Exact d.volt e held supply) (volt : psm.volt = d.volt) {amountFeiIn minAmountOut : ℕ}
    {o : PegStabilityModule.Outcome (Protocol τ)}
    (success : psm.redeem (psmContracts d e depth) p sender recipient amountFeiIn minAmountOut = .ok o) :
    ∃ paid, Sent held d.volt sender psm.self amountFeiIn p.tokens paid ∧ supply paid = supply p.tokens ∧
      Sent held psm.underlyingToken psm.self recipient o.amountOut paid o.world.tokens ∧
      supply o.world.tokens = supply paid := by
  obtain ⟨updated, paid, updating, -, pulled, sending, -⟩ := PegStabilityModule.redeem_spec success
  obtain ⟨taken, unraised⟩ := paid_of_pull exact updating pulled
  rw [psmContracts_eq] at sending
  obtain ⟨t, world, answer, same⟩ := sent_of_transfer exact sending
  rw [volt] at taken
  rw [world]
  exact ⟨paid.tokens, taken, unraised, answer, same⟩

/-- A trade with a PSM of the custody, at the price it reads. -/
theorem equity_of_mint {psm : PegStabilityModule} {value now amountIn minAmountOut : ℕ}
    {o : PegStabilityModule.Outcome (Protocol τ)} (exact : Exact d.volt e held supply) (volt : psm.volt = d.volt)
    (separate : d.volt ∉ tokens) (traded : psm.underlyingToken ∈ tokens) (inside : psm.self ∈ custodians)
    (outside : sender ∉ custodians) (fixed : FixedPrice.Fixed (psmContracts d e depth) (price psm.underlyingToken)
      ⟨now, psm, p, value⟩)
    (success : psm.mint (psmContracts d e depth) now p sender recipient amountIn minAmountOut = .ok o) :
    equity held supply d.volt custodians tokens price p.tokens ≤
      equity held supply d.volt custodians tokens price o.world.tokens := by
  obtain ⟨updated, -, -, -, updating, quoted, -⟩ := PegStabilityModule.mint_spec success
  have worth := FixedPrice.mint_quote_le (fixed updated updating) quoted
  obtain ⟨paid, sent, given, flows⟩ := mint_flows custodians exact volt success
  have taken := flows.pays.moved custodians
  rw [if_neg outside, if_pos inside, add_zero] at taken
  have let_go := flows.gives.moved custodians
  rw [if_pos inside] at let_go
  have voltKept : custody held custodians paid d.volt = custody held custodians p.tokens d.volt :=
    flows.pays.elsewhere fun same => separate (same ▸ traded)
  have kept (other : Address) (member : other ∈ tokens) :
      custody held custodians o.world.tokens other = custody held custodians paid other := by
    have different : other ≠ d.volt := fun same => separate (same ▸ member)
    exact (flows.others other different).trans (flows.gives.elsewhere different)
  refine equity_le amountIn traded ?_ ?_ ?_
  · intro other member different
    rw [kept other member, flows.pays.elsewhere different]
  · rw [kept _ traded, taken]
    exact le_rfl
  · have net : (custody held custodians p.tokens d.volt : ℤ) - supply p.tokens ≤
        custody held custodians o.world.tokens d.volt - supply o.world.tokens + o.amountOut := by
      have covered := flows.covered
      have more := flows.volt
      have created := flows.supply
      omega
    have scaled := mul_le_mul_of_nonneg_left net (Int.natCast_nonneg Decimal.BASE)
    have paidFor : (Decimal.BASE : ℤ) * o.amountOut ≤ price psm.underlyingToken * amountIn := by exact_mod_cast worth
    linarith

theorem equity_of_redeem {psm : PegStabilityModule} {value now amountFeiIn minAmountOut : ℕ}
    {o : PegStabilityModule.Outcome (Protocol τ)} (exact : Exact d.volt e held supply) (volt : psm.volt = d.volt)
    (separate : d.volt ∉ tokens) (traded : psm.underlyingToken ∈ tokens) (inside : psm.self ∈ custodians)
    (outside : sender ∉ custodians) (fixed : FixedPrice.Fixed (psmContracts d e depth) (price psm.underlyingToken)
      ⟨now, psm, p, value⟩)
    (success : psm.redeem (psmContracts d e depth) p sender recipient amountFeiIn minAmountOut = .ok o) :
    equity held supply d.volt custodians tokens price p.tokens ≤
      equity held supply d.volt custodians tokens price o.world.tokens := by
  obtain ⟨updated, -, updating, quoted, -⟩ := PegStabilityModule.redeem_spec success
  have worth := FixedPrice.redeem_quote_le (fixed updated updating) quoted
  obtain ⟨paid, pays, unraised, gives, same⟩ := redeem_flows exact volt success
  have taken := pays.moved custodians
  rw [if_neg outside, if_pos inside, add_zero] at taken
  have let_go := gives.moved custodians
  rw [if_pos inside] at let_go
  have voltKept : custody held custodians o.world.tokens d.volt = custody held custodians paid d.volt :=
    gives.elsewhere fun same => separate (same ▸ traded)
  have kept (other : Address) (member : other ∈ tokens) :
      custody held custodians paid other = custody held custodians p.tokens other :=
    pays.elsewhere fun same => separate (same ▸ member)
  refine equity_le (-(o.amountOut : ℤ)) traded ?_ ?_ ?_
  · intro other member different
    rw [gives.elsewhere different, kept other member]
  · have here := kept _ traded
    omega
  · rw [same, unraised, voltKept, taken]
    have paidFor : (price psm.underlyingToken : ℤ) * o.amountOut ≤ Decimal.BASE * amountFeiIn := by exact_mod_cast worth
    push_cast
    linarith

/-- A trade with any other PSM takes nothing from the custodians. -/
theorem preserves_of_mint {psm : PegStabilityModule} {now amountIn minAmountOut : ℕ}
    {o : PegStabilityModule.Outcome (Protocol τ)} (exact : Exact d.volt e held supply) (volt : psm.volt = d.volt)
    (elsewhere : psm.self ∉ custodians) (outside : sender ∉ custodians)
    (minters : p.roles.core.hasRole .minter psm.self = false)
    (success : psm.mint (psmContracts d e depth) now p sender recipient amountIn minAmountOut = .ok o) :
    Preserves held supply custodians p.tokens o.world.tokens := by
  obtain ⟨paid, sent, given, flows⟩ := mint_flows custodians exact volt success
  refine ⟨?_, ?_⟩
  · intro other
    have first := flows.pays.keeps (fun inside : sender ∈ custodians => absurd inside outside) other
    have second := flows.gives.keeps (fun inside : psm.self ∈ custodians => absurd inside elsewhere) other
    refine (first.trans second).trans ?_
    by_cases minted : other = d.volt
    · exact minted ▸ flows.volt
    · exact (flows.others other minted).ge
  · obtain none | minter := flows.minter
    · rw [flows.supply, none, add_zero]
    · cases minters.symm.trans minter

theorem preserves_of_redeem {psm : PegStabilityModule} {amountFeiIn minAmountOut : ℕ}
    {o : PegStabilityModule.Outcome (Protocol τ)} (exact : Exact d.volt e held supply) (volt : psm.volt = d.volt)
    (elsewhere : psm.self ∉ custodians) (outside : sender ∉ custodians)
    (success : psm.redeem (psmContracts d e depth) p sender recipient amountFeiIn minAmountOut = .ok o) :
    Preserves held supply custodians p.tokens o.world.tokens := by
  obtain ⟨paid, pays, unraised, gives, same⟩ := redeem_flows exact volt success
  have first := pays.preserves unraised fun inside : sender ∈ custodians => absurd inside outside
  exact first.trans (gives.preserves same fun inside => absurd inside elsewhere)

end Trades

/-! ### Moves among the custodians -/

/-- The custodians lost nothing by moves of tokens. -/
abbrev Safe (held : τ → Address → Address → ℕ) (supply : τ → ℕ) (custodians : Finset Address) (p q : Protocol τ) :
    Prop := OnTokens (Preserves held supply custodians) p q

theorem Safe.trans {u : Protocol τ} (first : Safe held supply custodians p u) (second : Safe held supply custodians u q) :
    Safe held supply custodians p q := by
  obtain ⟨t, kept, rfl⟩ := first
  obtain ⟨v, more, rfl⟩ := second
  exact ⟨v, kept.trans more, rfl⟩

theorem Safe.refl (p : Protocol τ) : Safe held supply custodians p p := ⟨p.tokens, .refl _, rfl⟩

/-- The PSMs of the custody have their surplus targets there. -/
def Targets (custodians : Finset Address) (p : Protocol τ) : Prop :=
  ∀ a ∈ custodians, ∀ psm, p.pcv a = some (.psm psm) → psm.surplusTarget ∈ custodians

section Moves

variable {psm : PegStabilityModule} {sender source recipient token a : Address} {amount : ℕ}

theorem safe_of_transfer (exact : Exact d.volt e held supply) (kept : source ∈ custodians → recipient ∈ custodians)
    (moved : p.withTokens <$> e.transfer p.tokens token source recipient amount = some q) :
    Safe held supply custodians p q := by
  obtain ⟨t, rfl, sent, same⟩ := sent_of_transfer exact moved
  exact ⟨t, sent.preserves same kept, rfl⟩

/-- A PSM of the custody allocates to the custody, as its targets do in turn. -/
theorem safe_of_allocate (exact : Exact d.volt e held supply)
    (deposits : ∀ {w u target}, Targets custodians w → Placed d w → (psmContracts d e depth).deposit w target = some u →
      Safe held supply custodians w u)
    (targets : Targets custodians p) (placed : Placed d p) (kept : psm.self ∈ custodians → psm.surplusTarget ∈ custodians)
    (success : psm.allocate (psmContracts d e depth) p amount = .ok q) : Safe held supply custodians p q := by
  obtain ⟨sent, sending, outcome⟩ := PegStabilityModule.allocate_spec success
  rw [psmContracts_eq] at sending
  have first := safe_of_transfer exact kept sending
  obtain rfl | deposited := outcome
  · exact first
  · obtain ⟨t, kept, rfl⟩ := first
    exact .trans ⟨t, kept, rfl⟩ (deposits targets (placed.of_pcv rfl) deposited)

theorem safe_of_depositAt (exact : Exact d.volt e held supply)
    (deposits : ∀ {w u target}, Targets custodians w → Placed d w → (psmContracts d e depth).deposit w target = some u →
      Safe held supply custodians w u)
    (targets : Targets custodians p) (placed : Placed d p) (deposited : depositAt (psmContracts d e depth) p a = some q) :
    Safe held supply custodians p q := by
  rw [depositAt] at deposited
  split at deposited
  · obtain rfl | ⟨amount, allocated⟩ := PegStabilityModule.deposit_spec (toOption_eq_some.mp deposited)
    · exact .refl _
    · rename_i here
      have self := placed.self a _ here
      exact safe_of_allocate exact deposits targets placed (fun inside => targets a (self ▸ inside) _ here) allocated
  · obtain ⟨_, -, rfl⟩ := Option.map_eq_some_iff.mp deposited
    exact .refl _
  · cases deposited

/-- However deep the calls of surplus targets nest, the custodians lose nothing. -/
theorem safe_of_deposit (exact : Exact d.volt e held supply) (depth : ℕ) {p q : Protocol τ} {target : Address}
    (targets : Targets custodians p) (placed : Placed d p)
    (deposited : (psmContracts d e depth).deposit p target = some q) : Safe held supply custodians p q := by
  induction depth generalizing p q target with
  | zero => cases deposited
  | succ depth ih => exact safe_of_depositAt exact ih targets placed deposited

theorem safe_of_withdrawAt (exact : Exact d.volt e held supply) (inside : recipient ∈ custodians)
    (withdrawn : withdrawAt d e sender p a recipient amount = some q) : Safe held supply custodians p q := by
  rw [withdrawAt] at withdrawn
  split at withdrawn
  · exact safe_of_transfer exact (fun _ => inside) (PegStabilityModule.withdrawERC20_eq_ok.mp (toOption_eq_some.mp withdrawn)).2
  · exact safe_of_transfer exact (fun _ => inside) (ERC20HoldingPCVDeposit.withdraw_eq_ok.mp (toOption_eq_some.mp withdrawn)).2
  · cases withdrawn

theorem safe_of_withdrawERC20At (exact : Exact d.volt e held supply) (inside : recipient ∈ custodians)
    (withdrawn : withdrawERC20At d e sender p a token recipient amount = some q) : Safe held supply custodians p q := by
  rw [withdrawERC20At] at withdrawn
  split at withdrawn
  · exact safe_of_transfer exact (fun _ => inside) (PegStabilityModule.withdrawERC20_eq_ok.mp (toOption_eq_some.mp withdrawn)).2
  · exact safe_of_transfer exact (fun _ => inside)
      (ERC20HoldingPCVDeposit.withdrawERC20_eq_ok.mp (toOption_eq_some.mp withdrawn)).2
  · cases withdrawn

/-- PCVGuardian withdraws to the safe address. -/
theorem safe_of_withdrawn (exact : Exact d.volt e held supply) {guardian : PCVGuardian}
    (inside : guardian.safeAddress ∈ custodians)
    (withdrawn : PCVGuardian.Withdrawn (guardianContracts d e) guardian p a q) : Safe held supply custodians p q :=
  withdrawn_of_withdrawals (safe_of_withdrawAt exact inside) (safe_of_withdrawERC20At exact inside) withdrawn

/-- The allocator moves tokens between the two ends of a link. -/
theorem safe_of_allocated (exact : Exact d.volt e held supply) (targets : Targets custodians p) (placed : Placed d p)
    {s t : AllocatorSystem.State (Protocol τ)} (world : s.world = p)
    (links : ∀ a, s.allocator.pcvDepositToPSM a ≠ 0 → a ∈ custodians ∧ s.allocator.pcvDepositToPSM a ∈ custodians)
    (allocated : AllocatorSystem.Allocated (allocatorContracts d e depth) s a t) :
    Safe held supply custodians p t.world := by
  subst world
  cases allocated with
  | dripped o amount drips => exact safe_of_withdrawAt exact (links a drips.linked).2 drips.moved
  | skimmed o amount skims =>
    obtain ⟨pulled, withdrawn, supplied⟩ := skims.moved
    obtain ⟨t, kept, rfl⟩ := safe_of_withdrawAt exact (links a skims.linked).1 withdrawn
    exact .trans ⟨t, kept, rfl⟩ (safe_of_depositAt exact (safe_of_deposit exact depth) targets (placed.of_pcv rfl) supplied)
  | idle => exact .refl _

end Moves

/-! ### Steps -/

/-- The custody is closed: PSMs and links stay inside, PCVGuardian withdraws into it, only its contracts mint, and
its PSMs trade the given tokens for VOLT, which is none of them. -/
structure Closed (d : Deployment) (custodians tokens : Finset Address) (p : Protocol τ) : Prop where
  minters : SupplyGrowth.Covers custodians p
  targets : Targets custodians p
  traded : ∀ a ∈ custodians, ∀ psm, p.pcv a = some (.psm psm) → psm.underlyingToken ∈ tokens
  links : ∀ a, p.allocator.pcvDepositToPSM a ≠ 0 → a ∈ custodians ∧ p.allocator.pcvDepositToPSM a ∈ custodians
  safeAddress : p.guardian.safeAddress ∈ custodians
  separate : d.volt ∉ tokens

/-- All accounts that send transactions only protect, and are no custodians. -/
def Outsider (d : Deployment) (custodians : Finset Address) (p : Protocol τ) (sender : Address) : Prop :=
  Protector d p sender ∧ sender ∉ custodians

/-- Where a transaction deploys a contract. -/
def deploymentOf : Call κ → Option Address
  | .deployPSM a _ | .deployDeposit a _ => some a
  | _ => none

/-- The transactions of outsiders that deploy nothing in the place of a custodian. -/
def Outside (d : Deployment) (custodians : Finset Address) (p : Protocol τ) (call : Call κ) : Prop :=
  SentBy (Outsider d custodians p) call ∧ ∀ a ∈ custodians, deploymentOf call ≠ some a

/-- The PSMs of the custody read the given prices of their tokens. -/
def Priced (d : Deployment) (e : Externals τ κ) (depth : ℕ) (custodians : Finset Address)
    (value : Protocol τ → Address → ℕ) (p : Protocol τ) : Prop :=
  ∀ a ∈ custodians, ∀ psm, p.pcv a = some (.psm psm) →
    FixedPrice.Fixed (psmContracts d e depth) (value p psm.underlyingToken) ⟨p.now, psm, p, 0⟩

/-- Transactions of tokens take nothing from the custodians. -/
def Spares (held : τ → Address → Address → ℕ) (custodians : Finset Address) (p : Protocol τ) (call : Call κ)
    (q : Protocol τ) : Prop :=
  match call with
  | .token _ => ∀ token, custody held custodians p.tokens token ≤ custody held custodians q.tokens token
  | _ => True

/-- Where tokens make no transactions, these take nothing. -/
theorem spares_of_quiet {calls : List (Call κ)} (quiet : ∀ call ∈ calls, ∀ transaction, call ≠ .token transaction) :
    Along (step d e depth) (Spares held custodians) p calls := by
  refine along_of_step (fun state call next other _ _ => ⟨trivial, ?_⟩) quiet trivial
  cases call with
  | token transaction => exact absurd rfl (other transaction)
  | _ => trivial

section Step

variable {u v : Protocol τ} {value : Protocol τ → Address → ℕ}

/-- While settings are kept and nothing is deployed in the place of a custodian, the custody stays closed. -/
theorem Closed.kept (closed : Closed d custodians tokens p) (kept : Kept p u)
    (vacant : ∀ a ∈ custodians, p.pcv a = none → u.pcv a = none) : Closed d custodians tokens u := by
  have before (a : Address) (inside : a ∈ custodians) (psm : PegStabilityModule) (here : u.pcv a = some (.psm psm)) :
      ∃ first, p.pcv a = some (.psm first) ∧ psm.settings = first.settings := by
    rcases there : p.pcv a with _ | contract
    · cases (vacant a inside there).symm.trans here
    · obtain ⟨after, again, settings⟩ := kept.pcv a contract there
      obtain rfl := Option.some.inj (again.symm.trans here)
      cases contract with
      | psm first => exact ⟨first, rfl, PCVContract.psm.inj settings⟩
      | deposit => cases settings
  constructor
  · exact fun a minter => closed.minters a (kept.roles.shrinks.members _ a minter)
  · intro a inside psm here
    obtain ⟨first, there, settings⟩ := before a inside psm here
    have same := congrArg PegStabilityModule.surplusTarget settings
    change psm.surplusTarget = first.surplusTarget at same
    exact same ▸ closed.targets a inside first there
  · intro a inside psm here
    obtain ⟨first, there, settings⟩ := before a inside psm here
    have same := congrArg PegStabilityModule.underlyingToken settings
    change psm.underlyingToken = first.underlyingToken at same
    exact same ▸ closed.traded a inside first there
  · have same := congrArg ERC20Allocator.pcvDepositToPSM kept.allocator
    change u.allocator.pcvDepositToPSM = p.allocator.pcvDepositToPSM at same
    rw [same]
    exact closed.links
  · obtain ⟨_, _, -, same⟩ := kept.guardian
    rw [same]
    exact closed.safeAddress
  · exact closed.separate

/-- A transaction of VOLT by an account that is no custodian and mints nothing. -/
theorem preserves_of_volt (exact : Exact d.volt e held supply) {ctx : Context} {now : ℕ} {volt after : Volt τ}
    {function : VoltFunction} (protects : ctx.Protects) (outside : ctx.sender ∉ custodians)
    (called : voltStep e ctx now volt function = .ok after) : Preserves held supply custodians volt.token after.token := by
  cases function with
  | mint account amount =>
    obtain ⟨_, checked, -⟩ := bind_eq_ok.mp called
    exact (protects.onlyMinter checked).elim
  | burn amount =>
    obtain ⟨token, burnt, written⟩ := bind_eq_ok.mp called
    obtain rfl := pure_eq_ok.mp written
    obtain ⟨others, less⟩ := exact.burn burnt
    refine ⟨?_, ?_⟩
    · intro other
      apply Finset.sum_le_sum
      intro account inside
      exact (others other account fun same => outside (same ▸ inside)).ge
    · change supply token ≤ _
      omega
  | permit owner spender value deadline v r s =>
    simp only [voltStep, Volt.permit, bind_eq_ok, pure_eq_ok] at called
    obtain ⟨_, -, _, -, _, -, token, approved, rfl⟩ := called
    obtain ⟨same, unraised⟩ := exact.approve approved
    refine ⟨?_, unraised.le⟩
    intro other
    change FixedPrice.holdings held custodians volt.token other ≤ FixedPrice.holdings held custodians token other
    rw [FixedPrice.holdings, FixedPrice.holdings, same]
  | pause | unpause | setContractAdminRole =>
    obtain ⟨c, -, rfl⟩ := map_eq_ok.mp called
    exact .refl _

/-- Whether a function trades. -/
def trades : PSMFunction → Bool
  | .mint .. | .redeem .. => true
  | _ => false

section PSM

variable {a sender : Address} {psm : PegStabilityModule} {function : PSMFunction}
  {t : PegStabilitySystem.State (Protocol τ)}

/-- Any other call of a PSM by an account that only protects moves tokens to its surplus target at most. -/
theorem safe_of_psm (exact : Exact d.volt e held supply) (placed : Placed d u) (targets : Targets custodians u)
    (here : u.pcv a = some (.psm psm)) (protects : (u.context sender).Protects) (untraded : trades function = false)
    (called : PegStabilitySystem.step (psmContracts d e depth) ⟨u.now, psm, u, 0⟩ (function.call (u.context sender)) =
      .ok t) : Safe held supply custodians u t.world := by
  have self : psm.self = a := placed.self a _ here
  have allocates (w : Protocol τ) (amount : ℕ) (allocated : psm.allocate (psmContracts d e depth) u amount = .ok w) :
      Safe held supply custodians u w :=
    safe_of_allocate exact (safe_of_deposit exact depth) targets placed (fun inside => targets a (self ▸ inside) psm here)
      allocated
  cases function with
  | mint | redeem => cases untraded
  | allocateSurplus =>
    obtain ⟨w, allocated, rfl⟩ := map_eq_ok.mp called
    obtain ⟨amount, allocated⟩ := PegStabilityModule.allocateSurplus_spec allocated
    exact allocates w amount allocated
  | deposit =>
    obtain ⟨w, deposited, rfl⟩ := map_eq_ok.mp called
    obtain rfl | ⟨amount, allocated⟩ := PegStabilityModule.deposit_spec deposited
    · exact .refl _
    · exact allocates w amount allocated
  | withdraw | withdrawERC20 =>
    obtain ⟨_, withdrawn, -⟩ := map_eq_ok.mp called
    obtain ⟨_, checked, -⟩ := bind_eq_ok.mp withdrawn
    exact (protects.onlyPCVController checked).elim
  | setRateLimitPerSecond | setBufferCap =>
    obtain ⟨_, -, rfl⟩ := map_eq_ok.mp called
    exact .refl _
  | _ =>
    obtain ⟨_, rfl, -⟩ := PegStabilitySystem.configured_of_step rfl called
    exact .refl _

/-- A PSM elsewhere does not mint. -/
theorem unminting_of_closed (closed : Closed d custodians tokens u) (placed : Placed d u)
    (here : u.pcv a = some (.psm psm)) (elsewhere : a ∉ custodians) : u.roles.core.hasRole .minter psm.self = false := by
  have self : psm.self = a := placed.self a _ here
  rw [Bool.eq_false_iff, self]
  exact fun minter => elsewhere (closed.minters a minter)

/-- A call of a PSM by an account that only protects and is no custodian. -/
theorem equity_of_psm (exact : Exact d.volt e held supply) (placed : Placed d u)
    (closed : Closed d custodians tokens u) (here : u.pcv a = some (.psm psm))
    (protects : (u.context sender).Protects) (outside : sender ∉ custodians)
    (priced : Priced d e depth custodians value u)
    (called : PegStabilitySystem.step (psmContracts d e depth) ⟨u.now, psm, u, 0⟩ (function.call (u.context sender)) =
      .ok t) :
    equity held supply d.volt custodians tokens (value u) u.tokens ≤
      equity held supply d.volt custodians tokens (value u) t.world.tokens := by
  have self : psm.self = a := placed.self a _ here
  have volt : psm.volt = d.volt := placed.volt a psm here
  cases function with
  | mint recipient amountIn minAmountOut =>
    obtain ⟨o, minting, rfl⟩ := map_eq_ok.mp called
    by_cases inside : a ∈ custodians
    · exact equity_of_mint exact volt closed.separate (closed.traded a inside psm here) (self ▸ inside) outside
        (priced a inside psm here) minting
    · have unminting := unminting_of_closed closed placed here inside
      exact (preserves_of_mint exact volt (self ▸ inside) outside unminting minting).equity
  | redeem recipient amountFeiIn minAmountOut =>
    obtain ⟨o, redeeming, rfl⟩ := map_eq_ok.mp called
    by_cases inside : a ∈ custodians
    · exact equity_of_redeem exact volt closed.separate (closed.traded a inside psm here) (self ▸ inside) outside
        (priced a inside psm here) redeeming
    · exact (preserves_of_redeem exact volt (self ▸ inside) outside redeeming).equity
  | _ => exact (safe_of_psm exact placed closed.targets here protects rfl called).tokens.equity

end PSM

/-- A call of the allocator by an account that only protects. -/
theorem safe_of_allocator (exact : Exact d.volt e held supply) (placed : Placed d u)
    (closed : Closed d custodians tokens u) {ctx : Context} {function : AllocatorFunction}
    {t : AllocatorSystem.State (Protocol τ)} (protects : ctx.Protects)
    (called : AllocatorSystem.step (allocatorContracts d e depth) ⟨u.now, u.allocator, u, []⟩ (function.call ctx) = .ok t) :
    Safe held supply custodians u t.world := by
  have allocates {a : Address} {s : AllocatorSystem.State (Protocol τ)} (same : s = ⟨u.now, u.allocator, u, []⟩)
      (allocated : AllocatorSystem.Allocated (allocatorContracts d e depth) s a t) :
      Safe held supply custodians u t.world :=
    safe_of_allocated exact closed.targets placed (by rw [same]) (by rw [same]; exact closed.links) allocated
  cases function with
  | skim a => exact allocates rfl (AllocatorSystem.allocated_of_step (.skim a) called)
  | drip a => exact allocates rfl (AllocatorSystem.allocated_of_step (.drip a) called)
  | doAction a => exact allocates rfl (AllocatorSystem.allocated_of_step (.doAction a) called)
  | sweep =>
    obtain ⟨_, swept, -⟩ := map_eq_ok.mp called
    obtain ⟨_, checked, -⟩ := bind_eq_ok.mp swept
    exact (protects.onlyGovernor checked).elim
  | _ =>
    obtain ⟨_, -, rfl⟩ := map_eq_ok.mp called
    exact .refl _

/-- At the prices read, a transaction of an outsider does not lower the equity. -/
theorem equity_of_changes (exact : Exact d.volt e held supply) (placed : Placed d u)
    (closed : Closed d custodians tokens u) (kept : Kept p u) (outside : Outside d custodians p call)
    (priced : Priced d e depth custodians value u) (spares : Spares held custodians u call v)
    (changes : Changes d e depth u call v) :
    equity held supply d.volt custodians tokens (value u) u.tokens ≤
      equity held supply d.volt custodians tokens (value u) v.tokens := by
  cases changes with
  | token transaction token transacted => exact Preserves.equity ⟨spares, exact.transact transacted⟩
  | volt sender function volt called =>
    obtain ⟨protector, elsewhere⟩ := outside.1 sender rfl
    exact (preserves_of_volt exact (protector.context kept) elsewhere called).equity
  | psm a sender function psm t token here called world =>
    obtain ⟨protector, elsewhere⟩ := outside.1 sender rfl
    have kept := equity_of_psm exact placed closed here (protector.context kept) elsewhere priced called
    rw [world] at kept
    exact kept
  | deposit a sender function deposit token here called =>
    obtain ⟨protector, -⟩ := outside.1 sender rfl
    obtain same | ⟨paused, same⟩ := depositStep_protects (protector.context kept) called
    · exact same ▸ le_rfl
    · exact (congrArg (fun w => equity held supply d.volt custodians tokens (value u) (Protocol.tokens w)) same).ge
  | allocator sender function t token called world =>
    obtain ⟨protector, -⟩ := outside.1 sender rfl
    have safe := safe_of_allocator exact placed closed (protector.context kept) called
    rw [world] at safe
    exact safe.tokens.equity
  | withdrawal sender function a token may listed withdrawn =>
    exact (safe_of_withdrawn exact closed.safeAddress withdrawn).tokens.equity
  | _ => exact le_rfl

/-- What the tokens in custody lose in worth when the prices change with a step. -/
def devaluation (held : τ → Address → Address → ℕ) (custodians tokens : Finset Address)
    (value : Protocol τ → Address → ℕ) (p : Protocol τ) (_ : Call κ) (q : Protocol τ) : ℤ :=
  ∑ token ∈ tokens, ((value p token : ℤ) - value q token) * custody held custodians q.tokens token

theorem equity_reprice (held : τ → Address → Address → ℕ) (supply : τ → ℕ) (custodians tokens : Finset Address)
    (value : Protocol τ → Address → ℕ) (volt : Address) (u : Protocol τ) (call : Call κ) (v : Protocol τ) :
    equity held supply volt custodians tokens (value u) v.tokens =
      equity held supply volt custodians tokens (value v) v.tokens +
        devaluation held custodians tokens value u call v := by
  simp only [equity, devaluation, sub_mul, Finset.sum_sub_distrib]
  ring

/-- What the equity rests on. -/
structure Sound (d : Deployment) (custodians : Finset Address) (p u : Protocol τ) : Prop where
  placed : Placed d u
  kept : Kept p u
  administered : Administered u
  vacant : ∀ a ∈ custodians, p.pcv a = none → u.pcv a = none

theorem sound_of_step (setup : GuardianPowers.Setup d.core d.guardAdmin p.roles.core.toPermissions)
    (outside : Outside d custodians p call) (sound : Sound d custodians p u) (stepped : step d e depth u call = .ok v) :
    Sound d custodians p v := by
  have changes := changes_of_step stepped
  have sent : SentBy (Protector d p) call := outside.1.mono fun _ outsider => outsider.1
  obtain ⟨kept, administered⟩ := kept_of_changes setup sent sound.kept sound.administered changes
  refine ⟨changes.placed sound.placed, kept, administered, ?_⟩
  intro a inside empty
  have before := sound.vacant a inside empty
  cases changes with
  | psm b sender function psm t token here =>
    have different : a ≠ b := fun same => by cases before.symm.trans (same ▸ here)
    exact (withPCV_pcv_of_ne different).trans before
  | depositCore b sender function deposit c here =>
    have different : a ≠ b := fun same => by cases before.symm.trans (same ▸ here)
    exact (withPCV_pcv_of_ne different).trans before
  | deployPSM b | deployDeposit b =>
    have different : a ≠ b := fun same => outside.2 a inside (congrArg some same.symm)
    exact (withPCV_pcv_of_ne different).trans before
  | _ => exact before

/-- Over any run of transactions by outsiders, whatever they do and in whatever order, the equity of the protocol
falls by no more than its tokens lose in worth: at the prices that PSMs read, the tokens in custody go on backing
the VOLT in circulation as they did. -/
theorem equity_kept {calls : List (Call κ)} (exact : Exact d.volt e held supply)
    (reached : Reachable (step d e depth) Initial p)
    (setup : GuardianPowers.Setup d.core d.guardAdmin p.roles.core.toPermissions)
    (initialized : p.roles.core.initialized = true) (administered : Administered p)
    (closed : Closed d custodians tokens p) (outside : ∀ call ∈ calls, Outside d custodians p call)
    (priced : Along (step d e depth) (fun u _ _ => Priced d e depth custodians value u) p calls)
    (spares : Along (step d e depth) (Spares held custodians) p calls)
    (success : run (step d e depth) p calls = .ok q) :
    equity held supply d.volt custodians tokens (value p) p.tokens ≤
      equity held supply d.volt custodians tokens (value q) q.tokens +
        total (step d e depth) (devaluation held custodians tokens value) p calls := by
  have fair := ((along_call_iff success).mpr outside).and (priced.and spares)
  have change (state : Protocol τ) (call : Call κ) (next : Protocol τ) (conditions : Outside d custodians p call ∧
      Priced d e depth custodians value state ∧ Spares held custodians state call next)
      (sound : Sound d custodians p state) (stepped : step d e depth state call = .ok next) :
      Sound d custodians p next ∧ equity held supply d.volt custodians tokens (value state) state.tokens ≤
        equity held supply d.volt custodians tokens (value next) next.tokens +
          devaluation held custodians tokens value state call next := by
    obtain ⟨outside, priced, spares⟩ := conditions
    refine ⟨sound_of_step setup outside sound stepped, ?_⟩
    rw [← equity_reprice]
    exact equity_of_changes exact sound.placed (closed.kept sound.kept sound.vacant) sound.kept outside priced spares
      (changes_of_step stepped)
  have start : Sound d custodians p p :=
    ⟨placed_of_reachable reached, .refl initialized, administered, fun _ _ empty => empty⟩
  exact run_ge_total (φ := fun u => equity held supply d.volt custodians tokens (value u) u.tokens) change fair start
    success

end Step

/-! ### An example -/

section Trading

variable {p : Protocol Books}

/-- The PSM, the deposit and the safe address of the examples. -/
def treasury : Finset Address := {1006, 1008, 1009}

/-- The price that the PSM of the examples reads. -/
def quoted (p : Protocol Books) (_ : Address) : ℕ :=
  match p.pcv 1006 with
  | some (.psm psm) =>
    match psm.readOracle (leafContracts addresses (tables 1002)).toOracles p with
    | .ok price => price.value
    | .error _ => 0
  | _ => 0

theorem closed_launched (launched : Launched p) : Closed addresses treasury {2001} p := by
  constructor
  · intro a minter
    have only := SupplyGrowth.covers_roles launched.staffed a minter
    rw [Finset.mem_singleton.mp only]
    decide
  · intro a inside psm here
    obtain ⟨-, -, target, -⟩ := launched.only_psm here
    rw [target]
    decide
  · intro a inside psm here
    obtain ⟨-, -, -, traded⟩ := launched.only_psm here
    rw [traded]
    decide
  · intro a linked
    rw [launched.links] at linked ⊢
    split_ifs at linked ⊢ with deposit
    · rw [deposit]
      decide
    · exact absurd rfl linked
  · rw [launched.safeAddress]
    decide
  · decide

/-- There is no other PSM in the treasury. -/
theorem psm_of_sound {u : Protocol Books} (launched : Launched p) (sound : Sound addresses treasury p u) {a : Address}
    {psm : PegStabilityModule} (inside : a ∈ treasury) (here : u.pcv a = some (.psm psm)) : a = 1006 := by
  rcases there : p.pcv a with _ | contract
  · cases (sound.vacant a inside there).symm.trans here
  · obtain ⟨after, again, settings⟩ := sound.kept.pcv a contract there
    obtain rfl := Option.some.inj (again.symm.trans here)
    cases contract with
    | psm first => exact (launched.only_psm there).1
    | deposit => cases settings

/-- In every state that traders reach, the PSM reads what it reads. -/
theorem priced_launched {u : Protocol Books} (launched : Launched p) (sound : Sound addresses treasury p u) :
    Priced addresses (tables 1002) 1 treasury quoted u := by
  intro a inside psm here updated updating read reading
  obtain rfl := psm_of_sound launched sound inside here
  have unchanged : updated = u := by
    rw [psmContracts_eq] at updating
    simp only [leafContracts, tables] at updating
    split_ifs at updating
    · exact (Option.some.inj updating).symm
    · exact (Option.some.inj updating).symm
  rw [psmContracts_eq, unchanged] at reading
  change psm.readOracle (leafContracts addresses (tables 1002)).toOracles u = .ok read at reading
  simp only [quoted, here, reading]

/-- The transactions of the traders are those of outsiders. -/
theorem outside_of_sent (launched : Launched p) {call : Call Payment} (sent : SentBy (· ∈ [2, 3, 4, 7]) call)
    (undeployed : deploymentOf call = none) : Outside addresses treasury p call := by
  refine ⟨sent.mono ?_, fun a _ deployed => by cases undeployed.symm.trans deployed⟩
  intro sender trader
  refine ⟨protector_trader launched trader, ?_⟩
  simp only [List.mem_cons, List.not_mem_nil, or_false] at trader
  rcases trader with rfl | rfl | rfl | rfl <;> decide

theorem sound_refl (launched : Launched p) : Sound addresses treasury p p :=
  ⟨placed_of_reachable launched.reached, .refl launched.initialized, administered_launched launched,
    fun _ _ empty => empty⟩

theorem equity_kept_trading : ∃ p q, Launched p ∧ run system p trading = .ok q ∧
    equity Books.held Books.supply addresses.volt treasury {2001} (quoted p) p.tokens ≤
      equity Books.held Books.supply addresses.volt treasury {2001} (quoted q) q.tokens +
        total system (devaluation Books.held treasury {2001} quoted) p trading := by
  obtain ⟨p, q, launched, traded⟩ := launch_trading
  have outside : ∀ call ∈ trading, Outside addresses treasury p call := by
    intro call member
    refine outside_of_sent launched (sent_trading call member) ?_
    revert call
    simp [trading, deploymentOf]
  have priced : Along system (fun u _ _ => Priced addresses (tables 1002) 1 treasury quoted u) p trading := by
    refine along_of_step ?_ outside (sound_refl launched)
    intro state call next allowed sound stepped
    exact ⟨sound_of_step launched.setup allowed sound stepped, priced_launched launched sound⟩
  have quiet : ∀ call ∈ trading, ∀ transaction, call ≠ .token transaction := by
    simp [trading]
  have kept := equity_kept (tables_exact 1002) launched.reached launched.setup launched.initialized
    (administered_launched launched) (closed_launched launched) outside priced (spares_of_quiet quiet) traded
  exact ⟨p, q, launched, traded, kept⟩

end Trading

end VoltProtocol.Solvency
