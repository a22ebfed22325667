import VoltProtocol.Soundness.ProtocolBooks

/-! # Evacuating PCV to the safe address

A withdrawal by PCVGuardian succeeds exactly for its guards and its whitelist, while the guardian itself may
withdraw from the contract and lift its pause. It moves tokens and leaves no other trace, so any number of contracts
can be emptied one after the other, whichever are paused.
-/

namespace VoltProtocol.Evacuation

open Machine ProtocolSystem ProtocolBooks

variable {τ κ : Type} {d : Deployment} {e : Externals τ κ} {held : τ → Address → Address → ℕ} {supply : τ → ℕ}
  {depth : ℕ} {p q : Protocol τ} {a sender recipient : Address} {amount : ℕ} {contract : PCVContract}

/-! ### One withdrawal -/

/-- Who may withdraw what a contract reports as its balance. -/
def mayWithdraw (ctx : Context) : PCVContract → Bool
  | .psm _ => ctx.hasRole .pcvController ctx.sender
  | .deposit _ => ctx.hasRole .governor ctx.sender || ctx.hasRole .pcvController ctx.sender

/-- PCVGuardian may withdraw from a contract, and lift its pause if there is one. -/
structure Empowered (d : Deployment) (p : Protocol τ) (contract : PCVContract) : Prop where
  withdraws : mayWithdraw (p.context d.guardian) contract = true
  lifts : contract.toCoreRef.paused = true →
    ((p.context d.guardian).isGovernor d.guardian || (p.context d.guardian).isGuardian d.guardian) = true

theorem withdrawAt_eq_some : withdrawAt d e sender p a recipient amount = some q ↔
    ∃ contract, p.pcv a = some contract ∧ mayWithdraw (p.context sender) contract = true ∧
      p.withTokens <$> e.transfer p.tokens contract.balanceReportedIn contract.self recipient amount = some q := by
  cases here : p.pcv a with
  | none => simp [withdrawAt, here]
  | some contract =>
    simp only [Option.some.injEq, exists_eq_left']
    cases contract with
    | psm psm =>
      rw [withdrawAt, here, toOption_eq_some]
      exact PegStabilityModule.withdrawERC20_eq_ok
    | deposit deposit =>
      rw [withdrawAt, here, toOption_eq_some]
      exact ERC20HoldingPCVDeposit.withdraw_eq_ok

theorem balanceAt_eq (here : p.pcv a = some contract) :
    balanceAt d e p a = e.balanceOf p.tokens contract.balanceReportedIn contract.self := by
  have read (answer : Option ℕ) : (external answer).toOption = answer := by cases answer <;> rfl
  rw [balanceAt, here]
  cases contract <;> exact read _

@[simp] theorem mayWithdraw_withCoreRef (ctx : Context) (contract : PCVContract) (c : CoreRef) :
    mayWithdraw ctx (contract.withCoreRef c) = mayWithdraw ctx contract := by
  cases contract <;> rfl

@[simp] theorem balanceReportedIn_withCoreRef (contract : PCVContract) (c : CoreRef) :
    (contract.withCoreRef c).balanceReportedIn = contract.balanceReportedIn := by
  cases contract <;> rfl

@[simp] theorem self_withCoreRef (contract : PCVContract) (c : CoreRef) :
    (contract.withCoreRef c).self = contract.self := by
  cases contract <;> rfl

/-- Unpausing a paused contract, withdrawing and pausing it again is a withdrawal, for those who may do all three. -/
theorem withdrawPaused_iff (here : p.pcv a = some contract) (paused : contract.toCoreRef.paused = true) :
    (∃ first, coreRefAt (fun c => c.unpause (p.context d.guardian)) p a = some first ∧
      ∃ second, withdrawAt d e d.guardian first a recipient amount = some second ∧
        coreRefAt (fun c => c.pause (second.context d.guardian)) second a = some q) ↔
      Empowered d p contract ∧
        p.withTokens <$> e.transfer p.tokens contract.balanceReportedIn contract.self recipient amount = some q := by
  set c := contract.toCoreRef with core
  have restored : ({ c with paused := true } : CoreRef) = c := by
    rw [← paused]
  set running := contract.withCoreRef { c with paused := false } with unpausedContract
  have between : (p.withPCV a running).pcv a = some running := withPCV_pcv running
  -- Writing the flag back cancels both writes.
  have cancels (token : τ) : ((p.withPCV a running).withTokens token).withPCV a
      (running.withCoreRef { running.toCoreRef with paused := true }) = p.withTokens token := by
    rw [unpausedContract, PCVContract.toCoreRef_withCoreRef, PCVContract.withCoreRef_withCoreRef, restored, core,
      PCVContract.withCoreRef_toCoreRef]
    change ((p.withTokens token).withPCV a _).withPCV a contract = _
    rw [withPCV_withPCV]
    exact withPCV_same here
  constructor
  · rintro ⟨first, unpaused, second, withdrawn, repaused⟩
    obtain ⟨found, written, there, unpausing, rfl⟩ := coreRefAt_eq_some.mp unpaused
    obtain rfl := Option.some.inj (here.symm.trans there)
    obtain ⟨lifts, -, rfl⟩ := unpause_eq_ok.mp unpausing
    obtain ⟨found, there, may, sent⟩ := withdrawAt_eq_some.mp withdrawn
    obtain rfl := Option.some.inj (between.symm.trans there)
    obtain ⟨token, moved, rfl⟩ := Option.map_eq_some_iff.mp sent
    obtain ⟨found, last, there, repausing, rfl⟩ := coreRefAt_eq_some.mp repaused
    obtain rfl := Option.some.inj (between.symm.trans there)
    obtain ⟨-, -, rfl⟩ := pause_eq_ok.mp repausing
    rw [cancels token]
    rw [mayWithdraw_withCoreRef] at may
    rw [balanceReportedIn_withCoreRef, self_withCoreRef] at moved
    exact ⟨⟨may, fun _ => lifts⟩, Option.map_eq_some_iff.mpr ⟨token, moved, rfl⟩⟩
  · rintro ⟨⟨may, lifts⟩, sent⟩
    obtain ⟨token, moved, rfl⟩ := Option.map_eq_some_iff.mp sent
    refine ⟨p.withPCV a running, ?_, (p.withPCV a running).withTokens token, ?_, ?_⟩
    · exact coreRefAt_eq_some.mpr ⟨contract, _, here, unpause_eq_ok.mpr ⟨lifts paused, paused, rfl⟩, rfl⟩
    · refine withdrawAt_eq_some.mpr ⟨running, between, (mayWithdraw_withCoreRef ..).trans may, ?_⟩
      rw [balanceReportedIn_withCoreRef, self_withCoreRef]
      exact Option.map_eq_some_iff.mpr ⟨token, moved, rfl⟩
    · have flag : running.toCoreRef.paused = false := by
        rw [unpausedContract, PCVContract.toCoreRef_withCoreRef]
      refine coreRefAt_eq_some.mpr ⟨running, _, between, pause_eq_ok.mpr ⟨lifts paused, flag, rfl⟩, ?_⟩
      exact (cancels token).symm

/-- A withdrawal to the safe address moves tokens there, whether the contract is paused or not, and needs of
PCVGuardian what it takes to withdraw. -/
theorem withdrawToSafeAddressInternal_eq_ok {s : PCVGuardian} :
    s.withdrawToSafeAddressInternal (guardianContracts d e) p a amount = .ok q ↔
      ∃ contract, p.pcv a = some contract ∧ Empowered d p contract ∧
        p.withTokens <$> e.transfer p.tokens contract.balanceReportedIn contract.self s.safeAddress amount = some q := by
  rw [PCVGuardian.withdrawToSafeAddressInternal, bind_eq_ok]
  simp only [external_eq_ok]
  change (∃ flag, (p.pcv a).map (fun contract => contract.toCoreRef.paused) = some flag ∧ _) ↔ _
  cases here : p.pcv a with
  | none => simp
  | some contract =>
    simp only [Option.map_some, Option.some.injEq, exists_eq_left']
    split_ifs with paused
    · simp only [bind_eq_ok, external_eq_ok]
      exact withdrawPaused_iff here paused
    · rw [external_eq_ok]
      constructor
      · intro withdrawn
        obtain ⟨found, there, may, sent⟩ := withdrawAt_eq_some.mp withdrawn
        obtain rfl := Option.some.inj (here.symm.trans there)
        exact ⟨⟨may, fun flag => absurd flag paused⟩, sent⟩
      · rintro ⟨⟨may, -⟩, sent⟩
        exact withdrawAt_eq_some.mpr ⟨contract, here, may, sent⟩

/-! ### One contract -/

/-- A sender can have PCVGuardian empty a contract. -/
structure Evacuable (d : Deployment) (p : Protocol τ) (sender a : Address) : Prop where
  guards : PCVGuardian.MayWithdraw (p.context sender)
  listed : a ∈ p.guardian.whitelistAddresses
  empowered : ∃ contract, p.pcv a = some contract ∧ Empowered d p contract

theorem evacuable_withTokens (u : τ) : Evacuable d (p.withTokens u) sender a ↔ Evacuable d p sender a := by
  constructor
  · rintro ⟨guards, listed, contract, here, withdraws, lifts⟩
    exact ⟨guards, listed, contract, here, withdraws, lifts⟩
  · rintro ⟨guards, listed, contract, here, withdraws, lifts⟩
    exact ⟨guards, listed, contract, here, withdraws, lifts⟩

/-- Tokens that say what an account holds, and let it send as much. -/
structure Liquid (e : Externals τ κ) (held : τ → Address → Address → ℕ) : Prop where
  balanceOf (t : τ) (token account : Address) : e.balanceOf t token account = some (held t token account)
  transfer {t : τ} {token sender : Address} {amount : ℕ} (recipient : Address) (covered : amount ≤ held t token sender) :
    ∃ u, e.transfer t token sender recipient amount = some u

/-- The token that the contract at an address reports its balance in. -/
def asset (p : Protocol τ) (a : Address) : Option Address := (p.pcv a).map PCVContract.balanceReportedIn

/-- Emptying a contract moves what it holds of its token. -/
theorem withdrawAll_eq_ok (liquid : Liquid e held) (placed : Placed d p) :
    step d e depth p (.guardian sender (.withdrawAllToSafeAddress a)) = .ok q ↔
      Evacuable d p sender a ∧ ∃ token u, asset p a = some token ∧
        e.transfer p.tokens token a p.guardian.safeAddress (held p.tokens token a) = some u ∧ p.withTokens u = q := by
  change p.guardian.withdrawAllToSafeAddress (guardianContracts d e) (p.context sender) p a = .ok q ↔ _
  simp only [PCVGuardian.withdrawAllToSafeAddress, bind_eq_ok, external_eq_ok, PCVGuardian.onlyGuards_eq_ok,
    withdrawToSafeAddressInternal_eq_ok]
  constructor
  · rintro ⟨_, ⟨guards, listed⟩, amount, read, contract, here, empowered, sent⟩
    change balanceAt d e p a = some amount at read
    rw [balanceAt_eq here, liquid.balanceOf, Option.some.injEq] at read
    obtain ⟨u, moved, rfl⟩ := Option.map_eq_some_iff.mp sent
    subst read
    rw [placed.self a contract here] at moved
    exact ⟨⟨guards, listed, contract, here, empowered⟩, _, u, congrArg (Option.map _) here, moved, rfl⟩
  · rintro ⟨⟨guards, listed, contract, here, empowered⟩, token, u, reported, moved, rfl⟩
    obtain rfl := Option.some.inj ((congrArg (Option.map _) here).symm.trans reported)
    have self := placed.self a contract here
    refine ⟨(), ⟨guards, listed⟩, held p.tokens contract.balanceReportedIn a, ?_, contract, here, empowered, ?_⟩
    · change balanceAt d e p a = _
      rw [balanceAt_eq here, liquid.balanceOf, self]
    · rw [self]
      exact Option.map_eq_some_iff.mpr ⟨u, moved, rfl⟩

/-! ### Any number of contracts -/

/-- A sender has PCVGuardian empty one contract after the other. -/
def evacuation (sender : Address) (evacuated : List Address) : List (Call κ) :=
  evacuated.map fun a => .guardian sender (.withdrawAllToSafeAddress a)

/-- What contracts hold together of a token that they report their balance in. -/
def reported (held : τ → Address → Address → ℕ) (p : Protocol τ) (evacuated : List Address) (token : Address) : ℕ :=
  ((evacuated.filter fun a => asset p a = some token).map (held p.tokens token)).sum

/-- What accounts hold once contracts are empty: the safe address has what they reported. -/
def remaining (held : τ → Address → Address → ℕ) (p : Protocol τ) (evacuated : List Address) (token account : Address) :
    ℕ :=
  if account = p.guardian.safeAddress then held p.tokens token account + reported held p evacuated token
  else if account ∈ evacuated ∧ asset p account = some token then 0
  else held p.tokens token account

/-- Emptying one contract before the others comes to the same. -/
theorem remaining_cons {evacuated : List Address} {token : Address} {u : τ} (fresh : a ∉ evacuated)
    (elsewhere : p.guardian.safeAddress ∉ a :: evacuated) (here : asset p a = some token)
    (moved : held u = Ledger.moveIn (held p.tokens) token a p.guardian.safeAddress (held p.tokens token a)) :
    remaining held (p.withTokens u) evacuated = remaining held p (a :: evacuated) := by
  obtain ⟨notSafe, notRest⟩ := not_or.mp (mt List.mem_cons.mpr elsewhere)
  funext other account
  have others {b : Address} (notSource : b ≠ a) (notTarget : b ≠ p.guardian.safeAddress) :
      held u other b = held p.tokens other b := by
    by_cases same : other = token
    · rw [moved, same, Ledger.moveIn_self, Ledger.move_of_ne notSource notTarget]
    · rw [moved, Ledger.moveIn_of_ne same]
  have rest : reported held (p.withTokens u) evacuated other = reported held p evacuated other := by
    apply congrArg List.sum
    apply List.map_congr_left
    intro b member
    have later := (List.mem_filter.mp member).1
    exact others (fun same => fresh (same ▸ later)) fun same => notRest (same ▸ later)
  change (if account = p.guardian.safeAddress then held u other account + _ else
    if account ∈ evacuated ∧ asset p account = some other then 0 else held u other account) = _
  rw [rest, remaining]
  by_cases safe : account = p.guardian.safeAddress
  · rw [if_pos safe, if_pos safe, safe]
    by_cases same : other = token
    · have first : reported held p (a :: evacuated) other = held p.tokens token a + reported held p evacuated other := by
        simp [reported, here, same]
      rw [first, moved, same, Ledger.moveIn_self, Ledger.move_target (Ne.symm notSafe), Nat.add_assoc]
    · have skipped : reported held p (a :: evacuated) other = reported held p evacuated other := by
        simp [reported, here, Ne.symm same]
      rw [skipped, moved, Ledger.moveIn_of_ne same]
  · rw [if_neg safe, if_neg safe]
    by_cases emptied : account = a
    · subst emptied
      rw [if_neg fun both => fresh both.1]
      by_cases same : other = token
      · rw [if_pos ⟨List.mem_cons_self .., same ▸ here⟩, moved, same, Ledger.moveIn_self, Ledger.move_source safe,
          Nat.sub_self]
      · have elsewhere : ¬ (account ∈ account :: evacuated ∧ asset p account = some other) := by
          rintro ⟨-, reports⟩
          exact same (Option.some.inj (reports.symm.trans here))
        rw [if_neg elsewhere, moved, Ledger.moveIn_of_ne same]
    · simp only [List.mem_cons, emptied, false_or, others emptied safe]

/-- However many contracts on its whitelist PCVGuardian is told to empty, it empties them all if it may empty each:
the safe address gains what they held, and nothing else changes, least of all which contracts are paused. -/
theorem evacuates {evacuated : List Address} (exact : Exact d.volt e held supply) (liquid : Liquid e held)
    (reached : Reachable (step d e depth) Initial p) (distinct : evacuated.Nodup)
    (elsewhere : p.guardian.safeAddress ∉ evacuated) (sender : Address) :
    ((∃ q, run (step d e depth) p (evacuation sender evacuated) = .ok q) ↔
      ∀ a ∈ evacuated, Evacuable d p sender a) ∧
    ∀ q, run (step d e depth) p (evacuation sender evacuated) = .ok q →
      q = p.withTokens q.tokens ∧ held q.tokens = remaining held p evacuated := by
  have placed := placed_of_reachable reached
  clear reached
  induction evacuated generalizing p with
  | nil =>
    refine ⟨iff_of_true ⟨p, run_nil_ok.mpr rfl⟩ (List.forall_mem_nil _), ?_⟩
    intro q success
    obtain rfl := run_nil_ok.mp success
    refine ⟨rfl, ?_⟩
    funext token account
    simp [remaining, reported]
  | cons a rest ih =>
    obtain ⟨fresh, distinct⟩ := List.nodup_cons.mp distinct
    have later : p.guardian.safeAddress ∉ rest := fun member => elsewhere (List.mem_cons_of_mem _ member)
    have onward (u : τ) : ((∃ q, run (step d e depth) (p.withTokens u) (evacuation sender rest) = .ok q) ↔
          ∀ b ∈ rest, Evacuable d p sender b) ∧
        ∀ q, run (step d e depth) (p.withTokens u) (evacuation sender rest) = .ok q →
          q = p.withTokens q.tokens ∧ held q.tokens = remaining held (p.withTokens u) rest := by
      obtain ⟨succeeds, emptied⟩ := @ih (p.withTokens u) distinct later (placed.of_pcv rfl)
      exact ⟨succeeds.trans (forall₂_congr fun _ _ => evacuable_withTokens u), emptied⟩
    constructor
    · rw [List.forall_mem_cons]
      constructor
      · rintro ⟨q, success⟩
        obtain ⟨middle, first, others⟩ := run_cons_ok.mp success
        obtain ⟨here, token, u, -, -, rfl⟩ := (withdrawAll_eq_ok liquid placed).mp first
        exact ⟨here, (onward u).1.mp ⟨q, others⟩⟩
      · rintro ⟨here, others⟩
        obtain ⟨contract, found, -⟩ := here.empowered
        obtain ⟨u, moved⟩ := liquid.transfer p.guardian.safeAddress
          (le_refl (held p.tokens contract.balanceReportedIn a))
        obtain ⟨q, success⟩ := (onward u).1.mpr others
        have first : step d e depth p (.guardian sender (.withdrawAllToSafeAddress a)) = .ok (p.withTokens u) :=
          (withdrawAll_eq_ok liquid placed).mpr ⟨here, _, u, congrArg (Option.map _) found, moved, rfl⟩
        exact ⟨q, run_cons_ok.mpr ⟨_, first, success⟩⟩
    · intro q success
      obtain ⟨middle, first, others⟩ := run_cons_ok.mp success
      obtain ⟨-, token, u, here, moved, rfl⟩ := (withdrawAll_eq_ok liquid placed).mp first
      obtain ⟨same, balances⟩ := (onward u).2 q others
      refine ⟨same, balances.trans ?_⟩
      exact remaining_cons fresh elsewhere here (exact.transfer moved).1.2

/-! ### The books -/

theorem tables_liquid (volt : Address) : Liquid (tables volt) Books.held where
  balanceOf _ _ _ := rfl
  transfer _ covered := ⟨_, if_pos covered⟩

/-- A user trades, and a guardian pauses the PSM. -/
def alarm : List (Call Payment) := [.psm 1006 4 (.mint 4 (21 * 10 ^ 21) 0), .allocator 7 (.skim 1008), .psm 1006 2 .pause]

/-- A PCV guard empties the paused PSM and the deposit. -/
theorem evacuates_alarm : ∃ p q, Reachable system Initial p ∧ run system p (evacuation 3 [1006, 1008]) = .ok q ∧
    (∀ a ∈ [1006, 1008], Evacuable addresses p 3 a) ∧ q = p.withTokens q.tokens ∧
      q.tokens.held = remaining Books.held p [1006, 1008] := by
  have all : (run system blank ((launch ++ alarm) ++ evacuation 3 [1006, 1008])).isOk = true := by decide +kernel
  obtain ⟨q, success⟩ := exists_of_isOk all
  obtain ⟨p, before, emptied⟩ := run_append_ok.mp success
  obtain ⟨middle, launched, others⟩ := run_append_ok.mp before
  have elsewhere : p.guardian.safeAddress ∉ [1006, 1008] := by
    have quiet : ∀ call ∈ alarm, ∀ sender function, call ≠ .guardian sender function := by
      simp [alarm]
    have kept (state : Protocol Books) (call : Call Payment) (next : Protocol Books)
        (away : ∀ sender function, call ≠ .guardian sender function) (same : state.guardian = middle.guardian)
        (stepped : system state call = .ok next) : next.guardian = middle.guardian :=
      ((changes_of_step stepped).guardian_eq away).trans same
    rw [run_invariant kept quiet rfl others, (launched_of_run launched).safeAddress]
    decide
  have reached : Reachable system Initial p := ⟨blank, _, blank_initial, before⟩
  obtain ⟨succeeds, empty⟩ := evacuates (tables_exact 1002) (tables_liquid 1002) reached (by decide) elsewhere 3
  exact ⟨p, q, reached, emptied, succeeds.mp ⟨q, emptied⟩, empty q emptied⟩

end VoltProtocol.Evacuation
