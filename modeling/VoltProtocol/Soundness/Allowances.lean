import VoltProtocol.Machine.History
import VoltProtocol.Soundness.VoteConservation

/-! # Allowances of Vcon over runs

An allowance is written by three calls only: `approve` and `permit` set it, and a transfer by the spender
out of the owner's tokens takes its amount off. Until the next call that sets it, what is left of it and
what the spender has moved add up to what it was set to, unless it was set to the largest amount of 96
bits, which stands for an unlimited allowance and is never reduced.
-/

namespace VoltProtocol.Allowances

open Machine Vcon VoteConservation

variable {crypto : Crypto} {self owner spender : Address} {s t : State} {call : Call} {calls : List Call}

/-- The calls that set the allowance of a pair. -/
def Resets (owner spender : Address) : Call → Prop
  | .approve sender target _ => sender = owner ∧ target = spender
  | .permit account target .. => account = owner ∧ target = spender
  | _ => False

instance decidableResets : (call : Call) → Decidable (Resets owner spender call)
  | .approve .. => inferInstanceAs (Decidable (_ ∧ _))
  | .permit .. => inferInstanceAs (Decidable (_ ∧ _))
  | .nextBlock .. | .transfer .. | .transferFrom .. | .mint .. | .delegate .. | .delegateBySig .. |
    .setMinter .. => inferInstanceAs (Decidable False)

/-- The calls that may change the allowance of a pair. -/
def Touches (owner spender : Address) : Call → Prop
  | .transferFrom sender src .. => sender = spender ∧ src = owner
  | call => Resets owner spender call

/-- The amount a transfer by the spender takes from the owner. -/
def spent (owner spender : Address) (_ : State) : Call → Option ℕ
  | .transferFrom sender src _ rawAmount =>
    if sender = spender ∧ src = owner then some rawAmount else none
  | _ => none

/-- The allowance of a pair. -/
def allowance (s : State) (owner spender : Address) : ℕ := s.token.allowances owner spender

/-! ### One call -/

/-- No call changes the allowance of a pair that it does not name. -/
theorem allowance_of_step (untouched : ¬ Touches owner spender call)
    (stepped : step crypto self s call = .ok t) : allowance t owner spender = allowance s owner spender := by
  rw [allowance, allowance]
  cases call with
  | nextBlock blocks seconds chainid =>
    obtain rfl := Except.ok.inj stepped
    rfl
  | transfer sender dst rawAmount =>
    obtain ⟨token, transferred, rfl⟩ := map_eq_ok.mp stepped
    rw [State.write, (transfer_spec transferred).1]
  | transferFrom sender src dst rawAmount =>
    obtain ⟨token, transferred, rfl⟩ := map_eq_ok.mp stepped
    obtain ⟨-, -, -, spends⟩ := transferFrom_spec transferred
    have other : ¬ (owner = src ∧ spender = sender) := fun same => untouched ⟨same.2.symm, same.1.symm⟩
    split_ifs at spends
    · rw [State.write, spends.2, setAllowance_allowances, if_neg other]
    · rw [State.write, spends]
  | mint sender dst rawAmount =>
    obtain ⟨token, minted, rfl⟩ := map_eq_ok.mp stepped
    rw [State.write, (mint_frame minted).1]
  | delegate sender delegatee =>
    obtain ⟨token, delegated, rfl⟩ := map_eq_ok.mp stepped
    rw [State.write, (delegateInternal_spec delegated).2.1]
  | delegateBySig delegatee nonce expiry v r sig =>
    obtain ⟨token, delegated, rfl⟩ := map_eq_ok.mp stepped
    obtain ⟨signatory, -, -, -, -, -, allowances, -⟩ := delegateBySig_spec delegated
    rw [State.write, allowances]
  | approve sender target rawAmount =>
    obtain ⟨token, approved, rfl⟩ := map_eq_ok.mp stepped
    obtain ⟨amount, -, rfl⟩ := approve_spec approved
    have other : ¬ (owner = sender ∧ spender = target) := fun same => untouched ⟨same.1.symm, same.2.symm⟩
    rw [State.write, setAllowance_allowances, if_neg other]
  | permit account target rawAmount deadline v r sig =>
    obtain ⟨token, permitted, rfl⟩ := map_eq_ok.mp stepped
    obtain ⟨amount, -, -, -, -, rfl⟩ := permit_spec permitted
    have other : ¬ (owner = account ∧ spender = target) := fun same => untouched ⟨same.1.symm, same.2.symm⟩
    simp only [State.write]
    rw [setAllowance_allowances, if_neg other]
  | setMinter sender minter =>
    obtain ⟨token, written, rfl⟩ := map_eq_ok.mp stepped
    rw [State.write, (setMinter_frame written).1]

/-- A call that sets an allowance sets it to an amount of 96 bits. -/
theorem allowance_le_of_resets (resets : Resets owner spender call) (stepped : step crypto self s call = .ok t) :
    allowance t owner spender ≤ uint96Max := by
  cases call with
  | approve sender target rawAmount =>
    obtain ⟨rfl, rfl⟩ := resets
    obtain ⟨token, approved, rfl⟩ := map_eq_ok.mp stepped
    obtain ⟨amount, within, rfl⟩ := approve_spec approved
    rw [allowance, State.write, setAllowance_allowances, if_pos ⟨rfl, rfl⟩]
    exact approvalAmount_le within
  | permit account target rawAmount deadline v r sig =>
    obtain ⟨rfl, rfl⟩ := resets
    obtain ⟨token, permitted, rfl⟩ := map_eq_ok.mp stepped
    obtain ⟨amount, within, -, -, -, rfl⟩ := permit_spec permitted
    simp only [allowance, State.write]
    rw [setAllowance_allowances, if_pos ⟨rfl, rfl⟩]
    exact approvalAmount_le within
  | _ => exact resets.elim

/-- A transfer by the spender of another account's tokens takes its amount off a limited allowance. -/
theorem allowance_add_of_transferFrom {dst : Address} {rawAmount : ℕ} (different : spender ≠ owner)
    (limited : allowance s owner spender ≠ uint96Max)
    (stepped : step crypto self s (.transferFrom spender owner dst rawAmount) = .ok t) :
    allowance t owner spender + rawAmount = allowance s owner spender := by
  obtain ⟨token, transferred, rfl⟩ := map_eq_ok.mp stepped
  obtain ⟨-, -, -, spends⟩ := transferFrom_spec transferred
  rw [if_pos ⟨different, limited⟩] at spends
  obtain ⟨enough, written⟩ := spends
  rw [allowance, State.write, written, setAllowance_allowances, if_pos ⟨rfl, rfl⟩]
  exact Nat.sub_add_cancel enough

/-- It leaves an unlimited one as it is. -/
theorem allowance_of_unlimited {dst : Address} {rawAmount : ℕ}
    (unlimited : allowance s owner spender = uint96Max)
    (stepped : step crypto self s (.transferFrom spender owner dst rawAmount) = .ok t) :
    allowance t owner spender = allowance s owner spender := by
  obtain ⟨token, transferred, rfl⟩ := map_eq_ok.mp stepped
  obtain ⟨-, -, -, spends⟩ := transferFrom_spec transferred
  rw [if_neg fun limited => limited.2 unlimited] at spends
  rw [allowance, State.write, spends]
  rfl

/-! ### Every run of calls that do not set the allowance -/

/-- Such a call either spends the allowance or has nothing to do with it. -/
theorem spends_or_untouched (quiet : ¬ Resets owner spender call) :
    (∃ dst rawAmount, call = .transferFrom spender owner dst rawAmount) ∨
      (¬ Touches owner spender call ∧ spent owner spender s call = none) := by
  cases call with
  | transferFrom sender src dst rawAmount =>
    by_cases names : sender = spender ∧ src = owner
    · obtain ⟨rfl, rfl⟩ := names
      exact .inl ⟨dst, rawAmount, rfl⟩
    · exact .inr ⟨names, if_neg names⟩
  | _ => exact .inr ⟨quiet, rfl⟩

/-- What is left of a limited allowance and what was spent make up what it was. -/
theorem limited_run (different : spender ≠ owner) (limited : allowance s owner spender < uint96Max)
    (undisturbed : ∀ call ∈ succeeded (step crypto self) s calls, ¬ Resets owner spender call) :
    allowance (attempts (step crypto self) s calls) owner spender +
      (noted (step crypto self) (spent owner spender) s calls).sum = allowance s owner spender := by
  have kept (state : State) (log : List ℕ) (call : Call) (next : State)
      (quiet : ¬ Resets owner spender call)
      (balanced : allowance state owner spender + log.sum = allowance s owner spender)
      (stepped : step crypto self state call = .ok next) : allowance next owner spender +
        (log ++ (spent owner spender state call).toList).sum = allowance s owner spender := by
    rcases spends_or_untouched (s := state) quiet with ⟨dst, rawAmount, rfl⟩ | ⟨untouched, nothing⟩
    · have taken := allowance_add_of_transferFrom different (by omega) stepped
      rw [spent, if_pos ⟨rfl, rfl⟩, Option.toList_some, List.sum_append, List.sum_singleton]
      omega
    · rw [allowance_of_step untouched stepped, nothing, Option.toList_none, List.append_nil]
      exact balanced
  exact noted_invariant kept undisturbed (by rw [List.sum_nil, add_zero])

/-- An unlimited allowance stays as it is. -/
theorem unlimited_run (unlimited : allowance s owner spender = uint96Max)
    (undisturbed : ∀ call ∈ succeeded (step crypto self) s calls, ¬ Resets owner spender call) :
    allowance (attempts (step crypto self) s calls) owner spender = uint96Max := by
  have kept (state : State) (call : Call) (next : State) (quiet : ¬ Resets owner spender call)
      (full : allowance state owner spender = uint96Max) (stepped : step crypto self state call = .ok next) :
      allowance next owner spender = uint96Max := by
    rcases spends_or_untouched (s := state) quiet with ⟨dst, rawAmount, rfl⟩ | ⟨untouched, -⟩
    · rw [allowance_of_unlimited full stepped, full]
    · rw [allowance_of_step untouched stepped, full]
  have final := run_invariant kept undisturbed unlimited (run_succeeded s calls)
  exact final

/-- The allowance of a pair that no successful call names stays as it is. -/
theorem untouched_run
    (untouched : ∀ call ∈ succeeded (step crypto self) s calls, ¬ Touches owner spender call) :
    allowance (attempts (step crypto self) s calls) owner spender = allowance s owner spender := by
  have kept (state : State) (call : Call) (next : State) (quiet : ¬ Touches owner spender call)
      (same : allowance state owner spender = allowance s owner spender)
      (stepped : step crypto self state call = .ok next) :
      allowance next owner spender = allowance s owner spender := by
    rw [allowance_of_step quiet stepped, same]
  have final := run_invariant kept untouched rfl (run_succeeded s calls)
  exact final

/-! ### Allowances are honoured -/

/-- A call that sets the allowance of one pair, or spends it, does not touch another pair. -/
theorem not_touches_of_ne {o p : Address} (names : Touches owner spender call)
    (other : ¬ (o = owner ∧ p = spender)) : ¬ Touches o p call := by
  intro touches
  cases call with
  | transferFrom sender src dst rawAmount => exact other ⟨touches.2 ▸ names.2, touches.1 ▸ names.1⟩
  | approve sender target rawAmount => exact other ⟨touches.1 ▸ names.1, touches.2 ▸ names.2⟩
  | permit account target rawAmount deadline v r sig =>
    exact other ⟨touches.1 ▸ names.1, touches.2 ▸ names.2⟩
  | _ => exact names

theorem touches_of_resets (resets : Resets owner spender call) : Touches owner spender call := by
  cases call with
  | transferFrom sender src dst rawAmount => exact resets.elim
  | _ => exact resets

/-- A transfer from or to the zero address, or of more than the owner has, fails. -/
theorem transferFrom_fails {dst : Address} {rawAmount : ℕ}
    (refused : owner = 0 ∨ dst = 0 ∨ s.token.balances owner < rawAmount) :
    ∃ reason, step crypto self s (.transferFrom spender owner dst rawAmount) = .error reason := by
  cases stepped : step crypto self s (.transferFrom spender owner dst rawAmount) with
  | error reason => exact ⟨reason, rfl⟩
  | ok t =>
    obtain ⟨token, transferred, -⟩ := map_eq_ok.mp stepped
    obtain ⟨⟨source, target, covered⟩, -⟩ := transferFrom_spec transferred
    rcases refused with zero | zero | short
    · exact absurd zero source
    · exact absurd zero target
    · omega

/-- After a call that sets an allowance, until the next one that succeeds: what the spender moves comes
out of the allowance exactly, unless it is unlimited; no other allowance changes; and a transfer that
fails leaves no trace. -/
theorem allowance_honoured {before : State} {set : Call} (different : spender ≠ owner)
    (resets : Resets owner spender set) (accepted : step crypto self before set = .ok s)
    (undisturbed : ∀ call ∈ succeeded (step crypto self) s calls, ¬ Resets owner spender call) :
    let final := attempts (step crypto self) s calls
    let moved := (noted (step crypto self) (spent owner spender) s calls).sum
    allowance s owner spender ≤ uint96Max ∧
    (allowance s owner spender < uint96Max →
      moved ≤ allowance s owner spender ∧
        allowance final owner spender = allowance s owner spender - moved) ∧
    (allowance s owner spender = uint96Max → allowance final owner spender = uint96Max) ∧
    (∀ o p, ¬ (o = owner ∧ p = spender) → allowance s o p = allowance before o p) ∧
    (∀ o p, (∀ call ∈ succeeded (step crypto self) s calls, ¬ Touches o p call) →
      allowance final o p = allowance s o p) ∧
    ∀ dst rawAmount,
      (∀ t, step crypto self final (.transferFrom spender owner dst rawAmount) = .ok t →
        t.token.balances = Ledger.move final.token.balances owner dst rawAmount ∧
          ∀ o p, ¬ (o = owner ∧ p = spender) → allowance t o p = allowance final o p) ∧
      (owner = 0 ∨ dst = 0 ∨ final.token.balances owner < rawAmount →
        ∃ reason, step crypto self final (.transferFrom spender owner dst rawAmount) = .error reason) ∧
      ∀ reason, step crypto self final (.transferFrom spender owner dst rawAmount) = .error reason →
        attempts (step crypto self) s (calls ++ [.transferFrom spender owner dst rawAmount]) = final := by
  intro final moved
  refine ⟨allowance_le_of_resets resets accepted, ?_, ?_, ?_, ?_, ?_⟩
  · intro limited
    have balanced : allowance final owner spender + moved = allowance s owner spender :=
      limited_run different limited undisturbed
    omega
  · exact fun unlimited => unlimited_run unlimited undisturbed
  · intro o p other
    exact allowance_of_step (not_touches_of_ne (touches_of_resets resets) other) accepted
  · exact fun o p untouched => untouched_run untouched
  · intro dst rawAmount
    refine ⟨?_, transferFrom_fails, ?_⟩
    · intro t stepped
      obtain ⟨token, transferred, rfl⟩ := map_eq_ok.mp stepped
      refine ⟨(transferFrom_spec transferred).2.1, fun o p other => ?_⟩
      have names : Touches owner spender (.transferFrom spender owner dst rawAmount) := ⟨rfl, rfl⟩
      exact allowance_of_step (not_touches_of_ne names other) stepped
    · intro reason failed
      rw [attempts_append, attempts, attempts, attempt_of_error failed]

/-- An allowance of 500 after transfers of 200 and 250, with a transfer to the zero address and one of too
much in between. -/
theorem allowance_honoured_five_hundred :
    let crypto : Crypto := ⟨fun _ => 0, fun _ => 0, fun _ _ => 0, fun _ _ _ _ => 0⟩
    let start : State := ⟨⟨100, 1000, 1⟩, Vcon.deploy 1 2⟩
    let s := start.write (start.token.setAllowance 1 3 500)
    let calls := [.transferFrom 3 1 4 200, .transferFrom 3 1 0 50, .transferFrom 3 1 4 301, .approve 1 5 7,
      .transferFrom 3 1 5 250]
    step crypto 9 start (.approve 1 3 500) = .ok s ∧
      (noted (step crypto 9) (spent 1 3) s calls).sum = 450 ∧
      allowance (attempts (step crypto 9) s calls) 1 3 = 50 := by
  intro crypto start s calls
  have accepted : step crypto 9 start (.approve 1 3 500) = .ok s := rfl
  have undisturbed : ∀ call ∈ succeeded (step crypto 9) s calls, ¬ Resets 1 3 call := by decide +kernel
  have moved : (noted (step crypto 9) (spent 1 3) s calls).sum = 450 := by decide +kernel
  have set : allowance s 1 3 = 500 := by decide +kernel
  have resets : Resets 1 3 (.approve 1 3 500) := ⟨rfl, rfl⟩
  obtain ⟨-, limited, -⟩ := allowance_honoured (by decide) resets accepted undisturbed
  have left := (limited (set.trans_lt (by decide))).2
  rw [moved, set] at left
  exact ⟨accepted, moved, left⟩

end VoltProtocol.Allowances
