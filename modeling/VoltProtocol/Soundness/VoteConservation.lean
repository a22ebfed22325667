import VoltProtocol.Machine.Run
import VoltProtocol.Model.Vcon

/-! # Vote conservation in Vcon

A delegate's current votes are the sum of the balances of the accounts that delegate to it. Every
operation that changes balances or delegations first regroups the balances and then moves as many
votes; `Pending` is the state between the two halves, and one lemma about it serves transfers,
mints and delegations, both for the conservation law and for the checks that cannot fail.
-/

namespace VoltProtocol.VoteConservation

open Machine Vcon

/-- The transactions of Vcon, and later blocks. The chain id may change with a block. -/
inductive Call where
  | nextBlock (blocks seconds chainid : ℕ)
  | transfer (sender dst : Address) (rawAmount : ℕ)
  | transferFrom (sender src dst : Address) (rawAmount : ℕ)
  | mint (sender dst : Address) (rawAmount : ℕ)
  | delegate (sender delegatee : Address)
  | delegateBySig (delegatee : Address) (nonce expiry v r s : ℕ)
  | approve (sender spender : Address) (rawAmount : ℕ)
  | permit (owner spender : Address) (rawAmount deadline v r s : ℕ)
  | setMinter (sender minter : Address)

structure State where
  block : Block
  token : Vcon

/-- A call that replaces the token. -/
def State.write (s : State) (token : Vcon) : State := { s with token }

def step (crypto : Crypto) (self : Address) (s : State) : Call → Except Revert State
  | .nextBlock blocks seconds chainid =>
    .ok { s with block := ⟨s.block.number + blocks, s.block.timestamp + seconds, chainid⟩ }
  | .transfer sender dst rawAmount => s.write <$> s.token.transfer s.block sender dst rawAmount
  | .transferFrom sender src dst rawAmount =>
    s.write <$> s.token.transferFrom s.block sender src dst rawAmount
  | .mint sender dst rawAmount => s.write <$> s.token.mint s.block sender dst rawAmount
  | .delegate sender delegatee => s.write <$> s.token.delegate s.block sender delegatee
  | .delegateBySig delegatee nonce expiry v r sig =>
    s.write <$> s.token.delegateBySig s.block crypto self delegatee nonce expiry v r sig
  | .approve sender spender rawAmount => s.write <$> s.token.approve sender spender rawAmount
  | .permit owner spender rawAmount deadline v r sig =>
    s.write <$> s.token.permit s.block crypto self owner spender rawAmount deadline v r sig
  | .setMinter sender minter => s.write <$> s.token.setMinter sender minter

/-- A newly deployed token, in any block. -/
def Initial (s : State) : Prop := ∃ account minter, s.token = Vcon.deploy account minter

/-- Balances add up to a supply of 96 bits, and votes are grouped balances. -/
structure Conserved (t : Vcon) : Prop where
  supply : ∑ a, t.balances a = t.totalSupply
  bounded : t.totalSupply < 2 ^ 96
  votes : ∀ d ≠ 0, t.getCurrentVotes d = Ledger.group t.delegates t.balances d

/-- The law does not mention allowances, nonces or the minter. -/
theorem Conserved.frame {t : Vcon} (before : Conserved t) (allowances : Address → Address → ℕ)
    (nonces : Address → ℕ) (minter : Address) : Conserved { t with allowances, nonces, minter } :=
  ⟨before.supply, before.bounded, before.votes⟩

theorem deploy_conserved (account minter : Address) : Conserved (Vcon.deploy account minter) where
  supply := by
    have written : (Vcon.deploy account minter).balances =
        Ledger.credit (fun _ => 0) account (initialSupply % 2 ^ 96) := by
      rw [Vcon.deploy, Ledger.credit, zero_add]
    rw [written, Ledger.sum_credit_zero Finset.univ (Finset.mem_univ account)]
    exact Nat.mod_eq_of_lt initialSupply_lt
  bounded := initialSupply_lt
  votes d nonzero := by
    have nobody : (Finset.univ.filter fun a => (Vcon.deploy account minter).delegates a = d) = ∅ :=
      Finset.filter_false_of_mem fun a _ => nonzero.symm
    rw [Ledger.group, nobody, Finset.sum_empty]
    rfl

/-- Between the two halves of an operation: balances or delegations are regrouped, the votes are
still those of before. -/
structure Pending (t m : Vcon) (srcRep dstRep : Address) (amount : ℕ) : Prop where
  supply : ∑ a, m.balances a = m.totalSupply
  bounded : m.totalSupply < 2 ^ 96
  checkpoints : m.checkpoints = t.checkpoints
  numCheckpoints : m.numCheckpoints = t.numCheckpoints
  regrouped : ∀ d ≠ 0, Ledger.group m.delegates m.balances d + (if srcRep = d then amount else 0) =
    Ledger.group t.delegates t.balances d + if dstRep = d then amount else 0

namespace Pending

variable {t m u : Vcon} {srcRep dstRep : Address} {amount : ℕ} {block : Block} {reason : Revert}

theorem currentVotes (pending : Pending t m srcRep dstRep amount) (d : Address) :
    m.getCurrentVotes d = t.getCurrentVotes d := by
  rw [getCurrentVotes, getCurrentVotes, pending.checkpoints, pending.numCheckpoints]

/-- The second half restores the law. -/
theorem conserved (pending : Pending t m srcRep dstRep amount) (before : Conserved t)
    (success : m.moveDelegates block srcRep dstRep amount = .ok u) : Conserved u := by
  obtain ⟨frame, moved⟩ := moveDelegates_spec success
  have balances : u.balances = m.balances := by rw [frame]
  have delegates : u.delegates = m.delegates := by rw [frame]
  have supply : u.totalSupply = m.totalSupply := by rw [frame]
  refine ⟨by rw [balances, supply, pending.supply], by rw [supply]; exact pending.bounded, ?_⟩
  intro d nonzero
  have votes := moved d nonzero
  have groups := pending.regrouped d nonzero
  rw [pending.currentVotes, before.votes d nonzero] at votes
  rw [balances, delegates]
  omega

/-- The second half only fails for a number out of range: the votes of the old delegate cover the
move, and the votes of the new one stay within the supply. -/
theorem error (pending : Pending t m srcRep dstRep amount) (before : Conserved t)
    (failure : m.moveDelegates block srcRep dstRep amount = .error reason) :
    (2 ^ 32 ≤ block.number ∧ reason = .message "Vcon: block number exceeds 32 bits") ∨
      ((∃ d, 2 ^ 32 ≤ t.numCheckpoints d + 1) ∧ reason = .panic) := by
  rw [← pending.numCheckpoints]
  apply moveDelegates_error _ _ failure
  · intro nonzero different
    have groups := pending.regrouped srcRep nonzero
    rw [if_pos rfl, if_neg different.symm] at groups
    rw [pending.currentVotes, before.votes _ nonzero]
    omega
  · intro nonzero different
    have groups := pending.regrouped dstRep nonzero
    rw [if_neg different, if_pos rfl] at groups
    have within := Ledger.group_le_sum m.delegates m.balances dstRep
    have bounded := pending.bounded
    rw [pending.supply] at within
    rw [pending.currentVotes, before.votes _ nonzero]
    omega

/-- Below block `2 ** 32`, the second half succeeds while no account has used up its indices. -/
theorem succeeds (pending : Pending t m srcRep dstRep amount) (before : Conserved t)
    (early : block.number < 2 ^ 32) :
    (∃ u, m.moveDelegates block srcRep dstRep amount = .ok u) ∨ ∃ d, 2 ^ 32 ≤ t.numCheckpoints d + 1 := by
  cases result : m.moveDelegates block srcRep dstRep amount with
  | ok u => exact .inl ⟨u, rfl⟩
  | error reason =>
    rcases pending.error before result with ⟨late, -⟩ | ⟨exhausted, -⟩
    · exact absurd early (Nat.not_lt.mpr late)
    · exact .inr exhausted

end Pending

variable {t m : Vcon}

theorem transfer_pending {src dst : Address} {amount : ℕ} (before : Conserved t)
    (moved : t.transferBalances src dst amount = .ok m) :
    Pending t m (m.delegates src) (m.delegates dst) amount := by
  obtain ⟨-, -, covered, rfl⟩ := transferBalances_spec moved
  refine ⟨?_, before.bounded, rfl, rfl, fun d _ => Ledger.group_move t.delegates d dst covered⟩
  rw [← before.supply]
  exact Ledger.sum_move_of_mem _ covered (Finset.mem_univ src) (Finset.mem_univ dst)

theorem mint_pending {sender dst : Address} {rawAmount amount : ℕ} (before : Conserved t)
    (minted : t.mintBalances sender dst rawAmount = .ok (m, amount)) :
    Pending t m 0 (m.delegates dst) amount := by
  obtain ⟨-, -, fits, both⟩ := mintBalances_spec minted
  obtain ⟨rfl, rfl⟩ := Prod.mk.inj both
  refine ⟨?_, fits, rfl, rfl, fun d nonzero => ?_⟩
  · rw [Ledger.sum_credit, if_pos (Finset.mem_univ dst), before.supply]
  · rw [Ledger.group_credit, if_neg nonzero.symm, add_zero]

theorem delegate_pending (before : Conserved t) (delegator delegatee : Address) :
    Pending t { t with delegates := Function.update t.delegates delegator delegatee }
      (t.delegates delegator) delegatee (t.balances delegator) where
  supply := before.supply
  bounded := before.bounded
  checkpoints := rfl
  numCheckpoints := rfl
  regrouped d _ := Ledger.group_relabel t.delegates t.balances delegator delegatee d

/-! ### Every call keeps the law and fails none of the vote checks -/

/-- The two failures of the vote arithmetic. -/
def VoteFailure (reason : Revert) : Prop :=
  reason = .message "Vcon: vote amount underflows" ∨ reason = .message "Vcon: vote amount overflows"

/-- A computation that does not fail in the vote arithmetic. -/
def Safe {α : Type} (result : Except Revert α) : Prop :=
  ∀ reason, result = .error reason → ¬ VoteFailure reason

namespace Safe

variable {α β : Type} {x : Except Revert α} {f : α → Except Revert β} {a b : ℕ} {text : String}

theorem bind (first : Safe x) (next : ∀ a, x = .ok a → Safe (f a)) : Safe (x >>= f) := by
  intro reason failure
  rcases bind_eq_error.mp failure with refused | ⟨a, success, refused⟩
  · exact first reason refused
  · exact next a success reason refused

theorem pure {a : α} : Safe (pure a) := fun _ failure => (pure_ne_error.mp failure).elim

theorem require {condition : Prop} [Decidable condition] (other : ¬ VoteFailure (.message text)) :
    Safe (require condition text) := by
  intro reason failure
  rw [(require_eq_error.mp failure).2]
  exact other

theorem uint {w : ℕ} : Safe (uint w a) := by
  intro reason failure
  rw [(uint_eq_error.mp failure).2]
  simp [VoteFailure]

theorem safe96 (other : ¬ VoteFailure (.message text)) : Safe (safe96 a text) :=
  bind (require other) fun _ _ => pure

theorem sub96 (other : ¬ VoteFailure (.message text)) : Safe (sub96 a b text) := by
  intro reason failure
  rw [(sub96_eq_error.mp failure).2]
  exact other

theorem add96 : Safe (add96 a b text) := by
  intro reason failure
  rw [(add96_eq_error.mp failure).2]
  simp [VoteFailure]

theorem approvalAmount : Safe (approvalAmount a) := by
  rw [Vcon.approvalAmount]
  split_ifs
  · exact pure
  · exact safe96 (by simp [VoteFailure])

end Safe

/-- A computation whose results keep the law and that does not fail in the vote arithmetic. -/
def Keeps (result : Except Revert Vcon) : Prop := (∀ u, result = .ok u → Conserved u) ∧ Safe result

namespace Keeps

variable {α : Type} {x : Except Revert α} {f : α → Except Revert Vcon} {block : Block}

theorem bind (safe : Safe x) (next : ∀ a, x = .ok a → Keeps (f a)) : Keeps (x >>= f) := by
  refine ⟨?_, safe.bind fun a first => (next a first).2⟩
  intro u success
  obtain ⟨a, first, second⟩ := bind_eq_ok.mp success
  exact (next a first).1 u second

theorem pure (conserved : Conserved t) : Keeps (pure t) :=
  ⟨fun _ success => pure_eq_ok.mp success ▸ conserved, Safe.pure⟩

/-- A check in front of a computation. -/
theorem require {condition : Prop} [Decidable condition] {text : String} {x : Except Revert Vcon}
    (other : ¬ VoteFailure (.message text)) (next : condition → Keeps x) :
    Keeps (do VoltProtocol.require condition text; x) :=
  bind (Safe.require other) fun _ passed => next (require_eq_ok.mp passed)

/-- A call that ends with the vote move of a pending operation. -/
theorem pending {srcRep dstRep : Address} {amount : ℕ} (pending : Pending t m srcRep dstRep amount)
    (before : Conserved t) : Keeps (m.moveDelegates block srcRep dstRep amount) := by
  refine ⟨fun u success => pending.conserved before success, ?_⟩
  intro reason failure
  rcases pending.error before failure with ⟨-, rfl⟩ | ⟨-, rfl⟩ <;> simp [VoteFailure]

variable (before : Conserved t)
include before

theorem transferTokens (src dst : Address) (amount : ℕ) :
    Keeps (t.transferTokens block src dst amount) := by
  refine bind ?_ fun m moved => pending (transfer_pending before moved) before
  apply Safe.bind (Safe.require (by simp [VoteFailure]))
  intro _ _
  apply Safe.bind (Safe.require (by simp [VoteFailure]))
  intro _ _
  apply Safe.bind (Safe.sub96 (by simp [VoteFailure]))
  intro _ _
  apply Safe.bind Safe.add96
  intro _ _
  exact Safe.pure

theorem delegateInternal (delegator delegatee : Address) :
    Keeps (t.delegateInternal block delegator delegatee) :=
  pending (delegate_pending before delegator delegatee) before

theorem mint (sender dst : Address) (rawAmount : ℕ) : Keeps (t.mint block sender dst rawAmount) := by
  refine bind ?_ fun (m, amount) minted => pending (mint_pending before minted) before
  apply Safe.bind (Safe.require (by simp [VoteFailure]))
  intro _ _
  apply Safe.bind (Safe.require (by simp [VoteFailure]))
  intro _ _
  apply Safe.bind (Safe.safe96 (by simp [VoteFailure]))
  intro _ _
  apply Safe.bind (Safe.safe96 (by simp [VoteFailure]))
  intro _ _
  apply Safe.bind Safe.add96
  intro _ _
  apply Safe.bind Safe.add96
  intro _ _
  exact Safe.pure

theorem transferFrom (sender src dst : Address) (rawAmount : ℕ) :
    Keeps (t.transferFrom block sender src dst rawAmount) := by
  apply bind (Safe.safe96 (by simp [VoteFailure]))
  intro amount _
  split_ifs
  · apply bind (Safe.sub96 (by simp [VoteFailure]))
    intro newAllowance _
    exact transferTokens (before.frame _ t.nonces t.minter) src dst amount
  · exact transferTokens before src dst amount

theorem delegateBySig (crypto : Crypto) (self delegatee : Address) (nonce expiry v r s : ℕ) :
    Keeps (t.delegateBySig block crypto self delegatee nonce expiry v r s) := by
  apply require (by simp [VoteFailure])
  intro _
  apply bind Safe.uint
  intro next _
  apply require (by simp [VoteFailure])
  intro _
  apply require (by simp [VoteFailure])
  intro _
  exact delegateInternal (before.frame t.allowances _ t.minter) _ delegatee

theorem permit (crypto : Crypto) (self owner spender : Address) (rawAmount deadline v r s : ℕ) :
    Keeps (t.permit block crypto self owner spender rawAmount deadline v r s) := by
  apply bind Safe.approvalAmount
  intro amount _
  apply bind Safe.uint
  intro next _
  apply require (by simp [VoteFailure])
  intro _
  apply require (by simp [VoteFailure])
  intro _
  apply require (by simp [VoteFailure])
  intro _
  exact pure (before.frame _ _ t.minter)

end Keeps

/-- One step keeps the law, and its failure is not one of the vote arithmetic. -/
theorem step_conserved {crypto : Crypto} {self : Address} {s : State} (before : Conserved s.token)
    (call : Call) : (∀ next, step crypto self s call = .ok next → Conserved next.token) ∧
      Safe (step crypto self s call) := by
  have written {result : Except Revert Vcon} (keeps : Keeps result) :
      (∀ next, s.write <$> result = .ok next → Conserved next.token) ∧ Safe (s.write <$> result) := by
    refine ⟨?_, fun reason failure => keeps.2 reason (map_eq_error.mp failure)⟩
    intro next success
    obtain ⟨u, succeeded, rfl⟩ := map_eq_ok.mp success
    exact keeps.1 u succeeded
  cases call with
  | nextBlock blocks seconds chainid =>
    refine ⟨?_, fun reason failure => by cases failure⟩
    intro next success
    obtain rfl := Except.ok.inj success
    exact before
  | transfer sender dst rawAmount =>
    apply written
    apply Keeps.bind (Safe.safe96 (by simp [VoteFailure]))
    intro amount _
    exact Keeps.transferTokens before sender dst amount
  | transferFrom sender src dst rawAmount => exact written (Keeps.transferFrom before ..)
  | mint sender dst rawAmount => exact written (Keeps.mint before ..)
  | delegate sender delegatee => exact written (Keeps.delegateInternal before ..)
  | delegateBySig delegatee nonce expiry v r sig => exact written (Keeps.delegateBySig before ..)
  | approve sender spender rawAmount =>
    apply written
    apply Keeps.bind Safe.approvalAmount
    intro amount _
    apply Keeps.pure
    exact before.frame _ s.token.nonces s.token.minter
  | permit owner spender rawAmount deadline v r sig => exact written (Keeps.permit before ..)
  | setMinter sender minter =>
    apply written
    apply Keeps.require (by simp [VoteFailure])
    intro _
    apply Keeps.pure
    exact before.frame s.token.allowances s.token.nonces minter

theorem conserved_of_reachable {crypto : Crypto} {self : Address} {s : State}
    (reached : Reachable (step crypto self) Initial s) : Conserved s.token := by
  have initial (state : State) (fresh : Initial state) : Conserved state.token := by
    obtain ⟨account, minter, deployed⟩ := fresh
    rw [deployed]
    exact deploy_conserved account minter
  exact reached.invariant initial
    fun state call next before stepped => (step_conserved before call).1 next stepped

/-- While blocks have numbers of 32 bits and every account a checkpoint index left, votes can move. -/
theorem moves_of_pending {s : State} {m : Vcon} {srcRep dstRep : Address} {amount : ℕ} (conserved : Conserved s.token)
    (early : s.block.number < 2 ^ 32) (room : ∀ d, s.token.numCheckpoints d + 1 < 2 ^ 32)
    (pending : Pending s.token m srcRep dstRep amount) : ∃ u, m.moveDelegates s.block srcRep dstRep amount = .ok u := by
  rcases pending.succeeds conserved early with success | ⟨d, exhausted⟩
  · exact success
  · have left := room d
    omega

/-- So a transfer succeeds when its balance updates pass. -/
theorem transferTokens_of_balances {s : State} {m : Vcon} {src dst : Address} {amount : ℕ} (conserved : Conserved s.token)
    (early : s.block.number < 2 ^ 32) (room : ∀ d, s.token.numCheckpoints d + 1 < 2 ^ 32)
    (moved : s.token.transferBalances src dst amount = .ok m) :
    ∃ u, s.token.transferTokens s.block src dst amount = .ok u := by
  obtain ⟨u, success⟩ := moves_of_pending conserved early room (transfer_pending conserved moved)
  exact ⟨u, bind_eq_ok.mpr ⟨m, moved, success⟩⟩

/-- In every reachable state the votes of a delegate are the balances delegated to it; no call fails
in the vote arithmetic; and once its balance updates pass, a transfer, a mint or a delegation below
block `2 ** 32` succeeds, unless some account has no checkpoint index left. -/
theorem votes_conserved {crypto : Crypto} {self : Address} {s : State}
    (reached : Reachable (step crypto self) Initial s) :
    (∀ d ≠ 0, s.token.getCurrentVotes d =
      ∑ a with s.token.delegates a = d, s.token.balances a) ∧
    (∀ call, Safe (step crypto self s call)) ∧
    (s.block.number < 2 ^ 32 → (∀ d, s.token.numCheckpoints d + 1 < 2 ^ 32) →
      (∀ src dst amount m, s.token.transferBalances src dst amount = .ok m →
        ∃ u, s.token.transferTokens s.block src dst amount = .ok u) ∧
      (∀ sender dst rawAmount minted, s.token.mintBalances sender dst rawAmount = .ok minted →
        ∃ u, s.token.mint s.block sender dst rawAmount = .ok u) ∧
      ∀ delegator delegatee, ∃ u, s.token.delegate s.block delegator delegatee = .ok u) := by
  have conserved := conserved_of_reachable reached
  refine ⟨conserved.votes, fun call => (step_conserved conserved call).2, ?_⟩
  intro early room
  refine ⟨?_, ?_, ?_⟩
  · intro src dst amount m moved
    exact transferTokens_of_balances conserved early room moved
  · intro sender dst rawAmount minted done
    obtain ⟨u, success⟩ := moves_of_pending conserved early room (mint_pending conserved done)
    exact ⟨u, bind_eq_ok.mpr ⟨minted, done, success⟩⟩
  · intro delegator delegatee
    exact moves_of_pending conserved early room (delegate_pending conserved delegator delegatee)

/-- Two accounts share the delegate 5; one of them delegates, pays the other and itself, and is minted
to, some of it in one block. -/
theorem votes_conserved_shared_delegate :
    let crypto : Crypto := ⟨fun _ => 0, fun _ => 0, fun _ _ => 0, fun _ _ _ _ => 0⟩
    let start : State := ⟨⟨100, 1000, 1⟩, Vcon.deploy 1 2⟩
    let calls := [.delegate 1 5, .transfer 1 3 700, .nextBlock 1 12 1, .delegate 3 5, .transfer 1 1 50,
      .transfer 3 4 200, .mint 2 3 60]
    ∃ t, run (step crypto 9) start calls = .ok t ∧ t.token.getCurrentVotes 5 = 10 ^ 27 - 140 ∧
      t.token.getCurrentVotes 5 = ∑ a with t.token.delegates a = 5, t.token.balances a := by
  intro crypto start calls
  have observed : (fun t => t.token.getCurrentVotes 5) <$> run (step crypto 9) start calls =
      .ok (10 ^ 27 - 140) := by decide +kernel
  obtain ⟨t, success, votes⟩ := map_eq_ok.mp observed
  have reached : Reachable (step crypto 9) Initial t := ⟨start, calls, ⟨1, 2, rfl⟩, success⟩
  exact ⟨t, success, votes, (votes_conserved reached).1 5 (by decide)⟩

/-! ### The supply -/

namespace Conserved

variable {t : Vcon} {src dst : Address} {amount : ℕ}

theorem balance_lt (conserved : Conserved t) (a : Address) : t.balances a < 2 ^ 96 := by
  have within := Finset.single_le_sum (fun b _ => Nat.zero_le (t.balances b)) (Finset.mem_univ a)
  rw [conserved.supply] at within
  exact within.trans_lt conserved.bounded

/-- What the receiver of a transfer holds in the end is a balance of the same supply, whether or not
it is also the sender. -/
theorem raised_lt (conserved : Conserved t) (dst : Address) (covered : amount ≤ t.balances src) :
    Ledger.debit t.balances src amount dst + amount < 2 ^ 96 := by
  have total := Ledger.sum_move_of_mem Finset.univ covered (Finset.mem_univ src) (Finset.mem_univ dst)
  have within := Finset.single_le_sum
    (fun b _ => Nat.zero_le (Ledger.move t.balances src dst amount b)) (Finset.mem_univ dst)
  rw [total, conserved.supply, Ledger.move, Ledger.credit_self] at within
  exact within.trans_lt conserved.bounded

/-- The balance updates of a transfer pass exactly when the balance covers the amount. -/
theorem transferBalances_ok_iff (conserved : Conserved t) (source : src ≠ 0) (target : dst ≠ 0) :
    (∃ m, t.transferBalances src dst amount = .ok m) ↔ amount ≤ t.balances src := by
  constructor
  · rintro ⟨m, moved⟩
    exact (transferBalances_spec moved).2.2.1
  · intro covered
    have fits := conserved.raised_lt dst covered
    simp only [transferBalances, bind_eq_ok, require_eq_ok, sub96_eq_ok, add96_eq_ok, pure_eq_ok]
    exact ⟨_, (), source, (), target, _, ⟨covered, rfl⟩, _, ⟨fits, rfl⟩, rfl⟩

/-- They fail for an address or for the amount, never in the addition. -/
theorem transferBalances_error (conserved : Conserved t) {reason : Revert}
    (failure : t.transferBalances src dst amount = .error reason) :
    (src = 0 ∧ reason = .message "Vcon: cannot transfer from the zero address") ∨
      (dst = 0 ∧ reason = .message "Vcon: cannot transfer to the zero address") ∨
      t.balances src < amount ∧ reason = .message "Vcon: transfer amount exceeds balance" := by
  simp only [transferBalances, bind_eq_error, require_eq_error, require_eq_ok, sub96_eq_error,
    sub96_eq_ok, add96_eq_error, pure_ne_error, and_false, exists_false, or_false, not_not] at failure
  rcases failure with refused | ⟨_, -, refused | ⟨_, -, short | ⟨_, ⟨covered, rfl⟩, overflow, -⟩⟩⟩
  · exact .inl refused
  · exact .inr (.inl refused)
  · exact .inr (.inr short)
  · have fits := conserved.raised_lt dst covered
    rw [Ledger.debit] at fits
    omega

end Conserved

/-- In every reachable state the balances add up to the supply, which has 96 bits. So every balance has
96 bits, the addition of a transfer cannot overflow, its balance updates pass exactly when the sender
holds the amount, and otherwise they fail with the message of one of its checks. Below block `2 ** 32`,
while every account has a checkpoint index left, that decides whether the transfer succeeds. -/
theorem supply_conserved {crypto : Crypto} {self : Address} {s : State}
    (reached : Reachable (step crypto self) Initial s) :
    ∑ a, s.token.balances a = s.token.totalSupply ∧ s.token.totalSupply < 2 ^ 96 ∧
    (∀ a, s.token.balances a < 2 ^ 96) ∧
    (∀ src dst amount, amount ≤ s.token.balances src →
      Function.update s.token.balances src (s.token.balances src - amount) dst + amount < 2 ^ 96) ∧
    (∀ src ≠ 0, ∀ dst ≠ 0, ∀ amount,
      (∃ m, s.token.transferBalances src dst amount = .ok m) ↔ amount ≤ s.token.balances src) ∧
    (∀ src dst amount reason, s.token.transferBalances src dst amount = .error reason →
      (src = 0 ∧ reason = .message "Vcon: cannot transfer from the zero address") ∨
        (dst = 0 ∧ reason = .message "Vcon: cannot transfer to the zero address") ∨
        s.token.balances src < amount ∧ reason = .message "Vcon: transfer amount exceeds balance") ∧
    (s.block.number < 2 ^ 32 → (∀ d, s.token.numCheckpoints d + 1 < 2 ^ 32) → ∀ src ≠ 0, ∀ dst ≠ 0, ∀ amount,
      (∃ u, s.token.transferTokens s.block src dst amount = .ok u) ↔ amount ≤ s.token.balances src) := by
  have conserved := conserved_of_reachable reached
  refine ⟨conserved.supply, conserved.bounded, conserved.balance_lt, ?_, ?_, ?_, ?_⟩
  · intro src dst amount covered
    exact conserved.raised_lt dst covered
  · intro src source dst target amount
    exact conserved.transferBalances_ok_iff source target
  · intro src dst amount reason failure
    exact conserved.transferBalances_error failure
  · intro early room src source dst target amount
    constructor
    · rintro ⟨u, success⟩
      exact (transferTokens_spec success).1.2.2
    · intro covered
      obtain ⟨m, moved⟩ := (conserved.transferBalances_ok_iff source target).mpr covered
      exact transferTokens_of_balances conserved early room moved

/-- A transfer of the whole supply to its own holder, after mints up to the largest supply but one. -/
theorem supply_conserved_whole_supply :
    let crypto : Crypto := ⟨fun _ => 0, fun _ => 0, fun _ _ => 0, fun _ _ _ _ => 0⟩
    let start : State := ⟨⟨100, 1000, 1⟩, Vcon.deploy 1 2⟩
    let calls := [.mint 2 1 (2 ^ 96 - 2 - 10 ^ 27), .transfer 1 1 (2 ^ 96 - 2), .mint 2 3 1]
    ∃ t, run (step crypto 9) start calls = .ok t ∧ t.token.balances 1 = 2 ^ 96 - 2 ∧
      ∃ m, t.token.transferBalances 1 1 (2 ^ 96 - 2) = .ok m := by
  intro crypto start calls
  have observed : (fun t => t.token.balances 1) <$> run (step crypto 9) start calls = .ok (2 ^ 96 - 2) := by
    decide +kernel
  obtain ⟨t, success, balance⟩ := map_eq_ok.mp observed
  have reached : Reachable (step crypto 9) Initial t := ⟨start, calls, ⟨1, 2, rfl⟩, success⟩
  obtain ⟨-, -, -, -, passes, -, -⟩ := supply_conserved reached
  exact ⟨t, success, balance, (passes 1 (by decide) 1 (by decide) _).mpr balance.ge⟩

end VoltProtocol.VoteConservation
