import VoltProtocol.Soundness.VoteHistory

/-! # Voting power at a past block

What Vcon answers for a finished block are the balances that were delegated when it ended. No VCON is counted
twice, so all accounts together never had more votes than there was VCON, however it moved before, within and
after the block.
-/

namespace VoltProtocol.VotingPower

open Machine Vcon VoteConservation VoteHistory

variable {crypto : Crypto} {self : Address} {source s next : State} {calls : List Call} {t u : Vcon} {block : Block}
  {blockNumber : ℕ}

/-! ### The supply never shrinks -/

theorem transferTokens_supply {src dst : Address} {amount : ℕ} (success : t.transferTokens block src dst amount = .ok u) :
    u.totalSupply = t.totalSupply := by
  obtain ⟨m, moved, votes⟩ := bind_eq_ok.mp success
  obtain ⟨-, -, -, rfl⟩ := transferBalances_spec moved
  rw [(moveDelegates_spec votes).1]

theorem delegateInternal_supply {delegator delegatee : Address}
    (success : t.delegateInternal block delegator delegatee = .ok u) : u.totalSupply = t.totalSupply := by
  rw [(moveDelegates_spec success).1]

theorem supply_le_of_step {call : Call} (stepped : step crypto self s call = .ok next) :
    s.token.totalSupply ≤ next.token.totalSupply := by
  cases call with
  | nextBlock blocks seconds chainid =>
    obtain rfl := Except.ok.inj stepped
    rfl
  | transfer sender dst rawAmount =>
    obtain ⟨u, success, rfl⟩ := map_eq_ok.mp stepped
    obtain ⟨amount, -, transferred⟩ := bind_eq_ok.mp success
    exact (transferTokens_supply transferred).ge
  | transferFrom sender src dst rawAmount =>
    obtain ⟨u, success, rfl⟩ := map_eq_ok.mp stepped
    obtain ⟨amount, -, success⟩ := bind_eq_ok.mp success
    split_ifs at success
    · obtain ⟨newAllowance, -, transferred⟩ := bind_eq_ok.mp success
      exact (transferTokens_supply transferred).ge
    · exact (transferTokens_supply success).ge
  | mint sender dst rawAmount =>
    obtain ⟨u, success, rfl⟩ := map_eq_ok.mp stepped
    obtain ⟨⟨m, amount⟩, minted, votes⟩ := bind_eq_ok.mp success
    obtain ⟨-, -, -, both⟩ := mintBalances_spec minted
    obtain ⟨rfl, rfl⟩ := Prod.mk.inj both
    change s.token.totalSupply ≤ u.totalSupply
    rw [(moveDelegates_spec votes).1]
    exact Nat.le_add_right ..
  | delegate sender delegatee =>
    obtain ⟨u, success, rfl⟩ := map_eq_ok.mp stepped
    exact (delegateInternal_supply success).ge
  | delegateBySig delegatee nonce expiry v r sig =>
    obtain ⟨u, success, rfl⟩ := map_eq_ok.mp stepped
    simp only [Vcon.delegateBySig, bind_eq_ok] at success
    obtain ⟨_, -, _, -, _, -, _, -, delegated⟩ := success
    exact (delegateInternal_supply delegated).ge
  | approve sender spender rawAmount =>
    obtain ⟨u, success, rfl⟩ := map_eq_ok.mp stepped
    obtain ⟨amount, -, rfl⟩ := approve_spec success
    rfl
  | permit owner spender rawAmount deadline v r sig =>
    obtain ⟨u, success, rfl⟩ := map_eq_ok.mp stepped
    obtain ⟨amount, -, -, -, -, rfl⟩ := permit_spec success
    rfl
  | setMinter sender minter =>
    obtain ⟨u, success, rfl⟩ := map_eq_ok.mp stepped
    obtain ⟨_, -, success⟩ := bind_eq_ok.mp success
    obtain rfl := pure_eq_ok.mp success
    rfl

/-- The supply has come to a given amount. -/
def Supplied (amount : ℕ) (s : State) : Prop := amount ≤ s.token.totalSupply

theorem supply_le_of_run (success : run (step crypto self) s calls = .ok next) :
    s.token.totalSupply ≤ next.token.totalSupply := by
  have kept (state : State) (call : Call) (after : State) (_ : True) (before : Supplied s.token.totalSupply state)
      (stepped : step crypto self state call = .ok after) : Supplied s.token.totalSupply after :=
    before.trans (supply_le_of_step stepped)
  have start : Supplied s.token.totalSupply s := le_refl s.token.totalSupply
  change Supplied s.token.totalSupply next
  exact run_invariant kept (fun _ _ => trivial) start success

/-! ### Votes at a finished block -/

/-- The state in which a block ended, if the run reached it. -/
def ended (crypto : Crypto) (self : Address) (source : State) (calls : List Call) (blockNumber : ℕ) : Option State :=
  latest (step crypto self) (fun t => t.block.number ≤ blockNumber) source calls

/-- What is delegated to an account. -/
def delegated (t : Vcon) (d : Address) : ℕ := Ledger.group t.delegates t.balances d

theorem sum_delegated_le (conserved : Conserved t) (accounts : Finset Address) :
    ∑ d ∈ accounts, delegated t d ≤ t.totalSupply := by
  rw [← conserved.supply]
  exact Ledger.sum_group_le_sum t.delegates t.balances accounts

/-- At a finished block an account has the votes of the balances that were delegated to it when the block ended. -/
theorem getPriorVotes_eq_delegated (start : Initial source) (success : run (step crypto self) source calls = .ok s)
    (finished : blockNumber < s.block.number) {d : Address} (account : d ≠ 0) :
    s.token.getPriorVotes s.block d blockNumber =
      .ok ((ended crypto self source calls blockNumber).elim 0 fun t => delegated t.token d) := by
  obtain ⟨holder, minter, deployed⟩ := start
  have fresh : Sound source := by
    rw [Sound, deployed]
    exact deploy_recorded holder minter _
  have recorded := recorded_eq_latest (fun _ call _ sound stepped => (step_advances call sound stepped).1)
    (fun _ call _ sound stepped => (step_advances call sound stepped).2.2 d)
    (fun _ sound _ present => votesAt_of_le sound present) fresh success finished
  rw [getPriorVotes_eq_votesAt (run_advances fresh success).1 finished, recorded, deployed, deploy_votesAt, ended]
  cases last : latest (step crypto self) (fun t => t.block.number ≤ blockNumber) source calls with
  | none => simp only [Option.elim_none]
  | some t =>
    obtain ⟨-, before, -, prior, -⟩ := latest_spec success last
    have reached : Reachable (step crypto self) Initial t := ⟨source, before, ⟨holder, minter, deployed⟩, prior⟩
    have votes : t.token.getCurrentVotes d = delegated t.token d := (conserved_of_reachable reached).votes d account
    rw [Option.elim_some, Option.elim_some, votes]

/-- At a finished block every account has the votes of what was delegated to it when the block ended. All accounts
together have at most the supply of that time, which is at most the present one. -/
theorem prior_votes_le_supply (start : Initial source) (success : run (step crypto self) source calls = .ok s)
    (finished : blockNumber < s.block.number) {accounts : Finset Address} (nonzero : 0 ∉ accounts) :
    let last := ended crypto self source calls blockNumber
    (∀ d ∈ accounts, s.token.getPriorVotes s.block d blockNumber = .ok (last.elim 0 fun t => delegated t.token d)) ∧
      ∑ d ∈ accounts, last.elim 0 (fun t => delegated t.token d) ≤ last.elim 0 (fun t => t.token.totalSupply) ∧
      last.elim 0 (fun t => t.token.totalSupply) ≤ s.token.totalSupply := by
  intro last
  refine ⟨?_, ?_⟩
  · intro d member
    exact getPriorVotes_eq_delegated start success finished fun zero => nonzero (zero ▸ member)
  · generalize found : last = state
    cases state with
    | none =>
      rw [Option.elim_none]
      exact ⟨(Finset.sum_eq_zero fun _ _ => rfl).le, Nat.zero_le _⟩
    | some t =>
      obtain ⟨-, before, after, prior, onward, -⟩ := latest_spec success found
      have conserved : Conserved t.token := conserved_of_reachable ⟨source, before, start, prior⟩
      have each (d : Address) : (some t).elim 0 (fun t => delegated t.token d) = delegated t.token d :=
        Option.elim_some ..
      rw [Finset.sum_congr rfl fun d _ => each d, Option.elim_some]
      exact ⟨sum_delegated_le conserved accounts, supply_le_of_run onward⟩

/-- Two delegates in one block, after which VCON is minted and moves between their delegators. -/
theorem prior_votes_le_supply_two_delegates :
    let crypto : Crypto := ⟨fun _ => 0, fun _ => 0, fun _ _ => 0, fun _ _ _ _ => 0⟩
    let start : State := ⟨⟨100, 1000, 1⟩, Vcon.deploy 1 2⟩
    let calls := [.delegate 1 5, .transfer 1 3 200, .delegate 3 7, .nextBlock 3 36 1, .mint 2 3 60, .transfer 3 1 100,
      .nextBlock 4 48 1]
    ∃ s, run (step crypto 9) start calls = .ok s ∧ s.token.getPriorVotes s.block 5 101 = .ok (10 ^ 27 - 200) ∧
      s.token.getPriorVotes s.block 7 101 = .ok 200 ∧ 10 ^ 27 - 200 + 200 ≤ s.token.totalSupply := by
  intro crypto start calls
  have observed : (fun t => (t.block.number, t.token.getPriorVotes t.block 5 101, t.token.getPriorVotes t.block 7 101)) <$>
      run (step crypto 9) start calls = .ok (107, .ok (10 ^ 27 - 200), .ok 200) := by decide +kernel
  obtain ⟨s, success, all⟩ := map_eq_ok.mp observed
  obtain ⟨number, both⟩ := Prod.mk.inj all
  obtain ⟨five, seven⟩ := Prod.mk.inj both
  have finished : 101 < s.block.number := by omega
  have nonzero : (0 : Address) ∉ ({5, 7} : Finset Address) := by decide
  obtain ⟨each, power, grown⟩ := @prior_votes_le_supply crypto 9 start s calls 101 ⟨1, 2, rfl⟩ success finished _ nonzero
  have first := Except.ok.inj ((each 5 (by decide)).symm.trans five)
  have second := Except.ok.inj ((each 7 (by decide)).symm.trans seven)
  rw [Finset.sum_pair (by decide), first, second] at power
  exact ⟨s, success, five, seven, power.trans grown⟩

end VoltProtocol.VotingPower
