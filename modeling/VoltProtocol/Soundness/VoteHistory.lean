import VoltProtocol.Machine.History
import VoltProtocol.Soundness.VoteConservation
import VoltProtocol.ToMathlib.Timeline

/-! # Vote history in Vcon

The checkpoints of an account are a timeline of its votes. A write changes the present block only: it
overwrites the entry of this block or adds one, so the entries stay in the order of their blocks and
the votes at finished blocks stay as they are. The binary search of `getPriorVotes` reads the timeline.
-/

namespace VoltProtocol.VoteHistory

open Machine Vcon VoteConservation

/-- The votes of an account at a block, on the timeline of its checkpoints. -/
def votesAt (t : Vcon) (account : Address) (blockNumber : ℕ) : ℕ :=
  Timeline.lookup (fun i => (t.checkpoints account i).fromBlock)
    (fun i => (t.checkpoints account i).votes) 0 blockNumber (t.numCheckpoints account)

/-- The checkpoints of every account are in the order of their blocks, none of which is to come. -/
structure Recorded (t : Vcon) (now : ℕ) : Prop where
  increasing : ∀ account,
    StrictMonoOn (fun i => (t.checkpoints account i).fromBlock) (Set.Iio (t.numCheckpoints account))
  past : ∀ account, ∀ i < t.numCheckpoints account, (t.checkpoints account i).fromBlock ≤ now

theorem deploy_recorded (account minter : Address) (now : ℕ) :
    Recorded (Vcon.deploy account minter) now where
  increasing _ _ within := absurd within (Nat.not_lt_zero _)
  past _ _ below := absurd below (Nat.not_lt_zero _)

theorem Recorded.later {t : Vcon} {now : ℕ} (recorded : Recorded t now) (blocks : ℕ) :
    Recorded t (now + blocks) where
  increasing := recorded.increasing
  past account i below := (recorded.past account i below).trans (Nat.le_add_right ..)

theorem deploy_votesAt (account minter delegatee : Address) (blockNumber : ℕ) :
    votesAt (Vcon.deploy account minter) delegatee blockNumber = 0 := rfl

/-! ### Reading -/

section Reading

variable {t : Vcon} {account : Address} {block : Block} {now blockNumber : ℕ}

/-- From the present block on, the timeline shows the current votes. -/
theorem votesAt_of_le (recorded : Recorded t now) (present : now ≤ blockNumber) :
    votesAt t account blockNumber = t.getCurrentVotes account := by
  rw [votesAt, getCurrentVotes]
  cases count : t.numCheckpoints account with
  | zero => rfl
  | succ n =>
    have last := recorded.past account n (by omega)
    rw [Timeline.lookup_succ_of_le (last.trans present), if_pos n.succ_pos, Nat.add_sub_cancel]

/-- The binary search reads the timeline: the entry at `lower` is not after the block searched for, and
all entries beyond `upper` are. -/
theorem searchCheckpoints_eq_votesAt {lower upper : ℕ} (recorded : Recorded t now)
    (ordered : lower ≤ upper) (within : upper < t.numCheckpoints account)
    (early : (t.checkpoints account lower).fromBlock ≤ blockNumber)
    (late : ∀ j < t.numCheckpoints account, upper < j → blockNumber < (t.checkpoints account j).fromBlock) :
    t.searchCheckpoints account blockNumber lower upper = votesAt t account blockNumber := by
  have increasing {i j : ℕ} (order : i < j) (below : j < t.numCheckpoints account) :
      (t.checkpoints account i).fromBlock < (t.checkpoints account j).fromBlock :=
    recorded.increasing account (order.trans below) below order
  fun_induction t.searchCheckpoints account blockNumber lower upper with
  | case1 lower upper open_ center cp found =>
    symm
    have below : center < t.numCheckpoints account := by omega
    apply Timeline.lookup_of_between below found.le
    intro j bound order
    rw [← found]
    exact increasing order bound
  | case2 lower upper open_ center cp missed before ih =>
    exact ih (by omega) within before.le late
  | case3 lower upper open_ center cp missed notBefore ih =>
    apply ih (by omega) (by omega) early
    intro j bound order
    have after : blockNumber < cp.fromBlock := by omega
    rcases Nat.lt_or_eq_of_le (show center ≤ j by omega) with beyond | rfl
    · exact after.trans (increasing beyond bound)
    · exact after
  | case4 lower upper closed =>
    obtain rfl : lower = upper := by omega
    symm
    exact Timeline.lookup_of_between within early late

theorem getPriorVotes_eq_votesAt (recorded : Recorded t now) (finished : blockNumber < block.number) :
    t.getPriorVotes block account blockNumber = .ok (votesAt t account blockNumber) := by
  refine bind_eq_ok.mpr ⟨(), require_eq_ok.mpr finished, ?_⟩
  dsimp only
  split_ifs with empty recent early
  · rw [votesAt, empty]
    rfl
  · obtain ⟨n, count⟩ := Nat.exists_eq_succ_of_ne_zero empty
    rw [count, Nat.succ_eq_add_one, Nat.add_sub_cancel] at recent ⊢
    rw [votesAt, count, Nat.succ_eq_add_one, Timeline.lookup_succ_of_le recent]
    rfl
  · have before (j : ℕ) (below : j < t.numCheckpoints account) :
        blockNumber < (t.checkpoints account j).fromBlock := by
      rcases Nat.eq_zero_or_pos j with rfl | positive
      · exact early
      · exact early.trans (recorded.increasing account (positive.trans below) below positive)
    rw [votesAt, Timeline.lookup_of_lt before]
    rfl
  · congr 1
    apply searchCheckpoints_eq_votesAt recorded (Nat.zero_le _) (by omega) (by omega)
    intro j below beyond
    omega

end Reading

/-! ### Writing -/

/-- A change that leaves the votes at all finished blocks as they are. -/
def Advances (now : ℕ) (t u : Vcon) : Prop :=
  Recorded t now → Recorded u now ∧ ∀ account, ∀ blockNumber < now,
    votesAt u account blockNumber = votesAt t account blockNumber

namespace Advances

variable {now : ℕ} {t u v : Vcon} {block : Block}

/-- Other fields of the token do not matter. -/
theorem of_eq (checkpoints : u.checkpoints = t.checkpoints) (count : u.numCheckpoints = t.numCheckpoints) :
    Advances now t u := by
  intro recorded
  refine ⟨⟨?_, ?_⟩, ?_⟩
  · rw [checkpoints, count]
    exact recorded.increasing
  · rw [checkpoints, count]
    exact recorded.past
  · intro account blockNumber _
    rw [votesAt, votesAt, checkpoints, count]

theorem trans (first : Advances now t u) (second : Advances now u v) : Advances now t v := by
  intro recorded
  obtain ⟨between, kept⟩ := first recorded
  obtain ⟨after, keptAfter⟩ := second between
  refine ⟨after, fun account blockNumber finished => ?_⟩
  rw [keptAfter account blockNumber finished, kept account blockNumber finished]

/-- A write after a change to other fields. -/
theorem after (written : Advances now u v) (checkpoints : u.checkpoints = t.checkpoints)
    (count : u.numCheckpoints = t.numCheckpoints) : Advances now t v :=
  (of_eq checkpoints count).trans written

end Advances

theorem setCheckpoint_apply (t : Vcon) (delegatee account : Address) (index i : ℕ) (cp : Checkpoint) :
    (t.setCheckpoint delegatee index cp).checkpoints account i =
      if account = delegatee ∧ i = index then cp else t.checkpoints account i := by
  simp only [setCheckpoint, Function.update_apply]
  by_cases same : account = delegatee
  · subst same
    simp [Function.update_apply]
  · simp [same]

section Writes

variable {t u : Vcon} {block : Block} {delegatee srcRep dstRep : Address} {newVotes amount : ℕ}

/-- Giving the entry of the present block other votes. -/
theorem overwrite_advances {now index : ℕ} {cp : Checkpoint}
    (present : (t.checkpoints delegatee index).fromBlock = now) (same : cp.fromBlock = now) :
    Advances now t (t.setCheckpoint delegatee index cp) := by
  intro recorded
  have times (account : Address) (i : ℕ) :
      ((t.setCheckpoint delegatee index cp).checkpoints account i).fromBlock =
        (t.checkpoints account i).fromBlock := by
    rw [setCheckpoint_apply]
    split_ifs with here
    · rw [here.1, here.2, same, present]
    · rfl
  refine ⟨⟨?_, ?_⟩, ?_⟩
  · intro account
    simp only [times]
    exact recorded.increasing account
  · intro account i below
    rw [times]
    exact recorded.past account i below
  · intro account blockNumber finished
    apply Timeline.lookup_congr fun j _ => times account j
    intro j _ early
    rw [setCheckpoint_apply, if_neg]
    rintro ⟨rfl, rfl⟩
    omega

/-- Adding an entry for the present block. -/
theorem append_advances {now : ℕ}
    (fresh : ∀ i < t.numCheckpoints delegatee, (t.checkpoints delegatee i).fromBlock < now)
    (entry : ∀ account i, u.checkpoints account i =
      if account = delegatee ∧ i = t.numCheckpoints delegatee then ⟨now, newVotes⟩
      else t.checkpoints account i)
    (count : u.numCheckpoints =
      Function.update t.numCheckpoints delegatee (t.numCheckpoints delegatee + 1)) :
    Advances now t u := by
  intro recorded
  have untouched {account : Address} (other : account ≠ delegatee) (i : ℕ) :
      u.checkpoints account i = t.checkpoints account i := by
    rw [entry, if_neg fun here => other here.1]
  have counted {account : Address} (other : account ≠ delegatee) :
      u.numCheckpoints account = t.numCheckpoints account := by
    rw [count, Function.update_of_ne other]
  have raised : u.numCheckpoints delegatee = t.numCheckpoints delegatee + 1 := by
    rw [count, Function.update_self]
  have times : (fun i => (u.checkpoints delegatee i).fromBlock) =
      Function.update (fun i => (t.checkpoints delegatee i).fromBlock) (t.numCheckpoints delegatee) now := by
    funext i
    rw [entry, Function.update_apply]
    by_cases last : i = t.numCheckpoints delegatee
    · rw [if_pos ⟨rfl, last⟩, if_pos last]
    · rw [if_neg fun here => last here.2, if_neg last]
  refine ⟨⟨?_, ?_⟩, ?_⟩
  · intro account
    by_cases same : account = delegatee
    · subst same
      rw [times, raised]
      exact Timeline.strictMonoOn_update (recorded.increasing account) fresh
    · simp only [untouched same, counted same]
      exact recorded.increasing account
  · intro account i below
    by_cases same : account = delegatee
    · subst same
      rw [raised] at below
      by_cases last : i = t.numCheckpoints account
      · rw [entry, if_pos ⟨rfl, last⟩]
      · rw [entry, if_neg fun here => last here.2]
        exact recorded.past account i (by omega)
    · rw [counted same] at below
      rw [untouched same]
      exact recorded.past account i below
  · intro account blockNumber finished
    by_cases same : account = delegatee
    · subst same
      have earlier (j : ℕ) (below : j < t.numCheckpoints account) :
          u.checkpoints account j = t.checkpoints account j := by
        rw [entry, if_neg fun here => below.ne here.2]
      rw [votesAt, raised, Timeline.lookup_succ_of_lt]
      · apply Timeline.lookup_congr
        · intro j below
          rw [earlier j below]
        · intro j below _
          rw [earlier j below]
      · rw [entry, if_pos ⟨rfl, rfl⟩]
        exact finished
    · simp only [votesAt, untouched same, counted same]

theorem writeCheckpoint_advances
    (success : t.writeCheckpoint block delegatee (t.numCheckpoints delegatee) newVotes = .ok u) :
    Advances block.number t u := by
  intro recorded
  simp only [writeCheckpoint, bind_eq_ok, safe32_eq_ok] at success
  obtain ⟨_, ⟨-, rfl⟩, success⟩ := success
  split_ifs at success with last
  · obtain rfl := pure_eq_ok.mp success
    exact overwrite_advances last.2 last.2 recorded
  · simp only [bind_eq_ok, uint_eq_ok, pure_eq_ok] at success
    obtain ⟨_, ⟨-, rfl⟩, rfl⟩ := success
    refine append_advances (fun i below => ?_) (fun account i => setCheckpoint_apply ..) rfl recorded
    -- an entry of this block would be the last one, and that would have been overwritten
    apply lt_of_le_of_ne (recorded.past delegatee i below)
    intro now
    rcases Nat.lt_or_eq_of_le (Nat.le_sub_one_of_lt below) with earlier | rfl
    · have final : t.numCheckpoints delegatee - 1 < t.numCheckpoints delegatee := by omega
      have order := recorded.increasing delegatee below final earlier
      have bound := recorded.past delegatee _ final
      dsimp only at order
      omega
    · exact last ⟨by omega, now⟩

theorem moveDelegates_advances (success : t.moveDelegates block srcRep dstRep amount = .ok u) :
    Advances block.number t u := by
  rw [moveDelegates] at success
  split_ifs at success
  · obtain ⟨m, debited, credited⟩ := bind_eq_ok.mp success
    have debit : Advances block.number t m := by
      rw [debitVotes] at debited
      split_ifs at debited
      · obtain ⟨_, -, written⟩ := bind_eq_ok.mp debited
        exact writeCheckpoint_advances written
      · obtain rfl := pure_eq_ok.mp debited
        exact .of_eq rfl rfl
    have credit : Advances block.number m u := by
      rw [creditVotes] at credited
      split_ifs at credited
      · obtain ⟨_, -, written⟩ := bind_eq_ok.mp credited
        exact writeCheckpoint_advances written
      · obtain rfl := pure_eq_ok.mp credited
        exact .of_eq rfl rfl
    exact debit.trans credit
  · obtain rfl := pure_eq_ok.mp success
    exact .of_eq rfl rfl

end Writes

/-! ### Transactions -/

section Transactions

variable {t u : Vcon} {block : Block} {sender src dst delegator delegatee : Address} {amount rawAmount : ℕ}

theorem transferTokens_advances (success : t.transferTokens block src dst amount = .ok u) :
    Advances block.number t u := by
  obtain ⟨m, moved, success⟩ := bind_eq_ok.mp success
  obtain ⟨-, -, -, rfl⟩ := transferBalances_spec moved
  exact (moveDelegates_advances success).after rfl rfl

theorem delegateInternal_advances (success : t.delegateInternal block delegator delegatee = .ok u) :
    Advances block.number t u := by
  rw [delegateInternal] at success
  exact (moveDelegates_advances success).after rfl rfl

theorem mint_advances (success : t.mint block sender dst rawAmount = .ok u) :
    Advances block.number t u := by
  obtain ⟨⟨m, amount⟩, minted, success⟩ := bind_eq_ok.mp success
  obtain ⟨-, -, -, both⟩ := mintBalances_spec minted
  obtain ⟨rfl, rfl⟩ := Prod.mk.inj both
  exact (moveDelegates_advances success).after rfl rfl

theorem transferFrom_advances (success : t.transferFrom block sender src dst rawAmount = .ok u) :
    Advances block.number t u := by
  obtain ⟨amount, -, success⟩ := bind_eq_ok.mp success
  split_ifs at success
  · obtain ⟨newAllowance, -, success⟩ := bind_eq_ok.mp success
    exact (transferTokens_advances success).after rfl rfl
  · exact transferTokens_advances success

theorem delegateBySig_advances {crypto : Crypto} {self : Address} {nonce expiry v r s : ℕ}
    (success : t.delegateBySig block crypto self delegatee nonce expiry v r s = .ok u) :
    Advances block.number t u := by
  simp only [delegateBySig, bind_eq_ok, require_eq_ok] at success
  obtain ⟨_, -, next, -, _, -, _, -, success⟩ := success
  exact (delegateInternal_advances success).after rfl rfl

theorem permit_advances {crypto : Crypto} {self owner spender : Address} {deadline v r s : ℕ}
    (success : t.permit block crypto self owner spender rawAmount deadline v r s = .ok u) :
    Advances block.number t u := by
  simp only [permit, bind_eq_ok, require_eq_ok, pure_eq_ok] at success
  obtain ⟨amount, -, next, -, _, -, _, -, _, -, rfl⟩ := success
  exact .of_eq rfl rfl

end Transactions

variable {crypto : Crypto} {self : Address}

/-- Whether a state's checkpoints are recorded at its block. -/
def Sound (s : State) : Prop := Recorded s.token s.block.number

/-- A step goes to the same block or a later one, and rewrites the votes of no block before it. -/
theorem step_advances {s next : State} (call : Call) (sound : Sound s)
    (stepped : step crypto self s call = .ok next) :
    Sound next ∧ s.block.number ≤ next.block.number ∧ ∀ account, ∀ blockNumber < next.block.number,
      votesAt next.token account blockNumber = votesAt s.token account blockNumber := by
  have written {result : Except Revert Vcon} (success : s.write <$> result = .ok next)
      (advances : ∀ u, result = .ok u → Advances s.block.number s.token u) :
      Sound next ∧ s.block.number ≤ next.block.number ∧ ∀ account, ∀ blockNumber < next.block.number,
        votesAt next.token account blockNumber = votesAt s.token account blockNumber := by
    obtain ⟨u, succeeded, rfl⟩ := map_eq_ok.mp success
    obtain ⟨recorded, kept⟩ := advances u succeeded sound
    exact ⟨recorded, le_rfl, kept⟩
  cases call with
  | nextBlock blocks seconds chainid =>
    obtain rfl := Except.ok.inj stepped
    exact ⟨sound.later blocks, Nat.le_add_right .., fun _ _ _ => rfl⟩
  | transfer sender dst rawAmount =>
    apply written stepped
    intro u success
    obtain ⟨amount, -, success⟩ := bind_eq_ok.mp success
    exact transferTokens_advances success
  | transferFrom sender src dst rawAmount => exact written stepped fun _ => transferFrom_advances
  | mint sender dst rawAmount => exact written stepped fun _ => mint_advances
  | delegate sender delegatee => exact written stepped fun _ => delegateInternal_advances
  | delegateBySig delegatee nonce expiry v r sig => exact written stepped fun _ => delegateBySig_advances
  | approve sender spender rawAmount =>
    apply written stepped
    intro u success
    obtain ⟨amount, -, success⟩ := bind_eq_ok.mp success
    obtain rfl := pure_eq_ok.mp success
    exact .of_eq rfl rfl
  | permit owner spender rawAmount deadline v r sig => exact written stepped fun _ => permit_advances
  | setMinter sender minter =>
    apply written stepped
    intro u success
    obtain ⟨_, -, success⟩ := bind_eq_ok.mp success
    obtain rfl := pure_eq_ok.mp success
    exact .of_eq rfl rfl

/-- What runs keep of the block and of the votes at finished blocks. -/
theorem run_advances {s target : State} {calls : List Call} (sound : Sound s)
    (success : run (step crypto self) s calls = .ok target) :
    Sound target ∧ s.block.number ≤ target.block.number ∧ ∀ account, ∀ blockNumber < s.block.number,
      votesAt target.token account blockNumber = votesAt s.token account blockNumber := by
  induction calls generalizing s with
  | nil =>
    obtain rfl := run_nil_ok.mp success
    exact ⟨sound, le_rfl, fun _ _ _ => rfl⟩
  | cons call rest ih =>
    obtain ⟨middle, stepped, suffix⟩ := run_cons_ok.mp success
    obtain ⟨between, forward, kept⟩ := step_advances call sound stepped
    obtain ⟨after, onward, keptAfter⟩ := ih between suffix
    refine ⟨after, forward.trans onward, fun account blockNumber finished => ?_⟩
    have earlier : blockNumber < middle.block.number := finished.trans_le forward
    rw [keptAfter account blockNumber earlier, kept account blockNumber earlier]

/-- At a finished block, `getPriorVotes` succeeds with the votes an account had after the last call up
to that block, or none if there was no call yet, and it answers the same ever after. -/
theorem prior_votes_exact {source s : State} {calls : List Call} {account : Address} {blockNumber : ℕ}
    (start : Initial source) (success : run (step crypto self) source calls = .ok s)
    (finished : blockNumber < s.block.number) :
    s.token.getPriorVotes s.block account blockNumber =
      .ok ((latest (step crypto self) (fun t => t.block.number ≤ blockNumber) source calls).elim 0
        fun t => t.token.getCurrentVotes account) ∧
    ∀ future later, run (step crypto self) s future = .ok later →
      later.token.getPriorVotes later.block account blockNumber =
        s.token.getPriorVotes s.block account blockNumber := by
  obtain ⟨holder, minter, deployed⟩ := start
  have fresh : Sound source := by
    rw [Sound, deployed]
    exact deploy_recorded holder minter _
  obtain ⟨sound, -, -⟩ := run_advances fresh success
  have recorded := recorded_eq_latest (fun _ call _ sound stepped => (step_advances call sound stepped).1)
    (fun _ call _ sound stepped => (step_advances call sound stepped).2.2 account)
    (fun _ sound _ present => votesAt_of_le sound present) fresh success finished
  refine ⟨?_, ?_⟩
  · rw [getPriorVotes_eq_votesAt sound finished, recorded, deployed, deploy_votesAt]
  · intro future later continued
    obtain ⟨soundLater, forward, kept⟩ := run_advances sound continued
    rw [getPriorVotes_eq_votesAt soundLater (finished.trans_le forward),
      getPriorVotes_eq_votesAt sound finished, kept account blockNumber finished]

/-- A delegate whose votes change in four blocks, read between the second and the third. -/
theorem prior_votes_exact_four_blocks :
    let crypto : Crypto := ⟨fun _ => 0, fun _ => 0, fun _ _ => 0, fun _ _ _ _ => 0⟩
    let start : State := ⟨⟨100, 1000, 1⟩, Vcon.deploy 1 2⟩
    let calls := [.delegate 1 5, .transfer 1 3 200, .nextBlock 3 36 1, .transfer 1 3 500, .nextBlock 4 48 1,
      .delegate 3 5, .nextBlock 3 36 1, .mint 2 3 60]
    ∃ s, run (step crypto 9) start calls = .ok s ∧ s.token.getCurrentVotes 5 = 10 ^ 27 + 60 ∧
      s.token.getPriorVotes s.block 5 105 = .ok (10 ^ 27 - 700) ∧
      ∀ future later, run (step crypto 9) s future = .ok later →
        later.token.getPriorVotes later.block 5 105 = .ok (10 ^ 27 - 700) := by
  intro crypto start calls
  have observed : (fun t => (t.block.number, t.token.getCurrentVotes 5)) <$> run (step crypto 9) start calls =
      .ok (110, 10 ^ 27 + 60) := by decide +kernel
  obtain ⟨s, success, both⟩ := map_eq_ok.mp observed
  obtain ⟨number, votes⟩ := Prod.mk.inj both
  have last : ((latest (step crypto 9) (fun t => t.block.number ≤ 105) start calls).elim 0
      fun t => t.token.getCurrentVotes 5) = 10 ^ 27 - 700 := by decide +kernel
  have finished : 105 < s.block.number := by omega
  obtain ⟨answer, ever⟩ := @prior_votes_exact crypto 9 start s calls 5 105 ⟨1, 2, rfl⟩ success finished
  rw [last] at answer
  refine ⟨s, success, votes, answer, fun future later continued => ?_⟩
  rw [ever future later continued, answer]

end VoltProtocol.VoteHistory
