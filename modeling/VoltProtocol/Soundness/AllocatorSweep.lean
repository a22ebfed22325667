import VoltProtocol.Soundness.AllocatorConvergence

/-! # A sweep over the deposits of a PSM

Anyone can call the allocator for one deposit at a time, in any order and as often as they like. A call for
a deposit settles it: its PSM is at the target, or the deposit has nothing left to give. No later call
unsettles it. A run that has called every deposit of a PSM has therefore brought the PSM to its target or
emptied them all, and since nothing leaves the PSM and its deposits, what it ends with is known beforehand
and does not depend on the order of the calls.
-/

namespace VoltProtocol.AllocatorSweep

open Machine ERC20Allocator AllocatorSystem AllocatorConvergence

variable {ω : Type} {contracts : Contracts ω} {held : ω → Address → Address → ℕ}
  {tokenOf : Address → Address} {isPSM : Address → Prop}

/-- The buffer covers all that a deposit could still bring to its PSM. -/
def Roomy (held : ω → Address → Address → ℕ) (tokenOf : Address → Address) (s : State ω) (d : Address) : Prop :=
  ∀ room ∈ (s.allocator.buffer s.now).toOption,
    min ((s.allocator.linkedPSM d).targetBalance.val - owned held tokenOf s (s.allocator.pcvDepositToPSM d))
      (owned held tokenOf s d) ≤ rescale room (s.allocator.linkedPSM d).unitValue⁻¹

instance {s : State ω} {d : Address} : Decidable (Roomy held tokenOf s d) :=
  inferInstanceAs (Decidable (∀ _ ∈ _, _))

/-- The rate limit cuts no drip short; a skim needs no room. -/
def Unthrottled (held : ω → Address → Address → ℕ) (tokenOf : Address → Address) (s : State ω) :
    Call ω → State ω → Prop
  | .drip d, _ | .doAction d, _ => Roomy held tokenOf s d
  | _, _ => True

instance {s t : State ω} : (call : Call ω) → Decidable (Unthrottled held tokenOf s call t)
  | .drip _ | .doAction _ => inferInstanceAs (Decidable (Roomy ..))
  | .wait _ | .environment _ | .connectPSM .. | .editPSMTargetBalance .. | .disconnectPSM ..
  | .connectDeposit .. | .deleteDeposit .. | .sweep .. | .skim _ | .setRateLimitPerSecond ..
  | .setBufferCap .. | .pause _ | .unpause _ | .setContractAdminRole .. => .isTrue trivial

/-- A PSM is at its target, or it is below and the deposit has nothing left to give. -/
def Settled (held : ω → Address → Address → ℕ) (tokenOf : Address → Address) (p : Address) (target : ℕ)
    (d : Address) (s : State ω) : Prop :=
  owned held tokenOf s p = target ∨ (owned held tokenOf s p ≤ target ∧ owned held tokenOf s d = 0)

section Step

variable {s t : State ω} {d : Address} (exact_books : Exact contracts held tokenOf isPSM)
  (wired : Wired tokenOf isPSM s.allocator)
include exact_books wired

/-- What is idle has nothing to skim, and nothing to drip or nowhere to drip it. -/
theorem settled_of_idle (linked : s.allocator.pcvDepositToPSM d ≠ 0)
    (noDrip : s.allocator.checkDripConditionInternal contracts s.world (s.allocator.pcvDepositToPSM d) d = .ok false)
    (noSkim : s.allocator.checkSkimConditionInternal contracts s.world (s.allocator.pcvDepositToPSM d) = .ok false) :
    Settled held tokenOf (s.allocator.pcvDepositToPSM d) (s.allocator.linkedPSM d).targetBalance.val d s := by
  obtain ⟨deposit, -⟩ := wired.deposit d linked
  obtain ⟨amount, read, low⟩ := checkDripConditionInternal_eq_ok.mp noDrip
  obtain ⟨other, again, high⟩ := checkSkimConditionInternal_eq_ok.mp noSkim
  obtain rfl : amount = other := Option.some.inj (read.symm.trans again)
  have below := Nat.not_lt.mp (of_decide_eq_false high)
  rw [Settled, linked_balance exact_books wired linked read]
  split_ifs at low with short
  · obtain ⟨available, balance, empty⟩ := low
    refine .inr ⟨below, ?_⟩
    rw [owned, exact_books.balance _ _ _ deposit balance]
    simpa using empty
  · exact .inl (below.antisymm (Nat.not_lt.mp short))

/-- A drip that the rate limit does not cut short fills the PSM or empties the deposit. -/
theorem settled_of_drips {o : Outcome ω} {amount : ℕ} (roomy : Roomy held tokenOf s d)
    (drips : Drips contracts s.allocator s.now s.world d o amount) :
    Settled held tokenOf (s.allocator.pcvDepositToPSM d) (s.allocator.linkedPSM d).targetBalance.val d
      (s.commit o) := by
  obtain ⟨moves, room, buffered, within, smallest⟩ := drips_moves exact_books wired drips
  have enough := roomy room (by rw [buffered]; rfl)
  rw [min_eq_left enough] at smallest
  rw [Settled, moves.recipient_after, moves.source_after]
  omega

/-- A call for a deposit settles it, unless the rate limit cuts the call short. -/
theorem settled_of_call {call : Call ω} (unthrottled : Unthrottled held tokenOf s call t)
    (allocates : call.Allocates d) (stepped : step contracts s call = .ok t) :
    Settled held tokenOf (s.allocator.pcvDepositToPSM d) (s.allocator.linkedPSM d).targetBalance.val d t := by
  cases allocates with
  | skim =>
    obtain ⟨o, skimmed, rfl⟩ := map_eq_ok.mp stepped
    obtain ⟨amount, skims⟩ := skim_spec skimmed
    exact .inl (skims_atTarget exact_books wired skims)
  | drip =>
    obtain ⟨o, succeeded, rfl⟩ := map_eq_ok.mp stepped
    obtain ⟨amount, drips⟩ := drip_spec succeeded
    exact settled_of_drips exact_books wired unthrottled drips
  | doAction =>
    obtain ⟨o, acted, rfl⟩ := map_eq_ok.mp stepped
    obtain ⟨amount, drips⟩ | ⟨amount, skims⟩ | ⟨rfl, linked, noDrip, noSkim⟩ := doAction_cases acted
    · exact settled_of_drips exact_books wired unthrottled drips
    · exact .inl (skims_atTarget exact_books wired skims)
    · exact settled_of_idle exact_books wired linked noDrip noSkim

/-- No call unsettles a deposit: one that has nothing left gets something only from a PSM above its target. -/
theorem settled_kept {other : Address} (linked : s.allocator.pcvDepositToPSM d ≠ 0)
    (allocated : Allocated contracts s other t)
    (settled : Settled held tokenOf (s.allocator.pcvDepositToPSM d) (s.allocator.linkedPSM d).targetBalance.val d s) :
    Settled held tokenOf (s.allocator.pcvDepositToPSM d) (s.allocator.linkedPSM d).targetBalance.val d t := by
  obtain ⟨deposit, psm, -⟩ := wired.deposit d linked
  have closer := (since_of_allocated exact_books wired allocated).closer _ psm
  change Closer (s.allocator.linkedPSM d).targetBalance.val _ _ at closer
  obtain reached | ⟨below, empty⟩ := settled
  · left
    unfold Closer at closer
    omega
  · refine .inr ⟨(closer.1 below).2, ?_⟩
    have apart (otherLinked : s.allocator.pcvDepositToPSM other ≠ 0) : d ≠ s.allocator.pcvDepositToPSM other := by
      obtain ⟨-, otherPSM, -⟩ := wired.deposit other otherLinked
      intro same
      exact deposit (same ▸ otherPSM)
    cases allocated with
    | dripped o amount drips =>
      obtain ⟨moves, -⟩ := drips_moves exact_books wired drips
      by_cases same : d = other
      · subst same
        rw [moves.source_after, empty, Nat.zero_sub]
      · rw [moves.other_after same (apart drips.linked), empty]
    | skimmed o amount skims =>
      obtain ⟨moves, above⟩ := skims_moves exact_books wired skims
      by_cases same : d = other
      · subst same
        have positive := skims.positive
        omega
      · rw [moves.other_after (apart skims.linked) same, empty]
    | idle => exact empty

/-- A call moves nothing into or out of a set that contains both sides or neither of every link. -/
theorem pool_kept {other : Address} {pool : Finset Address}
    (closed : ∀ e, s.allocator.pcvDepositToPSM e ≠ 0 → (e ∈ pool ↔ s.allocator.pcvDepositToPSM e ∈ pool))
    (allocated : Allocated contracts s other t) :
    ∑ a ∈ pool, owned held tokenOf t a = ∑ a ∈ pool, owned held tokenOf s a := by
  cases allocated with
  | dripped o amount drips =>
    obtain ⟨moves, -⟩ := drips_moves exact_books wired drips
    have moved := moves.moved.sum pool
    simp only [closed other drips.linked] at moved
    exact Nat.add_right_cancel moved
  | skimmed o amount skims =>
    obtain ⟨moves, -⟩ := skims_moves exact_books wired skims
    have moved := moves.moved.sum pool
    simp only [closed other skims.linked] at moved
    exact Nat.add_right_cancel moved
  | idle => rfl

end Step

/-! ### Runs -/

/-- What every run of allocations keeps of the state it starts from. -/
structure Sweeping (held : ω → Address → Address → ℕ) (tokenOf : Address → Address) (isPSM : Address → Prop)
    (pool : Finset Address) (s u : State ω) : Prop where
  wired : Wired tokenOf isPSM u.allocator
  psms : u.allocator.allPSMs = s.allocator.allPSMs
  deposits : u.allocator.pcvDepositToPSM = s.allocator.pcvDepositToPSM
  kept : ∑ a ∈ pool, owned held tokenOf u a = ∑ a ∈ pool, owned held tokenOf s a

section Runs

variable {s u v : State ω} {call : Call ω} {pool : Finset Address} {p d : Address}
  (exact_books : Exact contracts held tokenOf isPSM) (sweeping : Sweeping held tokenOf isPSM pool s u)
  (action : IsAction call) (stepped : step contracts u call = .ok v)
include exact_books sweeping action stepped

theorem sweeping_of_step
    (closed : ∀ e, s.allocator.pcvDepositToPSM e ≠ 0 → (e ∈ pool ↔ s.allocator.pcvDepositToPSM e ∈ pool)) :
    Sweeping held tokenOf isPSM pool s v := by
  have wired := step_wired exact_books (separates_of_isAction action) sweeping.wired stepped
  obtain ⟨seconds, rfl⟩ | ⟨e, allocates⟩ := action
  · obtain rfl := Except.ok.inj stepped
    exact ⟨wired, sweeping.psms, sweeping.deposits, sweeping.kept⟩
  · have allocated := allocated_of_step allocates stepped
    obtain ⟨-, psms, deposits⟩ := allocated.mappings
    rw [← sweeping.deposits] at closed
    exact ⟨wired, psms.trans sweeping.psms, deposits.trans sweeping.deposits,
      (pool_kept exact_books sweeping.wired closed allocated).trans sweeping.kept⟩

/-- In a run, a deposit is settled from the first call for it on. -/
theorem settled_of_step (connected : p ≠ 0) (linked : s.allocator.pcvDepositToPSM d = p)
    (unthrottled : Unthrottled held tokenOf u call v)
    (settled : call.Allocates d ∨ Settled held tokenOf p (s.allocator.targetBalance p) d u) :
    Settled held tokenOf p (s.allocator.targetBalance p) d v := by
  have psm : u.allocator.pcvDepositToPSM d = p := (congrFun sweeping.deposits d).trans linked
  have target : (u.allocator.linkedPSM d).targetBalance.val = s.allocator.targetBalance p := by
    rw [linkedPSM, psm, sweeping.psms, targetBalance]
  rw [← target, ← psm] at settled ⊢
  obtain allocates | settled := settled
  · exact settled_of_call exact_books sweeping.wired unthrottled allocates stepped
  · obtain ⟨seconds, rfl⟩ | ⟨e, allocates⟩ := action
    · obtain rfl := Except.ok.inj stepped
      exact settled
    · rw [← psm] at connected
      exact settled_kept exact_books sweeping.wired connected (allocated_of_step allocates stepped) settled

end Runs

/-- From any reachable state, a run that calls every deposit of a PSM at least once, in any order and among any
other allocations, brings the PSM to its target, or as near as all that it and its deposits hold together, unless
the rate limit cuts a drip short. What they hold together stays the same. -/
theorem sweep_fills {start s t : State ω} {history actions : List (Call ω)} {p : Address}
    {deposits : Finset Address} (exact_books : Exact contracts held tokenOf isPSM) (initial : Initial start)
    (separates : ∀ call ∈ history, Separates isPSM call)
    (reached : run (step contracts) start history = .ok s) (connected : p ≠ 0)
    (linked : ∀ d, d ∈ deposits ↔ s.allocator.pcvDepositToPSM d = p) (nonempty : deposits.Nonempty)
    (acting : ∀ call ∈ actions, IsAction call)
    (swept : ∀ d ∈ deposits, ∃ call ∈ actions, call.Allocates d)
    (unthrottled : Along (step contracts) (Unthrottled held tokenOf) s actions)
    (success : run (step contracts) s actions = .ok t) :
    owned held tokenOf t p =
        min (s.allocator.targetBalance p) (owned held tokenOf s p + ∑ d ∈ deposits, owned held tokenOf s d) ∧
      owned held tokenOf t p + ∑ d ∈ deposits, owned held tokenOf t d =
        owned held tokenOf s p + ∑ d ∈ deposits, owned held tokenOf s d := by
  have keeps (state : State ω) (call : Call ω) (next : State ω) (separates : Separates isPSM call)
      (wired : Wired tokenOf isPSM state.allocator) (stepped : step contracts state call = .ok next) :
      Wired tokenOf isPSM next.allocator := step_wired exact_books separates wired stepped
  have wired := run_invariant keeps separates (wired_of_initial initial) reached
  obtain ⟨first, member⟩ := nonempty
  have psm : isPSM p := by
    have link := (linked first).mp member
    rw [← link] at connected ⊢
    exact (wired.deposit first connected).2.1
  -- no PSM is linked as a deposit, so the PSM is not among the deposits and the pool is closed under links
  have unlinked {q : Address} (isPSM : isPSM q) : s.allocator.pcvDepositToPSM q = 0 := by
    by_contra nonzero
    exact (wired.deposit q nonzero).1 isPSM
  have outside : p ∉ deposits := by
    intro inside
    rw [linked, unlinked psm] at inside
    exact connected inside.symm
  have closed (e : Address) (nonzero : s.allocator.pcvDepositToPSM e ≠ 0) :
      e ∈ insert p deposits ↔ s.allocator.pcvDepositToPSM e ∈ insert p deposits := by
    obtain ⟨deposit, target, -⟩ := wired.deposit e nonzero
    simp only [Finset.mem_insert, linked, unlinked target]
    constructor
    · rintro (rfl | link)
      · exact absurd psm deposit
      · exact .inl link
    · rintro (link | zero)
      · exact .inr link
      · exact absurd zero.symm connected
  have begun : Sweeping held tokenOf isPSM (insert p deposits) s s := ⟨wired, rfl, rfl, rfl⟩
  have ended := run_invariant (fun state call next action sweeping stepped =>
    sweeping_of_step exact_books sweeping action stepped closed) acting begun success
  have settled (d : Address) (member : d ∈ deposits) :
      Settled held tokenOf p (s.allocator.targetBalance p) d t :=
    run_establishes (fun state call next action free sweeping stepped =>
      ⟨sweeping_of_step exact_books sweeping action stepped closed,
        settled_of_step exact_books sweeping action stepped connected ((linked d).mp member) free⟩)
      acting unthrottled begun (swept d member) success
  have kept := ended.kept
  rw [Finset.sum_insert outside, Finset.sum_insert outside] at kept
  refine ⟨?_, kept⟩
  by_cases full : owned held tokenOf t p = s.allocator.targetBalance p
  · rw [full, ← kept, full]
    exact (min_eq_left (Nat.le_add_right ..)).symm
  · have emptied (d : Address) (member : d ∈ deposits) : owned held tokenOf t d = 0 :=
      ((settled d member).resolve_left full).2
    have below := ((settled first member).resolve_left full).1
    rw [Finset.sum_eq_zero emptied, add_zero] at kept
    rw [← kept]
    exact (min_eq_right below).symm

/-- Two deposits on one PSM: the first gives all it has, and after a while the second the rest. -/
theorem sweep_fills_two_deposits :
    let governor := Context.withRoles 1 [.governor]
    let reported (a : Address) : Address := if a = 10 ∨ a = 20 ∨ a = 21 then 5 else 0
    let start : State (Address → Address → ℕ) :=
      { now := 0
        allocator :=
          { CONTRACT_ADMIN_ROLE := .governor, paused := false, MAX_RATE_LIMIT_PER_SECOND := 100,
            rateLimitPerSecond := 10, bufferCap := 5000, lastBufferUsedTime := 0, bufferStored := 5000,
            allPSMs := fun _ => .blank, pcvDepositToPSM := fun _ => 0 }
        world := fun token a => if token = 5 ∧ a = 20 then 20 else if token = 5 ∧ a = 21 then 900 else 0
        events := [] }
    let history := [.connectPSM governor 10 50 ⟨2, by decide⟩, .connectDeposit governor 10 20,
      .connectDeposit governor 10 21]
    let actions := [.drip 20, .wait 60, .doAction 21]
    ∃ s t, run (step (exactContracts reported)) start history = .ok s ∧
      run (step (exactContracts reported)) s actions = .ok t ∧ owned id reported t 10 = min 50 920 := by
  intro governor reported start history actions
  have deployed : RateLimitedV2.deploy 0 100 10 5000 = .ok start.allocator.toRateLimitedV2 := by
    decide +kernel
  have initial : Initial start := ⟨100, 10, 5000, bind_eq_ok.mpr ⟨_, deployed, rfl⟩⟩
  have exact_books := exactContracts_exact reported (· = 10)
  have separates : ∀ call ∈ history, Separates (· = 10) call := by
    simp [history, Separates]
  have acting : ∀ call ∈ actions, @IsAction (Address → Address → ℕ) call := by
    simp only [actions, List.mem_cons, List.not_mem_nil, or_false, forall_eq_or_imp, forall_eq]
    exact ⟨.inr ⟨20, .drip 20⟩, .inl ⟨60, rfl⟩, .inr ⟨21, .doAction 21⟩⟩
  have unthrottled : Along (step (exactContracts reported)) (Unthrottled id reported) start
      (history ++ actions) := by decide +kernel
  have links : (fun s => s.allocator.pcvDepositToPSM) <$> run (step (exactContracts reported)) start history =
      .ok (Function.update (Function.update (fun _ => 0) 20 10) 21 10) := rfl
  have before : (fun s => (s.allocator.targetBalance 10, owned id reported s 10 +
      ∑ d ∈ {20, 21}, owned id reported s d)) <$> run (step (exactContracts reported)) start history =
      .ok (50, 920) := by decide +kernel
  have succeeds : (run (step (exactContracts reported)) start (history ++ actions)).isOk := by decide +kernel
  obtain ⟨t, success⟩ := exists_of_isOk succeeds
  obtain ⟨s, reached, acted⟩ := run_append_ok.mp success
  rw [reached] at links before
  have linked (d : Address) : d ∈ ({20, 21} : Finset Address) ↔ s.allocator.pcvDepositToPSM d = 10 := by
    have stored : s.allocator.pcvDepositToPSM d = _ := congrFun (Except.ok.inj links) d
    rw [stored, Finset.mem_insert, Finset.mem_singleton, Function.update_apply, Function.update_apply]
    split_ifs with second first
    · exact iff_of_true (.inr second) rfl
    · exact iff_of_true (.inl first) rfl
    · exact iff_of_false (not_or.mpr ⟨first, second⟩) (by decide)
  have swept : ∀ d ∈ ({20, 21} : Finset Address), ∃ call ∈ actions, call.Allocates d := by
    simp only [Finset.mem_insert, Finset.mem_singleton, forall_eq_or_imp, forall_eq]
    exact ⟨⟨.drip 20, by simp [actions], .drip 20⟩, ⟨.doAction 21, by simp [actions], .doAction 21⟩⟩
  obtain ⟨filled, -⟩ := sweep_fills exact_books initial separates reached (by decide) linked ⟨20, by simp⟩ acting
    swept (unthrottled.suffix reached) acted
  obtain ⟨target, together⟩ := Prod.mk.inj (Except.ok.inj before)
  rw [target, together] at filled
  exact ⟨s, t, reached, acted, filled⟩

end VoltProtocol.AllocatorSweep
