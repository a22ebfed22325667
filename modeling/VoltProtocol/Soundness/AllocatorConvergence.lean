import VoltProtocol.Soundness.AllocatorSystem

/-! # Allocation converges to the targets and conserves funds

Where the contracts around the allocator keep exact books, an allocation is one move between a
PSM and a deposit linked to it. A skim moves the excess, so the PSM ends at its target; a drip moves
at most the shortfall. Either way the PSM gets no farther from its target and does not cross it, and
what the two sides hold together stays the same.
-/

namespace VoltProtocol.AllocatorConvergence

open Machine ERC20Allocator AllocatorSystem

variable {ω : Type} {contracts : Contracts ω} {held : ω → Address → Address → ℕ}
  {tokenOf : Address → Address} {isPSM : Address → Prop}

/-- Contracts that move exactly what they are asked to and count all they have received. `held`
says how much of a token an account owns, in its own balance or in the venue behind it. -/
structure Exact (contracts : Contracts ω) (held : ω → Address → Address → ℕ)
    (tokenOf : Address → Address) (isPSM : Address → Prop) : Prop where
  reported : ∀ w a token, contracts.balanceReportedIn w a = some token → token = tokenOf a
  noToken : ∀ w a, contracts.balanceOf w 0 a = none
  balanceOf : ∀ w token psm amount, isPSM psm → contracts.balanceOf w token psm = some amount →
    held w token psm = amount
  balance : ∀ w d amount, ¬ isPSM d → contracts.balance w d = some amount → held w (tokenOf d) d = amount
  withdraw : ∀ w a recipient amount after, contracts.withdraw w a recipient amount = some after →
    amount ≤ held w (tokenOf a) a ∧ held after = Function.update (held w) (tokenOf a)
      (Ledger.move (held w (tokenOf a)) a recipient amount)
  deposit : ∀ w d after, contracts.deposit w d = some after → held after = held w

theorem exactContracts_exact (reported : Address → Address) (isPSM : Address → Prop) :
    Exact (exactContracts reported) id reported isPSM where
  reported w a token answer := by
    simp only [exactContracts] at answer
    split_ifs at answer
    exact (Option.some.inj answer).symm
  noToken w a := rfl
  balanceOf w token psm amount _ answer := by
    simp only [exactContracts] at answer
    split_ifs at answer
    exact Option.some.inj answer
  balance w d amount _ answer := Option.some.inj answer
  withdraw w a recipient amount after paid := by
    simp only [exactContracts] at paid
    split_ifs at paid with covered
    exact ⟨covered, (Option.some.inj paid).symm⟩
  deposit w d after supplied := (Option.some.inj supplied).symm

/-- The governor connects PSMs as PSMs and deposits as deposits. -/
def Separates (isPSM : Address → Prop) : Call ω → Prop
  | .connectPSM _ psm _ _ => isPSM psm
  | .connectDeposit _ _ d => ¬ isPSM d
  | _ => True

/-- Stored tokens are the reported ones, and links join a deposit to a PSM of the same token. -/
structure Wired (tokenOf : Address → Address) (isPSM : Address → Prop) (a : ERC20Allocator) : Prop where
  psm : ∀ p, (a.allPSMs p).token ≠ 0 → isPSM p ∧ (a.allPSMs p).token = tokenOf p
  deposit : ∀ d, a.pcvDepositToPSM d ≠ 0 →
    ¬ isPSM d ∧ isPSM (a.pcvDepositToPSM d) ∧ tokenOf d = tokenOf (a.pcvDepositToPSM d)

theorem wired_of_initial {s : State ω} (initial : Initial s) : Wired tokenOf isPSM s.allocator := by
  obtain ⟨-, unconnected, unlinked⟩ := initial_spec initial
  constructor
  · intro p connected
    rw [unconnected] at connected
    exact absurd rfl connected
  · intro d linked
    exact absurd (unlinked d) linked

/-- Rewriting one entry needs only that entry to be the one of a PSM. -/
theorem Wired.update_psm {a : ERC20Allocator} {p : Address} {info : PSMInfo}
    (wired : Wired tokenOf isPSM a) (entry : info.token ≠ 0 → isPSM p ∧ info.token = tokenOf p) :
    Wired tokenOf isPSM { a with allPSMs := Function.update a.allPSMs p info } := by
  refine ⟨?_, wired.deposit⟩
  intro other connected
  by_cases same : other = p
  · subst same
    simp only [Function.update_self] at connected ⊢
    exact entry connected
  · simp only [Function.update_of_ne same] at connected ⊢
    exact wired.psm other connected

theorem Wired.update_deposit {a : ERC20Allocator} {d p : Address} (wired : Wired tokenOf isPSM a)
    (link : p ≠ 0 → ¬ isPSM d ∧ isPSM p ∧ tokenOf d = tokenOf p) :
    Wired tokenOf isPSM { a with pcvDepositToPSM := Function.update a.pcvDepositToPSM d p } := by
  refine ⟨wired.psm, ?_⟩
  intro other linked
  by_cases same : other = d
  · subst same
    simp only [Function.update_self] at linked ⊢
    exact link linked
  · simp only [Function.update_of_ne same] at linked ⊢
    exact wired.deposit other linked

theorem step_wired {s t : State ω} {call : Call ω} (exact_books : Exact contracts held tokenOf isPSM)
    (separates : Separates isPSM call) (wired : Wired tokenOf isPSM s.allocator)
    (stepped : step contracts s call = .ok t) : Wired tokenOf isPSM t.allocator := by
  cases connects : call.connects with
  | false =>
    obtain ⟨psms, deposits⟩ := mappings_of_step connects stepped
    exact ⟨by rw [psms]; exact wired.psm, by rw [deposits]; exact wired.deposit⟩
  | true =>
    obtain ⟨a, links, rfl⟩ := links_of_step connects stepped
    change Wired tokenOf isPSM a
    cases links with
    | connectPSM ctx psm target decimals token reported free =>
      apply wired.update_psm
      intro _
      exact ⟨separates, exact_books.reported _ _ _ reported⟩
    | editPSMTargetBalance ctx psm target =>
      apply wired.update_psm
      intro connected
      exact wired.psm psm connected
    | disconnectPSM ctx psm =>
      apply wired.update_psm
      intro connected
      exact absurd rfl connected
    | connectDeposit ctx psm pcvDeposit reported connected =>
      obtain ⟨isPSM, same⟩ := wired.psm psm connected
      have agrees := exact_books.reported _ _ _ reported
      apply wired.update_deposit
      intro _
      exact ⟨separates, isPSM, agrees.symm.trans same⟩
    | deleteDeposit ctx pcvDeposit =>
      apply wired.update_deposit
      intro linked
      exact absurd rfl linked

/-! ### One allocation as one move -/

section Allocation

variable {s t : State ω} {d : Address}

/-- What an account owns of the token it reports. -/
abbrev owned (held : ω → Address → Address → ℕ) (tokenOf : Address → Address) (s : State ω)
    (a : Address) : ℕ := held s.world (tokenOf a) a

/-- The PSM of a deposit holds exactly its target. -/
def AtTarget (held : ω → Address → Address → ℕ) (tokenOf : Address → Address) (d : Address)
    (s t : State ω) : Prop :=
  owned held tokenOf t (s.allocator.pcvDepositToPSM d) =
    (s.allocator.linkedPSM d).targetBalance.val

/-- The PSM of a deposit gained the smallest of its shortfall, what the deposit holds and the buffer
in units of the token, and is not above its target. -/
def RaisedBySmallest (held : ω → Address → Address → ℕ) (tokenOf : Address → Address) (d : Address)
    (s t : State ω) : Prop :=
  ∃ room, s.allocator.buffer s.now = .ok room ∧
    owned held tokenOf t (s.allocator.pcvDepositToPSM d) =
      owned held tokenOf s (s.allocator.pcvDepositToPSM d) +
        min (min ((s.allocator.linkedPSM d).targetBalance.val -
            owned held tokenOf s (s.allocator.pcvDepositToPSM d)) (owned held tokenOf s d))
          (rescale room (s.allocator.linkedPSM d).unitValue⁻¹) ∧
    owned held tokenOf t (s.allocator.pcvDepositToPSM d) ≤ (s.allocator.linkedPSM d).targetBalance.val

/-- No farther from the target, and on the same side of it. -/
def Closer (target before after : ℕ) : Prop :=
  (before ≤ target → before ≤ after ∧ after ≤ target) ∧
    (target ≤ before → target ≤ after ∧ after ≤ before)

theorem Closer.refl (target amount : ℕ) : Closer target amount amount :=
  ⟨fun below => ⟨le_rfl, below⟩, fun above => ⟨above, le_rfl⟩⟩

theorem Closer.trans {target before middle after : ℕ} (first : Closer target before middle)
    (second : Closer target middle after) : Closer target before after := by
  unfold Closer at *
  omega

theorem Closer.distance_le {target before after : ℕ} (closer : Closer target before after) :
    |(after : ℤ) - target| ≤ |(before : ℤ) - target| := by
  unfold Closer at closer
  rcases Nat.le_total before target with below | above
  · obtain ⟨up, within⟩ := closer.1 below
    rw [abs_of_nonpos (by omega), abs_of_nonpos (by omega)]
    omega
  · obtain ⟨within, down⟩ := closer.2 above
    rw [abs_of_nonneg (by omega), abs_of_nonneg (by omega)]
    omega

/-- An exact move of a token between two accounts that both report it. -/
structure Moves (held : ω → Address → Address → ℕ) (tokenOf : Address → Address) (s t : State ω)
    (source recipient : Address) (amount : ℕ) : Prop where
  different : source ≠ recipient
  same : tokenOf source = tokenOf recipient
  covered : amount ≤ owned held tokenOf s source
  books : held t.world = Function.update (held s.world) (tokenOf source)
    (Ledger.move (held s.world (tokenOf source)) source recipient amount)

namespace Moves

variable {source recipient : Address} {amount : ℕ}
  (moves : Moves held tokenOf s t source recipient amount)
include moves

theorem source_after : owned held tokenOf t source = owned held tokenOf s source - amount := by
  rw [owned, moves.books, Function.update_self, Ledger.move_source moves.different]

theorem recipient_after : owned held tokenOf t recipient = owned held tokenOf s recipient + amount := by
  rw [owned, ← moves.same, moves.books, Function.update_self, Ledger.move_target moves.different,
    owned, moves.same]

theorem other_after {other : Address} (notSource : other ≠ source) (notRecipient : other ≠ recipient) :
    owned held tokenOf t other = owned held tokenOf s other := by
  rw [owned, moves.books]
  by_cases token : tokenOf other = tokenOf source
  · rw [token, Function.update_self, Ledger.move_of_ne notSource notRecipient, owned, token]
  · rw [Function.update_of_ne token]

theorem moved : Ledger.Moved (owned held tokenOf s) (owned held tokenOf t) source recipient amount := by
  intro a
  by_cases paid : a = source
  · subst paid
    rw [if_pos rfl, if_neg moves.different, moves.source_after, Nat.sub_add_cancel moves.covered, add_zero]
  · by_cases received : a = recipient
    · subst received
      rw [if_pos rfl, if_neg paid, moves.recipient_after, add_zero]
    · rw [if_neg paid, if_neg received, moves.other_after paid received]

/-- A move inside a pool of accounts conserves what the pool holds of every token. -/
theorem conserves {pool : Finset Address} (source_mem : source ∈ pool) (recipient_mem : recipient ∈ pool)
    (token : Address) : ∑ a ∈ pool with tokenOf a = token, held t.world token a =
      ∑ a ∈ pool with tokenOf a = token, held s.world token a := by
  rw [moves.books]
  by_cases moved : token = tokenOf source
  · subst moved
    rw [Function.update_self]
    refine Ledger.sum_move_of_mem _ moves.covered ?_ ?_
    · exact Finset.mem_filter.mpr ⟨source_mem, rfl⟩
    · exact Finset.mem_filter.mpr ⟨recipient_mem, moves.same.symm⟩
  · rw [Function.update_of_ne moved]

end Moves

variable (exact_books : Exact contracts held tokenOf isPSM) (wired : Wired tokenOf isPSM s.allocator)
include exact_books wired

/-- The stored token of a linked PSM whose balance can be read is the one both sides report. -/
theorem linked_balance {amount : ℕ} (linked : s.allocator.pcvDepositToPSM d ≠ 0)
    (read : contracts.balanceOf s.world (s.allocator.linkedPSM d).token
      (s.allocator.pcvDepositToPSM d) = some amount) :
    owned held tokenOf s (s.allocator.pcvDepositToPSM d) = amount := by
  obtain ⟨-, isPSM, -⟩ := wired.deposit d linked
  have connected : (s.allocator.linkedPSM d).token ≠ 0 := by
    intro zero
    rw [zero, exact_books.noToken] at read
    cases read
  obtain ⟨-, token⟩ := wired.psm _ connected
  rw [owned, ← token]
  exact exact_books.balanceOf _ _ _ _ isPSM read

omit exact_books in
private theorem distinct (linked : s.allocator.pcvDepositToPSM d ≠ 0) :
    s.allocator.pcvDepositToPSM d ≠ d := by
  obtain ⟨deposit, isPSM, -⟩ := wired.deposit d linked
  intro equal
  rw [equal] at isPSM
  exact deposit isPSM

theorem skims_moves {o : Outcome ω} {amount : ℕ}
    (skims : Skims contracts s.allocator s.now s.world d o amount) :
    Moves held tokenOf s (s.commit o) (s.allocator.pcvDepositToPSM d) d amount ∧
      owned held tokenOf s (s.allocator.pcvDepositToPSM d) =
        (s.allocator.linkedPSM d).targetBalance.val + amount := by
  obtain ⟨deposit, isPSM, token⟩ := wired.deposit d skims.linked
  obtain ⟨pulled, withdrawn, supplied⟩ := skims.moved
  obtain ⟨covered, books⟩ := exact_books.withdraw _ _ _ _ _ withdrawn
  refine ⟨⟨distinct wired skims.linked, token.symm, covered, ?_⟩,
    linked_balance exact_books wired skims.linked skims.holding⟩
  rw [← books]
  exact exact_books.deposit _ _ _ supplied

theorem drips_moves {o : Outcome ω} {amount : ℕ}
    (drips : Drips contracts s.allocator s.now s.world d o amount) :
    Moves held tokenOf s (s.commit o) d (s.allocator.pcvDepositToPSM d) amount ∧
      ∃ room, s.allocator.buffer s.now = .ok room ∧
        owned held tokenOf s (s.allocator.pcvDepositToPSM d) + amount ≤
          (s.allocator.linkedPSM d).targetBalance.val ∧
        amount = min (min ((s.allocator.linkedPSM d).targetBalance.val -
            owned held tokenOf s (s.allocator.pcvDepositToPSM d)) (owned held tokenOf s d))
          (rescale room (s.allocator.linkedPSM d).unitValue⁻¹) := by
  obtain ⟨deposit, isPSM, token⟩ := wired.deposit d drips.linked
  obtain ⟨before, available, room, read, short, balance, -, buffered, smallest⟩ := drips.smallest
  obtain ⟨covered, books⟩ := exact_books.withdraw _ _ _ _ _ drips.moved
  obtain rfl := linked_balance exact_books wired drips.linked read
  obtain rfl := exact_books.balance _ _ _ deposit balance
  refine ⟨⟨(distinct wired drips.linked).symm, token, covered, books⟩, room, buffered, ?_,
    smallest⟩
  have within : amount ≤ (s.allocator.linkedPSM d).targetBalance.val -
      owned held tokenOf s (s.allocator.pcvDepositToPSM d) := by
    rw [smallest]
    exact (min_le_left ..).trans (min_le_left ..)
  omega

theorem skims_atTarget {o : Outcome ω} {amount : ℕ}
    (skims : Skims contracts s.allocator s.now s.world d o amount) :
    AtTarget held tokenOf d s (s.commit o) := by
  obtain ⟨moves, before⟩ := skims_moves exact_books wired skims
  rw [AtTarget, moves.source_after, before, Nat.add_sub_cancel]

theorem drips_raisedBySmallest {o : Outcome ω} {amount : ℕ}
    (drips : Drips contracts s.allocator s.now s.world d o amount) :
    RaisedBySmallest held tokenOf d s (s.commit o) := by
  obtain ⟨moves, room, buffered, within, smallest⟩ := drips_moves exact_books wired drips
  refine ⟨room, buffered, ?_, ?_⟩
  · rw [moves.recipient_after, ← smallest]
  · rw [moves.recipient_after]
    exact within

end Allocation

/-! ### Runs of allocations -/

/-- What each allocation function promises about the PSM of its deposit. -/
def Acts (held : ω → Address → Address → ℕ) (tokenOf : Address → Address) (s : State ω) (call : Call ω)
    (t : State ω) : Prop :=
  match call with
  | .skim d => AtTarget held tokenOf d s t
  | .drip d => RaisedBySmallest held tokenOf d s t
  | .doAction d => RaisedBySmallest held tokenOf d s t ∨ AtTarget held tokenOf d s t ∨
      held t.world = held s.world
  | _ => True

/-- A pool of accounts that contains both sides of every link. -/
def Covers (pool : Finset Address) (a : ERC20Allocator) : Prop :=
  ∀ d, a.pcvDepositToPSM d ≠ 0 → d ∈ pool ∧ a.pcvDepositToPSM d ∈ pool

/-- Where a run of allocations can lead from a state. -/
structure Since (held : ω → Address → Address → ℕ) (tokenOf : Address → Address)
    (isPSM : Address → Prop) (s t : State ω) : Prop where
  psms : t.allocator.allPSMs = s.allocator.allPSMs
  deposits : t.allocator.pcvDepositToPSM = s.allocator.pcvDepositToPSM
  conserved : ∀ pool token, Covers pool s.allocator →
    ∑ a ∈ pool with tokenOf a = token, held t.world token a =
      ∑ a ∈ pool with tokenOf a = token, held s.world token a
  closer : ∀ p, isPSM p → Closer (s.allocator.targetBalance p) (owned held tokenOf s p)
    (owned held tokenOf t p)

theorem Since.of_same {s t : State ω} (psms : t.allocator.allPSMs = s.allocator.allPSMs)
    (deposits : t.allocator.pcvDepositToPSM = s.allocator.pcvDepositToPSM)
    (books : held t.world = held s.world) : Since held tokenOf isPSM s t where
  psms
  deposits
  conserved pool token _ := by rw [books]
  closer p _ := by rw [owned, owned, books]; exact Closer.refl ..

theorem Since.trans {s m t : State ω} (first : Since held tokenOf isPSM s m)
    (second : Since held tokenOf isPSM m t) : Since held tokenOf isPSM s t where
  psms := second.psms.trans first.psms
  deposits := second.deposits.trans first.deposits
  conserved pool token covers := by
    have later : Covers pool m.allocator := by
      unfold Covers
      rw [first.deposits]
      exact covers
    exact (second.conserved pool token later).trans (first.conserved pool token covers)
  closer p psm := by
    have next := second.closer p psm
    rw [targetBalance, first.psms] at next
    exact (first.closer p psm).trans next

section Step

variable {s t : State ω} {d : Address}

/-- A move between a deposit and its PSM brings only this PSM closer to its target. -/
private theorem since_of_moves {source recipient : Address} {amount : ℕ}
    (mappings : t.now = s.now ∧ t.allocator.allPSMs = s.allocator.allPSMs ∧
      t.allocator.pcvDepositToPSM = s.allocator.pcvDepositToPSM)
    (linked : s.allocator.pcvDepositToPSM d ≠ 0) (deposit : ¬ isPSM d)
    (moves : Moves held tokenOf s t source recipient amount)
    (sides : (source = s.allocator.pcvDepositToPSM d ∧ recipient = d) ∨
      (source = d ∧ recipient = s.allocator.pcvDepositToPSM d))
    (closer : Closer (s.allocator.linkedPSM d).targetBalance.val
      (owned held tokenOf s (s.allocator.pcvDepositToPSM d))
      (owned held tokenOf t (s.allocator.pcvDepositToPSM d))) : Since held tokenOf isPSM s t := by
  refine ⟨mappings.2.1, mappings.2.2, ?_, ?_⟩
  · intro pool token covers
    obtain ⟨deposit_mem, psm_mem⟩ := covers d linked
    rcases sides with ⟨rfl, rfl⟩ | ⟨rfl, rfl⟩
    · exact moves.conserves psm_mem deposit_mem token
    · exact moves.conserves deposit_mem psm_mem token
  · intro p psm
    by_cases own : p = s.allocator.pcvDepositToPSM d
    · subst own
      exact closer
    · have other : p ≠ d := by
        intro equal
        apply deposit
        exact equal ▸ psm
      have unchanged : owned held tokenOf t p = owned held tokenOf s p := by
        rcases sides with ⟨rfl, rfl⟩ | ⟨rfl, rfl⟩
        · exact moves.other_after own other
        · exact moves.other_after other own
      rw [unchanged]
      exact Closer.refl ..

variable (exact_books : Exact contracts held tokenOf isPSM) (wired : Wired tokenOf isPSM s.allocator)
include exact_books wired

theorem since_of_allocated (allocated : Allocated contracts s d t) : Since held tokenOf isPSM s t := by
  have mappings := allocated.mappings
  cases allocated with
  | dripped o amount drips =>
    obtain ⟨deposit, -⟩ := wired.deposit d drips.linked
    obtain ⟨moves, room, -, within, -⟩ := drips_moves exact_books wired drips
    refine since_of_moves mappings drips.linked deposit moves (.inr ⟨rfl, rfl⟩) ?_
    rw [moves.recipient_after]
    unfold Closer
    omega
  | skimmed o amount skims =>
    obtain ⟨deposit, -⟩ := wired.deposit d skims.linked
    obtain ⟨moves, before⟩ := skims_moves exact_books wired skims
    refine since_of_moves mappings skims.linked deposit moves (.inl ⟨rfl, rfl⟩) ?_
    rw [moves.source_after, before]
    unfold Closer
    omega
  | idle => exact Since.of_same rfl rfl rfl

theorem step_acts {call : Call ω} (stepped : step contracts s call = .ok t) :
    Acts held tokenOf s call t := by
  cases call with
  | skim d =>
    obtain ⟨o, skimmed, rfl⟩ := map_eq_ok.mp stepped
    obtain ⟨amount, skims⟩ := skim_spec skimmed
    exact skims_atTarget exact_books wired skims
  | drip d =>
    obtain ⟨o, dripped, rfl⟩ := map_eq_ok.mp stepped
    obtain ⟨amount, drips⟩ := drip_spec dripped
    exact drips_raisedBySmallest exact_books wired drips
  | doAction d =>
    obtain ⟨o, acted, rfl⟩ := map_eq_ok.mp stepped
    rcases doAction_spec acted with ⟨amount, drips⟩ | ⟨amount, skims⟩ | rfl
    · exact .inl (drips_raisedBySmallest exact_books wired drips)
    · exact .inr (.inl (skims_atTarget exact_books wired skims))
    · exact .inr (.inr rfl)
  | _ => trivial

end Step

/-- A call of one of the three allocation functions, or time passing between them. -/
def IsAction (call : Call ω) : Prop := (∃ seconds, call = .wait seconds) ∨ ∃ d, call.Allocates d

theorem separates_of_isAction {call : Call ω} (action : IsAction call) : Separates isPSM call := by
  rcases action with ⟨seconds, rfl⟩ | ⟨d, allocates⟩
  · trivial
  · cases allocates <;> trivial

theorem step_since {s t : State ω} {call : Call ω} (exact_books : Exact contracts held tokenOf isPSM)
    (wired : Wired tokenOf isPSM s.allocator) (action : IsAction call)
    (stepped : step contracts s call = .ok t) : Since held tokenOf isPSM s t := by
  rcases action with ⟨seconds, rfl⟩ | ⟨d, allocates⟩
  · obtain rfl := Except.ok.inj stepped
    exact Since.of_same rfl rfl rfl
  · exact since_of_allocated exact_books wired (allocated_of_step allocates stepped)

/-- From any reachable state, a run of allocations conserves what the two sides of the links hold of
every token; each skim leaves its PSM at the target and each drip raises it by the smallest of the
three amounts; every PSM ends no farther from its target and on the same side of it; a PSM is never
open to a drip and a skim at once; and no allocation is refused by the rate limit. -/
theorem allocation_converges {start s t : State ω} {history actions : List (Call ω)}
    (exact_books : Exact contracts held tokenOf isPSM) (initial : Initial start)
    (separates : ∀ call ∈ history, Separates isPSM call)
    (reached : run (step contracts) start history = .ok s) (acting : ∀ call ∈ actions, IsAction call)
    (success : run (step contracts) s actions = .ok t) :
    (∀ pool token, Covers pool s.allocator →
      ∑ a ∈ pool with tokenOf a = token, held t.world token a =
        ∑ a ∈ pool with tokenOf a = token, held s.world token a) ∧
    Along (step contracts) (Acts held tokenOf) s actions ∧
    (∀ p, isPSM p →
      |(owned held tokenOf t p : ℤ) - s.allocator.targetBalance p| ≤
          |(owned held tokenOf s p : ℤ) - s.allocator.targetBalance p| ∧
        (owned held tokenOf s p ≤ s.allocator.targetBalance p →
          owned held tokenOf t p ≤ s.allocator.targetBalance p) ∧
        (s.allocator.targetBalance p ≤ owned held tokenOf s p →
          s.allocator.targetBalance p ≤ owned held tokenOf t p)) ∧
    (∀ p d, t.allocator.checkDripConditionInternal contracts t.world p d = .ok true →
      t.allocator.checkSkimConditionInternal contracts t.world p ≠ .ok true) ∧
    ∀ call d, call.Allocates d → step contracts t call ≠ .error rateLimitHit := by
  have keeps (state : State ω) (call : Call ω) (next : State ω) (separates : Separates isPSM call)
      (wired : Wired tokenOf isPSM state.allocator) (stepped : step contracts state call = .ok next) :
      Wired tokenOf isPSM next.allocator := step_wired exact_books separates wired stepped
  have wired := run_invariant keeps separates (wired_of_initial initial) reached
  have each (state : State ω) (call : Call ω) (next : State ω) (action : IsAction call)
      (inv : Wired tokenOf isPSM state.allocator ∧ Since held tokenOf isPSM s state)
      (stepped : step contracts state call = .ok next) :
      Wired tokenOf isPSM next.allocator ∧ Since held tokenOf isPSM s next :=
    ⟨keeps state call next (separates_of_isAction action) inv.1 stepped,
      inv.2.trans (step_since exact_books inv.1 action stepped)⟩
  obtain ⟨-, since⟩ := run_invariant each acting ⟨wired, Since.of_same rfl rfl rfl⟩ success
  refine ⟨since.conserved, ?_, ?_, fun p d => conditions_exclusive, ?_⟩
  · have acts (state : State ω) (call : Call ω) (next : State ω) (action : IsAction call)
        (wired : Wired tokenOf isPSM state.allocator) (stepped : step contracts state call = .ok next) :
        Wired tokenOf isPSM next.allocator ∧ Acts held tokenOf state call next :=
      ⟨keeps state call next (separates_of_isAction action) wired stepped,
        step_acts exact_books wired stepped⟩
    exact along_of_step acts acting wired
  · intro p psm
    have closer := since.closer p psm
    exact ⟨closer.distance_le, fun below => (closer.1 below).2, fun above => (closer.2 above).1⟩
  · intro call d allocates failure
    cases allocates with
    | skim => exact skim_ne_hit (map_eq_error.mp failure)
    | drip => exact drip_ne_hit (map_eq_error.mp failure)
    | doAction => exact doAction_ne_hit (map_eq_error.mp failure)

/-- Two deposits on one PSM: a drip bounded by the first deposit, then one bounded by the buffer. -/
theorem allocation_converges_shared_psm :
    let governor := Context.withRoles 1 [.governor]
    let reported (a : Address) : Address := if a = 10 ∨ a = 20 ∨ a = 21 then 5 else 0
    let start : State (Address → Address → ℕ) :=
      { now := 0
        allocator :=
          { CONTRACT_ADMIN_ROLE := .governor, paused := false, MAX_RATE_LIMIT_PER_SECOND := 100,
            rateLimitPerSecond := 0, bufferCap := 5000, lastBufferUsedTime := 0, bufferStored := 5000,
            allPSMs := fun _ => .blank, pcvDepositToPSM := fun _ => 0 }
        world := fun token a => if token = 5 ∧ a = 20 then 20 else if token = 5 ∧ a = 21 then 900 else 0
        events := [] }
    let history := [.connectPSM governor 10 100 ⟨2, by decide⟩, .connectDeposit governor 10 20,
      .connectDeposit governor 10 21]
    let actions := [.drip 20, .doAction 21]
    ∃ s t, run (step (exactContracts reported)) start history = .ok s ∧
      run (step (exactContracts reported)) s actions = .ok t ∧ t.world 5 10 = 50 ∧
      Along (step (exactContracts reported)) (Acts id reported) s actions := by
  intro governor reported start history actions
  have deployed : RateLimitedV2.deploy 0 100 0 5000 = .ok start.allocator.toRateLimitedV2 := by
    decide +kernel
  have initial : Initial start := ⟨100, 0, 5000, bind_eq_ok.mpr ⟨_, deployed, rfl⟩⟩
  have exact_books := exactContracts_exact reported (· = 10)
  have separates : ∀ call ∈ history, Separates (· = 10) call := by
    simp [history, Separates]
  have acting : ∀ call ∈ actions, @IsAction (Address → Address → ℕ) call := by
    simp only [actions, List.mem_cons, List.not_mem_nil, or_false, forall_eq_or_imp, forall_eq]
    exact ⟨.inr ⟨20, .drip 20⟩, .inr ⟨21, .doAction 21⟩⟩
  have observed : (fun t => t.world 5 10) <$> run (step (exactContracts reported)) start
      (history ++ actions) = .ok 50 := by decide +kernel
  obtain ⟨t, success, balance⟩ := map_eq_ok.mp observed
  obtain ⟨s, reached, acted⟩ := run_append_ok.mp success
  exact ⟨s, t, reached, acted, balance,
    (allocation_converges exact_books initial separates reached acting acted).2.1⟩

end VoltProtocol.AllocatorConvergence
