import VoltProtocol.Soundness.AllocatorSystem

/-! # Connected deposits share the token of their PSM

`connectDeposit` checks the token of a deposit against the one stored for its PSM, and
`editPSMTargetBalance` refuses a PSM that has changed its token. `disconnectPSM` erases the stored
token and keeps the links, so a PSM that is connected again may store another token under old
links. Every other call keeps the tokens shared, and this one does exactly when the token reported
at that moment is the one its linked deposits report.
-/

namespace VoltProtocol.AllocatorTokens

open Machine ERC20Allocator AllocatorSystem

variable {ω : Type} {contracts : Contracts ω} {tokenOf : Address → Address}

/-- Every deposit linked to a connected PSM reports the token stored for the PSM. -/
def SharesTokens (tokenOf : Address → Address) (a : ERC20Allocator) : Prop :=
  ∀ d, a.pcvDepositToPSM d ≠ 0 → (a.linkedPSM d).token ≠ 0 → tokenOf d = (a.linkedPSM d).token

/-- A PSM is connected only while its linked deposits report the token it reports. -/
def ReconnectsSameToken (contracts : Contracts ω) (tokenOf : Address → Address) (s : State ω) :
    Call ω → Prop
  | .connectPSM _ psm _ _ => ∀ token, contracts.balanceReportedIn s.world psm = some token →
      token ≠ 0 → psm ≠ 0 → ∀ d, s.allocator.pcvDepositToPSM d = psm → tokenOf d = token
  | _ => True

/-- A connected deposit always reports the same token. -/
def DepositsConstant (contracts : Contracts ω) (tokenOf : Address → Address) : Call ω → Prop
  | .connectDeposit _ _ d => ∀ w token, contracts.balanceReportedIn w d = some token → token = tokenOf d
  | _ => True

theorem sharesTokens_of_initial {s : State ω} (initial : Initial s) :
    SharesTokens tokenOf s.allocator := by
  obtain ⟨-, -, unlinked⟩ := initial_spec initial
  intro d linked
  exact absurd (unlinked d) linked

/-- Storing an entry for one PSM keeps the tokens shared exactly when the stored token agrees with
the deposits already linked to it. -/
theorem sharesTokens_update {a : ERC20Allocator} {psm : Address} {info : PSMInfo}
    (shares : SharesTokens tokenOf a) :
    SharesTokens tokenOf { a with allPSMs := Function.update a.allPSMs psm info } ↔
      (info.token ≠ 0 → psm ≠ 0 → ∀ d, a.pcvDepositToPSM d = psm → tokenOf d = info.token) := by
  constructor
  · intro after connected nonzero d linked
    have stored : ({ a with allPSMs := Function.update a.allPSMs psm info } : ERC20Allocator).linkedPSM d =
        info := by simp [linkedPSM, linked]
    have agreed := after d (by simpa [linked] using nonzero)
    rw [stored] at agreed
    exact agreed connected
  · intro agrees d linked
    by_cases same : a.pcvDepositToPSM d = psm
    · intro connected
      simp only [linkedPSM, same, Function.update_self] at connected ⊢
      exact agrees connected (same ▸ linked) d same
    · intro connected
      simp only [linkedPSM, Function.update_of_ne same] at connected ⊢
      exact shares d linked connected

theorem step_sharesTokens {s t : State ω} {call : Call ω} (constant : DepositsConstant contracts tokenOf call)
    (shares : SharesTokens tokenOf s.allocator) (stepped : step contracts s call = .ok t) :
    SharesTokens tokenOf t.allocator ↔ ReconnectsSameToken contracts tokenOf s call := by
  cases connects : call.connects with
  | false =>
    obtain ⟨psms, deposits⟩ := mappings_of_step connects stepped
    have kept : SharesTokens tokenOf t.allocator := by
      intro d
      simp only [linkedPSM, psms, deposits]
      exact shares d
    apply iff_of_true kept
    cases call <;> trivial
  | true =>
    obtain ⟨a, links, rfl⟩ := links_of_step connects stepped
    change SharesTokens tokenOf a ↔ _
    cases links with
    | connectPSM ctx psm target decimals token reported free =>
      rw [sharesTokens_update shares]
      constructor
      · intro agrees other again
        obtain rfl : token = other := Option.some.inj (reported.symm.trans again)
        exact agrees
      · intro agrees
        exact agrees token reported
    | editPSMTargetBalance ctx psm target =>
      refine iff_of_true ((sharesTokens_update shares).mpr ?_) trivial
      intro connected nonzero d linked
      have agreed := shares d (linked ▸ nonzero)
      simp only [linkedPSM, linked] at agreed
      exact agreed connected
    | disconnectPSM ctx psm =>
      refine iff_of_true ((sharesTokens_update shares).mpr ?_) trivial
      intro connected
      exact absurd rfl connected
    | connectDeposit ctx psm pcvDeposit reported connected =>
      refine iff_of_true ?_ trivial
      intro d linked stored
      by_cases same : d = pcvDeposit
      · subst same
        simp only [linkedPSM, Function.update_self]
        exact (constant s.world _ reported).symm
      · simp only [linkedPSM, Function.update_of_ne same] at linked stored ⊢
        exact shares d linked stored
    | deleteDeposit ctx pcvDeposit =>
      refine iff_of_true ?_ trivial
      intro d linked stored
      by_cases same : d = pcvDeposit
      · subst same
        simp only [Function.update_self, ne_eq, not_true_eq_false] at linked
      · simp only [linkedPSM, Function.update_of_ne same] at linked stored ⊢
        exact shares d linked stored

/-- In every run from a new allocator, the tokens are shared in all states reached exactly when no
PSM is connected while a deposit still linked to it reports another token. -/
theorem shares_tokens_iff {s t : State ω} {calls : List (Call ω)} (initial : Initial s)
    (constant : ∀ call ∈ calls, DepositsConstant contracts tokenOf call)
    (success : run (step contracts) s calls = .ok t) :
    Along (step contracts) (fun _ _ next => SharesTokens tokenOf next.allocator) s calls ↔
      Along (step contracts) (fun state call _ => ReconnectsSameToken contracts tokenOf state call)
        s calls := by
  have exact_step (state : State ω) (call : Call ω) (next : State ω)
      (constant : DepositsConstant contracts tokenOf call) (_ : True)
      (shares : SharesTokens tokenOf state.allocator) (stepped : step contracts state call = .ok next) :
      True ∧ (SharesTokens tokenOf next.allocator ↔ ReconnectsSameToken contracts tokenOf state call) :=
    ⟨trivial, step_sharesTokens constant shares stepped⟩
  exact along_good_iff exact_step constant trivial (sharesTokens_of_initial initial) success

/-- Contracts in which the PSM 10 reports the token the world names and all others report 5. -/
def changingPSM : Contracts Address where
  balanceReportedIn w a := some (if a = 10 then w else 5)
  balance _ _ := none
  withdraw _ _ _ _ := none
  deposit _ _ := none
  balanceOf _ _ _ := none
  transfer _ _ _ _ := none

/-- An allocator deployed at time 0 in a world where the PSM 10 reports token 5. -/
def fresh : State Address where
  now := 0
  allocator :=
    { CONTRACT_ADMIN_ROLE := .governor, paused := false, MAX_RATE_LIMIT_PER_SECOND := 100,
      rateLimitPerSecond := 10, bufferCap := 1000, lastBufferUsedTime := 0, bufferStored := 1000,
      allPSMs := fun _ => .blank, pcvDepositToPSM := fun _ => 0 }
  world := 5
  events := []

theorem fresh_initial : Initial fresh := by
  have deployed : RateLimitedV2.deploy 0 100 10 1000 = .ok fresh.allocator.toRateLimitedV2 := by
    decide +kernel
  exact ⟨100, 10, 1000, bind_eq_ok.mpr ⟨_, deployed, rfl⟩⟩

/-- Deleting the link first keeps the tokens shared when the PSM comes back with another token. -/
theorem shares_tokens_iff_link_deleted :
    let governor := Context.withRoles 1 [.governor]
    let calls := [.connectPSM governor 10 100 ⟨0, by decide⟩, .connectDeposit governor 10 20,
      .disconnectPSM governor 10, .deleteDeposit governor 20, .environment 6,
      .connectPSM governor 10 100 ⟨0, by decide⟩]
    Along (step changingPSM) (fun _ _ next => SharesTokens (fun _ => 5) next.allocator) fresh calls := by
  intro governor calls
  have constant : ∀ call ∈ calls, DepositsConstant changingPSM (fun _ => 5) call := by
    simp [calls, DepositsConstant, changingPSM, eq_comm]
  have ok : (run (step changingPSM) fresh calls).isOk = true := by decide +kernel
  obtain ⟨t, success⟩ := exists_of_isOk ok
  apply (shares_tokens_iff fresh_initial constant success).mpr
  -- only the two connections of the PSM are conditional, and no deposit is linked at either
  have unlinked : (0 : Address) ≠ 10 := by decide
  rintro _ ⟨⟩
  refine ⟨fun token _ _ _ d linked => absurd linked unlinked, ?_⟩
  rintro _ ⟨⟩
  refine ⟨trivial, ?_⟩
  rintro _ ⟨⟩
  refine ⟨trivial, ?_⟩
  rintro _ ⟨⟩
  refine ⟨trivial, ?_⟩
  rintro _ ⟨⟩
  refine ⟨trivial, ?_⟩
  rintro _ ⟨⟩
  refine ⟨?_, trivial⟩
  intro token _ _ _ d linked
  change Function.update (Function.update (fun _ => (0 : Address)) 20 10) 20 0 d = 10 at linked
  rw [Function.update_idem] at linked
  by_cases same : d = 20
  · rw [same, Function.update_self] at linked
    exact absurd linked unlinked
  · rw [Function.update_of_ne same] at linked
    exact absurd linked unlinked

/-- A PSM that comes back with another token under an old link. -/
theorem not_shares_tokens :
    let governor := Context.withRoles 1 [.governor]
    let calls := [.connectPSM governor 10 100 ⟨0, by decide⟩, .connectDeposit governor 10 20,
      .disconnectPSM governor 10, .environment 6, .connectPSM governor 10 100 ⟨0, by decide⟩]
    (∀ call ∈ calls, DepositsConstant changingPSM (fun _ => 5) call) ∧
      ∃ t, run (step changingPSM) fresh calls = .ok t ∧ ¬ SharesTokens (fun _ => 5) t.allocator := by
  intro governor calls
  refine ⟨by simp [calls, DepositsConstant, changingPSM, eq_comm], _, rfl, ?_⟩
  intro shares
  exact absurd (shares 20) (by decide)

end VoltProtocol.AllocatorTokens
