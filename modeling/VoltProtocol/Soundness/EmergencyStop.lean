import VoltProtocol.Soundness.Evacuation
import VoltProtocol.Soundness.Solvency

/-! # What pausing the PSMs stops

Only redemptions take reserves out of the custody, and only mints take VOLT out of it or make more. So while one of
the two is stopped at all PSMs, what it could take stays, whatever accounts do whose roles only protect; and of
those accounts only a guardian can lift a pause. No price enters into it.
-/

namespace VoltProtocol.EmergencyStop

open Machine ProtocolSystem ProtocolBooks ProtocolCallers ProtocolSettings Solvency

variable {τ κ : Type} {d : Deployment} {e : Externals τ κ} {held : τ → Address → Address → ℕ} {supply : τ → ℕ}
  {depth : ℕ} {p q u v : Protocol τ} {call : Call κ} {custodians tokens : Finset Address}

/-! ### The flags -/

def stopsMint (psm : PegStabilityModule) : Bool := psm.paused || psm.mintPaused

def stopsRedeem (psm : PegStabilityModule) : Bool := psm.paused || psm.redeemPaused

/-- The functions that lift a pause of a PSM. -/
def lifts : PSMFunction → Bool
  | .unpause | .setMintPaused false | .setRedeemPaused false => true
  | _ => false

/-- Whatever was paused is paused. -/
structure Tighter (before after : PegStabilityModule) : Prop where
  paused : before.paused = true → after.paused = true
  mintPaused : before.mintPaused = true → after.mintPaused = true
  redeemPaused : before.redeemPaused = true → after.redeemPaused = true

theorem Tighter.stops {before after : PegStabilityModule} (tighter : Tighter before after) :
    (stopsMint before = true → stopsMint after = true) ∧ (stopsRedeem before = true → stopsRedeem after = true) := by
  simp only [stopsMint, stopsRedeem, Bool.or_eq_true]
  exact ⟨Or.imp tighter.paused tighter.mintPaused, Or.imp tighter.paused tighter.redeemPaused⟩

section PSM

open PegStabilityModule PegStabilitySystem

variable {ω : Type} {contracts : Contracts ω} {s t : PegStabilitySystem.State ω} {ctx : Context} {function : PSMFunction}

/-- Only the functions for it lift a pause. -/
theorem tighter_of_call (keeps : lifts function = false)
    (stepped : PegStabilitySystem.step contracts s (function.call ctx) = .ok t) : Tighter s.psm t.psm := by
  cases function with
  | mint recipient amountIn minAmountOut =>
    obtain ⟨o, minting, rfl⟩ := map_eq_ok.mp stepped
    obtain ⟨written, -⟩ := mint_limiter minting
    rw [PegStabilitySystem.State.commit, written]
    exact ⟨id, id, id⟩
  | redeem recipient amountFeiIn minAmountOut =>
    obtain ⟨o, redeeming, rfl⟩ := map_eq_ok.mp stepped
    obtain ⟨-, -, -, -, -, -, same, -⟩ := redeem_spec redeeming
    rw [PegStabilitySystem.State.commit, same]
    exact ⟨id, id, id⟩
  | setMintFee | setRedeemFee | setReservesThreshold | setSurplusTarget =>
    obtain ⟨_, written, rfl⟩ := map_eq_ok.mp stepped
    obtain ⟨_, -, written⟩ := bind_eq_ok.mp written
    obtain ⟨_, -, written⟩ := bind_eq_ok.mp written
    obtain rfl := pure_eq_ok.mp written
    exact ⟨id, id, id⟩
  | setOracleFloorBasisPoints | setOracleCeilingBasisPoints =>
    obtain ⟨_, written, rfl⟩ := map_eq_ok.mp stepped
    obtain ⟨_, -, written⟩ := bind_eq_ok.mp written
    obtain ⟨_, -, written⟩ := bind_eq_ok.mp written
    obtain ⟨_, -, written⟩ := bind_eq_ok.mp written
    obtain rfl := pure_eq_ok.mp written
    exact ⟨id, id, id⟩
  | setMintPaused paused =>
    obtain ⟨_, written, rfl⟩ := map_eq_ok.mp stepped
    obtain ⟨_, -, written⟩ := bind_eq_ok.mp written
    obtain rfl := pure_eq_ok.mp written
    cases paused
    · cases keeps
    · exact ⟨id, fun _ => rfl, id⟩
  | setRedeemPaused paused =>
    obtain ⟨_, written, rfl⟩ := map_eq_ok.mp stepped
    obtain ⟨_, -, written⟩ := bind_eq_ok.mp written
    obtain rfl := pure_eq_ok.mp written
    cases paused
    · cases keeps
    · exact ⟨id, id, fun _ => rfl⟩
  | pause =>
    obtain ⟨c, paused, rfl⟩ := map_eq_ok.mp stepped
    obtain ⟨-, -, rfl⟩ := pause_eq_ok.mp paused
    exact ⟨fun _ => rfl, id, id⟩
  | setContractAdminRole =>
    obtain ⟨c, written, rfl⟩ := map_eq_ok.mp stepped
    obtain ⟨_, -, written⟩ := bind_eq_ok.mp written
    obtain rfl := pure_eq_ok.mp written
    exact ⟨id, id, id⟩
  | unpause => cases keeps
  | _ =>
    obtain ⟨_, -, rfl⟩ := map_eq_ok.mp stepped
    exact ⟨id, id, id⟩

/-- A sender whose roles only protect, but who is no guardian, cannot lift a pause. -/
theorem not_lifts_of_call (protects : ctx.Protects) (plain : ctx.isGuardian ctx.sender = false)
    (admin : s.psm.CONTRACT_ADMIN_ROLE.protects = false)
    (stepped : PegStabilitySystem.step contracts s (function.call ctx) = .ok t) : lifts function = false := by
  have governs : ctx.isGovernor ctx.sender = false := protects.lacks .governor rfl
  cases function with
  | unpause =>
    obtain ⟨c, unpaused, -⟩ := map_eq_ok.mp stepped
    have held := (unpause_eq_ok.mp unpaused).1
    rw [governs, plain] at held
    cases held
  | setMintPaused | setRedeemPaused =>
    obtain ⟨_, written, -⟩ := map_eq_ok.mp stepped
    obtain ⟨_, checked, -⟩ := bind_eq_ok.mp written
    have held := require_eq_ok.mp checked
    rw [governs, plain, CoreRef.isContractAdmin, protects.lacks _ admin] at held
    cases held
  | _ => rfl

end PSM

/-- Something is stopped at all PSMs of the custody. -/
def Stopped (stops : PegStabilityModule → Bool) (custodians : Finset Address) (p : Protocol τ) : Prop :=
  ∀ a ∈ custodians, ∀ psm, p.pcv a = some (.psm psm) → stops psm = true

/-- No guardian calls for a pause of a PSM of the custody to be lifted. -/
def Quiet (custodians : Finset Address) (p : Protocol τ) (call : Call κ) : Prop :=
  ∀ a ∈ custodians, ∀ sender function, call = .psm a sender function → lifts function = true →
    p.roles.core.hasRole .guardian sender = false

theorem Stopped.withPCV {stops : PegStabilityModule → Bool} (stopped : Stopped stops custodians p) {a : Address}
    {contract : PCVContract} (stays : a ∈ custodians → ∀ psm, contract = .psm psm → stops psm = true) :
    Stopped stops custodians (p.withPCV a contract) := by
  intro b inside psm here
  by_cases address : b = a
  · subst address
    exact stays inside psm (Option.some.inj ((withPCV_pcv contract).symm.trans here))
  · exact stopped b inside psm ((withPCV_pcv_of_ne address).symm.trans here)

/-- What is stopped stays so, since an outsider lifts no pause. -/
theorem stopped_of_changes {stops : PegStabilityModule → Bool}
    (monotone : ∀ {before after}, Tighter before after → stops before = true → stops after = true)
    (kept : Kept p u) (administered : Administered u) (outside : Outside d custodians p call)
    (quiet : Quiet custodians p call) (stopped : Stopped stops custodians u) (changes : Changes d e depth u call v) :
    Stopped stops custodians v := by
  cases changes with
  | psm a sender function psm t token here called =>
    refine Stopped.withPCV stopped ?_
    intro inside after same
    obtain rfl := PCVContract.psm.inj same
    have keeps : lifts function = false := by
      rw [Bool.eq_false_iff]
      intro lifting
      have plain := not_member_of_contained kept.roles (quiet a inside sender function rfl lifting)
      have protects := (outside.1 sender rfl).1.context kept
      exact Bool.false_ne_true ((not_lifts_of_call protects plain (administered a psm here) called).symm.trans lifting)
    exact monotone (tighter_of_call keeps called) (stopped a inside psm here)
  | depositCore => exact stopped.withPCV fun _ _ other => by cases other
  | deployPSM a | deployDeposit a =>
    exact stopped.withPCV fun inside => absurd rfl (outside.2 a inside)
  | _ => exact stopped

/-! ### What stays -/

/-- The custodians lose none of their tokens but VOLT. -/
def KeepsReserves (held : τ → Address → Address → ℕ) (volt : Address) (custodians : Finset Address) (t u : τ) : Prop :=
  ∀ token, token ≠ volt → custody held custodians t token ≤ custody held custodians u token

/-- The custodians lose no VOLT, and none is made. -/
structure KeepsVolt (held : τ → Address → Address → ℕ) (supply : τ → ℕ) (volt : Address) (custodians : Finset Address)
    (t u : τ) : Prop where
  custody : custody held custodians t volt ≤ custody held custodians u volt
  supply : supply u ≤ supply t

/-- What stays while redemptions are stopped, and what stays while mints are. -/
structure Stays (d : Deployment) (held : τ → Address → Address → ℕ) (supply : τ → ℕ) (custodians : Finset Address)
    (p q : Protocol τ) : Prop where
  reserves : Stopped stopsRedeem custodians p → KeepsReserves held d.volt custodians p.tokens q.tokens
  volt : Stopped stopsMint custodians p → KeepsVolt held supply d.volt custodians p.tokens q.tokens

theorem stays_of_preserves (preserves : Preserves held supply custodians p.tokens q.tokens) :
    Stays d held supply custodians p q where
  reserves _ token _ := preserves.custody token
  volt _ := ⟨preserves.custody d.volt, preserves.supply⟩

section Trades

variable {psm : PegStabilityModule} {a sender recipient : Address} {amount minAmountOut now : ℕ}
  {o : PegStabilityModule.Outcome (Protocol τ)}

theorem unstopped_of_mint
    (success : psm.mint (psmContracts d e depth) now u sender recipient amount minAmountOut = .ok o) :
    stopsMint psm = false := by
  obtain ⟨_, running, success⟩ := bind_eq_ok.mp success
  obtain ⟨_, minting, -⟩ := bind_eq_ok.mp success
  rw [stopsMint, Bool.or_eq_false_iff, ← Bool.not_eq_true', ← Bool.not_eq_true']
  exact ⟨require_eq_ok.mp running, require_eq_ok.mp minting⟩

theorem unstopped_of_redeem
    (success : psm.redeem (psmContracts d e depth) u sender recipient amount minAmountOut = .ok o) :
    stopsRedeem psm = false := by
  obtain ⟨_, running, success⟩ := bind_eq_ok.mp success
  obtain ⟨_, redeeming, -⟩ := bind_eq_ok.mp success
  rw [stopsRedeem, Bool.or_eq_false_iff, ← Bool.not_eq_true', ← Bool.not_eq_true']
  exact ⟨require_eq_ok.mp running, require_eq_ok.mp redeeming⟩

/-- A mint takes no reserves. -/
theorem stays_of_mint (exact : Exact d.volt e held supply) (here : u.pcv a = some (.psm psm)) (inside : a ∈ custodians)
    (volt : psm.volt = d.volt) (outside : sender ∉ custodians)
    (success : psm.mint (psmContracts d e depth) now u sender recipient amount minAmountOut = .ok o) :
    Stays d held supply custodians u o.world where
  reserves _ token other := by
    obtain ⟨paid, sent, given, flows⟩ := mint_flows custodians exact volt success
    rw [flows.others token other, flows.gives.elsewhere other]
    exact flows.pays.keeps (fun inside : sender ∈ custodians => absurd inside outside) token
  volt stopped := by cases (stopped a inside psm here).symm.trans (unstopped_of_mint success)

/-- A redemption takes no VOLT. -/
theorem stays_of_redeem (exact : Exact d.volt e held supply) (here : u.pcv a = some (.psm psm)) (inside : a ∈ custodians)
    (volt : psm.volt = d.volt) (separate : psm.underlyingToken ≠ d.volt) (outside : sender ∉ custodians)
    (success : psm.redeem (psmContracts d e depth) u sender recipient amount minAmountOut = .ok o) :
    Stays d held supply custodians u o.world where
  reserves stopped := by cases (stopped a inside psm here).symm.trans (unstopped_of_redeem success)
  volt _ := by
    obtain ⟨paid, pays, unraised, gives, same⟩ := redeem_flows exact volt success
    refine ⟨?_, (same.trans unraised).le⟩
    rw [gives.elsewhere separate.symm]
    exact pays.keeps (fun inside : sender ∈ custodians => absurd inside outside) d.volt

end Trades

/-- A transaction of an outsider takes only what the trades that are not stopped take. -/
theorem stays_of_changes (exact : Exact d.volt e held supply) (placed : Placed d u)
    (closed : Closed d custodians tokens u) (kept : Kept p u) (outside : Outside d custodians p call)
    (spares : Spares held custodians u call v) (changes : Changes d e depth u call v) :
    Stays d held supply custodians u v := by
  cases changes with
  | token transaction token transacted => exact stays_of_preserves ⟨spares, exact.transact transacted⟩
  | volt sender function volt called =>
    obtain ⟨protector, elsewhere⟩ := outside.1 sender rfl
    exact stays_of_preserves (preserves_of_volt exact (protector.context kept) elsewhere called)
  | psm a sender function psm t token here called world =>
    obtain ⟨protector, elsewhere⟩ := outside.1 sender rfl
    have volt : psm.volt = d.volt := placed.volt a psm here
    have self : psm.self = a := placed.self a _ here
    have stays : Stays d held supply custodians u t.world := by
      cases function with
      | mint recipient amountIn minAmountOut =>
        obtain ⟨o, minting, rfl⟩ := map_eq_ok.mp called
        by_cases inside : a ∈ custodians
        · exact stays_of_mint exact here inside volt elsewhere minting
        · have unminting := unminting_of_closed closed placed here inside
          exact stays_of_preserves (preserves_of_mint exact volt (self ▸ inside) elsewhere unminting minting)
      | redeem recipient amountFeiIn minAmountOut =>
        obtain ⟨o, redeeming, rfl⟩ := map_eq_ok.mp called
        by_cases inside : a ∈ custodians
        · have separate : psm.underlyingToken ≠ d.volt :=
            fun same => closed.separate (same ▸ closed.traded a inside psm here)
          exact stays_of_redeem exact here inside volt separate elsewhere redeeming
        · exact stays_of_preserves (preserves_of_redeem exact volt (self ▸ inside) elsewhere redeeming)
      | _ =>
        exact stays_of_preserves
          (safe_of_psm exact placed closed.targets here (protector.context kept) rfl called).tokens
    rw [world] at stays
    exact ⟨stays.reserves, stays.volt⟩
  | deposit a sender function deposit token here called =>
    obtain ⟨protector, -⟩ := outside.1 sender rfl
    obtain same | ⟨paused, same⟩ := depositStep_protects (protector.context kept) called
    · exact stays_of_preserves (same ▸ .refl _)
    · exact stays_of_preserves (same ▸ .refl _)
  | allocator sender function t token called world =>
    obtain ⟨protector, -⟩ := outside.1 sender rfl
    have safe := safe_of_allocator exact placed closed (protector.context kept) called
    rw [world] at safe
    exact stays_of_preserves safe.tokens
  | withdrawal sender function a token may listed withdrawn =>
    exact stays_of_preserves (safe_of_withdrawn exact closed.safeAddress withdrawn).tokens
  | _ => exact stays_of_preserves (.refl _)

/-! ### Runs -/

/-- If redemptions are stopped, outsiders take no reserves out of the custody, and if mints are stopped, they take no
VOLT out of it and make none, whatever they call and in whatever order, and what is stopped stays so, as long as no
guardian among them lifts a pause. -/
theorem stopped_keeps {calls : List (Call κ)} (exact : Exact d.volt e held supply)
    (reached : Reachable (step d e depth) Initial p)
    (setup : GuardianPowers.Setup d.core d.guardAdmin p.roles.core.toPermissions)
    (initialized : p.roles.core.initialized = true) (administered : Administered p)
    (closed : Closed d custodians tokens p) (outside : ∀ call ∈ calls, Outside d custodians p call)
    (quiet : ∀ call ∈ calls, Quiet custodians p call) (spares : Along (step d e depth) (Spares held custodians) p calls)
    (success : run (step d e depth) p calls = .ok q) :
    (Stopped stopsRedeem custodians p →
      Stopped stopsRedeem custodians q ∧ KeepsReserves held d.volt custodians p.tokens q.tokens) ∧
    (Stopped stopsMint custodians p →
      Stopped stopsMint custodians q ∧ KeepsVolt held supply d.volt custodians p.tokens q.tokens) := by
  let Inv (u : Protocol τ) : Prop := Sound d custodians p u ∧
    (Stopped stopsRedeem custodians p →
      Stopped stopsRedeem custodians u ∧ KeepsReserves held d.volt custodians p.tokens u.tokens) ∧
    (Stopped stopsMint custodians p →
      Stopped stopsMint custodians u ∧ KeepsVolt held supply d.volt custodians p.tokens u.tokens)
  have preserved (state : Protocol τ) (call : Call κ) (next : Protocol τ)
      (allowed : Outside d custodians p call ∧ Quiet custodians p call) (spares : Spares held custodians state call next)
      (inv : Inv state) (stepped : step d e depth state call = .ok next) : Inv next := by
    obtain ⟨outside, quiet⟩ := allowed
    obtain ⟨sound, reserves, volt⟩ := inv
    have changes := changes_of_step stepped
    have stays := stays_of_changes exact sound.placed (closed.kept sound.kept sound.vacant) sound.kept outside spares
      changes
    refine ⟨sound_of_step setup outside sound stepped, ?_, ?_⟩
    · intro stopped
      obtain ⟨still, kept⟩ := reserves stopped
      exact ⟨stopped_of_changes (fun tighter => tighter.stops.2) sound.kept sound.administered outside quiet still changes,
        fun token other => (kept token other).trans (stays.reserves still token other)⟩
    · intro stopped
      obtain ⟨still, kept⟩ := volt stopped
      have more := stays.volt still
      exact ⟨stopped_of_changes (fun tighter => tighter.stops.1) sound.kept sound.administered outside quiet still changes,
        kept.custody.trans more.custody, more.supply.trans kept.supply⟩
  have start : Inv p := ⟨⟨placed_of_reachable reached, .refl initialized, administered, fun _ _ empty => empty⟩,
    fun stopped => ⟨stopped, fun _ _ => le_rfl⟩, fun stopped => ⟨stopped, le_rfl, le_rfl⟩⟩
  have allowed : ∀ call ∈ calls, Outside d custodians p call ∧ Quiet custodians p call :=
    fun call member => ⟨outside call member, quiet call member⟩
  exact (run_invariant_along preserved allowed spares start success).2

/-! ### An example -/

section Alarm

variable {p : Protocol Books}

/-- A PCV guard withdraws from the paused PSM, the allocator refills it, a guardian stops its mints too, and a user
burns VOLT. -/
def drill : List (Call Payment) :=
  [.guardian 3 (.withdrawToSafeAddress 1006 (10 ^ 19)), .allocator 7 (.doAction 1008), .wait 100,
    .psm 1006 2 (.setMintPaused true), .volt 4 (.burn 5), .psm 1006 7 .deposit]

/-- What the alarm leaves behind. -/
structure Alarmed (p q : Protocol Books) : Prop where
  sound : Sound addresses treasury p q
  staffed : Staffed q
  paused : ∀ psm, q.pcv 1006 = some (.psm psm) → psm.paused = true

theorem alarmed_of_run (launched : Launched p) {q : Protocol Books} (success : run system p Evacuation.alarm = .ok q) :
    Alarmed p q := by
  constructor
  · have sent : ∀ call ∈ Evacuation.alarm, SentBy (· ∈ [2, 3, 4, 7]) call ∧ deploymentOf call = none := by
      simp only [Evacuation.alarm, List.forall_mem_cons, SentBy, senderOf]
      simp [deploymentOf]
    have preserved (state : Protocol Books) (call : Call Payment) (next : Protocol Books)
        (sent : SentBy (· ∈ [2, 3, 4, 7]) call ∧ deploymentOf call = none) (sound : Sound addresses treasury p state)
        (stepped : system state call = .ok next) : Sound addresses treasury p next :=
      sound_of_step launched.setup (outside_of_sent launched sent.1 sent.2) sound stepped
    exact run_invariant preserved sent (sound_refl launched) success
  · have others : ∀ call ∈ Evacuation.alarm, ∀ c, call ≠ .roles c := by simp [Evacuation.alarm]
    exact run_invariant (fun _ _ _ => staffed_of_step) others launched.staffed success
  · simp only [Evacuation.alarm, run_cons_ok, run_nil_ok] at success
    obtain ⟨first, -, second, -, third, stepped, rfl⟩ := success
    cases changes_of_step stepped with
    | psm _ _ _ psm t token here called world =>
    obtain ⟨c, pausing, rfl⟩ := map_eq_ok.mp called
    obtain ⟨-, -, rfl⟩ := pause_eq_ok.mp pausing
    intro after found
    obtain rfl := PCVContract.psm.inj (Option.some.inj ((withPCV_pcv _).symm.trans found))
    rfl

theorem Alarmed.stopped {q : Protocol Books} (launched : Launched p) (alarmed : Alarmed p q)
    {stops : PegStabilityModule → Bool} (ofPaused : ∀ psm, psm.paused = true → stops psm = true) :
    Stopped stops treasury q := by
  intro a inside psm here
  obtain rfl := psm_of_sound launched alarmed.sound inside here
  exact ofPaused psm (alarmed.paused psm here)

/-- After the alarm, reserves go to the safe address and back to the PSM, VOLT is burnt, and no reserves are lost. -/
theorem stopped_keeps_drill : ∃ p q, Reachable system Initial p ∧ run system p drill = .ok q ∧
    (Stopped stopsRedeem treasury q ∧ KeepsReserves Books.held 1002 treasury p.tokens q.tokens) ∧
      Stopped stopsMint treasury q ∧ KeepsVolt Books.held Books.supply 1002 treasury p.tokens q.tokens := by
  have all : (run system blank ((launch ++ Evacuation.alarm) ++ drill)).isOk = true := by decide +kernel
  obtain ⟨q, success⟩ := exists_of_isOk all
  obtain ⟨p, before, drilled⟩ := run_append_ok.mp success
  obtain ⟨start, first, alarm⟩ := run_append_ok.mp before
  have launched := launched_of_run first
  have alarmed := alarmed_of_run launched alarm
  have reached : Reachable system Initial p := ⟨blank, _, blank_initial, before⟩
  have roles : p.roles = start.roles := alarmed.staffed.trans launched.staffed.symm
  have setup : GuardianPowers.Setup 1000 1001 p.roles.core.toPermissions := roles ▸ launched.setup
  have initialized : p.roles.core.initialized = true := roles ▸ launched.initialized
  have closed := (closed_launched launched).kept alarmed.sound.kept alarmed.sound.vacant
  have outside : ∀ call ∈ drill, Outside addresses treasury p call := by
    have sent : ∀ call ∈ drill, SentBy (· ∈ [2, 3, 4, 7]) call ∧ deploymentOf call = none := by
      simp only [drill, List.forall_mem_cons, SentBy, senderOf]
      simp [deploymentOf]
    intro call member
    obtain ⟨sent, undeployed⟩ := sent call member
    obtain ⟨outsiders, vacant⟩ := outside_of_sent launched sent undeployed
    exact ⟨outsiders.mono fun _ outsider => ⟨outsider.1.kept alarmed.sound.kept, outsider.2⟩, vacant⟩
  have quiet : ∀ call ∈ drill, Quiet treasury p call := by
    simp [drill, Quiet, lifts]
  have untouched : ∀ call ∈ drill, ∀ transaction, call ≠ .token transaction := by simp [drill]
  obtain ⟨reserves, volt⟩ := stopped_keeps (tables_exact 1002) reached setup initialized alarmed.sound.administered
    closed outside quiet (spares_of_quiet untouched) drilled
  refine ⟨p, q, reached, drilled, reserves ?_, volt ?_⟩
  · exact alarmed.stopped launched fun psm paused => by rw [stopsRedeem, paused, Bool.true_or]
  · exact alarmed.stopped launched fun psm paused => by rw [stopsMint, paused, Bool.true_or]

end Alarm

end VoltProtocol.EmergencyStop
