import VoltProtocol.Machine.Run
import VoltProtocol.Model.ERC20Allocator

/-! # Runs of ERC20Allocator

One step is one transaction: a call of the allocator by any account, the passing of time, or a
transaction elsewhere that changes the tokens, PSMs and deposits in any way. The events of the
last call stay in the state, where the amounts it moved can be read off.
-/

namespace VoltProtocol.AllocatorSystem

open Machine ERC20Allocator

/-- The transactions the allocator takes part in or sees. -/
inductive Call (ω : Type) where
  | wait (seconds : ℕ)
  | environment (world : ω)
  | connectPSM (ctx : Context) (psm : Address) (psmTargetBalance : Uint 248) (decimalsNormalizer : SInt 8)
  | editPSMTargetBalance (ctx : Context) (psm : Address) (psmTargetBalance : Uint 248)
  | disconnectPSM (ctx : Context) (psm : Address)
  | connectDeposit (ctx : Context) (psm pcvDeposit : Address)
  | deleteDeposit (ctx : Context) (pcvDeposit : Address)
  | sweep (ctx : Context) (token recipient : Address) (amount : ℕ)
  | skim (pcvDeposit : Address)
  | drip (pcvDeposit : Address)
  | doAction (pcvDeposit : Address)
  | setRateLimitPerSecond (ctx : Context) (newRateLimitPerSecond : Uint 128)
  | setBufferCap (ctx : Context) (newBufferCap : Uint 128)
  | pause (ctx : Context)
  | unpause (ctx : Context)
  | setContractAdminRole (ctx : Context) (newContractAdminRole : Role)

/-- The time, the allocator, the contracts around it and the events of the last call. -/
structure State (ω : Type) where
  now : ℕ
  allocator : ERC20Allocator
  world : ω
  events : List Event

variable {ω : Type}

namespace State

/-- A call that only writes the storage of the allocator. -/
def write (s : State ω) (a : ERC20Allocator) : State ω := { s with allocator := a, events := [] }

/-- A setter of the rate limiter. -/
def writeLimiter (s : State ω) (limiter : RateLimitedV2) : State ω :=
  s.write { s.allocator with toRateLimitedV2 := limiter }

/-- A call of a function of CoreRef. -/
def writeCore (s : State ω) (c : CoreRef) : State ω := s.write { s.allocator with toCoreRef := c }

/-- An allocation. -/
def commit (s : State ω) (o : Outcome ω) : State ω :=
  { s with allocator := o.allocator, world := o.world, events := o.events }

end State

def step (contracts : Contracts ω) (s : State ω) : Call ω → Except Revert (State ω)
  | .wait seconds => .ok { s with now := s.now + seconds, events := [] }
  | .environment world => .ok { s with world, events := [] }
  | .connectPSM ctx psm target decimals =>
    s.write <$> s.allocator.connectPSM contracts ctx s.world psm target decimals
  | .editPSMTargetBalance ctx psm target =>
    s.write <$> s.allocator.editPSMTargetBalance contracts ctx s.world psm target
  | .disconnectPSM ctx psm => s.write <$> s.allocator.disconnectPSM ctx psm
  | .connectDeposit ctx psm pcvDeposit =>
    s.write <$> s.allocator.connectDeposit contracts ctx s.world psm pcvDeposit
  | .deleteDeposit ctx pcvDeposit => s.write <$> s.allocator.deleteDeposit ctx pcvDeposit
  | .sweep ctx token recipient amount =>
    (fun world => { s with world, events := [] }) <$>
      ERC20Allocator.sweep contracts ctx s.world token recipient amount
  | .skim pcvDeposit => s.commit <$> s.allocator.skim contracts s.now s.world pcvDeposit
  | .drip pcvDeposit => s.commit <$> s.allocator.drip contracts s.now s.world pcvDeposit
  | .doAction pcvDeposit => s.commit <$> s.allocator.doAction contracts s.now s.world pcvDeposit
  | .setRateLimitPerSecond ctx rate =>
    s.writeLimiter <$> s.allocator.setRateLimitPerSecond ctx s.now rate
  | .setBufferCap ctx cap => s.writeLimiter <$> s.allocator.setBufferCap ctx s.now cap
  | .pause ctx => s.writeCore <$> s.allocator.pause ctx
  | .unpause ctx => s.writeCore <$> s.allocator.unpause ctx
  | .setContractAdminRole ctx role => s.writeCore <$> s.allocator.setContractAdminRole ctx role

/-- A freshly deployed allocator, at any time and in any world. -/
def Initial (s : State ω) : Prop :=
  ∃ maxRateLimitPerSecond rateLimitPerSecond bufferCap,
    ERC20Allocator.deploy s.now maxRateLimitPerSecond rateLimitPerSecond bufferCap = .ok s.allocator

variable {contracts : Contracts ω} {s t : State ω}

theorem initial_spec (initial : Initial s) :
    (∃ maxRateLimitPerSecond rateLimitPerSecond bufferCap,
      RateLimitedV2.deploy s.now maxRateLimitPerSecond rateLimitPerSecond bufferCap =
        .ok s.allocator.toRateLimitedV2) ∧
      (∀ psm, s.allocator.allPSMs psm = .blank) ∧ ∀ d, s.allocator.pcvDepositToPSM d = 0 := by
  obtain ⟨maximum, rate, cap, deployed⟩ := initial
  simp only [ERC20Allocator.deploy, bind_eq_ok, pure_eq_ok] at deployed
  obtain ⟨limiter, fresh, written⟩ := deployed
  rw [← written]
  exact ⟨⟨maximum, rate, cap, fresh⟩, fun _ => rfl, fun _ => rfl⟩

/-! ### The three allocation functions -/

/-- The calls anyone can make to move PCV. -/
inductive Call.Allocates : Call ω → Address → Prop
  | skim (pcvDeposit : Address) : Allocates (.skim pcvDeposit) pcvDeposit
  | drip (pcvDeposit : Address) : Allocates (.drip pcvDeposit) pcvDeposit
  | doAction (pcvDeposit : Address) : Allocates (.doAction pcvDeposit) pcvDeposit

/-- What an allocation does to the state: it drips, it skims, or `doAction` found nothing to do. -/
inductive Allocated (contracts : Contracts ω) (s : State ω) (pcvDeposit : Address) : State ω → Prop
  | dripped (o : Outcome ω) (amount : ℕ)
      (drips : Drips contracts s.allocator s.now s.world pcvDeposit o amount) :
      Allocated contracts s pcvDeposit (s.commit o)
  | skimmed (o : Outcome ω) (amount : ℕ)
      (skims : Skims contracts s.allocator s.now s.world pcvDeposit o amount) :
      Allocated contracts s pcvDeposit (s.commit o)
  | idle : Allocated contracts s pcvDeposit { s with events := [] }

theorem allocated_of_step {call : Call ω} {pcvDeposit : Address}
    (allocates : call.Allocates pcvDeposit) (stepped : step contracts s call = .ok t) :
    Allocated contracts s pcvDeposit t := by
  cases allocates with
  | skim =>
    obtain ⟨o, skimmed, rfl⟩ := map_eq_ok.mp stepped
    obtain ⟨amount, skims⟩ := skim_spec skimmed
    exact .skimmed o amount skims
  | drip =>
    obtain ⟨o, dripped, rfl⟩ := map_eq_ok.mp stepped
    obtain ⟨amount, drips⟩ := drip_spec dripped
    exact .dripped o amount drips
  | doAction =>
    obtain ⟨o, acted, rfl⟩ := map_eq_ok.mp stepped
    rcases doAction_spec acted with ⟨amount, drips⟩ | ⟨amount, skims⟩ | rfl
    · exact .dripped o amount drips
    · exact .skimmed o amount skims
    · exact .idle

/-- Allocations write nothing but the rate limiter. -/
theorem Allocated.mappings {pcvDeposit : Address} (allocated : Allocated contracts s pcvDeposit t) :
    t.now = s.now ∧ t.allocator.allPSMs = s.allocator.allPSMs ∧
      t.allocator.pcvDepositToPSM = s.allocator.pcvDepositToPSM := by
  cases allocated with
  | dripped o amount drips =>
    obtain ⟨limiter, -, written⟩ := drips.charged
    rw [State.commit, written]
    exact ⟨rfl, rfl, rfl⟩
  | skimmed o amount skims =>
    obtain ⟨limiter, -, written⟩ := skims.credited
    rw [State.commit, written]
    exact ⟨rfl, rfl, rfl⟩
  | idle => exact ⟨rfl, rfl, rfl⟩

/-- The event of an allocation reports the amount of the one withdrawal that it makes. -/
theorem Allocated.withdrawn {pcvDeposit : Address} (allocated : Allocated contracts s pcvDeposit t) :
    (∃ amount, t.events = [.dripped amount (s.allocator.pcvDepositToPSM pcvDeposit)] ∧
      contracts.withdraw s.world pcvDeposit (s.allocator.pcvDepositToPSM pcvDeposit) amount = some t.world) ∨
    (∃ amount pulled, t.events = [.skimmed amount pcvDeposit] ∧
      contracts.withdraw s.world (s.allocator.pcvDepositToPSM pcvDeposit) pcvDeposit amount = some pulled ∧
        contracts.deposit pulled pcvDeposit = some t.world) ∨
    t.events = [] ∧ t.world = s.world := by
  cases allocated with
  | dripped o amount drips => exact .inl ⟨amount, drips.logged, drips.moved⟩
  | skimmed o amount skims =>
    obtain ⟨pulled, withdrawn, supplied⟩ := skims.moved
    exact .inr (.inl ⟨amount, pulled, skims.logged, withdrawn, supplied⟩)
  | idle => exact .inr (.inr ⟨rfl, rfl⟩)

/-! ### The calls that write the mappings -/

/-- The governor calls that write one of the two mappings. -/
def Call.connects : Call ω → Bool
  | .connectPSM .. | .editPSMTargetBalance .. | .disconnectPSM .. | .connectDeposit ..
  | .deleteDeposit .. => true
  | _ => false

/-- What such a call does to the allocator. -/
inductive Links (contracts : Contracts ω) (s : State ω) : Call ω → ERC20Allocator → Prop
  | connectPSM (ctx : Context) (psm : Address) (target : Uint 248) (decimals : SInt 8) (token : Address)
      (reported : contracts.balanceReportedIn s.world psm = some token)
      (free : (s.allocator.allPSMs psm).token = 0) :
      Links contracts s (.connectPSM ctx psm target decimals)
        { s.allocator with
          allPSMs := Function.update s.allocator.allPSMs psm ⟨token, target, decimals⟩ }
  | editPSMTargetBalance (ctx : Context) (psm : Address) (target : Uint 248) :
      Links contracts s (.editPSMTargetBalance ctx psm target)
        { s.allocator with
          allPSMs := Function.update s.allocator.allPSMs psm
            { s.allocator.allPSMs psm with targetBalance := target } }
  | disconnectPSM (ctx : Context) (psm : Address) :
      Links contracts s (.disconnectPSM ctx psm)
        { s.allocator with allPSMs := Function.update s.allocator.allPSMs psm .blank }
  | connectDeposit (ctx : Context) (psm pcvDeposit : Address)
      (reported : contracts.balanceReportedIn s.world pcvDeposit =
        some (s.allocator.allPSMs psm).token)
      (connected : (s.allocator.allPSMs psm).token ≠ 0) :
      Links contracts s (.connectDeposit ctx psm pcvDeposit)
        { s.allocator with
          pcvDepositToPSM := Function.update s.allocator.pcvDepositToPSM pcvDeposit psm }
  | deleteDeposit (ctx : Context) (pcvDeposit : Address) :
      Links contracts s (.deleteDeposit ctx pcvDeposit)
        { s.allocator with
          pcvDepositToPSM := Function.update s.allocator.pcvDepositToPSM pcvDeposit 0 }

theorem Links.limiter {call : Call ω} {a : ERC20Allocator} (links : Links contracts s call a) :
    a.toRateLimitedV2 = s.allocator.toRateLimitedV2 := by cases links <;> rfl

theorem links_of_step {call : Call ω} (connects : call.connects = true)
    (stepped : step contracts s call = .ok t) : ∃ a, Links contracts s call a ∧ t = s.write a := by
  cases call with
  | connectPSM ctx psm target decimals =>
    simp only [step, connectPSM, map_eq_ok, bind_eq_ok, external_eq_ok, require_eq_ok,
      pure_eq_ok] at stepped
    obtain ⟨_, ⟨_, -, token, reported, _, free, rfl⟩, rfl⟩ := stepped
    exact ⟨_, .connectPSM ctx psm target decimals token reported free, rfl⟩
  | editPSMTargetBalance ctx psm target =>
    simp only [step, editPSMTargetBalance, map_eq_ok, bind_eq_ok, pure_eq_ok] at stepped
    obtain ⟨_, ⟨_, -, _, -, _, -, _, -, rfl⟩, rfl⟩ := stepped
    exact ⟨_, .editPSMTargetBalance ctx psm target, rfl⟩
  | disconnectPSM ctx psm =>
    simp only [step, disconnectPSM, map_eq_ok, bind_eq_ok, pure_eq_ok] at stepped
    obtain ⟨_, ⟨_, -, rfl⟩, rfl⟩ := stepped
    exact ⟨_, .disconnectPSM ctx psm, rfl⟩
  | connectDeposit ctx psm pcvDeposit =>
    simp only [step, connectDeposit, map_eq_ok, bind_eq_ok, external_eq_ok, require_eq_ok,
      pure_eq_ok] at stepped
    obtain ⟨_, ⟨_, -, _, reported, _, rfl, _, connected, rfl⟩, rfl⟩ := stepped
    exact ⟨_, .connectDeposit ctx psm pcvDeposit reported connected, rfl⟩
  | deleteDeposit ctx pcvDeposit =>
    simp only [step, deleteDeposit, map_eq_ok, bind_eq_ok, pure_eq_ok] at stepped
    obtain ⟨_, ⟨_, -, rfl⟩, rfl⟩ := stepped
    exact ⟨_, .deleteDeposit ctx pcvDeposit, rfl⟩
  | _ => cases connects

/-- No other call writes the mappings. -/
theorem mappings_of_step {call : Call ω} (connects : call.connects = false)
    (stepped : step contracts s call = .ok t) :
    t.allocator.allPSMs = s.allocator.allPSMs ∧
      t.allocator.pcvDepositToPSM = s.allocator.pcvDepositToPSM := by
  cases call with
  | connectPSM | editPSMTargetBalance | disconnectPSM | connectDeposit | deleteDeposit => cases connects
  | wait seconds | environment world =>
    obtain rfl := Except.ok.inj stepped
    exact ⟨rfl, rfl⟩
  | skim pcvDeposit => exact (allocated_of_step (.skim pcvDeposit) stepped).mappings.2
  | drip pcvDeposit => exact (allocated_of_step (.drip pcvDeposit) stepped).mappings.2
  | doAction pcvDeposit => exact (allocated_of_step (.doAction pcvDeposit) stepped).mappings.2
  | sweep | setRateLimitPerSecond | setBufferCap | pause | unpause | setContractAdminRole =>
    obtain ⟨_, -, rfl⟩ := map_eq_ok.mp stepped
    exact ⟨rfl, rfl⟩

end VoltProtocol.AllocatorSystem
