import VoltProtocol.Model.Volt
import VoltProtocol.Soundness.SignatureReplay

/-! # Permits of Volt and the chain they are for

Volt hashes its domain separator once, at deployment. A permit is accepted at most once in every run, but
on whatever chain the run has come to: a permit for the chain of the deployment is good on both sides of
a split, and one for the new chain on neither. Vcon hashes the current chain id into each digest.
-/

namespace VoltProtocol.VoltPermits

open Machine Volt

/-- The transactions of Volt, and later blocks. The chain id may change with a block. -/
inductive Call (κ : Type) where
  | nextBlock (blocks seconds chainid : ℕ)
  | permit (owner spender : Address) (value deadline v r s : ℕ)
  | mint (ctx : Context) (account : Address) (amount : ℕ)
  | burn (sender : Address) (amount : ℕ)
  | transact (call : κ)
  | pause (ctx : Context)
  | unpause (ctx : Context)
  | setContractAdminRole (ctx : Context) (newContractAdminRole : Role)

structure State (τ : Type) where
  block : Block
  volt : Volt τ

variable {τ κ : Type}

/-- A call that replaces the contract's storage. -/
def State.write (s : State τ) (volt : Volt τ) : State τ := { s with volt }

/-- A call of CoreRef. -/
def State.setCore (s : State τ) (toCoreRef : CoreRef) : State τ := s.write { s.volt with toCoreRef }

def step (inherited : InheritedERC20 τ κ) (crypto : Crypto) (s : State τ) :
    Call κ → Except Revert (State τ)
  | .nextBlock blocks seconds chainid =>
    .ok { s with block := ⟨s.block.number + blocks, s.block.timestamp + seconds, chainid⟩ }
  | .permit owner spender value deadline v r sig =>
    s.write <$> s.volt.permit inherited crypto s.block owner spender value deadline v r sig
  | .mint ctx account amount => s.write <$> s.volt.mint inherited ctx account amount
  | .burn sender amount => s.write <$> s.volt.burn inherited sender amount
  | .transact call => s.write <$> s.volt.transact inherited call
  | .pause ctx => s.setCore <$> s.volt.pause ctx
  | .unpause ctx => s.setCore <$> s.volt.unpause ctx
  | .setContractAdminRole ctx role => s.setCore <$> s.volt.setContractAdminRole ctx role

/-- What an account signs for Volt, with the domain it signs it for. -/
structure Permit where
  chainid : ℕ
  contract : Address
  owner : Address
  spender : Address
  value : ℕ
  nonce : ℕ
  deadline : ℕ

/-- The hash of the permit in the domain of the contract on its chain. -/
def Permit.digest (crypto : Crypto) (p : Permit) : ℕ :=
  crypto.keccakTypedData (domainSeparator crypto p.chainid p.contract)
    (crypto.keccakWords [PERMIT_TYPEHASH, p.owner.val, p.spender.val, p.value, p.nonce, p.deadline])

/-- A permit that was accepted: from whom, the nonce, the digest, and in which block. -/
structure Acceptance where
  signer : Address
  nonce : ℕ
  digest : ℕ
  block : Block

/-- The permit that a call presents. -/
def acceptance (crypto : Crypto) (s : State τ) : Call κ → Option Acceptance
  | .permit owner spender value deadline .. =>
    some ⟨owner, s.volt.nonces owner, s.volt.permitDigest crypto owner spender value deadline, s.block⟩
  | _ => none

/-- The permits accepted when all calls are tried in order. -/
def permits (inherited : InheritedERC20 τ κ) (crypto : Crypto) (s : State τ) (calls : List (Call κ)) :
    List Acceptance :=
  noted (step inherited crypto) (acceptance crypto) s calls

variable {inherited : InheritedERC20 τ κ} {crypto : Crypto} {self : Address} {s t source : State τ}
  {call : Call κ} {calls : List (Call κ)} {note : Acceptance} {signed : Address → ℕ → Prop}

/-! ### One call -/

/-- The domain separator never changes, and a call that presents no permit uses no nonce. -/
theorem step_frame (stepped : step inherited crypto s call = .ok t) :
    t.volt.DOMAIN_SEPARATOR = s.volt.DOMAIN_SEPARATOR ∧
      (acceptance crypto s call = none → t.volt.nonces = s.volt.nonces) := by
  cases call with
  | nextBlock blocks seconds chainid =>
    obtain rfl := Except.ok.inj stepped
    exact ⟨rfl, fun _ => rfl⟩
  | permit owner spender value deadline v r sig =>
    obtain ⟨volt, permitted, rfl⟩ := map_eq_ok.mp stepped
    obtain ⟨-, -, -, separator, -⟩ := permit_spec permitted
    exact ⟨separator, fun none => by cases none⟩
  | mint ctx account amount =>
    obtain ⟨volt, minted, rfl⟩ := map_eq_ok.mp stepped
    exact (mint_frame minted).imp_right fun nonces _ => nonces
  | burn sender amount =>
    obtain ⟨volt, burned, rfl⟩ := map_eq_ok.mp stepped
    exact (burn_frame burned).imp_right fun nonces _ => nonces
  | transact call =>
    obtain ⟨volt, transacted, rfl⟩ := map_eq_ok.mp stepped
    exact (transact_frame transacted).imp_right fun nonces _ => nonces
  | _ =>
    obtain ⟨core, -, rfl⟩ := map_eq_ok.mp stepped
    exact ⟨rfl, fun _ => rfl⟩

/-- A permit that is accepted uses up the signer's next nonce. -/
theorem nonces_of_some (stepped : step inherited crypto s call = .ok t)
    (presented : acceptance crypto s call = some note) : note.nonce = s.volt.nonces note.signer ∧
      t.volt.nonces = Function.update s.volt.nonces note.signer (s.volt.nonces note.signer + 1) := by
  cases call with
  | permit owner spender value deadline v r sig =>
    obtain ⟨volt, permitted, rfl⟩ := map_eq_ok.mp stepped
    obtain rfl := Option.some.inj presented
    obtain ⟨-, -, -, -, nonces⟩ := permit_spec permitted
    exact ⟨rfl, nonces⟩
  | _ => cases presented

/-- What a permit fulfils when it is accepted: it was signed over the domain of the deployment. -/
def Valid (crypto : Crypto) (self : Address) (signed : Address → ℕ → Prop) (chainid : ℕ)
    (note : Acceptance) : Prop :=
  signed note.signer note.digest ∧ ∃ permit : Permit, permit.digest crypto = note.digest ∧
    permit.owner = note.signer ∧ permit.nonce = note.nonce ∧ permit.contract = self ∧
    note.block.timestamp ≤ permit.deadline ∧ permit.chainid = chainid

theorem valid_of_accepted {chainid : ℕ} (ideal : Ideal crypto (Permit.digest crypto) signed)
    (domain : s.volt.DOMAIN_SEPARATOR = domainSeparator crypto chainid self)
    (stepped : step inherited crypto s call = .ok t) (presented : acceptance crypto s call = some note) :
    Valid crypto self signed chainid note := by
  cases call with
  | permit owner spender value deadline v r sig =>
    obtain ⟨volt, permitted, -⟩ := map_eq_ok.mp stepped
    obtain rfl := Option.some.inj presented
    obtain ⟨timely, nonzero, recovered, -⟩ := permit_spec permitted
    have authentic := ideal.unforgeable _ v r sig (recovered.trans_ne nonzero)
    rw [recovered] at authentic
    refine ⟨authentic, ⟨chainid, self, owner, spender, value, s.volt.nonces owner, deadline⟩, ?_⟩
    refine ⟨?_, rfl, rfl, rfl, timely, rfl⟩
    rw [permitDigest, domain]
    rfl
  | _ => cases presented

/-! ### Every run -/

/-- A newly deployed contract. -/
def Initial (crypto : Crypto) (self : Address) (s : State τ) : Prop :=
  ∃ token, s.volt = Volt.deploy crypto s.block self token

theorem acceptances_numbered (inherited : InheritedERC20 τ κ) (calls : List (Call κ))
    (start : Initial crypto self source) :
    Numbered Acceptance.signer Acceptance.nonce (attempts (step inherited crypto) source calls).volt.nonces
      (permits inherited crypto source calls) := by
  obtain ⟨token, deployed⟩ := start
  apply noted_numbered fun state : State τ => state.volt.nonces
  · exact fun state call next stepped none => (step_frame stepped).2 none
  · exact fun state call next note stepped presented => nonces_of_some stepped presented
  · intro key
    rw [deployed]
    rfl

/-- Whatever the chain is now, every permit that is accepted was signed for the chain of the
deployment. -/
theorem acceptances_valid (inherited : InheritedERC20 τ κ) (calls : List (Call κ))
    (ideal : Ideal crypto (Permit.digest crypto) signed) (start : Initial crypto self source) :
    ∀ note ∈ permits inherited crypto source calls, Valid crypto self signed source.block.chainid note := by
  obtain ⟨token, deployed⟩ := start
  have each (state : State τ) (call : Call κ) (next : State τ)
      (domain : state.volt.DOMAIN_SEPARATOR = domainSeparator crypto source.block.chainid self)
      (stepped : step inherited crypto state call = .ok next) :
      next.volt.DOMAIN_SEPARATOR = domainSeparator crypto source.block.chainid self ∧ ∀ note,
        acceptance crypto state call = some note → Valid crypto self signed source.block.chainid note := by
    refine ⟨(step_frame stepped).1.trans domain, fun note presented => ?_⟩
    exact valid_of_accepted ideal domain stepped presented
  have fresh : source.volt.DOMAIN_SEPARATOR = domainSeparator crypto source.block.chainid self := by
    rw [deployed]
    rfl
  exact forall_mem_noted each fresh

/-- No digest is accepted twice. -/
theorem acceptances_nodup (ideal : Ideal crypto (Permit.digest crypto) signed)
    (start : Initial crypto self source) :
    ((permits inherited crypto source calls).map Acceptance.digest).Nodup := by
  have distinct := (acceptances_numbered inherited calls start).nodup
  have valid := acceptances_valid inherited calls ideal start
  apply List.pairwise_map.mpr
  apply (List.pairwise_map.mp distinct).imp_of_mem
  intro first second firstIn secondIn distinct same
  obtain ⟨-, one, hashed, owner, nonce, -⟩ := valid first firstIn
  obtain ⟨-, other, hashed', owner', nonce', -⟩ := valid second secondIn
  obtain rfl := ideal.distinct (hashed.trans (same.trans hashed'.symm))
  exact distinct (Prod.ext (owner.symm.trans owner') (nonce.symm.trans nonce'))

/-! ### Two chains after a split -/

/-- After `calls`, the chain goes on in two ways. On both, each permit is accepted once and was signed
over the domain of the chain that accepts it, and none is accepted on both under different chain ids. -/
structure BoundToChain (inherited : InheritedERC20 τ κ) (crypto : Crypto) (signed : Address → ℕ → Prop)
    (source : State τ) (calls left right : List (Call κ)) : Prop where
  once : ∀ side ∈ [left, right],
    ((permits inherited crypto source (calls ++ side)).map Acceptance.digest).Nodup
  current : ∀ side ∈ [left, right], ∀ note ∈ permits inherited crypto source (calls ++ side),
    signed note.signer note.digest ∧
      ∃ permit : Permit, permit.digest crypto = note.digest ∧ permit.chainid = note.block.chainid
  apart : ∀ one ∈ permits inherited crypto (attempts (step inherited crypto) source calls) left,
    ∀ other ∈ permits inherited crypto (attempts (step inherited crypto) source calls) right,
      one.block.chainid ≠ other.block.chainid → one.digest ≠ other.digest

/-- What is accepted on one side of a split is accepted in the whole run on that side. -/
theorem mem_permits_append {side : List (Call κ)}
    (member : note ∈ permits inherited crypto (attempts (step inherited crypto) source calls) side) :
    note ∈ permits inherited crypto source (calls ++ side) := by
  rw [permits, noted_append]
  exact List.mem_append_right _ member

/-- Permits are bound to the current chain exactly in the runs that accept permits only on the chain
of the deployment. -/
theorem boundToChain_iff {left right : List (Call κ)} (ideal : Ideal crypto (Permit.digest crypto) signed)
    (start : Initial crypto self source) :
    BoundToChain inherited crypto signed source calls left right ↔
      ∀ side ∈ [left, right], ∀ note ∈ permits inherited crypto source (calls ++ side),
        note.block.chainid = source.block.chainid := by
  constructor
  · intro bound side sideIn note member
    obtain ⟨-, current, hashed, chainid⟩ := bound.current side sideIn note member
    obtain ⟨-, deployed, hashed', -, -, -, -, chainid'⟩ := acceptances_valid inherited (calls ++ side) ideal start note member
    obtain rfl := ideal.distinct (hashed.trans hashed'.symm)
    exact chainid.symm.trans chainid'
  · intro home
    refine ⟨fun _ _ => acceptances_nodup ideal start, ?_, ?_⟩
    · intro side sideIn note member
      obtain ⟨authentic, permit, hashed, -, -, -, -, chainid⟩ := acceptances_valid inherited (calls ++ side) ideal start note member
      exact ⟨authentic, permit, hashed, chainid.trans (home side sideIn note member).symm⟩
    · intro one oneIn other otherIn different
      have here := home left (by simp) one (mem_permits_append oneIn)
      have there := home right (by simp) other (mem_permits_append otherIn)
      exact absurd (here.trans there.symm) different

/-- The part of an ERC20 token that permits write. -/
def allowances : InheritedERC20 (Address → Address → ℕ) Empty where
  approve token owner spender value := do
    require (owner ≠ 0) "ERC20: approve from the zero address"
    require (spender ≠ 0) "ERC20: approve to the zero address"
    return Function.update token owner (Function.update (token owner) spender value)
  mint token _ _ := .ok token
  burn token _ _ := .ok token
  transact _ call := call.elim

theorem pairing_digest_injective (recover : ℕ → Address) :
    Function.Injective (Permit.digest (pairing recover)) := by
  intro first second same
  obtain ⟨domains, structs⟩ := (pairing_keccakTypedData_inj recover).mp same
  have domain := pairing_keccakWords_injective recover domains
  have struct := pairing_keccakWords_injective recover structs
  simp only [List.cons.injEq, ← Fin.ext_iff] at domain struct
  obtain ⟨-, -, -, chainid, contract, -⟩ := domain
  obtain ⟨-, owner, spender, value, nonce, deadline, -⟩ := struct
  cases first
  cases second
  simp_all

/-- Volt is deployed on chain 1 and account 7 signs one permit. It is accepted on both sides when the
chain splits and one side takes the chain id 2. -/
theorem not_boundToChain_split :
    let permit : Permit := ⟨1, 9, 7, 3, 500, 0, 2000⟩
    let recover hash := if hash = permit.digest (pairing fun _ => 0) then 7 else 0
    let block : Block := ⟨100, 1000, 1⟩
    let source : State (Address → Address → ℕ) :=
      ⟨block, Volt.deploy (pairing recover) block 9 fun _ _ => 0⟩
    Ideal (pairing recover) (Permit.digest (pairing recover)) (fun account hash => recover hash = account) ∧
      Initial (pairing recover) 9 source ∧
      ¬ BoundToChain allowances (pairing recover) (fun account hash => recover hash = account) source []
        [.permit 7 3 500 2000 27 0 0] [.nextBlock 1 12 2, .permit 7 3 500 2000 27 0 0] := by
  intro permit recover block source
  refine ⟨⟨fun _ _ _ _ _ => rfl, pairing_digest_injective recover⟩, ⟨_, rfl⟩, fun bound => ?_⟩
  have here : ∃ note ∈ permits allowances (pairing recover) source [.permit 7 3 500 2000 27 0 0],
      note.block.chainid = 1 ∧ note.digest = permit.digest (pairing fun _ => 0) := by decide +kernel
  have there : ∃ note ∈ permits allowances (pairing recover) source
      [.nextBlock 1 12 2, .permit 7 3 500 2000 27 0 0],
      note.block.chainid = 2 ∧ note.digest = permit.digest (pairing fun _ => 0) := by decide +kernel
  obtain ⟨one, oneIn, first, hashed⟩ := here
  obtain ⟨other, otherIn, second, hashed'⟩ := there
  exact bound.apart one oneIn other otherIn (by omega) (hashed.trans hashed'.symm)

/-- Two permits of account 7, one accepted before a block on the same chain and one after it. The other
side of the split takes the chain id 2 and accepts none. -/
theorem boundToChain_iff_same_chain :
    let first : Permit := ⟨1, 9, 7, 3, 500, 0, 2000⟩
    let second : Permit := ⟨1, 9, 7, 3, 40, 1, 2000⟩
    let hashes := [first, second].map (Permit.digest (pairing fun _ => 0))
    let recover hash := if hash ∈ hashes then 7 else 0
    let block : Block := ⟨100, 1000, 1⟩
    let source : State (Address → Address → ℕ) :=
      ⟨block, Volt.deploy (pairing recover) block 9 fun _ _ => 0⟩
    BoundToChain allowances (pairing recover) (fun account hash => recover hash = account) source
      [.permit 7 3 500 2000 27 0 0] [.nextBlock 1 12 1, .permit 7 3 40 2000 27 0 0]
      [.nextBlock 1 12 2, .permit 7 3 500 2000 27 0 0] := by
  intro first second hashes recover block source
  have ideal : Ideal (pairing recover) (Permit.digest (pairing recover))
      fun account hash => recover hash = account := ⟨fun _ _ _ _ _ => rfl, pairing_digest_injective recover⟩
  have start : Initial (pairing recover) 9 source := ⟨_, rfl⟩
  have home : ∀ side ∈ [[.nextBlock 1 12 1, .permit 7 3 40 2000 27 0 0],
      [.nextBlock 1 12 2, .permit 7 3 500 2000 27 0 0]],
      ∀ note ∈ permits allowances (pairing recover) source ([.permit 7 3 500 2000 27 0 0] ++ side),
        note.block.chainid = source.block.chainid := by decide +kernel
  exact (boundToChain_iff ideal start).mpr home

end VoltProtocol.VoltPermits
