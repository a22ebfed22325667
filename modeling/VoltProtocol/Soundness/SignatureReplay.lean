import Mathlib.Data.Nat.Pairing
import VoltProtocol.Machine.Nonces
import VoltProtocol.Soundness.VoteConservation

/-! # Signed messages of Vcon are accepted once

`permit` hashes the nonce in storage of the account that the caller names; `delegateBySig` hashes the
nonce that the caller gives and compares it with the one in storage of the account it recovers. Both
use the account's one counter, so whichever accepts a message, the signer's messages are accepted in
the order of their nonces. A signature scheme is ideal here if nobody recovers an account that did not
sign, and if two messages never have the same digest.
-/

namespace VoltProtocol

/-- Accounts are recovered only from digests that they signed, and digests tell messages apart. -/
structure Ideal {μ : Type} (crypto : Crypto) (digest : μ → ℕ) (signed : Address → ℕ → Prop) : Prop where
  unforgeable : ∀ hash v r s, crypto.ecrecover hash v r s ≠ 0 → signed (crypto.ecrecover hash v r s) hash
  distinct : Function.Injective digest

/-- Hash functions that are injective, and a recovery that looks at the digest only. -/
def pairing (recover : ℕ → Address) : Crypto where
  keccakText text := text.length
  keccakWords words := words.foldr (fun word hash => Nat.pair word hash + 1) 0
  keccakTypedData := Nat.pair
  ecrecover digest _ _ _ := recover digest

theorem pairing_keccakWords_injective (recover : ℕ → Address) :
    Function.Injective (pairing recover).keccakWords := by
  intro first second same
  induction first generalizing second with
  | nil =>
    cases second with
    | nil => rfl
    | cons word rest => exact absurd same.symm (Nat.succ_ne_zero _)
  | cons word rest ih =>
    cases second with
    | nil => exact absurd same (Nat.succ_ne_zero _)
    | cons other others =>
      obtain ⟨rfl, tails⟩ := Nat.pair_eq_pair.mp (Nat.succ.inj same)
      rw [ih tails]

theorem pairing_keccakTypedData_inj (recover : ℕ → Address) {domain domain' hash hash' : ℕ} :
    (pairing recover).keccakTypedData domain hash = (pairing recover).keccakTypedData domain' hash' ↔
      domain = domain' ∧ hash = hash' :=
  Nat.pair_eq_pair

namespace SignatureReplay

open Machine Vcon VoteConservation

/-- What an account signs for Vcon, with the domain it signs it for. -/
inductive Message where
  | permit (chainid : ℕ) (contract owner spender : Address) (rawAmount nonce deadline : ℕ)
  | delegation (chainid : ℕ) (contract delegatee : Address) (nonce expiry : ℕ)

namespace Message

def chainid : Message → ℕ
  | permit chainid .. | delegation chainid .. => chainid

def contract : Message → Address
  | permit _ contract .. | delegation _ contract .. => contract

def nonce : Message → ℕ
  | permit _ _ _ _ _ nonce _ | delegation _ _ _ nonce _ => nonce

/-- The last time at which the message may be used. -/
def deadline : Message → ℕ
  | permit _ _ _ _ _ _ deadline => deadline
  | delegation _ _ _ _ expiry => expiry

/-- The hash of the message in the domain of the contract on its chain. -/
def digest (crypto : Crypto) : Message → ℕ
  | permit chainid contract owner spender rawAmount nonce deadline =>
    crypto.keccakTypedData (domainSeparator ⟨0, 0, chainid⟩ crypto contract)
      (crypto.keccakWords [crypto.keccakText
        "Permit(address owner,address spender,uint256 value,uint256 nonce,uint256 deadline)",
        owner.val, spender.val, rawAmount, nonce, deadline])
  | delegation chainid contract delegatee nonce expiry =>
    crypto.keccakTypedData (domainSeparator ⟨0, 0, chainid⟩ crypto contract)
      (crypto.keccakWords [crypto.keccakText
        "Delegation(address delegatee,uint256 nonce,uint256 expiry)", delegatee.val, nonce, expiry])

end Message

/-- A message that was accepted, from whom, and in which block. -/
structure Acceptance where
  signer : Address
  message : Message
  block : Block

/-- The message that a call presents, and the account whose nonce it uses if it succeeds. -/
def acceptance (crypto : Crypto) (self : Address) (s : State) : Call → Option Acceptance
  | .permit owner spender rawAmount deadline .. =>
    some ⟨owner, .permit s.block.chainid self owner spender rawAmount (s.token.nonces owner) deadline,
      s.block⟩
  | .delegateBySig delegatee nonce expiry v r sig =>
    let message := .delegation s.block.chainid self delegatee nonce expiry
    some ⟨crypto.ecrecover (message.digest crypto) v r sig, message, s.block⟩
  | _ => none

variable {crypto : Crypto} {self : Address} {s t source : State} {call : Call} {calls : List Call}
  {note : Acceptance} {signed : Address → ℕ → Prop}

/-! ### One call -/

/-- A call that presents no message uses no nonce. -/
theorem nonces_of_none (stepped : step crypto self s call = .ok t)
    (none : acceptance crypto self s call = none) : t.token.nonces = s.token.nonces := by
  cases call with
  | nextBlock blocks seconds chainid =>
    obtain rfl := Except.ok.inj stepped
    rfl
  | transfer sender dst rawAmount =>
    obtain ⟨token, transferred, rfl⟩ := map_eq_ok.mp stepped
    exact (transfer_spec transferred).2
  | transferFrom sender src dst rawAmount =>
    obtain ⟨token, transferred, rfl⟩ := map_eq_ok.mp stepped
    exact (transferFrom_spec transferred).2.2.1
  | mint sender dst rawAmount =>
    obtain ⟨token, minted, rfl⟩ := map_eq_ok.mp stepped
    exact (mint_frame minted).2
  | delegate sender delegatee =>
    obtain ⟨token, delegated, rfl⟩ := map_eq_ok.mp stepped
    exact (delegateInternal_spec delegated).2.2
  | delegateBySig delegatee nonce expiry v r sig => cases none
  | approve sender spender rawAmount =>
    obtain ⟨token, approved, rfl⟩ := map_eq_ok.mp stepped
    obtain ⟨amount, -, rfl⟩ := approve_spec approved
    rfl
  | permit owner spender rawAmount deadline v r sig => cases none
  | setMinter sender minter =>
    obtain ⟨token, written, rfl⟩ := map_eq_ok.mp stepped
    exact (setMinter_frame written).2

/-- A message that is accepted has the signer's next nonce, and the nonce is used up. -/
theorem nonces_of_some (stepped : step crypto self s call = .ok t)
    (presented : acceptance crypto self s call = some note) :
    note.message.nonce = s.token.nonces note.signer ∧
      t.token.nonces = Function.update s.token.nonces note.signer (s.token.nonces note.signer + 1) := by
  cases call with
  | delegateBySig delegatee nonce expiry v r sig =>
    obtain ⟨token, delegated, rfl⟩ := map_eq_ok.mp stepped
    obtain ⟨signatory, -, recovered, current, -, -, -, used⟩ := delegateBySig_spec delegated
    have signer : note.signer = signatory := by
      rw [← Option.some.inj presented]
      exact recovered
    have nonce_eq : note.message.nonce = nonce := by rw [← Option.some.inj presented]; rfl
    rw [nonce_eq, signer, ← current]
    exact ⟨rfl, used⟩
  | permit owner spender rawAmount deadline v r sig =>
    obtain ⟨token, permitted, rfl⟩ := map_eq_ok.mp stepped
    obtain rfl := Option.some.inj presented
    obtain ⟨amount, -, -, -, -, rfl⟩ := permit_spec permitted
    exact ⟨rfl, rfl⟩
  | _ => cases presented

/-- What a message fulfils when it is accepted. -/
structure Valid (crypto : Crypto) (vcon : Address) (signed : Address → ℕ → Prop) (note : Acceptance) :
    Prop where
  nonzero : note.signer ≠ 0
  signed : signed note.signer (note.message.digest crypto)
  chainid : note.message.chainid = note.block.chainid
  contract : note.message.contract = vcon
  timely : note.block.timestamp ≤ note.message.deadline

/-- A message is accepted only in its own domain, in time, and with a signature. -/
theorem valid_of_accepted (ideal : Ideal crypto (Message.digest crypto) signed)
    (stepped : step crypto self s call = .ok t) (presented : acceptance crypto self s call = some note) :
    Valid crypto self signed note := by
  cases call with
  | delegateBySig delegatee nonce expiry v r sig =>
    obtain ⟨token, delegated, -⟩ := map_eq_ok.mp stepped
    obtain rfl := Option.some.inj presented
    obtain ⟨signatory, nonzero, rfl, -, timely, -⟩ := delegateBySig_spec delegated
    exact ⟨nonzero, ideal.unforgeable _ v r sig nonzero, rfl, rfl, timely⟩
  | permit owner spender rawAmount deadline v r sig =>
    obtain ⟨token, permitted, -⟩ := map_eq_ok.mp stepped
    obtain rfl := Option.some.inj presented
    obtain ⟨amount, -, nonzero, recovered, timely, -⟩ := permit_spec permitted
    have authentic := ideal.unforgeable _ v r sig (recovered ▸ nonzero)
    rw [recovered] at authentic
    exact ⟨nonzero, authentic, rfl, rfl, timely⟩
  | _ => cases presented

/-! ### Every run -/

/-- The messages of each signer are accepted in the order of their nonces. -/
theorem acceptances_numbered (start : Initial source) :
    Numbered Acceptance.signer (fun note => note.message.nonce)
      (attempts (step crypto self) source calls).token.nonces
      (noted (step crypto self) (acceptance crypto self) source calls) := by
  obtain ⟨account, minter, deployed⟩ := start
  apply noted_numbered fun state : State => state.token.nonces
  · exact fun state call next stepped none => nonces_of_none stepped none
  · exact fun state call next note stepped presented => nonces_of_some stepped presented
  · intro key
    rw [deployed]
    rfl

theorem acceptances_valid (ideal : Ideal crypto (Message.digest crypto) signed) :
    ∀ note ∈ noted (step crypto self) (acceptance crypto self) source calls,
      Valid crypto self signed note := by
  have each (state : State) (call : Call) (next : State) (_ : True)
      (stepped : step crypto self state call = .ok next) : True ∧ ∀ note,
        acceptance crypto self state call = some note → Valid crypto self signed note :=
    ⟨trivial, fun _ presented => valid_of_accepted ideal stepped presented⟩
  exact forall_mem_noted each trivial

/-- In every run from deployment, with an ideal signature scheme, no digest is accepted twice from one
signer, whether by `permit` or by `delegateBySig`; a signer's messages are accepted with the nonces 0, 1,
2 and so on; a digest is accepted only while its message is for the current chain and in time; and a call
that is rejected changes nothing. -/
theorem signatures_not_replayed (ideal : Ideal crypto (Message.digest crypto) signed)
    (start : Initial source) :
    let log := noted (step crypto self) (acceptance crypto self) source calls
    let final := attempts (step crypto self) source calls
    (log.map fun note => (note.signer, note.message.digest crypto)).Nodup ∧
    (∀ signer, (log.filter (·.signer = signer)).map (·.message.nonce) =
      List.range (final.token.nonces signer)) ∧
    (∀ note ∈ log, note.signer ≠ 0 ∧ signed note.signer (note.message.digest crypto) ∧
      ∀ message : Message, message.digest crypto = note.message.digest crypto →
        message.chainid = note.block.chainid ∧ message.contract = self ∧
          note.block.timestamp ≤ message.deadline) ∧
    ∀ call reason, step crypto self final call = .error reason →
      (attempts (step crypto self) source (calls ++ [call])).token = final.token := by
  intro log final
  have numbered : Numbered Acceptance.signer (fun note => note.message.nonce) final.token.nonces log :=
    acceptances_numbered start
  refine ⟨?_, numbered, ?_, ?_⟩
  · apply List.pairwise_map.mpr
    apply (List.pairwise_map.mp numbered.nodup).imp
    intro first second distinct same
    obtain ⟨signer, hash⟩ := Prod.mk.inj same
    exact distinct (Prod.ext signer (congrArg Message.nonce (ideal.distinct hash)))
  · intro note member
    have valid : Valid crypto self signed note := acceptances_valid ideal note member
    refine ⟨valid.nonzero, valid.signed, fun message same => ?_⟩
    obtain rfl := ideal.distinct same
    exact ⟨valid.chainid, valid.contract, valid.timely⟩
  · intro call reason failed
    rw [attempts_append, attempts, attempts, attempt_of_error failed]

/-! ### An ideal scheme -/

theorem pairing_digest_injective (recover : ℕ → Address) :
    Function.Injective (Message.digest (pairing recover)) := by
  intro first second same
  cases first <;> cases second <;>
    obtain ⟨domains, structs⟩ := (pairing_keccakTypedData_inj recover).mp same <;>
    have domain := pairing_keccakWords_injective recover domains <;>
    have struct := pairing_keccakWords_injective recover structs <;>
    simp_all [Fin.ext_iff]

/-- An account signs two permits and a delegation. All are presented too early, twice or on the wrong
chain before and after they are accepted, and each is accepted once. -/
theorem signatures_not_replayed_three :
    let messages : List Message :=
      [.permit 1 9 7 3 500 0 2000, .delegation 1 9 5 1 2000, .permit 2 9 7 3 40 2 3000]
    let recover hash := if hash ∈ messages.map (Message.digest (pairing fun _ => 0)) then 7 else 0
    let source : State := ⟨⟨100, 1000, 1⟩, Vcon.deploy 7 2⟩
    let calls := [.delegateBySig 5 1 2000 27 0 0, .permit 7 3 500 2000 27 0 0, .permit 7 3 500 2000 27 0 0,
      .delegateBySig 5 1 2000 27 0 0, .permit 7 3 40 3000 27 0 0, .nextBlock 5 60 2,
      .delegateBySig 5 1 2000 27 0 0, .permit 7 3 40 3000 27 0 0, .permit 7 3 40 3000 27 0 0]
    let log := noted (step (pairing recover) 9) (acceptance (pairing recover) 9) source calls
    (log.map fun note => (note.message.nonce, note.block.chainid)) = [(0, 1), (1, 1), (2, 2)] ∧
      (log.map fun note => (note.signer, note.message.digest (pairing recover))).Nodup := by
  intro messages recover source calls log
  have observed : (log.map fun note => (note.message.nonce, note.block.chainid)) =
      [(0, 1), (1, 1), (2, 2)] := by decide +kernel
  have ideal : Ideal (pairing recover) (Message.digest (pairing recover))
      fun account hash => recover hash = account := ⟨fun _ _ _ _ _ => rfl, pairing_digest_injective recover⟩
  exact ⟨observed, (signatures_not_replayed ideal ⟨7, 2, rfl⟩).1⟩

end SignatureReplay

end VoltProtocol
