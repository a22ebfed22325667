import VoltProtocol.Machine.Run
import VoltProtocol.Model.OtcEscrow
import VoltProtocol.ToMathlib.Ledger

/-! # When an escrow is fair to both parties

At the prices of the deal a swap is worth nothing to either party, and what the escrow holds belongs to one of
them. So whoever calls the escrow, in any order and however often, neither party loses anything by it, unless both
amounts are of one token: then each party can take what the escrow holds for the other.
-/

namespace VoltProtocol.FairExchange

open Machine OtcEscrow

variable {ω κ : Type} {tokens : Tokens ω} {transact : ω → κ → Option ω} {held : ω → Address → Address → ℕ}
  {s : OtcEscrow} {w u : ω}

/-- The functions of the escrow, and the transactions of the tokens. -/
inductive Call (κ : Type) where
  | swap (sender : Address)
  | revoke (sender : Address)
  | revokeReceivedToken (sender : Address)
  | token (transaction : κ)

def step (tokens : Tokens ω) (transact : ω → κ → Option ω) (s : OtcEscrow) (w : ω) : Call κ → Except Revert ω
  | .swap sender => s.swap tokens sender w
  | .revoke sender => s.revoke tokens sender w
  | .revokeReceivedToken sender => s.revokeReceivedToken tokens sender w
  | .token transaction => external (transact w transaction)

/-- Tokens that move exactly what they are asked to, and let an account send what it holds. -/
structure Exact (tokens : Tokens ω) (held : ω → Address → Address → ℕ) : Prop where
  balanceOf (w : ω) (token account : Address) : tokens.balanceOf w token account = some (held w token account)
  transfer {w u : ω} {token sender recipient : Address} {amount : ℕ}
    (sent : tokens.transfer w token sender recipient amount = some u) :
    amount ≤ held w token sender ∧ held u = Ledger.moveIn (held w) token sender recipient amount
  transferFrom {w u : ω} {token sender owner recipient : Address} {amount : ℕ}
    (pulled : tokens.transferFrom w token sender owner recipient amount = some u) :
    amount ≤ held w token owner ∧ held u = Ledger.moveIn (held w) token owner recipient amount
  pays {w : ω} {token sender : Address} {amount : ℕ} (recipient : Address) (covered : amount ≤ held w token sender) :
    ∃ u, tokens.transfer w token sender recipient amount = some u

/-- The parties and the escrow are three accounts. -/
structure Apart (s : OtcEscrow) : Prop where
  parties : s.beneficiary ≠ s.recipient
  recipient : s.self ≠ s.recipient
  beneficiary : s.self ≠ s.beneficiary

/-- What the recipient has at the prices of the deal. -/
def recipientWorth (held : ω → Address → Address → ℕ) (s : OtcEscrow) (w : ω) : ℕ :=
  s.sentAmount * held w s.receivedToken s.recipient +
    s.receivedAmount * (held w s.sentToken s.self + held w s.sentToken s.recipient)

/-- What the beneficiary has at the prices of the deal. -/
def beneficiaryWorth (held : ω → Address → Address → ℕ) (s : OtcEscrow) (w : ω) : ℕ :=
  s.sentAmount * (held w s.receivedToken s.self + held w s.receivedToken s.beneficiary) +
    s.receivedAmount * held w s.sentToken s.beneficiary

/-- What a transaction of a token takes. -/
def loss (worth : ω → ℕ) (w : ω) (call : Call κ) (u : ω) : ℕ :=
  match call with
  | .token _ => worth w - worth u
  | _ => 0

/-- No run costs a party more than the transactions of tokens took from it. -/
def Keeps (tokens : Tokens ω) (transact : ω → κ → Option ω) (s : OtcEscrow) (worth : ω → ℕ) : Prop :=
  ∀ w (calls : List (Call κ)) u, run (step tokens transact s) w calls = .ok u →
    worth w ≤ worth u + total (step tokens transact s) (loss worth) w calls

/-! ### Calls of the escrow -/

/-- A swap changes what neither party has. -/
theorem swap_worth (exact : Exact tokens held) (apart : Apart s) (different : s.sentToken ≠ s.receivedToken)
    {sender : Address} (swapped : s.swap tokens sender w = .ok u) :
    recipientWorth held s u = recipientWorth held s w ∧ beneficiaryWorth held s u = beneficiaryWorth held s w := by
  obtain ⟨-, paid, pulled, sent⟩ := swap_eq_ok.mp swapped
  obtain ⟨covered, received⟩ := exact.transferFrom pulled
  obtain ⟨stocked, moved⟩ := exact.transfer sent
  have sentThen : held paid s.sentToken = held w s.sentToken := by
    rw [received, Ledger.moveIn_of_ne different]
  have receivedNow : held u s.receivedToken =
      Ledger.move (held w s.receivedToken) s.beneficiary s.recipient s.receivedAmount := by
    rw [moved, Ledger.moveIn_of_ne different.symm, received, Ledger.moveIn_self]
  have sentNow : held u s.sentToken = Ledger.move (held w s.sentToken) s.self s.beneficiary s.sentAmount := by
    rw [moved, Ledger.moveIn_self, sentThen]
  rw [sentThen] at stocked
  obtain ⟨stock, stocked⟩ := Nat.exists_eq_add_of_le stocked
  obtain ⟨funds, covered⟩ := Nat.exists_eq_add_of_le covered
  constructor
  · rw [recipientWorth, recipientWorth, receivedNow, sentNow, Ledger.move_target apart.parties,
      Ledger.move_source apart.beneficiary, Ledger.move_of_ne apart.recipient.symm apart.parties.symm, stocked,
      Nat.add_sub_cancel_left]
    ring
  · rw [beneficiaryWorth, beneficiaryWorth, receivedNow, sentNow, Ledger.move_source apart.parties,
      Ledger.move_target apart.beneficiary, Ledger.move_of_ne apart.beneficiary apart.recipient, covered,
      Nat.add_sub_cancel_left]
    ring

/-- Taking back the token sent moves it from the escrow to the recipient, to whom it belongs. -/
theorem revoke_worth (exact : Exact tokens held) (apart : Apart s) (different : s.sentToken ≠ s.receivedToken)
    {sender : Address} (revoked : s.revoke tokens sender w = .ok u) :
    recipientWorth held s u = recipientWorth held s w ∧ beneficiaryWorth held s u = beneficiaryWorth held s w := by
  obtain ⟨-, stock, -, sent⟩ := revoke_eq_ok.mp revoked
  obtain ⟨stocked, moved⟩ := exact.transfer sent
  obtain ⟨rest, stocked⟩ := Nat.exists_eq_add_of_le stocked
  have receivedNow : held u s.receivedToken = held w s.receivedToken := by
    rw [moved, Ledger.moveIn_of_ne different.symm]
  have sentNow : held u s.sentToken = Ledger.move (held w s.sentToken) s.self s.recipient stock := by
    rw [moved, Ledger.moveIn_self]
  constructor
  · rw [recipientWorth, recipientWorth, receivedNow, sentNow, Ledger.move_source apart.recipient,
      Ledger.move_target apart.recipient, stocked, Nat.add_sub_cancel_left]
    ring
  · rw [beneficiaryWorth, beneficiaryWorth, receivedNow, sentNow,
      Ledger.move_of_ne apart.beneficiary.symm apart.parties]

/-- Returning the token received moves it from the escrow to the beneficiary, to whom it belongs. -/
theorem revokeReceivedToken_worth (exact : Exact tokens held) (apart : Apart s)
    (different : s.sentToken ≠ s.receivedToken) {sender : Address}
    (revoked : s.revokeReceivedToken tokens sender w = .ok u) :
    recipientWorth held s u = recipientWorth held s w ∧ beneficiaryWorth held s u = beneficiaryWorth held s w := by
  obtain ⟨-, stock, -, sent⟩ := revokeReceivedToken_eq_ok.mp revoked
  obtain ⟨stocked, moved⟩ := exact.transfer sent
  obtain ⟨rest, stocked⟩ := Nat.exists_eq_add_of_le stocked
  have sentNow : held u s.sentToken = held w s.sentToken := by
    rw [moved, Ledger.moveIn_of_ne different]
  have receivedNow : held u s.receivedToken = Ledger.move (held w s.receivedToken) s.self s.beneficiary stock := by
    rw [moved, Ledger.moveIn_self]
  constructor
  · rw [recipientWorth, recipientWorth, receivedNow, sentNow,
      Ledger.move_of_ne apart.recipient.symm apart.parties.symm]
  · rw [beneficiaryWorth, beneficiaryWorth, receivedNow, sentNow, Ledger.move_source apart.beneficiary,
      Ledger.move_target apart.beneficiary, stocked, Nat.add_sub_cancel_left]
    ring

/-! ### Runs -/

/-- A worth that no call of the escrow changes is kept. -/
theorem keeps_of_calls {worth : ω → ℕ}
    (same : ∀ {w u} {call : Call κ}, (∀ transaction, call ≠ .token transaction) →
      step tokens transact s w call = .ok u → worth u = worth w) : Keeps tokens transact s worth := by
  intro w calls u success
  have change (w : ω) (call : Call κ) (u : ω) (_ : True) (_ : True) (stepped : step tokens transact s w call = .ok u) :
      True ∧ worth w ≤ worth u + loss worth w call u := by
    refine ⟨trivial, ?_⟩
    cases call with
    | token transaction =>
      change worth w ≤ worth u + (worth w - worth u)
      omega
    | swap sender | revoke sender | revokeReceivedToken sender => exact (same (by simp) stepped).ge
  exact run_ge_total change ((along_call_iff success).mpr fun _ _ => trivial) trivial success

/-- A run of one call of the escrow costs a party nothing that it keeps. -/
theorem Keeps.of_call {worth : ω → ℕ} (keeps : Keeps tokens transact s worth) (call : Call κ)
    (escrow : ∀ transaction, call ≠ .token transaction) (stepped : step tokens transact s w call = .ok u) :
    worth w ≤ worth u := by
  have kept := keeps w [call] u (run_cons_ok.mpr ⟨u, stepped, run_nil_ok.mpr rfl⟩)
  have nothing : loss worth w call u = 0 := by
    cases call with
    | token transaction => exact absurd rfl (escrow transaction)
    | _ => rfl
  rwa [total_cons_of_ok stepped, nothing, total, Nat.add_zero] at kept

/-- With one token, the beneficiary can have returned to it what the recipient has in the escrow. -/
theorem not_keeps_recipient (exact : Exact tokens held) (apart : Apart s) (same : s.sentToken = s.receivedToken)
    (priced : 0 < s.receivedAmount) (stocked : 0 < held w s.sentToken s.self) :
    ¬ Keeps tokens transact s (recipientWorth held s) := by
  intro keeps
  obtain ⟨u, sent⟩ := exact.pays s.beneficiary (le_refl (held w s.receivedToken s.self))
  have returned : s.revokeReceivedToken tokens s.beneficiary w = .ok u :=
    revokeReceivedToken_eq_ok.mpr ⟨.inr rfl, _, exact.balanceOf .., sent⟩
  have kept := keeps.of_call (.revokeReceivedToken s.beneficiary) (by simp) returned
  rw [recipientWorth, recipientWorth, same, (exact.transfer sent).2, Ledger.moveIn_self,
    Ledger.move_source apart.beneficiary, Ledger.move_of_ne apart.recipient.symm apart.parties.symm, Nat.sub_self,
    Nat.mul_add, Nat.mul_add] at kept
  have taken := Nat.mul_pos priced (same ▸ stocked)
  omega

/-- And the recipient can take back what the beneficiary has in the escrow. -/
theorem not_keeps_beneficiary (exact : Exact tokens held) (apart : Apart s) (same : s.sentToken = s.receivedToken)
    (priced : 0 < s.sentAmount) (stocked : 0 < held w s.sentToken s.self) :
    ¬ Keeps tokens transact s (beneficiaryWorth held s) := by
  intro keeps
  obtain ⟨u, sent⟩ := exact.pays s.recipient (le_refl (held w s.sentToken s.self))
  have revoked : s.revoke tokens s.recipient w = .ok u := revoke_eq_ok.mpr ⟨rfl, _, exact.balanceOf .., sent⟩
  have kept := keeps.of_call (.revoke s.recipient) (by simp) revoked
  rw [beneficiaryWorth, beneficiaryWorth, ← same, (exact.transfer sent).2, Ledger.moveIn_self,
    Ledger.move_source apart.recipient, Ledger.move_of_ne apart.beneficiary.symm apart.parties, Nat.sub_self,
    Nat.mul_add, Nat.mul_add] at kept
  have taken := Nat.mul_pos priced stocked
  omega

/-- Both parties keep what they have, whoever calls the escrow, exactly if the two tokens are different or nothing
is to be paid for nothing. -/
theorem fair_iff (exact : Exact tokens held) (apart : Apart s) (funded : ∃ w, 0 < held w s.sentToken s.self) :
    Keeps tokens transact s (recipientWorth held s) ∧ Keeps tokens transact s (beneficiaryWorth held s) ↔
      s.sentToken ≠ s.receivedToken ∨ (s.receivedAmount = 0 ∧ s.sentAmount = 0) := by
  constructor
  · rintro ⟨recipientKeeps, beneficiaryKeeps⟩
    by_contra! unfair
    obtain ⟨same, priced⟩ := unfair
    obtain ⟨w, stocked⟩ := funded
    by_cases free : s.receivedAmount = 0
    · exact not_keeps_beneficiary exact apart same (Nat.pos_of_ne_zero (priced free)) stocked beneficiaryKeeps
    · exact not_keeps_recipient exact apart same (Nat.pos_of_ne_zero free) stocked recipientKeeps
  · rintro (different | ⟨free, gratis⟩)
    · have same {w u : ω} {call : Call κ} (escrow : ∀ transaction, call ≠ .token transaction)
          (stepped : step tokens transact s w call = .ok u) :
          recipientWorth held s u = recipientWorth held s w ∧ beneficiaryWorth held s u = beneficiaryWorth held s w := by
        cases call with
        | swap sender => exact swap_worth exact apart different stepped
        | revoke sender => exact revoke_worth exact apart different stepped
        | revokeReceivedToken sender => exact revokeReceivedToken_worth exact apart different stepped
        | token transaction => exact absurd rfl (escrow transaction)
      exact ⟨keeps_of_calls fun escrow stepped => (same escrow stepped).1,
        keeps_of_calls fun escrow stepped => (same escrow stepped).2⟩
    · constructor
      · exact keeps_of_calls fun _ _ => by simp [recipientWorth, free, gratis]
      · exact keeps_of_calls fun _ _ => by simp [beneficiaryWorth, free, gratis]

/-! ### Tables -/

/-- Move an amount that the source holds. -/
def pay (w : Address → Address → ℕ) (token source recipient : Address) (amount : ℕ) :
    Option (Address → Address → ℕ) :=
  if amount ≤ w token source then some (Ledger.moveIn w token source recipient amount) else none

/-- Tables of balances for which all approvals were given. -/
def tables : Tokens (Address → Address → ℕ) where
  balanceOf w token account := some (w token account)
  transfer := pay
  transferFrom w token _ owner recipient amount := pay w token owner recipient amount

theorem pay_spec {w u : Address → Address → ℕ} {token source recipient : Address} {amount : ℕ}
    (paid : pay w token source recipient amount = some u) :
    amount ≤ w token source ∧ u = Ledger.moveIn w token source recipient amount := by
  rw [pay] at paid
  split_ifs at paid with covered
  exact ⟨covered, (Option.some.inj paid).symm⟩

theorem tables_exact : Exact tables id where
  balanceOf _ _ _ := rfl
  transfer := pay_spec
  transferFrom := pay_spec
  pays _ covered := ⟨_, if_pos covered⟩

/-- A deal for two tokens is fair, and the same deal for one of them is not. -/
theorem fair_iff_deals :
    let transact := fun (w : Address → Address → ℕ) (payment : Address × Address × Address × ℕ) =>
      pay w payment.1 payment.2.1 payment.2.2.1 payment.2.2.2
    let deal : OtcEscrow := ⟨1, 2, 3, 4, 5, 100, 40⟩
    let other : OtcEscrow := { deal with sentToken := 2 }
    (Keeps tables transact deal (recipientWorth id deal) ∧ Keeps tables transact deal (beneficiaryWorth id deal)) ∧
      ¬ (Keeps tables transact other (recipientWorth id other) ∧
        Keeps tables transact other (beneficiaryWorth id other)) := by
  intro transact deal other
  have funded (s : OtcEscrow) : ∃ w : Address → Address → ℕ, 0 < id w s.sentToken s.self :=
    ⟨fun _ _ => 1, Nat.one_pos⟩
  have apart : Apart deal := ⟨by decide, by decide, by decide⟩
  have otherApart : Apart other := ⟨by decide, by decide, by decide⟩
  constructor
  · exact (fair_iff tables_exact apart (funded deal)).mpr (.inl (by decide))
  · intro fair
    obtain different | ⟨free, -⟩ := (fair_iff tables_exact otherApart (funded other)).mp fair
    · exact absurd rfl different
    · cases free

end VoltProtocol.FairExchange
