import VoltProtocol.Model.Solidity

/-! # OtcEscrow, a trade over the counter

The escrow holds the token sent. Either party may have it swapped for the amount that the beneficiary has
approved of the token received, which goes to the recipient at once; the recipient may take back what the escrow
holds of the first, and either party may return to the beneficiary what it holds of the second. The tokens are a
parameter that acts on a world `ω`.
-/

namespace VoltProtocol

structure OtcEscrow where
  self : Address
  receivedToken : Address
  sentToken : Address
  recipient : Address
  beneficiary : Address
  receivedAmount : ℕ
  sentAmount : ℕ
deriving DecidableEq, Repr

namespace OtcEscrow

/-- The tokens an escrow calls. The first account of a transfer is its sender. -/
structure Tokens (ω : Type) where
  balanceOf : ω → (token account : Address) → Option ℕ
  transfer : ω → (token sender recipient : Address) → ℕ → Option ω
  transferFrom : ω → (token sender owner recipient : Address) → ℕ → Option ω

variable {ω : Type} (tokens : Tokens ω) (s : OtcEscrow)

/-- The modifier, whose `require` has no text. -/
def onlyApprovedParties (sender : Address) : Except Revert Unit :=
  require (sender = s.recipient ∨ sender = s.beneficiary) ""

def swap (sender : Address) (w : ω) : Except Revert ω := do
  s.onlyApprovedParties sender
  let paid ← external (tokens.transferFrom w s.receivedToken s.self s.beneficiary s.recipient s.receivedAmount)
  external (tokens.transfer paid s.sentToken s.self s.beneficiary s.sentAmount)

def revoke (sender : Address) (w : ω) : Except Revert ω := do
  require (sender = s.recipient) "onlyRecipient"
  let sentTokenBalance ← external (tokens.balanceOf w s.sentToken s.self)
  external (tokens.transfer w s.sentToken s.self s.recipient sentTokenBalance)

def revokeReceivedToken (sender : Address) (w : ω) : Except Revert ω := do
  s.onlyApprovedParties sender
  let receivedTokenBalance ← external (tokens.balanceOf w s.receivedToken s.self)
  external (tokens.transfer w s.receivedToken s.self s.beneficiary receivedTokenBalance)

section Spec

variable {tokens s} {sender : Address} {w u : ω}

theorem swap_eq_ok : s.swap tokens sender w = .ok u ↔ (sender = s.recipient ∨ sender = s.beneficiary) ∧ ∃ paid,
    tokens.transferFrom w s.receivedToken s.self s.beneficiary s.recipient s.receivedAmount = some paid ∧
      tokens.transfer paid s.sentToken s.self s.beneficiary s.sentAmount = some u := by
  rw [swap, onlyApprovedParties, require_bind_eq_ok]
  simp only [bind_eq_ok, external_eq_ok]

theorem revoke_eq_ok : s.revoke tokens sender w = .ok u ↔ sender = s.recipient ∧ ∃ held,
    tokens.balanceOf w s.sentToken s.self = some held ∧
      tokens.transfer w s.sentToken s.self s.recipient held = some u := by
  rw [revoke, require_bind_eq_ok]
  simp only [bind_eq_ok, external_eq_ok]

theorem revokeReceivedToken_eq_ok : s.revokeReceivedToken tokens sender w = .ok u ↔
    (sender = s.recipient ∨ sender = s.beneficiary) ∧ ∃ held,
      tokens.balanceOf w s.receivedToken s.self = some held ∧
        tokens.transfer w s.receivedToken s.self s.beneficiary held = some u := by
  rw [revokeReceivedToken, onlyApprovedParties, require_bind_eq_ok]
  simp only [bind_eq_ok, external_eq_ok]

end Spec

end OtcEscrow

end VoltProtocol
