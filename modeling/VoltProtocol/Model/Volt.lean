import VoltProtocol.Model.CoreRef

/-! # Volt, the stable token with permits

Volt adds minting, burning and permits to an ERC20 token that it inherits. That token is a parameter: a
type of states with the inherited functions that Volt calls, and its own transactions. The domain
separator of permits is hashed once, in the constructor.
-/

namespace VoltProtocol

/-- The token that Volt inherits. `τ` is its storage, and `κ` its own transactions with their senders. -/
structure InheritedERC20 (τ κ : Type) where
  /-- `_approve` -/
  approve : τ → (owner spender : Address) → (value : ℕ) → Except Revert τ
  /-- `_mint` -/
  mint : τ → (account : Address) → (amount : ℕ) → Except Revert τ
  /-- `burn` of ERC20Burnable -/
  burn : τ → (sender : Address) → (amount : ℕ) → Except Revert τ
  transact : τ → κ → Except Revert τ

structure Volt (τ : Type) extends CoreRef where
  DOMAIN_SEPARATOR : ℕ
  nonces : Address → ℕ
  token : τ

namespace Volt

def name : String := "VOLT"

/-- `keccak256("Permit(address owner,address spender,uint256 value,uint256 nonce,uint256 deadline)")` -/
def PERMIT_TYPEHASH : ℕ := 0x6e71edae12b1b97f4d1f60370fef10105fa2faae0126114a169c64845d6126c9

variable {τ κ : Type}

/-- The domain separator of a contract on a chain. -/
def domainSeparator (crypto : Crypto) (chainId : ℕ) (self : Address) : ℕ :=
  crypto.keccakWords [crypto.keccakText
    "EIP712Domain(string name,string version,uint256 chainId,address verifyingContract)",
    crypto.keccakText name, crypto.keccakText "1", chainId, self.val]

def deploy (crypto : Crypto) (block : Block) (self : Address) (token : τ) : Volt τ where
  CONTRACT_ADMIN_ROLE := .governor
  paused := false
  DOMAIN_SEPARATOR := domainSeparator crypto block.chainid self
  nonces _ := 0
  token

section Operations

variable (t : Volt τ) (inherited : InheritedERC20 τ κ)

def mint (ctx : Context) (account : Address) (amount : ℕ) : Except Revert (Volt τ) := do
  ctx.onlyMinter
  t.whenNotPaused
  let token ← inherited.mint t.token account amount
  return { t with token }

def burn (sender : Address) (amount : ℕ) : Except Revert (Volt τ) := do
  let token ← inherited.burn t.token sender amount
  return { t with token }

/-- The digest that `permit` recovers the signer from. -/
def permitDigest (crypto : Crypto) (owner spender : Address) (value deadline : ℕ) : ℕ :=
  crypto.keccakTypedData t.DOMAIN_SEPARATOR
    (crypto.keccakWords [PERMIT_TYPEHASH, owner.val, spender.val, value, t.nonces owner, deadline])

def permit (crypto : Crypto) (block : Block) (owner spender : Address) (value deadline v r s : ℕ) :
    Except Revert (Volt τ) := do
  require (deadline ≥ block.timestamp) "Fei: EXPIRED"
  let digest := t.permitDigest crypto owner spender value deadline
  let next ← uint 256 (t.nonces owner + 1)
  let recoveredAddress := crypto.ecrecover digest v r s
  require (recoveredAddress ≠ 0 ∧ recoveredAddress = owner) "Fei: INVALID_SIGNATURE"
  let token ← inherited.approve t.token owner spender value
  return { t with nonces := Function.update t.nonces owner next, token }

/-- A transaction of the inherited token. -/
def transact (call : κ) : Except Revert (Volt τ) := do
  let token ← inherited.transact t.token call
  return { t with token }

end Operations

/-! ### What each call leaves alone -/

section Frames

variable {t u : Volt τ} {inherited : InheritedERC20 τ κ} {crypto : Crypto} {block : Block}
  {owner spender : Address} {value deadline v r s : ℕ}

theorem mint_frame {ctx : Context} {account : Address} {amount : ℕ}
    (success : t.mint inherited ctx account amount = .ok u) :
    u.DOMAIN_SEPARATOR = t.DOMAIN_SEPARATOR ∧ u.nonces = t.nonces := by
  simp only [mint, bind_eq_ok, pure_eq_ok] at success
  obtain ⟨_, -, _, -, token, -, rfl⟩ := success
  exact ⟨rfl, rfl⟩

theorem burn_frame {sender : Address} {amount : ℕ} (success : t.burn inherited sender amount = .ok u) :
    u.DOMAIN_SEPARATOR = t.DOMAIN_SEPARATOR ∧ u.nonces = t.nonces := by
  obtain ⟨token, -, written⟩ := bind_eq_ok.mp success
  obtain rfl := pure_eq_ok.mp written
  exact ⟨rfl, rfl⟩

theorem transact_frame {call : κ} (success : t.transact inherited call = .ok u) :
    u.DOMAIN_SEPARATOR = t.DOMAIN_SEPARATOR ∧ u.nonces = t.nonces := by
  obtain ⟨token, -, written⟩ := bind_eq_ok.mp success
  obtain rfl := pure_eq_ok.mp written
  exact ⟨rfl, rfl⟩

theorem permit_spec (success : t.permit inherited crypto block owner spender value deadline v r s = .ok u) :
    block.timestamp ≤ deadline ∧ owner ≠ 0 ∧
      crypto.ecrecover (t.permitDigest crypto owner spender value deadline) v r s = owner ∧
      u.DOMAIN_SEPARATOR = t.DOMAIN_SEPARATOR ∧
      u.nonces = Function.update t.nonces owner (t.nonces owner + 1) := by
  simp only [permit, bind_eq_ok, require_eq_ok, uint_eq_ok, pure_eq_ok] at success
  obtain ⟨_, timely, _, ⟨-, rfl⟩, _, ⟨nonzero, recovered⟩, token, -, rfl⟩ := success
  exact ⟨timely, recovered ▸ nonzero, recovered, rfl, rfl⟩

end Frames

end Volt

end VoltProtocol
