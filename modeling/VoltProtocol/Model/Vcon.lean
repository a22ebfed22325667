import VoltProtocol.Model.Solidity
import VoltProtocol.ToMathlib.Ledger

/-! # Vcon, a governance token with vote checkpoints

Every account may delegate its votes, and each delegate has a list of checkpoints of the votes it
holds. Fields narrower than `uint256` are natural numbers that only `safe96`, `safe32`, `add96` and
`sub96` write. A transfer and a mint first write balances and then call `moveDelegates`; the first
half has a definition of its own here.
-/

namespace VoltProtocol

/-- A delegate's votes from a block on. -/
structure Checkpoint where
  fromBlock : ℕ
  votes : ℕ
deriving DecidableEq, Repr

structure Vcon where
  totalSupply : ℕ
  minter : Address
  allowances : Address → Address → ℕ
  balances : Address → ℕ
  delegates : Address → Address
  checkpoints : Address → ℕ → Checkpoint
  numCheckpoints : Address → ℕ
  nonces : Address → ℕ

namespace Vcon

def name : String := "Volt Controller"

/-- `type(uint96).max` -/
def uint96Max : ℕ := 2 ^ 96 - 1

/-- The supply at deployment, one billion tokens of 18 decimals. -/
def initialSupply : ℕ := 1000000000 * 10 ^ 18

theorem initialSupply_lt : initialSupply < 2 ^ 96 := by decide

def deploy (account minter : Address) : Vcon where
  totalSupply := initialSupply
  minter
  allowances _ _ := 0
  balances := Function.update (fun _ => 0) account (initialSupply % 2 ^ 96)
  delegates _ := 0
  checkpoints _ _ := ⟨0, 0⟩
  numCheckpoints _ := 0
  nonces _ := 0

def safe32 (n : ℕ) (errorMessage : String) : Except Revert ℕ := do
  require (n < 2 ^ 32) errorMessage
  return n

def safe96 (n : ℕ) (errorMessage : String) : Except Revert ℕ := do
  require (n < 2 ^ 96) errorMessage
  return n

def add96 (a b : ℕ) (errorMessage : String) : Except Revert ℕ := do
  -- the checked addition panics first, so the message is never seen
  let c ← uint 96 (a + b)
  require (c ≥ a) errorMessage
  return c

def sub96 (a b : ℕ) (errorMessage : String) : Except Revert ℕ := do
  require (b ≤ a) errorMessage
  checkedSub a b

/-- The amount of an approval: the largest `uint256` stands for an unlimited one. -/
def approvalAmount (rawAmount : ℕ) : Except Revert ℕ := do
  if rawAmount = uint256Max then
    return uint96Max
  else
    safe96 rawAmount "Vcon: amount exceeds 96 bits"

section Operations

variable (t : Vcon) (block : Block)

def getCurrentVotes (account : Address) : ℕ :=
  let nCheckpoints := t.numCheckpoints account
  if nCheckpoints > 0 then (t.checkpoints account (nCheckpoints - 1)).votes else 0

/-- The binary search of `getPriorVotes`. -/
def searchCheckpoints (account : Address) (blockNumber lower upper : ℕ) : ℕ :=
  if upper > lower then
    let center := upper - (upper - lower) / 2
    let cp := t.checkpoints account center
    if cp.fromBlock = blockNumber then cp.votes
    else if cp.fromBlock < blockNumber then searchCheckpoints account blockNumber center upper
    else searchCheckpoints account blockNumber lower (center - 1)
  else (t.checkpoints account lower).votes
termination_by upper - lower

def getPriorVotes (account : Address) (blockNumber : ℕ) : Except Revert ℕ := do
  require (blockNumber < block.number) "Vcon: not yet determined"
  let nCheckpoints := t.numCheckpoints account
  if nCheckpoints = 0 then
    return 0
  else if (t.checkpoints account (nCheckpoints - 1)).fromBlock ≤ blockNumber then
    return (t.checkpoints account (nCheckpoints - 1)).votes
  else if (t.checkpoints account 0).fromBlock > blockNumber then
    return 0
  else
    return t.searchCheckpoints account blockNumber 0 (nCheckpoints - 1)

/-- Set one checkpoint of one account. -/
def setCheckpoint (account : Address) (index : ℕ) (checkpoint : Checkpoint) : Vcon :=
  { t with
    checkpoints := Function.update t.checkpoints account
      (Function.update (t.checkpoints account) index checkpoint) }

/-- `_writeCheckpoint` -/
def writeCheckpoint (delegatee : Address) (nCheckpoints newVotes : ℕ) : Except Revert Vcon := do
  let blockNumber ← safe32 block.number "Vcon: block number exceeds 32 bits"
  if nCheckpoints > 0 ∧ (t.checkpoints delegatee (nCheckpoints - 1)).fromBlock = blockNumber then
    let last := t.checkpoints delegatee (nCheckpoints - 1)
    return t.setCheckpoint delegatee (nCheckpoints - 1) { last with votes := newVotes }
  else
    let written := t.setCheckpoint delegatee nCheckpoints ⟨blockNumber, newVotes⟩
    let raised ← uint 32 (nCheckpoints + 1)
    return { written with numCheckpoints := Function.update t.numCheckpoints delegatee raised }

/-- The first half of `_moveDelegates`: take the amount from the old delegate, if there is one. -/
def debitVotes (srcRep : Address) (amount : ℕ) : Except Revert Vcon := do
  if srcRep ≠ 0 then
    let srcRepNew ← sub96 (t.getCurrentVotes srcRep) amount "Vcon: vote amount underflows"
    t.writeCheckpoint block srcRep (t.numCheckpoints srcRep) srcRepNew
  else
    return t

/-- The second half of `_moveDelegates`: give the amount to the new delegate, if there is one. -/
def creditVotes (dstRep : Address) (amount : ℕ) : Except Revert Vcon := do
  if dstRep ≠ 0 then
    let dstRepNew ← add96 (t.getCurrentVotes dstRep) amount "Vcon: vote amount overflows"
    t.writeCheckpoint block dstRep (t.numCheckpoints dstRep) dstRepNew
  else
    return t

/-- `_moveDelegates` -/
def moveDelegates (srcRep dstRep : Address) (amount : ℕ) : Except Revert Vcon := do
  if srcRep ≠ dstRep ∧ amount > 0 then
    let debited ← t.debitVotes block srcRep amount
    debited.creditVotes block dstRep amount
  else
    return t

/-- `_delegate` -/
def delegateInternal (delegator delegatee : Address) : Except Revert Vcon := do
  let currentDelegate := t.delegates delegator
  let delegatorBalance := t.balances delegator
  let relabelled := { t with delegates := Function.update t.delegates delegator delegatee }
  relabelled.moveDelegates block currentDelegate delegatee delegatorBalance

/-- The balance updates of `_transferTokens`. -/
def transferBalances (src dst : Address) (amount : ℕ) : Except Revert Vcon := do
  require (src ≠ 0) "Vcon: cannot transfer from the zero address"
  require (dst ≠ 0) "Vcon: cannot transfer to the zero address"
  let left ← sub96 (t.balances src) amount "Vcon: transfer amount exceeds balance"
  let debited := Function.update t.balances src left
  let raised ← add96 (debited dst) amount "Vcon: transfer amount overflows"
  return { t with balances := Function.update debited dst raised }

/-- `_transferTokens` -/
def transferTokens (src dst : Address) (amount : ℕ) : Except Revert Vcon := do
  let moved ← t.transferBalances src dst amount
  moved.moveDelegates block (moved.delegates src) (moved.delegates dst) amount

/-- The balance updates of `mint`, with the amount minted. -/
def mintBalances (sender dst : Address) (rawAmount : ℕ) : Except Revert (Vcon × ℕ) := do
  require (sender = t.minter) "Vcon: only the minter can mint"
  require (dst ≠ 0) "Vcon: cannot transfer to the zero address"
  let amount ← safe96 rawAmount "Vcon: amount exceeds 96 bits"
  let safeSupply ← safe96 t.totalSupply "Vcon: totalSupply exceeds 96 bits"
  let totalSupply ← add96 safeSupply amount "Vcon: totalSupply exceeds 96 bits"
  let raised ← add96 (t.balances dst) amount "Vcon: transfer amount overflows"
  return ({ t with totalSupply, balances := Function.update t.balances dst raised }, amount)

def mint (sender dst : Address) (rawAmount : ℕ) : Except Revert Vcon := do
  let (minted, amount) ← t.mintBalances sender dst rawAmount
  minted.moveDelegates block 0 (minted.delegates dst) amount

def setMinter (sender minter : Address) : Except Revert Vcon := do
  require (sender = t.minter) "Vcon: only the minter can change the minter address"
  return { t with minter }

/-- Set one allowance. -/
def setAllowance (owner spender : Address) (amount : ℕ) : Vcon :=
  { t with
    allowances := Function.update t.allowances owner
      (Function.update (t.allowances owner) spender amount) }

def approve (sender spender : Address) (rawAmount : ℕ) : Except Revert Vcon := do
  let amount ← approvalAmount rawAmount
  return t.setAllowance sender spender amount

def transfer (sender dst : Address) (rawAmount : ℕ) : Except Revert Vcon := do
  let amount ← safe96 rawAmount "Vcon: amount exceeds 96 bits"
  t.transferTokens block sender dst amount

def transferFrom (sender src dst : Address) (rawAmount : ℕ) : Except Revert Vcon := do
  let spenderAllowance := t.allowances src sender
  let amount ← safe96 rawAmount "Vcon: amount exceeds 96 bits"
  if sender ≠ src ∧ spenderAllowance ≠ uint96Max then
    let newAllowance ← sub96 spenderAllowance amount "Vcon: transfer amount exceeds spender allowance"
    (t.setAllowance src sender newAllowance).transferTokens block src dst amount
  else
    t.transferTokens block src dst amount

def delegate (sender delegatee : Address) : Except Revert Vcon :=
  t.delegateInternal block sender delegatee

/-! Signed calls. `self` is the address of the contract. -/

variable (crypto : Crypto) (self : Address)

def domainSeparator : ℕ :=
  crypto.keccakWords [crypto.keccakText
    "EIP712Domain(string name,uint256 chainId,address verifyingContract)",
    crypto.keccakText name, block.chainid, self.val]

def delegateBySig (delegatee : Address) (nonce expiry v r s : ℕ) : Except Revert Vcon := do
  let structHash := crypto.keccakWords [crypto.keccakText
    "Delegation(address delegatee,uint256 nonce,uint256 expiry)", delegatee.val, nonce, expiry]
  let digest := crypto.keccakTypedData (domainSeparator block crypto self) structHash
  let signatory := crypto.ecrecover digest v r s
  require (signatory ≠ 0) "Vcon: invalid signature"
  let used := t.nonces signatory
  let next ← uint 256 (used + 1)
  let counted := { t with nonces := Function.update t.nonces signatory next }
  require (nonce = used) "Vcon: invalid nonce"
  require (block.timestamp ≤ expiry) "Vcon: signature expired"
  counted.delegateInternal block signatory delegatee

def permit (owner spender : Address) (rawAmount deadline v r s : ℕ) : Except Revert Vcon := do
  let amount ← approvalAmount rawAmount
  let used := t.nonces owner
  let next ← uint 256 (used + 1)
  let counted := { t with nonces := Function.update t.nonces owner next }
  let structHash := crypto.keccakWords [crypto.keccakText
    "Permit(address owner,address spender,uint256 value,uint256 nonce,uint256 deadline)",
    owner.val, spender.val, rawAmount, used, deadline]
  let digest := crypto.keccakTypedData (domainSeparator block crypto self) structHash
  let signatory := crypto.ecrecover digest v r s
  require (signatory ≠ 0) "Vcon: invalid signature"
  require (signatory = owner) "Vcon: unauthorized"
  require (block.timestamp ≤ deadline) "Vcon: signature expired"
  return counted.setAllowance owner spender amount

end Operations

/-! ### The 96 and 32 bit checks -/

section Checks

variable {a b n result : ℕ} {text : String} {reason : Revert}

@[simp] theorem safe96_eq_ok : safe96 n text = .ok result ↔ n < 2 ^ 96 ∧ result = n := by
  simp [safe96, @eq_comm _ n result]

@[simp] theorem safe32_eq_ok : safe32 n text = .ok result ↔ n < 2 ^ 32 ∧ result = n := by
  simp [safe32, @eq_comm _ n result]

@[simp] theorem sub96_eq_ok : sub96 a b text = .ok result ↔ b ≤ a ∧ result = a - b := by
  simp [sub96]

@[simp] theorem add96_eq_ok : add96 a b text = .ok result ↔ a + b < 2 ^ 96 ∧ result = a + b := by
  simp only [add96, bind_eq_ok, uint_eq_ok, require_eq_ok, pure_eq_ok]
  constructor
  · rintro ⟨_, ⟨fits, rfl⟩, _, -, rfl⟩
    exact ⟨fits, rfl⟩
  · rintro ⟨fits, rfl⟩
    have grows : a ≤ a + b := by omega
    exact ⟨_, ⟨fits, rfl⟩, (), grows, rfl⟩

theorem sub96_eq_error : sub96 a b text = .error reason ↔ a < b ∧ reason = .message text := by
  simp only [sub96, bind_eq_error, require_eq_error, require_eq_ok, checkedSub_eq_error, exists_const]
  constructor
  · rintro (⟨short, rfl⟩ | ⟨enough, under, -⟩)
    · exact ⟨by omega, rfl⟩
    · omega
  · rintro ⟨short, rfl⟩
    exact .inl ⟨by omega, rfl⟩

/-- The message of `add96` is never the reason of a failure. -/
theorem add96_eq_error : add96 a b text = .error reason ↔ 2 ^ 96 ≤ a + b ∧ reason = .panic := by
  simp only [add96, bind_eq_error, uint_eq_error, uint_eq_ok, require_eq_error, pure_ne_error,
    exists_const, and_false, or_false]
  constructor
  · rintro (overflow | ⟨_, ⟨-, rfl⟩, smaller, -⟩)
    · exact overflow
    · omega
  · exact .inl

end Checks

/-! ### Votes after a write -/

section Votes

variable {t u : Vcon} {block : Block} {delegatee d srcRep dstRep : Address} {newVotes amount : ℕ}
  {reason : Revert}

/-- Writing a checkpoint touches the checkpoints only. -/
theorem writeCheckpoint_frame {nCheckpoints : ℕ}
    (success : t.writeCheckpoint block delegatee nCheckpoints newVotes = .ok u) :
    u = { t with checkpoints := u.checkpoints, numCheckpoints := u.numCheckpoints } := by
  simp only [writeCheckpoint, bind_eq_ok, safe32_eq_ok] at success
  obtain ⟨_, ⟨-, rfl⟩, success⟩ := success
  split_ifs at success
  · obtain rfl := pure_eq_ok.mp success
    rfl
  · simp only [bind_eq_ok, uint_eq_ok, pure_eq_ok] at success
    obtain ⟨_, ⟨-, rfl⟩, rfl⟩ := success
    rfl

/-- A checkpoint written after the last one, or over it, is the current one. -/
theorem writeCheckpoint_votes
    (success : t.writeCheckpoint block delegatee (t.numCheckpoints delegatee) newVotes = .ok u) :
    u.getCurrentVotes d = if d = delegatee then newVotes else t.getCurrentVotes d := by
  simp only [writeCheckpoint, bind_eq_ok, safe32_eq_ok] at success
  obtain ⟨_, ⟨-, rfl⟩, success⟩ := success
  by_cases same : d = delegatee
  · subst same
    rw [if_pos rfl]
    split_ifs at success with last
    · obtain rfl := pure_eq_ok.mp success
      simp only [getCurrentVotes, setCheckpoint, Function.update_self, if_pos last.1]
    · simp only [bind_eq_ok, uint_eq_ok, pure_eq_ok] at success
      obtain ⟨_, ⟨-, rfl⟩, rfl⟩ := success
      simp [getCurrentVotes, setCheckpoint]
  · rw [if_neg same]
    split_ifs at success
    · obtain rfl := pure_eq_ok.mp success
      simp only [getCurrentVotes, setCheckpoint, Function.update_of_ne same]
    · simp only [bind_eq_ok, uint_eq_ok, pure_eq_ok] at success
      obtain ⟨_, ⟨-, rfl⟩, rfl⟩ := success
      simp only [getCurrentVotes, setCheckpoint, Function.update_of_ne same]

/-- The checkpoints of other accounts are not counted again. -/
theorem writeCheckpoint_count {nCheckpoints : ℕ} (other : d ≠ delegatee)
    (success : t.writeCheckpoint block delegatee nCheckpoints newVotes = .ok u) :
    u.numCheckpoints d = t.numCheckpoints d := by
  simp only [writeCheckpoint, bind_eq_ok, safe32_eq_ok] at success
  obtain ⟨_, ⟨-, rfl⟩, success⟩ := success
  split_ifs at success
  · obtain rfl := pure_eq_ok.mp success
    rfl
  · simp only [bind_eq_ok, uint_eq_ok, pure_eq_ok] at success
    obtain ⟨_, ⟨-, rfl⟩, rfl⟩ := success
    exact Function.update_of_ne other ..

/-- A checkpoint is only refused for a block number or an index that does not fit 32 bits. -/
theorem writeCheckpoint_error {nCheckpoints : ℕ}
    (failure : t.writeCheckpoint block delegatee nCheckpoints newVotes = .error reason) :
    (2 ^ 32 ≤ block.number ∧ reason = .message "Vcon: block number exceeds 32 bits") ∨
      (2 ^ 32 ≤ nCheckpoints + 1 ∧ reason = .panic) := by
  simp only [writeCheckpoint, safe32, bind_eq_error, require_eq_error, bind_eq_ok, require_eq_ok,
    pure_eq_ok, pure_ne_error, and_false, exists_const, or_false] at failure
  rcases failure with ⟨late, rfl⟩ | ⟨_, ⟨_, -, rfl⟩, failure⟩
  · exact .inl ⟨Nat.not_lt.mp late, rfl⟩
  · split_ifs at failure
    · exact (pure_ne_error.mp failure).elim
    · exact .inr (by simpa using failure)

theorem debitVotes_spec (success : t.debitVotes block srcRep amount = .ok u) :
    u = { t with checkpoints := u.checkpoints, numCheckpoints := u.numCheckpoints } ∧
      ∀ d ≠ 0, u.getCurrentVotes d + (if srcRep = d then amount else 0) = t.getCurrentVotes d := by
  rw [debitVotes] at success
  split_ifs at success with delegated
  · simp only [bind_eq_ok, sub96_eq_ok] at success
    obtain ⟨_, ⟨covered, rfl⟩, written⟩ := success
    refine ⟨writeCheckpoint_frame written, ?_⟩
    intro d _
    rw [writeCheckpoint_votes written]
    by_cases same : d = srcRep
    · subst same
      rw [if_pos rfl, if_pos rfl, Nat.sub_add_cancel covered]
    · rw [if_neg same, if_neg (Ne.symm same), add_zero]
  · obtain rfl := pure_eq_ok.mp success
    refine ⟨rfl, ?_⟩
    intro d nonzero
    rw [if_neg (not_not.mp delegated ▸ nonzero.symm), add_zero]

private theorem debitVotes_count (success : t.debitVotes block srcRep amount = .ok u)
    (other : d ≠ srcRep) : u.numCheckpoints d = t.numCheckpoints d := by
  rw [debitVotes] at success
  split_ifs at success
  · obtain ⟨_, -, written⟩ := bind_eq_ok.mp success
    exact writeCheckpoint_count other written
  · obtain rfl := pure_eq_ok.mp success
    rfl

theorem creditVotes_spec (success : t.creditVotes block dstRep amount = .ok u) :
    u = { t with checkpoints := u.checkpoints, numCheckpoints := u.numCheckpoints } ∧
      ∀ d ≠ 0, u.getCurrentVotes d = t.getCurrentVotes d + if dstRep = d then amount else 0 := by
  rw [creditVotes] at success
  split_ifs at success with delegated
  · simp only [bind_eq_ok, add96_eq_ok] at success
    obtain ⟨_, ⟨-, rfl⟩, written⟩ := success
    refine ⟨writeCheckpoint_frame written, ?_⟩
    intro d _
    rw [writeCheckpoint_votes written]
    by_cases same : d = dstRep
    · subst same
      rw [if_pos rfl, if_pos rfl]
    · rw [if_neg same, if_neg (Ne.symm same), add_zero]
  · obtain rfl := pure_eq_ok.mp success
    refine ⟨rfl, ?_⟩
    intro d nonzero
    rw [if_neg (not_not.mp delegated ▸ nonzero.symm), add_zero]

/-- Moving votes takes the amount from one delegate and gives it to the other; the zero address
stands for no delegate. -/
theorem moveDelegates_spec (success : t.moveDelegates block srcRep dstRep amount = .ok u) :
    u = { t with checkpoints := u.checkpoints, numCheckpoints := u.numCheckpoints } ∧
      ∀ d ≠ 0, u.getCurrentVotes d + (if srcRep = d then amount else 0) =
        t.getCurrentVotes d + if dstRep = d then amount else 0 := by
  rw [moveDelegates] at success
  split_ifs at success with moves
  · obtain ⟨m, debited, credited⟩ := bind_eq_ok.mp success
    obtain ⟨frame, taken⟩ := debitVotes_spec debited
    obtain ⟨frame', given⟩ := creditVotes_spec credited
    constructor
    · rw [frame', frame]
    · intro d nonzero
      have before := taken d nonzero
      have after := given d nonzero
      omega
  · obtain rfl := pure_eq_ok.mp success
    refine ⟨rfl, ?_⟩
    intro d _
    by_cases same : srcRep = dstRep
    · rw [same]
    · have nothing : amount = 0 := by
        by_contra positive
        apply moves
        exact ⟨same, by omega⟩
      rw [nothing, ite_self, ite_self]

/-- Where the votes cover the move, it only fails for a block number or an index out of range. -/
theorem moveDelegates_error
    (covered : srcRep ≠ 0 → srcRep ≠ dstRep → amount ≤ t.getCurrentVotes srcRep)
    (fits : dstRep ≠ 0 → srcRep ≠ dstRep → t.getCurrentVotes dstRep + amount < 2 ^ 96)
    (failure : t.moveDelegates block srcRep dstRep amount = .error reason) :
    (2 ^ 32 ≤ block.number ∧ reason = .message "Vcon: block number exceeds 32 bits") ∨
      ((∃ d, 2 ^ 32 ≤ t.numCheckpoints d + 1) ∧ reason = .panic) := by
  rw [moveDelegates] at failure
  split_ifs at failure with moves
  · rcases bind_eq_error.mp failure with failure | ⟨m, debited, failure⟩
    · rw [debitVotes] at failure
      split_ifs at failure with delegated
      · rcases bind_eq_error.mp failure with short | ⟨_, -, refused⟩
        · have enough := covered delegated moves.1
          have less := (sub96_eq_error.mp short).1
          omega
        · apply (writeCheckpoint_error refused).imp_right
          intro exhausted
          exact ⟨⟨srcRep, exhausted.1⟩, exhausted.2⟩
      · exact (pure_ne_error.mp failure).elim
    · rw [creditVotes] at failure
      split_ifs at failure with delegated
      · have unchanged : m.getCurrentVotes dstRep = t.getCurrentVotes dstRep := by
          have taken := (debitVotes_spec debited).2 dstRep delegated
          rwa [if_neg moves.1, add_zero] at taken
        rcases bind_eq_error.mp failure with overflow | ⟨_, -, refused⟩
        · rw [unchanged] at overflow
          have small := fits delegated moves.1
          have large := (add96_eq_error.mp overflow).1
          omega
        · rw [debitVotes_count debited moves.1.symm] at refused
          apply (writeCheckpoint_error refused).imp_right
          intro exhausted
          exact ⟨⟨dstRep, exhausted.1⟩, exhausted.2⟩
      · exact (pure_ne_error.mp failure).elim
  · exact (pure_ne_error.mp failure).elim

end Votes

/-! ### Balances after a transfer or a mint -/

section Balances

variable {t u : Vcon} {sender src dst : Address} {rawAmount amount : ℕ}

theorem transferBalances_spec (success : t.transferBalances src dst amount = .ok u) :
    src ≠ 0 ∧ dst ≠ 0 ∧ amount ≤ t.balances src ∧
      u = { t with balances := Ledger.move t.balances src dst amount } := by
  simp only [transferBalances, bind_eq_ok, require_eq_ok, sub96_eq_ok, add96_eq_ok, pure_eq_ok] at success
  obtain ⟨_, source, _, target, _, ⟨covered, rfl⟩, _, ⟨-, rfl⟩, rfl⟩ := success
  exact ⟨source, target, covered, rfl⟩

theorem mintBalances_spec {minted : Vcon × ℕ} (success : t.mintBalances sender dst rawAmount = .ok minted) :
    sender = t.minter ∧ dst ≠ 0 ∧ t.totalSupply + rawAmount < 2 ^ 96 ∧
      minted = ({ t with totalSupply := t.totalSupply + rawAmount,
                         balances := Ledger.credit t.balances dst rawAmount }, rawAmount) := by
  simp only [mintBalances, bind_eq_ok, require_eq_ok, safe96_eq_ok, add96_eq_ok, pure_eq_ok] at success
  obtain ⟨_, minter, _, target, _, ⟨-, rfl⟩, _, ⟨-, rfl⟩, _, ⟨fits, rfl⟩, _, ⟨-, rfl⟩, rfl⟩ := success
  exact ⟨minter, target, fits, rfl⟩

end Balances

/-! ### What each call leaves alone -/

section Frames

variable {t u : Vcon} {block : Block} {sender owner spender src dst delegator delegatee : Address}
  {rawAmount amount : ℕ}

theorem setAllowance_allowances (o p : Address) : (t.setAllowance owner spender amount).allowances o p =
    if o = owner ∧ p = spender then amount else t.allowances o p := by
  simp only [setAllowance]
  by_cases same : o = owner
  · subst same
    by_cases spends : p = spender
    · subst spends
      simp
    · simp [spends]
  · simp [same]

theorem transferTokens_spec (success : t.transferTokens block src dst amount = .ok u) :
    (src ≠ 0 ∧ dst ≠ 0 ∧ amount ≤ t.balances src) ∧
      u.balances = Ledger.move t.balances src dst amount ∧ u.allowances = t.allowances ∧
      u.nonces = t.nonces := by
  obtain ⟨m, moved, votes⟩ := bind_eq_ok.mp success
  obtain ⟨source, target, covered, rfl⟩ := transferBalances_spec moved
  obtain ⟨frame, -⟩ := moveDelegates_spec votes
  rw [frame]
  exact ⟨⟨source, target, covered⟩, rfl, rfl, rfl⟩

theorem delegateInternal_spec (success : t.delegateInternal block delegator delegatee = .ok u) :
    u.delegates = Function.update t.delegates delegator delegatee ∧ u.allowances = t.allowances ∧
      u.nonces = t.nonces := by
  obtain ⟨frame, -⟩ := moveDelegates_spec success
  rw [frame]
  exact ⟨rfl, rfl, rfl⟩

theorem mint_frame (success : t.mint block sender dst rawAmount = .ok u) :
    u.allowances = t.allowances ∧ u.nonces = t.nonces := by
  obtain ⟨⟨m, amount⟩, minted, votes⟩ := bind_eq_ok.mp success
  obtain ⟨-, -, -, both⟩ := mintBalances_spec minted
  obtain ⟨rfl, rfl⟩ := Prod.mk.inj both
  obtain ⟨frame, -⟩ := moveDelegates_spec votes
  rw [frame]
  exact ⟨rfl, rfl⟩

theorem setMinter_frame (success : t.setMinter sender dst = .ok u) :
    u.allowances = t.allowances ∧ u.nonces = t.nonces := by
  simp only [setMinter, bind_eq_ok, pure_eq_ok] at success
  obtain ⟨_, -, rfl⟩ := success
  exact ⟨rfl, rfl⟩

theorem approvalAmount_le (success : approvalAmount rawAmount = .ok amount) : amount ≤ uint96Max := by
  rw [approvalAmount] at success
  split_ifs at success
  · exact (pure_eq_ok.mp success).ge
  · obtain ⟨fits, rfl⟩ := safe96_eq_ok.mp success
    exact Nat.le_sub_one_of_lt fits

theorem approve_spec (success : t.approve sender spender rawAmount = .ok u) :
    ∃ amount, approvalAmount rawAmount = .ok amount ∧ u = t.setAllowance sender spender amount := by
  obtain ⟨amount, approved, written⟩ := bind_eq_ok.mp success
  exact ⟨amount, approved, (pure_eq_ok.mp written).symm⟩

theorem transfer_spec (success : t.transfer block sender dst rawAmount = .ok u) :
    u.allowances = t.allowances ∧ u.nonces = t.nonces := by
  obtain ⟨amount, -, transferred⟩ := bind_eq_ok.mp success
  exact (transferTokens_spec transferred).2.2

/-- A transfer of another account's tokens spends the allowance, unless that is unlimited or the account
is the sender's own. -/
theorem transferFrom_spec (success : t.transferFrom block sender src dst rawAmount = .ok u) :
    (src ≠ 0 ∧ dst ≠ 0 ∧ rawAmount ≤ t.balances src) ∧
      u.balances = Ledger.move t.balances src dst rawAmount ∧ u.nonces = t.nonces ∧
      if sender ≠ src ∧ t.allowances src sender ≠ uint96Max then
        rawAmount ≤ t.allowances src sender ∧
          u.allowances = (t.setAllowance src sender (t.allowances src sender - rawAmount)).allowances
      else u.allowances = t.allowances := by
  simp only [transferFrom, bind_eq_ok, safe96_eq_ok] at success
  obtain ⟨_, ⟨-, rfl⟩, success⟩ := success
  split_ifs at success ⊢ with spends
  · simp only [bind_eq_ok, sub96_eq_ok] at success
    obtain ⟨_, ⟨enough, rfl⟩, transferred⟩ := success
    obtain ⟨passed, balances, allowances, nonces⟩ := transferTokens_spec transferred
    exact ⟨passed, balances, nonces, enough, allowances⟩
  · obtain ⟨passed, balances, allowances, nonces⟩ := transferTokens_spec success
    exact ⟨passed, balances, nonces, allowances⟩

theorem delegateBySig_spec {crypto : Crypto} {self : Address} {nonce expiry v r s : ℕ}
    (success : t.delegateBySig block crypto self delegatee nonce expiry v r s = .ok u) :
    ∃ signatory, signatory ≠ 0 ∧ crypto.ecrecover (crypto.keccakTypedData (domainSeparator block crypto self)
        (crypto.keccakWords [crypto.keccakText "Delegation(address delegatee,uint256 nonce,uint256 expiry)",
          delegatee.val, nonce, expiry])) v r s = signatory ∧
      nonce = t.nonces signatory ∧ block.timestamp ≤ expiry ∧
      u.delegates = Function.update t.delegates signatory delegatee ∧ u.allowances = t.allowances ∧
      u.nonces = Function.update t.nonces signatory (nonce + 1) := by
  simp only [delegateBySig, bind_eq_ok, require_eq_ok, uint_eq_ok] at success
  obtain ⟨_, signed, _, ⟨-, rfl⟩, _, current, _, timely, delegated⟩ := success
  obtain ⟨delegates, allowances, nonces⟩ := delegateInternal_spec delegated
  refine ⟨_, signed, rfl, current, timely, delegates, allowances, ?_⟩
  rw [nonces, ← current]

theorem permit_spec {crypto : Crypto} {self : Address} {deadline v r s : ℕ}
    (success : t.permit block crypto self owner spender rawAmount deadline v r s = .ok u) :
    ∃ amount, approvalAmount rawAmount = .ok amount ∧ owner ≠ 0 ∧
      crypto.ecrecover (crypto.keccakTypedData (domainSeparator block crypto self)
        (crypto.keccakWords [crypto.keccakText
          "Permit(address owner,address spender,uint256 value,uint256 nonce,uint256 deadline)",
          owner.val, spender.val, rawAmount, t.nonces owner, deadline])) v r s = owner ∧
      block.timestamp ≤ deadline ∧
      u = { t with nonces := Function.update t.nonces owner (t.nonces owner + 1)
                   allowances := (t.setAllowance owner spender amount).allowances } := by
  simp only [permit, bind_eq_ok, require_eq_ok, uint_eq_ok, pure_eq_ok] at success
  obtain ⟨amount, approved, _, ⟨-, rfl⟩, _, signed, _, own, _, timely, rfl⟩ := success
  exact ⟨amount, approved, own ▸ signed, own, timely, rfl⟩

end Frames

end Vcon

end VoltProtocol
