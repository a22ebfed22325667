import Mathlib.Algebra.BigOperators.Group.Finset.Basic
import Mathlib.Algebra.Order.BigOperators.Group.Finset
import Mathlib.Algebra.Order.Sub.Basic
import Mathlib.Tactic

/-! # Ledgers of amounts per account

A ledger is a function from accounts to amounts. Crediting, debiting and moving amounts are
function updates; what they do to the sum over any set of accounts is what conservation and
solvency arguments need. Amounts live in any canonically ordered additive monoid with truncated
subtraction, so a debit is only meaningful when the account holds enough.
-/

namespace Ledger

variable {α M : Type*} [DecidableEq α]

section Updates

/-- Add to the amount of one account. -/
def credit [Add M] (balances : α → M) (account : α) (amount : M) : α → M :=
  Function.update balances account (balances account + amount)

/-- Take from the amount of one account. -/
def debit [Sub M] (balances : α → M) (account : α) (amount : M) : α → M :=
  Function.update balances account (balances account - amount)

/-- Take an amount from one account and add it to another, or to the same one. -/
def move [Add M] [Sub M] (balances : α → M) (source target : α) (amount : M) : α → M :=
  credit (debit balances source amount) target amount

variable {balances : α → M} {account source target other : α} {amount : M}

@[simp] theorem credit_self [Add M] :
    credit balances account amount account = balances account + amount := by simp [credit]

@[simp] theorem credit_of_ne [Add M] (different : other ≠ account) :
    credit balances account amount other = balances other := by simp [credit, different]

@[simp] theorem debit_self [Sub M] :
    debit balances account amount account = balances account - amount := by simp [debit]

@[simp] theorem debit_of_ne [Sub M] (different : other ≠ account) :
    debit balances account amount other = balances other := by simp [debit, different]

variable [Add M] [Sub M]

theorem move_source (different : source ≠ target) :
    move balances source target amount source = balances source - amount := by
  simp [move, different]

theorem move_target (different : source ≠ target) :
    move balances source target amount target = balances target + amount := by
  simp [move, different.symm]

theorem move_of_ne (notSource : other ≠ source) (notTarget : other ≠ target) :
    move balances source target amount other = balances other := by
  simp [move, notSource, notTarget]

end Updates

/-! ### One ledger per token -/

section Tables

variable {τ : Type*} [DecidableEq τ] [Add M]

/-- Credit an account in the ledger of one token. -/
def creditIn (table : τ → α → M) (token : τ) (account : α) (amount : M) : τ → α → M :=
  Function.update table token (credit (table token) account amount)

/-- Move an amount in the ledger of one token. -/
def moveIn [Sub M] (table : τ → α → M) (token : τ) (source target : α) (amount : M) : τ → α → M :=
  Function.update table token (move (table token) source target amount)

variable {table : τ → α → M} {token other : τ} {account source target : α} {amount : M}

@[simp] theorem creditIn_self : creditIn table token account amount token =
    credit (table token) account amount := Function.update_self ..

@[simp] theorem moveIn_self [Sub M] : moveIn table token source target amount token =
    move (table token) source target amount := Function.update_self ..

theorem creditIn_of_ne (different : other ≠ token) :
    creditIn table token account amount other = table other := Function.update_of_ne different ..

theorem moveIn_of_ne [Sub M] (different : other ≠ token) :
    moveIn table token source target amount other = table other := Function.update_of_ne different ..

end Tables

variable [AddCommMonoid M]

/-- What a credit adds to the target of a move arrives as one amount. -/
theorem credit_move [Sub M] (balances : α → M) (source target : α) (amount more : M) :
    credit (move balances source target amount) target more =
      credit (debit balances source amount) target (amount + more) := by
  funext a
  rcases eq_or_ne a target with rfl | different
  · simp only [move, credit_self, add_assoc]
  · simp only [move, credit_of_ne different]

/-- An amount went from one account to another, or to the same one, and no other account changed. -/
def Moved (before after : α → M) (source target : α) (amount : M) : Prop :=
  ∀ a, after a + (if a = source then amount else 0) = before a + if a = target then amount else 0

section Moved

variable {before after : α → M} {source target other : α} {amount : M}

theorem Moved.add_source (moved : Moved before after source target amount) (different : source ≠ target) :
    after source + amount = before source := by
  have here := moved source
  rwa [if_pos rfl, if_neg different, add_zero] at here

theorem Moved.at_target (moved : Moved before after source target amount) (different : source ≠ target) :
    after target = before target + amount := by
  have here := moved target
  rwa [if_pos rfl, if_neg different.symm, add_zero] at here

theorem Moved.elsewhere (moved : Moved before after source target amount) (notSource : other ≠ source)
    (notTarget : other ≠ target) : after other = before other := by
  have here := moved other
  rwa [if_neg notSource, if_neg notTarget, add_zero, add_zero] at here

end Moved

/-- An amount that goes on from where it arrived. -/
theorem Moved.trans [IsCancelAdd M] {first middle last : α → M} {source between target : α} {amount : M}
    (arrived : Moved first middle source between amount) (left : Moved middle last between target amount) :
    Moved first last source target amount := by
  intro a
  apply add_right_cancel (b := if a = between then amount else 0)
  rw [add_right_comm, left a, add_right_comm, arrived a]
  exact add_right_comm ..

/-- An amount that went from one account to another left the sets that hold the first and arrived in those that
hold the second. -/
theorem Moved.sum {before after : α → M} {source target : α} {amount : M}
    (moved : Moved before after source target amount) (accounts : Finset α) :
    ∑ a ∈ accounts, after a + (if source ∈ accounts then amount else 0) =
      ∑ a ∈ accounts, before a + if target ∈ accounts then amount else 0 := by
  have each := Finset.sum_congr (rfl : accounts = accounts) fun a _ => moved a
  simpa only [Finset.sum_add_distrib, Finset.sum_ite_eq'] using each

theorem Moved.zero (balances : α → M) (source target : α) : Moved balances balances source target 0 := by
  intro a
  rw [ite_self, ite_self]

section Nothing

variable [PartialOrder M] [Sub M] [OrderedSub M]

/-- Moving nothing changes nothing. -/
@[simp] theorem move_zero (balances : α → M) (source target : α) : move balances source target 0 = balances := by
  funext a
  rw [move, credit, debit, tsub_zero, Function.update_eq_self, add_zero, Function.update_eq_self]

@[simp] theorem moveIn_zero {τ : Type*} [DecidableEq τ] (table : τ → α → M) (token : τ) (source target : α) :
    moveIn table token source target 0 = table := by
  rw [moveIn, move_zero, Function.update_eq_self]

theorem moved_move [CanonicallyOrderedAdd M] {balances : α → M} {source : α} {amount : M} (target : α)
    (covered : amount ≤ balances source) :
    Moved balances (move balances source target amount) source target amount := by
  intro a
  by_cases debited : a = source
  · subst debited
    by_cases credited : a = target
    · subst credited
      rw [move, credit_self, debit_self, if_pos rfl, tsub_add_cancel_of_le covered]
    · rw [move_source credited, if_pos rfl, if_neg credited, tsub_add_cancel_of_le covered, add_zero]
  · by_cases credited : a = target
    · subst credited
      rw [move_target (Ne.symm debited), if_pos rfl, if_neg debited, add_zero]
    · rw [move_of_ne debited credited, if_neg debited, if_neg credited]

end Nothing

/-- Replacing one entry replaces its share of every sum that contains the account. -/
theorem sum_update (balances : α → M) (account : α) (value : M) (accounts : Finset α) :
    ∑ a ∈ accounts, Function.update balances account value a +
        (if account ∈ accounts then balances account else 0) =
      ∑ a ∈ accounts, balances a + if account ∈ accounts then value else 0 := by
  by_cases member : account ∈ accounts
  · rw [if_pos member, if_pos member, Finset.sum_update_of_mem member,
      ← Finset.add_sum_erase _ _ member, Finset.sdiff_singleton_eq_erase]
    abel
  · simp only [if_neg member, add_zero]
    exact Finset.sum_update_of_notMem member _ _

section Sums

variable [IsCancelAdd M]
variable {balances : α → M} {account source : α} {amount : M} (accounts : Finset α)

theorem sum_credit : ∑ a ∈ accounts, credit balances account amount a =
    ∑ a ∈ accounts, balances a + if account ∈ accounts then amount else 0 := by
  have changed := sum_update balances account (balances account + amount) accounts
  by_cases member : account ∈ accounts
  · simp only [if_pos member] at changed ⊢
    apply add_right_cancel (b := balances account)
    rw [show credit balances account amount = Function.update balances account _ from rfl, changed]
    abel
  · simp only [if_neg member, add_zero] at changed ⊢
    exact changed

/-- A ledger with one entry. -/
theorem sum_credit_zero (member : account ∈ accounts) :
    ∑ a ∈ accounts, credit (fun _ => 0) account amount a = amount := by
  rw [sum_credit, if_pos member, Finset.sum_const_zero, zero_add]

variable [PartialOrder M] [CanonicallyOrderedAdd M] [Sub M] [OrderedSub M]

omit [IsCancelAdd M] in
/-- A move takes its amount out of the sets that hold the source and adds it to those that hold
the target. -/
theorem sum_move (target : α) (covered : amount ≤ balances source) :
    ∑ a ∈ accounts, move balances source target amount a +
        (if source ∈ accounts then amount else 0) =
      ∑ a ∈ accounts, balances a + if target ∈ accounts then amount else 0 :=
  (moved_move target covered).sum accounts

/-- A move inside a set of accounts conserves its sum. -/
theorem sum_move_of_mem {target : α} (covered : amount ≤ balances source)
    (from_mem : source ∈ accounts) (to_mem : target ∈ accounts) :
    ∑ a ∈ accounts, move balances source target amount a = ∑ a ∈ accounts, balances a := by
  have moved := sum_move accounts target covered
  simpa only [if_pos from_mem, if_pos to_mem, add_left_inj] using moved

omit [IsCancelAdd M] in
/-- A move out of a set of accounts. -/
theorem sum_move_out {target : α} (covered : amount ≤ balances source) (inside : source ∈ accounts)
    (outside : target ∉ accounts) :
    ∑ a ∈ accounts, move balances source target amount a + amount = ∑ a ∈ accounts, balances a := by
  have moved := sum_move accounts target covered
  rwa [if_pos inside, if_neg outside, add_zero] at moved

omit [IsCancelAdd M] in
/-- A move that starts outside a set of accounts adds at most its amount. -/
theorem sum_move_in_le {target : α} (covered : amount ≤ balances source) (outside : source ∉ accounts) :
    ∑ a ∈ accounts, move balances source target amount a ≤ ∑ a ∈ accounts, balances a + amount := by
  have moved := sum_move accounts target covered
  rw [if_neg outside, add_zero] at moved
  rw [moved]
  split_ifs
  · exact le_rfl
  · rw [add_zero]
    exact le_self_add

end Sums

/-! ### Amounts grouped by a label -/

section Group

variable {δ : Type*} [DecidableEq δ] [Fintype α]

/-- The sum over all accounts that carry a given label. -/
def group (label : α → δ) (balances : α → M) (d : δ) : M :=
  ∑ a with label a = d, balances a

/-- Relabelling one account moves its amount from the old group to the new one. -/
theorem group_relabel (label : α → δ) (balances : α → M) (account : α) (new d : δ) :
    group (Function.update label account new) balances d +
        (if label account = d then balances account else 0) =
      group label balances d + if new = d then balances account else 0 := by
  have split (g : α → δ) : group g balances d =
      (if g account = d then balances account else 0) +
        ∑ a ∈ Finset.univ.erase account, if g a = d then balances a else 0 := by
    rw [group, Finset.sum_filter, ← Finset.add_sum_erase _ _ (Finset.mem_univ account)]
  have rest : ∑ a ∈ Finset.univ.erase account,
        (if Function.update label account new a = d then balances a else 0) =
      ∑ a ∈ Finset.univ.erase account, if label a = d then balances a else 0 := by
    apply Finset.sum_congr rfl
    intro a member
    rw [Function.update_of_ne (Finset.ne_of_mem_erase member)]
  rw [split, split label, rest, Function.update_self]
  abel

section Moves

variable [IsCancelAdd M] {balances : α → M} {source : α} {amount : M} (label : α → δ) (d : δ)

theorem group_credit (account : α) : group label (credit balances account amount) d =
    group label balances d + if label account = d then amount else 0 := by
  rw [group, group, sum_credit]
  simp only [Finset.mem_filter, Finset.mem_univ, true_and]

variable [PartialOrder M] [CanonicallyOrderedAdd M] [Sub M] [OrderedSub M]

omit [IsCancelAdd M] in
/-- A move between accounts is a move between their groups. -/
theorem group_move (target : α) (covered : amount ≤ balances source) :
    group label (move balances source target amount) d + (if label source = d then amount else 0) =
      group label balances d + if label target = d then amount else 0 := by
  have moved := sum_move (Finset.univ.filter fun a => label a = d) target covered
  simpa only [group, Finset.mem_filter, Finset.mem_univ, true_and] using moved

end Moves

omit [DecidableEq α] in
theorem group_le_sum [PartialOrder M] [CanonicallyOrderedAdd M] [IsOrderedAddMonoid M] (label : α → δ)
    (balances : α → M) (d : δ) : group label balances d ≤ ∑ a, balances a :=
  Finset.sum_le_sum_of_subset_of_nonneg (Finset.filter_subset ..) fun _ _ _ => zero_le

omit [DecidableEq α] in
/-- Any groups together are at most the sum over all accounts. -/
theorem sum_group_le_sum [PartialOrder M] [CanonicallyOrderedAdd M] [IsOrderedAddMonoid M] (label : α → δ)
    (balances : α → M) (groups : Finset δ) : ∑ d ∈ groups, group label balances d ≤ ∑ a, balances a := by
  simp only [group, Finset.sum_fiberwise_eq_sum_filter]
  exact Finset.sum_le_sum_of_subset_of_nonneg (Finset.filter_subset ..) fun _ _ _ => zero_le

end Group

end Ledger
