import VoltProtocol.Soundness.UniqueRoles
import Mathlib.Order.Lattice.Nat

/-! # The depth of a tree

`getMaxDepth` is one recursion over the children with a running maximum. It answers the number of nodes on the
longest path from the root, whatever is left in the storage around the tree. Every node on such a path but the
last has a child, so it took an insertion at each of them, and no node outside the tree makes a path longer
than the insertions that were made.
-/

namespace VoltProtocol.TreeDepth

open Machine KArrayTree UniqueRoles

/-! ### Greatest elements -/

/-- Of two sets, the first counts by its greatest element. -/
private theorem isGreatest_insert_union {α : Type*} [LinearOrder α] {s t : Set α} {a b d : α}
    (greatest : IsGreatest s b) :
    IsGreatest (insert a (s ∪ t)) d ↔ IsGreatest (insert (max a b) t) d := by
  have bounds : upperBounds (insert a (s ∪ t)) = upperBounds (insert (max a b) t) := by
    ext u
    simp only [upperBounds_insert, upperBounds_union, greatest.isLUB.upperBounds_eq, Set.mem_inter_iff,
      Set.mem_Ici, max_le_iff, and_assoc]
  constructor
  · rintro ⟨rfl | inside | other, above⟩
    · have below := above (.inr (.inl greatest.1))
      exact ⟨.inl (max_eq_left below).symm, bounds ▸ above⟩
    · have same : d = b := (greatest.2 inside).antisymm (above (.inr (.inl greatest.1)))
      subst same
      exact ⟨.inl (max_eq_right (above (.inl rfl))).symm, bounds ▸ above⟩
    · exact ⟨.inr other, bounds ▸ above⟩
  · rintro ⟨largest | other, above⟩
    · refine ⟨?_, bounds ▸ above⟩
      rw [largest]
      obtain first | second := max_choice a b
      · exact .inl first
      · rw [second]
        exact .inr (.inl greatest.1)
    · exact ⟨.inr (.inr other), bounds ▸ above⟩

private theorem exists_isGreatest {s : Set ℕ} {bound : ℕ} (nonempty : s.Nonempty)
    (within : ∀ m ∈ s, m ≤ bound) : ∃ m, IsGreatest s m :=
  ⟨sSup s, Nat.sSup_mem nonempty ⟨bound, within⟩, fun _ member => le_csSup ⟨bound, within⟩ member⟩

/-! ### What the recursion computes -/

/-- The depths of the nodes of a tree whose root is at a known depth. -/
def depths (n : Node) (currentDepth : ℕ) : Set ℕ :=
  {m | ∃ pointer, n.Attached pointer ∧ m = currentDepth + pointer.length}

/-- What the loop over the children has seen: the largest depth before it, and the depths below the children. -/
def seen (childMap : ℕ → Node) (currentDepth maxDepth : ℕ) (indices : List ℕ) : Set ℕ :=
  insert maxDepth {m | ∃ index ∈ indices, m ∈ depths (childMap index) (currentDepth + 1)}

variable {n : Node} {childMap : ℕ → Node} {childArray indices : List ℕ} {role currentDepth maxDepth depth : ℕ}

theorem mem_depths_self : currentDepth ∈ depths n currentDepth := ⟨[], trivial, rfl⟩

theorem depths_blank : depths .blank currentDepth = {currentDepth} := by
  ext m
  constructor
  · rintro ⟨pointer, attached, rfl⟩
    cases pointer with
    | nil => rfl
    | cons index rest => exact absurd attached.1 List.not_mem_nil
  · rintro rfl
    exact mem_depths_self

theorem depths_mk : depths (.mk role childArray childMap) currentDepth =
    seen childMap currentDepth currentDepth childArray := by
  ext m
  constructor
  · rintro ⟨pointer, attached, rfl⟩
    cases pointer with
    | nil => exact .inl rfl
    | cons index rest => exact .inr ⟨index, attached.1, rest, attached.2, by rw [List.length_cons]; omega⟩
  · rintro (rfl | ⟨index, member, rest, attached, rfl⟩)
    · exact mem_depths_self
    · exact ⟨index :: rest, ⟨member, attached⟩, by rw [List.length_cons]; omega⟩

theorem seen_nil : seen childMap currentDepth maxDepth [] = {maxDepth} := by simp [seen]

theorem seen_cons {index : ℕ} : seen childMap currentDepth maxDepth (index :: indices) =
    insert maxDepth (depths (childMap index) (currentDepth + 1) ∪
      {m | ∃ other ∈ indices, m ∈ depths (childMap other) (currentDepth + 1)}) := by
  simp only [seen, List.mem_cons, exists_eq_or_imp, Set.ofPred_or, Set.ofPred_mem_eq]

/-- The loop of `treeDepth` leaves the largest depth it has seen, if all depths fit a word. -/
theorem loop_eq_ok (child : ∀ index {currentDepth depth : ℕ}, currentDepth < 2 ^ 256 →
      ((childMap index).treeDepth currentDepth = .ok depth ↔
        IsGreatest (depths (childMap index) currentDepth) depth ∧ depth < 2 ^ 256))
    (fits : maxDepth < 2 ^ 256) :
    indices.foldlM (fun maxDepth index => do
        let newDepth ← (childMap index).treeDepth (← uint 256 (currentDepth + 1))
        return if newDepth > maxDepth then newDepth else maxDepth) maxDepth = .ok depth ↔
      IsGreatest (seen childMap currentDepth maxDepth indices) depth ∧ depth < 2 ^ 256 := by
  induction indices generalizing maxDepth with
  | nil =>
    rw [List.foldlM_nil, pure_eq_ok, seen_nil]
    constructor
    · rintro rfl
      exact ⟨isGreatest_singleton, fits⟩
    · rintro ⟨greatest, -⟩
      exact (Set.mem_singleton_iff.mp greatest.1).symm
  | cons index rest ih =>
    simp only [List.foldlM_cons, bind_eq_ok, uint_eq_ok, pure_eq_ok]
    constructor
    · rintro ⟨_, ⟨_, ⟨bound, rfl⟩, newDepth, found, rfl⟩, remaining⟩
      obtain ⟨deepest, small⟩ := (child index bound).mp found
      rw [← max_def_lt] at remaining
      rw [seen_cons, isGreatest_insert_union deepest]
      exact (ih (max_lt fits small)).mp remaining
    · rintro ⟨greatest, small⟩
      rw [seen_cons] at greatest
      have within (m : ℕ) (member : m ∈ depths (childMap index) (currentDepth + 1)) : m ≤ depth :=
        greatest.2 (.inr (.inl member))
      have bound : currentDepth + 1 < 2 ^ 256 := (within _ mem_depths_self).trans_lt small
      obtain ⟨newDepth, deepest⟩ := exists_isGreatest ⟨_, mem_depths_self⟩ within
      have below : newDepth < 2 ^ 256 := (within _ deepest.1).trans_lt small
      rw [isGreatest_insert_union deepest] at greatest
      refine ⟨_, ⟨_, ⟨bound, rfl⟩, newDepth, (child index bound).mpr ⟨deepest, below⟩, rfl⟩, ?_⟩
      rw [← max_def_lt]
      exact (ih (max_lt fits below)).mpr ⟨greatest, small⟩

theorem treeDepth_eq_ok (fits : currentDepth < 2 ^ 256) : n.treeDepth currentDepth = .ok depth ↔
    IsGreatest (depths n currentDepth) depth ∧ depth < 2 ^ 256 := by
  induction n generalizing currentDepth depth with
  | blank =>
    rw [Node.treeDepth, pure_eq_ok, depths_blank]
    constructor
    · rintro rfl
      exact ⟨isGreatest_singleton, fits⟩
    · rintro ⟨greatest, -⟩
      exact (Set.mem_singleton_iff.mp greatest.1).symm
  | mk role childArray childMap ih =>
    rw [Node.treeDepth, depths_mk, ← loop_eq_ok (fun index => ih index) fits]
    split_ifs with leaf
    · rw [List.eq_nil_of_length_eq_zero leaf, List.foldlM_nil]
    · rfl

/-! ### How deep insertions make a tree -/

/-- The calls that may add a node. -/
def Inserts : Call → Bool
  | .insert .. | .insertAt .. => true
  | .setRole .. | .free _ => false

/-- A node in storage that has children. -/
def Parent (n : Node) (pointer : Pointer) : Prop := (n.load pointer).childArray ≠ []

section Parents

variable {node root next : Node} {pointer : Pointer} {keyToAdd : ℕ} {call : Call}

theorem parent_append {rest : Pointer} : Parent n (pointer ++ rest) ↔ Parent (n.load pointer) rest := by
  rw [Parent, Node.load_append, Parent]

/-- Writing a node makes parents only of those that are parents below the node itself. -/
theorem parent_store {other : Pointer} (parent : Parent (n.store node pointer) other) :
    Parent n other ∨ ∃ rest, other = pointer ++ rest ∧ Parent node rest := by
  induction pointer generalizing n other with
  | nil => exact .inr ⟨other, rfl, parent⟩
  | cons index pointer ih =>
    cases other with
    | nil => exact .inl parent
    | cons first other =>
      change Parent ((n.withChild index _).childMap first) other at parent
      rw [Node.childMap_withChild] at parent
      by_cases same : first = index
      · subst same
        rw [Function.update_self] at parent
        obtain before | ⟨rest, rfl, below⟩ := ih parent
        · exact .inl before
        · exact .inr ⟨rest, rfl, below⟩
      · rw [Function.update_of_ne same] at parent
        exact .inl parent

theorem parent_withRole {rest : Pointer} : Parent (n.withRole role) rest ↔ Parent n rest := by
  cases rest <;> exact Iff.rfl

/-- A new child makes a parent of the node that it is added to, and of no other. -/
theorem parent_pushed {rest : Pointer} (parent : Parent (n.pushed keyToAdd) rest) : Parent n rest ∨ rest = [] := by
  cases rest with
  | nil => exact .inr rfl
  | cons first rest =>
    change Parent ((n.pushed keyToAdd).childMap first) rest at parent
    rw [Node.pushed, Node.childMap_withChild, Node.childMap_mk] at parent
    by_cases same : first = n.childArray.length
    · subst same
      rw [Function.update_self, parent_withRole] at parent
      exact .inl parent
    · rw [Function.update_of_ne same] at parent
      exact .inl parent

theorem parent_free {rest : Pointer} (parent : Parent n.free rest) : Parent n rest := by
  induction n generalizing rest with
  | blank => exact parent
  | mk role childArray childMap ih =>
    cases rest with
    | nil => exact absurd rfl parent
    | cons first rest =>
      change Parent (if first ∈ childArray then ((childMap first).free).delete else childMap first) rest at parent
      split_ifs at parent
      · cases rest with
        | nil => exact absurd rfl parent
        | cons second rest => exact ih first parent
      · exact parent

/-- What a call writes at a pointer makes a parent only where the node written has one more. -/
theorem parents_of_store {parent : Pointer}
    (added : ∀ rest, Parent node rest → Parent (root.load pointer) rest ∨ pointer ++ rest = parent)
    {other : Pointer} (written : Parent (root.store node pointer) other) : Parent root other ∨ other = parent := by
  obtain before | ⟨rest, rfl, below⟩ := parent_store written
  · exact .inl before
  · obtain before | new := added rest below
    · exact .inl (parent_append.mpr before)
    · exact .inr new

/-- A call makes at most one more parent, and only an insertion makes one. -/
theorem parents_of_step (stepped : step root call = .ok next) :
    ∃ parent, ∀ other, Parent next other → Parent root other ∨ (Inserts call = true ∧ other = parent) := by
  cases call with
  | setRole pointer role =>
    obtain ⟨node, written, rfl⟩ := map_eq_ok.mp stepped
    obtain ⟨-, rfl⟩ := Node.setRole_spec written
    refine ⟨[], fun other parent => .inl ?_⟩
    obtain before | ⟨rest, rfl, below⟩ := parent_store parent
    · exact before
    · exact parent_append.mpr (parent_withRole.mp below)
  | insert pointer keyToAdd =>
    obtain ⟨node, inserted, rfl⟩ := map_eq_ok.mp stepped
    obtain ⟨-, rfl⟩ := Node.insert_spec inserted
    refine ⟨pointer, fun other parent => ?_⟩
    refine (parents_of_store (fun rest below => ?_) parent).imp_right fun new => ⟨rfl, new⟩
    obtain before | rfl := parent_pushed below
    · exact .inl before
    · exact .inr (List.append_nil pointer)
  | insertAt pointer keyToFind keyToAdd =>
    obtain ⟨node, inserted, rfl⟩ := map_eq_ok.mp stepped
    obtain ⟨-, rfl⟩ := Node.insertAt_spec inserted
    cases (root.load pointer).traverse keyToFind with
    | none =>
      refine ⟨[], fun other parent => .inl ?_⟩
      rw [Option.elim_none] at parent
      obtain before | ⟨rest, rfl, below⟩ := parent_store parent
      · exact before
      · exact parent_append.mpr below
    | some elem =>
      refine ⟨pointer ++ elem, fun other parent => ?_⟩
      rw [Option.elim_some, Node.store_append, ← Node.load_append] at parent
      refine (parents_of_store (fun rest below => ?_) parent).imp_right fun new => ⟨rfl, new⟩
      obtain before | rfl := parent_pushed below
      · exact .inl before
      · exact .inr (List.append_nil _)
  | free pointer =>
    obtain rfl := Except.ok.inj stepped
    refine ⟨[], fun other parent => .inl ?_⟩
    obtain before | ⟨rest, rfl, below⟩ := parent_store parent
    · exact before
    · exact parent_append.mpr (parent_free below)

/-- After a run there are at most as many more parents as insertions were made. -/
theorem parents_of_run {calls : List Call} {parents : Finset Pointer}
    (known : ∀ pointer, Parent root pointer → pointer ∈ parents) (success : run step root calls = .ok next) :
    ∃ more : Finset Pointer, (∀ pointer, Parent next pointer → pointer ∈ more) ∧
      more.card ≤ parents.card + calls.countP Inserts := by
  induction calls generalizing root parents with
  | nil =>
    obtain rfl := run_nil_ok.mp success
    exact ⟨parents, known, le_rfl⟩
  | cons call rest ih =>
    obtain ⟨middle, stepped, suffix⟩ := run_cons_ok.mp success
    obtain ⟨parent, new⟩ := parents_of_step stepped
    rw [List.countP_cons]
    cases inserts : Inserts call with
    | false =>
      apply ih (fun pointer later => ?_) suffix
      obtain before | ⟨inserted, -⟩ := new pointer later
      · exact known pointer before
      · exact absurd (inserts.symm.trans inserted) Bool.false_ne_true
    | true =>
      have among (pointer : Pointer) (later : Parent middle pointer) : pointer ∈ insert parent parents := by
        obtain before | ⟨-, rfl⟩ := new pointer later
        · exact Finset.mem_insert_of_mem (known pointer before)
        · exact Finset.mem_insert_self pointer parents
      obtain ⟨more, all, few⟩ := ih among suffix
      have one := Finset.card_insert_le parent parents
      refine ⟨more, all, ?_⟩
      rw [if_pos rfl]
      omega

/-- Every node above one in the tree is a parent. -/
theorem length_le_card {parents : Finset Pointer} (known : ∀ pointer, Parent n pointer → pointer ∈ parents)
    (attached : n.Attached pointer) : pointer.length ≤ parents.card := by
  have above (i : ℕ) (shorter : i ∈ Finset.range pointer.length) : pointer.take i ∈ parents := by
    apply known
    rw [← List.take_append_drop i pointer, List.drop_eq_getElem_cons (Finset.mem_range.mp shorter),
      Node.attached_append] at attached
    exact List.ne_nil_of_mem attached.2.1
  have different : Set.InjOn pointer.take (Finset.range pointer.length) := by
    intro i shorter j shorter' same
    have lengths := congrArg List.length same
    have := Finset.mem_range.mp shorter
    have := Finset.mem_range.mp shorter'
    rw [List.length_take, List.length_take] at lengths
    omega
  calc
    pointer.length = (Finset.range pointer.length).card := (Finset.card_range _).symm
    _ ≤ parents.card := Finset.card_le_card_of_injOn pointer.take above different

end Parents

/-- After any operations on an empty tree, at any pointers, whatever they left in storage, `getMaxDepth` answers
the number of nodes on the longest path from the root, which is at most one more than the insertions made. -/
theorem max_depth_exact {root : Node} {calls : List Call} (success : run step .blank calls = .ok root)
    (few : calls.countP Inserts + 1 < 2 ^ 256) :
    ∃ depth, root.getMaxDepth = .ok depth ∧
      IsGreatest {m | ∃ pointer, root.Attached pointer ∧ m = 1 + pointer.length} depth ∧
      depth ≤ calls.countP Inserts + 1 := by
  have childless (pointer : Pointer) (parent : Parent .blank pointer) : pointer ∈ (∅ : Finset Pointer) := by
    rw [Parent, Node.load_blank] at parent
    exact absurd rfl parent
  obtain ⟨parents, known, bounded⟩ := parents_of_run childless success
  rw [Finset.card_empty, zero_add] at bounded
  have within (m : ℕ) (member : m ∈ depths root 1) : m ≤ calls.countP Inserts + 1 := by
    obtain ⟨pointer, attached, rfl⟩ := member
    have short := length_le_card known attached
    omega
  obtain ⟨depth, greatest⟩ := exists_isGreatest ⟨_, mem_depths_self⟩ within
  have bound := within depth greatest.1
  exact ⟨depth, (treeDepth_eq_ok (by decide)).mpr ⟨greatest, bound.trans_lt few⟩, greatest, bound⟩

/-- A node left below a freed child comes back into the tree and makes it deeper by two at once. -/
theorem max_depth_exact_back_from_storage :
    let calls := [.setRole [] 1, .insert [] 2, .free [], .insert [0] 3, .insert [] 4]
    ∃ root, run step .blank calls = .ok root ∧
      IsGreatest {m | ∃ pointer, root.Attached pointer ∧ m = 1 + pointer.length} 3 := by
  intro calls
  obtain ⟨root, success⟩ : ∃ root, run step .blank calls = .ok root := ⟨_, rfl⟩
  have observed : run step .blank calls >>= Node.getMaxDepth = .ok 3 := rfl
  obtain ⟨depth, answer, greatest, -⟩ := max_depth_exact success (by decide)
  rw [success, ok_bind, answer] at observed
  obtain rfl := Except.ok.inj observed
  exact ⟨root, success, greatest⟩

end VoltProtocol.TreeDepth
