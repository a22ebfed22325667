import VoltProtocol.Model.Solidity

/-! # KArrayTree, a tree of roles in storage

A node has a role, the indices of its children and a mapping of all indices to nodes. A mapping cannot
be deleted, so a node that is freed keeps its slot: the tree is what the index arrays reach, and there
are nodes in storage outside it. A storage pointer is the path of indices from the root.
-/

namespace VoltProtocol

namespace KArrayTree

/-- A node in storage; `blank` is one that was never written. Roles are words, and `0` is no role. -/
inductive Node where
  | blank
  | mk (role : ℕ) (childArray : List ℕ) (childMap : ℕ → Node)

abbrev Pointer := List ℕ

namespace Node

def role : Node → ℕ
  | blank => 0
  | mk role _ _ => role

def childArray : Node → List ℕ
  | blank => []
  | mk _ childArray _ => childArray

def childMap : Node → ℕ → Node
  | blank => fun _ => blank
  | mk _ _ childMap => childMap

/-- Write the role of a node. -/
def withRole (n : Node) (role : ℕ) : Node := mk role n.childArray n.childMap

/-- Write one entry of the mapping of a node. -/
def withChild (n : Node) (index : ℕ) (child : Node) : Node :=
  mk n.role n.childArray (Function.update n.childMap index child)

/-- `delete`, which leaves the mapping of the node as it is. -/
def delete (n : Node) : Node := mk 0 [] n.childMap

section Fields

variable (n child : Node) (role' index : ℕ) (array : List ℕ) (map : ℕ → Node)

@[simp] theorem childArray_mk : (mk role' array map).childArray = array := rfl
@[simp] theorem childMap_mk : (mk role' array map).childMap = map := rfl
@[simp] theorem role_withRole : (n.withRole role').role = role' := rfl
@[simp] theorem childArray_withRole : (n.withRole role').childArray = n.childArray := rfl
@[simp] theorem childArray_withChild : (n.withChild index child).childArray = n.childArray := rfl
@[simp] theorem childMap_withChild :
    (n.withChild index child).childMap = Function.update n.childMap index child := rfl

end Fields

/-- The node at a pointer. -/
def load (n : Node) : Pointer → Node
  | [] => n
  | index :: rest => (n.childMap index).load rest

/-- Replace the node at a pointer. -/
def store (n : Node) (node : Node) : Pointer → Node
  | [] => node
  | index :: rest => n.withChild index ((n.childMap index).store node rest)

/-- The pointer to the first node with a role, in the order of the recursion. -/
def traverse : Node → ℕ → Option Pointer
  | blank, key => if 0 = key then some [] else none
  | mk role childArray childMap, key =>
    if role = key then some []
    else childArray.findSome? fun index => (traverse (childMap index) key).map (index :: ·)

def «exists» (n : Node) (key : ℕ) : Bool := (n.traverse key).isSome

def setRole (n : Node) (role : ℕ) : Except Revert Node := do
  require (!n.exists role) "cannot set duplicate"
  return n.withRole role

/-- `insert` with one key: a new child of the node itself. -/
def insert (n : Node) (keyToAdd : ℕ) : Except Revert Node := do
  require (!n.exists keyToAdd) "cannot insert duplicate"
  let index := n.childArray.length
  let pushed := mk n.role (n.childArray ++ [index]) n.childMap
  return pushed.withChild index ((n.childMap index).withRole keyToAdd)

/-- `insert` with two keys: a new child of the node with the first one, if there is such a node. -/
def insertAt (n : Node) (keyToFind keyToAdd : ℕ) : Except Revert Node := do
  require (!n.exists keyToAdd) "cannot insert duplicate"
  match n.traverse keyToFind with
  | some elem =>
    let inserted ← (n.load elem).insert keyToAdd
    return n.store inserted elem
  | none => return n

/-- Both loops of `free` at once: the children are freed and deleted. -/
def free : Node → Node
  | blank => blank
  | mk role childArray childMap =>
    mk role [] fun index => if index ∈ childArray then delete (free (childMap index)) else childMap index

/-- The depth of a tree whose root is at a known depth: the loop keeps the largest of the children's. -/
def treeDepth : Node → ℕ → Except Revert ℕ
  | blank, currentDepth => return currentDepth
  | mk _ childArray childMap, currentDepth =>
    if childArray.length = 0 then return currentDepth
    else
      childArray.foldlM (fun maxDepth index => do
        let newDepth ← treeDepth (childMap index) (← uint 256 (currentDepth + 1))
        return if newDepth > maxDepth then newDepth else maxDepth) currentDepth

def getMaxDepth (n : Node) : Except Revert ℕ := n.treeDepth 1

/-! ### The tree in storage -/

/-- A pointer to a node of the tree: each index is in the array of the node before. -/
def Attached (n : Node) : Pointer → Prop
  | [] => True
  | index :: rest => index ∈ n.childArray ∧ (n.childMap index).Attached rest

/-- The tree has a node with the role at the pointer. -/
def Holds (n : Node) (pointer : Pointer) (role : ℕ) : Prop :=
  n.Attached pointer ∧ (n.load pointer).role = role

/-- Every node in storage numbers its children from zero on. -/
def Indexed (n : Node) : Prop :=
  ∀ pointer, (n.load pointer).childArray = List.range (n.load pointer).childArray.length

section Paths

variable {n node : Node} {pointer rest : Pointer} {index key role : ℕ}

theorem holds_nil : n.Holds [] role ↔ n.role = role := by
  rw [Holds, Attached, load, true_and]

theorem holds_cons : n.Holds (index :: rest) role ↔
    index ∈ n.childArray ∧ (n.childMap index).Holds rest role := by
  rw [Holds, Attached, load, and_assoc, Holds]

theorem load_append : n.load (pointer ++ rest) = (n.load pointer).load rest := by
  induction pointer generalizing n with
  | nil => rfl
  | cons index pointer ih => exact ih

theorem attached_append : n.Attached (pointer ++ rest) ↔
    n.Attached pointer ∧ (n.load pointer).Attached rest := by
  induction pointer generalizing n with
  | nil => exact (iff_of_eq (true_and _)).symm
  | cons index pointer ih => rw [List.cons_append, Attached, Attached, ih, and_assoc, load]

theorem holds_append : n.Holds (pointer ++ rest) role ↔
    n.Attached pointer ∧ (n.load pointer).Holds rest role := by
  rw [Holds, Holds, attached_append, load_append, and_assoc]

/-- Below the pointer, the tree is that of the node written there. -/
theorem holds_store_append : (n.store node pointer).Holds (pointer ++ rest) role ↔
    n.Attached pointer ∧ node.Holds rest role := by
  induction pointer generalizing n with
  | nil => exact (iff_of_eq (true_and _)).symm
  | cons index pointer ih =>
    rw [List.cons_append, holds_cons, store, Attached, and_assoc, ← ih]
    simp only [childArray_withChild, childMap_withChild, Function.update_self]

/-- Elsewhere it is as it was. -/
theorem holds_store_of_not_prefix {other : Pointer} (elsewhere : ¬ pointer <+: other) :
    (n.store node pointer).Holds other role ↔ n.Holds other role := by
  induction pointer generalizing n other with
  | nil => exact absurd (List.nil_prefix) elsewhere
  | cons index pointer ih =>
    cases other with
    | nil => rw [holds_nil, holds_nil]; rfl
    | cons first other =>
      rw [holds_cons, holds_cons, store]
      by_cases same : first = index
      · subst same
        have later : ¬ pointer <+: other := by
          intro continues
          exact elsewhere ((List.prefix_cons_inj first).mpr continues)
        simp only [childArray_withChild, childMap_withChild, Function.update_self]
        rw [ih later]
      · simp only [childArray_withChild, childMap_withChild, Function.update_of_ne same]

/-- Writing a node that is not in the tree does not change the tree. -/
theorem holds_store_of_not_attached {other : Pointer} (detached : ¬ n.Attached pointer) :
    (n.store node pointer).Holds other role ↔ n.Holds other role := by
  by_cases below : pointer <+: other
  · obtain ⟨rest, rfl⟩ := below
    rw [holds_store_append, holds_append]
    exact iff_of_false (fun both => detached both.1) (fun both => detached both.1)
  · exact holds_store_of_not_prefix below

/-- Writing back what is there does not change the tree. -/
theorem holds_store_load {other : Pointer} :
    (n.store (n.load pointer) pointer).Holds other role ↔ n.Holds other role := by
  by_cases below : pointer <+: other
  · obtain ⟨rest, rfl⟩ := below
    rw [holds_store_append, holds_append]
  · exact holds_store_of_not_prefix below

theorem store_append :
    n.store ((n.load pointer).store node rest) pointer = n.store node (pointer ++ rest) := by
  induction pointer generalizing n with
  | nil => rfl
  | cons index pointer ih => rw [List.cons_append, store, store, load, ih]

theorem indexed_iff : n.Indexed ↔
    n.childArray = List.range n.childArray.length ∧ ∀ index, (n.childMap index).Indexed := by
  constructor
  · intro indexed
    exact ⟨indexed [], fun index rest => indexed (index :: rest)⟩
  · rintro ⟨here, below⟩ pointer
    cases pointer with
    | nil => exact here
    | cons index rest => exact below index rest

theorem Indexed.load (indexed : n.Indexed) (pointer : Pointer) : (n.load pointer).Indexed := by
  intro rest
  rw [← load_append]
  exact indexed (pointer ++ rest)

theorem Indexed.withChild {child : Node} (indexed : n.Indexed) (also : child.Indexed) :
    (n.withChild index child).Indexed := by
  obtain ⟨here, below⟩ := indexed_iff.mp indexed
  apply indexed_iff.mpr
  refine ⟨here, fun other => ?_⟩
  by_cases same : other = index
  · subst same
    rw [childMap_withChild, Function.update_self]
    exact also
  · rw [childMap_withChild, Function.update_of_ne same]
    exact below other

theorem Indexed.store (indexed : n.Indexed) (also : node.Indexed) : (n.store node pointer).Indexed := by
  induction pointer generalizing n with
  | nil => exact also
  | cons index pointer ih => exact indexed.withChild (ih ((indexed_iff.mp indexed).2 index))

theorem load_blank (pointer : Pointer) : blank.load pointer = blank := by
  induction pointer with
  | nil => rfl
  | cons index pointer ih => exact ih

theorem indexed_blank : blank.Indexed := by
  intro pointer
  rw [load_blank]
  rfl

end Paths

/-! ### What the operations do to the tree -/

section Operations

variable {n m : Node} {pointer rest : Pointer} {index key role keyToFind keyToAdd : ℕ}

/-- A node that is found is in the tree and has the role. -/
theorem holds_of_traverse (found : n.traverse key = some pointer) : n.Holds pointer key := by
  induction n generalizing pointer with
  | blank =>
    rw [traverse] at found
    split_ifs at found with zero
    obtain rfl := Option.some.inj found
    exact holds_nil.mpr zero
  | mk role childArray childMap ih =>
    rw [traverse] at found
    split_ifs at found with here
    · obtain rfl := Option.some.inj found
      exact holds_nil.mpr here
    · obtain ⟨index, member, below⟩ := List.exists_of_findSome?_eq_some found
      obtain ⟨rest, deeper, rfl⟩ := Option.map_eq_some_iff.mp below
      exact holds_cons.mpr ⟨member, ih index deeper⟩

/-- A role that is not found is nowhere in the tree. -/
theorem not_holds_of_traverse (missing : n.traverse key = none) (pointer : Pointer) :
    ¬ n.Holds pointer key := by
  intro holds
  induction n generalizing pointer with
  | blank =>
    cases pointer with
    | nil =>
      rw [traverse] at missing
      split_ifs at missing with zero
      exact zero (holds_nil.mp holds)
    | cons index rest => exact absurd (holds_cons.mp holds).1 List.not_mem_nil
  | mk role childArray childMap ih =>
    rw [traverse] at missing
    split_ifs at missing with here
    cases pointer with
    | nil => exact here (holds_nil.mp holds)
    | cons index rest =>
      obtain ⟨member, below⟩ := holds_cons.mp holds
      have deeper := List.findSome?_eq_none_iff.mp missing index member
      exact ih index (Option.map_eq_none_iff.mp deeper) rest below

theorem not_holds_of_not_exists (missing : (!n.exists key) = true) (pointer : Pointer) :
    ¬ n.Holds pointer key := by
  rw [Bool.not_eq_true', «exists», Option.isSome_eq_false_iff, Option.isNone_iff_eq_none] at missing
  exact not_holds_of_traverse missing pointer

theorem Indexed.withRole (indexed : n.Indexed) (role : ℕ) : (n.withRole role).Indexed := by
  obtain ⟨here, below⟩ := indexed_iff.mp indexed
  exact indexed_iff.mpr ⟨here, below⟩

theorem setRole_spec (success : n.setRole role = .ok m) :
    (∀ pointer, ¬ n.Holds pointer role) ∧ m = n.withRole role := by
  simp only [setRole, bind_eq_ok, require_eq_ok, pure_eq_ok] at success
  obtain ⟨_, missing, rfl⟩ := success
  exact ⟨not_holds_of_not_exists missing, rfl⟩

/-- The node with a new child in its next slot. -/
def pushed (n : Node) (keyToAdd : ℕ) : Node :=
  (mk n.role (n.childArray ++ [n.childArray.length]) n.childMap).withChild n.childArray.length
    ((n.childMap n.childArray.length).withRole keyToAdd)

theorem insert_spec (success : n.insert keyToAdd = .ok m) :
    (∀ pointer, ¬ n.Holds pointer keyToAdd) ∧ m = n.pushed keyToAdd := by
  simp only [insert, bind_eq_ok, require_eq_ok, pure_eq_ok] at success
  obtain ⟨_, missing, rfl⟩ := success
  exact ⟨not_holds_of_not_exists missing, rfl⟩

/-- With two keys, the child goes to the node that is found, if one is. -/
theorem insertAt_spec (success : n.insertAt keyToFind keyToAdd = .ok m) :
    (∀ pointer, ¬ n.Holds pointer keyToAdd) ∧
      m = (n.traverse keyToFind).elim n fun elem => n.store ((n.load elem).pushed keyToAdd) elem := by
  simp only [insertAt, bind_eq_ok, require_eq_ok] at success
  obtain ⟨_, missing, success⟩ := success
  refine ⟨not_holds_of_not_exists missing, ?_⟩
  cases found : n.traverse keyToFind with
  | none =>
    rw [found] at success
    exact (pure_eq_ok.mp success).symm
  | some elem =>
    rw [found] at success
    obtain ⟨inserted, inserting, stored⟩ := bind_eq_ok.mp success
    obtain ⟨-, rfl⟩ := insert_spec inserting
    exact (pure_eq_ok.mp stored).symm

theorem Indexed.pushed (indexed : n.Indexed) (keyToAdd : ℕ) : (n.pushed keyToAdd).Indexed := by
  obtain ⟨here, below⟩ := indexed_iff.mp indexed
  have longer : (mk n.role (n.childArray ++ [n.childArray.length]) n.childMap).Indexed := by
    apply indexed_iff.mpr
    refine ⟨?_, below⟩
    rw [childArray_mk, List.length_append, List.length_singleton, List.range_succ, ← here]
  exact longer.withChild ((below _).withRole keyToAdd)

/-- The next slot is not in use yet. -/
theorem Indexed.next_not_mem (indexed : n.Indexed) : n.childArray.length ∉ n.childArray := by
  intro member
  rw [(indexed_iff.mp indexed).1, List.mem_range, List.length_range] at member
  exact lt_irrefl _ member

theorem holds_pushed_nil : (n.pushed keyToAdd).Holds [] role ↔ n.Holds [] role := by
  rw [holds_nil, holds_nil]
  rfl

/-- In the slot of the new child, the tree is what was in the slot, with the new role. -/
theorem holds_pushed_slot : (n.pushed keyToAdd).Holds (n.childArray.length :: rest) role ↔
    ((n.childMap n.childArray.length).withRole keyToAdd).Holds rest role := by
  rw [holds_cons]
  simp only [pushed, childArray_withChild, childMap_withChild, childArray_mk, childMap_mk,
    Function.update_self, List.mem_append, List.mem_singleton, or_true, true_and]

theorem holds_pushed_of_ne (other : index ≠ n.childArray.length) :
    (n.pushed keyToAdd).Holds (index :: rest) role ↔ n.Holds (index :: rest) role := by
  rw [holds_cons, holds_cons]
  simp only [pushed, childArray_withChild, childMap_withChild, childArray_mk, childMap_mk,
    Function.update_of_ne other, List.mem_append, List.mem_singleton, other, or_false]

theorem holds_free : n.free.Holds pointer role ↔ pointer = [] ∧ n.role = role := by
  cases n with
  | blank =>
    cases pointer with
    | nil => simp [free, holds_nil]
    | cons index rest => simp [free, holds_cons, childArray]
  | mk here childArray childMap =>
    cases pointer with
    | nil => simp [free, holds_nil, Node.role]
    | cons index rest => simp [free, holds_cons, Node.childArray]

theorem Indexed.delete (indexed : n.Indexed) : n.delete.Indexed :=
  indexed_iff.mpr ⟨rfl, (indexed_iff.mp indexed).2⟩

theorem Indexed.free (indexed : n.Indexed) : n.free.Indexed := by
  induction n with
  | blank => exact indexed
  | mk role childArray childMap ih =>
    have below := (indexed_iff.mp indexed).2
    apply indexed_iff.mpr
    refine ⟨rfl, fun index => ?_⟩
    simp only [Node.free, Node.childMap]
    split_ifs
    · exact (ih index (below index)).delete
    · exact below index

end Operations

end Node

end KArrayTree

end VoltProtocol
