import VoltProtocol.Machine.History
import VoltProtocol.Model.KArrayTree

/-! # When the roles of a tree are unique

The duplicate check of an operation searches below the node that it is called on, so only a call on the
root searches the whole tree. A call on a node further down may assign a role that is held elsewhere.
A pointer may also outlive its node: an insertion below a node that was freed waits in the storage slot
and comes back into the tree with the next node in that slot.
-/

namespace VoltProtocol.UniqueRoles

open Machine KArrayTree

/-- The operations on a tree, at any storage pointer below its root. -/
inductive Call where
  | setRole (pointer : Pointer) (role : ℕ)
  | insert (pointer : Pointer) (keyToAdd : ℕ)
  | insertAt (pointer : Pointer) (keyToFind keyToAdd : ℕ)
  | free (pointer : Pointer)

def step (root : Node) : Call → Except Revert Node
  | .setRole pointer role => (root.store · pointer) <$> (root.load pointer).setRole role
  | .insert pointer keyToAdd => (root.store · pointer) <$> (root.load pointer).insert keyToAdd
  | .insertAt pointer keyToFind keyToAdd =>
    (root.store · pointer) <$> (root.load pointer).insertAt keyToFind keyToAdd
  | .free pointer => .ok (root.store (root.load pointer).free pointer)

/-- No two nodes of the tree have the same role. -/
def Unique (root : Node) : Prop :=
  ∀ first second role, root.Holds first role → root.Holds second role → first = second

/-- One node was added to the tree, as a child of the one at `parent`, and no other node changed. -/
def AddsOne (root next : Node) (parent : Pointer) (keyToAdd : ℕ) : Prop :=
  ∃ slot, ¬ root.Attached (parent ++ [slot]) ∧
    ∀ pointer role, next.Holds pointer role ↔
      root.Holds pointer role ∨ (pointer = parent ++ [slot] ∧ role = keyToAdd)

/-- The role is held by no node outside the subtree of the pointer. -/
def Fresh (root : Node) (pointer : Pointer) (role : ℕ) : Prop :=
  ∀ other, root.Holds other role → pointer <+: other

/-- The slot that the next child will take has no children of its own. -/
def Childless (n : Node) : Prop := (n.childMap n.childArray.length).childArray = []

/-- The next child, with what is left below it in its slot. -/
def nextChild (n : Node) (keyToAdd : ℕ) : Node := (n.childMap n.childArray.length).withRole keyToAdd

/-- The roles of the next child and of what is left below it are unique, and none is in the tree. -/
def Fits (root n : Node) (keyToAdd : ℕ) : Prop :=
  Unique (nextChild n keyToAdd) ∧
    ∀ rest role, (nextChild n keyToAdd).Holds rest role → ∀ other, ¬ root.Holds other role

variable {root n node next : Node} {pointer parent elem : Pointer} {role keyToAdd keyToFind : ℕ} {call : Call}

/-! ### Writing a node of the tree -/

/-- In a tree with unique roles, a role is found where it is held. -/
theorem traverse_eq_some_iff (unique : Unique root) (role : ℕ) (pointer : Pointer) :
    root.traverse role = some pointer ↔ root.Holds pointer role := by
  constructor
  · exact Node.holds_of_traverse
  · intro holds
    cases found : root.traverse role with
    | none => exact absurd holds (Node.not_holds_of_traverse found pointer)
    | some first => rw [unique first pointer role (Node.holds_of_traverse found) holds]

/-- The roles below a node are unique when all are. -/
theorem Unique.load (unique : Unique root) (attached : root.Attached pointer) : Unique (root.load pointer) := by
  intro first second role holds holds'
  apply List.append_cancel_left
  exact unique (pointer ++ first) (pointer ++ second) role (Node.holds_append.mpr ⟨attached, holds⟩)
    (Node.holds_append.mpr ⟨attached, holds'⟩)

/-- Replacing a subtree keeps the roles unique when the new one has unique roles that are not held
outside. -/
theorem unique_store_iff (unique : Unique root) (attached : root.Attached pointer) :
    Unique (root.store node pointer) ↔
      Unique node ∧ ∀ rest role, node.Holds rest role → Fresh root pointer role := by
  constructor
  · intro after
    constructor
    · intro first second role holds holds'
      apply List.append_cancel_left
      exact after (pointer ++ first) (pointer ++ second) role (Node.holds_store_append.mpr ⟨attached, holds⟩)
        (Node.holds_store_append.mpr ⟨attached, holds'⟩)
    · intro rest role holds other elsewhere
      by_contra outside
      have same := after (pointer ++ rest) other role (Node.holds_store_append.mpr ⟨attached, holds⟩)
        ((Node.holds_store_of_not_prefix outside).mpr elsewhere)
      exact outside ⟨rest, same⟩
  · rintro ⟨below, fresh⟩ first second role holds holds'
    by_cases inside : pointer <+: first
    · obtain ⟨rest, rfl⟩ := inside
      have here := (Node.holds_store_append.mp holds).2
      by_cases inside' : pointer <+: second
      · obtain ⟨rest', rfl⟩ := inside'
        rw [below rest rest' role here (Node.holds_store_append.mp holds').2]
      · exact absurd (fresh rest role here second ((Node.holds_store_of_not_prefix inside').mp holds')) inside'
    · have there := (Node.holds_store_of_not_prefix inside).mp holds
      by_cases inside' : pointer <+: second
      · obtain ⟨rest', rfl⟩ := inside'
        exact absurd (fresh rest' role (Node.holds_store_append.mp holds').2 first there) inside
      · exact unique first second role there ((Node.holds_store_of_not_prefix inside').mp holds')

/-- What is held below a pointer is fresh there. -/
theorem fresh_of_holds (unique : Unique root) (attached : root.Attached pointer) {rest : Pointer}
    (holds : (root.load pointer).Holds rest role) : Fresh root pointer role := by
  intro other elsewhere
  rw [← unique (pointer ++ rest) other role (Node.holds_append.mpr ⟨attached, holds⟩) elsewhere]
  exact List.prefix_append pointer rest

/-- A role that is not held below the pointer is fresh there when it is not held at all. -/
theorem fresh_iff (absent : ∀ rest, ¬ (root.load pointer).Holds rest role) :
    Fresh root pointer role ↔ ∀ other, ¬ root.Holds other role := by
  constructor
  · intro fresh other holds
    obtain ⟨rest, rfl⟩ := fresh other holds
    exact absent rest (Node.holds_append.mp holds).2
  · exact fun nowhere other holds => absurd holds (nowhere other)

/-- A new role of a node of the tree leaves the roles unique exactly when it is not held outside. -/
theorem unique_setRole_iff (unique : Unique root) (attached : root.Attached pointer)
    (absent : ∀ rest, ¬ (root.load pointer).Holds rest role) :
    Unique (root.store ((root.load pointer).withRole role) pointer) ↔ Fresh root pointer role := by
  rw [unique_store_iff unique attached]
  have child {index : ℕ} {rest : Pointer} {other : ℕ}
      (holds : ((root.load pointer).withRole role).Holds (index :: rest) other) :
      (root.load pointer).Holds (index :: rest) other := Node.holds_cons.mpr (Node.holds_cons.mp holds)
  constructor
  · rintro ⟨-, fresh⟩
    exact fresh [] role (Node.holds_nil.mpr rfl)
  · intro fresh
    constructor
    · intro first second other holds holds'
      cases first with
      | nil =>
        obtain rfl : role = other := Node.holds_nil.mp holds
        cases second with
        | nil => rfl
        | cons index rest => exact absurd (child holds') (absent _)
      | cons index rest =>
        cases second with
        | nil =>
          obtain rfl : role = other := Node.holds_nil.mp holds'
          exact absurd (child holds) (absent _)
        | cons index' rest' => exact unique.load attached _ _ other (child holds) (child holds')
    · intro rest other holds
      cases rest with
      | nil =>
        obtain rfl : role = other := Node.holds_nil.mp holds
        exact fresh
      | cons index rest => exact fresh_of_holds unique attached (child holds)

/-- Freeing a node of the tree keeps the roles unique. -/
theorem unique_free (unique : Unique root) (attached : root.Attached pointer) :
    Unique (root.store (root.load pointer).free pointer) := by
  rw [unique_store_iff unique attached]
  constructor
  · intro first second role holds holds'
    rw [(Node.holds_free.mp holds).1, (Node.holds_free.mp holds').1]
  · intro rest role holds
    exact fresh_of_holds unique attached (Node.holds_nil.mpr (Node.holds_free.mp holds).2)

/-- A new child is added with what is left below it in its slot. -/
theorem holds_pushed (indexed : n.Indexed) {rest : Pointer} : (n.pushed keyToAdd).Holds rest role ↔
    n.Holds rest role ∨ ∃ below, rest = n.childArray.length :: below ∧ (nextChild n keyToAdd).Holds below role := by
  cases rest with
  | nil => simp [Node.holds_pushed_nil]
  | cons index rest =>
    by_cases slot : index = n.childArray.length
    · subst slot
      have unused : ¬ n.Holds (n.childArray.length :: rest) role := by
        intro holds
        exact indexed.next_not_mem (Node.holds_cons.mp holds).1
      rw [Node.holds_pushed_slot]
      simp [unused, nextChild]
    · rw [Node.holds_pushed_of_ne slot]
      simp [slot]

/-- The slot of the next child is not in the tree yet. -/
theorem not_attached_slot (indexed : root.Indexed) (rest : Pointer) :
    ¬ root.Attached (parent ++ (root.load parent).childArray.length :: rest) := by
  intro used
  exact (indexed.load parent).next_not_mem (Node.attached_append.mp used).2.1

/-- The same for a child of any node of the tree. -/
theorem holds_store_pushed (indexed : root.Indexed) (attached : root.Attached parent) :
    (root.store ((root.load parent).pushed keyToAdd) parent).Holds pointer role ↔
      root.Holds pointer role ∨ ∃ below, pointer = parent ++ (root.load parent).childArray.length :: below ∧
        (nextChild (root.load parent) keyToAdd).Holds below role := by
  by_cases inside : parent <+: pointer
  · obtain ⟨rest, rfl⟩ := inside
    rw [Node.holds_store_append, Node.holds_append, holds_pushed (indexed.load parent), and_or_left]
    simp [attached]
  · rw [Node.holds_store_of_not_prefix inside, or_iff_left]
    rintro ⟨below, rfl, -⟩
    exact inside (List.prefix_append parent _)

/-- An insertion leaves the roles unique exactly when the roles that it brings in are unique and new. -/
theorem unique_pushed_iff (indexed : root.Indexed) (unique : Unique root) (attached : root.Attached parent) :
    Unique (root.store ((root.load parent).pushed keyToAdd) parent) ↔ Fits root (root.load parent) keyToAdd := by
  have brought {rest : Pointer} {role : ℕ} (holds : (nextChild (root.load parent) keyToAdd).Holds rest role) :
      (root.store ((root.load parent).pushed keyToAdd) parent).Holds
        (parent ++ (root.load parent).childArray.length :: rest) role :=
    (holds_store_pushed indexed attached).mpr (.inr ⟨rest, rfl, holds⟩)
  constructor
  · intro after
    constructor
    · intro first second role holds holds'
      have same := after _ _ role (brought holds) (brought holds')
      exact (List.cons.inj (List.append_cancel_left same)).2
    · intro rest role holds other before
      have same := after other _ role ((holds_store_pushed indexed attached).mpr (.inl before)) (brought holds)
      rw [same] at before
      exact not_attached_slot indexed rest before.1
  · rintro ⟨below, new⟩ first second role holds holds'
    rcases (holds_store_pushed indexed attached).mp holds with before | ⟨rest, rfl, here⟩
    · rcases (holds_store_pushed indexed attached).mp holds' with before' | ⟨rest', rfl, here'⟩
      · exact unique first second role before before'
      · exact absurd before (new rest' role here' first)
    · rcases (holds_store_pushed indexed attached).mp holds' with before' | ⟨rest', rfl, here'⟩
      · exact absurd before' (new rest role here second)
      · rw [below rest rest' role here here']

/-- In an empty slot there is only the child itself. -/
theorem holds_nextChild (childless : Childless n) {rest : Pointer} :
    (nextChild n keyToAdd).Holds rest role ↔ rest = [] ∧ role = keyToAdd := by
  cases rest with
  | nil => simp [nextChild, Node.holds_nil, Node.role_withRole, eq_comm]
  | cons first rest =>
    have empty : (n.childMap n.childArray.length).childArray = [] := childless
    simp [nextChild, Node.holds_cons, Node.childArray_withRole, empty]

/-- A child in an empty slot fits exactly when its role is new. -/
theorem fits_iff (childless : Childless n) : Fits root n keyToAdd ↔ ∀ other, ¬ root.Holds other keyToAdd := by
  constructor
  · exact fun fits => fits.2 [] keyToAdd (Node.holds_nil.mpr rfl)
  · intro new
    constructor
    · intro first second role holds holds'
      rw [((holds_nextChild childless).mp holds).1, ((holds_nextChild childless).mp holds').1]
    · intro rest role holds
      rw [((holds_nextChild childless).mp holds).2]
      exact new

/-- An insertion adds one node exactly when the slot that it takes is empty. -/
theorem addsOne_iff (indexed : root.Indexed) (attached : root.Attached parent) :
    AddsOne root (root.store ((root.load parent).pushed keyToAdd) parent) parent keyToAdd ↔
      Childless (root.load parent) := by
  constructor
  · rintro ⟨slot, -, added⟩
    by_contra children
    obtain ⟨index, member⟩ := List.exists_mem_of_ne_nil _ children
    -- a child left in the slot would come back with it
    have back : (root.store ((root.load parent).pushed keyToAdd) parent).Holds
        (parent ++ [(root.load parent).childArray.length, index]) _ :=
      (holds_store_pushed indexed attached).mpr
        (.inr ⟨[index], rfl, Node.holds_cons.mpr ⟨member, Node.holds_nil.mpr rfl⟩⟩)
    rcases (added _ _).mp back with before | ⟨same, -⟩
    · exact not_attached_slot indexed [index] before.1
    · exact absurd (List.append_cancel_left same) (by simp)
  · intro childless
    refine ⟨_, not_attached_slot indexed [], fun pointer role => ?_⟩
    rw [holds_store_pushed indexed attached]
    simp [holds_nextChild childless]

/-- An insertion below a node of the tree that was searched for the role. -/
theorem unique_addsOne_iff (indexed : root.Indexed) (unique : Unique root) (attached : root.Attached parent)
    (absent : ∀ rest, ¬ (root.load pointer).Holds rest keyToAdd) :
    let next := root.store ((root.load parent).pushed keyToAdd) parent
    Unique next ∧ AddsOne root next parent keyToAdd ↔
      Fresh root pointer keyToAdd ∧ Childless (root.load parent) := by
  intro next
  rw [fresh_iff absent, addsOne_iff indexed attached, unique_pushed_iff indexed unique attached]
  apply and_congr_left
  exact fits_iff

/-- A tree with the same nodes has unique roles, too. -/
theorem unique_of_same (unique : Unique root)
    (same : ∀ pointer role, next.Holds pointer role ↔ root.Holds pointer role) : Unique next := by
  intro first second role holds holds'
  exact unique first second role ((same _ _).mp holds) ((same _ _).mp holds')

/-! ### One operation -/

/-- An insertion at a node of the tree adds one node, under the one that is asked for. -/
def Adds (root next : Node) : Call → Prop
  | .insert pointer keyToAdd => root.Attached pointer → AddsOne root next pointer keyToAdd
  | .insertAt pointer keyToFind keyToAdd => root.Attached pointer →
    ∀ elem, (root.load pointer).traverse keyToFind = some elem →
      root.Holds (pointer ++ elem) keyToFind ∧ AddsOne root next (pointer ++ elem) keyToAdd
  | .setRole .. | .free _ => True

/-- What an operation is expected to leave behind. -/
structure Sound (root : Node) (call : Call) (next : Node) : Prop where
  unique : Unique next
  finds : ∀ role pointer, next.traverse role = some pointer ↔ next.Holds pointer role
  adds : Adds root next call

/-- The same, with one node more only for an insertion with two keys. -/
structure Distinct (root : Node) (call : Call) (next : Node) : Prop where
  unique : Unique next
  finds : ∀ role pointer, next.traverse role = some pointer ↔ next.Holds pointer role
  addsUnder (pointer : Pointer) (keyToFind keyToAdd : ℕ) (insertion : call = .insertAt pointer keyToFind keyToAdd) :
    Adds root next call

/-- At a node of the tree, the role that an operation assigns is not held outside the subtree of the
node, and the slot that it takes has no children left. -/
def Careful (root : Node) : Call → Prop
  | .setRole pointer role => root.Attached pointer → Fresh root pointer role
  | .insert pointer keyToAdd => root.Attached pointer →
    Fresh root pointer keyToAdd ∧ Childless (root.load pointer)
  | .insertAt pointer keyToFind keyToAdd => root.Attached pointer →
    ∀ elem, (root.load pointer).traverse keyToFind = some elem →
      Fresh root pointer keyToAdd ∧ Childless (root.load (pointer ++ elem))
  | .free _ => True

/-- The same, except that an insertion with one key may bring in unique new roles with its child. -/
def Heedful (root : Node) : Call → Prop
  | .insert pointer keyToAdd => root.Attached pointer → Fits root (root.load pointer) keyToAdd
  | call => Careful root call

/-- Searches are sound when the roles are unique. -/
theorem sound_iff : Sound root call next ↔ Unique next ∧ Adds root next call := by
  constructor
  · exact fun sound => ⟨sound.unique, sound.adds⟩
  · exact fun both => ⟨both.1, traverse_eq_some_iff both.1, both.2⟩

theorem step_indexed (indexed : root.Indexed) (stepped : step root call = .ok next) : next.Indexed := by
  cases call with
  | setRole pointer role =>
    obtain ⟨node, written, rfl⟩ := map_eq_ok.mp stepped
    obtain ⟨-, rfl⟩ := Node.setRole_spec written
    exact indexed.store ((indexed.load pointer).withRole role)
  | insert pointer keyToAdd =>
    obtain ⟨node, inserted, rfl⟩ := map_eq_ok.mp stepped
    obtain ⟨-, rfl⟩ := Node.insert_spec inserted
    exact indexed.store ((indexed.load pointer).pushed keyToAdd)
  | insertAt pointer keyToFind keyToAdd =>
    obtain ⟨node, inserted, rfl⟩ := map_eq_ok.mp stepped
    obtain ⟨-, rfl⟩ := Node.insertAt_spec inserted
    apply indexed.store
    cases (root.load pointer).traverse keyToFind with
    | none => exact indexed.load pointer
    | some elem => exact (indexed.load pointer).store (((indexed.load pointer).load elem).pushed keyToAdd)
  | free pointer =>
    obtain rfl := Except.ok.inj stepped
    exact indexed.store (indexed.load pointer).free

/-- An operation at a pointer to a node outside the tree leaves the tree alone. -/
theorem sound_step_iff (indexed : root.Indexed) (unique : Unique root) (stepped : step root call = .ok next) :
    Sound root call next ↔ Careful root call := by
  rw [sound_iff]
  cases call with
  | setRole pointer role =>
    obtain ⟨node, written, rfl⟩ := map_eq_ok.mp stepped
    obtain ⟨absent, rfl⟩ := Node.setRole_spec written
    rw [Adds, and_true, Careful]
    by_cases attached : root.Attached pointer
    · rw [unique_setRole_iff unique attached absent, forall_prop_of_true attached]
    · refine iff_of_true ?_ (fun used => absurd used attached)
      exact unique_of_same unique fun _ _ => Node.holds_store_of_not_attached attached
  | insert pointer keyToAdd =>
    obtain ⟨node, inserted, rfl⟩ := map_eq_ok.mp stepped
    obtain ⟨absent, rfl⟩ := Node.insert_spec inserted
    rw [Adds, Careful]
    by_cases attached : root.Attached pointer
    · rw [forall_prop_of_true attached, forall_prop_of_true attached]
      exact unique_addsOne_iff indexed unique attached absent
    · refine iff_of_true ⟨?_, fun used => absurd used attached⟩ (fun used => absurd used attached)
      exact unique_of_same unique fun _ _ => Node.holds_store_of_not_attached attached
  | insertAt pointer keyToFind keyToAdd =>
    obtain ⟨node, inserted, rfl⟩ := map_eq_ok.mp stepped
    obtain ⟨absent, rfl⟩ := Node.insertAt_spec inserted
    rw [Adds, Careful]
    by_cases attached : root.Attached pointer
    · rw [forall_prop_of_true attached, forall_prop_of_true attached]
      cases found : (root.load pointer).traverse keyToFind with
      | none =>
        refine iff_of_true ⟨?_, fun _ other => by cases other⟩ (fun _ other => by cases other)
        exact unique_of_same unique fun _ _ => Node.holds_store_load
      | some elem =>
        have holder := Node.holds_append.mpr ⟨attached, Node.holds_of_traverse found⟩
        have inserted := unique_addsOne_iff indexed unique holder.1 absent
        rw [Option.elim_some, Node.store_append, ← Node.load_append]
        constructor
        · rintro ⟨after, adds⟩ other same
          obtain rfl := Option.some.inj same
          exact inserted.mp ⟨after, (adds elem rfl).2⟩
        · intro careful
          obtain ⟨after, adds⟩ := inserted.mpr (careful elem rfl)
          refine ⟨after, fun other same => ?_⟩
          obtain rfl := Option.some.inj same
          exact ⟨holder, adds⟩
    · refine iff_of_true ⟨?_, fun used => absurd used attached⟩ (fun used => absurd used attached)
      exact unique_of_same unique fun _ _ => Node.holds_store_of_not_attached attached
  | free pointer =>
    obtain rfl := Except.ok.inj stepped
    refine iff_of_true ⟨?_, trivial⟩ trivial
    by_cases attached : root.Attached pointer
    · exact unique_free unique attached
    · exact unique_of_same unique fun _ _ => Node.holds_store_of_not_attached attached

/-- Only an insertion with one key may do more than it is asked for. -/
theorem distinct_step_iff (indexed : root.Indexed) (unique : Unique root) (stepped : step root call = .ok next) :
    Distinct root call next ↔ Heedful root call := by
  have whole (other : ∀ pointer keyToAdd, call ≠ .insert pointer keyToAdd)
      (adds : (∀ pointer keyToFind keyToAdd, call = .insertAt pointer keyToFind keyToAdd → Adds root next call) →
        Adds root next call) :
      Distinct root call next ↔ Careful root call := by
    rw [← sound_step_iff indexed unique stepped]
    constructor
    · exact fun distinct => ⟨distinct.unique, distinct.finds, adds distinct.addsUnder⟩
    · exact fun sound => ⟨sound.unique, sound.finds, fun _ _ _ _ => sound.adds⟩
  cases call with
  | setRole pointer role => exact whole nofun fun _ => trivial
  | insertAt pointer keyToFind keyToAdd => exact whole nofun fun adds => adds _ _ _ rfl
  | free pointer => exact whole nofun fun _ => trivial
  | insert pointer keyToAdd =>
    have only : Distinct root (.insert pointer keyToAdd) next ↔ Unique next := by
      constructor
      · exact Distinct.unique
      · exact fun after => ⟨after, traverse_eq_some_iff after, nofun⟩
    obtain ⟨node, inserted, rfl⟩ := map_eq_ok.mp stepped
    obtain ⟨-, rfl⟩ := Node.insert_spec inserted
    rw [only, Heedful]
    by_cases attached : root.Attached pointer
    · rw [forall_prop_of_true attached]
      exact unique_pushed_iff indexed unique attached
    · refine iff_of_true ?_ (fun used => absurd used attached)
      exact unique_of_same unique fun _ _ => Node.holds_store_of_not_attached attached

/-! ### Every sequence of operations -/

theorem unique_blank : Unique .blank := by
  have only {pointer : Pointer} {role : ℕ} (holds : Node.blank.Holds pointer role) : pointer = [] := by
    cases pointer with
    | nil => rfl
    | cons index rest => exact absurd (Node.holds_cons.mp holds).1 List.not_mem_nil
  intro first second role holds holds'
  rw [only holds, only holds']

/-- In every sequence of operations on an empty tree, of which any may fail, all that succeed leave the
roles unique and searches exact exactly when all are careful, or heedful: careful ones add one node with
each insertion, heedful ones with each insertion that has two keys. -/
theorem roles_unique_iff (calls : List Call) :
    (Along step Sound .blank (succeeded step .blank calls) ↔
      Along step (fun root call _ => Careful root call) .blank (succeeded step .blank calls)) ∧
    (Along step Distinct .blank (succeeded step .blank calls) ↔
      Along step (fun root call _ => Heedful root call) .blank (succeeded step .blank calls)) := by
  have exact_step (root : Node) (call : Call) (next : Node) (_ : True) (indexed : root.Indexed)
      (unique : Unique root) (stepped : step root call = .ok next) :
      next.Indexed ∧ (Sound root call next ↔ Careful root call) ∧ (Sound root call next → Unique next) :=
    ⟨step_indexed indexed stepped, sound_step_iff indexed unique stepped, Sound.unique⟩
  have distinct_step (root : Node) (call : Call) (next : Node) (_ : True) (indexed : root.Indexed)
      (unique : Unique root) (stepped : step root call = .ok next) :
      next.Indexed ∧ (Distinct root call next ↔ Heedful root call) ∧ (Distinct root call next → Unique next) :=
    ⟨step_indexed indexed stepped, distinct_step_iff indexed unique stepped, Distinct.unique⟩
  constructor
  · exact along_iff exact_step (fun _ _ => trivial) Node.indexed_blank unique_blank (run_succeeded _ calls)
  · exact along_iff distinct_step (fun _ _ => trivial) Node.indexed_blank unique_blank (run_succeeded _ calls)

/-- A child that is found by its role takes the role of the root. And an insertion below a child that was
freed comes back as a second node with the role of the next child. -/
theorem not_unique_below_root :
    (∃ found root, run step .blank [.setRole [] 1, .insert [] 2] = .ok found ∧
      found.traverse 2 = some [0] ∧ step found (.setRole [0] 1) = .ok root ∧
      root.Holds [] 1 ∧ root.Holds [0] 1 ∧ ¬ Unique root) ∧
    ∃ found root, run step .blank [.setRole [] 1, .insert [] 2] = .ok found ∧
      found.traverse 2 = some [0] ∧ run step found [.free [], .insert [0] 3, .insert [] 3] = .ok root ∧
      root.Holds [0] 3 ∧ root.Holds [0, 0] 3 ∧ ¬ Unique root := by
  constructor
  · refine ⟨_, _, rfl, rfl, rfl, ⟨trivial, rfl⟩, ⟨⟨by decide, trivial⟩, rfl⟩, fun unique => ?_⟩
    exact absurd (unique [] [0] 1 ⟨trivial, rfl⟩ ⟨⟨by decide, trivial⟩, rfl⟩) (by decide)
  · refine ⟨_, _, rfl, rfl, rfl, ⟨⟨by decide, trivial⟩, rfl⟩, ⟨⟨by decide, by decide, trivial⟩, rfl⟩, fun unique => ?_⟩
    exact absurd (unique [0] [0, 0] 3 ⟨⟨by decide, trivial⟩, rfl⟩ ⟨⟨by decide, by decide, trivial⟩, rfl⟩)
      (by decide)

end VoltProtocol.UniqueRoles
