import ModelLint.Program.Basic

/-!
# Trees of nodes

Front ends build trees; a node and its children are one value, so nothing can be shared and no
cycle can arise. `Tree.rows` lays a tree out as rows of a store in pre-order: the root takes the
number `base`, and each child starts behind the rows of its elder siblings.
-/

namespace ModelLint

/-- A node with everything below it. -/
inductive Tree where
  /-- A location and a shape whose children are trees. -/
  | node (location : Location) (shape : Shape Tree)

namespace Tree

/-- Where the root stands. -/
def location : Tree → Location
  | node l _ => l

/-- The shape of the root. -/
def shape : Tree → Shape Tree
  | node _ s => s

/-- The children of the root. -/
def children (t : Tree) : List Tree := t.shape.children

instance : Inhabited Tree := ⟨node default default⟩

theorem sizeOf_toList_lt {o : Option Tree} {t : Tree} (h : t ∈ o.toList) :
    sizeOf t < sizeOf o := by
  cases o with
  | none => simp at h
  | some a => simp at h; subst h; simp

theorem sizeOf_lt_of_mem_slots {s : Shape Tree} {t : Tree} (h : t ∈ s.children) :
    sizeOf t < sizeOf s := by
  cases s <;> simp only [Shape.children, Shape.slots, List.flatMap_cons, List.flatMap_nil,
    List.append_nil, List.mem_append, List.mem_singleton, List.not_mem_nil] at h <;>
  simp only [Shape.sourceUnit.sizeOf_spec, Shape.declaration.sizeOf_spec, Shape.block.sizeOf_spec,
    Shape.catchClause.sizeOf_spec, Shape.tryStatement.sizeOf_spec,
    Shape.throwStatement.sizeOf_spec, Shape.returnStatement.sizeOf_spec,
    Shape.varDeclaration.sizeOf_spec, Shape.lockStatement.sizeOf_spec,
    Shape.usingStatement.sizeOf_spec, Shape.exprStatement.sizeOf_spec,
    Shape.ifStatement.sizeOf_spec, Shape.loopStatement.sizeOf_spec,
    Shape.fieldAccess.sizeOf_spec, Shape.methodCall.sizeOf_spec,
    Shape.objectCreation.sizeOf_spec, Shape.assignment.sizeOf_spec,
    Shape.elementAccess.sizeOf_spec, Shape.lambda.sizeOf_spec, Shape.compound.sizeOf_spec] <;>
  repeat' (refine Or.elim h (fun h => ?_) (fun h => ?_))
  all_goals first
    | (have hlt := List.sizeOf_lt_of_mem h; omega)
    | (have hlt := sizeOf_toList_lt h; omega)
    | (subst h; omega)

theorem sizeOf_lt_of_mem_children {t c : Tree} (h : c ∈ t.children) : sizeOf c < sizeOf t := by
  cases t with
  | node l s =>
    have : sizeOf c < sizeOf s := sizeOf_lt_of_mem_slots h
    simp only [node.sizeOf_spec]
    omega

/-- The number of nodes. -/
def size (t : Tree) : Nat := t.children.attach.foldr (fun ⟨c, _⟩ n => c.size + n) 1
termination_by sizeOf t
decreasing_by exact sizeOf_lt_of_mem_children ‹_›

/-- The nodes with everything below them, a node before its children. -/
def preorder (t : Tree) : List Tree := t :: t.children.attach.flatMap fun ⟨c, _⟩ => c.preorder
termination_by sizeOf t
decreasing_by exact sizeOf_lt_of_mem_children ‹_›

/-! ## Layout -/

/-- Where blocks of the given sizes start when the first starts at `base`. -/
def starts (base : Nat) : List Nat → List Nat
  | [] => []
  | n :: rest => base :: starts (base + n) rest

/-- A shape whose children are replaced, in document order, by the given numbers. -/
def relabel (s : Shape Tree) (numbers : List NodeId) : Shape NodeId :=
  let next : StateM (List NodeId) NodeId := do
    let rest ← get
    set rest.tail
    return rest.headD 0
  ((s.traverse fun _ => next).run numbers).1

/-- The rows of a tree whose root takes the number `base`. -/
def rows (t : Tree) (base : Nat) : List (Location × Shape NodeId) :=
  let numbers := starts (base + 1) (t.children.map size)
  (t.location, relabel t.shape numbers) ::
    (t.children.attach.zip numbers).flatMap fun (⟨c, _⟩, n) => c.rows n
termination_by sizeOf t
decreasing_by exact sizeOf_lt_of_mem_children ‹_›

end Tree

end ModelLint
