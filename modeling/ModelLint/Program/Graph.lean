import ModelLint.Program.Tree

/-!
# Graphs of nodes

A graph is a store of nodes that refer to each other by number, and a table of variables. Children
may be shared, listed twice or form cycles; whether they do not is what linking checks. A node has
an owner, and a variable a scope, once linking has set them.

The walks below are bounded by the number of nodes. In pre-order a node that is met at all is met
at a depth below that number, so the bound cuts nothing off that an acyclic graph has, and on a
cyclic one it keeps the first place where each node is met. A chain of owners that does not repeat
is shorter than the number of nodes too.
-/

namespace ModelLint

/-- A node of a graph. -/
structure Node where
  /-- Where it stands. -/
  location : Location
  /-- What it is, with the numbers of its children. -/
  shape : Shape NodeId
  /-- The node it belongs to. -/
  owner : Option NodeId
deriving Inhabited

/-- A store of nodes and a table of variables. -/
structure Graph where
  /-- The nodes by number. -/
  nodes : Array Node
  /-- The variables by number. -/
  vars : Array Variable
deriving Inhabited

namespace Graph

/-! ## Access -/

/-- The node of a number. -/
def node (g : Graph) (n : NodeId) : Node := g.nodes.getD n default

/-- The shape of a node. -/
def shape (g : Graph) (n : NodeId) : Shape NodeId := (g.node n).shape

/-- Where a node stands. -/
def location (g : Graph) (n : NodeId) : Location := (g.node n).location

/-- The node that a node belongs to. -/
def owner (g : Graph) (n : NodeId) : Option NodeId := (g.node n).owner

/-- The variable of a number. -/
def variable' (g : Graph) (v : VariableId) : Variable := g.vars.getD v default

/-- The children of a node. -/
def children (g : Graph) (n : NodeId) : List NodeId := (g.shape n).children

/-- Whether a node is of a kind. -/
def isA (g : Graph) (kind : String) (n : NodeId) : Bool := (g.shape n).isA kind

/-- Sets the owner of a node. -/
def setOwner (g : Graph) (n : NodeId) (owner : Option NodeId) : Graph :=
  { g with nodes := g.nodes.modify n fun node => { node with owner } }

/-- Sets the scope of a variable. -/
def setScope (g : Graph) (v : VariableId) (scope : NodeId) : Graph :=
  { g with vars := g.vars.modify v fun var => { var with scope := some scope } }

/-- Replaces the shape of a node. -/
def setShape (g : Graph) (n : NodeId) (shape : Shape NodeId) : Graph :=
  { g with nodes := g.nodes.modify n fun node => { node with shape } }

theorem node_setOwner (g : Graph) (n m : NodeId) (o : Option NodeId) :
    (g.setOwner n o).node m =
      if m = n ∧ n < g.nodes.size then { g.node m with owner := o } else g.node m := by
  simp only [node, setOwner, Array.getD_eq_getD_getElem?, Array.getElem?_modify]
  by_cases hm : n = m
  · subst hm
    by_cases hn : n < g.nodes.size <;> simp [hn]
  · rw [if_neg hm, if_neg fun h => hm h.1.symm]

@[simp] theorem shape_setOwner (g : Graph) (n m : NodeId) (o : Option NodeId) :
    (g.setOwner n o).shape m = g.shape m := by
  rw [shape, node_setOwner]; split <;> rfl

@[simp] theorem location_setOwner (g : Graph) (n m : NodeId) (o : Option NodeId) :
    (g.setOwner n o).location m = g.location m := by
  rw [location, node_setOwner]; split <;> rfl

theorem owner_setOwner (g : Graph) (n m : NodeId) (o : Option NodeId) :
    (g.setOwner n o).owner m = if m = n ∧ n < g.nodes.size then o else g.owner m := by
  rw [owner, node_setOwner]; split <;> rfl

@[simp] theorem variable'_setOwner (g : Graph) (n : NodeId) (o : Option NodeId) (v : VariableId) :
    (g.setOwner n o).variable' v = g.variable' v := rfl

@[simp] theorem size_setOwner (g : Graph) (n : NodeId) (o : Option NodeId) :
    (g.setOwner n o).nodes.size = g.nodes.size := by simp [setOwner]

@[simp] theorem vars_setOwner (g : Graph) (n : NodeId) (o : Option NodeId) :
    (g.setOwner n o).vars = g.vars := rfl

@[simp] theorem node_setScope (g : Graph) (v : VariableId) (scope n : NodeId) :
    (g.setScope v scope).node n = g.node n := rfl

@[simp] theorem shape_setScope (g : Graph) (v : VariableId) (scope n : NodeId) :
    (g.setScope v scope).shape n = g.shape n := rfl

@[simp] theorem location_setScope (g : Graph) (v : VariableId) (scope n : NodeId) :
    (g.setScope v scope).location n = g.location n := rfl

@[simp] theorem owner_setScope (g : Graph) (v : VariableId) (scope n : NodeId) :
    (g.setScope v scope).owner n = g.owner n := rfl

@[simp] theorem nodes_setScope (g : Graph) (v : VariableId) (scope : NodeId) :
    (g.setScope v scope).nodes = g.nodes := rfl

@[simp] theorem size_setScope (g : Graph) (v : VariableId) (scope : NodeId) :
    (g.setScope v scope).vars.size = g.vars.size := by simp [setScope]

theorem variable'_setScope (g : Graph) (v w : VariableId) (scope : NodeId) :
    (g.setScope v scope).variable' w =
      if w = v ∧ v < g.vars.size then { g.variable' w with scope := some scope }
      else g.variable' w := by
  simp only [variable', setScope, Array.getD_eq_getD_getElem?, Array.getElem?_modify]
  by_cases hw : v = w
  · subst hw
    by_cases hv : v < g.vars.size <;> simp [hv]
  · rw [if_neg hw, if_neg fun h => hw h.1.symm]

/-- The graph of a tree over a table of variables, not yet linked. The root is node `0`. -/
def ofTree (vars : Array Variable) (t : Tree) : Graph where
  nodes := (t.rows 0).toArray.map fun (location, shape) => { location, shape, owner := none }
  vars := vars

/-! ## Walks -/

/-- The nodes below a node and itself, a node before its children, down to a depth. -/
def preorderTo (g : Graph) : Nat → NodeId → List NodeId
  | 0, _ => []
  | depth + 1, n => n :: (g.children n).flatMap (g.preorderTo depth)

/-- The nodes below a node and itself, a node before its children. -/
def preorder (g : Graph) (n : NodeId) : List NodeId := g.preorderTo (g.nodes.size + 1) n

/-- The nodes below a node, in pre-order. -/
def descendants (g : Graph) (n : NodeId) : List NodeId := (g.preorder n).tail

/-- The owners of a node, innermost first, up to a number of them. -/
def ancestorsTo (g : Graph) : Nat → NodeId → List NodeId
  | 0, _ => []
  | count + 1, n =>
    match g.owner n with
    | none => []
    | some owner => owner :: g.ancestorsTo count owner

/-- The owners of a node, innermost first. -/
def ancestors (g : Graph) (n : NodeId) : List NodeId := g.ancestorsTo g.nodes.size n

/-- The innermost owner of a kind. -/
def enclosing (g : Graph) (kind : String) (n : NodeId) : Option NodeId :=
  (g.ancestors n).find? (g.isA kind)

/-- The unit that a node is part of: itself or the innermost owner that is one. -/
def unitOf (g : Graph) (n : NodeId) : Option NodeId :=
  if g.isA "SourceUnit" n then some n else g.enclosing "SourceUnit" n

/-- What a unit says about its file. -/
def unitInfo? (g : Graph) (n : NodeId) : Option UnitInfo :=
  match g.shape n with
  | .sourceUnit info _ => some info
  | _ => none

/-- What a declaration says, if the node is one. -/
def declaration? (g : Graph) (n : NodeId) : Option DeclarationInfo :=
  match g.shape n with
  | .declaration info _ _ _ => some info
  | _ => none

/-! ## Dotted names -/

/-- The name of a chain of variable and member accesses, ending in a call perhaps; the chain has
at most `length` links. -/
def dottedNameTo (g : Graph) : Nat → NodeId → Option String
  | 0, _ => none
  | length + 1, n =>
    let behind (qualifier : Option NodeId) (name : String) : Option String :=
      match qualifier.bind (g.dottedNameTo length) with
      | some "" | none => none
      | some outer => some (outer ++ "." ++ name)
    match g.shape n with
    | .varAccess name _ => some name
    | .fieldAccess name none _ => some name
    | .fieldAccess name qualifier _ => behind qualifier name
    | .methodCall name declaringType qualifier _ =>
      match declaringType with
      | some "" | none => some ((behind qualifier name).getD name)
      | some type => some (type ++ "." ++ name)
    | _ => none

/-- The dotted name of an expression, if it has one. -/
def dottedName (g : Graph) (n : NodeId) : Option String := g.dottedNameTo (g.nodes.size + 1) n

end Graph

/-- A linked unit: its graph and the number of the unit in it. -/
structure Model where
  /-- The nodes and variables. -/
  graph : Graph
  /-- The unit. -/
  root : NodeId
deriving Inhabited

namespace Model

/-- What the unit says about its file. -/
def info (m : Model) : UnitInfo := (m.graph.unitInfo? m.root).getD default

/-- The nodes of the unit in pre-order. -/
def nodes (m : Model) : List NodeId := m.graph.preorder m.root

/-- The variables of the unit in the order in which its nodes introduce them. -/
def vars (m : Model) : List VariableId :=
  m.nodes.flatMap fun n => (m.graph.shape n).introduced

end Model

end ModelLint
