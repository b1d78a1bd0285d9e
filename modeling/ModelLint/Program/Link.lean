import ModelLint.Program.Graph

/-!
# Linking

Linking visits the nodes below a unit in pre-order, gives every node its owner and every variable
its scope, and checks that the unit is a tree: each node is met once, nobody else owns it, each
variable is introduced once, and every mention is of a variable of the unit. A mention of a member
may stay without a variable.

`visit` meets one node. What it has set before it fails stays set, so a step gives the state
together with the failure. Each visit without failure meets a node that was not met before, hence
the number of nodes bounds the number of visits.
-/

namespace ModelLint

/-- Why a unit cannot be linked. -/
inductive LinkFailure where
  /-- A node is met a second time. -/
  | sharedNode (line : Int) (kind : String)
  /-- A node belongs to another node. -/
  | ownedElsewhere (line : Int) (kind : String)
  /-- A variable is introduced a second time. -/
  | declaredTwice (line : Int) (name : String)
  /-- A variable is mentioned that the unit does not introduce. -/
  | undeclared (line : Int) (name : String)
  /-- A member is mentioned that the unit does not introduce. -/
  | outsideUnit (line : Int) (name : String)
deriving DecidableEq

/-- The line of the node at fault. -/
def LinkFailure.line : LinkFailure → Int
  | .sharedNode line _ | .ownedElsewhere line _ | .declaredTwice line _ | .undeclared line _
  | .outsideUnit line _ => line

/-- What is wrong, without the place. -/
def LinkFailure.reason : LinkFailure → String
  | .sharedNode _ kind => kind ++ " has more than one parent"
  | .ownedElsewhere _ kind => kind ++ " is already owned by another node"
  | .declaredTwice _ name => "variable '" ++ name ++ "' is declared twice"
  | .undeclared _ name => "reference to '" ++ name ++ "' has no declaration"
  | .outsideUnit _ name => "member '" ++ name ++ "' resolves outside this unit"

/-- The message for a unit at a path. -/
def LinkFailure.message (path : Path) (f : LinkFailure) : String :=
  path.toString ++ ":" ++ toString f.line ++ ": " ++ f.reason

/-- What linking has done so far. -/
structure Linking where
  /-- The graph with the owners and scopes that are set. -/
  graph : Graph
  /-- The nodes met, the last first. -/
  met : List NodeId
  /-- The variables introduced, the last first. -/
  introduced : List VariableId
  /-- The mentions of variables and members, the last first. -/
  mentions : List NodeId

namespace Linking

/-- The state before the first visit. -/
def start (g : Graph) : Linking := ⟨g, [], [], []⟩

/-- The node that owns a variable introduced by a node with the given owner: a local variable
belongs to the node around its declaration, a field to its type, a parameter or a caught
exception to the node itself. -/
def scopeOf (shape : Shape NodeId) (n : NodeId) (owner : Option NodeId) (v : VariableId) : NodeId :=
  match shape with
  | .varDeclaration _ _ => owner.getD n
  | .declaration info _ _ _ => if info.var = some v then owner.getD n else n
  | _ => n

/-- Introduces variables at a node, one after the other. -/
def introduce (n : NodeId) (owner : Option NodeId) :
    List VariableId → Linking → Linking × Option LinkFailure
  | [], s => (s, none)
  | v :: rest, s =>
    if s.introduced.contains v then
      (s, some (.declaredTwice (s.graph.location n).line (s.graph.variable' v).name))
    else
      introduce n owner rest
        { s with
          introduced := v :: s.introduced
          graph := s.graph.setScope v (scopeOf (s.graph.shape n) n owner v) }

/-- Whether a node mentions a variable or a member. -/
def isMention : Shape NodeId → Bool
  | .varAccess _ _ | .fieldAccess _ _ _ => true
  | _ => false

/-- Meets a node below the given owner. -/
def visit (n : NodeId) (owner : Option NodeId) (s : Linking) : Linking × Option LinkFailure :=
  let line := (s.graph.location n).line
  let shape := s.graph.shape n
  if s.met.contains n then (s, some (.sharedNode line shape.kindName))
  else
    let s := { s with met := n :: s.met }
    if s.graph.owner n ≠ none ∧ s.graph.owner n ≠ owner then
      (s, some (.ownedElsewhere line shape.kindName))
    else
      let s := { s with graph := s.graph.setOwner n owner }
      match introduce n owner shape.introduced s with
      | (s, some failure) => (s, some failure)
      | (s, none) =>
        (if isMention shape then { s with mentions := n :: s.mentions } else s, none)

/-- Meets the nodes of a stack of places still to visit, at most `fuel` of them. -/
def visitAll : Nat → List (NodeId × Option NodeId) → Linking → Linking × Option LinkFailure
  | 0, _, s => (s, none)
  | _ + 1, [], s => (s, none)
  | fuel + 1, (n, owner) :: rest, s =>
    match visit n owner s with
    | (s, some failure) => (s, some failure)
    | (s, none) => visitAll fuel ((s.graph.children n).map (fun c => (c, some n)) ++ rest) s

/-- What is wrong with a mention. -/
def mentionFailure? (s : Linking) (n : NodeId) : Option LinkFailure :=
  let line := (s.graph.location n).line
  let unknown (v : VariableId) : Bool := !s.introduced.contains v
  match s.graph.shape n with
  | .varAccess name none => some (.undeclared line name)
  | .varAccess name (some v) => if unknown v then some (.undeclared line name) else none
  | .fieldAccess name _ (some v) => if unknown v then some (.outsideUnit line name) else none
  | _ => none

end Linking

/-- Links the unit at a node: the graph afterwards, and the failure if there was one. -/
def Graph.link (g : Graph) (root : NodeId) : Graph × Option LinkFailure :=
  match Linking.visitAll (g.nodes.size + 2) [(root, none)] (Linking.start g) with
  | (s, some failure) => (s.graph, some failure)
  | (s, none) => (s.graph, s.mentions.reverse.findSome? (Linking.mentionFailure? s))

/-- The linked unit of a tree, or why there is none. -/
def Model.ofTree (vars : Array Variable) (t : Tree) : Except LinkFailure Model :=
  match (Graph.ofTree vars t).link 0 with
  | (graph, none) => .ok { graph, root := 0 }
  | (_, some failure) => .error failure

end ModelLint
