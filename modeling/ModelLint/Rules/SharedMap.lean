import ModelLint.Rules.Rule

/-!
# Unguarded access to shared maps

A call or indexer on a map outside any lock is a violation when it may run concurrently or when
the map is a shared field. Constructors and import-time code are exempt unless they launch the
access.
-/

namespace ModelLint.SharedMap

/-- The name of the rule. -/
def ruleId : String := "unsafe-shared-map-access"

/-- The patterns of the rule. -/
structure Patterns where
  /-- Names of fields that hold shared state. -/
  shared : NameSet
  /-- Types of maps. -/
  maps : NameSet
  /-- Types of maps that are safe for concurrent use. -/
  concurrent : NameSet
  /-- Calls that start concurrent work. -/
  launch : NameSet

/-- What a call or indexer operates on. -/
def accessTarget? (g : Graph) (n : NodeId) : Option NodeId :=
  match g.shape n with
  | .methodCall _ _ qualifier _ => qualifier
  | .elementAccess target _ => some target
  | _ => none

/-- Whether a node mentions a variable or a member. -/
def isAccess (g : Graph) (n : NodeId) : Bool :=
  match g.shape n with
  | .varAccess _ _ | .fieldAccess _ _ _ => true
  | _ => false

/-- Whether a node operates on a variable or a member. -/
def isCandidate (m : Model) (n : NodeId) : Bool :=
  (accessTarget? m.graph n).any (isAccess m.graph)

/-- Whether a variable is a field of shared state: static, or by its name. -/
def isSharedField (patterns : NameSet) (v : Variable) : Bool :=
  v.isField && (v.isStatic || Pattern.anyAccepts patterns v.name)

/-- How a node operates on its target, in words. -/
def operation (g : Graph) (n : NodeId) : String :=
  match g.shape n with
  | .methodCall name _ _ _ => "'" ++ name ++ "'"
  | _ => "indexer"

/-- The message for a node that is a violation. -/
def judge (p : Patterns) (m : Model) (n : NodeId) : Except Unresolved (Option String) :=
  let g := m.graph
  match accessTarget? g n with
  | none => .ok none
  | some target =>
    match g.accessedVariable target with
    | .error cause => .error cause
    | .ok none => .ok none
    | .ok (some v) =>
      let variable' := g.variable' v
      if !TypeName.isMap p.maps p.concurrent variable'.typeName || g.isWithin "Lock" n then
        .ok none
      else
        let concurrent := g.isConcurrent p.launch (some m.root) n
        if concurrent || isSharedField p.shared variable' then
          .ok (some ("Map '" ++ variable'.name ++ "' (" ++ variable'.typeName.getD "None" ++
            ") is accessed via " ++ operation g n ++ " " ++
            (if concurrent then "inside a concurrently executing context"
              else "on a field shared across threads") ++ " without holding a lock"))
        else .ok none

/-- Whether an access runs while its object or module is set up, and not concurrently. -/
def isExempt (p : Patterns) (m : Model) (n : NodeId) : Bool :=
  (m.graph.enclosingMethod n).any m.graph.isConstructor &&
    !m.graph.isConcurrent p.launch (some m.root) n

/-- The rule with its patterns. -/
def rule (description : String) (severity : Severity) (p : Patterns) : Rule where
  id := ruleId
  description := description
  severity := severity
  isCandidate := isCandidate
  judge := judge p
  isExempt := isExempt p

end ModelLint.SharedMap
