import ModelLint.Rules.Rule

/-!
# Resources that are never released

A local variable that is initialised by acquiring a resource has to be released somewhere in its
function: managed by a scoped acquisition, released by a call on it, returned, stored in a field,
or handed to a call.
-/

namespace ModelLint.ResourceDisposal

/-- The name of the rule. -/
def ruleId : String := "missing-resource-disposal"

/-- The patterns of the rule. -/
structure Patterns where
  /-- Types whose values have to be released. -/
  resourceTypes : NameSet
  /-- Methods that release. -/
  release : NameSet

/-- Whether an assignment to a target stores in a field; an indexer stores in what it indexes. -/
def isFieldTarget (g : Graph) (target : NodeId) : Bool :=
  let target := match g.shape target with
    | .elementAccess inner _ => inner
    | _ => target
  match g.shape target with
  | .fieldAccess _ _ _ => true
  | .varAccess _ (some v) => (g.variable' v).isField
  | _ => false

/-- Whether a node releases a variable or hands it on. -/
def releases (g : Graph) (release : NameSet) (v : VariableId) (n : NodeId) : Bool :=
  match g.shape n with
  | .usingStatement resources _ => resources.any (g.isDirectMention v)
  | .methodCall name _ qualifier arguments =>
    (qualifier.any (g.isDirectMention v) && Pattern.anyAccepts release name) ||
      arguments.any (g.isDirectMention v)
  | .returnStatement value => value.any (g.isDirectMention v)
  | .assignment _ target value => g.isDirectMention v value && isFieldTarget g target
  | _ => false

/-- Whether a node is a function: an anonymous one or a method. -/
def isFunction (g : Graph) (n : NodeId) : Bool := g.isA "Lambda" n || g.declares .method n

/-- Where a variable of the given scope may be released: the innermost function that holds the
scope, or the scope itself where there is none. -/
def releaseRegion (g : Graph) (scope : NodeId) : NodeId :=
  ((scope :: g.ancestors scope).find? (isFunction g)).getD scope

/-- Whether the resource of a declaration is released. -/
def isReleased (g : Graph) (release : NameSet) (n : NodeId) (v : VariableId) :
    Except Unresolved Bool :=
  if (g.owner n).any (g.isA "Using") then .ok true
  else
    match g.declaringScope v with
    | .ok scope => .ok ((g.preorder (releaseRegion g scope)).any (releases g release v))
    | .error cause => .error cause

/-- The message for a declaration that is a violation. -/
def judge (p : Patterns) (m : Model) (n : NodeId) : Except Unresolved (Option String) :=
  let g := m.graph
  match g.shape n with
  | .varDeclaration v initializer =>
    let variable' := g.variable' v
    if !initializer.any g.isAcquisition then .ok none
    else if !TypeName.isResource p.resourceTypes (g.disposableTypes m.root) variable'.typeName then
      .ok none
    else
      match isReleased g p.release n v with
      | .error cause => .error cause
      | .ok true => .ok none
      | .ok false =>
        .ok (some ("Resource '" ++ variable'.name ++ "' of type '" ++
          variable'.typeName.getD "None" ++ "' is never disposed or closed; " ++
          "acquire it in a using/with block or release it explicitly"))
  | _ => .ok none

/-- Whether a node declares a local variable. -/
def isCandidate (m : Model) (n : NodeId) : Bool :=
  match m.graph.shape n with
  | .varDeclaration v _ => (m.graph.variable' v).kind = .localVar
  | _ => false

/-- The rule with its patterns. -/
def rule (description : String) (severity : Severity) (p : Patterns) : Rule where
  id := ruleId
  description := description
  severity := severity
  isCandidate := isCandidate
  judge := judge p
  isExempt _ _ := false

end ModelLint.ResourceDisposal
