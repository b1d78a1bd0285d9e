import ModelLint.Rules.Rule

/-!
# Handlers that swallow every exception

A handler for everything, or for a root exception type, has to log the exception it caught or to
throw it again. A handler with an empty body does neither.
-/

namespace ModelLint.GenericException

/-- The name of the rule. -/
def ruleId : String := "generic-exception-handling"

/-- The patterns of the rule. -/
structure Patterns where
  /-- Methods that log. -/
  logging : NameSet
  /-- Types that every exception has. -/
  rootTypes : NameSet

/-- Whether a handler of the given types catches everything. -/
def catchesGeneric (rootTypes : NameSet) (types : List String) : Bool :=
  types.isEmpty || types.any (Pattern.anyAccepts rootTypes)

/-- Whether a call of a logging method below a body mentions the caught exception. -/
def logsException (g : Graph) (logging : NameSet) (body : NodeId) (var : Option VariableId) :
    Bool :=
  var.any fun v => (g.descendants body).any fun n =>
    g.isA "MethodCall" n && Pattern.anyAccepts? logging (g.dottedName n) && g.mentions v n

/-- What a handler catches, in words. -/
def caught (types : List String) : String :=
  if types.isEmpty then "all exceptions" else String.intercalate ", " types

/-- The message for a node that is a violation. -/
def judge (p : Patterns) (m : Model) (n : NodeId) : Option String :=
  match m.graph.shape n with
  | .catchClause types var body =>
    if !catchesGeneric p.rootTypes types then none
    else if m.graph.isEmptyBlock body then
      some ("Empty catch clause for " ++ caught types ++ " silently swallows the exception")
    else if logsException m.graph p.logging body var || m.graph.isRethrow body then none
    else
      some ("Catch clause for " ++ caught types ++
        " neither logs the caught exception nor rethrows it")
  | _ => none

/-- The rule with its patterns. -/
def rule (description : String) (severity : Severity) (p : Patterns) : Rule where
  id := ruleId
  description := description
  severity := severity
  isCandidate m n := m.graph.isA "Catch" n
  judge m n := .ok (judge p m n)
  isExempt _ _ := false

end ModelLint.GenericException
