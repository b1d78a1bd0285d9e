import ModelLint.Configuration

/-!
# Analysing a unit

A configuration is applied to a linked unit by building its rules and evaluating them in the
order of the registry.
-/

namespace ModelLint.Configuration

/-- The enabled rules. -/
def buildRules (c : Configuration) : Except BuildFailure (List Rule) := Registry.build c.rules

/-- The rule of a name with its configured settings, enabled or not. -/
def buildRule? (c : Configuration) (id : String) : Option Rule := do
  let d ← Registry.find? id
  let settings ← c.rules.lookup id
  (d.build settings).toOption

/-- What the enabled rules say about a unit. -/
def analyze (c : Configuration) (m : Model) : Except BuildFailure RunResult :=
  c.buildRules.map fun rules => Rule.evaluateAll rules c.phrases m

end ModelLint.Configuration
