import ModelLint.Rules.GenericException
import ModelLint.Rules.ResourceDisposal
import ModelLint.Rules.SharedMap

/-!
# The registered rules

Every rule is registered with its description and default settings. Rules are built from settings
in the order of the registry; a rule without settings has its defaults. The pattern lists of the
settings are looked up by name, in the order in which the rule needs them.
-/

namespace ModelLint

/-- Why rules cannot be built. -/
inductive BuildFailure where
  /-- Settings for rules that are not registered. -/
  | unknownRules (ids : List String)
  /-- A pattern list that a rule needs is not in its settings. -/
  | missingPatterns (name : String)
deriving DecidableEq

/-- What is wrong. -/
def BuildFailure.message : BuildFailure → String
  | .unknownRules ids => "Unknown rule id(s): " ++ String.intercalate ", " ids
  | .missingPatterns name => "Missing pattern list '" ++ name ++ "'"

/-- A registered rule. -/
structure RuleDefinition where
  /-- The name in configurations and reports. -/
  id : String
  /-- What it reports. -/
  description : String
  /-- The severity where none is configured. -/
  severity : Severity
  /-- The pattern list that a configuration without names sets. -/
  primary : String
  /-- The pattern lists where none are configured. -/
  patterns : List (String × NameSet)
  /-- Builds the rule from its settings. -/
  build : RuleSettings → Except BuildFailure Rule

namespace RuleDefinition

/-- The settings where none are configured. -/
def defaultSettings (d : RuleDefinition) : RuleSettings :=
  { severity := d.severity, enabled := true, patterns := d.patterns }

/-- The pattern list that a rule needs. -/
def require (s : RuleSettings) (name : String) : Except BuildFailure NameSet :=
  match s.pattern? name with
  | some patterns => .ok patterns
  | none => .error (.missingPatterns name)

end RuleDefinition

namespace Registry

open RuleDefinition (require)

/-- The rule on handlers that swallow every exception. -/
def genericException : RuleDefinition where
  id := GenericException.ruleId
  description := "Generic catch clause neither logs nor rethrows the exception"
  severity := .warning
  primary := "logging_methods"
  patterns := [
    ("logging_methods", NameSet.ofList ["%log%", "%write%", "%trace%", "%print%", "%error%",
      "%warn%", "%exception%", "%critical%"]),
    ("root_exception_types", NameSet.ofList ["Exception", "System.Exception", "BaseException"])]
  build s := do
    let logging ← require s "logging_methods"
    let rootTypes ← require s "root_exception_types"
    return GenericException.rule "Generic catch clause neither logs nor rethrows the exception"
      s.severity { logging, rootTypes }

/-- The rule on resources that are never released. -/
def resourceDisposal : RuleDefinition where
  id := ResourceDisposal.ruleId
  description := "Disposable local is never disposed, closed, or handed off"
  severity := .warning
  primary := "resource_types"
  patterns := [
    ("resource_types", NameSet.ofList ["FileStream", "%Stream", "%Reader", "%Writer",
      "%Connection", "%Command", "%Socket", "%Client", "%File", "TextIOWrapper",
      "BufferedReader", "BufferedWriter", "HTTPResponse", "socket"]),
    ("release_methods", NameSet.ofList ["Dispose", "DisposeAsync", "Close", "aclose"])]
  build s := do
    let resourceTypes ← require s "resource_types"
    let release ← require s "release_methods"
    return ResourceDisposal.rule "Disposable local is never disposed, closed, or handed off"
      s.severity { resourceTypes, release }

/-- The rule on unguarded access to shared maps. -/
def sharedMap : RuleDefinition where
  id := SharedMap.ruleId
  description := "Shared mutable map accessed concurrently without a lock"
  severity := .error
  primary := "shared_fields"
  patterns := [
    ("shared_fields", NameSet.ofList ["%shared%", "%global%", "%cache%"]),
    ("map_types", NameSet.ofList ["Dictionary", "IDictionary", "SortedDictionary", "Hashtable",
      "dict", "Dict", "defaultdict", "OrderedDict", "Counter"]),
    ("concurrent_map_types", NameSet.ofList ["Concurrent%"]),
    ("launch_calls", NameSet.ofList ["Task.Run", "%.StartNew", "ThreadPool.%", "Parallel.%",
      "Thread", "%.Thread", "Timer", "%.Timer", "%.submit", "%.create_task", "%.ensure_future",
      "%.run_in_executor", "%.to_thread", "%.start_new_thread"])]
  build s := do
    let shared ← require s "shared_fields"
    let maps ← require s "map_types"
    let concurrent ← require s "concurrent_map_types"
    let launch ← require s "launch_calls"
    return SharedMap.rule "Shared mutable map accessed concurrently without a lock" s.severity
      { shared, maps, concurrent, launch }

/-- The registered rules in order. -/
def definitions : List RuleDefinition := [genericException, resourceDisposal, sharedMap]

/-- The registered rule of a name. -/
def find? (id : String) : Option RuleDefinition := definitions.find? fun d => d.id == id

/-- The enabled ones of some registered rules, with the given settings. -/
def buildAll (settings : List (String × RuleSettings)) :
    List RuleDefinition → Except BuildFailure (List Rule)
  | [] => .ok []
  | d :: rest => do
    let s := (settings.lookup d.id).getD d.defaultSettings
    if s.enabled then
      let rule ← d.build s
      return rule :: (← buildAll settings rest)
    else buildAll settings rest

/-- The enabled rules of settings by rule name, in the order of the registry. -/
def build (settings : List (String × RuleSettings)) : Except BuildFailure (List Rule) :=
  match NameSet.ofList ((settings.map (·.1)).filter fun id => (find? id).isNone) with
  | [] => buildAll settings definitions
  | unknown => .error (.unknownRules unknown)

end Registry

end ModelLint
