import ModelLint.Rules.Registry

/-!
# Configurations

A configuration is read from a mapping. Options and rules that are not mentioned keep their
defaults; everything else that is not understood is an error, and each error is a cause with its
message in `ConfigError.message`.

Pattern lists are trimmed and become sets. The phrases that suppress findings are a sorted list
once they are configured.
-/

namespace ModelLint

/-- Why a mapping is no configuration. -/
inductive ConfigError where
  /-- The whole is not a mapping. -/
  | notMapping
  /-- Options that do not exist; `rule` names the rule they are under. -/
  | unknownOptions (rule : Option String) (names : List String)
  /-- An option that does not exist and is not even a text; `rule` names the rule it is under. -/
  | optionNotText (rule : Option String)
  /-- The rules are not a mapping. -/
  | rulesNotMapping
  /-- A key that names no registered rule. -/
  | unknownRule (key : Value)
  /-- The settings of a rule are not a mapping. -/
  | settingsNotMapping (rule : String)
  /-- A value that names no severity; `rule` names the rule it is under. -/
  | unknownSeverity (rule : Option String) (value : Value)
  /-- The switch of a rule is not a truth value. -/
  | enabledNotBool (rule : String)
  /-- A key that names no pattern list of the rule, and those the rule has. -/
  | unknownPatterns (rule : String) (key : Value) (known : List String)
  /-- The patterns of a rule are neither a list nor a mapping. -/
  | patternsNotLists (rule : String)
  /-- Something that should be a list of texts is none. -/
  | notTextList (place : String)
  /-- A pattern list without patterns. -/
  | emptyPatterns (place : String)
  /-- A pattern that is no text or blank. -/
  | blankPattern (place : String)
  /-- The excluded globs are no list of texts. -/
  | excludeNotGlobs
  /-- The number of workers is not positive. -/
  | jobsNotPositive

namespace ConfigError

/-- What is wrong; an option that is not a text has no message of its own. -/
def message : ConfigError → String
  | notMapping => "Configuration must be a mapping"
  | unknownOptions none names =>
    "Unknown configuration option(s): " ++ String.intercalate ", " names
  | unknownOptions (some rule) names =>
    "rules." ++ rule ++ ": unknown option(s): " ++ String.intercalate ", " names
  | optionNotText _ => ""
  | rulesNotMapping => "'rules' must be a mapping of rule id to settings"
  | unknownRule key => "Unknown rule id '" ++ key.display ++ "'"
  | settingsNotMapping rule => "rules." ++ rule ++ ": expected a mapping"
  | unknownSeverity none value => Severity.unknownMessage value
  | unknownSeverity (some rule) value => "rules." ++ rule ++ ": " ++ Severity.unknownMessage value
  | enabledNotBool rule => "rules." ++ rule ++ ": 'enabled' must be true or false"
  | unknownPatterns rule key known =>
    "rules." ++ rule ++ ": unknown pattern list '" ++ key.display ++ "' (expected one of: " ++
      String.intercalate ", " known ++ ")"
  | patternsNotLists rule => "rules." ++ rule ++ ": 'patterns' must be a list or a mapping of lists"
  | notTextList place => place ++ ": expected a list of strings"
  | emptyPatterns place => place ++ ": pattern list is empty"
  | blankPattern place => place ++ ": patterns must be non-empty strings"
  | excludeNotGlobs => "'exclude' must be a list of glob patterns"
  | jobsNotPositive => "'jobs' must be a positive integer"

/-- Whether the error is an answer to the user, and not an accident: unknown options can be listed if
all of them are texts, and a message can be written if the value that it shows can. -/
def isReported : ConfigError → Bool
  | optionNotText _ => false
  | unknownSeverity _ value => value.isWritable
  | unknownRule key | unknownPatterns _ key _ => key.isWritable
  | _ => true

end ConfigError

/-- How files are analysed. -/
structure Configuration where
  /-- The settings of every registered rule, in the order of the registry. -/
  rules : List (String × RuleSettings)
  /-- The phrases that suppress findings. -/
  phrases : List String
  /-- Names that are taken for locks. -/
  lockPatterns : NameSet
  /-- Globs of files that are left out. -/
  exclude : List String
  /-- The number of workers. -/
  jobs : Int
  /-- The lowest severity that fails a run. -/
  failOn : Severity
deriving DecidableEq, Inhabited

namespace Configuration

/-- Names that are taken for locks by default. -/
def defaultLockPatterns : NameSet :=
  NameSet.ofList ["%lock%", "%mutex%", "%semaphore%", "%condition%"]

/-- The configuration where nothing is configured. -/
def standard : Configuration where
  rules := Registry.definitions.map fun d => (d.id, d.defaultSettings)
  phrases := Rule.defaultPhrases
  lockPatterns := defaultLockPatterns
  exclude := []
  jobs := 1
  failOn := .warning

/-- The names of the enabled rules. -/
def enabledRules (c : Configuration) : List String :=
  (c.rules.filter (·.2.enabled)).map (·.1)

/-! ## Parts of the mapping -/

/-- The texts of a list, if all its items are texts. -/
def texts? (items : List Value) : Option (List String) :=
  items.mapM fun
    | .str s => some s
    | _ => none

/-- Refuses keys that are not among the known ones. Unknown options are listed in order, which cannot
be done with one that is not a text. -/
def checkKeys (rule : Option String) (known : List String) (entries : List (Value × Value)) :
    Except ConfigError Unit :=
  match (entries.map (·.1)).filter fun key => !known.any fun name => key.isText name with
  | [] => .ok ()
  | unknown =>
    match texts? unknown with
    | some names => .error (.unknownOptions rule (NameSet.ofList names))
    | none => .error (.optionNotText rule)

/-- What a reader makes of the value of an option; an option that is not there keeps its default. -/
def option {α : Type} (entries : List (Value × Value)) (name : String) (default : α)
    (read : Value → Except ConfigError α) : Except ConfigError α :=
  match Value.lookup entries name with
  | none => .ok default
  | some v => read v

/-- The pattern set of the items of a list or a set at a place. -/
def patternSetOf (place : String) (items : List Value) : Except ConfigError NameSet :=
  if items.isEmpty then .error (.emptyPatterns place)
  else
    match texts? items with
    | none => .error (.blankPattern place)
    | some names =>
      let names := names.map Text.trimmed
      if names.all (· ≠ "") then .ok (NameSet.ofList names) else .error (.blankPattern place)

/-- The pattern set of a value at a place. -/
def patternSet (place : String) : Value → Except ConfigError NameSet
  | .list items | .set items => patternSetOf place items
  | _ => .error (.notTextList place)

/-- The severity that a value names; `rule` names the rule it is under. -/
def severityOf (rule : Option String) (v : Value) : Except ConfigError Severity :=
  match Severity.ofValue? v with
  | some s => .ok s
  | none => .error (.unknownSeverity rule v)

/-- Replaces the value under a name. -/
def replace {α : Type} (name : String) (value : α) (entries : List (String × α)) :
    List (String × α) :=
  entries.map fun (n, v) => if n = name then (n, value) else (n, v)

/-- Puts what a reader makes of each entry of a mapping in the place of what has the same name. -/
def putAll {α : Type} (read : Value → Value → Except ConfigError (String × α)) :
    List (Value × Value) → List (String × α) → Except ConfigError (List (String × α))
  | [], named => .ok named
  | (key, value) :: rest, named => do
    let put ← read key value
    putAll read rest (replace put.1 put.2 named)

/-! ## Rules -/

/-- The pattern list of a rule from an entry of a mapping. -/
def namedPatterns (d : RuleDefinition) (key value : Value) :
    Except ConfigError (String × NameSet) :=
  match d.patterns.find? fun list => key.isText list.1 with
  | none => .error (.unknownPatterns d.id key (NameSet.ofList (d.patterns.map (·.1))))
  | some list => do
    let set ← patternSet ("rules." ++ d.id ++ ".patterns." ++ list.1) value
    return (list.1, set)

/-- The pattern lists of a rule with those of a value put in: items are those of the primary list, and
a mapping gives lists by name. -/
def patternsOf (d : RuleDefinition) : Value → Except ConfigError (List (String × NameSet))
  | .null => .ok d.patterns
  | .list items | .set items => do
    let set ← patternSetOf ("rules." ++ d.id ++ ".patterns") items
    return replace d.primary set d.patterns
  | .map entries => putAll (namedPatterns d) entries d.patterns
  | _ => .error (.patternsNotLists d.id)

/-- Whether a rule takes part, from a value. -/
def enabledOf (d : RuleDefinition) : Value → Except ConfigError Bool
  | .bool b => .ok b
  | _ => .error (.enabledNotBool d.id)

/-- The options of a rule. -/
def ruleOptions : List String := ["severity", "enabled", "patterns"]

/-- The settings of a rule from a mapping. -/
def ruleFromMap (d : RuleDefinition) (entries : List (Value × Value)) :
    Except ConfigError RuleSettings := do
  checkKeys (some d.id) ruleOptions entries
  let severity ← option entries "severity" d.severity (severityOf (some d.id))
  let enabled ← option entries "enabled" true (enabledOf d)
  let patterns ← option entries "patterns" d.patterns (patternsOf d)
  return { severity, enabled, patterns }

/-- The settings of a rule from a value; no value is the empty mapping. -/
def ruleFromValue (d : RuleDefinition) : Value → Except ConfigError RuleSettings
  | .null => ruleFromMap d []
  | .map entries => ruleFromMap d entries
  | _ => .error (.settingsNotMapping d.id)

/-- The settings of a rule from an entry of a mapping. -/
def namedRule (key value : Value) : Except ConfigError (String × RuleSettings) :=
  match Registry.definitions.find? fun d => key.isText d.id with
  | none => .error (.unknownRule key)
  | some d => do
    let settings ← ruleFromValue d value
    return (d.id, settings)

/-- The settings of all rules with those of a value put in. -/
def rulesOf : Value → Except ConfigError (List (String × RuleSettings))
  | .map entries => putAll namedRule entries standard.rules
  | v => if v.isTruthy then .error .rulesNotMapping else .ok standard.rules

/-! ## The whole mapping -/

/-- The excluded globs from a value. -/
def excludeOf : Value → Except ConfigError (List String)
  | .list items =>
    match texts? items with
    | some globs => .ok globs
    | none => .error .excludeNotGlobs
  | v => if v.isTruthy then .error .excludeNotGlobs else .ok []

/-- The number of workers from a value. -/
def jobsOf : Value → Except ConfigError Int
  | .int n => if n < 1 then .error .jobsNotPositive else .ok n
  | _ => .error .jobsNotPositive

/-- The options of a configuration. -/
def options : List String :=
  ["rules", "suppression_phrases", "lock_patterns", "exclude", "jobs", "fail_on"]

/-- The configuration of a mapping. -/
def ofMap (entries : List (Value × Value)) : Except ConfigError Configuration := do
  checkKeys none options entries
  let rules ← option entries "rules" standard.rules rulesOf
  let phrases ← option entries "suppression_phrases" standard.phrases
    (patternSet "suppression_phrases")
  let lockPatterns ← option entries "lock_patterns" standard.lockPatterns
    (patternSet "lock_patterns")
  let exclude ← option entries "exclude" standard.exclude excludeOf
  let jobs ← option entries "jobs" standard.jobs jobsOf
  let failOn ← option entries "fail_on" standard.failOn (severityOf none)
  return { rules, phrases, lockPatterns, exclude, jobs, failOn }

/-- The configuration of a value. -/
def ofValue : Value → Except ConfigError Configuration
  | .map entries => ofMap entries
  | _ => .error .notMapping

/-- The description of the rules as a list of records. -/
def rulesValue (c : Configuration) : Value :=
  .list <| c.rules.map fun (id, s) => .record [
    ("id", .str id),
    ("description", .str ((Registry.find? id).elim "" (·.description))),
    ("severity", .str s.severity.name),
    ("enabled", .bool s.enabled),
    ("patterns", .record (s.patterns.map fun (name, set) => (name, .list (set.map .str))))]

end Configuration

end ModelLint
