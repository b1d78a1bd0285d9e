import ModelLint.Command.Arguments
import ModelLint.Command.Outline
import ModelLint.Command.Table
import ModelLint.Report
import ModelLint.Workspace.Survey

/-!
# Commands

There are three commands: `check` analyses files and reports what the rules find, `rules` lists the
rules with their settings, and `dump` shows the outline of a file's unit. A command reads a workspace
and ends with an exit code and what it prints; `check` may write its report to a file instead.

The exit code tells why a command ended: whether the findings reach a threshold, whether a
configuration cannot be used, whether the report cannot be written, or whether the run came to an
accident, which prints nothing.
-/

namespace ModelLint

/-- The version of the program in reports. -/
def version : String := "0.1.0"

/-- How a command ended. -/
structure Ending where
  /-- The exit code. -/
  exit : Nat
  /-- What it printed. -/
  output : String
  /-- The file it wrote, with its text. -/
  written : Option (Path × String)
deriving DecidableEq, Inhabited

namespace Ending

/-- A command that printed something and reached its goal. -/
def success (output : String) : Ending := ⟨0, output, none⟩

/-- A command that found something at or above the threshold, or came to an accident. -/
def findings : Nat := 1

/-- A command that cannot use its arguments or its configuration. -/
def unusable : Nat := 2

/-- A command that cannot write its report. -/
def unwritable : Nat := 3

/-- A command that ended early with an exit code. -/
def ended (exit : Nat) : Ending := ⟨exit, "", none⟩

/-- A command that came to an accident. -/
def accident : Ending := ended findings

/-- What a command shows that cannot use its configuration, in markup. -/
def reasonMarkup (reason : String) : String := "[red]Configuration error:[/red] " ++ reason

section Showing

-- What shows markup: the plain text, or nothing if the markup is wrong.
variable (plain : String → Option String)

/-- A command that cannot use its configuration. The reason is shown as markup, and one that cannot be
shown is an accident. -/
def misconfigured (reason : String) : Ending :=
  if (plain (reasonMarkup reason)).isSome then ended unusable else accident

/-- A command that could not load its configuration. -/
def ofSettingsFailure (e : SettingsFailure) : Ending :=
  if e.isReported then misconfigured plain e.message else accident

end Showing

end Ending

namespace Command

section Reading

-- What files are read with, and what shows markup.
variable (read : Readers) (plain : String → Option String)

/-! ## Checking files -/

/-- What `check` is asked for. -/
structure CheckRequest where
  /-- The files and directories. -/
  paths : List Path
  /-- The configuration file. -/
  config : Option Path
  /-- The form of the report. -/
  format : ReportFormat
  /-- The file that takes the report. -/
  output : Option Path
  /-- The lowest severity that fails the run. -/
  failOn : Option String
  /-- Globs of files that are left out. -/
  exclude : List String
  /-- The number of workers, which has no effect on the report. -/
  jobs : Option Int
deriving DecidableEq, Inhabited

/-- The severity that fails a run. -/
def threshold? (c : Configuration) (failOn : Option String) : Except String Severity :=
  match failOn with
  | none | some "" => .ok c.failOn
  | some name =>
    match Severity.ofName? name with
    | some s => .ok s
    | none => .error (Severity.unknownMessage (.str name))

/-- Whether a number of workers can be used. -/
def checkJobs (jobs : Option Int) : Except String Unit :=
  if jobs.any (· < 1) then .error "--jobs must be at least 1" else .ok ()

/-- The descriptions of the enabled rules. -/
def descriptions (c : Configuration) : List (String × String) :=
  (c.buildRules.toOption.getD []).map fun r => (r.id, r.description)

/-- Hands a report over. -/
def deliver (w : Workspace) (r : CheckRequest) (report : String) (exceeds : Bool) : Ending :=
  let exit := if exceeds then Ending.findings else 0
  match r.output with
  | none => ⟨exit, report, none⟩
  | some p =>
    if (w.write? p report.toUTF8).isSome then ⟨exit, "", some (p, report)⟩
    else .ended Ending.unwritable

/-- Analyses files and reports what the rules find. -/
def check (w : Workspace) (r : CheckRequest) : Ending :=
  let paths := r.paths.map w.resolve
  match Configuration.loadWith read.yaml w r.config (paths.head?.map w.directoryOf) with
  | .error e => .ofSettingsFailure plain e
  | .ok c =>
    match threshold? c r.failOn, checkJobs r.jobs with
    | .error reason, _ | _, .error reason => .misconfigured plain reason
    | .ok threshold, .ok () =>
      match Survey.run read w c r.exclude paths with
      | .error (.rules e) => .misconfigured plain e.message
      | .error (.file _) | .error (.run _) => .accident
      | .ok s =>
        match Report.write r.format version (descriptions c) s.findings with
        | .error _ => .ended Ending.unwritable
        | .ok report => deliver w r report (Report.exceeds threshold s.findings)

/-! ## Listing rules -/

/-- The line of a rule. -/
def ruleRow (entry : String × RuleSettings) : List String :=
  [entry.1, entry.2.severity.name, if entry.2.enabled then "yes" else "no",
    (Registry.find? entry.1).elim "" (·.description)]

/-- The table of the rules of a configuration. -/
def ruleTable (c : Configuration) : String :=
  Table.text "Rules" ["Rule", "Severity", "Enabled", "Description"] (c.rules.map ruleRow)

/-- Lists the rules with their settings, as JSON or as a table. -/
def rules (w : Workspace) (config : Option Path) (asJson : Bool) : Ending :=
  match Configuration.loadWith read.yaml w config (some (w.resolve (.ofString "."))) with
  | .error e => .ofSettingsFailure plain e
  | .ok c => .success (if asJson then Json.pretty c.rulesValue ++ "\n" else ruleTable c)

/-! ## Showing a unit -/

/-- Shows the outline of the unit of a file. -/
def dump (w : Workspace) (config : Option Path) (file : Path) : Ending :=
  let p := w.resolve file
  match Configuration.loadWith read.yaml w config (some { p with components := p.components.dropLast }) with
  | .error e => .ofSettingsFailure plain e
  | .ok c =>
    match FrontEnd.ofPath? p with
    | none => .ended Ending.findings
    | some f =>
      match w.unit read f c.lockPatterns p with
      | .error _ => .ended Ending.findings
      | .ok m => (Outline.ofModel? plain m).elim .accident .success

end Reading

/-! ## The command line -/

/-- The option that names a configuration file. -/
def configForm : OptionForm := ⟨"--config", some 'c', true⟩

/-- The options of `check`. -/
def checkForms : List OptionForm := [
  configForm, ⟨"--format", some 'f', true⟩, ⟨"--output", some 'o', true⟩,
  ⟨"--fail-on", none, true⟩, ⟨"--exclude", some 'e', true⟩, ⟨"--jobs", some 'j', true⟩,
  ⟨"--verbose", some 'v', false⟩]

/-- The options of `rules`. -/
def rulesForms : List OptionForm := [configForm, ⟨"--json", none, false⟩]

/-- What the program reads with. -/
def readers : Readers := ⟨Configuration.readYaml, .known⟩

/-- The path that an option names. -/
def pathOf? (a : Arguments) (long : String) : Option Path := (a.value? long).map Path.ofString

/-- What `check` is asked for by its arguments. -/
def checkRequest? (a : Arguments) : Option CheckRequest := do
  let format ← match a.value? "--format" with
    | none => some .text
    | some name => ReportFormat.ofName? name
  let jobs ← match a.value? "--jobs" with
    | none => some none
    | some text => (Text.integer? text).map some
  let operands := if a.operands = [] then ["."] else a.operands
  return {
    paths := operands.map Path.ofString, config := pathOf? a "--config", format
    output := pathOf? a "--output", failOn := a.value? "--fail-on"
    exclude := a.values "--exclude", jobs }

/-- Runs the command of a command line, if it is one. -/
def run? (w : Workspace) (args : List String) : Option Ending :=
  match args with
  | "check" :: rest => do
    let a ← Arguments.parse? checkForms rest
    return check readers Markup.plain? w (← checkRequest? a)
  | "rules" :: rest => do
    let a ← Arguments.parse? rulesForms rest
    if a.operands = [] then
      some (rules readers Markup.plain? w (pathOf? a "--config") (a.has "--json"))
    else none
  | "dump" :: rest => do
    let a ← Arguments.parse? [configForm] rest
    match a.operands with
    | [file] =>
      some (dump readers Markup.plain? w (pathOf? a "--config") (.ofString file))
    | _ => none
  | _ => none

/-- The paths that the command of a command line reads below, and the one it writes to. -/
def touched (args : List String) : List Path × Option Path :=
  match args with
  | "check" :: rest =>
    match (Arguments.parse? checkForms rest).bind checkRequest? with
    | some r => (r.config.toList ++ r.paths, r.output)
    | none => ([], none)
  | _ :: rest =>
    match Arguments.parse? rulesForms rest with
    | some a => ((pathOf? a "--config").toList ++ a.operands.map Path.ofString, none)
    | none => ([], none)
  | [] => ([], none)

/-- Runs the command of a command line; one that is none cannot be used. -/
def run (w : Workspace) (args : List String) : Ending :=
  (run? w args).getD (.ended Ending.unusable)

end Command

end ModelLint
