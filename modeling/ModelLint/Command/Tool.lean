import ModelLint.Command.Run

/-!
# Tools

The program answers calls of two tools with a record: `warden_check` analyses a path, `warden_rules`
lists the rules with their settings. What the caller can mend is answered with a record that holds
the error; an accident ends the call without an answer, and so does an answer with a number that
cannot be written.
-/

namespace ModelLint.Tool

/-- Why a call has no answer. -/
inductive Accident where
  /-- The configuration. -/
  | settings (failure : SettingsFailure)
  /-- A file. -/
  | file (failure : FileFailure)
  /-- What the rules say about a file. -/
  | run (failure : RunFailure)
  /-- The path of the call is no text. -/
  | pathNotText
  /-- The answer cannot be written. -/
  | unwritable

/-- The answer to a call that went wrong. -/
def errorRecord (message : String) : Value := .record [("error", .str message)]

/-- The numbers of a report. -/
def statistics (s : Survey) : Value := .record [
  ("files", .int s.checked), ("findings", .int s.findings.length),
  ("suppressed", .int s.result.suppressed), ("skipped", .int s.skipped)]

/-- The answer with a report, whose findings are given in a form. -/
def surveyRecord (s : Survey) (own : String × Value) : Value := .record [
  ("stats", statistics s), ("errors", .list (s.errors.map .str)),
  ("diagnostics", .list (s.result.diagnostics.map .str)), own]

/-- The answer with a report in a form; one that cannot be written is told. -/
def surveyAnswer (c : Configuration) (format : ReportFormat) (s : Survey) : Value :=
  match format with
  | .json =>
    surveyRecord s ("findings", .list ((Report.sorted s.findings).map Finding.toValue))
  | format =>
    match Report.write format version (Command.descriptions c) s.findings with
    | .ok text => surveyRecord s ("report", .str text)
    | .error e => errorRecord e.message

section Reading

variable (read : Readers)

/-- The configuration of a directory, or the answer without one. -/
def withSettings (w : Workspace) (directory : Path)
    (answer : Configuration → Except Accident Value) : Except Accident Value :=
  match Configuration.loadWith read.yaml w none (some directory) with
  | .ok c => answer c
  | .error e => if e.isReported then .ok (errorRecord e.message) else .error (.settings e)

/-- The analysis of a path. -/
def check (w : Workspace) (path : String) (format : ReportFormat) : Except Accident Value :=
  let target := w.resolve (.ofString path)
  if (w.entry? target).isNone then .ok (errorRecord ("No such file or directory: " ++ path))
  else withSettings read w (w.directoryOf target) fun c =>
    match Survey.run read w c [] [target] with
    | .ok s => .ok (surveyAnswer c format s)
    | .error (.rules e) => .ok (errorRecord e.message)
    | .error (.file e) => .error (.file e)
    | .error (.run e) => .error (.run e)

/-- The rules with their settings. -/
def rules (w : Workspace) : Except Accident Value :=
  withSettings read w (w.resolve (.ofString ".")) fun c => .ok (.record [("rules", c.rulesValue)])

/-- The value that answers a call of a tool with arguments. -/
def respond (w : Workspace) (tool : String) (arguments : List (Value × Value)) :
    Except Accident Value :=
  match tool with
  | "warden_check" =>
    match Value.lookup arguments "path" with
    | none => .ok (errorRecord "'path'")
    | some path =>
      let format := (Value.lookup arguments "format").getD (.str "json")
      match ReportFormat.ofValue? format, path with
      | none, _ =>
        if format.isWritable then
          .ok (errorRecord ("Unknown report format '" ++ format.display ++ "'"))
        else .error .unwritable
      | some format, .str path => check read w path format
      | some _, _ => .error .pathNotText
  | "warden_rules" => rules read w
  | tool => .ok (errorRecord ("Unknown tool: " ++ tool))

/-- The answer to a call of a tool with arguments, if it can be written. -/
def callWith (w : Workspace) (tool : String) (arguments : List (Value × Value)) :
    Except Accident Value := do
  let answer ← respond read w tool arguments
  if answer.isWritable then return answer else throw .unwritable

end Reading

/-- The answer to a call of a tool with arguments. -/
def call : Workspace → String → List (Value × Value) → Except Accident Value :=
  callWith Command.readers

end ModelLint.Tool
