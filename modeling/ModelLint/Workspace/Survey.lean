import ModelLint.Analysis
import ModelLint.Workspace.Exclusion
import ModelLint.Workspace.FrontEnd
import ModelLint.Workspace.Settings

/-!
# Analysing files

A list of paths is first turned into a list of files: a file stands for itself, and a directory for
the supported files below it that are not excluded. Then each file gives a unit, and the rules are
evaluated on it, or a fault of the file is reported. Every file is analysed by itself, so nothing
that is found in one depends on the others, and the parts of a report follow the order of the files.
A run ends early at a file with a diagnostic that cannot be written.
-/

namespace ModelLint

/-- The files that paths stand for. -/
structure Discovery where
  /-- The files to analyse. -/
  files : List Path
  /-- What was found at no path. -/
  errors : List String
  /-- The number of excluded files. -/
  skipped : Nat
deriving Inhabited

namespace Discovery

/-- The discovery of nothing. -/
def empty : Discovery := ⟨[], [], 0⟩

/-- Looks at a file below a directory: one that no front end supports is passed over. -/
def visit (globs : List String) (directory : Path) (s : Discovery) (place : Place) : Discovery :=
  let file := { directory with components := directory.components ++ place }
  if (FrontEnd.ofPath? file).isNone then s
  else if Exclusion.excludes globs (String.intercalate "/" place) then
    { s with skipped := s.skipped + 1 }
  else { s with files := s.files ++ [file] }

/-- Looks at a path: that of a file, of a directory, or of nothing. -/
def add (w : Workspace) (globs : List String) (s : Discovery) (p : Path) : Discovery :=
  if w.isFile p then { s with files := s.files ++ [p] }
  else if w.isDirectory p then (w.filesBelow p).foldl (visit globs p) s
  else { s with errors := s.errors ++ [p.toString ++ ": no such file or directory"] }

/-- What paths stand for, one after the other. -/
def ofPaths (w : Workspace) (globs : List String) (paths : List Path) : Discovery :=
  paths.foldl (add w globs) empty

end Discovery

/-- Why a run has no report. -/
inductive SurveyFailure where
  /-- The rules cannot be built. -/
  | rules (failure : BuildFailure)
  /-- A file ends the run. -/
  | file (failure : FileFailure)
  /-- What the rules say about a file ends the run. -/
  | run (failure : RunFailure)

/-- What is known about a file after its analysis. -/
inductive FileOutcome where
  /-- The file has a unit, and the rules say this about it. -/
  | checked (result : RunResult)
  /-- The file has a fault. -/
  | faulty (message : String)

/-- What is known about a file, as a run hands it over. -/
def FileOutcome.complete : FileOutcome → Except RunFailure FileOutcome
  | checked result => result.complete.map .checked
  | faulty message => .ok (.faulty message)

/-- A report on files. -/
structure Survey where
  /-- The files, in the order of their analysis. -/
  visited : List Path
  /-- The number of files that have a unit. -/
  checked : Nat
  /-- What the rules say. -/
  result : RunResult
  /-- The faults: first of paths, then of files. -/
  errors : List String
  /-- The number of excluded files. -/
  skipped : Nat
deriving Inhabited

namespace Survey

/-- Adds the outcome of the next file. -/
def add (s : Survey) : FileOutcome → Survey
  | .checked result => { s with checked := s.checked + 1, result := s.result ++ result }
  | .faulty message => { s with errors := s.errors ++ [message] }

/-- The report on what is found, from the outcomes of the files. -/
def gather (found : Discovery) (outcomes : List FileOutcome) : Survey :=
  outcomes.foldl add ⟨found.files, 0, .empty, found.errors, found.skipped⟩

/-- The globs that a run excludes by. -/
def globs (c : Configuration) (more : List String) : List String :=
  Exclusion.defaultGlobs ++ c.exclude ++ more

section Reading

variable (read : Readers)

/-- The outcome of a file under rules and the other settings of a configuration. -/
def outcome (w : Workspace) (c : Configuration) (rules : List Rule) (p : Path) :
    Except FileFailure FileOutcome :=
  match FrontEnd.ofPath? p with
  | none => .ok (.faulty (p.toString ++ ": no front end supports this file"))
  | some f =>
    match w.unit read f c.lockPatterns p with
    | .ok m => .ok (.checked (Rule.evaluateAll rules c.phrases m))
    | .error e => if e.isReported then .ok (.faulty e.message) else .error e

/-- The report on paths under a configuration; `more` are globs that are excluded as well. -/
def ofPaths (w : Workspace) (c : Configuration) (more : List String) (paths : List Path) :
    Except SurveyFailure Survey := do
  let rules ← c.buildRules.mapError .rules
  let found := Discovery.ofPaths w (globs c more) paths
  return gather found (← (found.files.mapM (outcome read w c rules)).mapError .file)

/-- The outcome of a file as a run hands it over. -/
def checkedOutcome (w : Workspace) (c : Configuration) (rules : List Rule) (p : Path) :
    Except SurveyFailure FileOutcome := do
  let outcome ← (outcome read w c rules p).mapError .file
  outcome.complete.mapError .run

/-- A run on paths: the report on them, unless it ends early. -/
def run (w : Workspace) (c : Configuration) (more : List String) (paths : List Path) :
    Except SurveyFailure Survey := do
  let rules ← c.buildRules.mapError .rules
  let found := Discovery.ofPaths w (globs c more) paths
  return gather found (← found.files.mapM (checkedOutcome read w c rules))

end Reading

/-- The findings in the order of the files. -/
def findings (s : Survey) : List Finding := s.result.findings

end Survey

end ModelLint
