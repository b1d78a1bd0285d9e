import ModelLint.Json.Writer
import ModelLint.Rules.Finding

/-!
# Reports

Findings are written in their order as lines of text, as JSON records with sorted fields, or as a
SARIF log. In the log the table of rules has one entry for each rule id, in order of first
occurrence, and every result refers to its entry by position. `render` gives the report with all its
numbers in full; `write` hands it over if they can be written.
-/

namespace ModelLint

/-- A form of report. -/
inductive ReportFormat where
  /-- A line for each finding. -/
  | text
  /-- A JSON array of records. -/
  | json
  /-- A SARIF log. -/
  | sarif
deriving DecidableEq, Inhabited

namespace ReportFormat

/-- All forms. -/
def all : List ReportFormat := [text, json, sarif]

/-- The name. -/
def name : ReportFormat → String
  | text => "text"
  | json => "json"
  | sarif => "sarif"

/-- The form of a name. -/
def ofName? (name : String) : Option ReportFormat := all.find? fun f => f.name == name

/-- The form that a value names. -/
def ofValue? : Value → Option ReportFormat
  | .str name => ofName? name
  | _ => none

end ReportFormat

/-- Why there is no report. -/
inductive RenderError where
  /-- A value that names no form. -/
  | unknownFormat (v : Value)
  /-- A form that needs severities, and a finding without one. -/
  | notRated (format : ReportFormat)
  /-- A form that holds a number that cannot be written. -/
  | unwritable (format : ReportFormat)

/-- What is wrong. -/
def RenderError.message : RenderError → String
  | unknownFormat v =>
    "Unknown report format '" ++ v.display ++ "' (expected one of: " ++
      String.intercalate ", " (ReportFormat.all.map ReportFormat.name) ++ ")"
  | notRated format | unwritable format => "Cannot render findings as " ++ format.name

namespace Report

/-- Findings in the order of reports. -/
def sorted (findings : List Finding) : List Finding := findings.mergeSort Finding.le

/-! ## Text and JSON -/

/-- A line for each finding. -/
def text (findings : List Finding) : String := String.join (findings.map fun f => f.text ++ "\n")

/-- The record of a finding with its fields in order of their names. -/
def sortedRecord (f : Finding) : Value := .record [
  ("end_column", .int f.span.endColumn),
  ("end_line", .int f.span.endLine),
  ("file", .str f.path.toString),
  ("message", .str f.message),
  ("rule_id", .str f.ruleId),
  ("severity", f.severity.elim .null fun s => .str s.name),
  ("start_column", .int f.span.startColumn),
  ("start_line", .int f.span.startLine)]

/-- A JSON array of records. -/
def json (findings : List Finding) : String :=
  Json.pretty (.list (findings.map sortedRecord)) ++ "\n"

/-! ## SARIF -/

/-- Where the scheme of the log is found. -/
def sarifSchema : String :=
  "https://raw.githubusercontent.com/oasis-tcs/sarif-spec/master/Schemata/sarif-schema-2.1.0.json"

/-- The level of a finding. -/
def level (f : Finding) : Value := f.severity.elim .null fun s => .str s.level

/-- The entry of a rule, from its first finding. -/
def ruleEntry (descriptions : List (String × String)) (f : Finding) : Value := .record [
  ("id", .str f.ruleId),
  ("shortDescription", .record [("text", .str ((descriptions.lookup f.ruleId).getD f.ruleId))]),
  ("defaultConfiguration", .record [("level", level f)])]

/-- The entry of a finding, with the position of its rule in the table. -/
def resultEntry (table : List Finding) (f : Finding) : Value := .record [
  ("ruleId", .str f.ruleId),
  ("ruleIndex", .int (table.findIdx fun g => g.ruleId == f.ruleId)),
  ("level", level f),
  ("message", .record [("text", .str f.message)]),
  ("locations", .list [.record [("physicalLocation", .record [
    ("artifactLocation", .record [("uri", .str f.path.toString)]),
    ("region", .record [
      ("startLine", .int f.span.startLine),
      ("startColumn", .int f.span.startColumn),
      ("endLine", .int f.span.endLine),
      ("endColumn", .int f.span.endColumn)])])]])]

/-- The table and the results of a log that is being written. -/
structure Listing where
  /-- The first finding of each rule so far, one for each entry of the table. -/
  table : List Finding
  /-- The entries of the findings so far. -/
  results : List Value

namespace Listing

/-- The listing of no finding. -/
def empty : Listing := ⟨[], []⟩

/-- Adds a finding; if its rule is not in the table yet, it is put at the end of the table first. -/
def add (s : Listing) (f : Finding) : Listing :=
  let table := if s.table.any fun g => g.ruleId == f.ruleId then s.table else s.table ++ [f]
  { table, results := s.results ++ [resultEntry table f] }

/-- The listing of findings, added one after the other. -/
def ofFindings (findings : List Finding) : Listing := findings.foldl add empty

end Listing

/-- A SARIF log of findings. -/
def sarifLog (version : String) (descriptions : List (String × String))
    (findings : List Finding) : Value :=
  let listing := Listing.ofFindings findings
  .record [
    ("$schema", .str sarifSchema),
    ("version", .str "2.1.0"),
    ("runs", .list [.record [
      ("tool", .record [("driver", .record [
        ("name", .str "warden"),
        ("version", .str version),
        ("rules", .list (listing.table.map (ruleEntry descriptions)))])]),
      ("results", .list listing.results)]])]

/-- The text of a SARIF log. -/
def sarif (version : String) (descriptions : List (String × String)) (findings : List Finding) :
    String :=
  Json.pretty (sarifLog version descriptions findings) ++ "\n"

/-! ## All forms -/

/-- The report of findings in any order; only the form `text` admits findings without severity. -/
def render (format : ReportFormat) (version : String) (descriptions : List (String × String))
    (findings : List Finding) : Except RenderError String :=
  let findings := sorted findings
  if format ≠ .text ∧ findings.any fun f => f.severity.isNone then .error (.notRated format)
  else match format with
    | .text => .ok (text findings)
    | .json => .ok (json findings)
    | .sarif => .ok (sarif version descriptions findings)

/-- The numbers of a finding that its report holds. -/
def numbers (format : ReportFormat) (f : Finding) : List Int :=
  match format with
  | .text => [f.span.startLine, f.span.startColumn]
  | .json | .sarif => [f.span.startLine, f.span.startColumn, f.span.endLine, f.span.endColumn]

/-- The report as it is handed over, if all its numbers can be written. -/
def write (format : ReportFormat) (version : String) (descriptions : List (String × String))
    (findings : List Finding) : Except RenderError String :=
  if findings.all fun f => (numbers format f).all Decimal.isWritable then
    render format version descriptions findings
  else .error (.unwritable format)

/-- The report in the form that a value names. -/
def renderAs (format : Value) (version : String) (descriptions : List (String × String))
    (findings : List Finding) : Except RenderError String :=
  match ReportFormat.ofValue? format with
  | some format => write format version descriptions findings
  | none => .error (.unknownFormat format)

/-- Whether a finding is at least as severe as a threshold. -/
def exceeds (threshold : Severity) (findings : List Finding) : Bool :=
  findings.any fun f => f.severity.any fun s => threshold.rank ≤ s.rank

end Report

end ModelLint
