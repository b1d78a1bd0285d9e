import ModelLint.Program.Graph
import ModelLint.Rules.Severity

/-!
# Findings

A finding says which rule a place in a file violates. Findings are ordered by path, place, rule
and message; texts compare by code points.
-/

namespace ModelLint

/-- A range of a file; lines and columns count from one. -/
structure Span where
  /-- The first line. -/
  startLine : Int
  /-- The first column. -/
  startColumn : Int
  /-- The last line. -/
  endLine : Int
  /-- The column behind the last character. -/
  endColumn : Int
deriving DecidableEq, Inhabited

/-- The range of a node. Lines and columns before the first count as the first, and an unknown end
is the start. -/
def Location.span (l : Location) : Span :=
  let line := max l.line 1
  let column := max l.column 1
  { startLine := line, startColumn := column, endLine := l.endLine.getD line,
    endColumn := l.endColumn.getD column }

/-- A violation of a rule. -/
structure Finding where
  /-- The rule. -/
  ruleId : String
  /-- How severe it is; a finding without a severity is not rated yet. -/
  severity : Option Severity
  /-- The file. -/
  path : Path
  /-- The place. -/
  span : Span
  /-- What is wrong. -/
  message : String
deriving DecidableEq, Inhabited

namespace Finding

/-- The line of text that reports a finding. -/
def text (f : Finding) : String :=
  f.path.toString ++ ":" ++ toString f.span.startLine ++ ":" ++ toString f.span.startColumn ++
    ": [" ++ f.ruleId ++ "] " ++ f.message

/-- The record of a finding. -/
def toValue (f : Finding) : Value := .record [
  ("rule_id", .str f.ruleId),
  ("severity", f.severity.elim .null fun s => .str s.name),
  ("message", .str f.message),
  ("file", .str f.path.toString),
  ("start_line", .int f.span.startLine),
  ("start_column", .int f.span.startColumn),
  ("end_line", .int f.span.endLine),
  ("end_column", .int f.span.endColumn)]

/-- Whether a finding comes before or equals another in reports. -/
def le (a b : Finding) : Bool :=
  let pathA := a.path.toString
  let pathB := b.path.toString
  pathA < pathB || (pathA == pathB &&
    (a.span.startLine < b.span.startLine || (a.span.startLine == b.span.startLine &&
      (a.span.startColumn < b.span.startColumn || (a.span.startColumn == b.span.startColumn &&
        (a.ruleId < b.ruleId || (a.ruleId == b.ruleId &&
          (a.message < b.message || a.message == b.message))))))))

end Finding

end ModelLint
