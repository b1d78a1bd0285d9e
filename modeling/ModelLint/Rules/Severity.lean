import ModelLint.Data.Value
import ModelLint.Text.Blank
import ModelLint.Text.Case

/-!
# Severities

The three severities of findings, from least to most severe, with their names and ranks. A
severity is read from the text of a value, ignoring case and the blanks around it.
-/

namespace ModelLint

/-- How severe a finding is. -/
inductive Severity where
  /-- Worth knowing. -/
  | informational
  /-- Likely a fault. -/
  | warning
  /-- A fault. -/
  | error
deriving DecidableEq, Inhabited

namespace Severity

/-- All severities, from least to most severe. -/
def all : List Severity := [informational, warning, error]

/-- The name. -/
def name : Severity → String
  | informational => "informational"
  | warning => "warning"
  | error => "error"

/-- The place in the order of severities. -/
def rank : Severity → Nat
  | informational => 0
  | warning => 1
  | error => 2

/-- The level in a log. -/
def level : Severity → String
  | informational => "note"
  | warning => "warning"
  | error => "error"

/-- The severity of a name. -/
def ofName? (text : String) : Option Severity :=
  let name := Text.lower (Text.trimmed text)
  all.find? fun s => s.name == name

/-- The severity that a value names. -/
def ofValue? (v : Value) : Option Severity := ofName? v.display

/-- The message for a value that names no severity. -/
def unknownMessage (v : Value) : String :=
  "Unknown severity '" ++ v.display ++ "' (expected one of: " ++
    String.intercalate ", " (all.map name) ++ ")"

end Severity

end ModelLint
