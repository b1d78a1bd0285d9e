import ModelLint.Command.Label
import ModelLint.Program.Link

/-!
# Outlines

The outline of a unit shows its nodes below its name and language, a node a line, with guides that
lead from each node to its children. A label of several lines goes on under its first line. What shows
markup is a parameter: it gives the plain text, or nothing if the markup is wrong.
-/

namespace ModelLint.Outline

/-- The guide of a node that others follow. -/
def fork : String := "├── "

/-- The guide of a last node. -/
def corner : String := "└── "

/-- The guide beside what is below a node that others follow. -/
def trunk : String := "│   "

/-- The guide beside what is below a last node. -/
def gap : String := "    "

/-- The characters that no line shows. -/
def isHidden (c : Char) : Bool :=
  c = '\x07' || c = '\x08' || c = '\x0b' || c = '\x0c' || c = '\r'

/-- A line with blanks for its tabulators, which lead to the next multiple of eight; the line so far
is `before` long. -/
def expandTabs (before : Nat) : List Char → List Char
  | [] => []
  | '\t' :: cs =>
    let width := 8 - before % 8
    List.replicate width ' ' ++ expandTabs (before + width) cs
  | c :: cs => c :: expandTabs (before + 1) cs

/-- The lines that a label is shown on. -/
def shown (label : String) : List String :=
  ((label.toList.filter fun c => !isHidden c).splitOn '\n').map fun line =>
    String.ofList (expandTabs 0 line)

/-- Puts guides in front of lines: one before the first, another before the rest. -/
def guided (first later : String) : List String → List String
  | [] => []
  | line :: lines => (first ++ line) :: lines.map (later ++ ·)

/-- Marks the last of a list. -/
def markLast {α : Type} : List α → List (α × Bool)
  | [] => []
  | [a] => [(a, true)]
  | a :: rest => (a, false) :: markLast rest

section Showing

variable (plain : String → Option String)

/-- The lines of nodes and of what is below them, down to a depth, behind a lead; none if a label
cannot be shown. -/
def linesTo (g : Graph) : Nat → String → List NodeId → Option (List String)
  | 0, _, _ => some []
  | depth + 1, lead, nodes => do
    let parts ← (markLast nodes).mapM fun (n, isLast) => do
      let label ← plain (← Label.markup? g n)
      let below := lead ++ if isLast then gap else trunk
      let head := guided (lead ++ if isLast then corner else fork) below (shown label)
      return head ++ (← linesTo g depth below (g.children n))
    return parts.flatten

/-- The outline of a unit; none if a label cannot be shown. -/
def ofModel? (m : Model) : Option String := do
  let info := m.info
  let title ← plain ("[bold cyan]" ++ info.path.name ++ "[/] (" ++ info.language ++ ")")
  let lines ← linesTo plain m.graph (m.graph.nodes.size + 1) "" (m.graph.children m.root)
  return String.join ((shown title ++ lines).map (· ++ "\n"))

end Showing

end ModelLint.Outline
