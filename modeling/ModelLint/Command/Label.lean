import ModelLint.Command.Markup
import ModelLint.Number.Decimal
import ModelLint.Program.Graph

/-!
# Labels of nodes

A node is shown on one line: its kind, its details cut to sixty characters, and its place. In
markup the kind is bold and the place dim, and the details are escaped so that nothing in them is
taken for a tag.
-/

namespace ModelLint

namespace Label

/-- The greatest length of the details. -/
def maxLength : Nat := 60

/-- What a mention shows of its variable. -/
def variableText (g : Graph) (v : VariableId) : String :=
  let var := g.variable' v
  let type := match var.typeName with
    | none | some "" => ""
    | some type => ": " ++ type
  "<" ++ var.kind.name ++ " " ++ var.name ++ type ++ ">"

/-- The details of a node. -/
def details (g : Graph) (n : NodeId) : List String :=
  let ofVariable? (v : Option VariableId) := (v.map (variableText g)).toList
  match g.shape n with
  | .declaration info _ _ _ =>
    (info.kind.name ++ " " ++ info.name) ::
      if info.modifiers = [] then [] else ["[" ++ String.intercalate ", " info.modifiers ++ "]"]
  | .catchClause _ var _ => ofVariable? var
  | .varDeclaration var _ => ofVariable? (some var)
  | .loopStatement kind _ _ _ => [kind]
  | .varAccess name var => name :: ofVariable? var
  | .fieldAccess name _ var => name :: ofVariable? var
  | .methodCall name _ _ _ => [name]
  | .objectCreation typeName _ => [typeName]
  | .assignment operator _ _ => [operator]
  | .compound operator _ => [operator]
  | _ => []

/-- The details on one line, cut to the greatest length. -/
def text (g : Graph) (n : NodeId) : String :=
  let label := String.intercalate " " (details g n)
  if label.length > maxLength then
    String.ofList (label.toList.take (maxLength - 3)) ++ "..."
  else label

/-- The place of a node, if it can be written. -/
def place? (g : Graph) (n : NodeId) : Option String := do
  return (← Decimal.text? (g.location n).line) ++ ":" ++ (← Decimal.text? (g.location n).column)

/-- The line of a node in markup, if its place can be written. -/
def markup? (g : Graph) (n : NodeId) : Option String := do
  return "[bold]" ++ (g.shape n).kindName ++ "[/] " ++ Markup.escape (text g n) ++ " [dim]" ++
    (← place? g n) ++ "[/]"

end Label

end ModelLint
