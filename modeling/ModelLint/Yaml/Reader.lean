import ModelLint.Yaml.Node
import ModelLint.Yaml.Plain

/-!
# Reading YAML

`Yaml.read?` reads the value of the only document of a text; a text without a document is the
absent value. Keys are scalars, and of two entries with one key the last wins, at the place of the
first. The entries of a mapping that a merge key takes over stand in front of its own.
-/

namespace ModelLint.Yaml

/-- The name of a core type of YAML. -/
def coreTag (name : String) : String := "tag:yaml.org,2002:" ++ name

namespace Node

/-- Whether a node has no type given or the given core type. -/
def hasTag (tag : Option String) (name : String) : Bool :=
  tag = none || tag = some "!" || tag = some (coreTag name)

/-- What a plain scalar of a type denotes. -/
def typed? (tag text : String) : Option Value :=
  match Plain.ofText text with
  | .value v =>
    if tag = coreTag "str" then some (.str text)
    else
      let name := match v with
        | .null => "null"
        | .bool _ => "bool"
        | .int _ => "int"
        | .float _ => "float"
        | _ => ""
      if name ≠ "" ∧ tag = coreTag name then some v else none
  | _ => if tag = coreTag "str" then some (.str text) else none

/-- The value of a scalar. -/
def scalarValue? (tag : Option String) (text : String) (isPlain : Bool) : Option Value :=
  match tag, isPlain with
  | none, false => some (.str text)
  | none, true | some "!", _ =>
    match Plain.ofText text with
    | .value v => some v
    | _ => none
  | some tag, _ => typed? tag text

/-- What a plain scalar without type denotes, if the node is one. -/
def plain? : Node → Option Plain
  | scalar none text true => some (Plain.ofText text)
  | _ => none

/-- The entries that a merge key takes over from a value: those of a mapping, or those of a list of
mappings, of which earlier ones win. -/
def mergedEntries? : Value → Option (List (Value × Value))
  | .map entries => some entries
  | .list items => do
    let parts ← items.mapM fun
      | .map entries => some entries
      | _ => none
    return parts.reverse.flatten
  | _ => none

/-- Whether a value can be a key. -/
def isKey : Value → Bool
  | .list _ | .map _ | .set _ => false
  | _ => true

mutual

/-- The value of a node. -/
def value? : Node → Option Value
  | scalar tag text isPlain => scalarValue? tag text isPlain
  | sequence tag items =>
    if hasTag tag "seq" then (values? items).map .list else none
  | mapping tag entries =>
    if hasTag tag "map" then
      (entries? entries).map fun (merged, own) =>
        .map ((merged ++ own).foldl (fun es (k, v) => Value.insert k v es) [])
    else none

/-- The values of nodes. -/
def values? : List Node → Option (List Value)
  | [] => some []
  | n :: rest => do return (← value? n) :: (← values? rest)

/-- The entries that a mapping takes over, and its own. -/
def entries? : List (Node × Node) → Option (List (Value × Value) × List (Value × Value))
  | [] => some ([], [])
  | (k, n) :: rest => do
    let v ← value? n
    let (merged, own) ← entries? rest
    match plain? k with
    | some .merge => return ((← mergedEntries? v) ++ merged, own)
    | some .default => return (merged, (.str "=", v) :: own)
    | _ =>
      let key ← value? k
      if isKey key then return (merged, (key, v) :: own) else none

end

end Node

/-- The value of a text. -/
def read? (text : String) : Option Value := do
  match ← Node.ofTokens? (← Token.ofText? text) with
  | none => return .null
  | some n => n.value?

end ModelLint.Yaml
