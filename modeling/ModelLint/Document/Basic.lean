import ModelLint.Program.Link
import ModelLint.Text.Blank

/-!
# Reading documents: errors, names and fields

A model document describes one file by nested mappings. This module holds what all converters
need: the causes of rejection with their messages, the names that are visible at a place, and the
access to the fields of a mapping with their checks.

Names are resolved lexically. `Surroundings` holds what a converter sees from outside, the types
around it and their fields, and `Progress` what it extends, the table of variables and the scopes.
-/

namespace ModelLint.Document

/-! ## Errors -/

/-- What is wrong at a place of a document. -/
inductive Reason where
  /-- Something that should be a mapping is of another kind. -/
  | notMapping (what kind : String)
  /-- A field should be a list. -/
  | notList (key : String)
  /-- The field `kind` is of another kind than a text. -/
  | kindNotText (kind : String)
  /-- A field should be a text. -/
  | notText (key : String)
  /-- A field is required. -/
  | missing (kind key : String)
  /-- A field should be an integer. -/
  | notInteger (key : String)
  /-- The comments should be a mapping. -/
  | commentsNotMapping
  /-- The line of a comment is no number. -/
  | commentLine (line : String)
  /-- The modifiers are neither a list nor a text. -/
  | badModifiers
  /-- A field is declared outside a type. -/
  | fieldOutsideType (kind name : String)
  /-- A field is declared twice. -/
  | fieldTwice (name : String)
  /-- A variable is declared twice in a scope. -/
  | variableTwice (name : String)
  /-- A variable is declared where no scope is open. -/
  | noScope (name : String)
  /-- A variable is mentioned that no scope holds. -/
  | undeclared (name : String)
  /-- A handler stands among statements. -/
  | strayCatch
  /-- A kind of node that does not exist; `family` says what was expected. -/
  | unknownKind (family kind : String)
  /-- A number would have to be written that has too many digits. -/
  | overlong
  /-- The document is nested more deeply than it is. -/
  | nesting

/-- What is wrong, in words. -/
def Reason.message : Reason → String
  | notMapping what kind => what ++ " must be a mapping, got " ++ kind
  | notList key => "'" ++ key ++ "' must be a list"
  | kindNotText kind => "'kind' must be a string, got " ++ kind
  | notText key => "'" ++ key ++ "' must be a string"
  | missing kind key => kind ++ " requires '" ++ key ++ "'"
  | notInteger key => "'" ++ key ++ "' must be an integer"
  | commentsNotMapping => "'comments' must map line numbers to text"
  | commentLine line => "invalid comment line '" ++ line ++ "'"
  | badModifiers => "'modifiers' must be a list or a string"
  | fieldOutsideType kind name => kind ++ " '" ++ name ++ "' declared outside a type"
  | fieldTwice name => "field '" ++ name ++ "' is declared twice"
  | variableTwice name => "variable '" ++ name ++ "' is already declared in this scope"
  | noScope name => "variable '" ++ name ++ "' is declared outside of all scopes"
  | undeclared name => "reference to undeclared variable '" ++ name ++ "'"
  | strayCatch => "catch clauses belong in a try statement's 'catches'"
  | unknownKind family kind => "unknown " ++ family ++ " kind '" ++ kind ++ "'"
  | overlong => "invalid model document: Exceeds the limit (4300 digits) for integer string " ++
      "conversion; use sys.set_int_max_str_digits() to increase the limit"
  | nesting => "invalid model document: nesting too deep"

/-- Why a document is rejected. -/
inductive LoadError where
  /-- The document is not a mapping. -/
  | documentNotMapping (path : Option Path)
  /-- Neither the document nor its surroundings name a path. -/
  | noPath
  /-- The path is not a text. -/
  | pathNotText (path : Option Path)
  /-- Something is wrong at a place; the line is the one that the document gives there. -/
  | at (path : Path) (line : Option String) (reason : Reason)
  /-- The unit cannot be linked. -/
  | link (path : Path) (failure : LinkFailure)

/-- What is wrong, with the place. -/
def LoadError.message : LoadError → String
  | documentNotMapping path => path.elim "None" Path.toString ++ ": model document must be a mapping"
  | noPath => "Model document has no 'path'"
  | pathNotText path => path.elim "None" Path.toString ++ ": 'path' must be a string"
  | .at path none reason => path.toString ++ ": " ++ reason.message
  | .at path (some line) reason => path.toString ++ ":" ++ line ++ ": " ++ reason.message
  | link path failure => failure.message path

/-! ## Names -/

/-- Variables by name, the latest first. -/
abbrev Scope := List (String × VariableId)

/-- What a converter sees from outside. -/
structure Surroundings where
  /-- The file. -/
  path : Path
  /-- The names of the types around, innermost first. -/
  types : List String
  /-- The fields of the types around, innermost first. -/
  fields : List Scope

/-- What a converter extends. -/
structure Progress where
  /-- The table of variables. -/
  vars : Array Variable
  /-- The scopes, innermost first. -/
  scopes : List Scope

/-- A converter. -/
abbrev Load := ReaderT Surroundings (StateT Progress (Except LoadError))

/-- A mapping of a document. -/
abbrev Fields := List (Value × Value)

/-- The line that messages give for a place. -/
def lineOf (fields : Fields) : Option Value := (Value.lookup fields "line").filter Value.isTruthy

/-- The rejection of a document at a place. If the line there cannot be written, this is what is
wrong. -/
def rejection (path : Path) (fields : Fields) (reason : Reason) : LoadError :=
  match lineOf fields with
  | none => .at path none reason
  | some line =>
    if line.isWritable then .at path (some line.display) reason else .at path none .overlong

/-- Rejects the document at a place. -/
def reject {α : Type} (fields : Fields) (reason : Reason) : Load α := do
  throw (rejection (← read).path fields reason)

/-- The text that a value is written as. -/
def written (v : Value) : Load String :=
  if v.isWritable then return v.display else reject [] .overlong

/-- A new variable. -/
def newVariable (name : String) (typeName : Option String) (kind : VariableKind)
    (isStatic : Bool) : Load VariableId := do
  let s ← get
  set { s with vars := s.vars.push { name, typeName, kind, isStatic, scope := none } }
  return s.vars.size

/-- Converts with one more scope. -/
def withScope {α : Type} (scope : Scope) (convert : Load α) : Load α := do
  modify fun s => { s with scopes := scope :: s.scopes }
  let result ← convert
  modify fun s => { s with scopes := s.scopes.tail }
  return result

/-- Adds a variable to the innermost scope, which must not hold its name yet. -/
def declare (fields : Fields) (name : String) (v : VariableId) : Load Unit := do
  match (← get).scopes with
  | [] => reject fields (.noScope name)
  | scope :: outer =>
    if (scope.lookup name).isSome then reject fields (.variableTwice name)
    set { (← get) with scopes := ((name, v) :: scope) :: outer }

/-- The variable of a name: in the scopes, innermost first, then among the fields of the types
around. -/
def resolve (name : String) : Load (Option VariableId) := do
  let s ← get
  let around ← read
  return (s.scopes ++ around.fields).findSome? fun scope => scope.lookup name

/-! ## Fields of mappings -/

/-- The field of a name, if it is there and not null. -/
def field? (fields : Fields) (key : String) : Option Value :=
  match Value.lookup fields key with
  | none | some .null => none
  | some v => some v

/-- The mapping that a value is. -/
def mapping (what : String) : Value → Load Fields
  | .map fields => return fields
  | v => reject [] (.notMapping what v.kindName)

/-- The items of a list field. -/
def items (fields : Fields) (key : String) : Load (List Value) :=
  match field? fields key with
  | none => return []
  | some (.list items) => return items
  | some _ => reject fields (.notList key)

/-- The kind of node that a mapping describes. -/
def kindOf (fields : Fields) : Load (Option String) :=
  match field? fields "kind" with
  | none => return none
  | some (.str kind) => return some kind
  | some v => reject fields (.kindNotText v.kindName)

/-- A text field. -/
def text? (fields : Fields) (key : String) : Load (Option String) :=
  match field? fields key with
  | none => return none
  | some (.str s) => return some s
  | some _ => reject fields (.notText key)

/-- What a field is written as, with a text for one that is not there. -/
def writtenField (fields : Fields) (key missing : String) : Load String :=
  match Value.lookup fields key with
  | none => return missing
  | some v => written v

/-- A required field. -/
def require (fields : Fields) (key : String) : Load Value := do
  match field? fields key with
  | some v => return v
  | none => reject fields (.missing (← writtenField fields "kind" "node") key)

/-- A required field as text. -/
def requireText (fields : Fields) (key : String) : Load String := do
  written (← require fields key)

/-- An integer field of a location. -/
def coordinate (fields : Fields) (key : String) : Load (Option Int) :=
  match field? fields key with
  | none => return none
  | some (.int n) => return some n
  | some _ => reject fields (.notInteger key)

/-- The location of a mapping: what it does not give is inherited, but a mapping that gives a line
and no last line does not inherit the end. -/
def locate (fields : Fields) (outer : Location) : Load Location := do
  let line ← coordinate fields "line"
  let column ← coordinate fields "column"
  let endLine ← coordinate fields "end_line"
  let endColumn ← coordinate fields "end_column"
  let location : Location :=
    { line := line.getD outer.line, column := column.getD outer.column,
      endLine := endLine.or outer.endLine, endColumn := endColumn.or outer.endColumn }
  if (Value.lookup fields "line").isSome && (Value.lookup fields "end_line").isNone then
    return { location with endLine := none, endColumn := none }
  else return location

/-- The modifiers of a mapping. -/
def modifiers (fields : Fields) : Load NameSet := do
  match (Value.lookup fields "modifiers").getD .null with
  | .str s => return NameSet.ofList (Text.blankSeparated s)
  | .list items => return NameSet.ofList (← items.mapM written)
  | v => if v.isTruthy then reject fields .badModifiers else return []

/-- The parameters of a mapping, with their names. -/
def parameters (fields : Fields) : Load Scope := do
  (← items fields "parameters").mapM fun raw => do
    let raw ← match raw with
      | .str name => pure [(Value.str "name", Value.str name)]
      | _ => mapping "parameter" raw
    let name ← requireText raw "name"
    let typeName ← text? raw "type"
    return (name, ← newVariable name typeName .parameter false)

end ModelLint.Document
