import ModelLint.Document.Basic
import ModelLint.Text.Digit

/-!
# Loading documents

`Document.load` builds the linked unit that a document describes. There is a converter for each
kind of node; converters of nested nodes are reached through `Converters`, one level of nesting at
a time, so that the depth of the document bounds the recursion.

A scope lasts for the list of statements it was opened for, hence a name resolves to a variable
that is declared around the mention, or before it in a list of statements around it.
-/

namespace ModelLint.Document

/-- The converters one level of nesting below. -/
structure Converters where
  /-- Converts an expression. -/
  expression : Value → Location → Load Tree
  /-- Converts a statement. -/
  statement : Value → Location → Load Tree
  /-- Converts a declaration. -/
  declaration : Fields → Location → Load Tree

namespace Converters

variable (inner : Converters)

/-! ## Parts of nodes -/

/-- An expression in a field. -/
def expression? (fields : Fields) (key : String) (l : Location) : Load (Option Tree) :=
  match field? fields key with
  | none => return none
  | some v => return some (← inner.expression v l)

/-- An expression in a required field. -/
def required (fields : Fields) (key : String) (l : Location) : Load Tree := do
  inner.expression (← require fields key) l

/-- The arguments of a call. -/
def arguments (fields : Fields) (l : Location) : Load (List Tree) := do
  (← items fields "args").mapM fun v => inner.expression v l

/-- The statements in a field, with a scope of their own. -/
def statements (fields : Fields) (key : String) (l : Location) (scope : Scope) :
    Load (List Tree) :=
  withScope scope do (← items fields key).mapM fun v => inner.statement v l

/-- The statements in a field as a block. -/
def block (fields : Fields) (key : String) (l : Location) : Load Tree := do
  return .node l (.block (← inner.statements fields key l []))

/-- A block in a field that need not be there. -/
def block? (fields : Fields) (key : String) (l : Location) : Load (Option Tree) :=
  match field? fields key with
  | none => return none
  | some _ => return some (← inner.block fields key l)

/-- A scope in which the last of several variables with one name is seen. -/
def scopeOf (parameters : Scope) : Scope := parameters.reverse

/-- An anonymous function: a value to return, or statements. -/
def function (fields : Fields) (l : Location) : Load Tree := do
  let parameters ← Document.parameters fields
  let body ← match field? fields "value" with
    | some v =>
      let value ← withScope (scopeOf parameters) (inner.expression v l)
      pure [Tree.node l (.returnStatement (some value))]
    | none => inner.statements fields "body" l (scopeOf parameters)
  let modifiers ← modifiers fields
  let isAsync := ((Value.lookup fields "async").any Value.isTruthy) || modifiers.contains "async"
  return .node l (.lambda (parameters.map (·.2)) isAsync body)

/-! ## Expressions -/

/-- A mention of a variable. -/
def variableAccess (fields : Fields) (l : Location) : Load Tree := do
  let name ← requireText fields "name"
  match ← resolve name with
  | none => reject fields (.undeclared name)
  | some v => return .node l (.varAccess name (some v))

/-- A mention of a member; without target it is one of the innermost type. -/
def memberAccess (fields : Fields) (l : Location) : Load Tree := do
  let name ← requireText fields "name"
  match field? fields "target" with
  | some target => return .node l (.fieldAccess name (some (← inner.expression target l)) none)
  | none =>
    let own := ((← read).fields.head?.bind fun fields => fields.lookup name)
    return .node l (.fieldAccess name none own)

/-- An expression; what is not a mapping is a literal. -/
def expressionNode (v : Value) (outer : Location) : Load Tree :=
  match v with
  | .map fields => do
    let kind ← kindOf fields
    let l ← locate fields outer
    match kind with
    | some "call" =>
      let qualifier ← inner.expression? fields "target" l
      let name ← requireText fields "name"
      let declaringType ← text? fields "type"
      return .node l (.methodCall name declaringType qualifier (← inner.arguments fields l))
    | some "new" =>
      let typeName ← requireText fields "type"
      return .node l (.objectCreation typeName (← inner.arguments fields l))
    | some "var" => variableAccess fields l
    | some "field" => inner.memberAccess fields l
    | some "literal" =>
      return .node l (.literal (.data ((Value.lookup fields "value").getD .null)))
    | some "assign" =>
      let target ← inner.required fields "target" l
      let value ← inner.required fields "value" l
      let operator ← writtenField fields "op" "="
      return .node l (.assignment operator target value)
    | some "index" =>
      let target ← inner.required fields "target" l
      return .node l (.elementAccess target (← inner.expression? fields "index" l))
    | some "lambda" => inner.function fields l
    | some "compound" =>
      let operator ← writtenField fields "op" "?"
      let operands ← (← items fields "operands").mapM fun v => inner.expression v l
      return .node l (.compound operator operands)
    | kind => reject fields (.unknownKind "expression" (kind.getD "None"))
  | v => return .node outer (.literal (.data v))

/-! ## Statements -/

/-- The declaration of a local variable; its name is visible behind its initializer. -/
def localNode (fields : Fields) (l : Location) : Load Tree := do
  let name ← requireText fields "name"
  let typeName ← text? fields "type"
  let v ← newVariable name typeName .localVar false
  let initializer ← inner.expression? fields "value" l
  declare fields name v
  return .node l (.varDeclaration v initializer)

/-- A named function among statements; its name is visible inside it. -/
def localFunctionNode (fields : Fields) (l : Location) : Load Tree := do
  let name ← requireText fields "name"
  let v ← newVariable name (some "function") .localVar false
  declare fields name v
  return .node l (.varDeclaration v (some (← inner.function fields l)))

/-- The types that a handler catches. -/
def caughtTypes (fields : Fields) : Load (List String) :=
  match field? fields "types" with
  | some (.list types) => types.mapM written
  | some _ => reject fields (.notList "types")
  | none =>
    match Value.lookup fields "type" with
    | some type => if type.isTruthy then [type].mapM written else return []
    | none => return []

/-- A handler. -/
def catchNode (v : Value) (outer : Location) : Load Tree := do
  let fields ← mapping "catch" v
  let l ← locate fields outer
  let types ← caughtTypes fields
  let var ← match Value.lookup fields "variable" with
    | some name =>
      if name.isTruthy then
        let name ← written name
        pure (some (name, ← newVariable name types.head? .localVar false))
      else pure none
    | none => pure none
  let statements ← inner.statements fields "body" l var.toList
  return .node l (.catchClause types (var.map (·.2)) (.node l (.block statements)))

/-- A resource of a scoped acquisition: a local variable or an expression. -/
def resourceNode (v : Value) (outer : Location) : Load Tree := do
  let fields ← mapping "resource" v
  if (Value.lookup fields "kind").any (Value.isText "local") then
    inner.localNode fields (← locate fields outer)
  else inner.expression v outer

/-- A scoped acquisition; with a body its resources have a scope of their own. -/
def usingNode (fields : Fields) (l : Location) : Load Tree := do
  let resources : Load (List Tree) := do
    (← items fields "resources").mapM fun v => inner.resourceNode v l
  match field? fields "body" with
  | none => return .node l (.usingStatement (← resources) none)
  | some _ => withScope [] do
    let resources ← resources
    return .node l (.usingStatement resources (some (← inner.block fields "body" l)))

/-- A loop, with a scope for the variables of its header. -/
def loopNode (kind : String) (fields : Fields) (l : Location) : Load Tree := do
  let name ← writtenField fields "loop" (if kind = "loop" then "while" else kind)
  withScope [] do
    let declarations ← (← items fields "declare").mapM fun v => do
      let declared ← mapping "loop variable" v
      inner.localNode declared (← locate declared l)
    let header ← (← items fields "header").mapM fun v => inner.expression v l
    let body ← inner.block fields "body" l
    return .node l (.loopStatement name declarations header body)

/-- The kinds of loops. -/
def loopKinds : List String := ["loop", "for", "foreach", "while", "do"]

/-- A statement. -/
def statementNode (v : Value) (outer : Location) : Load Tree := do
  let fields ← mapping "statement" v
  let kind ← kindOf fields
  let l ← locate fields outer
  match kind with
  | some "block" => inner.block fields "statements" l
  | some "try" =>
    let body ← inner.block fields "body" l
    let catches ← (← items fields "catches").mapM fun v => inner.catchNode v l
    return .node l (.tryStatement body catches (← inner.block? fields "finally" l))
  | some "catch" => reject fields .strayCatch
  | some "throw" => return .node l (.throwStatement (← inner.expression? fields "value" l))
  | some "return" => return .node l (.returnStatement (← inner.expression? fields "value" l))
  | some "local" => inner.localNode fields l
  | some "local_function" => inner.localFunctionNode fields l
  | some "lock" =>
    let target ← inner.required fields "target" l
    return .node l (.lockStatement target (← inner.block fields "body" l))
  | some "using" => inner.usingNode fields l
  | some "expr" => return .node l (.exprStatement (← inner.required fields "expression" l))
  | some "if" =>
    let condition ← inner.required fields "condition" l
    let thenBranch ← inner.block fields "then" l
    return .node l (.ifStatement condition thenBranch (← inner.block? fields "else" l))
  | some kind =>
    if loopKinds.contains kind then inner.loopNode kind fields l
    else reject fields (.unknownKind "statement" kind)
  | none => reject fields (.unknownKind "statement" "None")

/-! ## Declarations -/

/-- The kinds of types. -/
def typeKinds : List String := ["class", "type", "struct", "interface", "record", "module"]

/-- The kinds of methods. -/
def methodKinds : List String := ["method", "constructor", "function"]

/-- The kinds of fields. -/
def fieldKinds : List String := ["field", "property"]

/-- Whether a member is a field. -/
def isField (member : Fields) : Load Bool := do return (← kindOf member).any fieldKinds.contains

/-- The name of a declaration with the types around it. -/
def qualified (name : String) : Load String := do
  return String.intercalate "." ((← read).types.reverse ++ [name])

/-- The variables of the fields among the members of a type. -/
def fieldScope : List Fields → Scope → Load Scope
  | [], scope => return scope
  | member :: rest, scope => do
    if ← isField member then
      let name ← requireText member "name"
      if (scope.lookup name).isSome then reject member (.fieldTwice name)
      let modifiers ← modifiers member
      let isStatic := modifiers.contains "static" || modifiers.contains "const"
      let typeName ← text? member "type"
      let v ← newVariable name typeName .field isStatic
      fieldScope rest (scope ++ [(name, v)])
    else fieldScope rest scope

/-- A field of a type. -/
def fieldNode (member : Fields) (l : Location) : Load Tree := do
  let name ← requireText member "name"
  let var := (← read).fields.head?.bind fun fields => fields.lookup name
  let qualifiedName ← qualified name
  let modifiers ← modifiers member
  let initializer ← match (Value.lookup member "initializer").or (Value.lookup member "value") with
    | none | some .null => pure none
    | some v => pure (some (← inner.expression v l))
  return .node l (.declaration
    { name, kind := .field, qualifiedName, modifiers, parameters := [], var,
      isDisposable := false } [] initializer [])

/-- A member of a type at the given location. -/
def memberNode (member : Fields) (outer : Location) : Load Tree := do
  let l ← locate member outer
  if ← isField member then inner.fieldNode member l else inner.declaration member outer

/-- A type. -/
def typeNode (fields : Fields) (l : Location) : Load Tree := do
  let name ← requireText fields "name"
  let members ← (← items fields "members").mapM (mapping "member")
  let scope ← fieldScope members []
  let inside (s : Surroundings) : Surroundings :=
    { s with types := name :: s.types, fields := scope :: s.fields }
  let members ← withReader inside (members.mapM fun member => inner.memberNode member l)
  let qualifiedName ← qualified name
  let modifiers ← modifiers fields
  return .node l (.declaration
    { name, kind := .type, qualifiedName, modifiers, parameters := [], var := none,
      isDisposable := (Value.lookup fields "disposable").any Value.isTruthy } members none [])

/-- The name of a method; a constructor without one is named like its type. -/
def methodName (fields : Fields) : Load String := do
  match Value.lookup fields "name" with
  | some v => if v.isTruthy then return ← written v
  | none => pure ()
  let isConstructor := (Value.lookup fields "kind").any (Value.isText "constructor")
  match (← read).types.head? with
  | some type => if isConstructor ∧ type ≠ "" then return type
  | none => pure ()
  requireText fields "name"

/-- A method. -/
def methodNode (fields : Fields) (l : Location) : Load Tree := do
  let name ← methodName fields
  let parameters ← Document.parameters fields
  let body ← inner.statements fields "body" l (scopeOf parameters)
  let qualifiedName ← qualified name
  let modifiers ← modifiers fields
  return .node l (.declaration
    { name, kind := .method, qualifiedName, modifiers, parameters := parameters.map (·.2),
      var := none, isDisposable := false } [] none body)

/-- A declaration. -/
def declarationNode (fields : Fields) (outer : Location) : Load Tree := do
  let kind ← kindOf fields
  let l ← locate fields outer
  match kind with
  | none => reject fields (.unknownKind "declaration" "None")
  | some kind =>
    if typeKinds.contains kind then inner.typeNode fields l
    else if methodKinds.contains kind then inner.methodNode fields l
    else if fieldKinds.contains kind then
      let name ← written ((Value.lookup fields "name").getD .null)
      reject fields (.fieldOutsideType kind name)
    else reject fields (.unknownKind "declaration" kind)

end Converters

/-- The converters for documents of at most the given depth. -/
def converters : Nat → Converters
  | 0 =>
    { expression := fun _ _ => reject [] .nesting
      statement := fun _ _ => reject [] .nesting
      declaration := fun _ _ => reject [] .nesting }
  | depth + 1 =>
    let inner := converters depth
    { expression := inner.expressionNode
      statement := inner.statementNode
      declaration := inner.declarationNode }

/-! ## The unit -/

/-- Sets the comment of a line. -/
def setComment (line : Int) (text : String) : List (Int × String) → List (Int × String)
  | [] => [(line, text)]
  | (l, t) :: rest => if l = line then (l, text) :: rest else (l, t) :: setComment line text rest

/-- The line that a key gives. -/
def commentLine? : Value → Option Int
  | .int n => some n
  | .bool b => some (if b then 1 else 0)
  | .float bits =>
    if Double.isNaN bits || Double.isInfinite bits then none
    else
      let (m, q) := Double.significand bits
      let power := Nat.pow 2 q.natAbs
      let n : Int := Int.ofNat (if q < 0 then m / power else m * power)
      some (if Double.isNegative bits then -n else n)
  | .str s => Text.integer? s
  | _ => none

/-- Adds a comment to those of a document. -/
def addComment (fields : Fields) (comments : List (Int × String)) (entry : Value × Value) :
    Load (List (Int × String)) := do
  match if entry.2.isWritable then commentLine? entry.1 else none with
  | some line => return setComment line entry.2.display comments
  | none => reject fields (.commentLine (← written entry.1))

/-- The comments of a document. -/
def comments (fields : Fields) : Load (List (Int × String)) :=
  match (Value.lookup fields "comments").getD .null with
  | .map entries => entries.foldlM (addComment fields) []
  | v => if v.isTruthy then reject fields .commentsNotMapping else return []

/-- The types that a document knows to be resources, as it gives them. -/
def disposableTypes (fields : Fields) : Load (List Value) :=
  match (Value.lookup fields "disposable_types").getD .null with
  | .list types => return types
  | v => if v.isTruthy then reject fields (.notList "disposable_types") else return []

/-- The unit of a document of at most the given depth. -/
def unitNode (depth : Nat) (fields : Fields) : Load Tree := do
  let comments ← comments fields
  let disposableTypes ← disposableTypes fields
  let l : Location := { line := 1, column := 1, endLine := none, endColumn := none }
  let declarations ← (← items fields "declarations").mapM fun v => do
    (converters depth).declaration (← mapping "declaration" v) l
  let language ← writtenField fields "language" "unknown"
  let disposableTypes := NameSet.ofList (← disposableTypes.mapM written)
  return .node l (.sourceUnit { path := (← read).path, language, comments, disposableTypes }
    declarations)

/-- The path of a document: its own, or the one from outside. -/
def pathOf (fields : Fields) (path : Option Path) : Except LoadError Path :=
  match field? fields "path", path with
  | none, none => .error .noPath
  | none, some path => .ok path
  | some (.str text), _ => .ok (Path.ofString text)
  | some _, path => .error (.pathNotText path)

/-- The tree of a document with its variables. -/
def tree (fields : Fields) (path : Path) : Except LoadError (Tree × Array Variable) := do
  let depth := (Value.map fields).depth + 1
  let (tree, progress) ←
    ((unitNode depth fields).run { path, types := [], fields := [] }).run
      { vars := #[], scopes := [] }
  return (tree, progress.vars)

/-- The linked unit of a document; a path from outside is used where the document has none. -/
def load (document : Value) (path : Option Path) : Except LoadError Model :=
  match document with
  | .map fields => do
    let path ← pathOf fields path
    let (tree, vars) ← tree fields path
    match Model.ofTree vars tree with
    | .ok model => return model
    | .error failure => throw (.link path failure)
  | _ => .error (.documentNotMapping path)

end ModelLint.Document
