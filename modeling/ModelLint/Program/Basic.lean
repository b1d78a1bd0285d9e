import ModelLint.Data.NameSet
import ModelLint.Data.Value
import ModelLint.Text.Path

/-!
# The parts of a program model

A program model describes one source file in terms shared by many languages: declarations,
statements and expressions, and the variables they declare and mention.

A node is a `Location` and a `Shape`. A shape says what kind of node it is and holds its own data;
its type parameter stands for the reference to a child. With `ν := Nat` a shape is a row of a
store, with `ν := Tree` it is the top of a tree. `Shape.slots` lists the children by the role they
play, in document order, and everything else about children is derived from it.
-/

namespace ModelLint

/-! ## Locations and variables -/

/-- Where a node stands. The end is not always known. -/
structure Location where
  /-- The first line; lines count from one. -/
  line : Int
  /-- The first column. -/
  column : Int
  /-- The last line. -/
  endLine : Option Int
  /-- The column behind the last character. -/
  endColumn : Option Int
deriving DecidableEq, Inhabited

/-- What a variable is a slot of. -/
inductive VariableKind where
  /-- A function or block. -/
  | localVar
  /-- A parameter list. -/
  | parameter
  /-- A type. -/
  | field
deriving DecidableEq, Inhabited

/-- The name of a kind of variable. -/
def VariableKind.name : VariableKind → String
  | .localVar => "local"
  | .parameter => "parameter"
  | .field => "field"

/-- A variable is known by its position in the table of variables. -/
abbrev VariableId := Nat

/-- A node is known by its position in the store of nodes. -/
abbrev NodeId := Nat

/-- A named slot, declared once in a unit. -/
structure Variable where
  /-- The name. -/
  name : String
  /-- The declared or inferred type. -/
  typeName : Option String
  /-- What it is a slot of. -/
  kind : VariableKind
  /-- Whether all instances of a type share it. -/
  isStatic : Bool
  /-- The node that owns it, once the unit is linked. -/
  scope : Option NodeId
deriving DecidableEq, Inhabited

/-- Whether the variable is a slot of a type. -/
def Variable.isField (v : Variable) : Bool := v.kind = .field

/-! ## Shapes -/

/-- What a declaration declares. -/
inductive DeclarationKind where
  /-- A type or a module. -/
  | type
  /-- A method, constructor or function. -/
  | method
  /-- A field. -/
  | field
deriving DecidableEq, Inhabited

/-- The name of a kind of declaration. -/
def DeclarationKind.name : DeclarationKind → String
  | .type => "type"
  | .method => "method"
  | .field => "field"

/-- The value of a literal. -/
inductive Constant where
  /-- A value that documents have too. -/
  | data (v : Value)
  /-- An imaginary number, by the bits of its factor. -/
  | imaginary (bits : UInt64)
  /-- A sequence of bytes. -/
  | bytes (bytes : List UInt8)
  /-- The ellipsis. -/
  | ellipsis
deriving Inhabited

/-- What a unit says about its file. -/
structure UnitInfo where
  /-- The file. -/
  path : Path
  /-- The language of the file. -/
  language : String
  /-- The comments by line. -/
  comments : List (Int × String)
  /-- Types that are known to be resources. -/
  disposableTypes : NameSet
deriving Inhabited

/-- What a declaration says besides its children. -/
structure DeclarationInfo where
  /-- The name. -/
  name : String
  /-- What is declared. -/
  kind : DeclarationKind
  /-- The name with those of the declarations around it. -/
  qualifiedName : String
  /-- The modifiers. -/
  modifiers : NameSet
  /-- The parameters of a method. -/
  parameters : List VariableId
  /-- The variable of a field. -/
  var : Option VariableId
  /-- Whether a type is a resource. -/
  isDisposable : Bool
deriving Inhabited

/-- Whether a method runs concurrently with its caller. -/
def DeclarationInfo.isAsync (d : DeclarationInfo) : Bool := d.modifiers.contains "async"

/-- Whether a declaration belongs to the type and not to its instances. -/
def DeclarationInfo.isStatic (d : DeclarationInfo) : Bool := d.modifiers.contains "static"

/-- What kind a node is of, with its own data and its children. -/
inductive Shape (ν : Type) where
  /-- One file. -/
  | sourceUnit (info : UnitInfo) (declarations : List ν)
  /-- A type, a method or a field. -/
  | declaration (info : DeclarationInfo) (members : List ν) (initializer : Option ν)
      (body : List ν)
  /-- A sequence of statements. -/
  | block (statements : List ν)
  /-- A handler; without types it catches everything. -/
  | catchClause (types : List String) (var : Option VariableId) (body : ν)
  /-- A guarded block with its handlers. -/
  | tryStatement (body : ν) (catches : List ν) (finallyBlock : Option ν)
  /-- A throw; without operand the current exception is thrown again. -/
  | throwStatement (operand : Option ν)
  /-- A return. -/
  | returnStatement (value : Option ν)
  /-- The declaration of a local variable. -/
  | varDeclaration (var : VariableId) (initializer : Option ν)
  /-- A region of mutual exclusion. -/
  | lockStatement (target body : ν)
  /-- A scoped acquisition; without body it lasts to the end of the block around it. -/
  | usingStatement (resources : List ν) (body : Option ν)
  /-- An expression as a statement. -/
  | exprStatement (expression : ν)
  /-- A choice. -/
  | ifStatement (condition thenBranch : ν) (elseBranch : Option ν)
  /-- A loop with the variables and expressions of its header. -/
  | loopStatement (kind : String) (declarations header : List ν) (body : ν)
  /-- A mention of a variable. -/
  | varAccess (name : String) (var : Option VariableId)
  /-- A mention of a member; without qualifier it is one of the type around it. -/
  | fieldAccess (name : String) (qualifier : Option ν) (var : Option VariableId)
  /-- A call. -/
  | methodCall (name : String) (declaringType : Option String) (qualifier : Option ν)
      (arguments : List ν)
  /-- The creation of an object. -/
  | objectCreation (typeName : String) (arguments : List ν)
  /-- A literal. -/
  | literal (value : Constant)
  /-- An assignment. -/
  | assignment (operator : String) (target value : ν)
  /-- A read or write through an indexer. -/
  | elementAccess (target : ν) (index : Option ν)
  /-- An anonymous function. -/
  | lambda (parameters : List VariableId) (isAsync : Bool) (body : List ν)
  /-- Any other operator with its operands. -/
  | compound (operator : String) (operands : List ν)
deriving Inhabited

namespace Shape

variable {ν μ : Type}

/-- The children by role, in document order. -/
def slots : Shape ν → List (String × List ν)
  | sourceUnit _ declarations => [("declarations", declarations)]
  | declaration _ members initializer body =>
    [("members", members), ("initializer", initializer.toList), ("body", body)]
  | block statements => [("statements", statements)]
  | catchClause _ _ body => [("body", [body])]
  | tryStatement body catches finallyBlock =>
    [("body", [body]), ("catches", catches), ("finally_block", finallyBlock.toList)]
  | throwStatement operand => [("operand", operand.toList)]
  | returnStatement value => [("value", value.toList)]
  | varDeclaration _ initializer => [("initializer", initializer.toList)]
  | lockStatement target body => [("target", [target]), ("body", [body])]
  | usingStatement resources body => [("resources", resources), ("body", body.toList)]
  | exprStatement expression => [("expression", [expression])]
  | ifStatement condition thenBranch elseBranch =>
    [("condition", [condition]), ("then_branch", [thenBranch]),
      ("else_branch", elseBranch.toList)]
  | loopStatement _ declarations header body =>
    [("declarations", declarations), ("header", header), ("body", [body])]
  | varAccess _ _ => []
  | fieldAccess _ qualifier _ => [("qualifier", qualifier.toList)]
  | methodCall _ _ qualifier arguments =>
    [("qualifier", qualifier.toList), ("arguments", arguments)]
  | objectCreation _ arguments => [("arguments", arguments)]
  | literal _ => []
  | assignment _ target value => [("target", [target]), ("value", [value])]
  | elementAccess target index => [("target", [target]), ("index", index.toList)]
  | lambda _ _ body => [("body", body)]
  | compound _ operands => [("operands", operands)]

/-- The children in document order. -/
def children (s : Shape ν) : List ν := s.slots.flatMap (·.2)

/-- The children with their roles. -/
def roles (s : Shape ν) : List (String × ν) :=
  s.slots.flatMap fun (role, nodes) => nodes.map fun n => (role, n)

/-- Visits the children in document order and puts the results in their places. -/
def traverse {m : Type → Type} [Monad m] (f : ν → m μ) : Shape ν → m (Shape μ)
  | sourceUnit info declarations => do return sourceUnit info (← declarations.mapM f)
  | declaration info members initializer body => do
    return declaration info (← members.mapM f) (← initializer.mapM f) (← body.mapM f)
  | block statements => do return block (← statements.mapM f)
  | catchClause types var body => do return catchClause types var (← f body)
  | tryStatement body catches finallyBlock => do
    return tryStatement (← f body) (← catches.mapM f) (← finallyBlock.mapM f)
  | throwStatement operand => do return throwStatement (← operand.mapM f)
  | returnStatement value => do return returnStatement (← value.mapM f)
  | varDeclaration var initializer => do
    return varDeclaration var (← initializer.mapM f)
  | lockStatement target body => do return lockStatement (← f target) (← f body)
  | usingStatement resources body => do return usingStatement (← resources.mapM f) (← body.mapM f)
  | exprStatement expression => do return exprStatement (← f expression)
  | ifStatement condition thenBranch elseBranch => do
    return ifStatement (← f condition) (← f thenBranch) (← elseBranch.mapM f)
  | loopStatement kind declarations header body => do
    return loopStatement kind (← declarations.mapM f) (← header.mapM f) (← f body)
  | varAccess name var => return varAccess name var
  | fieldAccess name qualifier var => do
    return fieldAccess name (← qualifier.mapM f) var
  | methodCall name declaringType qualifier arguments => do
    return methodCall name declaringType (← qualifier.mapM f) (← arguments.mapM f)
  | objectCreation typeName arguments => do
    return objectCreation typeName (← arguments.mapM f)
  | literal value => return literal value
  | assignment operator target value => do
    return assignment operator (← f target) (← f value)
  | elementAccess target index => do return elementAccess (← f target) (← index.mapM f)
  | lambda parameters isAsync body => do return lambda parameters isAsync (← body.mapM f)
  | compound operator operands => do return compound operator (← operands.mapM f)

/-- The variables that a node introduces. -/
def introduced : Shape ν → List VariableId
  | varDeclaration var _ => [var]
  | declaration info _ _ _ => info.parameters ++ info.var.toList
  | catchClause _ var _ => var.toList
  | lambda parameters _ _ => parameters
  | _ => []

/-! ## Kinds -/

/-- The name of the kind of node. -/
def kindName : Shape ν → String
  | sourceUnit _ _ => "SourceUnit"
  | declaration _ _ _ _ => "Declaration"
  | block _ => "Block"
  | catchClause _ _ _ => "Catch"
  | tryStatement _ _ _ => "Try"
  | throwStatement _ => "Throw"
  | returnStatement _ => "Return"
  | varDeclaration _ _ => "VariableDeclaration"
  | lockStatement _ _ => "Lock"
  | usingStatement _ _ => "Using"
  | exprStatement _ => "ExpressionStatement"
  | ifStatement _ _ _ => "If"
  | loopStatement _ _ _ _ => "Loop"
  | varAccess _ _ => "VariableAccess"
  | fieldAccess _ _ _ => "FieldAccess"
  | methodCall _ _ _ _ => "MethodCall"
  | objectCreation _ _ => "ObjectCreation"
  | literal _ => "Literal"
  | assignment _ _ _ => "Assignment"
  | elementAccess _ _ => "ElementAccess"
  | lambda _ _ _ => "Lambda"
  | compound _ _ => "CompoundExpression"

/-- Whether the node is an expression. -/
def isExpression : Shape ν → Bool
  | varAccess _ _ | fieldAccess _ _ _ | methodCall _ _ _ _ | objectCreation _ _ | literal _
  | assignment _ _ _ | elementAccess _ _ | lambda _ _ _ | compound _ _ => true
  | _ => false

/-- Whether the node is a declaration or a unit. -/
def isOutermost : Shape ν → Bool
  | sourceUnit _ _ | declaration _ _ _ _ => true
  | _ => false

/-- Whether the node is a statement. -/
def isStatement (s : Shape ν) : Bool := !s.isExpression && !s.isOutermost

/-- Whether the node is of a kind, given by name; `Node`, `Statement` and `Expression` name
families of kinds. -/
def isA (s : Shape ν) (kind : String) : Bool :=
  s.kindName == kind || kind == "Node" || (kind == "Statement" && s.isStatement) ||
    (kind == "Expression" && s.isExpression)

end Shape

end ModelLint
