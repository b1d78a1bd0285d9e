import ModelLint.Program.Basic
import ModelLint.Source.Token

/-!
# Syntax of Python

Expressions and statements as the grammar builds them. Parentheses leave no trace; a node knows the
range of source it was read from. Operators, displays and all other expressions that are nothing
but a word with operands are one constructor, `Expr.compound`, with a `Form`. An expression holds
no statement, so that expressions are a type of their own.

What the model of a program does not show is kept only as far as something is read off it:
decorators, bases and annotations are, patterns of a `match` are not.
-/

namespace ModelLint.Source

/-- A stretch of source. -/
structure Range where
  /-- Where it starts. -/
  start : Position
  /-- Where it stops. -/
  stop : Position
deriving DecidableEq, Inhabited

/-! ## Operators -/

/-- An operator between two operands. -/
inductive BinaryOperator where
  /-- The sum. -/
  | add
  /-- The difference. -/
  | sub
  /-- The product. -/
  | mul
  /-- The product of matrices. -/
  | matMul
  /-- The quotient. -/
  | div
  /-- The quotient rounded down. -/
  | floorDiv
  /-- The remainder. -/
  | mod
  /-- The power. -/
  | pow
  /-- The shift to the left. -/
  | shiftLeft
  /-- The shift to the right. -/
  | shiftRight
  /-- The inclusive or of bits. -/
  | bitOr
  /-- The exclusive or of bits. -/
  | bitXor
  /-- The and of bits. -/
  | bitAnd
deriving DecidableEq, Inhabited

/-- The spelling of an operator. -/
def BinaryOperator.text : BinaryOperator → String
  | .add => "+"
  | .sub => "-"
  | .mul => "*"
  | .matMul => "@"
  | .div => "/"
  | .floorDiv => "//"
  | .mod => "%"
  | .pow => "**"
  | .shiftLeft => "<<"
  | .shiftRight => ">>"
  | .bitOr => "|"
  | .bitXor => "^"
  | .bitAnd => "&"

/-- All operators between two operands. -/
def BinaryOperator.all : List BinaryOperator :=
  [.add, .sub, .mul, .matMul, .div, .floorDiv, .mod, .pow, .shiftLeft, .shiftRight, .bitOr, .bitXor,
    .bitAnd]

/-- An operator before one operand. -/
inductive UnaryOperator where
  /-- The complement of bits. -/
  | invert
  /-- The opposite truth value. -/
  | negation
  /-- The number itself. -/
  | plus
  /-- The opposite number. -/
  | minus
deriving DecidableEq, Inhabited

/-- The spelling of an operator. -/
def UnaryOperator.text : UnaryOperator → String
  | .invert => "~"
  | .negation => "not"
  | .plus => "+"
  | .minus => "-"

/-- An operator between truth values. -/
inductive BooleanOperator where
  /-- Both hold. -/
  | both
  /-- One of them holds. -/
  | either
deriving DecidableEq, Inhabited

/-- The spelling of an operator. -/
def BooleanOperator.text : BooleanOperator → String
  | .both => "and"
  | .either => "or"

/-- A comparison. -/
inductive Comparison where
  /-- Equal values. -/
  | eq
  /-- Different values. -/
  | ne
  /-- A smaller value. -/
  | lt
  /-- A smaller or equal value. -/
  | le
  /-- A greater value. -/
  | gt
  /-- A greater or equal value. -/
  | ge
  /-- The same object. -/
  | same
  /-- Another object. -/
  | notSame
  /-- A member. -/
  | mem
  /-- No member. -/
  | notMem
deriving DecidableEq, Inhabited

/-- The spelling of a comparison. -/
def Comparison.text : Comparison → String
  | .eq => "=="
  | .ne => "!="
  | .lt => "<"
  | .le => "<="
  | .gt => ">"
  | .ge => ">="
  | .same => "is"
  | .notSame => "is not"
  | .mem => "in"
  | .notMem => "not in"

/-! ## Expressions -/

/-- How a value in a template is turned into text. -/
inductive Conversion where
  /-- As text for people. -/
  | display
  /-- As a literal. -/
  | literal
  /-- As a literal in the ASCII characters. -/
  | ascii
deriving DecidableEq, Inhabited

/-- The letter of a conversion. -/
def Conversion.letter : Conversion → Char
  | .display => 's'
  | .literal => 'r'
  | .ascii => 'a'

/-- What an expression does with its operands. -/
inductive Form where
  /-- An operator between two operands. -/
  | binary (op : BinaryOperator)
  /-- An operator before its operand. -/
  | unary (op : UnaryOperator)
  /-- Truth values, joined by one operator. -/
  | boolean (op : BooleanOperator)
  /-- A chain of comparisons, one fewer than there are operands. -/
  | comparison (ops : List Comparison)
  /-- A condition and the values for either case. -/
  | conditional
  /-- The elements of a set. -/
  | set
  /-- The elements of a list. -/
  | list
  /-- The elements of a tuple. -/
  | tuple
  /-- An operand that stands for its elements. -/
  | starred
  /-- The bounds and the step of a slice, as far as they are given. -/
  | slice (lower upper step : Bool)
  /-- An operand that is waited for. -/
  | await
  /-- A value that is handed out, or nothing. -/
  | yieldValue
  /-- Values that are handed out one by one. -/
  | yieldFrom
  /-- A value in a template, and the template of its format if there is one. -/
  | formatted (conversion : Option Conversion)
  /-- The texts and values of a template. -/
  | template
deriving DecidableEq, Inhabited

/-- The word for a form. -/
def Form.label : Form → String
  | .binary op => op.text
  | .unary op => op.text
  | .boolean op => op.text
  | .comparison ops => " ".intercalate (ops.map Comparison.text)
  | .conditional => "ifexp"
  | .set => "set"
  | .list => "list"
  | .tuple => "tuple"
  | .starred => "starred"
  | .slice _ _ _ => "slice"
  | .await => "await"
  | .yieldValue => "yield"
  | .yieldFrom => "yieldfrom"
  | .formatted _ => "formattedvalue"
  | .template => "joinedstr"

/-- What a parameter takes. -/
inductive ParameterKind where
  /-- An argument given by its place. -/
  | positionalOnly
  /-- An argument given by its place or name. -/
  | positional
  /-- The remaining arguments given by place. -/
  | variadic
  /-- An argument given by its name. -/
  | keywordOnly
  /-- The remaining arguments given by name. -/
  | keywords
deriving DecidableEq, Inhabited

/-- What a comprehension builds. -/
inductive ComprehensionKind where
  /-- A list. -/
  | list
  /-- A set. -/
  | set
  /-- A dictionary. -/
  | dict
  /-- The elements one by one. -/
  | generator
deriving DecidableEq, Inhabited

/-- The word for a comprehension. -/
def ComprehensionKind.label : ComprehensionKind → String
  | .list => "listcomp"
  | .set => "setcomp"
  | .dict => "dictcomp"
  | .generator => "generatorexp"

mutual

/-- An expression. -/
inductive Expr where
  /-- A name. -/
  | name (range : Range) (id : String)
  /-- A literal; a text may have the letter `u`. -/
  | constant (range : Range) (value : Constant) (hasLetter : Bool)
  /-- An attribute of a value. -/
  | attribute (range : Range) (value : Expr) (attr : String)
  /-- An element of a value. -/
  | subscript (range : Range) (value index : Expr)
  /-- A call. -/
  | call (range : Range) (function : Expr) (args : List Expr) (keywords : List Keyword)
  /-- An operator or a display with its operands. -/
  | compound (range : Range) (form : Form) (operands : List Expr)
  /-- A dictionary. -/
  | dict (range : Range) (entries : List Entry)
  /-- A value with a name bound to it. -/
  | walrus (range : Range) (target : Range) (id : String) (value : Expr)
  /-- An anonymous function. -/
  | lambda (range : Range) (parameters : List Parameter) (body : Expr)
  /-- A comprehension: its elements and at least one clause. -/
  | comprehension (range : Range) (kind : ComprehensionKind) (elements : List Expr) (first : Clause)
      (rest : List Clause)

/-- An argument by name, or the arguments of a mapping. -/
inductive Keyword where
  /-- The name and the value. -/
  | mk (name : Option String) (value : Expr)

/-- An entry of a dictionary. -/
inductive Entry where
  /-- A key and its value. -/
  | pair (key value : Expr)
  /-- The entries of a mapping. -/
  | unpack (value : Expr)

/-- A parameter. -/
inductive Parameter where
  /-- What it takes, its name, annotation and default. -/
  | mk (kind : ParameterKind) (name : String) (typeHint default : Option Expr)

/-- A loop in a comprehension. -/
inductive Clause where
  /-- Its targets, its source of values and the conditions on them. -/
  | mk (isAsync : Bool) (target source : Expr) (conditions : List Expr)

end

instance : Inhabited Expr := ⟨.name default ""⟩

/-- The range of an expression. -/
def Expr.range : Expr → Range
  | .name r _ | .constant r _ _ | .attribute r _ _ | .subscript r _ _ | .call r _ _ _
  | .compound r _ _ | .dict r _ | .walrus r _ _ _ | .lambda r _ _ | .comprehension r _ _ _ _ => r

/-- What a parameter takes. -/
def Parameter.kind : Parameter → ParameterKind
  | .mk kind _ _ _ => kind

/-- The name of a parameter. -/
def Parameter.name : Parameter → String
  | .mk _ name _ _ => name

/-- The annotation of a parameter. -/
def Parameter.typeHint : Parameter → Option Expr
  | .mk _ _ typeHint _ => typeHint

/-- Whether a parameter can be given by its place. -/
def Parameter.isPositional (p : Parameter) : Bool :=
  p.kind = .positionalOnly || p.kind = .positional

/-! ## Statements -/

/-- A resource of a `with` statement and what it is bound to. -/
structure Resource where
  /-- The resource. -/
  context : Expr
  /-- What it is bound to. -/
  target : Option Expr

/-- The name, parameters and decorators of a function. -/
structure Signature where
  /-- Whether the function runs concurrently with its caller. -/
  isAsync : Bool
  /-- The name. -/
  name : String
  /-- The parameters in order. -/
  parameters : List Parameter
  /-- The decorators. -/
  decorators : List Expr

mutual

/-- A statement. -/
inductive Stmt where
  /-- A function. -/
  | function (range : Range) (signature : Signature) (body : List Stmt)
  /-- A class. -/
  | classType (range : Range) (name : String) (bases : List Expr) (body : List Stmt)
  /-- The end of a function. -/
  | returnValue (range : Range) (value : Option Expr)
  /-- An assignment to one or more targets. -/
  | assign (range : Range) (targets : List Expr) (value : Expr)
  /-- An assignment that combines the old value with an operand. -/
  | augment (range : Range) (target : Expr) (op : BinaryOperator) (value : Expr)
  /-- An annotated assignment. -/
  | annotate (range : Range) (target typeHint : Expr) (value : Option Expr)
  /-- A loop over values. -/
  | forEach (range : Range) (isAsync : Bool) (target source : Expr) (body orElse : List Stmt)
  /-- A loop under a condition. -/
  | whileLoop (range : Range) (condition : Expr) (body orElse : List Stmt)
  /-- A choice. -/
  | choose (range : Range) (condition : Expr) (body orElse : List Stmt)
  /-- The use of resources. -/
  | withResources (range : Range) (resources : List Resource) (body : List Stmt)
  /-- A choice by pattern. -/
  | matchCases (range : Range) (subject : Expr) (cases : List (List Stmt))
  /-- A throw, with the cause it names. -/
  | throwError (range : Range) (error cause : Option Expr)
  /-- Statements under guard. -/
  | guarded (range : Range) (body : List Stmt) (handlers : List Handler)
      (orElse finalBody : List Stmt)
  /-- Imports, by the names they bind. -/
  | imports (range : Range) (names : List String)
  /-- Names that are those of the module. -/
  | globals (range : Range) (names : List String)
  /-- Names that are those of a function around. -/
  | nonlocals (range : Range) (names : List String)
  /-- An expression. -/
  | expr (range : Range) (value : Expr)
  /-- Any other statement, by its word, with its operands. -/
  | simple (range : Range) (word : String) (operands : List Expr)

/-- A handler. -/
inductive Handler where
  /-- What it handles, the name it gives to it, and its statements. -/
  | mk (range : Range) (type : Option Expr) (name : Option String) (body : List Stmt)

end

instance : Inhabited Stmt := ⟨.simple default "pass" []⟩

/-- The range of a statement. -/
def Stmt.range : Stmt → Range
  | .function r _ _ | .classType r _ _ _ | .returnValue r _ | .assign r _ _ | .augment r _ _ _
  | .annotate r _ _ _ | .forEach r _ _ _ _ _ | .whileLoop r _ _ _ | .choose r _ _ _
  | .withResources r _ _ | .matchCases r _ _ | .throwError r _ _ | .guarded r _ _ _ _
  | .imports r _ | .globals r _ | .nonlocals r _ | .expr r _ | .simple r _ _ => r

end ModelLint.Source
