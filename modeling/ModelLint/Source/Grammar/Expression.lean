import ModelLint.Source.Grammar.Basic
import ModelLint.Source.Template

/-!
# The grammar of expressions

One reader per rule, from the loosest operators down to atoms. A rule that comes back to a rule
above it does so behind a token, through `Nested`, so that the number of characters bounds the
depth. A target of an assignment is read as an expression first and then checked; a loop, whose
target must stop before `in`, reads its targets as primaries.
-/

namespace ModelLint.Source

open Parse

/-- The readers of expressions one token further in. -/
structure Nested where
  /-- An expression. -/
  expression : Parse Expr
  /-- An expression without a condition behind it. -/
  disjunction : Parse Expr
  /-- An operand of `not`. -/
  inversion : Parse Expr
  /-- An operand of a comparison. -/
  operand : Parse Expr
  /-- An operand of a sign. -/
  factor : Parse Expr
  /-- An atom with its calls, attributes and elements. -/
  primary : Parse Expr

namespace Nested

variable (inner : Nested)

/-! ## Expressions with names and stars -/

/-- An expression, perhaps with a name bound to it. -/
def named : Parse Expr := do
  let start ← position
  if ← seesNameAnd ":=" then
    let id ← identifier
    let target ← rangeFrom start
    expect ":="
    let value ← inner.expression
    return .walrus (← rangeFrom start) target id value
  else
    let value ← inner.expression
    if ← sees [":="] then failure
    return value

/-- An operand behind a star. -/
def starred (operand : Parse Expr) : Parse Expr := do
  let start ← position
  expect "*"
  let value ← operand
  return .compound (← rangeFrom start) .starred [value]

/-- Whether an expression is an operand behind a star. -/
def isStarred : Expr → Bool
  | .compound _ .starred _ => true
  | _ => false

/-- An element of a display. -/
def element : Parse Expr := do
  if ← sees ["*"] then starred inner.operand else inner.named

/-- An element of a tuple without parentheses. -/
def bareElement : Parse Expr := do
  if ← sees ["*"] then starred inner.operand else inner.expression

/-- One element, or several as a tuple. -/
def tupled (element : Parse Expr) : Parse Expr := do
  let start ← position
  match ← commaSeparated element with
  | ([e], false) => return e
  | (es, _) => return .compound (← rangeFrom start) .tuple es

/-- An expression or a tuple without parentheses. -/
def bare : Parse Expr := tupled inner.bareElement

/-- A value handed out. -/
def yielded : Parse Expr := do
  let start ← position
  expect "yield"
  if ← accept "from" then
    let value ← inner.expression
    return .compound (← rangeFrom start) .yieldFrom [value]
  else
    let value ← optional? inner.bare
    return .compound (← rangeFrom start) .yieldValue value.toList

/-- What may stand behind an assignment. -/
def bareOrYielded : Parse Expr := do
  if ← sees ["yield"] then inner.yielded else inner.bare

/-! ## Targets -/

mutual

/-- Whether something can be assigned to an expression that has no star. -/
def isTarget : Expr → Bool
  | .name _ _ | .attribute _ _ _ | .subscript _ _ _ => true
  | .compound _ .tuple es | .compound _ .list es => areTargets es
  | _ => false

/-- Whether something can be assigned to the elements of a display. -/
def areTargets : List Expr → Bool
  | [] => true
  | .compound _ .starred [e] :: es => isTarget e && areTargets es
  | e :: es => isTarget e && areTargets es

end

/-- Whether something can be assigned to an expression, perhaps one behind a star. -/
def isStarTarget (e : Expr) : Bool := areTargets [e]

/-- Whether an expression is one place to assign to. -/
def isSingleTarget : Expr → Bool
  | .name _ _ | .attribute _ _ _ | .subscript _ _ _ => true
  | _ => false

/-- A target, perhaps behind a star. -/
def target : Parse Expr := do
  let place := do
    let e ← inner.primary
    if isTarget e then return e else failure
  if ← sees ["*"] then starred place else place

/-- One target, or several as a tuple. -/
def targets : Parse Expr := tupled inner.target

/-! ## Comprehensions -/

/-- A loop of a comprehension. -/
def clause? : Parse (Option Clause) := do
  if (← sees ["for"]) || (← sees ["async", "for"]) then
    let isAsync ← accept "async"
    expect "for"
    let target ← inner.targets
    expect "in"
    let source ← inner.disjunction
    let conditions ← repeated do
      if ← accept "if" then some <$> inner.disjunction else return none
    return some (.mk isAsync target source conditions)
  else return none

/-- The loops of a comprehension with its closing bracket, if there are any. -/
def clauses? (closing : String) : Parse (Option (Clause × List Clause)) := do
  match ← inner.clause? with
  | none => return none
  | some first =>
    let rest ← repeated inner.clause?
    expect closing
    return some (first, rest)

/-! ## Parameters -/

/-- What was read of a list of parameters. -/
structure Parameters where
  /-- The parameters, the last first. -/
  read : List Parameter
  /-- Whether the slash was read. -/
  hasSlash : Bool
  /-- Whether a star was read. -/
  hasStar : Bool
  /-- Whether a default was read before the star. -/
  hasDefault : Bool
  /-- Whether a name must follow. -/
  needsName : Bool
  /-- Whether nothing may follow. -/
  isComplete : Bool

/-- The annotation of a parameter, where parameters have annotations. -/
def typeHint? (annotated : Bool) (typeHint : Parse Expr) : Parse (Option Expr) := do
  if annotated && (← sees [":"]) then
    expect ":"
    some <$> typeHint
  else return none

/-- The default of a parameter. -/
def default? : Parse (Option Expr) := do
  if ← accept "=" then some <$> inner.expression else return none

/-- The next parameter or mark. -/
def parameter (annotated : Bool) (s : Parameters) : Parse Parameters := do
  if s.isComplete then failure
  if ← accept "/" then
    if s.hasSlash || s.hasStar || s.read.isEmpty then failure
    let positionalOnly : Parameter → Parameter
      | .mk _ name typeHint default => .mk .positionalOnly name typeHint default
    return { s with read := s.read.map positionalOnly, hasSlash := true }
  else if ← accept "*" then
    if s.hasStar then failure
    if ← sees [","] then return { s with hasStar := true, needsName := true }
    let name ← identifier
    let typeHint ← typeHint? annotated inner.bareElement
    return { s with read := .mk .variadic name typeHint none :: s.read, hasStar := true }
  else if ← accept "**" then
    if s.needsName then failure
    let name ← identifier
    let typeHint ← typeHint? annotated inner.expression
    return { s with read := .mk .keywords name typeHint none :: s.read, isComplete := true }
  else
    let name ← identifier
    let typeHint ← typeHint? annotated inner.expression
    let default ← inner.default?
    if s.hasStar then
      return { s with
        read := .mk .keywordOnly name typeHint default :: s.read, needsName := false }
    else if s.hasDefault && default.isNone then failure
    else
      return { s with
        read := .mk .positional name typeHint default :: s.read
        hasDefault := default.isSome }

/-- A list of parameters, up to the token that closes it. -/
def parameters (annotated : Bool) (closing : String) : Parse (List Parameter) := do
  let start : Parameters := ⟨[], false, false, false, false, false⟩
  if ← sees [closing] then return []
  let first ← inner.parameter annotated start
  let s ← extended (fun s => do
    if ← accept "," then
      if ← sees [closing] then return none else some <$> inner.parameter annotated s
    else return none) first
  if s.needsName then failure
  return s.read.reverse

/-- An anonymous function. -/
def lambda : Parse Expr := do
  let start ← position
  expect "lambda"
  let parameters ← inner.parameters false ":"
  expect ":"
  let body ← inner.expression
  return .lambda (← rangeFrom start) parameters body

/-! ## Calls and elements -/

/-- The arguments read so far. -/
structure Arguments where
  /-- The arguments by place, the last first. -/
  args : List Expr
  /-- The arguments by name, the last first. -/
  keywords : List Keyword
  /-- Whether a mapping was read. -/
  hasMapping : Bool

/-- The next argument. Behind a name there are no plain arguments, behind a mapping also none with
a star. -/
def argument (s : Arguments) : Parse Arguments := do
  if ← accept "**" then
    let value ← inner.expression
    return { s with keywords := .mk none value :: s.keywords, hasMapping := true }
  else if ← sees ["*"] then
    if s.hasMapping then failure
    let value ← starred inner.expression
    return { s with args := value :: s.args }
  else if ← seesNameAnd "=" then
    let name ← identifier
    expect "="
    let value ← inner.expression
    return { s with keywords := .mk (some name) value :: s.keywords }
  else
    if !s.keywords.isEmpty then failure
    let value ← inner.named
    return { s with args := value :: s.args }

/-- Whether the argument to come is neither by name nor behind a star. -/
def seesPlainArgument : Parse Bool := do
  return !(← sees ["*"]) && !(← sees ["**"]) && !(← seesNameAnd "=")

/-- The arguments of a call with their brackets. A generator that is the only argument has the
brackets of the call. -/
def arguments : Parse (List Expr × List Keyword) := do
  let start ← position
  expect "("
  if ← accept ")" then return ([], [])
  let isPlain ← seesPlainArgument
  let first ← inner.argument ⟨[], [], false⟩
  match isPlain, first.args, ← inner.clauses? ")" with
  | true, [value], some (clause, rest) =>
    return ([.comprehension (← rangeFrom start) .generator [value] clause rest], [])
  | _, _, some _ => failure
  | _, _, none =>
    let s ← extended (fun s => do
      if ← accept "," then
        if ← sees [")"] then return none else some <$> inner.argument s
      else return none) first
    expect ")"
    return (s.args.reverse, s.keywords.reverse)

/-- A part of an index: a slice or an expression. -/
def slicePart : Parse Expr := do
  let start ← position
  if ← seesNameAnd ":=" then inner.named
  else
    let lower ← if ← sees [":"] then pure none else some <$> inner.named
    match ← accept ":", lower with
    | false, some value => return value
    | _, _ =>
      let upper ← optional? inner.expression
      let step ← if ← accept ":" then optional? inner.expression else pure none
      let form := Form.slice lower.isSome upper.isSome step.isSome
      return .compound (← rangeFrom start) form (lower.toList ++ upper.toList ++ step.toList)

/-- An index. -/
def index : Parse Expr := do
  let start ← position
  let part := do if ← sees ["*"] then starred inner.expression else inner.slicePart
  match ← commaSeparated part with
  | ([e], false) =>
    if isStarred e then return .compound (← rangeFrom start) .tuple [e] else return e
  | (es, _) => return .compound (← rangeFrom start) .tuple es

/-! ## Literals -/

/-- What the texts of a template have in common. -/
structure TextPlace where
  /-- The range of a text. -/
  range : Range
  /-- Whether a text has the letter `u`. -/
  hasLetter : Bool

/-- A text that has come to its end as an element of a template. -/
def textValue (place : TextPlace) (cs : List Char) : List Expr :=
  if cs = [] then []
  else [.constant place.range (.data (.str (String.ofList cs))) place.hasLetter]

/-- The tokens of an expression in a template. A token that does not end on the first line is
placed as if the line started at the parenthesis. -/
def valueTokens? (start : Position) (source : List Char) : Option (List Token) := do
  let place (t : Token) : Token :=
    if t.start.line = start.line ∧ t.stop.line ≠ start.line then
      { t with start := ⟨t.start.line, t.start.column - start.column⟩ }
    else t
  return (← Token.scanFrom? start source).map place

section Templates

variable (named : Text.CharacterNames)

/-- An expression in a template. -/
def valueOf? (start : Position) (source : List Char) : Option Expr := do
  let tokens ← valueTokens? start source
  let (value, c) ← inner.bare.run ⟨tokens, start, named⟩
  if c.rest.all fun t => t.kind = .newline || t.kind = .finish then return value else none

/-- The elements of a template: adjacent texts are one, and an empty text is none. All elements
have the range of the whole template, except that the text at the end of a format is placed where
the string literal with the format is. -/
def templateValues (whole last : TextPlace) (pending : List Char) :
    List TemplatePart → Option (List Expr)
  | [] => some (textValue last pending)
  | .text cs :: rest => templateValues whole last (pending ++ cs) rest
  | .value _ source start conversion none :: rest => do
    let value ← inner.valueOf? named start source
    return textValue whole pending ++
      .compound whole.range (.formatted conversion) [value] ::
        (← templateValues whole last [] rest)
  | .value literal source start conversion (some format) :: rest => do
    let value ← inner.valueOf? named start source
    let format ← templateValues whole ⟨literal, false⟩ [] format
    return textValue whole pending ++
      .compound whole.range (.formatted conversion) [value, .compound literal .template format] ::
        (← templateValues whole last [] rest)

/-- The value of adjacent string literals. -/
def joinLiterals? (range : Range) (hasLetter : Bool) (literals : List (Token × StringLiteral)) :
    Option Expr := do
  if literals.all fun (_, s) => s.isBytes then
    let cs ← literals.mapM fun (_, s) => s.characters? named
    return .constant range (.bytes (cs.flatten.map fun c => UInt8.ofNat c.toNat)) false
  else if literals.any fun (_, s) => s.isBytes then none
  else
    let parts ← literals.mapM fun (t, s) =>
      if s.isTemplate then templateParts? named s ⟨t.start, t.stop⟩
      else (s.characters? named).map fun cs => [TemplatePart.text cs]
    if literals.any fun (_, s) => s.isTemplate then
      let place := TextPlace.mk range hasLetter
      return .compound range .template (← inner.templateValues named place place [] parts.flatten)
    else
      let texts := parts.flatten.map fun
        | .text cs => cs
        | .value _ _ _ _ _ => []
      return .constant range (.data (.str (String.ofList texts.flatten))) hasLetter

end Templates

/-- Adjacent string literals. -/
def strings : Parse Expr := do
  let start ← position
  let tokens ← repeated do
    if (← peek).kind = .string then some <$> next else return none
  let range ← rangeFrom start
  let hasLetter := tokens.head?.any fun t => t.text.toList.head? = some 'u'
  let named := (← get).named
  match inner.joinLiterals? named range hasLetter (tokens.map fun t => (t, StringLiteral.ofText t.text)) with
  | some e => return e
  | none => failure

/-- A number. -/
def number : Parse Expr := do
  let start ← position
  let t ← ofKind .number
  match numberValue? t.text with
  | some value => return .constant (← rangeFrom start) value false
  | none => failure

/-- The values that have names of their own. -/
def namedValue? : String → Option Constant
  | "None" => some (.data .null)
  | "True" => some (.data (.bool true))
  | "False" => some (.data (.bool false))
  | _ => none

/-! ## Displays -/

/-- A tuple, a generator or an expression in parentheses. -/
def parenthesized : Parse Expr := do
  let start ← position
  expect "("
  if ← accept ")" then return .compound (← rangeFrom start) .tuple []
  else if ← sees ["yield"] then
    let value ← inner.yielded
    expect ")"
    return value
  else
    let first ← inner.element
    if ← sees [","] then
      let rest ← repeated (optional? do expect ","; inner.element)
      let _ ← accept ","
      expect ")"
      return .compound (← rangeFrom start) .tuple (first :: rest)
    else if isStarred first then failure
    else match ← inner.clauses? ")" with
    | some (clause, rest) =>
      return .comprehension (← rangeFrom start) .generator [first] clause rest
    | none =>
      expect ")"
      return first

/-- A list or a comprehension. -/
def listDisplay : Parse Expr := do
  let start ← position
  expect "["
  if ← accept "]" then return .compound (← rangeFrom start) .list []
  let first ← inner.element
  let clauses ← if isStarred first then pure none else inner.clauses? "]"
  match clauses with
  | some (clause, rest) => return .comprehension (← rangeFrom start) .list [first] clause rest
  | none =>
    let rest ← repeated (optional? do expect ","; inner.element)
    let _ ← accept ","
    expect "]"
    return .compound (← rangeFrom start) .list (first :: rest)

/-- An entry of a dictionary. -/
def entry : Parse Entry := do
  if ← accept "**" then .unpack <$> inner.operand
  else
    let key ← inner.expression
    expect ":"
    return .pair key (← inner.expression)

/-- A dictionary behind its first entry. -/
def dictRest (start : Position) (first : Entry) : Parse Expr := do
  let rest ← repeated (optional? do expect ","; inner.entry)
  let _ ← accept ","
  expect "\x7d"
  return .dict (← rangeFrom start) (first :: rest)

/-- A set behind its first element. -/
def setRest (start : Position) (first : Expr) : Parse Expr := do
  let rest ← repeated (optional? do expect ","; inner.element)
  let _ ← accept ","
  expect "\x7d"
  return .compound (← rangeFrom start) .set (first :: rest)

/-- A dictionary, a set or a comprehension. -/
def braced : Parse Expr := do
  let start ← position
  expect "\x7b"
  if ← accept "\x7d" then return .dict (← rangeFrom start) []
  else if ← sees ["**"] then inner.dictRest start (← inner.entry)
  else
    let hasName ← seesNameAnd ":="
    let first ← inner.element
    if isStarred first then inner.setRest start first
    else if !hasName && (← accept ":") then
      let value ← inner.expression
      match ← inner.clauses? "\x7d" with
      | some (clause, rest) =>
        return .comprehension (← rangeFrom start) .dict [first, value] clause rest
      | none => inner.dictRest start (.pair first value)
    else
      match ← inner.clauses? "\x7d" with
      | some (clause, rest) => return .comprehension (← rangeFrom start) .set [first] clause rest
      | none => inner.setRest start first

/-! ## Atoms and primaries -/

/-- An atom. -/
def atom : Parse Expr := do
  let t ← peek
  match t.kind with
  | .string => inner.strings
  | .number => number
  | .name =>
    match namedValue? t.text with
    | some value =>
      let _ ← next
      return .constant (← rangeFrom t.start) value false
    | none =>
      let id ← identifier
      return .name (← rangeFrom t.start) id
  | .operator =>
    match t.text with
    | "(" => inner.parenthesized
    | "[" => inner.listDisplay
    | "\x7b" => inner.braced
    | "..." =>
      let _ ← next
      return .constant (← rangeFrom t.start) .ellipsis false
    | _ => failure
  | _ => failure

/-- What may follow a primary and make it a longer one. -/
def trailer? (start : Position) (value : Expr) : Parse (Option Expr) := do
  if ← accept "." then
    let attr ← identifier
    return some (.attribute (← rangeFrom start) value attr)
  else if ← sees ["("] then
    let (args, keywords) ← inner.arguments
    return some (.call (← rangeFrom start) value args keywords)
  else if ← accept "[" then
    let index ← inner.index
    expect "]"
    return some (.subscript (← rangeFrom start) value index)
  else return none

/-- An atom with its calls, attributes and elements. -/
def primaryLevel : Parse Expr := do
  let start ← position
  let first ← inner.atom
  extended (inner.trailer? start) first

/-- A primary, perhaps one that is waited for. -/
def awaited : Parse Expr := do
  let start ← position
  if ← accept "await" then
    let value ← inner.primaryLevel
    return .compound (← rangeFrom start) .await [value]
  else inner.primaryLevel

/-! ## Operators -/

/-- A power. -/
def power : Parse Expr := do
  let start ← position
  let base ← inner.awaited
  if ← accept "**" then
    let exponent ← inner.factor
    return .compound (← rangeFrom start) (.binary .pow) [base, exponent]
  else return base

/-- An operand of a sign. -/
def factorLevel : Parse Expr := do
  let start ← position
  let signed (op : UnaryOperator) : Parse Expr := do
    let _ ← next
    let value ← inner.factor
    return .compound (← rangeFrom start) (.unary op) [value]
  if ← sees ["+"] then signed .plus
  else if ← sees ["-"] then signed .minus
  else if ← sees ["~"] then signed .invert
  else inner.power

/-- Operands with operators of one level between them, joined from the left. -/
def leftJoined (operators : List BinaryOperator) (operand : Parse Expr) : Parse Expr := do
  let start ← position
  let first ← operand
  extended (fun left => do
    let t ← peek
    match operators.find? fun op => t.kind = .operator && op.text = t.text with
    | none => return none
    | some op =>
      let _ ← next
      let right ← operand
      return some (.compound (← rangeFrom start) (.binary op) [left, right])) first

/-- The levels of operators between two operands, the tightest first. -/
def operatorLevels : List (List BinaryOperator) :=
  [[.mul, .div, .floorDiv, .mod, .matMul], [.add, .sub], [.shiftLeft, .shiftRight], [.bitAnd],
    [.bitXor], [.bitOr]]

/-- An operand of a comparison. -/
def operandLevel : Parse Expr :=
  operatorLevels.foldl (fun operand operators => leftJoined operators operand) inner.factorLevel

/-- A comparison operator. -/
def comparison? : Parse (Option Comparison) := do
  if ← accept "==" then return some .eq
  else if ← accept "!=" then return some .ne
  else if ← accept "<=" then return some .le
  else if ← accept "<" then return some .lt
  else if ← accept ">=" then return some .ge
  else if ← accept ">" then return some .gt
  else if ← sees ["not", "in"] then
    expect "not"
    expect "in"
    return some .notMem
  else if ← accept "in" then return some .mem
  else if ← accept "is" then
    if ← accept "not" then return some .notSame else return some .same
  else return none

/-- A chain of comparisons. -/
def comparisons : Parse Expr := do
  let start ← position
  let first ← inner.operandLevel
  let rest ← repeated do
    match ← comparison? with
    | none => return none
    | some op => return some (op, ← inner.operandLevel)
  if rest.isEmpty then return first
  else
    return .compound (← rangeFrom start) (.comparison (rest.map (·.1))) (first :: rest.map (·.2))

/-- An operand of `not`. -/
def inversionLevel : Parse Expr := do
  let start ← position
  if ← accept "not" then
    let value ← inner.inversion
    return .compound (← rangeFrom start) (.unary .negation) [value]
  else inner.comparisons

/-- Operands with one truth value operator between them, all in one node. -/
def joined (op : BooleanOperator) (operand : Parse Expr) : Parse Expr := do
  let start ← position
  let first ← operand
  let rest ← repeated do
    if ← accept op.text then some <$> operand else return none
  if rest.isEmpty then return first
  else return .compound (← rangeFrom start) (.boolean op) (first :: rest)

/-- An expression without a condition behind it. -/
def disjunctionLevel : Parse Expr := joined .either (joined .both inner.inversionLevel)

/-- An expression. -/
def expressionLevel : Parse Expr := do
  let start ← position
  if ← sees ["lambda"] then inner.lambda
  else
    let value ← inner.disjunctionLevel
    if ← accept "if" then
      let condition ← inner.disjunctionLevel
      expect "else"
      let otherwise ← inner.expression
      return .compound (← rangeFrom start) .conditional [condition, value, otherwise]
    else return value

/-- The readers of expressions, for at most `depth` tokens that lead further in. -/
def ofDepth : Nat → Nested
  | 0 => ⟨failure, failure, failure, failure, failure, failure⟩
  | depth + 1 =>
    { expression := fun c => (ofDepth depth).expressionLevel c
      disjunction := fun c => (ofDepth depth).disjunctionLevel c
      inversion := fun c => (ofDepth depth).inversionLevel c
      operand := fun c => (ofDepth depth).operandLevel c
      factor := fun c => (ofDepth depth).factorLevel c
      primary := fun c => (ofDepth depth).primaryLevel c }

end Nested

end ModelLint.Source
