import ModelLint.Source.Grammar.Pattern

/-!
# The grammar of statements

One reader per statement. A line of simple statements and a statement with a block both are a list
of statements; a block comes back to statements through a reader for blocks one level deeper. The
word `match` is a name where the statement of that name does not fit. `Stmt.ofSource?` reads a whole
source text.
-/

namespace ModelLint.Source

open Parse

namespace Statement

/-! ## Simple statements -/

section Simple

variable (g : Nested)

/-- The rest of an annotated assignment. -/
def annotated (start : Position) (target : Expr) : Parse Stmt := do
  expect ":"
  let typeHint ← g.expression
  let value ← if ← accept "=" then some <$> g.bareOrYielded else pure none
  return .annotate (← rangeFrom start) target typeHint value

/-- The rest of an assignment to one or more targets, the last read first. The value is not a
target. -/
def assigned (start : Position) (first : Expr) : Parse Stmt := do
  let parts ← repeated do
    if ← accept "=" then some <$> g.bareOrYielded else return none
  match (first :: parts).reverse with
  | value :: targets@(_ :: _) =>
    if targets.all Nested.isStarTarget then
      return .assign (← rangeFrom start) targets.reverse value
    else failure
  | _ => failure

/-- The operator of an assignment that combines. -/
def augmentation? : Parse (Option BinaryOperator) := do
  let t ← peek
  match BinaryOperator.all.find? fun op => t.kind = .operator && t.text = op.text ++ "=" with
  | none => return none
  | some op =>
    let _ ← next
    return some op

/-- An expression or an assignment. -/
def assignmentOrExpression : Parse Stmt := do
  let start ← position
  let first ← g.bare
  if ← sees [":"] then
    if Nested.isSingleTarget first then annotated g start first else failure
  else if ← sees ["="] then assigned g start first
  else
    match ← augmentation? with
    | some op =>
      if !Nested.isSingleTarget first then failure
      let value ← g.bareOrYielded
      return .augment (← rangeFrom start) first op value
    | none => return .expr (← rangeFrom start) first

/-- The parts of a name with points. -/
def dottedName : Parse (List String) :=
  do return (← identifier) :: (← repeated do if ← accept "." then some <$> identifier else return none)

/-- The name behind `as`, if there is one. -/
def alias? : Parse (Option String) := do
  if ← accept "as" then some <$> identifier else return none

/-- An imported module; it binds its alias or the first part of its name. -/
def importedModule : Parse String := do
  let parts ← dottedName
  return (← alias?).getD (parts.headD "")

/-- An imported name; it binds its alias or itself. -/
def importedName : Parse String := do
  let name ← identifier
  return (← alias?).getD name

/-- An import from a module. -/
def importFrom (start : Position) : Parse Stmt := do
  let dots ← repeated do
    if (← accept ".") || (← accept "...") then return some () else return none
  if dots.isEmpty || !(← sees ["import"]) then
    let _ ← dottedName
  expect "import"
  if ← accept "*" then return .imports (← rangeFrom start) []
  else if ← accept "(" then
    let (names, _) ← commaSeparated importedName
    expect ")"
    return .imports (← rangeFrom start) names
  else
    let names ← commaJoined importedName
    return .imports (← rangeFrom start) names

mutual

/-- Whether an expression can be deleted. -/
def isDeletable : Expr → Bool
  | .name _ _ | .attribute _ _ _ | .subscript _ _ _ => true
  | .compound _ .tuple es | .compound _ .list es => areDeletable es
  | _ => false

/-- Whether several expressions can be deleted. -/
def areDeletable : List Expr → Bool
  | [] => true
  | e :: es => isDeletable e && areDeletable es

end

/-- The word of a statement that starts with one, for those without operands of their own. -/
def bareWords : List String := ["pass", "break", "continue"]

/-- A simple statement. -/
def simple : Parse Stmt := do
  let start ← position
  let t ← peek
  if t.kind ≠ .name then assignmentOrExpression g
  else if bareWords.contains t.text then
    let _ ← next
    return .simple (← rangeFrom start) t.text []
  else if ← accept "return" then
    let value ← optional? g.bare
    return .returnValue (← rangeFrom start) value
  else if ← accept "raise" then
    match ← optional? g.expression with
    | none => return .throwError (← rangeFrom start) none none
    | some error =>
      let cause ← if ← accept "from" then some <$> g.expression else pure none
      return .throwError (← rangeFrom start) (some error) cause
  else if ← accept "global" then
    let names ← commaJoined identifier
    return .globals (← rangeFrom start) names
  else if ← accept "nonlocal" then
    let names ← commaJoined identifier
    return .nonlocals (← rangeFrom start) names
  else if ← accept "del" then
    let (targets, _) ← commaSeparated g.primary
    if !areDeletable targets then failure
    return .simple (← rangeFrom start) "delete" targets
  else if ← accept "assert" then
    let condition ← g.expression
    let message ← if ← accept "," then some <$> g.expression else pure none
    return .simple (← rangeFrom start) "assert" (condition :: message.toList)
  else if ← accept "import" then
    let names ← commaJoined importedModule
    return .imports (← rangeFrom start) names
  else if ← accept "from" then importFrom start
  else if t.text = "yield" then
    let value ← g.yielded
    return .expr (← rangeFrom start) value
  else assignmentOrExpression g

/-- A line of simple statements. -/
def simpleLine : Parse (List Stmt) := do
  let first ← simple g
  let rest ← repeated (optional? do expect ";"; simple g)
  let _ ← accept ";"
  let _ ← ofKind .newline
  return first :: rest

end Simple

/-! ## Statements with blocks -/

section Compound

variable (g : Nested) (block : Parse (List Stmt))

/-- A block behind a word and its colon, if the word comes next. -/
def blockAfter? (word : String) : Parse (Option (List Stmt)) := do
  if ← accept word then
    expect ":"
    some <$> block
  else return none

/-- The block behind `else`, empty where there is none. -/
def orElse : Parse (List Stmt) := do return (← blockAfter? block "else").getD []

/-- A choice; a choice behind `elif` is nested in the one before. -/
def choice : Parse Stmt := do
  let branch (word : String) := do
    let start ← position
    expect word
    let condition ← g.named
    expect ":"
    let body ← block
    return (start, condition, body)
  let (start, condition, body) ← branch "if"
  let others ← repeated do
    if ← sees ["elif"] then some <$> branch "elif" else return none
  let last ← orElse block
  let stop := (← get).last
  let otherwise := others.foldr (fun (start, condition, body) orElse =>
    [Stmt.choose ⟨start, stop⟩ condition body orElse]) last
  return .choose ⟨start, stop⟩ condition body otherwise

/-- A loop under a condition. -/
def whileLoop : Parse Stmt := do
  let start ← position
  expect "while"
  let condition ← g.named
  expect ":"
  let body ← block
  let orElse ← orElse block
  return .whileLoop (← rangeFrom start) condition body orElse

/-- A loop over values. -/
def forEach (start : Position) (isAsync : Bool) : Parse Stmt := do
  expect "for"
  let target ← g.targets
  expect "in"
  let source ← g.bare
  expect ":"
  let body ← block
  let orElse ← orElse block
  return .forEach (← rangeFrom start) isAsync target source body orElse

/-- A resource, perhaps bound to a target. -/
def resource : Parse Resource := do
  let context ← g.expression
  if ← accept "as" then return ⟨context, some (← g.target)⟩ else return ⟨context, none⟩

/-- The use of resources; parentheses around all of them do not count. -/
def withResources (start : Position) : Parse Stmt := do
  expect "with"
  let inParentheses := do
    expect "("
    let (resources, _) ← commaSeparated (resource g)
    expect ")"
    expect ":"
    return resources
  let bare := do
    let resources ← commaJoined (resource g)
    expect ":"
    return resources
  let resources ← inParentheses <|> bare
  let body ← block
  return .withResources (← rangeFrom start) resources body

/-- A handler; all handlers of a statement have the star or none has. -/
def handler? (hasStar : Bool) : Parse (Option Handler) := do
  let start ← position
  if ← accept "except" then
    if hasStar then expect "*"
    if !hasStar && (← accept ":") then
      let body ← block
      return some (.mk (← rangeFrom start) none none body)
    else
      let type ← g.expression
      let name ← alias?
      expect ":"
      let body ← block
      return some (.mk (← rangeFrom start) (some type) name body)
  else return none

/-- Statements under guard. -/
def guarded : Parse Stmt := do
  let start ← position
  expect "try"
  expect ":"
  let body ← block
  let hasStar ← sees ["except", "*"]
  let handlers ← repeated (handler? g block hasStar)
  let orElse ← if handlers.isEmpty then pure [] else orElse block
  let finalBody ← blockAfter? block "finally"
  if handlers.isEmpty && finalBody.isNone then failure
  return .guarded (← rangeFrom start) body handlers orElse (finalBody.getD [])

/-- A function behind its decorators. -/
def function (start : Position) (isAsync : Bool) (decorators : List Expr) : Parse Stmt := do
  expect "def"
  let name ← identifier
  expect "("
  let parameters ← g.parameters true ")"
  expect ")"
  if ← accept "->" then
    let _ ← g.expression
  expect ":"
  let body ← block
  return .function (← rangeFrom start) ⟨isAsync, name, parameters, decorators⟩ body

/-- A class. -/
def classType : Parse Stmt := do
  let start ← position
  expect "class"
  let name ← identifier
  let bases ← if ← sees ["("] then
      let bases ← position
      let (args, _) ← g.arguments
      match args with
      | [.comprehension r _ _ _ _] => if r.start = bases then failure else pure args
      | _ => pure args
    else pure []
  expect ":"
  let body ← block
  return .classType (← rangeFrom start) name bases body

/-- A decorator. -/
def decorator? : Parse (Option Expr) := do
  if ← accept "@" then
    let value ← g.named
    let _ ← ofKind .newline
    return some value
  else return none

/-- A choice by pattern. -/
def matchCases : Parse Stmt := do
  let start ← position
  expect "match"
  let hasStar ← sees ["*"]
  let subject ← Nested.tupled g.element
  if hasStar && Nested.isStarred subject then failure
  expect ":"
  let _ ← ofKind .newline
  let _ ← ofKind .indent
  let depth := (← get).rest.length
  let case? := do
    if ← sees ["case"] then
      let _ ← next
      Pattern.outermost g depth
      if ← accept "if" then
        let _ ← g.named
      expect ":"
      some <$> block
    else return none
  let cases ← repeated case?
  if cases.isEmpty then failure
  let _ ← ofKind .dedent
  return .matchCases (← rangeFrom start) subject cases

/-- A statement with a block. -/
def compound : Parse Stmt := do
  let start ← position
  let decorators ← repeated (decorator? g)
  let start ← if decorators.isEmpty then pure start else position
  if (← sees ["def"]) then function g block start false decorators
  else if (← sees ["async", "def"]) then
    expect "async"
    function g block start true decorators
  else if ← sees ["class"] then classType g block
  else if !decorators.isEmpty then failure
  else if ← sees ["if"] then choice g block
  else if ← sees ["while"] then whileLoop g block
  else if ← sees ["for"] then forEach g block start false
  else if ← sees ["with"] then withResources g block start
  else if ← sees ["try"] then guarded g block
  else if ← accept "async" then
    if ← sees ["for"] then forEach g block start true else withResources g block start
  else failure

/-- The words that start a statement with a block. -/
def compoundWords : List String :=
  ["def", "class", "if", "while", "for", "with", "try", "async", "@"]

/-- A statement with a block, or a line of simple statements. -/
def statement : Parse (List Stmt) := do
  let t ← peek
  if compoundWords.any fun word => isWord word t then return [← compound g block]
  else if t.kind = .name && t.text = "match" then
    (do return [← matchCases g block]) <|> simpleLine g
  else simpleLine g

/-- Statements up to the end of a block or text. -/
def statements : Parse (List Stmt) := do
  let lines ← repeated do
    let t ← peek
    if t.kind = .dedent || t.kind = .finish then return none else some <$> statement g block
  return lines.flatten

end Compound

/-- A block with at most `depth` blocks inside each other. -/
def blockOfDepth (g : Nested) : Nat → Parse (List Stmt)
  | 0 => failure
  | depth + 1 => do
    if (← peek).kind = .newline then
      let _ ← ofKind .newline
      let _ ← ofKind .indent
      let body ← fun c => statements g (blockOfDepth g depth) c
      if body.isEmpty then failure
      let _ ← ofKind .dedent
      return body
    else simpleLine g

end Statement

/-- The statements of a source text, if it has the form of one. -/
def Stmt.ofSource? (named : Text.CharacterNames) (source : String) : Option (List Stmt) := do
  let tokens ← Token.scan? source
  let g := Nested.ofDepth (2 * source.length + 2)
  let block := Statement.blockOfDepth g (Token.maxBlocks + 1)
  let (body, c) ← (Statement.statements g block).run ⟨tokens, ⟨1, 0⟩, named⟩
  match c.rest with
  | [t] => if t.kind = .finish then return body else none
  | _ => none

end ModelLint.Source
