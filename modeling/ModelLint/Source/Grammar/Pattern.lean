import ModelLint.Source.Grammar.Expression

/-!
# The grammar of patterns

Patterns of a `match` are read for their form only: nothing of them is kept.
-/

namespace ModelLint.Source

open Parse

namespace Pattern

/-! ## Parts without patterns inside -/

/-- Whether a number token is imaginary. -/
def isImaginary (t : Token) : Bool := t.text.toList.getLast?.any fun c => c = 'j' || c = 'J'

/-- A number that has a value. -/
def numberToken : Parse Token := do
  let t ← peek
  let _ ← Nested.number
  return t

/-- A number, perhaps with a minus; or the sum or difference of a real and an imaginary one. -/
def number : Parse Unit := do
  let _ ← accept "-"
  let real ← numberToken
  if (← sees ["+"]) || (← sees ["-"]) then
    let _ ← next
    let imaginary ← numberToken
    if isImaginary real || !isImaginary imaginary then failure

/-- A number, strings or a named value. -/
def literal (inner : Nested) : Parse Unit := do
  let t ← peek
  if t.kind = .string then
    let _ ← inner.strings
  else if t.kind = .name && (Nested.namedValue? t.text).isSome then
    let _ ← next
  else number

/-- Names with points between them. -/
def dottedName : Parse (List String) := do
  let first ← identifier
  let rest ← repeated do if ← accept "." then some <$> identifier else return none
  return first :: rest

/-- A name that takes the value; the underscore is none. -/
def capture : Parse Unit := do
  let t ← peek
  let _ ← identifier
  if t.text = "_" || (← sees ["."]) || (← sees ["("]) || (← sees ["="]) then failure

/-- A star with a name for the remaining values. -/
def starCapture : Parse Unit := do
  expect "*"
  if ← sees ["_"] then
    let _ ← next
  else capture

/-! ## Patterns -/

variable (inner : Nested) (pattern : Parse Unit)

/-- An element of a sequence. -/
def sequenceElement : Parse Unit := do
  if ← sees ["*"] then starCapture else pattern

/-- The elements of a sequence up to a closing bracket, with the bracket. -/
def sequenceRest (closing : String) : Parse Unit := do
  if ← accept closing then return ()
  let _ ← commaSeparated (sequenceElement pattern)
  expect closing

/-- A group or a sequence in parentheses: a single element with a star needs a comma. -/
def parenthesized : Parse Unit := do
  expect "("
  if ← accept ")" then return ()
  let startsWithStar ← sees ["*"]
  let (elements, hasComma) ← commaSeparated (sequenceElement pattern)
  if startsWithStar && elements.length = 1 && !hasComma then failure
  expect ")"

/-- An entry of a mapping. -/
def mappingEntry : Parse Unit := do
  let t ← peek
  if isNameToken t then
    if (← dottedName).length < 2 then failure
  else literal inner
  expect ":"
  pattern

/-- The entries of a mapping behind its opening bracket; the remaining entries come last. -/
def mappingRest : Parse Unit := do
  if ← accept "\x7d" then return ()
  let _ ← repeated do
    if (← sees ["\x7d"]) || (← sees ["**"]) then return none
    else
      mappingEntry inner pattern
      if !(← sees ["\x7d"]) then expect ","
      return some ()
  if ← accept "**" then
    capture
    let _ ← accept ","
  expect "\x7d"

/-- The arguments of a class pattern; those by name come last. -/
def classArguments : Parse Unit := do
  expect "("
  let _ ← extended (fun hasName => do
    if ← sees [")"] then return none
    let isNamed ← seesNameAnd "="
    if hasName && !isNamed then failure
    if isNamed then
      let _ ← identifier
      expect "="
    pattern
    if !(← sees [")"]) then expect ","
    return some isNamed) false
  expect ")"

/-- A pattern of a name: a class, a value, or a name for the value. -/
def named : Parse Unit := do
  let _ ← dottedName
  if ← sees ["("] then classArguments pattern
  else if ← sees ["="] then failure

/-- A pattern without alternatives; the underscore stands for any value. -/
def closed : Parse Unit := do
  let t ← peek
  if t.text = "_" then
    let _ ← next
  else if isNameToken t then named pattern
  else if ← sees ["("] then parenthesized pattern
  else if ← accept "[" then sequenceRest pattern "]"
  else if ← accept "\x7b" then mappingRest inner pattern
  else literal inner

/-- Alternatives, perhaps with a name for the value. -/
def level : Parse Unit := do
  closed inner pattern
  let _ ← repeated do
    if ← accept "|" then some <$> closed inner pattern else return none
  if ← accept "as" then capture

/-- A pattern with at most `depth` brackets inside each other. -/
def ofDepth : Nat → Parse Unit
  | 0 => failure
  | depth + 1 => fun c => level inner (ofDepth depth) c

/-- The pattern of a case: a sequence needs no brackets. -/
def outermost (depth : Nat) : Parse Unit := do
  let pattern := ofDepth inner depth
  let startsWithStar ← sees ["*"]
  let (elements, hasComma) ← commaSeparated (sequenceElement pattern)
  if startsWithStar && elements.length = 1 && !hasComma then failure

end Pattern

end ModelLint.Source
