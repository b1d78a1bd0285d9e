import ModelLint.Source.Syntax
import ModelLint.Text.CharacterName
import ModelLint.Text.Normal

/-!
# Reading tokens

A `Parse` takes tokens from the front of a list or fails; an alternative that fails takes nothing.
The range of what was read goes from the first token to the last one that stands for text: line
ends and the ends of blocks do not count.
-/

namespace ModelLint.Source

/-- What is left to read. -/
structure Cursor where
  /-- The tokens. -/
  rest : List Token
  /-- Where the last token before them stops that stands for text. -/
  last : Position
  /-- What knows the characters of names. -/
  named : Text.CharacterNames

/-- A reader of tokens. -/
abbrev Parse := StateT Cursor Option

namespace Parse

variable {α : Type}

/-! ## Single tokens -/

/-- Whether a token stands for text. -/
def standsForText (t : Token) : Bool :=
  match t.kind with
  | .newline | .indent | .dedent => false
  | _ => true

/-- Takes a token. -/
def next : Parse Token := do
  let c ← get
  match c.rest with
  | [] => failure
  | t :: rest =>
    set { c with rest, last := if standsForText t then t.stop else c.last }
    return t

/-- The token to come. -/
def peek : Parse Token := do
  match (← get).rest with
  | [] => failure
  | t :: _ => return t

/-- Where the token to come starts. -/
def position : Parse Position := do return (← peek).start

/-- The range from a place to the last token. -/
def rangeFrom (start : Position) : Parse Range := do return ⟨start, (← get).last⟩

/-- Whether a token is an operator or a word with the given text. -/
def isWord (word : String) (t : Token) : Bool :=
  (t.kind = .operator || t.kind = .name) && t.text = word

/-- Whether the tokens to come start with the given operators and words. -/
def sees (words : List String) : Parse Bool := do
  let tokens := (← get).rest.take words.length
  return tokens.length = words.length && (words.zip tokens).all fun (word, t) => isWord word t

/-- Takes an operator or word if it comes next. -/
def accept (word : String) : Parse Bool := do
  if ← sees [word] then
    let _ ← next
    return true
  else return false

/-- Takes an operator or word. -/
def expect (word : String) : Parse Unit := do
  if isWord word (← next) then return () else failure

/-- Takes a token of a kind. -/
def ofKind (kind : TokenKind) : Parse Token := do
  let t ← next
  if t.kind = kind then return t else failure

/-! ## Names -/

/-- The words that are no names. -/
def keywords : List String :=
  ["False", "None", "True", "and", "as", "assert", "async", "await", "break", "class", "continue",
    "def", "del", "elif", "else", "except", "finally", "for", "from", "global", "if", "import", "in",
    "is", "lambda", "nonlocal", "not", "or", "pass", "raise", "return", "try", "while", "with",
    "yield"]

/-- The name that a spelling stands for: characters that differ in looks only are one. -/
def nameOf (text : String) : String :=
  let cs := text.toList
  if cs.all fun c => c.toNat < 128 then text else String.ofList (Text.compatible cs)

/-- Whether a token is a name. -/
def isNameToken (t : Token) : Bool := t.kind = .name && !keywords.contains t.text

/-- Takes a name. A name that is made of the characters of names stands for one that is, too. -/
def identifier : Parse String := do
  let t ← next
  let name := nameOf t.text
  if isNameToken t && Text.isIdentifier name.toList then return name else failure

/-- Whether a name and the given operator come next. -/
def seesNameAnd (word : String) : Parse Bool := do
  match (← get).rest with
  | t :: u :: _ => return isNameToken t && isWord word u
  | _ => return false

/-! ## Alternatives and repetition -/

/-- Reads something if it is there. -/
def optional? (p : Parse α) : Parse (Option α) := (some <$> p) <|> pure none

/-- Reads at most `fuel` times, until nothing more is there. -/
def repeatUpTo (p : Parse (Option α)) : Nat → Parse (List α)
  | 0 => return []
  | fuel + 1 => do
    match ← p with
    | none => return []
    | some a => return a :: (← repeatUpTo p fuel)

/-- Reads until nothing more is there. -/
def repeated (p : Parse (Option α)) : Parse (List α) := do
  repeatUpTo p ((← get).rest.length + 1)

/-- Goes on from a value at most `fuel` times, until nothing more is there. -/
def extendUpTo (step : α → Parse (Option α)) : Nat → α → Parse α
  | 0, a => return a
  | fuel + 1, a => do
    match ← step a with
    | none => return a
    | some b => extendUpTo step fuel b

/-- Goes on from a value until nothing more is there. -/
def extended (step : α → Parse (Option α)) (a : α) : Parse α := do
  extendUpTo step ((← get).rest.length + 1) a

/-- One or more items with commas between them; tells whether a comma stands at the end. -/
def commaSeparated (item : Parse α) : Parse (List α × Bool) := do
  let first ← item
  let rest ← repeated (optional? do expect ","; item)
  return (first :: rest, ← accept ",")

/-- One or more items with commas between them and none at the end. -/
def commaJoined (item : Parse α) : Parse (List α) := do
  let first ← item
  return first :: (← repeated (optional? do expect ","; item))

end Parse

end ModelLint.Source
