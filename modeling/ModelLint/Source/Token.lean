import ModelLint.Text.Decoding
import ModelLint.Text.Identifier

/-!
# Tokens of Python source

`Token.scan?` cuts a source text into tokens, or finds that the text has none. Lines end with a
line feed, a carriage return or both; the scan sees line feeds only, and one at the end of the
text. A logical line ends with a `newline` token unless a bracket is open. An `indent` or `dedent`
token stands where the indentation of logical lines changes; it is measured twice, with tabs to
every eighth column and with tabs of width one, and both measures have to agree on every
comparison.

Columns count the bytes of the UTF-8 form, from zero.
-/

namespace ModelLint.Source

/-- A place in a source text. -/
structure Position where
  /-- The line, from one. -/
  line : Nat
  /-- The byte in the line, from zero. -/
  column : Nat
deriving DecidableEq, Inhabited

/-- The place behind a character. -/
def Position.next (p : Position) (c : Char) : Position :=
  if c = '\n' then ⟨p.line + 1, 0⟩ else ⟨p.line, p.column + c.utf8Size⟩

/-- The place behind a text. -/
def Position.after (p : Position) (cs : List Char) : Position := cs.foldl Position.next p

/-- The class of a token. -/
inductive TokenKind where
  /-- A name or keyword. -/
  | name
  /-- A number. -/
  | number
  /-- A string literal with its letters and quotes. -/
  | string
  /-- An operator or delimiter. -/
  | operator
  /-- The end of a logical line. -/
  | newline
  /-- The start of a deeper block. -/
  | indent
  /-- The end of a block. -/
  | dedent
  /-- The end of the text. -/
  | finish
deriving DecidableEq, Inhabited

/-- A token. -/
structure Token where
  /-- The class. -/
  kind : TokenKind
  /-- The text. -/
  text : String
  /-- Where it starts. -/
  start : Position
  /-- Where it stops. -/
  stop : Position
deriving DecidableEq, Inhabited

namespace Token

/-! ## Line ends -/

/-- The text with line feeds as its only line ends and a line feed at its end. A line end of two
characters at the end of the text counts as one more. -/
def closeLastLine (source : List Char) : List Char :=
  let cs := Text.unifyLineEnds source
  if cs.getLast? = some '\n' ∧ ¬ ['\r', '\n'].isSuffixOf source then cs else cs ++ ['\n']

/-! ## Names and strings -/

/-- Whether a character may be part of a name as far as the scan is concerned; characters outside
the Latin base range are checked once the name is complete. -/
def isNameChar (c : Char) : Bool := c.isAlphanum || c = '_' || c.toNat ≥ 128

/-- Whether a name may start with the character, with the same proviso. -/
def isNameStart (c : Char) : Bool := c.isAlpha || c = '_' || c.toNat ≥ 128

/-- The letters that may stand before the quotes of a string literal, in lower case. -/
def stringLetters : List String := ["r", "u", "b", "f", "br", "rb", "fr", "rf"]

/-- Whether a name is the letters of a string literal. -/
def areStringLetters (cs : List Char) : Bool :=
  stringLetters.contains (String.ofList (cs.map Char.toLower))

/-- The rest of a string literal on one line behind its opening quote, and what follows. -/
def shortString (quote : Char) : List Char → Option (List Char × List Char)
  | [] => none
  | '\\' :: c :: rest => (shortString quote rest).map fun (s, after) => ('\\' :: c :: s, after)
  | c :: rest =>
    if c = quote then some ([c], rest)
    else if c = '\n' ∨ c = '\\' then none
    else (shortString quote rest).map fun (s, after) => (c :: s, after)

/-- The rest of a string literal with tripled quotes, and what follows. -/
def longString (quote : Char) : List Char → Option (List Char × List Char)
  | [] => none
  | '\\' :: c :: rest => (longString quote rest).map fun (s, after) => ('\\' :: c :: s, after)
  | c :: rest =>
    if c = '\\' then none
    else if [c, c] = rest.take 2 ∧ c = quote then some ([c, c, c], rest.drop 2)
    else (longString quote rest).map fun (s, after) => (c :: s, after)

/-- A string literal at its opening quote, and what follows. -/
def quoted : List Char → Option (List Char × List Char)
  | [] => none
  | q :: rest =>
    if rest.take 2 = [q, q] then
      (longString q (rest.drop 2)).map fun (s, after) => (q :: q :: q :: s, after)
    else (shortString q rest).map fun (s, after) => (q :: s, after)

/-! ## Numbers -/

/-- Whether a character is an octal digit. -/
def isOctal (c : Char) : Bool := '0' ≤ c && c ≤ '7'

/-- Whether a character is a binary digit. -/
def isBinary (c : Char) : Bool := c = '0' || c = '1'

/-- Whether a character is a hexadecimal digit. -/
def isHex (c : Char) : Bool := c.isDigit || ('a' ≤ c && c ≤ 'f') || ('A' ≤ c && c ≤ 'F')

/-- Digits with single underscores between them, and what follows; an underscore that is not
followed by a digit is refused. -/
def digitRun (isDigit : Char → Bool) : List Char → Option (List Char × List Char)
  | '_' :: c :: rest =>
    if isDigit c then (digitRun isDigit rest).map fun (ds, after) => ('_' :: c :: ds, after)
    else none
  | c :: rest =>
    if isDigit c then (digitRun isDigit rest).map fun (ds, after) => (c :: ds, after)
    else if c = '_' then none
    else some ([], c :: rest)
  | [] => some ([], [])

/-- Digits of another base; an underscore may stand before the first. -/
def basedDigits (isDigit : Char → Bool) (cs : List Char) : Option (List Char × List Char) :=
  match cs with
  | '_' :: _ => digitRun isDigit cs
  | c :: _ => if isDigit c then digitRun isDigit cs else none
  | [] => none

/-- Whether a keyword starts a text and ends there. -/
def startsWord (word : List Char) (cs : List Char) : Bool :=
  word.isPrefixOf cs && !(cs.drop word.length).head?.any isNameChar

/-- Whether a number may end before a text: a name must not follow, with the exception of the
keywords that can stand behind a number. -/
def mayEndNumber (cs : List Char) : Bool :=
  ["and", "else", "for", "or", "not"].any (fun word => startsWord word.toList cs) ||
    ["if", "in", "is"].any (fun word => word.toList.isPrefixOf cs) ||
    !cs.head?.any isNameChar

/-- A number followed by a text, if it may end there. -/
def endNumber (number after : List Char) : Option (List Char × List Char) :=
  if mayEndNumber after then some (number, after) else none

/-- The imaginary unit behind a number, or its end. -/
def imaginaryPart (number rest : List Char) : Option (List Char × List Char) :=
  match rest with
  | c :: after => if c = 'j' ∨ c = 'J' then endNumber (number ++ [c]) after else endNumber number rest
  | [] => endNumber number rest

/-- The exponent behind a number, or what may follow it. -/
def exponentPart (number rest : List Char) : Option (List Char × List Char) :=
  match rest with
  | e :: after =>
    if e = 'e' ∨ e = 'E' then
      let (sign, digits) := match after with
        | '+' :: ds => (['+'], ds)
        | '-' :: ds => (['-'], ds)
        | ds => ([], ds)
      if digits.head?.any Char.isDigit then do
        let (ds, after) ← digitRun Char.isDigit digits
        imaginaryPart (number ++ e :: sign ++ ds) after
      else if sign = [] then endNumber number rest
      else none
    else imaginaryPart number rest
  | [] => imaginaryPart number rest

/-- The fraction behind a point, and what may follow it. -/
def fractionPart (number rest : List Char) : Option (List Char × List Char) :=
  if rest.head?.any Char.isDigit then do
    let (ds, after) ← digitRun Char.isDigit rest
    exponentPart (number ++ ds) after
  else exponentPart number rest

/-- Whether digits are a decimal integer: they have no leading zero, or are all zero. -/
def isPlainInteger (ds : List Char) : Bool :=
  ds.head? ≠ some '0' || ds.all fun c => c = '0' || c = '_'

/-- A number, and what follows. -/
def number (cs : List Char) : Option (List Char × List Char) :=
  let based (isDigit : Char → Bool) (lead digits : List Char) : Option (List Char × List Char) := do
    let (ds, after) ← basedDigits isDigit digits
    if after.head?.any Char.isDigit then none else endNumber (lead ++ ds) after
  match cs with
  | '0' :: 'x' :: rest => based isHex ['0', 'x'] rest
  | '0' :: 'X' :: rest => based isHex ['0', 'X'] rest
  | '0' :: 'o' :: rest => based isOctal ['0', 'o'] rest
  | '0' :: 'O' :: rest => based isOctal ['0', 'O'] rest
  | '0' :: 'b' :: rest => based isBinary ['0', 'b'] rest
  | '0' :: 'B' :: rest => based isBinary ['0', 'B'] rest
  | '.' :: rest => fractionPart ['.'] rest
  | _ => do
    let (ds, after) ← digitRun Char.isDigit cs
    match after with
    | '.' :: rest => fractionPart (ds ++ ['.']) rest
    | c :: _ =>
      if c = 'e' ∨ c = 'E' then
        let (text, after) ← exponentPart ds after
        if text = ds ∧ !isPlainInteger ds then none else some (text, after)
      else if c = 'j' ∨ c = 'J' then imaginaryPart ds after
      else if isPlainInteger ds then endNumber ds after
      else none
    | [] => if isPlainInteger ds then endNumber ds after else none

/-! ## Operators -/

/-- The operators and delimiters, longer ones first. -/
def operators : List String :=
  ["**=", "//=", "<<=", ">>=", "...", "!=", "%=", "&=", "**", "*=", "+=", "-=", "->", "//", "/=",
    ":=", "<<", "<=", "==", ">=", ">>", "@=", "^=", "|=", "%", "&", "(", ")", "*", "+", ",", "-",
    ".", "/", ":", ";", "<", "=", ">", "@", "[", "]", "^", "\x7b", "|", "\x7d", "~"]

/-- The operator at the start of a text. -/
def operator? (cs : List Char) : Option String :=
  if ['<', '>'].isPrefixOf cs then none else operators.find? fun op => op.toList.isPrefixOf cs

/-- The bracket that closes an opening one. -/
def closingOf : String → Option String
  | "(" => some ")"
  | "[" => some "]"
  | "\x7b" => some "\x7d"
  | _ => none

/-! ## Indentation -/

/-- The indentation of a line under both measures, and where its text starts. -/
structure Indentation where
  /-- The column with tabs to every eighth column. -/
  column : Nat
  /-- The column with tabs of width one. -/
  narrow : Nat
  /-- The column of the first backslash that joins the next line, or zero. -/
  joined : Nat
  /-- Where the text starts. -/
  position : Position

/-- Measures the indentation of a line; a backslash at its end joins the next line. -/
def Indentation.measure (i : Indentation) : List Char → Option (Indentation × List Char)
  | ' ' :: rest =>
    measure { i with column := i.column + 1, narrow := i.narrow + 1, position := i.position.next ' ' }
      rest
  | '\t' :: rest =>
    measure
      { i with column := (i.column / 8 + 1) * 8, narrow := i.narrow + 1,
               position := i.position.next '\t' } rest
  | '\x0c' :: rest => measure { i with column := 0, narrow := 0, position := i.position.next '\x0c' } rest
  | '\\' :: '\n' :: c :: rest =>
    measure
      { i with joined := if i.joined = 0 then i.column else i.joined,
               position := ⟨i.position.line + 1, 0⟩ } (c :: rest)
  | '\\' :: _ => none
  | rest => some (i, rest)

/-- The indentation that counts. -/
def Indentation.effective (i : Indentation) : Nat × Nat :=
  if i.joined = 0 then (i.column, i.narrow) else (i.joined, i.joined)

/-- The greatest number of blocks inside each other, the outermost included. -/
def maxBlocks : Nat := 100

/-- The greatest number of brackets inside each other. -/
def maxBrackets : Nat := 200

/-- Closes the blocks that are deeper than an indentation; counts them. -/
def closeBlocks (column : Nat) : List (Nat × Nat) → Nat × List (Nat × Nat)
  | (c, n) :: rest =>
    if column < c ∧ rest ≠ [] then
      let (count, open') := closeBlocks column rest
      (count + 1, open')
    else (0, (c, n) :: rest)
  | [] => (0, [])

/-- The open blocks, innermost first, after a line of the given indentation, and the tokens that
open or close blocks. -/
def enterLine (indentation : Nat × Nat) (p : Position) (blocks : List (Nat × Nat)) :
    Option (List Token × List (Nat × Nat)) :=
  let (column, narrow) := indentation
  match blocks with
  | [] => none
  | (c, n) :: _ =>
    if column = c then if narrow = n then some ([], blocks) else none
    else if c < column then
      if blocks.length ≥ maxBlocks ∨ narrow ≤ n then none
      else some ([⟨.indent, "", p, p⟩], (column, narrow) :: blocks)
    else
      let (count, blocks) := closeBlocks column blocks
      if blocks.head? = some (column, narrow) then
        some (List.replicate count ⟨.dedent, "", p, p⟩, blocks)
      else none

/-! ## The scan -/

/-- The state of the scan. -/
structure Scan where
  /-- What is left. -/
  rest : List Char
  /-- Where it starts. -/
  position : Position
  /-- Whether a line starts here. -/
  atLineStart : Bool
  /-- Whether the line holds no token. -/
  isBlank : Bool
  /-- The open blocks, innermost first. -/
  blocks : List (Nat × Nat)
  /-- The closing brackets that are awaited, innermost first. -/
  brackets : List String
  /-- The tokens so far, last first. -/
  tokens : List Token

/-- Takes a token off the rest. -/
def Scan.take (s : Scan) (kind : TokenKind) (text rest : List Char) : Scan :=
  let stop := s.position.after text
  { s with
    rest, position := stop, tokens := ⟨kind, String.ofList text, s.position, stop⟩ :: s.tokens }

/-- Starts a line: opens and closes blocks unless the line is blank or inside brackets. -/
def Scan.startLine (s : Scan) : Option Scan := do
  let (i, rest) ← Indentation.measure ⟨0, 0, 0, s.position⟩ s.rest
  let s := { s with rest, position := i.position, atLineStart := false, isBlank := false }
  if rest.head? = some '#' ∨ rest.head? = some '\n' then return { s with isBlank := true }
  else if s.brackets ≠ [] then return s
  else
    let (tokens, blocks) ← enterLine i.effective s.position s.blocks
    return { s with blocks, tokens := tokens ++ s.tokens }

/-- Takes an operator off the rest; brackets have to match. -/
def Scan.operator (s : Scan) : Option Scan := do
  let text ← operator? s.rest
  let s' := s.take .operator text.toList (s.rest.drop text.length)
  match closingOf text with
  | some closing =>
    if s.brackets.length ≥ maxBrackets then none
    else return { s' with brackets := closing :: s.brackets }
  | none =>
    if text = ")" ∨ text = "]" ∨ text = "\x7d" then
      match s.brackets with
      | awaited :: outer => if awaited = text then return { s' with brackets := outer } else none
      | [] => none
    else return s'

/-- Takes the next token, blank or comment off the rest. -/
def Scan.step (s : Scan) : Option Scan :=
  match s.rest with
  | [] => none
  | c :: rest =>
    if c = ' ' ∨ c = '\t' ∨ c = '\x0c' then
      some { s with rest, position := s.position.next c }
    else if c = '#' then
      let (comment, after) := s.rest.span (· ≠ '\n')
      some { s with rest := after, position := s.position.after comment }
    else if c = '\n' then
      let s' := if s.isBlank ∨ s.brackets ≠ [] then { s with rest, position := s.position.next c }
        else { s.take .newline [] rest with rest, position := s.position.next c }
      some { s' with atLineStart := true }
    else if c = '\\' then
      match rest with
      | '\n' :: d :: after =>
        some { s with rest := d :: after, position := ⟨s.position.line + 1, 0⟩ }
      | _ => none
    else if isNameStart c then
      let (name, after) := s.rest.span isNameChar
      if areStringLetters name && after.head?.any (fun q => q = '"' || q = '\'') then
        (quoted after).map fun (text, after) => s.take .string (name ++ text) after
      else if Text.isIdentifier name then some (s.take .name name after)
      else none
    else if c.isDigit || (c = '.' && rest.head?.any Char.isDigit) then
      (number s.rest).map fun (text, after) => s.take .number text after
    else if c = '"' ∨ c = '\'' then
      (quoted s.rest).map fun (text, after) => s.take .string text after
    else s.operator

/-- Scans to the end, in at most `fuel` steps. -/
def Scan.run : Nat → Scan → Option Scan
  | 0, _ => none
  | fuel + 1, s =>
    if s.atLineStart then s.startLine.bind (run fuel)
    else if s.rest = [] then if s.brackets = [] then some s else none
    else s.step.bind (run fuel)

/-- The tokens of a text that starts at a place; the last one is `finish`. -/
def scanFrom? (p : Position) (source : List Char) : Option (List Token) := do
  let cs := closeLastLine source
  if cs.contains '\x00' then none
  let s ← Scan.run (3 * cs.length + 3) ⟨cs, p, true, false, [(0, 0)], [], []⟩
  return (⟨.finish, "", s.position, s.position⟩ :: s.tokens).reverse

/-- The tokens of a source text. -/
def scan? (source : String) : Option (List Token) := scanFrom? ⟨1, 0⟩ source.toList

end Token

end ModelLint.Source
