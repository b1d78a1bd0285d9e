/-!
# Places in a YAML text

A `Cursor` is what is left of a text together with the place it stands at. Lines and columns count
from zero; a byte order mark takes no column. The line ends of YAML are those of the Latin range
and the two separators of lines and paragraphs; the former all read as a line feed.
-/

namespace ModelLint.Yaml

/-- Whether a character ends a line. -/
def isBreak (c : Char) : Bool :=
  c = '\n' || c = '\r' || c = '\x85' || c = '\u2028' || c = '\u2029'

/-- Whether a character separates: a blank, a tabulator or a line end. -/
def isGap (c : Char) : Bool := c = ' ' || c = '\t' || isBreak c

/-- Whether a text is at its end or goes on with a character of a class. -/
def endsOr (p : Char → Bool) : List Char → Bool
  | [] => true
  | c :: _ => p c

/-- Whether a text starts with the mark of a document's start or end, set apart from what follows. -/
def atDocumentMark : List Char → Bool
  | '-' :: '-' :: '-' :: rest => endsOr isGap rest
  | '.' :: '.' :: '.' :: rest => endsOr isGap rest
  | _ => false

/-- A place in a text. -/
structure Cursor where
  /-- What is left. -/
  rest : List Char
  /-- The number of characters before the place. -/
  index : Nat
  /-- The number of lines before the place. -/
  line : Nat
  /-- The column of the place. -/
  column : Nat

namespace Cursor

/-- The start of a text. -/
def start (text : List Char) : Cursor := ⟨text, 0, 0, 0⟩

/-- The next character. -/
def head? (c : Cursor) : Option Char := c.rest.head?

/-- The place behind the next character. -/
def next (c : Cursor) : Cursor :=
  match c.rest with
  | [] => c
  | '\r' :: '\n' :: rest => ⟨'\n' :: rest, c.index + 1, c.line, c.column + 1⟩
  | a :: rest =>
    if isBreak a then ⟨rest, c.index + 1, c.line + 1, 0⟩
    else if a = '\ufeff' then ⟨rest, c.index + 1, c.line, c.column⟩
    else ⟨rest, c.index + 1, c.line, c.column + 1⟩

/-- The place behind a number of characters. -/
def skip : Nat → Cursor → Cursor
  | 0, c => c
  | n + 1, c => skip n c.next

/-- The longest run of a class and the place behind it. -/
def span (p : Char → Bool) (c : Cursor) : List Char × Cursor :=
  let run := c.rest.takeWhile p
  (run, c.skip run.length)

/-- The place behind the longest run of a class. -/
def skipWhile (p : Char → Bool) (c : Cursor) : Cursor := (c.span p).2

/-- The line end at the place, as it is read, and the place behind it. -/
def break? (c : Cursor) : Option (Char × Cursor) :=
  match c.rest with
  | '\r' :: '\n' :: _ => some ('\n', c.skip 2)
  | a :: _ =>
    if a = '\u2028' ∨ a = '\u2029' then some (a, c.next)
    else if isBreak a then some ('\n', c.next)
    else none
  | [] => none

/-- The place behind blanks and a comment, if the line ends there. -/
def lineEnd? (c : Cursor) : Option Cursor :=
  let c := c.skipWhile (· = ' ')
  let c := if c.head? = some '#' then c.skipWhile fun a => !isBreak a else c
  match c.break?, c.rest with
  | some (_, after), _ => some after
  | none, [] => some c
  | none, _ => none

end Cursor

/-- A line end and those after it inside a folded text: a single line feed becomes a blank, and
further ones stay. -/
def foldBreaks (first : Char) (more : List Char) : List Char :=
  if first ≠ '\n' then first :: more else if more = [] then [' '] else more

end ModelLint.Yaml
