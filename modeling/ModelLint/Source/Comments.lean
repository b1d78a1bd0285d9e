import ModelLint.Source.Token
import ModelLint.Text.Blank

/-!
# Comments

A comment runs from a `#` outside string literals to the end of its line. The scan for comments is
more tolerant than the scan for tokens: a quote that is not closed on its line is skipped, unless a
backslash joins the next line, and so is every odd character. Only a tripled quote or a bracket
that is never closed, a joined line that is missing, and a line that returns to an indentation that
was never used are refused. Lines end with line feeds only.
-/

namespace ModelLint.Source

/-- The state of the scan for comments. -/
structure CommentScan where
  /-- The quote of the string literal that is open, and whether it is tripled. -/
  quote : Option (Char × Bool)
  /-- Whether each line of the open literal has to join the next; once a joined literal was broken
  off, this holds until a literal of several lines is closed. -/
  needsJoin : Bool
  /-- The number of open brackets. -/
  brackets : Int
  /-- Whether a backslash joins the line to the one before. -/
  isJoined : Bool
  /-- The indentations in use, innermost first. -/
  indents : List Nat
  /-- The comments with their lines, the last first. -/
  found : List (Nat × String)

namespace CommentScan

/-! ## String literals -/

/-- The number of characters up to the end of a string literal that is closed on the line. -/
def closedAfter? (quote : Char) (isTripled : Bool) : List Char → Option Nat
  | [] => none
  | '\\' :: c :: rest => if c = '\n' then none else (closedAfter? quote isTripled rest).map (· + 2)
  | c :: rest =>
    if c = '\\' then none
    else if c ≠ quote then (closedAfter? quote isTripled rest).map (· + 1)
    else if !isTripled then some 1
    else if rest.take 2 = [quote, quote] then some 3
    else (closedAfter? quote isTripled rest).map (· + 1)

/-- Whether a string literal is open at the end of a line that joins the next. -/
def joins (quote : Char) : List Char → Bool
  | '\\' :: '\n' :: _ => true
  | '\\' :: '\r' :: '\n' :: _ => true
  | '\\' :: _ :: rest => joins quote rest
  | c :: rest => c ≠ quote && c ≠ '\n' && c ≠ '\\' && joins quote rest
  | [] => false

/-- Whether a line ends with a backslash. -/
def endsWithBackslash (line : List Char) : Bool :=
  ['\\', '\n'].isSuffixOf line || ['\\', '\r', '\n'].isSuffixOf line

/-! ## Lines -/

/-- Whether a character ends a line. -/
def isLineEnd (c : Char) : Bool := c = '\r' || c = '\n'

/-- Adds a comment. -/
def addComment (s : CommentScan) (line : Nat) (text : List Char) : CommentScan :=
  { s with found := (line, String.ofList text) :: s.found }

/-- Scans a line or the rest of it. -/
def scanText (line : Nat) (s : CommentScan) (cs : List Char) : CommentScan :=
  match cs with
  | [] => s
  | c :: rest =>
    if c = '#' then
      let comment := rest.takeWhile fun c => !isLineEnd c
      scanText line (s.addComment line (c :: comment)) (rest.drop comment.length)
    else if c = '\\' ∧ (rest.head? = some '\n' ∨ rest.take 2 = ['\r', '\n']) then
      scanText line { s with isJoined := true } rest
    else if c = '\'' ∨ c = '"' then
      if rest.take 2 = [c, c] then
        match closedAfter? c true (rest.drop 2) with
        | some n => scanText line s (rest.drop (2 + n))
        | none => { s with quote := some (c, true) }
      else
        match closedAfter? c false rest with
        | some n => scanText line s (rest.drop n)
        | none =>
          if joins c rest then { s with quote := some (c, false), needsJoin := true }
          else scanText line s rest
    else if c = '(' ∨ c = '[' ∨ c = '\x7b' then
      scanText line { s with brackets := s.brackets + 1 } rest
    else if c = ')' ∨ c = ']' ∨ c = '\x7d' then
      scanText line { s with brackets := s.brackets - 1 } rest
    else scanText line s rest
termination_by cs.length
decreasing_by all_goals simp only [List.length_drop, List.length_cons]; omega

/-- The indentation of a line, and what follows it. -/
def indentation (column : Nat) : List Char → Nat × List Char
  | ' ' :: rest => indentation (column + 1) rest
  | '\t' :: rest => indentation ((column / 8 + 1) * 8) rest
  | '\x0c' :: rest => indentation 0 rest
  | rest => (column, rest)

/-- The indentations in use from a line on; a line returns to one in use. -/
def indent? (column : Nat) (indents : List Nat) : Option (List Nat) :=
  if indents.headD 0 < column then some (column :: indents)
  else if indents.contains column then some (indents.dropWhile (column < ·))
  else none

/-- Scans a line. -/
def scanLine (s : CommentScan) (line : Nat) (cs : List Char) : Option CommentScan :=
  match s.quote with
  | some (quote, isTripled) =>
    match closedAfter? quote isTripled cs with
    | some n => some (scanText line { s with quote := none, needsJoin := false } (cs.drop n))
    | none =>
      if s.needsJoin && !endsWithBackslash cs then some { s with quote := none } else some s
  | none =>
    if s.brackets ≠ 0 ∨ s.isJoined then some (scanText line { s with isJoined := false } cs)
    else
      let (column, rest) := indentation 0 cs
      match rest with
      | [] => some s
      | c :: _ =>
        if c = '#' then some (s.addComment line (Text.dropEndWhile isLineEnd rest))
        else if isLineEnd c then some s
        else do
          let indents ← indent? column s.indents
          return scanText line { s with indents } rest

/-- The lines of a text with their line feeds. -/
def lines : List Char → List (List Char)
  | [] => []
  | '\n' :: rest => ['\n'] :: lines rest
  | c :: rest =>
    match lines rest with
    | [] => [[c]]
    | line :: more => (c :: line) :: more

/-- Scans lines from the given number on. -/
def scanLines (s : CommentScan) (line : Nat) : List (List Char) → Option CommentScan
  | [] => some s
  | cs :: rest => do scanLines (← s.scanLine line cs) (line + 1) rest

end CommentScan

/-- The comments of a source text by line; of two on a line the last counts. -/
def comments? (source : String) : Option (List (Int × String)) := do
  let s ← CommentScan.scanLines ⟨none, false, 0, false, [0], []⟩ 1 (CommentScan.lines source.toList)
  if s.quote.isSome ∨ s.brackets ≠ 0 ∨ s.isJoined then none
  else
    let found := s.found.foldl (fun (later : List (Int × String)) (line, text) =>
      if later.head?.any (·.1 = (line : Int)) then later else ((line : Int), text) :: later) []
    return found

end ModelLint.Source
