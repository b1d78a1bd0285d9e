import ModelLint.Text.CodeTable
import ModelLint.Yaml.Cursor

/-!
# Written forms of scalars

A scalar is written in quotes, plainly, or as a block of lines. Each form has a reader from its
place to its text and the place behind it. Line ends inside quoted and plain scalars fold; those of
a block stay or fold as its header says.

Every reader moves on with each step, so the number of characters left bounds its steps.
-/

namespace ModelLint.Yaml

/-! ## Quoted scalars -/

/-- The character that a letter stands for behind a backslash. -/
def escaped? : Char → Option Char
  | '0' => some '\x00'
  | 'a' => some '\x07'
  | 'b' => some '\x08'
  | 't' | '\t' => some '\t'
  | 'n' => some '\n'
  | 'v' => some '\x0b'
  | 'f' => some '\x0c'
  | 'r' => some '\r'
  | 'e' => some '\x1b'
  | ' ' => some ' '
  | '"' => some '"'
  | '\\' => some '\\'
  | '/' => some '/'
  | 'N' => some '\x85'
  | '_' => some '\xa0'
  | 'L' => some '\u2028'
  | 'P' => some '\u2029'
  | _ => none

/-- The number of hexadecimal digits that follow a letter behind a backslash. -/
def escapeWidth? : Char → Option Nat
  | 'x' => some 2
  | 'u' => some 4
  | 'U' => some 8
  | _ => none

/-- The character of a code in hexadecimal digits. -/
def codeChar? (digits : List Char) : Option Char := do
  let values ← digits.mapM CodeTable.digitValue
  let code := values.foldl (fun n d => 16 * n + d) 0
  if code < 0x110000 then some (Char.ofNat code) else none

/-- The line ends that follow inside quotes, blanks left out; a mark of a document must not
follow. -/
def quotedBreaks : Nat → Cursor → Option (List Char × Cursor)
  | 0, _ => none
  | fuel + 1, c =>
    if atDocumentMark c.rest then none
    else
      let c := c.skipWhile fun a => a = ' ' || a = '\t'
      match c.break? with
      | some (b, c) => (quotedBreaks fuel c).map fun (more, c) => (b :: more, c)
      | none => some ([], c)

/-- What a backslash inside double quotes stands for, from the character behind it. -/
def escape? (c : Cursor) : Option (List Char × Cursor) :=
  match c.rest, c.break? with
  | _, some (_, after) => quotedBreaks (after.rest.length + 1) after
  | e :: digits, none =>
    match escaped? e, escapeWidth? e with
    | some a, _ => some ([a], c.next)
    | none, some width =>
      if digits.length < width then none
      else (codeChar? (digits.take width)).map fun a => ([a], c.skip (width + 1))
    | none, none => none
  | [], none => none

/-- What a gap inside quotes stands for. -/
def quotedGap? (c : Cursor) : Option (List Char × Cursor) :=
  let (blanks, c) := c.span fun a => a = ' ' || a = '\t'
  match c.break? with
  | some (b, after) =>
    (quotedBreaks (after.rest.length + 1) after).map fun (more, c) => (foldBreaks b more, c)
  | none => if c.rest = [] then none else some (blanks, c)

/-- The text up to the closing quote and the place behind it; `acc` holds what was read, last
first. -/
def quotedFrom (quote : Char) : Nat → List Char → Cursor → Option (List Char × Cursor)
  | 0, _, _ => none
  | fuel + 1, acc, c =>
    match c.rest with
    | [] => none
    | a :: rest =>
      if a = quote then
        if quote = '\'' ∧ rest.head? = some '\'' then quotedFrom quote fuel ('\'' :: acc) (c.skip 2)
        else some (acc.reverse, c.next)
      else if a = '\\' ∧ quote = '"' then do
        let (text, c) ← escape? c.next
        quotedFrom quote fuel (text.reverse ++ acc) c
      else if isGap a then do
        let (text, c) ← quotedGap? c
        quotedFrom quote fuel (text.reverse ++ acc) c
      else quotedFrom quote fuel (a :: acc) c.next

/-- The text in quotes and the place behind it. -/
def quoted? (quote : Char) (c : Cursor) : Option (List Char × Cursor) :=
  quotedFrom quote (c.rest.length + 1) [] c.next

/-! ## Plain scalars -/

/-- Whether a plain scalar stops before a character, from what follows it. -/
def stopsPlain (inFlow : Bool) (a : Char) (rest : List Char) : Bool :=
  let closes (b : Char) : Bool := b = ',' || b = '[' || b = ']' || b = '\x7b' || b = '\x7d'
  isGap a || (a = ':' && endsOr (fun b => isGap b || (inFlow && closes b)) rest) ||
    (inFlow && (closes a || a = '?'))

/-- The run of a plain scalar up to a gap or its end. -/
def plainRun (inFlow : Bool) : List Char → List Char
  | [] => []
  | a :: rest => if stopsPlain inFlow a rest then [] else a :: plainRun inFlow rest

/-- The line ends that follow a line of a plain scalar, blanks left out; none if a mark of a
document follows one. -/
def plainBreaks : Nat → Cursor → Option (List Char) × Cursor
  | 0, c => (some [], c)
  | fuel + 1, c =>
    let c := c.skipWhile (· = ' ')
    match c.break? with
    | some (b, c) =>
      if atDocumentMark c.rest then (none, c)
      else
        let (more, c) := plainBreaks fuel c
        (more.map (b :: ·), c)
    | none => (some [], c)

/-- The gap behind a run of a plain scalar: what it stands for, whether it ends the line, and the
place behind it. -/
def plainGap (c : Cursor) : List Char × Bool × Cursor :=
  let (blanks, c) := c.span (· = ' ')
  match c.break? with
  | some (b, c) =>
    if atDocumentMark c.rest then ([], true, c)
    else
      let (more, c) := plainBreaks (c.rest.length + 1) c
      (more.elim [] (foldBreaks b), true, c)
  | none => (blanks, false, c)

/-- A plain scalar from a run on: its text, whether its last gap ends a line, and the place behind
that gap. Lines after the first are indented to at least the given column. -/
def plainFrom (inFlow : Bool) (indent : Int) :
    Nat → List Char → List Char → Bool → Cursor → List Char × Bool × Cursor
  | 0, acc, _, crossed, c => (acc, crossed, c)
  | fuel + 1, acc, gap, crossed, c =>
    let run := plainRun inFlow c.rest
    if run = [] ∨ c.head? = some '#' then (acc, crossed, c)
    else
      let acc := acc ++ gap ++ run
      let (gap, crossed, c) := plainGap (c.skip run.length)
      if gap = [] ∨ (!inFlow ∧ (c.column : Int) < indent) then (acc, crossed, c)
      else plainFrom inFlow indent fuel acc gap crossed c

/-- The plain scalar at a place. -/
def plain (inFlow : Bool) (indent : Int) (c : Cursor) : List Char × Bool × Cursor :=
  plainFrom inFlow indent (c.rest.length + 1) [] [] false c

/-! ## Block scalars -/

/-- How the line ends at the end of a block are kept. -/
inductive Chomping where
  /-- None is kept. -/
  | strip
  /-- One is kept. -/
  | clip
  /-- All are kept. -/
  | keep
deriving DecidableEq

/-- The kind of chomping of a sign. -/
def Chomping.ofSign? : Char → Option Chomping
  | '+' => some .keep
  | '-' => some .strip
  | _ => none

/-- The indentation that a digit gives. -/
def indentDigit? (c : Char) : Option Nat :=
  if '1' ≤ c ∧ c ≤ '9' then some (c.toNat - '0'.toNat) else none

/-- The header of a block: its chomping, its indentation, and the place of its first line. -/
def blockHeader? (c : Cursor) : Option (Chomping × Option Nat × Cursor) := do
  let sign := c.head?.bind Chomping.ofSign?
  let c := if sign.isSome then c.next else c
  let digit := c.head?.bind indentDigit?
  let c := if digit.isSome then c.next else c
  let late := if sign.isNone ∧ digit.isSome then c.head?.bind Chomping.ofSign? else none
  let c := if late.isSome then c.next else c
  if endsOr (fun a => a = ' ' || isBreak a) c.rest then
    return ((sign.or late).getD .clip, digit, ← c.lineEnd?)
  else none

/-- The line ends before a block and the greatest column of the blanks between them. -/
def leadingBreaks : Nat → Nat → Cursor → List Char × Nat × Cursor
  | 0, greatest, c => ([], greatest, c)
  | fuel + 1, greatest, c =>
    let c := c.skipWhile (· = ' ')
    let greatest := max greatest c.column
    match c.break? with
    | some (b, c) =>
      let (more, greatest, c) := leadingBreaks fuel greatest c
      (b :: more, greatest, c)
    | none => ([], greatest, c)

/-- The place behind the blanks before a column. -/
def skipIndent (column : Nat) (c : Cursor) : Cursor :=
  c.skip ((c.rest.takeWhile (· = ' ')).length.min (column - c.column))

/-- The line ends of the empty lines at a place, and the place in the line behind them. -/
def blockBreaks (indent : Nat) : Nat → Cursor → List Char × Cursor
  | 0, c => ([], c)
  | fuel + 1, c =>
    let c := skipIndent indent c
    match c.break? with
    | some (b, c) =>
      let (more, c) := blockBreaks indent fuel c
      (b :: more, c)
    | none => ([], c)

/-- Whether a place is in a line of a block. -/
def inBlock (indent : Nat) (c : Cursor) : Bool := c.column = indent && c.rest ≠ []

/-- The lines of a block: `breaks` are the line ends before the line. The result is the text
without what chomping concerns, the last line end, the line ends behind it, and the place. -/
def blockLines (isFolded : Bool) (indent : Nat) :
    Nat → List Char → List Char → Cursor → List Char × List Char × List Char × Cursor
  | 0, acc, breaks, c => (acc, [], breaks, c)
  | fuel + 1, acc, breaks, c =>
    let isText (c : Cursor) : Bool := !c.head?.any fun a => a = ' ' || a = '\t'
    let startsWithText := isText c
    let (line, c) := c.span fun a => !isBreak a
    let acc := acc ++ breaks ++ line
    let (last, c) := match c.break? with
      | some (b, c) => ([b], c)
      | none => ([], c)
    let (breaks, c) := blockBreaks indent (c.rest.length + 1) c
    if inBlock indent c then
      let isJoined := isFolded && last == ['\n'] && startsWithText && isText c
      let between := if !isJoined then last else if breaks = [] then [' '] else []
      blockLines isFolded indent fuel (acc ++ between) breaks c
    else (acc, last, breaks, c)

/-- The text of a block whose parent is indented to a column, and the place behind it. -/
def block? (isFolded : Bool) (parent : Int) (c : Cursor) : Option (List Char × Cursor) := do
  let (chomping, digit, c) ← blockHeader? c.next
  let least := (parent + 1).toNat.max 1
  let (indent, breaks, c) := match digit with
    | some n =>
      let indent := least + n - 1
      let (breaks, c) := blockBreaks indent (c.rest.length + 1) c
      (indent, breaks, c)
    | none =>
      let (breaks, greatest, c) := leadingBreaks (c.rest.length + 1) 0 c
      (least.max greatest, breaks, c)
  let (text, last, breaks, c) :=
    if inBlock indent c then blockLines isFolded indent (c.rest.length + 1) [] breaks c
    else ([], [], breaks, c)
  let ending := match chomping with
    | .strip => []
    | .clip => last
    | .keep => last ++ breaks
  return (text ++ ending, c)

end ModelLint.Yaml
