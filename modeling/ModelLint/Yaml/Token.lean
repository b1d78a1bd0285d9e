import ModelLint.Yaml.Scalar

/-!
# Tokens of YAML

`Token.ofText?` cuts a text into tokens. The structure that indentation shows becomes explicit: a
collection of lines starts with a token of its own and ends with `blockEnd`, once the lines are
indented less.

A key need not be marked: only the colon behind it tells that something was a key. So every node
that may turn out to be a key is kept as a `Candidate`, and when the colon comes, the key's token is
put in front of the candidate. A candidate is given up at the end of its line; the first node of a
line of a mapping must be a key, so giving it up is an error.
-/

namespace ModelLint.Yaml

/-- A token. -/
inductive Token where
  /-- A directive. -/
  | directive (text : String)
  /-- The mark of a document's start. -/
  | documentStart
  /-- The mark of a document's end. -/
  | documentEnd
  /-- The start of a sequence of lines. -/
  | blockSequence
  /-- The start of a mapping of lines. -/
  | blockMapping
  /-- The end of a collection of lines. -/
  | blockEnd
  /-- The start of a bracketed sequence. -/
  | flowSequence
  /-- The end of a bracketed sequence. -/
  | flowSequenceEnd
  /-- The start of a bracketed mapping. -/
  | flowMapping
  /-- The end of a bracketed mapping. -/
  | flowMappingEnd
  /-- The mark of an item of lines. -/
  | blockEntry
  /-- The mark between items in brackets. -/
  | flowEntry
  /-- What follows is a key. -/
  | key
  /-- What follows is the value of a key. -/
  | value
  /-- A node that was named before. -/
  | reference (name : String)
  /-- The name of the node that follows. -/
  | anchor (name : String)
  /-- The type of the node that follows. -/
  | tag (handle : Option String) (suffix : String)
  /-- A scalar; a plain one may denote something else than its text. -/
  | scalar (text : String) (isPlain : Bool)
deriving DecidableEq, Inhabited

/-- A node that may turn out to be a key. -/
structure Candidate where
  /-- The number of tokens before it. -/
  position : Nat
  /-- Whether it has to be a key. -/
  isRequired : Bool
  /-- Its place. -/
  place : Cursor

/-- The greatest length of a key without a mark. -/
def maxKeyLength : Nat := 1024

/-- The progress of cutting a text into tokens. -/
structure Scan where
  /-- The place. -/
  cursor : Cursor
  /-- The tokens so far. -/
  tokens : Array Token
  /-- The column of the innermost collection of lines; before the first column if there is none. -/
  indent : Int
  /-- The columns of those around it. -/
  outerIndents : List Int
  /-- Whether a key without a mark may start at the place. -/
  allowsKey : Bool
  /-- The candidate of the innermost brackets. -/
  candidate : Option Candidate
  /-- The candidates of the brackets around them. -/
  outer : List (Option Candidate)

namespace Scan

/-- The start of a text. -/
def start (text : List Char) : Scan := ⟨.start text, #[], -1, [], true, none, []⟩

/-- Whether the place is in brackets. -/
def inFlow (s : Scan) : Bool := !s.outer.isEmpty

/-- Adds a token. -/
def push (s : Scan) (t : Token) : Scan := { s with tokens := s.tokens.push t }

/-- Puts a token at a position. -/
def insert (s : Scan) (position : Nat) (t : Token) : Scan :=
  { s with tokens := s.tokens.insertIdxIfInBounds position t }

/-- Moves the place behind a number of characters. -/
def skip (s : Scan) (n : Nat) : Scan := { s with cursor := s.cursor.skip n }

/-! ## Candidates -/

/-- Whether a candidate is too far behind to be a key. -/
def isStale (s : Scan) (k : Candidate) : Bool :=
  k.place.line ≠ s.cursor.line || s.cursor.index - k.place.index > maxKeyLength

/-- Gives the candidates up that are too far behind. -/
def dropStale (s : Scan) : Option Scan :=
  if (s.candidate :: s.outer).any fun k => k.any fun k => k.isRequired && s.isStale k then none
  else
    let fresh (k : Option Candidate) := k.filter fun k => !s.isStale k
    some { s with candidate := fresh s.candidate, outer := s.outer.map fresh }

/-- Gives the candidate up. -/
def dropCandidate (s : Scan) : Option Scan :=
  if s.candidate.any (·.isRequired) then none else some { s with candidate := none }

/-- Makes what starts at the place a candidate. -/
def addCandidate (s : Scan) : Option Scan :=
  if s.allowsKey then do
    let isRequired := !s.inFlow && s.indent == s.cursor.column
    let s ← s.dropCandidate
    return { s with candidate := some ⟨s.tokens.size, isRequired, s.cursor⟩ }
  else some s

/-! ## Indentation -/

/-- The collections that a line at a column leaves: the innermost one that stays, those around it,
and the number of those left. -/
def leave (column : Int) : Int → List Int → Int × List Int × Nat
  | indent, [] => (indent, [], 0)
  | indent, parent :: outer =>
    if indent > column then
      let (indent, outer, n) := leave column parent outer
      (indent, outer, n + 1)
    else (indent, parent :: outer, 0)

/-- Ends the collections of lines that a line at a column leaves. -/
def unwind (s : Scan) (column : Int) : Scan :=
  if s.inFlow then s
  else
    let (indent, outerIndents, n) := leave column s.indent s.outerIndents
    { s with indent, outerIndents, tokens := s.tokens ++ Array.replicate n .blockEnd }

/-- Starts a collection of lines at a column, unless one is there; its token is put at a
position. -/
def enter (s : Scan) (column : Nat) (position : Nat) (t : Token) : Scan :=
  if s.indent < column then
    { s.insert position t with indent := column, outerIndents := s.indent :: s.outerIndents }
  else s

/-! ## Single tokens -/

/-- The place of the next token: behind blanks, comments and line ends. -/
def toNext : Nat → Scan → Scan
  | 0, s => s
  | fuel + 1, s =>
    let c := s.cursor.skipWhile (· = ' ')
    let c := if c.head? = some '#' then c.skipWhile fun a => !isBreak a else c
    match c.break? with
    | some (_, c) => toNext fuel { s with cursor := c, allowsKey := s.allowsKey || !s.inFlow }
    | none => { s with cursor := c }

/-- A mark of a document or a directive, which ends all collections of lines. -/
def pushMark (s : Scan) (length : Nat) (t : Token) : Option Scan := do
  let s ← (s.unwind (-1)).dropCandidate
  return ({ s with allowsKey := false }.skip length).push t

/-- A directive: the text of its line without a comment. -/
def pushDirective (s : Scan) : Option Scan := do
  let (text, c) := s.cursor.next.span fun a => !isBreak a && a ≠ '#'
  let c ← c.lineEnd?
  let s ← s.pushMark 0 (.directive (String.ofList text))
  return { s with cursor := c }

/-- An opening bracket. -/
def openFlow (s : Scan) (t : Token) : Option Scan := do
  let s ← s.addCandidate
  return ({ s with outer := s.candidate :: s.outer, candidate := none, allowsKey := true }.skip
    1).push t

/-- A closing bracket. -/
def closeFlow (s : Scan) (t : Token) : Option Scan := do
  let s ← s.dropCandidate
  match s.outer with
  | [] => none
  | candidate :: outer =>
    return ({ s with candidate, outer, allowsKey := false }.skip 1).push t

/-- The mark between items in brackets. -/
def pushFlowEntry (s : Scan) : Option Scan := do
  let s ← s.dropCandidate
  return ({ s with allowsKey := true }.skip 1).push .flowEntry

/-- The mark of an item of lines. -/
def pushBlockEntry (s : Scan) : Option Scan := do
  if !s.inFlow && !s.allowsKey then none
  let s := if s.inFlow then s else s.enter s.cursor.column s.tokens.size .blockSequence
  let s ← s.dropCandidate
  return ({ s with allowsKey := true }.skip 1).push .blockEntry

/-- The mark of a key. -/
def pushKey (s : Scan) : Option Scan := do
  if !s.inFlow && !s.allowsKey then none
  let s := if s.inFlow then s else s.enter s.cursor.column s.tokens.size .blockMapping
  let s ← s.dropCandidate
  return ({ s with allowsKey := !s.inFlow }.skip 1).push .key

/-- The mark of a value, whose key is the candidate if there is one. -/
def pushValue (s : Scan) : Option Scan := do
  match s.candidate with
  | some k =>
    let s := { s with candidate := none, allowsKey := false }.insert k.position .key
    let s := if s.inFlow then s else s.enter k.place.column k.position .blockMapping
    return (s.skip 1).push .value
  | none =>
    if !s.inFlow && !s.allowsKey then none
    let s := if s.inFlow then s else s.enter s.cursor.column s.tokens.size .blockMapping
    return ({ s with allowsKey := !s.inFlow }.skip 1).push .value

/-- Whether a character belongs to the name of a node. -/
def isNameChar (c : Char) : Bool := c.isAlphanum || c = '-' || c = '_'

/-- The name of a node behind its sign. -/
def pushName (s : Scan) (token : String → Token) : Option Scan := do
  let s ← s.addCandidate
  let (name, c) := s.cursor.next.span isNameChar
  if name ≠ [] ∧ endsOr (fun a => isGap a || "?:,]\x7d%@\x60".toList.contains a) c.rest then
    return { s with allowsKey := false, cursor := c }.push (token (String.ofList name))
  else none

/-- Whether a character belongs to the name of a type. -/
def isTagChar (c : Char) : Bool := c.isAlphanum || "-;/?:@&=+$,_.!~*'()[]".toList.contains c

/-- The type of a node. -/
def pushTag (s : Scan) : Option Scan := do
  let s ← s.addCandidate
  let (handle, suffix, c) ← match s.cursor.next.rest with
    | '<' :: _ =>
      let (suffix, c) := (s.cursor.skip 2).span isTagChar
      if suffix ≠ [] ∧ c.head? = some '>' then some (none, suffix, c.next) else none
    | rest =>
      if endsOr isGap rest then some (none, ['!'], s.cursor.next)
      else
        let (name, c) := s.cursor.next.span isNameChar
        let (handle, c) := if c.head? = some '!' then ('!' :: name ++ ['!'], c.next)
          else (['!'], s.cursor.next)
        let (suffix, c) := c.span isTagChar
        if suffix = [] then none else some (some (String.ofList handle), suffix, c)
  if endsOr (fun a => a = ' ' || isBreak a) c.rest then
    return { s with allowsKey := false, cursor := c }.push (.tag handle (String.ofList suffix))
  else none

/-- A block scalar. -/
def pushBlock (s : Scan) (isFolded : Bool) : Option Scan := do
  let s ← s.dropCandidate
  let (text, c) ← block? isFolded s.indent s.cursor
  return { s with allowsKey := true, cursor := c }.push (.scalar (String.ofList text) false)

/-- A scalar in quotes. -/
def pushQuoted (s : Scan) (quote : Char) : Option Scan := do
  let s ← s.addCandidate
  let (text, c) ← quoted? quote s.cursor
  return { s with allowsKey := false, cursor := c }.push (.scalar (String.ofList text) false)

/-- A plain scalar; where it ends with its line, a key may follow. -/
def pushPlain (s : Scan) : Option Scan := do
  let s ← s.addCandidate
  let (text, crossed, c) := plain s.inFlow (s.indent + 1) s.cursor
  return { s with allowsKey := crossed, cursor := c }.push (.scalar (String.ofList text) true)

/-- Whether a plain scalar may start with a character, from what follows it. -/
def startsPlain (s : Scan) (a : Char) (rest : List Char) : Bool :=
  !(isGap a || "-?:,[]\x7b\x7d#&*!|>'\"%@\x60".toList.contains a) ||
    (!endsOr isGap rest && (a = '-' || (!s.inFlow && (a = '?' || a = ':'))))

/-- The next token. -/
def step (s : Scan) (a : Char) (rest : List Char) : Option Scan :=
  let column := s.cursor.column
  let isMark := column = 0 && atDocumentMark (a :: rest)
  let stands := endsOr isGap rest
  match a with
  | '%' => if column = 0 then s.pushDirective else none
  | '[' => s.openFlow .flowSequence
  | ']' => s.closeFlow .flowSequenceEnd
  | '\x7b' => s.openFlow .flowMapping
  | '\x7d' => s.closeFlow .flowMappingEnd
  | ',' => s.pushFlowEntry
  | '*' => s.pushName .reference
  | '&' => s.pushName .anchor
  | '!' => s.pushTag
  | '\'' | '"' => s.pushQuoted a
  | '|' => if s.inFlow then none else s.pushBlock false
  | '>' => if s.inFlow then none else s.pushBlock true
  | _ =>
    if isMark then s.pushMark 3 (if a = '-' then .documentStart else .documentEnd)
    else if a = '-' ∧ stands then s.pushBlockEntry
    else if a = '?' ∧ (s.inFlow ∨ stands) then s.pushKey
    else if a = ':' ∧ (s.inFlow ∨ stands) then s.pushValue
    else if s.startsPlain a rest then s.pushPlain
    else none

/-- All tokens from a state of progress on. -/
def run : Nat → Scan → Option (Array Token)
  | 0, _ => none
  | fuel + 1, s => do
    let s ← (s.toNext (s.cursor.rest.length + 1)).dropStale
    let s := s.unwind s.cursor.column
    match s.cursor.rest with
    | [] => return (← (s.unwind (-1)).dropCandidate).tokens
    | a :: rest => run fuel (← s.step a rest)

end Scan

/-- The characters that a text may hold. -/
def isAllowed (c : Char) : Bool :=
  c = '\t' || c = '\n' || c = '\r' || (' ' ≤ c && c ≤ '~') || c = '\x85' ||
    ('\xa0' ≤ c && c ≤ '\ufffd') || 0x10000 ≤ c.toNat

/-- The tokens of a text. -/
def Token.ofText? (text : String) : Option (List Token) :=
  let cs := text.toList
  if cs.all isAllowed then
    let cs := if cs.head? = some '\ufeff' then cs.tail else cs
    (Scan.run (cs.length + 1) (.start cs)).map Array.toList
  else none

end ModelLint.Yaml
