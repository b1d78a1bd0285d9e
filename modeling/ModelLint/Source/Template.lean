import ModelLint.Source.Literal
import ModelLint.Source.Syntax

/-!
# Templates

A template is a string literal with values in braces. `templateParts?` cuts its body into texts and
values. The text of an expression ends at the first `!`, `:`, `}` or `=` outside its brackets and
quotes that is no part of a comparison; it holds no backslash and no `#`. A value may have the text
of its expression before it, a conversion, and a format, which is a template of its own; formats
are two levels deep at most. Doubled braces stand for braces, but not in a format.
-/

namespace ModelLint.Source

/-- A part of a template. -/
inductive TemplatePart where
  /-- A text, with its escapes replaced. -/
  | text (cs : List Char)
  /-- The source of an expression with parentheses around it and where it starts, with the
  conversion and format of the value and the range of the string literal that holds it. -/
  | value (literal : Range) (source : List Char) (start : Position) (conversion : Option Conversion)
      (format : Option (List TemplatePart))

namespace TemplatePart

/-! ## Texts -/

/-- How a text ends. -/
inductive TextEnd where
  /-- With a doubled brace; more text follows. -/
  | doubledBrace
  /-- Before a brace, or with the template. -/
  | boundary

/-- How a text ends that stands before a brace. -/
def atBrace (isOutermost : Bool) (before : List Char) (brace : Char) (after : List Char) :
    Option (List Char × TextEnd × List Char) :=
  if !isOutermost then some (before, .boundary, brace :: after)
  else if after.head? = some brace then some (before ++ [brace], .doubledBrace, after.drop 1)
  else if brace = '\x7d' then none
  else some (before, .boundary, brace :: after)

/-- The text at the start of a template, as written, and what follows it. -/
def textRun (isRaw isOutermost : Bool) (cs : List Char) :
    Option (List Char × TextEnd × List Char) :=
  match cs with
  | [] => some ([], .boundary, [])
  | c :: rest =>
    let further (taken : Nat) : Option (List Char × TextEnd × List Char) := do
      let (more, textEnd, after) ← textRun isRaw isOutermost (rest.drop taken)
      return (c :: rest.take taken ++ more, textEnd, after)
    if c = '\x7b' ∨ c = '\x7d' then atBrace isOutermost [] c rest
    else if c = '\\' ∧ !isRaw then
      match rest with
      | [] => some ([c], .boundary, [])
      | 'N' :: '\x7b' :: name => further (2 + (name.takeWhile (· ≠ '\x7d')).length + 1)
      | 'N' :: _ => none
      | d :: after => if d = '\x7b' ∨ d = '\x7d' then atBrace isOutermost [c] d after else further 1
    else further 0
termination_by cs.length
decreasing_by simp only [List.length_drop, List.length_cons]; omega

/-! ## Expressions -/

/-- Where the scan of an expression stands: inside which quotes, and inside which brackets. -/
structure Nesting where
  /-- The quote that ends the string literal around, and whether it is tripled. -/
  quote : Option (Char × Bool)
  /-- The closing brackets that are awaited, innermost first. -/
  brackets : List Char

/-- The bracket that closes an opening one. -/
def closingBracket : Char → Option Char
  | '(' => some ')'
  | '[' => some ']'
  | '\x7b' => some '\x7d'
  | _ => none

/-- The text of an expression, and what follows it. -/
def expressionRun (nesting : Nesting) (cs : List Char) : Option (List Char × List Char) :=
  match cs with
  | [] => none
  | c :: rest =>
    let after (taken : Nat) (nesting : Nesting) : Option (List Char × List Char) := do
      let (more, after) ← expressionRun nesting (rest.drop taken)
      return (c :: rest.take taken ++ more, after)
    if c = '\\' then none
    else match nesting.quote with
    | some (q, isTripled) =>
      if c ≠ q then after 0 nesting
      else if !isTripled then after 0 { nesting with quote := none }
      else if rest.take 2 = [q, q] then after 2 { nesting with quote := none }
      else after 0 nesting
    | none =>
      if c = '\'' ∨ c = '"' then
        if rest.take 2 = [c, c] then after 2 { nesting with quote := some (c, true) }
        else after 0 { nesting with quote := some (c, false) }
      else match closingBracket c with
      | some closing =>
        if nesting.brackets.length ≥ Token.maxBrackets then none
        else after 0 { nesting with brackets := closing :: nesting.brackets }
      | none =>
        if c = '#' then none
        else if nesting.brackets = [] ∧ (c = '!' ∨ c = '=' ∨ c = '<' ∨ c = '>') ∧
            rest.head? = some '=' then after 1 nesting
        else if nesting.brackets = [] ∧ (c = '!' ∨ c = ':' ∨ c = '\x7d' ∨ c = '=') then
          some ([], c :: rest)
        else if c = ')' ∨ c = ']' ∨ c = '\x7d' then
          match nesting.brackets with
          | awaited :: outer =>
            if awaited = c then after 0 { nesting with brackets := outer } else none
          | [] => none
        else after 0 nesting
termination_by cs.length
decreasing_by simp only [List.length_drop, List.length_cons]; omega

/-- Whether the grammar skips a character between tokens in brackets. -/
def isSkipped (c : Char) : Bool := c = ' ' || c = '\t' || c = '\n' || c = '\x0c'

/-- Whether a character is a blank of the ASCII characters. -/
def isAsciiBlank (c : Char) : Bool := isSkipped c || c = '\r' || c = '\x0b'

/-- The conversion at the start of a text, and what follows it. -/
def conversion? : List Char → Option (Option Conversion × List Char)
  | '!' :: 's' :: rest => some (some .display, rest)
  | '!' :: 'r' :: rest => some (some .literal, rest)
  | '!' :: 'a' :: rest => some (some .ascii, rest)
  | '!' :: _ => none
  | rest => some (none, rest)

/-- Where the parenthesis stands that takes the place of an opening brace: where the brace stands,
or at the start of its line if the line ends behind the brace. -/
def parenthesisPosition (token brace : Position) (expression : List Char) : Position :=
  let isLineEnd := (expression.dropWhile fun c => isSkipped c && c ≠ '\n').head? = some '\n'
  if !isLineEnd then brace
  else ⟨brace.line, if brace.line = token.line then token.column else 0⟩

/-! ## Parts -/

variable (named : Text.CharacterNames)

/-- Cuts a template into parts until a closing brace or its end. The text starts at a place inside
the string literal; values may be `levels` deep, and `fuel` bounds the number of parts. -/
def cut (isRaw : Bool) (literal : Range) :
    (levels fuel : Nat) → (isOutermost : Bool) → Position → List Char →
    Option (List TemplatePart × List Char)
  | _, 0, _, _, _ => none
  | levels, fuel + 1, isOutermost, position, cs => do
    let (written, textEnd, rest) ← textRun isRaw isOutermost cs
    let decoded ← if isRaw then some written else unescape named false written
    let position := position.after (cs.take (cs.length - rest.length))
    match textEnd, rest with
    | .doubledBrace, _ =>
      let (parts, rest) ← cut isRaw literal levels fuel isOutermost position rest
      return (.text decoded :: parts, rest)
    | .boundary, '\x7b' :: inside =>
      match levels with
      | 0 => none
      | levels + 1 =>
        let (expression, after) ← expressionRun ⟨none, []⟩ inside
        if expression.all isSkipped then none
        let isShown := after.head? = some '='
        let shown := if isShown then expression ++ '=' :: (after.drop 1).takeWhile isAsciiBlank else []
        let after := if isShown then (after.drop 1).dropWhile isAsciiBlank else after
        let (conversion, after) ← conversion? after
        let formatPosition (after : List Char) := position.after (rest.take (rest.length - after.length))
        let (format, after) ← match after with
          | ':' :: spec =>
            if spec = [] then none
            else do
              let (parts, after) ← cut isRaw literal levels fuel false (formatPosition spec) spec
              pure (some parts, after)
          | _ => pure (none, after)
        if after.head? ≠ some '\x7d' then none
        let after := after.drop 1
        let conversion := if isShown ∧ format.isNone ∧ conversion.isNone then some .literal
          else conversion
        let source := '(' :: expression ++ [')']
        let value := TemplatePart.value literal source
          (parenthesisPosition literal.start position expression) conversion format
        let (parts, rest) ←
          cut isRaw literal (levels + 1) fuel isOutermost (formatPosition after) after
        return (.text decoded :: .text shown :: value :: parts, rest)
    | .boundary, rest => return ([.text decoded], rest)
termination_by _ fuel => fuel

end TemplatePart

/-- The parts of a template that stands at a place in the source. -/
def templateParts? (named : Text.CharacterNames) (s : StringLiteral) (place : Range) :
    Option (List TemplatePart) := do
  let (parts, rest) ← TemplatePart.cut named s.isRaw place 2 (s.body.length + 1) true
    (place.start.after s.opening) s.body
  if rest = [] then return parts else none

end ModelLint.Source
