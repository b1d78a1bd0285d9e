import ModelLint.Source.Syntax

/-!
# Written expressions

`Expr.written?` writes an expression as source on one line, with the parentheses that its operators
need and no others. A template cannot hold a backslash in its values, and a number can have too many
digits, hence a few expressions have no written form.
-/

namespace ModelLint.Source

/-! ## Binding strength -/

/-- How tightly an expression binds its parts. -/
abbrev Strength := Nat

namespace Strength

/-- A name bound to a value. -/
def walrus : Strength := 1

/-- A tuple without parentheses. -/
def tuple : Strength := 2

/-- A value handed out. -/
def yielded : Strength := 3

/-- A condition or an anonymous function. -/
def test : Strength := 4

/-- A disjunction. -/
def either : Strength := 5

/-- A conjunction. -/
def both : Strength := 6

/-- A negation. -/
def negation : Strength := 7

/-- A comparison. -/
def comparison : Strength := 8

/-- An operand of a comparison. -/
def operand : Strength := 9

/-- A sign. -/
def sign : Strength := 15

/-- A power. -/
def power : Strength := 16

/-- A value that is waited for. -/
def await : Strength := 17

/-- An atom. -/
def atom : Strength := 18

/-- The next tighter strength. -/
def tighter (s : Strength) : Strength := min (s + 1) atom

/-- The strength of an operator between two operands. -/
def ofBinary : BinaryOperator → Strength
  | .bitOr => 9
  | .bitXor => 10
  | .bitAnd => 11
  | .shiftLeft | .shiftRight => 12
  | .add | .sub => 13
  | .mul | .matMul | .div | .floorDiv | .mod => 14
  | .pow => power

/-- The strength of an operator before its operand. -/
def ofUnary : UnaryOperator → Strength
  | .negation => negation
  | _ => sign

/-- The strength of an operator between truth values. -/
def ofBoolean : BooleanOperator → Strength
  | .both => both
  | .either => either

end Strength

/-- A text, in brackets if a condition holds. -/
def bracketed (condition : Bool) (text : String) : String :=
  if condition then "(" ++ text ++ ")" else text

/-- Texts with commas between them; a single one has a comma behind it. -/
def tupleText : List String → String
  | [text] => text ++ ","
  | texts => ", ".intercalate texts

/-! ## Literals -/

/-- The text of a number: infinity is written as a number beyond all others. -/
def numberText (bits : UInt64) : String :=
  if Double.isInfinite bits then "1e309" else Double.text bits

/-- The text of an imaginary number. -/
def imaginaryText (bits : UInt64) : String :=
  let cs := (numberText bits).toList
  let cs := if cs.drop (cs.length - 2) = ['.', '0'] then cs.take (cs.length - 2) else cs
  String.ofList cs ++ "j"

/-- A byte inside quotes. -/
def byteText (quote : Char) (b : UInt8) : String :=
  let c := Char.ofNat b.toNat
  if b.toNat ≥ 128 then "\\x" ++ Value.hexText 2 b.toNat else Value.quotedChar quote c

/-- Bytes in quotes. -/
def bytesText (bytes : List UInt8) : String :=
  let quote := if bytes.contains 39 && !bytes.contains 34 then '"' else '\''
  "b" ++ String.ofList [quote] ++ String.join (bytes.map (byteText quote)) ++ String.ofList [quote]

/-- A text in quotes of one of several kinds, and the kinds of quotes that fit it. -/
structure QuotedText where
  /-- The text between the quotes. -/
  text : List Char
  /-- The quotes that fit, the best first. -/
  quotes : List (List Char)

/-- All quotes. -/
def allQuotes : List (List Char) := [['\''], ['"'], ['"', '"', '"'], ['\'', '\'', '\'']]

/-- Whether a text occurs in another. -/
def occursIn (part : List Char) : List Char → Bool
  | [] => part.isEmpty
  | c :: cs => part.isPrefixOf (c :: cs) || occursIn part cs

/-- Finds quotes for a text that need as few escapes as possible. Line feeds and tabs stand for
themselves unless all blanks are to be escaped. -/
def QuotedText.choose (text : List Char) (quotes : List (List Char)) (escapesBlanks : Bool) :
    QuotedText :=
  let escape (c : Char) : List Char :=
    if !escapesBlanks && (c = '\n' || c = '\t') then [c] else (Value.quotedChar '\\' c).toList
  let escaped := text.flatMap escape
  let fitting := quotes.filter fun q => (q.length = 3 || !escaped.contains '\n') && !occursIn q escaped
  if fitting = [] then
    let literal := (Value.quoted (String.ofList text)).toList
    let quote := literal.take 1
    ⟨(literal.drop 1).dropLast, [(quotes.find? fun q => occursIn quote q).getD quote]⟩
  else
    match escaped.getLast? with
    | none => ⟨escaped, fitting⟩
    | some last =>
      let sorted := (fitting.filter fun q => q.head? ≠ some last) ++
        fitting.filter fun q => q.head? = some last
      if (sorted.headD []).head? = some last then ⟨escaped.dropLast ++ ['\\', last], sorted⟩
      else ⟨escaped, sorted⟩

/-- The text with its best quotes. -/
def QuotedText.toText (q : QuotedText) : List Char :=
  let quote := q.quotes.headD []
  quote ++ q.text ++ quote

/-- A text with braces doubled. -/
def doubleBraces (text : String) : List Char :=
  text.toList.flatMap fun c => if c = '\x7b' || c = '\x7d' then [c, c] else [c]

/-- The parts of a template in common quotes: kinds of quotes that fit all parts are sought one part
after the other; where there are none, the parts are escaped for tripled quotes. -/
def templateText (parts : List (List Char × Bool)) : List Char :=
  let chosen := parts.foldl extend (some ⟨[], allQuotes⟩)
  let q := chosen.getD ⟨parts.flatMap fun (text, _) => fallback text, [['\'', '\'', '\'']]⟩
  q.toText
where
  /-- Adds a part to those before it. -/
  extend (soFar : Option QuotedText) (part : List Char × Bool) : Option QuotedText := do
    let ⟨before, quotes⟩ ← soFar
    let ⟨text, fitting⟩ := QuotedText.choose part.1 quotes part.2
    if fitting.all fun q => !quotes.contains q then none else return ⟨before ++ text, fitting⟩
  /-- A part for single quotes. -/
  fallback (text : List Char) : List Char :=
    ((Value.quoted (String.ofList ('"' :: text))).toList.drop 2).dropLast

/-- The written form of a literal, if it has one; where backslashes are to be avoided, texts choose
their quotes. -/
def constantText? (avoidsBackslashes : Bool) (value : Constant) (hasLetter : Bool) : Option String :=
  let letter := if hasLetter then "u" else ""
  match value with
  | .data (.int n) => Decimal.text? n
  | .data (.float bits) => some (numberText bits)
  | .data (.str text) =>
    if avoidsBackslashes then
      some (letter ++ String.ofList (QuotedText.choose text.toList allQuotes false).toText)
    else some (letter ++ Value.quoted text)
  | .data v => some v.literal
  | .imaginary bits => some (imaginaryText bits)
  | .bytes bytes => some (bytesText bytes)
  | .ellipsis => some "..."

/-- Whether a point behind an expression needs a blank before it. -/
def needsBlank : Expr → Bool
  | .constant _ (.data (.int _)) _ | .constant _ (.data (.bool _)) _ => true
  | _ => false

/-- The parameters of an anonymous function around their written defaults. -/
def parametersText (parameters : List Parameter) (defaults : List (Option String)) : String :=
  let texts := (parameters.zip defaults).map fun (p, default) =>
    let star := match p.kind with
      | .variadic => "*"
      | .keywords => "**"
      | _ => ""
    (p.kind, star ++ p.name ++ (default.map ("=" ++ ·)).getD "")
  let ofKind (kind : ParameterKind) : List String :=
    (texts.filter fun t => t.1 = kind).map (·.2)
  let slash := if (ofKind .positionalOnly).isEmpty then [] else ["/"]
  let star := if (ofKind .variadic).isEmpty && !(ofKind .keywordOnly).isEmpty then ["*"] else []
  ", ".intercalate
    (ofKind .positionalOnly ++ slash ++ ofKind .positional ++ ofKind .variadic ++ star ++
      ofKind .keywordOnly ++ ofKind .keywords)

/-- A slice around its written parts. -/
def sliceText (lower upper step : Bool) (parts : List String) : String :=
  let (low, parts) := if lower then (parts.headD "", parts.drop 1) else ("", parts)
  let (high, parts) := if upper then (parts.headD "", parts.drop 1) else ("", parts)
  low ++ ":" ++ high ++ (if step then ":" ++ parts.headD "" else "")

/-- Comparisons around their written operands. -/
def comparisonText (ops : List Comparison) (operands : List String) : String :=
  match operands with
  | [] => ""
  | first :: rest =>
    first ++ String.join ((ops.zip rest).map fun (op, text) => " " ++ op.text ++ " " ++ text)

/-! ## Expressions -/

namespace Expr

mutual

/-- The written form of an expression under an operator of the given strength. -/
def writtenIn (avoids : Bool) (strength : Strength) : Expr → Option String
  | .name _ id => some id
  | .constant _ value hasLetter => constantText? avoids value hasLetter
  | .attribute _ value attr => do
    let text ← writtenIn avoids .atom value
    return text ++ (if needsBlank value then " " else "") ++ "." ++ attr
  | .subscript _ value (.compound _ .tuple (e :: es)) => do
    let text ← writtenIn avoids .atom value
    let first ← writtenIn avoids .test e
    return text ++ "[" ++ tupleText (first :: (← writtenAll avoids .test es)) ++ "]"
  | .subscript _ value index => do
    let text ← writtenIn avoids .atom value
    return text ++ "[" ++ (← writtenIn avoids .test index) ++ "]"
  | .call _ function args keywords => do
    let text ← writtenIn avoids .atom function
    let args ← writtenAll avoids .test args
    return text ++ "(" ++ ", ".intercalate (args ++ (← writtenKeywords avoids keywords)) ++ ")"
  | .dict _ entries => do
    return "\x7b" ++ ", ".intercalate (← writtenEntries avoids entries) ++ "\x7d"
  | .walrus _ _ id value => do
    return bracketed (strength > .walrus) (id ++ " := " ++ (← writtenIn avoids .atom value))
  | .lambda _ parameters body => do
    let parameters := parametersText parameters (← writtenDefaults avoids parameters)
    let head := if parameters = "" then "lambda: " else "lambda " ++ parameters ++ ": "
    return bracketed (strength > .test) (head ++ (← writtenIn avoids .test body))
  | .comprehension _ kind elements first rest => do
    let texts ← writtenAll avoids .test elements
    let loops := (← writtenClause avoids first) ++ (← writtenClauses avoids rest)
    return match kind with
      | .list => "[" ++ String.join texts ++ loops ++ "]"
      | .set => "\x7b" ++ String.join texts ++ loops ++ "\x7d"
      | .dict => "\x7b" ++ ": ".intercalate texts ++ loops ++ "\x7d"
      | .generator => "(" ++ String.join texts ++ loops ++ ")"
  | .compound _ (.binary op) [left, right] => do
    let own := Strength.ofBinary op
    let left ← writtenIn avoids (if op = .pow then own.tighter else own) left
    let right ← writtenIn avoids (if op = .pow then own else own.tighter) right
    return bracketed (strength > own) (left ++ " " ++ op.text ++ " " ++ right)
  | .compound _ (.unary op) [value] => do
    let own := Strength.ofUnary op
    let space := if op = .negation then " " else ""
    return bracketed (strength > own) (op.text ++ space ++ (← writtenIn avoids own value))
  | .compound _ (.boolean op) values => do
    let own := Strength.ofBoolean op
    let texts ← writtenRising avoids own.tighter values
    return bracketed (strength > own) ((" " ++ op.text ++ " ").intercalate texts)
  | .compound _ (.comparison ops) values => do
    let texts ← writtenAll avoids .operand values
    return bracketed (strength > .comparison) (comparisonText ops texts)
  | .compound _ .conditional [condition, value, otherwise] => do
    let value ← writtenIn avoids .either value
    let condition ← writtenIn avoids .either condition
    let otherwise ← writtenIn avoids .test otherwise
    return bracketed (strength > .test) (value ++ " if " ++ condition ++ " else " ++ otherwise)
  | .compound _ .set values => do
    return "\x7b" ++ ", ".intercalate (← writtenAll avoids .test values) ++ "\x7d"
  | .compound _ .list values => do
    return "[" ++ ", ".intercalate (← writtenAll avoids .test values) ++ "]"
  | .compound _ .tuple values => do
    return bracketed (values.isEmpty || strength > .tuple)
      (tupleText (← writtenAll avoids .test values))
  | .compound _ .starred [value] => do return "*" ++ (← writtenIn avoids .operand value)
  | .compound _ (.slice lower upper step) values => do
    return sliceText lower upper step (← writtenAll avoids .test values)
  | .compound _ .await [value] => do
    return bracketed (strength > .await) ("await " ++ (← writtenIn avoids .atom value))
  | .compound _ .yieldValue values => do
    let texts ← writtenAll avoids .atom values
    return bracketed (strength > .yielded) (" ".intercalate ("yield" :: texts))
  | .compound _ .yieldFrom [value] => do
    return bracketed (strength > .yielded) ("yield from " ++ (← writtenIn avoids .atom value))
  | .compound _ .template values => do
    let parts ← writtenParts values
    if avoids then
      let text := (QuotedText.choose (parts.flatMap (·.1)) allQuotes false).toText
      return "f" ++ String.ofList text
    else return "f" ++ String.ofList (templateText parts)
  | .compound _ _ _ => none

/-- The written forms of several expressions. -/
def writtenAll (avoids : Bool) (strength : Strength) : List Expr → Option (List String)
  | [] => some []
  | e :: es => do return (← writtenIn avoids strength e) :: (← writtenAll avoids strength es)

/-- The written forms of operands that bind tighter from one to the next. -/
def writtenRising (avoids : Bool) (strength : Strength) : List Expr → Option (List String)
  | [] => some []
  | e :: es => do
    return (← writtenIn avoids strength e) :: (← writtenRising avoids strength.tighter es)

/-- The written forms of arguments by name. -/
def writtenKeywords (avoids : Bool) : List Keyword → Option (List String)
  | [] => some []
  | .mk keyword value :: rest => do
    let head := (keyword.map (· ++ "=")).getD "**"
    return (head ++ (← writtenIn avoids .test value)) :: (← writtenKeywords avoids rest)

/-- The written forms of the entries of a dictionary. -/
def writtenEntries (avoids : Bool) : List Entry → Option (List String)
  | [] => some []
  | .pair key value :: rest => do
    let key ← writtenIn avoids .test key
    let value ← writtenIn avoids .test value
    return (key ++ ": " ++ value) :: (← writtenEntries avoids rest)
  | .unpack value :: rest => do
    return ("**" ++ (← writtenIn avoids .operand value)) :: (← writtenEntries avoids rest)

/-- The written defaults of parameters. -/
def writtenDefaults (avoids : Bool) : List Parameter → Option (List (Option String))
  | [] => some []
  | .mk _ _ _ none :: rest => do return none :: (← writtenDefaults avoids rest)
  | .mk _ _ _ (some value) :: rest => do
    return some (← writtenIn avoids .test value) :: (← writtenDefaults avoids rest)

/-- The written form of a loop of a comprehension. -/
def writtenClause (avoids : Bool) : Clause → Option String
  | .mk isAsync target source conditions => do
    let head := if isAsync then " async for " else " for "
    let target ← writtenIn avoids .tuple target
    let source ← writtenIn avoids .either source
    let conditions ← writtenAll avoids .either conditions
    return head ++ target ++ " in " ++ source ++ String.join (conditions.map (" if " ++ ·))

/-- The written form of the loops of a comprehension. -/
def writtenClauses (avoids : Bool) : List Clause → Option String
  | [] => some ""
  | clause :: rest => do return (← writtenClause avoids clause) ++ (← writtenClauses avoids rest)

/-- The written form of a part of a template, and whether it is a text. -/
def writtenPart : Expr → Option (List Char × Bool)
  | .constant _ (.data (.str text)) _ => some (doubleBraces text, true)
  | .compound _ (.formatted conversion) (value :: format) => do
    let text ← writtenIn true .either value
    if text.toList.contains '\\' then none
    let space := if text.toList.head? = some '\x7b' then [' '] else []
    let conversion := (conversion.map fun c => ['!', c.letter]).getD []
    let format ← writtenFormat format
    return ('\x7b' :: space ++ text.toList ++ conversion ++ format ++ ['\x7d'], false)
  | _ => none

/-- The written form of the format of a value in a template. -/
def writtenFormat : List Expr → Option (List Char)
  | [] => some []
  | .compound _ .template values :: _ => do
    return ':' :: (← writtenParts values).flatMap (·.1)
  | _ :: _ => none

/-- The written forms of the parts of a template. -/
def writtenParts : List Expr → Option (List (List Char × Bool))
  | [] => some []
  | e :: es => do return (← writtenPart e) :: (← writtenParts es)

end

/-- The written form of an expression. -/
def written? (e : Expr) : Option String := writtenIn false .test e

end Expr

end ModelLint.Source
