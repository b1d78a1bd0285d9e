import ModelLint.Data.Value
import ModelLint.Text.CodeTable

/-!
# What plain scalars denote

A plain scalar denotes the absent value, a truth value or a number if it is written like one, and
its text otherwise. Underscores inside numbers do not count. Integers may be binary, octal behind a
leading zero, hexadecimal, or in sixtieths with colons between the places. A double needs a point,
and its exponent needs a sign.
-/

namespace ModelLint.Yaml

/-- What a plain scalar denotes. -/
inductive Plain where
  /-- A value. -/
  | value (v : Value)
  /-- The key that takes over the entries of other mappings. -/
  | merge
  /-- The mark of a default value, which is a text as a key and nothing elsewhere. -/
  | default

namespace Plain

/-! ## Words -/

/-- A word in small letters, with a capital, or in capitals. -/
def isWord (word : String) (text : String) : Bool :=
  let cs := word.toList
  let capital := match cs with
    | [] => []
    | c :: rest => c.toUpper :: rest
  text == word || text.toList == capital || text.toList == cs.map Char.toUpper

/-- The truth value of a word. -/
def truth? (text : String) : Option Bool :=
  if ["yes", "true", "on"].any fun w => isWord w text then some true
  else if ["no", "false", "off"].any fun w => isWord w text then some false
  else none

/-- Whether a scalar denotes the absent value. -/
def isNull (text : String) : Bool := text == "" || text == "~" || isWord "null" text

/-! ## Integers -/

/-- Whether a number may start with a character. -/
def isDigit (c : Char) : Bool := '0' ≤ c && c ≤ '9'

/-- Whether a number may go on with a character. -/
def isDigitOrBar (c : Char) : Bool := isDigit c || c = '_'

/-- The number that digits denote to a base, underscores left out; there must be a digit. -/
def inBase? (base : Nat) (cs : List Char) : Option Nat := do
  let values ← (cs.filter (· ≠ '_')).mapM CodeTable.digitValue
  if values = [] ∨ !values.all (· < base) then none
  else some (values.foldl (fun n d => base * n + d) 0)

/-- Whether a text is a place of sixty: one digit, or two of which the first is less than six. -/
def isSixtieth : List Char → Bool
  | [a] => isDigit a
  | [a, b] => '0' ≤ a && a ≤ '5' && isDigit b
  | _ => false

/-- The number whose places of sixty are separated by colons. -/
def sixties? (cs : List Char) : Option Nat :=
  match cs.splitOn ':' with
  | first :: second :: rest =>
    if (first.all isDigitOrBar) && (second :: rest).all isSixtieth then do
      let places ← (first :: second :: rest).mapM (inBase? 10)
      return places.foldl (fun n d => 60 * n + d) 0
    else none
  | _ => none

/-- The integer without its sign. -/
def natural? (cs : List Char) : Option Nat :=
  match cs with
  | ['0'] => some 0
  | '0' :: 'b' :: digits => inBase? 2 digits
  | '0' :: 'x' :: digits => inBase? 16 digits
  | '0' :: digits => inBase? 8 ('0' :: digits)
  | c :: rest =>
    if isDigit c then
      if rest.all isDigitOrBar then inBase? 10 cs else sixties? cs
    else none
  | [] => none

/-- A sign, if there is one: whether it is negative, and what follows it. -/
def sign : List Char → Bool × List Char
  | '-' :: rest => (true, rest)
  | '+' :: rest => (false, rest)
  | cs => (false, cs)

/-- The integer that a text denotes. -/
def integer? (cs : List Char) : Option Int :=
  let (isNegative, body) := sign cs
  (natural? body).map fun n => if isNegative then -(n : Int) else n

/-! ## Doubles -/

/-- The exponent that a text denotes; no text is the exponent zero. -/
def exponent? : List Char → Option Int
  | [] => some 0
  | e :: sign :: digits =>
    if (e = 'e' ∨ e = 'E') ∧ digits ≠ [] ∧ digits.all isDigit then
      if sign = '-' then (inBase? 10 digits).map fun n => -(n : Int)
      else if sign = '+' then (inBase? 10 digits).map fun n => (n : Int)
      else none
    else none
  | _ => none

/-- The double of a whole part and a text behind its point: a fraction and an exponent. -/
def fraction? (whole behind : List Char) : Option UInt64 := do
  let (fraction, rest) := behind.span isDigitOrBar
  let exponent ← exponent? rest
  let fraction := fraction.filter (· ≠ '_')
  let digits ← inBase? 10 ((whole ++ fraction))
  return Double.ofDecimal digits (exponent - fraction.length)

/-- The double of places of sixty and a text behind its point. -/
def sixtiesDouble? (whole behind : List Char) : Option UInt64 := do
  if !behind.all isDigitOrBar then none
  let n ← sixties? whole
  let last := (whole.splitOn ':').getLast?.getD []
  let part ← fraction? last behind
  let before := Float.ofNat (n - (← inBase? 10 last))
  return (Float.ofBits part + before).toBits

/-- The double without its sign. -/
def magnitude? (cs : List Char) : Option UInt64 :=
  match cs.span (· ≠ '.') with
  | (whole, '.' :: behind) =>
    match whole with
    | c :: rest =>
      if isDigit c then
        if rest.all isDigitOrBar then fraction? whole behind else sixtiesDouble? whole behind
      else none
    | [] => if isWord "inf" (String.ofList behind) then some Double.infinity else none
  | _ => none

/-- The double that a text denotes. -/
def double? (cs : List Char) : Option UInt64 :=
  let (isNegative, body) := sign cs
  match cs with
  | '.' :: d :: rest =>
    if isDigit d then fraction? [] (d :: rest)
    else if ["nan", "NaN", "NAN"].contains (String.ofList (d :: rest)) then some Double.nan
    else magnitude? cs
  | _ => (magnitude? body).map fun bits => if isNegative then Double.negate bits else bits

/-! ## All plain scalars -/

/-- What a text denotes as a plain scalar. -/
def ofText (text : String) : Plain :=
  let cs := text.toList
  if isNull text then .value .null
  else if text == "<<" then .merge
  else if text == "=" then .default
  else match truth? text, double? cs, integer? cs with
    | some b, _, _ => .value (.bool b)
    | none, some bits, _ => .value (.float bits)
    | none, none, some n => .value (.int n)
    | none, none, none => .value (.str text)

end Plain

end ModelLint.Yaml
