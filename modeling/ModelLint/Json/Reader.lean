import ModelLint.Data.Value
import ModelLint.Text.Digit

/-!
# Reading JSON

`Json.read?` reads one JSON text. Integers are unbounded, numbers with a fraction or an exponent
are doubles, and the words `NaN`, `Infinity` and `-Infinity` are accepted. Of two entries with one
key the last wins, at the place of the first. Control characters inside texts are refused.

Every nested value starts behind a bracket, so the number of characters bounds the recursion.
-/

namespace ModelLint.Json

/-- Drops the characters that may stand between tokens. -/
def skipBlank (cs : List Char) : List Char :=
  cs.dropWhile fun c => c = ' ' || c = '\t' || c = '\n' || c = '\r'

/-! ## Texts -/

/-- The number of four hexadecimal digits. -/
def unit? (a b c d : Char) : Option Nat := do
  let a ← CodeTable.digitValue a
  let b ← CodeTable.digitValue b
  let c ← CodeTable.digitValue c
  let d ← CodeTable.digitValue d
  return ((a * 16 + b) * 16 + c) * 16 + d

/-- Whether a unit is the first of a pair that encodes one character. -/
def isLead (n : Nat) : Bool := 0xD800 ≤ n && n < 0xDC00

/-- Whether a unit is the second of a pair that encodes one character. -/
def isTrail (n : Nat) : Bool := 0xDC00 ≤ n && n < 0xE000

/-- The character of an escape by letter. -/
def escaped? : Char → Option Char
  | '"' => some '"'
  | '\\' => some '\\'
  | '/' => some '/'
  | 'b' => some '\x08'
  | 'f' => some '\x0c'
  | 'n' => some '\n'
  | 'r' => some '\r'
  | 't' => some '\t'
  | _ => none

/-- The characters up to the closing quote, and what follows it. -/
def stringBody : List Char → List Char → Option (List Char × List Char)
  | acc, '\\' :: 'u' :: a :: b :: c :: d :: '\\' :: 'u' :: e :: f :: g :: h :: rest =>
    match unit? a b c d, unit? e f g h with
    | some lead, some trail =>
      if isLead lead && isTrail trail then
        stringBody (Char.ofNat (0x10000 + (lead - 0xD800) * 0x400 + (trail - 0xDC00)) :: acc) rest
      else stringBody (Char.ofNat lead :: acc) ('\\' :: 'u' :: e :: f :: g :: h :: rest)
    | some lead, none => stringBody (Char.ofNat lead :: acc) ('\\' :: 'u' :: e :: f :: g :: h :: rest)
    | none, _ => none
  | acc, '\\' :: 'u' :: a :: b :: c :: d :: rest =>
    match unit? a b c d with
    | some n => stringBody (Char.ofNat n :: acc) rest
    | none => none
  | acc, '\\' :: e :: rest =>
    match escaped? e with
    | some c => stringBody (c :: acc) rest
    | none => none
  | acc, '"' :: rest => some (acc.reverse, rest)
  | acc, c :: rest => if c < ' ' then none else stringBody (c :: acc) rest
  | _, [] => none
termination_by _ cs => cs.length

/-! ## Numbers -/

/-- The digits at the start of a text and what follows them. -/
def digits (cs : List Char) : List Char × List Char := cs.span Text.isDigit

/-- The number of a sequence of digits. -/
def digitsNat (ds : List Char) : Nat := ds.foldl (fun n d => 10 * n + (d.toNat - '0'.toNat)) 0

/-- An exponent, if one follows. -/
def exponent? (cs : List Char) : Option (Int × List Char) :=
  match cs with
  | e :: rest =>
    if e = 'e' ∨ e = 'E' then
      let (negative, body) := match rest with
        | '-' :: body => (true, body)
        | '+' :: body => (false, body)
        | body => (false, body)
      match digits body with
      | ([], _) => none
      | (ds, after) =>
        let n : Int := digitsNat ds
        some (if negative then -n else n, after)
    else none
  | [] => none

/-- A fraction, if one follows: its digits. -/
def fraction? (cs : List Char) : Option (List Char × List Char) :=
  match cs with
  | '.' :: rest =>
    match digits rest with
    | ([], _) => none
    | (ds, after) => some (ds, after)
  | _ => none

/-- A number behind its sign. -/
def number? (negative : Bool) (cs : List Char) : Option (Value × List Char) :=
  let whole? := match cs with
    | '0' :: rest => some (['0'], rest)
    | _ => match digits cs with
      | ([], _) => none
      | (ds, after) => some (ds, after)
  whole?.map fun (whole, rest) =>
    let (frac, isDouble, rest) := match fraction? rest with
      | some (ds, after) => (ds, true, after)
      | none => ([], false, rest)
    let (exp, isDouble, rest) := match exponent? rest with
      | some (e, after) => (e, true, after)
      | none => (0, isDouble, rest)
    if isDouble then
      let bits := Double.ofDecimal (digitsNat (whole ++ frac)) (exp - frac.length)
      (.float (if negative then Double.negate bits else bits), rest)
    else
      let n : Int := digitsNat whole
      (.int (if negative then -n else n), rest)

/-! ## Values -/

/-- A word of letters that stands for a value. -/
def word? (cs : List Char) : Option (Value × List Char) :=
  let after (word : String) (v : Value) : Option (Value × List Char) :=
    if word.toList.isPrefixOf cs then some (v, cs.drop word.length) else none
  (after "null" .null).or <| (after "true" (.bool true)).or <| (after "false" (.bool false)).or <|
    (after "NaN" (.float Double.nan)).or <| (after "Infinity" (.float Double.infinity)).or <|
    (after "-Infinity" (.float (Double.negate Double.infinity)))

mutual

/-- A value and what follows it. -/
def value : Nat → List Char → Option (Value × List Char)
  | 0, _ => none
  | fuel + 1, cs =>
    match cs with
    | '"' :: rest => (stringBody [] rest).map fun (s, rest) => (.str (String.ofList s), rest)
    | '[' :: rest =>
      match skipBlank rest with
      | ']' :: rest => some (.list [], rest)
      | rest => items fuel [] rest
    | '\x7b' :: rest =>
      match skipBlank rest with
      | '\x7d' :: rest => some (.map [], rest)
      | rest => entries fuel [] rest
    | '-' :: rest => (word? cs).or (number? true rest)
    | _ => (word? cs).or (number? false cs)

/-- The items of a list up to its closing bracket; `acc` holds those read, last first. -/
def items : Nat → List Value → List Char → Option (Value × List Char)
  | 0, _, _ => none
  | fuel + 1, acc, cs => do
    let (v, rest) ← value fuel (skipBlank cs)
    match skipBlank rest with
    | ',' :: rest => items fuel (v :: acc) rest
    | ']' :: rest => some (.list (v :: acc).reverse, rest)
    | _ => none

/-- The entries of a map up to its closing brace; `acc` holds those read. -/
def entries : Nat → List (Value × Value) → List Char → Option (Value × List Char)
  | 0, _, _ => none
  | fuel + 1, acc, cs => do
    match skipBlank cs with
    | '"' :: rest =>
      let (key, rest) ← stringBody [] rest
      match skipBlank rest with
      | ':' :: rest =>
        let (v, rest) ← value fuel (skipBlank rest)
        let acc := Value.insert (.str (String.ofList key)) v acc
        match skipBlank rest with
        | ',' :: rest => entries fuel acc rest
        | '\x7d' :: rest => some (.map acc, rest)
        | _ => none
      | _ => none
    | _ => none

end

/-- The value of a JSON text. -/
def read? (text : String) : Option Value :=
  let cs := text.toList
  match value (2 * cs.length + 1) (skipBlank cs) with
  | some (v, rest) => if skipBlank rest = [] then some v else none
  | none => none

end ModelLint.Json
