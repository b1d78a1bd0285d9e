import ModelLint.Number.Decimal
import ModelLint.Number.Double
import ModelLint.Program.Basic
import ModelLint.Source.Token
import ModelLint.Text.CharacterName

/-!
# Values of literals

The value of a number token, and the characters that the body of a string literal stands for. A
backslash starts an escape; one that starts no escape stands for itself.
-/

namespace ModelLint.Source

/-! ## Numbers -/

/-- The value of a digit in any base. -/
def digitValue (c : Char) : Nat :=
  if c.isDigit then c.toNat - '0'.toNat else c.toLower.toNat - 'a'.toNat + 10

/-- The number with the given digits. -/
def numberOfDigits (base : Nat) (digits : List Char) : Nat :=
  digits.foldl (fun n c => base * n + digitValue c) 0

/-- The value of a decimal fraction with an exponent. -/
def decimalValue (cs : List Char) : UInt64 :=
  let (mantissa, exponent) := cs.span fun c => c ≠ 'e' && c ≠ 'E'
  let (whole, fraction) := mantissa.span (· ≠ '.')
  let digits := whole ++ fraction.drop 1
  let power : Int := match exponent.drop 1 with
    | '-' :: ds => -(numberOfDigits 10 ds : Int)
    | '+' :: ds => numberOfDigits 10 ds
    | ds => numberOfDigits 10 ds
  Double.ofDecimal (numberOfDigits 10 digits) (power - (fraction.drop 1).length)

/-- The value of a number token. Decimal integers have a limited number of digits. -/
def numberValue? (text : String) : Option Constant :=
  let cs := text.toList.filter (· ≠ '_')
  match cs with
  | '0' :: b :: digits =>
    if b = 'x' ∨ b = 'X' then some (.data (.int (numberOfDigits 16 digits)))
    else if b = 'o' ∨ b = 'O' then some (.data (.int (numberOfDigits 8 digits)))
    else if b = 'b' ∨ b = 'B' then some (.data (.int (numberOfDigits 2 digits)))
    else decimal cs
  | _ => decimal cs
where
  /-- The value of a number without letters for its base. -/
  decimal (cs : List Char) : Option Constant :=
    if cs.getLast?.any fun c => c = 'j' || c = 'J' then some (.imaginary (decimalValue cs.dropLast))
    else if cs.all Char.isDigit then
      let n := numberOfDigits 10 cs
      if Decimal.isReadable cs.length ∨ n = 0 then some (.data (.int n)) else none
    else some (.data (.float (decimalValue cs)))

/-! ## Escapes -/

/-- The character of an escape of one letter. -/
def letterEscape? : Char → Option Char
  | '\\' => some '\\'
  | '\'' => some '\''
  | '"' => some '"'
  | 'a' => some '\x07'
  | 'b' => some '\x08'
  | 'f' => some '\x0c'
  | 'n' => some '\n'
  | 'r' => some '\r'
  | 't' => some '\t'
  | 'v' => some '\x0b'
  | _ => none

/-- The character of an escape with exactly `width` hexadecimal digits, and how many characters
the escape takes. -/
def hexEscape (width : Nat) (rest : List Char) : Option (List Char × Nat) :=
  let digits := rest.take width
  let code := numberOfDigits 16 digits
  if digits.length = width ∧ digits.all Token.isHex ∧ code < 0x110000 then
    some ([Char.ofNat code], width + 1)
  else none

section Names

variable (named : Text.CharacterNames)

/-- The character of an escape with a name in braces, and how many characters the escape takes. -/
def nameEscape : List Char → Option (List Char × Nat)
  | '\x7b' :: rest => do
    let name := rest.takeWhile (· ≠ '\x7d')
    if name.length = rest.length then none
    else return ([← named name], name.length + 3)
  | _ => none

/-- What the text behind a backslash stands for, and how many of its characters the escape takes.
Names and longer codes are no escapes among bytes. -/
def escape (isBytes : Bool) : List Char → Option (List Char × Nat)
  | [] => some (['\\'], 0)
  | '\n' :: _ => some ([], 1)
  | c :: rest =>
    match letterEscape? c with
    | some d => some ([d], 1)
    | none =>
      if Token.isOctal c then
        let digits := c :: (rest.take 2).takeWhile Token.isOctal
        let code := numberOfDigits 8 digits
        some ([Char.ofNat (if isBytes then code % 256 else code)], digits.length)
      else if c = 'x' then hexEscape 2 rest
      else if isBytes then some (['\\', c], 1)
      else if c = 'u' then hexEscape 4 rest
      else if c = 'U' then hexEscape 8 rest
      else if c = 'N' then nameEscape named rest
      else some (['\\', c], 1)

/-- The characters that a text with escapes stands for. -/
def unescape (isBytes : Bool) (cs : List Char) : Option (List Char) :=
  match cs with
  | [] => some []
  | c :: rest =>
    if c = '\\' then do
      let (out, taken) ← escape named isBytes rest
      return out ++ (← unescape isBytes (rest.drop taken))
    else do return c :: (← unescape isBytes rest)
termination_by cs.length
decreasing_by all_goals simp only [List.length_drop, List.length_cons]; omega

end Names

/-! ## String literals -/

/-- A string literal without its quotes. -/
structure StringLiteral where
  /-- Whether backslashes stand for themselves. -/
  isRaw : Bool
  /-- Whether it is a sequence of bytes. -/
  isBytes : Bool
  /-- Whether it is a template. -/
  isTemplate : Bool
  /-- The letters and the opening quotes. -/
  opening : List Char
  /-- What stands between the quotes. -/
  body : List Char

/-- The string literal of a token. -/
def StringLiteral.ofText (text : String) : StringLiteral :=
  let (letters, quoted) := text.toList.span Char.isAlpha
  let has (c : Char) : Bool := letters.any fun l => l.toLower = c
  let width := if quoted.length ≥ 6 ∧ quoted.take 1 = (quoted.drop 1).take 1 ∧
    quoted.take 1 = (quoted.drop 2).take 1 then 3 else 1
  { isRaw := has 'r', isBytes := has 'b', isTemplate := has 'f',
    opening := letters ++ quoted.take width,
    body := (quoted.drop width).take (quoted.length - 2 * width) }

/-- The characters of a literal that is no template; those of bytes are below 256. -/
def StringLiteral.characters? (named : Text.CharacterNames) (s : StringLiteral) :
    Option (List Char) :=
  if s.isBytes && s.body.any (fun c => c.toNat ≥ 128) then none
  else if s.isRaw then some s.body
  else unescape named s.isBytes s.body

end ModelLint.Source
