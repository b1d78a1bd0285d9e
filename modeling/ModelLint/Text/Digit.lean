import ModelLint.Number.Decimal
import ModelLint.Text.Blank

/-!
# Decimal digits of all scripts

Every script with decimal digits has them in one run of ten, so the class is given by the zeros.
An integer is read from a text as an optional sign and digits of any scripts, with single
underscores between digits and padding around the whole: the blanks without the separators `U+001C`
to `U+001F`.
-/

namespace ModelLint.Text

/-- The digits of value zero. -/
def zeros : List Nat := (CodeTable.words
  "30 660 6F0 7C0 966 9E6 A66 AE6 B66 BE6 C66 CE6 D66 DE6 E50 ED0 F20 1040 1090 17E0 1810 1946
  19D0 1A80 1A90 1B50 1BB0 1C40 1C50 A620 A8D0 A900 A9D0 A9F0 AA50 ABF0 FF10 104A0 10D30 11066
  110F0 11136 111D0 112F0 11450 114D0 11650 116C0 11730 118E0 11950 11C50 11D50 11DA0 16A60
  16AC0 16B50 1D7CE 1D7D8 1D7E2 1D7EC 1D7F6 1E140 1E2F0 1E950 1FBF0").map
  fun word => (CodeTable.number word 0).1

/-- The value of a decimal digit. -/
def decimalValue? (c : Char) : Option Nat :=
  (zeros.find? fun z => z ≤ c.toNat && c.toNat < z + 10).map (c.toNat - ·)

/-- Whether a character is a digit of the Latin script. -/
def isDigit (c : Char) : Bool := '0' ≤ c && c ≤ '9'

/-- The value of a sequence of digits; an underscore may stand between two digits. -/
def digitsValue? : List Char → Nat → Option Nat
  | [], acc => some acc
  | '_' :: c :: cs, acc => do digitsValue? cs (10 * acc + (← decimalValue? c))
  | c :: cs, acc => do digitsValue? cs (10 * acc + (← decimalValue? c))

/-- The value of a non-empty sequence of digits that starts with a digit. -/
def natural? : List Char → Option Nat
  | [] => none
  | c :: cs => do digitsValue? cs (← decimalValue? c)

/-- Whether a character may stand around an integer. -/
def isPadding (c : Char) : Bool := isBlank c && !('\x1c' ≤ c && c ≤ '\x1f')

/-- The integer that a text denotes. -/
def integer? (s : String) : Option Int :=
  let body := dropEndWhile isPadding (s.toList.dropWhile isPadding)
  if Decimal.isReadable (body.countP fun c => (decimalValue? c).isSome) then
    match body with
    | '-' :: digits => (natural? digits).map fun n => -(n : Int)
    | '+' :: digits => (natural? digits).map fun n => (n : Int)
    | digits => (natural? digits).map fun n => (n : Int)
  else none

end ModelLint.Text
