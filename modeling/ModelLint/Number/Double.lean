/-!
# Doubles as decimals

A double is held as its 64 bits. `shortest` finds the fewest decimal digits that read back as
the same double, and the nearest such decimal; `text` writes them. `ofDecimal` reads a decimal
and rounds to the nearest double.

A finite positive double is `m · 2 ^ q`. The reals that round to it form the interval from
`(4m - g) · 2 ^ (q - 2)` to `(4m + 2) · 2 ^ (q - 2)`, where `g` is `1` below a power of two and
`2` elsewhere; the ends belong to it when `m` is even. If a decimal grid meets the interval, one
of the two grid neighbours of the double itself lies in it, so only these are tested.
-/

namespace ModelLint.Double

/-! ## Parts of a double -/

/-- The sign bit. -/
def isNegative (bits : UInt64) : Bool := bits >>> 63 == 1

/-- The exponent field. -/
def exponentField (bits : UInt64) : Nat := ((bits >>> 52) &&& 0x7FF).toNat

/-- The fraction field. -/
def fraction (bits : UInt64) : Nat := (bits &&& 0xFFFFFFFFFFFFF).toNat

/-- Whether the double is an infinity. -/
def isInfinite (bits : UInt64) : Bool := exponentField bits == 0x7FF && fraction bits == 0

/-- Whether the double is not a number. -/
def isNaN (bits : UInt64) : Bool := exponentField bits == 0x7FF && fraction bits != 0

/-- Whether the double is a zero of either sign. -/
def isZero (bits : UInt64) : Bool := exponentField bits == 0 && fraction bits == 0

/-- The double of the opposite sign. -/
def negate (bits : UInt64) : UInt64 := bits ^^^ 0x8000000000000000

/-- Positive infinity. -/
def infinity : UInt64 := 0x7FF0000000000000

/-- A number that is not one. -/
def nan : UInt64 := 0x7FF8000000000000

/-- The integer `m` and the exponent `q` of a finite double `m · 2 ^ q`. -/
def significand (bits : UInt64) : Nat × Int :=
  match exponentField bits with
  | 0 => (fraction bits, -1074)
  | e => (fraction bits + 0x10000000000000, (e : Int) - 1075)

/-! ## Fewest digits -/

/-- The number of decimal digits. -/
def digitCount (n : Nat) : Nat := (Nat.toDigits 10 n).length

/-- The exponent of the leading digit of a positive fraction. -/
def leadingExponent (num den : Nat) : Int :=
  if den ≤ num then (digitCount (num / den) : Int) - 1
  else
    let j := digitCount (den / num) - 1
    if den ≤ num * Nat.pow 10 j then -(j : Int) else -(j + 1 : Int)

/-- The grid point nearest to `v / den` that lies in the interval, of the two next to it. -/
def gridPoint? (closed : Bool) (lo v hi den : Nat) : Option Nat :=
  let inside (x : Nat) : Bool :=
    if closed then lo ≤ x * den && x * den ≤ hi else lo < x * den && x * den < hi
  let below := v / den
  let above := below + 1
  match inside below, inside above with
  | true, true =>
    let d := v - below * den
    if 2 * d < den || (2 * d == den && below % 2 == 0) then some below else some above
  | true, false => some below
  | false, true => some above
  | false, false => none

/-- The digits and the exponent of their last place: tries `n, n + 1, …` digits. -/
def shortestFrom (closed : Bool) (lo v hi den : Nat) (lead : Int) : Nat → Nat → Nat × Int
  | 0, _ => (v / den, 0)
  | fuel + 1, n =>
    let place := lead - n + 1
    let up := (-place).toNat
    let down := place.toNat
    match gridPoint? closed (lo * 10 ^ up) (v * 10 ^ up) (hi * 10 ^ up) (den * 10 ^ down) with
    | some x => (x, place)
    | none => shortestFrom closed lo v hi den lead fuel (n + 1)

/-- The fewest digits that read back as a positive finite double, with the exponent of the last
digit's place. -/
def shortest (bits : UInt64) : Nat × Int :=
  let (m, q) := significand bits
  let gap := if fraction bits == 0 && exponentField bits > 1 then 1 else 2
  let up := Nat.pow 2 (q - 2).toNat
  let den := Nat.pow 2 (2 - q).toNat
  let v := 4 * m * up
  shortestFrom (m % 2 == 0) ((4 * m - gap) * up) v ((4 * m + 2) * up) den (leadingExponent v den)
    18 1

/-! ## Writing -/

/-- Digits without the zeros at their end, and the exponent of the last place left. -/
def dropZeros : Nat → Nat → Int → Nat × Int
  | 0, n, place => (n, place)
  | fuel + 1, n, place => if n ≠ 0 ∧ n % 10 = 0 then dropZeros fuel (n / 10) (place + 1) else (n, place)

/-- The text of a positive decimal: positional when the leading exponent is from `-4` to `15`,
otherwise with an exponent of at least two digits. -/
def decimalText (n : Nat) (place : Int) : String :=
  let (n, place) := dropZeros 400 n place
  let digits := Nat.toDigits 10 n
  let lead := (digits.length : Int) - 1 + place
  if -4 ≤ lead ∧ lead < 16 then
    if lead < 0 then
      "0." ++ String.ofList (List.replicate (-lead - 1).toNat '0' ++ digits)
    else
      let whole := digits.take (lead + 1).toNat
      let whole := whole ++ List.replicate ((lead + 1).toNat - whole.length) '0'
      let rest := digits.drop (lead + 1).toNat
      String.ofList whole ++ "." ++ (if rest = [] then "0" else String.ofList rest)
  else
    let mantissa := match digits with
      | [] => ""
      | [d] => String.ofList [d]
      | d :: rest => String.ofList (d :: '.' :: rest)
    let power := lead.natAbs
    let sign := if lead < 0 then "-" else "+"
    mantissa ++ "e" ++ sign ++ (if power < 10 then "0" else "") ++ toString power

/-- The text of a double: the fewest digits that read back. -/
def text (bits : UInt64) : String :=
  if isNaN bits then "nan"
  else
    let magnitude :=
      if isInfinite bits then "inf"
      else if isZero bits then "0.0"
      else let (n, place) := shortest bits; decimalText n place
    if isNegative bits then "-" ++ magnitude else magnitude

/-! ## Reading -/

/-- The double nearest to `mantissa · 10 ^ exponent`. Exponents far outside the range of doubles
are decided before any power is computed. -/
def ofDecimal (mantissa : Nat) (exponent : Int) : UInt64 :=
  let size := (digitCount mantissa : Int) + exponent
  if mantissa = 0 ∨ size < -330 then 0
  else if size > 310 then infinity
  else (Float.ofScientific mantissa (exponent < 0) exponent.natAbs).toBits

end ModelLint.Double
