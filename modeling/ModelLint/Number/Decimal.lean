/-!
# Decimal numbers

An integer has a written form, and digits are read as an integer, only up to a number of digits. All
texts with numbers in them are written and read within this limit.
-/

namespace ModelLint.Decimal

/-- The greatest number of digits that an integer is written with or read from. -/
def digitLimit : Nat := 4300

/-- Whether an integer has a written form. -/
def isWritable (n : Int) : Bool := n.natAbs < Nat.pow 10 digitLimit

/-- The least positive integer without a written form. -/
def overlong : Int := Int.ofNat (Nat.pow 10 digitLimit)

theorem isWritable_overlong : isWritable overlong = false := by
  simp only [isWritable, overlong, Int.ofNat_eq_natCast, Int.natAbs_natCast, Nat.lt_irrefl,
    decide_false]

/-- The written form of an integer, if it has one. -/
def text? (n : Int) : Option String := if isWritable n then some (toString n) else none

theorem text?_eq_some {n : Int} {text : String} :
    text? n = some text ↔ isWritable n = true ∧ text = toString n := by
  rw [text?, Option.ite_none_right_eq_some, Option.some.injEq, eq_comm (a := toString n)]

/-- Whether that many digits are read as an integer. -/
def isReadable (digits : Nat) : Bool := digits ≤ digitLimit

end ModelLint.Decimal
