/-!
# Tables of code points

A property of characters is given by a text of hexadecimal numbers, so that a table can be read
and compared by eye. `CodeSet` is a set of ranges, `CodeMap` sends ranges to ranges, and
`CodeWords` sends single code points to short sequences.

* `41-5A` is the range from `41` to `5A`, and `41` the range of one code point.
* `100~12E>101` sends `100, 102, …, 12E` to `101, 103, …`; with `-` the step is one.
* `FB01>66+69` sends a code point to a sequence.
-/

namespace ModelLint

/-! ## Reading numbers -/

namespace CodeTable

/-- The value of a hexadecimal digit. -/
def digitValue (c : Char) : Option Nat :=
  if '0' ≤ c ∧ c ≤ '9' then some (c.toNat - '0'.toNat)
  else if 'A' ≤ c ∧ c ≤ 'F' then some (c.toNat - 'A'.toNat + 10)
  else if 'a' ≤ c ∧ c ≤ 'f' then some (c.toNat - 'a'.toNat + 10)
  else none

/-- The number at the start of a text and what follows it. -/
def number : List Char → Nat → Nat × List Char
  | [], acc => (acc, [])
  | c :: cs, acc =>
    match digitValue c with
    | some d => number cs (16 * acc + d)
    | none => (acc, c :: cs)

/-- The words of a table; blanks and line ends separate them. -/
def words (text : String) : List (List Char) :=
  ((text.toList.map fun c => if c = '\n' then ' ' else c).splitOn ' ').filter (· ≠ [])

/-- A range, the distance of its members, and what follows it. -/
def range (word : List Char) : (Nat × Nat × Nat) × List Char :=
  match number word 0 with
  | (lo, '-' :: rest) => let (hi, rest) := number rest 0; ((lo, hi, 1), rest)
  | (lo, '~' :: rest) => let (hi, rest) := number rest 0; ((lo, hi, 2), rest)
  | (lo, rest) => ((lo, lo, 1), rest)

/-- The numbers of a sequence joined by `+`. -/
def sequence (word : List Char) : List Nat :=
  (word.splitOn '+').map fun digits => (number digits 0).1

end CodeTable

/-! ## Sets -/

/-- A set of code points, as ranges. -/
abbrev CodeSet := List (Nat × Nat)

namespace CodeSet

/-- The set that a text lists. -/
def ofText (text : String) : CodeSet :=
  (CodeTable.words text).map fun word => let ((lo, hi, _), _) := CodeTable.range word; (lo, hi)

/-- Whether a character is in the set. -/
def contains (set : CodeSet) (c : Char) : Bool :=
  set.any fun (lo, hi) => lo ≤ c.toNat && c.toNat ≤ hi

end CodeSet

/-! ## Maps -/

/-- A range of code points that moves by one distance. -/
structure CodeRun where
  /-- The first code point. -/
  lo : Nat
  /-- The last code point. -/
  hi : Nat
  /-- The distance of neighbours. -/
  step : Nat
  /-- What the first code point is sent to. -/
  target : Nat

/-- A map of code points that is the identity outside its runs. -/
abbrev CodeMap := List CodeRun

namespace CodeMap

/-- The map that a text lists. -/
def ofText (text : String) : CodeMap :=
  (CodeTable.words text).map fun word =>
    let ((lo, hi, step), rest) := CodeTable.range word
    { lo, hi, step, target := (CodeTable.number (rest.drop 1) 0).1 }

/-- What a code point is sent to, if a run holds it. -/
def find? (map : CodeMap) (n : Nat) : Option Nat :=
  (List.find? (fun run => run.lo ≤ n && n ≤ run.hi && (n - run.lo) % run.step == 0) map).map
    fun run => run.target + (n - run.lo)

/-- What a character is sent to; the identity outside the runs. -/
def apply (map : CodeMap) (c : Char) : Char :=
  ((map.find? c.toNat).map Char.ofNat).getD c

end CodeMap

/-- A map from ranges of code points to short sequences. -/
abbrev CodeWords := List (Nat × Nat × List Nat)

namespace CodeWords

/-- The map that a text lists. -/
def ofText (text : String) : CodeWords :=
  (CodeTable.words text).map fun word =>
    let ((lo, hi, _), rest) := CodeTable.range word
    (lo, hi, CodeTable.sequence (rest.drop 1))

/-- The sequence of a code point; a range to a single code point moves as a whole. -/
def find? (map : CodeWords) (n : Nat) : Option (List Nat) :=
  (List.find? (fun (lo, hi, _) => lo ≤ n && n ≤ hi) map).map fun (lo, _, target) =>
    target.map (· + (n - lo))

end CodeWords

end ModelLint
