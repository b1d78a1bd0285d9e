import ModelLint.Text.CodeTable

/-!
# Blanks

The blank characters are those of the Unicode property White_Space together with the four
information separators `U+001C` to `U+001F`. Trimming and splitting at blanks use this one set.
-/

namespace ModelLint.Text

/-- The blank characters. -/
def blanks : CodeSet := CodeSet.ofText
  "9-D 1C-20 85 A0 1680 2000-200A 2028-2029 202F 205F 3000"

/-- Whether a character is blank. -/
def isBlank (c : Char) : Bool := blanks.contains c

/-- A text without the characters of a class at its end. -/
def dropEndWhile (p : Char → Bool) (cs : List Char) : List Char :=
  (cs.reverse.dropWhile p).reverse

/-- A text without the blanks at both ends. -/
def trim (cs : List Char) : List Char := dropEndWhile isBlank (cs.dropWhile isBlank)

/-- A text without the blanks at both ends. -/
def trimmed (s : String) : String := String.ofList (trim s.toList)

/-- The maximal runs without a blank. -/
def blankSeparated (s : String) : List String :=
  ((s.toList.splitBy fun a b => isBlank a == isBlank b).filter fun run =>
    !run.all isBlank).map String.ofList

end ModelLint.Text
