/-!
# Names of characters

An escape in a string literal may give a character by its name. Which names there are is no part of
the grammar: what knows them is a parameter of all that reads literals.
-/

namespace ModelLint.Text

/-- What knows the characters of names. -/
abbrev CharacterNames := List Char → Option Char

namespace CharacterNames

/-- No names. -/
def empty : CharacterNames := fun _ => none

/-- The names that the program knows; the case of letters does not count. -/
def known : CharacterNames := fun name =>
  if String.ofList (name.map Char.toUpper) = "BULLET" then some '\u2022' else none

end CharacterNames

end ModelLint.Text
