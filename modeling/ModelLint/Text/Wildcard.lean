/-!
# Patterns with wildcards

A pattern is a sequence of pieces. A `run` stands for any stretch of characters, the empty one
included, and a `single` for one character of a class. `accepts` recurses on the pieces and tries
every suffix behind a run, so it holds exactly of the texts that split into one stretch per piece.
-/

namespace ModelLint

/-- A piece of a pattern. -/
inductive Piece where
  /-- Any stretch of characters. -/
  | run
  /-- One character of a class. -/
  | single (holds : Char → Bool)

namespace Piece

/-- The suffixes of a text, the longest first. -/
def suffixes : List Char → List (List Char)
  | [] => [[]]
  | c :: cs => (c :: cs) :: suffixes cs

/-- Whether a text splits into one stretch per piece. -/
def accepts : List Piece → List Char → Bool
  | [], cs => cs.isEmpty
  | run :: pieces, cs => (suffixes cs).any (accepts pieces)
  | single _ :: _, [] => false
  | single holds :: pieces, c :: cs => holds c && accepts pieces cs

end Piece

end ModelLint
