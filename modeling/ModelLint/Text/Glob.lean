import ModelLint.Text.Wildcard

/-!
# File globs

In a glob `*` stands for any stretch of characters, the path separator included, `?` for one
character, and `[…]` for one character of a class. A class starts with `!` when it is negated; a
`]` directly behind its start belongs to it; a bracket that is never closed stands for itself.

Inside a class a hyphen between two characters makes a range. The text of a class is cut at these
hyphens into `chunks`: the last character of a chunk and the first of the next are the ends of a
range, and a range whose ends are out of order vanishes together with them.
-/

namespace ModelLint.Glob

/-! ## Classes -/

/-- Cuts a class at the hyphens that make ranges; the first `skip` characters hold none. -/
def chunks : Nat → Nat → List Char → List (List Char)
  | 0, _, body => [body]
  | fuel + 1, skip, body =>
    match (body.drop skip).span (· ≠ '-') with
    | (_, []) => [body]
    | (more, [_]) => [body.take skip ++ more ++ ['-']]
    | (more, _ :: rest) => (body.take skip ++ more) :: chunks fuel 2 rest

/-- Drops the ranges whose ends are out of order. -/
def dropEmptyRanges : List (List Char) → List (List Char)
  | [] => []
  | chunk :: rest =>
    match dropEmptyRanges rest with
    | [] => [chunk]
    | next :: others =>
      match chunk.getLast?, next.head? with
      | some a, some b =>
        if b < a then (chunk.dropLast ++ next.tail) :: others else chunk :: next :: others
      | _, _ => chunk :: next :: others

/-- Whether a class without negation holds a character. -/
def inChunks (c : Char) : List (List Char) → Bool
  | [] => false
  | chunk :: rest =>
    let inRange := match chunk.getLast?, rest.head?.bind List.head? with
      | some a, some b => a ≤ c && c ≤ b
      | _, _ => false
    chunk.contains c || inRange || inChunks c rest

/-- The piece of a class with the given text between its brackets. -/
def classPiece (text : List Char) : Piece :=
  let cut (body : List Char) := dropEmptyRanges (chunks body.length 1 body)
  match text with
  | '!' :: body => let parts := cut body; .single fun c => !inChunks c parts
  | body => let parts := cut body; .single fun c => inChunks c parts

/-- The text of a class and what follows its closing bracket. -/
def classText? (cs : List Char) : Option (List Char × List Char) :=
  let (lead, cs) := match cs with
    | '!' :: ']' :: rest => (['!', ']'], rest)
    | '!' :: rest => (['!'], rest)
    | ']' :: rest => ([']'], rest)
    | rest => ([], rest)
  match cs.span (· ≠ ']') with
  | (_, []) => none
  | (text, _ :: rest) => some (lead ++ text, rest)

/-! ## Globs -/

/-- The pieces of a glob of at most `fuel` characters. -/
def piecesUpTo : Nat → List Char → List Piece
  | 0, _ => []
  | _ + 1, [] => []
  | fuel + 1, '*' :: rest => .run :: piecesUpTo fuel rest
  | fuel + 1, '?' :: rest => .single (fun _ => true) :: piecesUpTo fuel rest
  | fuel + 1, '[' :: rest =>
    match classText? rest with
    | some (text, rest) => classPiece text :: piecesUpTo fuel rest
    | none => .single (· == '[') :: piecesUpTo fuel rest
  | fuel + 1, c :: rest => .single (· == c) :: piecesUpTo fuel rest

/-- The pieces of a glob. -/
def pieces (glob : String) : List Piece := piecesUpTo (glob.toList.length) glob.toList

/-- Whether a glob matches the whole of a text. -/
def accepts (glob text : String) : Bool := Piece.accepts (pieces glob) text.toList

end ModelLint.Glob
