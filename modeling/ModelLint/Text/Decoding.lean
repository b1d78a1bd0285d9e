/-!
# Texts of files

The bytes of a file are UTF-8. A line end is a line feed, a carriage return, or both together, and
is read as a line feed; everything else, a byte order mark included, belongs to the text.
-/

namespace ModelLint.Text

/-- Writes every line end as a line feed. -/
def unifyLineEnds : List Char → List Char
  | [] => []
  | '\r' :: '\n' :: rest => '\n' :: unifyLineEnds rest
  | '\r' :: rest => '\n' :: unifyLineEnds rest
  | c :: rest => c :: unifyLineEnds rest

/-- The text of the bytes of a file, if they are UTF-8. -/
def ofBytes? (bytes : ByteArray) : Option String :=
  (String.fromUTF8? bytes).map fun text => String.ofList (unifyLineEnds text.toList)

end ModelLint.Text
