import ModelLint.Data.Value

/-!
# Writing JSON

`pretty` puts every item and entry on a line of its own, indented by two blanks per level;
`compact` writes one line. Texts are written in the Latin base range: everything else is escaped
by its UTF-16 units, so that a character outside the basic plane becomes a pair. A value that JSON
does not have is written as the text of its literal.
-/

namespace ModelLint.Json

/-! ## Texts -/

/-- The escape of a UTF-16 unit. -/
def unitEscape (n : Nat) : List Char := '\\' :: 'u' :: (Value.hexText 4 n).toList

/-- A character inside quotes. -/
def escapeChar (c : Char) : List Char :=
  if c = '"' then ['\\', '"']
  else if c = '\\' then ['\\', '\\']
  else if c = '\n' then ['\\', 'n']
  else if c = '\r' then ['\\', 'r']
  else if c = '\t' then ['\\', 't']
  else if c = '\x08' then ['\\', 'b']
  else if c = '\x0c' then ['\\', 'f']
  else if ' ' ≤ c ∧ c ≤ '~' then [c]
  else if c.toNat < 0x10000 then unitEscape c.toNat
  else
    unitEscape (0xD800 + (c.toNat - 0x10000) / 0x400) ++
      unitEscape (0xDC00 + (c.toNat - 0x10000) % 0x400)

/-- A text in quotes. -/
def quote (s : String) : String := String.ofList ('"' :: s.toList.flatMap escapeChar ++ ['"'])

/-- A double. -/
def doubleText (bits : UInt64) : String :=
  if Double.isNaN bits then "NaN"
  else if Double.isInfinite bits then
    if Double.isNegative bits then "-Infinity" else "Infinity"
  else Double.text bits

/-- A key, written as a text. -/
def keyText : Value → String
  | .str s => quote s
  | .null => quote "null"
  | .bool b => quote (if b then "true" else "false")
  | .float bits => quote (doubleText bits)
  | v => quote v.literal

/-! ## Values -/

/-- A line end and the indentation of a level. -/
def newline (level : Nat) : String := "\n" ++ String.ofList (List.replicate (2 * level) ' ')

mutual

/-- The form with one item or entry a line, at a level of indentation. -/
def prettyAt (level : Nat) : Value → String
  | .null => "null"
  | .bool b => if b then "true" else "false"
  | .int n => toString n
  | .float bits => doubleText bits
  | .str s => quote s
  | .list [] => "[]"
  | .list (v :: vs) =>
    "[" ++ String.intercalate "," (prettyItems (level + 1) (v :: vs)) ++ newline level ++ "]"
  | .map [] => "\x7b\x7d"
  | .map (e :: es) =>
    "\x7b" ++ String.intercalate "," (prettyEntries (level + 1) (e :: es)) ++ newline level ++
      "\x7d"
  | .set items => quote (Value.set items).literal
  | .other _ _ literal _ => quote literal

/-- The items of a list, each behind its line end. -/
def prettyItems (level : Nat) : List Value → List String
  | [] => []
  | v :: vs => (newline level ++ prettyAt level v) :: prettyItems level vs

/-- The entries of a map, each behind its line end. -/
def prettyEntries (level : Nat) : List (Value × Value) → List String
  | [] => []
  | (k, v) :: rest =>
    (newline level ++ keyText k ++ ": " ++ prettyAt level v) :: prettyEntries level rest

end

/-- The form with one item or entry a line. -/
def pretty (v : Value) : String := prettyAt 0 v

mutual

/-- The form on one line. -/
def compact : Value → String
  | .null => "null"
  | .bool b => if b then "true" else "false"
  | .int n => toString n
  | .float bits => doubleText bits
  | .str s => quote s
  | .list items => "[" ++ String.intercalate ", " (compactItems items) ++ "]"
  | .map entries => "\x7b" ++ String.intercalate ", " (compactEntries entries) ++ "\x7d"
  | .set items => quote (Value.set items).literal
  | .other _ _ literal _ => quote literal

/-- The items of a list on one line. -/
def compactItems : List Value → List String
  | [] => []
  | v :: vs => compact v :: compactItems vs

/-- The entries of a map on one line. -/
def compactEntries : List (Value × Value) → List String
  | [] => []
  | (k, v) :: rest => (keyText k ++ ": " ++ compact v) :: compactEntries rest

end

end ModelLint.Json
