import ModelLint.Number.Decimal
import ModelLint.Number.Double
import ModelLint.Text.Printable

/-!
# Values of documents

A `Value` is what a JSON or YAML text denotes. Entries of a map keep the order of the document,
and keys are values, since YAML allows keys that are not texts.

Two written forms are needed in messages. `literal` shows the structure, with texts in quotes;
`display` shows a text as it is and everything else as its literal.
-/

namespace ModelLint

/-- A value of a document. -/
inductive Value where
  /-- The absent value. -/
  | null
  /-- A truth value. -/
  | bool (b : Bool)
  /-- An integer. -/
  | int (n : Int)
  /-- A double, as its bits. -/
  | float (bits : UInt64)
  /-- A text. -/
  | str (s : String)
  /-- A list. -/
  | list (items : List Value)
  /-- A map with its entries in order. -/
  | map (entries : List (Value × Value))
  /-- A set, which only YAML has. -/
  | set (items : List Value)
  /-- A scalar of another type of YAML, such as a date: the name of the type, the forms in running
  text and as a literal, and whether it counts as true. -/
  | other (kind text literal : String) (truth : Bool)
deriving Inhabited

namespace Value

/-! ## Simple questions -/

/-- Whether the value counts as true: not absent, false, zero or empty. -/
def isTruthy : Value → Bool
  | null => false
  | bool b => b
  | int n => n ≠ 0
  | float bits => !Double.isZero bits
  | str s => s ≠ ""
  | list items => !items.isEmpty
  | map entries => !entries.isEmpty
  | set items => !items.isEmpty
  | other _ _ _ truth => truth

/-- The name of the kind of value, as messages give it. -/
def kindName : Value → String
  | null => "NoneType"
  | bool _ => "bool"
  | int _ => "int"
  | float _ => "float"
  | str _ => "str"
  | list _ => "list"
  | map _ => "dict"
  | set _ => "set"
  | other kind _ _ _ => kind

/-! ## Written forms -/

/-- The hexadecimal digits of a number, padded with zeros to a width. -/
def hexText (width n : Nat) : String :=
  let digits := Nat.toDigits 16 n
  String.ofList (List.replicate (width - digits.length) '0' ++ digits)

/-- A character inside quotes. -/
def quotedChar (quote c : Char) : String :=
  if c = quote ∨ c = '\\' then String.ofList ['\\', c]
  else if c = '\n' then "\\n"
  else if c = '\r' then "\\r"
  else if c = '\t' then "\\t"
  else if Text.isPrintable c then String.ofList [c]
  else if c.toNat < 0x100 then "\\x" ++ hexText 2 c.toNat
  else if c.toNat < 0x10000 then "\\u" ++ hexText 4 c.toNat
  else "\\U" ++ hexText 8 c.toNat

/-- A text in quotes: single ones, unless it holds a single and no double quote. -/
def quoted (s : String) : String :=
  let cs := s.toList
  let quote := if cs.contains '\'' && !cs.contains '"' then '"' else '\''
  String.ofList [quote] ++ String.join (cs.map (quotedChar quote)) ++ String.ofList [quote]

mutual

/-- The written form that shows the structure. -/
def literal : Value → String
  | null => "None"
  | bool b => if b then "True" else "False"
  | int n => toString n
  | float bits => Double.text bits
  | str s => quoted s
  | list items => "[" ++ String.intercalate ", " (literals items) ++ "]"
  | map entries => "\x7b" ++ String.intercalate ", " (entryLiterals entries) ++ "\x7d"
  | set [] => "set()"
  | set (v :: vs) => "\x7b" ++ String.intercalate ", " (literals (v :: vs)) ++ "\x7d"
  | other _ _ literal _ => literal

/-- The literals of a list. -/
def literals : List Value → List String
  | [] => []
  | v :: vs => literal v :: literals vs

/-- The literals of the entries of a map. -/
def entryLiterals : List (Value × Value) → List String
  | [] => []
  | (k, v) :: rest => (literal k ++ ": " ++ literal v) :: entryLiterals rest

end

/-- The written form in running text. -/
def display : Value → String
  | str s => s
  | other _ text _ _ => text
  | v => v.literal

mutual

/-- Whether the value has written forms: every integer in it has one. -/
def isWritable : Value → Bool
  | int n => Decimal.isWritable n
  | list items | set items => areWritable items
  | map entries => entriesAreWritable entries
  | _ => true

/-- Whether all values of a list have written forms. -/
def areWritable : List Value → Bool
  | [] => true
  | v :: vs => isWritable v && areWritable vs

/-- Whether all keys and values of a map have written forms. -/
def entriesAreWritable : List (Value × Value) → Bool
  | [] => true
  | (k, v) :: rest => isWritable k && isWritable v && entriesAreWritable rest

end

/-! ## Size -/

mutual

/-- The number of levels of nesting. -/
def depth : Value → Nat
  | list items => depths items + 1
  | map entries => entryDepths entries + 1
  | set items => depths items + 1
  | _ => 0

/-- The greatest depth in a list. -/
def depths : List Value → Nat
  | [] => 0
  | v :: vs => max (depth v) (depths vs)

/-- The greatest depth among the values of a map. -/
def entryDepths : List (Value × Value) → Nat
  | [] => 0
  | (_, v) :: rest => max (depth v) (entryDepths rest)

end

/-! ## Maps -/

/-- Whether a key is the given text. -/
def isText (name : String) : Value → Bool
  | str s => s == name
  | _ => false

/-- The value under a text key. -/
def lookup (entries : List (Value × Value)) (name : String) : Option Value :=
  (entries.find? fun (k, _) => k.isText name).map (·.2)

/-- Whether two keys are the same key; numbers and truth values compare by their value. -/
def sameKey : Value → Value → Bool
  | null, null => true
  | str a, str b => a == b
  | float a, float b => Float.ofBits a == Float.ofBits b
  | float a, int b | int b, float a => Float.ofBits a == Float.ofInt b
  | float a, bool b | bool b, float a => Float.ofBits a == (if b then 1.0 else 0.0)
  | int a, int b => a == b
  | bool a, bool b => a == b
  | int a, bool b | bool b, int a => a == (if b then 1 else 0)
  | other kind _ a _, other kind' _ b _ => kind == kind' && a == b
  | _, _ => false

/-- Sets the value under a key: in place if the key is there, at the end otherwise. -/
def insert (key value : Value) : List (Value × Value) → List (Value × Value)
  | [] => [(key, value)]
  | (k, v) :: rest =>
    if sameKey k key then (k, value) :: rest else (k, v) :: insert key value rest

/-- A map with text keys. -/
def record (fields : List (String × Value)) : Value :=
  .map (fields.map fun (name, v) => (.str name, v))

end Value

end ModelLint
