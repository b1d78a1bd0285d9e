import ModelLint.Data.NameSet
import ModelLint.Text.Blank
import ModelLint.Text.Case
import ModelLint.Text.Wildcard

/-!
# Patterns of names and types

A name pattern is matched against the whole of a name, ignoring case: `%` and `*` stand for any
stretch of characters, `?` for one, every other character for itself. A type is matched as it is
written or by its base name, which has neither namespace nor arguments nor marks.
-/

namespace ModelLint

namespace Pattern

/-- The piece of one character of a pattern. -/
def piece (c : Char) : Piece :=
  if c = '%' ∨ c = '*' then .run
  else if c = '?' then .single fun _ => true
  else .single (Text.sameLetter c)

/-- The pieces of a pattern. -/
def pieces (pattern : String) : List Piece := pattern.toList.map piece

/-- Whether a pattern matches a name. -/
def accepts (pattern name : String) : Bool := Piece.accepts (pieces pattern) name.toList

/-- Whether one of the patterns matches a name; the empty name is never matched. -/
def anyAccepts (patterns : List String) (name : String) : Bool :=
  name ≠ "" && patterns.any fun pattern => accepts pattern name

/-- Whether there is a name and one of the patterns matches it. -/
def anyAccepts? (patterns : List String) (name : Option String) : Bool :=
  name.any (anyAccepts patterns)

end Pattern

namespace TypeName

/-- What follows an argument list that is opened at the start and closed at the end of a line:
nothing, or the line end of the text. -/
def closing? (cs : List Char) : Option (List Char) :=
  match cs.reverse with
  | '>' :: inner => if inner.contains '\n' then none else some []
  | '\n' :: '>' :: inner => if inner.contains '\n' then none else some ['\n']
  | _ => none

/-- A type without the argument list at its end. -/
def dropArguments : List Char → List Char
  | [] => []
  | c :: rest =>
    if c = '<' then
      match closing? rest with
      | some after => after
      | none => c :: dropArguments rest
    else c :: dropArguments rest

/-- The part behind the last dot. -/
def lastSegment (cs : List Char) : List Char := (cs.reverse.takeWhile (· ≠ '.')).reverse

/-- The base name of a type: without blanks around it, question marks and an argument list at its
end, everything from the first bracket on, and the namespace. -/
def base? (type : String) : Option String :=
  let cs := Text.dropEndWhile (· == '?') (Text.trim type.toList)
  match lastSegment ((dropArguments cs).takeWhile (· ≠ '[')) with
  | [] => none
  | name => some (String.ofList name)

/-- Whether one of the patterns matches a type, as it is written or by its base name. -/
def isMatchedBy (patterns : List String) (type : String) : Bool :=
  Pattern.anyAccepts patterns type || Pattern.anyAccepts? patterns (base? type)

/-- Whether a type is a map that is not safe for concurrent use. -/
def isMap (patterns concurrent : List String) (type : Option String) : Bool :=
  match type with
  | none | some "" => false
  | some type => !isMatchedBy concurrent type && isMatchedBy patterns type

/-- Whether a type is a resource: by a pattern, or as one of the known disposable types. -/
def isResource (patterns : List String) (disposable : NameSet) (type : Option String) : Bool :=
  match type with
  | none | some "" => false
  | some type =>
    isMatchedBy patterns type || disposable.contains type ||
      (base? type).any fun name => disposable.contains name

end TypeName

end ModelLint
