/-!
# Paths

A path is a root and a list of components. Reading drops empty components and components `.`;
`..` stays. The root is empty, `/`, or `//` when the text starts with exactly two slashes.
-/

namespace ModelLint

/-- A path: its root and its components. -/
structure Path where
  /-- The root: empty for a relative path. -/
  root : String
  /-- The components below the root. -/
  components : List String
deriving DecidableEq, Inhabited

namespace Path

/-- The root that a text starts with. -/
def rootOf (text : List Char) : String :=
  match (text.takeWhile (· == '/')).length with
  | 0 => ""
  | 2 => "//"
  | _ => "/"

/-- The path that a text denotes. -/
def ofString (text : String) : Path where
  root := rootOf text.toList
  components := ((text.toList.splitOn '/').map String.ofList).filter fun part =>
    part ≠ "" ∧ part ≠ "."

/-- The written form; a path without root and components is `.`. -/
def toString (p : Path) : String :=
  if p.root = "" ∧ p.components = [] then "." else p.root ++ String.intercalate "/" p.components

instance : ToString Path := ⟨Path.toString⟩

/-- The root, if there is one, and the components. -/
def parts (p : Path) : List String :=
  if p.root = "" then p.components else p.root :: p.components

/-- The last component, or the empty text. -/
def name (p : Path) : String := p.components.getLast?.getD ""

/-- A name cut at its last dot, unless the dot is its first or last character. -/
def splitName (name : List Char) : List Char × List Char :=
  match name.reverse.span (· ≠ '.') with
  | (_, []) => (name, [])
  | ([], _) => (name, [])
  | (_, [_]) => (name, [])
  | (ending, _ :: stem) => (stem.reverse, '.' :: ending.reverse)

/-- The last component without its suffix. -/
def stem (p : Path) : String := String.ofList (splitName p.name.toList).1

/-- The suffix of the last component, with its dot. -/
def suffix (p : Path) : String := String.ofList (splitName p.name.toList).2

/-- Whether parts come before or equal others: by the first that differs, then by length. -/
def partsLe : List String → List String → Bool
  | [], _ => true
  | _ :: _, [] => false
  | a :: as, b :: bs => a < b || (a == b && partsLe as bs)

/-- The path of a component below a path. -/
def child (p : Path) (component : String) : Path :=
  { p with components := p.components ++ [component] }

end Path

end ModelLint
