import ModelLint.Text.Path

/-!
# Trees of files

What stands under a name of a directory is a file with its bytes or a directory with its entries.
A place in a tree is the list of the names that lead to it. Following a written path is stricter
than reading it: every name on the way must be there, and `..` leaves only a directory.
-/

namespace ModelLint

/-- What stands under a name of a directory. -/
inductive Entry where
  /-- A file. -/
  | file (bytes : ByteArray)
  /-- A directory; every name occurs once. -/
  | directory (entries : List (String × Entry))
deriving Inhabited

/-- A place in a tree: the names that lead to it from the root. -/
abbrev Place := List String

namespace Entry

/-- The directory without entries. -/
def empty : Entry := .directory []

/-- Whether the entry is a directory. -/
def isDirectory : Entry → Bool
  | directory _ => true
  | file _ => false

/-- The bytes of a file. -/
def bytes? : Entry → Option ByteArray
  | file bytes => some bytes
  | directory _ => none

/-- What stands under a name. -/
def child? (name : String) : Entry → Option Entry
  | directory entries => entries.lookup name
  | file _ => none

/-- What stands at a place. -/
def at? (e : Entry) : Place → Option Entry
  | [] => some e
  | name :: rest => (e.child? name).bind fun inner => inner.at? rest

/-- Puts an entry under a name of a list of entries, in place of one that is there. -/
def put (name : String) (e : Entry) : List (String × Entry) → List (String × Entry)
  | [] => [(name, e)]
  | (n, old) :: rest => if n = name then (n, e) :: rest else (n, old) :: put name e rest

/-- Puts an entry at a place; directories on the way are made, and a file on the way becomes one. -/
def insert (e : Entry) : Place → Entry → Entry
  | [], _ => e
  | name :: rest, directory entries =>
    let inner := (entries.lookup name).getD empty
    directory (put name (insert e rest inner) entries)
  | name :: rest, file _ => directory [(name, insert e rest empty)]

mutual

/-- The places of all files. -/
def filePlaces : Entry → List Place
  | file _ => [[]]
  | directory entries => filePlacesOf entries

/-- The places of all files of a list of entries. -/
def filePlacesOf : List (String × Entry) → List Place
  | [] => []
  | (name, e) :: rest => e.filePlaces.map (name :: ·) ++ filePlacesOf rest

end

/-- Where a written path leads from a place. -/
def follow? (root : Entry) : Place → List String → Option Place
  | place, [] => some place
  | place, name :: rest =>
    if name = ".." then
      if (root.at? place).any isDirectory then root.follow? place.dropLast rest else none
    else if (root.at? (place ++ [name])).isSome then root.follow? (place ++ [name]) rest
    else none

end Entry

end ModelLint
