import ModelLint.Text.Decoding
import ModelLint.Workspace.Entry

/-!
# Workspaces

A workspace is a tree of files with a current directory, from which relative paths start.

There are two ways to follow a path. Looking something up goes through the tree and fails where a
name is missing. Resolving a path only rewrites it: it becomes absolute, and each `..` takes away
the component before it, whether or not anything is there.
-/

namespace ModelLint

/-- A tree of files and the directory that relative paths start from. -/
structure Workspace where
  /-- The tree. -/
  tree : Entry
  /-- The place of the current directory. -/
  current : Place
deriving Inhabited

namespace Workspace

variable (w : Workspace)

/-- The place that a path starts from. -/
def origin (p : Path) : Place := if p.root = "" then w.current else []

/-- The place that a path leads to. -/
def place? (p : Path) : Option Place := w.tree.follow? [] (w.origin p ++ p.components)

/-- What stands at a path. -/
def entry? (p : Path) : Option Entry := (w.place? p).bind w.tree.at?

/-- Whether a directory stands at a path. -/
def isDirectory (p : Path) : Bool := (w.entry? p).any Entry.isDirectory

/-- Whether a file stands at a path. -/
def isFile (p : Path) : Bool := (w.entry? p).any fun e => !e.isDirectory

/-- The bytes of the file at a path. -/
def bytes? (p : Path) : Option ByteArray := (w.entry? p).bind Entry.bytes?

/-- Takes the component before each `..` away. -/
def collapse : List String → List String → List String
  | kept, [] => kept.reverse
  | kept, name :: rest => if name = ".." then collapse kept.tail rest else collapse (name :: kept) rest

/-- The absolute path without `..` that a path is read as. -/
def resolve (p : Path) : Path :=
  { root := "/", components := collapse [] (w.origin p ++ p.components) }

/-- The path of the directory that holds a resolved path, or of the path itself if a directory
stands there. -/
def directoryOf (p : Path) : Path :=
  if w.isDirectory p then p else { p with components := p.components.dropLast }

/-- The files below a directory, in the order of their places. -/
def filesBelow (p : Path) : List Place :=
  ((w.entry? p).elim [] Entry.filePlaces).mergeSort Path.partsLe

/-- The workspace with a file written at a path. The directory of the file must be there, and the
path must not be that of a directory. -/
def write? (p : Path) (bytes : ByteArray) : Option Workspace :=
  match p.components.getLast? with
  | none | some ".." => none
  | some name => do
    let place ← w.place? { p with components := p.components.dropLast }
    let entry ← w.tree.at? place
    match entry, entry.child? name with
    | .directory _, some (.directory _) => none
    | .directory _, _ => some { w with tree := (Entry.file bytes).insert (place ++ [name]) w.tree }
    | .file _, _ => none

end Workspace

/-- The end of a message about a text: the reason why it has no value, where the reader tells one. -/
def reasonText (reason : String) : String := if reason = "" then "" else ": " ++ reason

end ModelLint
