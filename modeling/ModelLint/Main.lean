import ModelLint.Command.Run

/-!
# The program

Reads into a workspace what the command line names, runs its command there, prints what the command
prints, and writes the file that it writes.
-/

namespace ModelLint.Program

/-- Reads the file or the directory at a path with all that is below it. -/
partial def readEntry (path : String) : IO Entry := do
  let real ← IO.FS.realPath path
  if ← real.isDir then
    let names := (← real.readDir).map (·.fileName)
    return .directory (← names.toList.mapM fun name => do
      return (name, ← readEntry (path ++ "/" ++ name)))
  else return .file (← IO.FS.readBinFile real)

/-- Adds to a workspace what stands at a resolved path, if anything does. -/
def addEntry (w : Workspace) (p : Path) : IO Workspace := do
  try
    return { w with tree := (← readEntry p.toString).insert p.components w.tree }
  catch _ => return w

/-- Adds to a workspace what stands at a path, with the directory of the path and the configuration
file there. -/
def addPath (w : Workspace) (p : Path) : IO Workspace := do
  let p := w.resolve p
  let parent := { p with components := p.components.dropLast }
  let w ← addEntry w (parent.child Configuration.fileName)
  addEntry w p

/-- Adds to a workspace the directory that a path is written in, if it is one. -/
def addDirectory (w : Workspace) (p : Path) : IO Workspace := do
  let p := w.resolve p
  let parent := { p with components := p.components.dropLast }
  try
    let real ← IO.FS.realPath parent.toString
    if !w.isDirectory parent ∧ (← real.isDir) then
      return { w with tree := Entry.empty.insert parent.components w.tree }
    else return w
  catch _ => return w

/-- The workspace of a command line. -/
def workspace (args : List String) : IO Workspace := do
  let current := (Path.ofString (← IO.currentDir).toString).components
  let w : Workspace := ⟨Entry.empty.insert current Entry.empty, current⟩
  let w ← addEntry w ((w.resolve (.ofString ".")).child Configuration.fileName)
  let (reads, writes) := Command.touched args
  let w ← reads.foldlM addPath w
  writes.toList.foldlM addDirectory w

end ModelLint.Program

/-- Runs the command of the command line. -/
def main (args : List String) : IO UInt32 := do
  let ending := ModelLint.Command.run (← ModelLint.Program.workspace args) args
  IO.print ending.output
  match ending.written with
  | some (path, text) => IO.FS.writeFile path.toString text
  | none => pure ()
  return ending.exit.toUInt32
