import ModelLint.Text.Glob
import ModelLint.Text.Path

/-!
# Files that are left out

A search of a directory leaves a file out if a component of its path from there is hidden, that is,
starts with a dot, or if a glob accepts a component or the path as a whole.
-/

namespace ModelLint.Exclusion

/-- The globs of directories that hold no sources of their own. -/
def defaultGlobs : List String :=
  ["__pycache__", "*.egg-info", "node_modules", "build", "dist", "venv", ".venv", "bin", "obj"]

/-- Whether a component is hidden. -/
def isHidden (component : String) : Bool := component.toList.head? == some '.'

/-- Whether a file is left out, from the text of its path. -/
def excludes (globs : List String) (path : String) : Bool :=
  (Path.ofString path).parts.any (fun part => isHidden part || globs.any fun g => Glob.accepts g part) ||
    globs.any fun g => Glob.accepts g path

end ModelLint.Exclusion
