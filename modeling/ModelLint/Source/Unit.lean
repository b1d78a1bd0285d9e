import ModelLint.Program.Link
import ModelLint.Program.Query
import ModelLint.Source.Comments
import ModelLint.Source.Grammar.Statement
import ModelLint.Source.Nodes

/-!
# Units of source

A module is a type with its functions and classes as members. Its names are static fields, at the
place where they are first bound. All other statements make up the method `<module>`. `load` reads a
source text and links its unit.
-/

namespace ModelLint.Source

open Build

/-- The members and statements of a module so far. -/
structure ModuleParts where
  /-- The members. -/
  members : List Tree
  /-- The statements. -/
  statements : List Tree
  /-- The names that have a field node. -/
  emitted : List String
  /-- The frame of the module's own statements. -/
  frame : Frame

namespace ModuleParts

/-- Builds in the frame of the module. -/
def inFrame (parts : ModuleParts) (build : Build (List Tree)) : Build ModuleParts := do
  modify fun s => { s with frames := parts.frame :: s.frames }
  let nodes ← build
  let s ← get
  set { s with frames := s.frames.drop 1 }
  return { parts with
    statements := parts.statements ++ nodes, frame := s.frames.headD parts.frame }

/-- Adds the fields of names that have no node yet, at a place. -/
def addFields (parts : ModuleParts) (r : Range) (modifiers : List String) (initializer : Option Tree) :
    List String → Build ModuleParts
  | [] => return parts
  | name :: rest => do
    match parts.emitted.contains name, (← get).moduleFields.lookup name with
    | false, some v =>
      let node ← fieldAt r modifiers name v initializer
      addFields { parts with members := parts.members ++ [node], emitted := name :: parts.emitted }
        r modifiers initializer rest
    | _, _ => addFields parts r modifiers initializer rest

/-- Adds an assignment in a module. The first one to a name alone is the initializer of its field,
and all declarations that are still pending become statements; any other is a statement. -/
def addAssignment (parts : ModuleParts) (locks : List String) (s : Stmt) (targets : List Expr)
    (value : Option Expr) : Build ModuleParts := do
  let names := Expr.boundNamesOf targets
  match targets, value with
  | [.name _ id], value =>
    if parts.emitted.contains id then parts.inFrame (stmtNodes locks s)
    else
      modify fun s => { s with frames := parts.frame :: s.frames }
      let initializer ← match value with
        | none => pure none
        | some value => some <$> exprNode value
      let state ← get
      set { state with frames := state.frames.drop 1, pending := [] }
      let parts ← parts.addFields s.range [] initializer names
      return { parts with
        statements := parts.statements ++ state.pending
        frame := state.frames.headD parts.frame }
  | _, _ =>
    let parts ← parts.addFields s.range [] none names
    parts.inFrame (stmtNodes locks s)

/-- Adds a statement of a module. -/
def addStatement (parts : ModuleParts) (locks : List String) (s : Stmt) : Build ModuleParts := do
  match s with
  | .function r signature body =>
    let node ← methodNode r signature none (stmtsNodes locks body)
    return { parts with members := parts.members ++ [node] }
  | .classType r name bases body =>
    let c ← openClass name bases body
    let members ← withQualifier name (memberNodes locks c [] body)
    return { parts with members := parts.members ++ [← classNode r name body members] }
  | .imports r names => parts.addFields r ["import"] none names
  | .assign _ targets value => parts.addAssignment locks s targets (some value)
  | .annotate _ target _ value => parts.addAssignment locks s [target] value
  | s => parts.inFrame (stmtNodes locks s)

end ModuleParts

/-- The first place of a file. -/
def firstPlace : Location := { line := 1, column := 1, endLine := none, endColumn := none }

/-- The method that holds the statements of a module, if there are any. -/
def moduleMethod? (moduleName : String) (statements : List Tree) : Option Tree :=
  statements.head?.map fun first =>
    .node { first.location with endLine := none, endColumn := none } (.declaration
      { name := Graph.moduleBody, kind := .method
        qualifiedName := moduleName ++ "." ++ Graph.moduleBody, modifiers := [], parameters := [], var := none, isDisposable := false } [] none statements)

/-- The node of a module of the given name. -/
def moduleNode (locks : List String) (moduleName : String) (body : List Stmt) : Build Tree := do
  let fields ← fieldVariables (Field.ofBindings (moduleBindingsOf false body))
  modify fun s =>
    { s with
      moduleFields := fields.map fun (f, v) => (f.name, v)
      qualifiers := [moduleName] }
  let start : ModuleParts := ⟨[], [], [], ⟨[], [], [], true⟩⟩
  let parts ← body.foldlM (fun parts s => parts.addStatement locks s) start
  let nested := fields.filter fun (f, _) => f.isNested
  let parts ← nested.foldlM (fun parts (f, _) =>
    parts.addFields f.range (if f.isImport then ["import"] else []) none [f.name]) parts
  let hoisted := (← get).hoisted
  let members := parts.members ++ (moduleMethod? moduleName parts.statements).toList ++ hoisted
  return .node firstPlace (.declaration
    { name := moduleName, kind := .type, qualifiedName := moduleName, modifiers := [],
      parameters := [], var := none, isDisposable := false } members none [])

/-- Why a source text has no linked unit. -/
inductive LoadFailure where
  /-- The text holds the null character. -/
  | nullCharacter
  /-- The text has not the form of a module. -/
  | grammar (path : Path)
  /-- The nodes cannot be built. -/
  | build (failure : BuildFailure)
  /-- The comments cannot be told from the rest. -/
  | comments (path : Path)
  /-- The unit cannot be linked. -/
  | link (path : Path) (failure : LinkFailure)

/-- The message of a failure. -/
def LoadFailure.message : LoadFailure → String
  | .nullCharacter => "source code string cannot contain null bytes"
  | .grammar path => "Syntax error in " ++ path.toString
  | .build .noFrame => "list index out of range"
  | .build .unwritable => "Unable to avoid backslash in f-string expression part"
  | .comments path => "Cannot tokenize " ++ path.toString
  | .link path failure => failure.message path

/-- The name of the language. -/
def languageName : String := "python"

/-- The tree of the unit of a source text at a path, with its variables. -/
def unitTree (named : Text.CharacterNames) (locks : List String) (source : String) (path : Path) :
    Except LoadFailure (Tree × Array Variable) := do
  if source.toList.contains '\x00' then throw .nullCharacter
  let body ← match Stmt.ofSource? named source with
    | some body => pure body
    | none => throw (.grammar path)
  let (node, s) ← match (moduleNode locks path.stem body).run .start with
    | .ok built => pure built
    | .error failure => throw (.build failure)
  let comments ← match comments? source with
    | some comments => pure comments
    | none => throw (.comments path)
  let info : UnitInfo := { path, language := languageName, comments, disposableTypes := [] }
  return (.node firstPlace (.sourceUnit info [node]), s.vars)

/-- The linked unit of a source text at a path; a resource is a lock if its name or type fits one of
the patterns. -/
def load (named : Text.CharacterNames) (locks : List String) (source : String) (path : Path) :
    Except LoadFailure Model := do
  let (tree, vars) ← unitTree named locks source path
  match Model.ofTree vars tree with
  | .ok model => return model
  | .error failure => throw (.link path failure)

end ModelLint.Source
