import ModelLint.Program.Tree
import ModelLint.Source.Fields

/-!
# Scopes

The names in sight while the nodes of a module are built. A function, an anonymous function and a
comprehension have a frame each; the names of the module are fields. A name that is read is sought
in all frames from the innermost on and then among the fields. A name that is assigned belongs to
the innermost frame, unless it is declared otherwise.
-/

namespace ModelLint.Source

/-- Why a module has no model. -/
inductive BuildFailure where
  /-- A name is bound where no frame is open. -/
  | noFrame
  /-- A type of a handler has no written form. -/
  | unwritable
deriving DecidableEq

/-- Names with their variables. A later entry for a name stands before the earlier ones. -/
abbrev Names := List (String × VariableId)

/-- The names bound in a function, an anonymous function or a comprehension. -/
structure Frame where
  /-- The bound names. -/
  names : Names
  /-- The names declared as those of the module. -/
  globals : List String
  /-- The names declared as those of a function around. -/
  nonlocals : List String
  /-- Whether it is the frame of the module. -/
  isModule : Bool

/-- The frame of a function with the given parameters. -/
def Frame.ofNames (names : Names) : Frame := ⟨names.reverse, [], [], false⟩

/-- What a method sees through its first parameter. -/
structure Receiver where
  /-- The fields of the class. -/
  fields : Names
  /-- The name of the parameter; a static method has none. -/
  name : Option String

/-- What is known while nodes are built. -/
structure Building where
  /-- The variables. -/
  vars : Array Variable
  /-- The fields of the module. -/
  moduleFields : Names
  /-- The fields of the classes. -/
  classFields : List (String × Names)
  /-- The open frames, innermost first. -/
  frames : List Frame
  /-- The receivers of the open methods, innermost first. -/
  receivers : List Receiver
  /-- The names of the open declarations, innermost first. -/
  qualifiers : List String
  /-- Declarations of names that an expression binds, to be put before its statement. -/
  pending : List Tree
  /-- Declarations that move from functions to the module. -/
  hoisted : List Tree

/-- Nothing is known yet. -/
def Building.start : Building := ⟨#[], [], [], [], [], [], [], []⟩

/-- A step that builds nodes. -/
abbrev Build := StateT Building (Except BuildFailure)

/-! ## Locations -/

/-- The location of a range; columns count from one. -/
def Range.location (r : Range) : Location :=
  { line := r.start.line, column := r.start.column + 1, endLine := some r.stop.line,
    endColumn := some (r.stop.column + 1) }

namespace Build

variable {α : Type}

/-! ## Nesting -/

/-- Builds with one more frame. -/
def withFrame (frame : Frame) (build : Build α) : Build α := do
  modify fun s => { s with frames := frame :: s.frames }
  let result ← build
  modify fun s => { s with frames := s.frames.drop 1 }
  return result

/-- Builds with one more receiver, if there is one. -/
def withReceiver (receiver : Option Receiver) (build : Build α) : Build α :=
  match receiver with
  | none => build
  | some receiver => do
    modify fun s => { s with receivers := receiver :: s.receivers }
    let result ← build
    modify fun s => { s with receivers := s.receivers.drop 1 }
    return result

/-- Builds inside a declaration of the given name. -/
def withQualifier (name : String) (build : Build α) : Build α := do
  modify fun s => { s with qualifiers := name :: s.qualifiers }
  let result ← build
  modify fun s => { s with qualifiers := s.qualifiers.drop 1 }
  return result

/-- Builds on its own; gives the pending declarations too. -/
def collectPending (build : Build α) : Build (List Tree × α) := do
  let saved := (← get).pending
  modify fun s => { s with pending := [] }
  let result ← build
  let pending := (← get).pending
  modify fun s => { s with pending := saved }
  return (pending, result)

/-- A name with those of the open declarations. -/
def qualified (name : String) : Build String := do
  return ".".intercalate ((name :: (← get).qualifiers).reverse)

/-! ## Variables -/

/-- A new variable. -/
def newVariable (name : String) (typeName : Option String) (kind : VariableKind)
    (isStatic : Bool) : Build VariableId := do
  let s ← get
  set { s with vars := s.vars.push { name, typeName, kind, isStatic, scope := none } }
  return s.vars.size

/-- A new local variable. -/
def newLocal (name : String) (typeName : Option String) : Build VariableId :=
  newVariable name typeName .localVar false

/-- The type of a variable. -/
def typeOf? (v : VariableId) : Build (Option String) := do
  return (← get).vars[v]?.bind Variable.typeName

/-- Changes the innermost frame. -/
def modifyFrame (f : Frame → Frame) : Build Unit := do
  match (← get).frames with
  | [] => throw .noFrame
  | frame :: outer => modify fun s => { s with frames := f frame :: outer }

/-- Binds a name in the innermost frame. -/
def bindName (name : String) (v : VariableId) : Build Unit :=
  modifyFrame fun frame => { frame with names := (name, v) :: frame.names }

/-- The variable that a mention of a name means. -/
def lookup? (name : String) : Build (Option VariableId) := do
  let s ← get
  return (s.frames.findSome? fun frame => frame.names.lookup name).or (s.moduleFields.lookup name)

/-- The node of a field. -/
def fieldNode (l : Location) (qualifiedName : String) (modifiers : List String) (name : String)
    (v : VariableId) (initializer : Option Tree) : Tree :=
  .node l (.declaration
    { name, kind := .field, qualifiedName, modifiers := NameSet.ofList modifiers, parameters := [],
      var := some v, isDisposable := false } [] initializer [])

/-- The field of the module for a name; it is declared at its first use. -/
def globalField (name : String) (modifiers : List String) : Build VariableId := do
  match (← get).moduleFields.lookup name with
  | some v => return v
  | none =>
    let v ← newVariable name none .field true
    let qualifiedName := (← get).qualifiers.getLastD "" ++ "." ++ name
    let nowhere : Location := { line := 0, column := 0, endLine := none, endColumn := none }
    modify fun s =>
      { s with
        moduleFields := (name, v) :: s.moduleFields
        hoisted := s.hoisted ++ [fieldNode nowhere qualifiedName modifiers name v none] }
    return v

/-- The variable that an assignment to a name changes, if the name is bound. -/
def binding? (name : String) : Build (Option VariableId) := do
  let s ← get
  match s.frames with
  | [] => return s.moduleFields.lookup name
  | frame :: outer =>
    match frame.names.lookup name with
    | some v => return some v
    | none =>
      if frame.globals.contains name then some <$> globalField name ["static"]
      else if frame.isModule then return s.moduleFields.lookup name
      else if frame.nonlocals.contains name then
        return outer.findSome? fun frame => frame.names.lookup name
      else return none

/-- Whether an expression is the first parameter of the innermost method. -/
def isReceiver (e : Expr) : Build Bool := do
  match (← get).receivers.head?.bind Receiver.name with
  | none => return false
  | some name => return e.name? = some name

/-- The field of a name of the innermost method's class. -/
def receiverField? (name : String) : Build (Option VariableId) := do
  return (← get).receivers.head?.bind fun receiver => receiver.fields.lookup name

/-- Puts a declaration before the statement. -/
def addPending (t : Tree) : Build Unit :=
  modify fun s => { s with pending := s.pending ++ [t] }

/-- Moves a declaration to the module. -/
def addHoisted (t : Tree) : Build Unit :=
  modify fun s => { s with hoisted := s.hoisted ++ [t] }

end Build

end ModelLint.Source
