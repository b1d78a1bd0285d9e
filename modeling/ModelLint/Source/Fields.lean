import ModelLint.Source.Names

/-!
# Fields

The names that a module or class body binds become fields. A `Binding` is one place where a name is
bound; `Field.ofBindings` makes one field of all bindings of a name, at the place of the first one.
A module binds names in its nested blocks too, but not in its functions and classes. A class binds
names in its body, and the attributes that its methods assign on their first parameter.
-/

namespace ModelLint.Source

/-- A place where a name is bound. -/
structure Binding where
  /-- The name. -/
  name : String
  /-- The type that the binding shows. -/
  typeName : Option String
  /-- The statement. -/
  range : Range
  /-- Whether the statement is an import. -/
  isImport : Bool
  /-- Whether the statement stands in a block of another statement. -/
  isNested : Bool
  /-- Whether all instances share the name. -/
  isStatic : Bool

/-- A field, by its first binding; its type is the first that a binding shows. -/
abbrev Field := Binding

namespace Field

/-- Adds a binding to the fields. -/
def add (fields : List Field) (b : Binding) : List Field :=
  if fields.any fun f => f.name = b.name then
    fields.map fun f => if f.name = b.name then { f with typeName := f.typeName.or b.typeName } else f
  else fields ++ [b]

/-- The fields of bindings, in order of the first ones. -/
def ofBindings (bindings : List Binding) : List Field := bindings.foldl add []

end Field

/-! ## Assignments -/

/-- The names that an assignment to targets binds; a name that is the only target has the likely
type of the value. -/
def assignedBindings (range : Range) (targets : List Expr) (value : Expr) : List Binding :=
  let typeName := match targets with
    | [.name _ _] => value.likelyType
    | _ => none
  (Expr.boundNamesOf targets).map fun name => ⟨name, typeName, range, false, false, true⟩

/-- The names that an annotated assignment binds. -/
def annotatedBindings (range : Range) (target typeHint : Expr) (value : Option Expr) :
    List Binding :=
  target.boundNames.map fun name => ⟨name, declaredType (some typeHint) value, range, false, false, true⟩

/-! ## Modules -/

mutual

/-- The bindings of a statement of a module. -/
def moduleBindings (isNested : Bool) : Stmt → List Binding
  | .imports range names => names.map fun name => ⟨name, none, range, true, isNested, true⟩
  | .assign range targets value =>
    (assignedBindings range targets value).map fun b => { b with isNested }
  | .annotate range target typeHint value =>
    (annotatedBindings range target typeHint value).map fun b => { b with isNested }
  | .forEach _ _ _ _ body orElse => moduleBindingsOf true body ++ moduleBindingsOf true orElse
  | .whileLoop _ _ body orElse => moduleBindingsOf true body ++ moduleBindingsOf true orElse
  | .choose _ _ body orElse => moduleBindingsOf true body ++ moduleBindingsOf true orElse
  | .withResources _ _ body => moduleBindingsOf true body
  | .matchCases _ _ cases => moduleBindingsOfCases cases
  | .guarded _ body handlers orElse finalBody =>
    moduleBindingsOf true body ++ moduleBindingsOf true orElse ++ moduleBindingsOf true finalBody ++
      moduleBindingsOfHandlers handlers
  | _ => []

/-- The bindings of statements of a module. -/
def moduleBindingsOf (isNested : Bool) : List Stmt → List Binding
  | [] => []
  | s :: rest => moduleBindings isNested s ++ moduleBindingsOf isNested rest

/-- The bindings in the cases of a statement of a module. -/
def moduleBindingsOfCases : List (List Stmt) → List Binding
  | [] => []
  | body :: rest => moduleBindingsOf true body ++ moduleBindingsOfCases rest

/-- The bindings in the handlers of a statement of a module. -/
def moduleBindingsOfHandlers : List Handler → List Binding
  | [] => []
  | .mk _ _ _ body :: rest => moduleBindingsOf true body ++ moduleBindingsOfHandlers rest

end

/-! ## Classes -/

/-- Levels of two trees of statements side by side. -/
def sideBySide : List (List Stmt) → List (List Stmt) → List (List Stmt)
  | [], levels => levels
  | levels, [] => levels
  | a :: as, b :: bs => (a ++ b) :: sideBySide as bs

mutual

/-- A statement and all below it, by depth. Statements of handlers and cases are one level deeper
than the other parts of a statement. -/
def levels (s : Stmt) : List (List Stmt) :=
  [s] :: match s with
    | .function _ _ body | .classType _ _ _ body | .withResources _ _ body => levelsOf body
    | .forEach _ _ _ _ body orElse | .whileLoop _ _ body orElse | .choose _ _ body orElse =>
      sideBySide (levelsOf body) (levelsOf orElse)
    | .matchCases _ _ cases => [] :: levelsOfCases cases
    | .guarded _ body handlers orElse finalBody =>
      sideBySide
        (sideBySide (sideBySide (levelsOf body) ([] :: levelsOfHandlers handlers)) (levelsOf orElse))
        (levelsOf finalBody)
    | _ => []

/-- Statements and all below them, by depth. -/
def levelsOf : List Stmt → List (List Stmt)
  | [] => []
  | s :: rest => sideBySide (levels s) (levelsOf rest)

/-- The statements of cases, by depth. -/
def levelsOfCases : List (List Stmt) → List (List Stmt)
  | [] => []
  | body :: rest => sideBySide (levelsOf body) (levelsOfCases rest)

/-- The statements of handlers, by depth. -/
def levelsOfHandlers : List Handler → List (List Stmt)
  | [] => []
  | .mk _ _ _ body :: rest => sideBySide (levelsOf body) (levelsOfHandlers rest)

end

/-- The attribute of a name that an expression is. -/
def attributeOf? (receiver : String) : Expr → Option String
  | .attribute _ (.name _ id) attr => if id = receiver then some attr else none
  | _ => none

/-- The attributes of a name that a statement assigns. -/
def attributeBindings (receiver : String) : Stmt → List Binding
  | .assign range targets value =>
    (targets.filterMap (attributeOf? receiver)).map fun name =>
      ⟨name, value.likelyType, range, false, false, false⟩
  | .annotate range target typeHint value =>
    (attributeOf? receiver target).toList.map fun name =>
      ⟨name, declaredType (some typeHint) value, range, false, false, false⟩
  | .augment range target _ _ =>
    (attributeOf? receiver target).toList.map fun name => ⟨name, none, range, false, false, false⟩
  | _ => []

/-- The attributes that a method assigns on its first parameter, by the depth of the statements. A
static method has no such parameter. -/
def methodBindings (signature : Signature) (body : List Stmt) : List Binding :=
  if signature.decoratorNames.contains "staticmethod" then []
  else match signature.parameters.find? Parameter.isPositional with
    | none => []
    | some receiver => (levelsOf body).flatten.flatMap (attributeBindings receiver.name)

/-- The bindings of a class: those of its body before those of its methods. -/
def classBindings (body : List Stmt) : List Binding :=
  (body.flatMap fun
    | .assign range targets value => assignedBindings range targets value
    | .annotate range target typeHint value => annotatedBindings range target typeHint value
    | _ => []) ++
  body.flatMap fun
    | .function _ signature body => methodBindings signature body
    | _ => []

end ModelLint.Source
