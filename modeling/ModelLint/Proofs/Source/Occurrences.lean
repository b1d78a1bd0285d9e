import ModelLint.Source.Fields

/-!
# What occurs in a syntax tree

Names, bindings and handlers that the nodes of an expression or a statement are made of, wherever
they stand in it. Annotations, decorators, bases and defaults have no nodes and do not count.

* `Expr.collect`: whatever can be read off an expression and the expressions below it.
* `Expr.mentioned`, `Expr.walruses`: names that are mentioned, names that are bound on the way.
* `Stmt.mentioned`: names that statements mention or give to functions.
* `Stmt.isWritten`: all types of the handlers below have a written form.
* `Stmt.initializers`: what the fields of a class are initialized with.
-/

namespace ModelLint.Source

variable {α : Type}

namespace Expr

variable (f : Expr → List α)

mutual

/-- What `f` reads off an expression and off those below it. -/
@[simp] def collect : Expr → List α
  | .name r id => f (.name r id)
  | .constant r value hasLetter => f (.constant r value hasLetter)
  | .attribute r value attr => f (.attribute r value attr) ++ collect value
  | .subscript r value index => f (.subscript r value index) ++ collect value ++ collect index
  | .call r function args keywords =>
    f (.call r function args keywords) ++ collect function ++ collectAll args ++
      collectKeywords keywords
  | .compound r form operands => f (.compound r form operands) ++ collectAll operands
  | .dict r entries => f (.dict r entries) ++ collectEntries entries
  | .walrus r target id value => f (.walrus r target id value) ++ collect value
  | .lambda r parameters body => f (.lambda r parameters body) ++ collect body
  | .comprehension r kind elements first rest =>
    f (.comprehension r kind elements first rest) ++ collectAll elements ++ collectClause first ++
      collectClauses rest

/-- What `f` reads off several expressions. -/
@[simp] def collectAll : List Expr → List α
  | [] => []
  | e :: es => collect e ++ collectAll es

/-- What `f` reads off arguments by name. -/
@[simp] def collectKeywords : List Keyword → List α
  | [] => []
  | .mk _ value :: rest => collect value ++ collectKeywords rest

/-- What `f` reads off the entries of a dictionary. -/
@[simp] def collectEntries : List Entry → List α
  | [] => []
  | .pair key value :: rest => collect key ++ collect value ++ collectEntries rest
  | .unpack value :: rest => collect value ++ collectEntries rest

/-- What `f` reads off a loop of a comprehension. -/
@[simp] def collectClause : Clause → List α
  | .mk _ target source conditions => collect target ++ collect source ++ collectAll conditions

/-- What `f` reads off several loops of a comprehension. -/
@[simp] def collectClauses : List Clause → List α
  | [] => []
  | clause :: rest => collectClause clause ++ collectClauses rest

end

/-- The name that an expression mentions itself. -/
@[simp] def ownName : Expr → List String
  | .name _ id | .attribute _ _ id | .walrus _ _ id _ => [id]
  | _ => []

/-- The name that an expression binds itself, on the way. -/
def ownWalrus : Expr → List String
  | .walrus _ _ id _ => [id]
  | _ => []

/-- The names that an expression mentions. -/
def mentioned (e : Expr) : List String := e.collect ownName

/-- The names that an expression binds on the way. -/
def walruses (e : Expr) : List String := e.collect ownWalrus

end Expr

/-! ## Statements -/

/-- The expressions of a resource and of what it is bound to. -/
def Resource.expressions (r : Resource) : List Expr := r.context :: r.target.toList

mutual

/-- The names that a statement mentions or gives to functions. -/
@[simp] def Stmt.mentioned : Stmt → List String
  | .function _ signature body => signature.name :: mentionedIn body
  | .classType _ _ _ body => mentionedIn body
  | .returnValue _ value => value.toList.flatMap Expr.mentioned
  | .assign _ targets value => value.mentioned ++ targets.flatMap Expr.mentioned
  | .augment _ target _ value => target.mentioned ++ value.mentioned
  | .annotate _ target _ value => target.mentioned ++ value.toList.flatMap Expr.mentioned
  | .forEach _ _ target source body orElse =>
    target.mentioned ++ source.mentioned ++ mentionedIn body ++ mentionedIn orElse
  | .whileLoop _ condition body orElse =>
    condition.mentioned ++ mentionedIn body ++ mentionedIn orElse
  | .choose _ condition body orElse => condition.mentioned ++ mentionedIn body ++ mentionedIn orElse
  | .withResources _ resources body =>
    (resources.flatMap Resource.expressions).flatMap Expr.mentioned ++ mentionedIn body
  | .matchCases _ subject cases => subject.mentioned ++ mentionedInCases cases
  | .throwError _ error cause =>
    error.toList.flatMap Expr.mentioned ++ cause.toList.flatMap Expr.mentioned
  | .guarded _ body handlers orElse finalBody =>
    mentionedIn body ++ mentionedInHandlers handlers ++ mentionedIn orElse ++ mentionedIn finalBody
  | .expr _ value => value.mentioned
  | .simple _ _ operands => operands.flatMap Expr.mentioned
  | .imports _ _ | .globals _ _ | .nonlocals _ _ => []

/-- The names that statements mention or give to functions. -/
@[simp] def mentionedIn : List Stmt → List String
  | [] => []
  | s :: rest => s.mentioned ++ mentionedIn rest

/-- The names in the cases of a choice by pattern. -/
@[simp] def mentionedInCases : List (List Stmt) → List String
  | [] => []
  | body :: rest => mentionedIn body ++ mentionedInCases rest

/-- The names in handlers. -/
@[simp] def mentionedInHandlers : List Handler → List String
  | [] => []
  | .mk _ _ _ body :: rest => mentionedIn body ++ mentionedInHandlers rest

end

mutual

/-- Whether all types of the handlers below a statement have a written form. -/
def Stmt.isWritten : Stmt → Bool
  | .function _ _ body | .withResources _ _ body => areWritten body
  | .classType _ _ _ body => areWrittenMembers body
  | .forEach _ _ _ _ body orElse | .whileLoop _ _ body orElse | .choose _ _ body orElse =>
    areWritten body && areWritten orElse
  | .matchCases _ _ cases => areWrittenCases cases
  | .guarded _ body handlers orElse finalBody =>
    areWritten body && areWrittenHandlers handlers && areWritten orElse && areWritten finalBody
  | _ => true

/-- Whether all types of the handlers below statements have a written form. -/
def areWritten : List Stmt → Bool
  | [] => true
  | s :: rest => s.isWritten && areWritten rest

/-- Whether all types of the handlers below members of a class have a written form. -/
def areWrittenMembers : List Stmt → Bool
  | [] => true
  | .function _ _ body :: rest => areWritten body && areWrittenMembers rest
  | .classType _ _ _ body :: rest => areWrittenMembers body && areWrittenMembers rest
  | _ :: rest => areWrittenMembers rest

/-- Whether all types of the handlers in cases have a written form. -/
def areWrittenCases : List (List Stmt) → Bool
  | [] => true
  | body :: rest => areWritten body && areWrittenCases rest

/-- Whether all types of handlers and of those below have a written form. -/
def areWrittenHandlers : List Handler → Bool
  | [] => true
  | .mk _ type _ body :: rest =>
    (Expr.handledTypes type).isSome && areWritten body && areWrittenHandlers rest

end

theorem mentionedIn_eq_flatMap (body : List Stmt) : mentionedIn body = body.flatMap Stmt.mentioned := by
  induction body with
  | nil => rfl
  | cons stmt rest ih => rw [mentionedIn, ih, List.flatMap_cons]

theorem areWritten_eq_all (body : List Stmt) : areWritten body = body.all Stmt.isWritten := by
  induction body with
  | nil => rfl
  | cons stmt rest ih => rw [areWritten, ih, List.all_cons]

mutual

/-- What fields are initialized with in the classes that a statement of a module or class is; the
classes in functions do not count. -/
def Stmt.initializers : Stmt → List Expr
  | .classType _ _ _ body => initializersIn body
  | _ => []

/-- What fields are initialized with in the body of a class. -/
def initializersIn : List Stmt → List Expr
  | [] => []
  | .assign _ [.name _ _] value :: rest => value :: initializersIn rest
  | .annotate _ (.name _ _) _ (some value) :: rest => value :: initializersIn rest
  | s :: rest => s.initializers ++ initializersIn rest

end

end ModelLint.Source
