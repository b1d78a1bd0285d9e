import ModelLint.Number.Decimal
import ModelLint.Program.Graph
import ModelLint.Rules.Pattern

/-!
# Questions about nodes

What the rules ask about a node of a linked unit: what it mentions, what it is inside of, whether
it may run concurrently with its caller. All answers are read off the graph; none changes it.
-/

namespace ModelLint

/-- Something a question needs is not in the model. -/
inductive Unresolved where
  /-- A variable without a scope. -/
  | noScope (name : String)
  /-- A member of the own type that is not declared. -/
  | noMember (name : String) (line : Int)
deriving DecidableEq

/-- What is missing; a line that cannot be written leaves it without words. -/
def Unresolved.message? : Unresolved → Option String
  | .noScope name => some ("Variable '" ++ name ++ "' has no declaring scope")
  | .noMember name line => do
    return "Cannot resolve member '" ++ name ++ "' at line " ++ (← Decimal.text? line)

namespace Graph

/-- The name of the method that holds the statements run at import time. -/
def moduleBody : String := "<module>"

/-! ## Mentions -/

/-- The variable that a node mentions. -/
def mentioned? (g : Graph) (n : NodeId) : Option VariableId :=
  match g.shape n with
  | .varAccess _ var => var
  | .fieldAccess _ _ var => var
  | _ => none

/-- Whether a node itself mentions a variable. -/
def isDirectMention (g : Graph) (v : VariableId) (n : NodeId) : Bool := g.mentioned? n == some v

/-- Whether a node or one below it mentions a variable. -/
def mentions (g : Graph) (v : VariableId) (n : NodeId) : Bool :=
  (g.preorder n).any (g.isDirectMention v)

/-- The node that owns a variable. -/
def declaringScope (g : Graph) (v : VariableId) : Except Unresolved NodeId :=
  match (g.variable' v).scope with
  | some scope => .ok scope
  | none => .error (.noScope (g.variable' v).name)

/-- The variable that an accessed value is, if it is one: a mention of the own type's member must
have one. -/
def accessedVariable (g : Graph) (n : NodeId) : Except Unresolved (Option VariableId) :=
  match g.shape n with
  | .varAccess _ var => .ok var
  | .fieldAccess name none none => .error (.noMember name (g.location n).line)
  | .fieldAccess _ _ var => .ok var
  | _ => .ok none

/-! ## Statements -/

/-- Whether the current exception is thrown again below a node. -/
def isRethrow (g : Graph) (n : NodeId) : Bool :=
  (g.descendants n).any fun d =>
    match g.shape d with
    | .throwStatement none => true
    | _ => false

/-- Whether a node is a block without statements. -/
def isEmptyBlock (g : Graph) (n : NodeId) : Bool :=
  match g.shape n with
  | .block [] => true
  | _ => false

/-- Whether an owner of a node is of a kind. -/
def isWithin (g : Graph) (kind : String) (n : NodeId) : Bool := (g.ancestors n).any (g.isA kind)

/-- Whether an expression acquires something: it creates an object or calls. -/
def isAcquisition (g : Graph) (n : NodeId) : Bool :=
  match g.shape n with
  | .objectCreation _ _ | .methodCall _ _ _ _ => true
  | _ => false

/-! ## Declarations -/

/-- Whether a node is a declaration of a kind. -/
def declares (g : Graph) (kind : DeclarationKind) (n : NodeId) : Bool :=
  (g.declaration? n).any (·.kind = kind)

/-- The innermost method around a node. -/
def enclosingMethod (g : Graph) (n : NodeId) : Option NodeId :=
  (g.ancestors n).find? (g.declares .method)

/-- The innermost type around a node. -/
def enclosingType (g : Graph) (n : NodeId) : Option NodeId :=
  (g.ancestors n).find? (g.declares .type)

/-- The names of constructors and of import-time code. -/
def constructorNames : List String := ["__init__", "__new__", ".ctor", ".cctor", moduleBody]

/-- Whether a declaration is a constructor: by its name, or as it is named like its type. -/
def isConstructor (g : Graph) (n : NodeId) : Bool :=
  (g.declaration? n).any fun info =>
    constructorNames.contains info.name ||
      ((g.enclosingType n).bind g.declaration?).any fun type => type.name == info.name

/-- The names of the types that a unit declares or knows to be resources. -/
def disposableTypes (g : Graph) (unit : NodeId) : NameSet :=
  let known := ((g.unitInfo? unit).map (·.disposableTypes)).getD []
  NameSet.ofList <| known ++ (g.preorder unit).filterMap fun n =>
    match g.declaration? n with
    | some info => if info.kind = .type ∧ info.isDisposable then some info.name else none
    | none => none

/-! ## Concurrency -/

/-- Whether a node starts concurrent work: by the name of the call, dotted or not, or by the type
that is created. -/
def isLaunch (g : Graph) (patterns : List String) (n : NodeId) : Bool :=
  match g.shape n with
  | .methodCall name _ _ _ =>
    Pattern.anyAccepts? patterns (g.dottedName n) || Pattern.anyAccepts patterns name
  | .objectCreation typeName _ => TypeName.isMatchedBy patterns typeName
  | _ => false

/-- The arguments of a call or creation. -/
def arguments (g : Graph) (n : NodeId) : List NodeId :=
  match g.shape n with
  | .methodCall _ _ _ arguments | .objectCreation _ arguments => arguments
  | _ => []

/-- The name that a node mentions. -/
def mentionedName? (g : Graph) (n : NodeId) : Option String :=
  match g.shape n with
  | .varAccess name _ | .fieldAccess name _ _ => some name
  | _ => none

/-- The names that a unit hands to launching calls. -/
def launchedNames (g : Graph) (patterns : List String) (unit : NodeId) : NameSet :=
  NameSet.ofList <| ((g.preorder unit).filter (g.isLaunch patterns)).flatMap fun n =>
    (g.arguments n).filterMap g.mentionedName?

/-- Whether a node may run concurrently with the code around it: an anonymous function that is
handed to a launching call or bound to a launched name, or a method that is asynchronous or
launched by its name. -/
def runsConcurrently (g : Graph) (patterns : List String) (launched : NameSet) (n : NodeId) :
    Bool :=
  match g.shape n with
  | .lambda _ _ _ =>
    match g.owner n with
    | none => false
    | some owner =>
      g.isLaunch patterns owner ||
        match g.shape owner with
        | .varDeclaration var _ => launched.contains (g.variable' var).name
        | _ => false
  | .declaration info _ _ _ =>
    info.kind = .method && (info.isAsync || launched.contains info.name)
  | _ => false

/-- Whether something around a node runs concurrently; names are launched in the unit, if there
is one. -/
def isConcurrent (g : Graph) (patterns : List String) (unit : Option NodeId) (n : NodeId) :
    Bool :=
  let launched := (unit.map (g.launchedNames patterns)).getD []
  (g.ancestors n).any (g.runsConcurrently patterns launched)

end Graph

end ModelLint
