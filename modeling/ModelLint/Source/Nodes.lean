import ModelLint.Rules.Pattern
import ModelLint.Source.Scope

/-!
# Nodes of expressions and statements

How each expression and each statement becomes nodes of the model. Scopes are those of functions:
the first assignment to a name in a function declares it, and later ones assign it. A comprehension
is an anonymous function of its loop variables, which is applied to the first source of values; that
source is evaluated outside it. A declaration that an expression makes is put before the statement.

A statement can become no node or several. A class inside a function moves to the module.
-/

namespace ModelLint.Source

open Build

/-- A node at a range. -/
def nodeAt (r : Range) (shape : Shape Tree) : Tree := .node r.location shape

/-- An operator with its operands at a range. -/
def compoundAt (r : Range) (operator : String) (operands : List Tree) : Tree :=
  nodeAt r (.compound operator operands)

/-- The variables of parameters, with their names. -/
def parameterNames : List Parameter → Build Names
  | [] => return []
  | p :: rest => do
    let v ← newVariable p.name (p.typeHint.bind Expr.annotatedType) .parameter false
    return (p.name, v) :: (← parameterNames rest)

/-- New local variables for names, bound one after the other in the innermost frame. -/
def bindAll : List String → Build (List VariableId)
  | [] => return []
  | name :: rest => do
    let v ← newLocal name none
    bindName name v
    return v :: (← bindAll rest)

/-! ## Expressions -/

/-- A mention of a name: a variable, a built-in name, or else a member that is not known. -/
def nameNode (r : Range) (id : String) : Build Tree := do
  match ← lookup? id with
  | some v => return nodeAt r (.varAccess id (some v))
  | none =>
    if builtinNames.contains id then
      return nodeAt r (.varAccess id (some (← globalField id ["static", "builtin"])))
    else return nodeAt r (.fieldAccess id none none)

/-- The mention of a name that an assignment binds; a new name is declared before the statement. -/
def targetName (r : Range) (id : String) : Build Tree := do
  match ← binding? id with
  | some v => return nodeAt r (.varAccess id (some v))
  | none =>
    let v ← newLocal id none
    bindName id v
    addPending (nodeAt r (.varDeclaration v none))
    return nodeAt r (.varAccess id (some v))

/-- The type of the object that a call creates, if its function has the name of a type. -/
def createdType? (function : Expr) : Build (Option String) := do
  match function with
  | .attribute _ value attr =>
    if startsUpper attr && !(← isReceiver value) then return function.dotted? else return none
  | .name _ id => return if startsUpper id then some id else none
  | _ => return none

mutual

/-- The node of an expression. -/
def exprNode : Expr → Build Tree
  | .name r id => nameNode r id
  | .constant r value _ => return nodeAt r (.literal value)
  | .attribute r value attr => do
    if ← isReceiver value then return nodeAt r (.fieldAccess attr none (← receiverField? attr))
    else return nodeAt r (.fieldAccess attr (some (← exprNode value)) none)
  | .subscript r value index => do
    let target ← exprNode value
    return nodeAt r (.elementAccess target (some (← exprNode index)))
  | .call r (.attribute fr value attr) args keywords => do
    match ← createdType? (.attribute fr value attr) with
    | some typeName =>
      let args ← exprNodes args
      return nodeAt r (.objectCreation typeName (args ++ (← keywordNodes keywords)))
    | none =>
      let qualifier ← if ← isReceiver value then pure none else some <$> exprNode value
      let args ← exprNodes args
      return nodeAt r (.methodCall attr none qualifier (args ++ (← keywordNodes keywords)))
  | .call r (.name fr id) args keywords => do
    let created ← createdType? (.name fr id)
    let args ← exprNodes args
    let args := args ++ (← keywordNodes keywords)
    match created with
    | some typeName => return nodeAt r (.objectCreation typeName args)
    | none => return nodeAt r (.methodCall id none none args)
  | .call r function args keywords => do
    let qualifier ← exprNode function
    let args ← exprNodes args
    return nodeAt r (.methodCall "__call__" none (some qualifier) (args ++ (← keywordNodes keywords)))
  | .compound r form operands => do return compoundAt r form.label (← exprNodes operands)
  | .dict r entries => do
    let keys ← keyNodes entries
    return compoundAt r "dict" (keys ++ (← valueNodes entries))
  | .walrus r target id value => do
    let value ← exprNode value
    return nodeAt r (.assignment "=" (← targetName target id) value)
  | .lambda r parameters body => do
    let parameters ← parameterNames parameters
    let value ← withFrame (.ofNames parameters) (exprNode body)
    return nodeAt r
      (.lambda (parameters.map (·.2)) false [nodeAt body.range (.returnStatement (some value))])
  | .comprehension r kind elements first rest => do
    let source ← sourceNode first
    let (parameters, operands) ← withFrame (.ofNames []) do
      let (vs, nodes) ← clauseNodes first
      let (vs', nodes') ← innerClauseNodes rest
      return (vs ++ vs', nodes ++ nodes' ++ (← exprNodes elements))
    let body := nodeAt r (.exprStatement (compoundAt r "yield" operands))
    return compoundAt r kind.label [source, nodeAt r (.lambda parameters false [body])]

/-- The nodes of several expressions. -/
def exprNodes : List Expr → Build (List Tree)
  | [] => return []
  | e :: es => do
    let t ← exprNode e
    return t :: (← exprNodes es)

/-- The nodes of arguments by name. -/
def keywordNodes : List Keyword → Build (List Tree)
  | [] => return []
  | .mk _ value :: rest => do
    let t ← exprNode value
    return t :: (← keywordNodes rest)

/-- The nodes of the keys of a dictionary. -/
def keyNodes : List Entry → Build (List Tree)
  | [] => return []
  | .pair key _ :: rest => do
    let t ← exprNode key
    return t :: (← keyNodes rest)
  | .unpack _ :: rest => keyNodes rest

/-- The nodes of the values of a dictionary. -/
def valueNodes : List Entry → Build (List Tree)
  | [] => return []
  | .pair _ value :: rest => do
    let t ← exprNode value
    return t :: (← valueNodes rest)
  | .unpack value :: rest => do
    let t ← exprNode value
    return t :: (← valueNodes rest)

/-- The node of the source of values of a loop in a comprehension. -/
def sourceNode : Clause → Build Tree
  | .mk _ _ source _ => exprNode source

/-- The variables that a loop in a comprehension binds, and the nodes of its target and
conditions. -/
def clauseNodes : Clause → Build (List VariableId × List Tree)
  | .mk _ target _ conditions => do
    let vs ← bindAll target.boundNames
    let targetNode ← exprNode target
    return (vs, targetNode :: (← exprNodes conditions))

/-- The variables and nodes of the inner loops of a comprehension, each after its source. -/
def innerClauseNodes : List Clause → Build (List VariableId × List Tree)
  | [] => return ([], [])
  | clause :: rest => do
    let source ← sourceNode clause
    let (vs, nodes) ← clauseNodes clause
    let (vs', nodes') ← innerClauseNodes rest
    return (vs ++ vs', source :: nodes ++ nodes')

end

/-! ## Targets -/

mutual

/-- The node of a target of an assignment; names bound for the first time are declared. -/
def targetNode : Expr → Build Tree
  | .name r id => targetName r id
  | .compound r .tuple es => do return compoundAt r "tuple" (← targetNodes es)
  | .compound r .list es => do return compoundAt r "tuple" (← targetNodes es)
  | .compound _ .starred [e] => targetNode e
  | e => exprNode e

/-- The nodes of several targets. -/
def targetNodes : List Expr → Build (List Tree)
  | [] => return []
  | e :: es => do
    let t ← targetNode e
    return t :: (← targetNodes es)

end

/-- The node of an assignment to a name: its declaration, if it is not bound yet. -/
def assignName (r : Range) (target : Range) (id : String) (value : Tree)
    (typeName : Option String) : Build Tree := do
  match ← binding? id with
  | some v =>
    let access := nodeAt target (.varAccess id (some v))
    return nodeAt r (.exprStatement (nodeAt r (.assignment "=" access value)))
  | none =>
    let v ← newLocal id typeName
    bindName id v
    return nodeAt r (.varDeclaration v (some value))

/-! ## Statements without blocks -/

/-- The nodes of an assignment. -/
def assignNodes (r : Range) (targets : List Expr) (value : Expr) : Build (List Tree) := do
  let valueNode ← exprNode value
  match targets with
  | [.name target id] => return [← assignName r target id valueNode value.likelyType]
  | _ =>
    let nodes ← targetNodes targets
    let target := match nodes with
      | [target] => target
      | nodes => compoundAt r "targets" nodes
    return [nodeAt r (.exprStatement (nodeAt r (.assignment "=" target valueNode)))]

/-- The nodes of an annotated assignment. Without a value it declares a name that is not bound. -/
def annotateNodes (r : Range) (target typeHint : Expr) (value : Option Expr) :
    Build (List Tree) := do
  match target, value with
  | .name _ id, none =>
    if (← binding? id).isSome then return []
    let v ← newLocal id (declaredType (some typeHint) none)
    bindName id v
    return [nodeAt r (.varDeclaration v none)]
  | .name targetRange id, some value =>
    let typeName := declaredType (some typeHint) (some value)
    return [← assignName r targetRange id (← exprNode value) typeName]
  | _, none => return []
  | target, some value =>
    let valueNode ← exprNode value
    let targetNode ← exprNode target
    return [nodeAt r (.exprStatement (nodeAt r (.assignment "=" targetNode valueNode)))]

/-- The nodes of an import: a declaration of each name that is not bound. -/
def importNodes (r : Range) : List String → Build (List Tree)
  | [] => return []
  | name :: rest => do
    match ← binding? name with
    | some _ => importNodes r rest
    | none =>
      let v ← newLocal name none
      bindName name v
      return nodeAt r (.varDeclaration v none) :: (← importNodes r rest)

/-- The nodes of an expression as a statement; a text alone is documentation. -/
def exprStatementNodes (r : Range) (e : Expr) : Build (List Tree) := do
  match e with
  | .constant _ (.data (.str _)) _ => return []
  | e => return [nodeAt r (.exprStatement (← exprNode e))]

/-- The nodes of a throw; a cause is an operand beside the error. -/
def throwNodes (r : Range) (error cause : Option Expr) : Build (List Tree) := do
  match error, cause with
  | none, _ => return [nodeAt r (.throwStatement none)]
  | some error, none => return [nodeAt r (.throwStatement (some (← exprNode error)))]
  | some error, some cause =>
    let errorNode ← exprNode error
    let causeNode ← exprNode cause
    return [nodeAt r (.throwStatement (some (compoundAt r "from" [errorNode, causeNode])))]

/-- The nodes of a statement that is a word with operands; without operands there are none. -/
def simpleNodes (r : Range) (word : String) (operands : List Expr) : Build (List Tree) := do
  match ← exprNodes operands with
  | [] => return []
  | nodes => return [nodeAt r (.exprStatement (compoundAt r word nodes))]

/-! ## Resources -/

/-- A resource of a `with` statement, and how it is held. -/
inductive Held where
  /-- As a lock. -/
  | lock (target : Tree)
  /-- As a resource to be released. -/
  | resource (node : Tree)

/-- The variable that a node mentions. -/
def mentioned? : Tree → Option VariableId
  | .node _ (.varAccess _ v) => v
  | .node _ (.fieldAccess _ _ v) => v
  | _ => none

/-- Whether an expression is a lock, by its name or by the type of the variable it is. -/
def isLock (lockPatterns : List String) (e : Expr) (node : Tree) : Build Bool := do
  if Pattern.anyAccepts? lockPatterns (e.callee.dotted?.map lastSegment) then return true
  else match mentioned? node with
    | none => return false
    | some v => return Pattern.anyAccepts? lockPatterns (← typeOf? v)

/-- The resources of a `with` statement. A name that is not bound is declared, any other target is
assigned. -/
def heldResources (lockPatterns : List String) : List Resource → Build (List Held)
  | [] => return []
  | ⟨context, target⟩ :: rest => do
    let node ← exprNode context
    let held ← match target with
      | none =>
        if ← isLock lockPatterns context node then pure (Held.lock node) else pure (.resource node)
      | some target =>
        let fresh ← match target with
          | .name _ id => do pure ((← binding? id).isNone)
          | _ => pure false
        match fresh, target with
        | true, .name _ id =>
          let v ← newLocal id context.likelyType
          bindName id v
          pure (Held.resource (nodeAt context.range (.varDeclaration v (some node))))
        | _, target =>
          let target ← targetNode target
          pure (Held.resource (nodeAt context.range (.assignment "=" target node)))
    return held :: (← heldResources lockPatterns rest)

/-- A statement as a block. -/
def asBlock (r : Range) : Tree → Tree
  | .node l (.block statements) => .node l (.block statements)
  | t => nodeAt r (.block [t])

/-- A block that holds resources, the first one outermost. -/
def holdAll (r : Range) (held : List Held) (block : Tree) : Tree :=
  held.foldr (fun held inner =>
    match held with
    | .lock target => nodeAt r (.lockStatement target (asBlock r inner))
    | .resource node => nodeAt r (.usingStatement [node] (some (asBlock r inner)))) block

/-! ## Classes -/

/-- A class while its members are built. -/
structure OpenClass where
  /-- The fields of its own, with their variables. -/
  own : List (Field × VariableId)
  /-- The fields of its own and of its bases. -/
  all : Names

/-- Variables for fields. -/
def fieldVariables : List Field → Build (List (Field × VariableId))
  | [] => return []
  | f :: rest => do
    let v ← newVariable f.name f.typeName .field f.isStatic
    return (f, v) :: (← fieldVariables rest)

/-- Adds names that are not there yet. -/
def addMissing (names more : Names) : Names :=
  more.foldl (fun names (name, v) =>
    if (names.lookup name).isSome then names else names ++ [(name, v)]) names

/-- Starts a class: its fields are known to its methods and to the classes that name it as base. -/
def openClass (name : String) (bases : List Expr) (body : List Stmt) : Build OpenClass := do
  let own ← fieldVariables (Field.ofBindings (classBindings body))
  let known := (← get).classFields
  let inherited := bases.map fun base => (base.dotted?.bind fun base => known.lookup base).getD []
  let all := inherited.foldl addMissing (own.map fun (f, v) => (f.name, v))
  modify fun s => { s with classFields := (name, all) :: s.classFields }
  return { own, all }

/-- The node of a field with an initializer at a place. -/
def fieldAt (r : Range) (modifiers : List String) (name : String) (v : VariableId)
    (initializer : Option Tree) : Build Tree := do
  let isStatic := ((← get).vars[v]?.map Variable.isStatic).getD false
  let modifiers := if isStatic then "static" :: modifiers else modifiers
  return fieldNode r.location (← qualified name) modifiers name v initializer

/-- The nodes of the fields that an assignment in a class binds, but for those that have a node
already. -/
def assignedFields (c : OpenClass) (r : Range) (emitted : List String) (initializer : Option Tree) :
    List String → Build (List Tree × List String)
  | [] => return ([], emitted)
  | name :: rest => do
    match emitted.contains name, c.own.find? fun (f, _) => f.name = name with
    | false, some (_, v) =>
      let node ← fieldAt r [] name v initializer
      let (nodes, emitted) ← assignedFields c r (name :: emitted) none rest
      return (node :: nodes, emitted)
    | _, _ => assignedFields c r emitted initializer rest

/-- The nodes of the fields of a class that have none yet. -/
def remainingFields (emitted : List String) : List (Field × VariableId) → Build (List Tree)
  | [] => return []
  | (f, v) :: rest => do
    if emitted.contains f.name then remainingFields emitted rest
    else
      let node ← fieldAt f.range [] f.name v none
      return node :: (← remainingFields emitted rest)

/-- The methods that release a resource. -/
def releaseMethods : List String := ["__exit__", "__aexit__", "close"]

/-- Whether a class is a resource: it has a method that releases it. -/
def isDisposable (body : List Stmt) : Bool :=
  body.any fun
    | .function _ signature _ => releaseMethods.contains signature.name
    | _ => false

/-- The node of a class with its members. -/
def classNode (r : Range) (name : String) (body : List Stmt) (members : List Tree) : Build Tree := do
  return nodeAt r (.declaration
    { name, kind := .type, qualifiedName := ← qualified name, modifiers := [], parameters := [],
      var := none, isDisposable := isDisposable body } members none [])

/-! ## Functions -/

/-- The modifiers of a method. -/
def Signature.modifiers (s : Signature) : List String :=
  (if s.isAsync then ["async"] else []) ++
    if s.decoratorNames.any fun name => name = "staticmethod" || name = "classmethod" then ["static"]
    else []

/-- What a method of a class with the given fields sees through its first parameter. -/
def Signature.receiver (s : Signature) (fields : Names) : Receiver :=
  { fields
    name := if s.decoratorNames.contains "staticmethod" then none
      else s.parameters.head?.map Parameter.name }

/-- The node of a method; a method of a class knows the fields of the class. -/
def methodNode (r : Range) (signature : Signature) (fields : Option Names)
    (statements : Build (List Tree)) : Build Tree := do
  let parameters ← parameterNames signature.parameters
  let body ← withReceiver (fields.map signature.receiver)
    (withQualifier signature.name (withFrame (.ofNames parameters) statements))
  return nodeAt r (.declaration
    { name := signature.name, kind := .method, qualifiedName := ← qualified signature.name,
      modifiers := NameSet.ofList signature.modifiers, parameters := parameters.map (·.2),
      var := none, isDisposable := false } [] none body)

/-- The node of a function inside a function: a local variable. -/
def functionNode (r : Range) (signature : Signature) (statements : Build (List Tree)) :
    Build Tree := do
  let v ← newLocal signature.name (some "function")
  bindName signature.name v
  let parameters ← parameterNames signature.parameters
  let body ← withFrame (.ofNames parameters) statements
  let function := nodeAt r (.lambda (parameters.map (·.2)) signature.isAsync body)
  return nodeAt r (.varDeclaration v (some function))

/-! ## Handlers -/

/-- Builds the body of a handler, in which the caught error has its name. Behind the handler the
name means again what it meant before. -/
def withCaught (name : Option String) (types : List String) (body : Build Tree) :
    Build (Option VariableId × Tree) := do
  match name with
  | none => return (none, ← body)
  | some name =>
    let typeName := match types with
      | [type] => if type = "" then "BaseException" else type
      | _ => "BaseException"
    let previous := (← get).frames.head?.bind fun frame => frame.names.lookup name
    let v ← newLocal name (some typeName)
    bindName name v
    let block ← body
    modifyFrame fun frame =>
      let others := frame.names.filter fun (n, _) => n ≠ name
      { frame with names := (previous.toList.map fun v => (name, v)) ++ others }
    return (some v, block)

/-! ## Statements -/

/-- The node of a block with the given nodes; it is placed at its first statement. -/
def blockAt (owner : Range) (body : List Stmt) (nodes : List Tree) : Tree :=
  nodeAt ((body.head?.map Stmt.range).getD owner) (.block nodes)

/-- The node of a block that is there unless it is empty. -/
def blockAt? (owner : Range) (body : List Stmt) (nodes : List Tree) : Option Tree :=
  if body.isEmpty then none else some (blockAt owner body nodes)

/-- The nodes of a statement with the declarations that its expressions make before them. -/
def withPending (nodes : Build (List Tree)) : Build (List Tree) := do
  let (pending, nodes) ← collectPending nodes
  return pending ++ nodes

mutual

/-- The nodes of a statement. -/
def stmtNodes (locks : List String) : Stmt → Build (List Tree)
  | .function r signature body =>
    withPending do return [← functionNode r signature (stmtsNodes locks body)]
  | .classType r name bases body =>
    withPending do
      let c ← openClass name bases body
      let members ← withQualifier name (memberNodes locks c [] body)
      addHoisted (← classNode r name body members)
      let v ← newLocal name (some "type")
      bindName name v
      return [nodeAt r (.varDeclaration v none)]
  | .returnValue r none => return [nodeAt r (.returnStatement none)]
  | .returnValue r (some value) =>
    withPending do return [nodeAt r (.returnStatement (some (← exprNode value)))]
  | .assign r targets value => withPending (assignNodes r targets value)
  | .augment r target op value =>
    withPending do
      let target ← exprNode target
      let value ← exprNode value
      return [nodeAt r (.exprStatement (nodeAt r (.assignment (op.text ++ "=") target value)))]
  | .annotate r target typeHint value => withPending (annotateNodes r target typeHint value)
  | .forEach r isAsync target source body orElse =>
    withPending do
      let sourceNode ← exprNode source
      let (declarations, target) ← collectPending (targetNode target)
      let block := blockAt r body (← stmtsNodes locks body)
      let kind := if isAsync then "async for" else "for"
      let loop := nodeAt r (.loopStatement kind declarations [target, sourceNode] block)
      return loop :: (← stmtsNodes locks orElse)
  | .whileLoop r condition body orElse =>
    withPending do
      let block := blockAt r body (← stmtsNodes locks body)
      let condition ← exprNode condition
      let loop := nodeAt r (.loopStatement "while" [] [condition] block)
      return loop :: (← stmtsNodes locks orElse)
  | .choose r condition body orElse =>
    withPending do
      let condition ← exprNode condition
      let thenBranch := blockAt r body (← stmtsNodes locks body)
      let elseBranch := blockAt? r orElse (← stmtsNodes locks orElse)
      return [nodeAt r (.ifStatement condition thenBranch elseBranch)]
  | .withResources r resources body =>
    withPending do
      let held ← heldResources locks resources
      return [holdAll r held (blockAt r body (← stmtsNodes locks body))]
  | .matchCases r subject cases =>
    withPending do
      let nodes ← simpleNodes r "match" [subject]
      return nodes ++ (← caseNodes locks r cases)
  | .throwError r error cause => withPending (throwNodes r error cause)
  | .guarded r body handlers orElse finalBody =>
    withPending do
      let block := blockAt r body (← stmtsNodes locks body)
      let catches ← handlerNodes locks handlers
      let finallyBlock := blockAt? r finalBody (← stmtsNodes locks finalBody)
      let node := nodeAt r (.tryStatement block catches finallyBlock)
      return node :: (← stmtsNodes locks orElse)
  | .imports r names => withPending (importNodes r names)
  | .globals _ names => do
    modifyFrame fun frame => { frame with globals := frame.globals ++ names }
    return []
  | .nonlocals _ names => do
    modifyFrame fun frame => { frame with nonlocals := frame.nonlocals ++ names }
    return []
  | .expr r value => withPending (exprStatementNodes r value)
  | .simple r word operands => withPending (simpleNodes r word operands)

/-- The nodes of statements. -/
def stmtsNodes (locks : List String) : List Stmt → Build (List Tree)
  | [] => return []
  | s :: rest => do
    let nodes ← stmtNodes locks s
    return nodes ++ (← stmtsNodes locks rest)

/-- The nodes of the cases of a choice by pattern. -/
def caseNodes (locks : List String) (r : Range) : List (List Stmt) → Build (List Tree)
  | [] => return []
  | body :: rest => do
    let block := blockAt r body (← stmtsNodes locks body)
    return block :: (← caseNodes locks r rest)

/-- The nodes of handlers. -/
def handlerNodes (locks : List String) : List Handler → Build (List Tree)
  | [] => return []
  | .mk r type name body :: rest => do
    match Expr.handledTypes type with
    | none => throw .unwritable
    | some types =>
      let (v, block) ← withCaught name types do
        return blockAt r body (← stmtsNodes locks body)
      return nodeAt r (.catchClause types v block) :: (← handlerNodes locks rest)

/-- The nodes of the members of a class, then of its fields that have none yet. -/
def memberNodes (locks : List String) (c : OpenClass) (emitted : List String) :
    List Stmt → Build (List Tree)
  | [] => remainingFields emitted c.own
  | .function r signature body :: rest => do
    let node ← methodNode r signature (some c.all) (stmtsNodes locks body)
    return node :: (← memberNodes locks c emitted rest)
  | .classType r name bases body :: rest => do
    let inner ← openClass name bases body
    let members ← withQualifier name (memberNodes locks inner [] body)
    let node ← classNode r name body members
    return node :: (← memberNodes locks c emitted rest)
  | .assign r targets value :: rest => do
    let initializer ← match targets with
      | [.name _ id] => if emitted.contains id then pure none else some <$> exprNode value
      | _ => pure none
    let (nodes, emitted) ← assignedFields c r emitted initializer (Expr.boundNamesOf targets)
    return nodes ++ (← memberNodes locks c emitted rest)
  | .annotate r target _ value :: rest => do
    let initializer ← match target, value with
      | .name _ id, some value => if emitted.contains id then pure none else some <$> exprNode value
      | _, _ => pure none
    let (nodes, emitted) ← assignedFields c r emitted initializer target.boundNames
    return nodes ++ (← memberNodes locks c emitted rest)
  | _ :: rest => memberNodes locks c emitted rest

end

end ModelLint.Source
