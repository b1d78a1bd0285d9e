import ModelLint.Source.Nodes

/-!
# What becomes of names

A function binds names as a whole. What it does to them is a list of events. There are two orders for
the events of statements. In the order in which nodes are built the body of a `while` statement comes
before its condition, and what follows a `try` statement without error comes last; it is the other way
round in the order in which they run. Decorators, annotations, defaults and bases have no nodes, and
neither has the function of a call by its name alone.

* `Event`: a name is read, or it is bound, or it is said to belong elsewhere.
* `captured`: what a function inside another one leaves to the one around.
* `Expr.events`, `Stmt.events`: the events of expressions and statements, in the function around.
* `swappedIn`: the parts of statements that are built in another order than they run.
-/

namespace ModelLint.Source

/-- A function in a source, with the name of the object in the method around it, if there is one. -/
structure Routine where
  /-- Where it stands. -/
  range : Range
  /-- The name of the object. -/
  receiver : Option String
  /-- The name and the parameters. -/
  signature : Signature
  /-- The statements. -/
  body : List Stmt

/-- **What happens in a function.** -/
inductive Event where
  /-- A name is read, by the function itself or by one inside it. -/
  | read (name : String) (range : Range) (isInner : Bool)
  /-- A name gets a value. If it is new, it is declared at the range. -/
  | bind (name : String) (range : Range)
  /-- A name gets a meaning of its own, whatever it meant before. -/
  | define (name : String)
  /-- A name is said to belong to the module or to a function around. -/
  | declare (name : String)
  /-- A function stands there. -/
  | routine (f : Routine)

namespace Event

/-- Whether the event gives a value or a meaning to a name. -/
def binds (x : String) : Event → Bool
  | bind y _ | define y => y = x
  | _ => false

/-- Whether the event changes what a value given to a name would be bound to. -/
def redefines (x : String) : Event → Bool
  | define y | declare y => y = x
  | _ => false

/-- The name that the event does more with than to read it. -/
def changed? : Event → Option String
  | bind x _ | define x | declare x => some x
  | _ => none

/-- What happens in a function inside, for the function around. -/
def inward : Event → Event
  | read x r _ => read x r true
  | e => e

/-- Whether the event is a function. -/
def isRoutine : Event → Bool
  | routine _ => true
  | _ => false

end Event

/-- What a function with the given parameters leaves to the one around: it reads names that it does
not bind itself, and there are functions in it. -/
def captured (parameters : List String) (es : List Event) : List Event :=
  es.filter fun
    | .read x _ _ => !parameters.contains x && es.all fun e => !e.binds x
    | e => e.isRoutine

/-- The names that events change, as names that get a new meaning. -/
def redefined (es : List Event) : List Event := (es.filterMap Event.changed?).map .define

/-! ## Expressions -/

/-- Whether an expression is the object of the method around. -/
def Expr.isObject (receiver : Option String) (e : Expr) : Bool :=
  receiver.any fun name => e.name? = some name

/-- The type that a call of a member creates. -/
def Expr.created? (receiver : Option String) (r : Range) (value : Expr) (attr : String) :
    Option String :=
  if startsUpper attr && !value.isObject receiver then (Expr.attribute r value attr).dotted? else none

section Expressions

variable (receiver : Option String)

mutual

/-- The events of an expression. -/
def Expr.events : Expr → List Event
  | .name r id => [.read id r false]
  | .constant _ _ _ => []
  | .attribute _ value _ => if value.isObject receiver then [] else value.events
  | .subscript _ value index => value.events ++ index.events
  | .call _ (.attribute fr value attr) args keywords =>
    (if (Expr.created? receiver fr value attr).isSome || value.isObject receiver then []
      else value.events) ++ (eventsOf args ++ keywordEvents keywords)
  | .call _ (.name _ _) args keywords => eventsOf args ++ keywordEvents keywords
  | .call _ function args keywords => function.events ++ (eventsOf args ++ keywordEvents keywords)
  | .compound _ _ operands => eventsOf operands
  | .dict _ entries => keyEvents entries ++ valueEvents entries
  | .walrus _ target id value => value.events ++ [.bind id target]
  | .lambda _ parameters body =>
    (captured (parameters.map Parameter.name) body.events).map .inward
  | .comprehension _ _ elements first rest =>
    sourceEvents first ++
      captured [] (clauseEvents first ++ (innerClauseEvents rest ++ eventsOf elements))

/-- The events of several expressions. -/
def eventsOf : List Expr → List Event
  | [] => []
  | e :: es => e.events ++ eventsOf es

/-- The events of arguments by name. -/
def keywordEvents : List Keyword → List Event
  | [] => []
  | .mk _ value :: rest => value.events ++ keywordEvents rest

/-- The events of the keys of a dictionary. -/
def keyEvents : List Entry → List Event
  | [] => []
  | .pair key _ :: rest => key.events ++ keyEvents rest
  | .unpack _ :: rest => keyEvents rest

/-- The events of the values of a dictionary. -/
def valueEvents : List Entry → List Event
  | [] => []
  | .pair _ value :: rest => value.events ++ valueEvents rest
  | .unpack value :: rest => value.events ++ valueEvents rest

/-- The events of the source of values of a loop in a comprehension. -/
def sourceEvents : Clause → List Event
  | .mk _ _ source _ => source.events

/-- The events of the target and the conditions of a loop in a comprehension. -/
def clauseEvents : Clause → List Event
  | .mk _ target _ conditions =>
    target.boundNames.map .define ++ (target.events ++ eventsOf conditions)

/-- The events of the inner loops of a comprehension. -/
def innerClauseEvents : List Clause → List Event
  | [] => []
  | clause :: rest => sourceEvents clause ++ (clauseEvents clause ++ innerClauseEvents rest)

end

mutual

/-- The events of a target of an assignment. -/
def targetEvents : Expr → List Event
  | .name r id => [.bind id r]
  | .compound _ .tuple es => targetsEvents es
  | .compound _ .list es => targetsEvents es
  | .compound _ .starred [e] => targetEvents e
  | e => e.events receiver

/-- The events of several targets. -/
def targetsEvents : List Expr → List Event
  | [] => []
  | e :: es => targetEvents e ++ targetsEvents es

end

/-- The events of an assignment to targets, behind those of the value. -/
def assignedEvents (r : Range) : List Expr → List Event
  | [.name _ id] => [.bind id r]
  | targets => targetsEvents receiver targets

/-- The events of an annotated assignment. -/
def annotatedEvents (r : Range) : Expr → Option Expr → List Event
  | .name _ id, none => [.bind id r]
  | .name _ id, some value => value.events receiver ++ [.bind id r]
  | _, none => []
  | target, some value => value.events receiver ++ target.events receiver

/-- The events of an error that is thrown. -/
def thrownEvents : Option Expr → Option Expr → List Event
  | none, _ => []
  | some error, none => error.events receiver
  | some error, some cause => error.events receiver ++ cause.events receiver

/-- The events of resources. -/
def resourceEvents : List Resource → List Event
  | [] => []
  | ⟨context, none⟩ :: rest => context.events receiver ++ resourceEvents rest
  | ⟨context, some (.name _ id)⟩ :: rest =>
    context.events receiver ++ (.bind id context.range :: resourceEvents rest)
  | ⟨context, some target⟩ :: rest =>
    context.events receiver ++ (targetEvents receiver target ++ resourceEvents rest)

end Expressions

/-! ## Statements -/

/-- The name of the object in a method of a class. -/
def Signature.object? (s : Signature) : Option String := (s.receiver []).name

/-- The order of the events of statements. -/
inductive Order where
  /-- As nodes are built. -/
  | built
  /-- As statements run. -/
  | run
deriving DecidableEq

/-- Two lists of events, of which the first one comes first when they run. -/
def Order.join (order : Order) (es fs : List Event) : List Event :=
  match order with
  | built => fs ++ es
  | run => es ++ fs

mutual

/-- The events of a statement. -/
def Stmt.events (order : Order) (receiver : Option String) : Stmt → List Event
  | .function r signature body =>
    .define signature.name :: .routine ⟨r, receiver, signature, body⟩ ::
      (captured (signature.parameters.map Parameter.name) (eventsIn order receiver body)).map .inward
  | .classType _ name _ body => memberEvents order receiver body ++ [.define name]
  | .returnValue _ none => []
  | .returnValue _ (some value) => value.events receiver
  | .assign r targets value => value.events receiver ++ assignedEvents receiver r targets
  | .augment _ target _ value => target.events receiver ++ value.events receiver
  | .annotate r target _ value => annotatedEvents receiver r target value
  | .forEach _ _ target source body orElse =>
    source.events receiver ++ (targetEvents receiver target ++
      (eventsIn order receiver body ++ eventsIn order receiver orElse))
  | .whileLoop _ condition body orElse =>
    order.join (condition.events receiver) (eventsIn order receiver body) ++
      eventsIn order receiver orElse
  | .choose _ condition body orElse =>
    condition.events receiver ++ (eventsIn order receiver body ++ eventsIn order receiver orElse)
  | .withResources _ resources body =>
    resourceEvents receiver resources ++ eventsIn order receiver body
  | .matchCases _ subject cases => subject.events receiver ++ caseEvents order receiver cases
  | .throwError _ error cause => thrownEvents receiver error cause
  | .guarded _ body handlers orElse finalBody =>
    eventsIn order receiver body ++ (handlerEvents order receiver handlers ++
      order.join (eventsIn order receiver orElse) (eventsIn order receiver finalBody))
  | .imports r names => names.map (.bind · r)
  | .globals _ names => names.map .declare
  | .nonlocals _ names => names.map .declare
  | .expr _ value => value.events receiver
  | .simple _ _ operands => eventsOf receiver operands

/-- The events of statements. -/
def eventsIn (order : Order) (receiver : Option String) : List Stmt → List Event
  | [] => []
  | s :: rest => s.events order receiver ++ eventsIn order receiver rest

/-- The events of the cases of a choice by pattern. -/
def caseEvents (order : Order) (receiver : Option String) : List (List Stmt) → List Event
  | [] => []
  | body :: rest => eventsIn order receiver body ++ caseEvents order receiver rest

/-- The events of handlers. The name of a caught error has its meaning in the handler only. -/
def handlerEvents (order : Order) (receiver : Option String) : List Handler → List Event
  | [] => []
  | .mk _ _ name body :: rest =>
    name.toList.map .define ++ (eventsIn order receiver body ++
      (name.toList.map .define ++ handlerEvents order receiver rest))

/-- The events of the members of a class in the function around. What a class reads is its own
affair. -/
def memberEvents (order : Order) (receiver : Option String) : List Stmt → List Event
  | [] => []
  | .function r signature body :: rest =>
    .routine ⟨r, signature.object?, signature, body⟩ ::
      ((eventsIn order signature.object? body).filter Event.isRoutine ++
        memberEvents order receiver rest)
  | .classType _ _ _ body :: rest =>
    memberEvents order receiver body ++ memberEvents order receiver rest
  | .assign _ [.name _ _] value :: rest =>
    redefined (value.events receiver) ++ memberEvents order receiver rest
  | .annotate _ (.name _ _) _ (some value) :: rest =>
    redefined (value.events receiver) ++ memberEvents order receiver rest
  | _ :: rest => memberEvents order receiver rest

end

/-- What happens in a function. -/
def Routine.events (f : Routine) (order : Order) : List Event := eventsIn order f.receiver f.body

/-- The names of the parameters of a function. -/
def Routine.parameters (f : Routine) : List String := f.signature.parameters.map Parameter.name

/-- The events of a module. Its assignments and imports hold no functions. -/
def moduleEvents (body : List Stmt) : List Event :=
  body.flatMap fun
    | .assign _ _ _ | .annotate _ _ _ _ | .imports _ _ => []
    | s => s.events .built none

/-! ## Parts in another order -/

section Swapped

variable (receiver : Option String)

mutual

/-- The parts of a statement that are built in another order than they run: what runs first, and what
is built first. -/
def Stmt.swapped : Stmt → List (List Event × List Event)
  | .forEach _ _ _ _ body orElse => swappedIn body ++ swappedIn orElse
  | .whileLoop _ condition body orElse =>
    (condition.events receiver, eventsIn .run receiver body) :: (swappedIn body ++ swappedIn orElse)
  | .choose _ _ body orElse => swappedIn body ++ swappedIn orElse
  | .withResources _ _ body => swappedIn body
  | .matchCases _ _ cases => swappedCases cases
  | .guarded _ body handlers orElse finalBody =>
    swappedIn body ++ (swappedHandlers handlers ++
      ((eventsIn .run receiver orElse, eventsIn .run receiver finalBody) ::
        (swappedIn orElse ++ swappedIn finalBody)))
  | _ => []

/-- The parts of statements that are built in another order than they run. -/
def swappedIn : List Stmt → List (List Event × List Event)
  | [] => []
  | s :: rest => s.swapped ++ swappedIn rest

/-- The parts of cases that are built in another order than they run. -/
def swappedCases : List (List Stmt) → List (List Event × List Event)
  | [] => []
  | body :: rest => swappedIn body ++ swappedCases rest

/-- The parts of handlers that are built in another order than they run. -/
def swappedHandlers : List Handler → List (List Event × List Event)
  | [] => []
  | .mk _ _ _ body :: rest => swappedIn body ++ swappedHandlers rest

end

end Swapped

/-- Nothing that is bound in the first list of events is read in the second one, by the function
itself or by the functions inside. -/
def Apart (x : String) (isInner : Bool) (p : List Event × List Event) : Prop :=
  ∀ r r', .bind x r ∈ p.1 → .read x r' isInner ∉ p.2

/-- **A function is built in order for the reads of a name**, its own ones or those of the functions
inside: the condition of no `while` statement binds the name if it is read in the body, and no `else`
part of a `try` statement binds it if it is read in the `finally` part. -/
def Routine.InOrder (f : Routine) (x : String) (isInner : Bool) : Prop :=
  ∀ p ∈ swappedIn f.receiver f.body, Apart x isInner p

end ModelLint.Source
