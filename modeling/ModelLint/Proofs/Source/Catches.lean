import ModelLint.Proofs.Source.Counting
import ModelLint.Proofs.Source.Loading

/-!
# Handlers and catches

Each handler of a module becomes one catch of the unit, wherever it stands, but for what stands in a
class and in none of its functions and classes. A class inside a function moves to the module with its
catches, and its throws are not below the handler around any more.

* `handlersIn`: the handlers of statements.
* `rethrowsIn`: how often statements throw the current error again.
* `counts_stmtNodes`: statements add the catches of their handlers.
* `ModuleParts.Counted`: the catches of the parts of a module, statement by statement.
* **`catches_of_load`**: the catches of a unit are the handlers of its source.
-/

namespace ModelLint.Source

open Build
open ModelLint.Tree (tallies tally_eq tallies_nil tallies_cons tallies_append)

/-! ## Handlers -/

mutual

/-- The handlers of a statement. Of a class only the functions and classes in it have any. -/
def Stmt.handlers : Stmt → List Handler
  | .function _ _ body => handlersIn body
  | .classType _ _ _ body => memberHandlers body
  | .forEach _ _ _ _ body orElse | .whileLoop _ _ body orElse | .choose _ _ body orElse =>
    handlersIn body ++ handlersIn orElse
  | .withResources _ _ body => handlersIn body
  | .matchCases _ _ cases => caseHandlers cases
  | .guarded _ body handlers orElse finalBody =>
    handlersIn body ++ (nestedHandlers handlers ++ (handlersIn orElse ++ handlersIn finalBody))
  | _ => []

/-- The handlers of statements. -/
def handlersIn : List Stmt → List Handler
  | [] => []
  | s :: rest => s.handlers ++ handlersIn rest

/-- The handlers of the cases of a choice by pattern. -/
def caseHandlers : List (List Stmt) → List Handler
  | [] => []
  | body :: rest => handlersIn body ++ caseHandlers rest

/-- Handlers, with those in their statements. -/
def nestedHandlers : List Handler → List Handler
  | [] => []
  | .mk r type name body :: rest => .mk r type name body :: (handlersIn body ++ nestedHandlers rest)

/-- The handlers of the functions and classes in a class. -/
def memberHandlers : List Stmt → List Handler
  | [] => []
  | .function _ _ body :: rest => handlersIn body ++ memberHandlers rest
  | .classType _ _ _ body :: rest => memberHandlers body ++ memberHandlers rest
  | _ :: rest => memberHandlers rest

end

mutual

/-- How often a statement throws the current error again, outside of classes. -/
def Stmt.rethrows : Stmt → Nat
  | .throwError _ none _ => 1
  | .function _ _ body => rethrowsIn body
  | .forEach _ _ _ _ body orElse | .whileLoop _ _ body orElse | .choose _ _ body orElse =>
    rethrowsIn body + rethrowsIn orElse
  | .withResources _ _ body => rethrowsIn body
  | .matchCases _ _ cases => caseRethrows cases
  | .guarded _ body handlers orElse finalBody =>
    rethrowsIn body + (handlerRethrows handlers + (rethrowsIn orElse + rethrowsIn finalBody))
  | _ => 0

/-- How often statements throw the current error again, outside of classes. -/
def rethrowsIn : List Stmt → Nat
  | [] => 0
  | s :: rest => s.rethrows + rethrowsIn rest

/-- How often the cases of a choice by pattern throw the current error again. -/
def caseRethrows : List (List Stmt) → Nat
  | [] => 0
  | body :: rest => rethrowsIn body + caseRethrows rest

/-- How often handlers throw the current error again. -/
def handlerRethrows : List Handler → Nat
  | [] => 0
  | .mk _ _ _ body :: rest => rethrowsIn body + handlerRethrows rest

end

/-- What there is to say about the catch of a handler. -/
def Handler.caught : Handler → Caught
  | .mk r type _ body => ⟨r.location, Expr.handledTypes type, decide (0 < rethrowsIn body)⟩

/-- What handlers and throws add to a tally. -/
def told (hs : List Handler) (k : Nat) : Multiset Caught × Nat := (hs.map Handler.caught, k)

section Told

variable {hs hs' : List Handler} {k k' : Nat}

theorem told_nil : told [] 0 = 0 := rfl

theorem told_append : told (hs ++ hs') (k + k') = told hs k + told hs' k' := by
  rw [told, List.map_append, ← Multiset.coe_add]
  rfl

end Told

/-! ## Targets and statements without blocks -/

section Statements

variable {α β : Type} {r : Range} {t : Tree} {ts us : List Tree} {w w' : Multiset Caught × Nat}
  {locks : List String} {name : String}

theorem counts_targetNode (e : Expr) : Counts [] (targetNode e) 0 fun t => [t] := by
  refine targetNode.induct (fun e => Counts [] (targetNode e) 0 fun t => [t])
    (fun es => Counts [] (targetNodes es) 0 id) ?name ?tuple ?list ?starred ?other ?nil ?cons e
  case name =>
    intro r id
    rw [targetNode]
    exact counts_targetName
  case tuple | list =>
    intro r es ih
    rw [targetNode]
    exact ih.last fun ts => by simp [tally_compound]
  case starred =>
    intro r e ih
    rw [targetNode]
    exact ih
  case other =>
    intro e hname htuple hlist hstarred
    rw [targetNode]
    · exact counts_exprNode e
    all_goals assumption
  case nil => exact counts_pure rfl
  case cons => exact fun e es ih ihs => counts_cons ih ihs

theorem counts_targetNodes (es : List Expr) : Counts [] (targetNodes es) 0 id := by
  induction es with
  | nil => exact counts_pure rfl
  | cons e es ih => exact counts_cons (counts_targetNode e) ih

theorem tallies_exprStatement : tallies [nodeAt r (.exprStatement t)] = t.tally := by
  have hchild : tallies [nodeAt r (.exprStatement t)] = tallies [t] := tallies_node rfl rfl rfl
  rw [hchild, tallies_cons, tallies_nil, add_zero]

theorem tally_assignment {operator : String} {target value : Tree} :
    (nodeAt r (.assignment operator target value)).tally = target.tally + value.tally := by
  rw [tally_nodeAt rfl rfl]
  simp [Shape.children, Shape.slots]

theorem tally_access {v : Option VariableId} : (nodeAt r (.varAccess name v)).tally = 0 :=
  tally_nodeAt rfl rfl

theorem tallies_declaration {v : VariableId} {initializer : Option Tree} :
    tallies [nodeAt r (.varDeclaration v initializer)] = tallies initializer.toList := by
  refine tallies_node rfl rfl ?_
  simp [Shape.children, Shape.slots]

theorem counts_assignName {target : Range} {id : String} {type : Option String} :
    Counts [t] (assignName r target id t type) 0 fun u => [u] := by
  refine mild_binding?.skip fun v => ?_
  split
  · exact counts_pure (by rw [tallies_exprStatement, tally_assignment, tally_access]; simp)
  · exact mild_newVariable.skip fun _ => mild_bindName.skip fun _ =>
      counts_pure tallies_declaration

theorem counts_assignNodes {targets : List Expr} {value : Expr} :
    Counts [] (assignNodes r targets value) 0 id := by
  refine (counts_exprNode value).next fun t => ?_
  split
  · exact counts_assignName.single
  · refine (counts_targetNodes targets).last fun ts => ?_
    rcases ts with _ | ⟨t₁, _ | ⟨t₂, ts⟩⟩ <;> rw [id, tallies_exprStatement, tally_assignment] <;>
      simp [tally_compound, add_comm]

theorem counts_annotateNodes {target typeHint : Expr} {value : Option Expr} :
    Counts [] (annotateNodes r target typeHint value) 0 id := by
  rw [annotateNodes.eq_def]
  split
  · refine mild_binding?.skip fun v => ?_
    split
    · exact counts_pure rfl
    · exact mild_newVariable.skip fun _ => mild_bindName.skip fun _ =>
        counts_pure tallies_declaration
  · exact (counts_exprNode _).next fun t => counts_assignName.single
  · exact counts_pure rfl
  · refine (counts_exprNode _).next fun t => (counts_exprNode target).last fun u => ?_
    rw [id, tallies_exprStatement, tally_assignment]
    simp [add_comm]

theorem counts_importNodes : (names : List String) → Counts [] (importNodes r names) 0 id
  | [] => counts_pure rfl
  | name :: rest => by
    rw [importNodes]
    refine mild_binding?.skip fun v => ?_
    split
    · exact counts_importNodes rest
    · refine mild_newVariable.skip fun _ => mild_bindName.skip fun _ =>
        (counts_importNodes rest).last fun ts => ?_
      rw [id, ← List.singleton_append, tallies_append, tallies_declaration]
      exact zero_add _

theorem counts_exprStatementNodes {e : Expr} : Counts [] (exprStatementNodes r e) 0 id := by
  rw [exprStatementNodes.eq_def]
  split
  · exact counts_pure rfl
  · exact (counts_exprNode e).last fun t => tallies_node rfl rfl rfl

theorem tally_throw : (nodeAt r (.throwStatement none)).tally = told [] 1 := by
  rw [tally_eq]
  rfl

theorem counts_throwNodes {error cause : Option Expr} :
    Counts [] (throwNodes r error cause) (told [] (Stmt.throwError r error cause).rethrows) id := by
  rw [throwNodes.eq_def]
  split
  · rw [Stmt.rethrows]
    refine counts_made ?_
    rw [id, tallies_cons, tally_throw, tallies_nil, zero_add, add_zero]
  · rw [Stmt.rethrows]
    · exact (counts_exprNode _).last fun t => tallies_node rfl rfl rfl
    all_goals simp
  · rw [Stmt.rethrows]
    · exact (counts_exprNode _).next fun t => (counts_exprNode _).last
        fun u => tallies_node rfl rfl (by simp [Shape.children, Shape.slots, tally_compound])
    all_goals simp

theorem counts_simpleNodes {word : String} {operands : List Expr} :
    Counts [] (simpleNodes r word operands) 0 id := by
  refine (counts_exprNodes operands).next fun ts => ?_
  split
  · exact counts_pure rfl
  · exact counts_pure (by rw [id, tallies_exprStatement, tally_compound]; rfl)

/-! ## Resources -/

theorem tally_holdAll {held : List Held} :
    (holdAll r held t).tally = tallies (held.map Held.node) + t.tally := by
  induction held with
  | nil => exact (zero_add _).symm
  | cons h rest ih =>
    have hrest : (asBlock r (holdAll r rest t)).tally = tallies (rest.map Held.node) + t.tally := by
      rw [tally_asBlock, ih]
    cases h with
    | lock target =>
      refine (tally_nodeAt rfl rfl).trans ?_
      simp only [Shape.children, Shape.slots, List.flatMap_cons, List.flatMap_nil, List.append_nil,
        tallies_append, tallies_cons, tallies_nil, add_zero, List.map_cons, Held.node]
      rw [add_assoc, ← hrest]
      rfl
    | resource node =>
      refine (tally_nodeAt rfl rfl).trans ?_
      simp only [Shape.children, Shape.slots, List.flatMap_cons, List.flatMap_nil, List.append_nil,
        Option.toList_some, tallies_append, tallies_cons, tallies_nil, add_zero, List.map_cons,
        Held.node]
      rw [add_assoc, ← hrest]
      rfl

theorem counts_heldFor {patterns : List String} {context : Expr} {target : Option Expr} {t : Tree} :
    Counts [t] (heldFor patterns context t target) 0 fun held => [held.node] := by
  have hassigned : ∀ u, tallies [nodeAt context.range (.assignment "=" u t)] = tallies [t, u] := by
    intro u
    rw [tallies_cons, tally_assignment]
    simp [add_comm]
  rw [heldFor.eq_def]
  split
  · refine mild_isLock.skip fun b => ?_
    split <;> exact counts_pure rfl
  · refine mild_binding?.skip fun v => ?_
    split
    · exact mild_newVariable.skip fun v => mild_bindName.skip fun _ =>
        counts_pure tallies_declaration
    · exact counts_targetName.next fun u => counts_pure (hassigned u)
  · exact (counts_targetNode _).next fun u => counts_pure (hassigned u)

theorem counts_heldResources {patterns : List String} : (resources : List Resource) →
    Counts [] (heldResources patterns resources) 0 fun held => held.map Held.node
  | [] => counts_pure rfl
  | ⟨context, target⟩ :: rest => by
    rw [heldResources_cons, ← bind_assoc]
    have hheld : Counts [] (exprNode context >>= (heldFor patterns context · target)) 0
        fun held => [held.node] := (counts_exprNode context).next fun t => counts_heldFor
    exact hheld.next fun held => (counts_heldResources rest).last fun helds => by
      rw [List.map_cons, ← List.singleton_append]
      rfl

/-! ## Classes and functions -/

theorem counts_fieldAt {modifiers : List String} {v : VariableId} {initializer : Option Tree}
    (h : tallies initializer.toList = 0) :
    Counts [] (fieldAt r modifiers name v initializer) 0 fun t => [t] :=
  mild_get.skip fun _ => mild_qualified.skip fun _ => counts_pure (by simp [tally_fieldNode, h])

theorem counts_assignedFields {c : OpenClass} : (names : List String) → {emitted : List String} →
    {initializer : Option Tree} → tallies initializer.toList = 0 →
    Counts [] (assignedFields c r emitted initializer names) 0 (·.1)
  | [], _, _, _ => counts_pure rfl
  | name :: rest, emitted, initializer, h => by
    rw [assignedFields]
    split
    · exact (counts_fieldAt h).next fun t => (counts_assignedFields rest rfl).next
        fun p => counts_pure (by simp)
    · exact counts_assignedFields rest h

theorem counts_remainingFields {emitted : List String} : (own : List (Field × VariableId)) →
    Counts [] (remainingFields emitted own) 0 id
  | [] => counts_pure rfl
  | (f, v) :: rest => by
    rw [remainingFields]
    split
    · exact counts_remainingFields rest
    · exact counts_cons (counts_fieldAt rfl) (counts_remainingFields rest)

theorem counts_classNode {body : List Stmt} : Counts ts (classNode r name body ts) 0 fun t => [t] :=
  mild_qualified.skip fun _ =>
    counts_pure (tallies_node rfl rfl (by simp [Shape.children, Shape.slots]))

theorem counts_class {x : Build (List Tree)} (r : Range) (name : String) (body : List Stmt)
    (hx : Counts [] x w id) :
    Counts [] (do
      let members ← withQualifier name x
      classNode r name body members) w fun t => [t] := by
  rw [← add_zero w]
  exact hx.withQualifier.bind fun ts => counts_classNode

theorem counts_methodNode {signature : Signature} {fields : Option Names} {x : Build (List Tree)}
    (hx : Counts [] x w id) : Counts [] (methodNode r signature fields x) w fun t => [t] := by
  refine (mild_parameterNames _).skip fun _ => ?_
  rw [← add_zero w]
  refine hx.withFrame.withQualifier.withReceiver.bind fun ts => mild_qualified.skip fun _ => ?_
  exact counts_pure (tallies_node rfl rfl (by simp [Shape.children, Shape.slots]))

theorem counts_functionNode {signature : Signature} {x : Build (List Tree)}
    (hx : Counts [] x w id) : Counts [] (functionNode r signature x) w fun t => [t] := by
  refine mild_newVariable.skip fun v => mild_bindName.skip fun _ =>
    (mild_parameterNames _).skip fun names => hx.withFrame.last fun ts => ?_
  rw [tallies_declaration]
  exact tallies_node rfl rfl (by simp [Shape.children, Shape.slots])

/-- A declaration that moves to the module takes its catches with it, but not its throws. -/
theorem Counts.addHoisted {x : Build Tree} {y : Build β} {g : β → List Tree}
    {handlers : List Handler} {n : Nat} (hx : Counts [] x (told handlers n) fun t => [t]) (hy : Counts [] y 0 g) :
    Counts [] (do
      addHoisted (← x)
      y) (told handlers 0) g := by
  refine fun s hs => (hx s hs).bind fun t s₁ ⟨hs₁, moved, hmoved, h₁⟩ => runs_modify_bind ?_
  refine (hy { s₁ with hoisted := s₁.hoisted ++ [t] } hs₁).mono fun b s₂ ⟨hs₂, moved', hmoved', h₂⟩ =>
    ⟨hs₂, moved ++ ([t] ++ moved'), ?_, ?_⟩
  · rw [hmoved', hmoved, List.append_assoc, List.append_assoc]
  · have htaken : taken moved + taken [t] = told handlers 0 := by
      have hfst := congrArg Prod.fst h₁
      rw [tallies_nil, zero_add, Prod.fst_add, add_comm] at hfst
      exact Prod.ext hfst rfl
    have hrest : tallies (g b) + taken moved' = 0 := h₂
    calc tallies (g b) + taken (moved ++ ([t] ++ moved'))
        = (taken moved + taken [t]) + (tallies (g b) + taken moved') := by
          simp only [taken_append, add_assoc, add_comm, add_left_comm]
      _ = tallies [] + told handlers 0 := by rw [htaken, hrest, add_zero, tallies_nil, zero_add]

/-- The block of a handler, in which the caught error has its name. -/
theorem Counts.caught {x : Build (List Tree)} {g : β → List Tree} {caught : Option String}
    {types : List String} {body : List Stmt} {k : Option VariableId × Tree → Build β}
    (hx : Counts [] x w id)
    (hk : ∀ v ts, (∃ moved, tallies ts + taken moved = w) →
      Counts ts (k (v, blockAt r body ts)) w' g) :
    Counts [] (do
      let p ← withCaught caught types do return blockAt r body (← x)
      k p) (w + w') g := by
  rcases caught with _ | name
  · simp only [withCaught, bind_assoc, pure_bind]
    exact hx.behind fun ts h => hk none ts h
  · simp only [withCaught, bind_assoc, pure_bind]
    refine mild_get.skip fun s => mild_newVariable.skip fun v => mild_bindName.skip fun _ => ?_
    exact hx.behind fun ts h => mild_modifyFrame.skip fun _ => hk (some v) ts h

/-! ## Statements -/

theorem Counts.block? {body : List Stmt} (hx : Counts [] (stmtsNodes locks body) w id)
    (owner : Range) :
    Counts [] (stmtsNodes locks body) w fun ts => (blockAt? owner body ts).toList := by
  cases body with
  | nil =>
    rw [stmtsNodes] at hx ⊢
    exact hx
  | cons stmt rest =>
    refine fun s hs => (hx s hs).mono fun ts s' ⟨hs', moved, hmoved, h⟩ => ⟨hs', moved, hmoved, ?_⟩
    rw [← h]
    simp [blockAt?, tally_blockAt]

theorem tally_loop {kind : String} {declarations header : List Tree} {body : Tree} :
    (nodeAt r (.loopStatement kind declarations header body)).tally =
      tallies declarations + (tallies header + body.tally) := by
  rw [tally_nodeAt rfl rfl]
  simp [Shape.children, Shape.slots]

theorem tally_try {block : Tree} {catches : List Tree} {finallyBlock : Option Tree} :
    (nodeAt r (.tryStatement block catches finallyBlock)).tally =
      block.tally + (tallies catches + tallies finallyBlock.toList) := by
  rw [tally_nodeAt rfl rfl]
  simp [Shape.children, Shape.slots]

theorem tally_if {condition thenBranch : Tree} {elseBranch : Option Tree} :
    (nodeAt r (.ifStatement condition thenBranch elseBranch)).tally =
      condition.tally + (thenBranch.tally + tallies elseBranch.toList) := by
  rw [tally_nodeAt rfl rfl]
  simp [Shape.children, Shape.slots]

/-- The catch of a handler says what there is to say about the handler. -/
theorem tally_catch {type : Option Expr} {types : List String} {v : Option VariableId}
    {caught : Option String} {br : Range} {body : List Stmt}
    (htypes : Expr.handledTypes type = some types) (hts : (tallies ts).2 = rethrowsIn body) :
    (nodeAt r (.catchClause types v (blockAt br body ts))).tally =
      tallies ts + told [.mk r type caught body] 0 := by
  have hchildren : (blockAt br body ts).children = ts := by
    simp [blockAt, nodeAt, Tree.children_node, Shape.children, Shape.slots]
  have hcaught : (nodeAt r (.catchClause types v (blockAt br body ts))).caught? =
      some (Handler.mk r type caught body).caught := by
    rw [nodeAt, Tree.caught?, Tree.any_isRethrow_tail, hchildren, hts, Handler.caught, htypes]
  rw [tally_eq, Tree.weight, hcaught, add_comm]
  have hblock : (blockAt br body ts).tally = tallies ts := tally_blockAt
  rw [nodeAt, Tree.children_node, ← hblock]
  simp only [Shape.children, Shape.slots, List.flatMap_cons, List.flatMap_nil, List.append_nil,
    tallies_cons, tallies_nil, add_zero]
  rfl

mutual

theorem counts_stmtNodes : (stmt : Stmt) →
    Counts [] (stmtNodes locks stmt) (told stmt.handlers stmt.rethrows) id
  | .function r signature body => by
    rw [stmtNodes, Stmt.handlers, Stmt.rethrows]
    exact (counts_functionNode (counts_stmtsNodes body)).single.withPending
  | .classType r name bases body => by
    simp only [stmtNodes, Stmt.handlers, Stmt.rethrows]
    refine .withPending (mild_openClass.skip fun c => ?_)
    obtain ⟨n, hmembers⟩ := counts_memberNodes body
    have hrest := (counts_class r name body (hmembers c [])).addHoisted (y := do
      let v ← newLocal name (some "type")
      bindName name v
      return [nodeAt r (.varDeclaration v none)]) (g := id) (mild_newVariable.skip fun v =>
        mild_bindName.skip fun _ => counts_pure tallies_declaration)
    simpa only [bind_assoc] using hrest
  | .returnValue r none => by
    simp only [stmtNodes, Stmt.handlers, Stmt.rethrows]
    exact counts_pure (tallies_node rfl rfl rfl)
  | .returnValue r (some value) => by
    simp only [stmtNodes, Stmt.handlers, Stmt.rethrows]
    exact .withPending ((counts_exprNode value).last fun t => tallies_node rfl rfl rfl)
  | .assign r targets value => by
    simp only [stmtNodes, Stmt.handlers, Stmt.rethrows]
    exact counts_assignNodes.withPending
  | .augment r target op value => by
    simp only [stmtNodes, Stmt.handlers, Stmt.rethrows]
    refine .withPending ((counts_exprNode target).next fun t =>
      (counts_exprNode value).last fun u => ?_)
    rw [id, tallies_exprStatement, tally_assignment]
    simp
  | .annotate r target typeHint value => by
    simp only [stmtNodes, Stmt.handlers, Stmt.rethrows]
    exact counts_annotateNodes.withPending
  | .forEach r isAsync target source body orElse => by
    simp only [stmtNodes, Stmt.handlers, Stmt.rethrows, told_append]
    refine .withPending ((counts_exprNode source).next fun t => ?_)
    refine (counts_targetNode target).collectPending.next fun p => ?_
    refine (counts_stmtsNodes body).bind fun ts => (counts_stmtsNodes orElse).last fun us => ?_
    rw [id, tallies_cons, tally_loop, tally_blockAt]
    simp [add_comm, add_left_comm, add_assoc]
  | .whileLoop r condition body orElse => by
    simp only [stmtNodes, Stmt.handlers, Stmt.rethrows, told_append]
    refine .withPending ((counts_stmtsNodes body).bind fun ts => (counts_exprNode condition).next
      fun t => (counts_stmtsNodes orElse).last fun us => ?_)
    rw [id, tallies_cons, tally_loop, tally_blockAt]
    simp [add_comm, add_left_comm]
  | .choose r condition body orElse => by
    simp only [stmtNodes, Stmt.handlers, Stmt.rethrows, told_append]
    refine .withPending ((counts_exprNode condition).next fun t => (counts_stmtsNodes body).bind
      fun ts => ((counts_stmtsNodes orElse).block? r).last fun us => ?_)
    rw [id, tallies_cons, tally_if, tally_blockAt]
    simp
  | .withResources r resources body => by
    simp only [stmtNodes, Stmt.handlers, Stmt.rethrows]
    refine .withPending ((counts_heldResources resources).next fun held =>
      (counts_stmtsNodes body).last fun ts => ?_)
    rw [id, tallies_cons, tally_holdAll, tally_blockAt]
    simp
  | .matchCases r subject cases => by
    simp only [stmtNodes, Stmt.handlers, Stmt.rethrows]
    exact .withPending (counts_simpleNodes.next fun ts =>
      (counts_caseNodes r cases).last fun us => rfl)
  | .throwError r error cause => by
    rw [stmtNodes, Stmt.handlers]
    · exact counts_throwNodes.withPending
    all_goals nofun
  | .guarded r body handlers orElse finalBody => by
    simp only [stmtNodes, Stmt.handlers, Stmt.rethrows, told_append]
    rw [add_comm (told (handlersIn orElse) _)]
    refine .withPending ((counts_stmtsNodes body).bind fun ts => ?_)
    refine (counts_handlerNodes handlers).bind fun catches => ?_
    refine ((counts_stmtsNodes finalBody).block? r).bind fun us => ?_
    refine (counts_stmtsNodes orElse).last fun rest => ?_
    rw [id, tallies_cons, tally_try, tally_blockAt]
    simp [add_assoc]
  | .imports r names => by
    simp only [stmtNodes, Stmt.handlers, Stmt.rethrows]
    exact (counts_importNodes names).withPending
  | .globals r names => by
    simp only [stmtNodes, Stmt.handlers, Stmt.rethrows]
    exact mild_modifyFrame.skip fun _ => counts_pure rfl
  | .nonlocals r names => by
    simp only [stmtNodes, Stmt.handlers, Stmt.rethrows]
    exact mild_modifyFrame.skip fun _ => counts_pure rfl
  | .expr r value => by
    simp only [stmtNodes, Stmt.handlers, Stmt.rethrows]
    exact counts_exprStatementNodes.withPending
  | .simple r word operands => by
    simp only [stmtNodes, Stmt.handlers, Stmt.rethrows]
    exact counts_simpleNodes.withPending

theorem counts_stmtsNodes : (body : List Stmt) →
    Counts [] (stmtsNodes locks body) (told (handlersIn body) (rethrowsIn body)) id
  | [] => counts_pure rfl
  | stmt :: rest => by
    rw [stmtsNodes, handlersIn, rethrowsIn, told_append]
    exact counts_append (counts_stmtNodes stmt) (counts_stmtsNodes rest)

theorem counts_caseNodes : (r : Range) → (cases : List (List Stmt)) →
    Counts [] (caseNodes locks r cases) (told (caseHandlers cases) (caseRethrows cases)) id
  | _, [] => counts_pure rfl
  | r, body :: rest => by
    rw [caseNodes, caseHandlers, caseRethrows, told_append]
    refine (counts_stmtsNodes body).bind fun ts => (counts_caseNodes r rest).last fun us => ?_
    rw [id, tallies_cons, tally_blockAt]
    simp

theorem counts_handlerNodes : (handlers : List Handler) →
    Counts [] (handlerNodes locks handlers)
      (told (nestedHandlers handlers) (handlerRethrows handlers)) id
  | [] => counts_pure rfl
  | .mk r type name body :: rest => by
    rw [handlerNodes, nestedHandlers, handlerRethrows]
    split
    · exact counts_throw
    · next types htypes =>
      have hadd : told (.mk r type name body :: (handlersIn body ++ nestedHandlers rest))
          (rethrowsIn body + handlerRethrows rest) = told (handlersIn body) (rethrowsIn body) +
            (told (nestedHandlers rest) (handlerRethrows rest) + told [.mk r type name body] 0) := by
        rw [← List.singleton_append, ← zero_add (_ + _), told_append, told_append, add_comm,
          add_assoc]
      rw [hadd]
      refine (counts_stmtsNodes body).caught fun v ts ⟨moved, hts⟩ => ?_
      refine (counts_handlerNodes rest).bind fun us => counts_made ?_
      have hrethrows : (tallies ts).2 = rethrowsIn body := congrArg Prod.snd hts
      rw [id, tallies_cons, tally_catch htypes hrethrows, tallies_append, add_assoc, add_assoc,
        add_comm (told _ 0)]
      rfl

/-- How often the functions in a class throw the current error again does not matter around it. -/
theorem counts_memberNodes : (body : List Stmt) → ∃ n, ∀ c emitted,
    Counts [] (memberNodes locks c emitted body) (told (memberHandlers body) n) id
  | [] => by
    simp only [memberNodes, memberHandlers]
    exact ⟨0, fun c _ => counts_remainingFields c.own⟩
  | stmt :: rest => by
    obtain ⟨n, hrest⟩ := counts_memberNodes rest
    have hassigned : ∀ c emitted r (initializer : Build (Option Tree)) (names : List String),
        Counts [] initializer 0 Option.toList →
        Counts [] (assignedMembers locks c emitted r initializer names rest)
          (told (memberHandlers rest) n) id :=
      fun c emitted r initializer names h => h.skip fun t ht => (counts_assignedFields names ht).next
        fun p => (hrest c p.2).last fun us => rfl
    cases stmt with
    | function r signature body =>
      refine ⟨rethrowsIn body + n, fun c emitted => ?_⟩
      rw [memberNodes, memberHandlers, told_append]
      exact counts_cons (counts_methodNode (counts_stmtsNodes body)) (hrest c emitted)
    | classType r name bases body =>
      obtain ⟨k, hmembers⟩ := counts_memberNodes body
      refine ⟨k + n, fun c emitted => ?_⟩
      rw [memberNodes, memberHandlers, told_append]
      refine mild_openClass.skip fun inner => ?_
      have hclass := counts_class r name body (hmembers inner [])
      simpa only [bind_assoc] using counts_cons hclass (hrest c emitted)
    | assign r targets value =>
      refine ⟨n, fun c emitted => ?_⟩
      obtain ⟨x, hmembers, rfl | ⟨rfl, -⟩⟩ := memberNodes_assign locks c emitted r targets value rest
      all_goals simp only [hmembers, memberHandlers]
      · exact hassigned c emitted r _ _ (counts_pure rfl)
      · exact hassigned c emitted r _ _ (counts_exprNode value).map
    | annotate r target typeHint value =>
      refine ⟨n, fun c emitted => ?_⟩
      obtain ⟨x, hmembers, rfl | ⟨e, rfl, rfl, -⟩⟩ :=
        memberNodes_annotate locks c emitted r target typeHint value rest
      all_goals simp only [hmembers, memberHandlers]
      · exact hassigned c emitted r _ _ (counts_pure rfl)
      · exact hassigned c emitted r _ _ (counts_exprNode e).map
    | _ =>
      refine ⟨n, fun c emitted => ?_⟩
      simp only [memberNodes, memberHandlers]
      exact hrest c emitted

end

end Statements

/-! ## Modules -/

namespace ModuleParts

variable {parts : ModuleParts} {s : Building} {handlers hs : List Handler} {locks : List String}
  {r : Range} {n : Nat}

/-- The catches of a module so far are those of some handlers. -/
structure Counted (parts : ModuleParts) (handlers : List Handler) (s : Building) : Prop where
  /-- There are no catches and throws in the declarations that are pending. -/
  pending : tallies s.pending = 0
  /-- The catches are those of the handlers. -/
  caught : (tallies (parts.members ++ (parts.statements ++ s.hoisted))).1 =
    (handlers.map Handler.caught : Multiset Caught)

/-- Members and statements come up along handlers. -/
theorem Counted.add {parts' : ModuleParts} {s' : Building} {ms ts moved : List Tree}
    (h : parts.Counted hs s) (hmembers : parts'.members = parts.members ++ ms)
    (hstatements : parts'.statements = parts.statements ++ ts)
    (hpending : tallies s'.pending = 0) (hhoisted : s'.hoisted = s.hoisted ++ moved)
    (htally : tallies (ms ++ ts) + taken moved = told handlers n) :
    parts'.Counted (hs ++ handlers) s' where
  pending := hpending
  caught := by
    have hfst : (tallies (ms ++ ts)).1 + (tallies moved).1 =
        (handlers.map Handler.caught : Multiset Caught) := congrArg Prod.fst htally
    rw [List.map_append, ← Multiset.coe_add, ← h.caught, ← hfst, hmembers, hstatements, hhoisted]
    simp only [tallies_append, Prod.fst_add, add_assoc, add_comm, add_left_comm]

theorem counted_inFrame {x : Build (List Tree)} (hx : Counts [] x (told handlers n) id)
    (h : parts.Counted hs s) : Runs (parts.inFrame x) s (fun _ => True) fun parts' s' =>
      parts'.Counted (hs ++ handlers) s' := by
  refine runs_modify_bind (Runs.bind (hx { s with frames := _ :: s.frames } h.pending)
    fun ts s₁ ⟨hs₁, moved, hmoved, h₁⟩ => runs_get_bind (runs_set_bind (runs_pure ?_)))
  exact h.add (List.append_nil _).symm rfl hs₁ hmoved h₁

/-- Members and statements without a tally come up. -/
theorem Counted.keep {parts' : ModuleParts} {s' : Building} {ms ts moved : List Tree}
    (h : parts.Counted hs s) (hmembers : parts'.members = parts.members ++ ms)
    (hstatements : parts'.statements = parts.statements ++ ts)
    (hpending : tallies s'.pending = 0) (hhoisted : s'.hoisted = s.hoisted ++ moved)
    (htally : tallies (ms ++ ts) + taken moved = 0) : parts'.Counted hs s' := by
  have h' := h.add hmembers hstatements hpending hhoisted (htally.trans told_nil.symm)
  rwa [List.append_nil] at h'

theorem counted_addFields {modifiers : List String} {initializer : Option Tree}
    (hinitializer : tallies initializer.toList = 0) (names : List String) {parts : ModuleParts}
    {s : Building} (h : parts.Counted hs s) :
    Runs (parts.addFields r modifiers initializer names) s (fun _ => True) fun parts' s' =>
      parts'.Counted hs s' := by
  induction names generalizing parts s with
  | nil => exact runs_pure h
  | cons name rest ih =>
    rw [addFields]
    refine runs_get_bind ?_
    split
    · apply (counts_fieldAt hinitializer s h.pending).bind
      rintro t s₁ ⟨hs₁, moved, hmoved, h₁⟩
      refine ih (h.keep rfl (List.append_nil _).symm hs₁ hmoved ?_)
      rwa [List.append_nil]
    · exact ih h

theorem counted_addAssignment {stmt : Stmt} {targets : List Expr} {value : Option Expr}
    (h : parts.Counted hs s) (hstmt : Counts [] (stmtNodes locks stmt) (told [] 0) id) :
    Runs (parts.addAssignment locks stmt targets value) s (fun _ => True) fun parts' s' =>
      parts'.Counted hs s' := by
  have hinFrame : ∀ {parts : ModuleParts} {s : Building}, parts.Counted hs s →
      Runs (parts.inFrame (stmtNodes locks stmt)) s (fun _ => True) fun parts' s' =>
        parts'.Counted hs s' := fun {parts s} h => by
    have h' := counted_inFrame hstmt h
    rwa [List.append_nil] at h'
  rw [addAssignment.eq_def]
  split
  · split
    · exact hinFrame h
    · have hplaced : ∀ (name : String) (x : Build (Option Tree)), Counts [] x 0 Option.toList →
          Runs (do
            let initializer ← x
            let state ← get
            set { state with frames := state.frames.drop 1, pending := [] }
            let parts ← parts.addFields stmt.range [] initializer [name]
            return { parts with
              statements := parts.statements ++ state.pending
              frame := state.frames.headD parts.frame })
            { s with frames := parts.frame :: s.frames } (fun _ => True) fun parts' s' =>
              parts'.Counted hs s' := by
        intro name x hx
        apply Runs.bind (hx { s with frames := _ :: s.frames } h.pending)
        rintro t s₁ ⟨hs₁, moved, hmoved, h₁⟩
        refine runs_get_bind (runs_set_bind ?_)
        obtain ⟨ht, htaken⟩ := eq_zero_of_add h₁
        have hparts : parts.Counted hs { s₁ with frames := s₁.frames.drop 1, pending := [] } :=
          h.keep (List.append_nil _).symm (List.append_nil _).symm rfl hmoved
            ((zero_add _).trans htaken)
        refine (counted_addFields ht [name] hparts).bind fun parts₂ s₂ h₂ => runs_pure ?_
        exact h₂.keep (List.append_nil _).symm rfl h₂.pending (List.append_nil _).symm
          ((add_zero _).trans hs₁)
      refine runs_modify_bind ?_
      split
      · exact hplaced _ _ (counts_pure rfl)
      · next value => exact hplaced _ _ (counts_exprNode value).map
  · exact Runs.bind (counted_addFields rfl _ h) fun parts₁ s₁ h₁ => hinFrame h₁

/-- **A statement of a module** brings up the catches of its handlers. -/
theorem counted_addStatement {stmt : Stmt} (h : parts.Counted hs s) :
    Runs (parts.addStatement locks stmt) s (fun _ => True) fun parts' s' =>
      parts'.Counted (hs ++ stmt.handlers) s' := by
  have hmember : ∀ {x : Build Tree} {n : Nat}, Counts [] x (told stmt.handlers n) (fun t => [t]) →
      Runs (do return { parts with members := parts.members ++ [← x] }) s (fun _ => True)
        fun parts' s' => parts'.Counted (hs ++ stmt.handlers) s' := fun hx =>
    (hx s h.pending).bind fun t s₁ ⟨hs₁, moved, hmoved, h₁⟩ =>
      runs_pure (h.add rfl (List.append_nil _).symm hs₁ hmoved h₁)
  have hstmt : Counts [] (stmtNodes locks stmt) (told stmt.handlers stmt.rethrows) id :=
    counts_stmtNodes stmt
  cases stmt with
  | function r signature body => exact hmember (counts_methodNode (counts_stmtsNodes body))
  | classType r name bases body =>
    obtain ⟨n, hmembers⟩ := counts_memberNodes body
    have hclass : Counts [] (do
        let c ← openClass name bases body
        let members ← withQualifier name (memberNodes locks c [] body)
        classNode r name body members) (told (memberHandlers body) n) fun t => [t] :=
      mild_openClass.skip fun c => counts_class r name body (hmembers c [])
    simpa only [addStatement, bind_assoc] using hmember hclass
  | imports r names =>
    exact (counted_addFields rfl names h).mono fun _ _ h' => (List.append_nil hs).symm ▸ h'
  | assign | annotate =>
    exact (counted_addAssignment h hstmt).mono fun _ _ h' => (List.append_nil hs).symm ▸ h'
  | _ => exact counted_inFrame hstmt h

end ModuleParts

theorem handlersIn_append (body rest : List Stmt) :
    handlersIn (body ++ rest) = handlersIn body ++ handlersIn rest := by
  induction body with
  | nil => rfl
  | cons stmt body ih => rw [List.cons_append, handlersIn, handlersIn, ih, List.append_assoc]

theorem tallies_moduleMethod {moduleName : String} {statements : List Tree} :
    tallies (moduleMethod? moduleName statements).toList = tallies statements := by
  rw [moduleMethod?]
  cases statements with
  | nil => rfl
  | cons first rest =>
    rw [List.head?_cons, Option.map_some, Option.toList_some, tallies_cons, tally_eq]
    simp [Tree.weight, Tree.caught?, Tree.shape, Shape.isRethrow, Tree.children, Shape.children,
      Shape.slots]

/-- **The tree of a module** has the catches of the handlers. -/
theorem caught_moduleNode {locks : List String} {moduleName : String} {body : List Stmt} :
    Runs (moduleNode locks moduleName body) .start (fun _ => True) fun t _ =>
      t.tally.1 = ((handlersIn body).map Handler.caught : Multiset Caught) := by
  rw [moduleNode]
  apply Runs.bind ((mild_fieldVariables _).counts .start rfl)
  rintro own s₁ ⟨hs₁, moved, hmoved, h₁⟩
  refine runs_modify_bind ?_
  have hstart : ModuleParts.Counted ⟨[], [], [], ⟨[], [], [], true⟩⟩ []
      { s₁ with moduleFields := own.map fun e => (e.1.name, e.2), qualifiers := [moduleName] } := by
    refine ⟨hs₁, ?_⟩
    have hnone : s₁.hoisted = moved := hmoved
    simpa [hnone, taken] using congrArg Prod.fst (eq_zero_of_add h₁).2
  -- the statements done so far have brought up the catches of their handlers
  refine Runs.bind (runs_foldlM (I := fun parts rest s => ∃ done, done ++ rest = body ∧
    parts.Counted (handlersIn done) s) body ?step ⟨[], rfl, hstart⟩) ?_
  case step =>
    rintro stmt - parts rest s ⟨done, hdone, h⟩
    refine (ModuleParts.counted_addStatement h).mono fun parts' s' h' => ⟨done ++ [stmt], ?_, ?_⟩
    · rw [List.append_assoc, List.singleton_append, hdone]
    · rwa [handlersIn_append, handlersIn, handlersIn, List.append_nil]
  rintro parts s₂ ⟨done, hdone, h₂⟩
  rw [List.append_nil] at hdone
  subst hdone
  refine Runs.bind (runs_foldlM (I := fun parts _ s => parts.Counted (handlersIn done) s) _
    (fun e _ parts rest s h => ModuleParts.counted_addFields rfl _ h) h₂) fun parts s₃ h₃ => ?_
  refine runs_get_bind (runs_pure ?_)
  rw [← h₃.caught, tally_eq]
  simp [Tree.weight, Tree.caught?, Tree.shape, Shape.isRethrow, Tree.children, Shape.children,
    Shape.slots, tallies_moduleMethod]

/-- **The catches of a unit are the handlers of its source**, each once. -/
theorem catches_of_load {locks : List String} {named : Text.CharacterNames} {source : String}
    {path : Path} {m : Model}
    (hload : load named locks source path = .ok m) : ∃ body, Stmt.ofSource? named source = some body ∧
      (m.nodes.filterMap m.caught?).Perm ((handlersIn body).map Handler.caught) := by
  obtain ⟨body, comments, h⟩ := accepted_of_load hload
  obtain ⟨t, s, ht, hlink⟩ := h.exists_run hload
  refine ⟨body, h.body, ?_⟩
  rw [Model.caught_ofTree (fun v hv => (h.moduleBuilt ht).lt_size hv) rfl hlink,
    ← Multiset.coe_eq_coe, ← Tree.tally_fst, ← caught_moduleNode.of_ok ht, tally_eq]
  simp [Tree.weight, Tree.caught?, Tree.shape, Shape.isRethrow, Tree.children_node, Shape.children,
    Shape.slots]

/-- A handler that throws again, and one around a class that does so. -/
def rethrowText : String :=
  "try: f()\nexcept (KeyError, m.E): raise\nexcept:\n class K:\n  def g():\n   try: f()\n   except: raise\n"

/-- There are three catches; the one around the class does not throw again. -/
theorem catches_rethrowText : ∃ m, load .empty [] rethrowText ⟨"", ["m.py"]⟩ = .ok m ∧
    (m.nodes.filterMap m.caught?).Perm
      [⟨Range.location ⟨⟨2, 0⟩, ⟨2, 29⟩⟩, some ["KeyError", "m.E"], true⟩,
        ⟨Range.location ⟨⟨3, 0⟩, ⟨7, 16⟩⟩, some [], false⟩,
        ⟨Range.location ⟨⟨7, 3⟩, ⟨7, 16⟩⟩, some [], true⟩] := by
  have hload : (load .empty [] rethrowText ⟨"", ["m.py"]⟩).toOption.any fun _ =>
      (Stmt.ofSource? .empty rethrowText).all fun body => decide ((handlersIn body).map Handler.caught =
        [⟨Range.location ⟨⟨2, 0⟩, ⟨2, 29⟩⟩, some ["KeyError", "m.E"], true⟩,
          ⟨Range.location ⟨⟨3, 0⟩, ⟨7, 16⟩⟩, some [], false⟩,
          ⟨Range.location ⟨⟨7, 3⟩, ⟨7, 16⟩⟩, some [], true⟩]) := by
    decide +kernel
  obtain ⟨m, hm, hbody⟩ := exists_load_of_any hload
  obtain ⟨body, heq, hperm⟩ := catches_of_load hm
  rw [heq, Option.all_some, decide_eq_true_eq] at hbody
  exact ⟨m, hm, hbody ▸ hperm⟩

end ModelLint.Source
