import ModelLint.Proofs.Program.Contexts
import ModelLint.Proofs.Rules.Evaluation
import ModelLint.Rules.GenericException

/-!
# When a handler swallows every exception

The rule looks below the body of a handler for a call that logs what was caught, and for a throw
without an operand.

* `GenericException.Logs`: a call below a body logs a caught exception.
* `GenericException.Swallows`: a handler for everything drops what it catches.
* **`exists_finding?_iff`**: a node is reported if it swallows and no comment covers it.
-/

namespace ModelLint.GenericException

variable {p : Patterns} {phrases : List String} {m : Model} {g : Graph} {n body call : NodeId}
  {v : VariableId} {types : List String} {var : Option VariableId}

/-- The node calls a method. -/
def IsCall (g : Graph) (n : NodeId) : Prop :=
  ∃ name type qualifier arguments, g.shape n = .methodCall name type qualifier arguments

/-- **A call below a body logs the caught exception**: the method is one that logs, and the variable is
mentioned somewhere in the call. -/
structure Logs (g : Graph) (logging : NameSet) (v : VariableId) (body call : NodeId) : Prop where
  /-- The call stands below the body. -/
  below : call ∈ g.descendants body
  /-- It is a call of a method. -/
  isCall : IsCall g call
  /-- The method is one that logs. -/
  named : Pattern.anyAccepts? logging (g.dottedName call)
  /-- The variable is mentioned in the call. -/
  mentioned : ∃ a ∈ g.preorder call, g.mentioned? a = some v

/-- The current exception is thrown again below a body. -/
def Rethrows (g : Graph) (body : NodeId) : Prop :=
  ∃ c ∈ g.descendants body, g.shape c = .throwStatement none

/-- **A handler swallows what it catches**: it catches everything, and its body is empty or neither logs
the exception nor throws it again. -/
structure Swallows (p : Patterns) (g : Graph) (n : NodeId) (types : List String)
    (var : Option VariableId) (body : NodeId) : Prop where
  /-- The node is the handler. -/
  shape_eq : g.shape n = .catchClause types var body
  /-- It catches everything. -/
  generic : types = [] ∨ ∃ type ∈ types, Pattern.anyAccepts p.rootTypes type
  /-- The exception is dropped. -/
  dropped : g.shape body = .block [] ∨
    (∀ v, var = some v → ∀ call, ¬ Logs g p.logging v body call) ∧ ¬ Rethrows g body

theorem isA_methodCall : g.isA "MethodCall" n = true ↔ IsCall g n := by
  rw [Graph.isA, IsCall]
  cases g.shape n <;>
    simp [Shape.isA, Shape.kindName, Shape.isStatement, Shape.isExpression, Shape.isOutermost]

theorem isA_catch :
    g.isA "Catch" n = true ↔ ∃ types var body, g.shape n = .catchClause types var body := by
  rw [Graph.isA]
  cases g.shape n <;>
    simp [Shape.isA, Shape.kindName, Shape.isStatement, Shape.isExpression, Shape.isOutermost]

theorem isEmptyBlock_iff : g.isEmptyBlock n = true ↔ g.shape n = .block [] := by
  rw [Graph.isEmptyBlock]
  split
  · next h => simp [h]
  · next h => simpa using h

theorem isRethrow_iff : g.isRethrow body = true ↔ Rethrows g body := by
  rw [Graph.isRethrow, List.any_eq_true, Rethrows]
  refine exists_congr fun c => and_congr_right fun _ => ?_
  split
  · next h => simp [h]
  · next h => simpa using h

theorem catchesGeneric_iff {roots : NameSet} : catchesGeneric roots types = true ↔
    types = [] ∨ ∃ type ∈ types, Pattern.anyAccepts roots type = true := by
  rw [catchesGeneric, Bool.or_eq_true, List.isEmpty_iff, List.any_eq_true]

theorem logsException_iff {logging : NameSet} : logsException g logging body var = true ↔
    ∃ v, var = some v ∧ ∃ call, Logs g logging v body call := by
  rw [logsException, Option.any_eq_true]
  refine exists_congr fun v => and_congr_right fun _ => ?_
  rw [List.any_eq_true]
  refine exists_congr fun call => ?_
  simp only [Bool.and_eq_true, isA_methodCall, Graph.mentions, List.any_eq_true,
    Graph.isDirectMention, beq_iff_eq]
  constructor
  · rintro ⟨hbelow, ⟨hcall, hnamed⟩, hmentioned⟩
    exact ⟨hbelow, hcall, hnamed, hmentioned⟩
  · rintro ⟨hbelow, hcall, hnamed, hmentioned⟩
    exact ⟨hbelow, ⟨hcall, hnamed⟩, hmentioned⟩

/-- What it takes for a violation, as the rule computes it. -/
theorem judge_eq_some :
    (∃ message, judge p m n = some message) ↔ ∃ types var body, Swallows p m.graph n types var body := by
  rw [judge]
  split
  · next types var body hshape =>
    have hswallows : (∃ types' var' body', Swallows p m.graph n types' var' body') ↔
        Swallows p m.graph n types var body := by
      refine ⟨?_, fun h => ⟨types, var, body, h⟩⟩
      rintro ⟨types', var', body', h⟩
      cases hshape.symm.trans h.shape_eq
      exact h
    have hparts : Swallows p m.graph n types var body ↔
        catchesGeneric p.rootTypes types = true ∧ (m.graph.isEmptyBlock body = true ∨
          ¬ (logsException m.graph p.logging body var = true ∨ m.graph.isRethrow body = true)) := by
      rw [catchesGeneric_iff, isEmptyBlock_iff, logsException_iff, isRethrow_iff, not_or]
      simp only [not_exists, not_and]
      exact ⟨fun h => ⟨h.generic, h.dropped⟩, fun h => ⟨hshape, h.1, h.2⟩⟩
    rw [hswallows, hparts]
    cases catchesGeneric p.rootTypes types <;> cases m.graph.isEmptyBlock body <;>
      cases logsException m.graph p.logging body var <;> cases m.graph.isRethrow body <;> simp
  · next hshape =>
    refine iff_of_false (by simp) ?_
    rintro ⟨types, var, body, h⟩
    exact hshape types var body h.shape_eq

/-- **The rule reports the handlers that swallow**, unless a comment covers them. -/
theorem exists_finding?_iff {description : String} {severity : Severity} :
    (∃ f, (rule description severity p).finding? phrases m n = some f) ↔
      (∃ types var body, Swallows p m.graph n types var body) ∧
        Suppression.coversLine m.info.comments phrases ruleId (m.graph.location n).line = false := by
  rw [← judge_eq_some]
  constructor
  · rintro ⟨f, hf⟩
    obtain ⟨-, -, hcovers, message, hmessage, -⟩ := Rule.finding?_eq_some.mp hf
    exact ⟨⟨message, Except.ok.inj hmessage⟩, hcovers⟩
  · rintro ⟨⟨message, hmessage⟩, hcovers⟩
    obtain ⟨types, var, body, h⟩ := judge_eq_some.mp ⟨message, hmessage⟩
    exact ⟨_, Rule.finding?_eq_some.mpr ⟨isA_catch.mpr ⟨types, var, body, h.shape_eq⟩, rfl, hcovers,
      message, congrArg Except.ok hmessage, rfl⟩⟩

end ModelLint.GenericException
