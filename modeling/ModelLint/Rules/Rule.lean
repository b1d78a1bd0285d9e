import ModelLint.Program.Query
import ModelLint.Rules.Finding
import ModelLint.Rules.Suppression

/-!
# Rules and their evaluation

A rule selects candidate nodes of a unit, judges each of them, and may exempt it. Evaluation goes
through the candidates in pre-order: a candidate whose judgement needs something that the model
does not hold gives a diagnostic, one that is exempt or covered by a comment is counted, and every
other violation is a finding. A run evaluates several rules and has a result if every diagnostic can
be written.
-/

namespace ModelLint

/-- The effective configuration of one rule. -/
structure RuleSettings where
  /-- The severity of its findings. -/
  severity : Severity
  /-- Whether it takes part in a run. -/
  enabled : Bool
  /-- Its pattern lists by name. -/
  patterns : List (String × NameSet)
deriving DecidableEq, Inhabited

/-- The pattern list of a name. -/
def RuleSettings.pattern? (s : RuleSettings) (name : String) : Option NameSet :=
  s.patterns.lookup name

/-- A rule with its settings applied. -/
structure Rule where
  /-- The name in configurations and reports. -/
  id : String
  /-- What it reports. -/
  description : String
  /-- The severity of its findings. -/
  severity : Severity
  /-- The nodes it judges. -/
  isCandidate : Model → NodeId → Bool
  /-- The message for a candidate that violates the rule. -/
  judge : Model → NodeId → Except Unresolved (Option String)
  /-- Whether a violating candidate is known to be safe. -/
  isExempt : Model → NodeId → Bool

/-- What a rule says about one candidate. -/
inductive Outcome where
  /-- No violation. -/
  | clean
  /-- A violation that is exempt or covered by a comment. -/
  | suppressed
  /-- A violation. -/
  | finding (f : Finding)
  /-- No judgement is possible. -/
  | diagnostic (text : String)
  /-- No judgement is possible, and a number of the diagnostic cannot be written. -/
  | unwritable

/-- What rules say about a unit. -/
structure RunResult where
  /-- The findings in order of discovery. -/
  findings : List Finding
  /-- The candidates that could not be judged. -/
  diagnostics : List String
  /-- The number of suppressed violations. -/
  suppressed : Nat
  /-- The number of candidates whose diagnostic cannot be written. -/
  unwritten : Nat
deriving Inhabited

/-- Why a run has no result. -/
inductive RunFailure where
  /-- A diagnostic cannot be written. -/
  | unwritable
deriving DecidableEq

namespace RunResult

/-- The result of no rule. -/
def empty : RunResult := ⟨[], [], 0, 0⟩

/-- One result behind another. -/
def append (a b : RunResult) : RunResult where
  findings := a.findings ++ b.findings
  diagnostics := a.diagnostics ++ b.diagnostics
  suppressed := a.suppressed + b.suppressed
  unwritten := a.unwritten + b.unwritten

instance : Append RunResult := ⟨append⟩

/-- Results one behind the other. -/
def join (results : List RunResult) : RunResult := results.foldr (· ++ ·) empty

/-- The result that a run hands over, if it comes to its end. -/
def complete (r : RunResult) : Except RunFailure RunResult :=
  if r.unwritten = 0 then .ok r else .error .unwritable

end RunResult

/-- The result of one candidate. -/
def Outcome.result : Outcome → RunResult
  | clean => .empty
  | suppressed => ⟨[], [], 1, 0⟩
  | finding f => ⟨[f], [], 0, 0⟩
  | diagnostic text => ⟨[], [text], 0, 0⟩
  | unwritable => ⟨[], [], 0, 1⟩

namespace Rule

/-- The diagnostic of a candidate that cannot be judged, if it can be written. -/
def skipText? (r : Rule) (m : Model) (n : NodeId) (cause : Unresolved) : Option String := do
  let message ← cause.message?
  let line ← Decimal.text? (m.graph.location n).line
  return m.info.path.toString ++ ":" ++ line ++ ": [" ++ r.id ++ "] candidate skipped: " ++ message

/-- What the rule says about a candidate, where comments with the given phrases suppress. -/
def outcome (r : Rule) (phrases : List String) (m : Model) (n : NodeId) : Outcome :=
  let location := m.graph.location n
  let info := m.info
  match r.judge m n with
  | .ok none => .clean
  | .error cause => (r.skipText? m n cause).elim .unwritable .diagnostic
  | .ok (some message) =>
    if r.isExempt m n || Suppression.coversLine info.comments phrases r.id location.line then
      .suppressed
    else
      .finding
        { ruleId := r.id, severity := some r.severity, path := info.path, span := location.span,
          message }

/-- The candidates of a unit in pre-order. -/
def candidates (r : Rule) (m : Model) : List NodeId := m.nodes.filter (r.isCandidate m)

/-- What the rule says about a unit. -/
def evaluate (r : Rule) (phrases : List String) (m : Model) : RunResult :=
  .join ((r.candidates m).map fun n => (r.outcome phrases m n).result)

/-- What several rules say about a unit, in the order of the rules. -/
def evaluateAll (rules : List Rule) (phrases : List String) (m : Model) : RunResult :=
  .join (rules.map fun r => r.evaluate phrases m)

/-- A run of several rules over a unit. -/
def run (rules : List Rule) (phrases : List String) (m : Model) : Except RunFailure RunResult :=
  (evaluateAll rules phrases m).complete

/-- The phrases that suppress by default. -/
def defaultPhrases : List String := ["warden: ignore", "warden-ignore"]

end Rule

end ModelLint
