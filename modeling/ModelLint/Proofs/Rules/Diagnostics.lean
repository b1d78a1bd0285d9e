import Mathlib.Data.List.Nodup
import ModelLint.Proofs.Rules.ResourceDisposal
import ModelLint.Proofs.Rules.Settings
import ModelLint.Proofs.Rules.SharedMap

/-!
# Candidates that cannot be judged

A candidate is skipped with a diagnostic if its judgement needs something that the unit does not hold.
On a linked unit every variable has a scope, so this can only be a member of an own object that an
access to a shared map operates on. A diagnostic names two lines, and a run comes to its end only if
all of them can be written.

* `Rule.alone`: a rule that looks at one node only.
* `Rule.evaluate_eq_join`: what a rule says is what it says about each node alone.
* `Rule.run_eq_error`: a run has no result if a diagnostic cannot be written.
* `SharedMap.Skipped`: an access that cannot be judged, with its diagnostic.
* `SharedMap.Unwritten`: an access that cannot be judged and whose diagnostic cannot be written.
* `Registry.diagnostic?_eq_some`: nothing else is skipped by a registered rule.
* **`Rule.run_skips`**: what the rules of a configuration skip, and when a run of them has no result.
* `not_run_endlessModel`: a unit on which it has none.
-/

namespace ModelLint

variable {phrases : List String} {m : Model} {n : NodeId} {text : String}

namespace RunResult

@[simp] theorem empty_append (a : RunResult) : empty ++ a = a := by
  show RunResult.mk ([] ++ a.findings) ([] ++ a.diagnostics) (0 + a.suppressed) (0 + a.unwritten) = a
  rw [List.nil_append, List.nil_append, Nat.zero_add, Nat.zero_add]

@[simp] theorem append_empty (a : RunResult) : a ++ empty = a := by
  show RunResult.mk (a.findings ++ []) (a.diagnostics ++ []) (a.suppressed + 0) (a.unwritten + 0) = a
  rw [List.append_nil, List.append_nil, Nat.add_zero, Nat.add_zero]

theorem diagnostics_join (results : List RunResult) :
    (join results).diagnostics = results.flatMap (·.diagnostics) := by
  induction results with
  | nil => rfl
  | cons a rest ih =>
    rw [List.flatMap_cons, ← ih]
    rfl

@[simp] theorem unwritten_append (a b : RunResult) :
    (a ++ b).unwritten = a.unwritten + b.unwritten :=
  rfl

theorem unwritten_join_eq_zero {results : List RunResult} :
    (join results).unwritten = 0 ↔ ∀ a ∈ results, a.unwritten = 0 := by
  induction results with
  | nil => simp [join, empty]
  | cons a rest ih =>
    show a.unwritten + (join rest).unwritten = 0 ↔ _
    rw [Nat.add_eq_zero_iff, ih, List.forall_mem_cons]

theorem complete_eq_ok {a b : RunResult} : a.complete = .ok b ↔ a.unwritten = 0 ∧ b = a := by
  rw [complete]
  split
  · next h => simp [h, eq_comm]
  · next h => simp [h]

theorem complete_eq_error {a : RunResult} {e : RunFailure} :
    a.complete = .error e ↔ a.unwritten ≠ 0 := by
  rw [complete]
  split
  · next h => simp [h]
  · next h => simp [h]

end RunResult

/-- The diagnostic of a candidate, if it has one. -/
def Outcome.diagnostic? : Outcome → Option String
  | diagnostic text => some text
  | _ => none

theorem Outcome.diagnostics_result (o : Outcome) : o.result.diagnostics = o.diagnostic?.toList := by
  cases o <;> rfl

theorem Outcome.unwritten_result {o : Outcome} : o.result.unwritten = 0 ↔ o ≠ .unwritable := by
  cases o <;> simp [result, RunResult.empty]

namespace Rule

variable {r : Rule}

/-- The rule where a node is the only one that it looks at. -/
def alone (r : Rule) (n : NodeId) : Rule :=
  { r with isCandidate := fun m k => k == n && r.isCandidate m k }

theorem evaluate_alone (hnodes : m.nodes.Nodup) (hn : n ∈ m.nodes) :
    (r.alone n).evaluate phrases m =
      if r.isCandidate m n then (r.outcome phrases m n).result else .empty := by
  have honly : m.nodes.filter (· == n) = [n] := by
    rw [List.filter_beq, List.count_eq_one_of_mem hnodes hn]
    rfl
  have hcandidates : (r.alone n).candidates m = [n].filter (r.isCandidate m) := by
    rw [← honly, List.filter_filter]
    exact List.filter_congr fun k _ => Bool.and_comm _ _
  rw [evaluate, hcandidates, List.filter_singleton]
  cases r.isCandidate m n
  · rfl
  · exact RunResult.append_empty _

/-- **What a rule says about a unit** is what it says about each node alone. -/
theorem evaluate_eq_join (hnodes : m.nodes.Nodup) :
    r.evaluate phrases m = .join (m.nodes.map fun n => (r.alone n).evaluate phrases m) := by
  have halone : m.nodes.map (fun n => (r.alone n).evaluate phrases m) = m.nodes.map fun n =>
      if r.isCandidate m n then (r.outcome phrases m n).result else .empty :=
    List.map_congr_left fun n hn => evaluate_alone hnodes hn
  rw [halone, evaluate, candidates]
  generalize m.nodes = nodes
  induction nodes with
  | nil => rfl
  | cons n rest ih =>
    rw [List.filter_cons, List.map_cons]
    split
    · exact congrArg ((r.outcome phrases m n).result ++ ·) ih
    · exact ih.trans (RunResult.empty_append _).symm

/-- The diagnostic of a node, if the rule skips it. -/
def diagnostic? (r : Rule) (phrases : List String) (m : Model) (n : NodeId) : Option String :=
  if r.isCandidate m n then (r.outcome phrases m n).diagnostic? else none

theorem diagnostics_alone (hnodes : m.nodes.Nodup) (hn : n ∈ m.nodes) :
    ((r.alone n).evaluate phrases m).diagnostics = (r.diagnostic? phrases m n).toList := by
  rw [evaluate_alone hnodes hn, diagnostic?]
  split
  · exact Outcome.diagnostics_result _
  · rfl

theorem diagnostics_evaluate (hnodes : m.nodes.Nodup) :
    (r.evaluate phrases m).diagnostics = m.nodes.filterMap (r.diagnostic? phrases m) := by
  rw [evaluate_eq_join hnodes, RunResult.diagnostics_join, List.flatMap_map,
    List.filterMap_eq_flatMap_toList]
  exact List.flatMap_congr fun n hn => diagnostics_alone hnodes hn

/-- The nodes that the rule skips, in pre-order. -/
def skipped (r : Rule) (phrases : List String) (m : Model) : List NodeId :=
  m.nodes.filter fun n => (r.diagnostic? phrases m n).isSome

theorem mem_skipped :
    n ∈ r.skipped phrases m ↔ n ∈ m.nodes ∧ ∃ text, r.diagnostic? phrases m n = some text := by
  rw [skipped, List.mem_filter, Option.isSome_iff_exists]

/-- **Some of the nodes are skipped**, in pre-order, with one diagnostic each. -/
theorem skipped_evaluate (hnodes : m.nodes.Nodup) :
    ∃ nodes : List NodeId, nodes.Sublist m.nodes ∧ nodes.Nodup ∧
      (∀ n, n ∈ nodes ↔ n ∈ m.nodes ∧ ∃ text, r.diagnostic? phrases m n = some text) ∧
      List.Forall₂ (fun n text => r.diagnostic? phrases m n = some text) nodes
        (r.evaluate phrases m).diagnostics := by
  refine ⟨r.skipped phrases m, List.filter_sublist, hnodes.filter _, fun n => mem_skipped, ?_⟩
  rw [diagnostics_evaluate hnodes]
  exact forall₂_filterMap _ _

theorem outcome_eq_diagnostic : r.outcome phrases m n = .diagnostic text ↔
    ∃ cause, r.judge m n = .error cause ∧ r.skipText? m n cause = some text := by
  rw [outcome]
  rcases r.judge m n with cause | _ | message
  · rcases htext : r.skipText? m n cause with _ | text' <;> simp [htext]
  · simp
  · simp only [reduceCtorEq, false_and, exists_false, iff_false]
    split <;> simp

theorem outcome_eq_unwritable : r.outcome phrases m n = .unwritable ↔
    ∃ cause, r.judge m n = .error cause ∧ r.skipText? m n cause = none := by
  rw [outcome]
  rcases r.judge m n with cause | _ | message
  · rcases htext : r.skipText? m n cause with _ | text' <;> simp [htext]
  · simp
  · simp only [reduceCtorEq, false_and, exists_false, iff_false]
    split <;> simp

theorem diagnostic?_eq_some : r.diagnostic? phrases m n = some text ↔
    r.isCandidate m n = true ∧
      ∃ cause, r.judge m n = .error cause ∧ r.skipText? m n cause = some text := by
  have houtcome : ∀ o : Outcome, o.diagnostic? = some text ↔ o = .diagnostic text := by
    rintro (_ | _ | f | text' | _) <;> simp [Outcome.diagnostic?]
  rw [diagnostic?, Option.ite_none_right_eq_some, houtcome, outcome_eq_diagnostic]

/-- Whether the rule skips a node with a diagnostic that cannot be written. -/
def IsUnwritten (r : Rule) (m : Model) (n : NodeId) : Prop :=
  r.isCandidate m n = true ∧ ∃ cause, r.judge m n = .error cause ∧ r.skipText? m n cause = none

theorem unwritten_evaluate :
    (r.evaluate phrases m).unwritten = 0 ↔ ∀ n ∈ m.nodes, ¬ r.IsUnwritten m n := by
  have houtcome : ∀ n, r.outcome phrases m n = .unwritable ↔
      ∃ cause, r.judge m n = .error cause ∧ r.skipText? m n cause = none :=
    fun _ => outcome_eq_unwritable
  simp only [evaluate, candidates, RunResult.unwritten_join_eq_zero, List.forall_mem_map,
    List.mem_filter, Outcome.unwritten_result, IsUnwritten, houtcome, not_and, and_imp, ne_eq]

theorem run_eq_ok {rules : List Rule} (h : ∀ r ∈ rules, ∀ n ∈ m.nodes, ¬ r.IsUnwritten m n) :
    run rules phrases m = .ok (evaluateAll rules phrases m) := by
  refine RunResult.complete_eq_ok.mpr ⟨?_, rfl⟩
  rw [evaluateAll, RunResult.unwritten_join_eq_zero, List.forall_mem_map]
  exact fun r hr => unwritten_evaluate.mpr (h r hr)

/-- A diagnostic that cannot be written leaves a run without a result. -/
theorem run_eq_error {rules : List Rule} {r : Rule} (hr : r ∈ rules) (hn : n ∈ m.nodes)
    (h : r.IsUnwritten m n) : run rules phrases m = .error .unwritable := by
  have hunwritten : (evaluateAll rules phrases m).unwritten ≠ 0 := by
    rw [evaluateAll, Ne, RunResult.unwritten_join_eq_zero, List.forall_mem_map]
    exact fun hall => unwritten_evaluate.mp (hall r hr) n hn h
  exact RunResult.complete_eq_error.mpr hunwritten

end Rule

/-! ## Judgements -/

namespace SharedMap

variable {p : Patterns}

/-- An access that cannot be judged: it operates on a member of an own object, named at a node, that the
unit does not hold. -/
def Unjudged (m : Model) (n target : NodeId) (name : String) : Prop :=
  accessTarget? m.graph n = some target ∧ m.graph.shape target = .fieldAccess name none none

/-- The diagnostic of an access and a node has its lines in writing. -/
def HasLines (m : Model) (n target : NodeId) : Prop :=
  Decimal.isWritable (m.graph.location n).line = true ∧
    Decimal.isWritable (m.graph.location target).line = true

/-- An access that cannot be judged is skipped with a text. -/
def Skipped (m : Model) (n : NodeId) (text : String) : Prop :=
  ∃ target name, Unjudged m n target name ∧ HasLines m n target ∧
    text = m.info.path.toString ++ ":" ++ toString (m.graph.location n).line ++ ": [" ++ ruleId ++
      "] candidate skipped: " ++ ("Cannot resolve member '" ++ name ++ "' at line " ++
        toString (m.graph.location target).line)

/-- An access that cannot be judged has no text if one of its lines cannot be written. -/
def Unwritten (m : Model) (n : NodeId) : Prop :=
  ∃ target name, Unjudged m n target name ∧ ¬ HasLines m n target

theorem accessedVariable_eq_error {g : Graph} {target : NodeId} {cause : Unresolved} :
    g.accessedVariable target = .error cause ↔ ∃ name,
      g.shape target = .fieldAccess name none none ∧
        cause = .noMember name (g.location target).line := by
  rw [Graph.accessedVariable]
  rcases g.shape target with _ | _ | _ | _ | _ | _ | _ | _ | _ | _ | _ | _ | _ |
    ⟨name, _ | v⟩ | ⟨name, _ | qualifier, _ | v⟩ | _ | _ | _ | _ | _ | _ | _ <;>
    simp [eq_comm]

theorem judge_eq_error {cause : Unresolved} : judge p m n = .error cause ↔
    ∃ target name, Unjudged m n target name ∧
      cause = .noMember name (m.graph.location target).line := by
  simp only [judge, Unjudged, and_assoc]
  rcases htarget : accessTarget? m.graph n with _ | target
  · simp
  · simp only [Option.some.injEq, exists_and_left, exists_eq_left', ← accessedVariable_eq_error]
    rcases hv : m.graph.accessedVariable target with cause' | _ | v
    · simp
    · simp
    · simp only [reduceCtorEq, iff_false]
      split
      · simp
      · split <;> simp

theorem isCandidate_of_unjudged {target : NodeId} {name : String} (h : Unjudged m n target name) :
    isCandidate m n = true := by
  simp only [isCandidate, h.1, Option.any_some, isAccess, h.2]

variable {description : String} {severity : Severity}

theorem skipText?_eq_some {target : NodeId} {name : String} :
    (rule description severity p).skipText? m n (.noMember name (m.graph.location target).line) =
        some text ↔
      HasLines m n target ∧
        text = m.info.path.toString ++ ":" ++ toString (m.graph.location n).line ++ ": [" ++ ruleId ++
          "] candidate skipped: " ++ ("Cannot resolve member '" ++ name ++ "' at line " ++
            toString (m.graph.location target).line) := by
  simp only [Rule.skipText?, Unresolved.message?, HasLines, Option.bind_eq_bind, Option.pure_def,
    Option.bind_eq_some_iff, Decimal.text?_eq_some, Option.some.injEq, rule]
  constructor
  · rintro ⟨_, ⟨_, ⟨htarget, rfl⟩, rfl⟩, _, ⟨hline, rfl⟩, rfl⟩
    exact ⟨⟨hline, htarget⟩, rfl⟩
  · rintro ⟨⟨hline, htarget⟩, rfl⟩
    exact ⟨_, ⟨_, ⟨htarget, rfl⟩, rfl⟩, _, ⟨hline, rfl⟩, rfl⟩

/-- The rule skips the accesses that cannot be judged, whatever its patterns. -/
theorem diagnostic?_rule :
    (rule description severity p).diagnostic? phrases m n = some text ↔ Skipped m n text := by
  rw [Rule.diagnostic?_eq_some]
  constructor
  · rintro ⟨-, cause, hcause, htext⟩
    obtain ⟨target, name, hunjudged, rfl⟩ := judge_eq_error.mp hcause
    exact ⟨target, name, hunjudged, skipText?_eq_some.mp htext⟩
  · rintro ⟨target, name, hunjudged, htext⟩
    exact ⟨isCandidate_of_unjudged hunjudged, _, judge_eq_error.mpr ⟨target, name, hunjudged, rfl⟩,
      skipText?_eq_some.mpr htext⟩

theorem isUnwritten_rule : (rule description severity p).IsUnwritten m n ↔ Unwritten m n := by
  have hnone : ∀ {target name}, (rule description severity p).skipText? m n
      (.noMember name (m.graph.location target).line) = none ↔ ¬ HasLines m n target := by
    intro target name
    rw [Option.eq_none_iff_forall_ne_some]
    simp only [ne_eq, skipText?_eq_some, not_and]
    exact ⟨fun h hlines => h _ hlines rfl, fun h _ hlines => absurd hlines h⟩
  constructor
  · rintro ⟨-, cause, hcause, htext⟩
    obtain ⟨target, name, hunjudged, rfl⟩ := judge_eq_error.mp hcause
    exact ⟨target, name, hunjudged, hnone.mp htext⟩
  · rintro ⟨target, name, hunjudged, hlines⟩
    exact ⟨isCandidate_of_unjudged hunjudged, _, judge_eq_error.mpr ⟨target, name, hunjudged, rfl⟩,
      hnone.mpr hlines⟩

end SharedMap

theorem ResourceDisposal.exists_judge {p : ResourceDisposal.Patterns} (hm : m.Linked)
    (hn : n ∈ m.nodes) : ∃ verdict, ResourceDisposal.judge p m n = .ok verdict := by
  obtain ⟨place, hplace⟩ := (hm.rooted.mem_preorder).mp hn
  rw [judge]
  split
  · next v initializer hshape =>
    obtain ⟨scope, -, hscope, -⟩ := exists_scope hm hplace hshape
    obtain ⟨released, hreleased⟩ : ∃ released, isReleased m.graph p.release n v = .ok released := by
      rw [isReleased, hscope]
      split <;> exact ⟨_, rfl⟩
    simp only [hreleased]
    cases initializer.any m.graph.isAcquisition <;> cases released <;>
      cases TypeName.isResource p.resourceTypes (m.graph.disposableTypes m.root)
        (m.graph.variable' v).typeName <;> exact ⟨_, rfl⟩
  · exact ⟨_, rfl⟩

/-- Settings of the rule on handlers are accepted if they have the two pattern lists. -/
theorem GenericException.build_eq_ok {s : RuleSettings} {r : Rule}
    (h : Registry.genericException.build s = .ok r) : ∃ p : GenericException.Patterns,
      s.pattern? "logging_methods" = some p.logging ∧
      s.pattern? "root_exception_types" = some p.rootTypes ∧
      r = rule Registry.genericException.description s.severity p := by
  simp only [Registry.genericException, RuleDefinition.require] at h
  rcases hlogging : s.pattern? "logging_methods" with _ | logging
  · rw [hlogging] at h; cases h
  rcases hroots : s.pattern? "root_exception_types" with _ | roots
  · rw [hlogging, hroots] at h; cases h
  rw [hlogging, hroots] at h
  cases h
  exact ⟨⟨logging, roots⟩, rfl, rfl, rfl⟩

/-- A registered rule judges every node, or it is the rule on shared maps. -/
theorem Registry.judges_or_sharedMap {d : RuleDefinition} {s : RuleSettings} {r : Rule}
    (hm : m.Linked) (hn : n ∈ m.nodes) (hd : d ∈ definitions) (hr : d.build s = .ok r) :
    (r.id ≠ SharedMap.ruleId ∧ ∃ verdict, r.judge m n = .ok verdict) ∨
      ∃ description severity p, r = SharedMap.rule description severity p := by
  simp only [definitions, List.mem_cons, List.not_mem_nil, or_false] at hd
  rcases hd with rfl | rfl | rfl
  · obtain ⟨p, -, -, rfl⟩ := GenericException.build_eq_ok hr
    have hother : GenericException.ruleId ≠ SharedMap.ruleId := by decide
    exact .inl ⟨hother, _, rfl⟩
  · obtain ⟨p, -, -, rfl⟩ := ResourceDisposal.build_eq_ok hr
    have hother : ResourceDisposal.ruleId ≠ SharedMap.ruleId := by decide
    exact .inl ⟨hother, ResourceDisposal.exists_judge hm hn⟩
  · obtain ⟨p, -, -, -, -, rfl⟩ := SharedMap.build_eq_ok hr
    exact .inr ⟨_, _, p, rfl⟩

/-- **Registered rules skip the accesses that cannot be judged**, and nothing else. -/
theorem Registry.diagnostic?_eq_some {d : RuleDefinition} {s : RuleSettings} {r : Rule}
    (hm : m.Linked) (hn : n ∈ m.nodes) (hd : d ∈ definitions) (hr : d.build s = .ok r) :
    r.diagnostic? phrases m n = some text ↔ r.id = SharedMap.ruleId ∧ SharedMap.Skipped m n text := by
  rcases judges_or_sharedMap hm hn hd hr with ⟨hother, verdict, hverdict⟩ | ⟨_, _, p, rfl⟩
  · rw [Rule.diagnostic?_eq_some, hverdict]
    exact iff_of_false (by simp) fun h => hother h.1
  · exact SharedMap.diagnostic?_rule.trans (and_iff_right rfl).symm

theorem Registry.isUnwritten_iff {d : RuleDefinition} {s : RuleSettings} {r : Rule}
    (hm : m.Linked) (hn : n ∈ m.nodes) (hd : d ∈ definitions) (hr : d.build s = .ok r) :
    r.IsUnwritten m n ↔ r.id = SharedMap.ruleId ∧ SharedMap.Unwritten m n := by
  rcases judges_or_sharedMap hm hn hd hr with ⟨hother, verdict, hverdict⟩ | ⟨_, _, p, rfl⟩
  · rw [Rule.IsUnwritten, hverdict]
    exact iff_of_false (by simp) fun h => hother h.1
  · exact SharedMap.isUnwritten_rule.trans (and_iff_right rfl).symm

theorem Configuration.diagnostic?_eq_some {c : Configuration} {r : Rule} {id : String} (hm : m.Linked)
    (hn : n ∈ m.nodes) (hr : c.buildRule? id = some r) :
    r.diagnostic? phrases m n = some text ↔ r.id = SharedMap.ruleId ∧ SharedMap.Skipped m n text := by
  obtain ⟨d, hd, s, hbuild⟩ := exists_definition hr
  exact Registry.diagnostic?_eq_some hm hn hd hbuild

theorem Configuration.isUnwritten_iff {c : Configuration} {r : Rule} {id : String} (hm : m.Linked)
    (hn : n ∈ m.nodes) (hr : c.buildRule? id = some r) :
    r.IsUnwritten m n ↔ r.id = SharedMap.ruleId ∧ SharedMap.Unwritten m n := by
  obtain ⟨d, hd, s, hbuild⟩ := exists_definition hr
  exact Registry.isUnwritten_iff hm hn hd hbuild

/-- What is said about a candidate that is not skipped: it is clean, suppressed or a finding. -/
def Outcome.IsJudgement (o : Outcome) : Prop := o ≠ .unwritable ∧ ∀ text, o ≠ .diagnostic text

namespace Rule

variable {r : Rule}

theorem evaluate_alone_of_some (hnodes : m.nodes.Nodup) (hn : n ∈ m.nodes)
    (h : r.diagnostic? phrases m n = some text) :
    (r.alone n).evaluate phrases m = ⟨[], [text], 0, 0⟩ := by
  obtain ⟨hcandidate, hskipped⟩ := diagnostic?_eq_some.mp h
  rw [evaluate_alone hnodes hn, if_pos hcandidate, outcome_eq_diagnostic.mpr hskipped]
  rfl

theorem evaluate_alone_of_isUnwritten (hnodes : m.nodes.Nodup) (hn : n ∈ m.nodes)
    (h : r.IsUnwritten m n) : (r.alone n).evaluate phrases m = ⟨[], [], 0, 1⟩ := by
  rw [evaluate_alone hnodes hn, if_pos h.1, outcome_eq_unwritable.mpr h.2]
  rfl

theorem exists_isJudgement (hnodes : m.nodes.Nodup) (hn : n ∈ m.nodes)
    (h : ∀ text, r.diagnostic? phrases m n ≠ some text) (hwritten : ¬ r.IsUnwritten m n) :
    ∃ o : Outcome, o.IsJudgement ∧ (r.alone n).evaluate phrases m = o.result := by
  rw [evaluate_alone hnodes hn]
  split
  · next hcandidate =>
    exact ⟨r.outcome phrases m n,
      ⟨fun ho => hwritten ⟨hcandidate, outcome_eq_unwritable.mp ho⟩,
        fun text ho => h text (diagnostic?_eq_some.mpr ⟨hcandidate, outcome_eq_diagnostic.mp ho⟩)⟩, rfl⟩
  · exact ⟨.clean, ⟨Outcome.noConfusion, fun _ => Outcome.noConfusion⟩, rfl⟩

/-- **The candidates that the rules of a configuration skip.** They are the accesses that cannot be
judged, whatever the patterns are. A run has no result exactly if the rule on shared maps is in its
list and the diagnostic of one of them cannot be written; otherwise its result is what the rules say.
In that, each time that the rule on shared maps is in the list it gives the diagnostics, in pre-order
and one for each access, and nothing else gives any. What a rule says about a unit is what it says
about each node alone, and about one that is not skipped it says that it is clean, suppressed or a
finding. -/
theorem run_skips (hm : m.Linked) :
    ∃ nodes texts, nodes.Sublist m.nodes ∧ nodes.Nodup ∧
      (∀ n, n ∈ nodes ↔ n ∈ m.nodes ∧ ∃ text, SharedMap.Skipped m n text) ∧
      List.Forall₂ (SharedMap.Skipped m) nodes texts ∧
      ∀ {value : Value} {c : Configuration}, Configuration.ofValue value = .ok c →
        (∃ rules, c.buildRules = .ok rules ∧ ∀ r ∈ rules, ∃ id, c.buildRule? id = some r) ∧
        (∀ d ∈ Registry.definitions, ∃ r, c.buildRule? d.id = some r ∧ r.id = d.id) ∧
        ∀ rules phrases, (∀ r ∈ rules, ∃ id, c.buildRule? id = some r) →
          ((∃ r ∈ rules, r.id = SharedMap.ruleId) ∧ (∃ n ∈ m.nodes, SharedMap.Unwritten m n) →
            run rules phrases m = .error .unwritable) ∧
          (¬ ((∃ r ∈ rules, r.id = SharedMap.ruleId) ∧ ∃ n ∈ m.nodes, SharedMap.Unwritten m n) →
            run rules phrases m = .ok (evaluateAll rules phrases m)) ∧
          (evaluateAll rules phrases m).diagnostics =
            rules.flatMap (fun r => if r.id = SharedMap.ruleId then texts else []) ∧
          ∀ r ∈ rules,
            r.evaluate phrases m = .join (m.nodes.map fun n => (r.alone n).evaluate phrases m) ∧
            ∀ n ∈ m.nodes,
              (r.id = SharedMap.ruleId →
                (∀ text, SharedMap.Skipped m n text →
                  (r.alone n).evaluate phrases m = ⟨[], [text], 0, 0⟩) ∧
                (SharedMap.Unwritten m n → (r.alone n).evaluate phrases m = ⟨[], [], 0, 1⟩)) ∧
              (¬ (r.id = SharedMap.ruleId ∧ ∃ target name, SharedMap.Unjudged m n target name) →
                ∃ o : Outcome, o.IsJudgement ∧ (r.alone n).evaluate phrases m = o.result) := by
  -- the rule without patterns tells what is skipped
  let skipped? := (SharedMap.rule "" .error ⟨[], [], [], []⟩).diagnostic? [] m
  have hskipped : ∀ {n text}, skipped? n = some text ↔ SharedMap.Skipped m n text :=
    SharedMap.diagnostic?_rule
  have hnodes : m.nodes.Nodup := hm.rooted.nodup_preorder
  have hmem : ∀ n, n ∈ m.nodes.filter (fun n => (skipped? n).isSome) ↔
      n ∈ m.nodes ∧ ∃ text, SharedMap.Skipped m n text := fun n => by
    simp only [List.mem_filter, Option.isSome_iff_exists, hskipped]
  refine ⟨m.nodes.filter fun n => (skipped? n).isSome, m.nodes.filterMap skipped?,
    List.filter_sublist, hnodes.filter _, hmem, (forall₂_filterMap skipped? _).imp fun _ _ => hskipped.mp,
    fun hc => ⟨Configuration.exists_buildRules hc, fun d => Configuration.exists_buildRule? hc,
      fun rules phrases hrules => ⟨?failed, ?ended, ?diagnostics, fun r hr => ⟨evaluate_eq_join hnodes,
        fun n hn => ⟨?skipped, ?judged⟩⟩⟩⟩⟩
  case failed =>
    rintro ⟨⟨r, hr, hrule⟩, n, hn, hunwritten⟩
    obtain ⟨id, hid⟩ := hrules r hr
    exact run_eq_error hr hn ((Configuration.isUnwritten_iff hm hn hid).mpr ⟨hrule, hunwritten⟩)
  case ended =>
    refine fun hnot => run_eq_ok fun r hr n hn hunwritten => hnot ?_
    obtain ⟨id, hid⟩ := hrules r hr
    have hboth := (Configuration.isUnwritten_iff hm hn hid).mp hunwritten
    exact ⟨⟨r, hr, hboth.1⟩, n, hn, hboth.2⟩
  case diagnostics =>
    rw [evaluateAll, RunResult.diagnostics_join, List.flatMap_map]
    refine List.flatMap_congr fun r hr => ?_
    obtain ⟨id, hid⟩ := hrules r hr
    rw [diagnostics_evaluate hnodes]
    split
    · next hrule =>
      refine List.filterMap_congr fun n hn => Option.ext fun text => ?_
      rw [Configuration.diagnostic?_eq_some hm hn hid, hskipped, and_iff_right hrule]
    · next hrule =>
      refine List.filterMap_eq_nil_iff.mpr fun n hn => Option.eq_none_iff_forall_ne_some.mpr ?_
      exact fun text h => hrule ((Configuration.diagnostic?_eq_some hm hn hid).mp h).1
  case skipped =>
    intro hrule
    obtain ⟨id, hid⟩ := hrules r hr
    exact ⟨fun text htext => evaluate_alone_of_some hnodes hn
        ((Configuration.diagnostic?_eq_some hm hn hid).mpr ⟨hrule, htext⟩),
      fun hunwritten => evaluate_alone_of_isUnwritten hnodes hn
        ((Configuration.isUnwritten_iff hm hn hid).mpr ⟨hrule, hunwritten⟩)⟩
  case judged =>
    intro hnot
    obtain ⟨id, hid⟩ := hrules r hr
    refine exists_isJudgement hnodes hn (fun text h => hnot ?_) fun h => hnot ?_
    · obtain ⟨hrule, target, name, hunjudged, -⟩ :=
        (Configuration.diagnostic?_eq_some hm hn hid).mp h
      exact ⟨hrule, target, name, hunjudged⟩
    · obtain ⟨hrule, target, name, hunjudged, -⟩ := (Configuration.isUnwritten_iff hm hn hid).mp h
      exact ⟨hrule, target, name, hunjudged⟩

end Rule

/-- A unit of a function that looks something up in an own member that is not declared, which it names
on a line. What it looks up it reads from its parameter, a map. -/
def memberUnit (line : Int) : Graph where
  nodes := #[
    ⟨⟨1, 0, none, none⟩, .sourceUnit ⟨⟨"", ["m.py"]⟩, "python", [], []⟩ [1], none⟩,
    ⟨⟨1, 0, none, none⟩, .declaration ⟨"read", .method, "read", ["async"], [0], none, false⟩ [] none
      [2], none⟩,
    ⟨⟨2, 4, none, none⟩, .returnStatement (some 3), none⟩,
    ⟨⟨2, 11, none, none⟩, .elementAccess 4 (some 5), none⟩,
    ⟨⟨line, 11, none, none⟩, .fieldAccess "cache" none none, none⟩,
    ⟨⟨2, 22, none, none⟩, .elementAccess 6 none, none⟩,
    ⟨⟨2, 22, none, none⟩, .varAccess "d" (some 0), none⟩]
  vars := #[⟨"d", some "dict", .parameter, false, none⟩]

/-- The unit once it is linked, where the member is named on the line of the lookup. -/
def memberModel : Model := ⟨((memberUnit 2).link 0).1, 0⟩

theorem linked_memberModel : memberModel.Linked :=
  ⟨memberUnit 2, ⟨by decide, by decide⟩, by decide, ⟨_, _, rfl⟩, Prod.ext rfl rfl⟩

/-- The lookup is skipped by the rule on shared maps of the standard configuration. -/
theorem run_memberModel : memberModel.Linked ∧
    Configuration.ofValue (.map []) = .ok .standard ∧
    ∃ r, Configuration.standard.buildRule? SharedMap.ruleId = some r ∧
      Rule.run [r] [] memberModel = .ok (Rule.evaluateAll [r] [] memberModel) ∧
      ∃ text ∈ (Rule.evaluateAll [r] [] memberModel).diagnostics,
        SharedMap.Skipped memberModel 3 text := by
  obtain ⟨_, _, -, -, -, -, hall⟩ := Rule.run_skips linked_memberModel
  have hc : Configuration.ofValue (.map []) = .ok .standard := rfl
  obtain ⟨-, hbuilt, hrules⟩ := hall hc
  obtain ⟨r, hr, hid⟩ := hbuilt Registry.sharedMap (by simp [Registry.definitions])
  have hnode : 3 ∈ memberModel.nodes := by decide
  have hlines : ∀ k ∈ memberModel.nodes, ∀ target ∈ SharedMap.accessTarget? memberModel.graph k,
      Decimal.isWritable (memberModel.graph.location k).line = true ∧
        Decimal.isWritable (memberModel.graph.location target).line = true := by decide +kernel
  have hwritten : ¬ ∃ k ∈ memberModel.nodes, SharedMap.Unwritten memberModel k := by
    rintro ⟨k, hk, target, name, hunjudged, h⟩
    exact h (hlines k hk target hunjudged.1)
  obtain ⟨text, htext⟩ : ∃ text, SharedMap.Skipped memberModel 3 text :=
    ⟨_, 4, "cache", ⟨rfl, rfl⟩, hlines 3 hnode 4 rfl, rfl⟩
  have hfrom : ∀ r' ∈ [r], ∃ id, Configuration.standard.buildRule? id = some r' :=
    List.forall_mem_singleton.mpr ⟨_, hr⟩
  obtain ⟨-, hended, -, halone⟩ := hrules [r] [] hfrom
  obtain ⟨hjoin, heach⟩ := halone r List.mem_cons_self
  refine ⟨linked_memberModel, hc, r, hr, hended fun h => hwritten h.2, text, ?_, htext⟩
  have hsingle : Rule.evaluateAll [r] [] memberModel = r.evaluate [] memberModel :=
    RunResult.append_empty _
  rw [hsingle, hjoin, RunResult.diagnostics_join, List.mem_flatMap]
  exact ⟨_, List.mem_map_of_mem hnode, by simp [((heach 3 hnode).1 hid).1 text htext]⟩

/-- The unit once it is linked, where the member is named on a line that cannot be written. -/
def endlessModel : Model := ⟨((memberUnit Decimal.overlong).link 0).1, 0⟩

theorem linked_endlessModel : endlessModel.Linked :=
  ⟨memberUnit Decimal.overlong, ⟨by decide, by decide⟩, by decide, ⟨_, _, rfl⟩, Prod.ext rfl rfl⟩

/-- **A run has no result where a line has too many digits.** -/
theorem not_run_endlessModel : endlessModel.Linked ∧
    Configuration.ofValue (.map []) = .ok .standard ∧
    ∃ r, Configuration.standard.buildRule? SharedMap.ruleId = some r ∧
      Rule.run [r] [] endlessModel = .error .unwritable := by
  have hc : Configuration.ofValue (.map []) = .ok .standard := rfl
  obtain ⟨r, hr, hid⟩ := Configuration.exists_buildRule? hc (d := Registry.sharedMap)
    (by simp [Registry.definitions])
  have hnode : 3 ∈ endlessModel.nodes := by decide
  have hunwritten : SharedMap.Unwritten endlessModel 3 := by
    refine ⟨4, "cache", ⟨rfl, rfl⟩, fun hlines => ?_⟩
    have hline : (endlessModel.graph.location 4).line = Decimal.overlong := rfl
    rw [SharedMap.HasLines, hline, Decimal.isWritable_overlong] at hlines
    cases hlines.2
  exact ⟨linked_endlessModel, hc, r, hr, Rule.run_eq_error List.mem_cons_self hnode
    ((Configuration.isUnwritten_iff linked_endlessModel hnode hr).mpr ⟨hid, hunwritten⟩)⟩

end ModelLint
