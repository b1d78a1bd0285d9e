import Mathlib.Data.List.Forall2
import ModelLint.Rules.Rule

/-!
# What an evaluation reports

The findings of a rule on a unit are those of its candidates, one after the other in pre-order.

* `Outcome.finding?`: the finding of a candidate, if it has one.
* `Suppression.coversLine_iff`: when no comment covers a line.
* `Rule.findings_evaluate`: the findings of an evaluation are those of the candidates.
* `Rule.reported`: the nodes that are reported.
* **`Rule.reported_evaluate`**: some of the nodes are reported, in pre-order, with one finding each.
-/

namespace ModelLint

/-- The finding of a candidate, if it has one. -/
def Outcome.finding? : Outcome → Option Finding
  | finding f => some f
  | _ => none

namespace RunResult

@[simp] theorem findings_append (a b : RunResult) : (a ++ b).findings = a.findings ++ b.findings :=
  rfl

theorem findings_join (results : List RunResult) :
    (join results).findings = results.flatMap (·.findings) := by
  induction results with
  | nil => rfl
  | cons r rest ih =>
    rw [List.flatMap_cons, ← ih]
    rfl

end RunResult

theorem Outcome.findings_result (o : Outcome) : o.result.findings = o.finding?.toList := by
  cases o <;> rfl

namespace Suppression

/-- No comment on a line or on the line above it covers a rule there. -/
theorem coversLine_iff {comments : List (Int × String)} {phrases : List String} {id : String}
    {line : Int} : coversLine comments phrases id line = false ↔
      ∀ l comment, l = line ∨ l = line - 1 → commentAt? comments l = some comment →
        comment ≠ "" → ¬ covers comment phrases id = true := by
  rw [← Bool.not_eq_true, coversLine]
  simp only [List.any_cons, List.any_nil, Bool.or_false, Bool.or_eq_true, Option.any_eq_true,
    Bool.and_eq_true, decide_eq_true_eq, not_or, not_exists, not_and]
  constructor
  · rintro ⟨hline, habove⟩ l comment (rfl | rfl)
    · exact hline comment
    · exact habove comment
  · intro h
    exact ⟨fun comment => h line comment (.inl rfl), fun comment => h (line - 1) comment (.inr rfl)⟩

end Suppression

namespace Rule

variable (r : Rule) (phrases : List String) (m : Model)

/-- The finding of a node, if the rule reports it. -/
def finding? (n : NodeId) : Option Finding :=
  if r.isCandidate m n then (r.outcome phrases m n).finding? else none

theorem findings_evaluate :
    (r.evaluate phrases m).findings = m.nodes.filterMap (r.finding? phrases m) := by
  rw [evaluate, RunResult.findings_join, List.flatMap_map, candidates]
  induction m.nodes with
  | nil => rfl
  | cons n rest ih =>
    rw [List.filterMap_cons, finding?]
    by_cases hn : r.isCandidate m n = true
    · rw [List.filter_cons_of_pos hn, List.flatMap_cons, ih, Outcome.findings_result, if_pos hn]
      cases (r.outcome phrases m n).finding? <;> rfl
    · rw [List.filter_cons_of_neg hn, ih, if_neg hn]

theorem forall₂_filterMap {α β : Type} (f : α → Option β) (xs : List α) :
    List.Forall₂ (fun x y => f x = some y) (xs.filter fun x => (f x).isSome) (xs.filterMap f) := by
  induction xs with
  | nil => exact .nil
  | cons x xs ih =>
    rw [List.filter_cons, List.filterMap_cons]
    rcases h : f x with _ | y
    · exact ih
    · exact .cons h ih

/-- The nodes that the rule reports, in pre-order. -/
def reported : List NodeId := m.nodes.filter fun n => (r.finding? phrases m n).isSome

theorem mem_reported {n : NodeId} :
    n ∈ r.reported phrases m ↔ n ∈ m.nodes ∧ ∃ f, r.finding? phrases m n = some f := by
  rw [reported, List.mem_filter, Option.isSome_iff_exists]

theorem forall₂_reported :
    List.Forall₂ (fun n f => r.finding? phrases m n = some f) (r.reported phrases m)
      (r.evaluate phrases m).findings := by
  rw [findings_evaluate]
  exact forall₂_filterMap _ _

/-- **Some of the nodes are reported**, in pre-order, with one finding each. -/
theorem reported_evaluate :
    ∃ nodes : List NodeId, nodes.Sublist m.nodes ∧
      (∀ n, n ∈ nodes ↔ n ∈ m.nodes ∧ ∃ f, r.finding? phrases m n = some f) ∧
      List.Forall₂ (fun n f => r.finding? phrases m n = some f) nodes
        (r.evaluate phrases m).findings :=
  ⟨r.reported phrases m, List.filter_sublist, fun _ => r.mem_reported phrases m,
    r.forall₂_reported phrases m⟩

/-- A rule that reports no node that another one does not report has some of its nodes. -/
theorem reported_sublist {r' : Rule} {phrases' : List String}
    (h : ∀ n ∈ m.nodes, (∃ f, r.finding? phrases m n = some f) →
      ∃ f, r'.finding? phrases' m n = some f) :
    (r.reported phrases m).Sublist (r'.reported phrases' m) := by
  have hfilter : r.reported phrases m =
      (r'.reported phrases' m).filter fun n => (r.finding? phrases m n).isSome := by
    rw [reported, reported, List.filter_filter]
    refine List.filter_congr fun n hn => ?_
    rw [Bool.eq_iff_iff, Bool.and_eq_true, Option.isSome_iff_exists, Option.isSome_iff_exists]
    exact ⟨fun hr => ⟨hr, h n hn hr⟩, fun hr => hr.1⟩
  rw [hfilter]
  exact List.filter_sublist

variable {r phrases m} {n : NodeId} {f : Finding}

theorem mem_findings_evaluateAll {rules : List Rule} :
    f ∈ (evaluateAll rules phrases m).findings ↔
      ∃ r ∈ rules, ∃ n ∈ m.nodes, r.finding? phrases m n = some f := by
  rw [evaluateAll, RunResult.findings_join, List.flatMap_map, List.mem_flatMap]
  simp only [findings_evaluate, List.mem_filterMap]

/-- A node is reported if it is a candidate that violates the rule, is not exempt and not covered
by a comment. -/
theorem finding?_eq_some :
    r.finding? phrases m n = some f ↔
      r.isCandidate m n = true ∧ r.isExempt m n = false ∧
        Suppression.coversLine m.info.comments phrases r.id (m.graph.location n).line = false ∧
        ∃ message, r.judge m n = .ok (some message) ∧
          f = { ruleId := r.id, severity := some r.severity, path := m.info.path,
                span := (m.graph.location n).span, message } := by
  rw [finding?, outcome]
  split
  · rename_i hcandidate
    rcases hjudge : r.judge m n with cause | _ | message
    · rcases htext : r.skipText? m n cause with _ | text <;> simp [Outcome.finding?, htext]
    · simp [Outcome.finding?]
    · simp only [hcandidate, true_and, Except.ok.injEq, Option.some.injEq, exists_eq_left']
      split
      · rename_i hsafe
        refine ⟨fun h => absurd h (Option.some_ne_none f).symm, fun ⟨hexempt, hcovers, _⟩ => ?_⟩
        rw [hexempt, hcovers] at hsafe
        cases hsafe
      · rename_i hsafe
        rw [Bool.or_eq_true, not_or, Bool.not_eq_true, Bool.not_eq_true] at hsafe
        rw [Outcome.finding?, Option.some.injEq]
        exact ⟨fun h => ⟨hsafe.1, hsafe.2, h.symm⟩, fun h => h.2.2.symm⟩
  · rename_i hcandidate
    simp [hcandidate]

/-- What it takes for a node to be reported. -/
theorem exists_finding?_iff : (∃ f, r.finding? phrases m n = some f) ↔
    r.isCandidate m n = true ∧ r.isExempt m n = false ∧
      Suppression.coversLine m.info.comments phrases r.id (m.graph.location n).line = false ∧
      ∃ message, r.judge m n = .ok (some message) := by
  simp only [finding?_eq_some]
  constructor
  · rintro ⟨_, hcandidate, hexempt, hcovers, message, hmessage, -⟩
    exact ⟨hcandidate, hexempt, hcovers, message, hmessage⟩
  · rintro ⟨hcandidate, hexempt, hcovers, message, hmessage⟩
    exact ⟨_, hcandidate, hexempt, hcovers, message, hmessage, rfl⟩

end Rule

end ModelLint
