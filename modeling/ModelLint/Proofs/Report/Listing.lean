import Mathlib.Data.List.Induction
import Mathlib.Data.List.Nodup
import ModelLint.Report

/-!
# How the table of a log grows

The results of a log point into a table of rules that is written at the same time. An entry is only
put at the end of the table, and only for a rule without one, so a position stays the position of its
rule while later findings make the table longer.

* `Report.IsFirst`: the findings that make an entry.
* `Listing.Indexed`: what a listing holds at any time; `Indexed.add` is the step.
* **`Listing.indexed_ofFindings`**: what the listing of findings holds.
* **`Listing.prefix_ofFindings`**: later findings change nothing that is listed.
-/

namespace ModelLint.Report

/-- A position of a list of findings holds the first finding of its rule. -/
def IsFirst (findings : List Finding) (k : Nat) : Prop :=
  ∃ f, findings[k]? = some f ∧ ∀ g ∈ findings.take k, g.ruleId ≠ f.ruleId

theorem isFirst_concat {findings : List Finding} {f : Finding} {k : Nat} :
    IsFirst (findings ++ [f]) k ↔
      IsFirst findings k ∨ (k = findings.length ∧ ∀ g ∈ findings, g.ruleId ≠ f.ruleId) := by
  rcases Nat.lt_trichotomy k findings.length with hk | rfl | hk
  · rw [IsFirst, IsFirst, List.getElem?_append_left hk, List.take_append_of_le_length (Nat.le_of_lt hk)]
    exact ⟨.inl, fun h => h.resolve_right fun hlast => Nat.ne_of_lt hk hlast.1⟩
  · simp [IsFirst]
  · have hout : (findings ++ [f]).length ≤ k := by
      rw [List.length_append, List.length_singleton]
      exact hk
    have hin : findings.length ≤ k := Nat.le_of_lt hk
    simp [IsFirst, List.getElem?_eq_none hout, List.getElem?_eq_none hin, Nat.ne_of_gt hk]

namespace Listing

variable {s : Listing} {f : Finding} {findings : List Finding} {rule : String}

/-- The table has an entry for a rule. -/
def Knows (s : Listing) (rule : String) : Prop := ∃ g ∈ s.table, g.ruleId = rule

/-! ## One finding -/

theorem any_iff_knows : (s.table.any fun g => g.ruleId == f.ruleId) = true ↔ s.Knows f.ruleId := by
  simp only [List.any_eq_true, beq_iff_eq, Knows]

theorem table_add_of_knows (h : s.Knows f.ruleId) : (s.add f).table = s.table :=
  if_pos (any_iff_knows.mpr h)

theorem table_add_of_not_knows (h : ¬ s.Knows f.ruleId) : (s.add f).table = s.table ++ [f] :=
  if_neg fun hany => h (any_iff_knows.mp hany)

theorem results_add : (s.add f).results = s.results ++ [resultEntry (s.add f).table f] := rfl

theorem table_prefix_add : s.table <+: (s.add f).table := by
  by_cases h : s.Knows f.ruleId
  · exact ⟨[], (List.append_nil _).trans (table_add_of_knows h).symm⟩
  · exact ⟨[f], (table_add_of_not_knows h).symm⟩

theorem knows_add : (s.add f).Knows rule ↔ s.Knows rule ∨ f.ruleId = rule := by
  by_cases h : s.Knows f.ruleId
  · rw [Knows, table_add_of_knows h]
    exact ⟨.inl, fun hrule => hrule.elim id fun heq => heq ▸ h⟩
  · simp only [Knows, table_add_of_not_knows h, List.mem_append, List.mem_singleton, or_and_right,
      exists_or, exists_eq_left]

/-- A rule that has an entry keeps its position when the table grows. -/
theorem resultEntry_of_prefix {table table' : List Finding} (h : table <+: table')
    (hf : ∃ g ∈ table, g.ruleId = f.ruleId) : resultEntry table' f = resultEntry table f := by
  obtain ⟨later, rfl⟩ := h
  obtain ⟨g, hg, hrule⟩ := hf
  have hlt : (table.findIdx fun e => e.ruleId == f.ruleId) < table.length :=
    List.findIdx_lt_length_of_exists ⟨g, hg, beq_iff_eq.mpr hrule⟩
  rw [resultEntry, resultEntry, List.findIdx_append, if_pos hlt]

/-! ## All findings -/

/-- **A listing of findings**: the table has one entry for each rule, in the order of the first
findings of the rules, and the result of each finding points to the entry of its rule. -/
structure Indexed (findings : List Finding) (s : Listing) : Prop where
  /-- The rules with an entry are those of the findings. -/
  knows_iff : ∀ rule, s.Knows rule ↔ ∃ f ∈ findings, f.ruleId = rule
  /-- No rule has two entries. -/
  nodup : (s.table.map Finding.ruleId).Nodup
  /-- The entries stand for the findings that are the first of their rules, in their order. -/
  firsts : ∃ positions : List Nat, positions.Pairwise (· < ·) ∧
    (∀ k, k ∈ positions ↔ IsFirst findings k) ∧
    List.Forall₂ (fun k g => findings[k]? = some g) positions s.table
  /-- The results point into the table as it is now. -/
  results_eq : s.results = findings.map (resultEntry s.table)

theorem indexed_empty : Indexed [] empty where
  knows_iff rule := by simp [Knows, empty]
  nodup := List.nodup_nil
  firsts := ⟨[], .nil, fun k => by simp [IsFirst], .nil⟩
  results_eq := rfl

theorem getElem?_concat {k : Nat} {g : Finding} (h : findings[k]? = some g) :
    (findings ++ [f])[k]? = some g := by
  rw [List.getElem?_append_left (List.getElem?_eq_some_iff.mp h).1]
  exact h

theorem Indexed.add (h : Indexed findings s) (f : Finding) :
    Indexed (findings ++ [f]) (s.add f) where
  knows_iff rule := by
    rw [knows_add, h.knows_iff]
    simp only [List.mem_append, List.mem_singleton, or_and_right, exists_or, exists_eq_left]
  nodup := by
    by_cases hf : s.Knows f.ruleId
    · rw [table_add_of_knows hf]
      exact h.nodup
    · rw [table_add_of_not_knows hf, List.map_append, List.map_singleton, ← List.concat_eq_append]
      exact h.nodup.concat fun hmem => hf (List.mem_map.mp hmem)
  firsts := by
    obtain ⟨positions, hsorted, hmem, htable⟩ := h.firsts
    have hkept := htable.imp fun k g hk => getElem?_concat (f := f) hk
    by_cases hf : s.Knows f.ruleId
    · obtain ⟨g, hg, hrule⟩ := (h.knows_iff _).mp hf
      refine ⟨positions, hsorted, fun k => ?_, table_add_of_knows hf ▸ hkept⟩
      rw [hmem, isFirst_concat]
      exact ⟨.inl, fun hk => hk.resolve_right fun hlast => hlast.2 g hg hrule⟩
    · have hnew : ∀ g ∈ findings, g.ruleId ≠ f.ruleId :=
        fun g hg hrule => hf ((h.knows_iff _).mpr ⟨g, hg, hrule⟩)
      have hlt : ∀ k ∈ positions, k < findings.length := by
        intro k hk
        obtain ⟨g, hg, -⟩ := (hmem k).mp hk
        exact (List.getElem?_eq_some_iff.mp hg).1
      refine ⟨positions ++ [findings.length], ?_, fun k => ?_, ?_⟩
      · refine List.pairwise_append.mpr ⟨hsorted, List.pairwise_singleton _ _, fun k hk l hl => ?_⟩
        rw [List.mem_singleton.mp hl]
        exact hlt k hk
      · rw [List.mem_append, List.mem_singleton, hmem, isFirst_concat, and_iff_left hnew]
      · rw [table_add_of_not_knows hf]
        exact List.rel_append hkept (.cons List.getElem?_concat_length .nil)
  results_eq := by
    have hold : findings.map (resultEntry (s.add f).table) = findings.map (resultEntry s.table) :=
      List.map_congr_left fun g hg =>
        resultEntry_of_prefix table_prefix_add ((h.knows_iff _).mpr ⟨g, hg, rfl⟩)
    rw [results_add, h.results_eq, List.map_append, hold, List.map_singleton]

theorem ofFindings_concat (findings : List Finding) (f : Finding) :
    ofFindings (findings ++ [f]) = (ofFindings findings).add f :=
  List.foldl_concat ..

/-- **What the listing of findings holds.** -/
theorem indexed_ofFindings (findings : List Finding) : Indexed findings (ofFindings findings) := by
  induction findings using List.reverseRecOn with
  | nil => exact indexed_empty
  | append_singleton findings f ih =>
    rw [ofFindings_concat]
    exact ih.add f

end Listing

end ModelLint.Report
