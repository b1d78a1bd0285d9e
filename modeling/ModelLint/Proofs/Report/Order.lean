import Mathlib.Data.List.Forall2
import Mathlib.Data.Prod.Lex
import ModelLint.Proofs.Report.Listing
import ModelLint.Proofs.Report.Records

/-!
# When the order of findings does not matter

Reports sort findings by path, start, rule and message. Findings that agree in all of these keep the
order in which they were found, and the end and the severity that tell them apart are written in JSON
and in SARIF.

* `Finding.sortKey`, `Finding.le_iff`: the order of reports compares keys.
* `Finding.shown`: what reports show of a finding.
* `Report.filter_sorted`: sorting is stable.
* `Report.text_congr`, `Report.json_congr`, `Report.sarif_congr`: findings that show the same give
  the same report.
* **`Report.render_perm_iff`**: when the order of the findings does not matter.
-/

namespace ModelLint

open Json (Exact)

namespace Finding

/-- What the order of reports compares. -/
abbrev SortKey : Type := String ×ₗ Int ×ₗ Int ×ₗ String ×ₗ String

/-- The path, the start, the rule and the message of a finding. -/
def sortKey (f : Finding) : SortKey :=
  toLex (f.path.toString, toLex (f.span.startLine, toLex (f.span.startColumn,
    toLex (f.ruleId, f.message))))

theorem le_iff {f g : Finding} : f.le g = true ↔ f.sortKey ≤ g.sortKey := by
  simp only [le, sortKey, Prod.Lex.toLex_le_toLex, Bool.or_eq_true, Bool.and_eq_true,
    decide_eq_true_eq, beq_iff_eq, le_iff_lt_or_eq (a := f.message)]

theorem sortKey_eq_iff {f g : Finding} : f.sortKey = g.sortKey ↔
    f.path.toString = g.path.toString ∧ f.span.startLine = g.span.startLine ∧
      f.span.startColumn = g.span.startColumn ∧ f.ruleId = g.ruleId ∧ f.message = g.message := by
  simp only [sortKey, EmbeddingLike.apply_eq_iff_eq, Prod.mk.injEq]

theorem trans_le (f g h : Finding) (hfg : f.le g = true) (hgh : g.le h = true) : f.le h = true :=
  le_iff.mpr ((le_iff.mp hfg).trans (le_iff.mp hgh))

theorem total_le (f g : Finding) : (f.le g || g.le f) = true := by
  rw [Bool.or_eq_true, le_iff, le_iff]
  exact LinearOrder.le_total _ _

/-- What reports show of a finding: what their order compares, the end, and the severity. -/
def shown (f : Finding) : SortKey × Span × Option Severity := (f.sortKey, f.span, f.severity)

theorem shown_eq_iff {f g : Finding} : f.shown = g.shown ↔
    f.path.toString = g.path.toString ∧ f.ruleId = g.ruleId ∧ f.message = g.message ∧
      f.span = g.span ∧ f.severity = g.severity := by
  simp only [shown, Prod.mk.injEq, sortKey_eq_iff]
  constructor
  · rintro ⟨⟨hpath, -, -, hrule, hmessage⟩, hspan, hseverity⟩
    exact ⟨hpath, hrule, hmessage, hspan, hseverity⟩
  · rintro ⟨hpath, hrule, hmessage, hspan, hseverity⟩
    exact ⟨⟨hpath, hspan ▸ rfl, hspan ▸ rfl, hrule, hmessage⟩, hspan, hseverity⟩

end Finding

namespace Report

variable {findings other : List Finding}

theorem pairwise_sorted (findings : List Finding) :
    (sorted findings).Pairwise fun f g => f.sortKey ≤ g.sortKey :=
  (List.pairwise_mergeSort Finding.trans_le Finding.total_le findings).imp Finding.le_iff.mp

theorem perm_sorted (h : other.Perm findings) : (sorted other).Perm (sorted findings) :=
  ((List.mergeSort_perm other Finding.le).trans h).trans
    (List.mergeSort_perm findings Finding.le).symm

/-- Something that is the same for findings with the same key is found in the same order. -/
theorem map_sorted_eq {α : Type} {shown : Finding → α} (h : other.Perm findings)
    (hshown : ∀ f ∈ findings, ∀ g ∈ findings, f.sortKey = g.sortKey → shown f = shown g)
    (key : α → Finding.SortKey) (hkey : ∀ f, key (shown f) = f.sortKey) :
    (sorted other).map shown = (sorted findings).map shown := by
  have hpairwise : ∀ fs, ((sorted fs).map shown).Pairwise fun a b => key a ≤ key b := by
    intro fs
    rw [List.pairwise_map]
    exact (pairwise_sorted fs).imp fun hle => by rwa [hkey, hkey]
  refine List.Perm.eq_of_pairwise ?_ (hpairwise other) (hpairwise findings) ((perm_sorted h).map shown)
  intro a b ha hb hab hba
  obtain ⟨f, hf, rfl⟩ := List.mem_map.mp ha
  obtain ⟨g, hg, rfl⟩ := List.mem_map.mp hb
  rw [hkey, hkey] at hab hba
  exact hshown f (h.subset (mem_sorted.mp hf)) g (mem_sorted.mp hg) (le_antisymm hab hba)

/-- **Sorting is stable**: findings with one key keep their order. -/
theorem filter_sorted (key : Finding.SortKey) (findings : List Finding) :
    (sorted findings).filter (fun f => f.sortKey = key) =
      findings.filter fun f => f.sortKey = key := by
  have htied : (findings.filter fun f => f.sortKey = key).Pairwise fun f g => f.le g = true := by
    refine List.pairwise_of_forall_mem_list fun f hf g hg => Finding.le_iff.mpr (le_of_eq ?_)
    rw [of_decide_eq_true (List.mem_filter.mp hf).2, of_decide_eq_true (List.mem_filter.mp hg).2]
  have hkeep := (List.sublist_mergeSort Finding.trans_le Finding.total_le htied
    List.filter_sublist).filter fun f => f.sortKey = key
  rw [List.filter_filter] at hkeep
  simp only [Bool.and_self] at hkeep
  exact (hkeep.eq_of_length ((List.mergeSort_perm findings Finding.le).filter _).length_eq.symm).symm

/-! ## What reports show -/

theorem map_eq_of_forall₂ {α β γ : Type} {R : α → β → Prop} {u : α → γ} {v : β → γ} {xs : List α}
    {ys : List β} (h : List.Forall₂ R xs ys) (huv : ∀ x y, R x y → u x = v y) :
    xs.map u = ys.map v := by
  rw [← List.forall₂_eq_eq_eq, List.forall₂_map_left_iff, List.forall₂_map_right_iff]
  exact h.imp huv

theorem forall₂_of_map_eq {α β γ : Type} {u : α → γ} {v : β → γ} {xs : List α} {ys : List β}
    (h : xs.map u = ys.map v) : List.Forall₂ (fun x y => u x = v y) xs ys := by
  rwa [← List.forall₂_eq_eq_eq, List.forall₂_map_left_iff, List.forall₂_map_right_iff] at h

variable {xs ys : List Finding} {f g : Finding}

/-- Lines show what the order of reports compares, and nothing else. -/
theorem text_congr (h : xs.map Finding.sortKey = ys.map Finding.sortKey) : text xs = text ys := by
  rw [text, text]
  refine congrArg String.join (map_eq_of_forall₂ (forall₂_of_map_eq h) fun f g hkey => ?_)
  obtain ⟨hpath, hline, hcolumn, hrule, hmessage⟩ := Finding.sortKey_eq_iff.mp hkey
  rw [Finding.text, Finding.text, hpath, hline, hcolumn, hrule, hmessage]

theorem sortedRecord_congr (h : f.shown = g.shown) : sortedRecord f = sortedRecord g := by
  obtain ⟨hpath, hrule, hmessage, hspan, hseverity⟩ := Finding.shown_eq_iff.mp h
  rw [sortedRecord, sortedRecord, hpath, hrule, hmessage, hspan, hseverity]

theorem json_congr (h : xs.map Finding.shown = ys.map Finding.shown) : json xs = json ys := by
  rw [json, json, map_eq_of_forall₂ (forall₂_of_map_eq h) fun f g => sortedRecord_congr]

theorem ruleEntry_congr (descriptions : List (String × String)) (h : f.shown = g.shown) :
    ruleEntry descriptions f = ruleEntry descriptions g := by
  obtain ⟨-, hrule, -, -, hseverity⟩ := Finding.shown_eq_iff.mp h
  rw [ruleEntry, ruleEntry, hrule, level, level, hseverity]

theorem resultEntry_congr {table table' : List Finding}
    (htable : table.map Finding.ruleId = table'.map Finding.ruleId) (h : f.shown = g.shown) :
    resultEntry table f = resultEntry table' g := by
  obtain ⟨hpath, hrule, hmessage, hspan, hseverity⟩ := Finding.shown_eq_iff.mp h
  have hindex : (table.findIdx fun e => e.ruleId == f.ruleId) =
      table'.findIdx fun e => e.ruleId == g.ruleId := by
    have hfind : ∀ (t : List Finding) (id : String), (t.findIdx fun e => e.ruleId == id) =
        (t.map Finding.ruleId).findIdx (· == id) := fun t id => by
      rw [List.findIdx_map]
      rfl
    rw [hfind, hfind, htable, hrule]
  rw [resultEntry, resultEntry, hindex, level, level, hpath, hrule, hmessage, hspan, hseverity]

/-- Listings with tables that show the same, and the same results. -/
def Listing.Alike (s t : Listing) : Prop :=
  List.Forall₂ (fun f g => f.shown = g.shown) s.table t.table ∧ s.results = t.results

theorem Listing.Alike.add {s t : Listing} (h : s.Alike t) (hfg : f.shown = g.shown) :
    (s.add f).Alike (t.add g) := by
  have hnames : ∀ {table table' : List Finding},
      List.Forall₂ (fun f g => f.shown = g.shown) table table' →
      table.map Finding.ruleId = table'.map Finding.ruleId := fun htable =>
    map_eq_of_forall₂ htable fun _ _ hshown => (Finding.shown_eq_iff.mp hshown).2.1
  have hknows : s.Knows f.ruleId ↔ t.Knows g.ruleId := by
    rw [Knows, Knows, ← List.mem_map, ← List.mem_map, hnames h.1, (Finding.shown_eq_iff.mp hfg).2.1]
  have htable : List.Forall₂ (fun f g => f.shown = g.shown) (s.add f).table (t.add g).table := by
    by_cases hf : s.Knows f.ruleId
    · rw [table_add_of_knows hf, table_add_of_knows (hknows.mp hf)]
      exact h.1
    · rw [table_add_of_not_knows hf, table_add_of_not_knows fun hg => hf (hknows.mpr hg)]
      exact List.rel_append h.1 (.cons hfg .nil)
  exact ⟨htable, by rw [results_add, results_add, h.2, resultEntry_congr (hnames htable) hfg]⟩

theorem sarif_congr (version : String) (descriptions : List (String × String))
    (h : xs.map Finding.shown = ys.map Finding.shown) :
    sarif version descriptions xs = sarif version descriptions ys := by
  have halike : (Listing.ofFindings xs).Alike (Listing.ofFindings ys) :=
    List.rel_foldl (fun _ _ hst _ _ hfg => hst.add hfg) ⟨.nil, rfl⟩ (forall₂_of_map_eq h)
  rw [sarif, sarif, sarifLog, sarifLog]
  simp only [map_eq_of_forall₂ halike.1 fun f g => ruleEntry_congr descriptions, halike.2]

/-! ## What reports tell apart -/

theorem name_injective : Function.Injective Severity.name := by
  rintro (_ | _ | _) (_ | _ | _) h <;> first | rfl | exact absurd h (by decide)

theorem level_injective : Function.Injective Severity.level := by
  rintro (_ | _ | _) (_ | _ | _) h <;> first | rfl | exact absurd h (by decide)

theorem severity_injective {write : Severity → String} (hwrite : Function.Injective write)
    {a b : Option Severity}
    (h : (a.elim .null fun s => .str (write s) : Value) = b.elim .null fun s => .str (write s)) :
    a = b := by
  cases a with
  | none =>
    cases b with
    | none => rfl
    | some s' => cases h
  | some s =>
    cases b with
    | none => cases h
    | some s' => rw [hwrite (Value.str.inj h)]

theorem span_eq_iff {a b : Span} : a = b ↔ a.startLine = b.startLine ∧ a.startColumn = b.startColumn ∧
    a.endLine = b.endLine ∧ a.endColumn = b.endColumn := by
  cases a
  cases b
  simp only [Span.mk.injEq]

theorem shown_of_sortedRecord (h : sortedRecord f = sortedRecord g) : f.shown = g.shown := by
  simp only [sortedRecord, Value.record, List.map_cons, Value.map.injEq, List.cons.injEq,
    Prod.mk.injEq, Value.int.injEq, Value.str.injEq, true_and, and_true] at h
  obtain ⟨hendColumn, hendLine, hpath, hmessage, hrule, hseverity, hcolumn, hline⟩ := h
  exact Finding.shown_eq_iff.mpr ⟨hpath, hrule, hmessage,
    span_eq_iff.mpr ⟨hline, hcolumn, hendLine, hendColumn⟩,
    severity_injective name_injective hseverity⟩

theorem shown_of_resultEntry {table table' : List Finding}
    (h : resultEntry table f = resultEntry table' g) : f.shown = g.shown := by
  simp only [resultEntry, Value.record, List.map_cons, Value.map.injEq, List.cons.injEq,
    Prod.mk.injEq, Value.int.injEq, Value.str.injEq, Value.list.injEq, true_and, and_true] at h
  obtain ⟨hrule, -, hseverity, hmessage, hpath, hline, hcolumn, hendLine, hendColumn⟩ := h
  exact Finding.shown_eq_iff.mpr ⟨hpath, hrule, hmessage,
    span_eq_iff.mpr ⟨hline, hcolumn, hendLine, hendColumn⟩,
    severity_injective level_injective hseverity⟩

theorem map_shown_of_forall₂ {u v : Finding → Value} (h : xs.map u = ys.map v)
    (huv : ∀ f g, u f = v g → f.shown = g.shown) : xs.map Finding.shown = ys.map Finding.shown :=
  map_eq_of_forall₂ (forall₂_of_map_eq h) huv

theorem shown_of_json (h : json xs = json ys) : xs.map Finding.shown = ys.map Finding.shown := by
  have hread := read?_json xs
  rw [h, read?_json ys] at hread
  exact map_shown_of_forall₂ (Value.list.inj (Option.some.inj hread)).symm
    fun f g => shown_of_sortedRecord

theorem exact_level (f : Finding) : Exact (level f) := by
  rw [level]
  cases f.severity with
  | none => exact .null
  | some s => exact .str s.level

theorem exact_single {name : String} {v : Value} (h : Exact v) : Exact (.record [(name, v)]) :=
  .record (List.nodup_singleton name) (List.forall_mem_singleton.mpr h)

theorem exact_ruleEntry (descriptions : List (String × String)) (f : Finding) :
    Exact (ruleEntry descriptions f) := by
  refine .record (by simp) ?_
  simp only [List.forall_mem_cons]
  exact ⟨.str _, exact_single (.str _), exact_single (exact_level f), List.forall_mem_nil _⟩

theorem exact_resultEntry (table : List Finding) (f : Finding) : Exact (resultEntry table f) := by
  refine .record (by simp) ?_
  simp only [List.forall_mem_cons]
  refine ⟨.str _, .int _, exact_level f, exact_single (.str _),
    .list (List.forall_mem_singleton.mpr (exact_single (.record (by simp) ?_))),
    List.forall_mem_nil _⟩
  simp only [List.forall_mem_cons]
  refine ⟨exact_single (.str _), .record (by simp) ?_, List.forall_mem_nil _⟩
  simp only [List.forall_mem_cons]
  exact ⟨.int _, .int _, .int _, .int _, List.forall_mem_nil _⟩

theorem exact_sarifLog (version : String) (descriptions : List (String × String))
    (findings : List Finding) : Exact (sarifLog version descriptions findings) := by
  refine .record (by simp) ?_
  simp only [List.forall_mem_cons]
  refine ⟨.str _, .str _, .list (List.forall_mem_singleton.mpr (.record (by simp) ?_)),
    List.forall_mem_nil _⟩
  simp only [List.forall_mem_cons, (Listing.indexed_ofFindings findings).results_eq]
  refine ⟨exact_single (.record (by simp) ?_), exact_list (exact_resultEntry _), List.forall_mem_nil _⟩
  simp only [List.forall_mem_cons]
  exact ⟨.str _, .str _, exact_list (exact_ruleEntry descriptions), List.forall_mem_nil _⟩

theorem read?_sarif (version : String) (descriptions : List (String × String))
    (findings : List Finding) : Json.read? (sarif version descriptions findings) =
      some (sarifLog version descriptions findings) :=
  Json.read?_append (exact_sarifLog version descriptions findings) "\n"
    (Json.endsNumber_cons (by decide) _) rfl

theorem shown_of_sarif {version : String} {descriptions : List (String × String)}
    (h : sarif version descriptions xs = sarif version descriptions ys) :
    xs.map Finding.shown = ys.map Finding.shown := by
  have hlog := read?_sarif version descriptions xs
  rw [h, read?_sarif version descriptions ys] at hlog
  have hlog := Option.some.inj hlog
  simp only [sarifLog, Value.record, List.map_cons, Value.map.injEq, List.cons.injEq,
    Prod.mk.injEq, Value.list.injEq, true_and, and_true,
    (Listing.indexed_ofFindings _).results_eq] at hlog
  exact map_shown_of_forall₂ hlog.2.symm fun f g => shown_of_resultEntry

/-! ## All forms -/

section Forms

variable {format : ReportFormat} {version : String} {descriptions : List (String × String)}

theorem render_text : render .text version descriptions findings = .ok (text (sorted findings)) := by
  rw [render, if_neg fun hnone => hnone.1 rfl]

theorem render_sarif (h : Rated findings) : render .sarif version descriptions findings =
    .ok (sarif version descriptions (sorted findings)) := by
  rw [render, if_neg fun hnone => any_isNone_sorted.mp hnone.2 h]

theorem render_notRated (hformat : format ≠ .text) (h : ¬ Rated findings) :
    render format version descriptions findings = .error (.notRated format) := by
  rw [render.eq_def, if_pos ⟨hformat, any_isNone_sorted.mpr h⟩]

theorem rated_perm (h : other.Perm findings) : Rated other ↔ Rated findings :=
  forall_congr' fun _ => by rw [h.mem_iff]

/-- Whether findings with one key show the same. -/
def Distinguished (findings : List Finding) : Prop :=
  ∀ f ∈ findings, ∀ g ∈ findings, f.sortKey = g.sortKey → f.span = g.span ∧ f.severity = g.severity

/-- Findings that can be told apart by their keys give one report in every order. -/
theorem render_perm (h : other.Perm findings)
    (hshown : format = .text ∨ ¬ Rated findings ∨ Distinguished findings) :
    render format version descriptions other = render format version descriptions findings := by
  by_cases htext : format = .text
  · subst htext
    have hkeys := map_sorted_eq h (fun _ _ _ _ hkey => hkey) id fun _ => rfl
    rw [render_text, render_text, text_congr hkeys]
  by_cases hrated : Rated findings
  · have hother := (rated_perm h).mpr hrated
    have hkeep : Distinguished findings := by
      rcases hshown with htext' | hnot | hkeep
      · exact absurd htext' htext
      · exact absurd hrated hnot
      · exact hkeep
    have hsame : (sorted other).map Finding.shown = (sorted findings).map Finding.shown := by
      refine map_sorted_eq h (fun f hf g hg hkey => ?_) Prod.fst fun _ => rfl
      obtain ⟨hspan, hseverity⟩ := hkeep f hf g hg hkey
      rw [Finding.shown, Finding.shown, hkey, hspan, hseverity]
    cases format with
    | text => exact absurd rfl htext
    | json => rw [render_json hother, render_json hrated, json_congr hsame]
    | sarif => rw [render_sarif hother, render_sarif hrated, sarif_congr _ _ hsame]
  · rw [render_notRated htext hrated, render_notRated htext fun hother =>
      hrated ((rated_perm h).mp hother)]

/-- What two orders of reports show determines the first finding with each key. -/
theorem shown_eq_of_swap {f g : Finding} {rest : List Finding} (hkey : f.sortKey = g.sortKey)
    (h : (sorted (f :: g :: rest)).map Finding.shown = (sorted (g :: f :: rest)).map Finding.shown) :
    f.shown = g.shown := by
  have hfirst : ∀ findings : List Finding,
      ((sorted findings).map Finding.shown).filter (fun s => s.1 = g.sortKey) =
        (findings.filter fun f => f.sortKey = g.sortKey).map Finding.shown := fun findings => by
    rw [List.filter_map, ← filter_sorted]
    rfl
  have hswap := hfirst (f :: g :: rest)
  rw [h, hfirst, List.filter_cons_of_pos (by simp), List.filter_cons_of_pos (by simp [hkey]),
    List.filter_cons_of_pos (by simp [hkey])] at hswap
  exact (List.cons.inj hswap).1.symm

theorem shown_eq_of_render {f g : Finding} {rest : List Finding} (hformat : format ≠ .text)
    (hrated : Rated (f :: g :: rest)) (hkey : f.sortKey = g.sortKey)
    (h : render format version descriptions (f :: g :: rest) =
      render format version descriptions (g :: f :: rest)) : f.shown = g.shown := by
  have hother := (rated_perm (List.Perm.swap f g rest)).mpr hrated
  cases format with
  | text => exact absurd rfl hformat
  | json =>
    rw [render_json hrated, render_json hother] at h
    exact shown_eq_of_swap hkey (shown_of_json (Except.ok.inj h))
  | sarif =>
    rw [render_sarif hrated, render_sarif hother] at h
    exact shown_eq_of_swap hkey (shown_of_sarif (Except.ok.inj h))

variable (format version descriptions findings)

/-- **When the order of the findings does not matter**: lines of text never depend on it. The other
forms give one report for every order of the findings exactly if they refuse to write them, or if
findings with the same path, start, rule and message also have the same end and severity. -/
theorem render_perm_iff :
    (∀ other : List Finding, other.Perm findings →
      render format version descriptions other = render format version descriptions findings) ↔
    format = .text ∨ ¬ Rated findings ∨ Distinguished findings := by
  constructor
  · intro h
    by_contra hnot
    obtain ⟨hformat, hrated, hkeep⟩ : format ≠ .text ∧ Rated findings ∧ ¬ Distinguished findings := by
      tauto
    refine hkeep fun f hf g hg hkey => ?_
    by_cases hfg : f = g
    · exact hfg ▸ ⟨rfl, rfl⟩
    · obtain ⟨rest, hrest⟩ : ∃ rest, findings.Perm (f :: g :: rest) := by
        refine ⟨(findings.erase f).erase g, (List.perm_cons_erase hf).trans (.cons f ?_)⟩
        exact List.perm_cons_erase ((List.mem_erase_of_ne (Ne.symm hfg)).mpr hg)
      have hshown := shown_eq_of_render hformat ((rated_perm hrest).mp hrated) hkey <|
        (h _ hrest.symm).trans (h _ (hrest.trans (.swap g f rest)).symm).symm
      obtain ⟨-, -, -, hspan, hseverity⟩ := Finding.shown_eq_iff.mp hshown
      exact ⟨hspan, hseverity⟩
  · exact fun hshown other h => render_perm h hshown

/-- A finding on a handler that ends in a column. -/
def handlerFinding (endColumn : Int) : Finding where
  ruleId := GenericException.ruleId
  severity := some .warning
  path := ⟨"", ["m.py"]⟩
  span := ⟨3, 1, 4, endColumn⟩
  message := "Empty catch clause for Exception silently swallows the exception"

/-- Two findings that differ in their last column only are written in the order they are found in. -/
theorem render_handlers_ne :
    [handlerFinding 9, handlerFinding 7].Perm [handlerFinding 7, handlerFinding 9] ∧
      render .json "1.0" [] [handlerFinding 9, handlerFinding 7] ≠
        render .json "1.0" [] [handlerFinding 7, handlerFinding 9] ∧
      render .sarif "1.0" [] [handlerFinding 9, handlerFinding 7] ≠
        render .sarif "1.0" [] [handlerFinding 7, handlerFinding 9] := by
  have hshown : (handlerFinding 9).shown ≠ (handlerFinding 7).shown := by
    intro hshown
    have hspan := (Finding.shown_eq_iff.mp hshown).2.2.2.1
    exact absurd hspan (by decide)
  have hrated : Rated [handlerFinding 9, handlerFinding 7] := by
    simp only [Rated, List.forall_mem_cons]
    exact ⟨Option.some_ne_none _, Option.some_ne_none _, List.forall_mem_nil _⟩
  exact ⟨.swap _ _ [], fun h => hshown (shown_eq_of_render (by decide) hrated rfl h),
    fun h => hshown (shown_eq_of_render (by decide) hrated rfl h)⟩

end Forms

end Report

end ModelLint
