import ModelLint.Proofs.Document.Disposal
import ModelLint.Proofs.Document.Origins
import ModelLint.Proofs.Rules.Evaluation
import ModelLint.Proofs.Rules.Settings

/-!
# The spans of findings

A location in a document is given key by key, and a mapping takes over what it does not give. If the
locations that mappings give are well formed by themselves, those that they have need not be: the end
of a mapping that gives a line is taken over in parts.

* `Span.WellFormed`: a span counts from one and does not end before it starts.
* `WellPlaced`: the location that a mapping gives is well formed by itself.
* `Unended`, `Settled`: what a mapping takes over fits to what it gives.
* `positive_located`, `linesOrdered_located`, `columnsOrdered_located`: what mappings keep.
* **`spans_of_load`**: when the spans of all findings are well formed.
-/

namespace ModelLint

/-! ## Well-formed spans -/

/-- A span counts lines and columns from one. -/
def Span.Positive (s : Span) : Prop :=
  1 ≤ s.startLine ∧ 1 ≤ s.startColumn ∧ 1 ≤ s.endLine ∧ 1 ≤ s.endColumn

/-- **A span is well formed**: it counts from one and does not end before it starts. -/
structure Span.WellFormed (s : Span) : Prop where
  /-- Lines and columns count from one. -/
  positive : s.Positive
  /-- The last line is not before the first one. -/
  lines : s.startLine ≤ s.endLine
  /-- On one line, the end is not before the start. -/
  columns : s.startLine = s.endLine → s.startColumn ≤ s.endColumn

namespace Location

variable {l : Location}

/-- What is known of a location counts from one. -/
structure Positive (l : Location) : Prop where
  /-- The line. -/
  line : 1 ≤ l.line
  /-- The column. -/
  column : 1 ≤ l.column
  /-- The last line. -/
  endLine : ∀ e ∈ l.endLine, 1 ≤ e
  /-- The last column. -/
  endColumn : ∀ d ∈ l.endColumn, 1 ≤ d

/-- The last line is not before the line. -/
def LinesOrdered (l : Location) : Prop := ∀ e ∈ l.endLine, l.line ≤ e

/-- Where the last line is the line, the last column is not before the column. -/
def ColumnsOrdered (l : Location) : Prop :=
  l.endLine.getD l.line = l.line → ∀ d ∈ l.endColumn, l.column ≤ d

theorem le_getD {n bound : Int} {o : Option Int} (h : ∀ k ∈ o, bound ≤ k) (hn : bound ≤ n) :
    bound ≤ o.getD n := by
  cases o with
  | none => exact hn
  | some k => exact h k rfl

/-- Locations that count from one need no clamping. -/
theorem Positive.span_eq (h : l.Positive) : l.span =
    ⟨l.line, l.column, l.endLine.getD l.line, l.endColumn.getD l.column⟩ := by
  rw [span, max_eq_left h.line, max_eq_left h.column]

theorem Positive.positive_span (h : l.Positive) : l.span.Positive := by
  rw [h.span_eq]
  exact ⟨h.line, h.column, le_getD h.endLine h.line, le_getD h.endColumn h.column⟩

theorem Positive.lines_span (h : l.Positive) (hlines : l.LinesOrdered) :
    l.span.startLine ≤ l.span.endLine := by
  rw [h.span_eq]
  exact le_getD hlines (le_refl l.line)

theorem Positive.wellFormed_span (h : l.Positive) (hlines : l.LinesOrdered)
    (hcolumns : l.ColumnsOrdered) : l.span.WellFormed := by
  refine ⟨h.positive_span, h.lines_span hlines, ?_⟩
  rw [h.span_eq]
  exact fun hsame => le_getD (hcolumns hsame.symm) (le_refl l.column)

end Location

namespace Document

/-! ## Locations of mappings -/

/-- The keys of a location. -/
def locationKeys : List String := ["line", "column", "end_line", "end_column"]

/-- **The location that a mapping gives is well formed by itself**: it gives a line with any other
key, all numbers count from one, and it does not end before it starts. -/
structure WellPlaced (fields : Fields) : Prop where
  /-- A mapping that gives any key gives a line. -/
  line : ∀ key ∈ locationKeys, given fields key ≠ none → given fields "line" ≠ none
  /-- Lines and columns count from one. -/
  positive : ∀ key ∈ locationKeys, ∀ n ∈ given fields key, 1 ≤ n
  /-- The last line is not before the line. -/
  lines : ∀ n ∈ given fields "line", ∀ e ∈ given fields "end_line", n ≤ e
  /-- On one line, the last column is not before the column. -/
  columns : given fields "end_line" = given fields "line" →
    ∀ c ∈ given fields "column", ∀ d ∈ given fields "end_column", c ≤ d

instance {fields : Fields} : Decidable (WellPlaced fields) :=
  decidable_of_iff ((∀ key ∈ locationKeys, given fields key ≠ none → given fields "line" ≠ none) ∧
      (∀ key ∈ locationKeys, ∀ n ∈ given fields key, 1 ≤ n) ∧
      (∀ n ∈ given fields "line", ∀ e ∈ given fields "end_line", n ≤ e) ∧
      (given fields "end_line" = given fields "line" →
        ∀ c ∈ given fields "column", ∀ d ∈ given fields "end_column", c ≤ d))
    ⟨fun h => ⟨h.1, h.2.1, h.2.2.1, h.2.2.2⟩, fun h => ⟨h.line, h.positive, h.lines, h.columns⟩⟩

/-- A mapping that gives a line and no last line takes over no end; `l` is the location that it
has. -/
abbrev Unended (fields : Fields) (l : Location) : Prop :=
  given fields "line" ≠ none → given fields "end_line" = none →
    l.endLine = none ∧ l.endColumn = none

/-- **What a mapping takes over fits to what it gives**; `l` is the location that it has. -/
structure Settled (fields : Fields) (l : Location) : Prop where
  /-- A mapping that gives a line and no last line takes over no end. -/
  unended : Unended fields l
  /-- Where a mapping that ends on its line leaves a column out, the columns it has are in order. -/
  columns : given fields "line" ≠ none → given fields "end_line" = given fields "line" →
    given fields "column" = none ∨ given fields "end_column" = none →
      ∀ d ∈ l.endColumn, l.column ≤ d

instance {fields : Fields} {l : Location} : Decidable (Settled fields l) :=
  decidable_of_iff (Unended fields l ∧
      (given fields "line" ≠ none → given fields "end_line" = given fields "line" →
        given fields "column" = none ∨ given fields "end_column" = none →
          ∀ d ∈ l.endColumn, l.column ≤ d))
    ⟨fun h => ⟨h.1, h.2⟩, fun h => ⟨h.unended, h.columns⟩⟩

variable {document fields : Fields} {l : Location}

section Located

variable {outer : Location}

theorem located_line : (located fields outer).line = (given fields "line").getD outer.line := by
  rw [located]
  split <;> rfl

theorem located_column :
    (located fields outer).column = (given fields "column").getD outer.column := by
  rw [located]
  split <;> rfl

theorem located_endLine {e : Int} (h : e ∈ (located fields outer).endLine) :
    e ∈ given fields "end_line" ∨ e ∈ outer.endLine := by
  rw [located] at h
  split at h
  · cases h
  · exact (Option.or_eq_some_iff.mp h).imp_right And.right

theorem located_endColumn {d : Int} (h : d ∈ (located fields outer).endColumn) :
    d ∈ given fields "end_column" ∨ d ∈ outer.endColumn := by
  rw [located] at h
  split at h
  · cases h
  · exact (Option.or_eq_some_iff.mp h).imp_right And.right

theorem located_of_given (outer : Location) {e : Int} (h : given fields "end_line" = some e) :
    (located fields outer).endLine = some e ∧
      (located fields outer).endColumn = (given fields "end_column").or outer.endColumn := by
  have hlookup : (Value.lookup fields "end_line").isNone = false := by
    rcases hlookup : Value.lookup fields "end_line" with _ | v
    · rw [given, field?, hlookup] at h
      cases h
    · rfl
  rw [located, hlookup, Bool.and_false, if_neg Bool.false_ne_true, h]
  exact ⟨rfl, rfl⟩

/-- A mapping that gives nothing has the location that it stands in, perhaps without the end. -/
theorem located_of_not_given (outer : Location)
    (h : ∀ key ∈ locationKeys, given fields key = none) : located fields outer = outer ∨
      located fields outer = { outer with endLine := none, endColumn := none } := by
  rw [located, h "line" (by decide), h "column" (by decide), h "end_line" (by decide),
    h "end_column" (by decide)]
  split
  · exact .inr rfl
  · exact .inl rfl

/-- A mapping that gives no line gives nothing. -/
theorem WellPlaced.not_given (h : WellPlaced fields) (hline : given fields "line" = none) :
    ∀ key ∈ locationKeys, given fields key = none := fun key hkey =>
  Decidable.not_not.mp fun hgiven => h.line key hkey hgiven hline

theorem positive_located (h : outer.Positive) (hplaced : WellPlaced fields) :
    (located fields outer).Positive where
  line := by
    rw [located_line]
    exact Location.le_getD (hplaced.positive _ (by decide)) h.line
  column := by
    rw [located_column]
    exact Location.le_getD (hplaced.positive _ (by decide)) h.column
  endLine e he := (located_endLine he).elim (hplaced.positive _ (by decide) e) (h.endLine e)
  endColumn d hd := (located_endColumn hd).elim (hplaced.positive _ (by decide) d) (h.endColumn d)

theorem linesOrdered_located (h : outer.LinesOrdered) (hplaced : WellPlaced fields)
    (hunended : Unended fields (located fields outer)) : (located fields outer).LinesOrdered := by
  intro e he
  rcases hline : given fields "line" with _ | n
  · rcases located_of_not_given outer (hplaced.not_given hline) with heq | heq
    · rw [heq] at he ⊢
      exact h e he
    · rw [heq] at he
      cases he
  rcases hend : given fields "end_line" with _ | e'
  · rw [(hunended (hline ▸ Option.some_ne_none n) hend).1] at he
    cases he
  · rw [(located_of_given outer hend).1] at he
    cases he
    rw [located_line, hline]
    exact hplaced.lines n hline e hend

theorem columnsOrdered_located (h : outer.ColumnsOrdered) (hplaced : WellPlaced fields)
    (hsettled : Settled fields (located fields outer)) :
    (located fields outer).ColumnsOrdered := by
  intro hsame d hd
  rcases hline : given fields "line" with _ | n
  · rcases located_of_not_given outer (hplaced.not_given hline) with heq | heq
    · rw [heq] at hsame hd ⊢
      exact h hsame d hd
    · rw [heq] at hd
      cases hd
  have hgiven : given fields "line" ≠ none := hline ▸ Option.some_ne_none n
  rcases hend : given fields "end_line" with _ | e
  · rw [(hsettled.unended hgiven hend).2] at hd
    cases hd
  obtain ⟨hlast, hlastColumn⟩ := located_of_given outer hend
  -- the mapping ends on its line
  obtain rfl : e = n := by
    rw [hlast, located_line, hline] at hsame
    exact hsame
  have hone : given fields "end_line" = given fields "line" := hend.trans hline.symm
  rcases hc : given fields "column" with _ | c
  · exact hsettled.columns hgiven hone (.inl hc) d hd
  rcases hd' : given fields "end_column" with _ | d'
  · exact hsettled.columns hgiven hone (.inr hd') d hd
  obtain rfl : d' = d := by
    rw [hlastColumn, hd'] at hd
    exact Option.some.inj hd
  rw [located_column, hc]
  exact hplaced.columns hone c hc d' hd'

end Located

theorem positive_start : start.Positive where
  line := le_refl 1
  column := le_refl 1
  endLine _ he := by cases he
  endColumn _ hd := by cases hd

/-- What holds of the location that a unit starts from and is kept by all mappings holds of the
locations of all mappings. -/
theorem Stands.kept {P : Location → Prop} (hstart : P start)
    (hstep : ∀ fields outer, P outer → Stands document fields (located fields outer) →
      P (located fields outer)) (h : Stands document fields l) : P l := by
  induction h with
  | outermost hmem => exact hstep _ _ hstart (.outermost hmem)
  | inside houter hholds ih => exact hstep _ _ ih (.inside houter hholds)
  | initial houter hmem hpart ih =>
    have hdeclared := Stands.inside houter (.item (by decide : "declare" ∈ listKeys) hmem)
    exact hstep _ _ (hstep _ _ ih hdeclared) (.initial houter hmem hpart)

/-- So it holds of the locations of all nodes. -/
theorem Placed.kept {P : Location → Prop} (hstart : P start)
    (hstep : ∀ fields outer, P outer → Stands document fields (located fields outer) →
      P (located fields outer)) (h : Placed document l) : P l := by
  rcases h with rfl | ⟨fields, hstands⟩
  · exact hstart
  · exact hstands.kept hstart hstep

/-! ## Findings -/

/-- **When the spans of all findings are well formed**, whatever the configuration. If the locations
that the mappings give are well formed by themselves, all spans count from one. Their lines are in
order if no mapping that gives a line without a last line takes over an end, and they are well formed
if what each mapping takes over fits to what it gives. -/
theorem spans_of_load {path : Option Path} {m : Model} (hload : load (.map document) path = .ok m)
    (hplaced : ∀ fields l, Stands document fields l → WellPlaced fields) (c : Configuration) :
    Ensures (c.analyze m) fun result =>
      (∀ f ∈ result.findings, f.span.Positive) ∧
      ((∀ fields l, Stands document fields l → Unended fields l) →
        ∀ f ∈ result.findings, f.span.startLine ≤ f.span.endLine) ∧
      ((∀ fields l, Stands document fields l → Settled fields l) →
        ∀ f ∈ result.findings, f.span.WellFormed) := by
  intro result hresult
  have hstands : ∀ f ∈ result.findings, ∃ l, f.span = l.span ∧ Placed document l := by
    intro f hf
    obtain ⟨rules, -, -, rfl⟩ := Configuration.ensures_analyze result hresult
    obtain ⟨r, -, n, hn, hfinding⟩ := Rule.mem_findings_evaluateAll.mp hf
    obtain ⟨-, -, -, message, -, rfl⟩ := Rule.finding?_eq_some.mp hfinding
    obtain ⟨horigin, -⟩ := origin_of_load (T := fun _ => True) hload trivial fun fields _ _ =>
      speaks_of_forall (fun _ => trivial) fields
    exact ⟨_, rfl, (horigin n hn).1⟩
  have hpositive : ∀ l, Placed document l → l.Positive := fun l h =>
    h.kept positive_start fun fields outer houter hf =>
      positive_located houter (hplaced fields _ hf)
  have hlines : (∀ fields l, Stands document fields l → Unended fields l) →
      ∀ l, Placed document l → l.LinesOrdered := fun hunended l h =>
    h.kept (fun _ he => by cases he) fun fields outer houter hf =>
      linesOrdered_located houter (hplaced fields _ hf) (hunended fields _ hf)
  refine ⟨fun f hf => ?_, fun hunended f hf => ?_, fun hsettled f hf => ?_⟩
  · obtain ⟨l, hspan, hl⟩ := hstands f hf
    exact hspan ▸ (hpositive l hl).positive_span
  · obtain ⟨l, hspan, hl⟩ := hstands f hf
    exact hspan ▸ (hpositive l hl).lines_span (hlines hunended l hl)
  · obtain ⟨l, hspan, hl⟩ := hstands f hf
    have hcolumns : l.ColumnsOrdered := hl.kept (fun _ _ hd => by cases hd)
      fun fields outer houter hf =>
        columnsOrdered_located houter (hplaced fields _ hf) (hsettled fields _ hf)
    exact hspan ▸ (hpositive l hl).wellFormed_span
      (hlines (fun fields l h => (hsettled fields l h).unended) l hl) hcolumns

/-- The document of a function with an empty handler, which both have further fields. -/
def handlerDocument (function handler : List (String × Value)) : Fields :=
  let caught := object (("kind", .str "catch") :: handler ++ [("body", .list [])])
  let body := object [("kind", .str "try"), ("body", .list []), ("catches", .list [caught])]
  [(.str "path", .str "m.py"), (.str "declarations", .list [object (("kind", .str "function") ::
    ("name", .str "f") :: function ++ [("body", .list [body])])])]

/-- The location of a function that ends on another line, in an earlier column. -/
def spread : List (String × Value) :=
  [("line", .int 1), ("column", .int 10), ("end_line", .int 4), ("end_column", .int 3)]

/-- A handler that gives both columns is reported where it stands. -/
theorem wellFormed_handlerDocument :
    ∃ m result, load (.map (handlerDocument spread [("line", .int 2), ("column", .int 5),
        ("end_line", .int 2), ("end_column", .int 9)])) none = .ok m ∧
      Configuration.standard.analyze m = .ok result ∧
      result.findings.map (·.span) = [⟨2, 5, 2, 9⟩] ∧ ∀ f ∈ result.findings, f.span.WellFormed := by
  have hanalysis : ∃ m result, load (.map (handlerDocument spread [("line", .int 2),
      ("column", .int 5), ("end_line", .int 2), ("end_column", .int 9)])) none = .ok m ∧
        Configuration.standard.analyze m = .ok result ∧
          result.findings.map (·.span) = [⟨2, 5, 2, 9⟩] :=
    exists_analysis (by decide +kernel)
  obtain ⟨m, result, hload, hresult, hspans⟩ := hanalysis
  refine ⟨m, result, hload, hresult, hspans, ?_⟩
  obtain ⟨-, -, hwellFormed⟩ := spans_of_load hload (forall_stands 4 (by decide +kernel)) _ _ hresult
  exact hwellFormed (forall_stands 4 (by decide +kernel))

/-- **A handler takes over the last column of the function around it**: it gives the lines but no
columns, and is reported with an end before its start, though all locations that mappings give are
well formed by themselves. -/
theorem not_wellFormed_handlerDocument :
    (∀ fields l, Stands (handlerDocument spread [("line", .int 2), ("end_line", .int 2)]) fields l →
        WellPlaced fields) ∧
      ∃ m result, load (.map (handlerDocument spread [("line", .int 2), ("end_line", .int 2)]))
          none = .ok m ∧
        Configuration.standard.analyze m = .ok result ∧
        result.findings.map (·.span) = [⟨2, 10, 2, 3⟩] ∧
        ∃ f ∈ result.findings, ¬ f.span.WellFormed := by
  have hanalysis : ∃ m result, load (.map (handlerDocument spread [("line", .int 2),
      ("end_line", .int 2)])) none = .ok m ∧ Configuration.standard.analyze m = .ok result ∧
        result.findings.map (·.span) = [⟨2, 10, 2, 3⟩] :=
    exists_analysis (by decide +kernel)
  obtain ⟨m, result, hload, hresult, hspans⟩ := hanalysis
  refine ⟨forall_stands 4 (by decide +kernel), m, result, hload, hresult, hspans, ?_⟩
  obtain ⟨f, hfindings, hspan⟩ := List.map_eq_singleton_iff.mp hspans
  refine ⟨f, hfindings ▸ List.mem_singleton_self f, fun hwell => ?_⟩
  have hcolumns := hwell.columns
  rw [hspan] at hcolumns
  exact absurd (hcolumns rfl) (by decide)

end Document

end ModelLint
