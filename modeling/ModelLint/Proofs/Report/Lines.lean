import ModelLint.Proofs.Document.Spans
import ModelLint.Proofs.Report.Order
import ModelLint.Proofs.Rules.Diagnostics

/-!
# One line for each finding

A report of lines writes names, types and the path as they are. If one of them has a line break, then
the finding that quotes it takes several lines, and those behind the first one can be any text.

* `Breaks`: a text has a line break.
* `quoted`: what the message of a finding takes from the unit.
* `breaks_message`: a message has a line break exactly if what it quotes has one.
* `Report.lines`, `Report.OneLineEach`: the lines of a report.
* **`Report.lines_render`**: when a report has one line for each finding.
-/

namespace ModelLint

/-! ## Line breaks -/

/-- A text has a line break, as lines of reports end with one. -/
def Breaks (s : String) : Prop := '\n' ∈ s.toList

instance {s : String} : Decidable (Breaks s) := inferInstanceAs (Decidable ('\n' ∈ s.toList))

@[simp] theorem breaks_append {s t : String} : Breaks (s ++ t) ↔ Breaks s ∨ Breaks t := by
  rw [Breaks, String.toList_append, List.mem_append]
  rfl

theorem breaks_intercalate {separator : String} (h : ¬ Breaks separator) (ts : List String) :
    Breaks (String.intercalate separator ts) ↔ ∃ t ∈ ts, Breaks t := by
  induction ts with
  | nil => simp [Breaks]
  | cons t rest ih =>
    cases rest with
    | nil => simp
    | cons u rest =>
      rw [String.intercalate_cons_cons, breaks_append, breaks_append, ih]
      simp [h]

theorem not_breaks_toString (n : Int) : ¬ Breaks (toString n) := by
  intro h
  have hdigit : ∀ m, '\n' ∉ Nat.toDigits 10 m := fun m hmem =>
    absurd (Json.isDigit_of_mem_toDigits m _ hmem) (by decide)
  cases n with
  | ofNat m =>
    rw [Breaks, Json.toString_ofNat] at h
    exact hdigit m h
  | negSucc m =>
    rw [Breaks, Json.toString_negSucc] at h
    rcases List.mem_cons.mp h with hminus | hmem
    · exact absurd hminus (by decide)
    · exact hdigit _ hmem

/-! ## What messages quote -/

/-- The name and the type of a variable. -/
def Variable.texts (v : Variable) : List String := v.name :: v.typeName.toList

/-- The name and the type of the variable that a call or indexer operates on. -/
def operandTexts (g : Graph) (target : Option NodeId) : List String :=
  match target.map g.accessedVariable with
  | some (.ok (some v)) => (g.variable' v).texts
  | _ => []

/-- **What the message of a finding on a node takes from the unit**: the types that a handler catches,
the variable of a declaration, or the name of a call and the variable that it operates on. -/
def quoted (g : Graph) (n : NodeId) : List String :=
  match g.shape n with
  | .catchClause types _ _ => types
  | .varDeclaration v _ => (g.variable' v).texts
  | .methodCall name _ qualifier _ => name :: operandTexts g qualifier
  | .elementAccess target _ => operandTexts g (some target)
  | _ => []

variable {m : Model} {n : NodeId} {message : String}

theorem breaks_texts {v : Variable} :
    (∃ t ∈ v.texts, Breaks t) ↔ Breaks v.name ∨ Breaks (v.typeName.getD "None") := by
  have hnone : ¬ Breaks "None" := by decide
  rw [Variable.texts, List.exists_mem_cons_iff]
  cases v.typeName with
  | none => simp [hnone]
  | some type => simp

namespace GenericException

theorem breaks_caught (types : List String) : Breaks (caught types) ↔ ∃ t ∈ types, Breaks t := by
  rw [caught]
  split
  · next hempty => simp +decide [List.isEmpty_iff.mp hempty]
  · exact breaks_intercalate (by decide) types

theorem breaks_judge {p : Patterns} (h : judge p m n = some message) :
    Breaks message ↔ ∃ t ∈ quoted m.graph n, Breaks t := by
  rw [judge] at h
  rw [quoted]
  split at h
  · next types var body hshape =>
    simp only [hshape]
    rw [← breaks_caught]
    split at h
    · cases h
    split at h
    · cases h
      simp +decide only [breaks_append, or_false, false_or]
    split at h
    · cases h
    · cases h
      simp +decide only [breaks_append, or_false, false_or]
  · cases h

end GenericException

theorem ResourceDisposal.breaks_judge {p : Patterns} (h : judge p m n = .ok (some message)) :
    Breaks message ↔ ∃ t ∈ quoted m.graph n, Breaks t := by
  obtain ⟨v, e, hshape, hacquires, hresource, hreleased⟩ := judge_eq_some.mp ⟨message, h⟩
  simp only [judge, hshape, Option.any_some, hacquires, hresource, hreleased, Bool.not_true,
    Bool.false_eq_true, if_false] at h
  cases h
  simp only [quoted, hshape]
  simp +decide only [breaks_texts, breaks_append, or_false, false_or]

namespace SharedMap

variable {target : NodeId} {v : VariableId}

/-- An access quotes its call and the variable that it operates on. -/
theorem breaks_quoted (g : Graph) (htarget : accessTarget? g n = some target)
    (hv : g.accessedVariable target = .ok (some v)) : (∃ t ∈ quoted g n, Breaks t) ↔
      Breaks (operation g n) ∨ ∃ t ∈ (g.variable' v).texts, Breaks t := by
  rw [accessTarget?] at htarget
  rw [quoted, operation]
  split at htarget
  · next name type qualifier arguments hshape =>
    subst htarget
    simp +decide only [hshape, operandTexts, Option.map_some, hv, List.exists_mem_cons_iff,
      breaks_append, or_false, false_or]
  · next inner index hshape =>
    cases htarget
    simp +decide only [hshape, operandTexts, Option.map_some, hv, false_or]
  · cases htarget

theorem breaks_judge {p : Patterns} (h : judge p m n = .ok (some message)) :
    Breaks message ↔ ∃ t ∈ quoted m.graph n, Breaks t := by
  obtain ⟨target, v, htarget, hv, hmap, hlock, hshared⟩ := judge_eq_some.mp ⟨message, h⟩
  have hwhere : ∀ concurrent : Bool, ¬ Breaks (if concurrent
      then "inside a concurrently executing context" else "on a field shared across threads") := by
    decide
  simp only [judge, htarget, hv, hmap, hlock, Bool.not_true, Bool.or_false, Bool.false_eq_true,
    if_false, Bool.or_eq_true, hshared, if_true] at h
  cases h
  rw [breaks_quoted m.graph htarget hv, breaks_texts]
  simp +decide only [breaks_append, hwhere, or_false, false_or]
  tauto

end SharedMap

/-- **A message has a line break exactly if what it quotes has one**, for each registered rule; the
names of the rules have none. -/
theorem Registry.breaks_message {d : RuleDefinition} {s : RuleSettings} {r : Rule}
    (hd : d ∈ definitions) (hr : d.build s = .ok r) (h : r.judge m n = .ok (some message)) :
    ¬ Breaks r.id ∧ (Breaks message ↔ ∃ t ∈ quoted m.graph n, Breaks t) := by
  simp only [definitions, List.mem_cons, List.not_mem_nil, or_false] at hd
  rcases hd with rfl | rfl | rfl
  · obtain ⟨p, -, -, rfl⟩ := GenericException.build_eq_ok hr
    exact ⟨(by decide : ¬ Breaks GenericException.ruleId),
      GenericException.breaks_judge (Except.ok.inj h)⟩
  · obtain ⟨p, -, -, rfl⟩ := ResourceDisposal.build_eq_ok hr
    exact ⟨(by decide : ¬ Breaks ResourceDisposal.ruleId), ResourceDisposal.breaks_judge h⟩
  · obtain ⟨p, -, -, -, -, rfl⟩ := SharedMap.build_eq_ok hr
    exact ⟨(by decide : ¬ Breaks SharedMap.ruleId), SharedMap.breaks_judge h⟩

/-! ## Lines of reports -/

/-- How the line of a finding begins: with the path, the start and the rule. -/
def Finding.heading (f : Finding) : String :=
  f.path.toString ++ ":" ++ toString f.span.startLine ++ ":" ++ toString f.span.startColumn ++
    ": [" ++ f.ruleId ++ "] "

theorem Finding.breaks_text {f : Finding} : Breaks f.text ↔
    Breaks f.path.toString ∨ Breaks f.ruleId ∨ Breaks f.message := by
  simp +decide only [text, breaks_append, not_breaks_toString, or_false, or_assoc]

namespace Report

/-- The lines of a text, each of which ends with a line break. -/
def lines (text : String) : List String := ((text.toList.splitOn '\n').dropLast).map String.ofList

/-- A text holds one line for each finding, in the order of reports. It begins with the path, the
start and the rule of the finding. -/
def OneLineEach (text : String) (findings : List Finding) : Prop :=
  lines text = (sorted findings).map fun f => f.heading ++ f.message

variable {findings : List Finding}

theorem lines_text_cons (f : Finding) : lines (text (f :: findings)) =
    (f.text.toList.splitOn '\n').map String.ofList ++ lines (text findings) := by
  have htext : (text (f :: findings)).toList = f.text.toList ++ '\n' :: (text findings).toList := by
    simp [text]
  rw [lines, htext, List.splitOn_append_cons_self, List.dropLast_append_of_ne_nil
    (List.splitOn_ne_nil _ _), List.map_append, lines]

theorem lines_text (h : ∀ f ∈ findings, ¬ Breaks f.text) :
    lines (text findings) = findings.map Finding.text := by
  induction findings with
  | nil => rfl
  | cons f rest ih =>
    rw [List.forall_mem_cons] at h
    rw [lines_text_cons, ih h.2, List.splitOn_eq_singleton h.1, List.map_singleton,
      String.ofList_toList, List.singleton_append, List.map_cons]

theorem two_le_length_splitOn {s : String} (h : Breaks s) : 2 ≤ (s.toList.splitOn '\n').length := by
  obtain ⟨before, after, heq⟩ := List.append_of_mem h
  rw [heq, List.splitOn_append_cons_self, List.length_append]
  exact Nat.add_le_add (List.length_pos_of_ne_nil (List.splitOn_ne_nil _ _))
    (List.length_pos_of_ne_nil (List.splitOn_ne_nil _ _))

theorem length_le_lines (findings : List Finding) :
    findings.length ≤ (lines (text findings)).length := by
  induction findings with
  | nil => exact Nat.zero_le _
  | cons f rest ih =>
    have hone := List.length_pos_of_ne_nil (List.splitOn_ne_nil '\n' f.text.toList)
    rw [lines_text_cons, List.length_append, List.length_map, List.length_cons]
    omega

/-- A report has as many lines as findings only if no finding has a line break. -/
theorem not_breaks_of_length (h : (lines (text findings)).length = findings.length) :
    ∀ f ∈ findings, ¬ Breaks f.text := by
  induction findings with
  | nil => exact List.forall_mem_nil _
  | cons f rest ih =>
    have hrest := length_le_lines rest
    have hone := List.length_pos_of_ne_nil (List.splitOn_ne_nil '\n' f.text.toList)
    rw [lines_text_cons, List.length_append, List.length_map, List.length_cons] at h
    refine List.forall_mem_cons.mpr ⟨fun hbreaks => ?_, ih (by omega)⟩
    have htwo := two_le_length_splitOn hbreaks
    omega

theorem oneLineEach_iff_length : OneLineEach (text (sorted findings)) findings ↔
    (lines (text (sorted findings))).length = findings.length := by
  have hsorted : (sorted findings).length = findings.length :=
    (perm_sorted (List.Perm.refl findings)).length_eq ▸ List.length_mergeSort findings
  constructor
  · intro h
    rw [h, List.length_map, hsorted]
  · intro h
    exact lines_text (not_breaks_of_length (h.trans hsorted.symm))

theorem oneLineEach_iff : OneLineEach (text (sorted findings)) findings ↔
    ∀ f ∈ findings, ¬ Breaks f.text := by
  constructor
  · intro h f hf
    exact not_breaks_of_length (by rw [h, List.length_map]) f (mem_sorted.mpr hf)
  · exact fun h => lines_text fun f hf => h f (mem_sorted.mp hf)

end Report

/-- The enabled rules report a node of a unit. -/
def Configuration.Reports (c : Configuration) (m : Model) (n : NodeId) : Prop :=
  n ∈ m.nodes ∧ ∃ rules, c.buildRules = .ok rules ∧ ∃ r ∈ rules, ∃ f,
    r.finding? c.phrases m n = some f

/-- **A report has one line for each finding exactly if nothing that the findings quote has a line
break.** -/
theorem Configuration.ensures_oneLineEach (c : Configuration) (m : Model) :
    Ensures (c.analyze m) fun result =>
      Report.OneLineEach (Report.text (Report.sorted result.findings)) result.findings ↔
        ∀ n, c.Reports m n → ∀ t ∈ m.info.path.toString :: quoted m.graph n, ¬ Breaks t := by
  intro result hresult
  obtain ⟨rules, hrules, hregistered, rfl⟩ := ensures_analyze result hresult
  have hfinding : ∀ r ∈ rules, ∀ n f, r.finding? c.phrases m n = some f →
      (¬ Breaks f.text ↔ ∀ t ∈ m.info.path.toString :: quoted m.graph n, ¬ Breaks t) := by
    intro r hr n f hf
    obtain ⟨d, hd, s, hbuilt⟩ := hregistered r hr
    obtain ⟨-, -, -, message, hmessage, rfl⟩ := Rule.finding?_eq_some.mp hf
    obtain ⟨hid, hquoted⟩ := Registry.breaks_message hd hbuilt hmessage
    rw [Finding.breaks_text, hquoted, List.forall_mem_cons]
    simp only [hid, false_or, not_or, not_exists, not_and]
  rw [Report.oneLineEach_iff]
  constructor
  · rintro h n ⟨hn, rules', hrules', r, hr, f, hf⟩
    cases hrules.symm.trans hrules'
    exact (hfinding r hr n f hf).mp (h f (Rule.mem_findings_evaluateAll.mpr ⟨r, hr, n, hn, hf⟩))
  · intro h f hf
    obtain ⟨r, hr, n, hn, hn'⟩ := Rule.mem_findings_evaluateAll.mp hf
    exact (hfinding r hr n f hn').mpr (h n ⟨hn, rules, hrules, r, hr, f, hn'⟩)

/-! ## Reports on documents -/

namespace Document

/-- Findings on the unit of a document quote what its mappings say. -/
theorem quoted_of_load {document : Fields} {path : Option Path}
    (hload : load (.map document) path = .ok m)
    (hspeaks : ∀ fields l, Stands document fields l → Speaks (fun t => ¬ Breaks t) fields)
    (hn : n ∈ m.nodes) : ∀ t ∈ quoted m.graph n, ¬ Breaks t := by
  obtain ⟨hnodes, hvars⟩ := origin_of_load hload (by decide : ¬ Breaks "function") hspeaks
  have htexts : ∀ v, ∀ t ∈ (m.graph.variable' v).texts, ¬ Breaks t := by
    intro v
    rw [Variable.texts, List.forall_mem_cons]
    rcases Nat.lt_or_ge v m.graph.vars.size with hv | hv
    · obtain ⟨hname, htype⟩ := hvars v hv
      exact ⟨hname, fun t ht => htype t (Option.mem_toList.mp ht)⟩
    · rw [Graph.variable', Array.getD_eq_getD_getElem?, Array.getElem?_eq_none hv]
      exact ⟨(by decide : ¬ Breaks ""), List.forall_mem_nil _⟩
  have hoperand : ∀ target, ∀ t ∈ operandTexts m.graph target, ¬ Breaks t := by
    intro target
    rw [operandTexts]
    split
    · exact htexts _
    · exact List.forall_mem_nil _
  have hquotes := (hnodes n hn).2
  rw [quoted]
  split
  · next types var body hshape =>
    rw [hshape] at hquotes
    exact hquotes
  · exact htexts _
  · next name type qualifier arguments hshape =>
    rw [hshape] at hquotes
    exact List.forall_mem_cons.mpr ⟨hquotes, hoperand qualifier⟩
  · exact hoperand _
  · exact List.forall_mem_nil _

end Document

/-- **When a report has one line for each finding**, which begins with the path, the start and the
rule of the finding: exactly if it has as many lines as findings, and exactly if neither the path nor
anything that a reported node quotes has a line break. On the unit of a document all texts that can be
quoted are said by its mappings. -/
theorem Report.lines_render (c : Configuration) (m : Model) (version : String)
    (descriptions : List (String × String)) : Ensures (c.analyze m) fun result =>
      ∃ report, render .text version descriptions result.findings = .ok report ∧
        (OneLineEach report result.findings ↔ (lines report).length = result.findings.length) ∧
        (OneLineEach report result.findings ↔
          ∀ n, c.Reports m n → ∀ t ∈ m.info.path.toString :: quoted m.graph n, ¬ Breaks t) ∧
        ∀ document path, Document.load (.map document) path = .ok m →
          ¬ Breaks m.info.path.toString →
          (∀ fields l, Document.Stands document fields l →
            Document.Speaks (fun t => ¬ Breaks t) fields) →
          OneLineEach report result.findings := by
  intro result hresult
  have hiff := c.ensures_oneLineEach m result hresult
  refine ⟨_, render_text, oneLineEach_iff_length, hiff, fun document path hload hpath hspeaks => ?_⟩
  exact hiff.mpr fun n hn => List.forall_mem_cons.mpr
    ⟨hpath, Document.quoted_of_load hload hspeaks hn.1⟩

namespace Document

/-- The document of a function that swallows exceptions of some types. -/
def swallowDocument (types : List String) : Fields :=
  handlerDocument [] [("types", .list (types.map .str))]

/-- A handler is reported in one line. -/
theorem lines_swallowDocument :
    ∃ m result report, load (.map (swallowDocument ["Exception"])) none = .ok m ∧
      Configuration.standard.analyze m = .ok result ∧ result.findings.length = 1 ∧
      Report.render .text "1.0" [] result.findings = .ok report ∧
      Report.OneLineEach report result.findings := by
  have hanalysis : ∃ m result, load (.map (swallowDocument ["Exception"])) none = .ok m ∧
      Configuration.standard.analyze m = .ok result ∧
        (result.findings.length = 1 ∧ ¬ Breaks m.info.path.toString) :=
    exists_analysis (by decide +kernel)
  obtain ⟨m, result, hload, hresult, hone, hpath⟩ := hanalysis
  obtain ⟨report, hreport, -, -, hlines⟩ :=
    Report.lines_render Configuration.standard m "1.0" [] result hresult
  exact ⟨m, result, report, hload, hresult, hone, hreport,
    hlines _ _ hload hpath (forall_stands 4 (by decide +kernel))⟩

/-- **A type forges a finding**: the report of one handler has two lines, and both look like
findings. -/
theorem lines_forgedDocument :
    ∃ m result report, load (.map (swallowDocument ["Exception",
        "x\nn.py:7:1: [generic-exception-handling] Empty catch clause for Exception"])) none = .ok m ∧
      Configuration.standard.analyze m = .ok result ∧ result.findings.length = 1 ∧
      Report.render .text "1.0" [] result.findings = .ok report ∧
      Report.lines report = ["m.py:1:1: [generic-exception-handling] " ++
        "Empty catch clause for Exception, x", "n.py:7:1: [generic-exception-handling] " ++
          "Empty catch clause for Exception silently swallows the exception"] := by
  have hanalysis : ∃ m result, load (.map (swallowDocument ["Exception",
      "x\nn.py:7:1: [generic-exception-handling] Empty catch clause for Exception"])) none = .ok m ∧
        Configuration.standard.analyze m = .ok result ∧ result.findings.map Finding.text =
          ["m.py:1:1: [generic-exception-handling] Empty catch clause for Exception, x\n" ++
            "n.py:7:1: [generic-exception-handling] Empty catch clause for Exception " ++
            "silently swallows the exception"] :=
    exists_analysis (by decide +kernel)
  obtain ⟨m, result, hload, hresult, htexts⟩ := hanalysis
  obtain ⟨f, hfindings, htext⟩ := List.map_eq_singleton_iff.mp htexts
  have hone : result.findings.length = 1 := by rw [hfindings, List.length_singleton]
  refine ⟨m, result, _, hload, hresult, hone, Report.render_text, ?_⟩
  rw [hfindings, Report.sorted, List.mergeSort_singleton, Report.lines_text_cons, htext]
  decide +kernel

end Document

end ModelLint
