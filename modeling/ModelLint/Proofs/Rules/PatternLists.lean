import ModelLint.Proofs.Rules.Diagnostics
import ModelLint.Proofs.Rules.GenericException

/-!
# Larger pattern lists

A pattern list stands on one side of the judgement of its rule: either what it matches is reported, or
what it matches is exempt. So as a list grows, the nodes that are reported only become more, or only
become fewer. Which candidates cannot be judged does not depend on the lists at all.

* `Patterns.Below`: patterns of a rule under which it reports at least as much.
* `Graph.Launched.mono`: with more launching calls more runs concurrently.
* `Swallows.mono`, `Leaks.mono`, `Unguarded.mono`: what each rule reports.
* **`Registry.reported_widened`**: how the reported nodes change with one list of the settings.
-/

namespace ModelLint

/-! ## More patterns match more -/

section Matching

variable {patterns patterns' : List String}

theorem Pattern.anyAccepts_mono {name : String} (h : patterns ⊆ patterns')
    (hname : anyAccepts patterns name = true) : anyAccepts patterns' name = true := by
  rw [anyAccepts, Bool.and_eq_true, List.any_eq_true] at hname ⊢
  obtain ⟨hne, pattern, hpattern, haccepts⟩ := hname
  exact ⟨hne, pattern, h hpattern, haccepts⟩

theorem Pattern.anyAccepts?_mono {name : Option String} (h : patterns ⊆ patterns')
    (hname : anyAccepts? patterns name = true) : anyAccepts? patterns' name = true := by
  rw [anyAccepts?, Option.any_eq_true] at hname ⊢
  obtain ⟨name, rfl, haccepts⟩ := hname
  exact ⟨name, rfl, anyAccepts_mono h haccepts⟩

theorem TypeName.isMatchedBy_mono {type : String} (h : patterns ⊆ patterns')
    (htype : isMatchedBy patterns type = true) : isMatchedBy patterns' type = true := by
  rw [isMatchedBy, Bool.or_eq_true] at htype ⊢
  exact htype.imp (Pattern.anyAccepts_mono h) (Pattern.anyAccepts?_mono h)

end Matching

namespace Graph

variable {g : Graph} {root n : NodeId} {patterns patterns' : List String} {path : List NodeId}

theorem isLaunch_mono (h : patterns ⊆ patterns') (hn : g.isLaunch patterns n = true) :
    g.isLaunch patterns' n = true := by
  rw [isLaunch] at hn ⊢
  split at hn
  · rw [Bool.or_eq_true] at hn ⊢
    exact hn.imp (Pattern.anyAccepts?_mono h) (Pattern.anyAccepts_mono h)
  · exact TypeName.isMatchedBy_mono h hn
  · cases hn

theorem LaunchedName.mono {name : String} (h : patterns ⊆ patterns')
    (hname : g.LaunchedName root patterns name) : g.LaunchedName root patterns' name := by
  obtain ⟨p, call, argument, hp, hcall, hargument⟩ := hname
  exact ⟨p, call, argument, hp, isLaunch_mono h hcall, hargument⟩

theorem Launched.mono (h : patterns ⊆ patterns') (hpath : g.Launched root patterns path) :
    g.Launched root patterns' path := by
  cases hpath with
  | handed hpath hf hcall => exact .handed hpath hf (isLaunch_mono h hcall)
  | bound hpath hf hd hname => exact .bound hpath hf hd (hname.mono h)
  | async hd hinfo hmethod hasync => exact .async hd hinfo hmethod hasync
  | named hd hinfo hmethod hname => exact .named hd hinfo hmethod (hname.mono h)

end Graph

variable {phrases : List String} {m : Model} {n : NodeId}

/-! ## The rules -/

namespace GenericException

variable {p p' : Patterns}

/-- The second patterns exempt no more and report no less. -/
structure Patterns.Below (p p' : Patterns) : Prop where
  /-- Fewer methods log. -/
  logging : p'.logging ⊆ p.logging
  /-- More types are those of all exceptions. -/
  rootTypes : p.rootTypes ⊆ p'.rootTypes

theorem Swallows.mono {g : Graph} {types : List String} {var : Option VariableId} {body : NodeId}
    (h : p.Below p') (hn : Swallows p g n types var body) : Swallows p' g n types var body where
  shape_eq := hn.shape_eq
  generic := hn.generic.imp id fun ⟨type, htype, hmatch⟩ =>
    ⟨type, htype, Pattern.anyAccepts_mono h.rootTypes hmatch⟩
  dropped := hn.dropped.imp id fun ⟨hlogs, hrethrows⟩ =>
    ⟨fun v hv call hcall => hlogs v hv call
      { hcall with named := Pattern.anyAccepts?_mono h.logging hcall.named }, hrethrows⟩

theorem reported_mono (h : p.Below p') (description : String) (severity : Severity) :
    ((rule description severity p).reported phrases m).Sublist
      ((rule description severity p').reported phrases m) := by
  refine Rule.reported_sublist _ _ _ fun n _ hn => ?_
  obtain ⟨⟨types, var, body, hswallows⟩, hcovers⟩ := exists_finding?_iff.mp hn
  exact exists_finding?_iff.mpr ⟨⟨types, var, body, hswallows.mono h⟩, hcovers⟩

theorem build_eq {s : RuleSettings} (hlogging : s.pattern? "logging_methods" = some p.logging)
    (hroots : s.pattern? "root_exception_types" = some p.rootTypes) :
    Registry.genericException.build s =
      .ok (rule Registry.genericException.description s.severity p) := by
  simp only [Registry.genericException, RuleDefinition.require, hlogging, hroots]
  rfl

end GenericException

namespace ResourceDisposal

variable {p p' : Patterns}

/-- The second patterns exempt no more and report no less. -/
structure Patterns.Below (p p' : Patterns) : Prop where
  /-- More types are those of resources. -/
  resourceTypes : p.resourceTypes ⊆ p'.resourceTypes
  /-- Fewer methods release. -/
  release : p'.release ⊆ p.release

theorem Releases.mono {g : Graph} {release release' : NameSet} {v : VariableId}
    (h : release ⊆ release') (hn : Releases g release v n) : Releases g release' v n := by
  cases hn with
  | managed hshape ha hv => exact .managed hshape ha hv
  | called hshape hname hv => exact .called hshape (Pattern.anyAccepts_mono h hname) hv
  | handed hshape ha hv => exact .handed hshape ha hv
  | returned hshape hv => exact .returned hshape hv
  | stored hshape hfield hv => exact .stored hshape hfield hv

theorem Acquires.mono {v : VariableId} (h : p.Below p') (hn : Acquires p phrases m n v) :
    Acquires p' phrases m n v := by
  obtain ⟨type, htype, hresource⟩ := hn.resource
  exact { hn with
    resource := ⟨type, htype, hresource.imp (TypeName.isMatchedBy_mono h.resourceTypes) id⟩ }

theorem Leaks.mono {v : VariableId} {path : List NodeId} (h : p.Below p')
    (hn : Leaks p phrases m path n v) : Leaks p' phrases m path n v := by
  obtain ⟨hacquires, region, hregion, hreleases⟩ := hn
  exact ⟨hacquires.mono h, region, hregion, fun a ha hrelease =>
    hreleases a ha (hrelease.mono h.release)⟩

theorem reported_mono (hm : m.Linked) (h : p.Below p') (description : String) (severity : Severity) :
    ((rule description severity p).reported phrases m).Sublist
      ((rule description severity p').reported phrases m) := by
  refine Rule.reported_sublist _ _ _ fun n hmem hn => ?_
  obtain ⟨place, hplace⟩ := hm.rooted.mem_preorder.mp hmem
  obtain ⟨v, hkind, hleaks⟩ := (exists_finding?_iff hm hplace).mp hn
  exact (exists_finding?_iff hm hplace).mpr ⟨v, hkind, hleaks.mono h⟩

theorem build_eq {s : RuleSettings} (htypes : s.pattern? "resource_types" = some p.resourceTypes)
    (hrelease : s.pattern? "release_methods" = some p.release) :
    Registry.resourceDisposal.build s =
      .ok (rule Registry.resourceDisposal.description s.severity p) := by
  simp only [Registry.resourceDisposal, RuleDefinition.require, htypes, hrelease]
  rfl

end ResourceDisposal

namespace SharedMap

variable {p p' : Patterns}

/-- The second patterns exempt no more and report no less. -/
structure Patterns.Below (p p' : Patterns) : Prop where
  /-- More fields are shared. -/
  shared : p.shared ⊆ p'.shared
  /-- More types are those of maps. -/
  maps : p.maps ⊆ p'.maps
  /-- Fewer maps are safe for concurrent use. -/
  concurrent : p'.concurrent ⊆ p.concurrent
  /-- More calls launch. -/
  launch : p.launch ⊆ p'.launch

theorem SharedField.mono {var : Variable} (h : p.Below p') (hvar : SharedField p var) :
    SharedField p' var :=
  ⟨hvar.1, hvar.2.imp id (Pattern.anyAccepts_mono h.shared)⟩

theorem Unguarded.mono {v : VariableId} {path : List NodeId} (h : p.Below p')
    (hn : Unguarded p phrases m path n v) : Unguarded p' phrases m path n v := by
  obtain ⟨type, htype, hmaps, hconcurrent⟩ := hn.map
  exact {
    operates := hn.operates
    map := ⟨type, htype, TypeName.isMatchedBy_mono h.maps hmaps,
      mt (TypeName.isMatchedBy_mono h.concurrent) hconcurrent⟩
    unlocked := hn.unlocked
    uncovered := hn.uncovered
    shared := hn.shared.imp (Graph.Launched.mono h.launch) (SharedField.mono h)
    set_up := fun hpath => (hn.set_up hpath).mono h.launch }

theorem reported_mono (hm : m.Linked) (h : p.Below p') (description : String) (severity : Severity) :
    ((rule description severity p).reported phrases m).Sublist
      ((rule description severity p').reported phrases m) := by
  refine Rule.reported_sublist _ _ _ fun n hmem hn => ?_
  obtain ⟨place, hplace⟩ := hm.rooted.mem_preorder.mp hmem
  obtain ⟨v, hv⟩ := (finding?_isSome_iff hm hplace).mp hn
  exact (finding?_isSome_iff hm hplace).mpr ⟨v, hv.mono h⟩

theorem build_eq {s : RuleSettings} (hshared : s.pattern? "shared_fields" = some p.shared)
    (hmaps : s.pattern? "map_types" = some p.maps)
    (hconcurrent : s.pattern? "concurrent_map_types" = some p.concurrent)
    (hlaunch : s.pattern? "launch_calls" = some p.launch) :
    Registry.sharedMap.build s = .ok (rule Registry.sharedMap.description s.severity p) := by
  simp only [Registry.sharedMap, RuleDefinition.require, hshared, hmaps, hconcurrent, hlaunch]
  rfl

end SharedMap

/-! ## Settings -/

/-- **Settings differ in one pattern list only**, which becomes larger. -/
structure RuleSettings.Widens (name : String) (s s' : RuleSettings) : Prop where
  /-- The severity stays. -/
  severity_eq : s'.severity = s.severity
  /-- The rule stays enabled, or not. -/
  enabled_eq : s'.enabled = s.enabled
  /-- All other lists stay. -/
  pattern?_eq : ∀ other, other ≠ name → s'.pattern? other = s.pattern? other
  /-- The list has at least the patterns that it had. -/
  enlarged : ∃ patterns patterns', s.pattern? name = some patterns ∧
    s'.pattern? name = some patterns' ∧ patterns ⊆ patterns'

theorem RuleSettings.Widens.exists_pattern {name other : String} {s s' : RuleSettings}
    {patterns : NameSet} (h : s.Widens name s') (hs : s.pattern? other = some patterns) :
    ∃ patterns', s'.pattern? other = some patterns' ∧ patterns ⊆ patterns' ∧
      (other ≠ name → patterns' ⊆ patterns) := by
  by_cases hother : other = name
  · subst hother
    obtain ⟨P, P', hP, hP', hsubset⟩ := h.enlarged
    cases hs.symm.trans hP
    exact ⟨P', hP', hsubset, fun hne => absurd rfl hne⟩
  · exact ⟨patterns, (h.pattern?_eq other hother).trans hs, List.Subset.refl _,
      fun _ => List.Subset.refl _⟩

namespace Registry

variable {d : RuleDefinition} {s s' : RuleSettings} {r r' : Rule} {name : String}

/-- The pattern lists of what is exempt: logging, releasing and maps for concurrent use. -/
def exemptingLists : List String := ["logging_methods", "release_methods", "concurrent_map_types"]

/-- The pattern lists of what is reported: exceptions, resources, maps and how they are shared. -/
def reportingLists : List String :=
  ["root_exception_types", "resource_types", "map_types", "shared_fields", "launch_calls"]

theorem diagnostics_eq (hm : m.Linked) (hd : d ∈ definitions) (hr : d.build s = .ok r)
    (hr' : d.build s' = .ok r') (hid : r'.id = r.id) :
    (r'.evaluate phrases m).diagnostics = (r.evaluate phrases m).diagnostics := by
  rw [Rule.diagnostics_evaluate hm.rooted.nodup_preorder,
    Rule.diagnostics_evaluate hm.rooted.nodup_preorder]
  refine List.filterMap_congr fun n hn => Option.ext fun text => ?_
  rw [diagnostic?_eq_some hm hn hd hr', diagnostic?_eq_some hm hn hd hr, hid]

/-- **The reported nodes change monotonically with a pattern list.** When one list of the settings of a
rule becomes larger, the rule can still be built. No node is lost unless it is a list of what is exempt,
none is gained unless it is a list of what is reported, and the diagnostics stay the same. -/
theorem reported_widened (hm : m.Linked) (hd : d ∈ definitions) (hr : d.build s = .ok r)
    (hs : s.Widens name s') (phrases : List String) :
    ∃ r', d.build s' = .ok r' ∧
      (name ∉ exemptingLists → (r.reported phrases m).Sublist (r'.reported phrases m)) ∧
      (name ∉ reportingLists → (r'.reported phrases m).Sublist (r.reported phrases m)) ∧
      (r'.evaluate phrases m).diagnostics = (r.evaluate phrases m).diagnostics := by
  have hmem := hd
  simp only [definitions, List.mem_cons, List.not_mem_nil, or_false] at hd
  rcases hd with rfl | rfl | rfl
  · obtain ⟨p, hlogging, hroots, rfl⟩ := GenericException.build_eq_ok hr
    obtain ⟨logging, hlogging', hlog, hlog'⟩ := hs.exists_pattern hlogging
    obtain ⟨roots, hroots', hroot, hroot'⟩ := hs.exists_pattern hroots
    have hr' := GenericException.build_eq (p := ⟨logging, roots⟩) hlogging' hroots'
    rw [hs.severity_eq] at hr'
    refine ⟨_, hr', fun hname => ?_, fun hname => ?_, diagnostics_eq hm hmem hr hr' rfl⟩
    · exact GenericException.reported_mono
        ⟨hlog' (ne_of_mem_of_not_mem (by simp [exemptingLists]) hname), hroot⟩ _ _
    · exact GenericException.reported_mono
        ⟨hlog, hroot' (ne_of_mem_of_not_mem (by simp [reportingLists]) hname)⟩ _ _
  · obtain ⟨p, htypes, hrelease, rfl⟩ := ResourceDisposal.build_eq_ok hr
    obtain ⟨types, htypes', htype, htype'⟩ := hs.exists_pattern htypes
    obtain ⟨release, hrelease', hrel, hrel'⟩ := hs.exists_pattern hrelease
    have hr' := ResourceDisposal.build_eq (p := ⟨types, release⟩) htypes' hrelease'
    rw [hs.severity_eq] at hr'
    refine ⟨_, hr', fun hname => ?_, fun hname => ?_, diagnostics_eq hm hmem hr hr' rfl⟩
    · exact ResourceDisposal.reported_mono hm
        ⟨htype, hrel' (ne_of_mem_of_not_mem (by simp [exemptingLists]) hname)⟩ _ _
    · exact ResourceDisposal.reported_mono hm
        ⟨htype' (ne_of_mem_of_not_mem (by simp [reportingLists]) hname), hrel⟩ _ _
  · obtain ⟨p, hshared, hmaps, hconcurrent, hlaunch, rfl⟩ := SharedMap.build_eq_ok hr
    obtain ⟨shared, hshared', hfields, hfields'⟩ := hs.exists_pattern hshared
    obtain ⟨maps, hmaps', hmap, hmap'⟩ := hs.exists_pattern hmaps
    obtain ⟨concurrent, hconcurrent', hsafe, hsafe'⟩ := hs.exists_pattern hconcurrent
    obtain ⟨launch, hlaunch', hcalls, hcalls'⟩ := hs.exists_pattern hlaunch
    have hr' := SharedMap.build_eq (p := ⟨shared, maps, concurrent, launch⟩) hshared' hmaps'
      hconcurrent' hlaunch'
    rw [hs.severity_eq] at hr'
    refine ⟨_, hr', fun hname => ?_, fun hname => ?_, diagnostics_eq hm hmem hr hr' rfl⟩
    · exact SharedMap.reported_mono hm ⟨hfields, hmap,
        hsafe' (ne_of_mem_of_not_mem (by simp [exemptingLists]) hname), hcalls⟩ _ _
    · have hne : ∀ other ∈ reportingLists, other ≠ name :=
        fun other hother => ne_of_mem_of_not_mem hother hname
      exact SharedMap.reported_mono hm ⟨hfields' (hne _ (by simp [reportingLists])),
        hmap' (hne _ (by simp [reportingLists])), hsafe,
        hcalls' (hne _ (by simp [reportingLists]))⟩ _ _

/-- Settings of the rule on shared maps that know no map. -/
def mapless : RuleSettings where
  severity := .error
  enabled := true
  patterns := [("shared_fields", []), ("map_types", []), ("concurrent_map_types", []),
    ("launch_calls", [])]

theorem widens_mapless : mapless.Widens "map_types" SharedMap.readerSettings where
  severity_eq := rfl
  enabled_eq := rfl
  pattern?_eq other hother := by
    simp only [RuleSettings.pattern?, mapless, SharedMap.readerSettings, List.lookup_cons,
      beq_eq_false_iff_ne.mpr hother]
  enlarged := ⟨[], ["dict"], rfl, rfl, List.nil_subset _⟩

/-- The access of the asynchronous function is reported once its type is one of a map. -/
theorem reported_widened_mapless : SharedMap.readerModel.Linked ∧
    mapless.Widens "map_types" SharedMap.readerSettings ∧
    ∃ r r', sharedMap.build mapless = .ok r ∧ sharedMap.build SharedMap.readerSettings = .ok r' ∧
      (r.reported [] SharedMap.readerModel).Sublist (r'.reported [] SharedMap.readerModel) ∧
      3 ∉ r.reported [] SharedMap.readerModel ∧ 3 ∈ r'.reported [] SharedMap.readerModel := by
  have hd : sharedMap ∈ definitions := by simp [definitions]
  obtain ⟨r', hr', hwider, -, -⟩ :=
    reported_widened SharedMap.linked_readerModel hd (r := _) rfl widens_mapless []
  refine ⟨SharedMap.linked_readerModel, widens_mapless, _, r', rfl, hr', hwider (by decide), ?_, ?_⟩
  · decide +kernel
  · cases hr'
    decide +kernel

end Registry

end ModelLint
