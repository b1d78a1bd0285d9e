import ModelLint.Configuration
import ModelLint.Proofs.Rules.SharedMap
import ModelLint.Proofs.Source.Nesting

/-!
# Access to shared maps at import time

Code that runs while a module is imported stands in the method of the module's own statements or in
the initializer of a field. The statements are set up like an object by its constructor, hence the
rule on shared maps is silent there. An initializer stands in no method, and the rule treats it like
any other code.

* `Graph.ImportTime`, `Graph.InInitializer`: the path to code that runs at import time, and that to
  an initializer.
* `FromSource.not_launched`, `FromSource.setUp_iff`: nothing runs concurrently at import time, and
  all that stands in a method is set up.
* **`SharedMap.reported_importTime`**: which accesses at import time are reported.
-/

namespace ModelLint

namespace Graph

variable {g : Graph} {path : List NodeId}

/-- **What stands at the end of the path runs at import time**: no anonymous function is on the path,
and no method but that of the module's own statements. A class that a function defines stands at the
top of the unit, hence its initializers count, too. -/
structure ImportTime (g : Graph) (path : List NodeId) : Prop where
  /-- There are no anonymous functions. -/
  lambdas : ∀ a ∈ path, ¬ g.IsLambda a
  /-- There are no other methods. -/
  methods : ∀ a ∈ path, ∀ info, g.declaration? a = some info → info.kind = .method →
    info.name = moduleBody

/-- What stands at the end of the path is in the initializer of a field, and in no method. -/
def InInitializer (g : Graph) (path : List NodeId) : Prop :=
  (∃ a ∈ path, g.Declares .field a) ∧ ∀ a ∈ path, ¬ g.Declares .method a

instance (g : Graph) (path : List NodeId) : Decidable (g.ImportTime path) :=
  decidable_of_iff ((∀ a ∈ path, ¬ g.IsLambda a) ∧
      ∀ a ∈ path, ∀ info ∈ g.declaration? a, info.kind = .method → info.name = moduleBody)
    ⟨fun h => ⟨h.1, h.2⟩, fun h => ⟨h.lambdas, h.methods⟩⟩

instance (g : Graph) (path : List NodeId) : Decidable (g.InInitializer path) :=
  inferInstanceAs (Decidable (_ ∧ _))

theorem exists_innermost {kind : DeclarationKind} (h : ∃ a ∈ path, g.Declares kind a) :
    ∃ d before, Innermost path (g.Declares kind) d before := by
  obtain ⟨a, ha, hdeclares⟩ := h
  have hsome : (path.reverse.find? (g.declares kind)).isSome :=
    List.find?_isSome.mpr ⟨a, List.mem_reverse.mpr ha, declares_iff.mpr hdeclares⟩
  obtain ⟨d, hd⟩ := Option.isSome_iff_exists.mp hsome
  exact ⟨d, (find?_reverse_eq_some fun _ => declares_iff).mp hd⟩

theorem Innermost.mem {P : NodeId → Prop} {d : NodeId} {before : List NodeId}
    (h : Innermost path P d before) : d ∈ path := by
  obtain ⟨-, after, rfl, -⟩ := h
  simp

end Graph

section FromSource

variable {m : Model} {place : Graph.Place} {n : NodeId} {patterns : List String}

theorem not_isName_moduleBody : ¬ Source.IsName Graph.moduleBody := by decide +kernel

/-- No argument has the name of the method of a module's own statements. -/
theorem Model.FromSource.not_launchedName (hm : m.FromSource) :
    ¬ m.graph.LaunchedName m.root patterns Graph.moduleBody := by
  rintro ⟨p, call, argument, hp, -, hargument, hname⟩
  have hchild : argument ∈ m.graph.children call := by
    rw [Graph.arguments] at hargument
    rw [Graph.children]
    split at hargument
    · next hshape =>
      rw [hshape]
      simp [Shape.children, Shape.slots, hargument]
    · next hshape =>
      rw [hshape]
      simpa [Shape.children, Shape.slots] using hargument
    · cases hargument
  obtain ⟨i, hi⟩ := List.mem_iff_getElem?.mp hchild
  have hnames := hm.names (p ++ [i]) argument (Graph.at?_snoc_eq_some.mpr ⟨call, hp, hi⟩)
  rw [Graph.mentionedName?] at hname
  split at hname
  · next hshape =>
    cases hname
    rw [hshape] at hnames
    exact not_isName_moduleBody hnames
  · next hshape =>
    cases hname
    rw [hshape] at hnames
    exact not_isName_moduleBody hnames
  · cases hname

theorem Model.FromSource.not_launched (hm : m.FromSource)
    (hp : m.graph.at? m.root place = some n)
    (h : m.graph.ImportTime (m.graph.above m.root place)) :
    ¬ m.graph.Launched m.root patterns (m.graph.above m.root place) := by
  rintro (⟨hpath, hf, -⟩ | ⟨hpath, hf, -, -⟩ | ⟨hd, hinfo, hmethod, hasync⟩ |
    ⟨hd, hinfo, hmethod, hname⟩)
  · exact h.lambdas _ (by simp [hpath]) hf
  · exact h.lambdas _ (by simp [hpath]) hf
  · rename_i d info
    obtain ⟨before, after, hpath⟩ := List.append_of_mem hd
    obtain ⟨q, i, r, -, hq, -⟩ := Graph.split_above hp hpath
    have hname := h.methods d hd info hinfo hmethod
    have hnames := hm.names q d hq
    rw [Graph.declaration?_eq] at hinfo
    rcases hnames.method hinfo hmethod with hidentifier | ⟨-, hmodifiers⟩
    · rw [hname] at hidentifier
      exact not_isName_moduleBody hidentifier
    · rw [DeclarationInfo.isAsync, hmodifiers] at hasync
      cases hasync
  · rw [h.methods _ hd _ hinfo hmethod] at hname
    exact hm.not_launchedName hname

/-- What stands in a method at import time is set up. -/
theorem Graph.ImportTime.setUp_iff {g : Graph} {path : List NodeId} (h : g.ImportTime path) :
    g.SetUp path ↔ ∃ a ∈ path, g.Declares .method a := by
  constructor
  · rintro ⟨d, before, hd, -⟩
    exact ⟨d, hd.mem, hd.1⟩
  · intro hmethod
    obtain ⟨d, before, hd⟩ := exists_innermost hmethod
    obtain ⟨info, hinfo, hkind⟩ := hd.1
    refine ⟨d, before, hd, info, hinfo, .inl ?_⟩
    rw [h.methods d hd.mem info hinfo hkind]
    decide

end FromSource

namespace SharedMap

open Source (load)

variable {p : Patterns} {phrases : List String} {m : Model} {n : NodeId} {place : Graph.Place}
  {locks : List String} {named : Text.CharacterNames} {source : String} {path : Path}

theorem not_isOutermost_of_accessTarget? {g : Graph} {target : NodeId}
    (h : accessTarget? g n = some target) : ¬ (g.shape n).isOutermost := by
  rw [accessTarget?] at h
  split at h
  · next hshape => simp [hshape, Shape.isOutermost]
  · next hshape => simp [hshape, Shape.isOutermost]
  · cases h

/-- At import time an access is unguarded if it stands in an initializer, the map is a shared field,
and neither a lock nor a comment is there. -/
theorem unguarded_iff_inInitializer (hm : m.FromSource) (hp : m.graph.at? m.root place = some n)
    (h : m.graph.ImportTime (m.graph.above m.root place)) :
    (∃ v, Unguarded p phrases m (m.graph.above m.root place) n v) ↔
      m.graph.InInitializer (m.graph.above m.root place) ∧
        ∃ v, Exposed p phrases m (m.graph.above m.root place) n v ∧
          SharedField p (m.graph.variable' v) := by
  have hlaunched : ¬ m.graph.Launched m.root p.launch (m.graph.above m.root place) :=
    hm.not_launched hp h
  constructor
  · rintro ⟨v, hexposed, hshared, hsetup⟩
    have hmethod : ∀ a ∈ m.graph.above m.root place, ¬ m.graph.Declares .method a :=
      fun a ha hdeclares => hlaunched (hsetup (h.setUp_iff.mpr ⟨a, ha, hdeclares⟩))
    refine ⟨⟨?_, hmethod⟩, v, hexposed, hshared.resolve_left hlaunched⟩
    by_contra hfield
    obtain ⟨target, htarget, -⟩ := hexposed.operates
    refine not_isOutermost_of_accessTarget? htarget (hm.isOutermost_of_above hp fun a ha => ?_)
    exact ⟨hmethod a ha, fun hdeclares => hfield ⟨a, ha, hdeclares⟩⟩
  · rintro ⟨⟨-, hmethod⟩, v, hexposed, hshared⟩
    refine ⟨v, hexposed, .inr hshared, fun hsetup => ?_⟩
    obtain ⟨a, ha, hdeclares⟩ := h.setUp_iff.mp hsetup
    exact absurd hdeclares (hmethod a ha)

/-- **Which accesses at import time are reported**, whatever the settings and phrases: none in the
statements of the module, and in an initializer those to shared fields that no lock and no comment
covers. -/
theorem reported_importTime (hm : load named locks source path = .ok m) {s : RuleSettings} {r : Rule}
    (hr : Registry.sharedMap.build s = .ok r) (phrases : List String) :
    ∃ p : Patterns, s.pattern? "shared_fields" = some p.shared ∧
      s.pattern? "map_types" = some p.maps ∧
      s.pattern? "concurrent_map_types" = some p.concurrent ∧
      s.pattern? "launch_calls" = some p.launch ∧
      ∃ nodes : List NodeId, nodes.Sublist m.nodes ∧ nodes.Nodup ∧
        (∀ place n, m.graph.at? m.root place = some n →
          m.graph.ImportTime (m.graph.above m.root place) →
            (n ∈ nodes ↔ m.graph.InInitializer (m.graph.above m.root place) ∧
              ∃ v, Exposed p phrases m (m.graph.above m.root place) n v ∧
                SharedField p (m.graph.variable' v))) ∧
        List.Forall₂ (fun n f => f.ruleId = ruleId ∧ f.severity = some s.severity ∧
            f.path = m.info.path ∧ f.span = (m.graph.location n).span) nodes
          (r.evaluate phrases m).findings := by
  have hsource := Source.fromSource_of_load hm
  obtain ⟨p, hshared, hmaps, hconcurrent, hlaunch, rfl⟩ := build_eq_ok hr
  obtain ⟨nodes, hsublist, hnodup, hmem, hfindings⟩ :=
    reported_rule_at hsource.linked Registry.sharedMap.description s.severity p phrases
  refine ⟨p, hshared, hmaps, hconcurrent, hlaunch, nodes, hsublist, hnodup,
    fun place n hp himport => ?_, hfindings⟩
  rw [hmem place n hp, unguarded_iff_inInitializer hsource hp himport]

/-- A module that fills a map in a statement and reads it in the initializer of a field. -/
def registryText : String := "M = {}\nM['a'] = 1\nx = M['a']\n"

/-- The patterns of the rule where none are configured. -/
def defaultPatterns : Patterns :=
  let patterns := fun key => (Registry.sharedMap.defaultSettings.pattern? key).getD []
  ⟨patterns "shared_fields", patterns "map_types", patterns "concurrent_map_types",
    patterns "launch_calls"⟩

theorem eq_defaultPatterns {p : Patterns}
    (hshared : Registry.sharedMap.defaultSettings.pattern? "shared_fields" = some p.shared)
    (hmaps : Registry.sharedMap.defaultSettings.pattern? "map_types" = some p.maps)
    (hconcurrent : Registry.sharedMap.defaultSettings.pattern? "concurrent_map_types" =
      some p.concurrent)
    (hlaunch : Registry.sharedMap.defaultSettings.pattern? "launch_calls" = some p.launch) :
    p = defaultPatterns := by
  simp only [defaultPatterns, hshared, hmaps, hconcurrent, hlaunch, Option.getD_some]

/-- Of the two accesses the statement is not reported, and the initializer is. -/
theorem reported_registryText :
    ∃ m r nodes, load .empty [] registryText ⟨"", ["m.py"]⟩ = .ok m ∧
      Registry.sharedMap.build Registry.sharedMap.defaultSettings = .ok r ∧
      (5 ∈ nodes ∧ 11 ∉ nodes) ∧
      List.Forall₂ (fun n f => f.span = (m.graph.location n).span) nodes
        (r.evaluate [] m).findings := by
  have hchecks : (load .empty [] registryText ⟨"", ["m.py"]⟩).toOption.any fun m => decide
      (m.root = 0 ∧
        (m.graph.at? 0 [0, 2, 0, 0, 0] = some 11 ∧
          m.graph.ImportTime (m.graph.above 0 [0, 2, 0, 0, 0]) ∧
          ¬ m.graph.InInitializer (m.graph.above 0 [0, 2, 0, 0, 0])) ∧
        (m.graph.at? 0 [0, 1, 0] = some 5 ∧ m.graph.ImportTime (m.graph.above 0 [0, 1, 0]) ∧
          m.graph.InInitializer (m.graph.above 0 [0, 1, 0])) ∧
        Exposed defaultPatterns [] m (m.graph.above 0 [0, 1, 0]) 5 0 ∧
        SharedField defaultPatterns (m.graph.variable' 0)) := by
    decide +kernel
  obtain ⟨m, hm, hchecks⟩ := Source.exists_load_of_any hchecks
  obtain ⟨hroot, ⟨hstatement, hruns, hmethod⟩, ⟨hfield, hruns', hinitializer⟩, hexposed, hshared⟩ :=
    of_decide_eq_true hchecks
  obtain ⟨p, hpatterns, hmaps, hconcurrent, hlaunch, nodes, -, -, hmem, hfindings⟩ :=
    reported_importTime hm (s := Registry.sharedMap.defaultSettings) rfl []
  obtain rfl := eq_defaultPatterns hpatterns hmaps hconcurrent hlaunch
  refine ⟨m, _, nodes, hm, rfl, ⟨?_, fun h => ?_⟩, hfindings.imp fun {_ _} hf => hf.2.2.2⟩
  · refine (hmem [0, 1, 0] 5 (hroot ▸ hfield) (hroot ▸ hruns')).mpr ?_
    rw [hroot]
    exact ⟨hinitializer, 0, hexposed, hshared⟩
  · have := ((hmem [0, 2, 0, 0, 0] 11 (hroot ▸ hstatement) (hroot ▸ hruns)).mp h).1
    rw [hroot] at this
    exact hmethod this

/-- A module that reads a map in the initializer of a field. -/
def initializerText : String := "M = {}\nx = M['a']\n"

/-- The access runs at import time, and it is reported where nothing is configured. -/
theorem reported_initializerText :
    ∃ m r place n f, load .empty Configuration.standard.lockPatterns initializerText ⟨"", ["m.py"]⟩ = .ok m ∧
      Registry.sharedMap.build Registry.sharedMap.defaultSettings = .ok r ∧
      m.graph.at? m.root place = some n ∧ m.graph.ImportTime (m.graph.above m.root place) ∧
      f ∈ (r.evaluate Configuration.standard.phrases m).findings ∧
      f.span = (m.graph.location n).span := by
  have hchecks : (load .empty Configuration.standard.lockPatterns initializerText ⟨"", ["m.py"]⟩).toOption.any
      fun m => decide (m.graph.at? m.root [0, 1, 0] = some 5 ∧
        m.graph.ImportTime (m.graph.above m.root [0, 1, 0]) ∧
        ((rule Registry.sharedMap.description .error defaultPatterns).evaluate
          Configuration.standard.phrases m).findings.map (·.span) =
            [(m.graph.location 5).span]) := by
    decide +kernel
  obtain ⟨m, hm, hchecks⟩ := Source.exists_load_of_any hchecks
  obtain ⟨hp, himport, hspans⟩ := of_decide_eq_true hchecks
  obtain ⟨f, hf, hspan⟩ := List.mem_map.mp (hspans ▸ List.mem_singleton_self _)
  exact ⟨m, _, [0, 1, 0], 5, f, hm, rfl, hp, himport, hf, hspan⟩

end SharedMap

end ModelLint
