import ModelLint.Proofs.Rules.ImportTime
import ModelLint.Proofs.Source.Members

/-!
# Access to shared maps in the functions of a module

The rule on shared maps is silent where a constructor sets its object up, and it takes a method for a
constructor if it is named like the type around it. A module is a type that is named like its file.

* `Graph.Innermost.unique`: the innermost node of some kind.
* `Graph.setUp_iff_of_member`: which methods of a type set it up.
* **`SharedMap.reported_moduleFunction`**: which accesses in a function of a module are reported.
-/

namespace ModelLint

namespace Graph

variable {g : Graph} {path before before' : List NodeId} {P : NodeId → Prop} {a b root d : NodeId}

theorem Innermost.unique (h : Innermost path P a before) (h' : Innermost path P b before') :
    a = b ∧ before = before' := by
  obtain ⟨ha, after, rfl, hafter⟩ := h
  obtain ⟨hb, after', heq, hafter'⟩ := h'
  rcases List.append_eq_append_iff.mp heq with ⟨mid, rfl, hmid⟩ | ⟨mid, rfl, hmid⟩
  · rcases mid with _ | ⟨c, mid⟩
    · cases hmid
      exact ⟨rfl, (List.append_nil _).symm⟩
    · cases hmid
      exact absurd hb (hafter b (by simp))
  · rcases mid with _ | ⟨c, mid⟩
    · cases hmid
      exact ⟨rfl, List.append_nil _⟩
    · cases hmid
      exact absurd ha (hafter' a (by simp))

/-- **Which methods of a type set it up**, if the type stands in no other one and nothing is declared
in the method: the constructors, and those with the name of the type. -/
theorem setUp_iff_of_member {type : NodeId} {after : List NodeId} {info typeInfo : DeclarationInfo}
    (htype : g.declaration? type = some typeInfo) (hkind : typeInfo.kind = .type)
    (hd : g.declaration? d = some info) (hmethod : info.kind = .method)
    (hafter : ∀ a ∈ after, g.declaration? a = none) :
    g.SetUp (root :: type :: d :: after) ↔
      info.name ∈ constructorNames ∨ info.name = typeInfo.name := by
  have hnone : ∀ kind, ∀ a ∈ after, ¬ g.Declares kind a := fun kind a ha ⟨_, hinfo, _⟩ => by
    rw [hafter a ha] at hinfo
    cases hinfo
  have hinnermost : Innermost (root :: type :: d :: after) (g.Declares .method) d [root, type] :=
    ⟨⟨info, hd, hmethod⟩, after, rfl, hnone .method⟩
  have houter : Innermost [root, type] (g.Declares .type) type [root] :=
    ⟨⟨typeInfo, htype, hkind⟩, [], rfl, fun _ ha => nomatch ha⟩
  constructor
  · rintro ⟨d', before, hd', info', hinfo', hname⟩
    obtain ⟨rfl, rfl⟩ := hinnermost.unique hd'
    cases hd.symm.trans hinfo'
    refine hname.imp_right ?_
    rintro ⟨type', outer, typeInfo', htype', hinfo', hname⟩
    obtain ⟨rfl, -⟩ := houter.unique htype'
    cases htype.symm.trans hinfo'
    exact hname.symm
  · intro hname
    refine ⟨d, _, hinnermost, info, hd, hname.imp_right fun hname => ?_⟩
    exact ⟨type, _, typeInfo, houter, htype, hname.symm⟩

end Graph

namespace SharedMap

open Source (LaidOut functionsOf load)

variable {p : Patterns} {phrases : List String} {m : Model} {n : NodeId} {place : Graph.Place}
  {locks : List String} {named : Text.CharacterNames} {source : String} {path : Path}
  {body : List Source.Stmt}

/-- Of the names of constructors these are the ones that methods of a source can have. -/
theorem mem_constructorNames {name : String} (h : Source.IsName name ∨ name = Graph.moduleBody) :
    name ∈ Graph.constructorNames ↔
      name = Graph.moduleBody ∨ name = "__init__" ∨ name = "__new__" := by
  have hnone : ∀ other ∈ [".ctor", ".cctor"], ¬ Source.IsName other ∧ other ≠ Graph.moduleBody := by
    decide +kernel
  simp only [Graph.constructorNames, List.mem_cons, List.not_mem_nil, or_false]
  constructor
  · rintro (hname | hname | rfl | rfl | hname)
    · exact .inr (.inl hname)
    · exact .inr (.inr hname)
    · exact absurd h (not_or.mpr (hnone _ (by simp)))
    · exact absurd h (not_or.mpr (hnone _ (by simp)))
    · exact .inl hname
  · rintro (hname | hname | hname)
    · exact .inr (.inr (.inr (.inr hname)))
    · exact .inl hname
    · exact .inr (.inl hname)

section Methods

variable {comments : List (Int × String)} {t : Tree} {s : Source.Building} {module d : NodeId}
  {typeInfo info : DeclarationInfo} {i j : Nat} {q : Graph.Place}

/-- A method of the module sets nothing up unless it is named like a constructor or like the file. -/
theorem setUp_iff_of_laidOut (h : LaidOut m locks path body comments t s)
    (hmodule : m.graph.at? m.root [0] = some module)
    (htype : m.graph.declaration? module = some typeInfo) (hkind : typeInfo.kind = .type)
    (hstem : typeInfo.name = path.stem) (hj : (m.graph.children module)[j]? = some d)
    (hd : m.graph.declaration? d = some info) (hmethod : info.kind = .method)
    (hname : Source.IsName info.name ∨ info.name = Graph.moduleBody)
    (hq : m.graph.at? d (i :: q) = some n) :
    m.graph.SetUp (m.graph.above m.root (0 :: j :: i :: q)) ↔
      info.name ∈ [Graph.moduleBody, "__init__", "__new__", path.stem] := by
  have hat : m.graph.at? m.root [0, j] = some d :=
    (Graph.at?_snoc_eq_some (p := [0])).mpr ⟨module, hmodule, hj⟩
  have hfunction : (m.graph.shape d).IsFunction := by
    rw [Graph.declaration?_eq] at hd
    revert hd
    cases m.graph.shape d <;> simp only [Shape.declared?, reduceCtorEq, IsEmpty.forall_iff,
      Option.some.injEq]
    rintro rfl
    exact hmethod
  obtain ⟨after, hafter⟩ : ∃ after, m.graph.above d (i :: q) = d :: after := ⟨_, rfl⟩
  have hpath : m.graph.above m.root (0 :: j :: i :: q) = m.root :: module :: d :: after := by
    have hroot : m.graph.above m.root [0] = [m.root] := Graph.above_snoc (p := []) rfl
    have hprefix : m.graph.above m.root [0, j] = [m.root, module] := by
      rw [← List.singleton_append, Graph.above_snoc hmodule, hroot, List.singleton_append]
    rw [show (0 :: j :: i :: q) = [0, j] ++ i :: q from rfl, Graph.above_append hat, hprefix, hafter]
    rfl
  rw [hpath, Graph.setUp_iff_of_member htype hkind hd hmethod fun a ha => ?below, hstem]
  case below =>
    -- nothing is declared in a method
    obtain ⟨before, after', rfl⟩ := List.append_of_mem ha
    rw [← List.cons_append] at hafter
    obtain ⟨q', i', r, hplace, ha, hbefore⟩ := Graph.split_above hq hafter
    rcases q' with _ | ⟨k, q'⟩
    · cases hbefore
    · have hinner := h.not_isOutermost (p := [j]) hat hfunction (i := k) (q := q')
        (by rw [← List.cons_append, Graph.at?_append, hat, Option.bind_some, ha])
      rw [Graph.declaration?_eq]
      revert hinner
      cases m.graph.shape a <;> simp [Shape.isOutermost, Shape.declared?]
  rw [mem_constructorNames hname]
  simp only [List.mem_cons, List.not_mem_nil, or_false, or_assoc]

/-- The method stands in the module, and the rule is silent where the name of the method tells that
it sets something up. -/
theorem unguarded_iff_of_laidOut (h : LaidOut m locks path body comments t s)
    (hmodule : m.graph.at? m.root [0] = some module)
    (htype : m.graph.declaration? module = some typeInfo) (hkind : typeInfo.kind = .type)
    (hstem : typeInfo.name = path.stem) (hj : (m.graph.children module)[j]? = some d)
    (hd : m.graph.declaration? d = some info) (hmethod : info.kind = .method)
    (hname : Source.IsName info.name ∨ info.name = Graph.moduleBody) (hq : m.graph.at? d q = some n) :
    (∃ v, Unguarded p phrases m (m.graph.above m.root (0 :: j :: q)) n v) ↔
      ∃ v, Exposed p phrases m (m.graph.above m.root (0 :: j :: q)) n v ∧
        (m.graph.Launched m.root p.launch (m.graph.above m.root (0 :: j :: q)) ∨
          SharedField p (m.graph.variable' v) ∧
            info.name ∉ [Graph.moduleBody, "__init__", "__new__", path.stem]) := by
  refine exists_congr fun v => ?_
  rcases q with _ | ⟨i, q⟩
  · -- the method itself is no access
    obtain rfl : d = n := Option.some.inj hq
    have hexposed : ∀ path, ¬ Exposed p phrases m path d v := by
      rintro path ⟨⟨target, htarget, -⟩, -⟩
      rw [Graph.declaration?_eq] at hd
      exact not_isOutermost_of_accessTarget? htarget (Shape.isOutermost_of_declared? hd)
    exact ⟨fun ⟨he, _, _⟩ => absurd he (hexposed _), fun ⟨he, _⟩ => absurd he (hexposed _)⟩
  · have hsetup := setUp_iff_of_laidOut h hmodule htype hkind hstem hj hd hmethod hname hq
    constructor
    · rintro ⟨hexposed, hlaunched | hshared, hguard⟩
      · exact ⟨hexposed, .inl hlaunched⟩
      · by_cases hlaunched : m.graph.Launched m.root p.launch
            (m.graph.above m.root (0 :: j :: i :: q))
        · exact ⟨hexposed, .inl hlaunched⟩
        · exact ⟨hexposed, .inr ⟨hshared, fun hmem => hlaunched (hguard (hsetup.mpr hmem))⟩⟩
    · rintro ⟨hexposed, hlaunched | ⟨hshared, hnot⟩⟩
      · exact ⟨hexposed, .inl hlaunched, fun _ => hlaunched⟩
      · exact ⟨hexposed, .inr hshared, fun h => absurd (hsetup.mp h) hnot⟩

end Methods

/-- **Which accesses in a method of the module are reported**, whatever the settings and phrases. The
methods are the functions of the module, in order, and then that of its own statements. A shared map
that no lock and no comment covers is reported there unless the method has the name of a constructor
or of the file; what runs concurrently is reported in any case. -/
theorem reported_moduleFunction (hload : load named locks source path = .ok m)
    (hbody : Source.Stmt.ofSource? named source = some body) {s : RuleSettings} {r : Rule}
    (hr : Registry.sharedMap.build s = .ok r) (phrases : List String) :
    ∃ p : Patterns, s.pattern? "shared_fields" = some p.shared ∧
      s.pattern? "map_types" = some p.maps ∧
      s.pattern? "concurrent_map_types" = some p.concurrent ∧
      s.pattern? "launch_calls" = some p.launch ∧
      ∃ nodes : List NodeId, nodes.Sublist m.nodes ∧ nodes.Nodup ∧
        List.Forall₂ (fun n f => f.ruleId = ruleId ∧ f.severity = some s.severity ∧
            f.path = m.info.path ∧ f.span = (m.graph.location n).span) nodes
          (r.evaluate phrases m).findings ∧
        ∃ module own, m.graph.at? m.root [0] = some module ∧
          (own = [] ∨ ∃ l, own = [(l, Graph.moduleBody)]) ∧
          (m.graph.children module).filterMap m.graph.method? = functionsOf body ++ own ∧
          ∀ (j : Nat) d l name, (m.graph.children module)[j]? = some d →
            m.graph.method? d = some (l, name) → ∀ q n, m.graph.at? d q = some n →
              (n ∈ nodes ↔ ∃ v, Exposed p phrases m (m.graph.above m.root (0 :: j :: q)) n v ∧
                (m.graph.Launched m.root p.launch (m.graph.above m.root (0 :: j :: q)) ∨
                  SharedField p (m.graph.variable' v) ∧
                    name ∉ [Graph.moduleBody, "__init__", "__new__", path.stem])) := by
  obtain ⟨comments, t, b, h⟩ := Source.exists_laidOut hload hbody
  have hsource := Source.fromSource_of_load hload
  obtain ⟨p, hshared, hmaps, hconcurrent, hlaunch, rfl⟩ := build_eq_ok hr
  obtain ⟨nodes, hsublist, hnodup, hmem, hfindings⟩ :=
    reported_rule_at hsource.linked Registry.sharedMap.description s.severity p phrases
  obtain ⟨module, typeInfo, hmodule, htype, hkind, hstem, own, hown, hmethods⟩ :=
    Source.methods_of_laidOut h
  refine ⟨p, hshared, hmaps, hconcurrent, hlaunch, nodes, hsublist, hnodup, hfindings, module, own,
    hmodule, hown, hmethods, fun j d l name hj hd q n hq => ?_⟩
  obtain ⟨-, info, hinfo, hmethod, rfl⟩ := Graph.method?_eq_some hd
  have hat : m.graph.at? m.root [0, j] = some d :=
    (Graph.at?_snoc_eq_some (p := [0])).mpr ⟨module, hmodule, hj⟩
  have hplace : m.graph.at? m.root (0 :: j :: q) = some n := by
    rw [show (0 :: j :: q) = [0, j] ++ q from rfl, Graph.at?_append, hat, Option.bind_some, hq]
  have hname : Source.IsName info.name ∨ info.name = Graph.moduleBody :=
    ((hsource.names _ d hat).method ((Graph.declaration?_eq _ _).symm.trans hinfo) hmethod).imp_right
      And.left
  rw [hmem _ n hplace, unguarded_iff_of_laidOut h hmodule htype hkind hstem hj hinfo hmethod hname hq]

/-- A module with two functions that write to one map. -/
def mainText : String := "M = {}\ndef main():\n    M['a'] = 1\ndef run():\n    M['b'] = 2\n"

/-- In a file with the name of the first function only the other one is reported. -/
theorem reported_mainText :
    ∃ m r nodes, load .empty [] mainText ⟨"", ["main.py"]⟩ = .ok m ∧
      Registry.sharedMap.build Registry.sharedMap.defaultSettings = .ok r ∧
      (7 ∉ nodes ∧ 14 ∈ nodes) ∧
      List.Forall₂ (fun n f => f.span = (m.graph.location n).span) nodes
        (r.evaluate [] m).findings := by
  have hchecks : (load .empty [] mainText ⟨"", ["main.py"]⟩).toOption.any fun m => decide
      ((m.root = 0 ∧ m.graph.at? 0 [0] = some 1) ∧
        ((m.graph.children 1)[1]? = some 4 ∧ (m.graph.method? 4).map (·.2) = some "main" ∧
          m.graph.at? 4 [0, 0, 0] = some 7 ∧
          m.graph.isConcurrent defaultPatterns.launch (some 0) 7 = false) ∧
        ((m.graph.children 1)[2]? = some 11 ∧ (m.graph.method? 11).map (·.2) = some "run" ∧
          m.graph.at? 11 [0, 0, 0] = some 14) ∧
        Exposed defaultPatterns [] m (m.graph.above 0 [0, 2, 0, 0, 0]) 14 0 ∧
        SharedField defaultPatterns (m.graph.variable' 0)) := by
    decide +kernel
  have hbody : (Source.Stmt.ofSource? .empty mainText).isSome := by decide +kernel
  obtain ⟨body, hbody⟩ := Option.isSome_iff_exists.mp hbody
  obtain ⟨m, hm, hchecks⟩ := Source.exists_load_of_any hchecks
  obtain ⟨⟨hroot, htop⟩, ⟨hmain, hmainName, hwrite, hcalm⟩, ⟨hrun, hrunName, hwrite'⟩, hexposed,
    hshared⟩ := of_decide_eq_true hchecks
  obtain ⟨p, hpatterns, hmaps, hconcurrent, hlaunch, nodes, -, -, hfindings, module, own, hmodule, -,
    -, hmem⟩ := reported_moduleFunction hm hbody (s := Registry.sharedMap.defaultSettings) rfl []
  obtain rfl := eq_defaultPatterns hpatterns hmaps hconcurrent hlaunch
  rw [hroot] at hmem hmodule
  obtain rfl : module = 1 := Option.some.inj (hmodule.symm.trans htop)
  obtain ⟨⟨l, _⟩, hmainMethod, rfl⟩ := Option.map_eq_some_iff.mp hmainName
  obtain ⟨⟨l', _⟩, hrunMethod, rfl⟩ := Option.map_eq_some_iff.mp hrunName
  refine ⟨m, _, nodes, hm, rfl, ⟨fun hnode => ?_, ?_⟩, hfindings.imp fun {_ _} hf => hf.2.2.2⟩
  · obtain ⟨v, -, hlaunched | ⟨-, hnot⟩⟩ :=
      (hmem 1 4 l _ hmain hmainMethod [0, 0, 0] 7 hwrite).mp hnode
    · have hat : m.graph.at? 0 [0, 1, 0, 0, 0] = some 7 := by
        rw [show [0, 1, 0, 0, 0] = [0] ++ [1] ++ [0, 0, 0] from rfl, Graph.at?_append,
          (Graph.at?_snoc_eq_some (p := [0])).mpr ⟨1, htop, hmain⟩, Option.bind_some, hwrite]
      have hrooted := (Source.fromSource_of_load hm).linked.rooted
      rw [hroot] at hrooted
      rw [← hrooted.isConcurrent_iff hat, hcalm] at hlaunched
      cases hlaunched
    · exact hnot (by decide)
  · refine (hmem 2 11 l' _ hrun hrunMethod [0, 0, 0] 14 hwrite').mpr ⟨0, hexposed, .inr ⟨hshared, ?_⟩⟩
    decide

/-- A module with a function that writes to a map. -/
def startText : String := "M = {}\ndef main():\n    M['a'] = 1\n"

/-- In a file with the name of the function nothing is reported, though the access is unguarded. -/
theorem not_reported_startText :
    ∃ m r module d l j q n v, load .empty Configuration.standard.lockPatterns startText ⟨"", ["main.py"]⟩ =
        .ok m ∧
      Registry.sharedMap.build Registry.sharedMap.defaultSettings = .ok r ∧
      m.graph.at? m.root [0] = some module ∧ (m.graph.children module)[j]? = some d ∧
      m.graph.method? d = some (l, "main") ∧ m.graph.at? d q = some n ∧
      Exposed defaultPatterns Configuration.standard.phrases m
        (m.graph.above m.root (0 :: j :: q)) n v ∧
      SharedField defaultPatterns (m.graph.variable' v) ∧
      (r.evaluate Configuration.standard.phrases m).findings = [] ∧
      (r.evaluate Configuration.standard.phrases m).diagnostics = [] := by
  have hchecks : (load .empty Configuration.standard.lockPatterns startText ⟨"", ["main.py"]⟩).toOption.any
      fun m => decide (m.graph.at? m.root [0] = some 1 ∧ (m.graph.children 1)[1]? = some 4 ∧
        (m.graph.method? 4).map (·.2) = some "main" ∧ m.graph.at? 4 [0, 0, 0] = some 7 ∧
        Exposed defaultPatterns Configuration.standard.phrases m
          (m.graph.above m.root [0, 1, 0, 0, 0]) 7 0 ∧
        SharedField defaultPatterns (m.graph.variable' 0) ∧
        ((rule Registry.sharedMap.description .error defaultPatterns).evaluate
          Configuration.standard.phrases m).findings.map (·.span) = [] ∧
        ((rule Registry.sharedMap.description .error defaultPatterns).evaluate
          Configuration.standard.phrases m).diagnostics.isEmpty) := by
    decide +kernel
  obtain ⟨m, hm, hchecks⟩ := Source.exists_load_of_any hchecks
  obtain ⟨hmodule, hj, hname, hq, hexposed, hshared, hfindings, hdiagnostics⟩ :=
    of_decide_eq_true hchecks
  obtain ⟨⟨l, _⟩, hmethod, rfl⟩ := Option.map_eq_some_iff.mp hname
  exact ⟨m, _, 1, 4, l, 1, [0, 0, 0], 7, 0, hm, rfl, hmodule, hj, hmethod, hq, hexposed, hshared,
    List.map_eq_nil_iff.mp hfindings, List.isEmpty_iff.mp hdiagnostics⟩

end SharedMap

end ModelLint
