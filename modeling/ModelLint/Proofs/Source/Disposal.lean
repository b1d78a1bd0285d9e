import ModelLint.Configuration
import ModelLint.Proofs.Rules.ResourceDisposal
import ModelLint.Proofs.Source.Layers
import ModelLint.Proofs.Source.Nesting

/-!
# Resources of sources

A local variable is mentioned in its function, but for one thing. A class that the function defines
stands at the top of the unit, and what it does with the variable is done outside of the function.

* `StandsApart`: a node stands in a type or in a field that another one does not stand in.
* `ModuleBuilt.below_or_apart`: where a local variable of a function is mentioned.
* `ModuleBuilt.leaks_iff`: a release is overlooked exactly if it stands apart.
* **`reported_iff_released_apart`**: a declaration of a source is reported if it acquires a resource
  and all releases of the variable stand apart.
-/

namespace ModelLint.Source

open ResourceDisposal (Acquires Around Leaks LocalsOnly Releases Searched)
open ModelLint.Tree (HasFunction InFunction)

variable {named : Text.CharacterNames} {source : String} {comments : List (Int × String)}
  {locks : List String} {path : Path}
  {m : Model} {t f b : Tree} {s : Building} {calm : Prop} {p q place : Graph.Place}
  {d n : NodeId} {v : VariableId} {initializer : Option NodeId}

/-- **What stands at the end of the first path stands apart** from what stands at the end of the
second one: the first path goes through a type or a field that is not on the second one. -/
def StandsApart (g : Graph) (path path' : List NodeId) : Prop :=
  ∃ a ∈ path, (g.Declares .type a ∨ g.Declares .field a) ∧ a ∉ path'

/-- The unit of a source shows a tree with all that is known of such trees. -/
theorem exists_built (hload : load named locks source path = .ok m) :
    ∃ comments calm t s, ModuleBuilt IsName calm t s ∧ t.All Shape.Layered ∧
      m.Shows s.vars (unitOf path comments t) := by
  obtain ⟨body, comments, h⟩ := accepted_of_load hload
  obtain ⟨t, s, ht, hlink⟩ := h.exists_run hload
  have hbuilt := h.moduleBuilt ht
  exact ⟨comments, _, t, s, hbuilt, ((gives_moduleNode _ Building.layered_start).of_ok ht).1,
    Model.shows_ofTree (fun v hv => hbuilt.lt_size hv) rfl hlink⟩

/-! ## Members of the module -/

theorem Sound.declares {vars : Array Variable} {shape : Shape Tree} (h : Sound vars IsName shape)
    (houtermost : shape.isOutermost) (hfunction : ¬ shape.IsFunction) :
    ∃ info, shape.declared? = some info ∧ (info.kind = .type ∨ info.kind = .field) := by
  rcases shape with _ | ⟨info, _, _, _⟩ | _ | _ | _ | _ | _ | _ | _ | _ | _ | _ | _ | _ | _ | _ | _ |
    _ | _ | _ | _ | _ <;> try cases houtermost
  case sourceUnit => exact h.elim
  case declaration =>
    refine ⟨info, rfl, ?_⟩
    rcases hkind : info.kind with _ | _ | _
    · exact .inl rfl
    · exact absurd hkind hfunction
    · exact .inr rfl

section Places

variable (h : ModuleBuilt IsName calm t s)

include h

/-- What is no declaration, or is a function, stands in a member of the module. -/
theorem ModuleBuilt.exists_member (hb : (unitOf path comments t).at? q = some b)
    (hinner : b.shape.isOutermost = false ∨ b.shape.IsFunction) :
    ∃ i r c, q = 0 :: i :: r ∧ t.children[i]? = some c ∧ c.at? r = some b := by
  rcases q with _ | ⟨k, q⟩
  · cases hb
    rcases hinner with hinner | hinner
    · cases hinner
    · exact hinner.elim
  obtain ⟨t', ht', hbelow⟩ := Tree.at?_cons_eq_some.mp hb
  obtain ⟨rfl, rfl⟩ : k = 0 ∧ t' = t := by
    have heq := eq_of_mem_children_unitOf (List.mem_of_getElem? ht')
    have hlt := (List.getElem?_eq_some_iff.mp ht').1
    simp only [unitOf, Tree.children_node, Shape.children, Shape.slots] at hlt
    exact ⟨by simpa using hlt, heq⟩
  rcases q with _ | ⟨i, r⟩
  · cases hbelow
    rcases hinner with hinner | hinner
    · rw [h.outermost] at hinner
      cases hinner
    · exact absurd hinner h.notFunction
  · obtain ⟨c, hc, hr⟩ := Tree.at?_cons_eq_some.mp hbelow
    exact ⟨i, r, c, rfl, hc, hr⟩

/-- **A local variable of a function is mentioned below the function**, or in another member of the
module, which is a type or a field. -/
theorem ModuleBuilt.below_or_apart (hf : (unitOf path comments t).at? p = some f)
    (hfunction : f.shape.IsFunction) (hv : 0 < f.sum (Shape.introductions v))
    (hlocal : IsLocal s.vars v) (hb : (unitOf path comments t).at? q = some b)
    (hmention : b.shape.mention? = some v) :
    p <+: q ∨ ∃ i j r r' c info, p = 0 :: i :: r ∧ q = 0 :: j :: r' ∧ i ≠ j ∧ r' ≠ [] ∧
      (unitOf path comments t).at? [0, j] = some c ∧ c.shape.declared? = some info ∧
        (info.kind = .type ∨ info.kind = .field) := by
  have hinner : b.shape.isOutermost = false := by
    revert hmention
    cases b.shape <;> simp [Shape.mention?, Shape.isOutermost]
  obtain ⟨i, p, c, rfl, hc, hf⟩ := h.exists_member hf (.inr hfunction)
  obtain ⟨j, q, c', rfl, hc', hb⟩ := h.exists_member hb (.inl hinner)
  have hmem : c ∈ t.children := List.mem_of_getElem? hc
  have hmem' : c' ∈ t.children := List.mem_of_getElem? hc'
  by_cases hij : i = j
  · subst hij
    cases hc.symm.trans hc'
    left
    have heq := h.confined c hmem f ⟨hfunction, c, List.mem_singleton_self c, p, hf⟩ v hlocal hv
    simpa using Tree.isPrefix_of_mention hf heq hb hmention
  · right
    have hmentions : 0 < c'.sum (Shape.mentions v) :=
      Tree.sum_pos_iff.mpr ⟨q, b, hb, by simp [Shape.mentions, hmention]⟩
    have hmethod : ¬ c'.shape.IsFunction := by
      -- the variable would be introduced in two members
      intro hmethod
      have hin : InFunction t.children v := ⟨f, ⟨hfunction, c, hmem, p, hf⟩, hv⟩
      have hpos := h.methods c' hmem' hmethod v hlocal hmentions hin
      have hpos' := Nat.lt_of_lt_of_le hv (Tree.sum_le_of_at? (f := Shape.introductions v) hf)
      have hbalance := h.balance v
      have hle : s.born v ≤ 1 := born_le_one _ v
      have hsum : c.sum (Shape.introductions v) + c'.sum (Shape.introductions v) ≤
          Tree.sums (Shape.introductions v) t.children := by
        rcases Nat.lt_or_gt_of_ne hij with hlt | hlt
        · exact Tree.add_le_sums hlt hc hc'
        · rw [Nat.add_comm]
          exact Tree.add_le_sums hlt hc' hc
      rw [Tree.sum_eq] at hbalance
      omega
    have hat : t.at? [j] = some c' := Tree.at?_cons_eq_some.mpr ⟨c', hc', rfl⟩
    obtain ⟨info, hinfo, hkind⟩ := (h.sound [j] c' hat).declares (h.members c' hmem') hmethod
    refine ⟨i, j, p, q, c', info, rfl, rfl, hij, ?_, ?_, hinfo, hkind⟩
    · rintro rfl
      cases hb
      rw [h.members _ hmem'] at hinner
      cases hinner
    · exact Tree.at?_cons_eq_some.mpr ⟨t, rfl, hat⟩

end Places

/-! ## Releases -/

theorem layered_unitOf (houtermost : t.shape.isOutermost) (h : t.All Shape.Layered) :
    (unitOf path comments t).All Shape.Layered := by
  refine Tree.all_iff.mpr ⟨⟨fun hinner => ?_, fun _ _ c hc => ?_⟩, fun c hc => ?_⟩
  · rcases hinner with hinner | hinner
    · cases hinner
    · exact hinner.elim
  · rw [eq_of_mem_children_unitOf hc]
    simp [Shape.isStatement, houtermost]
  · rw [eq_of_mem_children_unitOf hc]
    exact h

section Units

variable (h : ModuleBuilt IsName calm t s) (hm : m.Shows s.vars (unitOf path comments t))

include h hm

theorem ModuleBuilt.hasKind_localVar (hd : m.graph.at? m.root place = some d)
    (hshape : m.graph.shape d = .varDeclaration v initializer) :
    HasKind s.vars (· = .localVar) v := by
  obtain ⟨t', ht', hlabel⟩ := hm.exists_tree _ _ hd
  obtain ⟨initializer', hshape'⟩ := Shape.eq_varDeclaration_of_label hlabel hshape
  rcases h.sound_at? ht' with rfl | hsound
  · cases hshape'
  · rw [hshape'] at hsound
    exact hsound

theorem ModuleBuilt.localsOnly : LocalsOnly m := by
  intro place d v initializer hd hshape
  obtain ⟨var, hvar, hkind⟩ := h.hasKind_localVar hm hd hshape
  have heq := congrArg Variable.kind (hm.variable_eq v var hvar)
  exact heq.trans hkind

variable (hlayered : t.All Shape.Layered)

include hlayered

/-- **A local variable is mentioned in the innermost function around its declaration**, or apart from
the declaration. -/
theorem ModuleBuilt.exists_region (hd : m.graph.at? m.root place = some d)
    (hshape : m.graph.shape d = .varDeclaration v initializer) :
    ∃ region, Around m.graph (m.graph.above m.root place) region ∧
      ∀ q a, m.graph.at? m.root q = some a → m.graph.mentioned? a = some v →
        region ∈ m.graph.above m.root q ∨
          StandsApart m.graph (m.graph.above m.root q) (m.graph.above m.root place) := by
  have hrooted := hm.linked.rooted
  have hstatement : (m.graph.shape d).isStatement = true := by
    rw [hshape]
    rfl
  have hcalm : (unitOf path comments t).All Shape.Calm :=
    (layered_unitOf h.outermost hlayered).mono fun _ hs => hs.2
  obtain ⟨region, haround⟩ :=
    ResourceDisposal.exists_around (hm.exists_function hcalm rfl hd hstatement)
  refine ⟨region, haround, fun q a ha hmention => ?_⟩
  obtain ⟨before, hfunction, after, heq, -⟩ := haround
  obtain ⟨p, i, r, rfl, hp, -⟩ := Graph.split_above hd heq
  obtain ⟨f, hf, hlabel⟩ := hm.exists_tree _ _ hp
  obtain ⟨b, hb, hlabel'⟩ := hm.exists_tree _ _ ha
  have hbelow : m.graph.at? region (i :: r) = some d := by
    rwa [Graph.at?_append, hp, Option.bind_some] at hd
  have hintroduced : v ∈ (m.graph.shape d).introduced := by
    rw [hshape]
    exact List.mem_singleton_self v
  have hv := hm.introduced hp hf hbelow hintroduced
  have hlocal : IsLocal s.vars v := by
    rintro ⟨var, hvar, hfield⟩
    obtain ⟨var', hvar', hkind⟩ := h.hasKind_localVar hm hd hshape
    cases hvar.symm.trans hvar'
    rw [hfield] at hkind
    cases hkind
  have hfunction' : f.shape.IsFunction := by
    rwa [← Shape.isFunction_label, ← hlabel, Shape.isFunction_label]
  have hmention' : b.shape.mention? = some v := by
    rwa [← Shape.mention?_label, ← hlabel', Shape.mention?_label, ← Graph.mentioned?_eq]
  rcases h.below_or_apart hf hfunction' hv hlocal hb hmention' with
    hprefix | ⟨i', j, r', r'', c, info, rfl, rfl, hij, hr', hc, hinfo, hkind⟩
  · left
    refine Graph.mem_above_of_isPrefix hp hprefix ?_
    rintro rfl
    cases ha.symm.trans hp
    rw [Graph.mentioned?_eq] at hmention
    revert hfunction hmention
    cases m.graph.shape region <;> simp [Shape.mention?, Shape.IsFunction]
  · right
    obtain ⟨k, hk, hlabel''⟩ := hm.exists_node _ _ hc
    have hdeclares := Graph.declares_of_label hlabel'' hinfo
    refine ⟨k, Graph.mem_above_of_isPrefix hk (by simp) (by simpa using hr'.symm), ?declares,
      fun hmem => ?_⟩
    case declares =>
      rcases hkind with hkind | hkind
      · exact .inl (hkind ▸ hdeclares)
      · exact .inr (hkind ▸ hdeclares)
    obtain ⟨before', after', heq'⟩ := List.append_of_mem hmem
    obtain ⟨q, i'', r''', hplace, hq, -⟩ := Graph.split_above hd heq'
    obtain rfl : q = [0, j] := hrooted.place_unique _ _ k hq hk
    simp only [List.cons_append, List.nil_append, List.cons.injEq, true_and] at hplace
    exact hij hplace.1

omit h in
theorem not_declares_of_function (houtermost : t.shape.isOutermost) {region k : NodeId}
    (hp : m.graph.at? m.root p = some region) (hfunction : (m.graph.shape region).IsFunction)
    (hq : m.graph.at? region q = some n) (hk : k ∈ m.graph.above region q) :
    ¬ (m.graph.Declares .type k ∨ m.graph.Declares .field k) := by
  obtain ⟨before, after, heq⟩ := List.append_of_mem hk
  obtain ⟨q', i, r, rfl, hq', -⟩ := Graph.split_above hq heq
  have hdeclares : ∀ kind, m.graph.Declares kind k → kind = .method := by
    rintro kind ⟨info, hinfo, rfl⟩
    rw [Graph.declaration?_eq] at hinfo
    rcases q' with _ | ⟨j, q'⟩
    · cases hq'
      exact hfunction.kind_eq hinfo
    · obtain ⟨f, hf, hlabel⟩ := hm.exists_tree _ _ hp
      rw [← Shape.isFunction_label, hlabel, Shape.isFunction_label] at hfunction
      have hat : m.graph.at? m.root (p ++ j :: q') = some k := by
        rw [Graph.at?_append, hp, Option.bind_some, hq']
      obtain ⟨c, hc, hlabel'⟩ := hm.exists_tree _ _ hat
      rw [Tree.at?_append hf] at hc
      have hall : f.All Shape.Layered := fun r' c' hc' =>
        layered_unitOf houtermost hlayered (p ++ r') c' (by rw [Tree.at?_append hf, hc'])
      have hinner := Tree.not_isOutermost_of_isFunction hall hfunction hc
      rw [← Shape.declared?_label, hlabel', Shape.declared?_label] at hinfo
      rw [Shape.isOutermost_of_declared? hinfo] at hinner
      cases hinner
  rintro (htype | hfield)
  · cases hdeclares _ htype
  · cases hdeclares _ hfield

/-- **A release is overlooked exactly if it stands apart** from the declaration. -/
theorem ModuleBuilt.leaks_iff (hd : m.graph.at? m.root place = some d)
    {p : ResourceDisposal.Patterns} {phrases : List String} :
    Leaks p phrases m (m.graph.above m.root place) d v ↔ Acquires p phrases m d v ∧
      ∀ q n, m.graph.at? m.root q = some n → Releases m.graph p.release v n →
        StandsApart m.graph (m.graph.above m.root q) (m.graph.above m.root place) := by
  have hrooted := hm.linked.rooted
  constructor
  · rintro ⟨hacquires, region, hsearched, hnone⟩
    refine ⟨hacquires, fun q n hn hreleases => ?_⟩
    obtain ⟨e, hshape, -⟩ := hacquires.acquisition
    obtain ⟨region', haround, hmentioned⟩ := h.exists_region hm hlayered hd hshape
    obtain ⟨scope, -, -, hregion⟩ := ResourceDisposal.exists_scope hm.linked hd hshape
    obtain rfl : region = region' :=
      ((hregion region).mpr hsearched).symm.trans ((hregion region').mpr (.inl haround))
    obtain ⟨before, -, after, heq, -⟩ := haround
    obtain ⟨p', i, r, -, hp', -⟩ := Graph.split_above hd heq
    -- the mention stands right below the release
    obtain ⟨a, ha, hmention⟩ := hreleases.exists_child
    obtain ⟨j, hj⟩ := List.mem_iff_getElem?.mp ha
    have hbelow := hmentioned (q ++ [j]) a (Graph.at?_snoc_eq_some.mpr ⟨n, hn, hj⟩) hmention
    rw [Graph.above_snoc hn] at hbelow
    rcases hbelow with hbelow | ⟨k, hk, hdeclares, hnot⟩
    · rw [List.mem_append, List.mem_singleton] at hbelow
      have hmem := (hrooted.mem_preorder_iff_above hp' hn).mpr (hbelow.symm.imp_left Eq.symm)
      exact absurd hreleases (hnone n hmem)
    · refine ⟨k, (List.mem_append.mp hk).resolve_right fun hlast => ?_, hdeclares, hnot⟩
      obtain rfl := List.mem_singleton.mp hlast
      exact hdeclares.elim hreleases.not_declares hreleases.not_declares
  · rintro ⟨hacquires, hapart⟩
    obtain ⟨e, hshape, -⟩ := hacquires.acquisition
    obtain ⟨region, haround, -⟩ := h.exists_region hm hlayered hd hshape
    refine ⟨hacquires, region, .inl haround, fun n hn hreleases => ?_⟩
    obtain ⟨before, hfunction, after, heq, -⟩ := haround
    obtain ⟨p', i, r, rfl, hp', -⟩ := Graph.split_above hd heq
    obtain ⟨q, hq⟩ := (hrooted.mem_preorder_iff hp').mp hn
    have hat : m.graph.at? m.root (p' ++ q) = some n := by
      rw [Graph.at?_append, hp', Option.bind_some, hq]
    obtain ⟨k, hk, hdeclares, hnot⟩ := hapart (p' ++ q) n hat hreleases
    rw [Graph.above_append hp'] at hk hnot
    rcases List.mem_append.mp hk with hk | hk
    · exact hnot (List.mem_append_left _ hk)
    · exact not_declares_of_function hm hlayered h.outermost hp' hfunction hq hk hdeclares

end Units

/-- **A declaration of a source is reported if it acquires a resource and all releases stand apart**,
whatever the settings and the phrases that suppress. So a release in the function around the
declaration is seen wherever it stands there, in another function included. -/
theorem reported_iff_released_apart (hload : load named locks source path = .ok m) {s : RuleSettings}
    {r : Rule} (hr : Registry.resourceDisposal.build s = .ok r) (phrases : List String) :
    LocalsOnly m ∧ ∃ p : ResourceDisposal.Patterns,
      s.pattern? "resource_types" = some p.resourceTypes ∧
      s.pattern? "release_methods" = some p.release ∧
      ∃ nodes : List NodeId, nodes.Sublist m.nodes ∧ nodes.Nodup ∧
        (∀ d, d ∈ nodes ↔ ∃ place v, m.graph.at? m.root place = some d ∧
          Acquires p phrases m d v ∧
          ∀ q n, m.graph.at? m.root q = some n → Releases m.graph p.release v n →
            StandsApart m.graph (m.graph.above m.root q) (m.graph.above m.root place)) ∧
        List.Forall₂ (fun d f => f.ruleId = ResourceDisposal.ruleId ∧ f.severity = some s.severity ∧
            f.path = m.info.path ∧ f.span = (m.graph.location d).span) nodes
          (r.evaluate phrases m).findings := by
  obtain ⟨comments, calm, t, b, h, hlayered, hm⟩ := exists_built hload
  have hlocals := h.localsOnly hm
  obtain ⟨p, htypes, hrelease, rfl⟩ := ResourceDisposal.build_eq_ok hr
  obtain ⟨nodes, hsublist, hnodup, hmem, hfindings⟩ := ResourceDisposal.reported_rule hm.linked hlocals
    Registry.resourceDisposal.description s.severity p phrases
  refine ⟨hlocals, p, htypes, hrelease, nodes, hsublist, hnodup, fun d => ?_, hfindings⟩
  rw [hmem]
  constructor
  · rintro ⟨place, v, hd, hleaks⟩
    exact ⟨place, v, hd, (h.leaks_iff hm hlayered hd).mp hleaks⟩
  · rintro ⟨place, v, hd, hleaks⟩
    exact ⟨place, v, hd, (h.leaks_iff hm hlayered hd).mpr hleaks⟩

/-- A function with two files. The first one is closed in a function inside, the second one in none. -/
def filesText : String :=
  "def f():\n    a = open('a')\n    b = open('b')\n    def close():\n        a.close()\n    return close\n"

/-- Of the two declarations the second one is reported, and no release of its variable stands in the
function. -/
theorem reported_filesText :
    ∃ m r p place d v f, load .empty [] filesText ⟨"", ["m.py"]⟩ = .ok m ∧
      Registry.resourceDisposal.build Registry.resourceDisposal.defaultSettings = .ok r ∧
      (r.evaluate [] m).findings = [f] ∧ f.span = (m.graph.location d).span ∧
      f.message = "Resource 'b' of type 'TextIOWrapper' is never disposed or closed; " ++
        "acquire it in a using/with block or release it explicitly" ∧
      m.graph.at? m.root place = some d ∧ Acquires p [] m d v ∧
      ∀ q n, m.graph.at? m.root q = some n → Releases m.graph p.release v n →
        StandsApart m.graph (m.graph.above m.root q) (m.graph.above m.root place) := by
  have hmessages : (load .empty [] filesText ⟨"", ["m.py"]⟩).toOption.any fun m =>
      (Registry.resourceDisposal.build Registry.resourceDisposal.defaultSettings).toOption.any fun r =>
        decide ((r.evaluate [] m).findings.map (·.message) =
          ["Resource 'b' of type 'TextIOWrapper' is never disposed or closed; " ++
            "acquire it in a using/with block or release it explicitly"]) := by
    decide +kernel
  obtain ⟨m, hm, hmessages⟩ := exists_load_of_any hmessages
  have hbuild : Registry.resourceDisposal.build Registry.resourceDisposal.defaultSettings = .ok _ :=
    rfl
  obtain ⟨f, hfindings, hmessage⟩ := List.map_eq_singleton_iff.mp (of_decide_eq_true hmessages)
  obtain ⟨-, p, -, -, nodes, -, -, hmem, hreported⟩ := reported_iff_released_apart hm hbuild []
  rw [hfindings] at hreported
  cases hreported with
  | cons hd hnil =>
    next d rest =>
      obtain ⟨place, v, hplace, hacquires, hapart⟩ := (hmem d).mp List.mem_cons_self
      exact ⟨m, _, p, place, d, v, f, hm, hbuild, hfindings, hd.2.2.2, hmessage, hplace, hacquires,
        hapart⟩

/-- A function with a file that the method of a class inside closes. -/
def capturedText : String :=
  "def f():\n    s = open('x')\n    class C:\n        def m(self):\n            s.close()\n    return C\n"

/-- The patterns of the rule where none are configured. -/
def defaultPatterns : ResourceDisposal.Patterns :=
  let patterns := fun key => (Registry.resourceDisposal.defaultSettings.pattern? key).getD []
  ⟨patterns "resource_types", patterns "release_methods"⟩

/-- A node of the unit releases the variable, and its declaration is reported where nothing is
configured. -/
theorem reported_capturedText :
    ∃ m r place d v initializer q n f,
      load .empty Configuration.standard.lockPatterns capturedText ⟨"", ["m.py"]⟩ = .ok m ∧
      Registry.resourceDisposal.build Registry.resourceDisposal.defaultSettings = .ok r ∧
      m.graph.at? m.root place = some d ∧ m.graph.shape d = .varDeclaration v initializer ∧
      m.graph.at? m.root q = some n ∧ Releases m.graph defaultPatterns.release v n ∧
      f ∈ (r.evaluate Configuration.standard.phrases m).findings ∧
      f.span = (m.graph.location d).span := by
  have hchecks : (load .empty Configuration.standard.lockPatterns capturedText ⟨"", ["m.py"]⟩).toOption.any
      fun m => decide (m.graph.at? m.root [0, 0, 0] = some 3 ∧
        (m.graph.shape 3).kindName = "VariableDeclaration" ∧ (m.graph.shape 3).introduced = [0] ∧
        m.graph.at? m.root [0, 1, 0, 0, 0] = some 12 ∧
        ResourceDisposal.releases m.graph defaultPatterns.release 0 12 = true ∧
        ((ResourceDisposal.rule Registry.resourceDisposal.description .warning defaultPatterns).evaluate
          Configuration.standard.phrases m).findings.map (·.span) =
            [(m.graph.location 3).span]) := by
    decide +kernel
  obtain ⟨m, hm, hchecks⟩ := exists_load_of_any hchecks
  obtain ⟨hd, hkind, hintroduced, hn, hreleases, hspans⟩ := of_decide_eq_true hchecks
  obtain ⟨initializer, hshape⟩ : ∃ initializer, m.graph.shape 3 = .varDeclaration 0 initializer := by
    revert hkind hintroduced
    cases m.graph.shape 3 <;> simp [Shape.kindName, Shape.introduced]
  obtain ⟨f, hf, hspan⟩ := List.mem_map.mp (hspans ▸ List.mem_singleton_self _)
  exact ⟨m, _, [0, 0, 0], 3, 0, initializer, [0, 1, 0, 0, 0], 12, f, hm, rfl, hd, hshape, hn,
    ResourceDisposal.releases_iff.mp hreleases, hf, hspan⟩

end ModelLint.Source
