import ModelLint.Proofs.Document.Loading
import ModelLint.Proofs.Rules.ResourceDisposal

/-!
# Resources of documents

The scopes of a document end with the functions they belong to. So it makes no difference for a
document that a release is looked for in one function only.

* `UnitBuilt.exists_region`: a variable is mentioned only in the innermost function around its
  declaration.
* **`reported_iff_released_nowhere`**: a declaration of a document is reported if it acquires a
  resource and no node of the unit releases the variable.
-/

namespace ModelLint.Document

open ResourceDisposal (Acquires Around Leaks LocalsOnly Releases Searched)

variable {t : Tree} {vars : Array Variable} {m : Model} {place : Graph.Place} {d o : NodeId}
  {v : VariableId} {initializer : Option NodeId}

/-- The unit of a document shows a tree with all that is known of such trees. -/
theorem exists_built {document : Value} {path : Option Path} (h : load document path = .ok m) :
    ∃ t vars, UnitBuilt t vars ∧ m.Shows vars t := by
  cases document with
  | map fields =>
    rcases hp : pathOf fields path with e | p
    · rw [load, hp] at h
      cases h
    · rw [load_map hp] at h
      rcases tree_spec fields p with ⟨t, vars, htree, hbuilt⟩ | ⟨e, htree, -⟩
      · obtain ⟨m', hm', hshows⟩ := hbuilt.exists_model
        rw [htree] at h
        simp only [Except.bind, hm', Except.ok.injEq] at h
        exact ⟨t, vars, hbuilt, h ▸ hshows⟩
      · rw [htree] at h
        cases h
  | _ => cases h

section Places

variable (h : UnitBuilt t vars) (hm : m.Shows vars t) (hd : m.graph.at? m.root place = some d)
  (hshape : m.graph.shape d = .varDeclaration v initializer)

include h hm hd hshape

theorem UnitBuilt.kind_eq_localVar : (m.graph.variable' v).kind = .localVar := by
  obtain ⟨t', ht', hlabel⟩ := hm.exists_tree _ _ hd
  obtain ⟨initializer', hshape'⟩ := Shape.eq_varDeclaration_of_label hlabel hshape
  have hproper := (h.sound _ _ ht').proper
  rw [hshape'] at hproper
  obtain ⟨var, hvar, hkind⟩ := hproper
  have heq := congrArg Variable.kind (hm.variable_eq v var hvar)
  exact heq.trans hkind

theorem UnitBuilt.mem_resources {resources : List NodeId} {body : Option NodeId}
    (howner : m.graph.owner d = some o) (ho : m.graph.shape o = .usingStatement resources body) :
    d ∈ resources := by
  rcases List.eq_nil_or_concat' place with rfl | ⟨q, i, rfl⟩
  · obtain ⟨g, -, hroot, ⟨info, declarations, hunit⟩, hlink⟩ := hm.linked
    cases hd
    have hskeleton := Graph.sameSkeleton_link g m.root
    rw [hlink] at hskeleton
    rw [hskeleton.shape_eq, hunit] at hshape
    cases hshape
  · obtain ⟨o', ho', hi⟩ := Graph.at?_snoc_eq_some.mp hd
    cases (hm.linked.rooted.owner_snoc ho' hd).symm.trans howner
    have hchildren : m.graph.children o = resources ++ body.toList := by
      rw [Graph.children, ho]
      simp [Shape.children, Shape.slots]
    rw [hchildren, List.getElem?_append] at hi
    split at hi
    · exact List.mem_of_getElem? hi
    · next hlt =>
      -- the tree has a block in place of the body, and no declaration
      rcases body with _ | b
      · simp at hi
      obtain ⟨t', ht', hlabel⟩ := hm.exists_tree _ _ ho'
      obtain ⟨resources', body', hshape', hlength, hbody⟩ :=
        Shape.eq_usingStatement_of_label hlabel ho
      obtain ⟨b', rfl⟩ : ∃ b', body' = some b' := Option.isSome_iff_exists.mp hbody
      have hproper := (h.sound _ _ ht').proper
      rw [hshape'] at hproper
      obtain ⟨statements, hblock⟩ := hproper
      obtain ⟨c, hc, hlabel'⟩ := hm.exists_tree _ _ hd
      obtain ⟨initializer', hdeclaration⟩ := Shape.eq_varDeclaration_of_label hlabel' hshape
      rw [Tree.at?_append ht'] at hc
      obtain ⟨b'', hb'', hnil⟩ := Tree.at?_cons_eq_some.mp hc
      cases hnil
      have hlast : i = resources'.length := by
        have := (List.getElem?_eq_some_iff.mp hi).1
        simp only [Option.toList_some, List.length_singleton] at this
        omega
      have hchildren' : t'.children = resources' ++ [b'] := by
        rw [Tree.children, hshape']
        simp [Shape.children, Shape.slots]
      rw [hchildren', hlast, List.getElem?_concat_length] at hb''
      cases hb''
      rw [hblock] at hdeclaration
      cases hdeclaration

/-- **A variable is mentioned only in the innermost function around its declaration.** -/
theorem UnitBuilt.exists_region : ∃ region, Around m.graph (m.graph.above m.root place) region ∧
    ∀ q a, m.graph.at? m.root q = some a → m.graph.mentioned? a = some v →
      region ∈ m.graph.above m.root q := by
  obtain ⟨info, declarations, hunit⟩ := h.unit
  have hstatement : (m.graph.shape d).isStatement = true := by
    rw [hshape]
    rfl
  have hroot : t.shape.isStatement = false := by
    rw [hunit]
    rfl
  obtain ⟨region, haround⟩ := ResourceDisposal.exists_around
    (hm.exists_function (h.sound.mono fun _ hs => hs.calm) hroot hd hstatement)
  refine ⟨region, haround, fun q a ha hmention => ?_⟩
  obtain ⟨before, hfunction, after, heq, -⟩ := haround
  obtain ⟨p, i, r, rfl, hp, -⟩ := Graph.split_above hd heq
  rw [Graph.at?_append, hp, Option.bind_some] at hd
  rw [Graph.mentioned?_eq] at hmention
  have hprefix := hm.isPrefix_of_mention h.confined hp hfunction hd
    (v := v) (by rw [hshape]; exact List.mem_singleton_self v) ha hmention
  refine Graph.mem_above_of_isPrefix hp hprefix ?_
  rintro rfl
  cases ha.symm.trans hp
  revert hfunction hmention
  cases m.graph.shape region <;> simp [Shape.mention?, Shape.IsFunction]

end Places

theorem UnitBuilt.localsOnly (h : UnitBuilt t vars) (hm : m.Shows vars t) : LocalsOnly m :=
  fun _ _ _ _ hd hshape => h.kind_eq_localVar hm hd hshape

/-- In the unit of a document a release may stand anywhere. -/
theorem UnitBuilt.leaks_iff (h : UnitBuilt t vars) (hm : m.Shows vars t)
    (hd : m.graph.at? m.root place = some d) {p : ResourceDisposal.Patterns} {phrases : List String} :
    Leaks p phrases m (m.graph.above m.root place) d v ↔ Acquires p phrases m d v ∧
      ∀ q n, m.graph.at? m.root q = some n → ¬ Releases m.graph p.release v n := by
  have hrooted := hm.linked.rooted
  constructor
  · rintro ⟨hacquires, region, hsearched, hnone⟩
    refine ⟨hacquires, fun q n hn hreleases => ?_⟩
    obtain ⟨e, hshape, -⟩ := hacquires.acquisition
    obtain ⟨region', haround, hmentioned⟩ := h.exists_region hm hd hshape
    obtain ⟨scope, -, -, hregion⟩ := ResourceDisposal.exists_scope hm.linked hd hshape
    obtain rfl : region = region' :=
      ((hregion region).mpr hsearched).symm.trans ((hregion region').mpr (.inl haround))
    obtain ⟨before, -, after, heq, -⟩ := haround
    obtain ⟨p', i, r, -, hp', -⟩ := Graph.split_above hd heq
    -- the mention stands right below the release
    obtain ⟨a, ha, hmention⟩ := hreleases.exists_child
    obtain ⟨j, hj⟩ := List.mem_iff_getElem?.mp ha
    have hbelow := hmentioned (q ++ [j]) a (Graph.at?_snoc_eq_some.mpr ⟨n, hn, hj⟩) hmention
    rw [Graph.above_snoc hn, List.mem_append, List.mem_singleton] at hbelow
    exact hnone n ((hrooted.mem_preorder_iff_above hp' hn).mpr (hbelow.symm.imp_left Eq.symm)) hreleases
  · rintro ⟨hacquires, hnone⟩
    obtain ⟨e, hshape, -⟩ := hacquires.acquisition
    obtain ⟨region, haround, -⟩ := h.exists_region hm hd hshape
    obtain ⟨before, -, after, heq, -⟩ := id haround
    obtain ⟨p', i, r, -, hp', -⟩ := Graph.split_above hd heq
    refine ⟨hacquires, region, .inl haround, fun n hn => ?_⟩
    obtain ⟨q, hq⟩ := (hrooted.mem_preorder_iff hp').mp hn
    exact hnone (p' ++ q) n (by rw [Graph.at?_append, hp', Option.bind_some, hq])

/-- **A declaration of a document is reported if it acquires a resource that is released nowhere**,
whatever the settings and the phrases that suppress. The variable is mentioned only in the function
that the rule searches, which is the innermost one around the declaration, and what a scoped
acquisition declares right below itself is its resource. -/
theorem reported_iff_released_nowhere {document : Value} {path : Option Path}
    (hload : load document path = .ok m) {s : RuleSettings} {r : Rule}
    (hr : Registry.resourceDisposal.build s = .ok r) (phrases : List String) :
    (∀ place d v initializer, m.graph.at? m.root place = some d →
      m.graph.shape d = .varDeclaration v initializer →
        (∃ scope region, m.graph.declaringScope v = .ok scope ∧
          ResourceDisposal.releaseRegion m.graph scope = region ∧
          Around m.graph (m.graph.above m.root place) region ∧
          ∀ q a, m.graph.at? m.root q = some a → m.graph.mentioned? a = some v →
            region ∈ m.graph.above m.root q) ∧
        ∀ o resources body, m.graph.owner d = some o →
          m.graph.shape o = .usingStatement resources body → d ∈ resources) ∧
    ∃ p : ResourceDisposal.Patterns, s.pattern? "resource_types" = some p.resourceTypes ∧
      s.pattern? "release_methods" = some p.release ∧
      ∃ nodes : List NodeId, nodes.Sublist m.nodes ∧ nodes.Nodup ∧
        (∀ d, d ∈ nodes ↔ ∃ place v, m.graph.at? m.root place = some d ∧
          Acquires p phrases m d v ∧
          ∀ q n, m.graph.at? m.root q = some n → ¬ Releases m.graph p.release v n) ∧
        List.Forall₂ (fun d f => f.ruleId = ResourceDisposal.ruleId ∧ f.severity = some s.severity ∧
            f.path = m.info.path ∧ f.span = (m.graph.location d).span) nodes
          (r.evaluate phrases m).findings := by
  obtain ⟨t, vars, h, hm⟩ := exists_built hload
  constructor
  · intro place d v initializer hd hshape
    refine ⟨?_, fun o resources body howner ho => h.mem_resources hm hd hshape howner ho⟩
    obtain ⟨region, haround, hmentioned⟩ := h.exists_region hm hd hshape
    obtain ⟨scope, -, hscope, hregion⟩ := ResourceDisposal.exists_scope hm.linked hd hshape
    exact ⟨scope, region, hscope, (hregion region).mpr (.inl haround), haround, hmentioned⟩
  · obtain ⟨p, htypes, hrelease, rfl⟩ := ResourceDisposal.build_eq_ok hr
    obtain ⟨nodes, hsublist, hnodup, hmem, hfindings⟩ :=
      ResourceDisposal.reported_rule hm.linked (h.localsOnly hm)
        Registry.resourceDisposal.description s.severity p phrases
    refine ⟨p, htypes, hrelease, nodes, hsublist, hnodup, fun d => ?_, hfindings⟩
    rw [hmem]
    constructor
    · rintro ⟨place, v, hd, hleaks⟩
      exact ⟨place, v, hd, (h.leaks_iff hm hd).mp hleaks⟩
    · rintro ⟨place, v, hd, hleaks⟩
      exact ⟨place, v, hd, (h.leaks_iff hm hd).mpr hleaks⟩

/-- A mapping with texts as keys. -/
def object (entries : List (String × Value)) : Value :=
  .map (entries.map fun entry => (.str entry.1, entry.2))

/-- The document of a local variable that is set to a new stream. -/
def streamLocal (name : String) : Value :=
  object [("kind", .str "local"), ("name", .str name), ("type", .str "Stream"),
    ("value", object [("kind", .str "new"), ("type", .str "Stream")])]

/-- The document of a function with three streams: the first one is a resource, the second one is
closed in an anonymous function, and the third one in none. -/
def streamsDocument : Value :=
  object [("declarations", .list [object [("kind", .str "function"), ("name", .str "open"),
    ("body", .list [
      object [("kind", .str "using"), ("resources", .list [streamLocal "a"])],
      streamLocal "b",
      streamLocal "c",
      object [("kind", .str "expr"), ("expression", object [("kind", .str "lambda"),
        ("value", object [("kind", .str "call"), ("name", .str "Close"),
          ("target", object [("kind", .str "var"), ("name", .str "b")])])])]])]])]

/-- Of the three declarations the last one is reported, and nothing releases its variable. -/
theorem reported_streamsDocument :
    ∃ m r p place d v f, load streamsDocument (some ⟨"", ["m.json"]⟩) = .ok m ∧
      Registry.resourceDisposal.build Registry.resourceDisposal.defaultSettings = .ok r ∧
      (r.evaluate [] m).findings = [f] ∧ f.span = (m.graph.location d).span ∧
      f.message = "Resource 'c' of type 'Stream' is never disposed or closed; " ++
        "acquire it in a using/with block or release it explicitly" ∧
      m.graph.at? m.root place = some d ∧ Acquires p [] m d v ∧
      ∀ q n, m.graph.at? m.root q = some n → ¬ Releases m.graph p.release v n := by
  have hmessages : (load streamsDocument (some ⟨"", ["m.json"]⟩)).toOption.any fun m =>
      (Registry.resourceDisposal.build Registry.resourceDisposal.defaultSettings).toOption.any fun r =>
        decide ((r.evaluate [] m).findings.map (·.message) =
          ["Resource 'c' of type 'Stream' is never disposed or closed; " ++
            "acquire it in a using/with block or release it explicitly"]) := by
    decide +kernel
  cases hload : load streamsDocument (some ⟨"", ["m.json"]⟩) with
  | error e =>
    rw [hload] at hmessages
    cases hmessages
  | ok m =>
    rw [hload] at hmessages
    have hbuild : Registry.resourceDisposal.build Registry.resourceDisposal.defaultSettings = .ok _ :=
      rfl
    obtain ⟨f, hfindings, hmessage⟩ := List.map_eq_singleton_iff.mp (of_decide_eq_true hmessages)
    obtain ⟨-, p, -, -, nodes, -, -, hmem, hreported⟩ :=
      reported_iff_released_nowhere hload hbuild []
    rw [hfindings] at hreported
    cases hreported with
    | cons hd hnil =>
      next d rest =>
        obtain ⟨place, v, hplace, hacquires, hnone⟩ := (hmem d).mp List.mem_cons_self
        exact ⟨m, _, p, place, d, v, f, rfl, hbuild, hfindings, hd.2.2.2, hmessage, hplace, hacquires,
          hnone⟩

end ModelLint.Document
