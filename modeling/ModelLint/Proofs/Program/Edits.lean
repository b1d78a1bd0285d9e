import ModelLint.Proofs.Program.Ancestors

/-!
# Edits of statement lists

Two linked units are compared that differ in what the statement lists hold. All questions about a node
that do not ask for statements have the answers that they had, if what is new around it only encloses it.

* `Shape.statements`, `Shape.withStatements`: the statements that a node lists, and others in their place.
* `Graph.dottedNameTo_congr`: dotted names do not depend on statements.
* `Model.Edited`: a unit is an edit of another one.
* `Edited.mem_preorder_iff`: the nodes below a node. `Edited.find?_ancestors`: the nodes around it.
* **`Edited.isConcurrent_eq`**: what runs concurrently is the same if nothing new launches.
-/

namespace ModelLint

namespace Shape

variable {ν : Type} {s s' : Shape ν} {xs ys : List ν} {c : ν}

/-- The statements that a node lists. -/
def statements : Shape ν → List ν
  | declaration _ _ _ body => body
  | block statements => statements
  | tryStatement _ catches _ => catches
  | loopStatement _ declarations _ _ => declarations
  | lambda _ _ body => body
  | _ => []

/-- A node with other statements, if it lists any. -/
def withStatements (xs : List ν) : Shape ν → Shape ν
  | declaration info members initializer _ => declaration info members initializer xs
  | block _ => block xs
  | tryStatement body _ finallyBlock => tryStatement body xs finallyBlock
  | loopStatement kind _ header body => loopStatement kind xs header body
  | lambda parameters isAsync _ => lambda parameters isAsync xs
  | s => s

@[simp] theorem withStatements_statements (s : Shape ν) : s.withStatements s.statements = s := by
  cases s <;> rfl

@[simp] theorem withStatements_withStatements (s : Shape ν) :
    (s.withStatements xs).withStatements ys = s.withStatements ys := by
  cases s <;> rfl

theorem statements_withStatements (h : s.statements ≠ []) :
    (s.withStatements xs).statements = xs := by
  cases s
  case declaration | block | tryStatement | loopStatement | lambda => rfl
  all_goals exact absurd rfl h

@[simp] theorem isA_withStatements (kind : String) : (s.withStatements xs).isA kind = s.isA kind := by
  cases s <;> rfl

@[simp] theorem introduced_withStatements : (s.withStatements xs).introduced = s.introduced := by
  cases s <;> rfl

@[simp] theorem mention?_withStatements : (s.withStatements xs).mention? = s.mention? := by
  cases s <;> rfl

/-- A child is a statement that the node lists, or one that is there without these. -/
theorem mem_children_iff : c ∈ s.children ↔ c ∈ s.statements ∨ c ∈ (s.withStatements []).children := by
  cases s <;> simp [children, slots, statements, withStatements] <;> tauto

end Shape

namespace Graph

variable {g g' : Graph} {root n : NodeId} {k : Nat}

/-! ## Dotted names -/

/-- The dotted name of a node depends on those of its children, and on no statement. -/
theorem dottedNameTo_congr {k' n' : Nat} {xs : List NodeId} 
    (hshape : g'.shape n' = (g.shape n).withStatements xs)
    (hchildren : ∀ c ∈ g.children n, g'.dottedNameTo k' c = g.dottedNameTo k c) :
    g'.dottedNameTo (k' + 1) n' = g.dottedNameTo (k + 1) n := by
  have hqualifier : ∀ qualifier : Option NodeId, (∀ c ∈ qualifier, c ∈ g.children n) →
      qualifier.bind (g'.dottedNameTo k') = qualifier.bind (g.dottedNameTo k) := by
    rintro (_ | c) hc
    · rfl
    · exact hchildren c (hc c rfl)
  rw [children] at hqualifier
  rw [dottedNameTo, dottedNameTo, hshape]
  cases hs : g.shape n
  case fieldAccess name qualifier v =>
    rw [hs] at hqualifier
    rcases qualifier with _ | q
    · rfl
    · simp only [Shape.withStatements, hqualifier (some q) (by simp [Shape.children, Shape.slots])]
  case methodCall name type qualifier arguments =>
    rw [hs] at hqualifier
    have hname := hqualifier qualifier (by simp +contextual [Shape.children, Shape.slots])
    simp only [Shape.withStatements, hname]
  all_goals rfl

namespace Rooted

theorem dottedNameTo_succ (h : ∀ q m, g.at? n q = some m → q.length < k) :
    g.dottedNameTo (k + 1) n = g.dottedNameTo k n := by
  induction k generalizing n with
  | zero => exact absurd (h [] n rfl) (Nat.not_lt_zero _)
  | succ k ih =>
    refine dottedNameTo_congr (Shape.withStatements_statements _).symm fun c hc => ih fun q m hq => ?_
    obtain ⟨i, hi⟩ := List.mem_iff_getElem?.mp hc
    have hlength := h (i :: q) m (by rw [at?_cons, hi, Option.bind_some, hq])
    rw [List.length_cons] at hlength
    omega

theorem dottedNameTo_eq (hg : g.Rooted root) (hn : n ∈ g.preorder root) (hk : g.nodes.size + 1 ≤ k) :
    g.dottedNameTo k n = g.dottedName n := by
  obtain ⟨p, hp⟩ := hg.mem_preorder.mp hn
  induction k, hk using Nat.le_induction with
  | base => rfl
  | succ k hk ih =>
    rw [← ih]
    refine dottedNameTo_succ fun q m hq => ?_
    have hlength := hg.length_lt (p := p ++ q) (by rw [at?_append, hp, Option.bind_some, hq])
    rw [List.length_append] at hlength
    omega

end Rooted

end Graph

/-! ## Edits -/

namespace Model

theorem Linked.mem_vars_of_mentioned? {m : Model} (hm : m.Linked) {n : NodeId} {v : VariableId}
    (hn : n ∈ m.nodes) (h : m.graph.mentioned? n = some v) : v ∈ m.vars := by
  have hnodes : ∀ p k, m.graph.at? m.root p = some k → k ∈ m.nodes := fun p k hp =>
    hm.rooted.mem_preorder.mpr ⟨p, hp⟩
  obtain ⟨p, hp⟩ := hm.rooted.mem_preorder.mp hn
  obtain ⟨g, hg, hroot, ⟨info, declarations, hunit⟩, hlink⟩ := hm
  obtain ⟨-, hlinkable, -⟩ := Graph.link_spec hg hroot hunit
  have hskeleton := Graph.sameSkeleton_link g m.root
  rw [hlink] at hlinkable hskeleton
  replace hlinkable := hlinkable.mp rfl
  rw [hskeleton.at?_eq] at hp
  have hintroduced : g.Introduces m.root v := by
    rw [Graph.mentioned?, hskeleton.shape_eq] at h
    split at h
    · next name var hshape =>
      obtain ⟨w, hw, hintroduces⟩ := hlinkable.variable_known p n name var hp hshape
      cases h.symm.trans hw
      exact hintroduces
    · next name qualifier var hshape =>
      subst h
      exact hlinkable.member_known p n name qualifier v hp hshape
    · cases h
  obtain ⟨q, k, hq, hv⟩ := hintroduced
  refine List.mem_flatMap.mpr ⟨k, hnodes q k (by rw [hskeleton.at?_eq, hq]), ?_⟩
  rwa [hskeleton.shape_eq]

/-- **A unit is an edit of another one** if the two differ in what the statement lists hold. The nodes
of the other unit are still there and say the same; around them there may be new blocks and locks. -/
structure Edited (m m' : Model) : Prop where
  /-- It is the same unit. -/
  root_eq : m'.root = m.root
  /-- No node goes. -/
  nodes_subset : m.nodes ⊆ m'.nodes
  /-- A node stands where it stood. -/
  location_eq : ∀ n ∈ m.nodes, m'.graph.location n = m.graph.location n
  /-- A node says the same but for the statements that it lists. -/
  shape_eq : ∀ n ∈ m.nodes, ∃ xs, m'.graph.shape n = (m.graph.shape n).withStatements xs
  /-- A variable stays as it is but for its scope. -/
  variable_eq : ∀ v ∈ m.vars,
    { m'.graph.variable' v with scope := none } = { m.graph.variable' v with scope := none }
  /-- The nodes around a node are still around it, in the same order. -/
  ancestors_eq : ∀ n ∈ m.nodes,
    (m'.graph.ancestors n).filter (· ∈ m.nodes) = m.graph.ancestors n
  /-- New nodes around it are blocks and locks. -/
  around_new : ∀ n ∈ m.nodes, ∀ x ∈ m'.graph.ancestors n, x ∉ m.nodes →
    (∃ xs, m'.graph.shape x = .block xs) ∨ ∃ target body, m'.graph.shape x = .lockStatement target body
  /-- A node belongs to the node that it belonged to, or to a new block in the place of a statement. -/
  owner_eq : ∀ n ∈ m.nodes, m'.graph.owner n = m.graph.owner n ∨
    ∃ o o' xs, m.graph.owner n = some o ∧ n ∈ (m.graph.shape o).statements ∧
      m'.graph.owner n = some o' ∧ m'.graph.shape o' = .block xs
  /-- New nodes declare no types and no methods. -/
  new_inner : ∀ n ∈ m'.nodes, n ∉ m.nodes → (m'.graph.shape n).isOutermost = false

namespace Edited

variable {m m' : Model} {n d x : NodeId} {v : VariableId} (h : m.Edited m')

include h

theorem isA_eq (hn : n ∈ m.nodes) (kind : String) : m'.graph.isA kind n = m.graph.isA kind n := by
  obtain ⟨xs, hxs⟩ := h.shape_eq n hn
  rw [Graph.isA, hxs, Shape.isA_withStatements, Graph.isA]

theorem declaration?_eq (hn : n ∈ m.nodes) : m'.graph.declaration? n = m.graph.declaration? n := by
  obtain ⟨xs, hxs⟩ := h.shape_eq n hn
  rw [Graph.declaration?, hxs, Graph.declaration?]
  cases m.graph.shape n <;> rfl

theorem mentioned?_eq (hn : n ∈ m.nodes) : m'.graph.mentioned? n = m.graph.mentioned? n := by
  obtain ⟨xs, hxs⟩ := h.shape_eq n hn
  rw [Graph.mentioned?_eq, hxs, Shape.mention?_withStatements, Graph.mentioned?_eq]

theorem kind_eq (hv : v ∈ m.vars) : (m'.graph.variable' v).kind = (m.graph.variable' v).kind := by
  have hvar := congrArg Variable.kind (h.variable_eq v hv)
  exact hvar

theorem isField_eq (hv : v ∈ m.vars) :
    (m'.graph.variable' v).isField = (m.graph.variable' v).isField := by
  rw [Variable.isField, Variable.isField, h.kind_eq hv]

theorem name_eq (hv : v ∈ m.vars) : (m'.graph.variable' v).name = (m.graph.variable' v).name := by
  have hvar := congrArg Variable.name (h.variable_eq v hv)
  exact hvar

theorem typeName_eq (hv : v ∈ m.vars) :
    (m'.graph.variable' v).typeName = (m.graph.variable' v).typeName := by
  have hvar := congrArg Variable.typeName (h.variable_eq v hv)
  exact hvar

theorem info_eq (hm : m.Linked) : m'.info = m.info := by
  obtain ⟨xs, hxs⟩ := h.shape_eq m.root hm.rooted.root_mem
  rw [info, info, Graph.unitInfo?, Graph.unitInfo?, h.root_eq, hxs]
  cases m.graph.shape m.root <;> rfl

theorem shape_eq_of {s : Shape NodeId} (hn : n ∈ m.nodes) (hs : ∀ xs, s.withStatements xs = s) :
    m'.graph.shape n = s ↔ m.graph.shape n = s := by
  obtain ⟨xs, hxs⟩ := h.shape_eq n hn
  rw [hxs]
  constructor
  · intro heq
    have hback := congrArg (Shape.withStatements (m.graph.shape n).statements) heq
    rwa [Shape.withStatements_withStatements, Shape.withStatements_statements, hs] at hback
  · rintro rfl
    exact hs xs

theorem mem_of_declaration? {info : DeclarationInfo} (hn : n ∈ m'.nodes)
    (hinfo : m'.graph.declaration? n = some info) : n ∈ m.nodes := by
  by_contra hnew
  have hinner := h.new_inner n hn hnew
  rw [Graph.declaration?] at hinfo
  split at hinfo
  · next hshape =>
    rw [hshape] at hinner
    cases hinner
  · cases hinfo

theorem mem_ancestors_iff (hn : n ∈ m.nodes) (hx : x ∈ m.nodes) :
    x ∈ m'.graph.ancestors n ↔ x ∈ m.graph.ancestors n := by
  rw [← h.ancestors_eq n hn, List.mem_filter, decide_eq_true_iff, and_iff_left hx]

/-- The innermost node around a node that passes a test, where new nodes do not. -/
theorem find?_ancestors {test test' : NodeId → Bool} (hn : n ∈ m.nodes)
    (hold : ∀ x ∈ m.nodes, test' x = test x)
    (hnew : ∀ x ∈ m'.graph.ancestors n, x ∉ m.nodes → test' x = false) :
    (m'.graph.ancestors n).find? test' = (m.graph.ancestors n).find? test := by
  rw [← h.ancestors_eq n hn, ← List.head?_filter, ← List.head?_filter, List.filter_filter]
  refine congrArg List.head? (List.filter_congr fun x hx => ?_)
  by_cases hmem : x ∈ m.nodes
  · simp [hold x hmem, hmem]
  · simp [hnew x hx hmem, hmem]

variable (hm : m.Linked) (hm' : m'.Linked)

include hm hm'

theorem mem_preorder_iff (hn : n ∈ m.nodes) (hd : d ∈ m.nodes) :
    d ∈ m'.graph.preorder n ↔ d ∈ m.graph.preorder n := by
  have hd' : d ∈ m'.nodes := h.nodes_subset hd
  rw [Model.nodes] at hd hd'
  rw [hm'.rooted.mem_preorder_iff_ancestors (h.nodes_subset hn), hm.rooted.mem_preorder_iff_ancestors hn,
    h.mem_ancestors_iff hd hn, and_iff_right hd', and_iff_right hd]

theorem mem_descendants_iff (hn : n ∈ m.nodes) (hd : d ∈ m.nodes) :
    d ∈ m'.graph.descendants n ↔ d ∈ m.graph.descendants n := by
  have hd' : d ∈ m'.nodes := h.nodes_subset hd
  rw [Model.nodes] at hd hd'
  rw [hm'.rooted.mem_descendants_iff (h.nodes_subset hn), hm.rooted.mem_descendants_iff hn,
    h.mem_ancestors_iff hd hn, and_iff_right hd', and_iff_right hd]

theorem dottedName_eq (hn : n ∈ m.nodes) : m'.graph.dottedName n = m.graph.dottedName n := by
  have hname : ∀ k n, n ∈ m.nodes → m'.graph.dottedNameTo k n = m.graph.dottedNameTo k n := by
    intro k
    induction k with
    | zero => exact fun _ _ => rfl
    | succ k ih =>
      intro n hn
      obtain ⟨xs, hxs⟩ := h.shape_eq n hn
      exact Graph.dottedNameTo_congr hxs fun c hc => ih c (hm.rooted.mem_of_child hn hc)
  have hn' : n ∈ m'.graph.preorder m'.root := h.nodes_subset hn
  rw [← hm'.rooted.dottedNameTo_eq hn' (Nat.le_max_right (m.graph.nodes.size + 1) _),
    ← hm.rooted.dottedNameTo_eq hn (Nat.le_max_left _ (m'.graph.nodes.size + 1)), hname _ n hn]

/-! ### Surroundings -/

omit hm hm' in
theorem declares_eq (hn : n ∈ m.nodes) (kind : DeclarationKind) :
    m'.graph.declares kind n = m.graph.declares kind n := by
  rw [Graph.declares, h.declaration?_eq hn, Graph.declares]

omit hm hm' in
theorem find?_declares (hn : n ∈ m.nodes) (kind : DeclarationKind) :
    (m'.graph.ancestors n).find? (m'.graph.declares kind) =
      (m.graph.ancestors n).find? (m.graph.declares kind) := by
  refine h.find?_ancestors hn (fun x hx => h.declares_eq hx kind) fun x hx hnew => ?_
  rw [Graph.declares, Graph.declaration?]
  rcases h.around_new n hn x hx hnew with ⟨xs, hshape⟩ | ⟨target, body, hshape⟩ <;> rw [hshape] <;> rfl

omit hm' in
theorem isConstructor_eq (hn : n ∈ m.nodes) :
    m'.graph.isConstructor n = m.graph.isConstructor n := by
  have htype : (m'.graph.enclosingType n).bind m'.graph.declaration? =
      (m.graph.enclosingType n).bind m.graph.declaration? := by
    rw [Graph.enclosingType, h.find?_declares hn, ← Graph.enclosingType]
    rcases hfound : m.graph.enclosingType n with _ | type
    · rfl
    · exact h.declaration?_eq (hm.rooted.mem_of_mem_ancestors hn (List.mem_of_find?_eq_some hfound))
  rw [Graph.isConstructor, htype, h.declaration?_eq hn, Graph.isConstructor]

omit hm' in
theorem any_isConstructor_enclosingMethod (hn : n ∈ m.nodes) :
    (m'.graph.enclosingMethod n).any m'.graph.isConstructor =
      (m.graph.enclosingMethod n).any m.graph.isConstructor := by
  rw [Graph.enclosingMethod, h.find?_declares hn, ← Graph.enclosingMethod]
  rcases hfound : m.graph.enclosingMethod n with _ | method
  · rfl
  · exact h.isConstructor_eq hm
      (hm.rooted.mem_of_mem_ancestors hn (List.mem_of_find?_eq_some hfound))

variable {patterns : List String}

theorem isLaunch_eq (hn : n ∈ m.nodes) :
    m'.graph.isLaunch patterns n = m.graph.isLaunch patterns n := by
  obtain ⟨xs, hxs⟩ := h.shape_eq n hn
  rw [Graph.isLaunch, Graph.isLaunch, hxs, h.dottedName_eq hm hm' hn]
  cases m.graph.shape n <;> rfl

omit hm hm' in
theorem arguments_eq (hn : n ∈ m.nodes) : m'.graph.arguments n = m.graph.arguments n := by
  obtain ⟨xs, hxs⟩ := h.shape_eq n hn
  rw [Graph.arguments, Graph.arguments, hxs]
  cases m.graph.shape n <;> rfl

omit hm hm' in
theorem mentionedName?_eq (hn : n ∈ m.nodes) :
    m'.graph.mentionedName? n = m.graph.mentionedName? n := by
  obtain ⟨xs, hxs⟩ := h.shape_eq n hn
  rw [Graph.mentionedName?, Graph.mentionedName?, hxs]
  cases m.graph.shape n <;> rfl

theorem mem_launchedNames_iff {name : String}
    (hnew : ∀ n ∈ m'.nodes, n ∉ m.nodes → m'.graph.isLaunch patterns n = false) :
    name ∈ m'.graph.launchedNames patterns m'.root ↔ name ∈ m.graph.launchedNames patterns m.root := by
  have hcall : ∀ n, n ∈ (m'.graph.preorder m'.root).filter (m'.graph.isLaunch patterns) ↔
      n ∈ (m.graph.preorder m.root).filter (m.graph.isLaunch patterns) := by
    intro n
    rw [List.mem_filter, List.mem_filter]
    constructor
    · rintro ⟨hn, hlaunch⟩
      have hold : n ∈ m.nodes := by
        by_contra hnot
        rw [hnew n hn hnot] at hlaunch
        cases hlaunch
      exact ⟨hold, h.isLaunch_eq hm hm' hold ▸ hlaunch⟩
    · rintro ⟨hn, hlaunch⟩
      exact ⟨h.nodes_subset hn, (h.isLaunch_eq hm hm' hn).trans hlaunch⟩
  rw [Graph.launchedNames, Graph.launchedNames, NameSet.mem_ofList, NameSet.mem_ofList,
    List.mem_flatMap, List.mem_flatMap]
  refine exists_congr fun n => ?_
  rw [hcall]
  refine and_congr_right fun hn => ?_
  have hmem : n ∈ m.nodes := (List.mem_filter.mp hn).1
  rw [h.arguments_eq hmem, List.mem_filterMap, List.mem_filterMap]
  refine exists_congr fun c => and_congr_right fun hc => ?_
  rw [h.mentionedName?_eq (hm.rooted.mem_of_child hmem ?_)]
  rw [Graph.arguments] at hc
  rw [Graph.children]
  split at hc <;> rename_i hshape
  · simp [hshape, Shape.children, Shape.slots, hc]
  · simp [hshape, Shape.children, Shape.slots, hc]
  · cases hc

/-- A function is still bound to the name that it was bound to, or handed to the same call. -/
theorem runsConcurrently_eq {launched launched' : NameSet}
    (hlaunched : ∀ name, launched'.contains name = launched.contains name) (hn : n ∈ m.nodes) :
    m'.graph.runsConcurrently patterns launched' n = m.graph.runsConcurrently patterns launched n := by
  obtain ⟨xs, hxs⟩ := h.shape_eq n hn
  rw [Graph.runsConcurrently, Graph.runsConcurrently, hxs]
  cases hs : m.graph.shape n
  case declaration info members initializer body => simp only [Shape.withStatements, hlaunched]
  case lambda parameters isAsync body =>
    simp only [Shape.withStatements]
    rcases h.owner_eq n hn with howner | ⟨o, o', ys, howner, hlisted, howner', hblock⟩
    · rw [howner]
      rcases ho : m.graph.owner n with _ | o
      · rfl
      · have homem := ((hm.rooted.owner_eq_some hn).mp ho).1
        obtain ⟨ys, hys⟩ := h.shape_eq o homem
        simp only [h.isLaunch_eq hm hm' homem, hys]
        cases hdeclaration : m.graph.shape o
        case varDeclaration v initializer =>
          have hv : v ∈ m.vars :=
            List.mem_flatMap.mpr ⟨o, homem, by simp [hdeclaration, Shape.introduced]⟩
          simp only [Shape.withStatements, hlaunched, h.name_eq hv]
        all_goals rfl
    -- listed as a statement, it was neither an argument nor an initializer, and in a block it is neither
    · simp only [howner, howner', hblock, Graph.isLaunch]
      cases ho : m.graph.shape o
      case methodCall | objectCreation | varDeclaration =>
        rw [ho] at hlisted
        cases hlisted
      all_goals rfl
  all_goals rfl

theorem isConcurrent_eq
    (hnew : ∀ n ∈ m'.nodes, n ∉ m.nodes → m'.graph.isLaunch patterns n = false) (hn : n ∈ m.nodes) :
    m'.graph.isConcurrent patterns (some m'.root) n =
      m.graph.isConcurrent patterns (some m.root) n := by
  have hlaunched : ∀ name, (m'.graph.launchedNames patterns m'.root).contains name =
      (m.graph.launchedNames patterns m.root).contains name := fun name => by
    rw [Bool.eq_iff_iff, List.contains_iff_mem, List.contains_iff_mem,
      h.mem_launchedNames_iff hm hm' hnew]
  simp only [Graph.isConcurrent, Option.map_some, Option.getD_some]
  rw [Bool.eq_iff_iff, List.any_eq_true, List.any_eq_true, ← List.find?_isSome, ← List.find?_isSome,
    h.find?_ancestors hn (fun x hx => h.runsConcurrently_eq hm hm' hlaunched hx) fun x hx hnot => ?_]
  rw [Graph.runsConcurrently]
  rcases h.around_new n hn x hx hnot with ⟨xs, hshape⟩ | ⟨target, body, hshape⟩ <;> rw [hshape]

end Edited

end Model

end ModelLint
