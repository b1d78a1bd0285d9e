import ModelLint.Proofs.Rules.Diagnostics
import ModelLint.Proofs.Rules.Edits

/-!
# Insertions

New statements are put into the statement lists of a unit. Nothing that stood around a node goes, and
what logs, throws or releases something still stands where the rules look for it.

* `Model.Inserted`: a unit with new statements in it. `Model.Inserted.edited`: it is an edit.
* `GenericException.Swallows.of_inserted`: a handler that swallows with them swallows without them.
* **`Registry.unreported_inserted`**: what is inserted makes no handler and no resource a violation.
-/

namespace ModelLint

/-- **A unit with new statements in it**: statement lists are longer, and nothing else changes. A list of
a linked unit holds no node twice, so what it holds besides the statements that were there is new. -/
structure Model.Inserted (m m' : Model) : Prop where
  /-- It is the same unit. -/
  root_eq : m'.root = m.root
  /-- A node stands where it stood. -/
  location_eq : ∀ n ∈ m.nodes, m'.graph.location n = m.graph.location n
  /-- A node says the same, and if it lists statements it may list more. -/
  shape_eq : ∀ n ∈ m.nodes, ∃ xs, (m.graph.shape n).statements.Sublist xs ∧
    m'.graph.shape n = (m.graph.shape n).withStatements xs
  /-- A variable stays as it is but for its scope. -/
  variable_eq : ∀ v ∈ m.vars,
    { m'.graph.variable' v with scope := none } = { m.graph.variable' v with scope := none }
  /-- What is new are statements and what stands in them, and no declarations. -/
  new_inner : ∀ n ∈ m'.nodes, n ∉ m.nodes → (m'.graph.shape n).isOutermost = false

variable {m m' : Model} {n c body : NodeId} {phrases : List String}

namespace Model.Inserted

theorem mem_children (h : m.Inserted m') (hn : n ∈ m.nodes) (hc : c ∈ m.graph.children n) :
    c ∈ m'.graph.children n := by
  obtain ⟨xs, hsublist, hxs⟩ := h.shape_eq n hn
  rw [Graph.children, hxs, Shape.mem_children_iff, Shape.withStatements_withStatements]
  refine (Shape.mem_children_iff.mp hc).imp_left fun hlisted => ?_
  rw [Shape.statements_withStatements (List.ne_nil_of_mem hlisted)]
  exact hsublist.subset hlisted

/-- What is inserted does not get between a node and those around it. -/
theorem ancestors_eq (h : m.Inserted m') (hm : m.Linked) (hm' : m'.Linked) :
    ∀ n ∈ m.nodes, n ∈ m'.nodes ∧ m'.graph.ancestors n = m.graph.ancestors n := by
  refine hm.rooted.forall_mem ⟨?_, ?_⟩ ?_
  · rw [← h.root_eq]
    exact hm'.rooted.root_mem
  · rw [hm.rooted.ancestors_root, ← h.root_eq, hm'.rooted.ancestors_root]
  · rintro n hn ⟨hmem, hancestors⟩ c hc
    have hchild := h.mem_children hn hc
    refine ⟨hm'.rooted.mem_of_child hmem hchild, ?_⟩
    rw [hm'.rooted.ancestors_child hmem hchild, hm.rooted.ancestors_child hn hc, hancestors]

theorem edited (h : m.Inserted m') (hm : m.Linked) (hm' : m'.Linked) : m.Edited m' where
  root_eq := h.root_eq
  nodes_subset n hn := (h.ancestors_eq hm hm' n hn).1
  location_eq := h.location_eq
  shape_eq n hn := (h.shape_eq n hn).imp fun xs hxs => hxs.2
  variable_eq := h.variable_eq
  ancestors_eq n hn := by
    rw [(h.ancestors_eq hm hm' n hn).2, List.filter_eq_self]
    exact fun x hx => decide_eq_true (hm.rooted.mem_of_mem_ancestors hn hx)
  around_new n hn x hx hnew := by
    rw [(h.ancestors_eq hm hm' n hn).2] at hx
    exact absurd (hm.rooted.mem_of_mem_ancestors hn hx) hnew
  owner_eq n hn := by
    obtain ⟨hn', hancestors⟩ := h.ancestors_eq hm hm' n hn
    rw [hm'.rooted.owner_eq_head? hn', hancestors, ← hm.rooted.owner_eq_head? hn]
    exact .inl rfl
  new_inner := h.new_inner

end Model.Inserted

namespace GenericException

variable {p : Patterns} {types : List String} {var : Option VariableId}

/-- A handler that swallows what it catches with new statements in it did so without them. -/
theorem Swallows.of_inserted (hswallows : Swallows p m'.graph n types var body) (h : m.Inserted m')
    (hm : m.Linked) (hm' : m'.Linked) (hn : n ∈ m.nodes) : Swallows p m.graph n types var body := by
  have hedited := h.edited hm hm'
  have hshape := (hedited.shape_eq_of hn fun _ => rfl).mp hswallows.shape_eq
  have hbody : body ∈ m.nodes := hm.rooted.mem_of_child hn (by
    simp [Graph.children, hshape, Shape.children, Shape.slots])
  refine ⟨hshape, hswallows.generic, hswallows.dropped.imp ?_ ?_⟩
  · intro hempty
    obtain ⟨xs, hsublist, hxs⟩ := h.shape_eq body hbody
    rw [hempty] at hxs
    cases hs : m.graph.shape body
    all_goals rw [hs] at hxs hsublist
    case block =>
      cases hxs
      exact congrArg Shape.block (List.sublist_nil.mp hsublist)
    all_goals cases hxs
  · rintro ⟨hlogs, hrethrows⟩
    exact ⟨fun v hv call hcall => hlogs v hv call (hcall.edited hedited hm hm' hbody),
      fun hthrow => hrethrows (hthrow.edited hedited hm hm' hbody)⟩

theorem reported_of_inserted (h : m.Inserted m') (hm : m.Linked) (hm' : m'.Linked) (hn : n ∈ m.nodes)
    {description : String} {severity : Severity}
    (hreported : n ∈ (rule description severity p).reported phrases m') :
    n ∈ (rule description severity p).reported phrases m := by
  have hedited := h.edited hm hm'
  rw [Rule.mem_reported, exists_finding?_iff] at hreported ⊢
  obtain ⟨-, ⟨types, var, body, hswallows⟩, huncovered⟩ := hreported
  rw [hedited.info_eq hm, hedited.location_eq n hn] at huncovered
  exact ⟨hn, ⟨types, var, body, hswallows.of_inserted h hm hm' hn⟩, huncovered⟩

end GenericException

namespace ResourceDisposal

variable {p : Patterns}

theorem reported_of_inserted (h : m.Inserted m') (hm : m.Linked) (hm' : m'.Linked) (hn : n ∈ m.nodes)
    {description : String} {severity : Severity}
    (hreported : n ∈ (rule description severity p).reported phrases m') :
    n ∈ (rule description severity p).reported phrases m := by
  have hedited := h.edited hm hm'
  obtain ⟨hn', hfinding⟩ := (Rule.mem_reported _ _ _).mp hreported
  obtain ⟨v, hkind, hacquires, o, howner, hunreleased⟩ :=
    (exists_finding?_iff_region hm' hn').mp hfinding
  replace hacquires := (acquires_edited hedited hm hm' hn).mp hacquires
  obtain ⟨e, hshape, -⟩ := hacquires.acquisition
  have hv : v ∈ m.vars := List.mem_flatMap.mpr ⟨n, hn, by simp [hshape, Shape.introduced]⟩
  have howner' : m.graph.owner n = some o := by
    rw [hm.rooted.owner_eq_head? hn, ← (h.ancestors_eq hm hm' n hn).2, ← hm'.rooted.owner_eq_head? hn',
      howner]
  have hregion : releaseRegion m'.graph o = releaseRegion m.graph o := by
    rw [releaseRegion_eq_getD hm' hn' howner, find?_isFunction_edited hedited hn,
      releaseRegion_eq_getD hm hn howner']
  have hmem := releaseRegion_mem hm hn howner'
  refine (Rule.mem_reported _ _ _).mpr ⟨hn, (exists_finding?_iff_region hm hn).mpr
    ⟨v, hedited.kind_eq hv ▸ hkind, hacquires, o, howner', fun x hx hreleases => ?_⟩⟩
  have hxmem := hm.rooted.mem_of_mem_preorder hmem hx
  refine hunreleased x ?_ ((releases_edited hedited hm hxmem).mpr hreleases)
  rw [hregion, hedited.mem_preorder_iff hm hm' hmem hxmem]
  exact hx

end ResourceDisposal

/-- **What is inserted makes no handler and no resource a violation.** Whatever statements are put into
a unit, a node of it that the rule on handlers or the rule on resources does not report is not reported
afterwards. -/
theorem Registry.unreported_inserted {d : RuleDefinition} {s : RuleSettings} {r : Rule}
    (hm : m.Linked) (hm' : m'.Linked) (h : m.Inserted m')
    (hd : d = genericException ∨ d = resourceDisposal) (hr : d.build s = .ok r)
    (phrases : List String) :
    ∀ n ∈ m.nodes, n ∉ r.reported phrases m → n ∉ r.reported phrases m' := by
  intro n hn
  refine mt ?_
  rcases hd with rfl | rfl
  · obtain ⟨p, -, -, rfl⟩ := GenericException.build_eq_ok hr
    exact GenericException.reported_of_inserted h hm hm' hn
  · obtain ⟨p, -, -, rfl⟩ := ResourceDisposal.build_eq_ok hr
    exact ResourceDisposal.reported_of_inserted h hm hm' hn

/-- The nodes of a function with a handler for everything that holds the given statements. -/
def handlerUnit (statements : List NodeId) (more : Array Node) : Graph where
  nodes := #[
    ⟨⟨1, 0, none, none⟩, .sourceUnit ⟨⟨"", ["m.py"]⟩, "python", [], []⟩ [1], none⟩,
    ⟨⟨1, 0, none, none⟩, .declaration ⟨"f", .method, "f", [], [], none, false⟩ [] none [2], none⟩,
    ⟨⟨2, 4, none, none⟩, .tryStatement 3 [4] none, none⟩,
    ⟨⟨2, 4, none, none⟩, .block [], none⟩,
    ⟨⟨4, 4, none, none⟩, .catchClause [] none 5, none⟩,
    ⟨⟨4, 4, none, none⟩, .block statements, none⟩,
    ⟨⟨5, 8, none, none⟩, .throwStatement none, none⟩] ++ more
  vars := #[]

/-- The unit of a handler that throws again, once it is linked. -/
def rethrowModel : Model := ⟨((handlerUnit [6] #[]).link 0).1, 0⟩

/-- The unit where the handler holds a block with a return in front. -/
def returnModel : Model :=
  ⟨((handlerUnit [7, 6] #[⟨⟨0, 0, none, none⟩, .block [8], none⟩,
    ⟨⟨0, 0, none, none⟩, .returnStatement none, none⟩]).link 0).1, 0⟩

/-- Settings of the rule on handlers without patterns. -/
def handlerSettings : RuleSettings where
  severity := .error
  enabled := true
  patterns := [("logging_methods", []), ("root_exception_types", [])]

theorem linked_rethrowModel : rethrowModel.Linked :=
  ⟨handlerUnit [6] #[], ⟨by decide, by decide⟩, by decide, ⟨_, _, rfl⟩, Prod.ext rfl rfl⟩

theorem linked_returnModel : returnModel.Linked :=
  ⟨handlerUnit [7, 6] _, ⟨by decide, by decide⟩, by decide, ⟨_, _, rfl⟩, Prod.ext rfl rfl⟩

theorem inserted_returnModel : rethrowModel.Inserted returnModel where
  root_eq := rfl
  location_eq := by decide +kernel
  shape_eq := by
    have hnodes : rethrowModel.nodes = [0, 1, 2, 3, 4, 5, 6] := by decide +kernel
    simp only [rethrowModel, returnModel, (Graph.sameSkeleton_link _ _).shape_eq] at hnodes ⊢
    simp only [hnodes, List.mem_cons, List.not_mem_nil, or_false, forall_eq_or_imp, forall_eq]
    exact ⟨⟨_, .refl _, rfl⟩, ⟨_, .refl _, rfl⟩, ⟨_, .refl _, rfl⟩, ⟨_, .refl _, rfl⟩,
      ⟨_, .refl _, rfl⟩, ⟨[7, 6], .cons 7 (.refl _), rfl⟩, ⟨_, .refl _, rfl⟩⟩
  variable_eq := by decide +kernel
  new_inner := by decide +kernel

/-- The handler is not reported, with the block or without it. -/
theorem unreported_returnModel : rethrowModel.Linked ∧ returnModel.Linked ∧
    rethrowModel.Inserted returnModel ∧
    ∃ r, Registry.genericException.build handlerSettings = .ok r ∧
      4 ∈ rethrowModel.nodes ∧ 4 ∉ r.reported [] rethrowModel ∧ 4 ∉ r.reported [] returnModel := by
  have hunreported := Registry.unreported_inserted linked_rethrowModel linked_returnModel
    inserted_returnModel (.inl rfl) (s := handlerSettings) rfl []
  have hnode : 4 ∈ rethrowModel.nodes := by decide +kernel
  refine ⟨linked_rethrowModel, linked_returnModel, inserted_returnModel, _, rfl, hnode, ?_, ?_⟩
  · decide +kernel
  · exact hunreported 4 hnode (by decide +kernel)

end ModelLint
