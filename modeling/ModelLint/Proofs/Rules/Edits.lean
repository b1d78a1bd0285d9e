import ModelLint.Proofs.Program.Edits
import ModelLint.Proofs.Rules.Diagnostics
import ModelLint.Proofs.Rules.GenericException
import ModelLint.Proofs.Rules.SharedMap

/-!
# What the rules see of an edit

A node of a unit is asked the same questions once the statement lists are edited, and most of them have the
answers that they had. What was below a node still is; what is new below it is for the edit to say.

* `GenericException.Logs.edited`, `Rethrows.edited`: what logs or throws still does.
* `ResourceDisposal.releases_edited`, `acquires_edited`: nodes release and acquire what they did.
* `ResourceDisposal.find?_isFunction_edited`: a release is looked for in the same function.
* `SharedMap.accessedVariable_edited`, `skipped_edited`: accesses are of the same variables.
-/

namespace ModelLint

variable {m m' : Model} {n body call d : NodeId} {v : VariableId} {phrases : List String}

/-! ## Handlers -/

namespace GenericException

variable {logging : NameSet}

theorem isCall_edited (h : m.Edited m') (hn : n ∈ m.nodes) : IsCall m'.graph n ↔ IsCall m.graph n := by
  rw [IsCall, IsCall]
  exact exists₄_congr fun name type qualifier arguments => h.shape_eq_of hn fun _ => rfl

theorem Logs.edited (hlogs : Logs m.graph logging v body call) (h : m.Edited m') (hm : m.Linked)
    (hm' : m'.Linked) (hbody : body ∈ m.nodes) : Logs m'.graph logging v body call := by
  have hcall : call ∈ m.nodes := ((hm.rooted.mem_descendants_iff hbody).mp hlogs.below).1
  obtain ⟨a, ha, hv⟩ := hlogs.mentioned
  have hmem : a ∈ m.nodes := hm.rooted.mem_of_mem_preorder hcall ha
  refine ⟨(h.mem_descendants_iff hm hm' hbody hcall).mpr hlogs.below,
    (isCall_edited h hcall).mpr hlogs.isCall, ?_,
    a, (h.mem_preorder_iff hm hm' hcall hmem).mpr ha, (h.mentioned?_eq hmem).trans hv⟩
  rw [h.dottedName_eq hm hm' hcall]
  exact hlogs.named

theorem Rethrows.edited (hrethrows : Rethrows m.graph body) (h : m.Edited m') (hm : m.Linked)
    (hm' : m'.Linked) (hbody : body ∈ m.nodes) : Rethrows m'.graph body := by
  obtain ⟨c, hc, hshape⟩ := hrethrows
  have hmem : c ∈ m.nodes := ((hm.rooted.mem_descendants_iff hbody).mp hc).1
  exact ⟨c, (h.mem_descendants_iff hm hm' hbody hmem).mpr hc,
    (h.shape_eq_of hmem fun _ => rfl).mpr hshape⟩

end GenericException

/-! ## Resources -/

namespace ResourceDisposal

variable {p : Patterns} {release : NameSet}

theorem isFunction_edited (h : m.Edited m') (hn : n ∈ m.nodes) :
    isFunction m'.graph n = isFunction m.graph n := by
  rw [isFunction, isFunction, h.isA_eq hn, Graph.declares, Graph.declares, h.declaration?_eq hn]

/-- A release is still looked for in the same function. -/
theorem find?_isFunction_edited (h : m.Edited m') (hd : d ∈ m.nodes) :
    (m'.graph.ancestors d).find? (isFunction m'.graph) =
      (m.graph.ancestors d).find? (isFunction m.graph) := by
  refine h.find?_ancestors hd (fun x hx => isFunction_edited h hx) fun x hx hnew => ?_
  rw [← Bool.not_eq_true, isFunction_iff]
  rcases h.around_new d hd x hx hnew with ⟨xs, hshape⟩ | ⟨target, body, hshape⟩ <;>
    simp [hshape, Shape.IsFunction]

theorem mentionsField_edited (h : m.Edited m') (hm : m.Linked) (hn : n ∈ m.nodes) :
    MentionsField m'.graph n ↔ MentionsField m.graph n := by
  refine or_congr (exists₃_congr fun name qualifier v => h.shape_eq_of hn fun _ => rfl)
    (exists₂_congr fun name v => ?_)
  rw [h.shape_eq_of hn fun _ => rfl]
  refine and_congr_right fun hshape => ?_
  rw [h.isField_eq (hm.mem_vars_of_mentioned? hn (by rw [Graph.mentioned?, hshape]))]

theorem isFieldTarget_edited (h : m.Edited m') (hm : m.Linked) (hn : n ∈ m.nodes) :
    isFieldTarget m'.graph n = isFieldTarget m.graph n := by
  rw [Bool.eq_iff_iff, isFieldTarget_iff, isFieldTarget_iff]
  refine or_congr (mentionsField_edited h hm hn) (exists₂_congr fun inner index => ?_)
  rw [h.shape_eq_of hn fun _ => rfl]
  refine and_congr_right fun hshape => mentionsField_edited h hm (hm.rooted.mem_of_child hn ?_)
  simp [Graph.children, hshape, Shape.children, Shape.slots]

theorem releases_edited (h : m.Edited m') (hm : m.Linked) (hn : n ∈ m.nodes) :
    Releases m'.graph release v n ↔ Releases m.graph release v n := by
  have hchild : ∀ c ∈ m.graph.children n, c ∈ m.nodes := fun c hc => hm.rooted.mem_of_child hn hc
  have hdirect : ∀ c ∈ m.graph.children n,
      m'.graph.isDirectMention v c = m.graph.isDirectMention v c := by
    intro c hc
    rw [Graph.isDirectMention, Graph.isDirectMention, h.mentioned?_eq (hchild c hc)]
  have hany : ∀ cs : List NodeId, cs ⊆ m.graph.children n →
      cs.any (m'.graph.isDirectMention v) = cs.any (m.graph.isDirectMention v) := by
    intro cs hcs
    rw [Bool.eq_iff_iff, List.any_eq_true, List.any_eq_true]
    exact exists_congr fun c => and_congr_right fun hc => by rw [hdirect c (hcs hc)]
  have hany? : ∀ c : Option NodeId, c.toList ⊆ m.graph.children n →
      c.any (m'.graph.isDirectMention v) = c.any (m.graph.isDirectMention v) := by
    rintro (_ | c) hc
    · rfl
    · exact hdirect c (hc List.mem_cons_self)
  obtain ⟨xs, hxs⟩ := h.shape_eq n hn
  rw [← releases_iff, ← releases_iff, ← Bool.eq_iff_iff, releases, releases, hxs]
  rw [Graph.children] at hchild hdirect hany hany?
  cases hs : m.graph.shape n
  all_goals rw [hs] at hchild hdirect hany hany?
  case usingStatement resources body =>
    exact hany resources (by simp [Shape.children, Shape.slots])
  case methodCall name type qualifier arguments =>
    have hqualifier := hany? qualifier (by simp [Shape.children, Shape.slots])
    have harguments := hany arguments (by simp [Shape.children, Shape.slots])
    simp only [Shape.withStatements, hqualifier, harguments]
  case returnStatement value =>
    exact hany? value (by simp [Shape.children, Shape.slots])
  case assignment operator target value =>
    have hvalue := hdirect value (by simp [Shape.children, Shape.slots])
    have htarget := hchild target (by simp [Shape.children, Shape.slots])
    simp only [Shape.withStatements, hvalue, isFieldTarget_edited h hm htarget]
  all_goals rfl

theorem disposable_edited (h : m.Edited m') (hm : m.Linked) (hm' : m'.Linked) {name : String} :
    Disposable m' name ↔ Disposable m name := by
  rw [Disposable, Disposable, h.info_eq hm]
  refine or_congr_right ⟨?_, ?_⟩
  · rintro ⟨place, n, info, hplace, hinfo, hkind⟩
    have hn := h.mem_of_declaration? (hm'.rooted.mem_preorder.mpr ⟨place, hplace⟩) hinfo
    obtain ⟨place', hplace'⟩ := hm.rooted.mem_preorder.mp hn
    exact ⟨place', n, info, hplace', h.declaration?_eq hn ▸ hinfo, hkind⟩
  · rintro ⟨place, n, info, hplace, hinfo, hkind⟩
    have hn : n ∈ m.nodes := hm.rooted.mem_preorder.mpr ⟨place, hplace⟩
    obtain ⟨place', hplace'⟩ := hm'.rooted.mem_preorder.mp (h.nodes_subset hn)
    exact ⟨place', n, info, hplace', (h.declaration?_eq hn).trans hinfo, hkind⟩

theorem resourceType_edited (h : m.Edited m') (hm : m.Linked) (hm' : m'.Linked) {type : String} :
    ResourceType p m' type ↔ ResourceType p m type := by
  simp only [ResourceType, disposable_edited h hm hm']

theorem isUsing_edited (h : m.Edited m') (hm : m.Linked) (hd : d ∈ m.nodes) :
    (∀ o, m'.graph.owner d = some o → ∀ resources body,
        m'.graph.shape o ≠ .usingStatement resources body) ↔
      ∀ o, m.graph.owner d = some o → ∀ resources body,
        m.graph.shape o ≠ .usingStatement resources body := by
  rcases h.owner_eq d hd with howner | ⟨o, o', xs, howner, hlisted, howner', hshape⟩
  · rw [howner]
    refine forall₂_congr fun o ho => forall₂_congr fun resources body => not_congr ?_
    exact h.shape_eq_of ((hm.rooted.owner_eq_some hd).mp ho).1 fun _ => rfl
  · simp only [howner, howner', Option.some.injEq, forall_eq', hshape, ne_eq, reduceCtorEq,
      not_false_eq_true, implies_true, true_iff]
    intro resources body hshape
    rw [hshape] at hlisted
    cases hlisted

theorem acquires_edited (h : m.Edited m') (hm : m.Linked) (hm' : m'.Linked) (hd : d ∈ m.nodes) :
    Acquires p phrases m' d v ↔ Acquires p phrases m d v := by
  have hacquisition : (∃ e, m'.graph.shape d = .varDeclaration v (some e) ∧
      m'.graph.isAcquisition e = true) ↔
      ∃ e, m.graph.shape d = .varDeclaration v (some e) ∧ m.graph.isAcquisition e = true := by
    refine exists_congr fun e => ?_
    rw [h.shape_eq_of hd fun _ => rfl]
    refine and_congr_right fun hshape => ?_
    have he : e ∈ m.nodes := hm.rooted.mem_of_child hd (by
      simp [Graph.children, hshape, Shape.children, Shape.slots])
    rw [isAcquisition_iff, isAcquisition_iff]
    exact or_congr (exists₄_congr fun _ _ _ _ => h.shape_eq_of he fun _ => rfl)
      (exists₂_congr fun _ _ => h.shape_eq_of he fun _ => rfl)
  rw [acquires_iff, acquires_iff, hacquisition, isUsing_edited h hm hd, h.info_eq hm,
    h.location_eq d hd]
  refine and_congr_right fun hdeclared => and_congr_left' ?_
  obtain ⟨e, hshape, -⟩ := hdeclared
  have hv : v ∈ m.vars := List.mem_flatMap.mpr ⟨d, hd, by simp [hshape, Shape.introduced]⟩
  simp only [h.typeName_eq hv, resourceType_edited h hm hm']

end ResourceDisposal

/-! ## Maps -/

namespace SharedMap

variable {p : Patterns} {target : NodeId}

theorem mem_of_accessTarget? (hm : m.Linked) (hn : n ∈ m.nodes)
    (htarget : accessTarget? m.graph n = some target) : target ∈ m.nodes := by
  refine hm.rooted.mem_of_child hn ?_
  rw [accessTarget?] at htarget
  rw [Graph.children]
  split at htarget <;> rename_i hshape
  · simp [hshape, Shape.children, Shape.slots, htarget]
  · cases htarget
    simp [hshape, Shape.children, Shape.slots]
  · cases htarget

theorem accessTarget?_edited (h : m.Edited m') (hn : n ∈ m.nodes) :
    accessTarget? m'.graph n = accessTarget? m.graph n := by
  obtain ⟨xs, hxs⟩ := h.shape_eq n hn
  rw [accessTarget?, accessTarget?, hxs]
  cases m.graph.shape n <;> rfl

theorem isCandidate_edited (h : m.Edited m') (hm : m.Linked) (hn : n ∈ m.nodes) :
    isCandidate m' n = isCandidate m n := by
  rw [isCandidate, isCandidate, accessTarget?_edited h hn]
  rcases htarget : accessTarget? m.graph n with _ | target
  · rfl
  · obtain ⟨xs, hxs⟩ := h.shape_eq target (mem_of_accessTarget? hm hn htarget)
    rw [Option.any_some, Option.any_some, isAccess, isAccess, hxs]
    cases m.graph.shape target <;> rfl

theorem accessedVariable_edited (h : m.Edited m') (hn : n ∈ m.nodes) :
    m'.graph.accessedVariable n = m.graph.accessedVariable n := by
  obtain ⟨xs, hxs⟩ := h.shape_eq n hn
  rw [Graph.accessedVariable, Graph.accessedVariable, hxs, h.location_eq n hn]
  cases m.graph.shape n <;> rfl

theorem mem_vars_of_accessedVariable (hm : m.Linked) (hn : n ∈ m.nodes)
    (hv : m.graph.accessedVariable n = .ok (some v)) : v ∈ m.vars := by
  refine hm.mem_vars_of_mentioned? hn ?_
  rw [Graph.mentioned?]
  rcases accessedVariable_eq_some.mp hv with ⟨name, hshape⟩ | ⟨name, qualifier, hshape⟩ <;> rw [hshape]

theorem isSharedField_edited {patterns : NameSet} (h : m.Edited m') (hv : v ∈ m.vars) :
    isSharedField patterns (m'.graph.variable' v) = isSharedField patterns (m.graph.variable' v) := by
  have hstatic := congrArg Variable.isStatic (h.variable_eq v hv)
  simp only [] at hstatic
  rw [isSharedField, isSharedField, h.isField_eq hv, h.name_eq hv, hstatic]

/-- The same accesses are skipped, for the same reason. -/
theorem skipped_edited {text : String} (h : m.Edited m') (hm : m.Linked) (hn : n ∈ m.nodes) :
    Skipped m' n text ↔ Skipped m n text := by
  simp only [Skipped, Unjudged, HasLines, h.info_eq hm, h.location_eq n hn, accessTarget?_edited h hn,
    and_assoc]
  refine exists₂_congr fun target name => and_congr_right fun htarget => ?_
  have hmem := mem_of_accessTarget? hm hn htarget
  rw [h.shape_eq_of hmem fun _ => rfl, h.location_eq target hmem]

end SharedMap

end ModelLint
