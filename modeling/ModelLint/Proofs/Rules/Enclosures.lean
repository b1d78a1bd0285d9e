import ModelLint.Proofs.Program.Enclosures
import ModelLint.Proofs.Rules.Diagnostics
import ModelLint.Proofs.Rules.Edits
import ModelLint.Proofs.Rules.SharedMap

/-!
# Locks around statements

What the rules say about a unit once a run of statements is put into a lock. The lock guards the maps that
are accessed in the run. A handler is concerned only if the target of the lock mentions what it catches, and
a resource only if no function stands around it.

* `GenericException.LogsNow`: a handler that logs once the run is put into the lock.
* `ResourceDisposal.Unheld`: a resource of the run that no function holds.
* `mem_reported_enclosed`: what each rule reports.
* **`Registry.reported_enclosed`**: what changes for the registered rules.
-/

namespace ModelLint

variable {e : Enclosure} {m m' : Model} {n body call d : NodeId} {v : VariableId}
  {phrases : List String} {description : String} {severity : Severity}

/-! ## Handlers -/

namespace GenericException

variable {p : Patterns} {logging : NameSet} {types : List String} {var : Option VariableId}

/-- **The lock logs the exception**: the run stands in a call of a logging method below the body of a
handler, and the target mentions what the handler catches. -/
structure LogsTarget (logging : NameSet) (e : Enclosure) (m m' : Model) (v : VariableId)
    (body call : NodeId) : Prop where
  /-- The call stands below the body. -/
  below : call ∈ m.graph.descendants body
  /-- It is a call of a method. -/
  isCall : IsCall m.graph call
  /-- The method is one that logs. -/
  named : Pattern.anyAccepts? logging (m.graph.dottedName call)
  /-- The run stands in the call. -/
  around : call ∈ m.graph.ancestors e.holder
  /-- The target mentions the variable. -/
  mentioned : m'.graph.mentioned? e.target = some v

/-- A handler logs what it catches now that the run is put into a lock. -/
def LogsNow (logging : NameSet) (e : Enclosure) (m m' : Model) (n : NodeId) : Prop :=
  ∃ types v body call, m.graph.shape n = .catchClause types (some v) body ∧
    LogsTarget logging e m m' v body call

variable (h : e.Encloses m m') (hm : m.Linked) (hm' : m'.Linked)

include h hm hm'

theorem logs_enclosed (hbody : body ∈ m.nodes) : Logs m'.graph logging v body call ↔
    Logs m.graph logging v body call ∨ LogsTarget logging e m m' v body call := by
  have hedited := h.edited hm hm'
  have hbody' : body ∈ m'.nodes := hedited.nodes_subset hbody
  constructor
  · intro hlogs
    have hcall' := ((hm'.rooted.mem_descendants_iff hbody').mp hlogs.below).1
    have hcall : call ∈ m.nodes := by
      obtain ⟨name, type, qualifier, arguments, hshape⟩ := hlogs.isCall
      exact h.mem_of_shape hm hm' hcall' hshape id
    have hbelow := (hedited.mem_descendants_iff hm hm' hbody hcall).mp hlogs.below
    have hisCall := (isCall_edited hedited hcall).mp hlogs.isCall
    have hnamed := hlogs.named
    rw [hedited.dottedName_eq hm hm' hcall] at hnamed
    obtain ⟨a, ha, hv⟩ := hlogs.mentioned
    have ha' : a ∈ m'.nodes := hm'.rooted.mem_of_mem_preorder hcall' ha
    -- of the new nodes only the target can mention a variable
    rcases h.mem_nodes_or hm hm' ha' with hmem | rfl | rfl | rfl
    · refine .inl ⟨hbelow, hisCall, hnamed, a, (hedited.mem_preorder_iff hm hm' hcall hmem).mp ha, ?_⟩
      rw [← hedited.mentioned?_eq hmem, hv]
    · rw [Graph.mentioned?, h.lock_eq] at hv
      cases hv
    · refine .inr ⟨hbelow, hisCall, hnamed, ?_, hv⟩
      have hne : e.target ≠ call := fun heq => h.target_new (heq ▸ hcall)
      have haround := ((hm'.rooted.mem_preorder_iff_ancestors hcall').mp ha).resolve_left hne
      rw [h.ancestors_target hm hm', List.mem_cons, List.mem_cons] at haround
      rcases haround.2 with rfl | rfl | haround
      · exact absurd hcall h.lock_new
      -- the call is not the holder itself: calls list no statements
      · obtain ⟨name, type, qualifier, arguments, hshape⟩ := hisCall
        exact absurd (by rw [hshape]; rfl) h.statements_ne_nil
      · exact (hedited.mem_ancestors_iff h.holder_mem hcall).mp haround
    · rw [Graph.mentioned?, h.body_eq] at hv
      cases hv
  · rintro (hlogs | htarget)
    · exact hlogs.edited hedited hm hm' hbody
    · have hcall : call ∈ m.nodes := ((hm.rooted.mem_descendants_iff hbody).mp htarget.below).1
      refine ⟨(hedited.mem_descendants_iff hm hm' hbody hcall).mpr htarget.below,
        (isCall_edited hedited hcall).mpr htarget.isCall, ?_, e.target, ?_, htarget.mentioned⟩
      · rw [hedited.dottedName_eq hm hm' hcall]
        exact htarget.named
      · refine (hm'.rooted.mem_preorder_iff_ancestors (hedited.nodes_subset hcall)).mpr
          (.inr ⟨h.target_mem hm hm', ?_⟩)
        rw [h.ancestors_target hm hm', List.mem_cons, List.mem_cons]
        exact .inr (.inr ((hedited.mem_ancestors_iff h.holder_mem hcall).mpr htarget.around))

theorem rethrows_enclosed (hbody : body ∈ m.nodes) :
    Rethrows m'.graph body ↔ Rethrows m.graph body := by
  have hedited := h.edited hm hm'
  refine ⟨?_, fun hrethrows => hrethrows.edited hedited hm hm' hbody⟩
  rintro ⟨c, hc, hshape⟩
  have hc' := ((hm'.rooted.mem_descendants_iff (hedited.nodes_subset hbody)).mp hc).1
  have hmem := h.mem_of_shape hm hm' hc' hshape id
  exact ⟨c, (hedited.mem_descendants_iff hm hm' hbody hmem).mp hc,
    (hedited.shape_eq_of hmem fun _ => rfl).mp hshape⟩

theorem swallows_enclosed (hn : n ∈ m.nodes) : Swallows p m'.graph n types var body ↔
    Swallows p m.graph n types var body ∧
      ∀ v, var = some v → ∀ call, ¬ LogsTarget p.logging e m m' v body call := by
  have hedited := h.edited hm hm'
  constructor
  · intro hswallows
    have hshape := (hedited.shape_eq_of hn fun _ => rfl).mp hswallows.shape_eq
    have hbody : body ∈ m.nodes := hm.rooted.mem_of_child hn (by
      simp [Graph.children, hshape, Shape.children, Shape.slots])
    rcases hswallows.dropped with hempty | ⟨hlogs, hrethrows⟩
    · rw [h.block_nil_iff hbody] at hempty
      refine ⟨⟨hshape, hswallows.generic, .inl hempty⟩, fun v hv call htarget => ?_⟩
      have hbelow := htarget.below
      rw [Graph.descendants, Graph.preorder, Graph.preorderTo, Graph.children, hempty] at hbelow
      cases hbelow
    · simp only [logs_enclosed h hm hm' hbody, not_or] at hlogs
      rw [rethrows_enclosed h hm hm' hbody] at hrethrows
      exact ⟨⟨hshape, hswallows.generic, .inr ⟨fun v hv call => (hlogs v hv call).1, hrethrows⟩⟩,
        fun v hv call => (hlogs v hv call).2⟩
  · rintro ⟨hswallows, htarget⟩
    have hshape := hswallows.shape_eq
    have hbody : body ∈ m.nodes := hm.rooted.mem_of_child hn (by
      simp [Graph.children, hshape, Shape.children, Shape.slots])
    refine ⟨(hedited.shape_eq_of hn fun _ => rfl).mpr hshape, hswallows.generic, ?_⟩
    rw [h.block_nil_iff hbody, rethrows_enclosed h hm hm' hbody]
    refine hswallows.dropped.imp_right fun hdropped => ⟨fun v hv call => ?_, hdropped.2⟩
    rw [logs_enclosed h hm hm' hbody, not_or]
    exact ⟨hdropped.1 v hv call, htarget v hv call⟩

/-- The handlers that are reported: those that were, but for those that the target makes log. -/
theorem mem_reported_enclosed : n ∈ (rule description severity p).reported phrases m' ↔
    n ∈ (rule description severity p).reported phrases m ∧ ¬ LogsNow p.logging e m m' n := by
  have hedited := h.edited hm hm'
  rw [Rule.mem_reported, Rule.mem_reported, exists_finding?_iff, exists_finding?_iff,
    hedited.info_eq hm]
  constructor
  · rintro ⟨hn', ⟨types, var, body, hswallows⟩, huncovered⟩
    have hn := h.mem_of_shape hm hm' hn' hswallows.shape_eq id
    obtain ⟨hswallowed, htarget⟩ := (swallows_enclosed h hm hm' hn).mp hswallows
    refine ⟨⟨hn, ⟨types, var, body, hswallowed⟩, hedited.location_eq n hn ▸ huncovered⟩, ?_⟩
    rintro ⟨types', v, body', call, hshape, hcall⟩
    cases hswallowed.shape_eq.symm.trans hshape
    exact htarget v rfl call hcall
  · rintro ⟨⟨hn, ⟨types, var, body, hswallows⟩, huncovered⟩, htarget⟩
    rw [← hedited.location_eq n hn] at huncovered
    refine ⟨hedited.nodes_subset hn, ⟨types, var, body, ?_⟩, huncovered⟩
    refine (swallows_enclosed h hm hm' hn).mpr ⟨hswallows, ?_⟩
    rintro v rfl call hcall
    exact htarget ⟨types, v, body, call, hswallows.shape_eq, hcall⟩

end GenericException

/-! ## Resources -/

namespace ResourceDisposal

variable {p : Patterns}

/-- **A resource that no function holds**: a declaration of the run, outside of any function, that the run
does not release. -/
structure Unheld (p : Patterns) (phrases : List String) (e : Enclosure) (m : Model) (d : NodeId)
    (v : VariableId) : Prop where
  /-- The declaration is in the run. -/
  listed : d ∈ e.run
  /-- The variable is local. -/
  isLocal : (m.graph.variable' v).kind = .localVar
  /-- It is a resource. -/
  acquires : Acquires p phrases m d v
  /-- No function stands around the run. -/
  outside : ∀ a ∈ m.graph.ancestors d, ¬ (m.graph.shape a).IsFunction
  /-- The run does not release it. -/
  unreleased : ∀ x, e.Inside m x → ¬ Releases m.graph p.release v x

variable (h : e.Encloses m m') (hm : m.Linked) (hm' : m'.Linked)

include h hm hm'

theorem mem_of_releases {x : NodeId} {release : NameSet} (hx : x ∈ m'.nodes)
    (hreleases : Releases m'.graph release v x) : x ∈ m.nodes := by
  obtain ⟨hshape, -, -⟩ | ⟨hshape, -, -⟩ | ⟨hshape, -, -⟩ | ⟨hshape, -⟩ | ⟨hshape, -, -⟩ := hreleases <;>
    exact h.mem_of_shape hm hm' hx hshape id

theorem unreleased_region_enclosed {region : NodeId} {release : NameSet} (hregion : region ∈ m.nodes) :
    (∀ x ∈ m'.graph.preorder region, ¬ Releases m'.graph release v x) ↔
      ∀ x ∈ m.graph.preorder region, ¬ Releases m.graph release v x := by
  have hedited := h.edited hm hm'
  constructor
  · intro hall x hx hreleases
    have hmem := hm.rooted.mem_of_mem_preorder hregion hx
    exact hall x ((hedited.mem_preorder_iff hm hm' hregion hmem).mpr hx)
      ((releases_edited hedited hm hmem).mpr hreleases)
  · intro hall x hx hreleases
    have hmem := mem_of_releases h hm hm'
      (hm'.rooted.mem_of_mem_preorder (hedited.nodes_subset hregion) hx) hreleases
    exact hall x ((hedited.mem_preorder_iff hm hm' hregion hmem).mp hx)
      ((releases_edited hedited hm hmem).mp hreleases)

/-- What is released in the body of the lock is released in the run. -/
theorem unreleased_body_enclosed {release : NameSet} :
    (∀ x ∈ m'.graph.preorder e.body, ¬ Releases m'.graph release v x) ↔
      ∀ x, e.Inside m x → ¬ Releases m.graph release v x := by
  have hedited := h.edited hm hm'
  have hbody := h.body_mem hm hm'
  constructor
  · intro hall x hinside hreleases
    have hmem := h.mem_of_inside hm hinside
    have haround := (h.mem_ancestors_new hm hm' x hmem _ h.body_new).mpr ⟨hinside, .inr rfl⟩
    exact hall x
      ((hm'.rooted.mem_preorder_iff_ancestors hbody).mpr (.inr ⟨hedited.nodes_subset hmem, haround⟩))
      ((releases_edited hedited hm hmem).mpr hreleases)
  · intro hall x hx hreleases
    have hmem := mem_of_releases h hm hm' (hm'.rooted.mem_of_mem_preorder hbody hx) hreleases
    have hne : x ≠ e.body := fun heq => h.body_new (heq ▸ hmem)
    have hbelow := ((hm'.rooted.mem_preorder_iff_ancestors hbody).mp hx).resolve_left hne
    exact hall x ((h.mem_ancestors_new hm hm' x hmem _ h.body_new).mp hbelow.2).1
      ((releases_edited hedited hm hmem).mp hreleases)

/-- A declaration is released where it was, but if no function holds the run it has to be released there. -/
theorem unreleased_enclosed {release : NameSet} (hn : n ∈ m.nodes) :
    (∃ o, m'.graph.owner n = some o ∧
        ∀ x ∈ m'.graph.preorder (releaseRegion m'.graph o), ¬ Releases m'.graph release v x) ↔
      (∃ o, m.graph.owner n = some o ∧
        ∀ x ∈ m.graph.preorder (releaseRegion m.graph o), ¬ Releases m.graph release v x) ∨
      n ∈ e.run ∧ (∀ a ∈ m.graph.ancestors n, ¬ (m.graph.shape a).IsFunction) ∧
        ∀ x, e.Inside m x → ¬ Releases m.graph release v x := by
  have hedited := h.edited hm hm'
  have hn' := hedited.nodes_subset hn
  have hfind := find?_isFunction_edited hedited hn
  rcases h.owner_eq_or hm hm' n hn with ⟨hrun, howner⟩ | ⟨hrun, howner, howner'⟩
  · rw [howner, or_iff_left fun hunheld => hrun hunheld.1]
    refine exists_congr fun o => and_congr_right fun ho => ?_
    rw [releaseRegion_eq_getD hm' hn' (howner.trans ho), hfind, ← releaseRegion_eq_getD hm hn ho]
    exact unreleased_region_enclosed h hm hm' (releaseRegion_mem hm hn ho)
  · have hregion' := releaseRegion_eq_getD hm' hn' howner'
    have hregion := releaseRegion_eq_getD hm hn howner
    have hmem := releaseRegion_mem hm hn howner
    rw [hfind] at hregion'
    -- in the run the owner changes, which matters only where no function is the region
    simp only [howner, howner', Option.some.injEq, exists_eq_left', hrun, true_and]
    rcases hfound : (m.graph.ancestors n).find? (isFunction m.graph) with _ | f
    · rw [hfound, Option.getD_none] at hregion hregion'
      rw [hregion, hregion', unreleased_body_enclosed h hm hm']
      have houtside : ∀ a ∈ m.graph.ancestors n, ¬ (m.graph.shape a).IsFunction := fun a ha hf =>
        List.find?_eq_none.mp hfound a ha (isFunction_iff.mpr hf)
      constructor
      · exact fun hall => .inr ⟨houtside, hall⟩
      · rintro (hall | hall)
        · exact fun x hinside => hall x (h.mem_preorder_holder hm hinside)
        · exact hall.2
    · rw [hfound, Option.getD_some] at hregion hregion'
      rw [hregion] at hmem
      rw [hregion, hregion', unreleased_region_enclosed h hm hm' hmem, or_iff_left]
      exact fun hunheld => hunheld.1 f (List.mem_of_find?_eq_some hfound)
        (isFunction_iff.mp (List.find?_some hfound))

/-- The resources that are reported: those that were, and those of the run that no function holds. -/
theorem mem_reported_enclosed : n ∈ (rule description severity p).reported phrases m' ↔
    n ∈ (rule description severity p).reported phrases m ∨ ∃ v, Unheld p phrases e m n v := by
  have hedited := h.edited hm hm'
  rw [Rule.mem_reported, Rule.mem_reported]
  by_cases hn : n ∈ m.nodes
  · have hn' := hedited.nodes_subset hn
    rw [exists_finding?_iff_region hm' hn', exists_finding?_iff_region hm hn, and_iff_right hn,
      and_iff_right hn', ← exists_or]
    refine exists_congr fun v => ?_
    rw [acquires_edited hedited hm hm' hn, unreleased_enclosed h hm hm' hn]
    have hkind : Acquires p phrases m n v →
        (m'.graph.variable' v).kind = (m.graph.variable' v).kind := by
      intro hacquires
      obtain ⟨_, hshape, -⟩ := hacquires.acquisition
      exact hedited.kind_eq (List.mem_flatMap.mpr ⟨n, hn, by simp [hshape, Shape.introduced]⟩)
    constructor
    · rintro ⟨hlocal, hacquires, hregion | ⟨hrun, houtside, hall⟩⟩
      · exact .inl ⟨hkind hacquires ▸ hlocal, hacquires, hregion⟩
      · exact .inr ⟨hrun, hkind hacquires ▸ hlocal, hacquires, houtside, hall⟩
    · rintro (⟨hlocal, hacquires, hregion⟩ | hunheld)
      · exact ⟨(hkind hacquires).trans hlocal, hacquires, .inl hregion⟩
      · exact ⟨(hkind hunheld.acquires).trans hunheld.isLocal, hunheld.acquires,
          .inr ⟨hunheld.listed, hunheld.outside, hunheld.unreleased⟩⟩
  · refine iff_of_false ?_ ?_
    · rintro ⟨hn', hfinding⟩
      obtain ⟨v, -, hacquires, -⟩ := (exists_finding?_iff_region hm' hn').mp hfinding
      obtain ⟨_, hshape, -⟩ := hacquires.acquisition
      exact hn (h.mem_of_shape hm hm' hn' hshape id)
    · rintro (hreported | ⟨v, hunheld⟩)
      · exact hn hreported.1
      · exact hn (h.mem_of_mem_run hm hunheld.listed)

end ResourceDisposal

/-! ## Maps -/

namespace SharedMap

variable {p : Patterns}

variable (h : e.Encloses m m') (hm : m.Linked) (hm' : m'.Linked)

include h hm hm'

theorem isWithin_lock_enclosed (hn : n ∈ m.nodes) :
    m'.graph.isWithin "Lock" n = true ↔ m.graph.isWithin "Lock" n = true ∨ e.Inside m n := by
  have hedited := h.edited hm hm'
  rw [Graph.isWithin, Graph.isWithin, List.any_eq_true, List.any_eq_true]
  constructor
  · rintro ⟨x, hx, hlock⟩
    by_cases hmem : x ∈ m.nodes
    · exact .inl ⟨x, (hedited.mem_ancestors_iff hn hmem).mp hx, hedited.isA_eq hmem "Lock" ▸ hlock⟩
    · exact .inr ((h.mem_ancestors_new hm hm' n hn x hmem).mp hx).1
  · rintro (⟨x, hx, hlock⟩ | hinside)
    · have hmem := hm.rooted.mem_of_mem_ancestors hn hx
      exact ⟨x, (hedited.mem_ancestors_iff hn hmem).mpr hx, (hedited.isA_eq hmem "Lock").trans hlock⟩
    · exact ⟨e.lock, (h.mem_ancestors_new hm hm' n hn _ h.lock_new).mpr ⟨hinside, .inl rfl⟩,
        isA_lock.mpr ⟨_, _, h.lock_eq⟩⟩

theorem isLaunch_new {patterns : List String} (hn : n ∈ m'.nodes) (hnew : n ∉ m.nodes) :
    m'.graph.isLaunch patterns n = false := by
  rw [Graph.isLaunch]
  split
  · next hshape => exact absurd (h.mem_of_shape hm hm' hn hshape id) hnew
  · next hshape => exact absurd (h.mem_of_shape hm hm' hn hshape id) hnew
  · rfl

theorem judge_enclosed (hn : n ∈ m.nodes) :
    (∃ message, judge p m' n = .ok (some message)) ↔
      (∃ message, judge p m n = .ok (some message)) ∧ ¬ e.Inside m n := by
  have hedited := h.edited hm hm'
  rw [judge_eq_some, judge_eq_some, accessTarget?_edited hedited hn, isWithin_lock_enclosed h hm hm' hn,
    hedited.isConcurrent_eq hm hm' (fun x => isLaunch_new h hm hm') hn]
  constructor
  · rintro ⟨target, v, htarget, hv, hmap, hlock, hshared⟩
    have hmem := mem_of_accessTarget? hm hn htarget
    rw [accessedVariable_edited hedited hmem] at hv
    have hvar := mem_vars_of_accessedVariable hm hmem hv
    rw [hedited.typeName_eq hvar] at hmap
    rw [isSharedField_edited hedited hvar] at hshared
    rw [not_or] at hlock
    exact ⟨⟨target, v, htarget, hv, hmap, hlock.1, hshared⟩, hlock.2⟩
  · rintro ⟨⟨target, v, htarget, hv, hmap, hlock, hshared⟩, hinside⟩
    have hmem := mem_of_accessTarget? hm hn htarget
    have hvar := mem_vars_of_accessedVariable hm hmem hv
    rw [← accessedVariable_edited hedited hmem] at hv
    rw [← hedited.typeName_eq hvar] at hmap
    rw [← isSharedField_edited hedited hvar] at hshared
    exact ⟨target, v, htarget, hv, hmap, not_or.mpr ⟨hlock, hinside⟩, hshared⟩

theorem isExempt_enclosed (hn : n ∈ m.nodes) : isExempt p m' n = isExempt p m n := by
  have hedited := h.edited hm hm'
  rw [isExempt, isExempt, hedited.any_isConstructor_enclosingMethod hm hn,
    hedited.isConcurrent_eq hm hm' (fun x => isLaunch_new h hm hm') hn]

theorem mem_of_accessTarget?_enclosed {target : NodeId} (hn : n ∈ m'.nodes)
    (htarget : accessTarget? m'.graph n = some target) : n ∈ m.nodes := by
  rw [accessTarget?] at htarget
  split at htarget <;> rename_i hshape
  · exact h.mem_of_shape hm hm' hn hshape id
  · exact h.mem_of_shape hm hm' hn hshape id
  · cases htarget

/-- The accesses that are reported: those that were, but for those inside. -/
theorem mem_reported_enclosed : n ∈ (rule description severity p).reported phrases m' ↔
    n ∈ (rule description severity p).reported phrases m ∧ ¬ e.Inside m n := by
  have hedited := h.edited hm hm'
  rw [Rule.mem_reported, Rule.mem_reported, Rule.exists_finding?_iff, Rule.exists_finding?_iff]
  by_cases hn : n ∈ m.nodes
  · simp only [rule, and_iff_right hn, and_iff_right (hedited.nodes_subset hn),
      isCandidate_edited hedited hm hn, isExempt_enclosed h hm hm' hn, judge_enclosed h hm hm' hn,
      hedited.info_eq hm, hedited.location_eq n hn, and_assoc]
  · refine iff_of_false ?_ fun hreported => hn hreported.1.1
    rintro ⟨hn', hcandidate, -⟩
    obtain ⟨target, htarget, -⟩ := (Option.any_eq_true _ _).mp hcandidate
    exact hn (mem_of_accessTarget?_enclosed h hm hm' hn' htarget)

theorem skipped_enclosed {text : String} : n ∈ m'.nodes ∧ Skipped m' n text ↔
    n ∈ m.nodes ∧ Skipped m n text := by
  have hedited := h.edited hm hm'
  constructor
  · rintro ⟨hn', hskipped⟩
    have ⟨_, _, hunjudged, _⟩ := hskipped
    have hn := mem_of_accessTarget?_enclosed h hm hm' hn' hunjudged.1
    exact ⟨hn, (skipped_edited hedited hm hn).mp hskipped⟩
  · rintro ⟨hn, hskipped⟩
    exact ⟨hedited.nodes_subset hn, (skipped_edited hedited hm hn).mpr hskipped⟩

end SharedMap

/-! ## Registered rules -/

namespace Registry

/-- **A run of statements that is put into a lock.** The maps that are accessed in the run are no longer
reported. All else that was reported still is, but for handlers that now log what they catch, as the lock
mentions it in a call that logs; and nothing else is reported, but for resources of a run outside of any
function, as now the run itself has to release them. The same nodes are skipped. -/
theorem reported_enclosed (hm : m.Linked) (hm' : m'.Linked) (h : e.Encloses m m')
    (phrases : List String) :
    (∀ s r, genericException.build s = .ok r → ∀ n, n ∈ r.reported phrases m' ↔
      n ∈ r.reported phrases m ∧ ∀ logging, s.pattern? "logging_methods" = some logging →
        ¬ GenericException.LogsNow logging e m m' n) ∧
    (∀ s r, resourceDisposal.build s = .ok r → ∀ n, n ∈ r.reported phrases m' ↔
      n ∈ r.reported phrases m ∨ ∃ p v, s.pattern? "resource_types" = some p.resourceTypes ∧
        s.pattern? "release_methods" = some p.release ∧
          ResourceDisposal.Unheld p phrases e m n v) ∧
    (∀ s r, sharedMap.build s = .ok r → ∀ n, n ∈ r.reported phrases m' ↔
      n ∈ r.reported phrases m ∧ ¬ e.Inside m n) ∧
    ∀ d ∈ definitions, ∀ s r, d.build s = .ok r → ∀ n,
      n ∈ r.skipped phrases m' ↔ n ∈ r.skipped phrases m := by
  refine ⟨fun s r hr n => ?handlers, fun s r hr n => ?resources, fun s r hr n => ?maps,
    fun d hd s r hr n => ?skipped⟩
  case handlers =>
    obtain ⟨p, hlogging, -, rfl⟩ := GenericException.build_eq_ok hr
    rw [GenericException.mem_reported_enclosed h hm hm', hlogging]
    simp only [Option.some.injEq, forall_eq']
  case resources =>
    obtain ⟨p, htypes, hrelease, rfl⟩ := ResourceDisposal.build_eq_ok hr
    rw [ResourceDisposal.mem_reported_enclosed h hm hm', htypes, hrelease]
    refine or_congr_right ⟨?_, ?_⟩
    · rintro ⟨v, hunheld⟩
      exact ⟨p, v, rfl, rfl, hunheld⟩
    · rintro ⟨⟨types, release⟩, v, htypes', hrelease', hunheld⟩
      cases p
      cases htypes'
      cases hrelease'
      exact ⟨v, hunheld⟩
  case maps =>
    obtain ⟨p, -, -, -, -, rfl⟩ := SharedMap.build_eq_ok hr
    exact SharedMap.mem_reported_enclosed h hm hm'
  case skipped =>
    have hskipped : ∀ {u : Model}, u.Linked → (n ∈ r.skipped phrases u ↔
        r.id = SharedMap.ruleId ∧ ∃ text, n ∈ u.nodes ∧ SharedMap.Skipped u n text) := by
      intro u hu
      rw [Rule.mem_skipped]
      constructor
      · rintro ⟨hn, text, htext⟩
        obtain ⟨hrule, hskip⟩ := (diagnostic?_eq_some hu hn hd hr).mp htext
        exact ⟨hrule, text, hn, hskip⟩
      · rintro ⟨hrule, text, hn, hskip⟩
        exact ⟨hn, text, (diagnostic?_eq_some hu hn hd hr).mpr ⟨hrule, hskip⟩⟩
    rw [hskipped hm', hskipped hm]
    simp only [SharedMap.skipped_enclosed h hm hm']

end Registry

/-! ## Two units -/

/-- The nodes of an asynchronous function with a handler that logs something else than what it caught: an
anonymous function of the given statements. -/
def loggingUnit (statements : List NodeId) (more : Array Node) : Graph where
  nodes := #[
    ⟨⟨1, 0, none, none⟩, .sourceUnit ⟨⟨"", ["m.py"]⟩, "python", [], []⟩ [1], none⟩,
    ⟨⟨1, 0, none, none⟩, .declaration ⟨"f", .method, "f", ["async"], [0], none, false⟩ [] none [2],
      none⟩,
    ⟨⟨2, 4, none, none⟩, .tryStatement 3 [4] none, none⟩,
    ⟨⟨2, 4, none, none⟩, .block [], none⟩,
    ⟨⟨4, 4, none, none⟩, .catchClause [] (some 1) 5, none⟩,
    ⟨⟨4, 4, none, none⟩, .block [6], none⟩,
    ⟨⟨5, 8, none, none⟩, .exprStatement 7, none⟩,
    ⟨⟨5, 8, none, none⟩, .methodCall "log" none none [8], none⟩,
    ⟨⟨5, 12, none, none⟩, .lambda [] false statements, none⟩,
    ⟨⟨6, 16, none, none⟩, .exprStatement 10, none⟩,
    ⟨⟨6, 16, none, none⟩, .elementAccess 11 none, none⟩,
    ⟨⟨6, 16, none, none⟩, .varAccess "d" (some 0), none⟩] ++ more
  vars := #[⟨"d", some "dict", .parameter, false, none⟩, ⟨"e", none, .localVar, false, none⟩]

/-- The graph where the statement of the anonymous function is in a lock on the exception. -/
def lockedLoggingUnit : Graph :=
  loggingUnit [12] #[⟨⟨6, 12, none, none⟩, .lockStatement 13 14, none⟩,
    ⟨⟨6, 12, none, none⟩, .varAccess "e" (some 1), none⟩, ⟨⟨6, 12, none, none⟩, .block [9], none⟩]

/-- The unit without the lock. -/
def loggingModel : Model := ⟨((loggingUnit [9] #[]).link 0).1, 0⟩

/-- The unit with the lock. -/
def lockedLoggingModel : Model := ⟨(lockedLoggingUnit.link 0).1, 0⟩

/-- The run of the one statement. -/
def loggingEnclosure : Enclosure := ⟨8, [], [9], [], 12, 13, 14⟩

/-- Settings of the rule on handlers where `log` logs. -/
def loggingSettings : RuleSettings where
  severity := .error
  enabled := true
  patterns := [("logging_methods", ["log"]), ("root_exception_types", [])]

theorem linked_loggingModel : loggingModel.Linked :=
  ⟨loggingUnit [9] #[], ⟨by decide, by decide⟩, by decide, ⟨_, _, rfl⟩, Prod.ext rfl rfl⟩

theorem linked_lockedLoggingModel : lockedLoggingModel.Linked :=
  ⟨lockedLoggingUnit, ⟨by decide, by decide⟩, by decide, ⟨_, _, rfl⟩, Prod.ext rfl rfl⟩

theorem encloses_loggingEnclosure : loggingEnclosure.Encloses loggingModel lockedLoggingModel where
  root_eq := rfl
  location_eq := by decide +kernel
  shape_eq := by
    have hnodes : loggingModel.nodes = [0, 1, 2, 3, 4, 5, 6, 7, 8, 9, 10, 11] := by decide +kernel
    simp only [loggingModel, lockedLoggingModel, (Graph.sameSkeleton_link _ _).shape_eq] at hnodes ⊢
    simp only [hnodes, List.mem_cons, List.not_mem_nil, or_false, forall_eq_or_imp, forall_eq]
    exact ⟨fun _ => rfl, fun _ => rfl, fun _ => rfl, fun _ => rfl, fun _ => rfl, fun _ => rfl,
      fun _ => rfl, fun _ => rfl, fun hne => absurd rfl hne, fun _ => rfl, fun _ => rfl, fun _ => rfl⟩
  variable_eq := by decide +kernel
  run_ne_nil := by decide
  holder_mem := by decide +kernel
  statements_eq := by
    rw [loggingModel, (Graph.sameSkeleton_link _ _).shape_eq]
    rfl
  holder_eq := by
    rw [loggingModel, lockedLoggingModel, (Graph.sameSkeleton_link _ _).shape_eq,
      (Graph.sameSkeleton_link _ _).shape_eq]
    rfl
  lock_eq := (Graph.sameSkeleton_link lockedLoggingUnit 0).shape_eq 12
  body_eq := (Graph.sameSkeleton_link lockedLoggingUnit 0).shape_eq 14
  target_eq := .inr ⟨"e", 1, (Graph.sameSkeleton_link lockedLoggingUnit 0).shape_eq 13⟩
  lock_new := by decide +kernel
  target_new := by decide +kernel
  body_new := by decide +kernel

/-- The access in the lock is not reported there, as it is without the lock. -/
theorem reported_lockedLoggingModel : loggingModel.Linked ∧ lockedLoggingModel.Linked ∧
    loggingEnclosure.Encloses loggingModel lockedLoggingModel ∧
    ∃ r, Registry.sharedMap.build SharedMap.readerSettings = .ok r ∧
      10 ∈ r.reported [] loggingModel ∧ 10 ∉ r.reported [] lockedLoggingModel := by
  obtain ⟨-, -, hmaps, -⟩ := Registry.reported_enclosed linked_loggingModel linked_lockedLoggingModel
    encloses_loggingEnclosure []
  refine ⟨linked_loggingModel, linked_lockedLoggingModel, encloses_loggingEnclosure, _, rfl, ?_, ?_⟩
  · decide +kernel
  · rw [hmaps SharedMap.readerSettings _ rfl]
    exact fun hreported => hreported.2 ⟨9, by decide, by decide +kernel⟩

/-- The nodes of a type that lists the given statements: one opens a file, the other closes it. -/
def typeUnit (statements : List NodeId) (more : Array Node) : Graph where
  nodes := #[
    ⟨⟨1, 0, none, none⟩, .sourceUnit ⟨⟨"", ["m.py"]⟩, "python", [], []⟩ [1], none⟩,
    ⟨⟨1, 0, none, none⟩, .declaration ⟨"C", .type, "C", [], [], none, false⟩ [] none statements, none⟩,
    ⟨⟨2, 4, none, none⟩, .varDeclaration 0 (some 3), none⟩,
    ⟨⟨2, 8, none, none⟩, .objectCreation "File" [], none⟩,
    ⟨⟨3, 4, none, none⟩, .exprStatement 5, none⟩,
    ⟨⟨3, 4, none, none⟩, .methodCall "close" none (some 6) [], none⟩,
    ⟨⟨3, 4, none, none⟩, .varAccess "f" (some 0), none⟩] ++ more
  vars := #[⟨"f", some "File", .localVar, false, none⟩]

/-- The graph where the file is opened in a lock on a literal. -/
def lockedTypeUnit : Graph :=
  typeUnit [7, 4] #[⟨⟨2, 4, none, none⟩, .lockStatement 8 9, none⟩,
    ⟨⟨2, 4, none, none⟩, .literal .ellipsis, none⟩, ⟨⟨2, 4, none, none⟩, .block [2], none⟩]

/-- The unit without the lock. -/
def typeModel : Model := ⟨((typeUnit [2, 4] #[]).link 0).1, 0⟩

/-- The unit with the lock. -/
def lockedTypeModel : Model := ⟨(lockedTypeUnit.link 0).1, 0⟩

/-- The run of the first statement. -/
def typeEnclosure : Enclosure := ⟨1, [], [2], [4], 7, 8, 9⟩

/-- Settings of the rule on resources for files. -/
def fileSettings : RuleSettings where
  severity := .error
  enabled := true
  patterns := [("resource_types", ["File"]), ("release_methods", ["close"])]

theorem linked_typeModel : typeModel.Linked :=
  ⟨typeUnit [2, 4] #[], ⟨by decide, by decide⟩, by decide, ⟨_, _, rfl⟩, Prod.ext rfl rfl⟩

theorem linked_lockedTypeModel : lockedTypeModel.Linked :=
  ⟨lockedTypeUnit, ⟨by decide, by decide⟩, by decide, ⟨_, _, rfl⟩, Prod.ext rfl rfl⟩

theorem encloses_typeEnclosure : typeEnclosure.Encloses typeModel lockedTypeModel where
  root_eq := rfl
  location_eq := by decide +kernel
  shape_eq := by
    have hnodes : typeModel.nodes = [0, 1, 2, 3, 4, 5, 6] := by decide +kernel
    simp only [typeModel, lockedTypeModel, (Graph.sameSkeleton_link _ _).shape_eq] at hnodes ⊢
    simp only [hnodes, List.mem_cons, List.not_mem_nil, or_false, forall_eq_or_imp, forall_eq]
    exact ⟨fun _ => rfl, fun hne => absurd rfl hne, fun _ => rfl, fun _ => rfl, fun _ => rfl,
      fun _ => rfl, fun _ => rfl⟩
  variable_eq := by decide +kernel
  run_ne_nil := by decide
  holder_mem := by decide +kernel
  statements_eq := by
    rw [typeModel, (Graph.sameSkeleton_link _ _).shape_eq]
    rfl
  holder_eq := by
    rw [typeModel, lockedTypeModel, (Graph.sameSkeleton_link _ _).shape_eq,
      (Graph.sameSkeleton_link _ _).shape_eq]
    rfl
  lock_eq := (Graph.sameSkeleton_link lockedTypeUnit 0).shape_eq 7
  body_eq := (Graph.sameSkeleton_link lockedTypeUnit 0).shape_eq 9
  target_eq := .inl ⟨_, (Graph.sameSkeleton_link lockedTypeUnit 0).shape_eq 8⟩
  lock_new := by decide +kernel
  target_new := by decide +kernel
  body_new := by decide +kernel

/-- **A lock does matter for handlers and resources.** A handler is no longer reported as the lock in the
call that logs mentions what it catches, and a resource is reported as its release is outside of the lock
and no function is around. -/
theorem reported_differs_enclosed :
    (loggingModel.Linked ∧ lockedLoggingModel.Linked ∧
      loggingEnclosure.Encloses loggingModel lockedLoggingModel ∧
      ∃ r, Registry.genericException.build loggingSettings = .ok r ∧
        4 ∈ r.reported [] loggingModel ∧ 4 ∉ r.reported [] lockedLoggingModel) ∧
    (typeModel.Linked ∧ lockedTypeModel.Linked ∧ typeEnclosure.Encloses typeModel lockedTypeModel ∧
      ∃ r, Registry.resourceDisposal.build fileSettings = .ok r ∧
        2 ∉ r.reported [] typeModel ∧ 2 ∈ r.reported [] lockedTypeModel) := by
  refine ⟨⟨linked_loggingModel, linked_lockedLoggingModel, encloses_loggingEnclosure, _, rfl, ?_, ?_⟩,
    linked_typeModel, linked_lockedTypeModel, encloses_typeEnclosure, _, rfl, ?_, ?_⟩ <;>
  decide +kernel

end ModelLint
