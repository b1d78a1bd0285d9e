import ModelLint.Proofs.Source.Operands

/-!
# Resources that are held

The resources of a `with` statement are built one after the other, and each holds all that comes
behind it: the later resources and the body. A resource without a target is held as a lock or as a
resource to be released.

* `heldResources_append`: resources are built in a row.
* **`runs_withResources`**: what is held for a resource without a target, how, and what it holds.
-/

namespace ModelLint.Source

open Build

variable {locks : List String} {r : Range} {o : Option String} {s s' : Building}
  {context : Expr} {before after : List Resource} {block node : Tree} {held held' : List Held}
  {body : List Stmt}

/-! ## Building -/

theorem heldResources_append (before after : List Resource) :
    heldResources locks (before ++ after) = do
      let held ← heldResources locks before
      return held ++ (← heldResources locks after) := by
  induction before with
  | nil => simp [heldResources]
  | cons resource rest ih =>
    rw [List.cons_append, heldResources_cons, heldResources_cons, ih]
    simp only [bind_assoc, pure_bind, List.cons_append]

theorem resourceEvents_append (before after : List Resource) :
    resourceEvents o (before ++ after) = resourceEvents o before ++ resourceEvents o after := by
  induction before with
  | nil => rfl
  | cons resource rest ih =>
    rw [List.cons_append, resourceEvents_cons, resourceEvents_cons, ih]
    simp only [List.append_assoc]

/-- How a resource without a target is held. -/
def heldAs (node : Tree) (isLock : Bool) : Held := if isLock then .lock node else .resource node

theorem runs_heldFor_none : Runs (heldFor locks context node none) s (fun _ => True) fun held s' =>
    ∃ b, (isLock locks context node).run s = .ok (b, s) ∧ s' = s ∧ held = heldAs node b := by
  rw [heldFor]
  apply (runs_isLock.and runs_self).bind
  rintro b s₁ ⟨rfl, hrun⟩
  cases b
  · exact runs_pure ⟨false, hrun, rfl, rfl⟩
  · exact runs_pure ⟨true, hrun, rfl, rfl⟩

/-- A resource without a target is built between the resources before it and those behind it. -/
theorem runs_heldResources (hs : s.Open) (ho : s.object? = o) :
    Runs (heldResources locks (before ++ ⟨context, none⟩ :: after)) s (fun _ => True) fun held s' =>
      ∃ s₁ node s₂ b held₁ held₂, s₁.Open ∧ Leads (resourceEvents o before) s s₁ ∧
        (exprNode context).run s₁ = .ok (node, s₂) ∧
        (isLock locks context node).run s₂ = .ok (b, s₂) ∧ held = held₁ ++ heldAs node b :: held₂ ∧
        s₁.Reaches s₂ ∧ Visited [] (after.flatMap Resource.operands) (held₂.map Held.node) s₂ s' := by
  rw [heldResources_append]
  refine (leaps_heldResources before s hs ho).bind fun held₁ s₁ ⟨hs₁, h₁⟩ => ?_
  have ho₁ : s₁.object? = o := h₁.object?.trans ho
  rw [heldResources_cons, bind_assoc]
  refine ((carries_exprNode context s₁ hs₁).and runs_self).bind fun node s₂ ⟨h₂, hrun⟩ => ?_
  rw [bind_assoc]
  refine runs_heldFor_none.bind fun held s₃ ⟨b, hlock, hs₃, hheld⟩ => ?_
  subst hs₃ hheld
  rw [bind_assoc]
  refine (visits_heldResources after s₃ h₂.isOpen (h₂.grows.object?.trans ho₁)).bind
    fun held₂ s₄ h₃ => runs_pure ?_
  exact ⟨s₁, node, s₃, b, held₁, held₂, hs₁, h₁, hrun, hlock, rfl, h₂, h₃⟩

/-! ## Holding -/

/-- The node that holds all that comes behind a resource without a target. -/
def holder (r : Range) (node : Tree) (isLock : Bool) (inner : Tree) : Tree :=
  if isLock then nodeAt r (.lockStatement node (asBlock r inner))
  else nodeAt r (.usingStatement [node] (some (asBlock r inner)))

theorem within_holder {b : Bool} :
    Within [holder r node b (holdAll r held' block)]
      [holdAll r (held ++ heldAs node b :: held') block] := by
  have hholder : holdAll r (heldAs node b :: held') block = holder r node b (holdAll r held' block) := by
    cases b <;> rfl
  have happend : holdAll r (held ++ heldAs node b :: held') block =
      holdAll r held (holder r node b (holdAll r held' block)) := by
    rw [← hholder, holdAll, List.foldr_append]
    rfl
  rw [happend]
  exact (within_of_subset (by simp)).trans within_holdAll

/-- **A resource without a target was built between two states**, and holds the resources behind it and
the body: what they became stands below its holder. -/
def Holding (locks : List String) (o : Option String) (r : Range) (before : List Resource)
    (context : Expr) (after : List Resource) (body : List Stmt) (s : Building) (ts : List Tree)
    (s' : Building) : Prop :=
  ∃ s₁ node s₂ b inner, s₁.Open ∧ Leads (resourceEvents o before) s s₁ ∧
    (exprNode context).run s₁ = .ok (node, s₂) ∧ (isLock locks context node).run s₂ = .ok (b, s₂) ∧
    Within [holder r node b inner] ts ∧
    (∀ e ∈ after.flatMap Resource.operands, (s'.site [inner]).Took s.receivers (exprNodes [e])) ∧
    (s'.site [inner]).Took s.receivers (stmtsNodes locks body)

theorem runs_holding (hs : s.Open) (ho : s.object? = o) :
    Runs (do
      let held ← heldResources locks (before ++ ⟨context, none⟩ :: after)
      return [holdAll r held (blockAt r body (← stmtsNodes locks body))]) s (fun _ => True)
      (Holding locks o r before context after body s) := by
  refine (runs_heldResources hs ho).bind
    fun held s₃ ⟨s₁, node, s₂, b, held₁, held₂, hs₁, h₁, hrun, hlock, hheld, h₂, h₃⟩ => ?_
  refine ((carries_stmtsNodes body s₃ h₃.reaches.isOpen).and runs_self).bind
    fun us s₄ ⟨h₄, hbody⟩ => runs_pure ?_
  have hR : s₂.receivers = s.receivers := h₂.grows.receivers.trans h₁.receivers
  have hinner : Within (held₂.map Held.node ++ us) [holdAll r held₂ (blockAt r body us)] := by
    have hblock : Within us [blockAt r body us] := within_node (by simp [Shape.children, Shape.slots])
    refine within_append.mpr ⟨(within_of_subset ?_).trans within_holdAll,
      hblock.trans ((within_of_subset ?_).trans within_holdAll)⟩ <;> simp
  obtain ⟨hlater, hus⟩ := within_append.mp hinner
  refine ⟨s₁, node, s₂, b, _, hs₁, h₁, hrun, hlock, hheld ▸ within_holder, fun e he => ?_, ?_⟩
  · exact hR ▸ (h₃.built e he).keep ⟨hlater, within_of_subset h₄.grows.hoisted, h₄.grows.vars⟩
  · exact ⟨s₃, us, s₄, h₃.reaches.isOpen, h₃.reaches.grows.receivers.trans hR, hbody, hus,
      fun _ hu => hu, .refl _⟩

/-- **What a resource without a target holds** in a `with` statement. -/
theorem runs_withResources (hs : s.Open) (ho : s.object? = o) :
    Runs (stmtNodes locks (.withResources r (before ++ ⟨context, none⟩ :: after) body)) s
      (fun _ => True) (Holding locks o r before context after body s) := by
  rw [stmtNodes]
  refine Runs.bind (Q := fun p s' => Holding locks o r before context after body s p.2 s')
    (runs_collectPending ((runs_holding hs.clear ho).mono ?_)) ?_
  · rintro ts s' ⟨s₁, node, s₂, b, inner, hs₁, h₁, hrest⟩
    exact ⟨s₁, node, s₂, b, inner, hs₁, { h₁ with names := h₁.names }, hrest⟩
  · rintro ⟨pending, ts⟩ s' ⟨s₁, node, s₂, b, inner, hs₁, h₁, hrun, hlock, hholder, hrest⟩
    refine runs_pure ⟨s₁, node, s₂, b, inner, hs₁, h₁, hrun, hlock, hholder.trans ?_, hrest⟩
    exact within_of_subset (List.subset_append_right _ _)

end ModelLint.Source
