import ModelLint.Proofs.Source.Captures
import ModelLint.Proofs.Source.Loading

/-!
# The functions of a module

A module is built statement by statement. Each step follows the events of its statement in the frame of
the module, and all functions among the events are resolved in the trees that the module has so far.

* `ModuleParts.Traced`: what is known of a module while it is built.
* `ModuleParts.traced_addStatement`: the step of a statement.
* `resolved_moduleNode`: the functions of a module are resolved in its tree.
* **`resolved_of_load`**: the functions of a source are resolved in its unit.
-/

namespace ModelLint.Source

open Build

variable {α : Type} {locks : List String} {r : Range} {s s' : Building} {es fs : List Event}
  {parts parts' : ModuleParts} {names : List String} {made : Tree → Prop}

theorem routine_mem_inward {parameters : List String} {f : Routine}
    (h : Event.routine f ∈ (captured parameters es).map Event.inward) : Event.routine f ∈ es := by
  obtain ⟨e, he, heq⟩ := List.mem_map.mp h
  obtain ⟨he, -⟩ := List.mem_filter.mp he
  cases e <;> cases heq
  exact he

namespace ModuleParts

/-- The trees of a module so far, with those that were put aside. -/
def trees (parts : ModuleParts) (s : Building) : List Tree :=
  parts.members ++ (parts.statements ++ s.moving)

/-- **A module is built along events**: all functions among them are resolved in the trees. -/
structure Traced (parts : ModuleParts) (es : List Event) (s : Building) : Prop where
  /-- No method is open. -/
  object? : s.object? = none
  /-- Names mean variables that are there. -/
  bounded : s.Bounded
  /-- So do the names of the module's own frame. -/
  frame : ∀ e ∈ parts.frame.names, (e.2 : Nat) < s.vars.size
  /-- Functions are resolved. -/
  routines : ∀ f, .routine f ∈ es → f.Resolved (Stands (parts.trees s))

theorem Traced.opened (h : parts.Traced es s) :
    Building.Bounded { s with frames := parts.frame :: s.frames } :=
  h.bounded.openFrame h.frame

/-- More trees and variables come up, and more events. -/
theorem Traced.step (h : parts.Traced es s) (hobject : s'.object? = none) (hbounded : s'.Bounded)
    (hframe : ∀ e ∈ parts'.frame.names, (e.2 : Nat) < s'.vars.size)
    (htrees : parts.trees s ⊆ parts'.trees s')
    (hroutines : ∀ f, .routine f ∈ fs → f.Resolved (Stands (parts'.trees s'))) :
    parts'.Traced (es ++ fs) s' where
  object? := hobject
  bounded := hbounded
  frame := hframe
  routines f hf := by
    rcases List.mem_append.mp hf with hf | hf
    · exact (h.routines f hf).mono (within_of_subset htrees)
    · exact hroutines f hf

/-- Trees are added in a step that has no events. -/
theorem Traced.calm (h : parts.Traced es s) (hs : ∀ made, Follows made [] s s')
    (hframe : parts'.frame = parts.frame) (hmembers : parts.members ⊆ parts'.members)
    (hstatements : parts.statements ⊆ parts'.statements) : parts'.Traced es s' := by
  have hcalm := hs fun _ => True
  rw [← List.append_nil es]
  refine h.step (hcalm.object?.trans h.object?) (hcalm.bounded h.bounded) (fun e he => ?_) ?_ nofun
  · exact Nat.lt_of_lt_of_le (h.frame e (hframe ▸ he)) hcalm.size
  · exact List.append_subset.mpr ⟨List.subset_append_of_subset_left _ hmembers, List.append_subset.mpr
      ⟨List.subset_append_of_subset_right _ (List.subset_append_of_subset_left _ hstatements),
        List.subset_append_of_subset_right _ (List.subset_append_of_subset_right _ hcalm.moving)⟩⟩

theorem Traced.members {ts : List Tree} (h : parts.Traced es s)
    (hs : Follows (Stands (ts ++ s'.moving)) fs s s') :
    { parts with members := parts.members ++ ts }.Traced (es ++ fs) s' := by
  refine h.step (hs.object?.trans h.object?) (hs.bounded h.bounded) (fun e he => ?_) ?_ fun f hf => ?_
  · exact Nat.lt_of_lt_of_le (h.frame e he) hs.size
  · intro t ht
    simp only [trees, List.mem_append] at ht ⊢
    rcases ht with ht | ht | ht
    · exact .inl (.inl ht)
    · exact .inr (.inl ht)
    · exact .inr (.inr (hs.moving ht))
  · refine ((hs.names h.bounded "").routine hf).mono (within_of_subset fun t ht => ?_)
    simp only [trees, List.mem_append] at ht ⊢
    tauto

/-- Of the events only the functions matter. -/
theorem Traced.of_routines (h : parts.Traced es s) (hes : ∀ f, .routine f ∈ fs → .routine f ∈ es) :
    parts.Traced fs s :=
  { h with routines := fun f hf => h.routines f (hes f hf) }

theorem traced_inFrame {x : Build (List Tree)} (hx : Traces none [] x fs id)
    (h : parts.Traced es s) :
    Runs (parts.inFrame x) s (fun _ => True) fun parts' s' => parts'.Traced (es ++ fs) s' := by
  refine runs_modify_bind (Runs.bind (hx { s with frames := _ :: s.frames } h.object?)
    fun ts s₁ ⟨h₁, _⟩ => runs_get_bind (runs_set_bind (runs_pure ?_)))
  have hbounded := h₁.bounded h.opened
  obtain ⟨frame, outer, hframes⟩ := List.exists_cons_of_length_eq_add_one h₁.frames_length
  refine h.step (h₁.object?.trans h.object?) hbounded.closeFrame (fun e he => ?_) ?_ fun f hf => ?_
  · rw [hframes] at he
    exact hbounded.1 frame (hframes ▸ List.mem_cons_self) e he
  · intro t ht
    simp only [trees, List.mem_append] at ht ⊢
    rcases ht with ht | ht | ht
    · exact .inl ht
    · exact .inr (.inl (.inl ht))
    · exact .inr (.inr (h₁.moving ht))
  · refine ((h₁.names h.opened "").routine hf).mono (within_of_subset fun t ht => ?_)
    simp only [trees, List.mem_append] at ht ⊢
    exact .inr (ht.imp .inr id)

theorem runs_addFields {modifiers : List String} {initializer : Option Tree} : (names : List String) →
    {parts : ModuleParts} → {s : Building} →
    Runs (parts.addFields r modifiers initializer names) s (fun _ => True) fun parts' s' =>
      (∀ made, Follows made [] s s') ∧ parts.members ⊆ parts'.members ∧
        parts'.statements = parts.statements ∧ parts'.frame = parts.frame
  | [], _, s => runs_pure ⟨fun _ => .refl s, fun _ ht => ht, rfl, rfl⟩
  | name :: rest, parts, s => by
    rw [addFields]
    refine runs_get_bind ?_
    split
    · refine Runs.bind (calm_fieldAt s) fun t s₁ h₁ => (runs_addFields rest).mono ?_
      rintro parts' s' ⟨h', hmembers, hstatements, hframe⟩
      exact ⟨fun made => (h₁ made).trans (h' made),
        List.Subset.trans (List.subset_append_left _ _) hmembers, hstatements, hframe⟩
    · exact runs_addFields rest

theorem traced_addFields {modifiers : List String} {initializer : Option Tree}
    (h : parts.Traced es s) : Runs (parts.addFields r modifiers initializer names) s (fun _ => True)
      fun parts' s' => parts'.Traced es s' :=
  (runs_addFields names).mono fun _ _ ⟨h₁, hmembers, hstatements, hframe⟩ =>
    h.calm h₁ hframe hmembers fun _ ht => hstatements ▸ ht

theorem traced_addAssignment {stmt : Stmt} {targets : List Expr} {value : Option Expr}
    (h : parts.Traced es s) : Runs (parts.addAssignment locks stmt targets value) s (fun _ => True)
      fun parts' s' => parts'.Traced es s' := by
  have hinFrame : ∀ {parts : ModuleParts} {s : Building}, parts.Traced es s →
      Runs (parts.inFrame (stmtNodes locks stmt)) s (fun _ => True) fun parts' s' =>
        parts'.Traced es s' := fun h =>
    (traced_inFrame (traces_stmtNodes none stmt) h).mono fun _ _ h' =>
      h'.of_routines fun _ hf => List.mem_append_left _ hf
  rw [addAssignment.eq_def]
  split
  · split
    · exact hinFrame h
    · have hplaced : ∀ (name : String) (x : Build (Option Tree)) (fs : List Event),
          Traces none [] x fs Option.toList → Runs (do
            let initializer ← x
            let state ← get
            set { state with frames := state.frames.drop 1, pending := [] }
            let parts ← parts.addFields stmt.range [] initializer [name]
            return { parts with
              statements := parts.statements ++ state.pending
              frame := state.frames.headD parts.frame })
            { s with frames := parts.frame :: s.frames } (fun _ => True) fun parts' s' =>
              parts'.Traced es s' := by
        intro name x fs hx
        apply Runs.bind (hx { s with frames := _ :: s.frames } h.object?)
        rintro t s₁ ⟨h₁, -⟩
        refine runs_get_bind (runs_set_bind ?_)
        obtain ⟨frame, outer, hframes⟩ := List.exists_cons_of_length_eq_add_one h₁.frames_length
        have hbounded := h₁.bounded h.opened
        apply (runs_addFields [name]).bind
        rintro parts₂ s₂ ⟨h₂, hmembers, hstatements, -⟩
        refine runs_pure ?_
        have hcalm := h₂ fun _ => True
        rw [← List.append_nil es]
        refine h.step (hcalm.object?.trans (h₁.object?.trans h.object?))
          (hcalm.bounded ⟨hbounded.closeFrame.1, hbounded.2⟩) (fun e he => ?_) (fun u hu => ?_)
          (by simp)
        · rw [hframes] at he
          exact Nat.lt_of_lt_of_le (hbounded.1 frame (hframes ▸ List.mem_cons_self) e he) hcalm.size
        · -- what was pending is a statement now
          have hmoving := hcalm.moving
          have hpending := h₁.pending
          have hhoisted := h₁.hoisted
          simp only [trees, Building.moving, List.mem_append, List.nil_append] at hu hmoving ⊢
          rcases hu with hu | hu | hu | hu
          · exact .inl (hmembers hu)
          · exact .inr (.inl (.inl (hstatements ▸ hu)))
          · exact .inr (.inl (.inr (hpending hu)))
          · exact .inr (.inr (List.mem_append.mp (hmoving (hhoisted hu))))
      refine runs_modify_bind ?_
      split
      · exact hplaced _ _ [] (traces_pure within_nil)
      · next value => exact hplaced _ _ _ (traces_exprNode value).map
  · exact Runs.bind (traced_addFields h) fun parts₁ s₁ h₁ => hinFrame h₁

/-- **A statement of a module** is built along its events. -/
theorem traced_addStatement {stmt : Stmt} (h : parts.Traced es s) :
    Runs (parts.addStatement locks stmt) s (fun _ => True) fun parts' s' =>
      parts'.Traced (es ++ moduleEvents [stmt]) s' := by
  have hnone : ∀ {parts' : ModuleParts} {s' : Building}, parts'.Traced es s' →
      parts'.Traced (es ++ []) s' := fun h' => (List.append_nil es).symm ▸ h'
  have hinFrame : ∀ stmt : Stmt, moduleEvents [stmt] = stmt.events .built none →
      Runs (parts.inFrame (stmtNodes locks stmt)) s (fun _ => True) fun parts' s' =>
        parts'.Traced (es ++ moduleEvents [stmt]) s' := fun stmt hevents => by
    rw [hevents]
    exact traced_inFrame (traces_stmtNodes none stmt) h
  cases stmt with
  | function r signature body =>
    have hmethod : Traces none [] (methodNode r signature none (stmtsNodes locks body)) _ _ :=
      traces_methodNode (f := ⟨r, none, signature, body⟩) (traces_stmtsNodes none body) rfl
    refine Runs.bind (hmethod s h.object?) fun t s₁ h₁ => runs_pure ?_
    refine (h.members h₁.1).of_routines fun f hf => ?_
    simp only [moduleEvents, List.flatMap_cons, List.flatMap_nil, List.append_nil, Stmt.events,
      List.mem_append, List.mem_cons, reduceCtorEq, false_or] at hf ⊢
    refine hf.imp_right (Or.imp_right fun hf => List.mem_filter.mpr ⟨routine_mem_inward hf, rfl⟩)
  | classType r name bases body =>
    have hclass : Traces none [] (do
        let c ← openClass name bases body
        let members ← withQualifier name (memberNodes locks c [] body)
        classNode r name body members) (memberEvents .built none body) fun t => [t] := by
      refine calm_openClass.next fun c => ?_
      rw [← List.append_nil (memberEvents _ _ _)]
      refine (traces_memberNodes none body c []).withQualifier.bind fun ts => ?_
      rw [List.append_nil, ← bind_pure (classNode r name body _)]
      exact traces_classNode fun t ht => traces_pure ht
    have hassoc : parts.addStatement locks (.classType r name bases body) = (do
        let t ← (do
          let c ← openClass name bases body
          let members ← withQualifier name (memberNodes locks c [] body)
          classNode r name body members)
        return { parts with members := parts.members ++ [t] }) := by
      simp only [addStatement, bind_assoc]
    rw [hassoc]
    refine Runs.bind (hclass s h.object?) fun t s₁ h₁ => runs_pure ?_
    refine (h.members h₁.1).of_routines fun f hf => ?_
    simpa [moduleEvents, Stmt.events] using hf
  | imports r names => exact (traced_addFields h).mono fun _ _ h' => hnone h'
  | assign r targets value => exact (traced_addAssignment h).mono fun _ _ h' => hnone h'
  | annotate r target typeHint value => exact (traced_addAssignment h).mono fun _ _ h' => hnone h'
  | _ => exact hinFrame _ (List.append_nil _)

end ModuleParts

theorem runs_fieldVariables : (fields : List Field) → {s : Building} →
    Runs (fieldVariables fields) s (fun _ => True) fun own s' => (∀ made, Follows made [] s s') ∧
      ∀ e ∈ own, (e.2 : Nat) < s'.vars.size
  | [], s => runs_pure ⟨fun _ => .refl s, nofun⟩
  | field :: rest, s => by
    rw [fieldVariables]
    refine Runs.bind (Q := fun v s' => v = s.vars.size ∧ s' = { s with vars := s.vars.push _ })
      ⟨rfl, rfl⟩ ?_
    rintro _ _ ⟨rfl, rfl⟩
    refine (runs_fieldVariables rest).bind fun own s₂ ⟨h₂, hlt⟩ => ?_
    have hsize := (h₂ fun _ => True).size
    rw [Array.size_push] at hsize
    refine runs_pure ⟨fun made => Follows.trans (calm_newVariable s made) (h₂ made), ?_⟩
    exact List.forall_mem_cons.mpr ⟨hsize, hlt⟩

/-- The statements of a module stand in the method that holds them. -/
theorem within_moduleMethod (moduleName : String) (statements : List Tree) :
    Within statements (moduleMethod? moduleName statements).toList := by
  rcases hmethod : moduleMethod? moduleName statements with _ | method
  · rw [moduleMethod?, Option.map_eq_none_iff, List.head?_eq_none_iff] at hmethod
    rw [hmethod]
    exact within_nil
  · obtain ⟨first, -, rfl⟩ := Option.map_eq_some_iff.mp hmethod
    exact within_children (by simp [Tree.children, Tree.shape, Shape.children, Shape.slots])

/-- **The functions of a module are resolved** in its tree, if no declaration is pending. -/
theorem resolved_moduleNode {moduleName : String} {body : List Stmt} :
    Runs (moduleNode locks moduleName body) .start (fun _ => True) fun t s => s.pending = [] →
      ∀ f, .routine f ∈ moduleEvents body → f.Resolved (Stands [t]) := by
  rw [moduleNode]
  apply (runs_fieldVariables _).bind
  rintro own s₁ ⟨h₁, hlt⟩
  refine runs_modify_bind ?_
  have hstart : ModuleParts.Traced ⟨[], [], [], ⟨[], [], [], true⟩⟩ []
      { s₁ with moduleFields := own.map fun e => (e.1.name, e.2), qualifiers := [moduleName] } := by
    have hcalm := h₁ fun _ => True
    have hnone : Building.start.Bounded := ⟨by simp [Building.start], by simp [Building.start]⟩
    refine ⟨hcalm.object?, ⟨(hcalm.bounded hnone).1, fun e he => ?_⟩, by simp, by simp⟩
    obtain ⟨e', he', rfl⟩ := List.mem_map.mp he
    exact hlt e' he'
  -- the statements done so far have been built along their events
  refine Runs.bind (runs_foldlM (I := fun parts rest s => ∃ done, done ++ rest = body ∧
    parts.Traced (moduleEvents done) s) body ?step ⟨[], rfl, hstart⟩) ?_
  case step =>
    rintro stmt - parts rest s ⟨done, hdone, h⟩
    refine (ModuleParts.traced_addStatement h).mono fun parts' s' h' => ⟨done ++ [stmt], ?_, ?_⟩
    · rw [List.append_assoc, List.singleton_append, hdone]
    · rwa [moduleEvents, List.flatMap_append]
  rintro parts s₂ ⟨done, hdone, h₂⟩
  rw [List.append_nil] at hdone
  subst hdone
  refine Runs.bind (runs_foldlM (I := fun parts _ s => parts.Traced (moduleEvents done) s) _
    (fun e _ parts rest s h => ModuleParts.traced_addFields h) h₂) fun parts s₃ h₃ => ?_
  refine runs_get_bind (runs_pure fun hpending f hf => (h₃.routines f hf).mono ?_)
  refine within_append.mpr ⟨?members, within_append.mpr ⟨?statements, ?moving⟩⟩
  case members => exact within_children (by simp [Tree.children, Tree.shape, Shape.children, Shape.slots])
  case moving =>
    rw [Building.moving, hpending]
    exact within_children (by simp [Tree.children, Tree.shape, Shape.children, Shape.slots])
  case statements =>
    refine (within_moduleMethod moduleName _).trans (within_children ?_)
    simp [Tree.children, Tree.shape, Shape.children, Shape.slots]

end ModelLint.Source

namespace ModelLint

/-- A unit holds a node that stands where the root of a tree stands and says the same. -/
def Model.Holds (m : Model) (t : Tree) : Prop :=
  ∃ n ∈ m.nodes, m.graph.location n = t.location ∧ (m.graph.shape n).label = t.shape.label

/-- A unit of a tree holds what stands below it. -/
theorem Model.holds_ofTree {m : Model} {vars : Array Variable} {t u : Tree} {place : Graph.Place}
    {info : UnitInfo} {declarations : List Tree}
    (hvars : ∀ v, 0 < t.sum (Shape.introductions v) → v < vars.size)
    (hunit : t.shape = .sourceUnit info declarations) (hm : ofTree vars t = .ok m)
    (hu : t.at? place = some u) : m.Holds u := by
  obtain ⟨hlinked, hroot, hskeleton⟩ := linked_ofTree hvars hunit hm
  obtain ⟨n, hn, hlays⟩ := (Graph.lays_ofTree vars t).at? hu
  refine ⟨n, (hlinked.rooted.mem_preorder).mpr ⟨place, ?_⟩, ?_, ?_⟩
  · rw [hroot, hskeleton.at?_eq, hn]
  · rw [hskeleton.location_eq, Graph.location, hlays.node_eq]
  · rw [hskeleton.shape_eq, hlays.label_eq]

namespace Source

/-- **The functions of a source are resolved** in its unit. -/
theorem resolved_of_load {locks : List String} {named : Text.CharacterNames} {source : String}
    {path : Path} {m : Model}
    {body : List Stmt} {f : Routine} (hload : load named locks source path = .ok m)
    (hbody : Stmt.ofSource? named source = some body) (hf : .routine f ∈ moduleEvents body) :
    f.Resolved m.Holds := by
  obtain ⟨body', comments, h⟩ := accepted_of_load hload
  obtain rfl : body = body' := Option.some.inj (hbody.symm.trans h.body)
  obtain ⟨t, s, ht, hlink⟩ := h.exists_run hload
  have hpending : s.pending = [] := (h.exists_load_iff ht).mp ⟨m, hload⟩
  refine (resolved_moduleNode.of_ok ht hpending f hf).mono fun u hu => ?_
  obtain ⟨t', ht', p, hp⟩ := hu
  obtain rfl := List.mem_singleton.mp ht'
  have hplace : ∀ {l : Location} {info : UnitInfo},
      (Tree.node l (.sourceUnit info [t'])).at? (0 :: p) = some u :=
    Tree.at?_cons_eq_some.mpr ⟨t', rfl, hp⟩
  exact Model.holds_ofTree (fun v hv => (h.moduleBuilt ht).lt_size hv) rfl hlink hplace

end Source

end ModelLint
