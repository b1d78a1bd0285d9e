import ModelLint.Proofs.Source.Fields

/-!
# What the nodes of statements keep

A statement becomes some nodes that are accounted for (`Built`) where a frame is open. What its
expressions put before it stands there in the end.

* `Inside`: a state inside a frame in which given names can be mentioned.
* `targetNode_runs`, `assignName_runs`: targets and assignments.
* `heldResources_runs`, `built_holdAll`: resources.
* `methodNode_runs`, `functionNode_runs`: functions, by what their statements give.
* `Stmt.Accounted`: a statement is accounted for. `accounted_forEach`, `accounted_guarded` and others:
  so it is if its blocks are.
* `memberNodes_runs`: the members of a class; each of its fields gets one node.
* **`stmtNodes_runs`**: the account of a statement.
-/

namespace ModelLint.Source

open Build

variable {nm : String → Prop} {E : BuildFailure → Prop} {s s' s'' : Building} {r : Range}
  {name id : String} {v : VariableId} {calm : Prop} {ts : List Tree}

/-! ## States inside a frame -/

/-- A state is valid, a frame is open, and the names that are mentioned are as asked for. -/
structure Inside (nm : String → Prop) (s : Building) (names : List String) : Prop where
  /-- The state is valid. -/
  valid : s.Valid nm
  /-- A frame is open. -/
  frames : s.frames ≠ []
  /-- Mentioned names are as asked for. -/
  names : ∀ n ∈ names, nm n

section Inside

variable {a b : List String}

theorem Inside.mono (h : Inside nm s a) (hab : ∀ n ∈ b, n ∈ a) : Inside nm s b :=
  ⟨h.valid, h.frames, fun n hn => h.names n (hab n hn)⟩

theorem inside_append : Inside nm s (a ++ b) ↔ Inside nm s a ∧ Inside nm s b := by
  refine ⟨fun h => ⟨h.mono (by simp +contextual), h.mono (by simp +contextual)⟩, ?_⟩
  rintro ⟨h, h'⟩
  exact ⟨h.valid, h.frames, fun n hn => (List.mem_append.mp hn).elim (h.names n) (h'.names n)⟩

theorem Inside.built {owed : List VariableId} (h : Inside nm s a)
    (hb : Built nm calm s ts owed s') : Inside nm s' a :=
  ⟨hb.valid, fun hnil => h.frames (hb.frames_eq_nil.mp hnil), h.names⟩

theorem Inside.ready (h : Inside nm s a) : Ready nm E s a b :=
  ⟨h.valid, h.names, fun _ hnil => (h.frames hnil).elim⟩

theorem Inside.clear (h : Inside nm s a) : Inside nm { s with pending := [] } a :=
  ⟨{ h.valid with pending := fun _ ht => nomatch ht }, h.frames, h.names⟩

end Inside

theorem exprNode_runs_of_inside {e : Expr} (h : Inside nm s e.mentioned) :
    Runs (exprNode e) s E fun t s' => Built nm False s [t] [] s' :=
  (exprNode_runs e h.ready).mono fun _ _ ht => ht.weaken False.elim

theorem exprNodes_runs_of_inside {es : List Expr} (h : Inside nm s (es.flatMap Expr.mentioned)) :
    Runs (exprNodes es) s E fun ts s' => Built nm False s ts [] s' := by
  have hcollect : ∀ es : List Expr, Expr.collectAll Expr.ownName es = es.flatMap Expr.mentioned := by
    intro es
    induction es with
    | nil => rfl
    | cons e es ih => rw [Expr.collectAll, List.flatMap_cons, ih]; rfl
  exact (exprNodes_runs es (hcollect es ▸ h.ready)).mono fun _ _ ht => ht.weaken False.elim

/-! ## Targets -/

theorem targetNode_runs (e : Expr) : ∀ {s : Building}, Inside nm s e.mentioned →
    Runs (targetNode e) s E fun t s' => Built nm False s [t] [] s' := by
  refine targetNode.induct (fun e => ∀ {s : Building}, Inside nm s e.mentioned →
      Runs (targetNode e) s E fun t s' => Built nm False s [t] [] s')
    (fun es => ∀ {s : Building}, Inside nm s (Expr.collectAll Expr.ownName es) →
      Runs (targetNodes es) s E fun ts s' => Built nm False s ts [] s')
    ?name ?tuple ?list ?starred ?other ?nil ?cons e
  case name =>
    intro r id s h
    rw [targetNode]
    exact targetName_runs h.valid (h.names id (List.mem_singleton.mpr rfl)) fun hnil =>
      (h.frames hnil).elim
  case tuple | list =>
    intro r es ih s h
    rw [targetNode]
    refine (ih h).bind fun ts s₁ h₁ => runs_pure ?_
    exact h₁.node (fun hc => hc) (by simp [Shape.children, Shape.slots]) (.refl _)
      trivial (by simp [Shape.mention?]) (by simp [Shape.IsFunction])
  case starred =>
    intro r e ih s h
    rw [targetNode]
    refine ih (h.mono fun n hn => ?_)
    simpa [Expr.mentioned, Expr.collect, Expr.collectAll, Expr.ownName] using hn
  case other =>
    intro e hname htuple hlist hstarred s h
    rw [targetNode]
    · exact exprNode_runs_of_inside h
    all_goals assumption
  case nil =>
    intro s h
    exact runs_pure ((Built.refl h.valid).weaken False.elim)
  case cons =>
    intro e es ih ihs s h
    rw [Expr.collectAll, inside_append] at h
    rw [targetNodes]
    exact (runs_cons (ih h.1) fun t s₁ h₁ => ihs (h.2.built h₁)).mono
      fun ts s' ht => ht.weaken False.elim

theorem targetNodes_runs : (es : List Expr) → {s : Building} →
    Inside nm s (es.flatMap Expr.mentioned) →
    Runs (targetNodes es) s E fun ts s' => Built nm False s ts [] s'
  | [], s, h => runs_pure ((Built.refl h.valid).weaken False.elim)
  | e :: es, s, h => by
    rw [List.flatMap_cons, inside_append] at h
    rw [targetNodes]
    exact (runs_cons (targetNode_runs e h.1) fun t s₁ h₁ => targetNodes_runs es (h.2.built h₁)).mono
      fun ts s' ht => ht.weaken False.elim

/-! ## Statements without blocks -/

theorem assignName_runs {target : Range} {value : Tree} {typeName : Option String}
    (h : Built nm False s [value] [] s') (hs' : Inside nm s' [id]) :
    Runs (assignName r target id value typeName) s' E fun t s'' => Built nm False s [t] [] s'' := by
  have hid : nm id := hs'.names id (List.mem_singleton.mpr rfl)
  refine (runs_binding? hs'.valid).bind fun v? s₁ ⟨h₁, hv⟩ => ?_
  rcases v? with _ | v
  · refine runs_bindLocal_bind h₁.valid (fun hnil => ((hs'.built h₁).frames hnil).elim)
      fun v s₂ h₂ hv => runs_pure ?_
    refine ((h.trans h₁).trans h₂).node (fun hc => hc.elim) (.refl _) (.refl _) ?_ nofun nofun
    exact hv.hasKind fun k hk => hk
  · have haccess : Built nm True s' [nodeAt target (.varAccess id (some v))] [] s₁ :=
      h₁.access hid (hv v rfl)
    have hassign : Built nm False s
        [nodeAt r (.assignment "=" (nodeAt target (.varAccess id (some v))) value)] [] s₁ :=
      (h.trans haccess).node (fun hc => hc.elim) (.swap _ _ _) (.refl _) trivial nofun nofun
    exact runs_pure (hassign.node (fun hc => hc) (.refl _) (.refl _) trivial nofun nofun)

/-- Several targets of one assignment make one node. -/
theorem built_targets (us : List Tree) : Built nm False s us [] s' →
    Built nm False s
      [match us with
        | [target] => target
        | nodes => compoundAt r "targets" nodes] [] s' := by
  intro h
  split
  · exact h
  · exact h.node (fun hc => hc) (by simp [Shape.children, Shape.slots]) (.refl _)
      trivial nofun nofun

theorem assignNodes_runs {targets : List Expr} {value : Expr}
    (h : Inside nm s (value.mentioned ++ targets.flatMap Expr.mentioned)) :
    Runs (assignNodes r targets value) s E fun ts s' => Built nm False s ts [] s' := by
  rw [inside_append] at h
  rw [assignNodes]
  refine (exprNode_runs_of_inside h.1).bind fun t s₁ h₁ => ?_
  have hs₁ := h.2.built h₁
  split
  · exact (assignName_runs h₁ (by simpa [Expr.mentioned, Expr.collect, Expr.ownName] using hs₁)).bind
      fun u s₂ h₂ => runs_pure h₂
  · refine (targetNodes_runs _ hs₁).bind fun us s₂ h₂ => runs_pure ?_
    refine Built.node ?_ (fun hc => hc) (.refl _) (.refl _) trivial nofun nofun
    exact (h₁.trans (built_targets us h₂)).node (fun hc => hc.elim) (.swap _ _ _) (.refl _)
      trivial nofun nofun

theorem annotateNodes_runs {target typeHint : Expr} {value : Option Expr}
    (h : Inside nm s (target.mentioned ++ value.toList.flatMap Expr.mentioned)) :
    Runs (annotateNodes r target typeHint value) s E fun ts s' => Built nm False s ts [] s' := by
  rw [inside_append] at h
  obtain ⟨htarget, hvalue⟩ := h
  rw [annotateNodes.eq_def]
  split
  · refine (runs_binding? htarget.valid).bind fun v? s₁ ⟨h₁, hv⟩ => ?_
    rcases v? with _ | v
    · refine runs_bindLocal_bind h₁.valid (fun hnil => ((htarget.built h₁).frames hnil).elim)
        fun v s₂ h₂ hv => runs_pure ?_
      exact (h₁.trans h₂).node (fun hc => hc.elim) (.refl _) (.refl _)
        (hv.hasKind fun k hk => hk) (by simp [Shape.mention?]) (by simp [Shape.IsFunction])
    · exact runs_pure (h₁.weaken False.elim)
  · rename_i value
    refine (exprNode_runs_of_inside (hvalue.mono fun n hn => by simpa using hn)).bind
      fun t s₁ h₁ => ?_
    refine (assignName_runs h₁ ((htarget.built h₁).mono fun n hn => ?_)).bind
      fun u s₂ h₂ => runs_pure h₂
    simpa [Expr.mentioned, Expr.collect, Expr.ownName] using hn
  · exact runs_pure ((Built.refl htarget.valid).weaken False.elim)
  · rename_i value _
    refine (exprNode_runs_of_inside (hvalue.mono fun n hn => by simpa using hn)).bind
      fun t s₁ h₁ => ?_
    refine (exprNode_runs_of_inside (htarget.built h₁)).bind fun u s₂ h₂ => runs_pure ?_
    refine Built.node ?_ (fun hc => hc) (.refl _) (.refl _) trivial (by simp [Shape.mention?])
      (by simp [Shape.IsFunction])
    exact (h₁.trans h₂).node (fun hc => hc.elim) (.swap _ _ _) (.refl _) trivial
      (by simp [Shape.mention?]) (by simp [Shape.IsFunction])

theorem importNodes_runs : (names : List String) → {s : Building} → Inside nm s [] →
    Runs (importNodes r names) s E fun ts s' => Built nm False s ts [] s'
  | [], s, h => runs_pure ((Built.refl h.valid).weaken False.elim)
  | name :: rest, s, h => by
    rw [importNodes]
    refine (runs_binding? h.valid).bind fun v? s₁ ⟨h₁, hv⟩ => ?_
    rcases v? with _ | v
    · refine runs_bindLocal_bind h₁.valid (fun hnil => ((h.built h₁).frames hnil).elim)
        fun v s₂ h₂ hv => ?_
      have hdeclaration : Built nm False s [nodeAt r (.varDeclaration v none)] [] s₂ :=
        (h₁.trans h₂).node (fun hc => hc.elim) (.refl _) (.refl _)
          (hv.hasKind fun k hk => hk) nofun nofun
      refine (importNodes_runs rest (h.built hdeclaration)).bind fun ts s₃ h₃ => runs_pure ?_
      exact (hdeclaration.trans h₃).weaken False.elim
    · exact (importNodes_runs rest (h.built h₁)).mono fun ts s₂ h₂ => (h₁.trans h₂).weaken False.elim

theorem exprStatementNodes_runs {e : Expr} (h : Inside nm s e.mentioned) :
    Runs (exprStatementNodes r e) s E fun ts s' => Built nm False s ts [] s' := by
  rw [exprStatementNodes.eq_def]
  split
  · exact runs_pure ((Built.refl h.valid).weaken False.elim)
  · refine (exprNode_runs_of_inside h).bind fun t s₁ h₁ => runs_pure ?_
    exact h₁.node (fun hc => hc) (.refl _) (.refl _) trivial nofun nofun

theorem throwNodes_runs {error cause : Option Expr}
    (h : Inside nm s (error.toList.flatMap Expr.mentioned ++ cause.toList.flatMap Expr.mentioned)) :
    Runs (throwNodes r error cause) s E fun ts s' => Built nm False s ts [] s' := by
  rw [inside_append] at h
  obtain ⟨herror, hcause⟩ := h
  rw [throwNodes.eq_def]
  split
  · exact runs_pure ((Built.refl herror.valid).node False.elim (.refl _) (.refl _)
      trivial nofun nofun)
  · refine (exprNode_runs_of_inside (herror.mono fun n hn => by simpa using hn)).bind
      fun t s₁ h₁ => runs_pure ?_
    exact h₁.node (fun hc => hc) (.refl _) (.refl _) trivial nofun nofun
  · refine (exprNode_runs_of_inside (herror.mono fun n hn => by simpa using hn)).bind
      fun t s₁ h₁ => ?_
    refine (exprNode_runs_of_inside ((hcause.built h₁).mono fun n hn => by simpa using hn)).bind
      fun u s₂ h₂ => runs_pure ?_
    refine Built.node ?_ (fun hc => hc) (.refl _) (.refl _) trivial nofun nofun
    exact (h₁.trans h₂).node (fun hc => hc.elim) (.refl _) (.refl _) trivial nofun nofun

theorem simpleNodes_runs {word : String} {operands : List Expr}
    (h : Inside nm s (operands.flatMap Expr.mentioned)) :
    Runs (simpleNodes r word operands) s E fun ts s' => Built nm False s ts [] s' := by
  refine (exprNodes_runs_of_inside h).bind fun ts s₁ h₁ => ?_
  split
  · exact runs_pure h₁
  · refine runs_pure (Built.node ?_ (fun hc => hc) (.refl _) (.refl _) trivial nofun nofun)
    exact h₁.node (fun hc => hc) (by simp [Shape.children, Shape.slots]) (.refl _)
      trivial nofun nofun

/-! ## Resources -/

theorem runs_isLock {patterns : List String} {e : Expr} {t : Tree} :
    Runs (isLock patterns e t) s E fun _ s' => s' = s := by
  rw [isLock]
  split
  · exact runs_pure rfl
  · split
    · exact runs_pure rfl
    · exact runs_typeOf?.bind fun _ _ hs => runs_pure hs

theorem heldFor_runs {patterns : List String} {context : Expr} {target : Option Expr} {t : Tree}
    (h : Built nm False s [t] [] s') (hs' : Inside nm s' (target.toList.flatMap Expr.mentioned)) :
    Runs (heldFor patterns context t target) s' E fun held s'' =>
      Built nm False s [held.node] [] s'' := by
  have hassigned : ∀ u {s₂ s₃}, Built nm True s' [] [] s₂ → Built nm False s₂ [u] [] s₃ →
      Built nm False s [nodeAt context.range (.assignment "=" u t)] [] s₃ := fun u {_ _} h₂ h₃ =>
    ((h.trans h₂).trans h₃).node (fun hc => hc.elim) (.swap _ _ _) (.refl _) trivial
      (by simp [Shape.mention?]) (by simp [Shape.IsFunction])
  rw [heldFor.eq_def]
  split
  · refine runs_isLock.bind fun b s₂ hs₂ => ?_
    subst hs₂
    split
    · exact runs_pure h
    · exact runs_pure h
  · next id =>
    have hid : nm id := hs'.names id (by simp [Expr.mentioned])
    apply (runs_binding? hs'.valid).bind
    rintro v? s₂ ⟨h₂, -⟩
    have hs₂ := hs'.built h₂
    split
    · refine runs_bindLocal_bind h₂.valid (fun hnil => (hs₂.frames hnil).elim) fun v s₃ h₃ hv => ?_
      exact runs_pure (((h.trans h₂).trans h₃).node (fun hc => hc.elim) (.refl _) (.refl _)
        (hv.hasKind fun k hk => hk) (by simp [Shape.mention?]) (by simp [Shape.IsFunction]))
    · exact (targetName_runs h₂.valid hid fun hnil => (hs₂.frames hnil).elim).bind
        fun u s₃ h₃ => runs_pure (hassigned u h₂ h₃)
  · next target _ =>
    refine (targetNode_runs target (hs'.mono (by simp))).bind fun u s₃ h₃ => runs_pure ?_
    exact hassigned u (.refl h.valid) h₃

theorem heldResources_runs {patterns : List String} : (resources : List Resource) →
    {s : Building} → Inside nm s ((resources.flatMap Resource.expressions).flatMap Expr.mentioned) →
    Runs (heldResources patterns resources) s E fun held s' =>
      Built nm False s (held.map Held.node) [] s'
  | [], s, h => runs_pure ((Built.refl h.valid).weaken False.elim)
  | ⟨context, target⟩ :: rest, s, h => by
    simp only [List.flatMap_cons, List.flatMap_append, inside_append, Resource.expressions] at h
    obtain ⟨⟨hcontext, htarget⟩, hrest⟩ := h
    rw [heldResources_cons]
    refine (exprNode_runs_of_inside hcontext).bind fun t s₁ h₁ => ?_
    refine (heldFor_runs h₁ (htarget.built h₁)).bind fun held s₂ h₂ => ?_
    exact (heldResources_runs rest (hrest.built h₂)).bind fun helds s₃ h₃ =>
      runs_pure ((h₂.trans h₃).weaken False.elim)

theorem Built.asBlock {t : Tree} {owed : List VariableId}
    (h : Built nm False s (t :: ts) owed s') :
    Built nm False s (asBlock r t :: ts) owed s' := by
  rw [Source.asBlock.eq_def]
  split
  · exact h
  · exact h.node (fun hc => hc) (.refl _) (.refl _) trivial nofun nofun

theorem built_holdAll {block : Tree} : (held : List Held) → {us : List Tree} →
    Built nm False s (held.map Held.node ++ block :: us) [] s' →
    Built nm False s (holdAll r held block :: us) [] s'
  | [], us, h => h
  | held :: rest, us, h => by
    have hperm : (held.node :: (rest.map Held.node ++ block :: us)).Perm
        (rest.map Held.node ++ block :: held.node :: us) := by
      simpa using (@List.perm_middle _ held.node (rest.map Held.node ++ [block]) us).symm
    have hinner := (built_holdAll rest (h.perm (fun hc => hc) hperm (.refl _))).asBlock (r := r)
    cases held with
    | lock target => exact hinner.node (fun hc => hc) (.swap _ _ _) (.refl _) trivial nofun nofun
    | resource node => exact hinner.node (fun hc => hc) (.swap _ _ _) (.refl _) trivial nofun nofun

/-! ## Functions -/

section Functions

variable {signature : Signature} {statements : Build (List Tree)}

/-- Statements of a function in a frame of their own, behind its parameters. -/
theorem runs_inFunction {names : Names} (h : Built nm True s [] (names.map (·.2)) s')
    (hnames : NamesDenote s'.vars (· = .parameter) names) (hframes : s'.frames = s.frames)
    (hstatements : ∀ s', s'.Valid nm → s'.frames ≠ [] →
      Runs statements s' E fun ts s'' => Built nm True s' ts [] s'') :
    Runs (withFrame (.ofNames names) statements) s' E fun ts s'' => Extends s'.vars s''.vars ∧
      s''.frames = s.frames ∧ Built nm True s ts (names.map (·.2)) s'' := by
  have hframe := namesDenote_ofNames.mpr (hnames.mono (Q := AnyKind) fun _ _ => trivial)
  refine runs_withFrame ((hstatements _ (h.valid.openFrame hframe) (List.cons_ne_nil _ _)).mono
    fun ts s'' h' => ⟨h'.vars, ?_, ?_⟩)
  · exact (List.drop_one.trans h'.frames_tail).trans hframes
  · exact (h.inFunction h').perm (fun hc => ⟨hc, trivial⟩) (.refl _) (by simp)

theorem methodNode_runs {fields : Option Names} (hs : s.Valid nm) (hname : nm signature.name)
    (hfields : ∀ names, fields = some names → NamesDenote s.vars (· = .field) names)
    (hstatements : ∀ s', s'.Valid nm → s'.frames ≠ [] →
      Runs statements s' E fun ts s'' => Built nm True s' ts [] s'') :
    Runs (methodNode r signature fields statements) s E fun t s' =>
      t.shape.isOutermost ∧ Built nm True s [t] [] s' := by
  apply (parameterNames_runs signature.parameters hs).bind
  rintro names s₁ ⟨h₁, hnames, hframes₁⟩
  have hqualified : ∀ s₀ s₂, Built nm True s₀ [] (names.map (·.2)) s₂ → s₂.vars = s₁.vars →
      s₂.frames = s₀.frames →
      Runs (withQualifier signature.name (withFrame (.ofNames names) statements)) s₂ E
        fun ts s' => Extends s₁.vars s'.vars ∧ s'.frames = s₀.frames ∧
          Built nm True s₀ ts (names.map (·.2)) s' := fun s₀ s₂ h₂ hvars hframes₂ =>
    runs_withQualifier ((runs_inFunction (h₂.openQualifier signature.name) (hvars ▸ hnames) hframes₂
      hstatements).mono fun ts s' h => ⟨hvars ▸ h.1, h.2.1, h.2.2.closeQualifier⟩)
  have hbody : Runs (withReceiver (fields.map signature.receiver)
      (withQualifier signature.name (withFrame (.ofNames names) statements))) s₁ E
        fun ts s' => Extends s₁.vars s'.vars ∧ s'.frames = s.frames ∧
          Built nm True s ts (names.map (·.2)) s' := by
    rcases fields with _ | fields
    · exact hqualified s s₁ h₁ rfl hframes₁
    · have hopen := h₁.openReceiver (signature.receiver fields)
        ((hfields fields rfl).extends h₁.vars)
      exact runs_withReceiver_some ((hqualified _ _ hopen rfl hframes₁).mono
        fun ts s' h => ⟨h.1, h.2.1, h.2.2.closeReceiver⟩)
  apply hbody.bind
  rintro ts s₂ ⟨hx, hframes₂, h₂⟩
  refine runs_qualified.bind fun q s₃ hs₃ => runs_pure ⟨rfl, ?_⟩
  subst s₃
  refine h₂.node id (by simp [Shape.children, Shape.slots]) (by simp [Shape.introduced])
    ⟨fun v hv => ?_, rfl, rfl, rfl, .inl hname⟩ (by simp [Shape.mention?])
    fun _ => ⟨rfl, hframes₂⟩
  obtain ⟨e, he, rfl⟩ := List.mem_map.mp hv
  exact ((hnames e he).extends hx).hasKind fun k hk => by simp [hk]

theorem functionNode_runs (hs : s.Valid nm) (hne : s.frames ≠ [])
    (hstatements : ∀ s', s'.Valid nm → s'.frames ≠ [] →
      Runs statements s' E fun ts s'' => Built nm True s' ts [] s'') :
    Runs (functionNode r signature statements) s E fun t s' => Built nm True s [t] [] s' := by
  refine runs_bindLocal_bind hs (fun hnil => (hne hnil).elim) fun v s₁ h₁ hv => ?_
  apply (parameterNames_runs signature.parameters h₁.valid).bind
  rintro names s₂ ⟨h₂, hnames, hframes₂⟩
  apply (runs_inFunction h₂ hnames hframes₂ hstatements).bind
  rintro ts s₃ ⟨hx, hframes₃, h₃⟩
  refine runs_pure ?_
  have hlambda : Built nm True s₁
      [nodeAt r (.lambda (names.map (·.2)) signature.isAsync ts)] [] s₃ := by
    refine h₃.node id (by simp [Shape.children, Shape.slots]) (by simp [Shape.introduced])
      (fun w hw => ?_) (by simp [Shape.mention?]) fun _ => ⟨rfl, hframes₃⟩
    obtain ⟨e, he, rfl⟩ := List.mem_map.mp hw
    exact ((hnames e he).extends hx).hasKind fun k hk => by simp [hk]
  exact (h₁.trans hlambda).node (fun _ => ⟨trivial, trivial⟩) (.refl _) (.refl _)
    ((hv.extends hlambda.vars).hasKind fun k hk => hk) (by simp [Shape.mention?])
    (by simp [Shape.IsFunction])

end Functions

/-! ## Blocks and classes -/

section Blocks

variable {locks : List String} {body : List Stmt}

theorem Built.block (h : Built nm calm s ts [] s') (r : Range) (body : List Stmt) :
    Built nm calm s [blockAt r body ts] [] s' :=
  h.node (fun hc => hc) (by simp [Shape.children, Shape.slots]) (.refl _) trivial nofun nofun

/-- A block that may be empty; without statements there are no nodes either. -/
theorem runs_block? (h : Runs (stmtsNodes locks body) s E fun ts s' => Built nm True s ts [] s')
    (r : Range) :
    Runs (stmtsNodes locks body) s E fun ts s' =>
      Built nm True s (blockAt? r body ts).toList [] s' := by
  cases body with
  | nil => exact h
  | cons _ _ => exact h.mono fun ts s' hts => hts.block r _

theorem withPending_runs {x : Build (List Tree)} (hs : s.Valid nm)
    (h : Runs x { s with pending := [] } E fun ts s' =>
      Built nm False { s with pending := [] } ts [] s') :
    Runs (withPending x) s E fun ts s' => Built nm True s ts [] s' :=
  (runs_collectPending (Q := fun p s' => Built nm True s (p.1 ++ p.2) [] s')
    (h.mono fun _ _ hts => .restore hs hts)).bind fun _ _ hts => runs_pure hts

/-- The caught error is a new local variable. Behind the handler its name means what it meant
before. -/
theorem withCaught_runs {name : Option String} {types : List String} {x : Build Tree}
    (hs : s.Valid nm) (hne : s.frames ≠ [])
    (hx : ∀ s', s'.Valid nm → s'.frames ≠ [] →
      Runs x s' E fun t s'' => Built nm True s' [t] [] s'') :
    Runs (withCaught name types x) s E fun p s' =>
      Built nm True s [p.2] p.1.toList s' ∧
        ∀ v, p.1 = some v → HasKind s'.vars (· = .localVar) v := by
  rcases name with _ | name
  · exact (hx s hs hne).bind fun t s₁ h₁ => runs_pure ⟨h₁, fun v hv => nomatch hv⟩
  · refine runs_get_bind (runs_bindLocal_bind hs (fun hnil => (hne hnil).elim) fun v s₁ h₁ hv => ?_)
    have hne₁ : s₁.frames ≠ [] := fun hnil => hne (h₁.frames_eq_nil.mp hnil)
    refine (hx s₁ h₁.valid hne₁).bind fun t s₂ h₂ => ?_
    have hne₂ : s₂.frames ≠ [] := fun hnil => hne₁ (h₂.frames_eq_nil.mp hnil)
    refine (runs_modifyFrame (h₁.trans h₂) (fun hnil => (hne₂ hnil).elim)
      fun frame hframe e he => ?_).bind fun _ s₃ ⟨h₃, hvars⟩ => runs_pure ⟨?_, fun w hw => ?_⟩
    · rcases List.mem_append.mp he with he | he
      · obtain ⟨w, hw, rfl⟩ := List.mem_map.mp he
        obtain ⟨outer, houter, hlookup⟩ := Option.bind_eq_some_iff.mp (Option.mem_toList.mp hw)
        have hmem := mem_of_lookup hlookup
        have hdenotes := hs.frames outer (List.mem_of_head? houter) _ hmem
        exact ⟨(hdenotes.extends h₁.vars).extends h₂.vars,
          .inl ⟨outer, List.mem_of_head? houter, name, hmem⟩⟩
      · have hmem := List.mem_of_mem_filter he
        exact ⟨h₂.valid.frames frame hframe e hmem, .inr (.inl ⟨frame, hframe, e.1, hmem⟩)⟩
    · exact h₃.weaken fun _ => ⟨trivial, trivial⟩
    · cases hw
      have hdenotes := hv.extends h₂.vars
      rw [← hvars] at hdenotes
      exact hdenotes.hasKind fun k hk => hk

/-- A class, by what its body gives. -/
theorem runs_class_bind {α : Type} {bases : List Expr} {f : Tree → Build α}
    {R : α → Building → Prop} (hs : s.Valid nm)
    (hmembers : ∀ (c : OpenClass) s',
      Built nm True { s with qualifiers := name :: s.qualifiers } [] (unplaced c.own []) s' →
      c.Sound s'.vars → (∀ b ∈ classBindings body, b.name ∈ c.own.map fun e => e.1.name) →
      Runs (memberNodes locks c [] body) s' E fun us s'' => (∀ u ∈ us, u.shape.isOutermost) ∧
        Built nm calm { s with qualifiers := name :: s.qualifiers } us [] s'')
    (hf : ∀ t s', t.shape.isOutermost → ¬ t.shape.IsFunction → Built nm calm s [t] [] s' →
      Runs (f t) s' E R) :
    Runs (do
      let c ← openClass name bases body
      let members ← withQualifier name (memberNodes locks c [] body)
      let t ← classNode r name body members
      f t) s E R := by
  apply (openClass_runs hs).bind
  rintro c s₁ ⟨h₁, hc, hown⟩
  have hinner : Runs (withQualifier name (memberNodes locks c [] body)) s₁ E fun us s' =>
      (∀ u ∈ us, u.shape.isOutermost) ∧ Built nm calm s us [] s' :=
    runs_withQualifier ((hmembers c _ (h₁.openQualifier name) hc hown).mono
      fun us s' h => ⟨h.1, h.2.closeQualifier⟩)
  apply hinner.bind
  rintro us s₂ ⟨hus, h₂⟩
  refine (runs_qualified.bind fun q s₃ hs₃ => runs_pure (Q := fun t s' =>
    t.shape.isOutermost ∧ ¬ t.shape.IsFunction ∧ Built nm calm s [t] [] s')
      ⟨rfl, by simp [nodeAt, Tree.shape, Shape.IsFunction], ?_⟩).bind
        fun t s₃ ht => hf t s₃ ht.1 ht.2.1 ht.2.2
  subst s₃
  exact h₂.node (fun hc => hc) (by simp [Shape.children, Shape.slots]) (.refl _)
    ⟨rfl, rfl, rfl, rfl, hus⟩ (by simp [Shape.mention?]) (by simp [Shape.IsFunction])

end Blocks

/-! ## Statements -/

section Statements

variable {locks : List String}

theorem mem_classBindings_assign {targets : List Expr} (h : name ∈ Expr.boundNamesOf targets)
    (r : Range) (value : Expr) (rest : List Stmt) :
    ∃ b ∈ classBindings (.assign r targets value :: rest), b.name = name := by
  have hmem : name ∈ (assignedBindings r targets value).map Binding.name := by
    simpa [assignedBindings, Function.comp_def] using h
  obtain ⟨b, hb, hname⟩ := List.mem_map.mp hmem
  exact ⟨b, List.mem_append_left _ (List.mem_append_left _ hb), hname⟩

theorem mem_classBindings_annotate {target : Expr} (h : name ∈ target.boundNames) (r : Range)
    (typeHint : Expr) (value : Option Expr) (rest : List Stmt) :
    ∃ b ∈ classBindings (.annotate r target typeHint value :: rest), b.name = name := by
  have hmem : name ∈ (annotatedBindings r target typeHint value).map Binding.name := by
    rw [annotatedBindings, List.map_map]
    exact List.mem_map.mpr ⟨name, h, rfl⟩
  obtain ⟨b, hb, hname⟩ := List.mem_map.mp hmem
  exact ⟨b, List.mem_append_left _ (List.mem_append_left _ hb), hname⟩

theorem classBindings_subset_cons {stmt : Stmt} {rest : List Stmt} :
    classBindings rest ⊆ classBindings (stmt :: rest) := by
  intro b hb
  simp only [classBindings, List.flatMap_cons, List.mem_append] at hb ⊢
  rcases hb with hb | hb
  · exact .inl (.inr hb)
  · exact .inr (.inr hb)

theorem initializersIn_cons (stmt : Stmt) (rest : List Stmt) :
    ∃ es, initializersIn (stmt :: rest) = es ++ initializersIn rest := by
  rw [initializersIn.eq_def]
  split
  · next h => cases h
  · next h => cases h; exact ⟨[_], rfl⟩
  · next h => cases h; exact ⟨[_], rfl⟩
  · next h => cases h; exact ⟨_, rfl⟩

theorem areWrittenMembers_of_cons {stmt : Stmt} {rest : List Stmt}
    (h : areWrittenMembers rest = false) : areWrittenMembers (stmt :: rest) = false := by
  cases stmt <;> simp [areWrittenMembers, h]

/-- The account of nodes, inside a frame in which the given names can be mentioned. -/
abbrev AccountedInside (nm : String → Prop) (E : BuildFailure → Prop) (names : List String)
    (x : Build (List Tree)) : Prop :=
  ∀ {s : Building}, Inside nm s names → Runs x s E fun ts s' => Built nm True s ts [] s'

/-- The account of a statement. -/
abbrev Stmt.Accounted (locks : List String) (nm : String → Prop) (E : BuildFailure → Prop)
    (stmt : Stmt) : Prop :=
  AccountedInside nm E stmt.mentioned (stmtNodes locks stmt)

/-- The account of the statements of a block. -/
abbrev BodyAccounted (locks : List String) (nm : String → Prop) (E : BuildFailure → Prop)
    (body : List Stmt) : Prop :=
  AccountedInside nm E (mentionedIn body) (stmtsNodes locks body)

/-! ### Statements around statements -/

section Around

variable {condition : Expr} {body orElse finalBody : List Stmt} {handlers : List Handler}

theorem accounted_classType {bases : List Expr}
    (hmembers : ∀ {c : OpenClass} {s₀ s : Building}, s₀.frames ≠ [] →
      Built nm False s₀ [] (unplaced c.own []) s → c.Sound s.vars → (∀ n ∈ mentionedIn body, nm n) →
      (∀ b ∈ classBindings body, b.name ∈ c.own.map fun e => e.1.name) →
      Runs (memberNodes locks c [] body) s E fun us s' =>
        (∀ u ∈ us, u.shape.isOutermost) ∧ Built nm False s₀ us [] s') :
    (Stmt.classType r name bases body).Accounted locks nm E := by
  intro s h
  rw [Stmt.mentioned] at h
  rw [stmtNodes]
  refine withPending_runs h.valid ?_
  refine runs_class_bind h.clear.valid (fun c s₁ h₁ hc hown =>
    hmembers h.frames (h₁.weaken False.elim) hc h.names hown) fun t s₁ ht hfunction h₁ => ?_
  refine runs_modify_bind ?_
  have h₂ := h₁.hoist ht hfunction
  refine runs_bindLocal_bind h₂.valid (fun hnil => (h.frames (h₂.frames_eq_nil.mp hnil)).elim)
    fun v s₃ h₃ hv => runs_pure ?_
  exact (h₂.trans h₃).node (fun hc => hc.elim) (.refl _) (.refl _)
    (hv.hasKind fun k hk => hk) nofun nofun

theorem accounted_forEach {isAsync : Bool} {target source : Expr}
    (hbody : BodyAccounted locks nm E body) (horElse : BodyAccounted locks nm E orElse) :
    (Stmt.forEach r isAsync target source body orElse).Accounted locks nm E := by
  intro s h
  rw [Stmt.mentioned, inside_append, inside_append, inside_append] at h
  obtain ⟨⟨⟨htarget, hsource⟩, hinner⟩, hafter⟩ := h
  rw [stmtNodes]
  refine withPending_runs htarget.valid ?_
  refine (exprNode_runs_of_inside hsource.clear).bind fun t s₁ h₁ => ?_
  refine Runs.bind (Q := fun (p : List Tree × Tree) s' => Built nm True s₁ (p.1 ++ [p.2]) [] s')
    (runs_collectPending ((targetNode_runs target (htarget.clear.built h₁).clear).mono
      fun u s₂ h₂ => .restore h₁.valid h₂)) ?_
  rintro ⟨declarations, u⟩ s₂ h₂
  refine (hbody ((hinner.clear.built h₁).built h₂)).bind fun ts s₃ h₃ => ?_
  have hloop : Built nm False { s with pending := [] }
      [nodeAt r (.loopStatement (if isAsync then "async for" else "for") declarations [u, t]
        (blockAt r body ts))] [] s₃ := by
    refine ((h₁.trans h₂).trans (h₃.block r body)).node (fun hc => hc.elim) ?_ (.refl _)
      trivial nofun nofun
    simpa [Shape.children, Shape.slots] using
      (@List.perm_middle _ t (declarations ++ [u]) [blockAt r body ts]).symm
  refine (horElse (hafter.clear.built hloop)).bind fun us s₄ h₄ => runs_pure ?_
  exact (hloop.trans h₄).weaken False.elim

theorem accounted_whileLoop (hbody : BodyAccounted locks nm E body)
    (horElse : BodyAccounted locks nm E orElse) :
    (Stmt.whileLoop r condition body orElse).Accounted locks nm E := by
  intro s h
  rw [Stmt.mentioned, inside_append, inside_append] at h
  obtain ⟨⟨hcondition, hinner⟩, hafter⟩ := h
  rw [stmtNodes]
  refine withPending_runs hinner.valid ?_
  refine (hbody hinner.clear).bind fun ts s₁ h₁ => ?_
  refine (exprNode_runs_of_inside (hcondition.clear.built h₁)).bind fun t s₂ h₂ => ?_
  have hloop : Built nm False { s with pending := [] }
      [nodeAt r (.loopStatement "while" [] [t] (blockAt r body ts))] [] s₂ :=
    ((h₁.block r body).trans h₂).node (fun hc => hc.elim) (.swap _ _ _) (.refl _)
      trivial nofun nofun
  refine (horElse (hafter.clear.built hloop)).bind fun us s₃ h₃ => runs_pure ?_
  exact (hloop.trans h₃).weaken False.elim

theorem accounted_choose (hbody : BodyAccounted locks nm E body)
    (horElse : BodyAccounted locks nm E orElse) :
    (Stmt.choose r condition body orElse).Accounted locks nm E := by
  intro s h
  rw [Stmt.mentioned, inside_append, inside_append] at h
  obtain ⟨⟨hcondition, hinner⟩, hafter⟩ := h
  rw [stmtNodes]
  refine withPending_runs hinner.valid ?_
  refine (exprNode_runs_of_inside hcondition.clear).bind fun t s₁ h₁ => ?_
  refine (hbody (hinner.clear.built h₁)).bind fun ts s₂ h₂ => ?_
  refine (runs_block? (horElse ((hafter.clear.built h₁).built h₂)) r).bind
    fun us s₃ h₃ => runs_pure ?_
  exact ((h₁.trans (h₂.block r body)).trans h₃).node (fun hc => hc.elim)
    (by simp [Shape.children, Shape.slots]) (.refl _) trivial nofun nofun

theorem accounted_guarded (hbody : BodyAccounted locks nm E body)
    (hhandlers : AccountedInside nm E (mentionedInHandlers handlers) (handlerNodes locks handlers))
    (horElse : BodyAccounted locks nm E orElse) (hfinal : BodyAccounted locks nm E finalBody) :
    (Stmt.guarded r body handlers orElse finalBody).Accounted locks nm E := by
  intro s h
  rw [Stmt.mentioned, inside_append, inside_append, inside_append] at h
  obtain ⟨⟨⟨hinner, hcaught⟩, hafter⟩, hlast⟩ := h
  rw [stmtNodes]
  refine withPending_runs hinner.valid ?_
  refine (hbody hinner.clear).bind fun ts s₁ h₁ => ?_
  refine (hhandlers (hcaught.clear.built h₁)).bind fun catches s₂ h₂ => ?_
  refine (runs_block? (hfinal ((hlast.clear.built h₁).built h₂)) r).bind fun us s₃ h₃ => ?_
  have htry : Built nm False { s with pending := [] }
      [nodeAt r (.tryStatement (blockAt r body ts) catches (blockAt? r finalBody us))] [] s₃ :=
    (((h₁.block r body).trans h₂).trans h₃).node (fun hc => hc.elim)
      (by simp [Shape.children, Shape.slots]) (.refl _) trivial nofun nofun
  refine (horElse (hafter.clear.built htry)).bind fun us s₄ h₄ => runs_pure ?_
  exact (htry.trans h₄).weaken False.elim

/-- A handler before others; its types have to be written. -/
theorem accounted_handler {type : Option Expr} {caught : Option String}
    (htypes : Expr.handledTypes type = none → E .unwritable)
    (hbody : BodyAccounted locks nm E body)
    (hrest : AccountedInside nm E (mentionedInHandlers handlers) (handlerNodes locks handlers)) :
    AccountedInside nm E (mentionedInHandlers (.mk r type caught body :: handlers))
      (handlerNodes locks (.mk r type caught body :: handlers)) := by
  intro s h
  rw [mentionedInHandlers, inside_append] at h
  rw [handlerNodes]
  rcases hhandled : Expr.handledTypes type with _ | types
  · exact runs_throw (htypes hhandled)
  · have hx : ∀ s', s'.Valid nm → s'.frames ≠ [] →
        Runs (do return blockAt r body (← stmtsNodes locks body)) s' E
          fun t s'' => Built nm True s' [t] [] s'' := fun s' hs' hne =>
      (hbody ⟨hs', hne, h.1.names⟩).bind fun ts s₁ h₁ => runs_pure (h₁.block r body)
    apply (withCaught_runs h.1.valid h.1.frames hx).bind
    rintro ⟨v, block⟩ s₁ ⟨h₁, hv⟩
    have hcatch : Built nm True s [nodeAt r (.catchClause types v block)] [] s₁ :=
      h₁.node (fun hc => hc) (.refl _) (by simp [Shape.introduced]) hv nofun nofun
    refine (hrest (h.2.built hcatch)).bind fun ts s₂ h₂ => runs_pure ?_
    exact (hcatch.trans h₂).weaken fun _ => ⟨trivial, trivial⟩

end Around

/-! ### Members -/

section Members

variable {c : OpenClass} {emitted : List String} {rest : List Stmt} {s₀ : Building}

/-- However a member was built, the others are built behind it. -/
abbrev Continues (locks : List String) (nm : String → Prop) (E : BuildFailure → Prop)
    (c : OpenClass) (rest : List Stmt) (calm : Prop) (s₀ : Building) (ts : List Tree)
    (s : Building) : Prop :=
  ∀ (ts' : List Tree) emitted' s', (∀ t ∈ ts', t.shape.isOutermost) → Extends s.vars s'.vars →
    Built nm calm s₀ (ts ++ ts') (unplaced c.own emitted') s' →
    Runs (do return ts' ++ (← memberNodes locks c emitted' rest)) s' E fun us s'' =>
      (∀ u ∈ us, u.shape.isOutermost) ∧ Built nm calm s₀ (ts ++ us) [] s''

/-- Fields are declared by an assignment; one that is declared for the first time takes a value
along. -/
theorem assignedMembers_runs (hrest : Continues locks nm E c rest calm s₀ ts s)
    (hc : c.Sound s.vars) {initializer : Option Tree} {names : List String}
    (hx : Extends s.vars s'.vars)
    (h : Built nm calm s₀ (ts ++ initializer.toList) (unplaced c.own emitted) s')
    (hinitializer : initializer = none ∨ ∃ id, names = [id] ∧ emitted.contains id = false ∧
      id ∈ c.own.map fun e => e.1.name) :
    Runs (assignedMembers locks c emitted r (pure initializer) names rest) s' E fun us s'' =>
      (∀ u ∈ us, u.shape.isOutermost) ∧ Built nm calm s₀ (ts ++ us) [] s'' := by
  rw [assignedMembers, pure_bind]
  apply (assignedFields_runs (hc.extends hx) names h hinitializer).bind
  rintro p s₂ ⟨rfl, hus, h₂⟩
  exact hrest p.1 p.2 s₂ hus hx h₂

/-- A field is declared with the node of its value. -/
theorem valuedMember_runs (hrest : Continues locks nm E c rest calm s₀ ts s)
    (h : Built nm calm s₀ ts (unplaced c.own emitted) s) (hc : c.Sound s.vars) {value : Expr}
    (hvalue : value.Ready nm E s) (hcalm : calm → value.walruses = [])
    (hemitted : emitted.contains id = false) (hid : id ∈ c.own.map fun e => e.1.name) :
    Runs (assignedMembers locks c emitted r (some <$> exprNode value) [id] rest) s E fun us s'' =>
      (∀ u ∈ us, u.shape.isOutermost) ∧ Built nm calm s₀ (ts ++ us) [] s'' := by
  rw [assignedMembers, map_eq_pure_bind, bind_assoc]
  refine (exprNode_runs value hvalue).bind fun t s₁ ht => ?_
  have h₁ : Built nm calm s₀ (ts ++ (some t).toList) (unplaced c.own emitted) s₁ :=
    (h.trans ht).perm (fun hc => ⟨hc, hcalm hc⟩) (.refl _) (by simp)
  simpa only [assignedMembers, pure_bind] using
    assignedMembers_runs hrest hc (r := r) ht.vars h₁ (.inr ⟨id, rfl, hemitted, hid⟩)

end Members

/-! ### All statements -/

mutual

theorem stmtNodes_runs : (stmt : Stmt) → {s : Building} → Inside nm s stmt.mentioned →
    (stmt.isWritten = false → E .unwritable) →
    Runs (stmtNodes locks stmt) s E fun ts s' => Built nm True s ts [] s'
  | .function r signature body, s, h, hE => by
    rw [Stmt.mentioned] at h
    rw [stmtNodes]
    refine withPending_runs h.valid ?_
    refine (functionNode_runs h.clear.valid h.frames fun s' hs' hne =>
      stmtsNodes_runs body ⟨hs', hne, fun n hn => h.names n (List.mem_cons_of_mem _ hn)⟩ hE).bind
      fun t s₁ h₁ => runs_pure (h₁.weaken False.elim)
  | .classType r name bases body, s, h, hE =>
    accounted_classType (fun hne hs₀ hc hnames hown => memberNodes_runs body hs₀ hc hnames hown
      (fun _ hnil => (hne hnil).elim) (fun hcalm => hcalm.elim) hE) h
  | .returnValue r none, s, h, _ => by
    rw [stmtNodes]
    exact runs_pure ((Built.refl h.valid).node (fun hc => hc) (.refl _) (.refl _)
      trivial nofun nofun)
  | .returnValue r (some value), s, h, _ => by
    rw [stmtNodes]
    refine withPending_runs h.valid ?_
    refine (exprNode_runs_of_inside (h.clear.mono fun n hn => ?_)).bind fun t s₁ h₁ => runs_pure ?_
    · simpa [Stmt.mentioned] using hn
    · exact h₁.node (fun hc => hc) (.refl _) (.refl _) trivial nofun nofun
  | .assign r targets value, s, h, _ => by
    rw [stmtNodes]
    exact withPending_runs h.valid (assignNodes_runs h.clear)
  | .augment r target op value, s, h, _ => by
    rw [Stmt.mentioned, inside_append] at h
    rw [stmtNodes]
    refine withPending_runs h.1.valid ?_
    refine (exprNode_runs_of_inside h.1.clear).bind fun t s₁ h₁ => ?_
    refine (exprNode_runs_of_inside (h.2.clear.built h₁)).bind fun u s₂ h₂ => runs_pure ?_
    refine Built.node ?_ (fun hc => hc) (.refl _) (.refl _) trivial nofun nofun
    exact (h₁.trans h₂).node (fun hc => hc.elim) (.refl _) (.refl _) trivial nofun nofun
  | .annotate r target typeHint value, s, h, _ => by
    rw [stmtNodes]
    exact withPending_runs h.valid (annotateNodes_runs h.clear)
  | .forEach r isAsync target source body orElse, s, h, hE => by
    rw [Stmt.isWritten, Bool.and_eq_false_iff] at hE
    exact accounted_forEach (fun hs => stmtsNodes_runs body hs fun hw => hE (.inl hw))
      (fun hs => stmtsNodes_runs orElse hs fun hw => hE (.inr hw)) h
  | .whileLoop r condition body orElse, s, h, hE => by
    rw [Stmt.isWritten, Bool.and_eq_false_iff] at hE
    exact accounted_whileLoop (fun hs => stmtsNodes_runs body hs fun hw => hE (.inl hw))
      (fun hs => stmtsNodes_runs orElse hs fun hw => hE (.inr hw)) h
  | .choose r condition body orElse, s, h, hE => by
    rw [Stmt.isWritten, Bool.and_eq_false_iff] at hE
    exact accounted_choose (fun hs => stmtsNodes_runs body hs fun hw => hE (.inl hw))
      (fun hs => stmtsNodes_runs orElse hs fun hw => hE (.inr hw)) h
  | .withResources r resources body, s, h, hE => by
    rw [Stmt.mentioned, inside_append] at h
    rw [stmtNodes]
    refine withPending_runs h.1.valid ?_
    refine (heldResources_runs resources h.1.clear).bind fun held s₁ h₁ => ?_
    refine (stmtsNodes_runs body (h.2.clear.built h₁) hE).bind fun ts s₂ h₂ => runs_pure ?_
    exact built_holdAll held ((h₁.trans (h₂.block r body)).weaken False.elim)
  | .matchCases r subject cases, s, h, hE => by
    rw [Stmt.mentioned, inside_append] at h
    rw [stmtNodes]
    refine withPending_runs h.1.valid ?_
    refine (simpleNodes_runs (h.1.clear.mono fun n hn => by simpa using hn)).bind
      fun ts s₁ h₁ => ?_
    refine (caseNodes_runs r cases (h.2.clear.built h₁) hE).bind fun us s₂ h₂ => runs_pure ?_
    exact (h₁.trans h₂).weaken False.elim
  | .throwError r error cause, s, h, _ => by
    rw [stmtNodes]
    exact withPending_runs h.valid (throwNodes_runs h.clear)
  | .guarded r body handlers orElse finalBody, s, h, hE => by
    simp only [Stmt.isWritten, Bool.and_eq_false_iff] at hE
    exact accounted_guarded (fun hs => stmtsNodes_runs body hs fun hw => hE (.inl (.inl (.inl hw))))
      (fun hs => handlerNodes_runs handlers hs fun hw => hE (.inl (.inl (.inr hw))))
      (fun hs => stmtsNodes_runs orElse hs fun hw => hE (.inl (.inr hw)))
      (fun hs => stmtsNodes_runs finalBody hs fun hw => hE (.inr hw)) h
  | .imports r names, s, h, _ => by
    rw [stmtNodes]
    exact withPending_runs h.valid (importNodes_runs names h.clear)
  | .globals r names, s, h, _ => by
    rw [stmtNodes]
    refine (runs_modifyFrame (.refl h.valid) (fun hnil => (h.frames hnil).elim)
      fun frame hframe e he => ?_).bind fun _ s₁ ⟨h₁, _⟩ => runs_pure h₁
    exact ⟨h.valid.frames frame hframe e he, .inl ⟨frame, hframe, e.1, he⟩⟩
  | .nonlocals r names, s, h, _ => by
    rw [stmtNodes]
    refine (runs_modifyFrame (.refl h.valid) (fun hnil => (h.frames hnil).elim)
      fun frame hframe e he => ?_).bind fun _ s₁ ⟨h₁, _⟩ => runs_pure h₁
    exact ⟨h.valid.frames frame hframe e he, .inl ⟨frame, hframe, e.1, he⟩⟩
  | .expr r value, s, h, _ => by
    rw [stmtNodes]
    exact withPending_runs h.valid (exprStatementNodes_runs h.clear)
  | .simple r word operands, s, h, _ => by
    rw [stmtNodes]
    exact withPending_runs h.valid (simpleNodes_runs h.clear)

theorem stmtsNodes_runs : (body : List Stmt) → {s : Building} → Inside nm s (mentionedIn body) →
    (areWritten body = false → E .unwritable) →
    Runs (stmtsNodes locks body) s E fun ts s' => Built nm True s ts [] s'
  | [], s, h, _ => runs_pure (Built.refl h.valid)
  | stmt :: rest, s, h, hE => by
    rw [mentionedIn, inside_append] at h
    rw [areWritten, Bool.and_eq_false_iff] at hE
    rw [stmtsNodes]
    refine (stmtNodes_runs stmt h.1 fun hw => hE (.inl hw)).bind fun ts s₁ h₁ => ?_
    refine (stmtsNodes_runs rest (h.2.built h₁) fun hw => hE (.inr hw)).bind
      fun us s₂ h₂ => runs_pure ?_
    exact (h₁.trans h₂).weaken fun _ => ⟨trivial, trivial⟩

theorem caseNodes_runs : (r : Range) → (cases : List (List Stmt)) → {s : Building} →
    Inside nm s (mentionedInCases cases) → (areWrittenCases cases = false → E .unwritable) →
    Runs (caseNodes locks r cases) s E fun ts s' => Built nm True s ts [] s'
  | r, [], s, h, _ => runs_pure (Built.refl h.valid)
  | r, body :: rest, s, h, hE => by
    rw [mentionedInCases, inside_append] at h
    rw [areWrittenCases, Bool.and_eq_false_iff] at hE
    rw [caseNodes]
    refine (stmtsNodes_runs body h.1 fun hw => hE (.inl hw)).bind fun ts s₁ h₁ => ?_
    refine (caseNodes_runs r rest (h.2.built h₁) fun hw => hE (.inr hw)).bind
      fun us s₂ h₂ => runs_pure ?_
    exact ((h₁.block r body).trans h₂).weaken fun _ => ⟨trivial, trivial⟩

theorem handlerNodes_runs : (handlers : List Handler) → {s : Building} →
    Inside nm s (mentionedInHandlers handlers) →
    (areWrittenHandlers handlers = false → E .unwritable) →
    Runs (handlerNodes locks handlers) s E fun ts s' => Built nm True s ts [] s'
  | [], s, h, _ => runs_pure (Built.refl h.valid)
  | .mk r type name body :: rest, s, h, hE => by
    simp only [areWrittenHandlers, Bool.and_eq_false_iff] at hE
    exact accounted_handler (fun hnone => hE (.inl (.inl (by rw [hnone]; rfl))))
      (fun hs => stmtsNodes_runs body hs fun hw => hE (.inl (.inr hw)))
      (fun hs => handlerNodes_runs rest hs fun hw => hE (.inr hw)) h

theorem memberNodes_runs : (body : List Stmt) → {c : OpenClass} → {emitted : List String} →
    {s₀ s : Building} → {calm : Prop} → {ts : List Tree} →
    Built nm calm s₀ ts (unplaced c.own emitted) s → c.Sound s.vars →
    (∀ n ∈ mentionedIn body, nm n) →
    (∀ b ∈ classBindings body, b.name ∈ c.own.map fun e => e.1.name) →
    ((initializersIn body).flatMap Expr.walruses ≠ [] → s₀.frames = [] → E .noFrame) →
    (calm → (initializersIn body).flatMap Expr.walruses = []) →
    (areWrittenMembers body = false → E .unwritable) →
    Runs (memberNodes locks c emitted body) s E fun us s' =>
      (∀ u ∈ us, u.shape.isOutermost) ∧ Built nm calm s₀ (ts ++ us) [] s'
  | [], c, emitted, s₀, s, calm, ts, h, hc, _, _, _, _, _ => by
    rw [memberNodes]
    exact (remainingFields_runs c.own hc.own h).mono fun us s' ⟨_, hus, h'⟩ => ⟨hus, h'⟩
  | stmt :: rest, c, emitted, s₀, s, calm, ts, h, hc, hnames, hown, hframe, hcalm, hE => by
    rw [mentionedIn, List.forall_mem_append] at hnames
    obtain ⟨es, hes⟩ := initializersIn_cons stmt rest
    rw [hes, List.flatMap_append] at hframe hcalm
    have hrest : Continues locks nm E c rest calm s₀ ts s := by
      intro ts' emitted' s' hts' hx h'
      apply (memberNodes_runs rest h' (hc.extends hx) hnames.2
        (fun b hb => hown b (classBindings_subset_cons hb)) (fun hw => hframe (by simp [hw]))
        (fun hc => (List.append_eq_nil_iff.mp (hcalm hc)).2)
        fun hw => hE (areWrittenMembers_of_cons hw)).bind
      rintro us s'' ⟨hus, h''⟩
      refine runs_pure ⟨List.forall_mem_append.mpr ⟨hts', hus⟩, ?_⟩
      rwa [List.append_assoc] at h''
    have hvalue : ∀ r value id, [value] = es → (∀ n ∈ value.mentioned, nm n) →
        emitted.contains id = false → (∃ b ∈ classBindings (stmt :: rest), b.name = id) →
        Runs (assignedMembers locks c emitted r (some <$> exprNode value) [id] rest) s E fun us s'' =>
          (∀ u ∈ us, u.shape.isOutermost) ∧ Built nm calm s₀ (ts ++ us) [] s'' := by
      rintro r value _ rfl hvalue hemitted ⟨b, hb, rfl⟩
      refine valuedMember_runs hrest h hc ⟨h.valid, hvalue, fun hw hnil => ?_⟩ (fun hc => ?_)
        hemitted (hown b hb)
      · exact hframe (by simp [hw]) (h.frames_eq_nil.mp hnil)
      · simpa using (List.append_eq_nil_iff.mp (hcalm hc)).1
    cases stmt with
    | function r signature body =>
      rw [areWrittenMembers, Bool.and_eq_false_iff] at hE
      rw [memberNodes]
      refine (methodNode_runs h.valid (hnames.1 _ List.mem_cons_self) (fun names hnames => ?_)
        fun s' hs' hne => stmtsNodes_runs body ⟨hs', hne, fun n hn =>
          hnames.1 n (List.mem_cons_of_mem _ hn)⟩ fun hw => hE (.inl hw)).bind
        fun t s₁ ⟨ht, h₁⟩ => hrest [t] emitted s₁ ?_ h₁.vars ?_
      · cases hnames
        exact hc.all
      · simpa using ht
      · exact (h.trans h₁).perm (fun hc => ⟨hc, trivial⟩) (.refl _) (by simp)
    | classType r name bases body =>
      rw [areWrittenMembers, Bool.and_eq_false_iff] at hE
      obtain rfl : es = initializersIn body := by
        rw [initializersIn.eq_def] at hes
        exact (List.append_cancel_right hes).symm
      rw [memberNodes]
      refine runs_class_bind h.valid (fun inner s₁ h₁ hinner hown => memberNodes_runs body
        (h₁.weaken fun (_ : calm) => trivial) hinner hnames.1 hown (fun hw hnil => ?_) (fun hc => ?_)
        fun hw => hE (.inl hw)) fun t s₁ ht _ h₁ => hrest [t] emitted s₁ ?_ h₁.vars ?_
      · exact hframe (by simp [hw]) (h.frames_eq_nil.mp hnil)
      · exact (List.append_eq_nil_iff.mp (hcalm hc)).1
      · simpa using ht
      · exact (h.trans h₁).perm (fun hc => ⟨hc, hc⟩) (.refl _) (by simp)
    | assign r targets value =>
      rw [Stmt.mentioned, List.forall_mem_append] at hnames
      obtain ⟨x, hmembers, rfl | ⟨rfl, tr, id, rfl, hemitted⟩⟩ :=
        memberNodes_assign locks c emitted r targets value rest
      all_goals rw [hmembers]
      · exact assignedMembers_runs hrest hc (.refl _) (by simpa using h) (.inl rfl)
      · refine hvalue r value id (List.append_cancel_right hes) hnames.1.1 hemitted ?_
        exact mem_classBindings_assign (List.mem_singleton.mpr rfl) r value rest
    | annotate r target typeHint value =>
      rw [Stmt.mentioned, List.forall_mem_append] at hnames
      obtain ⟨x, hmembers, rfl | ⟨e, rfl, rfl, tr, id, rfl, hemitted⟩⟩ :=
        memberNodes_annotate locks c emitted r target typeHint value rest
      all_goals rw [hmembers]
      · exact assignedMembers_runs hrest hc (.refl _) (by simpa using h) (.inl rfl)
      · refine hvalue r e id (List.append_cancel_right hes) (by simpa using hnames.1.2) hemitted ?_
        exact mem_classBindings_annotate (List.mem_singleton.mpr rfl) r typeHint (some e) rest
    | _ =>
      simp only [memberNodes]
      simpa only [List.nil_append, bind_pure] using
        hrest [] emitted s (fun _ ht => nomatch ht) (.refl _) (by simpa using h)

end

end Statements

end ModelLint.Source
