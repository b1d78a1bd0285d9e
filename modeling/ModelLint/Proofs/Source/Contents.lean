import Mathlib.Logic.Relation
import ModelLint.Proofs.Source.Members
import ModelLint.Proofs.Source.Operands
import ModelLint.Proofs.Source.Routines

/-!
# What a source contains

The functions, classes and statements of a source stand in one another. For each of them a step was
taken while the unit was built, in a state of its own, and what the step gave stands in the unit.

* `Site`: where trees end up; `Site.Keeps`: what a step gave ended up there.
* `Site.Took`, `Site.TookRoutine`, `Site.TookClass`: the step of a statement, a function, a class.
* `Part`, **`Contains`**: what stands in a source.
* **`took_of_contains`**: the steps of all that a source contains were taken.
-/

namespace ModelLint.Source

open Build

variable {α β : Type} {locks : List String} {r : Range} {s s' s'' : Building} {ts us : List Tree}
  {R : List Receiver} {signature : Signature} {body : List Stmt} {name : String} {o : Option String}

/-! ## Steps -/

namespace Site

/-- **The statements of a function were built** in a frame of its parameters, and stand in its node. -/
def TookRoutine (site : Site) (locks : List String) (R : List Receiver) (f : Routine) : Prop :=
  ∃ (names : Names) (s₁ : Building) (ts : List Tree) (s₂ : Building) (shape : Shape Tree),
    s₁.Open ∧ s₁.receivers = R ∧ s₁.frames.head? = some (.ofNames names) ∧
      names.map (·.1) = f.parameters ∧ (stmtsNodes locks f.body).run s₁ = .ok (ts, s₂) ∧
        shape.IsFunction ∧ shape.children = ts ∧ site.Keeps [nodeAt f.range shape] s₂

/-- **The members of a class were built** behind its fields, and stand in its node. -/
def TookClass (site : Site) (locks : List String) (R : List Receiver) (r : Range) (body : List Stmt) :
    Prop :=
  ∃ (c : OpenClass) (s₁ : Building) (ts : List Tree) (s₂ : Building) (info : DeclarationInfo),
    s₁.Valid AnyName ∧ s₁.receivers = R ∧ c.Sound s₁.vars ∧
      (∀ b ∈ classBindings body, b.name ∈ c.own.map fun e => e.1.name) ∧
      (∀ e ∈ c.own, c.all.lookup e.1.name = some e.2) ∧
      (memberNodes locks c [] body).run s₁ = .ok (ts, s₂) ∧ info.kind = .type ∧
      site.Keeps [nodeAt r (.declaration info ts none [])] s₂

end Site

/-! ## Functions -/

theorem runs_stmtsNodes_inFrame {names : Names} (hs : s.Valid AnyName)
    (hnames : NamesDenote s.vars AnyKind names) :
    Runs (withFrame (.ofNames names) (stmtsNodes locks body)) s (fun _ => True) fun ts s' =>
      ∃ s₁ s₂, s₁.Open ∧ s₁.receivers = s.receivers ∧ s₁.frames.head? = some (.ofNames names) ∧
        (stmtsNodes locks body).run s₁ = .ok (ts, s₂) ∧ s'.hoisted = s₂.hoisted ∧
          s'.vars = s₂.vars :=
  runs_withFrame (runs_self.mono fun _ s₂ hrun => ⟨_, s₂,
    ⟨hs.openFrame (namesDenote_ofNames.mpr hnames), List.cons_ne_nil _ _⟩, rfl, rfl, hrun, rfl, rfl⟩)

/-- The receivers in a method of a class with the given fields. -/
def receiversIn (signature : Signature) (fields : Option Names) (R : List Receiver) : List Receiver :=
  (fields.map signature.receiver).toList ++ R

theorem tookRoutine_methodNode {fields : Option Names} (o : Option String) (hs : s.Valid AnyName)
    (hfields : ∀ names, fields = some names → NamesDenote s.vars (· = .field) names) :
    Runs (methodNode r signature fields (stmtsNodes locks body)) s (fun _ => True) fun t s' =>
      ∀ site : Site, site.Keeps [t] s' → site.TookRoutine locks
        (receiversIn signature fields s.receivers) ⟨r, o, signature, body⟩ := by
  rw [methodNode]
  apply ((parameterNames_runs _ hs).and (runs_parameterNames _)).bind
  rintro names s₁ ⟨⟨h₁, hdenote, -⟩, -, hnames, -⟩
  have hinner : ∀ s₂ : Building, s₂.Valid AnyName → s₂.vars = s₁.vars →
      Runs (withQualifier signature.name (withFrame (.ofNames names) (stmtsNodes locks body))) s₂
        (fun _ => True) fun ts s' => ∃ s₃ s₄, s₃.Open ∧ s₃.receivers = s₂.receivers ∧
          s₃.frames.head? = some (.ofNames names) ∧ (stmtsNodes locks body).run s₃ = .ok (ts, s₄) ∧
            s'.hoisted = s₄.hoisted ∧ s'.vars = s₄.vars := by
    intro s₂ hs₂ hvars
    refine runs_withQualifier (runs_stmtsNodes_inFrame { hs₂ with } ?_)
    rw [hvars]
    exact hdenote.mono fun _ _ => trivial
  have hreceived : Runs (withReceiver (fields.map signature.receiver) (withQualifier signature.name
      (withFrame (.ofNames names) (stmtsNodes locks body)))) s₁ (fun _ => True) fun ts s' =>
        ∃ s₃ s₄, s₃.Open ∧ s₃.receivers = receiversIn signature fields s.receivers ∧
          s₃.frames.head? = some (.ofNames names) ∧ (stmtsNodes locks body).run s₃ = .ok (ts, s₄) ∧
            s'.hoisted = s₄.hoisted ∧ s'.vars = s₄.vars := by
    rw [receiversIn, ← h₁.receivers]
    rcases fields with _ | fields
    · exact hinner s₁ h₁.valid rfl
    · have hreceiver := h₁.openReceiver (signature.receiver fields)
        ((hfields fields rfl).extends h₁.vars)
      exact runs_withReceiver_some (hinner _ hreceiver.valid rfl)
  apply hreceived.bind
  rintro ts s₂ ⟨s₃, s₄, hs₃, hR, hframes, hrun, hhoisted, hvars⟩
  refine runs_qualified.bind fun q s₅ hs₅ => runs_pure fun site hkeeps => ?_
  subst hs₅
  refine ⟨names, s₃, ts, s₄, _, hs₃, hR, hframes, hnames, hrun, ?_, ?_,
    hkeeps.before (fun _ hu => hu) (hhoisted ▸ fun _ ht => ht) (hvars ▸ .refl _)⟩
  · rfl
  · simp [Shape.children, Shape.slots]

theorem tookRoutine_functionNode (o : Option String) (hs : s.Open) :
    Runs (functionNode r signature (stmtsNodes locks body)) s (fun _ => True) fun t s' =>
      ∀ site : Site, site.Keeps [t] s' →
        site.TookRoutine locks s.receivers ⟨r, o, signature, body⟩ := by
  refine runs_bound fun _ => ?_
  have hbound := hs.bound signature.name (some "function")
  refine ((parameterNames_runs _ hbound.valid).and (runs_parameterNames _)).bind
    fun names s₁ ⟨⟨h₁, hdenote, _⟩, _, hnames, _⟩ => ?_
  refine (runs_stmtsNodes_inFrame h₁.valid (hdenote.mono fun _ _ => trivial)).bind
    fun ts s₂ ⟨s₃, s₄, hs₃, hR, hframes, hrun, hhoisted, hvars⟩ => runs_pure fun site hkeeps => ?_
  refine ⟨names, s₃, ts, s₄, .lambda (names.map (·.2)) signature.isAsync ts, hs₃,
    hR.trans h₁.receivers, hframes, hnames, hrun, trivial, ?_,
    hkeeps.before (within_node ?_) (hhoisted ▸ fun _ ht => ht) (hvars ▸ .refl _)⟩
  · simp [Shape.children, Shape.slots]
  · simp [Shape.children, Shape.slots]

theorem Site.Took.function {site : Site} (h : site.Took R (stmtNodes locks (.function r signature body)))
    (o : Option String) : site.TookRoutine locks R ⟨r, o, signature, body⟩ := by
  obtain ⟨s₁, ts, s₂, hs₁, rfl, hrun, hkeeps⟩ := h
  rw [stmtNodes] at hrun
  refine Runs.of_ok (E := fun _ => True) (Q := fun ts s₂ => site.Keeps ts s₂ → _) ?_ hrun hkeeps
  refine Runs.bind (runs_collectPending (Q := fun p s' => ∀ site : Site, site.Keeps p.2 s' →
    site.TookRoutine locks s₁.receivers ⟨r, o, signature, body⟩) ?_) fun p s' hp => runs_pure fun hkeeps => ?_
  · exact (tookRoutine_functionNode o hs₁.clear).bind fun t s' ht => runs_pure fun site hkeeps =>
      ht site ⟨hkeeps.trees, hkeeps.hoisted, hkeeps.vars⟩
  · refine hp site (hkeeps.before ?_ (fun _ ht => ht) (.refl _))
    exact within_of_subset (List.subset_append_right _ _)

/-! ## Classes -/

theorem lookup_addMissing {names more : Names} {v : VariableId} (h : names.lookup name = some v) :
    (addMissing names more).lookup name = some v := by
  induction more generalizing names with
  | nil => exact h
  | cons e rest ih =>
    refine ih ?_
    dsimp only
    split
    · exact h
    · rw [List.lookup_append, h, Option.some_or]

theorem lookup_foldl_addMissing {v : VariableId} : (inherited : List Names) → {names : Names} →
    names.lookup name = some v → (inherited.foldl addMissing names).lookup name = some v
  | [], _, h => h
  | _ :: rest, _, h => lookup_foldl_addMissing rest (lookup_addMissing h)

/-- Own fields come before those of the bases. -/
theorem returns_openClass {bases : List Expr} : Returns (openClass name bases body) fun c =>
    ∃ inherited : List Names, c.all = inherited.foldl addMissing (c.own.map fun e => (e.1.name, e.2)) :=
  .next fun _ => .next fun _ => .next fun _ => .pure ⟨_, rfl⟩

theorem OpenClass.Sound.lookup_all {c : OpenClass} {vars : Array Variable} (h : c.Sound vars)
    (hall : ∃ inherited : List Names,
      c.all = inherited.foldl addMissing (c.own.map fun e => (e.1.name, e.2))) :
    ∀ e ∈ c.own, c.all.lookup e.1.name = some e.2 := by
  obtain ⟨inherited, hall⟩ := hall
  intro e he
  rw [hall]
  exact lookup_foldl_addMissing inherited (lookup_own h.nodup he)

/-- A class is built: what becomes of its members is seen where its node ends up. -/
theorem tookClass_class {f : Tree → Build α} {bases : List Expr} {Q : α → Building → Prop}
    (hs : s.Valid AnyName) (hf : ∀ t s', s.Grows s' →
      (∀ site : Site, site.Keeps [t] s' → site.TookClass locks s.receivers r body) →
      Runs (f t) s' (fun _ => True) Q) :
    Runs (do
      let c ← openClass name bases body
      let members ← withQualifier name (memberNodes locks c [] body)
      let t ← classNode r name body members
      f t) s (fun _ => True) Q := by
  refine ((openClass_runs hs).and (returns_openClass s)).bind fun c s₁ ⟨⟨h₁, hc, hown⟩, hall⟩ => ?_
  have hmembers : Runs (memberNodes locks c [] body) { s₁ with qualifiers := name :: s₁.qualifiers }
      (fun _ => True) fun us s' => (∀ u ∈ us, u.shape.isOutermost) ∧
        Built AnyName False { s with qualifiers := name :: s.qualifiers } ([] ++ us) [] s' :=
    memberNodes_runs body ((h₁.openQualifier name).weaken False.elim) hc (fun _ _ => trivial) hown
      (fun _ _ => trivial) False.elim fun _ => trivial
  refine Runs.bind (runs_withQualifier (Q := fun ts s' => s.Grows s' ∧ ∀ info : DeclarationInfo,
    info.kind = .type → ∀ site : Site,
      site.Keeps [nodeAt r (.declaration info ts none [])] s' →
        site.TookClass locks s.receivers r body) ((hmembers.and runs_self).mono
          fun ts s₂ ⟨⟨_, hbuilt⟩, hrun⟩ => ⟨hbuilt.closeQualifier.grows, ?_⟩)) ?_
  · intro info hkind site hkeeps
    exact ⟨c, _, ts, s₂, info, (h₁.openQualifier name).valid, h₁.receivers, hc, hown,
      hc.lookup_all hall, hrun, hkind, ⟨hkeeps.trees, hkeeps.hoisted, hkeeps.vars⟩⟩
  · rintro ts s₂ ⟨hgrows, htook⟩
    rw [classNode, bind_assoc]
    refine runs_qualified.bind fun q s₃ hs₃ => ?_
    subst hs₃
    exact hf _ _ hgrows (htook _ rfl)

theorem fieldAt_same {modifiers : List String} {v : VariableId} {initializer : Option Tree} :
    Runs (fieldAt r modifiers name v initializer) s (fun _ => True) fun _ s' => s' = s := rfl

theorem assignedFields_same {c : OpenClass} : (names : List String) → {emitted : List String} →
    {initializer : Option Tree} →
    Runs (assignedFields c r emitted initializer names) s (fun _ => True) fun _ s' => s' = s
  | [], _, _ => runs_pure rfl
  | name :: rest, emitted, initializer => by
    rw [assignedFields]
    split
    · refine fieldAt_same.bind fun t s₁ hs₁ => ?_
      rw [hs₁]
      exact (assignedFields_same rest).bind fun p s₂ hs₂ => hs₂
    · exact assignedFields_same rest

theorem remainingFields_same {emitted : List String} : (own : List (Field × VariableId)) →
    Runs (remainingFields emitted own) s (fun _ => True) fun _ s' => s' = s
  | [] => runs_pure rfl
  | (f, v) :: rest => by
    rw [remainingFields]
    split
    · exact remainingFields_same rest
    · refine fieldAt_same.bind fun t s₁ hs₁ => ?_
      rw [hs₁]
      exact (remainingFields_same rest).bind fun us s₂ hs₂ => hs₂

/-- What becomes of a member of a class. -/
def Site.TookMember (site : Site) (locks : List String) (R : List Receiver) (c : OpenClass) :
    Stmt → Prop
  | .function r signature body => site.TookRoutine locks (receiversIn signature (some c.all) R)
    ⟨r, signature.object?, signature, body⟩
  | .classType r _ _ body => site.TookClass locks R r body
  | _ => True

theorem tookMember_memberNodes (body : List Stmt) {c : OpenClass} {emitted : List String}
    {s : Building} (hs : s.Valid AnyName) (hc : c.Sound s.vars) :
    Runs (memberNodes locks c emitted body) s (fun _ => True) fun us s' => s.Grows s' ∧
      ∀ site : Site, site.Keeps us s' → ∀ stmt ∈ body, site.TookMember locks s.receivers c stmt := by
  induction body generalizing emitted s with
  | nil =>
    rw [memberNodes]
    exact (remainingFields_same c.own).mono fun us s' hs' =>
      ⟨hs' ▸ hs.grows, fun _ _ => List.forall_mem_nil _⟩
  | cons stmt rest ih =>
    -- However the member was built, the others are built behind it.
    have hrest : ∀ (ts : List Tree) emitted' s', s.Grows s' →
        (∀ site : Site, site.Keeps ts s' → site.TookMember locks s.receivers c stmt) →
        Runs (do return ts ++ (← memberNodes locks c emitted' rest)) s' (fun _ => True)
          fun us s'' => s.Grows s'' ∧ ∀ site : Site, site.Keeps us s'' →
            ∀ m ∈ stmt :: rest, site.TookMember locks s.receivers c m := by
      intro ts emitted' s' hgrows htook
      apply (ih hgrows.valid (hc.extends hgrows.vars)).bind
      rintro us s'' ⟨hgrows', hus⟩
      refine runs_pure ⟨hgrows.trans hgrows', fun site hkeeps => ?_⟩
      refine List.forall_mem_cons.mpr ⟨htook site (hkeeps.before
        (within_of_subset (List.subset_append_left _ _)) hgrows'.hoisted hgrows'.vars), ?_⟩
      rw [← hgrows.receivers]
      exact hus site (hkeeps.before (within_of_subset (List.subset_append_right _ _))
        (fun _ ht => ht) (.refl _))
    have hassigned : ∀ r (initializer : Option Tree) names s', s.Grows s' →
        (∀ site : Site, site.TookMember locks s.receivers c stmt) →
        Runs (assignedMembers locks c emitted r (pure initializer) names rest) s' (fun _ => True)
          fun us s'' => s.Grows s'' ∧ ∀ site : Site, site.Keeps us s'' →
            ∀ m ∈ stmt :: rest, site.TookMember locks s.receivers c m := by
      intro r initializer names s' hgrows htook
      rw [assignedMembers, pure_bind]
      refine (assignedFields_same names).bind fun p s₂ hs₂ => ?_
      subst hs₂
      exact hrest p.1 p.2 _ hgrows fun site _ => htook site
    have hvalue : ∀ r (value : Expr) names,
        (∀ site : Site, site.TookMember locks s.receivers c stmt) →
        Runs (assignedMembers locks c emitted r (some <$> exprNode value) names rest) s
          (fun _ => True) fun us s'' => s.Grows s'' ∧ ∀ site : Site, site.Keeps us s'' →
            ∀ m ∈ stmt :: rest, site.TookMember locks s.receivers c m := by
      intro r value names htook
      rw [assignedMembers, map_eq_pure_bind, bind_assoc]
      refine (exprNode_runs value ⟨hs, fun _ _ => trivial, fun _ _ => trivial⟩).bind fun t s₁ ht => ?_
      simpa only [assignedMembers, pure_bind] using hassigned r (some t) names s₁ ht.grows htook
    cases stmt with
    | function r signature body =>
      rw [memberNodes]
      refine ((methodNode_runs hs trivial (fun names hnames => ?_) fun s' hs' hne =>
        stmtsNodes_runs body ⟨hs', hne, fun _ _ => trivial⟩ fun _ => trivial).and
          (tookRoutine_methodNode signature.object? hs fun names hnames => ?_)).bind
            fun t s₁ h₁ => hrest [t] emitted s₁ h₁.1.2.grows h₁.2
      all_goals
        cases hnames
        exact hc.all
    | classType r name bases body =>
      rw [memberNodes]
      exact tookClass_class hs fun t s' hgrows htook => hrest [t] emitted s' hgrows htook
    | assign r targets value =>
      obtain ⟨x, hmembers, rfl | ⟨rfl, -⟩⟩ := memberNodes_assign locks c emitted r targets value rest
      all_goals rw [hmembers]
      · exact hassigned r none _ s hs.grows fun _ => trivial
      · exact hvalue r value _ fun _ => trivial
    | annotate r target typeHint value =>
      obtain ⟨x, hmembers, rfl | ⟨e, rfl, rfl, -⟩⟩ :=
        memberNodes_annotate locks c emitted r target typeHint value rest
      all_goals rw [hmembers]
      · exact hassigned r none _ s hs.grows fun _ => trivial
      · exact hvalue r e _ fun _ => trivial
    | _ =>
      simp only [memberNodes]
      simpa only [List.nil_append, bind_pure] using hrest [] emitted s hs.grows fun _ _ => trivial

theorem Site.TookClass.member {site : Site} {stmt : Stmt} (h : site.TookClass locks R r body)
    (hstmt : stmt ∈ body) : ∃ c, site.TookMember locks R c stmt := by
  obtain ⟨c, s₁, ts, s₂, info, hs₁, rfl, hc, -, -, hrun, -, hkeeps⟩ := h
  refine ⟨c, ((tookMember_memberNodes body hs₁ hc).of_ok hrun).2 site ?_ stmt hstmt⟩
  exact hkeeps.before (within_node (by simp [Shape.children, Shape.slots])) (fun _ ht => ht) (.refl _)

/-- The node of a class in a function moves to the module. -/
theorem Site.Took.class {site : Site} {bases : List Expr}
    (h : site.Took R (stmtNodes locks (.classType r name bases body))) :
    site.module.TookClass locks R r body := by
  obtain ⟨s₁, ts, s₂, hs₁, rfl, hrun, hkeeps⟩ := h
  rw [stmtNodes] at hrun
  refine Runs.of_ok (E := fun _ => True) (Q := fun _ s₂ => site.Keeps ts s₂ → _) ?_ hrun hkeeps
  refine Runs.bind (runs_collectPending (Q := fun _ s' => ∀ us, site.Keeps us s' →
    site.module.TookClass locks s₁.receivers r body) ?_) fun _ s' h' => runs_pure (h' ts)
  refine tookClass_class hs₁.clear.valid fun t s' hgrows htook => runs_modify_bind (runs_bound
    fun _ => runs_pure fun us hkeeps => htook site.module ⟨?_, ?_, ?_⟩)
  · refine fun u hu => hkeeps.hoisted u (within_of_subset ?_ u hu)
    simp [Building.bound]
  · refine fun u hu => hkeeps.hoisted u (within_of_subset ?_ u hu)
    simp [Building.bound]
  · exact extends_bound.trans hkeeps.vars

/-! ## Modules -/

/-- What becomes of a statement of a module. -/
def Site.TookTop (site : Site) (locks : List String) (R : List Receiver) : Stmt → Prop
  | .function r signature body => site.TookRoutine locks R ⟨r, none, signature, body⟩
  | .classType r _ _ body => site.TookClass locks R r body
  | .imports _ _ | .assign _ _ _ | .annotate _ _ _ _ => True
  | stmt => site.Took R (stmtNodes locks stmt)

namespace ModuleParts

variable {parts parts' : ModuleParts} {stmt : Stmt}

/-- The trees of a module so far. -/
def made (parts : ModuleParts) : List Tree := parts.members ++ parts.statements

/-- **A module grows** with the state it is built in. -/
structure Grows (parts : ModuleParts) (s : Building) (parts' : ModuleParts) (s' : Building) : Prop where
  /-- The state comes behind the one before. -/
  state : s.Grows s'
  /-- The names of the module's own frame are those of variables. -/
  frame : NamesDenote s'.vars AnyKind parts'.frame.names
  /-- Trees stay. -/
  made : parts.made ⊆ parts'.made

theorem addFields_same {modifiers : List String} {initializer : Option Tree} (names : List String)
    {parts : ModuleParts} : Runs (parts.addFields r modifiers initializer names) s (fun _ => True)
      fun parts' s' => s' = s ∧ parts'.frame = parts.frame ∧ parts.made ⊆ parts'.made := by
  induction names generalizing parts with
  | nil => exact runs_pure ⟨rfl, rfl, fun _ ht => ht⟩
  | cons name rest ih =>
    rw [addFields]
    refine runs_get_bind ?_
    split
    · refine fieldAt_same.bind fun t s₁ hs₁ => ?_
      rw [hs₁]
      refine ih.mono fun parts' s' h => ⟨h.1, h.2.1, fun u hu => h.2.2 ?_⟩
      simp only [made, List.mem_append] at hu ⊢
      tauto
    · exact ih

/-- The frame of the module is the innermost one while its own statements are built. -/
theorem namesDenote_headD (hs : s.Valid AnyName) (hne : s.frames ≠ []) (frame : Frame) :
    NamesDenote s.vars AnyKind (s.frames.headD frame).names := by
  obtain ⟨first, outer, hframes⟩ := List.exists_cons_of_ne_nil hne
  rw [hframes, List.headD_cons]
  exact hs.frames first (hframes ▸ List.mem_cons_self)

theorem took_inFrame (hs : s.Valid AnyName) (hframe : NamesDenote s.vars AnyKind parts.frame.names) :
    Runs (parts.inFrame (stmtNodes locks stmt)) s (fun _ => True) fun parts' s' =>
      parts.Grows s parts' s' ∧ ∀ site : Site, site.Keeps parts'.made s' →
        site.Took s.receivers (stmtNodes locks stmt) := by
  have hopen : Building.Open { s with frames := parts.frame :: s.frames } :=
    ⟨hs.openFrame hframe, List.cons_ne_nil _ _⟩
  refine runs_modify_bind (Runs.bind ((stmtNodes_runs stmt (hopen.inside _) fun _ => trivial).and
    runs_self) fun ts s₁ ⟨h₁, hrun⟩ => runs_get_bind (runs_set_bind (runs_pure ⟨⟨?_, ?_, ?_⟩, ?_⟩)))
  · exact ⟨{ h₁.valid with frames := fun f hf => h₁.valid.frames f (List.mem_of_mem_drop hf) },
      h₁.receivers, h₁.scoping.hoisted.subset, h₁.vars⟩
  · exact namesDenote_headD h₁.valid (hopen.built h₁).frames parts.frame
  · intro t ht
    simp only [made, List.mem_append] at ht ⊢
    tauto
  · intro site hkeeps
    refine ⟨_, ts, s₁, hopen, rfl, hrun, hkeeps.before (within_of_subset fun t ht => ?_)
      (fun _ ht => ht) (.refl _)⟩
    simp only [made, List.mem_append]
    exact .inr (.inr ht)

theorem grows_addAssignment {targets : List Expr} {value : Option Expr} (hs : s.Valid AnyName)
    (hframe : NamesDenote s.vars AnyKind parts.frame.names) :
    Runs (parts.addAssignment locks stmt targets value) s (fun _ => True) fun parts' s' =>
      parts.Grows s parts' s' := by
  have hinFrame : ∀ parts : ModuleParts, NamesDenote s.vars AnyKind parts.frame.names →
      Runs (parts.inFrame (stmtNodes locks stmt)) s (fun _ => True) fun parts' s' =>
        parts.Grows s parts' s' := fun parts hframe =>
    (took_inFrame hs hframe).mono fun _ _ h => h.1
  have hopen : Building.Open { s with frames := parts.frame :: s.frames } :=
    ⟨hs.openFrame hframe, List.cons_ne_nil _ _⟩
  rw [addAssignment.eq_def]
  split
  · split
    · exact hinFrame parts hframe
    · have hplaced : ∀ (names : List String) (x : Build (Option Tree)),
          Runs x { s with frames := parts.frame :: s.frames } (fun _ => True) (fun _ s' =>
            s'.frames ≠ [] ∧ Building.Grows { s with frames := parts.frame :: s.frames } s') →
          Runs (do
            let initializer ← x
            let state ← get
            set { state with frames := state.frames.drop 1, pending := [] }
            let parts ← parts.addFields stmt.range [] initializer names
            return { parts with
              statements := parts.statements ++ state.pending
              frame := state.frames.headD parts.frame })
            { s with frames := parts.frame :: s.frames } (fun _ => True) fun parts' s' =>
              parts.Grows s parts' s' := by
        intro names x hx
        apply hx.bind
        rintro t s₁ ⟨hne, h₁⟩
        refine runs_get_bind (runs_set_bind ?_)
        apply (addFields_same names).bind
        rintro parts₂ s₂ ⟨rfl, -, hmade⟩
        refine runs_pure ?_
        refine ⟨⟨{ h₁.valid with
          frames := fun f hf => h₁.valid.frames f (List.mem_of_mem_drop hf)
          pending := List.forall_mem_nil _ }, h₁.receivers, h₁.hoisted, h₁.vars⟩, ?_, fun u hu => ?_⟩
        · exact namesDenote_headD h₁.valid hne _
        · have hu := hmade hu
          simp only [made, List.mem_append] at hu ⊢
          tauto
      refine runs_modify_bind ?_
      split
      · exact hplaced _ _ (runs_pure ⟨hopen.frames, hopen.valid.grows⟩)
      · next value =>
        exact hplaced _ _ (Runs.map ((exprNode_runs_of_inside (hopen.inside _)).mono
          fun _ _ h => ⟨(hopen.built h).frames, h.grows⟩))
  · apply (addFields_same _).bind
    rintro parts₁ s₁ ⟨rfl, hframe₁, hmade⟩
    exact (hinFrame parts₁ (hframe₁ ▸ hframe)).mono fun parts' s' h =>
      { h with made := List.Subset.trans hmade h.made }

/-- **A statement of a module** is built, and what it becomes stands among the trees. -/
theorem took_addStatement (hs : s.Valid AnyName)
    (hframe : NamesDenote s.vars AnyKind parts.frame.names) :
    Runs (parts.addStatement locks stmt) s (fun _ => True) fun parts' s' =>
      parts.Grows s parts' s' ∧ ∀ site : Site, site.Keeps parts'.made s' →
        site.TookTop locks s.receivers stmt := by
  have hmember : ∀ (t : Tree) s', s.Grows s' →
      parts.Grows s { parts with members := parts.members ++ [t] } s' ∧
        [t] ⊆ made { parts with members := parts.members ++ [t] } := by
    refine fun t s' hs' => ⟨⟨hs', hframe.extends hs'.vars, fun u hu => ?_⟩, fun u hu => ?_⟩
    all_goals
      simp only [made, List.mem_append] at hu ⊢
      tauto
  cases stmt with
  | function r signature body =>
    apply Runs.bind ((methodNode_runs hs trivial (fun _ hf => by cases hf)
      fun s' hs' hne => stmtsNodes_runs body ⟨hs', hne, fun _ _ => trivial⟩ fun _ => trivial).and
        (tookRoutine_methodNode none hs fun _ hf => by cases hf))
    rintro t s₁ ⟨⟨-, h₁⟩, htook⟩
    refine runs_pure ⟨(hmember t _ h₁.grows).1, fun site hkeeps => ?_⟩
    exact htook site (hkeeps.before (within_of_subset (hmember t _ h₁.grows).2) (fun _ ht => ht)
      (.refl _))
  | classType r name bases body =>
    refine tookClass_class hs fun t s' hgrows htook => runs_pure
      ⟨(hmember t _ hgrows).1, fun site hkeeps => ?_⟩
    exact htook site (hkeeps.before (within_of_subset (hmember t _ hgrows).2) (fun _ ht => ht)
      (.refl _))
  | imports r names =>
    apply (addFields_same names).mono
    rintro parts' s' ⟨rfl, hframe', hmade⟩
    exact ⟨⟨hs.grows, hframe' ▸ hframe, hmade⟩, fun _ _ => trivial⟩
  | assign r targets value =>
    exact (grows_addAssignment hs hframe).mono fun _ _ h => ⟨h, fun _ _ => trivial⟩
  | annotate r target typeHint value =>
    exact (grows_addAssignment hs hframe).mono fun _ _ h => ⟨h, fun _ _ => trivial⟩
  | _ => exact took_inFrame hs hframe

end ModuleParts

/-- **What becomes of the statements of a module** stands in its tree. -/
theorem took_moduleNode : Runs (moduleNode locks name body) .start (fun _ => True) fun t s =>
    ∀ stmt ∈ body, Site.TookTop ⟨[t], [t], s.vars⟩ locks [] stmt := by
  rw [moduleNode]
  apply (fieldVariables_runs _ Building.valid_start).bind
  rintro own s₁ ⟨h₁, -, hown⟩
  refine runs_modify_bind ?_
  have hnames : NamesDenote s₁.vars (· = .field) (own.map fun e => (e.1.name, e.2)) := by
    intro e he
    obtain ⟨e', hmem, rfl⟩ := List.mem_map.mp he
    exact hown e' hmem
  have hopened : Building.Valid AnyName
      { s₁ with moduleFields := own.map fun e => (e.1.name, e.2), qualifiers := [name] } :=
    h₁.valid.extends (.refl _) h₁.valid.frames hnames rfl rfl rfl rfl
  -- the statements done so far have been built
  refine Runs.bind (runs_foldlM (I := fun parts rest s => ∃ done, done ++ rest = body ∧
    s.Valid AnyName ∧ s.receivers = [] ∧ NamesDenote s.vars AnyKind parts.frame.names ∧
      ∀ site : Site, site.Keeps parts.made s → ∀ stmt ∈ done, site.TookTop locks [] stmt) body ?step
    ⟨[], rfl, hopened, h₁.receivers, by rintro _ ⟨⟩, by rintro _ _ _ ⟨⟩⟩) ?_
  case step =>
    rintro stmt - parts rest s ⟨done, hdone, hs, hR, hframe, htook⟩
    apply (ModuleParts.took_addStatement hs hframe).mono
    rintro parts' s' ⟨hgrows, hstmt⟩
    refine ⟨done ++ [stmt], by rw [List.append_assoc, List.singleton_append, hdone],
      hgrows.state.valid, hgrows.state.receivers.trans hR, hgrows.frame, fun site hkeeps => ?_⟩
    refine List.forall_mem_append.mpr ⟨htook site (hkeeps.before (within_of_subset hgrows.made)
      hgrows.state.hoisted hgrows.state.vars), List.forall_mem_singleton.mpr ?_⟩
    exact hR ▸ hstmt site hkeeps
  rintro parts s₂ ⟨done, hdone, -, -, -, htook⟩
  rw [List.append_nil] at hdone
  subst hdone
  apply Runs.bind (runs_foldlM (I := fun parts' _ s => s = s₂ ∧ parts.made ⊆ parts'.made) _
    (fun e _ parts' rest s h => (ModuleParts.addFields_same _).mono
      fun parts'' s' h' => ⟨h'.1.trans h.1, List.Subset.trans h.2 h'.2.2⟩) ⟨rfl, fun _ ht => ht⟩)
  rintro parts' s₃ ⟨rfl, hmade⟩
  refine runs_get_bind (runs_pure ?_)
  have hchildren : ∀ (info : DeclarationInfo) (us : List Tree),
      us ⊆ parts'.members ++ (moduleMethod? name parts'.statements).toList ++ s₃.hoisted →
      Within us [.node firstPlace (.declaration info (parts'.members ++
        (moduleMethod? name parts'.statements).toList ++ s₃.hoisted) none [])] :=
    fun info us hus => within_children (by rwa [Tree.children_node, Shape.children_type])
  refine htook _ ⟨(within_of_subset hmade).trans (within_append.mpr ⟨hchildren _ _ (by simp), ?_⟩),
    hchildren _ _ (by simp), .refl _⟩
  exact (within_moduleMethod name _).trans (hchildren _ _ (by simp))

/-! ## Sources -/

/-- A part of a source. -/
inductive Part where
  /-- A function. -/
  | routine (f : Routine)
  /-- A class. -/
  | type (r : Range) (name : String) (bases : List Expr) (body : List Stmt)
  /-- A statement in a method with an object. -/
  | statement (object? : Option String) (stmt : Stmt)
  /-- An expression in a method with an object. -/
  | expression (object? : Option String) (e : Expr)

/-- **What stands right below a part**: its statements and operands, and the functions, but not the
classes. -/
inductive Part.Holds : Part → Part → Prop
  /-- A statement of a function. -/
  | routineStatement {f : Routine} {stmt : Stmt} : stmt ∈ f.body →
    Holds (.routine f) (.statement f.receiver stmt)
  /-- A statement in a block of another one. -/
  | blockStatement {o : Option String} {stmt w : Stmt} {es fs : List Event} {b : List Stmt} :
    Block o stmt es b fs → w ∈ b → Holds (.statement o stmt) (.statement o w)
  /-- A function among statements. -/
  | localFunction {o : Option String} {r : Range} {signature : Signature} {body : List Stmt} :
    Holds (.statement o (.function r signature body)) (.routine ⟨r, o, signature, body⟩)
  /-- An operand of a statement. -/
  | statementOperand {o : Option String} {stmt : Stmt} {e : Expr} : e ∈ stmt.operands →
    Holds (.statement o stmt) (.expression o e)
  /-- An operand of an expression. -/
  | operand {o : Option String} {e e' : Expr} : e' ∈ e.operands o →
    Holds (.expression o e) (.expression o e')

/-- What stands below a part at any depth, but in no class below it. -/
def Part.Encloses : Part → Part → Prop := Relation.ReflTransGen Part.Holds

/-- Whether a statement of a module is one of the module's own: all but functions, classes, imports
and assignments. -/
def Stmt.isOwn : Stmt → Bool
  | .function _ _ _ | .classType _ _ _ _ | .imports _ _ | .assign _ _ _ | .annotate _ _ _ _ => false
  | _ => true

/-- **What a module contains.** -/
inductive Contains (module : List Stmt) : Part → Prop
  /-- A function of the module. -/
  | moduleFunction {r : Range} {signature : Signature} {body : List Stmt} :
    .function r signature body ∈ module → Contains module (.routine ⟨r, none, signature, body⟩)
  /-- A class of the module. -/
  | moduleClass {r : Range} {name : String} {bases : List Expr} {body : List Stmt} :
    .classType r name bases body ∈ module → Contains module (.type r name bases body)
  /-- A statement of the module. -/
  | moduleStatement {stmt : Stmt} : stmt ∈ module → stmt.isOwn → Contains module (.statement none stmt)
  /-- A method of a class. -/
  | method {r r' : Range} {name : String} {bases : List Expr} {members body : List Stmt}
    {signature : Signature} : Contains module (.type r name bases members) →
    .function r' signature body ∈ members →
    Contains module (.routine ⟨r', signature.object?, signature, body⟩)
  /-- A class in a class. -/
  | memberClass {r r' : Range} {name name' : String} {bases bases' : List Expr}
    {members body : List Stmt} :
    Contains module (.type r name bases members) → .classType r' name' bases' body ∈ members →
    Contains module (.type r' name' bases' body)
  /-- A class among statements. -/
  | localClass {o : Option String} {r : Range} {name : String} {bases : List Expr}
    {body : List Stmt} : Contains module (.statement o (.classType r name bases body)) →
    Contains module (.type r name bases body)
  /-- What stands in a part. -/
  | inside {p q : Part} : Contains module p → p.Holds q → Contains module q

theorem Contains.functionStatement {module : List Stmt} {stmt : Stmt}
    (h : .function r signature body ∈ module) (hstmt : stmt ∈ body) :
    Contains module (.statement none stmt) :=
  .inside (.moduleFunction h) (.routineStatement hstmt)

namespace Site

variable {site : Site} {p q : Part}

/-- **The step of a part was taken** in a method with receivers. -/
def TookPart (site : Site) (locks : List String) (R : List Receiver) : Part → Prop
  | .routine f => objectOf R = f.receiver ∧ site.TookRoutine locks R f
  | .type r _ _ body => site.TookClass locks R r body
  | .statement o stmt => objectOf R = o ∧ site.Took R (stmtNodes locks stmt)
  | .expression o e => objectOf R = o ∧ site.Took R (exprNodes [e])

theorem Took.of_mem {stmt : Stmt} (h : site.Took R (stmtsNodes locks body)) (hstmt : stmt ∈ body) :
    site.Took R (stmtNodes locks stmt) := by
  obtain ⟨before, after, rfl⟩ := List.append_of_mem hstmt
  exact h.pass (passes_stmtsNodes before after)

theorem TookRoutine.took {f : Routine} (h : site.TookRoutine locks R f) :
    site.Took R (stmtsNodes locks f.body) := by
  obtain ⟨names, s₁, ts, s₂, shape, hs₁, hR, -, -, hrun, -, hchildren, hkeeps⟩ := h
  refine ⟨s₁, ts, s₂, hs₁, hR, hrun, hkeeps.before (within_node ?_) (fun _ ht => ht) (.refl _)⟩
  exact hchildren ▸ fun _ ht => ht

/-- The steps of what stands in a part were taken in the same method. -/
theorem TookPart.holds (h : site.TookPart locks R p) (hq : p.Holds q) : site.TookPart locks R q := by
  cases hq with
  | routineStatement hmem => exact ⟨h.1, h.2.took.of_mem hmem⟩
  | blockStatement hblock hmem =>
    obtain ⟨rfl, hstmt⟩ := h
    exact ⟨rfl, (hstmt.pass (passes_block hblock)).of_mem hmem⟩
  | localFunction => exact ⟨h.1, h.2.function _⟩
  | statementOperand he =>
    obtain ⟨rfl, hstmt⟩ := h
    exact ⟨rfl, hstmt.visits (visits_stmtOperands _) he⟩
  | operand he =>
    obtain ⟨rfl, hexpr⟩ := h
    exact ⟨rfl, hexpr.visits (visits_singleton _) he⟩

theorem TookPart.encloses (h : site.TookPart locks R p) (hq : p.Encloses q) :
    site.TookPart locks R q := by
  induction hq with
  | refl => exact h
  | tail _ hstep ih => exact ih.holds hstep

end Site

/-- **The steps of all that a module contains were taken**, and stand in the tree of the module. -/
theorem took_of_contains {module : List Stmt} {t : Tree} {s : Building} {p : Part}
    (hrun : (moduleNode locks name module).run .start = .ok (t, s)) (hp : Contains module p) :
    ∃ R, Site.TookPart ⟨[t], [t], s.vars⟩ locks R p := by
  have htop := took_moduleNode.of_ok hrun
  induction hp with
  | moduleFunction hmem => exact ⟨[], rfl, htop _ hmem⟩
  | moduleClass hmem => exact ⟨[], htop _ hmem⟩
  | @moduleStatement stmt hmem hown =>
    have htook := htop _ hmem
    cases stmt with
    | function | classType | imports | assign | annotate => cases hown
    | _ => exact ⟨[], rfl, htook⟩
  | method _ hmem ih =>
    obtain ⟨R, hclass⟩ := ih
    obtain ⟨c, hmember⟩ := hclass.member hmem
    exact ⟨_, rfl, hmember⟩
  | memberClass _ hmem ih =>
    obtain ⟨R, hclass⟩ := ih
    obtain ⟨c, hmember⟩ := hclass.member hmem
    exact ⟨R, hmember⟩
  | localClass _ ih =>
    obtain ⟨R, -, hstmt⟩ := ih
    exact ⟨R, hstmt.class⟩
  | inside _ hq ih =>
    obtain ⟨R, hpart⟩ := ih
    exact ⟨R, hpart.holds hq⟩

end ModelLint.Source
