import ModelLint.Proofs.Source.Statements
import ModelLint.Source.Unit

/-!
# What the unit of a source keeps

The variables of the fields of a module come up first and are owed a node until its statements have
been gone through. Behind the last statement every variable is introduced by the tree of the module
once, unless its declaration is still pending.

* `Frame.Fresh`: the variables in the frame of a module are those of no function.
* `KeepsLocals`: a method mentions no local variables of others.
* `ModuleParts.Account`: the account of a module so far.
* `addStatement_runs`, `addNested_runs`: statements and nested fields keep it.
* **`moduleNode_runs`**: the account of a module.
-/

namespace ModelLint.Source

open Build
open ModelLint.Tree (HasFunction InFunction sums)

variable {nm : String → Prop} {E : BuildFailure → Prop} {s s' b : Building} {r : Range}
  {name : String} {v : VariableId} {calm calm' : Prop} {ts us : List Tree} {locks : List String}

/-! ## The account of a module -/

/-- The state that a module starts from, in which its fields have their names already. -/
structure Opened (b : Building) (own : List (Field × VariableId)) : Prop where
  /-- Fields have different names. -/
  nodup : (own.map fun e => e.1.name).Nodup
  /-- Names mean the fields. -/
  lookup : ∀ e ∈ own, b.moduleFields.lookup e.1.name = some e.2
  /-- No frame is open. -/
  frames : b.frames = []
  /-- Nothing is to be put before a statement. -/
  pending : b.pending = []

/-- The names of a frame are those of variables that have come up in no function. -/
def Frame.Fresh (b : Building) (ts : List Tree) (s : Building) (frame : Frame) : Prop :=
  ∀ e ∈ frame.names, Denotes s.vars AnyKind e.1 e.2 ∧ Source.Fresh b ts s e.2

/-- If the tree is a method, local variables that it mentions are its own, or belong to a declaration
that has moved to the module. -/
def KeepsLocals (s : Building) (t : Tree) : Prop :=
  t.shape.IsFunction → ∀ v, IsLocal s.vars v → 0 < t.sum (Shape.mentions v) →
    0 < t.sum (Shape.introductions v) ∨ 0 < sums (Shape.introductions v) s.hoisted

section Locals

variable {frame : Frame} {owed : List VariableId} {t : Tree}

theorem Frame.Fresh.namesDenote (h : frame.Fresh b ts s) : NamesDenote s.vars AnyKind frame.names :=
  fun e he => (h e he).1

theorem Frame.Fresh.mono (h : frame.Fresh b ts s)
    (hts : ∀ v, InFunction us v → InFunction ts v) : frame.Fresh b us s := by
  intro e he
  obtain ⟨hdenotes, hnew, hnot⟩ := h e he
  refine ⟨hdenotes, hnew, fun hin => hnot ?_⟩
  rcases Tree.inFunction_append.mp hin with hin | hin
  · exact Tree.inFunction_append.mpr (.inl (hts _ hin))
  · exact Tree.inFunction_append.mpr (.inr hin)

theorem Frame.Fresh.built (h : frame.Fresh b ts s) (hb : b.hoisted <+: s.hoisted)
    (h' : Built nm calm s us owed s') : frame.Fresh b (ts ++ us) s' := fun e he =>
  let ⟨hdenotes, hfresh⟩ := h e he
  ⟨hdenotes.extends h'.vars, Scoping.fresh_trans hb h'.scoping hfresh hdenotes.lt_size⟩

/-- What is in sight in the end has come up in no function, if nothing was in sight before. -/
theorem Scoping.fresh_head (h : Scoping b ts s) (hb : b.frames = []) (hs : s.Valid nm)
    (hne : s.frames ≠ []) (frame : Frame) : (s.frames.headD frame).Fresh b ts s := by
  rcases hframes : s.frames with _ | ⟨first, outer⟩
  · exact absurd hframes hne
  · have hfirst : first ∈ s.frames := hframes ▸ List.mem_cons_self
    intro e he
    refine ⟨hs.frames first hfirst e he, (h.visible e.2 ⟨first, hfirst, e.1, he⟩).resolve_left ?_⟩
    rintro ⟨f, hf, -⟩
    rw [hb] at hf
    cases hf

theorem KeepsLocals.mono (h : KeepsLocals s t) (hx : Extends s.vars s'.vars)
    (hhoisted : s.hoisted <+: s'.hoisted) : KeepsLocals s' t := by
  intro hfunction v hlocal hv
  refine (h hfunction v (hlocal.of_extends hx) hv).imp_right fun hpos => ?_
  obtain ⟨us, hus⟩ := hhoisted
  rw [← hus, Tree.sums_append]
  exact Nat.lt_add_right _ hpos

/-- What is built where nothing is in sight keeps to its own local variables. -/
theorem Built.keepsLocals (h : Built nm True s [t] [] s') (hs : s.frames = []) :
    KeepsLocals s' t := by
  intro _ v hlocal hv
  rcases h.scoping.mentioned v hlocal (by simpa using hv) with ⟨f, hf, -⟩ | ⟨hnew, hlt⟩
  · rw [hs] at hf
    cases hf
  · have hbalance := h.balance v
    have hhoisted := h.scoping.sums_hoisted (Shape.introductions v)
    simp only [Building.aside, Building.born, born_of_le hnew, born_of_lt hlt, h.quiet trivial,
      Tree.sums_cons, Tree.sums_nil, List.count_nil] at hbalance
    omega

theorem inFunction_fieldNode {l : Location} {q : String} {m : List String}
    {initializer : Option Tree} (h : InFunction [fieldNode l q m name v initializer] w) :
    InFunction initializer.toList w := by
  rcases Tree.inFunction_node h with ⟨hfunction, -⟩ | h
  · cases hfunction
  · simpa [Shape.children, Shape.slots] using h

end Locals

/-- **The account of a module** so far, with some more trees. -/
structure ModuleParts.Account (nm : String → Prop) (calm : Prop) (b : Building)
    (own : List (Field × VariableId)) (parts : ModuleParts) (us : List Tree) (s : Building) :
    Prop where
  /-- Members and statements are built; fields without a node are owed one. -/
  built : Built nm calm b (parts.members ++ parts.statements ++ us) (unplaced own parts.emitted) s
  /-- Fields are fields. -/
  own : ∀ e ∈ own, Denotes s.vars (· = .field) e.1.name e.2
  /-- Members are declarations. -/
  members : ∀ t ∈ parts.members, t.shape.isOutermost
  /-- Variables in the frame of the module are those of no function. -/
  frame : parts.frame.Fresh b (parts.members ++ parts.statements ++ us) s
  /-- Methods mention no local variables of others. -/
  methods : ∀ t ∈ parts.members, KeepsLocals s t

namespace ModuleParts

variable {parts : ModuleParts} {own : List (Field × VariableId)}

theorem Account.inFrame {owed : List VariableId} (h : parts.Account nm calm b own [] s)
    (h' : Built nm calm' { s with frames := parts.frame :: s.frames } us owed s') :
    Scoping b (parts.members ++ parts.statements ++ us) s' ∧
      Built nm (calm ∧ calm') b (parts.members ++ parts.statements ++ us)
        (unplaced own parts.emitted ++ owed) { s' with frames := s'.frames.drop 1 } := by
  have hbuilt := h.built.inFrame (fun e he => ⟨(h.frame e he).2, (h.frame e he).1.lt_size⟩) h'
  rwa [List.append_nil] at hbuilt

/-- Statements built in the frame of the module become statements of the module. -/
theorem inFrame_runs {x : Build (List Tree)} (hb : Opened b own)
    (h : parts.Account nm calm b own [] s)
    (hx : ∀ s', s'.Valid nm → s'.frames ≠ [] →
      Runs x s' E fun ts s'' => Built nm True s' ts [] s'') :
    Runs (parts.inFrame x) s E fun parts' s' => parts'.Account nm calm b own [] s' ∧
      parts'.emitted = parts.emitted := by
  have hopen := hx _ (h.built.valid.openFrame h.frame.namesDenote) (List.cons_ne_nil _ _)
  refine runs_modify_bind (hopen.bind fun ts s₁ h₁ => runs_get_bind (runs_set_bind (runs_pure ?_)))
  obtain ⟨hscoping, hbuilt⟩ := h.inFrame h₁
  have hne : s₁.frames ≠ [] := fun hnil => List.cons_ne_nil _ _ (h₁.frames_eq_nil.mp hnil)
  have hframe : (s₁.frames.headD parts.frame).Fresh b
      (parts.members ++ (parts.statements ++ ts) ++ []) s₁ := by
    simpa using hscoping.fresh_head hb.frames h₁.valid hne parts.frame
  exact ⟨⟨hbuilt.perm (fun hc => ⟨hc, trivial⟩) (by simp) (by simp),
    fun e he => (h.own e he).extends h₁.vars, h.members, hframe,
    fun t ht => (h.methods t ht).mono h₁.vars h₁.scoping.hoisted⟩, rfl⟩

section Fields

variable {modifiers : List String} {initializer : Option Tree} (hb : Opened b own)

include hb

/-- A field without a node gets it, at the name of the field. -/
theorem placeField_runs (h : parts.Account nm calm b own (us ++ initializer.toList) s)
    (hname : name ∈ own.map fun e => e.1.name) (hnew : parts.emitted.contains name = false) :
    ∃ v, s.moduleFields.lookup name = some v ∧
      Runs (fieldAt r modifiers name v initializer) s E fun t s' => s' = s ∧
        { parts with
          members := parts.members ++ [t]
          emitted := name :: parts.emitted }.Account nm calm b own us s' ∧
        ∀ w, InFunction (parts.members ++ [t] ++ parts.statements ++ us) w →
          InFunction (parts.members ++ parts.statements ++ (us ++ initializer.toList)) w := by
  obtain ⟨e, he, rfl⟩ := List.mem_map.mp hname
  have hsome : (own.find? fun g => g.1.name = e.1.name).isSome :=
    List.find?_isSome.mpr ⟨e, he, by simp⟩
  obtain ⟨⟨f, v⟩, hfind⟩ := Option.isSome_iff_exists.mp hsome
  have hf : (f, v) ∈ own := List.mem_of_find?_eq_some hfind
  have hfname : f.name = e.1.name := by simpa using List.find?_some hfind
  refine ⟨v, h.built.fields _ _ (hfname ▸ hb.lookup _ hf), ?_⟩
  have hbuilt := h.built
  rw [← List.append_assoc] at hbuilt
  refine (fieldAt_runs hbuilt (unplaced_perm_emit hb.nodup hnew hfind)
    (hfname ▸ h.own _ hf)).mono fun t s' ⟨hs', ⟨l, q, m, ht⟩, h'⟩ => ⟨hs', ?_⟩
  subst s'
  have hperm : (parts.members ++ parts.statements ++ us ++ [t]).Perm
      (parts.members ++ [t] ++ parts.statements ++ us) := by
    simpa using (@List.perm_append_comm _ (parts.statements ++ us) [t]).append_left parts.members
  have hfunction : ∀ w, InFunction (parts.members ++ [t] ++ parts.statements ++ us) w →
      InFunction (parts.members ++ parts.statements ++ (us ++ initializer.toList)) w := by
    intro w hw
    simp only [Tree.inFunction_append] at hw ⊢
    rcases hw with ((hw | hw) | hw) | hw
    · exact .inl (.inl hw)
    · exact .inr (.inr (inFunction_fieldNode (ht ▸ hw)))
    · exact .inl (.inr hw)
    · exact .inr (.inl hw)
  refine ⟨⟨h'.perm (fun hc => hc) hperm (.refl _), h.own, ?_, h.frame.mono hfunction, ?_⟩, hfunction⟩
  · exact List.forall_mem_append.mpr ⟨h.members, by simp [ht, fieldNode, Tree.shape, Shape.isOutermost]⟩
  · refine List.forall_mem_append.mpr ⟨h.methods, ?_⟩
    simp [ht, KeepsLocals, fieldNode, Tree.shape, Shape.IsFunction]

theorem addFields_runs : (names : List String) → {parts : ModuleParts} →
    parts.Account nm calm b own us s → (∀ n ∈ names, n ∈ own.map fun e => e.1.name) →
    Runs (parts.addFields r modifiers none names) s E fun parts' s' =>
      parts'.Account nm calm b own us s' ∧ parts.emitted ⊆ parts'.emitted ∧
        names ⊆ parts'.emitted
  | [], parts, h, _ => runs_pure ⟨h, fun _ hn => hn, List.nil_subset _⟩
  | name :: rest, parts, h, hnames => by
    have hrest := fun n hn => hnames n (List.mem_cons_of_mem name hn)
    rw [addFields]
    refine runs_get_bind ?_
    by_cases hnew : parts.emitted.contains name = false
    · have hnone : parts.Account nm calm b own (us ++ (none : Option Tree).toList) s := by
        simpa using h
      obtain ⟨v, hlookup, hfield⟩ := placeField_runs (r := r) (E := E) hb hnone
        (hnames name List.mem_cons_self) hnew
      rw [hnew, hlookup]
      refine hfield.bind fun t s₁ ⟨hs₁, h₁, _⟩ => ?_
      subst s₁
      refine (addFields_runs rest h₁ hrest).mono fun parts' s' ⟨h', hemitted, hadded⟩ => ?_
      refine ⟨h', fun n hn => hemitted (List.mem_cons_of_mem _ hn), fun n hn => ?_⟩
      rcases List.mem_cons.mp hn with rfl | hn
      · exact hemitted List.mem_cons_self
      · exact hadded hn
    · rw [Bool.not_eq_false] at hnew
      rw [hnew]
      refine (addFields_runs rest h hrest).mono fun parts' s' ⟨h', hemitted, hadded⟩ => ?_
      refine ⟨h', hemitted, fun n hn => ?_⟩
      rcases List.mem_cons.mp hn with rfl | hn
      · exact hemitted (List.contains_iff_mem.mp hnew)
      · exact hadded hn

theorem addField_runs (h : parts.Account nm calm b own (us ++ initializer.toList) s)
    (hname : name ∈ own.map fun e => e.1.name) (hnew : parts.emitted.contains name = false) :
    Runs (parts.addFields r modifiers initializer [name]) s E fun parts' s' =>
      parts'.Account nm calm b own us s' ∧ s' = s ∧ parts'.emitted = name :: parts.emitted ∧
        ∀ w, InFunction (parts'.members ++ parts'.statements ++ us) w →
          InFunction (parts.members ++ parts.statements ++ (us ++ initializer.toList)) w := by
  obtain ⟨v, hlookup, hfield⟩ := placeField_runs (r := r) (E := E) hb h hname hnew
  rw [addFields]
  refine runs_get_bind ?_
  rw [hnew, hlookup]
  exact hfield.bind fun t s₁ ⟨hs₁, h₁, hfunction⟩ => runs_pure ⟨h₁, hs₁, rfl, hfunction⟩

end Fields

theorem addAssignment_runs {stmt : Stmt} {targets : List Expr} {value : Option Expr}
    (hb : Opened b own) (h : parts.Account nm calm b own [] s)
    (hnames : ∀ n ∈ value.toList.flatMap Expr.mentioned, nm n)
    (hfields : ∀ n ∈ Expr.boundNamesOf targets, n ∈ own.map fun e => e.1.name)
    (hstmt : ∀ s', s'.Valid nm → s'.frames ≠ [] →
      Runs (stmtNodes locks stmt) s' E fun ts s'' => Built nm True s' ts [] s'') :
    Runs (parts.addAssignment locks stmt targets value) s E fun parts' s' =>
      parts'.Account nm calm b own [] s' ∧ parts.emitted ⊆ parts'.emitted ∧
        Expr.boundNamesOf targets ⊆ parts'.emitted := by
  rw [addAssignment.eq_def]
  split
  · next _ id =>
    split
    · next hemitted =>
      refine (inFrame_runs hb h hstmt).mono fun parts' s' ⟨h', heq⟩ =>
        ⟨h', heq ▸ fun _ hn => hn, ?_⟩
      intro n hn
      obtain rfl := List.mem_singleton.mp hn
      exact heq ▸ List.contains_iff_mem.mp hemitted
    · next hnew =>
      have hid : id ∈ own.map fun e => e.1.name := hfields id (List.mem_singleton.mpr rfl)
      have hopen := h.built.valid.openFrame h.frame.namesDenote
      -- All that is pending once the initializer is built becomes a statement.
      have hplaced : ∀ initializer s₁,
          Built nm False { s with frames := parts.frame :: s.frames } initializer.toList [] s₁ →
          Runs (do
            let state ← get
            set { state with frames := state.frames.drop 1, pending := [] }
            let parts ← parts.addFields stmt.range [] initializer [id]
            return { parts with
              statements := parts.statements ++ state.pending
              frame := state.frames.headD parts.frame }) s₁ E fun parts' s' =>
            parts'.Account nm calm b own [] s' ∧ parts.emitted ⊆ parts'.emitted ∧
              [id] ⊆ parts'.emitted := by
        intro initializer s₁ h₁
        refine runs_get_bind (runs_set_bind ?_)
        obtain ⟨hscoping, hclosed⟩ := h.inFrame h₁
        have hflushed := hclosed.flush hb.pending
        have hbare := hclosed.scoping.bare_of_pending hb.pending
        have hperm : (parts.members ++ parts.statements ++ initializer.toList ++ s₁.pending).Perm
            (parts.members ++ parts.statements ++ (s₁.pending ++ initializer.toList)) := by
          simpa using ((@List.perm_append_comm _ initializer.toList s₁.pending).append_left
            parts.statements).append_left parts.members
        -- Pending declarations have no initializer, so they hold no function.
        have hfunction : ∀ w, InFunction (parts.members ++ parts.statements ++
            (s₁.pending ++ initializer.toList)) w →
            InFunction (parts.members ++ parts.statements ++ initializer.toList) w := by
          rintro w ⟨f, hf, hw⟩
          simp only [Tree.hasFunction_append] at hf
          refine ⟨f, ?_, hw⟩
          simp only [Tree.hasFunction_append]
          rcases hf with hf | hf | hf
          · exact .inl hf
          · exact absurd hf (not_hasFunction_of_bare hbare)
          · exact .inr hf
        have hold : parts.frame.Fresh b (parts.members ++ parts.statements ++ initializer.toList)
            s₁ := by
          have hframe := Frame.Fresh.built (s := { s with frames := parts.frame :: s.frames })
            h.frame h.built.scoping.hoisted h₁
          rwa [List.append_nil] at hframe
        have haccount : parts.Account nm calm b own (s₁.pending ++ initializer.toList)
            { s₁ with frames := s₁.frames.drop 1, pending := [] } :=
          ⟨hflushed.perm (fun _ => trivial) hperm (by simp), fun e he => (h.own e he).extends h₁.vars,
            h.members, Frame.Fresh.mono (s := { s₁ with frames := s₁.frames.drop 1, pending := [] })
              hold hfunction,
            fun t ht => (h.methods t ht).mono h₁.vars h₁.scoping.hoisted⟩
        have hne : s₁.frames ≠ [] := fun hnil => List.cons_ne_nil _ _ (h₁.frames_eq_nil.mp hnil)
        have hframe := hscoping.fresh_head hb.frames h₁.valid hne
        refine (addField_runs hb haccount hid (by simpa using hnew)).bind
          fun parts₂ s₂ ⟨h₂, hs₂, hemitted, hplaced⟩ => runs_pure ⟨?_, ?_, ?_⟩
        · subst s₂
          exact ⟨by simpa using h₂.built, h₂.own, h₂.members,
            Frame.Fresh.mono (s := { s₁ with frames := s₁.frames.drop 1, pending := [] }) (hframe _)
              fun w hw => hfunction w (hplaced w (by simpa using hw)), h₂.methods⟩
        · exact hemitted ▸ fun n hn => List.mem_cons_of_mem _ hn
        · exact hemitted ▸ fun n hn => List.mem_cons.mpr (.inl (List.mem_singleton.mp hn))
      refine runs_modify_bind ?_
      rcases value with _ | value
      · exact hplaced none _ ((Built.refl hopen).weaken False.elim)
      · have hinside : Inside nm { s with frames := parts.frame :: s.frames } value.mentioned :=
          ⟨hopen, List.cons_ne_nil _ _, by simpa using hnames⟩
        exact (exprNode_runs_of_inside hinside).map.bind hplaced
  · refine (addFields_runs hb _ h hfields).bind fun parts₁ s₁ ⟨h₁, hemitted, hadded⟩ => ?_
    refine (inFrame_runs hb h₁ hstmt).mono fun parts' s' ⟨h', heq⟩ => ?_
    exact ⟨h', heq ▸ hemitted, heq ▸ hadded⟩

end ModuleParts

/-! ## Bindings of a module -/

mutual

theorem isNested_of_moduleBindings {d : Binding} : (stmt : Stmt) →
    d ∈ moduleBindings true stmt → d.isNested = true
  | .imports range names, h => by
    obtain ⟨n, -, rfl⟩ := List.mem_map.mp h
    rfl
  | .assign range targets value, h => by
    obtain ⟨d', -, rfl⟩ := List.mem_map.mp h
    rfl
  | .annotate range target typeHint value, h => by
    obtain ⟨d', -, rfl⟩ := List.mem_map.mp h
    rfl
  | .forEach _ _ _ _ body orElse, h | .whileLoop _ _ body orElse, h | .choose _ _ body orElse, h => by
    rw [moduleBindings, List.mem_append] at h
    exact h.elim (isNested_of_moduleBindingsOf body) (isNested_of_moduleBindingsOf orElse)
  | .withResources _ _ body, h => isNested_of_moduleBindingsOf body h
  | .matchCases _ _ cases, h => isNested_of_moduleBindingsOfCases cases h
  | .guarded _ body handlers orElse finalBody, h => by
    simp only [moduleBindings, List.mem_append] at h
    rcases h with ((h | h) | h) | h
    · exact isNested_of_moduleBindingsOf body h
    · exact isNested_of_moduleBindingsOf orElse h
    · exact isNested_of_moduleBindingsOf finalBody h
    · exact isNested_of_moduleBindingsOfHandlers handlers h
  | .function _ _ _, h | .classType _ _ _ _, h | .returnValue _ _, h | .augment _ _ _ _, h
  | .throwError _ _ _, h | .globals _ _, h | .nonlocals _ _, h | .expr _ _, h
  | .simple _ _ _, h => nomatch h

theorem isNested_of_moduleBindingsOf {d : Binding} : (body : List Stmt) →
    d ∈ moduleBindingsOf true body → d.isNested = true
  | [], h => nomatch h
  | stmt :: rest, h => by
    rw [moduleBindingsOf, List.mem_append] at h
    exact h.elim (isNested_of_moduleBindings stmt) (isNested_of_moduleBindingsOf rest)

theorem isNested_of_moduleBindingsOfCases {d : Binding} : (cases : List (List Stmt)) →
    d ∈ moduleBindingsOfCases cases → d.isNested = true
  | [], h => nomatch h
  | body :: rest, h => by
    rw [moduleBindingsOfCases, List.mem_append] at h
    exact h.elim (isNested_of_moduleBindingsOf body) (isNested_of_moduleBindingsOfCases rest)

theorem isNested_of_moduleBindingsOfHandlers {d : Binding} : (handlers : List Handler) →
    d ∈ moduleBindingsOfHandlers handlers → d.isNested = true
  | [], h => nomatch h
  | .mk _ _ _ body :: rest, h => by
    rw [moduleBindingsOfHandlers, List.mem_append] at h
    exact h.elim (isNested_of_moduleBindingsOf body) (isNested_of_moduleBindingsOfHandlers rest)

end

/-! ## Statements of a module -/

namespace ModuleParts

variable {parts : ModuleParts} {own : List (Field × VariableId)} {stmt : Stmt}

theorem Account.addMember {t : Tree} (h : parts.Account nm calm b own [] s)
    (h' : Built nm calm s [t] [] s') (ht : t.shape.isOutermost) (hmethod : KeepsLocals s' t) :
    { parts with members := parts.members ++ [t] }.Account nm calm b own [] s' := by
  have hperm : (parts.members ++ parts.statements ++ [] ++ [t]).Perm
      (parts.members ++ [t] ++ parts.statements ++ []) := by
    simpa using (@List.perm_append_comm _ parts.statements [t]).append_left parts.members
  exact ⟨(h.built.trans h').perm (fun hc => ⟨hc, hc⟩) hperm (by simp),
    fun e he => (h.own e he).extends h'.vars,
    List.forall_mem_append.mpr ⟨h.members, by simpa using ht⟩,
    (h.frame.built h.built.scoping.hoisted h').mono fun v hv => hv.mono hperm.symm.subset,
    List.forall_mem_append.mpr ⟨fun u hu => (h.methods u hu).mono h'.vars h'.scoping.hoisted,
      by simpa using hmethod⟩⟩

theorem name_mem_assigned {targets : List Expr} {value : Expr} {n : String} :
    n ∈ Expr.boundNamesOf targets ↔
      ∃ d ∈ moduleBindings false (.assign r targets value), d.name = n := by
  simp [moduleBindings, assignedBindings]

theorem name_mem_annotated {target typeHint : Expr} {value : Option Expr} {n : String} :
    n ∈ target.boundNames ↔
      ∃ d ∈ moduleBindings false (.annotate r target typeHint value), d.name = n := by
  simp [moduleBindings, annotatedBindings]

/-- What a statement of a module keeps, and which fields have a node behind it. -/
theorem addStatement_runs (hb : Opened b own) (h : parts.Account nm calm b own [] s)
    (hnames : ∀ n ∈ stmt.mentioned, nm n)
    (hfields : ∀ d ∈ moduleBindings false stmt, d.name ∈ own.map fun e => e.1.name)
    (hframe : stmt.initializers.flatMap Expr.walruses ≠ [] → E .noFrame)
    (hcalm : calm → stmt.initializers.flatMap Expr.walruses = [])
    (hE : stmt.isWritten = false → E .unwritable) :
    Runs (parts.addStatement locks stmt) s E fun parts' s' =>
      parts'.Account nm calm b own [] s' ∧ parts.emitted ⊆ parts'.emitted ∧
        ∀ d ∈ moduleBindings false stmt, d.isNested = false → d.name ∈ parts'.emitted := by
  have hstmt : ∀ s', s'.Valid nm → s'.frames ≠ [] →
      Runs (stmtNodes locks stmt) s' E fun ts s'' => Built nm True s' ts [] s'' :=
    fun s' hs' hne => stmtNodes_runs stmt ⟨hs', hne, hnames⟩ hE
  have hinFrame : moduleBindings false stmt = moduleBindings true stmt →
      Runs (parts.inFrame (stmtNodes locks stmt)) s E fun parts' s' =>
        parts'.Account nm calm b own [] s' ∧ parts.emitted ⊆ parts'.emitted ∧
          ∀ d ∈ moduleBindings false stmt, d.isNested = false → d.name ∈ parts'.emitted :=
    fun hnested => (inFrame_runs hb h hstmt).mono fun parts' s' h' =>
      ⟨h'.1, h'.2 ▸ fun _ hn => hn, fun d hd hd' => by
        rw [isNested_of_moduleBindings stmt (hnested ▸ hd)] at hd'
        cases hd'⟩
  cases stmt with
  | function r signature body =>
    apply (methodNode_runs h.built.valid (hnames _ List.mem_cons_self) (fun _ hf => by cases hf)
      fun s' hs' hne => stmtsNodes_runs body ⟨hs', hne, fun n hn =>
        hnames n (List.mem_cons_of_mem _ hn)⟩ hE).bind
    rintro t s₁ ⟨ht, h₁⟩
    refine runs_pure ⟨?_, ?_, ?_⟩
    · exact h.addMember (h₁.weaken fun _ => trivial) ht
        (h₁.keepsLocals (h.built.frames_eq_nil.mpr hb.frames))
    · exact fun _ hn => hn
    · exact fun d hd => by cases hd
  | classType r name bases body =>
    refine runs_class_bind h.built.valid (fun c s₁ h₁ hc hown => memberNodes_runs body
      (h₁.weaken fun (_ : calm) => trivial) hc hnames hown (fun hw _ => hframe hw) hcalm hE)
      fun t s₁ ht hfunction h₁ => runs_pure
        ⟨h.addMember h₁ ht fun h => absurd h hfunction, fun _ hn => hn, ?_⟩
    exact fun d hd => by cases hd
  | imports r names =>
    refine (addFields_runs hb names h fun n hn => ?_).mono
      fun parts' s' h' => ⟨h'.1, h'.2.1, fun d hd _ => h'.2.2 ?_⟩
    · exact hfields _ (List.mem_map.mpr ⟨n, hn, rfl⟩)
    · obtain ⟨n, hn, rfl⟩ := List.mem_map.mp hd
      exact hn
  | assign r targets value =>
    refine (addAssignment_runs hb h (fun n hn => hnames n ?_) (fun n hn => ?_) hstmt).mono
      fun parts' s' h' => ⟨h'.1, h'.2.1, fun d hd _ => h'.2.2 ?_⟩
    · exact List.mem_append_left _ (by simpa using hn)
    · obtain ⟨d, hd, rfl⟩ := name_mem_assigned.mp hn
      exact hfields d hd
    · exact name_mem_assigned.mpr ⟨d, hd, rfl⟩
  | annotate r target typeHint value =>
    refine (addAssignment_runs hb h (fun n hn => hnames n ?_) (fun n hn => ?_) hstmt).mono
      fun parts' s' h' => ⟨h'.1, h'.2.1, fun d hd _ => h'.2.2 ?_⟩
    · exact List.mem_append_right _ hn
    · rw [Expr.boundNamesOf, Expr.boundNamesOf, List.append_nil] at hn
      obtain ⟨d, hd, rfl⟩ := name_mem_annotated.mp hn
      exact hfields d hd
    · rw [Expr.boundNamesOf, Expr.boundNamesOf, List.append_nil]
      exact name_mem_annotated.mpr ⟨d, hd, rfl⟩
  | _ => exact hinFrame rfl

end ModuleParts

/-! ## Modules -/

/-- **A module is built**: its tree is sound, and every variable is introduced once, by the tree or by
a declaration that is still pending. -/
structure ModuleBuilt (nm : String → Prop) (calm : Prop) (t : Tree) (s : Building) : Prop where
  /-- The state is valid. -/
  valid : s.Valid nm
  /-- The tree is sound. -/
  sound : t.All (Sound s.vars nm)
  /-- The root is a declaration. -/
  outermost : t.shape.isOutermost
  /-- The root is no method. -/
  notFunction : ¬ t.shape.IsFunction
  /-- It holds declarations. -/
  members : ∀ c ∈ t.children, c.shape.isOutermost
  /-- Every variable is introduced once. -/
  balance : ∀ v, t.sum (Shape.introductions v) + sums (Shape.introductions v) s.pending =
    s.born v
  /-- A variable whose declaration is pending is mentioned. -/
  waiting : ∀ v, sums (Shape.introductions v) s.pending ≤ t.sum (Shape.mentions v)
  /-- Nothing is pending if all was calm. -/
  quiet : calm → s.pending = []
  /-- A local variable of a function is mentioned in no other part of the function's member. -/
  confined : ∀ c ∈ t.children, ∀ f, HasFunction [c] f → ∀ v, IsLocal s.vars v →
    0 < f.sum (Shape.introductions v) → c.sum (Shape.mentions v) = f.sum (Shape.mentions v)
  /-- Local variables of functions that a method mentions are its own. -/
  methods : ∀ c ∈ t.children, c.shape.IsFunction → ∀ v, IsLocal s.vars v →
    0 < c.sum (Shape.mentions v) → InFunction t.children v → 0 < c.sum (Shape.introductions v)

theorem balanced_moduleMethod (moduleName : String) {statements : List Tree}
    {owed : List VariableId} (h : Balanced nm calm s (ts ++ statements) owed s') :
    Balanced nm calm s (ts ++ (moduleMethod? moduleName statements).toList) owed s' := by
  rcases statements with _ | ⟨first, rest⟩
  · exact h
  · refine Balanced.perm ?_ (fun hc => hc) (List.perm_append_singleton _ ts).symm (.refl _)
    refine h.node (fun hc => hc) ?_ (.refl _)
      ⟨(fun v hv => nomatch hv), rfl, rfl, rfl, .inr ⟨rfl, rfl⟩⟩
    simpa [Shape.children, Shape.slots] using
      @List.perm_append_comm _ ts (first :: rest)

theorem exists_of_mem_moduleMethod {moduleName : String} {statements : List Tree} {c : Tree}
    (hc : c ∈ (moduleMethod? moduleName statements).toList) :
    ∃ l info, c = .node l (.declaration info [] none statements) ∧ info.kind = .method ∧
      ∀ v, c.sum (Shape.mentions v) = sums (Shape.mentions v) statements := by
  rcases statements with _ | ⟨first, rest⟩
  · cases hc
  · obtain rfl := List.mem_singleton.mp hc
    refine ⟨_, _, rfl, rfl, fun v => ?_⟩
    rw [Tree.sum_eq]
    simp [Tree.shape, Tree.children_node, Shape.children, Shape.slots, Shape.mentions,
      Shape.mention?]

theorem isOutermost_moduleMethod {moduleName : String} {statements : List Tree} :
    ∀ t ∈ (moduleMethod? moduleName statements).toList, t.shape.isOutermost := by
  rcases statements with _ | ⟨first, rest⟩
  · exact fun t ht => nomatch ht
  · intro t ht
    obtain rfl := List.mem_singleton.mp ht
    rfl

section Modules

variable {moduleName : String} {body : List Stmt} {own : List (Field × VariableId)}

theorem opened_module (calm : Prop) (moduleName : String)
    (h : Built nm True .start [] (own.map (·.2)) s)
    (hown : ∀ e ∈ own, Denotes s.vars (· = .field) e.1.name e.2)
    (hnodup : (own.map fun e => e.1.name).Nodup) :
    ∃ b, Opened b own ∧ b.hoisted = [] ∧ b.vars = #[] ∧
      ModuleParts.Account nm calm b own ⟨[], [], [], ⟨[], [], [], true⟩⟩ []
        { s with moduleFields := own.map fun (f, v) => (f.name, v), qualifiers := [moduleName] } := by
  have hnames : NamesDenote s.vars (· = .field) (own.map fun (f, v) => (f.name, v)) := by
    intro e he
    obtain ⟨⟨f, v⟩, hmem, rfl⟩ := List.mem_map.mp he
    exact hown (f, v) hmem
  refine ⟨{ Building.start with
    moduleFields := own.map fun (f, v) => (f.name, v)
    qualifiers := [moduleName] }, ⟨hnodup, fun e he => ?_, rfl, rfl⟩, rfl, rfl, ?_, hown,
      (fun t ht => nomatch ht), (fun e he => nomatch he), fun t ht => nomatch ht⟩
  · exact lookup_own hnodup he
  · rw [unplaced_nil]
    exact
    { h.weaken (fun _ => trivial) with
      qualifiers := rfl
      fields := fun _ _ hv => hv
      valid := h.valid.extends (.refl _) h.valid.frames hnames rfl rfl rfl rfl
      scoping := { h.scoping with } }

/-- Behind all statements of a module, fields that are bound outside of blocks have a node. -/
theorem addStatements_runs {parts : ModuleParts} (hb : Opened b own)
    (h : parts.Account nm calm b own [] s) (hnames : ∀ stmt ∈ body, ∀ n ∈ stmt.mentioned, nm n)
    (hfields : ∀ d ∈ moduleBindingsOf false body, d.name ∈ own.map fun e => e.1.name)
    (hframe : ∀ stmt ∈ body, stmt.initializers.flatMap Expr.walruses ≠ [] → E .noFrame)
    (hcalm : calm → ∀ stmt ∈ body, stmt.initializers.flatMap Expr.walruses = [])
    (hE : ∀ stmt ∈ body, stmt.isWritten = false → E .unwritable) :
    Runs (body.foldlM (fun parts stmt => parts.addStatement locks stmt) parts) s E fun parts' s' =>
      parts'.Account nm calm b own [] s' ∧
        ∀ d ∈ moduleBindingsOf false body, d.isNested = false → d.name ∈ parts'.emitted := by
  have hbindings : ∀ d, d ∈ moduleBindingsOf false body ↔
      ∃ stmt ∈ body, d ∈ moduleBindings false stmt := fun d => by
    clear * -
    induction body with
    | nil => simp [moduleBindingsOf]
    | cons stmt rest ih => simp [moduleBindingsOf, ih]
  have hI : parts.Account nm calm b own [] s ∧ ∀ stmt ∈ body, ∀ d ∈ moduleBindings false stmt,
      d.isNested = false → d.name ∈ parts.emitted ∨ stmt ∈ body :=
    ⟨h, fun stmt hstmt d _ _ => .inr hstmt⟩
  refine Runs.mono (runs_foldlM (I := fun parts rest s => parts.Account nm calm b own [] s ∧
    ∀ stmt ∈ body, ∀ d ∈ moduleBindings false stmt, d.isNested = false →
      d.name ∈ parts.emitted ∨ stmt ∈ rest) body ?step hI) ?last
  case step =>
    rintro stmt hstmt parts rest s ⟨h, hI⟩
    refine (ModuleParts.addStatement_runs hb h (hnames stmt hstmt) (fun d hd => ?_)
      (hframe stmt hstmt) (fun hc => hcalm hc stmt hstmt) (hE stmt hstmt)).mono
      fun parts' s' ⟨h', hemitted, hadded⟩ => ⟨h', fun stmt' hstmt' d hd hnested => ?_⟩
    · exact hfields d ((hbindings d).mpr ⟨stmt, hstmt, hd⟩)
    · rcases hI stmt' hstmt' d hd hnested with hmem | hmem
      · exact .inl (hemitted hmem)
      · rcases List.mem_cons.mp hmem with rfl | hmem
        · exact .inl (hadded d hd hnested)
        · exact .inr hmem
  case last =>
    rintro parts' s' ⟨h', hI'⟩
    refine ⟨h', fun d hd hnested => ?_⟩
    obtain ⟨stmt, hstmt, hd⟩ := (hbindings d).mp hd
    exact (hI' stmt hstmt d hd hnested).resolve_right fun hmem => nomatch hmem

/-- Fields that are bound in blocks only get their nodes last. -/
theorem addNested_runs {parts : ModuleParts} (hb : Opened b own)
    (h : parts.Account nm calm b own [] s)
    (hemitted : ∀ e ∈ own, e.1.isNested = false → e.1.name ∈ parts.emitted) :
    Runs ((own.filter fun (f, _) => f.isNested).foldlM (fun parts (f, _) =>
      parts.addFields f.range (if f.isImport then ["import"] else []) none [f.name]) parts) s E
      fun parts' s' =>
        parts'.Account nm calm b own [] s' ∧ unplaced own parts'.emitted = [] := by
  have hI : parts.Account nm calm b own [] s ∧ ∀ e ∈ own, e.1.name ∈ parts.emitted ∨
      e ∈ own.filter fun (f, _) => f.isNested := by
    refine ⟨h, fun e he => ?_⟩
    by_cases hnested : e.1.isNested = true
    · exact .inr (List.mem_filter.mpr ⟨he, hnested⟩)
    · exact .inl (hemitted e he (by simpa using hnested))
  refine Runs.mono (runs_foldlM (I := fun parts rest s => parts.Account nm calm b own [] s ∧
    ∀ e ∈ own, e.1.name ∈ parts.emitted ∨ e ∈ rest) _ ?step hI) ?last
  case step =>
    rintro e he parts rest s ⟨h, hI⟩
    refine (ModuleParts.addFields_runs hb [e.1.name] h fun n hn => ?_).mono
      fun parts' s' h' => ⟨h'.1, fun e' he' => ?_⟩
    · exact List.mem_map.mpr ⟨e, List.mem_of_mem_filter he, (List.mem_singleton.mp hn).symm⟩
    · rcases hI e' he' with hmem | hmem
      · exact .inl (h'.2.1 hmem)
      · rcases List.mem_cons.mp hmem with rfl | hmem
        · exact .inl (h'.2.2 (List.mem_singleton.mpr rfl))
        · exact .inr hmem
  case last =>
    rintro parts' s' ⟨h', hI'⟩
    refine ⟨h', ?_⟩
    rw [unplaced, List.map_eq_nil_iff, List.filter_eq_nil_iff]
    intro e he
    have hmem := (hI' e he).resolve_right List.not_mem_nil
    simpa using hmem

/-- What a function of a module holds is a function of a member, of the statements or of a declaration
that has moved. -/
theorem ModuleParts.Account.confined {parts : ModuleParts}
    (h : parts.Account nm calm b own [] s) (hhoisted : b.hoisted = []) :
    ∀ c ∈ parts.members ++ (moduleMethod? moduleName parts.statements).toList ++ s.hoisted, ∀ f,
      HasFunction [c] f → ∀ v, IsLocal s.vars v → 0 < f.sum (Shape.introductions v) →
        c.sum (Shape.mentions v) = f.sum (Shape.mentions v) := by
  intro c hc f hf v hlocal hv
  have hle : f.sum (Shape.mentions v) ≤ c.sum (Shape.mentions v) := by
    simpa using hf.sum_le (g := Shape.mentions v)
  have hscoping := h.built.scoping
  rw [List.append_nil] at hscoping
  rcases List.mem_append.mp hc with hc | hc
  rcases List.mem_append.mp hc with hc | hc
  · have hmem : c ∈ parts.members ++ parts.statements := List.mem_append_left _ hc
    have hall := (hscoping.confined f (hf.mono (by simpa using hmem)) v hv).2 hlocal
    have := Tree.le_sums (f := Shape.mentions v) hmem
    omega
  · obtain ⟨l, info, rfl, hkind, hsum⟩ := exists_of_mem_moduleMethod hc
    rcases Tree.hasFunction_node.mp hf with ⟨rfl, -⟩ | hf
    · rfl
    · have hall := (hscoping.confined f (hf.mono (by simp [Shape.children, Shape.slots])) v hv).2 hlocal
      rw [Tree.sums_append] at hall
      have := hsum v
      omega
  · have hmoved : c ∈ b.moved s := by simpa [Building.moved, hhoisted] using hc
    exact ((hscoping.apart c hmoved f hf v hv).2 hlocal).1

/-- A method mentions no local variable of a function but those of its own. -/
theorem ModuleParts.Account.mentions_own {parts : ModuleParts}
    (h : parts.Account nm calm b own [] s) (hhoisted : b.hoisted = [])
    (honce : ∀ v, sums (Shape.introductions v) (parts.members ++
      (moduleMethod? moduleName parts.statements).toList ++ s.hoisted) ≤ 1) :
    ∀ c ∈ parts.members ++ (moduleMethod? moduleName parts.statements).toList ++ s.hoisted,
      c.shape.IsFunction → ∀ v, IsLocal s.vars v → 0 < c.sum (Shape.mentions v) →
        InFunction (parts.members ++ (moduleMethod? moduleName parts.statements).toList ++ s.hoisted)
          v → 0 < c.sum (Shape.introductions v) := by
  intro c hc hfunction v hlocal hmention ⟨f, hf, hv⟩
  have hscoping := h.built.scoping
  rw [List.append_nil] at hscoping
  -- Nothing mentions what is introduced in a declaration that has moved.
  have hmoved : HasFunction s.hoisted f →
      sums (Shape.mentions v) (parts.members ++ parts.statements) = 0 := by
    rintro ⟨hf, t, ht, hp⟩
    refine ((hscoping.apart t ?_ f ⟨hf, t, List.mem_singleton_self t, hp⟩ v hv).2 hlocal).2
    simpa [Building.moved, hhoisted] using ht
  simp only [Tree.hasFunction_append] at hf
  simp only [Tree.sums_append] at hmoved honce
  rcases List.mem_append.mp hc with hc | hc
  rcases List.mem_append.mp hc with hc | hc
  · have hle := Tree.le_sums (f := Shape.mentions v) hc
    refine (h.methods c hc hfunction v hlocal hmention).resolve_right fun hpos => ?_
    have := honce v
    rcases hf with (hf | hf) | hf
    · have := hf.sum_le (g := Shape.introductions v)
      omega
    · have := hf.sum_le (g := Shape.introductions v)
      omega
    · have := hmoved hf
      omega
  · obtain ⟨-, -, -, -, hsum⟩ := exists_of_mem_moduleMethod hc
    rw [hsum] at hmention
    rcases hf with (hf | hf) | hf
    · have hall := (hscoping.confined f (hf.mono (by simp)) v hv).2 hlocal
      have := hf.sum_le (g := Shape.mentions v)
      rw [Tree.sums_append] at hall
      omega
    · obtain ⟨-, t, ht, p, hp⟩ := hf
      obtain rfl : c = t := Option.some_inj.mp
        ((Option.mem_toList.mp hc).symm.trans (Option.mem_toList.mp ht))
      exact Nat.lt_of_lt_of_le hv (Tree.sum_le_of_at? hp)
    · have := hmoved hf
      omega
  · exact absurd hfunction (h.built.valid.hoisted c hc).2.1

/-- Once all fields of a module have a node, the tree that holds its members, the method of its own
statements and the hoisted declarations is built. -/
theorem ModuleParts.Account.moduleBuilt {parts : ModuleParts} {l : Location}
    {info : DeclarationInfo} (h : parts.Account nm calm b own [] s)
    (hplaced : unplaced own parts.emitted = []) (hpending : b.pending = [])
    (hhoisted : b.hoisted = []) (hvars : b.vars = #[]) (hkind : info.kind = .type)
    (hparameters : info.parameters = []) (hvar : info.var = none) :
    ModuleBuilt nm calm (.node l (.declaration info (parts.members ++
      (moduleMethod? moduleName parts.statements).toList ++ s.hoisted) none [])) s := by
  have hmethod : Balanced nm calm b (parts.members ++
      (moduleMethod? moduleName parts.statements).toList) [] s := by
    have hbuilt := h.built.toBalanced
    rw [hplaced, List.append_nil] at hbuilt
    exact balanced_moduleMethod moduleName hbuilt
  have haside : ∀ v, b.aside v = 0 := fun v => by simp [Building.aside, hpending, hhoisted]
  have hborn : ∀ v, b.born v = 0 := fun v => by simp [Building.born, ModelLint.born, hvars]
  have hchildren : ∀ members : List Tree,
      (Shape.declaration info members none []).children = members := fun members => by
    simp [Shape.children, Shape.slots]
  have hintroduced : ∀ (v : VariableId) (members : List Tree),
      (Shape.declaration info members none []).introductions v = 0 := fun v members => by
    simp [Shape.introductions, Shape.introduced, hparameters, hvar]
  have hmembers : ∀ c ∈ parts.members ++ (moduleMethod? moduleName parts.statements).toList ++
      s.hoisted, c.shape.isOutermost := by
    exact List.forall_mem_append.mpr ⟨List.forall_mem_append.mpr ⟨h.members,
      isOutermost_moduleMethod⟩, fun t ht => (hmethod.valid.hoisted t ht).1⟩
  refine ⟨hmethod.valid, Tree.all_iff.mpr ⟨?sound, fun c hc => ?below⟩, ?outermost, ?notFunction,
    ?members, fun v => ?balance, fun v => ?waiting,
    fun hc => (hmethod.quiet hc).trans hpending, ?confined, ?methods⟩
  case sound =>
    change Sound _ _ (.declaration _ _ none [])
    simp only [Sound, hkind, hparameters, hvar, true_and]
    exact hmembers
  case members =>
    rw [Tree.children_node, hchildren]
    exact hmembers
  case below =>
    rw [Tree.children_node, hchildren] at hc
    rcases List.mem_append.mp hc with hc | hc
    · exact hmethod.sound c hc
    · exact (hmethod.valid.hoisted c hc).2.2
  case outermost => rfl
  case notFunction =>
    change ¬ info.kind = .method
    simp [hkind]
  case balance =>
    have hbalance := hmethod.balance v
    rw [haside, hborn, List.count_nil, Building.aside] at hbalance
    rw [Tree.sum_eq, Tree.shape, Tree.children_node, hchildren, hintroduced, Tree.sums_append]
    omega
  case waiting =>
    have hwaiting := hmethod.waiting v
    rw [hpending, hhoisted, Tree.sums_nil, Tree.sums_nil] at hwaiting
    rw [Tree.sum_eq, Tree.children_node, hchildren, Tree.sums_append]
    omega
  case confined =>
    rw [Tree.children_node, hchildren]
    exact h.confined hhoisted
  case methods =>
    rw [Tree.children_node, hchildren]
    refine h.mentions_own hhoisted fun v => ?_
    have hbalance := hmethod.balance v
    have hle : s.born v ≤ 1 := born_le_one _ v
    rw [haside, hborn, List.count_nil, Building.aside] at hbalance
    rw [Tree.sums_append]
    omega

/-- **What is built of a module.** -/
theorem moduleNode_runs (hnames : ∀ n ∈ mentionedIn body, nm n)
    (hframe : (body.flatMap Stmt.initializers).flatMap Expr.walruses ≠ [] → E .noFrame)
    (hE : areWritten body = false → E .unwritable) :
    Runs (moduleNode locks moduleName body) .start E
      (ModuleBuilt nm ((body.flatMap Stmt.initializers).flatMap Expr.walruses = [])) := by
  rw [moduleNode]
  refine (fieldVariables_runs _ (Building.valid_start : Building.start.Valid nm)).bind fun own s₁ ⟨h₁, hfields, hown⟩ => ?_
  have hownNames : (own.map fun e => e.1.name) =
      (Field.ofBindings (moduleBindingsOf false body)).map Binding.name := by
    rw [← hfields, List.map_map]
    rfl
  obtain ⟨b, hb, hhoisted, hvars, haccount⟩ := opened_module
    ((body.flatMap Stmt.initializers).flatMap Expr.walruses = []) moduleName
    h₁ hown (hownNames ▸ Field.nodup_ofBindings _)
  refine runs_modify_bind ?_
  have hquiet : ∀ stmt ∈ body, stmt.initializers.flatMap Expr.walruses ⊆
      (body.flatMap Stmt.initializers).flatMap Expr.walruses := fun stmt hstmt n hn => by
    obtain ⟨e, he, hn⟩ := List.mem_flatMap.mp hn
    exact List.mem_flatMap.mpr ⟨e, List.mem_flatMap.mpr ⟨stmt, hstmt, he⟩, hn⟩
  refine Runs.bind (addStatements_runs hb haccount ?names ?fields ?frame ?calm ?written)
    fun parts₁ s₂ ⟨h₂, hemitted⟩ => ?rest
  case names =>
    rw [mentionedIn_eq_flatMap] at hnames
    exact fun stmt hstmt n hn => hnames n (List.mem_flatMap.mpr ⟨stmt, hstmt, hn⟩)
  case fields =>
    intro d hd
    rw [hownNames]
    exact Field.mem_ofBindings.mpr (List.mem_map_of_mem hd)
  case frame =>
    exact fun stmt hstmt hw => hframe fun hnil =>
      hw (List.subset_nil.mp (hnil ▸ hquiet stmt hstmt))
  case calm => exact fun hc stmt hstmt => List.subset_nil.mp (hc ▸ hquiet stmt hstmt)
  case written =>
    refine fun stmt hstmt hw => hE (Bool.eq_false_iff.mpr fun hall => ?_)
    rw [areWritten_eq_all] at hall
    rw [List.all_eq_true.mp hall stmt hstmt] at hw
    cases hw
  refine Runs.bind (addNested_runs hb h₂ ?first) fun parts₂ s₃ ⟨h₃, hplaced⟩ => ?last
  case first =>
    intro e he hnested
    have hfield : e.1 ∈ Field.ofBindings (moduleBindingsOf false body) :=
      hfields ▸ List.mem_map.mpr ⟨e, he, rfl⟩
    obtain ⟨d, hd, hname, hdnested⟩ := Field.binding_of_mem_ofBindings hfield
    exact hname ▸ hemitted d hd (hdnested.trans hnested)
  exact runs_get_bind (runs_pure
    (h₃.moduleBuilt hplaced hb.pending hhoisted hvars rfl rfl rfl))

end Modules

end ModelLint.Source
