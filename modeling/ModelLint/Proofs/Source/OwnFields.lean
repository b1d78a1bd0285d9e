import ModelLint.Proofs.Source.Calls
import ModelLint.Proofs.Source.Members

/-!
# Fields of a class and its objects

The attributes that a method assigns to its object are collected before the members of the class are
built, and each of them becomes a field with a node. So an attribute of the object that is collected is
an access to its variable in all methods of the class.

* `Stmt.AssignsOwn`, `InMethod`: a statement assigns an attribute, and it stands in a method.
* **`mem_classBindings`**: what a method assigns is a binding of the class.
* **`returns_memberNodes`**: every own field of a class has a node among those of its members.
* `Owns`, **`Site.Took.attribute`**, `Site.Took.operation`: what becomes of an attribute that is known.
-/

namespace ModelLint.Source

open Build

variable {locks : List String} {r r' r'' : Range} {o : Option String} {q a name : String}
  {v : VariableId} {s s' : Building} {R : List Receiver} {site : Site} {stmt : Stmt}
  {body members : List Stmt} {signature : Signature} {c : OpenClass} {emitted : List String}
  {initializer : Option Tree} {ts us : List Tree} {e d : Expr}

/-! ## Statements in a method -/

theorem mem_flatten_sideBySide : {as bs : List (List Stmt)} →
    (stmt ∈ (sideBySide as bs).flatten ↔ stmt ∈ as.flatten ∨ stmt ∈ bs.flatten)
  | [], bs => by simp [sideBySide]
  | a :: as, [] => by simp [sideBySide]
  | a :: as, b :: bs => by
    simp only [sideBySide, List.flatten_cons, List.mem_append, mem_flatten_sideBySide]
    tauto

theorem mem_flatten_levelsOf {w : Stmt} (hstmt : stmt ∈ body) (hw : w ∈ (levels stmt).flatten) :
    w ∈ (levelsOf body).flatten := by
  induction body with
  | nil => cases hstmt
  | cons first rest ih =>
    rw [levelsOf, mem_flatten_sideBySide]
    rcases List.mem_cons.mp hstmt with rfl | hstmt
    · exact .inl hw
    · exact .inr (ih hstmt)

theorem mem_levels_self (stmt : Stmt) : stmt ∈ (levels stmt).flatten := by
  cases stmt <;> simp [levels]

theorem mem_flatten_levelsOfCases {w : Stmt} {b : List Stmt} {cases' : List (List Stmt)}
    (hb : b ∈ cases') (hw : w ∈ (levelsOf b).flatten) : w ∈ (levelsOfCases cases').flatten := by
  induction cases' with
  | nil => cases hb
  | cons first rest ih =>
    rw [levelsOfCases, mem_flatten_sideBySide]
    rcases List.mem_cons.mp hb with rfl | hb
    · exact .inl hw
    · exact .inr (ih hb)

theorem mem_flatten_levelsOfHandlers {w : Stmt} {hr : Range} {type : Option Expr}
    {caught : Option String} {b : List Stmt} {handlers : List Handler}
    (hb : .mk hr type caught b ∈ handlers) (hw : w ∈ (levelsOf b).flatten) :
    w ∈ (levelsOfHandlers handlers).flatten := by
  induction handlers with
  | nil => cases hb
  | cons first rest ih =>
    obtain ⟨fr, ftype, fname, fbody⟩ := first
    rw [levelsOfHandlers, mem_flatten_sideBySide]
    rcases List.mem_cons.mp hb with heq | hb
    · cases heq
      exact .inl hw
    · exact .inr (ih hb)

theorem Block.mem_levels {es fs : List Event} {b : List Stmt} (h : Block o stmt es b fs) {w : Stmt}
    (hw : w ∈ (levelsOf b).flatten) : w ∈ (levels stmt).flatten := by
  cases h with
  | case =>
    simp only [levels, List.flatten_cons, List.mem_append]
    exact .inr (.inr (mem_flatten_levelsOfCases (List.mem_append_right _ List.mem_cons_self) hw))
  | handler =>
    simp only [levels, List.flatten_cons, List.mem_append, mem_flatten_sideBySide]
    exact .inr (.inl (.inl (.inr (.inr (mem_flatten_levelsOfHandlers
      (List.mem_append_right _ List.mem_cons_self) hw)))))
  | _ =>
    simp only [levels, List.flatten_cons, List.mem_append, mem_flatten_sideBySide, hw, or_true, true_or]

/-- The statements of a part and all below them. -/
def Part.statements : Part → List Stmt
  | .routine f => (levelsOf f.body).flatten
  | .statement _ stmt => (levels stmt).flatten
  | .type _ _ _ _ | .expression _ _ => []

theorem Part.Holds.statements_subset {p p' : Part} (h : p.Holds p') : p'.statements ⊆ p.statements := by
  intro w hw
  cases h with
  | routineStatement hmem => exact mem_flatten_levelsOf hmem hw
  | blockStatement hblock hmem => exact hblock.mem_levels (mem_flatten_levelsOf hmem hw)
  | localFunction =>
    rw [Part.statements, levels, List.flatten_cons]
    exact List.mem_append_right _ hw
  | statementOperand | operand => cases hw

theorem Part.Encloses.statements_subset {p p' : Part} (h : p.Encloses p') :
    p'.statements ⊆ p.statements := by
  induction h with
  | refl => exact List.Subset.refl _
  | tail _ hstep ih => exact List.Subset.trans hstep.statements_subset ih

/-- **A part stands in a method** with a signature, in no class inside. -/
def InMethod (members : List Stmt) (signature : Signature) (p : Part) : Prop :=
  ∃ r body, .function r signature body ∈ members ∧
    Part.Encloses (.routine ⟨r, signature.object?, signature, body⟩) p

/-! ## Attributes -/

/-- **A statement assigns an attribute of a name** on its own: as its target, as one in a chain, with an
annotation or with an operator. -/
inductive Stmt.AssignsOwn (q a : String) : Stmt → Prop
  /-- It is one of the targets. -/
  | assign {r r' r'' : Range} {targets : List Expr} {value : Expr} :
    .attribute r' (.name r'' q) a ∈ targets → AssignsOwn q a (.assign r targets value)
  /-- It has an annotation. -/
  | annotate {r r' r'' : Range} {typeHint : Expr} {value : Option Expr} :
    AssignsOwn q a (.annotate r (.attribute r' (.name r'' q) a) typeHint value)
  /-- It is changed by an operator. -/
  | augment {r r' r'' : Range} {op : BinaryOperator} {value : Expr} :
    AssignsOwn q a (.augment r (.attribute r' (.name r'' q) a) op value)

theorem Stmt.AssignsOwn.exists_binding (h : stmt.AssignsOwn q a) :
    ∃ b ∈ attributeBindings q stmt, b.name = a := by
  have hself : ∀ r' r'', attributeOf? q (.attribute r' (.name r'' q) a) = some a := fun _ _ =>
    if_pos rfl
  cases h with
  | assign hmem =>
    exact ⟨_, List.mem_map_of_mem (List.mem_filterMap.mpr ⟨_, hmem, hself _ _⟩), rfl⟩
  | annotate | augment => simp [attributeBindings, hself]

/-- **What a method assigns to its object is a binding of the class**, if the object is a positional
parameter. -/
theorem mem_classBindings (hstmt : InMethod members signature (.statement o stmt))
    (hassign : stmt.AssignsOwn q a) (hobject : signature.object? = some q)
    (hpositional : signature.parameters.head?.any Parameter.isPositional) :
    ∃ b ∈ classBindings members, b.name = a := by
  obtain ⟨r, body, hmethod, hencloses⟩ := hstmt
  obtain ⟨b, hb, hname⟩ := hassign.exists_binding
  refine ⟨b, List.mem_append_right _ (List.mem_flatMap.mpr ⟨_, hmethod, ?_⟩), hname⟩
  have hmem : stmt ∈ (levelsOf body).flatten := hencloses.statements_subset (mem_levels_self stmt)
  rw [Signature.object?, Signature.receiver] at hobject
  dsimp only at hobject ⊢
  split at hobject
  · cases hobject
  · next hstatic =>
    rw [methodBindings, if_neg hstatic]
    obtain ⟨p, hp, rfl⟩ := Option.map_eq_some_iff.mp hobject
    rw [hp, Option.any_some] at hpositional
    obtain ⟨rest, hparameters⟩ := List.head?_eq_some_iff.mp hp
    rw [hparameters, List.find?_cons_of_pos hpositional]
    exact List.mem_flatMap.mpr ⟨stmt, hmem, hb⟩

/-! ## Nodes of fields -/

/-- One of the trees declares a field. -/
def HasField (ts : List Tree) (e : Field × VariableId) : Prop :=
  ∃ l qualifiedName modifiers initializer,
    fieldNode l qualifiedName modifiers e.1.name e.2 initializer ∈ ts

theorem HasField.mono {f : Field × VariableId} (h : HasField ts f) (hts : ts ⊆ us) : HasField us f :=
  let ⟨l, q, modifiers, initializer, hmem⟩ := h
  ⟨l, q, modifiers, initializer, hts hmem⟩

theorem returns_fieldNode {modifiers : List String} : Returns (fieldAt r modifiers name v initializer)
    fun t => ∃ l q modifiers initializer, t = fieldNode l q modifiers name v initializer :=
  .next fun _ => .next fun _ => .pure ⟨_, _, _, _, rfl⟩

/-- What an assignment in a class says to have a node has one. -/
theorem returns_assignedFields (hc : (c.own.map fun e => e.1.name).Nodup) (names : List String)
    {emitted : List String} {initializer : Option Tree} :
    Returns (assignedFields c r emitted initializer names) fun p =>
      ∀ e ∈ c.own, e.1.name ∈ p.2 → e.1.name ∈ emitted ∨ HasField p.1 e := by
  induction names generalizing emitted initializer with
  | nil => exact .pure fun _ _ h => .inl h
  | cons name rest ih =>
    rw [assignedFields]
    split
    · next f v hnew hfind =>
      apply returns_fieldNode.bind
      rintro t ⟨l, q, modifiers, initializer, ht⟩
      refine ih.bind fun p hp => .pure fun e he hmem => ?_
      rcases hp e he hmem with hbefore | hfield
      · rcases List.mem_cons.mp hbefore with heq | hbefore
        · refine .inr ⟨l, q, modifiers, initializer, ?_⟩
          have hname : f.name = name := by simpa using List.find?_some hfind
          obtain rfl : e = (f, v) := List.inj_on_of_nodup_map hc he (List.mem_of_find?_eq_some hfind)
            (heq.trans hname.symm)
          rw [ht, heq]
          exact List.mem_cons_self
        · exact .inl hbefore
      · exact .inr (hfield.mono (List.subset_cons_self _ _))
    · exact ih

theorem returns_remainingFields (own : List (Field × VariableId)) :
    Returns (remainingFields emitted own) fun us => ∀ e ∈ own, e.1.name ∉ emitted → HasField us e := by
  induction own with
  | nil => exact .pure (List.forall_mem_nil _)
  | cons e rest ih =>
    rw [remainingFields]
    split
    · next hemitted =>
      refine ih.mono fun us hus => List.forall_mem_cons.mpr ⟨?_, hus⟩
      exact fun hnot => absurd (List.contains_iff_mem.mp hemitted) hnot
    · apply returns_fieldNode.bind
      rintro t ⟨l, q, modifiers, initializer, ht⟩
      refine ih.bind fun us hus => .pure (List.forall_mem_cons.mpr ⟨?_, ?_⟩)
      · exact fun _ => ⟨l, q, modifiers, initializer, ht ▸ List.mem_cons_self⟩
      · exact fun e he hnot => (hus e he hnot).mono (List.subset_cons_self _ _)

/-- **Every own field of a class has a node** among those of the members. -/
theorem returns_memberNodes (hc : (c.own.map fun e => e.1.name).Nodup) (members : List Stmt)
    {emitted : List String} : Returns (memberNodes locks c emitted members) fun us =>
      ∀ e ∈ c.own, e.1.name ∉ emitted → HasField us e := by
  induction members generalizing emitted with
  | nil =>
    rw [memberNodes]
    exact returns_remainingFields c.own
  | cons stmt rest ih =>
    have hassigned : ∀ r x names, Returns (assignedMembers locks c emitted r x names rest) fun us =>
        ∀ e ∈ c.own, e.1.name ∉ emitted → HasField us e := by
      intro r x names
      refine .next fun initializer => (returns_assignedFields hc names).bind fun p hp =>
        ih.bind fun us hus => .pure fun e he hnot => ?_
      by_cases hmem : e.1.name ∈ p.2
      · exact ((hp e he hmem).resolve_left hnot).mono (List.subset_append_left _ _)
      · exact (hus e he hmem).mono (List.subset_append_right _ _)
    have hmember : ∀ {t : Tree}, Returns (do return t :: (← memberNodes locks c emitted rest)) fun us =>
        ∀ e ∈ c.own, e.1.name ∉ emitted → HasField us e := fun {t} =>
      ih.bind fun us hus => .pure fun e he hnot =>
        (hus e he hnot).mono (List.subset_cons_self _ _)
    cases stmt with
    | function r signature body =>
      rw [memberNodes]
      exact .next fun t => hmember
    | classType r name bases body =>
      rw [memberNodes]
      exact .next fun c' => .next fun ts => .next fun t => hmember
    | assign r targets value =>
      obtain ⟨x, hmembers, -⟩ := memberNodes_assign locks c emitted r targets value rest
      rw [hmembers]
      exact hassigned r x _
    | annotate r target typeHint value =>
      obtain ⟨x, hmembers, -⟩ := memberNodes_annotate locks c emitted r target typeHint value rest
      rw [hmembers]
      exact hassigned r x _
    | _ =>
      simp only [memberNodes]
      exact ih

/-! ## Attributes of the object -/

/-- The object of the innermost method has a field. -/
def Owns (R : List Receiver) (q a : String) (v : VariableId) : Prop :=
  ∃ receiver, R.head? = some receiver ∧ receiver.name = some q ∧ receiver.fields.lookup a = some v

/-- The node of an attribute of the object that is a field. -/
def attributeAt (r : Range) (a : String) (v : VariableId) : Tree :=
  nodeAt r (.fieldAccess a none (some v))

/-- **An attribute of the object that is a field** becomes an access to the variable. -/
theorem runs_attribute (h : Owns s.receivers q a v) :
    Runs (exprNode (.attribute r' (.name r'' q) a)) s (fun _ => True) fun t s' =>
      t = attributeAt r' a v ∧ s' = s := by
  obtain ⟨receiver, hreceiver, hname, hv⟩ := h
  have hobject : s.object? = some q := by rw [Building.object?, hreceiver, Option.bind_some, hname]
  rw [exprNode]
  apply (runs_isObject hobject).bind
  rintro _ s₁ ⟨rfl, rfl⟩
  have hself : (Expr.name r'' q).isObject (some q) = true := by simp [Expr.isObject, Expr.name?]
  rw [if_pos hself]
  refine Runs.bind (Q := fun w s' => w = some v ∧ s' = s₁) ⟨?_, rfl⟩ ?_
  · rw [hreceiver, Option.bind_some, hv]
  · rintro _ _ ⟨rfl, rfl⟩
    exact runs_pure ⟨rfl, rfl⟩

theorem runs_operation (h : Owns s.receivers q a v)
    (hd : d.OperatesOn (.attribute r' (.name r'' q) a)) :
    Runs (exprNode d) s (fun _ => True) fun t _ =>
      ∀ u, t.shape.target? = some u → u = attributeAt r' a v := by
  have hobject : s.object? = some q := by
    obtain ⟨receiver, hreceiver, hname, -⟩ := h
    rw [Building.object?, hreceiver, Option.bind_some, hname]
  cases hd with
  | indexer =>
    rw [exprNode]
    refine (runs_attribute h).bind fun t s₁ ht => (returns_any _).bind fun u s₂ _ =>
      runs_pure fun w hw => ?_
    cases hw
    exact ht.1
  | member =>
    have hother : (Expr.attribute r' (.name r'' q) a).isObject (some q) = false := by
      simp [Expr.isObject, Expr.name?]
    rw [exprNode]
    apply (runs_created hobject).bind
    rintro created s₁ ⟨-, rfl⟩
    split
    · exact (returns_any _).bind fun ts s₂ _ => (returns_any _).bind fun us s₃ _ =>
        runs_pure (by simp [nodeAt, Tree.shape, Shape.target?])
    · apply (runs_isObject hobject).bind
      rintro _ s₂ ⟨rfl, rfl⟩
      simp only [hother, Bool.false_eq_true, if_false]
      refine Runs.bind (Q := fun w _ => w = some (attributeAt r' a v)) (Runs.map ((runs_attribute h).mono
        fun t s' ht => congrArg some ht.1)) fun w s₃ hw => ?_
      exact (returns_any _).bind fun ts s₄ _ => (returns_any _).bind fun us s₅ _ =>
        runs_pure fun u hu => Option.some.inj (hu.symm.trans hw)
  | call =>
    have hself : (Expr.name r'' q).isObject (some q) = true := by simp [Expr.isObject, Expr.name?]
    rw [exprNode]
    apply (runs_created hobject).bind
    rintro created s₁ ⟨-, rfl⟩
    split
    · exact (returns_any _).bind fun ts s₂ _ => (returns_any _).bind fun us s₃ _ =>
        runs_pure (by simp [nodeAt, Tree.shape, Shape.target?])
    · apply (runs_isObject hobject).bind
      rintro _ s₂ ⟨rfl, rfl⟩
      simp only [hself, if_true, pure_bind]
      exact (returns_any _).bind fun ts s₃ _ => (returns_any _).bind fun us s₄ _ =>
        runs_pure (by simp [nodeAt, Tree.shape, Shape.target?])

theorem Site.Took.attribute (h : site.Took R (exprNodes [.attribute r' (.name r'' q) a]))
    (hown : Owns R q a v) : Stands site.roots (attributeAt r' a v) := by
  obtain ⟨s, t, s', rfl, hrun, ht⟩ := h.exists_run
  obtain ⟨rfl, -⟩ := (runs_attribute hown).of_ok hrun
  exact ht

theorem Site.Took.operation (h : site.Took R (exprNodes [d])) (hown : Owns R q a v)
    (hd : d.OperatesOn (.attribute r' (.name r'' q) a)) :
    ∃ t, Stands site.roots t ∧ t.location = d.range.location ∧ d.Shapes t.shape ∧
      ∀ u, t.shape.target? = some u → u = attributeAt r' a v := by
  obtain ⟨s, t, s', rfl, hrun, ht⟩ := h.exists_run
  obtain ⟨hlocation, hshapes⟩ := (returns_exprNode d s).of_ok hrun
  exact ⟨t, ht, hlocation, hshapes, (runs_operation hown hd).of_ok hrun⟩

/-! ## Classes -/

/-- **What a class binds is a field of its own**: the field has a node in that of the class, and all
methods know it. -/
theorem Site.TookClass.field (h : site.TookClass locks R r members)
    (ha : ∃ b ∈ classBindings members, b.name = a) :
    ∃ (v : VariableId) (c : OpenClass) (info : DeclarationInfo) (ts : List Tree), info.kind = .type ∧
      Stands site.roots (nodeAt r (.declaration info ts none [])) ∧
      (∃ l q modifiers initializer, fieldNode l q modifiers a v initializer ∈ ts) ∧
      c.all.lookup a = some v ∧ ∀ stmt ∈ members, site.TookMember locks R c stmt := by
  obtain ⟨c, s₁, ts, s₂, info, hs₁, rfl, hc, hown, hall, hrun, hkind, hkeeps⟩ := h
  obtain ⟨b, hb, rfl⟩ := ha
  obtain ⟨e, he, hname⟩ := List.mem_map.mp (hown b hb)
  refine ⟨e.2, c, info, ts, hkind, hkeeps.trees _ (stands_of_mem List.mem_cons_self), ?_, ?_, ?_⟩
  · exact hname ▸ (returns_memberNodes hc.nodup members s₁).of_ok hrun e he nofun
  · exact hname ▸ hall e he
  · refine ((tookMember_memberNodes members hs₁ hc).of_ok hrun).2 site
      (hkeeps.before (within_node ?_) (fun _ ht => ht) (.refl _))
    exact fun _ ht => (Shape.children_type info ts).symm ▸ ht

/-- What stands in a method was built where the object has the fields of the class. -/
theorem Site.TookMember.took {p : Part} (h : ∀ stmt ∈ members, site.TookMember locks R c stmt)
    (hp : InMethod members signature p) (hobject : signature.object? = some q)
    (hv : c.all.lookup a = some v) : ∃ R', Owns R' q a v ∧ site.TookPart locks R' p := by
  obtain ⟨r, body, hmethod, hencloses⟩ := hp
  refine ⟨receiversIn signature (some c.all) R, ⟨signature.receiver c.all, rfl, hobject, hv⟩, ?_⟩
  have hroutine : site.TookPart locks (receiversIn signature (some c.all) R)
      (.routine ⟨r, signature.object?, signature, body⟩) := ⟨rfl, h _ hmethod⟩
  exact hroutine.encloses hencloses

end ModelLint.Source
