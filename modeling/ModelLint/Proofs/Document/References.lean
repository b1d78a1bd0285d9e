import ModelLint.Proofs.Document.Loading
import ModelLint.Proofs.Program.References

/-!
# What the references of a document mean

A name in a document is sought in the scopes and then among the fields of the types around, and a
member without an object in front among the fields of the innermost type. All of these tables hold
variables under their own names, and the tables of types hold fields only: this is so when they are
filled, and it stays so, since a variable that is in the table of variables is never changed.

* `TrueNames`, `Denoting`: the names of a scope are those of its variables.
* `Consistent`: what names resolve to at a place.
* `Yields`: what a step gives is as wanted over every table that continues the one behind the step. So
  nothing has to be said again when more variables come up.
* `Converters.Yield`: converters that give trees whose nodes fit. `yield_converters`: all of them do.
* **`refers_of_load`**: references in the unit of a document mean what they say.
-/

namespace ModelLint.Document

/-! ## Names in sight -/

section Names

variable {vars vars' : Array Variable} {P : VariableKind → Prop} {scope : Scope} {name : String}
  {v : VariableId}

/-- All names of a scope are those of their variables. -/
def TrueNames (vars : Array Variable) (scope : Scope) : Prop := ∀ e ∈ scope, IsNamed vars e.1 e.2

/-- The variables of a scope are of a kind that is asked for, too. -/
def Denoting (vars : Array Variable) (P : VariableKind → Prop) (scope : Scope) : Prop :=
  ∀ e ∈ scope, IsNamed vars e.1 e.2 ∧ HasKind vars P e.2

theorem TrueNames.extends (h : TrueNames vars scope) (hx : Extends vars vars') :
    TrueNames vars' scope :=
  fun e he => (h e he).extends hx

theorem TrueNames.lookup (h : TrueNames vars scope) (hv : scope.lookup name = some v) :
    IsNamed vars name v := by
  obtain ⟨before, after, rfl, -⟩ := List.lookup_eq_some_iff.mp hv
  exact h (name, v) (by simp)

theorem Denoting.extends (h : Denoting vars P scope) (hx : Extends vars vars') :
    Denoting vars' P scope :=
  fun e he => (h e he).imp (·.extends hx) (·.extends hx)

theorem Denoting.trueNames (h : Denoting vars P scope) : TrueNames vars scope :=
  fun e he => (h e he).1

theorem Denoting.lookup (h : Denoting vars P scope) (hv : scope.lookup name = some v) :
    IsNamed vars name v ∧ HasKind vars P v := by
  obtain ⟨before, after, rfl, -⟩ := List.lookup_eq_some_iff.mp hv
  exact h (name, v) (by simp)

end Names

/-- **What names resolve to**: in all scopes and among all fields of types around, a variable of the
name, and among the fields of types a field. -/
structure Consistent (r : Surroundings) (s : Progress) : Prop where
  /-- The scopes. -/
  scopes : ∀ scope ∈ s.scopes, TrueNames s.vars scope
  /-- The fields of the types around. -/
  fields : ∀ scope ∈ r.fields, Denoting s.vars (· = .field) scope

section Consistent

variable {r : Surroundings} {s s' : Progress} {scope : Scope}

theorem Consistent.push (h : Consistent r s) (var : Variable) :
    Consistent r { s with vars := s.vars.push var } :=
  ⟨fun scope hscope => (h.scopes scope hscope).extends (extends_push _ _),
    fun scope hscope => (h.fields scope hscope).extends (extends_push _ _)⟩

theorem Consistent.openScope (h : Consistent r s) (hscope : TrueNames s.vars scope) :
    Consistent r { s with scopes := scope :: s.scopes } :=
  ⟨List.forall_mem_cons.mpr ⟨hscope, h.scopes⟩, h.fields⟩

theorem Consistent.closeScope (h : Consistent r s) :
    Consistent r { s with scopes := s.scopes.tail } :=
  ⟨fun scope hscope => h.scopes scope (List.mem_of_mem_tail hscope), h.fields⟩

end Consistent

/-! ## Steps -/

/-- **What a step gives**, if something holds of all tables that continue the one before it: it only
adds variables, names resolve as they should, and what it gives is as wanted over all tables that
continue the one behind it. -/
def Yields {α : Type} (H : Array Variable → Prop) (x : Load α) (P : Array Variable → α → Prop) : Prop :=
  ∀ r s a s', x r s = .ok (a, s') → Consistent r s → (∀ vars, Extends s.vars vars → H vars) →
    Extends s.vars s'.vars ∧ Consistent r s' ∧ ∀ vars, Extends s'.vars vars → P vars a

section Yields

variable {α β : Type} {H H' : Array Variable → Prop} {x : Load α} {f : α → Load β}
  {P P' : Array Variable → α → Prop} {Q : Array Variable → β → Prop} {fields : Fields} {key : String}

theorem Yields.bind (hx : Yields H x P) (hf : ∀ a, Yields (fun vars => H vars ∧ P vars a) (f a) Q) :
    Yields H (x >>= f) Q := by
  intro r s b s'' h hs hH
  have hbind : (x >>= f) r s = (x r s).bind fun p => f p.1 r p.2 := rfl
  rw [hbind] at h
  rcases hxs : x r s with e | ⟨a, s'⟩
  · rw [hxs] at h
    cases h
  · rw [hxs] at h
    obtain ⟨hext, hs', hP⟩ := hx r s a s' hxs hs hH
    obtain ⟨hext', hs'', hQ⟩ := hf a r s' b s'' h hs' fun vars hvars =>
      ⟨hH vars (hext.trans hvars), hP vars hvars⟩
    exact ⟨hext.trans hext', hs'', hQ⟩

theorem Yields.mono (h : Yields H x P) (hH : ∀ vars, H' vars → H vars)
    (hP : ∀ vars a, P vars a → P' vars a) : Yields H' x P' := by
  intro r s a s' hx hs hH'
  obtain ⟨hext, hs', ha⟩ := h r s a s' hx hs fun vars hvars => hH vars (hH' vars hvars)
  exact ⟨hext, hs', fun vars hvars => hP vars a (ha vars hvars)⟩

theorem yields_pure {a : α} (h : ∀ vars, H vars → P vars a) : Yields H (pure a) P := by
  rintro r s _ _ ⟨⟩ hs hH
  exact ⟨.refl _, hs, fun vars hvars => h vars (hH vars hvars)⟩

theorem yields_reject {reason : Reason} : Yields H (reject fields reason : Load α) P := by
  rintro r s a s' ⟨⟩

/-- A step that leaves the state as it is may be left out. -/
theorem yields_reads_bind {R : α → Prop} (hx : ∀ r s, Reads x r s R)
    (hf : ∀ a, R a → Yields H (f a) Q) : Yields H (x >>= f) Q := by
  intro r s b s'' h
  have hbind : (x >>= f) r s = (x r s).bind fun p => f p.1 r p.2 := rfl
  have hreads := hx r s
  rw [hbind] at h
  rw [Reads, Runs] at hreads
  rcases hxs : x r s with e | ⟨a, s'⟩
  · rw [hxs] at h
    cases h
  · rw [hxs] at h hreads
    obtain ⟨rfl, ha⟩ := hreads
    exact hf a ha r s' b s'' h

theorem yields_read : Yields H (read : Load Surroundings) fun vars r =>
    ∀ scope ∈ r.fields, Denoting vars (· = .field) scope := by
  rintro r s _ _ ⟨⟩ hs -
  exact ⟨.refl _, hs, fun vars hvars scope hscope => (hs.fields scope hscope).extends hvars⟩

theorem yields_withReader {inside : Surroundings → Surroundings} {scope : Scope}
    (hinside : ∀ r, (inside r).fields = scope :: r.fields)
    (hscope : ∀ vars, H vars → Denoting vars (· = .field) scope)
    (h : Yields H x P) : Yields H (withReader inside x) P := by
  intro r s a s' hx hs hH
  have hopen : Consistent (inside r) s :=
    ⟨hs.scopes, hinside r ▸ List.forall_mem_cons.mpr ⟨hscope _ (hH _ (.refl _)), hs.fields⟩⟩
  obtain ⟨hext, hs', ha⟩ := h (inside r) s a s' hx hopen hH
  exact ⟨hext, ⟨hs'.scopes, fun scope hscope => (hs.fields scope hscope).extends hext⟩, ha⟩

theorem yields_withScope {scope : Scope} (hscope : ∀ vars, H vars → TrueNames vars scope)
    (h : Yields H x P) : Yields H (withScope scope x) P := by
  intro r s a s' hx hs hH
  have hwith : withScope scope x r s = (x r { s with scopes := scope :: s.scopes }).bind
      fun p => .ok (p.1, { p.2 with scopes := p.2.scopes.tail }) := rfl
  rw [hwith] at hx
  rcases hxs : x r { s with scopes := scope :: s.scopes } with e | ⟨b, t⟩
  · rw [hxs] at hx
    cases hx
  · rw [hxs] at hx
    cases hx
    obtain ⟨hext, ht, ha⟩ := h r _ b t hxs (hs.openScope (hscope _ (hH _ (.refl _)))) hH
    exact ⟨hext, ht.closeScope, ha⟩

theorem yields_mapM {f : α → Load β} {xs : List α} (h : ∀ x ∈ xs, Yields H (f x) Q) :
    Yields H (xs.mapM f) fun vars ys => ∀ y ∈ ys, Q vars y := by
  induction xs with
  | nil => exact yields_pure fun _ _ => List.forall_mem_nil _
  | cons x xs ih =>
    rw [List.forall_mem_cons] at h
    rw [List.mapM_cons]
    refine h.1.bind fun y => ((ih h.2).mono (fun _ h => h.1) fun _ _ h => h).bind fun ys =>
      yields_pure fun vars hvars => ?_
    exact List.forall_mem_cons.mpr ⟨hvars.1.2, hvars.2⟩

/-! ### Variables -/

variable {name : String} {v : VariableId}

theorem yields_newVariable {type : Option String} {kind : VariableKind} {isStatic : Bool} :
    Yields H (newVariable name type kind isStatic) fun vars v =>
      IsNamed vars name v ∧ HasKind vars (· = kind) v := by
  rintro r s _ _ ⟨⟩ hs -
  refine ⟨extends_push _ _, hs.push _, fun vars hvars => ?_⟩
  have hnew := hvars s.vars.size _ Array.getElem?_push_size
  exact ⟨⟨_, hnew, rfl⟩, _, hnew, rfl⟩

theorem yields_declare (hv : ∀ vars, H vars → IsNamed vars name v) :
    Yields H (declare fields name v) fun _ _ => True := by
  rintro r ⟨vars, scopes⟩ a s' h hs hH
  rcases scopes with _ | ⟨scope, outer⟩
  · cases h
  · have hdeclare : declare fields name v r ⟨vars, scope :: outer⟩ = (do
        if (scope.lookup name).isSome then reject fields (.variableTwice name)
        set { (← get) with scopes := ((name, v) :: scope) :: outer }) r ⟨vars, scope :: outer⟩ := rfl
    obtain ⟨hscope, houter⟩ := List.forall_mem_cons.mp hs.scopes
    rw [hdeclare] at h
    split at h
    · cases h
    · cases h
      have hv := hv vars (hH vars (.refl _))
      exact ⟨.refl _, ⟨List.forall_mem_cons.mpr ⟨List.forall_mem_cons.mpr ⟨hv, hscope⟩, houter⟩,
        hs.fields⟩, fun _ _ => trivial⟩

theorem yields_resolve : Yields H (resolve name) fun vars found =>
    ∀ v, found = some v → IsNamed vars name v := by
  rintro r s _ _ ⟨⟩ hs -
  refine ⟨.refl _, hs, fun vars hvars v hv => ?_⟩
  obtain ⟨scope, hscope, hlookup⟩ := List.exists_of_findSome?_eq_some hv
  rcases List.mem_append.mp hscope with hscope | hscope
  · exact ((hs.scopes scope hscope).lookup hlookup).extends hvars
  · exact ((hs.fields scope hscope).trueNames.lookup hlookup).extends hvars

theorem yields_parameters :
    Yields H (parameters fields) fun vars ps => Denoting vars (· ≠ .field) ps := by
  refine yields_reads_bind (fun _ _ => reads_items) fun vs _ => yields_mapM fun v _ => ?_
  have hnew : ∀ raw : Fields, Yields H (do
      let name ← requireText raw "name"
      let typeName ← text? raw "type"
      return (name, ← newVariable name typeName .parameter false)) fun vars e =>
        IsNamed vars e.1 e.2 ∧ HasKind vars (· ≠ .field) e.2 := fun raw =>
    yields_reads_bind (fun _ _ => reads_requireText) fun name _ =>
      yields_reads_bind (fun _ _ => reads_text?) fun type _ => yields_newVariable.bind fun v =>
        yields_pure fun vars h => ⟨h.2.1, h.2.2.ne (by decide)⟩
  cases v with
  | str name =>
    exact yields_reads_bind (R := fun _ => True) (fun _ _ => reads_pure trivial) fun raw _ => hnew raw
  | _ => exact yields_reads_bind (fun _ _ => reads_mapping) fun raw _ => hnew raw

end Yields

/-! ## Trees -/

/-- All nodes of a tree fit. -/
abbrev Fitting (vars : Array Variable) (t : Tree) : Prop := t.All (Shape.Fits vars)

/-- **Converters that give trees whose nodes fit.** -/
structure Converters.Yield (inner : Converters) : Prop where
  /-- Expressions. -/
  expression : ∀ {H} v l, Yields H (inner.expression v l) Fitting
  /-- Statements. -/
  statement : ∀ {H} v l, Yields H (inner.statement v l) Fitting
  /-- Declarations. -/
  declaration : ∀ {H} fields l, Yields H (inner.declaration fields l) Fitting

namespace Converters

variable {H : Array Variable → Prop} {inner : Converters} {fields : Fields} {key : String}
  {l : Location} {scope : Scope} (hi : inner.Yield)

include hi

/-! ### Parts of nodes -/

theorem yields_expression? : Yields H (inner.expression? fields key l) fun vars o =>
    ∀ t ∈ o, Fitting vars t := by
  rw [expression?]
  split
  · exact yields_pure fun vars _ t ht => by cases ht
  · refine (hi.expression _ l).bind fun t => yields_pure fun vars h u hu => ?_
    cases hu
    exact h.2

theorem yields_required : Yields H (inner.required fields key l) Fitting :=
  yields_reads_bind (fun _ _ => reads_require) fun v _ => hi.expression v l

theorem yields_expressions (vs : List Value) : Yields H (vs.mapM fun v => inner.expression v l)
    fun vars ts => ∀ t ∈ ts, Fitting vars t :=
  yields_mapM fun v _ => hi.expression v l

theorem yields_arguments : Yields H (inner.arguments fields l) fun vars ts =>
    ∀ t ∈ ts, Fitting vars t :=
  yields_reads_bind (fun _ _ => reads_items) fun vs _ => yields_expressions hi vs

theorem yields_statements (hscope : ∀ vars, H vars → TrueNames vars scope) :
    Yields H (inner.statements fields key l scope) fun vars ts => ∀ t ∈ ts, Fitting vars t :=
  yields_withScope hscope (yields_reads_bind (fun _ _ => reads_items) fun _ _ =>
    yields_mapM fun v _ => hi.statement v l)

theorem yields_block : Yields H (inner.block fields key l) Fitting := by
  refine (yields_statements hi fun _ _ => List.forall_mem_nil _).bind fun ts =>
    yields_pure fun vars h => ?_
  exact Tree.fits_node trivial (by simpa [Shape.children, Shape.slots] using h.2)

theorem yields_block? : Yields H (inner.block? fields key l) fun vars o =>
    ∀ t ∈ o, Fitting vars t := by
  rw [block?]
  split
  · exact yields_pure fun vars _ t ht => by cases ht
  · refine (yields_block hi).bind fun t => yields_pure fun vars h u hu => ?_
    cases hu
    exact h.2

theorem yields_function : Yields H (inner.function fields l) Fitting := by
  refine yields_parameters.bind fun ps => ?_
  have hscope : ∀ vars, (H vars ∧ Denoting vars (· ≠ .field) ps) → TrueNames vars (scopeOf ps) :=
    fun vars h e he => (h.2 e (List.mem_reverse.mp he)).1
  extract_lets finish
  have hfinish : ∀ body, Yields (fun vars => (H vars ∧ Denoting vars (· ≠ .field) ps) ∧
      ∀ t ∈ body, Fitting vars t) (finish body) Fitting := by
    refine fun body => yields_reads_bind (fun _ _ => reads_modifiers) fun modifiers _ =>
      yields_pure fun vars h => Tree.fits_node (fun v hv => ?_) ?_
    · obtain ⟨e, he, rfl⟩ := List.mem_map.mp hv
      exact (h.1.2 e he).2
    · simpa [Shape.children, Shape.slots] using h.2
  split
  · refine (yields_withScope hscope (hi.expression _ l)).bind fun t =>
      (hfinish [.node l (.returnStatement (some t))]).mono (fun vars h => ⟨h.1, ?_⟩) fun _ _ h => h
    exact List.forall_mem_singleton.mpr
      (Tree.fits_node trivial (by simpa [Shape.children, Shape.slots] using h.2))
  · exact (yields_statements hi hscope).bind hfinish

/-! ### Expressions -/

omit hi in
theorem yields_variableAccess : Yields H (variableAccess fields l) Fitting := by
  refine yields_reads_bind (fun _ _ => reads_requireText) fun name _ =>
    yields_resolve.bind fun found => ?_
  cases found with
  | none => exact yields_reject
  | some v =>
    refine yields_pure fun vars h => Tree.fits_node (fun w hw => ?_) (List.forall_mem_nil _)
    exact h.2 w hw

/-- A member is sought among the fields of the innermost type only where no object stands in front. -/
theorem yields_memberAccess : Yields H (inner.memberAccess fields l) Fitting := by
  refine yields_reads_bind (fun _ _ => reads_requireText) fun name _ => ?_
  split
  · refine (hi.expression _ l).bind fun t => yields_pure fun vars h => Tree.fits_node ?_ ?_
    · rintro w ⟨⟩
    · simpa [Shape.children, Shape.slots] using h.2
  · refine yields_read.bind fun r => yields_pure fun vars h => Tree.fits_node (fun w hw => ?_) ?_
    · obtain ⟨scope, hscope, hlookup⟩ := Option.bind_eq_some_iff.mp hw
      exact ⟨rfl, (h.2 scope (List.mem_of_head? hscope)).lookup hlookup⟩
    · simp [Shape.children, Shape.slots]

theorem yields_expressionNode (v : Value) (outer : Location) :
    Yields H (inner.expressionNode v outer) Fitting := by
  cases v with
  | map fields =>
    refine yields_reads_bind (fun _ _ => reads_kindOf) fun kind _ =>
      yields_reads_bind (fun _ _ => reads_locate) fun l _ => ?_
    split
    · refine (yields_expression? hi).bind fun qualifier =>
        yields_reads_bind (fun _ _ => reads_requireText) fun name _ =>
          yields_reads_bind (fun _ _ => reads_text?) fun type _ =>
            (yields_arguments hi).bind fun ts => yields_pure fun vars h => Tree.fits_node trivial ?_
      simpa [Shape.children, Shape.slots, or_imp, forall_and] using ⟨h.1.2, h.2⟩
    · refine yields_reads_bind (fun _ _ => reads_requireText) fun typeName _ =>
        (yields_arguments hi).bind fun ts => yields_pure fun vars h => Tree.fits_node trivial ?_
      simpa [Shape.children, Shape.slots] using h.2
    · exact yields_variableAccess
    · exact yields_memberAccess hi
    · exact yields_pure fun vars _ => Tree.fits_node trivial (by simp [Shape.children, Shape.slots])
    · refine (yields_required hi).bind fun target => (yields_required hi).bind fun value =>
        yields_reads_bind (fun _ _ => reads_writtenField) fun operator _ =>
          yields_pure fun vars h => Tree.fits_node trivial ?_
      simpa [Shape.children, Shape.slots] using ⟨h.1.2, h.2⟩
    · refine (yields_required hi).bind fun target => (yields_expression? hi).bind fun index =>
        yields_pure fun vars h => Tree.fits_node trivial ?_
      simpa [Shape.children, Shape.slots, or_imp, forall_and] using ⟨h.1.2, h.2⟩
    · exact yields_function hi
    · refine yields_reads_bind (fun _ _ => reads_writtenField) fun operator _ =>
        yields_reads_bind (fun _ _ => reads_items) fun vs _ => (yields_expressions hi vs).bind fun ts =>
          yields_pure fun vars h => Tree.fits_node trivial ?_
      simpa [Shape.children, Shape.slots] using h.2
    · exact yields_reject
  | _ => exact yields_pure fun vars _ => Tree.fits_node trivial (by simp [Shape.children, Shape.slots])

/-! ### Statements -/

theorem yields_localNode : Yields H (inner.localNode fields l) Fitting := by
  refine yields_reads_bind (fun _ _ => reads_requireText) fun name _ =>
    yields_reads_bind (fun _ _ => reads_text?) fun type _ => yields_newVariable.bind fun v =>
      (yields_expression? hi).bind fun initializer =>
        (yields_declare fun vars h => h.1.2.1).bind fun _ => yields_pure fun vars h =>
          Tree.fits_node ?_ ?_
  · exact h.1.1.2.2.ne (by decide)
  · simpa [Shape.children, Shape.slots] using h.1.2

theorem yields_localFunctionNode : Yields H (inner.localFunctionNode fields l) Fitting := by
  refine yields_reads_bind (fun _ _ => reads_requireText) fun name _ =>
    yields_newVariable.bind fun v => (yields_declare fun vars h => h.2.1).bind fun _ =>
      (yields_function hi).bind fun t => yields_pure fun vars h => Tree.fits_node ?_ ?_
  · exact h.1.1.2.2.ne (by decide)
  · simpa [Shape.children, Shape.slots] using h.2

theorem yields_catchNode (v : Value) (outer : Location) :
    Yields H (inner.catchNode v outer) Fitting := by
  refine yields_reads_bind (fun _ _ => reads_mapping) fun fields _ =>
    yields_reads_bind (fun _ _ => reads_locate) fun l _ =>
      yields_reads_bind (fun _ _ => reads_caughtTypes) fun types _ => ?_
  extract_lets finish
  have hfinish : ∀ var, Yields (fun vars => H vars ∧ ∀ e, var = some e →
      IsNamed vars e.1 e.2 ∧ HasKind vars (· = .localVar) e.2) (finish var) Fitting := by
    intro var
    refine (yields_statements hi fun vars h e he => (h.2 e (Option.mem_toList.mp he)).1).bind fun ts =>
      yields_pure fun vars h => Tree.fits_node (fun w hw => ?_) ?_
    · obtain ⟨e, he, rfl⟩ := Option.map_eq_some_iff.mp hw
      exact (h.1.2 e he).2.ne (by decide)
    · have hblock : Fitting vars (.node l (.block ts)) :=
        Tree.fits_node trivial (by simpa [Shape.children, Shape.slots] using h.2)
      simpa [Shape.children, Shape.slots] using hblock
  have hnone : Yields H (finish none) Fitting :=
    (hfinish none).mono (fun vars h => ⟨h, fun e he => by cases he⟩) fun _ _ h => h
  split
  · split
    · refine yields_reads_bind (fun _ _ => reads_written) fun text _ =>
        yields_newVariable.bind fun v => (hfinish (some (text, v))).mono
          (fun vars h => ⟨h.1, ?_⟩) fun _ _ h => h
      rintro e ⟨⟩
      exact h.2
    · exact hnone
  · exact hnone

theorem yields_resourceNode (v : Value) (outer : Location) :
    Yields H (inner.resourceNode v outer) Fitting := by
  refine yields_reads_bind (fun _ _ => reads_mapping) fun fields _ => ?_
  split
  · exact yields_reads_bind (fun _ _ => reads_locate) fun l _ => yields_localNode hi
  · exact hi.expression v outer

theorem yields_usingNode : Yields H (inner.usingNode fields l) Fitting := by
  have hresources : ∀ {H}, Yields H
      (do (← items fields "resources").mapM fun v => inner.resourceNode v l)
      fun vars ts => ∀ t ∈ ts, Fitting vars t := by
    intro H
    exact yields_reads_bind (fun _ _ => reads_items) fun vs _ =>
      yields_mapM fun v _ => yields_resourceNode hi v l
  rw [usingNode]
  split
  · refine hresources.bind fun ts => yields_pure fun vars h => Tree.fits_node trivial ?_
    simpa [Shape.children, Shape.slots] using h.2
  · refine yields_withScope (fun _ _ => List.forall_mem_nil _) (hresources.bind fun ts =>
      (yields_block hi).bind fun body => yields_pure fun vars h => Tree.fits_node trivial ?_)
    simpa [Shape.children, Shape.slots, or_imp, forall_and] using ⟨h.1.2, h.2⟩

theorem yields_loopNode (kind : String) : Yields H (inner.loopNode kind fields l) Fitting := by
  refine yields_reads_bind (fun _ _ => reads_writtenField) fun name _ =>
    yields_withScope (fun _ _ => List.forall_mem_nil _)
      (yields_reads_bind (fun _ _ => reads_items) fun vs _ => ?_)
  have hdeclared : ∀ v ∈ vs, Yields H (do
      let declared ← mapping "loop variable" v
      inner.localNode declared (← locate declared l)) Fitting := fun v _ =>
    yields_reads_bind (fun _ _ => reads_mapping) fun declared _ =>
      yields_reads_bind (fun _ _ => reads_locate) fun l _ => yields_localNode hi
  refine (yields_mapM hdeclared).bind fun declarations =>
    yields_reads_bind (fun _ _ => reads_items) fun us _ => (yields_expressions hi us).bind fun header =>
      (yields_block hi).bind fun body => yields_pure fun vars h => Tree.fits_node trivial ?_
  simpa [Shape.children, Shape.slots, or_imp, forall_and] using ⟨h.1.1.2, h.1.2, h.2⟩

theorem yields_statementNode (v : Value) (outer : Location) :
    Yields H (inner.statementNode v outer) Fitting := by
  refine yields_reads_bind (fun _ _ => reads_mapping) fun fields _ =>
    yields_reads_bind (fun _ _ => reads_kindOf) fun kind _ =>
      yields_reads_bind (fun _ _ => reads_locate) fun l _ => ?_
  split
  · exact yields_block hi
  · refine (yields_block hi).bind fun body => yields_reads_bind (fun _ _ => reads_items) fun vs _ =>
      (yields_mapM fun v _ => yields_catchNode hi v l).bind fun catches =>
        (yields_block? hi).bind fun finally' => yields_pure fun vars h => Tree.fits_node trivial ?_
    simpa [Shape.children, Shape.slots, or_imp, forall_and] using ⟨h.1.1.2, h.1.2, h.2⟩
  · exact yields_reject
  · refine (yields_expression? hi).bind fun operand => yields_pure fun vars h =>
      Tree.fits_node trivial ?_
    simpa [Shape.children, Shape.slots] using h.2
  · refine (yields_expression? hi).bind fun value => yields_pure fun vars h =>
      Tree.fits_node trivial ?_
    simpa [Shape.children, Shape.slots] using h.2
  · exact yields_localNode hi
  · exact yields_localFunctionNode hi
  · refine (yields_required hi).bind fun target => (yields_block hi).bind fun body =>
      yields_pure fun vars h => Tree.fits_node trivial ?_
    simpa [Shape.children, Shape.slots] using ⟨h.1.2, h.2⟩
  · exact yields_usingNode hi
  · refine (yields_required hi).bind fun expression => yields_pure fun vars h =>
      Tree.fits_node trivial ?_
    simpa [Shape.children, Shape.slots] using h.2
  · refine (yields_required hi).bind fun condition => (yields_block hi).bind fun thenBranch =>
      (yields_block? hi).bind fun elseBranch => yields_pure fun vars h => Tree.fits_node trivial ?_
    simpa [Shape.children, Shape.slots, or_imp, forall_and] using ⟨h.1.1.2, h.1.2, h.2⟩
  · split
    · exact yields_loopNode hi _
    · exact yields_reject
  · exact yields_reject

/-! ### Declarations -/

omit hi in
theorem yields_fieldScope (members : List Fields)
    (hscope : ∀ vars, H vars → Denoting vars (· = .field) scope) :
    Yields H (fieldScope members scope) fun vars => Denoting vars (· = .field) := by
  induction members generalizing H scope with
  | nil => exact yields_pure hscope
  | cons member rest ih =>
    refine yields_reads_bind (fun _ _ => reads_isField) fun isField _ => ?_
    split
    · refine yields_reads_bind (fun _ _ => reads_requireText) fun name _ => ?_
      split
      · exact (yields_reject (P := fun _ _ => False)).bind fun _ => yields_reads_bind
          (fun _ _ => reads_modifiers) fun _ _ r s a s' _ _ hfalse => (hfalse _ (.refl _)).2.elim
      · refine yields_reads_bind (fun _ _ => reads_modifiers) fun _ _ =>
          yields_reads_bind (fun _ _ => reads_text?) fun type _ => yields_newVariable.bind fun v =>
            ih fun vars h => List.forall_mem_append.mpr ⟨hscope vars h.1, ?_⟩
        exact List.forall_mem_singleton.mpr h.2
    · exact ih hscope

theorem yields_fieldNode : Yields H (inner.fieldNode fields l) Fitting := by
  refine yields_reads_bind (fun _ _ => reads_requireText) fun name _ => yields_read.bind fun r =>
    yields_reads_bind (fun _ _ => reads_qualified) fun qualifiedName _ =>
      yields_reads_bind (fun _ _ => reads_modifiers) fun modifiers _ => ?_
  extract_lets finish
  have hfinish : ∀ initializer : Option Tree, Yields (fun vars =>
      (H vars ∧ ∀ scope ∈ r.fields, Denoting vars (· = .field) scope) ∧
        ∀ t ∈ initializer, Fitting vars t) (finish initializer) Fitting := by
    refine fun initializer => yields_pure fun vars h => Tree.fits_node
      ⟨List.forall_mem_nil _, fun v hv => ⟨rfl, ?_⟩⟩ ?_
    · obtain ⟨scope, hscope, hlookup⟩ := Option.bind_eq_some_iff.mp hv
      exact ((h.1.2 scope (List.mem_of_head? hscope)).lookup hlookup).2
    · simpa [Shape.children, Shape.slots] using h.2
  have hnone := (hfinish none).mono (fun vars h => ⟨h, fun t ht => by cases ht⟩) fun _ _ h => h
  split
  · exact hnone
  · exact hnone
  · refine (hi.expression _ l).bind fun t => (hfinish (some t)).mono (fun vars h => ⟨h.1, ?_⟩)
      fun _ _ h => h
    rintro u ⟨⟩
    exact h.2

theorem yields_memberNode (member : Fields) (outer : Location) :
    Yields H (inner.memberNode member outer) Fitting := by
  refine yields_reads_bind (fun _ _ => reads_locate) fun l _ =>
    yields_reads_bind (fun _ _ => reads_isField) fun isField _ => ?_
  split
  · exact yields_fieldNode hi
  · exact hi.declaration member outer

theorem yields_typeNode : Yields H (inner.typeNode fields l) Fitting := by
  refine yields_reads_bind (fun _ _ => reads_requireText) fun name _ =>
    yields_reads_bind (fun _ _ => reads_items) fun vs _ =>
      yields_reads_bind (fun _ _ => reads_mapM vs fun v _ => reads_mapping) fun members _ =>
        (yields_fieldScope members fun _ _ => List.forall_mem_nil _).bind fun scope => ?_
  refine (yields_withReader (fun _ => rfl) (fun _ h => h.2)
    (yields_mapM fun member _ => yields_memberNode hi member l)).bind fun trees =>
      yields_reads_bind (fun _ _ => reads_qualified) fun qualifiedName _ =>
        yields_reads_bind (fun _ _ => reads_modifiers) fun modifiers _ => yields_pure fun vars h =>
          Tree.fits_node ⟨List.forall_mem_nil _, fun v hv => by cases hv⟩ ?_
  simpa [Shape.children, Shape.slots] using h.2

theorem yields_methodNode : Yields H (inner.methodNode fields l) Fitting := by
  refine yields_reads_bind (fun _ _ => reads_methodName) fun name _ => yields_parameters.bind fun ps =>
    (yields_statements hi fun vars h e he => (h.2 e (List.mem_reverse.mp he)).1).bind fun body =>
      yields_reads_bind (fun _ _ => reads_qualified) fun qualifiedName _ =>
        yields_reads_bind (fun _ _ => reads_modifiers) fun modifiers _ => yields_pure fun vars h =>
          Tree.fits_node ⟨fun v hv => ?_, fun v hv => by cases hv⟩ ?_
  · obtain ⟨e, he, rfl⟩ := List.mem_map.mp hv
    exact (h.1.2 e he).2
  · simpa [Shape.children, Shape.slots] using h.2

theorem yields_declarationNode (fields : Fields) (outer : Location) :
    Yields H (inner.declarationNode fields outer) Fitting := by
  refine yields_reads_bind (fun _ _ => reads_kindOf) fun kind _ =>
    yields_reads_bind (fun _ _ => reads_locate) fun l _ => ?_
  split
  · exact yields_reject
  · split
    · exact yields_typeNode hi
    · split
      · exact yields_methodNode hi
      · split
        · exact yields_reads_bind (fun _ _ => reads_written) fun _ _ => yields_reject
        · exact yields_reject

end Converters

/-- **All converters give trees whose nodes fit.** -/
theorem yield_converters (depth : Nat) : (converters depth).Yield := by
  induction depth with
  | zero => exact ⟨fun _ _ => yields_reject, fun _ _ => yields_reject, fun _ _ => yields_reject⟩
  | succ depth ih =>
    exact ⟨Converters.yields_expressionNode ih, Converters.yields_statementNode ih,
      Converters.yields_declarationNode ih⟩

/-! ## Loaded units -/

theorem yields_unitNode (depth : Nat) (fields : Fields) :
    Yields (fun _ => True) (unitNode depth fields) Fitting := by
  refine yields_reads_bind (fun _ _ => reads_comments) fun comments _ =>
    yields_reads_bind (fun _ _ => reads_disposableTypes) fun types _ =>
      yields_reads_bind (fun _ _ => reads_items) fun vs _ => ?_
  have hdeclaration : ∀ l, ∀ v ∈ vs, Yields (fun _ => True) (do
      (converters depth).declaration (← mapping "declaration" v) l) Fitting := fun l v _ =>
    yields_reads_bind (fun _ _ => reads_mapping) fun fields _ =>
      (yield_converters depth).declaration fields l
  refine (yields_mapM (hdeclaration _)).bind fun declarations =>
    yields_reads_bind (fun _ _ => reads_writtenField) fun language _ =>
      yields_reads_bind (fun _ _ => reads_mapM types fun _ _ => reads_written) fun names _ =>
        yields_read.bind fun r => yields_pure fun vars h => Tree.fits_node trivial ?_
  simpa [Shape.children, Shape.slots] using h.1.2

theorem fitting_of_tree {fields : Fields} {path : Path} {t : Tree} {vars : Array Variable}
    (h : tree fields path = .ok (t, vars)) : Fitting vars t := by
  have htree : tree fields path = ((unitNode ((Value.map fields).depth + 1) fields)
      { path, types := [], fields := [] } { vars := #[], scopes := [] }).bind
        fun built => .ok (built.1, built.2.vars) := rfl
  rw [htree] at h
  rcases hunit : unitNode ((Value.map fields).depth + 1) fields { path, types := [], fields := [] }
      { vars := #[], scopes := [] } with e | ⟨t', s⟩
  · rw [hunit] at h
    cases h
  · rw [hunit] at h
    cases h
    obtain ⟨-, -, hfitting⟩ := yields_unitNode _ _ _ _ _ _ hunit
      ⟨List.forall_mem_nil _, List.forall_mem_nil _⟩ fun _ _ => trivial
    exact hfitting _ (.refl _)

/-- **References in the unit of a document mean what they say.** -/
theorem refers_of_load {document : Value} {path : Option Path} {m : Model}
    (h : load document path = .ok m) : m.Refers := by
  rcases load_resolved_or_rejects document path with
    ⟨fields, p, t, vars, m', rfl, hp, htree, hm, hload, -⟩ | ⟨e, herror, -⟩
  · cases h.symm.trans hload
    rcases tree_spec fields p with ⟨t', vars', htree', hbuilt⟩ | ⟨e, herror, -⟩
    · cases htree.symm.trans htree'
      obtain ⟨m', hm', hshows⟩ := hbuilt.exists_model
      cases hm.symm.trans hm'
      exact hshows.refers (fitting_of_tree htree)
    · cases htree.symm.trans herror
  · cases h.symm.trans herror

end ModelLint.Document
