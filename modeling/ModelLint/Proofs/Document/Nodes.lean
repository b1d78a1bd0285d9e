import ModelLint.Proofs.Document.Building

/-!
# The nodes of a document

The converter of each kind of node keeps the account, if the converters of the nodes inside do. Since
these are one level of nesting below, all converters do, and a document is nested less deeply than
the converters for it reach.

* `Gives`: a step gives a tree, with an account that owes nothing.
* `Converters.Accounts`: converters keep the account of what is nested less deeply than a number.
* `runs_mapM`: what a loop keeps, by what each turn keeps.
* **`accounts_converters`**: the converters for a depth keep the account up to this depth.
-/

namespace ModelLint.Document

open Tree (sums)

/-- A step gives a tree, with an account that owes nothing. -/
abbrev Gives (x : Load Tree) (r : Surroundings) (s : Progress) (K : Tree → Prop) : Prop :=
  Runs x r s fun t s' => Built r s [t] [] [] s' ∧ K t

/-- The tree of an expression or a declaration. -/
abbrev Plain (t : Tree) : Prop := t.shape.isStatement = false

/-- **Converters keep the account** of what is nested less deeply than a number. Statements are
converted where a scope is open. -/
structure Converters.Accounts (inner : Converters) (n : Nat) : Prop where
  /-- Expressions. -/
  expression : ∀ v l, v.depth < n → ∀ r s, Valid r s → Gives (inner.expression v l) r s Plain
  /-- Statements. -/
  statement : ∀ v l, v.depth < n → ∀ r s, Valid r s → s.scopes ≠ [] →
    Gives (inner.statement v l) r s fun _ => True
  /-- Declarations. -/
  declaration : ∀ fields l, (Value.map fields).depth < n → ∀ r s, Valid r s →
    Gives (inner.declaration fields l) r s Plain

/-! ## Loops -/

section Loops

variable {α β : Type} {r : Surroundings} {s : Progress}

/-- A loop, by what it keeps. -/
theorem runs_mapM {f : α → Load β} {I : List β → List α → Progress → Prop} : (xs : List α) →
    (∀ x ∈ xs, ∀ ys rest s, I ys (x :: rest) s →
      Runs (f x) r s fun y s' => I (ys ++ [y]) rest s') →
    {ys : List β} → {s : Progress} → I ys xs s →
      Runs (xs.mapM f) r s fun zs s' => I (ys ++ zs) [] s'
  | [], _, ys, s, h => by
    rw [List.mapM_nil]
    exact runs_pure (by rwa [List.append_nil])
  | x :: xs, hstep, ys, s, h => by
    rw [List.mapM_cons]
    refine (hstep x List.mem_cons_self ys xs s h).bind fun y s₁ h₁ => ?_
    refine (runs_mapM xs (fun z hz => hstep z (List.mem_cons_of_mem x hz)) h₁).bind
      fun zs s₂ h₂ => runs_pure ?_
    rwa [List.append_assoc, List.singleton_append] at h₂

/-- A loop that gives trees, which pay for some variables. -/
theorem runs_paidTrees {f : α → Load Tree} {K : Tree → Prop} (paid : α → List VariableId)
    (hs : Valid r s) (xs : List α)
    (hf : ∀ x ∈ xs, ∀ s', Valid r s' → s'.scopes.length = s.scopes.length →
      Runs (f x) r s' fun t s'' => Built r s' [t] (paid x) [] s'' ∧ K t) :
    Runs (xs.mapM f) r s fun ts s' => Built r s ts (xs.flatMap paid) [] s' ∧ ∀ t ∈ ts, K t := by
  have hloop := runs_mapM (f := f) (r := r) (I := fun ts rest s' => ∃ done, xs = done ++ rest ∧
      Built r s ts (done.flatMap paid) [] s' ∧ ∀ t ∈ ts, K t) xs
    (fun x hx ts rest s₁ ⟨done, hdone, h₁, hts⟩ => ?_) ⟨[], rfl, .refl r s, fun t ht => nomatch ht⟩
  · refine hloop.mono fun ts s' ⟨done, hdone, h, hts⟩ => ?_
    rw [List.append_nil] at hdone
    rw [hdone]
    exact ⟨h, hts⟩
  · refine (hf x hx s₁ (h₁.valid hs) h₁.scopes_length).mono fun t s₂ ⟨h₂, ht⟩ => ?_
    refine ⟨done ++ [x], by simp [hdone], ?_, fun u hu => ?_⟩
    · rw [List.flatMap_append, List.flatMap_singleton]
      exact h₁.trans hs h₂
    · rcases List.mem_append.mp hu with hu | hu
      · exact hts u hu
      · cases List.mem_singleton.mp hu
        exact ht

theorem runs_trees {f : α → Load Tree} {K : Tree → Prop} (hs : Valid r s) (xs : List α)
    (hf : ∀ x ∈ xs, ∀ s', Valid r s' → s'.scopes.length = s.scopes.length → Gives (f x) r s' K) :
    Runs (xs.mapM f) r s fun ts s' => Built r s ts [] [] s' ∧ ∀ t ∈ ts, K t := by
  refine (runs_paidTrees (fun _ => []) hs xs hf).mono fun ts s' ⟨h, hts⟩ => ⟨?_, hts⟩
  have hnil : xs.flatMap (fun _ => ([] : List VariableId)) = [] :=
    List.flatMap_eq_nil_iff.mpr fun _ _ => rfl
  rwa [hnil] at h

theorem runs_parameters {fields : Fields} (hs : Valid r s) :
    Runs (parameters fields) r s fun ps s' =>
      Built r s [] [] (ps.map (·.2)) s' ∧ s'.scopes = s.scopes := by
  refine reads_items.bind fun raws _ => ?_
  have hstart : Built r s [] [] (([] : Scope).map (·.2)) s ∧ s.scopes = s.scopes := ⟨.refl r s, rfl⟩
  refine runs_mapM (I := fun (ps : Scope) _ s' => Built r s [] [] (ps.map (·.2)) s' ∧
    s'.scopes = s.scopes) raws (fun raw _ ps rest s₁ ⟨h₁, hscopes⟩ => ?_) hstart
  have hnew : ∀ fields : Fields, Runs (do
      let name ← requireText fields "name"
      let typeName ← text? fields "type"
      return (name, ← newVariable name typeName .parameter false)) r s₁ fun p s' =>
        Built r s [] [] ((ps ++ [p]).map (·.2)) s' ∧ s'.scopes = s.scopes := by
    intro fields
    refine reads_requireText.bind fun name _ => reads_text?.bind fun type _ => ?_
    refine runs_newVariable.bind fun v s₂ ⟨h₂, _, hscopes'⟩ => runs_pure ⟨?_, ?_⟩
    · rw [List.map_append]
      exact h₁.trans hs h₂
    · rw [hscopes', hscopes]
  cases raw with
  | str name => exact (reads_pure (P := fun _ => True) trivial).bind fun fields _ => hnew fields
  | _ => exact reads_mapping.bind fun fields _ => hnew fields

end Loops

namespace Converters

variable {inner : Converters} {n : Nat} {fields : Fields} {key : String} {l : Location}
  {r : Surroundings} {s : Progress}

section Parts

variable (hi : inner.Accounts n) (hn : Value.entryDepths fields < n) (hs : Valid r s)

include hi hn hs

/-! ## Parts of nodes -/

theorem expression?_runs : Runs (inner.expression? fields key l) r s fun o s' =>
    Built r s o.toList [] [] s' ∧ ∀ t ∈ o, Plain t := by
  rw [expression?]
  split
  · exact runs_pure ⟨.refl r s, fun t ht => nomatch ht⟩
  · next v hfield =>
    have hdepth := depth_of_field? hfield
    refine (hi.expression v l (by omega) r s hs).bind fun t s₁ ⟨h₁, ht⟩ => runs_pure ⟨h₁, ?_⟩
    intro u hu
    cases hu
    exact ht

theorem required_gives : Gives (inner.required fields key l) r s Plain := by
  refine reads_require.bind fun v hfield => ?_
  have hdepth := depth_of_field? hfield
  exact hi.expression v l (by omega) r s hs

theorem expressions_runs {vs : List Value} (hvs : ∀ v ∈ vs, v.depth < Value.entryDepths fields) :
    Runs (vs.mapM fun v => inner.expression v l) r s fun ts s' =>
      Built r s ts [] [] s' ∧ ∀ t ∈ ts, Plain t := by
  refine runs_trees hs vs fun v hv s' hs' _ => ?_
  have hdepth := hvs v hv
  exact hi.expression v l (by omega) r s' hs'

theorem arguments_runs : Runs (inner.arguments fields l) r s fun ts s' =>
    Built r s ts [] [] s' ∧ ∀ t ∈ ts, Plain t :=
  reads_items.bind fun _ hvs => expressions_runs hi hn hs hvs

omit hs in
/-- Statements are converted in a scope of new variables, which is closed behind them. -/
theorem statements_runs {s₁ : Progress} {scope : Scope} {owed : List VariableId} (hs : Valid r s)
    (h : Built r s [] [] owed s₁) (hscope : ∀ e ∈ scope, e.2 ∈ owed) :
    Runs (inner.statements fields key l scope) r s₁ fun ts s' =>
      Built r s ts [] owed s' ∧ s'.scopes = s₁.scopes := by
  refine runs_withScope (reads_items.bind fun vs hvs => ?_)
  have hvalid := valid_inScope hs h hscope
  refine (runs_trees (K := fun _ => True) hvalid vs fun v hv s' hs' hlength => ?_).mono
    fun ts s₂ ⟨h₂, _⟩ => h.inScope hscope h₂
  have hdepth := hvs v hv
  refine hi.statement v l (by omega) r s' hs' fun hnil => ?_
  rw [hnil] at hlength
  cases hlength

theorem block_runs : Runs (inner.block fields key l) r s fun t s' =>
    Built r s [t] [] [] s' ∧ ∃ statements, t.shape = .block statements := by
  have hscope : ∀ e ∈ ([] : Scope), e.2 ∈ ([] : List VariableId) := fun e he => nomatch he
  refine (statements_runs hi hn hs (.refl r s) hscope).bind fun ts s₁ ⟨h₁, _⟩ => ?_
  refine runs_pure ⟨h₁.statement rfl trivial ?_ (.refl _), ts, rfl⟩
  simp [Shape.children, Shape.slots]

theorem block?_runs : Runs (inner.block? fields key l) r s fun o s' =>
    Built r s o.toList [] [] s' := by
  rw [block?]
  split
  · exact runs_pure (.refl r s)
  · exact (block_runs hi hn hs).bind fun t s₁ ⟨h₁, _⟩ => runs_pure h₁

theorem function_gives : Gives (inner.function fields l) r s Plain := by
  apply (runs_parameters hs).bind
  rintro ps s₁ ⟨h₁, hscopes⟩
  have hscope : ∀ e ∈ scopeOf ps, e.2 ∈ ps.map (·.2) := fun e he =>
    List.mem_map.mpr ⟨e, List.mem_reverse.mp he, rfl⟩
  extract_lets finish
  have hfinish : ∀ body s₂, Built r s body [] (ps.map (·.2)) s₂ ∧ s₂.scopes = s₁.scopes →
      Runs (finish body) r s₂ fun t s' => Built r s [t] [] [] s' ∧ Plain t := by
    rintro body s₂ ⟨h₂, hscopes₂⟩
    refine reads_modifiers.bind fun _ _ => runs_pure ⟨?_, rfl⟩
    refine h₂.node ?_ (.of_eq (List.append_nil _).symm) ?_ (by simp [Shape.mention?]) fun _ => ?_
    · simp [Shape.children, Shape.slots]
    · exact .expression rfl (fun hfunction => absurd trivial hfunction) (by simp)
    · rw [hscopes₂, hscopes]
  split
  · next v hfield =>
    have hdepth := depth_of_field? hfield
    have hvalue : Runs (withScope (scopeOf ps) (inner.expression v l)) r s₁ fun t s' =>
        Built r s [t] [] (ps.map (·.2)) s' ∧ s'.scopes = s₁.scopes :=
      runs_withScope ((hi.expression v l (by omega) r _ (valid_inScope hs h₁ hscope)).mono
        fun t s₂ h₂ => h₁.inScope hscope h₂.1)
    refine hvalue.bind fun t s₂ h₂ => hfinish _ s₂ ⟨?_, h₂.2⟩
    exact h₂.1.statement rfl trivial (.refl _) (.refl _)
  · exact (statements_runs hi hn hs h₁ hscope).bind fun body s₂ h₂ => hfinish body s₂ h₂

end Parts

/-! ## Expressions -/

theorem variableAccess_gives : Gives (variableAccess fields l) r s Plain := by
  refine reads_requireText.bind fun name _ => reads_resolve.bind fun found hfound => ?_
  rcases found with _ | v
  · exact runs_reject trivial
  · refine runs_pure ⟨(Built.refl r s).node (.refl _) (.refl _) ?_ ?_ fun hf => hf.elim, rfl⟩
    · refine .expression rfl (fun _ c hc => nomatch hc) fun name w heq hnone => ?_
      cases heq
      cases hnone
    · intro w hw
      cases hw
      exact ⟨rfl, hfound v rfl⟩

theorem memberAccess_gives (hi : inner.Accounts n) (hn : Value.entryDepths fields < n)
    (hs : Valid r s) : Gives (inner.memberAccess fields l) r s Plain := by
  refine reads_requireText.bind fun name _ => ?_
  split
  · next target hfield =>
    have hdepth := depth_of_field? hfield
    refine (hi.expression target l (by omega) r s hs).bind fun t s₁ ⟨h₁, ht⟩ => runs_pure ⟨?_, rfl⟩
    refine h₁.expression rfl (fun u hu => ?_) (.refl _) rfl (fun _ _ heq => nomatch heq) (·.elim) rfl
    cases List.mem_singleton.mp hu
    exact ht
  · refine runs_read_bind (runs_pure ⟨(Built.refl r s).node (.refl _) (.refl _) ?_ ?_
      fun hf => hf.elim, rfl⟩)
    · exact .expression rfl (fun _ c hc => nomatch hc) fun _ _ heq => nomatch heq
    · intro v hv
      refine ⟨rfl, ?_⟩
      obtain ⟨names, hnames, hlookup⟩ := Option.bind_eq_some_iff.mp hv
      obtain ⟨before, after, rfl, -⟩ := List.lookup_eq_some_iff.mp hlookup
      exact ⟨_, List.mem_append_right _ (List.mem_of_head? hnames), name, by simp⟩

theorem literal_gives {c : Constant} : Built r s [.node l (.literal c)] [] [] s :=
  (Built.refl r s).expression rfl (fun _ ht => nomatch ht) (.refl _) rfl (fun _ _ heq => nomatch heq)
    (·.elim) rfl

/-- The converter of expressions keeps the account one level further up. -/
theorem expressionNode_gives (hi : inner.Accounts n) {v : Value} (hv : v.depth < n + 1)
    (hs : Valid r s) : Gives (inner.expressionNode v l) r s Plain := by
  cases v with
  | map fields =>
    have hn : Value.entryDepths fields < n := by
      rw [Value.depth] at hv
      omega
    refine reads_kindOf.bind fun kind _ => reads_locate.bind fun l _ => ?_
    split
    · apply (expression?_runs hi hn hs).bind
      rintro qualifier s₁ ⟨h₁, hqualifier⟩
      refine reads_requireText.bind fun name _ => reads_text?.bind fun declaringType _ => ?_
      apply (arguments_runs hi hn (h₁.valid hs)).bind
      rintro ts s₂ ⟨h₂, hts⟩
      refine runs_pure ⟨?_, rfl⟩
      refine (h₁.trans hs h₂).expression rfl (fun t ht => ?_) ?_ rfl (by simp)
        (·.elim) rfl
      · rcases List.mem_append.mp ht with ht | ht
        · exact hqualifier t (by simpa using ht)
        · exact hts t ht
      · simp [Shape.children, Shape.slots]
    · refine reads_requireText.bind fun typeName _ => ?_
      apply (arguments_runs hi hn hs).bind
      rintro ts s₁ ⟨h₁, hts⟩
      refine runs_pure ⟨?_, rfl⟩
      refine h₁.expression rfl hts ?_ rfl (by simp) (·.elim) rfl
      simp [Shape.children, Shape.slots]
    · exact variableAccess_gives
    · exact memberAccess_gives hi hn hs
    · exact runs_pure ⟨literal_gives, rfl⟩
    · apply (required_gives hi hn hs).bind
      rintro target s₁ ⟨h₁, htarget⟩
      apply (required_gives hi hn (h₁.valid hs)).bind
      rintro value s₂ ⟨h₂, hvalue⟩
      refine reads_writtenField.bind fun operator _ => runs_pure
        ⟨(h₁.trans hs h₂).expression rfl (fun t ht => ?_) (.refl _) rfl (by simp) (·.elim) rfl, rfl⟩
      rcases List.mem_pair.mp ht with rfl | rfl
      · exact htarget
      · exact hvalue
    · apply (required_gives hi hn hs).bind
      rintro target s₁ ⟨h₁, htarget⟩
      apply (expression?_runs hi hn (h₁.valid hs)).bind
      rintro index s₂ ⟨h₂, hindex⟩
      refine runs_pure ⟨(h₁.trans hs h₂).expression rfl (fun t ht => ?_) ?_ rfl
        (by simp) (·.elim) rfl, rfl⟩
      · rcases List.mem_cons.mp ht with rfl | ht
        · exact htarget
        · exact hindex t (by simpa using ht)
      · simp [Shape.children, Shape.slots]
    · exact function_gives hi hn hs
    · refine reads_writtenField.bind fun operator _ => reads_items.bind fun vs hvs => ?_
      apply (expressions_runs hi hn hs hvs).bind
      rintro ts s₁ ⟨h₁, hts⟩
      refine runs_pure ⟨?_, rfl⟩
      refine h₁.expression rfl hts ?_ rfl (by simp) (·.elim) rfl
      simp [Shape.children, Shape.slots]
    · exact runs_reject trivial
  | _ => exact runs_pure ⟨literal_gives, rfl⟩

/-! ## Statements -/

section Statements

variable (hi : inner.Accounts n) (hn : Value.entryDepths fields < n) (hs : Valid r s)

include hi hn hs

theorem localNode_gives (hopen : s.scopes ≠ []) :
    Gives (inner.localNode fields l) r s fun _ => True := by
  refine reads_requireText.bind fun name _ => reads_text?.bind fun type _ => ?_
  refine runs_newVariable.bind fun v s₁ ⟨h₁, hkind, _⟩ => ?_
  refine (expression?_runs hi hn (h₁.valid hs)).bind fun initializer s₂ ⟨h₂, _⟩ => ?_
  have h₁₂ : Built r s initializer.toList [] [v] s₂ := h₁.trans hs h₂
  refine (runs_declare h₁₂ (List.mem_singleton_self v) hopen).bind fun _ s₃ ⟨h₃, hvars⟩ => ?_
  refine runs_pure ⟨h₃.statement rfl ?_ ?_ (.refl _), trivial⟩
  · rw [hvars]
    exact hkind.extends h₂.vars
  · simp [Shape.children, Shape.slots]

theorem localFunctionNode_gives (hopen : s.scopes ≠ []) :
    Gives (inner.localFunctionNode fields l) r s fun _ => True := by
  refine reads_requireText.bind fun name _ => ?_
  refine runs_newVariable.bind fun v s₁ ⟨h₁, hkind, _⟩ => ?_
  refine (runs_declare h₁ (List.mem_singleton_self v) hopen).bind fun _ s₂ ⟨h₂, hvars⟩ => ?_
  refine (function_gives hi hn (h₂.valid hs)).bind fun t s₃ ⟨h₃, _⟩ => ?_
  refine runs_pure ⟨(h₂.trans hs h₃).statement rfl ?_ (.refl _) (.refl _), trivial⟩
  rw [← hvars] at hkind
  exact hkind.extends h₃.vars

theorem resources_runs (hopen : s.scopes ≠ []) :
    Runs (do (← items fields "resources").mapM fun v => inner.resourceNode v l) r s
      fun ts s' => Built r s ts [] [] s' := by
  refine reads_items.bind fun vs hvs => ?_
  refine (runs_trees (K := fun _ => True) hs vs fun v hv s' hs' hlength => ?_).mono fun _ _ h => h.1
  have hdepth := hvs v hv
  have hopen' : s'.scopes ≠ [] := fun hnil => by
    rw [hnil] at hlength
    exact hopen (List.length_eq_zero_iff.mp hlength.symm)
  refine reads_mapping.bind fun resource hresource => ?_
  subst hresource
  rw [Value.depth] at hdepth
  split
  · exact reads_locate.bind fun l' _ => localNode_gives hi (by omega) hs' hopen'
  · refine (hi.expression _ l ?_ r s' hs').mono fun t s'' h => ⟨h.1, trivial⟩
    rw [Value.depth]
    omega

omit hi hn in
/-- A scope is opened for what one node is made of. -/
theorem runs_ownScope {x : Load Tree}
    (h : ∀ s', Valid r s' → s'.scopes ≠ [] → Gives x r s' fun _ => True) :
    Gives (withScope [] x) r s fun _ => True := by
  have hscope : ∀ e ∈ ([] : Scope), e.2 ∈ ([] : List VariableId) := fun e he => nomatch he
  refine runs_withScope ((h _ (valid_inScope hs (.refl r s) hscope) (List.cons_ne_nil _ _)).mono
    fun t s' ⟨h', _⟩ => ⟨((Built.refl r s).inScope hscope h').1, trivial⟩)

theorem usingNode_gives (hopen : s.scopes ≠ []) :
    Gives (inner.usingNode fields l) r s fun _ => True := by
  rw [usingNode]
  split
  · refine (resources_runs hi hn hs hopen).bind fun ts s₁ h₁ => runs_pure ⟨?_, trivial⟩
    refine h₁.statement rfl trivial ?_ (.refl _)
    simp [Shape.children, Shape.slots]
  · refine runs_ownScope hs fun s' hs' hopen' => ?_
    refine (resources_runs hi hn hs' hopen').bind fun ts s₁ h₁ => ?_
    apply (block_runs hi hn (h₁.valid hs')).bind
    rintro body s₂ ⟨h₂, hblock⟩
    refine runs_pure ⟨(h₁.trans hs' h₂).statement rfl hblock ?_ (.refl _), trivial⟩
    simp [Shape.children, Shape.slots]

theorem loopNode_gives {kind : String} : Gives (inner.loopNode kind fields l) r s fun _ => True := by
  refine reads_writtenField.bind fun name _ => ?_
  refine runs_ownScope hs fun s₀ hs₀ hopen => reads_items.bind fun vs hvs => ?_
  refine (runs_trees (K := fun _ => True) hs₀ vs fun v hv s' hs' hlength => ?declarations).bind ?rest
  case declarations =>
    have hdepth := hvs v hv
    refine reads_mapping.bind fun declared hdeclared => reads_locate.bind fun l' _ => ?_
    subst hdeclared
    rw [Value.depth] at hdepth
    refine localNode_gives hi (by omega) hs' fun hnil => ?_
    rw [hnil] at hlength
    exact hopen (List.length_eq_zero_iff.mp hlength.symm)
  case rest =>
    rintro declarations s₁ ⟨h₁, -⟩
    have hs₁ := h₁.valid hs₀
    refine reads_items.bind fun vs hvs => ?_
    apply (expressions_runs hi hn hs₁ hvs).bind
    rintro header s₂ ⟨h₂, -⟩
    apply (block_runs hi hn (h₂.valid hs₁)).bind
    rintro body s₃ ⟨h₃, -⟩
    refine runs_pure ⟨?_, trivial⟩
    refine ((h₁.trans hs₀ h₂).trans hs₀ h₃).statement rfl trivial ?_ (.refl _)
    simp [Shape.children, Shape.slots]

end Statements

theorem reads_caughtTypes : Reads (caughtTypes fields) r s fun _ => True := by
  have hwritten : ∀ vs : List Value, Reads (vs.mapM written) r s fun _ => True := fun vs =>
    (reads_mapM vs fun _ _ => reads_written).mono fun _ _ => trivial
  rw [caughtTypes]
  split
  · exact hwritten _
  · exact runs_reject trivial
  · split
    · split
      · exact hwritten _
      · exact reads_pure trivial
    · exact reads_pure trivial

theorem catchNode_gives (hi : inner.Accounts n) {v : Value} (hv : v.depth < n) (hs : Valid r s) :
    Gives (inner.catchNode v l) r s fun _ => True := by
  refine reads_mapping.bind fun fields hfields => reads_locate.bind fun l _ =>
    reads_caughtTypes.bind fun types _ => ?_
  subst hfields
  rw [Value.depth] at hv
  extract_lets finish
  have hfinish : ∀ (var : Option (String × VariableId)) s₁,
      Built r s [] [] (var.toList.map (·.2)) s₁ →
        Runs (finish var) r s₁ fun t s' => Built r s [t] [] [] s' ∧ True := by
    intro var s₁ h₁
    have hscope : ∀ e ∈ var.toList, e.2 ∈ var.toList.map (·.2) := fun e he =>
      List.mem_map.mpr ⟨e, he, rfl⟩
    apply (statements_runs hi (by omega) hs h₁ hscope).bind
    rintro ts s₂ ⟨h₂, -⟩
    refine runs_pure ⟨?_, trivial⟩
    have hbody : Built r s [.node l (.block ts)] [] (var.toList.map (·.2)) s₂ := by
      refine h₂.statement rfl trivial ?_ (.refl _)
      simp [Shape.children, Shape.slots]
    refine hbody.statement rfl trivial (.refl _) ?_
    cases var <;> simp [Shape.introduced]
  split
  · split
    · exact reads_written.bind fun name _ => runs_newVariable.bind fun v s₁ h₁ =>
        hfinish (some _) s₁ h₁.1
    · exact hfinish none s (.refl r s)
  · exact hfinish none s (.refl r s)

/-- The converter of statements keeps the account one level further up. -/
theorem statementNode_gives (hi : inner.Accounts n) {v : Value} (hv : v.depth < n + 1)
    (hs : Valid r s) (hopen : s.scopes ≠ []) :
    Gives (inner.statementNode v l) r s fun _ => True := by
  refine reads_mapping.bind fun fields hfields => reads_kindOf.bind fun kind _ =>
    reads_locate.bind fun l _ => ?_
  subst hfields
  have hn : Value.entryDepths fields < n := by
    rw [Value.depth] at hv
    omega
  split
  · exact (block_runs hi hn hs).mono fun t s₁ h₁ => ⟨h₁.1, trivial⟩
  · apply (block_runs hi hn hs).bind
    rintro body s₁ ⟨h₁, -⟩
    refine reads_items.bind fun vs hvs => ?_
    have hs₁ := h₁.valid hs
    refine (runs_trees (K := fun _ => True) hs₁ vs fun c hc s' hs' _ => ?catches).bind ?rest
    case catches =>
      have hdepth := hvs c hc
      exact catchNode_gives hi (by omega) hs'
    case rest =>
      rintro catches s₂ ⟨h₂, -⟩
      refine (block?_runs hi hn (h₂.valid hs₁)).bind fun last s₃ h₃ => runs_pure ⟨?_, trivial⟩
      refine ((h₁.trans hs h₂).trans hs h₃).statement rfl trivial ?_ (.refl _)
      simp [Shape.children, Shape.slots]
  · exact runs_reject trivial
  · refine (expression?_runs hi hn hs).bind fun o s₁ h₁ => runs_pure ⟨?_, trivial⟩
    refine h₁.1.statement rfl trivial ?_ (.refl _)
    simp [Shape.children, Shape.slots]
  · refine (expression?_runs hi hn hs).bind fun o s₁ h₁ => runs_pure ⟨?_, trivial⟩
    refine h₁.1.statement rfl trivial ?_ (.refl _)
    simp [Shape.children, Shape.slots]
  · exact localNode_gives hi hn hs hopen
  · exact localFunctionNode_gives hi hn hs hopen
  · apply (required_gives hi hn hs).bind
    rintro target s₁ ⟨h₁, -⟩
    refine (block_runs hi hn (h₁.valid hs)).bind fun body s₂ h₂ => runs_pure ⟨?_, trivial⟩
    exact (h₁.trans hs h₂.1).statement rfl trivial (.refl _) (.refl _)
  · exact usingNode_gives hi hn hs hopen
  · refine (required_gives hi hn hs).bind fun e s₁ h₁ => runs_pure ⟨?_, trivial⟩
    exact h₁.1.statement rfl trivial (.refl _) (.refl _)
  · apply (required_gives hi hn hs).bind
    rintro condition s₁ ⟨h₁, -⟩
    have hs₁ := h₁.valid hs
    apply (block_runs hi hn hs₁).bind
    rintro thenBranch s₂ ⟨h₂, -⟩
    refine (block?_runs hi hn (h₂.valid hs₁)).bind fun elseBranch s₃ h₃ => runs_pure ⟨?_, trivial⟩
    refine ((h₁.trans hs h₂).trans hs h₃).statement rfl trivial ?_ (.refl _)
    simp [Shape.children, Shape.slots]
  · split
    · exact loopNode_gives hi hn hs
    · exact runs_reject trivial
  · exact runs_reject trivial

/-! ## Declarations -/

/-- Whether a member is a field, by its kind. -/
def IsFieldKind (member : Fields) : Prop := (kind? member).any fieldKinds.contains = true

instance (member : Fields) : Decidable (IsFieldKind member) := inferInstanceAs (Decidable (_ = _))

/-- The variable that a member pays for, where the names of the fields are those of a scope. -/
def payment (scope : Scope) (member : Fields) : List VariableId :=
  if IsFieldKind member then
    (((field? member "name").map Value.display).bind fun name => scope.lookup name).toList
  else []

theorem reads_isField {member : Fields} : Reads (isField member) r s fun b =>
    b = true ↔ IsFieldKind member :=
  reads_kindOf.bind fun kind hkind => reads_pure (by rw [hkind, IsFieldKind])

theorem reads_qualified {name : String} : Reads (qualified name) r s fun _ => True :=
  runs_read_bind (reads_pure trivial)

theorem payment_eq {scope after : Scope} {member : Fields} {name : String} {v : VariableId}
    (hfield : IsFieldKind member) (hname : (field? member "name").map Value.display = some name)
    (hnew : scope.lookup name = none) : payment (scope ++ (name, v) :: after) member = [v] := by
  rw [payment, if_pos hfield, hname, Option.bind_some, List.lookup_append, hnew, Option.none_or,
    List.lookup_cons_self, Option.toList_some]

/-- The fields of a type are new variables, and its members pay for them. -/
theorem fieldScope_runs (hs : Valid r s) : (members : List Fields) → {before : Scope} →
    {owed : List VariableId} → {s₁ : Progress} → Built r s [] [] owed s₁ →
    Runs (fieldScope members before) r s₁ fun scope s' => ∃ after : Scope, scope = before ++ after ∧
      Built r s [] [] (owed ++ after.map (·.2)) s' ∧
      members.flatMap (payment scope) = after.map (·.2) ∧
      ∀ member ∈ members, IsFieldKind member → ∃ v, payment scope member = [v]
  | [], before, owed, s₁, h₁ =>
    runs_pure ⟨[], by simp, by simpa using h₁, rfl, fun _ hmember => nomatch hmember⟩
  | member :: rest, before, owed, s₁, h₁ => by
    refine reads_isField.bind fun isField hfield => ?_
    split
    · next hisField =>
      refine reads_requireText.bind fun name hname => ?_
      split
      · exact Runs.bind (runs_reject (Q := fun _ _ => False) trivial) fun _ _ h => h.elim
      · next hnew =>
        refine reads_modifiers.bind fun modifiers _ => reads_text?.bind fun type _ => ?_
        refine runs_newVariable.bind fun v s₂ ⟨h₂, _, _⟩ => ?_
        refine (fieldScope_runs hs rest (h₁.trans hs h₂)).mono
          fun scope s₃ ⟨after, hscope, h₃, hpaid, hpays⟩ => ?_
        rw [List.append_assoc, List.singleton_append] at hscope
        have hpayment : payment scope member = [v] := by
          rw [hscope, payment_eq (hfield.mp hisField) hname (Option.not_isSome_iff_eq_none.mp hnew)]
        refine ⟨(name, v) :: after, hscope, by simpa using h₃, ?_, fun other hother hkind => ?_⟩
        · rw [List.flatMap_cons, hpaid, hpayment]
          rfl
        · rcases List.mem_cons.mp hother with rfl | hother
          · exact ⟨v, hpayment⟩
          · exact hpays other hother hkind
    · next hisField =>
      refine (fieldScope_runs hs rest h₁).mono fun scope s₂ ⟨after, hscope, h₂, hpaid, hpays⟩ =>
        ⟨after, hscope, h₂, ?_, fun other hother hkind => ?_⟩
      · rw [List.flatMap_cons, payment, if_neg (mt hfield.mpr hisField), List.nil_append, hpaid]
      · rcases List.mem_cons.mp hother with rfl | hother
        · exact absurd (hfield.mpr hkind) hisField
        · exact hpays other hother hkind

section Declarations

variable (hi : inner.Accounts n) (hn : Value.entryDepths fields < n) (hs : Valid r s)

include hi hn hs

theorem fieldNode_runs {scope : Scope} (hscope : r.fields.head? = some scope)
    (hfield : IsFieldKind fields) (hpays : ∃ v, payment scope fields = [v]) :
    Runs (inner.fieldNode fields l) r s fun t s' =>
      Built r s [t] (payment scope fields) [] s' ∧ Plain t := by
  obtain ⟨v, hv⟩ := hpays
  refine reads_requireText.bind fun name hname => runs_read_bind ?_
  have hlookup : scope.lookup name = some v := by
    rw [payment, if_pos hfield, hname, Option.bind_some] at hv
    exact Option.toList_eq_singleton_iff.mp hv
  obtain ⟨before, after, hsplit, -⟩ := List.lookup_eq_some_iff.mp hlookup
  have hvisible : ∀ s, Visible r s v := fun s =>
    ⟨scope, List.mem_append_right _ (List.mem_of_head? hscope), name, by simp [hsplit]⟩
  refine reads_qualified.bind fun qualifiedName _ => reads_modifiers.bind fun modifiers _ => ?_
  rw [hscope, Option.bind_some, hlookup]
  extract_lets finish
  have hfinish : ∀ (initializer : Option Tree) s₁, Built r s initializer.toList [] [] s₁ →
      (∀ t ∈ initializer, Plain t) → Runs (finish initializer) r s₁ fun t s' =>
        Built r s [t] (payment scope fields) [] s' ∧ Plain t := by
    intro initializer s₁ h₁ hplain
    rw [hv]
    exact runs_pure ⟨h₁.fieldNode hs hplain rfl rfl rfl (hvisible s), rfl⟩
  split
  · exact hfinish none s (.refl r s) fun t ht => nomatch ht
  · exact hfinish none s (.refl r s) fun t ht => nomatch ht
  · next v' _ hinitializer =>
    have hdepth : v'.depth ≤ Value.entryDepths fields := by
      rcases Option.or_eq_some_iff.mp hinitializer with hinitializer | ⟨-, hinitializer⟩
      · exact depth_of_lookup hinitializer
      · exact depth_of_lookup hinitializer
    refine (hi.expression v' l (by omega) r s hs).bind fun t s₁ ⟨h₁, ht⟩ => ?_
    refine hfinish (some t) s₁ h₁ fun u hu => ?_
    cases hu
    exact ht

omit hn in
theorem memberNode_runs (hn : (Value.map fields).depth < n) {scope : Scope}
    (hscope : r.fields.head? = some scope) (hpays : IsFieldKind fields → ∃ v, payment scope fields = [v]) :
    Runs (inner.memberNode fields l) r s fun t s' =>
      Built r s [t] (payment scope fields) [] s' ∧ Plain t := by
  refine reads_locate.bind fun l' _ => reads_isField.bind fun isField hfield => ?_
  split
  · next hisField =>
    have hlt : Value.entryDepths fields < n := by
      rw [Value.depth] at hn
      omega
    exact fieldNode_runs hi hlt hs hscope (hfield.mp hisField) (hpays (hfield.mp hisField))
  · next hisField =>
    rw [payment, if_neg (mt hfield.mpr hisField)]
    exact hi.declaration fields l hn r s hs

theorem typeNode_gives : Gives (inner.typeNode fields l) r s Plain := by
  refine reads_requireText.bind fun name _ => reads_items.bind fun vs hvs => ?_
  refine (reads_mapM vs fun v _ => reads_mapping).bind fun members hmembers => ?_
  refine (fieldScope_runs hs members (.refl r s)).bind
    fun scope s₁ ⟨after, hafter, h₁, hpaid, hpays⟩ => ?_
  rw [List.nil_append] at hafter h₁
  subst hafter
  have hscope : ∀ e ∈ scope, e.2 ∈ scope.map (·.2) := fun e he => List.mem_map.mpr ⟨e, he, rfl⟩
  have hvalid : Valid { r with types := name :: r.types, fields := scope :: r.fields } s₁ :=
    valid_typed hs h₁ hscope
  refine Runs.bind (runs_withReader (runs_paidTrees (K := Plain) (payment scope) hvalid members
    fun member hmember s' hs' _ => ?members)) fun ts s₂ ⟨h₂, hts⟩ => ?rest
  case members =>
    obtain ⟨v, hv, hmap⟩ := hmembers member hmember
    have hdepth := hvs v hv
    rw [hmap] at hdepth
    exact memberNode_runs hi hs' (hdepth.trans hn) rfl (hpays member hmember)
  case rest =>
    refine reads_qualified.bind fun qualifiedName _ => reads_modifiers.bind fun modifiers _ => ?_
    have hbuilt := h₁.typed hscope (.of_eq hpaid) h₂
    refine runs_pure ⟨hbuilt.node ?_ (.refl _) (.declaration (fun _ c hc => ?_) (by simp))
      (fun v hv => nomatch hv) fun hfunction => by simp [Shape.IsFunction] at hfunction, rfl⟩
    · simp [Shape.children, Shape.slots]
    · exact hts c (by simpa [Shape.children, Shape.slots] using hc)

omit hi hn hs in
theorem reads_methodName : Reads (methodName fields) r s fun _ => True := by
  have hrequired : Reads (requireText fields "name") r s fun _ => True :=
    reads_requireText.mono fun _ _ => trivial
  rw [methodName]
  split
  on_goal 1 => split
  on_goal 1 => exact reads_written.mono fun _ _ => trivial
  all_goals
    refine runs_read_bind ?_
    split
    · split
      · exact reads_pure trivial
      · exact hrequired
    · exact hrequired

theorem methodNode_gives : Gives (inner.methodNode fields l) r s Plain := by
  refine reads_methodName.bind fun name _ => (runs_parameters hs).bind fun ps s₁ ⟨h₁, hscopes⟩ => ?_
  have hscope : ∀ e ∈ scopeOf ps, e.2 ∈ ps.map (·.2) := fun e he =>
    List.mem_map.mpr ⟨e, List.mem_reverse.mp he, rfl⟩
  refine (statements_runs hi hn hs h₁ hscope).bind fun body s₂ ⟨h₂, hscopes₂⟩ => ?_
  refine reads_qualified.bind fun qualifiedName _ => reads_modifiers.bind fun modifiers _ => ?_
  refine runs_pure ⟨h₂.node ?_ ?_ (.declaration (fun hkind => nomatch hkind) (by simp))
    (fun v hv => nomatch hv) fun _ => ?_, rfl⟩
  · simp [Shape.children, Shape.slots]
  · simp [Shape.introduced]
  · rw [hscopes₂, hscopes]

theorem declarationNode_gives : Gives (inner.declarationNode fields l) r s Plain := by
  refine reads_kindOf.bind fun kind _ => reads_locate.bind fun l' _ => ?_
  split
  · exact runs_reject trivial
  · split
    · exact typeNode_gives hi hn hs
    · split
      · exact methodNode_gives hi hn hs
      · split
        · exact reads_written.bind fun _ _ => runs_reject trivial
        · exact runs_reject trivial

end Declarations

end Converters

/-- **The converters for a depth keep the account** of what is nested less deeply. -/
theorem accounts_converters (n : Nat) : (converters n).Accounts n := by
  induction n with
  | zero =>
    exact ⟨fun _ _ h => absurd h (Nat.not_lt_zero _), fun _ _ h => absurd h (Nat.not_lt_zero _),
      fun _ _ h => absurd h (Nat.not_lt_zero _)⟩
  | succ n ih =>
    refine ⟨fun v l hv r s hs => ?expression, fun v l hv r s hs hopen => ?statement,
      fun fields l hn r s hs => ?declaration⟩
    case expression => exact Converters.expressionNode_gives ih hv hs
    case statement => exact Converters.statementNode_gives ih hv hs hopen
    case declaration =>
      rw [Value.depth] at hn
      exact Converters.declarationNode_gives ih (by omega) hs

end ModelLint.Document
