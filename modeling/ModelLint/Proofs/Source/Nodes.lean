import ModelLint.Proofs.Source.Building

/-!
# What the nodes of expressions keep

Every expression becomes one node that is accounted for (`Built`), whatever names are in sight. It
takes an open frame only to bind a name on the way, and without such a name nothing is put before
the statement.

* `Ready`: a state in which something can be built that mentions and binds the given names.
* `Expr.Accounted`: an expression is accounted for. `accounted_call`, `accounted_lambda` and others: so
  it is if its parts are.
* **`exprNode_runs`**: the account of an expression.
-/

namespace ModelLint.Source

open Build

variable {nm : String → Prop} {E : BuildFailure → Prop} {s s' : Building} {r : Range}
  {name id : String} {v : VariableId}

/-! ## Ready states -/

/-- A state is valid, names that are mentioned are as asked for, and for names that are bound a
frame is open, unless the failure is allowed. -/
structure Ready (nm : String → Prop) (E : BuildFailure → Prop) (s : Building)
    (names bound : List String) : Prop where
  /-- The state is valid. -/
  valid : s.Valid nm
  /-- Mentioned names are as asked for. -/
  names : ∀ n ∈ names, nm n
  /-- A frame is open for names that are bound. -/
  frame : bound ≠ [] → s.frames = [] → E .noFrame

/-- An expression can be built. -/
abbrev Expr.Ready (nm : String → Prop) (E : BuildFailure → Prop) (s : Building) (e : Expr) : Prop :=
  Source.Ready nm E s e.mentioned e.walruses

section Ready

variable {a b a' b' : List String}

theorem ready_append :
    Ready nm E s (a ++ b) (a' ++ b') ↔ Ready nm E s a a' ∧ Ready nm E s b b' := by
  constructor
  · intro h
    refine ⟨⟨h.valid, fun n hn => h.names n (by simp [hn]), fun hb => h.frame (by simp [hb])⟩,
      ⟨h.valid, fun n hn => h.names n (by simp [hn]), fun hb => h.frame (by simp [hb])⟩⟩
  · rintro ⟨h, h'⟩
    refine ⟨h.valid, fun n hn => (List.mem_append.mp hn).elim (h.names n) (h'.names n), fun hb => ?_⟩
    rcases not_and_or.mp (mt List.append_eq_nil_iff.mpr hb) with hb | hb
    · exact h.frame hb
    · exact h'.frame hb

theorem Ready.built {calm : Prop} {ts : List Tree} {owed : List VariableId}
    (h : Ready nm E s a a') (hb : Built nm calm s ts owed s') : Ready nm E s' a a' :=
  ⟨hb.valid, h.names, fun ha hframes => h.frame ha (hb.frames_eq_nil.mp hframes)⟩

theorem Ready.openFrame (h : Ready nm E s a a') {frame : Frame}
    (hframe : NamesDenote s.vars AnyKind frame.names) :
    Ready nm E { s with frames := frame :: s.frames } a b :=
  ⟨h.valid.openFrame hframe, h.names, fun _ hnil => nomatch hnil⟩

end Ready

/-! ## Names -/

theorem Denotes.hasKind {vars : Array Variable} {P Q : VariableKind → Prop}
    (h : Denotes vars P name v) (hPQ : ∀ k, P k → Q k) : HasKind vars Q v :=
  h.imp fun _ hvar => ⟨hvar.1, hPQ _ hvar.2.2⟩

theorem NamesDenote.mono {vars : Array Variable} {P Q : VariableKind → Prop} {names : Names}
    (h : NamesDenote vars P names) (hPQ : ∀ k, P k → Q k) : NamesDenote vars Q names :=
  fun e he => (h e he).mono hPQ

theorem namesDenote_ofNames {vars : Array Variable} {P : VariableKind → Prop} {names : Names} :
    NamesDenote vars P (Frame.ofNames names).names ↔ NamesDenote vars P names := by
  simp [NamesDenote, Frame.ofNames]

theorem Built.access {calm : Prop} (h : Built nm calm s [] [] s') (hname : nm name)
    (hv : s'.Means name v) : Built nm calm s [nodeAt r (.varAccess name (some v))] [] s' := by
  refine h.node (fun hc => hc) (.refl _) (.refl _)
    ⟨hname, v, rfl, hv.1⟩ (fun w hlocal hw => ?_) nofun
  cases hw
  exact hv.2 hlocal

theorem parameterNames_runs : (ps : List Parameter) → {s : Building} → s.Valid nm →
    Runs (parameterNames ps) s E fun names s' => Built nm True s [] (names.map (·.2)) s' ∧
      NamesDenote s'.vars (· = .parameter) names ∧ s'.frames = s.frames
  | [], s, hs => runs_pure ⟨.refl hs, (fun _ he => nomatch he), rfl⟩
  | p :: rest, s, hs => by
    refine (runs_newVariable hs).bind fun v s₁ ⟨h₁, hv, _, hframes₁⟩ => ?_
    refine (parameterNames_runs rest h₁.valid).bind fun names s₂ ⟨h₂, hnames, hframes₂⟩ =>
      runs_pure ⟨?_, ?_, hframes₂.trans hframes₁⟩
    · exact (h₁.trans h₂).weaken fun _ => ⟨trivial, trivial⟩
    · intro e he
      rcases List.mem_cons.mp he with rfl | he
      · exact hv.extends h₂.vars
      · exact hnames e he

/-- A step in the frame of a function, whose parameters are owed. -/
theorem Built.inFunction {s'' : Building} {calm calm' : Prop} {names : Names} {ts : List Tree}
    {owed : List VariableId} (h : Built nm calm s [] (names.map (·.2)) s')
    (h' : Built nm calm' { s' with frames := .ofNames names :: s'.frames } ts owed s'') :
    Built nm (calm ∧ calm') s ts (names.map (·.2) ++ owed)
      { s'' with frames := s''.frames.drop 1 } := by
  refine (h.inFrame (fun e he => h.fresh ?_) h').2
  simp only [Frame.ofNames, List.mem_reverse] at he
  exact List.mem_map_of_mem he

theorem bindAll_runs : (names : List String) → {s : Building} → s.Valid nm → s.frames ≠ [] →
    Runs (bindAll names) s E fun vs s' =>
      Built nm True s [] vs s' ∧ ∀ v ∈ vs, HasKind s'.vars (· ≠ .field) v
  | [], s, hs, _ => runs_pure ⟨.refl hs, fun _ hv => nomatch hv⟩
  | name :: rest, s, hs, hne => by
    refine runs_bindLocal_bind hs (fun h => (hne h).elim) fun v s₁ h₁ hv => ?_
    have hne₁ : s₁.frames ≠ [] := fun h => hne (h₁.frames_eq_nil.mp h)
    refine (bindAll_runs rest h₁.valid hne₁).bind fun vs s₂ ⟨h₂, hvs⟩ => runs_pure ⟨?_, ?_⟩
    · exact (h₁.trans h₂).weaken fun _ => ⟨trivial, trivial⟩
    · intro w hw
      rcases List.mem_cons.mp hw with rfl | hw
      · exact (hv.extends h₂.vars).hasKind fun k hk => by simp [hk]
      · exact hvs w hw

theorem nameNode_runs (hs : s.Valid nm) (hid : nm id) :
    Runs (nameNode r id) s E fun t s' => Built nm True s [t] [] s' := by
  refine (runs_lookup? hs).bind fun v? s₁ ⟨hs₁, hv⟩ => ?_
  subst hs₁
  rcases v? with _ | v
  · by_cases hbuiltin : builtinNames.contains id
    · simp only [hbuiltin, if_true]
      refine (runs_globalField hs).bind fun v s₂ ⟨h₂, hv⟩ => runs_pure ?_
      exact h₂.access hid hv.means
    · simp only [hbuiltin]
      exact runs_pure ((Built.refl hs).node (fun hc => hc) (.refl _) (.refl _)
        ⟨hid, fun w hw => nomatch hw⟩ nofun nofun)
  · exact runs_pure ((Built.refl hs).access hid (hv v rfl))

theorem targetName_runs (hs : s.Valid nm) (hid : nm id) (hE : s.frames = [] → E .noFrame) :
    Runs (targetName r id) s E fun t s' => Built nm False s [t] [] s' := by
  refine (runs_binding? hs).bind fun v? s₁ ⟨h₁, hv⟩ => ?_
  rcases v? with _ | v
  · refine runs_bindLocal_bind h₁.valid (fun h => hE (h₁.frames_eq_nil.mp h)) fun v s₂ h₂ hv => ?_
    refine runs_modify_bind (runs_pure ?_)
    exact ((h₁.trans h₂).declareBefore hid hv).weaken fun hc => hc
  · exact runs_pure ((h₁.access hid (hv v rfl)).weaken fun hc => hc.elim)

theorem createdType?_runs (e : Expr) : Runs (createdType? e) s E fun _ s' => s' = s := by
  rw [createdType?.eq_def]
  split
  · exact runs_isReceiver.bind fun b s' hs' => by split <;> exact runs_pure hs'
  · exact runs_pure rfl
  · exact runs_pure rfl

/-! ## Expressions -/

/-- An expression becomes one node, and is calm if it binds no name. -/
abbrev Expr.Runs (nm : String → Prop) (E : BuildFailure → Prop) (e : Expr) (s : Building) : Prop :=
  Source.Runs (exprNode e) s E fun t s' => Built nm (e.walruses = []) s [t] [] s'

/-- The account of an expression, from every state in which it can be built. -/
abbrev Expr.Accounted (nm : String → Prop) (E : BuildFailure → Prop) (e : Expr) : Prop :=
  ∀ {s : Building}, e.Ready nm E s → e.Runs nm E s

/-- The account of nodes that mention and bind the given names. -/
abbrev Accounted (nm : String → Prop) (E : BuildFailure → Prop) (names bound : List String)
    (x : Build (List Tree)) : Prop :=
  ∀ {s : Building}, Ready nm E s names bound →
    Runs x s E fun ts s' => Built nm (bound = []) s ts [] s'

/-- The account of loops of a comprehension, where a frame is open for their variables. -/
abbrev LoopsAccounted (nm : String → Prop) (E : BuildFailure → Prop) (names bound : List String)
    (x : Build (List VariableId × List Tree)) : Prop :=
  ∀ {s : Building}, s.frames ≠ [] → Ready nm E s names bound →
    Runs x s E fun p s' => Built nm (bound = []) s p.2 p.1 s' ∧
      ∀ v ∈ p.1, HasKind s'.vars (· ≠ .field) v

section Parts

variable {calm calm' : Prop} {x : Build Tree} {y : Build (List Tree)}

theorem runs_cons (hx : Runs x s E fun t s' => Built nm calm s [t] [] s')
    (hy : ∀ t s', Built nm calm s [t] [] s' →
      Runs y s' E fun ts s'' => Built nm calm' s' ts [] s'') :
    Runs (do let t ← x; return t :: (← y)) s E fun ts s' => Built nm (calm ∧ calm') s ts [] s' :=
  hx.bind fun t s₁ h₁ => (hy t s₁ h₁).bind fun _ _ h₂ => runs_pure (h₁.trans h₂)

end Parts

/-! ### Calls -/

section Calls

variable {fr : Range} {attr : String} {value function : Expr} {args : List Expr}
  {keywords : List Keyword}

/-- The account of the arguments of a call. -/
structure ArgumentsAccounted (nm : String → Prop) (E : BuildFailure → Prop) (args : List Expr)
    (keywords : List Keyword) : Prop where
  /-- Arguments by place. -/
  args : Accounted nm E (Expr.collectAll Expr.ownName args) (Expr.collectAll Expr.ownWalrus args)
    (exprNodes args)
  /-- Arguments by name. -/
  keywords : Accounted nm E (Expr.collectKeywords Expr.ownName keywords)
    (Expr.collectKeywords Expr.ownWalrus keywords) (keywordNodes keywords)

/-- A node is made of the arguments of a call and of what was built before them. -/
theorem ArgumentsAccounted.runs (h : ArgumentsAccounted nm E args keywords) {calm : Prop}
    {qs : List Tree} {f : List Tree → List Tree → Tree} (hqs : Built nm calm s qs [] s')
    (hargs : Ready nm E s (Expr.collectAll Expr.ownName args) (Expr.collectAll Expr.ownWalrus args))
    (hkeywords : Ready nm E s (Expr.collectKeywords Expr.ownName keywords)
      (Expr.collectKeywords Expr.ownWalrus keywords))
    (hf : ∀ {calm' : Prop} ts us s'', Built nm calm' s (qs ++ (ts ++ us)) [] s'' →
      Built nm calm' s [f ts us] [] s'') :
    Runs (do
      let ts ← exprNodes args
      let us ← keywordNodes keywords
      return f ts us) s' E
    fun t s'' => Built nm (calm ∧ Expr.collectAll Expr.ownWalrus args = [] ∧
      Expr.collectKeywords Expr.ownWalrus keywords = []) s [t] [] s'' := by
  refine (h.args (hargs.built hqs)).bind fun ts s₁ h₁ => ?_
  refine (h.keywords ((hkeywords.built hqs).built h₁)).bind
    fun us s₂ h₂ => runs_pure (hf ts us s₂ ?_)
  exact ((hqs.trans h₁).trans h₂).perm (fun hc => ⟨⟨hc.1, hc.2.1⟩, hc.2.2⟩) (by simp) (.refl _)

theorem Built.methodCall {calm : Prop} {ts : List Tree} {q : Option Tree}
    (h : Built nm calm s (q.toList ++ ts) [] s') :
    Built nm calm s [nodeAt r (.methodCall name none q ts)] [] s' :=
  h.node (fun hc => hc) (by simp [Shape.children, Shape.slots]) (.refl _) trivial nofun nofun

theorem Built.objectCreation {calm : Prop} {ts : List Tree} (h : Built nm calm s ts [] s') :
    Built nm calm s [nodeAt r (.objectCreation name ts)] [] s' :=
  h.node (fun hc => hc) (by simp [Shape.children, Shape.slots]) (.refl _) trivial nofun nofun

theorem accounted_attributeCall (hvalue : value.Accounted nm E)
    (harguments : ArgumentsAccounted nm E args keywords) :
    (Expr.call r (.attribute fr value attr) args keywords).Accounted nm E := by
  intro s h
  simp only [Expr.Ready, Expr.mentioned, Expr.walruses, Expr.collect, ready_append] at h
  obtain ⟨⟨⟨-, -, hready⟩, hargs⟩, hkeywords⟩ := h
  have hcalm : (Expr.call r (.attribute fr value attr) args keywords).walruses = [] →
      value.walruses = [] ∧ Expr.collectAll Expr.ownWalrus args = [] ∧
        Expr.collectKeywords Expr.ownWalrus keywords = [] := fun hc => by
    simpa [Expr.walruses, Expr.collect, Expr.ownWalrus, and_assoc] using hc
  rw [Expr.Runs, exprNode]
  refine (createdType?_runs _).bind fun created s₁ hs₁ => ?_
  subst hs₁
  rcases created with _ | typeName
  · have hcall : ∀ (q : Option Tree) s₂, Built nm (value.walruses = []) s₁ q.toList [] s₂ →
        Runs (do
          let ts ← exprNodes args
          let us ← keywordNodes keywords
          return nodeAt r (.methodCall attr none q (ts ++ us))) s₂ E
        fun t s' => Built nm
          ((Expr.call r (.attribute fr value attr) args keywords).walruses = []) s₁ [t] [] s' :=
      fun q s₂ h₂ => (harguments.runs h₂ hargs hkeywords fun ts us s' h => h.methodCall).mono
        fun t s' ht => ht.weaken hcalm
    refine runs_isReceiver.bind fun isReceiver s₂ hs₂ => ?_
    subst hs₂
    dsimp only
    split
    · exact hcall none s₂ ((Built.refl hargs.valid).weaken fun _ => trivial)
    · exact (hvalue hready).map.bind hcall
  · exact (harguments.runs (.refl hargs.valid) hargs hkeywords fun ts us s' h =>
      h.objectCreation).mono fun t s' ht => ht.weaken fun hc => ⟨trivial, (hcalm hc).2⟩

theorem accounted_nameCall (harguments : ArgumentsAccounted nm E args keywords) :
    (Expr.call r (.name fr id) args keywords).Accounted nm E := by
  intro s h
  simp only [Expr.Ready, Expr.mentioned, Expr.walruses, Expr.collect, ready_append] at h
  obtain ⟨⟨-, hargs⟩, hkeywords⟩ := h
  have hcalm : (Expr.call r (.name fr id) args keywords).walruses = [] →
      True ∧ Expr.collectAll Expr.ownWalrus args = [] ∧
        Expr.collectKeywords Expr.ownWalrus keywords = [] := fun hc => by
    simpa [Expr.walruses, Expr.collect, Expr.ownWalrus] using hc
  rw [Expr.Runs, exprNode]
  refine (createdType?_runs _).bind fun created s₁ hs₁ => ?_
  subst hs₁
  rcases created with _ | typeName
  · exact (harguments.runs (.refl hargs.valid) hargs hkeywords fun ts us s' h =>
      h.methodCall (q := none)).mono fun t s' ht => ht.weaken hcalm
  · exact (harguments.runs (.refl hargs.valid) hargs hkeywords fun ts us s' h =>
      h.objectCreation).mono fun t s' ht => ht.weaken hcalm

/-- Only the node of a call that has neither a name nor an attribute as function is made of it. -/
theorem accounted_call (hattribute : ∀ fr value attr, function ≠ .attribute fr value attr)
    (hname : ∀ fr id, function ≠ .name fr id) (hfunction : function.Accounted nm E)
    (harguments : ArgumentsAccounted nm E args keywords) :
    (Expr.call r function args keywords).Accounted nm E := by
  intro s h
  simp only [Expr.Ready, Expr.mentioned, Expr.walruses, Expr.collect, ready_append] at h
  obtain ⟨⟨⟨-, hready⟩, hargs⟩, hkeywords⟩ := h
  rw [Expr.Runs, exprNode]
  · refine (hfunction hready).bind fun t s₁ h₁ => ?_
    refine (harguments.runs h₁ hargs hkeywords fun ts us s' h => h.methodCall (q := some t)).mono
      fun t s' ht => ht.weaken fun hc => ?_
    simpa [Expr.walruses, Expr.collect, Expr.ownWalrus, and_assoc] using hc
  · exact hattribute
  · exact hname

end Calls

/-! ### Lambdas and comprehensions -/

section Inner

variable {parameters : List Parameter} {body : Expr} {kind : ComprehensionKind} {elements : List Expr}
  {first : Clause} {rest : List Clause}

theorem accounted_lambda (hbody : body.Accounted nm E) :
    (Expr.lambda r parameters body).Accounted nm E := by
  intro s h
  simp only [Expr.Ready, Expr.mentioned, Expr.walruses, Expr.collect, ready_append] at h
  rw [Expr.Runs, exprNode]
  apply (parameterNames_runs parameters h.2.valid).bind
  rintro names s₁ ⟨h₁, hnames, hframes₁⟩
  have hframe := namesDenote_ofNames.mpr (hnames.mono (Q := AnyKind) fun _ _ => trivial)
  have hvalue : Runs (withFrame (.ofNames names) (exprNode body)) s₁ E fun t s' =>
      Extends s₁.vars s'.vars ∧ s'.frames = s.frames ∧
        Built nm (body.walruses = []) s [t] (names.map (·.2)) s' := by
    refine runs_withFrame ((hbody ((h.2.built h₁).openFrame hframe)).mono
      fun t s₂ h₂ => ⟨h₂.vars, ?_, ?_⟩)
    · exact (List.drop_one.trans h₂.frames_tail).trans hframes₁
    · exact (h₁.inFunction h₂).perm (fun hc => ⟨trivial, hc⟩) (.refl _) (by simp)
  apply hvalue.bind
  rintro t s₂ ⟨hx, hframes₂, h₂⟩
  have hreturn : Built nm (body.walruses = []) s
      [nodeAt body.range (.returnStatement (some t))] (names.map (·.2)) s₂ :=
    h₂.node (fun hc => hc) (.refl _) (by simp [Shape.introduced]) trivial
      (by simp [Shape.mention?]) (by simp [Shape.IsFunction])
  refine runs_pure (hreturn.node (fun hc => hc) (.refl _) (by simp [Shape.introduced])
    (fun v hv => ?_) (by simp [Shape.mention?]) fun _ => ⟨rfl, hframes₂⟩)
  obtain ⟨e, he, rfl⟩ := List.mem_map.mp hv
  exact ((hnames e he).extends hx).hasKind fun k hk => by simp [hk]

/-- The loops and elements of a comprehension become a function of the variables of the loops. -/
theorem Built.generator {calm : Prop} {ts : List Tree} {vs : List VariableId}
    (h : Built nm calm s ts vs s') (hframes : s'.frames = s.frames)
    (hvs : ∀ v ∈ vs, HasKind s'.vars (· ≠ .field) v) :
    Built nm calm s
      [nodeAt r (.lambda vs false [nodeAt r (.exprStatement (compoundAt r "yield" ts))])] [] s' := by
  have hyield : Built nm calm s [compoundAt r "yield" ts] vs s' :=
    h.node (fun hc => hc) (by simp [Shape.children, Shape.slots]) (.refl _) trivial
      (by simp [Shape.mention?]) (by simp [Shape.IsFunction])
  have hbody : Built nm calm s [nodeAt r (.exprStatement (compoundAt r "yield" ts))] vs s' :=
    hyield.node (fun hc => hc) (.refl _) (.refl _) trivial (by simp [Shape.mention?])
      (by simp [Shape.IsFunction])
  exact hbody.node (fun hc => hc) (.refl _) (by simp [Shape.introduced]) hvs
    (by simp [Shape.mention?]) fun _ => ⟨rfl, hframes⟩

theorem accounted_comprehension
    (helements : Accounted nm E (Expr.collectAll Expr.ownName elements)
      (Expr.collectAll Expr.ownWalrus elements) (exprNodes elements))
    (hsource : ∀ {s : Building}, Ready nm E s (Expr.collectClause Expr.ownName first)
      (Expr.collectClause Expr.ownWalrus first) → Runs (sourceNode first) s E fun t s' =>
        Built nm (Expr.collectClause Expr.ownWalrus first = []) s [t] [] s')
    (hfirst : LoopsAccounted nm E (Expr.collectClause Expr.ownName first)
      (Expr.collectClause Expr.ownWalrus first) (clauseNodes first))
    (hrest : LoopsAccounted nm E (Expr.collectClauses Expr.ownName rest)
      (Expr.collectClauses Expr.ownWalrus rest) (innerClauseNodes rest)) :
    (Expr.comprehension r kind elements first rest).Accounted nm E := by
  intro s h
  simp only [Expr.Ready, Expr.mentioned, Expr.walruses, Expr.collect, ready_append] at h
  obtain ⟨⟨⟨-, relements⟩, rfirst⟩, rrest⟩ := h
  have hcalm : (Expr.comprehension r kind elements first rest).walruses = [] →
      Expr.collectAll Expr.ownWalrus elements = [] ∧ Expr.collectClause Expr.ownWalrus first = [] ∧
        Expr.collectClauses Expr.ownWalrus rest = [] := fun hc => by
    simpa [Expr.walruses, Expr.collect, Expr.ownWalrus, and_assoc] using hc
  rw [Expr.Runs, exprNode]
  refine (hsource rfirst).bind fun t s₁ h₁ => ?_
  have hframe : NamesDenote s₁.vars AnyKind (Frame.ofNames []).names :=
    namesDenote_ofNames.mpr (List.forall_mem_nil _)
  refine Runs.bind (runs_withFrame (Q := fun (p : List VariableId × List Tree) s' =>
    Built nm ((Expr.comprehension r kind elements first rest).walruses = []) s₁ p.2 p.1 s' ∧
      s'.frames = s₁.frames ∧ ∀ v ∈ p.1, HasKind s'.vars (· ≠ .field) v) ?_) ?_
  · have hopen := (rfirst.built h₁).openFrame (b := Expr.collectClause Expr.ownWalrus first) hframe
    apply (hfirst (List.cons_ne_nil _ _) hopen).bind
    rintro ⟨vs, ts⟩ s₂ ⟨h₂, hvs⟩
    have hne₂ : s₂.frames ≠ [] := fun hnil => List.cons_ne_nil _ _ (h₂.frames_eq_nil.mp hnil)
    apply (hrest hne₂ (((rrest.built h₁).openFrame hframe).built h₂)).bind
    rintro ⟨vs', ts'⟩ s₃ ⟨h₃, hvs'⟩
    refine (helements ((((relements.built h₁).openFrame hframe).built h₂).built h₃)).bind
      fun us s₄ h₄ => runs_pure ⟨?_, ?_, List.forall_mem_append.mpr ⟨fun v hv => ?_, fun v hv => ?_⟩⟩
    · have hstart : Built nm True s₁ [] (([] : Names).map (·.2)) s₁ := .refl h₁.valid
      have hclosed := hstart.inFunction ((h₂.trans h₃).trans h₄)
      refine hclosed.perm (fun hc => ?_) (.refl _) (by simp)
      exact ⟨trivial, ⟨(hcalm hc).2.1, (hcalm hc).2.2⟩, (hcalm hc).1⟩
    · exact List.drop_one.trans ((h₂.trans h₃).trans h₄).frames_tail
    · exact ((hvs v hv).extends h₃.vars).extends h₄.vars
    · exact (hvs' v hv).extends h₄.vars
  · rintro ⟨vs, ts⟩ s₂ ⟨h₂, hframes, hvs⟩
    exact runs_pure ((h₁.trans (h₂.generator hframes hvs)).node
      (fun hc => ⟨(hcalm hc).2.1, hc⟩) (.refl _) (.refl _) trivial nofun nofun)

end Inner

mutual

theorem exprNode_runs : (e : Expr) → {s : Building} → e.Ready nm E s → e.Runs nm E s
  | .name r id, s, h => by
    have hid : nm id := h.names id (by simp [Expr.mentioned, Expr.collect, Expr.ownName])
    rw [Expr.Runs, exprNode]
    exact (nameNode_runs h.valid hid).mono fun t s' ht => ht.weaken fun _ => trivial
  | .constant r value hasLetter, s, h => by
    rw [Expr.Runs, exprNode]
    exact runs_pure ((Built.refl h.valid).node (fun _ => trivial) (.refl _) (.refl _)
      trivial nofun nofun)
  | .attribute r value attr, s, h => by
    simp only [Expr.Ready, Expr.mentioned, Expr.walruses, Expr.collect, ready_append] at h
    have hattr : nm attr := h.1.names attr (by simp [Expr.ownName])
    rw [Expr.Runs, exprNode]
    refine runs_isReceiver.bind fun isReceiver s₁ hs₁ => ?_
    subst hs₁
    split
    · refine (runs_receiverField? h.2.valid).bind fun v s₁ ⟨hs₁, hv⟩ => ?_
      subst hs₁
      refine runs_pure ((Built.refl h.2.valid).node (fun _ => trivial) (.refl _) (.refl _)
        ⟨hattr, fun w hw => ⟨rfl, hv w hw⟩⟩ (fun w hlocal hw => ?_) nofun)
      exact ((hv w hw).means.2 hlocal)
    · refine (exprNode_runs value h.2).bind fun t s₁ h₁ => runs_pure ?_
      exact h₁.node (fun hc => hc) (.refl _) (.refl _) ⟨hattr, fun w hw => nomatch hw⟩ nofun nofun
  | .subscript r value index, s, h => by
    simp only [Expr.Ready, Expr.mentioned, Expr.walruses, Expr.collect, ready_append] at h
    obtain ⟨⟨-, hvalue⟩, hindex⟩ := h
    rw [Expr.Runs, exprNode]
    refine (exprNode_runs value hvalue).bind fun t s₁ h₁ => ?_
    refine (exprNode_runs index (hindex.built h₁)).bind fun u s₂ h₂ => runs_pure ?_
    refine (h₁.trans h₂).node (fun hc => ?_) (.refl _) (.refl _) trivial nofun nofun
    simpa [Expr.walruses, Expr.collect, Expr.ownWalrus] using hc
  | .call r function args keywords, s, h => by
    have harguments : ArgumentsAccounted nm E args keywords :=
      ⟨exprNodes_runs args, keywordNodes_runs keywords⟩
    cases function with
    | «attribute» fr value attr => exact accounted_attributeCall (exprNode_runs value) harguments h
    | name fr id => exact accounted_nameCall harguments h
    | _ => exact accounted_call (by simp) (by simp) (exprNode_runs _) harguments h
  | .compound r form operands, s, h => by
    simp only [Expr.Ready, Expr.mentioned, Expr.walruses, Expr.collect, ready_append] at h
    rw [Expr.Runs, exprNode]
    refine (exprNodes_runs operands h.2).bind fun ts s₁ h₁ => runs_pure ?_
    exact h₁.node (fun hc => hc) (by simp [Shape.children, Shape.slots]) (.refl _)
      trivial nofun nofun
  | .dict r entries, s, h => by
    simp only [Expr.Ready, Expr.mentioned, Expr.walruses, Expr.collect, ready_append] at h
    rw [Expr.Runs, exprNode]
    refine (keyNodes_runs entries h.2).bind fun ts s₁ h₁ => ?_
    refine (valueNodes_runs entries (h.2.built h₁)).bind fun us s₂ h₂ => runs_pure ?_
    exact (h₁.trans h₂).node (fun hc => ⟨hc, hc⟩) (by simp [Shape.children, Shape.slots]) (.refl _)
      trivial nofun nofun
  | .walrus r target id value, s, h => by
    simp only [Expr.Ready, Expr.mentioned, Expr.walruses, Expr.collect, ready_append] at h
    have hid : nm id := h.1.names id (by simp [Expr.ownName])
    rw [Expr.Runs, exprNode]
    refine (exprNode_runs value h.2).bind fun t s₁ h₁ => ?_
    have hE : s₁.frames = [] → E .noFrame := (h.1.built h₁).frame (by simp [Expr.ownWalrus])
    refine (targetName_runs h₁.valid hid hE).bind fun u s₂ h₂ => runs_pure ?_
    refine (h₁.trans h₂).node (fun hc => ?_) (.swap _ _ _) (.refl _) trivial nofun nofun
    simp [Expr.walruses, Expr.collect, Expr.ownWalrus] at hc
  | .lambda r parameters body, s, h => accounted_lambda (exprNode_runs body) h
  | .comprehension r kind elements first rest, s, h =>
    accounted_comprehension (exprNodes_runs elements) (sourceNode_runs first)
      (clauseNodes_runs first) (innerClauseNodes_runs rest) h

theorem exprNodes_runs : (es : List Expr) → {s : Building} →
    Ready nm E s (Expr.collectAll Expr.ownName es) (Expr.collectAll Expr.ownWalrus es) →
    Runs (exprNodes es) s E fun ts s' =>
      Built nm (Expr.collectAll Expr.ownWalrus es = []) s ts [] s'
  | [], s, h => runs_pure ((Built.refl h.valid).weaken fun _ => trivial)
  | e :: es, s, h => by
    rw [Expr.collectAll, Expr.collectAll, ready_append] at h
    rw [exprNodes, Expr.collectAll, List.append_eq_nil_iff]
    exact runs_cons (exprNode_runs e h.1) fun t s₁ h₁ => exprNodes_runs es (h.2.built h₁)

theorem keywordNodes_runs : (ks : List Keyword) → {s : Building} →
    Ready nm E s (Expr.collectKeywords Expr.ownName ks) (Expr.collectKeywords Expr.ownWalrus ks) →
    Runs (keywordNodes ks) s E fun ts s' =>
      Built nm (Expr.collectKeywords Expr.ownWalrus ks = []) s ts [] s'
  | [], s, h => runs_pure ((Built.refl h.valid).weaken fun _ => trivial)
  | .mk _ value :: rest, s, h => by
    rw [Expr.collectKeywords, Expr.collectKeywords, ready_append] at h
    rw [keywordNodes, Expr.collectKeywords, List.append_eq_nil_iff]
    exact runs_cons (exprNode_runs value h.1) fun t s₁ h₁ => keywordNodes_runs rest (h.2.built h₁)

theorem keyNodes_runs : (es : List Entry) → {s : Building} →
    Ready nm E s (Expr.collectEntries Expr.ownName es) (Expr.collectEntries Expr.ownWalrus es) →
    Runs (keyNodes es) s E fun ts s' =>
      Built nm (Expr.collectEntries Expr.ownWalrus es = []) s ts [] s'
  | [], s, h => runs_pure ((Built.refl h.valid).weaken fun _ => trivial)
  | .pair key value :: rest, s, h => by
    simp only [Expr.collectEntries, ready_append] at h
    rw [keyNodes]
    refine (runs_cons (exprNode_runs key h.1.1) fun t s₁ h₁ =>
      keyNodes_runs rest (h.2.built h₁)).mono fun ts s' ht => ht.weaken fun hc => ?_
    simp only [Expr.collectEntries, List.append_eq_nil_iff] at hc
    exact ⟨hc.1.1, hc.2⟩
  | .unpack value :: rest, s, h => by
    simp only [Expr.collectEntries, ready_append] at h
    rw [keyNodes]
    exact (keyNodes_runs rest h.2).mono fun ts s' ht =>
      ht.weaken fun hc => (List.append_eq_nil_iff.mp hc).2

theorem valueNodes_runs : (es : List Entry) → {s : Building} →
    Ready nm E s (Expr.collectEntries Expr.ownName es) (Expr.collectEntries Expr.ownWalrus es) →
    Runs (valueNodes es) s E fun ts s' =>
      Built nm (Expr.collectEntries Expr.ownWalrus es = []) s ts [] s'
  | [], s, h => runs_pure ((Built.refl h.valid).weaken fun _ => trivial)
  | .pair key value :: rest, s, h => by
    simp only [Expr.collectEntries, ready_append] at h
    rw [valueNodes]
    refine (runs_cons (exprNode_runs value h.1.2) fun t s₁ h₁ =>
      valueNodes_runs rest (h.2.built h₁)).mono fun ts s' ht => ht.weaken fun hc => ?_
    simp only [Expr.collectEntries, List.append_eq_nil_iff] at hc
    exact ⟨hc.1.2, hc.2⟩
  | .unpack value :: rest, s, h => by
    rw [Expr.collectEntries, Expr.collectEntries, ready_append] at h
    rw [valueNodes, Expr.collectEntries, List.append_eq_nil_iff]
    exact runs_cons (exprNode_runs value h.1) fun t s₁ h₁ => valueNodes_runs rest (h.2.built h₁)

theorem sourceNode_runs : (c : Clause) → {s : Building} →
    Ready nm E s (Expr.collectClause Expr.ownName c) (Expr.collectClause Expr.ownWalrus c) →
    Runs (sourceNode c) s E fun t s' =>
      Built nm (Expr.collectClause Expr.ownWalrus c = []) s [t] [] s'
  | .mk isAsync target source conditions, s, h => by
    simp only [Expr.collectClause, ready_append] at h
    rw [sourceNode]
    refine (exprNode_runs source h.1.2).mono fun t s' ht => ht.weaken fun hc => ?_
    simp only [Expr.collectClause, List.append_eq_nil_iff] at hc
    exact hc.1.2

theorem clauseNodes_runs : (c : Clause) → {s : Building} → s.frames ≠ [] →
    Ready nm E s (Expr.collectClause Expr.ownName c) (Expr.collectClause Expr.ownWalrus c) →
    Runs (clauseNodes c) s E fun p s' =>
      Built nm (Expr.collectClause Expr.ownWalrus c = []) s p.2 p.1 s' ∧
        ∀ v ∈ p.1, HasKind s'.vars (· ≠ .field) v
  | .mk isAsync target source conditions, s, hne, h => by
    simp only [Expr.collectClause, ready_append] at h
    obtain ⟨⟨htarget, -⟩, hconditions⟩ := h
    rw [clauseNodes]
    refine (bindAll_runs _ htarget.valid hne).bind fun vs s₁ ⟨h₁, hvs⟩ => ?_
    refine (exprNode_runs target (htarget.built h₁)).bind fun t s₂ h₂ => ?_
    refine (exprNodes_runs conditions ((hconditions.built h₁).built h₂)).bind
      fun ts s₃ h₃ => runs_pure ⟨?_, fun v hv => ?_⟩
    · refine ((h₁.trans h₂).trans h₃).perm (fun hc => ?_) (.refl _) (by simp)
      simp only [Expr.collectClause, List.append_eq_nil_iff] at hc
      exact ⟨⟨trivial, hc.1.1⟩, hc.2⟩
    · exact ((hvs v hv).extends h₂.vars).extends h₃.vars

theorem innerClauseNodes_runs : (cs : List Clause) → {s : Building} → s.frames ≠ [] →
    Ready nm E s (Expr.collectClauses Expr.ownName cs) (Expr.collectClauses Expr.ownWalrus cs) →
    Runs (innerClauseNodes cs) s E fun p s' =>
      Built nm (Expr.collectClauses Expr.ownWalrus cs = []) s p.2 p.1 s' ∧
        ∀ v ∈ p.1, HasKind s'.vars (· ≠ .field) v
  | [], s, _, h => runs_pure ⟨(Built.refl h.valid).weaken fun _ => trivial, fun _ hv => nomatch hv⟩
  | c :: rest, s, hne, h => by
    rw [Expr.collectClauses, Expr.collectClauses, ready_append] at h
    rw [innerClauseNodes]
    refine (sourceNode_runs c h.1).bind fun t s₁ h₁ => ?_
    have hne₁ : s₁.frames ≠ [] := fun hnil => hne (h₁.frames_eq_nil.mp hnil)
    refine (clauseNodes_runs c hne₁ (h.1.built h₁)).bind fun (vs, ts) s₂ ⟨h₂, hvs⟩ => ?_
    have hne₂ : s₂.frames ≠ [] := fun hnil => hne₁ (h₂.frames_eq_nil.mp hnil)
    refine (innerClauseNodes_runs rest hne₂ ((h.2.built h₁).built h₂)).bind
      fun (vs', ts') s₃ ⟨h₃, hvs'⟩ => runs_pure ⟨?_, fun v hv => ?_⟩
    · refine ((h₁.trans h₂).trans h₃).perm (fun hc => ?_) (by simp) (by simp)
      rw [Expr.collectClauses, List.append_eq_nil_iff] at hc
      exact ⟨⟨hc.1, hc.1⟩, hc.2⟩
    · rcases List.mem_append.mp hv with hv | hv
      · exact (hvs v hv).extends h₃.vars
      · exact hvs' v hv

end

end ModelLint.Source
