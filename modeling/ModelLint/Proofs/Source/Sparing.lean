import ModelLint.Proofs.Source.Bindings
import ModelLint.Proofs.Source.Contents

/-!
# What expressions leave alone

An expression declares the names that it binds on the way, and no other ones. So do the classes among
statements: the initializers of their fields are expressions, and their methods keep their declarations.

* `mem_walruses_of_changed`: the names that the events of an expression change.
* `Spared`: a state behind another one, with no declaration of a name put before the statement.
* **`Spares`**: a step that goes on to such a state and declares no variable in its trees.
* `spares_exprNode`, `spared_memberNodes`: expressions, and the members of a class.
-/

namespace ModelLint.Source

open Build

variable {α β : Type} {build : Build α} {k : α → Build β} {f : α → List Tree} {g : β → List Tree}
  {x name : String} {o : Option String} {s s' s'' : Building} {ts us : List Tree} {r : Range}
  {shape : Shape Tree} {t : Tree} {v : VariableId} {locks : List String}

/-! ## Events -/

section Events

theorem changed?_inward {es : List Event} (h : ∀ e ∈ es, e.changed? = none) :
    ∀ e ∈ es.map Event.inward, e.changed? = none := by
  intro e he
  obtain ⟨e', he', rfl⟩ := List.mem_map.mp he
  have hnone := h e' he'
  cases e' <;> first | rfl | cases hnone

mutual

/-- **What the events of an expression change is bound on the way.** -/
theorem mem_walruses_of_changed : (e : Expr) → ∀ ev ∈ e.events o, ev.changed? = some x →
    x ∈ e.collect Expr.ownWalrus
  | .name r id => by
    rintro ev hev hx
    cases List.mem_singleton.mp hev
    cases hx
  | .constant r value hasLetter => fun ev hev => by cases hev
  | .attribute r value attr => by
    intro ev hev hx
    rw [Expr.events] at hev
    split at hev
    · cases hev
    · exact List.mem_append_right _ (mem_walruses_of_changed value ev hev hx)
  | .subscript r value index => by
    intro ev hev hx
    rw [Expr.events, List.mem_append] at hev
    simp only [Expr.collect, List.mem_append]
    rcases hev with hev | hev
    · exact .inl (.inr (mem_walruses_of_changed value ev hev hx))
    · exact .inr (mem_walruses_of_changed index ev hev hx)
  | .call r function args keywords => by
    intro ev hev hx
    have hevents : ev ∈ function.events o ∨ (ev ∈ eventsOf o args ∨ ev ∈ keywordEvents o keywords) := by
      cases function with
      | «attribute» fr value attr =>
        rw [Expr.events, List.mem_append, List.mem_append] at hev
        refine hev.imp_left fun hev => ?_
        rw [Expr.events]
        split at hev
        · cases hev
        · next hcreated =>
          rw [if_neg fun hobject => hcreated (by rw [hobject, Bool.or_true])]
          exact hev
      | name fr id =>
        rw [Expr.events, List.mem_append] at hev
        exact .inr hev
      | _ =>
        rw [Expr.events] at hev
        · simpa only [List.mem_append] using hev
        all_goals nofun
    simp only [Expr.collect, List.mem_append]
    rcases hevents with hev | hev | hev
    · exact .inl (.inl (.inr (mem_walruses_of_changed function ev hev hx)))
    · exact .inl (.inr (mem_walruses_of_changedOf args ev hev hx))
    · exact .inr (mem_walruses_of_changedKeywords keywords ev hev hx)
  | .compound r form operands => fun ev hev hx =>
    List.mem_append_right _ (mem_walruses_of_changedOf operands ev hev hx)
  | .dict r entries => by
    intro ev hev hx
    rw [Expr.events, List.mem_append] at hev
    exact List.mem_append_right _ (mem_walruses_of_changedEntries entries ev hev hx)
  | .walrus r target id value => by
    intro ev hev hx
    rw [Expr.events, List.mem_append] at hev
    rcases hev with hev | hev
    · exact List.mem_append_right _ (mem_walruses_of_changed value ev hev hx)
    · cases List.mem_singleton.mp hev
      cases hx
      exact List.mem_append_left _ (List.mem_singleton_self _)
  | .lambda r parameters body => by
    intro ev hev hx
    rw [Expr.events] at hev
    rw [changed?_inward changed?_captured ev hev] at hx
    cases hx
  | .comprehension r kind elements first rest => by
    intro ev hev hx
    rw [Expr.events, List.mem_append] at hev
    rcases hev with hev | hev
    · obtain ⟨isAsync, target, source, conditions⟩ := first
      simp only [Expr.collect, Expr.collectClause, List.mem_append]
      exact .inl (.inr (.inl (.inr (mem_walruses_of_changed source ev hev hx))))
    · rw [changed?_captured ev hev] at hx
      cases hx

theorem mem_walruses_of_changedOf : (es : List Expr) → ∀ ev ∈ eventsOf o es, ev.changed? = some x →
    x ∈ Expr.collectAll Expr.ownWalrus es
  | [] => fun ev hev => by cases hev
  | e :: es => by
    intro ev hev hx
    rw [eventsOf, List.mem_append] at hev
    exact List.mem_append.mpr (hev.imp (mem_walruses_of_changed e ev · hx)
      (mem_walruses_of_changedOf es ev · hx))

theorem mem_walruses_of_changedKeywords : (ks : List Keyword) → ∀ ev ∈ keywordEvents o ks,
    ev.changed? = some x → x ∈ Expr.collectKeywords Expr.ownWalrus ks
  | [] => fun ev hev => by cases hev
  | .mk _ value :: rest => by
    intro ev hev hx
    rw [keywordEvents, List.mem_append] at hev
    exact List.mem_append.mpr (hev.imp (mem_walruses_of_changed value ev · hx)
      (mem_walruses_of_changedKeywords rest ev · hx))

theorem mem_walruses_of_changedEntries : (es : List Entry) →
    ∀ ev, ev ∈ keyEvents o es ∨ ev ∈ valueEvents o es → ev.changed? = some x →
      x ∈ Expr.collectEntries Expr.ownWalrus es
  | [] => fun ev hev => by
    rcases hev with hev | hev
    · cases hev
    · cases hev
  | .pair key value :: rest => by
    intro ev hev hx
    rw [keyEvents, valueEvents, List.mem_append, List.mem_append] at hev
    simp only [Expr.collectEntries, List.mem_append]
    rcases hev with (hev | hev) | hev | hev
    · exact .inl (.inl (mem_walruses_of_changed key ev hev hx))
    · exact .inr (mem_walruses_of_changedEntries rest ev (.inl hev) hx)
    · exact .inl (.inr (mem_walruses_of_changed value ev hev hx))
    · exact .inr (mem_walruses_of_changedEntries rest ev (.inr hev) hx)
  | .unpack value :: rest => by
    intro ev hev hx
    rw [keyEvents, valueEvents, List.mem_append] at hev
    simp only [Expr.collectEntries, List.mem_append]
    rcases hev with hev | hev | hev
    · exact .inr (mem_walruses_of_changedEntries rest ev (.inl hev) hx)
    · exact .inl (mem_walruses_of_changed value ev hev hx)
    · exact .inr (mem_walruses_of_changedEntries rest ev (.inr hev) hx)

end

end Events

/-! ## States -/

/-- A variable of another name. -/
def IsOther (x : String) (vars : Array Variable) (v : VariableId) : Prop :=
  ∃ y ≠ x, Denotes vars AnyKind y v

theorem IsOther.extends {vars vars' : Array Variable} (h : IsOther x vars v) (hx : Extends vars vars') :
    IsOther x vars' v :=
  h.imp fun _ hy => ⟨hy.1, hy.2.extends hx⟩

theorem Building.Open.isOther_bound (hne : name ≠ x) {type : Option String} :
    IsOther x (s.bound name type).vars s.vars.size :=
  ⟨name, hne, _, Array.getElem?_push_size, rfl, trivial⟩

/-- **A state behind another one**, where no declaration of a name was put before the statement on the
way. -/
structure Spared (x : String) (s s' : Building) : Prop where
  /-- The state comes behind. -/
  reaches : s.Reaches s'
  /-- New declarations are those of other names. -/
  pending : ∃ made, s'.pending = s.pending ++ made ∧ ∀ v, Declared made v → IsOther x s'.vars v

theorem spared_of_pending (h : s.Reaches s') (hpending : s'.pending = s.pending) : Spared x s s' :=
  ⟨h, [], by rw [hpending, List.append_nil], fun _ hv => absurd hv (not_declared_of_plain nofun)⟩

theorem Building.Open.spared (hs : s.Open) : Spared x s s := spared_of_pending hs.reaches rfl

theorem Spared.trans (h : Spared x s s') (h' : Spared x s' s'') : Spared x s s'' := by
  obtain ⟨made, hmade, hothers⟩ := h.pending
  obtain ⟨made', hmade', hothers'⟩ := h'.pending
  refine ⟨h.reaches.trans h'.reaches, made ++ made', by rw [hmade', hmade, List.append_assoc], ?_⟩
  intro v hv
  rcases declared_append.mp hv with hv | hv
  · exact (hothers v hv).extends h'.reaches.grows.vars
  · exact hothers' v hv

/-! ## Steps -/

/-- **A step spares a name**: it goes on to a state where no declaration of the name was put before the
statement, and its trees declare no variables. -/
def Spares (x : String) (build : Build α) (f : α → List Tree) : Prop :=
  ∀ s : Building, s.Open → Runs build s (fun _ => True) fun a s' =>
    Spared x s s' ∧ ∀ t ∈ f a, Plain t

section Spares

theorem spares_pure {a : α} (h : ∀ t ∈ f a, Plain t) : Spares x (pure a) f :=
  fun _ hs => ⟨hs.spared, h⟩

theorem Spares.bind (hx : Spares x build f) (hk : ∀ a, (∀ t ∈ f a, Plain t) → Spares x (k a) g) :
    Spares x (build >>= k) g :=
  fun s hs => (hx s hs).bind fun a s₁ ⟨h₁, ha⟩ =>
    (hk a ha s₁ h₁.reaches.isOpen).mono fun _ _ ⟨h₂, hb⟩ => ⟨h₁.trans h₂, hb⟩

/-- The last step, of whose trees others are made. -/
theorem Spares.last {h : α → β} (hx : Spares x build f)
    (hh : ∀ a, (∀ t ∈ f a, Plain t) → ∀ t ∈ g (h a), Plain t) :
    Spares x (do return h (← build)) g :=
  hx.bind fun a ha => spares_pure (hh a ha)

theorem Spares.map {h : α → β} (hx : Spares x build fun a => g (h a)) : Spares x (h <$> build) g :=
  fun s hs => Runs.map (hx s hs)

theorem spares_still (h : ∀ s, Runs build s (fun _ => True) fun _ s' => s' = s) :
    Spares x build fun _ => [] :=
  fun s hs => (h s).mono fun _ _ hs' => ⟨spared_of_pending (hs'.symm ▸ hs.reaches) (by rw [hs']), nofun⟩

/-- A step that puts no declarations before the statement and makes no nodes. -/
theorem Carries.spares (hc : Carries build) (hm : Mild build) : Spares x build fun _ => [] :=
  fun s hs => ((hc s hs).and (hm s)).mono fun _ _ h => ⟨spared_of_pending h.1 h.2.1, nofun⟩

theorem Spares.skip (hx : Spares x build fun _ => []) (hk : ∀ a, Spares x (k a) g) :
    Spares x (build >>= k) g :=
  hx.bind fun a _ => hk a

theorem Spares.inFrame {names : Names} (hx : Spares x build f) (hs : s.Open)
    (hnames : NamesDenote s.vars AnyKind names) :
    Runs (withFrame (.ofNames names) build) s (fun _ => True) fun a s' =>
      Spared x s s' ∧ ∀ t ∈ f a, Plain t :=
  runs_withFrame ((hx _ ⟨hs.valid.openFrame (namesDenote_ofNames.mpr hnames), List.cons_ne_nil _ _⟩).mono
    fun _ _ ⟨h, hplain⟩ => ⟨⟨h.reaches.closeFrame hs, h.pending⟩, hplain⟩)

theorem Spares.withFrame (hx : Spares x build f) : Spares x (withFrame (.ofNames []) build) f :=
  fun _ hs => hx.inFrame hs nofun

theorem Building.Open.openQualifier (hs : s.Open) (name : String) :
    Building.Open { s with qualifiers := name :: s.qualifiers } :=
  ⟨{ hs.valid with }, hs.frames⟩

theorem Spared.closeQualifier (h : Spared x { s with qualifiers := name :: s.qualifiers } s') :
    Spared x s { s' with qualifiers := s'.qualifiers.drop 1 } := by
  obtain ⟨⟨hopen, hgrows, htail⟩, hpending⟩ := h
  have hclosed : Building.Open { s' with qualifiers := s'.qualifiers.drop 1 } :=
    ⟨{ hopen.valid with }, hopen.frames⟩
  exact ⟨⟨hclosed, ⟨hclosed.valid, hgrows.receivers, hgrows.hoisted, hgrows.vars⟩, htail⟩, hpending⟩

theorem spares_cons {y : Build Tree} {z : Build (List Tree)} (hy : Spares x y fun t => [t])
    (hz : Spares x z id) : Spares x (do let t ← y; return t :: (← z)) id :=
  hy.bind fun _ ht => hz.last fun _ hts =>
    List.forall_mem_cons.mpr ⟨List.forall_mem_singleton.mp ht, hts⟩

theorem plain_singleton (hs : shape.IsPlain) (h : ∀ c ∈ shape.children, Plain c) :
    ∀ t ∈ [nodeAt r shape], Plain t :=
  List.forall_mem_singleton.mpr (plain_node hs h)

end Spares

/-! ## Expressions -/

theorem plain_mention {w : Option VariableId} : Plain (nodeAt r (.varAccess name w)) :=
  plain_node (by simp [Shape.IsPlain]) nofun

theorem plain_field {w : Option VariableId} : Plain (nodeAt r (.fieldAccess name none w)) :=
  plain_node (by simp [Shape.IsPlain]) nofun

theorem plain_compound {operator : String} (h : ∀ t ∈ ts, Plain t) :
    Plain (compoundAt r operator ts) :=
  plain_node (by simp [Shape.IsPlain]) (by simpa [Shape.children, Shape.slots] using h)

theorem plain_assignment {operator : String} {target value : Tree} (htarget : Plain target)
    (hvalue : Plain value) : Plain (nodeAt r (.assignment operator target value)) :=
  plain_node (by simp [Shape.IsPlain])
    (by simpa [Shape.children, Shape.slots] using ⟨htarget, hvalue⟩)

theorem plain_exprStatement (h : Plain t) : Plain (nodeAt r (.exprStatement t)) :=
  plain_node (by simp [Shape.IsPlain]) (by simpa [Shape.children, Shape.slots] using h)

theorem plain_returnStatement {value : Option Tree} (h : ∀ t ∈ value.toList, Plain t) :
    Plain (nodeAt r (.returnStatement value)) :=
  plain_node (by simp [Shape.IsPlain]) (by simpa [Shape.children, Shape.slots] using h)

theorem createdType?_same {e : Expr} : Runs (createdType? e) s (fun _ => True) fun _ s' => s' = s := by
  rw [createdType?.eq_def]
  split
  · refine runs_isReceiver.bind fun b s₁ hs₁ => ?_
    split <;> exact hs₁
  · exact runs_pure rfl
  · exact runs_pure rfl

theorem spares_receiverField? : Spares x (receiverField? name) fun _ => [] :=
  spares_still fun s => show Runs (receiverField? name) s _ _ from rfl

theorem spares_nameNode {id : String} : Spares x (nameNode r id) fun t => [t] := by
  have hmild : Mild (nameNode r id) := by
    refine mild_lookup?.bind fun v => ?_
    split
    · exact mild_pure
    · split
      · exact mild_globalField.bind fun _ => mild_pure
      · exact mild_pure
  have hplain : Returns (nameNode r id) Plain := by
    refine .next fun v => ?_
    split
    · exact .pure plain_mention
    · split
      · exact .next fun v => .pure plain_mention
      · exact .pure plain_field
  have hcarries : Carries (nameNode r id) := by
    simpa only [exprNode] using carries_exprNode (.name r id)
  exact fun s hs => ((hcarries.spares hmild s hs).and (hplain s)).mono fun _ _ h =>
    ⟨h.1.1, List.forall_mem_singleton.mpr h.2⟩

theorem spares_targetName (hne : name ≠ x) : Spares x (targetName r name) fun t => [t] := by
  intro s hs
  have hrun : Runs (targetName r name) s (fun _ => True) fun t s' =>
      (∃ made, s'.pending = s.pending ++ made ∧ ∀ v, Declared made v → IsOther x s'.vars v) ∧
        Plain t := by
    refine (mild_binding? s).bind fun w s₁ ⟨hpending, _⟩ => ?_
    rcases w with _ | v
    · refine runs_bound fun _ => runs_modify_bind (runs_pure
        ⟨⟨[nodeAt r (.varDeclaration s₁.vars.size none)], ?_, fun v hv => ?_⟩, plain_mention⟩)
      · rw [← hpending]
        rfl
      · cases declared_varDeclaration (by simp) hv
        exact Building.Open.isOther_bound hne
    · refine runs_pure ⟨⟨[], by rw [hpending, List.append_nil], fun v hv => ?_⟩, plain_mention⟩
      exact absurd hv (not_declared_of_plain nofun)
  exact ((carries_targetName s hs).and hrun).mono fun _ _ h =>
    ⟨⟨h.1, h.2.1⟩, List.forall_mem_singleton.mpr h.2.2⟩

section Calls

variable {fr : Range} {attr name : String} {value function : Expr} {args : List Expr}
  {keywords : List Keyword} (hargs : Spares x (exprNodes args) id)
  (hkeywords : Spares x (keywordNodes keywords) id)

include hargs hkeywords

/-- A node is made of the arguments of a call and of what was built before them. -/
theorem spares_arguments {shape : List Tree → Shape Tree} (before : List Tree)
    (hs : ∀ us, (shape us).IsPlain) (hchildren : ∀ us, (shape us).children = before ++ us)
    (hbefore : ∀ t ∈ before, Plain t) :
    Spares x (do
      let args ← exprNodes args
      return nodeAt r (shape (args ++ (← keywordNodes keywords)))) fun t => [t] := by
  refine hargs.bind fun ts hts => hkeywords.last fun us hus => plain_singleton (hs _) ?_
  rw [hchildren]
  exact List.forall_mem_append.mpr ⟨hbefore, List.forall_mem_append.mpr ⟨hts, hus⟩⟩

theorem spares_attributeCall (hvalue : Spares x (exprNode value) fun t => [t]) :
    Spares x (exprNode (.call r (.attribute fr value attr) args keywords)) fun t => [t] := by
  have hplain : ∀ {q : Option Tree}, (∀ t ∈ q.toList, Plain t) → Spares x (do
      let args ← exprNodes args
      return nodeAt r (.methodCall attr none q (args ++ (← keywordNodes keywords)))) fun t => [t] :=
    fun {q} => spares_arguments hargs hkeywords q.toList (by simp [Shape.IsPlain])
      (by simp [Shape.children, Shape.slots])
  rw [exprNode]
  refine (spares_still fun _ => createdType?_same).skip fun created => ?_
  split
  · exact spares_arguments hargs hkeywords [] (by simp [Shape.IsPlain])
      (by simp [Shape.children, Shape.slots]) (List.forall_mem_nil _)
  · refine (spares_still fun _ => runs_isReceiver).skip fun isReceiver => ?_
    dsimp only
    split
    · exact hplain (List.forall_mem_nil _)
    · have hqualifier : Spares x (some <$> exprNode value) Option.toList := hvalue.map
      exact hqualifier.bind fun q hq => hplain hq

theorem spares_nameCall :
    Spares x (exprNode (.call r (.name fr name) args keywords)) fun t => [t] := by
  rw [exprNode]
  refine (spares_still fun _ => createdType?_same).skip fun created => ?_
  rcases created with _ | typeName
  · exact spares_arguments hargs hkeywords [] (by simp [Shape.IsPlain])
      (by simp [Shape.children, Shape.slots]) (List.forall_mem_nil _)
  · exact spares_arguments hargs hkeywords [] (by simp [Shape.IsPlain])
      (by simp [Shape.children, Shape.slots]) (List.forall_mem_nil _)

theorem spares_call (hattribute : ∀ fr value attr, function ≠ .attribute fr value attr)
    (hname : ∀ fr id, function ≠ .name fr id)
    (hfunction : Spares x (exprNode function) fun t => [t]) :
    Spares x (exprNode (.call r function args keywords)) fun t => [t] := by
  rw [exprNode]
  · refine hfunction.bind fun t ht => ?_
    exact spares_arguments hargs hkeywords [t] (by simp [Shape.IsPlain])
      (by simp [Shape.children, Shape.slots]) ht
  · exact hattribute
  · exact hname

end Calls

mutual

/-- **An expression spares the names that it does not bind on the way.** -/
theorem spares_exprNode : (e : Expr) → x ∉ e.collect Expr.ownWalrus →
    Spares x (exprNode e) fun t => [t]
  | .name r id, _ => by
    rw [exprNode]
    exact spares_nameNode
  | .constant r value hasLetter, _ => by
    rw [exprNode]
    exact spares_pure (plain_singleton (by simp [Shape.IsPlain]) nofun)
  | .attribute r value attr, hx => by
    rw [exprNode]
    refine (spares_still fun _ => runs_isReceiver).skip fun isReceiver => ?_
    split
    · exact spares_receiverField?.skip fun v => spares_pure (List.forall_mem_singleton.mpr plain_field)
    · refine (spares_exprNode value fun h => hx (List.mem_append_right _ h)).last fun t ht => ?_
      exact plain_singleton (by simp [Shape.IsPlain]) ht
  | .subscript r value index, hx => by
    simp only [Expr.collect, List.mem_append, not_or] at hx
    rw [exprNode]
    refine (spares_exprNode value hx.1.2).bind fun t ht => (spares_exprNode index hx.2).last
      fun u hu => plain_singleton (by simp [Shape.IsPlain]) ?_
    exact List.forall_mem_append.mpr ⟨ht, hu⟩
  | .call r function args keywords, hx => by
    simp only [Expr.collect, List.mem_append, not_or] at hx
    obtain ⟨⟨⟨-, hfunction⟩, hargs⟩, hkeywords⟩ := hx
    have hargs := spares_exprNodes args hargs
    have hkeywords := spares_keywordNodes keywords hkeywords
    cases function with
    | «attribute» fr value attr =>
      exact spares_attributeCall hargs hkeywords
        (spares_exprNode value fun h => hfunction (List.mem_append_right _ h))
    | name fr id => exact spares_nameCall hargs hkeywords
    | _ =>
      exact spares_call hargs hkeywords (by simp) (by simp) (spares_exprNode _ hfunction)
  | .compound r form operands, hx => by
    rw [exprNode]
    refine (spares_exprNodes operands fun h => hx (List.mem_append_right _ h)).last fun ts hts => ?_
    exact List.forall_mem_singleton.mpr (plain_compound hts)
  | .dict r entries, hx => by
    have hentries : x ∉ Expr.collectEntries Expr.ownWalrus entries :=
      fun h => hx (List.mem_append_right _ h)
    rw [exprNode]
    refine (spares_keyNodes entries hentries).bind fun ts hts => (spares_valueNodes entries hentries).last
      fun us hus => List.forall_mem_singleton.mpr (plain_compound ?_)
    exact List.forall_mem_append.mpr ⟨hts, hus⟩
  | .walrus r target id value, hx => by
    simp only [Expr.collect, Expr.ownWalrus, List.mem_append, List.mem_singleton, not_or] at hx
    rw [exprNode]
    refine (spares_exprNode value hx.2).bind fun t ht => (spares_targetName (Ne.symm hx.1)).last
      fun u hu => List.forall_mem_singleton.mpr ?_
    exact plain_assignment (List.forall_mem_singleton.mp hu) (List.forall_mem_singleton.mp ht)
  | .lambda r parameters body, hx => by
    rw [exprNode]
    intro s hs
    refine (parameterNames_runs parameters hs.valid).bind fun names s₁ ⟨h₁, hnames, _⟩ => ?_
    have hbody := spares_exprNode body fun h => hx (List.mem_append_right _ h)
    have hparameters : Spared x s s₁ := spared_of_pending (h₁.reaches hs) (h₁.quiet trivial)
    refine (hbody.inFrame hparameters.reaches.isOpen (hnames.mono fun _ _ => trivial)).bind
      fun t s₂ ⟨h₂, ht⟩ => runs_pure ⟨hparameters.trans h₂, ?_⟩
    have hreturn : Plain (nodeAt body.range (.returnStatement (some t))) := plain_returnStatement ht
    refine plain_singleton (by simp [Shape.IsPlain]) ?_
    simpa [Shape.children, Shape.slots] using hreturn
  | .comprehension r kind elements first rest, hx => by
    simp only [Expr.collect, List.mem_append, not_or] at hx
    obtain ⟨⟨⟨-, helements⟩, hfirst⟩, hrest⟩ := hx
    rw [exprNode]
    have hinner : Spares x (do
        let (vs, nodes) ← clauseNodes first
        let (vs', nodes') ← innerClauseNodes rest
        return (vs ++ vs', nodes ++ nodes' ++ (← exprNodes elements))) (·.2) :=
      (spares_clauseNodes first hfirst).bind fun p hp => (spares_innerClauseNodes rest hrest).bind
        fun q hq => (spares_exprNodes elements helements).last fun ts hts =>
          List.forall_mem_append.mpr ⟨List.forall_mem_append.mpr ⟨hp, hq⟩, hts⟩
    refine (spares_sourceNode first hfirst).bind fun t ht => hinner.withFrame.last fun p hp => ?_
    have hyield : Plain (nodeAt r (.exprStatement (compoundAt r "yield" p.2))) :=
      plain_exprStatement (plain_compound hp)
    have hlambda : Plain (nodeAt r (.lambda p.1 false
        [nodeAt r (.exprStatement (compoundAt r "yield" p.2))])) := by
      refine plain_node (by simp [Shape.IsPlain]) ?_
      simpa [Shape.children, Shape.slots] using hyield
    refine List.forall_mem_singleton.mpr (plain_compound ?_)
    exact List.forall_mem_cons.mpr
      ⟨List.forall_mem_singleton.mp ht, List.forall_mem_singleton.mpr hlambda⟩

theorem spares_exprNodes : (es : List Expr) → x ∉ Expr.collectAll Expr.ownWalrus es →
    Spares x (exprNodes es) id
  | [], _ => spares_pure nofun
  | e :: es, hx => by
    simp only [Expr.collectAll, List.mem_append, not_or] at hx
    exact spares_cons (spares_exprNode e hx.1) (spares_exprNodes es hx.2)

theorem spares_keywordNodes : (ks : List Keyword) → x ∉ Expr.collectKeywords Expr.ownWalrus ks →
    Spares x (keywordNodes ks) id
  | [], _ => spares_pure nofun
  | .mk _ value :: rest, hx => by
    simp only [Expr.collectKeywords, List.mem_append, not_or] at hx
    exact spares_cons (spares_exprNode value hx.1) (spares_keywordNodes rest hx.2)

theorem spares_keyNodes : (es : List Entry) → x ∉ Expr.collectEntries Expr.ownWalrus es →
    Spares x (keyNodes es) id
  | [], _ => spares_pure nofun
  | .pair key _ :: rest, hx => by
    simp only [Expr.collectEntries, List.mem_append, not_or] at hx
    exact spares_cons (spares_exprNode key hx.1.1) (spares_keyNodes rest hx.2)
  | .unpack _ :: rest, hx => by
    simp only [Expr.collectEntries, List.mem_append, not_or] at hx
    exact spares_keyNodes rest hx.2

theorem spares_valueNodes : (es : List Entry) → x ∉ Expr.collectEntries Expr.ownWalrus es →
    Spares x (valueNodes es) id
  | [], _ => spares_pure nofun
  | .pair _ value :: rest, hx => by
    simp only [Expr.collectEntries, List.mem_append, not_or] at hx
    exact spares_cons (spares_exprNode value hx.1.2) (spares_valueNodes rest hx.2)
  | .unpack value :: rest, hx => by
    simp only [Expr.collectEntries, List.mem_append, not_or] at hx
    exact spares_cons (spares_exprNode value hx.1) (spares_valueNodes rest hx.2)

theorem spares_sourceNode : (c : Clause) → x ∉ Expr.collectClause Expr.ownWalrus c →
    Spares x (sourceNode c) fun t => [t]
  | .mk _ _ source _, hx => by
    simp only [Expr.collectClause, List.mem_append, not_or] at hx
    exact spares_exprNode source hx.1.2

theorem spares_clauseNodes : (c : Clause) → x ∉ Expr.collectClause Expr.ownWalrus c →
    Spares x (clauseNodes c) (·.2)
  | .mk _ target _ conditions, hx => by
    simp only [Expr.collectClause, List.mem_append, not_or] at hx
    refine ((carries_bindAll _).spares (mild_bindAll _)).skip fun _ => ?_
    refine (spares_exprNode target hx.1.1).bind fun t ht => (spares_exprNodes conditions hx.2).last
      fun ts hts => List.forall_mem_cons.mpr ⟨List.forall_mem_singleton.mp ht, hts⟩

theorem spares_innerClauseNodes : (cs : List Clause) → x ∉ Expr.collectClauses Expr.ownWalrus cs →
    Spares x (innerClauseNodes cs) (·.2)
  | [], _ => spares_pure nofun
  | c :: rest, hx => by
    simp only [Expr.collectClauses, List.mem_append, not_or] at hx
    refine (spares_sourceNode c hx.1).bind fun t ht => (spares_clauseNodes c hx.1).bind
      fun p hp => (spares_innerClauseNodes rest hx.2).last fun q hq => ?_
    exact List.forall_mem_append.mpr
      ⟨List.forall_mem_cons.mpr ⟨List.forall_mem_singleton.mp ht, hp⟩, hq⟩

end

/-! ## Classes -/

theorem mem_initializersIn_cons {stmt : Stmt} {rest : List Stmt} {e : Expr}
    (h : e ∈ initializersIn rest) : e ∈ initializersIn (stmt :: rest) := by
  obtain ⟨es, hes⟩ := initializersIn_cons stmt rest
  exact hes ▸ List.mem_append_right _ h

/-- A class is built: its members spare a name. -/
theorem runs_class {k : Tree → Build α} {Q : α → Building → Prop} {bases : List Expr}
    {body : List Stmt} (hmembers : ∀ {c : OpenClass} {s : Building}, s.Open → c.Sound s.vars →
      Runs (memberNodes locks c [] body) s (fun _ => True) fun _ s' => Spared x s s')
    (hs : s.Open) (hk : ∀ t s', Spared x s s' → Runs (k t) s' (fun _ => True) Q) :
    Runs (do
      let c ← openClass name bases body
      let members ← withQualifier name (memberNodes locks c [] body)
      let t ← classNode r name body members
      k t) s (fun _ => True) Q := by
  refine (openClass_runs hs.valid).bind fun c s₁ ⟨h₁, hc, _⟩ => ?_
  have hopened : Spared x s s₁ := spared_of_pending (h₁.reaches hs) (h₁.quiet trivial)
  have hqualified : Runs (withQualifier name (memberNodes locks c [] body)) s₁ (fun _ => True)
      fun _ s' => Spared x s s' :=
    runs_withQualifier ((hmembers (hopened.reaches.isOpen.openQualifier name) hc).mono
      fun _ _ h => hopened.trans h.closeQualifier)
  refine hqualified.bind fun ts s₂ h₂ => ?_
  refine Runs.bind (Q := fun _ s' => s' = s₂) (runs_qualified.bind fun _ _ hs₃ => hs₃) fun t s₃ hs₃ => ?_
  subst hs₃
  exact hk t _ h₂

/-- **The members of a class spare the names that its initializers do not bind on the way.** -/
theorem spared_memberNodes : (body : List Stmt) → (∀ e ∈ initializersIn body, x ∉ e.walruses) →
    {c : OpenClass} → {emitted : List String} → {s : Building} → s.Open → c.Sound s.vars →
    Runs (memberNodes locks c emitted body) s (fun _ => True) fun _ s' => Spared x s s'
  | [], _, c, _, s, hs, _ => by
    rw [memberNodes]
    exact (remainingFields_same c.own).mono fun _ s' hs' => by
      subst hs'
      exact hs.spared
  | stmt :: rest, hx, c, emitted, s, hs, hc => by
    -- however the member was built, the others are built behind it
    have hrest : ∀ (ts : List Tree) emitted' s', Spared x s s' →
        Runs (do return ts ++ (← memberNodes locks c emitted' rest)) s' (fun _ => True)
          fun _ s'' => Spared x s s'' := fun ts emitted' s' h =>
      (spared_memberNodes rest (fun e he => hx e (mem_initializersIn_cons he)) h.reaches.isOpen
        (hc.extends h.reaches.grows.vars)).bind fun _ _ h' => runs_pure (h.trans h')
    have hassigned : ∀ r (initializer : Option Tree) names s', Spared x s s' →
        Runs (assignedMembers locks c emitted r (pure initializer) names rest) s' (fun _ => True)
          fun _ s'' => Spared x s s'' := by
      intro r initializer names s' h
      rw [assignedMembers, pure_bind]
      refine (assignedFields_same names).bind fun p s₂ hs₂ => ?_
      subst hs₂
      exact hrest p.1 p.2 _ h
    have hvalue : ∀ r (value : Expr) names, value ∈ initializersIn (stmt :: rest) →
        Runs (assignedMembers locks c emitted r (some <$> exprNode value) names rest) s
          (fun _ => True) fun _ s'' => Spared x s s'' := by
      intro r value names hvalue
      rw [assignedMembers, map_eq_pure_bind, bind_assoc]
      apply (spares_exprNode value (hx value hvalue) s hs).bind
      rintro t s₁ ⟨h₁, -⟩
      simpa only [assignedMembers, pure_bind] using hassigned r (some t) names s₁ h₁
    cases stmt with
    | function r signature body =>
      rw [memberNodes]
      refine (methodNode_runs hs.valid trivial (fun names hnames => ?_) fun s' hs' hne =>
        stmtsNodes_runs body ⟨hs', hne, fun _ _ => trivial⟩ fun _ => trivial).bind ?_
      · cases hnames
        exact hc.all
      · rintro t s₁ ⟨-, h₁⟩
        exact hrest [t] emitted s₁ (spared_of_pending (h₁.reaches hs) (h₁.quiet trivial))
    | classType r name bases body =>
      have hinitializers : ∀ e ∈ initializersIn body, x ∉ e.walruses := fun e he =>
        hx e (by rw [initializersIn.eq_def]; exact List.mem_append_left _ he)
      rw [memberNodes]
      exact runs_class (fun hs hc => spared_memberNodes body hinitializers hs hc) hs
        fun t s₁ h₁ => hrest [t] emitted s₁ h₁
    | assign r targets value =>
      obtain ⟨y, hmembers, rfl | ⟨rfl, tr, id, rfl, -⟩⟩ :=
        memberNodes_assign locks c emitted r targets value rest
      all_goals rw [hmembers]
      · exact hassigned r none _ s hs.spared
      · exact hvalue r value _ List.mem_cons_self
    | annotate r target typeHint value =>
      obtain ⟨y, hmembers, rfl | ⟨e, rfl, rfl, tr, id, rfl, -⟩⟩ :=
        memberNodes_annotate locks c emitted r target typeHint value rest
      all_goals rw [hmembers]
      · exact hassigned r none _ s hs.spared
      · exact hvalue r e _ List.mem_cons_self
    | _ =>
      simp only [memberNodes]
      simpa only [List.nil_append, bind_pure] using hrest [] emitted s hs.spared

end ModelLint.Source
