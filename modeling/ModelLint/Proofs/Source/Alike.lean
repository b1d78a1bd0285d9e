import ModelLint.Proofs.Program.Resembling
import ModelLint.Proofs.Source.Layers
import ModelLint.Proofs.Source.Spread

/-!
# Building without a look at places

Where an expression stands is put into its nodes and never read again. Hence steps on states that are the
same but for places do the same, and the nodes of an expression are those of the expression at one place,
but for their places.

* `Alike`: two steps do the same but for places. `Alike.bind`, `alike_of_blind`: how to show it.
* **`alike_exprNode`**, `alike_targetNode`: the nodes of an expression, and those of a target.
* `alike_assignNodes`, `alike_annotateNodes`, `alike_importNodes`, `alike_throwNodes`,
  `alike_simpleNodes`: those of statements without blocks.
* `alike_heldFor`: how a resource is held.
-/

namespace ModelLint.Source

open Build

/-! ## Steps that do the same -/

/-- Two trees are the same but for places. -/
abbrev SameTree (t t' : Tree) : Prop := t.placeless = t'.placeless

/-- Trees are the same but for places. -/
abbrev SameTrees (ts ts' : List Tree) : Prop := ts.map Tree.placeless = ts'.map Tree.placeless

/-- A state with all nodes at one place. -/
@[simp] def Building.placeless (s : Building) : Building :=
  { s with pending := s.pending.map Tree.placeless, hoisted := s.hoisted.map Tree.placeless }


/-- States that are the same but for places differ in nothing but the nodes put aside. -/
theorem Building.eq_of_placeless {s s' : Building} (h : s.placeless = s'.placeless) :
    SameTrees s.pending s'.pending ∧ SameTrees s.hoisted s'.hoisted ∧
      s' = { s with pending := s'.pending, hoisted := s'.hoisted } := by
  obtain ⟨_, _, _, _, _, _, pending, hoisted⟩ := s
  obtain ⟨_, _, _, _, _, _, pending', hoisted'⟩ := s'
  simp only [placeless, Building.mk.injEq] at h
  obtain ⟨rfl, rfl, rfl, rfl, rfl, rfl, hpending, hhoisted⟩ := h
  exact ⟨hpending, hhoisted, rfl⟩

/-- **Two steps do the same** on states that are the same but for places: they fail for the same reason, or
their results are related and the states are again the same but for places. -/
def Alike {α β : Type} (R : α → β → Prop) (x : Build α) (y : Build β) : Prop :=
  ∀ s s', s.placeless = s'.placeless → Runs x s (fun e => y s' = .error e) fun a t =>
    ∃ b t', y s' = .ok (b, t') ∧ R a b ∧ t.placeless = t'.placeless

section Steps

variable {α β γ δ : Type} {R R' : α → β → Prop} {S : γ → δ → Prop} {x : Build α} {y : Build β}
  {f : α → Build γ} {g : β → Build δ}

theorem Alike.pure {a : α} {b : β} (h : R a b) : Alike R (Pure.pure a) (Pure.pure b) :=
  fun _ s' hs => ⟨_, s', rfl, h, hs⟩

theorem Alike.bind (hx : Alike R x y) (hf : ∀ a b, R a b → Alike S (f a) (g b)) :
    Alike S (x >>= f) (y >>= g) := by
  intro s s' hs
  have hbind : (y >>= g) s' = (y s').bind fun p => g p.1 p.2 := rfl
  have hrun := hx s s' hs
  rw [Runs] at hrun ⊢
  have hxbind : (x >>= f) s = (x s).bind fun p => f p.1 p.2 := rfl
  rw [hxbind, hbind]
  rcases hxs : x s with e | ⟨a, t⟩
  · rw [hxs] at hrun
    rw [hrun]
    rfl
  · rw [hxs] at hrun
    obtain ⟨b, t', hy, hab, ht⟩ := hrun
    rw [hy]
    exact hf a b hab t t' ht

/-- The rule for steps with the same result. -/
theorem Alike.next {x y : Build α} {g : α → Build δ} (hx : Alike Eq x y)
    (hf : ∀ a, Alike S (f a) (g a)) : Alike S (x >>= f) (y >>= g) :=
  hx.bind fun a _ hab => hab ▸ hf a

theorem Alike.map {k : α → γ} {l : β → δ} (h : Alike R x y) (hS : ∀ a b, R a b → S (k a) (l b)) :
    Alike S (k <$> x) (l <$> y) := by
  rw [← bind_pure_comp, ← bind_pure_comp]
  exact h.bind fun a b hab => .pure (hS a b hab)

theorem alike_throw {e : BuildFailure} : Alike R (throw e : Build α) (throw e : Build β) :=
  fun _ _ _ => rfl

/-- A step that looks at no node and puts none aside. -/
theorem alike_of_blind {x : Build α} (hx : ∀ s pending hoisted, x { s with pending, hoisted } =
    (x s).map fun p => (p.1, { p.2 with pending, hoisted })) : Alike Eq x x := by
  intro s s' hs
  obtain ⟨hpending, hhoisted, hs'⟩ := Building.eq_of_placeless hs
  have hself := hx s s.pending s.hoisted
  have hother := hx s s'.pending s'.hoisted
  rw [← hs'] at hother
  rw [Runs]
  rcases hxs : x s with e | ⟨a, t⟩
  · rw [hxs] at hother
    exact hother
  · rw [hxs] at hself hother
    have ht : t = { t with pending := s.pending, hoisted := s.hoisted } :=
      (Prod.mk.inj (Except.ok.inj hself)).2
    refine ⟨a, _, hother, rfl, ?_⟩
    rw [ht]
    simp only [Building.placeless, hpending, hhoisted]

theorem alike_modify {k l : Building → Building}
    (hk : ∀ s pending hoisted, SameTrees s.pending pending → SameTrees s.hoisted hoisted →
      (k s).placeless = (l { s with pending, hoisted }).placeless) :
    Alike Eq (modify k : Build PUnit) (modify l) := by
  intro s s' hs
  obtain ⟨hpending, hhoisted, hs'⟩ := Building.eq_of_placeless hs
  exact ⟨⟨⟩, l s', rfl, rfl, hs' ▸ hk s _ _ hpending hhoisted⟩

/-- What reads a state reads the same of states that are the same but for places. -/
theorem alike_get_bind {k : Building → Build γ} {l : Building → Build δ}
    (h : ∀ s pending hoisted, SameTrees s.pending pending → SameTrees s.hoisted hoisted →
      Alike S (k s) (l { s with pending, hoisted })) : Alike S (get >>= k) (get >>= l) := by
  intro s s' hs
  obtain ⟨hpending, hhoisted, hs'⟩ := Building.eq_of_placeless hs
  have hkl := h s _ _ hpending hhoisted
  rw [← hs'] at hkl
  exact hkl s s' hs

/-! ## Nesting -/

theorem Alike.withFrame {frame : Frame} (h : Alike R x y) :
    Alike R (Build.withFrame frame x) (Build.withFrame frame y) := by
  refine Alike.next (alike_modify ?_) fun _ => h.bind fun a b hab =>
    Alike.next (alike_modify ?_) fun _ => .pure hab
  all_goals exact fun s _ _ hpending hhoisted => by simp only [Building.placeless, hpending, hhoisted]

theorem Alike.withQualifier {name : String} (h : Alike R x y) :
    Alike R (Build.withQualifier name x) (Build.withQualifier name y) := by
  refine Alike.next (alike_modify ?_) fun _ => h.bind fun a b hab =>
    Alike.next (alike_modify ?_) fun _ => .pure hab
  all_goals exact fun s _ _ hpending hhoisted => by simp only [Building.placeless, hpending, hhoisted]

theorem Alike.withReceiver (receiver : Option Receiver) (h : Alike R x y) :
    Alike R (Build.withReceiver receiver x) (Build.withReceiver receiver y) := by
  rcases receiver with _ | receiver
  · exact h
  · refine Alike.next (alike_modify ?_) fun _ => h.bind fun a b hab =>
      Alike.next (alike_modify ?_) fun _ => .pure hab
    all_goals exact fun s _ _ hpending hhoisted => by simp only [Building.placeless, hpending, hhoisted]

theorem Alike.collectPending (h : Alike R x y) :
    Alike (fun p q => SameTrees p.1 q.1 ∧ R p.2 q.2) (Build.collectPending x)
      (Build.collectPending y) := by
  refine alike_get_bind fun s pending hoisted hpending hhoisted => Alike.next (alike_modify ?_) fun _ =>
    h.bind fun a b hab => alike_get_bind fun t pending' hoisted' hpending' hhoisted' =>
      Alike.next (alike_modify ?_) fun _ => .pure ⟨hpending', hab⟩
  · exact fun s _ _ _ hhoisted => by simp only [Building.placeless, hhoisted]
  · exact fun s _ _ _ hhoisted => by simp only [Building.placeless, hpending, hhoisted]

end Steps

/-! ## Variables and names -/

section Names

variable {name : String} {v : VariableId}

theorem alike_newVariable {type : Option String} {kind : VariableKind} {isStatic : Bool} :
    Alike Eq (newVariable name type kind isStatic) (newVariable name type kind isStatic) :=
  alike_of_blind fun _ _ _ => rfl

theorem alike_typeOf? : Alike Eq (typeOf? v) (typeOf? v) := alike_of_blind fun _ _ _ => rfl

theorem alike_lookup? : Alike Eq (lookup? name) (lookup? name) := alike_of_blind fun _ _ _ => rfl

theorem alike_receiverField? : Alike Eq (receiverField? name) (receiverField? name) :=
  alike_of_blind fun _ _ _ => rfl

theorem alike_qualified : Alike Eq (qualified name) (qualified name) :=
  alike_of_blind fun _ _ _ => rfl

theorem alike_modifyFrame {k : Frame → Frame} : Alike Eq (modifyFrame k) (modifyFrame k) := by
  refine alike_of_blind fun s _ _ => ?_
  obtain ⟨_, _, _, frames, _, _, _, _⟩ := s
  cases frames <;> rfl

theorem alike_bindName : Alike Eq (bindName name v) (bindName name v) := alike_modifyFrame

theorem alike_addPending {t t' : Tree} (h : SameTree t t') : Alike Eq (addPending t) (addPending t') :=
  alike_modify fun s pending hoisted hpending hhoisted => by
    simp only [Building.placeless, List.map_append, hpending, hhoisted, List.map_cons, h]

theorem alike_addHoisted {t t' : Tree} (h : SameTree t t') : Alike Eq (addHoisted t) (addHoisted t') :=
  alike_modify fun s pending hoisted hpending hhoisted => by
    simp only [Building.placeless, List.map_append, hpending, hhoisted, List.map_cons, h]

theorem alike_globalField {modifiers : List String} :
    Alike Eq (globalField name modifiers) (globalField name modifiers) := by
  refine alike_get_bind fun s pending hoisted _ _ => ?_
  dsimp only
  split
  · exact .pure rfl
  · refine alike_newVariable.next fun v => alike_get_bind fun s pending hoisted _ _ =>
      Alike.next (alike_modify fun s pending hoisted hpending hhoisted => ?_) fun _ => .pure rfl
    simp only [Building.placeless, List.map_append, hpending, hhoisted]

theorem alike_binding? : Alike Eq (binding? name) (binding? name) := by
  refine alike_get_bind fun s pending hoisted _ _ => ?_
  dsimp only
  repeat' split
  all_goals first | exact .pure rfl | exact alike_globalField.map fun _ _ => congrArg some

theorem isReceiver_placeless (e : Expr) : isReceiver e.placeless = isReceiver e := by
  simp only [isReceiver, Expr.name?_placeless]

theorem alike_isReceiver (e : Expr) : Alike Eq (isReceiver e) (isReceiver e.placeless) := by
  rw [isReceiver_placeless]
  refine alike_get_bind fun s pending hoisted _ _ => ?_
  dsimp only
  split <;> exact .pure rfl

theorem alike_parameterNames : (ps : List Parameter) →
    Alike Eq (parameterNames ps) (parameterNames (placelessParameters ps))
  | [] => .pure rfl
  | .mk kind name typeHint value :: rest => by
    have htype : (placelessExpr? typeHint).bind Expr.annotatedType =
        typeHint.bind Expr.annotatedType := by
      cases typeHint <;> simp
    rw [placelessParameters, Parameter.placeless, parameterNames, parameterNames]
    simp only [Parameter.name, Parameter.typeHint, htype]
    exact alike_newVariable.next fun v => (alike_parameterNames rest).next fun names => .pure rfl

theorem alike_bindAll : (names : List String) → Alike Eq (bindAll names) (bindAll names)
  | [] => .pure rfl
  | _ :: rest => alike_newVariable.next fun _ => alike_bindName.next fun _ =>
    (alike_bindAll rest).next fun _ => .pure rfl

theorem alike_createdType? (e : Expr) : Alike Eq (createdType? e) (createdType? e.placeless) := by
  cases e
  case «attribute» r value attr =>
    rw [Expr.placeless, createdType?, createdType?, ← Expr.dotted?_placeless (.attribute r value attr)]
    refine (alike_isReceiver value).next fun b => ?_
    split <;> exact .pure rfl
  all_goals exact .pure rfl

end Names

/-! ## Expressions -/

section Expressions

variable {r r' : Range} {id : String}

theorem placeless_nodeAt (r : Range) (s : Shape Tree) :
    (nodeAt r s).placeless = .node default s.placeless := rfl

theorem sameTree_nodeAt {s s' : Shape Tree} (h : s.placeless = s'.placeless) :
    SameTree (nodeAt r s) (nodeAt r' s') := congrArg (Tree.node default) h

theorem sameTree_compoundAt {operator : String} {ts ts' : List Tree} (h : SameTrees ts ts') :
    SameTree (compoundAt r operator ts) (compoundAt r' operator ts') :=
  sameTree_nodeAt (by simp only [Shape.placeless, placelessAll_eq, h])

theorem SameTrees.append {ts ts' us us' : List Tree} (h : SameTrees ts ts') (h' : SameTrees us us') :
    SameTrees (ts ++ us) (ts' ++ us') := by
  rw [SameTrees, List.map_append, List.map_append, h, h']

theorem SameTrees.cons {t t' : Tree} {ts ts' : List Tree} (h : SameTree t t') (h' : SameTrees ts ts') :
    SameTrees (t :: ts) (t' :: ts') := congrArg₂ List.cons h h'

theorem SameTree.singleton {t t' : Tree} (h : SameTree t t') : SameTrees [t] [t'] :=
  SameTrees.cons h rfl

theorem alike_cons {x x' : Build Tree} {y y' : Build (List Tree)} (hx : Alike SameTree x x')
    (hy : Alike SameTrees y y') :
    Alike SameTrees (do let t ← x; return t :: (← y)) (do let t ← x'; return t :: (← y')) :=
  hx.bind fun _ _ ht => hy.bind fun _ _ hts => .pure (.cons ht hts)

theorem alike_append {x x' y y' : Build (List Tree)} (hx : Alike SameTrees x x')
    (hy : Alike SameTrees y y') :
    Alike SameTrees (do let ts ← x; return ts ++ (← y)) (do let ts ← x'; return ts ++ (← y')) :=
  hx.bind fun _ _ hts => hy.bind fun _ _ hus => .pure (hts.append hus)

theorem alike_nameNode : Alike SameTree (nameNode r id) (nameNode r' id) := by
  refine alike_lookup?.next fun v => ?_
  split
  · exact .pure (sameTree_nodeAt rfl)
  · split
    · exact alike_globalField.next fun _ => .pure (sameTree_nodeAt rfl)
    · exact .pure (sameTree_nodeAt rfl)

theorem alike_targetName : Alike SameTree (targetName r id) (targetName r' id) := by
  refine alike_binding?.next fun v => ?_
  split
  · exact .pure (sameTree_nodeAt rfl)
  · exact alike_newVariable.next fun v => alike_bindName.next fun _ =>
      (alike_addPending (sameTree_nodeAt rfl)).next fun _ => .pure (sameTree_nodeAt rfl)

section Calls

variable {fr : Range} {attr name : String} {value function : Expr} {args : List Expr}
  {keywords : List Keyword}
  (hargs : Alike SameTrees (exprNodes args) (exprNodes (placelessExprs args)))
  (hkeywords : Alike SameTrees (keywordNodes keywords) (keywordNodes (placelessKeywords keywords)))

include hargs hkeywords

/-- A node is made of the arguments of a call. -/
theorem alike_arguments {shape shape' : List Tree → Shape Tree}
    (hshape : ∀ us us', SameTrees us us' → (shape us).placeless = (shape' us').placeless) :
    Alike SameTree
      (do
        let args ← exprNodes args
        return nodeAt r (shape (args ++ (← keywordNodes keywords))))
      (do
        let args ← exprNodes (placelessExprs args)
        return nodeAt r' (shape' (args ++ (← keywordNodes (placelessKeywords keywords))))) :=
  hargs.bind fun _ _ hts => hkeywords.bind fun _ _ hus =>
    .pure (sameTree_nodeAt (hshape _ _ (hts.append hus)))

theorem alike_attributeCall (hvalue : Alike SameTree (exprNode value) (exprNode value.placeless)) :
    Alike SameTree (exprNode (.call r (.attribute fr value attr) args keywords))
      (exprNode (Expr.call r (.attribute fr value attr) args keywords).placeless) := by
  rw [Expr.placeless, Expr.placeless, exprNode, exprNode]
  refine (alike_createdType? (.attribute fr value attr)).next fun created => ?_
  split
  · exact alike_arguments hargs hkeywords fun us us' hus => by
      simp only [Shape.placeless, placelessAll_eq, hus]
  · refine (alike_isReceiver value).next fun isReceiver => ?_
    dsimp only
    split
    · exact alike_arguments hargs hkeywords fun us us' hus => by
        simp only [Shape.placeless, placelessAll_eq, hus]
    · have hqualifier : Alike (fun q q' => q.map Tree.placeless = q'.map Tree.placeless)
          (some <$> exprNode value) (some <$> exprNode value.placeless) :=
        hvalue.map fun t t' => congrArg some
      exact hqualifier.bind fun q q' hq => alike_arguments hargs hkeywords fun us us' hus => by
        simp only [Shape.placeless, placelessAll_eq, placelessSome_eq, hus, hq]

theorem alike_nameCall :
    Alike SameTree (exprNode (.call r (.name fr name) args keywords))
      (exprNode (Expr.call r (.name fr name) args keywords).placeless) := by
  rw [Expr.placeless, Expr.placeless, exprNode, exprNode]
  refine (alike_createdType? (.name fr name)).next fun created => ?_
  rcases created with _ | typeName
  · exact alike_arguments hargs hkeywords fun us us' hus => by
      simp only [Shape.placeless, placelessAll_eq, hus]
  · exact alike_arguments hargs hkeywords fun us us' hus => by
      simp only [Shape.placeless, placelessAll_eq, hus]

theorem alike_call (hattribute : ∀ fr value attr, function ≠ .attribute fr value attr)
    (hname : ∀ fr id, function ≠ .name fr id)
    (hattribute' : ∀ fr value attr, function.placeless ≠ .attribute fr value attr)
    (hname' : ∀ fr id, function.placeless ≠ .name fr id)
    (hfunction : Alike SameTree (exprNode function) (exprNode function.placeless)) :
    Alike SameTree (exprNode (.call r function args keywords))
      (exprNode (Expr.call r function args keywords).placeless) := by
  rw [Expr.placeless, exprNode, exprNode]
  · exact hfunction.bind fun t t' ht => alike_arguments hargs hkeywords fun us us' hus => by
      simp only [Shape.placeless, placelessAll_eq, placelessSome, hus, ht]
  all_goals assumption

end Calls

mutual

/-- **The nodes of an expression** are those of the expression at one place. -/
theorem alike_exprNode : (e : Expr) → Alike SameTree (exprNode e) (exprNode e.placeless)
  | .name r id => by
    rw [Expr.placeless, exprNode, exprNode]
    exact alike_nameNode
  | .constant r value hasLetter => by
    rw [Expr.placeless, exprNode, exprNode]
    exact .pure (sameTree_nodeAt rfl)
  | .attribute r value attr => by
    rw [Expr.placeless, exprNode, exprNode]
    refine (alike_isReceiver value).next fun isReceiver => ?_
    split
    · exact alike_receiverField?.next fun v => .pure (sameTree_nodeAt rfl)
    · refine (alike_exprNode value).bind fun t t' ht => .pure (sameTree_nodeAt ?_)
      simp only [Shape.placeless, placelessSome, ht]
  | .subscript r value index => by
    rw [Expr.placeless, exprNode, exprNode]
    refine (alike_exprNode value).bind fun t t' ht => (alike_exprNode index).bind fun u u' hu =>
      .pure (sameTree_nodeAt ?_)
    simp only [Shape.placeless, placelessSome, ht, hu]
  | .call r function args keywords => by
    have hargs := alike_exprNodes args
    have hkeywords := alike_keywordNodes keywords
    cases function with
    | «attribute» fr value attr => exact alike_attributeCall hargs hkeywords (alike_exprNode value)
    | name fr id => exact alike_nameCall hargs hkeywords
    | _ =>
      exact alike_call hargs hkeywords (by simp) (by simp) (by simp [Expr.placeless])
        (by simp [Expr.placeless]) (alike_exprNode _)
  | .compound r form operands => by
    rw [Expr.placeless, exprNode, exprNode]
    exact (alike_exprNodes operands).bind fun ts ts' hts => .pure (sameTree_compoundAt hts)
  | .dict r entries => by
    rw [Expr.placeless, exprNode, exprNode]
    exact (alike_keyNodes entries).bind fun ts ts' hts => (alike_valueNodes entries).bind
      fun us us' hus => .pure (sameTree_compoundAt (hts.append hus))
  | .walrus r target id value => by
    rw [Expr.placeless, exprNode, exprNode]
    refine (alike_exprNode value).bind fun t t' ht => alike_targetName.bind fun u u' hu =>
      .pure (sameTree_nodeAt ?_)
    simp only [Shape.placeless, ht, hu]
  | .lambda r parameters body => by
    rw [Expr.placeless, exprNode, exprNode]
    refine (alike_parameterNames parameters).next fun names => (alike_exprNode body).withFrame.bind
      fun t t' ht => .pure (sameTree_nodeAt ?_)
    simp only [Shape.placeless, placelessAll, placeless_nodeAt, placelessSome, ht]
  | .comprehension r kind elements first rest => by
    rw [Expr.placeless, exprNode, exprNode]
    refine (alike_sourceNode first).bind fun t t' ht => ?_
    have hinner : Alike (fun p q => p.1 = q.1 ∧ SameTrees p.2 q.2)
        (withFrame (.ofNames []) do
          let (vs, nodes) ← clauseNodes first
          let (vs', nodes') ← innerClauseNodes rest
          return (vs ++ vs', nodes ++ nodes' ++ (← exprNodes elements)))
        (withFrame (.ofNames []) do
          let (vs, nodes) ← clauseNodes first.placeless
          let (vs', nodes') ← innerClauseNodes (placelessClauses rest)
          return (vs ++ vs', nodes ++ nodes' ++ (← exprNodes (placelessExprs elements)))) :=
      ((alike_clauseNodes first).bind fun p p' hp => (alike_innerClauseNodes rest).bind fun q q' hq =>
        (alike_exprNodes elements).bind fun ts ts' hts => .pure
          ⟨congrArg₂ (· ++ ·) hp.1 hq.1, (hp.2.append hq.2).append hts⟩).withFrame
    refine hinner.bind fun p p' hp => .pure (sameTree_compoundAt (SameTrees.cons ht
      (SameTree.singleton (sameTree_nodeAt ?_))))
    simp only [Shape.placeless, placelessAll, placeless_nodeAt, compoundAt, placelessAll_eq, hp.1, hp.2]

theorem alike_exprNodes : (es : List Expr) →
    Alike SameTrees (exprNodes es) (exprNodes (placelessExprs es))
  | [] => .pure rfl
  | e :: es => alike_cons (alike_exprNode e) (alike_exprNodes es)

theorem alike_keywordNodes : (ks : List Keyword) →
    Alike SameTrees (keywordNodes ks) (keywordNodes (placelessKeywords ks))
  | [] => .pure rfl
  | .mk _ value :: rest => alike_cons (alike_exprNode value) (alike_keywordNodes rest)

theorem alike_keyNodes : (es : List Entry) →
    Alike SameTrees (keyNodes es) (keyNodes (placelessEntries es))
  | [] => .pure rfl
  | .pair key _ :: rest => alike_cons (alike_exprNode key) (alike_keyNodes rest)
  | .unpack _ :: rest => alike_keyNodes rest

theorem alike_valueNodes : (es : List Entry) →
    Alike SameTrees (valueNodes es) (valueNodes (placelessEntries es))
  | [] => .pure rfl
  | .pair _ value :: rest => alike_cons (alike_exprNode value) (alike_valueNodes rest)
  | .unpack value :: rest => alike_cons (alike_exprNode value) (alike_valueNodes rest)

theorem alike_sourceNode : (c : Clause) → Alike SameTree (sourceNode c) (sourceNode c.placeless)
  | .mk _ _ source _ => alike_exprNode source

theorem alike_clauseNodes : (c : Clause) →
    Alike (fun p q => p.1 = q.1 ∧ SameTrees p.2 q.2) (clauseNodes c) (clauseNodes c.placeless)
  | .mk _ target _ conditions => by
    rw [Clause.placeless, clauseNodes, clauseNodes, Expr.boundNames_placeless]
    exact (alike_bindAll _).next fun vs => (alike_exprNode target).bind fun t t' ht =>
      (alike_exprNodes conditions).bind fun ts ts' hts => .pure ⟨rfl, SameTrees.cons ht hts⟩

theorem alike_innerClauseNodes : (cs : List Clause) →
    Alike (fun p q => p.1 = q.1 ∧ SameTrees p.2 q.2) (innerClauseNodes cs)
      (innerClauseNodes (placelessClauses cs))
  | [] => .pure ⟨rfl, rfl⟩
  | c :: rest => (alike_sourceNode c).bind fun _ _ ht => (alike_clauseNodes c).bind fun _ _ hp =>
    (alike_innerClauseNodes rest).bind fun _ _ hq => .pure
      ⟨congrArg₂ (· ++ ·) hp.1 hq.1, (SameTrees.cons ht hp.2).append hq.2⟩

end

end Expressions

/-! ## Targets -/

mutual

/-- **The node of a target** is that of the target at one place. -/
theorem alike_targetNode (e : Expr) : Alike SameTree (targetNode e) (targetNode e.placeless) := by
  have hother : targetNode e = exprNode e → targetNode e.placeless = exprNode e.placeless →
      Alike SameTree (targetNode e) (targetNode e.placeless) := fun h h' => by
    rw [h, h']
    exact alike_exprNode e
  rcases e with _ | _ | _ | _ | _ | ⟨r, form, es⟩ | _ | _ | _ | _
  case name r id =>
    rw [Expr.placeless, targetNode, targetNode]
    exact alike_targetName
  case compound =>
    cases form
    case tuple | list =>
      rw [Expr.placeless, targetNode, targetNode]
      exact (alike_targetNodes es).bind fun _ _ hts => .pure (sameTree_compoundAt hts)
    case starred =>
      rcases es with _ | ⟨e, _ | ⟨e', es⟩⟩
      · exact hother rfl rfl
      · exact alike_targetNode e
      · exact hother rfl rfl
    all_goals exact hother rfl rfl
  all_goals exact hother rfl rfl

theorem alike_targetNodes (es : List Expr) :
    Alike SameTrees (targetNodes es) (targetNodes (placelessExprs es)) := by
  rcases es with _ | ⟨e, es⟩
  · exact .pure rfl
  · exact alike_cons (alike_targetNode e) (alike_targetNodes es)

end

/-! ## Statements without blocks -/

section Statements

variable {r r' target target' : Range} {id : String} {t t' : Tree}

theorem alike_assignName {type : Option String} (h : SameTree t t') :
    Alike SameTree (assignName r target id t type) (assignName r' target' id t' type) := by
  refine alike_binding?.next fun v => ?_
  split
  · refine .pure (sameTree_nodeAt ?_)
    simp only [Shape.placeless, placeless_nodeAt, h]
  · refine alike_newVariable.next fun v => alike_bindName.next fun _ => .pure (sameTree_nodeAt ?_)
    simp only [Shape.placeless, placelessSome, h]

theorem Alike.single {x y : Build Tree} (h : Alike SameTree x y) :
    Alike SameTrees (do return [← x]) (do return [← y]) :=
  h.bind fun _ _ ht => .pure (SameTree.singleton ht)

theorem sameTree_assignment {operator : String} {u u' : Tree} (ht : SameTree t t') (hu : SameTree u u') :
    SameTree (nodeAt r (.exprStatement (nodeAt r (.assignment operator t u))))
      (nodeAt r' (.exprStatement (nodeAt r' (.assignment operator t' u')))) :=
  sameTree_nodeAt (by simp only [Shape.placeless, placeless_nodeAt, ht, hu])

theorem sameTree_targets (ts ts' : List Tree) : SameTrees ts ts' → SameTree
    (match ts with
      | [target] => target
      | nodes => compoundAt r "targets" nodes)
    (match ts' with
      | [target] => target
      | nodes => compoundAt r' "targets" nodes) := by
  intro h
  rcases ts with _ | ⟨t, _ | ⟨u, ts⟩⟩ <;> rcases ts' with _ | ⟨t', _ | ⟨u', ts'⟩⟩
  case cons.nil.cons.nil => exact (List.cons.inj h).1
  case nil.nil | cons.cons.cons.cons => exact sameTree_compoundAt h
  all_goals exact absurd (congrArg List.length h) (by simp)

theorem alike_assignNodes (targets : List Expr) (value : Expr) :
    Alike SameTrees (assignNodes r targets value)
      (assignNodes r' (placelessExprs targets) value.placeless) := by
  refine (alike_exprNode value).bind fun t t' ht => ?_
  have hmany : Alike SameTrees
      (do
        let nodes ← targetNodes targets
        let target := match nodes with
          | [target] => target
          | nodes => compoundAt r "targets" nodes
        return [nodeAt r (.exprStatement (nodeAt r (.assignment "=" target t)))])
      (do
        let nodes ← targetNodes (placelessExprs targets)
        let target := match nodes with
          | [target] => target
          | nodes => compoundAt r' "targets" nodes
        return [nodeAt r' (.exprStatement (nodeAt r' (.assignment "=" target t')))]) :=
    (alike_targetNodes targets).bind fun _ _ hts => .pure (SameTree.singleton
      (sameTree_assignment (sameTree_targets _ _ hts) ht))
  rcases targets with _ | ⟨(_ | _), _ | ⟨_, _⟩⟩
  case cons.name.nil =>
    rw [placelessExprs, Expr.placeless, Expr.likelyType_placeless]
    exact (alike_assignName ht).single
  all_goals exact hmany

theorem alike_annotateNodes (target typeHint : Expr) (value : Option Expr) :
    Alike SameTrees (annotateNodes r target typeHint value)
      (annotateNodes r' target.placeless typeHint.placeless (placelessExpr? value)) := by
  have htype := declaredType_placeless (some typeHint) value
  rw [placelessExpr?] at htype
  rcases value with _ | value
  · rcases target with ⟨tr, id⟩ | _
    case name =>
      rw [Expr.placeless, placelessExpr?, annotateNodes, annotateNodes]
      refine alike_binding?.next fun v => ?_
      split
      · exact .pure rfl
      · rw [placelessExpr?] at htype
        rw [htype]
        exact alike_newVariable.next fun v => alike_bindName.next fun _ => .pure
          (SameTree.singleton (sameTree_nodeAt rfl))
    all_goals exact .pure rfl
  · have hother : Alike SameTrees
        (do
          let valueNode ← exprNode value
          let targetNode ← exprNode target
          return [nodeAt r (.exprStatement (nodeAt r (.assignment "=" targetNode valueNode)))])
        (do
          let valueNode ← exprNode value.placeless
          let targetNode ← exprNode target.placeless
          return [nodeAt r' (.exprStatement (nodeAt r' (.assignment "=" targetNode valueNode)))]) :=
      (alike_exprNode value).bind fun t t' ht => (alike_exprNode target).bind fun u u' hu =>
        .pure (SameTree.singleton (sameTree_assignment hu ht))
    rcases target with ⟨tr, id⟩ | _
    case name =>
      rw [Expr.placeless, placelessExpr?, annotateNodes, annotateNodes]
      rw [placelessExpr?] at htype
      rw [htype]
      exact (alike_exprNode value).bind fun t t' ht => (alike_assignName ht).single
    all_goals exact hother

theorem alike_importNodes : (names : List String) →
    Alike SameTrees (importNodes r names) (importNodes r' names)
  | [] => .pure rfl
  | name :: rest => by
    rw [importNodes, importNodes]
    refine alike_binding?.next fun v => ?_
    split
    · exact alike_importNodes rest
    · exact alike_newVariable.next fun v => alike_bindName.next fun _ =>
        (alike_importNodes rest).bind fun _ _ hts => .pure (SameTrees.cons (sameTree_nodeAt rfl) hts)

theorem alike_exprStatementNodes (e : Expr) :
    Alike SameTrees (exprStatementNodes r e) (exprStatementNodes r' e.placeless) := by
  have hother : Alike SameTrees (do return [nodeAt r (.exprStatement (← exprNode e))])
      (do return [nodeAt r' (.exprStatement (← exprNode e.placeless))]) :=
    (alike_exprNode e).bind fun t t' ht => .pure (SameTree.singleton (sameTree_nodeAt (by
      simp only [Shape.placeless, ht])))
  rcases e with _ | ⟨_, value, _⟩ | _
  case constant =>
    rcases value with v | _ | _ | _
    case data =>
      cases v
      case str => exact .pure rfl
      all_goals exact hother
    all_goals exact hother
  all_goals exact hother

theorem alike_throwNodes (error cause : Option Expr) :
    Alike SameTrees (throwNodes r error cause)
      (throwNodes r' (placelessExpr? error) (placelessExpr? cause)) := by
  rcases error with _ | error
  · exact .pure (SameTree.singleton (sameTree_nodeAt rfl))
  · rcases cause with _ | cause
    · exact (alike_exprNode error).bind fun t t' ht => .pure (SameTree.singleton (sameTree_nodeAt (by
        simp only [Shape.placeless, placelessSome, ht])))
    · refine (alike_exprNode error).bind fun t t' ht => (alike_exprNode cause).bind fun u u' hu =>
        .pure (SameTree.singleton (sameTree_nodeAt ?_))
      have hpair : SameTree (compoundAt r "from" [t, u]) (compoundAt r' "from" [t', u']) :=
        sameTree_compoundAt (SameTrees.cons ht (SameTree.singleton hu))
      simp only [Shape.placeless, placelessSome, hpair]

theorem alike_simpleNodes (word : String) (operands : List Expr) :
    Alike SameTrees (simpleNodes r word operands) (simpleNodes r' word (placelessExprs operands)) := by
  refine (alike_exprNodes operands).bind fun ts ts' hts => ?_
  rcases ts with _ | ⟨t, ts⟩ <;> rcases ts' with _ | ⟨t', ts'⟩
  · exact .pure rfl
  · cases hts
  · cases hts
  · refine .pure (SameTree.singleton (sameTree_nodeAt ?_))
    have hall : SameTree (compoundAt r word (t :: ts)) (compoundAt r' word (t' :: ts')) :=
      sameTree_compoundAt hts
    simp only [Shape.placeless, hall]

/-! ## Resources -/

/-- Resources are held in the same way, but for the places of their nodes. -/
def SameHeld (h h' : Held) : Prop :=
  match h, h' with
  | .lock t, .lock t' => SameTree t t'
  | .resource t, .resource t' => SameTree t t'
  | _, _ => False

theorem mentioned?_placeless (t : Tree) : mentioned? t.placeless = mentioned? t := by
  obtain ⟨l, shape⟩ := t
  cases shape <;> rfl

theorem alike_isLock (locks : List String) (e : Expr) (h : SameTree t t') :
    Alike Eq (isLock locks e t) (isLock locks e.placeless t') := by
  have hmentioned : mentioned? t' = mentioned? t := by
    rw [← mentioned?_placeless, ← h, mentioned?_placeless]
  rw [isLock, isLock, Expr.callee_placeless, Expr.dotted?_placeless, hmentioned]
  split
  · exact .pure rfl
  · split
    · exact .pure rfl
    · exact alike_typeOf?.next fun type => .pure rfl

theorem alike_heldFor (locks : List String) (context : Expr) (target : Option Expr) (h : SameTree t t') :
    Alike SameHeld (heldFor locks context t target)
      (heldFor locks context.placeless t' (placelessExpr? target)) := by
  rcases target with _ | target
  · refine (alike_isLock locks context h).next fun b => ?_
    split <;> exact .pure h
  · have hassigned : ∀ {x y : Build Tree}, Alike SameTree x y → Alike SameHeld
        (do return .resource (nodeAt context.range (.assignment "=" (← x) t)))
        (do return .resource (nodeAt context.placeless.range (.assignment "=" (← y) t'))) :=
      fun hx => hx.bind fun u u' hu => .pure (sameTree_nodeAt (by simp only [Shape.placeless, h, hu]))
    rcases target with ⟨r, id⟩ | _
    case name =>
      rw [placelessExpr?, Expr.placeless, heldFor, heldFor]
      refine alike_binding?.next fun v => ?_
      split
      · rw [Expr.likelyType_placeless]
        exact alike_newVariable.next fun v => alike_bindName.next fun _ => .pure
          (sameTree_nodeAt (by simp only [Shape.placeless, placelessSome, h]))
      · exact hassigned alike_targetName
    all_goals exact hassigned (alike_targetNode _)

end Statements

end ModelLint.Source
