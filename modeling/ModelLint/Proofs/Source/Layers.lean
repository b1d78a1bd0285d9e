import ModelLint.Proofs.Program.Functions
import ModelLint.Proofs.Source.Building
import ModelLint.Source.Unit

/-!
# Declarations, statements and expressions

What is built of a source stands in layers: declarations in units and types, statements in
functions, and expressions in both. A class inside a function is no exception, because it moves to the
module.

* `Shape.Layered`: what a node may hold.
* `IsMember`, `IsInner`, `IsExpr`: declarations, all other nodes, and expressions.
* `Gives`: what a step gives, if the declarations that are put aside are layered.
* `gives_exprNode`, `gives_stmtNodes`: expressions and statements.
* **`gives_moduleNode`**: a module.
-/

namespace ModelLint

/-- Declarations stand directly below units and types only, and statements directly below statements
and functions only. -/
def Shape.Layered (s : Shape Tree) : Prop :=
  (s.isOutermost = false ∨ s.IsFunction → ∀ c ∈ s.children, c.shape.isOutermost = false) ∧ s.Calm

theorem Shape.isOutermost_of_isExpression {ν : Type} {s : Shape ν} (h : s.isExpression) :
    s.isOutermost = false := by
  cases s <;> first | rfl | cases h

theorem Tree.not_isOutermost_of_layered {t a : Tree} {p : Graph.Place} (h : t.All Shape.Layered)
    (ht : t.shape.isOutermost = false) (ha : t.at? p = some a) : a.shape.isOutermost = false := by
  induction p generalizing t with
  | nil =>
    cases ha
    exact ht
  | cons i p ih =>
    obtain ⟨c, hc, ha⟩ := at?_cons_eq_some.mp ha
    obtain ⟨hlayered, hchildren⟩ := all_iff.mp h
    have hmem : c ∈ t.children := List.mem_of_getElem? hc
    exact ih (hchildren c hmem) (hlayered.1 (.inl ht) c hmem) ha

theorem Tree.not_isOutermost_of_isFunction {t a : Tree} {i : Nat} {p : Graph.Place}
    (h : t.All Shape.Layered) (ht : t.shape.IsFunction) (ha : t.at? (i :: p) = some a) :
    a.shape.isOutermost = false := by
  obtain ⟨c, hc, ha⟩ := at?_cons_eq_some.mp ha
  obtain ⟨hlayered, hchildren⟩ := all_iff.mp h
  have hmem : c ∈ t.children := List.mem_of_getElem? hc
  exact not_isOutermost_of_layered (hchildren c hmem) (hlayered.1 (.inr ht) c hmem) ha

namespace Source

open Build

variable {α β : Type} {x : Build α} {f : α → Build β} {P : α → Prop} {Q : β → Prop} {r : Range}
  {shape : Shape Tree} {t u : Tree} {ts : List Tree} {locks : List String}

/-! ## Layers -/

/-- An expression whose nodes are layered. -/
def IsExpr (t : Tree) : Prop := t.shape.isExpression ∧ t.All Shape.Layered

/-- A node that is no declaration, layered. -/
def IsInner (t : Tree) : Prop := t.shape.isOutermost = false ∧ t.All Shape.Layered

/-- A declaration whose nodes are layered. -/
def IsMember (t : Tree) : Prop := t.shape.isOutermost ∧ t.All Shape.Layered

/-- Only expressions. -/
abbrev AllExpr (ts : List Tree) : Prop := ∀ t ∈ ts, IsExpr t

/-- No declarations. -/
abbrev AllInner (ts : List Tree) : Prop := ∀ t ∈ ts, IsInner t

/-- Only declarations. -/
abbrev AllMembers (ts : List Tree) : Prop := ∀ t ∈ ts, IsMember t

theorem AllInner.none : AllInner (none : Option Tree).toList := fun _ ht => nomatch ht

theorem AllExpr.none : AllExpr (none : Option Tree).toList := fun _ ht => nomatch ht

theorem AllInner.singleton (h : IsInner t) : AllInner [t] := List.forall_mem_singleton.mpr h

theorem AllExpr.singleton (h : IsExpr t) : AllExpr [t] := List.forall_mem_singleton.mpr h

theorem AllExpr.pair (ht : IsExpr t) (hu : IsExpr u) : AllExpr [t, u] :=
  List.forall_mem_cons.mpr ⟨ht, AllExpr.singleton hu⟩

theorem IsExpr.inner (h : IsExpr t) : IsInner t := ⟨Shape.isOutermost_of_isExpression h.1, h.2⟩

theorem isExpr_node (hs : shape.isExpression) (h : ∀ c ∈ shape.children, IsExpr c) :
    IsExpr (nodeAt r shape) := by
  refine ⟨hs, Tree.all_iff.mpr ⟨⟨fun _ c hc => (h c hc).inner.1, fun _ _ c hc => ?_⟩,
    fun c hc => (h c hc).2⟩⟩
  simp [Shape.isStatement, (h c hc).1]

theorem isExpr_lambda {parameters : List VariableId} {isAsync : Bool} (h : AllInner ts) :
    IsExpr (nodeAt r (.lambda parameters isAsync ts)) := by
  have hc : ∀ c ∈ (Shape.lambda parameters isAsync ts).children, IsInner c := by
    simpa [Shape.children, Shape.slots] using h
  exact ⟨rfl, Tree.all_iff.mpr ⟨⟨fun _ c hmem => (hc c hmem).1,
    fun _ hfunction => absurd trivial hfunction⟩, fun c hmem => (hc c hmem).2⟩⟩

theorem isInner_node (hs : shape.isStatement) (h : ∀ c ∈ shape.children, IsInner c) :
    IsInner (nodeAt r shape) := by
  refine ⟨?_, Tree.all_iff.mpr ⟨⟨fun _ c hc => (h c hc).1, fun hno => ?_⟩, fun c hc => (h c hc).2⟩⟩
  · simp only [Shape.isStatement, Bool.and_eq_true, Bool.not_eq_true'] at hs
    exact hs.2
  · exact absurd (hs.symm.trans hno) (by decide)

theorem isMember_type {l : Location} {info : DeclarationInfo} (hkind : info.kind = .type)
    (h : AllMembers ts) : IsMember (.node l (.declaration info ts none [])) := by
  have hc : ∀ c ∈ (Shape.declaration info ts none []).children, IsMember c := by
    simpa [Shape.children, Shape.slots] using h
  refine ⟨rfl, Tree.all_iff.mpr ⟨⟨fun hor => ?_, fun _ _ c hmem => ?_⟩, fun c hmem => (hc c hmem).2⟩⟩
  · rcases hor with hor | hor
    · cases hor
    · exact absurd (hkind.symm.trans hor) (by decide)
  · simp [Shape.isStatement, (hc c hmem).1]

theorem isMember_method {l : Location} {info : DeclarationInfo} (hkind : info.kind = .method)
    (h : AllInner ts) : IsMember (.node l (.declaration info [] none ts)) := by
  have hc : ∀ c ∈ (Shape.declaration info [] none ts).children, IsInner c := by
    simpa [Shape.children, Shape.slots] using h
  exact ⟨rfl, Tree.all_iff.mpr ⟨⟨fun _ c hmem => (hc c hmem).1,
    fun _ hfunction => absurd hkind hfunction⟩, fun c hmem => (hc c hmem).2⟩⟩

theorem isMember_field {l : Location} {q name : String} {modifiers : List String} {v : VariableId}
    {initializer : Option Tree} (h : AllExpr initializer.toList) :
    IsMember (fieldNode l q modifiers name v initializer) := by
  have hc : ∀ c ∈ (fieldNode l q modifiers name v initializer).children, IsExpr c := by
    simpa [AllExpr, fieldNode, Tree.children_node, Shape.children, Shape.slots] using h
  refine ⟨rfl, Tree.all_iff.mpr ⟨⟨fun hor => ?_, fun _ _ c hmem => ?_⟩, fun c hmem => (hc c hmem).2⟩⟩
  · rcases hor with hor | hor
    · cases hor
    · cases hor
  · simp [Shape.isStatement, (hc c hmem).1]

theorem isInner_block (owner : Range) (body : List Stmt) (h : AllInner ts) :
    IsInner (blockAt owner body ts) :=
  isInner_node rfl (by simpa [Shape.children, Shape.slots] using h)

theorem isInner_block? (owner : Range) (body : List Stmt) (h : AllInner ts) :
    AllInner (blockAt? owner body ts).toList := by
  rw [blockAt?]
  split
  · exact fun _ ht => nomatch ht
  · exact .singleton (isInner_block owner body h)

theorem isInner_declaration {v : VariableId} {initializer : Option Tree}
    (h : AllInner initializer.toList) : IsInner (nodeAt r (.varDeclaration v initializer)) :=
  isInner_node rfl (by simpa [AllInner, Shape.children, Shape.slots] using h)

theorem isExpr_access {name : String} {v : Option VariableId} :
    IsExpr (nodeAt r (.varAccess name v)) :=
  isExpr_node rfl fun _ hc => nomatch hc

theorem isExpr_assignment {operator : String} (ht : IsExpr t) (hu : IsExpr u) :
    IsExpr (nodeAt r (.assignment operator t u)) :=
  isExpr_node rfl (by simpa [Shape.children, Shape.slots] using ⟨ht, hu⟩)

theorem isExpr_compound {operator : String} (h : AllExpr ts) :
    IsExpr (compoundAt r operator ts) :=
  isExpr_node rfl (by simpa [Shape.children, Shape.slots] using h)

theorem isInner_return {value : Option Tree} (h : AllExpr value.toList) :
    IsInner (nodeAt r (.returnStatement value)) :=
  isInner_node rfl (by simpa [Shape.children, Shape.slots] using fun t ht => (h t (by simpa using ht)).inner)

theorem isInner_throw {operand : Option Tree} (h : AllExpr operand.toList) :
    IsInner (nodeAt r (.throwStatement operand)) :=
  isInner_node rfl (by simpa [Shape.children, Shape.slots] using fun t ht => (h t (by simpa using ht)).inner)

theorem isInner_exprStatement (h : IsExpr t) : IsInner (nodeAt r (.exprStatement t)) :=
  isInner_node rfl (by simpa [Shape.children, Shape.slots] using h.inner)

/-! ## Steps -/

/-- What was put aside is layered. -/
def Building.Layered (s : Building) : Prop :=
  (∀ t ∈ s.pending, IsInner t) ∧ ∀ t ∈ s.hoisted, IsMember t

theorem Building.layered_start : Building.start.Layered :=
  ⟨List.forall_mem_nil _, List.forall_mem_nil _⟩

/-- What holds of the result of a step if what was put aside is layered; it stays so. -/
def Gives (x : Build α) (P : α → Prop) : Prop :=
  ∀ s : Building, s.Layered → Runs x s (fun _ => True) fun a s' => P a ∧ s'.Layered

/-- A step that may give anything. -/
abbrev Tidy (x : Build α) : Prop := Gives x fun _ => True

theorem Gives.pure {a : α} (h : P a) : Gives (pure a) P := fun _ hs => ⟨h, hs⟩

theorem Gives.bind (hx : Gives x P) (hf : ∀ a, P a → Gives (f a) Q) : Gives (x >>= f) Q :=
  fun s hs => (hx s hs).bind fun a s' ⟨ha, hs'⟩ => hf a ha s' hs'

theorem Tidy.next (hx : Tidy x) (hf : ∀ a, Gives (f a) Q) : Gives (x >>= f) Q :=
  Gives.bind hx fun a _ => hf a

theorem Gives.mono {P' : α → Prop} (h : Gives x P) (hP : ∀ a, P a → P' a) : Gives x P' :=
  fun s hs => (h s hs).mono fun a _ ⟨ha, hs'⟩ => ⟨hP a ha, hs'⟩

theorem Gives.map {g : α → β} (h : Gives x fun a => Q (g a)) : Gives (g <$> x) Q :=
  fun s hs => Runs.map (h s hs)

theorem tidy_modify {g : Building → Building} (h : ∀ s : Building, s.Layered → (g s).Layered) :
    Tidy (modify g : Build PUnit) :=
  fun s hs => ⟨trivial, h s hs⟩

theorem gives_throw {e : BuildFailure} : Gives (throw e : Build α) P := fun _ _ => trivial

theorem Gives.withFrame {frame : Frame} (h : Gives x P) : Gives (withFrame frame x) P := by
  intro s hs
  refine runs_withFrame (Runs.mono (h _ ?_) fun _ _ ha => ha)
  exact hs

theorem Gives.withQualifier {name : String} (h : Gives x P) : Gives (withQualifier name x) P := by
  intro s hs
  refine runs_withQualifier (Runs.mono (h _ ?_) fun _ _ ha => ha)
  exact hs

theorem Gives.withReceiver {receiver : Option Receiver} (h : Gives x P) :
    Gives (withReceiver receiver x) P := by
  rcases receiver with _ | receiver
  · exact h
  · intro s hs
    refine runs_withReceiver_some (Runs.mono (h _ ?_) fun _ _ ha => ha)
    exact hs

theorem Gives.collectPending (h : Gives x P) :
    Gives (collectPending x) fun p => (∀ t ∈ p.1, IsInner t) ∧ P p.2 := by
  intro s hs
  have hclear : Building.Layered { s with pending := [] } := ⟨(fun _ ht => nomatch ht), hs.2⟩
  exact runs_collectPending ((h _ hclear).mono
    fun a s' ⟨ha, hs'⟩ => ⟨⟨hs'.1, ha⟩, hs.1, hs'.2⟩)

theorem Gives.withPending {x : Build (List Tree)} (h : Gives x AllInner) :
    Gives (withPending x) AllInner :=
  h.collectPending.bind fun _ ⟨hpending, hts⟩ => .pure (List.forall_mem_append.mpr ⟨hpending, hts⟩)

theorem gives_cons {P : Tree → Prop} {x : Build Tree} {y : Build (List Tree)} (hx : Gives x P)
    (hy : Gives y fun ts => ∀ t ∈ ts, P t) :
    Gives (do let t ← x; return t :: (← y)) fun ts => ∀ t ∈ ts, P t :=
  hx.bind fun _ ht => hy.bind fun _ hts => .pure (List.forall_mem_cons.mpr ⟨ht, hts⟩)

theorem gives_append {P : Tree → Prop} {x y : Build (List Tree)}
    (hx : Gives x fun ts => ∀ t ∈ ts, P t) (hy : Gives y fun ts => ∀ t ∈ ts, P t) :
    Gives (do let ts ← x; return ts ++ (← y)) fun ts => ∀ t ∈ ts, P t :=
  hx.bind fun _ hts => hy.bind fun _ hus => .pure (List.forall_mem_append.mpr ⟨hts, hus⟩)

section Mild

variable {name : String} {v : VariableId}

/-- A field without a value. -/
def IsBareField (t : Tree) : Prop := ∃ l q modifiers name v, t = fieldNode l q modifiers name v none

/-- A step that puts nothing aside but fields without a value. -/
def Mild (x : Build α) : Prop :=
  ∀ s, Runs x s (fun _ => True) fun _ s' => s'.pending = s.pending ∧
    ∃ fields, s'.hoisted = s.hoisted ++ fields ∧ ∀ t ∈ fields, IsBareField t

theorem mild_of_same (h : ∀ s, Runs x s (fun _ => True) fun _ s' =>
    s'.pending = s.pending ∧ s'.hoisted = s.hoisted) : Mild x :=
  fun s => (h s).mono fun _ _ hs =>
    ⟨hs.1, [], by rw [hs.2, List.append_nil], fun _ ht => absurd ht List.not_mem_nil⟩

theorem Mild.bind (hx : Mild x) (hf : ∀ a, Mild (f a)) : Mild (x >>= f) := by
  refine fun s => Runs.bind (hx s) fun a s₁ ⟨hpending, fields, hhoisted, hfields⟩ =>
    (hf a s₁).mono fun b s₂ ⟨hpending', fields', hhoisted', hfields'⟩ => ?_
  refine ⟨hpending'.trans hpending, fields ++ fields', ?_,
    List.forall_mem_append.mpr ⟨hfields, hfields'⟩⟩
  rw [hhoisted', hhoisted, List.append_assoc]

theorem Mild.map {g : α → β} (hx : Mild x) : Mild (g <$> x) := fun s => Runs.map (hx s)

theorem Mild.tidy (hx : Mild x) : Tidy x := by
  refine fun s hs => (hx s).mono fun a s' ⟨hpending, fields, hhoisted, hfields⟩ =>
    ⟨trivial, fun t ht => hs.1 t (hpending ▸ ht), ?_⟩
  rw [hhoisted]
  refine List.forall_mem_append.mpr ⟨hs.2, fun t ht => ?_⟩
  obtain ⟨l, q, modifiers, name, v, rfl⟩ := hfields t ht
  exact isMember_field .none

theorem Mild.next (hx : Mild x) (hf : ∀ a, Gives (f a) Q) : Gives (x >>= f) Q := hx.tidy.next hf

theorem mild_pure {a : α} : Mild (pure a : Build α) := mild_of_same fun _ => ⟨rfl, rfl⟩

theorem mild_get : Mild (get : Build Building) := mild_of_same fun _ => ⟨rfl, rfl⟩

theorem mild_modify {g : Building → Building}
    (h : ∀ s, (g s).pending = s.pending ∧ (g s).hoisted = s.hoisted) :
    Mild (modify g : Build PUnit) :=
  mild_of_same h

theorem mild_throw {e : BuildFailure} : Mild (throw e : Build α) := fun _ => trivial

theorem mild_newVariable {type : Option String} {kind : VariableKind} {isStatic : Bool} :
    Mild (newVariable name type kind isStatic) :=
  mild_of_same fun _ => ⟨rfl, rfl⟩

theorem mild_modifyFrame {g : Frame → Frame} : Mild (modifyFrame g) := by
  refine mild_get.bind fun s => ?_
  split
  · exact mild_throw
  · exact mild_modify fun _ => ⟨rfl, rfl⟩

theorem mild_bindName : Mild (bindName name v) := mild_modifyFrame

theorem mild_lookup? : Mild (lookup? name) := mild_of_same fun _ => ⟨rfl, rfl⟩

theorem mild_globalField {modifiers : List String} : Mild (globalField name modifiers) := by
  refine mild_get.bind fun s => ?_
  split
  · exact mild_pure
  · refine mild_newVariable.bind fun v => mild_get.bind fun s => Mild.bind ?_ fun _ => mild_pure
    exact fun s => ⟨rfl, _, rfl, List.forall_mem_singleton.mpr ⟨_, _, _, _, _, rfl⟩⟩

theorem mild_binding? : Mild (binding? name) := by
  refine mild_get.bind fun s => ?_
  repeat' split
  all_goals first | exact mild_pure | exact mild_globalField.map

theorem mild_isReceiver {e : Expr} : Mild (isReceiver e) := by
  refine mild_get.bind fun s => ?_
  split <;> exact mild_pure

theorem mild_receiverField? : Mild (receiverField? name) := mild_of_same fun _ => ⟨rfl, rfl⟩

theorem mild_qualified : Mild (qualified name) := mild_of_same fun _ => ⟨rfl, rfl⟩

theorem mild_typeOf? : Mild (typeOf? v) := mild_of_same fun _ => ⟨rfl, rfl⟩

theorem mild_parameterNames : (ps : List Parameter) → Mild (parameterNames ps)
  | [] => mild_pure
  | _ :: rest => mild_newVariable.bind fun _ => (mild_parameterNames rest).bind fun _ => mild_pure

theorem mild_bindAll : (names : List String) → Mild (bindAll names)
  | [] => mild_pure
  | _ :: rest => mild_newVariable.bind fun _ => mild_bindName.bind fun _ =>
    (mild_bindAll rest).bind fun _ => mild_pure

theorem mild_createdType? {e : Expr} : Mild (createdType? e) := by
  rw [createdType?.eq_def]
  split
  · refine mild_isReceiver.bind fun _ => ?_
    split <;> exact mild_pure
  · exact mild_pure
  · exact mild_pure

theorem mild_isLock {patterns : List String} {e : Expr} : Mild (isLock patterns e t) := by
  rw [isLock]
  split
  · exact mild_pure
  · split
    · exact mild_pure
    · exact mild_typeOf?.bind fun _ => mild_pure

theorem mild_fieldVariables : (fields : List Field) → Mild (fieldVariables fields)
  | [] => mild_pure
  | _ :: rest => mild_newVariable.bind fun _ => (mild_fieldVariables rest).bind fun _ => mild_pure

theorem mild_openClass {name : String} {bases : List Expr} {body : List Stmt} :
    Mild (openClass name bases body) :=
  (mild_fieldVariables _).bind fun _ => mild_get.bind fun _ =>
    Mild.bind (mild_modify fun _ => ⟨rfl, rfl⟩) fun _ => mild_pure

end Mild

/-! ## Expressions -/

theorem gives_nameNode {id : String} : Gives (nameNode r id) IsExpr := by
  refine mild_lookup?.next fun v => ?_
  split
  · exact .pure isExpr_access
  · split
    · exact mild_globalField.next fun _ => .pure isExpr_access
    · exact .pure (isExpr_node rfl fun _ hc => nomatch hc)

theorem gives_targetName {id : String} : Gives (targetName r id) IsExpr := by
  refine mild_binding?.next fun v => ?_
  split
  · exact .pure isExpr_access
  · refine mild_newVariable.next fun v => mild_bindName.next fun _ => ?_
    have hadd : Tidy (addPending (nodeAt r (.varDeclaration v none))) := tidy_modify fun s hs =>
      ⟨List.forall_mem_append.mpr ⟨hs.1, by simpa using isInner_declaration .none⟩, hs.2⟩
    exact hadd.next fun _ => .pure isExpr_access

section Calls

variable {fr : Range} {attr : String} {value function : Expr} {args : List Expr}
  {keywords : List Keyword} (hargs : Gives (exprNodes args) AllExpr)
  (hkeywords : Gives (keywordNodes keywords) AllExpr)

include hargs hkeywords

/-- A node is made of the arguments of a call and of what was built before them. -/
theorem gives_arguments {shape : List Tree → Shape Tree} (before : List Tree)
    (hbefore : ∀ t ∈ before, IsExpr t) (hshape : ∀ us, (shape us).isExpression)
    (hchildren : ∀ us, (shape us).children = before ++ us) :
    Gives (do
      let args ← exprNodes args
      return nodeAt r (shape (args ++ (← keywordNodes keywords)))) IsExpr := by
  refine hargs.bind fun ts hts => hkeywords.bind fun us hus => .pure (isExpr_node (hshape _) ?_)
  rw [hchildren]
  exact List.forall_mem_append.mpr ⟨hbefore, List.forall_mem_append.mpr ⟨hts, hus⟩⟩

theorem gives_attributeCall (hvalue : Gives (exprNode value) IsExpr) :
    Gives (exprNode (.call r (.attribute fr value attr) args keywords)) IsExpr := by
  rw [exprNode]
  refine mild_createdType?.next fun created => ?_
  split
  · exact gives_arguments hargs hkeywords [] (List.forall_mem_nil _) (fun _ => rfl) fun us => by
      simp [Shape.children, Shape.slots]
  · refine mild_isReceiver.next fun isReceiver => ?_
    dsimp only
    split
    · exact gives_arguments hargs hkeywords [] (List.forall_mem_nil _) (fun _ => rfl) fun us => by
        simp [Shape.children, Shape.slots]
    · have hqualifier : Gives (some <$> exprNode value) fun q => ∀ t ∈ q.toList, IsExpr t :=
        (hvalue.mono fun t ht => List.forall_mem_singleton.mpr ht).map
      exact hqualifier.bind fun q hq => gives_arguments hargs hkeywords q.toList hq
        (fun _ => rfl) fun us => by simp [Shape.children, Shape.slots]

theorem gives_nameCall : Gives (exprNode (.call r (.name fr name) args keywords)) IsExpr := by
  rw [exprNode]
  refine mild_createdType?.next fun created => ?_
  rcases created with _ | typeName
  · exact gives_arguments hargs hkeywords [] (List.forall_mem_nil _) (fun _ => rfl) fun us => by
      simp [Shape.children, Shape.slots]
  · exact gives_arguments hargs hkeywords [] (List.forall_mem_nil _) (fun _ => rfl) fun us => by
      simp [Shape.children, Shape.slots]

theorem gives_call (hattribute : ∀ fr value attr, function ≠ .attribute fr value attr)
    (hname : ∀ fr id, function ≠ .name fr id) (hfunction : Gives (exprNode function) IsExpr) :
    Gives (exprNode (.call r function args keywords)) IsExpr := by
  rw [exprNode]
  · refine hfunction.bind fun t ht => ?_
    exact gives_arguments hargs hkeywords [t] (List.forall_mem_singleton.mpr ht) (fun _ => rfl)
      fun us => by simp [Shape.children, Shape.slots]
  · exact hattribute
  · exact hname

end Calls

mutual

theorem gives_exprNode : (e : Expr) → Gives (exprNode e) IsExpr
  | .name r id => by
    rw [exprNode]
    exact gives_nameNode
  | .constant r value hasLetter => by
    rw [exprNode]
    exact .pure (isExpr_node rfl fun _ hc => nomatch hc)
  | .attribute r value attr => by
    rw [exprNode]
    refine mild_isReceiver.next fun isReceiver => ?_
    split
    · exact mild_receiverField?.next fun v => .pure (isExpr_node rfl fun _ hc => nomatch hc)
    · refine (gives_exprNode value).bind fun t ht => .pure (isExpr_node rfl ?_)
      simpa [Shape.children, Shape.slots] using ht
  | .subscript r value index => by
    rw [exprNode]
    refine (gives_exprNode value).bind fun t ht => (gives_exprNode index).bind
      fun u hu => .pure (isExpr_node rfl ?_)
    simpa [Shape.children, Shape.slots] using ⟨ht, hu⟩
  | .call r function args keywords => by
    have hargs := gives_exprNodes args
    have hkeywords := gives_keywordNodes keywords
    cases function with
    | «attribute» fr value attr => exact gives_attributeCall hargs hkeywords (gives_exprNode value)
    | name fr id => exact gives_nameCall hargs hkeywords
    | _ => exact gives_call hargs hkeywords (by simp) (by simp) (gives_exprNode _)
  | .compound r form operands => by
    rw [exprNode]
    exact (gives_exprNodes operands).bind fun ts hts => .pure (isExpr_compound hts)
  | .dict r entries => by
    rw [exprNode]
    refine (gives_keyNodes entries).bind fun ts hts => (gives_valueNodes entries).bind
      fun us hus => .pure (isExpr_compound ?_)
    exact List.forall_mem_append.mpr ⟨hts, hus⟩
  | .walrus r target id value => by
    rw [exprNode]
    exact (gives_exprNode value).bind fun t ht => gives_targetName.bind
      fun u hu => .pure (isExpr_assignment hu ht)
  | .lambda r parameters body => by
    rw [exprNode]
    refine (mild_parameterNames parameters).next fun names => ?_
    refine (gives_exprNode body).withFrame.bind fun t ht => .pure (isExpr_lambda ?_)
    exact .singleton (isInner_return (.singleton ht))
  | .comprehension r kind elements first rest => by
    rw [exprNode]
    refine (gives_sourceNode first).bind fun t ht => ?_
    have hinner : Gives (withFrame (.ofNames []) do
        let (vs, nodes) ← clauseNodes first
        let (vs', nodes') ← innerClauseNodes rest
        return (vs ++ vs', nodes ++ nodes' ++ (← exprNodes elements)))
          fun p => ∀ t ∈ p.2, IsExpr t :=
      ((gives_clauseNodes first).bind fun p hp => (gives_innerClauseNodes rest).bind fun q hq =>
        (gives_exprNodes elements).bind fun ts hts => .pure (List.forall_mem_append.mpr
          ⟨List.forall_mem_append.mpr ⟨hp, hq⟩, hts⟩)).withFrame
    refine hinner.bind fun p hp => .pure (isExpr_compound ?_)
    have hlambda : IsExpr (nodeAt r (.lambda p.1 false
        [nodeAt r (.exprStatement (compoundAt r "yield" p.2))])) :=
      isExpr_lambda (.singleton (isInner_exprStatement (isExpr_compound hp)))
    exact .pair ht hlambda

theorem gives_exprNodes : (es : List Expr) → Gives (exprNodes es) AllExpr
  | [] => .pure fun _ ht => nomatch ht
  | e :: es => gives_cons (gives_exprNode e) (gives_exprNodes es)

theorem gives_keywordNodes : (ks : List Keyword) →
    Gives (keywordNodes ks) AllExpr
  | [] => .pure fun _ ht => nomatch ht
  | .mk _ value :: rest => gives_cons (gives_exprNode value) (gives_keywordNodes rest)

theorem gives_keyNodes : (es : List Entry) → Gives (keyNodes es) AllExpr
  | [] => .pure fun _ ht => nomatch ht
  | .pair key _ :: rest => gives_cons (gives_exprNode key) (gives_keyNodes rest)
  | .unpack _ :: rest => gives_keyNodes rest

theorem gives_valueNodes : (es : List Entry) → Gives (valueNodes es) AllExpr
  | [] => .pure fun _ ht => nomatch ht
  | .pair _ value :: rest => gives_cons (gives_exprNode value) (gives_valueNodes rest)
  | .unpack value :: rest => gives_cons (gives_exprNode value) (gives_valueNodes rest)

theorem gives_sourceNode : (c : Clause) → Gives (sourceNode c) IsExpr
  | .mk _ _ source _ => gives_exprNode source

theorem gives_clauseNodes : (c : Clause) → Gives (clauseNodes c) fun p => ∀ t ∈ p.2, IsExpr t
  | .mk _ target _ conditions => (mild_bindAll _).next fun _ => (gives_exprNode target).bind
    fun _ ht => (gives_exprNodes conditions).bind
      fun _ hts => .pure (List.forall_mem_cons.mpr ⟨ht, hts⟩)

theorem gives_innerClauseNodes : (cs : List Clause) →
    Gives (innerClauseNodes cs) fun p => ∀ t ∈ p.2, IsExpr t
  | [] => .pure fun _ ht => nomatch ht
  | c :: rest => (gives_sourceNode c).bind fun _ ht => (gives_clauseNodes c).bind fun _ hp =>
    (gives_innerClauseNodes rest).bind fun _ hq => .pure
      (List.forall_mem_append.mpr ⟨List.forall_mem_cons.mpr ⟨ht, hp⟩, hq⟩)

end

/-! ## Targets and statements without blocks -/

theorem gives_targetNode (e : Expr) : Gives (targetNode e) IsExpr := by
  refine targetNode.induct (fun e => Gives (targetNode e) IsExpr)
    (fun es => Gives (targetNodes es) AllExpr) ?name ?tuple ?list ?starred ?other ?nil ?cons e
  case name =>
    intro r id
    rw [targetNode]
    exact gives_targetName
  case tuple | list =>
    intro r es ih
    rw [targetNode]
    exact ih.bind fun ts hts => .pure (isExpr_compound hts)
  case starred =>
    intro r e ih
    rw [targetNode]
    exact ih
  case other =>
    intro e hname htuple hlist hstarred
    rw [targetNode]
    · exact gives_exprNode e
    all_goals assumption
  case nil => exact .pure fun _ ht => nomatch ht
  case cons => exact fun e es ih ihs => gives_cons ih ihs

theorem gives_targetNodes : (es : List Expr) → Gives (targetNodes es) AllExpr
  | [] => .pure fun _ ht => nomatch ht
  | e :: es => gives_cons (gives_targetNode e) (gives_targetNodes es)

theorem gives_assignName {target : Range} {id : String} {type : Option String} (h : IsExpr t) :
    Gives (assignName r target id t type) IsInner := by
  refine mild_binding?.next fun v => ?_
  split
  · exact .pure (isInner_exprStatement (isExpr_assignment isExpr_access h))
  · exact mild_newVariable.next fun _ => mild_bindName.next
      fun _ => .pure (isInner_declaration (.singleton h.inner))

theorem Gives.single {x : Build Tree} (h : Gives x IsInner) :
    Gives (do return [← x]) AllInner :=
  h.bind fun _ ht => .pure (.singleton ht)

theorem isExpr_targets (ts : List Tree) : AllExpr ts →
    IsExpr (match ts with
      | [target] => target
      | nodes => compoundAt r "targets" nodes) := by
  intro h
  rcases ts with _ | ⟨t, _ | ⟨u, ts⟩⟩
  · exact isExpr_compound h
  · exact h t List.mem_cons_self
  · exact isExpr_compound h

theorem gives_assignNodes {targets : List Expr} {value : Expr} :
    Gives (assignNodes r targets value) AllInner := by
  refine (gives_exprNode value).bind fun t ht => ?_
  split
  · exact (gives_assignName ht).single
  · refine (gives_targetNodes targets).bind fun ts hts => .pure ?_
    exact .singleton (isInner_exprStatement (isExpr_assignment (isExpr_targets ts hts) ht))

theorem gives_annotateNodes {target typeHint : Expr} {value : Option Expr} :
    Gives (annotateNodes r target typeHint value) AllInner := by
  rw [annotateNodes.eq_def]
  split
  · refine mild_binding?.next fun v => ?_
    split
    · exact .pure fun _ ht => nomatch ht
    · exact mild_newVariable.next fun _ => mild_bindName.next
        fun _ => .pure (.singleton (isInner_declaration .none))
  · exact (gives_exprNode _).bind fun t ht => (gives_assignName ht).single
  · exact .pure fun _ ht => nomatch ht
  · exact (gives_exprNode _).bind fun t ht => (gives_exprNode target).bind
      fun u hu => .pure (.singleton (isInner_exprStatement (isExpr_assignment hu ht)))

theorem gives_importNodes : (names : List String) → Gives (importNodes r names) AllInner
  | [] => .pure fun _ ht => nomatch ht
  | name :: rest => by
    rw [importNodes]
    refine mild_binding?.next fun v => ?_
    split
    · exact gives_importNodes rest
    · exact mild_newVariable.next fun _ => mild_bindName.next fun _ =>
        (gives_importNodes rest).bind fun ts hts => .pure
          (List.forall_mem_cons.mpr ⟨isInner_declaration .none, hts⟩)

theorem gives_exprStatementNodes {e : Expr} : Gives (exprStatementNodes r e) AllInner := by
  rw [exprStatementNodes.eq_def]
  split
  · exact .pure fun _ ht => nomatch ht
  · exact (gives_exprNode e).bind fun t ht => .pure (.singleton (isInner_exprStatement ht))

theorem gives_throwNodes {error cause : Option Expr} :
    Gives (throwNodes r error cause) AllInner := by
  rw [throwNodes.eq_def]
  split
  · exact .pure (.singleton (isInner_throw .none))
  · exact (gives_exprNode _).bind fun t ht => .pure (.singleton (isInner_throw (.singleton ht)))
  · refine (gives_exprNode _).bind fun t ht => (gives_exprNode _).bind fun u hu => .pure ?_
    exact .singleton (isInner_throw (.singleton (isExpr_compound (.pair ht hu))))

theorem gives_simpleNodes {word : String} {operands : List Expr} :
    Gives (simpleNodes r word operands) AllInner := by
  refine (gives_exprNodes operands).bind fun ts hts => ?_
  split
  · exact .pure fun _ ht => nomatch ht
  · exact .pure (.singleton (isInner_exprStatement (isExpr_compound hts)))

/-! ## Resources -/

/-- The node of a resource is no declaration. -/
def Held.IsInner : Held → Prop
  | .lock target => Source.IsInner target
  | .resource node => Source.IsInner node

theorem gives_heldFor {patterns : List String} {context : Expr} {target : Option Expr}
    (ht : IsExpr t) : Gives (heldFor patterns context t target) Held.IsInner := by
  rw [heldFor.eq_def]
  split
  · refine mild_isLock.next fun b => ?_
    split <;> exact .pure ht.inner
  · refine mild_binding?.next fun v => ?_
    split
    · refine mild_newVariable.next fun v => mild_bindName.next fun _ => .pure ?_
      exact isInner_declaration (.singleton ht.inner)
    · exact gives_targetName.bind fun u hu => .pure (isExpr_assignment hu ht).inner
  · exact (gives_targetNode _).bind fun u hu => .pure (isExpr_assignment hu ht).inner

theorem gives_heldResources {patterns : List String} : (resources : List Resource) →
    Gives (heldResources patterns resources) fun held => ∀ h ∈ held, h.IsInner
  | [] => .pure fun _ hh => nomatch hh
  | ⟨context, target⟩ :: rest => by
    rw [heldResources_cons]
    refine (gives_exprNode context).bind fun t ht => (gives_heldFor ht).bind fun held hheld => ?_
    exact (gives_heldResources rest).bind
      fun helds hhelds => .pure (List.forall_mem_cons.mpr ⟨hheld, hhelds⟩)

theorem isInner_asBlock (h : IsInner t) : IsInner (asBlock r t) := by
  rw [asBlock.eq_def]
  split
  · exact h
  · exact isInner_node rfl (by simpa [Shape.children, Shape.slots] using h)

theorem isInner_holdAll {held : List Held} (hheld : ∀ h ∈ held, h.IsInner) (ht : IsInner t) :
    IsInner (holdAll r held t) := by
  induction held with
  | nil => exact ht
  | cons h rest ih =>
    have hblock := isInner_asBlock (r := r) (ih fun h' hh' => hheld h' (List.mem_cons_of_mem _ hh'))
    have hhead := hheld h List.mem_cons_self
    cases h with
    | lock target =>
      exact isInner_node rfl (by simpa [Shape.children, Shape.slots] using ⟨hhead, hblock⟩)
    | resource node =>
      exact isInner_node rfl (by simpa [Shape.children, Shape.slots] using ⟨hhead, hblock⟩)

/-! ## Classes and functions -/

theorem gives_fieldAt {modifiers : List String} {name : String} {v : VariableId}
    {initializer : Option Tree} (h : AllExpr initializer.toList) :
    Gives (fieldAt r modifiers name v initializer) IsMember :=
  mild_get.next fun _ => mild_qualified.next fun _ => .pure (isMember_field h)

theorem gives_assignedFields {c : OpenClass} : (names : List String) → {emitted : List String} →
    {initializer : Option Tree} → AllExpr initializer.toList →
    Gives (assignedFields c r emitted initializer names) fun p => AllMembers p.1
  | [], _, _, _ => .pure fun _ ht => nomatch ht
  | name :: rest, emitted, initializer, h => by
    rw [assignedFields]
    split
    · exact (gives_fieldAt h).bind fun t ht => (gives_assignedFields rest .none).bind
        fun p hp => .pure (List.forall_mem_cons.mpr ⟨ht, hp⟩)
    · exact gives_assignedFields rest h

theorem gives_remainingFields {emitted : List String} : (own : List (Field × VariableId)) →
    Gives (remainingFields emitted own) AllMembers
  | [] => .pure fun _ ht => nomatch ht
  | (f, v) :: rest => by
    rw [remainingFields]
    split
    · exact gives_remainingFields rest
    · exact gives_cons (gives_fieldAt .none) (gives_remainingFields rest)

theorem gives_classNode {name : String} {body : List Stmt} (h : AllMembers ts) :
    Gives (classNode r name body ts) IsMember :=
  mild_qualified.next fun _ => .pure (isMember_type rfl h)

theorem gives_methodNode {signature : Signature} {fields : Option Names}
    {statements : Build (List Tree)} (h : Gives statements AllInner) :
    Gives (methodNode r signature fields statements) IsMember :=
  (mild_parameterNames _).next fun _ => h.withFrame.withQualifier.withReceiver.bind
    fun _ hts => mild_qualified.next fun _ => .pure (isMember_method rfl hts)

theorem gives_functionNode {signature : Signature} {statements : Build (List Tree)}
    (h : Gives statements AllInner) : Gives (functionNode r signature statements) IsInner := by
  refine mild_newVariable.next fun v => mild_bindName.next fun _ =>
    (mild_parameterNames _).next fun names => h.withFrame.bind fun ts hts => .pure ?_
  have hlambda : IsExpr (nodeAt r (.lambda (names.map (·.2)) signature.isAsync ts)) :=
    isExpr_lambda hts
  exact isInner_declaration (.singleton hlambda.inner)

theorem gives_withCaught {name : Option String} {types : List String} {x : Build Tree}
    (h : Gives x IsInner) : Gives (withCaught name types x) fun p => IsInner p.2 := by
  rcases name with _ | name
  · exact h.bind fun _ ht => .pure ht
  · exact mild_get.next fun _ => mild_newVariable.next fun _ => mild_bindName.next fun _ =>
      h.bind fun _ ht => mild_modifyFrame.next fun _ => .pure ht

/-! ## Statements -/

mutual

theorem gives_stmtNodes : (stmt : Stmt) → Gives (stmtNodes locks stmt) AllInner
  | .function r signature body => by
    rw [stmtNodes]
    exact (gives_functionNode (gives_stmtsNodes body)).single.withPending
  | .classType r name bases body => by
    rw [stmtNodes]
    refine .withPending (mild_openClass.next fun c => ?_)
    refine (gives_memberNodes body c []).withQualifier.bind fun ts hts => ?_
    refine (gives_classNode hts).bind fun t ht => Tidy.next (tidy_modify ?_)
      fun _ => mild_newVariable.next fun _ => mild_bindName.next
        fun _ => .pure (.singleton (isInner_declaration .none))
    intro s hs
    exact ⟨hs.1, List.forall_mem_append.mpr ⟨hs.2, by simpa using ht⟩⟩
  | .returnValue r none => by
    rw [stmtNodes]
    exact .pure (.singleton (isInner_return .none))
  | .returnValue r (some value) => by
    rw [stmtNodes]
    exact .withPending ((gives_exprNode value).bind
      fun t ht => .pure (.singleton (isInner_return (.singleton ht))))
  | .assign r targets value => by
    rw [stmtNodes]
    exact gives_assignNodes.withPending
  | .augment r target op value => by
    rw [stmtNodes]
    refine .withPending ((gives_exprNode target).bind fun t ht => (gives_exprNode value).bind
      fun u hu => .pure ?_)
    exact .singleton (isInner_exprStatement (isExpr_assignment ht hu))
  | .annotate r target typeHint value => by
    rw [stmtNodes]
    exact gives_annotateNodes.withPending
  | .forEach r isAsync target source body orElse => by
    rw [stmtNodes]
    refine .withPending ((gives_exprNode source).bind fun t ht => ?_)
    refine (gives_targetNode target).collectPending.bind fun p ⟨hpending, hu⟩ => ?_
    refine (gives_stmtsNodes body).bind fun ts hts => (gives_stmtsNodes orElse).bind
      fun us hus => .pure (List.forall_mem_cons.mpr ⟨isInner_node rfl ?_, hus⟩)
    have hblock := isInner_block r body hts
    simp only [Shape.children, Shape.slots, List.flatMap_cons, List.flatMap_nil, List.append_nil]
    exact List.forall_mem_append.mpr ⟨hpending, by simpa using ⟨hu.inner, ht.inner, hblock⟩⟩
  | .whileLoop r condition body orElse => by
    rw [stmtNodes]
    refine .withPending ((gives_stmtsNodes body).bind fun ts hts => ?_)
    refine (gives_exprNode condition).bind fun t ht => (gives_stmtsNodes orElse).bind
      fun us hus => .pure (List.forall_mem_cons.mpr ⟨isInner_node rfl ?_, hus⟩)
    simpa [Shape.children, Shape.slots] using ⟨ht.inner, isInner_block r body hts⟩
  | .choose r condition body orElse => by
    rw [stmtNodes]
    refine .withPending ((gives_exprNode condition).bind fun t ht => ?_)
    refine (gives_stmtsNodes body).bind fun ts hts => (gives_stmtsNodes orElse).bind
      fun us hus => .pure ?_
    refine .singleton (isInner_node rfl ?_)
    have hbranch := isInner_block? r orElse hus
    simpa [Shape.children, Shape.slots] using ⟨ht.inner, isInner_block r body hts, by simpa [AllInner] using hbranch⟩
  | .withResources r resources body => by
    rw [stmtNodes]
    refine .withPending ((gives_heldResources resources).bind fun held hheld => ?_)
    refine (gives_stmtsNodes body).bind fun ts hts => .pure ?_
    exact .singleton (isInner_holdAll hheld (isInner_block r body hts))
  | .matchCases r subject cases => by
    rw [stmtNodes]
    exact .withPending (gives_append gives_simpleNodes (gives_caseNodes r cases))
  | .throwError r error cause => by
    rw [stmtNodes]
    exact gives_throwNodes.withPending
  | .guarded r body handlers orElse finalBody => by
    rw [stmtNodes]
    refine .withPending ((gives_stmtsNodes body).bind fun ts hts => ?_)
    refine (gives_handlerNodes handlers).bind fun catches hcatches => ?_
    refine (gives_stmtsNodes finalBody).bind fun us hus => (gives_stmtsNodes orElse).bind
      fun rest hrest => .pure (List.forall_mem_cons.mpr ⟨isInner_node rfl ?_, hrest⟩)
    have hfinal := isInner_block? r finalBody hus
    simp only [Shape.children, Shape.slots, List.flatMap_cons, List.flatMap_nil, List.append_nil]
    exact List.forall_mem_append.mpr ⟨by simpa using isInner_block r body hts,
      List.forall_mem_append.mpr ⟨hcatches, hfinal⟩⟩
  | .imports r names => by
    rw [stmtNodes]
    exact (gives_importNodes names).withPending
  | .globals r names => by
    rw [stmtNodes]
    exact mild_modifyFrame.next fun _ => .pure fun _ ht => nomatch ht
  | .nonlocals r names => by
    rw [stmtNodes]
    exact mild_modifyFrame.next fun _ => .pure fun _ ht => nomatch ht
  | .expr r value => by
    rw [stmtNodes]
    exact gives_exprStatementNodes.withPending
  | .simple r word operands => by
    rw [stmtNodes]
    exact gives_simpleNodes.withPending

theorem gives_stmtsNodes : (body : List Stmt) → Gives (stmtsNodes locks body) AllInner
  | [] => .pure fun _ ht => nomatch ht
  | stmt :: rest => by
    rw [stmtsNodes]
    exact gives_append (gives_stmtNodes stmt) (gives_stmtsNodes rest)

theorem gives_caseNodes : (r : Range) → (cases : List (List Stmt)) →
    Gives (caseNodes locks r cases) AllInner
  | _, [] => .pure fun _ ht => nomatch ht
  | r, body :: rest => by
    rw [caseNodes]
    exact (gives_stmtsNodes body).bind fun ts hts => (gives_caseNodes r rest).bind
      fun us hus => .pure (List.forall_mem_cons.mpr ⟨isInner_block r body hts, hus⟩)

theorem gives_handlerNodes : (handlers : List Handler) → Gives (handlerNodes locks handlers) AllInner
  | [] => .pure fun _ ht => nomatch ht
  | .mk r type name body :: rest => by
    rw [handlerNodes]
    split
    · exact gives_throw
    · have hbody : Gives (do return blockAt r body (← stmtsNodes locks body)) IsInner :=
        (gives_stmtsNodes body).bind fun ts hts => .pure (isInner_block r body hts)
      refine (gives_withCaught hbody).bind fun p hp => (gives_handlerNodes rest).bind
        fun ts hts => .pure (List.forall_mem_cons.mpr ⟨isInner_node rfl ?_, hts⟩)
      simpa [Shape.children, Shape.slots] using hp

theorem gives_memberNodes : (body : List Stmt) → (c : OpenClass) → (emitted : List String) →
    Gives (memberNodes locks c emitted body) AllMembers
  | [], c, _ => by
    rw [memberNodes]
    exact gives_remainingFields c.own
  | stmt :: rest, c, emitted => by
    have hassigned : ∀ r (initializer : Build (Option Tree)) (names : List String),
        Gives initializer (fun t => AllExpr t.toList) →
        Gives (assignedMembers locks c emitted r initializer names rest) AllMembers :=
      fun r initializer names h => h.bind fun t ht => (gives_assignedFields names ht).bind
        fun p hp => (gives_memberNodes rest c p.2).bind
          fun us hus => .pure (List.forall_mem_append.mpr ⟨hp, hus⟩)
    have hvalue : ∀ value : Expr,
        Gives (some <$> exprNode value) fun t => AllExpr t.toList := fun value =>
      .map (Q := fun t : Option Tree => AllExpr t.toList) ((gives_exprNode value).mono fun _ ht => .singleton ht)
    cases stmt with
    | function r signature body =>
      rw [memberNodes]
      exact gives_cons (gives_methodNode (gives_stmtsNodes body)) (gives_memberNodes rest c emitted)
    | classType r name bases body =>
      rw [memberNodes]
      refine mild_openClass.next fun inner => ?_
      refine (gives_memberNodes body inner []).withQualifier.bind fun ts hts => ?_
      exact gives_cons (gives_classNode hts) (gives_memberNodes rest c emitted)
    | assign r targets value =>
      obtain ⟨x, hmembers, rfl | ⟨rfl, -⟩⟩ := memberNodes_assign locks c emitted r targets value rest
      all_goals rw [hmembers]
      · exact hassigned r _ _ (.pure .none)
      · exact hassigned r _ _ (hvalue value)
    | annotate r target typeHint value =>
      obtain ⟨x, hmembers, rfl | ⟨e, rfl, rfl, -⟩⟩ :=
        memberNodes_annotate locks c emitted r target typeHint value rest
      all_goals rw [hmembers]
      · exact hassigned r _ _ (.pure .none)
      · exact hassigned r _ _ (hvalue e)
    | _ =>
      simp only [memberNodes]
      exact gives_memberNodes rest c emitted

end

/-! ## Modules -/

namespace ModuleParts

variable {parts : ModuleParts} {modifiers : List String} {initializer : Option Tree}

/-- Members are declarations, and statements are none. -/
def Layered (parts : ModuleParts) : Prop := AllMembers parts.members ∧ AllInner parts.statements

theorem gives_inFrame {x : Build (List Tree)} (h : parts.Layered) (hx : Gives x AllInner) :
    Gives (parts.inFrame x) Layered := by
  intro s hs
  have hopen : Building.Layered { s with frames := parts.frame :: s.frames } := hs
  refine runs_modify_bind (Runs.bind (hx _ hopen) fun ts s₁ ⟨hts, hs₁⟩ => ?_)
  exact runs_get_bind (runs_set_bind (runs_pure
    ⟨⟨h.1, List.forall_mem_append.mpr ⟨h.2, hts⟩⟩, hs₁⟩))

theorem gives_addFields : (names : List String) → {parts : ModuleParts} → parts.Layered →
    AllExpr initializer.toList → Gives (parts.addFields r modifiers initializer names) Layered
  | [], _, h, _ => .pure h
  | name :: rest, parts, h, hinitializer => by
    rw [addFields]
    refine mild_get.next fun s => ?_
    split
    · refine (gives_fieldAt hinitializer).bind fun t ht => gives_addFields rest ⟨?_, h.2⟩ hinitializer
      exact List.forall_mem_append.mpr ⟨h.1, by simpa using ht⟩
    · exact gives_addFields rest h hinitializer

theorem gives_addAssignment {stmt : Stmt} {targets : List Expr} {value : Option Expr}
    (h : parts.Layered) : Gives (parts.addAssignment locks stmt targets value) Layered := by
  rw [addAssignment.eq_def]
  split
  · split
    · exact gives_inFrame h (gives_stmtNodes stmt)
    · have hplaced : ∀ (name : String) (x : Build (Option Tree)),
          Gives x (fun t => AllExpr t.toList) → Gives (do
            let initializer ← x
            let state ← get
            set { state with frames := state.frames.drop 1, pending := [] }
            let parts ← parts.addFields stmt.range [] initializer [name]
            return { parts with
              statements := parts.statements ++ state.pending
              frame := state.frames.headD parts.frame }) Layered := by
        intro name x hx s hs
        refine Runs.bind (hx s hs) fun t s₁ ⟨ht, hs₁⟩ => runs_get_bind (runs_set_bind ?_)
        have hclear : Building.Layered { s₁ with frames := s₁.frames.drop 1, pending := [] } :=
          ⟨(fun _ hu => nomatch hu), hs₁.2⟩
        refine Runs.bind (gives_addFields [name] h ht _ hclear)
          fun parts₂ s₂ ⟨h₂, hs₂⟩ => runs_pure ⟨⟨h₂.1, ?_⟩, hs₂⟩
        exact List.forall_mem_append.mpr ⟨h₂.2, hs₁.1⟩
      refine Tidy.next (tidy_modify fun _ hs => hs) fun _ => ?_
      split
      · exact hplaced _ _ (.pure .none)
      · next value =>
        exact hplaced _ _ (.map (Q := fun t : Option Tree => AllExpr t.toList)
          ((gives_exprNode value).mono fun _ ht => .singleton ht))
  · exact (gives_addFields _ h .none).bind fun parts₁ h₁ => gives_inFrame h₁ (gives_stmtNodes stmt)

theorem gives_addStatement {stmt : Stmt} (h : parts.Layered) :
    Gives (parts.addStatement locks stmt) Layered := by
  have hmember : ∀ t, IsMember t → { parts with members := parts.members ++ [t] }.Layered :=
    fun t ht => ⟨List.forall_mem_append.mpr ⟨h.1, by simpa using ht⟩, h.2⟩
  cases stmt with
  | function r signature body =>
    exact (gives_methodNode (gives_stmtsNodes body)).bind fun t ht => .pure (hmember t ht)
  | classType r name bases body =>
    exact mild_openClass.next fun c => (gives_memberNodes body c []).withQualifier.bind
      fun ts hts => (gives_classNode hts).bind fun t ht => .pure (hmember t ht)
  | imports r names => exact gives_addFields names h .none
  | assign r targets value => exact gives_addAssignment h
  | annotate r target typeHint value => exact gives_addAssignment h
  | _ => exact gives_inFrame h (gives_stmtNodes _)

end ModuleParts

theorem Gives.foldlM {f : α → β → Build α} (hf : ∀ a b, P a → Gives (f a b) P) : (bs : List β) →
    {a : α} → P a → Gives (bs.foldlM f a) P
  | [], _, h => .pure h
  | b :: bs, a, h => by
    rw [List.foldlM_cons]
    exact (hf a b h).bind fun a' h' => Gives.foldlM hf bs h'

/-- **All nodes of a module are layered.** -/
theorem gives_moduleNode {moduleName : String} {body : List Stmt} :
    Gives (moduleNode locks moduleName body) fun t => t.All Shape.Layered := by
  rw [moduleNode]
  refine (mild_fieldVariables _).next fun own => Tidy.next (tidy_modify fun _ hs => hs) fun _ => ?_
  have hstart : ModuleParts.Layered ⟨[], [], [], ⟨[], [], [], true⟩⟩ :=
    ⟨(fun _ ht => nomatch ht), fun _ ht => nomatch ht⟩
  refine (Gives.foldlM (fun parts stmt h => parts.gives_addStatement h) body hstart).bind
    fun parts h => ?_
  refine (Gives.foldlM (fun parts e h => ModuleParts.gives_addFields _ h .none) _ h).bind
    fun parts h => fun s hs => runs_get_bind (runs_pure ⟨(isMember_type rfl ?_).2, hs⟩)
  refine List.forall_mem_append.mpr ⟨List.forall_mem_append.mpr ⟨h.1, fun t ht => ?_⟩, hs.2⟩
  obtain ⟨first, -, rfl⟩ := Option.map_eq_some_iff.mp (Option.mem_toList.mp ht)
  exact isMember_method rfl h.2

end Source

end ModelLint
