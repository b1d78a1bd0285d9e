import ModelLint.Proofs.Source.Quiet

/-!
# What is open stays open

The frames, the receivers and the names of declarations that are open form stacks, which many steps
change and have to change back. Every step that comes to an end leaves them as high as it found them,
and everything below the innermost frame as it was, from any state. What differs is the innermost
frame: a statement may bind a name again, and so may the loop of a comprehension, but the frame of a
comprehension is closed behind it. So an expression binds at most names that were not bound.

* `Building.SameStacks`, `Building.Widened`: what a step leaves, and what an expression leaves.
* `Relates`: steps that come from any state to one related to it. `Appends.withFrame`: what is built
  in a frame of its own leaves the frame around alone.
* `widens_exprNode`, `appends_stmtNodes`, `widens_memberNodes`: expressions, statements and members.
* `runs_withCaught`: the name of a caught error means behind the handler what it meant before.
* **`stacks_restored`**: all of this for steps that come to an end.
-/

namespace ModelLint.Source

open Build

variable {α β : Type} {x : Build α} {f : α → Build β} {r : Range} {name : String} {v : VariableId}
  {locks : List String} {s s' s'' : Building}

/-! ## States -/

namespace Building

/-- **The stacks are as they were**, up to what the innermost frame holds. -/
structure SameStacks (s s' : Building) : Prop where
  /-- The receivers stay. -/
  receivers : s'.receivers = s.receivers
  /-- The open declarations stay. -/
  qualifiers : s'.qualifiers = s.qualifiers
  /-- As many frames are open. -/
  frames_length : s'.frames.length = s.frames.length
  /-- All frames but the innermost stay. -/
  frames_tail : s'.frames.tail = s.frames.tail

/-- The stacks are as they were, and declarations before the statement have only been added. -/
structure Appended (s s' : Building) : Prop extends s.SameStacks s' where
  /-- They come up behind those that are there. -/
  pending : s.pending <+: s'.pending

/-- **The innermost frame is at most larger**: each name that it binds means the same variable. -/
structure Widened (s s' : Building) : Prop extends s.Appended s' where
  /-- Bound names stay bound. -/
  names : ∀ name v, (s.sight name).own = some v → (s'.sight name).own = some v

theorem SameStacks.refl (s : Building) : s.SameStacks s := ⟨rfl, rfl, rfl, rfl⟩

theorem SameStacks.trans (h : s.SameStacks s') (h' : s'.SameStacks s'') : s.SameStacks s'' where
  receivers := h'.receivers.trans h.receivers
  qualifiers := h'.qualifiers.trans h.qualifiers
  frames_length := h'.frames_length.trans h.frames_length
  frames_tail := h'.frames_tail.trans h.frames_tail

theorem Appended.refl (s : Building) : s.Appended s := ⟨.refl s, List.prefix_rfl⟩

theorem Appended.trans (h : s.Appended s') (h' : s'.Appended s'') : s.Appended s'' :=
  ⟨h.toSameStacks.trans h'.toSameStacks, h.pending.trans h'.pending⟩

theorem Widened.refl (s : Building) : s.Widened s := ⟨.refl s, fun _ _ h => h⟩

theorem Widened.trans (h : s.Widened s') (h' : s'.Widened s'') : s.Widened s'' :=
  ⟨h.toAppended.trans h'.toAppended, fun name v hv => h'.names name v (h.names name v hv)⟩

theorem SameStacks.frames_drop {frame : Frame}
    (h : Building.SameStacks { s with frames := frame :: s.frames } s') :
    s'.frames.drop 1 = s.frames := by
  rw [List.drop_one]
  exact h.frames_tail

theorem SameStacks.of_frames (hreceivers : s'.receivers = s.receivers)
    (hqualifiers : s'.qualifiers = s.qualifiers) (hframes : s'.frames = s.frames) :
    s.SameStacks s' :=
  ⟨hreceivers, hqualifiers, by rw [hframes], by rw [hframes]⟩

theorem Widened.of_frames (hreceivers : s'.receivers = s.receivers)
    (hqualifiers : s'.qualifiers = s.qualifiers) (hframes : s'.frames = s.frames)
    (hpending : s.pending <+: s'.pending) : s.Widened s' :=
  ⟨⟨.of_frames hreceivers hqualifiers hframes, hpending⟩, fun _ _ hv => by
    rw [sight, hframes]
    exact hv⟩

theorem appended_bound {type : Option String} : s.Appended (s.bound name type) := by
  refine ⟨⟨rfl, rfl, by simp [bound], ?_⟩, List.prefix_rfl⟩
  cases hframes : s.frames <;> simp [bound, hframes]

theorem widened_bound {type : Option String} (hnone : (s.sight name).own = none) :
    s.Widened (s.bound name type) := by
  refine ⟨appended_bound, fun y v hv => ?_⟩
  have hne : name ≠ y := fun hy => by
    rw [← hy, hnone] at hv
    cases hv
  exact (keeps_bound hne).own.trans hv

end Building

/-! ## Steps -/

/-- A step that comes from any state to one that is related to it. -/
def Relates (R : Building → Building → Prop) (x : Build α) : Prop :=
  ∀ s, Runs x s (fun _ => True) fun _ s' => R s s'

/-- A step that leaves the stacks as they were. -/
abbrev Restores (x : Build α) : Prop := Relates Building.SameStacks x

/-- A step that also leaves the declarations that are to be put before the statement. -/
abbrev Appends (x : Build α) : Prop := Relates Building.Appended x

/-- A step that at most binds names that were not bound. -/
abbrev Widens (x : Build α) : Prop := Relates Building.Widened x

instance : Std.Refl Building.SameStacks := ⟨Building.SameStacks.refl⟩

instance : IsTrans Building Building.SameStacks := ⟨fun _ _ _ h h' => h.trans h'⟩

instance : Std.Refl Building.Appended := ⟨Building.Appended.refl⟩

instance : IsTrans Building Building.Appended := ⟨fun _ _ _ h h' => h.trans h'⟩

instance : Std.Refl Building.Widened := ⟨Building.Widened.refl⟩

instance : IsTrans Building Building.Widened := ⟨fun _ _ _ h h' => h.trans h'⟩

section Relates

variable {R : Building → Building → Prop}

theorem relates_pure [Std.Refl R] {a : α} : Relates R (pure a : Build α) := fun s => Std.Refl.refl s

theorem relates_throw {e : BuildFailure} : Relates R (throw e : Build α) := fun _ => trivial

theorem Relates.bind [IsTrans Building R] (hx : Relates R x) (hf : ∀ a, Relates R (f a)) :
    Relates R (x >>= f) := fun s =>
  (hx s).bind fun a s₁ h₁ => (hf a s₁).mono fun _ _ h₂ => IsTrans.trans _ _ _ h₁ h₂

theorem Relates.map {g : α → β} (hx : Relates R x) : Relates R (g <$> x) := fun s => Runs.map (hx s)

/-- The last step gives what is made of its result. -/
theorem Relates.last [Std.Refl R] [IsTrans Building R] {g : α → β} (hx : Relates R x) :
    Relates R (do let a ← x; return g a) :=
  hx.bind fun _ => relates_pure

theorem Relates.appends (hx : Widens x) : Appends x := fun s => (hx s).mono fun _ _ h => h.toAppended

theorem Relates.restores (hx : Appends x) : Restores x := fun s =>
  (hx s).mono fun _ _ h => h.toSameStacks

end Relates

/-! ## Nesting -/

theorem Appends.withFrame {frame : Frame} (hx : Appends x) : Widens (withFrame frame x) := fun _ =>
  runs_withFrame ((hx _).mono fun _ _ h =>
    .of_frames h.receivers h.qualifiers h.frames_drop h.pending)

theorem Widens.withQualifier (hx : Widens x) : Widens (withQualifier name x) := fun _ =>
  runs_withQualifier ((hx _).mono fun _ _ h =>
    { h with
      receivers := h.receivers
      qualifiers := by rw [h.qualifiers, List.drop_one, List.tail_cons]
      names := h.names })

theorem Widens.withReceiver {receiver : Option Receiver} (hx : Widens x) :
    Widens (withReceiver receiver x) := by
  rcases receiver with _ | receiver
  · exact hx
  · exact fun _ => runs_withReceiver_some ((hx _).mono fun _ _ h =>
      { h with
        receivers := by rw [h.receivers, List.drop_one, List.tail_cons]
        names := h.names })

theorem Appends.collectPending (hx : Appends x) : Appends (collectPending x) := fun _ =>
  runs_collectPending ((hx _).mono fun _ _ h => { h with pending := List.prefix_rfl })

theorem Appends.withPending {nodes : Build (List Tree)} (hx : Appends nodes) :
    Appends (withPending nodes) :=
  hx.collectPending.last

/-! ## Single steps -/

section Operations

theorem widens_of_same (h : ∀ s, Runs x s (fun _ => True) fun _ s' => s'.frames = s.frames ∧
    s'.receivers = s.receivers ∧ s'.qualifiers = s.qualifiers ∧ s.pending <+: s'.pending) :
    Widens x := fun s =>
  (h s).mono fun _ _ ⟨hframes, hreceivers, hqualifiers, hpending⟩ =>
    .of_frames hreceivers hqualifiers hframes hpending

theorem widens_pure {a : α} : Widens (pure a : Build α) := relates_pure

theorem widens_get : Widens (get : Build Building) :=
  widens_of_same fun _ => ⟨rfl, rfl, rfl, List.prefix_rfl⟩

theorem widens_newVariable {type : Option String} {kind : VariableKind} {isStatic : Bool} :
    Widens (newVariable name type kind isStatic) :=
  widens_of_same fun _ => ⟨rfl, rfl, rfl, List.prefix_rfl⟩

theorem widens_lookup? : Widens (lookup? name) :=
  widens_of_same fun _ => ⟨rfl, rfl, rfl, List.prefix_rfl⟩

theorem widens_receiverField? : Widens (receiverField? name) :=
  widens_of_same fun _ => ⟨rfl, rfl, rfl, List.prefix_rfl⟩

theorem widens_qualified : Widens (qualified name) :=
  widens_of_same fun _ => ⟨rfl, rfl, rfl, List.prefix_rfl⟩

theorem widens_typeOf? : Widens (typeOf? v) :=
  widens_of_same fun _ => ⟨rfl, rfl, rfl, List.prefix_rfl⟩

theorem widens_addPending {t : Tree} : Widens (addPending t) :=
  widens_of_same fun _ => ⟨rfl, rfl, rfl, List.prefix_append _ _⟩

theorem widens_addHoisted {t : Tree} : Widens (addHoisted t) :=
  widens_of_same fun _ => ⟨rfl, rfl, rfl, List.prefix_rfl⟩

theorem widens_isReceiver {e : Expr} : Widens (isReceiver e) := by
  refine widens_get.bind fun s => ?_
  split <;> exact widens_pure

theorem widens_globalField {modifiers : List String} : Widens (globalField name modifiers) := by
  refine widens_get.bind fun s => ?_
  split
  · exact widens_pure
  · refine widens_newVariable.bind fun v => widens_get.bind fun s => Relates.bind ?_ fun _ => widens_pure
    exact widens_of_same fun s => ⟨rfl, rfl, rfl, List.prefix_rfl⟩

theorem widens_binding? : Widens (binding? name) := by
  refine widens_get.bind fun s => ?_
  repeat' split
  all_goals first | exact widens_pure | exact widens_globalField.map

theorem appends_modifyFrame {g : Frame → Frame} : Appends (modifyFrame g) := by
  intro s
  refine runs_get_bind ?_
  rcases hframes : s.frames with _ | ⟨frame, outer⟩
  · exact runs_throw trivial
  · exact runs_modify_bind (f := pure)
      ⟨⟨rfl, rfl, by simp [hframes], by simp [hframes]⟩, List.prefix_rfl⟩

theorem appends_bound {type : Option String} {k : VariableId → Build α} (hk : ∀ v, Appends (k v)) :
    Appends (do let v ← newLocal name type; bindName name v; k v) := fun _ =>
  runs_bound fun _ => (hk _ _).mono fun _ _ h => Building.appended_bound.trans h

/-- **A name is bound for the first time** if the search for its variable finds none. -/
theorem widens_binding {type : Option String} {k : Option VariableId → Build α}
    {k' : VariableId → Build α} (hk : ∀ v, Widens (k (some v))) (hk' : ∀ v, Widens (k' v))
    (hnone : k none = do let v ← newLocal name type; bindName name v; k' v) :
    Widens (binding? name >>= k) := by
  intro s
  refine ((widens_binding? s).and runs_bindingOf).bind fun w s₁ ⟨h₁, _, hfree, _⟩ => ?_
  rcases w with _ | v
  · rw [hnone]
    exact runs_bound fun _ => (hk' _ _).mono fun _ _ h₂ =>
      (h₁.trans (Building.widened_bound (hfree rfl))).trans h₂
  · exact (hk v s₁).mono fun _ _ h₂ => h₁.trans h₂

theorem widens_parameterNames : (ps : List Parameter) → Widens (parameterNames ps)
  | [] => widens_pure
  | _ :: rest => widens_newVariable.bind fun _ => (widens_parameterNames rest).last

theorem appends_bindAll : (names : List String) → Appends (bindAll names)
  | [] => relates_pure
  | _ :: rest => appends_bound fun _ => (appends_bindAll rest).last

theorem widens_createdType? {e : Expr} : Widens (createdType? e) := by
  rw [createdType?.eq_def]
  split
  · refine widens_isReceiver.bind fun _ => ?_
    split <;> exact widens_pure
  · exact widens_pure
  · exact widens_pure

theorem widens_isLock {patterns : List String} {e : Expr} {t : Tree} :
    Widens (isLock patterns e t) := by
  rw [isLock]
  split
  · exact widens_pure
  · split
    · exact widens_pure
    · exact widens_typeOf?.last

theorem widens_fieldVariables : (fields : List Field) → Widens (fieldVariables fields)
  | [] => widens_pure
  | _ :: rest => widens_newVariable.bind fun _ => (widens_fieldVariables rest).last

theorem widens_openClass {bases : List Expr} {body : List Stmt} :
    Widens (openClass name bases body) :=
  (widens_fieldVariables _).bind fun _ => widens_get.bind fun _ => Relates.last
    (widens_of_same fun _ => ⟨rfl, rfl, rfl, List.prefix_rfl⟩)

theorem widens_fieldAt {modifiers : List String} {initializer : Option Tree} :
    Widens (fieldAt r modifiers name v initializer) :=
  widens_get.bind fun _ => widens_qualified.last

theorem widens_assignedFields {c : OpenClass} : (names : List String) → {emitted : List String} →
    {initializer : Option Tree} → Widens (assignedFields c r emitted initializer names)
  | [], _, _ => widens_pure
  | name :: rest, emitted, initializer => by
    rw [assignedFields]
    split
    · exact widens_fieldAt.bind fun _ => (widens_assignedFields rest).last
    · exact widens_assignedFields rest

theorem widens_remainingFields {emitted : List String} : (own : List (Field × VariableId)) →
    Widens (remainingFields emitted own)
  | [] => widens_pure
  | (f, v) :: rest => by
    rw [remainingFields]
    split
    · exact widens_remainingFields rest
    · exact widens_fieldAt.bind fun _ => (widens_remainingFields rest).last

end Operations

/-! ## Expressions -/

theorem widens_nameNode {id : String} : Widens (nameNode r id) := by
  refine widens_lookup?.bind fun v => ?_
  split
  · exact widens_pure
  · split
    · exact widens_globalField.last
    · exact widens_pure

theorem widens_targetName {id : String} : Widens (targetName r id) :=
  widens_binding (fun _ => widens_pure) (fun _ => widens_addPending.last) rfl

mutual

/-- **An expression** binds at most names that were not bound: all frames that it opens are closed
behind it. -/
theorem widens_exprNode : (e : Expr) → Widens (exprNode e)
  | .name r id => by
    rw [exprNode]
    exact widens_nameNode
  | .constant r value hasLetter => by
    rw [exprNode]
    exact widens_pure
  | .attribute r value attr => by
    rw [exprNode]
    refine widens_isReceiver.bind fun isReceiver => ?_
    split
    · exact widens_receiverField?.last
    · exact (widens_exprNode value).last
  | .subscript r value index => by
    rw [exprNode]
    exact (widens_exprNode value).bind fun _ => (widens_exprNode index).last
  | .call r function args keywords => by
    have hmade : ∀ shape : List Tree → Shape Tree, Widens (do
        let args ← exprNodes args
        return nodeAt r (shape (args ++ (← keywordNodes keywords)))) := fun shape =>
      (widens_exprNodes args).bind fun _ => (widens_keywordNodes keywords).last
    cases function with
    | «attribute» fr value attr =>
      rw [exprNode]
      refine widens_createdType?.bind fun created => ?_
      split
      · exact hmade _
      · refine widens_isReceiver.bind fun isReceiver => ?_
        dsimp only
        split
        · exact hmade _
        · exact (widens_exprNode value).map.bind fun _ => hmade _
    | name fr id =>
      rw [exprNode]
      refine widens_createdType?.bind fun created => (widens_exprNodes args).bind fun _ =>
        (widens_keywordNodes keywords).bind fun _ => ?_
      split <;> exact widens_pure
    | _ =>
      rw [exprNode]
      · exact (widens_exprNode _).bind fun _ => hmade _
      all_goals nofun
  | .compound r form operands => by
    rw [exprNode]
    exact (widens_exprNodes operands).last
  | .dict r entries => by
    rw [exprNode]
    exact (widens_keyNodes entries).bind fun _ => (widens_valueNodes entries).last
  | .walrus r target id value => by
    rw [exprNode]
    exact (widens_exprNode value).bind fun _ => widens_targetName.last
  | .lambda r parameters body => by
    rw [exprNode]
    exact (widens_parameterNames parameters).bind fun _ =>
      (widens_exprNode body).appends.withFrame.last
  | .comprehension r kind elements first rest => by
    rw [exprNode]
    -- Its loops may bind a name again, but they do so in the frame of the comprehension.
    refine (widens_sourceNode first).bind fun t => ?_
    exact (Appends.withFrame ((appends_clauseNodes first).bind fun p =>
      (appends_innerClauseNodes rest).bind fun q => (widens_exprNodes elements).appends.last)).last

theorem widens_exprNodes : (es : List Expr) → Widens (exprNodes es)
  | [] => widens_pure
  | e :: es => (widens_exprNode e).bind fun _ => (widens_exprNodes es).last

theorem widens_keywordNodes : (ks : List Keyword) → Widens (keywordNodes ks)
  | [] => widens_pure
  | .mk _ value :: rest => (widens_exprNode value).bind fun _ => (widens_keywordNodes rest).last

theorem widens_keyNodes : (es : List Entry) → Widens (keyNodes es)
  | [] => widens_pure
  | .pair key _ :: rest => (widens_exprNode key).bind fun _ => (widens_keyNodes rest).last
  | .unpack _ :: rest => widens_keyNodes rest

theorem widens_valueNodes : (es : List Entry) → Widens (valueNodes es)
  | [] => widens_pure
  | .pair _ value :: rest => (widens_exprNode value).bind fun _ => (widens_valueNodes rest).last
  | .unpack value :: rest => (widens_exprNode value).bind fun _ => (widens_valueNodes rest).last

theorem widens_sourceNode : (c : Clause) → Widens (sourceNode c)
  | .mk _ _ source _ => widens_exprNode source

theorem appends_clauseNodes : (c : Clause) → Appends (clauseNodes c)
  | .mk _ target _ conditions => (appends_bindAll _).bind fun _ =>
    (widens_exprNode target).appends.bind fun _ => (widens_exprNodes conditions).appends.last

theorem appends_innerClauseNodes : (cs : List Clause) → Appends (innerClauseNodes cs)
  | [] => relates_pure
  | c :: rest => (widens_sourceNode c).appends.bind fun _ => (appends_clauseNodes c).bind fun _ =>
    (appends_innerClauseNodes rest).last

end

mutual

theorem widens_targetNode : (e : Expr) → Widens (targetNode e)
  | .name r id => by
    rw [targetNode]
    exact widens_targetName
  | .compound r form operands => by
    have hother : Widens (exprNode (.compound r form operands)) := widens_exprNode _
    cases form with
    | tuple =>
      rw [targetNode]
      exact (widens_targetNodes operands).last
    | list =>
      rw [targetNode]
      exact (widens_targetNodes operands).last
    | starred =>
      match operands with
      | [e] =>
        rw [targetNode]
        exact widens_targetNode e
      | [] => simpa only [targetNode] using hother
      | _ :: _ :: _ => simpa only [targetNode] using hother
    | _ => simpa only [targetNode] using hother
  | .constant .. | .attribute .. | .subscript .. | .call .. | .dict .. | .walrus .. | .lambda ..
  | .comprehension .. => by
    simp only [targetNode]
    exact widens_exprNode _

theorem widens_targetNodes : (es : List Expr) → Widens (targetNodes es)
  | [] => widens_pure
  | e :: es => (widens_targetNode e).bind fun _ => (widens_targetNodes es).last

end

/-! ## Statements without blocks -/

theorem widens_assignName {target : Range} {id : String} {value : Tree} {type : Option String} :
    Widens (assignName r target id value type) :=
  widens_binding (fun _ => widens_pure) (fun _ => widens_pure) rfl

theorem widens_assignNodes {targets : List Expr} {value : Expr} :
    Widens (assignNodes r targets value) := by
  refine (widens_exprNode value).bind fun t => ?_
  split
  · exact widens_assignName.last
  · exact (widens_targetNodes targets).last

theorem widens_annotateNodes {target typeHint : Expr} {value : Option Expr} :
    Widens (annotateNodes r target typeHint value) := by
  rw [annotateNodes.eq_def]
  split
  · exact widens_binding (fun _ => widens_pure) (fun _ => widens_pure) rfl
  · exact (widens_exprNode _).bind fun _ => widens_assignName.last
  · exact widens_pure
  · exact (widens_exprNode _).bind fun _ => (widens_exprNode _).last

theorem widens_importNodes : (names : List String) → Widens (importNodes r names)
  | [] => widens_pure
  | _ :: rest => widens_binding (fun _ => widens_importNodes rest)
      (fun _ => (widens_importNodes rest).last) rfl

theorem widens_exprStatementNodes {e : Expr} : Widens (exprStatementNodes r e) := by
  rw [exprStatementNodes.eq_def]
  split
  · exact widens_pure
  · exact (widens_exprNode _).last

theorem widens_throwNodes {error cause : Option Expr} : Widens (throwNodes r error cause) := by
  rw [throwNodes.eq_def]
  split
  · exact widens_pure
  · exact (widens_exprNode _).last
  · exact (widens_exprNode _).bind fun _ => (widens_exprNode _).last

theorem widens_simpleNodes {word : String} {operands : List Expr} :
    Widens (simpleNodes r word operands) := by
  refine (widens_exprNodes operands).bind fun ts => ?_
  split <;> exact widens_pure

theorem widens_heldFor {patterns : List String} {context : Expr} {target : Option Expr} {t : Tree} :
    Widens (heldFor patterns context t target) := by
  rw [heldFor.eq_def]
  split
  · refine widens_isLock.bind fun b => ?_
    split <;> exact widens_pure
  · exact widens_binding (fun _ => widens_targetName.last) (fun _ => widens_pure) rfl
  · exact (widens_targetNode _).last

theorem widens_heldResources {patterns : List String} : (resources : List Resource) →
    Widens (heldResources patterns resources)
  | [] => widens_pure
  | ⟨context, target⟩ :: rest => by
    rw [heldResources_cons]
    exact (widens_exprNode context).bind fun _ => widens_heldFor.bind fun _ =>
      (widens_heldResources rest).last

/-! ## Functions and handlers -/

theorem Appends.methodNode {signature : Signature} {fields : Option Names}
    {nodes : Build (List Tree)} (h : Appends nodes) : Widens (methodNode r signature fields nodes) :=
  (widens_parameterNames _).bind fun _ => h.withFrame.withQualifier.withReceiver.bind fun _ =>
    widens_qualified.last

theorem Appends.functionNode {signature : Signature} {nodes : Build (List Tree)}
    (h : Appends nodes) : Appends (functionNode r signature nodes) :=
  appends_bound fun _ => (widens_parameterNames _).appends.bind fun _ => h.withFrame.appends.last

theorem lookup_restored_self {names : Names} {previous : Option VariableId} :
    ((previous.toList.map fun v => (name, v)) ++
      names.filter fun e => e.1 ≠ name).lookup name = previous := by
  rcases previous with _ | v
  · refine List.lookup_eq_none_iff.mpr fun e he => ?_
    have hne : e.1 ≠ name := by simpa using (List.mem_filter.mp he).2
    simpa using hne.symm
  · exact List.lookup_cons_self

/-- **The name of a caught error** is bound behind the handler exactly as it was before. -/
theorem runs_withCaught {caught : Option String} {types : List String} {block : Build Tree}
    (h : Appends block) : Runs (withCaught caught types block) s (fun _ => True) fun _ s' =>
      s.Appended s' ∧ ∀ name, caught = some name → (s'.sight name).own = (s.sight name).own := by
  rcases caught with _ | name
  · exact (h s).bind fun _ s₁ h₁ => runs_pure ⟨h₁, by rintro _ ⟨⟩⟩
  · refine runs_get_bind (runs_bound fun _ => (h _).bind fun t s₁ h₁ => ?_)
    let restore : Frame → Frame := fun frame =>
      { frame with
        names := ((s.sight name).own.toList.map fun v => (name, v)) ++
          frame.names.filter fun e => e.1 ≠ name }
    have hown : Runs (modifyFrame restore) s₁ (fun _ => True) fun _ s₂ =>
        (s₂.sight name).own = (s.sight name).own := by
      refine runs_get_bind ?_
      rcases s₁.frames with _ | ⟨frame, outer⟩
      · exact runs_throw trivial
      · exact runs_modify_bind (f := pure) lookup_restored_self
    refine ((appends_modifyFrame s₁).and hown).bind fun _ s₂ ⟨h₂, hown⟩ => runs_pure ⟨?_, ?_⟩
    · exact (Building.appended_bound.trans h₁).trans h₂
    · rintro _ ⟨⟩
      exact hown

theorem appends_withCaught {caught : Option String} {types : List String} {block : Build Tree}
    (h : Appends block) : Appends (withCaught caught types block) := fun _ =>
  (runs_withCaught h).mono fun _ _ h' => h'.1

/-! ## Statements -/

mutual

/-- **A statement** leaves the stacks as they were. -/
theorem appends_stmtNodes : (stmt : Stmt) → Appends (stmtNodes locks stmt)
  | .function r signature body => by
    rw [stmtNodes]
    exact .withPending (appends_stmtsNodes body).functionNode.last
  | .classType r name bases body => by
    rw [stmtNodes]
    refine .withPending (widens_openClass.appends.bind fun c => ?_)
    refine (widens_memberNodes body c []).withQualifier.appends.bind fun ts => ?_
    refine widens_qualified.last.appends.bind fun t => widens_addHoisted.appends.bind fun _ => ?_
    exact appends_bound fun v => relates_pure
  | .returnValue r none => by
    rw [stmtNodes]
    exact relates_pure
  | .returnValue r (some value) => by
    rw [stmtNodes]
    exact .withPending (widens_exprNode value).appends.last
  | .assign r targets value => by
    rw [stmtNodes]
    exact widens_assignNodes.appends.withPending
  | .augment r target op value => by
    rw [stmtNodes]
    exact .withPending ((widens_exprNode target).bind fun _ => (widens_exprNode value).last).appends
  | .annotate r target typeHint value => by
    rw [stmtNodes]
    exact widens_annotateNodes.appends.withPending
  | .forEach r isAsync target source body orElse => by
    rw [stmtNodes]
    refine .withPending ((widens_exprNode source).appends.bind fun _ => ?_)
    exact (widens_targetNode target).appends.collectPending.bind fun _ =>
      (appends_stmtsNodes body).bind fun _ => (appends_stmtsNodes orElse).last
  | .whileLoop r condition body orElse => by
    rw [stmtNodes]
    refine .withPending ((appends_stmtsNodes body).bind fun _ => ?_)
    exact (widens_exprNode condition).appends.bind fun _ => (appends_stmtsNodes orElse).last
  | .choose r condition body orElse => by
    rw [stmtNodes]
    refine .withPending ((widens_exprNode condition).appends.bind fun _ => ?_)
    exact (appends_stmtsNodes body).bind fun _ => (appends_stmtsNodes orElse).last
  | .withResources r resources body => by
    rw [stmtNodes]
    exact .withPending ((widens_heldResources resources).appends.bind fun _ =>
      (appends_stmtsNodes body).last)
  | .matchCases r subject cases => by
    rw [stmtNodes]
    exact .withPending (widens_simpleNodes.appends.bind fun _ => (appends_caseNodes r cases).last)
  | .throwError r error cause => by
    rw [stmtNodes]
    exact widens_throwNodes.appends.withPending
  | .guarded r body handlers orElse finalBody => by
    rw [stmtNodes]
    refine .withPending ((appends_stmtsNodes body).bind fun _ => ?_)
    refine (appends_handlerNodes handlers).bind fun _ => ?_
    exact (appends_stmtsNodes finalBody).bind fun _ => (appends_stmtsNodes orElse).last
  | .imports r names => by
    rw [stmtNodes]
    exact (widens_importNodes names).appends.withPending
  | .globals r names => by
    rw [stmtNodes]
    exact appends_modifyFrame.last
  | .nonlocals r names => by
    rw [stmtNodes]
    exact appends_modifyFrame.last
  | .expr r value => by
    rw [stmtNodes]
    exact widens_exprStatementNodes.appends.withPending
  | .simple r word operands => by
    rw [stmtNodes]
    exact widens_simpleNodes.appends.withPending

theorem appends_stmtsNodes : (body : List Stmt) → Appends (stmtsNodes locks body)
  | [] => relates_pure
  | stmt :: rest => by
    rw [stmtsNodes]
    exact (appends_stmtNodes stmt).bind fun _ => (appends_stmtsNodes rest).last

theorem appends_caseNodes : (r : Range) → (cases : List (List Stmt)) →
    Appends (caseNodes locks r cases)
  | _, [] => relates_pure
  | r, body :: rest => by
    rw [caseNodes]
    exact (appends_stmtsNodes body).bind fun _ => (appends_caseNodes r rest).last

theorem appends_handlerNodes : (handlers : List Handler) → Appends (handlerNodes locks handlers)
  | [] => relates_pure
  | .mk r type name body :: rest => by
    rw [handlerNodes]
    split
    · exact relates_throw
    · exact (appends_withCaught (appends_stmtsNodes body).last).bind fun _ =>
        (appends_handlerNodes rest).last

/-- The members of a class bind no name at all in the innermost frame that was bound before: each
method has a frame of its own. -/
theorem widens_memberNodes : (body : List Stmt) → (c : OpenClass) → (emitted : List String) →
    Widens (memberNodes locks c emitted body)
  | [], c, _ => by
    rw [memberNodes]
    exact widens_remainingFields c.own
  | stmt :: rest, c, emitted => by
    have hassigned : ∀ r names {initializer : Build (Option Tree)}, Widens initializer →
        Widens (assignedMembers locks c emitted r initializer names rest) := fun r names _ h =>
      h.bind fun _ => (widens_assignedFields names).bind fun p => (widens_memberNodes rest c p.2).last
    cases stmt with
    | function r signature body =>
      rw [memberNodes]
      exact (appends_stmtsNodes body).methodNode.bind fun _ => (widens_memberNodes rest c emitted).last
    | classType r name bases body =>
      rw [memberNodes]
      refine widens_openClass.bind fun inner => ?_
      refine (widens_memberNodes body inner []).withQualifier.bind fun ts => ?_
      exact widens_qualified.last.bind fun t => (widens_memberNodes rest c emitted).last
    | assign r targets value =>
      obtain ⟨initializer, heq, rfl | ⟨rfl, -⟩⟩ :=
        memberNodes_assign locks c emitted r targets value rest
      · rw [heq]
        exact hassigned r _ widens_pure
      · rw [heq]
        exact hassigned r _ (widens_exprNode value).map
    | annotate r target typeHint value =>
      obtain ⟨initializer, heq, rfl | ⟨e, -, rfl, -⟩⟩ :=
        memberNodes_annotate locks c emitted r target typeHint value rest
      · rw [heq]
        exact hassigned r _ widens_pure
      · rw [heq]
        exact hassigned r _ (widens_exprNode e).map
    | _ =>
      simp only [memberNodes]
      exact widens_memberNodes rest c emitted

end

/-! ## The module -/

namespace ModuleParts

variable {parts : ModuleParts} {stmt : Stmt}

theorem restores_inFrame {nodes : Build (List Tree)} (h : Appends nodes) :
    Restores (parts.inFrame nodes) := fun _ =>
  runs_modify_bind ((h _).bind fun _ _ h₁ => runs_get_bind (runs_set_bind (runs_pure
    (.of_frames h₁.receivers h₁.qualifiers h₁.frames_drop))))

theorem widens_addFields {modifiers : List String} {initializer : Option Tree} :
    (names : List String) → {parts : ModuleParts} →
      Widens (parts.addFields r modifiers initializer names)
  | [], _ => widens_pure
  | name :: rest, parts => by
    rw [addFields]
    refine widens_get.bind fun s => ?_
    split
    · exact widens_fieldAt.bind fun _ => widens_addFields rest
    · exact widens_addFields rest

theorem restores_addAssignment {targets : List Expr} {value : Option Expr} :
    Restores (parts.addAssignment locks stmt targets value) := by
  rw [addAssignment.eq_def]
  split
  · split
    · exact restores_inFrame (appends_stmtNodes stmt)
    · have hplaced : ∀ (names : List String) (x : Build (Option Tree)), Widens x → Restores (do
          modify fun s => { s with frames := parts.frame :: s.frames }
          let initializer ← x
          let state ← get
          set { state with frames := state.frames.drop 1, pending := [] }
          let parts ← parts.addFields stmt.range [] initializer names
          return { parts with
            statements := parts.statements ++ state.pending
            frame := state.frames.headD parts.frame }) := by
        refine fun names x hx s => runs_modify_bind ((hx _).bind fun t s₁ h₁ => ?_)
        have hclosed : s.SameStacks { s₁ with frames := s₁.frames.drop 1, pending := [] } :=
          .of_frames h₁.receivers h₁.qualifiers h₁.frames_drop
        exact runs_get_bind (runs_set_bind ((widens_addFields names _).bind fun _ _ h₂ =>
          runs_pure (hclosed.trans h₂.toSameStacks)))
      split
      · exact hplaced _ _ widens_pure
      · exact hplaced _ _ (widens_exprNode _).map
  · exact (widens_addFields _).appends.restores.bind fun _ => restores_inFrame (appends_stmtNodes stmt)

/-- The frame of the module is open only while a statement of its own is built. -/
theorem restores_addStatement : Restores (parts.addStatement locks stmt) := by
  cases stmt with
  | function r signature body =>
    exact (appends_stmtsNodes body).methodNode.appends.restores.last
  | classType r name bases body =>
    exact Relates.restores (Relates.appends (widens_openClass.bind fun c =>
      (widens_memberNodes body c []).withQualifier.bind fun _ => widens_qualified.last.last))
  | imports r names => exact (widens_addFields names).appends.restores
  | assign r targets value => exact restores_addAssignment
  | annotate r target typeHint value => exact restores_addAssignment
  | _ => exact restores_inFrame (appends_stmtNodes _)

end ModuleParts

/-! ## Steps that come to an end -/

/-- Handlers are built one after the other. -/
theorem handlerNodes_append (handlers more : List Handler) :
    handlerNodes locks (handlers ++ more) = do
      let catches ← handlerNodes locks handlers
      return catches ++ (← handlerNodes locks more) := by
  induction handlers with
  | nil => simp [handlerNodes]
  | cons handler rest ih =>
    obtain ⟨r, type, name, body⟩ := handler
    rw [List.cons_append, handlerNodes, handlerNodes, ih]
    rcases Expr.handledTypes type with _ | types
    · rfl
    · simp [bind_assoc]

/-- A handler by itself: behind it, its name means what it meant before. -/
theorem runs_handler {type : Option Expr} {body : List Stmt} :
    Runs (handlerNodes locks [.mk r type (some name) body]) s (fun _ => True) fun _ s' =>
      s.SameStacks s' ∧ (s'.sight name).own = (s.sight name).own := by
  rw [handlerNodes]
  split
  · exact runs_throw trivial
  · refine (runs_withCaught (appends_stmtsNodes body).last).bind fun p s₁ ⟨h₁, hown⟩ => ?_
    exact runs_pure ⟨h₁.toSameStacks, hown name rfl⟩

/-- **What is open stays open, behind every expression and every statement that is built**, whatever
the state is in which it is built:

* an expression, and a target of an assignment, leaves the stacks as they were. It neither takes a name
  from the innermost frame nor gives it another variable, and puts declarations only behind those that
  are pending;
* a statement leaves the stacks as they were, and what was pending before it is pending behind it;
* behind each handler of a `try` statement, the innermost frame binds the name of the error exactly as
  before that handler;
* the members of a class and a method leave at least what an expression leaves;
* a statement of the module leaves the stacks as they were. -/
theorem stacks_restored (locks : List String) :
    (∀ e s t s', (exprNode e).run s = .ok (t, s') → s.Widened s') ∧
    (∀ e s t s', (targetNode e).run s = .ok (t, s') → s.Widened s') ∧
    (∀ stmt s ts s', (stmtNodes locks stmt).run s = .ok (ts, s') →
      s.SameStacks s' ∧ s'.pending = s.pending) ∧
    (∀ before r type name body after s ts s',
      (handlerNodes locks (before ++ .mk r type (some name) body :: after)).run s = .ok (ts, s') →
        ∃ ts₁ s₁ ts₂ s₂ ts₃, (handlerNodes locks before).run s = .ok (ts₁, s₁) ∧
          (handlerNodes locks [.mk r type (some name) body]).run s₁ = .ok (ts₂, s₂) ∧
          (handlerNodes locks after).run s₂ = .ok (ts₃, s') ∧ ts = ts₁ ++ (ts₂ ++ ts₃) ∧
          s₁.SameStacks s₂ ∧ (s₂.sight name).own = (s₁.sight name).own) ∧
    (∀ c emitted body s ts s', (memberNodes locks c emitted body).run s = .ok (ts, s') →
      s.Widened s') ∧
    (∀ r signature fields body s t s',
      (methodNode r signature fields (stmtsNodes locks body)).run s = .ok (t, s') → s.Widened s') ∧
    ∀ (parts : ModuleParts) stmt s parts' s',
      (parts.addStatement locks stmt).run s = .ok (parts', s') → s.SameStacks s' := by
  refine ⟨fun e s t s' h => (widens_exprNode e s).of_ok h,
    fun e s t s' h => (widens_targetNode e s).of_ok h, fun stmt s ts s' h => ?_,
    fun before r type name body after s ts s' h => ?_,
    fun c emitted body s ts s' h => (widens_memberNodes body c emitted s).of_ok h,
    fun r signature fields body s t s' h => ((appends_stmtsNodes body).methodNode s).of_ok h,
    fun parts stmt s parts' s' h => (ModuleParts.restores_addStatement s).of_ok h⟩
  · exact ⟨((appends_stmtNodes stmt s).of_ok h).toSameStacks, (quiet_stmtNodes stmt s).of_ok h⟩
  · have hparts : Runs (handlerNodes locks (before ++ ([.mk r type (some name) body] ++ after))) s
        (fun _ => True) fun ts s' => ∃ ts₁ s₁ ts₂ s₂ ts₃,
          (handlerNodes locks before).run s = .ok (ts₁, s₁) ∧
          (handlerNodes locks [.mk r type (some name) body]).run s₁ = .ok (ts₂, s₂) ∧
          (handlerNodes locks after).run s₂ = .ok (ts₃, s') ∧ ts = ts₁ ++ (ts₂ ++ ts₃) ∧
          s₁.SameStacks s₂ ∧ (s₂.sight name).own = (s₁.sight name).own := by
      rw [handlerNodes_append, handlerNodes_append]
      refine runs_self.bind fun ts₁ s₁ h₁ => ?_
      rw [bind_assoc]
      refine (runs_self.and runs_handler).bind fun ts₂ s₂ ⟨h₂, hsame, hown⟩ => ?_
      rw [bind_assoc]
      refine runs_self.bind fun ts₃ s₃ h₃ => runs_pure ?_
      exact ⟨ts₁, s₁, ts₂, s₂, ts₃, h₁, h₂, h₃, rfl, hsame, hown⟩
    exact hparts.of_ok h

/-- A function is open in another, with a receiver, and binds a name `e` as the outer one does. -/
def shadowing : Building :=
  { Building.start with
    vars :=
      let e : Variable :=
        { name := "e", typeName := none, kind := .localVar, isStatic := false, scope := none }
      #[e, e]
    frames := [.ofNames [("e", 1)], .ofNames [("e", 0)]]
    receivers := [⟨[], some "self"⟩]
    qualifiers := ["f", "m"]
    pending := [nodeAt default (.varDeclaration 1 none)] }

/-- The body of a handler: it binds `e` again, and `y` for the first time. -/
def rebinding : List Stmt :=
  [.assign default [.name default "e", .name default "y"] (.name default "e")]

/-- In such a function, `(x := e)` binds `x` and gives one more declaration. Behind a handler that names
its error `e`, this is what it was in the function, though it was another variable in between, and `y`
stays bound. -/
theorem stacks_restored_shadowing :
    (∃ t s', (exprNode (.walrus default default "x" (.name default "e"))).run shadowing = .ok (t, s') ∧
      shadowing.Widened s' ∧ (s'.sight "x").own = some 2 ∧ s'.pending.length = 2) ∧
    (∃ ts s', (stmtNodes [] (.guarded default [] [.mk default none (some "e") rebinding] [] [])).run
      shadowing = .ok (ts, s') ∧ shadowing.SameStacks s' ∧ s'.pending = shadowing.pending ∧
        (s'.sight "y").own = some 3) ∧
    ∃ ts s', (handlerNodes [] [.mk default none (some "e") rebinding]).run shadowing = .ok (ts, s') ∧
      (s'.sight "e").own = some 1 ∧ s'.vars.size = 4 := by
  obtain ⟨hexpr, -, hstmt, hhandlers, -⟩ := stacks_restored []
  let walrus : Expr := .walrus default default "x" (.name default "e")
  let guarded : Stmt := .guarded default [] [.mk default none (some "e") rebinding] [] []
  refine ⟨⟨_, _, rfl, hexpr walrus shadowing _ _ rfl, rfl, rfl⟩, ⟨_, _, rfl, ?_⟩, _, _, rfl, ?_⟩
  · obtain ⟨hsame, hpending⟩ := hstmt guarded shadowing _ _ rfl
    exact ⟨hsame, hpending, rfl⟩
  · obtain ⟨ts₁, s₁, ts₂, s₂, ts₃, h₁, -, h₃, -, -, hown⟩ :=
      hhandlers [] default none "e" rebinding [] shadowing _ _ rfl
    cases h₁
    cases h₃
    exact ⟨hown, rfl⟩

end ModelLint.Source
