import ModelLint.Proofs.Source.Tracing

/-!
# Names in expressions and statements

Building the nodes of expressions and statements follows their events.

* `traces_exprNode`: expressions.
* `traces_targetNode`: targets.
* **`traces_stmtsNodes`**: statements.
-/

namespace ModelLint.Source

open Build

variable {α β : Type} {o : Option String} {r : Range} {us ts : List Tree} {es fs : List Event}
  {name : String} {locks : List String}

theorem within_compound {operator : String} (h : us ⊆ ts) : Within us [compoundAt r operator ts] :=
  within_node (by simpa [Shape.children, Shape.slots] using h)

/-! ## Expressions -/

theorem traces_bindAll {f : List VariableId → Build β} {h : β → List Tree} : (names : List String) →
    (∀ vs, Traces o us (f vs) es h) →
    Traces o us (bindAll names >>= f) (names.map .define ++ es) h := by
  intro names
  induction names generalizing f with
  | nil =>
    intro hf
    exact hf []
  | cons name rest ih =>
    intro hf
    simp only [bindAll, bind_assoc, pure_bind, List.map_cons, List.cons_append]
    apply traces_define
    intro v
    apply ih
    intro vs
    exact hf (v :: vs)

theorem calm_receiverField? : Calm (receiverField? name) := fun s _ => .refl s

section Calls

variable {fr : Range} {attr name : String} {value function : Expr} {args : List Expr}
  {keywords : List Keyword} (hargs : Traces o [] (exprNodes args) (eventsOf o args) id)
  (hkeywords : Traces o [] (keywordNodes keywords) (keywordEvents o keywords) id)

include hargs hkeywords

/-- A node is made of the arguments of a call and of what was built before them. -/
theorem traces_arguments {shape : List Tree → Shape Tree} (before : List Tree)
    (hchildren : ∀ us, (shape us).children = before ++ us) :
    Traces o before (do
      let args ← exprNodes args
      return nodeAt r (shape (args ++ (← keywordNodes keywords))))
      (eventsOf o args ++ keywordEvents o keywords) fun t => [t] := by
  refine hargs.bind fun ts => hkeywords.last fun us => within_node fun t ht => ?_
  simp only [hchildren, List.mem_append, id] at ht ⊢
  tauto

theorem traces_attributeCall (hvalue : Traces o [] (exprNode value) (value.events o) fun t => [t]) :
    Traces o [] (exprNode (.call r (.attribute fr value attr) args keywords))
      ((Expr.call r (.attribute fr value attr) args keywords).events o) fun t => [t] := by
  rw [exprNode, Expr.events]
  apply traces_createdType?
  rcases hcreated : Expr.created? o fr value attr with _ | typeName
  · apply traces_isReceiver
    by_cases hobject : value.isObject o
    · simp only [hobject, if_true, Bool.or_true, List.nil_append]
      exact traces_arguments hargs hkeywords [] fun us => by simp [Shape.children, Shape.slots]
    · have hqualifier : Traces o [] (some <$> exprNode value) (value.events o) Option.toList :=
        hvalue.map
      simp only [hobject, Option.isSome_none, Bool.or_false, Bool.false_eq_true, if_false]
      refine hqualifier.bind fun q => ?_
      rw [List.append_nil]
      exact traces_arguments hargs hkeywords q.toList fun us => by
        simp [Shape.children, Shape.slots]
  · simp only [Option.isSome_some, Bool.true_or, if_true, List.nil_append]
    exact traces_arguments hargs hkeywords [] fun us => by simp [Shape.children, Shape.slots]

theorem traces_nameCall :
    Traces o [] (exprNode (.call r (.name fr name) args keywords))
      ((Expr.call r (.name fr name) args keywords).events o) fun t => [t] := by
  rw [exprNode, Expr.events]
  refine calm_createdType?.next fun created => ?_
  rcases created with _ | typeName
  · exact traces_arguments hargs hkeywords [] fun us => by simp [Shape.children, Shape.slots]
  · exact traces_arguments hargs hkeywords [] fun us => by simp [Shape.children, Shape.slots]

theorem traces_call (hattribute : ∀ fr value attr, function ≠ .attribute fr value attr)
    (hname : ∀ fr id, function ≠ .name fr id)
    (hfunction : Traces o [] (exprNode function) (function.events o) fun t => [t]) :
    Traces o [] (exprNode (.call r function args keywords))
      ((Expr.call r function args keywords).events o) fun t => [t] := by
  rw [exprNode, Expr.events]
  · refine hfunction.bind fun t => ?_
    exact traces_arguments hargs hkeywords [t] fun us => by simp [Shape.children, Shape.slots]
  all_goals assumption

end Calls

mutual

theorem traces_exprNode : (e : Expr) → Traces o [] (exprNode e) (e.events o) fun t => [t]
  | .name r id => by
    simp only [exprNode, Expr.events]
    exact traces_nameNode
  | .constant r value hasLetter => by
    simp only [exprNode, Expr.events]
    exact traces_pure within_nil
  | .attribute r value attr => by
    simp only [exprNode, Expr.events]
    apply traces_isReceiver
    by_cases hobject : value.isObject o
    · simp only [hobject, if_true]
      exact calm_receiverField?.next fun v => traces_pure within_nil
    · simp only [hobject]
      refine (traces_exprNode value).last fun t => within_node ?_
      simp [Shape.children, Shape.slots]
  | .subscript r value index => by
    simp only [exprNode, Expr.events]
    refine (traces_exprNode value).bind fun t => (traces_exprNode index).last fun u => within_node ?_
    simp [Shape.children, Shape.slots]
  | .call r function args keywords => by
    have hargs := traces_exprNodes args
    have hkeywords := traces_keywordNodes keywords
    cases function with
    | «attribute» fr value attr =>
      exact traces_attributeCall hargs hkeywords (traces_exprNode value)
    | name fr id => exact traces_nameCall hargs hkeywords
    | _ => exact traces_call hargs hkeywords (by simp) (by simp) (traces_exprNode _)
  | .compound r form operands => by
    simp only [exprNode, Expr.events]
    refine (traces_exprNodes operands).last fun ts => within_node ?_
    simp [Shape.children, Shape.slots]
  | .dict r entries => by
    simp only [exprNode, Expr.events]
    refine (traces_keyNodes entries).bind fun ts => (traces_valueNodes entries).last
      fun us => within_node ?_
    simp [Shape.children, Shape.slots]
  | .walrus r target id value => by
    simp only [exprNode, Expr.events]
    refine (traces_exprNode value).bind fun t => traces_targetName.last fun u => within_node ?_
    simp [Shape.children, Shape.slots]
  | .lambda r parameters body => by
    simp only [exprNode, Expr.events]
    rw [← List.append_nil (List.map _ _)]
    refine (traces_exprNode body).lambda fun names t => traces_pure ?_
    have hreturn : Within [t] [nodeAt body.range (.returnStatement (some t))] :=
      within_node (by simp [Shape.children, Shape.slots])
    exact hreturn.trans (within_node (by simp [Shape.children, Shape.slots]))
  | .comprehension r kind elements first rest => by
    simp only [exprNode, Expr.events]
    have hinner : Traces o [] (do
        let (vs, nodes) ← clauseNodes first
        let (vs', nodes') ← innerClauseNodes rest
        return (vs ++ vs', nodes ++ nodes' ++ (← exprNodes elements)))
        (clauseEvents o first ++ (innerClauseEvents o rest ++ eventsOf o elements)) (·.2) := by
      refine (traces_clauseNodes first).bind fun p => (traces_innerClauseNodes rest).bind
        fun q => (traces_exprNodes elements).last fun ts => within_of_subset ?_
      simp
    refine (traces_sourceNode first).bind fun t => (traces_withFrame hinner).last fun p => ?_
    have hyield : Within p.2 [compoundAt r "yield" p.2] := within_compound fun _ ht => ht
    have hstatement : ∀ {t}, Within [t] [nodeAt r (.exprStatement t)] :=
      within_node (by simp [Shape.children, Shape.slots])
    have hlambda : ∀ {t}, Within [t] [nodeAt r (.lambda p.1 false [t])] :=
      within_node (by simp [Shape.children, Shape.slots])
    refine within_append.mpr ⟨?_, within_compound (by simp)⟩
    exact (hyield.trans (hstatement.trans hlambda)).trans (within_compound (by simp))

theorem traces_exprNodes : (es : List Expr) → Traces o [] (exprNodes es) (eventsOf o es) id
  | [] => traces_pure within_nil
  | e :: es => by
    simp only [exprNodes, eventsOf]
    refine (traces_exprNode e).bind fun t => (traces_exprNodes es).last
      fun ts => within_of_subset ?_
    simp

theorem traces_keywordNodes : (ks : List Keyword) →
    Traces o [] (keywordNodes ks) (keywordEvents o ks) id
  | [] => traces_pure within_nil
  | .mk _ value :: rest => by
    simp only [keywordNodes, keywordEvents]
    refine (traces_exprNode value).bind fun t => (traces_keywordNodes rest).last
      fun ts => within_of_subset ?_
    simp

theorem traces_keyNodes : (es : List Entry) → Traces o [] (keyNodes es) (keyEvents o es) id
  | [] => traces_pure within_nil
  | .pair key _ :: rest => by
    simp only [keyNodes, keyEvents]
    refine (traces_exprNode key).bind fun t => (traces_keyNodes rest).last
      fun ts => within_of_subset ?_
    simp
  | .unpack _ :: rest => by
    simp only [keyNodes, keyEvents]
    exact traces_keyNodes rest

theorem traces_valueNodes : (es : List Entry) → Traces o [] (valueNodes es) (valueEvents o es) id
  | [] => traces_pure within_nil
  | .pair _ value :: rest => by
    simp only [valueNodes, valueEvents]
    refine (traces_exprNode value).bind fun t => (traces_valueNodes rest).last
      fun ts => within_of_subset ?_
    simp
  | .unpack value :: rest => by
    simp only [valueNodes, valueEvents]
    refine (traces_exprNode value).bind fun t => (traces_valueNodes rest).last
      fun ts => within_of_subset ?_
    simp

theorem traces_sourceNode : (c : Clause) → Traces o [] (sourceNode c) (sourceEvents o c) fun t => [t]
  | .mk _ _ source _ => by
    simp only [sourceNode, sourceEvents]
    exact traces_exprNode source

theorem traces_clauseNodes : (c : Clause) → Traces o [] (clauseNodes c) (clauseEvents o c) (·.2)
  | .mk _ target _ conditions => by
    simp only [clauseNodes, clauseEvents]
    apply traces_bindAll
    intro vs
    refine (traces_exprNode target).bind fun t => (traces_exprNodes conditions).last
      fun ts => within_of_subset ?_
    simp

theorem traces_innerClauseNodes : (cs : List Clause) →
    Traces o [] (innerClauseNodes cs) (innerClauseEvents o cs) (·.2)
  | [] => traces_pure within_nil
  | c :: rest => by
    simp only [innerClauseNodes, innerClauseEvents]
    refine (traces_sourceNode c).bind fun t => (traces_clauseNodes c).bind
      fun p => (traces_innerClauseNodes rest).last fun q => within_of_subset ?_
    simp

end

/-! ## Targets and statements without blocks -/

theorem traces_targetNode (e : Expr) :
    Traces o [] (targetNode e) (targetEvents o e) fun t => [t] := by
  refine targetNode.induct (fun e => Traces o [] (targetNode e) (targetEvents o e) fun t => [t])
    (fun es => Traces o [] (targetNodes es) (targetsEvents o es) id)
    ?name ?tuple ?list ?starred ?other ?nil ?cons e
  case name =>
    intro r id
    rw [targetNode, targetEvents]
    exact traces_targetName
  case tuple | list =>
    intro r es ih
    rw [targetNode, targetEvents]
    exact ih.last fun ts => within_compound (by simp)
  case starred =>
    intro r e ih
    rw [targetNode, targetEvents]
    exact ih
  case other =>
    intro e hname htuple hlist hstarred
    rw [targetNode, targetEvents]
    · exact traces_exprNode e
    all_goals assumption
  case nil => exact traces_pure within_nil
  case cons =>
    intro e es ih ihs
    simp only [targetNodes, targetsEvents]
    exact ih.bind fun t => ihs.last fun ts => within_of_subset (by simp)

theorem traces_targetNodes : (es : List Expr) →
    Traces o [] (targetNodes es) (targetsEvents o es) id
  | [] => traces_pure within_nil
  | e :: es => by
    simp only [targetNodes, targetsEvents]
    exact (traces_targetNode e).bind fun t => (traces_targetNodes es).last
      fun ts => within_of_subset (by simp)

theorem within_exprStatement {t : Tree} (h : Within us [t]) :
    Within us [nodeAt r (.exprStatement t)] :=
  h.trans (within_node (by simp [Shape.children, Shape.slots]))

theorem within_assignment {operator : String} {target value : Tree} (ht : Within us [target])
    (hv : Within ts [value]) : Within (us ++ ts) [nodeAt r (.assignment operator target value)] :=
  within_append.mpr ⟨ht.trans (within_node (by simp [Shape.children, Shape.slots])),
    hv.trans (within_node (by simp [Shape.children, Shape.slots]))⟩

theorem traces_assignName {target : Range} {type : Option String} {t : Tree} :
    Traces o [t] (assignName r target name t type) [.bind name r] fun t => [t] := by
  refine traces_binding (some t) rfl (fun v => traces_pure ?_) fun v => traces_pure ?_
  · have hnone : Within [] [nodeAt target (.varAccess name (some v))] := within_nil
    exact within_exprStatement (within_assignment hnone fun _ hu => hu)
  · refine within_cons.mpr ⟨fun _ hu => hu, within_node ?_⟩
    simp [Shape.children, Shape.slots]

theorem traces_assignNodes {targets : List Expr} {value : Expr} :
    Traces o [] (assignNodes r targets value) (value.events o ++ assignedEvents o r targets) id := by
  refine (traces_exprNode value).bind fun t => ?_
  split
  · rw [assignedEvents]
    exact traces_assignName.make fun _ _ hu => hu
  · next hname =>
    rw [assignedEvents]
    · refine (traces_targetNodes targets).last fun ts => within_exprStatement ?_
      refine within_assignment ?_ (within_of_subset (by simp))
      rcases ts with _ | ⟨t₁, _ | ⟨t₂, ts⟩⟩
      · exact within_nil
      · exact fun _ hu => hu
      · exact within_compound fun _ hu => hu
    · exact hname

theorem traces_annotateNodes {target typeHint : Expr} {value : Option Expr} :
    Traces o [] (annotateNodes r target typeHint value) (annotatedEvents o r target value) id := by
  rw [annotateNodes.eq_def]
  split
  · rw [annotatedEvents]
    refine traces_binding none rfl (fun v => ?_) fun v => traces_pure ?_
    · exact traces_pure within_nil
    · exact fun _ hu => hu
  · rw [annotatedEvents]
    exact (traces_exprNode _).bind fun t => traces_assignName.make fun _ _ hu => hu
  · next hname =>
    rw [annotatedEvents]
    · exact traces_pure within_nil
    · exact hname
  · next hname =>
    rw [annotatedEvents]
    rotate_left
    · exact hname
    refine (traces_exprNode _).bind fun t => (traces_exprNode target).last fun u => ?_
    refine within_exprStatement (within_assignment (fun _ hu => hu) (within_of_subset ?_))
    simp

theorem traces_importNodes : (names : List String) →
    Traces o [] (importNodes r names) (names.map (.bind · r)) id
  | [] => traces_pure within_nil
  | name :: rest => by
    rw [importNodes, List.map_cons]
    refine traces_binding none rfl (fun v => traces_importNodes rest) fun v => ?_
    exact (traces_importNodes rest).last fun ts => within_of_subset (by simp)

theorem traces_exprStatementNodes {e : Expr} :
    Traces o [] (exprStatementNodes r e) (e.events o) id := by
  rw [exprStatementNodes.eq_def]
  split
  · rw [Expr.events]
    exact traces_pure within_nil
  · refine (traces_exprNode e).last fun t => within_exprStatement ?_
    exact within_of_subset (by simp)

theorem traces_throwNodes {error cause : Option Expr} :
    Traces o [] (throwNodes r error cause) (thrownEvents o error cause) id := by
  rw [throwNodes.eq_def, thrownEvents.eq_def]
  split
  · exact traces_pure within_nil
  · refine (traces_exprNode _).last fun t => within_node ?_
    simp [Shape.children, Shape.slots]
  · refine (traces_exprNode _).bind fun t => (traces_exprNode _).last fun u => ?_
    have hpair : Within ([u] ++ ([t] ++ [])) [compoundAt r "from" [t, u]] :=
      within_compound (by simp)
    exact hpair.trans (within_node (by simp [Shape.children, Shape.slots]))

theorem traces_simpleNodes {word : String} (operands : List Expr) :
    Traces o [] (simpleNodes r word operands) (eventsOf o operands) id := by
  rw [← List.append_nil (eventsOf o operands)]
  refine (traces_exprNodes operands).bind fun ts => ?_
  split
  · exact traces_pure within_nil
  · refine traces_pure (within_exprStatement (within_compound ?_))
    simp

/-! ## Resources -/

theorem calm_isLock {patterns : List String} {e : Expr} {t : Tree} : Calm (isLock patterns e t) := by
  unfold isLock
  split
  · exact calm_pure
  · split
    · exact calm_pure
    · intro s made
      exact .refl s

/-- The events of a resource behind those of its expression. -/
def heldEvents (o : Option String) (context : Expr) : Option Expr → List Event
  | none => []
  | some (.name _ id) => [.bind id context.range]
  | some target => targetEvents o target

theorem resourceEvents_cons (context : Expr) (target : Option Expr) (rest : List Resource) :
    resourceEvents o (⟨context, target⟩ :: rest) =
      context.events o ++ (heldEvents o context target ++ resourceEvents o rest) := by
  rcases target with _ | target
  · rfl
  · cases target <;> rfl

theorem traces_heldFor {patterns : List String} {context : Expr} {target : Option Expr} {t : Tree} :
    Traces o [t] (heldFor patterns context t target) (heldEvents o context target)
      fun held => [held.node] := by
  have hassigned : ∀ u, Within ([u] ++ [t]) [nodeAt context.range (.assignment "=" u t)] :=
    fun u => within_assignment (fun _ hu => hu) fun _ hu => hu
  rw [heldFor.eq_def]
  split
  · refine calm_isLock.next fun b => ?_
    cases b <;> exact traces_pure fun _ hu => hu
  · next r id =>
    refine traces_binding_of (some t) rfl (fun v s hs hbound => ?_) fun v => traces_pure ?_
    · refine Runs.bind (x := targetName r id) (traces_targetName s hs) fun u s₁ ⟨h₁, _⟩ => ?_
      exact (traces_pure (hassigned u)).after [u] hs (h₁.rebind hbound)
    · exact within_cons.mpr ⟨fun _ hu => hu, within_node (by simp [Shape.children, Shape.slots])⟩
  · next target hname =>
    rw [heldEvents]
    · exact (traces_targetNode target).last hassigned
    · exact hname

theorem traces_heldResources {patterns : List String} : (resources : List Resource) →
    Traces o [] (heldResources patterns resources) (resourceEvents o resources) (·.map Held.node)
  | [] => traces_pure within_nil
  | ⟨context, target⟩ :: rest => by
    rw [heldResources_cons, resourceEvents_cons, ← bind_assoc, ← List.append_assoc]
    have hheld : Traces o [] (exprNode context >>= (heldFor patterns context · target))
        (context.events o ++ heldEvents o context target) fun held => [held.node] :=
      (traces_exprNode context).bind fun t => traces_heldFor
    exact hheld.bind fun held => (traces_heldResources rest).last
      fun helds => within_of_subset (by simp)

theorem within_asBlock {t : Tree} : Within [t] [asBlock r t] := by
  unfold asBlock
  split
  · exact fun _ hu => hu
  · exact within_node (by simp [Shape.children, Shape.slots])

theorem within_holdAll {held : List Held} {block : Tree} :
    Within (held.map Held.node ++ [block]) [holdAll r held block] := by
  induction held with
  | nil => exact fun _ hu => hu
  | cons h rest ih =>
    have hinner := ih.trans (within_asBlock (r := r))
    cases h with
    | lock target =>
      refine within_cons.mpr ⟨within_node ?_, hinner.trans (within_node ?_)⟩
      · simp [Held.node, Shape.children, Shape.slots]
      · simp [holdAll, Shape.children, Shape.slots]
    | resource node =>
      refine within_cons.mpr ⟨within_node ?_, hinner.trans (within_node ?_)⟩
      · simp [Held.node, Shape.children, Shape.slots]
      · simp [holdAll, Shape.children, Shape.slots]

/-! ## Classes -/

section Classes

theorem calm_get : Calm (get : Build Building) := fun s _ => .refl s

theorem calm_fieldVariables : (fields : List Field) → Calm (fieldVariables fields)
  | [] => calm_pure
  | _ :: rest => calm_newVariable.bind fun _ => (calm_fieldVariables rest).bind fun _ => calm_pure

theorem calm_openClass {bases : List Expr} {body : List Stmt} : Calm (openClass name bases body) := by
  refine (calm_fieldVariables _).bind fun own => calm_get.bind fun known => ?_
  intro s made
  exact follows_of_frames rfl rfl (fun _ ht => ht) (fun _ ht => ht) (Nat.le_refl _) fun hs => hs.2

theorem calm_fieldAt {modifiers : List String} {v : VariableId} {initializer : Option Tree} :
    Calm (fieldAt r modifiers name v initializer) :=
  calm_get.bind fun _ => calm_qualified.bind fun _ => calm_pure

theorem calm_assignedFields {c : OpenClass} : (names : List String) → {emitted : List String} →
    {initializer : Option Tree} → Calm (assignedFields c r emitted initializer names)
  | [], _, _ => calm_pure
  | name :: rest, emitted, initializer => by
    rw [assignedFields]
    split
    · exact calm_fieldAt.bind fun _ => (calm_assignedFields rest).bind fun _ => calm_pure
    · exact calm_assignedFields rest

theorem calm_remainingFields {emitted : List String} : (own : List (Field × VariableId)) →
    Calm (remainingFields emitted own)
  | [] => calm_pure
  | (f, v) :: rest => by
    rw [remainingFields]
    split
    · exact calm_remainingFields rest
    · exact calm_fieldAt.bind fun _ => (calm_remainingFields rest).bind fun _ => calm_pure

theorem traces_classNode {body : List Stmt} {f : Tree → Build β} {h : β → List Tree}
    (hf : ∀ t, Within ts [t] → Traces o us (f t) es h) :
    Traces o us (classNode r name body ts >>= f) es h := by
  rw [classNode, bind_assoc]
  refine calm_qualified.next fun q => ?_
  rw [pure_bind]
  exact hf _ (within_node (by simp [Shape.children, Shape.slots]))

/-- The initializer of a field may be left out; it may change what names mean if it is not. -/
theorem traces_initializer {value : Expr} {isEmitted : Prop} [Decidable isEmitted]
    {f : Option Tree → Build β} {h : β → List Tree} (hf : ∀ t, Traces o us (f t) es h) :
    Traces o us (if isEmitted then pure none >>= f else some <$> exprNode value >>= f)
      (redefined (value.events o) ++ es) h := by
  intro s hs
  split
  · have hrefl : Follows (Stands ([] ++ s.moving)) [] s s := .refl s
    exact (hf none).after [] hs { hrefl with names := fun _ x => resolves_define (.refl _) }
  · refine Runs.bind ((traces_exprNode value).map (h := Option.toList) s hs) fun t s₁ ⟨h₁, _⟩ => ?_
    exact (hf t).after [] hs h₁.redefined

end Classes

/-! ## Functions and handlers -/

theorem traces_functionNode {signature : Signature} {body : List Stmt} {x : Build (List Tree)}
    (hx : Traces o [] x (eventsIn .built o body) id) :
    Traces o [] (functionNode r signature x) (.define signature.name ::
      .routine ⟨r, o, signature, body⟩ :: (captured (signature.parameters.map Parameter.name)
        (eventsIn .built o body)).map .inward) fun t => [t] := by
  refine traces_define fun v => Traces.routine (f := ⟨r, o, signature, body⟩) hx fun names ts => ?_
  let lambda := nodeAt r (.lambda (names.map (·.2)) signature.isAsync ts)
  have hlambda : Within [lambda] [nodeAt r (.varDeclaration v (some lambda))] :=
    within_node (by simp [Shape.children, Shape.slots])
  have hbody : Within ts [lambda] := within_node (by simp [Shape.children, Shape.slots])
  exact ⟨hbody.trans hlambda, _, hlambda _ (stands_of_mem List.mem_cons_self),
    fun e he => List.mem_map_of_mem he⟩

theorem lookup_restored {names : Names} {previous : Option VariableId} {y : String}
    (hne : name ≠ y) : ((previous.toList.map fun v => (name, v)) ++
      names.filter fun e => e.1 ≠ name).lookup y = names.lookup y := by
  have hother : (names.filter fun e => e.1 ≠ name).lookup y = names.lookup y := by
    induction names with
    | nil => rfl
    | cons e rest ih =>
      obtain ⟨n, v⟩ := e
      by_cases hn : n = name
      · subst hn
        simpa [List.lookup_cons, beq_eq_false_iff_ne.mpr hne.symm] using ih
      · simp only [ne_eq, hn, not_false_eq_true, decide_true, List.filter_cons_of_pos,
          List.lookup_cons]
        simp only [ne_eq] at ih
        rw [ih]
  rcases previous with _ | v
  · exact hother
  · simpa [List.lookup_cons, beq_eq_false_iff_ne.mpr hne.symm] using hother

/-- The innermost frame is changed behind a step. -/
theorem follows_modifyFrame (fs : List Event) {made : Tree → Prop} {s s₁ : Building} {change : Frame → Frame}
    (h : Follows made es s s₁) (hbounded : s.Bounded → ∀ frame ∈ s₁.frames,
      ∀ e ∈ (change frame).names, (e.2 : Nat) < s₁.vars.size)
    (hnames : ∀ frame outer, s₁.frames = frame :: outer → ∀ y, Resolves made (s₁.around y) y fs
      (s₁.sight y) (Building.sight { s₁ with frames := change frame :: outer } y)) :
    Runs (modifyFrame change) s₁ (fun _ => True) fun _ s₂ =>
      Follows made (es ++ fs) s s₂ ∧ s₂.moving = s₁.moving ∧ s₂.vars = s₁.vars := by
  refine runs_get_bind ?_
  rcases hframes : s₁.frames with _ | ⟨frame, outer⟩
  · exact runs_throw trivial
  · refine runs_modify_bind (f := pure) ⟨{ h with
      frames_length := ?length
      frames_tail := ?tail
      bounded := ?bounded
      names := ?names }, rfl, rfl⟩
    case length => simpa [hframes] using h.frames_length
    case tail => simpa [hframes] using h.frames_tail
    case bounded =>
      intro hs
      have hall := (h.bounded hs).1
      rw [hframes] at hall
      refine ⟨List.forall_mem_cons.mpr ⟨?_, fun g hg => hall g (List.mem_cons_of_mem _ hg)⟩,
        (h.bounded hs).2⟩
      exact hbounded hs frame (hframes ▸ List.mem_cons_self)
    case names =>
      intro hs y
      exact resolves_append.mpr ⟨_, h.names hs y, h.around (x := y) ▸ hnames frame outer hframes y⟩

/-- The name of a caught error means again what it meant before. -/
theorem follows_restore {made : Tree → Prop} {s s₁ : Building} {previous : Option VariableId}
    (h : Follows made es s s₁)
    (hlt : s.Bounded → ∀ v : Nat, previous = some v → v < s₁.vars.size) :
    Runs (modifyFrame fun frame => { frame with
      names := (previous.toList.map fun v => (name, v)) ++ frame.names.filter fun (n, _) => n ≠ name })
      s₁ (fun _ => True) fun _ s₂ =>
        Follows made (es ++ [.define name]) s s₂ ∧ s₂.moving = s₁.moving ∧ s₂.vars = s₁.vars := by
  refine follows_modifyFrame [.define name] h ?_ ?_
  · intro hbounded frame hframe e he
    rcases List.mem_append.mp he with he | he
    · obtain ⟨v, hv, rfl⟩ := List.mem_map.mp he
      exact hlt hbounded v (Option.mem_toList.mp hv)
    · exact (h.bounded hbounded).1 frame hframe e (List.mem_filter.mp he).1
  · intro frame outer hframes y
    refine ⟨_, ⟨fun hne => ⟨?own, ?declared, ?size⟩, ?size⟩, Sight.Keeps.refl _⟩
    case own =>
      simp only [Building.sight, hframes, List.head?_cons, Option.bind_some]
      exact lookup_restored hne
    case declared => simp [Building.sight, hframes]
    case size => exact Nat.le_refl _

theorem Building.Bounded.lt_of_head {s : Building} (h : s.Bounded) {v : Nat}
    (hv : (s.frames.head?.bind fun frame => frame.names.lookup name) = some v) : v < s.vars.size := by
  obtain ⟨frame, hframe, hlookup⟩ := Option.bind_eq_some_iff.mp hv
  exact h.1 frame (List.mem_of_head? hframe) (name, v) (mem_of_lookup hlookup)

/-- A handler: the name of the error is defined before and behind. -/
theorem Traces.withCaught {x : Build Tree} (hx : Traces o [] x es fun t => [t])
    (caught : Option String) (types : List String) : Traces o [] (withCaught caught types x)
      (caught.toList.map .define ++ (es ++ caught.toList.map .define)) fun p => [p.2] := by
  rcases caught with _ | name
  · rw [Option.toList_none, List.map_nil, List.append_nil, List.nil_append]
    exact hx.last fun t => within_of_subset (by simp)
  · intro s hs
    refine runs_get_bind (runs_bound fun _ => Runs.bind (hx (s.bound name _) hs)
      fun t s₁ ⟨h₁, _⟩ => ?_)
    have h₂ := follows_define.trans h₁
    refine Runs.bind (follows_restore h₂ fun hbounded v hv =>
      Nat.lt_of_lt_of_le (hbounded.lt_of_head hv) h₂.size) fun _ s₂ ⟨h₃, hmoving, _⟩ => runs_pure ⟨?_, ?_⟩
    · rw [hmoving]
      simpa using h₃
    · exact within_nil

theorem traces_declared {names : List String} {change : Frame → Frame}
    (hnames : ∀ frame, (change frame).names = frame.names)
    (hdeclared : ∀ frame y, y ∉ names →
      ((change frame).isModule || (change frame).globals.contains y ||
        (change frame).nonlocals.contains y) =
          (frame.isModule || frame.globals.contains y || frame.nonlocals.contains y)) :
    Traces o [] (do modifyFrame change; return []) (names.map .declare) id := by
  intro s hs
  have hrefl : Follows (Stands s.moving) [] s s := .refl s
  refine Runs.bind (follows_modifyFrame (names.map .declare) hrefl ?_ ?_) fun _ s₁ ⟨h₁, hmoving, _⟩ => ?_
  · intro hbounded frame hframe
    rw [hnames]
    exact hbounded.1 frame hframe
  · intro frame outer hframes y
    refine resolves_declare ?_ (Nat.le_refl _) fun hy => ?_
    · simp [Building.sight, hframes, hnames]
    · simpa [Building.sight, hframes] using hdeclared frame y hy
  · exact runs_pure ⟨hmoving ▸ h₁, within_nil⟩

/-! ## Statements -/

theorem Traces.block {x : Build (List Tree)} (hx : Traces o [] x es id) (owner : Range)
    (body : List Stmt) : Traces o [] x es fun ts => [blockAt owner body ts] :=
  hx.mono fun ts => within_node (by simp [Shape.children, Shape.slots])

theorem Traces.block? {body : List Stmt}
    (hx : Traces o [] (stmtsNodes locks body) (eventsIn .built o body) id) (owner : Range) :
    Traces o [] (stmtsNodes locks body) (eventsIn .built o body) fun ts =>
      (blockAt? owner body ts).toList := by
  cases body with
  | nil =>
    rw [stmtsNodes, eventsIn]
    exact traces_pure within_nil
  | cons stmt rest => exact hx.block owner (stmt :: rest)

theorem within_node_cons {shape : Shape Tree} (h : ts ⊆ shape.children) :
    Within (us ++ ts) (nodeAt r shape :: us) :=
  within_append.mpr ⟨within_of_subset (List.subset_cons_self _ _),
    (within_node h).trans (within_of_subset (List.cons_subset_cons _ (List.nil_subset us)))⟩

mutual

theorem traces_stmtNodes (o : Option String) : (stmt : Stmt) →
    Traces o [] (stmtNodes locks stmt) (stmt.events .built o) id
  | .function r signature body => by
    rw [stmtNodes, Stmt.events]
    exact .withPending ((traces_functionNode (traces_stmtsNodes o body)).last fun t _ hu => hu)
  | .classType r name bases body => by
    rw [stmtNodes, Stmt.events]
    refine .withPending (calm_openClass.next fun c => ?_)
    refine (traces_memberNodes o body c []).withQualifier.bind fun ts => ?_
    rw [List.append_nil]
    refine traces_classNode fun t ht => Traces.handing ht ?_
    refine traces_addHoisted (traces_define fun v => traces_pure within_nil)
  | .returnValue r none => by
    rw [stmtNodes, Stmt.events]
    exact traces_pure within_nil
  | .returnValue r (some value) => by
    rw [stmtNodes, Stmt.events]
    refine .withPending ((traces_exprNode value).last fun t => within_node ?_)
    simp [Shape.children, Shape.slots]
  | .assign r targets value => by
    rw [stmtNodes, Stmt.events]
    exact traces_assignNodes.withPending
  | .augment r target op value => by
    rw [stmtNodes, Stmt.events]
    refine .withPending ((traces_exprNode target).bind fun t => (traces_exprNode value).last
      fun u => within_exprStatement (within_node ?_))
    simp [Shape.children, Shape.slots]
  | .annotate r target typeHint value => by
    rw [stmtNodes, Stmt.events]
    exact traces_annotateNodes.withPending
  | .forEach r isAsync target source body orElse => by
    rw [stmtNodes, Stmt.events]
    refine .withPending ((traces_exprNode source).bind fun t => ?_)
    refine (traces_targetNode target).collectPending.bind fun p => ?_
    refine ((traces_stmtsNodes o body).block r body).bind fun ts => ?_
    refine (traces_stmtsNodes o orElse).last fun us => within_node_cons ?_
    simp [Shape.children, Shape.slots]
  | .whileLoop r condition body orElse => by
    rw [stmtNodes, Stmt.events, Order.join, List.append_assoc]
    refine .withPending (((traces_stmtsNodes o body).block r body).bind fun ts => ?_)
    refine (traces_exprNode condition).bind fun t => ?_
    refine (traces_stmtsNodes o orElse).last fun us => within_node_cons ?_
    simp [Shape.children, Shape.slots]
  | .choose r condition body orElse => by
    rw [stmtNodes, Stmt.events]
    refine .withPending ((traces_exprNode condition).bind fun t => ?_)
    refine ((traces_stmtsNodes o body).block r body).bind fun ts => ?_
    refine ((traces_stmtsNodes o orElse).block? r).last fun us => within_node ?_
    simp [Shape.children, Shape.slots]
  | .withResources r resources body => by
    rw [stmtNodes, Stmt.events]
    refine .withPending ((traces_heldResources resources).bind fun held => ?_)
    refine ((traces_stmtsNodes o body).block r body).last fun ts => ?_
    exact (within_of_subset (by simp)).trans within_holdAll
  | .matchCases r subject cases => by
    rw [stmtNodes, Stmt.events]
    have hsubject : Traces o [] (simpleNodes r "match" [subject]) (subject.events o) id := by
      simpa [eventsOf] using traces_simpleNodes (o := o) (r := r) [subject]
    refine .withPending (hsubject.bind fun ts => (traces_caseNodes o r cases).last
      fun us => within_of_subset ?_)
    simp
  | .throwError r error cause => by
    rw [stmtNodes, Stmt.events]
    exact traces_throwNodes.withPending
  | .guarded r body handlers orElse finalBody => by
    rw [stmtNodes, Stmt.events, Order.join]
    refine .withPending (((traces_stmtsNodes o body).block r body).bind fun ts => ?_)
    refine (traces_handlerNodes o handlers).bind fun catches => ?_
    refine ((traces_stmtsNodes o finalBody).block? r).bind fun us => ?_
    refine (traces_stmtsNodes o orElse).last fun rest => within_node_cons ?_
    simp [Shape.children, Shape.slots]
  | .imports r names => by
    rw [stmtNodes, Stmt.events]
    exact (traces_importNodes names).withPending
  | .globals r names => by
    rw [stmtNodes, Stmt.events]
    refine traces_declared (fun frame => rfl) fun frame y hy => ?_
    simp [hy]
  | .nonlocals r names => by
    rw [stmtNodes, Stmt.events]
    refine traces_declared (fun frame => rfl) fun frame y hy => ?_
    simp [hy]
  | .expr r value => by
    rw [stmtNodes, Stmt.events]
    exact traces_exprStatementNodes.withPending
  | .simple r word operands => by
    rw [stmtNodes, Stmt.events]
    exact (traces_simpleNodes _).withPending

theorem traces_stmtsNodes (o : Option String) : (body : List Stmt) →
    Traces o [] (stmtsNodes locks body) (eventsIn .built o body) id
  | [] => traces_pure within_nil
  | stmt :: rest => by
    rw [stmtsNodes, eventsIn]
    refine (traces_stmtNodes o stmt).bind fun ts => (traces_stmtsNodes o rest).last
      fun us => within_of_subset ?_
    simp

theorem traces_caseNodes (o : Option String) : (r : Range) → (cases : List (List Stmt)) →
    Traces o [] (caseNodes locks r cases) (caseEvents .built o cases) id
  | _, [] => traces_pure within_nil
  | r, body :: rest => by
    rw [caseNodes, caseEvents]
    refine ((traces_stmtsNodes o body).block r body).bind fun ts => ?_
    refine (traces_caseNodes o r rest).last fun us => within_of_subset ?_
    simp

theorem traces_handlerNodes (o : Option String) : (handlers : List Handler) →
    Traces o [] (handlerNodes locks handlers) (handlerEvents .built o handlers) id
  | [] => traces_pure within_nil
  | .mk r type name body :: rest => by
    rw [handlerNodes, handlerEvents]
    split
    · exact traces_throw
    · next types hwritten =>
      have hbody := ((traces_stmtsNodes o body).block r body).make (h := fun t => [t])
        fun ts _ hu => hu
      rw [← List.append_assoc (eventsIn .built o body), ← List.append_assoc]
      refine (hbody.withCaught name types).bind fun p => (traces_handlerNodes o rest).last
        fun ts => within_node_cons ?_
      simp [Shape.children, Shape.slots]

theorem traces_memberNodes (o : Option String) : (body : List Stmt) → (c : OpenClass) →
    (emitted : List String) → Traces o [] (memberNodes locks c emitted body) (memberEvents .built o body) id
  | [], c, _ => by
    rw [memberNodes, memberEvents]
    exact (calm_remainingFields c.own).alone
  | stmt :: rest, c, emitted => by
    have hrest : ∀ r (initializer : Option Tree) (names : List String), Traces o [] (do
        let (nodes, emitted) ← assignedFields c r emitted initializer names
        return nodes ++ (← memberNodes locks c emitted rest)) (memberEvents .built o rest) id := by
      intro r initializer names
      refine (calm_assignedFields names).next fun p => (traces_memberNodes o rest c p.2).last
        fun us => within_of_subset ?_
      simp
    cases stmt with
    | function r signature body =>
      rw [memberNodes, memberEvents]
      refine Traces.bind (traces_methodNode (f := ⟨r, signature.object?, signature, body⟩)
        (traces_stmtsNodes signature.object? body) rfl) fun t => ?_
      refine (traces_memberNodes o rest c emitted).last fun us => within_of_subset ?_
      simp
    | classType r name bases body =>
      rw [memberNodes, memberEvents]
      refine calm_openClass.next fun inner => ?_
      refine (traces_memberNodes o body inner []).withQualifier.bind fun ts => ?_
      rw [List.append_nil]
      refine traces_classNode fun t ht => Traces.handing ht ?_
      refine (traces_memberNodes o rest c emitted).last fun us => within_of_subset ?_
      simp
    | assign r targets value =>
      by_cases hname : ∃ r' id, targets = [.name r' id]
      · obtain ⟨r', id, rfl⟩ := hname
        rw [memberNodes, memberEvents]
        exact traces_initializer fun t => hrest r t _
      · have hother : ∀ r' id, targets = [.name r' id] → False := fun r' id h => hname ⟨r', id, h⟩
        rw [memberNodes, memberEvents]
        · exact hrest r none _
        all_goals grind
    | annotate r target typeHint value =>
      by_cases hname : ∃ r' id e, target = .name r' id ∧ value = some e
      · obtain ⟨r', id, e, rfl, rfl⟩ := hname
        rw [memberNodes, memberEvents]
        exact traces_initializer fun t => hrest r t _
      · rw [memberNodes, memberEvents]
        · exact hrest r none _
        all_goals grind
    | _ =>
      simp only [memberNodes, memberEvents]
      exact traces_memberNodes o rest c emitted

end

end ModelLint.Source
