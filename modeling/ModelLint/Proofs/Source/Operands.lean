import ModelLint.Proofs.Source.Sites

/-!
# Expressions inside expressions and statements

The node of an expression is made of those of its operands. The function of a call by its name has no
node of its own, and neither has the object of the method where a member of it is meant. A statement
has operands too: its expressions and those in its targets. Annotations, decorators, defaults, bases
and the types of handlers have no nodes.

* `Expr.operands`, `targetOperands`, `Stmt.operands`: the expressions that are built.
* **`visits_operands`**, **`visits_stmtOperands`**: the nodes of expressions and statements hold those
  of their operands.
-/

namespace ModelLint.Source

open Build

variable {α β : Type} {o : Option String} {r : Range} {name : String} {ts us : List Tree}
  {locks : List String}

/-! ## Operands -/

/-- The value of an argument by name. -/
def Keyword.value : Keyword → Expr
  | .mk _ value => value

/-- The key of an entry of a dictionary. -/
def Entry.key? : Entry → Option Expr
  | .pair key _ => some key
  | .unpack _ => none

/-- The value of an entry of a dictionary, or the mapping whose entries it has. -/
def Entry.value : Entry → Expr
  | .pair _ value | .unpack value => value

/-- The source of values of a loop in a comprehension. -/
def Clause.source : Clause → Expr
  | .mk _ _ source _ => source

/-- The target and the conditions of a loop in a comprehension. -/
def Clause.inner : Clause → List Expr
  | .mk _ target _ conditions => target :: conditions

/-- **The operands of an expression**, in a method with an object. -/
def Expr.operands (o : Option String) : Expr → List Expr
  | .name _ _ | .constant _ _ _ => []
  | .attribute _ value _ => if value.isObject o then [] else [value]
  | .subscript _ value index => [value, index]
  | .call _ (.attribute fr value attr) args keywords =>
    (if (Expr.created? o fr value attr).isSome || value.isObject o then [] else [value]) ++
      (args ++ keywords.map Keyword.value)
  | .call _ (.name _ _) args keywords => args ++ keywords.map Keyword.value
  | .call _ function args keywords => function :: (args ++ keywords.map Keyword.value)
  | .compound _ _ operands => operands
  | .dict _ entries => entries.filterMap Entry.key? ++ entries.map Entry.value
  | .walrus _ _ _ value => [value]
  | .lambda _ _ body => [body]
  | .comprehension _ _ elements first rest =>
    first.source :: (first.inner ++ (rest.flatMap (fun c => c.source :: c.inner) ++ elements))

mutual

/-- The operands of a target of an assignment. -/
def targetOperands : Expr → List Expr
  | .name _ _ => []
  | .compound _ .tuple es => targetsOperands es
  | .compound _ .list es => targetsOperands es
  | .compound _ .starred [e] => targetOperands e
  | e => [e]

/-- The operands of several targets. -/
def targetsOperands : List Expr → List Expr
  | [] => []
  | e :: es => targetOperands e ++ targetsOperands es

end

/-- The operands of a resource. -/
def Resource.operands (r : Resource) : List Expr :=
  r.context :: r.target.toList.flatMap targetOperands

/-- **The operands of a statement.** -/
def Stmt.operands : Stmt → List Expr
  | .returnValue _ value => value.toList
  | .assign _ targets value => value :: targetsOperands targets
  | .augment _ target _ value => [target, value]
  | .annotate _ (.name _ _) _ value => value.toList
  | .annotate _ target _ value => value.toList.flatMap fun value => [value, target]
  | .forEach _ _ target source _ _ => source :: targetOperands target
  | .whileLoop _ condition _ _ | .choose _ condition _ _ => [condition]
  | .withResources _ resources _ => resources.flatMap Resource.operands
  | .matchCases _ subject _ => [subject]
  | .throwError _ error cause => error.toList.flatMap fun error => error :: cause.toList
  | .expr _ (.constant _ (.data (.str _)) _) => []
  | .expr _ value => [value]
  | .simple _ _ operands => operands
  | _ => []

/-! ## Expressions -/

theorem carries_exprNode (e : Expr) : Carries (exprNode e) :=
  carries_of_built fun _ hs => exprNode_runs_of_inside (hs.inside _)

theorem carries_bindAll (names : List String) : Carries (bindAll names) :=
  carries_of_built fun _ hs => (bindAll_runs names hs.valid hs.frames).mono fun _ _ h => h.1

theorem carries_targetName : Carries (targetName r name) :=
  carries_of_built fun _ hs => targetName_runs hs.valid trivial fun hnil => (hs.frames hnil).elim

theorem run_exprNodes_singleton {e : Expr} {s s' : Building} {t : Tree} :
    (exprNodes [e]).run s = .ok ([t], s') ↔ (exprNode e).run s = .ok (t, s') := by
  simp only [exprNodes, pure_bind, StateT.run_bind]
  rcases (exprNode e).run s with _ | ⟨u, s₁⟩
  · exact ⟨nofun, nofun⟩
  · change Except.ok ([u], s₁) = .ok ([t], s') ↔ Except.ok (u, s₁) = .ok (t, s')
    simp

theorem visits_exprNode (e : Expr) : Visits o [] (exprNode e) [e] fun t => [t] := by
  refine fun s hs _ => ((carries_exprNode e s hs).and runs_self).mono fun t s' h =>
    ⟨h.1, within_nil, List.forall_mem_singleton.mpr ?_⟩
  exact ⟨s, [t], s', hs, rfl, run_exprNodes_singleton.mpr h.2, fun _ hu => hu, fun _ hu => hu, .refl _⟩

theorem visits_exprNodes (es : List Expr) : Visits o [] (exprNodes es) es id := by
  induction es with
  | nil => exact visits_pure within_nil
  | cons e es ih =>
    rw [exprNodes]
    exact (visits_exprNode e).bind fun t => ih.last fun ts => within_of_subset (by simp)

theorem visits_keywordNodes (ks : List Keyword) :
    Visits o [] (keywordNodes ks) (ks.map Keyword.value) id := by
  induction ks with
  | nil => exact visits_pure within_nil
  | cons k rest ih =>
    cases k with
    | mk _ value =>
      rw [keywordNodes]
      exact (visits_exprNode value).bind fun t => ih.last fun ts => within_of_subset (by simp)

theorem visits_keyNodes (entries : List Entry) :
    Visits o [] (keyNodes entries) (entries.filterMap Entry.key?) id := by
  induction entries with
  | nil => exact visits_pure within_nil
  | cons entry rest ih =>
    cases entry with
    | pair key _ =>
      rw [keyNodes]
      exact (visits_exprNode key).bind fun t => ih.last fun ts => within_of_subset (by simp)
    | unpack _ =>
      rw [keyNodes]
      exact ih

theorem visits_valueNodes (entries : List Entry) :
    Visits o [] (valueNodes entries) (entries.map Entry.value) id := by
  induction entries with
  | nil => exact visits_pure within_nil
  | cons entry rest ih =>
    cases entry with
    | pair _ value | unpack value =>
      rw [valueNodes]
      exact (visits_exprNode value).bind fun t => ih.last fun ts => within_of_subset (by simp)

theorem visits_sourceNode (c : Clause) : Visits o [] (sourceNode c) [c.source] fun t => [t] := by
  cases c with
  | mk _ _ source _ =>
    rw [sourceNode]
    exact visits_exprNode source

theorem visits_clauseNodes (c : Clause) : Visits o [] (clauseNodes c) c.inner (·.2) := by
  cases c with
  | mk _ target _ conditions =>
    rw [clauseNodes]
    refine (carries_bindAll target.boundNames).next fun vs => ?_
    exact (visits_exprNode target).bind fun t => (visits_exprNodes conditions).last
      fun ts => within_of_subset (by simp)

theorem visits_innerClauseNodes (cs : List Clause) :
    Visits o [] (innerClauseNodes cs) (cs.flatMap fun c => c.source :: c.inner) (·.2) := by
  induction cs with
  | nil => exact visits_pure within_nil
  | cons c rest ih =>
    rw [innerClauseNodes]
    exact (visits_sourceNode c).bind fun t => (visits_clauseNodes c).bind
      fun p => ih.last fun q => within_of_subset (by simp)

theorem visits_arguments {args : List Expr} {keywords : List Keyword}
    {shape : List Tree → Shape Tree} (before : List Tree)
    (hchildren : ∀ us, (shape us).children = before ++ us) :
    Visits o before (do
      let args ← exprNodes args
      return nodeAt r (shape (args ++ (← keywordNodes keywords))))
      (args ++ keywords.map Keyword.value) fun t => [t] := by
  refine (visits_exprNodes args).bind fun ts => (visits_keywordNodes keywords).last
    fun us => within_node fun t ht => ?_
  simp only [hchildren, List.mem_append, id] at ht ⊢
  tauto

/-- **The node of an expression holds those of its operands.** -/
theorem visits_operands (e : Expr) : Visits o [] (exprNode e) (e.operands o) fun t => [t] := by
  cases e with
  | name r id => exact (carries_exprNode _).visits (returns_any.mono fun _ _ => within_nil)
  | constant r value hasLetter =>
    exact (carries_exprNode _).visits (returns_any.mono fun _ _ => within_nil)
  | «attribute» r value attr =>
    rw [exprNode, Expr.operands]
    refine visits_known (fun s ho => runs_isObject ho) ?_
    split
    · exact Carries.visits (fun s hs => hs.reaches) (returns_any.mono fun _ _ => within_nil)
    · exact (visits_exprNode value).last fun t => within_node (by simp [Shape.children, Shape.slots])
  | subscript r value index =>
    rw [exprNode]
    exact (visits_exprNode value).bind fun t => (visits_exprNode index).last
      fun u => within_node (by simp [Shape.children, Shape.slots])
  | call r function args keywords =>
    cases function with
    | «attribute» fr value attr =>
      rw [exprNode, Expr.operands]
      refine visits_known (fun s ho => runs_created ho) ?_
      rcases hcreated : Expr.created? o fr value attr with _ | typeName
      · refine visits_known (fun s ho => runs_isObject ho) ?_
        by_cases hobject : value.isObject o
        · simp only [hobject, if_true, Bool.or_true, List.nil_append]
          exact visits_arguments [] fun us => by simp [Shape.children, Shape.slots]
        · have hqualifier : Visits o [] (some <$> exprNode value) [value] Option.toList := by
            rw [← bind_pure_comp]
            exact (visits_exprNode value).last fun t => within_of_subset (by simp)
          simp only [hobject, Option.isSome_none, Bool.or_false, Bool.false_eq_true, if_false]
          refine hqualifier.bind fun q => ?_
          rw [List.append_nil]
          exact visits_arguments q.toList fun us => by simp [Shape.children, Shape.slots]
      · simp only [Option.isSome_some, Bool.true_or, if_true, List.nil_append]
        exact visits_arguments [] fun us => by simp [Shape.children, Shape.slots]
    | name fr id =>
      rw [exprNode, Expr.operands]
      refine Carries.next (fun s hs => hs.reaches) fun created => ?_
      rcases created with _ | typeName
      · exact visits_arguments [] fun us => by simp [Shape.children, Shape.slots]
      · exact visits_arguments [] fun us => by simp [Shape.children, Shape.slots]
    | _ =>
      rw [exprNode, Expr.operands]
      · refine (visits_exprNode _).bind fun t => ?_
        exact visits_arguments [t] fun us => by simp [Shape.children, Shape.slots]
      all_goals simp
  | compound r form operands =>
    rw [exprNode]
    exact (visits_exprNodes operands).last fun ts => within_compound (by simp)
  | dict r entries =>
    rw [exprNode]
    exact (visits_keyNodes entries).bind fun ts => (visits_valueNodes entries).last
      fun us => within_compound (by simp)
  | walrus r target id value =>
    rw [exprNode]
    refine (visits_exprNode value).followed (fun t => carries_targetName.bind fun u => carries_pure)
      fun t => .next fun u => .pure (within_node ?_)
    simp [Shape.children, Shape.slots]
  | lambda r parameters body =>
    rw [exprNode, Expr.operands]
    refine fun s hs ho => (parameterNames_runs parameters hs.valid).bind ?_
    rintro names s₁ ⟨hbuilt, hnames, -⟩
    have hs₁ := hs.built hbuilt
    have hbody := (visits_exprNode (o := o) body).inFrame hs₁ ((hbuilt.grows.object?).trans ho)
      (hnames.mono fun _ _ => trivial)
    refine hbody.bind fun t s₂ h₂ => runs_pure ?_
    have hreturn : Within [t] [nodeAt body.range (.returnStatement (some t))] :=
      within_node (by simp [Shape.children, Shape.slots])
    have hlambda : ∀ {u}, Within [u] [nodeAt r (.lambda (names.map (·.2)) false [u])] :=
      within_node (by simp [Shape.children, Shape.slots])
    refine ⟨Building.Reaches.trans ⟨hs₁, hbuilt.grows, hbuilt.frames_tail⟩ h₂.reaches,
      within_nil, fun e he => ?_⟩
    exact hbuilt.grows.receivers ▸ (h₂.built e he).keep
      ⟨hreturn.trans hlambda, fun _ hu => hu, .refl _⟩
  | comprehension r kind elements first rest =>
    rw [exprNode, Expr.operands]
    have hinner : Visits o [] (do
        let p ← clauseNodes first
        let q ← innerClauseNodes rest
        return (p.1 ++ q.1, p.2 ++ q.2 ++ (← exprNodes elements)))
        (first.inner ++ (rest.flatMap (fun c => c.source :: c.inner) ++ elements)) (·.2) := by
      refine (visits_clauseNodes first).bind fun p => (visits_innerClauseNodes rest).bind
        fun q => (visits_exprNodes elements).last fun ts => within_of_subset ?_
      simp
    refine (visits_sourceNode first).bind fun t => hinner.withFrame.last fun p => ?_
    have hyield : Within p.2 [compoundAt r "yield" p.2] := within_compound fun _ ht => ht
    have hstatement : ∀ {t}, Within [t] [nodeAt r (.exprStatement t)] :=
      within_node (by simp [Shape.children, Shape.slots])
    have hlambda : ∀ {t}, Within [t] [nodeAt r (.lambda p.1 false [t])] :=
      within_node (by simp [Shape.children, Shape.slots])
    refine within_append.mpr ⟨?_, within_compound (by simp)⟩
    exact (hyield.trans (hstatement.trans hlambda)).trans (within_compound (by simp))

theorem visits_singleton (e : Expr) : Visits o [] (exprNodes [e]) (e.operands o) id := by
  simp only [exprNodes, pure_bind]
  exact (visits_operands e).last fun t => within_of_subset (by simp)

/-! ## Targets -/

theorem visits_targetNode (e : Expr) :
    Visits o [] (targetNode e) (targetOperands e) fun t => [t] := by
  refine targetNode.induct (fun e => Visits o [] (targetNode e) (targetOperands e) fun t => [t])
    (fun es => Visits o [] (targetNodes es) (targetsOperands es) id)
    ?name ?tuple ?list ?starred ?other ?nil ?cons e
  case name =>
    intro r id
    rw [targetNode, targetOperands]
    exact carries_targetName.visits (returns_any.mono fun _ _ => within_nil)
  case tuple | list =>
    intro r es ih
    rw [targetNode, targetOperands]
    exact ih.last fun ts => within_compound (by simp)
  case starred =>
    intro r e ih
    rw [targetNode, targetOperands]
    exact ih
  case other =>
    intro e hname htuple hlist hstarred
    rw [targetNode, targetOperands]
    · exact visits_exprNode e
    all_goals assumption
  case nil => exact visits_pure within_nil
  case cons =>
    intro e es ih ihs
    rw [targetNodes, targetsOperands]
    exact ih.bind fun t => ihs.last fun ts => within_of_subset (by simp)

theorem visits_targetNodes (es : List Expr) :
    Visits o [] (targetNodes es) (targetsOperands es) id := by
  induction es with
  | nil => exact visits_pure within_nil
  | cons e es ih =>
    rw [targetNodes, targetsOperands]
    exact (visits_targetNode e).bind fun t => ih.last fun ts => within_of_subset (by simp)

/-! ## Resources -/

theorem carries_binding? : Carries (binding? name) :=
  carries_of_built fun _ hs => (runs_binding? hs.valid).mono fun _ _ h => h.1

theorem visits_heldFor {context : Expr} {target : Option Expr} {t : Tree} :
    Visits o [t] (heldFor locks context t target) (target.toList.flatMap targetOperands)
      fun held => [held.node] := by
  have hassigned : ∀ u, Within ([u] ++ [t]) [nodeAt context.range (.assignment "=" u t)] :=
    fun u => within_assignment (fun _ hu => hu) fun _ hu => hu
  rw [heldFor.eq_def]
  split
  · refine Carries.next (fun s hs => runs_isLock.mono fun _ _ hs' => hs' ▸ hs.reaches) fun b => ?_
    split <;> exact visits_pure fun _ hu => hu
  · refine carries_binding?.next fun v => ?_
    split
    · refine (carries_define fun v => carries_pure).visits (.next fun v => .next fun _ => .pure ?_)
      exact within_node (by simp [Shape.children, Shape.slots])
    · refine (carries_targetName.bind fun u => carries_pure).visits (.next fun u => .pure ?_)
      exact (within_append.mp (hassigned u)).2
  · next target _ =>
    have hoperands : (some target).toList.flatMap targetOperands = targetOperands target := by simp
    rw [hoperands]
    exact (visits_targetNode target).last hassigned

theorem visits_heldResources (resources : List Resource) :
    Visits o [] (heldResources locks resources) (resources.flatMap Resource.operands)
      (·.map Held.node) := by
  induction resources with
  | nil => exact visits_pure within_nil
  | cons resource rest ih =>
    obtain ⟨context, target⟩ := resource
    rw [heldResources_cons, ← bind_assoc]
    have hheld : Visits o [] (exprNode context >>= (heldFor locks context · target))
        (Resource.operands ⟨context, target⟩) fun held => [held.node] :=
      (visits_exprNode context).bind fun t => visits_heldFor
    exact hheld.bind fun held => ih.last fun helds => within_of_subset (by simp)

/-! ## Statements -/

theorem carries_stmtNodes (stmt : Stmt) : Carries (stmtNodes locks stmt) :=
  carries_of_built fun _ hs => stmtNodes_runs stmt (hs.inside _) fun _ => trivial

theorem carries_stmtsNodes (body : List Stmt) : Carries (stmtsNodes locks body) :=
  carries_of_built fun _ hs => stmtsNodes_runs body (hs.inside _) fun _ => trivial

theorem carries_caseNodes (r : Range) (cases : List (List Stmt)) : Carries (caseNodes locks r cases) :=
  carries_of_built fun _ hs => caseNodes_runs r cases (hs.inside _) fun _ => trivial

theorem visits_assignName {target : Range} {type : Option String} {t : Tree} :
    Visits o [t] (assignName r target name t type) [] fun u => [u] := by
  refine carries_binding?.next fun v => ?_
  split
  · refine visits_pure (within_exprStatement ?_)
    exact within_node (by simp [Shape.children, Shape.slots])
  · refine (carries_define fun v => carries_pure).visits (.next fun v => .next fun _ => .pure ?_)
    exact within_node (by simp [Shape.children, Shape.slots])

theorem visits_assignNodes {targets : List Expr} {value : Expr} :
    Visits o [] (assignNodes r targets value) (value :: targetsOperands targets) id := by
  refine (visits_exprNode value).bind fun t => ?_
  split
  · exact visits_assignName.make fun u => fun _ hu => hu
  · refine (visits_targetNodes targets).last fun ts => within_exprStatement ?_
    refine within_assignment ?_ (within_of_subset (by simp))
    rcases ts with _ | ⟨t₁, _ | ⟨t₂, ts⟩⟩
    · exact within_nil
    · exact fun _ hu => hu
    · exact within_compound fun _ hu => hu

theorem visits_simpleNodes {word : String} (operands : List Expr) :
    Visits o [] (simpleNodes r word operands) operands id := by
  refine (visits_exprNodes operands).followed (fun ts => ?_) fun ts => ?_
  · split <;> exact carries_pure
  · split
    · exact .pure within_nil
    · exact .pure (within_exprStatement (within_compound (by simp)))

theorem visits_annotateNodes {target typeHint : Expr} {value : Option Expr} :
    Visits o [] (annotateNodes r target typeHint value)
      (Stmt.operands (.annotate r target typeHint value)) id := by
  rw [annotateNodes.eq_def]
  split
  · refine carries_binding?.next fun v => ?_
    split
    · exact visits_pure within_nil
    · exact (carries_define fun v => carries_pure).visits
        (returns_any.mono fun _ _ => within_nil)
  · exact (visits_exprNode _).bind fun t => visits_assignName.make fun u => fun _ hu => hu
  · next hname =>
    rw [Stmt.operands]
    · exact visits_pure within_nil
    · exact hname
  · next hname =>
    rw [Stmt.operands]
    · refine (visits_exprNode _).bind fun t => (visits_exprNode target).last fun u => ?_
      exact within_exprStatement (within_assignment (fun _ hu => hu) (within_of_subset (by simp)))
    · exact hname

theorem visits_throwNodes {error cause : Option Expr} :
    Visits o [] (throwNodes r error cause) (Stmt.operands (.throwError r error cause)) id := by
  rw [throwNodes.eq_def]
  split
  · exact visits_pure within_nil
  · exact (visits_exprNode _).last fun t => within_node (by simp [Shape.children, Shape.slots])
  · refine (visits_exprNode _).bind fun t => (visits_exprNode _).last fun u => ?_
    have hpair : Within ([u] ++ ([t] ++ [])) [compoundAt r "from" [t, u]] :=
      within_compound (by simp)
    exact hpair.trans (within_node (by simp [Shape.children, Shape.slots]))

theorem visits_exprStatementNodes {e : Expr} :
    Visits o [] (exprStatementNodes r e) (Stmt.operands (.expr r e)) id := by
  rw [exprStatementNodes.eq_def]
  split
  · exact visits_pure within_nil
  · next hother =>
    rw [Stmt.operands]
    · exact (visits_exprNode e).last fun t => within_exprStatement (within_of_subset (by simp))
    · exact hother

/-- **The nodes of a statement hold those of its operands.** -/
theorem visits_stmtOperands (stmt : Stmt) :
    Visits o [] (stmtNodes locks stmt) stmt.operands id := by
  have hnone : Visits o [] (stmtNodes locks stmt) [] id :=
    (carries_stmtNodes stmt).visits (returns_any.mono fun _ _ => within_nil)
  cases stmt with
  | function | classType | guarded | imports | globals | nonlocals => exact hnone
  | returnValue r value =>
    rcases value with _ | value
    · exact hnone
    · rw [stmtNodes]
      exact .withPending ((visits_exprNode value).last fun t =>
        within_node (by simp [Shape.children, Shape.slots]))
  | assign r targets value =>
    rw [stmtNodes]
    exact visits_assignNodes.withPending
  | augment r target op value =>
    rw [stmtNodes]
    refine .withPending ((visits_exprNode target).bind fun t => (visits_exprNode value).last fun u => ?_)
    exact within_exprStatement (within_node (by simp [Shape.children, Shape.slots]))
  | annotate r target typeHint value =>
    rw [stmtNodes]
    exact visits_annotateNodes.withPending
  | forEach r isAsync target source body orElse =>
    rw [stmtNodes]
    refine .withPending ((visits_exprNode source).bind fun t =>
      (visits_targetNode target).collectPending.followed (fun p => ?_) fun p => ?_)
    · exact (carries_stmtsNodes body).bind fun ts => (carries_stmtsNodes orElse).bind
        fun us => carries_pure
    · exact .next fun ts => .next fun us => .pure (within_first (by simp [Shape.children, Shape.slots]))
  | whileLoop r condition body orElse =>
    rw [stmtNodes]
    refine .withPending ((carries_stmtsNodes body).next fun ts =>
      (visits_exprNode condition).followed (fun t => ?_) fun t => ?_)
    · exact (carries_stmtsNodes orElse).bind fun us => carries_pure
    · exact .next fun us => .pure (within_first (by simp [Shape.children, Shape.slots]))
  | choose r condition body orElse =>
    rw [stmtNodes]
    refine .withPending ((visits_exprNode condition).followed (fun t => ?_) fun t => ?_)
    · exact (carries_stmtsNodes body).bind fun ts => (carries_stmtsNodes orElse).bind
        fun us => carries_pure
    · exact .next fun ts => .next fun us => .pure (within_first (by simp [Shape.children, Shape.slots]))
  | withResources r resources body =>
    rw [stmtNodes]
    refine .withPending ((visits_heldResources resources).followed (fun held => ?_) fun held => ?_)
    · exact (carries_stmtsNodes body).bind fun ts => carries_pure
    · exact .next fun ts => .pure ((within_of_subset (by simp)).trans within_holdAll)
  | matchCases r subject cases =>
    rw [stmtNodes]
    refine .withPending ((visits_simpleNodes [subject]).followed (fun ts => ?_) fun ts => ?_)
    · exact (carries_caseNodes r cases).bind fun us => carries_pure
    · exact .next fun us => .pure (within_of_subset (by simp))
  | «throwError» r error cause =>
    rw [stmtNodes]
    exact visits_throwNodes.withPending
  | expr r value =>
    rw [stmtNodes]
    exact visits_exprStatementNodes.withPending
  | simple r word operands =>
    rw [stmtNodes]
    exact (visits_simpleNodes operands).withPending

end ModelLint.Source
