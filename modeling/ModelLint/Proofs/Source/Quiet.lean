import ModelLint.Proofs.Source.Holding
import ModelLint.Proofs.Source.Spread

/-!
# Steps that put nothing before a statement

An expression puts the declarations of the names that it binds on the way before its statement. Where it
binds none, a statement inside another may as well be built together with it.

* `mild_exprNode`: an expression that binds no name on the way.
* `Quiet`: steps that put no declaration before the statement. `quiet_stmtsNodes`,
  **`quiet_heldResources`**: all statements, and plain resources.
* **`withPending_bind`**: what is built by such steps may be built on its own.
-/

namespace ModelLint.Source

open Build

variable {α β : Type} {x : Build α} {f : α → Build β} {locks : List String} {s : Building}

/-! ## Expressions -/

theorem Mild.withFrame {frame : Frame} (hx : Mild x) : Mild (withFrame frame x) := fun _ =>
  runs_withFrame ((hx _).mono fun _ _ h => h)

mutual

/-- An expression that binds no name on the way puts nothing aside but fields without a value. -/
theorem mild_exprNode : (e : Expr) → e.collect Expr.ownWalrus = [] → Mild (exprNode e)
  | .name r id, _ => by
    rw [exprNode]
    refine mild_lookup?.bind fun v => ?_
    split
    · exact mild_pure
    · split
      · exact mild_globalField.bind fun _ => mild_pure
      · exact mild_pure
  | .constant r value hasLetter, _ => by
    rw [exprNode]
    exact mild_pure
  | .attribute r value attr, h => by
    simp only [Expr.collect, List.append_eq_nil_iff] at h
    rw [exprNode]
    refine mild_isReceiver.bind fun isReceiver => ?_
    split
    · exact mild_receiverField?.bind fun _ => mild_pure
    · exact (mild_exprNode value h.2).bind fun _ => mild_pure
  | .subscript r value index, h => by
    simp only [Expr.collect, List.append_eq_nil_iff] at h
    rw [exprNode]
    exact (mild_exprNode value h.1.2).bind fun _ => (mild_exprNode index h.2).bind fun _ => mild_pure
  | .call r function args keywords, h => by
    simp only [Expr.collect, List.append_eq_nil_iff] at h
    obtain ⟨⟨⟨-, hfunction⟩, hargs⟩, hkeywords⟩ := h
    have hmade : ∀ shape : List Tree → Shape Tree, Mild (do
        let args ← exprNodes args
        return nodeAt r (shape (args ++ (← keywordNodes keywords)))) := fun shape =>
      (mild_exprNodes args hargs).bind fun _ => (mild_keywordNodes keywords hkeywords).bind
        fun _ => mild_pure
    cases function with
    | «attribute» fr value attr =>
      simp only [Expr.collect, List.append_eq_nil_iff] at hfunction
      rw [exprNode]
      refine mild_createdType?.bind fun created => ?_
      split
      · exact hmade _
      · refine mild_isReceiver.bind fun isReceiver => ?_
        dsimp only
        split
        · exact hmade _
        · exact (mild_exprNode value hfunction.2).map.bind fun _ => hmade _
    | name fr id =>
      rw [exprNode]
      refine mild_createdType?.bind fun created => (mild_exprNodes args hargs).bind fun _ =>
        (mild_keywordNodes keywords hkeywords).bind fun _ => ?_
      split <;> exact mild_pure
    | _ =>
      rw [exprNode]
      · exact (mild_exprNode _ hfunction).bind fun _ => hmade _
      all_goals nofun
  | .compound r form operands, h => by
    simp only [Expr.collect, List.append_eq_nil_iff] at h
    rw [exprNode]
    exact (mild_exprNodes operands h.2).bind fun _ => mild_pure
  | .dict r entries, h => by
    simp only [Expr.collect, List.append_eq_nil_iff] at h
    rw [exprNode]
    exact (mild_keyNodes entries h.2).bind fun _ => (mild_valueNodes entries h.2).bind
      fun _ => mild_pure
  | .walrus r target id value, h => by
    simp [Expr.collect, Expr.ownWalrus] at h
  | .lambda r parameters body, h => by
    simp only [Expr.collect, List.append_eq_nil_iff] at h
    rw [exprNode]
    exact (mild_parameterNames parameters).bind fun _ => (mild_exprNode body h.2).withFrame.bind
      fun _ => mild_pure
  | .comprehension r kind elements first rest, h => by
    simp only [Expr.collect, List.append_eq_nil_iff] at h
    obtain ⟨⟨⟨-, helements⟩, hfirst⟩, hrest⟩ := h
    rw [exprNode]
    refine (mild_sourceNode first hfirst).bind fun t => ?_
    exact ((mild_clauseNodes first hfirst).bind fun p => (mild_innerClauseNodes rest hrest).bind fun q =>
      (mild_exprNodes elements helements).bind fun _ => mild_pure).withFrame.bind fun _ => mild_pure

theorem mild_exprNodes : (es : List Expr) → Expr.collectAll Expr.ownWalrus es = [] →
    Mild (exprNodes es)
  | [], _ => mild_pure
  | e :: es, h => by
    simp only [Expr.collectAll, List.append_eq_nil_iff] at h
    exact (mild_exprNode e h.1).bind fun _ => (mild_exprNodes es h.2).bind fun _ => mild_pure

theorem mild_keywordNodes : (ks : List Keyword) → Expr.collectKeywords Expr.ownWalrus ks = [] →
    Mild (keywordNodes ks)
  | [], _ => mild_pure
  | .mk _ value :: rest, h => by
    simp only [Expr.collectKeywords, List.append_eq_nil_iff] at h
    exact (mild_exprNode value h.1).bind fun _ => (mild_keywordNodes rest h.2).bind fun _ => mild_pure

theorem mild_keyNodes : (es : List Entry) → Expr.collectEntries Expr.ownWalrus es = [] →
    Mild (keyNodes es)
  | [], _ => mild_pure
  | .pair key _ :: rest, h => by
    simp only [Expr.collectEntries, List.append_eq_nil_iff] at h
    exact (mild_exprNode key h.1.1).bind fun _ => (mild_keyNodes rest h.2).bind fun _ => mild_pure
  | .unpack _ :: rest, h => by
    simp only [Expr.collectEntries, List.append_eq_nil_iff] at h
    exact mild_keyNodes rest h.2

theorem mild_valueNodes : (es : List Entry) → Expr.collectEntries Expr.ownWalrus es = [] →
    Mild (valueNodes es)
  | [], _ => mild_pure
  | .pair _ value :: rest, h => by
    simp only [Expr.collectEntries, List.append_eq_nil_iff] at h
    exact (mild_exprNode value h.1.2).bind fun _ => (mild_valueNodes rest h.2).bind fun _ => mild_pure
  | .unpack value :: rest, h => by
    simp only [Expr.collectEntries, List.append_eq_nil_iff] at h
    exact (mild_exprNode value h.1).bind fun _ => (mild_valueNodes rest h.2).bind fun _ => mild_pure

theorem mild_sourceNode : (c : Clause) → Expr.collectClause Expr.ownWalrus c = [] →
    Mild (sourceNode c)
  | .mk _ target source conditions, h => by
    simp only [Expr.collectClause, List.append_eq_nil_iff] at h
    exact mild_exprNode source h.1.2

theorem mild_clauseNodes : (c : Clause) → Expr.collectClause Expr.ownWalrus c = [] →
    Mild (clauseNodes c)
  | .mk _ target source conditions, h => by
    simp only [Expr.collectClause, List.append_eq_nil_iff] at h
    exact (mild_bindAll _).bind fun _ => (mild_exprNode target h.1.1).bind fun _ =>
      (mild_exprNodes conditions h.2).bind fun _ => mild_pure

theorem mild_innerClauseNodes : (cs : List Clause) → Expr.collectClauses Expr.ownWalrus cs = [] →
    Mild (innerClauseNodes cs)
  | [], _ => mild_pure
  | c :: rest, h => by
    simp only [Expr.collectClauses, List.append_eq_nil_iff] at h
    exact (mild_sourceNode c h.1).bind fun _ => (mild_clauseNodes c h.1).bind fun _ =>
      (mild_innerClauseNodes rest h.2).bind fun _ => mild_pure

end

/-! ## Quiet steps -/

/-- A step that puts no declaration before the statement. -/
def Quiet (x : Build α) : Prop :=
  ∀ s, Runs x s (fun _ => True) fun _ s' => s'.pending = s.pending

theorem Mild.quiet (hx : Mild x) : Quiet x := fun s => (hx s).mono fun _ _ h => h.1

theorem quiet_pure {a : α} : Quiet (pure a : Build α) := mild_pure.quiet

theorem Quiet.bind (hx : Quiet x) (hf : ∀ a, Quiet (f a)) : Quiet (x >>= f) := fun s =>
  (hx s).bind fun a s₁ h₁ => (hf a s₁).mono fun _ _ h₂ => h₂.trans h₁

/-- A statement takes all declarations before itself. -/
theorem quiet_withPending {nodes : Build (List Tree)} : Quiet (withPending nodes) := by
  have hall : ∀ s, Runs nodes s (fun _ => True) fun _ _ => True := fun s => by
    rw [Runs]
    rcases nodes s with _ | ⟨_, _⟩ <;> trivial
  have hcollect : Quiet (collectPending nodes) := fun s =>
    runs_collectPending ((hall _).mono fun _ _ _ => rfl)
  exact hcollect.bind fun _ => quiet_pure

theorem quiet_stmtNodes (stmt : Stmt) : Quiet (stmtNodes locks stmt) := by
  have hframe : ∀ k : Frame → Frame, Quiet (do modifyFrame k; return ([] : List Tree)) := fun k =>
    mild_modifyFrame.quiet.bind fun _ => quiet_pure
  rcases stmt with _ | _ | ⟨r, _ | value⟩ | _ | _ | _ | _ | _ | _ | _ | _ | _ | _ | _ | _ | _ | _ | _ <;>
    rw [stmtNodes]
  all_goals first | exact quiet_withPending | exact quiet_pure | exact hframe _

theorem quiet_stmtsNodes (body : List Stmt) : Quiet (stmtsNodes locks body) := by
  induction body with
  | nil => exact quiet_pure
  | cons stmt rest ih =>
    rw [stmtsNodes]
    exact (quiet_stmtNodes stmt).bind fun _ => ih.bind fun _ => quiet_pure

/-! ## Resources -/

variable {name : String}

/-- What an assignment to a name finds out changes at most the fields of the module. -/
theorem runs_binding?_found : Runs (binding? name) s (fun _ => True) fun _ s' =>
    s' = s ∨ Runs (binding? name) s' (fun _ => True) fun w s'' => w.isSome ∧ s'' = s' := by
  refine runs_get_bind ?_
  rcases hframes : s.frames with _ | ⟨frame, outer⟩
  · exact runs_pure (.inl rfl)
  · dsimp only
    rcases hlookup : frame.names.lookup name with _ | v
    · dsimp only
      split
      · next hglobal =>
        refine Runs.map (runs_get_bind ?_)
        rcases hfield : s.moduleFields.lookup name with _ | v
        · refine Runs.bind (Q := fun v s' => v = s.vars.size ∧ s' = { s with vars := s.vars.push _ })
            ⟨rfl, rfl⟩ ?_
          rintro _ _ ⟨rfl, rfl⟩
          refine runs_get_bind (runs_modify_bind (runs_pure (.inr (runs_get_bind ?_))))
          simp only [hframes, hlookup, hglobal, if_true]
          refine Runs.map (runs_get_bind ?_)
          simp only [List.lookup_cons_self]
          exact runs_pure ⟨rfl, rfl⟩
        · exact runs_pure (.inl rfl)
      · repeat' split
        all_goals exact runs_pure (.inl rfl)
    · exact runs_pure (.inl rfl)

/-- **A name that is found is found again**, without a change. -/
theorem runs_binding?_again : Runs (binding? name) s (fun _ => True) fun v s' => v.isSome →
    Runs (binding? name) s' (fun _ => True) fun w s'' => w.isSome ∧ s'' = s' := by
  refine (runs_binding?_found.and runs_self).mono fun v s' ⟨h, hrun⟩ hv => ?_
  rcases h with rfl | h
  · exact runs_self.mono fun w s'' hagain => by
      cases hrun.symm.trans hagain
      exact ⟨hv, rfl⟩
  · exact h

theorem runs_targetName_of_found {r : Range} (h : Runs (binding? name) s (fun _ => True) fun w s' =>
    w.isSome ∧ s' = s) : Runs (targetName r name) s (fun _ => True) fun _ s' => s' = s := by
  refine h.bind fun w s₁ ⟨hw, hs₁⟩ => ?_
  obtain ⟨v, rfl⟩ := Option.isSome_iff_exists.mp hw
  exact runs_pure hs₁

theorem quiet_heldFor {context : Expr} {target : Option Expr} {node : Tree}
    (h : (⟨context, target⟩ : Resource).isPlain) : Quiet (heldFor locks context node target) := by
  simp only [Resource.isPlain, Bool.and_eq_true] at h
  obtain ⟨-, htarget⟩ := h
  rcases target with _ | target
  · refine mild_isLock.quiet.bind fun b => ?_
    split <;> exact quiet_pure
  · cases target with
    | name r id =>
      intro s
      refine ((mild_binding? s).and runs_binding?_again).bind fun v s₁ ⟨⟨hpending, _⟩, hagain⟩ => ?_
      rcases v with _ | v
      · have hnew : Quiet (do
            let v ← newLocal id context.likelyType
            bindName id v
            return Held.resource (nodeAt context.range (.varDeclaration v (some node)))) :=
          mild_newVariable.quiet.bind fun _ => mild_bindName.quiet.bind fun _ => quiet_pure
        exact (hnew s₁).mono fun _ _ h => h.trans hpending
      · refine (runs_targetName_of_found (hagain rfl)).bind fun t s₂ hs₂ => runs_pure ?_
        exact hs₂ ▸ hpending
    | _ => cases htarget

/-- How one resource is held. -/
def hold (locks : List String) (resource : Resource) : Build Held := do
  let node ← exprNode resource.context
  heldFor locks resource.context node resource.target

theorem heldResources_hold (resource : Resource) (rest : List Resource) :
    heldResources locks (resource :: rest) = do
      let held ← hold locks resource
      return held :: (← heldResources locks rest) := by
  rw [heldResources_cons, hold, bind_assoc]

theorem quiet_hold {resource : Resource} (h : resource.isPlain = true) :
    Quiet (hold locks resource) := by
  have hwalrus : resource.context.collect Expr.ownWalrus = [] := by
    simp only [Resource.isPlain, Bool.and_eq_true] at h
    exact List.isEmpty_iff.mp h.1
  exact (mild_exprNode resource.context hwalrus).quiet.bind fun _ => quiet_heldFor h

/-- **Plain resources** are built without a declaration before the statement. -/
theorem quiet_heldResources : (resources : List Resource) → resources.all Resource.isPlain = true →
    Quiet (heldResources locks resources)
  | [], _ => quiet_pure
  | resource :: rest, h => by
    rw [List.all_cons, Bool.and_eq_true] at h
    rw [heldResources_hold]
    exact (quiet_hold h.1).bind fun _ => (quiet_heldResources rest h.2).bind fun _ => quiet_pure

/-! ## Declarations before the statement -/

/-- What is built is built from no declarations, and those that come up are put before it. -/
theorem withPending_apply (nodes : Build (List Tree)) (s : Building) :
    withPending nodes s = (nodes { s with pending := [] }).bind fun p =>
      .ok (p.2.pending ++ p.1, { p.2 with pending := s.pending }) := by
  have hcollect : collectPending nodes s = (nodes { s with pending := [] }).bind fun p =>
      .ok ((p.2.pending, p.1), { p.2 with pending := s.pending }) := rfl
  have hbind : withPending nodes s = (collectPending nodes s).bind fun p =>
      .ok (p.1.1 ++ p.1.2, p.2) := rfl
  rw [hbind, hcollect]
  cases nodes { s with pending := [] } <;> rfl

/-- What puts nothing before the statement may be built on its own. -/
theorem Quiet.withPending_eq {nodes : Build (List Tree)} (h : Quiet nodes) (hs : s.pending = []) :
    withPending nodes s = nodes s := by
  have hself : { s with pending := [] } = s := by rw [← hs]
  rw [withPending_apply, hself, hs]
  have hnodes := h s
  rw [Runs] at hnodes
  rcases hrun : nodes s with e | ⟨ts, s'⟩
  · rfl
  · rw [hrun] at hnodes
    have hs' : s'.pending = [] := hnodes.trans hs
    have hself' : { s' with pending := [] } = s' := by rw [← hs']
    show Except.ok (s'.pending ++ ts, { s' with pending := [] }) = _
    rw [hself', hs', List.nil_append]

/-- **What is built in a statement may be a statement of its own**, if nothing is put before either. -/
theorem withPending_bind {nodes : Build (List Tree)} {k : α → List Tree → Build (List Tree)}
    (hx : Quiet x) (hnodes : Quiet nodes) :
    withPending (do let a ← x; k a (← nodes)) = withPending (do let a ← x; k a (← withPending nodes)) := by
  funext s
  rw [withPending_apply, withPending_apply]
  have hbind : ∀ nodes : Build (List Tree), (do let a ← x; k a (← nodes)) { s with pending := [] } =
      (x { s with pending := [] }).bind fun p => (nodes p.2).bind fun q => k p.1 q.1 q.2 := fun _ => rfl
  have hx := hx { s with pending := [] }
  rw [Runs] at hx
  rw [hbind, hbind]
  rcases hrun : x { s with pending := [] } with e | ⟨a, s₁⟩
  · rfl
  · rw [hrun] at hx
    show ((nodes s₁).bind fun q => k a q.1 q.2).bind _ = ((withPending nodes s₁).bind _).bind _
    rw [hnodes.withPending_eq hx]

end ModelLint.Source
