import ModelLint.Proofs.Rules.Resembling

/-!
# Comments and phrases

Comments matter for what is suppressed and for nothing else. No rule reads them when it selects its
candidates, judges them or exempts them, so a unit with other comments has the same violations with the
same messages, and every one of them is a finding or is counted.

* `Graph.withComments`, `Model.withComments`: a unit with other comments.
* `Rule.IgnoresComments`: a rule selects, judges and exempts as if there were no comments.
* `Registry.ignoresComments`: the registered rules do.
* `RunResult.Quieter`: a result says the same as another one but for findings that are suppressed.
* **`Rule.evaluateAll_withComments`**: comments and phrases only suppress.
-/

namespace ModelLint

/-- A node with other comments, if it is a unit. -/
def Shape.withComments {ν : Type} (comments : List (Int × String)) : Shape ν → Shape ν
  | sourceUnit info declarations => sourceUnit { info with comments } declarations
  | s => s

namespace Graph

/-- A graph where the unit at a node has other comments. -/
def withComments (g : Graph) (u : NodeId) (comments : List (Int × String)) : Graph :=
  g.setShape u ((g.shape u).withComments comments)

variable (g : Graph) (u : NodeId) (comments : List (Int × String))

theorem node_setShape (n m : NodeId) (s : Shape NodeId) :
    (g.setShape n s).node m =
      if m = n ∧ n < g.nodes.size then { g.node m with shape := s } else g.node m := by
  simp only [node, setShape, Array.getD_eq_getD_getElem?, Array.getElem?_modify]
  by_cases hm : n = m
  · subst hm
    by_cases hn : n < g.nodes.size <;> simp [hn]
  · rw [if_neg hm, if_neg fun h => hm h.1.symm]

theorem setShape_shape (n : NodeId) : g.setShape n (g.shape n) = g := by
  have hnodes : (g.nodes.modify n fun node => { node with shape := g.shape n }) = g.nodes := by
    refine Array.ext_getElem? fun i => ?_
    rw [Array.getElem?_modify]
    split
    · next hi =>
      subst hi
      rcases h : g.nodes[n]? with _ | node
      · rfl
      · rw [shape, Graph.node, Array.getD_eq_getD_getElem?, h]
        rfl
    · rfl
  rw [setShape, hnodes]

/-- Nothing else changes: a node says the same, or it is a unit and says the same but for comments. -/
theorem shape_withComments (n : NodeId) : (g.withComments u comments).shape n = g.shape n ∨
    ∃ info declarations, g.shape n = .sourceUnit info declarations ∧
      (g.withComments u comments).shape n = .sourceUnit { info with comments } declarations := by
  rw [shape, withComments, node_setShape]
  split
  · next hn =>
    rw [hn.1]
    cases hs : g.shape u
    case sourceUnit info declarations => exact .inr ⟨info, declarations, rfl, rfl⟩
    all_goals exact .inl rfl
  · exact .inl rfl

theorem location_withComments : (g.withComments u comments).location = g.location := by
  funext n
  rw [location, withComments, node_setShape]
  split <;> rfl

theorem resembles_withComments : g.Resembles (g.withComments u comments) where
  size_eq := by simp [withComments, setShape]
  vars_eq := rfl
  owner_eq n := by
    rw [owner, withComments, node_setShape]
    split <;> rfl
  shape_eq n := by
    rcases g.shape_withComments u comments n with h | ⟨info, declarations, h, h'⟩
    · exact .inl h
    · exact .inr ⟨info, comments, declarations, h, h'⟩

end Graph

/-! ## Rules and comments -/

/-- The unit with other comments. -/
def Model.withComments (m : Model) (comments : List (Int × String)) : Model :=
  { m with graph := m.graph.withComments m.root comments }

namespace Model

variable (m : Model) (comments : List (Int × String))

theorem resembles_withComments : m.Resembles (m.withComments comments) :=
  ⟨m.graph.resembles_withComments m.root comments, rfl⟩

theorem nodes_withComments : (m.withComments comments).nodes = m.nodes := by
  rw [nodes, (m.resembles_withComments comments).graph.preorder_eq, (m.resembles_withComments comments).root_eq,
    nodes]

theorem path_withComments : (m.withComments comments).info.path = m.info.path :=
  (m.resembles_withComments comments).path_eq

end Model

/-- **A rule ignores comments**: they matter for what is suppressed only. -/
structure Rule.IgnoresComments (r : Rule) : Prop where
  /-- The candidates are the same. -/
  isCandidate_eq : ∀ m comments, r.isCandidate (m.withComments comments) = r.isCandidate m
  /-- They are judged in the same way. -/
  judge_eq : ∀ m comments, r.judge (m.withComments comments) = r.judge m
  /-- The same ones are exempt. -/
  isExempt_eq : ∀ m comments, r.isExempt (m.withComments comments) = r.isExempt m

theorem Rule.IgnoresPlaces.ignoresComments {r : Rule} (h : r.IgnoresPlaces) : r.IgnoresComments where
  isCandidate_eq m comments := h.isCandidate_eq (m.resembles_withComments comments)
  judge_eq m comments := by
    funext n
    have hlocation : (m.withComments comments).graph.location = m.graph.location :=
      m.graph.location_withComments m.root comments
    rcases h.judge_eq (m.resembles_withComments comments) n with hn | ⟨name, target, hn, hn'⟩
    · exact hn
    · rw [hn, hn', hlocation]
  isExempt_eq m comments := h.isExempt_eq (m.resembles_withComments comments)

theorem Registry.ignoresComments {d : RuleDefinition} {s : RuleSettings} {r : Rule}
    (hd : d ∈ definitions) (hr : d.build s = .ok r) : r.IgnoresComments :=
  (Registry.ignoresPlaces hd hr).ignoresComments

/-! ## Results with more suppressed -/

/-- **A result says the same as another one** but for findings that are suppressed. -/
structure RunResult.Quieter (a b : RunResult) : Prop where
  /-- The diagnostics are the same. -/
  diagnostics_eq : a.diagnostics = b.diagnostics
  /-- As many of them cannot be written. -/
  unwritten_eq : a.unwritten = b.unwritten
  /-- Every violation is a finding or is counted. -/
  total_eq : a.findings.length + a.suppressed = b.findings.length + b.suppressed
  /-- The findings are some of those of the other result, in their order. -/
  sublist : a.findings.Sublist b.findings

namespace RunResult

theorem Quieter.refl (a : RunResult) : a.Quieter a := ⟨rfl, rfl, rfl, List.Sublist.refl _⟩

theorem Quieter.append {a a' b b' : RunResult} (h : a.Quieter b) (h' : a'.Quieter b') :
    (a ++ a').Quieter (b ++ b') where
  diagnostics_eq := congrArg₂ (· ++ ·) h.diagnostics_eq h'.diagnostics_eq
  unwritten_eq := congrArg₂ (· + ·) h.unwritten_eq h'.unwritten_eq
  total_eq := by
    have htotal := h.total_eq
    have htotal' := h'.total_eq
    show (a.findings ++ a'.findings).length + (a.suppressed + a'.suppressed) =
      (b.findings ++ b'.findings).length + (b.suppressed + b'.suppressed)
    rw [List.length_append, List.length_append]
    omega
  sublist := h.sublist.append h'.sublist

theorem Quieter.suppressed_le {a b : RunResult} (h : a.Quieter b) :
    b.suppressed ≤ a.suppressed := by
  have htotal := h.total_eq
  have hlength := h.sublist.length_le
  omega

theorem Quieter.join_map {α : Type} {f f' : α → RunResult} {xs : List α}
    (h : ∀ x ∈ xs, (f x).Quieter (f' x)) : (join (xs.map f)).Quieter (join (xs.map f')) := by
  induction xs with
  | nil => exact .refl _
  | cons x xs ih =>
    exact (h x List.mem_cons_self).append (ih fun y hy => h y (List.mem_cons_of_mem x hy))

end RunResult

/-- More comments and more phrases cover more. -/
theorem Suppression.coversLine_mono {comments comments' : List (Int × String)}
    {phrases phrases' : List String} {id : String} {line : Int} (hphrases : phrases ⊆ phrases')
    (hcomments : ∀ line comment, commentAt? comments line = some comment →
      commentAt? comments' line = some comment)
    (h : coversLine comments phrases id line = true) :
    coversLine comments' phrases' id line = true := by
  simp only [coversLine, List.any_eq_true, Option.any_eq_true, Bool.and_eq_true, covers] at h ⊢
  obtain ⟨l, hl, comment, hcomment, hne, phrase, hphrase, hcovers⟩ := h
  exact ⟨l, hl, comment, hcomments l comment hcomment, hne, phrase, hphrases hphrase, hcovers⟩

variable {m : Model} {comments comments' : List (Int × String)} {phrases phrases' : List String}

theorem Model.Linked.exists_unit (hm : m.Linked) :
    ∃ info declarations, m.graph.shape m.root = .sourceUnit info declarations := by
  obtain ⟨g, -, -, ⟨info, declarations, hunit⟩, hlink⟩ := hm
  have hskeleton := Graph.sameSkeleton_link g m.root
  rw [hlink] at hskeleton
  exact ⟨info, declarations, (hskeleton.shape_eq m.root).trans hunit⟩

theorem Model.Linked.comments_withComments (hm : m.Linked) :
    (m.withComments comments).info.comments = comments := by
  obtain ⟨info, declarations, hunit⟩ := hm.exists_unit
  have hshape : (m.graph.withComments m.root comments).shape m.root =
      .sourceUnit { info with comments } declarations := by
    rw [Graph.shape, Graph.withComments, Graph.node_setShape, if_pos ⟨rfl, hm.rooted.root_lt⟩, hunit]
    rfl
  simp only [Model.info, Graph.unitInfo?, withComments, hshape]
  rfl

/-- The unit itself is one of the units with other comments. -/
theorem Model.Linked.withComments_self (hm : m.Linked) : m.withComments m.info.comments = m := by
  obtain ⟨info, declarations, hunit⟩ := hm.exists_unit
  have hcomments : m.info.comments = info.comments := by
    simp only [Model.info, Graph.unitInfo?, hunit]
    rfl
  have hshape : (m.graph.shape m.root).withComments info.comments = m.graph.shape m.root := by
    rw [hunit]
    rfl
  rw [hcomments, Model.withComments, Graph.withComments, hshape, Graph.setShape_shape]

namespace Rule

variable {r : Rule} {n : NodeId}

theorem skipText?_withComments (cause : Unresolved) :
    r.skipText? (m.withComments comments) n cause = r.skipText? m n cause := by
  rw [skipText?, skipText?, Model.path_withComments, Model.withComments, Graph.location_withComments]

theorem outcome_quieter (hm : m.Linked) (hr : r.IgnoresComments)
    (hcovers : ∀ line, Suppression.coversLine comments' phrases' r.id line = true →
      Suppression.coversLine comments phrases r.id line = true) :
    (r.outcome phrases (m.withComments comments) n).result.Quieter
      (r.outcome phrases' (m.withComments comments') n).result := by
  have hlocation : ∀ comments, (m.withComments comments).graph.location = m.graph.location :=
    fun comments => Graph.location_withComments m.graph m.root comments
  rw [outcome, outcome]
  simp only [hr.judge_eq, hr.isExempt_eq, hm.comments_withComments, Model.path_withComments, hlocation,
    skipText?_withComments]
  rcases r.judge m n with cause | _ | message
  · exact .refl _
  · exact .refl _
  · simp only []
    specialize hcovers (m.graph.location n).line
    cases r.isExempt m n
    case true => exact .refl _
    case false =>
      cases h' : Suppression.coversLine comments' phrases' r.id (m.graph.location n).line
      case true =>
        rw [hcovers h']
        exact .refl _
      case false =>
        cases Suppression.coversLine comments phrases r.id (m.graph.location n).line
        case true => exact ⟨rfl, rfl, rfl, List.nil_sublist _⟩
        case false => exact .refl _

theorem evaluate_quieter (hm : m.Linked) (hr : r.IgnoresComments)
    (hcovers : ∀ line, Suppression.coversLine comments' phrases' r.id line = true →
      Suppression.coversLine comments phrases r.id line = true) :
    (r.evaluate phrases (m.withComments comments)).Quieter
      (r.evaluate phrases' (m.withComments comments')) := by
  simp only [evaluate, candidates, Model.nodes_withComments, hr.isCandidate_eq]
  exact .join_map fun n _ => outcome_quieter hm hr hcovers

theorem evaluate_quieter_nil (hm : m.Linked) (hr : r.IgnoresComments) :
    (r.evaluate phrases (m.withComments comments)).Quieter
      (r.evaluate phrases' (m.withComments [])) :=
  evaluate_quieter hm hr fun line hcovers =>
    absurd hcovers (by simp [Suppression.coversLine, Suppression.commentAt?])

/-- **Comments and phrases only suppress.** Registered rules give a unit the same diagnostics, fail to
write as many, and see as many violations, whatever its comments and the phrases are. What they find is,
in this order, some of what they find without comments, and with more comments and more phrases it is
less. -/
theorem evaluateAll_withComments {rules : List Rule} (hm : m.Linked)
    (hrules : ∀ r ∈ rules, ∃ d ∈ Registry.definitions, ∃ s, d.build s = .ok r) :
    m.withComments m.info.comments = m ∧
    ∀ comments comments' phrases phrases',
      (m.withComments comments).info.comments = comments ∧
      (evaluateAll rules phrases (m.withComments comments)).diagnostics =
        (evaluateAll rules phrases' (m.withComments comments')).diagnostics ∧
      (evaluateAll rules phrases (m.withComments comments)).unwritten =
        (evaluateAll rules phrases' (m.withComments comments')).unwritten ∧
      (evaluateAll rules phrases (m.withComments comments)).findings.length +
          (evaluateAll rules phrases (m.withComments comments)).suppressed =
        (evaluateAll rules phrases' (m.withComments comments')).findings.length +
          (evaluateAll rules phrases' (m.withComments comments')).suppressed ∧
      (evaluateAll rules phrases (m.withComments comments)).findings.Sublist
        (evaluateAll rules phrases' (m.withComments [])).findings ∧
      (phrases' ⊆ phrases →
        (∀ line comment, Suppression.commentAt? comments' line = some comment →
          Suppression.commentAt? comments line = some comment) →
        (evaluateAll rules phrases (m.withComments comments)).findings.Sublist
            (evaluateAll rules phrases' (m.withComments comments')).findings ∧
          (evaluateAll rules phrases' (m.withComments comments')).suppressed ≤
            (evaluateAll rules phrases (m.withComments comments)).suppressed) := by
  have hignores : ∀ r ∈ rules, r.IgnoresComments := fun r hr => by
    obtain ⟨d, hd, s, hbuild⟩ := hrules r hr
    exact Registry.ignoresComments hd hbuild
  have hnil : ∀ comments phrases phrases',
      (evaluateAll rules phrases (m.withComments comments)).Quieter
        (evaluateAll rules phrases' (m.withComments [])) := fun _ _ _ =>
    .join_map fun r hr => evaluate_quieter_nil hm (hignores r hr)
  refine ⟨hm.withComments_self, fun comments comments' phrases phrases' => ?_⟩
  have hleft := hnil comments phrases phrases'
  have hright := hnil comments' phrases' phrases'
  refine ⟨hm.comments_withComments, hleft.diagnostics_eq.trans hright.diagnostics_eq.symm,
    hleft.unwritten_eq.trans hright.unwritten_eq.symm,
    hleft.total_eq.trans hright.total_eq.symm, hleft.sublist, fun hphrases hcomments => ?_⟩
  have hmore : (evaluateAll rules phrases (m.withComments comments)).Quieter
      (evaluateAll rules phrases' (m.withComments comments')) :=
    .join_map fun r hr => evaluate_quieter hm (hignores r hr) fun _ =>
      Suppression.coversLine_mono hphrases hcomments
  exact ⟨hmore.sublist, hmore.suppressed_le⟩

end Rule

/-- The rule on shared maps that knows dictionaries. -/
def SharedMap.readerRule : Rule :=
  rule Registry.sharedMap.description .error ⟨[], ["dict"], [], []⟩

/-- A comment above the access that is reported without it. -/
theorem evaluateAll_withComments_reader : SharedMap.readerModel.Linked ∧
    Registry.sharedMap.build SharedMap.readerSettings = .ok SharedMap.readerRule ∧
      (Rule.evaluateAll [SharedMap.readerRule] [] SharedMap.readerModel).findings.length = 1 ∧
      (Rule.evaluateAll [SharedMap.readerRule] ["warden: ignore"]
        (SharedMap.readerModel.withComments [(1, "# Warden: ignore")])).suppressed = 1 := by
  have hm := SharedMap.linked_readerModel
  have hd : Registry.sharedMap ∈ Registry.definitions := by simp [Registry.definitions]
  have hrules : ∀ r ∈ [SharedMap.readerRule], ∃ d ∈ Registry.definitions,
      ∃ s, d.build s = .ok r :=
    List.forall_mem_singleton.mpr ⟨_, hd, SharedMap.readerSettings, rfl⟩
  obtain ⟨hself, hall⟩ := Rule.evaluateAll_withComments hm hrules
  obtain ⟨-, -, -, htotal, -⟩ := hall [(1, "# Warden: ignore")] SharedMap.readerModel.info.comments
    ["warden: ignore"] []
  rw [hself] at htotal
  have hfound :
      (Rule.evaluateAll [SharedMap.readerRule] [] SharedMap.readerModel).findings.length = 1 ∧
      (Rule.evaluateAll [SharedMap.readerRule] [] SharedMap.readerModel).suppressed = 0 := by
    decide +kernel
  have hcovered : (Rule.evaluateAll [SharedMap.readerRule] ["warden: ignore"]
      (SharedMap.readerModel.withComments [(1, "# Warden: ignore")])).findings.length = 0 := by
    decide +kernel
  refine ⟨hm, rfl, hfound.1, ?_⟩
  rwa [hfound.1, hfound.2, hcovered, Nat.zero_add] at htotal

end ModelLint
