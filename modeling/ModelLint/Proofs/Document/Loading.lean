import ModelLint.Proofs.Document.Nodes

/-!
# Documents and linking

A document is rejected by its own checks or gives a tree that can be linked: it never happens that
linking fails on what a document describes.

* `UnitBuilt`: what is known of the tree of a document.
* `Rejects`: a document is rejected before its unit is linked.
* `Model.Resolved`: a unit is a tree, each of its variables is introduced once, and whatever mentions
  a variable by its name alone has one.
* **`load_resolved_or_rejects`**: a document gives such a unit or is rejected by one of its checks.
-/

namespace ModelLint

/-- **A unit in which all names are resolved**: it is a tree, every variable is introduced exactly
once, and every access by name is to a variable of the unit. -/
structure Model.Resolved (m : Model) : Prop where
  /-- Linking has succeeded. -/
  linked : m.Linked
  /-- Every stored node is met in the unit. -/
  met : ∀ n < m.graph.nodes.size, ∃ p, m.graph.at? m.root p = some n
  /-- No node is met twice. -/
  place_unique : ∀ p q n, m.graph.at? m.root p = some n → m.graph.at? m.root q = some n → p = q
  /-- Every variable is introduced once. -/
  introduced : ∀ v < m.graph.vars.size, m.IntroducedOnce v
  /-- Every access by name is to a variable. -/
  access : ∀ p n name var, m.graph.at? m.root p = some n → m.graph.shape n = .varAccess name var →
    ∃ v < m.graph.vars.size, var = some v
  /-- Every member that is known is a variable. -/
  member : ∀ p n name qualifier v, m.graph.at? m.root p = some n →
    m.graph.shape n = .fieldAccess name qualifier (some v) → v < m.graph.vars.size

namespace Document

variable {fields : Fields} {r : Surroundings} {s : Progress} {t : Tree} {vars : Array Variable}

/-! ## The tree of a document -/

theorem reads_addComment {comments : List (Int × String)} {entry : Value × Value} :
    Reads (addComment fields comments entry) r s fun _ => True := by
  rw [addComment]
  split
  · exact reads_pure trivial
  · exact reads_written.bind fun _ _ => runs_reject trivial

theorem reads_comments : Reads (comments fields) r s fun _ => True := by
  rw [comments]
  split
  · exact reads_foldlM (fun _ _ => reads_addComment) _ []
  · split
    · exact runs_reject trivial
    · exact reads_pure trivial

theorem reads_disposableTypes : Reads (disposableTypes fields) r s fun _ => True := by
  rw [disposableTypes]
  split
  · exact reads_pure trivial
  · split
    · exact runs_reject trivial
    · exact reads_pure trivial

/-- **What is known of the tree of a document**: it is that of a unit, introduces each variable of the
table once and mentions no others, and functions keep their variables to themselves. -/
structure UnitBuilt (t : Tree) (vars : Array Variable) : Prop where
  /-- It is the tree of a unit. -/
  unit : ∃ info declarations, t.shape = .sourceUnit info declarations
  /-- Its nodes are sound. -/
  sound : t.All (Sound vars)
  /-- It introduces each variable of the table, once. -/
  introduced : ∀ v, t.sum (Shape.introductions v) = born vars.size v
  /-- It mentions variables of the table only. -/
  mentioned : ∀ v : Nat, 0 < t.sum (Shape.mentions v) → v < vars.size
  /-- Functions keep their variables to themselves. -/
  confined : Tree.Confined 0 [t]

theorem unitNode_runs {n : Nat} (hn : Value.entryDepths fields ≤ n) (hs : Valid r s) :
    Runs (unitNode n fields) r s fun t s' => Built r s [t] [] [] s' ∧
      ∃ info declarations, t.shape = .sourceUnit info declarations := by
  refine reads_comments.bind fun comments _ => reads_disposableTypes.bind fun types _ =>
    reads_items.bind fun vs hvs => ?_
  refine (runs_trees (K := Plain) hs vs fun v hv s' hs' _ => ?declarations).bind
    ?rest
  case declarations =>
    refine reads_mapping.bind fun declaration hdeclaration => ?_
    have hdepth := hvs v hv
    rw [hdeclaration] at hdepth
    exact (accounts_converters n).declaration declaration _ (by omega) r s' hs'
  case rest =>
    rintro ts s₁ ⟨h₁, hts⟩
    refine reads_writtenField.bind fun language _ => (reads_mapM types fun _ _ => reads_written).bind
      fun names _ => runs_read_bind (runs_pure ⟨h₁.node ?_ (.refl _) ⟨fun _ _ c hc => ?_, ?_, ?_, ?_⟩
      (by simp [Shape.mention?]) (·.elim), _, _, rfl⟩)
    · simp [Shape.children, Shape.slots]
    · exact hts c (by simpa [Shape.children, Shape.slots] using hc)
    · simp
    · exact trivial
    · simp

/-- The tree of a document can be built, or one of the checks fails. -/
theorem tree_spec (fields : Fields) (path : Path) :
    (∃ t vars, tree fields path = .ok (t, vars) ∧ UnitBuilt t vars) ∨
      ∃ e, tree fields path = .error e ∧ e.IsCheck := by
  have hs : Valid { path, types := [], fields := [] } { vars := #[], scopes := [] } := by
    rintro v ⟨scope, hscope, -⟩
    cases hscope
  have hruns := unitNode_runs (n := (Value.map fields).depth + 1)
    (by rw [Value.depth]; omega : Value.entryDepths fields ≤ _) hs
  have htree : tree fields path = ((unitNode ((Value.map fields).depth + 1) fields)
      { path, types := [], fields := [] } { vars := #[], scopes := [] }).bind
        fun p => .ok (p.1, p.2.vars) := rfl
  rw [Runs] at hruns
  rw [htree]
  rcases hunit : unitNode ((Value.map fields).depth + 1) fields { path, types := [], fields := [] }
      { vars := #[], scopes := [] } with e | ⟨t, s⟩
  · rw [hunit] at hruns
    exact .inr ⟨e, rfl, hruns⟩
  · rw [hunit] at hruns
    obtain ⟨h, hshape⟩ := hruns
    refine .inl ⟨t, s.vars, rfl, hshape, h.sound t (List.mem_singleton_self t), fun v => ?_,
      fun v hv => ?_, h.confined⟩
    · have := h.balance v
      simpa [born] using this
    · exact h.mentioned_lt hs (by simpa using hv)

/-- **The unit of a document can be linked.** -/
theorem UnitBuilt.exists_model (h : UnitBuilt t vars) :
    ∃ m, Model.ofTree vars t = .ok m ∧ m.Shows vars t := by
  obtain ⟨info, declarations, hunit⟩ := h.unit
  have hlt : ∀ v : Nat, 0 < t.sum (Shape.introductions v) → v < vars.size := by
    intro v hv
    rw [h.introduced] at hv
    exact lt_of_born_pos hv
  have hlinkable : (Graph.ofTree vars t).Linkable 0 := by
    refine Graph.linkable_ofTree (fun v => h.introduced v ▸ born_le_one _ v) fun p t' ht' => ?_
    refine ⟨fun name heq => (h.sound p t' ht').access name none heq rfl, fun v hv => ?_⟩
    have hmention : 0 < t.sum (Shape.mentions v) :=
      Tree.sum_pos_iff.mpr ⟨p, t', ht', by rw [Shape.mentions, if_pos hv]; exact Nat.one_pos⟩
    rw [h.introduced, born_of_lt (h.mentioned v hmention)]
    exact Nat.one_pos
  obtain ⟨m, hm⟩ := (Model.ofTree_eq_ok hlt hunit).mpr hlinkable
  exact ⟨m, hm, Model.shows_ofTree hlt hunit hm⟩

theorem UnitBuilt.resolved (h : UnitBuilt t vars) {m : Model} (hm : m.Shows vars t) :
    m.Resolved := by
  have hmentioned : ∀ p n (v : Nat), m.graph.at? m.root p = some n →
      (m.graph.shape n).mention? = some v → v < m.graph.vars.size := by
    intro p n v hn hv
    obtain ⟨t', ht', hlabel⟩ := hm.exists_tree p n hn
    rw [← Shape.mention?_label, hlabel, Shape.mention?_label] at hv
    rw [hm.vars_size]
    refine h.mentioned v (Tree.sum_pos_iff.mpr ⟨p, t', ht', ?_⟩)
    rw [Shape.mentions, if_pos hv]
    exact Nat.one_pos
  refine ⟨hm.linked, hm.met, hm.linked.rooted.place_unique, fun v hv => ?introduced,
    fun p n name var hn hshape => ?access, fun p n name qualifier v hn hshape => ?member⟩
  case introduced =>
    rw [hm.vars_size] at hv
    exact hm.introducedOnce (by rw [h.introduced, born_of_lt hv])
  case access =>
    obtain ⟨t', ht', hlabel⟩ := hm.exists_tree p n hn
    have hvar : t'.shape = .varAccess name var := by
      rw [← Shape.label_eq_varAccess, ← hlabel, hshape]
      rfl
    obtain ⟨v, rfl⟩ := Option.ne_none_iff_exists'.mp ((h.sound p t' ht').access name var hvar)
    exact ⟨v, hmentioned p n v hn (by rw [hshape]; rfl), rfl⟩
  case member => exact hmentioned p n v hn (by rw [hshape]; rfl)

/-! ## Loading -/

/-- A document is rejected before its unit is linked: it is no mapping, it has no path, or its tree
cannot be built. -/
def Rejects (document : Value) (path : Option Path) (e : LoadError) : Prop :=
  match document with
  | .map fields => pathOf fields path = .error e ∨
    ∃ p, pathOf fields path = .ok p ∧ tree fields p = .error e
  | _ => e = .documentNotMapping path

theorem isCheck_of_pathOf {path : Option Path} {e : LoadError} (h : pathOf fields path = .error e) :
    e.IsCheck := by
  unfold pathOf at h
  split at h <;> cases h <;> trivial

theorem load_map {path : Option Path} {p : Path} (hp : pathOf fields path = .ok p) :
    load (.map fields) path = (tree fields p).bind fun built =>
      match Model.ofTree built.2 built.1 with
      | .ok m => .ok m
      | .error failure => .error (.link p failure) := by
  rw [load, hp]
  rfl

/-- **A document gives a unit in which all names are resolved, or one of its checks fails**, whatever
the document and the path from outside. In the first case its tree has been built, in the second it
has not, so that it never depends on linking which documents are rejected. -/
theorem load_resolved_or_rejects (document : Value) (path : Option Path) :
    (∃ fields p t vars m, document = .map fields ∧ pathOf fields path = .ok p ∧
      tree fields p = .ok (t, vars) ∧ Model.ofTree vars t = .ok m ∧ load document path = .ok m ∧
        m.graph.vars.size = vars.size ∧ m.Resolved) ∨
      ∃ e, load document path = .error e ∧ Rejects document path e ∧ e.IsCheck := by
  cases document with
  | map fields =>
    rcases hp : pathOf fields path with e | p
    · right
      refine ⟨e, ?_, .inl hp, isCheck_of_pathOf hp⟩
      rw [load, hp]
      rfl
    · rcases tree_spec fields p with ⟨t, vars, htree, hbuilt⟩ | ⟨e, htree, he⟩
      · left
        obtain ⟨m, hm, hshows⟩ := hbuilt.exists_model
        refine ⟨fields, p, t, vars, m, rfl, hp, htree, hm, ?_, hshows.vars_size,
          hbuilt.resolved hshows⟩
        rw [load_map hp, htree]
        simp only [Except.bind, hm]
      · right
        refine ⟨e, ?_, .inr ⟨p, hp, htree⟩, he⟩
        rw [load_map hp, htree]
        rfl
  | _ => exact .inr ⟨_, rfl, rfl, trivial⟩

end Document

end ModelLint
