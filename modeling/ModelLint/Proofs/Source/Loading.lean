import ModelLint.Proofs.Source.Grammar.Statements
import ModelLint.Proofs.Source.Handlers
import ModelLint.Proofs.Source.Unit

/-!
# Which sources have a unit

A source text that the grammar accepts has a linked unit exactly if its nodes can be built and no
declaration is pending in the end. Two things stand in the way. The types of a handler need a
written form; and if the initializer of a field of a class binds a name on the way, no statement is
there that the declaration of the name could be put before.

* `Accepted`: the text has the form of a module.
* `linkable_unit`: the unit of a module can be linked exactly if nothing is pending.
* **`load_accepted`**: which accepted texts have a unit, and that its variables are introduced once.
-/

namespace ModelLint

namespace Source

open Build

variable {nm : String → Prop} {calm : Prop} {s : Building} {t : Tree} {l : Location}
  {info : UnitInfo} {v : VariableId}

/-! ## Units of modules -/

theorem Sound.mention_lt {vars : Array Variable} {shape : Shape Tree} (h : Sound vars nm shape)
    (hv : shape.mention? = some v) : v < vars.size := by
  rcases shape with _ | _ | _ | _ | _ | _ | _ | _ | _ | _ | _ | _ | _ | ⟨name, w⟩ | ⟨name, q, w⟩ | _ |
    _ | _ | _ | _ | _ | _ <;> try cases hv
  · obtain ⟨-, w, hw, hdenotes⟩ := h
    cases hw
    exact hdenotes.lt_size
  · exact (h.2 v rfl).2.lt_size

section Units

theorem sum_unit (f : Shape Tree → Nat) (l : Location) (info : UnitInfo) (t : Tree) :
    (Tree.node l (.sourceUnit info [t])).sum f = f (.sourceUnit info [t]) + t.sum f := by
  rw [Tree.sum_eq]
  simp [Tree.children_node, Tree.shape, Shape.children, Shape.slots, Tree.sums_cons]

theorem introductions_unit (v : VariableId) (l : Location) (info : UnitInfo) (t : Tree) :
    (Tree.node l (.sourceUnit info [t])).sum (Shape.introductions v) =
      t.sum (Shape.introductions v) := by
  rw [sum_unit]
  exact Nat.zero_add _

theorem mentions_unit (v : VariableId) (l : Location) (info : UnitInfo) (t : Tree) :
    (Tree.node l (.sourceUnit info [t])).sum (Shape.mentions v) = t.sum (Shape.mentions v) := by
  rw [sum_unit]
  exact Nat.zero_add _

variable (h : ModuleBuilt nm calm t s)

include h

theorem ModuleBuilt.lt_size
    (hv : 0 < (Tree.node l (.sourceUnit info [t])).sum (Shape.introductions v)) :
    v < s.vars.size := by
  rw [introductions_unit] at hv
  have := h.balance v
  have hborn : 0 < s.born v := by omega
  exact lt_of_born_pos hborn

/-- **The unit of a module can be linked** exactly if no declaration is pending. -/
theorem linkable_unit (l : Location) (info : UnitInfo) :
    (Graph.ofTree s.vars (.node l (.sourceUnit info [t]))).Linkable 0 ↔ s.pending = [] := by
  constructor
  · intro hlinkable
    by_contra hne
    obtain ⟨u, hu⟩ := List.exists_mem_of_ne_nil _ hne
    obtain ⟨-, v, hv⟩ := h.valid.pending u hu
    have hpending := (Nat.lt_of_lt_of_le hv (Tree.le_sums hu) :
      0 < Tree.sums (Shape.introductions v) s.pending)
    have hmentions := Nat.lt_of_lt_of_le hpending (h.waiting v)
    rw [← mentions_unit v l info] at hmentions
    obtain ⟨p, t', ht', hmention⟩ := Tree.sum_pos_iff.mp hmentions
    have hv' : t'.shape.mention? = some v := by
      by_contra hv'
      rw [Shape.mentions, if_neg hv'] at hmention
      exact Nat.lt_irrefl 0 hmention
    have hintroduced := hlinkable.introduced_of_mention ht' hv'
    rw [introductions_unit] at hintroduced
    have := h.balance v
    have : s.born v ≤ 1 := born_le_one _ v
    omega
  · intro hnil
    have hbalance : ∀ v, t.sum (Shape.introductions v) = s.born v := fun v => by
      rw [← h.balance v, hnil, Tree.sums_nil, Nat.add_zero]
    refine Graph.linkable_ofTree (fun v => ?_) ?_
    · rw [introductions_unit, hbalance]
      exact born_le_one _ v
    · refine Tree.all_iff.mpr ⟨⟨by simp [Tree.shape], by simp [Tree.shape, Shape.mention?]⟩, fun c hc => ?_⟩
      obtain rfl : c = t := by
        simpa [Tree.children_node, Shape.children, Shape.slots] using hc
      refine h.sound.mono fun shape hshape => ⟨fun name heq => ?_, fun v hv => ?_⟩
      · subst heq
        obtain ⟨-, w, hw, -⟩ := hshape
        cases hw
      · rw [introductions_unit, hbalance, Building.born, born_of_lt (hshape.mention_lt hv)]
        exact Nat.one_pos

end Units

/-! ## Accepted texts -/

/-- The tree of a unit with that of its module. -/
def unitOf (path : Path) (comments : List (Int × String)) (t : Tree) : Tree :=
  .node firstPlace
    (.sourceUnit { path, language := languageName, comments, disposableTypes := [] } [t])

/-- A text has the form of a module, with the given statements and comments. -/
structure Accepted (named : Text.CharacterNames) (source : String) (body : List Stmt)
    (comments : List (Int × String)) : Prop where
  /-- The text does not hold the null character. -/
  noNull : source.toList.contains '\x00' = false
  /-- The statements. -/
  body : Stmt.ofSource? named source = some body
  /-- The comments. -/
  comments : comments? source = some comments

section Accepted

variable {named : Text.CharacterNames} {source : String} {body : List Stmt}
  {comments : List (Int × String)} {locks : List String} {path : Path} {m : Model}

theorem Accepted.load_eq (h : Accepted named source body comments) (locks : List String) (path : Path) :
    load named locks source path =
      match (moduleNode locks path.stem body).run .start with
      | .error failure => .error (.build failure)
      | .ok (t, s) =>
        match Model.ofTree s.vars (unitOf path comments t) with
        | .ok m => .ok m
        | .error failure => .error (.link path failure) := by
  simp only [load, unitTree, h.noNull, h.body, h.comments, Bool.false_eq_true, if_false, pure_bind]
  rcases (moduleNode locks path.stem body).run .start with failure | ⟨t, s⟩
  · rfl
  · rfl

theorem accepted_of_load (hm : load named locks source path = .ok m) :
    ∃ body comments, Accepted named source body comments := by
  simp only [load, unitTree] at hm
  rcases hnull : source.toList.contains '\x00' with _ | _
  · rcases hbody : Stmt.ofSource? named source with _ | body
    · rw [hnull, hbody] at hm
      cases hm
    rcases hcomments : comments? source with _ | comments
    · simp only [hnull, hbody, hcomments, Bool.false_eq_true, if_false, pure_bind] at hm
      rcases hrun : (moduleNode locks path.stem body).run .start with failure | built
      · rw [hrun] at hm
        cases hm
      · rw [hrun] at hm
        cases hm
    · exact ⟨body, comments, hnull, hbody, hcomments⟩
  · rw [hnull] at hm
    cases hm

/-- What is built of a module, if it can be built. -/
theorem Accepted.moduleBuilt (h : Accepted named source body comments)
    (ht : (moduleNode locks path.stem body).run .start = .ok (t, s)) :
    ModuleBuilt IsName ((body.flatMap Stmt.initializers).flatMap Expr.walruses = []) t s := by
  have hruns : Runs (moduleNode locks path.stem body) .start (fun _ => True)
      (ModuleBuilt IsName ((body.flatMap Stmt.initializers).flatMap Expr.walruses = [])) :=
    moduleNode_runs (Stmt.isName_of_mentioned h.body) (fun _ => trivial) fun _ => trivial
  exact hruns.of_ok ht

theorem Accepted.exists_load_iff (h : Accepted named source body comments)
    (ht : (moduleNode locks path.stem body).run .start = .ok (t, s)) :
    (∃ m, load named locks source path = .ok m) ↔ s.pending = [] := by
  have hbuilt := h.moduleBuilt ht
  rw [← linkable_unit hbuilt firstPlace
      { path, language := languageName, comments, disposableTypes := [] },
    ← Model.ofTree_eq_ok (fun v hv => hbuilt.lt_size hv) rfl, h.load_eq, ht]
  change _ ↔ ∃ m, Model.ofTree s.vars (unitOf path comments t) = .ok m
  dsimp only
  rcases Model.ofTree s.vars _ with failure | m
  · simp
  · simp

theorem Accepted.exists_run (h : Accepted named source body comments)
    (hm : load named locks source path = .ok m) :
    ∃ t s, (moduleNode locks path.stem body).run .start = .ok (t, s) ∧
      Model.ofTree s.vars (unitOf path comments t) = .ok m := by
  rw [h.load_eq] at hm
  rcases hrun : (moduleNode locks path.stem body).run .start with failure | ⟨t, s⟩
  · rw [hrun] at hm
    cases hm
  · rw [hrun] at hm
    refine ⟨t, s, rfl, ?_⟩
    dsimp only at hm
    rcases hlink : Model.ofTree s.vars _ with failure | m'
    · rw [hlink] at hm
      cases hm
    · rw [hlink] at hm
      cases hm
      rfl

/-- The unit of a source is laid out from the tree that was built. -/
theorem Accepted.exists_tree (h : Accepted named source body comments)
    (hm : load named locks source path = .ok m) :
    ∃ t s, ModuleBuilt IsName ((body.flatMap Stmt.initializers).flatMap Expr.walruses = []) t s ∧
      (Graph.ofTree s.vars (unitOf path comments t)).Linkable 0 ∧ m.Linked ∧ m.root = 0 ∧
        (Graph.ofTree s.vars (unitOf path comments t)).SameSkeleton m.graph := by
  obtain ⟨t, s, ht, hlink⟩ := h.exists_run hm
  have hbuilt := h.moduleBuilt ht
  have hlt : ∀ v, 0 < (unitOf path comments t).sum (Shape.introductions v) → v < s.vars.size :=
    fun v hv => hbuilt.lt_size hv
  exact ⟨t, s, hbuilt, (Model.ofTree_eq_ok hlt rfl).mp ⟨m, hlink⟩,
    Model.linked_ofTree hlt rfl hlink⟩

theorem Accepted.introducedOnce (h : Accepted named source body comments)
    (hm : load named locks source path = .ok m) :
    m.Linked ∧ ∀ p n v, m.graph.at? m.root p = some n → (m.graph.shape n).mention? = some v →
      m.IntroducedOnce v := by
  obtain ⟨t, s, -, hlinkable, hlinked, hroot, hskeleton⟩ := h.exists_tree hm
  refine ⟨hlinked, fun p n v hp hv => ?_⟩
  rw [hroot, hskeleton.at?_eq] at hp
  rw [hskeleton.shape_eq] at hv
  obtain ⟨q, k, hq, hk⟩ := hlinkable.introduces hp hv
  obtain ⟨i, hi⟩ := List.mem_iff_getElem?.mp hk
  refine ⟨(q, i), ⟨k, ?_, ?_⟩, fun (q', j) ⟨k', hq', hj⟩ => ?_⟩
  · rwa [hroot, hskeleton.at?_eq]
  · rwa [hskeleton.shape_eq]
  · rw [hroot, hskeleton.at?_eq] at hq'
    rw [hskeleton.shape_eq] at hj
    obtain ⟨hqq, hij⟩ := hlinkable.introduced_unique q' q k' k j i v hq' hq hj hi
    rw [hqq, hij]

/-- The types of all handlers in a text that has a unit have a written form. -/
theorem Accepted.areWritten (h : Accepted named source body comments)
    (hm : load named locks source path = .ok m) : areWritten body = true := by
  obtain ⟨t, s, ht, -⟩ := h.exists_run hm
  have hneeds : Runs (moduleNode locks path.stem body) .start (fun _ => True)
      fun _ _ => Source.areWritten body = true := needs_moduleNode _
  exact hneeds.of_ok ht

/-- A text has a unit if the types of its handlers have a written form and no initializer binds a
name. -/
theorem Accepted.exists_load (h : Accepted named source body comments)
    (hwritten : Source.areWritten body = true)
    (hcalm : ∀ e ∈ body.flatMap Stmt.initializers, e.walruses = []) :
    ∃ m, load named locks source path = .ok m := by
  have hnil : (body.flatMap Stmt.initializers).flatMap Expr.walruses = [] :=
    List.flatMap_eq_nil_iff.mpr hcalm
  have hruns : Runs (moduleNode locks path.stem body) .start (fun _ => False)
      (ModuleBuilt IsName ((body.flatMap Stmt.initializers).flatMap Expr.walruses = [])) :=
    moduleNode_runs (Stmt.isName_of_mentioned h.body) (fun hne => hne hnil) fun hw => by
      rw [hwritten] at hw
      cases hw
  obtain ⟨t, s, ht, hbuilt⟩ := hruns.exists_ok
  exact (h.exists_load_iff ht).mpr (hbuilt.quiet hnil)

/-- **Which accepted texts have a unit**: those whose nodes can be built so that no declaration is
pending in the end. The types of their handlers have a written form, and that is enough where no
initializer binds a name. -/
theorem load_accepted (h : Accepted named source body comments) :
    ((∃ m, load named locks source path = .ok m) ↔
      ∃ t s, (moduleNode locks path.stem body).run .start = .ok (t, s) ∧ s.pending = []) ∧
    ((∃ m, load named locks source path = .ok m) → areWritten body = true) ∧
    (areWritten body = true → (∀ e ∈ body.flatMap Stmt.initializers, e.walruses = []) →
      ∃ m, load named locks source path = .ok m) ∧
    ∀ m, load named locks source path = .ok m → m.Linked ∧
      ∀ p n v, m.graph.at? m.root p = some n → (m.graph.shape n).mention? = some v →
        m.IntroducedOnce v := by
  refine ⟨⟨?built, ?loaded⟩, fun ⟨m, hm⟩ => h.areWritten hm, h.exists_load,
    fun m hm => h.introducedOnce hm⟩
  case built =>
    rintro ⟨m, hm⟩
    obtain ⟨t, s, ht, -⟩ := h.exists_run hm
    exact ⟨t, s, ht, (h.exists_load_iff ht).mp ⟨m, hm⟩⟩
  case loaded =>
    rintro ⟨t, s, ht, hnil⟩
    exact (h.exists_load_iff ht).mpr hnil

end Accepted

/-- What a computation finds out about the unit of a text. -/
theorem exists_load_of_any {locks : List String} {named : Text.CharacterNames} {source : String}
    {path : Path} {test : Model → Bool}
    (h : (load named locks source path).toOption.any test) :
    ∃ m, load named locks source path = .ok m ∧ test m = true :=
  exists_ok_of_any h

/-- A class with a method that binds a name on the way. -/
def cacheText : String :=
  "class Cache:\n    size = 1\n    def put(self, keys):\n        return [(last := k) for k in keys]\n"

/-- All is accepted in that text, nothing is bound in an initializer, and there are no handlers. -/
theorem load_cacheText : ∃ m, load .empty [] cacheText ⟨"", ["cache.py"]⟩ = .ok m := by
  have hbody : (Stmt.ofSource? .empty cacheText).any (fun body => areWritten body &&
      (body.flatMap Stmt.initializers).all fun e => e.walruses.isEmpty) := by decide +kernel
  have hcomments : (comments? cacheText).isSome := by decide +kernel
  obtain ⟨body, hbody, hconditions⟩ := Option.any_eq_true _ _ |>.mp hbody
  obtain ⟨comments, hcomments⟩ := Option.isSome_iff_exists.mp hcomments
  obtain ⟨hwritten, hcalm⟩ := Bool.and_eq_true_iff.mp hconditions
  refine (load_accepted ⟨by decide +kernel, hbody, hcomments⟩).2.2.1 hwritten fun e he => ?_
  exact List.isEmpty_iff.mp (List.all_eq_true.mp hcalm e he)

/-- A class whose field is initialized with a value that a name is bound to on the way. -/
def walrusText : String := "class C:\n    x = (y := 1)\n"

/-- The text is accepted, but no frame is open that the name could be bound in. -/
theorem not_load_walrusText : (∃ body comments, Accepted .empty walrusText body comments) ∧
    ¬ ∃ m, load .empty [] walrusText ⟨"", ["m.py"]⟩ = .ok m := by
  have hbody : (Stmt.ofSource? .empty walrusText).isSome := by decide +kernel
  have hcomments : (comments? walrusText).isSome := by decide +kernel
  obtain ⟨body, hbody⟩ := Option.isSome_iff_exists.mp hbody
  obtain ⟨comments, hcomments⟩ := Option.isSome_iff_exists.mp hcomments
  refine ⟨⟨body, comments, by decide +kernel, hbody, hcomments⟩, ?_⟩
  rintro ⟨m, hm⟩
  have hfails : (load .empty [] walrusText ⟨"", ["m.py"]⟩).toOption.isNone := by decide +kernel
  rw [hm] at hfails
  cases hfails

end Source

end ModelLint
