import Mathlib
import ModelLint.Proofs.Rules.Comments
import ModelLint.Proofs.Source.Loading
import ModelLint.Proofs.Source.Spreading

/-!
# Units with one resource at a time

A module becomes the same nodes with one resource at a time, if its classes keep their fields. So two
texts that say the same with one resource at a time have units that are the same but for places and
comments.

* `alike_addStatement`: a statement of a module.
* **`alike_moduleNode`**: a module.
* `agree_load`: the units of two texts.
* **`load_spread`**: a statement of several resources and the statements inside each other give the same
  unit and the same findings. `not_resembles_mixedText`: not where a class has other fields.
-/

namespace ModelLint.Source

open Build

variable {locks : List String} {split split' : Range → Bool} {body : List Stmt} {name : String}

/-! ## Parts of modules -/

/-- Parts of a module are the same but for places. -/
structure SameParts (p p' : ModuleParts) : Prop where
  members : SameTrees p.members p'.members
  statements : SameTrees p.statements p'.statements
  emitted : p.emitted = p'.emitted
  frame : p.frame = p'.frame

variable {p p' : ModuleParts}

theorem alike_set {s s' : Building} (h : s.placeless = s'.placeless) :
    Alike Eq (set s : Build PUnit) (set s') := fun _ _ _ => ⟨⟨⟩, s', rfl, rfl, h⟩

theorem alike_inFrame {x y : Build (List Tree)} (hp : SameParts p p') (h : Alike SameTrees x y) :
    Alike SameParts (p.inFrame x) (p'.inFrame y) := by
  refine Alike.next (alike_modify fun s pending hoisted hpending hhoisted => ?_) fun _ =>
    h.bind fun ts ts' hts => alike_get_bind fun s pending hoisted hpending hhoisted => ?_
  · simp only [Building.placeless, hp.frame, hpending, hhoisted]
  · refine (alike_set ?_).next fun _ => .pure ⟨hp.members, hp.statements.append hts, hp.emitted, ?_⟩
    · simp only [Building.placeless, hpending, hhoisted]
    · simp only [hp.frame]

theorem alike_addFields {r r' : Range} {modifiers : List String} : (names : List String) →
    {p p' : ModuleParts} → SameParts p p' → {initializer initializer' : Option Tree} →
    initializer.map Tree.placeless = initializer'.map Tree.placeless →
    Alike SameParts (p.addFields r modifiers initializer names)
      (p'.addFields r' modifiers initializer' names)
  | [], _, _, hp, _, _, _ => .pure hp
  | name :: rest, p, p', hp, initializer, initializer', h => by
    rw [ModuleParts.addFields, ModuleParts.addFields, ← hp.emitted]
    refine alike_get_bind fun s pending hoisted _ _ => ?_
    dsimp only
    split
    · refine (alike_fieldAt h).bind fun t t' ht => alike_addFields rest ?_ h
      exact ⟨hp.members.append (SameTree.singleton ht), hp.statements, rfl, hp.frame⟩
    · exact alike_addFields rest hp h

/-- The first assignment to a name gives its field an initializer. -/
theorem alike_initialized {r r' : Range} {names : List String} {x y : Build (Option Tree)}
    (hp : SameParts p p')
    (h : Alike (fun t t' => t.map Tree.placeless = t'.map Tree.placeless) x y) :
    Alike SameParts
      (do
        modify fun s => { s with frames := p.frame :: s.frames }
        let initializer ← x
        let state ← get
        set { state with frames := state.frames.drop 1, pending := [] }
        let parts ← p.addFields r [] initializer names
        return { parts with
          statements := parts.statements ++ state.pending
          frame := state.frames.headD parts.frame })
      (do
        modify fun s => { s with frames := p'.frame :: s.frames }
        let initializer ← y
        let state ← get
        set { state with frames := state.frames.drop 1, pending := [] }
        let parts ← p'.addFields r' [] initializer names
        return { parts with
          statements := parts.statements ++ state.pending
          frame := state.frames.headD parts.frame }) := by
  refine Alike.next (alike_modify fun s pending hoisted hpending hhoisted => ?_) fun _ =>
    h.bind fun t t' ht => alike_get_bind fun s pending hoisted hpending hhoisted => ?_
  · simp only [Building.placeless, hp.frame, hpending, hhoisted]
  · refine (alike_set ?_).next fun _ => (alike_addFields names hp ht).bind fun q q' hq => .pure
      ⟨hq.members, hq.statements.append hpending, hq.emitted, ?_⟩
    · simp only [Building.placeless, hhoisted]
    · simp only [hq.frame]

theorem alike_addAssignment {s s' : Stmt} (hp : SameParts p p')
    (hs : Alike SameTrees (stmtNodes locks s) (stmtNodes locks s')) (targets : List Expr)
    (value : Option Expr) :
    Alike SameParts (p.addAssignment locks s targets value)
      (p'.addAssignment locks s' (placelessExprs targets) (placelessExpr? value)) := by
  have hmany : Alike SameParts
      (do
        let parts ← p.addFields s.range [] none (Expr.boundNamesOf targets)
        parts.inFrame (stmtNodes locks s))
      (do
        let parts ← p'.addFields s'.range [] none (Expr.boundNamesOf (placelessExprs targets))
        parts.inFrame (stmtNodes locks s')) := by
    rw [Expr.boundNamesOf_placeless]
    exact (alike_addFields _ hp rfl).bind fun _ _ hq => alike_inFrame hq hs
  rcases targets with _ | ⟨(_ | _), _ | ⟨_, _⟩⟩
  case cons.name.nil r id =>
    rw [placelessExprs, Expr.placeless, placelessExprs, ModuleParts.addAssignment,
      ModuleParts.addAssignment, ← hp.emitted]
    dsimp only
    split
    · exact alike_inFrame hp hs
    · rcases value with _ | value
      · exact alike_initialized hp (.pure rfl)
      · exact alike_initialized hp ((alike_exprNode value).map fun _ _ => congrArg some)
  all_goals exact hmany

theorem alike_addStatement (hp : SameParts p p') (s : Stmt) (h : KeepFields split (levels s)) :
    Alike SameParts (p.addStatement locks s) (p'.addStatement locks (s.spread split)) := by
  have hother : p.addStatement locks s = p.inFrame (stmtNodes locks s) →
      p'.addStatement locks (s.spread split) = p'.inFrame (stmtNodes locks (s.spread split)) →
      Alike SameParts (p.addStatement locks s) (p'.addStatement locks (s.spread split)) := fun heq heq' => by
    rw [heq, heq']
    exact alike_inFrame hp (alike_stmtNodes s h)
  cases s
  case function r signature body =>
    rw [levels, keepFields_cons] at h
    exact (alike_methodNode (alike_stmtsNodes body h.2)).bind fun t t' ht => .pure
      ⟨hp.members.append (SameTree.singleton ht), hp.statements, hp.emitted, hp.frame⟩
  case classType r name bases body =>
    rw [levels, keepFields_cons] at h
    have hfields : fieldsOf (spreadAll split body) = fieldsOf body := h.1 _ (List.mem_singleton_self _)
    refine (alike_openClass hfields).bind fun c c' hc => ?_
    refine (alike_memberNodes body h.2 hc).withQualifier.bind fun ts ts' hts => ?_
    exact (alike_classNode hts).bind fun t t' ht => .pure
      ⟨hp.members.append (SameTree.singleton ht), hp.statements, hp.emitted, hp.frame⟩
  case imports r names => exact alike_addFields names hp rfl
  case assign r targets value =>
    exact alike_addAssignment hp (alike_stmtNodes _ h) targets (some value)
  case annotate r target typeHint value =>
    exact alike_addAssignment hp (alike_stmtNodes _ h) [target] value
  case withResources r resources body =>
    obtain ⟨first, inner, hspread⟩ := exists_spread_withResources r resources body
    exact hother rfl (by rw [hspread]; rfl)
  all_goals exact hother rfl rfl

theorem alike_addStatements : (body : List Stmt) → KeepFields split (levelsOf body) → {p p' : ModuleParts} →
    SameParts p p' →
    Alike SameParts (body.foldlM (fun parts s => parts.addStatement locks s) p)
      ((spreadAll split body).foldlM (fun parts s => parts.addStatement locks s) p')
  | [], _, _, _, hp => .pure hp
  | s :: rest, h, p, p', hp => by
    rw [levelsOf, keepFields_sideBySide] at h
    rw [spreadAll, List.foldlM_cons, List.foldlM_cons]
    exact (alike_addStatement hp s h.1).bind fun _ _ hq => alike_addStatements rest h.2 hq

/-! ## Modules -/

theorem SameFields.filter {test : Field × VariableId → Bool}
    (htest : ∀ f v, test (f.placeless, v) = test (f, v)) {own own' : List (Field × VariableId)}
    (h : SameFields own own') : SameFields (own.filter test) (own'.filter test) := by
  have hmap : ∀ own : List (Field × VariableId),
      ((own.filter test).map fun p => (p.1.placeless, p.2)) =
        (own.map fun p => (p.1.placeless, p.2)).filter test := fun own => by
    rw [List.filter_map]
    exact congrArg _ (List.filter_congr fun p _ => (htest p.1 p.2).symm)
  rw [SameFields, hmap, h, ← hmap]

theorem alike_foldlM_fields {k : ModuleParts → Field × VariableId → Build ModuleParts}
    (hk : ∀ p p' f f' v, SameParts p p' → f.placeless = f'.placeless →
      Alike SameParts (k p (f, v)) (k p' (f', v))) : (own own' : List (Field × VariableId)) →
    SameFields own own' → {p p' : ModuleParts} → SameParts p p' →
    Alike SameParts (own.foldlM k p) (own'.foldlM k p')
  | [], [], _, _, _, hp => .pure hp
  | (f, v) :: rest, (f', v') :: rest', h, p, p', hp => by
    obtain ⟨hhead, rfl, hrest⟩ := SameFields.cons_iff.mp h
    rw [List.foldlM_cons, List.foldlM_cons]
    exact (hk p p' f f' v hp hhead).bind fun _ _ hq => alike_foldlM_fields hk rest rest' hrest hq
  | [], _ :: _, h, _, _, _ | _ :: _, [], h, _, _, _ => nomatch h

theorem sameTrees_moduleMethod? {ts ts' : List Tree} (h : SameTrees ts ts') :
    SameTrees (moduleMethod? name ts).toList (moduleMethod? name ts').toList := by
  rcases ts with _ | ⟨t, ts⟩ <;> rcases ts' with _ | ⟨t', ts'⟩
  · rfl
  · cases h
  · cases h
  · refine SameTree.singleton (congrArg (Tree.node default) ?_)
    simp only [Shape.placeless, placelessAll_eq, h]

/-- **A module with one resource at a time** becomes the same nodes. -/
theorem alike_moduleNode (h : KeepFields split (levelsOf body)) :
    Alike SameTree (moduleNode locks name body) (moduleNode locks name (spreadAll split body)) := by
  have hfields : (Field.ofBindings (moduleBindingsOf false body)).map Binding.placeless =
      (Field.ofBindings (moduleBindingsOf false (spreadAll split body))).map Binding.placeless := by
    rw [ofBindings_placeless, ofBindings_placeless, moduleBindingsOf_spread]
  refine (alike_fieldVariables _ _ hfields).bind fun fields fields' hown => ?_
  refine Alike.next (alike_modify fun s pending hoisted hpending hhoisted => ?_) fun _ => ?_
  · have hnames := hown.names
    simp only [Building.placeless, hpending, hhoisted, hnames]
  · refine (alike_addStatements body h ⟨rfl, rfl, rfl, rfl⟩).bind fun p p' hp => ?_
    refine Alike.bind (alike_foldlM_fields (fun p p' f f' v hp hf => ?_) _ _
      (hown.filter fun _ _ => rfl) hp) fun q q' hq => ?_
    · obtain ⟨n, type, r, isImport, isNested, isStatic⟩ := f
      obtain ⟨n', type', r', isImport', isNested', isStatic'⟩ := f'
      simp only [Binding.placeless, Binding.mk.injEq, true_and] at hf
      obtain ⟨rfl, rfl, rfl, rfl, rfl⟩ := hf
      exact alike_addFields _ hp rfl
    refine alike_get_bind fun s pending hoisted _ hhoisted => .pure (congrArg (Tree.node default) ?_)
    have hmembers : SameTrees (q.members ++ (moduleMethod? name q.statements).toList ++ s.hoisted)
        (q'.members ++ (moduleMethod? name q'.statements).toList ++ hoisted) :=
      (hq.members.append (sameTrees_moduleMethod? hq.statements)).append hhoisted
    simp only [Shape.placeless, placelessAll_eq, hmembers]

/-! ## Units -/

/-- Two outcomes of reading are the same but for places and comments: both are units that are, or both are
failures for the same reason. -/
def LoadFailure.Agree : Except LoadFailure Model → Except LoadFailure Model → Prop
  | .ok m, .ok m' => m.Resembles m'
  | .error (.build f), .error (.build f') => f' = f
  | .error (.link path f), .error (.link path' f') => path' = path ∧ f'.reason = f.reason
  | _, _ => False

variable {named : Text.CharacterNames} {source source' : String} {body' : List Stmt}
  {comments comments' : List (Int × String)}

/-- **Texts that say the same with one resource at a time** have units that are the same but for places
and comments, if their classes keep their fields. -/
theorem agree_load (h : Accepted named source body comments) (h' : Accepted named source' body' comments')
    (hspread : spreadAll split body = spreadAll split' body') (hkeep : KeepFields split (levelsOf body))
    (hkeep' : KeepFields split' (levelsOf body')) (locks : List String) (path : Path) :
    LoadFailure.Agree (load named locks source path) (load named locks source' path) := by
  have hbody : Alike SameTree (moduleNode locks path.stem body)
      (moduleNode locks path.stem (spreadAll split body)) := alike_moduleNode hkeep
  have hbody' : Alike SameTree (moduleNode locks path.stem body')
      (moduleNode locks path.stem (spreadAll split' body')) := alike_moduleNode hkeep'
  replace hbody := hbody .start .start rfl
  replace hbody' := hbody' .start .start rfl
  rw [Runs] at hbody hbody'
  rw [h.load_eq, h'.load_eq, StateT.run, StateT.run]
  rcases hrun : moduleNode locks path.stem body .start with e | ⟨t, s⟩ <;>
    rcases hrun' : moduleNode locks path.stem body' .start with e' | ⟨t', s'⟩ <;>
    rw [hrun] at hbody <;> rw [hrun', ← hspread] at hbody'
  · exact Except.error.inj (hbody'.symm.trans hbody)
  · obtain ⟨u, w, hother, -⟩ := hbody'
    cases hbody.symm.trans hother
  · obtain ⟨u, w, hother, -⟩ := hbody
    cases hbody'.symm.trans hother
  · obtain ⟨u, w, hother, htree, hstate⟩ := hbody
    obtain ⟨u', w', hother', htree', hstate'⟩ := hbody'
    obtain ⟨rfl, rfl⟩ := Prod.mk.inj (Except.ok.inj (hother.symm.trans hother'))
    have hvars : s'.vars = s.vars := (congrArg Building.vars (hstate.trans hstate'.symm)).symm
    have hlink := Model.agree_ofTree s.vars firstPlace firstPlace
      { path, language := languageName, comments, disposableTypes := [] } comments'
      (SameTree.singleton (htree.trans htree'.symm))
    dsimp only
    rw [hvars]
    rw [unitOf, unitOf]
    rcases hm : Model.ofTree s.vars _ with f | m <;> rcases hm' : Model.ofTree s.vars _ with f' | m' <;>
      rw [hm, hm'] at hlink
    · exact ⟨rfl, hlink⟩
    · cases hlink
    · cases hlink
    · exact hlink

/-! ## Findings -/

/-- Units that are the same but for places and comments have the same findings, comments aside. -/
theorem Model.Resembles.evaluateAll_agree {m m' : Model} (h : m.Resembles m') (hm : m.Linked)
    (hm' : m'.Linked) {rules : List Rule}
    (hrules : ∀ r ∈ rules, ∃ d ∈ Registry.definitions, ∃ s, d.build s = .ok r) (phrases : List String) :
    (Rule.evaluateAll rules phrases (m.withComments [])).Agree
      (Rule.evaluateAll rules phrases (m'.withComments [])) := by
  have hleft := m.resembles_withComments []
  have hright := m'.resembles_withComments []
  have hall : (m.withComments []).Resembles (m'.withComments []) :=
    ⟨(hleft.graph.symm.trans h.graph).trans hright.graph, h.root_eq⟩
  exact Rule.evaluateAll_agree hrules hall hm.comments_withComments hm'.comments_withComments

/-- **A statement of several plain resources says the same as the statements inside each other** that it
stands for, and texts that say the same have units that are the same but for places and comments, if
their classes keep their fields. Comments aside, registered rules find the same in both. -/
theorem load_spread (locks : List String) (path : Path) :
    (∀ split r resources body, split r = true → resources.all Resource.isPlain = true →
      (Stmt.withResources r resources body).spread split = (nest resources body).spread split) ∧
    ∀ source source' body body' comments comments' split split',
      Accepted named source body comments → Accepted named source' body' comments' →
      spreadAll split body = spreadAll split' body' →
      KeepFields split (levelsOf body) → KeepFields split' (levelsOf body') →
      LoadFailure.Agree (load named locks source path) (load named locks source' path) ∧
      ∀ m m', load named locks source path = .ok m → load named locks source' path = .ok m' →
        ∀ rules, (∀ r ∈ rules, ∃ d ∈ Registry.definitions, ∃ s, d.build s = .ok r) → ∀ phrases,
          (Rule.evaluateAll rules phrases (m.withComments [])).Agree
            (Rule.evaluateAll rules phrases (m'.withComments [])) := by
  refine ⟨fun split r resources body => spread_withResources, ?_⟩
  intro source source' body body' comments comments' split split' h h' hspread hkeep hkeep'
  have hagree := agree_load h h' hspread hkeep hkeep' locks path
  refine ⟨hagree, fun m m' hm hm' rules hrules phrases => ?_⟩
  rw [hm, hm'] at hagree
  exact Model.Resembles.evaluateAll_agree hagree (h.introducedOnce hm).1 (h'.introducedOnce hm').1 hrules
    phrases

theorem exists_accepted_of_isSome (hnull : source.toList.contains '\x00' = false)
    (hbody : (Stmt.ofSource? named source).isSome) (hcomments : (comments? source).isSome) :
    ∃ body comments, Accepted named source body comments := by
  obtain ⟨body, hbody⟩ := Option.isSome_iff_exists.mp hbody
  obtain ⟨comments, hcomments⟩ := Option.isSome_iff_exists.mp hcomments
  exact ⟨body, comments, hnull, hbody, hcomments⟩

theorem Accepted.spreadAll_eq (h : Accepted named source body comments) (h' : Accepted named source' body' comments')
    (heq : (Stmt.ofSource? named source).map (spreadAll split) =
      (Stmt.ofSource? named source').map (spreadAll split')) : spreadAll split body = spreadAll split' body' := by
  rw [h.body, h'.body] at heq
  exact Option.some.inj heq

theorem Accepted.keepFields (h : Accepted named source body comments)
    (hkeep : (Stmt.ofSource? named source).any fun body => KeepFields split (levelsOf body)) :
    KeepFields split (levelsOf body) := by
  rw [h.body] at hkeep
  exact of_decide_eq_true hkeep

/-- A class with a method that holds a lock and a resource. -/
def pairText : String := "class C:\n def f(s, p):\n  with s.l, p as q: s.m = q\n"

/-- The class with a statement for each of them. -/
def nestedText : String := "class C:\n def f(s, p):\n  with s.l:\n   with p as q: s.m = q\n"

set_option maxRecDepth 100000 in
theorem spread_pairText : (Stmt.ofSource? .empty pairText).map (spreadAll fun _ => true) =
    (Stmt.ofSource? .empty nestedText).map (spreadAll nowhere) := by
  conv =>
    lhs
    cbv
  conv =>
    rhs
    cbv

/-- The class has the same unit in both texts. -/
theorem agree_pairText : ∃ body body' comments comments' m m', Accepted .empty pairText body comments ∧
    Accepted .empty nestedText body' comments' ∧ spreadAll (fun _ => true) body = spreadAll nowhere body' ∧
    load .empty [] pairText ⟨"", ["m.py"]⟩ = .ok m ∧ load .empty [] nestedText ⟨"", ["m.py"]⟩ = .ok m' ∧
    m.Resembles m' := by
  obtain ⟨body, comments, h⟩ : ∃ body comments, Accepted .empty pairText body comments :=
    exists_accepted_of_isSome (by decide +kernel) (by decide +kernel) (by decide +kernel)
  obtain ⟨body', comments', h'⟩ : ∃ body comments, Accepted .empty nestedText body comments :=
    exists_accepted_of_isSome (by decide +kernel) (by decide +kernel) (by decide +kernel)
  have hkeep : KeepFields (fun _ => true) (levelsOf body) := h.keepFields (by decide +kernel)
  have hspread := h.spreadAll_eq h' spread_pairText
  have hload : (load .empty [] pairText ⟨"", ["m.py"]⟩).toOption.any fun _ => true := by decide +kernel
  have hload' : (load .empty [] nestedText ⟨"", ["m.py"]⟩).toOption.any fun _ => true := by decide +kernel
  obtain ⟨m, hm, -⟩ := exists_load_of_any hload
  obtain ⟨m', hm', -⟩ := exists_load_of_any hload'
  have hagree := (load_spread [] ⟨"", ["m.py"]⟩).2 pairText nestedText body body' comments comments' _ _ h h'
    hspread hkeep (keepFields_nowhere _)
  rw [hm, hm'] at hagree
  exact ⟨body, body', comments, comments', m, m', h, h', hspread, hm, hm', hagree.1⟩

/-- A class with a method that assigns an attribute in a statement of two resources and in a choice. -/
def mixedText : String :=
  "class C:\n async def f(s, a):\n  with a, s: s.m = \x7b\x7d\n  if a: s.m = []\n  s.m[0]\n"

/-- The class with a statement for each resource: its assignment stands deeper than the other one. -/
def nestedMixedText : String :=
  "class C:\n async def f(s, a):\n  with a:\n   with s: s.m = \x7b\x7d\n  if a: s.m = []\n  s.m[0]\n"

set_option maxRecDepth 100000 in
theorem spread_mixedText : (Stmt.ofSource? .empty mixedText).map (spreadAll fun _ => true) =
    (Stmt.ofSource? .empty nestedMixedText).map (spreadAll fun _ => true) := by
  conv =>
    lhs
    cbv
  conv =>
    rhs
    cbv

/-- Both texts say the same, but the attribute is a map in one of the units only. -/
theorem not_resembles_mixedText : ∃ body body' comments comments' m m',
    Accepted .empty mixedText body comments ∧ Accepted .empty nestedMixedText body' comments' ∧
      spreadAll (fun _ => true) body = spreadAll (fun _ => true) body' ∧
      load .empty [] mixedText ⟨"", ["m.py"]⟩ = .ok m ∧ load .empty [] nestedMixedText ⟨"", ["m.py"]⟩ = .ok m' ∧
      (Rule.evaluateAll [SharedMap.readerRule] [] m).findings.length = 1 ∧
      (Rule.evaluateAll [SharedMap.readerRule] [] m').findings.length = 0 ∧ ¬ m.Resembles m' := by
  obtain ⟨body, comments, h⟩ : ∃ body comments, Accepted .empty mixedText body comments :=
    exists_accepted_of_isSome (by decide +kernel) (by decide +kernel) (by decide +kernel)
  obtain ⟨body', comments', h'⟩ : ∃ body comments, Accepted .empty nestedMixedText body comments :=
    exists_accepted_of_isSome (by decide +kernel) (by decide +kernel) (by decide +kernel)
  have hspread := h.spreadAll_eq h' spread_mixedText
  have hload : (load .empty [] mixedText ⟨"", ["m.py"]⟩).toOption.any fun m =>
      m.info.comments = [] ∧ (Rule.evaluateAll [SharedMap.readerRule] [] m).findings.length = 1 := by
    decide +kernel
  have hload' : (load .empty [] nestedMixedText ⟨"", ["m.py"]⟩).toOption.any fun m =>
      m.info.comments = [] ∧ (Rule.evaluateAll [SharedMap.readerRule] [] m).findings.length = 0 := by
    decide +kernel
  obtain ⟨m, hm, htest⟩ := exists_load_of_any hload
  obtain ⟨m', hm', htest'⟩ := exists_load_of_any hload'
  obtain ⟨hnone, hfound⟩ := of_decide_eq_true htest
  obtain ⟨hnone', hfound'⟩ := of_decide_eq_true htest'
  refine ⟨body, body', comments, comments', m, m', h, h', hspread, hm, hm', hfound, hfound', ?_⟩
  intro hsame
  have hd : Registry.sharedMap ∈ Registry.definitions := by simp [Registry.definitions]
  have hrules : ∀ r ∈ [SharedMap.readerRule], ∃ d ∈ Registry.definitions, ∃ s, d.build s = .ok r :=
    List.forall_mem_singleton.mpr ⟨_, hd, SharedMap.readerSettings, rfl⟩
  have hagree : (Rule.evaluateAll [SharedMap.readerRule] [] m).Agree
      (Rule.evaluateAll [SharedMap.readerRule] [] m') := Rule.evaluateAll_agree hrules hsame hnone hnone'
  have hlength := congrArg List.length hagree.findings_eq
  rw [List.length_map, List.length_map, hfound, hfound'] at hlength
  exact absurd hlength Nat.zero_ne_one

end ModelLint.Source
