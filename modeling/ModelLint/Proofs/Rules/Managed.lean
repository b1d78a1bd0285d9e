import ModelLint.Proofs.Source.Contents
import ModelLint.Proofs.Source.Holding
import ModelLint.Proofs.Source.Places
import ModelLint.Proofs.Source.Reads

/-!
# Resources that a `with` statement manages

A `with` statement over a name of the function around it is a scoped acquisition, if nothing takes the
name for a lock. Its node stands in the same function as the declaration of the name, so the rule on
resources sees the release.

* `runs_nameNode_own`, `runs_isLock_name`: a name that the function binds, as a resource.
* `Built.stands_of_new`: what a function declares stands among its trees.
* **`exists_managed`**: the declaration of a name, and the `with` statement over it.
* `LaidOut.exists_managed_nodes`: the nodes of both, in the function.
* **`ResourceDisposal.unreported_managed`**: the declaration is not reported.
-/

namespace ModelLint

namespace Source

open Build
open ModelLint.Tree (HasFunction InFunction)

variable {locks : List String} {o : Option String} {r r' r₀ : Range} {x : String} {v : VariableId}
  {s s' s₀ : Building} {t : Tree} {ts : List Tree} {before after : List Resource}
  {b body stmts : List Stmt} {es fs : List Event} {initializer : Option Tree} {m : Model} {path : Path}
  {comments : List (Int × String)} {f : Routine}

/-! ## Names -/

theorem runs_nameNode_own (h : (s.sight x).own = some v) :
    (nameNode r x).run s = .ok (nodeAt r (.varAccess x (some v)), s) := by
  have hv : (s.frames.findSome? fun frame => frame.names.lookup x) = some v := by
    rw [← Building.own_or_around, h, Option.some_or]
  have hlookup : (lookup? x).run s = .ok (some v, s) := by
    refine congrArg (fun w => Except.ok (w, s)) ?_
    rw [hv, Option.some_or]
  rw [nameNode, StateT.run_bind, hlookup]
  rfl

theorem Building.sees_of_own (h : (s.sight x).own = some v) : s.Sees v := by
  obtain ⟨frame, hframe, hlookup⟩ := Option.bind_eq_some_iff.mp h
  exact ⟨frame, List.mem_of_head? hframe, x, mem_of_lookup hlookup⟩

/-- Such a name is no lock if neither the name nor the type of the variable is that of one. -/
theorem runs_isLock_name (hname : Pattern.anyAccepts? locks (some (lastSegment x)) = false)
    (htype : Pattern.anyAccepts? locks (s.vars[v]?.bind Variable.typeName) = false) :
    (isLock locks (.name r x) (nodeAt r (.varAccess x (some v)))).run s = .ok (false, s) := by
  rw [isLock, Expr.callee, Expr.dotted?, Option.map_some, hname]
  · exact congrArg (fun b => Except.ok (b, s)) htype
  · simp

/-! ## Declarations -/

/-- **What a function declares stands among its trees**, if the variable is in sight in the end. A
declaration that moves to the module would keep the variable to itself. -/
theorem Built.stands_of_new (h : Built AnyName True s ts [] s') (hs : s.Valid AnyName)
    (hcalm : ∀ u ∈ s'.hoisted, u.All Shape.Calm) (hnew : s.vars.size ≤ (v : Nat)) (hsees : s'.Sees v)
    (hdecl : Stands (ts ++ s'.moving) (nodeAt r (.varDeclaration v initializer))) :
    Stands ts (nodeAt r (.varDeclaration v initializer)) := by
  -- what was put aside before does not know the variable
  have hold : ∀ (u : Tree) p, u.All (Sound s.vars AnyName) →
      u.at? p ≠ some (nodeAt r (.varDeclaration v initializer)) := fun u p hsound hp => by
    obtain ⟨var, hvar, -⟩ : HasKind s.vars (· = .localVar) v := hsound p _ hp
    exact Nat.not_lt_of_le hnew (Array.getElem?_eq_some_iff.mp hvar).1
  obtain ⟨u, hu, p, hp⟩ := hdecl
  rw [Building.moving, List.mem_append, List.mem_append] at hu
  rcases hu with hu | hu | hu
  · exact ⟨u, hu, p, hp⟩
  · rw [h.quiet trivial] at hu
    exact absurd hp (hold u p (hs.pending u hu).1)
  · exfalso
    obtain ⟨moved, hmoved⟩ := h.scoping.hoisted
    rw [← hmoved, List.mem_append] at hu
    rcases hu with hu | hu
    · exact hold u p (hs.hoisted u hu).2.2 hp
    · -- a function in what has moved would hold the declaration
      have hmem : u ∈ s'.hoisted := hmoved ▸ List.mem_append_right _ hu
      have hstatement : u.shape.isStatement = false := by
        simp [Shape.isStatement, (h.valid.hoisted u hmem).1]
      obtain ⟨q, f, ⟨q', rfl⟩, -, hf, hfunction⟩ :=
        Tree.exists_function_of_isStatement (hcalm u hmem) hstatement hp rfl
      rw [Tree.at?_append hf] at hp
      have hin : InFunction (ts ++ s.moved s') v := by
        refine ⟨f, ⟨hfunction, u, ?_, q, hf⟩, Tree.sum_pos_iff.mpr ⟨q', _, hp, ?_⟩⟩
        · rw [Building.moved, ← hmoved, List.drop_left]
          exact List.mem_append_right _ hu
        · simp [nodeAt, Tree.shape, Shape.introductions, Shape.introduced]
      rcases h.scoping.visible v hsees with hsees | ⟨-, hfresh⟩
      · exact Nat.not_lt_of_le hnew (h.scoping.sees_lt v hsees)
      · exact hfresh hin

/-- **A name that a function binds and later hands to a `with` statement** is declared by the function,
and the `with` statement manages the variable that it declares, if nothing takes it for a lock. -/
theorem exists_managed (hs : s.Open) (ho : s.object? = o) (hnone : (s.sight x).own = none)
    (hopen : (s.sight x).isDeclared = false)
    (hother : ∀ e ∈ eventsIn .built o body, e.redefines x = false)
    (hwith : Own o (.withResources r (before ++ ⟨.name r' x, none⟩ :: after) b) es body fs)
    (hbind : .bind x r₀ ∈ es)
    (hname : Pattern.anyAccepts? locks (some (lastSegment x)) = false)
    (hrun : (stmtsNodes locks body).run s = .ok (ts, s')) :
    ∃ (v : Nat) (r₁ : Range) (initializer : Option Tree), .bind x r₁ ∈ es ∧ s.vars.size ≤ v ∧
      s'.Sees v ∧ Stands (ts ++ s'.moving) (nodeAt r₁ (.varDeclaration v initializer)) ∧
      (Pattern.anyAccepts? locks (s'.vars[v]?.bind Variable.typeName) = false → ∃ inner,
        Stands ts (nodeAt r (.usingStatement [nodeAt r' (.varAccess x (some v))] (some inner)))) := by
  have hevents := hwith.events_eq
  rw [hevents, List.forall_mem_append, List.forall_mem_append] at hother
  obtain ⟨hes, hw, hfs⟩ := hother
  obtain ⟨es₁, r₁, es₂, rfl, hfirst⟩ := exists_first_bind hbind hes
  rw [List.forall_mem_append, List.forall_mem_cons] at hes
  obtain ⟨hes₁, -, hes₂⟩ := hes
  -- the first binding declares the variable that the name has in the end
  have hnames := ((traces_stmtsNodes o body s ho).of_ok hrun).1.names hs.valid.bounded x
  rw [hevents, List.append_assoc, List.cons_append] at hnames
  obtain ⟨v, c, d, hc, hle, hv, hrest, initializer, hdecl⟩ := hnames.declared hfirst hes₁ hnone hopen
  have hend : (s'.sight x).own = some v := (hrest.reads_of_bound (by
    simp only [List.forall_mem_append]
    exact ⟨hes₂, hw, hfs⟩) hv).1
  -- and so it has it where the `with` statement is built
  obtain ⟨-, -, -, s₁, us, s₂, hs₁, ho₁, hrun', hled, hleads, hus⟩ :=
    (passes_own hwith s hs ho).of_ok hrun
  obtain ⟨w, -, d', -, -, hw', hrest', -⟩ := (hled.names x).declared hfirst hes₁ hnone hopen
  have hw₁ : (s₁.sight x).own = some w := (hrest'.reads_of_bound hes₂ hw').1
  obtain ⟨hs₂, hstep⟩ := (leaps_stmtNodes _ s₁ hs₁ ho₁).of_ok hrun'
  obtain rfl : w = v := by
    have hboth := ((hstep.trans hleads).names x).reads_of_bound
      (List.forall_mem_append.mpr ⟨hw, hfs⟩) hw₁
    exact Option.some.inj (hboth.1.symm.trans hend)
  obtain ⟨s₃, node, s₄, isLocked, inner, -, hbefore, hnode, hlock, hholder, -⟩ :=
    (runs_withResources hs₁ ho₁).of_ok hrun'
  have hw₃ : (s₃.sight x).own = some w := by
    refine ((hbefore.names x).reads_of_bound (fun e he => hw e ?_) hw₁).1
    rw [Stmt.events, resourceEvents_append]
    exact List.mem_append_left _ (List.mem_append_left _ he)
  rw [exprNode] at hnode
  cases (runs_nameNode_own hw₃).symm.trans hnode
  refine ⟨w, r₁, initializer, List.mem_append_right _ List.mem_cons_self, Nat.le_trans hc.size_le hle,
    Building.sees_of_own hend, hdecl, fun htype => ⟨asBlock r inner, ?_⟩⟩
  have hvar := Array.getElem?_eq_getElem (hs₁.valid.lt_of_sees (Building.sees_of_own hw₁))
  rw [(hstep.trans hleads).vars w _ hvar] at htype
  rw [← hbefore.vars w _ hvar] at htype
  cases (runs_isLock_name hname htype).symm.trans hlock
  exact hus _ (hholder _ (stands_of_mem List.mem_cons_self))

/-- **A node in the function around a declaration does not stand apart** from the declaration. -/
theorem LaidOut.not_standsApart {p q q' : Graph.Place} {k n : NodeId} (h : LaidOut m locks path body comments t s)
    (hk : m.graph.at? m.root p = some k) (hfunction : (m.graph.shape k).IsFunction)
    (hn : m.graph.at? k q = some n) :
    ¬ StandsApart m.graph (m.graph.above m.root (p ++ q)) (m.graph.above m.root (p ++ q')) := by
  rintro ⟨a, ha, hdeclares, hnot⟩
  rw [Graph.above_append hk] at ha hnot
  rcases List.mem_append.mp ha with ha | ha
  · exact hnot (List.mem_append_left _ ha)
  · exact not_declares_of_function h.shows h.layered h.built.outermost hk hfunction hn ha hdeclares

/-- **The nodes of a name that a function hands to a `with` statement**: the declaration and the
statement stand in the function. -/
theorem LaidOut.exists_managed_nodes (h : LaidOut m locks path stmts comments t s₀)
    (hf : Contains stmts (.routine f)) (hx : x ∉ f.parameters)
    (hother : ∀ e ∈ f.events .built, e.redefines x = false)
    (hwith : Own f.receiver (.withResources r (before ++ ⟨.name r' x, none⟩ :: after) b) es f.body fs)
    (hbind : .bind x r₀ ∈ es)
    (hname : Pattern.anyAccepts? locks (some (lastSegment x)) = false) :
    ∃ v r₁ p k q d initializer, .bind x r₁ ∈ es ∧ m.graph.at? m.root p = some k ∧
      (m.graph.shape k).IsFunction ∧ m.graph.at? k q = some d ∧
      m.graph.Says d (nodeAt r₁ (.varDeclaration v initializer)) ∧
      (Pattern.anyAccepts? locks (m.graph.variable' v).typeName = false →
        ∃ q' n a block, m.graph.at? k q' = some n ∧ m.graph.shape n = .usingStatement [a] block ∧
          m.graph.mentioned? a = some v) := by
  obtain ⟨R, hR, names, s₁, ts, s₂, shape, hs₁, rfl, hframe, hnames, hrun, hfunction, rfl, hkeeps⟩ :=
    took_of_contains h.run hf
  have hsight : (s₁.sight x).own = none ∧ (s₁.sight x).isDeclared = false := by
    simp only [Building.sight, hframe, Option.bind_some, Option.all_some, Frame.ofNames]
    exact ⟨lookup_reverse_of_not_mem (hnames ▸ hx), rfl⟩
  obtain ⟨v, r₁, initializer, hmem, hnew, hsees, hdecl, husing⟩ :=
    exists_managed hs₁ hR hsight.1 hsight.2 hother hwith hbind hname hrun
  -- what has moved to the module does not hold the declaration
  have hbuilt := (stmtsNodes_runs (E := fun _ => True) f.body (hs₁.inside _) fun _ => trivial).of_ok hrun
  have hcalm : ∀ u ∈ s₂.hoisted, u.All Shape.Calm := by
    intro u hu
    obtain ⟨p, hp⟩ := stands_singleton.mp (hkeeps.hoisted u (stands_of_mem hu))
    exact fun q a ha => (h.layered (p ++ q) a (by rw [Tree.at?_append hp, ha])).2
  have hdecl' := hbuilt.stands_of_new hs₁.valid hcalm hnew hsees hdecl
  obtain ⟨p, k, hp, hk, -, -, hklabel⟩ :=
    h.exists_node_of_stands (hkeeps.trees _ (stands_of_mem List.mem_cons_self))
  obtain ⟨q, d, hd, -, -, htold⟩ := h.exists_node_below hp hk (within_node (fun _ hu => hu) _ hdecl')
  refine ⟨v, r₁, _, k, q, d, initializer, hmem, hk, ?_, hd, htold, fun htype => ?_⟩
  · rwa [← Shape.isFunction_label, hklabel, Shape.isFunction_label]
  have hvar := Array.getElem?_eq_getElem (hbuilt.valid.lt_of_sees hsees)
  have hsame := congrArg Variable.typeName (h.shows.variable_eq v _ (hkeeps.vars v _ hvar))
  obtain ⟨inner, hstands⟩ := husing (by
    rw [hvar]
    exact (congrArg (Pattern.anyAccepts? locks) hsame.symm).trans htype)
  obtain ⟨q', n, hn, hnat, hnroot, -, hnlabel⟩ :=
    h.exists_node_below hp hk (within_node (fun _ hu => hu) _ hstands)
  obtain ⟨resources, block, hshape, hlength, -⟩ := Shape.eq_usingStatement_of_label hnlabel.symm rfl
  obtain ⟨a, rfl⟩ := List.length_eq_one_iff.mp hlength
  refine ⟨q', n, a, block, hn, hshape, ?_⟩
  have hchildren := h.forall_children hnroot hnat
  rw [Graph.children, hshape] at hchildren
  obtain ⟨⟨-, halabel⟩, -⟩ := List.forall₂_cons.mp hchildren
  rw [Graph.mentioned?_eq, ← Shape.mention?_label, halabel]
  rfl

end Source

namespace ResourceDisposal

open Source

variable {locks : List String} {named : Text.CharacterNames} {source : String} {path : Path}
  {m : Model} {body b : List Stmt}
  {f : Routine} {x : String} {r r' r₀ : Range} {before after : List Resource} {es fs : List Event}

/-- **A local variable is not reported if the function around it hands its name to a `with` statement
later**, whatever the other resources, the settings and the phrases. The name must keep its variable, be
bound before the `with` statement is built, and neither the name nor the type of the variable may be that
of a lock. -/
theorem unreported_managed (hload : load named locks source path = .ok m)
    (hbody : Stmt.ofSource? named source = some body) (hf : Contains body (.routine f))
    (hx : x ∉ f.parameters) (hother : ∀ e ∈ f.events .built, e.redefines x = false)
    (hwith : Own f.receiver (.withResources r (before ++ ⟨.name r' x, none⟩ :: after) b) es f.body fs)
    (hbind : .bind x r₀ ∈ es)
    (hname : Pattern.anyAccepts? locks (some (lastSegment x)) = false)
    {s : RuleSettings} {rule : Rule} (hr : Registry.resourceDisposal.build s = .ok rule)
    (phrases : List String) :
    ∃ v r₁, .bind x r₁ ∈ es ∧ m.DeclaresLocal r₁ v ∧
      (Pattern.anyAccepts? locks (m.graph.variable' v).typeName = false →
        ∃ nodes : List NodeId, nodes.Sublist m.nodes ∧ nodes.Nodup ∧
          (∀ d ∈ nodes, v ∉ (m.graph.shape d).introduced) ∧
          List.Forall₂ (fun d f => f.ruleId = ruleId ∧ f.severity = some s.severity ∧
              f.path = m.info.path ∧ f.span = (m.graph.location d).span) nodes
            (rule.evaluate phrases m).findings) := by
  obtain ⟨comments, t, s₀, h⟩ := exists_laidOut hload hbody
  obtain ⟨v, r₁, p, k, q, d, initializer, hmem, hk, hfunction, hd, htold, husing⟩ :=
    h.exists_managed_nodes hf hx hother hwith hbind hname
  have hat : ∀ {q n}, m.graph.at? k q = some n → m.graph.at? m.root (p ++ q) = some n := fun hn => by
    rw [Graph.at?_append, hk, Option.bind_some, hn]
  have hintroduced : v ∈ (m.graph.shape d).introduced := by
    rw [← Shape.introduced_label, htold.2, Shape.introduced_label]
    exact List.mem_singleton_self v
  refine ⟨v, r₁, hmem, declaresLocal_of_holds hload
    ⟨d, h.shows.linked.rooted.mem_preorder.mpr ⟨_, hat hd⟩, htold⟩, fun htype => ?_⟩
  obtain ⟨q', n, a, block, hn, hshape, hmentions⟩ := husing htype
  obtain ⟨-, patterns, -, -, nodes, hsublist, hnodup, hnodes, hfindings⟩ :=
    reported_iff_released_apart hload hr phrases
  refine ⟨nodes, hsublist, hnodup, fun d' hd' hv => ?_, hfindings⟩
  obtain ⟨place, v', hplace, hacquires, hapart⟩ := (hnodes d').mp hd'
  obtain rfl := h.place_unique hplace hv (hat hd) hintroduced
  obtain ⟨e, hdeclaration, -⟩ := hacquires.acquisition
  rw [hdeclaration] at hv
  cases List.mem_singleton.mp hv
  -- the `with` statement releases the variable in the same function
  have hreleases : Releases m.graph patterns.release v n :=
    .managed hshape (List.mem_singleton_self a) hmentions
  exact h.not_standsApart hk hfunction hn (hapart _ n (hat hn) hreleases)

/-- A function with a file that it hands to a `with` statement, behind a lock. -/
def managedText : String := "def f(lock):\n    s = open('x')\n    with lock, s:\n        pass\n"

/-- A module of one function that binds a name and hands it to a `with` statement behind one resource. -/
def managesSecond : List Stmt → Bool
  | [.function _ signature [.assign ra [.name rn x] value, .withResources rw' [⟨c, none⟩,
      ⟨.name r' y, none⟩] b]] =>
    decide (y = x ∧ x ∉ signature.parameters.map Parameter.name ∧
      (∀ e ∈ eventsIn .built none [.assign ra [.name rn x] value, .withResources rw'
        [⟨c, none⟩, ⟨.name r' y, none⟩] b], e.redefines x = false) ∧
      Pattern.anyAccepts? Configuration.standard.lockPatterns (some (lastSegment x)) = false)
  | _ => false

/-- The declaration of the file is not reported. -/
theorem unreported_managedText :
    ∃ m rule v r nodes, load .empty Configuration.standard.lockPatterns managedText ⟨"", ["m.py"]⟩ = .ok m ∧
      Registry.resourceDisposal.build Registry.resourceDisposal.defaultSettings = .ok rule ∧
      m.DeclaresLocal r v ∧ (∀ d ∈ nodes, v ∉ (m.graph.shape d).introduced) ∧
      List.Forall₂ (fun d f => f.span = (m.graph.location d).span) nodes
        (rule.evaluate Configuration.standard.phrases m).findings := by
  have hchecks : (Stmt.ofSource? .empty managedText).any managesSecond := by
    decide +kernel
  have hload : (load .empty Configuration.standard.lockPatterns managedText ⟨"", ["m.py"]⟩).toOption.any
      fun m => decide (∀ n ∈ m.nodes, ∀ v ∈ (m.graph.shape n).introduced,
        Pattern.anyAccepts? Configuration.standard.lockPatterns
          (m.graph.variable' v).typeName = false) := by
    decide +kernel
  obtain ⟨m, hm, htypes⟩ := exists_load_of_any hload
  obtain ⟨body, hbody, hchecks⟩ := (Option.any_eq_true _ _).mp hchecks
  rw [managesSecond.eq_def] at hchecks
  split at hchecks
  · next r signature ra rn x value rw' c r' y b =>
    obtain ⟨rfl, hx, hother, hname⟩ := of_decide_eq_true hchecks
    have hwith : Own none (.withResources rw' ([⟨c, none⟩] ++ ⟨.name r' y, none⟩ :: []) b)
        (eventsIn .built none [.assign ra [.name rn y] value]) [.assign ra [.name rn y] value,
          .withResources rw' [⟨c, none⟩, ⟨.name r' y, none⟩] b] (eventsIn .built none []) :=
      .here [_] []
    have hbind : .bind y ra ∈ eventsIn .built none [.assign ra [.name rn y] value] := by
      simp [eventsIn, Stmt.events, assignedEvents]
    obtain ⟨v, r₁, -, hdeclares, hunreported⟩ := unreported_managed hm hbody
      (.moduleFunction List.mem_cons_self) hx hother hwith hbind hname
      (s := Registry.resourceDisposal.defaultSettings) rfl Configuration.standard.phrases
    have hdeclared := hdeclares
    obtain ⟨-, n, hn, -, initializer, hshape⟩ := hdeclared
    obtain ⟨nodes, -, -, hnodes, hfindings⟩ := hunreported (of_decide_eq_true htypes n hn v (by
      rw [hshape]
      exact List.mem_singleton_self v))
    exact ⟨m, _, v, r₁, nodes, hm, rfl, hdeclares, hnodes, hfindings.imp fun {_ _} hf => hf.2.2.2⟩
  · cases hchecks

/-- A function with a file that it hands to a `with` statement, under the name of a lock. -/
def lockFileText : String :=
  "def f():\n    lock_file = open('x')\n    with lock_file:\n        pass\n"

/-- The place where a module of one function binds the name that it hands to a `with` statement. -/
def managedAt? : List Stmt → Option Range
  | [.function _ signature [.assign ra [.name rn x] value, .withResources rw' [⟨.name r' y, none⟩] b]] =>
    if y = x ∧ x ∉ signature.parameters.map Parameter.name ∧
        ∀ e ∈ eventsIn .built none [.assign ra [.name rn x] value, .withResources rw'
          [⟨.name r' y, none⟩] b], e.redefines x = false then some ra else none
  | _ => none

/-- The declaration of the file is reported: a resource with such a name is a lock, whatever it is. -/
theorem reported_lockFileText :
    ∃ m body f x r r' b es fs r₁ rule,
      load .empty Configuration.standard.lockPatterns lockFileText ⟨"", ["m.py"]⟩ = .ok m ∧
      Stmt.ofSource? .empty lockFileText = some body ∧ Contains body (.routine f) ∧ x ∉ f.parameters ∧
      (∀ e ∈ f.events .built, e.redefines x = false) ∧
      Own f.receiver (.withResources r [⟨.name r' x, none⟩] b) es f.body fs ∧ .bind x r₁ ∈ es ∧
      Registry.resourceDisposal.build Registry.resourceDisposal.defaultSettings = .ok rule ∧
      (rule.evaluate Configuration.standard.phrases m).findings.map (·.span) = [r₁.location.span] := by
  have hchecks : ((Stmt.ofSource? .empty lockFileText).bind managedAt?).any fun r₁ =>
      (load .empty Configuration.standard.lockPatterns lockFileText ⟨"", ["m.py"]⟩).toOption.any
        fun m => decide (((rule Registry.resourceDisposal.description .warning defaultPatterns).evaluate
          Configuration.standard.phrases m).findings.map (·.span) = [r₁.location.span]) := by
    decide +kernel
  obtain ⟨r₁, hr₁, hload⟩ := (Option.any_eq_true _ _).mp hchecks
  obtain ⟨body, hbody, hmanaged⟩ := Option.bind_eq_some_iff.mp hr₁
  obtain ⟨m, hm, hfindings⟩ := exists_load_of_any hload
  rw [managedAt?.eq_def] at hmanaged
  split at hmanaged
  · next r signature ra rn x value rw' r' y b =>
    split at hmanaged
    · next hnames =>
      obtain ⟨rfl, hx, hother⟩ := hnames
      cases hmanaged
      refine ⟨m, _, ⟨r, none, signature, _⟩, y, rw', r', b, _, _, r₁, _, hm, hbody,
        .moduleFunction List.mem_cons_self, hx, hother, .here [_] [], ?_, rfl,
        of_decide_eq_true hfindings⟩
      simp [eventsIn, Stmt.events, assignedEvents]
    · cases hmanaged
  · cases hmanaged

end ResourceDisposal

end ModelLint
