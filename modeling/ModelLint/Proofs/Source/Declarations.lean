import ModelLint.Proofs.Source.Contents
import ModelLint.Proofs.Source.Declaring
import ModelLint.Proofs.Source.Places

/-!
# A function declares a name once

In the nodes of a function, functions inside aside, a name has one declaration: that of its first
binding. All targets with the name are accesses to the declared variable.

* `Graph.InBody`: the nodes of a function, but those in functions inside.
* `Model.DeclaresOnce`: a function declares a name at its first binding and nowhere else.
* `LaidOut.exists_inBody`, `LaidOut.exists_near`: what stands near the trees of a function, and the
  nodes in its body.
* **`declaresOnce_of_load`**: every function of a source declares the names that it binds once.
-/

namespace ModelLint

namespace Graph

/-- A function inside another one: the declaration of its variable stands where the function does. -/
def IsLocalFunction (g : Graph) (n : NodeId) : Prop :=
  ∃ v f, g.shape n = .varDeclaration v (some f) ∧ (g.shape f).IsFunction ∧ g.location f = g.location n

/-- **A node stands in the body of a function**, but in no function inside. -/
inductive InBody (g : Graph) (k : NodeId) : NodeId → Prop
  /-- It is a child of the function. -/
  | statement {n : NodeId} : n ∈ g.children k → InBody g k n
  /-- It is a child of a node in the body that is no function inside. -/
  | part {a n : NodeId} : InBody g k a → ¬ g.IsLocalFunction a → n ∈ g.children a → InBody g k n

end Graph

/-- **A function declares a name once**: the only declaration of a variable with the name in its body
stands at the first binding. All targets of the bindings are accesses to the variable, and so is the
target of the first binding if it has a node of its own. -/
structure Model.DeclaresOnce (m : Model) (k : NodeId) (first : Source.OwnBinding)
    (rest : List Source.OwnBinding) (v : VariableId) : Prop where
  /-- The variable has the name. -/
  name : (m.graph.variable' v).name = first.name
  /-- There is one declaration, at the first binding. -/
  declaration : ∃ d, m.graph.InBody k d ∧ (∃ e, m.graph.shape d = .varDeclaration v e) ∧
    m.graph.location d = first.place.location ∧ ∀ d' w e, m.graph.InBody k d' →
      m.graph.shape d' = .varDeclaration w e → (m.graph.variable' w).name = first.name → d' = d
  /-- The first target, if it has a node of its own. -/
  target : ∀ r ∈ first.shared?, ∃ n, m.graph.InBody k n ∧ m.graph.location n = r.location ∧
    m.graph.shape n = .varAccess first.name (some v)
  /-- The other targets. -/
  targets : ∀ b ∈ rest, ∀ r ∈ b.target?, ∃ n, m.graph.InBody k n ∧ m.graph.location n = r.location ∧
    m.graph.shape n = .varAccess first.name (some v)

namespace Source

variable {locks : List String} {named : Text.CharacterNames} {source : String} {path : Path}
  {m : Model} {body : List Stmt}
  {comments : List (Int × String)} {t u w : Tree} {s : Building} {p : Graph.Place} {n k : NodeId}
  {f : Routine} {x : String} {b : OwnBinding} {rest : List OwnBinding}

/-! ## Nodes of trees -/

/-- A node stands in a unit where a tree stands in the tree of its module. -/
def NodeOf (m : Model) (t : Tree) (n : NodeId) (u : Tree) : Prop :=
  ∃ p, t.at? p = some u ∧ m.graph.at? m.root (0 :: p) = some n

theorem LaidOut.says_of_nodeOf (h : LaidOut m locks path body comments t s) (hn : NodeOf m t n u) :
    m.graph.Says n u := by
  obtain ⟨p, hu, hn⟩ := hn
  obtain ⟨u', hu', hsays⟩ := h.exists_tree hn
  cases hu.symm.trans hu'
  exact hsays

theorem LaidOut.children (h : LaidOut m locks path body comments t s) (hn : NodeOf m t n u) :
    List.Forall₂ (NodeOf m t) (m.graph.children n) u.children := by
  obtain ⟨p, hu, hn⟩ := hn
  obtain ⟨hlength, -⟩ := List.forall₂_iff_get.mp (h.forall_children hn hu)
  refine List.forall₂_iff_get.mpr ⟨hlength, fun i hi hi' => ⟨p ++ [i], ?_, ?_⟩⟩
  · rw [Tree.at?_append hu]
    exact Tree.at?_cons_eq_some.mpr ⟨_, List.getElem?_eq_getElem hi', rfl⟩
  · exact (Graph.at?_snoc_eq_some (p := 0 :: p)).mpr ⟨n, hn, List.getElem?_eq_getElem hi⟩

theorem LaidOut.exists_child (h : LaidOut m locks path body comments t s) (hn : NodeOf m t n u)
    (hw : w ∈ u.children) : ∃ d ∈ m.graph.children n, NodeOf m t d w := by
  obtain ⟨i, hi, rfl⟩ := List.mem_iff_getElem.mp hw
  obtain ⟨hlength, hall⟩ := List.forall₂_iff_get.mp (h.children hn)
  exact ⟨_, List.getElem_mem (hlength ▸ hi), hall i (hlength ▸ hi) hi⟩

theorem LaidOut.exists_child_tree (h : LaidOut m locks path body comments t s) (hn : NodeOf m t n u)
    (hk : k ∈ m.graph.children n) : ∃ w ∈ u.children, NodeOf m t k w := by
  obtain ⟨i, hi, rfl⟩ := List.mem_iff_getElem.mp hk
  obtain ⟨hlength, hall⟩ := List.forall₂_iff_get.mp (h.children hn)
  exact ⟨_, List.getElem_mem (hlength ▸ hi), hall i hi (hlength ▸ hi)⟩

/-- A node is a function inside another one exactly if its tree is. -/
theorem LaidOut.isLocalFunction_iff (h : LaidOut m locks path body comments t s)
    (hn : NodeOf m t n u) : m.graph.IsLocalFunction n ↔ u.IsLocalFunction := by
  obtain ⟨hlocation, hlabel⟩ := h.says_of_nodeOf hn
  -- the values of two declarations are functions at once
  have hvalue : ∀ {v f f'}, m.graph.shape n = .varDeclaration v f → u.shape = .varDeclaration v f' →
      List.Forall₂ (NodeOf m t) f.toList f'.toList := fun hshape hshape' => by
    simpa [Graph.children, Tree.children, hshape, hshape', Shape.children, Shape.slots]
      using h.children hn
  have hfunction : ∀ {f f'}, NodeOf m t f f' → ((m.graph.shape f).IsFunction ∧
      m.graph.location f = m.graph.location n ↔ f'.shape.IsFunction ∧ f'.location = u.location) :=
    fun hf => by
      obtain ⟨hlocation', hlabel'⟩ := h.says_of_nodeOf hf
      rw [← Shape.isFunction_label, hlabel', Shape.isFunction_label, hlocation, hlocation']
  constructor
  · rintro ⟨v, f, hshape, hf⟩
    obtain ⟨f', hshape'⟩ := Shape.eq_varDeclaration_of_label hlabel hshape
    rcases f' with _ | f'
    · cases hvalue hshape hshape'
    · exact ⟨v, f', hshape', (hfunction (List.forall₂_cons.mp (hvalue hshape hshape')).1).mp hf⟩
  · rintro ⟨v, f', hshape', hf⟩
    obtain ⟨f, hshape⟩ := Shape.eq_varDeclaration_of_label hlabel.symm hshape'
    rcases f with _ | f
    · cases hvalue hshape hshape'
    · exact ⟨v, f, hshape, (hfunction (List.forall₂_cons.mp (hvalue hshape hshape')).1).mpr hf⟩

/-- **What stands near the trees of a function has a node in the body of the function.** -/
theorem LaidOut.exists_inBody (h : LaidOut m locks path body comments t s) (hk : NodeOf m t k u)
    (hw : Near u.children w) : ∃ n, m.graph.InBody k n ∧ NodeOf m t n w := by
  induction hw with
  | root hmem =>
    obtain ⟨n, hn, hnode⟩ := h.exists_child hk hmem
    exact ⟨n, .statement hn, hnode⟩
  | child _ hopen hmem ih =>
    obtain ⟨a, ha, hnode⟩ := ih
    obtain ⟨n, hn, hnode'⟩ := h.exists_child hnode hmem
    exact ⟨n, .part ha (fun hlocal => hopen ((h.isLocalFunction_iff hnode).mp hlocal)) hn, hnode'⟩

/-- A node in the body of a function is that of a tree that stands near the trees of the function. -/
theorem LaidOut.exists_near (h : LaidOut m locks path body comments t s) (hk : NodeOf m t k u)
    (hn : m.graph.InBody k n) : ∃ w, Near u.children w ∧ NodeOf m t n w := by
  induction hn with
  | statement hmem =>
    obtain ⟨w, hw, hnode⟩ := h.exists_child_tree hk hmem
    exact ⟨w, .root hw, hnode⟩
  | part _ hopen hmem ih =>
    obtain ⟨a, ha, hnode⟩ := ih
    obtain ⟨w, hw, hnode'⟩ := h.exists_child_tree hnode hmem
    exact ⟨w, .child ha (fun hlocal => hopen ((h.isLocalFunction_iff hnode).mpr hlocal)) hw, hnode'⟩

/-! ## Functions of a source -/

theorem Building.Open.denotes {s : Building} {v : VariableId} (hs : s.Open)
    (hv : (s.sight x).own = some v) : Denotes s.vars AnyKind x v := by
  obtain ⟨frame, hframe, hlookup⟩ := Option.bind_eq_some_iff.mp hv
  exact hs.valid.frames frame (List.mem_of_head? hframe) (x, v) (mem_of_lookup hlookup)

theorem LaidOut.name_eq (h : LaidOut m locks path body comments t s) {v : VariableId}
    (hv : Denotes s.vars AnyKind x v) : (m.graph.variable' v).name = x := by
  obtain ⟨var, hvar, hname, -⟩ := hv
  have hsame := congrArg Variable.name (h.shows.variable_eq v var hvar)
  exact hsame.trans hname

/-- The target of a binding in the nodes of a function. -/
theorem LaidOut.exists_access (h : LaidOut m locks path body comments t s) (hk : NodeOf m t k u)
    {r : Range} {v : VariableId} (hr : Near u.children (nodeAt r (.varAccess x (some v)))) :
    ∃ n, m.graph.InBody k n ∧ m.graph.location n = r.location ∧
      m.graph.shape n = .varAccess x (some v) := by
  obtain ⟨n, hn, hnode⟩ := h.exists_inBody hk hr
  obtain ⟨hlocation, hlabel⟩ := h.says_of_nodeOf hnode
  exact ⟨n, hn, hlocation, Shape.label_eq_varAccess.mp hlabel⟩

/-- **A function whose statements settle a name declares it once**, if the name had no variable. -/
theorem LaidOut.declaresOnce (h : LaidOut m locks path body comments t s) {r : Range}
    {shape : Shape Tree} {s₁ s₂ : Building} {bs : List OwnBinding}
    (hk : NodeOf m t k (nodeAt r shape)) (hvars : Extends s₂.vars s.vars)
    (hsettles : Settles x [] bs shape.children [] s₁ s₂) (hnone : (s₁.sight x).own = none)
    (hfirst : bs.filter (·.name = x) = b :: rest) : ∃ v, m.DeclaresOnce k b rest v := by
  have hbinds := hsettles.binds
  rw [List.append_nil, hnone] at hbinds
  obtain ⟨v, hv, ⟨⟨initializer, hdecl⟩, hshared⟩, htargets⟩ := hbinds.first hfirst
  have hnames : ∀ c ∈ b :: rest, c.name = x := fun c hc => by
    rw [← hfirst] at hc
    exact of_decide_eq_true (List.mem_filter.mp hc).2
  obtain ⟨hname, hnames⟩ := List.forall_mem_cons.mp hnames
  subst hname
  obtain ⟨d, hd, hdnode⟩ := h.exists_inBody hk hdecl
  obtain ⟨hdlocation, hdlabel⟩ := h.says_of_nodeOf hdnode
  obtain ⟨initializer', hdshape⟩ := Shape.eq_varDeclaration_of_label hdlabel.symm rfl
  refine ⟨v,
  { name := h.name_eq ((hsettles.reaches.isOpen.denotes hv).extends hvars)
    declaration := ⟨d, hd, ⟨initializer', hdshape⟩, hdlocation, fun d' w e hd' hshape hname => ?_⟩
    target := fun r hr => h.exists_access hk (hshared r hr)
    targets := fun c hc r hr => ?_ }⟩
  · obtain ⟨u, hu, q, hq, hqnode⟩ := h.exists_near hk hd'
    have hulabel := (h.says_of_nodeOf ⟨q, hq, hqnode⟩).2
    obtain ⟨e', hushape⟩ := Shape.eq_varDeclaration_of_label hulabel hshape
    have hdeclared : Declared (shape.children ++ []) w := ⟨u, e', by rwa [List.append_nil], hushape⟩
    rcases hsettles.declares w hdeclared with hnil | ⟨y, hne, hdenotes⟩ | ⟨-, hw⟩
    · exact absurd hnil (not_declared_of_plain (List.forall_mem_nil _))
    · exact absurd ((h.name_eq (hdenotes.extends hvars)).symm.trans hname) hne
    · cases hw.symm.trans hv
      -- the variable is introduced at one place
      have hintroduced : ∀ {n e}, m.graph.shape n = .varDeclaration v e →
          v ∈ (m.graph.shape n).introduced := fun hn => by
        rw [hn]
        exact List.mem_singleton_self v
      obtain ⟨q', -, hdnode⟩ := hdnode
      rw [h.place_unique hqnode (hintroduced hshape) hdnode (hintroduced hdshape), hdnode] at hqnode
      exact (Option.some.inj hqnode).symm
  · have haccess := htargets c hc r hr
    rw [hnames c hc] at haccess
    exact h.exists_access hk haccess

/-- The statements of a function settle a name that is no parameter. -/
theorem Site.TookRoutine.settles {site : Site} {R : List Receiver} (h : site.TookRoutine locks R f)
    (hR : objectOf R = f.receiver) (hx : x ∉ f.parameters)
    (hother : ∀ e ∈ f.events .built, e.redefines x = false) (hwalrus : x ∉ f.walruses) :
    ∃ (shape : Shape Tree) (s₁ s₂ : Building), shape.IsFunction ∧
      site.Keeps [nodeAt f.range shape] s₂ ∧ (s₁.sight x).own = none ∧
        Settles x [] f.ownBindings shape.children [] s₁ s₂ := by
  obtain ⟨names, s₁, ts, s₂, shape, hs₁, rfl, hframe, hnames, hrun, hfunction, rfl, hkeeps⟩ := h
  have hsight : (s₁.sight x).own = none ∧ (s₁.sight x).isDeclared = false := by
    simp only [Building.sight, hframe, Option.bind_some, Option.all_some, Frame.ofNames]
    exact ⟨lookup_reverse_of_not_mem (hnames ▸ hx), rfl⟩
  obtain ⟨made, hsettles⟩ :=
    (declares_stmtsNodes f.body hother hwalrus s₁ hs₁ hR hsight.2).of_ok hrun
  -- nothing is left that was to be put before a statement
  have hbuilt :=
    (stmtsNodes_runs (E := fun _ => True) f.body (hs₁.inside _) fun _ => trivial).of_ok hrun
  obtain rfl : made = [] := by
    have hpending := hsettles.pending.symm.trans (hbuilt.quiet trivial)
    simpa using hpending
  exact ⟨shape, s₁, s₂, hfunction, hkeeps, hsight.1, hsettles⟩

/-- **Every function of a source declares the names that it binds once.** The name must be no parameter,
the function must not redefine it, declare it as one of another scope or bind it in an expression on the
way. -/
theorem declaresOnce_of_load (hload : load named locks source path = .ok m)
    (hbody : Stmt.ofSource? named source = some body) (hf : Contains body (.routine f))
    (hx : x ∉ f.parameters) (hother : ∀ e ∈ f.events .built, e.redefines x = false)
    (hwalrus : x ∉ f.walruses) (hfirst : f.ownBindings.filter (·.name = x) = b :: rest) :
    ∃ k ∈ m.nodes, m.graph.location k = f.range.location ∧ (m.graph.shape k).IsFunction ∧
      ∃ v, m.DeclaresOnce k b rest v := by
  obtain ⟨comments, t, s, h⟩ := exists_laidOut hload hbody
  obtain ⟨R, hR, htook⟩ := took_of_contains h.run hf
  obtain ⟨shape, s₁, s₂, hfunction, hkeeps, hnone, hsettles⟩ := htook.settles hR hx hother hwalrus
  obtain ⟨p, k, hp, hk, hmem, hlocation, hlabel⟩ :=
    h.exists_node_of_stands (hkeeps.trees _ (stands_of_mem List.mem_cons_self))
  refine ⟨k, hmem, hlocation, ?_, h.declaresOnce ⟨p, hp, hk⟩ hkeeps.vars hsettles hnone hfirst⟩
  rwa [← Shape.isFunction_label, hlabel, Shape.isFunction_label]

/-- A function with a name that a loop, an assignment, a resource and an import bind. -/
def boundText : String :=
  "def f(src):\n    for x, y in src:\n        x = y\n    with src as x:\n        import x\n    return x\n"

/-- The function of a module of one function. -/
def onlyRoutine? : List Stmt → Option Routine
  | [.function r signature body] => some ⟨r, none, signature, body⟩
  | _ => none

theorem contains_onlyRoutine (h : onlyRoutine? body = some f) : Contains body (.routine f) := by
  rw [onlyRoutine?.eq_def] at h
  split at h
  · cases h
    exact .moduleFunction List.mem_cons_self
  · cases h

/-- The name is declared by the loop, and the assignment and the resource mention its variable. -/
theorem declaresOnce_boundText :
    ∃ m k v, load .empty Configuration.standard.lockPatterns boundText ⟨"", ["m.py"]⟩ = .ok m ∧ k ∈ m.nodes ∧
      m.graph.location k = Range.location ⟨⟨1, 0⟩, ⟨6, 12⟩⟩ ∧ m.DeclaresOnce k
        (.among "x" ⟨⟨2, 8⟩, ⟨2, 9⟩⟩) [.alone "x" ⟨⟨3, 8⟩, ⟨3, 13⟩⟩ ⟨⟨3, 8⟩, ⟨3, 9⟩⟩,
          .alone "x" ⟨⟨4, 9⟩, ⟨4, 12⟩⟩ ⟨⟨4, 16⟩, ⟨4, 17⟩⟩, .bare "x" ⟨⟨5, 8⟩, ⟨5, 16⟩⟩] v := by
  have hchecks : ((Stmt.ofSource? .empty boundText).bind onlyRoutine?).any fun f =>
      decide (f.range = ⟨⟨1, 0⟩, ⟨6, 12⟩⟩ ∧ "x" ∉ f.parameters ∧
        (∀ e ∈ f.events .built, e.redefines "x" = false) ∧ "x" ∉ f.walruses ∧
        f.ownBindings.filter (·.name = "x") = [.among "x" ⟨⟨2, 8⟩, ⟨2, 9⟩⟩,
          .alone "x" ⟨⟨3, 8⟩, ⟨3, 13⟩⟩ ⟨⟨3, 8⟩, ⟨3, 9⟩⟩,
          .alone "x" ⟨⟨4, 9⟩, ⟨4, 12⟩⟩ ⟨⟨4, 16⟩, ⟨4, 17⟩⟩, .bare "x" ⟨⟨5, 8⟩, ⟨5, 16⟩⟩]) := by
    decide +kernel
  have hload : (load .empty Configuration.standard.lockPatterns boundText ⟨"", ["m.py"]⟩).toOption.any
      fun _ => true := by
    decide +kernel
  obtain ⟨m, hm, -⟩ := exists_load_of_any hload
  obtain ⟨f, hf, hchecks⟩ := (Option.any_eq_true _ _).mp hchecks
  obtain ⟨body, hbody, hf⟩ := Option.bind_eq_some_iff.mp hf
  obtain ⟨hrange, hx, hother, hwalrus, hfirst⟩ := of_decide_eq_true hchecks
  obtain ⟨k, hk, hlocation, -, v, honce⟩ :=
    declaresOnce_of_load hm hbody (contains_onlyRoutine hf) hx hother hwalrus hfirst
  exact ⟨m, k, v, hm, hk, hrange ▸ hlocation, honce⟩

/-- A class with a method under a condition. -/
def conditionalText : String := "class C:\n    if True:\n        def m(self):\n            x = 1\n"

/-- The method of a module of one class with one method under a condition. -/
def conditionalMethod? : List Stmt → Option Routine
  | [.classType _ _ _ [.choose _ _ [.function r signature body] []]] =>
    some ⟨r, signature.object?, signature, body⟩
  | _ => none

/-- The name that the method binds is declared nowhere: a statement in a class that is no function,
class or assignment has no nodes. -/
theorem not_declared_conditionalText :
    ∃ m f b, load .empty Configuration.standard.lockPatterns conditionalText ⟨"", ["m.py"]⟩ = .ok m ∧
      (Stmt.ofSource? .empty conditionalText).bind conditionalMethod? = some f ∧ "x" ∉ f.parameters ∧
      (∀ e ∈ f.events .built, e.redefines "x" = false) ∧ "x" ∉ f.walruses ∧
      f.ownBindings = [b] ∧ b.name = "x" ∧
      ∀ n ∈ m.nodes, ∀ v e, m.graph.shape n ≠ .varDeclaration v e := by
  have hchecks : ((Stmt.ofSource? .empty conditionalText).bind conditionalMethod?).any fun f =>
      decide ("x" ∉ f.parameters ∧ (∀ e ∈ f.events .built, e.redefines "x" = false) ∧
        "x" ∉ f.walruses ∧ f.ownBindings = [.alone "x" ⟨⟨4, 12⟩, ⟨4, 17⟩⟩ ⟨⟨4, 12⟩, ⟨4, 13⟩⟩]) := by
    decide +kernel
  have hload : (load .empty Configuration.standard.lockPatterns conditionalText ⟨"", ["m.py"]⟩).toOption.any
      fun m => decide (∀ n ∈ m.nodes, (m.graph.shape n).isA "VariableDeclaration" = false) := by
    decide +kernel
  obtain ⟨m, hm, hnodes⟩ := exists_load_of_any hload
  obtain ⟨f, hf, hchecks⟩ := (Option.any_eq_true _ _).mp hchecks
  obtain ⟨hx, hother, hwalrus, hbindings⟩ := of_decide_eq_true hchecks
  refine ⟨m, f, _, hm, hf, hx, hother, hwalrus, hbindings, rfl, fun n hn v e hshape => ?_⟩
  have hkind := of_decide_eq_true hnodes n hn
  rw [hshape] at hkind
  cases hkind

end Source

end ModelLint
