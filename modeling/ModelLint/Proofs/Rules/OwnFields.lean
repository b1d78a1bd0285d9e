import ModelLint.Proofs.Rules.Diagnostics
import ModelLint.Proofs.Rules.ImportTime
import ModelLint.Proofs.Source.OwnFields
import ModelLint.Proofs.Source.Places

/-!
# Access to the own fields of an object

An access to a member of the own object is skipped if the member is not known. What a method of the
class assigns on its own, not as a part of a tuple, a list or a starred target, is known in all methods.

* `Model.DeclaresField`: a class has a field.
* `Graph.Accesses`: a node is an access to a field of the own object.
* **`SharedMap.resolved_ownField`**: what the attribute becomes in the methods of the class.
-/

namespace ModelLint

/-- The class at a range has a field with a variable. -/
def Model.DeclaresField (m : Model) (r : Source.Range) (name : String) (v : VariableId) : Prop :=
  (m.graph.variable' v).kind = .field ∧ ∃ k ∈ m.nodes, m.graph.location k = r.location ∧
    m.graph.Declares .type k ∧ ∃ d ∈ m.graph.children k, ∃ info, m.graph.declaration? d = some info ∧
      info.kind = .field ∧ info.name = name ∧ info.var = some v

/-- A node is an access to a field of the own object. -/
def Graph.Accesses (g : Graph) (n : NodeId) (r : Source.Range) (name : String) (v : VariableId) : Prop :=
  g.location n = r.location ∧ g.shape n = .fieldAccess name none (some v)

theorem Shape.eq_fieldAccess_of_label {ν μ : Type} {s : Shape ν} {s' : Shape μ} {name : String}
    {w : Option VariableId} (h : s.label = s'.label) (hs : s = .fieldAccess name none w) :
    s' = .fieldAccess name none w := by
  subst hs
  rcases s' with _ | _ | _ | _ | _ | _ | _ | _ | _ | _ | _ | _ | _ | _ | ⟨_, _ | _, _⟩ | _ | _ | _ |
    _ | _ | _ | _ <;> simp [label, traverse] at h
  obtain ⟨rfl, rfl⟩ := h
  rfl

theorem SharedMap.accessTarget?_eq_target? (g : Graph) (n : NodeId) :
    accessTarget? g n = (g.shape n).target? := by
  rw [accessTarget?]
  cases g.shape n <;> rfl

namespace Source

open Build

variable {locks : List String} {path : Path} {m : Model} {body : List Stmt} {r : Range} {a : String}
  {v : VariableId} {comments : List (Int × String)} {t u : Tree} {s : Building} {n : NodeId}
  {info : DeclarationInfo} {ts : List Tree}

theorem accesses_of_attributeAt (h : m.graph.Says n (attributeAt r a v)) : m.graph.Accesses n r a v :=
  ⟨h.1, Shape.eq_fieldAccess_of_label h.2.symm rfl⟩

/-- A node operates on the field only if its tree does. -/
theorem LaidOut.accesses_target {p : Graph.Place} (h : LaidOut m locks path body comments t s)
    (hn : m.graph.at? m.root (0 :: p) = some n) (hp : t.at? p = some u) (htold : m.graph.Says n u)
    (htarget : ∀ w, u.shape.target? = some w → w = attributeAt r a v) {target : NodeId}
    (hat : SharedMap.accessTarget? m.graph n = some target) : m.graph.Accesses target r a v := by
  have hrel := Shape.rel_target? htold.2 (h.forall_children hn hp)
  rw [← SharedMap.accessTarget?_eq_target?, hat] at hrel
  rcases hw : u.shape.target? with _ | w
  all_goals
    rw [hw] at hrel
    cases hrel
  next hsays => exact accesses_of_attributeAt (htarget w hw ▸ hsays)

theorem LaidOut.declaresField (h : LaidOut m locks path body comments t s)
    (hclass : Stands [t] (nodeAt r (.declaration info ts none []))) (hkind : info.kind = .type)
    (hfield : ∃ l q modifiers initializer, fieldNode l q modifiers a v initializer ∈ ts) :
    m.DeclaresField r a v := by
  obtain ⟨p, k, hp, hk, hmem, hlocation, hlabel⟩ := h.exists_node_of_stands hclass
  obtain ⟨l, q, modifiers, initializer, hfield⟩ := hfield
  obtain ⟨i, hi⟩ := List.mem_iff_getElem?.mp hfield
  have hat : t.at? (p ++ [i]) = some (fieldNode l q modifiers a v initializer) := by
    rw [Tree.at?_append hp]
    refine Tree.at?_cons_eq_some.mpr ⟨_, ?_, rfl⟩
    rwa [nodeAt, Tree.children_node, Shape.children_type]
  obtain ⟨d, hd, -, hdlabel⟩ := h.exists_node hat
  obtain ⟨k', hk', hchild⟩ := (Graph.at?_snoc_eq_some (p := 0 :: p)).mp hd
  cases hk.symm.trans hk'
  have hdeclared : m.graph.declaration? d = (fieldNode l q modifiers a v initializer).shape.declared? := by
    rw [Graph.declaration?_eq, ← Shape.declared?_label, hdlabel, Shape.declared?_label]
  obtain ⟨-, -, -, w, hw, var, hvar, -, hfieldKind⟩ := h.built.sound _ _ hat
  cases hw
  have hsame := congrArg Variable.kind (h.shows.variable_eq v var hvar)
  refine ⟨hsame.trans hfieldKind, k, hmem, hlocation, ?_, d, List.mem_of_getElem? hchild, _, hdeclared,
    rfl, rfl, rfl⟩
  exact hkind ▸ Graph.declares_of_label hlabel rfl

end Source

namespace SharedMap

open Source

variable {locks : List String} {named : Text.CharacterNames} {source : String} {path : Path}
  {m : Model} {body members : List Stmt}
  {r : Range} {name a q : String} {bases : List Expr} {signature : Signature} {o : Option String}
  {stmt : Stmt}

/-- **An attribute that a method of a class assigns to its object on its own is a field of the class**,
and in all methods that have an object it is an access to the variable of the field. No call and no
indexer on it is skipped, whatever the patterns, the settings and the phrases. -/
theorem resolved_ownField (hload : load named locks source path = .ok m)
    (hbody : Stmt.ofSource? named source = some body) (hclass : Contains body (.type r name bases members))
    (hstmt : InMethod members signature (.statement o stmt)) (hassign : stmt.AssignsOwn q a)
    (hobject : signature.object? = some q)
    (hpositional : signature.parameters.head?.any Parameter.isPositional)
    {s : RuleSettings} {rule : Rule} (hr : Registry.sharedMap.build s = .ok rule)
    (phrases : List String) :
    ∃ v nodes, m.DeclaresField r a v ∧ nodes.Sublist m.nodes ∧ nodes.Nodup ∧
      List.Forall₂ (Skipped m) nodes (rule.evaluate phrases m).diagnostics ∧
      ∀ signature' q' r' r'', signature'.object? = some q' →
        (InMethod members signature' (.expression (some q') (.attribute r' (.name r'' q') a)) →
          ∃ n ∈ m.nodes, m.graph.Accesses n r' a v) ∧
        ∀ e : Expr, e.OperatesOn (.attribute r' (.name r'' q') a) →
          InMethod members signature' (.expression (some q') e) →
          ∃ n ∈ m.nodes, m.graph.IsNodeOf n e ∧ n ∉ nodes ∧
            ∀ target, accessTarget? m.graph n = some target → m.graph.Accesses target r' a v := by
  obtain ⟨comments, t, s₀, h⟩ := exists_laidOut hload hbody
  obtain ⟨R, htook⟩ := took_of_contains h.run hclass
  obtain ⟨v, c, info, ts, hkind, hnode, hfield, hv, hmembers⟩ :=
    htook.field (mem_classBindings hstmt hassign hobject hpositional)
  obtain ⟨p, -, -, -, -, rfl⟩ := build_eq_ok hr
  obtain ⟨nodes, hsublist, hnodup, hmem, hskipped⟩ :=
    (rule Registry.sharedMap.description s.severity p).skipped_evaluate
      h.shows.linked.rooted.nodup_preorder
  refine ⟨v, nodes, h.declaresField hnode hkind hfield, hsublist, hnodup,
    hskipped.imp fun _ _ => diagnostic?_rule.mp, fun signature' q' r' r'' hobject' =>
      ⟨fun haccess => ?_, fun e he hoperation => ?_⟩⟩
  · obtain ⟨R', hown, -, htook'⟩ := Site.TookMember.took hmembers haccess hobject' hv
    obtain ⟨-, n, -, -, hn, htold⟩ := h.exists_node_of_stands (htook'.attribute hown)
    exact ⟨n, hn, accesses_of_attributeAt htold⟩
  · obtain ⟨R', hown, -, htook'⟩ := Site.TookMember.took hmembers hoperation hobject' hv
    obtain ⟨u, hu, hlocation, hshapes, htarget⟩ := htook'.operation hown he
    obtain ⟨place, n, hplace, hat, hn, htold⟩ := h.exists_node_of_stands hu
    have haccess : ∀ target, accessTarget? m.graph n = some target → m.graph.Accesses target r' a v :=
      fun _ => h.accesses_target hat hplace htold htarget
    -- a node that is skipped operates on a member that is not known
    refine ⟨n, hn, isNodeOf_of_shapes htold hlocation hshapes, fun hskip => ?_, haccess⟩
    obtain ⟨-, text, htext⟩ := (hmem n).mp hskip
    obtain ⟨target, name', ⟨htarget', hshape⟩, -⟩ := diagnostic?_rule.mp htext
    have hknown := (haccess target htarget').2
    rw [hshape] at hknown
    cases hknown

/-- A class with a method that assigns an attribute and one that writes to it. -/
def ownText : String :=
  "class C:\n    def m(self):\n        self.a = {}\n    def n(this, k):\n        this.a[k] = 1\n"

/-- A class with a method that assigns an attribute of its object and one that writes to an element of
the attribute on line 5. -/
def assignsOwn : List Stmt → Bool
  | [.classType _ _ _ [.function _ signature [.assign _ [.attribute _ (.name _ q) a] _],
      .function _ signature' [.assign _ [.subscript r (.attribute _ (.name _ q') a') _] _]]] =>
    decide (a = "a" ∧ a' = a ∧ signature.object? = some q ∧ signature'.object? = some q' ∧
      signature.parameters.head?.any Parameter.isPositional ∧ r.start.line = 5)
  | _ => false

/-- The write is one to the field, and it is not skipped. -/
theorem resolved_ownText :
    ∃ m r v nodes n target rule,
      load .empty Configuration.standard.lockPatterns ownText ⟨"", ["m.py"]⟩ = .ok m ∧
      Registry.sharedMap.build Registry.sharedMap.defaultSettings = .ok rule ∧
      m.DeclaresField r "a" v ∧
      List.Forall₂ (Skipped m) nodes (rule.evaluate Configuration.standard.phrases m).diagnostics ∧
      n ∉ nodes ∧ (m.graph.location n).line = 5 ∧ accessTarget? m.graph n = some target ∧
      m.graph.shape target = .fieldAccess "a" none (some v) := by
  have hchecks : (Stmt.ofSource? .empty ownText).any assignsOwn := by
    decide +kernel
  have hload : (load .empty Configuration.standard.lockPatterns ownText ⟨"", ["m.py"]⟩).toOption.any
      fun _ => true := by
    decide +kernel
  obtain ⟨m, hm, -⟩ := exists_load_of_any hload
  obtain ⟨body, hbody, hchecks⟩ := (Option.any_eq_true _ _).mp hchecks
  rw [assignsOwn.eq_def] at hchecks
  split at hchecks
  · next r name bases r₁ signature ra ra' rq q a value r₂ signature' rb rs rb' rq' q' a' k value' =>
    obtain ⟨rfl, rfl, hobject, hobject', hpositional, hline⟩ := of_decide_eq_true hchecks
    obtain ⟨v, nodes, hdeclares, -, -, hskipped, hmethods⟩ := resolved_ownField hm hbody
      (.moduleClass List.mem_cons_self) ⟨r₁, _, List.mem_cons_self, .single (.routineStatement
        List.mem_cons_self)⟩ (.assign List.mem_cons_self) hobject hpositional
      (s := Registry.sharedMap.defaultSettings) rfl Configuration.standard.phrases
    obtain ⟨n, hn, ⟨hlocation, target, index, hshape⟩, hnot, haccess⟩ :=
      (hmethods signature' q' rb' rq' hobject').2 (.subscript rs _ k) .indexer
        ⟨r₂, _, List.mem_cons_of_mem _ List.mem_cons_self, hobject' ▸ .tail (.single (.routineStatement
          List.mem_cons_self)) (.statementOperand (by simp [Stmt.operands, targetsOperands,
            targetOperands]))⟩
    have htarget : accessTarget? m.graph n = some target := by
      rw [accessTarget?, hshape]
    refine ⟨m, r, v, nodes, n, target, _, hm, rfl, hdeclares, hskipped, hnot, ?_, htarget,
      (haccess target htarget).2⟩
    rw [hlocation]
    exact congrArg Nat.cast hline
  · cases hchecks

/-- A class with a method that assigns two attributes at once and writes to one of them. -/
def tupleText : String :=
  "class C:\n    def m(self):\n        self.a, self.b = {}, {}\n        self.a['k'] = 1\n"

/-- The attribute that a method of a class assigns to its object as the first of two. -/
def firstOfPair? : List Stmt → Option String
  | [.classType _ _ _ [.function _ signature [.assign _ [.compound _ .tuple
      [.attribute _ (.name _ q) a, _]] _, _]]] =>
    if signature.object? = some q ∧ signature.parameters.head?.any Parameter.isPositional then some a
    else none
  | _ => none

/-- The write is skipped: what is assigned as a part of a tuple is no field of the class. -/
theorem skipped_tupleText :
    ∃ m body r name bases members signature ra rt r' r'' q a e value rule,
      load .empty Configuration.standard.lockPatterns tupleText ⟨"", ["m.py"]⟩ = .ok m ∧
      Stmt.ofSource? .empty tupleText = some body ∧ Contains body (.type r name bases members) ∧
      InMethod members signature (.statement (some q)
        (.assign ra [.compound rt .tuple [.attribute r' (.name r'' q) a, e]] value)) ∧
      signature.object? = some q ∧ signature.parameters.head?.any Parameter.isPositional ∧
      Registry.sharedMap.build Registry.sharedMap.defaultSettings = .ok rule ∧
      (rule.evaluate Configuration.standard.phrases m).diagnostics =
        ["m.py:4: [unsafe-shared-map-access] candidate skipped: Cannot resolve member '" ++ a ++
          "' at line 4"] := by
  have hchecks : ((Stmt.ofSource? .empty tupleText).bind firstOfPair?).any fun a =>
      (load .empty Configuration.standard.lockPatterns tupleText ⟨"", ["m.py"]⟩).toOption.any
        fun m => decide (((SharedMap.rule Registry.sharedMap.description .error
          SharedMap.defaultPatterns).evaluate Configuration.standard.phrases m).diagnostics =
            ["m.py:4: [unsafe-shared-map-access] candidate skipped: Cannot resolve member '" ++ a ++
              "' at line 4"]) := by
    decide +kernel
  obtain ⟨a, ha, hload⟩ := (Option.any_eq_true _ _).mp hchecks
  obtain ⟨body, hbody, hpair⟩ := Option.bind_eq_some_iff.mp ha
  obtain ⟨m, hm, hdiagnostics⟩ := exists_load_of_any hload
  rw [firstOfPair?.eq_def] at hpair
  split at hpair
  · next r name bases r₁ signature ra rt r' r'' q a' e value stmt =>
    split at hpair
    · next hnames =>
      obtain ⟨hobject, hpositional⟩ := hnames
      cases hpair
      refine ⟨m, _, r, name, bases, _, signature, ra, rt, r', r'', q, a, e, value, _, hm, hbody,
        .moduleClass List.mem_cons_self, ⟨r₁, _, List.mem_cons_self, hobject ▸ .single (.routineStatement
          List.mem_cons_self)⟩, hobject, hpositional, rfl, of_decide_eq_true hdiagnostics⟩
    · cases hpair
  · cases hpair

end SharedMap

end ModelLint
