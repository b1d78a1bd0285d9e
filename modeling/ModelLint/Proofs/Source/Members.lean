import ModelLint.Proofs.Source.Places
import ModelLint.Proofs.Source.Steps

/-!
# The methods of a module

A module becomes a type of its name. Its functions are the methods of the type, in order, and behind
them stands the method of its own statements. Fields, classes and what moves to the module are no
methods.

* `Shape.methodName?`: the name of a method.
* `functionsOf`: the functions of a module.
* `methods_addStatement`: a function adds one method, any other statement none.
* **`methods_of_laidOut`**: the methods of the module in its unit.
-/

namespace ModelLint

/-- The name of a method. -/
def Shape.methodName? {ν : Type} (s : Shape ν) : Option String :=
  s.declared?.bind fun info => if info.kind = .method then some info.name else none

/-- The location and the name of a method. -/
def Graph.method? (g : Graph) (n : NodeId) : Option (Location × String) :=
  (g.shape n).methodName?.map fun name => (g.location n, name)

/-- The location and the name of a method. -/
def Tree.method? (t : Tree) : Option (Location × String) :=
  t.shape.methodName?.map fun name => (t.location, name)

theorem Shape.methodName?_label {ν : Type} (s : Shape ν) : s.label.methodName? = s.methodName? := by
  rw [methodName?, declared?_label, methodName?]

theorem Shape.children_type (info : DeclarationInfo) (members : List Tree) :
    (Shape.declaration info members none []).children = members := by
  simp [children, slots]

theorem Shape.methodName?_eq_none {ν : Type} {s : Shape ν} (h : ¬ s.IsFunction) :
    s.methodName? = none := by
  rw [methodName?]
  cases s <;> try rfl
  exact if_neg h

theorem Graph.method?_eq_some {g : Graph} {n : NodeId} {l : Location} {name : String}
    (h : g.method? n = some (l, name)) : g.location n = l ∧
      ∃ info, g.declaration? n = some info ∧ info.kind = .method ∧ info.name = name := by
  obtain ⟨name', hname, heq⟩ := Option.map_eq_some_iff.mp h
  cases heq
  obtain ⟨info, hinfo, hkind⟩ := Option.bind_eq_some_iff.mp hname
  split at hkind
  · next hmethod =>
    cases hkind
    exact ⟨rfl, info, (declaration?_eq g n).trans hinfo, hmethod, rfl⟩
  · cases hkind

namespace Source

open Build

variable {r : Range} {name : String} {locks : List String} {body : List Stmt} {t : Tree} {s : Building}

/-- The functions of a module, each with its location and name. -/
def functionsOf (body : List Stmt) : List (Location × String) :=
  body.filterMap fun
    | .function r signature _ => some (r.location, signature.name)
    | _ => none

/-! ## Methods -/

theorem returns_methodNode {signature : Signature} {fields : Option Names}
    {statements : Build (List Tree)} : Returns (methodNode r signature fields statements)
      fun t => t.method? = some (r.location, signature.name) := by
  rw [methodNode]
  exact .next fun _ => .next fun _ => .next fun _ => .pure rfl

theorem returns_classNode {members : List Tree} :
    Returns (classNode r name body members) fun t => t.method? = none :=
  .next fun _ => .pure rfl

theorem returns_fieldAt {modifiers : List String} {v : VariableId} {initializer : Option Tree} :
    Returns (fieldAt r modifiers name v initializer) fun t => t.method? = none :=
  .next fun _ => .next fun _ => .pure rfl

namespace ModuleParts

variable {parts : ModuleParts} {modifiers : List String} {initializer : Option Tree}

/-- The methods of a module so far. -/
def methods (parts : ModuleParts) : List (Location × String) :=
  parts.members.filterMap Tree.method?

theorem methods_addMember (h : t.method? = none) :
    methods { parts with members := parts.members ++ [t] } = parts.methods := by
  simp [methods, h]

theorem methods_addFields : (names : List String) → {parts : ModuleParts} →
    Returns (parts.addFields r modifiers initializer names) fun parts' =>
      parts'.methods = parts.methods
  | [], _ => .pure rfl
  | name :: rest, parts => by
    rw [addFields]
    refine .next fun s => ?_
    split
    · refine returns_fieldAt.bind fun t ht => fun s => ?_
      exact (methods_addFields rest s).mono fun _ _ h => h.trans (methods_addMember ht)
    · exact methods_addFields rest

theorem methods_inFrame {x : Build (List Tree)} :
    Returns (parts.inFrame x) fun parts' => parts'.methods = parts.methods :=
  .next fun _ => .next fun _ => .next fun _ => .next fun _ => .pure rfl

theorem methods_addAssignment {stmt : Stmt} {targets : List Expr} {value : Option Expr} :
    Returns (parts.addAssignment locks stmt targets value) fun parts' =>
      parts'.methods = parts.methods := by
  rw [addAssignment.eq_def]
  split
  · split
    · exact methods_inFrame
    · refine .next fun _ => ?_
      -- whatever the initializer is, its field is no method
      split <;> exact .next fun _ => .next fun _ => .next fun _ =>
        (methods_addFields _).bind fun _ h => .pure h
  · exact (methods_addFields _).bind fun _ h => h ▸ methods_inFrame

/-- **A function of a module adds a method**, and any other statement adds none. -/
theorem methods_addStatement {stmt : Stmt} : Returns (parts.addStatement locks stmt) fun parts' =>
    parts'.methods = parts.methods ++ functionsOf [stmt] := by
  have hnone : ∀ {x : Build ModuleParts},
      Returns x (fun parts' => parts'.methods = parts.methods) →
      Returns x fun parts' => parts'.methods = parts.methods ++ [] := fun hx =>
    (List.append_nil parts.methods).symm ▸ hx
  cases stmt with
  | function r signature body =>
    refine returns_methodNode.bind fun t ht => .pure ?_
    simp [methods, functionsOf, ht]
  | classType r name bases body =>
    exact .next fun _ => .next fun _ => returns_classNode.bind fun t ht =>
      .pure ((methods_addMember ht).trans (List.append_nil _).symm)
  | imports r names => exact hnone (methods_addFields names)
  | assign r targets value => exact hnone methods_addAssignment
  | annotate r target typeHint value => exact hnone methods_addAssignment
  | _ => exact hnone methods_inFrame

end ModuleParts

/-- The methods of a module are its functions, and the method of its statements behind them. -/
theorem methods_moduleNode : Runs (moduleNode locks name body) .start (fun _ => True) fun t s =>
    (∀ u ∈ s.hoisted, ¬ u.shape.IsFunction) →
      (∃ info, t.shape.declared? = some info ∧ info.kind = .type ∧ info.name = name) ∧
        ∃ own, (own = [] ∨ ∃ l, own = [(l, Graph.moduleBody)]) ∧
          t.children.filterMap Tree.method? = functionsOf body ++ own := by
  rw [moduleNode]
  refine Runs.bind (returns_any _) fun fields s₁ _ => runs_modify_bind ?_
  -- the statements done so far have added their functions
  refine Runs.bind (runs_foldlM (I := fun parts rest _ => ∃ done, done ++ rest = body ∧
    parts.methods = functionsOf done) body ?step ⟨[], rfl, rfl⟩) ?_
  case step =>
    rintro stmt - parts rest s ⟨done, hdone, h⟩
    refine (ModuleParts.methods_addStatement s).mono fun parts' s' h' => ⟨done ++ [stmt], ?_, ?_⟩
    · rw [List.append_assoc, List.singleton_append, hdone]
    · rw [h', h, functionsOf, functionsOf, functionsOf, List.filterMap_append]
  rintro parts s₂ ⟨done, hdone, h₂⟩
  rw [List.append_nil] at hdone
  subst hdone
  refine Runs.bind (Returns.foldlM (P := fun parts => parts.methods = functionsOf done)
    (fun parts e h s => ?_) _ h₂ s₂) fun parts s₃ h₃ => ?_
  · exact (ModuleParts.methods_addFields _ s).mono fun _ _ h' => h'.trans h
  refine runs_get_bind (runs_pure fun hhoisted => ⟨⟨_, rfl, rfl, rfl⟩, ?_⟩)
  have hmoved : s₃.hoisted.filterMap Tree.method? = [] := List.filterMap_eq_nil_iff.mpr fun u hu => by
    rw [Tree.method?, Shape.methodName?_eq_none (hhoisted u hu), Option.map_none]
  refine ⟨(moduleMethod? name parts.statements).toList.filterMap Tree.method?, ?_, ?_⟩
  · rcases hmethod : moduleMethod? name parts.statements with _ | t
    · exact .inl rfl
    · obtain ⟨first, -, rfl⟩ := Option.map_eq_some_iff.mp hmethod
      exact .inr ⟨_, rfl⟩
  · rw [Tree.children_node, Shape.children_type, List.filterMap_append, List.filterMap_append,
      hmoved, List.append_nil]
    exact congrArg (· ++ _) h₃

/-- **The methods of the module in its unit** are the functions of the module, and behind them that of
its own statements, if there are any. -/
theorem methods_of_laidOut {path : Path} {m : Model} {comments : List (Int × String)}
    (h : LaidOut m locks path body comments t s) :
    ∃ module info, m.graph.at? m.root [0] = some module ∧
      m.graph.declaration? module = some info ∧ info.kind = .type ∧ info.name = path.stem ∧
      ∃ own, (own = [] ∨ ∃ l, own = [(l, Graph.moduleBody)]) ∧
        (m.graph.children module).filterMap m.graph.method? = functionsOf body ++ own := by
  obtain ⟨⟨info, hinfo, hkind, hname⟩, own, hown, hmethods⟩ :=
    methods_moduleNode.of_ok h.run fun u hu => (h.built.valid.hoisted u hu).2.1
  obtain ⟨module, hmodule, -, hlabel⟩ := h.exists_node (u := t) (p := []) rfl
  refine ⟨module, info, hmodule, ?_, hkind, hname, own, hown, hmethods ▸ ?_⟩
  · rw [Graph.declaration?_eq, ← Shape.declared?_label, hlabel, Shape.declared?_label, hinfo]
  · have hchildren := h.forall_children (u := t) (p := []) hmodule rfl
    generalize m.graph.children module = ns, t.children = us at hchildren
    clear hmethods
    induction hchildren with
    | nil => rfl
    | cons htold _ ih =>
      rw [List.filterMap_cons, List.filterMap_cons, ih, Graph.method?, Tree.method?, htold.1,
        ← Shape.methodName?_label, htold.2, Shape.methodName?_label]

end Source

end ModelLint
