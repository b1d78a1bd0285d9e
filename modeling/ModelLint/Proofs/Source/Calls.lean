import ModelLint.Proofs.Source.Contents

/-!
# Calls and indexers

The node of an expression has its place. The node of a call or an indexer has its kind too, and holds
the node of what the call or the indexer operates on.

* `Expr.Shapes`, **`returns_exprNode`**: what the node of an expression says.
* `Site.Took.exists_node`: an expression that was built has a node.
* `Expr.OperatesOn`, `Shape.target?`: what a call or an indexer operates on.
-/

namespace ModelLint

namespace Source

open Build

variable {R : List Receiver} {site : Site} {r : Range}

/-! ## Nodes of expressions -/

/-- The kind of node that a call or an indexer becomes. -/
def Expr.Shapes {ν : Type} (e : Expr) (shape : Shape ν) : Prop :=
  match e with
  | .subscript _ _ _ => ∃ target index, shape = .elementAccess target index
  | .call _ _ _ _ => (∃ name type qualifier arguments,
      shape = .methodCall name type qualifier arguments) ∨
        ∃ typeName arguments, shape = .objectCreation typeName arguments
  | _ => True

theorem Expr.shapes_label {ν : Type} {e : Expr} {shape : Shape ν} :
    e.Shapes shape.label ↔ e.Shapes shape := by
  cases e <;> cases shape <;> simp [Shapes, Shape.label, Shape.traverse]

theorem returns_nameNode {id : String} :
    Returns (nameNode r id) fun t => t.location = r.location := by
  refine .next fun v => ?_
  split
  · exact .pure rfl
  · split
    · exact .next fun v => .pure rfl
    · exact .pure rfl

/-- **The node of an expression** has its place, and its kind if it is a call or an indexer. -/
theorem returns_exprNode (e : Expr) :
    Returns (exprNode e) fun t => t.location = e.range.location ∧ e.Shapes t.shape := by
  cases e with
  | name r id =>
    rw [exprNode]
    exact returns_nameNode.mono fun t ht => ⟨ht, trivial⟩
  | constant r value hasLetter =>
    rw [exprNode]
    exact .pure ⟨rfl, trivial⟩
  | «attribute» r value attr =>
    rw [exprNode]
    refine .next fun b => ?_
    split
    · exact .next fun v => .pure ⟨rfl, trivial⟩
    · exact .next fun t => .pure ⟨rfl, trivial⟩
  | subscript r value index =>
    rw [exprNode]
    exact .next fun t => .next fun u => .pure ⟨rfl, _, _, rfl⟩
  | call r function args keywords =>
    cases function with
    | «attribute» fr value attr =>
      rw [exprNode]
      refine .next fun created => ?_
      split
      · exact .next fun ts => .next fun us => .pure ⟨rfl, .inr ⟨_, _, rfl⟩⟩
      · refine .next fun b => ?_
        dsimp only
        split <;> exact .next fun q => .next fun ts => .next fun us =>
          .pure ⟨rfl, .inl ⟨_, _, _, _, rfl⟩⟩
    | name fr id =>
      rw [exprNode]
      refine .next fun created => .next fun ts => .next fun us => ?_
      split
      · exact .pure ⟨rfl, .inr ⟨_, _, rfl⟩⟩
      · exact .pure ⟨rfl, .inl ⟨_, _, _, _, rfl⟩⟩
    | _ =>
      rw [exprNode]
      · exact .next fun q => .next fun ts => .next fun us => .pure ⟨rfl, .inl ⟨_, _, _, _, rfl⟩⟩
      all_goals simp
  | compound r form operands =>
    rw [exprNode]
    exact .next fun ts => .pure ⟨rfl, trivial⟩
  | dict r entries =>
    rw [exprNode]
    exact .next fun ts => .next fun us => .pure ⟨rfl, trivial⟩
  | walrus r target id value =>
    rw [exprNode]
    exact .next fun t => .next fun u => .pure ⟨rfl, trivial⟩
  | lambda r parameters body =>
    rw [exprNode]
    exact .next fun names => .next fun t => .pure ⟨rfl, trivial⟩
  | comprehension r kind elements first rest =>
    rw [exprNode]
    exact .next fun t => .next fun p => .pure ⟨rfl, trivial⟩

/-- **An expression that was built** has a node, which was built of it. -/
theorem Site.Took.exists_run {e : Expr} (h : site.Took R (exprNodes [e])) :
    ∃ s t s', s.receivers = R ∧ (exprNode e).run s = .ok (t, s') ∧ Stands site.roots t := by
  obtain ⟨s, ts, s', -, hR, hrun, hkeeps⟩ := h
  have hsingle : Returns (exprNodes [e]) fun ts => ∃ t, ts = [t] := by
    simp only [exprNodes, pure_bind]
    exact .next fun t => .pure ⟨t, rfl⟩
  obtain ⟨t, rfl⟩ := (hsingle s).of_ok hrun
  exact ⟨s, t, s', hR, run_exprNodes_singleton.mp hrun,
    hkeeps.trees t (stands_of_mem List.mem_cons_self)⟩

theorem Site.Took.exists_node {e : Expr} (h : site.Took R (exprNodes [e])) :
    ∃ t, Stands site.roots t ∧ t.location = e.range.location ∧ e.Shapes t.shape := by
  obtain ⟨s, t, s', -, hrun, ht⟩ := h.exists_run
  exact ⟨t, ht, (returns_exprNode e s).of_ok hrun⟩

/-! ## Operations -/

/-- **A call or an indexer operates on an expression.** -/
inductive Expr.OperatesOn : Expr → Expr → Prop
  /-- An element of it is taken. -/
  | indexer {r : Range} {e index : Expr} : OperatesOn (.subscript r e index) e
  /-- A member of it is called. -/
  | member {r fr : Range} {e : Expr} {name : String} {args : List Expr} {keywords : List Keyword} :
    OperatesOn (.call r (.attribute fr e name) args keywords) e
  /-- It is called itself. -/
  | call {r : Range} {e : Expr} {args : List Expr} {keywords : List Keyword} :
    OperatesOn (.call r e args keywords) e

end Source

/-- What a call or an indexer operates on. -/
def Shape.target? {ν : Type} : Shape ν → Option ν
  | .methodCall _ _ qualifier _ => qualifier
  | .elementAccess target _ => some target
  | _ => none

theorem Shape.rel_target? {ν μ : Type} {R : ν → μ → Prop} {s : Shape ν} {s' : Shape μ}
    (hlabel : s.label = s'.label) (h : List.Forall₂ R s.children s'.children) :
    Option.Rel R s.target? s'.target? := by
  cases s <;> cases s' <;> simp [label, traverse] at hlabel
  case methodCall.methodCall name type qualifier args name' type' qualifier' args' =>
    rcases qualifier with _ | q <;> rcases qualifier' with _ | q' <;> simp at hlabel
    · exact .none
    · simp only [children, slots, List.flatMap_cons, Option.toList_some, List.singleton_append] at h
      exact .some (List.forall₂_cons.mp h).1
  case elementAccess.elementAccess target index target' index' =>
    simp only [children, slots, List.flatMap_cons, List.singleton_append] at h
    exact .some (List.forall₂_cons.mp h).1
  all_goals exact .none

/-- A node is that of an expression: it has its place and its kind. -/
def Graph.IsNodeOf (g : Graph) (n : NodeId) (e : Source.Expr) : Prop :=
  g.location n = e.range.location ∧ e.Shapes (g.shape n)

theorem Source.isNodeOf_of_shapes {g : Graph} {n : NodeId} {u : Tree} {e : Expr} (h : g.Says n u)
    (hlocation : u.location = e.range.location) (hshapes : e.Shapes u.shape) : g.IsNodeOf n e :=
  ⟨h.1.trans hlocation, Expr.shapes_label.mp (h.2 ▸ Expr.shapes_label.mpr hshapes)⟩

end ModelLint
