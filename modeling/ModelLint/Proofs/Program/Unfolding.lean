import Mathlib.Data.List.Basic
import Mathlib.Data.List.Induction
import ModelLint.Program.Link

/-!
# The unfolding of a graph

A graph with shared nodes or cycles unfolds into a tree, which may be infinite. A **place** in that
tree is a list of positions among children, from the top down; a node that is shared, listed twice
or on a cycle stands at several places.

* `Graph.at?`: the node at a place, `Graph.ownerAt`: the node it is met under.
* `Graph.Closed`: a graph whose references lead to stored nodes and variables. Graphs of objects
  that hold each other are always closed.
* `Graph.SameSkeleton`: two graphs that differ in owners and scopes only; they have one unfolding.
* `Graph.Linkable`: the unfolding below a unit is free of repetitions, of foreign owners and of
  mentions that lead nowhere. `Proofs/Program/Linking.lean` shows that linking decides it.
* `Graph.Owned`: what linking leaves behind.
-/

namespace ModelLint

namespace Graph

/-- A position among the children of a node, then one among the children found there, and so on. -/
abbrev Place := List Nat

variable (g : Graph)

/-- The node at a place below a node. -/
def at? : NodeId → Place → Option NodeId
  | n, [] => some n
  | n, i :: place => (g.children n)[i]?.bind fun c => at? c place

/-- The node under which the unfolding meets a place; the root is met under none. -/
def ownerAt (root : NodeId) (place : Place) : Option NodeId :=
  if place = [] then none else g.at? root place.dropLast

variable {g} {root n m : NodeId} {p q : Place} {i : Nat}

@[simp] theorem at?_nil : g.at? n [] = some n := rfl

theorem at?_cons : g.at? n (i :: p) = (g.children n)[i]?.bind (g.at? · p) := rfl

theorem at?_append : g.at? n (p ++ q) = (g.at? n p).bind (g.at? · q) := by
  induction p generalizing n with
  | nil => rfl
  | cons i p ih =>
    rw [List.cons_append, at?_cons, at?_cons, Option.bind_assoc]
    exact congrArg _ (funext fun c => ih)

theorem at?_snoc : g.at? n (p ++ [i]) = (g.at? n p).bind fun m => (g.children m)[i]? := by
  rw [at?_append]
  cases g.at? n p with
  | none => rfl
  | some m =>
    rw [Option.bind_some, Option.bind_some, at?_cons]
    cases (g.children m)[i]? <;> rfl

theorem at?_snoc_eq_some {c : NodeId} :
    g.at? n (p ++ [i]) = some c ↔ ∃ m, g.at? n p = some m ∧ (g.children m)[i]? = some c := by
  rw [at?_snoc, Option.bind_eq_some_iff]

@[simp] theorem ownerAt_nil : g.ownerAt root [] = none := rfl

@[simp] theorem ownerAt_snoc : g.ownerAt root (p ++ [i]) = g.at? root p := by
  rw [ownerAt, if_neg (by simp), List.dropLast_concat]

/-- All nodes and variables that the nodes hold are in the store. -/
structure Closed (g : Graph) : Prop where
  /-- Children are stored nodes. -/
  children_lt : ∀ n < g.nodes.size, ∀ c ∈ g.children n, c < g.nodes.size
  /-- Introduced variables are stored variables. -/
  introduced_lt : ∀ n < g.nodes.size, ∀ v ∈ (g.shape n).introduced, v < g.vars.size

theorem Closed.at?_lt (hg : g.Closed) (hroot : root < g.nodes.size) (h : g.at? root p = some n) :
    n < g.nodes.size := by
  induction p using List.reverseRecOn generalizing n with
  | nil => cases h; exact hroot
  | append_singleton p i ih =>
    obtain ⟨m, hm, hc⟩ := at?_snoc_eq_some.mp h
    exact hg.children_lt m (ih hm) n (List.mem_of_getElem? hc)

/-- Two graphs differ in the owners of nodes and the scopes of variables only. -/
structure SameSkeleton (g g' : Graph) : Prop where
  /-- No shape changes. -/
  shape_eq : ∀ n, g'.shape n = g.shape n
  /-- No place in the source changes. -/
  location_eq : ∀ n, g'.location n = g.location n
  /-- No node comes or goes. -/
  nodes_size : g'.nodes.size = g.nodes.size
  /-- No variable comes or goes. -/
  vars_size : g'.vars.size = g.vars.size
  /-- No variable changes but for its scope. -/
  variable_eq : ∀ v, { g'.variable' v with scope := none } = { g.variable' v with scope := none }

namespace SameSkeleton

variable {g₁ g₂ g₃ : Graph}

theorem refl (g : Graph) : g.SameSkeleton g :=
  ⟨fun _ => rfl, fun _ => rfl, rfl, rfl, fun _ => rfl⟩

theorem trans (h : g₁.SameSkeleton g₂) (h' : g₂.SameSkeleton g₃) : g₁.SameSkeleton g₃ where
  shape_eq n := (h'.shape_eq n).trans (h.shape_eq n)
  location_eq n := (h'.location_eq n).trans (h.location_eq n)
  nodes_size := h'.nodes_size.trans h.nodes_size
  vars_size := h'.vars_size.trans h.vars_size
  variable_eq v := (h'.variable_eq v).trans (h.variable_eq v)

theorem setOwner (g : Graph) (n : NodeId) (owner : Option NodeId) :
    g.SameSkeleton (g.setOwner n owner) :=
  ⟨fun m => shape_setOwner g n m owner, fun m => location_setOwner g n m owner,
    size_setOwner g n owner, rfl, fun _ => rfl⟩

theorem setScope (g : Graph) (v : VariableId) (scope : NodeId) :
    g.SameSkeleton (g.setScope v scope) := by
  refine ⟨fun _ => rfl, fun _ => rfl, rfl, size_setScope g v scope, fun w => ?_⟩
  rw [variable'_setScope]
  split <;> rfl

theorem children_eq (h : g₁.SameSkeleton g₂) (n : NodeId) : g₂.children n = g₁.children n :=
  congrArg Shape.children (h.shape_eq n)

theorem at?_eq (h : g₁.SameSkeleton g₂) (n : NodeId) (p : Place) : g₂.at? n p = g₁.at? n p := by
  induction p generalizing n with
  | nil => rfl
  | cons i p ih =>
    rw [at?_cons, at?_cons, h.children_eq]
    exact congrArg _ (funext ih)

theorem closed (h : g₁.SameSkeleton g₂) (hg : g₁.Closed) : g₂.Closed := by
  refine ⟨fun n hn c hc => ?_, fun n hn v hv => ?_⟩
  · rw [h.nodes_size] at hn ⊢
    exact hg.children_lt n hn c (h.children_eq n ▸ hc)
  · rw [h.nodes_size] at hn
    rw [h.vars_size]
    exact hg.introduced_lt n hn v (h.shape_eq n ▸ hv)

end SameSkeleton

/-- A node that the unfolding meets introduces the variable. -/
def Introduces (g : Graph) (root : NodeId) (v : VariableId) : Prop :=
  ∃ p n, g.at? root p = some n ∧ v ∈ (g.shape n).introduced

/-- **What linking asks of the unit at a node.** -/
structure Linkable (g : Graph) (root : NodeId) : Prop where
  /-- No node is met twice. -/
  place_unique : ∀ p q n, g.at? root p = some n → g.at? root q = some n → p = q
  /-- Nobody owns the unit. -/
  root_free : g.owner root = none
  /-- A node that is met has no owner yet, or the node that it is met under. -/
  owner_free : ∀ p n, g.at? root p = some n → ∀ c ∈ g.children n,
    g.owner c = none ∨ g.owner c = some n
  /-- No variable is introduced twice, neither by two nodes nor by one. -/
  introduced_unique : ∀ p q m n (i j : Nat) v, g.at? root p = some m → g.at? root q = some n →
    (g.shape m).introduced[i]? = some v → (g.shape n).introduced[j]? = some v → p = q ∧ i = j
  /-- A variable that is mentioned is introduced. -/
  variable_known : ∀ p n name var, g.at? root p = some n → g.shape n = .varAccess name var →
    ∃ v, var = some v ∧ g.Introduces root v
  /-- A member that is known is introduced. -/
  member_known : ∀ p n name qualifier v, g.at? root p = some n →
    g.shape n = .fieldAccess name qualifier (some v) → g.Introduces root v

/-- **What linking leaves behind** in the graph `g'`, if the unit of `g` is linkable. -/
structure Owned (g : Graph) (root : NodeId) (g' : Graph) : Prop where
  /-- The unit has no owner. -/
  owner_root : g'.owner root = none
  /-- The owner of any other node is the node it is a child of, of which there is but one. -/
  owner_child : ∀ p n, g.at? root p = some n → ∀ c ∈ g.children n, g'.owner c = some n
  /-- A local variable belongs to the owner of its declaration. -/
  scope_local : ∀ p n v initializer, g.at? root p = some n →
    g.shape n = .varDeclaration v initializer → (g'.variable' v).scope = g'.owner n
  /-- A field belongs to the owner of its declaration. -/
  scope_field : ∀ p n info members initializer body v, g.at? root p = some n →
    g.shape n = .declaration info members initializer body → info.var = some v →
      (g'.variable' v).scope = g'.owner n
  /-- A parameter of a method belongs to the method. -/
  scope_parameter : ∀ p n info members initializer body, g.at? root p = some n →
    g.shape n = .declaration info members initializer body → ∀ v ∈ info.parameters,
      (g'.variable' v).scope = some n
  /-- A caught exception belongs to its handler. -/
  scope_caught : ∀ p n types v body, g.at? root p = some n →
    g.shape n = .catchClause types (some v) body → (g'.variable' v).scope = some n
  /-- A parameter of an anonymous function belongs to the function. -/
  scope_lambda : ∀ p n parameters isAsync body, g.at? root p = some n →
    g.shape n = .lambda parameters isAsync body → ∀ v ∈ parameters,
      (g'.variable' v).scope = some n

end Graph

end ModelLint
