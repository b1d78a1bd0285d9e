import ModelLint.Proofs.Program.Ancestors

/-!
# Walking through a unit

A walk takes a node from a stack and puts its children there, the first one on top. In a linked unit it
lists the nodes below in the order of the recursive pre-order. What is around a node is found the other
way round, along the owners, and both ways agree.

* `Graph.walkTo`: the loop over the stack. `Rooted.walkTo_eq`: it lists the pre-orders of the stack.
* `Rooted.sublist_preorder`: the path to a node is a part of the pre-order.
* `Rooted.enclosing_eq`: the innermost node of a kind around a node is the last one in pre-order.
* `Graph.Traversed`, **`traversed_of_linked`**: walks and chains of owners in a linked unit.
-/

namespace ModelLint

namespace Graph

variable {g : Graph} {root n d a : NodeId} {q : Place} {fuel : Nat} {stack : List NodeId}

/-- The nodes that a walk from a stack comes to in a number of turns. Each turn takes the topmost node
and puts its children on the stack. -/
def walkTo (g : Graph) : Nat → List NodeId → List NodeId
  | 0, _ => []
  | _ + 1, [] => []
  | turns + 1, n :: stack => n :: g.walkTo turns (g.children n ++ stack)

namespace Rooted

/-! ## Walks -/

/-- **A walk lists the pre-orders of the nodes on its stack**, one behind the other. -/
theorem walkTo_eq (hg : g.Rooted root) (hstack : ∀ n ∈ stack, n ∈ g.preorder root)
    (hfuel : (stack.flatMap g.preorder).length ≤ fuel) :
    g.walkTo fuel stack = stack.flatMap g.preorder := by
  induction fuel generalizing stack with
  | zero =>
    rw [Nat.le_zero, List.length_eq_zero_iff] at hfuel
    rw [hfuel, walkTo]
  | succ fuel ih =>
    cases stack with
    | nil => rfl
    | cons n stack =>
      obtain ⟨hn, hstack⟩ := List.forall_mem_cons.mp hstack
      obtain ⟨p, hp⟩ := hg.mem_preorder.mp hn
      have hsplit : (n :: stack).flatMap g.preorder =
          n :: (g.children n ++ stack).flatMap g.preorder := by
        rw [List.flatMap_cons, hg.preorder_eq hp, List.cons_append, List.flatMap_append]
      rw [hsplit, List.length_cons] at hfuel
      rw [hsplit, walkTo, ih (fun m hm => ?_) (Nat.le_of_succ_le_succ hfuel)]
      rcases List.mem_append.mp hm with hm | hm
      · exact hg.mem_of_child hn hm
      · exact hstack m hm

theorem length_preorder_le (hg : g.Rooted root) (hn : n ∈ g.preorder root) :
    (g.preorder n).length ≤ g.nodes.size := by
  have hstored : g.preorder n ⊆ List.range g.nodes.size := by
    intro d hd
    obtain ⟨p, hp⟩ := hg.mem_preorder.mp (hg.mem_of_mem_preorder hn hd)
    exact List.mem_range.mpr (hg.closed.at?_lt hg.root_lt hp)
  have hle := (hg.nodup_preorder_of_mem hn).subperm hstored |>.length_le
  rwa [List.length_range] at hle

/-! ## Paths -/

/-- The path to a node, the node included, is a part of the pre-order. -/
theorem sublist_preorder (hg : g.Rooted root) (hn : n ∈ g.preorder root) (hd : g.at? n q = some d) :
    (g.above n q ++ [d]).Sublist (g.preorder n) := by
  obtain ⟨p, hp⟩ := hg.mem_preorder.mp hn
  induction q generalizing n p with
  | nil =>
    cases hd
    rw [hg.preorder_eq hp]
    exact List.singleton_sublist.mpr List.mem_cons_self
  | cons i q ih =>
    rw [at?_cons] at hd
    obtain ⟨c, hc, hd⟩ := Option.bind_eq_some_iff.mp hd
    have hchild : c ∈ g.children n := List.mem_of_getElem? hc
    have hcat : g.at? root (p ++ [i]) = some c := at?_snoc_eq_some.mpr ⟨n, hp, hc⟩
    have hbelow := ih (hg.mem_of_child hn hchild) hd (p ++ [i]) hcat
    have hflat : (g.preorder c).Sublist ((g.children n).flatMap g.preorder) :=
      List.sublist_flatten_of_mem (List.mem_map_of_mem hchild)
    rw [hg.preorder_eq hp, above, hc, Option.map_some, Option.getD_some, List.cons_append]
    exact (hbelow.trans hflat).cons_cons n

/-- In pre-order the nodes around a node come from the outermost to the innermost. -/
theorem filter_preorder (hg : g.Rooted root) (hd : d ∈ g.preorder root) :
    (g.preorder root).filter (· ∈ g.ancestors d) = (g.ancestors d).reverse := by
  obtain ⟨p, hp⟩ := hg.mem_preorder.mp hd
  have hpath : (g.ancestors d).reverse.Sublist (g.preorder root) := by
    rw [hg.ancestors_eq hp, List.reverse_reverse]
    exact (List.sublist_append_left _ _).trans (hg.sublist_preorder hg.root_mem hp)
  have hkept : (g.ancestors d).reverse.Sublist ((g.preorder root).filter (· ∈ g.ancestors d)) := by
    have hall : (g.ancestors d).reverse.filter (· ∈ g.ancestors d) = (g.ancestors d).reverse :=
      List.filter_eq_self.mpr fun a ha => decide_eq_true (List.mem_reverse.mp ha)
    rw [← hall]
    exact hpath.filter _
  -- both have no repetitions and the same members, so neither is longer
  have hback : (g.preorder root).filter (· ∈ g.ancestors d) ⊆ (g.ancestors d).reverse := by
    intro a ha
    exact List.mem_reverse.mpr (of_decide_eq_true (List.mem_filter.mp ha).2)
  exact (hkept.eq_of_length_le ((hg.nodup_preorder.filter _).subperm hback).length_le).symm

theorem nodup_ancestors (hg : g.Rooted root) (hd : d ∈ g.preorder root) : (g.ancestors d).Nodup := by
  rw [← List.nodup_reverse, ← hg.filter_preorder hd]
  exact hg.nodup_preorder.filter _

/-- **The innermost node of a kind around a node** is the last one in pre-order. -/
theorem enclosing_eq (hg : g.Rooted root) (hd : d ∈ g.preorder root) (kind : String) :
    g.enclosing kind d =
      ((g.preorder root).filter fun a => a ∈ g.ancestors d && g.isA kind a).getLast? := by
  have hsplit : (g.preorder root).filter (fun a => a ∈ g.ancestors d && g.isA kind a) =
      (g.ancestors d).reverse.filter (g.isA kind) := by
    rw [← hg.filter_preorder hd, List.filter_filter]
    exact List.filter_congr fun a _ => Bool.and_comm _ _
  rw [hsplit, List.filter_reverse, List.getLast?_reverse, List.head?_filter, enclosing]

/-! ## Chains of owners -/

theorem isChain_ancestors (hg : g.Rooted root) (hd : d ∈ g.preorder root) :
    (d :: g.ancestors d).IsChain fun a b => g.owner a = some b := by
  refine hg.forall_mem (P := fun d => (d :: g.ancestors d).IsChain fun a b => g.owner a = some b)
    ?_ ?_ d hd
  · rw [hg.ancestors_root]
    exact .singleton _
  · intro n hn ih c hc
    rw [hg.ancestors_child hn hc]
    exact ih.cons_cons (hg.owner_of_child hn hc)

theorem getLast?_ancestors (hg : g.Rooted root) (hd : d ∈ g.preorder root) :
    (d :: g.ancestors d).getLast? = some root := by
  refine hg.forall_mem (P := fun d => (d :: g.ancestors d).getLast? = some root) ?_ ?_ d hd
  · rw [hg.ancestors_root]
    rfl
  · intro n hn ih c hc
    rw [hg.ancestors_child hn hc, List.getLast?_cons_cons, ih]

end Rooted

/-! ## Linked units -/

/-- **Walks and chains of owners in a unit agree.** A walk is finished after as many turns as there are
nodes; further turns find an empty stack. -/
structure Traversed (g : Graph) (root : NodeId) : Prop where
  /-- The loop over the stack lists the recursive pre-order. -/
  walk : ∀ n ∈ g.preorder root, ∀ turns ≥ g.nodes.size, g.walkTo turns [n] = g.preorder n
  /-- The pre-order is a node, then the pre-orders of its children. -/
  recursive : ∀ n ∈ g.preorder root, g.preorder n = n :: (g.children n).flatMap g.preorder
  /-- All nodes are listed that are reached from the unit. -/
  complete : ∀ n, n ∈ g.preorder root ↔ ∃ p, g.at? root p = some n
  /-- Each of them is listed once. -/
  once : (g.preorder root).Nodup
  /-- A node is below the nodes that are around it, and below no other ones. -/
  below_iff : ∀ n ∈ g.preorder root, ∀ d ∈ g.preorder root, d ∈ g.descendants n ↔ n ∈ g.ancestors d
  /-- What is around a node is found from owner to owner. -/
  owners : ∀ d ∈ g.preorder root, (d :: g.ancestors d).IsChain fun a b => g.owner a = some b
  /-- The chain of owners has no repetition. -/
  owners_once : ∀ d ∈ g.preorder root, (d :: g.ancestors d).Nodup
  /-- It ends at the unit, which has no owner. -/
  owners_end : ∀ d ∈ g.preorder root,
    (d :: g.ancestors d).getLast? = some root ∧ g.owner root = none
  /-- The innermost node of a kind around a node comes last in pre-order. -/
  innermost : ∀ d ∈ g.preorder root, ∀ kind, g.enclosing kind d =
    ((g.preorder root).filter fun a => a ∈ g.ancestors d && g.isA kind a).getLast?

theorem Rooted.traversed (hg : g.Rooted root) : g.Traversed root where
  walk n hn turns hturns := by
    have hlength : ([n].flatMap g.preorder).length ≤ turns := by
      rw [List.flatMap_singleton]
      exact Nat.le_trans (hg.length_preorder_le hn) hturns
    rw [hg.walkTo_eq (List.forall_mem_singleton.mpr hn) hlength, List.flatMap_singleton]
  recursive n hn := by
    obtain ⟨p, hp⟩ := hg.mem_preorder.mp hn
    exact hg.preorder_eq hp
  complete n := hg.mem_preorder
  once := hg.nodup_preorder
  below_iff n hn d hd := by
    rw [hg.mem_descendants_iff hn]
    exact and_iff_right hd
  owners d hd := hg.isChain_ancestors hd
  owners_once d hd := List.nodup_cons.mpr ⟨hg.not_mem_ancestors hd, hg.nodup_ancestors hd⟩
  owners_end d hd := ⟨hg.getLast?_ancestors hd, hg.owner_root⟩
  innermost d hd kind := hg.enclosing_eq hd kind

end Graph

namespace Model

/-- **Walks and chains of owners agree in every linked unit.** -/
theorem traversed_of_linked {m : Model} (h : m.Linked) : m.graph.Traversed m.root :=
  h.rooted.traversed

/-- In a function that returns its parameter the innermost statement around the access to the parameter
is the return. -/
theorem traversed_identityUnit :
    let m : Model := ⟨(Graph.identityUnit.link 0).1, 0⟩
    m.Linked ∧ m.graph.Traversed m.root ∧ m.nodes = [0, 1, 2, 3] ∧ m.graph.ancestors 3 = [2, 1, 0] ∧
      m.graph.enclosing "Statement" 3 = some 2 := by
  have hlinked : Model.Linked ⟨(Graph.identityUnit.link 0).1, 0⟩ :=
    ⟨Graph.identityUnit, Graph.closed_identityUnit, by decide, ⟨_, _, rfl⟩, rfl⟩
  exact ⟨hlinked, traversed_of_linked hlinked, by decide, by decide, by decide⟩

end Model

end ModelLint
