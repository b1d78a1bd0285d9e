import ModelLint.Proofs.Source.Disposal
import ModelLint.Proofs.Source.Tracing

/-!
# Where the nodes of a source stand

The unit of a source is laid out from the tree that its statements were built into, so each node has
the place, the location and the words of a part of that tree.

* `LaidOut`: a unit with the tree that it was laid out from.
* `exists_laidOut`: the unit of a source is one.
* **`LaidOut.exists_node`**: what stands in the tree has a node at its place.
-/

namespace ModelLint

/-- A node has the location of a tree, and says what the tree says itself. -/
def Graph.Says (g : Graph) (n : NodeId) (u : Tree) : Prop :=
  g.location n = u.location ∧ (g.shape n).label = u.shape.label

namespace Source

variable {locks : List String} {named : Text.CharacterNames} {source : String} {path : Path}
  {m : Model} {body : List Stmt}
  {comments : List (Int × String)} {t u : Tree} {s : Building} {p : Graph.Place} {n : NodeId}

/-- **A unit is laid out from the tree of a module**, which was built of its statements. -/
structure LaidOut (m : Model) (locks : List String) (path : Path) (body : List Stmt)
    (comments : List (Int × String)) (t : Tree) (s : Building) : Prop where
  /-- The tree was built. -/
  run : (moduleNode locks path.stem body).run .start = .ok (t, s)
  /-- It is sound. -/
  built : ModuleBuilt IsName ((body.flatMap Stmt.initializers).flatMap Expr.walruses = []) t s
  /-- No declaration is pending. -/
  pending : s.pending = []
  /-- Its nodes are layered. -/
  layered : t.All Shape.Layered
  /-- The unit shows it. -/
  shows : m.Shows s.vars (unitOf path comments t)
  /-- Nodes stand where it says. -/
  located : ∀ p n u, m.graph.at? m.root p = some n → (unitOf path comments t).at? p = some u →
    m.graph.location n = u.location

/-- The unit of a source is laid out from the tree of its statements. -/
theorem exists_laidOut (hload : load named locks source path = .ok m)
    (hbody : Stmt.ofSource? named source = some body) :
    ∃ comments t s, LaidOut m locks path body comments t s := by
  obtain ⟨body', comments, h⟩ := accepted_of_load hload
  obtain rfl : body = body' := Option.some.inj (hbody.symm.trans h.body)
  obtain ⟨t, s, ht, hlink⟩ := h.exists_run hload
  have hbuilt := h.moduleBuilt ht
  have hvars : ∀ v, 0 < (unitOf path comments t).sum (Shape.introductions v) → v < s.vars.size :=
    fun v hv => hbuilt.lt_size hv
  obtain ⟨-, hroot, hskeleton⟩ := Model.linked_ofTree hvars rfl hlink
  refine ⟨comments, t, s, ht, hbuilt, (h.exists_load_iff ht).mp ⟨m, hload⟩,
    ((gives_moduleNode _ Building.layered_start).of_ok ht).1, Model.shows_ofTree hvars rfl hlink, ?_⟩
  intro p n u hn hu
  obtain ⟨k, hk, hlays⟩ := (Graph.lays_ofTree s.vars _).at? hu
  rw [hroot, hskeleton.at?_eq, hk] at hn
  cases hn
  rw [hskeleton.location_eq, Graph.location, hlays.node_eq]

/-- **What stands in the tree has a node at its place** in the unit. -/
theorem LaidOut.exists_node (h : LaidOut m locks path body comments t s) (hu : t.at? p = some u) :
    ∃ n, m.graph.at? m.root (0 :: p) = some n ∧ m.graph.Says n u := by
  have hat : (unitOf path comments t).at? (0 :: p) = some u :=
    Tree.at?_cons_eq_some.mpr ⟨t, rfl, hu⟩
  obtain ⟨n, hn, hlabel⟩ := h.shows.exists_node _ _ hat
  exact ⟨n, hn, h.located _ _ _ hn hat, hlabel⟩

theorem LaidOut.exists_tree (h : LaidOut m locks path body comments t s)
    (hn : m.graph.at? m.root (0 :: p) = some n) :
    ∃ u, t.at? p = some u ∧ m.graph.Says n u := by
  obtain ⟨u, hat, hlabel⟩ := h.shows.exists_tree _ _ hn
  obtain ⟨c, hc, hu⟩ := Tree.at?_cons_eq_some.mp hat
  obtain rfl := eq_of_mem_children_unitOf (List.mem_of_getElem? hc)
  exact ⟨u, hu, h.located _ _ _ hn hat, hlabel⟩

theorem LaidOut.forall_children (h : LaidOut m locks path body comments t s)
    (hn : m.graph.at? m.root (0 :: p) = some n) (hu : t.at? p = some u) :
    List.Forall₂ m.graph.Says (m.graph.children n) u.children := by
  have hnode : ∀ (i : Nat) d, (m.graph.children n)[i]? = some d → ∃ c, u.children[i]? = some c ∧
      m.graph.Says d c := by
    intro i d hd
    have hat : m.graph.at? m.root (0 :: (p ++ [i])) = some d :=
      (Graph.at?_snoc_eq_some (p := 0 :: p)).mpr ⟨n, hn, hd⟩
    obtain ⟨c, hc, htold⟩ := h.exists_tree hat
    rw [Tree.at?_append hu] at hc
    obtain ⟨c', hc', hroot⟩ := Tree.at?_cons_eq_some.mp hc
    cases hroot
    exact ⟨c, hc', htold⟩
  have htree : ∀ (i : Nat) c, u.children[i]? = some c → ∃ d, (m.graph.children n)[i]? = some d := by
    intro i c hc
    have hat : t.at? (p ++ [i]) = some c := by
      rw [Tree.at?_append hu]
      exact Tree.at?_cons_eq_some.mpr ⟨c, hc, rfl⟩
    obtain ⟨d, hd, -⟩ := h.exists_node hat
    obtain ⟨n', hn', hd'⟩ := (Graph.at?_snoc_eq_some (p := 0 :: p)).mp hd
    cases hn.symm.trans hn'
    exact ⟨d, hd'⟩
  refine List.forall₂_iff_get.mpr ⟨Nat.le_antisymm ?_ ?_, fun i hi hi' => ?_⟩
  · refine Nat.le_of_not_lt fun hlt => ?_
    obtain ⟨c, hc, -⟩ := hnode _ _ (List.getElem?_eq_getElem hlt)
    exact Nat.lt_irrefl _ (List.getElem?_eq_some_iff.mp hc).1
  · refine Nat.le_of_not_lt fun hlt => ?_
    obtain ⟨d, hd⟩ := htree _ _ (List.getElem?_eq_getElem hlt)
    exact Nat.lt_irrefl _ (List.getElem?_eq_some_iff.mp hd).1
  · obtain ⟨c, hc, hcd⟩ := hnode i _ (List.getElem?_eq_getElem hi)
    obtain rfl := Option.some.inj ((List.getElem?_eq_getElem hi').symm.trans hc)
    exact hcd

/-- **What stands in a part of the tree has a node below that of the part.** -/
theorem LaidOut.exists_node_below (h : LaidOut m locks path body comments t s) {v : Tree}
    (hu : t.at? p = some u) (hn : m.graph.at? m.root (0 :: p) = some n) (hv : Stands [u] v) :
    ∃ q k, m.graph.at? n q = some k ∧ t.at? (p ++ q) = some v ∧
      m.graph.at? m.root (0 :: (p ++ q)) = some k ∧ m.graph.Says k v := by
  obtain ⟨q, hq⟩ := stands_singleton.mp hv
  have hat : t.at? (p ++ q) = some v := by rw [Tree.at?_append hu, hq]
  obtain ⟨k, hk, htold⟩ := h.exists_node hat
  refine ⟨q, k, ?_, hat, hk, htold⟩
  rwa [← List.cons_append, Graph.at?_append, hn, Option.bind_some] at hk

theorem LaidOut.exists_node_of_stands (h : LaidOut m locks path body comments t s)
    (hu : Stands [t] u) : ∃ p n, t.at? p = some u ∧ m.graph.at? m.root (0 :: p) = some n ∧
      n ∈ m.nodes ∧ m.graph.Says n u := by
  obtain ⟨p, hp⟩ := stands_singleton.mp hu
  obtain ⟨n, hn, htold⟩ := h.exists_node hp
  exact ⟨p, n, hp, hn, h.shows.linked.rooted.mem_preorder.mpr ⟨_, hn⟩, htold⟩

theorem LaidOut.place_unique (h : LaidOut m locks path body comments t s) {q : Graph.Place}
    {k : NodeId} {v : VariableId} (hn : m.graph.at? m.root p = some n)
    (hv : v ∈ (m.graph.shape n).introduced) (hk : m.graph.at? m.root q = some k)
    (hv' : v ∈ (m.graph.shape k).introduced) : p = q := by
  have hpos : 0 < (unitOf path comments t).sum (Shape.introductions v) := by
    obtain ⟨u, hu, hlabel⟩ := h.shows.exists_tree _ _ hn
    rw [← Shape.introduced_label, hlabel, Shape.introduced_label] at hv
    exact Tree.sum_pos_iff.mpr ⟨p, u, hu, List.count_pos_iff.mpr hv⟩
  have hsum : (unitOf path comments t).sum (Shape.introductions v) = 1 := by
    rw [unitOf, introductions_unit, ← Nat.add_zero (t.sum _)]
    have hbalance := h.built.balance v
    rw [h.pending] at hbalance
    rw [← Tree.sums_nil, hbalance]
    exact born_of_lt (h.built.lt_size hpos)
  obtain ⟨i, hi⟩ := List.mem_iff_getElem?.mp hv
  obtain ⟨j, hj⟩ := List.mem_iff_getElem?.mp hv'
  obtain ⟨_, -, hunique⟩ := h.shows.introducedOnce hsum
  exact congrArg Prod.fst ((hunique (p, i) ⟨n, hn, hi⟩).trans (hunique (q, j) ⟨k, hk, hj⟩).symm)

/-- No declaration stands below a function. -/
theorem LaidOut.not_isOutermost (h : LaidOut m locks path body comments t s) {f a : NodeId} {i : Nat}
    {q : Graph.Place} (hf : m.graph.at? m.root (0 :: p) = some f)
    (hfunction : (m.graph.shape f).IsFunction)
    (ha : m.graph.at? m.root (0 :: (p ++ i :: q)) = some a) :
    (m.graph.shape a).isOutermost = false := by
  obtain ⟨u, hu, -, hlabel⟩ := h.exists_tree hf
  obtain ⟨c, hc, -, hlabel'⟩ := h.exists_tree ha
  rw [Tree.at?_append hu] at hc
  rw [← Shape.isFunction_label, hlabel, Shape.isFunction_label] at hfunction
  rw [← Shape.isOutermost_label, hlabel', Shape.isOutermost_label]
  refine Tree.not_isOutermost_of_isFunction (fun r b hb => ?_) hfunction hc
  exact h.layered (p ++ r) b (by rw [Tree.at?_append hu, hb])

end Source

end ModelLint
