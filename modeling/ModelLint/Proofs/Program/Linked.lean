import ModelLint.Proofs.Program.Linking

/-!
# Linked units

The unfolding of a linked unit is finite and meets every node once, so that a node has one place
and one path from the unit, `Graph.above`. The owners lead this path back.

* `Graph.Rooted`: the invariant of a linked unit. `Model.Linked.rooted`: linking establishes it.
* `Rooted.ancestors_eq`: the ancestors of a node are its path, read from the inside.
* `Rooted.mem_preorder`, `Rooted.nodup_preorder`: the pre-order lists the nodes that the unfolding
  meets, each once.
* **`Rooted.preorder_eq`**: the pre-order is a node, then the pre-orders of its children.
-/

namespace ModelLint

namespace Graph

/-- The nodes that the unfolding passes on the way to a place, the first one first. -/
def above (g : Graph) : NodeId → Place → List NodeId
  | _, [] => []
  | n, i :: p => n :: ((g.children n)[i]?.map fun c => above g c p).getD []

variable {g : Graph} {root n m a : NodeId} {p q : Place} {i d : Nat}

@[simp] theorem above_nil : g.above n [] = [] := rfl

theorem above_snoc (h : g.at? n p = some m) : g.above n (p ++ [i]) = g.above n p ++ [m] := by
  induction p generalizing n with
  | nil =>
    cases h
    cases hc : (g.children m)[i]? <;> simp [above, hc]
  | cons j p ih =>
    rw [at?_cons] at h
    obtain ⟨c, hc, hp⟩ := Option.bind_eq_some_iff.mp h
    rw [List.cons_append, above, above, hc, Option.map_some, Option.map_some, Option.getD_some,
      Option.getD_some, ih hp, List.cons_append]

/-- A node of the path stands at a place on the way, and what precedes it is its own path. -/
theorem split_above {before after : List NodeId} (h : g.at? n p = some m)
    (heq : g.above n p = before ++ a :: after) :
    ∃ q i r, p = q ++ i :: r ∧ g.at? n q = some a ∧ g.above n q = before := by
  induction p using List.reverseRecOn generalizing m after with
  | nil => simp at heq
  | append_singleton p j ih =>
    obtain ⟨k, hk, -⟩ := at?_snoc_eq_some.mp h
    rw [above_snoc hk] at heq
    rcases List.eq_nil_or_concat' after with rfl | ⟨after, b, rfl⟩
    · obtain ⟨hbefore, hlast⟩ := List.append_inj' heq rfl
      cases hlast
      exact ⟨p, j, [], rfl, hk, hbefore⟩
    · rw [← List.cons_append, ← List.append_assoc] at heq
      obtain ⟨q, i, r, rfl, hq, hbefore⟩ := ih hk (List.append_inj' heq rfl).1
      exact ⟨q, i, r ++ [j], by simp, hq, hbefore⟩

/-! ## The invariant -/

/-- **The invariant of a linked unit**: the unfolding meets no node twice, and the owner of a node
is the node that it is met under. -/
structure Rooted (g : Graph) (root : NodeId) : Prop where
  /-- All references lead somewhere. -/
  closed : g.Closed
  /-- The unit is a stored node. -/
  root_lt : root < g.nodes.size
  /-- No node is met twice. -/
  place_unique : ∀ p q n, g.at? root p = some n → g.at? root q = some n → p = q
  /-- The unit has no owner. -/
  owner_root : g.owner root = none
  /-- A node owns its children. -/
  owner_child : ∀ p n, g.at? root p = some n → ∀ c ∈ g.children n, g.owner c = some n

namespace Rooted

theorem at?_take (h : g.at? root p = some n) (k : Nat) : ∃ m, g.at? root (p.take k) = some m := by
  rw [← List.take_append_drop k p, at?_append] at h
  obtain ⟨m, hm, -⟩ := Option.bind_eq_some_iff.mp h
  exact ⟨m, hm⟩

/-- A place is less deep than there are nodes: the nodes on the way to it differ. -/
theorem length_lt (hg : g.Rooted root) (h : g.at? root p = some n) :
    p.length < g.nodes.size := by
  choose node hnode using at?_take h
  have hmaps : ∀ k ∈ Finset.range (p.length + 1), node k ∈ Finset.range g.nodes.size :=
    fun k _ => Finset.mem_range.mpr (hg.closed.at?_lt hg.root_lt (hnode k))
  have hinj : Set.InjOn node (Finset.range (p.length + 1)) := by
    intro k hk l hl heq
    have htake := hg.place_unique _ _ _ (hnode k) (heq ▸ hnode l)
    have hlength := congrArg List.length htake
    simp only [Finset.coe_range, Set.mem_Iio] at hk hl
    rw [List.length_take, List.length_take] at hlength
    omega
  have hcard := Finset.card_le_card_of_injOn node hmaps hinj
  rw [Finset.card_range, Finset.card_range] at hcard
  omega

/-! ## Owners -/

theorem owner_snoc (hg : g.Rooted root) (hm : g.at? root p = some m)
    (h : g.at? root (p ++ [i]) = some n) : g.owner n = some m := by
  obtain ⟨m', hm', hc⟩ := at?_snoc_eq_some.mp h
  cases hm.symm.trans hm'
  exact hg.owner_child p m hm n (List.mem_of_getElem? hc)

theorem ancestorsTo_eq (hg : g.Rooted root) (h : g.at? root p = some n) (hd : p.length ≤ d) :
    g.ancestorsTo d n = (g.above root p).reverse := by
  induction p using List.reverseRecOn generalizing n d with
  | nil =>
    cases h
    cases d with
    | zero => rfl
    | succ d => rw [ancestorsTo, hg.owner_root]; rfl
  | append_singleton p i ih =>
    obtain ⟨m, hm, -⟩ := at?_snoc_eq_some.mp h
    rw [List.length_append, List.length_singleton] at hd
    obtain ⟨d, rfl⟩ : ∃ e, d = e + 1 := ⟨d - 1, by omega⟩
    rw [ancestorsTo, hg.owner_snoc hm h, above_snoc hm, List.reverse_append]
    exact congrArg (m :: ·) (ih hm (by omega))

/-- **The ancestors of a node** are the nodes on its path, the innermost first. -/
theorem ancestors_eq (hg : g.Rooted root) (h : g.at? root p = some n) :
    g.ancestors n = (g.above root p).reverse :=
  hg.ancestorsTo_eq h (Nat.le_of_lt (hg.length_lt h))

/-! ## Pre-order -/

theorem mem_preorderTo : m ∈ g.preorderTo d n ↔ ∃ q, q.length < d ∧ g.at? n q = some m := by
  induction d generalizing n with
  | zero => simp [preorderTo]
  | succ d ih =>
    rw [preorderTo, List.mem_cons, List.mem_flatMap]
    constructor
    · rintro (rfl | ⟨c, hc, hm⟩)
      · exact ⟨[], Nat.succ_pos d, rfl⟩
      · obtain ⟨q, hq, hat⟩ := ih.mp hm
        obtain ⟨i, hi⟩ := List.mem_iff_getElem?.mp hc
        refine ⟨i :: q, Nat.succ_lt_succ hq, ?_⟩
        rw [at?_cons, hi, Option.bind_some, hat]
    · rintro ⟨_ | ⟨i, q⟩, hq, hat⟩
      · cases hat
        exact .inl rfl
      · rw [at?_cons] at hat
        obtain ⟨c, hc, hm⟩ := Option.bind_eq_some_iff.mp hat
        exact .inr ⟨c, List.mem_of_getElem? hc, ih.mpr ⟨q, Nat.lt_of_succ_lt_succ hq, hm⟩⟩

theorem nodup_preorderTo (h : ∀ p q m, g.at? n p = some m → g.at? n q = some m → p = q) :
    (g.preorderTo d n).Nodup := by
  induction d generalizing n with
  | zero => exact List.nodup_nil
  | succ d ih =>
    have hbelow : ∀ i c, (g.children n)[i]? = some c → ∀ q m, g.at? c q = some m →
        g.at? n (i :: q) = some m := fun i c hc q m hm => by
      rw [at?_cons, hc, Option.bind_some, hm]
    rw [preorderTo, List.nodup_cons]
    constructor
    · intro hmem
      obtain ⟨c, hc, hn⟩ := List.mem_flatMap.mp hmem
      obtain ⟨i, hi⟩ := List.mem_iff_getElem?.mp hc
      obtain ⟨q, -, hq⟩ := mem_preorderTo.mp hn
      exact List.cons_ne_nil i q (h _ [] n (hbelow i c hi q n hq) rfl)
    · refine List.nodup_flatMap.mpr ⟨fun c hc => ?_, ?_⟩
      · obtain ⟨i, hi⟩ := List.mem_iff_getElem?.mp hc
        refine ih fun p q m hp hq => ?_
        exact List.tail_eq_of_cons_eq (h _ _ m (hbelow i c hi p m hp) (hbelow i c hi q m hq))
      · rw [List.pairwise_iff_getElem]
        intro i j hi hj hij m hm hm'
        obtain ⟨q, -, hq⟩ := mem_preorderTo.mp hm
        obtain ⟨q', -, hq'⟩ := mem_preorderTo.mp hm'
        have heq := h _ _ m (hbelow i _ (List.getElem?_eq_getElem hi) q m hq)
          (hbelow j _ (List.getElem?_eq_getElem hj) q' m hq')
        have := List.head_eq_of_cons_eq heq
        omega

theorem preorderTo_succ (h : ∀ q m, g.at? n q = some m → q.length < d) :
    g.preorderTo (d + 1) n = g.preorderTo d n := by
  induction d generalizing n with
  | zero => exact absurd (h [] n rfl) (Nat.not_lt_zero _)
  | succ d ih =>
    rw [preorderTo, preorderTo]
    refine congrArg (n :: ·) (List.flatMap_congr fun c hc => ih fun q m hq => ?_)
    obtain ⟨i, hi⟩ := List.mem_iff_getElem?.mp hc
    have hlength := h (i :: q) m (by rw [at?_cons, hi, Option.bind_some, hq])
    rw [List.length_cons] at hlength
    omega

/-- **The pre-order** lists the nodes that the unfolding meets. -/
theorem mem_preorder (hg : g.Rooted root) :
    n ∈ g.preorder root ↔ ∃ p, g.at? root p = some n := by
  rw [preorder, mem_preorderTo]
  refine ⟨fun ⟨p, _, hp⟩ => ⟨p, hp⟩, fun ⟨p, hp⟩ => ⟨p, ?_, hp⟩⟩
  have := hg.length_lt hp
  omega

theorem nodup_preorder (hg : g.Rooted root) : (g.preorder root).Nodup :=
  nodup_preorderTo hg.place_unique

/-- **The pre-order is recursive**: a node, then the pre-orders of its children. -/
theorem preorder_eq (hg : g.Rooted root) (hn : g.at? root p = some n) :
    g.preorder n = n :: (g.children n).flatMap g.preorder := by
  rw [preorder, preorderTo]
  refine congrArg (n :: ·) (List.flatMap_congr fun c hc => (preorderTo_succ fun q m hq => ?_).symm)
  obtain ⟨i, hi⟩ := List.mem_iff_getElem?.mp hc
  have hat : g.at? root (p ++ i :: q) = some m := by
    rw [at?_append, hn, Option.bind_some, at?_cons, hi, Option.bind_some, hq]
  have hlength := hg.length_lt hat
  rw [List.length_append, List.length_cons] at hlength
  omega

end Rooted

end Graph

/-! ## Linking -/

namespace Model

/-- A linked unit: linking has succeeded on it. -/
def Linked (m : Model) : Prop :=
  ∃ g : Graph, g.Closed ∧ m.root < g.nodes.size ∧
    (∃ info declarations, g.shape m.root = .sourceUnit info declarations) ∧
    g.link m.root = (m.graph, none)

/-- **Linking establishes the invariant.** -/
theorem Linked.rooted {m : Model} (h : m.Linked) : m.graph.Rooted m.root := by
  obtain ⟨g, hg, hroot, ⟨info, declarations, hunit⟩, hlink⟩ := h
  obtain ⟨-, hlinkable, howned⟩ := Graph.link_spec hg hroot hunit
  rw [hlink] at hlinkable howned
  replace hlinkable := hlinkable.mp rfl
  replace howned := howned rfl
  have hskeleton : g.SameSkeleton m.graph := by
    have h := Graph.sameSkeleton_link g m.root
    rwa [hlink] at h
  refine ⟨hskeleton.closed hg, hskeleton.nodes_size ▸ hroot, ?_, howned.owner_root, ?_⟩
  · simpa only [hskeleton.at?_eq] using hlinkable.place_unique
  · simpa only [hskeleton.at?_eq, hskeleton.children_eq] using howned.owner_child

end Model

end ModelLint
