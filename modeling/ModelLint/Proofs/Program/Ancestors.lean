import ModelLint.Proofs.Program.Functions

/-!
# Around and below a node

The nodes of a linked unit are reached from the unit, from a node to its children. What is around a child
is its parent and what is around that, so facts about the nodes around a node go by this induction.

* `Rooted.forall_mem`: what holds of the unit and is passed on to children holds of all nodes.
* `Rooted.ancestors_child`, `Rooted.owner_of_child`: what is around a child.
* **`Rooted.mem_preorder_iff_ancestors`, `Rooted.mem_descendants_iff`**: a node is below those around it.
-/

namespace ModelLint.Graph

variable {g : Graph} {root n d a c o : NodeId}

namespace Rooted

theorem mem_of_child (hg : g.Rooted root) (hn : n ∈ g.preorder root) (hc : c ∈ g.children n) :
    c ∈ g.preorder root := by
  obtain ⟨p, hp⟩ := hg.mem_preorder.mp hn
  obtain ⟨i, hi⟩ := List.mem_iff_getElem?.mp hc
  exact hg.mem_preorder.mpr ⟨p ++ [i], at?_snoc_eq_some.mpr ⟨n, hp, hi⟩⟩

/-- What holds of the unit and is passed on to children holds of all nodes. -/
theorem forall_mem (hg : g.Rooted root) {P : NodeId → Prop} (hroot : P root)
    (hchild : ∀ n ∈ g.preorder root, P n → ∀ c ∈ g.children n, P c) : ∀ n ∈ g.preorder root, P n := by
  intro n hn
  obtain ⟨p, hp⟩ := hg.mem_preorder.mp hn
  clear hn
  induction p using List.reverseRecOn generalizing n with
  | nil =>
    cases hp
    exact hroot
  | append_singleton p i ih =>
    obtain ⟨k, hk, hi⟩ := at?_snoc_eq_some.mp hp
    exact hchild k (hg.mem_preorder.mpr ⟨p, hk⟩) (ih k hk) n (List.mem_of_getElem? hi)

theorem root_mem (hg : g.Rooted root) : root ∈ g.preorder root := hg.mem_preorder.mpr ⟨[], rfl⟩

theorem ancestors_root (hg : g.Rooted root) : g.ancestors root = [] :=
  hg.ancestors_eq (p := []) rfl

theorem ancestors_child (hg : g.Rooted root) (hn : n ∈ g.preorder root) (hc : c ∈ g.children n) :
    g.ancestors c = n :: g.ancestors n := by
  obtain ⟨p, hp⟩ := hg.mem_preorder.mp hn
  obtain ⟨i, hi⟩ := List.mem_iff_getElem?.mp hc
  have hat : g.at? root (p ++ [i]) = some c := at?_snoc_eq_some.mpr ⟨n, hp, hi⟩
  rw [hg.ancestors_eq hat, hg.ancestors_eq hp, above_snoc hp, List.reverse_append]
  rfl

theorem owner_of_child (hg : g.Rooted root) (hn : n ∈ g.preorder root) (hc : c ∈ g.children n) :
    g.owner c = some n := by
  obtain ⟨p, hp⟩ := hg.mem_preorder.mp hn
  exact hg.owner_child p n hp c hc

theorem owner_eq_some (hg : g.Rooted root) (hn : n ∈ g.preorder root) :
    g.owner n = some o ↔ o ∈ g.preorder root ∧ n ∈ g.children o := by
  refine ⟨fun ho => ?_, fun h => hg.owner_of_child h.1 h.2⟩
  obtain ⟨p, hp⟩ := hg.mem_preorder.mp hn
  rcases List.eq_nil_or_concat' p with rfl | ⟨p, i, rfl⟩
  · cases hp
    rw [hg.owner_root] at ho
    cases ho
  · obtain ⟨k, hk, hi⟩ := at?_snoc_eq_some.mp hp
    rw [hg.owner_snoc hk hp] at ho
    cases ho
    exact ⟨hg.mem_preorder.mpr ⟨p, hk⟩, List.mem_of_getElem? hi⟩

/-- The owner of a node is the innermost node around it. -/
theorem owner_eq_head? (hg : g.Rooted root) (hn : n ∈ g.preorder root) :
    g.owner n = (g.ancestors n).head? := by
  refine hg.forall_mem (P := fun n => g.owner n = (g.ancestors n).head?) ?_ ?_ n hn
  · rw [hg.owner_root, hg.ancestors_root]
    rfl
  · intro n hn _ c hc
    rw [hg.owner_of_child hn hc, hg.ancestors_child hn hc]
    rfl

theorem mem_of_mem_ancestors (hg : g.Rooted root) (hn : n ∈ g.preorder root) (ha : a ∈ g.ancestors n) :
    a ∈ g.preorder root := by
  revert a
  refine hg.forall_mem (P := fun n => ∀ {a}, a ∈ g.ancestors n → a ∈ g.preorder root) ?_ ?_ n hn
  · intro a ha
    rw [hg.ancestors_root] at ha
    cases ha
  · intro n hn ih c hc a ha
    rw [hg.ancestors_child hn hc, List.mem_cons] at ha
    rcases ha with rfl | ha
    · exact hn
    · exact ih ha

theorem mem_preorder_iff_ancestors (hg : g.Rooted root) (hn : n ∈ g.preorder root) :
    d ∈ g.preorder n ↔ d = n ∨ d ∈ g.preorder root ∧ n ∈ g.ancestors d := by
  obtain ⟨p, hp⟩ := hg.mem_preorder.mp hn
  constructor
  · intro h
    obtain ⟨q, hq⟩ := (hg.mem_preorder_iff hp).mp h
    have hd : g.at? root (p ++ q) = some d := by rw [at?_append, hp, Option.bind_some, hq]
    refine ((hg.mem_preorder_iff_above hp hd).mp h).imp_right fun ha => ?_
    exact ⟨hg.mem_preorder.mpr ⟨_, hd⟩, (hg.mem_ancestors hd).mpr ha⟩
  · rintro (rfl | ⟨hd, ha⟩)
    · exact (hg.mem_preorder_iff hp).mpr ⟨[], rfl⟩
    · obtain ⟨q, hq⟩ := hg.mem_preorder.mp hd
      exact (hg.mem_preorder_iff_above hp hq).mpr (.inr ((hg.mem_ancestors hq).mp ha))

theorem mem_of_mem_preorder (hg : g.Rooted root) (hn : n ∈ g.preorder root) (hd : d ∈ g.preorder n) :
    d ∈ g.preorder root := by
  rcases (hg.mem_preorder_iff_ancestors hn).mp hd with rfl | ⟨hd, -⟩
  · exact hn
  · exact hd

theorem not_mem_ancestors (hg : g.Rooted root) (hn : n ∈ g.preorder root) : n ∉ g.ancestors n := by
  intro ha
  obtain ⟨p, hp⟩ := hg.mem_preorder.mp hn
  obtain ⟨before, after, heq⟩ := List.append_of_mem ((hg.mem_ancestors hp).mp ha)
  obtain ⟨q, i, r, rfl, hq, -⟩ := split_above hp heq
  have hlength := congrArg List.length (hg.place_unique _ _ n hp hq)
  simp at hlength

theorem nodup_preorder_of_mem (hg : g.Rooted root) (hn : n ∈ g.preorder root) :
    (g.preorder n).Nodup := by
  obtain ⟨p, hp⟩ := hg.mem_preorder.mp hn
  refine nodup_preorderTo fun q q' m hq hq' => ?_
  refine List.append_cancel_left (hg.place_unique (p ++ q) (p ++ q') m ?_ ?_)
  · rw [at?_append, hp, Option.bind_some, hq]
  · rw [at?_append, hp, Option.bind_some, hq']

theorem mem_descendants_iff (hg : g.Rooted root) (hn : n ∈ g.preorder root) :
    d ∈ g.descendants n ↔ d ∈ g.preorder root ∧ n ∈ g.ancestors d := by
  have hbelow := hg.mem_preorder_iff_ancestors hn (d := d)
  have hnodup := hg.nodup_preorder_of_mem hn
  obtain ⟨p, hp⟩ := hg.mem_preorder.mp hn
  rw [hg.preorder_eq hp, List.nodup_cons] at hnodup
  rw [hg.preorder_eq hp, List.mem_cons] at hbelow
  rw [descendants, hg.preorder_eq hp, List.tail_cons]
  constructor
  · intro h
    refine (hbelow.mp (.inr h)).resolve_left ?_
    rintro rfl
    exact hnodup.1 h
  · rintro ⟨hd, ha⟩
    refine (hbelow.mpr (.inr ⟨hd, ha⟩)).resolve_left ?_
    rintro rfl
    exact hg.not_mem_ancestors hd ha

end Rooted

end ModelLint.Graph
