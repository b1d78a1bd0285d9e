import ModelLint.Proofs.Program.Edits

/-!
# Runs of statements in locks

In the place of some statements that follow each other stands a lock, and they stand in its body. What
was around a node still is. The lock and its body come between where the node is in the run or below it.

* `Enclosure`: a run of statements and the lock. `Enclosure.Inside`: the nodes in the run or below it.
* `Enclosure.Encloses`: the run is put into the lock.
* `Encloses.mem_of_shape`: what is no part of the lock was there before.
* `Encloses.mem_ancestors_new`: what is new around a node.
* **`Encloses.edited`**: a unit where a run is put into a lock is an edit.
-/

namespace ModelLint

/-- The node is one that a lock around statements needs: a lock, a block, or a target. -/
def Shape.IsFrame {ν : Type} : Shape ν → Prop
  | lockStatement _ _ | block _ | literal _ | varAccess _ _ => True
  | _ => False

/-- A run of statements that a node lists, and the lock that it is put into. -/
structure Enclosure where
  /-- The node that lists the statements. -/
  holder : NodeId
  /-- The statements in front of the run. -/
  before : List NodeId
  /-- The run. -/
  run : List NodeId
  /-- The statements behind the run. -/
  after : List NodeId
  /-- The lock. -/
  lock : NodeId
  /-- The target of the lock. -/
  target : NodeId
  /-- The body of the lock. -/
  body : NodeId

namespace Enclosure

/-- A node is in the run or below it. -/
def Inside (e : Enclosure) (m : Model) (n : NodeId) : Prop := ∃ s ∈ e.run, n ∈ m.graph.preorder s

/-- **The run is put into a lock**: in its place stands a lock on a literal or a variable, and in the
body of the lock stands the run. Nothing else changes. -/
structure Encloses (e : Enclosure) (m m' : Model) : Prop where
  /-- It is the same unit. -/
  root_eq : m'.root = m.root
  /-- A node stands where it stood. -/
  location_eq : ∀ n ∈ m.nodes, m'.graph.location n = m.graph.location n
  /-- Other nodes say the same. -/
  shape_eq : ∀ n ∈ m.nodes, n ≠ e.holder → m'.graph.shape n = m.graph.shape n
  /-- A variable stays as it is but for its scope. -/
  variable_eq : ∀ v ∈ m.vars,
    { m'.graph.variable' v with scope := none } = { m.graph.variable' v with scope := none }
  /-- The run is not empty. -/
  run_ne_nil : e.run ≠ []
  /-- The holder is a node of the unit. -/
  holder_mem : e.holder ∈ m.nodes
  /-- The holder lists the run. -/
  statements_eq : (m.graph.shape e.holder).statements = e.before ++ e.run ++ e.after
  /-- It lists the lock in the place of the run. -/
  holder_eq : m'.graph.shape e.holder =
    (m.graph.shape e.holder).withStatements (e.before ++ e.lock :: e.after)
  /-- The lock has the target and the body. -/
  lock_eq : m'.graph.shape e.lock = .lockStatement e.target e.body
  /-- The body is the run. -/
  body_eq : m'.graph.shape e.body = .block e.run
  /-- The target is a literal or a variable. -/
  target_eq : (∃ value, m'.graph.shape e.target = .literal value) ∨
    ∃ name v, m'.graph.shape e.target = .varAccess name (some v)
  /-- The lock is new. -/
  lock_new : e.lock ∉ m.nodes
  /-- The target is new. -/
  target_new : e.target ∉ m.nodes
  /-- The body is new. -/
  body_new : e.body ∉ m.nodes

namespace Encloses

variable {e : Enclosure} {m m' : Model} {n c k : NodeId} (h : e.Encloses m m')

include h

theorem statements_ne_nil : (m.graph.shape e.holder).statements ≠ [] := by
  rw [h.statements_eq]
  simp [h.run_ne_nil]

theorem block_nil_iff (hn : n ∈ m.nodes) :
    m'.graph.shape n = .block [] ↔ m.graph.shape n = .block [] := by
  by_cases hholder : n = e.holder
  · subst hholder
    refine iff_of_false (fun hempty => ?_) fun hempty => h.statements_ne_nil (by rw [hempty]; rfl)
    have hstatements : (m'.graph.shape e.holder).statements = e.before ++ e.lock :: e.after := by
      rw [h.holder_eq, Shape.statements_withStatements h.statements_ne_nil]
    rw [hempty] at hstatements
    simp [Shape.statements] at hstatements
  · rw [h.shape_eq n hn hholder]

theorem mem_statements_of_mem_run (hc : c ∈ e.run) : c ∈ (m.graph.shape e.holder).statements := by
  rw [h.statements_eq]
  simp [hc]

theorem mem_children_of_mem_run (hc : c ∈ e.run) : c ∈ m.graph.children e.holder :=
  Shape.mem_children_iff.mpr (.inl (h.mem_statements_of_mem_run hc))

theorem mem_children_holder : c ∈ m'.graph.children e.holder ↔
    c = e.lock ∨ c ∈ e.before ∨ c ∈ e.after ∨
      c ∈ ((m.graph.shape e.holder).withStatements []).children := by
  rw [Graph.children, h.holder_eq, Shape.mem_children_iff, Shape.withStatements_withStatements,
    Shape.statements_withStatements h.statements_ne_nil, List.mem_append, List.mem_cons]
  tauto

theorem lock_child : e.lock ∈ m'.graph.children e.holder := h.mem_children_holder.mpr (.inl rfl)

theorem mem_children_lock : c ∈ m'.graph.children e.lock ↔ c = e.target ∨ c = e.body := by
  simp [Graph.children, h.lock_eq, Shape.children, Shape.slots]

theorem mem_children_body : c ∈ m'.graph.children e.body ↔ c ∈ e.run := by
  simp [Graph.children, h.body_eq, Shape.children, Shape.slots]

theorem children_target : m'.graph.children e.target = [] := by
  rcases h.target_eq with ⟨value, hshape⟩ | ⟨name, v, hshape⟩ <;>
    simp [Graph.children, hshape, Shape.children, Shape.slots]

/-- A child is still one, or it is in the run. -/
theorem mem_children_or (hk : k ∈ m.nodes) (hc : c ∈ m.graph.children k) :
    c ∈ m'.graph.children k ∨ k = e.holder ∧ c ∈ e.run := by
  by_cases hholder : k = e.holder
  · subst hholder
    rw [h.mem_children_holder]
    rw [Graph.children, Shape.mem_children_iff, h.statements_eq] at hc
    simp only [List.mem_append] at hc
    tauto
  · rw [Graph.children, h.shape_eq k hk hholder]
    exact .inl hc

theorem mem_children_of_edited (hk : k ∈ m.nodes) (hc : c ∈ m'.graph.children k) :
    c ∈ m.graph.children k ∨ c = e.lock := by
  by_cases hholder : k = e.holder
  · subst hholder
    rw [Graph.children, Shape.mem_children_iff, h.statements_eq]
    simp only [List.mem_append]
    have hcases := h.mem_children_holder.mp hc
    tauto
  · rw [Graph.children, h.shape_eq k hk hholder] at hc
    exact .inl hc

variable (hm : m.Linked)

include hm

theorem mem_of_mem_run (hc : c ∈ e.run) : c ∈ m.nodes :=
  hm.rooted.mem_of_child h.holder_mem (h.mem_children_of_mem_run hc)

theorem inside_root : ¬ e.Inside m m.root := by
  rintro ⟨s, hs, hroot⟩
  have hancestors := hm.rooted.ancestors_child h.holder_mem (h.mem_children_of_mem_run hs)
  rcases (hm.rooted.mem_preorder_iff_ancestors (h.mem_of_mem_run hm hs)).mp hroot with rfl | ⟨-, ha⟩
  · rw [hm.rooted.ancestors_root] at hancestors
    cases hancestors
  · rw [hm.rooted.ancestors_root] at ha
    cases ha

theorem inside_child (hk : k ∈ m.nodes) (hc : c ∈ m.graph.children k) :
    e.Inside m c ↔ c ∈ e.run ∨ e.Inside m k := by
  have hbelow : ∀ s ∈ e.run, c ∈ m.graph.preorder s ↔ c = s ∨ k ∈ m.graph.preorder s := by
    intro s hs
    have hsmem := h.mem_of_mem_run hm hs
    have hkmem : k ∈ m.graph.preorder m.root := hk
    rw [hm.rooted.mem_preorder_iff_ancestors hsmem, hm.rooted.mem_preorder_iff_ancestors hsmem,
      hm.rooted.ancestors_child hk hc, List.mem_cons, and_iff_right (hm.rooted.mem_of_child hk hc),
      and_iff_right hkmem, eq_comm (a := s)]
  constructor
  · rintro ⟨s, hs, hmem⟩
    rcases (hbelow s hs).mp hmem with rfl | hmem
    · exact .inl hs
    · exact .inr ⟨s, hs, hmem⟩
  · rintro (hs | ⟨s, hs, hmem⟩)
    · exact ⟨c, hs, (hbelow c hs).mpr (.inl rfl)⟩
    · exact ⟨s, hs, (hbelow s hs).mpr (.inr hmem)⟩

theorem mem_of_inside (hinside : e.Inside m n) : n ∈ m.nodes := by
  obtain ⟨s, hs, hn⟩ := hinside
  exact hm.rooted.mem_of_mem_preorder (h.mem_of_mem_run hm hs) hn

theorem mem_preorder_holder (hinside : e.Inside m n) : n ∈ m.graph.preorder e.holder := by
  obtain ⟨s, hs, hn⟩ := hinside
  obtain ⟨place, hplace⟩ := hm.rooted.mem_preorder.mp h.holder_mem
  rw [hm.rooted.preorder_eq hplace]
  exact List.mem_cons_of_mem _ (List.mem_flatMap.mpr ⟨s, h.mem_children_of_mem_run hs, hn⟩)

variable (hm' : m'.Linked)

include hm'

/-- There are the nodes that there were, the lock, its target and its body. -/
theorem mem_nodes_or (hn : n ∈ m'.nodes) : n ∈ m.nodes ∨ n = e.lock ∨ n = e.target ∨ n = e.body := by
  refine hm'.rooted.forall_mem (P := fun n => n ∈ m.nodes ∨ n = e.lock ∨ n = e.target ∨ n = e.body)
    ?_ ?_ n hn
  · rw [h.root_eq]
    exact .inl hm.rooted.root_mem
  · rintro k - (hk | rfl | rfl | rfl) c hc
    · exact (h.mem_children_of_edited hk hc).imp (hm.rooted.mem_of_child hk) .inl
    · exact .inr (.inr (h.mem_children_lock.mp hc))
    · rw [h.children_target] at hc
      cases hc
    · exact .inl (h.mem_of_mem_run hm (h.mem_children_body.mp hc))

theorem mem_of_shape {s : Shape NodeId} (hn : n ∈ m'.nodes) (hs : m'.graph.shape n = s)
    (hframe : ¬ s.IsFrame) : n ∈ m.nodes := by
  rcases h.mem_nodes_or hm hm' hn with hn | rfl | rfl | rfl
  · exact hn
  · rw [← hs, h.lock_eq] at hframe
    exact absurd trivial hframe
  · rcases h.target_eq with ⟨value, htarget⟩ | ⟨name, v, htarget⟩ <;> rw [← hs, htarget] at hframe <;>
      exact absurd trivial hframe
  · rw [← hs, h.body_eq] at hframe
    exact absurd trivial hframe

theorem nodes_subset : m.nodes ⊆ m'.nodes := by
  refine hm.rooted.forall_mem (P := fun n => n ∈ m'.nodes) ?_ fun k hk hk' c hc => ?_
  · rw [← h.root_eq]
    exact hm'.rooted.root_mem
  · rcases h.mem_children_or hk hc with hc | ⟨rfl, hrun⟩
    · exact hm'.rooted.mem_of_child hk' hc
    · have hlock := hm'.rooted.mem_of_child hk' h.lock_child
      have hbody := hm'.rooted.mem_of_child hlock (h.mem_children_lock.mpr (.inr rfl))
      exact hm'.rooted.mem_of_child hbody (h.mem_children_body.mpr hrun)

theorem holder_mem' : e.holder ∈ m'.nodes := h.nodes_subset hm hm' h.holder_mem

theorem lock_mem : e.lock ∈ m'.nodes := hm'.rooted.mem_of_child (h.holder_mem' hm hm') h.lock_child

theorem ancestors_lock : m'.graph.ancestors e.lock = e.holder :: m'.graph.ancestors e.holder :=
  hm'.rooted.ancestors_child (h.holder_mem' hm hm') h.lock_child

theorem body_mem : e.body ∈ m'.nodes :=
  hm'.rooted.mem_of_child (h.lock_mem hm hm') (h.mem_children_lock.mpr (.inr rfl))

theorem target_mem : e.target ∈ m'.nodes :=
  hm'.rooted.mem_of_child (h.lock_mem hm hm') (h.mem_children_lock.mpr (.inl rfl))

theorem ancestors_target :
    m'.graph.ancestors e.target = e.lock :: e.holder :: m'.graph.ancestors e.holder := by
  rw [hm'.rooted.ancestors_child (h.lock_mem hm hm') (h.mem_children_lock.mpr (.inl rfl)),
    h.ancestors_lock hm hm']

theorem ancestors_body :
    m'.graph.ancestors e.body = e.lock :: e.holder :: m'.graph.ancestors e.holder := by
  rw [hm'.rooted.ancestors_child (h.lock_mem hm hm') (h.mem_children_lock.mpr (.inr rfl)),
    h.ancestors_lock hm hm']

/-- The nodes around a child: its parent and those around that, and the body and the lock, too, if the
child is in the run. -/
theorem ancestors_child (hk : k ∈ m.nodes) (hc : c ∈ m.graph.children k) :
    c ∉ e.run ∧ m'.graph.ancestors c = k :: m'.graph.ancestors k ∨
      k = e.holder ∧ c ∈ e.run ∧
        m'.graph.ancestors c = e.body :: e.lock :: e.holder :: m'.graph.ancestors e.holder := by
  by_cases hrun : c ∈ e.run
  · have hholder := hm.rooted.owner_of_child hk hc
    rw [hm.rooted.owner_of_child h.holder_mem (h.mem_children_of_mem_run hrun)] at hholder
    refine .inr ⟨(Option.some.inj hholder).symm, hrun, ?_⟩
    rw [hm'.rooted.ancestors_child (h.body_mem hm hm') (h.mem_children_body.mpr hrun),
      h.ancestors_body hm hm']
  · refine .inl ⟨hrun, hm'.rooted.ancestors_child (h.nodes_subset hm hm' hk) ?_⟩
    exact (h.mem_children_or hk hc).resolve_right fun hholder => hrun hholder.2

theorem filter_ancestors :
    ∀ n ∈ m.nodes, (m'.graph.ancestors n).filter (· ∈ m.nodes) = m.graph.ancestors n := by
  refine hm.rooted.forall_mem ?_ fun k hk ih c hc => ?_
  · rw [hm.rooted.ancestors_root, ← h.root_eq, hm'.rooted.ancestors_root]
    rfl
  · have hkmem : k ∈ m.nodes := hk
    rw [hm.rooted.ancestors_child hk hc, ← ih]
    rcases h.ancestors_child hm hm' hk hc with ⟨-, hancestors⟩ | ⟨rfl, -, hancestors⟩
    · rw [hancestors, List.filter_cons_of_pos (by simpa using hkmem)]
    · rw [hancestors, List.filter_cons_of_neg (by simpa using h.body_new),
        List.filter_cons_of_neg (by simpa using h.lock_new),
        List.filter_cons_of_pos (by simpa using hkmem)]

/-- What is new around a node is the lock and its body, and only if the node is inside. -/
theorem mem_ancestors_new : ∀ n ∈ m.nodes, ∀ x ∉ m.nodes,
    x ∈ m'.graph.ancestors n ↔ e.Inside m n ∧ (x = e.lock ∨ x = e.body) := by
  -- from the root down: a child adds its parent, and the two new nodes where the run begins
  refine hm.rooted.forall_mem (fun x hx => ?_) fun k hk ih c hc x hx => ?_
  · rw [← h.root_eq, hm'.rooted.ancestors_root, h.root_eq]
    simp [h.inside_root hm]
  · have hkx : x ≠ k := fun heq => hx (heq ▸ hk)
    rw [h.inside_child hm hk hc]
    rcases h.ancestors_child hm hm' hk hc with ⟨hrun, hancestors⟩ | ⟨rfl, hrun, hancestors⟩
    · rw [hancestors, List.mem_cons, ih x hx]
      simp [hrun, hkx]
    · rw [hancestors, List.mem_cons, List.mem_cons, List.mem_cons, ih x hx]
      simp only [hrun, hkx, true_or, true_and, false_or]
      tauto

/-- The owner of a node is the one that it was, or the body of the lock if the node is in the run. -/
theorem owner_eq_or : ∀ n ∈ m.nodes, n ∉ e.run ∧ m'.graph.owner n = m.graph.owner n ∨
    n ∈ e.run ∧ m.graph.owner n = some e.holder ∧ m'.graph.owner n = some e.body := by
  have hnodes := h.nodes_subset hm hm'
  refine hm.rooted.forall_mem (.inl ⟨fun hrun => ?_, ?_⟩) fun k hk _ c hc => ?_
  · exact h.inside_root hm ⟨m.root, hrun, (hm.rooted.mem_preorder_iff_ancestors hm.rooted.root_mem).mpr
      (.inl rfl)⟩
  · rw [hm.rooted.owner_root, ← h.root_eq, hm'.rooted.owner_root]
  · rw [hm'.rooted.owner_eq_head? (hnodes (hm.rooted.mem_of_child hk hc)),
      hm.rooted.owner_of_child hk hc]
    rcases h.ancestors_child hm hm' hk hc with ⟨hrun, hancestors⟩ | ⟨rfl, hrun, hancestors⟩
    · exact .inl ⟨hrun, by rw [hancestors]; rfl⟩
    · exact .inr ⟨hrun, rfl, by rw [hancestors]; rfl⟩

/-- A unit where a run is put into a lock is an edit. -/
theorem edited : m.Edited m' where
  root_eq := h.root_eq
  nodes_subset := h.nodes_subset hm hm'
  location_eq := h.location_eq
  shape_eq n hn := by
    by_cases hholder : n = e.holder
    · exact ⟨_, hholder ▸ h.holder_eq⟩
    · exact ⟨_, (h.shape_eq n hn hholder).trans (Shape.withStatements_statements _).symm⟩
  variable_eq := h.variable_eq
  ancestors_eq := h.filter_ancestors hm hm'
  around_new n hn x hx hnew := by
    obtain ⟨-, rfl | rfl⟩ := (h.mem_ancestors_new hm hm' n hn x hnew).mp hx
    · exact .inr ⟨_, _, h.lock_eq⟩
    · exact .inl ⟨_, h.body_eq⟩
  owner_eq n hn := by
    refine (h.owner_eq_or hm hm' n hn).imp And.right ?_
    rintro ⟨hrun, howner, howner'⟩
    exact ⟨_, _, _, howner, h.mem_statements_of_mem_run hrun, howner', h.body_eq⟩
  new_inner n hn hnew := by
    rcases (h.mem_nodes_or hm hm' hn).resolve_left hnew with rfl | rfl | rfl
    · rw [h.lock_eq]; rfl
    · rcases h.target_eq with ⟨value, hshape⟩ | ⟨name, v, hshape⟩ <;> rw [hshape] <;> rfl
    · rw [h.body_eq]; rfl

end Encloses

end Enclosure

end ModelLint
