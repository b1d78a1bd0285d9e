import Mathlib.Data.Finset.Card
import Mathlib.Data.List.Dedup
import Mathlib.Data.List.Pairwise
import ModelLint.Proofs.Program.Unfolding

/-!
# Linking decides whether a unit is linkable

The loop of `Linking.visitAll` walks the unfolding in pre-order. Its invariant, `Linking.Progress`,
lists the places that are done and those that are still to do: every place of the unfolding is done
or lies at or below one that is to do, the nodes met are those at the places done, and owners and
scopes are set for these alone.

* `visit_eq_none`, `visit_eq_some`: what one visit does when it succeeds and why it fails.
* `Progress.step`: a visit that succeeds moves a place from "to do" to "done".
* `visitAll_spec`: the loop ends within one visit more than there are nodes, and either covers the
  unfolding or has found a fault.
* **`link_decides`**: linking succeeds exactly on linkable units, and then sets every owner and
  scope.
-/

namespace ModelLint

namespace Linking

open ModelLint.Graph (Place)

variable {n : NodeId} {owner : Option NodeId} {vs : List VariableId} {s s' : Linking}
  {f : LinkFailure}

/-! ## Introducing variables -/

/-- Sets the scopes of variables that a node introduces. -/
def setScopes (n : NodeId) (owner : Option NodeId) : List VariableId → Graph → Graph
  | [], g => g
  | v :: rest, g => setScopes n owner rest (g.setScope v (scopeOf (g.shape n) n owner v))

@[simp] theorem nodes_setScopes (g : Graph) : (setScopes n owner vs g).nodes = g.nodes := by
  induction vs generalizing g with
  | nil => rfl
  | cons v rest ih => rw [setScopes, ih, Graph.nodes_setScope]

@[simp] theorem node_setScopes (g : Graph) (m : NodeId) :
    (setScopes n owner vs g).node m = g.node m := by
  rw [Graph.node, nodes_setScopes, Graph.node]

@[simp] theorem owner_setScopes (g : Graph) (m : NodeId) :
    (setScopes n owner vs g).owner m = g.owner m := by rw [Graph.owner, node_setScopes, Graph.owner]

theorem scope_setScopes (g : Graph) (v : VariableId) :
    ((setScopes n owner vs g).variable' v).scope =
      if v ∈ vs ∧ v < g.vars.size then some (scopeOf (g.shape n) n owner v)
      else (g.variable' v).scope := by
  induction vs generalizing g with
  | nil => simp [setScopes]
  | cons w rest ih =>
    rw [setScopes, ih, Graph.shape_setScope, Graph.size_setScope, Graph.variable'_setScope]
    by_cases hv : v = w
    · subst hv
      by_cases hlt : v < g.vars.size <;> simp [hlt]
    · simp [hv]

theorem sameSkeleton_setScopes (g : Graph) : g.SameSkeleton (setScopes n owner vs g) := by
  induction vs generalizing g with
  | nil => exact .refl g
  | cons v rest ih => exact (Graph.SameSkeleton.setScope g v _).trans (ih _)

/-- Variables are introduced if none is there already, and then all are. -/
theorem introduce_eq_none (h : introduce n owner vs s = (s', none)) (hs : s.introduced.Nodup) :
    (vs.reverse ++ s.introduced).Nodup ∧
      s' = { s with introduced := vs.reverse ++ s.introduced
                    graph := setScopes n owner vs s.graph } := by
  induction vs generalizing s with
  | nil => cases h; exact ⟨hs, rfl⟩
  | cons v rest ih =>
    rw [introduce] at h
    split at h
    · cases h
    · rename_i hv
      rw [List.contains_iff_mem] at hv
      obtain ⟨hnodup, hs'⟩ := ih h (List.nodup_cons.mpr ⟨hv, hs⟩)
      rw [List.reverse_cons, List.append_assoc, List.singleton_append]
      exact ⟨hnodup, hs'⟩

theorem introduce_eq_some (h : introduce n owner vs s = (s', some f)) :
    ¬ (vs.reverse ++ s.introduced).Nodup := by
  induction vs generalizing s with
  | nil => cases h
  | cons v rest ih =>
    rw [List.reverse_cons, List.append_assoc, List.singleton_append]
    rw [introduce] at h
    split at h
    · rename_i hv
      rw [List.contains_iff_mem] at hv
      exact fun hnodup => (List.nodup_cons.mp (List.nodup_append.mp hnodup).2.1).1 hv
    · exact ih h

/-! ## One visit -/

/-- The state after a visit that succeeds. -/
def meet (n : NodeId) (owner : Option NodeId) (s : Linking) : Linking where
  graph := setScopes n owner (s.graph.shape n).introduced (s.graph.setOwner n owner)
  met := n :: s.met
  introduced := (s.graph.shape n).introduced.reverse ++ s.introduced
  mentions := if isMention (s.graph.shape n) then n :: s.mentions else s.mentions

theorem sameSkeleton_meet (n : NodeId) (owner : Option NodeId) (s : Linking) :
    s.graph.SameSkeleton (meet n owner s).graph :=
  (Graph.SameSkeleton.setOwner s.graph n owner).trans (sameSkeleton_setScopes _)

/-- **A visit that succeeds** meets a new node that nobody else owns and new variables. -/
theorem visit_eq_none (h : visit n owner s = (s', none)) (hs : s.introduced.Nodup) :
    n ∉ s.met ∧ (s.graph.owner n = none ∨ s.graph.owner n = owner) ∧
      ((s.graph.shape n).introduced.reverse ++ s.introduced).Nodup ∧ s' = meet n owner s := by
  rw [visit] at h
  simp only [] at h
  split at h
  · cases h
  · rename_i hmet
    rw [List.contains_iff_mem] at hmet
    split at h
    · cases h
    · rename_i howner
      split at h
      · cases h
      · rename_i t hintroduce
        obtain ⟨hnodup, rfl⟩ := introduce_eq_none hintroduce hs
        refine ⟨hmet, ?_, hnodup, ?_⟩
        · by_cases h0 : s.graph.owner n = none
          · exact .inl h0
          · exact .inr (not_not.mp fun h1 => howner ⟨h0, h1⟩)
        · cases h
          rw [meet]
          split <;> rfl

/-- **A visit that fails** has met the node or one of its variables before, or finds that another
node owns it. -/
theorem visit_eq_some (h : visit n owner s = (s', some f)) :
    n ∈ s.met ∨ (s.graph.owner n ≠ none ∧ s.graph.owner n ≠ owner) ∨
      ¬ ((s.graph.shape n).introduced.reverse ++ s.introduced).Nodup := by
  rw [visit] at h
  simp only [] at h
  split at h
  · rename_i hmet
    exact .inl (List.contains_iff_mem.mp hmet)
  · split at h
    · rename_i howner
      exact .inr (.inl howner)
    · split at h
      · rename_i t failure hintroduce
        have htwice := introduce_eq_some hintroduce
        exact .inr (.inr htwice)
      · cases h

/-! ## The invariant -/

/-- The owners and scopes that are set when the nodes at some places have been met. -/
structure Marks (g : Graph) (root : NodeId) (done : List Place) (g' : Graph) : Prop
    extends g.SameSkeleton g' where
  /-- A node that was met has the owner that it was met under. -/
  owner_done : ∀ p ∈ done, ∀ n, g.at? root p = some n → g'.owner n = g.ownerAt root p
  /-- Any other node has the owner that it had. -/
  owner_rest : ∀ n, (∀ p ∈ done, g.at? root p ≠ some n) → g'.owner n = g.owner n
  /-- A variable introduced by a node that was met has its scope. -/
  scope_done : ∀ p ∈ done, ∀ n, g.at? root p = some n → ∀ v ∈ (g.shape n).introduced,
    (g'.variable' v).scope = some (scopeOf (g.shape n) n (g.ownerAt root p) v)

/-- **The invariant of the loop**: some places of the unfolding are done, the last first, others
are to do. -/
structure Progress (g : Graph) (root : NodeId) (done todo : List Place) (s : Linking) : Prop where
  /-- The nodes met are those at the places done. -/
  met_eq : s.met.map some = done.map (g.at? root)
  /-- No place is there twice. -/
  places : (done ++ todo).Nodup
  /-- A place is reached from one that is done. -/
  parent : ∀ p i, p ++ [i] ∈ done ++ todo → p ∈ done
  /-- The unit is done or to do. -/
  root_mem : [] ∈ done ++ todo
  /-- What lies directly below a place that is done is done or to do. -/
  covered : ∀ p i n, p ∈ done → g.at? root (p ++ [i]) = some n → p ++ [i] ∈ done ++ todo
  /-- No node was met twice. -/
  met_nodup : s.met.Nodup
  /-- The variables introduced are those of the nodes met. -/
  introduced_eq : s.introduced = s.met.flatMap fun n => (g.shape n).introduced.reverse
  /-- No variable was introduced twice. -/
  introduced_nodup : s.introduced.Nodup
  /-- The mentions are among the nodes met. -/
  mentions_eq : s.mentions = s.met.filter fun n => isMention (g.shape n)
  /-- Nobody else owned the nodes met. -/
  owner_free : ∀ p ∈ done, ∀ n, g.at? root p = some n →
    g.owner n = none ∨ g.owner n = g.ownerAt root p
  /-- Owners and scopes are set for the nodes met. -/
  marks : Marks g root done s.graph

variable {g : Graph} {root : NodeId} {done todo : List Place} {p : Place}

theorem Progress.mem_met (h : Progress g root done todo s) (hp : p ∈ done)
    (hn : g.at? root p = some n) : n ∈ s.met := by
  have hmem : some n ∈ s.met.map some := by
    rw [h.met_eq, ← hn]
    exact List.mem_map_of_mem hp
  obtain ⟨m, hm, heq⟩ := List.mem_map.mp hmem
  cases heq
  exact hm

theorem Progress.exists_place (h : Progress g root done todo s) (hn : n ∈ s.met) :
    ∃ p ∈ done, g.at? root p = some n := by
  have hmem : some n ∈ done.map (g.at? root) := by
    rw [← h.met_eq]
    exact List.mem_map_of_mem hn
  exact List.mem_map.mp hmem

theorem Progress.length_met (h : Progress g root done todo s) : s.met.length = done.length := by
  have hlength := congrArg List.length h.met_eq
  rwa [List.length_map, List.length_map] at hlength

theorem Progress.mem_introduced (h : Progress g root done todo s) {v : VariableId} :
    v ∈ s.introduced ↔ ∃ p ∈ done, ∃ n, g.at? root p = some n ∧ v ∈ (g.shape n).introduced := by
  rw [h.introduced_eq, List.mem_flatMap]
  constructor
  · rintro ⟨n, hn, hv⟩
    obtain ⟨p, hp, hat⟩ := h.exists_place hn
    exact ⟨p, hp, n, hat, List.mem_reverse.mp hv⟩
  · rintro ⟨p, hp, n, hat, hv⟩
    exact ⟨n, h.mem_met hp hat, List.mem_reverse.mpr hv⟩

/-- Before the first visit the unit is to do. -/
theorem Progress.start (g : Graph) (root : NodeId) : Progress g root [] [[]] (.start g) where
  met_eq := rfl
  places := List.nodup_singleton _
  parent p i h := by simp at h
  root_mem := List.mem_singleton_self _
  covered p i n h := by simp at h
  met_nodup := List.nodup_nil
  introduced_eq := rfl
  introduced_nodup := List.nodup_nil
  mentions_eq := rfl
  owner_free p h := by simp at h
  marks :=
    { toSameSkeleton := .refl g
      owner_done := fun p h => by simp at h
      owner_rest := fun _ _ => rfl
      scope_done := fun p h => by simp at h }

/-! ## The step of the loop -/

/-- The places directly below a place. -/
def placesBelow (g : Graph) (n : NodeId) (p : Place) : List Place :=
  (List.range (g.children n).length).map fun i => p ++ [i]

theorem mem_placesBelow {q : Place} :
    q ∈ placesBelow g n p ↔ ∃ i < (g.children n).length, q = p ++ [i] := by
  simp [placesBelow, eq_comm]

theorem nodup_placesBelow : (placesBelow g n p).Nodup := by
  refine List.Nodup.map (fun i j h => ?_) List.nodup_range
  simpa using h

/-- Meeting a node sets its owner and the scopes of its variables. -/
theorem Marks.step (hg : g.Closed) (hroot : root < g.nodes.size)
    (h : Progress g root done (p :: todo) s) (hp : g.at? root p = some n) (hn : n ∉ s.met)
    (hnew : ((s.graph.shape n).introduced.reverse ++ s.introduced).Nodup) :
    Marks g root (p :: done) (meet n (g.ownerAt root p) s).graph := by
  have hlt : n < s.graph.nodes.size := by
    rw [h.marks.nodes_size]
    exact hg.at?_lt hroot hp
  have hshape := h.marks.shape_eq n
  refine ⟨h.marks.toSameSkeleton.trans (sameSkeleton_meet n _ s), fun q hq m hm => ?_,
    fun m hm => ?_, fun q hq m hm v hv => ?_⟩
  · simp only [meet, owner_setScopes, Graph.owner_setOwner]
    rcases List.mem_cons.mp hq with rfl | hq
    · cases hp.symm.trans hm
      rw [if_pos ⟨rfl, hlt⟩]
    · have hne : m ≠ n := fun heq => hn (heq ▸ h.mem_met hq hm)
      rw [if_neg fun hc => hne hc.1, h.marks.owner_done q hq m hm]
  · simp only [meet, owner_setScopes, Graph.owner_setOwner]
    have hne : m ≠ n := fun heq => hm p List.mem_cons_self (heq ▸ hp)
    rw [if_neg fun hc => hne hc.1]
    exact h.marks.owner_rest m fun q hq => hm q (List.mem_cons_of_mem _ hq)
  · simp only [meet, scope_setScopes, Graph.shape_setOwner, Graph.vars_setOwner,
      Graph.variable'_setOwner, hshape]
    rcases List.mem_cons.mp hq with rfl | hq
    · cases hp.symm.trans hm
      rw [if_pos ⟨hv, h.marks.vars_size ▸ hg.introduced_lt n (hg.at?_lt hroot hp) v hv⟩]
    · -- a variable of a node met before is not introduced again
      have hold : v ∈ s.introduced := h.mem_introduced.mpr ⟨q, hq, m, hm, hv⟩
      have hv' : v ∉ (g.shape n).introduced := fun hv' =>
        List.disjoint_of_nodup_append (hshape ▸ hnew) (List.mem_reverse.mpr hv') hold
      rw [if_neg fun hc => hv' hc.1, h.marks.scope_done q hq m hm v hv]

/-- **A visit that succeeds** moves a place from "to do" to "done" and puts those below it to do. -/
theorem Progress.step (hg : g.Closed) (hroot : root < g.nodes.size)
    (h : Progress g root done (p :: todo) s) (hp : g.at? root p = some n)
    (hv : visit n (g.ownerAt root p) s = (s', none)) :
    Progress g root (p :: done) (placesBelow g n p ++ todo) s' := by
  obtain ⟨hn, howner, hnew, rfl⟩ := visit_eq_none hv h.introduced_nodup
  have hshape := h.marks.shape_eq n
  have hp' : p ∉ done := fun hmem =>
    List.disjoint_of_nodup_append h.places hmem List.mem_cons_self
  refine ⟨?_, ?_, fun q i hq => ?_, ?_, fun q i m hq hm => ?_, ?_, ?_, hnew, ?_,
    fun q hq m hm => ?_, Marks.step hg hroot h hp hn hnew⟩
  · rw [meet, List.map_cons, List.map_cons, hp, h.met_eq]
  · -- the new places are below `p`, which no other place is
    have hold : (p :: (done ++ todo)).Nodup := (List.perm_middle.nodup_iff).mp h.places
    have hperm : (p :: done ++ (placesBelow g n p ++ todo)).Perm
        (placesBelow g n p ++ (p :: (done ++ todo))) := by
      rw [← List.cons_append, ← List.append_assoc, ← List.append_assoc]
      exact List.perm_append_comm.append_right _
    rw [hperm.nodup_iff]
    refine List.nodup_append.mpr ⟨nodup_placesBelow, hold, fun q hq q' hq' heq => ?_⟩
    obtain ⟨i, -, rfl⟩ := mem_placesBelow.mp hq
    subst heq
    rcases List.mem_cons.mp hq' with heq | hq'
    · simp at heq
    · refine hp' (h.parent p i ?_)
      rcases List.mem_append.mp hq' with hq' | hq'
      · exact List.mem_append_left _ hq'
      · exact List.mem_append_right _ (List.mem_cons_of_mem _ hq')
  · rcases List.mem_append.mp hq with hq | hq
    · rcases List.mem_cons.mp hq with rfl | hq
      · exact List.mem_cons_of_mem _ (h.parent q i (List.mem_append_right _ List.mem_cons_self))
      · exact List.mem_cons_of_mem _ (h.parent q i (List.mem_append_left _ hq))
    · rcases List.mem_append.mp hq with hq | hq
      · obtain ⟨j, -, heq⟩ := mem_placesBelow.mp hq
        obtain ⟨rfl, -⟩ := List.append_inj' heq rfl
        exact List.mem_cons_self
      · exact List.mem_cons_of_mem _
          (h.parent q i (List.mem_append_right _ (List.mem_cons_of_mem _ hq)))
  · rcases List.mem_append.mp h.root_mem with hr | hr
    · exact List.mem_append_left _ (List.mem_cons_of_mem _ hr)
    · rcases List.mem_cons.mp hr with hr | hr
      · exact List.mem_append_left _ (hr ▸ List.mem_cons_self)
      · exact List.mem_append_right _ (List.mem_append_right _ hr)
  · rcases List.mem_cons.mp hq with rfl | hq
    · obtain ⟨n', hn', hc⟩ := Graph.at?_snoc_eq_some.mp hm
      cases hp.symm.trans hn'
      obtain ⟨hi, -⟩ := List.getElem?_eq_some_iff.mp hc
      exact List.mem_append_right _ (List.mem_append_left _ (mem_placesBelow.mpr ⟨i, hi, rfl⟩))
    · rcases List.mem_append.mp (h.covered q i m hq hm) with hq' | hq'
      · exact List.mem_append_left _ (List.mem_cons_of_mem _ hq')
      · rcases List.mem_cons.mp hq' with hq' | hq'
        · exact List.mem_append_left _ (hq' ▸ List.mem_cons_self)
        · exact List.mem_append_right _ (List.mem_append_right _ hq')
  · exact List.nodup_cons.mpr ⟨hn, h.met_nodup⟩
  · rw [meet, List.flatMap_cons, hshape, h.introduced_eq]
  · simp only [meet, hshape, List.filter_cons, h.mentions_eq]
  · rcases List.mem_cons.mp hq with rfl | hq
    · cases hp.symm.trans hm
      have hrest : s.graph.owner n = g.owner n := h.marks.owner_rest n fun q hq hat =>
        hn (h.mem_met hq hat)
      rwa [hrest] at howner
    · exact h.owner_free q hq m hm

/-- **A visit that fails** has found a fault of the unit. -/
theorem Progress.not_linkable (h : Progress g root done (p :: todo) s) (hp : g.at? root p = some n)
    (hv : visit n (g.ownerAt root p) s = (s', some f)) : ¬ g.Linkable root := by
  intro hg
  have hp' : p ∉ done := fun hmem =>
    List.disjoint_of_nodup_append h.places hmem List.mem_cons_self
  have hn : n ∉ s.met := fun hn => by
    obtain ⟨q, hq, hat⟩ := h.exists_place hn
    exact hp' (hg.place_unique q p n hat hp ▸ hq)
  rcases visit_eq_some hv with hmet | ⟨hnone, howner⟩ | hdup
  · exact hn hmet
  · rw [h.marks.owner_rest n fun q hq hat => hn (h.mem_met hq hat)] at hnone howner
    rcases List.eq_nil_or_concat' p with rfl | ⟨q, i, rfl⟩
    · cases hp
      exact hnone hg.root_free
    · rw [Graph.ownerAt_snoc] at howner
      obtain ⟨m, hm, hc⟩ := Graph.at?_snoc_eq_some.mp hp
      rcases hg.owner_free q m hm n (List.mem_of_getElem? hc) with hfree | hfree
      · exact hnone hfree
      · exact howner (hfree.trans hm.symm)
  · rw [h.marks.shape_eq n] at hdup
    refine hdup (List.nodup_append.mpr ⟨?_, h.introduced_nodup, fun v hv w hw heq => ?_⟩)
    · rw [List.nodup_reverse, List.nodup_iff_getElem?_ne_getElem?]
      intro i j hij hj heq
      obtain ⟨v, hv⟩ := Option.ne_none_iff_exists'.mp (List.getElem?_eq_none_iff.not.mpr (by omega) :
        (g.shape n).introduced[j]? ≠ none)
      have := (hg.introduced_unique p p n n i j v hp hp (heq.trans hv) hv).2
      omega
    · subst heq
      obtain ⟨q, hq, m, hm, hvm⟩ := h.mem_introduced.mp hw
      obtain ⟨i, hi⟩ := List.mem_iff_getElem?.mp (List.mem_reverse.mp hv)
      obtain ⟨j, hj⟩ := List.mem_iff_getElem?.mp hvm
      exact hp' ((hg.introduced_unique p q n m i j v hp hm hi hj).1 ▸ hq)

/-! ## The loop -/

/-- A stack entry holds the node at a place and the node it is met under. -/
def Stacked (g : Graph) (root : NodeId) (p : Place) (entry : NodeId × Option NodeId) : Prop :=
  g.at? root p = some entry.1 ∧ g.ownerAt root p = entry.2

theorem stacked_children {stack : List (NodeId × Option NodeId)} (hp : g.at? root p = some n)
    (h : List.Forall₂ (Stacked g root) todo stack) :
    List.Forall₂ (Stacked g root) (placesBelow g n p ++ todo)
      ((g.children n).map (fun c => (c, some n)) ++ stack) := by
  refine List.rel_append (List.forall₂_iff_get.mpr ⟨by simp [placesBelow], fun i hi hi' => ?_⟩) h
  have hlt : i < (g.children n).length := by simpa using hi'
  have hc : (g.children n)[i]? = some (g.children n)[i] := List.getElem?_eq_getElem hlt
  simp only [placesBelow, List.get_eq_getElem, List.getElem_map, List.getElem_range]
  exact ⟨Graph.at?_snoc_eq_some.mpr ⟨n, hp, hc⟩, by rw [Graph.ownerAt_snoc, hp]⟩

theorem Progress.length_done_le (hg : g.Closed) (hroot : root < g.nodes.size)
    (h : Progress g root done todo s) : done.length ≤ g.nodes.size := by
  have hsub : s.met.toFinset ⊆ Finset.range g.nodes.size := fun n hn => by
    obtain ⟨p, -, hat⟩ := h.exists_place (List.mem_toFinset.mp hn)
    exact Finset.mem_range.mpr (hg.at?_lt hroot hat)
  have hcard := Finset.card_le_card hsub
  rwa [List.toFinset_card_of_nodup h.met_nodup, Finset.card_range, h.length_met] at hcard

/-- The places done cover the unfolding, or the unit has a fault. -/
def Decided (g : Graph) (root : NodeId) : Linking × Option LinkFailure → Prop
  | (s, none) => ∃ done, Progress g root done [] s
  | (_, some _) => ¬ g.Linkable root

/-- **The loop decides**, and further turns change nothing: it ends by itself. -/
theorem visitAll_spec (hg : g.Closed) (hroot : root < g.nodes.size) (fuel : Nat)
    {stack : List (NodeId × Option NodeId)} (h : Progress g root done todo s)
    (hstack : List.Forall₂ (Stacked g root) todo stack)
    (hfuel : g.nodes.size < fuel + done.length) :
    Decided g root (visitAll fuel stack s) ∧
      ∀ k, visitAll (fuel + k) stack s = visitAll fuel stack s := by
  induction fuel generalizing done todo stack s with
  | zero =>
    have := h.length_done_le hg hroot
    omega
  | succ fuel ih =>
    cases hstack with
    | nil => exact ⟨⟨done, h⟩, fun k => by rw [Nat.add_right_comm]; rfl⟩
    | @cons p entry todo stack hentry hrest =>
      obtain ⟨n, owner⟩ := entry
      obtain ⟨hp, howner⟩ := hentry
      simp only [] at hp howner
      subst howner
      rcases hv : visit n (g.ownerAt root p) s with ⟨s', _ | f⟩
      · have h' := h.step hg hroot hp hv
        have hchildren : s'.graph.children n = g.children n :=
          congrArg Shape.children (h'.marks.shape_eq n)
        obtain ⟨hdecided, hmore⟩ := ih h' (stacked_children hp hrest)
          (by rw [List.length_cons]; omega)
        refine ⟨?_, fun k => ?_⟩
        · simpa only [visitAll, hv, hchildren] using hdecided
        · simpa only [Nat.add_right_comm fuel 1 k, visitAll, hv, hchildren] using hmore k
      · refine ⟨?_, fun k => ?_⟩
        · rw [visitAll, hv]
          exact h.not_linkable hp hv
        · simp only [Nat.add_right_comm fuel 1 k, visitAll, hv]

/-! ## The outcome -/

/-- When nothing is to do, every place of the unfolding is done. -/
theorem Progress.all_done (h : Progress g root done [] s) {q : Place} (hq : g.at? root q = some n) :
    q ∈ done := by
  induction q using List.reverseRecOn generalizing n with
  | nil => simpa using h.root_mem
  | append_singleton q i ih =>
    obtain ⟨m, hm, -⟩ := Graph.at?_snoc_eq_some.mp hq
    simpa using h.covered q i n (ih hm) hq

theorem Progress.introduces_iff (h : Progress g root done [] s) {v : VariableId} :
    v ∈ s.introduced ↔ g.Introduces root v := by
  rw [h.mem_introduced]
  exact ⟨fun ⟨p, _, n, hat, hv⟩ => ⟨p, n, hat, hv⟩, fun ⟨p, n, hat, hv⟩ =>
    ⟨p, h.all_done hat, n, hat, hv⟩⟩

/-- A mention is at fault when it has no variable of the unit; a member may have none. -/
theorem mentionFailure?_eq_none (h : Marks g root done s.graph) :
    mentionFailure? s n = none ↔
      (∀ name var, g.shape n = .varAccess name var → ∃ v, var = some v ∧ v ∈ s.introduced) ∧
      (∀ name qualifier v, g.shape n = .fieldAccess name qualifier (some v) →
        v ∈ s.introduced) := by
  rw [mentionFailure?, h.shape_eq]
  rcases hshape : g.shape n with _ | _ | _ | _ | _ | _ | _ | _ | _ | _ | _ | _ | _ |
    ⟨name, _ | v⟩ | ⟨name, qualifier, _ | v⟩ | _ | _ | _ | _ | _ | _ | _ <;> simp

theorem Progress.mentions_known (h : Progress g root done [] s) :
    s.mentions.reverse.findSome? (mentionFailure? s) = none ↔
      ∀ p n, g.at? root p = some n → mentionFailure? s n = none := by
  rw [List.findSome?_eq_none_iff]
  constructor
  · intro hall p n hat
    by_cases hmention : isMention (g.shape n)
    · refine hall n (List.mem_reverse.mpr ?_)
      rw [h.mentions_eq]
      exact List.mem_filter.mpr ⟨h.mem_met (h.all_done hat) hat, hmention⟩
    · rw [mentionFailure?_eq_none h.marks]
      refine ⟨fun name var hshape => ?_, fun name qualifier v hshape => ?_⟩ <;>
        exact absurd (by rw [hshape]; rfl) hmention
  · intro hall n hn
    rw [List.mem_reverse, h.mentions_eq] at hn
    obtain ⟨p, -, hat⟩ := h.exists_place (List.mem_filter.mp hn).1
    exact hall p n hat

/-- When the unfolding is covered, all that is asked of the unit holds but for its mentions. -/
theorem Progress.linkable_iff (h : Progress g root done [] s) :
    g.Linkable root ↔ s.mentions.reverse.findSome? (mentionFailure? s) = none := by
  rw [h.mentions_known]
  constructor
  · refine fun hg p n hat => (mentionFailure?_eq_none h.marks).mpr
      ⟨fun name var hshape => ?_, fun name qualifier v hshape => ?_⟩
    · obtain ⟨v, hv, hintro⟩ := hg.variable_known p n name var hat hshape
      exact ⟨v, hv, h.introduces_iff.mpr hintro⟩
    · exact h.introduces_iff.mpr (hg.member_known p n name qualifier v hat hshape)
  · intro hall
    -- equal nodes at two places done would be a repetition among the nodes met
    have hplace : ∀ p q n, g.at? root p = some n → g.at? root q = some n → p = q := by
      intro p q n hp hq
      have hnodup : (done.map (g.at? root)).Nodup :=
        h.met_eq ▸ h.met_nodup.map (Option.some_injective _)
      exact List.inj_on_of_nodup_map hnodup (h.all_done hp) (h.all_done hq) (hp.trans hq.symm)
    have hnodup := h.introduced_eq ▸ h.introduced_nodup
    rw [List.nodup_flatMap] at hnodup
    refine ⟨hplace, ?_, fun p n hat c hc => ?_, fun p q m n i j v hp hq hi hj => ?_,
      fun p n name var hat hshape => ?_, fun p n name qualifier v hat hshape => ?_⟩
    · simpa using h.owner_free [] (h.all_done rfl) root rfl
    · obtain ⟨i, hi⟩ := List.mem_iff_getElem?.mp hc
      have hplace := Graph.at?_snoc_eq_some.mpr ⟨n, hat, hi⟩
      simpa [hat] using h.owner_free _ (h.all_done hplace) c hplace
    · have hm := h.mem_met (h.all_done hp) hp
      have hn := h.mem_met (h.all_done hq) hq
      have hmn : m = n := by
        by_contra hne
        have hdisjoint : List.Disjoint (g.shape m).introduced.reverse
            (g.shape n).introduced.reverse := by
          have : Std.Symm (Function.onFun List.Disjoint fun n => (g.shape n).introduced.reverse) :=
            ⟨fun a b hab => List.Disjoint.symm hab⟩
          exact hnodup.2.forall hm hn hne
        exact hdisjoint (List.mem_reverse.mpr (List.mem_of_getElem? hi))
          (List.mem_reverse.mpr (List.mem_of_getElem? hj))
      subst hmn
      exact ⟨hplace p q m hp hq, (List.getElem?_inj (List.getElem?_eq_some_iff.mp hi).1
        (List.nodup_reverse.mp (hnodup.1 m hm))).mp (hi.trans hj.symm)⟩
    · obtain ⟨v, hv, hintro⟩ := ((mentionFailure?_eq_none h.marks).mp (hall p n hat)).1 name var hshape
      exact ⟨v, hv, h.introduces_iff.mp hintro⟩
    · exact h.introduces_iff.mp
        (((mentionFailure?_eq_none h.marks).mp (hall p n hat)).2 name qualifier v hshape)

/-- When the unfolding of a linkable unit is covered, owners and scopes are as they should be. -/
theorem Progress.owned (h : Progress g root done [] s)
    (hunit : (g.shape root).introduced = []) : g.Owned root s.graph := by
  have howner : ∀ p n, g.at? root p = some n → s.graph.owner n = g.ownerAt root p :=
    fun p n hat => h.marks.owner_done p (h.all_done hat) n hat
  have hscope : ∀ p n, g.at? root p = some n → ∀ v ∈ (g.shape n).introduced,
      (s.graph.variable' v).scope = some (scopeOf (g.shape n) n (g.ownerAt root p) v) :=
    fun p n hat => h.marks.scope_done p (h.all_done hat) n hat
  -- a node that introduces a variable is not the unit, hence it has an owner
  have hsome : ∀ p n, g.at? root p = some n → (g.shape n).introduced ≠ [] →
      some ((g.ownerAt root p).getD n) = g.ownerAt root p := by
    intro p n hat hne
    rcases List.eq_nil_or_concat' p with rfl | ⟨q, i, rfl⟩
    · cases hat
      exact absurd hunit hne
    · obtain ⟨m, hm, -⟩ := Graph.at?_snoc_eq_some.mp hat
      rw [Graph.ownerAt_snoc, hm, Option.getD_some]
  refine ⟨howner [] root rfl, fun p n hat c hc => ?_, fun p n v init hat hshape => ?_,
    fun p n info members init body v hat hshape hvar => ?_,
    fun p n info members init body hat hshape v hv => ?_, fun p n types v body hat hshape => ?_,
    fun p n parameters isAsync body hat hshape v hv => ?_⟩
  · obtain ⟨i, hi⟩ := List.mem_iff_getElem?.mp hc
    rw [howner _ c (Graph.at?_snoc_eq_some.mpr ⟨n, hat, hi⟩), Graph.ownerAt_snoc, hat]
  · have hv : v ∈ (g.shape n).introduced := by simp [hshape, Shape.introduced]
    rw [hscope p n hat v hv, hshape, scopeOf, howner p n hat]
    exact hsome p n hat (List.ne_nil_of_mem hv)
  · have hv : v ∈ (g.shape n).introduced := by simp [hshape, Shape.introduced, hvar]
    rw [hscope p n hat v hv, hshape, scopeOf, if_pos hvar, howner p n hat]
    exact hsome p n hat (List.ne_nil_of_mem hv)
  · have hmem : v ∈ (g.shape n).introduced := by simp [hshape, Shape.introduced, hv]
    -- a parameter that were the node's own variable too would be introduced twice
    have hvar : info.var ≠ some v := fun hvar => by
      have hnodup := h.introduced_eq ▸ h.introduced_nodup
      have hself := (List.nodup_flatMap.mp hnodup).1 n (h.mem_met (h.all_done hat) hat)
      rw [List.nodup_reverse, hshape, Shape.introduced, hvar] at hself
      exact List.disjoint_of_nodup_append hself hv (List.mem_singleton_self v)
    rw [hscope p n hat v hmem, hshape, scopeOf, if_neg hvar]
  · have hv : v ∈ (g.shape n).introduced := by simp [hshape, Shape.introduced]
    rw [hscope p n hat v hv, hshape]
    rfl
  · have hmem : v ∈ (g.shape n).introduced := by simpa [hshape, Shape.introduced] using hv
    rw [hscope p n hat v hmem, hshape]
    rfl

/-! ## What no outcome changes -/

theorem sameSkeleton_introduce (n : NodeId) (owner : Option NodeId) (vs : List VariableId)
    (s : Linking) : s.graph.SameSkeleton (introduce n owner vs s).1.graph := by
  induction vs generalizing s with
  | nil => exact .refl _
  | cons v rest ih =>
    rw [introduce]
    split
    · exact .refl _
    · have hscope := Graph.SameSkeleton.setScope s.graph v (scopeOf (s.graph.shape n) n owner v)
      have hrest := ih { s with
        introduced := v :: s.introduced
        graph := s.graph.setScope v (scopeOf (s.graph.shape n) n owner v) }
      exact hscope.trans hrest

theorem sameSkeleton_visit : s.graph.SameSkeleton (visit n owner s).1.graph := by
  rw [visit]
  simp only []
  split
  · exact .refl _
  · split
    · exact .refl _
    · have howner := Graph.SameSkeleton.setOwner s.graph n owner
      have hscopes := sameSkeleton_introduce n owner (s.graph.shape n).introduced
        { s with met := n :: s.met, graph := s.graph.setOwner n owner }
      split
      · rename_i hintroduce
        rw [hintroduce] at hscopes
        exact howner.trans hscopes
      · rename_i t hintroduce
        rw [hintroduce] at hscopes
        split <;> exact howner.trans hscopes

theorem sameSkeleton_visitAll (fuel : Nat) (stack : List (NodeId × Option NodeId)) (s : Linking) :
    s.graph.SameSkeleton (visitAll fuel stack s).1.graph := by
  induction fuel generalizing stack s with
  | zero => exact .refl _
  | succ fuel ih =>
    rcases stack with _ | ⟨⟨n, owner⟩, rest⟩
    · exact .refl _
    · have hvisit : s.graph.SameSkeleton (visit n owner s).1.graph := sameSkeleton_visit
      rw [visitAll]
      split
      · rename_i hv
        rwa [hv] at hvisit
      · rename_i hv
        rw [hv] at hvisit
        exact hvisit.trans (ih _ _)

end Linking

namespace Graph

variable {g : Graph} {root : NodeId}

/-- Whatever its outcome, linking changes nothing but owners and scopes. -/
theorem sameSkeleton_link (g : Graph) (root : NodeId) : g.SameSkeleton (g.link root).1 := by
  have h := Linking.sameSkeleton_visitAll (g.nodes.size + 2) [(root, none)] (.start g)
  rw [link]
  split
  · rename_i hrun
    rwa [hrun] at h
  · rename_i hrun
    rwa [hrun] at h

/-- The loop of linking decides, and more turns than there are nodes change nothing. -/
theorem link_spec (hg : g.Closed) (hroot : root < g.nodes.size) {info : UnitInfo}
    {declarations : List NodeId} (hunit : g.shape root = .sourceUnit info declarations) :
    (∀ k, Linking.visitAll (g.nodes.size + 1 + k) [(root, none)] (.start g) =
        Linking.visitAll (g.nodes.size + 1) [(root, none)] (.start g)) ∧
      ((g.link root).2 = none ↔ g.Linkable root) ∧
      ((g.link root).2 = none → g.Owned root (g.link root).1) := by
  have hstart := Linking.Progress.start g root
  have hstack : List.Forall₂ (Linking.Stacked g root) [[]] [(root, none)] :=
    .cons ⟨rfl, rfl⟩ .nil
  obtain ⟨hdecided, hmore⟩ := Linking.visitAll_spec hg hroot (g.nodes.size + 1) hstart
    hstack (by simp)
  refine ⟨hmore, ?_⟩
  rw [link, show g.nodes.size + 2 = g.nodes.size + 1 + 1 from rfl, hmore 1]
  rcases hrun : Linking.visitAll (g.nodes.size + 1) [(root, none)] (.start g) with ⟨s, _ | f⟩
  · rw [hrun] at hdecided
    obtain ⟨done, hdone⟩ := hdecided
    refine ⟨hdone.linkable_iff.symm, fun _ => hdone.owned ?_⟩
    rw [hunit]
    rfl
  · rw [hrun] at hdecided
    exact ⟨⟨fun h => absurd h (Option.some_ne_none f), fun h => absurd h hdecided⟩,
      fun h => absurd h (Option.some_ne_none f)⟩

/-- A unit of one function that returns its parameter, and a unit with a block that holds
itself. -/
def identityUnit : Graph where
  nodes := #[
    ⟨⟨1, 0, none, none⟩, .sourceUnit ⟨⟨"", ["m.py"]⟩, "python", [], []⟩ [1], none⟩,
    ⟨⟨1, 0, none, none⟩, .declaration ⟨"same", .method, "same", [], [0], none, false⟩ [] none [2],
      none⟩,
    ⟨⟨2, 4, none, none⟩, .returnStatement (some 3), some 1⟩,
    ⟨⟨2, 11, none, none⟩, .varAccess "x" (some 0), none⟩,
    ⟨⟨3, 0, none, none⟩, .sourceUnit ⟨⟨"", ["n.py"]⟩, "python", [], []⟩ [5], none⟩,
    ⟨⟨3, 0, none, none⟩, .block [5], none⟩]
  vars := #[⟨"x", none, .parameter, false, none⟩]

theorem closed_identityUnit : identityUnit.Closed :=
  ⟨by decide, by decide⟩

end Graph

end ModelLint
