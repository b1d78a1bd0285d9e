import ModelLint.Proofs.Program.Linking

/-!
# Linking again

Linking that fails stops halfway and leaves owners and scopes behind. They are those that a second run
would set, so it takes the same visits, sets what is there already, and fails at the same place.

* `Linking.Settled`: a graph in which all is set that a run has set so far.
* `Linking.Leads`: what visits do to a state, whether they fail or not. `leads_visit`, `leads_visitAll`.
* `again_visit`, **`again_visitAll`**: visits on a graph where all is set already.
* `Graph.Framed`, **`link_framed`**: what linking changes, and that a second run changes nothing.
-/

namespace ModelLint

namespace Graph

variable {g : Graph} {n : NodeId} {v : VariableId} {scope : NodeId} {owner : Option NodeId}

theorem modify_eq_self {α : Type} {xs : Array α} {i : Nat} {f : α → α}
    (h : ∀ hi : i < xs.size, f xs[i] = xs[i]) : xs.modify i f = xs := by
  refine Array.ext Array.size_modify fun j hj hj' => ?_
  rw [Array.getElem_modify]
  split
  · next heq =>
    subst heq
    exact h hj'
  · rfl

theorem setOwner_eq_self (h : n < g.nodes.size → g.owner n = owner) : g.setOwner n owner = g := by
  rw [setOwner, modify_eq_self fun hn => ?_]
  have howner := h hn
  rw [Graph.owner, node, Array.getD_eq_getD_getElem?, Array.getElem?_eq_getElem hn,
    Option.getD_some] at howner
  subst howner
  rfl

theorem setScope_eq_self (h : v < g.vars.size → (g.variable' v).scope = some scope) :
    g.setScope v scope = g := by
  rw [setScope, modify_eq_self fun hv => ?_]
  have hscope := h hv
  rw [variable', Array.getD_eq_getD_getElem?, Array.getElem?_eq_getElem hv, Option.getD_some]
    at hscope
  rw [← hscope]

theorem scope_setScope (g : Graph) (v w : VariableId) (scope : NodeId) :
    ((g.setScope v scope).variable' w).scope =
      if w = v ∧ v < g.vars.size then some scope else (g.variable' w).scope := by
  rw [variable'_setScope]
  split <;> rfl

theorem owner_eq_none (h : g.nodes.size ≤ n) : g.owner n = none := by
  rw [Graph.owner, node, Array.getD_eq_getD_getElem?, Array.getElem?_eq_none h]
  rfl

end Graph

namespace Linking

variable {g : Graph} {root n : NodeId} {owner : Option NodeId} {vs : List VariableId}
  {v : VariableId} {s s' s'' : Linking} {f : Option LinkFailure} {fuel : Nat} {stack : List (NodeId × Option NodeId)}

/-! ## What is set -/

/-- **All is set in a graph that a state has set**: the owners of the nodes met, and the scopes of the
variables introduced. -/
structure Settled (s : Linking) (g : Graph) : Prop extends s.graph.SameSkeleton g where
  /-- A node that was met has its owner. -/
  owner_eq : ∀ n ∈ s.met, g.owner n = s.graph.owner n
  /-- A variable that was introduced has its scope. -/
  scope_eq : ∀ v ∈ s.introduced, (g.variable' v).scope = (s.graph.variable' v).scope

/-- The same progress on another graph. -/
def on (s : Linking) (g : Graph) : Linking := { s with graph := g }

@[simp] theorem graph_on (s : Linking) (g : Graph) : (s.on g).graph = g := rfl

/-- **One state leads to another.** What was set before stays, and owners and scopes come up only for
nodes that are met and for variables that these nodes introduce. -/
structure Leads (s s' : Linking) : Prop extends Settled s s'.graph where
  /-- Nodes that were met stay so. -/
  met_subset : s.met ⊆ s'.met
  /-- Variables that were introduced stay so. -/
  introduced_subset : s.introduced ⊆ s'.introduced
  /-- Variables are introduced by nodes that are met. -/
  introduced_by : ∀ v ∈ s'.introduced,
    v ∈ s.introduced ∨ ∃ n ∈ s'.met, v ∈ (s.graph.shape n).introduced
  /-- No owner is replaced. -/
  owner_kept : ∀ n o, s.graph.owner n = some o → s'.graph.owner n = some o
  /-- Nodes that are not met keep what they had. -/
  owner_rest : ∀ n ∉ s'.met, s'.graph.owner n = s.graph.owner n
  /-- So do variables that are not introduced. -/
  scope_rest : ∀ v ∉ s'.introduced, (s'.graph.variable' v).scope = (s.graph.variable' v).scope

theorem Leads.refl (s : Linking) : Leads s s where
  toSettled := ⟨.refl _, fun _ _ => rfl, fun _ _ => rfl⟩
  met_subset := List.Subset.refl _
  introduced_subset := List.Subset.refl _
  introduced_by _ hv := .inl hv
  owner_kept _ _ h := h
  owner_rest _ _ := rfl
  scope_rest _ _ := rfl

/-- What is set in the end was set on the way. -/
theorem Settled.of_leads (hg : Settled s' g) (h : Leads s s') : Settled s g where
  toSameSkeleton := h.toSameSkeleton.trans hg.toSameSkeleton
  owner_eq n hn := (hg.owner_eq n (h.met_subset hn)).trans (h.owner_eq n hn)
  scope_eq v hv := (hg.scope_eq v (h.introduced_subset hv)).trans (h.scope_eq v hv)

theorem Leads.trans (h : Leads s s') (h' : Leads s' s'') : Leads s s'' where
  toSettled := h'.toSettled.of_leads h
  met_subset := List.Subset.trans h.met_subset h'.met_subset
  introduced_subset := List.Subset.trans h.introduced_subset h'.introduced_subset
  introduced_by v hv := by
    rcases h'.introduced_by v hv with hv | ⟨n, hn, hv⟩
    · rcases h.introduced_by v hv with hv | ⟨n, hn, hv⟩
      · exact .inl hv
      · exact .inr ⟨n, h'.met_subset hn, hv⟩
    · exact .inr ⟨n, hn, h.shape_eq n ▸ hv⟩
  owner_kept n o ho := h'.owner_kept n o (h.owner_kept n o ho)
  owner_rest n hn := (h'.owner_rest n hn).trans (h.owner_rest n fun hmet => hn (h'.met_subset hmet))
  scope_rest v hv :=
    (h'.scope_rest v hv).trans (h.scope_rest v fun hold => hv (h'.introduced_subset hold))

/-! ## Introducing variables -/

/-- The state when a node has introduced one more variable. -/
def introduceOne (n : NodeId) (owner : Option NodeId) (v : VariableId) (s : Linking) : Linking :=
  { s with
    introduced := v :: s.introduced
    graph := s.graph.setScope v (scopeOf (s.graph.shape n) n owner v) }

theorem introduce_cons (h : v ∉ s.introduced) :
    introduce n owner (v :: vs) s = introduce n owner vs (introduceOne n owner v s) := by
  rw [introduce, if_neg (by rwa [List.contains_iff_mem])]
  rfl

theorem introduce_cons_of_mem (h : v ∈ s.introduced) : introduce n owner (v :: vs) s =
    (s, some (.declaredTwice (s.graph.location n).line (s.graph.variable' v).name)) := by
  rw [introduce, if_pos (List.contains_iff_mem.mpr h)]

theorem leads_introduceOne (hn : n ∈ s.met) (hv : v ∈ (s.graph.shape n).introduced)
    (hnew : v ∉ s.introduced) : Leads s (introduceOne n owner v s) where
  toSameSkeleton := .setScope _ _ _
  owner_eq _ _ := rfl
  scope_eq w hw := by
    rw [introduceOne, Graph.scope_setScope, if_neg (by rintro ⟨rfl, -⟩; exact hnew hw)]
  met_subset := List.Subset.refl _
  introduced_subset := List.subset_cons_self _ _
  introduced_by w hw := by
    rcases List.mem_cons.mp hw with rfl | hw
    · exact .inr ⟨n, hn, hv⟩
    · exact .inl hw
  owner_kept _ _ h := h
  owner_rest _ _ := rfl
  scope_rest w hw := by
    rw [introduceOne, Graph.scope_setScope, if_neg (by rintro ⟨rfl, -⟩; exact hw List.mem_cons_self)]

theorem leads_introduce (hn : n ∈ s.met) (hvs : vs ⊆ (s.graph.shape n).introduced)
    (h : introduce n owner vs s = (s', f)) : Leads s s' := by
  induction vs generalizing s with
  | nil =>
    cases h
    exact .refl _
  | cons v rest ih =>
    obtain ⟨hv, hrest⟩ := List.cons_subset.mp hvs
    by_cases hnew : v ∈ s.introduced
    · rw [introduce_cons_of_mem hnew] at h
      cases h
      exact .refl _
    · rw [introduce_cons hnew] at h
      exact (leads_introduceOne hn hv hnew).trans (ih hn hrest h)

/-- **Variables are introduced again** in the same way, on a graph where all is set. -/
theorem again_introduce (hn : n ∈ s.met) (hvs : vs ⊆ (s.graph.shape n).introduced)
    (h : introduce n owner vs s = (s', f)) (hg : Settled s' g) :
    introduce n owner vs (s.on g) = (s'.on g, f) := by
  induction vs generalizing s with
  | nil =>
    cases h
    rfl
  | cons v rest ih =>
    obtain ⟨hv, hrest⟩ := List.cons_subset.mp hvs
    by_cases hnew : v ∈ s.introduced
    · rw [introduce_cons_of_mem hnew] at h
      cases h
      have hname : (g.variable' v).name = (s'.graph.variable' v).name := by
        simpa using congrArg Variable.name (hg.variable_eq v)
      rw [introduce_cons_of_mem (s := s'.on g) hnew, graph_on, hg.location_eq, hname]
    · rw [introduce_cons hnew] at h
      have hone : Settled (introduceOne n owner v s) g :=
        hg.of_leads (leads_introduce (s := introduceOne n owner v s) hn hrest h)
      have hset : introduceOne n owner v (s.on g) = (introduceOne n owner v s).on g := by
        have hself : g.setScope v (scopeOf (g.shape n) n owner v) = g := by
          refine Graph.setScope_eq_self fun hlt => ?_
          have hlt' : v < s.graph.vars.size := by
            rw [hone.vars_size, introduceOne, Graph.size_setScope] at hlt
            exact hlt
          rw [hone.scope_eq v List.mem_cons_self, hone.shape_eq, introduceOne, Graph.scope_setScope,
            if_pos ⟨rfl, hlt'⟩, Graph.shape_setScope]
        rw [introduceOne, graph_on, hself]
        rfl
      rw [introduce_cons (s := s.on g) hnew, hset]
      exact ih (s := introduceOne n owner v s) hn hrest h

/-! ## Visits -/

/-- The state when a node has been met and has its owner. -/
def own (n : NodeId) (owner : Option NodeId) (s : Linking) : Linking :=
  { s with met := n :: s.met, graph := s.graph.setOwner n owner }

/-- The outcome of a visit, where the variables of the node have been introduced or not: a mention is
put aside for later. -/
def noted (n : NodeId) (shape : Shape NodeId) (result : Linking × Option LinkFailure) :
    Linking × Option LinkFailure :=
  (if result.2 = none ∧ isMention shape then
    { result.1 with mentions := n :: result.1.mentions } else result.1, result.2)

theorem visit_of_mem (h : n ∈ s.met) : visit n owner s =
    (s, some (.sharedNode (s.graph.location n).line (s.graph.shape n).kindName)) := by
  rw [visit]
  simp only []
  rw [if_pos (List.contains_iff_mem.mpr h)]

theorem visit_of_owned (h : n ∉ s.met) (hother : s.graph.owner n ≠ none ∧ s.graph.owner n ≠ owner) :
    visit n owner s = ({ s with met := n :: s.met },
      some (.ownedElsewhere (s.graph.location n).line (s.graph.shape n).kindName)) := by
  rw [visit]
  simp only []
  rw [if_neg (by rwa [List.contains_iff_mem]), if_pos hother]

theorem visit_of_free (h : n ∉ s.met) (hfree : ¬ (s.graph.owner n ≠ none ∧ s.graph.owner n ≠ owner)) :
    visit n owner s = noted n (s.graph.shape n)
      (introduce n owner (s.graph.shape n).introduced (own n owner s)) := by
  rw [visit]
  simp only []
  rw [if_neg (by rwa [List.contains_iff_mem]), if_neg hfree]
  split
  · next hsome =>
    rw [own, hsome, noted, if_neg (by simp)]
  · next hnone =>
    rw [own, hnone, noted]
    simp only [true_and]

theorem leads_own (h : n ∉ s.met) (hfree : ¬ (s.graph.owner n ≠ none ∧ s.graph.owner n ≠ owner)) :
    Leads s (own n owner s) where
  toSameSkeleton := .setOwner _ _ _
  owner_eq m hm := by
    rw [own, Graph.owner_setOwner, if_neg (by rintro ⟨rfl, -⟩; exact h hm)]
  scope_eq _ _ := rfl
  met_subset := List.subset_cons_self _ _
  introduced_subset := List.Subset.refl _
  introduced_by _ hv := .inl hv
  owner_kept m o ho := by
    rw [own, Graph.owner_setOwner]
    split
    · next hm =>
      rw [hm.1] at ho
      rw [ho] at hfree
      simpa [eq_comm] using hfree
    · exact ho
  owner_rest m hm := by
    rw [own, Graph.owner_setOwner, if_neg (by rintro ⟨rfl, -⟩; exact hm List.mem_cons_self)]
  scope_rest _ _ := rfl

theorem leads_noted {shape : Shape NodeId} {result : Linking × Option LinkFailure}
    (h : Leads s result.1) : Leads s (noted n shape result).1 := by
  rw [noted]
  split
  · exact { h with }
  · exact h

theorem leads_visit : Leads s (visit n owner s).1 := by
  by_cases hmet : n ∈ s.met
  · rw [visit_of_mem hmet]
    exact .refl s
  by_cases howned : s.graph.owner n ≠ none ∧ s.graph.owner n ≠ owner
  · rw [visit_of_owned hmet howned]
    exact { Leads.refl s with
      met_subset := List.subset_cons_self _ _
      introduced_by := fun v hv => .inl hv
      owner_rest := fun _ _ => rfl }
  · rw [visit_of_free hmet howned]
    have hone := leads_own hmet howned
    refine leads_noted (hone.trans (leads_introduce (n := n) List.mem_cons_self ?_ rfl))
    rw [own, Graph.shape_setOwner]
    exact List.Subset.refl _

theorem met_introduce (n : NodeId) (owner : Option NodeId) (vs : List VariableId) (s : Linking) :
    (introduce n owner vs s).1.met = s.met := by
  induction vs generalizing s with
  | nil => rfl
  | cons v rest ih =>
    by_cases hnew : v ∈ s.introduced
    · rw [introduce_cons_of_mem hnew]
    · rw [introduce_cons hnew, ih, introduceOne]

theorem mem_met_visit {m : NodeId} (h : m ∈ (visit n owner s).1.met) : m = n ∨ m ∈ s.met := by
  by_cases hmet : n ∈ s.met
  · rw [visit_of_mem hmet] at h
    exact .inr h
  by_cases howned : s.graph.owner n ≠ none ∧ s.graph.owner n ≠ owner
  · rw [visit_of_owned hmet howned] at h
    exact List.mem_cons.mp h
  · rw [visit_of_free hmet howned, noted, apply_ite Linking.met, ite_self, met_introduce, own] at h
    exact List.mem_cons.mp h

theorem noted_on (n : NodeId) (shape : Shape NodeId) (s : Linking) (f : Option LinkFailure)
    (g : Graph) : noted n shape (s.on g, f) = ((noted n shape (s, f)).1.on g, f) := by
  rw [noted, noted]
  split <;> rfl

/-- A node that was met has its owner already. -/
theorem own_on (hg : Settled (own n owner s) g) : own n owner (s.on g) = (own n owner s).on g := by
  have hself : g.setOwner n owner = g := by
    refine Graph.setOwner_eq_self fun hlt => ?_
    have hlt' : n < s.graph.nodes.size := by
      rw [hg.nodes_size, own, Graph.size_setOwner] at hlt
      exact hlt
    rw [hg.owner_eq n List.mem_cons_self, own, Graph.owner_setOwner, if_pos ⟨rfl, hlt'⟩]
  rw [own, graph_on, hself]
  rfl

/-- So no other node owns it. -/
theorem free_on (hg : Settled (own n owner s) g) : ¬ (g.owner n ≠ none ∧ g.owner n ≠ owner) := by
  rintro ⟨hsome, hother⟩
  have howner : g.owner n = (s.graph.setOwner n owner).owner n := hg.owner_eq n List.mem_cons_self
  rw [Graph.owner_setOwner] at howner
  split at howner
  · exact hother howner
  · next hstored =>
    have hsize : s.graph.nodes.size ≤ n := Nat.le_of_not_lt fun hlt => hstored ⟨rfl, hlt⟩
    exact hsome (howner.trans (Graph.owner_eq_none hsize))

/-- **A visit is made again** in the same way, on a graph where all is set. -/
theorem again_visit (hg : Settled (visit n owner s).1 g) :
    visit n owner (s.on g) = ((visit n owner s).1.on g, (visit n owner s).2) := by
  have hs : Settled s g := hg.of_leads leads_visit
  by_cases hmet : n ∈ s.met
  · rw [visit_of_mem hmet, visit_of_mem (s := s.on g) hmet, graph_on, hs.location_eq, hs.shape_eq]
  by_cases howned : s.graph.owner n ≠ none ∧ s.graph.owner n ≠ owner
  · rw [visit_of_owned hmet howned] at hg ⊢
    have howner : g.owner n = s.graph.owner n := hg.owner_eq n List.mem_cons_self
    rw [visit_of_owned (s := s.on g) hmet (by rwa [graph_on, howner]), graph_on, hs.location_eq,
      hs.shape_eq]
    rfl
  · rw [visit_of_free hmet howned] at hg ⊢
    rcases hrun : introduce n owner (s.graph.shape n).introduced (own n owner s) with ⟨t, f⟩
    rw [hrun] at hg
    have hvs : (s.graph.shape n).introduced ⊆ ((own n owner s).graph.shape n).introduced := by
      rw [own, Graph.shape_setOwner]
      exact List.Subset.refl _
    have ht : Settled t g := hg.of_leads (leads_noted (.refl t))
    have hown : Settled (own n owner s) g :=
      ht.of_leads (leads_introduce (n := n) List.mem_cons_self hvs hrun)
    have hagain := again_introduce (n := n) List.mem_cons_self hvs hrun ht
    rw [visit_of_free (s := s.on g) hmet (free_on hown), graph_on, hs.shape_eq, own_on hown, hagain,
      noted_on]
    rfl

/-! ## All visits -/

theorem visitAll_succ (fuel : Nat) (n : NodeId) (owner : Option NodeId)
    (rest : List (NodeId × Option NodeId)) (s : Linking) :
    visitAll (fuel + 1) ((n, owner) :: rest) s =
      if (visit n owner s).2 = none then
        visitAll fuel (((visit n owner s).1.graph.children n).map (fun c => (c, some n)) ++ rest)
          (visit n owner s).1
      else visit n owner s := by
  rw [visitAll]
  split
  · next hvisit => rw [hvisit, if_neg (by simp)]
  · next hvisit => rw [hvisit, if_pos rfl]

theorem leads_visitAll (fuel : Nat) (stack : List (NodeId × Option NodeId)) (s : Linking) :
    Leads s (visitAll fuel stack s).1 := by
  induction fuel generalizing stack s with
  | zero => exact .refl s
  | succ fuel ih =>
    rcases stack with _ | ⟨⟨n, owner⟩, rest⟩
    · exact .refl s
    · have hvisit : Leads s (visit n owner s).1 := leads_visit
      rw [visitAll_succ]
      split
      · exact hvisit.trans (ih _ _)
      · exact hvisit

/-- Visits meet what is reached from the nodes on the stack. -/
theorem mem_met_visitAll {m : NodeId} (hs : g.SameSkeleton s.graph)
    (hstack : ∀ entry ∈ stack, ∃ p, g.at? root p = some entry.1)
    (h : m ∈ (visitAll fuel stack s).1.met) : m ∈ s.met ∨ ∃ p, g.at? root p = some m := by
  induction fuel generalizing stack s with
  | zero => exact .inl h
  | succ fuel ih =>
    rcases stack with _ | ⟨⟨n, owner⟩, rest⟩
    · exact .inl h
    · obtain ⟨⟨p, hp⟩, hrest⟩ := List.forall_mem_cons.mp hstack
      have hmet : m ∈ (visit n owner s).1.met → m ∈ s.met ∨ ∃ p, g.at? root p = some m := by
        intro hm
        rcases mem_met_visit hm with rfl | hm
        · exact .inr ⟨p, hp⟩
        · exact .inl hm
      have hs' : g.SameSkeleton (visit n owner s).1.graph :=
        hs.trans leads_visit.toSameSkeleton
      rw [visitAll_succ] at h
      split at h
      · refine (ih hs' (fun entry hentry => ?_) h).elim hmet .inr
        rcases List.mem_append.mp hentry with hentry | hentry
        · obtain ⟨c, hc, rfl⟩ := List.mem_map.mp hentry
          rw [hs'.children_eq] at hc
          obtain ⟨i, hi⟩ := List.mem_iff_getElem?.mp hc
          exact ⟨p ++ [i], Graph.at?_snoc_eq_some.mpr ⟨n, hp, hi⟩⟩
        · exact hrest entry hentry
      · exact hmet h

/-- **All visits are made again** in the same way, on a graph where all is set. -/
theorem again_visitAll (hg : Settled (visitAll fuel stack s).1 g) :
    visitAll fuel stack (s.on g) =
      ((visitAll fuel stack s).1.on g, (visitAll fuel stack s).2) := by
  induction fuel generalizing stack s with
  | zero => rfl
  | succ fuel ih =>
    rcases stack with _ | ⟨⟨n, owner⟩, rest⟩
    · rfl
    · rw [visitAll_succ] at hg ⊢
      rw [visitAll_succ]
      split at hg
      · next hnone =>
        have hvisit : Settled (visit n owner s).1 g := hg.of_leads (leads_visitAll _ _ _)
        have hchildren : (visit n owner s).1.graph.children n = g.children n :=
          (hvisit.children_eq n).symm
        rw [again_visit hvisit, if_pos hnone, graph_on, if_pos hnone, ← ih hg, hchildren]
      · next hsome => rw [again_visit hg, if_neg hsome, if_neg hsome]

end Linking

namespace Graph

variable {g : Graph} {root : NodeId}

/-- **What linking may change, and what it leaves behind.** -/
structure Framed (g : Graph) (root : NodeId) (g' : Graph) : Prop extends g.SameSkeleton g' where
  /-- No owner that was there is replaced. -/
  owner_kept : ∀ n o, g.owner n = some o → g'.owner n = some o
  /-- Owners come up for nodes that are reached from the unit. -/
  owner_reached : ∀ n, g'.owner n ≠ g.owner n → ∃ p, g.at? root p = some n
  /-- Scopes come up for variables that such nodes introduce. -/
  scope_introduced : ∀ v, (g'.variable' v).scope ≠ (g.variable' v).scope →
    ∃ p n, g.at? root p = some n ∧ v ∈ (g.shape n).introduced
  /-- The unit says the same about its file, so that messages name the same path. -/
  info_eq : g'.unitInfo? root = g.unitInfo? root
  /-- Linking again has the same outcome, and changes nothing. -/
  again : g'.link root = (g', (g.link root).2)

/-- The graph after linking is that after the visits, and a failure is that of a visit or of a
mention. -/
theorem link_eq (g : Graph) (root : NodeId) {s : Linking} {f : Option LinkFailure}
    (hrun : Linking.visitAll (g.nodes.size + 2) [(root, none)] (.start g) = (s, f)) :
    g.link root = (s.graph, f.or (s.mentions.reverse.findSome? (Linking.mentionFailure? s))) := by
  rw [link, hrun]
  cases f with
  | none => rw [Option.none_or]
  | some f => rw [Option.some_or]

/-- **Linking sets owners and scopes that are not set, and nothing else**, whether it fails or not.
Linking once more has the same outcome and changes nothing. -/
theorem link_framed (g : Graph) (root : NodeId) : g.Framed root (g.link root).1 := by
  rcases hrun : Linking.visitAll (g.nodes.size + 2) [(root, none)] (.start g) with ⟨s, f⟩
  have hleads : Linking.Leads (.start g) s := by
    have h := Linking.leads_visitAll (g.nodes.size + 2) [(root, none)] (.start g)
    rwa [hrun] at h
  have hmet : ∀ n ∈ s.met, ∃ p, g.at? root p = some n := by
    intro n hn
    have hstack : ∀ entry ∈ [(root, (none : Option NodeId))], ∃ p, g.at? root p = some entry.1 :=
      List.forall_mem_singleton.mpr ⟨[], rfl⟩
    have hn' : n ∈ (Linking.visitAll (g.nodes.size + 2) [(root, none)] (.start g)).1.met := by
      rwa [hrun]
    exact (Linking.mem_met_visitAll (.refl g) hstack hn').resolve_left List.not_mem_nil
  have hagain : Linking.visitAll (s.graph.nodes.size + 2) [(root, none)] (.start s.graph) =
      (s, f) := by
    have hsettled : Linking.Settled
        (Linking.visitAll (g.nodes.size + 2) [(root, none)] (.start g)).1 s.graph := by
      rw [hrun]
      exact (Linking.Leads.refl s).toSettled
    have h := Linking.again_visitAll hsettled
    rw [hrun] at h
    rw [hleads.nodes_size]
    exact h
  rw [link_eq g root hrun]
  refine ⟨hleads.toSameSkeleton, hleads.owner_kept, fun n hn => ?_, fun v hv => ?_, ?_, ?_⟩
  · by_contra hunmet
    exact hn (hleads.owner_rest n fun hn => hunmet (hmet n hn))
  · have hintroduced : v ∈ s.introduced := by
      by_contra hold
      exact hv (hleads.scope_rest v hold)
    rcases hleads.introduced_by v hintroduced with hnone | ⟨n, hn, hv⟩
    · exact absurd hnone List.not_mem_nil
    · obtain ⟨p, hp⟩ := hmet n hn
      exact ⟨p, n, hp, hv⟩
  · rw [unitInfo?, hleads.shape_eq]
    rfl
  · rw [link_eq g root hrun]
    exact link_eq s.graph root hagain

end Graph

end ModelLint
