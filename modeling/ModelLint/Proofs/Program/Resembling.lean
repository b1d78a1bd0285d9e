import ModelLint.Proofs.Program.Layout
import ModelLint.Proofs.Program.Relinking

/-!
# Units that are the same but for places and comments

Two graphs resemble each other if their nodes differ in nothing but where they stand and in the comments
of units. Linking never looks at either, except for the line that a failure names.

* `Graph.Resembles`, `Model.Resembles`: the same but for places and comments.
* **`Graph.Resembles.link`**: both are linked in the same way, or both fail for the same reason.
* `Tree.placeless`: a tree with all nodes at one place.
* **`Model.agree_ofTree`**: units of trees that are the same but for places and comments.
-/

namespace ModelLint

/-! ## Graphs -/

/-- **Two graphs are the same** but for the places of nodes and the comments of units. -/
structure Graph.Resembles (g g' : Graph) : Prop where
  /-- There are as many nodes. -/
  size_eq : g'.nodes.size = g.nodes.size
  /-- The variables are the same. -/
  vars_eq : g'.vars = g.vars
  /-- Nodes have the same owners. -/
  owner_eq : ∀ n, g'.owner n = g.owner n
  /-- A node says the same, or it is a unit and says the same but for comments. -/
  shape_eq : ∀ n, g'.shape n = g.shape n ∨
    ∃ info comments declarations, g.shape n = .sourceUnit info declarations ∧
      g'.shape n = .sourceUnit { info with comments } declarations

namespace Graph.Resembles

variable {g g' g'' : Graph}

theorem refl (g : Graph) : g.Resembles g := ⟨rfl, rfl, fun _ => rfl, fun _ => .inl rfl⟩

theorem symm (h : g.Resembles g') : g'.Resembles g where
  size_eq := h.size_eq.symm
  vars_eq := h.vars_eq.symm
  owner_eq n := (h.owner_eq n).symm
  shape_eq n := by
    rcases h.shape_eq n with heq | ⟨info, comments, declarations, heq, heq'⟩
    · exact .inl heq.symm
    · exact .inr ⟨{ info with comments }, info.comments, declarations, heq', heq⟩

theorem trans (h : g.Resembles g') (h' : g'.Resembles g'') : g.Resembles g'' where
  size_eq := h'.size_eq.trans h.size_eq
  vars_eq := h'.vars_eq.trans h.vars_eq
  owner_eq n := (h'.owner_eq n).trans (h.owner_eq n)
  shape_eq n := by
    rcases h.shape_eq n with heq | ⟨info, comments, declarations, heq, heq'⟩
    · rw [← heq]
      exact h'.shape_eq n
    · rcases h'.shape_eq n with hsame | ⟨info', comments', declarations', hinfo, hinfo'⟩
      · exact .inr ⟨info, comments, declarations, heq, hsame.trans heq'⟩
      · obtain ⟨rfl, rfl⟩ := Shape.sourceUnit.inj (heq'.symm.trans hinfo)
        exact .inr ⟨info, comments', declarations, heq, hinfo'⟩

variable (h : g.Resembles g')
include h

theorem variable'_eq (v : VariableId) : g'.variable' v = g.variable' v := by
  rw [variable', variable', h.vars_eq]

theorem children_eq (n : NodeId) : g'.children n = g.children n := by
  rcases h.shape_eq n with heq | ⟨_, _, _, heq, heq'⟩
  · rw [children, heq, children]
  · rw [children, heq', children, heq]
    rfl

theorem setOwner (n : NodeId) (owner : Option NodeId) :
    (g.setOwner n owner).Resembles (g'.setOwner n owner) where
  size_eq := by rw [size_setOwner, size_setOwner, h.size_eq]
  vars_eq := h.vars_eq
  owner_eq m := by rw [owner_setOwner, owner_setOwner, h.size_eq, h.owner_eq]
  shape_eq m := by simpa using h.shape_eq m

theorem setScope (v : VariableId) (scope : NodeId) :
    (g.setScope v scope).Resembles (g'.setScope v scope) where
  size_eq := h.size_eq
  vars_eq := by rw [Graph.setScope, Graph.setScope, h.vars_eq]
  owner_eq := h.owner_eq
  shape_eq := h.shape_eq

end Graph.Resembles

/-! ## Linking -/

namespace Linking

/-- **The same has been done** in graphs that resemble each other. -/
structure Resembles (s s' : Linking) : Prop where
  /-- The graphs are the same but for places and comments. -/
  graph : s.graph.Resembles s'.graph
  /-- The same nodes have been met. -/
  met_eq : s'.met = s.met
  /-- The same variables have been introduced. -/
  introduced_eq : s'.introduced = s.introduced
  /-- The same nodes are mentions. -/
  mentions_eq : s'.mentions = s.mentions

/-- Two outcomes are the same but for places and comments: a failure may name another line. -/
def Agree (r r' : Linking × Option LinkFailure) : Prop :=
  r.1.Resembles r'.1 ∧ r'.2.map LinkFailure.reason = r.2.map LinkFailure.reason

variable {s s' : Linking} {n : NodeId} {owner : Option NodeId} {vs : List VariableId}

theorem Resembles.introduceOne (h : s.Resembles s') {v : VariableId} :
    (introduceOne n owner v s).Resembles (introduceOne n owner v s') where
  graph := by
    have hscope : scopeOf (s'.graph.shape n) n owner v = scopeOf (s.graph.shape n) n owner v := by
      rcases h.graph.shape_eq n with heq | ⟨_, _, _, heq, heq'⟩
      · rw [heq]
      · rw [heq, heq']
        rfl
    rw [Linking.introduceOne, Linking.introduceOne, hscope]
    exact h.graph.setScope v _
  met_eq := h.met_eq
  introduced_eq := congrArg (v :: ·) h.introduced_eq
  mentions_eq := h.mentions_eq

theorem agree_introduce (h : s.Resembles s') :
    Agree (introduce n owner vs s) (introduce n owner vs s') := by
  induction vs generalizing s s' with
  | nil => exact ⟨h, rfl⟩
  | cons v rest ih =>
    by_cases hv : v ∈ s.introduced
    · rw [introduce_cons_of_mem hv, introduce_cons_of_mem (h.introduced_eq ▸ hv),
        h.graph.variable'_eq]
      exact ⟨h, rfl⟩
    · rw [introduce_cons hv, introduce_cons (h.introduced_eq ▸ hv)]
      exact ih h.introduceOne

theorem Resembles.own (h : s.Resembles s') : (own n owner s).Resembles (own n owner s') where
  graph := h.graph.setOwner n owner
  met_eq := congrArg (n :: ·) h.met_eq
  introduced_eq := h.introduced_eq
  mentions_eq := h.mentions_eq

theorem Agree.eq_none_iff {r r' : Linking × Option LinkFailure} (h : Agree r r') :
    r'.2 = none ↔ r.2 = none := by
  rw [← Option.map_eq_none_iff, h.2, Option.map_eq_none_iff]

theorem Agree.noted {r r' : Linking × Option LinkFailure} {shape shape' : Shape NodeId}
    (h : Agree r r') (hmention : isMention shape' = isMention shape) :
    Agree (noted n shape r) (noted n shape' r') := by
  refine ⟨?_, h.2⟩
  simp only [Linking.noted, h.eq_none_iff, hmention]
  split
  · exact ⟨h.1.graph, h.1.met_eq, h.1.introduced_eq, congrArg (n :: ·) h.1.mentions_eq⟩
  · exact h.1

/-- **One visit** does the same. -/
theorem agree_visit (h : s.Resembles s') : Agree (visit n owner s) (visit n owner s') := by
  have hkind : (s'.graph.shape n).kindName = (s.graph.shape n).kindName ∧
      (s'.graph.shape n).introduced = (s.graph.shape n).introduced ∧
      isMention (s'.graph.shape n) = isMention (s.graph.shape n) := by
    rcases h.graph.shape_eq n with heq | ⟨_, _, _, heq, heq'⟩
    · rw [heq]
      exact ⟨rfl, rfl, rfl⟩
    · rw [heq, heq']
      exact ⟨rfl, rfl, rfl⟩
  by_cases hmet : n ∈ s.met
  · rw [visit_of_mem hmet, visit_of_mem (h.met_eq ▸ hmet), hkind.1]
    exact ⟨h, rfl⟩
  · have hmet' : n ∉ s'.met := h.met_eq ▸ hmet
    by_cases howned : s.graph.owner n ≠ none ∧ s.graph.owner n ≠ owner
    · rw [visit_of_owned hmet howned, visit_of_owned hmet' ((h.graph.owner_eq n).symm ▸ howned), hkind.1]
      exact ⟨⟨h.graph, congrArg (n :: ·) h.met_eq, h.introduced_eq, h.mentions_eq⟩, rfl⟩
    · rw [visit_of_free hmet howned, visit_of_free hmet' ((h.graph.owner_eq n).symm ▸ howned), hkind.2.1]
      exact (agree_introduce h.own).noted hkind.2.2

theorem agree_visitAll (fuel : Nat) (stack : List (NodeId × Option NodeId)) (h : s.Resembles s') :
    Agree (visitAll fuel stack s) (visitAll fuel stack s') := by
  induction fuel generalizing stack s s' with
  | zero => exact ⟨h, rfl⟩
  | succ fuel ih =>
    rcases stack with _ | ⟨⟨n, owner⟩, rest⟩
    · exact ⟨h, rfl⟩
    · have hvisit : Agree (visit n owner s) (visit n owner s') := agree_visit h
      simp only [visitAll_succ, hvisit.eq_none_iff, hvisit.1.graph.children_eq]
      split
      · exact ih _ hvisit.1
      · exact hvisit

theorem mentionFailure?_agree (h : s.Resembles s') (n : NodeId) :
    (mentionFailure? s' n).map LinkFailure.reason = (mentionFailure? s n).map LinkFailure.reason := by
  rcases h.graph.shape_eq n with heq | ⟨_, _, _, heq, heq'⟩
  · simp only [mentionFailure?, heq, h.introduced_eq]
    cases s.graph.shape n
    case varAccess name v =>
      cases v
      · rfl
      · simp only []
        split <;> rfl
    case fieldAccess name qualifier v =>
      cases v
      · rfl
      · simp only []
        split <;> rfl
    all_goals rfl
  · simp only [mentionFailure?, heq, heq']

theorem findSome?_mentionFailure? (h : s.Resembles s') (ns : List NodeId) :
    (ns.findSome? (mentionFailure? s')).map LinkFailure.reason =
      (ns.findSome? (mentionFailure? s)).map LinkFailure.reason := by
  induction ns with
  | nil => rfl
  | cons n ns ih =>
    have hn := mentionFailure?_agree h n
    rw [List.findSome?_cons, List.findSome?_cons]
    cases hs : mentionFailure? s n <;> cases hs' : mentionFailure? s' n <;> rw [hs, hs'] at hn
    · exact ih
    · cases hn
    · cases hn
    · exact hn

end Linking

/-- **Graphs that resemble each other are linked in the same way**, or for the same reason not at all. -/
theorem Graph.Resembles.link {g g' : Graph} (h : g.Resembles g') (root : NodeId) :
    (g.link root).1.Resembles (g'.link root).1 ∧
      (g'.link root).2.map LinkFailure.reason = (g.link root).2.map LinkFailure.reason := by
  have hstart : (Linking.start g).Resembles (Linking.start g') := ⟨h, rfl, rfl, rfl⟩
  have hall := Linking.agree_visitAll (g.nodes.size + 2) [(root, none)] hstart
  rw [Graph.link, Graph.link, h.size_eq]
  rcases hr : Linking.visitAll (g.nodes.size + 2) [(root, none)] (Linking.start g) with ⟨s, failure⟩
  rcases hr' : Linking.visitAll (g.nodes.size + 2) [(root, none)] (Linking.start g') with ⟨s', failure'⟩
  rw [hr, hr'] at hall
  rcases failure with _ | failure
  · obtain rfl : failure' = none := Option.map_eq_none_iff.mp hall.2
    have hmentions : s'.mentions = s.mentions := hall.1.mentions_eq
    simp only [hmentions]
    exact ⟨hall.1.graph, Linking.findSome?_mentionFailure? hall.1 _⟩
  · obtain ⟨failure', rfl⟩ : ∃ f, failure' = some f := by
      rcases failure' with _ | f
      · exact absurd hall.2 (by simp)
      · exact ⟨f, rfl⟩
    exact ⟨hall.1.graph, hall.2⟩

/-! ## Trees -/

mutual

/-- A tree with all nodes at one place. -/
def Tree.placeless : Tree → Tree
  | .node _ shape => .node default shape.placeless

/-- A shape over trees with all nodes at one place. -/
def Shape.placeless : Shape Tree → Shape Tree
  | .sourceUnit info declarations => .sourceUnit info (placelessAll declarations)
  | .declaration info members initializer body =>
    .declaration info (placelessAll members) (placelessSome initializer) (placelessAll body)
  | .block statements => .block (placelessAll statements)
  | .catchClause types var body => .catchClause types var body.placeless
  | .tryStatement body catches finallyBlock =>
    .tryStatement body.placeless (placelessAll catches) (placelessSome finallyBlock)
  | .throwStatement operand => .throwStatement (placelessSome operand)
  | .returnStatement value => .returnStatement (placelessSome value)
  | .varDeclaration var initializer => .varDeclaration var (placelessSome initializer)
  | .lockStatement target body => .lockStatement target.placeless body.placeless
  | .usingStatement resources body => .usingStatement (placelessAll resources) (placelessSome body)
  | .exprStatement expression => .exprStatement expression.placeless
  | .ifStatement condition thenBranch elseBranch =>
    .ifStatement condition.placeless thenBranch.placeless (placelessSome elseBranch)
  | .loopStatement kind declarations header body =>
    .loopStatement kind (placelessAll declarations) (placelessAll header) body.placeless
  | .varAccess name var => .varAccess name var
  | .fieldAccess name qualifier var => .fieldAccess name (placelessSome qualifier) var
  | .methodCall name declaringType qualifier arguments =>
    .methodCall name declaringType (placelessSome qualifier) (placelessAll arguments)
  | .objectCreation typeName arguments => .objectCreation typeName (placelessAll arguments)
  | .literal value => .literal value
  | .assignment operator target value => .assignment operator target.placeless value.placeless
  | .elementAccess target index => .elementAccess target.placeless (placelessSome index)
  | .lambda parameters isAsync body => .lambda parameters isAsync (placelessAll body)
  | .compound operator operands => .compound operator (placelessAll operands)

/-- Trees with all nodes at one place. -/
def placelessAll : List Tree → List Tree
  | [] => []
  | t :: ts => t.placeless :: placelessAll ts

/-- A tree, if there is one, with all nodes at one place. -/
def placelessSome : Option Tree → Option Tree
  | none => none
  | some t => some t.placeless

end

@[simp] theorem placelessAll_eq (ts : List Tree) : placelessAll ts = ts.map Tree.placeless := by
  induction ts with
  | nil => rfl
  | cons t ts ih => rw [placelessAll, ih, List.map_cons]

@[simp] theorem placelessSome_eq (t : Option Tree) : placelessSome t = t.map Tree.placeless := by
  cases t <;> rfl

/-- Where a visit does not depend on the child, it does not matter where the children stand. -/
theorem Shape.traverse_placeless {m : Type → Type} [Monad m] [LawfulMonad m] {μ : Type} (x : m μ)
    (s : Shape Tree) : s.placeless.traverse (fun _ => x) = s.traverse fun _ => x := by
  cases s
  all_goals try casesm* Option Tree
  all_goals simp [placeless, traverse, Function.comp_def]

namespace Tree

theorem children_placeless (t : Tree) : t.placeless.children = t.children.map placeless := by
  obtain ⟨l, s⟩ := t
  rw [placeless, children_node, children_node]
  cases s <;> simp [Shape.placeless, Shape.children, Shape.slots, Option.toList_map]

theorem location_placeless (t : Tree) : t.placeless.location = default := by
  cases t
  rfl

theorem relabel_placeless (t : Tree) (ns : List NodeId) :
    relabel t.placeless.shape ns = relabel t.shape ns := by
  obtain ⟨l, s⟩ := t
  show relabel s.placeless ns = relabel s ns
  simp only [relabel, Shape.traverse_placeless]

theorem size_placeless (t : Tree) : t.placeless.size = t.size := by
  induction t using induction with
  | step t ih =>
    rw [size_eq, size_eq, children_placeless, List.map_map]
    exact congrArg (1 + List.sum ·) (List.map_congr_left ih)

theorem rows_placeless (t : Tree) (base : Nat) :
    t.placeless.rows base = (t.rows base).map fun row => (default, row.2) := by
  induction t using induction generalizing base with
  | step t ih =>
    have hof : ∀ (ts : List Tree) (base : Nat), (∀ c ∈ ts, ∀ base,
        c.placeless.rows base = (c.rows base).map fun row => (default, row.2)) →
        rowsOf (ts.map placeless) base = (rowsOf ts base).map fun row => (default, row.2) := by
      intro ts
      induction ts with
      | nil => exact fun _ _ => rfl
      | cons c ts ih =>
        intro base h
        rw [List.map_cons, rowsOf, rowsOf, List.map_append, h c List.mem_cons_self, size_placeless,
          ih _ fun d hd => h d (List.mem_cons_of_mem c hd)]
    have hnumbers : t.placeless.numbers base = t.numbers base := by
      rw [numbers, numbers, children_placeless, List.map_map]
      exact congrArg (starts (base + 1)) (List.map_congr_left fun c _ => size_placeless c)
    rw [rows_eq, rows_eq, List.map_cons, location_placeless, hnumbers, relabel_placeless,
      children_placeless, hof _ _ ih]

end Tree

namespace Graph

theorem node_ofTree (vars : Array Variable) (t : Tree) (n : NodeId) :
    (ofTree vars t).node n = ((t.rows 0)[n]?.map fun row => ⟨row.1, row.2, none⟩).getD default := by
  rw [node, ofTree, Array.getD_eq_getD_getElem?, Array.getElem?_map, List.getElem?_toArray]

theorem owner_ofTree (vars : Array Variable) (t : Tree) (n : NodeId) :
    (ofTree vars t).owner n = none := by
  rw [owner, node_ofTree]
  cases (t.rows 0)[n]? <;> rfl

theorem shape_ofTree_placeless (vars : Array Variable) (t : Tree) (n : NodeId) :
    (ofTree vars t.placeless).shape n = (ofTree vars t).shape n := by
  rw [shape, node_ofTree, Tree.rows_placeless, List.getElem?_map, shape, node_ofTree]
  cases (t.rows 0)[n]? <;> rfl

/-- The graphs of trees that are the same but for places resemble each other. -/
theorem resembles_ofTree (vars : Array Variable) {t t' : Tree} (h : t.placeless = t'.placeless) :
    (ofTree vars t).Resembles (ofTree vars t') where
  size_eq := by rw [size_ofTree, size_ofTree, ← Tree.size_placeless t, h, Tree.size_placeless]
  vars_eq := rfl
  owner_eq n := by rw [owner_ofTree, owner_ofTree]
  shape_eq n := .inl (by rw [← shape_ofTree_placeless, ← h, shape_ofTree_placeless])

theorem resembles_ofTree_comments (vars : Array Variable) (l : Location) (info : UnitInfo)
    (comments : List (Int × String)) (declarations : List Tree) :
    (ofTree vars (.node l (.sourceUnit info declarations))).Resembles
      (ofTree vars (.node l (.sourceUnit { info with comments } declarations))) where
  size_eq := by simp only [size_ofTree, Tree.size_eq, Tree.children_node, Shape.children, Shape.slots]
  vars_eq := rfl
  owner_eq n := by rw [owner_ofTree, owner_ofTree]
  shape_eq n := by
    rw [shape, node_ofTree, Tree.rows_eq, shape, node_ofTree, Tree.rows_eq]
    rcases n with _ | n
    · refine .inr ⟨info, comments, _, rfl, ?_⟩
      rfl
    · exact .inl rfl

end Graph

/-- **Two units are the same** but for the places of nodes and for comments. -/
structure Model.Resembles (m m' : Model) : Prop where
  /-- The graphs are. -/
  graph : m.graph.Resembles m'.graph
  /-- The units have the same number. -/
  root_eq : m'.root = m.root

/-- Two outcomes of linking are the same but for places: both are units that are, or both are failures
for the same reason. -/
def LinkFailure.Agree : Except LinkFailure Model → Except LinkFailure Model → Prop
  | .ok m, .ok m' => m.Resembles m'
  | .error f, .error f' => f'.reason = f.reason
  | _, _ => False

/-- **Units of trees that are the same but for places and comments** are linked in the same way. -/
theorem Model.agree_ofTree (vars : Array Variable) (l l' : Location) (info : UnitInfo)
    (comments : List (Int × String)) {ts ts' : List Tree}
    (h : ts.map Tree.placeless = ts'.map Tree.placeless) :
    LinkFailure.Agree (ofTree vars (.node l (.sourceUnit info ts)))
      (ofTree vars (.node l' (.sourceUnit { info with comments } ts'))) := by
  have hplaceless : (Tree.node l (.sourceUnit info ts)).placeless =
      (Tree.node l' (.sourceUnit info ts')).placeless := by
    simp only [Tree.placeless, Shape.placeless, placelessAll_eq, h]
  have hgraph := (Graph.resembles_ofTree vars hplaceless).trans
    (Graph.resembles_ofTree_comments vars l' info comments ts')
  have hlink := hgraph.link 0
  rw [ofTree, ofTree]
  rcases hg : (Graph.ofTree vars (.node l (.sourceUnit info ts))).link 0 with ⟨g, _ | f⟩ <;>
    rcases hg' : (Graph.ofTree vars (.node l' (.sourceUnit { info with comments } ts'))).link 0 with
      ⟨g', _ | f'⟩ <;> rw [hg, hg'] at hlink
  · exact ⟨hlink.1, rfl⟩
  · cases hlink.2
  · cases hlink.2
  · exact Option.some.inj hlink.2

end ModelLint
