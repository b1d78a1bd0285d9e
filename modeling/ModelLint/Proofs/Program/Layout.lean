import Mathlib.Algebra.BigOperators.Group.List.Basic
import Mathlib.Algebra.GroupWithZero.Nat
import Mathlib.Logic.ExistsUnique
import Mathlib.Tactic.CasesM
import ModelLint.Proofs.Program.Linked

/-!
# Trees laid out as graphs

A tree is laid out as a graph row by row. The unfolding of the graph gives the tree back: it has
the same places, and at each place a node that says the same, `Shape.label`.

* `Tree.at?`, `Tree.All`, `Tree.sum`: the tree at a place, a property of all nodes, a sum over all
  nodes.
* `Graph.Lays`: a tree is laid out in a graph from a number on.
* `Graph.Lays.at?`, `Graph.Lays.place_unique`: the unfolding of the graph of a tree.
* **`Graph.linkable_ofTree`**: the unit of a tree is linkable if no variable is introduced twice and
  all that are mentioned are introduced.
-/

namespace ModelLint

/-! ## What a node says itself -/

namespace Shape

variable {ν : Type} {s : Shape ν} {name : String}

/-- A shape without its children. -/
def label (s : Shape ν) : Shape Unit := Id.run (s.traverse fun _ => pure ())

theorem mapM_unit (xs : List ν) :
    (xs.mapM fun _ => (pure () : Id Unit)) = pure (List.replicate xs.length ()) := by
  induction xs with
  | nil => rfl
  | cons x xs ih =>
    rw [List.mapM_cons, ih]
    rfl

theorem introduced_label (s : Shape ν) : s.label.introduced = s.introduced := by
  cases s <;> rfl

theorem label_eq_varAccess {v : Option VariableId} :
    s.label = .varAccess name v ↔ s = .varAccess name v := by
  cases s <;> simp [label, traverse]

theorem label_eq_sourceUnit {info : UnitInfo} :
    (∃ ds, s.label = .sourceUnit info ds) ↔ ∃ ds, s = .sourceUnit info ds := by
  cases s <;> simp [label, traverse]

/-- The variable that a node mentions. -/
def mention? : Shape ν → Option VariableId
  | varAccess _ v => v
  | fieldAccess _ _ v => v
  | _ => none

theorem mention?_label (s : Shape ν) : s.label.mention? = s.mention? := by
  cases s <;> rfl

/-- How often a node introduces a variable. -/
def introductions (v : VariableId) (s : Shape ν) : Nat := s.introduced.count v

/-- How often a node mentions a variable. -/
def mentions (v : VariableId) (s : Shape ν) : Nat := if s.mention? = some v then 1 else 0

end Shape

namespace Tree

variable {t t' c : Tree} {p q : Graph.Place} {f : Shape Tree → Nat} {P Q : Shape Tree → Prop}

theorem children_node (l : Location) (s : Shape Tree) : (node l s).children = s.children := rfl

/-- A property of all trees that follows from that of the children. -/
theorem induction {motive : Tree → Prop} (step : ∀ t, (∀ c ∈ t.children, motive c) → motive t)
    (t : Tree) : motive t :=
  step t fun c _ => induction step c
termination_by sizeOf t
decreasing_by exact sizeOf_lt_of_mem_children ‹_›

/-! ## Places -/

/-- The tree at a place. -/
def at? : Tree → Graph.Place → Option Tree
  | t, [] => some t
  | t, i :: p => t.children[i]?.bind fun c => at? c p

theorem at?_cons (t : Tree) (i : Nat) (p : Graph.Place) :
    t.at? (i :: p) = t.children[i]?.bind (at? · p) := rfl

theorem at?_cons_eq_some {i : Nat} :
    t.at? (i :: p) = some t' ↔ ∃ c, t.children[i]? = some c ∧ c.at? p = some t' := by
  rw [at?_cons, Option.bind_eq_some_iff]

/-- All nodes of the tree have a property. -/
def All (P : Shape Tree → Prop) (t : Tree) : Prop := ∀ p t', t.at? p = some t' → P t'.shape

theorem all_iff : t.All P ↔ P t.shape ∧ ∀ c ∈ t.children, c.All P := by
  constructor
  · refine fun h => ⟨h [] t rfl, fun c hc p t' ht' => ?_⟩
    obtain ⟨i, hi⟩ := List.mem_iff_getElem?.mp hc
    exact h (i :: p) t' (at?_cons_eq_some.mpr ⟨c, hi, ht'⟩)
  · rintro ⟨hshape, hchildren⟩ (_ | ⟨i, p⟩) t' ht'
    · cases ht'
      exact hshape
    · obtain ⟨c, hc, ht'⟩ := at?_cons_eq_some.mp ht'
      exact hchildren c (List.mem_of_getElem? hc) p t' ht'

theorem All.mono (h : t.All P) (hPQ : ∀ s, P s → Q s) : t.All Q :=
  fun p t' ht' => hPQ _ (h p t' ht')

/-! ## Sums -/

/-- The sum of a number over all nodes of the tree. -/
def sum (f : Shape Tree → Nat) (t : Tree) : Nat :=
  f t.shape + (t.children.attach.map fun ⟨c, _⟩ => c.sum f).sum
termination_by sizeOf t
decreasing_by exact sizeOf_lt_of_mem_children ‹_›

/-- The sum of a number over all nodes of several trees. -/
def sums (f : Shape Tree → Nat) (ts : List Tree) : Nat := (ts.map (sum f)).sum

@[simp] theorem sums_nil : sums f [] = 0 := rfl

@[simp] theorem sums_cons (t : Tree) (ts : List Tree) : sums f (t :: ts) = t.sum f + sums f ts := by
  rw [sums, List.map_cons, List.sum_cons, sums]

@[simp] theorem sums_append (ts us : List Tree) : sums f (ts ++ us) = sums f ts + sums f us := by
  rw [sums, List.map_append, List.sum_append, sums, sums]

theorem sums_perm {ts us : List Tree} (h : ts.Perm us) : sums f ts = sums f us :=
  (h.map _).sum_eq

theorem sum_eq (t : Tree) : t.sum f = f t.shape + sums f t.children := by
  have hmap : (t.children.attach.map fun ⟨c, _⟩ => c.sum f) = t.children.map (sum f) := by
    conv_rhs => rw [← List.attach_map_subtype_val t.children, List.map_map]
    rfl
  rw [sum, sums, hmap]

theorem le_sums {ts : List Tree} (h : c ∈ ts) : c.sum f ≤ sums f ts := by
  induction ts with
  | nil => cases h
  | cons t ts ih =>
    rw [sums_cons]
    rcases List.mem_cons.mp h with rfl | h
    · exact Nat.le_add_right _ _
    · exact (ih h).trans (Nat.le_add_left _ _)

theorem sums_pos {ts : List Tree} (h : 0 < sums f ts) : ∃ c ∈ ts, 0 < c.sum f := by
  induction ts with
  | nil => cases h
  | cons t ts ih =>
    rw [sums_cons] at h
    by_cases ht : 0 < t.sum f
    · exact ⟨t, List.mem_cons_self, ht⟩
    · obtain ⟨c, hc, hpos⟩ := ih (by omega)
      exact ⟨c, List.mem_cons_of_mem t hc, hpos⟩

theorem add_le_sums {ts : List Tree} {i j : Nat} {a b : Tree} (hij : i < j) (ha : ts[i]? = some a)
    (hb : ts[j]? = some b) : a.sum f + b.sum f ≤ sums f ts := by
  induction ts generalizing i j with
  | nil => cases ha
  | cons t ts ih =>
    obtain ⟨j, rfl⟩ : ∃ k, j = k + 1 := ⟨j - 1, by omega⟩
    rw [List.getElem?_cons_succ] at hb
    rw [sums_cons]
    cases i with
    | zero =>
      cases ha
      have := le_sums (f := f) (List.mem_of_getElem? hb)
      omega
    | succ i =>
      have := ih (by omega) ha hb
      omega

theorem sum_le_of_at? (h : t.at? p = some t') : t'.sum f ≤ t.sum f := by
  induction p generalizing t with
  | nil => cases h; exact Nat.le_refl _
  | cons i p ih =>
    obtain ⟨c, hc, h⟩ := at?_cons_eq_some.mp h
    rw [sum_eq t]
    have := ih h
    have := le_sums (f := f) (List.mem_of_getElem? hc)
    omega

theorem le_sum_of_at? (h : t.at? p = some t') : f t'.shape ≤ t.sum f := by
  have := sum_le_of_at? (f := f) h
  rw [sum_eq t'] at this
  omega

theorem add_le_sum_of_at? {a b : Tree} (hne : p ≠ q) (ha : t.at? p = some a)
    (hb : t.at? q = some b) : f a.shape + f b.shape ≤ t.sum f := by
  induction p generalizing t q with
  | nil =>
    obtain rfl : t = a := Option.some_injective _ ha
    obtain ⟨j, q, rfl⟩ := List.exists_cons_of_ne_nil hne.symm
    obtain ⟨c, hc, hb⟩ := at?_cons_eq_some.mp hb
    rw [sum_eq t]
    have := le_sum_of_at? (f := f) hb
    have := le_sums (f := f) (List.mem_of_getElem? hc)
    omega
  | cons i p ih =>
    obtain ⟨c, hc, ha'⟩ := at?_cons_eq_some.mp ha
    rw [sum_eq t]
    have hcs := le_sums (f := f) (List.mem_of_getElem? hc)
    have hac := le_sum_of_at? (f := f) ha'
    rcases q with _ | ⟨j, q⟩
    · cases hb
      omega
    · obtain ⟨d, hd, hb'⟩ := at?_cons_eq_some.mp hb
      have hbd := le_sum_of_at? (f := f) hb'
      rcases Nat.lt_trichotomy i j with hij | rfl | hij
      · have := add_le_sums (f := f) hij hc hd
        omega
      · cases hc.symm.trans hd
        have := ih (fun heq => hne (heq ▸ rfl)) ha' hb'
        omega
      · have := add_le_sums (f := f) hij hd hc
        omega

theorem sum_pos_iff : 0 < t.sum f ↔ ∃ p t', t.at? p = some t' ∧ 0 < f t'.shape := by
  constructor
  · induction t using induction with
    | step t ih =>
      intro h
      rw [sum_eq] at h
      by_cases hf : 0 < f t.shape
      · exact ⟨[], t, rfl, hf⟩
      · obtain ⟨c, hc, hpos⟩ := sums_pos (by omega : 0 < sums f t.children)
        obtain ⟨p, t', ht', hpos⟩ := ih c hc hpos
        obtain ⟨i, hi⟩ := List.mem_iff_getElem?.mp hc
        exact ⟨i :: p, t', at?_cons_eq_some.mpr ⟨c, hi, ht'⟩, hpos⟩
  · rintro ⟨p, t', ht', hpos⟩
    have := le_sum_of_at? (f := f) ht'
    omega

/-! ## Relabelling -/

/-- Takes the next number; behind the last one all numbers are zero. -/
def nextNumber : StateM (List NodeId) NodeId := do
  let rest ← get
  set rest.tail
  return rest.headD 0

/-- The first numbers, with zeros behind the last one. -/
def firstNumbers : Nat → List NodeId → List NodeId
  | 0, _ => []
  | k + 1, ns => ns.headD 0 :: firstNumbers k ns.tail

theorem firstNumbers_zero (ns : List NodeId) : firstNumbers 0 ns = [] := rfl

theorem firstNumbers_one (ns : List NodeId) : firstNumbers 1 ns = [ns.headD 0] := rfl

theorem firstNumbers_add (a b : Nat) (ns : List NodeId) :
    firstNumbers (a + b) ns = firstNumbers a ns ++ firstNumbers b (ns.drop a) := by
  induction a generalizing ns with
  | zero => rw [Nat.zero_add, firstNumbers_zero, List.nil_append, List.drop_zero]
  | succ a ih =>
    rw [Nat.add_right_comm, firstNumbers, firstNumbers, ih, List.drop_tail]
    rfl

theorem firstNumbers_length (ns : List NodeId) : firstNumbers ns.length ns = ns := by
  induction ns with
  | nil => rfl
  | cons n ns ih => rw [List.length_cons, firstNumbers, List.tail_cons, ih, List.headD_cons]

theorem length_firstNumbers (k : Nat) (ns : List NodeId) : (firstNumbers k ns).length = k := by
  induction k generalizing ns with
  | zero => rfl
  | succ k ih => rw [firstNumbers, List.length_cons, ih]

theorem run_next (ns : List NodeId) : nextNumber.run ns = pure (ns.headD 0, ns.tail) := rfl

theorem run_mapM_next (ts : List Tree) (ns : List NodeId) :
    (ts.mapM fun _ => nextNumber).run ns =
      pure (firstNumbers ts.length ns, ns.drop ts.length) := by
  induction ts generalizing ns with
  | nil => rfl
  | cons t ts ih =>
    rw [List.mapM_cons, StateT.run_bind, run_next, pure_bind, StateT.run_bind, ih, pure_bind,
      StateT.run_pure, List.length_cons, firstNumbers, List.drop_tail]

/-- Relabelling puts the numbers in the places of the children and changes nothing else. -/
theorem run_traverse_next (s : Shape Tree) (ns : List NodeId) :
    ∃ s' rest, (s.traverse fun _ => nextNumber).run ns = pure (s', rest) ∧
      s'.children = firstNumbers s.children.length ns ∧ s'.label = s.label := by
  cases s
  all_goals try casesm* Option Tree
  all_goals simp only [Shape.traverse, StateT.run_bind, StateT.run_map, run_next, run_mapM_next,
    pure_bind, StateT.run_pure, map_pure, Option.mapM_none, Option.mapM_some]
  all_goals refine ⟨_, _, rfl, ?_, ?_⟩
  all_goals first
    | simp only [Shape.label, Shape.traverse, Shape.mapM_unit, length_firstNumbers, pure_bind,
        map_pure, Option.mapM_none, Option.mapM_some]
    | simp only [Shape.children, Shape.slots, List.flatMap_cons, List.flatMap_nil, List.append_nil,
        List.length_append, Option.toList_some, Option.toList_none, List.length_singleton,
        List.length_nil, firstNumbers_add, firstNumbers_zero, firstNumbers_one, List.drop_one,
        List.nil_append]

theorem children_relabel {s : Shape Tree} {ns : List NodeId} (h : ns.length = s.children.length) :
    (relabel s ns).children = ns := by
  obtain ⟨s', rest, hrun, hchildren, -⟩ := run_traverse_next s ns
  have hrelabel : relabel s ns = s' := congrArg Prod.fst hrun
  rw [hrelabel, hchildren, ← h, firstNumbers_length]

theorem label_relabel (s : Shape Tree) (ns : List NodeId) : (relabel s ns).label = s.label := by
  obtain ⟨s', rest, hrun, -, hlabel⟩ := run_traverse_next s ns
  have hrelabel : relabel s ns = s' := congrArg Prod.fst hrun
  rw [hrelabel, hlabel]

/-! ## Rows -/

theorem length_starts (base : Nat) (ns : List Nat) : (starts base ns).length = ns.length := by
  induction ns generalizing base with
  | nil => rfl
  | cons n ns ih => rw [starts, List.length_cons, List.length_cons, ih]

theorem le_of_mem_starts {base k : Nat} {ns : List Nat} (h : k ∈ starts base ns) : base ≤ k := by
  induction ns generalizing base with
  | nil => cases h
  | cons n ns ih =>
    rcases List.mem_cons.mp h with rfl | h
    · exact Nat.le_refl _
    · exact Nat.le_trans (Nat.le_add_right _ _) (ih h)

/-- The numbers of the children of a tree whose root takes a number. -/
def numbers (t : Tree) (base : Nat) : List NodeId := starts (base + 1) (t.children.map size)

/-- The rows of several trees. -/
def rowsOf : List Tree → Nat → List (Location × Shape NodeId)
  | [], _ => []
  | t :: ts, base => t.rows base ++ rowsOf ts (base + t.size)

theorem exists_starts {ts : List Tree} {base m : Nat} (hge : base ≤ m)
    (hlt : m < base + (ts.map size).sum) :
    ∃ (i : Nat) (c : Tree) (k : Nat), ts[i]? = some c ∧ (starts base (ts.map size))[i]? = some k ∧ k ≤ m ∧
      m < k + c.size := by
  induction ts generalizing base with
  | nil => exact absurd hlt (by simpa using hge)
  | cons t ts ih =>
    rw [List.map_cons, List.sum_cons] at hlt
    by_cases hm : m < base + t.size
    · exact ⟨0, t, base, rfl, rfl, hge, hm⟩
    · obtain ⟨i, c, k, hc, hk, hkm, hmk⟩ := ih (by omega : base + t.size ≤ m) (by omega)
      exact ⟨i + 1, c, k, hc, hk, hkm, hmk⟩

theorem size_eq (t : Tree) : t.size = 1 + (t.children.map size).sum := by
  have hfold : ∀ ts : List Tree, ts.attach.foldr (fun ⟨c, _⟩ n => c.size + n) 1 =
      1 + (ts.map size).sum := fun ts => by
    rw [List.foldr_attach (l := ts) (f := fun c n => c.size + n)]
    induction ts with
    | nil => rfl
    | cons c ts ih =>
      rw [List.foldr_cons, ih, List.map_cons, List.sum_cons]
      omega
  rw [size, hfold]

theorem size_pos (t : Tree) : 0 < t.size := by
  rw [size_eq]
  omega

theorem rows_eq (t : Tree) (base : Nat) :
    t.rows base = (t.location, relabel t.shape (t.numbers base)) :: rowsOf t.children (base + 1) := by
  have hzip : ∀ (ts : List Tree) (ns : List NodeId),
      ((ts.attach.zip ns).flatMap fun (⟨c, _⟩, n) => c.rows n) =
        (ts.zip ns).flatMap fun (c, n) => c.rows n := fun ts ns => by
    conv_rhs => rw [← List.attach_map_subtype_val ts, List.zip_map_left, List.flatMap_map]
    rfl
  have hflat : ∀ (ts : List Tree) (base : Nat),
      ((ts.zip (starts base (ts.map size))).flatMap fun (c, n) => c.rows n) = rowsOf ts base := by
    intro ts
    induction ts with
    | nil => exact fun _ => rfl
    | cons c ts ih =>
      intro base
      rw [List.map_cons, starts, List.zip_cons_cons, List.flatMap_cons, ih, rowsOf]
  rw [rows, hzip, hflat]
  rfl

theorem length_rows (t : Tree) (base : Nat) : (t.rows base).length = t.size := by
  induction t using induction generalizing base with
  | step t ih =>
    have hof : ∀ (ts : List Tree) (base : Nat), (∀ c ∈ ts, ∀ base, (c.rows base).length = c.size) →
        (rowsOf ts base).length = (ts.map size).sum := by
      intro ts
      induction ts with
      | nil => exact fun _ _ => rfl
      | cons c ts ih =>
        intro base h
        rw [rowsOf, List.length_append, h c List.mem_cons_self, ih _ fun d hd =>
          h d (List.mem_cons_of_mem c hd), List.map_cons, List.sum_cons]
    rw [rows_eq, List.length_cons, hof _ _ fun c hc base => ih c hc base, size_eq, Nat.add_comm]

theorem children_relabel_numbers (t : Tree) (base : Nat) :
    (relabel t.shape (t.numbers base)).children = t.numbers base :=
  children_relabel (by rw [numbers, length_starts, List.length_map]; rfl)

end Tree

/-! ## A tree in a graph -/

namespace Graph

variable {g : Graph} {t t' c : Tree} {n m i : Nat} {p q : Place}

/-- Rows stand in a graph from a number on. -/
def HoldsRows (g : Graph) (rows : List (Location × Shape NodeId)) (n : NodeId) : Prop :=
  ∀ i row, rows[i]? = some row → g.nodes[n + i]? = some ⟨row.1, row.2, none⟩

theorem holdsRows_append {rows rows' : List (Location × Shape NodeId)} :
    g.HoldsRows (rows ++ rows') n ↔ g.HoldsRows rows n ∧ g.HoldsRows rows' (n + rows.length) := by
  constructor
  · refine fun h => ⟨fun i row hi => ?_, fun i row hi => ?_⟩
    · refine h i row ?_
      rw [List.getElem?_append_left (List.getElem?_eq_some_iff.mp hi).1, hi]
    · rw [Nat.add_assoc]
      refine h (rows.length + i) row ?_
      rw [List.getElem?_append_right (Nat.le_add_right _ _), Nat.add_sub_cancel_left, hi]
  · rintro ⟨h, h'⟩ i row hi
    rcases Nat.lt_or_ge i rows.length with hlt | hge
    · exact h i row (List.getElem?_append_left hlt ▸ hi)
    · have := h' (i - rows.length) row (List.getElem?_append_right hge ▸ hi)
      rwa [Nat.add_assoc, Nat.add_sub_cancel' hge] at this

/-- A tree is laid out in a graph from a number on. -/
def Lays (g : Graph) (t : Tree) (n : NodeId) : Prop := g.HoldsRows (t.rows n) n

theorem lays_ofTree (vars : Array Variable) (t : Tree) : (ofTree vars t).Lays t 0 := by
  intro i row hi
  rw [Nat.zero_add, ofTree, Array.getElem?_map, List.getElem?_toArray, hi]
  rfl

namespace Lays

theorem node_eq (h : g.Lays t n) :
    g.node n = ⟨t.location, Tree.relabel t.shape (t.numbers n), none⟩ := by
  have h0 := h 0 _ (by rw [Tree.rows_eq, List.getElem?_cons_zero])
  rw [Nat.add_zero] at h0
  rw [node, Array.getD_eq_getD_getElem?, h0, Option.getD_some]

theorem owner_eq (h : g.Lays t n) : g.owner n = none := by rw [owner, h.node_eq]

theorem label_eq (h : g.Lays t n) : (g.shape n).label = t.shape.label := by
  rw [shape, h.node_eq, Tree.label_relabel]

theorem introduced_eq (h : g.Lays t n) : (g.shape n).introduced = t.shape.introduced := by
  rw [← Shape.introduced_label, h.label_eq, Shape.introduced_label]

theorem children_eq (h : g.Lays t n) : g.children n = t.numbers n := by
  rw [children, shape, h.node_eq, Tree.children_relabel_numbers]

/-- Trees laid out one behind the other start where they should and do not overlap. -/
theorem of_rowsOf {ts : List Tree} (h : g.HoldsRows (Tree.rowsOf ts n) n) (hc : ts[i]? = some c) :
    ∃ k : Nat, (Tree.starts n (ts.map Tree.size))[i]? = some k ∧ g.Lays c k ∧ n ≤ k ∧
      k + c.size ≤ n + (ts.map Tree.size).sum ∧
      ∀ j (l : Nat), i < j → (Tree.starts n (ts.map Tree.size))[j]? = some l → k + c.size ≤ l := by
  induction ts generalizing n i with
  | nil => cases hc
  | cons t ts ih =>
    rw [Tree.rowsOf, holdsRows_append, Tree.length_rows] at h
    rw [List.map_cons, Tree.starts, List.sum_cons]
    cases i with
    | zero =>
      obtain rfl : t = c := Option.some_injective _ hc
      refine ⟨n, rfl, h.1, Nat.le_refl n, by omega, fun j l hj hl => ?_⟩
      obtain ⟨j, rfl⟩ : ∃ k, j = k + 1 := ⟨j - 1, by omega⟩
      rw [List.getElem?_cons_succ] at hl
      exact Tree.le_of_mem_starts (List.mem_of_getElem? hl)
    | succ i =>
      obtain ⟨k, hk, hlays, hle, hsum, hafter⟩ := ih h.2 hc
      refine ⟨k, hk, hlays, by omega, by omega, fun j l hj hl => ?_⟩
      obtain ⟨j, rfl⟩ : ∃ k, j = k + 1 := ⟨j - 1, by omega⟩
      exact hafter j l (by omega) hl

theorem child (h : g.Lays t n) (hc : t.children[i]? = some c) :
    ∃ k : Nat, (g.children n)[i]? = some k ∧ g.Lays c k ∧ n < k ∧ k + c.size ≤ n + t.size ∧
      ∀ j (l : Nat), i < j → (g.children n)[j]? = some l → k + c.size ≤ l := by
  have hrows : g.HoldsRows (Tree.rowsOf t.children (n + 1)) (n + 1) := by
    have h' := h
    rw [Lays, Tree.rows_eq, ← List.singleton_append, holdsRows_append] at h'
    exact h'.2
  obtain ⟨k, hk, hlays, hle, hsum, hafter⟩ := of_rowsOf hrows hc
  rw [h.children_eq]
  refine ⟨k, hk, hlays, hle, ?_, hafter⟩
  rw [t.size_eq]
  omega

theorem child_of_number (h : g.Lays t n) (hm : (g.children n)[i]? = some m) :
    ∃ c, t.children[i]? = some c ∧ g.Lays c m ∧ n < m ∧ m + c.size ≤ n + t.size := by
  have hlength : (g.children n).length = t.children.length := by
    rw [h.children_eq, Tree.numbers, Tree.length_starts, List.length_map]
  have hi : i < t.children.length := hlength ▸ (List.getElem?_eq_some_iff.mp hm).1
  obtain ⟨k, hk, hlays, hlt, hle, -⟩ := h.child (List.getElem?_eq_getElem hi)
  cases hm.symm.trans hk
  exact ⟨_, List.getElem?_eq_getElem hi, hlays, hlt, hle⟩

/-- The unfolding meets at a place what the tree has there. -/
theorem at? (h : g.Lays t n) (ht : t.at? p = some t') :
    ∃ m, g.at? n p = some m ∧ g.Lays t' m := by
  induction p generalizing t n with
  | nil =>
    cases ht
    exact ⟨n, rfl, h⟩
  | cons i p ih =>
    obtain ⟨c, hc, ht⟩ := Tree.at?_cons_eq_some.mp ht
    obtain ⟨k, hk, hlays, -⟩ := h.child hc
    obtain ⟨m, hm, hlays⟩ := ih hlays ht
    exact ⟨m, by rw [at?_cons, hk, Option.bind_some, hm], hlays⟩

theorem exists_at? (h : g.Lays t n) (hm : g.at? n p = some m) :
    ∃ t', t.at? p = some t' ∧ g.Lays t' m ∧ n ≤ m ∧ m < n + t.size := by
  induction p generalizing t n with
  | nil =>
    obtain rfl : n = m := Option.some_injective _ hm
    refine ⟨t, rfl, h, Nat.le_refl n, ?_⟩
    rw [t.size_eq]
    omega
  | cons i p ih =>
    rw [at?_cons] at hm
    obtain ⟨k, hk, hm⟩ := Option.bind_eq_some_iff.mp hm
    obtain ⟨c, hc, hlays, hlt, hle⟩ := h.child_of_number hk
    obtain ⟨t', ht', hlays, hge, hlt'⟩ := ih hlays hm
    exact ⟨t', Tree.at?_cons_eq_some.mpr ⟨c, hc, ht'⟩, hlays, by omega, by omega⟩

theorem at?_cons_eq_some (h : g.Lays t n) (hm : g.at? n (i :: p) = some m) :
    ∃ (k : Nat) (c : Tree), (g.children n)[i]? = some k ∧ t.children[i]? = some c ∧ g.Lays c k ∧
      g.at? k p = some m ∧ n < m ∧ k ≤ m ∧ m < k + c.size := by
  rw [at?_cons] at hm
  obtain ⟨k, hk, hm⟩ := Option.bind_eq_some_iff.mp hm
  obtain ⟨c, hc, hlays, hlt, -⟩ := h.child_of_number hk
  obtain ⟨-, -, -, hge, hlt'⟩ := hlays.exists_at? hm
  exact ⟨k, c, hk, hc, hlays, hm, Nat.lt_of_lt_of_le hlt hge, hge, hlt'⟩

theorem place_unique (h : g.Lays t n) (hp : g.at? n p = some m) (hq : g.at? n q = some m) :
    p = q := by
  induction p generalizing t n q with
  | nil =>
    cases hp
    rcases q with _ | ⟨j, q⟩
    · rfl
    · obtain ⟨k, c, -, -, -, -, hlt, -⟩ := h.at?_cons_eq_some hq
      exact absurd hlt (Nat.lt_irrefl _)
  | cons i p ih =>
    obtain ⟨k, c, hk, hc, hlays, hp', hlt, hge, hlt'⟩ := h.at?_cons_eq_some hp
    rcases q with _ | ⟨j, q⟩
    · cases hq
      exact absurd hlt (Nat.lt_irrefl _)
    · obtain ⟨l, d, hl, hd, -, hq', -, hge', hlt''⟩ := h.at?_cons_eq_some hq
      rcases Nat.lt_trichotomy i j with hij | rfl | hij
      · obtain ⟨k', hk', -, -, -, hafter⟩ := h.child hc
        cases hk.symm.trans hk'
        have := hafter j l hij hl
        omega
      · cases hk.symm.trans hl
        rw [ih hlays hp' hq']
      · obtain ⟨l', hl', -, -, -, hafter⟩ := h.child hd
        cases hl.symm.trans hl'
        have := hafter i k hij hk
        omega

theorem exists_place (h : g.Lays t n) (hge : n ≤ m) (hlt : m < n + t.size) :
    ∃ p, g.at? n p = some m := by
  induction t using Tree.induction generalizing n with
  | step t ih =>
    rcases Nat.eq_or_lt_of_le hge with rfl | hgt
    · exact ⟨[], rfl⟩
    · rw [t.size_eq] at hlt
      have hlt' : m < n + 1 + (t.children.map Tree.size).sum := by omega
      obtain ⟨i, c, k, hc, hk, hkm, hmk⟩ := Tree.exists_starts hgt hlt'
      obtain ⟨k', hk', hlays, -⟩ := h.child hc
      rw [h.children_eq] at hk'
      cases hk.symm.trans hk'
      obtain ⟨p, hp⟩ := ih c (List.mem_of_getElem? hc) hlays hkm hmk
      refine ⟨i :: p, ?_⟩
      rw [at?_cons, h.children_eq, hk', Option.bind_some, hp]

end Lays

variable {vars : Array Variable} {v : VariableId}

theorem size_ofTree : (ofTree vars t).nodes.size = t.size := by
  rw [ofTree, Array.size_map, List.size_toArray, Tree.length_rows]

theorem closed_ofTree (h : ∀ v, 0 < t.sum (Shape.introductions v) → v < vars.size) :
    (ofTree vars t).Closed := by
  have hlays := lays_ofTree vars t
  have hplace : ∀ n < (ofTree vars t).nodes.size, ∃ p, (ofTree vars t).at? 0 p = some n := by
    intro n hn
    rw [size_ofTree] at hn
    exact hlays.exists_place (Nat.zero_le n) (by omega)
  refine ⟨fun n hn c hc => ?_, fun n hn v hv => h v ?_⟩
  · obtain ⟨p, hp⟩ := hplace n hn
    obtain ⟨i, hi⟩ := List.mem_iff_getElem?.mp hc
    obtain ⟨t', -, -, -, hlt⟩ := hlays.exists_at? (at?_snoc_eq_some.mpr ⟨n, hp, hi⟩)
    rwa [size_ofTree, ← Nat.zero_add t.size]
  · obtain ⟨p, hp⟩ := hplace n hn
    obtain ⟨t', ht', hlays', -⟩ := hlays.exists_at? hp
    rw [hlays'.introduced_eq] at hv
    exact Tree.sum_pos_iff.mpr ⟨p, t', ht', List.count_pos_iff.mpr hv⟩

theorem index_unique {vs : List VariableId} {j : Nat} (h : vs.count v ≤ 1) (hi : vs[i]? = some v)
    (hj : vs[j]? = some v) : i = j := by
  induction vs generalizing i j with
  | nil => cases hi
  | cons w vs ih =>
    rw [List.count_cons] at h
    rcases i with _ | i <;> rcases j with _ | j
    · rfl
    · cases hi
      rw [List.getElem?_cons_succ] at hj
      have := List.count_pos_iff.mpr (List.mem_of_getElem? hj)
      simp only [beq_self_eq_true, if_true] at h
      omega
    · cases hj
      rw [List.getElem?_cons_succ] at hi
      have := List.count_pos_iff.mpr (List.mem_of_getElem? hi)
      simp only [beq_self_eq_true, if_true] at h
      omega
    · rw [ih (by omega) hi hj]

/-- **The unit of a tree is linkable** if no variable is introduced twice, and all variables that are
mentioned are introduced. -/
theorem linkable_ofTree (honce : ∀ v, t.sum (Shape.introductions v) ≤ 1)
    (hknown : t.All fun s => (∀ name, s ≠ .varAccess name none) ∧
      ∀ v, s.mention? = some v → 0 < t.sum (Shape.introductions v)) :
    (ofTree vars t).Linkable 0 := by
  have hlays := lays_ofTree vars t
  have hintroduces : ∀ v, 0 < t.sum (Shape.introductions v) → (ofTree vars t).Introduces 0 v := by
    intro v hv
    obtain ⟨p, t', ht', hpos⟩ := Tree.sum_pos_iff.mp hv
    obtain ⟨m, hm, hlays'⟩ := hlays.at? ht'
    exact ⟨p, m, hm, hlays'.introduced_eq ▸ List.count_pos_iff.mp hpos⟩
  refine ⟨fun p q n => hlays.place_unique, hlays.owner_eq, fun p n hn c hc => .inl ?_,
    fun p q m n i j v hm hn hi hj => ?_, fun p n name var hn hshape => ?_,
    fun p n name qualifier v hn hshape => ?_⟩
  · obtain ⟨t', -, hlays', -⟩ := hlays.exists_at? hn
    obtain ⟨i, hi⟩ := List.mem_iff_getElem?.mp hc
    obtain ⟨c', -, hlays'', -⟩ := hlays'.child_of_number hi
    exact hlays''.owner_eq
  · obtain ⟨a, ha, hlaysa, -⟩ := hlays.exists_at? hm
    obtain ⟨b, hb, hlaysb, -⟩ := hlays.exists_at? hn
    rw [hlaysa.introduced_eq] at hi
    rw [hlaysb.introduced_eq] at hj
    have hv := honce v
    obtain rfl : p = q := by
      by_contra hne
      have hsum := Tree.add_le_sum_of_at? (f := Shape.introductions v) hne ha hb
      have hposa : 0 < a.shape.introductions v := List.count_pos_iff.mpr (List.mem_of_getElem? hi)
      have hposb : 0 < b.shape.introductions v := List.count_pos_iff.mpr (List.mem_of_getElem? hj)
      omega
    cases ha.symm.trans hb
    have hcount : a.shape.introductions v ≤ 1 := (Tree.le_sum_of_at? ha).trans hv
    exact ⟨rfl, index_unique hcount hi hj⟩
  · obtain ⟨t', ht', hlays', -⟩ := hlays.exists_at? hn
    obtain ⟨hnone, hmention⟩ := hknown p t' ht'
    have hlabel : t'.shape = .varAccess name var := by
      rw [← Shape.label_eq_varAccess, ← hlays'.label_eq, hshape]
      rfl
    rcases var with _ | v
    · exact absurd hlabel (hnone name)
    · exact ⟨v, rfl, hintroduces v (hmention v (by rw [hlabel]; rfl))⟩
  · obtain ⟨t', ht', hlays', -⟩ := hlays.exists_at? hn
    refine hintroduces v ((hknown p t' ht').2 v ?_)
    rw [← Shape.mention?_label, ← hlays'.label_eq, Shape.mention?_label, hshape]
    rfl

theorem Linkable.introduces {g : Graph} {root n : NodeId} (h : g.Linkable root)
    (hn : g.at? root p = some n) (hv : (g.shape n).mention? = some v) : g.Introduces root v := by
  rcases hshape : g.shape n with _ | _ | _ | _ | _ | _ | _ | _ | _ | _ | _ | _ | _ | ⟨name, w⟩ |
    ⟨name, qualifier, w⟩ | _ | _ | _ | _ | _ | _ | _ <;> rw [hshape] at hv <;> try cases hv
  · obtain ⟨w, hw, hintroduces⟩ := h.variable_known p n name _ hn hshape
    cases hw
    exact hintroduces
  · exact h.member_known p n name qualifier v hn hshape

/-- All that the unit of a tree mentions is introduced, if the unit is linkable. -/
theorem Linkable.introduced_of_mention (h : (ofTree vars t).Linkable 0) (ht : t.at? p = some t')
    (hv : t'.shape.mention? = some v) : 0 < t.sum (Shape.introductions v) := by
  have hlays := lays_ofTree vars t
  obtain ⟨n, hn, hlays'⟩ := hlays.at? ht
  rw [← Shape.mention?_label, ← hlays'.label_eq, Shape.mention?_label] at hv
  obtain ⟨q, m, hm, hvm⟩ := h.introduces hn hv
  obtain ⟨t'', ht'', hlays'', -⟩ := hlays.exists_at? hm
  rw [hlays''.introduced_eq] at hvm
  exact Tree.sum_pos_iff.mpr ⟨q, t'', ht'', List.count_pos_iff.mpr hvm⟩

end Graph

/-! ## Linking trees -/

/-- One node of a unit introduces a variable, and it does so once. -/
def Model.IntroducedOnce (m : Model) (v : VariableId) : Prop :=
  ∃! q : Graph.Place × Nat, ∃ n, m.graph.at? m.root q.1 = some n ∧
    (m.graph.shape n).introduced[q.2]? = some v

namespace Model

variable {vars : Array Variable} {t : Tree} {m : Model}

theorem sourceUnit_ofTree (vars : Array Variable) {info : UnitInfo} {declarations : List Tree}
    (hunit : t.shape = .sourceUnit info declarations) :
    ∃ declarations, (Graph.ofTree vars t).shape 0 = .sourceUnit info declarations := by
  have hlabel := (Graph.lays_ofTree vars t).label_eq
  rw [hunit] at hlabel
  exact Shape.label_eq_sourceUnit.mp ⟨_, hlabel⟩

/-- A tree has a linked unit exactly if the unit of its graph is linkable. -/
theorem ofTree_eq_ok (h : ∀ v, 0 < t.sum (Shape.introductions v) → v < vars.size)
    {info : UnitInfo} {declarations : List Tree} (hunit : t.shape = .sourceUnit info declarations) :
    (∃ m, ofTree vars t = .ok m) ↔ (Graph.ofTree vars t).Linkable 0 := by
  obtain ⟨declarations, hshape⟩ := sourceUnit_ofTree vars hunit
  obtain ⟨-, hlinkable, -⟩ := Graph.link_spec (Graph.closed_ofTree h)
    (Graph.size_ofTree ▸ t.size_pos) hshape
  rw [← hlinkable, ofTree]
  rcases (Graph.ofTree vars t).link 0 with ⟨g, _ | failure⟩ <;> simp

/-- The linked unit of a tree is linked, and its graph is that of the tree but for what linking
sets. -/
theorem linked_ofTree (h : ∀ v, 0 < t.sum (Shape.introductions v) → v < vars.size)
    {info : UnitInfo} {declarations : List Tree} (hunit : t.shape = .sourceUnit info declarations)
    (hm : ofTree vars t = .ok m) :
    m.Linked ∧ m.root = 0 ∧ (Graph.ofTree vars t).SameSkeleton m.graph := by
  have hskeleton := Graph.sameSkeleton_link (Graph.ofTree vars t) 0
  rw [ofTree] at hm
  rcases hlink : (Graph.ofTree vars t).link 0 with ⟨g, _ | failure⟩
  · rw [hlink] at hm hskeleton
    cases hm
    obtain ⟨declarations, hshape⟩ := sourceUnit_ofTree vars hunit
    exact ⟨⟨Graph.ofTree vars t, Graph.closed_ofTree h, Graph.size_ofTree ▸ t.size_pos,
      ⟨info, declarations, hshape⟩, hlink⟩, rfl, hskeleton⟩
  · rw [hlink] at hm
    cases hm

end Model

/-- What a computation finds out about a result. -/
theorem exists_ok_of_any {ε α : Type} {x : Except ε α} {test : α → Bool}
    (h : x.toOption.any test = true) : ∃ a, x = .ok a ∧ test a = true := by
  cases x with
  | error e => cases h
  | ok a => exact ⟨a, rfl, h⟩

end ModelLint
