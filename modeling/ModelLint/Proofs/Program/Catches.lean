import Mathlib.Algebra.Group.Prod
import Mathlib.Algebra.Order.Group.Multiset
import Mathlib.Data.List.Forall2
import ModelLint.Program.Query
import ModelLint.Proofs.Program.Layout

/-!
# Catches

Which errors a unit handles, and where it throws the current one again. A unit of a tree says the same
as the tree, node by node in pre-order.

* `Caught`: what there is to say about a catch.
* `Tree.tally`: the catches of a tree and the number of throws without an operand.
* `Graph.Lays.forall₂_preorder`: the pre-order of the graph of a tree is that of the tree.
* **`Model.caught_ofTree`**: the catches of the unit of a tree.
-/

namespace ModelLint

/-- **What there is to say about a catch**, or about a handler that becomes one. -/
structure Caught where
  /-- Where it stands. -/
  location : Location
  /-- The types that it names, if they can be written. -/
  types : Option (List String)
  /-- Whether it throws the current error again. -/
  rethrows : Bool
deriving DecidableEq

/-- Whether a node throws the current error again. -/
def Shape.isRethrow {ν : Type} : Shape ν → Bool
  | .throwStatement none => true
  | _ => false

theorem Shape.isRethrow_label {ν : Type} (s : Shape ν) : s.label.isRethrow = s.isRethrow := by
  rcases s with _ | _ | _ | _ | _ | ⟨_ | _⟩ | _ | _ | _ | _ | _ | _ | _ | _ | _ | _ | _ | _ | _ | _ |
    _ | _ <;> rfl

/-- The types that a node handles if it is a catch. -/
def Shape.handled? {ν : Type} : Shape ν → Option (List String)
  | .catchClause types _ _ => some types
  | _ => none

theorem Shape.handled?_label {ν : Type} (s : Shape ν) : s.label.handled? = s.handled? := by
  cases s <;> rfl

theorem Shape.handled?_eq_some {ν : Type} {s : Shape ν} {types : List String} :
    s.handled? = some types ↔ ∃ v block, s = .catchClause types v block := by
  cases s <;> simp [handled?]

/-- What a unit says about a node that is a catch. -/
def Model.caught? (m : Model) (n : NodeId) : Option Caught :=
  match m.graph.shape n with
  | .catchClause types _ block => some ⟨m.graph.location n, some types, m.graph.isRethrow block⟩
  | _ => none

namespace Tree

variable {t : Tree} {ts us : List Tree}

/-- What a tree says about its root if that is a catch. -/
def caught? : Tree → Option Caught
  | node l (.catchClause types _ block) =>
    some ⟨l, some types, block.preorder.tail.any fun t => t.shape.isRethrow⟩
  | _ => none

theorem preorder_eq (t : Tree) : t.preorder = t :: t.children.flatMap preorder := by
  have hflat : (t.children.attach.flatMap fun c => c.1.preorder) = t.children.flatMap preorder := by
    rw [← List.flatMap_map (f := Subtype.val), List.attach_map_subtype_val]
  rw [preorder]
  exact congrArg (t :: ·) hflat

/-! ## Tallies -/

/-- The catch that the root of a tree is, and how often it throws the current error again. -/
def weight (t : Tree) : Multiset Caught × Nat :=
  (t.caught?.toList, if t.shape.isRethrow then 1 else 0)

/-- **The catches of a tree**, and how often it throws the current error again. -/
def tally (t : Tree) : Multiset Caught × Nat := (t.preorder.map weight).sum

/-- The catches of trees, and how often they throw the current error again. -/
def tallies (ts : List Tree) : Multiset Caught × Nat := (ts.map tally).sum

@[simp] theorem tallies_nil : tallies [] = 0 := rfl

@[simp] theorem tallies_cons : tallies (t :: ts) = t.tally + tallies ts := by
  rw [tallies, List.map_cons, List.sum_cons, tallies]

@[simp] theorem tallies_append : tallies (ts ++ us) = tallies ts + tallies us := by
  rw [tallies, List.map_append, List.sum_append, tallies, tallies]

theorem tallies_eq_sum (ts : List Tree) : tallies ts = ((ts.flatMap preorder).map weight).sum := by
  induction ts with
  | nil => rfl
  | cons t ts ih => rw [tallies_cons, ih, List.flatMap_cons, List.map_append, List.sum_append, tally]

theorem tally_eq (t : Tree) : t.tally = t.weight + tallies t.children := by
  rw [tally, preorder_eq, List.map_cons, List.sum_cons, tallies_eq_sum]

theorem sum_weight_fst (ts : List Tree) :
    ((ts.map weight).sum).1 = (ts.filterMap caught? : Multiset Caught) := by
  induction ts with
  | nil => rfl
  | cons t ts ih =>
    rw [List.map_cons, List.sum_cons, Prod.fst_add, ih, weight, Multiset.coe_add]
    cases h : t.caught? <;> simp [h]

theorem sum_weight_snd_pos (ts : List Tree) :
    0 < ((ts.map weight).sum).2 ↔ (ts.any fun t => t.shape.isRethrow) = true := by
  induction ts with
  | nil => simp
  | cons t ts ih =>
    rw [List.map_cons, List.sum_cons, Prod.snd_add, List.any_cons, Bool.or_eq_true, ← ih, weight]
    by_cases h : t.shape.isRethrow = true
    · simp only [h, if_true, true_or, iff_true]
      omega
    · simp [h]

theorem tally_fst (t : Tree) : t.tally.1 = (t.preorder.filterMap caught? : Multiset Caught) :=
  sum_weight_fst t.preorder

theorem any_isRethrow_tail (t : Tree) :
    (t.preorder.tail.any fun u => u.shape.isRethrow) = decide (0 < (tallies t.children).2) := by
  rw [Bool.eq_iff_iff, decide_eq_true_iff, tallies_eq_sum, sum_weight_snd_pos, preorder_eq,
    List.tail_cons]

end Tree

/-! ## Graphs -/

namespace Graph

variable {g₀ g : Graph} {t : Tree} {n root : NodeId} {p : Place}

theorem forall₂_flatMap {α β γ δ : Type} {P : γ → δ → Prop} {f : α → List γ} {h : β → List δ}
    {as : List α} {bs : List β} (hall : List.Forall₂ (fun a b => List.Forall₂ P (f a) (h b)) as bs) :
    List.Forall₂ P (as.flatMap f) (bs.flatMap h) := by
  induction hall with
  | nil => exact .nil
  | cons hab _ ih => exact List.rel_append hab ih

/-- **The pre-order of the graph of a tree is that of the tree.** -/
theorem Lays.forall₂_preorder (hskeleton : g₀.SameSkeleton g) (hrooted : g.Rooted root)
    (hlays : g₀.Lays t n) (hn : g.at? root p = some n) :
    List.Forall₂ (fun n t => g₀.Lays t n) (g.preorder n) t.preorder := by
  induction t using Tree.induction generalizing n p with
  | step t ih =>
    rw [hrooted.preorder_eq hn, Tree.preorder_eq]
    refine .cons hlays (forall₂_flatMap (List.forall₂_iff_get.mpr ⟨?_, fun i hi hi' => ?_⟩))
    · rw [hskeleton.children_eq, hlays.children_eq, Tree.numbers, Tree.length_starts, List.length_map]
    · obtain ⟨k, hk, hlays', -⟩ := hlays.child (List.getElem?_eq_getElem hi')
      rw [← hskeleton.children_eq] at hk
      obtain ⟨_, rfl⟩ := List.getElem?_eq_some_iff.mp hk
      have hat : g.at? root (p ++ [i]) = some _ := Graph.at?_snoc_eq_some.mpr ⟨n, hn, hk⟩
      exact ih _ (List.getElem_mem hi') hlays' hat

theorem Lays.isRethrow_eq (hskeleton : g₀.SameSkeleton g) (hlays : g₀.Lays t n) :
    (g.shape n).isRethrow = t.shape.isRethrow := by
  rw [hskeleton.shape_eq, ← Shape.isRethrow_label, hlays.label_eq, Shape.isRethrow_label]

theorem isRethrow_eq_any (g : Graph) (n : NodeId) :
    g.isRethrow n = (g.preorder n).tail.any fun d => (g.shape d).isRethrow := by
  rw [isRethrow, descendants]
  refine congrArg (List.any _) (funext fun d => ?_)
  rcases g.shape d with _ | _ | _ | _ | _ | ⟨_ | _⟩ | _ | _ | _ | _ | _ | _ | _ | _ | _ | _ | _ | _ |
    _ | _ | _ | _ <;> rfl

theorem map_eq_of_forall₂ {α β γ : Type} {R : α → β → Prop} {f : α → γ} {h : β → γ}
    {as : List α} {bs : List β} (hall : List.Forall₂ R as bs)
    (heq : ∀ a ∈ as, ∀ b, R a b → f a = h b) : as.map f = bs.map h := by
  induction hall with
  | nil => rfl
  | cons hab _ ih =>
    rw [List.map_cons, List.map_cons, heq _ List.mem_cons_self _ hab,
      ih fun a ha => heq a (List.mem_cons_of_mem _ ha)]

/-- What the graph says about a catch is what the tree says. -/
theorem Lays.caught?_eq {m : Model} (hskeleton : g₀.SameSkeleton m.graph)
    (hrooted : m.graph.Rooted m.root) (hlays : g₀.Lays t n) (hn : m.graph.at? m.root p = some n) :
    m.caught? n = t.caught? := by
  obtain ⟨l, shape⟩ := t
  have hhandled : (m.graph.shape n).handled? = shape.handled? := by
    rw [hskeleton.shape_eq, ← Shape.handled?_label, hlays.label_eq, Shape.handled?_label]
    rfl
  rcases htypes : shape.handled? with _ | types
  · rw [htypes] at hhandled
    have hnone : m.caught? n = none := by
      rw [Model.caught?]
      split
      · next hshape => simp [hshape, Shape.handled?] at hhandled
      · rfl
    rw [hnone, Tree.caught?.eq_def]
    split
    · next heq =>
      cases heq
      cases htypes
    · rfl
  · obtain ⟨v, block, rfl⟩ := Shape.handled?_eq_some.mp htypes
    obtain ⟨v', k, hshape⟩ := Shape.handled?_eq_some.mp (hhandled.trans htypes)
    have hk : (m.graph.children n)[0]? = some k := by
      simp [children, hshape, Shape.children, Shape.slots]
    rw [hskeleton.children_eq] at hk
    obtain ⟨c, hc, hblock, -⟩ := hlays.child_of_number hk
    rw [← hskeleton.children_eq] at hk
    obtain rfl : block = c := by
      simpa [Tree.children_node, Shape.children, Shape.slots] using hc
    have hat : m.graph.at? m.root (p ++ [0]) = some k := at?_snoc_eq_some.mpr ⟨n, hn, hk⟩
    have hany := hblock.forall₂_preorder hskeleton hrooted hat
    have hlocation : m.graph.location n = l := by
      rw [hskeleton.location_eq, location, hlays.node_eq]
      rfl
    have hrethrow : m.graph.isRethrow k = block.preorder.tail.any fun u => u.shape.isRethrow := by
      have hmap := map_eq_of_forall₂ (f := fun d => (m.graph.shape d).isRethrow)
        (h := fun u : Tree => u.shape.isRethrow) hany fun _ _ _ h => h.isRethrow_eq hskeleton
      have htail := congrArg (fun bs => bs.tail.any id) hmap
      rw [isRethrow_eq_any]
      simpa [← List.map_tail, List.any_map] using htail
    rw [Model.caught?, hshape]
    simp only [Tree.caught?, hlocation, hrethrow]

end Graph

/-- **The catches of the unit of a tree** are those of the tree. -/
theorem Model.caught_ofTree {m : Model} {vars : Array Variable} {t : Tree} {info : UnitInfo}
    {declarations : List Tree}
    (hvars : ∀ v, 0 < t.sum (Shape.introductions v) → v < vars.size)
    (hunit : t.shape = .sourceUnit info declarations) (hm : ofTree vars t = .ok m) :
    m.nodes.filterMap m.caught? = t.preorder.filterMap Tree.caught? := by
  obtain ⟨hlinked, hroot, hskeleton⟩ := linked_ofTree hvars hunit hm
  have hat : m.graph.at? m.root [] = some 0 := by
    rw [hroot]
    rfl
  have hpreorder := (Graph.lays_ofTree vars t).forall₂_preorder hskeleton hlinked.rooted hat
  rw [← hroot] at hpreorder
  have hmap := Graph.map_eq_of_forall₂ (f := m.caught?) (h := Tree.caught?) hpreorder
    fun n hn u hlays => by
      obtain ⟨p, hp⟩ := hlinked.rooted.mem_preorder.mp hn
      exact hlays.caught?_eq hskeleton hlinked.rooted hp
  have hfilter := congrArg (List.filterMap id) hmap
  rwa [List.filterMap_map, List.filterMap_map] at hfilter

end ModelLint
