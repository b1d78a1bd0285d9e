import ModelLint.Proofs.Program.Catches
import ModelLint.Proofs.Source.Layers

/-!
# Adding up what is built

What a step of building adds to the catches of the trees that are handed to it. The catches of
classes inside functions move to the module; the throws in these classes are not below what is around
any more.

* `Counts`: what a step adds. `Counts.bind`: what two steps add one after the other.
* `Mild.counts`: steps that make no nodes add nothing.
* `counts_exprNode`: an expression adds nothing.
-/

namespace ModelLint.Source

open Build
open ModelLint.Tree (tallies tally_eq tallies_nil tallies_cons tallies_append)

theorem eq_zero_of_add {w w' : Multiset Caught × Nat} (h : w + w' = 0) : w = 0 ∧ w' = 0 := by
  have hzero : w = 0 := Prod.ext
    (Multiset.le_zero.mp ((Multiset.le_add_right _ _).trans_eq (congrArg Prod.fst h)))
    (Nat.eq_zero_of_add_eq_zero_right (congrArg Prod.snd h))
  exact ⟨hzero, by rwa [hzero, zero_add] at h⟩

/-! ## Tallies of nodes -/

section Nodes

variable {r : Range} {shape : Shape Tree} {t : Tree} {ts : List Tree}

/-- A node that is no catch and no throw has the tally of its children. -/
theorem tally_nodeAt (hcaught : shape.handled? = none) (hrethrow : shape.isRethrow = false) :
    (nodeAt r shape).tally = tallies shape.children := by
  have hnone : (nodeAt r shape).caught? = none := by
    rw [nodeAt, Tree.caught?.eq_def]
    split
    · next heq =>
      cases heq
      cases hcaught
    · rfl
  rw [tally_eq, Tree.weight, hnone, nodeAt, Tree.shape, hrethrow, Tree.children_node]
  exact zero_add _

theorem tally_compound {operator : String} : (compoundAt r operator ts).tally = tallies ts := by
  rw [compoundAt, tally_nodeAt rfl rfl]
  simp [Shape.children, Shape.slots]

theorem tally_blockAt {body : List Stmt} : (blockAt r body ts).tally = tallies ts := by
  rw [blockAt, tally_nodeAt rfl rfl]
  simp [Shape.children, Shape.slots]

theorem tally_fieldNode {l : Location} {q name : String} {modifiers : List String} {v : VariableId}
    {initializer : Option Tree} :
    (fieldNode l q modifiers name v initializer).tally = tallies initializer.toList := by
  have hweight : (fieldNode l q modifiers name v initializer).weight = 0 := rfl
  rw [tally_eq, hweight, zero_add]
  simp [fieldNode, Tree.children_node, Shape.children, Shape.slots]

theorem tally_asBlock : (asBlock r t).tally = t.tally := by
  rw [asBlock.eq_def]
  split
  · rfl
  · rw [tally_nodeAt rfl rfl]
    simp [Shape.children, Shape.slots]

end Nodes

/-! ## Steps -/

section Steps

variable {α β : Type} {x : Build α} {k : α → Build β} {f : α → List Tree} {g : β → List Tree}
  {us ts : List Tree} {w w' : Multiset Caught × Nat} {r : Range} {shape : Shape Tree}

/-- What trees that move to the module take with them. Their throws do not count where they come
from. -/
def taken (ts : List Tree) : Multiset Caught × Nat := ((tallies ts).1, 0)

theorem taken_append : taken (ts ++ us) = taken ts + taken us := by
  rw [taken, tallies_append, Prod.fst_add, taken, taken]
  rfl

/-- **What a step adds to the tally of the trees that are handed to it**, those that move to the module
included. There are no catches and throws in the declarations that are pending. -/
def Counts (us : List Tree) (x : Build α) (w : Multiset Caught × Nat) (f : α → List Tree) : Prop :=
  ∀ s : Building, tallies s.pending = 0 → Runs x s (fun _ => True) fun a s' =>
    tallies s'.pending = 0 ∧ ∃ moved, s'.hoisted = s.hoisted ++ moved ∧
      tallies (f a) + taken moved = tallies us + w

/-- Steps behind a step of which the tally is known. -/
theorem Counts.behind (hx : Counts [] x w f)
    (hk : ∀ a, (∃ moved, tallies (f a) + taken moved = w) → Counts (us ++ f a) (k a) w' g) :
    Counts us (x >>= k) (w + w') g := by
  refine fun s hs => (hx s hs).bind fun a s₁ ⟨hs₁, moved, hmoved, h₁⟩ => ?_
  rw [tallies_nil, zero_add] at h₁
  refine (hk a ⟨moved, h₁⟩ s₁ hs₁).mono fun b s₂ ⟨hs₂, moved', hmoved', h₂⟩ =>
    ⟨hs₂, moved ++ moved', by rw [hmoved', hmoved, List.append_assoc], ?_⟩
  calc tallies (g b) + taken (moved ++ moved')
      = (tallies (g b) + taken moved') + taken moved := by
        rw [taken_append, add_comm (taken moved), add_assoc]
    _ = tallies us + (tallies (f a) + taken moved) + w' := by
        rw [h₂, tallies_append]
        simp only [add_assoc, add_comm w']
    _ = tallies us + (w + w') := by rw [h₁, add_assoc]

/-- Trees without a tally are not missed. -/
theorem Counts.skip (hx : Counts [] x 0 f) (hk : ∀ a, tallies (f a) = 0 → Counts us (k a) w g) :
    Counts us (x >>= k) w g := by
  refine zero_add w ▸ hx.behind fun a ⟨moved, h⟩ => ?_
  have hzero := (eq_zero_of_add h).1
  have hus : tallies (us ++ f a) = tallies us := by rw [tallies_append, hzero, add_zero]
  exact fun s hs => (hk a hzero s hs).mono fun b s' h' => hus ▸ h'

theorem Counts.bind (hx : Counts [] x w f) (hk : ∀ a, Counts (us ++ f a) (k a) w' g) :
    Counts us (x >>= k) (w + w') g :=
  hx.behind fun a _ => hk a

/-- A step that adds nothing. -/
theorem Counts.next (hx : Counts [] x 0 f) (hk : ∀ a, Counts (us ++ f a) (k a) w g) :
    Counts us (x >>= k) w g :=
  zero_add w ▸ hx.bind hk

theorem counts_made {a : α} (h : tallies (f a) = tallies us + w) : Counts us (pure a) w f :=
  fun _ hs => ⟨hs, [], (List.append_nil _).symm, (add_zero _).trans h⟩

theorem counts_pure {a : α} (h : tallies (f a) = tallies us) : Counts us (pure a) 0 f :=
  counts_made (h.trans (add_zero _).symm)

/-- The last step, of whose trees others are made. -/
theorem Counts.last {h : α → β} (hx : Counts [] x w f)
    (hh : ∀ a, tallies (g (h a)) = tallies (us ++ f a)) : Counts us (do return h (← x)) w g :=
  add_zero w ▸ hx.bind fun a => counts_pure (hh a)

theorem Counts.map {h : α → β} (hx : Counts us x w fun a => g (h a)) : Counts us (h <$> x) w g :=
  fun s hs => Runs.map (hx s hs)

theorem counts_throw {e : BuildFailure} : Counts us (throw e : Build α) w f := fun _ _ => trivial

/-- A step that makes no nodes. -/
theorem Mild.counts (hx : Mild x) : Counts [] x 0 fun _ => [] := by
  refine fun s hs => (hx s).mono fun a s' ⟨hpending, fields, hhoisted, hfields⟩ =>
    ⟨hpending ▸ hs, fields, hhoisted, ?_⟩
  have hnone : tallies fields = 0 := by
    clear hhoisted
    induction fields with
    | nil => rfl
    | cons t fields ih =>
      obtain ⟨l, q, modifiers, name, v, rfl⟩ := hfields t List.mem_cons_self
      rw [tallies_cons, tally_fieldNode, ih fun t ht => hfields t (List.mem_cons_of_mem _ ht)]
      rfl
  rw [taken, hnone]
  rfl

theorem Mild.skip (hx : Mild x) (hk : ∀ a, Counts us (k a) w g) : Counts us (x >>= k) w g :=
  hx.counts.next fun a => (List.append_nil us).symm ▸ hk a

theorem Counts.withFrame {frame : Frame} (hx : Counts us x w f) :
    Counts us (withFrame frame x) w f :=
  fun s hs => runs_withFrame (Runs.mono (hx { s with frames := _ } hs) fun _ _ h => h)

theorem Counts.withQualifier {name : String} (hx : Counts us x w f) :
    Counts us (withQualifier name x) w f :=
  fun s hs => runs_withQualifier (Runs.mono (hx { s with qualifiers := _ } hs) fun _ _ h => h)

theorem Counts.withReceiver {receiver : Option Receiver} (hx : Counts us x w f) :
    Counts us (withReceiver receiver x) w f := by
  rcases receiver with _ | receiver
  · exact hx
  · exact fun s hs =>
      runs_withReceiver_some (Runs.mono (hx { s with receivers := _ } hs) fun _ _ h => h)

theorem Counts.collectPending (hx : Counts [] x w f) :
    Counts [] (collectPending x) w fun p => p.1 ++ f p.2 := by
  refine fun s hs => runs_collectPending (Runs.mono (hx { s with pending := [] } rfl)
    fun a s' ⟨hs', moved, hmoved, h⟩ => ⟨hs, moved, hmoved, ?_⟩)
  rw [tallies_append, hs', zero_add]
  exact h

theorem Counts.withPending {x : Build (List Tree)} (hx : Counts [] x w id) :
    Counts [] (withPending x) w id :=
  hx.collectPending.last fun _ => rfl

theorem Counts.single {x : Build Tree} (hx : Counts us x w fun t => [t]) :
    Counts us (do return [← x]) w id := by
  rw [bind_pure_comp]
  exact hx.map

theorem counts_cons {x : Build Tree} {y : Build (List Tree)} (hx : Counts [] x w fun t => [t])
    (hy : Counts [] y w' id) : Counts [] (do let t ← x; return t :: (← y)) (w + w') id :=
  hx.bind fun _ => hy.last fun _ => rfl

theorem counts_append {x y : Build (List Tree)} (hx : Counts [] x w id) (hy : Counts [] y w' id) :
    Counts [] (do let ts ← x; return ts ++ (← y)) (w + w') id :=
  hx.bind fun _ => hy.last fun _ => rfl

theorem tallies_node (hcaught : shape.handled? = none) (hrethrow : shape.isRethrow = false)
    (h : tallies shape.children = tallies us) : tallies [nodeAt r shape] = tallies us := by
  rw [tallies_cons, tally_nodeAt hcaught hrethrow, tallies_nil, add_zero, h]

end Steps

/-! ## Expressions -/

section Expressions

variable {r : Range}

theorem counts_nameNode {id : String} : Counts [] (nameNode r id) 0 fun t => [t] := by
  refine mild_lookup?.skip fun v => ?_
  split
  · exact counts_pure (tallies_node rfl rfl rfl)
  · split
    · exact mild_globalField.skip fun _ => counts_pure (tallies_node rfl rfl rfl)
    · exact counts_pure (tallies_node rfl rfl rfl)

theorem counts_targetName {id : String} : Counts [] (targetName r id) 0 fun t => [t] := by
  refine mild_binding?.skip fun v => ?_
  split
  · exact counts_pure (tallies_node rfl rfl rfl)
  · refine mild_newVariable.skip fun v => mild_bindName.skip fun _ => ?_
    intro s hs
    refine runs_modify_bind (runs_pure ⟨?_, [], (List.append_nil _).symm, ?_⟩)
    · rw [tallies_append, hs, zero_add]
      exact tallies_node rfl rfl rfl
    · exact congrArg (· + 0) (tallies_node rfl rfl rfl)

mutual

theorem counts_exprNode : (e : Expr) → Counts [] (exprNode e) 0 fun t => [t]
  | .name r id => by
    rw [exprNode]
    exact counts_nameNode
  | .constant r value hasLetter => by
    rw [exprNode]
    exact counts_pure (tallies_node rfl rfl rfl)
  | .attribute r value attr => by
    rw [exprNode]
    refine mild_isReceiver.skip fun isReceiver => ?_
    split
    · exact mild_receiverField?.skip fun v => counts_pure (tallies_node rfl rfl rfl)
    · exact (counts_exprNode value).last fun t => tallies_node rfl rfl rfl
  | .subscript r value index => by
    rw [exprNode]
    exact (counts_exprNode value).next fun t => (counts_exprNode index).last
      fun u => tallies_node rfl rfl rfl
  | .call r function args keywords => by
    have hmade : ∀ {shape : List Tree → Shape Tree} (before : List Tree),
        (∀ us, (shape us).handled? = none) → (∀ us, (shape us).isRethrow = false) →
        (∀ us, (shape us).children = before ++ us) → Counts before (do
          let args ← exprNodes args
          return nodeAt r (shape (args ++ (← keywordNodes keywords)))) 0 fun t => [t] := by
      intro shape before hcaught hrethrow hchildren
      refine (counts_exprNodes args).next fun ts => (counts_keywordNodes keywords).last
        fun us => tallies_node (hcaught _) (hrethrow _) ?_
      rw [hchildren, List.append_assoc]
      rfl
    cases function with
    | «attribute» fr value attr =>
      rw [exprNode]
      refine mild_createdType?.skip fun created => ?_
      split
      · exact hmade [] (fun _ => rfl) (fun _ => rfl) fun us => by simp [Shape.children, Shape.slots]
      · refine mild_isReceiver.skip fun isReceiver => ?_
        dsimp only
        split
        · exact hmade [] (fun _ => rfl) (fun _ => rfl) fun us => by simp [Shape.children, Shape.slots]
        · have hqualifier : Counts [] (some <$> exprNode value) 0 Option.toList :=
            (counts_exprNode value).map
          refine hqualifier.next fun q => ?_
          exact hmade q.toList (fun _ => rfl) (fun _ => rfl) fun us => by
            simp [Shape.children, Shape.slots]
    | name fr id =>
      rw [exprNode]
      refine mild_createdType?.skip fun created => ?_
      rcases created with _ | typeName
      · exact hmade [] (fun _ => rfl) (fun _ => rfl) fun us => by simp [Shape.children, Shape.slots]
      · exact hmade [] (fun _ => rfl) (fun _ => rfl) fun us => by simp [Shape.children, Shape.slots]
    | _ =>
      rw [exprNode]
      · refine (counts_exprNode _).next fun t => ?_
        exact hmade [t] (fun _ => rfl) (fun _ => rfl) fun us => by simp [Shape.children, Shape.slots]
      all_goals nofun
  | .compound r form operands => by
    rw [exprNode]
    exact (counts_exprNodes operands).last fun ts => by simp [tally_compound]
  | .dict r entries => by
    rw [exprNode]
    exact (counts_keyNodes entries).next fun ts => (counts_valueNodes entries).last
      fun us => by simp [tally_compound]
  | .walrus r target id value => by
    rw [exprNode]
    refine (counts_exprNode value).next fun t => counts_targetName.last fun u =>
      tallies_node rfl rfl ?_
    simp [Shape.children, Shape.slots, add_comm]
  | .lambda r parameters body => by
    rw [exprNode]
    refine (mild_parameterNames parameters).skip fun names => ?_
    refine (counts_exprNode body).withFrame.last fun t => tallies_node rfl rfl ?_
    exact tallies_node rfl rfl rfl
  | .comprehension r kind elements first rest => by
    rw [exprNode]
    have hinner : Counts [] (do
        let (vs, nodes) ← clauseNodes first
        let (vs', nodes') ← innerClauseNodes rest
        return (vs ++ vs', nodes ++ nodes' ++ (← exprNodes elements))) 0 (·.2) :=
      (counts_clauseNodes first).next fun p => (counts_innerClauseNodes rest).next
        fun q => (counts_exprNodes elements).last fun ts => rfl
    refine (counts_sourceNode first).next fun t => hinner.withFrame.last fun p => ?_
    have hyield : tallies [nodeAt r (.exprStatement (compoundAt r "yield" p.2))] = tallies p.2 :=
      tallies_node rfl rfl (by simp [Shape.children, Shape.slots, tally_compound])
    have hlambda : tallies [nodeAt r (.lambda p.1 false
        [nodeAt r (.exprStatement (compoundAt r "yield" p.2))])] = tallies p.2 :=
      tallies_node rfl rfl hyield
    simpa [tally_compound] using hlambda

theorem counts_exprNodes : (es : List Expr) → Counts [] (exprNodes es) 0 id
  | [] => counts_pure rfl
  | e :: es => counts_cons (counts_exprNode e) (counts_exprNodes es)

theorem counts_keywordNodes : (ks : List Keyword) → Counts [] (keywordNodes ks) 0 id
  | [] => counts_pure rfl
  | .mk _ value :: rest => counts_cons (counts_exprNode value) (counts_keywordNodes rest)

theorem counts_keyNodes : (es : List Entry) → Counts [] (keyNodes es) 0 id
  | [] => counts_pure rfl
  | .pair key _ :: rest => counts_cons (counts_exprNode key) (counts_keyNodes rest)
  | .unpack _ :: rest => counts_keyNodes rest

theorem counts_valueNodes : (es : List Entry) → Counts [] (valueNodes es) 0 id
  | [] => counts_pure rfl
  | .pair _ value :: rest => counts_cons (counts_exprNode value) (counts_valueNodes rest)
  | .unpack value :: rest => counts_cons (counts_exprNode value) (counts_valueNodes rest)

theorem counts_sourceNode : (c : Clause) → Counts [] (sourceNode c) 0 fun t => [t]
  | .mk _ _ source _ => counts_exprNode source

theorem counts_clauseNodes : (c : Clause) → Counts [] (clauseNodes c) 0 (·.2)
  | .mk _ target _ conditions => (mild_bindAll _).skip fun _ => (counts_exprNode target).next
    fun _ => (counts_exprNodes conditions).last fun _ => rfl

theorem counts_innerClauseNodes : (cs : List Clause) → Counts [] (innerClauseNodes cs) 0 (·.2)
  | [] => counts_pure rfl
  | c :: rest => (counts_sourceNode c).next fun _ => (counts_clauseNodes c).next
    fun _ => (counts_innerClauseNodes rest).last fun _ => rfl

end

end Expressions

end ModelLint.Source
