import ModelLint.Proofs.Source.Captures

/-!
# Where a function binds a name

A function binds names in its own statements and their blocks. Each such place is a binding: an
import, an annotation, or a target. In the nodes of the function the first binding of a name becomes
the declaration of a variable, and the others are accesses to it.

* `OwnBinding`, `Routine.ownBindings`: the bindings of a function, as their nodes are built.
* `Routine.walruses`: the names that its expressions bind on the way.
* `Near`: what stands below some trees, but in no function inside.
* `Declared`, `Plain`, `Covers`: the declarations there, and trees that have the same ones.
* **`Binds`**: what bindings make of a name, one after the other. `Binds.first` is the way that a
  name takes which has no variable at the start.
-/

namespace ModelLint

/-- A function inside another one: the declaration of its variable stands where the function does. -/
def Tree.IsLocalFunction (t : Tree) : Prop :=
  ∃ v f, t.shape = .varDeclaration v (some f) ∧ f.shape.IsFunction ∧ f.location = t.location

/-- No declaration of a local variable. -/
def Shape.IsPlain {ν : Type} (s : Shape ν) : Prop := ∀ v initializer, s ≠ .varDeclaration v initializer

namespace Source

open Build

variable {x : String} {v : VariableId} {t u : Tree} {ts us ts' us' : List Tree} {r : Range}
  {shape : Shape Tree} {made made' : Tree → Prop}

/-! ## Bindings -/

/-- **How a function binds a name** at one place of its own statements. -/
inductive OwnBinding where
  /-- An import, or an annotation without a value. There is no target. -/
  | bare (name : String) (place : Range)
  /-- The only target of an assignment or of a resource. The name is declared at the place of the
  statement or of the resource. -/
  | alone (name : String) (place target : Range)
  /-- One of several targets, or one of a loop. The name is declared at its own place. -/
  | among (name : String) (target : Range)
deriving DecidableEq

namespace OwnBinding

/-- The name. -/
def name : OwnBinding → String
  | bare name _ | alone name _ _ | among name _ => name

/-- Where the name is declared if it is new. -/
def place : OwnBinding → Range
  | bare _ place | alone _ place _ => place
  | among _ target => target

/-- The target, if there is one. -/
def target? : OwnBinding → Option Range
  | bare _ _ => none
  | alone _ _ target | among _ target => some target

/-- The target, if it has a node of its own even where the name is declared. -/
def shared? : OwnBinding → Option Range
  | among _ target => some target
  | _ => none

end OwnBinding

mutual

/-- The bindings of a target among others. -/
def Expr.ownBindings : Expr → List OwnBinding
  | .name r id => [.among id r]
  | .compound _ .tuple es => ownBindingsOf es
  | .compound _ .list es => ownBindingsOf es
  | .compound _ .starred [e] => e.ownBindings
  | _ => []

/-- The bindings of several targets. -/
def ownBindingsOf : List Expr → List OwnBinding
  | [] => []
  | e :: es => e.ownBindings ++ ownBindingsOf es

end

/-- The bindings of an assignment to targets. -/
def assignedOwn (r : Range) : List Expr → List OwnBinding
  | [.name target id] => [.alone id r target]
  | targets => ownBindingsOf targets

/-- The bindings of an annotated assignment. -/
def annotatedOwn (r : Range) : Expr → Option Expr → List OwnBinding
  | .name _ id, none => [.bare id r]
  | .name target id, some _ => [.alone id r target]
  | _, _ => []

/-- The bindings of a resource in an expression. -/
def heldOwn (context : Expr) : Option Expr → List OwnBinding
  | none => []
  | some (.name target id) => [.alone id context.range target]
  | some target => target.ownBindings

/-- The bindings of resources. -/
def resourcesOwn (resources : List Resource) : List OwnBinding :=
  resources.flatMap fun resource => heldOwn resource.context resource.target

mutual

/-- The bindings of a statement and of those in its blocks, in the function around. -/
def Stmt.ownBindings : Stmt → List OwnBinding
  | .assign r targets _ => assignedOwn r targets
  | .annotate r target _ value => annotatedOwn r target value
  | .forEach _ _ target _ body orElse =>
    target.ownBindings ++ (ownBindingsIn body ++ ownBindingsIn orElse)
  | .whileLoop _ _ body orElse | .choose _ _ body orElse => ownBindingsIn body ++ ownBindingsIn orElse
  | .withResources _ resources body => resourcesOwn resources ++ ownBindingsIn body
  | .matchCases _ _ cases => ownBindingsInCases cases
  | .guarded _ body handlers orElse finalBody =>
    ownBindingsIn body ++ (ownBindingsInHandlers handlers ++
      (ownBindingsIn finalBody ++ ownBindingsIn orElse))
  | .imports r names => names.map (.bare · r)
  | .function _ _ _ | .classType _ _ _ _ | .returnValue _ _ | .augment _ _ _ _ | .throwError _ _ _
  | .globals _ _ | .nonlocals _ _ | .expr _ _ | .simple _ _ _ => []

/-- The bindings of statements and of those in their blocks. -/
def ownBindingsIn : List Stmt → List OwnBinding
  | [] => []
  | s :: rest => s.ownBindings ++ ownBindingsIn rest

/-- The bindings in the cases of a choice by pattern. -/
def ownBindingsInCases : List (List Stmt) → List OwnBinding
  | [] => []
  | body :: rest => ownBindingsIn body ++ ownBindingsInCases rest

/-- The bindings in handlers. -/
def ownBindingsInHandlers : List Handler → List OwnBinding
  | [] => []
  | .mk _ _ _ body :: rest => ownBindingsIn body ++ ownBindingsInHandlers rest

end

/-- **The bindings of a function**, in the order in which their nodes are built. -/
def Routine.ownBindings (f : Routine) : List OwnBinding := ownBindingsIn f.body

/-! ## Names bound on the way -/

mutual

/-- The names that the expressions of a statement and of those in its blocks bind on the way: those
of the initializers in a class too, but not those in functions inside. -/
def Stmt.walruses : Stmt → List String
  | .classType _ _ _ body => (initializersIn body).flatMap Expr.walruses
  | .returnValue _ value => value.toList.flatMap Expr.walruses
  | .assign _ targets value => value.walruses ++ targets.flatMap Expr.walruses
  | .augment _ target _ value => target.walruses ++ value.walruses
  | .annotate _ target _ value => target.walruses ++ value.toList.flatMap Expr.walruses
  | .forEach _ _ target source body orElse =>
    target.walruses ++ source.walruses ++ walrusesIn body ++ walrusesIn orElse
  | .whileLoop _ condition body orElse | .choose _ condition body orElse =>
    condition.walruses ++ walrusesIn body ++ walrusesIn orElse
  | .withResources _ resources body =>
    (resources.flatMap Resource.expressions).flatMap Expr.walruses ++ walrusesIn body
  | .matchCases _ subject cases => subject.walruses ++ walrusesInCases cases
  | .throwError _ error cause =>
    error.toList.flatMap Expr.walruses ++ cause.toList.flatMap Expr.walruses
  | .guarded _ body handlers orElse finalBody =>
    walrusesIn body ++ walrusesInHandlers handlers ++ walrusesIn orElse ++ walrusesIn finalBody
  | .expr _ value => value.walruses
  | .simple _ _ operands => operands.flatMap Expr.walruses
  | .function _ _ _ | .imports _ _ | .globals _ _ | .nonlocals _ _ => []

/-- The names that the expressions of statements bind on the way. -/
def walrusesIn : List Stmt → List String
  | [] => []
  | s :: rest => s.walruses ++ walrusesIn rest

/-- The names that the expressions in cases bind on the way. -/
def walrusesInCases : List (List Stmt) → List String
  | [] => []
  | body :: rest => walrusesIn body ++ walrusesInCases rest

/-- The names that the expressions in handlers bind on the way. -/
def walrusesInHandlers : List Handler → List String
  | [] => []
  | .mk _ _ _ body :: rest => walrusesIn body ++ walrusesInHandlers rest

end

/-- **The names that the expressions of a function bind on the way**, in anonymous functions,
comprehensions and classes inside too. -/
def Routine.walruses (f : Routine) : List String := walrusesIn f.body

/-! ## Trees near trees -/

/-- **A tree stands near some trees**: it is one of them, or it stands below one of them, but in no
function inside. -/
inductive Near (ts : List Tree) : Tree → Prop
  /-- It is one of the trees. -/
  | root {t : Tree} : t ∈ ts → Near ts t
  /-- It is a child of a tree that stands near and is no function inside. -/
  | child {t c : Tree} : Near ts t → ¬ t.IsLocalFunction → c ∈ t.children → Near ts c

theorem Near.mono (h : Near us u) (hus : us ⊆ ts) : Near ts u := by
  induction h with
  | root hmem => exact .root (hus hmem)
  | child _ hopen hc ih => exact .child ih hopen hc

theorem not_near_nil : ¬ Near [] u := fun h => by
  induction h with
  | root hmem => cases hmem
  | child _ _ _ ih => exact ih

theorem near_append : Near (us ++ ts) u ↔ Near us u ∨ Near ts u := by
  refine ⟨fun h => ?_, ?_⟩
  · induction h with
    | root hmem => exact (List.mem_append.mp hmem).imp .root .root
    | child _ hopen hc ih => exact ih.imp (.child · hopen hc) (.child · hopen hc)
  · rintro (h | h)
    · exact h.mono (List.subset_append_left us ts)
    · exact h.mono (List.subset_append_right us ts)

theorem near_singleton : Near [t] u ↔ u = t ∨ ¬ t.IsLocalFunction ∧ Near t.children u := by
  refine ⟨fun h => ?_, ?_⟩
  · induction h with
    | root hmem => exact .inl (List.mem_singleton.mp hmem)
    | child _ hopen hc ih =>
      rcases ih with rfl | ⟨hnot, hnear⟩
      · exact .inr ⟨hopen, .root hc⟩
      · exact .inr ⟨hnot, .child hnear hopen hc⟩
  · rintro (rfl | ⟨hnot, h⟩)
    · exact .root (List.mem_singleton_self u)
    · induction h with
      | root hmem => exact .child (.root (List.mem_singleton_self t)) hnot hmem
      | child _ hopen hc ih => exact .child ih hopen hc

/-- A declaration of a variable stands near. -/
def Declared (ts : List Tree) (v : VariableId) : Prop :=
  ∃ u initializer, Near ts u ∧ u.shape = .varDeclaration v initializer

theorem declared_append : Declared (us ++ ts) v ↔ Declared us v ∨ Declared ts v := by
  simp only [Declared, near_append, or_and_right, exists_or]

/-- No declaration of a local variable stands in a tree. -/
def Plain (t : Tree) : Prop := t.All Shape.IsPlain

theorem plain_node (hs : shape.IsPlain) (h : ∀ c ∈ shape.children, Plain c) :
    Plain (nodeAt r shape) :=
  Tree.all_iff.mpr ⟨hs, h⟩

theorem Near.plain (h : Near ts u) (hts : ∀ t ∈ ts, Plain t) : Plain u := by
  induction h with
  | root hmem => exact hts _ hmem
  | child _ _ hc ih => exact (Tree.all_iff.mp ih).2 _ hc

theorem not_declared_of_plain (hts : ∀ t ∈ ts, Plain t) : ¬ Declared ts v :=
  fun ⟨_, _, hnear, hshape⟩ => (Tree.all_iff.mp (hnear.plain hts)).1 _ _ hshape

theorem not_isLocalFunction (hs : shape.IsPlain) : ¬ (nodeAt r shape).IsLocalFunction :=
  fun ⟨v, f, hshape, _⟩ => hs v (some f) hshape

theorem declared_varDeclaration {initializer : Option Tree} {w : VariableId}
    (hplain : ∀ t ∈ initializer.toList, Plain t)
    (h : Declared [nodeAt r (.varDeclaration v initializer)] w) : w = v := by
  obtain ⟨u, value, hnear, hshape⟩ := h
  rcases near_singleton.mp hnear with rfl | ⟨-, hnear⟩
  · cases hshape
    rfl
  · have hvalue : ∀ t ∈ (nodeAt r (.varDeclaration v initializer)).children, Plain t := fun t ht =>
      hplain t (by simpa [Tree.children, Tree.shape, nodeAt, Shape.children, Shape.slots] using ht)
    exact absurd hshape ((Tree.all_iff.mp (hnear.plain hvalue)).1 _ _)

/-! ## Trees made of trees -/

/-- **Trees cover others**: what stands near those stands near these, and there are no more
declarations. -/
structure Covers (us ts : List Tree) : Prop where
  /-- What stood near stands near. -/
  near : ∀ u, Near us u → Near ts u
  /-- All declarations were there. -/
  declared : ∀ v, Declared ts v → Declared us v

theorem Covers.refl (ts : List Tree) : Covers ts ts := ⟨fun _ h => h, fun _ h => h⟩

theorem Covers.trans (h : Covers us ts) (h' : Covers ts ts') : Covers us ts' :=
  ⟨fun u hu => h'.near u (h.near u hu), fun v hv => h.declared v (h'.declared v hv)⟩

theorem Covers.append (h : Covers us ts) (h' : Covers us' ts') : Covers (us ++ us') (ts ++ ts') where
  near u hu := near_append.mpr ((near_append.mp hu).imp (h.near u) (h'.near u))
  declared v hv := declared_append.mpr ((declared_append.mp hv).imp (h.declared v) (h'.declared v))

theorem covers_of_subset (h : us ⊆ ts) (h' : ∀ t ∈ ts, t ∈ us ∨ Plain t) : Covers us ts := by
  refine ⟨fun u hu => hu.mono h, ?_⟩
  rintro v ⟨u, initializer, hnear, hshape⟩
  have hor : Near us u ∨ Plain u := by
    clear hshape
    induction hnear with
    | root hmem => exact (h' _ hmem).imp_left .root
    | child _ hopen hc ih => exact ih.imp (.child · hopen hc) fun hp => (Tree.all_iff.mp hp).2 _ hc
  rcases hor with hnear | hplain
  · exact ⟨u, initializer, hnear, hshape⟩
  · exact absurd hshape ((Tree.all_iff.mp hplain).1 _ _)

theorem covers_comm (us ts : List Tree) : Covers (us ++ ts) (ts ++ us) :=
  covers_of_subset (by simp) fun t ht => .inl (by simpa [or_comm] using ht)

theorem covers_of_plain (h : ∀ t ∈ ts, Plain t) : Covers [] ts :=
  covers_of_subset (List.nil_subset ts) fun t ht => .inr (h t ht)

/-- A node that is no declaration of a variable covers its children. -/
theorem covers_node (hs : shape.IsPlain) (h : us ⊆ shape.children)
    (h' : ∀ t ∈ shape.children, t ∈ us ∨ Plain t) : Covers us [nodeAt r shape] := by
  have hall := covers_of_subset h h'
  refine ⟨fun u hu => near_singleton.mpr (.inr ⟨not_isLocalFunction hs, hall.near u hu⟩), ?_⟩
  rintro v ⟨u, initializer, hnear, hshape⟩
  rcases near_singleton.mp hnear with rfl | ⟨-, hnear⟩
  · exact absurd hshape (hs _ _)
  · exact hall.declared v ⟨u, initializer, hnear, hshape⟩

theorem covers_children (hs : shape.IsPlain) (h : shape.children = us) :
    Covers us [nodeAt r shape] :=
  covers_node hs (by rw [h]; exact List.Subset.refl us) fun t ht => .inl (h ▸ ht)

theorem covers_block {owner : Range} {body : List Stmt} : Covers ts [blockAt owner body ts] :=
  covers_children (by simp [Shape.IsPlain]) (by simp [Shape.children, Shape.slots])

theorem covers_asBlock : Covers [t] [asBlock r t] := by
  unfold asBlock
  split
  · exact .refl _
  · exact covers_children (by simp [Shape.IsPlain]) (by simp [Shape.children, Shape.slots])

theorem covers_holdAll {held : List Held} {block : Tree} :
    Covers (held.map Held.node ++ [block]) [holdAll r held block] := by
  induction held with
  | nil => exact .refl _
  | cons h rest ih =>
    have hinner := (Covers.refl [h.node]).append (ih.trans (covers_asBlock (r := r)))
    refine hinner.trans ?_
    cases h with
    | lock target =>
      exact covers_children (by simp [Shape.IsPlain])
        (by simp [Held.node, Shape.children, Shape.slots, holdAll])
    | resource node =>
      exact covers_children (by simp [Shape.IsPlain])
        (by simp [Held.node, Shape.children, Shape.slots, holdAll])

/-! ## What bindings make of a name -/

namespace OwnBinding

/-- The target is a node that mentions a variable. -/
def Assigns (made : Tree → Prop) (v : VariableId) (b : OwnBinding) : Prop :=
  ∀ r ∈ b.target?, made (nodeAt r (.varAccess b.name (some v)))

/-- A variable is declared at the place of the binding. -/
def Declares (made : Tree → Prop) (v : VariableId) (b : OwnBinding) : Prop :=
  (∃ initializer, made (nodeAt b.place (.varDeclaration v initializer))) ∧
    ∀ r ∈ b.shared?, made (nodeAt r (.varAccess b.name (some v)))

/-- **What a binding makes of a name**, given the variables that the name has before and behind. -/
def Acts (made : Tree → Prop) (x : String) (b : OwnBinding) (own own' : Option VariableId) : Prop :=
  (b.name ≠ x → own' = own) ∧
    (b.name = x → ∃ v, own' = some v ∧
      (own = some v ∧ b.Assigns made v ∨ own = none ∧ b.Declares made v))

variable {b : OwnBinding} {own own' : Option VariableId}

theorem Assigns.mono (h : b.Assigns made v) (hmade : ∀ t, made t → made' t) : b.Assigns made' v :=
  fun r hr => hmade _ (h r hr)

theorem Declares.mono (h : b.Declares made v) (hmade : ∀ t, made t → made' t) : b.Declares made' v :=
  ⟨h.1.imp fun _ hinit => hmade _ hinit, fun r hr => hmade _ (h.2 r hr)⟩

theorem Acts.mono (h : b.Acts made x own own') (hmade : ∀ t, made t → made' t) :
    b.Acts made' x own own' := by
  refine ⟨h.1, fun hx => ?_⟩
  obtain ⟨v, hv, hor⟩ := h.2 hx
  exact ⟨v, hv, hor.imp (And.imp_right (·.mono hmade)) (And.imp_right (·.mono hmade))⟩

theorem Acts.own_of_some (h : b.Acts made x own own') (hv : own = some v) : own' = some v := by
  by_cases hx : b.name = x
  · obtain ⟨w, hw, ⟨hsome, -⟩ | ⟨hnone, -⟩⟩ := h.2 hx
    · exact hw.trans (hsome.symm.trans hv)
    · cases hnone.symm.trans hv
  · exact (h.1 hx).trans hv

end OwnBinding

/-- **What bindings make of a name**, one after the other. -/
def Binds (made : Tree → Prop) (x : String) :
    List OwnBinding → Option VariableId → Option VariableId → Prop
  | [], own, own' => own' = own
  | b :: bs, own, own'' => ∃ own', b.Acts made x own own' ∧ Binds made x bs own' own''

section Binds

variable {b : OwnBinding} {bs bs' rest : List OwnBinding} {own own' own'' : Option VariableId}

theorem Binds.mono (h : Binds made x bs own own') (hmade : ∀ t, made t → made' t) :
    Binds made' x bs own own' := by
  induction bs generalizing own with
  | nil => exact h
  | cons b bs ih =>
    obtain ⟨mid, hb, h⟩ := h
    exact ⟨mid, hb.mono hmade, ih h⟩

theorem Binds.append (h : Binds made x bs own own') (h' : Binds made x bs' own' own'') :
    Binds made x (bs ++ bs') own own'' := by
  induction bs generalizing own with
  | nil =>
    cases h
    exact h'
  | cons b bs ih =>
    obtain ⟨mid, hb, h⟩ := h
    exact ⟨mid, hb, ih h⟩

theorem Binds.own_of_some (h : Binds made x bs own own') (hv : own = some v) : own' = some v := by
  induction bs generalizing own with
  | nil => exact h.trans hv
  | cons b bs ih =>
    obtain ⟨mid, hb, h⟩ := h
    exact ih h (hb.own_of_some hv)

theorem binds_singleton : Binds made x [b] own own' ↔ b.Acts made x own own' :=
  ⟨fun ⟨_, hb, h⟩ => h ▸ hb, fun hb => ⟨own', hb, rfl⟩⟩

theorem Binds.assigns (h : Binds made x bs own own') (hv : own = some v) :
    ∀ b ∈ bs.filter (·.name = x), b.Assigns made v := by
  induction bs generalizing own with
  | nil => exact List.forall_mem_nil _
  | cons b bs ih =>
    obtain ⟨mid, hb, h⟩ := h
    have hrest := ih h (hb.own_of_some hv)
    by_cases hx : b.name = x
    · rw [List.filter_cons_of_pos (by simpa using hx)]
      refine List.forall_mem_cons.mpr ⟨?_, hrest⟩
      obtain ⟨w, -, ⟨hsome, hassigns⟩ | ⟨hnone, -⟩⟩ := hb.2 hx
      · cases hsome.symm.trans hv
        exact hassigns
      · cases hnone.symm.trans hv
    · rwa [List.filter_cons_of_neg (by simpa using hx)]

/-- **The first binding of a name that has no variable declares one**, and the others assign it. -/
theorem Binds.first (h : Binds made x bs none own') (hfirst : bs.filter (·.name = x) = b :: rest) :
    ∃ v, own' = some v ∧ b.Declares made v ∧ ∀ c ∈ rest, c.Assigns made v := by
  induction bs with
  | nil => cases hfirst
  | cons c bs ih =>
    obtain ⟨mid, hc, h⟩ := h
    by_cases hx : c.name = x
    · rw [List.filter_cons_of_pos (by simpa using hx)] at hfirst
      obtain ⟨rfl, rfl⟩ := List.cons.inj hfirst
      obtain ⟨v, rfl, ⟨hsome, -⟩ | ⟨-, hdeclares⟩⟩ := hc.2 hx
      · cases hsome
      · exact ⟨v, h.own_of_some rfl, hdeclares, h.assigns rfl⟩
    · rw [List.filter_cons_of_neg (by simpa using hx)] at hfirst
      cases hc.1 hx
      exact ih h hfirst

end Binds

end Source

end ModelLint
