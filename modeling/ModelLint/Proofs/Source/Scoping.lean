import ModelLint.Proofs.Program.Functions
import ModelLint.Proofs.Program.Variables
import ModelLint.Source.Nodes

/-!
# Local variables stay in their functions

A frame is closed behind the function it was opened for, and with it the names of the function are
gone. So what is built later does not mention them, and what was built before could not. Declarations
that move to the module are the exception: they are built inside a function and put outside.

* `Building.Sees`: a variable is in sight.
* `Fresh`: a variable has come up, and in no function that was built since.
* **`Scoping`**: what a step keeps in functions, with the declarations that it moves. `Scoping.trans`,
  `Scoping.node` and `Scoping.hoist` put steps together.
-/

namespace ModelLint.Source

open ModelLint.Tree (HasFunction InFunction sums)

/-! ## Variables in sight -/

/-- A variable is in sight: an open frame has a name for it. -/
def Building.Sees (s : Building) (v : VariableId) : Prop :=
  ∃ frame ∈ s.frames, ∃ name, (name, v) ∈ frame.names

/-- A variable is no field. -/
def IsLocal (vars : Array Variable) (v : VariableId) : Prop := ¬ HasKind vars (· = .field) v

/-- The declarations that have moved to the module since a state. -/
def Building.moved (s s' : Building) : List Tree := s'.hoisted.drop s.hoisted.length

/-- A variable has come up since a state, and in none of the functions that were built. -/
def Fresh (s : Building) (ts : List Tree) (s' : Building) (v : Nat) : Prop :=
  s.vars.size ≤ v ∧ ¬ InFunction (ts ++ s.moved s') v

/-- A declaration of a variable without initializer. -/
def Bare (t : Tree) : Prop := ∃ l v, t = .node l (.varDeclaration v none)

theorem IsLocal.of_extends {vars vars' : Array Variable} {v : VariableId} (h : IsLocal vars' v)
    (hx : Extends vars vars') : IsLocal vars v :=
  fun hfield => h (hfield.extends hx)

section Bare

variable {t f : Tree} {ts : List Tree} {v : VariableId}

theorem Bare.not_hasFunction (h : Bare t) : ¬ HasFunction [t] f := by
  obtain ⟨l, v, rfl⟩ := h
  intro hf
  rcases Tree.hasFunction_node.mp hf with ⟨-, hfunction⟩ | hf
  · exact hfunction
  · exact Tree.hasFunction_nil hf

theorem not_hasFunction_of_bare (h : ∀ t ∈ ts, Bare t) : ¬ HasFunction ts f := by
  rintro ⟨hf, t, ht, hp⟩
  exact (h t ht).not_hasFunction ⟨hf, t, List.mem_singleton_self t, hp⟩

theorem mentions_of_bare (h : ∀ t ∈ ts, Bare t) : sums (Shape.mentions v) ts = 0 := by
  by_contra hne
  obtain ⟨t, ht, hpos⟩ := Tree.sums_pos (Nat.pos_of_ne_zero hne)
  obtain ⟨l, w, rfl⟩ := h t ht
  rw [Tree.sum_eq] at hpos
  simp [Tree.shape, Tree.children, Shape.children, Shape.slots, Shape.mentions, Shape.mention?] at hpos

end Bare

/-! ## What a step keeps in functions -/

/-- **What a step keeps in functions.** What a function of the trees introduces is new, and no other
tree mentions it. Declarations that have moved may mention what is in sight, but nothing that is
introduced in a function of theirs is mentioned elsewhere. -/
structure Scoping (s : Building) (ts : List Tree) (s' : Building) : Prop where
  /-- What was in sight is a variable. -/
  sees_lt : ∀ v : Nat, s.Sees v → v < s.vars.size
  /-- What is in sight is a variable. -/
  sees_lt' : ∀ v : Nat, s'.Sees v → v < s'.vars.size
  /-- Declarations that have moved stay where they are. -/
  hoisted : s.hoisted <+: s'.hoisted
  /-- What is to be put before the statement has no initializer. -/
  pending : ∃ new, s'.pending = s.pending ++ new ∧ ∀ t ∈ new, Bare t
  /-- What has come in sight belongs to no function that was built. -/
  visible : ∀ v : Nat, s'.Sees v → s.Sees v ∨ Fresh s ts s' v
  /-- Local variables that are mentioned were in sight or are new. -/
  mentioned : ∀ v : Nat, IsLocal s'.vars v → 0 < sums (Shape.mentions v) ts →
    s.Sees v ∨ s.vars.size ≤ v ∧ v < s'.vars.size
  /-- What a function introduces is new, and if it is local it is mentioned in the function only. -/
  confined : ∀ f, HasFunction ts f → ∀ v : Nat, 0 < f.sum (Shape.introductions v) →
    s.vars.size ≤ v ∧ (IsLocal s'.vars v → sums (Shape.mentions v) ts = f.sum (Shape.mentions v))
  /-- The same for a function in a declaration that has moved. -/
  apart : ∀ t ∈ s.moved s', ∀ f, HasFunction [t] f → ∀ v : Nat,
    0 < f.sum (Shape.introductions v) → s.vars.size ≤ v ∧ (IsLocal s'.vars v →
      t.sum (Shape.mentions v) = f.sum (Shape.mentions v) ∧ sums (Shape.mentions v) ts = 0)

namespace Scoping

variable {s s' s'' : Building} {ts us : List Tree} {v : Nat} {t : Tree}

theorem moved_append (h : s.hoisted <+: s'.hoisted) (h' : s'.hoisted <+: s''.hoisted) :
    s.moved s'' = s.moved s' ++ s'.moved s'' := by
  obtain ⟨us, hus⟩ := h
  obtain ⟨us', hus'⟩ := h'
  rw [Building.moved, Building.moved, Building.moved, ← hus', ← hus]
  simp

theorem moved_self (s : Building) : s.moved s = [] := by
  rw [Building.moved, List.drop_length]

theorem sums_hoisted (h : Scoping s ts s') (g : Shape Tree → Nat) :
    sums g s'.hoisted = sums g s.hoisted + sums g (s.moved s') := by
  obtain ⟨us, hus⟩ := h.hoisted
  rw [Building.moved, ← hus, List.drop_left, Tree.sums_append]

theorem sums_pending_le (h : Scoping s ts s') (g : Shape Tree → Nat) :
    sums g s.pending ≤ sums g s'.pending := by
  obtain ⟨new, hnew, -⟩ := h.pending
  rw [hnew, Tree.sums_append]
  exact Nat.le_add_right _ _

theorem bare_of_pending (h : Scoping s ts s') (hs : s.pending = []) : ∀ t ∈ s'.pending, Bare t := by
  obtain ⟨new, hnew, hbare⟩ := h.pending
  rwa [hnew, hs]

theorem refl (hs : ∀ v : Nat, s.Sees v → v < s.vars.size) : Scoping s [] s where
  sees_lt := hs
  sees_lt' := hs
  hoisted := List.prefix_rfl
  pending := ⟨[], (List.append_nil _).symm, fun _ ht => nomatch ht⟩
  visible _ hv := .inl hv
  mentioned v _ hv := by simp at hv
  confined _ hf := absurd hf Tree.hasFunction_nil
  apart t ht := by
    rw [moved_self] at ht
    cases ht

/-- What is introduced in a function, in one of the trees or in a declaration that has moved, is
new. -/
theorem le_of_inFunction (h : Scoping s ts s') (hv : InFunction (ts ++ s.moved s') v) :
    s.vars.size ≤ v := by
  obtain ⟨f, hf, hpos⟩ := hv
  rcases Tree.hasFunction_append.mp hf with hf | ⟨hfunction, t, ht, hp⟩
  · exact (h.confined f hf v hpos).1
  · exact (h.apart t ht f ⟨hfunction, t, List.mem_singleton_self t, hp⟩ v hpos).1

theorem inFunction_trans (h : s.hoisted <+: s'.hoisted) (h' : s'.hoisted <+: s''.hoisted)
    (hv : InFunction ((ts ++ us) ++ s.moved s'') v) :
    InFunction (ts ++ s.moved s') v ∨ InFunction (us ++ s'.moved s'') v := by
  rw [moved_append h h'] at hv
  refine Tree.inFunction_append.mp (hv.mono (List.Perm.subset ?_))
  simpa using (List.perm_append_comm_assoc us (s.moved s') (s'.moved s'')).append_left ts

/-- What has come up in no function is in none that is built later. -/
theorem fresh_trans (h : s.hoisted <+: s'.hoisted) (h' : Scoping s' us s'') (hv : Fresh s ts s' v)
    (hlt : v < s'.vars.size) : Fresh s (ts ++ us) s'' v := by
  refine ⟨hv.1, fun hin => ?_⟩
  rcases inFunction_trans h h'.hoisted hin with hin | hin
  · exact hv.2 hin
  · have := h'.le_of_inFunction hin
    omega

theorem trans (h : Scoping s ts s') (h' : Scoping s' us s'') (hx : Extends s.vars s'.vars)
    (hx' : Extends s'.vars s''.vars)
    (hlt : ∀ v : Nat, InFunction (ts ++ s.moved s') v → v < s'.vars.size) :
    Scoping s (ts ++ us) s'' := by
  have hle := hx.size_le
  have hle' := hx'.size_le
  have hmoved := moved_append h.hoisted h'.hoisted
  -- What the first step keeps in functions is not in sight of the second one.
  have hunseen : ∀ v : Nat, InFunction (ts ++ s.moved s') v → IsLocal s''.vars v →
      sums (Shape.mentions v) us = 0 := by
    intro v hv hlocal
    by_contra hne
    have hlow := h.le_of_inFunction hv
    have hhigh := hlt v hv
    rcases h'.mentioned v hlocal (Nat.pos_of_ne_zero hne) with hsees | ⟨hnew, -⟩
    · rcases h.visible v hsees with hsees | ⟨-, hnot⟩
      · have := h.sees_lt v hsees
        omega
      · exact hnot hv
    · omega
  have hbefore : ∀ v : Nat, s'.vars.size ≤ v → IsLocal s''.vars v →
      sums (Shape.mentions v) ts = 0 := by
    intro v hv hlocal
    by_contra hne
    rcases h.mentioned v (hlocal.of_extends hx') (Nat.pos_of_ne_zero hne) with hsees | ⟨-, hold⟩
    · have := h.sees_lt v hsees
      omega
    · omega
  refine
  { sees_lt := h.sees_lt
    sees_lt' := h'.sees_lt'
    hoisted := h.hoisted.trans h'.hoisted
    pending := ?pending
    visible := fun v hv => ?visible
    mentioned := fun v hlocal hv => ?mentioned
    confined := fun f hf v hv => ?confined
    apart := fun t ht f hf v hv => ?apart }
  case pending =>
    obtain ⟨new, hnew, hbare⟩ := h.pending
    obtain ⟨new', hnew', hbare'⟩ := h'.pending
    exact ⟨new ++ new', by rw [hnew', hnew, List.append_assoc],
      List.forall_mem_append.mpr ⟨hbare, hbare'⟩⟩
  case visible =>
    rcases h'.visible v hv with hsees | ⟨hnew, hnot⟩
    · exact (h.visible v hsees).imp_right fun hfresh =>
        fresh_trans h.hoisted h' hfresh (h'.sees_lt v hsees)
    · refine .inr ⟨hle.trans hnew, fun hin => ?_⟩
      rcases inFunction_trans h.hoisted h'.hoisted hin with hin | hin
      · have := hlt v hin
        omega
      · exact hnot hin
  case mentioned =>
    rw [Tree.sums_append] at hv
    by_cases hts : 0 < sums (Shape.mentions v) ts
    · refine (h.mentioned v (hlocal.of_extends hx') hts).imp_right fun ⟨hnew, hlt⟩ => ⟨hnew, by omega⟩
    · rcases h'.mentioned v hlocal (by omega) with hsees | ⟨hnew, hlt⟩
      · have := h'.sees_lt v hsees
        exact (h.visible v hsees).imp_right fun ⟨hnew, _⟩ => ⟨hnew, by omega⟩
      · exact .inr ⟨by omega, hlt⟩
  case confined =>
    rw [Tree.sums_append]
    rcases Tree.hasFunction_append.mp hf with hf | hf
    · obtain ⟨hnew, hmentions⟩ := h.confined f hf v hv
      refine ⟨hnew, fun hlocal => ?_⟩
      rw [hmentions (hlocal.of_extends hx'), hunseen v ⟨f, hf.mono (by simp), hv⟩ hlocal, Nat.add_zero]
    · obtain ⟨hnew, hmentions⟩ := h'.confined f hf v hv
      refine ⟨hle.trans hnew, fun hlocal => ?_⟩
      rw [hmentions hlocal, hbefore v hnew hlocal, Nat.zero_add]
  case apart =>
    rw [Tree.sums_append]
    rw [hmoved] at ht
    rcases List.mem_append.mp ht with ht | ht
    · obtain ⟨hnew, hmentions⟩ := h.apart t ht f hf v hv
      refine ⟨hnew, fun hlocal => ?_⟩
      obtain ⟨htree, hts⟩ := hmentions (hlocal.of_extends hx')
      have hin : InFunction (ts ++ s.moved s') v := ⟨f, hf.mono (by simp [ht]), hv⟩
      exact ⟨htree, by rw [hts, hunseen v hin hlocal]⟩
    · obtain ⟨hnew, hmentions⟩ := h'.apart t ht f hf v hv
      refine ⟨hle.trans hnew, fun hlocal => ?_⟩
      obtain ⟨htree, hus⟩ := hmentions hlocal
      exact ⟨htree, by rw [hus, hbefore v hnew hlocal]⟩

theorem perm (h : Scoping s ts s') (hts : ts.Perm us) : Scoping s us s' :=
  { h with
    visible := fun v hv => (h.visible v hv).imp_right fun ⟨hnew, hnot⟩ =>
      ⟨hnew, fun hin => hnot (hin.mono (hts.symm.append_right _).subset)⟩
    mentioned := fun v hlocal hv => h.mentioned v hlocal (Tree.sums_perm hts ▸ hv)
    confined := fun f hf v hv => by
      rw [← Tree.sums_perm hts]
      exact h.confined f (hf.mono hts.symm.subset) v hv
    apart := fun t ht f hf v hv => by
      rw [← Tree.sums_perm hts]
      exact h.apart t ht f hf v hv }

theorem extend (h : Scoping s ts s') {vars : Array Variable} (hx : Extends s'.vars vars) :
    Scoping s ts { s' with vars } :=
  { h with
    sees_lt' := fun v hv => Nat.lt_of_lt_of_le (h.sees_lt' v hv) hx.size_le
    mentioned := fun v hlocal hv => (h.mentioned v (hlocal.of_extends hx) hv).imp_right
      fun ⟨hnew, hlt⟩ => ⟨hnew, Nat.lt_of_lt_of_le hlt hx.size_le⟩
    confined := fun f hf v hv => (h.confined f hf v hv).imp_right
      fun hmentions hlocal => hmentions (hlocal.of_extends hx)
    apart := fun t ht f hf v hv => (h.apart t ht f hf v hv).imp_right
      fun hmentions hlocal => hmentions (hlocal.of_extends hx) }

/-- Names of frames are exchanged for others that are in sight or fresh. -/
theorem reframe (h : Scoping s ts s') {frames : List Frame}
    (hnames : ∀ frame ∈ frames, ∀ e ∈ frame.names,
      s.Sees e.2 ∨ s'.Sees e.2 ∨ Fresh s ts s' e.2 ∧ e.2 < s'.vars.size)
    (hx : Extends s.vars s'.vars) : Scoping s ts { s' with frames } := by
  have hle := hx.size_le
  refine { h with sees_lt' := ?lt, visible := ?visible }
  case lt =>
    rintro v ⟨frame, hframe, name, hname⟩
    rcases hnames frame hframe _ hname with hsees | hsees | ⟨-, hlt⟩
    · exact Nat.lt_of_lt_of_le (h.sees_lt v hsees) hle
    · exact h.sees_lt' v hsees
    · exact hlt
  case visible =>
    rintro v ⟨frame, hframe, name, hname⟩
    rcases hnames frame hframe _ hname with hsees | hsees | ⟨hfresh, -⟩
    · exact .inl hsees
    · exact h.visible v hsees
    · exact .inr hfresh

/-- **Some of the trees become the children of a node.** It mentions what is in sight. A function is
made of all the trees, and behind it the frames are what they were. -/
theorem node {l : Location} {shape : Shape Tree} (h : Scoping s (shape.children ++ us) s')
    (hnew : ∀ v : Nat, 0 < (Tree.node l shape).sum (Shape.introductions v) → s.vars.size ≤ v)
    (hmention : ∀ v, IsLocal s'.vars v → shape.mention? = some v → s'.Sees v)
    (hfunction : shape.IsFunction → us = [] ∧ s'.frames = s.frames) :
    Scoping s (.node l shape :: us) s' := by
  have hsum : ∀ v, sums (Shape.mentions v) (.node l shape :: us) =
      shape.mentions v + sums (Shape.mentions v) (shape.children ++ us) := by
    intro v
    rw [Tree.sums_cons, Tree.sum_eq, Tree.sums_append, Nat.add_assoc]
    rfl
  have hsplit : ∀ v, InFunction (.node l shape :: us ++ s.moved s') v →
      shape.IsFunction ∨ InFunction (shape.children ++ us ++ s.moved s') v := by
    intro v hv
    rw [List.append_assoc, Tree.inFunction_append]
    rcases Tree.inFunction_append.mp (show InFunction ([.node l shape] ++ (us ++ s.moved s')) v from hv)
      with hv | hv
    · rcases Tree.inFunction_node hv with ⟨hf, -⟩ | hv
      · exact .inl hf
      · exact .inr (.inl hv)
    · exact .inr (.inr hv)
  -- The node itself mentions nothing that belongs to a function below or beside it.
  have hown : ∀ v : Nat, InFunction (shape.children ++ us ++ s.moved s') v → IsLocal s'.vars v →
      shape.mentions v = 0 := by
    intro v hv hlocal
    rw [Shape.mentions, if_neg]
    intro hmentioned
    rcases h.visible v (hmention v hlocal hmentioned) with hsees | ⟨-, hnot⟩
    · have := h.sees_lt v hsees
      have := h.le_of_inFunction hv
      omega
    · exact hnot hv
  refine
  { h with
    visible := fun v hv => ?visible
    mentioned := fun v hlocal hv => ?mentioned
    confined := fun f hf v hv => ?confined
    apart := fun t ht f hf v hv => ?apart }
  case visible =>
    by_cases hf : shape.IsFunction
    · left
      rwa [Building.Sees, ← (hfunction hf).2]
    · refine (h.visible v hv).imp_right fun hfresh => ⟨hfresh.1, fun hin => ?_⟩
      exact hfresh.2 ((hsplit v hin).resolve_left hf)
  case mentioned =>
    rw [hsum] at hv
    by_cases hmentioned : shape.mention? = some v
    · have hsees := hmention v hlocal hmentioned
      have hlt := h.sees_lt' v hsees
      exact (h.visible v hsees).imp_right fun hfresh => ⟨hfresh.1, hlt⟩
    · rw [Shape.mentions, if_neg hmentioned, Nat.zero_add] at hv
      exact h.mentioned v hlocal hv
  case confined =>
    rcases Tree.hasFunction_append.mp (show HasFunction ([.node l shape] ++ us) f from hf) with hf | hf
    · rcases Tree.hasFunction_node.mp hf with ⟨rfl, hshape⟩ | hf
      · obtain ⟨rfl, -⟩ := hfunction hshape
        exact ⟨hnew v hv, fun _ => by rw [Tree.sums_cons, Tree.sums_nil, Nat.add_zero]⟩
      · have hf : HasFunction (shape.children ++ us) f := hf.mono (by simp)
        obtain ⟨hfresh, hmentions⟩ := h.confined f hf v hv
        refine ⟨hfresh, fun hlocal => ?_⟩
        rw [hsum, hown v ⟨f, hf.mono (by simp), hv⟩ hlocal, hmentions hlocal, Nat.zero_add]
    · have hf : HasFunction (shape.children ++ us) f := hf.mono (by simp)
      obtain ⟨hfresh, hmentions⟩ := h.confined f hf v hv
      refine ⟨hfresh, fun hlocal => ?_⟩
      rw [hsum, hown v ⟨f, hf.mono (by simp), hv⟩ hlocal, hmentions hlocal, Nat.zero_add]
  case apart =>
    obtain ⟨hfresh, hmentions⟩ := h.apart t ht f hf v hv
    refine ⟨hfresh, fun hlocal => ?_⟩
    obtain ⟨htree, hnone⟩ := hmentions hlocal
    have hin : InFunction (shape.children ++ us ++ s.moved s') v :=
      ⟨f, hf.mono (by simp [ht]), hv⟩
    exact ⟨htree, by rw [hsum, hown v hin hlocal, hnone]⟩

theorem hoist (h : Scoping s (t :: ts) s') :
    Scoping s ts { s' with hoisted := s'.hoisted ++ [t] } := by
  have hmoved : s.moved { s' with hoisted := s'.hoisted ++ [t] } = s.moved s' ++ [t] := by
    rw [Building.moved, Building.moved, List.drop_append_of_le_length h.hoisted.length_le]
  have hperm : (ts ++ (s.moved s' ++ [t])).Perm (t :: ts ++ s.moved s') := by
    simpa using @List.perm_middle _ t (ts ++ s.moved s') []
  have hsum : ∀ v, sums (Shape.mentions v) (t :: ts) =
      t.sum (Shape.mentions v) + sums (Shape.mentions v) ts := fun _ => Tree.sums_cons t ts
  refine
  { h with
    hoisted := h.hoisted.trans (List.prefix_append _ _)
    visible := fun v hv => ?visible
    mentioned := fun v hlocal hv => h.mentioned v hlocal (by rw [hsum]; omega)
    confined := fun f hf v hv => ?confined
    apart := fun u hu f hf v hv => ?apart }
  case visible =>
    refine (h.visible v hv).imp_right fun ⟨hnew, hnot⟩ => ⟨hnew, fun hin => hnot ?_⟩
    rw [hmoved] at hin
    exact hin.mono hperm.subset
  case confined =>
    obtain ⟨hnew, hmentions⟩ := h.confined f (hf.mono (by simp)) v hv
    refine ⟨hnew, fun hlocal => ?_⟩
    have hall := hmentions hlocal
    have hle := hf.sum_le (g := Shape.mentions v)
    rw [hsum] at hall
    omega
  case apart =>
    rw [hmoved] at hu
    rcases List.mem_append.mp hu with hu | hu
    · obtain ⟨hnew, hmentions⟩ := h.apart u hu f hf v hv
      refine ⟨hnew, fun hlocal => ?_⟩
      obtain ⟨htree, hnone⟩ := hmentions hlocal
      rw [hsum] at hnone
      exact ⟨htree, by omega⟩
    · obtain rfl := List.mem_singleton.mp hu
      obtain ⟨hnew, hmentions⟩ := h.confined f (hf.mono (by simp)) v hv
      refine ⟨hnew, fun hlocal => ?_⟩
      have hall := hmentions hlocal
      have hle := hf.sum_le (g := Shape.mentions v)
      rw [hsum] at hall
      rw [Tree.sums_cons, Tree.sums_nil] at hle
      constructor <;> omega

/-- A mention of a new variable is built, and its declaration is to be put before the statement. -/
theorem declareBefore (h : Scoping s [] s') {access declaration : Tree} (hbare : Bare declaration)
    (haccess : ∀ f, ¬ HasFunction [access] f)
    (hmentions : ∀ w, 0 < access.sum (Shape.mentions w) → Fresh s [] s' w ∧ w < s'.vars.size) :
    Scoping s [access] { s' with pending := s'.pending ++ [declaration] } := by
  have hnone : ∀ v, ¬ InFunction [access] v := by
    rintro v ⟨f, hf, -⟩
    exact haccess f hf
  refine
  { h with
    pending := ?pending
    visible := fun v hv => (h.visible v hv).imp_right fun hout => ⟨hout.1, fun hin => ?visible⟩
    mentioned := fun v _ hv => ?mentioned
    confined := fun f hf => absurd hf (haccess f)
    apart := fun t ht f hf v hv => ?apart }
  case pending =>
    obtain ⟨new, hnew, hbares⟩ := h.pending
    refine ⟨new ++ [declaration], by rw [hnew, List.append_assoc], ?_⟩
    exact List.forall_mem_append.mpr ⟨hbares, fun t ht => List.mem_singleton.mp ht ▸ hbare⟩
  case visible =>
    rcases Tree.inFunction_append.mp hin with hin | hin
    · exact hnone v hin
    · exact hout.2 hin
  case mentioned =>
    rw [Tree.sums_cons, Tree.sums_nil, Nat.add_zero] at hv
    obtain ⟨⟨hnew, -⟩, hlt⟩ := hmentions v hv
    exact .inr ⟨hnew, hlt⟩
  case apart =>
    have ht : t ∈ s.moved s' := ht
    obtain ⟨hnew, htree⟩ := h.apart t ht f hf v hv
    refine ⟨hnew, fun hlocal => ⟨(htree hlocal).1, ?_⟩⟩
    rw [Tree.sums_cons, Tree.sums_nil, Nat.add_zero]
    by_contra hne
    exact (hmentions v (Nat.pos_of_ne_zero hne)).1.2 ⟨f, hf.mono (by simpa using ht), hv⟩

/-- Declarations that were to be put before the statement stand beside the trees. -/
theorem unwait (h : Scoping s ts s') {waiting : List Tree} (hwaiting : ∀ t ∈ waiting, Bare t)
    (pending : List Tree) :
    Scoping { s with pending } (waiting ++ ts) { s' with pending } := by
  have hsums : ∀ v, sums (Shape.mentions v) (waiting ++ ts) = sums (Shape.mentions v) ts := by
    intro v
    rw [Tree.sums_append, mentions_of_bare hwaiting, Nat.zero_add]
  have hfunction : ∀ f, HasFunction (waiting ++ ts) f → HasFunction ts f := fun f hf =>
    (Tree.hasFunction_append.mp hf).resolve_left (not_hasFunction_of_bare hwaiting)
  exact
  { h with
    pending := ⟨[], (List.append_nil _).symm, fun _ ht => nomatch ht⟩
    visible := fun v hv => (h.visible v hv).imp_right fun ⟨hnew, hnot⟩ => ⟨hnew, fun hin => by
      rw [List.append_assoc] at hin
      obtain ⟨f, hf, hpos⟩ := hin
      exact hnot ⟨f, (Tree.hasFunction_append.mp hf).resolve_left (not_hasFunction_of_bare hwaiting),
        hpos⟩⟩
    mentioned := fun v hlocal hv => h.mentioned v hlocal (hsums v ▸ hv)
    confined := fun f hf v hv => by
      rw [hsums]
      exact h.confined f (hfunction f hf) v hv
    apart := fun t ht f hf v hv => by
      rw [hsums]
      exact h.apart t ht f hf v hv }

end Scoping

end ModelLint.Source
