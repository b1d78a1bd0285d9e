import ModelLint.Proofs.Program.Layout
import ModelLint.Proofs.Program.Variables
import ModelLint.Proofs.Source.Occurrences
import ModelLint.Proofs.Source.Scoping
import ModelLint.Program.Query
import ModelLint.Source.Nodes

/-!
# What building keeps

The nodes of a source are built step by step, on a state that holds the variables, the names in
sight and the declarations that are still to be put somewhere. `Built` says what a step makes of the
state: it is an account of the variables. Each variable that comes up is introduced by a node that
is made, by one that is put aside, or is owed; none of them is ever introduced twice.

* `Runs`: what holds when a step succeeds, and why it may fail.
* `Shape.Sound`: a node is well formed and mentions variables of its own name.
* `Building.Valid`: the names in sight are those of variables, and nodes put aside are sound.
* **`Built`**, `Built.refl`, `Built.trans`, `Built.node`: the account of a step, of no step, of two
  steps, and of the node that is made of what they give.
* `heldFor`, `heldResources_cons`: the resources of a `with` statement, one by one.
* `assignedMembers`: what an assignment in the body of a class becomes.
-/

namespace ModelLint.Source

open Build

/-! ## Steps -/

/-- What holds of the result and the state when a step succeeds, and of the cause when it fails. -/
def Runs {α : Type} (build : Build α) (s : Building) (E : BuildFailure → Prop)
    (Q : α → Building → Prop) : Prop :=
  match build s with
  | .ok (a, s') => Q a s'
  | .error e => E e

section Runs

variable {α β : Type} {x : Build α} {f : α → Build β} {s : Building} {E : BuildFailure → Prop}
  {Q Q' : α → Building → Prop} {R : β → Building → Prop}

theorem Runs.bind (hx : Runs x s E Q) (hf : ∀ a s', Q a s' → Runs (f a) s' E R) :
    Runs (x >>= f) s E R := by
  have hbind : (x >>= f) s = (x s).bind fun p => f p.1 p.2 := rfl
  rw [Runs] at hx ⊢
  rw [hbind]
  rcases hxs : x s with e | ⟨a, s'⟩
  · rwa [hxs] at hx
  · rw [hxs] at hx
    exact hf a s' hx

theorem Runs.mono (h : Runs x s E Q) (hQ : ∀ a s', Q a s' → Q' a s') : Runs x s E Q' := by
  rw [Runs] at h ⊢
  rcases hxs : x s with e | ⟨a, s'⟩
  · rwa [hxs] at h
  · rw [hxs] at h
    exact hQ a s' h

theorem Runs.of_ok {a : α} {s' : Building} (h : Runs x s E Q) (hx : x.run s = .ok (a, s')) :
    Q a s' := by
  replace hx : x s = .ok (a, s') := hx
  rwa [Runs, hx] at h

theorem Runs.exists_ok (h : Runs x s (fun _ => False) Q) :
    ∃ a s', x.run s = .ok (a, s') ∧ Q a s' := by
  rw [Runs] at h
  rcases hxs : x s with failure | ⟨a, s'⟩
  · rw [hxs] at h
    exact h.elim
  · rw [hxs] at h
    exact ⟨a, s', hxs, h⟩

theorem Runs.map {g : α → β} (h : Runs x s E fun a s' => R (g a) s') : Runs (g <$> x) s E R := by
  rw [← bind_pure_comp]
  exact h.bind fun a s' ha => ha

theorem runs_pure {a : α} (h : Q a s) : Runs (pure a) s E Q := h

theorem runs_get_bind {f : Building → Build β} (h : Runs (f s) s E R) : Runs (get >>= f) s E R := h

theorem runs_set_bind {t : Building} {f : PUnit → Build β} (h : Runs (f ⟨⟩) t E R) :
    Runs (set t >>= f) s E R := h

theorem runs_modify_bind {g : Building → Building} {f : PUnit → Build β}
    (h : Runs (f ⟨⟩) (g s) E R) : Runs (modify g >>= f) s E R := h

theorem runs_foldlM {f : α → β → Build α} {I : α → List β → Building → Prop} : (xs : List β) →
    (∀ x ∈ xs, ∀ a rest s, I a (x :: rest) s → Runs (f a x) s E fun a' s' => I a' rest s') →
    {a : α} → {s : Building} → I a xs s → Runs (xs.foldlM f a) s E fun a' s' => I a' [] s'
  | [], _, _, _, h => h
  | x :: xs, hstep, a, s, h => by
    rw [List.foldlM_cons]
    exact (hstep x List.mem_cons_self a xs s h).bind fun a' s' h' =>
      runs_foldlM xs (fun y hy => hstep y (List.mem_cons_of_mem x hy)) h'

theorem runs_throw {e : BuildFailure} (h : E e) : Runs (throw e : Build α) s E Q := h

end Runs

/-! ## Variables -/

/-- A variable of the name and of a kind that is asked for is in the table. -/
def Denotes (vars : Array Variable) (P : VariableKind → Prop) (name : String) (v : VariableId) :
    Prop :=
  ∃ var, vars[v]? = some var ∧ var.name = name ∧ P var.kind

/-- All names of a scope denote variables. -/
def NamesDenote (vars : Array Variable) (P : VariableKind → Prop) (names : Names) : Prop :=
  ∀ e ∈ names, Denotes vars P e.1 e.2

section Variables

variable {vars vars' vars'' : Array Variable} {P Q : VariableKind → Prop} {name : String}
  {v : VariableId} {names : Names}

theorem Denotes.extends (h : Denotes vars P name v) (hx : Extends vars vars') :
    Denotes vars' P name v :=
  h.imp fun var hvar => ⟨hx v var hvar.1, hvar.2⟩

theorem Denotes.mono (h : Denotes vars P name v) (hPQ : ∀ k, P k → Q k) : Denotes vars Q name v :=
  h.imp fun _ hvar => ⟨hvar.1, hvar.2.1, hPQ _ hvar.2.2⟩

theorem Denotes.lt_size (h : Denotes vars P name v) : v < vars.size :=
  let ⟨_, hvar, _⟩ := h
  (Array.getElem?_eq_some_iff.mp hvar).1

theorem NamesDenote.extends (h : NamesDenote vars P names) (hx : Extends vars vars') :
    NamesDenote vars' P names :=
  fun e he => (h e he).extends hx

theorem mem_of_lookup (hv : names.lookup name = some v) : (name, v) ∈ names := by
  obtain ⟨l₁, l₂, rfl, -⟩ := List.lookup_eq_some_iff.mp hv
  simp

theorem NamesDenote.lookup (h : NamesDenote vars P names) (hv : names.lookup name = some v) :
    Denotes vars P name v :=
  h (name, v) (mem_of_lookup hv)

end Variables

/-! ## Sound nodes -/

/-- Any kind of variable. -/
def AnyKind (_ : VariableKind) : Prop := True

/-- **A node is sound** over a table of variables: it has the parts that nodes of its kind have, and
the variables that it mentions or introduces are in the table. Names that it mentions and those of
functions are as `nm` asks for. No node is a unit. -/
def Sound (vars : Array Variable) (nm : String → Prop) : Shape Tree → Prop
  | .varAccess name v => nm name ∧ ∃ w, v = some w ∧ Denotes vars AnyKind name w
  | .fieldAccess name qualifier v => nm name ∧
    ∀ w, v = some w → qualifier = none ∧ Denotes vars (· = .field) name w
  | .varDeclaration v _ => HasKind vars (· = .localVar) v
  | .catchClause _ v _ => ∀ w, v = some w → HasKind vars (· = .localVar) w
  | .lambda parameters _ _ => ∀ v ∈ parameters, HasKind vars (· ≠ .field) v
  | .declaration info members initializer body =>
    match info.kind with
    | .type => info.parameters = [] ∧ info.var = none ∧ initializer = none ∧ body = [] ∧
      ∀ m ∈ members, m.shape.isOutermost
    | .method => (∀ v ∈ info.parameters, HasKind vars (· ≠ .field) v) ∧ info.var = none ∧
      initializer = none ∧ members = [] ∧
      (nm info.name ∨ info.name = Graph.moduleBody ∧ info.modifiers = [])
    | .field => info.parameters = [] ∧ members = [] ∧ body = [] ∧
      ∃ w, info.var = some w ∧ Denotes vars (· = .field) info.name w
  | .sourceUnit _ _ => False
  | _ => True

variable {nm : String → Prop}

theorem Sound.extends {vars vars' : Array Variable} {shape : Shape Tree} (h : Sound vars nm shape)
    (hx : Extends vars vars') : Sound vars' nm shape := by
  rcases shape with _ | ⟨⟨_, kind, _, _, _, _, _⟩, _, _, _⟩ | _ | _ | _ | _ | _ | _ | _ | _ | _ | _ |
    _ | _ | _ | _ | _ | _ | _ | _ | _ | _
  case declaration =>
    rcases kind with _ | _ | _
    · exact h
    · exact ⟨fun v hv => (h.1 v hv).extends hx, h.2⟩
    · obtain ⟨hp, hm, hb, w, hw, hdenotes⟩ := h
      exact ⟨hp, hm, hb, w, hw, hdenotes.extends hx⟩
  case catchClause => exact fun w hw => (h w hw).extends hx
  case varDeclaration v _ =>
    have hkind : HasKind vars (· = .localVar) v := h
    exact hkind.extends hx
  case varAccess =>
    obtain ⟨hname, w, hw, hdenotes⟩ := h
    exact ⟨hname, w, hw, hdenotes.extends hx⟩
  case fieldAccess => exact ⟨h.1, fun w hw => ⟨(h.2 w hw).1, (h.2 w hw).2.extends hx⟩⟩
  case lambda => exact fun v hv => (h v hv).extends hx
  all_goals trivial

/-! ## Valid states -/

/-- **A state is valid**: the names in sight are those of variables, and the nodes that were put
aside are sound. -/
structure Building.Valid (nm : String → Prop) (s : Building) : Prop where
  /-- Names bound in open frames. -/
  frames : ∀ f ∈ s.frames, NamesDenote s.vars AnyKind f.names
  /-- Names of the fields of the module. -/
  moduleFields : NamesDenote s.vars (· = .field) s.moduleFields
  /-- Names of the fields of classes. -/
  classFields : ∀ c ∈ s.classFields, NamesDenote s.vars (· = .field) c.2
  /-- Names of the fields of the classes of open methods. -/
  receivers : ∀ r ∈ s.receivers, NamesDenote s.vars (· = .field) r.fields
  /-- Declarations to be put before a statement: each of them introduces a variable. -/
  pending : ∀ t ∈ s.pending, t.All (Sound s.vars nm) ∧ ∃ v, 0 < t.sum (Shape.introductions v)
  /-- Declarations to be put into the module: types and fields. -/
  hoisted : ∀ t ∈ s.hoisted, t.shape.isOutermost ∧ ¬ t.shape.IsFunction ∧ t.All (Sound s.vars nm)

theorem Building.valid_start : Building.start.Valid nm :=
  ⟨List.forall_mem_nil _, List.forall_mem_nil _, List.forall_mem_nil _, List.forall_mem_nil _,
    List.forall_mem_nil _, List.forall_mem_nil _⟩

theorem Building.Valid.extends {s s' : Building} (h : s.Valid nm) (hx : Extends s.vars s'.vars)
    (hframes : ∀ f ∈ s'.frames, NamesDenote s'.vars AnyKind f.names)
    (hmodule : NamesDenote s'.vars (· = .field) s'.moduleFields)
    (hclasses : s'.classFields = s.classFields) (hreceivers : s'.receivers = s.receivers)
    (hpending : s'.pending = s.pending) (hhoisted : s'.hoisted = s.hoisted) : s'.Valid nm where
  frames := hframes
  moduleFields := hmodule
  classFields c hc := (h.classFields c (hclasses ▸ hc)).extends hx
  receivers r hr := (h.receivers r (hreceivers ▸ hr)).extends hx
  pending t ht :=
    let ⟨hsound, hv⟩ := h.pending t (hpending ▸ ht)
    ⟨hsound.mono fun _ hs => hs.extends hx, hv⟩
  hoisted t ht :=
    let ⟨hkind, hfunction, hsound⟩ := h.hoisted t (hhoisted ▸ ht)
    ⟨hkind, hfunction, hsound.mono fun _ hs => hs.extends hx⟩

theorem Building.Valid.openFrame {s : Building} (h : s.Valid nm) {frame : Frame}
    (hframe : NamesDenote s.vars AnyKind frame.names) :
    Building.Valid nm { s with frames := frame :: s.frames } :=
  { h with
    frames := fun f hf => by
      rcases List.mem_cons.mp hf with rfl | hf
      · exact hframe
      · exact h.frames f hf }

theorem Building.Valid.lt_of_sees {s : Building} (h : s.Valid nm) {v : VariableId} (hv : s.Sees v) :
    (v : Nat) < s.vars.size :=
  let ⟨frame, hframe, name, hname⟩ := hv
  (h.frames frame hframe (name, v) hname).lt_size

/-- How often the nodes that were put aside introduce a variable. -/
def Building.aside (s : Building) (v : VariableId) : Nat :=
  Tree.sums (Shape.introductions v) s.pending + Tree.sums (Shape.introductions v) s.hoisted

/-- Whether a variable is there, as a number. -/
def Building.born (s : Building) (v : VariableId) : Nat := ModelLint.born s.vars.size v

/-! ## The account of a step -/

/-- The balance of a step from one state to another that gives some trees and variables that are
still owed a node. If the step is calm, it puts nothing before the statement. -/
structure Balanced (nm : String → Prop) (calm : Prop) (s : Building) (ts : List Tree)
    (owed : List VariableId) (s' : Building) : Prop where
  /-- The table of variables grows. -/
  vars : Extends s.vars s'.vars
  /-- The receivers stay. -/
  receivers : s'.receivers = s.receivers
  /-- The open declarations stay. -/
  qualifiers : s'.qualifiers = s.qualifiers
  /-- As many frames are open. -/
  frames_length : s'.frames.length = s.frames.length
  /-- All frames but the innermost stay. -/
  frames_tail : s'.frames.tail = s.frames.tail
  /-- Fields of the module keep their variables. -/
  fields : ∀ name v, s.moduleFields.lookup name = some v → s'.moduleFields.lookup name = some v
  /-- The state stays valid. -/
  valid : s'.Valid nm
  /-- The trees are sound. -/
  sound : ∀ t ∈ ts, t.All (Sound s'.vars nm)
  /-- Every new variable is introduced by a tree, by a node put aside, or is owed, exactly once. -/
  balance : ∀ v, Tree.sums (Shape.introductions v) ts + owed.count v + s'.aside v + s.born v =
    s.aside v + s'.born v
  /-- A new declaration before the statement is there because the variable is mentioned. -/
  waiting : ∀ v, Tree.sums (Shape.introductions v) s'.pending +
      Tree.sums (Shape.mentions v) s.hoisted ≤
    Tree.sums (Shape.introductions v) s.pending + Tree.sums (Shape.mentions v) ts +
      Tree.sums (Shape.mentions v) s'.hoisted
  /-- No declaration leaves the module. -/
  hoisted : ∀ v, Tree.sums (Shape.mentions v) s.hoisted ≤ Tree.sums (Shape.mentions v) s'.hoisted
  /-- A calm step leaves the declarations before the statement. -/
  quiet : calm → s'.pending = s.pending

/-- **The account of a step**: it is balanced, and local variables stay in their functions. -/
structure Built (nm : String → Prop) (calm : Prop) (s : Building) (ts : List Tree)
    (owed : List VariableId) (s' : Building) : Prop extends Balanced nm calm s ts owed s' where
  /-- Local variables stay in their functions. -/
  scoping : Scoping s ts s'

section Built

variable {calm calm' : Prop} {s s' s'' : Building} {ts us : List Tree}
  {owed owed' : List VariableId} {v : VariableId}

theorem Balanced.trans (h : Balanced nm calm s ts owed s') (h' : Balanced nm calm' s' us owed' s'') :
    Balanced nm (calm ∧ calm') s (ts ++ us) (owed ++ owed') s'' where
  vars := h.vars.trans h'.vars
  receivers := h'.receivers.trans h.receivers
  qualifiers := h'.qualifiers.trans h.qualifiers
  frames_length := h'.frames_length.trans h.frames_length
  frames_tail := h'.frames_tail.trans h.frames_tail
  fields name v hv := h'.fields name v (h.fields name v hv)
  valid := h'.valid
  sound t ht := by
    rcases List.mem_append.mp ht with ht | ht
    · exact (h.sound t ht).mono fun _ hs => hs.extends h'.vars
    · exact h'.sound t ht
  balance v := by
    have := h.balance v
    have := h'.balance v
    rw [Tree.sums_append, List.count_append]
    omega
  waiting v := by
    have := h.waiting v
    have := h'.waiting v
    rw [Tree.sums_append]
    omega
  hoisted v := (h.hoisted v).trans (h'.hoisted v)
  quiet := fun ⟨hc, hc'⟩ => (h'.quiet hc').trans (h.quiet hc)

theorem Balanced.perm (h : Balanced nm calm s ts owed s') (hcalm : calm' → calm) (hts : ts.Perm us)
    (howed : owed.Perm owed') : Balanced nm calm' s us owed' s' :=
  { h with
    sound := fun t ht => h.sound t (hts.mem_iff.mpr ht)
    balance := fun v => by rw [← Tree.sums_perm hts, ← howed.count_eq]; exact h.balance v
    waiting := fun v => by rw [← Tree.sums_perm hts]; exact h.waiting v
    quiet := fun hc => h.quiet (hcalm hc) }

/-- Some of the trees become the children of a node, which introduces some of the variables that are
owed. -/
theorem Balanced.node (h : Balanced nm calm s ts owed s') {l : Location} {shape : Shape Tree}
    (hcalm : calm' → calm) (hts : ts.Perm (shape.children ++ us))
    (howed : owed.Perm (shape.introduced ++ owed')) (hsound : Sound s'.vars nm shape) :
    Balanced nm calm' s (.node l shape :: us) owed' s' :=
  { h with
    sound := fun t ht => by
      rcases List.mem_cons.mp ht with rfl | ht
      · exact Tree.all_iff.mpr
          ⟨hsound, fun c hc => h.sound c (hts.mem_iff.mpr (List.mem_append_left us hc))⟩
      · exact h.sound t (hts.mem_iff.mpr (List.mem_append_right _ ht))
    balance := fun v => by
      have hbalance := h.balance v
      have hcount : owed.count v = shape.introductions v + owed'.count v := by
        rw [howed.count_eq v, List.count_append]
        rfl
      have hsum : (Tree.node l shape).sum (Shape.introductions v) =
          shape.introductions v + Tree.sums (Shape.introductions v) shape.children :=
        Tree.sum_eq _
      rw [Tree.sums_perm hts, Tree.sums_append] at hbalance
      rw [Tree.sums_cons, hsum]
      omega
    waiting := fun v => by
      have hwaiting := h.waiting v
      have hsum : (Tree.node l shape).sum (Shape.mentions v) =
          shape.mentions v + Tree.sums (Shape.mentions v) shape.children := Tree.sum_eq _
      rw [Tree.sums_perm hts, Tree.sums_append] at hwaiting
      rw [Tree.sums_cons, hsum]
      omega
    quiet := fun hc => h.quiet (hcalm hc) }

/-- A frame that was opened for the step is closed again. -/
theorem Balanced.closeFrame {frame : Frame}
    (h : Balanced nm calm { s with frames := frame :: s.frames } ts owed s') :
    Balanced nm calm s ts owed { s' with frames := s'.frames.drop 1 } :=
  have hframes : s'.frames.drop 1 = s.frames := List.drop_one.trans h.frames_tail
  { h with
    frames_length := congrArg List.length hframes
    frames_tail := congrArg List.tail hframes
    valid := { h.valid with frames := fun f hf => h.valid.frames f (List.mem_of_mem_drop hf) } }

namespace Built

theorem refl (hs : s.Valid nm) : Built nm True s [] [] s where
  vars := .refl _
  receivers := rfl
  qualifiers := rfl
  frames_length := rfl
  frames_tail := rfl
  fields _ _ h := h
  valid := hs
  sound _ h := by cases h
  balance v := by simp
  waiting v := by simp
  hoisted v := Nat.le_refl _
  quiet _ := rfl
  scoping := .refl fun _ => hs.lt_of_sees

/-- What is introduced or owed has come up in the step. -/
theorem new (h : Built nm calm s ts owed s')
    (hv : 0 < Tree.sums (Shape.introductions v) (ts ++ s.moved s') + owed.count v) :
    s.vars.size ≤ v ∧ (v : Nat) < s'.vars.size := by
  have hbalance := h.balance v
  have hmoved := h.scoping.sums_hoisted (Shape.introductions v)
  have hpending := h.scoping.sums_pending_le (Shape.introductions v)
  have hle := born_le_one s'.vars.size v
  rw [Tree.sums_append] at hv
  simp only [Building.aside, Building.born] at hbalance
  constructor
  · refine Nat.le_of_not_lt fun hlt => ?_
    rw [born_of_lt hlt] at hbalance
    omega
  · exact lt_of_born_pos (by omega)

/-- What is owed is introduced in no function. -/
theorem fresh (h : Built nm calm s ts owed s') (hv : v ∈ owed) :
    Fresh s ts s' v ∧ (v : Nat) < s'.vars.size := by
  have hcount := List.count_pos_iff.mpr hv
  obtain ⟨hnew, hlt⟩ := h.new (v := v) (by omega)
  refine ⟨⟨hnew, fun hin => ?_⟩, hlt⟩
  have hpos := hin.sums_pos
  have hbalance := h.balance v
  have hmoved := h.scoping.sums_hoisted (Shape.introductions v)
  have hpending := h.scoping.sums_pending_le (Shape.introductions v)
  have hle := born_le_one s'.vars.size v
  rw [Tree.sums_append] at hpos
  simp only [Building.aside, Building.born] at hbalance
  omega

theorem trans (h : Built nm calm s ts owed s') (h' : Built nm calm' s' us owed' s'') :
    Built nm (calm ∧ calm') s (ts ++ us) (owed ++ owed') s'' where
  toBalanced := h.toBalanced.trans h'.toBalanced
  scoping := h.scoping.trans h'.scoping h.vars h'.vars fun v hv =>
    (h.new (v := v) (Nat.lt_add_right _ hv.sums_pos)).2

theorem perm (h : Built nm calm s ts owed s') (hcalm : calm' → calm) (hts : ts.Perm us)
    (howed : owed.Perm owed') : Built nm calm' s us owed' s' :=
  ⟨h.toBalanced.perm hcalm hts howed, h.scoping.perm hts⟩

theorem weaken (h : Built nm calm s ts owed s') (hcalm : calm' → calm) : Built nm calm' s ts owed s' :=
  h.perm hcalm (.refl _) (.refl _)

/-- Some of the trees become the children of a node, which introduces some of the variables that are
owed. A variable that it mentions is in sight unless it is a field. A function is made of all trees,
and behind it the frames are what they were. -/
theorem node (h : Built nm calm s ts owed s') {l : Location} {shape : Shape Tree}
    (hcalm : calm' → calm) (hts : ts.Perm (shape.children ++ us))
    (howed : owed.Perm (shape.introduced ++ owed')) (hsound : Sound s'.vars nm shape)
    (hmention : ∀ v, IsLocal s'.vars v → shape.mention? = some v → s'.Sees v)
    (hfunction : shape.IsFunction → us = [] ∧ s'.frames = s.frames) :
    Built nm calm' s (.node l shape :: us) owed' s' := by
  refine ⟨h.toBalanced.node hcalm hts howed hsound, (h.scoping.perm hts).node (fun v hv => ?_)
    hmention hfunction⟩
  have hcount : owed.count v = shape.introductions v + owed'.count v := by
    rw [howed.count_eq v, List.count_append]
    rfl
  rw [Tree.sum_eq, Tree.shape, Tree.children_node] at hv
  refine (h.new (v := v) ?_).1
  rw [Tree.sums_append, Tree.sums_perm hts, Tree.sums_append]
  omega

theorem frames_eq_nil (h : Built nm calm s ts owed s') : s'.frames = [] ↔ s.frames = [] := by
  rw [← List.length_eq_zero_iff, h.frames_length, List.length_eq_zero_iff]

/-- Frames with other names in the innermost one. They are those of variables that were or are in
sight, or that are owed. -/
theorem reframe (h : Built nm calm s ts owed s') {frames : List Frame}
    (hlength : frames.length = s'.frames.length) (htail : frames.tail = s'.frames.tail)
    (hframes : ∀ f ∈ frames, NamesDenote s'.vars AnyKind f.names)
    (hnames : ∀ f ∈ frames, ∀ e ∈ f.names, s.Sees e.2 ∨ s'.Sees e.2 ∨ e.2 ∈ owed) :
    Built nm calm s ts owed { s' with frames } :=
  { h with
    frames_length := hlength.trans h.frames_length
    frames_tail := htail.trans h.frames_tail
    valid := h.valid.extends (.refl _) hframes h.valid.moduleFields rfl rfl rfl rfl
    balance := h.balance
    scoping := h.scoping.reframe (fun f hf e he => (hnames f hf e he).imp_right fun hor =>
      hor.imp_right h.fresh) h.vars }

theorem addModuleField (h : Built nm calm s ts owed s') {name : String} {v : VariableId}
    (hnone : s'.moduleFields.lookup name = none) (hv : Denotes s'.vars (· = .field) name v) :
    Built nm calm s ts owed { s' with moduleFields := (name, v) :: s'.moduleFields } :=
  { h with
    fields := fun n w hw => by
      have hw' := h.fields n w hw
      have hne : n ≠ name := fun heq => by rw [heq, hnone] at hw'; cases hw'
      rw [List.lookup_cons, beq_eq_false_iff_ne.mpr hne]
      exact hw'
    valid := h.valid.extends (.refl _) h.valid.frames (fun e he => by
      rcases List.mem_cons.mp he with rfl | he
      · exact hv
      · exact h.valid.moduleFields e he) rfl rfl rfl rfl
    balance := h.balance
    scoping := { h.scoping with } }

theorem hoist {t : Tree} (h : Built nm calm s (t :: ts) owed s') (ht : t.shape.isOutermost)
    (hfunction : ¬ t.shape.IsFunction) :
    Built nm calm s ts owed { s' with hoisted := s'.hoisted ++ [t] } :=
  { h with
    valid := { h.valid with
      hoisted := fun u hu => by
        rcases List.mem_append.mp hu with hu | hu
        · exact h.valid.hoisted u hu
        · obtain rfl := List.mem_singleton.mp hu
          exact ⟨ht, hfunction, h.sound u List.mem_cons_self⟩ }
    sound := fun u hu => h.sound u (List.mem_cons_of_mem t hu)
    balance := fun v => by
      have := h.balance v
      simp only [Building.aside, Building.born, Tree.sums_cons, Tree.sums_append,
        Tree.sums_nil] at this ⊢
      omega
    waiting := fun v => by
      have := h.waiting v
      simp only [Tree.sums_cons, Tree.sums_append, Tree.sums_nil] at this ⊢
      omega
    hoisted := fun v => by
      have := h.hoisted v
      simp only [Tree.sums_append]
      omega
    scoping := h.scoping.hoist }

theorem fieldNode (h : Built nm calm s ts owed s') {l : Location} {qualifiedName name : String}
    {modifiers : List String} {initializer : Option Tree} (hts : ts.Perm (initializer.toList ++ us))
    (howed : owed.Perm (v :: owed')) (hv : Denotes s'.vars (· = .field) name v) :
    Built nm calm s (Build.fieldNode l qualifiedName modifiers name v initializer :: us) owed' s' :=
  h.node id (by simpa [Shape.children, Shape.slots] using hts) howed
    ⟨rfl, rfl, rfl, v, rfl, hv⟩ (by simp [Shape.mention?]) (by simp [Shape.IsFunction])

/-- A local variable whose declaration is put before the statement, where it is mentioned. -/
theorem declareBefore (h : Built nm calm s [] [v] s') {r : Range} {name : String}
    (hname : nm name) (hv : Denotes s'.vars (· = .localVar) name v) :
    Built nm False s [nodeAt r (.varAccess name (some v))] []
      { s' with pending := s'.pending ++ [nodeAt r (.varDeclaration v none)] } := by
  have haccess : ∀ w, (nodeAt r (.varAccess name (some v))).sum (Shape.introductions w) = 0 ∧
      (nodeAt r (.varAccess name (some v))).sum (Shape.mentions w) = [v].count w := fun w => by
    rw [Tree.sum_eq, Tree.sum_eq]
    simp [nodeAt, Tree.shape, Tree.children, Shape.children, Shape.slots, Shape.introductions,
      Shape.introduced, Shape.mentions, Shape.mention?, List.count_singleton]
  have hdeclaration : ∀ w, (nodeAt r (.varDeclaration v none)).sum (Shape.introductions w) =
      [v].count w := fun w => by
    rw [Tree.sum_eq]
    simp [nodeAt, Tree.shape, Tree.children, Shape.children, Shape.slots, Shape.introductions,
      Shape.introduced]
  exact
  { h with
    valid := { h.valid with
      pending := fun t ht => by
        rcases List.mem_append.mp ht with ht | ht
        · exact h.valid.pending t ht
        · obtain rfl := List.mem_singleton.mp ht
          obtain ⟨var, hvar, -, hkind⟩ := hv
          refine ⟨Tree.all_iff.mpr ⟨⟨var, hvar, hkind⟩, fun c hc => by cases hc⟩, v, ?_⟩
          rw [hdeclaration, List.count_singleton_self]
          exact Nat.one_pos }
    sound := fun t ht => by
      obtain rfl := List.mem_singleton.mp ht
      exact Tree.all_iff.mpr ⟨⟨hname, v, rfl, hv.mono fun _ _ => trivial⟩, fun c hc => by cases hc⟩
    balance := fun w => by
      have := h.balance w
      simp only [Building.aside, Building.born, Tree.sums_cons, Tree.sums_append, Tree.sums_nil,
        haccess, hdeclaration, List.count_nil] at this ⊢
      omega
    waiting := fun w => by
      have := h.waiting w
      simp only [Tree.sums_cons, Tree.sums_append, Tree.sums_nil, haccess, hdeclaration] at this ⊢
      omega
    quiet := fun hc => hc.elim
    scoping := h.scoping.declareBefore ⟨_, v, rfl⟩
      (fun f hf => (Tree.hasFunction_node.mp hf).elim (fun h => h.2) Tree.hasFunction_nil)
      fun w hw => h.fresh (by
        rw [(haccess w).2] at hw
        exact List.count_pos_iff.mp hw) }

/-- Behind a statement the declarations that were to be put before it stand there. -/
theorem restore (hs : s.Valid nm) (h : Built nm calm { s with pending := [] } ts owed s') :
    Built nm True s (s'.pending ++ ts) owed { s' with pending := s.pending } :=
  { h with
    valid := { h.valid with
      pending := fun t ht =>
        let ⟨hsound, hv⟩ := hs.pending t ht
        ⟨hsound.mono fun _ hsound => hsound.extends h.vars, hv⟩ }
    sound := fun t ht => by
      rcases List.mem_append.mp ht with ht | ht
      · exact (h.valid.pending t ht).1
      · exact h.sound t ht
    balance := fun v => by
      have := h.balance v
      simp only [Building.aside, Building.born, Tree.sums_append, Tree.sums_nil] at this ⊢
      omega
    waiting := fun v => by
      have := h.hoisted v
      simp only [Tree.sums_append] at this ⊢
      omega
    quiet := fun _ => rfl
    scoping := h.scoping.unwait (h.scoping.bare_of_pending rfl) s.pending }

theorem flush (h : Built nm calm s ts owed s') (hs : s.pending = []) :
    Built nm True s (ts ++ s'.pending) owed { s' with pending := [] } :=
  { h with
    valid := { h.valid with pending := fun t ht => nomatch ht }
    sound := fun t ht => by
      rcases List.mem_append.mp ht with ht | ht
      · exact h.sound t ht
      · exact (h.valid.pending t ht).1
    balance := fun v => by
      have := h.balance v
      simp only [Building.aside, Building.born, Tree.sums_append, Tree.sums_nil] at this ⊢
      omega
    waiting := fun v => by
      have := h.hoisted v
      simp only [Tree.sums_append, Tree.sums_nil]
      omega
    quiet := fun _ => hs.symm
    scoping := by
      have hscoping : Scoping s (ts ++ s'.pending) { s' with pending := s.pending } :=
        (h.scoping.unwait (h.scoping.bare_of_pending hs) s.pending).perm List.perm_append_comm
      rwa [hs] at hscoping }

/-- A step in a frame of its own. The names of the frame are those of variables that are owed, or
that have come up in no function. -/
theorem inFrame (h : Built nm calm s ts owed s') {frame : Frame}
    (hnames : ∀ e ∈ frame.names, Fresh s ts s' e.2 ∧ (e.2 : Nat) < s'.vars.size)
    (h' : Built nm calm' { s' with frames := frame :: s'.frames } us owed' s'') :
    Scoping s (ts ++ us) s'' ∧ Built nm (calm ∧ calm') s (ts ++ us) (owed ++ owed')
      { s'' with frames := s''.frames.drop 1 } := by
  have hopened : Scoping s ts { s' with frames := frame :: s'.frames } := by
    refine h.scoping.reframe (fun f hf e he => ?_) h.vars
    rcases List.mem_cons.mp hf with rfl | hf
    · exact .inr (.inr (hnames e he))
    · exact .inr (.inl ⟨f, hf, e.1, he⟩)
  have hboth := hopened.trans h'.scoping h.vars h'.vars fun v hv =>
    (h.new (v := v) (Nat.lt_add_right _ hv.sums_pos)).2
  refine ⟨hboth, h.toBalanced.trans h'.toBalanced.closeFrame, hboth.reframe (fun f hf e he => ?_)
    (h.vars.trans h'.vars)⟩
  exact .inr (.inl ⟨f, List.mem_of_mem_drop hf, e.1, he⟩)

/-- The step may be taken with one more receiver. -/
theorem openReceiver (h : Built nm calm s ts owed s') (receiver : Receiver)
    (hreceiver : NamesDenote s'.vars (· = .field) receiver.fields) :
    Built nm calm { s with receivers := receiver :: s.receivers } ts owed
      { s' with receivers := receiver :: s'.receivers } :=
  { h with
    receivers := congrArg (List.cons receiver) h.receivers
    valid := { h.valid with
      receivers := fun r hr => by
        rcases List.mem_cons.mp hr with rfl | hr
        · exact hreceiver
        · exact h.valid.receivers r hr }
    scoping := { h.scoping with } }

/-- A receiver that was known for the step is dropped again. -/
theorem closeReceiver {receiver : Receiver}
    (h : Built nm calm { s with receivers := receiver :: s.receivers } ts owed s') :
    Built nm calm s ts owed { s' with receivers := s'.receivers.drop 1 } :=
  { h with
    receivers := by rw [h.receivers]; rfl
    valid := { h.valid with
      receivers := fun r hr => h.valid.receivers r (List.mem_of_mem_drop hr) }
    scoping := { h.scoping with } }

theorem openQualifier (h : Built nm calm s ts owed s') (name : String) :
    Built nm calm { s with qualifiers := name :: s.qualifiers } ts owed
      { s' with qualifiers := name :: s'.qualifiers } :=
  { h with
    qualifiers := congrArg (List.cons name) h.qualifiers
    valid := { h.valid with }
    scoping := { h.scoping with } }

theorem closeQualifier {name : String}
    (h : Built nm calm { s with qualifiers := name :: s.qualifiers } ts owed s') :
    Built nm calm s ts owed { s' with qualifiers := s'.qualifiers.drop 1 } :=
  { h with
    qualifiers := by rw [h.qualifiers]; rfl
    valid := { h.valid with }
    scoping := { h.scoping with } }

end Built

end Built

/-! ## Nesting -/

section Nesting

variable {α : Type} {x : Build α} {s : Building} {E : BuildFailure → Prop}
  {Q : α → Building → Prop}

theorem runs_withFrame {frame : Frame}
    (h : Runs x { s with frames := frame :: s.frames } E fun a s' =>
      Q a { s' with frames := s'.frames.drop 1 }) : Runs (withFrame frame x) s E Q :=
  runs_modify_bind (h.bind fun _ _ ha => runs_modify_bind ha)

theorem runs_withQualifier {name : String}
    (h : Runs x { s with qualifiers := name :: s.qualifiers } E fun a s' =>
      Q a { s' with qualifiers := s'.qualifiers.drop 1 }) : Runs (withQualifier name x) s E Q :=
  runs_modify_bind (h.bind fun _ _ ha => runs_modify_bind ha)

theorem runs_withReceiver_some {receiver : Receiver}
    (h : Runs x { s with receivers := receiver :: s.receivers } E fun a s' =>
      Q a { s' with receivers := s'.receivers.drop 1 }) :
    Runs (withReceiver (some receiver) x) s E Q :=
  runs_modify_bind (h.bind fun _ _ ha => runs_modify_bind ha)

theorem runs_collectPending {Q : List Tree × α → Building → Prop}
    (h : Runs x { s with pending := [] } E fun a s' =>
      Q (s'.pending, a) { s' with pending := s.pending }) : Runs (collectPending x) s E Q :=
  runs_get_bind (runs_modify_bind (h.bind fun _ _ ha => runs_get_bind (runs_modify_bind ha)))

end Nesting

/-! ## Single steps -/

section Steps

variable {s : Building} {E : BuildFailure → Prop} {name : String} {v : VariableId}

theorem runs_newVariable (hs : s.Valid nm) {type : Option String} {kind : VariableKind}
    {isStatic : Bool} :
    Runs (newVariable name type kind isStatic) s E fun v s' =>
      Built nm True s [] [v] s' ∧ Denotes s'.vars (· = kind) name v ∧
        s'.moduleFields = s.moduleFields ∧ s'.frames = s.frames := by
  refine ⟨?_, ⟨_, Array.getElem?_push_size, rfl, rfl⟩, rfl, rfl⟩
  have hx := extends_push s.vars { name, typeName := type, kind, isStatic, scope := none }
  exact
  { Built.refl hs with
    vars := hx
    valid := hs.extends hx (fun f hf => (hs.frames f hf).extends hx) (hs.moduleFields.extends hx)
      rfl rfl rfl rfl
    sound := fun t ht => nomatch ht
    balance := fun w => by
      have := count_singleton_add_born s.vars.size w
      simp only [Building.aside, Building.born, Array.size_push, Tree.sums_nil]
      omega
    waiting := fun w => by simp
    hoisted := fun w => Nat.le_refl _
    scoping := (Built.refl hs).scoping.extend hx }

theorem runs_newLocal (hs : s.Valid nm) {type : Option String} :
    Runs (newLocal name type) s E fun v s' =>
      Built nm True s [] [v] s' ∧ Denotes s'.vars (· = .localVar) name v :=
  (runs_newVariable hs).mono fun _ _ h => ⟨h.1, h.2.1⟩

/-- The innermost frame is changed; it takes an open frame. Its names are those of variables that
are or were in sight, or that are owed. -/
theorem runs_modifyFrame {s₀ : Building} {calm : Prop} {ts : List Tree} {owed : List VariableId}
    (h : Built nm calm s₀ ts owed s) {f : Frame → Frame} (hE : s.frames = [] → E .noFrame)
    (hf : ∀ frame ∈ s.frames, ∀ e ∈ (f frame).names, Denotes s.vars AnyKind e.1 e.2 ∧
      (s₀.Sees e.2 ∨ s.Sees e.2 ∨ e.2 ∈ owed)) :
    Runs (modifyFrame f) s E fun _ s' => Built nm calm s₀ ts owed s' ∧ s'.vars = s.vars := by
  refine runs_get_bind ?_
  rcases hframes : s.frames with _ | ⟨frame, outer⟩
  · exact runs_throw (hE hframes)
  · have hnames : ∀ g ∈ f frame :: outer, ∀ e ∈ g.names, Denotes s.vars AnyKind e.1 e.2 ∧
        (s₀.Sees e.2 ∨ s.Sees e.2 ∨ e.2 ∈ owed) := by
      intro g hg e he
      rcases List.mem_cons.mp hg with rfl | hg
      · exact hf frame (by rw [hframes]; exact List.mem_cons_self) e he
      · have hmem : g ∈ s.frames := by
          rw [hframes]
          exact List.mem_cons_of_mem _ hg
        exact ⟨h.valid.frames g hmem e he, .inr (.inl ⟨g, hmem, e.1, he⟩)⟩
    refine runs_modify_bind (f := pure) ⟨?_, rfl⟩
    exact h.reframe (by rw [hframes]; rfl) (by rw [hframes]; rfl)
      (fun g hg e he => (hnames g hg e he).1) fun g hg e he => (hnames g hg e he).2

theorem runs_bindName {s₀ : Building} {calm : Prop} {ts : List Tree} {owed : List VariableId}
    (h : Built nm calm s₀ ts owed s) (hE : s.frames = [] → E .noFrame) (howed : v ∈ owed)
    (hv : Denotes s.vars AnyKind name v) :
    Runs (bindName name v) s E fun _ s' => Built nm calm s₀ ts owed s' ∧ s'.vars = s.vars := by
  refine runs_modifyFrame h hE fun frame hframe e he => ?_
  rcases List.mem_cons.mp he with rfl | he
  · exact ⟨hv, .inr (.inr howed)⟩
  · exact ⟨h.valid.frames frame hframe e he, .inr (.inl ⟨frame, hframe, e.1, he⟩)⟩

theorem runs_bindLocal_bind (hs : s.Valid nm) {α : Type} {type : Option String}
    {f : VariableId → Build α} {R : α → Building → Prop} (hE : s.frames = [] → E .noFrame)
    (hf : ∀ v s', Built nm True s [] [v] s' → Denotes s'.vars (· = .localVar) name v →
      Runs (f v) s' E R) :
    Runs (do let v ← newLocal name type; bindName name v; f v) s E R := by
  refine (runs_newLocal hs).bind fun v s₁ ⟨h₁, hv⟩ => ?_
  refine (runs_bindName h₁ (fun h => hE (h₁.frames_eq_nil.mp h)) List.mem_cons_self
    (hv.mono fun _ _ => trivial)).bind fun _ s₂ ⟨h₂, hvars⟩ => ?_
  exact hf v s₂ h₂ (hvars ▸ hv)

/-- What a mention of a name means: a variable of the name, which is in sight unless it is a field. -/
def Building.Means (s : Building) (name : String) (v : VariableId) : Prop :=
  Denotes s.vars AnyKind name v ∧ (IsLocal s.vars v → s.Sees v)

theorem Denotes.means (h : Denotes s.vars (· = .field) name v) : s.Means name v :=
  ⟨h.mono fun _ _ => trivial, fun hlocal => absurd (h.imp fun _ hvar => ⟨hvar.1, hvar.2.2⟩) hlocal⟩

theorem means_of_frames (hs : s.Valid nm) {frames : List Frame} (hframes : frames ⊆ s.frames)
    (hv : frames.findSome? (fun frame => frame.names.lookup name) = some v) : s.Means name v := by
  obtain ⟨frame, hframe, hlookup⟩ := List.exists_of_findSome?_eq_some hv
  exact ⟨(hs.frames frame (hframes hframe)).lookup hlookup,
    fun _ => ⟨frame, hframes hframe, name, mem_of_lookup hlookup⟩⟩

theorem runs_lookup? (hs : s.Valid nm) :
    Runs (lookup? name) s E fun r s' => s' = s ∧
      ∀ v, r = some v → s.Means name v := by
  refine ⟨rfl, fun v hv => ?_⟩
  rcases Option.or_eq_some_iff.mp hv with hv | ⟨-, hv⟩
  · exact means_of_frames hs (fun _ h => h) hv
  · exact (hs.moduleFields.lookup hv).means

theorem runs_globalField (hs : s.Valid nm) {modifiers : List String} :
    Runs (globalField name modifiers) s E fun v s' =>
      Built nm True s [] [] s' ∧ Denotes s'.vars (· = .field) name v := by
  refine runs_get_bind ?_
  rcases hlookup : s.moduleFields.lookup name with _ | v
  · refine (runs_newVariable hs).bind fun v s₁ ⟨h₁, hv, hfields, _⟩ => ?_
    refine runs_get_bind (runs_modify_bind ?_)
    have hfield := h₁.addModuleField (hfields ▸ hlookup) hv
    exact runs_pure ⟨(hfield.fieldNode (.refl _) (.refl _) hv).hoist rfl (fun h => nomatch h), hv⟩
  · exact runs_pure ⟨.refl hs, hs.moduleFields.lookup hlookup⟩

theorem runs_binding? (hs : s.Valid nm) :
    Runs (binding? name) s E fun r s' => Built nm True s [] [] s' ∧
      ∀ v, r = some v → s'.Means name v := by
  refine runs_get_bind ?_
  have hmodule : ∀ v, s.moduleFields.lookup name = some v → s.Means name v :=
    fun v hv => (hs.moduleFields.lookup hv).means
  rcases hframes : s.frames with _ | ⟨frame, outer⟩
  · exact runs_pure ⟨.refl hs, hmodule⟩
  · simp only []
    rcases hlookup : frame.names.lookup name with _ | v
    · simp only []
      split
      · refine Runs.map ((runs_globalField hs).mono fun v s' ⟨h, hv⟩ => ⟨h, fun w hw => ?_⟩)
        cases hw
        exact hv.means
      · split
        · exact runs_pure ⟨.refl hs, hmodule⟩
        · split
          · refine runs_pure ⟨.refl hs, fun v hv => means_of_frames hs (fun f hf => ?_) hv⟩
            exact hframes ▸ List.mem_cons_of_mem _ hf
          · exact runs_pure ⟨.refl hs, fun v hv => nomatch hv⟩
    · refine runs_pure ⟨.refl hs, fun w hw => ?_⟩
      cases hw
      have hinnermost : [frame] ⊆ s.frames := fun f hf => by
        cases List.mem_singleton.mp hf
        exact hframes ▸ List.mem_cons_self
      exact means_of_frames hs hinnermost (by simp [hlookup])

theorem runs_isReceiver {e : Expr} : Runs (isReceiver e) s E fun _ s' => s' = s := by
  refine runs_get_bind ?_
  split <;> exact runs_pure rfl

theorem runs_receiverField? (hs : s.Valid nm) :
    Runs (receiverField? name) s E fun r s' => s' = s ∧
      ∀ v, r = some v → Denotes s.vars (· = .field) name v := by
  refine ⟨rfl, fun v hv => ?_⟩
  obtain ⟨receiver, hreceiver, hlookup⟩ := Option.bind_eq_some_iff.mp hv
  exact (hs.receivers receiver (List.mem_of_head? hreceiver)).lookup hlookup

theorem runs_qualified : Runs (qualified name) s E fun _ s' => s' = s := rfl

theorem runs_typeOf? : Runs (typeOf? v) s E fun _ s' => s' = s := rfl

end Steps

/-! ## Resources -/

/-- The node of a resource. -/
def Held.node : Held → Tree
  | .lock target => target
  | .resource node => node

/-- How a resource is held, once its node is built. -/
def heldFor (patterns : List String) (context : Expr) (node : Tree) : Option Expr → Build Held
  | none => do
    if ← isLock patterns context node then return .lock node else return .resource node
  | some (.name r id) => do
    match ← binding? id with
    | none =>
      let v ← newLocal id context.likelyType
      bindName id v
      return .resource (nodeAt context.range (.varDeclaration v (some node)))
    | some _ =>
      return .resource (nodeAt context.range (.assignment "=" (← targetName r id) node))
  | some target => do
    return .resource (nodeAt context.range (.assignment "=" (← targetNode target) node))

theorem heldResources_cons {patterns : List String} (context : Expr) (target : Option Expr)
    (rest : List Resource) : heldResources patterns (⟨context, target⟩ :: rest) = do
      let node ← exprNode context
      let held ← heldFor patterns context node target
      return held :: (← heldResources patterns rest) := by
  rw [heldResources]
  refine bind_congr fun node => ?_
  rcases target with _ | target
  · simp only [heldFor, bind_assoc]
    refine bind_congr fun b => ?_
    cases b <;> simp
  · cases target with
    | name r id =>
      simp only [heldFor, bind_assoc]
      refine bind_congr fun v => ?_
      cases v <;> simp [targetNode]
    | _ => simp [heldFor]

/-! ## Assignments in classes -/

section Members

variable (locks : List String) (c : OpenClass) (emitted : List String) (r : Range)

/-- The fields of an assignment in a class, with an initializer that is built first, and then the other
members. -/
def assignedMembers (initializer : Build (Option Tree)) (names : List String) (rest : List Stmt) :
    Build (List Tree) := do
  let initializer ← initializer
  let fields ← assignedFields c r emitted initializer names
  return fields.1 ++ (← memberNodes locks c fields.2 rest)

/-- The value is the initializer if a single name is assigned for the first time. -/
theorem memberNodes_assign (targets : List Expr) (value : Expr) (rest : List Stmt) :
    ∃ x, memberNodes locks c emitted (.assign r targets value :: rest) =
        assignedMembers locks c emitted r x (Expr.boundNamesOf targets) rest ∧
      (x = pure none ∨ x = some <$> exprNode value ∧
        ∃ tr id, targets = [.name tr id] ∧ emitted.contains id = false) := by
  by_cases hname : ∃ tr id, targets = [Expr.name tr id]
  · obtain ⟨tr, id, rfl⟩ := hname
    rw [memberNodes]
    by_cases hemitted : emitted.contains id
    · rw [if_pos hemitted]
      exact ⟨_, rfl, .inl rfl⟩
    · rw [if_neg hemitted]
      exact ⟨_, rfl, .inr ⟨rfl, tr, id, rfl, Bool.not_eq_true _ ▸ hemitted⟩⟩
  · rw [memberNodes]
    · exact ⟨_, rfl, .inl rfl⟩
    · exact fun tr id htargets => hname ⟨tr, id, htargets⟩

theorem memberNodes_annotate (target typeHint : Expr) (value : Option Expr) (rest : List Stmt) :
    ∃ x, memberNodes locks c emitted (.annotate r target typeHint value :: rest) =
        assignedMembers locks c emitted r x target.boundNames rest ∧
      (x = pure none ∨ ∃ e, value = some e ∧ x = some <$> exprNode e ∧
        ∃ tr id, target = .name tr id ∧ emitted.contains id = false) := by
  by_cases hname : ∃ tr id e, target = Expr.name tr id ∧ value = some e
  · obtain ⟨tr, id, e, rfl, rfl⟩ := hname
    rw [memberNodes]
    by_cases hemitted : emitted.contains id
    · rw [if_pos hemitted]
      exact ⟨_, rfl, .inl rfl⟩
    · rw [if_neg hemitted]
      exact ⟨_, rfl, .inr ⟨e, rfl, rfl, tr, id, rfl, Bool.not_eq_true _ ▸ hemitted⟩⟩
  · rw [memberNodes]
    · exact ⟨_, rfl, .inl rfl⟩
    · exact fun tr id e htarget hvalue => hname ⟨tr, id, e, htarget, hvalue⟩

end Members

end ModelLint.Source
