import ModelLint.Document.Load
import ModelLint.Proofs.Program.Functions
import ModelLint.Proofs.Program.Variables

/-!
# What converting a document keeps

The nodes of a document are converted one after the other, on a state that holds the variables and
the scopes. `Built` is an account of what a step makes of the state: each variable that comes up is
introduced by a node that is made, or is owed; what is mentioned was visible before or has come up
since; and what is visible afterwards was not introduced in a function, since the scopes that a
function opens are closed behind it.

* `Runs`: what holds when a step succeeds; if it fails, one of the checks of documents has failed.
* `Visible`, `Valid`: the variables that a name may resolve to, and that they are in the table.
* **`Built`**, `Built.refl`, `Built.trans`, `Built.node`: the account of a step, of no step, of two
  steps, and of the node that is made of what they give.
* `Built.inScope`, `Built.declared`, `Built.typed`: a scope is opened and closed, a variable comes in
  sight, the fields of a type come in sight.
-/

namespace ModelLint.Document

open Tree (sums Confined InFunction)

/-! ## Steps -/

/-- A check of documents. They are never found to be nested more deeply than they are, nor is a
variable declared outside of all scopes. -/
def Reason.IsCheck : Reason → Prop
  | .nesting => False
  | .noScope _ => False
  | _ => True

/-- A document is rejected by a check, not by linking. -/
def LoadError.IsCheck : LoadError → Prop
  | .at _ _ reason => reason.IsCheck
  | .link _ _ => False
  | _ => True

/-- What holds of the result and the state when a step succeeds; it fails by a check only. -/
def Runs {α : Type} (x : Load α) (r : Surroundings) (s : Progress) (Q : α → Progress → Prop) : Prop :=
  match x r s with
  | .ok (a, s') => Q a s'
  | .error e => e.IsCheck

/-- A step that leaves the state as it is. -/
abbrev Reads {α : Type} (x : Load α) (r : Surroundings) (s : Progress) (P : α → Prop) : Prop :=
  Runs x r s fun a s' => s' = s ∧ P a

section Runs

variable {α β : Type} {x : Load α} {f : α → Load β} {r : Surroundings} {s : Progress}
  {Q Q' : α → Progress → Prop} {R : β → Progress → Prop} {P P' : α → Prop}

theorem Runs.bind (hx : Runs x r s Q) (hf : ∀ a s', Q a s' → Runs (f a) r s' R) :
    Runs (x >>= f) r s R := by
  have hbind : (x >>= f) r s = (x r s).bind fun p => f p.1 r p.2 := rfl
  rw [Runs] at hx ⊢
  rw [hbind]
  rcases hxs : x r s with e | ⟨a, s'⟩
  · rwa [hxs] at hx
  · rw [hxs] at hx
    exact hf a s' hx

theorem Runs.mono (h : Runs x r s Q) (hQ : ∀ a s', Q a s' → Q' a s') : Runs x r s Q' := by
  rw [Runs] at h ⊢
  rcases hxs : x r s with e | ⟨a, s'⟩
  · rwa [hxs] at h
  · rw [hxs] at h
    exact hQ a s' h

theorem Reads.bind (hx : Reads x r s P) (hf : ∀ a, P a → Runs (f a) r s R) :
    Runs (x >>= f) r s R := by
  apply Runs.bind hx
  rintro a s' ⟨rfl, ha⟩
  exact hf a ha

theorem Reads.mono (h : Reads x r s P) (hP : ∀ a, P a → P' a) : Reads x r s P' :=
  Runs.mono h fun a _ ha => ⟨ha.1, hP a ha.2⟩

theorem runs_pure {a : α} (h : Q a s) : Runs (pure a) r s Q := h

theorem reads_pure {a : α} (h : P a) : Reads (pure a) r s P := ⟨rfl, h⟩

theorem isCheck_rejection {path : Path} {fields : Fields} {reason : Reason} (h : reason.IsCheck) :
    (rejection path fields reason).IsCheck := by
  rw [rejection]
  split
  · exact h
  · split
    · exact h
    · exact trivial

theorem runs_reject {fields : Fields} {reason : Reason} (h : reason.IsCheck) :
    Runs (reject fields reason : Load α) r s Q := isCheck_rejection h

theorem runs_get_bind {f : Progress → Load β} (h : Runs (f s) r s R) : Runs (get >>= f) r s R := h

theorem runs_set {t : Progress} {Q : PUnit → Progress → Prop} (h : Q ⟨⟩ t) : Runs (set t) r s Q := h

theorem runs_read_bind {f : Surroundings → Load β} (h : Runs (f r) r s R) :
    Runs (read >>= f) r s R := h

theorem runs_withReader {g : Surroundings → Surroundings} (h : Runs x (g r) s Q) :
    Runs (withReader g x) r s Q := h

theorem runs_withScope {scope : Scope}
    (h : Runs x r { s with scopes := scope :: s.scopes } fun a s' =>
      Q a { s' with scopes := s'.scopes.tail }) : Runs (withScope scope x) r s Q :=
  Runs.bind (x := modify _) (Q := fun _ s' => s' = { s with scopes := scope :: s.scopes }) rfl
    fun _ _ hs => hs ▸ h.bind fun _ _ ha => ha

theorem reads_foldlM {f : β → α → Load β} (hf : ∀ b a, Reads (f b a) r s fun _ => True) (xs : List α)
    (b : β) : Reads (xs.foldlM f b) r s fun _ => True := by
  induction xs generalizing b with
  | nil => exact reads_pure trivial
  | cons a xs ih =>
    rw [List.foldlM_cons]
    exact (hf b a).bind fun b' _ => ih b'

theorem reads_mapM {f : α → Load β} {P : α → β → Prop} : (xs : List α) →
    (∀ a ∈ xs, Reads (f a) r s (P a)) →
      Reads (xs.mapM f) r s fun bs => ∀ b ∈ bs, ∃ a ∈ xs, P a b
  | [], _ => ⟨rfl, fun _ hb => nomatch hb⟩
  | a :: xs, h => by
    rw [List.mapM_cons]
    refine (h a List.mem_cons_self).bind fun b hb => ?_
    refine (reads_mapM xs fun c hc => h c (List.mem_cons_of_mem a hc)).bind fun bs hbs => ?_
    refine reads_pure fun c hc => ?_
    rcases List.mem_cons.mp hc with rfl | hc
    · exact ⟨a, List.mem_cons_self, hb⟩
    · obtain ⟨d, hd, hP⟩ := hbs c hc
      exact ⟨d, List.mem_cons_of_mem a hd, hP⟩

end Runs

/-! ## Variables in sight -/

/-- A variable is visible: a scope or one of the types around has a name for it. -/
def Visible (r : Surroundings) (s : Progress) (v : VariableId) : Prop :=
  ∃ scope ∈ s.scopes ++ r.fields, ∃ name, (name, v) ∈ scope

/-- What is visible is in the table. -/
def Valid (r : Surroundings) (s : Progress) : Prop := ∀ v : Nat, Visible r s v → v < s.vars.size

/-- What is declared among statements is a local variable, and the body of a scoped acquisition is a
block. -/
def Proper (vars : Array Variable) : Shape Tree → Prop
  | .varDeclaration v _ => HasKind vars (· = .localVar) v
  | .usingStatement _ (some body) => ∃ statements, body.shape = .block statements
  | _ => True

theorem Proper.extends {vars vars' : Array Variable} {shape : Shape Tree} (h : Proper vars shape)
    (hx : Extends vars vars') : Proper vars' shape := by
  cases shape with
  | varDeclaration v initializer => exact HasKind.extends (P := (· = VariableKind.localVar)) h hx
  | usingStatement resources body => cases body <;> exact h
  | _ => exact h

/-- **A node is sound** over a table of variables. -/
structure Sound (vars : Array Variable) (shape : Shape Tree) : Prop where
  /-- Statements stand below statements and functions. -/
  calm : shape.Calm
  /-- A mention that is no member has a variable. -/
  access : ∀ name v, shape = .varAccess name v → v ≠ none
  /-- Statements have the variables and the parts they should have. -/
  proper : Proper vars shape
  /-- A field has a variable. -/
  fields : ∀ info members initializer body, shape = .declaration info members initializer body →
    info.kind = .field → info.var ≠ none

theorem Sound.extends {vars vars' : Array Variable} {shape : Shape Tree} (h : Sound vars shape)
    (hx : Extends vars vars') : Sound vars' shape :=
  { h with proper := h.proper.extends hx }

/-! ## The account of a step -/

/-- **The account of a step** from one state to another. It gives some trees, which introduce some
variables of the types around, the ones that are paid, and all new variables but those that are still
owed a node. -/
structure Built (r : Surroundings) (s : Progress) (ts : List Tree) (paid owed : List VariableId)
    (s' : Progress) : Prop where
  /-- The table of variables grows. -/
  vars : Extends s.vars s'.vars
  /-- As many scopes are open. -/
  scopes_length : s'.scopes.length = s.scopes.length
  /-- All scopes but the innermost stay. -/
  scopes_tail : s'.scopes.tail = s.scopes.tail
  /-- What comes in sight is new and was not introduced in a function. -/
  visible : ∀ v : Nat, Visible r s' v →
    Visible r s v ∨ s.vars.size ≤ v ∧ v < s'.vars.size ∧ ¬ InFunction ts v
  /-- The trees are sound. -/
  sound : ∀ t ∈ ts, t.All (Sound s'.vars)
  /-- What the trees introduce is in the table. -/
  introduced_lt : ∀ v : Nat, 0 < sums (Shape.introductions v) ts → v < s'.vars.size
  /-- What the trees mention was visible or is new. -/
  mentioned : ∀ v : Nat, 0 < sums (Shape.mentions v) ts →
    Visible r s v ∨ s.vars.size ≤ v ∧ v < s'.vars.size
  /-- Every new variable is introduced by a tree or owed, once, and every paid one is introduced. -/
  balance : ∀ v, sums (Shape.introductions v) ts + owed.count v + born s.vars.size v =
    paid.count v + born s'.vars.size v
  /-- Functions keep their variables to themselves, and these are new. -/
  confined : Confined s.vars.size ts

namespace Built

variable {r : Surroundings} {s s' s'' : Progress} {ts us : List Tree} {name : String}
  {paid paid' owed owed' : List VariableId} {v : Nat} {shape : Shape Tree}

theorem refl (r : Surroundings) (s : Progress) : Built r s [] [] [] s where
  vars := .refl _
  scopes_length := rfl
  scopes_tail := rfl
  visible v hv := .inl hv
  sound t ht := by cases ht
  introduced_lt v hv := by simp at hv
  mentioned v hv := by simp at hv
  balance v := by simp
  confined := Tree.confined_nil

theorem valid (h : Built r s ts paid owed s') (hs : Valid r s) : Valid r s' := by
  intro v hv
  have hle := h.vars.size_le
  rcases h.visible v hv with hv | ⟨-, hlt, -⟩
  · have := hs v hv
    omega
  · exact hlt

theorem mentioned_lt (h : Built r s ts paid owed s') (hs : Valid r s)
    (hv : 0 < sums (Shape.mentions v) ts) : v < s'.vars.size := by
  have hle := h.vars.size_le
  rcases h.mentioned v hv with hv | ⟨-, hlt⟩
  · have := hs v hv
    omega
  · exact hlt

/-- What is owed is new, and no tree introduces it. -/
theorem of_mem_owed (h : Built r s ts [] owed s') (hv : v ∈ owed) :
    s.vars.size ≤ v ∧ v < s'.vars.size ∧ ¬ InFunction ts v := by
  have hbalance := h.balance v
  have hcount := List.count_pos_iff.mpr hv
  have hborn := born_le_one s'.vars.size v
  rw [List.count_nil] at hbalance
  refine ⟨?_, lt_of_born_pos (by omega), fun hin => ?_⟩
  · by_contra hlt
    have := born_of_lt (Nat.not_le.mp hlt)
    omega
  · have := hin.sums_pos
    omega

theorem trans (hs : Valid r s) (h : Built r s ts paid owed s') (h' : Built r s' us paid' owed' s'') :
    Built r s (ts ++ us) (paid ++ paid') (owed ++ owed') s'' := by
  have hle := h.vars.size_le
  have hle' := h'.vars.size_le
  -- What a function of the earlier trees introduces is out of sight and old for the later ones.
  have hleft : ∀ v : Nat, InFunction ts v → ¬ Visible r s' v := by
    intro v hv hvisible
    rcases h.visible v hvisible with hvisible | ⟨-, -, hnot⟩
    · have := hs v hvisible
      have := h.confined.le_of_inFunction hv
      omega
    · exact hnot hv
  have hlt : ∀ v : Nat, InFunction ts v → v < s'.vars.size := fun v hv => h.introduced_lt v hv.sums_pos
  refine ⟨h.vars.trans h'.vars, h'.scopes_length.trans h.scopes_length,
    h'.scopes_tail.trans h.scopes_tail, fun v hv => ?visible, fun t ht => ?sound,
    fun v hv => ?introduced, fun v hv => ?mentioned, fun v => ?balance, ?confined⟩
  case visible =>
    rcases h'.visible v hv with hv | ⟨hnew, hlt', hnot⟩
    · rcases h.visible v hv with hv | ⟨hnew, hlt', hnot⟩
      · exact .inl hv
      · refine .inr ⟨hnew, by omega, fun hin => ?_⟩
        rcases Tree.inFunction_append.mp hin with hin | hin
        · exact hnot hin
        · have := h'.confined.le_of_inFunction hin
          omega
    · refine .inr ⟨by omega, hlt', fun hin => ?_⟩
      rcases Tree.inFunction_append.mp hin with hin | hin
      · have := hlt v hin
        omega
      · exact hnot hin
  case sound =>
    rcases List.mem_append.mp ht with ht | ht
    · exact (h.sound t ht).mono fun _ hsound => hsound.extends h'.vars
    · exact h'.sound t ht
  case introduced =>
    rw [Tree.sums_append] at hv
    by_cases hts : 0 < sums (Shape.introductions v) ts
    · have := h.introduced_lt v hts
      omega
    · exact h'.introduced_lt v (by omega)
  case mentioned =>
    rw [Tree.sums_append] at hv
    by_cases hts : 0 < sums (Shape.mentions v) ts
    · exact (h.mentioned v hts).imp_right fun hnew => ⟨hnew.1, by omega⟩
    · rcases h'.mentioned v (by omega) with hv | ⟨hnew, hlt'⟩
      · exact (h.visible v hv).imp_right fun hnew => ⟨hnew.1, by omega⟩
      · exact .inr ⟨by omega, hlt'⟩
  case balance =>
    have := h.balance v
    have := h'.balance v
    rw [Tree.sums_append, List.count_append, List.count_append]
    omega
  case confined =>
    refine h.confined.append (h'.confined.mono hle) (fun v hv => ?_) fun v hv => ?_
    · by_contra hne
      rcases h'.mentioned v (Nat.pos_of_ne_zero hne) with hvisible | ⟨hnew, -⟩
      · exact hleft v hv hvisible
      · have := hlt v hv
        omega
    · by_contra hne
      have := h.mentioned_lt hs (Nat.pos_of_ne_zero hne)
      have := h'.confined.le_of_inFunction hv
      omega

/-- Trees and variables may be taken in another order. -/
theorem perm (h : Built r s ts paid owed s') (hts : ts.Perm us) (hpaid : paid.Perm paid')
    (howed : owed.Perm owed') : Built r s us paid' owed' s' :=
  { h with
    visible := fun v hv => (h.visible v hv).imp_right fun hnew =>
      ⟨hnew.1, hnew.2.1, fun hin => hnew.2.2 (hin.mono hts.symm.subset)⟩
    sound := fun t ht => h.sound t (hts.mem_iff.mpr ht)
    introduced_lt := fun v hv => h.introduced_lt v (Tree.sums_perm hts ▸ hv)
    mentioned := fun v hv => h.mentioned v (Tree.sums_perm hts ▸ hv)
    balance := fun v => by
      rw [← Tree.sums_perm hts, ← howed.count_eq, ← hpaid.count_eq]
      exact h.balance v
    confined := h.confined.perm hts }

/-- **A node is made of trees** and introduces some of the variables that are owed. Behind a function
the scopes are what they were. -/
theorem node {l : Location} (h : Built r s ts [] owed s') (hchildren : shape.children.Perm ts)
    (howed : owed.Perm (shape.introduced ++ owed')) (hsound : Sound s'.vars shape)
    (hmention : ∀ v, shape.mention? = some v → shape.children = [] ∧ Visible r s v)
    (hscopes : shape.IsFunction → s'.scopes = s.scopes) :
    Built r s [.node l shape] [] owed' s' := by
  have hperm := h.perm hchildren.symm (.refl _) howed
  have hbalance : ∀ v, sums (Shape.introductions v) [.node l shape] + owed'.count v +
      born s.vars.size v = born s'.vars.size v := by
    intro v
    have := hperm.balance v
    rw [List.count_append, List.count_nil] at this
    rw [Tree.sums_node, Shape.introductions]
    omega
  have hfresh : ∀ v : Nat, 0 < sums (Shape.introductions v) [.node l shape] → s.vars.size ≤ v := by
    intro v hv
    by_contra hlt
    have := hbalance v
    have := born_of_lt (Nat.not_le.mp hlt)
    have := born_le_one s'.vars.size v
    omega
  refine
  { hperm with
    visible := fun v hv => ?visible
    sound := fun t ht => ?sound
    introduced_lt := fun v hv => ?introduced
    mentioned := fun v hv => ?mentioned
    balance := fun v => by rw [hbalance, List.count_nil, Nat.zero_add]
    confined := ?confined }
  case visible =>
    by_cases hfunction : shape.IsFunction
    · left
      rwa [Visible, ← hscopes hfunction]
    · refine (hperm.visible v hv).imp_right fun hout => ⟨hout.1, hout.2.1, fun hin => ?_⟩
      rcases Tree.inFunction_node hin with ⟨hfunction', -⟩ | hin
      · exact hfunction hfunction'
      · exact hout.2.2 hin
  case sound =>
    cases List.mem_singleton.mp ht
    exact Tree.all_iff.mpr ⟨hsound, fun c hc => hperm.sound c hc⟩
  case introduced =>
    have := hbalance v
    exact lt_of_born_pos (by omega)
  case mentioned =>
    rw [Tree.sums_node, Shape.mentions] at hv
    by_cases hown : shape.mention? = some v
    · exact .inl (hmention v hown).2
    · rw [if_neg hown, Nat.zero_add] at hv
      exact hperm.mentioned v hv
  case confined =>
    refine hperm.confined.node ?_ fun _ v hv => hfresh v (by simpa using hv)
    rcases hown : shape.mention? with _ | v
    · exact .inr rfl
    · exact .inl (hmention v hown).1

/-- A scope is opened for some variables that are owed, and closed. -/
theorem inScope {s₁ s₂ : Progress} {scope : Scope} (h : Built r s [] [] owed s₁)
    (hscope : ∀ e ∈ scope, e.2 ∈ owed)
    (h' : Built r { s₁ with scopes := scope :: s₁.scopes } ts [] [] s₂) :
    Built r s ts [] owed { s₂ with scopes := s₂.scopes.tail } ∧ s₂.scopes.tail = s₁.scopes := by
  have hle := h.vars.size_le
  have hle' : s₁.vars.size ≤ s₂.vars.size := h'.vars.size_le
  have htail : s₂.scopes.tail = s₁.scopes := h'.scopes_tail
  have hvisible : ∀ v : Nat, Visible r { s₁ with scopes := scope :: s₁.scopes } v →
      Visible r s v ∨ s.vars.size ≤ v ∧ v < s₁.vars.size := by
    rintro v ⟨names, hnames, name, hname⟩
    rcases List.mem_cons.mp hnames with rfl | hnames
    · obtain ⟨hnew, hlt, -⟩ := h.of_mem_owed (hscope _ hname)
      exact .inr ⟨hnew, hlt⟩
    · exact (h.visible v ⟨names, hnames, name, hname⟩).imp_right fun hnew => ⟨hnew.1, hnew.2.1⟩
  refine ⟨?_, htail⟩
  rw [htail]
  refine ⟨h.vars.trans h'.vars, h.scopes_length, h.scopes_tail, fun v hv => ?visible, h'.sound,
    h'.introduced_lt, fun v hv => ?mentioned, fun v => ?balance, h'.confined.mono hle⟩
  case visible =>
    refine (h.visible v hv).imp_right fun ⟨hnew, hlt, _⟩ => ⟨hnew, hlt.trans_le hle', fun hin => ?_⟩
    have : s₁.vars.size ≤ v := h'.confined.le_of_inFunction hin
    omega
  case mentioned =>
    rcases h'.mentioned v hv with hv | ⟨hnew, hlt⟩
    · exact (hvisible v hv).imp_right fun hnew => ⟨hnew.1, hnew.2.trans_le hle'⟩
    · exact .inr ⟨hle.trans hnew, hlt⟩
  case balance =>
    have houter := h.balance v
    have hinner := h'.balance v
    simp only [Tree.sums_nil, List.count_nil] at houter hinner ⊢
    omega

theorem declared {scope : Scope} {outer : List Scope} (h : Built r s ts [] owed s') (hv : v ∈ owed)
    (hscopes : s'.scopes = scope :: outer) :
    Built r s ts [] owed { s' with scopes := ((name, v) :: scope) :: outer } := by
  have hlength := h.scopes_length
  have htail := h.scopes_tail
  rw [hscopes] at hlength htail
  refine { h with scopes_length := hlength, scopes_tail := htail, visible := ?_ }
  rintro w ⟨names, hnames, other, hname⟩
  have hold : (∃ names ∈ scope :: outer ++ r.fields, (other, w) ∈ names) →
      Visible r s w ∨ s.vars.size ≤ w ∧ w < s'.vars.size ∧ ¬ InFunction ts w := by
    rintro ⟨names, hnames, hname⟩
    exact h.visible w ⟨names, hscopes ▸ hnames, other, hname⟩
  rcases List.mem_cons.mp hnames with rfl | hnames
  · rcases List.mem_cons.mp hname with heq | hname
    · cases heq
      exact .inr (h.of_mem_owed hv)
    · exact hold ⟨scope, List.mem_cons_self, hname⟩
  · exact hold ⟨names, List.mem_cons_of_mem _ hnames, hname⟩

/-- The fields of a type come in sight for its members, which pay for them. -/
theorem typed {s₁ s₂ : Progress} {name : String} {scope : Scope} (h : Built r s [] [] owed s₁)
    (hscope : ∀ e ∈ scope, e.2 ∈ owed) (hpaid : paid.Perm owed)
    (h' : Built { r with types := name :: r.types, fields := scope :: r.fields } s₁ ts paid [] s₂) :
    Built r s ts [] [] s₂ := by
  have hle := h.vars.size_le
  have hle' := h'.vars.size_le
  have hinside : ∀ s v, Visible r s v →
      Visible { r with types := name :: r.types, fields := scope :: r.fields } s v := by
    rintro s v ⟨names, hnames, other, hname⟩
    refine ⟨names, ?_, other, hname⟩
    simp only [List.mem_append, List.mem_cons] at hnames ⊢
    exact hnames.imp_right .inr
  have hvisible : ∀ v : Nat,
      Visible { r with types := name :: r.types, fields := scope :: r.fields } s₁ v →
        Visible r s v ∨ s.vars.size ≤ v ∧ v < s₁.vars.size := by
    rintro v ⟨names, hnames, other, hname⟩
    by_cases hfields : names = scope
    · obtain ⟨hnew, hlt, -⟩ := h.of_mem_owed (hscope _ (hfields ▸ hname))
      exact .inr ⟨hnew, hlt⟩
    · refine (h.visible v ⟨names, ?_, other, hname⟩).imp_right fun hnew => ⟨hnew.1, hnew.2.1⟩
      simpa [hfields] using hnames
  refine ⟨h.vars.trans h'.vars, h'.scopes_length.trans h.scopes_length,
    h'.scopes_tail.trans h.scopes_tail, fun v hv => ?visible, h'.sound, h'.introduced_lt,
    fun v hv => ?mentioned, fun v => ?balance, h'.confined.mono hle⟩
  case visible =>
    rcases h'.visible v (hinside s₂ v hv) with hv | ⟨hnew, hlt, hnot⟩
    · refine (hvisible v hv).imp_right fun ⟨hnew, hlt⟩ => ⟨hnew, by omega, fun hin => ?_⟩
      have := h'.confined.le_of_inFunction hin
      omega
    · exact .inr ⟨by omega, hlt, hnot⟩
  case mentioned =>
    rcases h'.mentioned v hv with hv | ⟨hnew, hlt⟩
    · exact (hvisible v hv).imp_right fun hnew => ⟨hnew.1, by omega⟩
    · exact .inr ⟨by omega, hlt⟩
  case balance =>
    have houter := h.balance v
    have hinner := h'.balance v
    have hcount := hpaid.count_eq v
    simp only [Tree.sums_nil, List.count_nil] at houter hinner ⊢
    omega

/-- A field of the type around gets its node. -/
theorem fieldNode {l : Location} {info : DeclarationInfo} {initializer : Option Tree}
    (hs : Valid r s) (h : Built r s initializer.toList [] [] s')
    (hinitializer : ∀ t ∈ initializer, t.shape.isStatement = false) (hkind : info.kind = .field)
    (hparameters : info.parameters = []) (hvar : info.var = some v) (hv : Visible r s v) :
    Built r s [.node l (.declaration info [] initializer [])] [v] [] s' := by
  have hchildren : (Shape.declaration info [] initializer []).children = initializer.toList := by
    simp [Shape.children, Shape.slots]
  have hintroduced : (Shape.declaration info [] initializer []).introduced = [v] := by
    simp [Shape.introduced, hparameters, hvar]
  have hfunction : ¬ (Shape.declaration info [] initializer []).IsFunction := by
    simp [Shape.IsFunction, hkind]
  have hlt := hs v hv
  have hle := h.vars.size_le
  refine
  { h with
    visible := fun w hw => (h.visible w hw).imp_right fun hout =>
      ⟨hout.1, hout.2.1, fun hin => ?visible⟩
    sound := fun t ht => ?sound
    introduced_lt := fun w hw => ?introduced
    mentioned := fun w hw => ?mentioned
    balance := fun w => ?balance
    confined := ?confined }
  case visible =>
    rcases Tree.inFunction_node hin with ⟨hfunction', -⟩ | hin
    · exact hfunction hfunction'
    · exact hout.2.2 (hchildren ▸ hin)
  case sound =>
    cases List.mem_singleton.mp ht
    refine Tree.all_iff.mpr ⟨⟨fun _ _ c hc => ?_, ?_, ?_, ?_⟩, fun c hc => h.sound c (hchildren ▸ hc)⟩
    · replace hc : c ∈ (Shape.declaration info [] initializer []).children := hc
      rw [hchildren] at hc
      exact hinitializer c (by simpa using hc)
    · simp [Tree.shape]
    · exact trivial
    · intro _ _ _ _ heq _
      cases heq
      simp [hvar]
  case introduced =>
    rw [Tree.sums_node, Shape.introductions, hintroduced, hchildren] at hw
    by_cases hsum : 0 < sums (Shape.introductions w) initializer.toList
    · exact h.introduced_lt w hsum
    · obtain rfl : w = v := List.mem_singleton.mp (List.count_pos_iff.mp (by omega))
      omega
  case mentioned =>
    rw [Tree.sums_node, hchildren] at hw
    exact h.mentioned w (by simpa [Shape.mentions, Shape.mention?] using hw)
  case balance =>
    have := h.balance w
    rw [Tree.sums_node, Shape.introductions, hintroduced, hchildren]
    simp only [List.count_nil] at this ⊢
    omega
  case confined =>
    rw [← hchildren] at h
    exact h.confined.node (.inr rfl) fun hfunction' => absurd hfunction' hfunction

end Built

theorem valid_inScope {r : Surroundings} {s s₁ : Progress} {owed : List VariableId} {scope : Scope}
    (hs : Valid r s) (h : Built r s [] [] owed s₁) (hscope : ∀ e ∈ scope, e.2 ∈ owed) :
    Valid r { s₁ with scopes := scope :: s₁.scopes } := by
  rintro v ⟨names, hnames, name, hname⟩
  rcases List.mem_cons.mp hnames with rfl | hnames
  · exact (h.of_mem_owed (hscope _ hname)).2.1
  · exact h.valid hs v ⟨names, hnames, name, hname⟩

theorem valid_typed {r : Surroundings} {s s₁ : Progress} {owed : List VariableId} {scope : Scope}
    {name : String} (hs : Valid r s) (h : Built r s [] [] owed s₁)
    (hscope : ∀ e ∈ scope, e.2 ∈ owed) :
    Valid { r with types := name :: r.types, fields := scope :: r.fields } s₁ := by
  rintro v ⟨names, hnames, other, hname⟩
  by_cases hfields : names = scope
  · exact (h.of_mem_owed (hscope _ (hfields ▸ hname))).2.1
  · exact h.valid hs v ⟨names, by simpa [hfields] using hnames, other, hname⟩

/-! ## Sound nodes -/

section Sound

variable {vars : Array Variable} {shape : Shape Tree}

theorem Sound.statement (h : shape.isStatement = true) (hproper : Proper vars shape) :
    Sound vars shape where
  calm hno := by simp [h] at hno
  access name v heq := by
    subst heq
    simp [Shape.isStatement, Shape.isExpression] at h
  proper := hproper
  fields info members initializer body heq := by
    subst heq
    simp [Shape.isStatement, Shape.isOutermost] at h

theorem Sound.expression (h : shape.isExpression = true)
    (hchildren : ¬ shape.IsFunction → ∀ c ∈ shape.children, c.shape.isStatement = false)
    (haccess : ∀ name v, shape = .varAccess name v → v ≠ none) : Sound vars shape where
  calm _ := hchildren
  access := haccess
  proper := by
    cases shape <;> first | exact trivial | simp [Shape.isExpression] at h
  fields info members initializer body heq := by
    subst heq
    simp [Shape.isExpression] at h

theorem Sound.declaration {info : DeclarationInfo} {members body : List Tree}
    (hchildren : info.kind = .type →
      ∀ c ∈ (Shape.declaration info members none body).children, c.shape.isStatement = false)
    (hkind : info.kind ≠ .field) : Sound vars (.declaration info members none body) where
  calm _ hfunction := by
    apply hchildren
    rcases hk : info.kind with _ | _ | _
    · rfl
    · exact absurd hk hfunction
    · exact absurd hk hkind
  access name v heq := nomatch heq
  proper := trivial
  fields info' members' initializer' body' heq hk := by
    cases heq
    exact absurd hk hkind

theorem mention?_of_isStatement {ν : Type} {shape : Shape ν} (h : shape.isStatement = true) :
    shape.mention? = none := by
  cases shape <;> first | rfl | simp [Shape.isStatement, Shape.isExpression] at h

theorem not_isFunction_of_isStatement {ν : Type} {shape : Shape ν} (h : shape.isStatement = true) :
    ¬ shape.IsFunction := by
  cases shape <;> simp [Shape.isStatement, Shape.isExpression, Shape.isOutermost] at h <;>
    simp [Shape.IsFunction]

variable {r : Surroundings} {s s' : Progress} {ts : List Tree} {owed owed' : List VariableId}
  {l : Location}

theorem Built.statement (h : Built r s ts [] owed s') (hstatement : shape.isStatement = true)
    (hproper : Proper s'.vars shape) (hchildren : shape.children.Perm ts)
    (howed : owed.Perm (shape.introduced ++ owed')) : Built r s [.node l shape] [] owed' s' := by
  refine h.node hchildren howed (.statement hstatement hproper) (fun v hv => ?_) fun hfunction => ?_
  · rw [mention?_of_isStatement hstatement] at hv
    cases hv
  · exact absurd hfunction (not_isFunction_of_isStatement hstatement)

theorem Built.expression (h : Built r s ts [] [] s') (hexpression : shape.isExpression = true)
    (hplain : ∀ t ∈ ts, t.shape.isStatement = false) (hchildren : shape.children.Perm ts)
    (hmention : shape.mention? = none) (haccess : ∀ name v, shape ≠ .varAccess name v)
    (hfunction : ¬ shape.IsFunction) (hintroduced : shape.introduced = []) :
    Built r s [.node l shape] [] [] s' := by
  refine h.node hchildren (by rw [hintroduced]; rfl) (.expression hexpression (fun _ c hc => ?_) ?_)
    (fun v hv => ?_) fun hf => absurd hf hfunction
  · exact hplain c (hchildren.mem_iff.mp hc)
  · exact fun name v heq => absurd heq (haccess name v)
  · rw [hmention] at hv
    cases hv

end Sound

/-! ## Single steps -/

section Steps

variable {r : Surroundings} {s : Progress} {fields : Fields} {key name : String}

theorem runs_newVariable {type : Option String} {kind : VariableKind} {isStatic : Bool} :
    Runs (newVariable name type kind isStatic) r s fun v s' =>
      Built r s [] [] [v] s' ∧ HasKind s'.vars (· = kind) v ∧ s'.scopes = s.scopes := by
  refine ⟨?_, ⟨_, Array.getElem?_push_size, rfl⟩, rfl⟩
  refine { Built.refl r s with
    vars := extends_push s.vars _
    visible := fun v hv => .inl hv
    sound := fun t ht => by cases ht
    introduced_lt := fun v hv => by simp at hv
    mentioned := fun v hv => by simp at hv
    balance := fun v => ?_ }
  have := count_singleton_add_born s.vars.size v
  simp only [Tree.sums_nil, List.count_nil, Array.size_push]
  omega

theorem runs_declare {ts : List Tree} {owed : List VariableId} {s' : Progress} {v : VariableId}
    (h : Built r s ts [] owed s') (hv : v ∈ owed) (hopen : s.scopes ≠ []) :
    Runs (declare fields name v) r s' fun _ s'' => Built r s ts [] owed s'' ∧ s''.vars = s'.vars := by
  refine runs_get_bind ?_
  rcases hscopes : s'.scopes with _ | ⟨scope, outer⟩
  · have hlength := h.scopes_length
    rw [hscopes] at hlength
    exact absurd (List.length_eq_zero_iff.mp hlength.symm) hopen
  · simp only []
    split
    · exact runs_reject (α := PUnit) trivial
    · exact runs_get_bind (runs_set ⟨h.declared hv hscopes, rfl⟩)

theorem reads_resolve : Reads (resolve name) r s fun found => ∀ v, found = some v → Visible r s v := by
  refine ⟨rfl, fun v hv => ?_⟩
  obtain ⟨scope, hscope, hlookup⟩ := List.exists_of_findSome?_eq_some hv
  obtain ⟨before, after, rfl, -⟩ := List.lookup_eq_some_iff.mp hlookup
  exact ⟨_, hscope, name, by simp⟩

/-! ## Fields of mappings -/

/-- The kind that a mapping gives, if it is a text. -/
def kind? (fields : Fields) : Option String :=
  match field? fields "kind" with
  | some (.str kind) => some kind
  | _ => none

theorem depth_of_lookup {v : Value} (h : Value.lookup fields key = some v) :
    v.depth ≤ Value.entryDepths fields := by
  obtain ⟨⟨k, w⟩, hfind, rfl⟩ := Option.map_eq_some_iff.mp h
  have hmem := List.mem_of_find?_eq_some hfind
  clear h hfind
  induction fields with
  | nil => cases hmem
  | cons entry rest ih =>
    obtain ⟨k', w'⟩ := entry
    rw [Value.entryDepths]
    rcases List.mem_cons.mp hmem with heq | hmem
    · cases heq
      exact Nat.le_max_left _ _
    · exact (ih hmem).trans (Nat.le_max_right _ _)

theorem depth_of_field? {v : Value} (h : field? fields key = some v) :
    v.depth ≤ Value.entryDepths fields := by
  rw [field?] at h
  split at h
  · cases h
  · cases h
  · next hlookup =>
    cases h
    exact depth_of_lookup hlookup

theorem depth_of_mem {vs : List Value} {v : Value} (h : v ∈ vs) : v.depth ≤ Value.depths vs := by
  induction vs with
  | nil => cases h
  | cons w ws ih =>
    rw [Value.depths]
    rcases List.mem_cons.mp h with rfl | h
    · exact Nat.le_max_left _ _
    · exact (ih h).trans (Nat.le_max_right _ _)

theorem reads_mapping {what : String} {v : Value} :
    Reads (mapping what v) r s fun fields => v = .map fields := by
  cases v <;> first | exact reads_pure rfl | exact runs_reject trivial

theorem reads_items : Reads (items fields key) r s fun vs =>
    ∀ v ∈ vs, v.depth < Value.entryDepths fields := by
  rw [items]
  split
  · exact reads_pure fun v hv => nomatch hv
  · next vs hfield =>
    refine reads_pure fun v hv => ?_
    have hle := depth_of_field? hfield
    have := depth_of_mem hv
    rw [Value.depth] at hle
    omega
  · exact runs_reject trivial

theorem reads_kindOf : Reads (kindOf fields) r s (· = kind? fields) := by
  rw [kindOf]
  split
  · next hfield => exact reads_pure (by rw [kind?, hfield])
  · next hfield => exact reads_pure (by rw [kind?, hfield])
  · exact runs_reject trivial

theorem reads_text? : Reads (text? fields key) r s fun _ => True := by
  rw [text?]
  split
  · exact reads_pure trivial
  · exact reads_pure trivial
  · exact runs_reject trivial

theorem reads_written {v : Value} : Reads (written v) r s (· = v.display) := by
  rw [written]
  split
  · exact reads_pure rfl
  · exact runs_reject trivial

theorem reads_writtenField {missing : String} :
    Reads (writtenField fields key missing) r s fun _ => True := by
  rw [writtenField]
  split
  · exact reads_pure trivial
  · exact reads_written.mono fun _ _ => trivial

theorem reads_require : Reads (require fields key) r s fun v => field? fields key = some v := by
  rw [require]
  split
  · next hfield => exact reads_pure hfield
  · exact reads_writtenField.bind fun _ _ => runs_reject trivial

theorem reads_requireText : Reads (requireText fields key) r s fun text =>
    (field? fields key).map Value.display = some text :=
  reads_require.bind fun v hv => reads_written.mono fun text htext => by
    rw [hv, Option.map_some, htext]

theorem reads_coordinate : Reads (coordinate fields key) r s fun _ => True := by
  rw [coordinate]
  split
  · exact reads_pure trivial
  · exact reads_pure trivial
  · exact runs_reject trivial

theorem reads_locate {outer : Location} : Reads (locate fields outer) r s fun _ => True := by
  refine reads_coordinate.bind fun _ _ => reads_coordinate.bind fun _ _ =>
    reads_coordinate.bind fun _ _ => reads_coordinate.bind fun _ _ => ?_
  split <;> exact reads_pure trivial

theorem reads_modifiers : Reads (modifiers fields) r s fun _ => True := by
  rw [modifiers]
  split
  · exact reads_pure trivial
  · exact (reads_mapM _ fun _ _ => reads_written).bind fun _ _ => reads_pure trivial
  · split
    · exact runs_reject trivial
    · exact reads_pure trivial

end Steps

end ModelLint.Document
