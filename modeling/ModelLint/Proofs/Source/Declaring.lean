import ModelLint.Proofs.Source.Reads
import ModelLint.Proofs.Source.Sparing

/-!
# How bindings become declarations

While the statements of a function are built, a name of the function gets a variable at its first
binding. The declaration of the variable stands among the nodes, or it is put before the statement.
The other bindings become accesses to the variable.

* `Leaves`: a step that leaves a name alone.
* `Settles`: a state behind another one, with some bindings of a name between them.
* **`Declares`**: a step that goes on to such a state. `Declares.bind` puts steps together, and
  `declares_binding` is the step of one binding.
* `declares_of_others`: statements that bind other names only.
* `declares_forEach`, `declares_guarded` and others: a statement, by what its blocks declare.
* **`declares_stmtsNodes`**: statements declare what they bind.
-/

namespace ModelLint.Source

open Build

variable {α β : Type} {build : Build α} {k : α → Build β} {f : α → List Tree} {g : α → List Tree}
  {h : β → List Tree} {x name : String} {o : Option String} {s s' s'' : Building}
  {ts us vs made made' : List Tree} {r : Range} {shape : Shape Tree} {v : VariableId}
  {locks : List String} {b : OwnBinding} {bs bs' : List OwnBinding} {es : List Event}

/-! ## Steps that leave a name alone -/

theorem Follows.keeps {made : Tree → Prop} (h : Follows made es s s') (hs : s.Bounded)
    (hes : ∀ e ∈ es, e.changed? ≠ some x) : (s.sight x).Keeps (s'.sight x) :=
  (h.names hs x).keeps hes

/-- **A step leaves a name alone**: it declares other names only, on the way and not in its trees, and
what is known of the name stays. -/
structure Leaves (o : Option String) (x : String) (build : Build α) (f : α → List Tree) : Prop where
  /-- It spares the name. -/
  spares : Spares x build f
  /-- What is known of the name stays. -/
  keeps : ∀ s : Building, s.Bounded → s.object? = o →
    Runs build s (fun _ => True) fun _ s' => (s.sight x).Keeps (s'.sight x)

theorem Spares.leaves (hx : Spares x build f) (ht : Traces o us build es g)
    (hes : ∀ e ∈ es, e.changed? ≠ some x) : Leaves o x build f :=
  ⟨hx, fun s hs ho => (ht s ho).mono fun _ _ h => h.1.keeps hs hes⟩

theorem leaves_exprNode (e : Expr) (hx : x ∉ e.walruses) : Leaves o x (exprNode e) fun t => [t] :=
  (spares_exprNode e hx).leaves (traces_exprNode e) fun ev hev hchanged =>
    hx (mem_walruses_of_changed e ev hev hchanged)

theorem leaves_isLock {e : Expr} {t : Tree} : Leaves o x (isLock locks e t) fun _ => [] :=
  ⟨spares_still fun _ => runs_isLock, fun _ _ _ => runs_isLock.mono fun _ _ hs' => hs' ▸ .refl _⟩

theorem leaves_targetName (hne : name ≠ x) : Leaves o x (targetName r name) fun t => [t] :=
  (spares_targetName hne).leaves traces_targetName <| List.forall_mem_singleton.mpr
    fun hchanged => hne (Option.some.inj hchanged)

/-! ## States behind bindings -/

/-- The access that a target becomes, given the variable. -/
def OwnBinding.accesses (b : OwnBinding) (v : VariableId) (target : Option Range) : List Tree :=
  target.toList.map fun r => nodeAt r (.varAccess b.name (some v))

theorem OwnBinding.plain_accesses {target : Option Range} : ∀ t ∈ b.accesses v target, Plain t := by
  intro t ht
  obtain ⟨r, -, rfl⟩ := List.mem_map.mp ht
  exact plain_mention

theorem OwnBinding.mem_accesses {target : Option Range} (hr : r ∈ target) :
    nodeAt r (.varAccess b.name (some v)) ∈ b.accesses v target :=
  List.mem_map_of_mem (Option.mem_toList.mpr hr)

/-- **A state behind another one, with some bindings of a name between them.** On the way trees were
given, and others were put before the statement; trees that were handed stand near them. -/
structure Settles (x : String) (us : List Tree) (bs : List OwnBinding) (ts made : List Tree)
    (s s' : Building) : Prop where
  /-- The state comes behind. -/
  reaches : s.Reaches s'
  /-- So much was put before the statement. -/
  pending : s'.pending = s.pending ++ made
  /-- Values for the name still go to the function. -/
  isDeclared : (s'.sight x).isDeclared = false
  /-- What stood near the trees that were handed stands near the new ones. -/
  near : ∀ u, Near us u → Near (ts ++ made) u
  /-- This is what the bindings made of the name. -/
  binds : Binds (Near (ts ++ made)) x bs (s.sight x).own (s'.sight x).own
  /-- New declarations are those of other names, and one of the name if it had no variable. -/
  declares : ∀ v, Declared (ts ++ made) v → Declared us v ∨ IsOther x s'.vars v ∨
    (s.sight x).own = none ∧ (s'.sight x).own = some v

theorem Binds.none_of_none {made : Tree → Prop} {own own' : Option VariableId}
    (h : Binds made x bs own own') (hnone : own' = none) : own = none := by
  rcases hown : own with _ | v
  · rfl
  · cases (h.own_of_some hown).symm.trans hnone

theorem Settles.trans (h : Settles x [] bs ts made s s')
    (h' : Settles x (ts ++ us) bs' vs made' s' s'') :
    Settles x us (bs ++ bs') vs (made ++ made') s s'' where
  reaches := h.reaches.trans h'.reaches
  pending := by rw [h'.pending, h.pending, List.append_assoc]
  isDeclared := h'.isDeclared
  near u hu := (h'.near u (near_append.mpr (.inr hu))).mono (by simp)
  binds := by
    refine (h.binds.mono fun u hu => ?_).append (h'.binds.mono fun u hu => hu.mono (by simp))
    rcases near_append.mp hu with hu | hu
    · exact (h'.near u (near_append.mpr (.inl hu))).mono (by simp)
    · exact hu.mono (by simp)
  declares v hv := by
    have hsplit : Declared (vs ++ made') v ∨ Declared (ts ++ made) v := by
      simp only [declared_append] at hv ⊢
      tauto
    -- what the first step declared is known to the second one
    have hfirst : Declared (ts ++ made) v → IsOther x s''.vars v ∨
        (s.sight x).own = none ∧ (s''.sight x).own = some v := fun hv => by
      rcases h.declares v hv with hv | hother | ⟨hnone, hsome⟩
      · exact absurd hv (not_declared_of_plain (List.forall_mem_nil _))
      · exact .inl (hother.extends h'.reaches.grows.vars)
      · exact .inr ⟨hnone, h'.binds.own_of_some hsome⟩
    rcases hsplit with hv | hv
    · rcases h'.declares v hv with hv | hother | ⟨hnone, hsome⟩
      · rcases declared_append.mp hv with hv | hv
        · exact .inr (hfirst (declared_append.mpr (.inl hv)))
        · exact .inl hv
      · exact .inr (.inl hother)
      · exact .inr (.inr ⟨h.binds.none_of_none hnone, hsome⟩)
    · exact .inr (hfirst hv)

/-- A step that leaves the name alone lies between the states. -/
theorem Spared.settles (h : Spared x s s') (hkeeps : (s.sight x).Keeps (s'.sight x))
    (hopen : (s.sight x).isDeclared = false) (hts : ∀ v, Declared ts v → IsOther x s'.vars v) :
    ∃ made, Settles x [] [] ts made s s' := by
  obtain ⟨made, hmade, hothers⟩ := h.pending
  refine ⟨made, h.reaches, hmade, hkeeps.isDeclared.trans hopen, fun u hu => absurd hu not_near_nil,
    hkeeps.own, fun v hv => .inr (.inl ?_)⟩
  exact (declared_append.mp hv).elim (hts v) (hothers v)

theorem Building.Open.settles (hs : s.Open) (hopen : (s.sight x).isDeclared = false)
    (hts : Covers us ts) : Settles x us [] ts [] s s where
  reaches := hs.reaches
  pending := (List.append_nil _).symm
  isDeclared := hopen
  near u hu := (hts.near u hu).mono (List.subset_append_left _ _)
  binds := rfl
  declares v hv := .inl (hts.declared v (by rwa [List.append_nil] at hv))

/-! ## Steps -/

/-- **A step binds a name at some places**, if the object of the method around has the given name and
values for the name stay in the function. What stands near trees that are handed to it stands near its
own. -/
def Declares (o : Option String) (x : String) (us : List Tree) (build : Build α)
    (bs : List OwnBinding) (g : α → List Tree) : Prop :=
  ∀ s : Building, s.Open → s.object? = o → (s.sight x).isDeclared = false →
    Runs build s (fun _ => True) fun a s' => ∃ made, Settles x us bs (g a) made s s'

section Declares

/-- Behind a state that is known a step is taken. -/
theorem Declares.after {build : Build β} (hx : Declares o x (ts ++ us) build bs' h)
    (ho : s.object? = o) (h₁ : Settles x [] bs ts made s s') :
    Runs build s' (fun _ => True) fun b s'' => ∃ made, Settles x us (bs ++ bs') (h b) made s s'' :=
  (hx s' h₁.reaches.isOpen (h₁.reaches.grows.object?.trans ho) h₁.isDeclared).mono
    fun _ _ ⟨_, h₂⟩ => ⟨_, h₁.trans h₂⟩

theorem Declares.bind (hx : Declares o x [] build bs g)
    (hk : ∀ a, Declares o x (g a ++ us) (k a) bs' h) :
    Declares o x us (build >>= k) (bs ++ bs') h :=
  fun s hs ho hopen => (hx s hs ho hopen).bind fun a _ ⟨_, h₁⟩ => (hk a).after ho h₁

theorem declares_pure {a : α} (ha : Covers us (g a)) : Declares o x us (pure a) [] g :=
  fun _ hs _ hopen => ⟨[], hs.settles hopen ha⟩

theorem declares_plain {t : Tree} (ht : Plain t) : Declares o x [] (pure [t]) [] id :=
  declares_pure (covers_of_plain (List.forall_mem_singleton.mpr ht))

/-- The last step, of whose trees others are made. -/
theorem Declares.last {k : α → β} (hx : Declares o x [] build bs g)
    (hk : ∀ a, Covers (g a ++ us) (h (k a))) : Declares o x us (do return k (← build)) bs h :=
  List.append_nil bs ▸ hx.bind fun a => declares_pure (hk a)

/-- Of the trees that a step gives others may be made. -/
theorem Declares.mono (hx : Declares o x [] build bs g) (hg : ∀ a, Covers (g a) (f a)) :
    Declares o x [] build bs f := by
  have hlast : Declares o x [] (do return id (← build)) bs f :=
    hx.last fun a => by simpa using hg a
  simpa using hlast

/-- A step that leaves the name alone, in front. -/
theorem Leaves.next (hx : Leaves o x build f)
    (hk : ∀ a, (∀ t ∈ f a, Plain t) → Declares o x us (k a) bs h) :
    Declares o x us (build >>= k) bs h := by
  intro s hs ho hopen
  refine ((hx.spares s hs).and (hx.keeps s hs.valid.bounded ho)).bind ?_
  rintro a s₁ ⟨⟨hspared, hplain⟩, hkeeps⟩
  have hsettles : ∃ made, Settles x [] [] [] made s s₁ := hspared.settles hkeeps hopen fun v hv =>
    absurd hv (not_declared_of_plain (List.forall_mem_nil _))
  obtain ⟨made, h₁⟩ := hsettles
  exact (hk a hplain).after ho h₁

/-- A step with one tree, in front. -/
theorem Leaves.tree {build : Build Tree} {k : Tree → Build β} (hx : Leaves o x build fun t => [t])
    (hk : ∀ t, Plain t → Declares o x us (k t) bs h) : Declares o x us (build >>= k) bs h :=
  hx.next fun t ht => hk t (List.forall_mem_singleton.mp ht)

theorem Leaves.declares (hx : Leaves o x build f) : Declares o x [] build [] f :=
  fun s hs ho hopen => ((hx.spares s hs).and (hx.keeps s hs.valid.bounded ho)).mono
    fun _ _ ⟨⟨hspared, hplain⟩, hkeeps⟩ =>
      hspared.settles hkeeps hopen fun _ hv => absurd hv (not_declared_of_plain hplain)

theorem Declares.collectPending (hx : Declares o x us build bs g) :
    Declares o x us (collectPending build) bs fun p => p.1 ++ g p.2 := by
  refine fun s hs ho hopen => runs_collectPending ((hx _ hs.clear ho hopen).mono
    fun a s' ⟨made, h₁⟩ => ⟨[], ?_⟩)
  have hmade : s'.pending = made := h₁.pending.trans (List.nil_append made)
  subst hmade
  have hcovers : Covers (g a ++ s'.pending) ((s'.pending ++ g a) ++ []) := by
    rw [List.append_nil]
    exact covers_comm (g a) s'.pending
  exact
  { reaches := h₁.reaches.restore hs
    pending := (List.append_nil _).symm
    isDeclared := h₁.isDeclared
    near := fun u hu => hcovers.near u (h₁.near u hu)
    binds := h₁.binds.mono hcovers.near
    declares := fun v hv => h₁.declares v (hcovers.declared v hv) }

theorem Declares.withPending {build : Build (List Tree)} (hx : Declares o x [] build bs id) :
    Declares o x [] (withPending build) bs id :=
  hx.collectPending.last fun p => by simpa using Covers.refl (p.1 ++ p.2)

end Declares

/-! ## Bindings -/

section Bindings

/-- A value for a name that stays in the function goes to the variable that the function has. -/
theorem runs_binding?_own (hopen : (s.sight x).isDeclared = false) :
    Runs (binding? x) s (fun _ => True) fun w s' => w = (s.sight x).own ∧ s' = s := by
  refine runs_get_bind ?_
  rcases hframes : s.frames with _ | ⟨frame, outer⟩
  · simp [Building.sight, hframes] at hopen
  · simp only [Building.sight, hframes, List.head?_cons, Option.all_some, Bool.or_eq_false_iff] at hopen
    obtain ⟨⟨hmodule, hglobals⟩, hnonlocals⟩ := hopen
    simp only [Building.sight, hframes, List.head?_cons, Option.bind_some]
    split
    · next v hlookup => exact runs_pure ⟨hlookup.symm, rfl⟩
    · next hlookup =>
      simp only [hmodule, hglobals, hnonlocals]
      exact runs_pure ⟨hlookup.symm, rfl⟩

/-- What a binding finds out leaves every name alone, and of a name that stays in the function it is the
variable. -/
theorem runs_binding?_settles (hs : s.Open) (hopen : (s.sight x).isDeclared = false) :
    Runs (binding? name) s (fun _ => True) fun w s' =>
      Settles x [] [] [] [] s s' ∧ (name = x → (s'.sight x).own = w) := by
  have hown : Runs (binding? name) s (fun _ => True) fun w s' => name = x → (s'.sight x).own = w := by
    by_cases hx : name = x
    · subst hx
      exact (runs_binding?_own hopen).mono fun w s' ⟨hw, hs'⟩ _ => hs' ▸ hw.symm
    · exact (returns_any s).mono fun _ _ _ heq => absurd heq hx
  refine ((((carries_binding? s hs).and (mild_binding? s)).and runs_bindingOf).and hown).mono
    fun w s' ⟨⟨⟨hreaches, hpending, _⟩, hcalm, _⟩, hown⟩ => ⟨?_, hown⟩
  have hkeeps := (hcalm fun _ => True).keeps (x := x) hs.valid.bounded nofun
  exact
  { reaches := hreaches
    pending := hpending.trans (List.append_nil _).symm
    isDeclared := hkeeps.isDeclared.trans hopen
    near := fun u hu => absurd hu not_near_nil
    binds := hkeeps.own
    declares := fun v hv => absurd hv (not_declared_of_plain nofun) }

/-- The name has its variable: the targets are accesses to it. -/
theorem Building.Open.settles_assigned (hs : s.Open) (hopen : (s.sight x).isDeclared = false)
    (hown : b.name = x → (s.sight x).own = some v) :
    Settles x [] [b] (b.accesses v b.target?) [] s s where
  reaches := hs.reaches
  pending := (List.append_nil _).symm
  isDeclared := hopen
  near u hu := absurd hu not_near_nil
  binds := binds_singleton.mpr ⟨fun _ => rfl, fun hx => ⟨v, hown hx, .inl ⟨hown hx, fun r hr => .root
    (List.mem_append_left _ (OwnBinding.mem_accesses hr))⟩⟩⟩
  declares w hw := by
    rw [List.append_nil] at hw
    exact absurd hw (not_declared_of_plain OwnBinding.plain_accesses)

/-- The name has no variable: one is declared. -/
theorem Building.Open.settles_declared {initializer : Option Tree} {type : Option String} (hs : s.Open)
    (hopen : (s.sight x).isDeclared = false) (hown : b.name = x → (s.sight x).own = none)
    (hplain : ∀ t ∈ initializer.toList, Plain t) :
    Settles x [] [b] (nodeAt b.place (.varDeclaration s.vars.size initializer) ::
      b.accesses s.vars.size b.shared?) [] s (s.bound b.name type) where
  reaches := (leads_define hs).reaches (hs.bound b.name type)
  pending := (List.append_nil _).symm
  isDeclared := Building.isDeclared_bound.trans hopen
  near u hu := absurd hu not_near_nil
  binds := by
    refine binds_singleton.mpr ⟨fun hne => (Building.keeps_bound hne).own, ?_⟩
    rintro rfl
    refine ⟨_, Building.own_bound hs.frames, .inr ⟨hown rfl, ⟨initializer, ?_⟩, fun r hr => ?_⟩⟩
    · exact .root List.mem_cons_self
    · exact .root (List.mem_cons_of_mem _ (List.mem_append_left _ (OwnBinding.mem_accesses hr)))
  declares w hw := by
    rw [List.append_nil, ← List.singleton_append] at hw
    rcases declared_append.mp hw with hw | hw
    · cases declared_varDeclaration hplain hw
      by_cases hx : b.name = x
      · subst hx
        exact .inr (.inr ⟨hown rfl, Building.own_bound hs.frames⟩)
      · exact .inr (.inl (Building.Open.isOther_bound hx))
    · exact absurd hw (not_declared_of_plain OwnBinding.plain_accesses)

/-- **A binding of a name**, whose trees are handed to what follows. -/
theorem declares_binding_of (b : OwnBinding) (initializer : Option Tree) {type : Option String}
    {k : Option VariableId → Build β} {f : VariableId → Build β}
    (hplain : ∀ t ∈ initializer.toList, Plain t)
    (hk : k none = do let v ← newLocal b.name type; bindName b.name v; f v)
    (hsome : ∀ v s, s.Open → s.object? = o → (s.sight x).isDeclared = false →
      (b.name = x → (s.sight x).own = some v) → Runs (k (some v)) s (fun _ => True) fun c s' =>
        ∃ made, Settles x us (b :: bs) (h c) made s s')
    (hnone : ∀ v, Declares o x (nodeAt b.place (.varDeclaration v initializer) ::
      b.accesses v b.shared? ++ us) (f v) bs h) :
    Declares o x us (binding? b.name >>= k) (b :: bs) h := by
  refine fun s hs ho hopen => (runs_binding?_settles hs hopen).bind fun w s₁ ⟨h₁, hown⟩ => ?_
  have hs₁ := h₁.reaches.isOpen
  have ho₁ := h₁.reaches.grows.object?.trans ho
  rcases w with _ | v
  · rw [hk]
    exact runs_bound fun _ => (hnone _).after ho
      (h₁.trans (hs₁.settles_declared h₁.isDeclared hown hplain))
  · exact (hsome v s₁ hs₁ ho₁ h₁.isDeclared hown).mono fun c s₂ ⟨made, h₂⟩ => ⟨_, h₁.trans h₂⟩

/-- A binding of a name, where the targets are handed on if the name has its variable. -/
theorem declares_binding (b : OwnBinding) (initializer : Option Tree) {type : Option String}
    {k : Option VariableId → Build β} {f : VariableId → Build β}
    (hplain : ∀ t ∈ initializer.toList, Plain t)
    (hk : k none = do let v ← newLocal b.name type; bindName b.name v; f v)
    (hsome : ∀ v, Declares o x (b.accesses v b.target? ++ us) (k (some v)) bs h)
    (hnone : ∀ v, Declares o x (nodeAt b.place (.varDeclaration v initializer) ::
      b.accesses v b.shared? ++ us) (f v) bs h) :
    Declares o x us (binding? b.name >>= k) (b :: bs) h :=
  declares_binding_of b initializer hplain hk (fun v _ hs ho hopen hown =>
    (hsome v).after ho (hs.settles_assigned hopen hown)) hnone

/-- A binding of another name binds nothing. -/
theorem Declares.other (hx : Declares o x [] build [] f) (hb : b.name ≠ x) :
    Declares o x [] build [b] f :=
  fun s hs ho hopen => (hx s hs ho hopen).mono fun _ _ ⟨made, h₁⟩ =>
    ⟨made, { h₁ with binds := binds_singleton.mpr ⟨fun _ => h₁.binds, fun heq => absurd heq hb⟩ }⟩

theorem declares_targetName : Declares o x [] (targetName r name) [.among name r] fun t => [t] := by
  by_cases hx : name = x
  · subst hx
    intro s hs ho hopen
    have hrun : Runs (targetName r name) s (fun _ => True) fun t s' =>
        ∃ made, s.Reaches s' → Settles name [] [.among name r] [t] made s s' := by
      refine (runs_binding?_own hopen).bind ?_
      rintro w s₁ ⟨rfl, rfl⟩
      rcases hown : (s₁.sight name).own with _ | v
      · let decl := nodeAt r (.varDeclaration s₁.vars.size none)
        let access := nodeAt r (.varAccess name (some s₁.vars.size))
        have h₁ : Settles name [] [.among name r] (decl :: [access]) [] s₁ (s₁.bound name none) :=
          hs.settles_declared hopen (fun _ => hown) nofun
        have hcovers : Covers ([decl, access] ++ []) ([access] ++ [decl]) :=
          covers_comm [decl] [access]
        exact runs_bound fun _ => runs_modify_bind (runs_pure ⟨[decl], fun hreaches =>
          { reaches := hreaches
            pending := rfl
            isDeclared := h₁.isDeclared
            near := fun u hu => absurd hu not_near_nil
            binds := h₁.binds.mono hcovers.near
            declares := fun v hv => h₁.declares v (hcovers.declared v hv) }⟩)
      · exact runs_pure ⟨[], fun _ => hs.settles_assigned hopen fun _ => hown⟩
    exact ((carries_targetName s hs).and hrun).mono fun t s' ⟨hreaches, made, h₁⟩ => ⟨made, h₁ hreaches⟩
  · exact (leaves_targetName hx).declares.other hx

end Bindings

/-! ## Targets and statements without blocks -/

section Simple

theorem collectAll_ownWalrus (es : List Expr) :
    Expr.collectAll Expr.ownWalrus es = es.flatMap Expr.walruses := by
  induction es with
  | nil => rfl
  | cons e es ih => rw [Expr.collectAll, ih, List.flatMap_cons, Expr.walruses]

theorem covers_cons {t : Tree} : Covers (ts ++ [t]) (t :: ts) := covers_comm ts [t]

theorem covers_compound {operator : String} : Covers ts [compoundAt r operator ts] :=
  covers_children (by simp [Shape.IsPlain]) (by simp [Shape.children, Shape.slots])

theorem declares_targetNode (e : Expr) : x ∉ e.walruses →
    Declares o x [] (targetNode e) e.ownBindings fun t => [t] := by
  refine targetNode.induct
    (fun e => x ∉ e.walruses → Declares o x [] (targetNode e) e.ownBindings fun t => [t])
    (fun es => x ∉ es.flatMap Expr.walruses → Declares o x [] (targetNodes es) (ownBindingsOf es) id)
    ?name ?tuple ?list ?starred ?other ?nil ?cons e
  case name =>
    intro r id _
    rw [targetNode, Expr.ownBindings]
    exact declares_targetName
  case tuple | list =>
    intro r es ih hx
    rw [targetNode, Expr.ownBindings]
    refine (ih ?_).last fun ts => by simpa using covers_compound
    rw [← collectAll_ownWalrus]
    exact fun hmem => hx (List.mem_append_right _ hmem)
  case starred =>
    intro r e ih hx
    rw [targetNode, Expr.ownBindings]
    exact ih fun hmem => hx (List.mem_append_right _ (List.mem_append_left _ hmem))
  case other =>
    intro e hname htuple hlist hstarred hx
    rw [targetNode, Expr.ownBindings]
    · exact (leaves_exprNode e hx).declares
    all_goals assumption
  case nil => exact fun _ => declares_pure (.refl [])
  case cons =>
    intro e es ih ihs hx
    rw [List.flatMap_cons, List.mem_append, not_or] at hx
    rw [targetNodes, ownBindingsOf]
    exact (ih hx.1).bind fun t => (ihs hx.2).last fun ts => covers_cons

theorem declares_targetNodes : (es : List Expr) → x ∉ es.flatMap Expr.walruses →
    Declares o x [] (targetNodes es) (ownBindingsOf es) id
  | [], _ => declares_pure (.refl [])
  | e :: es, hx => by
    rw [List.flatMap_cons, List.mem_append, not_or] at hx
    rw [targetNodes, ownBindingsOf]
    exact (declares_targetNode e hx.1).bind fun t => (declares_targetNodes es hx.2).last
      fun ts => covers_cons

theorem covers_assignment {operator : String} {target value : Tree} (hvalue : Plain value) :
    Covers [target] [nodeAt r (.assignment operator target value)] :=
  covers_node (by simp [Shape.IsPlain]) (by simp [Shape.children, Shape.slots])
    (by simp [Shape.children, Shape.slots, hvalue])

theorem covers_assigned {target value : Tree} (hvalue : Plain value) :
    Covers [target] [nodeAt r (.exprStatement (nodeAt r (.assignment "=" target value)))] := by
  have hassignment : Covers [target] [nodeAt r (.assignment "=" target value)] :=
    covers_assignment hvalue
  exact hassignment.trans
    (covers_children (by simp [Shape.IsPlain]) (by simp [Shape.children, Shape.slots]))

theorem declares_assignName {target : Range} {type : Option String} {t : Tree} (ht : Plain t) :
    Declares o x [] (assignName r target name t type) [.alone name r target] fun t => [t] :=
  declares_binding (.alone name r target) (some t) (List.forall_mem_singleton.mpr ht) rfl
    (fun _ => declares_pure (covers_assigned ht)) fun _ => declares_pure (.refl _)

theorem declares_assignNodes {targets : List Expr} {value : Expr} (hvalue : x ∉ value.walruses)
    (htargets : x ∉ targets.flatMap Expr.walruses) :
    Declares o x [] (assignNodes r targets value) (assignedOwn r targets) id := by
  refine (leaves_exprNode value hvalue).tree fun t ht => ?_
  split
  · rw [assignedOwn]
    exact (declares_assignName ht).last fun u => .refl [u]
  · next hname =>
    rw [assignedOwn]
    · refine (declares_targetNodes targets htargets).last fun ts => Covers.trans ?_ (covers_assigned ht)
      rw [List.append_nil]
      rcases ts with _ | ⟨t₁, _ | ⟨t₂, ts⟩⟩
      · exact covers_compound
      · exact .refl _
      · exact covers_compound
    · exact hname

theorem declares_annotateNodes {target typeHint : Expr} {value : Option Expr}
    (htarget : x ∉ target.walruses) (hvalue : x ∉ value.toList.flatMap Expr.walruses) :
    Declares o x [] (annotateNodes r target typeHint value) (annotatedOwn r target value) id := by
  have hleaves : ∀ e, value = some e → Leaves o x (exprNode e) fun t => [t] := fun e he =>
    leaves_exprNode e (by simpa [he] using hvalue)
  rw [annotateNodes.eq_def]
  split
  · next id =>
    rw [annotatedOwn]
    exact declares_binding (.bare id r) none (by simp) rfl (fun _ => declares_pure (.refl _))
      fun _ => declares_pure (.refl _)
  · rw [annotatedOwn]
    refine (hleaves _ rfl).tree fun t ht => ?_
    exact (declares_assignName ht).last fun u => .refl [u]
  · next hname =>
    rw [annotatedOwn]
    · exact declares_pure (.refl _)
    · exact fun tr id ht _ => hname tr id ht
    · exact fun tr id _ ht _ => hname tr id ht
  · next hname =>
    rw [annotatedOwn]
    rotate_left
    · exact fun tr id ht _ => hname tr id ht
    · exact fun tr id _ ht _ => hname tr id ht
    refine (hleaves _ rfl).tree fun t ht => (leaves_exprNode target htarget).tree fun u hu => ?_
    exact declares_plain (plain_exprStatement (plain_assignment hu ht))

theorem declares_importNodes (names : List String) :
    Declares o x [] (importNodes r names) (names.map (.bare · r)) id := by
  induction names with
  | nil => exact declares_pure (.refl _)
  | cons name rest ih =>
    rw [importNodes, List.map_cons]
    exact declares_binding (.bare name r) none (by simp) rfl (fun _ => ih)
      fun _ => ih.last fun _ => covers_cons

end Simple

/-! ## Resources -/

theorem declares_heldFor {context : Expr} {target : Option Expr} {t : Tree} (ht : Plain t)
    (htarget : x ∉ target.toList.flatMap Expr.walruses) :
    Declares o x [] (heldFor locks context t target) (heldOwn context target)
      fun held => [held.node] := by
  have hassigned : ∀ u, Covers [u] [nodeAt context.range (.assignment "=" u t)] :=
    fun _ => covers_assignment ht
  rw [heldFor.eq_def]
  split
  · refine leaves_isLock.next fun b _ => ?_
    cases b <;> exact declares_pure (covers_of_plain (List.forall_mem_singleton.mpr ht))
  · next r id =>
    refine declares_binding_of (.alone id context.range r) (some t) (List.forall_mem_singleton.mpr ht)
      rfl (fun v s hs ho hopen hown => ?_) fun v => declares_pure (.refl _)
    by_cases hx : id = x
    · subst hx
      refine Runs.bind (x := targetName r id) (Q := fun u s' => u = nodeAt r (.varAccess id (some v)) ∧
        s' = s) ?_ ?_
      · refine (runs_binding?_own hopen).bind ?_
        rintro w _ ⟨rfl, rfl⟩
        rw [hown rfl]
        exact runs_pure ⟨rfl, rfl⟩
      · rintro _ _ ⟨rfl, rfl⟩
        exact (declares_pure (hassigned _)).after ho
          (hs.settles_assigned (b := .alone id context.range r) hopen hown)
    · have hother : Declares o x [] (do
          return Held.resource (nodeAt context.range (.assignment "=" (← targetName r id) t))) []
          fun held => [held.node] := (leaves_targetName hx).declares.last hassigned
      exact hother.other (b := .alone id context.range r) hx s hs ho hopen
  · next target hname =>
    rw [heldOwn]
    · exact (declares_targetNode target (by simpa using htarget)).last hassigned
    · exact hname

theorem declares_heldResources : (resources : List Resource) →
    x ∉ (resources.flatMap Resource.expressions).flatMap Expr.walruses →
    Declares o x [] (heldResources locks resources) (resourcesOwn resources) (·.map Held.node)
  | [], _ => declares_pure (.refl _)
  | ⟨context, target⟩ :: rest, hx => by
    simp only [List.flatMap_cons, List.flatMap_append, List.mem_append, not_or,
      Resource.expressions] at hx
    obtain ⟨⟨hcontext, htarget⟩, hrest⟩ := hx
    rw [heldResources_cons, resourcesOwn, List.flatMap_cons]
    refine (leaves_exprNode context hcontext).tree fun t ht => ?_
    refine (declares_heldFor ht htarget).bind fun held => ?_
    exact (declares_heldResources rest hrest).last fun helds => covers_cons

/-! ## Statements that bind other names only -/

section Others

variable {stmt : Stmt} {body : List Stmt} {signature : Signature}

/-- The declarations of a step are those of other names. -/
def Others (x : String) (build : Build (List Tree)) : Prop :=
  ∀ s : Building, s.Open → Runs build s (fun _ => True) fun ts s' =>
    ∃ made, s'.pending = s.pending ++ made ∧ ∀ v, Declared (made ++ ts) v → IsOther x s'.vars v

theorem others_modifyFrame {change : Frame → Frame} :
    Others x (do modifyFrame change; return []) :=
  fun s _ => (mild_modifyFrame s).bind fun _ _ ⟨hpending, _⟩ => runs_pure
    ⟨[], hpending.trans (List.append_nil _).symm, fun _ hv => absurd hv (not_declared_of_plain nofun)⟩

theorem Others.withPending {build : Build (List Tree)} (hx : Others x build) :
    Others x (withPending build) :=
  fun _ hs => Runs.bind (runs_collectPending (Q := fun p s' => s'.pending = _ ∧
    ∀ v, Declared (p.1 ++ p.2) v → IsOther x s'.vars v) ((hx _ hs.clear).mono
      fun _ _ ⟨_, hmade, hothers⟩ => ⟨rfl, hmade ▸ hothers⟩)) fun _ _ ⟨hpending, hothers⟩ =>
        runs_pure ⟨[], hpending.trans (List.append_nil _).symm, hothers⟩

theorem others_functionNode (hne : signature.name ≠ x) :
    Others x (do return [← functionNode r signature (stmtsNodes locks body)]) := by
  intro s hs
  have hbody : ∀ s : Building, s.Valid AnyName → s.frames ≠ [] →
      Runs (stmtsNodes locks body) s (fun _ => True) fun ts s' => Built AnyName True s ts [] s' :=
    fun _ hs hne => stmtsNodes_runs body ⟨hs, hne, fun _ _ => trivial⟩ fun _ => trivial
  have hshape : Runs (functionNode r signature (stmtsNodes locks body)) s (fun _ => True)
      fun t s' => ∃ f, t = nodeAt r (.varDeclaration s.vars.size (some (nodeAt r f))) ∧
        f.IsFunction ∧ IsOther x s'.vars s.vars.size := by
    refine runs_bound fun _ => ?_
    have hbound := hs.bound signature.name (some "function")
    refine (parameterNames_runs _ hbound.valid).bind fun names s₁ ⟨h₁, hnames, hframes⟩ => ?_
    refine (runs_inFunction h₁ hnames hframes hbody).bind fun ts s₂ ⟨hx, _⟩ => runs_pure
      ⟨_, rfl, trivial, (Building.Open.isOther_bound hne).extends (h₁.vars.trans hx)⟩
  refine ((functionNode_runs hs.valid hs.frames hbody).and hshape).bind ?_
  rintro _ s' ⟨hbuilt, f, rfl, hf, hother⟩
  refine runs_pure ⟨[], (hbuilt.quiet trivial).trans (List.append_nil _).symm, ?_⟩
  -- what is declared in the function is its own affair
  rintro v ⟨u, initializer, hnear, hshape⟩
  rcases near_singleton.mp hnear with rfl | ⟨hnot, -⟩
  · cases hshape
    exact hother
  · exact absurd ⟨_, _, rfl, hf, rfl⟩ hnot

/-- A class moves to the module, and its name is declared. -/
theorem others_class {bases : List Expr} (hinitializers : ∀ e ∈ initializersIn body, x ∉ e.walruses)
    (hne : name ≠ x) : Others x (do
      let c ← openClass name bases body
      let members ← withQualifier name (memberNodes locks c [] body)
      addHoisted (← classNode r name body members)
      let v ← newLocal name (some "type")
      bindName name v
      return [nodeAt r (.varDeclaration v none)]) := by
  intro s hs
  refine runs_class (fun hs hc => spared_memberNodes body hinitializers hs hc) hs fun t s₁ h₁ =>
    runs_modify_bind (runs_bound fun _ => ?_)
  obtain ⟨made, hmade, hothers⟩ := h₁.pending
  refine runs_pure ⟨made, hmade, fun v hv => ?_⟩
  rcases declared_append.mp hv with hv | hv
  · exact (hothers v hv).extends extends_bound
  · cases declared_varDeclaration (by simp) hv
    exact Building.Open.isOther_bound hne

/-- What does not redefine a name and is no binding of it leaves it alone. -/
theorem changed?_ne (hes : ∀ e ∈ es, e.redefines x = false) (hbind : ∀ r, .bind x r ∉ es) :
    ∀ e ∈ es, e.changed? ≠ some x := by
  intro e he hchanged
  have hredefines := hes e he
  cases e with
  | bind y r =>
    cases hchanged
    exact hbind r he
  | define y | declare y => simp_all [Event.changed?, Event.redefines]
  | read | routine => cases hchanged

/-- A statement that does not bind a name and declares others only. -/
theorem declares_of_others (hx : Others x (stmtNodes locks stmt))
    (hes : ∀ e ∈ stmt.events .built o, e.redefines x = false)
    (hbind : ∀ r, .bind x r ∉ stmt.events .built o) :
    Declares o x [] (stmtNodes locks stmt) [] id := by
  intro s hs ho hopen
  refine (((stmtNodes_runs (E := fun _ => True) stmt (hs.inside _) fun _ => trivial).and
    (traces_stmtNodes o stmt s ho)).and (hx s hs)).mono
      fun _ s' ⟨⟨hbuilt, hfollows, _⟩, made, _, hothers⟩ => ?_
  have hspared : Spared x s s' := spared_of_pending (hbuilt.reaches hs) (hbuilt.quiet trivial)
  exact hspared.settles (hfollows.keeps hs.valid.bounded (changed?_ne hes hbind)) hopen fun v hv =>
    hothers v (declared_append.mpr (.inr hv))

end Others

/-! ## Statements -/

section Statements

variable {body : List Stmt}

theorem leaves_exprNodes (es : List Expr) (hx : x ∉ es.flatMap Expr.walruses) :
    Leaves o x (exprNodes es) id := by
  rw [← collectAll_ownWalrus] at hx
  exact (spares_exprNodes es hx).leaves (traces_exprNodes es) fun ev hev hchanged =>
    hx (mem_walruses_of_changedOf es ev hev hchanged)

theorem declares_simpleNodes {word : String} (operands : List Expr)
    (hx : x ∉ operands.flatMap Expr.walruses) :
    Declares o x [] (simpleNodes r word operands) [] id := by
  refine (leaves_exprNodes operands hx).next fun ts hts => ?_
  split
  · exact declares_pure (.refl _)
  · exact declares_plain (plain_exprStatement (plain_compound hts))

theorem declares_exprStatementNodes {e : Expr} (hx : x ∉ e.walruses) :
    Declares o x [] (exprStatementNodes r e) [] id := by
  rw [exprStatementNodes.eq_def]
  split
  · exact declares_pure (.refl _)
  · exact (leaves_exprNode e hx).tree fun t ht => declares_plain (plain_exprStatement ht)

theorem declares_throwNodes {error cause : Option Expr}
    (herror : x ∉ error.toList.flatMap Expr.walruses)
    (hcause : x ∉ cause.toList.flatMap Expr.walruses) :
    Declares o x [] (throwNodes r error cause) [] id := by
  have hleaves : ∀ e, x ∉ [e].flatMap Expr.walruses → Leaves o x (exprNode e) fun t => [t] :=
    fun e he => leaves_exprNode e (by simpa using he)
  have hthrown : ∀ {error : Option Tree}, (∀ t ∈ error.toList, Plain t) →
      Declares o x [] (pure [nodeAt r (.throwStatement error)]) [] id := fun herror =>
    declares_plain (plain_node (by simp [Shape.IsPlain])
      (by simpa [Shape.children, Shape.slots] using herror))
  rw [throwNodes.eq_def]
  split
  · exact hthrown (List.forall_mem_nil _)
  · exact (hleaves _ herror).next fun t ht => hthrown ht
  · refine (hleaves _ herror).next fun t ht => (hleaves _ hcause).next fun u hu =>
      hthrown (List.forall_mem_singleton.mpr (plain_compound ?_))
    exact List.forall_mem_append.mpr ⟨ht, hu⟩

theorem Declares.block {build : Build (List Tree)} (hx : Declares o x [] build bs id) (owner : Range)
    (body : List Stmt) : Declares o x [] build bs fun ts => [blockAt owner body ts] :=
  hx.mono fun _ => covers_block

theorem Declares.block? (hx : Declares o x [] (stmtsNodes locks body) (ownBindingsIn body) id)
    (owner : Range) : Declares o x [] (stmtsNodes locks body) (ownBindingsIn body) fun ts =>
      (blockAt? owner body ts).toList := by
  cases body with
  | nil =>
    rw [stmtsNodes, ownBindingsIn]
    exact declares_pure (.refl [])
  | cons stmt rest => exact hx.block owner (stmt :: rest)

/-- A handler: the name of a caught error is another one. -/
theorem Declares.withCaught {build : Build Tree} (hx : Declares o x [] build bs fun t => [t])
    (hbuilt : ∀ s : Building, s.Open →
      Runs build s (fun _ => True) fun t s' => Built AnyName True s [t] [] s')
    (caught : Option String) (types : List String) (hcaught : x ∉ caught.toList) :
    Declares o x [] (withCaught caught types build) bs fun p => [p.2] := by
  rcases caught with _ | name
  · exact hx.last fun t => .refl [t]
  · have hne : name ≠ x := fun heq => hcaught (by simp [heq])
    intro s hs ho hopen
    have hpassed : Runs (Source.withCaught (some name) types build) s (fun _ => True) fun p s' =>
        s.Reaches s' → ∃ made, Settles x [] bs [p.2] made s s' := by
      refine runs_get_bind (runs_bound fun _ => ?_)
      refine (hx _ (hs.bound name _) ho (Building.isDeclared_bound.trans hopen)).bind ?_
      rintro t s₁ ⟨made, h₁⟩
      have hrefl : Follows (fun _ => True) [] s₁ s₁ := .refl s₁
      refine ((follows_restore hrefl fun _ v hv => Nat.lt_of_lt_of_le
        (hs.valid.bounded.lt_of_head hv) (extends_bound.trans h₁.reaches.grows.vars).size_le).and
          (mild_modifyFrame s₁)).bind ?_
      rintro _ s₂ ⟨⟨h₂, -, hvars⟩, hpending, -⟩
      refine runs_pure fun hreaches => ⟨made, ?_⟩
      have hbefore : ∀ type, ((s.bound name type).sight x).own = (s.sight x).own :=
        fun _ => (Building.keeps_bound hne).own
      have hbehind : (s₁.sight x).Keeps (s₂.sight x) :=
        h₂.keeps h₁.reaches.isOpen.valid.bounded (by simpa [Event.changed?] using hne)
      exact
      { reaches := hreaches
        pending := hpending.trans h₁.pending
        isDeclared := hbehind.isDeclared.trans h₁.isDeclared
        near := fun u hu => absurd hu not_near_nil
        binds := by
          rw [hbehind.own, ← hbefore]
          exact h₁.binds
        declares := by
          rw [hvars, hbehind.own, ← hbefore]
          exact h₁.declares }
    refine ((withCaught_runs hs.valid hs.frames fun s' hs' hne' => hbuilt s' ⟨hs', hne'⟩).and
      hpassed).mono ?_
    rintro p s' ⟨⟨h, -⟩, hp⟩
    exact hp (h.reaches hs)

theorem covers_first (hs : shape.IsPlain) (h : us ⊆ shape.children)
    (h' : ∀ t ∈ shape.children, t ∈ us ∨ Plain t) : Covers (ts ++ us) (nodeAt r shape :: ts) :=
  ((Covers.refl ts).append (covers_node hs h h')).trans covers_cons

/-! ### Statements around statements -/

section Around

variable {condition : Expr} {orElse finalBody : List Stmt} {handlers : List Handler}

theorem declares_forEach {isAsync : Bool} {target source : Expr} (htarget : x ∉ target.walruses)
    (hsource : x ∉ source.walruses)
    (hbody : Declares o x [] (stmtsNodes locks body) (ownBindingsIn body) id)
    (horElse : Declares o x [] (stmtsNodes locks orElse) (ownBindingsIn orElse) id) :
    Declares o x [] (stmtNodes locks (.forEach r isAsync target source body orElse))
      (Stmt.forEach r isAsync target source body orElse).ownBindings id := by
  rw [stmtNodes, Stmt.ownBindings]
  refine .withPending ((leaves_exprNode source hsource).tree fun t ht => ?_)
  refine (declares_targetNode target htarget).collectPending.bind fun p => ?_
  refine (hbody.block r body).bind fun ts => horElse.last fun us => covers_first ?_ ?_ ?_
  · simp [Shape.IsPlain]
  · simp [Shape.children, Shape.slots]
  · intro c hc
    have hc : c ∈ p.1 ∨ c = p.2 ∨ c = t ∨ c = blockAt r body ts := by
      simpa [Shape.children, Shape.slots] using hc
    rcases hc with hc | rfl | rfl | rfl
    · simp [hc]
    · simp
    · exact .inr ht
    · simp

theorem declares_whileLoop (hcondition : x ∉ condition.walruses)
    (hbody : Declares o x [] (stmtsNodes locks body) (ownBindingsIn body) id)
    (horElse : Declares o x [] (stmtsNodes locks orElse) (ownBindingsIn orElse) id) :
    Declares o x [] (stmtNodes locks (.whileLoop r condition body orElse))
      (Stmt.whileLoop r condition body orElse).ownBindings id := by
  rw [stmtNodes, Stmt.ownBindings]
  refine .withPending ((hbody.block r body).bind fun ts => ?_)
  refine (leaves_exprNode condition hcondition).tree fun t ht => ?_
  refine horElse.last fun us => covers_first ?_ ?_ ?_
  · simp [Shape.IsPlain]
  · simp [Shape.children, Shape.slots]
  · simp [Shape.children, Shape.slots, ht]

theorem declares_choose (hcondition : x ∉ condition.walruses)
    (hbody : Declares o x [] (stmtsNodes locks body) (ownBindingsIn body) id)
    (horElse : Declares o x [] (stmtsNodes locks orElse) (ownBindingsIn orElse) id) :
    Declares o x [] (stmtNodes locks (.choose r condition body orElse))
      (Stmt.choose r condition body orElse).ownBindings id := by
  rw [stmtNodes, Stmt.ownBindings]
  refine .withPending ((leaves_exprNode condition hcondition).tree fun t ht => ?_)
  refine (hbody.block r body).bind fun ts => (horElse.block? r).last fun us => covers_node ?_ ?_ ?_
  · simp [Shape.IsPlain]
  · simp [Shape.children, Shape.slots]
  · intro c hc
    have hc : c = t ∨ c = blockAt r body ts ∨ c ∈ blockAt? r orElse us := by
      simpa [Shape.children, Shape.slots] using hc
    rcases hc with rfl | rfl | hc
    · exact .inr ht
    · simp
    · simp [Option.mem_def.mp hc]

theorem declares_guarded
    (hbody : Declares o x [] (stmtsNodes locks body) (ownBindingsIn body) id)
    (hhandlers : Declares o x [] (handlerNodes locks handlers) (ownBindingsInHandlers handlers) id)
    (horElse : Declares o x [] (stmtsNodes locks orElse) (ownBindingsIn orElse) id)
    (hfinal : Declares o x [] (stmtsNodes locks finalBody) (ownBindingsIn finalBody) id) :
    Declares o x [] (stmtNodes locks (.guarded r body handlers orElse finalBody))
      (Stmt.guarded r body handlers orElse finalBody).ownBindings id := by
  rw [stmtNodes, Stmt.ownBindings]
  refine .withPending ((hbody.block r body).bind fun ts => hhandlers.bind fun catches => ?_)
  refine (hfinal.block? r).bind fun us => horElse.last fun rest => covers_first ?_ ?_ ?_
  · simp [Shape.IsPlain]
  · simp [Shape.children, Shape.slots]
  · intro c hc
    have hc : c = blockAt r body ts ∨ c ∈ catches ∨ c ∈ blockAt? r finalBody us := by
      simpa [Shape.children, Shape.slots] using hc
    rcases hc with rfl | hc | hc
    · simp
    · simp [hc]
    · simp [Option.mem_def.mp hc]

theorem declares_handler {type : Option Expr} {caught : Option String} (hcaught : x ∉ caught.toList)
    (hbody : Declares o x [] (stmtsNodes locks body) (ownBindingsIn body) id)
    (hrest : Declares o x [] (handlerNodes locks handlers) (ownBindingsInHandlers handlers) id) :
    Declares o x [] (handlerNodes locks (.mk r type caught body :: handlers))
      (ownBindingsInHandlers (.mk r type caught body :: handlers)) id := by
  rw [handlerNodes, ownBindingsInHandlers]
  split
  · exact fun _ _ _ _ => runs_throw trivial
  · next types _ =>
    have hblock : Declares o x [] (do return blockAt r body (← stmtsNodes locks body))
        (ownBindingsIn body) fun t => [t] :=
      hbody.last fun ts => by simpa using covers_block
    refine (hblock.withCaught (fun s hs => runs_caught hs) caught types hcaught).bind fun p => ?_
    refine hrest.last fun ts => covers_first ?_ ?_ ?_
    · simp [Shape.IsPlain]
    · simp [Shape.children, Shape.slots]
    · simp [Shape.children, Shape.slots]

end Around

/-! ### Functions and classes -/

theorem declares_function {signature : Signature}
    (hes : ∀ e ∈ (Stmt.function r signature body).events .built o, e.redefines x = false) :
    Declares o x [] (stmtNodes locks (.function r signature body))
      (Stmt.function r signature body).ownBindings id := by
  have hne : signature.name ≠ x := by
    simpa [Event.redefines] using hes (.define signature.name) (by simp [Stmt.events])
  rw [Stmt.ownBindings]
  refine declares_of_others ?_ hes fun r' hbind => ?_
  · rw [stmtNodes]
    exact (others_functionNode hne).withPending
  · rw [Stmt.events, List.mem_cons, List.mem_cons] at hbind
    rcases hbind with hbind | hbind | hbind
    · cases hbind
    · cases hbind
    · cases changed?_inward changed?_captured _ hbind

theorem declares_classType {name : String} {bases : List Expr}
    (hes : ∀ e ∈ (Stmt.classType r name bases body).events .built o, e.redefines x = false)
    (hx : x ∉ (initializersIn body).flatMap Expr.walruses) :
    Declares o x [] (stmtNodes locks (.classType r name bases body))
      (Stmt.classType r name bases body).ownBindings id := by
  have hne : name ≠ x := by
    simpa [Event.redefines] using hes (.define name) (by simp [Stmt.events])
  rw [Stmt.ownBindings]
  refine declares_of_others ?_ hes fun r' hbind => ?_
  · rw [stmtNodes]
    exact (others_class (fun e he hmem => hx (List.mem_flatMap_of_mem he hmem)) hne).withPending
  · rw [Stmt.events, List.mem_append, List.mem_singleton] at hbind
    rcases hbind with hbind | hbind
    · exact not_bind_mem_memberEvents o .built x r' body hbind
    · cases hbind

/-! ### All statements -/

mutual

/-- **A statement declares what it binds**, if the name is not redefined and is bound by no expression
on the way. -/
theorem declares_stmtNodes : (stmt : Stmt) → (∀ e ∈ stmt.events .built o, e.redefines x = false) →
    x ∉ stmt.walruses → Declares o x [] (stmtNodes locks stmt) stmt.ownBindings id
  | .function r signature body, hes, _ => declares_function hes
  | .classType r name bases body, hes, hx => by
    rw [Stmt.walruses] at hx
    exact declares_classType hes hx
  | .returnValue r none, _, _ => by
    rw [stmtNodes, Stmt.ownBindings]
    exact declares_plain (plain_returnStatement (List.forall_mem_nil _))
  | .returnValue r (some value), _, hx => by
    have hvalue : x ∉ value.walruses := by simpa [Stmt.walruses] using hx
    rw [stmtNodes, Stmt.ownBindings]
    exact .withPending ((leaves_exprNode value hvalue).next fun t ht =>
      declares_plain (plain_returnStatement ht))
  | .assign r targets value, _, hx => by
    rw [Stmt.walruses, List.mem_append, not_or] at hx
    rw [stmtNodes, Stmt.ownBindings]
    exact (declares_assignNodes hx.1 hx.2).withPending
  | .augment r target op value, _, hx => by
    rw [Stmt.walruses, List.mem_append, not_or] at hx
    rw [stmtNodes, Stmt.ownBindings]
    exact .withPending ((leaves_exprNode target hx.1).tree fun t ht =>
      (leaves_exprNode value hx.2).tree fun u hu =>
        declares_plain (plain_exprStatement (plain_assignment ht hu)))
  | .annotate r target typeHint value, _, hx => by
    rw [Stmt.walruses, List.mem_append, not_or] at hx
    rw [stmtNodes, Stmt.ownBindings]
    exact (declares_annotateNodes hx.1 hx.2).withPending
  | .forEach r isAsync target source body orElse, hes, hx => by
    rw [Stmt.events] at hes
    simp only [List.forall_mem_append] at hes
    simp only [Stmt.walruses, List.mem_append, not_or] at hx
    exact declares_forEach hx.1.1.1 hx.1.1.2 (declares_stmtsNodes body hes.2.2.1 hx.1.2)
      (declares_stmtsNodes orElse hes.2.2.2 hx.2)
  | .whileLoop r condition body orElse, hes, hx => by
    rw [Stmt.events, Order.join] at hes
    simp only [List.forall_mem_append] at hes
    simp only [Stmt.walruses, List.mem_append, not_or] at hx
    exact declares_whileLoop hx.1.1 (declares_stmtsNodes body hes.1.1 hx.1.2)
      (declares_stmtsNodes orElse hes.2 hx.2)
  | .choose r condition body orElse, hes, hx => by
    rw [Stmt.events] at hes
    simp only [List.forall_mem_append] at hes
    simp only [Stmt.walruses, List.mem_append, not_or] at hx
    exact declares_choose hx.1.1 (declares_stmtsNodes body hes.2.1 hx.1.2)
      (declares_stmtsNodes orElse hes.2.2 hx.2)
  | .withResources r resources body, hes, hx => by
    rw [Stmt.events, List.forall_mem_append] at hes
    rw [Stmt.walruses, List.mem_append, not_or] at hx
    rw [stmtNodes, Stmt.ownBindings]
    refine .withPending ((declares_heldResources resources hx.1).bind fun held => ?_)
    refine ((declares_stmtsNodes body hes.2 hx.2).block r body).last fun ts => ?_
    rw [List.append_nil]
    exact .trans (covers_comm [blockAt r body ts] (held.map Held.node)) covers_holdAll
  | .matchCases r subject cases, hes, hx => by
    rw [Stmt.events, List.forall_mem_append] at hes
    rw [Stmt.walruses, List.mem_append, not_or] at hx
    rw [stmtNodes, Stmt.ownBindings]
    refine .withPending ((declares_simpleNodes [subject] (by simpa using hx.1)).bind fun ts => ?_)
    refine (declares_caseNodes r cases hes.2 hx.2).last fun us => ?_
    rw [List.append_nil]
    exact covers_comm us ts
  | .throwError r error cause, _, hx => by
    rw [Stmt.walruses, List.mem_append, not_or] at hx
    rw [stmtNodes, Stmt.ownBindings]
    exact (declares_throwNodes hx.1 hx.2).withPending
  | .guarded r body handlers orElse finalBody, hes, hx => by
    rw [Stmt.events, Order.join] at hes
    simp only [List.forall_mem_append] at hes
    simp only [Stmt.walruses, List.mem_append, not_or] at hx
    exact declares_guarded (declares_stmtsNodes body hes.1 hx.1.1.1)
      (declares_handlerNodes handlers hes.2.1 hx.1.1.2)
      (declares_stmtsNodes orElse hes.2.2.2 hx.1.2) (declares_stmtsNodes finalBody hes.2.2.1 hx.2)
  | .imports r names, _, _ => by
    rw [stmtNodes, Stmt.ownBindings]
    exact (declares_importNodes names).withPending
  | .globals r names, hes, _ => by
    rw [Stmt.ownBindings]
    refine declares_of_others ?_ hes fun r' hbind => ?_
    · rw [stmtNodes]
      exact others_modifyFrame
    · simp [Stmt.events] at hbind
  | .nonlocals r names, hes, _ => by
    rw [Stmt.ownBindings]
    refine declares_of_others ?_ hes fun r' hbind => ?_
    · rw [stmtNodes]
      exact others_modifyFrame
    · simp [Stmt.events] at hbind
  | .expr r value, _, hx => by
    rw [Stmt.walruses] at hx
    rw [stmtNodes, Stmt.ownBindings]
    exact (declares_exprStatementNodes hx).withPending
  | .simple r word operands, _, hx => by
    rw [Stmt.walruses] at hx
    rw [stmtNodes, Stmt.ownBindings]
    exact (declares_simpleNodes operands hx).withPending

theorem declares_stmtsNodes : (body : List Stmt) →
    (∀ e ∈ eventsIn .built o body, e.redefines x = false) → x ∉ walrusesIn body →
      Declares o x [] (stmtsNodes locks body) (ownBindingsIn body) id
  | [], _, _ => by
    rw [stmtsNodes, ownBindingsIn]
    exact declares_pure (.refl _)
  | stmt :: rest, hes, hx => by
    rw [eventsIn, List.forall_mem_append] at hes
    rw [walrusesIn, List.mem_append, not_or] at hx
    rw [stmtsNodes, ownBindingsIn]
    refine (declares_stmtNodes stmt hes.1 hx.1).bind fun ts => ?_
    refine (declares_stmtsNodes rest hes.2 hx.2).last fun us => ?_
    rw [List.append_nil]
    exact covers_comm us ts

theorem declares_caseNodes : (r : Range) → (cases : List (List Stmt)) →
    (∀ e ∈ caseEvents .built o cases, e.redefines x = false) → x ∉ walrusesInCases cases →
      Declares o x [] (caseNodes locks r cases) (ownBindingsInCases cases) id
  | _, [], _, _ => by
    rw [caseNodes, ownBindingsInCases]
    exact declares_pure (.refl _)
  | r, body :: rest, hes, hx => by
    rw [caseEvents, List.forall_mem_append] at hes
    rw [walrusesInCases, List.mem_append, not_or] at hx
    rw [caseNodes, ownBindingsInCases]
    refine ((declares_stmtsNodes body hes.1 hx.1).block r body).bind fun ts => ?_
    exact (declares_caseNodes r rest hes.2 hx.2).last fun us => covers_cons

theorem declares_handlerNodes : (handlers : List Handler) →
    (∀ e ∈ handlerEvents .built o handlers, e.redefines x = false) →
      x ∉ walrusesInHandlers handlers →
        Declares o x [] (handlerNodes locks handlers) (ownBindingsInHandlers handlers) id
  | [], _, _ => by
    rw [handlerNodes, ownBindingsInHandlers]
    exact declares_pure (.refl _)
  | .mk r type name body :: rest, hes, hx => by
    simp only [handlerEvents, List.forall_mem_append] at hes
    rw [walrusesInHandlers, List.mem_append, not_or] at hx
    refine declares_handler (fun hmem => ?_) (declares_stmtsNodes body hes.2.1 hx.1)
      (declares_handlerNodes rest hes.2.2.2 hx.2)
    simpa [Event.redefines] using hes.1 (.define x) (List.mem_map_of_mem hmem)

end

end Statements

end ModelLint.Source
