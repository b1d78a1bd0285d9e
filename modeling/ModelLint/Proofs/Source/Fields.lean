import ModelLint.Proofs.Source.Nodes

/-!
# What the fields of a class keep

The variables of the fields of a class come up when it is opened, and are owed a node until its body
has been gone through.

* `Field.nodup_ofBindings`, `Field.mem_ofBindings`: one field for each name that is bound.
* `unplaced`: the variables of the fields that have no node yet.
* `OpenClass.Sound`: what is known of a class while its members are built.
* `openClass_runs`, `assignedFields_runs`, **`remainingFields_runs`**: the account of the fields of
  a class, from the first to the last.
-/

namespace ModelLint.Source

open Build

variable {nm : String → Prop} {E : BuildFailure → Prop} {s s' : Building} {r : Range}
  {name : String} {v : VariableId} {calm : Prop} {ts : List Tree}

/-! ## Fields of bindings -/

namespace Field

theorem map_name_add (fields : List Field) (b : Binding) :
    (add fields b).map Binding.name =
      if b.name ∈ fields.map Binding.name then fields.map Binding.name
      else fields.map Binding.name ++ [b.name] := by
  have hany : (fields.any fun f => f.name = b.name) = true ↔ b.name ∈ fields.map Binding.name := by
    simp only [List.any_eq_true, decide_eq_true_eq, List.mem_map]
  rw [add]
  split
  · next h =>
    rw [if_pos (hany.mp h), List.map_map]
    refine List.map_congr_left fun f _ => ?_
    rw [Function.comp_apply]
    split <;> rfl
  · next h =>
    rw [if_neg fun hb => h (hany.mpr hb), List.map_append]
    rfl

theorem nodup_foldl_add (bindings : List Binding) : ∀ {fields : List Field},
    (fields.map Binding.name).Nodup → ((bindings.foldl add fields).map Binding.name).Nodup := by
  induction bindings with
  | nil => exact fun h => h
  | cons b rest ih =>
    intro fields h
    refine ih ?_
    rw [map_name_add]
    split
    · exact h
    · next hb => exact List.nodup_append.mpr ⟨h, List.nodup_singleton _, by simp_all⟩

theorem mem_foldl_add (bindings : List Binding) : ∀ {fields : List Field} {name : String},
    name ∈ (bindings.foldl add fields).map Binding.name ↔
      name ∈ fields.map Binding.name ∨ name ∈ bindings.map Binding.name := by
  induction bindings with
  | nil => simp
  | cons b rest ih =>
    intro fields name
    rw [List.foldl_cons, ih, map_name_add, List.map_cons, List.mem_cons]
    split
    · next hb =>
      constructor
      · rintro (h | h)
        · exact .inl h
        · exact .inr (.inr h)
      · rintro (h | rfl | h)
        · exact .inl h
        · exact .inl hb
        · exact .inr h
    · rw [List.mem_append, List.mem_singleton, or_assoc]

theorem nodup_ofBindings (bindings : List Binding) :
    ((ofBindings bindings).map Binding.name).Nodup :=
  nodup_foldl_add bindings List.nodup_nil

theorem mem_ofBindings {bindings : List Binding} {name : String} :
    name ∈ (ofBindings bindings).map Binding.name ↔ name ∈ bindings.map Binding.name :=
  (mem_foldl_add bindings).trans (by simp)

theorem binding_of_mem_foldl_add {bindings : List Binding} : ∀ {fields : List Field} {f : Field},
    f ∈ bindings.foldl add fields →
      ∃ d ∈ fields ++ bindings, d.name = f.name ∧ d.isNested = f.isNested := by
  induction bindings with
  | nil => exact fun h => ⟨_, by simpa using h, rfl, rfl⟩
  | cons b rest ih =>
    intro fields f h
    obtain ⟨d, hd, hname, hnested⟩ := ih h
    rcases List.mem_append.mp hd with hd | hd
    · rw [add] at hd
      split at hd
      · obtain ⟨g, hg, rfl⟩ := List.mem_map.mp hd
        refine ⟨g, List.mem_append_left _ hg, ?_, ?_⟩
        · rw [← hname]
          split <;> rfl
        · rw [← hnested]
          split <;> rfl
      · refine ⟨d, ?_, hname, hnested⟩
        rw [List.append_cons]
        exact List.mem_append_left rest hd
    · exact ⟨d, by simp [hd], hname, hnested⟩

theorem binding_of_mem_ofBindings {bindings : List Binding} {f : Field}
    (h : f ∈ ofBindings bindings) : ∃ d ∈ bindings, d.name = f.name ∧ d.isNested = f.isNested :=
  binding_of_mem_foldl_add h

end Field

/-! ## Fields without a node -/

/-- The variables of the fields that have no node yet. -/
def unplaced (fields : List (Field × VariableId)) (emitted : List String) : List VariableId :=
  (fields.filter fun e => !emitted.contains e.1.name).map (·.2)

section Fields

variable {own : List (Field × VariableId)} {emitted : List String} {f : Field}

theorem unplaced_nil : unplaced own [] = own.map (·.2) := by
  simp [unplaced]

theorem unplaced_cons_of_emitted (hf : emitted.contains f.name = true) :
    unplaced ((f, v) :: own) emitted = unplaced own emitted := by
  simp [unplaced, List.contains_iff_mem.mp hf]

theorem unplaced_cons_of_new (hf : emitted.contains f.name = false) :
    unplaced ((f, v) :: own) emitted = v :: unplaced own emitted := by
  rw [unplaced, List.filter_cons_of_pos (by simp only [hf, Bool.not_false])]
  rfl

theorem unplaced_emit_of_not_mem (hname : name ∉ own.map fun e => e.1.name) :
    unplaced own (name :: emitted) = unplaced own emitted := by
  refine congrArg (List.map _) (List.filter_congr fun e he => ?_)
  have hne : e.1.name ≠ name := fun heq => hname (List.mem_map.mpr ⟨e, he, heq⟩)
  rw [List.contains_cons, beq_eq_false_iff_ne.mpr hne, Bool.false_or]

theorem unplaced_perm_emit (hown : (own.map fun e => e.1.name).Nodup)
    (hname : emitted.contains name = false) (hfind : own.find? (fun e => e.1.name = name) = some (f, v)) :
    (unplaced own emitted).Perm (v :: unplaced own (name :: emitted)) := by
  induction own with
  | nil => cases hfind
  | cons e own ih =>
    obtain ⟨g, w⟩ := e
    obtain ⟨hnew, hrest⟩ := List.nodup_cons.mp hown
    by_cases heq : g.name = name
    · rw [List.find?_cons_of_pos (by simpa using heq)] at hfind
      cases hfind
      subst heq
      rw [unplaced_cons_of_new hname, unplaced_cons_of_emitted (by simp),
        unplaced_emit_of_not_mem hnew]
    · rw [List.find?_cons_of_neg (by simpa using heq)] at hfind
      by_cases hemitted : emitted.contains g.name
      · rw [unplaced_cons_of_emitted hemitted, unplaced_cons_of_emitted (by simp_all)]
        exact ih hrest hfind
      · rw [unplaced_cons_of_new (by simpa using hemitted), unplaced_cons_of_new (by simp_all)]
        exact ((ih hrest hfind).cons w).trans (.swap _ _ _)

theorem fieldVariables_runs : (fields : List Field) → {s : Building} → s.Valid nm →
    Runs (fieldVariables fields) s E fun own s' =>
      Built nm True s [] (own.map (·.2)) s' ∧ own.map (·.1) = fields ∧
        ∀ e ∈ own, Denotes s'.vars (· = .field) e.1.name e.2
  | [], s, hs => runs_pure ⟨.refl hs, rfl, fun _ he => nomatch he⟩
  | f :: rest, s, hs => by
    refine (runs_newVariable hs).bind fun v s₁ ⟨h₁, hv, _⟩ => ?_
    refine (fieldVariables_runs rest h₁.valid).bind fun own s₂ ⟨h₂, hfields, hown⟩ =>
      runs_pure ⟨(h₁.trans h₂).weaken fun _ => ⟨trivial, trivial⟩, ?_, fun e he => ?_⟩
    · rw [List.map_cons, hfields]
    · rcases List.mem_cons.mp he with rfl | he
      · exact hv.extends h₂.vars
      · exact hown e he

theorem fieldAt_runs {s₀ : Building} {modifiers : List String} {initializer : Option Tree}
    {owed owed' : List VariableId} (h : Built nm calm s₀ (ts ++ initializer.toList) owed s)
    (howed : owed.Perm (v :: owed')) (hv : Denotes s.vars (· = .field) name v) :
    Runs (fieldAt r modifiers name v initializer) s E fun t s' =>
      s' = s ∧ (∃ l q m, t = fieldNode l q m name v initializer) ∧
        Built nm calm s₀ (ts ++ [t]) owed' s' := by
  refine runs_get_bind (runs_qualified.bind fun q s₁ hs₁ => runs_pure ⟨hs₁, ⟨_, _, _, rfl⟩, ?_⟩)
  subst hs₁
  exact (h.fieldNode List.perm_append_comm howed hv).perm (fun hc => hc)
    (List.perm_append_singleton _ _).symm (.refl _)

end Fields

/-! ## Classes -/

/-- An open class is sound: its own fields have different names, and its names are those of
fields. -/
structure OpenClass.Sound (c : OpenClass) (vars : Array Variable) : Prop where
  /-- Own fields have different names. -/
  nodup : (c.own.map fun e => e.1.name).Nodup
  /-- Own fields are fields. -/
  own : ∀ e ∈ c.own, Denotes vars (· = .field) e.1.name e.2
  /-- Own and inherited fields are fields. -/
  all : NamesDenote vars (· = .field) c.all

theorem OpenClass.Sound.extends {c : OpenClass} {vars vars' : Array Variable} (h : c.Sound vars)
    (hx : Extends vars vars') : c.Sound vars' :=
  ⟨h.nodup, fun e he => (h.own e he).extends hx, h.all.extends hx⟩

theorem lookup_own {own : List (Field × VariableId)} (hnodup : (own.map fun e => e.1.name).Nodup)
    {e : Field × VariableId} (he : e ∈ own) :
    (own.map fun e => (e.1.name, e.2)).lookup e.1.name = some e.2 := by
  obtain ⟨l₁, l₂, rfl⟩ := List.append_of_mem he
  refine List.lookup_eq_some_iff.mpr ⟨_, _, by rw [List.map_append, List.map_cons], fun p hp => ?_⟩
  obtain ⟨g, hg, rfl⟩ := List.mem_map.mp hp
  rw [List.map_append, List.map_cons] at hnodup
  have hne := (List.nodup_append.mp hnodup).2.2 _ (List.mem_map.mpr ⟨g, hg, rfl⟩) _
    List.mem_cons_self
  simpa using Ne.symm hne

section Classes

variable {c : OpenClass} {s₀ : Building}

/-- The fields that an assignment binds get nodes. An initializer goes to the only one. -/
theorem assignedFields_runs (hc : c.Sound s.vars) : (names : List String) →
    {emitted : List String} → {initializer : Option Tree} → {ts : List Tree} →
    Built nm calm s₀ (ts ++ initializer.toList) (unplaced c.own emitted) s →
    (initializer = none ∨ ∃ id, names = [id] ∧ emitted.contains id = false ∧
      id ∈ c.own.map fun e => e.1.name) →
    Runs (assignedFields c r emitted initializer names) s E fun p s' => s' = s ∧
      (∀ t ∈ p.1, t.shape.isOutermost) ∧ Built nm calm s₀ (ts ++ p.1) (unplaced c.own p.2) s'
  | [], emitted, initializer, ts, h, hinitializer => by
    obtain rfl : initializer = none := by
      rcases hinitializer with hnone | ⟨id, hid, -⟩
      · exact hnone
      · cases hid
    exact runs_pure ⟨rfl, (fun _ ht => nomatch ht), h⟩
  | name :: rest, emitted, initializer, ts, h, hinitializer => by
    rw [assignedFields]
    split
    · next f v hemitted hfind =>
      have hperm := unplaced_perm_emit hc.nodup hemitted hfind
      obtain rfl : f.name = name := by simpa using List.find?_some hfind
      refine (fieldAt_runs h hperm (hc.own _ (List.mem_of_find?_eq_some hfind))).bind
        fun t s₁ ⟨hs₁, ht, h₁⟩ => ?_
      subst s₁
      rw [← List.append_nil (ts ++ [t])] at h₁
      refine (assignedFields_runs hc rest h₁ (.inl rfl)).bind
        fun (us, emitted') s₂ ⟨hs₂, hus, h₂⟩ => runs_pure ⟨hs₂, fun u hu => ?_, ?_⟩
      · rcases List.mem_cons.mp hu with rfl | hu
        · obtain ⟨l, q, m, rfl⟩ := ht
          rfl
        · exact hus u hu
      · simpa using h₂
    · next hother =>
      refine assignedFields_runs hc rest h (.inl ?_)
      rcases hinitializer with hnone | ⟨id, hid, hemitted, hmem⟩
      · exact hnone
      · cases hid
        obtain ⟨e, he, hname⟩ := List.mem_map.mp hmem
        have hfound : (c.own.find? fun e => e.1.name = name).isSome :=
          List.find?_isSome.mpr ⟨e, he, by simpa using hname⟩
        obtain ⟨⟨f, v⟩, hfind⟩ := Option.isSome_iff_exists.mp hfound
        exact (hother f v hemitted hfind).elim

/-- In the end all fields without a node get one. -/
theorem remainingFields_runs {emitted : List String} : (own : List (Field × VariableId)) →
    (∀ e ∈ own, Denotes s.vars (· = .field) e.1.name e.2) → {ts : List Tree} →
    Built nm calm s₀ ts (unplaced own emitted) s →
    Runs (remainingFields emitted own) s E fun us s' => s' = s ∧
      (∀ u ∈ us, u.shape.isOutermost) ∧ Built nm calm s₀ (ts ++ us) [] s'
  | [], _, ts, h => runs_pure ⟨rfl, (fun _ hu => nomatch hu), by simpa [unplaced] using h⟩
  | (f, v) :: own, hown, ts, h => by
    have hrest : ∀ e ∈ own, Denotes s.vars (· = .field) e.1.name e.2 :=
      fun e he => hown e (List.mem_cons_of_mem _ he)
    rw [remainingFields]
    split
    · next hemitted =>
      exact remainingFields_runs own hrest (unplaced_cons_of_emitted hemitted ▸ h)
    · next hemitted =>
      have hnew : unplaced ((f, v) :: own) emitted = v :: unplaced own emitted :=
        unplaced_cons_of_new (by simpa using hemitted)
      refine (fieldAt_runs (List.append_nil ts ▸ h) (.of_eq hnew)
        (hown (f, v) List.mem_cons_self)).bind fun t s₁ ⟨hs₁, ht, h₁⟩ => ?_
      subst s₁
      refine (remainingFields_runs own hrest h₁).bind fun us s₂ ⟨hs₂, hus, h₂⟩ =>
        runs_pure ⟨hs₂, fun u hu => ?_, by simpa using h₂⟩
      rcases List.mem_cons.mp hu with rfl | hu
      · obtain ⟨l, q, m, rfl⟩ := ht
        rfl
      · exact hus u hu

theorem NamesDenote.addMissing {vars : Array Variable} {P : VariableKind → Prop}
    {names more : Names} (h : NamesDenote vars P names) (h' : NamesDenote vars P more) :
    NamesDenote vars P (addMissing names more) := by
  induction more generalizing names with
  | nil => exact h
  | cons e rest ih =>
    refine ih ?_ fun e he => h' e (List.mem_cons_of_mem _ he)
    dsimp only
    split
    · exact h
    · intro e' he'
      rcases List.mem_append.mp he' with he' | he'
      · exact h e' he'
      · obtain rfl := List.mem_singleton.mp he'
        exact h' e List.mem_cons_self

theorem NamesDenote.foldl_addMissing {vars : Array Variable} {P : VariableKind → Prop} :
    (inherited : List Names) → {names : Names} → NamesDenote vars P names →
    (∀ more ∈ inherited, NamesDenote vars P more) →
    NamesDenote vars P (inherited.foldl Source.addMissing names)
  | [], _, h, _ => h
  | more :: rest, _, h, hinherited =>
    foldl_addMissing rest (h.addMissing (hinherited more List.mem_cons_self))
      fun m hm => hinherited m (List.mem_cons_of_mem _ hm)

theorem openClass_runs (hs : s.Valid nm) {bases : List Expr} {body : List Stmt} :
    Runs (openClass name bases body) s E fun c s' =>
      Built nm True s [] (unplaced c.own []) s' ∧ c.Sound s'.vars ∧
        ∀ b ∈ classBindings body, b.name ∈ c.own.map fun e => e.1.name := by
  refine (fieldVariables_runs _ hs).bind fun own s₁ ⟨h₁, hfields, hown⟩ => ?_
  have hnames : (own.map fun e => e.1.name) =
      (Field.ofBindings (classBindings body)).map Binding.name := by
    rw [← hfields, List.map_map]
    rfl
  have hinherited : ∀ base ∈ bases, NamesDenote s₁.vars (· = .field)
      ((base.dotted?.bind fun base => s₁.classFields.lookup base).getD []) := by
    intro base _
    rcases hlookup : base.dotted?.bind fun base => s₁.classFields.lookup base with _ | names
    · exact fun _ he => by cases he
    · obtain ⟨path, -, hpath⟩ := Option.bind_eq_some_iff.mp hlookup
      obtain ⟨l₁, l₂, hclasses, -⟩ := List.lookup_eq_some_iff.mp hpath
      exact h₁.valid.classFields (path, names) (hclasses ▸ by simp)
  have hall : NamesDenote s₁.vars (· = .field)
      ((bases.map fun base =>
        (base.dotted?.bind fun base => s₁.classFields.lookup base).getD []).foldl addMissing
          (own.map fun e => (e.1.name, e.2))) := by
    refine NamesDenote.foldl_addMissing _ (fun e he => ?_) fun more hmore => ?_
    · obtain ⟨⟨f, v⟩, hmem, rfl⟩ := List.mem_map.mp he
      exact hown (f, v) hmem
    · obtain ⟨base, hbase, rfl⟩ := List.mem_map.mp hmore
      exact hinherited base hbase
  refine runs_get_bind (runs_modify_bind (runs_pure ⟨?_, ⟨?_, hown, hall⟩, fun b hb => ?_⟩))
  · rw [unplaced_nil]
    exact
    { h₁ with
      valid := { h₁.valid with
        classFields := fun e he => by
          rcases List.mem_cons.mp he with rfl | he
          · exact hall
          · exact h₁.valid.classFields e he }
      scoping := { h₁.scoping with } }
  · rw [hnames]
    exact Field.nodup_ofBindings _
  · rw [hnames]
    exact Field.mem_ofBindings.mpr (List.mem_map_of_mem hb)

end Classes

end ModelLint.Source
