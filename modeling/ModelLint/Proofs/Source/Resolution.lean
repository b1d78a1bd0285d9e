import ModelLint.Proofs.Source.Events

/-!
# Where names lead

What the events of a function make of one name. Its own frame gives the name a variable at the first
event that binds it, and no other one until it is redefined; before that the name means what it means
in the frames around.

* `Sight`: what a function knows of a name.
* `Event.Acts`: what an event makes of it, and which node stands for the event.
* **`Resolves`**: events, one after the other. `resolves_append` puts lists of them together.
* `Resolves.reads_of_quiet`, `Resolves.reads_of_bound`: what reads mean where a name is not bound, and
  where it has been.
* **`Routine.Resolved`**: what the reads of a name in a function mean. `Resolves.resolved` finds out.
-/

namespace ModelLint.Source

variable {x y : String} {r : Range} {around : Option VariableId} {made made' : Tree → Prop}

/-- What the innermost frame knows of a name. -/
structure Sight where
  /-- The variable that it gives to the name. -/
  own : Option VariableId
  /-- Whether a value given to the name may go elsewhere. -/
  isDeclared : Bool
  /-- How many variables there are. -/
  size : Nat

/-- Nothing has become of the name, but there may be more variables. -/
structure Sight.Keeps (a b : Sight) : Prop where
  /-- The variable is the same. -/
  own : b.own = a.own
  /-- Values go where they went. -/
  isDeclared : b.isDeclared = a.isDeclared
  /-- Variables stay. -/
  size : a.size ≤ b.size

theorem Sight.Keeps.refl (a : Sight) : a.Keeps a := ⟨rfl, rfl, Nat.le_refl _⟩

theorem Sight.Keeps.trans {a b c : Sight} (h : a.Keeps b) (h' : b.Keeps c) : a.Keeps c :=
  ⟨h'.own.trans h.own, h'.isDeclared.trans h.isDeclared, Nat.le_trans h.size h'.size⟩

/-! ## Events -/

/-- The node of a name with the variable that it means; without one it is a member that is not
known. -/
def mentionAt (r : Range) (x : String) : Option VariableId → Tree
  | some v => nodeAt r (.varAccess x (some v))
  | none => nodeAt r (.fieldAccess x none none)

/-- The read of a name became a node, with the variable that the name means if it is in a frame, and
with one of the given number at most. -/
def Mentioned (made : Tree → Prop) (x : String) (r : Range) (meaning : Option VariableId) (n : Nat) :
    Prop :=
  ∃ w : Option VariableId, made (mentionAt r x w) ∧ (∀ v, meaning = some v → w = some v) ∧
    ∀ v : Nat, w = some v → v < n

theorem Mentioned.mono {meaning : Option VariableId} {n k : Nat} (h : Mentioned made x r meaning n)
    (hmade : ∀ t, made t → made' t) (hk : n ≤ k) : Mentioned made' x r meaning k :=
  let ⟨w, hw, hmeaning, hlt⟩ := h
  ⟨w, hmade _ hw, hmeaning, fun v hv => Nat.lt_of_lt_of_le (hlt v hv) hk⟩

/-- **What the reads of a name in a function mean.** A parameter has its variable from the start. To any
other name the first event that binds it gives a variable: a read behind this event is an access to the
variable, and one before it is not. -/
structure Routine.ResolvedBy (given : String → VariableId → Prop) (made : Tree → Prop)
    (f : Routine) : Prop where
  /-- A parameter is the same variable in all reads. -/
  parameter : ∀ x ∈ f.parameters, (∀ e ∈ f.events .built, e.redefines x = false) →
    ∃ v : VariableId, given x v ∧
      ∀ r i, .read x r i ∈ f.events .built → made (nodeAt r (.varAccess x (some v)))
  /-- Any other name is the same variable in the reads behind the first binding. -/
  bound : ∀ x ∉ f.parameters, (∀ e ∈ f.events .built, e.redefines x = false) →
    ∀ before r after, f.events .built = before ++ .bind x r :: after →
      (∀ e ∈ before, e.binds x = false) → ∃ v : VariableId,
        (∃ initializer, made (nodeAt r (.varDeclaration v initializer))) ∧
        (∀ r' i, .read x r' i ∈ after → made (nodeAt r' (.varAccess x (some v)))) ∧
        ∀ r' i, .read x r' i ∈ before → ∃ w, made (mentionAt r' x w) ∧ w ≠ some v

/-- The reads of names in a function are resolved, and its own node introduces the parameters. -/
def Routine.Resolved (made : Tree → Prop) (f : Routine) : Prop :=
  f.ResolvedBy (fun _ v => ∃ shape, made (nodeAt f.range shape) ∧ v ∈ shape.introduced) made

theorem Routine.ResolvedBy.mono {f : Routine} {given given' : String → VariableId → Prop}
    (h : f.ResolvedBy given made) (hgiven : ∀ x v, given x v → given' x v)
    (hmade : ∀ t, made t → made' t) : f.ResolvedBy given' made' where
  parameter x hx hother := by
    obtain ⟨v, hv, hreads⟩ := h.parameter x hx hother
    exact ⟨v, hgiven x v hv, fun r i hr => hmade _ (hreads r i hr)⟩
  bound x hx hother before r after hevents hbefore := by
    obtain ⟨v, ⟨initializer, hdeclared⟩, hafter, hreads⟩ :=
      h.bound x hx hother before r after hevents hbefore
    refine ⟨v, ⟨initializer, hmade _ hdeclared⟩, fun r' i hr' => hmade _ (hafter r' i hr'),
      fun r' i hr' => ?_⟩
    obtain ⟨w, hw, hne⟩ := hreads r' i hr'
    exact ⟨w, hmade _ hw, hne⟩

theorem Routine.Resolved.mono {f : Routine} (h : f.Resolved made) (hmade : ∀ t, made t → made' t) :
    f.Resolved made' :=
  ResolvedBy.mono h (fun _ _ ⟨shape, hshape, hv⟩ => ⟨shape, hmade _ hshape, hv⟩) hmade

/-- **What an event makes of a name**, given what the name means around the function. -/
def Event.Acts (made : Tree → Prop) (around : Option VariableId) (x : String) :
    Event → Sight → Sight → Prop
  | .read y r _, a, b => a.Keeps b ∧ (y = x → Mentioned made x r (a.own.or around) b.size)
  | .bind y r, a, b => (y ≠ x → a.Keeps b) ∧ a.size ≤ b.size ∧ b.isDeclared = a.isDeclared ∧
    (∀ v, a.own = some v → b.own = some v) ∧
    (y = x → a.own = none → a.isDeclared = false → ∃ v : Nat, b.own = some v ∧ a.size ≤ v ∧
      ∃ initializer, made (nodeAt r (.varDeclaration v initializer)))
  | .define y, a, b => (y ≠ x → a.Keeps b) ∧ a.size ≤ b.size
  | .declare y, a, b => (y ≠ x → a.Keeps b) ∧ a.size ≤ b.size ∧ b.own = a.own
  | .routine f, a, b => a.Keeps b ∧ f.Resolved made

section Acts

variable {e : Event} {a b c : Sight}

theorem Event.Acts.size_le (h : e.Acts made around x a b) : a.size ≤ b.size := by
  cases e with
  | read => exact h.1.size
  | bind => exact h.2.1
  | define => exact h.2
  | declare => exact h.2.1
  | routine => exact h.1.size

theorem Event.Acts.mono (h : e.Acts made around x a b) (hmade : ∀ t, made t → made' t) :
    e.Acts made' around x a b := by
  cases e with
  | read y r i => exact ⟨h.1, fun hy => (h.2 hy).mono hmade (Nat.le_refl _)⟩
  | bind y r =>
    obtain ⟨hkeeps, hsize, hdeclared, hown, hnew⟩ := h
    refine ⟨hkeeps, hsize, hdeclared, hown, fun hy hnone hopen => ?_⟩
    obtain ⟨v, hv, hlt, initializer, hmade'⟩ := hnew hy hnone hopen
    exact ⟨v, hv, hlt, initializer, hmade _ hmade'⟩
  | define y => exact h
  | declare y => exact h
  | routine f => exact ⟨h.1, h.2.mono hmade⟩

theorem Event.Acts.keeps_left (hkeeps : a.Keeps b) (h : e.Acts made around x b c) :
    e.Acts made around x a c := by
  cases e with
  | read y r i => exact ⟨hkeeps.trans h.1, fun hy => hkeeps.own ▸ h.2 hy⟩
  | bind y r =>
    obtain ⟨hother, hsize, hdeclared, hown, hnew⟩ := h
    refine ⟨fun hy => hkeeps.trans (hother hy), Nat.le_trans hkeeps.size hsize,
      hdeclared.trans hkeeps.isDeclared, fun v hv => hown v (hkeeps.own.trans hv),
      fun hy hnone hopen => ?_⟩
    obtain ⟨v, hv, hle, hmade⟩ := hnew hy (hkeeps.own.trans hnone) (hkeeps.isDeclared.trans hopen)
    exact ⟨v, hv, Nat.le_trans hkeeps.size hle, hmade⟩
  | define y => exact ⟨fun hy => hkeeps.trans (h.1 hy), Nat.le_trans hkeeps.size h.2⟩
  | declare y =>
    exact ⟨fun hy => hkeeps.trans (h.1 hy), Nat.le_trans hkeeps.size h.2.1, h.2.2.trans hkeeps.own⟩
  | routine f => exact ⟨hkeeps.trans h.1, h.2⟩

theorem Event.Acts.keeps (h : e.Acts made around x a b) (hchanged : e.changed? ≠ some x) :
    a.Keeps b := by
  cases e with
  | read => exact h.1
  | bind => exact h.1 fun hy => hchanged (congrArg some hy)
  | define => exact h.1 fun hy => hchanged (congrArg some hy)
  | declare => exact h.1 fun hy => hchanged (congrArg some hy)
  | routine => exact h.1

end Acts

/-! ## Lists of events -/

/-- **What events make of a name**, one after the other. -/
def Resolves (made : Tree → Prop) (around : Option VariableId) (x : String) :
    List Event → Sight → Sight → Prop
  | [], a, b => a.Keeps b
  | e :: es, a, c => ∃ b, e.Acts made around x a b ∧ Resolves made around x es b c

section Resolves

variable {es fs : List Event} {a b c : Sight}

theorem Resolves.keeps_left (hkeeps : a.Keeps b) (h : Resolves made around x es b c) :
    Resolves made around x es a c := by
  cases es with
  | nil => exact hkeeps.trans h
  | cons e es =>
    obtain ⟨d, hd, h⟩ := h
    exact ⟨d, hd.keeps_left hkeeps, h⟩

theorem resolves_append :
    Resolves made around x (es ++ fs) a c ↔
      ∃ b, Resolves made around x es a b ∧ Resolves made around x fs b c := by
  induction es generalizing a with
  | nil => exact ⟨fun h => ⟨a, .refl a, h⟩, fun ⟨_, hkeeps, h⟩ => h.keeps_left hkeeps⟩
  | cons e es ih =>
    simp only [List.cons_append, Resolves, ih]
    constructor
    · rintro ⟨d, hd, b, h, h'⟩
      exact ⟨b, ⟨d, hd, h⟩, h'⟩
    · rintro ⟨b, ⟨d, hd, h⟩, h'⟩
      exact ⟨d, hd, b, h, h'⟩

theorem Resolves.size_le (h : Resolves made around x es a b) : a.size ≤ b.size := by
  induction es generalizing a with
  | nil => exact h.size
  | cons e es ih =>
    obtain ⟨d, hd, h⟩ := h
    exact Nat.le_trans hd.size_le (ih h)

theorem Resolves.mono (h : Resolves made around x es a b) (hmade : ∀ t, made t → made' t) :
    Resolves made' around x es a b := by
  induction es generalizing a with
  | nil => exact h
  | cons e es ih =>
    obtain ⟨d, hd, h⟩ := h
    exact ⟨d, hd.mono hmade, ih h⟩

/-- Functions among the events are resolved. -/
theorem Resolves.routine {f : Routine} (h : Resolves made around x es a b) (hf : .routine f ∈ es) :
    f.Resolved made := by
  induction es generalizing a with
  | nil => cases hf
  | cons e es ih =>
    obtain ⟨d, hd, h⟩ := h
    rcases List.mem_cons.mp hf with rfl | hf
    · exact hd.2
    · exact ih h hf

/-- A name that nothing binds means what it meant before. -/
theorem Resolves.reads_of_quiet (h : Resolves made around x es a b)
    (hquiet : ∀ e ∈ es, e.binds x = false) :
    b.own = a.own ∧ ∀ r i, .read x r i ∈ es → Mentioned made x r (a.own.or around) b.size := by
  induction es generalizing a with
  | nil => exact ⟨h.own, fun r i hr => nomatch hr⟩
  | cons e es ih =>
    obtain ⟨d, hd, h⟩ := h
    have hhead := hquiet e List.mem_cons_self
    obtain ⟨hown, hreads⟩ := ih h fun e he => hquiet e (List.mem_cons_of_mem _ he)
    have hsame : d.own = a.own := by
      cases e with
      | read => exact hd.1.own
      | bind y r => exact (hd.1 fun hy => by simp [Event.binds, hy] at hhead).own
      | define y => exact (hd.1 fun hy => by simp [Event.binds, hy] at hhead).own
      | declare => exact hd.2.2
      | routine => exact hd.1.own
    refine ⟨hown.trans hsame, fun r i hr => ?_⟩
    rcases List.mem_cons.mp hr with rfl | hr
    · exact (hd.2 rfl).mono (fun _ ht => ht) h.size_le
    · exact hsame ▸ hreads r i hr

/-- A name that is bound and not redefined keeps its variable. -/
theorem Resolves.reads_of_bound {v : VariableId} (h : Resolves made around x es a b)
    (hother : ∀ e ∈ es, e.redefines x = false) (hv : a.own = some v) :
    b.own = some v ∧ ∀ r i, .read x r i ∈ es → made (nodeAt r (.varAccess x (some v))) := by
  induction es generalizing a with
  | nil => exact ⟨h.own.trans hv, fun r i hr => nomatch hr⟩
  | cons e es ih =>
    obtain ⟨d, hd, h⟩ := h
    have hhead := hother e List.mem_cons_self
    have hsame : d.own = some v := by
      cases e with
      | read => exact hd.1.own.trans hv
      | bind y r => exact hd.2.2.2.1 v hv
      | define y => exact (hd.1 fun hy => by simp [Event.redefines, hy] at hhead).own.trans hv
      | declare => exact hd.2.2.trans hv
      | routine => exact hd.1.own.trans hv
    obtain ⟨hown, hreads⟩ := ih h (fun e he => hother e (List.mem_cons_of_mem _ he)) hsame
    refine ⟨hown, fun r i hr => ?_⟩
    rcases List.mem_cons.mp hr with rfl | hr
    · obtain ⟨w, hw, hmeaning, -⟩ := hd.2 rfl
      rwa [hmeaning v (by rw [hv, Option.some_or])] at hw
    · exact hreads r i hr

theorem Resolves.keeps (h : Resolves made around x es a b)
    (hchanged : ∀ e ∈ es, e.changed? ≠ some x) : a.Keeps b := by
  induction es generalizing a with
  | nil => exact h
  | cons e es ih =>
    obtain ⟨d, hd, h⟩ := h
    exact (hd.keeps (hchanged e List.mem_cons_self)).trans
      (ih h fun e he => hchanged e (List.mem_cons_of_mem _ he))

/-- **The first event that binds a name declares it**: the name has its variable from there on. -/
theorem Resolves.declared {before after : List Event}
    (h : Resolves made around x (before ++ .bind x r :: after) a b)
    (hbefore : ∀ e ∈ before, e.binds x = false) (hother : ∀ e ∈ before, e.redefines x = false)
    (hnone : a.own = none) (hopen : a.isDeclared = false) :
    ∃ (v : Nat) (c d : Sight), Resolves made around x before a c ∧ c.size ≤ v ∧ d.own = some v ∧
      Resolves made around x after d b ∧
      ∃ initializer, made (nodeAt r (.varDeclaration v initializer)) := by
  obtain ⟨c, hc, d, hd, h⟩ := resolves_append.mp h
  have hkeeps : a.Keeps c := hc.keeps fun e he hchanged => by
    have hbinds := hbefore e he
    have hredefines := hother e he
    cases e <;>
      simp [Event.changed?, Event.binds, Event.redefines] at hchanged hbinds hredefines <;>
      contradiction
  obtain ⟨-, -, -, -, hnew⟩ := hd
  obtain ⟨v, hv, hle, hmade⟩ := hnew rfl (hkeeps.own.trans hnone) (hkeeps.isDeclared.trans hopen)
  exact ⟨v, c, d, hc, hle, hv, h, hmade⟩

/-- **What the reads of a name in a function mean**, if the function starts with its parameters. -/
theorem Resolves.resolved {f : Routine} {given : String → VariableId → Prop}
    (h : ∀ x, ∃ around a b, Resolves made around x (f.events .built) a b ∧ a.isDeclared = false ∧
      (x ∉ f.parameters → a.own = none) ∧
      (x ∈ f.parameters → ∃ v, a.own = some v ∧ given x v)) : f.ResolvedBy given made where
  parameter x hx hother := by
    obtain ⟨around, a, b, h, -, -, hsome⟩ := h x
    obtain ⟨v, hv, hgiven⟩ := hsome hx
    exact ⟨v, hgiven, (h.reads_of_bound hother hv).2⟩
  bound x hx hother before r after hevents hbefore := by
    obtain ⟨around, a, b, h, hopen, hnone, -⟩ := h x
    rw [hevents] at h hother
    obtain ⟨v, c, d, hc, hle, hv, h, hmade⟩ := h.declared hbefore
      (fun e he => hother e (List.mem_append_left _ he)) (hnone hx) hopen
    obtain ⟨-, hreads⟩ := hc.reads_of_quiet hbefore
    obtain ⟨-, hafter⟩ := h.reads_of_bound
      (fun e he => hother e (List.mem_append_right _ (List.mem_cons_of_mem _ he))) hv
    refine ⟨v, hmade, hafter, fun r' i hr' => ?_⟩
    obtain ⟨w, hw, -, hlt⟩ := hreads r' i hr'
    refine ⟨w, hw, fun heq => ?_⟩
    have := hlt v heq
    omega

/-- Who reads does not matter. -/
theorem Resolves.inward (h : Resolves made around x es a b) :
    Resolves made around x (es.map .inward) a b := by
  induction es generalizing a with
  | nil => exact h
  | cons e es ih =>
    obtain ⟨d, hd, h⟩ := h
    refine ⟨d, ?_, ih h⟩
    cases e <;> exact hd

theorem resolves_of_keeps (hkeeps : a.Keeps b) (h : ∀ e ∈ es, e.Acts made around x b b) :
    Resolves made around x es a b := by
  refine Resolves.keeps_left hkeeps ?_
  induction es with
  | nil => exact .refl b
  | cons e es ih =>
    exact ⟨b, h e List.mem_cons_self, ih fun e he => h e (List.mem_cons_of_mem _ he)⟩

theorem resolves_define {names : List String} (hkeeps : a.Keeps b) :
    Resolves made around x (names.map .define) a b := by
  refine resolves_of_keeps hkeeps fun e he => ?_
  obtain ⟨y, -, rfl⟩ := List.mem_map.mp he
  exact ⟨fun _ => .refl b, Nat.le_refl _⟩

/-- Names are said to belong elsewhere, and keep their variables. -/
theorem resolves_declare {names : List String} (hown : b.own = a.own) (hsize : a.size ≤ b.size)
    (hkeeps : x ∉ names → b.isDeclared = a.isDeclared) :
    Resolves made around x (names.map .declare) a b := by
  induction names with
  | nil => exact ⟨hown, hkeeps List.not_mem_nil, hsize⟩
  | cons y rest ih =>
    by_cases hy : y = x
    · refine ⟨b, ⟨fun hne => absurd hy hne, hsize, hown⟩, resolves_of_keeps (.refl b) fun e he => ?_⟩
      obtain ⟨z, -, rfl⟩ := List.mem_map.mp he
      exact ⟨fun _ => .refl b, Nat.le_refl _, rfl⟩
    · refine ⟨a, ⟨fun _ => .refl a, Nat.le_refl _, rfl⟩, ih fun hx => hkeeps ?_⟩
      simp [hx, Ne.symm hy]

/-- Of what happens to names the nodes may be left out. -/
theorem Resolves.redefined (h : Resolves made around x es a b) :
    Resolves made' around x (redefined es) a b := by
  induction es generalizing a with
  | nil => exact h
  | cons e es ih =>
    obtain ⟨c, hc, h⟩ := h
    rcases hchanged : e.changed? with _ | y
    · rw [Source.redefined, List.filterMap_cons_none hchanged]
      exact (ih h).keeps_left (hc.keeps (by simp [hchanged]))
    · rw [Source.redefined, List.filterMap_cons_some hchanged]
      exact ⟨c, ⟨fun hy => hc.keeps (by simpa [hchanged] using hy), hc.size_le⟩, ih h⟩

/-- The functions in a function are resolved behind it, too. -/
theorem Resolves.routines {around' : Option VariableId} {a' b' : Sight}
    (h : Resolves made around' x es a' b') (hkeeps : a.Keeps b) :
    Resolves made around x (es.filter Event.isRoutine) a b := by
  refine resolves_of_keeps hkeeps fun e he => ?_
  obtain ⟨he, hroutine⟩ := List.mem_filter.mp he
  cases e with
  | routine f => exact ⟨.refl b, h.routine he⟩
  | _ => cases hroutine

/-- **What a function leaves to the one around** means there what it means in the function. -/
theorem Resolves.captured {parameters : List String} {a' b' : Sight}
    (h : Resolves made (a.own.or around) x es a' b') (hnone : x ∉ parameters → a'.own = none)
    (hkeeps : a.Keeps b) (hsize : b'.size ≤ b.size) :
    Resolves made around x (captured parameters es) a b := by
  refine resolves_of_keeps hkeeps fun e he => ?_
  obtain ⟨he, hcaptured⟩ := List.mem_filter.mp he
  cases e with
  | read y r i =>
    refine ⟨.refl b, ?_⟩
    rintro rfl
    simp only [Bool.and_eq_true, Bool.not_eq_true', List.all_eq_true] at hcaptured
    obtain ⟨hparameter, hquiet⟩ := hcaptured
    obtain ⟨-, hreads⟩ := h.reads_of_quiet fun e he => hquiet e he
    have hmentioned := hreads r i he
    rw [hnone (by simpa using hparameter), Option.none_or, ← hkeeps.own] at hmentioned
    exact hmentioned.mono (fun _ ht => ht) hsize
  | routine f => exact ⟨.refl b, h.routine he⟩
  | _ => cases hcaptured

end Resolves

end ModelLint.Source
