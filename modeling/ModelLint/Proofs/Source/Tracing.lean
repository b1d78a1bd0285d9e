import ModelLint.Proofs.Source.Building
import ModelLint.Proofs.Source.Resolution

/-!
# Names while nodes are built

Building a node does to the names in sight what the events of its expression or statement say. A step
is taken in a state, and gives trees; other trees may be put aside on the way. A read has become a node
of one of them.

* `Stands`, `Within`: a tree stands below one of some trees.
* `Building.sight`, `Building.around`: what a state knows of a name.
* **`Follows`**: what a step does to the names in sight.
* **`Traces`**: a step follows events; `Traces.bind` puts steps together.
* `traces_exprNode`, **`traces_stmtNodes`**: expressions and statements.
-/

namespace ModelLint.Source

open Build

/-! ## Trees below trees -/

/-- A tree is one of some trees or stands below one of them. -/
def Stands (ts : List Tree) (u : Tree) : Prop := ∃ t ∈ ts, ∃ p, t.at? p = some u

/-- What stands in some trees stands in others, too. -/
def Within (us ts : List Tree) : Prop := ∀ u, Stands us u → Stands ts u

section Trees

variable {t u : Tree} {ts us vs : List Tree} {r : Range} {shape : Shape Tree}

theorem stands_of_mem (h : t ∈ ts) : Stands ts t := ⟨t, h, [], rfl⟩

theorem stands_singleton : Stands [t] u ↔ ∃ p, t.at? p = some u := by
  simp only [Stands, List.mem_singleton, exists_eq_left]

theorem within_of_subset (h : us ⊆ ts) : Within us ts := fun _ ⟨t, ht, hp⟩ => ⟨t, h ht, hp⟩

theorem within_nil : Within [] ts := within_of_subset (List.nil_subset ts)

theorem Within.trans (h : Within us ts) (h' : Within ts vs) : Within us vs :=
  fun u hu => h' u (h u hu)

theorem within_append : Within (us ++ vs) ts ↔ Within us ts ∧ Within vs ts := by
  refine ⟨fun h => ⟨fun u hu => ?_, fun u hu => ?_⟩, ?_⟩
  · exact h u (within_of_subset (List.subset_append_left us vs) u hu)
  · exact h u (within_of_subset (List.subset_append_right us vs) u hu)
  · rintro ⟨h, h'⟩ u ⟨t, ht, hp⟩
    rcases List.mem_append.mp ht with ht | ht
    · exact h u ⟨t, ht, hp⟩
    · exact h' u ⟨t, ht, hp⟩

theorem within_cons : Within (t :: us) ts ↔ Within [t] ts ∧ Within us ts := by
  rw [← within_append, List.singleton_append]

theorem within_children (h : us ⊆ t.children) : Within us [t] := by
  rintro u ⟨c, hc, p, hp⟩
  obtain ⟨i, hi⟩ := List.mem_iff_getElem?.mp (h hc)
  exact ⟨t, List.mem_singleton_self t, i :: p, Tree.at?_cons_eq_some.mpr ⟨c, hi, hp⟩⟩

theorem within_node (h : us ⊆ shape.children) : Within us [nodeAt r shape] := within_children h

end Trees

/-! ## What a state knows of a name -/

namespace Building

variable {s s' : Building} {x : String} {v : VariableId}

/-- The name of the object in the innermost method. -/
def object? (s : Building) : Option String := s.receivers.head?.bind Receiver.name

/-- What the innermost frame knows of a name. Where no frame is open, no name can be bound. -/
def sight (s : Building) (x : String) : Sight where
  own := s.frames.head?.bind fun frame => frame.names.lookup x
  isDeclared := s.frames.head?.all fun frame =>
    frame.isModule || frame.globals.contains x || frame.nonlocals.contains x
  size := s.vars.size

/-- What a name means in the frames around the innermost one. -/
def around (s : Building) (x : String) : Option VariableId :=
  s.frames.tail.findSome? fun frame => frame.names.lookup x

/-- The trees that were put aside. -/
def moving (s : Building) : List Tree := s.pending ++ s.hoisted

/-- The variables that names in frames and those of the module mean are there. -/
def Bounded (s : Building) : Prop :=
  (∀ frame ∈ s.frames, ∀ e ∈ frame.names, (e.2 : Nat) < s.vars.size) ∧
    ∀ e ∈ s.moduleFields, (e.2 : Nat) < s.vars.size

theorem own_or_around (s : Building) (x : String) :
    (s.sight x).own.or (s.around x) = s.frames.findSome? fun frame => frame.names.lookup x := by
  rcases hframes : s.frames with _ | ⟨frame, outer⟩
  · simp [sight, around, hframes]
  · simp only [sight, around, hframes, List.head?_cons, Option.bind_some, List.tail_cons,
      List.findSome?_cons]
    cases frame.names.lookup x <;> rfl

theorem Bounded.lt_of_lookup (h : s.Bounded)
    (hv : (s.frames.findSome? fun frame => frame.names.lookup x) = some v) :
    (v : Nat) < s.vars.size := by
  obtain ⟨frame, hframe, hlookup⟩ := List.exists_of_findSome?_eq_some hv
  exact h.1 frame hframe (x, v) (mem_of_lookup hlookup)

theorem Bounded.openFrame (h : s.Bounded) {frame : Frame}
    (hframe : ∀ e ∈ frame.names, (e.2 : Nat) < s.vars.size) :
    Building.Bounded { s with frames := frame :: s.frames } :=
  ⟨List.forall_mem_cons.mpr ⟨hframe, h.1⟩, h.2⟩

theorem Bounded.closeFrame (h : s.Bounded) : Building.Bounded { s with frames := s.frames.drop 1 } :=
  ⟨fun frame hframe => h.1 frame (List.mem_of_mem_drop hframe), h.2⟩

end Building

/-! ## Steps -/

/-- **What a step does to the names in sight**, by its events, and what it leaves alone. -/
structure Follows (made : Tree → Prop) (es : List Event) (s s' : Building) : Prop where
  /-- The receivers stay. -/
  receivers : s'.receivers = s.receivers
  /-- As many frames are open. -/
  frames_length : s'.frames.length = s.frames.length
  /-- All frames but the innermost stay. -/
  frames_tail : s'.frames.tail = s.frames.tail
  /-- Declarations before the statement stay. -/
  pending : s.pending ⊆ s'.pending
  /-- Declarations of the module stay. -/
  hoisted : s.hoisted ⊆ s'.hoisted
  /-- Variables stay. -/
  size : s.vars.size ≤ s'.vars.size
  /-- Names still mean variables that are there. -/
  bounded : s.Bounded → s'.Bounded
  /-- All that happens to names are the events. -/
  names : s.Bounded → ∀ x, Resolves made (s.around x) x es (s.sight x) (s'.sight x)

section Follows

variable {made made' : Tree → Prop} {es fs : List Event} {s s' s'' : Building} {x : String}
  {r : Range}

theorem Follows.object? (h : Follows made es s s') : s'.object? = s.object? := by
  rw [Building.object?, h.receivers, Building.object?]

theorem Follows.moving (h : Follows made es s s') : s.moving ⊆ s'.moving := by
  intro t ht
  rcases List.mem_append.mp ht with ht | ht
  · exact List.mem_append_left _ (h.pending ht)
  · exact List.mem_append_right _ (h.hoisted ht)

theorem Follows.around (h : Follows made es s s') : s'.around x = s.around x := by
  rw [Building.around, h.frames_tail, Building.around]

theorem Follows.mono (h : Follows made es s s') (hmade : ∀ t, made t → made' t) :
    Follows made' es s s' :=
  { h with names := fun hs x => (h.names hs x).mono hmade }

theorem Follows.trans (h : Follows made es s s') (h' : Follows made fs s' s'') :
    Follows made (es ++ fs) s s'' where
  receivers := h'.receivers.trans h.receivers
  frames_length := h'.frames_length.trans h.frames_length
  frames_tail := h'.frames_tail.trans h.frames_tail
  pending _ ht := h'.pending (h.pending ht)
  hoisted _ ht := h'.hoisted (h.hoisted ht)
  size := Nat.le_trans h.size h'.size
  bounded hs := h'.bounded (h.bounded hs)
  names hs x := resolves_append.mpr ⟨s'.sight x, h.names hs x, h.around ▸ h'.names (h.bounded hs) x⟩

/-- A step that changes no frame. New variables, fields of the module and declarations may come up. -/
theorem follows_of_frames (hreceivers : s'.receivers = s.receivers) (hframes : s'.frames = s.frames)
    (hpending : s.pending ⊆ s'.pending) (hhoisted : s.hoisted ⊆ s'.hoisted)
    (hsize : s.vars.size ≤ s'.vars.size)
    (hfields : s.Bounded → ∀ e ∈ s'.moduleFields, (e.2 : Nat) < s'.vars.size) :
    Follows made [] s s' where
  receivers := hreceivers
  frames_length := congrArg List.length hframes
  frames_tail := congrArg List.tail hframes
  pending := hpending
  hoisted := hhoisted
  size := hsize
  bounded hs := ⟨fun frame hframe e he =>
    Nat.lt_of_lt_of_le (hs.1 frame (hframes ▸ hframe) e he) hsize, hfields hs⟩
  names _ x := ⟨by rw [Building.sight, hframes, Building.sight],
    by rw [Building.sight, hframes, Building.sight], hsize⟩

theorem Follows.refl (s : Building) : Follows made [] s s :=
  follows_of_frames rfl rfl (fun _ h => h) (fun _ h => h) (Nat.le_refl _) fun hs => hs.2

/-- Of what happens to names the nodes may be left out. -/
theorem Follows.redefined (h : Follows made es s s') : Follows made' (redefined es) s s' :=
  { h with names := fun hs x => (h.names hs x).redefined }

/-- Of a step that binds nothing only the functions may be kept. -/
theorem Follows.routines (h : Follows made es s s') (hquiet : ∀ e ∈ es, e.changed? = none) :
    Follows made (es.filter Event.isRoutine) s s' := by
  refine { h with names := fun hs x => ?_ }
  have hnames := h.names hs x
  exact hnames.routines (hnames.keeps fun e he => by simp [hquiet e he])

/-- The function that was built stands before its events. -/
theorem Follows.routine {f : Routine} (h : Follows made es s s') (hf : s.Bounded → f.Resolved made) :
    Follows made (.routine f :: es) s s' :=
  { h with names := fun hs x => ⟨s.sight x, ⟨.refl _, hf hs⟩, h.names hs x⟩ }

/-- Where a name is bound does not matter unless it is declared there. -/
theorem Follows.rebind {r' : Range} (h : Follows made [.bind x r] s s')
    (hbound : (s.sight x).own = none → (s.sight x).isDeclared = true) :
    Follows made [.bind x r'] s s' := by
  refine { h with names := fun hs y => ?_ }
  obtain ⟨c, ⟨hother, hsize, hdeclared, hown, -⟩, hkeeps⟩ := h.names hs y
  refine ⟨c, ⟨hother, hsize, hdeclared, hown, ?_⟩, hkeeps⟩
  rintro rfl hnone hopen
  rw [hbound hnone] at hopen
  cases hopen

/-- Who reads does not matter. -/
theorem Follows.inward (h : Follows made es s s') : Follows made (es.map .inward) s s' :=
  { h with names := fun hs x => (h.names hs x).inward }

theorem lookup_reverse_of_not_mem {names : Names} (hx : x ∉ names.map (·.1)) :
    names.reverse.lookup x = none := by
  refine List.lookup_eq_none_iff.mpr fun e he => ?_
  have hmem : e.1 ∈ names.map (·.1) := List.mem_map_of_mem (List.mem_reverse.mp he)
  simpa using fun heq : x = e.1 => hx (heq ▸ hmem)

theorem lookup_reverse_of_mem {names : Names} (hx : x ∈ names.map (·.1)) :
    ∃ v, names.reverse.lookup x = some v ∧ (x, v) ∈ names := by
  rcases hlookup : names.reverse.lookup x with _ | v
  · obtain ⟨e, he, rfl⟩ := List.mem_map.mp hx
    exact absurd rfl (bne_iff_ne.mp (List.lookup_eq_none_iff.mp hlookup e (List.mem_reverse.mpr he)))
  · exact ⟨v, rfl, List.mem_reverse.mp (mem_of_lookup hlookup)⟩

/-- A step in a frame of its own leaves to the one around what it reads and does not bind. -/
theorem Follows.inFrame {names : Names}
    (hnames : s.Bounded → ∀ e ∈ names, (e.2 : Nat) < s.vars.size)
    (h : Follows made es { s with frames := Frame.ofNames names :: s.frames } s') :
    Follows made (captured (names.map (·.1)) es) s { s' with frames := s'.frames.drop 1 } ∧
      ∀ f : Routine, f.events .built = es → f.parameters = names.map (·.1) → s.Bounded →
        f.ResolvedBy (fun x v => (x, v) ∈ names) made := by
  have hframes : s'.frames.drop 1 = s.frames := List.drop_one.trans h.frames_tail
  have hopen : s.Bounded →
      Building.Bounded { s with frames := Frame.ofNames names :: s.frames } := fun hs =>
    hs.openFrame fun e he => hnames hs e (List.mem_reverse.mp he)
  have hnone : ∀ x, x ∉ names.map (·.1) →
      (Building.sight { s with frames := Frame.ofNames names :: s.frames } x).own = none :=
    fun x hx => lookup_reverse_of_not_mem hx
  refine ⟨{ h with
      frames_length := congrArg List.length hframes
      frames_tail := congrArg List.tail hframes
      bounded := fun hs => (h.bounded (hopen hs)).closeFrame
      names := fun hs x => ?_ }, ?_⟩
  · have hinner := h.names (hopen hs) x
    rw [show Building.around { s with frames := Frame.ofNames names :: s.frames } x =
      (s.sight x).own.or (s.around x) from (s.own_or_around x).symm] at hinner
    refine hinner.captured (hnone x) ⟨?_, ?_, hinner.size_le⟩ (Nat.le_refl _)
    · simp only [Building.sight, hframes]
    · simp only [Building.sight, hframes]
  · rintro f rfl hparameters hs
    refine Resolves.resolved fun x => ⟨_, _, _, h.names (hopen hs) x, ?_, fun hx => hnone x ?_,
      fun hx => lookup_reverse_of_mem ?_⟩
    · simp [Building.sight, Frame.ofNames]
    · exact hparameters ▸ hx
    · exact hparameters ▸ hx

end Follows

/-! ## Steps in a row -/

section Traces

variable {α β : Type} {o : Option String} {us : List Tree} {x : Build α} {f : α → Build β}
  {es es' fs : List Event} {g : α → List Tree} {h : β → List Tree} {r : Range} {name : String}
  {s : Building}

/-- **A step follows events**, if the object of the method around has the given name. What it makes
stands in the trees that it gives or was put aside, and so do trees that are handed to it. -/
def Traces (o : Option String) (us : List Tree) (x : Build α) (es : List Event)
    (g : α → List Tree) : Prop :=
  ∀ s : Building, s.object? = o → Runs x s (fun _ => True) fun a s' =>
    Follows (Stands (g a ++ s'.moving)) es s s' ∧ Within us (g a ++ s'.moving)

/-- A step with no events. -/
abbrev Calm (x : Build α) : Prop :=
  ∀ s, Runs x s (fun _ => True) fun _ s' => ∀ made, Follows made [] s s'

/-- Steps behind others, of whose trees some are handed to them. -/
theorem Traces.after (ts : List Tree) {y : Build β} {s₁ : Building} (hy : Traces o (ts ++ us) y fs h)
    (hs : s.object? = o) (h₁ : Follows (Stands (ts ++ s₁.moving)) es s s₁) :
    Runs y s₁ (fun _ => True) fun b s₂ =>
      Follows (Stands (h b ++ s₂.moving)) (es ++ fs) s s₂ ∧ Within us (h b ++ s₂.moving) := by
  refine (hy s₁ (h₁.object?.trans hs)).mono fun b s₂ ⟨h₂, hwithin⟩ => ?_
  obtain ⟨hts, hus⟩ := within_append.mp hwithin
  have hmoving : Within s₁.moving (h b ++ s₂.moving) :=
    within_of_subset fun t ht => List.mem_append_right _ (h₂.moving ht)
  exact ⟨(h₁.mono (within_append.mpr ⟨hts, hmoving⟩)).trans h₂, hus⟩

theorem Traces.bind (hx : Traces o [] x es g) (hf : ∀ a, Traces o (g a ++ us) (f a) fs h) :
    Traces o us (x >>= f) (es ++ fs) h :=
  fun s hs => (hx s hs).bind fun a _ ⟨h₁, _⟩ => (hf a).after _ hs h₁

theorem traces_pure {a : α} (ha : Within us (g a)) : Traces o us (pure a) [] g :=
  fun s _ => ⟨.refl s, ha.trans (within_of_subset (List.subset_append_left _ _))⟩

/-- The last step, of whose trees others are made. -/
theorem Traces.last {k : α → β} (hx : Traces o [] x es g) (hk : ∀ a, Within (g a ++ us) (h (k a))) :
    Traces o us (do return k (← x)) es h := by
  simpa using hx.bind fun a => traces_pure (hk a)

/-- Trees may be handed to a step in others. -/
theorem Traces.handing {ts : List Tree} (hts : Within us ts) (hx : Traces o ts x es g) :
    Traces o us x es g :=
  fun s hs => (hx s hs).mono fun _ _ ⟨h₁, hwithin⟩ => ⟨h₁, hts.trans hwithin⟩

/-- Of the trees that a step gives others may be made. -/
theorem Traces.mono {g' : α → List Tree} (hx : Traces o us x es g) (hg : ∀ a, Within (g a) (g' a)) :
    Traces o us x es g' := by
  intro s hs
  refine (hx s hs).mono fun a s' ⟨h₁, hwithin⟩ => ?_
  have hmade : Within (g a ++ s'.moving) (g' a ++ s'.moving) :=
    within_append.mpr ⟨(hg a).trans (within_of_subset (List.subset_append_left _ _)),
      within_of_subset (List.subset_append_right _ _)⟩
  exact ⟨h₁.mono hmade, hwithin.trans hmade⟩

theorem Traces.map {k : α → β} (hx : Traces o us x es fun a => h (k a)) :
    Traces o us (k <$> x) es h :=
  fun s hs => Runs.map (hx s hs)

theorem Traces.make {k : α → β} (hx : Traces o us x es g) (hk : ∀ a, Within (g a) (h (k a))) :
    Traces o us (do return k (← x)) es h := by
  rw [bind_pure_comp]
  exact (hx.mono hk).map

theorem Calm.next (hx : Calm x) (hf : ∀ a, Traces o us (f a) fs h) :
    Traces o us (x >>= f) fs h :=
  fun s hs => Runs.bind (hx s) fun a _ h₁ => (hf a).after [] hs (h₁ _)

theorem Calm.alone (hx : Calm x) : Traces o [] x [] g :=
  fun s _ => Runs.mono (hx s) fun _ _ h₁ => ⟨h₁ _, within_nil⟩

theorem calm_pure {a : α} : Calm (pure a : Build α) := fun s _ => .refl s

theorem Calm.bind (hx : Calm x) (hf : ∀ a, Calm (f a)) : Calm (x >>= f) := fun s =>
  Runs.bind (hx s) fun a s₁ h₁ => (hf a s₁).mono fun _ _ h₂ made => (h₁ made).trans (h₂ made)

theorem traces_throw {e : BuildFailure} : Traces o us (throw e : Build α) es g :=
  fun _ _ => trivial

/-! ## Variables -/

/-- A new variable has come up, and it is bound in the innermost frame. -/
def Building.bound (s : Building) (name : String) (type : Option String) : Building :=
  { s with
    vars := s.vars.push { name, typeName := type, kind := .localVar, isStatic := false, scope := none }
    frames := s.frames.modifyHead fun frame =>
      { frame with names := (name, s.vars.size) :: frame.names } }

section Bound

variable {type : Option String} {made : Tree → Prop} {y : String}

theorem Building.keeps_bound (hne : name ≠ y) : (s.sight y).Keeps ((s.bound name type).sight y) := by
  refine ⟨?_, ?_, ?_⟩
  · rcases hframes : s.frames with _ | ⟨frame, outer⟩
    · simp [Building.sight, Building.bound, hframes]
    · simp [Building.sight, Building.bound, hframes, List.lookup_cons, beq_eq_false_iff_ne.mpr hne.symm]
  · rcases hframes : s.frames with _ | ⟨frame, outer⟩ <;>
      simp [Building.sight, Building.bound, hframes]
  · simp [Building.sight, Building.bound]

theorem Building.own_bound (hne : s.frames ≠ []) :
    ((s.bound name type).sight name).own = some s.vars.size := by
  rcases hframes : s.frames with _ | ⟨frame, outer⟩
  · exact absurd hframes hne
  · simp [Building.sight, Building.bound, hframes]

theorem Building.isDeclared_bound :
    ((s.bound name type).sight y).isDeclared = (s.sight y).isDeclared := by
  rcases hframes : s.frames with _ | ⟨frame, outer⟩ <;>
    simp [Building.sight, Building.bound, hframes]

theorem Building.Bounded.bound (h : s.Bounded) : (s.bound name type).Bounded := by
  have hsize : s.vars.size < (s.bound name type).vars.size := by simp [Building.bound]
  have hold : ∀ frame ∈ s.frames, ∀ e ∈ frame.names, (e.2 : Nat) < (s.bound name type).vars.size :=
    fun frame hframe e he => Nat.lt_trans (h.1 frame hframe e he) hsize
  refine ⟨?_, fun e he => Nat.lt_trans (h.2 e he) hsize⟩
  rcases hframes : s.frames with _ | ⟨first, outer⟩
  · simp [Building.bound, hframes]
  · rw [hframes] at hold
    obtain ⟨hfirst, houter⟩ := List.forall_mem_cons.mp hold
    simp only [Building.bound, hframes, List.modifyHead_cons]
    exact List.forall_mem_cons.mpr ⟨List.forall_mem_cons.mpr ⟨hsize, hfirst⟩, houter⟩

/-- What an event does to names that does it when one of them is bound to a new variable. -/
theorem follows_bound {e : Event}
    (he : ∀ y, e.Acts made (s.around y) y (s.sight y) ((s.bound name type).sight y)) :
    Follows made [e] s (s.bound name type) where
  receivers := rfl
  frames_length := by simp [Building.bound]
  frames_tail := by cases hframes : s.frames <;> simp [Building.bound, hframes]
  pending _ ht := ht
  hoisted _ ht := ht
  size := by simp [Building.bound]
  bounded hs := hs.bound
  names _ y := ⟨_, he y, .refl _⟩

theorem follows_define : Follows made [.define name] s (s.bound name type) :=
  follows_bound fun _ => ⟨Building.keeps_bound, by simp [Building.sight, Building.bound]⟩

/-- The declaration of a name that the innermost frame does not know. -/
theorem follows_bind (hne : s.frames ≠ []) (hnone : (s.sight name).own = none)
    (hmade : ∃ initializer, made (nodeAt r (.varDeclaration s.vars.size initializer))) :
    Follows made [.bind name r] s (s.bound name type) := by
  refine follows_bound fun y => ⟨Building.keeps_bound, by simp [Building.sight, Building.bound],
    Building.isDeclared_bound, fun v hv => ?_, ?_⟩
  · by_cases hy : name = y
    · subst hy
      rw [hnone] at hv
      cases hv
    · exact (Building.keeps_bound hy).own.trans hv
  · rintro rfl - -
    exact ⟨_, Building.own_bound hne, Nat.le_refl _, hmade⟩

/-- A value for a name that is bound or belongs elsewhere changes nothing. -/
theorem follows_rebind (hbound : (s.sight name).own = none → (s.sight name).isDeclared = true) :
    Follows made [.bind name r] s s := by
  have hrefl : Follows made [] s s := .refl s
  refine { hrefl with names := fun _ y =>
    ⟨s.sight y, ⟨fun _ => .refl _, Nat.le_refl _, rfl, fun _ hv => hv, ?_⟩, .refl _⟩ }
  rintro rfl hnone hopen
  rw [hbound hnone] at hopen
  cases hopen

theorem runs_bound {f : VariableId → Build α} {Q : α → Building → Prop}
    (hf : s.frames ≠ [] → Runs (f s.vars.size) (s.bound name type) (fun _ => True) Q) :
    Runs (do let v ← newLocal name type; bindName name v; f v) s (fun _ => True) Q := by
  let fresh : Variable :=
    { name, typeName := type, kind := .localVar, isStatic := false, scope := none }
  refine Runs.bind (Q := fun v s' => v = s.vars.size ∧ s' = { s with vars := s.vars.push fresh })
    ⟨rfl, rfl⟩ ?_
  rintro _ _ ⟨rfl, rfl⟩
  refine Runs.bind (Q := fun _ s' => s.frames ≠ [] ∧ s' = s.bound name type) ?_ ?_
  · refine runs_get_bind ?_
    rcases hframes : s.frames with _ | ⟨frame, outer⟩
    · exact runs_throw trivial
    · refine runs_modify_bind (f := pure) ⟨by simp, ?_⟩
      simp [Building.bound, hframes, fresh]
  · rintro _ _ ⟨hne, rfl⟩
    exact hf hne

theorem traces_define {f : VariableId → Build β} (hf : ∀ v, Traces o us (f v) es h) :
    Traces o us (do let v ← newLocal name type; bindName name v; f v) (.define name :: es) h := by
  exact fun s hs => runs_bound fun _ => (hf _).after [] hs follows_define

end Bound

/-! ## Names -/

theorem calm_newVariable {type : Option String} {kind : VariableKind} {isStatic : Bool} :
    Calm (newVariable name type kind isStatic) := by
  intro s made
  refine follows_of_frames rfl rfl (fun _ ht => ht) (fun _ ht => ht) ?_ fun hs e he => ?_
  · simp
  · simpa using Nat.lt_succ_of_lt (hs.2 e he)

/-- A field of the module is found or made. -/
theorem runs_fieldOfModule {modifiers : List String} :
    Runs (globalField name modifiers) s (fun _ => True) fun v s' =>
      (∀ made, Follows made [] s s') ∧ s'.frames = s.frames ∧
        (s.Bounded → (v : Nat) < s'.vars.size) := by
  refine runs_get_bind ?_
  rcases hlookup : s.moduleFields.lookup name with _ | v
  · refine Runs.bind (Q := fun v s' => v = s.vars.size ∧ s' = { s with vars := s.vars.push _ })
      ⟨rfl, rfl⟩ ?_
    rintro _ _ ⟨rfl, rfl⟩
    refine runs_get_bind (runs_modify_bind (runs_pure ⟨fun made => ?_, rfl, fun _ => by simp⟩))
    refine follows_of_frames rfl rfl (fun _ ht => ht) (List.subset_append_left _ _) (by simp)
      fun hs => List.forall_mem_cons.mpr ⟨by simp, fun e he => ?_⟩
    simpa using Nat.lt_succ_of_lt (hs.2 e he)
  · exact runs_pure ⟨fun _ => .refl s, rfl, fun hs => hs.2 (name, v) (mem_of_lookup hlookup)⟩

/-- What an assignment to a name finds out: if it finds no variable, the innermost frame has none, and
if it finds one, the frame has it or the name belongs elsewhere. -/
theorem runs_bindingOf : Runs (binding? name) s (fun _ => True) fun w s' =>
    (∀ made, Follows made [] s s') ∧ (w = none → (s'.sight name).own = none) ∧
      ∀ v, w = some v → (s'.sight name).own = none → (s'.sight name).isDeclared = true := by
  refine runs_get_bind ?_
  rcases hframes : s.frames with _ | ⟨frame, outer⟩
  · exact runs_pure ⟨fun _ => .refl s, by simp [Building.sight, hframes],
      by simp [Building.sight, hframes]⟩
  · simp only []
    rcases hlookup : frame.names.lookup name with _ | v
    · have hnone : ∀ s' : Building, s'.frames = s.frames → (s'.sight name).own = none :=
        fun s' h => by simp [Building.sight, h, hframes, hlookup]
      simp only []
      split
      · next hglobal =>
        refine Runs.map (runs_fieldOfModule.mono fun v s' ⟨h, hsame, _⟩ => ⟨h, nofun, ?_⟩)
        simp only [Building.sight, hsame, hframes, List.head?_cons, Option.all_some, hglobal]
        simp
      · split
        · next hmodule =>
          refine runs_pure ⟨fun _ => .refl s, fun _ => hnone s rfl, fun _ _ _ => ?_⟩
          simp [Building.sight, hframes, hmodule]
        · split
          · next hnonlocal =>
            refine runs_pure ⟨fun _ => .refl s, fun _ => hnone s rfl, fun _ _ _ => ?_⟩
            simp only [Building.sight, hframes, List.head?_cons, Option.all_some, hnonlocal]
            simp
          · exact runs_pure ⟨fun _ => .refl s, fun _ => hnone s rfl, nofun⟩
    · refine runs_pure ⟨fun _ => .refl s, nofun, fun w _ hnone => ?_⟩
      simp [Building.sight, hframes, hlookup] at hnone

/-- A value for a name: it is bound or belongs elsewhere, or it is declared. -/
theorem traces_binding_of (initializer : Option Tree) {k : Option VariableId → Build β}
    {f : VariableId → Build β} {type : Option String}
    (hk : k none = do let v ← newLocal name type; bindName name v; f v)
    (hsome : ∀ v s, s.object? = o →
      ((s.sight name).own = none → (s.sight name).isDeclared = true) →
      Runs (k (some v)) s (fun _ => True) fun b s' =>
        Follows (Stands (h b ++ s'.moving)) (.bind name r :: es) s s' ∧ Within us (h b ++ s'.moving))
    (hnone : ∀ v, Traces o (nodeAt r (.varDeclaration v initializer) :: us) (f v) es h) :
    Traces o us (binding? name >>= k) (.bind name r :: es) h := by
  intro s hs
  refine runs_bindingOf.bind fun w s₁ ⟨h₁, hfree, hbound⟩ => ?_
  rcases w with _ | v
  · rw [hk]
    refine runs_bound fun hne => (hnone _).after [_] hs ((h₁ _).trans (follows_bind hne (hfree rfl) ?_))
    exact ⟨_, stands_of_mem List.mem_cons_self⟩
  · have hs₁ : s₁.object? = o := (h₁ fun _ => True).object?.trans hs
    exact (hsome v s₁ hs₁ (hbound v rfl)).mono fun b s₂ h₂ => ⟨(h₁ _).trans h₂.1, h₂.2⟩

/-- A value for a name that does nothing more if the name is bound or belongs elsewhere. -/
theorem traces_binding (initializer : Option Tree) {k : Option VariableId → Build β}
    {f : VariableId → Build β} {type : Option String}
    (hk : k none = do let v ← newLocal name type; bindName name v; f v)
    (hsome : ∀ v, Traces o us (k (some v)) es h)
    (hnone : ∀ v, Traces o (nodeAt r (.varDeclaration v initializer) :: us) (f v) es h) :
    Traces o us (binding? name >>= k) (.bind name r :: es) h :=
  traces_binding_of initializer hk
    (fun v _ hs hbound => (hsome v).after [] hs (follows_rebind hbound)) hnone

/-- A name that is read becomes a node with the variable that it means in the frames, if it means
one. -/
theorem traces_nameNode : Traces o [] (nameNode r name) [.read name r false] fun t => [t] := by
  have hread : ∀ (s s' : Building) (w : Option VariableId) (ts : List Tree),
      (∀ made, Follows made [] s s') →
      (s.Bounded → ∀ v : Nat, w = some v → v < s'.vars.size) →
      (∀ v, (s.frames.findSome? fun frame => frame.names.lookup name) = some v → w = some v) →
      Follows (Stands ([mentionAt r name w] ++ ts)) [.read name r false] s s' := by
    intro s s' w ts h hlt hmeaning
    have hstands : Stands ([mentionAt r name w] ++ ts) (mentionAt r name w) :=
      stands_of_mem List.mem_cons_self
    have hcalm := h (Stands ([mentionAt r name w] ++ ts))
    refine { hcalm with names := fun hs y => ⟨s'.sight y, ⟨hcalm.names hs y, ?_⟩, .refl _⟩ }
    rintro rfl
    exact ⟨w, hstands, fun v hv => hmeaning v (s.own_or_around name ▸ hv), hlt hs⟩
  intro s hs
  refine Runs.bind (Q := fun w s' => s = s' ∧
    w = (s.frames.findSome? fun frame => frame.names.lookup name).or (s.moduleFields.lookup name))
    ⟨rfl, rfl⟩ ?_
  rintro w _ ⟨rfl, hw⟩
  split
  · next v =>
    refine runs_pure ⟨hread s s (some v) _ (fun _ => .refl s) ?_ ?_, within_nil⟩
    · intro hbounded _ heq
      cases heq
      rcases Option.or_eq_some_iff.mp hw.symm with hv | ⟨-, hv⟩
      · exact hbounded.lt_of_lookup hv
      · exact hbounded.2 (name, v) (mem_of_lookup hv)
    · intro v' hv'
      rw [hw, hv', Option.some_or]
  · have hnone : ∀ v, (s.frames.findSome? fun frame => frame.names.lookup name) ≠ some v := by
      intro v hv
      rw [hv, Option.some_or] at hw
      cases hw
    split
    · refine runs_fieldOfModule.bind fun v s₁ ⟨h₁, _, hlt⟩ => ?_
      refine runs_pure ⟨?_, within_nil⟩
      refine hread s s₁ (some v) _ h₁ (fun hbounded _ heq => ?_) fun v' hv' => absurd hv' (hnone v')
      exact Option.some_inj.mp heq ▸ hlt hbounded
    · refine runs_pure ⟨?_, within_nil⟩
      exact hread s s none _ (fun _ => .refl s) (fun _ _ => nofun) fun v' hv' => absurd hv' (hnone v')

theorem runs_isObject {e : Expr} (hs : s.object? = o) :
    Runs (isReceiver e) s (fun _ => True) fun b s' => b = e.isObject o ∧ s' = s := by
  refine runs_get_bind ?_
  rw [← hs, Expr.isObject]
  rcases hobject : s.receivers.head?.bind Receiver.name with _ | name
  · exact runs_pure ⟨by simp [Building.object?, hobject], rfl⟩
  · exact runs_pure ⟨by simp [Building.object?, hobject], rfl⟩

theorem traces_isReceiver {e : Expr} {f : Bool → Build β}
    (hf : Traces o us (f (e.isObject o)) es h) : Traces o us (isReceiver e >>= f) es h := by
  intro s hs
  refine (runs_isObject hs).bind fun b s' ⟨hb, hs'⟩ => ?_
  subst hb hs'
  exact hf s' hs

theorem runs_created {value : Expr} {attr : String} (hs : s.object? = o) :
    Runs (createdType? (.attribute r value attr)) s (fun _ => True) fun created s' =>
      created = Expr.created? o r value attr ∧ s' = s := by
  rw [createdType?, Expr.created?]
  refine (runs_isObject hs).bind fun b s' ⟨hb, hs'⟩ => ?_
  subst hb hs'
  split <;> exact runs_pure ⟨rfl, rfl⟩

theorem traces_createdType? {value : Expr} {attr : String} {f : Option String → Build β}
    (hf : Traces o us (f (Expr.created? o r value attr)) es h) :
    Traces o us (createdType? (.attribute r value attr) >>= f) es h := by
  intro s hs
  refine (runs_created hs).bind fun created s' ⟨hcreated, hs'⟩ => ?_
  subst hcreated hs'
  exact hf s' hs

theorem calm_createdType? {id : String} : Calm (createdType? (.name r id)) :=
  calm_pure

/-! ## Frames -/

theorem Traces.inFrame {names : Names} (hx : Traces o [] x es g) (hs : s.object? = o)
    (hnames : s.Bounded → ∀ e ∈ names, (e.2 : Nat) < s.vars.size) :
    Runs (withFrame (.ofNames names) x) s (fun _ => True) fun a s' =>
      Follows (Stands (g a ++ s'.moving)) (captured (names.map (·.1)) es) s s' ∧
        ∀ f : Routine, f.events .built = es → f.parameters = names.map (·.1) → s.Bounded →
          f.ResolvedBy (fun x v => (x, v) ∈ names) (Stands (g a ++ s'.moving)) := by
  refine runs_withFrame (Runs.mono (hx { s with frames := _ :: s.frames } hs) fun a s' ⟨h, _⟩ => ?_)
  exact h.inFrame hnames

theorem traces_withFrame (hx : Traces o [] x es g) :
    Traces o [] (withFrame (.ofNames []) x) (captured [] es) g := by
  intro s hs
  have hnone : s.Bounded → ∀ e ∈ ([] : Names), (e.2 : Nat) < s.vars.size := fun _ _ he => nomatch he
  exact (hx.inFrame hs hnone).mono fun _ _ h => ⟨h.1, within_nil⟩

theorem runs_parameterNames (ps : List Parameter) {s : Building} :
    Runs (parameterNames ps) s (fun _ => True) fun names s' => (∀ made, Follows made [] s s') ∧
      names.map (·.1) = ps.map Parameter.name ∧ ∀ e ∈ names, (e.2 : Nat) < s'.vars.size := by
  induction ps generalizing s with
  | nil => exact ⟨fun _ => .refl s, rfl, fun _ he => absurd he List.not_mem_nil⟩
  | cons p rest ih =>
    rw [parameterNames]
    refine Runs.bind (Q := fun v s' => v = s.vars.size ∧ s' = { s with vars := s.vars.push _ })
      ⟨rfl, rfl⟩ ?_
    rintro _ _ ⟨rfl, rfl⟩
    apply ih.bind
    rintro names s₂ ⟨h₂, hnames, hlt⟩
    have hsize := (h₂ fun _ => True).size
    rw [Array.size_push] at hsize
    refine runs_pure ⟨fun made => Follows.trans (calm_newVariable s made) (h₂ made), ?_, ?_⟩
    · rw [List.map_cons, List.map_cons, hnames]
    · exact List.forall_mem_cons.mpr ⟨hsize, hlt⟩

/-- An anonymous function. -/
theorem Traces.lambda {ps : List Parameter} {k : Names → α → Build β} (hx : Traces o [] x es g)
    (hk : ∀ names a, Traces o (g a ++ us) (k names a) fs h) :
    Traces o us (do
      let names ← parameterNames ps
      let a ← withFrame (.ofNames names) x
      k names a) ((captured (ps.map Parameter.name) es).map .inward ++ fs) h := by
  intro s hs
  refine (runs_parameterNames ps).bind fun names s₁ ⟨h₁, hnames, hlt⟩ => ?_
  have hs₁ : s₁.object? = o := (h₁ fun _ => True).object?.trans hs
  refine Runs.bind (hx.inFrame hs₁ fun _ => hlt) fun a s₂ ⟨h₂, _⟩ => ?_
  rw [hnames] at h₂
  exact (hk names a).after _ hs ((h₁ _).trans h₂.inward)

/-- A function, whose node introduces the variables of its parameters. -/
theorem Traces.routine {f : Routine} {k : Names → List Tree → β} {x : Build (List Tree)}
    (hx : Traces f.receiver [] x (f.events .built) id)
    (hk : ∀ names ts, Within ts (h (k names ts)) ∧ ∃ shape,
      Stands (h (k names ts)) (nodeAt f.range shape) ∧ ∀ e ∈ names, e.2 ∈ shape.introduced) :
    Traces f.receiver [] (do
      let names ← parameterNames f.signature.parameters
      let ts ← withFrame (.ofNames names) x
      return k names ts) (.routine f :: (captured f.parameters (f.events .built)).map .inward) h := by
  intro s hs
  refine (runs_parameterNames _).bind fun names s₁ ⟨h₁, hnames, hlt⟩ => ?_
  have hs₁ : s₁.object? = f.receiver := (h₁ fun _ => True).object?.trans hs
  refine Runs.bind (hx.inFrame hs₁ fun _ => hlt) fun ts s₂ ⟨h₂, hresolved⟩ => ?_
  rw [hnames] at h₂ hresolved
  obtain ⟨hwithin, shape, hshape, hintroduced⟩ := hk names ts
  have hmade : Within (ts ++ s₂.moving) (h (k names ts) ++ s₂.moving) :=
    within_append.mpr ⟨hwithin.trans (within_of_subset (List.subset_append_left _ _)),
      within_of_subset (List.subset_append_right _ _)⟩
  have hnode : Stands (h (k names ts) ++ s₂.moving) (nodeAt f.range shape) :=
    within_of_subset (List.subset_append_left _ _) _ hshape
  refine runs_pure ⟨(((h₁ _).trans h₂.inward).mono hmade).routine fun hbounded => ?_,
    within_nil⟩
  exact (hresolved f rfl rfl ((h₁ fun _ => True).bounded hbounded)).mono
    (fun y v hv => ⟨shape, hnode, hintroduced _ hv⟩) hmade

/-! ## Methods -/

theorem Follows.closeQualifier {made : Tree → Prop} {s' : Building} {qs qs' : List String}
    (h : Follows made es { s with qualifiers := qs } s') :
    Follows made es s { s' with qualifiers := qs' } :=
  { h with
    bounded := h.bounded
    names := h.names }

theorem Follows.closeReceiver {made : Tree → Prop} {s' : Building} {receiver : Receiver}
    (h : Follows made es { s with receivers := receiver :: s.receivers } s') :
    Follows made es s { s' with receivers := s'.receivers.drop 1 } :=
  { h with
    receivers := by rw [h.receivers, List.drop_one, List.tail_cons]
    bounded := h.bounded
    names := h.names }

theorem Traces.withQualifier (hx : Traces o [] x es g) :
    Traces o [] (withQualifier name x) es g := by
  intro s hs
  refine runs_withQualifier (Runs.mono (hx { s with qualifiers := _ } hs) fun a s' ⟨h, _⟩ => ?_)
  exact ⟨h.closeQualifier, within_nil⟩

theorem changed?_captured {parameters : List String} :
    ∀ e ∈ captured parameters es, e.changed? = none := by
  intro e he
  obtain ⟨-, hcaptured⟩ := List.mem_filter.mp he
  cases e with
  | read => rfl
  | routine => rfl
  | _ => cases hcaptured

theorem filter_captured {parameters : List String} :
    (captured parameters es).filter Event.isRoutine = es.filter Event.isRoutine := by
  rw [captured, List.filter_filter]
  refine List.filter_congr fun e _ => ?_
  cases e <;> simp [Event.isRoutine]

theorem calm_qualified : Calm (qualified name) := fun s _ => .refl s

/-- A method, which may know an object. What happens to names in it stays there, but for the functions
that stand in it. -/
theorem traces_methodNode {f : Routine} {fields : Option Names} {x : Build (List Tree)}
    (hx : Traces f.receiver [] x (f.events .built) id)
    (hreceiver : (fields.map f.signature.receiver).elim o Receiver.name = f.receiver) :
    Traces o [] (methodNode f.range f.signature fields x)
      (.routine f :: (f.events .built).filter Event.isRoutine) fun t => [t] := by
  intro s hs
  rw [methodNode]
  refine (runs_parameterNames _).bind fun names s₁ ⟨h₁, hnames, hlt⟩ => ?_
  have hs₁ : s₁.object? = o := (h₁ fun _ => True).object?.trans hs
  have hbody : ∀ s₂ : Building, s₂.vars = s₁.vars → s₂.object? = f.receiver →
      Runs (withQualifier f.signature.name (withFrame (.ofNames names) x)) s₂ (fun _ => True)
        fun ts s₃ => Follows (Stands (ts ++ s₃.moving)) ((f.events .built).filter Event.isRoutine)
          s₂ s₃ ∧ (s₂.Bounded → f.ResolvedBy (fun x v => (x, v) ∈ names)
            (Stands (ts ++ s₃.moving))) := by
    intro s₂ hvars hs₂
    refine runs_withQualifier (Runs.mono (hx.inFrame (s := { s₂ with qualifiers := _ }) hs₂
      fun _ => hvars ▸ hlt) fun ts s₃ ⟨h₃, hresolved⟩ => ?_)
    have hroutines := h₃.routines changed?_captured
    rw [filter_captured] at hroutines
    exact ⟨hroutines.closeQualifier, hresolved f rfl hnames.symm⟩
  have hreceived : Runs (withReceiver (fields.map f.signature.receiver)
      (withQualifier f.signature.name (withFrame (.ofNames names) x))) s₁ (fun _ => True)
        fun ts s₃ => Follows (Stands (ts ++ s₃.moving)) ((f.events .built).filter Event.isRoutine)
          s₁ s₃ ∧ (s₁.Bounded → f.ResolvedBy (fun x v => (x, v) ∈ names)
            (Stands (ts ++ s₃.moving))) := by
    rcases fields with _ | fields
    · exact hbody s₁ rfl (hs₁.trans hreceiver)
    · exact runs_withReceiver_some ((hbody { s₁ with receivers := _ :: s₁.receivers } rfl
        hreceiver).mono fun ts s₃ h₃ => ⟨h₃.1.closeReceiver, h₃.2⟩)
  refine Runs.bind hreceived fun ts s₃ ⟨h₃, hresolved⟩ => ?_
  refine Runs.bind (calm_qualified s₃) fun q s₄ h₄ => ?_
  let node := nodeAt f.range (.declaration
    { name := f.signature.name, kind := .method, qualifiedName := q,
      modifiers := NameSet.ofList f.signature.modifiers, parameters := names.map (·.2),
      var := none, isDisposable := false } [] none ts)
  have hmade : Within (ts ++ s₃.moving) ([node] ++ s₄.moving) := by
    refine within_append.mpr ⟨?_, within_of_subset ?_⟩
    · have hbelow : Within ts [node] := within_node (by simp [Shape.children, Shape.slots])
      exact hbelow.trans (within_of_subset (List.subset_append_left _ _))
    · exact List.Subset.trans (h₄ fun _ => True).moving (List.subset_append_right _ _)
  have hnode : Stands ([node] ++ s₄.moving) node := stands_of_mem List.mem_cons_self
  have hall := ((h₁ _).trans (h₃.mono hmade)).trans (h₄ _)
  rw [List.append_nil] at hall
  refine runs_pure ⟨hall.routine fun hbounded => ?_, within_nil⟩
  refine (hresolved ((h₁ fun _ => True).bounded hbounded)).mono (fun y v hv => ⟨_, hnode, ?_⟩) hmade
  exact List.mem_append_left _ (List.mem_map_of_mem hv)

/-! ## Trees put aside -/

theorem Traces.collectPending (hx : Traces o [] x es g) :
    Traces o [] (collectPending x) es fun p => p.1 ++ g p.2 := by
  intro s hs
  refine runs_collectPending (Runs.mono (hx { s with pending := [] } hs) fun a s' ⟨h, _⟩ => ?_)
  have hcleared : Follows (Stands (g a ++ s'.moving)) es s { s' with pending := s.pending } :=
    { h with
      pending := fun _ ht => ht
      bounded := h.bounded
      names := h.names }
  refine ⟨hcleared.mono (within_of_subset ?_), within_nil⟩
  intro t ht
  simp only [Building.moving, List.mem_append] at ht ⊢
  tauto

theorem Traces.withPending {x : Build (List Tree)} (hx : Traces o [] x es id) :
    Traces o [] (withPending x) es id :=
  hx.collectPending.last fun _ => within_of_subset (by simp)

theorem traces_putAside {t : Tree} {put : Building → Building} {f : PUnit → Build β}
    (hput : ∀ s made, Follows made [] s (put s)) (ht : ∀ s, t ∈ (put s).moving)
    (hf : Traces o us (f ⟨⟩) fs h) : Traces o (t :: us) (modify put >>= f) fs h := by
  intro s hs
  have hs' : (put s).object? = o := (hput s fun _ => True).object?.trans hs
  refine runs_modify_bind ((hf (put s) hs').mono
    fun b s' ⟨h₁, hwithin⟩ => ⟨(hput s _).trans h₁, within_cons.mpr ⟨?_, hwithin⟩⟩)
  refine within_of_subset fun u hu => List.mem_append_right _ (h₁.moving ?_)
  exact List.mem_singleton.mp hu ▸ ht s

theorem traces_addPending {t : Tree} {f : PUnit → Build β} (hf : Traces o us (f ⟨⟩) fs h) :
    Traces o (t :: us) (addPending t >>= f) fs h :=
  traces_putAside (fun _ _ => follows_of_frames rfl rfl (List.subset_append_left _ _)
    (fun _ hu => hu) (Nat.le_refl _) fun hs => hs.2) (fun s => by simp [Building.moving]) hf

theorem traces_addHoisted {t : Tree} {f : PUnit → Build β} (hf : Traces o us (f ⟨⟩) fs h) :
    Traces o (t :: us) (addHoisted t >>= f) fs h :=
  traces_putAside (fun _ _ => follows_of_frames rfl rfl (fun _ hu => hu)
    (List.subset_append_left _ _) (Nat.le_refl _) fun hs => hs.2)
    (fun s => by simp [Building.moving]) hf

/-- A name as a target becomes a node. If it is new, its declaration is put before the statement. -/
theorem traces_targetName : Traces o [] (targetName r name) [.bind name r] fun t => [t] :=
  traces_binding none rfl (fun _ => traces_pure within_nil) fun _ =>
    traces_addPending (traces_pure within_nil)

end Traces

end ModelLint.Source
