import ModelLint.Proofs.Source.Disposal
import ModelLint.Proofs.Source.Routines

/-!
# Where reads lead

A name that a function binds is one variable in all reads that are built behind a binding, and another
one or none in the reads before. A read that runs behind a binding is built behind it unless it stands
in a part of a statement that is built too early.

* `ReadBehind`: a read stands behind something that binds the name.
* `Reordered`: the events of statements in the two orders. `reordered_eventsIn` says what they share.
* `Model.MeansBehind`: what the reads of a name mean in the unit.
* **`inner_reads_of_load`**: the reads of functions inside.
* **`own_reads_of_load`**: the reads of the function itself.
-/

namespace ModelLint

namespace Source

variable {o : Option String} {x : String} {r : Range} {i : Bool} {es es' fs fs' : List Event}
  {order : Order}

/-- A name is read behind something that binds it, by a function itself or by one inside it. -/
def ReadBehind (x : String) (r : Range) (isInner : Bool) (es : List Event) : Prop :=
  ∃ r', List.Sublist [.bind x r', .read x r isInner] es

theorem ReadBehind.exists_bind (h : ReadBehind x r i es) : ∃ r', .bind x r' ∈ es :=
  let ⟨r', h⟩ := h
  ⟨r', h.subset List.mem_cons_self⟩

theorem ReadBehind.mem (h : ReadBehind x r i es) : .read x r i ∈ es :=
  let ⟨_, h⟩ := h
  h.subset (List.mem_cons_of_mem _ List.mem_cons_self)

theorem readBehind_append : ReadBehind x r i (es ++ fs) ↔ ReadBehind x r i es ∨
    ReadBehind x r i fs ∨ (∃ r', .bind x r' ∈ es) ∧ .read x r i ∈ fs := by
  constructor
  · rintro ⟨r', h⟩
    obtain ⟨l₁, l₂, heq, h₁, h₂⟩ := List.sublist_append_iff.mp h
    rcases l₁ with _ | ⟨e, _ | ⟨e', l₁⟩⟩
    · rw [List.nil_append] at heq
      exact .inr (.inl ⟨r', heq ▸ h₂⟩)
    · obtain ⟨rfl, rfl⟩ : _ ∧ _ := by simpa using heq
      exact .inr (.inr ⟨⟨r', List.singleton_sublist.mp h₁⟩, List.singleton_sublist.mp h₂⟩)
    · obtain ⟨rfl, rfl, rfl, rfl⟩ : _ ∧ _ ∧ _ ∧ _ := by simpa using heq
      exact .inl ⟨r', h₁⟩
  · rintro (⟨r', h⟩ | ⟨r', h⟩ | ⟨⟨r', hbind⟩, hread⟩)
    · exact ⟨r', h.trans (List.sublist_append_left _ _)⟩
    · exact ⟨r', h.trans (List.sublist_append_right _ _)⟩
    · exact ⟨r', (List.singleton_sublist.mpr hbind).append (List.singleton_sublist.mpr hread)⟩

theorem readBehind_cons {e : Event} : ReadBehind x r i (e :: es) ↔
    ((∃ r', e = .bind x r') ∧ .read x r i ∈ es) ∨ ReadBehind x r i es := by
  rw [← List.singleton_append, readBehind_append]
  have hsingle : ¬ ReadBehind x r i [e] := fun ⟨_, h⟩ => by
    simpa using h.length_le
  have hbind : (∃ r', Event.bind x r' ∈ [e]) ↔ ∃ r', e = .bind x r' := by
    simp only [List.mem_singleton, eq_comm]
  rw [hbind]
  tauto

/-! ## Computing

Whether a name is bound, read, and read behind a binding can be decided. -/

/-- Whether the event gives a value to a name. -/
def Event.gives (x : String) : Event → Bool
  | bind y _ => y = x
  | _ => false

/-- Whether the event is the read of a name at a range. -/
def Event.reads (x : String) (r : Range) (isInner : Bool) : Event → Bool
  | read y r' isInner' => decide (y = x ∧ r' = r ∧ isInner' = isInner)
  | _ => false

theorem Event.gives_iff {e : Event} : e.gives x = true ↔ ∃ r, e = .bind x r := by
  cases e <;> simp [gives]

theorem Event.reads_iff {e : Event} : e.reads x r i = true ↔ e = .read x r i := by
  cases e <;> simp [reads]

instance : Decidable (∃ r, .bind x r ∈ es) :=
  decidable_of_iff (es.any (Event.gives x)) (by
    simp only [List.any_eq_true, Event.gives_iff]
    exact ⟨fun ⟨_, he, r, heq⟩ => ⟨r, heq ▸ he⟩, fun ⟨r, hr⟩ => ⟨_, hr, r, rfl⟩⟩)

instance : Decidable (.read x r i ∈ es) :=
  decidable_of_iff (es.any (Event.reads x r i)) (by simp [Event.reads_iff])

instance decidableReadBehind : (es : List Event) → Decidable (ReadBehind x r i es)
  | [] => .isFalse fun h => nomatch h.mem
  | e :: es =>
    have := decidableReadBehind es
    have : Decidable (∃ r', e = .bind x r') := decidable_of_iff (e.gives x) Event.gives_iff
    decidable_of_iff _ readBehind_cons.symm

/-! ## The two orders -/

theorem memberEvents_assign (o : Option String) (r : Range) (targets : List Expr) (value : Expr) :
    ∃ fs, ∀ order rest, memberEvents order o (.assign r targets value :: rest) =
      redefined fs ++ memberEvents order o rest := by
  by_cases hname : ∃ target id, targets = [Expr.name target id]
  · obtain ⟨target, id, rfl⟩ := hname
    exact ⟨value.events o, fun order rest => by rw [memberEvents]⟩
  · refine ⟨[], fun order rest => ?_⟩
    rw [memberEvents]
    · rfl
    all_goals grind

theorem memberEvents_annotate (o : Option String) (r : Range) (target typeHint : Expr)
    (value : Option Expr) : ∃ fs, ∀ order rest,
      memberEvents order o (.annotate r target typeHint value :: rest) =
        redefined fs ++ memberEvents order o rest := by
  by_cases hname : ∃ tr id e, target = Expr.name tr id ∧ value = some e
  · obtain ⟨tr, id, e, rfl, rfl⟩ := hname
    exact ⟨e.events o, fun order rest => by rw [memberEvents]⟩
  · refine ⟨[], fun order rest => ?_⟩
    rw [memberEvents]
    · rfl
    all_goals grind

/-- Nothing in a class gives a value to a name of the function around. -/
theorem not_bind_mem_memberEvents (o : Option String) (order : Order) (x : String) (r : Range)
    (body : List Stmt) : .bind x r ∉ memberEvents order o body := by
  cases body with
  | nil =>
    rw [memberEvents]
    exact List.not_mem_nil
  | cons stmt rest =>
    have hrest := not_bind_mem_memberEvents o order x r rest
    have hredefined : ∀ fs, Event.bind x r ∉ redefined fs ++ memberEvents order o rest := fun fs => by
      simp [redefined, hrest]
    cases stmt with
    | function r' signature body => simp [memberEvents, hrest, Event.isRoutine]
    | classType r' name bases body =>
      simp [memberEvents, hrest, not_bind_mem_memberEvents o order x r body]
    | assign r' targets value =>
      obtain ⟨fs, heq⟩ := memberEvents_assign o r' targets value
      exact heq order rest ▸ hredefined fs
    | annotate r' target typeHint value =>
      obtain ⟨fs, heq⟩ := memberEvents_annotate o r' target typeHint value
      exact heq order rest ▸ hredefined fs
    | _ => simpa only [memberEvents]

/-- Nothing that a function inside leaves gives a value to a name of the function around. -/
theorem not_bind_mem_captured {parameters : List String} :
    Event.bind x r ∉ (captured parameters es).map .inward := by
  intro h
  obtain ⟨e, he, heq⟩ := List.mem_map.mp h
  have hleft := (List.mem_filter.mp he).2
  cases e <;> simp [Event.inward, Event.isRoutine] at heq hleft

theorem perm_captured {parameters : List String} (h : es.Perm es') :
    (captured parameters es).Perm (captured parameters es') := by
  have hsame : ∀ p : Event → Bool, es.all p = es'.all p := fun p => by
    rw [Bool.eq_iff_iff, List.all_eq_true, List.all_eq_true]
    exact forall_congr' fun e => by rw [h.mem_iff]
  rw [captured, captured]
  simp only [hsame]
  exact h.filter _

/-- The same events in two orders, of which some parts are swapped. If those parts are apart, then
reads stay behind what binds the name. -/
structure Reordered (ps : List (List Event × List Event)) (es fs : List Event) : Prop where
  /-- The events are the same. -/
  perm : es.Perm fs
  /-- Reads stay behind what binds the name. -/
  readBehind : ∀ x r i, (∀ p ∈ ps, Apart x i p) → ReadBehind x r i es → ReadBehind x r i fs

namespace Reordered

variable {ps qs : List (List Event × List Event)}

theorem refl (es : List Event) : Reordered [] es es := ⟨.refl es, fun _ _ _ _ h => h⟩

/-- Without something that binds a name no order matters. -/
theorem of_perm (h : es.Perm es') (hbind : ∀ x r, .bind x r ∉ es) : Reordered [] es es' where
  perm := h
  readBehind _ _ _ _ hr := let ⟨_, h⟩ := hr.exists_bind; absurd h (hbind _ _)

theorem append (h : Reordered ps es es') (h' : Reordered qs fs fs') :
    Reordered (ps ++ qs) (es ++ fs) (es' ++ fs') where
  perm := h.perm.append h'.perm
  readBehind x r i hapart hr := by
    rw [List.forall_mem_append] at hapart
    rw [readBehind_append] at hr ⊢
    refine hr.imp (h.readBehind x r i hapart.1) (Or.imp (h'.readBehind x r i hapart.2) ?_)
    rintro ⟨⟨r', hbind⟩, hread⟩
    exact ⟨⟨r', h.perm.mem_iff.mp hbind⟩, h'.perm.mem_iff.mp hread⟩

theorem join (h : Reordered ps es es') (h' : Reordered qs fs fs') :
    Reordered ((es, fs) :: (ps ++ qs)) (Order.run.join es fs) (Order.built.join es' fs') where
  perm := (h.perm.append h'.perm).trans List.perm_append_comm
  readBehind x r i hapart hr := by
    rw [List.forall_mem_cons, List.forall_mem_append] at hapart
    obtain ⟨hapart, hfirst, hsecond⟩ := hapart
    refine readBehind_append.mpr ?_
    rcases readBehind_append.mp hr with hr | hr | ⟨⟨r', hbind⟩, hread⟩
    · exact .inr (.inl (h.readBehind x r i hfirst hr))
    · exact .inl (h'.readBehind x r i hsecond hr)
    · exact absurd hread (hapart r' r hbind)

end Reordered

mutual

theorem reordered_events (o : Option String) : (stmt : Stmt) →
    Reordered (stmt.swapped o) (stmt.events .run o) (stmt.events .built o)
  | .function r signature body => by
    rw [Stmt.events, Stmt.events, Stmt.swapped]
    · refine .of_perm (((perm_captured (reordered_eventsIn o body).perm).map _).cons _ |>.cons _)
        fun x r' => ?_
      simpa using not_bind_mem_captured
    all_goals nofun
  | .classType r name bases body => by
    rw [Stmt.events, Stmt.events, Stmt.swapped]
    · refine .of_perm ((perm_memberEvents o body).append_right _) fun x r' => ?_
      simpa using not_bind_mem_memberEvents o .run x r' body
    all_goals nofun
  | .forEach r isAsync target source body orElse => by
    rw [Stmt.events, Stmt.events, Stmt.swapped]
    exact (Reordered.refl _).append ((Reordered.refl _).append
      ((reordered_eventsIn o body).append (reordered_eventsIn o orElse)))
  | .whileLoop r condition body orElse => by
    rw [Stmt.events, Stmt.events, Stmt.swapped]
    exact ((Reordered.refl _).join (reordered_eventsIn o body)).append (reordered_eventsIn o orElse)
  | .choose r condition body orElse => by
    rw [Stmt.events, Stmt.events, Stmt.swapped]
    exact (Reordered.refl _).append
      ((reordered_eventsIn o body).append (reordered_eventsIn o orElse))
  | .withResources r resources body => by
    rw [Stmt.events, Stmt.events, Stmt.swapped]
    exact (Reordered.refl _).append (reordered_eventsIn o body)
  | .matchCases r subject cases => by
    rw [Stmt.events, Stmt.events, Stmt.swapped]
    exact (Reordered.refl _).append (reordered_caseEvents o cases)
  | .guarded r body handlers orElse finalBody => by
    rw [Stmt.events, Stmt.events, Stmt.swapped]
    exact (reordered_eventsIn o body).append ((reordered_handlerEvents o handlers).append
      ((reordered_eventsIn o orElse).join (reordered_eventsIn o finalBody)))
  | .returnValue r none | .returnValue r (some value) | .assign r targets value
  | .augment r target op value | .annotate r target typeHint value | .throwError r error cause
  | .imports r names | .globals r names | .nonlocals r names | .expr r value
  | .simple r word operands => by
    rw [Stmt.events, Stmt.events, Stmt.swapped]
    · exact .refl _
    all_goals nofun

theorem reordered_eventsIn (o : Option String) : (body : List Stmt) →
    Reordered (swappedIn o body) (eventsIn .run o body) (eventsIn .built o body)
  | [] => by
    rw [eventsIn, eventsIn, swappedIn]
    exact .refl _
  | stmt :: rest => by
    rw [eventsIn, eventsIn, swappedIn]
    exact (reordered_events o stmt).append (reordered_eventsIn o rest)

theorem reordered_caseEvents (o : Option String) : (cases : List (List Stmt)) →
    Reordered (swappedCases o cases) (caseEvents .run o cases) (caseEvents .built o cases)
  | [] => by
    rw [caseEvents, caseEvents, swappedCases]
    exact .refl _
  | body :: rest => by
    rw [caseEvents, caseEvents, swappedCases]
    exact (reordered_eventsIn o body).append (reordered_caseEvents o rest)

theorem reordered_handlerEvents (o : Option String) : (handlers : List Handler) →
    Reordered (swappedHandlers o handlers) (handlerEvents .run o handlers)
      (handlerEvents .built o handlers)
  | [] => by
    rw [handlerEvents, handlerEvents, swappedHandlers]
    exact .refl _
  | .mk r type name body :: rest => by
    rw [handlerEvents, handlerEvents, swappedHandlers]
    exact (Reordered.refl _).append ((reordered_eventsIn o body).append
      ((Reordered.refl _).append (reordered_handlerEvents o rest)))

theorem perm_memberEvents (o : Option String) : (body : List Stmt) →
    (memberEvents .run o body).Perm (memberEvents .built o body)
  | [] => by rw [memberEvents, memberEvents]
  | stmt :: rest => by
    have hrest := perm_memberEvents o rest
    cases stmt with
    | function r signature body =>
      rw [memberEvents, memberEvents]
      exact (((reordered_eventsIn _ body).perm.filter _).append hrest).cons _
    | classType r name bases body =>
      rw [memberEvents, memberEvents]
      exact (perm_memberEvents o body).append hrest
    | assign r targets value =>
      obtain ⟨fs, heq⟩ := memberEvents_assign o r targets value
      rw [heq, heq]
      exact hrest.append_left _
    | annotate r target typeHint value =>
      obtain ⟨fs, heq⟩ := memberEvents_annotate o r target typeHint value
      rw [heq, heq]
      exact hrest.append_left _
    | _ =>
      simp only [memberEvents]
      exact hrest

end

/-- **Where a function is built in order for a name**, reads are built behind what binds the name if
they run behind it. -/
theorem Routine.InOrder.readBehind {f : Routine} (h : f.InOrder x i)
    (hread : ReadBehind x r i (f.events .run)) : ReadBehind x r i (f.events .built) :=
  (reordered_eventsIn f.receiver f.body).readBehind x r i h hread

/-- A read is behind the first binding if it is behind any. -/
theorem ReadBehind.mem_after {before after : List Event} {r' : Range}
    (h : ReadBehind x r i (before ++ .bind x r' :: after))
    (hbefore : ∀ e ∈ before, e.binds x = false) : .read x r i ∈ after := by
  have hnone : ¬ ∃ r'', Event.bind x r'' ∈ before := fun ⟨r'', h⟩ => by
    simpa [Event.binds] using hbefore _ h
  rcases readBehind_append.mp h with h | ⟨r'', h⟩ | ⟨h, -⟩
  · exact absurd h.exists_bind hnone
  · rcases List.sublist_cons_iff.mp h with h | ⟨rest, heq, h⟩
    · exact h.subset (List.mem_cons_of_mem _ List.mem_cons_self)
    · exact h.subset (by rw [← (List.cons.inj heq).2]; exact List.mem_cons_self)
  · exact absurd h hnone

/-- The first event that binds a name, if it is not redefined. -/
theorem exists_first_bind (h : .bind x r ∈ es) (hother : ∀ e ∈ es, e.redefines x = false) :
    ∃ before r' after, es = before ++ .bind x r' :: after ∧ ∀ e ∈ before, e.binds x = false := by
  obtain ⟨e, before, after, hnone, hbinds, heq, -⟩ :=
    List.exists_of_eraseP h (p := Event.binds x) (by simp [Event.binds])
  have hredefines := hother e (heq ▸ List.mem_append_right _ List.mem_cons_self)
  cases e with
  | bind y r' =>
    obtain rfl : y = x := by simpa [Event.binds] using hbinds
    exact ⟨before, r', after, heq, fun e he => by simpa using hnone e he⟩
  | define y => simp_all [Event.binds, Event.redefines]
  | _ => simp [Event.binds] at hbinds

end Source

/-! ## Units -/

theorem Shape.label_eq_fieldAccess {ν : Type} {s : Shape ν} {name : String} :
    s.label = .fieldAccess name none none ↔ s = .fieldAccess name none none := by
  rcases s with _ | _ | _ | _ | _ | _ | _ | _ | _ | _ | _ | _ | _ | _ | ⟨_, _ | _, _⟩ | _ | _ | _ |
    _ | _ | _ | _ | _ <;> simp [label, traverse]

namespace Model

variable (m : Model)

/-- A name that is read at a range means a variable: the read is an access to it. Without a variable
the read is an access to a member that is not known. -/
def Means (x : String) (r : Source.Range) (meaning : Option VariableId) : Prop :=
  ∃ n ∈ m.nodes, m.graph.location n = r.location ∧ m.graph.shape n = match meaning with
    | some v => .varAccess x (some v)
    | none => .fieldAccess x none none

/-- A local variable is declared at a range. -/
def DeclaresLocal (r : Source.Range) (v : VariableId) : Prop :=
  (m.graph.variable' v).kind = .localVar ∧ ∃ n ∈ m.nodes, m.graph.location n = r.location ∧
    ∃ initializer, m.graph.shape n = .varDeclaration v initializer

/-- The node at a range introduces a variable. -/
def IntroducesAt (r : Source.Range) (v : VariableId) : Prop :=
  ∃ n ∈ m.nodes, m.graph.location n = r.location ∧ v ∈ (m.graph.shape n).introduced

/-- **The reads of a name in a function mean a variable behind the bindings of the name**, and nowhere
else. The reads are those of the function itself or those of the functions inside. -/
structure MeansBehind (f : Source.Routine) (x : String) (isInner : Bool) (v : VariableId) : Prop where
  /-- A read that is built behind a binding means the variable. -/
  built : ∀ r, Source.ReadBehind x r isInner (f.events .built) → m.Means x r (some v)
  /-- So does one that runs behind a binding, if the function is built in order. -/
  run : f.InOrder x isInner →
    ∀ r, Source.ReadBehind x r isInner (f.events .run) → m.Means x r (some v)
  /-- Any other read means something else. -/
  other : ∀ r, .read x r isInner ∈ f.events .built →
    ¬ Source.ReadBehind x r isInner (f.events .built) → ∃ w ≠ some v, m.Means x r w

variable {m}

theorem Holds.means {x : String} {r : Source.Range} {w : Option VariableId}
    (h : m.Holds (Source.mentionAt r x w)) : m.Means x r w := by
  obtain ⟨n, hn, hlocation, hlabel⟩ := h
  refine ⟨n, hn, ?_, ?_⟩
  · cases w <;> exact hlocation
  · cases w with
    | none => exact Shape.label_eq_fieldAccess.mp hlabel
    | some v => exact Shape.label_eq_varAccess.mp hlabel

/-- Where no node mentions a variable, no read means one. -/
theorem not_means_of_mention? {x : String} {r : Source.Range}
    (h : ∀ n ∈ m.nodes, m.graph.location n = r.location → (m.graph.shape n).mention? = none)
    (v : VariableId) : ¬ m.Means x r (some v) := by
  rintro ⟨n, hn, hlocation, hshape⟩
  have hnone := h n hn hlocation
  rw [hshape] at hnone
  cases hnone

theorem Holds.introducesAt {r : Source.Range} {shape : Shape Tree} {v : VariableId}
    (h : m.Holds (Source.nodeAt r shape)) (hv : v ∈ shape.introduced) : m.IntroducesAt r v := by
  obtain ⟨n, hn, hlocation, hlabel⟩ := h
  refine ⟨n, hn, hlocation, ?_⟩
  rwa [← Shape.introduced_label, hlabel, Source.nodeAt, Tree.shape, Shape.introduced_label]

end Model

namespace Source

variable {locks : List String} {named : Text.CharacterNames} {source : String} {path : Path}
  {m : Model} {body : List Stmt}
  {f : Routine} {x : String} {r : Range}

theorem declaresLocal_of_holds (hload : load named locks source path = .ok m) {v : VariableId}
    {initializer : Option Tree} (h : m.Holds (nodeAt r (.varDeclaration v initializer))) :
    m.DeclaresLocal r v := by
  obtain ⟨comments, calm, t, s, hbuilt, -, hshows⟩ := exists_built hload
  obtain ⟨n, hn, hlocation, hlabel⟩ := h
  obtain ⟨initializer', hshape⟩ := Shape.eq_varDeclaration_of_label hlabel.symm rfl
  obtain ⟨place, hplace⟩ := hshows.linked.rooted.mem_preorder.mp hn
  exact ⟨hbuilt.localsOnly hshows place n v _ hplace hshape, n, hn, hlocation, _, hshape⟩

/-- The unit of a text and a function of the text that pass a test. -/
theorem exists_routine_of_any {test : Model → Routine → Bool}
    (h : (Stmt.ofSource? named source).any fun body => (load named locks source path).toOption.any fun m =>
      (moduleEvents body).any fun
        | .routine f => test m f
        | _ => false) :
    ∃ m body f, load named locks source path = .ok m ∧ Stmt.ofSource? named source = some body ∧
      .routine f ∈ moduleEvents body ∧ test m f = true := by
  obtain ⟨body, hbody, h⟩ := (Option.any_eq_true _ _).mp h
  obtain ⟨m, hm, h⟩ := exists_load_of_any h
  obtain ⟨e, he, h⟩ := List.any_eq_true.mp h
  cases e with
  | routine f => exact ⟨m, body, f, hm, hbody, he, h⟩
  | _ => cases h

/-- The first binding of a name that is no parameter declares what the name means behind it. -/
theorem exists_meansBehind (hload : load named locks source path = .ok m)
    (hbody : Stmt.ofSource? named source = some body) (hf : .routine f ∈ moduleEvents body)
    (hx : x ∉ f.parameters) (hother : ∀ e ∈ f.events .built, e.redefines x = false)
    (hbind : .bind x r ∈ f.events .built) :
    ∃ v r, .bind x r ∈ f.events .built ∧ m.DeclaresLocal r v ∧ ∀ i, m.MeansBehind f x i v := by
  obtain ⟨before, r, after, heq, hbefore⟩ := exists_first_bind hbind hother
  obtain ⟨v, ⟨initializer, hdeclared⟩, hafter, hreads⟩ :=
    (resolved_of_load hload hbody hf).bound x hx hother before r after heq hbefore
  refine ⟨v, r, heq ▸ List.mem_append_right _ List.mem_cons_self,
    declaresLocal_of_holds hload hdeclared, fun i => ?_⟩
  have hbuilt : ∀ r', ReadBehind x r' i (f.events .built) → m.Means x r' (some v) := fun r' hr' =>
    Model.Holds.means (hafter r' i ((heq ▸ hr').mem_after hbefore))
  refine ⟨hbuilt, fun horder r' hr' => hbuilt r' (horder.readBehind hr'), fun r' hr' hnot => ?_⟩
  rw [heq, List.mem_append, List.mem_cons] at hr'
  rcases hr' with hr' | hr' | hr'
  · obtain ⟨w, hw, hne⟩ := hreads r' i hr'
    exact ⟨w, hne, hw.means⟩
  · cases hr'
  · refine absurd ⟨r, ?_⟩ hnot
    rw [heq]
    exact ((List.singleton_sublist.mpr hr').cons_cons _).trans (List.sublist_append_right _ _)

/-- **A name that functions inside read is the variable of the function around**, where it is bound
before. -/
theorem inner_reads_of_load (hload : load named locks source path = .ok m)
    (hbody : Stmt.ofSource? named source = some body) (hf : .routine f ∈ moduleEvents body)
    (hx : x ∉ f.parameters) (hother : ∀ e ∈ f.events .built, e.redefines x = false)
    (hbind : .bind x r ∈ f.events .built) :
    ∃ v r, .bind x r ∈ f.events .built ∧ m.DeclaresLocal r v ∧ m.MeansBehind f x true v :=
  let ⟨v, r, hr, hdeclares, hmeans⟩ := exists_meansBehind hload hbody hf hx hother hbind
  ⟨v, r, hr, hdeclares, hmeans true⟩

/-- A function with a name that a loop gives values to and that a function in a function inside
reads. -/
def lastText : String :=
  "def f(xs):\n    for x in xs:\n        last = x\n    def g():\n        return lambda: last\n    return g\n"

/-- The read means the variable that the loop declares. -/
theorem means_lastText :
    ∃ m body f r v, load .empty [] lastText ⟨"", ["m.py"]⟩ = .ok m ∧ Stmt.ofSource? .empty lastText = some body ∧
      .routine f ∈ moduleEvents body ∧ "last" ∉ f.parameters ∧
      (∀ e ∈ f.events .built, e.redefines "last" = false) ∧ .bind "last" r ∈ f.events .built ∧
      ReadBehind "last" ⟨⟨5, 23⟩, ⟨5, 27⟩⟩ true (f.events .built) ∧ m.DeclaresLocal r v ∧
      m.Means "last" ⟨⟨5, 23⟩, ⟨5, 27⟩⟩ (some v) := by
  have hroutine : (Stmt.ofSource? .empty lastText).any fun body =>
      (load .empty [] lastText ⟨"", ["m.py"]⟩).toOption.any fun _ => (moduleEvents body).any fun
        | .routine f => decide ("last" ∉ f.parameters ∧
            (∀ e ∈ f.events .built, e.redefines "last" = false) ∧
            (∃ r, .bind "last" r ∈ f.events .built) ∧
            ReadBehind "last" ⟨⟨5, 23⟩, ⟨5, 27⟩⟩ true (f.events .built))
        | _ => false := by
    decide +kernel
  obtain ⟨m, body, f, hm, hbody, hf, hroutine⟩ := exists_routine_of_any hroutine
  obtain ⟨hx, hother, ⟨r₀, hbind⟩, hread⟩ := of_decide_eq_true hroutine
  obtain ⟨v, r, hr, hdeclares, hmeans⟩ := inner_reads_of_load hm hbody hf hx hother hbind
  exact ⟨m, body, f, r, v, hm, hbody, hf, hx, hother, hr, hread, hdeclares, hmeans.built _ hread⟩

/-- A function that is defined before a value is given to the name that it reads. -/
def laterText : String :=
  "def f():\n    def g():\n        return x\n    x = 1\n    return g\n"

/-- The function inside reads a name that the function around binds, and the read has no variable. -/
theorem not_means_laterText :
    ∃ m body f r, load .empty [] laterText ⟨"", ["m.py"]⟩ = .ok m ∧ Stmt.ofSource? .empty laterText = some body ∧
      .routine f ∈ moduleEvents body ∧ "x" ∉ f.parameters ∧
      (∀ e ∈ f.events .built, e.redefines "x" = false) ∧ (∃ r, .bind "x" r ∈ f.events .built) ∧
      .read "x" r true ∈ f.events .built ∧ ∀ v, ¬ m.Means "x" r (some v) := by
  have hroutine : (Stmt.ofSource? .empty laterText).any fun body =>
      (load .empty [] laterText ⟨"", ["m.py"]⟩).toOption.any fun m => (moduleEvents body).any fun
        | .routine f => decide ("x" ∉ f.parameters ∧
            (∀ e ∈ f.events .built, e.redefines "x" = false) ∧
            (∃ r, .bind "x" r ∈ f.events .built) ∧
            .read "x" ⟨⟨3, 15⟩, ⟨3, 16⟩⟩ true ∈ f.events .built ∧
            ∀ n ∈ m.nodes, m.graph.location n = Range.location ⟨⟨3, 15⟩, ⟨3, 16⟩⟩ →
              (m.graph.shape n).mention? = none)
        | _ => false := by
    decide +kernel
  obtain ⟨m, body, f, hm, hbody, hf, hroutine⟩ := exists_routine_of_any hroutine
  obtain ⟨hx, hother, hbind, hread, hnone⟩ := of_decide_eq_true hroutine
  exact ⟨m, body, f, ⟨⟨3, 15⟩, ⟨3, 16⟩⟩, hm, hbody, hf, hx, hother, hbind, hread,
    Model.not_means_of_mention? hnone⟩

/-- **A name that a function reads itself is one variable of the function**, where it is bound before. A
parameter is so everywhere. -/
theorem own_reads_of_load (hload : load named locks source path = .ok m)
    (hbody : Stmt.ofSource? named source = some body) (hf : .routine f ∈ moduleEvents body)
    (hother : ∀ e ∈ f.events .built, e.redefines x = false)
    (hbind : .bind x r ∈ f.events .built) :
    ∃ v, (x ∈ f.parameters ∧ m.IntroducesAt f.range v ∧
        ∀ r, .read x r false ∈ f.events .built → m.Means x r (some v)) ∨
      (x ∉ f.parameters ∧ (∃ r, .bind x r ∈ f.events .built ∧ m.DeclaresLocal r v) ∧
        m.MeansBehind f x false v) := by
  by_cases hx : x ∈ f.parameters
  · obtain ⟨v, ⟨shape, hshape, hv⟩, hreads⟩ :=
      (resolved_of_load hload hbody hf).parameter x hx hother
    exact ⟨v, .inl ⟨hx, hshape.introducesAt hv, fun r' hr' => Model.Holds.means (hreads r' false hr')⟩⟩
  · obtain ⟨v, r, hr, hdeclares, hmeans⟩ := exists_meansBehind hload hbody hf hx hother hbind
    exact ⟨v, .inr ⟨hx, ⟨r, hr, hdeclares⟩, hmeans false⟩⟩

/-- A function with a name that a resource and a loop give values to. -/
def nextText : String :=
  "def f(s):\n    with s as n:\n        while n:\n            n = next(s)\n    return n\n"

/-- The name that is returned means a local variable of the function. -/
theorem means_nextText :
    ∃ m body f r v, load .empty [] nextText ⟨"", ["m.py"]⟩ = .ok m ∧ Stmt.ofSource? .empty nextText = some body ∧
      .routine f ∈ moduleEvents body ∧ (∀ e ∈ f.events .built, e.redefines "n" = false) ∧
      .bind "n" r ∈ f.events .built ∧ ReadBehind "n" ⟨⟨5, 11⟩, ⟨5, 12⟩⟩ false (f.events .built) ∧
      m.DeclaresLocal r v ∧ m.Means "n" ⟨⟨5, 11⟩, ⟨5, 12⟩⟩ (some v) := by
  have hroutine : (Stmt.ofSource? .empty nextText).any fun body =>
      (load .empty [] nextText ⟨"", ["m.py"]⟩).toOption.any fun _ => (moduleEvents body).any fun
        | .routine f => decide ("n" ∉ f.parameters ∧
            (∀ e ∈ f.events .built, e.redefines "n" = false) ∧
            (∃ r, .bind "n" r ∈ f.events .built) ∧
            ReadBehind "n" ⟨⟨5, 11⟩, ⟨5, 12⟩⟩ false (f.events .built))
        | _ => false := by
    decide +kernel
  obtain ⟨m, body, f, hm, hbody, hf, hroutine⟩ := exists_routine_of_any hroutine
  obtain ⟨hx, hother, ⟨r₀, hbind⟩, hread⟩ := of_decide_eq_true hroutine
  obtain ⟨v, hmeans⟩ := own_reads_of_load hm hbody hf hother hbind
  obtain ⟨-, ⟨r, hr, hdeclares⟩, hmeans⟩ := hmeans.resolve_left fun h => hx h.1
  exact ⟨m, body, f, r, v, hm, hbody, hf, hother, hr, hread, hdeclares, hmeans.built _ hread⟩

/-- A function with a loop whose condition gives a value to the name that the body reads. -/
def conditionText : String := "def f(s):\n    while (n := s.read()):\n        print(n)\n"

/-- A read that runs behind a binding has no variable. -/
theorem not_means_conditionText :
    ∃ m body f r, load .empty [] conditionText ⟨"", ["m.py"]⟩ = .ok m ∧
      Stmt.ofSource? .empty conditionText = some body ∧ .routine f ∈ moduleEvents body ∧
      (∀ e ∈ f.events .built, e.redefines "n" = false) ∧
      ReadBehind "n" r false (f.events .run) ∧ ∀ v, ¬ m.Means "n" r (some v) := by
  have hroutine : (Stmt.ofSource? .empty conditionText).any fun body =>
      (load .empty [] conditionText ⟨"", ["m.py"]⟩).toOption.any fun m => (moduleEvents body).any fun
        | .routine f => decide ((∀ e ∈ f.events .built, e.redefines "n" = false) ∧
            ReadBehind "n" ⟨⟨3, 14⟩, ⟨3, 15⟩⟩ false (f.events .run) ∧
            ∀ n ∈ m.nodes, m.graph.location n = Range.location ⟨⟨3, 14⟩, ⟨3, 15⟩⟩ →
              (m.graph.shape n).mention? = none)
        | _ => false := by
    decide +kernel
  obtain ⟨m, body, f, hm, hbody, hf, hroutine⟩ := exists_routine_of_any hroutine
  obtain ⟨hother, hread, hnone⟩ := of_decide_eq_true hroutine
  exact ⟨m, body, f, ⟨⟨3, 14⟩, ⟨3, 15⟩⟩, hm, hbody, hf, hother, hread,
    Model.not_means_of_mention? hnone⟩

end Source

end ModelLint
