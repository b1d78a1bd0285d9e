import ModelLint.Proofs.Source.Captures
import ModelLint.Proofs.Source.Statements

/-!
# Steps inside steps

What a part of a source becomes is seen from the state in which the part was built. A step passes
through another one if it takes it on the way: the trees of the inner step stand in what the outer one
returns, and the events on both sides of it are known.

* `Returns`: all that a step can return is as asked for.
* `Building.Open`: a state that statements can be built in.
* `Leads`: what the steps between two states did to the names.
* `Leaps`: a step that leads from one state to the next by its events.
* **`Passes`**: a step that passes through another one; `Passes.left`, `Passes.right` and
  `Passes.trans` put them together.
-/

namespace ModelLint.Source

open Build

variable {α β γ : Type} {x : Build α} {f : α → Build β} {o : Option String} {s s' s'' : Building}
  {es es' fs fs' : List Event} {E : BuildFailure → Prop}

/-! ## Results -/

section Returns

variable {P : α → Prop} {Q : β → Prop}

/-- All that a step can return, from whatever state, is as asked for. -/
def Returns (x : Build α) (P : α → Prop) : Prop := ∀ s, Runs x s (fun _ => True) fun a _ => P a

theorem Returns.pure {a : α} (h : P a) : Returns (pure a) P := fun _ => h

theorem Returns.bind (hx : Returns x P) (hf : ∀ a, P a → Returns (f a) Q) : Returns (x >>= f) Q :=
  fun s => Runs.bind (hx s) fun a s' ha => hf a ha s'

theorem returns_any : Returns x fun _ => True := by
  intro s
  rw [Runs]
  split <;> trivial

theorem Returns.mono {P' : α → Prop} (hx : Returns x P) (h : ∀ a, P a → P' a) : Returns x P' :=
  fun s => (hx s).mono fun a _ => h a

theorem Returns.next (hf : ∀ a, Returns (f a) Q) : Returns (x >>= f) Q :=
  returns_any.bind fun a _ => hf a

theorem Returns.foldlM {f : α → γ → Build α} (hf : ∀ a c, P a → Returns (f a c) P) :
    (cs : List γ) → {a : α} → P a → Returns (cs.foldlM f a) P
  | [], _, h => .pure h
  | c :: cs, a, h => by
    rw [List.foldlM_cons]
    exact (hf a c h).bind fun a' h' => Returns.foldlM hf cs h'

end Returns

section Runs

variable {Q Q' : α → Building → Prop}

theorem Runs.and (h : Runs x s E Q) (h' : Runs x s E Q') :
    Runs x s E fun a s' => Q a s' ∧ Q' a s' := by
  rw [Runs] at h h' ⊢
  split at h <;> simp_all

theorem runs_self : Runs x s (fun _ => True) fun a s' => x.run s = .ok (a, s') := by
  rw [Runs]
  split
  · next h => exact h
  · trivial

end Runs

/-! ## States -/

/-- All names are allowed. -/
def AnyName (_ : String) : Prop := True

/-- **Statements can be built in the state**: it is valid, and a frame is open. -/
structure Building.Open (s : Building) : Prop where
  /-- The state is valid. -/
  valid : s.Valid AnyName
  /-- A frame is open. -/
  frames : s.frames ≠ []

theorem Building.Open.inside (h : s.Open) (names : List String) : Inside AnyName s names :=
  ⟨h.valid, h.frames, fun _ _ => trivial⟩

theorem Building.Valid.bounded {nm : String → Prop} (h : s.Valid nm) : s.Bounded :=
  ⟨fun frame hframe e he => (h.frames frame hframe e he).lt_size,
    fun e he => (h.moduleFields e he).lt_size⟩

theorem Building.Open.built {calm : Prop} {ts : List Tree} {owed : List VariableId} (h : s.Open)
    (hb : Built AnyName calm s ts owed s') : s'.Open :=
  ⟨hb.valid, fun hnil => h.frames (hb.frames_eq_nil.mp hnil)⟩

theorem Building.Open.clear (h : s.Open) : Building.Open { s with pending := [] } :=
  ⟨(h.inside []).clear.valid, h.frames⟩

/-- **What the steps from a state to another one did to the names in sight** are the events. -/
structure Leads (es : List Event) (s s' : Building) : Prop where
  /-- The receivers stay. -/
  receivers : s'.receivers = s.receivers
  /-- All frames but the innermost stay. -/
  frames_tail : s'.frames.tail = s.frames.tail
  /-- Variables stay. -/
  vars : Extends s.vars s'.vars
  /-- Declarations of the module stay. -/
  hoisted : s.hoisted ⊆ s'.hoisted
  /-- All that happened to names are the events. -/
  names : ∀ x, Resolves (fun _ => True) (s.around x) x es (s.sight x) (s'.sight x)

theorem Leads.refl (s : Building) : Leads [] s s :=
  ⟨rfl, rfl, .refl _, fun _ ht => ht, fun _ => .refl _⟩

theorem Leads.trans (h : Leads es s s') (h' : Leads fs s' s'') : Leads (es ++ fs) s s'' where
  receivers := h'.receivers.trans h.receivers
  frames_tail := h'.frames_tail.trans h.frames_tail
  vars := h.vars.trans h'.vars
  hoisted _ ht := h'.hoisted (h.hoisted ht)
  names x := by
    refine resolves_append.mpr ⟨s'.sight x, h.names x, ?_⟩
    rw [Building.around, ← h.frames_tail]
    exact h'.names x

theorem Leads.object? (h : Leads es s s') : s'.object? = s.object? := by
  rw [Building.object?, h.receivers, Building.object?]

theorem Follows.leads {made : Tree → Prop} (h : Follows made es s s') (hs : s.Bounded)
    (hx : Extends s.vars s'.vars) : Leads es s s' :=
  ⟨h.receivers, h.frames_tail, hx, h.hoisted, fun x => (h.names hs x).mono fun _ _ => trivial⟩

/-! ## Steps -/

/-- **A step leads by its events** from one state to the next, if the object of the method around has
the given name. -/
def Leaps (o : Option String) (x : Build α) (es : List Event) : Prop :=
  ∀ s : Building, s.Open → s.object? = o →
    Runs x s (fun _ => True) fun _ s' => s'.Open ∧ Leads es s s'

/-- What is accounted for and follows events leads by them. -/
theorem Traces.leaps {us : List Tree} {g h : α → List Tree} {owed : α → List VariableId}
    {calm : Prop} (ht : Traces o us x es g) (hb : ∀ s : Building, s.Open →
      Runs x s (fun _ => True) fun a s' => Built AnyName calm s (h a) (owed a) s') : Leaps o x es :=
  fun s hs ho => ((ht s ho).and (hb s hs)).mono fun _ _ ⟨⟨hfollows, _⟩, hbuilt⟩ =>
    ⟨hs.built hbuilt, hfollows.leads hs.valid.bounded hbuilt.vars⟩

theorem leaps_pure {a : α} : Leaps o (pure a : Build α) [] := fun s hs _ => ⟨hs, .refl s⟩

theorem Leaps.bind (hx : Leaps o x es) (hf : ∀ a, Leaps o (f a) fs) : Leaps o (x >>= f) (es ++ fs) :=
  fun s hs ho => (hx s hs ho).bind fun a s₁ ⟨hs₁, h₁⟩ =>
    (hf a s₁ hs₁ (h₁.object?.trans ho)).mono fun _ _ ⟨hs₂, h₂⟩ => ⟨hs₂, h₁.trans h₂⟩

theorem Leaps.last {k : α → β} (hx : Leaps o x es) : Leaps o (do return k (← x)) es :=
  List.append_nil es ▸ hx.bind fun _ => leaps_pure

/-- Behind a step that was taken on its own, all is pending again that was so before. -/
theorem Building.Open.restore (hs : s.Open) (hs' : s'.Open) (hx : Extends s.vars s'.vars) :
    Building.Open { s' with pending := s.pending } :=
  ⟨{ hs'.valid with
      pending := fun t ht =>
        let ⟨hsound, hv⟩ := hs.valid.pending t ht
        ⟨hsound.mono fun _ hsound => hsound.extends hx, hv⟩ }, hs'.frames⟩

theorem Leaps.collectPending (hx : Leaps o x es) : Leaps o (collectPending x) es :=
  fun _ hs ho => runs_collectPending ((hx _ hs.clear ho).mono fun _ _ ⟨hs', h⟩ =>
    ⟨hs.restore hs' h.vars, { h with names := h.names }⟩)

/-! ## Steps that pass through others -/

section Passes

variable {y z : Build (List Tree)} {g : α → List Tree} {h : β → List Tree}

/-- **What is known of a step that took another one on the way** from one state to the next. It led to
a state by some events, took the other step there, and led on by more events. The trees of the other
step stand in its own. -/
structure Passage (o : Option String) (y : Build (List Tree)) (es fs : List Event) (us : List Tree)
    (s s' : Building) : Prop where
  /-- Statements can be built behind it. -/
  isOpen : s'.Open
  /-- The object of the method stays. -/
  object? : s'.object? = o
  /-- Variables stay. -/
  vars : Extends s.vars s'.vars
  /-- The other step was taken. -/
  inner : ∃ s₁ ts s₂, s₁.Open ∧ s₁.object? = o ∧ y.run s₁ = .ok (ts, s₂) ∧
    Leads es s s₁ ∧ Leads fs s₂ s' ∧ Within ts us

/-- **A step passes through another one**, if the object of the method around has the given name. -/
def Passes (o : Option String) (y : Build (List Tree)) (x : Build α) (es fs : List Event)
    (g : α → List Tree) : Prop :=
  ∀ s : Building, s.Open → s.object? = o →
    Runs x s (fun _ => True) fun a s' => Passage o y es fs (g a) s s'

theorem passes_self (hy : Leaps o y es) : Passes o y y [] [] id :=
  fun s hs ho => (runs_self.and (hy s hs ho)).mono fun ts s' ⟨hrun, hs', h⟩ =>
    ⟨hs', h.object?.trans ho, h.vars, s, ts, s', hs, ho, hrun, .refl s, .refl s', fun _ hu => hu⟩

/-- The other step is taken first. -/
theorem Passes.left (hx : Passes o y x es fs g) (hf : ∀ a, Leaps o (f a) fs')
    (hg : ∀ a, Returns (f a) fun b => Within (g a) (h b)) :
    Passes o y (x >>= f) es (fs ++ fs') h := by
  intro s hs ho
  refine (hx s hs ho).bind fun a s' ⟨hs', ho', hx, s₁, ts, s₂, hs₁, ho₁, hrun, hes, hfs, hts⟩ => ?_
  refine ((hf a s' hs' ho').and (hg a s')).mono fun b s'' ⟨⟨hs'', hfs'⟩, hwithin⟩ => ?_
  exact ⟨hs'', hfs'.object?.trans ho', hx.trans hfs'.vars, s₁, ts, s₂, hs₁, ho₁, hrun, hes,
    hfs.trans hfs', hts.trans hwithin⟩

/-- The other step is taken last. -/
theorem Passes.right (hx : Leaps o x es') (hf : ∀ a, Passes o y (f a) es fs h) :
    Passes o y (x >>= f) (es' ++ es) fs h := by
  intro s hs ho
  refine (hx s hs ho).bind fun a s' ⟨hs', hes'⟩ => ?_
  refine (hf a s' hs' (hes'.object?.trans ho)).mono
    fun b s'' ⟨hs'', ho'', hx, s₁, ts, s₂, hs₁, ho₁, hrun, hes, hfs, hts⟩ => ?_
  exact ⟨hs'', ho'', hes'.vars.trans hx, s₁, ts, s₂, hs₁, ho₁, hrun, hes'.trans hes, hfs, hts⟩

/-- Nothing happens between the step before and the other one. -/
theorem Passes.behind (hx : Leaps o x es) (hf : ∀ a, Passes o y (f a) [] fs h) :
    Passes o y (x >>= f) es fs h :=
  List.append_nil es ▸ Passes.right hx hf

/-- A step on the way may pass through another one itself. -/
theorem Passes.trans (hx : Passes o y x es fs g) (hy : Passes o z y es' fs' id) :
    Passes o z x (es ++ es') (fs' ++ fs) g := by
  intro s hs ho
  refine (hx s hs ho).mono fun a s' ⟨hs', ho', hx, s₁, us, s₂, hs₁, ho₁, hrun, hes, hfs, hus⟩ => ?_
  obtain ⟨-, -, -, s₃, ts, s₄, hs₃, ho₃, hrun', hes', hfs', hts⟩ := (hy s₁ hs₁ ho₁).of_ok hrun
  exact ⟨hs', ho', hx, s₃, ts, s₄, hs₃, ho₃, hrun', hes.trans hes', hfs'.trans hfs, hts.trans hus⟩

theorem Passes.mono {g' : α → List Tree} (hx : Passes o y x es fs g)
    (hg : ∀ a, Within (g a) (g' a)) : Passes o y x es fs g' := by
  intro s hs ho
  refine (hx s hs ho).mono fun a s' h => { h with inner := ?_ }
  obtain ⟨s₁, ts, s₂, hs₁, ho₁, hrun, hes, hfs, hts⟩ := h.inner
  exact ⟨s₁, ts, s₂, hs₁, ho₁, hrun, hes, hfs, hts.trans (hg a)⟩

/-- The last step is the other one, and a tree is made of its trees. -/
theorem Passes.make {k : α → β} (hx : Passes o y x es fs g) (hk : ∀ a, Within (g a) (h (k a))) :
    Passes o y (do return k (← x)) es fs h :=
  List.append_nil fs ▸ hx.left (fun _ => leaps_pure) fun a => .pure (hk a)

theorem Passes.collectPending (hx : Passes o y x es fs g) :
    Passes o y (collectPending x) es fs fun p => g p.2 := by
  intro s hs ho
  refine runs_collectPending ((hx _ hs.clear ho).mono
    fun a s' ⟨hs', ho', hx, s₁, ts, s₂, hs₁, ho₁, hrun, hes, hfs, hts⟩ => ?_)
  exact ⟨hs.restore hs' hx, ho', hx, s₁, ts, s₂, hs₁, ho₁, hrun, { hes with names := hes.names },
    { hfs with names := hfs.names }, hts⟩

theorem Passes.withPending {x : Build (List Tree)} (hx : Passes o y x es fs id) :
    Passes o y (withPending x) es fs id :=
  hx.collectPending.make fun _ => within_of_subset (List.subset_append_right _ _)

end Passes

end ModelLint.Source
