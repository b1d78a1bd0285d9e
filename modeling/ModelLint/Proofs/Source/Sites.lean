import ModelLint.Proofs.Source.Blocks

/-!
# Where trees end up

While a source is built, the trees of its parts are put into others, and declarations move to the
module. A site is what there is in the end, or at some time on the way. What a step gave ends up at a
site if its trees, the declarations that have moved and its variables are there.

* `Site`, `Site.Keeps`: where trees end up.
* `Building.Grows`, `Carries`: a state that comes behind another one, and a step to such a state.
* `Site.Took`: a step was taken, and what it gave ended up at a site.
* **`Visits`**: a step that builds expressions on the way, with `Visits.bind` and `Visits.last`.
-/

namespace ModelLint.Source

open Build

variable {α β : Type} {x : Build α} {f : α → Build β} {o : Option String} {s s' s'' : Building}
  {ts us : List Tree} {R : List Receiver} {es fs : List Event}

/-! ## States behind others -/

/-- A state that comes behind another one. -/
structure Building.Grows (s s' : Building) : Prop where
  /-- It is valid. -/
  valid : s'.Valid AnyName
  /-- The receivers stay. -/
  receivers : s'.receivers = s.receivers
  /-- Declarations that have moved stay. -/
  hoisted : s.hoisted ⊆ s'.hoisted
  /-- Variables stay. -/
  vars : Extends s.vars s'.vars

theorem Building.Valid.grows (h : s.Valid AnyName) : s.Grows s :=
  ⟨h, rfl, fun _ ht => ht, .refl _⟩

theorem Building.Grows.trans (h : s.Grows s') (h' : s'.Grows s'') : s.Grows s'' :=
  ⟨h'.valid, h'.receivers.trans h.receivers, fun _ ht => h'.hoisted (h.hoisted ht),
    h.vars.trans h'.vars⟩

theorem Building.Grows.object? (h : s.Grows s') : s'.object? = s.object? := by
  rw [Building.object?, h.receivers, Building.object?]

theorem Built.grows {calm : Prop} {owed : List VariableId} (h : Built AnyName calm s ts owed s') :
    s.Grows s' :=
  ⟨h.valid, h.receivers, h.scoping.hoisted.subset, h.vars⟩

/-- A state that a step in the same frames goes on to. -/
structure Building.Reaches (s s' : Building) : Prop where
  /-- Statements can be built in it. -/
  isOpen : s'.Open
  /-- It comes behind. -/
  grows : s.Grows s'
  /-- All frames but the innermost stay. -/
  frames_tail : s'.frames.tail = s.frames.tail

theorem Building.Open.reaches (h : s.Open) : s.Reaches s := ⟨h, h.valid.grows, rfl⟩

theorem Building.Reaches.trans (h : s.Reaches s') (h' : s'.Reaches s'') : s.Reaches s'' :=
  ⟨h'.isOpen, h.grows.trans h'.grows, h'.frames_tail.trans h.frames_tail⟩

theorem Leads.reaches (h : Leads es s s') (hs' : s'.Open) : s.Reaches s' :=
  ⟨hs', ⟨hs'.valid, h.receivers, h.hoisted, h.vars⟩, h.frames_tail⟩

theorem Built.reaches {calm : Prop} {owed : List VariableId} (hs : s.Open)
    (h : Built AnyName calm s ts owed s') : s.Reaches s' :=
  ⟨hs.built h, h.grows, h.frames_tail⟩

theorem Building.Reaches.closeFrame {frame : Frame} (hs : s.Open)
    (h : Building.Reaches { s with frames := frame :: s.frames } s') :
    s.Reaches { s' with frames := s'.frames.drop 1 } := by
  have hdrop : s'.frames.drop 1 = s.frames := List.drop_one.trans h.frames_tail
  have hclosed : Building.Open { s' with frames := s'.frames.drop 1 } :=
    ⟨{ h.isOpen.valid with frames := fun f hf => h.isOpen.valid.frames f (List.mem_of_mem_drop hf) },
      fun hnil => hs.frames (hdrop ▸ hnil)⟩
  exact ⟨hclosed, ⟨hclosed.valid, h.grows.receivers, h.grows.hoisted, h.grows.vars⟩,
    congrArg List.tail hdrop⟩

/-- Behind a step that was taken on its own, all is pending again that was so before. -/
theorem Building.Reaches.restore (hs : s.Open) (h : Building.Reaches { s with pending := [] } s') :
    s.Reaches { s' with pending := s.pending } := by
  have hrestored := hs.restore h.isOpen h.grows.vars
  exact ⟨hrestored, ⟨hrestored.valid, h.grows.receivers, h.grows.hoisted, h.grows.vars⟩, h.frames_tail⟩

/-- A step goes on to a state in the same frames. -/
def Carries (x : Build α) : Prop :=
  ∀ s : Building, s.Open → Runs x s (fun _ => True) fun _ s' => s.Reaches s'

theorem carries_pure {a : α} : Carries (pure a) := fun _ hs => hs.reaches

theorem Carries.bind (hx : Carries x) (hf : ∀ a, Carries (f a)) : Carries (x >>= f) :=
  fun s hs => (hx s hs).bind fun a s₁ h₁ => (hf a s₁ h₁.isOpen).mono fun _ _ h₂ => h₁.trans h₂

theorem carries_of_built {calm : Prop} {g : α → List Tree} {owed : α → List VariableId}
    (h : ∀ s : Building, s.Open →
      Runs x s (fun _ => True) fun a s' => Built AnyName calm s (g a) (owed a) s') : Carries x :=
  fun s hs => (h s hs).mono fun _ _ h' => h'.reaches hs

theorem carries_define {name : String} {type : Option String} {k : VariableId → Build α}
    (hk : ∀ v, Carries (k v)) : Carries (do let v ← newLocal name type; bindName name v; k v) :=
  fun _ hs => runs_bound fun _ => (hk _ _ (hs.bound name type)).mono fun _ _ h' =>
    ((leads_define hs).reaches (hs.bound name type)).trans h'

/-! ## Sites -/

/-- Where trees end up, with the table of variables. -/
structure Site where
  /-- What functions, classes and statements become stands in these trees. -/
  roots : List Tree
  /-- What moves to the module stands in these trees. -/
  moved : List Tree
  /-- The variables. -/
  vars : Array Variable

/-- What a step gave ended up at a site. -/
structure Site.Keeps (site : Site) (ts : List Tree) (s : Building) : Prop where
  /-- Its trees stand there. -/
  trees : Within ts site.roots
  /-- So do the declarations that have moved. -/
  hoisted : Within s.hoisted site.moved
  /-- Its variables are there. -/
  vars : Extends s.vars site.vars

/-- What there is behind a step that gave some trees. -/
def Building.site (s : Building) (ts : List Tree) : Site := ⟨ts, s.hoisted, s.vars⟩

namespace Site

variable {site : Site}

theorem Keeps.before (h : site.Keeps us s') (hts : Within ts us) (hhoisted : s.hoisted ⊆ s'.hoisted)
    (hvars : Extends s.vars s'.vars) : site.Keeps ts s :=
  ⟨hts.trans h.trees, (within_of_subset hhoisted).trans h.hoisted, hvars.trans h.vars⟩

/-- The site of what moves to the module. -/
def module (site : Site) : Site := { site with roots := site.moved }

/-- The object in a method with receivers. -/
def objectOf (R : List Receiver) : Option String := R.head?.bind Receiver.name

/-- **A step was taken** in a method with receivers, and what it gave ended up at the site. -/
def Took (site : Site) (R : List Receiver) (x : Build (List Tree)) : Prop :=
  ∃ s₁ ts s₂, s₁.Open ∧ s₁.receivers = R ∧ x.run s₁ = .ok (ts, s₂) ∧ site.Keeps ts s₂

theorem Took.pass {x y : Build (List Tree)} (h : site.Took R x)
    (hx : Passes (objectOf R) y x es fs id) : site.Took R y := by
  obtain ⟨s, us, s', hs, hR, hrun, hkeeps⟩ := h
  obtain ⟨hs', -, -, s₁, ts, s₂, hs₁, -, hrun', hes, hfs, hts⟩ :=
    (hx s hs (congrArg objectOf hR)).of_ok hrun
  exact ⟨s₁, ts, s₂, hs₁, hes.receivers.trans hR, hrun', hkeeps.before hts hfs.hoisted hfs.vars⟩

/-- What ended up behind a step ends up where that step's trees do. -/
theorem Took.keep {x : Build (List Tree)} (h : (s.site us).Took R x) (hkeeps : site.Keeps us s) :
    site.Took R x := by
  obtain ⟨s₁, ts, s₂, hs₁, hR, hrun, htrees, hhoisted, hvars⟩ := h
  exact ⟨s₁, ts, s₂, hs₁, hR, hrun, htrees.trans hkeeps.trees, hhoisted.trans hkeeps.hoisted,
    hvars.trans hkeeps.vars⟩

end Site

/-! ## Expressions on the way -/

section Visits

variable {es fs : List Expr} {g : α → List Tree} {h : β → List Tree}

/-- What is known of a step that builds expressions on the way. Their nodes stand in its trees. -/
structure Visited (us : List Tree) (es : List Expr) (ts : List Tree) (s s' : Building) : Prop where
  /-- It goes on to the state. -/
  reaches : s.Reaches s'
  /-- Trees that were handed to it stand in its own. -/
  handed : Within us ts
  /-- The expressions were built. -/
  built : ∀ e ∈ es, (s'.site ts).Took s.receivers (exprNodes [e])

/-- **A step builds expressions on the way**, if the object of the method around has the given
name. Trees that are handed to it stand in its own. -/
def Visits (o : Option String) (us : List Tree) (x : Build α) (es : List Expr)
    (g : α → List Tree) : Prop :=
  ∀ s : Building, s.Open → s.object? = o →
    Runs x s (fun _ => True) fun a s' => Visited us es (g a) s s'

theorem Visited.trans (h : Visited [] es ts s s') {vs : List Tree}
    (h' : Visited (ts ++ us) fs vs s' s'') : Visited us (es ++ fs) vs s s'' := by
  obtain ⟨hts, hus⟩ := within_append.mp h'.handed
  have hgrows := h'.reaches.grows
  refine ⟨h.reaches.trans h'.reaches, hus, List.forall_mem_append.mpr ⟨fun e he => ?_, ?_⟩⟩
  · exact (h.built e he).keep ⟨hts, within_of_subset hgrows.hoisted, hgrows.vars⟩
  · exact h.reaches.grows.receivers ▸ h'.built

theorem visits_pure {a : α} (ha : Within us (g a)) : Visits o us (pure a) [] g :=
  fun _ hs _ => ⟨hs.reaches, ha, nofun⟩

theorem Visits.bind (hx : Visits o [] x es g) (hf : ∀ a, Visits o (g a ++ us) (f a) fs h) :
    Visits o us (x >>= f) (es ++ fs) h :=
  fun s hs ho => (hx s hs ho).bind fun a s₁ h₁ =>
    (hf a s₁ h₁.reaches.isOpen (h₁.reaches.grows.object?.trans ho)).mono fun _ _ h₂ => h₁.trans h₂

theorem Visits.last {k : α → β} (hx : Visits o [] x es g) (hk : ∀ a, Within (g a ++ us) (h (k a))) :
    Visits o us (do return k (← x)) es h :=
  List.append_nil es ▸ hx.bind fun a => visits_pure (hk a)

/-- A step that builds no expressions that count, but keeps the trees that are handed to it. -/
theorem Carries.visits (hx : Carries x) (hr : Returns x fun a => Within us (g a)) :
    Visits o us x [] g :=
  fun s hs _ => ((hx s hs).and (hr s)).mono fun _ _ ⟨hreaches, hus⟩ => ⟨hreaches, hus, nofun⟩

/-- A step behind. -/
theorem Visits.followed (hx : Visits o [] x es g) (hf : ∀ a, Carries (f a))
    (hr : ∀ a, Returns (f a) fun b => Within (g a ++ us) (h b)) : Visits o us (x >>= f) es h :=
  List.append_nil es ▸ hx.bind fun a => (hf a).visits (hr a)

theorem Carries.next (hx : Carries x) (hf : ∀ a, Visits o us (f a) es h) :
    Visits o us (x >>= f) es h := by
  have hfirst : Visits o [] x [] fun _ => [] :=
    hx.visits (returns_any.mono fun _ _ => within_nil)
  exact hfirst.bind hf

/-- A step that only finds something out. -/
theorem visits_known {a₀ : α} (hx : ∀ s : Building, s.object? = o →
      Runs x s (fun _ => True) fun a s' => a = a₀ ∧ s' = s)
    (hf : Visits o us (f a₀) es h) : Visits o us (x >>= f) es h := by
  refine fun s hs ho => (hx s ho).bind fun a s₁ ⟨ha, hs₁⟩ => ?_
  subst ha hs₁
  exact hf s₁ hs ho

/-- Of the trees that a step gives others may be made. -/
theorem Visits.make {k : α → β} (hx : Visits o us x es g) (hk : ∀ a, Within (g a) (h (k a))) :
    Visits o us (do return k (← x)) es h :=
  fun s hs ho => (hx s hs ho).bind fun a _ h' => runs_pure ⟨h'.reaches, h'.handed.trans (hk a),
    fun e he => (h'.built e he).keep ⟨hk a, fun _ hu => hu, .refl _⟩⟩

theorem Visits.inFrame {names : Names} (hx : Visits o us x es g) (hs : s.Open) (ho : s.object? = o)
    (hnames : NamesDenote s.vars AnyKind names) :
    Runs (withFrame (.ofNames names) x) s (fun _ => True) fun a s' => Visited us es (g a) s s' :=
  runs_withFrame ((hx { s with frames := _ :: s.frames }
    ⟨hs.valid.openFrame (namesDenote_ofNames.mpr hnames), List.cons_ne_nil _ _⟩ ho).mono
      fun _ _ ⟨hreaches, hus, hbuilt⟩ => ⟨hreaches.closeFrame hs, hus, hbuilt⟩)

theorem Visits.withFrame (hx : Visits o us x es g) :
    Visits o us (withFrame (.ofNames []) x) es g :=
  fun _ hs ho => hx.inFrame hs ho nofun

theorem Visits.collectPending (hx : Visits o us x es g) :
    Visits o us (collectPending x) es fun p => g p.2 :=
  fun _ hs ho => runs_collectPending ((hx _ hs.clear ho).mono
    fun _ _ ⟨hreaches, hus, hbuilt⟩ => ⟨hreaches.restore hs, hus, hbuilt⟩)

theorem Visits.withPending {x : Build (List Tree)} (hx : Visits o [] x es id) :
    Visits o [] (withPending x) es id :=
  hx.collectPending.last fun _ => within_of_subset (by simp)

/-- Where a step was taken, its expressions were built. -/
theorem Site.Took.visits {site : Site} {x : Build (List Tree)} (h : site.Took R x)
    (hx : Visits (objectOf R) [] x es id) {e : Expr} (he : e ∈ es) :
    site.Took R (exprNodes [e]) := by
  obtain ⟨s₁, ts, s₂, hs₁, rfl, hrun, hkeeps⟩ := h
  exact (((hx s₁ hs₁ rfl).of_ok hrun).built e he).keep hkeeps

end Visits

end ModelLint.Source
