import ModelLint.Proofs.Program.Contexts
import ModelLint.Proofs.Source.Loading

/-!
# How the nodes of a source are nested

The unit of a source holds types, whose members are declarations. Only methods and the initializers
of fields hold other nodes.

* `Shape.HasNames`: the names in a node are identifiers.
* `Model.FromSource`: names and nesting of the nodes of a unit.
* **`fromSource_of_load`**: the unit of a source has such nodes.
* `FromSource.isOutermost_of_above`: what is in no method and in no field is a declaration.
-/

namespace ModelLint

/-- The names that a node mentions or gives to a method are identifiers, but for that of the method of
a module's own statements, which has no modifiers. -/
def Shape.HasNames {ν : Type} : Shape ν → Prop
  | .varAccess name _ => Source.IsName name
  | .fieldAccess name _ _ => Source.IsName name
  | .declaration info _ _ _ => info.kind = .method →
    Source.IsName info.name ∨ info.name = Graph.moduleBody ∧ info.modifiers = []
  | _ => True

theorem Shape.hasNames_label {ν : Type} (s : Shape ν) : s.label.HasNames ↔ s.HasNames := by
  cases s <;> rfl

theorem Shape.isOutermost_label {ν : Type} (s : Shape ν) : s.label.isOutermost = s.isOutermost := by
  cases s <;> rfl

/-- What is declared by a node. -/
def Shape.declared? {ν : Type} : Shape ν → Option DeclarationInfo
  | .declaration info _ _ _ => some info
  | _ => none

theorem Shape.declared?_label {ν : Type} (s : Shape ν) : s.label.declared? = s.declared? := by
  cases s <;> rfl

theorem Shape.IsFunction.kind_eq {ν : Type} {s : Shape ν} {info : DeclarationInfo}
    (h : s.IsFunction) (hinfo : s.declared? = some info) : info.kind = .method := by
  cases s <;> cases hinfo
  exact h

theorem Shape.isOutermost_of_declared? {ν : Type} {s : Shape ν} {info : DeclarationInfo}
    (hinfo : s.declared? = some info) : s.isOutermost := by
  cases s <;> cases hinfo
  rfl

theorem Shape.HasNames.method {ν : Type} {s : Shape ν} {info : DeclarationInfo} (h : s.HasNames)
    (hinfo : s.declared? = some info) (hmethod : info.kind = .method) :
    Source.IsName info.name ∨ info.name = Graph.moduleBody ∧ info.modifiers = [] := by
  cases s <;> cases hinfo
  exact h hmethod

theorem Graph.declaration?_eq (g : Graph) (n : NodeId) :
    g.declaration? n = (g.shape n).declared? := by
  rw [declaration?]
  cases g.shape n <;> rfl

theorem Graph.declares_of_label {ν : Type} {g : Graph} {n : NodeId} {s : Shape ν}
    {info : DeclarationInfo} (hlabel : (g.shape n).label = s.label) (hinfo : s.declared? = some info) :
    g.Declares info.kind n := by
  refine ⟨info, ?_, rfl⟩
  rw [declaration?_eq, ← Shape.declared?_label, hlabel, Shape.declared?_label, hinfo]

/-- **How the nodes of a source are named and nested.** -/
structure Model.FromSource (m : Model) : Prop where
  /-- The unit is linked. -/
  linked : m.Linked
  /-- Names are identifiers. -/
  names : ∀ p n, m.graph.at? m.root p = some n → (m.graph.shape n).HasNames
  /-- The unit is outermost. -/
  root : (m.graph.shape m.root).isOutermost
  /-- Units and types hold declarations. -/
  members : ∀ p n, m.graph.at? m.root p = some n → (m.graph.shape n).isOutermost →
    ¬ m.graph.Declares .method n → ¬ m.graph.Declares .field n →
      ∀ c ∈ m.graph.children n, (m.graph.shape c).isOutermost

/-- What is in no method and in no field is a declaration or the unit. -/
theorem Model.FromSource.isOutermost_of_above {m : Model} (hm : m.FromSource) {p : Graph.Place}
    {n : NodeId} (hp : m.graph.at? m.root p = some n)
    (habove : ∀ a ∈ m.graph.above m.root p,
      ¬ m.graph.Declares .method a ∧ ¬ m.graph.Declares .field a) :
    (m.graph.shape n).isOutermost := by
  induction p using List.reverseRecOn generalizing n with
  | nil =>
    cases hp
    exact hm.root
  | append_singleton p i ih =>
    obtain ⟨a, ha, hi⟩ := Graph.at?_snoc_eq_some.mp hp
    rw [Graph.above_snoc ha, List.forall_mem_append] at habove
    obtain ⟨hmethod, hfield⟩ := habove.2 a (List.mem_singleton.mpr rfl)
    exact hm.members p a ha (ih ha habove.1) hmethod hfield n (List.mem_of_getElem? hi)

namespace Source

variable {vars : Array Variable} {shape : Shape Tree} {named : Text.CharacterNames}
  {source : String}
  {comments : List (Int × String)} {locks : List String} {path : Path} {m : Model}

theorem Sound.hasNames (h : Sound vars IsName shape) : shape.HasNames := by
  rcases shape with _ | ⟨⟨_, kind, _, _, _, _, _⟩, _, _, _⟩ | _ | _ | _ | _ | _ | _ | _ | _ | _ | _ |
    _ | _ | _ | _ | _ | _ | _ | _ | _ | _
  case declaration =>
    rintro rfl
    exact h.2.2.2.2
  case varAccess => exact h.1
  case fieldAccess => exact h.1
  all_goals trivial

theorem Sound.members (h : Sound vars IsName shape) (houtermost : shape.isOutermost)
    (hmethod : ∀ info, shape.declared? = some info → info.kind ≠ .method)
    (hfield : ∀ info, shape.declared? = some info → info.kind ≠ .field) :
    ∀ c ∈ shape.children, c.shape.isOutermost := by
  rcases shape with ⟨info, ds⟩ | ⟨info, members, initializer, body⟩ | _ | _ | _ | _ | _ | _ | _ | _ |
    _ | _ | _ | _ | _ | _ | _ | _ | _ | _ | _ | _ <;> try cases houtermost
  · exact h.elim
  · rcases info with ⟨name, kind, qualifiedName, modifiers, parameters, var, isDisposable⟩
    rcases kind with _ | _ | _
    · obtain ⟨-, -, rfl, rfl, hmembers⟩ := h
      simpa [Shape.children, Shape.slots] using hmembers
    · exact absurd rfl (hmethod _ rfl)
    · exact absurd rfl (hfield _ rfl)

theorem eq_of_mem_children_unitOf {t c : Tree} (h : c ∈ (unitOf path comments t).children) :
    c = t := by
  simpa [unitOf, Tree.children_node, Shape.children, Shape.slots] using h

/-- A node of the tree of a unit is the unit itself, or it is sound. -/
theorem ModuleBuilt.sound_at? {t t' : Tree} {s : Building} {calm : Prop} {p : Graph.Place}
    (h : ModuleBuilt IsName calm t s) (ht' : (unitOf path comments t).at? p = some t') :
    t' = unitOf path comments t ∨ Sound s.vars IsName t'.shape := by
  rcases p with _ | ⟨i, p⟩
  · cases ht'
    exact .inl rfl
  · obtain ⟨c, hc, hp'⟩ := Tree.at?_cons_eq_some.mp ht'
    obtain rfl := eq_of_mem_children_unitOf (List.mem_of_getElem? hc)
    exact .inr (h.sound p t' hp')

/-- A node of the unit of a source is the unit itself, or is laid out from a sound tree. -/
theorem exists_sound {t : Tree} {s : Building} {calm : Prop} {p : Graph.Place} {n : NodeId}
    (h : ModuleBuilt IsName calm t s)
    (hp : (Graph.ofTree s.vars (unitOf path comments t)).at? 0 p = some n) :
    ∃ t', (Graph.ofTree s.vars (unitOf path comments t)).Lays t' n ∧
      (t' = unitOf path comments t ∨ Sound s.vars IsName t'.shape) := by
  obtain ⟨t', ht', hlays, -⟩ := (Graph.lays_ofTree s.vars (unitOf path comments t)).exists_at? hp
  exact ⟨t', hlays, h.sound_at? ht'⟩

/-- **The unit of a source** is named and nested so. -/
theorem fromSource_of_load (hm : load named locks source path = .ok m) : m.FromSource := by
  obtain ⟨body, comments, h⟩ := accepted_of_load hm
  obtain ⟨t, s, hbuilt, -, hlinked, hroot, hskeleton⟩ := h.exists_tree hm
  have hnode : ∀ p n, m.graph.at? m.root p = some n →
      ∃ t', (Graph.ofTree s.vars (unitOf path comments t)).Lays t' n ∧
        (m.graph.shape n).label = t'.shape.label ∧
        (t' = unitOf path comments t ∨ Sound s.vars IsName t'.shape) := by
    intro p n hp
    rw [hroot, hskeleton.at?_eq] at hp
    obtain ⟨t', hlays, ht'⟩ := exists_sound hbuilt hp
    exact ⟨t', hlays, by rw [hskeleton.shape_eq, hlays.label_eq], ht'⟩
  refine ⟨hlinked, fun p n hp => ?_, ?_, fun p n hp houtermost hmethod hfield c hc => ?_⟩
  · obtain ⟨t', -, hlabel, ht'⟩ := hnode p n hp
    rw [← Shape.hasNames_label, hlabel, Shape.hasNames_label]
    rcases ht' with rfl | hsound
    · trivial
    · exact hsound.hasNames
  · rw [← Shape.isOutermost_label, hskeleton.shape_eq, hroot, (Graph.lays_ofTree _ _).label_eq,
      Shape.isOutermost_label]
    rfl
  · obtain ⟨t', hlays, hlabel, ht'⟩ := hnode p n hp
    have hdeclares : ∀ info, t'.shape.declared? = some info → m.graph.Declares info.kind n :=
      fun info hinfo => Graph.declares_of_label hlabel hinfo
    rw [hskeleton.children_eq] at hc
    obtain ⟨i, hi⟩ := List.mem_iff_getElem?.mp hc
    obtain ⟨c', hc', hlays', -⟩ := hlays.child_of_number hi
    rw [← Shape.isOutermost_label, hskeleton.shape_eq, hlays'.label_eq, Shape.isOutermost_label]
    rcases ht' with rfl | hsound
    · rw [eq_of_mem_children_unitOf (List.mem_of_getElem? hc')]
      exact hbuilt.outermost
    · rw [← Shape.isOutermost_label, hlabel, Shape.isOutermost_label] at houtermost
      refine hsound.members houtermost (fun info hinfo hkind => hmethod ?_)
        (fun info hinfo hkind => hfield ?_) c' (List.mem_of_getElem? hc')
      · exact hkind ▸ hdeclares info hinfo
      · exact hkind ▸ hdeclares info hinfo

end Source

end ModelLint
