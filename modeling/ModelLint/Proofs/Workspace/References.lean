import ModelLint.Proofs.Document.Disposal
import ModelLint.Proofs.Document.References
import ModelLint.Proofs.Source.Disposal
import ModelLint.Workspace.FrontEnd

/-!
# What the references of a file mean

Both front ends see to it that the nodes of their trees fit the table of variables: for documents this
is shown with the tables that names are sought in, and for sources all nodes are sound. So whichever
front end is responsible for a file, references in its unit mean what they say.

* `Sound.fits`: a sound node fits the table.
* **`references_of_load`**: what references mean in a unit that comes from a document or from a source.
* `FrontEnd.refers_of_load`: what they mean in the unit of a file.
-/

namespace ModelLint

/-! ## Sources -/

namespace Source

variable {vars : Array Variable} {P : VariableKind → Prop} {nm : String → Prop} {name : String}
  {v : VariableId} {locks : List String} {named : Text.CharacterNames} {source : String} {path : Path}
  {m : Model}

theorem Denotes.isNamed (h : Denotes vars P name v) : IsNamed vars name v :=
  h.imp fun _ hvar => ⟨hvar.1, hvar.2.1⟩

/-- A sound node fits the table of variables. -/
theorem Sound.fits {shape : Shape Tree} (h : Sound vars nm shape) : shape.Fits vars := by
  cases shape with
  | varAccess name found =>
    rintro w rfl
    obtain ⟨-, v, hv, hdenotes⟩ := h
    cases hv
    exact hdenotes.isNamed
  | fieldAccess name qualifier found =>
    intro w hw
    obtain ⟨rfl, hdenotes⟩ := h.2 w hw
    exact ⟨rfl, hdenotes.isNamed, hdenotes.hasKind fun _ hkind => hkind⟩
  | varDeclaration v initializer =>
    have hlocal : HasKind vars (· = .localVar) v := h
    exact hlocal.ne (by decide)
  | catchClause types found body => exact fun w hw => (h w hw).ne (by decide)
  | lambda parameters isAsync body => exact h
  | declaration info members initializer body =>
    rcases info with ⟨name, kind, qualifiedName, modifiers, parameters, var, isDisposable⟩
    rcases kind with _ | _ | _
    case type =>
      obtain ⟨hparameters, hvar, -⟩ := h
      refine ⟨fun v hv => ?_, fun v hv => ?_⟩
      · cases hparameters ▸ hv
      · cases hvar.symm.trans hv
    case method =>
      obtain ⟨hparameters, hvar, -⟩ := h
      exact ⟨hparameters, fun v hv => by cases hvar.symm.trans hv⟩
    case field =>
      obtain ⟨hparameters, -, -, w, hw, hdenotes⟩ := h
      refine ⟨fun v hv => ?_, fun v hv => ⟨rfl, ?_⟩⟩
      · cases hparameters ▸ hv
      · cases hw.symm.trans hv
        exact hdenotes.hasKind fun _ hkind => hkind
  | _ => trivial

/-- **References in the unit of a source mean what they say.** -/
theorem refers_of_load (h : load named locks source path = .ok m) : m.Refers := by
  obtain ⟨comments, calm, t, s, hbuilt, -, hshows⟩ := exists_built h
  -- The unit itself is no sound node, but it refers to nothing and introduces nothing.
  refine hshows.refers (Tree.fits_node trivial fun c hc => ?_)
  obtain rfl := eq_of_mem_children_unitOf hc
  exact fun p t' ht' => (hbuilt.sound p t' ht').fits

end Source

/-! ## Both front ends -/

variable {m : Model} {v : VariableId}

/-- **References mean what they say** in every unit that a document or a source gives. -/
theorem references_of_load :
    (∀ document path, Document.load document path = .ok m → m.Refers) ∧
      ∀ named locks source path, Source.load named locks source path = .ok m → m.Refers :=
  ⟨fun _ _ h => Document.refers_of_load h, fun _ _ _ _ h => Source.refers_of_load h⟩

/-- The document of a type that has a field, and a method which sets it to the member of that name of
another object. -/
def membersDocument : Value :=
  Document.object [("declarations", .list [Document.object [("kind", .str "class"), ("name", .str "C"),
    ("members", .list [
      Document.object [("kind", .str "field"), ("name", .str "x")],
      Document.object [("kind", .str "method"), ("name", .str "f"), ("parameters", .list [.str "o"]),
        ("body", .list [Document.object [("kind", .str "expr"),
          ("expression", Document.object [("kind", .str "assign"),
            ("target", Document.object [("kind", .str "field"), ("name", .str "x")]),
            ("value", Document.object [("kind", .str "field"), ("name", .str "x"),
              ("target", Document.object [("kind", .str "var"), ("name", .str "o")])])])]])]])]])]

/-- A source of that kind. -/
def membersText : String := "class C:\n    x = 1\n    def f(self, o):\n        self.x = o.x\n"

/-- **A unit tells members apart**: it mentions a field that it declares, and a member of another
object that has no variable. -/
structure Model.TellsApart (m : Model) (v : VariableId) : Prop where
  /-- The variable is that of a field of the unit. -/
  own : ∃ n ∈ m.nodes, m.graph.mentioned? n = some v ∧
    ∃ d ∈ m.nodes, (m.graph.shape d).field? = some v
  /-- A member of another object. -/
  foreign : ∃ n ∈ m.nodes, ∃ name object, m.graph.shape n = .fieldAccess name (some object) none

/-- Whether a unit mentions a variable that is a field, and also a member of another object. -/
def Model.hasBothMembers (m : Model) (v : VariableId) : Bool :=
  (m.graph.variable' v).kind == .field && m.nodes.any (m.graph.isDirectMention v) &&
    m.nodes.any fun n => match m.graph.shape n with
      | .fieldAccess _ (some _) _ => true
      | _ => false

theorem Model.Refers.tellsApart (h : m.Refers) (hboth : m.hasBothMembers v = true) :
    m.TellsApart v := by
  simp only [hasBothMembers, Bool.and_eq_true, beq_iff_eq, List.any_eq_true] at hboth
  obtain ⟨⟨hkind, n, hn, hmention⟩, k, hk, hforeign⟩ := hboth
  have hmentioned : m.graph.mentioned? n = some v := beq_iff_eq.mp hmention
  refine ⟨⟨n, hn, hmentioned, h.field n hn v hmentioned hkind⟩, k, hk, ?_⟩
  split at hforeign
  · next name object found hshape =>
    obtain rfl := h.foreign k hk name object found hshape
    exact ⟨name, object, hshape⟩
  · cases hforeign

/-- Both units tell members apart. -/
theorem references_members :
    (∃ m, Document.load membersDocument (some ⟨"", ["m.json"]⟩) = .ok m ∧ m.TellsApart 0) ∧
      ∃ m, Source.load .empty [] membersText ⟨"", ["m.py"]⟩ = .ok m ∧ m.TellsApart 0 := by
  have hdocument : (Document.load membersDocument (some ⟨"", ["m.json"]⟩)).toOption.any
      (·.hasBothMembers 0) = true := by decide +kernel
  have hsource : (Source.load .empty [] membersText ⟨"", ["m.py"]⟩).toOption.any
      (·.hasBothMembers 0) = true := by decide +kernel
  obtain ⟨m, hload, hboth⟩ := exists_ok_of_any hdocument
  obtain ⟨m', hload', hboth'⟩ := exists_ok_of_any hsource
  exact ⟨⟨m, hload, (references_of_load.1 _ _ hload).tellsApart hboth⟩,
    m', hload', (references_of_load.2 _ _ _ _ hload').tellsApart hboth'⟩

/-! ## Files -/

/-- **References mean what they say** in the unit of a file, whichever front end is responsible. -/
theorem FrontEnd.refers_of_load {read : Readers} {f : FrontEnd} {locks : List String} {p : Path}
    {text : String} (h : f.load read locks p text = .ok m) : m.Refers := by
  cases f with
  | source =>
    rw [FrontEnd.load] at h
    rcases hload : Source.load read.named locks text p with e | m'
    · rw [hload] at h
      cases h
    · rw [hload] at h
      cases h
      exact Source.refers_of_load hload
  | document =>
    rw [FrontEnd.load] at h
    split at h
    · cases h
    · next value _ =>
      rcases hload : Document.load value (some p) with e | m'
      · rw [hload] at h
        cases h
      · rw [hload] at h
        cases h
        exact Document.refers_of_load hload

end ModelLint
