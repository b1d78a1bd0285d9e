import ModelLint.Proofs.Program.Edits
import ModelLint.Proofs.Program.Variables

/-!
# What references mean

A reference that has a variable has the name of the variable, and a member of another object has none.
The variables that are referred to are declared in the unit: fields by the declarations of fields, all
others by declarations among statements, by handlers and by parameters. Front ends see to this node by
node, with a table of variables that only grows; what a whole unit then is follows from linking, which
accepts mentions of variables of the unit only.

* `IsNamed`: a variable of a name is in a table.
* `Shape.Fits`: what a node refers to and what it introduces are as the table has it.
* `Model.Refers`: what references mean in a unit.
* **`Model.Shows.refers`**: the unit of a tree whose nodes fit.
-/

namespace ModelLint

variable {vars vars' : Array Variable} {name : String} {v : VariableId}

/-- A variable of the name is in the table. -/
def IsNamed (vars : Array Variable) (name : String) (v : VariableId) : Prop :=
  ∃ var, vars[v]? = some var ∧ var.name = name

theorem IsNamed.extends (h : IsNamed vars name v) (hx : Extends vars vars') : IsNamed vars' name v :=
  h.imp fun var hvar => ⟨hx v var hvar.1, hvar.2⟩

theorem HasKind.ne {k k' : VariableKind} (h : HasKind vars (· = k) v) (hne : k ≠ k') :
    HasKind vars (· ≠ k') v := by
  obtain ⟨var, hvar, rfl⟩ := h
  exact ⟨var, hvar, hne⟩

namespace Shape

variable {ν : Type} {s : Shape ν}

/-- The variable of a field that is declared. -/
def field? : Shape ν → Option VariableId
  | declaration info _ _ _ => if info.kind = .field then info.var else none
  | _ => none

/-- The variables that a declaration among statements, a handler or a list of parameters introduces. -/
def locals : Shape ν → List VariableId
  | declaration info _ _ _ => info.parameters
  | varDeclaration v _ => [v]
  | catchClause _ v _ => v.toList
  | lambda parameters _ _ => parameters
  | _ => []

/-- **A node fits a table of variables**: a reference has the name of its variable, a member with a
variable has no object in front and is a field, and what the node introduces is a field if and only if
it is a declaration of one. -/
def Fits (vars : Array Variable) : Shape ν → Prop
  | varAccess name v => ∀ w, v = some w → IsNamed vars name w
  | fieldAccess name qualifier v => ∀ w, v = some w →
    qualifier.isNone = true ∧ IsNamed vars name w ∧ HasKind vars (· = .field) w
  | declaration info _ _ _ => (∀ v ∈ info.parameters, HasKind vars (· ≠ .field) v) ∧
    ∀ v, info.var = some v → info.kind = .field ∧ HasKind vars (· = .field) v
  | varDeclaration v _ => HasKind vars (· ≠ .field) v
  | catchClause _ v _ => ∀ w, v = some w → HasKind vars (· ≠ .field) w
  | lambda parameters _ _ => ∀ v ∈ parameters, HasKind vars (· ≠ .field) v
  | _ => True

theorem fits_label : s.label.Fits vars ↔ s.Fits vars := by
  cases s with
  | fieldAccess name qualifier v => cases qualifier <;> rfl
  | _ => rfl

/-- What a node introduces is a field with its declaration, or it is another variable. -/
theorem Fits.introduced (h : s.Fits vars) (hv : v ∈ s.introduced) :
    s.field? = some v ∧ HasKind vars (· = .field) v ∨ v ∈ s.locals ∧ HasKind vars (· ≠ .field) v := by
  cases s with
  | declaration info members initializer body =>
    rcases List.mem_append.mp hv with hv | hv
    · exact .inr ⟨hv, h.1 v hv⟩
    · obtain ⟨hkind, hfield⟩ := h.2 v (Option.mem_toList.mp hv)
      exact .inl ⟨by rw [field?, if_pos hkind, Option.mem_toList.mp hv], hfield⟩
  | varDeclaration w initializer =>
    obtain rfl := List.mem_singleton.mp hv
    exact .inr ⟨hv, h⟩
  | catchClause types w body => exact .inr ⟨hv, h v (Option.mem_toList.mp hv)⟩
  | lambda parameters isAsync body => exact .inr ⟨hv, h v hv⟩
  | _ => cases hv

end Shape

theorem Tree.fits_node {l : Location} {s : Shape Tree} (hs : s.Fits vars)
    (h : ∀ c ∈ s.children, c.All (Shape.Fits vars)) : (Tree.node l s).All (Shape.Fits vars) :=
  Tree.all_iff.mpr ⟨hs, h⟩

namespace Model

/-- **What references mean in a unit.** -/
structure Refers (m : Model) : Prop where
  /-- A variable that is accessed has the name by which it is accessed. -/
  access : ∀ n ∈ m.nodes, ∀ name v, m.graph.shape n = .varAccess name (some v) →
    v < m.graph.vars.size ∧ (m.graph.variable' v).name = name
  /-- A member with a variable has no object in front; the variable is a field of that name. -/
  member : ∀ n ∈ m.nodes, ∀ name qualifier v,
    m.graph.shape n = .fieldAccess name qualifier (some v) → qualifier = none ∧
      v < m.graph.vars.size ∧ (m.graph.variable' v).name = name ∧ (m.graph.variable' v).kind = .field
  /-- A field that is referred to is the variable of a field that the unit declares. -/
  field : ∀ n ∈ m.nodes, ∀ v, m.graph.mentioned? n = some v →
    (m.graph.variable' v).kind = .field → ∃ d ∈ m.nodes, (m.graph.shape d).field? = some v
  /-- Any other variable that is referred to is that of a declaration among statements, of a handler or
  of a list of parameters. -/
  other : ∀ n ∈ m.nodes, ∀ v, m.graph.mentioned? n = some v →
    (m.graph.variable' v).kind ≠ .field → ∃ d ∈ m.nodes, v ∈ (m.graph.shape d).locals
  /-- A member of another object has no variable. -/
  foreign : ∀ n ∈ m.nodes, ∀ name object v,
    m.graph.shape n = .fieldAccess name (some object) v → v = none

variable {m : Model} {t : Tree}

theorem Shows.isNamed (h : m.Shows vars t) (hv : IsNamed vars name v) :
    v < m.graph.vars.size ∧ (m.graph.variable' v).name = name := by
  obtain ⟨var, hvar, rfl⟩ := hv
  have hsame := congrArg Variable.name (h.variable_eq v var hvar)
  exact ⟨h.vars_size ▸ (Array.getElem?_eq_some_iff.mp hvar).1, hsame⟩

theorem Shows.kind {P : VariableKind → Prop} (h : m.Shows vars t) (hv : HasKind vars P v) :
    P (m.graph.variable' v).kind := by
  obtain ⟨var, hvar, hkind⟩ := hv
  have hsame := congrArg Variable.kind (h.variable_eq v var hvar)
  exact hsame ▸ hkind

/-- **References of a unit mean what they say**, if the nodes of its tree fit the table of variables. -/
theorem Shows.refers (h : m.Shows vars t) (hfits : t.All (Shape.Fits vars)) : m.Refers := by
  have hnode : ∀ n ∈ m.nodes, (m.graph.shape n).Fits vars := by
    intro n hn
    obtain ⟨p, hp⟩ := h.linked.rooted.mem_preorder.mp hn
    obtain ⟨t', ht', hlabel⟩ := h.exists_tree p n hp
    rw [← Shape.fits_label, hlabel, Shape.fits_label]
    exact hfits p t' ht'
  have hmember : ∀ n ∈ m.nodes, ∀ name qualifier v,
      m.graph.shape n = .fieldAccess name qualifier (some v) → qualifier.isNone = true ∧
        IsNamed vars name v ∧ HasKind vars (· = .field) v := by
    intro n hn name qualifier v hshape
    have hfit := hnode n hn
    rw [hshape] at hfit
    exact hfit v rfl
  -- Linking accepts a mention only of what some node of the unit introduces.
  have hdeclared : ∀ n ∈ m.nodes, ∀ v, m.graph.mentioned? n = some v → ∃ d ∈ m.nodes,
      (m.graph.shape d).field? = some v ∧ HasKind vars (· = .field) v ∨
        v ∈ (m.graph.shape d).locals ∧ HasKind vars (· ≠ .field) v := by
    intro n hn v hv
    obtain ⟨d, hd, hintroduced⟩ := List.mem_flatMap.mp (h.linked.mem_vars_of_mentioned? hn hv)
    exact ⟨d, hd, (hnode d hd).introduced hintroduced⟩
  refine ⟨?access, ?member, ?field, ?other, ?foreign⟩
  case access =>
    intro n hn name v hshape
    have hfit := hnode n hn
    rw [hshape] at hfit
    exact h.isNamed (hfit v rfl)
  case member =>
    intro n hn name qualifier v hshape
    obtain ⟨hnone, hnamed, hfield⟩ := hmember n hn name qualifier v hshape
    obtain ⟨hlt, hname⟩ := h.isNamed hnamed
    exact ⟨Option.isNone_iff_eq_none.mp hnone, hlt, hname, h.kind hfield⟩
  case field =>
    intro n hn v hv hkind
    obtain ⟨d, hd, ⟨hfield, -⟩ | ⟨-, hother⟩⟩ := hdeclared n hn v hv
    · exact ⟨d, hd, hfield⟩
    · exact absurd hkind (h.kind hother)
  case other =>
    intro n hn v hv hkind
    obtain ⟨d, hd, ⟨-, hfield⟩ | ⟨hlocal, -⟩⟩ := hdeclared n hn v hv
    · exact absurd (h.kind hfield) hkind
    · exact ⟨d, hd, hlocal⟩
  case foreign =>
    intro n hn name object v hshape
    rcases v with _ | v
    · rfl
    · obtain ⟨hnone, -⟩ := hmember n hn name (some object) v hshape
      cases hnone

end Model

end ModelLint
