import ModelLint.Proofs.Program.Ancestors
import ModelLint.Proofs.Program.Functions
import ModelLint.Proofs.Rules.Evaluation
import ModelLint.Rules.Registry

/-!
# When a resource is never released

The rule looks for a release in the innermost function around a declaration. On a linked unit this
function is the last one on the path to the declaration.

* `ResourceDisposal.Releases`: a node releases a variable or hands it on.
* `ResourceDisposal.Acquires`: a declaration acquires a resource that has to be released.
* `releaseRegion_eq_iff`: where the rule looks for a release.
* **`finding?_isSome_iff`**: a declaration is reported if it acquires a resource and nothing in the
  function around it releases the variable.
-/

namespace ModelLint

theorem Model.Linked.scope_local {m : Model} (h : m.Linked) {place : Graph.Place} {d : NodeId}
    {v : VariableId} {initializer : Option NodeId} (hd : m.graph.at? m.root place = some d)
    (hshape : m.graph.shape d = .varDeclaration v initializer) :
    (m.graph.variable' v).scope = m.graph.owner d := by
  obtain ⟨g, hg, hroot, ⟨info, declarations, hunit⟩, hlink⟩ := h
  obtain ⟨-, -, howned⟩ := Graph.link_spec hg hroot hunit
  have hskeleton := Graph.sameSkeleton_link g m.root
  rw [hlink] at howned hskeleton
  rw [hskeleton.at?_eq] at hd
  rw [hskeleton.shape_eq] at hshape
  exact (howned rfl).scope_local place d v initializer hd hshape

namespace ResourceDisposal

variable {p : Patterns} {phrases : List String} {m : Model} {place : Graph.Place} {d n : NodeId}
  {v : VariableId} {before : List NodeId} {region : NodeId}

/-! ## Releases and acquisitions -/

/-- **A node releases a variable or hands it on**; only mentions that stand there by themselves
count. -/
inductive Releases (g : Graph) (release : NameSet) (v : VariableId) (n : NodeId) : Prop where
  /-- A scoped acquisition manages it. -/
  | managed {resources : List NodeId} {body : Option NodeId} {a : NodeId}
      (hshape : g.shape n = .usingStatement resources body) (ha : a ∈ resources)
      (hv : g.mentioned? a = some v)
  /-- It is the qualifier of a releasing call. -/
  | called {name : String} {type : Option String} {arguments : List NodeId} {a : NodeId}
      (hshape : g.shape n = .methodCall name type (some a) arguments)
      (hname : Pattern.anyAccepts release name) (hv : g.mentioned? a = some v)
  /-- It is an argument of a call. -/
  | handed {name : String} {type : Option String} {qualifier : Option NodeId}
      {arguments : List NodeId} {a : NodeId}
      (hshape : g.shape n = .methodCall name type qualifier arguments) (ha : a ∈ arguments)
      (hv : g.mentioned? a = some v)
  /-- It is returned. -/
  | returned {a : NodeId} (hshape : g.shape n = .returnStatement (some a))
      (hv : g.mentioned? a = some v)
  /-- It is stored in a field. -/
  | stored {operator : String} {target a : NodeId} (hshape : g.shape n = .assignment operator target a)
      (hfield : isFieldTarget g target) (hv : g.mentioned? a = some v)

/-- A type is declared to be a resource in the unit, or the unit knows it to be one. -/
def Disposable (m : Model) (name : String) : Prop :=
  name ∈ m.info.disposableTypes ∨ ∃ place n info, m.graph.at? m.root place = some n ∧
    m.graph.declaration? n = some info ∧ info.kind = .type ∧ info.isDisposable = true ∧
      info.name = name

/-- A type is a resource type, as it is written or by its base name. -/
def ResourceType (p : Patterns) (m : Model) (type : String) : Prop :=
  TypeName.isMatchedBy p.resourceTypes type ∨ type ≠ "" ∧
    (Disposable m type ∨ ∃ name, TypeName.base? type = some name ∧ Disposable m name)

/-- **A declaration acquires a resource** that it has to release itself. -/
structure Acquires (p : Patterns) (phrases : List String) (m : Model) (d : NodeId) (v : VariableId) :
    Prop where
  /-- The initializer is a call or creates an object. -/
  acquisition : ∃ e, m.graph.shape d = .varDeclaration v (some e) ∧
    ((∃ name type qualifier arguments,
        m.graph.shape e = .methodCall name type qualifier arguments) ∨
      ∃ type arguments, m.graph.shape e = .objectCreation type arguments)
  /-- The type is that of a resource. -/
  resource : ∃ type, (m.graph.variable' v).typeName = some type ∧ ResourceType p m type
  /-- No scoped acquisition is right above the declaration to manage it. -/
  unmanaged : ∀ o, m.graph.owner d = some o →
    ∀ resources body, m.graph.shape o ≠ .usingStatement resources body
  /-- No comment on the line or on the line above covers the declaration. -/
  uncovered : ∀ line comment, line = (m.graph.location d).line ∨
    line = (m.graph.location d).line - 1 →
      Suppression.commentAt? m.info.comments line = some comment → comment ≠ "" →
        ¬ Suppression.covers comment phrases ruleId

theorem releases_iff {g : Graph} {release : NameSet} :
    releases g release v n = true ↔ Releases g release v n := by
  have hdirect : ∀ a, g.isDirectMention v a = true ↔ g.mentioned? a = some v := fun a => beq_iff_eq
  constructor
  · intro h
    rw [releases] at h
    split at h
    · next resources body hshape =>
      obtain ⟨a, ha, hv⟩ := List.any_eq_true.mp h
      exact .managed hshape ha ((hdirect a).mp hv)
    · next name type qualifier arguments hshape =>
      rcases Bool.or_eq_true_iff.mp h with h | h
      · obtain ⟨hq, hname⟩ := Bool.and_eq_true_iff.mp h
        obtain ⟨a, rfl, hv⟩ := (Option.any_eq_true _ _).mp hq
        exact .called hshape hname ((hdirect a).mp hv)
      · obtain ⟨a, ha, hv⟩ := List.any_eq_true.mp h
        exact .handed hshape ha ((hdirect a).mp hv)
    · next value hshape =>
      obtain ⟨a, rfl, hv⟩ := (Option.any_eq_true _ _).mp h
      exact .returned hshape ((hdirect a).mp hv)
    · next operator target value hshape =>
      obtain ⟨hv, hfield⟩ := Bool.and_eq_true_iff.mp h
      exact .stored hshape hfield ((hdirect value).mp hv)
    · cases h
  · rintro (⟨hshape, ha, hv⟩ | ⟨hshape, hname, hv⟩ | ⟨hshape, ha, hv⟩ | ⟨hshape, hv⟩ |
      ⟨hshape, hfield, hv⟩) <;> rw [releases, hshape]
    · exact List.any_eq_true.mpr ⟨_, ha, (hdirect _).mpr hv⟩
    · exact Bool.or_eq_true_iff.mpr (.inl (Bool.and_eq_true_iff.mpr ⟨(hdirect _).mpr hv, hname⟩))
    · exact Bool.or_eq_true_iff.mpr (.inr (List.any_eq_true.mpr ⟨_, ha, (hdirect _).mpr hv⟩))
    · exact (hdirect _).mpr hv
    · exact Bool.and_eq_true_iff.mpr ⟨(hdirect _).mpr hv, hfield⟩

/-- The node mentions a field or a member. -/
def MentionsField (g : Graph) (n : NodeId) : Prop :=
  (∃ name qualifier v, g.shape n = .fieldAccess name qualifier v) ∨
    ∃ name v, g.shape n = .varAccess name (some v) ∧ (g.variable' v).isField = true

/-- What is stored goes to a field if the target mentions one or is an indexer on one. -/
theorem isFieldTarget_iff {g : Graph} : isFieldTarget g n = true ↔
    MentionsField g n ∨
      ∃ inner index, g.shape n = .elementAccess inner index ∧ MentionsField g inner := by
  cases hn : g.shape n
  case elementAccess inner index =>
    simp only [isFieldTarget, MentionsField, hn, Shape.elementAccess.injEq, reduceCtorEq, exists_const,
      false_and, or_self, false_or, and_assoc, exists_and_left, exists_eq_left']
    rcases g.shape inner with _ | _ | _ | _ | _ | _ | _ | _ | _ | _ | _ | _ | _ | ⟨name, _ | v⟩ | _ |
      _ | _ | _ | _ | _ | _ | _ <;> simp
  case varAccess name var =>
    cases var <;> simp [isFieldTarget, MentionsField, hn]
  all_goals simp [isFieldTarget, MentionsField, hn]

/-- What releases a variable has a mention of it as a child. -/
theorem Releases.exists_child {g : Graph} {release : NameSet} (h : Releases g release v n) :
    ∃ a ∈ g.children n, g.mentioned? a = some v := by
  obtain ⟨hshape, ha, hv⟩ | ⟨hshape, -, hv⟩ | ⟨hshape, ha, hv⟩ | ⟨hshape, hv⟩ | ⟨hshape, -, hv⟩ := h <;>
    refine ⟨_, ?_, hv⟩ <;> rw [Graph.children, hshape] <;>
    simp [Shape.children, Shape.slots, *]

theorem Releases.not_declares {g : Graph} {release : NameSet} {kind : DeclarationKind}
    (h : Releases g release v n) : ¬ g.Declares kind n := by
  rintro ⟨info, hinfo, -⟩
  rw [Graph.declaration?] at hinfo
  obtain ⟨hshape, -⟩ | ⟨hshape, -⟩ | ⟨hshape, -⟩ | ⟨hshape, -⟩ | ⟨hshape, -⟩ := h <;>
    rw [hshape] at hinfo <;> cases hinfo

/-! ## The parts of the rule -/

theorem isAcquisition_iff {g : Graph} {e : NodeId} : g.isAcquisition e = true ↔
    (∃ name type qualifier arguments, g.shape e = .methodCall name type qualifier arguments) ∨
      ∃ type arguments, g.shape e = .objectCreation type arguments := by
  rw [Graph.isAcquisition]
  cases g.shape e <;> simp

theorem isA_using {g : Graph} {a : NodeId} :
    g.isA "Using" a = true ↔ ∃ resources body, g.shape a = .usingStatement resources body := by
  rw [Graph.isA]
  cases g.shape a <;>
    simp [Shape.isA, Shape.kindName, Shape.isStatement, Shape.isExpression, Shape.isOutermost]

theorem isFunction_iff {g : Graph} : isFunction g n = true ↔ (g.shape n).IsFunction := by
  rw [isFunction, Bool.or_eq_true, Graph.isA_lambda, Graph.declares_iff, Graph.IsLambda,
    Graph.Declares, Graph.declaration?]
  cases g.shape n <;> simp [Shape.IsFunction]

theorem mem_disposableTypes (hm : m.Linked) {name : String} :
    name ∈ m.graph.disposableTypes m.root ↔ Disposable m name := by
  rw [Graph.disposableTypes, NameSet.mem_ofList, List.mem_append, Disposable, Model.info]
  refine or_congr ?_ ?_
  · cases m.graph.unitInfo? m.root with
    | none => exact Iff.rfl
    | some info => exact Iff.rfl
  · rw [List.mem_filterMap]
    constructor
    · rintro ⟨n, hn, hname⟩
      obtain ⟨place, hplace⟩ := hm.rooted.mem_preorder.mp hn
      split at hname
      · next info hinfo =>
        split at hname
        · next hkind =>
          cases hname
          exact ⟨place, n, info, hplace, hinfo, hkind.1, hkind.2, rfl⟩
        · cases hname
      · cases hname
    · rintro ⟨place, n, info, hplace, hinfo, hkind, hdisposable, rfl⟩
      refine ⟨n, hm.rooted.mem_preorder.mpr ⟨place, hplace⟩, ?_⟩
      rw [hinfo]
      simp [hkind, hdisposable]

theorem isResource_iff (hm : m.Linked) {type : Option String} :
    TypeName.isResource p.resourceTypes (m.graph.disposableTypes m.root) type = true ↔
      ∃ t, type = some t ∧ ResourceType p m t := by
  rcases type with _ | t
  · simp [TypeName.isResource]
  · by_cases ht : t = ""
    · subst ht
      have hempty : TypeName.isMatchedBy p.resourceTypes "" = false := rfl
      simp [TypeName.isResource, ResourceType, hempty]
    · simp only [TypeName.isResource, Option.some.injEq, exists_eq_left', ResourceType, ne_eq, ht,
        not_false_eq_true, true_and, Bool.or_eq_true, List.contains_iff_mem,
        mem_disposableTypes hm, Option.any_eq_true, or_assoc]

/-- What it takes for a violation, as the rule computes it. -/
theorem judge_eq_some :
    (∃ message, judge p m d = .ok (some message)) ↔
      ∃ v e, m.graph.shape d = .varDeclaration v (some e) ∧ m.graph.isAcquisition e = true ∧
        TypeName.isResource p.resourceTypes (m.graph.disposableTypes m.root)
          (m.graph.variable' v).typeName = true ∧
        isReleased m.graph p.release d v = .ok false := by
  rw [judge]
  rcases hshape : m.graph.shape d with _ | _ | _ | _ | _ | _ | _ | ⟨v, _ | e⟩ | _ | _ | _ | _ | _ |
    _ | _ | _ | _ | _ | _ | _ | _ | _
  case varDeclaration.some =>
    simp only [Option.any_some, Shape.varDeclaration.injEq, Option.some.injEq, and_assoc,
      exists_and_left, exists_eq_left']
    by_cases hacquisition : m.graph.isAcquisition e = true <;>
      by_cases hresource : TypeName.isResource p.resourceTypes (m.graph.disposableTypes m.root)
        (m.graph.variable' v).typeName = true <;>
      rcases isReleased m.graph p.release d v with cause | _ | _ <;> simp [hacquisition, hresource]
  all_goals simp

/-- A function stands right above a place or further up: it is the last one on the path. -/
def Around (g : Graph) (path : List NodeId) (region : NodeId) : Prop :=
  ∃ before, Graph.Innermost path (fun a => (g.shape a).IsFunction) region before

/-- Where a release is looked for: in the function around, or in what is right above where there is
no function. -/
def Searched (g : Graph) (path : List NodeId) (region : NodeId) : Prop :=
  Around g path region ∨ (∀ a ∈ path, ¬ (g.shape a).IsFunction) ∧ path.getLast? = some region

theorem exists_around {g : Graph} {path : List NodeId}
    (h : ∃ a ∈ path, (g.shape a).IsFunction) : ∃ region, Around g path region :=
  Graph.exists_innermost_of h

theorem releaseRegion_eq_iff {g : Graph} {path : List NodeId} {scope : NodeId}
    (h : scope :: g.ancestors scope = path.reverse) :
    releaseRegion g scope = region ↔ Searched g path region := by
  have hfind : ∀ a, path.reverse.find? (isFunction g) = some a ↔ Around g path a :=
    fun a => Graph.find?_reverse_eq_some fun _ => isFunction_iff
  have hlast : path.getLast? = some scope := by
    rw [← List.head?_reverse, ← h, List.head?_cons]
  rw [releaseRegion, h, Searched]
  rcases hfunction : path.reverse.find? (isFunction g) with _ | a
  · have hnone : ∀ a ∈ path, ¬ (g.shape a).IsFunction := by
      intro a ha hf
      exact List.find?_eq_none.mp hfunction a (List.mem_reverse.mpr ha) (isFunction_iff.mpr hf)
    have hno : ¬ Around g path region := by
      intro hregion
      rw [(hfind region).mpr hregion] at hfunction
      cases hfunction
    simpa [hno, hlast] using fun _ : scope = region => hnone
  · have haround := (hfind a).mp hfunction
    have hsome : ¬ ∀ a ∈ path, ¬ (g.shape a).IsFunction := by
      obtain ⟨before, hf, after, heq, -⟩ := haround
      intro hnone
      exact hnone a (by simp [heq]) hf
    have hregion : Around g path region ↔ a = region := by
      rw [← hfind, hfunction, Option.some.injEq]
    simp [hsome, hregion]

/-- **The rule looks for a release in the innermost function** around the declaration, if there is
one. -/
theorem exists_scope (hm : m.Linked) (hd : m.graph.at? m.root place = some d)
    {initializer : Option NodeId} (hshape : m.graph.shape d = .varDeclaration v initializer) :
    ∃ scope, m.graph.owner d = some scope ∧ m.graph.declaringScope v = .ok scope ∧
      ∀ region, releaseRegion m.graph scope = region ↔
        Searched m.graph (m.graph.above m.root place) region := by
  rcases List.eq_nil_or_concat' place with rfl | ⟨q, i, rfl⟩
  · obtain ⟨g, -, hroot, ⟨info, declarations, hunit⟩, hlink⟩ := hm
    cases hd
    have hskeleton := Graph.sameSkeleton_link g m.root
    rw [hlink] at hskeleton
    rw [hskeleton.shape_eq, hunit] at hshape
    cases hshape
  · obtain ⟨scope, hscope, -⟩ := Graph.at?_snoc_eq_some.mp hd
    have howner := hm.rooted.owner_snoc hscope hd
    refine ⟨scope, howner, ?_, fun region => releaseRegion_eq_iff ?_⟩
    · rw [Graph.declaringScope, hm.scope_local hd hshape, howner]
    · rw [hm.rooted.ancestors_eq hscope, Graph.above_snoc hscope, List.reverse_append]
      rfl

theorem isReleased_eq_false (hm : m.Linked) (hd : m.graph.at? m.root place = some d)
    {initializer : Option NodeId} (hshape : m.graph.shape d = .varDeclaration v initializer) :
    isReleased m.graph p.release d v = .ok false ↔
      (∀ o, m.graph.owner d = some o →
        ∀ resources body, m.graph.shape o ≠ .usingStatement resources body) ∧
      ∃ region, Searched m.graph (m.graph.above m.root place) region ∧
        ∀ n ∈ m.graph.preorder region, ¬ Releases m.graph p.release v n := by
  obtain ⟨scope, howner, hscope, hregion⟩ := exists_scope hm hd hshape
  have hany : (m.graph.preorder (releaseRegion m.graph scope)).any (releases m.graph p.release v) =
      false ↔ ∃ region, Searched m.graph (m.graph.above m.root place) region ∧
        ∀ n ∈ m.graph.preorder region, ¬ Releases m.graph p.release v n := by
    simp [List.any_eq_false, releases_iff, ← hregion]
  simp only [isReleased, howner, hscope, Option.any_some, Option.some.injEq, forall_eq']
  by_cases hmanaged : m.graph.isA "Using" scope = true
  · rw [if_pos hmanaged]
    obtain ⟨resources, body, hscope⟩ := isA_using.mp hmanaged
    constructor
    · intro h
      cases h
    · intro h
      exact absurd hscope (h.1 resources body)
  · rw [if_neg hmanaged, Except.ok.injEq, hany, iff_and_self]
    intro _ resources body hscope
    exact hmanaged (isA_using.mpr ⟨resources, body, hscope⟩)

/-! ## The rule -/

/-- A declaration at the end of a path is reported: it acquires a resource, and nothing releases the
variable where a release is looked for. -/
def Leaks (p : Patterns) (phrases : List String) (m : Model) (path : List NodeId) (d : NodeId)
    (v : VariableId) : Prop :=
  Acquires p phrases m d v ∧ ∃ region, Searched m.graph path region ∧
    ∀ n ∈ m.graph.preorder region, ¬ Releases m.graph p.release v n

/-- What is declared among statements is a local variable. -/
def LocalsOnly (m : Model) : Prop :=
  ∀ place d v initializer, m.graph.at? m.root place = some d →
    m.graph.shape d = .varDeclaration v initializer → (m.graph.variable' v).kind = .localVar

theorem exists_finding?_iff (hm : m.Linked) (hd : m.graph.at? m.root place = some d)
    {description : String} {severity : Severity} :
    (∃ f, (rule description severity p).finding? phrases m d = some f) ↔
      ∃ v, (m.graph.variable' v).kind = .localVar ∧
        Leaks p phrases m (m.graph.above m.root place) d v := by
  constructor
  · rintro ⟨f, hf⟩
    obtain ⟨hcandidate, -, hcovers, message, hmessage, -⟩ := Rule.finding?_eq_some.mp hf
    obtain ⟨v, e, hshape, hacquisition, hresource, hreleased⟩ := judge_eq_some.mp ⟨message, hmessage⟩
    obtain ⟨hunmanaged, hregion⟩ := (isReleased_eq_false hm hd hshape).mp hreleased
    refine ⟨v, ?_, ⟨⟨e, hshape, isAcquisition_iff.mp hacquisition⟩, (isResource_iff hm).mp hresource,
      hunmanaged, Suppression.coversLine_iff.mp hcovers⟩, hregion⟩
    simpa only [rule, isCandidate, hshape, decide_eq_true_eq] using hcandidate
  · rintro ⟨v, hkind, ⟨⟨e, hshape, hacquisition⟩, hresource, hunmanaged, huncovered⟩, hregion⟩
    have hreleased := (isReleased_eq_false hm hd hshape).mpr ⟨hunmanaged, hregion⟩
    obtain ⟨message, hmessage⟩ := judge_eq_some.mpr ⟨v, e, hshape, isAcquisition_iff.mpr hacquisition,
      (isResource_iff hm).mpr hresource, hreleased⟩
    refine ⟨_, Rule.finding?_eq_some.mpr ⟨?_, rfl, Suppression.coversLine_iff.mpr huncovered, message,
      hmessage, rfl⟩⟩
    simp only [rule, isCandidate, hshape, hkind, decide_true]

theorem acquires_iff : Acquires p phrases m d v ↔
    (∃ e, m.graph.shape d = .varDeclaration v (some e) ∧ m.graph.isAcquisition e = true) ∧
      (∃ type, (m.graph.variable' v).typeName = some type ∧ ResourceType p m type) ∧
      (∀ o, m.graph.owner d = some o → ∀ resources body,
        m.graph.shape o ≠ .usingStatement resources body) ∧
      Suppression.coversLine m.info.comments phrases ruleId (m.graph.location d).line = false := by
  simp only [isAcquisition_iff, Suppression.coversLine_iff]
  exact ⟨fun h => ⟨h.acquisition, h.resource, h.unmanaged, h.uncovered⟩,
    fun h => ⟨h.1, h.2.1, h.2.2.1, h.2.2.2⟩⟩

/-- A declaration is reported if its variable is local, it acquires a resource and nothing releases it
where a release is looked for. -/
theorem exists_finding?_iff_region (hm : m.Linked) (hd : d ∈ m.nodes) {description : String}
    {severity : Severity} :
    (∃ f, (rule description severity p).finding? phrases m d = some f) ↔
      ∃ v, (m.graph.variable' v).kind = .localVar ∧ Acquires p phrases m d v ∧
        ∃ o, m.graph.owner d = some o ∧
          ∀ x ∈ m.graph.preorder (releaseRegion m.graph o), ¬ Releases m.graph p.release v x := by
  obtain ⟨place, hplace⟩ := hm.rooted.mem_preorder.mp hd
  rw [exists_finding?_iff hm hplace]
  refine exists_congr fun v => and_congr_right fun _ => and_congr_right fun hacquires => ?_
  obtain ⟨e, hshape, -⟩ := hacquires.acquisition
  obtain ⟨o, howner, -, hregion⟩ := exists_scope hm hplace hshape
  simp only [← hregion, exists_eq_left', howner, Option.some.injEq]

theorem releaseRegion_eq_getD {o : NodeId} (hm : m.Linked) (hd : d ∈ m.nodes)
    (ho : m.graph.owner d = some o) :
    releaseRegion m.graph o = ((m.graph.ancestors d).find? (isFunction m.graph)).getD o := by
  obtain ⟨homem, hchild⟩ := (hm.rooted.owner_eq_some hd).mp ho
  rw [releaseRegion, hm.rooted.ancestors_child homem hchild]

theorem releaseRegion_mem {o : NodeId} (hm : m.Linked) (hd : d ∈ m.nodes)
    (ho : m.graph.owner d = some o) :
    releaseRegion m.graph o ∈ m.nodes := by
  rw [releaseRegion_eq_getD hm hd ho]
  rcases hfound : (m.graph.ancestors d).find? (isFunction m.graph) with _ | f
  · exact ((hm.rooted.owner_eq_some hd).mp ho).1
  · exact hm.rooted.mem_of_mem_ancestors hd (List.mem_of_find?_eq_some hfound)

theorem finding?_isSome_iff (hm : m.Linked) (hlocals : LocalsOnly m)
    (hd : m.graph.at? m.root place = some d) {description : String} {severity : Severity} :
    (∃ f, (rule description severity p).finding? phrases m d = some f) ↔
      ∃ v, Leaks p phrases m (m.graph.above m.root place) d v := by
  rw [exists_finding?_iff hm hd]
  refine exists_congr fun v => and_iff_right_of_imp fun hleaks => ?_
  obtain ⟨e, hshape, -⟩ := hleaks.1.acquisition
  exact hlocals place d v _ hd hshape

/-- **The rule reports the declarations that leak**, once each and in pre-order. -/
theorem reported_rule (hm : m.Linked) (hlocals : LocalsOnly m) (description : String)
    (severity : Severity) (p : Patterns) (phrases : List String) :
    ∃ nodes : List NodeId, nodes.Sublist m.nodes ∧ nodes.Nodup ∧
      (∀ d, d ∈ nodes ↔ ∃ place v, m.graph.at? m.root place = some d ∧
        Leaks p phrases m (m.graph.above m.root place) d v) ∧
      List.Forall₂ (fun d f => f.ruleId = ruleId ∧ f.severity = some severity ∧
          f.path = m.info.path ∧ f.span = (m.graph.location d).span) nodes
        ((rule description severity p).evaluate phrases m).findings := by
  obtain ⟨nodes, hsublist, hmem, hfindings⟩ :=
    (rule description severity p).reported_evaluate phrases m
  refine ⟨nodes, hsublist, hm.rooted.nodup_preorder.sublist hsublist, fun d => ?_,
    hfindings.imp fun {d f} hf => ?_⟩
  · rw [hmem, Model.nodes, hm.rooted.mem_preorder]
    constructor
    · rintro ⟨⟨place, hplace⟩, hf⟩
      obtain ⟨v, hv⟩ := (finding?_isSome_iff hm hlocals hplace).mp hf
      exact ⟨place, v, hplace, hv⟩
    · rintro ⟨place, v, hplace, hv⟩
      exact ⟨⟨place, hplace⟩, (finding?_isSome_iff hm hlocals hplace).mpr ⟨v, hv⟩⟩
  · obtain ⟨-, -, -, message, -, rfl⟩ := Rule.finding?_eq_some.mp hf
    exact ⟨rfl, rfl, rfl, rfl⟩

theorem build_eq_ok {s : RuleSettings} {r : Rule} (h : Registry.resourceDisposal.build s = .ok r) :
    ∃ p : Patterns, s.pattern? "resource_types" = some p.resourceTypes ∧
      s.pattern? "release_methods" = some p.release ∧
      r = rule Registry.resourceDisposal.description s.severity p := by
  simp only [Registry.resourceDisposal, RuleDefinition.require] at h
  rcases htypes : s.pattern? "resource_types" with _ | types
  · rw [htypes] at h; cases h
  rcases hrelease : s.pattern? "release_methods" with _ | release
  · rw [htypes, hrelease] at h; cases h
  rw [htypes, hrelease] at h
  cases h
  exact ⟨⟨types, release⟩, rfl, rfl, rfl⟩

end ResourceDisposal

end ModelLint
