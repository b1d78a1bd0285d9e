import ModelLint.Proofs.Program.Contexts
import ModelLint.Proofs.Rules.Evaluation
import ModelLint.Rules.Registry

/-!
# When an access to a shared map is reported

The rule judges a node by climbing from owner to owner, by scanning the unit for launched names and
by comments. On a linked unit this comes down to one condition on the path from the unit to the
node.

* `SharedMap.Exposed`, `SharedMap.Unguarded`: the condition.
* `SharedMap.judge_eq_some`, `isExempt_iff`: what the parts of the rule decide.
* **`SharedMap.reported_iff_unguarded`**: the rule reports the nodes that meet the condition, once
  each and in pre-order.
-/

namespace ModelLint.SharedMap

variable {p : Patterns} {phrases : List String} {m : Model} {n : NodeId} {v : VariableId}
  {place : Graph.Place}

/-- An access to a map at the end of a path, without a lock around it and a comment that covers it. -/
structure Exposed (p : Patterns) (phrases : List String) (m : Model) (path : List NodeId)
    (n : NodeId) (v : VariableId) : Prop where
  /-- A call or indexer operates on a variable or a member that is the variable `v`. -/
  operates : ∃ target, accessTarget? m.graph n = some target ∧
    ((∃ name, m.graph.shape target = .varAccess name (some v)) ∨
      ∃ name qualifier, m.graph.shape target = .fieldAccess name qualifier (some v))
  /-- Its type is a map, as it is written or by its base name, and not one for concurrent use. -/
  map : ∃ type, (m.graph.variable' v).typeName = some type ∧
    TypeName.isMatchedBy p.maps type ∧ ¬ TypeName.isMatchedBy p.concurrent type
  /-- No lock is on the path. -/
  unlocked : ∀ a ∈ path, ∀ target body, m.graph.shape a ≠ .lockStatement target body
  /-- No comment on the line or on the line above covers the access. -/
  uncovered : ∀ line comment, line = (m.graph.location n).line ∨
    line = (m.graph.location n).line - 1 →
      Suppression.commentAt? m.info.comments line = some comment → comment ≠ "" →
        ¬ Suppression.covers comment phrases ruleId

/-- A field that others can reach: it is static, or shared by its name. -/
def SharedField (p : Patterns) (var : Variable) : Prop :=
  var.kind = .field ∧ (var.isStatic ∨ Pattern.anyAccepts p.shared var.name)

/-- **An access to a shared map that nothing guards.** The node `n` stands at the end of the path. -/
structure Unguarded (p : Patterns) (phrases : List String) (m : Model) (path : List NodeId)
    (n : NodeId) (v : VariableId) : Prop extends Exposed p phrases m path n v where
  /-- The access runs concurrently, or others can reach the map. -/
  shared : m.graph.Launched m.root p.launch path ∨ SharedField p (m.graph.variable' v)
  /-- Objects are set up unobserved, unless others run meanwhile. -/
  set_up : m.graph.SetUp path → m.graph.Launched m.root p.launch path

/-! ## The parts of the rule -/

theorem isMatchedBy_empty (patterns : List String) : TypeName.isMatchedBy patterns "" = false :=
  rfl

theorem isMap_iff {maps concurrent : List String} {type : Option String} :
    TypeName.isMap maps concurrent type = true ↔
      ∃ t, type = some t ∧ TypeName.isMatchedBy maps t = true ∧
        ¬ TypeName.isMatchedBy concurrent t = true := by
  rcases type with _ | t
  · simp [TypeName.isMap]
  · by_cases ht : t = ""
    · subst ht
      simp [TypeName.isMap, isMatchedBy_empty]
    · simp [TypeName.isMap, and_comm]

theorem isSharedField_iff {var : Variable} :
    isSharedField p.shared var = true ↔ SharedField p var := by
  simp [isSharedField, SharedField, Variable.isField]

theorem isA_lock {g : Graph} {a : NodeId} :
    g.isA "Lock" a = true ↔ ∃ target body, g.shape a = .lockStatement target body := by
  rw [Graph.isA]
  cases g.shape a <;>
    simp [Shape.isA, Shape.kindName, Shape.isStatement, Shape.isExpression, Shape.isOutermost]

theorem accessedVariable_eq_some {g : Graph} {target : NodeId} :
    g.accessedVariable target = .ok (some v) ↔
      (∃ name, g.shape target = .varAccess name (some v)) ∨
        ∃ name qualifier, g.shape target = .fieldAccess name qualifier (some v) := by
  rw [Graph.accessedVariable]
  rcases g.shape target with _ | _ | _ | _ | _ | _ | _ | _ | _ | _ | _ | _ | _ |
    ⟨name, _ | v⟩ | ⟨name, _ | qualifier, _ | v⟩ | _ | _ | _ | _ | _ | _ | _ <;> simp

theorem isCandidate_of_operates {target : NodeId} (h : accessTarget? m.graph n = some target)
    (hv : m.graph.accessedVariable target = .ok (some v)) : isCandidate m n = true := by
  rw [isCandidate, h, Option.any_some, isAccess]
  rcases accessedVariable_eq_some.mp hv with ⟨name, hshape⟩ | ⟨name, qualifier, hshape⟩ <;>
    rw [hshape]

/-- What it takes for a violation, as the rule computes it. -/
theorem judge_eq_some :
    (∃ message, judge p m n = .ok (some message)) ↔
      ∃ target v, accessTarget? m.graph n = some target ∧
        m.graph.accessedVariable target = .ok (some v) ∧
        TypeName.isMap p.maps p.concurrent (m.graph.variable' v).typeName = true ∧
        ¬ m.graph.isWithin "Lock" n = true ∧
        (m.graph.isConcurrent p.launch (some m.root) n = true ∨
          isSharedField p.shared (m.graph.variable' v) = true) := by
  rw [judge]
  rcases htarget : accessTarget? m.graph n with _ | target
  · simp
  · rcases hv : m.graph.accessedVariable target with cause | _ | v
    · simp [hv]
    · simp [hv]
    · simp only [hv, Option.some.injEq, Except.ok.injEq, exists_and_left, exists_eq_left',
        Bool.not_eq_true]
      cases TypeName.isMap p.maps p.concurrent (m.graph.variable' v).typeName <;>
        cases m.graph.isWithin "Lock" n <;>
        cases m.graph.isConcurrent p.launch (some m.root) n <;>
        cases isSharedField p.shared (m.graph.variable' v) <;> simp

theorem exposed_iff {path : List NodeId} : Exposed p phrases m path n v ↔
    (accessTarget? m.graph n).bind m.graph.mentioned? = some v ∧
      TypeName.isMap p.maps p.concurrent (m.graph.variable' v).typeName = true ∧
      (∀ a ∈ path, ¬ m.graph.isA "Lock" a = true) ∧
      Suppression.coversLine m.info.comments phrases ruleId (m.graph.location n).line = false := by
  have hoperates : ∀ target, m.graph.mentioned? target = some v ↔
      (∃ name, m.graph.shape target = .varAccess name (some v)) ∨
        ∃ name qualifier, m.graph.shape target = .fieldAccess name qualifier (some v) := by
    intro target
    rw [Graph.mentioned?]
    cases m.graph.shape target <;> simp
  simp only [Option.bind_eq_some_iff, hoperates, isMap_iff, isA_lock, Suppression.coversLine_iff,
    not_exists]
  constructor
  · rintro ⟨hoperates, hmap, hunlocked, huncovered⟩
    exact ⟨hoperates, hmap, hunlocked, huncovered⟩
  · rintro ⟨hoperates, hmap, hunlocked, huncovered⟩
    exact ⟨hoperates, hmap, hunlocked, huncovered⟩

instance (p : Patterns) (phrases : List String) (m : Model) (path : List NodeId) (n : NodeId)
    (v : VariableId) : Decidable (Exposed p phrases m path n v) :=
  decidable_of_iff _ exposed_iff.symm

instance (p : Patterns) (var : Variable) : Decidable (SharedField p var) :=
  inferInstanceAs (Decidable (_ ∧ _))

/-! ## The rule -/

theorem isExempt_iff (hm : m.Linked) (hp : m.graph.at? m.root place = some n) :
    isExempt p m n = false ↔
      (m.graph.SetUp (m.graph.above m.root place) →
        m.graph.Launched m.root p.launch (m.graph.above m.root place)) := by
  rw [isExempt, ← hm.rooted.isSetUp_iff hp, ← hm.rooted.isConcurrent_iff hp]
  cases (m.graph.enclosingMethod n).any m.graph.isConstructor <;>
    cases m.graph.isConcurrent p.launch (some m.root) n <;> simp

/-- The rule reports a node exactly if the access is unguarded. -/
theorem finding?_isSome_iff (hm : m.Linked) (hp : m.graph.at? m.root place = some n)
    {description : String} {severity : Severity} :
    (∃ f, (rule description severity p).finding? phrases m n = some f) ↔
      ∃ v, Unguarded p phrases m (m.graph.above m.root place) n v := by
  have hlock : ¬ m.graph.isWithin "Lock" n = true ↔
      ∀ a ∈ m.graph.above m.root place, ∀ target body,
        m.graph.shape a ≠ .lockStatement target body := by
    simp [hm.rooted.isWithin_iff hp, isA_lock]
  have hconcurrent : m.graph.isConcurrent p.launch (some m.root) n = true ↔
      m.graph.Launched m.root p.launch (m.graph.above m.root place) := hm.rooted.isConcurrent_iff hp
  constructor
  · rintro ⟨f, hf⟩
    obtain ⟨-, hexempt, hcovers, message, hmessage, -⟩ := Rule.finding?_eq_some.mp hf
    obtain ⟨target, v, htarget, hv, hmap, hwithin, hshared⟩ := judge_eq_some.mp ⟨message, hmessage⟩
    exact ⟨v, ⟨⟨target, htarget, accessedVariable_eq_some.mp hv⟩, isMap_iff.mp hmap,
      hlock.mp hwithin, Suppression.coversLine_iff.mp hcovers⟩,
      hshared.imp hconcurrent.mp isSharedField_iff.mp,      (isExempt_iff hm hp).mp hexempt⟩
  · rintro ⟨v, ⟨⟨target, htarget, hv⟩, hmap, hunlocked, huncovered⟩, hshared, hsetup⟩
    replace hv := accessedVariable_eq_some.mpr hv
    obtain ⟨message, hmessage⟩ := judge_eq_some.mpr ⟨target, v, htarget, hv, isMap_iff.mpr hmap,
      hlock.mpr hunlocked, hshared.imp hconcurrent.mpr isSharedField_iff.mpr⟩
    exact ⟨_, Rule.finding?_eq_some.mpr ⟨isCandidate_of_operates htarget hv,
      (isExempt_iff hm hp).mpr hsetup, Suppression.coversLine_iff.mpr huncovered, message, hmessage,
      rfl⟩⟩

theorem build_eq_ok {s : RuleSettings} {r : Rule} (h : Registry.sharedMap.build s = .ok r) :
    ∃ p : Patterns, s.pattern? "shared_fields" = some p.shared ∧
      s.pattern? "map_types" = some p.maps ∧
      s.pattern? "concurrent_map_types" = some p.concurrent ∧
      s.pattern? "launch_calls" = some p.launch ∧
      r = rule Registry.sharedMap.description s.severity p := by
  simp only [Registry.sharedMap, RuleDefinition.require] at h
  rcases hshared : s.pattern? "shared_fields" with _ | shared
  · rw [hshared] at h; cases h
  rcases hmaps : s.pattern? "map_types" with _ | maps
  · rw [hshared, hmaps] at h; cases h
  rcases hconcurrent : s.pattern? "concurrent_map_types" with _ | concurrent
  · rw [hshared, hmaps, hconcurrent] at h; cases h
  rcases hlaunch : s.pattern? "launch_calls" with _ | launch
  · rw [hshared, hmaps, hconcurrent, hlaunch] at h; cases h
  rw [hshared, hmaps, hconcurrent, hlaunch] at h
  cases h
  exact ⟨⟨shared, maps, concurrent, launch⟩, rfl, rfl, rfl, rfl, rfl⟩

theorem reported_rule (hm : m.Linked) (description : String) (severity : Severity) (p : Patterns)
    (phrases : List String) :
    ∃ nodes : List NodeId, nodes.Sublist m.nodes ∧ nodes.Nodup ∧
      (∀ n, n ∈ nodes ↔ ∃ place v, m.graph.at? m.root place = some n ∧
        Unguarded p phrases m (m.graph.above m.root place) n v) ∧
      List.Forall₂ (fun n f => f.ruleId = ruleId ∧ f.severity = some severity ∧
          f.path = m.info.path ∧ f.span = (m.graph.location n).span) nodes
        ((rule description severity p).evaluate phrases m).findings := by
  obtain ⟨nodes, hsublist, hmem, hfindings⟩ :=
    (rule description severity p).reported_evaluate phrases m
  refine ⟨nodes, hsublist, hm.rooted.nodup_preorder.sublist hsublist, fun n => ?_,
    hfindings.imp fun {n f} hf => ?_⟩
  · rw [hmem, Model.nodes, hm.rooted.mem_preorder]
    constructor
    · rintro ⟨⟨place, hplace⟩, hf⟩
      obtain ⟨v, hv⟩ := (finding?_isSome_iff hm hplace).mp hf
      exact ⟨place, v, hplace, hv⟩
    · rintro ⟨place, v, hplace, hv⟩
      exact ⟨⟨place, hplace⟩, (finding?_isSome_iff hm hplace).mpr ⟨v, hv⟩⟩
  · obtain ⟨-, -, -, message, -, rfl⟩ := Rule.finding?_eq_some.mp hf
    exact ⟨rfl, rfl, rfl, rfl⟩

/-- What the rule reports, told at the places of nodes. -/
theorem reported_rule_at (hm : m.Linked) (description : String) (severity : Severity) (p : Patterns)
    (phrases : List String) :
    ∃ nodes : List NodeId, nodes.Sublist m.nodes ∧ nodes.Nodup ∧
      (∀ place n, m.graph.at? m.root place = some n →
        (n ∈ nodes ↔ ∃ v, Unguarded p phrases m (m.graph.above m.root place) n v)) ∧
      List.Forall₂ (fun n f => f.ruleId = ruleId ∧ f.severity = some severity ∧
          f.path = m.info.path ∧ f.span = (m.graph.location n).span) nodes
        ((rule description severity p).evaluate phrases m).findings := by
  obtain ⟨nodes, hsublist, hnodup, hmem, hfindings⟩ := reported_rule hm description severity p phrases
  refine ⟨nodes, hsublist, hnodup, fun place n hplace => ?_, hfindings⟩
  rw [hmem]
  constructor
  · rintro ⟨place', v, hplace', hv⟩
    rw [hm.rooted.place_unique place place' n hplace hplace']
    exact ⟨v, hv⟩
  · rintro ⟨v, hv⟩
    exact ⟨place, v, hplace, hv⟩

/-- A unit of an asynchronous function that reads its parameter, a map. -/
def readerUnit : Graph where
  nodes := #[
    ⟨⟨1, 0, none, none⟩, .sourceUnit ⟨⟨"", ["m.py"]⟩, "python", [], []⟩ [1], none⟩,
    ⟨⟨1, 0, none, none⟩, .declaration ⟨"read", .method, "read", ["async"], [0], none, false⟩ [] none
      [2], none⟩,
    ⟨⟨2, 4, none, none⟩, .returnStatement (some 3), none⟩,
    ⟨⟨2, 11, none, none⟩, .elementAccess 4 none, none⟩,
    ⟨⟨2, 11, none, none⟩, .varAccess "d" (some 0), none⟩]
  vars := #[⟨"d", some "dict", .parameter, false, none⟩]

/-- The unit once it is linked. -/
def readerModel : Model := ⟨(readerUnit.link 0).1, 0⟩

/-- Settings with one pattern. -/
def readerSettings : RuleSettings where
  severity := .error
  enabled := true
  patterns := [("shared_fields", []), ("map_types", ["dict"]), ("concurrent_map_types", []),
    ("launch_calls", [])]

theorem linked_readerModel : readerModel.Linked :=
  ⟨readerUnit, ⟨by decide, by decide⟩, by decide, ⟨_, _, rfl⟩, Prod.ext rfl rfl⟩

end ModelLint.SharedMap
