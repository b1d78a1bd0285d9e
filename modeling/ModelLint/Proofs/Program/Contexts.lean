import ModelLint.Proofs.Program.Linked
import ModelLint.Program.Query

/-!
# What stands around a node

The questions that rules ask about the surroundings of a node of a linked unit climb from owner to
owner. Here they are put in terms of the path from the unit down to the node, a list of nodes.

* `Graph.Innermost`: the last node of a path with some property.
* `Graph.Launched`: something on a path runs concurrently with the code around it.
* `Graph.SetUp`: the innermost method on a path is a constructor.
* **`Rooted.isConcurrent_iff`, `Rooted.isSetUp_iff`**: the questions have these answers.
-/

namespace ModelLint

namespace Graph

variable (g : Graph) (root : NodeId) (patterns : List String) (path : List NodeId)

/-- A node is the last one of a path with some property; the path to it is given, too. -/
def Innermost (P : NodeId → Prop) (d : NodeId) (before : List NodeId) : Prop :=
  P d ∧ ∃ after, path = before ++ d :: after ∧ ∀ a ∈ after, ¬ P a

/-- The node declares something of the kind. -/
def Declares (kind : DeclarationKind) (n : NodeId) : Prop :=
  ∃ info, g.declaration? n = some info ∧ info.kind = kind

/-- The node is an anonymous function. -/
def IsLambda (n : NodeId) : Prop :=
  ∃ parameters isAsync body, g.shape n = .lambda parameters isAsync body

/-- A name is launched when a variable or member of this name is an argument of a launching call or
creation in the unit. -/
def LaunchedName (name : String) : Prop :=
  ∃ p call argument, g.at? root p = some call ∧ g.isLaunch patterns call ∧
    argument ∈ g.arguments call ∧ g.mentionedName? argument = some name

/-- **Something on the path runs concurrently** with the code around it. -/
inductive Launched : Prop where
  /-- An anonymous function that is handed to a launching call or creation. -/
  | handed {before after : List NodeId} {call f : NodeId}
      (hpath : path = before ++ call :: f :: after) (hf : g.IsLambda f)
      (hcall : g.isLaunch patterns call)
  /-- An anonymous function that is bound to a launched name. -/
  | bound {before after : List NodeId} {d f : NodeId} {v : VariableId} {initializer : Option NodeId}
      (hpath : path = before ++ d :: f :: after) (hf : g.IsLambda f)
      (hd : g.shape d = .varDeclaration v initializer)
      (hname : g.LaunchedName root patterns (g.variable' v).name)
  /-- A method that is asynchronous. -/
  | async {d : NodeId} {info : DeclarationInfo} (hd : d ∈ path)
      (hinfo : g.declaration? d = some info) (hmethod : info.kind = .method)
      (hasync : info.isAsync)
  /-- A method of a launched name. -/
  | named {d : NodeId} {info : DeclarationInfo} (hd : d ∈ path)
      (hinfo : g.declaration? d = some info) (hmethod : info.kind = .method)
      (hname : g.LaunchedName root patterns info.name)

/-- A declaration at the end of a path is a constructor, by its name or as it is named like the type
around it. -/
def IsConstructor (d : NodeId) : Prop :=
  ∃ info, g.declaration? d = some info ∧ (info.name ∈ constructorNames ∨
    ∃ type outer typeInfo, Innermost path (g.Declares .type) type outer ∧
      g.declaration? type = some typeInfo ∧ typeInfo.name = info.name)

/-- **The innermost method on the path is a constructor.** -/
def SetUp : Prop :=
  ∃ d before, Innermost path (g.Declares .method) d before ∧ g.IsConstructor before d

variable {g root patterns path} {n d : NodeId} {p : Place}

theorem declares_iff {kind : DeclarationKind} : g.declares kind n = true ↔ g.Declares kind n := by
  simp [declares, Declares, Option.any_eq_true]

theorem isA_lambda : g.isA "Lambda" n = true ↔ g.IsLambda n := by
  rw [isA, IsLambda]
  cases g.shape n <;>
    simp [Shape.isA, Shape.kindName, Shape.isStatement, Shape.isExpression, Shape.isOutermost]

instance (g : Graph) (kind : DeclarationKind) (n : NodeId) : Decidable (g.Declares kind n) :=
  decidable_of_iff _ declares_iff

instance (g : Graph) (n : NodeId) : Decidable (g.IsLambda n) := decidable_of_iff _ isA_lambda

theorem find?_reverse_eq_some {P : NodeId → Prop} {test : NodeId → Bool}
    (h : ∀ a, test a = true ↔ P a) :
    path.reverse.find? test = some d ↔ ∃ before, Innermost path P d before := by
  rw [List.find?_eq_some_iff_append]
  constructor
  · rintro ⟨hd, inner, outer, heq, hinner⟩
    refine ⟨outer.reverse, (h d).mp hd, inner.reverse, ?_, fun a ha hP => ?_⟩
    · rw [List.reverse_eq_iff] at heq
      simpa using heq
    · have := hinner a (List.mem_reverse.mp ha)
      rw [(h a).mpr hP] at this
      exact absurd this (by decide)
  · rintro ⟨before, hd, after, rfl, hafter⟩
    refine ⟨(h d).mpr hd, after.reverse, before.reverse, by simp, fun a ha => ?_⟩
    have := mt (h a).mp (hafter a (List.mem_reverse.mp ha))
    simpa using this

theorem mem_launchedNames (hg : g.Rooted root) {name : String} :
    name ∈ g.launchedNames patterns root ↔ g.LaunchedName root patterns name := by
  rw [launchedNames, NameSet.mem_ofList, List.mem_flatMap]
  constructor
  · rintro ⟨call, hcall, hname⟩
    obtain ⟨hmem, hlaunch⟩ := List.mem_filter.mp hcall
    obtain ⟨argument, harg, hname⟩ := List.mem_filterMap.mp hname
    obtain ⟨p, hp⟩ := hg.mem_preorder.mp hmem
    exact ⟨p, call, argument, hp, hlaunch, harg, hname⟩
  · rintro ⟨p, call, argument, hp, hlaunch, harg, hname⟩
    exact ⟨call, List.mem_filter.mpr ⟨hg.mem_preorder.mpr ⟨p, hp⟩, hlaunch⟩,
      List.mem_filterMap.mpr ⟨argument, harg, hname⟩⟩

theorem runsConcurrently_declaration {launched : NameSet} {info : DeclarationInfo}
    (h : g.declaration? n = some info) :
    g.runsConcurrently patterns launched n = true ↔
      info.kind = .method ∧ (info.isAsync = true ∨ info.name ∈ launched) := by
  rw [declaration?] at h
  split at h
  · rename_i hshape
    cases h
    rw [runsConcurrently, hshape]
    simp
  · cases h

namespace Rooted

variable (hg : g.Rooted root) (hp : g.at? root p = some n)

include hg hp

theorem mem_ancestors : d ∈ g.ancestors n ↔ d ∈ g.above root p := by
  rw [hg.ancestors_eq hp, List.mem_reverse]

theorem owner_on_path {m : NodeId} (hd : d ∈ g.above root p) :
    g.owner d = some m ↔ ∃ before after, g.above root p = before ++ m :: d :: after := by
  constructor
  · intro howner
    obtain ⟨before, after, heq⟩ := List.append_of_mem hd
    obtain ⟨q, i, r, rfl, hq, hbefore⟩ := split_above hp heq
    rcases List.eq_nil_or_concat' q with rfl | ⟨q, j, rfl⟩
    · cases hq
      rw [hg.owner_root] at howner
      cases howner
    · obtain ⟨m', hm', -⟩ := at?_snoc_eq_some.mp hq
      rw [hg.owner_snoc hm' hq] at howner
      cases howner
      rw [above_snoc hm'] at hbefore
      exact ⟨g.above root q, after, by rw [heq, ← hbefore, List.append_assoc]; rfl⟩
  · rintro ⟨before, after, heq⟩
    have hsplit : g.above root p = before ++ [m] ++ d :: after := by
      rw [heq, List.append_assoc, List.singleton_append]
    obtain ⟨q, i, r, rfl, hq, hbefore⟩ := split_above hp hsplit
    rcases List.eq_nil_or_concat' q with rfl | ⟨q, j, rfl⟩
    · simp at hbefore
    · obtain ⟨m', hm', -⟩ := at?_snoc_eq_some.mp hq
      rw [above_snoc hm'] at hbefore
      rw [hg.owner_snoc hm' hq]
      exact congrArg some (List.singleton_injective (List.append_inj' hbefore rfl).2)

theorem isWithin_iff {kind : String} :
    g.isWithin kind n = true ↔ ∃ a ∈ g.above root p, g.isA kind a = true := by
  rw [isWithin, List.any_eq_true]
  simp only [hg.mem_ancestors hp]

theorem enclosingMethod_eq_some :
    g.enclosingMethod n = some d ↔
      ∃ before, Innermost (g.above root p) (g.Declares .method) d before := by
  rw [enclosingMethod, hg.ancestors_eq hp, find?_reverse_eq_some fun a => declares_iff]

theorem enclosingType_eq_some :
    g.enclosingType n = some d ↔
      ∃ before, Innermost (g.above root p) (g.Declares .type) d before := by
  rw [enclosingType, hg.ancestors_eq hp, find?_reverse_eq_some fun a => declares_iff]

theorem isConstructor_iff : g.isConstructor n = true ↔ g.IsConstructor (g.above root p) n := by
  rw [isConstructor, Option.any_eq_true]
  refine exists_congr fun info => and_congr_right fun _ => ?_
  rw [Bool.or_eq_true, List.contains_iff_mem]
  refine or_congr_right ?_
  simp only [Option.any_eq_true, Option.bind_eq_some_iff, hg.enclosingType_eq_some hp, beq_iff_eq]
  constructor
  · rintro ⟨typeInfo, ⟨type, ⟨outer, hinner⟩, htype⟩, hname⟩
    exact ⟨type, outer, typeInfo, hinner, htype, hname⟩
  · rintro ⟨type, outer, typeInfo, hinner, htype, hname⟩
    exact ⟨typeInfo, ⟨type, ⟨outer, hinner⟩, htype⟩, hname⟩

/-- **Whether the innermost method is a constructor** shows on the path. -/
theorem isSetUp_iff :
    (g.enclosingMethod n).any g.isConstructor = true ↔ g.SetUp (g.above root p) := by
  rw [Option.any_eq_true]
  simp only [hg.enclosingMethod_eq_some hp]
  constructor
  · rintro ⟨d, ⟨before, hd⟩, hconstructor⟩
    have ⟨_, after, heq, _⟩ := hd
    obtain ⟨q, i, r, rfl, hq, rfl⟩ := split_above hp heq
    exact ⟨d, _, hd, (hg.isConstructor_iff hq).mp hconstructor⟩
  · rintro ⟨d, before, hd, hconstructor⟩
    have ⟨_, after, heq, _⟩ := hd
    obtain ⟨q, i, r, rfl, hq, rfl⟩ := split_above hp heq
    exact ⟨d, ⟨_, hd⟩, (hg.isConstructor_iff hq).mpr hconstructor⟩

/-- **Whether something runs concurrently** shows on the path. -/
theorem isConcurrent_iff :
    g.isConcurrent patterns (some root) n = true ↔ g.Launched root patterns (g.above root p) := by
  rw [isConcurrent, List.any_eq_true]
  simp only [hg.mem_ancestors hp, Option.map_some, Option.getD_some]
  constructor
  · rintro ⟨a, ha, hruns⟩
    rw [runsConcurrently] at hruns
    split at hruns
    · rename_i parameters isAsync body hshape
      have hf : g.IsLambda a := ⟨parameters, isAsync, body, hshape⟩
      split at hruns
      · cases hruns
      · rename_i owner howner
        obtain ⟨before, after, hpath⟩ := (hg.owner_on_path hp ha).mp howner
        rcases Bool.or_eq_true_iff.mp hruns with hcall | hbound
        · exact .handed hpath hf hcall
        · split at hbound
          · rename_i v initializer hd
            rw [List.contains_iff_mem] at hbound
            exact .bound hpath hf hd ((mem_launchedNames hg).mp hbound)
          · cases hbound
    · rename_i info members initializer body hshape
      have hinfo : g.declaration? a = some info := by rw [declaration?, hshape]
      rw [Bool.and_eq_true, Bool.or_eq_true, decide_eq_true_eq, List.contains_iff_mem] at hruns
      rcases hruns with ⟨hmethod, hasync | hname⟩
      · exact .async ha hinfo hmethod hasync
      · exact .named ha hinfo hmethod ((mem_launchedNames hg).mp hname)
    · cases hruns
  · rintro (⟨hpath, ⟨parameters, isAsync, body, hf⟩, hcall⟩ |
      ⟨hpath, ⟨parameters, isAsync, body, hf⟩, hd, hname⟩ | ⟨hd, hinfo, hmethod, hasync⟩ |
      ⟨hd, hinfo, hmethod, hname⟩)
    · rename_i before after call f
      have hmem : f ∈ g.above root p := by simp [hpath]
      have howner := (hg.owner_on_path hp hmem).mpr ⟨before, after, hpath⟩
      refine ⟨f, hmem, ?_⟩
      simp only [runsConcurrently, hf, howner]
      exact Bool.or_eq_true_iff.mpr (.inl hcall)
    · rename_i before after d f v initializer
      have hmem : f ∈ g.above root p := by simp [hpath]
      have howner := (hg.owner_on_path hp hmem).mpr ⟨before, after, hpath⟩
      refine ⟨f, hmem, ?_⟩
      simp only [runsConcurrently, hf, howner, hd]
      exact Bool.or_eq_true_iff.mpr
        (.inr (List.contains_iff_mem.mpr ((mem_launchedNames hg).mpr hname)))
    · rename_i d info
      exact ⟨d, hd, (runsConcurrently_declaration hinfo).mpr ⟨hmethod, .inl hasync⟩⟩
    · rename_i d info
      refine ⟨d, hd, (runsConcurrently_declaration hinfo).mpr ⟨hmethod, .inr ?_⟩⟩
      exact (mem_launchedNames hg).mpr hname

end Rooted

end Graph

end ModelLint
