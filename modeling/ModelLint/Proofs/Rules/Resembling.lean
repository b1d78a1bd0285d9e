import ModelLint.Proofs.Program.Resembling
import ModelLint.Proofs.Rules.Diagnostics
import ModelLint.Proofs.Rules.GenericException
import ModelLint.Proofs.Rules.SharedMap

/-!
# Rules and places

What a rule asks about a unit does not depend on places or on comments. So units that are the same but for
these have the same violations with the same messages, each at the place of its own node.

* `Graph.Resembles.isA_eq` and others: the questions that rules ask.
* `Rule.IgnoresPlaces`, **`Registry.ignoresPlaces`**: a rule selects, judges and exempts without a look at
  places; the registered rules do.
-/

namespace ModelLint

/-! ## Questions about nodes -/

namespace Graph.Resembles

variable {g g' : Graph}

theorem owner_fun_eq (h : g.Resembles g') : g'.owner = g.owner := funext h.owner_eq

theorem variable'_fun_eq (h : g.Resembles g') : g'.variable' = g.variable' := funext h.variable'_eq

theorem isA_eq (h : g.Resembles g') : g'.isA = g.isA := by
  funext kind n
  rcases h.shape_eq n with hn | ⟨info, comments, declarations, hn, hn'⟩
  · rw [isA, hn, isA]
  · rw [isA, hn', isA, hn]
    rfl

theorem declaration?_eq (h : g.Resembles g') : g'.declaration? = g.declaration? := by
  funext n
  rcases h.shape_eq n with hn | ⟨info, comments, declarations, hn, hn'⟩ <;> simp only [declaration?, *]

theorem mentioned?_eq (h : g.Resembles g') : g'.mentioned? = g.mentioned? := by
  funext n
  rcases h.shape_eq n with hn | ⟨info, comments, declarations, hn, hn'⟩ <;> simp only [mentioned?, *]

theorem isDirectMention_eq (h : g.Resembles g') : g'.isDirectMention = g.isDirectMention := by
  funext v n
  rw [isDirectMention, h.mentioned?_eq, isDirectMention]

theorem isAcquisition_eq (h : g.Resembles g') : g'.isAcquisition = g.isAcquisition := by
  funext n
  rcases h.shape_eq n with hn | ⟨info, comments, declarations, hn, hn'⟩ <;>
    simp only [isAcquisition, *]

theorem isEmptyBlock_eq (h : g.Resembles g') : g'.isEmptyBlock = g.isEmptyBlock := by
  funext n
  rcases h.shape_eq n with hn | ⟨info, comments, declarations, hn, hn'⟩ <;>
    simp only [isEmptyBlock, *]

theorem arguments_eq (h : g.Resembles g') : g'.arguments = g.arguments := by
  funext n
  rcases h.shape_eq n with hn | ⟨info, comments, declarations, hn, hn'⟩ <;> simp only [arguments, *]

theorem mentionedName?_eq (h : g.Resembles g') : g'.mentionedName? = g.mentionedName? := by
  funext n
  rcases h.shape_eq n with hn | ⟨info, comments, declarations, hn, hn'⟩ <;>
    simp only [mentionedName?, *]

theorem dottedNameTo_eq (h : g.Resembles g') (length : Nat) :
    g'.dottedNameTo length = g.dottedNameTo length := by
  induction length with
  | zero => rfl
  | succ length ih =>
    funext n
    rcases h.shape_eq n with hn | ⟨info, comments, declarations, hn, hn'⟩ <;>
      simp only [dottedNameTo, *]

theorem dottedName_eq (h : g.Resembles g') : g'.dottedName = g.dottedName := by
  funext n
  rw [dottedName, h.size_eq, h.dottedNameTo_eq, dottedName]

theorem preorderTo_eq (h : g.Resembles g') (depth : Nat) : g'.preorderTo depth = g.preorderTo depth := by
  induction depth with
  | zero => rfl
  | succ depth ih =>
    funext n
    rw [preorderTo, ih, h.children_eq, preorderTo]

theorem preorder_eq (h : g.Resembles g') : g'.preorder = g.preorder := by
  funext n
  rw [preorder, h.size_eq, h.preorderTo_eq, preorder]

theorem descendants_eq (h : g.Resembles g') : g'.descendants = g.descendants := by
  funext n
  rw [descendants, h.preorder_eq, descendants]

theorem mentions_eq (h : g.Resembles g') : g'.mentions = g.mentions := by
  funext v n
  rw [mentions, h.preorder_eq, h.isDirectMention_eq, mentions]

theorem ancestorsTo_eq (h : g.Resembles g') (count : Nat) :
    g'.ancestorsTo count = g.ancestorsTo count := by
  induction count with
  | zero => rfl
  | succ count ih =>
    funext n
    rw [ancestorsTo, ih, h.owner_eq, ancestorsTo]

theorem ancestors_eq (h : g.Resembles g') : g'.ancestors = g.ancestors := by
  funext n
  rw [ancestors, h.size_eq, h.ancestorsTo_eq, ancestors]

theorem isRethrow_eq (h : g.Resembles g') : g'.isRethrow = g.isRethrow := by
  funext n
  rw [isRethrow, h.descendants_eq, isRethrow]
  congr 1
  funext d
  rcases h.shape_eq d with hd | ⟨info, comments, declarations, hd, hd'⟩ <;> simp only [*]

theorem declares_eq (h : g.Resembles g') : g'.declares = g.declares := by
  funext kind n
  rw [declares, h.declaration?_eq, declares]

theorem isWithin_eq (h : g.Resembles g') : g'.isWithin = g.isWithin := by
  funext kind n
  rw [isWithin, h.ancestors_eq, h.isA_eq, isWithin]

theorem enclosingMethod_eq (h : g.Resembles g') : g'.enclosingMethod = g.enclosingMethod := by
  funext n
  rw [enclosingMethod, h.ancestors_eq, h.declares_eq, enclosingMethod]

theorem isConstructor_eq (h : g.Resembles g') : g'.isConstructor = g.isConstructor := by
  funext n
  simp only [isConstructor, enclosingType, h.declares_eq, h.ancestors_eq, h.declaration?_eq]

theorem disposableTypes_eq (h : g.Resembles g') : g'.disposableTypes = g.disposableTypes := by
  funext n
  have hknown : ((g'.unitInfo? n).map (·.disposableTypes)).getD [] =
      ((g.unitInfo? n).map (·.disposableTypes)).getD [] := by
    simp only [unitInfo?]
    rcases h.shape_eq n with hn | ⟨info, comments, declarations, hn, hn'⟩ <;> simp only [*]
    rfl
  rw [disposableTypes, hknown, h.preorder_eq, h.declaration?_eq, disposableTypes]

theorem isLaunch_eq (h : g.Resembles g') : g'.isLaunch = g.isLaunch := by
  funext patterns n
  rcases h.shape_eq n with hn | ⟨info, comments, declarations, hn, hn'⟩ <;>
    simp only [isLaunch, h.dottedName_eq, *]

theorem launchedNames_eq (h : g.Resembles g') : g'.launchedNames = g.launchedNames := by
  funext patterns n
  rw [launchedNames, h.preorder_eq, h.isLaunch_eq, h.arguments_eq, h.mentionedName?_eq, launchedNames]

theorem runsConcurrently_eq (h : g.Resembles g') : g'.runsConcurrently = g.runsConcurrently := by
  funext patterns launched n
  rcases howner : g.owner n with _ | o
  · rcases h.shape_eq n with hn | ⟨info, comments, declarations, hn, hn'⟩ <;>
      simp only [runsConcurrently, h.owner_fun_eq, *]
  · rcases h.shape_eq n with hn | ⟨info, comments, declarations, hn, hn'⟩ <;>
      rcases h.shape_eq o with ho | ⟨info', comments', declarations', ho, ho'⟩ <;>
      simp only [runsConcurrently, h.owner_fun_eq, h.isLaunch_eq, h.variable'_fun_eq, *]

theorem isConcurrent_eq (h : g.Resembles g') : g'.isConcurrent = g.isConcurrent := by
  funext patterns unit n
  simp only [isConcurrent, h.launchedNames_eq, h.ancestors_eq, h.runsConcurrently_eq]

end Graph.Resembles

/-- What a node accesses is the same, or it is a member that is not known in either. -/
theorem Graph.Resembles.accessedVariable_eq {g g' : Graph} (h : g.Resembles g') (n : NodeId) :
    g'.accessedVariable n = g.accessedVariable n ∨
      ∃ name, g.accessedVariable n = .error (.noMember name (g.location n).line) ∧
        g'.accessedVariable n = .error (.noMember name (g'.location n).line) := by
  rcases h.shape_eq n with hn | ⟨info, comments, declarations, hn, hn'⟩
  · cases hshape : g.shape n
    case fieldAccess name qualifier var =>
      rw [hshape] at hn
      rcases qualifier with _ | qualifier <;> rcases var with _ | var
      case none.none => exact .inr ⟨name, by rw [accessedVariable, hshape], by rw [accessedVariable, hn]⟩
      all_goals exact .inl (by simp only [accessedVariable, hn, hshape])
    all_goals
      rw [hshape] at hn
      exact .inl (by simp only [accessedVariable, hn, hshape])
  · exact .inl (by simp only [accessedVariable, hn, hn'])

/-! ## Rules -/

/-- **A rule ignores places**: in units that are the same but for places and comments it selects the same
candidates, exempts the same ones and judges them in the same way, but for the line of a member that is
not known. -/
structure Rule.IgnoresPlaces (r : Rule) : Prop where
  /-- The candidates are the same. -/
  isCandidate_eq : ∀ {m m' : Model}, m.Resembles m' → r.isCandidate m' = r.isCandidate m
  /-- They are judged in the same way. -/
  judge_eq : ∀ {m m' : Model}, m.Resembles m' → ∀ n, r.judge m' n = r.judge m n ∨
    ∃ name target, r.judge m n = .error (.noMember name (m.graph.location target).line) ∧
      r.judge m' n = .error (.noMember name (m'.graph.location target).line)
  /-- The same ones are exempt. -/
  isExempt_eq : ∀ {m m' : Model}, m.Resembles m' → r.isExempt m' = r.isExempt m

variable {g g' : Graph}

namespace GenericException

theorem logsException_eq (h : g.Resembles g') : logsException g' = logsException g := by
  funext logging body var
  rw [logsException, h.descendants_eq, h.isA_eq, h.dottedName_eq, h.mentions_eq, logsException]

theorem ignoresPlaces (description : String) (severity : Severity) (p : Patterns) :
    (rule description severity p).IgnoresPlaces where
  isCandidate_eq h := by
    funext n
    simp only [rule, h.graph.isA_eq]
  judge_eq {m m'} h n := by
    refine .inl (congrArg Except.ok ?_)
    rcases h.graph.shape_eq n with hn | ⟨info, comments, declarations, hn, hn'⟩
    · rw [judge, judge, hn, h.graph.isEmptyBlock_eq, h.graph.isRethrow_eq, logsException_eq h.graph]
    · simp only [judge, hn, hn']
  isExempt_eq _ := rfl

end GenericException

namespace ResourceDisposal

theorem isFieldTarget_eq (h : g.Resembles g') : isFieldTarget g' = isFieldTarget g := by
  funext n
  rcases h.shape_eq n with hn | ⟨info, comments, declarations, hn, hn'⟩
  · cases hshape : g.shape n
    case elementAccess target index =>
      rw [hshape] at hn
      rcases h.shape_eq target with ht | ⟨info, comments, declarations, ht, ht'⟩ <;>
        simp only [isFieldTarget, h.variable'_fun_eq, *]
    all_goals
      rw [hshape] at hn
      simp only [isFieldTarget, h.variable'_fun_eq, hn, hshape]
  · simp only [isFieldTarget, hn, hn']

theorem releases_eq (h : g.Resembles g') : releases g' = releases g := by
  funext release v n
  rcases h.shape_eq n with hn | ⟨info, comments, declarations, hn, hn'⟩ <;>
    simp only [releases, h.isDirectMention_eq, isFieldTarget_eq h, *]

theorem isReleased_eq (h : g.Resembles g') : isReleased g' = isReleased g := by
  have hfunction : isFunction g' = isFunction g := by
    funext n
    rw [isFunction, h.isA_eq, h.declares_eq, isFunction]
  funext release n v
  simp only [isReleased, releaseRegion, Graph.declaringScope, h.owner_eq, h.isA_eq, h.variable'_eq,
    h.preorder_eq, h.ancestors_eq, hfunction, releases_eq h]

theorem ignoresPlaces (description : String) (severity : Severity) (p : Patterns) :
    (rule description severity p).IgnoresPlaces where
  isCandidate_eq {m m'} h := by
    funext n
    rcases h.graph.shape_eq n with hn | ⟨info, comments, declarations, hn, hn'⟩ <;>
      simp only [rule, isCandidate, h.graph.variable'_fun_eq, *]
  judge_eq {m m'} h n := by
    refine .inl ?_
    show judge p m' n = judge p m n
    rw [judge, judge, h.root_eq]
    rcases h.graph.shape_eq n with hn | ⟨info, comments, declarations, hn, hn'⟩
    · rw [hn, h.graph.variable'_fun_eq, h.graph.isAcquisition_eq, h.graph.disposableTypes_eq,
        isReleased_eq h.graph]
    · rw [hn, hn']
  isExempt_eq _ := rfl

end ResourceDisposal

namespace SharedMap

theorem accessTarget?_eq (h : g.Resembles g') : accessTarget? g' = accessTarget? g := by
  funext n
  rcases h.shape_eq n with hn | ⟨info, comments, declarations, hn, hn'⟩ <;>
    simp only [accessTarget?, *]

theorem isAccess_eq (h : g.Resembles g') : isAccess g' = isAccess g := by
  funext n
  rcases h.shape_eq n with hn | ⟨info, comments, declarations, hn, hn'⟩ <;> simp only [isAccess, *]

theorem operation_eq (h : g.Resembles g') : operation g' = operation g := by
  funext n
  rcases h.shape_eq n with hn | ⟨info, comments, declarations, hn, hn'⟩ <;> simp only [operation, *]

theorem ignoresPlaces (description : String) (severity : Severity) (p : Patterns) :
    (rule description severity p).IgnoresPlaces where
  isCandidate_eq {m m'} h := by
    funext n
    simp only [rule, isCandidate, accessTarget?_eq h.graph, isAccess_eq h.graph]
  judge_eq {m m'} h n := by
    simp only [rule, judge, accessTarget?_eq h.graph]
    rcases accessTarget? m.graph n with _ | target
    · exact .inl rfl
    · dsimp only
      rcases h.graph.accessedVariable_eq target with haccess | ⟨name, haccess, haccess'⟩
      · simp only [haccess, h.graph.variable'_eq, h.graph.isWithin_eq, h.graph.isConcurrent_eq, h.root_eq,
          operation_eq h.graph, true_or]
      · exact .inr ⟨name, target, by rw [haccess], by rw [haccess']⟩
  isExempt_eq {m m'} h := by
    funext n
    simp only [rule, isExempt, h.graph.enclosingMethod_eq, h.graph.isConstructor_eq,
      h.graph.isConcurrent_eq, h.root_eq]

end SharedMap

/-- **Registered rules ignore places.** -/
theorem Registry.ignoresPlaces {d : RuleDefinition} {s : RuleSettings} {r : Rule}
    (hd : d ∈ definitions) (hr : d.build s = .ok r) : r.IgnoresPlaces := by
  simp only [definitions, List.mem_cons, List.not_mem_nil, or_false] at hd
  rcases hd with rfl | rfl | rfl
  · obtain ⟨p, -, -, rfl⟩ := GenericException.build_eq_ok hr
    exact GenericException.ignoresPlaces _ _ p
  · obtain ⟨p, -, -, rfl⟩ := ResourceDisposal.build_eq_ok hr
    exact ResourceDisposal.ignoresPlaces _ _ p
  · obtain ⟨p, -, -, -, -, rfl⟩ := SharedMap.build_eq_ok hr
    exact SharedMap.ignoresPlaces _ _ p

/-! ## Results -/

/-- A finding without its place. -/
def Finding.placeless (f : Finding) : Finding := { f with span := default }

/-- **Two results are the same** but for places: the same findings in the same order, as many candidates
that are skipped, with a diagnostic that can be written or not, and as many violations that are
suppressed. -/
structure RunResult.Agree (a b : RunResult) : Prop where
  /-- The findings are. -/
  findings_eq : b.findings.map Finding.placeless = a.findings.map Finding.placeless
  /-- As many candidates are skipped. -/
  skipped_eq : b.diagnostics.length + b.unwritten = a.diagnostics.length + a.unwritten
  /-- As many violations are suppressed. -/
  suppressed_eq : b.suppressed = a.suppressed

namespace RunResult

theorem Agree.refl (a : RunResult) : a.Agree a := ⟨rfl, rfl, rfl⟩

theorem Agree.append {a a' b b' : RunResult} (h : a.Agree b) (h' : a'.Agree b') :
    (a ++ a').Agree (b ++ b') where
  findings_eq := by
    show (b.findings ++ b'.findings).map _ = (a.findings ++ a'.findings).map _
    rw [List.map_append, List.map_append, h.findings_eq, h'.findings_eq]
  skipped_eq := by
    show (b.diagnostics ++ b'.diagnostics).length + (b.unwritten + b'.unwritten) =
      (a.diagnostics ++ a'.diagnostics).length + (a.unwritten + a'.unwritten)
    have hskipped := h.skipped_eq
    have hskipped' := h'.skipped_eq
    rw [List.length_append, List.length_append]
    omega
  suppressed_eq := congrArg₂ (· + ·) h.suppressed_eq h'.suppressed_eq

theorem Agree.join_map {α : Type} {f f' : α → RunResult} {xs : List α}
    (h : ∀ x ∈ xs, (f x).Agree (f' x)) : (join (xs.map f)).Agree (join (xs.map f')) := by
  induction xs with
  | nil => exact .refl _
  | cons x xs ih =>
    exact (h x List.mem_cons_self).append (ih fun y hy => h y (List.mem_cons_of_mem x hy))

end RunResult

theorem Model.Resembles.path_eq {m m' : Model} (h : m.Resembles m') : m'.info.path = m.info.path := by
  simp only [info, Graph.unitInfo?, h.root_eq]
  rcases h.graph.shape_eq m.root with hn | ⟨info, comments, declarations, hn, hn'⟩ <;> simp only [*]
  rfl

/-- Candidates that are skipped agree, whatever is written. -/
theorem Outcome.agree_skipped (text? text'? : Option String) :
    (text?.elim unwritable diagnostic).result.Agree (text'?.elim unwritable diagnostic).result := by
  cases text? <;> cases text'? <;> exact ⟨rfl, rfl, rfl⟩

namespace Rule

variable {r : Rule} {m m' : Model} {phrases phrases' : List String}

theorem outcome_agree (hr : r.IgnoresPlaces) (h : m.Resembles m') (hm : m.info.comments = [])
    (hm' : m'.info.comments = []) (n : NodeId) :
    (r.outcome phrases m n).result.Agree (r.outcome phrases' m' n).result := by
  have hcovers : ∀ phrases line, Suppression.coversLine [] phrases r.id line = false := fun _ _ => by
    simp [Suppression.coversLine, Suppression.commentAt?]
  rw [outcome, outcome]
  simp only [hm, hm', hcovers, Bool.or_false, h.path_eq, hr.isExempt_eq h]
  rcases hr.judge_eq h n with hjudge | ⟨name, target, hjudge, hjudge'⟩
  · rw [hjudge]
    rcases r.judge m n with cause | _ | message
    · exact Outcome.agree_skipped _ _
    · exact .refl _
    · dsimp only
      split
      · exact .refl _
      · exact ⟨rfl, rfl, rfl⟩
  · rw [hjudge, hjudge']
    exact Outcome.agree_skipped _ _

/-- **Units that are the same but for places** and have no comments give the same results, whatever the
phrases are. -/
theorem evaluateAll_agree {rules : List Rule}
    (hrules : ∀ r ∈ rules, ∃ d ∈ Registry.definitions, ∃ s, d.build s = .ok r) (h : m.Resembles m')
    (hm : m.info.comments = []) (hm' : m'.info.comments = []) :
    (evaluateAll rules phrases m).Agree (evaluateAll rules phrases' m') := by
  refine .join_map fun r hr => ?_
  obtain ⟨d, hd, s, hbuild⟩ := hrules r hr
  have hignores := Registry.ignoresPlaces hd hbuild
  have hcandidates : r.candidates m' = r.candidates m := by
    rw [candidates, hignores.isCandidate_eq h, Model.nodes, h.graph.preorder_eq, h.root_eq, candidates,
      Model.nodes]
  rw [evaluate, evaluate, hcandidates]
  exact .join_map fun n _ => outcome_agree hignores h hm hm' n

end Rule

end ModelLint
