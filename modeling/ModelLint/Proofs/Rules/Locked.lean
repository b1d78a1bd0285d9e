import ModelLint.Proofs.Rules.ImportTime
import ModelLint.Proofs.Source.Calls
import ModelLint.Proofs.Source.Holding
import ModelLint.Proofs.Source.Places

/-!
# Access to shared maps under a lock

A `with` statement over an expression that is named like a lock holds a lock for the later resources
and the body. The rule on shared maps reports nothing below a lock.

* `Site.Took.locked`: the lock statement holds the later resources and the body.
* **`SharedMap.unreported_below_lock`**: what stands below the lock statement of a `with` statement.
-/

namespace ModelLint

theorem Shape.eq_lockStatement_of_label {ν μ : Type} {s : Shape ν} {s' : Shape μ}
    {target block : ν} (h : s.label = s'.label) (hs : s = .lockStatement target block) :
    ∃ target' block', s' = .lockStatement target' block' := by
  subst hs
  cases s' <;> simp [label, traverse] at h
  exact ⟨_, _, rfl⟩

namespace Source

open Build

variable {locks : List String} {r : Range} {R : List Receiver} {site : Site} {context : Expr}
  {before after : List Resource} {body : List Stmt}

/-! ## Locks -/

/-- What is held by a resource: the later ones, and the statements of the body. -/
def Part.behind (o : Option String) (after : List Resource) (body : List Stmt) : List Part :=
  (after.flatMap Resource.operands).map (.expression o) ++ body.map (.statement o)

theorem isLock_of_named {node : Tree} {s : Building}
    (hlock : Pattern.anyAccepts? locks (context.callee.dotted?.map lastSegment) = true) :
    (isLock locks context node).run s = .ok (true, s) := by
  rw [isLock, if_pos hlock]
  rfl

/-- **The lock statement holds the later resources and the body.** -/
theorem Site.Took.locked
    (h : site.Took R (stmtNodes locks (.withResources r (before ++ ⟨context, none⟩ :: after) body)))
    (hlock : Pattern.anyAccepts? locks (context.callee.dotted?.map lastSegment) = true) :
    ∃ target block, Stands site.roots (nodeAt r (.lockStatement target block)) ∧
      ∀ p ∈ Part.behind (objectOf R) after body,
        Site.TookPart ⟨[block], site.moved, site.vars⟩ locks R p := by
  obtain ⟨s, ts, s', hs, rfl, hrun, hkeeps⟩ := h
  obtain ⟨s₁, node, s₂, b, inner, -, -, -, hisLock, hholder, hlater, hbody⟩ :=
    (runs_withResources hs rfl).of_ok hrun
  cases (isLock_of_named hlock).symm.trans hisLock
  have hinner : Site.Keeps ⟨[asBlock r inner], site.moved, site.vars⟩ [inner] s' :=
    ⟨within_asBlock, hkeeps.hoisted, hkeeps.vars⟩
  refine ⟨node, asBlock r inner, hkeeps.trees _ (hholder _ (stands_of_mem List.mem_cons_self)),
    fun p hp => ?_⟩
  rcases List.mem_append.mp hp with hp | hp
  · obtain ⟨e, he, rfl⟩ := List.mem_map.mp hp
    exact ⟨rfl, (hlater e he).keep hinner⟩
  · obtain ⟨stmt, hstmt, rfl⟩ := List.mem_map.mp hp
    exact ⟨rfl, (hbody.keep hinner).of_mem hstmt⟩

end Source

namespace SharedMap

open Source (Part Resource Contains Expr Stmt)

variable {p : Patterns} {phrases : List String} {m : Model} {l n block target : NodeId}
  {place q : Graph.Place} {locks : List String} {named : Text.CharacterNames} {source : String}
  {path : Path}
  {body b : List Stmt} {o : Option String} {r : Source.Range} {context : Expr}
  {before after : List Resource}

theorem not_unguarded_of_lock {v : VariableId} {i : Nat} (hl : m.graph.at? m.root place = some l)
    (hlock : m.graph.shape l = .lockStatement target block) :
    ¬ Unguarded p phrases m (m.graph.above m.root (place ++ i :: q)) n v := by
  intro h
  refine h.unlocked l ?_ target block hlock
  rw [Graph.above_append hl]
  exact List.mem_append_right _ (by simp [Graph.above])

/-- **Nothing is reported below the lock statement of a `with` statement**, whatever the patterns of
locks, the settings and phrases. A resource without a target whose last name is that of a lock becomes
one. Below it stand the nodes of all calls and indexers of the later resources and the body, those in
functions inside included, but not those in classes. -/
theorem unreported_below_lock (hload : Source.load named locks source path = .ok m)
    (hbody : Stmt.ofSource? named source = some body)
    (hwith : Contains body
      (.statement o (.withResources r (before ++ ⟨context, none⟩ :: after) b)))
    (hlock : Pattern.anyAccepts? locks (context.callee.dotted?.map Source.lastSegment) = true)
    {s : RuleSettings} {rule : Rule} (hr : Registry.sharedMap.build s = .ok rule)
    (phrases : List String) :
    ∃ nodes : List NodeId, nodes.Sublist m.nodes ∧ nodes.Nodup ∧
      List.Forall₂ (fun n f => f.ruleId = ruleId ∧ f.severity = some s.severity ∧
          f.path = m.info.path ∧ f.span = (m.graph.location n).span) nodes
        (rule.evaluate phrases m).findings ∧
      ∃ place l target block, m.graph.at? m.root place = some l ∧
        m.graph.location l = r.location ∧ m.graph.shape l = .lockStatement target block ∧
        (∀ q n, m.graph.at? block q = some n → n ∉ nodes) ∧
        ∀ part ∈ Part.behind o after b, ∀ e, part.Encloses (.expression o e) →
          ∃ q n, m.graph.at? block q = some n ∧ m.graph.IsNodeOf n e := by
  obtain ⟨comments, t, s₁, h⟩ := Source.exists_laidOut hload hbody
  have hsource := Source.fromSource_of_load hload
  obtain ⟨R, rfl, hstmt⟩ := Source.took_of_contains h.run hwith
  obtain ⟨target', block', hstands, hheld⟩ := hstmt.locked hlock
  obtain ⟨p, -, -, -, -, rfl⟩ := build_eq_ok hr
  obtain ⟨nodes, hsublist, hnodup, hmem, hfindings⟩ :=
    reported_rule_at hsource.linked Registry.sharedMap.description s.severity p phrases
  obtain ⟨pl, l, hpl, hl, -, hlocation, hlabel⟩ := h.exists_node_of_stands hstands
  obtain ⟨target, block, hshape⟩ := Shape.eq_lockStatement_of_label hlabel.symm rfl
  have hblock : m.graph.at? m.root (0 :: (pl ++ [1])) = some block := by
    refine (Graph.at?_snoc_eq_some (p := 0 :: pl)).mpr ⟨l, hl, ?_⟩
    rw [Graph.children, hshape]
    rfl
  refine ⟨nodes, hsublist, hnodup, hfindings, 0 :: pl, l, target, block, hl, hlocation, hshape,
    fun q n hq hn => ?_, fun part hpart e he => ?_⟩
  · have hat : m.graph.at? m.root (0 :: pl ++ 1 :: q) = some n := by
      rw [List.append_cons, Graph.at?_append]
      exact Option.bind_eq_some_iff.mpr ⟨block, hblock, hq⟩
    obtain ⟨v, hv⟩ := (hmem _ n hat).mp hn
    exact not_unguarded_of_lock hl hshape hv
  · obtain ⟨u, hu, hlocation, hshapes⟩ := ((hheld part hpart).encloses he).2.exists_node
    have hat : t.at? (pl ++ [1]) = some block' := by
      rw [Tree.at?_append hpl]
      rfl
    obtain ⟨q, n, hn, -, -, htold⟩ := h.exists_node_below hat hblock hu
    exact ⟨q, n, hn, Source.isNodeOf_of_shapes htold hlocation hshapes⟩

/-- The resource of a function that writes to an element below it, and the place of the element. -/
def heldWrite? : List Stmt → Option (Resource × Source.Range)
  | [_, .function _ _ [.withResources _ [resource] [.assign _ [.subscript r _ _] _]]] =>
    some (resource, r)
  | _ => none

theorem contains_of_heldWrite? {resource : Resource} (h : heldWrite? body = some (resource, r)) :
    ∃ rw' ra object index value, Contains body (.statement none (.withResources rw' [resource]
      [.assign ra [.subscript r object index] value])) := by
  rw [heldWrite?.eq_def] at h
  split at h
  · cases h
    exact ⟨_, _, _, _, _, .functionStatement (List.mem_cons_of_mem _ List.mem_cons_self)
      List.mem_cons_self⟩
  · cases h

/-- A function that writes to a map under a lock. -/
def lockText : String := "M = {}\ndef f(lock):\n    with lock:\n        M['a'] = 1\n"

/-- The write is not reported. -/
theorem unreported_lockText :
    ∃ m r nodes n, Source.load .empty Configuration.standard.lockPatterns lockText ⟨"", ["m.py"]⟩ = .ok m ∧
      Registry.sharedMap.build Registry.sharedMap.defaultSettings = .ok r ∧
      List.Forall₂ (fun n f => f.span = (m.graph.location n).span) nodes
        (r.evaluate [] m).findings ∧
      n ∉ nodes ∧ (m.graph.location n).line = 4 ∧
      ∃ target index, m.graph.shape n = .elementAccess target index := by
  have hchecks : ((Stmt.ofSource? .empty lockText).bind heldWrite?).any fun write =>
      write.1.target.isNone && Pattern.anyAccepts? Configuration.standard.lockPatterns
        (write.1.context.callee.dotted?.map Source.lastSegment) && write.2.start.line = 4 := by
    decide +kernel
  have hload : (Source.load .empty Configuration.standard.lockPatterns lockText ⟨"", ["m.py"]⟩).toOption.any
      fun _ => true := by
    decide +kernel
  obtain ⟨m, hm, -⟩ := Source.exists_load_of_any hload
  obtain ⟨⟨⟨context, target⟩, r⟩, hwrite, hchecks⟩ := (Option.any_eq_true _ _).mp hchecks
  obtain ⟨body, hbody, hwrite⟩ := Option.bind_eq_some_iff.mp hwrite
  simp only [Bool.and_eq_true, Option.isNone_iff_eq_none, decide_eq_true_eq] at hchecks
  obtain ⟨⟨rfl, hlock⟩, hline⟩ := hchecks
  obtain ⟨rw', ra, object, index, value, hwith⟩ := contains_of_heldWrite? hwrite
  have hwith : Contains body (.statement none (.withResources rw' ([] ++ ⟨context, none⟩ :: [])
    [.assign ra [.subscript r object index] value])) := hwith
  obtain ⟨nodes, -, -, hfindings, -, -, -, block, -, -, -, hnone, hheld⟩ :=
    unreported_below_lock hm hbody hwith hlock (s := Registry.sharedMap.defaultSettings) rfl []
  have hwrite : Part.Encloses (.statement none (.assign ra [.subscript r object index] value))
      (.expression none (.subscript r object index)) :=
    .single (.statementOperand (by simp [Stmt.operands, Source.targetsOperands, Source.targetOperands]))
  obtain ⟨q, n, hq, hlocation, hshape⟩ := hheld _ (by simp [Part.behind]) _ hwrite
  refine ⟨m, _, nodes, n, hm, rfl, hfindings.imp fun {_ _} hf => hf.2.2.2, hnone q n hq, ?_, hshape⟩
  rw [hlocation, Expr.range, Source.Range.location]
  exact congrArg Nat.cast hline

/-- A function that writes to a map under a lock that has a name. -/
def namedLockText : String := "M = {}\ndef f(lock):\n    with lock as l:\n        M['a'] = 1\n"

/-- The write is reported: a resource with a target is no lock, whatever its name. -/
theorem reported_namedLockText :
    ∃ m body rw' context target ra r object index value rule,
      Source.load .empty Configuration.standard.lockPatterns namedLockText ⟨"", ["m.py"]⟩ = .ok m ∧
      Stmt.ofSource? .empty namedLockText = some body ∧
      Contains body (.statement none (.withResources rw' [⟨context, some target⟩]
        [.assign ra [.subscript r object index] value])) ∧
      Pattern.anyAccepts? Configuration.standard.lockPatterns
        (context.callee.dotted?.map Source.lastSegment) = true ∧
      Registry.sharedMap.build Registry.sharedMap.defaultSettings = .ok rule ∧
      (rule.evaluate Configuration.standard.phrases m).findings.map (·.span) =
        [r.location.span] := by
  have hchecks : ((Stmt.ofSource? .empty namedLockText).bind heldWrite?).any fun write =>
      write.1.target.isSome && Pattern.anyAccepts? Configuration.standard.lockPatterns
        (write.1.context.callee.dotted?.map Source.lastSegment) &&
      (Source.load .empty Configuration.standard.lockPatterns namedLockText ⟨"", ["m.py"]⟩).toOption.any
        fun m => decide (((SharedMap.rule Registry.sharedMap.description .error defaultPatterns).evaluate
          Configuration.standard.phrases m).findings.map (·.span) = [write.2.location.span]) := by
    decide +kernel
  obtain ⟨⟨⟨context, target⟩, r⟩, hwrite, hchecks⟩ := (Option.any_eq_true _ _).mp hchecks
  obtain ⟨body, hbody, hwrite⟩ := Option.bind_eq_some_iff.mp hwrite
  simp only [Bool.and_eq_true] at hchecks
  obtain ⟨⟨hsome, hlock⟩, hload⟩ := hchecks
  obtain ⟨target, rfl⟩ := Option.isSome_iff_exists.mp hsome
  obtain ⟨m, hm, hfindings⟩ := Source.exists_load_of_any hload
  obtain ⟨rw', ra, object, index, value, hwith⟩ := contains_of_heldWrite? hwrite
  exact ⟨m, _, rw', context, target, ra, r, object, index, value, _, hm, hbody, hwith, hlock, rfl,
    of_decide_eq_true hfindings⟩

end SharedMap

end ModelLint
