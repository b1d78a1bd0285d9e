import ModelLint.Proofs.Source.Grammar.Expressions
import ModelLint.Source.Grammar.Statement

/-!
# Names in statements

Names of functions and names in the expressions of a statement are identifiers.

* `Stmt.Named`: all names that a statement mentions or gives to functions are identifiers.
* **`Stmt.isName_of_mentioned`**: those of a source text are.
-/

namespace ModelLint.Source

open Parse

/-- All names that a statement mentions or gives to functions are identifiers. -/
def Stmt.Named (s : Stmt) : Prop := ∀ name ∈ s.mentioned, IsName name

/-- All names in the statements of a handler are identifiers. -/
def Handler.Named : Handler → Prop
  | .mk _ _ _ body => ∀ s ∈ body, s.Named

/-- All names in a resource and in what it is bound to are identifiers. -/
def Resource.Named (r : Resource) : Prop := r.context.Named ∧ ∀ target ∈ r.target, target.Named

section Named

variable {r : Range} {name word : String} {target source condition e : Expr}
  {bases targets operands : List Expr} {value error cause : Option Expr} {names : List String}
  {body orElse finalBody : List Stmt} {cases : List (List Stmt)} {handlers : List Handler}
  {resources : List Resource}

theorem forall_mem_mentionedIn (body : List Stmt) :
    (∀ name ∈ mentionedIn body, IsName name) ↔ ∀ s ∈ body, s.Named := by
  rw [mentionedIn_eq_flatMap, List.forall_mem_flatMap]
  rfl

theorem forall_mem_mentionedInCases (cases : List (List Stmt)) :
    (∀ name ∈ mentionedInCases cases, IsName name) ↔ ∀ body ∈ cases, ∀ s ∈ body, s.Named := by
  induction cases with
  | nil => simp [mentionedInCases]
  | cons body rest ih =>
    rw [mentionedInCases, List.forall_mem_append, ih, List.forall_mem_cons, forall_mem_mentionedIn]

theorem forall_mem_mentionedInHandlers (handlers : List Handler) :
    (∀ name ∈ mentionedInHandlers handlers, IsName name) ↔ ∀ h ∈ handlers, h.Named := by
  induction handlers with
  | nil => simp [mentionedInHandlers]
  | cons handler rest ih =>
    obtain ⟨_, _, _, body⟩ := handler
    rw [mentionedInHandlers, List.forall_mem_append, ih, List.forall_mem_cons,
      forall_mem_mentionedIn]
    rfl

theorem forall_mem_mentioned_toList (value : Option Expr) :
    (∀ name ∈ value.toList.flatMap Expr.mentioned, IsName name) ↔ ∀ e ∈ value, e.Named := by
  rw [List.forall_mem_flatMap]
  simp [Expr.Named]

@[simp] theorem named_function {signature : Signature} : (Stmt.function r signature body).Named ↔
    IsName signature.name ∧ ∀ s ∈ body, s.Named := by
  rw [Stmt.Named, Stmt.mentioned, List.forall_mem_cons, forall_mem_mentionedIn]

@[simp] theorem named_classType :
    (Stmt.classType r name bases body).Named ↔ ∀ s ∈ body, s.Named := by
  rw [Stmt.Named, Stmt.mentioned, forall_mem_mentionedIn]

@[simp] theorem named_returnValue : (Stmt.returnValue r value).Named ↔ ∀ e ∈ value, e.Named := by
  rw [Stmt.Named, Stmt.mentioned, forall_mem_mentioned_toList]

@[simp] theorem named_assign :
    (Stmt.assign r targets e).Named ↔ e.Named ∧ ∀ t ∈ targets, t.Named := by
  rw [Stmt.Named, Stmt.mentioned, List.forall_mem_append, List.forall_mem_flatMap]
  rfl

@[simp] theorem named_augment {op : BinaryOperator} :
    (Stmt.augment r target op e).Named ↔ target.Named ∧ e.Named := by
  rw [Stmt.Named, Stmt.mentioned, List.forall_mem_append]
  rfl

@[simp] theorem named_annotate {typeHint : Expr} :
    (Stmt.annotate r target typeHint value).Named ↔ target.Named ∧ ∀ e ∈ value, e.Named := by
  rw [Stmt.Named, Stmt.mentioned, List.forall_mem_append, forall_mem_mentioned_toList]
  rfl

@[simp] theorem named_forEach {isAsync : Bool} :
    (Stmt.forEach r isAsync target source body orElse).Named ↔
      (target.Named ∧ source.Named) ∧ (∀ s ∈ body, s.Named) ∧ ∀ s ∈ orElse, s.Named := by
  rw [Stmt.Named, Stmt.mentioned, List.forall_mem_append, List.forall_mem_append,
    List.forall_mem_append, forall_mem_mentionedIn, forall_mem_mentionedIn, and_assoc]
  rfl

@[simp] theorem named_whileLoop : (Stmt.whileLoop r condition body orElse).Named ↔
    condition.Named ∧ (∀ s ∈ body, s.Named) ∧ ∀ s ∈ orElse, s.Named := by
  rw [Stmt.Named, Stmt.mentioned, List.forall_mem_append, List.forall_mem_append,
    forall_mem_mentionedIn, forall_mem_mentionedIn, and_assoc]
  rfl

@[simp] theorem named_choose : (Stmt.choose r condition body orElse).Named ↔
    condition.Named ∧ (∀ s ∈ body, s.Named) ∧ ∀ s ∈ orElse, s.Named := by
  rw [Stmt.Named, Stmt.mentioned, List.forall_mem_append, List.forall_mem_append,
    forall_mem_mentionedIn, forall_mem_mentionedIn, and_assoc]
  rfl

@[simp] theorem named_withResources : (Stmt.withResources r resources body).Named ↔
    (∀ resource ∈ resources, resource.Named) ∧ ∀ s ∈ body, s.Named := by
  rw [Stmt.Named, Stmt.mentioned, List.forall_mem_append, forall_mem_mentionedIn,
    List.forall_mem_flatMap, List.forall_mem_flatMap]
  refine and_congr_left fun _ => forall₂_congr fun resource _ => ?_
  rw [Resource.expressions, List.forall_mem_cons]
  simp [Resource.Named, Expr.Named]

@[simp] theorem named_matchCases : (Stmt.matchCases r e cases).Named ↔
    e.Named ∧ ∀ body ∈ cases, ∀ s ∈ body, s.Named := by
  rw [Stmt.Named, Stmt.mentioned, List.forall_mem_append, forall_mem_mentionedInCases]
  rfl

@[simp] theorem named_throwError : (Stmt.throwError r error cause).Named ↔
    (∀ e ∈ error, e.Named) ∧ ∀ e ∈ cause, e.Named := by
  rw [Stmt.Named, Stmt.mentioned, List.forall_mem_append, forall_mem_mentioned_toList,
    forall_mem_mentioned_toList]

@[simp] theorem named_guarded : (Stmt.guarded r body handlers orElse finalBody).Named ↔
    (((∀ s ∈ body, s.Named) ∧ ∀ h ∈ handlers, h.Named) ∧ ∀ s ∈ orElse, s.Named) ∧
      ∀ s ∈ finalBody, s.Named := by
  rw [Stmt.Named, Stmt.mentioned, List.forall_mem_append, List.forall_mem_append,
    List.forall_mem_append, forall_mem_mentionedIn, forall_mem_mentionedIn, forall_mem_mentionedIn,
    forall_mem_mentionedInHandlers]

@[simp] theorem named_imports : (Stmt.imports r names).Named := by
  simp [Stmt.Named, Stmt.mentioned]

@[simp] theorem named_globals : (Stmt.globals r names).Named := by
  simp [Stmt.Named, Stmt.mentioned]

@[simp] theorem named_nonlocals : (Stmt.nonlocals r names).Named := by
  simp [Stmt.Named, Stmt.mentioned]

@[simp] theorem named_expr : (Stmt.expr r e).Named ↔ e.Named := Iff.rfl

@[simp] theorem named_simple : (Stmt.simple r word operands).Named ↔ ∀ e ∈ operands, e.Named := by
  rw [Stmt.Named, Stmt.mentioned, List.forall_mem_flatMap]
  rfl

end Named

namespace Statement

open Nested

variable {g : Nested} {block : Parse (List Stmt)} {start : Position} {target : Expr}

/-! ## Simple statements -/

section Simple

variable (h : g.Named)

include h

theorem yields_annotated (htarget : target.Named) : Yields (annotated g start target) Stmt.Named := by
  refine Yields.skip fun _ => Yields.skip fun typeHint => Yields.skip fun hasValue => ?_
  exact yields_either (yields_bareOrYielded h).found yields_none fun value hvalue =>
    Yields.skip fun r => yields_pure (named_annotate.mpr ⟨htarget, hvalue⟩)

theorem yields_assigned (htarget : target.Named) : Yields (assigned g start target) Stmt.Named := by
  refine (yields_repeated ((yields_bareOrYielded h).behind "=")).bind fun parts hparts => ?_
  have hall : ∀ e ∈ (target :: parts).reverse, e.Named := fun e he =>
    List.forall_mem_cons.mpr ⟨htarget, hparts⟩ e (List.mem_reverse.mp he)
  split
  · next value first rest heq =>
    rw [heq, List.forall_mem_cons] at hall
    split
    · exact Yields.skip fun r => yields_pure
        (named_assign.mpr ⟨hall.1, fun e he => hall.2 e (List.mem_reverse.mp he)⟩)
    · exact yields_failure
  · exact yields_failure

theorem yields_assignmentOrExpression : Yields (assignmentOrExpression g) Stmt.Named := by
  refine Yields.skip fun start => (yields_bare h).bind fun first hfirst => Yields.skip fun _ => ?_
  split
  · split
    · exact yields_annotated h hfirst
    · exact yields_failure
  refine Yields.skip fun _ => ?_
  split
  · exact yields_assigned h hfirst
  refine Yields.skip fun op => ?_
  split
  · exact yields_check ((yields_bareOrYielded h).bind fun value hvalue => Yields.skip fun r =>
      yields_pure (named_augment.mpr ⟨hfirst, hvalue⟩))
  · exact Yields.skip fun r => yields_pure (named_expr.mpr hfirst)

omit h in
theorem yields_importFrom : Yields (importFrom start) Stmt.Named := by
  rw [importFrom]
  refine Yields.skip fun _ => Yields.skip fun _ => ?_
  extract_lets rest
  have hrest : ∀ u, Yields (rest u) Stmt.Named := by
    intro u
    refine Yields.skip fun _ => Yields.skip fun _ => yields_ite ?_ (Yields.skip fun _ => ?_)
    · exact Yields.skip fun r => yields_pure named_imports
    · refine yields_ite ?_ ?_
      · exact Yields.skip fun _ => Yields.skip fun _ => Yields.skip fun r => yields_pure named_imports
      · exact Yields.skip fun _ => Yields.skip fun r => yields_pure named_imports
  exact yields_ite (Yields.skip fun _ => hrest ()) (hrest ())

theorem yields_simple : Yields (simple g) Stmt.Named := by
  refine Yields.skip fun start => Yields.skip fun t => ?_
  refine yields_ite (yields_assignmentOrExpression h) (yields_ite ?_ (Yields.skip fun _ => ?_))
  · exact Yields.skip fun _ => Yields.skip fun r => yields_pure (by simp)
  refine yields_ite ?_ (Yields.skip fun _ => yields_ite ?_ (Yields.skip fun _ => ?_))
  · exact (yields_optional (yields_bare h)).bind fun value hvalue => Yields.skip fun r =>
      yields_pure (named_returnValue.mpr hvalue)
  · refine (yields_optional h.expression).bind fun error herror => ?_
    split
    · exact Yields.skip fun r => yields_pure (by simp)
    · refine Yields.skip fun _ => yields_either h.expression.found yields_none fun cause hcause => ?_
      exact Yields.skip fun r => yields_pure (named_throwError.mpr ⟨herror, hcause⟩)
  refine yields_ite ?_ (Yields.skip fun _ => yields_ite ?_ (Yields.skip fun _ => ?_))
  · exact Yields.skip fun _ => Yields.skip fun r => yields_pure named_globals
  · exact Yields.skip fun _ => Yields.skip fun r => yields_pure named_nonlocals
  refine yields_ite ?_ (Yields.skip fun _ => yields_ite ?_ (Yields.skip fun _ => ?_))
  · exact (yields_commaSeparated h.primary).bind fun targets htargets => yields_check
      (Yields.skip fun r => yields_pure (named_simple.mpr htargets))
  · refine h.expression.bind fun condition hcondition => Yields.skip fun _ => ?_
    refine yields_either h.expression.found yields_none fun message hmessage => ?_
    refine Yields.skip fun r => yields_pure (named_simple.mpr ?_)
    exact List.forall_mem_cons.mpr ⟨hcondition, by simpa using hmessage⟩
  refine yields_ite ?_ (Yields.skip fun _ => yields_ite yields_importFrom (yields_ite ?_ ?_))
  · exact Yields.skip fun _ => Yields.skip fun r => yields_pure named_imports
  · exact (yields_yielded h).bind fun value hvalue => Yields.skip fun r =>
      yields_pure (named_expr.mpr hvalue)
  · exact yields_assignmentOrExpression h

theorem yields_simpleLine : Yields (simpleLine g) fun body => ∀ s ∈ body, s.Named := by
  refine (yields_simple h).bind fun first hfirst => ?_
  refine (yields_repeated (yields_optional (Yields.skip fun _ => yields_simple h))).bind
    fun rest hrest => Yields.skip fun _ => Yields.skip fun _ =>
      yields_pure (List.forall_mem_cons.mpr ⟨hfirst, hrest⟩)

end Simple

/-! ## Statements with blocks -/

section Compound

variable (h : g.Named) (hblock : Yields block fun body => ∀ s ∈ body, s.Named)

section Blocks

include hblock

theorem yields_blockAfter? (word : String) :
    Yields (blockAfter? block word) fun r => ∀ body ∈ r, ∀ s ∈ body, s.Named :=
  Yields.skip fun _ => yields_ite (Yields.skip fun _ => hblock.found) yields_none

theorem yields_orElse : Yields (orElse block) fun body => ∀ s ∈ body, s.Named := by
  refine (yields_blockAfter? hblock "else").bind fun body hbody => yields_pure ?_
  cases body with
  | none => exact fun _ hs => nomatch hs
  | some body => exact hbody body rfl

theorem yields_handler? (hasStar : Bool) :
    Yields (handler? g block hasStar) fun r => ∀ handler ∈ r, handler.Named := by
  refine Yields.skip fun start => Yields.skip fun isThere => yields_ite ?_ yields_none
  refine yields_maybe (Yields.skip fun isBare => yields_ite ?_ ?_)
  · exact hblock.bind fun body hbody => Yields.skip fun r => yields_some hbody
  · exact Yields.skip fun type => Yields.skip fun name => Yields.skip fun _ =>
      hblock.bind fun body hbody => Yields.skip fun r => yields_some hbody

theorem yields_guarded : Yields (guarded g block) Stmt.Named := by
  refine Yields.skip fun start => Yields.skip fun _ => Yields.skip fun _ => ?_
  refine hblock.bind fun body hbody => Yields.skip fun hasStar => ?_
  refine (yields_repeated (yields_handler? hblock hasStar)).bind fun handlers hhandlers => ?_
  refine yields_either (P := fun body => ∀ s ∈ body, s.Named) (yields_pure fun _ hs => nomatch hs)
    (yields_orElse hblock) fun orElse horElse => ?_
  refine (yields_blockAfter? hblock "finally").bind fun finalBody hfinalBody => ?_
  refine yields_check (Yields.skip fun r => yields_pure (named_guarded.mpr ?_))
  refine ⟨⟨⟨hbody, hhandlers⟩, horElse⟩, ?_⟩
  cases finalBody with
  | none => exact fun _ hs => nomatch hs
  | some finalBody => exact hfinalBody finalBody rfl

theorem yields_function {isAsync : Bool} {decorators : List Expr} :
    Yields (function g block start isAsync decorators) Stmt.Named := by
  refine Yields.skip fun _ => yields_identifier.bind fun name hname => ?_
  refine Yields.skip fun _ => Yields.skip fun parameters => Yields.skip fun _ =>
    Yields.skip fun isTyped => ?_
  refine yields_ite (Yields.skip fun _ => ?_) ?_
  all_goals
    exact Yields.skip fun _ => hblock.bind fun body hbody => Yields.skip fun r =>
      yields_pure (named_function.mpr ⟨hname, hbody⟩)

theorem yields_classType : Yields (classType g block) Stmt.Named := by
  refine Yields.skip fun start => Yields.skip fun _ => Yields.skip fun name => Yields.skip fun _ => ?_
  have hrest : ∀ bases : List Expr, Yields (do
      expect ":"
      let body ← block
      return .classType (← rangeFrom start) name bases body) Stmt.Named := fun bases =>
    Yields.skip fun _ => hblock.bind fun body hbody => Yields.skip fun r =>
      yields_pure (named_classType.mpr hbody)
  refine yields_ite (Yields.skip fun _ => Yields.skip fun (args, _) => ?_) (Yields.skip hrest)
  dsimp only
  split
  · exact yields_ite (Yields.skip hrest) (Yields.skip hrest)
  · exact Yields.skip hrest

end Blocks

include h

theorem yields_resource : Yields (resource g) Resource.Named := by
  refine h.expression.bind fun context hcontext => Yields.skip fun _ => yields_ite ?_ ?_
  · refine (yields_target h).bind fun target htarget => yields_pure ⟨hcontext, fun e he => ?_⟩
    cases he
    exact htarget
  · exact yields_pure ⟨hcontext, fun _ he => nomatch he⟩

include hblock

theorem yields_choice : Yields (choice g block) Stmt.Named := by
  let Branch (b : Position × Expr × List Stmt) : Prop := b.2.1.Named ∧ ∀ s ∈ b.2.2, s.Named
  have hbranch : ∀ word : String, Yields (do
      let start ← position
      expect word
      let condition ← g.named
      expect ":"
      let body ← block
      return (start, condition, body)) Branch := fun word =>
    Yields.skip fun start => Yields.skip fun _ => (yields_named h).bind fun condition hcondition =>
      Yields.skip fun _ => hblock.bind fun body hbody => yields_pure ⟨hcondition, hbody⟩
  refine (hbranch "if").bind fun (start, condition, body) hfirst => ?_
  refine (yields_repeated (P := Branch) (Yields.skip fun _ =>
    yields_ite (hbranch "elif").found yields_none)).bind fun others hothers => ?_
  refine (yields_orElse hblock).bind fun last hlast => Yields.skip fun c => ?_
  refine yields_pure (named_choose.mpr ⟨hfirst.1, hfirst.2, ?_⟩)
  induction others with
  | nil => exact hlast
  | cons b others ih =>
    obtain ⟨hb, hrest⟩ := List.forall_mem_cons.mp hothers
    exact List.forall_mem_singleton.mpr (named_choose.mpr ⟨hb.1, hb.2, ih hrest⟩)

theorem yields_whileLoop : Yields (whileLoop g block) Stmt.Named :=
  Yields.skip fun _ => Yields.skip fun _ => (yields_named h).bind fun _ hcondition =>
    Yields.skip fun _ => hblock.bind fun _ hbody => (yields_orElse hblock).bind fun _ horElse =>
      Yields.skip fun _ => yields_pure (named_whileLoop.mpr ⟨hcondition, hbody, horElse⟩)

theorem yields_forEach {isAsync : Bool} : Yields (forEach g block start isAsync) Stmt.Named :=
  Yields.skip fun _ => (yields_targets h).bind fun _ htarget => Yields.skip fun _ =>
    (yields_bare h).bind fun _ hsource => Yields.skip fun _ => hblock.bind fun _ hbody =>
      (yields_orElse hblock).bind fun _ horElse => Yields.skip fun _ =>
        yields_pure (named_forEach.mpr ⟨⟨htarget, hsource⟩, hbody, horElse⟩)

theorem yields_withResources : Yields (withResources g block start) Stmt.Named := by
  refine Yields.skip fun _ => Yields.bind (P := fun rs => ∀ r ∈ rs, r.Named)
    (Yields.orElse (Yields.skip fun _ => ?_) ?_) fun resources hresources => ?_
  · exact (yields_commaSeparated (yields_resource h)).bind fun (resources, _) hresources =>
      Yields.skip fun _ => Yields.skip fun _ => yields_pure hresources
  · exact (yields_commaJoined (yields_resource h)).bind fun resources hresources =>
      Yields.skip fun _ => yields_pure hresources
  · exact hblock.bind fun body hbody => Yields.skip fun r =>
      yields_pure (named_withResources.mpr ⟨hresources, hbody⟩)

theorem yields_matchCases : Yields (matchCases g block) Stmt.Named := by
  refine Yields.skip fun start => Yields.skip fun _ => Yields.skip fun hasStar => ?_
  refine (yields_tupled (yields_element h)).bind fun subject hsubject => ?_
  refine yields_check (Yields.skip fun _ => Yields.skip fun _ => Yields.skip fun _ =>
    Yields.skip fun c => ?_)
  refine (yields_repeated (P := fun body => ∀ s ∈ body, s.Named) (Yields.skip fun _ =>
    yields_ite (Yields.skip fun _ => Yields.skip fun _ => Yields.skip fun _ => ?_)
      yields_none)).bind fun cases hcases => ?_
  · exact yields_ite (Yields.skip fun _ => Yields.skip fun _ => hblock.found)
      (Yields.skip fun _ => hblock.found)
  · exact yields_check (Yields.skip fun _ => Yields.skip fun r =>
      yields_pure (named_matchCases.mpr ⟨hsubject, hcases⟩))

theorem yields_compound : Yields (compound g block) Stmt.Named := by
  refine Yields.skip fun start => Yields.skip fun decorators => ?_
  refine yields_either (P := fun _ => True) (fun _ _ _ _ => trivial) (fun _ _ _ _ => trivial)
    fun start _ => Yields.skip fun _ => ?_
  refine yields_ite (yields_function hblock) (Yields.skip fun _ => yields_ite ?_ ?_)
  · exact Yields.skip fun _ => yields_function hblock
  refine Yields.skip fun _ => yields_ite (yields_classType hblock) (yields_ite yields_failure ?_)
  refine Yields.skip fun _ => yields_ite (yields_choice h hblock) (Yields.skip fun _ => ?_)
  refine yields_ite (yields_whileLoop h hblock) (Yields.skip fun _ => ?_)
  refine yields_ite (yields_forEach h hblock) (Yields.skip fun _ => ?_)
  refine yields_ite (yields_withResources h hblock) (Yields.skip fun _ => ?_)
  refine yields_ite (yields_guarded hblock) (Yields.skip fun _ => yields_ite ?_ yields_failure)
  exact Yields.skip fun _ => yields_ite (yields_forEach h hblock) (yields_withResources h hblock)

theorem yields_statement : Yields (statement g block) fun body => ∀ s ∈ body, s.Named := by
  refine Yields.skip fun t => yields_ite ?_ (yields_ite ?_ (yields_simpleLine h))
  · exact (yields_compound h hblock).bind fun s hs => yields_pure (List.forall_mem_singleton.mpr hs)
  · refine Yields.orElse ?_ (yields_simpleLine h)
    exact (yields_matchCases h hblock).bind fun s hs =>
      yields_pure (List.forall_mem_singleton.mpr hs)

theorem yields_statements : Yields (statements g block) fun body => ∀ s ∈ body, s.Named := by
  refine (yields_repeated (P := fun body => ∀ s ∈ body, s.Named) (Yields.skip fun t =>
    yields_ite yields_none (yields_statement h hblock).found)).bind fun lines hlines => ?_
  refine yields_pure fun s hs => ?_
  obtain ⟨body, hbody, hs⟩ := List.mem_flatten.mp hs
  exact hlines body hbody s hs

end Compound

/-- Names in blocks are identifiers, at every depth. -/
theorem yields_blockOfDepth {g : Nested} (h : g.Named) :
    (depth : Nat) → Yields (blockOfDepth g depth) fun body => ∀ s ∈ body, s.Named
  | 0 => yields_failure
  | depth + 1 => by
    refine Yields.skip fun t => yields_ite (Yields.skip fun _ => Yields.skip fun _ => ?_)
      (yields_simpleLine h)
    exact (yields_statements h (yields_blockOfDepth h depth)).bind fun body hbody =>
      yields_check (Yields.skip fun _ => yields_pure hbody)

end Statement

/-- **Names in a source text are identifiers.** -/
theorem Stmt.isName_of_mentioned {named : Text.CharacterNames} {source : String} {body : List Stmt}
    (hbody : Stmt.ofSource? named source = some body) : ∀ name ∈ mentionedIn body, IsName name := by
  obtain ⟨tokens, -, hbody⟩ := Option.bind_eq_some_iff.mp hbody
  obtain ⟨⟨statements, c⟩, hrun, hbody⟩ := Option.bind_eq_some_iff.mp hbody
  have hstatements : ∀ s ∈ statements, s.Named :=
    Statement.yields_statements (Nested.named_ofDepth _)
      (Statement.yields_blockOfDepth (Nested.named_ofDepth _) _) _ _ _ hrun
  refine (forall_mem_mentionedIn body).mpr ?_
  dsimp only at hbody
  split at hbody
  · split at hbody
    · cases hbody
      exact hstatements
    · cases hbody
  · cases hbody

end ModelLint.Source
