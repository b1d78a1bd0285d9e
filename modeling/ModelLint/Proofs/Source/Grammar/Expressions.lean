import ModelLint.Proofs.Source.Grammar.Reading
import ModelLint.Proofs.Source.Occurrences
import ModelLint.Source.Grammar.Expression

/-!
# Names in expressions

Every name that an expression mentions was read as one, hence it is an identifier.

* `Expr.Named`: all names that an expression mentions are identifiers.
* `Nested.Named`: the readers of expressions give only such expressions.
* **`Nested.named_ofDepth`**: so they do, however deep expressions are nested.
-/

namespace ModelLint.Source

open Parse

/-- A text is an identifier. -/
def IsName (name : String) : Prop := Text.isIdentifier name.toList = true

instance (name : String) : Decidable (IsName name) :=
  inferInstanceAs (Decidable (Text.isIdentifier name.toList = true))

/-- All names that an expression mentions are identifiers. -/
def Expr.Named (e : Expr) : Prop := ∀ name ∈ e.mentioned, IsName name

/-- All names in the value of an argument by name are identifiers. -/
def Keyword.Named : Keyword → Prop
  | .mk _ value => value.Named

/-- All names in an entry of a dictionary are identifiers. -/
def Entry.Named : Entry → Prop
  | .pair key value => key.Named ∧ value.Named
  | .unpack value => value.Named

/-- All names in a loop of a comprehension are identifiers. -/
def Clause.Named : Clause → Prop
  | .mk _ target source conditions => target.Named ∧ source.Named ∧ ∀ e ∈ conditions, e.Named

section Named

open ModelLint.Source.Expr (collectAll collectKeywords collectEntries collectClause collectClauses)

variable {r target : Range} {id attr : String} {e value index function body : Expr}
  {args operands elements : List Expr} {keywords : List Keyword} {entries : List Entry}
  {first : Clause} {rest : List Clause}

theorem forall_mem_collectAll (es : List Expr) :
    (∀ name ∈ collectAll Expr.ownName es, IsName name) ↔ ∀ e ∈ es, e.Named := by
  induction es with
  | nil => simp [collectAll]
  | cons e es ih => rw [collectAll, List.forall_mem_append, ih, List.forall_mem_cons]; rfl

theorem forall_mem_collectKeywords (keywords : List Keyword) :
    (∀ name ∈ collectKeywords Expr.ownName keywords, IsName name) ↔ ∀ k ∈ keywords, k.Named := by
  induction keywords with
  | nil => simp [collectKeywords]
  | cons k keywords ih =>
    obtain ⟨_, value⟩ := k
    rw [collectKeywords, List.forall_mem_append, ih, List.forall_mem_cons]
    rfl

theorem forall_mem_collectEntries (entries : List Entry) :
    (∀ name ∈ collectEntries Expr.ownName entries, IsName name) ↔ ∀ e ∈ entries, e.Named := by
  induction entries with
  | nil => simp [collectEntries]
  | cons e entries ih =>
    cases e with
    | pair key value =>
      rw [collectEntries, List.forall_mem_append, List.forall_mem_append, ih, List.forall_mem_cons]
      rfl
    | unpack value =>
      rw [collectEntries, List.forall_mem_append, ih, List.forall_mem_cons]
      rfl

theorem forall_mem_collectClause (clause : Clause) :
    (∀ name ∈ collectClause Expr.ownName clause, IsName name) ↔ clause.Named := by
  obtain ⟨_, target, source, conditions⟩ := clause
  rw [collectClause, List.forall_mem_append, List.forall_mem_append, forall_mem_collectAll, and_assoc]
  rfl

theorem forall_mem_collectClauses (clauses : List Clause) :
    (∀ name ∈ collectClauses Expr.ownName clauses, IsName name) ↔ ∀ c ∈ clauses, c.Named := by
  induction clauses with
  | nil => simp [collectClauses]
  | cons c clauses ih =>
    rw [collectClauses, List.forall_mem_append, ih, List.forall_mem_cons, forall_mem_collectClause]

@[simp] theorem named_name : (Expr.name r id).Named ↔ IsName id := by
  simp [Expr.Named, Expr.mentioned]

@[simp] theorem named_constant {value : Constant} {hasLetter : Bool} :
    (Expr.constant r value hasLetter).Named := by
  simp [Expr.Named, Expr.mentioned]

@[simp] theorem named_attribute : (Expr.attribute r value attr).Named ↔ IsName attr ∧ value.Named := by
  simp [Expr.Named, Expr.mentioned]

@[simp] theorem named_subscript : (Expr.subscript r value index).Named ↔ value.Named ∧ index.Named := by
  simp [Expr.Named, Expr.mentioned, or_imp, forall_and]

@[simp] theorem named_call : (Expr.call r function args keywords).Named ↔
    function.Named ∧ (∀ a ∈ args, a.Named) ∧ ∀ k ∈ keywords, k.Named := by
  rw [← forall_mem_collectAll, ← forall_mem_collectKeywords]
  simp [Expr.Named, Expr.mentioned, or_imp, forall_and]

@[simp] theorem named_compound {form : Form} :
    (Expr.compound r form operands).Named ↔ ∀ e ∈ operands, e.Named := by
  rw [← forall_mem_collectAll]
  simp [Expr.Named, Expr.mentioned]

@[simp] theorem named_dict : (Expr.dict r entries).Named ↔ ∀ e ∈ entries, e.Named := by
  rw [← forall_mem_collectEntries]
  simp [Expr.Named, Expr.mentioned]

@[simp] theorem named_walrus : (Expr.walrus r target id value).Named ↔ IsName id ∧ value.Named := by
  simp [Expr.Named, Expr.mentioned]

@[simp] theorem named_lambda {parameters : List Parameter} :
    (Expr.lambda r parameters body).Named ↔ body.Named := by
  simp [Expr.Named, Expr.mentioned]

@[simp] theorem named_comprehension {kind : ComprehensionKind} :
    (Expr.comprehension r kind elements first rest).Named ↔
      (∀ e ∈ elements, e.Named) ∧ first.Named ∧ ∀ c ∈ rest, c.Named := by
  rw [← forall_mem_collectAll, ← forall_mem_collectClause, ← forall_mem_collectClauses]
  simp [Expr.Named, Expr.mentioned, or_imp, forall_and]

end Named

namespace Nested

/-- The readers of expressions give only expressions whose names are identifiers. -/
structure Named (inner : Nested) : Prop where
  /-- Expressions. -/
  expression : Yields inner.expression Expr.Named
  /-- Expressions without a condition behind them. -/
  disjunction : Yields inner.disjunction Expr.Named
  /-- Operands of `not`. -/
  inversion : Yields inner.inversion Expr.Named
  /-- Operands of comparisons. -/
  operand : Yields inner.operand Expr.Named
  /-- Operands of signs. -/
  factor : Yields inner.factor Expr.Named
  /-- Atoms with their calls, attributes and elements. -/
  primary : Yields inner.primary Expr.Named

/-- The values of arguments that were read have names that are identifiers. -/
def Arguments.Named (s : Arguments) : Prop := (∀ e ∈ s.args, e.Named) ∧ ∀ k ∈ s.keywords, k.Named

variable {inner : Nested} {operand element : Parse Expr} {start : Position}

theorem yields_starred (h : Yields operand Expr.Named) : Yields (starred operand) Expr.Named :=
  Yields.skip fun _ => Yields.skip fun _ => h.bind fun value hvalue =>
    Yields.skip fun r => yields_pure (by simpa using hvalue)

theorem yields_tupled (h : Yields element Expr.Named) : Yields (tupled element) Expr.Named := by
  refine Yields.skip fun start => (yields_commaSeparated h).bind fun (es, hasComma) hes => ?_
  split
  · next heq =>
    cases heq
    exact yields_pure (hes _ (List.mem_singleton.mpr rfl))
  · next heq =>
    cases heq
    exact Yields.skip fun r => yields_pure (named_compound.mpr hes)

section Readers

variable (h : inner.Named)

include h

/-! ## Expressions with names and stars -/

theorem yields_named : Yields inner.named Expr.Named := by
  refine Yields.skip fun start => Yields.skip fun hasName => ?_
  split
  · refine yields_identifier.bind fun id hid => Yields.skip fun _ => Yields.skip fun _ => ?_
    exact h.expression.bind fun value hvalue => Yields.skip fun r =>
      yields_pure (named_walrus.mpr ⟨hid, hvalue⟩)
  · exact h.expression.bind fun value hvalue => Yields.skip fun _ =>
      yields_check (yields_pure hvalue)

theorem yields_element : Yields inner.element Expr.Named := by
  refine Yields.skip fun _ => ?_
  split
  · exact yields_starred h.operand
  · exact yields_named h

theorem yields_bareElement : Yields inner.bareElement Expr.Named := by
  refine Yields.skip fun _ => ?_
  split
  · exact yields_starred h.operand
  · exact h.expression

theorem yields_bare : Yields inner.bare Expr.Named := yields_tupled (yields_bareElement h)

theorem yields_yielded : Yields inner.yielded Expr.Named := by
  refine Yields.skip fun start => Yields.skip fun _ => Yields.skip fun isFrom => ?_
  split
  · exact h.expression.bind fun value hvalue => Yields.skip fun r =>
      yields_pure (by simpa using hvalue)
  · exact (yields_optional (yields_bare h)).bind fun value hvalue => Yields.skip fun r =>
      yields_pure (by simpa using hvalue)

theorem yields_bareOrYielded : Yields inner.bareOrYielded Expr.Named := by
  refine Yields.skip fun _ => ?_
  split
  · exact yields_yielded h
  · exact yields_bare h

/-! ## Targets -/

theorem yields_target : Yields inner.target Expr.Named := by
  have hplace : Yields (do
      let e ← inner.primary
      if isTarget e then return e else failure) Expr.Named := by
    refine h.primary.bind fun e he => ?_
    split
    · exact yields_pure he
    · exact yields_failure
  refine Yields.skip fun _ => ?_
  split
  · exact yields_starred hplace
  · exact hplace

theorem yields_targets : Yields inner.targets Expr.Named := yields_tupled (yields_target h)

/-! ## Comprehensions -/

theorem yields_clause? : Yields inner.clause? fun r => ∀ clause ∈ r, clause.Named := by
  refine Yields.skip fun _ => Yields.skip fun _ => ?_
  split
  · refine Yields.skip fun isAsync => Yields.skip fun _ => ?_
    refine (yields_targets h).bind fun target htarget => Yields.skip fun _ => ?_
    refine h.disjunction.bind fun source hsource => ?_
    exact (yields_repeated (h.disjunction.behind "if")).bind fun conditions hconditions =>
      yields_some ⟨htarget, hsource, hconditions⟩
  · exact yields_none

theorem yields_clauses? (closing : String) : Yields (inner.clauses? closing)
    fun r => ∀ clauses ∈ r, clauses.1.Named ∧ ∀ clause ∈ clauses.2, clause.Named := by
  refine (yields_clause? h).bind fun first hfirst => ?_
  split
  · exact yields_none
  · exact (yields_repeated (yields_clause? h)).bind fun rest hrest =>
      Yields.skip fun _ => yields_some ⟨hfirst _ rfl, hrest⟩

theorem yields_lambda : Yields inner.lambda Expr.Named :=
  Yields.skip fun _ => Yields.skip fun _ => Yields.skip fun _ => Yields.skip fun _ =>
    h.expression.bind fun _ hbody => Yields.skip fun _ => yields_pure (named_lambda.mpr hbody)

/-! ## Calls and elements -/

theorem yields_argument {s : Arguments} (hs : s.Named) : Yields (inner.argument s) Arguments.Named := by
  refine Yields.skip fun isMapping => ?_
  split
  · exact h.expression.bind fun value hvalue =>
      yields_pure ⟨hs.1, List.forall_mem_cons.mpr ⟨hvalue, hs.2⟩⟩
  refine Yields.skip fun isStarred => ?_
  split
  · exact yields_check ((yields_starred h.expression).bind fun value hvalue =>
      yields_pure ⟨List.forall_mem_cons.mpr ⟨hvalue, hs.1⟩, hs.2⟩)
  refine Yields.skip fun isNamed => ?_
  split
  · exact Yields.skip fun name => Yields.skip fun _ => h.expression.bind fun value hvalue =>
      yields_pure ⟨hs.1, List.forall_mem_cons.mpr ⟨hvalue, hs.2⟩⟩
  · exact yields_check ((yields_named h).bind fun value hvalue =>
      yields_pure ⟨List.forall_mem_cons.mpr ⟨hvalue, hs.1⟩, hs.2⟩)

theorem yields_arguments : Yields inner.arguments
    fun r => (∀ e ∈ r.1, e.Named) ∧ ∀ k ∈ r.2, k.Named := by
  have hnone : (∀ e ∈ ([] : List Expr), e.Named) ∧ ∀ k ∈ ([] : List Keyword), k.Named :=
    ⟨(fun _ he => nomatch he), fun _ hk => nomatch hk⟩
  refine Yields.skip fun start => Yields.skip fun _ => Yields.skip fun isEmpty => ?_
  split
  · exact yields_pure hnone
  refine Yields.skip fun isPlain => (yields_argument h (s := ⟨[], [], false⟩) hnone).bind fun first hfirst => ?_
  refine (yields_clauses? h ")").bind fun clauses hclauses => ?_
  split
  · next value clause rest hargs =>
    have hvalue := hfirst.1 value (by rw [hargs]; exact List.mem_singleton.mpr rfl)
    refine Yields.skip fun r => yields_pure ⟨?_, hnone.2⟩
    simpa using ⟨hvalue, hclauses _ rfl⟩
  · exact yields_failure
  · refine (yields_extended (fun s hs => Yields.skip fun isFurther => ?_) hfirst).bind fun s hs =>
      Yields.skip fun _ => yields_pure ⟨by simpa using hs.1, by simpa using hs.2⟩
    split
    · refine Yields.skip fun isLast => ?_
      split
      · exact yields_none
      · exact (yields_argument h hs).found
    · exact yields_none

theorem yields_slicePart : Yields inner.slicePart Expr.Named := by
  refine Yields.skip fun start => Yields.skip fun hasName => ?_
  split
  · exact yields_named h
  refine Yields.skip fun _ => yields_either yields_none (yields_named h).found fun lower hlower => ?_
  refine Yields.skip fun isSlice => ?_
  split
  · exact yields_pure (hlower _ rfl)
  refine (yields_optional h.expression).bind fun upper hupper => Yields.skip fun hasStep => ?_
  refine yields_either (yields_optional h.expression) yields_none fun step hstep => ?_
  refine Yields.skip fun r => yields_pure (named_compound.mpr ?_)
  exact List.forall_mem_append.mpr ⟨List.forall_mem_append.mpr ⟨by simpa using hlower,
    by simpa using hupper⟩, by simpa using hstep⟩

theorem yields_index : Yields inner.index Expr.Named := by
  have hpart : Yields (do if ← sees ["*"] then starred inner.expression else inner.slicePart)
      Expr.Named := by
    refine Yields.skip fun _ => ?_
    split
    · exact yields_starred h.expression
    · exact yields_slicePart h
  refine Yields.skip fun start => (yields_commaSeparated hpart).bind fun (es, hasComma) hes => ?_
  split
  · next heq =>
    cases heq
    split
    · exact Yields.skip fun r => yields_pure (named_compound.mpr hes)
    · exact yields_pure (hes _ (List.mem_singleton.mpr rfl))
  · next heq =>
    cases heq
    exact Yields.skip fun r => yields_pure (named_compound.mpr hes)

/-! ## Literals -/

omit h in
theorem named_textValue (place : TextPlace) (cs : List Char) : ∀ e ∈ textValue place cs, e.Named := by
  rw [textValue]
  split
  · exact fun _ he => nomatch he
  · intro e he
    obtain rfl := List.mem_singleton.mp he
    exact named_constant

theorem named_valueOf? {names : Text.CharacterNames} {start : Position} {source : List Char}
    {value : Expr} (hvalue : inner.valueOf? names start source = some value) : value.Named := by
  obtain ⟨tokens, -, hvalue⟩ := Option.bind_eq_some_iff.mp hvalue
  obtain ⟨⟨e, c⟩, hrun, hvalue⟩ := Option.bind_eq_some_iff.mp hvalue
  have he : e.Named := yields_bare h _ _ _ hrun
  dsimp only at hvalue
  split at hvalue
  · cases hvalue
    exact he
  · cases hvalue

theorem named_templateValues {names : Text.CharacterNames} (whole : TextPlace) : (last : TextPlace) → (pending : List Char) →
    (parts : List TemplatePart) → {es : List Expr} →
    inner.templateValues names whole last pending parts = some es → ∀ e ∈ es, e.Named
  | last, pending, [], es, hes => by
    rw [templateValues] at hes
    cases hes
    exact named_textValue last pending
  | last, pending, .text cs :: rest, es, hes => by
    rw [templateValues] at hes
    exact named_templateValues whole last (pending ++ cs) rest hes
  | last, pending, .value _ source start conversion none :: rest, es, hes => by
    rw [templateValues] at hes
    obtain ⟨value, hvalue, hes⟩ := Option.bind_eq_some_iff.mp hes
    obtain ⟨more, hmore, hes⟩ := Option.bind_eq_some_iff.mp hes
    cases hes
    refine List.forall_mem_append.mpr ⟨named_textValue whole pending, List.forall_mem_cons.mpr ⟨?_,
      named_templateValues whole last [] rest hmore⟩⟩
    simpa using named_valueOf? h hvalue
  | last, pending, .value literal source start conversion (some format) :: rest, es, hes => by
    rw [templateValues] at hes
    obtain ⟨value, hvalue, hes⟩ := Option.bind_eq_some_iff.mp hes
    obtain ⟨formats, hformats, hes⟩ := Option.bind_eq_some_iff.mp hes
    obtain ⟨more, hmore, hes⟩ := Option.bind_eq_some_iff.mp hes
    cases hes
    refine List.forall_mem_append.mpr ⟨named_textValue whole pending, List.forall_mem_cons.mpr ⟨?_,
      named_templateValues whole last [] rest hmore⟩⟩
    simpa using ⟨named_valueOf? h hvalue,
      named_templateValues whole ⟨literal, false⟩ [] format hformats⟩

theorem named_joinLiterals? {names : Text.CharacterNames} {range : Range} {hasLetter : Bool}
    {literals : List (Token × StringLiteral)} {e : Expr}
    (he : inner.joinLiterals? names range hasLetter literals = some e) : e.Named := by
  rw [joinLiterals?] at he
  split at he
  · obtain ⟨cs, -, he⟩ := Option.bind_eq_some_iff.mp he
    cases he
    exact named_constant
  split at he
  · cases he
  obtain ⟨parts, -, he⟩ := Option.bind_eq_some_iff.mp he
  split at he
  · obtain ⟨es, hes, he⟩ := Option.bind_eq_some_iff.mp he
    cases he
    exact named_compound.mpr (named_templateValues h _ _ _ _ hes)
  · cases he
    exact named_constant

theorem yields_strings : Yields inner.strings Expr.Named := by
  refine Yields.skip fun start => Yields.skip fun tokens => Yields.skip fun range => Yields.skip fun c => ?_
  dsimp only
  split
  · next e he => exact yields_pure (named_joinLiterals? h he)
  · exact yields_failure

omit h in
theorem yields_number : Yields number Expr.Named := by
  refine Yields.skip fun start => Yields.skip fun t => ?_
  split
  · exact Yields.skip fun r => yields_pure named_constant
  · exact yields_failure

/-! ## Displays -/

theorem yields_elements : Yields (repeated (optional? do expect ","; inner.element))
    fun es => ∀ e ∈ es, e.Named :=
  yields_repeated (yields_optional (Yields.skip fun _ => yields_element h))

theorem yields_parenthesized : Yields inner.parenthesized Expr.Named := by
  refine Yields.skip fun start => Yields.skip fun _ => Yields.skip fun isEmpty => ?_
  split
  · exact Yields.skip fun r => yields_pure (by simp)
  refine Yields.skip fun isYielded => ?_
  split
  · exact (yields_yielded h).bind fun value hvalue => Yields.skip fun _ => yields_pure hvalue
  refine (yields_element h).bind fun first hfirst => Yields.skip fun isTuple => ?_
  split
  · exact (yields_elements h).bind fun rest hrest => Yields.skip fun _ => Yields.skip fun _ =>
      Yields.skip fun r => yields_pure (named_compound.mpr (List.forall_mem_cons.mpr ⟨hfirst, hrest⟩))
  split
  · exact yields_failure
  refine (yields_clauses? h ")").bind fun clauses hclauses => ?_
  split
  · exact Yields.skip fun r => yields_pure (by simpa using ⟨hfirst, hclauses _ rfl⟩)
  · exact Yields.skip fun _ => yields_pure hfirst

theorem yields_listDisplay : Yields inner.listDisplay Expr.Named := by
  refine Yields.skip fun start => Yields.skip fun _ => Yields.skip fun isEmpty => ?_
  split
  · exact Yields.skip fun r => yields_pure (by simp)
  refine (yields_element h).bind fun first hfirst => ?_
  refine yields_either yields_none (yields_clauses? h "]") fun clauses hclauses => ?_
  dsimp only
  split
  · exact Yields.skip fun r => yields_pure (by simpa using ⟨hfirst, hclauses _ rfl⟩)
  · exact (yields_elements h).bind fun rest hrest => Yields.skip fun _ => Yields.skip fun _ =>
      Yields.skip fun r => yields_pure (named_compound.mpr (List.forall_mem_cons.mpr ⟨hfirst, hrest⟩))

theorem yields_entry : Yields inner.entry Entry.Named := by
  refine Yields.skip fun isMapping => ?_
  split
  · exact Yields.map h.operand
  · exact h.expression.bind fun key hkey => Yields.skip fun _ => h.expression.bind fun value hvalue =>
      yields_pure ⟨hkey, hvalue⟩

theorem yields_dictRest {first : Entry} (hfirst : first.Named) :
    Yields (inner.dictRest start first) Expr.Named :=
  (yields_repeated (yields_optional (Yields.skip fun _ => yields_entry h))).bind fun _ hrest =>
    Yields.skip fun _ => Yields.skip fun _ => Yields.skip fun _ =>
      yields_pure (named_dict.mpr (List.forall_mem_cons.mpr ⟨hfirst, hrest⟩))

theorem yields_setRest {first : Expr} (hfirst : first.Named) :
    Yields (inner.setRest start first) Expr.Named :=
  (yields_elements h).bind fun _ hrest => Yields.skip fun _ => Yields.skip fun _ =>
    Yields.skip fun _ => yields_pure (named_compound.mpr (List.forall_mem_cons.mpr ⟨hfirst, hrest⟩))

theorem yields_braced : Yields inner.braced Expr.Named := by
  refine Yields.skip fun start => Yields.skip fun _ => Yields.skip fun isEmpty => ?_
  split
  · exact Yields.skip fun r => yields_pure (by simp)
  refine Yields.skip fun isMapping => ?_
  split
  · exact (yields_entry h).bind fun first hfirst => yields_dictRest h hfirst
  refine Yields.skip fun hasName => (yields_element h).bind fun first hfirst => ?_
  split
  · exact yields_setRest h hfirst
  refine Yields.skip fun hasColon => ?_
  split
  · refine h.expression.bind fun value hvalue => (yields_clauses? h "\x7d").bind
      fun clauses hclauses => ?_
    split
    · exact Yields.skip fun r => yields_pure (by simpa using ⟨⟨hfirst, hvalue⟩, hclauses _ rfl⟩)
    · exact yields_dictRest h ⟨hfirst, hvalue⟩
  · refine (yields_clauses? h "\x7d").bind fun clauses hclauses => ?_
    split
    · exact Yields.skip fun r => yields_pure (by simpa using ⟨hfirst, hclauses _ rfl⟩)
    · exact yields_setRest h hfirst

/-! ## Atoms and primaries -/

theorem yields_atom : Yields inner.atom Expr.Named := by
  refine Yields.skip fun t => ?_
  split
  · exact yields_strings h
  · exact yields_number
  · split
    · exact Yields.skip fun _ => Yields.skip fun r => yields_pure named_constant
    · exact yields_identifier.bind fun id hid => Yields.skip fun r => yields_pure (named_name.mpr hid)
  · split
    · exact yields_parenthesized h
    · exact yields_listDisplay h
    · exact yields_braced h
    · exact Yields.skip fun _ => Yields.skip fun r => yields_pure named_constant
    · exact yields_failure
  · exact yields_failure

theorem yields_trailer? {value : Expr} (hvalue : value.Named) :
    Yields (inner.trailer? start value) fun r => ∀ e ∈ r, e.Named := by
  refine Yields.skip fun isAttribute => ?_
  split
  · exact yields_identifier.bind fun attr hattr => Yields.skip fun r =>
      yields_some (named_attribute.mpr ⟨hattr, hvalue⟩)
  refine Yields.skip fun isCall => ?_
  split
  · exact (yields_arguments h).bind fun (args, keywords) hargs => Yields.skip fun r =>
      yields_some (named_call.mpr ⟨hvalue, hargs⟩)
  refine Yields.skip fun isSubscript => ?_
  split
  · exact (yields_index h).bind fun index hindex => Yields.skip fun _ => Yields.skip fun r =>
      yields_some (named_subscript.mpr ⟨hvalue, hindex⟩)
  · exact yields_none

theorem yields_primaryLevel : Yields inner.primaryLevel Expr.Named :=
  Yields.skip fun _ => (yields_atom h).bind fun _ hfirst =>
    yields_extended (fun _ hvalue => yields_trailer? h hvalue) hfirst

theorem yields_awaited : Yields inner.awaited Expr.Named := by
  refine Yields.skip fun start => Yields.skip fun isAwait => ?_
  split
  · exact (yields_primaryLevel h).bind fun value hvalue => Yields.skip fun r =>
      yields_pure (by simpa using hvalue)
  · exact yields_primaryLevel h

/-! ## Operators -/

theorem yields_power : Yields inner.power Expr.Named := by
  refine Yields.skip fun start => (yields_awaited h).bind fun base hbase => Yields.skip fun isPower => ?_
  split
  · exact h.factor.bind fun exponent hexponent => Yields.skip fun r =>
      yields_pure (by simpa using ⟨hbase, hexponent⟩)
  · exact yields_pure hbase

theorem yields_factorLevel : Yields inner.factorLevel Expr.Named := by
  have hsigned : ∀ (op : UnaryOperator) (start : Position), Yields (do
      let _ ← next
      let value ← inner.factor
      return .compound (← rangeFrom start) (.unary op) [value]) Expr.Named := fun op start =>
    Yields.skip fun _ => h.factor.bind fun value hvalue => Yields.skip fun r =>
      yields_pure (by simpa using hvalue)
  refine Yields.skip fun start => Yields.skip fun isPlus => ?_
  split
  · exact hsigned .plus start
  refine Yields.skip fun isMinus => ?_
  split
  · exact hsigned .minus start
  refine Yields.skip fun isInvert => ?_
  split
  · exact hsigned .invert start
  · exact yields_power h

omit h in
theorem yields_leftJoined (operators : List BinaryOperator) (h : Yields operand Expr.Named) :
    Yields (leftJoined operators operand) Expr.Named := by
  refine Yields.skip fun start => h.bind fun first hfirst => ?_
  refine yields_extended (fun left hleft => Yields.skip fun t => ?_) hfirst
  split
  · exact yields_none
  · exact Yields.skip fun _ => h.bind fun right hright => Yields.skip fun r =>
      yields_some (by simpa using ⟨hleft, hright⟩)

theorem yields_operandLevel : Yields inner.operandLevel Expr.Named := by
  have hlevels : ∀ (levels : List (List BinaryOperator)) {operand : Parse Expr},
      Yields operand Expr.Named →
      Yields (levels.foldl (fun operand operators => leftJoined operators operand) operand)
        Expr.Named := by
    intro levels
    induction levels with
    | nil => exact fun hoperand => hoperand
    | cons operators levels ih => exact fun hoperand => ih (yields_leftJoined operators hoperand)
  exact hlevels operatorLevels (yields_factorLevel h)

theorem yields_comparisons : Yields inner.comparisons Expr.Named := by
  refine Yields.skip fun start => (yields_operandLevel h).bind fun first hfirst => ?_
  refine (yields_repeated (P := fun r : Comparison × Expr => r.2.Named)
    (Yields.skip fun op => ?_)).bind fun rest hrest => ?_
  · split
    · exact yields_none
    · exact (yields_operandLevel h).bind fun value hvalue => yields_some hvalue
  split
  · exact yields_pure hfirst
  · refine Yields.skip fun r => yields_pure (named_compound.mpr (List.forall_mem_cons.mpr ⟨hfirst, ?_⟩))
    exact List.forall_mem_map.mpr hrest

theorem yields_inversionLevel : Yields inner.inversionLevel Expr.Named := by
  refine Yields.skip fun start => Yields.skip fun isNegation => ?_
  split
  · exact h.inversion.bind fun value hvalue => Yields.skip fun r =>
      yields_pure (by simpa using hvalue)
  · exact yields_comparisons h

omit h in
theorem yields_joined (op : BooleanOperator) (h : Yields operand Expr.Named) :
    Yields (joined op operand) Expr.Named := by
  refine Yields.skip fun start => h.bind fun first hfirst => ?_
  refine (yields_repeated (h.behind op.text)).bind fun rest hrest => ?_
  split
  · exact yields_pure hfirst
  · exact Yields.skip fun r => yields_pure (named_compound.mpr (List.forall_mem_cons.mpr ⟨hfirst, hrest⟩))

theorem yields_disjunctionLevel : Yields inner.disjunctionLevel Expr.Named :=
  yields_joined .either (yields_joined .both (yields_inversionLevel h))

theorem yields_expressionLevel : Yields inner.expressionLevel Expr.Named := by
  refine Yields.skip fun start => Yields.skip fun isLambda => ?_
  split
  · exact yields_lambda h
  refine (yields_disjunctionLevel h).bind fun value hvalue => Yields.skip fun isConditional => ?_
  split
  · exact (yields_disjunctionLevel h).bind fun condition hcondition => Yields.skip fun _ =>
      h.expression.bind fun otherwise hotherwise => Yields.skip fun r =>
        yields_pure (by simpa using ⟨hcondition, hvalue, hotherwise⟩)
  · exact yields_pure hvalue

end Readers

/-- **Names in expressions are identifiers**, at every depth. -/
theorem named_ofDepth : (depth : Nat) → (ofDepth depth).Named
  | 0 => ⟨yields_failure, yields_failure, yields_failure, yields_failure, yields_failure,
    yields_failure⟩
  | depth + 1 =>
    have h := named_ofDepth depth
    ⟨yields_expressionLevel h, yields_disjunctionLevel h, yields_inversionLevel h,
      yields_operandLevel h, yields_factorLevel h, yields_primaryLevel h⟩

end Nested

end ModelLint.Source
