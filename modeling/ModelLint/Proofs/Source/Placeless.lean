import ModelLint.Source.Fields

/-!
# Expressions without places

What is read off an expression never depends on where it stands. An expression with all its parts at one
place has the same dotted name, binds the same names and shows the same types; it is written in the same
way.

* `Expr.placeless`: an expression with all its parts at one place.
* `Expr.dotted?_placeless`, `boundNames_placeless`, `annotatedType_placeless`, `likelyType_placeless`.
* **`Expr.written?_placeless`**, `handledTypes_placeless`: what is written of it.
* `Signature.placeless`, `Resource.placeless`: with the expressions of a function's head and of a resource.
-/

namespace ModelLint.Source

mutual

/-- An expression with all its parts at one place. -/
@[simp] def Expr.placeless : Expr → Expr
  | .name _ id => .name default id
  | .constant _ value hasLetter => .constant default value hasLetter
  | .attribute _ value attr => .attribute default value.placeless attr
  | .subscript _ value index => .subscript default value.placeless index.placeless
  | .call _ function args keywords =>
    .call default function.placeless (placelessExprs args) (placelessKeywords keywords)
  | .compound _ form operands => .compound default form (placelessExprs operands)
  | .dict _ entries => .dict default (placelessEntries entries)
  | .walrus _ _ id value => .walrus default default id value.placeless
  | .lambda _ parameters body => .lambda default (placelessParameters parameters) body.placeless
  | .comprehension _ kind elements first rest =>
    .comprehension default kind (placelessExprs elements) first.placeless (placelessClauses rest)

/-- Expressions with all their parts at one place. -/
@[simp] def placelessExprs : List Expr → List Expr
  | [] => []
  | e :: es => e.placeless :: placelessExprs es

/-- An expression, if there is one, with all its parts at one place. -/
@[simp] def placelessExpr? : Option Expr → Option Expr
  | none => none
  | some e => some e.placeless

/-- Arguments by name with all their parts at one place. -/
@[simp] def placelessKeywords : List Keyword → List Keyword
  | [] => []
  | .mk name value :: rest => .mk name value.placeless :: placelessKeywords rest

/-- The entries of a dictionary with all their parts at one place. -/
@[simp] def placelessEntries : List Entry → List Entry
  | [] => []
  | .pair key value :: rest => .pair key.placeless value.placeless :: placelessEntries rest
  | .unpack value :: rest => .unpack value.placeless :: placelessEntries rest

/-- A parameter with all its parts at one place. -/
@[simp] def Parameter.placeless : Parameter → Parameter
  | .mk kind name typeHint value => .mk kind name (placelessExpr? typeHint) (placelessExpr? value)

/-- Parameters with all their parts at one place. -/
@[simp] def placelessParameters : List Parameter → List Parameter
  | [] => []
  | p :: rest => p.placeless :: placelessParameters rest

/-- A loop of a comprehension with all its parts at one place. -/
@[simp] def Clause.placeless : Clause → Clause
  | .mk isAsync target source conditions =>
    .mk isAsync target.placeless source.placeless (placelessExprs conditions)

/-- Loops of a comprehension with all their parts at one place. -/
@[simp] def placelessClauses : List Clause → List Clause
  | [] => []
  | clause :: rest => clause.placeless :: placelessClauses rest

end

theorem placelessExprs_eq (es : List Expr) : placelessExprs es = es.map Expr.placeless := by
  induction es with
  | nil => rfl
  | cons e es ih => rw [placelessExprs, ih, List.map_cons]

/-! ## Names and types -/

namespace Expr

@[simp] theorem dotted?_placeless : (e : Expr) → e.placeless.dotted? = e.dotted?
  | .name _ _ | .constant _ _ _ | .subscript _ _ _ | .call _ _ _ _ | .compound _ _ _ | .dict _ _
  | .walrus _ _ _ _ | .lambda _ _ _ | .comprehension _ _ _ _ _ => rfl
  | .attribute _ value _ => by rw [placeless, dotted?, dotted?_placeless value, dotted?]

@[simp] theorem name?_placeless (e : Expr) : e.placeless.name? = e.name? := by
  cases e <;> rfl

@[simp] theorem callee_placeless (e : Expr) : e.placeless.callee = e.callee.placeless := by
  cases e <;> rfl

mutual

@[simp] theorem boundNames_placeless (e : Expr) : e.placeless.boundNames = e.boundNames := by
  rcases e with _ | _ | _ | _ | _ | ⟨r, form, es⟩ | _ | _ | _ | _
  case compound =>
    have hes := boundNamesOf_placeless es
    cases form
    case tuple | list => simpa only [placeless, boundNames] using hes
    case starred =>
      rcases es with _ | ⟨e, _ | ⟨e', es⟩⟩
      · rfl
      · exact boundNames_placeless e
      · rfl
    all_goals rfl
  all_goals rfl

@[simp] theorem boundNamesOf_placeless (es : List Expr) :
    boundNamesOf (placelessExprs es) = boundNamesOf es := by
  rcases es with _ | ⟨e, es⟩
  · rfl
  · rw [placelessExprs, boundNamesOf, boundNames_placeless e, boundNamesOf_placeless es, boundNamesOf]

end

@[simp] theorem likelyType_placeless (e : Expr) : e.placeless.likelyType = e.likelyType := by
  rcases e with _ | _ | _ | _ | _ | ⟨r, form, es⟩ | _ | _ | _ | ⟨r, kind, elements, first, rest⟩
  case call function _ _ => rw [placeless, likelyType, dotted?_placeless, likelyType]
  case comprehension => cases kind <;> rfl
  case compound =>
    cases form
    case await =>
      rcases es with _ | ⟨e, _ | ⟨e', es⟩⟩
      · rfl
      · exact likelyType_placeless e
      · rfl
    all_goals rfl
  all_goals rfl

theorem eq_compound_of_placeless {e : Expr} {r : Range} {form : Form} {es : List Expr}
    (h : e.placeless = .compound r form es) :
    ∃ r' es', e = .compound r' form es' ∧ placelessExprs es' = es := by
  rcases e with _ | _ | _ | _ | _ | ⟨r', form', es'⟩ | _ | _ | _ | _
  case compound =>
    obtain ⟨-, rfl, rfl⟩ := Expr.compound.inj h
    exact ⟨r', es', rfl, rfl⟩
  all_goals cases h

theorem ne_tuple_placeless {index : Expr}
    (h : ∀ (r : Range) (e : Expr) (es : List Expr), index = .compound r .tuple (e :: es) → False)
    (r : Range) (e : Expr) (es : List Expr) (heq : index.placeless = .compound r .tuple (e :: es)) : False := by
  obtain ⟨r', _ | ⟨e', es'⟩, rfl, hes⟩ := eq_compound_of_placeless heq
  · cases hes
  · exact h _ _ _ rfl

@[simp] theorem annotatedType_placeless (e : Expr) : e.placeless.annotatedType = e.annotatedType := by
  fun_induction annotatedType e
  case case5 hindex type hbase hlast ih =>
    rw [placeless, annotatedType.eq_3 _ _ _ (ne_tuple_placeless hindex)]
    simp only [dotted?_placeless, hbase, hlast, if_true, ih]
  case case6 hindex type hbase hlast =>
    rw [placeless, annotatedType.eq_3 _ _ _ (ne_tuple_placeless hindex)]
    simp only [dotted?_placeless, hbase, if_neg hlast]
  case case7 hindex hbase =>
    rw [placeless, annotatedType.eq_3 _ _ _ (ne_tuple_placeless hindex)]
    simp only [dotted?_placeless, hbase]
  case case13 e hstr _ _ hor _ _ =>
    rcases e with _ | ⟨_, value, _⟩ | _ | _ | _ | ⟨_, form, es⟩ | _ | _ | _ | _
    case constant =>
      rcases value with v | _ | _ | _
      case data =>
        cases v
        case str => exact (hstr _ _ _ rfl).elim
        all_goals rfl
      all_goals rfl
    case compound =>
      rcases form with op | _ | _ | _ | _ | _ | _ | _ | _ | _ | _ | _ | _ | _ | _
      case binary =>
        cases op
        case bitOr =>
          rcases es with _ | ⟨left, _ | ⟨right, _ | ⟨_, _⟩⟩⟩
          case cons.cons.nil => exact (hor _ _ _ rfl).elim
          all_goals rfl
        all_goals rfl
      all_goals rfl
    all_goals simp_all [annotatedType]
  all_goals simp_all [annotatedType]

/-! ## Written forms -/

theorem needsBlank_placeless (e : Expr) : needsBlank e.placeless = needsBlank e := by
  rcases e with _ | ⟨_, value, _⟩ | _ | _ | _ | _ | _ | _ | _ | _
  case constant =>
    rcases value with v | _ | _ | _
    case data => cases v <;> rfl
    all_goals rfl
  all_goals rfl

theorem parametersText_placeless (defaults : List (Option String)) (parameters : List Parameter) :
    parametersText (placelessParameters parameters) defaults = parametersText parameters defaults := by
  have hmap : ∀ f : Parameter × Option String → ParameterKind × String,
      (∀ p d, f (p.placeless, d) = f (p, d)) →
        ((placelessParameters parameters).zip defaults).map f = (parameters.zip defaults).map f := by
    intro f hf
    induction parameters generalizing defaults with
    | nil => rfl
    | cons p ps ih =>
      rcases defaults with _ | ⟨d, ds⟩
      · rfl
      · rw [placelessParameters, List.zip_cons_cons, List.map_cons, hf, ih, List.zip_cons_cons,
          List.map_cons]
  simp only [parametersText]
  rw [hmap _ (by rintro ⟨kind, name, typeHint, value⟩ d; rfl)]

theorem writtenPart_constant (r r' : Range) (value : Constant) (hasLetter : Bool) :
    writtenPart (.constant r value hasLetter) = writtenPart (.constant r' value hasLetter) := by
  rcases value with v | _ | _ | _
  case data => cases v <;> rfl
  all_goals rfl

mutual

theorem writtenIn_placeless (avoids : Bool) (strength : Strength) : (e : Expr) →
    writtenIn avoids strength e.placeless = writtenIn avoids strength e
  | .name _ _ | .constant _ _ _ => rfl
  | .attribute _ value _ => by
    rw [placeless, writtenIn, writtenIn_placeless avoids _ value, needsBlank_placeless, writtenIn]
  | .subscript _ value index => by
    have hvalue := writtenIn_placeless avoids .atom value
    by_cases hindex : ∀ (r : Range) (e : Expr) (es : List Expr), index ≠ .compound r .tuple (e :: es)
    · rw [placeless, writtenIn.eq_5 _ _ _ _ _ (ne_tuple_placeless hindex), hvalue,
        writtenIn_placeless avoids .test index, writtenIn.eq_5 _ _ _ _ _ hindex]
    · obtain ⟨r, e, es, rfl⟩ : ∃ r e es, index = .compound r .tuple (e :: es) :=
        Classical.not_forall_not.mp fun h => hindex fun r e es heq => h r ⟨e, es, heq⟩
      simp only [placeless, placelessExprs, writtenIn, hvalue, writtenIn_placeless avoids _ e,
        writtenAll_placeless avoids _ es]
  | .call _ function args keywords => by
    rw [placeless, writtenIn, writtenIn_placeless avoids _ function, writtenAll_placeless avoids _ args,
      writtenKeywords_placeless avoids keywords, writtenIn]
  | .dict _ entries => by
    rw [placeless, writtenIn, writtenEntries_placeless avoids entries, writtenIn]
  | .walrus _ _ _ value => by
    rw [placeless, writtenIn, writtenIn_placeless avoids _ value, writtenIn]
  | .lambda _ parameters body => by
    rw [placeless, writtenIn, writtenDefaults_placeless avoids parameters, writtenIn_placeless avoids _ body, writtenIn]
    simp only [parametersText_placeless]
  | .comprehension _ kind elements first rest => by
    rw [placeless, writtenIn, writtenAll_placeless avoids _ elements, writtenClause_placeless avoids first,
      writtenClauses_placeless avoids rest, writtenIn]
  | .compound r form es => by
    have hall := fun strength => writtenAll_placeless avoids strength es
    have hrising := fun strength => writtenRising_placeless avoids strength es
    have hparts := writtenParts_placeless es
    cases form
    case binary =>
      rcases es with _ | ⟨left, _ | ⟨right, _ | ⟨_, _⟩⟩⟩
      case cons.cons.nil =>
        simp only [placeless, placelessExprs, writtenIn, writtenIn_placeless avoids _ left,
          writtenIn_placeless avoids _ right]
      all_goals rfl
    case conditional =>
      rcases es with _ | ⟨condition, _ | ⟨value, _ | ⟨otherwise, _ | ⟨_, _⟩⟩⟩⟩
      case cons.cons.cons.nil =>
        simp only [placeless, placelessExprs, writtenIn, writtenIn_placeless avoids _ condition,
          writtenIn_placeless avoids _ value, writtenIn_placeless avoids _ otherwise]
      all_goals rfl
    case unary | starred | await | yieldFrom =>
      rcases es with _ | ⟨e, _ | ⟨_, _⟩⟩
      case cons.nil => simp only [placeless, placelessExprs, writtenIn, writtenIn_placeless avoids _ e]
      all_goals rfl
    case tuple =>
      have hempty : (placelessExprs es).isEmpty = es.isEmpty := by cases es <;> rfl
      simp only [placeless, writtenIn, hall, hempty]
    case formatted => rfl
    all_goals simp only [placeless, writtenIn, hall, hrising, hparts]
termination_by x => sizeOf x

theorem writtenAll_placeless (avoids : Bool) (strength : Strength) : (es : List Expr) →
    writtenAll avoids strength (placelessExprs es) = writtenAll avoids strength es
  | [] => rfl
  | e :: es => by
    rw [placelessExprs, writtenAll, writtenIn_placeless avoids strength e, writtenAll_placeless avoids strength es,
      writtenAll]
termination_by x => sizeOf x

theorem writtenRising_placeless (avoids : Bool) (strength : Strength) : (es : List Expr) →
    writtenRising avoids strength (placelessExprs es) = writtenRising avoids strength es
  | [] => rfl
  | e :: es => by
    rw [placelessExprs, writtenRising, writtenIn_placeless avoids strength e,
      writtenRising_placeless avoids strength.tighter es, writtenRising]
termination_by x => sizeOf x

theorem writtenKeywords_placeless (avoids : Bool) : (keywords : List Keyword) →
    writtenKeywords avoids (placelessKeywords keywords) = writtenKeywords avoids keywords
  | [] => rfl
  | .mk _ value :: rest => by
    rw [placelessKeywords, writtenKeywords, writtenIn_placeless avoids _ value, writtenKeywords_placeless avoids rest,
      writtenKeywords]
termination_by x => sizeOf x

theorem writtenEntries_placeless (avoids : Bool) : (entries : List Entry) →
    writtenEntries avoids (placelessEntries entries) = writtenEntries avoids entries
  | [] => rfl
  | .pair key value :: rest => by
    rw [placelessEntries, writtenEntries, writtenIn_placeless avoids _ key, writtenIn_placeless avoids _ value,
      writtenEntries_placeless avoids rest, writtenEntries]
  | .unpack value :: rest => by
    rw [placelessEntries, writtenEntries, writtenIn_placeless avoids _ value, writtenEntries_placeless avoids rest,
      writtenEntries]
termination_by x => sizeOf x

theorem writtenDefaults_placeless (avoids : Bool) : (parameters : List Parameter) →
    writtenDefaults avoids (placelessParameters parameters) = writtenDefaults avoids parameters
  | [] => rfl
  | .mk _ _ _ none :: rest => by
    rw [placelessParameters, Parameter.placeless, placelessExpr?, writtenDefaults,
      writtenDefaults_placeless avoids rest, writtenDefaults]
  | .mk _ _ _ (some value) :: rest => by
    rw [placelessParameters, Parameter.placeless, placelessExpr?, writtenDefaults,
      writtenIn_placeless avoids _ value, writtenDefaults_placeless avoids rest, writtenDefaults]
termination_by x => sizeOf x

theorem writtenClause_placeless (avoids : Bool) : (clause : Clause) →
    writtenClause avoids clause.placeless = writtenClause avoids clause
  | .mk _ target source conditions => by
    rw [Clause.placeless, writtenClause, writtenIn_placeless avoids _ target, writtenIn_placeless avoids _ source,
      writtenAll_placeless avoids _ conditions, writtenClause]
termination_by x => sizeOf x

theorem writtenClauses_placeless (avoids : Bool) : (clauses : List Clause) →
    writtenClauses avoids (placelessClauses clauses) = writtenClauses avoids clauses
  | [] => rfl
  | clause :: rest => by
    rw [placelessClauses, writtenClauses, writtenClause_placeless avoids clause, writtenClauses_placeless avoids rest,
      writtenClauses]
termination_by x => sizeOf x

theorem writtenPart_placeless : (e : Expr) → writtenPart e.placeless = writtenPart e
  | .compound _ form es => by
    cases form
    case formatted =>
      rcases es with _ | ⟨value, format⟩
      · rfl
      · simp only [placeless, placelessExprs, writtenPart, writtenIn_placeless true _ value,
          writtenFormat_placeless format]
    all_goals rfl
  | .constant _ value hasLetter => writtenPart_constant _ _ value hasLetter
  | .name _ _ | .attribute _ _ _ | .subscript _ _ _ | .call _ _ _ _ | .dict _ _ | .walrus _ _ _ _
  | .lambda _ _ _ | .comprehension _ _ _ _ _ => rfl
termination_by x => sizeOf x

theorem writtenFormat_placeless : (es : List Expr) →
    writtenFormat (placelessExprs es) = writtenFormat es
  | [] => rfl
  | .compound _ form values :: _ => by
    cases form
    case template =>
      simp only [placelessExprs, placeless, writtenFormat, writtenParts_placeless values]
    all_goals rfl
  | .constant _ _ _ :: _ | .name _ _ :: _ | .attribute _ _ _ :: _ | .subscript _ _ _ :: _
  | .call _ _ _ _ :: _ | .dict _ _ :: _ | .walrus _ _ _ _ :: _ | .lambda _ _ _ :: _
  | .comprehension _ _ _ _ _ :: _ => rfl
termination_by x => sizeOf x

theorem writtenParts_placeless : (es : List Expr) → writtenParts (placelessExprs es) = writtenParts es
  | [] => rfl
  | e :: es => by
    rw [placelessExprs, writtenParts, writtenPart_placeless e, writtenParts_placeless es, writtenParts]
termination_by x => sizeOf x

end

/-- **An expression is written in the same way** wherever it stands. -/
@[simp] theorem written?_placeless (e : Expr) : e.placeless.written? = e.written? :=
  writtenIn_placeless false .test e

theorem mapM_written?_placeless (es : List Expr) :
    ((placelessExprs es).mapM fun e => e.dotted?.or e.written?) =
      es.mapM fun e => e.dotted?.or e.written? := by
  induction es with
  | nil => rfl
  | cons e es ih =>
    rw [placelessExprs, List.mapM_cons, ih, List.mapM_cons, dotted?_placeless, written?_placeless]

@[simp] theorem handledTypes_placeless (type : Option Expr) :
    handledTypes (placelessExpr? type) = handledTypes type := by
  rcases type with _ | e
  · rfl
  · rw [placelessExpr?]
    by_cases htuple : ∃ r es, e = .compound r .tuple es
    · obtain ⟨r, es, rfl⟩ := htuple
      exact mapM_written?_placeless es
    · have hne : ∀ r es, e.placeless = .compound r .tuple es → False := fun r es h => by
        obtain ⟨r', es', rfl, -⟩ := eq_compound_of_placeless h
        exact htuple ⟨r', es', rfl⟩
      rw [handledTypes.eq_3 _ hne, handledTypes.eq_3 _ fun r es h => htuple ⟨r, es, h⟩,
        dotted?_placeless, written?_placeless]

end Expr

/-! ## Heads of functions -/

/-- The head of a function with all its parts at one place. -/
@[simp] def Signature.placeless (s : Signature) : Signature :=
  { s with parameters := placelessParameters s.parameters, decorators := placelessExprs s.decorators }

@[simp] theorem decoratorNames_placeless (s : Signature) :
    s.placeless.decoratorNames = s.decoratorNames := by
  simp only [Signature.decoratorNames, Signature.placeless]
  induction s.decorators with
  | nil => rfl
  | cons e es ih =>
    simp only [placelessExprs, List.filterMap_cons, Expr.callee_placeless, Expr.dotted?_placeless]
    split
    · exact ih
    · rw [List.map_cons, ih, List.map_cons]

theorem isPositional_placeless (p : Parameter) : p.placeless.isPositional = p.isPositional := by
  cases p
  rfl

theorem name_placeless (p : Parameter) : p.placeless.name = p.name := by
  cases p
  rfl

theorem find?_isPositional_placeless (ps : List Parameter) :
    ((placelessParameters ps).find? Parameter.isPositional).map Parameter.name =
      (ps.find? Parameter.isPositional).map Parameter.name := by
  induction ps with
  | nil => rfl
  | cons p ps ih =>
    rw [placelessParameters, List.find?_cons, List.find?_cons, isPositional_placeless]
    cases p.isPositional
    · exact ih
    · exact congrArg some (name_placeless p)

/-! ## Resources -/

/-- A resource with all its parts at one place. -/
@[simp] def Resource.placeless (r : Resource) : Resource :=
  ⟨r.context.placeless, placelessExpr? r.target⟩

end ModelLint.Source
