import ModelLint.Proofs.Source.Occurrences
import ModelLint.Proofs.Source.OwnFields
import ModelLint.Proofs.Source.Placeless

/-!
# Statements with one resource at a time

A `with` statement of several resources stands for statements inside each other, each with one of them.
`Stmt.spread` writes it so, where it is told to, and puts everything at one place. Statements are written
differently, but say the same, if they can be spread into the same.

* `Resource.isPlain`: a resource that is bound to a name or to nothing and binds no name on the way.
* `Stmt.spread`, `spreadAll`: statements with one resource at a time. **`spread_withResources`**: what that is
  for.
* `moduleBindings_spread`: a module binds the same names, in the same order.
* `fieldsOf`, **`KeepFields`**: the fields of a class may differ, as its methods are searched level by level;
  a statement inside others is found later. `keepFields_nowhere`: not where nothing is split.
-/

namespace ModelLint.Source

/-! ## One resource at a time -/

/-- Whether a resource is bound to a name or to nothing and binds no name on the way. -/
def Resource.isPlain (r : Resource) : Bool :=
  r.context.walruses.isEmpty &&
    match r.target with
    | none | some (.name _ _) => true
    | some _ => false

/-- The statements inside each other that use one resource each, the first one outermost. -/
def nest : List Resource → List Stmt → Stmt
  | [], body => .withResources default [] body
  | [r], body => .withResources default [r] body
  | r :: rest, body => .withResources default [r] [nest rest body]

mutual

/-- **A statement with one resource at a time**, at one place: a `with` statement of plain resources is
written as statements inside each other, if it is to be split where it stands. -/
def Stmt.spread (split : Range → Bool) : Stmt → Stmt
  | .function _ signature body => .function default signature.placeless (spreadAll split body)
  | .classType _ name bases body => .classType default name (placelessExprs bases) (spreadAll split body)
  | .returnValue _ value => .returnValue default (placelessExpr? value)
  | .assign _ targets value => .assign default (placelessExprs targets) value.placeless
  | .augment _ target op value => .augment default target.placeless op value.placeless
  | .annotate _ target typeHint value =>
    .annotate default target.placeless typeHint.placeless (placelessExpr? value)
  | .forEach _ isAsync target source body orElse =>
    .forEach default isAsync target.placeless source.placeless (spreadAll split body) (spreadAll split orElse)
  | .whileLoop _ condition body orElse =>
    .whileLoop default condition.placeless (spreadAll split body) (spreadAll split orElse)
  | .choose _ condition body orElse =>
    .choose default condition.placeless (spreadAll split body) (spreadAll split orElse)
  | .withResources r resources body =>
    if split r && resources.all Resource.isPlain then
      nest (resources.map Resource.placeless) (spreadAll split body)
    else .withResources default (resources.map Resource.placeless) (spreadAll split body)
  | .matchCases _ subject cases => .matchCases default subject.placeless (spreadCases split cases)
  | .throwError _ error cause => .throwError default (placelessExpr? error) (placelessExpr? cause)
  | .guarded _ body handlers orElse finalBody =>
    .guarded default (spreadAll split body) (spreadHandlers split handlers) (spreadAll split orElse)
      (spreadAll split finalBody)
  | .imports _ names => .imports default names
  | .globals _ names => .globals default names
  | .nonlocals _ names => .nonlocals default names
  | .expr _ value => .expr default value.placeless
  | .simple _ word operands => .simple default word (placelessExprs operands)

/-- Statements with one resource at a time. -/
def spreadAll (split : Range → Bool) : List Stmt → List Stmt
  | [] => []
  | s :: rest => s.spread split :: spreadAll split rest

/-- Cases with one resource at a time. -/
def spreadCases (split : Range → Bool) : List (List Stmt) → List (List Stmt)
  | [] => []
  | body :: rest => spreadAll split body :: spreadCases split rest

/-- Handlers with one resource at a time. -/
def spreadHandlers (split : Range → Bool) : List Handler → List Handler
  | [] => []
  | .mk _ type name body :: rest =>
    .mk default (placelessExpr? type) name (spreadAll split body) :: spreadHandlers split rest

end

variable {r r' : Range} {split : Range → Bool} {body : List Stmt}

theorem exists_nest (resources : List Resource) (body : List Stmt) :
    ∃ first inner, nest resources body = .withResources default first inner := by
  rcases resources with _ | ⟨first, _ | ⟨second, rest⟩⟩
  · exact ⟨[], body, rfl⟩
  · exact ⟨[first], body, rfl⟩
  · exact ⟨[first], [nest (second :: rest) body], rfl⟩

theorem exists_spread_withResources (r : Range) (resources : List Resource) (body : List Stmt) :
    ∃ first inner,
      (Stmt.withResources r resources body).spread split = .withResources default first inner := by
  rw [Stmt.spread]
  split
  · exact exists_nest _ _
  · exact ⟨_, _, rfl⟩

theorem spread_nest : (resources : List Resource) → (nest resources body).spread split =
    nest (resources.map Resource.placeless) (spreadAll split body)
  | [] => by
    rw [nest, Stmt.spread]
    split <;> rfl
  | [_] => by
    rw [nest, Stmt.spread]
    split <;> rfl
  | first :: second :: rest => by
    have hinner : spreadAll split [nest (second :: rest) body] =
        [nest ((second :: rest).map Resource.placeless) (spreadAll split body)] := by
      rw [spreadAll, spread_nest (second :: rest), spreadAll]
    rw [nest, Stmt.spread, hinner]
    · split <;> rfl
    · exact List.cons_ne_nil _ _

/-- **A statement of plain resources says the same as the statements inside each other** that it stands
for. -/
theorem spread_withResources {resources : List Resource} (hr : split r = true)
    (hplain : resources.all Resource.isPlain = true) :
    (Stmt.withResources r resources body).spread split = (nest resources body).spread split := by
  rw [spread_nest, Stmt.spread, hr, hplain]
  rfl

/-! ## Bindings -/

/-- A binding at one place. -/
@[simp] def Binding.placeless (b : Binding) : Binding := { b with range := default }

theorem assignedBindings_placeless (r r' : Range) (targets : List Expr) (value : Expr) :
    (assignedBindings r' (placelessExprs targets) value.placeless).map Binding.placeless =
      (assignedBindings r targets value).map Binding.placeless := by
  simp only [assignedBindings, Expr.boundNamesOf_placeless, List.map_map]
  refine List.map_congr_left fun name _ => ?_
  rcases targets with _ | ⟨(_ | _), _ | ⟨_, _⟩⟩ <;> simp

theorem declaredType_placeless (typeHint value : Option Expr) :
    declaredType (placelessExpr? typeHint) (placelessExpr? value) = declaredType typeHint value := by
  cases typeHint <;> cases value <;> simp [declaredType]

theorem annotatedBindings_placeless (r r' : Range) (target typeHint : Expr) (value : Option Expr) :
    (annotatedBindings r' target.placeless typeHint.placeless (placelessExpr? value)).map
        Binding.placeless =
      (annotatedBindings r target typeHint value).map Binding.placeless := by
  have htype := declaredType_placeless (some typeHint) value
  rw [placelessExpr?] at htype
  simp only [annotatedBindings, Expr.boundNames_placeless, htype, List.map_map]
  rfl

theorem map_isNested {bs bs' : List Binding} (isNested : Bool)
    (h : bs'.map Binding.placeless = bs.map Binding.placeless) :
    (bs'.map fun b => { b with isNested }).map Binding.placeless =
      (bs.map fun b => { b with isNested }).map Binding.placeless := by
  have hmap : ∀ bs : List Binding, (bs.map fun b => { b with isNested }).map Binding.placeless =
      (bs.map Binding.placeless).map fun b => { b with isNested } := fun bs => by
    rw [List.map_map, List.map_map]
    rfl
  rw [hmap, h, ← hmap]

theorem moduleBindings_nest (isNested : Bool) (resources : List Resource) :
    moduleBindings isNested (nest resources body) = moduleBindingsOf true body := by
  induction resources generalizing isNested with
  | nil => rfl
  | cons first rest ih =>
    rcases rest with _ | ⟨second, rest⟩
    · rfl
    · rw [nest, moduleBindings, moduleBindingsOf, ih, moduleBindingsOf, List.append_nil]
      exact List.cons_ne_nil _ _

mutual

/-- **A module binds the same names**, in the same order and with the same types. -/
theorem moduleBindings_spread : (isNested : Bool) → (s : Stmt) →
    (moduleBindings isNested (s.spread split)).map Binding.placeless =
      (moduleBindings isNested s).map Binding.placeless
  | _, .imports _ _ => by
    rw [Stmt.spread, moduleBindings, moduleBindings, List.map_map, List.map_map]
    rfl
  | isNested, .assign r targets value =>
    map_isNested isNested (assignedBindings_placeless r default targets value)
  | isNested, .annotate r target typeHint value =>
    map_isNested isNested (annotatedBindings_placeless r default target typeHint value)
  | _, .forEach _ _ _ _ body orElse | _, .whileLoop _ _ body orElse | _, .choose _ _ body orElse => by
    simp only [Stmt.spread, moduleBindings, List.map_append, moduleBindingsOf_spread true body,
      moduleBindingsOf_spread true orElse]
  | _, .withResources _ resources body => by
    rw [Stmt.spread]
    split
    · rw [moduleBindings_nest, moduleBindingsOf_spread true body, moduleBindings]
    · exact moduleBindingsOf_spread true body
  | _, .matchCases _ _ cases => moduleBindingsOfCases_spread cases
  | _, .guarded _ body handlers orElse finalBody => by
    simp only [Stmt.spread, moduleBindings, List.map_append, moduleBindingsOf_spread true body,
      moduleBindingsOf_spread true orElse, moduleBindingsOf_spread true finalBody,
      moduleBindingsOfHandlers_spread handlers]
  | _, .function _ _ _ | _, .classType _ _ _ _ | _, .returnValue _ _ | _, .augment _ _ _ _
  | _, .throwError _ _ _ | _, .globals _ _ | _, .nonlocals _ _ | _, .expr _ _ | _, .simple _ _ _ => rfl

theorem moduleBindingsOf_spread : (isNested : Bool) → (body : List Stmt) →
    (moduleBindingsOf isNested (spreadAll split body)).map Binding.placeless =
      (moduleBindingsOf isNested body).map Binding.placeless
  | _, [] => rfl
  | isNested, s :: rest => by
    rw [spreadAll, moduleBindingsOf, moduleBindingsOf, List.map_append, List.map_append,
      moduleBindings_spread isNested s, moduleBindingsOf_spread isNested rest]

theorem moduleBindingsOfCases_spread : (cases : List (List Stmt)) →
    (moduleBindingsOfCases (spreadCases split cases)).map Binding.placeless =
      (moduleBindingsOfCases cases).map Binding.placeless
  | [] => rfl
  | body :: rest => by
    rw [spreadCases, moduleBindingsOfCases, moduleBindingsOfCases, List.map_append, List.map_append,
      moduleBindingsOf_spread true body, moduleBindingsOfCases_spread rest]

theorem moduleBindingsOfHandlers_spread : (handlers : List Handler) →
    (moduleBindingsOfHandlers (spreadHandlers split handlers)).map Binding.placeless =
      (moduleBindingsOfHandlers handlers).map Binding.placeless
  | [] => rfl
  | .mk _ _ _ body :: rest => by
    rw [spreadHandlers, moduleBindingsOfHandlers, moduleBindingsOfHandlers, List.map_append,
      List.map_append, moduleBindingsOf_spread true body, moduleBindingsOfHandlers_spread rest]

end

/-! ## Fields -/

theorem add_placeless (fields : List Field) (b : Binding) :
    (Field.add fields b).map Binding.placeless =
      Field.add (fields.map Binding.placeless) b.placeless := by
  have hany : ((fields.map Binding.placeless).any fun f => f.name = b.placeless.name) =
      fields.any fun f => f.name = b.name := by
    rw [List.any_map]
    rfl
  rw [Field.add, Field.add, hany]
  split
  · rw [List.map_map, List.map_map]
    refine List.map_congr_left fun f _ => ?_
    by_cases hname : f.name = b.name <;> simp [hname]
  · rw [List.map_append]
    rfl

/-- Bindings at one place have the same fields, at one place. -/
theorem ofBindings_placeless (bindings : List Binding) :
    (Field.ofBindings bindings).map Binding.placeless =
      Field.ofBindings (bindings.map Binding.placeless) := by
  have hfold : ∀ (bs : List Binding) (fields : List Field),
      (bs.foldl Field.add fields).map Binding.placeless =
        (bs.map Binding.placeless).foldl Field.add (fields.map Binding.placeless) := by
    intro bs
    induction bs with
    | nil => exact fun _ => rfl
    | cons b bs ih =>
      intro fields
      rw [List.foldl_cons, ih, add_placeless, List.map_cons, List.foldl_cons]
  exact hfold bindings []

/-- The fields of a class with the given body, at one place. -/
def fieldsOf (body : List Stmt) : List Field :=
  (Field.ofBindings (classBindings body)).map Binding.placeless

/-- The fields of a statement that is a class, at one place. -/
def Stmt.ownFields : Stmt → List Field
  | .classType _ _ _ body => fieldsOf body
  | _ => []

/-- **A class has the same fields** with one resource at a time: the same names in the same order, with
the same types. -/
def Stmt.KeepsFields (split : Range → Bool) (s : Stmt) : Prop := (s.spread split).ownFields = s.ownFields

/-- All classes in some levels of statements have the same fields. -/
def KeepFields (split : Range → Bool) (levels : List (List Stmt)) : Prop :=
  ∀ s ∈ levels.flatten, s.KeepsFields split

theorem keepFields_cons {stmts : List Stmt} {levels : List (List Stmt)} :
    KeepFields split (stmts :: levels) ↔ (∀ s ∈ stmts, s.KeepsFields split) ∧ KeepFields split levels := by
  simp only [KeepFields, List.flatten_cons, List.mem_append, or_imp, forall_and]

theorem keepFields_sideBySide {levels levels' : List (List Stmt)} :
    KeepFields split (sideBySide levels levels') ↔ KeepFields split levels ∧ KeepFields split levels' := by
  simp only [KeepFields, mem_flatten_sideBySide, or_imp, forall_and]

deriving instance DecidableEq for Binding

instance (s : Stmt) : Decidable (s.KeepsFields split) := inferInstanceAs (Decidable (_ = _))

instance (levels : List (List Stmt)) : Decidable (KeepFields split levels) :=
  inferInstanceAs (Decidable (∀ s ∈ levels.flatten, s.KeepsFields split))

/-! ## Nothing split -/

/-- No statement is to be split. -/
def nowhere (_ : Range) : Bool := false

theorem spread_withResources_nowhere (resources : List Resource) :
    (Stmt.withResources r resources body).spread nowhere =
      .withResources default (resources.map Resource.placeless) (spreadAll nowhere body) := by
  rw [Stmt.spread, nowhere, Bool.false_and]
  rfl

theorem spreadAll_eq_map (body : List Stmt) : spreadAll split body = body.map fun s => s.spread split := by
  induction body with
  | nil => rfl
  | cons s body ih => rw [spreadAll, ih, List.map_cons]

theorem spreadAll_append (as bs : List Stmt) :
    spreadAll split (as ++ bs) = spreadAll split as ++ spreadAll split bs := by
  simp only [spreadAll_eq_map, List.map_append]

theorem map_spreadAll_sideBySide : (as bs : List (List Stmt)) →
    (sideBySide as bs).map (spreadAll split) =
      sideBySide (as.map (spreadAll split)) (bs.map (spreadAll split))
  | [], _ => by
    rw [sideBySide, List.map_nil, sideBySide]
  | _ :: _, [] => rfl
  | a :: as, b :: bs => by
    rw [sideBySide, List.map_cons, spreadAll_append, map_spreadAll_sideBySide as bs, List.map_cons,
      List.map_cons, sideBySide]

mutual

/-- Where nothing is split, all statements stay as deep as they are. -/
theorem levels_spread_nowhere : (s : Stmt) →
    levels (s.spread nowhere) = (levels s).map (spreadAll nowhere)
  | .function _ _ body | .classType _ _ _ body => by
    rw [Stmt.spread, levels, levels, levelsOf_spread_nowhere body]
    rfl
  | .withResources _ _ body => by
    rw [spread_withResources_nowhere, levels, levels, levelsOf_spread_nowhere body, List.map_cons, spreadAll,
      spreadAll, spread_withResources_nowhere]
  | .forEach _ _ _ _ body orElse | .whileLoop _ _ body orElse | .choose _ _ body orElse => by
    rw [Stmt.spread, levels, levels, levelsOf_spread_nowhere body, levelsOf_spread_nowhere orElse,
      ← map_spreadAll_sideBySide]
    rfl
  | .matchCases _ _ cases => by
    rw [Stmt.spread, levels, levels, levelsOfCases_spread_nowhere cases]
    rfl
  | .guarded _ body handlers orElse finalBody => by
    simp only [Stmt.spread, levels, levelsOf_spread_nowhere body, levelsOf_spread_nowhere orElse,
      levelsOf_spread_nowhere finalBody, levelsOfHandlers_spread_nowhere handlers, List.map_cons,
      map_spreadAll_sideBySide]
    rfl
  | .returnValue _ _ | .assign _ _ _ | .augment _ _ _ _ | .annotate _ _ _ _ | .throwError _ _ _
  | .imports _ _ | .globals _ _ | .nonlocals _ _ | .expr _ _ | .simple _ _ _ => rfl

theorem levelsOf_spread_nowhere : (body : List Stmt) →
    levelsOf (spreadAll nowhere body) = (levelsOf body).map (spreadAll nowhere)
  | [] => rfl
  | s :: rest => by
    rw [spreadAll, levelsOf, levels_spread_nowhere s, levelsOf_spread_nowhere rest,
      ← map_spreadAll_sideBySide, levelsOf]

theorem levelsOfCases_spread_nowhere : (cases : List (List Stmt)) →
    levelsOfCases (spreadCases nowhere cases) = (levelsOfCases cases).map (spreadAll nowhere)
  | [] => rfl
  | body :: rest => by
    rw [spreadCases, levelsOfCases, levelsOf_spread_nowhere body, levelsOfCases_spread_nowhere rest,
      ← map_spreadAll_sideBySide, levelsOfCases]

theorem levelsOfHandlers_spread_nowhere : (handlers : List Handler) →
    levelsOfHandlers (spreadHandlers nowhere handlers) = (levelsOfHandlers handlers).map (spreadAll nowhere)
  | [] => rfl
  | .mk _ _ _ body :: rest => by
    rw [spreadHandlers, levelsOfHandlers, levelsOf_spread_nowhere body, levelsOfHandlers_spread_nowhere rest,
      ← map_spreadAll_sideBySide, levelsOfHandlers]

end

theorem attributeOf?_placeless (receiver : String) (e : Expr) :
    attributeOf? receiver e.placeless = attributeOf? receiver e := by
  rcases e with _ | _ | ⟨_, (_ | _), _⟩ | _ <;> rfl

theorem attributeBindings_spread (receiver : String) (s : Stmt) :
    (attributeBindings receiver (s.spread split)).map Binding.placeless =
      (attributeBindings receiver s).map Binding.placeless := by
  cases s
  case assign r targets value =>
    simp only [Stmt.spread, attributeBindings, placelessExprs_eq, List.filterMap_map, List.map_map,
      Expr.likelyType_placeless]
    have htargets : (attributeOf? receiver ∘ Expr.placeless) = attributeOf? receiver :=
      funext fun e => attributeOf?_placeless receiver e
    rw [htargets]
    rfl
  case annotate r target typeHint value =>
    have htype := declaredType_placeless (some typeHint) value
    rw [placelessExpr?] at htype
    simp only [Stmt.spread, attributeBindings, attributeOf?_placeless, htype, List.map_map]
    rfl
  case augment r target op value =>
    simp only [Stmt.spread, attributeBindings, attributeOf?_placeless, List.map_map]
    rfl
  case withResources r resources body =>
    obtain ⟨first, inner, h⟩ : ∃ first inner, (Stmt.withResources r resources body).spread split =
      .withResources default first inner := exists_spread_withResources r resources body
    rw [h]
    rfl
  all_goals rfl

/-- Statements that are changed one by one bind the same, if each of them does. -/
theorem flatMap_spreadAll {bindings : Stmt → List Binding} (body : List Stmt)
    (h : ∀ s : Stmt, (bindings (s.spread split)).map Binding.placeless =
      (bindings s).map Binding.placeless) :
    ((spreadAll split body).flatMap bindings).map Binding.placeless =
      (body.flatMap bindings).map Binding.placeless := by
  induction body with
  | nil => rfl
  | cons s body ih =>
    rw [spreadAll, List.flatMap_cons, List.flatMap_cons, List.map_append, List.map_append, h, ih]

theorem methodBindings_spread_nowhere (signature : Signature) (body : List Stmt) :
    (methodBindings signature.placeless (spreadAll nowhere body)).map Binding.placeless =
      (methodBindings signature body).map Binding.placeless := by
  have hreceiver : (signature.placeless.parameters.find? Parameter.isPositional).map Parameter.name =
      (signature.parameters.find? Parameter.isPositional).map Parameter.name :=
    find?_isPositional_placeless signature.parameters
  have hflat : (levelsOf (spreadAll nowhere body)).flatten = spreadAll nowhere (levelsOf body).flatten := by
    rw [levelsOf_spread_nowhere, funext spreadAll_eq_map, List.map_flatten]
  rw [methodBindings, methodBindings, decoratorNames_placeless]
  split
  · rfl
  · rcases hfind : signature.parameters.find? Parameter.isPositional with _ | receiver
    · rw [hfind, Option.map_none, Option.map_eq_none_iff] at hreceiver
      rw [hreceiver]
    · rw [hfind, Option.map_some, Option.map_eq_some_iff] at hreceiver
      obtain ⟨receiver', hfind', hname⟩ := hreceiver
      rw [hfind']
      dsimp only
      rw [hflat, hname]
      exact flatMap_spreadAll _ (attributeBindings_spread receiver.name)

/-- **Where nothing is split, a class keeps its fields.** -/
theorem keepFields_nowhere (levels : List (List Stmt)) : KeepFields nowhere levels := by
  intro s hs
  clear hs
  cases s
  case classType r name bases body =>
    refine (ofBindings_placeless _).trans (Eq.trans (congrArg _ ?_) (ofBindings_placeless _).symm)
    rw [classBindings, classBindings, List.map_append, List.map_append]
    congr 1
    · refine flatMap_spreadAll body fun s => ?_
      cases s
      case assign r targets value => exact assignedBindings_placeless r default targets value
      case annotate r target typeHint value =>
        exact annotatedBindings_placeless r default target typeHint value
      case withResources r resources body =>
        rw [spread_withResources_nowhere]
      all_goals rfl
    · refine flatMap_spreadAll body fun s => ?_
      cases s
      case function r signature body => exact methodBindings_spread_nowhere signature body
      case withResources r resources body =>
        rw [spread_withResources_nowhere]
      all_goals rfl
  case withResources r resources body =>
    rw [Stmt.KeepsFields, spread_withResources_nowhere]
    rfl
  all_goals rfl

end ModelLint.Source
