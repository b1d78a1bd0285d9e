import ModelLint.Analysis
import ModelLint.Proofs.Document.Loading

/-!
# Where the nodes of a document come from

Each node of the unit of a document stands where one of the mappings does, and what it says is said by
the mappings. A mapping takes the parts of its location that it does not give over from the mapping it
stands in.

* `located`: the location of a mapping inside another one.
* `Holds`, `Stands`: the mappings that stand for nodes, and their locations.
* `forall_stands`: a check of all of them.
* `Speaks`: what a mapping says has a property.
* `Keeps`: what a step gives, and that the names of all variables have the property.
* **`origin_of_load`**: where the nodes of a loaded unit come from.
* `exists_analysis`: what the analysis of a document gives, by running it.
-/

namespace ModelLint.Document

/-! ## Locations of mappings -/

/-- The number that a mapping gives for a part of its location. -/
def given (fields : Fields) (key : String) : Option Int :=
  match field? fields key with
  | some (.int n) => some n
  | _ => none

/-- The location of a mapping inside another one. -/
def located (fields : Fields) (outer : Location) : Location :=
  if (Value.lookup fields "line").isSome && (Value.lookup fields "end_line").isNone then
    { line := (given fields "line").getD outer.line
      column := (given fields "column").getD outer.column, endLine := none, endColumn := none }
  else
    { line := (given fields "line").getD outer.line
      column := (given fields "column").getD outer.column
      endLine := (given fields "end_line").or outer.endLine
      endColumn := (given fields "end_column").or outer.endColumn }

/-- The location that a unit starts from. -/
def start : Location := { line := 1, column := 1, endLine := none, endColumn := none }

section Located

variable {r : Surroundings} {s : Progress} {fields : Fields} {key : String}

theorem reads_given : Reads (coordinate fields key) r s (· = given fields key) := by
  rw [coordinate]
  split
  · next h => exact reads_pure (by rw [given, h])
  · next h => exact reads_pure (by rw [given, h])
  · exact runs_reject trivial

theorem reads_located {outer : Location} :
    Reads (locate fields outer) r s (· = located fields outer) := by
  refine reads_given.bind fun line hline => reads_given.bind fun column hcolumn =>
    reads_given.bind fun endLine hendLine => reads_given.bind fun endColumn hendColumn => ?_
  rw [located, ← hline, ← hcolumn, ← hendLine, ← hendColumn]
  split <;> exact reads_pure rfl

end Located

theorem field?_of_lookup {fields : Fields} {key : String} {v : Value}
    (h : Value.lookup fields key = some v) (hv : v ≠ .null) : field? fields key = some v := by
  rw [field?, h]
  cases v with
  | null => exact absurd rfl hv
  | _ => rfl

theorem field?_of_isTruthy {fields : Fields} {key : String} {v : Value}
    (h : Value.lookup fields key = some v) (hv : v.isTruthy = true) : field? fields key = some v := by
  refine field?_of_lookup h ?_
  rintro rfl
  cases hv

theorem kind?_of_isText {fields : Fields} {kind : String}
    (h : (Value.lookup fields "kind").any (Value.isText kind) = true) : kind? fields = some kind := by
  obtain ⟨v, hv, hkind⟩ := (Option.any_eq_true _ _).mp h
  cases v with
  | str s =>
    rw [kind?, field?, hv]
    exact congrArg some (eq_of_beq hkind)
  | _ => cases hkind

/-! ## Mappings of a document -/

/-- The fields with a list of nodes. -/
def listKeys : List String := ["members", "body", "statements", "catches", "finally", "then", "else",
  "resources", "declare", "header", "args", "operands"]

/-- The fields with one node. -/
def partKeys : List String := ["target", "value", "index", "initializer", "expression", "condition"]

/-- The items of a list field. -/
def itemsAt (fields : Fields) (key : String) : List Value :=
  match field? fields key with
  | some (.list vs) => vs
  | _ => []

/-- A mapping holds another one that stands for a node; the value of a literal stands for none. -/
inductive Holds (outer : Fields) : Fields → Prop
  /-- It stands in a list. -/
  | item {key : String} {inner : Fields} (hkey : key ∈ listKeys)
      (hmem : .map inner ∈ itemsAt outer key) : Holds outer inner
  /-- It stands in a field of its own. -/
  | part {key : String} {inner : Fields} (hkey : key ∈ partKeys)
      (hpart : field? outer key = some (.map inner))
      (hliteral : kind? outer ≠ some "literal") : Holds outer inner

/-- **A mapping stands for a node** of a document, with a location. -/
inductive Stands (document : Fields) : Fields → Location → Prop
  /-- It is one of the outermost declarations. -/
  | outermost {fields : Fields} (hmem : .map fields ∈ itemsAt document "declarations") :
      Stands document fields (located fields start)
  /-- It stands in another one. -/
  | inside {outer fields : Fields} {l : Location} (houter : Stands document outer l)
      (h : Holds outer fields) : Stands document fields (located fields l)
  /-- It initializes a variable of a loop, which is one whatever its kind. -/
  | initial {outer declared fields : Fields} {l : Location} (houter : Stands document outer l)
      (hmem : .map declared ∈ itemsAt outer "declare")
      (hpart : field? declared "value" = some (.map fields)) :
      Stands document fields (located fields (located declared l))

/-! ### Checking all mappings of a document -/

/-- The mapping that a value is, if it is one. -/
def fieldsOf? : Value → Option Fields
  | .map fields => some fields
  | _ => none

/-- The mappings that stand right below a mapping, with their locations. -/
def heldBy (fields : Fields) (l : Location) : List (Fields × Location) :=
  let items := listKeys.flatMap fun key => (itemsAt fields key).filterMap fieldsOf?
  let parts := if kind? fields = some "literal" then []
    else partKeys.filterMap fun key => (field? fields key).bind fieldsOf?
  let initials := ((itemsAt fields "declare").filterMap fieldsOf?).filterMap fun declared =>
    ((field? declared "value").bind fieldsOf?).map fun inner =>
      (inner, located inner (located declared l))
  (items ++ parts).map (fun inner => (inner, located inner l)) ++ initials

/-- Whether a mapping has a property with all mappings below it, which are nested up to a depth. -/
def checks (p : Fields → Location → Bool) : Nat → Fields → Location → Bool
  | 0, _, _ => false
  | depth + 1, fields, l =>
    p fields l && (heldBy fields l).all fun inner => checks p depth inner.1 inner.2

section Checks

variable {document outer inner : Fields} {key : String} {vs : List Value} {l : Location}
  {p : Fields → Location → Bool}

theorem mem_filterMap_fieldsOf? (h : .map inner ∈ vs) : inner ∈ vs.filterMap fieldsOf? :=
  List.mem_filterMap.mpr ⟨_, h, rfl⟩

theorem Holds.mem_heldBy (h : Holds outer inner) : (inner, located inner l) ∈ heldBy outer l := by
  refine List.mem_append_left _ (List.mem_map_of_mem (List.mem_append.mpr ?_))
  cases h with
  | item hkey hmem => exact .inl (List.mem_flatMap.mpr ⟨_, hkey, mem_filterMap_fieldsOf? hmem⟩)
  | part hkey hpart hliteral =>
    rw [if_neg hliteral]
    exact .inr (List.mem_filterMap.mpr ⟨_, hkey, by rw [hpart]; rfl⟩)

theorem initial_mem_heldBy {declared : Fields} (hmem : .map declared ∈ itemsAt outer "declare")
    (hpart : field? declared "value" = some (.map inner)) :
    (inner, located inner (located declared l)) ∈ heldBy outer l :=
  List.mem_append_right _ (List.mem_filterMap.mpr
    ⟨declared, mem_filterMap_fieldsOf? hmem, by rw [hpart]; rfl⟩)

theorem Stands.of_checks {depth : Nat} {fields : Fields} (h : Stands document fields l)
    (hchecks : ((itemsAt document "declarations").filterMap fieldsOf?).all fun fields =>
      checks p depth fields (located fields start)) : p fields l = true := by
  -- each mapping is checked together with all that is below it
  suffices hdepth : ∃ depth, checks p depth fields l = true by
    obtain ⟨_ | depth, hdepth⟩ := hdepth
    · cases hdepth
    · rw [checks, Bool.and_eq_true] at hdepth
      exact hdepth.1
  have hstep : ∀ {outer fields : Fields} {l l' : Location},
      (∃ depth, checks p depth outer l = true) → (fields, l') ∈ heldBy outer l →
        ∃ depth, checks p depth fields l' = true := by
    rintro outer fields l l' ⟨_ | depth, hdepth⟩ hmem
    · cases hdepth
    · rw [checks, Bool.and_eq_true] at hdepth
      exact ⟨depth, List.all_eq_true.mp hdepth.2 _ hmem⟩
  induction h with
  | outermost hmem => exact ⟨depth, List.all_eq_true.mp hchecks _ (mem_filterMap_fieldsOf? hmem)⟩
  | inside houter hholds ih => exact hstep ih hholds.mem_heldBy
  | initial houter hmem hpart ih => exact hstep ih (initial_mem_heldBy hmem hpart)

/-- A property that is checked of the outermost declarations holds of all mappings that stand for
nodes. -/
theorem forall_stands (depth : Nat) {P : Fields → Location → Prop} [∀ fields l, Decidable (P fields l)]
    (hchecks : ((itemsAt document "declarations").filterMap fieldsOf?).all fun fields =>
      checks (fun fields l => decide (P fields l)) depth fields (located fields start)) :
    ∀ fields l, Stands document fields l → P fields l :=
  fun _ _ h => of_decide_eq_true (h.of_checks hchecks)

end Checks

/-! ### What mappings say -/

/-- What a parameter says has a property. -/
def SpeaksParameter (T : String → Prop) : Value → Prop
  | .str name => T name
  | .map fields => ∀ key ∈ ["name", "type"], ∀ v ∈ field? fields key, T v.display
  | _ => True

/-- **What a mapping says has a property**: its names and types, and those of its parameters. -/
structure Speaks (T : String → Prop) (fields : Fields) : Prop where
  /-- The names and the type. -/
  texts : ∀ key ∈ ["name", "type", "variable"], ∀ v ∈ field? fields key, T v.display
  /-- The types that a handler catches. -/
  types : ∀ v ∈ itemsAt fields "types", T v.display
  /-- The parameters. -/
  parameters : ∀ v ∈ itemsAt fields "parameters", SpeaksParameter T v

instance {T : String → Prop} [DecidablePred T] (v : Value) : Decidable (SpeaksParameter T v) :=
  match v with
  | .str name => inferInstanceAs (Decidable (T name))
  | .map fields =>
    inferInstanceAs (Decidable (∀ key ∈ ["name", "type"], ∀ v ∈ field? fields key, T v.display))
  | .null | .bool _ | .int _ | .float _ | .list _ | .set _ | .other _ _ _ _ =>
    inferInstanceAs (Decidable True)

instance {T : String → Prop} [DecidablePred T] {fields : Fields} : Decidable (Speaks T fields) :=
  decidable_of_iff ((∀ key ∈ ["name", "type", "variable"], ∀ v ∈ field? fields key, T v.display) ∧
      (∀ v ∈ itemsAt fields "types", T v.display) ∧
      ∀ v ∈ itemsAt fields "parameters", SpeaksParameter T v)
    ⟨fun h => ⟨h.1, h.2.1, h.2.2⟩, fun h => ⟨h.texts, h.types, h.parameters⟩⟩

theorem speaks_of_forall {T : String → Prop} (h : ∀ s, T s) (fields : Fields) : Speaks T fields where
  texts _ _ _ _ := h _
  types _ _ := h _
  parameters v _ := by
    cases v with
    | str name => exact h name
    | map fields => exact fun _ _ _ _ => h _
    | _ => trivial

/-! ## Steps -/

/-- The names and the types of the variables in a table have a property. -/
def Named (T : String → Prop) (vars : Array Variable) : Prop :=
  ∀ v ∈ vars, T v.name ∧ ∀ type ∈ v.typeName, T type

/-- What a step gives has a property, and the names of all variables keep theirs. -/
def Keeps {α : Type} (T : String → Prop) (x : Load α) (P : α → Prop) : Prop :=
  ∀ r s a s', x r s = .ok (a, s') → Named T s.vars → Named T s'.vars ∧ P a

section Keeps

variable {α β : Type} {T : String → Prop} {x : Load α} {f : α → Load β} {P P' : α → Prop}
  {Q : β → Prop} {fields : Fields} {key : String}

theorem Keeps.bind (hx : Keeps T x P) (hf : ∀ a, P a → Keeps T (f a) Q) : Keeps T (x >>= f) Q := by
  intro r s b s'' h hs
  have hbind : (x >>= f) r s = (x r s).bind fun p => f p.1 r p.2 := rfl
  rw [hbind] at h
  rcases hxs : x r s with e | ⟨a, s'⟩
  · rw [hxs] at h
    cases h
  · rw [hxs] at h
    obtain ⟨hs', ha⟩ := hx r s a s' hxs hs
    exact hf a ha r s' b s'' h hs'

theorem Keeps.mono (h : Keeps T x P) (hP : ∀ a, P a → P' a) : Keeps T x P' :=
  fun r s a s' hx hs => (h r s a s' hx hs).imp_right (hP a)

theorem keeps_pure {a : α} (h : P a) : Keeps T (pure a) P := by
  rintro r s _ _ ⟨⟩ hs
  exact ⟨hs, h⟩

theorem keeps_of_reads (h : ∀ r s, Reads x r s P) : Keeps T x P := by
  intro r s a s' hx hs
  have hreads := h r s
  rw [Reads, Runs, hx] at hreads
  exact ⟨hreads.1 ▸ hs, hreads.2⟩

theorem keeps_reject {reason : Reason} : Keeps T (reject fields reason : Load α) P := by
  rintro r s a s' ⟨⟩

theorem keeps_read : Keeps T (read : Load Surroundings) fun _ => True :=
  keeps_of_reads fun _ _ => ⟨rfl, trivial⟩

theorem keeps_get : Keeps T (get : Load Progress) fun s => Named T s.vars := by
  rintro r s _ _ ⟨⟩ hs
  exact ⟨hs, hs⟩

theorem keeps_set {s' : Progress} (h : Named T s'.vars) :
    Keeps T (set s' : Load PUnit) fun _ => True := by
  rintro r s _ _ ⟨⟩ -
  exact ⟨h, trivial⟩

theorem keeps_withReader {g : Surroundings → Surroundings} (h : Keeps T x P) :
    Keeps T (withReader g x) P := fun r s => h (g r) s

theorem keeps_withScope {scope : Scope} (h : Keeps T x P) : Keeps T (withScope scope x) P := by
  intro r s a s' hx hs
  have hscope : withScope scope x r s = (x r { s with scopes := scope :: s.scopes }).bind
      fun p => .ok (p.1, { p.2 with scopes := p.2.scopes.tail }) := rfl
  rw [hscope] at hx
  rcases hxs : x r { s with scopes := scope :: s.scopes } with e | ⟨b, t⟩
  · rw [hxs] at hx
    cases hx
  · rw [hxs] at hx
    cases hx
    exact h r _ b t hxs hs

theorem keeps_mapM {f : α → Load β} {xs : List α} (h : ∀ x ∈ xs, Keeps T (f x) Q) :
    Keeps T (xs.mapM f) fun ys => ∀ y ∈ ys, Q y := by
  induction xs with
  | nil => exact keeps_pure (List.forall_mem_nil _)
  | cons x xs ih =>
    rw [List.forall_mem_cons] at h
    rw [List.mapM_cons]
    exact h.1.bind fun y hy => (ih h.2).bind fun ys hys =>
      keeps_pure (List.forall_mem_cons.mpr ⟨hy, hys⟩)

theorem keeps_newVariable {name : String} {type : Option String} {kind : VariableKind}
    {isStatic : Bool} (hname : T name) (htype : ∀ t ∈ type, T t) :
    Keeps T (newVariable name type kind isStatic) fun _ => True := by
  rintro r s _ _ ⟨⟩ hs
  refine ⟨fun v hv => ?_, trivial⟩
  rcases Array.mem_push.mp hv with hv | rfl
  · exact hs v hv
  · exact ⟨hname, htype⟩

theorem keeps_declare {name : String} {v : VariableId} :
    Keeps T (declare fields name v) fun _ => True := by
  refine keeps_get.bind fun s _ => ?_
  rcases s.scopes with _ | ⟨scope, outer⟩
  · exact keeps_reject
  · simp only []
    split
    · exact keeps_reject (α := PUnit)
    · exact keeps_get.bind fun s hs => keeps_set hs

/-! ## Fields -/

theorem keeps_mapping {what : String} {v : Value} :
    Keeps T (mapping what v) fun fields => v = .map fields :=
  keeps_of_reads fun _ _ => reads_mapping

theorem keeps_located {outer : Location} :
    Keeps T (locate fields outer) (· = located fields outer) :=
  keeps_of_reads fun _ _ => reads_located

theorem keeps_kindOf : Keeps T (kindOf fields) (· = kind? fields) :=
  keeps_of_reads fun _ _ => reads_kindOf

theorem keeps_modifiers : Keeps T (modifiers fields) fun _ => True :=
  keeps_of_reads fun _ _ => reads_modifiers

theorem keeps_resolve {name : String} : Keeps T (resolve name) fun _ => True :=
  keeps_of_reads fun _ _ => reads_resolve.mono fun _ _ => trivial

theorem keeps_items : Keeps T (items fields key) fun vs =>
    ∀ v ∈ vs, v ∈ itemsAt fields key := by
  rw [items]
  split
  · exact keeps_pure (List.forall_mem_nil _)
  · next vs hlist =>
    rw [itemsAt, hlist]
    exact keeps_pure fun v hv => hv
  · exact keeps_reject

theorem keeps_require : Keeps T (require fields key) fun v => field? fields key = some v :=
  keeps_of_reads fun _ _ => reads_require

theorem keeps_written {v : Value} (h : T v.display) : Keeps T (written v) T :=
  keeps_of_reads fun _ _ => reads_written.mono fun _ htext => htext ▸ h

theorem keeps_writtenField {missing : String} :
    Keeps T (writtenField fields key missing) fun _ => True :=
  keeps_of_reads fun _ _ => reads_writtenField

theorem keeps_requireText (h : ∀ v, field? fields key = some v → T v.display) :
    Keeps T (requireText fields key) T :=
  keeps_require.bind fun v hv => keeps_written (h v hv)

theorem keeps_text? (h : ∀ v, field? fields key = some v → T v.display) :
    Keeps T (text? fields key) fun text => ∀ t ∈ text, T t := by
  rw [text?]
  split
  · exact keeps_pure fun t ht => by cases ht
  · next t ht =>
    refine keeps_pure fun u hu => ?_
    cases hu
    exact h _ ht
  · exact keeps_reject

end Keeps

/-! ## Trees -/

/-- What the shape of a node quotes in messages, apart from its variables, has a property. -/
def Quotes {ν : Type} (T : String → Prop) : Shape ν → Prop
  | .catchClause types _ _ => ∀ type ∈ types, T type
  | .methodCall name _ _ _ => T name
  | _ => True

/-- A location is that of a mapping of the document, or the one that the unit starts from. -/
def Placed (document : Fields) (l : Location) : Prop :=
  l = start ∨ ∃ fields, Stands document fields l

/-- **All nodes of a tree come from the document**: they stand where its mappings do, and quote what
has a property. -/
def Stems (document : Fields) (T : String → Prop) (t : Tree) : Prop :=
  ∀ p t', t.at? p = some t' → Placed document t'.location ∧ Quotes T t'.shape

section Converters

variable {document fields : Fields} {T : String → Prop} {l : Location} {shape : Shape Tree}

theorem stems_node (hl : Placed document l) (hquotes : Quotes T shape)
    (h : ∀ c ∈ shape.children, Stems document T c) : Stems document T (.node l shape) := by
  rintro (_ | ⟨i, p⟩) t' ht'
  · cases ht'
    exact ⟨hl, hquotes⟩
  · obtain ⟨c, hc, ht'⟩ := Tree.at?_cons_eq_some.mp ht'
    exact h c (List.mem_of_getElem? hc) p t' ht'

/-- If a value inside a mapping with a location is one, it stands in the document. -/
def Nested (document : Fields) (v : Value) (l : Location) : Prop :=
  ∀ fields, v = .map fields → Stands document fields (located fields l)

theorem Stands.nested_item {key : String} {v : Value} (h : Stands document fields l)
    (hkey : key ∈ listKeys) (hv : v ∈ itemsAt fields key) : Nested document v l := by
  rintro inner rfl
  exact .inside h (.item hkey hv)

theorem Stands.nested_part {key : String} {v : Value} (h : Stands document fields l)
    (hkind : kind? fields ≠ some "literal") (hkey : key ∈ partKeys)
    (hv : field? fields key = some v) : Nested document v l := by
  rintro inner rfl
  exact .inside h (.part hkey hv hkind)

/-- **Converters keep the origin** of what they convert. -/
structure Converters.Traces (inner : Converters) (document : Fields) (T : String → Prop) : Prop where
  /-- Expressions. -/
  expression : ∀ v l, Placed document l → Nested document v l →
    Keeps T (inner.expression v l) (Stems document T)
  /-- Statements. -/
  statement : ∀ v l, Nested document v l → Keeps T (inner.statement v l) (Stems document T)
  /-- Declarations. -/
  declaration : ∀ fields l, Stands document fields (located fields l) →
    Keeps T (inner.declaration fields l) (Stems document T)

namespace Converters

variable {inner : Converters} {key : String} (hi : inner.Traces document T)
  (hspeaks : ∀ fields l, Stands document fields l → Speaks T fields)

include hi hspeaks

/-! ### Parts of nodes -/

omit hspeaks in
theorem keeps_expression? (hl : Placed document l)
    (hv : ∀ v, field? fields key = some v → Nested document v l) :
    Keeps T (inner.expression? fields key l) fun o => ∀ t ∈ o, Stems document T t := by
  rw [expression?]
  split
  · exact keeps_pure fun t ht => by cases ht
  · next v hfield =>
    refine (hi.expression v l hl (hv v hfield)).bind fun t ht => keeps_pure fun u hu => ?_
    cases hu
    exact ht

omit hspeaks in
theorem keeps_required (hl : Placed document l)
    (hv : ∀ v, field? fields key = some v → Nested document v l) :
    Keeps T (inner.required fields key l) (Stems document T) :=
  keeps_require.bind fun v hfield => hi.expression v l hl (hv v hfield)

section Standing

variable (hf : Stands document fields l)

include hf

omit hspeaks in
theorem keeps_expressions (hkey : key ∈ listKeys) {vs : List Value}
    (hvs : ∀ v ∈ vs, v ∈ itemsAt fields key) :
    Keeps T (vs.mapM fun v => inner.expression v l) fun ts => ∀ t ∈ ts, Stems document T t :=
  keeps_mapM fun v hv => hi.expression v l (.inr ⟨fields, hf⟩) (hf.nested_item hkey (hvs v hv))

omit hspeaks in
theorem keeps_arguments :
    Keeps T (inner.arguments fields l) fun ts => ∀ t ∈ ts, Stems document T t :=
  keeps_items.bind fun _ hvs => keeps_expressions hi hf (by decide : "args" ∈ listKeys) hvs

omit hspeaks in
theorem keeps_statements (hkey : key ∈ listKeys) (scope : Scope) :
    Keeps T (inner.statements fields key l scope) fun ts => ∀ t ∈ ts, Stems document T t :=
  keeps_withScope (keeps_items.bind fun _ hvs =>
    keeps_mapM fun v hv => hi.statement v l (hf.nested_item hkey (hvs v hv)))

omit hspeaks in
theorem keeps_block (hkey : key ∈ listKeys) :
    Keeps T (inner.block fields key l) (Stems document T) := by
  refine (keeps_statements hi hf hkey []).bind fun ts hts => keeps_pure ?_
  exact stems_node (.inr ⟨fields, hf⟩) trivial (by simpa [Shape.children, Shape.slots] using hts)

omit hspeaks in
theorem keeps_block? (hkey : key ∈ listKeys) :
    Keeps T (inner.block? fields key l) fun o => ∀ t ∈ o, Stems document T t := by
  rw [block?]
  split
  · exact keeps_pure fun t ht => by cases ht
  · refine (keeps_block hi hf hkey).bind fun t ht => keeps_pure fun u hu => ?_
    cases hu
    exact ht

omit hi in
theorem keeps_parameters : Keeps T (parameters fields) fun _ => True := by
  refine keeps_items.bind fun vs hvs => (keeps_mapM (Q := fun _ => True) fun v hv => ?_).mono
    fun _ _ => trivial
  have hspeaks := (hspeaks fields l hf).parameters v (hvs v hv)
  have hnew : ∀ raw : Fields, (∀ key ∈ ["name", "type"], ∀ v ∈ field? raw key, T v.display) →
      Keeps T (do
        let name ← requireText raw "name"
        let typeName ← text? raw "type"
        return (name, ← newVariable name typeName .parameter false)) fun _ => True := by
    intro raw hraw
    refine (keeps_requireText (hraw "name" (by decide))).bind fun name hname =>
      (keeps_text? (hraw "type" (by decide))).bind fun type htype => ?_
    exact (keeps_newVariable hname htype).bind fun v _ => keeps_pure trivial
  cases v with
  | str name =>
    refine (keeps_pure (P := fun raw => raw = [(Value.str "name", Value.str name)]) rfl).bind ?_
    rintro raw rfl
    refine hnew _ fun key hkey v hv => ?_
    rcases List.mem_pair.mp hkey with rfl | rfl
    · cases hv
      exact hspeaks
    · cases hv
  | map raw =>
    refine keeps_mapping.bind ?_
    rintro raw' ⟨⟩
    exact hnew raw hspeaks
  | _ => exact keeps_mapping.bind fun raw hraw => by cases hraw

theorem keeps_function (hkind : kind? fields ≠ some "literal") :
    Keeps T (inner.function fields l) (Stems document T) := by
  refine (keeps_parameters hspeaks hf).bind fun ps _ => ?_
  have hl : Placed document l := .inr ⟨fields, hf⟩
  extract_lets finish
  have hfinish : ∀ body, (∀ t ∈ body, Stems document T t) →
      Keeps T (finish body) (Stems document T) := by
    intro body hbody
    refine keeps_modifiers.bind fun _ _ => keeps_pure (stems_node hl trivial ?_)
    simpa [Shape.children, Shape.slots] using hbody
  split
  · next v hfield =>
    have hv := hi.expression v l hl (hf.nested_part hkind (by decide) hfield)
    refine (keeps_withScope hv).bind fun t ht => hfinish _ (List.forall_mem_singleton.mpr ?_)
    exact stems_node hl trivial (by simpa [Shape.children, Shape.slots] using ht)
  · exact (keeps_statements hi hf (by decide) _).bind hfinish

end Standing

/-! ### Expressions -/

omit hi hspeaks in
theorem keeps_variableAccess (hl : Placed document l) :
    Keeps T (variableAccess fields l) (Stems document T) := by
  refine (keeps_of_reads fun _ _ => reads_requireText).bind fun name _ =>
    keeps_resolve.bind fun found _ => ?_
  cases found with
  | none => exact keeps_reject
  | some v => exact keeps_pure (stems_node hl trivial (List.forall_mem_nil _))

omit hspeaks in
theorem keeps_memberAccess (hf : Stands document fields l) (hkind : kind? fields ≠ some "literal") :
    Keeps T (inner.memberAccess fields l) (Stems document T) := by
  have hl : Placed document l := .inr ⟨fields, hf⟩
  refine (keeps_of_reads fun _ _ => reads_requireText).bind fun name _ => ?_
  split
  · next target hfield =>
    refine (hi.expression target l hl (hf.nested_part hkind (by decide) hfield)).bind fun t ht =>
      keeps_pure (stems_node hl trivial ?_)
    simpa [Shape.children, Shape.slots] using ht
  · exact keeps_read.bind fun _ _ =>
      keeps_pure (stems_node hl trivial (by simp [Shape.children, Shape.slots]))

/-- The converter of expressions keeps the origin. -/
theorem keeps_expressionNode {v : Value} {outer : Location} (houter : Placed document outer)
    (hv : Nested document v outer) : Keeps T (inner.expressionNode v outer) (Stems document T) := by
  cases v with
  | map fields =>
    have hf := hv fields rfl
    have hs := hspeaks fields _ hf
    have hl : Placed document (located fields outer) := .inr ⟨fields, hf⟩
    refine keeps_kindOf.bind fun kind hkind => keeps_located.bind ?_
    rintro l rfl
    have hpart : kind ≠ some "literal" → ∀ key ∈ partKeys, ∀ v, field? fields key = some v →
        Nested document v (located fields outer) := fun hne key hkey v hv =>
      hf.nested_part (hkind ▸ hne) hkey hv
    split
    · have hqualified := keeps_expression? hi hl (hpart (by decide) "target" (by decide))
      refine hqualified.bind fun qualifier hqualifier =>
        (keeps_requireText (hs.texts "name" (by decide))).bind fun name hname =>
          (keeps_of_reads fun _ _ => reads_text?).bind fun type _ =>
            (keeps_arguments hi hf).bind fun ts hts => keeps_pure ?_
      refine stems_node hl hname ?_
      simpa [Shape.children, Shape.slots, or_imp, forall_and] using ⟨hqualifier, hts⟩
    · refine (keeps_of_reads fun _ _ => reads_requireText).bind fun typeName _ =>
        (keeps_arguments hi hf).bind fun ts hts => keeps_pure (stems_node hl trivial ?_)
      simpa [Shape.children, Shape.slots] using hts
    · exact keeps_variableAccess hl
    · exact keeps_memberAccess hi hf (hkind ▸ by decide)
    · exact keeps_pure (stems_node hl trivial (by simp [Shape.children, Shape.slots]))
    · refine (keeps_required hi hl (hpart (by decide) _ (by decide))).bind fun target htarget =>
        (keeps_required hi hl (hpart (by decide) _ (by decide))).bind fun value hvalue =>
          keeps_writtenField.bind fun operator _ => keeps_pure (stems_node hl trivial ?_)
      simpa [Shape.children, Shape.slots] using ⟨htarget, hvalue⟩
    · refine (keeps_required hi hl (hpart (by decide) _ (by decide))).bind fun target htarget =>
        (keeps_expression? hi hl (hpart (by decide) _ (by decide))).bind fun index hindex =>
          keeps_pure (stems_node hl trivial ?_)
      simpa [Shape.children, Shape.slots, or_imp, forall_and] using ⟨htarget, hindex⟩
    · exact keeps_function hi hspeaks hf (hkind ▸ by decide)
    · refine keeps_writtenField.bind fun operator _ => keeps_items.bind fun vs hvs =>
        (keeps_expressions hi hf (by decide : "operands" ∈ listKeys) hvs).bind fun ts hts =>
          keeps_pure (stems_node hl trivial ?_)
      simpa [Shape.children, Shape.slots] using hts
    · exact keeps_reject
  | _ => exact keeps_pure (stems_node houter trivial (by simp [Shape.children, Shape.slots]))

/-! ### Statements -/

omit hspeaks in
/-- A local variable, whatever the kind of its mapping. -/
theorem keeps_localNode (hs : Speaks T fields) (hl : Placed document l)
    (hv : ∀ v, field? fields "value" = some v → Nested document v l) :
    Keeps T (inner.localNode fields l) (Stems document T) := by
  refine (keeps_requireText (hs.texts "name" (by decide))).bind fun name hname =>
    (keeps_text? (hs.texts "type" (by decide))).bind fun type htype =>
      (keeps_newVariable hname htype).bind fun v _ =>
        (keeps_expression? hi hl hv).bind fun initializer hinitializer =>
          keeps_declare.bind fun _ _ => keeps_pure (stems_node hl trivial ?_)
  simpa [Shape.children, Shape.slots] using hinitializer

section Standing

variable (hf : Stands document fields l)

include hf

theorem keeps_localFunctionNode (hT : T "function") (hkind : kind? fields ≠ some "literal") :
    Keeps T (inner.localFunctionNode fields l) (Stems document T) := by
  refine (keeps_requireText ((hspeaks fields l hf).texts "name" (by decide))).bind fun name hname =>
    (keeps_newVariable hname fun t ht => ?_).bind fun v _ =>
      keeps_declare.bind fun _ _ => (keeps_function hi hspeaks hf hkind).bind fun t ht =>
        keeps_pure (stems_node (.inr ⟨fields, hf⟩) trivial ?_)
  · cases ht
    exact hT
  · simpa [Shape.children, Shape.slots] using ht

end Standing

omit hi hspeaks in
theorem keeps_caughtTypes (hs : Speaks T fields) :
    Keeps T (caughtTypes fields) fun types => ∀ t ∈ types, T t := by
  rw [caughtTypes]
  split
  · next types hlist =>
    refine keeps_mapM fun v hv => keeps_written (hs.types v ?_)
    rwa [itemsAt, hlist]
  · exact keeps_reject
  · split
    · next type htype =>
      split
      · next htruthy =>
        refine keeps_mapM fun v hv => keeps_written ?_
        cases List.mem_singleton.mp hv
        exact hs.texts "type" (by decide) type (field?_of_isTruthy htype htruthy)
      · exact keeps_pure (List.forall_mem_nil _)
    · exact keeps_pure (List.forall_mem_nil _)

theorem keeps_catchNode {v : Value} {outer : Location} (hv : Nested document v outer) :
    Keeps T (inner.catchNode v outer) (Stems document T) := by
  refine keeps_mapping.bind ?_
  rintro fields rfl
  have hf := hv fields rfl
  have hs := hspeaks fields _ hf
  have hl : Placed document (located fields outer) := .inr ⟨fields, hf⟩
  refine keeps_located.bind ?_
  rintro l rfl
  refine (keeps_caughtTypes hs).bind fun types htypes => ?_
  extract_lets finish
  have hfinish : ∀ var, Keeps T (finish var) (Stems document T) := by
    intro var
    refine (keeps_statements hi hf (by decide) _).bind fun ts hts =>
      keeps_pure (stems_node hl htypes ?_)
    have hblock : Stems document T (.node (located fields outer) (.block ts)) :=
      stems_node hl trivial (by simpa [Shape.children, Shape.slots] using hts)
    simpa [Shape.children, Shape.slots] using hblock
  split
  · next name hname =>
    split
    · next htruthy =>
      have hspoken := hs.texts "variable" (by decide) name (field?_of_isTruthy hname htruthy)
      exact (keeps_written hspoken).bind fun text htext =>
        (keeps_newVariable htext fun t ht => htypes t (List.mem_of_head? ht)).bind
          fun v _ => hfinish (some (text, v))
    · exact hfinish none
  · exact hfinish none

theorem keeps_resourceNode {v : Value} {outer : Location} (houter : Placed document outer)
    (hv : Nested document v outer) : Keeps T (inner.resourceNode v outer) (Stems document T) := by
  refine keeps_mapping.bind ?_
  rintro fields rfl
  have hf := hv fields rfl
  split
  · next hlocal =>
    refine keeps_located.bind ?_
    rintro l rfl
    exact keeps_localNode hi (hspeaks fields _ hf) (.inr ⟨fields, hf⟩) fun v hv =>
      hf.nested_part (by rw [kind?_of_isText hlocal]; decide) (by decide) hv
  · exact hi.expression (.map fields) outer houter hv

section Standing

variable (hf : Stands document fields l)

include hf

theorem keeps_usingNode : Keeps T (inner.usingNode fields l) (Stems document T) := by
  have hl : Placed document l := .inr ⟨fields, hf⟩
  have hresources : Keeps T (do (← items fields "resources").mapM fun v => inner.resourceNode v l)
      fun ts => ∀ t ∈ ts, Stems document T t := by
    exact keeps_items.bind fun vs hvs => keeps_mapM fun v hv =>
      keeps_resourceNode hi hspeaks hl (hf.nested_item (by decide) (hvs v hv))
  rw [usingNode]
  split
  · refine hresources.bind fun ts hts => keeps_pure (stems_node hl trivial ?_)
    simpa [Shape.children, Shape.slots] using hts
  · refine keeps_withScope (hresources.bind fun ts hts =>
      (keeps_block hi hf (by decide)).bind fun body hbody => keeps_pure (stems_node hl trivial ?_))
    simpa [Shape.children, Shape.slots, or_imp, forall_and] using ⟨hts, hbody⟩

theorem keeps_loopNode (kind : String) :
    Keeps T (inner.loopNode kind fields l) (Stems document T) := by
  have hl : Placed document l := .inr ⟨fields, hf⟩
  refine keeps_writtenField.bind fun name _ => keeps_withScope (keeps_items.bind fun _ hvs => ?_)
  refine (keeps_mapM (Q := Stems document T) fun v hv => ?declaration).bind
    fun declarations hdeclarations => ?header
  case header =>
    refine keeps_items.bind fun us hus => ?_
    refine (keeps_expressions hi hf (by decide : "header" ∈ listKeys) hus).bind fun header hheader =>
      (keeps_block hi hf (by decide)).bind fun body hbody => keeps_pure (stems_node hl trivial ?_)
    simpa [Shape.children, Shape.slots, or_imp, forall_and] using ⟨hdeclarations, hheader, hbody⟩
  case declaration =>
    refine keeps_mapping.bind ?_
    rintro declared rfl
    refine keeps_located.bind ?_
    rintro l' rfl
    have hdeclared : Stands document declared (located declared l) :=
      .inside hf (.item (by decide : "declare" ∈ listKeys) (hvs _ hv))
    refine keeps_localNode hi (hspeaks declared _ hdeclared) (.inr ⟨declared, hdeclared⟩) ?_
    rintro v hvalue inner rfl
    exact .initial hf (hvs _ hv) hvalue

end Standing

/-- The converter of statements keeps the origin. -/
theorem keeps_statementNode (hT : T "function") {v : Value} {outer : Location}
    (hv : Nested document v outer) : Keeps T (inner.statementNode v outer) (Stems document T) := by
  refine keeps_mapping.bind ?_
  rintro fields rfl
  have hf := hv fields rfl
  have hl : Placed document (located fields outer) := .inr ⟨fields, hf⟩
  refine keeps_kindOf.bind fun kind hkind => keeps_located.bind ?_
  rintro l rfl
  have hpart : kind ≠ some "literal" → ∀ key ∈ partKeys, ∀ v, field? fields key = some v →
      Nested document v (located fields outer) := fun hne key hkey v hv =>
    hf.nested_part (hkind ▸ hne) hkey hv
  split
  · exact keeps_block hi hf (by decide)
  · refine (keeps_block hi hf (by decide)).bind fun body hbody => keeps_items.bind fun vs hvs =>
      (keeps_mapM (Q := Stems document T) fun v hv => ?catches).bind fun catches hcatches =>
        (keeps_block? hi hf (by decide)).bind fun finally' hfinally =>
          keeps_pure (stems_node hl trivial ?children)
    case catches =>
      exact keeps_catchNode hi hspeaks (hf.nested_item (by decide : "catches" ∈ listKeys) (hvs v hv))
    case children =>
      simpa [Shape.children, Shape.slots, or_imp, forall_and] using ⟨hbody, hcatches, hfinally⟩
  · exact keeps_reject
  · refine (keeps_expression? hi hl (hpart (by decide) _ (by decide))).bind fun operand hoperand =>
      keeps_pure (stems_node hl trivial ?_)
    simpa [Shape.children, Shape.slots] using hoperand
  · refine (keeps_expression? hi hl (hpart (by decide) _ (by decide))).bind fun value hvalue =>
      keeps_pure (stems_node hl trivial ?_)
    simpa [Shape.children, Shape.slots] using hvalue
  · exact keeps_localNode hi (hspeaks fields _ hf) hl (hpart (by decide) _ (by decide))
  · exact keeps_localFunctionNode hi hspeaks hf hT (hkind ▸ by decide)
  · refine (keeps_required hi hl (hpart (by decide) _ (by decide))).bind fun target htarget =>
      (keeps_block hi hf (by decide)).bind fun body hbody => keeps_pure (stems_node hl trivial ?_)
    simpa [Shape.children, Shape.slots] using ⟨htarget, hbody⟩
  · exact keeps_usingNode hi hspeaks hf
  · refine (keeps_required hi hl (hpart (by decide) _ (by decide))).bind fun expression hexpression =>
      keeps_pure (stems_node hl trivial ?_)
    simpa [Shape.children, Shape.slots] using hexpression
  · refine (keeps_required hi hl (hpart (by decide) _ (by decide))).bind fun condition hcondition =>
      (keeps_block hi hf (by decide)).bind fun thenBranch hthen =>
        (keeps_block? hi hf (by decide)).bind fun elseBranch helse =>
          keeps_pure (stems_node hl trivial ?_)
    simpa [Shape.children, Shape.slots, or_imp, forall_and] using ⟨hcondition, hthen, helse⟩
  · split
    · exact keeps_loopNode hi hspeaks hf _
    · exact keeps_reject
  · exact keeps_reject

/-! ### Declarations -/

omit hi hspeaks in
theorem keeps_isField {member : Fields} : Keeps T (isField member) fun b =>
    b = true ↔ IsFieldKind member :=
  keeps_of_reads fun _ _ => reads_isField

omit hi hspeaks in
theorem keeps_qualified {name : String} : Keeps T (qualified name) fun _ => True :=
  keeps_of_reads fun _ _ => reads_qualified

omit hi hspeaks in
theorem keeps_fieldScope {members : List Fields} (h : ∀ member ∈ members, Speaks T member)
    (scope : Scope) : Keeps T (fieldScope members scope) fun _ => True := by
  induction members generalizing scope with
  | nil => exact keeps_pure trivial
  | cons member rest ih =>
    rw [List.forall_mem_cons] at h
    refine keeps_isField.bind fun isField _ => ?_
    split
    · refine (keeps_requireText (h.1.texts "name" (by decide))).bind fun name hname => ?_
      split
      · exact (keeps_reject (P := fun _ => False)).bind fun _ hfalse => hfalse.elim
      · exact keeps_modifiers.bind fun _ _ => (keeps_text? (h.1.texts "type" (by decide))).bind
          fun type htype => (keeps_newVariable hname htype).bind fun v _ => ih h.2 _
    · exact ih h.2 scope

omit hspeaks in
theorem keeps_fieldNode (hf : Stands document fields l) (hkind : kind? fields ≠ some "literal") :
    Keeps T (inner.fieldNode fields l) (Stems document T) := by
  have hl : Placed document l := .inr ⟨fields, hf⟩
  refine (keeps_of_reads fun _ _ => reads_requireText).bind fun name _ => keeps_read.bind fun _ _ =>
    keeps_qualified.bind fun qualifiedName _ => keeps_modifiers.bind fun modifiers _ => ?_
  extract_lets finish
  have hfinish : ∀ initializer : Option Tree, (∀ t ∈ initializer, Stems document T t) →
      Keeps T (finish initializer) (Stems document T) := fun initializer h =>
    keeps_pure (stems_node hl trivial (by simpa [Shape.children, Shape.slots] using h))
  split
  · exact hfinish none fun t ht => by cases ht
  · exact hfinish none fun t ht => by cases ht
  · next v hnull hinitializer =>
    have hv : Nested document v l := by
      rcases Option.or_eq_some_iff.mp hinitializer with hlookup | ⟨-, hlookup⟩
      · have hfield := field?_of_lookup hlookup hnull
        exact hf.nested_part hkind (by decide : "initializer" ∈ partKeys) hfield
      · have hfield := field?_of_lookup hlookup hnull
        exact hf.nested_part hkind (by decide : "value" ∈ partKeys) hfield
    refine (hi.expression v l hl hv).bind fun t ht => hfinish (some t) fun u hu => ?_
    cases hu
    exact ht

omit hspeaks in
theorem keeps_memberNode {member : Fields} {outer : Location}
    (hf : Stands document member (located member outer)) :
    Keeps T (inner.memberNode member outer) (Stems document T) := by
  refine keeps_located.bind ?_
  rintro l rfl
  refine keeps_isField.bind fun isField hfield => ?_
  split
  · next hisField =>
    have hkind : kind? member ≠ some "literal" := by
      intro hliteral
      have hkind := hfield.mp hisField
      rw [IsFieldKind, hliteral] at hkind
      revert hkind
      decide
    exact keeps_fieldNode hi hf hkind
  · exact hi.declaration member outer hf

section Standing

variable (hf : Stands document fields l)

include hf

theorem keeps_typeNode : Keeps T (inner.typeNode fields l) (Stems document T) := by
  refine (keeps_of_reads fun _ _ => reads_requireText).bind fun name _ =>
    keeps_items.bind fun vs hvs => ?_
  have hmembers : Keeps T (vs.mapM (mapping "member")) fun members =>
      ∀ member ∈ members, Stands document member (located member l) :=
    keeps_mapM fun v hv => keeps_mapping.mono fun member hmember =>
      hf.nested_item (by decide : "members" ∈ listKeys) (hvs v hv) member hmember
  refine hmembers.bind fun members hmembers => (keeps_fieldScope (fun member hmember =>
    hspeaks member _ (hmembers member hmember)) []).bind fun scope _ => ?_
  have htrees := keeps_mapM fun member hmember => keeps_memberNode hi (hmembers member hmember)
  refine (keeps_withReader htrees).bind fun trees htrees =>
    keeps_qualified.bind fun qualifiedName _ => keeps_modifiers.bind fun modifiers _ =>
      keeps_pure (stems_node (.inr ⟨fields, hf⟩) trivial ?_)
  simpa [Shape.children, Shape.slots] using htrees

theorem keeps_methodNode : Keeps T (inner.methodNode fields l) (Stems document T) := by
  refine (keeps_of_reads fun _ _ => reads_methodName).bind fun name _ =>
    (keeps_parameters hspeaks hf).bind fun ps _ => (keeps_statements hi hf (by decide) _).bind
      fun body hbody => keeps_qualified.bind fun qualifiedName _ =>
        keeps_modifiers.bind fun modifiers _ => keeps_pure (stems_node (.inr ⟨fields, hf⟩) trivial ?_)
  simpa [Shape.children, Shape.slots] using hbody

end Standing

/-- The converter of declarations keeps the origin. -/
theorem keeps_declarationNode {outer : Location}
    (hf : Stands document fields (located fields outer)) :
    Keeps T (inner.declarationNode fields outer) (Stems document T) := by
  refine keeps_kindOf.bind fun kind hkind => keeps_located.bind ?_
  rintro l rfl
  split
  · exact keeps_reject
  · split
    · exact keeps_typeNode hi hspeaks hf
    · split
      · exact keeps_methodNode hi hspeaks hf
      · split
        · exact (keeps_of_reads fun _ _ => reads_written).bind fun _ _ => keeps_reject
        · exact keeps_reject

end Converters

/-- **All converters keep the origin** of what they convert. -/
theorem traces_converters (hT : T "function")
    (hspeaks : ∀ fields l, Stands document fields l → Speaks T fields) (depth : Nat) :
    (converters depth).Traces document T := by
  induction depth with
  | zero =>
    exact ⟨fun _ _ _ _ => keeps_reject, fun _ _ _ => keeps_reject, fun _ _ _ => keeps_reject⟩
  | succ depth ih =>
    exact ⟨fun v l hl hv => Converters.keeps_expressionNode ih hspeaks hl hv,
      fun v l hv => Converters.keeps_statementNode ih hspeaks hT hv,
      fun fields l hf => Converters.keeps_declarationNode ih hspeaks hf⟩

end Converters

/-! ## Loaded units -/

section Units

variable {document : Fields} {T : String → Prop}

theorem keeps_unitNode (hT : T "function")
    (hspeaks : ∀ fields l, Stands document fields l → Speaks T fields) (depth : Nat) :
    Keeps T (unitNode depth document) (Stems document T) := by
  refine (keeps_of_reads fun _ _ => reads_comments).bind fun comments _ =>
    (keeps_of_reads fun _ _ => reads_disposableTypes).bind fun types _ =>
      keeps_items.bind fun vs hvs => ?_
  refine (keeps_mapM (Q := Stems document T) fun v hv => ?declaration).bind
    fun declarations hdeclarations => keeps_writtenField.bind fun language _ =>
      (keeps_mapM fun _ _ => keeps_of_reads fun _ _ => reads_written.mono fun _ _ => trivial).bind
        fun names (_ : ∀ name ∈ names, True) => keeps_read.bind fun _ _ =>
          keeps_pure (stems_node (.inl rfl) trivial ?children)
  case declaration =>
    refine keeps_mapping.bind ?_
    rintro fields rfl
    exact (traces_converters hT hspeaks depth).declaration fields start (.outermost (hvs _ hv))
  case children => simpa [Shape.children, Shape.slots] using hdeclarations

theorem quotes_label {ν : Type} {shape : Shape ν} : Quotes T shape.label ↔ Quotes T shape := by
  cases shape <;> rfl

theorem sameSkeleton_ofTree {vars : Array Variable} {t : Tree} {m : Model}
    (hm : Model.ofTree vars t = .ok m) :
    m.root = 0 ∧ (Graph.ofTree vars t).SameSkeleton m.graph := by
  have hskeleton := Graph.sameSkeleton_link (Graph.ofTree vars t) 0
  rw [Model.ofTree] at hm
  rcases hlink : (Graph.ofTree vars t).link 0 with ⟨g, _ | failure⟩
  · rw [hlink] at hm hskeleton
    cases hm
    exact ⟨rfl, hskeleton⟩
  · rw [hlink] at hm
    cases hm

/-- Each node of the unit of a tree stands where a node of the tree does and says the same. -/
theorem exists_tree_of_mem {vars : Array Variable} {t : Tree} {m : Model} {n : NodeId}
    (hm : Model.ofTree vars t = .ok m) (hn : n ∈ m.nodes) :
    ∃ p t', t.at? p = some t' ∧ m.graph.location n = t'.location ∧
      (m.graph.shape n).label = t'.shape.label := by
  obtain ⟨hroot, hskeleton⟩ := sameSkeleton_ofTree hm
  obtain ⟨p, -, hp⟩ := Graph.Rooted.mem_preorderTo.mp hn
  rw [hroot, hskeleton.at?_eq] at hp
  obtain ⟨t', ht', hlays, -⟩ := (Graph.lays_ofTree vars t).exists_at? hp
  refine ⟨p, t', ht', ?_, by rw [hskeleton.shape_eq, hlays.label_eq]⟩
  rw [hskeleton.location_eq, Graph.location, hlays.node_eq]

theorem named_of_ofTree {vars : Array Variable} {t : Tree} {m : Model}
    (hm : Model.ofTree vars t = .ok m) (hnamed : Named T vars) {v : VariableId} (hv : v < vars.size) :
    T (m.graph.variable' v).name ∧ ∀ type ∈ (m.graph.variable' v).typeName, T type := by
  have hsame := (sameSkeleton_ofTree hm).2.variable_eq v
  have htable : (Graph.ofTree vars t).variable' v = vars[v] := by
    rw [Graph.variable', Graph.ofTree, Array.getD_eq_getD_getElem?, Array.getElem?_eq_getElem hv,
      Option.getD_some]
  simp only [htable, Variable.mk.injEq] at hsame
  rw [hsame.1, hsame.2.1]
  exact hnamed _ (Array.getElem_mem hv)

/-- **Where the nodes of a loaded unit come from**: each of them stands where a mapping of the
document does, or at the start, and all texts that messages quote are said by the mappings. -/
theorem origin_of_load {path : Option Path} {m : Model} (hload : load (.map document) path = .ok m)
    (hT : T "function") (hspeaks : ∀ fields l, Stands document fields l → Speaks T fields) :
    (∀ n ∈ m.nodes, Placed document (m.graph.location n) ∧ Quotes T (m.graph.shape n)) ∧
      ∀ v < m.graph.vars.size, T (m.graph.variable' v).name ∧
        ∀ type ∈ (m.graph.variable' v).typeName, T type := by
  rcases load_resolved_or_rejects (.map document) path with
    ⟨fields, p, t, vars, m', hfields, hp, htree, hm, hload', hsize, -⟩ | ⟨e, herror, -⟩
  · cases hfields
    cases hload.symm.trans hload'
    have htrees : tree document p = ((unitNode ((Value.map document).depth + 1) document)
        { path := p, types := [], fields := [] } { vars := #[], scopes := [] }).bind
          fun built => .ok (built.1, built.2.vars) := rfl
    rw [htrees] at htree
    rcases hunit : unitNode ((Value.map document).depth + 1) document
        { path := p, types := [], fields := [] } { vars := #[], scopes := [] } with e | ⟨t', s⟩
    · rw [hunit] at htree
      cases htree
    · rw [hunit] at htree
      cases htree
      obtain ⟨hnamed, hstems⟩ := keeps_unitNode hT hspeaks _ _ _ _ _ hunit
        fun v hv => absurd hv (Array.not_mem_empty v)
      refine ⟨fun n hn => ?_, fun v hv => ?_⟩
      · obtain ⟨q, t', ht', hlocation, hlabel⟩ := exists_tree_of_mem hm hn
        obtain ⟨hplaced, hquotes⟩ := hstems q t' ht'
        rw [← quotes_label, hlabel, quotes_label, hlocation]
        exact ⟨hplaced, hquotes⟩
      · exact named_of_ofTree hm hnamed (hsize ▸ hv)
  · rw [hload] at herror
    cases herror

/-- What an analysis of a loaded unit gives, checked by running both. -/
theorem exists_analysis {document : Value} {path : Option Path} {c : Configuration}
    {P : Model → RunResult → Prop} [∀ m, DecidablePred (P m)]
    (h : (load document path).toOption.any fun m =>
      (c.analyze m).toOption.any fun result => decide (P m result)) :
    ∃ m result, load document path = .ok m ∧ c.analyze m = .ok result ∧ P m result := by
  obtain ⟨m, hload, hchecks⟩ := exists_ok_of_any h
  obtain ⟨result, hanalysis, hP⟩ := exists_ok_of_any hchecks
  exact ⟨m, result, hload, hanalysis, of_decide_eq_true hP⟩

end Units

end ModelLint.Document
