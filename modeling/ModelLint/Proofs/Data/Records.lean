import Mathlib.Data.List.Nodup
import ModelLint.Data.Value

/-!
# Values of JSON texts

The maps of a JSON text have different texts as keys. A map that stands for something by its keys
stands for the same in every order of its entries.

* `Value.at?`: what is found along a path of names.
* `Value.TextKeys`, `Value.lookup_of_mem`: what is found under a key of a map.
* `Value.IsJson`: a value that JSON can have.
* `Value.Reordered`: the same value with its entries in another order, at every depth.
* `Value.Reordered.exists_map`: what stands under a key is reordered.
-/

namespace ModelLint.Value

variable {fields : List (String × Value)} {entries entries' : List (Value × Value)}
  {items items' : List Value} {name : String} {names : List String} {key v v' : Value}

/-! ## Names and paths -/

/-- The value at the end of a path of names through maps. -/
def at? : Value → List String → Option Value
  | v, [] => some v
  | .map entries, name :: names => (lookup entries name).bind (·.at? names)
  | _, _ :: _ => none

@[simp]
theorem at?_nil (v : Value) : v.at? [] = some v := by
  cases v <;> rfl

theorem at?_map : (map entries).at? (name :: names) = (lookup entries name).bind (·.at? names) := rfl

theorem at?_append (v : Value) (names names' : List String) :
    v.at? (names ++ names') = (v.at? names).bind (·.at? names') := by
  induction names generalizing v with
  | nil => rw [List.nil_append, at?_nil, Option.bind_some]
  | cons name names ih =>
    cases v with
    | map entries =>
      rw [List.cons_append, at?_map, at?_map, Option.bind_assoc]
      exact congrArg (Option.bind _) (funext ih)
    | _ => rfl

theorem isText_iff : key.isText name = true ↔ key = .str name := by
  cases key <;> simp [isText]

/-! ## Keys -/

/-- The keys of a map are different texts. -/
structure TextKeys (entries : List (Value × Value)) : Prop where
  /-- Every key is a text. -/
  texts : ∀ key ∈ entries.map Prod.fst, ∃ name, key = .str name
  /-- No key occurs twice. -/
  nodup : (entries.map Prod.fst).Nodup

theorem TextKeys.of_perm (h : TextKeys entries)
    (hperm : (entries.map Prod.fst).Perm (entries'.map Prod.fst)) : TextKeys entries' where
  texts key hkey := h.texts key (hperm.mem_iff.mpr hkey)
  nodup := hperm.nodup_iff.mp h.nodup

theorem TextKeys.tail {entry : Value × Value} (h : TextKeys (entry :: entries)) :
    TextKeys entries where
  texts key hkey := h.texts key (List.mem_cons_of_mem _ hkey)
  nodup := (List.nodup_cons.mp h.nodup).2

section Cons

variable {entry : Value × Value}

theorem lookup_cons_of_eq (h : entry.1 = .str name) :
    lookup (entry :: entries) name = some entry.2 := by
  have hkey : entry.1.isText name = true := isText_iff.mpr h
  simp only [lookup, List.find?_cons, hkey, Option.map_some]

theorem lookup_cons_of_ne (h : entry.1 ≠ .str name) :
    lookup (entry :: entries) name = lookup entries name := by
  have hkey : entry.1.isText name = false := Bool.eq_false_iff.mpr (mt isText_iff.mp h)
  simp only [lookup, List.find?_cons, hkey]

end Cons

theorem lookup_eq_none_iff : lookup entries name = none ↔ .str name ∉ entries.map Prod.fst := by
  induction entries with
  | nil => simp [lookup]
  | cons entry rest ih =>
    rw [List.map_cons, List.mem_cons, not_or, ← ih]
    by_cases hkey : entry.1 = .str name
    · simp [lookup_cons_of_eq hkey, hkey]
    · simp [lookup_cons_of_ne hkey, Ne.symm hkey]

theorem mem_of_lookup (h : lookup entries name = some v) : (.str name, v) ∈ entries := by
  induction entries with
  | nil => cases h
  | cons entry rest ih =>
    by_cases hkey : entry.1 = .str name
    · rw [lookup_cons_of_eq hkey] at h
      cases h
      rw [← hkey]
      exact List.mem_cons_self
    · rw [lookup_cons_of_ne hkey] at h
      exact List.mem_cons_of_mem _ (ih h)

theorem lookup_of_mem (hkeys : TextKeys entries) (h : (.str name, v) ∈ entries) :
    lookup entries name = some v := by
  induction entries with
  | nil => cases h
  | cons entry rest ih =>
    rcases List.mem_cons.mp h with rfl | hrest
    · exact lookup_cons_of_eq rfl
    · rw [lookup_cons_of_ne, ih hkeys.tail hrest]
      intro hkey
      exact (List.nodup_cons.mp hkeys.nodup).1 (hkey ▸ List.mem_map_of_mem hrest)

/-! ## Values of JSON -/

/-- A value that JSON can have: the keys of each map are different texts. -/
inductive IsJson : Value → Prop
  | null : IsJson .null
  | bool (b : Bool) : IsJson (.bool b)
  | int (n : Int) : IsJson (.int n)
  | float (bits : UInt64) : IsJson (.float bits)
  | str (s : String) : IsJson (.str s)
  | list {items : List Value} (h : ∀ v ∈ items, IsJson v) : IsJson (.list items)
  | map {entries : List (Value × Value)} (keys : TextKeys entries)
      (h : ∀ entry ∈ entries, IsJson entry.2) : IsJson (.map entries)

theorem IsJson.textKeys (h : IsJson (.map entries)) : TextKeys entries := by
  cases h with
  | map keys _ => exact keys

theorem IsJson.of_lookup (h : IsJson (.map entries)) (hv : lookup entries name = some v) :
    v.IsJson := by
  cases h with
  | map _ hvalues => exact hvalues _ (mem_of_lookup hv)

theorem IsJson.of_at? (h : v.IsJson) (hv : v.at? names = some v') : v'.IsJson := by
  induction names generalizing v with
  | nil =>
    rw [at?_nil] at hv
    exact Option.some.inj hv ▸ h
  | cons name names ih =>
    cases v with
    | map entries =>
      obtain ⟨inner, hinner, hv⟩ := Option.bind_eq_some_iff.mp hv
      exact ih (h.of_lookup hinner) hv
    | _ => cases hv

theorem IsJson.record (distinct : (fields.map Prod.fst).Nodup)
    (h : ∀ field ∈ fields, IsJson field.2) : IsJson (.record fields) := by
  have hkeys : (fields.map fun field => (Value.str field.1, field.2)).map Prod.fst =
      (fields.map Prod.fst).map Value.str := by
    rw [List.map_map, List.map_map]
    rfl
  show IsJson (.map (fields.map fun field => (.str field.1, field.2)))
  refine .map ⟨?_, ?_⟩ ?_
  · rw [hkeys]
    intro key hkey
    obtain ⟨name, -, rfl⟩ := List.mem_map.mp hkey
    exact ⟨name, rfl⟩
  · rw [hkeys]
    exact distinct.map fun _ _ heq => Value.str.inj heq
  · rw [List.forall_mem_map]
    exact h

/-- The same value with the entries of its maps in another order. -/
inductive Reordered : Value → Value → Prop
  | refl (v : Value) : Reordered v v
  | list {items items' : List Value} (length_eq : items.length = items'.length)
      (h : ∀ pair ∈ items.zip items', Reordered pair.1 pair.2) :
      Reordered (.list items) (.list items')
  | map {entries entries' : List (Value × Value)}
      (keys : (entries.map Prod.fst).Perm (entries'.map Prod.fst))
      (h : ∀ name v v', lookup entries name = some v → lookup entries' name = some v' →
        Reordered v v') : Reordered (.map entries) (.map entries')

theorem Reordered.of_perm (hkeys : TextKeys entries) (h : entries.Perm entries') :
    Reordered (.map entries) (.map entries') := by
  refine .map (h.map _) fun name v v' hv hv' => ?_
  rw [lookup_of_mem hkeys (h.mem_iff.mpr (mem_of_lookup hv'))] at hv
  cases hv
  exact .refl _

/-- Two maps have the same keys, and reordered values under them. -/
structure SameEntries (entries entries' : List (Value × Value)) : Prop where
  /-- The keys are the same. -/
  keys : (entries.map Prod.fst).Perm (entries'.map Prod.fst)
  /-- The values are reordered. -/
  values : ∀ name v v', lookup entries name = some v → lookup entries' name = some v' →
    Reordered v v'

theorem SameEntries.lookup_eq_none (h : SameEntries entries entries')
    (hnone : lookup entries name = none) : lookup entries' name = none := by
  rw [lookup_eq_none_iff] at hnone ⊢
  rwa [← h.keys.mem_iff]

theorem SameEntries.exists_lookup (h : SameEntries entries entries')
    (hv : lookup entries name = some v) : ∃ v', lookup entries' name = some v' ∧ Reordered v v' := by
  cases hv' : lookup entries' name with
  | none =>
    rw [lookup_eq_none_iff, ← h.keys.mem_iff, ← lookup_eq_none_iff, hv] at hv'
    cases hv'
  | some v' => exact ⟨v', rfl, h.values name v v' hv hv'⟩

theorem Reordered.exists_map (h : Reordered (.map entries) v') :
    ∃ entries', v' = .map entries' ∧ SameEntries entries entries' := by
  cases h with
  | refl =>
    refine ⟨entries, rfl, .refl _, fun name v v' hv hv' => ?_⟩
    rw [Option.some.inj (hv.symm.trans hv')]
    exact .refl _
  | map keys values => exact ⟨_, rfl, keys, values⟩

/-- A value without maps in it has one order. -/
def Rigid (v : Value) : Prop := ∀ v', Reordered v v' → v' = v

theorem rigid_null : Rigid .null := by
  rintro _ ⟨⟩
  rfl

theorem rigid_bool (b : Bool) : Rigid (.bool b) := by
  rintro _ ⟨⟩
  rfl

theorem rigid_int (n : Int) : Rigid (.int n) := by
  rintro _ ⟨⟩
  rfl

theorem rigid_float (bits : UInt64) : Rigid (.float bits) := by
  rintro _ ⟨⟩
  rfl

theorem rigid_str (s : String) : Rigid (.str s) := by
  rintro _ ⟨⟩
  rfl

theorem rigid_list (h : ∀ v ∈ items, v.Rigid) : Rigid (.list items) := by
  intro v' hv'
  cases hv' with
  | refl => rfl
  | @list _ items' length_eq hpairs =>
    congr 1
    refine List.ext_getElem length_eq.symm fun i hi' hi => ?_
    refine h items[i] (List.getElem_mem hi) _ (hpairs (items[i], items'[i]) ?_)
    exact List.mem_iff_getElem.mpr ⟨i, by rw [List.length_zip]; omega, List.getElem_zip⟩

theorem Reordered.isTruthy_eq (h : Reordered v v') : v'.isTruthy = v.isTruthy := by
  have hempty : ∀ {xs ys : List Value}, xs.length = ys.length → ys.isEmpty = xs.isEmpty := by
    intro xs ys hlength
    rw [Bool.eq_iff_iff, List.isEmpty_iff_length_eq_zero, List.isEmpty_iff_length_eq_zero, hlength]
  cases h with
  | refl => rfl
  | list length_eq _ => rw [isTruthy, isTruthy, hempty length_eq]
  | map keys _ =>
    have hlength := hempty keys.length_eq
    rw [List.isEmpty_map, List.isEmpty_map] at hlength
    rw [isTruthy, isTruthy, hlength]

/-! ## Written forms -/

theorem isWritable_map : (map entries).isWritable = true ↔
    ∀ entry ∈ entries, entry.1.isWritable = true ∧ entry.2.isWritable = true := by
  rw [isWritable]
  induction entries with
  | nil => simp [entriesAreWritable]
  | cons entry rest ih =>
    rw [entriesAreWritable, Bool.and_eq_true, Bool.and_eq_true, ih, List.forall_mem_cons]

theorem isWritable_of_lookup (h : (map entries).isWritable = true)
    (hv : lookup entries name = some v) : v.isWritable = true :=
  (isWritable_map.mp h _ (mem_of_lookup hv)).2

theorem isWritable_of_at? (h : v.isWritable = true) (hv : v.at? names = some v') :
    v'.isWritable = true := by
  induction names generalizing v with
  | nil =>
    rw [at?_nil] at hv
    exact Option.some.inj hv ▸ h
  | cons name names ih =>
    cases v with
    | map entries =>
      obtain ⟨inner, hinner, hv⟩ := Option.bind_eq_some_iff.mp hv
      exact ih (isWritable_of_lookup h hinner) hv
    | _ => cases hv

end ModelLint.Value
