/-!
# Sets of names

A set of names is its list in increasing order of code points without repetition, so that equal
sets are equal lists and every output of a set is sorted.
-/

namespace ModelLint

/-- A set of names, as an increasing list. -/
abbrev NameSet := List String

namespace NameSet

/-- The set with one more name. -/
def insert (name : String) : NameSet → NameSet
  | [] => [name]
  | n :: rest =>
    if name < n then name :: n :: rest
    else if name = n then n :: rest
    else n :: insert name rest

/-- The set of the names of a list. -/
def ofList (names : List String) : NameSet := names.foldr insert []

theorem mem_insert {name n : String} {s : NameSet} : n ∈ insert name s ↔ n = name ∨ n ∈ s := by
  induction s with
  | nil => simp [insert]
  | cons m rest ih =>
    rw [insert]
    split
    · simp
    · split
      · rename_i heq
        simp [heq]
      · simp only [List.mem_cons, ih]
        exact or_left_comm

theorem mem_ofList {n : String} {names : List String} : n ∈ ofList names ↔ n ∈ names := by
  induction names with
  | nil => rfl
  | cons name rest ih =>
    rw [List.mem_cons, ← ih]
    exact mem_insert

end NameSet

end ModelLint
