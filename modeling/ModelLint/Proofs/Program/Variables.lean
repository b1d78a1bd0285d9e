import ModelLint.Program.Basic

/-!
# Tables of variables

A front end adds variables to a table, one after the other, and changes none. A variable is **born**
once the table is longer than its number.

* `Extends`: one table continues another.
* `HasKind`: a variable of some kind is in a table.
* `born`: whether a variable is there, as a number that counts can be compared with.
-/

namespace ModelLint

variable {vars vars' vars'' : Array Variable} {P : VariableKind → Prop} {n v : Nat}

/-- The table of variables has only grown. -/
def Extends (vars vars' : Array Variable) : Prop :=
  ∀ (v : VariableId) var, vars[v]? = some var → vars'[v]? = some var

/-- A variable is in the table and of a kind that is asked for. -/
def HasKind (vars : Array Variable) (P : VariableKind → Prop) (v : VariableId) : Prop :=
  ∃ var, vars[v]? = some var ∧ P var.kind

/-- Whether a variable is in a table of a size, as a number. -/
def born (n v : Nat) : Nat := if v < n then 1 else 0

theorem Extends.refl (vars : Array Variable) : Extends vars vars := fun _ _ h => h

theorem Extends.trans (h : Extends vars vars') (h' : Extends vars' vars'') : Extends vars vars'' :=
  fun v var hv => h' v var (h v var hv)

theorem extends_push (vars : Array Variable) (var : Variable) : Extends vars (vars.push var) := by
  intro v w hv
  have hlt := (Array.getElem?_eq_some_iff.mp hv).1
  rw [Array.getElem?_push, if_neg (by omega), hv]

theorem Extends.size_le (h : Extends vars vars') : vars.size ≤ vars'.size := by
  refine Nat.le_of_not_lt fun hlt => ?_
  have hlast := h vars'.size _ (Array.getElem?_eq_getElem hlt)
  exact Nat.lt_irrefl _ (Array.getElem?_eq_some_iff.mp hlast).1

theorem HasKind.extends (h : HasKind vars P v) (hx : Extends vars vars') : HasKind vars' P v :=
  h.imp fun var hvar => ⟨hx v var hvar.1, hvar.2⟩

theorem born_of_lt (h : v < n) : born n v = 1 := if_pos h

theorem born_of_le (h : n ≤ v) : born n v = 0 := if_neg (Nat.not_lt.mpr h)

theorem born_le_one (n v : Nat) : born n v ≤ 1 := by
  rw [born]
  split <;> omega

theorem lt_of_born_pos (h : 0 < born n v) : v < n := by
  refine Nat.lt_of_not_le fun hle => ?_
  rw [born_of_le hle] at h
  exact Nat.lt_irrefl 0 h

theorem count_singleton_add_born (n v : Nat) : [n].count v + born n v = born (n + 1) v := by
  rw [List.count_singleton, born, born]
  by_cases hv : n = v
  · simp [hv]
  · have hiff : v < n + 1 ↔ v < n := by omega
    simp [hv, hiff]

end ModelLint
