import Mathlib.Data.List.TakeWhile
import ModelLint.Rules.Pattern

/-!
# Types in other words

A type may be written with the namespace that it stands in, with arguments, with question marks and
with blanks around it. All of these are taken off before it is compared by its base name, so a type
that counts as a resource counts as one in every such form.

* `IsPlain`, `Arguments`, `Decorates`: the forms of a type.
* `trim_append`, `dropEndWhile_append`, `dropArguments_append`, `lastSegment_append`: what each step
  takes off.
* **`base?_decorated`**: the base name of every form, and that every form of a resource is one.
-/

namespace ModelLint

/-! ## Ends of texts -/

namespace Text

variable {p : Char → Bool} {before cs after : List Char} {c : Char}

theorem dropEndWhile_append (hafter : ∀ c ∈ after, p c = true) (hc : p c = false) :
    dropEndWhile p (cs ++ c :: after) = cs ++ [c] := by
  have hreverse : (cs ++ c :: after).reverse = after.reverse ++ (c :: cs.reverse) := by simp
  have hafter' : ∀ c ∈ after.reverse, p c = true := fun c hc => hafter c (List.mem_reverse.mp hc)
  rw [dropEndWhile, hreverse, List.dropWhile_append_of_pos hafter',
    List.dropWhile_cons_of_neg (by simp [hc]), List.reverse_cons, List.reverse_reverse]

theorem trim_append (hbefore : ∀ c ∈ before, isBlank c = true)
    (hafter : ∀ c ∈ after, isBlank c = true) (hne : cs ≠ [])
    (hhead : isBlank (cs.head hne) = false) (hlast : isBlank (cs.getLast hne) = false) :
    trim (before ++ (cs ++ after)) = cs := by
  have hdrop : (before ++ (cs ++ after)).dropWhile isBlank = cs ++ after := by
    rw [List.dropWhile_append_of_pos hbefore, ← List.cons_head_tail hne, List.cons_append,
      List.dropWhile_cons_of_neg (by simp [hhead])]
  have hsplit : cs ++ after = cs.dropLast ++ cs.getLast hne :: after := by
    rw [← List.singleton_append, ← List.append_assoc, List.dropLast_concat_getLast]
  rw [trim, hdrop, hsplit, dropEndWhile_append hafter hlast, List.dropLast_concat_getLast]

end Text

namespace TypeName

variable {name cs inside arguments : List Char} {names : List (List Char)} {marks : Nat}

/-! ## The forms of a type -/

/-- A name without blanks, points, brackets and question marks. -/
structure IsPlain (name : List Char) : Prop where
  /-- There is a name. -/
  nonempty : name ≠ []
  /-- Its characters are no blanks. -/
  notBlank : ∀ c ∈ name, Text.isBlank c = false
  /-- Its characters are no marks. -/
  notMark : ∀ c ∈ name, c ∉ ['.', '[', ']', '<', '>', '?']

theorem isPlain_iff : IsPlain name ↔ name ≠ [] ∧ (name.all fun c => !Text.isBlank c) = true ∧
    (name.all fun c => !List.contains ['.', '[', ']', '<', '>', '?'] c) = true := by
  simp only [List.all_eq_true, Bool.not_eq_true', ← Bool.not_eq_true, List.contains_iff_mem]
  exact ⟨fun h => ⟨h.1, by simpa using h.2, h.3⟩, fun h => ⟨h.1, by simpa using h.2.1, h.2.2⟩⟩

instance (name : List Char) : Decidable (IsPlain name) := decidable_of_iff' _ isPlain_iff

/-- The arguments of a type, if there are any: anything on one line, in brackets of either kind. -/
inductive Arguments : List Char → Prop where
  /-- There are no arguments. -/
  | none : Arguments []
  /-- Arguments in angle brackets. -/
  | angle {inside : List Char} (h : '\n' ∉ inside) : Arguments ('<' :: (inside ++ ['>']))
  /-- Arguments in square brackets. -/
  | square {inside : List Char} (h : '\n' ∉ inside) : Arguments ('[' :: (inside ++ [']']))

/-- The names of a namespace, each with a point behind it. -/
def namespacePath (names : List (List Char)) : List Char := names.flatMap fun name => name ++ ['.']

/-- **A form of a type**: the name, with a namespace before it, arguments and question marks behind it,
and blanks around it. -/
def Decorates (type name : String) : Prop :=
  ∃ before names arguments marks after,
    type.toList = before ++ ((namespacePath names ++ (name.toList ++
      (arguments ++ List.replicate marks '?'))) ++ after) ∧
    (∀ c ∈ before, Text.isBlank c = true) ∧ (∀ c ∈ after, Text.isBlank c = true) ∧
    (∀ name ∈ names, IsPlain name) ∧ Arguments arguments

theorem IsPlain.notMem (h : IsPlain name) {c : Char} (hc : c ∈ ['.', '[', ']', '<', '>', '?']) :
    c ∉ name := fun hmem => h.notMark c hmem hc

/-- Of the characters that take part in the later steps a namespace has only the point. -/
theorem notMem_namespacePath {c : Char} (hnames : ∀ name ∈ names, IsPlain name)
    (hc : c ∈ ['[', ']', '<', '>', '?']) : c ∉ namespacePath names := by
  intro hmem
  obtain ⟨name, hname, hmem⟩ := List.mem_flatMap.mp hmem
  rcases List.mem_append.mp hmem with hmem | hmem
  · exact (hnames name hname).notMark c hmem (List.mem_cons_of_mem _ hc)
  · obtain rfl := List.mem_singleton.mp hmem
    exact absurd hc (by decide)

theorem namespacePath_eq (names : List (List Char)) :
    namespacePath names = [] ∨ ∃ path, namespacePath names = path ++ ['.'] := by
  rcases List.eq_nil_or_concat names with rfl | ⟨names, name, rfl⟩
  · exact .inl rfl
  · refine .inr ⟨namespacePath names ++ name, ?_⟩
    simp [namespacePath]

/-! ## What each step takes off -/

theorem closing?_angle (h : '\n' ∉ inside) : closing? (inside ++ ['>']) = some [] := by
  have hreverse : (inside ++ ['>']).reverse = '>' :: inside.reverse := by simp
  rw [closing?, hreverse]
  simp [h]

theorem dropArguments_append (h : '<' ∉ cs) (rest : List Char) :
    dropArguments (cs ++ rest) = cs ++ dropArguments rest := by
  induction cs with
  | nil => rfl
  | cons c cs ih =>
    rw [List.mem_cons, not_or] at h
    rw [List.cons_append, dropArguments, if_neg (Ne.symm h.1), ih h.2, List.cons_append]

/-- Without the arguments in angle brackets and everything from a square bracket on, nothing is left of
arguments. -/
theorem takeWhile_dropArguments (h : Arguments arguments) :
    (dropArguments arguments).takeWhile (· ≠ '[') = [] := by
  cases h with
  | none => rfl
  | angle hinside => rw [dropArguments, if_pos rfl, closing?_angle hinside]; rfl
  | square => rw [dropArguments, if_neg (by decide)]; rfl

theorem lastSegment_append (h : '.' ∉ name) : lastSegment (namespacePath names ++ name) = name := by
  have hname : ∀ c ∈ name.reverse, decide (c ≠ '.') = true := fun c hc => by
    simpa using fun heq : c = '.' => h (heq ▸ List.mem_reverse.mp hc)
  have hnil : (namespacePath names).reverse.takeWhile (· ≠ '.') = [] := by
    rcases namespacePath_eq names with hpath | ⟨path, hpath⟩
    · rw [hpath]
      rfl
    · rw [hpath, List.reverse_append, List.reverse_singleton, List.singleton_append,
        List.takeWhile_cons_of_neg (by decide)]
  rw [lastSegment, List.reverse_append, List.takeWhile_append_of_pos hname, hnil, List.append_nil,
    List.reverse_reverse]

/-! ## Base names -/

/-- A name with its arguments ends with a character that is neither a blank nor a question mark. -/
theorem exists_last (hname : IsPlain name) (harguments : Arguments arguments) :
    ∃ before c, name ++ arguments = before ++ [c] ∧ Text.isBlank c = false ∧ c ≠ '?' := by
  cases harguments with
  | none =>
    refine ⟨name.dropLast, name.getLast hname.nonempty, ?_, ?_, ?_⟩
    · rw [List.append_nil, List.dropLast_concat_getLast]
    · exact hname.notBlank _ (List.getLast_mem _)
    · rintro heq
      exact hname.notMem (c := '?') (by decide) (heq ▸ List.getLast_mem _)
  | @angle inside =>
    refine ⟨name ++ '<' :: inside, '>', ?_, by decide +kernel, by decide⟩
    rw [List.append_assoc, List.cons_append]
  | @square inside =>
    refine ⟨name ++ '[' :: inside, ']', ?_, by decide +kernel, by decide⟩
    rw [List.append_assoc, List.cons_append]

theorem isBlank_head (hname : IsPlain name) (hnames : ∀ name ∈ names, IsPlain name)
    (rest : List Char) (hne : namespacePath names ++ (name ++ rest) ≠ []) :
    Text.isBlank ((namespacePath names ++ (name ++ rest)).head hne) = false := by
  cases names with
  | nil =>
    refine hname.notBlank _ ?_
    simp [namespacePath, List.head_append_of_ne_nil hname.nonempty]
  | cons first names =>
    have hfirst := hnames first List.mem_cons_self
    refine hfirst.notBlank _ ?_
    simp [namespacePath, List.head_append_of_ne_nil hfirst.nonempty]

theorem dropMarks {before after : List Char} (hbefore : ∀ c ∈ before, Text.isBlank c = true)
    (hafter : ∀ c ∈ after, Text.isBlank c = true) (hname : IsPlain name)
    (hnames : ∀ name ∈ names, IsPlain name) (harguments : Arguments arguments) :
    Text.dropEndWhile (· == '?') (Text.trim (before ++ ((namespacePath names ++ (name ++
      (arguments ++ List.replicate marks '?'))) ++ after))) =
        namespacePath names ++ (name ++ arguments) := by
  obtain ⟨core, c, hcore, hblank, hmark⟩ := exists_last hname harguments
  have hbody : namespacePath names ++ (name ++ (arguments ++ List.replicate marks '?')) =
      (namespacePath names ++ core) ++ c :: List.replicate marks '?' := by
    rw [← List.append_assoc name, hcore]
    simp
  have hne : namespacePath names ++ (name ++ (arguments ++ List.replicate marks '?')) ≠ [] := by
    rw [hbody]
    simp
  have hlast : Text.isBlank ((namespacePath names ++ (name ++ (arguments ++
      List.replicate marks '?'))).getLast hne) = false := by
    simp only [hbody]
    rw [List.getLast_append_of_ne_nil _ (List.cons_ne_nil _ _)]
    cases marks with
    | zero => exact hblank
    | succ marks =>
      have hquestion : ∀ d ∈ List.replicate (marks + 1) '?', Text.isBlank d = false := by
        intro d hd
        rw [List.eq_of_mem_replicate hd]
        decide +kernel
      rw [List.getLast_cons (by simp)]
      exact hquestion _ (List.getLast_mem _)
  rw [Text.trim_append hbefore hafter hne (isBlank_head hname hnames _ hne) hlast, hbody,
    Text.dropEndWhile_append (fun d hd => by simp [List.eq_of_mem_replicate hd]) (by simpa using hmark),
    List.append_assoc, hcore]

theorem base?_eq {type name : String} (hname : IsPlain name.toList) (htype : Decorates type name) :
    base? type = some name := by
  obtain ⟨before, names, arguments, marks, after, heq, hbefore, hafter, hnames, harguments⟩ := htype
  have hangle : '<' ∉ namespacePath names ++ name.toList := fun hmem => by
    rcases List.mem_append.mp hmem with hmem | hmem
    · exact notMem_namespacePath hnames (by decide) hmem
    · exact hname.notMem (by decide) hmem
  have hsquare : ∀ c ∈ namespacePath names ++ name.toList, decide (c ≠ '[') = true := by
    intro c hc
    rw [decide_eq_true_eq]
    rintro rfl
    rcases List.mem_append.mp hc with hc | hc
    · exact notMem_namespacePath hnames (by decide) hc
    · exact hname.notMem (by decide) hc
  have hlast : lastSegment ((dropArguments (namespacePath names ++ (name.toList ++
      arguments))).takeWhile (· ≠ '[')) = name.toList := by
    rw [← List.append_assoc, dropArguments_append hangle, List.takeWhile_append_of_pos hsquare,
      takeWhile_dropArguments harguments, List.append_nil,
      lastSegment_append (hname.notMem (by decide))]
  simp only [base?, heq, dropMarks hbefore hafter hname hnames harguments, hlast]
  split
  · next hnil => exact absurd hnil hname.nonempty
  · rw [String.ofList_toList]

/-- What counts as a resource, for a type whose base name is known. -/
theorem isResource_some {type name : String} {patterns : List String} {disposable : NameSet}
    (hbase : base? type = some name) : isResource patterns disposable (some type) =
      (Pattern.anyAccepts patterns type || Pattern.anyAccepts patterns name ||
        disposable.contains type || disposable.contains name) := by
  have hne : type ≠ "" := by
    rintro rfl
    have hempty : base? "" = none := by decide
    rw [hempty] at hbase
    cases hbase
  rw [isResource]
  · simp only [isMatchedBy, hbase, Pattern.anyAccepts?, Option.any_some]
  · exact fun heq => hne heq

/-- **Every form of a type has its name as base name**, and every form of a resource is a resource:
whatever the patterns are, and whatever types are known to be resources. -/
theorem base?_decorated {type name : String} (hname : IsPlain name.toList)
    (htype : Decorates type name) :
    base? type = some name ∧ ∀ (patterns : List String) (disposable : NameSet),
      isResource patterns disposable (some name) = true →
        isResource patterns disposable (some type) = true := by
  have hself : Decorates name name :=
    ⟨[], [], [], 0, [], by simp [namespacePath], List.forall_mem_nil _, List.forall_mem_nil _,
      List.forall_mem_nil _, .none⟩
  refine ⟨base?_eq hname htype, fun patterns disposable hresource => ?_⟩
  rw [isResource_some (base?_eq hname hself), Bool.or_self, Bool.or_assoc, Bool.or_self,
    Bool.or_eq_true] at hresource
  rw [isResource_some (base?_eq hname htype)]
  simp only [Bool.or_eq_true]
  exact hresource.elim (fun h => .inl (.inl (.inr h))) .inr

/-- A type in a namespace, with arguments that hold points and brackets of both kinds, question marks
and blanks. -/
theorem base?_mapType :
    base? " Sys.Coll.Map<a.B[], List<int>>?? \n" = some "Map" ∧
      isResource ["Map"] [] (some " Sys.Coll.Map<a.B[], List<int>>?? \n") = true := by
  have hmap : IsPlain "Map".toList := by decide +kernel
  have htype : Decorates " Sys.Coll.Map<a.B[], List<int>>?? \n" "Map" := by
    refine ⟨[' '], ["Sys".toList, "Coll".toList], "<a.B[], List<int>>".toList, 2, [' ', '\n'],
      by decide, List.forall_mem_singleton.mpr (by decide +kernel), ?after, ?names, ?arguments⟩
    case after => exact List.forall_mem_cons.mpr ⟨by decide +kernel,
      List.forall_mem_singleton.mpr (by decide +kernel)⟩
    case names => exact List.forall_mem_cons.mpr ⟨by decide +kernel,
      List.forall_mem_singleton.mpr (by decide +kernel)⟩
    case arguments =>
      have hline : '\n' ∉ "a.B[], List<int>".toList := by decide
      exact .angle hline
  have h := base?_decorated hmap htype
  exact ⟨h.1, h.2 ["Map"] [] (by decide +kernel)⟩

end TypeName

end ModelLint
