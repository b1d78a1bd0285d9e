import Mathlib.Data.List.DropRight
import Mathlib.Data.List.TakeDrop
import Mathlib.Data.String.Basic
import ModelLint.Json.Reader
import ModelLint.Json.Writer

/-!
# Reading what was written

A value without doubles, whose maps have different texts as keys, is read from its written form as it
was: an escape stands for one character only, and a number ends where no digit follows.

* `stringBody_escapeChar`: one escape is read as its character, whatever follows.
* `digitsNat_toDigits`, `number?_toDigits`: the digits of a number are read as the number.
* `Exact`: a value that is read as it was written.
* **`value_prettyAt`**, **`read?_pretty`**: what is read from a written form.
-/

namespace ModelLint.Json

/-! ## Texts -/

theorem digitValue_digitChar : ∀ d < 16, CodeTable.digitValue (Nat.digitChar d) = some d := by
  decide

theorem hexText_succ {w : Nat} (hw : 0 < w) (n : Nat) :
    (Value.hexText (w + 1) n).toList = (Value.hexText w (n / 16)).toList ++ [(n % 16).digitChar] := by
  simp only [Value.hexText, String.toList_ofList]
  rcases Nat.lt_or_ge n 16 with hn | hn
  · obtain ⟨w, rfl⟩ := Nat.exists_eq_add_of_lt hw
    rw [Nat.toDigits_of_lt_base hn, Nat.div_eq_of_lt hn, Nat.mod_eq_of_lt hn, Nat.toDigits_zero,
      List.length_singleton, List.length_singleton, Nat.add_sub_cancel, Nat.zero_add,
      Nat.add_sub_cancel, List.replicate_succ']
  · rw [Nat.toDigits_of_base_le (by decide) hn, List.length_append, List.length_singleton,
      Nat.add_sub_add_right, List.append_assoc]

theorem hexText_one {n : Nat} (hn : n < 16) : (Value.hexText 1 n).toList = [n.digitChar] := by
  rw [Value.hexText, String.toList_ofList, Nat.toDigits_of_lt_base hn, List.length_singleton]
  rfl

theorem exists_unitEscape {n : Nat} (hn : n < 0x10000) :
    ∃ a b c d, unitEscape n = ['\\', 'u', a, b, c, d] ∧ unit? a b c d = some n := by
  refine ⟨(n / 16 / 16 / 16).digitChar, (n / 16 / 16 % 16).digitChar, (n / 16 % 16).digitChar,
    (n % 16).digitChar, ?_, ?_⟩
  · rw [unitEscape, hexText_succ (by decide), hexText_succ (by decide), hexText_succ (by decide),
      hexText_one (by omega)]
    rfl
  · rw [unit?, digitValue_digitChar _ (by omega), digitValue_digitChar _ (by omega),
      digitValue_digitChar _ (by omega), digitValue_digitChar _ (by omega)]
    simp only [Option.bind_eq_bind, Option.bind_some, Option.pure_def, Option.some.injEq]
    omega

theorem not_isLead_toNat (c : Char) : isLead c.toNat = false := by
  have hvalid : c.toNat < 0xD800 ∨ 0xDFFF < c.toNat := by
    rcases c.valid with h | h
    · exact .inl h
    · exact .inr h.1
  rw [isLead, Bool.and_eq_false_iff, decide_eq_false_iff_not, decide_eq_false_iff_not]
  omega

theorem stringBody_letter {e c : Char} (h : escaped? e = some c) (acc rest : List Char) :
    stringBody acc ('\\' :: e :: rest) = stringBody (c :: acc) rest := by
  have hu : e ≠ 'u' := by
    rintro rfl
    cases h
  rw [stringBody, h]
  · simp [hu]
  · simp [hu]

theorem stringBody_unit {a b c d : Char} {n : Nat} (h : unit? a b c d = some n)
    (hlead : isLead n = false) (acc rest : List Char) :
    stringBody acc ('\\' :: 'u' :: a :: b :: c :: d :: rest) =
      stringBody (Char.ofNat n :: acc) rest := by
  rw [stringBody.eq_def]
  split
  · next heq =>
    cases heq
    rw [h]
    split
    · next hsome _ =>
      cases hsome
      rw [hlead, Bool.false_and, if_neg Bool.false_ne_true]
    · next hsome _ =>
      cases hsome
      rfl
    · next hnone => cases hnone
  · next heq =>
    cases heq
    simp only [h]
  · next hunit heq =>
    cases heq
    exact absurd rfl (hunit a b c d rest rfl)
  · next heq => cases heq
  · next hletter _ heq =>
    cases heq
    exact absurd rfl (hletter 'u' _ rfl)
  · next heq => cases heq

/-- The two halves of a pair are read as one character. -/
theorem stringBody_pair {a b c d e f g h : Char} {lead trail : Nat} (hlead : unit? a b c d = some lead)
    (htrail : unit? e f g h = some trail) (hisLead : isLead lead = true)
    (hisTrail : isTrail trail = true) (acc rest : List Char) :
    stringBody acc ('\\' :: 'u' :: a :: b :: c :: d :: '\\' :: 'u' :: e :: f :: g :: h :: rest) =
      stringBody (Char.ofNat (0x10000 + (lead - 0xD800) * 0x400 + (trail - 0xDC00)) :: acc) rest := by
  rw [stringBody, hlead, htrail]
  simp only [hisLead, hisTrail, Bool.and_self, if_true]

theorem stringBody_plain {c : Char} (hquote : c ≠ '"') (hslash : c ≠ '\\') (hc : ' ' ≤ c)
    (acc rest : List Char) : stringBody acc (c :: rest) = stringBody (c :: acc) rest := by
  rw [stringBody, if_neg (Char.not_lt.mpr hc)]
  all_goals simp [hquote, hslash]

/-- **An escape is read as its character**, whatever follows. -/
theorem stringBody_escapeChar (acc : List Char) (c : Char) (rest : List Char) :
    stringBody acc (escapeChar c ++ rest) = stringBody (c :: acc) rest := by
  rw [escapeChar]
  -- Seven characters have a letter.
  iterate 7
    split
    · next h =>
      subst h
      exact stringBody_letter rfl acc rest
  split
  · next hquote hslash _ _ _ _ _ hplain => exact stringBody_plain hquote hslash hplain.1 acc rest
  split
  · next hbasic =>
    obtain ⟨a, b, c', d, hescape, hunit⟩ := exists_unitEscape hbasic
    rw [hescape]
    exact (stringBody_unit hunit (not_isLead_toNat c) acc rest).trans (by rw [Char.ofNat_toNat])
  · next hbeyond =>
    have hlt : c.toNat < 0x110000 := by
      rcases c.valid with h | h
      · exact Nat.lt_trans h (by decide)
      · exact h.2
    obtain ⟨a, b, c', d, hlead, hlead'⟩ :=
      exists_unitEscape (n := 0xD800 + (c.toNat - 0x10000) / 0x400) (by omega)
    obtain ⟨e, f, g, h, htrail, htrail'⟩ :=
      exists_unitEscape (n := 0xDC00 + (c.toNat - 0x10000) % 0x400) (by omega)
    have hnat : 0x10000 + (0xD800 + (c.toNat - 0x10000) / 0x400 - 0xD800) * 0x400 +
        (0xDC00 + (c.toNat - 0x10000) % 0x400 - 0xDC00) = c.toNat := by omega
    rw [hlead, htrail]
    refine (stringBody_pair hlead' htrail' ?_ ?_ acc rest).trans (by rw [hnat, Char.ofNat_toNat])
    · rw [isLead, Bool.and_eq_true, decide_eq_true_eq, decide_eq_true_eq]
      omega
    · rw [isTrail, Bool.and_eq_true, decide_eq_true_eq, decide_eq_true_eq]
      omega

theorem stringBody_quote (cs acc rest : List Char) :
    stringBody acc (cs.flatMap escapeChar ++ '"' :: rest) = some (acc.reverse ++ cs, rest) := by
  induction cs generalizing acc with
  | nil => rw [List.flatMap_nil, List.nil_append, stringBody, List.append_nil]
  | cons c cs ih =>
    rw [List.flatMap_cons, List.append_assoc, stringBody_escapeChar, ih, List.reverse_cons,
      List.append_assoc, List.singleton_append]

/-! ## Numbers -/

/-- What follows a number: nothing, or a character that is no part of one. -/
def EndsNumber (rest : List Char) : Prop :=
  ∀ c ∈ rest.head?, Text.isDigit c = false ∧ c ≠ '.' ∧ c ≠ 'e' ∧ c ≠ 'E'

theorem isDigit_of_mem_toDigits (n : Nat) : ∀ c ∈ Nat.toDigits 10 n, Text.isDigit c = true :=
  fun _ hc => Nat.isDigit_of_mem_toDigits (by decide) (by decide) hc

theorem digitsNat_toDigits (n : Nat) : digitsNat (Nat.toDigits 10 n) = n :=
  Nat.ofDigitChars_ten_toDigits

theorem digits_append {ds rest : List Char} (hds : ∀ c ∈ ds, Text.isDigit c = true)
    (hrest : EndsNumber rest) : digits (ds ++ rest) = (ds, rest) := by
  have hstop : rest.takeWhile Text.isDigit = [] ∧ rest.dropWhile Text.isDigit = rest := by
    rcases rest with _ | ⟨c, rest⟩
    · exact ⟨rfl, rfl⟩
    · have hc : ¬ Text.isDigit c = true := by simp [(hrest c rfl).1]
      exact ⟨List.takeWhile_cons_of_neg hc, List.dropWhile_cons_of_neg hc⟩
  rw [digits, List.span_eq_takeWhile_dropWhile, List.takeWhile_append_of_pos hds,
    List.dropWhile_append_of_pos hds, hstop.1, hstop.2, List.append_nil]

theorem fraction?_of_endsNumber {rest : List Char} (hrest : EndsNumber rest) :
    fraction? rest = none := by
  rw [fraction?.eq_def]
  split
  · exact absurd rfl (hrest '.' rfl).2.1
  · rfl

theorem exponent?_of_endsNumber {rest : List Char} (hrest : EndsNumber rest) :
    exponent? rest = none := by
  rcases rest with _ | ⟨c, rest⟩
  · rfl
  · obtain ⟨-, -, he, hE⟩ := hrest c rfl
    rw [exponent?.eq_def]
    exact if_neg (not_or.mpr ⟨he, hE⟩)

theorem toDigits_eq_cons {n : Nat} (hn : 0 < n) :
    ∃ c ds, Nat.toDigits 10 n = c :: ds ∧ c ≠ '0' := by
  induction n using Nat.strongRecOn with
  | _ n ih =>
    rcases Nat.lt_or_ge n 10 with h | h
    · exact ⟨_, [], Nat.toDigits_of_lt_base h, fun hzero => hn.ne' (Nat.digitChar_eq_zero.mp hzero)⟩
    · obtain ⟨c, ds, heq, hc⟩ := ih (n / 10) (by omega) (by omega)
      rw [Nat.toDigits_of_base_le (by decide) h, heq]
      exact ⟨c, _, rfl, hc⟩

/-- **The digits of a number are read as the number.** -/
theorem number?_toDigits (negative : Bool) (n : Nat) {rest : List Char} (hrest : EndsNumber rest) :
    number? negative (Nat.toDigits 10 n ++ rest) =
      some (.int (if negative then -(n : Int) else n), rest) := by
  have hdigits := digits_append (isDigit_of_mem_toDigits n) hrest
  have hnumber := digitsNat_toDigits n
  rw [number?.eq_def]
  rcases Nat.eq_zero_or_pos n with rfl | hn
  · rw [Nat.toDigits_zero, List.singleton_append]
    simp only [Option.map_some, fraction?_of_endsNumber hrest, exponent?_of_endsNumber hrest]
    rfl
  · obtain ⟨c, ds, heq, hc⟩ := toDigits_eq_cons hn
    rw [heq] at hdigits hnumber ⊢
    rw [List.cons_append] at hdigits ⊢
    split
    · next h =>
      cases h
      exact absurd rfl hc
    · rw [hdigits]
      simp only [Option.map_some, fraction?_of_endsNumber hrest, exponent?_of_endsNumber hrest,
        hnumber]
      rfl

/-! ## Words -/

/-- The words that stand for values. -/
def words : List String := ["null", "true", "false", "NaN", "Infinity", "-Infinity"]

theorem word?_eq_none {cs : List Char} (h : ∀ word ∈ words, word.toList.isPrefixOf cs = false) :
    word? cs = none := by
  simp only [words, List.forall_mem_cons] at h
  obtain ⟨h₁, h₂, h₃, h₄, h₅, h₆, -⟩ := h
  simp only [word?, h₁, h₂, h₃, h₄, h₅, h₆, Bool.false_eq_true, if_false, Option.none_or]

theorem word?_digit {c : Char} (hc : Text.isDigit c = true) (cs : List Char) :
    word? (c :: cs) = none ∧ word? ('-' :: c :: cs) = none := by
  have hne : ∀ l, Text.isDigit l = false → (l == c) = false := by
    intro l hl
    rw [beq_eq_false_iff_ne]
    rintro rfl
    exact absurd hc (by rw [hl]; decide)
  have hstart : ∀ l ls, Text.isDigit l = false → (l :: ls).isPrefixOf (c :: cs) = false :=
    fun l ls hl => by rw [List.isPrefixOf, hne l hl, Bool.false_and]
  constructor
  · apply word?_eq_none
    simp only [words, List.forall_mem_cons]
    exact ⟨hstart 'n' _ rfl, hstart 't' _ rfl, hstart 'f' _ rfl, hstart 'N' _ rfl, hstart 'I' _ rfl,
      hstart '-' _ rfl, List.forall_mem_nil _⟩
  · apply word?_eq_none
    simp only [words, List.forall_mem_cons]
    exact ⟨rfl, rfl, rfl, rfl, rfl, hstart 'I' _ rfl, List.forall_mem_nil _⟩

/-! ## Values -/

theorem value_toDigits (fuel n : Nat) {rest : List Char} (hrest : EndsNumber rest) :
    value (fuel + 1) (Nat.toDigits 10 n ++ rest) = some (.int n, rest) ∧
      value (fuel + 1) ('-' :: Nat.toDigits 10 n ++ rest) = some (.int (-n), rest) := by
  have hnumber := fun negative => number?_toDigits negative n hrest
  have hdigits := isDigit_of_mem_toDigits n
  rcases hds : Nat.toDigits 10 n with _ | ⟨c, ds⟩
  · exact absurd hds Nat.toDigits_ne_nil
  · simp only [hds, List.cons_append] at hnumber hdigits ⊢
    have hc := hdigits c List.mem_cons_self
    obtain ⟨hword, hword'⟩ := word?_digit hc (ds ++ rest)
    constructor
    · rw [value, hword, hnumber]
      · rfl
      all_goals
        rintro rest' heq
        cases heq
        cases hc
    · rw [value, hword', hnumber]
      rfl

theorem toString_ofNat (n : Nat) : (toString (Int.ofNat n)).toList = Nat.toDigits 10 n :=
  String.toList_ofList

theorem toString_negSucc (n : Nat) :
    (toString (Int.negSucc n)).toList = '-' :: Nat.toDigits 10 (n + 1) := by
  change ("-" ++ (n + 1).repr).toList = _
  rw [String.toList_append, Nat.repr, String.toList_ofList, String.toList_ofList]
  rfl

theorem value_int (fuel : Nat) (n : Int) {rest : List Char} (hrest : EndsNumber rest) :
    value (fuel + 1) ((toString n).toList ++ rest) = some (.int n, rest) := by
  cases n with
  | ofNat n =>
    rw [toString_ofNat]
    exact (value_toDigits fuel n hrest).1
  | negSucc n =>
    rw [toString_negSucc]
    exact (value_toDigits fuel (n + 1) hrest).2

/-- A value that is read as it was written: doubles are rounded when they are read, and of two entries
with one key the last one wins. -/
inductive Exact : Value → Prop
  | null : Exact .null
  | bool (b : Bool) : Exact (.bool b)
  | int (n : Int) : Exact (.int n)
  | str (s : String) : Exact (.str s)
  | list {items : List Value} (h : ∀ v ∈ items, Exact v) : Exact (.list items)
  | record {fields : List (String × Value)} (distinct : (fields.map Prod.fst).Nodup)
      (h : ∀ field ∈ fields, Exact field.2) : Exact (.record fields)

/-- What follows a number does not continue it. -/
theorem endsNumber_cons {c : Char} (hc : Text.isDigit c = false ∧ c ≠ '.' ∧ c ≠ 'e' ∧ c ≠ 'E')
    (rest : List Char) : EndsNumber (c :: rest) := by
  intro c' hc'
  cases hc'
  exact hc

theorem newline_toList (level : Nat) :
    (newline level).toList = '\n' :: List.replicate (2 * level) ' ' := by
  rw [newline, String.toList_append, String.toList_ofList, String.toList_ofList]
  rfl

theorem skipBlank_newline (level : Nat) (cs : List Char) :
    skipBlank ((newline level).toList ++ cs) = skipBlank cs := by
  apply List.dropWhile_append_of_pos
  intro c hc
  rw [newline_toList, List.mem_cons] at hc
  rcases hc with rfl | hc
  · rfl
  · cases List.eq_of_mem_replicate hc
    rfl

theorem quote_append (s : String) (cs : List Char) :
    (quote s).toList ++ cs = '"' :: (s.toList.flatMap escapeChar ++ '"' :: cs) := by
  rw [quote, String.toList_ofList, List.append_assoc]
  rfl

/-- The characters that stand before no value: blanks, and the end of a list. -/
def stoppers : List Char := [' ', '\t', '\n', '\r', ']']

theorem notMem_stoppers_of_isDigit {c : Char} (hc : Text.isDigit c = true) : c ∉ stoppers := by
  intro hmem
  have hstop : ∀ d ∈ stoppers, Text.isDigit d = false := by
    simp only [stoppers, List.forall_mem_cons]
    exact ⟨rfl, rfl, rfl, rfl, rfl, List.forall_mem_nil _⟩
  rw [hstop c hmem] at hc
  cases hc

/-- The written form of a value starts neither with a blank nor with the end of a list. -/
theorem exists_prettyAt_eq_cons {v : Value} (h : Exact v) (level : Nat) :
    ∃ c cs, (prettyAt level v).toList = c :: cs ∧ c ∉ stoppers := by
  cases h with
  | null =>
    rw [prettyAt]
    exact ⟨'n', _, rfl, by decide⟩
  | bool b =>
    rw [prettyAt]
    cases b
    · exact ⟨'f', _, rfl, by decide⟩
    · exact ⟨'t', _, rfl, by decide⟩
  | int n =>
    rw [prettyAt]
    cases n with
    | ofNat n =>
      have hdigits := isDigit_of_mem_toDigits n
      rw [toString_ofNat]
      rcases hds : Nat.toDigits 10 n with _ | ⟨c, ds⟩
      · exact absurd hds Nat.toDigits_ne_nil
      · exact ⟨c, ds, rfl, notMem_stoppers_of_isDigit (hdigits c (hds ▸ List.mem_cons_self))⟩
    | negSucc n =>
      rw [toString_negSucc]
      exact ⟨'-', _, rfl, by decide⟩
  | str s =>
    rw [prettyAt, quote, String.toList_ofList]
    exact ⟨'"', _, rfl, by decide⟩
  | @list items h =>
    rcases items with _ | ⟨v, vs⟩
    · rw [prettyAt]
      exact ⟨'[', _, rfl, by decide⟩
    · simp only [prettyAt, String.toList_append, List.append_assoc]
      exact ⟨'[', _, rfl, by decide⟩
  | @record fields =>
    rcases fields with _ | ⟨field, fields⟩
    · rw [Value.record, List.map_nil, prettyAt]
      exact ⟨'\x7b', _, rfl, by decide⟩
    · simp only [Value.record, List.map_cons, prettyAt, String.toList_append, List.append_assoc]
      exact ⟨'\x7b', _, rfl, by decide⟩

theorem skipBlank_cons {c : Char} (hc : c ∉ stoppers) (cs : List Char) :
    skipBlank (c :: cs) = c :: cs := by
  apply List.dropWhile_cons_of_neg
  simp only [Bool.or_eq_true, decide_eq_true_eq]
  rintro (((rfl | rfl) | rfl) | rfl) <;> exact hc (by decide)

theorem skipBlank_prettyAt {v : Value} (h : Exact v) (level : Nat) (rest : List Char) :
    skipBlank ((prettyAt level v).toList ++ rest) = (prettyAt level v).toList ++ rest := by
  obtain ⟨c, cs, heq, hc⟩ := exists_prettyAt_eq_cons h level
  rw [heq]
  exact skipBlank_cons hc _

theorem skipBlank_skipBlank (cs : List Char) : skipBlank (skipBlank cs) = skipBlank cs :=
  List.dropWhile_idempotent _ cs

theorem items_skipBlank (fuel : Nat) (acc : List Value) (cs : List Char) :
    items fuel acc (skipBlank cs) = items fuel acc cs := by
  cases fuel with
  | zero => rw [items, items]
  | succ fuel => rw [items, items, skipBlank_skipBlank]

theorem entries_skipBlank (fuel : Nat) (acc : List (Value × Value)) (cs : List Char) :
    entries fuel acc (skipBlank cs) = entries fuel acc cs := by
  cases fuel with
  | zero => rw [entries, entries]
  | succ fuel => rw [entries, entries, skipBlank_skipBlank]

/-- The entries of a map with text keys. -/
def textEntries (fields : List (String × Value)) : List (Value × Value) :=
  fields.map fun field => (.str field.1, field.2)

/-- What stands between the brackets of a list, without the last line end. -/
def itemsText (level : Nat) (vs : List Value) : String :=
  String.intercalate "," (prettyItems level vs)

/-- What stands between the braces of a map, without the last line end. -/
def entriesText (level : Nat) (fields : List (String × Value)) : String :=
  String.intercalate "," (prettyEntries level (textEntries fields))

theorem itemsText_singleton (level : Nat) (v : Value) :
    itemsText level [v] = newline level ++ prettyAt level v := by
  rw [itemsText, prettyItems, prettyItems, String.intercalate_singleton]

theorem itemsText_cons_cons (level : Nat) (v w : Value) (vs : List Value) :
    itemsText level (v :: w :: vs) =
      newline level ++ prettyAt level v ++ "," ++ itemsText level (w :: vs) := by
  rw [itemsText, itemsText, prettyItems, prettyItems, String.intercalate_cons_cons]

theorem entriesText_singleton (level : Nat) (field : String × Value) :
    entriesText level [field] =
      newline level ++ keyText (.str field.1) ++ ": " ++ prettyAt level field.2 := by
  rw [entriesText, textEntries, List.map_singleton, prettyEntries, prettyEntries,
    String.intercalate_singleton]

theorem entriesText_cons_cons (level : Nat) (field next : String × Value)
    (fields : List (String × Value)) :
    entriesText level (field :: next :: fields) =
      newline level ++ keyText (.str field.1) ++ ": " ++ prettyAt level field.2 ++ "," ++
        entriesText level (next :: fields) := by
  rw [entriesText, entriesText, textEntries, textEntries, List.map_cons, List.map_cons,
    prettyEntries, prettyEntries, String.intercalate_cons_cons]

theorem prettyAt_list (level : Nat) (v : Value) (vs : List Value) :
    prettyAt level (.list (v :: vs)) =
      "[" ++ itemsText (level + 1) (v :: vs) ++ newline level ++ "]" := by
  rw [prettyAt, itemsText]

theorem prettyAt_record (level : Nat) (field : String × Value) (fields : List (String × Value)) :
    prettyAt level (Value.record (field :: fields)) =
      "\x7b" ++ entriesText (level + 1) (field :: fields) ++ newline level ++ "\x7d" := by
  rw [Value.record, List.map_cons, prettyAt]
  rfl

/-- Whether a value is read from its written form at every level, whatever follows. -/
def ReadsBack (v : Value) : Prop :=
  ∀ ⦃fuel level : Nat⦄ ⦃rest : List Char⦄, EndsNumber rest → (prettyAt level v).toList.length < fuel →
    value fuel ((prettyAt level v).toList ++ rest) = some (v, rest)

section Lists

variable {level fuel : Nat}

theorem endsNumber_newline (rest : List Char) : EndsNumber ((newline level).toList ++ rest) := by
  rw [newline_toList, List.cons_append]
  exact endsNumber_cons (by decide) _

theorem endsNumber_comma (rest : List Char) : EndsNumber (",".toList ++ rest) :=
  endsNumber_cons (by decide) rest

theorem items_newline {v : Value} (hexact : Exact v) (hread : ReadsBack v)
    {rest : List Char} (hrest : EndsNumber rest) (hfuel : (prettyAt level v).toList.length < fuel)
    (acc : List Value) :
    items (fuel + 1) acc ((newline level ++ prettyAt level v).toList ++ rest) =
      match skipBlank rest with
      | ',' :: rest => items fuel (v :: acc) rest
      | ']' :: rest => some (.list (v :: acc).reverse, rest)
      | _ => none := by
  rw [items, String.toList_append, List.append_assoc, skipBlank_newline, skipBlank_prettyAt hexact,
    hread hrest hfuel]
  rfl

/-- The items of a list are read behind those read before. -/
theorem items_itemsText {v : Value} {vs : List Value} (hexact : ∀ w ∈ v :: vs, Exact w)
    (hread : ∀ w ∈ v :: vs, ReadsBack w) (close : Nat) (rest : List Char)
    (hfuel : (itemsText level (v :: vs)).toList.length < fuel) (acc : List Value) :
    items fuel acc ((itemsText level (v :: vs)).toList ++ ((newline close).toList ++ ']' :: rest)) =
      some (.list (acc.reverse ++ v :: vs), rest) := by
  obtain ⟨hv, hvs⟩ := List.forall_mem_cons.mp hexact
  obtain ⟨hv', hvs'⟩ := List.forall_mem_cons.mp hread
  obtain ⟨fuel, rfl⟩ : ∃ f, fuel = f + 1 := ⟨fuel - 1, by omega⟩
  induction vs generalizing v fuel acc with
  | nil =>
    rw [itemsText_singleton] at hfuel ⊢
    rw [String.toList_append, newline_toList, List.length_append, List.length_cons] at hfuel
    rw [items_newline hv hv' (endsNumber_newline _) (by omega), skipBlank_newline]
    simp [skipBlank]
  | cons w vs ih =>
    rw [itemsText_cons_cons] at hfuel ⊢
    simp only [String.toList_append, newline_toList, List.length_append, List.length_cons] at hfuel
    rw [String.toList_append, String.toList_append, List.append_assoc, List.append_assoc,
      items_newline hv hv' (endsNumber_comma _) (by omega)]
    obtain ⟨fuel, rfl⟩ : ∃ f, fuel = f + 1 := ⟨fuel - 1, by omega⟩
    refine (ih hvs hvs' (v :: acc) (hvs w List.mem_cons_self)
      (fun u hu => hvs u (List.mem_cons_of_mem _ hu)) (hvs' w List.mem_cons_self)
      (fun u hu => hvs' u (List.mem_cons_of_mem _ hu)) fuel (by omega)).trans ?_
    rw [List.reverse_cons, List.append_assoc, List.singleton_append]

theorem value_bracket {v : Value} (h : Exact v) (vs : List Value) (cs : List Char) :
    value (fuel + 1) ('[' :: ((itemsText level (v :: vs)).toList ++ cs)) =
      items fuel [] ((itemsText level (v :: vs)).toList ++ cs) := by
  obtain ⟨c, rest, heq, hc⟩ := exists_prettyAt_eq_cons h level
  have hstart : ∃ u, (itemsText level (v :: vs)).toList ++ cs =
      (newline level).toList ++ c :: u := by
    rcases vs with _ | ⟨w, vs⟩
    · rw [itemsText_singleton, String.toList_append, heq, List.append_assoc]
      exact ⟨_, rfl⟩
    · rw [itemsText_cons_cons]
      simp only [String.toList_append, heq, List.append_assoc, List.cons_append]
      exact ⟨_, rfl⟩
  obtain ⟨u, hu⟩ := hstart
  rw [hu, ← items_skipBlank, value, skipBlank_newline, skipBlank_cons hc]
  split
  · next hclose =>
    cases hclose
    exact absurd (by decide) hc
  · rfl

end Lists

section Maps

variable {level fuel : Nat}

theorem insert_textEntries {name : String} {fields : List (String × Value)} (v : Value)
    (hnew : name ∉ fields.map Prod.fst) :
    Value.insert (.str name) v (textEntries fields) = textEntries (fields ++ [(name, v)]) := by
  induction fields with
  | nil => rfl
  | cons field fields ih =>
    rw [List.map_cons, List.mem_cons, not_or] at hnew
    have hkey : Value.sameKey (.str field.1) (.str name) = false :=
      beq_eq_false_iff_ne.mpr (Ne.symm hnew.1)
    rw [textEntries, List.map_cons, ← textEntries, Value.insert, hkey, ih hnew.2]
    rfl

theorem notMem_of_nodup {before fields : List (String × Value)} {field : String × Value}
    (h : ((before ++ field :: fields).map Prod.fst).Nodup) : field.1 ∉ before.map Prod.fst := by
  rw [List.map_append, List.map_cons, List.nodup_append] at h
  exact fun hmem => h.2.2 field.1 hmem field.1 List.mem_cons_self rfl

/-- What is read behind an entry, after the blanks. -/
def behindEntry (fuel : Nat) (acc : List (Value × Value)) :
    List Char → Option (Value × List Char)
  | ',' :: rest => entries fuel acc rest
  | '\x7d' :: rest => some (.map acc, rest)
  | _ => none

theorem entries_newline {v : Value} (hexact : Exact v) (hread : ReadsBack v)
    {rest : List Char} (hrest : EndsNumber rest) (hfuel : (prettyAt level v).toList.length < fuel)
    (name : String) (acc : List (Value × Value)) :
    entries (fuel + 1) acc
        ((newline level ++ keyText (.str name) ++ ": " ++ prettyAt level v).toList ++ rest) =
      behindEntry fuel (Value.insert (.str name) v acc) (skipBlank rest) := by
  have hquote : ∀ cs, skipBlank ('"' :: cs) = '"' :: cs := fun cs => rfl
  have hcolon : ∀ cs, skipBlank (": ".toList ++ cs) = ':' :: ' ' :: cs := fun cs => rfl
  have hblank : ∀ cs, skipBlank (' ' :: cs) = skipBlank cs := fun cs => rfl
  simp only [keyText, String.toList_append, List.append_assoc]
  rw [entries, skipBlank_newline, quote_append]
  simp only [hquote, stringBody_quote, hcolon, hblank, skipBlank_prettyAt hexact,
    hread hrest hfuel, Option.bind_eq_bind, Option.bind_some, List.reverse_nil, List.nil_append,
    String.ofList_toList]
  rfl

/-- The entries of a map are read behind those read before. -/
theorem entries_entriesText {field : String × Value} {fields : List (String × Value)}
    (hexact : ∀ f ∈ field :: fields, Exact f.2) (hread : ∀ f ∈ field :: fields, ReadsBack f.2)
    (close : Nat) (rest : List Char)
    (hfuel : (entriesText level (field :: fields)).toList.length < fuel)
    (before : List (String × Value)) (hnew : ((before ++ field :: fields).map Prod.fst).Nodup) :
    entries fuel (textEntries before)
        ((entriesText level (field :: fields)).toList ++ ((newline close).toList ++ '\x7d' :: rest)) =
      some (Value.record (before ++ field :: fields), rest) := by
  obtain ⟨hv, hvs⟩ := List.forall_mem_cons.mp hexact
  obtain ⟨hv', hvs'⟩ := List.forall_mem_cons.mp hread
  obtain ⟨fuel, rfl⟩ : ∃ f, fuel = f + 1 := ⟨fuel - 1, by omega⟩
  induction fields generalizing field fuel before with
  | nil =>
    rw [entriesText_singleton] at hfuel ⊢
    simp only [String.toList_append, newline_toList, List.length_append, List.length_cons] at hfuel
    rw [entries_newline hv hv' (endsNumber_newline _) (by omega), skipBlank_newline,
      insert_textEntries field.2 (notMem_of_nodup hnew)]
    rfl
  | cons next fields ih =>
    rw [entriesText_cons_cons] at hfuel ⊢
    simp only [String.toList_append, newline_toList, List.length_append, List.length_cons] at hfuel
    rw [String.toList_append, String.toList_append, List.append_assoc, List.append_assoc,
      entries_newline hv hv' (endsNumber_comma _) (by omega),
      insert_textEntries field.2 (notMem_of_nodup hnew)]
    obtain ⟨fuel, rfl⟩ : ∃ f, fuel = f + 1 := ⟨fuel - 1, by omega⟩
    have hbehind : before ++ [(field.1, field.2)] ++ next :: fields =
        before ++ field :: next :: fields := by
      rw [List.append_assoc, List.singleton_append]
    rw [← hbehind] at hnew ⊢
    exact ih hvs hvs' _ hnew (hvs next List.mem_cons_self)
      (fun f hf => hvs f (List.mem_cons_of_mem _ hf)) (hvs' next List.mem_cons_self)
      (fun f hf => hvs' f (List.mem_cons_of_mem _ hf)) fuel (by omega)

theorem value_brace (field : String × Value) (fields : List (String × Value)) (cs : List Char) :
    value (fuel + 1) ('\x7b' :: ((entriesText level (field :: fields)).toList ++ cs)) =
      entries fuel [] ((entriesText level (field :: fields)).toList ++ cs) := by
  have hstart : ∃ u, (entriesText level (field :: fields)).toList ++ cs =
      (newline level).toList ++ '"' :: u := by
    rcases fields with _ | ⟨next, fields⟩
    · rw [entriesText_singleton, keyText]
      simp only [String.toList_append, List.append_assoc, quote_append]
      exact ⟨_, rfl⟩
    · rw [entriesText_cons_cons, keyText]
      simp only [String.toList_append, List.append_assoc, quote_append]
      exact ⟨_, rfl⟩
  obtain ⟨u, hu⟩ := hstart
  rw [hu, ← entries_skipBlank, value, skipBlank_newline, skipBlank_cons (by decide)]
  rfl

end Maps

/-- **A value is read from its written form**, whatever follows that does not continue a number. -/
theorem value_prettyAt {v : Value} (h : Exact v) : ReadsBack v := by
  induction h with
  | null =>
    intro fuel level rest _ hfuel
    obtain ⟨fuel, rfl⟩ : ∃ f, fuel = f + 1 := ⟨fuel - 1, by omega⟩
    rw [prettyAt]
    rfl
  | bool b =>
    intro fuel level rest _ hfuel
    obtain ⟨fuel, rfl⟩ : ∃ f, fuel = f + 1 := ⟨fuel - 1, by omega⟩
    rw [prettyAt]
    cases b <;> rfl
  | int n =>
    intro fuel level rest hrest hfuel
    obtain ⟨fuel, rfl⟩ : ∃ f, fuel = f + 1 := ⟨fuel - 1, by omega⟩
    rw [prettyAt]
    exact value_int fuel n hrest
  | str s =>
    intro fuel level rest _ hfuel
    obtain ⟨fuel, rfl⟩ : ∃ f, fuel = f + 1 := ⟨fuel - 1, by omega⟩
    rw [prettyAt, quote_append, value, stringBody_quote]
    simp
  | @list items hexact ih =>
    intro fuel level rest _ hfuel
    obtain ⟨fuel, rfl⟩ : ∃ f, fuel = f + 1 := ⟨fuel - 1, by omega⟩
    cases items with
    | nil =>
      rw [prettyAt]
      rfl
    | cons v vs =>
      have hopen : ∀ cs, "[".toList ++ cs = '[' :: cs := fun cs => rfl
      have hlength : "[".toList.length = 1 := rfl
      have hclose : ∀ cs, "]".toList ++ cs = ']' :: cs := fun cs => rfl
      rw [prettyAt_list] at hfuel ⊢
      simp only [String.toList_append, List.append_assoc, List.length_append, hlength] at hfuel
      simp only [String.toList_append, List.append_assoc]
      rw [hopen, hclose, value_bracket (hexact v List.mem_cons_self)]
      exact items_itemsText hexact ih level rest (by omega) []
  | @record fields distinct hexact ih =>
    intro fuel level rest _ hfuel
    obtain ⟨fuel, rfl⟩ : ∃ f, fuel = f + 1 := ⟨fuel - 1, by omega⟩
    cases fields with
    | nil =>
      rw [Value.record, List.map_nil, prettyAt]
      rfl
    | cons field fields =>
      have hopen : ∀ cs, "\x7b".toList ++ cs = '\x7b' :: cs := fun cs => rfl
      have hlength : "\x7b".toList.length = 1 := rfl
      have hclose : ∀ cs, "\x7d".toList ++ cs = '\x7d' :: cs := fun cs => rfl
      rw [prettyAt_record] at hfuel ⊢
      simp only [String.toList_append, List.append_assoc, List.length_append, hlength] at hfuel
      simp only [String.toList_append, List.append_assoc]
      rw [hopen, hclose, value_brace]
      exact entries_entriesText hexact ih level rest (by omega) [] distinct

/-- A written text is read as its value, also with blanks behind it. -/
theorem read?_append {v : Value} (h : Exact v) (tail : String) (hends : EndsNumber tail.toList)
    (hblank : skipBlank tail.toList = []) : read? (pretty v ++ tail) = some v := by
  have hread := @value_prettyAt v h (2 * (pretty v ++ tail).toList.length + 1) 0 tail.toList hends
    (by rw [pretty, String.toList_append, List.length_append]; omega)
  rw [← pretty, ← String.toList_append] at hread
  rw [read?, String.toList_append, pretty, skipBlank_prettyAt h, ← pretty, ← String.toList_append,
    hread]
  exact if_pos hblank

end ModelLint.Json
