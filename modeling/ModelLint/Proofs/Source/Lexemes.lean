import Mathlib.Data.List.TakeWhile
import Mathlib.Data.List.TakeDrop
import ModelLint.Source.Token

/-!
# What a scan for tokens reads

A scan cuts a text into words, brackets, string literals, comments, line ends and joined lines. `Lexed`
says so of the text that is left, with the tokens of its literals and the comments that it skips: no
other part of a text holds a quote, a `#` or a backslash.

* `number_grows`, `operator?_eq_some`, `isLiteral_quoted`: a token is the text that it was read from.
* `Closes`, `IsLiteral`: literals with single quotes and with tripled ones.
* `Scan.Reads`, `Scan.reads_step`: all that a step can read.
* `measure_lexed`, `measure_suffix`: what is read at the start of a line.
* **`Scan.lexed_run`**: what a scan that reaches the end has read.
-/

namespace ModelLint.Source.Token

/-! ## Characters -/

/-- A character that starts no literal and no comment, and joins no lines. -/
def IsPlain (c : Char) : Prop := c ∉ ['#', '\\', '\'', '"']

/-- A plain character that is no bracket and ends no line. -/
def IsWordChar (c : Char) : Prop :=
  c ∉ ['#', '\\', '\'', '"', '\n', '(', '[', '\x7b', ')', ']', '\x7d']

instance (c : Char) : Decidable (IsPlain c) := inferInstanceAs (Decidable (¬ _))

instance (c : Char) : Decidable (IsWordChar c) := inferInstanceAs (Decidable (¬ _))

variable {c : Char} {cs w rest after text start : List Char} {isDigit : Char → Bool}

theorem IsWordChar.isPlain (h : IsWordChar c) : IsPlain c := by
  simp only [IsWordChar, IsPlain, List.mem_cons, List.not_mem_nil, or_false, not_or] at h ⊢
  exact ⟨h.1, h.2.1, h.2.2.1, h.2.2.2.1⟩

/-- A character is of a class that has none of the marks. -/
theorem isWordChar_of {p : Char → Bool}
    (hp : ['#', '\\', '\'', '"', '\n', '(', '[', '\x7b', ')', ']', '\x7d'].any p = false)
    (hc : p c = true) : IsWordChar c := by
  intro hmem
  rw [List.any_eq_false] at hp
  exact hp c hmem hc

theorem isWordChar_of_isNameChar (h : isNameChar c = true) : IsWordChar c :=
  isWordChar_of (by decide) h

theorem isWordChar_blank (h : c = ' ' ∨ c = '\t' ∨ c = '\x0c') : IsWordChar c := by
  rcases h with rfl | rfl | rfl <;> decide

/-! ## Numbers -/

/-- A character of a number. -/
def isNumberChar (c : Char) : Bool := c.isAlphanum || ['.', '_', '+', '-'].contains c

theorem isWordChar_of_isNumberChar (h : isNumberChar c = true) : IsWordChar c :=
  isWordChar_of (by decide) h

/-- A text grows by what is read off the rest, which are characters of a number. -/
def Grows (start rest : List Char) (read : List Char × List Char) : Prop :=
  ∃ w, read.1 = start ++ w ∧ rest = w ++ read.2 ∧ ∀ c ∈ w, isNumberChar c = true

variable {read : List Char × List Char}

theorem Grows.refl : Grows start rest (start, rest) :=
  ⟨[], (List.append_nil _).symm, rfl, List.forall_mem_nil _⟩

theorem Grows.append (hw : ∀ c ∈ w, isNumberChar c = true) (h : Grows (start ++ w) rest read) :
    Grows start (w ++ rest) read := by
  obtain ⟨w', hread, rfl, hw'⟩ := h
  exact ⟨w ++ w', by rw [hread, List.append_assoc], by rw [List.append_assoc],
    List.forall_mem_append.mpr ⟨hw, hw'⟩⟩

theorem Grows.cons (hc : isNumberChar c = true) (h : Grows (start ++ [c]) rest read) :
    Grows start (c :: rest) read :=
  Grows.append (w := [c]) (List.forall_mem_singleton.mpr hc) h

theorem digitRun_append (hdigit : ∀ c, isDigit c = true → isNumberChar c = true)
    (h : digitRun isDigit cs = some (w, after)) :
    cs = w ++ after ∧ ∀ c ∈ w, isNumberChar c = true := by
  fun_induction digitRun isDigit cs generalizing w after with
  | case1 c rest hc ih =>
    obtain ⟨⟨ds, after'⟩, hrun, heq⟩ := Option.map_eq_some_iff.mp h
    obtain ⟨rfl, rfl⟩ := Prod.mk.inj heq
    obtain ⟨rfl, hds⟩ := ih hrun
    exact ⟨rfl, List.forall_mem_cons.mpr ⟨by decide, List.forall_mem_cons.mpr ⟨hdigit _ hc, hds⟩⟩⟩
  | case2 => cases h
  | case3 c rest _ hc ih =>
    obtain ⟨⟨ds, after'⟩, hrun, heq⟩ := Option.map_eq_some_iff.mp h
    obtain ⟨rfl, rfl⟩ := Prod.mk.inj heq
    obtain ⟨rfl, hds⟩ := ih hrun
    exact ⟨rfl, List.forall_mem_cons.mpr ⟨hdigit _ hc, hds⟩⟩
  | case4 => cases h
  | case5 c rest =>
    obtain ⟨rfl, rfl⟩ := Prod.mk.inj (Option.some.inj h)
    exact ⟨rfl, List.forall_mem_nil _⟩
  | case6 =>
    obtain ⟨rfl, rfl⟩ := Prod.mk.inj (Option.some.inj h)
    exact ⟨rfl, List.forall_mem_nil _⟩

theorem isNumberChar_of_isAlphanum (h : c.isAlphanum = true) : isNumberChar c = true := by
  rw [isNumberChar, h, Bool.true_or]

theorem isNumberChar_of_isDigit (h : c.isDigit = true) : isNumberChar c = true :=
  isNumberChar_of_isAlphanum (by simp [Char.isAlphanum, h])

theorem endNumber_grows (h : endNumber start rest = some read) : Grows start rest read := by
  rw [endNumber] at h
  split at h
  · cases h
    exact .refl
  · cases h

theorem imaginaryPart_grows (h : imaginaryPart start rest = some read) : Grows start rest read := by
  rw [imaginaryPart.eq_def] at h
  split at h
  · next c after =>
    split at h
    · next hc =>
      exact .cons (by rcases hc with rfl | rfl <;> decide) (endNumber_grows h)
    · exact endNumber_grows h
  · exact endNumber_grows h

theorem exponentPart_grows (h : exponentPart start rest = some read) : Grows start rest read := by
  rw [exponentPart.eq_def] at h
  split at h
  · next e after =>
    split at h
    · next he =>
      have hexponent : isNumberChar e = true := by rcases he with rfl | rfl <;> decide
      -- the digits behind the exponent's sign, if there is one
      have hdigits : ∀ sign ds, after = sign ++ ds → (∀ c ∈ sign, isNumberChar c = true) →
          ((digitRun Char.isDigit ds).bind fun run =>
              imaginaryPart (start ++ e :: sign ++ run.1) run.2) = some read →
            Grows start (e :: after) read := by
        rintro sign ds rfl hsign hread
        obtain ⟨⟨w, after'⟩, hrun, hpart⟩ := Option.bind_eq_some_iff.mp hread
        obtain ⟨rfl, hw⟩ := digitRun_append (fun c => isNumberChar_of_isDigit) hrun
        refine .cons hexponent (.append hsign (.append hw ?_))
        simpa using imaginaryPart_grows hpart
      dsimp only at h
      split at h
      · split at h
        · exact hdigits ['+'] _ rfl (List.forall_mem_singleton.mpr (by decide)) h
        · exact absurd h (by simp)
      · split at h
        · exact hdigits ['-'] _ rfl (List.forall_mem_singleton.mpr (by decide)) h
        · exact absurd h (by simp)
      · split at h
        · exact hdigits [] _ rfl (List.forall_mem_nil _) h
        · exact endNumber_grows (by simpa using h)
    · exact imaginaryPart_grows h
  · exact imaginaryPart_grows h

theorem fractionPart_grows (h : fractionPart start rest = some read) : Grows start rest read := by
  rw [fractionPart] at h
  split at h
  · obtain ⟨⟨w, after⟩, hrun, hread⟩ := Option.bind_eq_some_iff.mp h
    obtain ⟨rfl, hw⟩ := digitRun_append (fun c => isNumberChar_of_isDigit) hrun
    exact .append hw (exponentPart_grows hread)
  · exact exponentPart_grows h

theorem basedDigits_append (hdigit : ∀ c, isDigit c = true → isNumberChar c = true)
    (h : basedDigits isDigit cs = some (w, after)) :
    cs = w ++ after ∧ ∀ c ∈ w, isNumberChar c = true := by
  rw [basedDigits.eq_def] at h
  split at h
  · exact digitRun_append hdigit h
  · split at h
    · exact digitRun_append hdigit h
    · cases h
  · cases h

/-- **A number is the text that it was read from.** -/
theorem number_grows (h : number cs = some read) : Grows [] cs read := by
  have hhex : ∀ c, isHex c = true → isNumberChar c = true := by
    intro c hc
    refine isNumberChar_of_isAlphanum ?_
    show ((c.isUpper || c.isLower) || c.isDigit) = true
    simp only [isHex, Bool.or_eq_true, Bool.and_eq_true, decide_eq_true_eq] at hc ⊢
    rcases hc with (hc | ⟨hlo, hhi⟩) | ⟨hlo, hhi⟩
    · exact .inr hc
    · have hz : c ≤ 'z' := Char.le_trans hhi (by decide)
      exact .inl (.inr (Bool.and_eq_true_iff.mpr ⟨decide_eq_true hlo, decide_eq_true hz⟩))
    · have hz : c ≤ 'Z' := Char.le_trans hhi (by decide)
      exact .inl (.inl (decide_eq_true ⟨hlo, hz⟩))
  have hoctal : ∀ c, isOctal c = true → isNumberChar c = true := by
    intro c hc
    refine isNumberChar_of_isDigit ?_
    simp only [isOctal, Char.isDigit, Bool.and_eq_true, decide_eq_true_eq] at hc ⊢
    exact ⟨hc.1, Char.le_trans hc.2 (by decide)⟩
  have hbinary : ∀ c, isBinary c = true → isNumberChar c = true := by
    intro c hc
    simp only [isBinary, Bool.or_eq_true, decide_eq_true_eq] at hc
    rcases hc with rfl | rfl <;> decide
  -- a number of another base, behind the letters for the base
  have hbased : ∀ (isDigit : Char → Bool) (lead digits : List Char),
      (∀ c, isDigit c = true → isNumberChar c = true) → lead.all isNumberChar = true →
      ((basedDigits isDigit digits).bind fun run =>
          if run.2.head?.any Char.isDigit then none else endNumber (lead ++ run.1) run.2) = some read →
        Grows [] (lead ++ digits) read := by
    intro isDigit lead digits hdigit hlead hread
    obtain ⟨⟨w, after⟩, hrun, hend⟩ := Option.bind_eq_some_iff.mp hread
    obtain ⟨rfl, hw⟩ := basedDigits_append hdigit hrun
    dsimp only at hend
    split at hend
    · cases hend
    · exact .append (List.all_eq_true.mp hlead) (.append hw (by simpa using endNumber_grows hend))
  rw [number.eq_def] at h
  dsimp only at h
  split at h
  · exact hbased isHex ['0', 'x'] _ hhex (by decide) h
  · exact hbased isHex ['0', 'X'] _ hhex (by decide) h
  · exact hbased isOctal ['0', 'o'] _ hoctal (by decide) h
  · exact hbased isOctal ['0', 'O'] _ hoctal (by decide) h
  · exact hbased isBinary ['0', 'b'] _ hbinary (by decide) h
  · exact hbased isBinary ['0', 'B'] _ hbinary (by decide) h
  · exact .cons (by decide) (fractionPart_grows h)
  · obtain ⟨⟨w, after⟩, hrun, hread⟩ := Option.bind_eq_some_iff.mp h
    obtain ⟨rfl, hw⟩ := digitRun_append (fun c => isNumberChar_of_isDigit) hrun
    refine .append hw ?_
    dsimp only at hread
    rw [List.nil_append]
    split at hread
    · exact .cons (by decide) (fractionPart_grows hread)
    · split at hread
      · obtain ⟨⟨text, after'⟩, hexponent, hplain⟩ := Option.bind_eq_some_iff.mp hread
        dsimp only at hplain
        split at hplain
        · cases hplain
        · cases hplain
          exact exponentPart_grows hexponent
      · split at hread
        · exact imaginaryPart_grows hread
        · split at hread
          · exact endNumber_grows hread
          · cases hread
    · split at hread
      · exact endNumber_grows hread
      · cases hread

/-! ## Operators -/

/-- An opening bracket. -/
def IsOpening (c : Char) : Prop := c ∈ ['(', '[', '\x7b']

/-- A closing bracket. -/
def IsClosing (c : Char) : Prop := c ∈ [')', ']', '\x7d']

instance (c : Char) : Decidable (IsOpening c) := inferInstanceAs (Decidable (_ ∈ _))

instance (c : Char) : Decidable (IsClosing c) := inferInstanceAs (Decidable (_ ∈ _))

/-- Operators are brackets, or have none. -/
theorem operator_cases : ∀ op ∈ operators,
    (op.toList.all (fun c => decide (IsWordChar c)) ∧ closingOf op = none ∧
      op ∉ [")", "]", "\x7d"]) ∨
    op ∈ ["(", "[", "\x7b"] ∨ op ∈ [")", "]", "\x7d"] := by
  decide

theorem operator?_eq_some {op : String} (h : operator? cs = some op) :
    op ∈ operators ∧ cs = op.toList ++ cs.drop op.length := by
  rw [operator?] at h
  split at h
  · cases h
  · have hprefix : op.toList <+: cs := by simpa using List.find?_some h
    refine ⟨List.mem_of_find?_eq_some h, ?_⟩
    obtain ⟨rest, rfl⟩ := hprefix
    rw [← String.length_toList, List.drop_left]

/-! ## Literals -/

/-- A quote. -/
def IsQuote (c : Char) : Prop := c ∈ ['\'', '"']

instance (c : Char) : Decidable (IsQuote c) := inferInstanceAs (Decidable (_ ∈ _))

theorem isQuote_iff : IsQuote c ↔ c = '\'' ∨ c = '"' := by simp [IsQuote]

/-- A text ends with the quotes that close a literal, and they stand nowhere before. A literal with
single quotes goes on over the end of a line only behind a backslash. -/
inductive Closes (q : Char) : Bool → List Char → Prop where
  /-- The quote alone. -/
  | short : Closes q false [q]
  /-- The quote, tripled. -/
  | long : Closes q true [q, q, q]
  /-- A character behind a backslash. -/
  | escape {b : Bool} {c : Char} {cs : List Char} (h : Closes q b cs) :
      Closes q b ('\\' :: c :: cs)
  /-- Any other character. -/
  | char {b : Bool} {c : Char} {cs : List Char} (hc : c ≠ '\\')
      (hshort : b = false → c ≠ q ∧ c ≠ '\n') (hlong : b = true → c = q → cs.take 2 ≠ [q, q])
      (h : Closes q b cs) : Closes q b (c :: cs)

/-- A text is a literal in front of another. -/
inductive IsLiteral : List Char → List Char → Prop where
  /-- A literal with single quotes. -/
  | short {q : Char} {lit after : List Char} (hq : IsQuote q) (h : Closes q false lit)
      (hfirst : (lit ++ after).take 2 ≠ [q, q]) : IsLiteral (q :: lit) after
  /-- A literal with tripled quotes. -/
  | long {q : Char} {lit after : List Char} (hq : IsQuote q) (h : Closes q true lit) :
      IsLiteral (q :: q :: q :: lit) after

variable {q : Char} {b : Bool} {lit : List Char}

theorem closes_shortString (h : shortString q cs = some (lit, after)) :
    cs = lit ++ after ∧ Closes q false lit := by
  fun_induction shortString q cs generalizing lit after with
  | case1 => cases h
  | case2 c rest ih =>
    obtain ⟨⟨lit', after'⟩, hrest, heq⟩ := Option.map_eq_some_iff.mp h
    cases heq
    obtain ⟨rfl, hcloses⟩ := ih hrest
    exact ⟨rfl, .escape hcloses⟩
  | case3 =>
    cases h
    exact ⟨rfl, .short⟩
  | case4 => cases h
  | case5 c rest _ hc hstop ih =>
    obtain ⟨⟨lit', after'⟩, hrest, heq⟩ := Option.map_eq_some_iff.mp h
    cases heq
    obtain ⟨rfl, hcloses⟩ := ih hrest
    rw [not_or] at hstop
    exact ⟨rfl, .char hstop.2 (fun _ => ⟨hc, hstop.1⟩) (fun hb => Bool.noConfusion hb) hcloses⟩

theorem Closes.two_lt_length (h : Closes q true lit) : 2 < lit.length := by
  generalize hb : true = b at h
  induction h with
  | short => cases hb
  | long => simp
  | escape _ ih => exact Nat.lt_succ_of_lt (Nat.lt_succ_of_lt (ih hb))
  | char _ _ _ _ ih => exact Nat.lt_succ_of_lt (ih hb)

theorem Closes.take_two (h : Closes q true lit) (after : List Char) :
    (lit ++ after).take 2 = lit.take 2 :=
  List.take_append_of_le_length (Nat.le_of_lt h.two_lt_length)

theorem closes_longString (h : longString q cs = some (lit, after)) :
    cs = lit ++ after ∧ Closes q true lit := by
  fun_induction longString q cs generalizing lit after with
  | case1 => cases h
  | case2 c rest ih =>
    obtain ⟨⟨lit', after'⟩, hrest, heq⟩ := Option.map_eq_some_iff.mp h
    cases heq
    obtain ⟨rfl, hcloses⟩ := ih hrest
    exact ⟨rfl, .escape hcloses⟩
  | case3 => cases h
  | case4 c rest _ _ hclose =>
    cases h
    obtain ⟨hclose, rfl⟩ := hclose
    refine ⟨?_, .long⟩
    conv => lhs; rw [← List.take_append_drop 2 rest, ← hclose]
    rfl
  | case5 c rest _ hc hclose ih =>
    obtain ⟨⟨lit', after'⟩, hrest, heq⟩ := Option.map_eq_some_iff.mp h
    cases heq
    obtain ⟨rfl, hcloses⟩ := ih hrest
    refine ⟨rfl, .char hc (fun hb => Bool.noConfusion hb) (fun _ hcq htwo => ?_) hcloses⟩
    subst hcq
    exact hclose ⟨by rw [hcloses.take_two, htwo], rfl⟩

/-- **A literal is the text that it was read from.** -/
theorem isLiteral_quoted (hquote : cs.head?.any fun c => c = '"' || c = '\'')
    (h : quoted cs = some (lit, after)) : cs = lit ++ after ∧ IsLiteral lit after := by
  rw [quoted.eq_def] at h
  split at h
  · cases h
  · next q rest =>
    have hq : IsQuote q := isQuote_iff.mpr (by simpa [or_comm] using hquote)
    split at h
    · next htripled =>
      obtain ⟨⟨lit', after'⟩, hrest, heq⟩ := Option.map_eq_some_iff.mp h
      cases heq
      obtain ⟨hbehind, hcloses⟩ := closes_longString hrest
      refine ⟨?_, .long hq hcloses⟩
      conv => lhs; rw [← List.take_append_drop 2 rest, htripled, hbehind]
      rfl
    · next hsingle =>
      obtain ⟨⟨lit', after'⟩, hrest, heq⟩ := Option.map_eq_some_iff.mp h
      cases heq
      obtain ⟨rfl, hcloses⟩ := closes_shortString hrest
      exact ⟨rfl, .short hq hcloses hsingle⟩

theorem take_two_append (htwo : w.take 2 = [q, q]) (after : List Char) :
    (w ++ after).take 2 = [q, q] := by
  have hlength := congrArg List.length htwo
  simp only [List.length_take, List.length_cons, List.length_nil] at hlength
  rw [List.take_append_of_le_length (by omega), htwo]

theorem IsLiteral.of_isPrefix (h : IsLiteral lit after) (hrest : rest <+: after) :
    IsLiteral lit rest := by
  cases h with
  | long hq h => exact .long hq h
  | @short q lit _ hq h hfirst =>
    refine .short hq h fun htwo => hfirst ?_
    obtain ⟨more, rfl⟩ := hrest
    rw [← List.append_assoc, take_two_append htwo]

theorem Closes.getLast? (h : Closes q b lit) : lit.getLast? = some q := by
  induction h with
  | short => rfl
  | long => rfl
  | escape _ ih => rw [List.getLast?_cons, List.getLast?_cons, ih]; rfl
  | char _ _ _ _ ih => rw [List.getLast?_cons, ih]; rfl

theorem IsLiteral.getLast?_ne (h : IsLiteral lit after) : lit.getLast? ≠ some '\n' := by
  have hne : ∀ {q : Char}, IsQuote q → some q ≠ some '\n' := by
    intro q hq
    rcases isQuote_iff.mp hq with rfl | rfl <;> decide
  cases h with
  | short hq h =>
    rw [List.getLast?_cons, h.getLast?]
    exact hne hq
  | long hq h =>
    rw [List.getLast?_cons, List.getLast?_cons, List.getLast?_cons, h.getLast?]
    exact hne hq

/-! ## Steps -/

namespace Scan

/-- **What a step of the scan reads.** -/
inductive Reads (s : Scan) : Scan → Prop where
  /-- A word, a number, an operator, or a blank. -/
  | word {w rest : List Char} {u : List Token} (hrest : s.rest = w ++ rest)
      (hw : ∀ c ∈ w, IsWordChar c) (hu : ∀ t ∈ u, t.kind ≠ .string) :
      Reads s { s with rest, position := s.position.after w, tokens := u ++ s.tokens }
  /-- An opening bracket. -/
  | opening {c : Char} {rest : List Char} {awaited : String} {t : Token}
      (hrest : s.rest = c :: rest) (hc : IsOpening c) (ht : t.kind ≠ .string) :
      Reads s { s with rest, position := s.position.next c, brackets := awaited :: s.brackets,
                       tokens := t :: s.tokens }
  /-- The closing bracket that is awaited. -/
  | closing {c : Char} {rest : List Char} {awaited : String} {outer : List String} {t : Token}
      (hrest : s.rest = c :: rest) (hc : IsClosing c) (hbrackets : s.brackets = awaited :: outer)
      (ht : t.kind ≠ .string) :
      Reads s { s with rest, position := s.position.next c, brackets := outer,
                       tokens := t :: s.tokens }
  /-- A string literal with its letters. -/
  | literal {letters lit rest : List Char} (hrest : s.rest = letters ++ (lit ++ rest))
      (hletters : ∀ c ∈ letters, IsWordChar c) (hlit : IsLiteral lit rest) :
      Reads s (s.take .string (letters ++ lit) rest)
  /-- A comment, up to the end of its line. -/
  | comment {text rest : List Char} (hrest : s.rest = '#' :: (text ++ rest)) (htext : '\n' ∉ text)
      (hend : ∀ c ∈ rest.head?, c = '\n') :
      Reads s { s with rest, position := s.position.after ('#' :: text) }
  /-- The end of a line. -/
  | line {rest : List Char} {u : List Token} (hrest : s.rest = '\n' :: rest)
      (hu : ∀ t ∈ u, t.kind ≠ .string) :
      Reads s { s with rest, position := s.position.next '\n', atLineStart := true,
                       tokens := u ++ s.tokens }
  /-- The end of a line that is joined with the next. -/
  | join {c : Char} {rest : List Char} (hrest : s.rest = '\\' :: '\n' :: c :: rest) :
      Reads s { s with rest := c :: rest, position := ⟨s.position.line + 1, 0⟩ }

variable {s s' : Scan}

theorem Reads.take {kind : TokenKind} (hrest : s.rest = w ++ rest) (hw : ∀ c ∈ w, IsWordChar c)
    (hkind : kind ≠ .string) : s.Reads (s.take kind w rest) :=
  .word (u := [_]) hrest hw (List.forall_mem_singleton.mpr hkind)

theorem reads_operator (h : s.operator = some s') : s.Reads s' := by
  obtain ⟨op, hop, hread⟩ := Option.bind_eq_some_iff.mp h
  obtain ⟨hmem, hsplit⟩ := operator?_eq_some hop
  rcases operator_cases op hmem with ⟨hword, hopen, hclose⟩ | hbracket | hbracket
  · simp only [List.mem_cons, List.not_mem_nil, or_false] at hclose
    simp only [hopen, if_neg hclose, Option.pure_def, Option.some.injEq] at hread
    subst hread
    refine .take hsplit (fun c hc => ?_) (by decide)
    exact of_decide_eq_true (List.all_eq_true.mp hword c hc)
  · -- an opening bracket is one character, and awaits the closing one
    obtain ⟨c, awaited, hop, hc, hawaited⟩ : ∃ c awaited, op.toList = [c] ∧ IsOpening c ∧
        closingOf op = some awaited := by
      simp only [List.mem_cons, List.not_mem_nil, or_false] at hbracket
      rcases hbracket with rfl | rfl | rfl
      · exact ⟨'(', ")", rfl, by decide, rfl⟩
      · exact ⟨'[', "]", rfl, by decide, rfl⟩
      · exact ⟨'\x7b', "\x7d", rfl, by decide, rfl⟩
    simp only [hawaited] at hread
    split at hread
    · cases hread
    · cases hread
      rw [hop] at hsplit ⊢
      exact .opening hsplit hc (t := ⟨.operator, _, _, _⟩) (by simp)
  · obtain ⟨c, hop, hc, hnone⟩ : ∃ c, op.toList = [c] ∧ IsClosing c ∧ closingOf op = none := by
      simp only [List.mem_cons, List.not_mem_nil, or_false] at hbracket
      rcases hbracket with rfl | rfl | rfl
      · exact ⟨')', rfl, by decide, rfl⟩
      · exact ⟨']', rfl, by decide, rfl⟩
      · exact ⟨'\x7d', rfl, by decide, rfl⟩
    simp only [List.mem_cons, List.not_mem_nil, or_false] at hbracket
    simp only [hnone, if_pos hbracket] at hread
    split at hread
    · next awaited outer hbrackets =>
      split at hread
      · cases hread
        rw [hop] at hsplit ⊢
        exact .closing hsplit hc hbrackets (t := ⟨.operator, _, _, _⟩) (by simp)
      · cases hread
    · cases hread

theorem reads_step (h : s.step = some s') : s.Reads s' := by
  rw [step] at h
  split at h
  · cases h
  next c rest hrest =>
  split at h
  · next hc =>
    cases h
    exact .word (w := [c]) (u := []) hrest (List.forall_mem_singleton.mpr (isWordChar_blank hc))
      (List.forall_mem_nil _)
  split at h
  · next hc =>
    subst hc
    rw [hrest, List.span_eq_takeWhile_dropWhile, List.takeWhile_cons_of_pos (by decide),
      List.dropWhile_cons_of_pos (by decide)] at h
    cases h
    refine .comment ?_ ?_ ?_
    · rw [hrest, List.takeWhile_append_dropWhile]
    · exact fun hmem => by simpa using List.mem_takeWhile_imp hmem
    · intro d hd
      have hhead := List.head?_dropWhile_not (· ≠ '\n') rest
      rw [Option.mem_def.mp hd] at hhead
      simpa using hhead
  split at h
  · next hc =>
    subst hc
    cases h
    split
    · exact .line (u := []) hrest (List.forall_mem_nil _)
    · exact .line (u := [_]) hrest (List.forall_mem_singleton.mpr (by simp))
  split at h
  · next hc =>
    subst hc
    split at h
    · cases h
      exact .join hrest
    · cases h
  split at h
  · rw [List.span_eq_takeWhile_dropWhile] at h
    dsimp only at h
    have hname : ∀ c ∈ s.rest.takeWhile isNameChar, IsWordChar c := fun c hc =>
      isWordChar_of_isNameChar (List.mem_takeWhile_imp hc)
    have hsplit : s.rest = s.rest.takeWhile isNameChar ++ s.rest.dropWhile isNameChar :=
      List.takeWhile_append_dropWhile.symm
    split at h
    · next hletters =>
      obtain ⟨⟨lit, after⟩, hquoted, rfl⟩ := Option.map_eq_some_iff.mp h
      obtain ⟨happend, hlit⟩ := isLiteral_quoted (Bool.and_eq_true_iff.mp hletters).2 hquoted
      rw [happend] at hsplit
      exact .literal hsplit hname hlit
    · split at h
      · cases h
        exact .take hsplit hname (by decide)
      · cases h
  split at h
  · obtain ⟨⟨text, after⟩, hnumber, rfl⟩ := Option.map_eq_some_iff.mp h
    obtain ⟨w, htext, hsplit, hw⟩ := number_grows hnumber
    obtain rfl : text = w := htext
    exact .take hsplit (fun c hc => isWordChar_of_isNumberChar (hw c hc)) (by decide)
  split at h
  · next hc =>
    obtain ⟨⟨lit, after⟩, hquoted, rfl⟩ := Option.map_eq_some_iff.mp h
    have hquote : s.rest.head?.any fun c => c = '"' || c = '\'' := by
      rw [hrest]
      simpa using hc
    obtain ⟨happend, hlit⟩ := isLiteral_quoted hquote hquoted
    have hsplit : s.rest = [] ++ (lit ++ after) := happend
    exact .literal hsplit (List.forall_mem_nil _) hlit
  · exact reads_operator h

end Scan

/-! ## Texts -/

/-- **A text is cut into its parts**, from a place on: literals, which have the given tokens, comments,
which stand on the given lines, joined lines, and plain characters. -/
inductive Lexed : Position → List Char → List Token → List (Nat × List Char) → Prop where
  /-- Nothing is left. -/
  | done {p : Position} : Lexed p [] [] []
  /-- A plain character. -/
  | char {p : Position} {c : Char} {cs : List Char} {ts : List Token} {ks : List (Nat × List Char)}
      (hc : IsPlain c) (h : Lexed (p.next c) cs ts ks) : Lexed p (c :: cs) ts ks
  /-- A line that is joined with the next. -/
  | join {p : Position} {c : Char} {cs : List Char} {ts : List Token} {ks : List (Nat × List Char)}
      (h : Lexed ⟨p.line + 1, 0⟩ (c :: cs) ts ks) : Lexed p ('\\' :: '\n' :: c :: cs) ts ks
  /-- A literal with its letters. -/
  | literal {p : Position} {letters lit cs : List Char} {ts : List Token}
      {ks : List (Nat × List Char)} (hletters : ∀ c ∈ letters, IsWordChar c)
      (hlit : IsLiteral lit cs) (h : Lexed (p.after (letters ++ lit)) cs ts ks) :
      Lexed p (letters ++ (lit ++ cs))
        (⟨.string, String.ofList (letters ++ lit), p, p.after (letters ++ lit)⟩ :: ts) ks
  /-- A comment. -/
  | comment {p : Position} {text cs : List Char} {ts : List Token} {ks : List (Nat × List Char)}
      (htext : '\n' ∉ text) (h : Lexed (p.after ('#' :: text)) ('\n' :: cs) ts ks) :
      Lexed p ('#' :: (text ++ '\n' :: cs)) ts ((p.line, '#' :: text) :: ks)

/-- The tokens of literals. -/
def literals (ts : List Token) : List Token := ts.filter fun t => t.kind = .string

theorem literals_append {ts us : List Token} : literals (ts ++ us) = literals ts ++ literals us :=
  List.filter_append ..

theorem literals_eq_nil {ts : List Token} (h : ∀ t ∈ ts, t.kind ≠ .string) : literals ts = [] :=
  List.filter_eq_nil_iff.mpr fun t ht => by simpa using h t ht

theorem literals_reverse_eq_nil {ts : List Token} (h : ∀ t ∈ ts, t.kind ≠ .string) :
    literals ts.reverse = [] :=
  literals_eq_nil fun t ht => h t (List.mem_reverse.mp ht)

theorem Lexed.word {p : Position} {ts : List Token} {ks : List (Nat × List Char)}
    (hw : ∀ c ∈ w, IsWordChar c) (h : Lexed (p.after w) rest ts ks) :
    Lexed p (w ++ rest) ts ks := by
  induction w generalizing p with
  | nil => exact h
  | cons c w ih =>
    rw [List.forall_mem_cons] at hw
    exact .char hw.1.isPlain (ih hw.2 h)

/-- A text is empty or ends its last line. -/
def EndsLine (cs : List Char) : Prop := ∀ c ∈ cs.getLast?, c = '\n'

theorem EndsLine.of_suffix (h : EndsLine cs) (hsuffix : rest <:+ cs) : EndsLine rest := by
  obtain ⟨w, rfl⟩ := hsuffix
  intro c hc
  refine h c ?_
  rw [Option.mem_def] at hc ⊢
  rw [List.getLast?_append, hc]
  rfl

namespace Scan

variable {s s' : Scan} {ts : List Token} {ks : List (Nat × List Char)}

theorem suffix_of_reads (h : s.Reads s') : s'.rest <:+ s.rest := by
  cases h with
  | word hrest => exact ⟨_, hrest.symm⟩
  | opening hrest => exact ⟨[_], hrest.symm⟩
  | closing hrest => exact ⟨[_], hrest.symm⟩
  | literal hrest => exact ⟨_, (List.append_assoc ..).trans hrest.symm⟩
  | comment hrest => exact ⟨_ :: _, hrest.symm⟩
  | line hrest => exact ⟨[_], hrest.symm⟩
  | join hrest => exact ⟨[_, _], hrest.symm⟩

/-- What is read in a step, and what is cut behind it. -/
theorem lexed_of_reads (h : s.Reads s') (hend : EndsLine s.rest)
    (hlexed : Lexed s'.position s'.rest ts ks) : ∃ ts' ks', Lexed s.position s.rest ts' ks' ∧
      literals s'.tokens.reverse ++ ts = literals s.tokens.reverse ++ ts' := by
  cases h with
  | word hrest hw hts =>
    refine ⟨ts, ks, hrest ▸ .word hw hlexed, ?_⟩
    rw [List.reverse_append, literals_append, literals_reverse_eq_nil hts, List.append_nil]
  | @opening c _ _ t hrest hc ht =>
    refine ⟨ts, ks, hrest ▸ .char ?_ hlexed, ?_⟩
    · simp only [IsOpening, List.mem_cons, List.not_mem_nil, or_false] at hc
      rcases hc with rfl | rfl | rfl <;> decide
    · rw [List.reverse_cons, literals_append, literals_eq_nil (List.forall_mem_singleton.mpr ht),
        List.append_nil]
  | @closing c _ _ _ t hrest hc _ ht =>
    refine ⟨ts, ks, hrest ▸ .char ?_ hlexed, ?_⟩
    · simp only [IsClosing, List.mem_cons, List.not_mem_nil, or_false] at hc
      rcases hc with rfl | rfl | rfl <;> decide
    · rw [List.reverse_cons, literals_append, literals_eq_nil (List.forall_mem_singleton.mpr ht),
        List.append_nil]
  | literal hrest hletters hlit =>
    refine ⟨_, ks, hrest ▸ Lexed.literal hletters hlit hlexed, ?_⟩
    rw [Scan.take, List.reverse_cons, literals_append, List.append_assoc]
    rfl
  | @comment text rest hrest htext hhead =>
    rcases rest with _ | ⟨c, rest⟩
    · -- the last line of a text that ends its lines is no comment
      have hlast := hend
      rw [hrest, List.append_nil] at hlast
      have hmem : '\n' ∈ '#' :: text := by
        rw [← hlast _ (List.getLast?_eq_some_getLast (List.cons_ne_nil _ _))]
        exact List.getLast_mem _
      rcases List.mem_cons.mp hmem with heq | hmem
      · exact absurd heq (by decide)
      · exact absurd hmem htext
    · obtain rfl : c = '\n' := hhead c rfl
      exact ⟨ts, _, hrest ▸ Lexed.comment htext hlexed, rfl⟩
  | line hrest hts =>
    refine ⟨ts, ks, hrest ▸ .char (by decide) hlexed, ?_⟩
    rw [List.reverse_append, literals_append, literals_reverse_eq_nil hts, List.append_nil]
  | join hrest => exact ⟨ts, ks, hrest ▸ .join hlexed, rfl⟩

end Scan

/-! ## Starts of lines -/

/-- Blanks and joined lines are read at the start of a line. -/
theorem measure_lexed {i i' : Indentation} {ts : List Token} {ks : List (Nat × List Char)}
    (h : i.measure cs = some (i', rest)) (hlexed : Lexed i'.position rest ts ks) :
    Lexed i.position cs ts ks := by
  fun_induction Indentation.measure i cs with
  | case1 i cs ih => exact .char (by decide) (ih h)
  | case2 i cs ih => exact .char (by decide) (ih h)
  | case3 i cs ih => exact .char (by decide) (ih h)
  | case4 i c cs ih => exact .join (ih h)
  | case5 => cases h
  | case6 i cs =>
    cases h
    exact hlexed

theorem measure_suffix {i i' : Indentation} (h : i.measure cs = some (i', rest)) : rest <:+ cs := by
  fun_induction Indentation.measure i cs with
  | case1 i cs ih => exact (ih h).trans (List.suffix_cons _ _)
  | case2 i cs ih => exact (ih h).trans (List.suffix_cons _ _)
  | case3 i cs ih => exact (ih h).trans (List.suffix_cons _ _)
  | case4 i c cs ih => exact (ih h).trans (List.suffix_append ['\\', '\n'] _)
  | case5 => cases h
  | case6 i cs =>
    cases h
    exact List.suffix_rfl

/-- Blocks that open or close give no literals. -/
theorem kind_of_enterLine {i : Nat × Nat} {p : Position} {blocks blocks' : List (Nat × Nat)}
    {ts : List Token} (h : enterLine i p blocks = some (ts, blocks')) :
    ∀ t ∈ ts, t.kind ≠ .string := by
  rw [enterLine.eq_def] at h
  dsimp only at h
  split at h
  · cases h
  split at h
  · split at h
    · cases h
      exact List.forall_mem_nil _
    · cases h
  split at h
  · split at h
    · cases h
    · cases h
      exact List.forall_mem_singleton.mpr (by simp)
  split at h
  · cases h
    intro t ht
    rw [List.eq_of_mem_replicate ht]
    simp
  · cases h

namespace Scan

variable {s s' : Scan} {ts : List Token} {ks : List (Nat × List Char)}

/-- **How a line starts**: it is blank, it goes on inside brackets, or its indentation opens and closes
blocks. -/
inductive Starts (s : Scan) : Scan → Prop where
  /-- The line is blank, but perhaps for a comment. -/
  | blank {i : Indentation} {rest : List Char}
      (hmeasure : Indentation.measure ⟨0, 0, 0, s.position⟩ s.rest = some (i, rest))
      (hrest : rest.head? = some '#' ∨ rest.head? = some '\n') :
      Starts s { s with rest, position := i.position, atLineStart := false, isBlank := true }
  /-- A bracket is open. -/
  | inside {i : Indentation} {rest : List Char}
      (hmeasure : Indentation.measure ⟨0, 0, 0, s.position⟩ s.rest = some (i, rest))
      (hbrackets : s.brackets ≠ []) :
      Starts s { s with rest, position := i.position, atLineStart := false, isBlank := false }
  /-- The indentation counts. -/
  | text {i : Indentation} {rest : List Char} {ts : List Token} {blocks : List (Nat × Nat)}
      (hmeasure : Indentation.measure ⟨0, 0, 0, s.position⟩ s.rest = some (i, rest))
      (hrest : ¬ (rest.head? = some '#' ∨ rest.head? = some '\n')) (hbrackets : s.brackets = [])
      (henter : enterLine i.effective i.position s.blocks = some (ts, blocks)) :
      Starts s { s with rest, position := i.position, atLineStart := false, isBlank := false, blocks,
                        tokens := ts ++ s.tokens }

theorem starts_startLine (h : s.startLine = some s') : s.Starts s' := by
  obtain ⟨⟨i, rest⟩, hmeasure, hstart⟩ := Option.bind_eq_some_iff.mp h
  dsimp only at hstart
  split at hstart
  · next hrest =>
    cases hstart
    exact .blank hmeasure hrest
  next hrest =>
  split at hstart
  · next hbrackets =>
    cases hstart
    exact .inside hmeasure hbrackets
  next hbrackets =>
  obtain ⟨⟨ts, blocks⟩, henter, hstart⟩ := Option.bind_eq_some_iff.mp hstart
  cases hstart
  exact .text hmeasure hrest (not_not.mp hbrackets) henter

theorem Starts.suffix (h : s.Starts s') : s'.rest <:+ s.rest := by
  cases h with
  | blank hmeasure => exact measure_suffix hmeasure
  | inside hmeasure => exact measure_suffix hmeasure
  | text hmeasure => exact measure_suffix hmeasure

theorem Starts.lexed (h : s.Starts s') (hlexed : Lexed s'.position s'.rest ts ks) :
    Lexed s.position s.rest ts ks ∧
      literals s'.tokens.reverse = literals s.tokens.reverse := by
  cases h with
  | blank hmeasure => exact ⟨measure_lexed hmeasure hlexed, rfl⟩
  | inside hmeasure => exact ⟨measure_lexed hmeasure hlexed, rfl⟩
  | text hmeasure _ _ henter =>
    refine ⟨measure_lexed hmeasure hlexed, ?_⟩
    rw [List.reverse_append, literals_append,
      literals_reverse_eq_nil (kind_of_enterLine henter), List.append_nil]

/-- **What a scan that reaches the end has read.** -/
theorem lexed_run {fuel : Nat} (h : run fuel s = some s') (hend : EndsLine s.rest) :
    ∃ ts ks, Lexed s.position s.rest ts ks ∧
      literals s'.tokens.reverse = literals s.tokens.reverse ++ ts := by
  induction fuel generalizing s with
  | zero => cases h
  | succ fuel ih =>
    rw [run] at h
    split at h
    · obtain ⟨s₁, hstart, hrun⟩ := Option.bind_eq_some_iff.mp h
      have hstarts := starts_startLine hstart
      obtain ⟨ts, ks, hlexed, htokens⟩ := ih hrun (hend.of_suffix hstarts.suffix)
      obtain ⟨hlexed', htokens'⟩ := hstarts.lexed hlexed
      exact ⟨ts, ks, hlexed', htokens'  ▸ htokens⟩
    split at h
    · next hnil =>
      split at h
      · cases h
        exact ⟨[], [], hnil ▸ .done, (List.append_nil _).symm⟩
      · cases h
    · obtain ⟨s₁, hstep, hrun⟩ := Option.bind_eq_some_iff.mp h
      have hreads := reads_step hstep
      obtain ⟨ts, ks, hlexed, htokens⟩ := ih hrun (hend.of_suffix (suffix_of_reads hreads))
      obtain ⟨ts', ks', hlexed', htokens'⟩ := lexed_of_reads hreads hend hlexed
      exact ⟨ts', ks', hlexed', htokens.trans htokens'⟩

end Scan

end ModelLint.Source.Token
