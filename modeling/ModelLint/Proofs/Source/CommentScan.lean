import Mathlib.Data.List.DropRight
import ModelLint.Proofs.Source.Lexemes
import ModelLint.Source.Comments

/-!
# What the scan for comments does

The scan for comments goes line by line. `scanRest` goes on from the middle of a line, so that each part
of a text is one step, whatever lines it covers.

* `firstLine`, `behind`: a text is its first line and what is behind it.
* `scanRest_word`, `scanRest_newline`, `scanRest_join`, `scanRest_comment`: the parts of a line.
* `scanRest_literal`: a string literal is skipped, on one line or on several.
* `scanLines_inside`, `scanLines_newline`, `scanLines_comment`, `scanLines_text`: how lines start.
* **`scanLines_start`**: only the indentation tells the start of a line from the rest of it.
-/

namespace ModelLint.Source.CommentScan

variable {s s' : CommentScan} {n : Nat} {c : Char} {cs w rest : List Char}

/-! ## Lines -/

/-- The first line of a text, with its line feed. -/
def firstLine (cs : List Char) : List Char := (lines cs).headD []

/-- The text behind its first line. -/
def behind : List Char → List Char
  | [] => []
  | c :: cs => if c = '\n' then cs else behind cs

theorem lines_cons (hc : c ≠ '\n') (cs : List Char) :
    lines (c :: cs) = (c :: firstLine cs) :: (lines cs).tail := by
  rw [lines, firstLine]
  · rcases lines cs with _ | ⟨line, more⟩ <;> rfl
  · exact hc

@[simp] theorem firstLine_nil : firstLine [] = [] := rfl

@[simp] theorem firstLine_newline (cs : List Char) : firstLine ('\n' :: cs) = ['\n'] := rfl

theorem firstLine_cons (hc : c ≠ '\n') (cs : List Char) :
    firstLine (c :: cs) = c :: firstLine cs := by
  rw [firstLine, lines_cons hc]
  rfl

theorem firstLine_append (hw : '\n' ∉ w) (cs : List Char) :
    firstLine (w ++ cs) = w ++ firstLine cs := by
  induction w with
  | nil => rfl
  | cons c w ih =>
    rw [List.mem_cons, not_or] at hw
    rw [List.cons_append, firstLine_cons (Ne.symm hw.1), ih hw.2, List.cons_append]

@[simp] theorem behind_newline (cs : List Char) : behind ('\n' :: cs) = cs := rfl

theorem behind_cons (hc : c ≠ '\n') (cs : List Char) : behind (c :: cs) = behind cs := if_neg hc

theorem behind_append (hw : '\n' ∉ w) (cs : List Char) : behind (w ++ cs) = behind cs := by
  induction w with
  | nil => rfl
  | cons c w ih =>
    rw [List.mem_cons, not_or] at hw
    rw [List.cons_append, behind_cons (Ne.symm hw.1), ih hw.2]

theorem tail_lines (cs : List Char) : (lines cs).tail = lines (behind cs) := by
  induction cs with
  | nil => rfl
  | cons c cs ih =>
    by_cases hc : c = '\n'
    · subst hc
      rfl
    · rw [lines_cons hc, behind_cons hc, List.tail_cons, ih]

theorem lines_eq (hcs : cs ≠ []) : lines cs = firstLine cs :: lines (behind cs) := by
  cases cs with
  | nil => exact absurd rfl hcs
  | cons c cs =>
    by_cases hc : c = '\n'
    · subst hc
      rfl
    · rw [lines_cons hc, firstLine_cons hc, behind_cons hc, tail_lines]

theorem firstLine_append_behind (cs : List Char) : firstLine cs ++ behind cs = cs := by
  induction cs with
  | nil => rfl
  | cons c cs ih =>
    by_cases hc : c = '\n'
    · subst hc
      rfl
    · rw [firstLine_cons hc, behind_cons hc, List.cons_append, ih]

theorem firstLine_append_of_mem (hw : '\n' ∈ w) (cs : List Char) :
    firstLine (w ++ cs) = firstLine w := by
  induction w with
  | nil => cases hw
  | cons c w ih =>
    by_cases hc : c = '\n'
    · subst hc
      rfl
    · rw [List.cons_append, firstLine_cons hc, firstLine_cons hc,
        ih (List.mem_of_ne_of_mem (Ne.symm hc) hw)]

theorem behind_append_of_mem (hw : '\n' ∈ w) (cs : List Char) :
    behind (w ++ cs) = behind w ++ cs ∧ w.count '\n' = 1 + (behind w).count '\n' ∧
      (behind w).length < w.length := by
  induction w with
  | nil => cases hw
  | cons c w ih =>
    by_cases hc : c = '\n'
    · subst hc
      exact ⟨rfl, List.count_cons_self.trans (Nat.add_comm ..), Nat.lt_succ_self _⟩
    · obtain ⟨hbehind, hcount, hlength⟩ := ih (List.mem_of_ne_of_mem (Ne.symm hc) hw)
      rw [List.cons_append, behind_cons hc, behind_cons hc, List.count_cons_of_ne hc]
      exact ⟨hbehind, hcount, Nat.lt_succ_of_lt hlength⟩

/-! ## Parts of a line -/

/-- Scans from the middle of a line to the end of the text. -/
def scanRest (s : CommentScan) (n : Nat) (cs : List Char) : Option CommentScan :=
  scanLines (scanText n s (firstLine cs)) (n + 1) (lines (behind cs))

@[simp] theorem scanText_nil : scanText n s [] = s := by rw [scanText]

theorem scanText_newline : scanText n s ['\n'] = s := by
  rw [scanText]
  simp

@[simp] theorem scanRest_nil : scanRest s n [] = some s := by
  simp [scanRest, behind, lines, scanLines]

theorem scanRest_newline : scanRest s n ('\n' :: cs) = scanLines s (n + 1) (lines cs) := by
  rw [scanRest, firstLine_newline, scanText_newline, behind_newline]

theorem scanText_word (hc : Token.IsWordChar c) : scanText n s (c :: cs) = scanText n s cs := by
  simp only [Token.IsWordChar, List.mem_cons, List.not_mem_nil, or_false, not_or] at hc
  rw [scanText]
  simp [hc]

theorem scanRest_cons_word (hc : Token.IsWordChar c) : scanRest s n (c :: cs) = scanRest s n cs := by
  have hline : c ≠ '\n' := by
    rintro rfl
    exact absurd hc (by decide)
  rw [scanRest, firstLine_cons hline, behind_cons hline, scanText_word hc, scanRest]

theorem scanRest_word (hw : ∀ c ∈ w, Token.IsWordChar c) :
    scanRest s n (w ++ cs) = scanRest s n cs := by
  induction w with
  | nil => rfl
  | cons c w ih =>
    rw [List.forall_mem_cons] at hw
    rw [List.cons_append, scanRest_cons_word hw.1, ih hw.2]

theorem scanRest_opening (hc : Token.IsOpening c) :
    scanRest s n (c :: cs) = scanRest { s with brackets := s.brackets + 1 } n cs := by
  simp only [Token.IsOpening, List.mem_cons, List.not_mem_nil, or_false] at hc
  have hline : c ≠ '\n' := by rcases hc with rfl | rfl | rfl <;> decide
  rw [scanRest, firstLine_cons hline, behind_cons hline, scanText, scanRest]
  rcases hc with rfl | rfl | rfl <;> simp

theorem scanRest_closing (hc : Token.IsClosing c) :
    scanRest s n (c :: cs) = scanRest { s with brackets := s.brackets - 1 } n cs := by
  simp only [Token.IsClosing, List.mem_cons, List.not_mem_nil, or_false] at hc
  have hline : c ≠ '\n' := by rcases hc with rfl | rfl | rfl <;> decide
  rw [scanRest, firstLine_cons hline, behind_cons hline, scanText, scanRest]
  rcases hc with rfl | rfl | rfl <;> simp

theorem scanRest_join :
    scanRest s n ('\\' :: '\n' :: cs) = scanLines { s with isJoined := true } (n + 1) (lines cs) := by
  rw [scanRest, firstLine_cons (by decide), behind_cons (by decide), firstLine_newline,
    behind_newline, scanText]
  simp [scanText_newline]

theorem scanRest_comment (hw : '\n' ∉ w) (hreturn : '\r' ∉ w) (hend : ∀ c ∈ rest.head?, c = '\n') :
    scanRest s n ('#' :: (w ++ rest)) = scanRest (s.addComment n ('#' :: w)) n rest := by
  have hline : firstLine rest = [] ∨ ∃ more, firstLine rest = '\n' :: more := by
    cases rest with
    | nil => exact .inl rfl
    | cons c rest =>
      obtain rfl := hend c rfl
      exact .inr ⟨[], rfl⟩
  have hplain : ∀ c ∈ w, (!isLineEnd c) = true := by
    intro c hc
    simp only [isLineEnd, Bool.not_eq_true', Bool.or_eq_false_iff, decide_eq_false_iff_not]
    exact ⟨fun heq => hreturn (heq ▸ hc), fun heq => hw (heq ▸ hc)⟩
  have hstop : (firstLine rest).takeWhile (fun c => !isLineEnd c) = [] := by
    rcases hline with hnil | ⟨more, hmore⟩
    · rw [hnil]
      rfl
    · rw [hmore, List.takeWhile_cons_of_neg (by decide)]
  rw [scanRest, firstLine_cons (by decide), behind_cons (by decide), firstLine_append hw,
    behind_append hw, scanText, if_pos rfl]
  dsimp only
  rw [List.takeWhile_append_of_pos hplain, hstop, List.append_nil, List.drop_left, scanRest]

/-! ## String literals -/

section Literals

open Token

variable {q : Char} {b : Bool} {lit after : List Char}

theorem ne_newline_of_isQuote (hq : IsQuote q) : q ≠ '\n' := by
  rcases isQuote_iff.mp hq with rfl | rfl <;> decide

theorem ne_backslash_of_isQuote (hq : IsQuote q) : q ≠ '\\' := by
  rcases isQuote_iff.mp hq with rfl | rfl <;> decide

theorem closedAfter?_cons (hc : c ≠ '\\') (cs : List Char) :
    closedAfter? q b (c :: cs) =
      if c = q ∧ b = false then some 1
      else if c = q ∧ cs.take 2 = [q, q] then some 3
      else (closedAfter? q b cs).map (· + 1) := by
  rw [closedAfter?.eq_def]
  split
  · next hcons => cases hcons
  · next hcons =>
    cases hcons
    exact absurd rfl hc
  · next hcons =>
    cases hcons
    by_cases hcq : c = q
    · subst hcq
      cases b <;> simp [hc]
    · cases b <;> simp [hc, hcq]

theorem closedAfter?_escape (hc : c ≠ '\n') (cs : List Char) :
    closedAfter? q b ('\\' :: c :: cs) = (closedAfter? q b cs).map (· + 2) := by
  rw [closedAfter?, if_neg hc]

theorem closedAfter?_of_closes (hq : IsQuote q) (h : Closes q b lit) (hline : '\n' ∉ lit)
    (after : List Char) : closedAfter? q b (lit ++ after) = some lit.length := by
  induction h with
  | short =>
    rw [List.singleton_append, closedAfter?_cons (ne_backslash_of_isQuote hq), if_pos ⟨rfl, rfl⟩]
    rfl
  | long =>
    rw [List.cons_append, closedAfter?_cons (ne_backslash_of_isQuote hq), if_neg (by simp),
      if_pos ⟨rfl, rfl⟩]
    rfl
  | @escape _ c cs _ ih =>
    simp only [List.mem_cons, not_or] at hline
    rw [List.cons_append, List.cons_append, closedAfter?_escape (Ne.symm hline.2.1), ih hline.2.2]
    rfl
  | @char b c cs hc hshort hlong h ih =>
    simp only [List.mem_cons, not_or] at hline
    rw [List.cons_append, closedAfter?_cons hc, ih hline.2, if_neg, if_neg]
    · rfl
    · rintro ⟨hcq, htwo⟩
      cases b with
      | false => exact (hshort rfl).1 hcq
      | true => exact hlong rfl hcq (by rw [← h.take_two after, htwo])
    · rintro ⟨hcq, hb⟩
      exact (hshort hb).1 hcq

theorem endsWithBackslash_cons {line : List Char} (h : endsWithBackslash line = true) (c : Char) :
    endsWithBackslash (c :: line) = true := by
  simp only [endsWithBackslash, Bool.or_eq_true, List.isSuffixOf_iff_suffix] at h ⊢
  exact h.imp (fun h => h.trans (List.suffix_cons c line)) fun h => h.trans (List.suffix_cons c line)

theorem joins_escape {line : List Char} (h : joins q line = true) (c : Char) :
    joins q ('\\' :: c :: line) = true := by
  rw [joins.eq_def]
  split
  · rfl
  · rfl
  · next hcons =>
    cases hcons
    exact h
  · next hother hcons =>
    cases hcons
    exact (hother _ _ rfl rfl).elim
  · next hcons => cases hcons

theorem joins_cons (hc : c ≠ '\\') (line : List Char) :
    joins q (c :: line) = (decide (c ≠ q) && decide (c ≠ '\n') && joins q line) := by
  rw [joins]
  · simp [hc]
  · rintro more rfl
    exact absurd rfl hc
  · rintro more rfl
    exact absurd rfl hc
  · rintro d more rfl
    exact absurd rfl hc

/-- A literal that is not closed on its line goes on behind it, and if it has single quotes, the line
joins the next. -/
theorem goes_on_of_closes (hq : IsQuote q) (h : Closes q b lit) (hline : '\n' ∈ lit) :
    closedAfter? q b (firstLine lit) = none ∧ Closes q b (behind lit) ∧
      (b = false → joins q (firstLine lit) = true ∧ endsWithBackslash (firstLine lit) = true) := by
  have hnewline := ne_newline_of_isQuote hq
  induction h with
  | short =>
    rw [List.mem_singleton] at hline
    exact absurd hline.symm hnewline
  | long =>
    simp only [List.mem_cons, List.not_mem_nil, or_false, or_self] at hline
    exact absurd hline.symm hnewline
  | @escape b c cs h ih =>
    rw [firstLine_cons (by decide), behind_cons (by decide)]
    by_cases hc : c = '\n'
    · subst hc
      exact ⟨by simp [closedAfter?], h, fun _ => ⟨rfl, rfl⟩⟩
    · have hrest : '\n' ∈ cs := by simpa [Ne.symm hc] using hline
      obtain ⟨hnone, hcloses, hjoins⟩ := ih hrest
      rw [firstLine_cons hc, behind_cons hc, closedAfter?_escape hc, hnone]
      refine ⟨rfl, hcloses, fun hb => ⟨?_, ?_⟩⟩
      · exact joins_escape (hjoins hb).1 c
      · exact endsWithBackslash_cons (endsWithBackslash_cons (hjoins hb).2 c) '\\'
  | @char b c cs hc hshort hlong h ih =>
    by_cases hcline : c = '\n'
    · subst hcline
      rw [firstLine_newline, behind_newline, closedAfter?_cons hc]
      refine ⟨by simp [Ne.symm hnewline, closedAfter?], h, fun hb => ?_⟩
      exact absurd rfl (hshort hb).2
    · have hrest : '\n' ∈ cs := by simpa [Ne.symm hcline] using hline
      obtain ⟨hnone, hcloses, hjoins⟩ := ih hrest
      rw [firstLine_cons hcline, behind_cons hcline, closedAfter?_cons hc, hnone]
      refine ⟨?_, hcloses, fun hb => ⟨?_, endsWithBackslash_cons (hjoins hb).2 c⟩⟩
      · rw [if_neg, if_neg]
        · rfl
        · rintro ⟨hcq, htwo⟩
          have hword := take_two_append htwo (behind cs)
          rw [firstLine_append_behind] at hword
          cases b with
          | false => exact (hshort rfl).1 hcq
          | true => exact hlong rfl hcq hword
        · rintro ⟨hcq, hb⟩
          exact (hshort hb).1 hcq
      · rw [joins_cons hc, (hjoins hb).1]
        simp [(hshort hb).1, hcline]

/-- Between string literals. -/
def IsIdle (s : CommentScan) : Prop := s.quote = none ∧ s.needsJoin = false

/-- The rest of a literal is skipped from the start of a line on. -/
theorem scanLines_open (hs : s.IsIdle) (hq : IsQuote q) (h : Closes q b lit) (after : List Char) :
    scanLines { s with quote := some (q, b), needsJoin := !b } n (lines (lit ++ after)) =
      scanRest s (n + lit.count '\n') after := by
  -- each line of the literal makes what is left of it shorter
  induction hlength : lit.length using Nat.strong_induction_on generalizing lit n with
  | _ length ih =>
    subst hlength
    have hne : lit ++ after ≠ [] := by
      intro hnil
      have hlast := h.getLast?
      rw [(List.append_eq_nil_iff.mp hnil).1] at hlast
      cases hlast
    rw [lines_eq hne, scanLines, scanLine]
    by_cases hline : '\n' ∈ lit
    · obtain ⟨hnone, hcloses, hjoins⟩ := goes_on_of_closes hq h hline
      obtain ⟨hbehind, hcount, hshorter⟩ := behind_append_of_mem hline after
      rw [firstLine_append_of_mem hline, hbehind, hcount, ← Nat.add_assoc,
        ← ih _ hshorter hcloses rfl]
      cases b with
      | false =>
        simp only [hnone, (hjoins rfl).2]
        rfl
      | true =>
        simp only [hnone]
        rfl
    · rw [firstLine_append hline, behind_append hline, List.count_eq_zero.mpr hline]
      simp only [closedAfter?_of_closes hq h hline, List.drop_left]
      obtain ⟨hquote, hneeds⟩ := hs
      cases s
      cases hquote
      cases hneeds
      rfl

theorem scanText_quote (hq : IsQuote q) (cs : List Char) :
    scanText n s (q :: cs) =
      if cs.take 2 = [q, q] then
        match closedAfter? q true (cs.drop 2) with
        | some k => scanText n s (cs.drop (2 + k))
        | none => { s with quote := some (q, true) }
      else
        match closedAfter? q false cs with
        | some k => scanText n s (cs.drop k)
        | none =>
          if joins q cs then { s with quote := some (q, false), needsJoin := true }
          else scanText n s cs := by
  rw [scanText]
  rcases isQuote_iff.mp hq with rfl | rfl <;> rfl

/-- **A string literal is skipped**, on one line or on several. -/
theorem scanRest_literal (hs : s.IsIdle) (h : IsLiteral lit after) :
    scanRest s n (lit ++ after) = scanRest s (n + lit.count '\n') after := by
  cases h with
  | @short q lit _ hq h hfirst =>
    have hline := ne_newline_of_isQuote hq
    have hsingle : (firstLine (lit ++ after)).take 2 ≠ [q, q] := by
      intro htwo
      have htwo := take_two_append htwo (behind (lit ++ after))
      rw [firstLine_append_behind] at htwo
      exact hfirst htwo
    rw [List.cons_append, scanRest, firstLine_cons hline, behind_cons hline, scanText_quote hq,
      if_neg hsingle, List.count_cons_of_ne hline]
    by_cases hmem : '\n' ∈ lit
    · obtain ⟨hnone, hcloses, hjoins⟩ := goes_on_of_closes hq h hmem
      obtain ⟨hbehind, hcount, -⟩ := behind_append_of_mem hmem after
      rw [firstLine_append_of_mem hmem, hbehind, hcount, ← Nat.add_assoc,
        ← scanLines_open hs hq hcloses]
      simp only [hnone, (hjoins rfl).1, if_true, Bool.not_false]
    · rw [firstLine_append hmem, behind_append hmem, List.count_eq_zero.mpr hmem, scanRest]
      simp only [closedAfter?_of_closes hq h hmem, List.drop_left, Nat.add_zero]
  | @long q lit _ hq h =>
    have hline := ne_newline_of_isQuote hq
    have htripled : (q :: q :: firstLine (lit ++ after)).take 2 = [q, q] := rfl
    rw [List.cons_append, List.cons_append, List.cons_append, scanRest, firstLine_cons hline,
      behind_cons hline, firstLine_cons hline, behind_cons hline, firstLine_cons hline,
      behind_cons hline, scanText_quote hq, if_pos htripled, List.count_cons_of_ne hline,
      List.count_cons_of_ne hline, List.count_cons_of_ne hline]
    by_cases hmem : '\n' ∈ lit
    · obtain ⟨hnone, hcloses, -⟩ := goes_on_of_closes hq h hmem
      obtain ⟨hbehind, hcount, -⟩ := behind_append_of_mem hmem after
      rw [firstLine_append_of_mem hmem, hbehind, hcount, ← Nat.add_assoc,
        ← scanLines_open hs hq hcloses]
      simp only [List.drop_succ_cons, List.drop_zero, hnone, Bool.not_true, ← hs.2]
    · rw [firstLine_append hmem, behind_append hmem, List.count_eq_zero.mpr hmem, scanRest]
      simp only [List.drop_succ_cons, List.drop_zero, closedAfter?_of_closes hq h hmem,
        Nat.add_comm 2, List.drop_left, Nat.add_zero]

end Literals

/-! ## Starts of lines -/

/-- A character of an indentation. -/
def IsBlank (c : Char) : Prop := c = ' ' ∨ c = '\t' ∨ c = '\x0c'

theorem indentation_stop {column : Nat} (h : ∀ c ∈ cs.head?, ¬ IsBlank c) :
    indentation column cs = (column, cs) := by
  rw [indentation.eq_def]
  split
  · exact absurd (.inl rfl) (h _ rfl)
  · exact absurd (.inr (.inl rfl)) (h _ rfl)
  · exact absurd (.inr (.inr rfl)) (h _ rfl)
  · rfl

theorem exists_blanks (cs : List Char) : ∃ blanks rest, cs = blanks ++ rest ∧
    (∀ c ∈ blanks, IsBlank c) ∧ ∀ c ∈ rest.head?, ¬ IsBlank c := by
  induction cs with
  | nil => exact ⟨[], [], rfl, List.forall_mem_nil _, by simp⟩
  | cons c cs ih =>
    by_cases hc : IsBlank c
    · obtain ⟨blanks, rest, rfl, hblanks, hrest⟩ := ih
      exact ⟨c :: blanks, rest, rfl, List.forall_mem_cons.mpr ⟨hc, hblanks⟩, hrest⟩
    · exact ⟨[], c :: cs, rfl, List.forall_mem_nil _, by simpa using hc⟩

/-- What follows the blanks does not matter for the column. -/
theorem indentation_append (hw : ∀ c ∈ w, IsBlank c) (column : Nat) : ∃ column', ∀ rest,
    (∀ c ∈ rest.head?, ¬ IsBlank c) → indentation column (w ++ rest) = (column', rest) := by
  induction w generalizing column with
  | nil => exact ⟨column, fun rest hrest => indentation_stop hrest⟩
  | cons c w ih =>
    rw [List.forall_mem_cons] at hw
    obtain ⟨column', hcolumn⟩ : ∃ column', ∀ rest, indentation column (c :: rest) =
        indentation column' rest := by
      rcases hw.1 with rfl | rfl | rfl
      · exact ⟨_, fun _ => by rw [indentation]⟩
      · exact ⟨_, fun _ => by rw [indentation]⟩
      · exact ⟨_, fun _ => by rw [indentation]⟩
    obtain ⟨column'', hrest⟩ := ih hw.2 column'
    exact ⟨column'', fun rest hstop => by rw [List.cons_append, hcolumn, hrest rest hstop]⟩

theorem isWordChar_of_isBlank (hc : IsBlank c) : Token.IsWordChar c := Token.isWordChar_blank hc

theorem not_mem_of_isBlank (hw : ∀ c ∈ w, IsBlank c) : '\n' ∉ w := by
  intro hmem
  exact absurd (isWordChar_of_isBlank (hw _ hmem)) (by decide)

theorem scanLines_lines (hcs : cs ≠ []) :
    scanLines s n (lines cs) =
      (scanLine s n (firstLine cs)).bind fun s => scanLines s (n + 1) (lines (behind cs)) := by
  rw [lines_eq hcs]
  rfl

theorem scanLines_inside (hs : s.quote = none) (hinside : s.brackets ≠ 0 ∨ s.isJoined = true)
    (hcs : cs ≠ []) : scanLines s n (lines cs) = scanRest { s with isJoined := false } n cs := by
  rw [scanLines_lines hcs, scanLine]
  simp only [hs, if_pos hinside]
  rfl

section Outside

variable (hquote : s.quote = none) (hbrackets : s.brackets = 0) (hjoined : s.isJoined = false)
  (hw : ∀ c ∈ w, IsBlank c)

include hquote hbrackets hjoined hw

theorem scanLines_newline : scanLines s n (lines (w ++ '\n' :: rest)) =
    scanLines s (n + 1) (lines rest) := by
  obtain ⟨column, hcolumn⟩ := indentation_append hw 0
  have hline := not_mem_of_isBlank hw
  rw [scanLines_lines (by simp), scanLine, firstLine_append hline, behind_append hline,
    firstLine_newline, behind_newline]
  simp only [hquote, hbrackets, hjoined, ne_eq, not_true_eq_false, Bool.false_eq_true, or_self,
    if_false, hcolumn ['\n'] (by simp [IsBlank])]
  simp [isLineEnd]

theorem scanLines_finish : scanLines s n (lines w) = some s := by
  by_cases hne : w = []
  · subst hne
    rfl
  obtain ⟨column, hcolumn⟩ := indentation_append hw 0
  have hline := not_mem_of_isBlank hw
  have hfirst := firstLine_append hline []
  have hbehind := behind_append hline []
  have hindent := hcolumn [] (by simp)
  rw [List.append_nil] at hfirst hbehind hindent
  rw [scanLines_lines hne, scanLine, hfirst, hbehind, firstLine_nil, List.append_nil]
  simp only [hquote, hbrackets, hjoined, ne_eq, not_true_eq_false, Bool.false_eq_true, or_self,
    if_false, hindent]
  rfl

theorem scanLines_comment {text : List Char} (htext : '\n' ∉ text) (hreturn : '\r' ∉ text)
    (hend : ∀ c ∈ rest.head?, c = '\n') :
    scanLines s n (lines (w ++ '#' :: (text ++ rest))) =
      scanRest (s.addComment n ('#' :: text)) n rest := by
  obtain ⟨column, hcolumn⟩ := indentation_append hw 0
  have hline := not_mem_of_isBlank hw
  have htail : firstLine rest = [] ∨ firstLine rest = ['\n'] := by
    rcases rest with _ | ⟨c, rest⟩
    · exact .inl rfl
    · obtain rfl := hend c rfl
      exact .inr rfl
  -- the end of the line is no part of the comment
  have hcomment : Text.dropEndWhile isLineEnd ('#' :: (text ++ firstLine rest)) = '#' :: text := by
    have hlast : ('#' :: text).rdropWhile isLineEnd = '#' :: text := by
      rw [List.rdropWhile_eq_self_iff]
      intro hne hend
      have hmem := List.getLast_mem hne
      simp only [isLineEnd, Bool.or_eq_true, decide_eq_true_eq] at hend
      rcases hend with hend | hend
      · rw [hend, List.mem_cons] at hmem
        exact hmem.elim (fun h => absurd h (by decide)) hreturn
      · rw [hend, List.mem_cons] at hmem
        exact hmem.elim (fun h => absurd h (by decide)) htext
    rcases htail with hnil | hnewline
    · rw [hnil, List.append_nil]
      exact hlast
    · rw [hnewline, ← List.cons_append]
      exact (List.rdropWhile_concat_pos _ _ _ (by decide)).trans hlast
  have hstay : scanText n (s.addComment n ('#' :: text)) (firstLine rest) =
      s.addComment n ('#' :: text) := by
    rcases htail with hnil | hnewline
    · rw [hnil, scanText_nil]
    · rw [hnewline, scanText_newline]
  rw [scanLines_lines (by simp), scanLine, firstLine_append hline, behind_append hline,
    firstLine_cons (by decide), behind_cons (by decide), firstLine_append htext,
    behind_append htext]
  simp only [hquote, hbrackets, hjoined, ne_eq, not_true_eq_false, Bool.false_eq_true, or_self,
    if_false, hcolumn ('#' :: (text ++ firstLine rest)) (by simp [IsBlank]), if_true, hcomment]
  rw [scanRest, hstay]
  rfl

theorem scanLines_text (hc : ¬ IsBlank c) (hhash : c ≠ '#') (hend : isLineEnd c = false) :
    scanLines s n (lines (w ++ c :: rest)) =
      (indent? (indentation 0 (w ++ c :: rest)).1 s.indents).bind fun indents =>
        scanRest { s with indents } n (c :: rest) := by
  obtain ⟨column, hcolumn⟩ := indentation_append hw 0
  have hline := not_mem_of_isBlank hw
  have hnewline : c ≠ '\n' := by
    rintro rfl
    exact absurd hend (by decide)
  rw [scanLines_lines (by simp), scanLine, firstLine_append hline, behind_append hline,
    firstLine_cons hnewline]
  simp only [hquote, hbrackets, hjoined, ne_eq, not_true_eq_false, Bool.false_eq_true, or_self,
    if_false, hcolumn (c :: firstLine rest) (by simpa using hc),
    hcolumn (c :: rest) (by simpa using hc), hhash, hend]
  rcases indent? column s.indents with _ | indents
  · rfl
  · rw [Option.bind_some, scanRest, firstLine_cons hnewline]
    rfl

end Outside

/-- The indentations in use behind the indentation of a line; the line may have none that counts. -/
def indentsAt? (s : CommentScan) (cs : List Char) : Option (List Nat) :=
  if s.brackets = 0 ∧ (indentation 0 cs).2.head?.any (fun c => c ≠ '#' && c ≠ '\n') then
    indent? (indentation 0 cs).1 s.indents
  else some s.indents

/-- **What starts with a line is scanned as what is in a line**, but for the indentation. -/
theorem scanLines_start (hquote : s.quote = none) (hjoined : s.isJoined = false)
    (hreturn : '\r' ∉ cs) :
    scanLines s n (lines cs) =
      (indentsAt? s cs).bind fun indents => scanRest { s with indents } n cs := by
  rcases hcs : cs with _ | ⟨c, more⟩
  · simp [indentsAt?, indentation, lines, scanLines]
  rw [← hcs]
  have hne : cs ≠ [] := by simp [hcs]
  by_cases hbrackets : s.brackets = 0
  · obtain ⟨blanks, rest, rfl, hblanks, hrest⟩ := exists_blanks cs
    obtain ⟨column, hcolumn⟩ := indentation_append hblanks 0
    have hskip : ∀ s, scanRest s n (blanks ++ rest) = scanRest s n rest := fun s =>
      scanRest_word fun c hc => isWordChar_of_isBlank (hblanks c hc)
    have hindents : indentsAt? s (blanks ++ rest) =
        if rest.head?.any (fun c => c ≠ '#' && c ≠ '\n') then indent? column s.indents
        else some s.indents := by
      simp only [indentsAt?, hbrackets, true_and, hcolumn rest hrest]
    simp only [hindents, hskip]
    rcases rest with _ | ⟨c, rest⟩
    · rw [List.append_nil, scanLines_finish hquote hbrackets hjoined hblanks]
      simp
    by_cases hnewline : c = '\n'
    · subst hnewline
      rw [scanLines_newline hquote hbrackets hjoined hblanks]
      simp [scanRest_newline]
    by_cases hhash : c = '#'
    · subst hhash
      rw [List.mem_append, List.mem_cons, not_or, not_or] at hreturn
      have htext : '\n' ∉ rest.takeWhile (· ≠ '\n') := fun h => by
        simpa using List.mem_takeWhile_imp h
      have hreturn' : '\r' ∉ rest.takeWhile (· ≠ '\n') := fun h =>
        hreturn.2.2 ((List.takeWhile_prefix _).subset h)
      have hend : ∀ c ∈ (rest.dropWhile (· ≠ '\n')).head?, c = '\n' := by
        intro c hc
        have hhead := List.head?_dropWhile_not (· ≠ '\n') rest
        rw [Option.mem_def.mp hc] at hhead
        simpa using hhead
      have hscan := scanLines_comment (n := n) hquote hbrackets hjoined hblanks htext hreturn' hend
      have hscan' := scanRest_comment (s := s) (n := n) htext hreturn' hend
      rw [List.takeWhile_append_dropWhile] at hscan hscan'
      rw [hscan, ← hscan']
      simp
    · have hend : isLineEnd c = false := by
        rw [List.mem_append, List.mem_cons, not_or, not_or] at hreturn
        simp [isLineEnd, hnewline, Ne.symm hreturn.2.1]
      rw [scanLines_text hquote hbrackets hjoined hblanks (hrest c rfl) hhash hend,
        hcolumn (c :: rest) hrest]
      simp [hnewline, hhash]
  · rw [scanLines_inside hquote (.inl hbrackets) hne, indentsAt?, if_neg fun h => hbrackets h.1]
    cases s
    cases hjoined
    rfl

end ModelLint.Source.CommentScan
