import ModelLint.Proofs.Source.CommentScan

/-!
# Line ends of two characters

The scan for comments ends lines at line feeds only. A carriage return in front of a line feed does not
change what it finds, so a text whose carriage returns all stand there is scanned like the one with line
feeds only.

* `closedAfter?_return`, `scanText_return`, `scanLine_return`: the last two characters of a line.
* `ReturnsPaired`: texts whose carriage returns stand in front of line feeds.
* **`scanLines_unify`**: such a text is scanned like the one with line feeds only.
-/

namespace ModelLint.Source.CommentScan

open Token

variable {s s' : CommentScan} {n : Nat} {c q : Char} {b : Bool} {cs l : List Char}

/-! ## The end of a line -/

theorem ne_return_of_isQuote (hq : IsQuote q) : q ≠ '\r' := by
  rcases isQuote_iff.mp hq with rfl | rfl <;> decide

theorem take_two_return (hq : IsQuote q) (l : List Char) :
    (l ++ ['\r', '\n']).take 2 = [q, q] ↔ (l ++ ['\n']).take 2 = [q, q] := by
  have hreturn := ne_return_of_isQuote hq
  have hnewline := ne_newline_of_isQuote hq
  rcases l with _ | ⟨c, _ | ⟨d, l⟩⟩
  · simp [Ne.symm hreturn, Ne.symm hnewline]
  · simp [Ne.symm hreturn, Ne.symm hnewline]
  · simp

theorem closedAfter?_return (hq : IsQuote q) (hl : '\n' ∉ l) :
    closedAfter? q b (l ++ ['\r', '\n']) = closedAfter? q b (l ++ ['\n']) ∧
      ∀ k, closedAfter? q b (l ++ ['\n']) = some k → k ≤ l.length := by
  have hreturn := ne_return_of_isQuote hq
  have hnewline := ne_newline_of_isQuote hq
  have hend : closedAfter? q b ['\n'] = none := by
    rw [closedAfter?_cons (by decide)]
    simp [Ne.symm hnewline, closedAfter?]
  induction hlength : l.length using Nat.strong_induction_on generalizing l with
  | _ length ih =>
    subst hlength
    rcases l with _ | ⟨c, l⟩
    · rw [List.nil_append, List.nil_append, closedAfter?_cons (by decide), hend]
      simp [Ne.symm hreturn]
    rw [List.mem_cons, not_or] at hl
    by_cases hc : c = '\\'
    · subst hc
      rcases l with _ | ⟨d, l⟩
      · simp only [List.cons_append, List.nil_append, closedAfter?_escape (c := '\r') (by decide), hend]
        simp [closedAfter?]
      · rw [List.mem_cons, not_or] at hl
        obtain ⟨heq, hle⟩ := ih _ (Nat.lt_succ_of_lt (Nat.lt_succ_self _)) hl.2.2 rfl
        simp only [List.cons_append, closedAfter?_escape (Ne.symm hl.2.1), heq, true_and]
        intro k hk
        obtain ⟨k', hk', rfl⟩ := Option.map_eq_some_iff.mp hk
        exact Nat.succ_le_succ (Nat.succ_le_succ (hle k' hk'))
    · obtain ⟨heq, hle⟩ := ih _ (Nat.lt_succ_self _) hl.2 rfl
      simp only [List.cons_append, closedAfter?_cons hc, heq, take_two_return hq, true_and]
      intro k hk
      split at hk
      · cases hk
        exact Nat.succ_le_succ (Nat.zero_le _)
      split at hk
      · next htwo =>
        cases hk
        rcases l with _ | ⟨d, _ | ⟨e, l⟩⟩
        · simp [Ne.symm hnewline] at htwo
        · simp [Ne.symm hnewline] at htwo
        · simp
      · obtain ⟨k', hk', rfl⟩ := Option.map_eq_some_iff.mp hk
        exact Nat.succ_le_succ (hle k' hk')

theorem joins_return (hl : '\n' ∉ l) (hreturn : '\r' ∉ l) :
    joins q (l ++ ['\r', '\n']) = joins q (l ++ ['\n']) := by
  have hend : joins q ['\n'] = false := by
    rw [joins_cons (by decide)]
    simp
  induction hlength : l.length using Nat.strong_induction_on generalizing l with
  | _ length ih =>
    subst hlength
    rcases l with _ | ⟨c, l⟩
    · rw [List.nil_append, List.nil_append, joins_cons (by decide), hend, Bool.and_false]
    rw [List.mem_cons, not_or] at hl hreturn
    by_cases hc : c = '\\'
    · subst hc
      rcases l with _ | ⟨d, l⟩
      · rfl
      · rw [List.mem_cons, not_or] at hl hreturn
        have heq := ih _ (Nat.lt_succ_of_lt (Nat.lt_succ_self _)) hl.2.2 hreturn.2.2 rfl
        have hescape : ∀ line, joins q ('\\' :: d :: line) = joins q line := by
          intro line
          rw [joins]
          · exact fun h => hl.2.1 h.symm
          · exact fun _ h => absurd h.symm hreturn.2.1
        rw [List.cons_append, List.cons_append, List.cons_append, List.cons_append, hescape, hescape,
          heq]
    · rw [List.cons_append, List.cons_append, joins_cons hc, joins_cons hc,
        ih _ (Nat.lt_succ_self _) hl.2 hreturn.2 rfl]

/-- What is on a line does not depend on what ends it. -/
theorem scanText_return (hl : '\n' ∉ l) (hreturn : '\r' ∉ l) :
    scanText n s (l ++ ['\r', '\n']) = scanText n s (l ++ ['\n']) := by
  induction hlength : l.length using Nat.strong_induction_on generalizing l s with
  | _ length ih =>
    subst hlength
    rcases l with _ | ⟨c, l⟩
    · rw [List.nil_append, List.nil_append, scanText_newline, scanText]
      simp [scanText_newline]
    rw [List.mem_cons, not_or] at hl hreturn
    have hrest : ∀ s, scanText n s (l ++ ['\r', '\n']) = scanText n s (l ++ ['\n']) :=
      fun s => ih _ (Nat.lt_succ_self _) hl.2 hreturn.2 rfl
    by_cases hq : IsQuote c
    · have hdrop : ∀ k, k ≤ l.length →
          scanText n s ((l ++ ['\r', '\n']).drop k) = scanText n s ((l ++ ['\n']).drop k) := by
        intro k hk
        rw [List.drop_append_of_le_length hk, List.drop_append_of_le_length hk]
        refine ih _ ?_ (fun h => hl.2 (List.mem_of_mem_drop h))
          (fun h => hreturn.2 (List.mem_of_mem_drop h)) rfl
        rw [List.length_drop]
        exact Nat.lt_succ_of_le (Nat.sub_le ..)
      obtain ⟨hshort, hshortle⟩ := closedAfter?_return (b := false) hq hl.2
      simp only [List.cons_append, scanText_quote hq, take_two_return hq, hshort, joins_return hl.2 hreturn.2,
        hrest]
      split
      · next htwo =>
        -- the two quotes more are on the line
        obtain ⟨l, rfl⟩ : ∃ l', l = c :: c :: l' := by
          have hnewline := ne_newline_of_isQuote hq
          rcases l with _ | ⟨d, _ | ⟨e, l⟩⟩
          · simp [Ne.symm hnewline] at htwo
          · simp [Ne.symm hnewline] at htwo
          · simp only [List.cons_append, List.take_succ_cons, List.take_zero, List.cons.injEq,
              and_true] at htwo
            exact ⟨l, by rw [htwo.1, htwo.2]⟩
        have hl' : '\n' ∉ l := fun h => hl.2 (List.mem_cons_of_mem _ (List.mem_cons_of_mem _ h))
        obtain ⟨hlong, hlongle⟩ := closedAfter?_return (b := true) hq hl'
        have hlong' : closedAfter? c true ((c :: c :: l ++ ['\r', '\n']).drop 2) =
            closedAfter? c true ((c :: c :: l ++ ['\n']).drop 2) := hlong
        rw [hlong']
        split
        · next k hk =>
          refine hdrop (2 + k) ?_
          have := hlongle k hk
          simp only [List.length_cons]
          omega
        · rfl
      · split
        · next k hk => exact hdrop k (hshortle k hk)
        · rfl
    · rw [isQuote_iff] at hq
      rw [List.cons_append, List.cons_append, scanText, scanText]
      by_cases hhash : c = '#'
      · have hplain : ∀ d ∈ l, (!isLineEnd d) = true := by
          intro d hd
          simp only [isLineEnd, Bool.not_eq_true', Bool.or_eq_false_iff, decide_eq_false_iff_not]
          exact ⟨fun heq => hreturn.2 (heq ▸ hd), fun heq => hl.2 (heq ▸ hd)⟩
        simp only [if_pos hhash]
        rw [List.takeWhile_append_of_pos hplain, List.takeWhile_append_of_pos hplain,
          List.takeWhile_cons_of_neg (by decide), List.takeWhile_cons_of_neg (by decide),
          List.append_nil, List.drop_left, List.drop_left]
        exact ih 0 (Nat.zero_lt_succ _) (l := []) List.not_mem_nil List.not_mem_nil rfl
      · have hjoin : ((l ++ ['\r', '\n']).head? = some '\n' ∨
            (l ++ ['\r', '\n']).take 2 = ['\r', '\n']) ↔
            ((l ++ ['\n']).head? = some '\n' ∨ (l ++ ['\n']).take 2 = ['\r', '\n']) := by
          rcases l with _ | ⟨d, l⟩
          · simp
          · rw [List.mem_cons, not_or] at hl hreturn
            simp [Ne.symm hl.2.1, Ne.symm hreturn.2.1]
        simp only [hhash, if_false, hjoin, hq, hrest]

theorem endsWithBackslash_return (hreturn : '\r' ∉ l) :
    endsWithBackslash (l ++ ['\r', '\n']) = endsWithBackslash (l ++ ['\n']) := by
  rcases l.eq_nil_or_concat with rfl | ⟨w, c, rfl⟩
  · rfl
  · rw [List.concat_eq_append, List.mem_append, List.mem_singleton, not_or] at hreturn
    simp [endsWithBackslash, List.isSuffixOf, List.isPrefixOf, hreturn.2]

/-! ## Lines -/

/-- A literal that is open starts with a quote. -/
def IsValid (s : CommentScan) : Prop := ∀ open' ∈ s.quote, IsQuote open'.1

theorem isValid_open (hq : IsQuote q) (hs : s.quote = some (q, b)) : s.IsValid := by
  intro open' hopen
  rw [hs] at hopen
  cases hopen
  exact hq

theorem IsValid.scanText (hs : s.IsValid) : (scanText n s cs).IsValid := by
  fun_induction CommentScan.scanText n s cs with
  | case1 => exact hs
  | case5 s c rest _ _ hq => exact isValid_open (isQuote_iff.mpr hq) rfl
  | case7 s c rest _ _ hq => exact isValid_open (isQuote_iff.mpr hq) rfl
  | case2 s c comment ih => exact ih hs
  | case3 s c rest _ _ ih => exact ih hs
  | case4 s c rest _ _ _ _ _ _ ih => exact ih hs
  | case6 s c rest _ _ _ _ _ _ ih => exact ih hs
  | case8 s c rest _ _ _ _ _ _ ih => exact ih hs
  | case9 s c rest _ _ _ _ ih => exact ih hs
  | case10 s c rest _ _ _ _ _ ih => exact ih hs
  | case11 s c rest _ _ _ _ _ ih => exact ih hs

theorem isValid_none (hs : s.quote = none) : s.IsValid := by
  intro open' hopen
  rw [hs] at hopen
  cases hopen

theorem IsValid.scanLine (hs : s.IsValid) (h : scanLine s n cs = some s') : s'.IsValid := by
  rw [CommentScan.scanLine.eq_def] at h
  split at h
  · split at h
    · cases h
      exact (isValid_none rfl).scanText
    · split at h
      · cases h
        exact isValid_none rfl
      · cases h
        exact hs
  · split at h
    · cases h
      exact IsValid.scanText hs
    · dsimp only at h
      split at h
      · cases h
        exact hs
      · split at h
        · cases h
          exact hs
        split at h
        · cases h
          exact hs
        · obtain ⟨indents, -, heq⟩ := Option.bind_eq_some_iff.mp h
          cases heq
          exact IsValid.scanText hs

/-- A line is scanned in the same way, whatever ends it. -/
theorem scanLine_return (hs : s.IsValid) (hl : '\n' ∉ l) (hreturn : '\r' ∉ l) :
    scanLine s n (l ++ ['\r', '\n']) = scanLine s n (l ++ ['\n']) := by
  rw [scanLine.eq_def, scanLine.eq_def]
  split
  · next q b hquote =>
    obtain ⟨hclosed, hle⟩ := closedAfter?_return (b := b) (hs _ hquote) hl
    simp only [hclosed, endsWithBackslash_return hreturn]
    split
    · next k hk =>
      have hk := hle k hk
      rw [List.drop_append_of_le_length hk, List.drop_append_of_le_length hk,
        scanText_return (fun h => hl (List.mem_of_mem_drop h))
          (fun h => hreturn (List.mem_of_mem_drop h))]
    · rfl
  · rw [scanText_return hl hreturn]
    obtain ⟨blanks, rest, rfl, hblanks, hrest⟩ := exists_blanks l
    obtain ⟨column, hcolumn⟩ := indentation_append hblanks 0
    rcases rest with _ | ⟨c, rest⟩
    · simp only [List.append_nil, hcolumn ['\r', '\n'] (by simp [IsBlank]),
        hcolumn ['\n'] (by simp [IsBlank])]
      simp [isLineEnd]
    · have hrest' : '\n' ∉ c :: rest := fun h => hl (List.mem_append_right _ h)
      have hreturn' : '\r' ∉ c :: rest := fun h => hreturn (List.mem_append_right _ h)
      have hcomment : Text.dropEndWhile isLineEnd (c :: rest ++ ['\r', '\n']) =
          Text.dropEndWhile isLineEnd (c :: rest ++ ['\n']) :=
        calc ((c :: rest) ++ ['\r', '\n']).rdropWhile isLineEnd
          _ = (((c :: rest) ++ ['\r']) ++ ['\n']).rdropWhile isLineEnd := by
            rw [List.append_assoc, List.singleton_append]
          _ = (c :: rest).rdropWhile isLineEnd := by
            rw [List.rdropWhile_concat_pos _ _ _ (by decide),
              List.rdropWhile_concat_pos _ _ _ (by decide)]
          _ = ((c :: rest) ++ ['\n']).rdropWhile isLineEnd :=
            (List.rdropWhile_concat_pos _ _ _ (by decide)).symm
      simp only [List.append_assoc, hcolumn (c :: rest ++ ['\r', '\n']) hrest,
        hcolumn (c :: rest ++ ['\n']) hrest, hcomment, scanText_return hrest' hreturn']
      rfl

/-! ## Texts -/

/-- Every carriage return is followed by a line feed. -/
def ReturnsPaired : List Char → Prop
  | [] => True
  | c :: cs => (c = '\r' → cs.head? = some '\n') ∧ ReturnsPaired cs

instance : (cs : List Char) → Decidable (ReturnsPaired cs)
  | [] => inferInstanceAs (Decidable True)
  | _ :: cs => @instDecidableAnd _ _ _ (instDecidableReturnsPaired cs)

/-- A text whose carriage returns are paired is its first line with the line's end, and what follows. -/
theorem ReturnsPaired.exists_line (h : ReturnsPaired cs) : ∃ l rest, '\n' ∉ l ∧ '\r' ∉ l ∧
    (cs = l ∨ cs = l ++ '\n' :: rest ∧ ReturnsPaired rest ∨
      cs = l ++ '\r' :: '\n' :: rest ∧ ReturnsPaired rest) := by
  induction cs with
  | nil => exact ⟨[], [], List.not_mem_nil, List.not_mem_nil, .inl rfl⟩
  | cons c cs ih =>
    by_cases hreturn : c = '\r'
    · obtain ⟨rest, rfl⟩ : ∃ rest, cs = '\n' :: rest := List.head?_eq_some_iff.mp (h.1 hreturn)
      exact ⟨[], rest, List.not_mem_nil, List.not_mem_nil, .inr (.inr ⟨by rw [hreturn]; rfl, h.2.2⟩)⟩
    by_cases hnewline : c = '\n'
    · exact ⟨[], cs, List.not_mem_nil, List.not_mem_nil, .inr (.inl ⟨by rw [hnewline]; rfl, h.2⟩)⟩
    obtain ⟨l, rest, hl, hl', hcs⟩ := ih h.2
    refine ⟨c :: l, rest, List.not_mem_cons_of_ne_of_not_mem (Ne.symm hnewline) hl,
      List.not_mem_cons_of_ne_of_not_mem (Ne.symm hreturn) hl', ?_⟩
    rcases hcs with rfl | ⟨rfl, hrest⟩ | ⟨rfl, hrest⟩
    · exact .inl rfl
    · exact .inr (.inl ⟨rfl, hrest⟩)
    · exact .inr (.inr ⟨rfl, hrest⟩)

theorem unifyLineEnds_append (hreturn : '\r' ∉ l) (rest : List Char) :
    Text.unifyLineEnds (l ++ rest) = l ++ Text.unifyLineEnds rest := by
  induction l with
  | nil => rfl
  | cons c l ih =>
    rw [List.mem_cons, not_or] at hreturn
    rw [List.cons_append, Text.unifyLineEnds, ih hreturn.2, List.cons_append]
    · exact fun _ h => absurd h.symm hreturn.1
    · exact fun h => absurd h.symm hreturn.1

/-- **Line ends of two characters count as line feeds.** -/
theorem scanLines_unify (hs : s.IsValid) (h : ReturnsPaired cs) :
    scanLines s n (lines cs) = scanLines s n (lines (Text.unifyLineEnds cs)) := by
  induction hlength : cs.length using Nat.strong_induction_on generalizing cs s n with
  | _ length ih =>
    subst hlength
    obtain ⟨l, rest, hl, hreturn, hcs⟩ := h.exists_line
    -- a first line that is scanned in the same way, and the rest
    have hfirst : ∀ line line', '\n' ∉ line → '\n' ∉ line' →
        scanLine s n (line ++ ['\n']) = scanLine s n (line' ++ ['\n']) →
        (∀ s', s'.IsValid → scanLines s' (n + 1) (lines rest) =
          scanLines s' (n + 1) (lines (Text.unifyLineEnds rest))) →
        scanLines s n (lines (line ++ '\n' :: rest)) =
          scanLines s n (lines (line' ++ '\n' :: Text.unifyLineEnds rest)) := by
      intro line line' hline hline' hsame hrest
      rw [scanLines_lines (by simp), scanLines_lines (by simp), firstLine_append hline,
        firstLine_append hline', behind_append hline, behind_append hline', firstLine_newline,
        firstLine_newline, behind_newline, behind_newline, hsame]
      rcases hscan : scanLine s n (line' ++ ['\n']) with _ | s'
      · rfl
      · exact hrest s' (hs.scanLine hscan)
    rcases hcs with rfl | ⟨rfl, hrest⟩ | ⟨rfl, hrest⟩
    · have hsame := unifyLineEnds_append hreturn []
      rw [List.append_nil, Text.unifyLineEnds, List.append_nil] at hsame
      rw [hsame]
    · rw [unifyLineEnds_append hreturn, Text.unifyLineEnds]
      · refine hfirst l l hl hl rfl fun s' hs' => ih _ ?_ hs' hrest rfl
        simp only [List.length_append, List.length_cons]
        omega
      · simp
      · simp
    · rw [unifyLineEnds_append hreturn, Text.unifyLineEnds]
      have hreturn' : '\n' ∉ l ++ ['\r'] := by simpa using hl
      have hsame : scanLine s n (l ++ ['\r'] ++ ['\n']) = scanLine s n (l ++ ['\n']) := by
        rw [List.append_assoc]
        exact scanLine_return hs hl hreturn
      have hlines := hfirst (l ++ ['\r']) l hreturn' hl hsame fun s' hs' => ih _ (by
        simp only [List.length_append, List.length_cons]
        omega) hs' hrest rfl
      rwa [List.append_assoc, List.singleton_append] at hlines

end ModelLint.Source.CommentScan
