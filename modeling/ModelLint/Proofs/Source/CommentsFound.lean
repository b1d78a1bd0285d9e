import ModelLint.Proofs.Source.CommentPlaces
import ModelLint.Proofs.Source.LineEnds

/-!
# Which comments are found

The scan for tokens and the scan for comments read the same text, but for a line feed at its end. What
the one cuts a text into tells which comments the other finds, and the other ends with all brackets
closed if the one does.

* `Cut`: the text that the scan for comments reads.
* `found_of_lexed`: the comments that are found are those that the text is cut into.
* `indent?_of_enterLine`, `measure_steady`: both scans measure indentations alike.
* **`finishes_of_run`**: the scan for comments reaches the end where the scan for tokens does.
-/

namespace ModelLint.Source.CommentScan

open Token

variable {s s' : CommentScan} {n : Nat} {c : Char} {cs w rest : List Char}

/-! ## The text that is read -/

/-- A text, perhaps without the line feed at its end. -/
def Cut (w cs : List Char) : Prop := w = cs ∨ w ++ ['\n'] = cs

theorem Cut.nil (h : Cut w []) : w = [] :=
  h.elim id fun h => absurd h (List.append_ne_nil_of_right_ne_nil _ (List.cons_ne_nil _ _))

theorem Cut.cons (h : Cut w (c :: cs)) :
    w = [] ∧ c = '\n' ∧ cs = [] ∨ ∃ w', w = c :: w' ∧ Cut w' cs := by
  rcases h with rfl | h
  · exact .inr ⟨cs, rfl, .inl rfl⟩
  · rcases w with _ | ⟨d, w⟩
    · cases h
      exact .inl ⟨rfl, rfl, rfl⟩
    · cases h
      exact .inr ⟨w, rfl, .inr rfl⟩

theorem Cut.append {u : List Char} (h : Cut w (u ++ cs)) (hu : u.getLast? ≠ some '\n') :
    ∃ w', w = u ++ w' ∧ Cut w' cs := by
  induction u generalizing w with
  | nil => exact ⟨w, rfl, h⟩
  | cons c u ih =>
    rcases h.cons with ⟨-, rfl, hnil⟩ | ⟨w', rfl, hcut⟩
    · obtain rfl : u = [] := (List.append_eq_nil_iff.mp hnil).1
      exact absurd rfl hu
    · have hlast : u.getLast? ≠ some '\n' := by
        intro hlast
        rw [List.getLast?_cons, hlast] at hu
        exact hu rfl
      obtain ⟨w'', rfl, hcut'⟩ := ih hcut hlast
      exact ⟨w'', rfl, hcut'⟩

theorem Cut.isPrefix (h : Cut w cs) : w <+: cs := by
  rcases h with rfl | rfl
  · exact List.prefix_rfl
  · exact List.prefix_append ..

theorem Cut.head?_newline (h : Cut w ('\n' :: cs)) : ∀ c ∈ w.head?, c = '\n' := by
  rcases h.cons with ⟨rfl, -, -⟩ | ⟨w', rfl, -⟩
  · simp
  · simp

theorem getLast?_ne_of_not_mem (hw : '\n' ∉ w) : w.getLast? ≠ some '\n' := fun h =>
  hw (List.mem_of_getLast? h)

theorem not_mem_of_isWordChar (hw : ∀ c ∈ w, IsWordChar c) : '\n' ∉ w := fun h =>
  absurd (hw _ h) (by decide)

theorem getLast?_append_ne {letters lit : List Char} (h : IsLiteral lit cs)
    (hletters : ∀ c ∈ letters, IsWordChar c) : (letters ++ lit).getLast? ≠ some '\n' := by
  have hlit := h.getLast?_ne
  rw [List.getLast?_append]
  rcases hlast : lit.getLast? with _ | c
  · exact getLast?_ne_of_not_mem (not_mem_of_isWordChar hletters)
  · rw [hlast] at hlit
    exact hlit

/-! ## The comments that are found -/

/-- A comment with its line, as the scan notes it. -/
def note (k : Nat × List Char) : Nat × String := (k.1, String.ofList k.2)

theorem lexed_of_not_mem {p : Position} {ts : List Token} {ks : List (Nat × List Char)}
    (h : Lexed p cs ts ks) (hcs : '#' ∉ cs) : ks = [] := by
  induction h with
  | done => rfl
  | char _ _ ih => exact ih fun h => hcs (List.mem_cons_of_mem _ h)
  | join _ ih => exact ih fun h => hcs (List.mem_cons_of_mem _ (List.mem_cons_of_mem _ h))
  | literal _ _ _ ih => exact ih fun h => hcs (List.mem_append_right _ (List.mem_append_right _ h))
  | comment => exact absurd List.mem_cons_self hcs

/-- What a plain character is to the scan for comments. -/
theorem isPlain_cases (hc : IsPlain c) : c = '\n' ∨ IsWordChar c ∨ IsOpening c ∨ IsClosing c := by
  simp only [IsPlain, IsWordChar, IsOpening, IsClosing, List.mem_cons, List.not_mem_nil, or_false,
    not_or] at hc ⊢
  tauto

/-- **The comments that are found** are those that the text is cut into. -/
theorem found_of_lexed {p : Position} {ts : List Token} {ks : List (Nat × List Char)}
    (h : Lexed p cs ts ks) (hreturn : '\r' ∉ cs) (hcut : Cut w cs) (hs : s.IsIdle)
    (hjoined : s.isJoined = false) (hscan : scanRest s p.line w = some s') :
    s'.found = (ks.map note).reverse ++ s.found := by
  induction h generalizing s w with
  | done =>
    obtain rfl := hcut.nil
    rw [scanRest_nil] at hscan
    cases hscan
    rfl
  | @char p c cs ts ks hc h ih =>
    rw [List.mem_cons, not_or] at hreturn
    rcases hcut.cons with ⟨rfl, rfl, rfl⟩ | ⟨w, rfl, hrest⟩
    · rw [scanRest_nil] at hscan
      cases hscan
      rw [lexed_of_not_mem h List.not_mem_nil]
      rfl
    rcases isPlain_cases hc with rfl | hc | hc | hc
    · have hreturn' : '\r' ∉ w := fun h => hreturn.2 (hrest.isPrefix.subset h)
      rw [scanRest_newline, scanLines_start hs.1 hjoined hreturn'] at hscan
      obtain ⟨indents, -, hscan⟩ := Option.bind_eq_some_iff.mp hscan
      exact ih hreturn.2 hrest (s := { s with indents }) hs hjoined hscan
    · have hline : c ≠ '\n' := by
        rintro rfl
        exact absurd hc (by decide)
      rw [scanRest_cons_word hc, ← Position.line_next p hline] at hscan
      exact ih hreturn.2 hrest hs hjoined hscan
    · have hline : c ≠ '\n' := by
        rintro rfl
        exact absurd hc (by decide)
      rw [scanRest_opening hc, ← Position.line_next p hline] at hscan
      exact ih hreturn.2 hrest (s := { s with brackets := s.brackets + 1 }) hs hjoined hscan
    · have hline : c ≠ '\n' := by
        rintro rfl
        exact absurd hc (by decide)
      rw [scanRest_closing hc, ← Position.line_next p hline] at hscan
      exact ih hreturn.2 hrest (s := { s with brackets := s.brackets - 1 }) hs hjoined hscan
  | @join p c cs ts ks h ih =>
    have hreturn' : '\r' ∉ c :: cs := fun h =>
      hreturn (List.mem_cons_of_mem _ (List.mem_cons_of_mem _ h))
    rcases hcut.cons with ⟨-, hnewline, -⟩ | ⟨w, rfl, hbackslash⟩
    · cases hnewline
    rcases hbackslash.cons with ⟨-, -, hnil⟩ | ⟨w, rfl, hrest⟩
    · cases hnil
    rw [scanRest_join] at hscan
    by_cases hw : w = []
    · -- the text ends with a joined line, which can only be empty
      subst hw
      cases hscan
      rcases hrest.cons with ⟨-, rfl, rfl⟩ | ⟨w, hnil, -⟩
      · rw [lexed_of_not_mem h (by decide)]
        rfl
      · cases hnil
    · rw [scanLines_inside (s := { s with isJoined := true }) hs.1 (.inr rfl) hw] at hscan
      exact ih hreturn' hrest (s := { s with isJoined := false }) hs rfl hscan
  | @literal p letters lit cs ts ks hletters hlit h ih =>
    rw [← List.append_assoc] at hcut hreturn
    obtain ⟨w, rfl, hrest⟩ := hcut.append (getLast?_append_ne hlit hletters)
    have hline : (p.after (letters ++ lit)).line = p.line + lit.count '\n' := by
      rw [Position.line_after, List.count_append, List.count_eq_zero.mpr (not_mem_of_isWordChar hletters),
        Nat.zero_add]
    rw [List.append_assoc, scanRest_word hletters,
      scanRest_literal hs (hlit.of_isPrefix hrest.isPrefix), ← hline] at hscan
    exact ih (fun h => hreturn (List.mem_append_right _ h)) hrest hs hjoined hscan
  | @comment p text cs ts ks htext h ih =>
    have hlast : ('#' :: text).getLast? ≠ some '\n' := getLast?_ne_of_not_mem fun h =>
      htext ((List.mem_cons.mp h).resolve_left (by decide))
    obtain ⟨w, rfl, hrest⟩ := hcut.append hlast
    have hreturn' : '\r' ∉ text ∧ '\r' ∉ '\n' :: cs := by
      rw [List.mem_cons, List.mem_append, not_or, not_or] at hreturn
      exact hreturn.2
    have hline : (p.after ('#' :: text)).line = p.line := by
      rw [Position.line_after, List.count_eq_zero.mpr, Nat.add_zero]
      exact fun h => htext ((List.mem_cons.mp h).resolve_left (by decide))
    rw [List.cons_append, scanRest_comment htext hreturn'.1 hrest.head?_newline] at hscan
    have hfound := ih hreturn'.2 hrest (s := s.addComment p.line ('#' :: text)) hs hjoined
      (by rw [hline]; exact hscan)
    rw [hfound, List.map_cons, List.reverse_cons, List.append_assoc]
    rfl

/-! ## Indentations -/

/-- Blocks are closed down to the indentation of a line that returns to one in use. -/
theorem dropWhile_of_closeBlocks {column narrow count : Nat} {blocks blocks' : List (Nat × Nat)}
    (h : closeBlocks column blocks = (count, blocks')) (hhead : blocks'.head? = some (column, narrow)) :
    column ∈ blocks.map Prod.fst ∧
      (blocks.map Prod.fst).dropWhile (column < ·) = blocks'.map Prod.fst := by
  induction blocks generalizing count with
  | nil =>
    cases h
    cases hhead
  | cons block blocks ih =>
    rw [closeBlocks.eq_def] at h
    dsimp only at h
    split at h
    · next hdeeper =>
      cases h
      obtain ⟨hmem, hdrop⟩ := ih rfl
      rw [List.map_cons, List.dropWhile_cons_of_pos (by simpa using hdeeper.1)]
      exact ⟨List.mem_cons_of_mem _ hmem, hdrop⟩
    · cases h
      obtain rfl : block = (column, narrow) := Option.some.inj hhead
      rw [List.map_cons, List.dropWhile_cons_of_neg (by simp)]
      exact ⟨List.mem_cons_self, rfl⟩

/-- **A line that opens or closes blocks** does so for the scan for comments. -/
theorem indent?_of_enterLine {i : Nat × Nat} {p : Position} {ts : List Token}
    {blocks blocks' : List (Nat × Nat)} (h : enterLine i p blocks = some (ts, blocks')) :
    indent? i.1 (blocks.map Prod.fst) = some (blocks'.map Prod.fst) := by
  obtain ⟨column, narrow⟩ := i
  rcases blocks with _ | ⟨⟨c, m⟩, blocks⟩
  · cases h
  rw [enterLine.eq_def] at h
  dsimp only at h
  rw [indent?, List.map_cons, List.headD_cons]
  split at h
  · next hcolumn =>
    subst hcolumn
    split at h
    · cases h
      simp
    · cases h
  · next hcolumn =>
    split at h
    · next hdeeper =>
      split at h
      · cases h
      · cases h
        rw [if_pos hdeeper]
        rfl
    · next hdeeper =>
      rcases hclose : closeBlocks column ((c, m) :: blocks) with ⟨count, open'⟩
      rw [hclose] at h
      dsimp only at h
      split at h
      · next hhead =>
        cases h
        obtain ⟨hmem, hdrop⟩ := dropWhile_of_closeBlocks hclose hhead
        rw [List.map_cons] at hmem hdrop
        rw [if_neg hdeeper, if_pos (List.contains_iff_mem.mpr hmem), hdrop]
      · cases h

/-- A text in which no line holds a backslash behind its indentation and nothing else. -/
def Steady (cs : List Char) : Prop :=
  ∀ line ∈ lines cs, ∀ blanks, (∀ c ∈ blanks, IsBlank c) → line ≠ blanks ++ ['\\', '\n']

theorem Steady.behind (h : Steady cs) : Steady (behind cs) := fun line hline =>
  h line (List.mem_of_mem_tail (by rwa [tail_lines]))

theorem Steady.behind_append (h : Steady (CommentScan.behind (w ++ cs))) :
    Steady (CommentScan.behind cs) := by
  induction w with
  | nil => exact h
  | cons c w ih =>
    by_cases hc : c = '\n'
    · subst hc
      exact ih (Steady.behind h)
    · rw [List.cons_append, behind_cons hc] at h
      exact ih h

theorem Steady.not_prefix (h : Steady cs) (hw : ∀ c ∈ w, IsBlank c) :
    ¬ w ++ ['\\', '\n'] <+: cs := by
  rintro ⟨more, rfl⟩
  have hline := not_mem_of_isBlank hw
  rw [List.append_assoc] at h
  refine h _ ?_ w hw rfl
  rw [lines_eq (by simp), firstLine_append hline]
  exact List.mem_cons_self

/-- Blanks lead from one column to another, whatever is behind them. -/
def Measured (column : Nat) (cs : List Char) (column' : Nat) (rest : List Char) : Prop :=
  ∃ blanks, (∀ c ∈ blanks, IsBlank c) ∧ cs = blanks ++ rest ∧
    ∀ w, (∀ c ∈ w.head?, ¬ IsBlank c) → indentation column (blanks ++ w) = (column', w)

theorem Measured.cons {column column' next : Nat} (h : Measured next cs column' rest)
    (hc : IsBlank c) (hnext : ∀ w, indentation column (c :: w) = indentation next w) :
    Measured column (c :: cs) column' rest := by
  obtain ⟨blanks, hblanks, rfl, hmore⟩ := h
  refine ⟨c :: blanks, List.forall_mem_cons.mpr ⟨hc, hblanks⟩, rfl, fun w hw => ?_⟩
  rw [List.cons_append, hnext, hmore w hw]

/-- **Both scans measure indentations alike**, where no line is joined on the way. -/
theorem measure_steady {i i' : Indentation} (h : i.measure cs = some (i', rest))
    (hsteady : ∀ w, (∀ c ∈ w, IsBlank c) → ¬ w ++ ['\\', '\n'] <+: cs) :
    i'.joined = i.joined ∧ (∀ c ∈ rest.head?, ¬ IsBlank c) ∧
      Measured i.column cs i'.column rest := by
  have hbehind : ∀ {c cs}, IsBlank c → (∀ w, (∀ c ∈ w, IsBlank c) →
      ¬ w ++ ['\\', '\n'] <+: c :: cs) →
      ∀ w, (∀ c ∈ w, IsBlank c) → ¬ w ++ ['\\', '\n'] <+: cs := by
    intro c cs hc hsteady w hw hprefix
    exact hsteady (c :: w) (List.forall_mem_cons.mpr ⟨hc, hw⟩)
      (List.cons_prefix_cons.mpr ⟨rfl, hprefix⟩)
  fun_induction Indentation.measure i cs with
  | case1 i cs ih =>
    obtain ⟨hjoined, hstop, hmeasured⟩ := ih h (hbehind (.inl rfl) hsteady)
    exact ⟨hjoined, hstop, hmeasured.cons (.inl rfl) fun w => by rw [indentation]⟩
  | case2 i cs ih =>
    obtain ⟨hjoined, hstop, hmeasured⟩ := ih h (hbehind (.inr (.inl rfl)) hsteady)
    exact ⟨hjoined, hstop, hmeasured.cons (.inr (.inl rfl)) fun w => by rw [indentation]⟩
  | case3 i cs ih =>
    obtain ⟨hjoined, hstop, hmeasured⟩ := ih h (hbehind (.inr (.inr rfl)) hsteady)
    exact ⟨hjoined, hstop, hmeasured.cons (.inr (.inr rfl)) fun w => by rw [indentation]⟩
  | case4 i c cs ih =>
    refine absurd ?_ (hsteady [] (List.forall_mem_nil _))
    exact ⟨c :: cs, rfl⟩
  | case5 => cases h
  | case6 i cs hspace htab hfeed =>
    cases h
    refine ⟨rfl, fun d hd => ?_, [], List.forall_mem_nil _, rfl, fun w hw => indentation_stop hw⟩
    obtain ⟨more, hmore⟩ := List.head?_eq_some_iff.mp hd
    rintro (rfl | rfl | rfl)
    · exact hspace more hmore
    · exact htab more hmore
    · exact hfeed more hmore

/-! ## The end of the text -/

/-- The scan for comments has come to an end that counts. -/
def IsFinished (s : CommentScan) : Prop :=
  s.quote = none ∧ s.brackets = 0 ∧ s.isJoined = false

/-- The scan for comments is where the scan for tokens is. -/
structure Matches (s : CommentScan) (t : Scan) : Prop where
  /-- No literal is open. -/
  idle : s.IsIdle
  /-- No line is joined. -/
  joined : s.isJoined = false
  /-- As many brackets are open. -/
  brackets : s.brackets = t.brackets.length
  /-- The same indentations are in use. -/
  indents : s.indents = t.blocks.map Prod.fst

/-- Goes on at the start of a line or behind it. -/
def scanFrom (isStart : Bool) (s : CommentScan) (n : Nat) (cs : List Char) : Option CommentScan :=
  if isStart then scanLines s n (lines cs) else scanRest s n cs

/-- The text that is left for the scan for comments when `cs` is left for the scan for tokens. A line
that is joined with nothing is not left. -/
def Left (w cs : List Char) : Prop := Cut w cs ∧ (w = cs ∨ ¬ ['\\', '\n'] <:+ w)

theorem Left.append {u : List Char} (h : Left w (u ++ cs)) (hu : u.getLast? ≠ some '\n') :
    ∃ w', w = u ++ w' ∧ Left w' cs := by
  obtain ⟨w', rfl, hcut⟩ := h.1.append hu
  exact ⟨w', rfl, hcut, h.2.imp List.append_cancel_left fun hjoin hsuffix =>
    hjoin (hsuffix.trans (List.suffix_append ..))⟩

section Steps

variable {t t' : Scan} (hreturn : '\r' ∉ t.rest) (hleft : Left w t.rest) (hs : Matches s t)

include hreturn hleft hs

/-- A step of the scan for tokens is one of the scan for comments, too. -/
theorem exists_scanFrom_of_reads (h : t.Reads t') (hstart : t.atLineStart = false)
    (hsteady : Steady (behind t.rest)) : ∃ s' n' w',
      scanRest s n w = scanFrom t'.atLineStart s' n' w' ∧ Left w' t'.rest ∧ Matches s' t' ∧
        Steady (if t'.atLineStart then t'.rest else behind t'.rest) := by
  -- what goes on in the line
  have hgo : ∀ {s' : CommentScan} {n' : Nat} {w' u : List Char},
      scanRest s n w = scanRest s' n' w' → t'.atLineStart = false → t.rest = u ++ t'.rest →
        Left w' t'.rest → Matches s' t' → ∃ s' n' w',
      scanRest s n w = scanFrom t'.atLineStart s' n' w' ∧ Left w' t'.rest ∧ Matches s' t' ∧
        Steady (if t'.atLineStart then t'.rest else behind t'.rest) := by
    intro s' n' w' u hscan hstart' hrest hleft' hs'
    rw [hrest] at hsteady
    refine ⟨s', n', w', ?_, hleft', hs', ?_⟩
    · rw [hstart', hscan]
      rfl
    · rw [hstart']
      exact hsteady.behind_append
  cases h with
  | @word u rest _ hrest hu _ =>
    rw [hrest] at hleft
    obtain ⟨w, rfl, hmore⟩ := hleft.append (getLast?_ne_of_not_mem (not_mem_of_isWordChar hu))
    exact hgo (scanRest_word hu) hstart hrest hmore ⟨hs.idle, hs.joined, hs.brackets, hs.indents⟩
  | @opening c rest _ _ hrest hc _ =>
    have hline : [c].getLast? ≠ some '\n' := by
      simp only [IsOpening, List.mem_cons, List.not_mem_nil, or_false] at hc
      rcases hc with rfl | rfl | rfl <;> decide
    rw [hrest, ← List.singleton_append] at hleft
    obtain ⟨w, rfl, hmore⟩ := hleft.append hline
    refine hgo (u := [c]) (scanRest_opening hc) hstart hrest hmore ⟨hs.idle, hs.joined, ?_, hs.indents⟩
    rw [hs.brackets, List.length_cons]
    rfl
  | @closing c rest _ outer _ hrest hc hbrackets _ =>
    have hline : [c].getLast? ≠ some '\n' := by
      simp only [IsClosing, List.mem_cons, List.not_mem_nil, or_false] at hc
      rcases hc with rfl | rfl | rfl <;> decide
    rw [hrest, ← List.singleton_append] at hleft
    obtain ⟨w, rfl, hmore⟩ := hleft.append hline
    refine hgo (u := [c]) (scanRest_closing hc) hstart hrest hmore ⟨hs.idle, hs.joined, ?_, hs.indents⟩
    simp [hs.brackets, hbrackets]
  | @literal letters lit rest hrest hletters hlit =>
    rw [← List.append_assoc] at hrest
    rw [hrest] at hleft
    obtain ⟨w, rfl, hmore⟩ := hleft.append (getLast?_append_ne hlit hletters)
    have hscan : scanRest s n (letters ++ lit ++ w) = scanRest s (n + lit.count '\n') w := by
      rw [List.append_assoc, scanRest_word hletters,
        scanRest_literal hs.idle (hlit.of_isPrefix hmore.1.isPrefix)]
    exact hgo hscan hstart hrest hmore ⟨hs.idle, hs.joined, hs.brackets, hs.indents⟩
  | @comment text rest hrest htext hend =>
    have hlast : ('#' :: text).getLast? ≠ some '\n' := getLast?_ne_of_not_mem fun h =>
      htext ((List.mem_cons.mp h).resolve_left (by decide))
    rw [hrest, ← List.cons_append] at hleft
    rw [hrest, List.mem_cons, List.mem_append, not_or, not_or] at hreturn
    obtain ⟨w, rfl, hmore⟩ := hleft.append hlast
    have hend' : ∀ c ∈ w.head?, c = '\n' := by
      intro c hc
      obtain ⟨more, rfl⟩ := List.head?_eq_some_iff.mp hc
      obtain ⟨more', hrest'⟩ := hmore.1.isPrefix
      exact hend c (by rw [← hrest']; rfl)
    exact hgo (u := '#' :: text) (scanRest_comment htext hreturn.2.1 hend') hstart hrest hmore
      ⟨hs.idle, hs.joined, hs.brackets, hs.indents⟩
  | @line rest _ hrest _ =>
    rw [hrest] at hleft hsteady
    rcases hleft.1.cons with ⟨rfl, -, rfl⟩ | ⟨w, rfl, hcut⟩
    · refine ⟨s, n, [], scanRest_nil, ⟨.inl rfl, .inl rfl⟩,
        ⟨hs.idle, hs.joined, hs.brackets, hs.indents⟩, ?_⟩
      exact fun line hline => absurd hline List.not_mem_nil
    · refine ⟨s, n + 1, w, scanRest_newline, ⟨hcut, ?_⟩,
        ⟨hs.idle, hs.joined, hs.brackets, hs.indents⟩, hsteady⟩
      exact hleft.2.imp (fun h => (List.cons.inj h).2) fun hjoin hsuffix =>
        hjoin (hsuffix.trans (List.suffix_cons ..))
  | @join c rest hrest =>
    rw [hrest] at hleft
    rcases hleft.1.cons with ⟨-, hnewline, -⟩ | ⟨w, rfl, hbackslash⟩
    · cases hnewline
    rcases hbackslash.cons with ⟨-, -, hnil⟩ | ⟨w, rfl, hcut⟩
    · cases hnil
    have hne : w ≠ [] := by
      rintro rfl
      exact hleft.2.elim (fun h => by cases h) fun hjoin => hjoin List.suffix_rfl
    have hmore : Left w (c :: rest) := ⟨hcut, hleft.2.imp
      (fun h => (List.cons.inj (List.cons.inj h).2).2) fun hjoin hsuffix =>
        hjoin (hsuffix.trans (List.suffix_append ['\\', '\n'] w))⟩
    have hscan : scanRest s n ('\\' :: '\n' :: w) = scanRest { s with isJoined := false } (n + 1) w := by
      rw [scanRest_join, scanLines_inside (s := { s with isJoined := true }) hs.idle.1 (.inr rfl) hne]
    exact hgo (u := ['\\', '\n']) hscan hstart hrest hmore ⟨hs.idle, rfl, hs.brackets, hs.indents⟩

omit hreturn hs in
theorem left_of_measure {p : Position} {i : Indentation}
    (hmeasure : Indentation.measure ⟨0, 0, 0, p⟩ t.rest = some (i, rest))
    (hsteady : Steady t.rest) : i.effective.1 = i.column ∧ ∃ w', Left w' rest ∧
      Steady (behind rest) ∧ indentation 0 w = (i.column, w') ∧
        ∀ s : CommentScan, scanRest s n w = scanRest s n w' := by
  obtain ⟨hjoined, hstop, blanks, hblanks, hrest, hcolumn⟩ :=
    measure_steady hmeasure fun _ hw => hsteady.not_prefix hw
  rw [hrest] at hleft hsteady
  obtain ⟨w', rfl, hmore⟩ := hleft.append (getLast?_ne_of_not_mem (not_mem_of_isBlank hblanks))
  have hstop' : ∀ c ∈ w'.head?, ¬ IsBlank c := by
    intro c hc
    obtain ⟨more, rfl⟩ := List.head?_eq_some_iff.mp hc
    obtain ⟨more', hrest'⟩ := hmore.1.isPrefix
    exact hstop c (by rw [← hrest']; rfl)
  refine ⟨by rw [Indentation.effective, if_pos hjoined], w', hmore, ?_, hcolumn w' hstop',
    fun s => scanRest_word fun c hc => isWordChar_of_isBlank (hblanks c hc)⟩
  exact hsteady.behind.behind_append

/-- **The start of a line** is one for the scan for comments, too. -/
theorem exists_scanRest_of_starts (h : t.Starts t') (hsteady : Steady t.rest) :
    ∃ indents w', Left w' t'.rest ∧ Matches { s with indents } t' ∧ Steady (behind t'.rest) ∧
      ∀ s', scanRest { s with indents } n w' = some s' → s'.IsFinished →
        ∃ s'', scanLines s n (lines w) = some s'' ∧ s''.IsFinished := by
  have hreturn' : '\r' ∉ w := fun h => hreturn (hleft.1.isPrefix.subset h)
  have hlines := scanLines_start (n := n) hs.idle.1 hs.joined hreturn'
  -- the indentation stays, as the line is blank or inside brackets
  have hstay : ∀ {w'}, (∀ s : CommentScan, scanRest s n w = scanRest s n w') →
      indentsAt? s w = some s.indents → ∀ s', scanRest s n w' = some s' → s'.IsFinished →
        ∃ s'', scanLines s n (lines w) = some s'' ∧ s''.IsFinished := by
    intro w' hskip hindents s' hscan hfinished
    refine ⟨s', ?_, hfinished⟩
    rw [hlines, hindents, Option.bind_some, hskip, hscan]
  cases h with
  | @blank i rest hmeasure hrest =>
    obtain ⟨-, w', hmore, hsteady', hcolumn, hskip⟩ := left_of_measure (n := n) hleft hmeasure hsteady
    refine ⟨s.indents, w', hmore, ⟨hs.idle, hs.joined, hs.brackets, hs.indents⟩, hsteady',
      hstay hskip ?_⟩
    rw [indentsAt?, if_neg]
    rintro ⟨-, hhead⟩
    rw [hcolumn] at hhead
    obtain ⟨c, hc, htext⟩ := Option.any_eq_true _ _ |>.mp hhead
    obtain ⟨more, rfl⟩ := List.head?_eq_some_iff.mp hc
    obtain ⟨more', rfl⟩ := hmore.1.isPrefix
    simp at hrest htext
    exact hrest.elim htext.1 htext.2
  | @inside i rest hmeasure hbrackets =>
    obtain ⟨-, w', hmore, hsteady', -, hskip⟩ := left_of_measure (n := n) hleft hmeasure hsteady
    refine ⟨s.indents, w', hmore, ⟨hs.idle, hs.joined, hs.brackets, hs.indents⟩, hsteady',
      hstay hskip ?_⟩
    rw [indentsAt?, if_neg]
    rintro ⟨hnone, -⟩
    rw [hs.brackets] at hnone
    exact hbrackets (List.length_eq_zero_iff.mp (Int.ofNat_eq_zero.mp hnone))
  | @text i rest ts blocks hmeasure hrest hbrackets henter =>
    obtain ⟨heffective, w', hmore, hsteady', hcolumn, hskip⟩ :=
      left_of_measure (n := n) hleft hmeasure hsteady
    refine ⟨blocks.map Prod.fst, w', hmore, ⟨hs.idle, hs.joined, hs.brackets, rfl⟩, hsteady',
      fun s' hscan hfinished => ?_⟩
    rcases hw : w' with _ | ⟨c, more⟩
    · -- the text is at its end, so its last line opens and closes nothing
      subst hw
      cases scanRest_nil.symm.trans hscan
      refine hstay hskip ?_ s scanRest_nil hfinished
      rw [indentsAt?, hcolumn, if_neg]
      simp
    · subst hw
      refine ⟨s', ?_, hfinished⟩
      have hnone : s.brackets = 0 := by
        rw [hs.brackets, hbrackets]
        rfl
      have htext : c ≠ '#' ∧ c ≠ '\n' := by
        obtain ⟨more', rfl⟩ := hmore.1.isPrefix
        simpa using hrest
      have hindent := indent?_of_enterLine henter
      rw [heffective, ← hs.indents] at hindent
      have hindents : indentsAt? s w = some (blocks.map Prod.fst) := by
        rw [indentsAt?, hcolumn, if_pos ⟨hnone, by simpa using htext⟩, hindent]
      rw [hlines, hindents, Option.bind_some, hskip, hscan]

end Steps

/-- **The scan for comments reaches the end** where the scan for tokens does. -/
theorem finishes_of_run {fuel : Nat} {t t' : Scan} (h : Scan.run fuel t = some t')
    (hend : EndsLine t.rest) (hreturn : '\r' ∉ t.rest) (hleft : Left w t.rest)
    (hsteady : Steady (if t.atLineStart then t.rest else behind t.rest)) (hs : Matches s t) :
    ∃ s', scanFrom t.atLineStart s n w = some s' ∧ s'.IsFinished := by
  induction fuel generalizing t s n w with
  | zero => cases h
  | succ fuel ih =>
    rw [Scan.run] at h
    split at h
    · next hstart =>
      obtain ⟨t₁, hstep, hrun⟩ := Option.bind_eq_some_iff.mp h
      have hstarts := Scan.starts_startLine hstep
      rw [if_pos hstart] at hsteady
      obtain ⟨indents, w', hleft', hs', hsteady', hfinish⟩ :=
        exists_scanRest_of_starts (n := n) hreturn hleft hs hstarts hsteady
      have hstart' : t₁.atLineStart = false := by cases hstarts <;> rfl
      obtain ⟨s', hscan, hfinished⟩ := ih hrun (hend.of_suffix hstarts.suffix)
        (fun h => hreturn (hstarts.suffix.subset h)) hleft' (by simpa [hstart'] using hsteady') hs'
      rw [hstart'] at hscan
      rw [hstart]
      exact hfinish s' hscan hfinished
    next hstart =>
    rw [Bool.not_eq_true] at hstart
    rw [hstart] at hsteady ⊢
    split at h
    · next hnil =>
      split at h
      · next hbrackets =>
        rw [hnil] at hleft
        obtain rfl := hleft.1.nil
        refine ⟨s, scanRest_nil, hs.idle.1, ?_, hs.joined⟩
        rw [hs.brackets, hbrackets]
        rfl
      · cases h
    · obtain ⟨t₁, hstep, hrun⟩ := Option.bind_eq_some_iff.mp h
      have hreads := Scan.reads_step hstep
      have hsuffix := Scan.suffix_of_reads hreads
      obtain ⟨s₁, n₁, w', hscan, hleft', hs', hsteady'⟩ :=
        exists_scanFrom_of_reads (n := n) hreturn hleft hs hreads hstart hsteady
      obtain ⟨s', hscan', hfinished⟩ := ih (n := n₁) hrun (hend.of_suffix hsuffix)
        (fun h => hreturn (hsuffix.subset h)) hleft' hsteady' hs'
      exact ⟨s', hscan.trans hscan', hfinished⟩

end ModelLint.Source.CommentScan
