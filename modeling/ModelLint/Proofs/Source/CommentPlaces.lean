import Mathlib.Data.List.Basic
import ModelLint.Proofs.Source.Lexemes

/-!
# Where comments stand

A comment of a text is a `#` outside the string literals, with what follows it on its line, unless it is
part of a comment itself. The parts that a scan cuts a text into have exactly these comments.

* `InLiteral`: the places inside string literals.
* `CommentIn`: the comments of a text from a place on.
* `commentIn_cons`, `commentIn_literal`, `commentIn_comment`: the comments of a part and of what follows.
* **`mem_comments_iff`**: the comments that a text is cut into are those that it has.
* `CommentAt`, **`commentAt_iff`**: the same line by line.
-/

namespace ModelLint.Source

/-! ## Places -/

/-- One place stands before another. -/
def Position.Before (p q : Position) : Prop := p.line < q.line ∨ p.line = q.line ∧ p.column < q.column

namespace Position

variable {p q r : Position} {w : List Char}

theorem Before.trans (h : p.Before q) (h' : q.Before r) : p.Before r := by
  simp only [Before] at *
  omega

theorem Before.asymm (h : p.Before q) : ¬ q.Before p := by
  simp only [Before] at *
  omega

theorem not_before_self (p : Position) : ¬ p.Before p := by
  simp [Before]

theorem before_next (p : Position) (c : Char) : p.Before (p.next c) := by
  have hsize := c.utf8Size_pos
  rw [next]
  split
  · exact .inl (Nat.lt_succ_self _)
  · exact .inr ⟨rfl, Nat.lt_add_of_pos_right hsize⟩

theorem after_append (p : Position) (w u : List Char) : p.after (w ++ u) = (p.after w).after u :=
  List.foldl_append ..

theorem line_next (p : Position) {c : Char} (hc : c ≠ '\n') : (p.next c).line = p.line := by
  rw [next, if_neg hc]

theorem line_after (p : Position) (w : List Char) :
    (p.after w).line = p.line + w.count '\n' := by
  induction w generalizing p with
  | nil => rfl
  | cons c w ih =>
    rw [after, List.foldl_cons, ← after, ih]
    by_cases hc : c = '\n'
    · subst hc
      rw [List.count_cons_self, next, if_pos rfl]
      exact Nat.add_right_comm ..
    · rw [line_next p hc, List.count_cons_of_ne hc]

theorem after_lines (hw : ∀ c ∈ w.getLast?, c = '\n') (n : Nat) :
    after ⟨n, 0⟩ w = ⟨n + w.count '\n', 0⟩ := by
  rcases w.eq_nil_or_concat with rfl | ⟨w, c, rfl⟩
  · rfl
  · rw [List.concat_eq_append] at hw ⊢
    obtain rfl : c = '\n' := hw c (by simp)
    rw [after_append, List.count_append, List.count_singleton_self, ← Nat.add_assoc,
      ← line_after ⟨n, 0⟩ w]
    rfl

theorem before_after (hw : w ≠ []) : p.Before (p.after w) := by
  induction w generalizing p with
  | nil => exact absurd rfl hw
  | cons c w ih =>
    by_cases hnil : w = []
    · subst hnil
      exact before_next p c
    · exact (before_next p c).trans (ih hnil)

theorem not_after_before (p : Position) (w : List Char) : ¬ (p.after w).Before p := by
  by_cases hw : w = []
  · subst hw
    exact not_before_self p
  · exact (before_after hw).asymm

end Position

namespace Token

variable {p q : Position} {c : Char} {cs rest text : List Char} {ts : List Token}
  {ks : List (Nat × List Char)} {k : Nat × List Char}

/-! ## Comments -/

/-- A place is inside a string literal. -/
def InLiteral (ts : List Token) (p : Position) : Prop :=
  ∃ t ∈ ts, t.kind = .string ∧ ¬ p.Before t.start ∧ p.Before t.stop

/-- A `#` behind a text is in no literal, and all before it on its line are. -/
def IsFree (ts : List Token) (p : Position) (before : List Char) : Prop :=
  ¬ InLiteral ts (p.after before) ∧
    ∀ start rest, before = start ++ '#' :: rest → '\n' ∉ rest → InLiteral ts (p.after start)

/-- **A comment of a text** from a place on, with its line. -/
def CommentIn (p : Position) (cs : List Char) (ts : List Token) (k : Nat × List Char) : Prop :=
  ∃ before text after, cs = before ++ '#' :: (text ++ after) ∧ '\n' ∉ text ∧
    (∀ c ∈ after.head?, c = '\n') ∧ IsFree ts p before ∧ k = ((p.after before).line, '#' :: text)

theorem Lexed.start_eq (h : Lexed p cs ts ks) {t : Token} (ht : t ∈ ts) :
    ∃ w, t.start = p.after w := by
  induction h with
  | done => cases ht
  | @char p c _ _ _ _ _ ih =>
    obtain ⟨w, hw⟩ := ih ht
    exact ⟨c :: w, hw⟩
  | join _ ih =>
    obtain ⟨w, hw⟩ := ih ht
    exact ⟨'\\' :: '\n' :: w, hw⟩
  | @literal p letters lit _ _ _ _ _ _ ih =>
    rcases List.mem_cons.mp ht with rfl | ht
    · exact ⟨[], rfl⟩
    · obtain ⟨w, hw⟩ := ih ht
      exact ⟨letters ++ lit ++ w, by rw [hw, Position.after_append p (letters ++ lit) w]⟩
  | @comment p text _ _ _ _ _ ih =>
    obtain ⟨w, hw⟩ := ih ht
    exact ⟨'#' :: text ++ w, by rw [hw, Position.after_append p ('#' :: text) w]⟩

theorem commentIn_cons (hc : c ≠ '#') :
    CommentIn p (c :: cs) ts k ↔ CommentIn (p.next c) cs ts k := by
  constructor
  · rintro ⟨_ | ⟨d, before⟩, text, after, heq, htext, hafter, ⟨hout, hearlier⟩, rfl⟩
    · exact absurd (List.cons.inj heq).1 hc
    · obtain ⟨rfl, rfl⟩ := List.cons.inj heq
      refine ⟨before, text, after, rfl, htext, hafter, ⟨hout, fun start rest hbefore hrest => ?_⟩, rfl⟩
      exact hearlier (c :: start) rest (by rw [hbefore]; rfl) hrest
  · rintro ⟨before, text, after, rfl, htext, hafter, ⟨hout, hearlier⟩, rfl⟩
    refine ⟨c :: before, text, after, rfl, htext, hafter,
      ⟨hout, fun start rest hbefore hrest => ?_⟩, rfl⟩
    rcases start with _ | ⟨d, start⟩
    · exact absurd (List.cons.inj hbefore).1 hc
    · obtain ⟨rfl, hmore⟩ := List.cons.inj hbefore
      exact hearlier start rest hmore hrest

section Literal

variable {u : List Char} {t : Token} (hkind : t.kind = .string) (hstart : t.start = p)
  (hstop : t.stop = p.after u)

include hstop

theorem inLiteral_behind {w : List Char} :
    InLiteral (t :: ts) ((p.after u).after w) ↔ InLiteral ts ((p.after u).after w) := by
  constructor
  · rintro ⟨t', ht', hkind', hafter, hbefore⟩
    rcases List.mem_cons.mp ht' with rfl | ht'
    · rw [hstop] at hbefore
      exact absurd hbefore (Position.not_after_before _ w)
    · exact ⟨t', ht', hkind', hafter, hbefore⟩
  · rintro ⟨t', ht', hkind', hplace⟩
    exact ⟨t', List.mem_cons_of_mem _ ht', hkind', hplace⟩

include hkind hstart

theorem inLiteral_inside {before after : List Char} (hu : u = before ++ after) (hne : after ≠ []) :
    InLiteral (t :: ts) (p.after before) := by
  refine ⟨t, List.mem_cons_self, hkind, ?_, ?_⟩
  · rw [hstart]
    exact Position.not_after_before p before
  · rw [hstop, hu, Position.after_append]
    exact Position.before_after hne

theorem isFree_append {before : List Char} :
    IsFree (t :: ts) p (u ++ before) ↔ IsFree ts (p.after u) before := by
  rw [IsFree, IsFree, Position.after_append, inLiteral_behind hstop]
  refine and_congr_right fun _ => ⟨fun h start rest hbefore hrest => ?_,
    fun h start rest hbefore hrest => ?_⟩
  · have hin := h (u ++ start) rest (by rw [hbefore, List.append_assoc]) hrest
    rwa [Position.after_append, inLiteral_behind hstop] at hin
  · rcases List.append_eq_append_iff.mp hbefore with ⟨start, rfl, hmore⟩ | ⟨inside, hu, hrest'⟩
    · rw [Position.after_append, inLiteral_behind hstop]
      exact h start rest hmore hrest
    · by_cases hne : inside = []
      · subst hne
        rw [List.append_nil] at hu
        have hin := h [] rest hrest'.symm hrest
        subst hu
        exact (inLiteral_behind hstop (w := [])).mpr hin
      · exact inLiteral_inside hkind hstart hstop hu hne

theorem commentIn_literal :
    CommentIn p (u ++ cs) (t :: ts) k ↔ CommentIn (p.after u) cs ts k := by
  constructor
  · rintro ⟨before, text, after, heq, htext, hafter, hfree, rfl⟩
    have hbehind : ∃ more, before = u ++ more ∧ cs = more ++ '#' :: (text ++ after) := by
      rcases List.append_eq_append_iff.mp heq with ⟨more, hbefore, hcs⟩ | ⟨inside, hu, hcs⟩
      · exact ⟨more, hbefore, hcs⟩
      · by_cases hne : inside = []
        · subst hne
          exact ⟨[], by rw [hu, List.append_nil, List.append_nil], hcs.symm⟩
        · exact absurd (inLiteral_inside hkind hstart hstop hu hne) hfree.1
    obtain ⟨more, rfl, rfl⟩ := hbehind
    refine ⟨more, text, after, rfl, htext, hafter, (isFree_append hkind hstart hstop).mp hfree, ?_⟩
    rw [Position.after_append]
  · rintro ⟨before, text, after, rfl, htext, hafter, hfree, rfl⟩
    refine ⟨u ++ before, text, after, (List.append_assoc ..).symm, htext, hafter,
      (isFree_append hkind hstart hstop).mpr hfree, ?_⟩
    rw [Position.after_append]

end Literal

theorem eq_of_line {text' after : List Char} (htext : '\n' ∉ text) (htext' : '\n' ∉ text')
    (hafter : ∀ c ∈ after.head?, c = '\n') (heq : text ++ '\n' :: cs = text' ++ after) :
    text' = text := by
  rcases List.append_eq_append_iff.mp heq with ⟨more, rfl, hcs⟩ | ⟨more, rfl, hcs⟩
  · rcases more with _ | ⟨c, more⟩
    · exact List.append_nil _
    · obtain ⟨rfl, -⟩ := List.cons.inj hcs
      exact absurd (List.mem_append_right _ List.mem_cons_self) htext'
  · rcases more with _ | ⟨c, more⟩
    · exact (List.append_nil _).symm
    · obtain rfl := hafter c (by rw [hcs]; rfl)
      exact absurd (List.mem_append_right _ List.mem_cons_self) htext

theorem commentIn_comment (htext : '\n' ∉ text) (hts : ∀ t ∈ ts, p.Before t.start) :
    CommentIn p ('#' :: (text ++ '\n' :: cs)) ts k ↔
      k = (p.line, '#' :: text) ∨ CommentIn (p.after ('#' :: text)) ('\n' :: cs) ts k := by
  have hout : ¬ InLiteral ts p := by
    rintro ⟨t, ht, -, hstart, -⟩
    exact hstart (hts t ht)
  constructor
  · rintro ⟨_ | ⟨c, before⟩, text', after, heq, htext', hafter, ⟨hfree, hearlier⟩, rfl⟩
    · rw [eq_of_line htext htext' hafter (List.cons.inj heq).2]
      exact .inl rfl
    · obtain ⟨rfl, hline⟩ := List.cons.inj heq
      rcases List.append_eq_append_iff.mp hline with ⟨more, rfl, hcs⟩ | ⟨inside, rfl, -⟩
      · refine .inr ⟨more, text', after, hcs, htext', hafter,
          ⟨?_, fun start rest hmore hrest => ?_⟩, ?_⟩
        · rwa [← Position.after_append]
        · rw [← Position.after_append]
          exact hearlier _ rest (by rw [hmore, List.append_assoc]; rfl) hrest
        · rw [← Position.after_append]
          rfl
      · -- the comment itself has this `#`
        refine absurd (hearlier [] before rfl fun hmem => ?_) hout
        exact htext (List.mem_append_left _ hmem)
  · rintro (rfl | ⟨before, text', after, heq, htext', hafter, ⟨hfree, hearlier⟩, rfl⟩)
    · refine ⟨[], text, '\n' :: cs, rfl, htext, by simp, ⟨hout, fun start rest hnil => ?_⟩, rfl⟩
      simp at hnil
    · obtain ⟨before, rfl⟩ : ∃ more, before = '\n' :: more := by
        rcases before with _ | ⟨c, before⟩
        · exact absurd (List.cons.inj heq).1 (by decide)
        · exact ⟨before, by rw [(List.cons.inj heq).1]⟩
      refine ⟨'#' :: text ++ '\n' :: before, text', after, ?_, htext', hafter,
        ⟨?_, fun start rest hbefore hrest => ?_⟩, ?_⟩
      · rw [heq, List.append_assoc]
        rfl
      · rwa [Position.after_append]
      · rcases List.append_eq_append_iff.mp hbefore with ⟨more, rfl, hmore⟩ | ⟨inside, -, hmore⟩
        · rw [Position.after_append]
          exact hearlier more rest hmore hrest
        · rcases inside with _ | ⟨c, inside⟩
          · exact absurd (List.cons.inj hmore).1 (by decide)
          · rw [(List.cons.inj hmore).2] at hrest
            exact absurd (List.mem_append_right _ List.mem_cons_self) hrest
      · rw [Position.after_append]

/-- **The comments that a text is cut into** are those that it has. -/
theorem mem_comments_iff (h : Lexed p cs ts ks) : k ∈ ks ↔ CommentIn p cs ts k := by
  induction h with
  | done =>
    refine ⟨fun hk => absurd hk List.not_mem_nil, ?_⟩
    rintro ⟨before, text, after, heq, -⟩
    simp at heq
  | @char p c cs ts ks hc h ih =>
    have hhash : c ≠ '#' := by
      rintro rfl
      exact absurd hc (by decide)
    rw [ih, commentIn_cons hhash]
  | @join p c cs ts ks h ih =>
    have hbackslash : '\\' ≠ '#' := by decide
    have hnewline : '\n' ≠ '#' := by decide
    exact ih.trans ((commentIn_cons hbackslash).trans (commentIn_cons hnewline)).symm
  | @literal p letters lit cs ts ks hletters hlit h ih =>
    rw [← List.append_assoc, ih]
    exact (commentIn_literal (t := ⟨.string, String.ofList (letters ++ lit), p,
      p.after (letters ++ lit)⟩) rfl rfl rfl).symm
  | @comment p text cs ts ks htext h ih =>
    have hts : ∀ t ∈ ts, p.Before t.start := by
      intro t ht
      obtain ⟨w, hw⟩ := h.start_eq ht
      rw [hw, ← Position.after_append]
      exact Position.before_after (List.cons_ne_nil _ _)
    rw [List.mem_cons, ih, commentIn_comment htext hts]

/-! ## Lines -/

/-- A line stands behind a number of others in a text. -/
def LineAt (cs : List Char) (i : Nat) (line : List Char) : Prop :=
  ∃ before after, cs = before ++ (line ++ after) ∧ '\n' ∉ line ∧ before.count '\n' = i ∧
    (∀ c ∈ before.getLast?, c = '\n') ∧ ∀ c ∈ after.head?, c = '\n'

theorem lineAt_zero {w line : List Char} (hw : '\n' ∉ w) :
    LineAt (w ++ '\n' :: rest) 0 line ↔ line = w := by
  constructor
  · rintro ⟨before, after, heq, hline, hcount, hlast, hafter⟩
    rcases before.eq_nil_or_concat with rfl | ⟨before, c, rfl⟩
    · exact eq_of_line hw hline hafter heq
    · rw [List.concat_eq_append] at hlast hcount
      obtain rfl := hlast c (by simp)
      simp at hcount
  · rintro rfl
    exact ⟨[], '\n' :: rest, rfl, hw, rfl, by simp, by simp⟩

theorem lineAt_succ {w line : List Char} {i : Nat} (hw : '\n' ∉ w) :
    LineAt (w ++ '\n' :: rest) (i + 1) line ↔ LineAt rest i line := by
  constructor
  · rintro ⟨before, after, heq, hline, hcount, hlast, hafter⟩
    have hmem : '\n' ∈ before := List.count_pos_iff.mp (by omega)
    rcases List.append_eq_append_iff.mp heq with ⟨more, rfl, hmore⟩ | ⟨more, rfl, -⟩
    · rcases more with _ | ⟨c, more⟩
      · rw [List.append_nil] at hmem
        exact absurd hmem hw
      · obtain ⟨rfl, rfl⟩ := List.cons.inj hmore
        refine ⟨more, after, rfl, hline, ?_, fun c hc => hlast c ?_, hafter⟩
        · rw [List.count_append, List.count_eq_zero.mpr hw, List.count_cons_self] at hcount
          omega
        · rw [Option.mem_def] at hc ⊢
          rw [List.getLast?_append, List.getLast?_cons, hc]
          rfl
    · exact absurd (List.mem_append_left _ hmem) hw
  · rintro ⟨before, after, rfl, hline, hcount, hlast, hafter⟩
    refine ⟨w ++ '\n' :: before, after, by simp, hline, ?_, fun c hc => ?_, hafter⟩
    · rw [List.count_append, List.count_eq_zero.mpr hw, List.count_cons_self, hcount]
      exact Nat.zero_add _
    · rw [Option.mem_def, List.getLast?_append, List.getLast?_cons] at hc
      rcases hbefore : before.getLast? with _ | d
      · rw [hbefore] at hc
        exact (Option.some.inj hc).symm
      · rw [hbefore] at hc
        exact hlast c (hbefore.trans hc)

theorem lineAt_of_not_mem {line : List Char} {i : Nat} (hcs : '\n' ∉ cs) :
    LineAt cs i line ↔ i = 0 ∧ line = cs := by
  constructor
  · rintro ⟨before, after, rfl, hline, rfl, hlast, hafter⟩
    rw [List.mem_append, List.mem_append, not_or, not_or] at hcs
    refine ⟨List.count_eq_zero.mpr hcs.1, ?_⟩
    obtain rfl : before = [] := by
      by_contra hne
      exact hcs.1 (hlast _ (List.getLast?_eq_some_getLast hne) ▸ List.getLast_mem hne)
    obtain rfl : after = [] := by
      rcases after with _ | ⟨c, after⟩
      · rfl
      · exact absurd (hafter c rfl ▸ List.mem_cons_self) hcs.2.2
    simp
  · rintro ⟨rfl, rfl⟩
    exact ⟨[], [], by simp, hcs, rfl, by simp, by simp⟩

/-- The lines of a text are what stands between its line feeds. -/
theorem getElem?_splitOn {i : Nat} {line : List Char} :
    (cs.splitOn '\n')[i]? = some line ↔ LineAt cs i line := by
  induction i generalizing cs with
  | zero =>
    by_cases hmem : '\n' ∈ cs
    · obtain ⟨w, rest, rfl, hw⟩ := List.eq_append_cons_of_mem hmem
      rw [List.splitOn_append_cons_self, List.splitOn_eq_singleton hw, lineAt_zero hw]
      simp [eq_comm]
    · rw [List.splitOn_eq_singleton hmem, lineAt_of_not_mem hmem]
      simp [eq_comm]
  | succ i ih =>
    by_cases hmem : '\n' ∈ cs
    · obtain ⟨w, rest, rfl, hw⟩ := List.eq_append_cons_of_mem hmem
      rw [List.splitOn_append_cons_self, List.splitOn_eq_singleton hw, lineAt_succ hw, ← ih]
      rfl
    · rw [List.splitOn_eq_singleton hmem, lineAt_of_not_mem hmem]
      simp

theorem exists_lineStart (cs : List Char) : ∃ before line, cs = before ++ line ∧ '\n' ∉ line ∧
    ∀ c ∈ before.getLast?, c = '\n' := by
  induction cs with
  | nil => exact ⟨[], [], rfl, List.not_mem_nil, by simp⟩
  | cons c cs ih =>
    obtain ⟨before, line, rfl, hline, hlast⟩ := ih
    rcases before with _ | ⟨e, before⟩
    · by_cases hc : c = '\n'
      · exact ⟨[c], line, rfl, hline, by simpa using hc⟩
      · exact ⟨[], c :: line, rfl, List.not_mem_cons_of_ne_of_not_mem (Ne.symm hc) hline, by simp⟩
    · refine ⟨c :: e :: before, line, rfl, hline, fun d hd => hlast d ?_⟩
      rwa [Option.mem_def, List.getLast?_cons_cons] at hd

/-- **A comment on a line**: the first `#` of the line that is in no literal, with what follows it. -/
def CommentAt (lines : List (List Char)) (ts : List Token) (n : Nat) (comment : List Char) : Prop :=
  ∃ before text, 0 < n ∧ lines[n - 1]? = some (before ++ '#' :: text) ∧ comment = '#' :: text ∧
    ¬ InLiteral ts (Position.after ⟨n, 0⟩ before) ∧
      ∀ start rest, before = start ++ '#' :: rest → InLiteral ts (Position.after ⟨n, 0⟩ start)

/-- **The comments of a text** are those on its lines. -/
theorem commentAt_iff {n : Nat} {comment : List Char} :
    CommentAt (cs.splitOn '\n') ts n comment ↔ CommentIn ⟨1, 0⟩ cs ts (n, comment) := by
  constructor
  · rintro ⟨before, text, hn, hget, rfl, hout, hearlier⟩
    obtain ⟨above, after, rfl, hline, hcount, hlast, hafter⟩ := getElem?_splitOn.mp hget
    simp only [List.mem_append, List.mem_cons, not_or] at hline
    have hplace : ∀ w, Position.after ⟨1, 0⟩ (above ++ w) = Position.after ⟨n, 0⟩ w := by
      intro w
      rw [Position.after_append, Position.after_lines hlast, hcount, Nat.add_sub_cancel' hn]
    refine ⟨above ++ before, text, after, by simp, hline.2.2, hafter,
      ⟨by rwa [hplace], fun start rest hbefore hrest => ?_⟩, ?_⟩
    · rcases List.append_eq_append_iff.mp hbefore with ⟨more, rfl, hmore⟩ | ⟨more, rfl, hmore⟩
      · rw [hplace]
        exact hearlier more rest hmore
      · rcases more with _ | ⟨c, more⟩
        · have hin := hearlier [] rest hmore.symm
          rwa [← hplace, List.append_nil, List.append_nil] at hin
        · -- the `#` is not on a line above
          obtain ⟨rfl, rfl⟩ := List.cons.inj hmore
          have hend := hlast _ (by
            rw [List.getLast?_append_cons, List.getLast?_eq_some_getLast (List.cons_ne_nil _ _)]
            rfl)
          have hmem := List.getLast_mem (List.cons_ne_nil '#' more)
          rw [hend, List.mem_cons] at hmem
          exact absurd (List.mem_append_left _ (hmem.resolve_left (by decide))) hrest
    · rw [hplace, Position.line_after, List.count_eq_zero.mpr hline.1]
      rfl
  · rintro ⟨before, text, after, rfl, htext, hafter, ⟨hout, hearlier⟩, heq⟩
    obtain ⟨above, before, rfl, hbefore, hlast⟩ := exists_lineStart before
    have hplace : ∀ w, Position.after ⟨1, 0⟩ (above ++ w) =
        Position.after ⟨1 + above.count '\n', 0⟩ w := by
      intro w
      rw [Position.after_append, Position.after_lines hlast]
    rw [hplace, Position.line_after, List.count_eq_zero.mpr hbefore] at heq
    obtain ⟨rfl, rfl⟩ := Prod.mk.inj heq
    refine ⟨before, text, by dsimp only; omega, getElem?_splitOn.mpr ⟨above, after, by simp, ?_, ?_, hlast,
      hafter⟩, rfl, ?_, fun start rest hstart => ?_⟩
    · simp only [List.mem_append, List.mem_cons, not_or]
      exact ⟨hbefore, by decide, htext⟩
    · simp
    · rwa [hplace] at hout
    · have hin := hearlier (above ++ start) rest (by rw [hstart, List.append_assoc]) fun hmem =>
        hbefore (by rw [hstart]; exact List.mem_append_right _ (List.mem_cons_of_mem _ hmem))
      rwa [hplace] at hin

end Token

end ModelLint.Source
