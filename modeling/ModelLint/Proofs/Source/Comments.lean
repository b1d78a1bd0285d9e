import ModelLint.Proofs.Program.Functions
import ModelLint.Proofs.Rules.Evaluation
import ModelLint.Proofs.Source.CommentsFound
import ModelLint.Proofs.Source.Loading

/-!
# Comments and lines

The tokens of a text and its comments come from two scans that number the lines on their own. Where every
carriage return is followed by a line feed, both number them alike, and a comment is noted on the line
that it stands on. A carriage return by itself ends a line for the tokens only.

* `sourceLines`: the lines of a text as its tokens count them.
* `start`, `comments?_eq_some`: how the scan for comments starts and what it gives.
* `steady_closeLastLine`, `left_closeLastLine`: texts in which it comes to an end.
* `coversLine_iff_mem`: which lines a comment covers.
* **`comments_of_load`**: the comments of a unit are those of its lines.
-/

namespace ModelLint.Source

open CommentScan Token

variable {named : Text.CharacterNames} {source : String} {cs : List Char}

/-- The lines of a text. They end at a line feed, a carriage return or both. -/
def sourceLines (source : String) : List (List Char) :=
  (Text.unifyLineEnds source.toList).splitOn '\n'

/-! ## The text that is cut into tokens -/

theorem not_mem_unifyLineEnds (cs : List Char) : '\r' ∉ Text.unifyLineEnds cs := by
  fun_induction Text.unifyLineEnds cs with
  | case1 => exact List.not_mem_nil
  | case2 rest ih => simpa using ih
  | case3 rest _ ih => simpa using ih
  | case4 c rest _ hc ih =>
    rw [List.mem_cons, not_or]
    exact ⟨fun h => hc h.symm, ih⟩

theorem unifyLineEnds_ne_nil (h : cs ≠ []) : Text.unifyLineEnds cs ≠ [] := by
  rw [Text.unifyLineEnds.eq_def]
  split
  · exact absurd rfl h
  · exact List.cons_ne_nil _ _
  · exact List.cons_ne_nil _ _
  · exact List.cons_ne_nil _ _

theorem getLast?_unifyLineEnds {c : Char} (hc : c ≠ '\n')
    (h : (Text.unifyLineEnds cs).getLast? = some c) : cs.getLast? = some c := by
  have hcons : ∀ {d : Char} {l : List Char}, l.getLast? = some c → (d :: l).getLast? = some c := by
    intro d l hl
    rw [List.getLast?_cons, hl]
    rfl
  -- what is behind the first character, if there is something
  have hbehind : ∀ {d : Char} {l : List Char}, (d :: Text.unifyLineEnds l).getLast? = some c →
      l ≠ [] → (Text.unifyLineEnds l).getLast? = some c := by
    intro d l hl hne
    rwa [← List.cons_head_tail (unifyLineEnds_ne_nil hne), List.getLast?_cons_cons,
      List.cons_head_tail] at hl
  fun_induction Text.unifyLineEnds cs with
  | case1 => cases h
  | case2 rest ih =>
    by_cases hnil : rest = []
    · subst hnil
      exact absurd (Option.some.inj h) hc.symm
    · exact hcons (hcons (ih (hbehind h hnil)))
  | case3 rest _ ih =>
    by_cases hnil : rest = []
    · subst hnil
      exact absurd (Option.some.inj h) hc.symm
    · exact hcons (ih (hbehind h hnil))
  | case4 d rest _ _ ih =>
    by_cases hnil : rest = []
    · subst hnil
      exact h
    · exact hcons (ih (hbehind h hnil))

theorem unifyLineEnds_concat (cs : List Char) :
    Text.unifyLineEnds (cs ++ ['\r', '\n']) = Text.unifyLineEnds cs ++ ['\n'] := by
  fun_induction Text.unifyLineEnds cs with
  | case1 => rfl
  | case2 rest ih => rw [List.cons_append, List.cons_append, Text.unifyLineEnds, ih, List.cons_append]
  | case3 rest hrest ih =>
    rw [List.cons_append, Text.unifyLineEnds, ih, List.cons_append]
    intro more hmore
    rcases rest with _ | ⟨c, rest⟩
    · cases hmore
    · exact hrest rest (by rw [(List.cons.inj hmore).1])
  | case4 c rest _ hc ih =>
    rw [List.cons_append, Text.unifyLineEnds, ih, List.cons_append]
    · exact fun _ h _ => hc h
    · exact hc

theorem cut_closeLastLine (cs : List Char) : Cut (Text.unifyLineEnds cs) (closeLastLine cs) := by
  rw [closeLastLine]
  split
  · exact .inl rfl
  · exact .inr rfl

theorem endsLine_closeLastLine (cs : List Char) : EndsLine (closeLastLine cs) := by
  intro c hc
  rw [closeLastLine] at hc
  split at hc
  · next hlast =>
    rw [Option.mem_def, hlast.1] at hc
    exact (Option.some.inj hc).symm
  · simpa using hc.symm

theorem not_mem_closeLastLine (cs : List Char) : '\r' ∉ closeLastLine cs := by
  have hunified := not_mem_unifyLineEnds cs
  rcases cut_closeLastLine cs with h | h
  · rwa [← h]
  · rw [← h]
    simpa using hunified

/-- A text that does not end with a joined line is left as a whole. -/
theorem left_closeLastLine (hjoin : ¬ ['\\', '\r', '\n'] <:+ cs) :
    Left (Text.unifyLineEnds cs) (closeLastLine cs) := by
  rw [closeLastLine]
  split
  · exact ⟨.inl rfl, .inl rfl⟩
  next hlast =>
  refine ⟨.inr rfl, .inr fun ⟨w, hw⟩ => ?_⟩
  have hnewline : (Text.unifyLineEnds cs).getLast? = some '\n' := by
    rw [← hw]
    simp
  obtain ⟨u, rfl⟩ : ['\r', '\n'] <:+ cs := by
    by_contra hreturn
    exact hlast ⟨hnewline, fun h => hreturn (List.isSuffixOf_iff_suffix.mp h)⟩
  rw [unifyLineEnds_concat, show w ++ ['\\', '\n'] = w ++ ['\\'] ++ ['\n'] by simp] at hw
  have hbackslash : (Text.unifyLineEnds u).getLast? = some '\\' := by
    rw [← List.append_cancel_right hw]
    simp
  obtain ⟨u', rfl⟩ := List.getLast?_eq_some_iff.mp (getLast?_unifyLineEnds (by decide) hbackslash)
  exact hjoin ⟨u', by simp⟩

theorem mem_lines {line : List Char} (h : line ∈ lines cs) :
    ∃ line' ∈ cs.splitOn '\n', line = line' ∨ line = line' ++ ['\n'] := by
  induction hlength : cs.length using Nat.strong_induction_on generalizing cs with
  | _ length ih =>
    subst hlength
    by_cases hmem : '\n' ∈ cs
    · obtain ⟨w, rest, rfl, hw⟩ := List.eq_append_cons_of_mem hmem
      rw [lines_eq (by simp), firstLine_append hw, behind_append hw, firstLine_newline,
        behind_newline, List.mem_cons] at h
      rw [List.splitOn_append_cons_self, List.splitOn_eq_singleton hw]
      rcases h with rfl | h
      · exact ⟨w, List.mem_append_left _ List.mem_cons_self, .inr rfl⟩
      · obtain ⟨line', hline', heq⟩ := ih _ (by simp; omega) h rfl
        exact ⟨line', List.mem_append_right _ hline', heq⟩
    · rw [List.splitOn_eq_singleton hmem]
      have hfirst := firstLine_append hmem []
      have hbehind := behind_append hmem []
      rw [List.append_nil] at hfirst hbehind
      by_cases hnil : cs = []
      · subst hnil
        cases h
      · rw [lines_eq hnil, hfirst, hbehind, firstLine_nil, List.append_nil] at h
        exact ⟨cs, List.mem_cons_self, .inl (List.mem_singleton.mp h)⟩

/-- A text in which no line holds a backslash behind blanks and nothing else is steady. -/
theorem steady_closeLastLine
    (hlines : ∀ line ∈ sourceLines source, ∀ blanks, (∀ c ∈ blanks, IsBlank c) →
      line ≠ blanks ++ ['\\']) : Steady (closeLastLine source.toList) := by
  rintro line hline blanks hblanks rfl
  obtain ⟨line, hline, heq⟩ := mem_lines hline
  have hfree : '\n' ∉ line := by
    obtain ⟨i, hi⟩ := List.mem_iff_getElem?.mp hline
    obtain ⟨-, -, -, hfree, -⟩ := getElem?_splitOn.mp hi
    exact hfree
  have hbackslash : line = blanks ++ ['\\'] := by
    rcases heq with rfl | heq
    · simp at hfree
    · rw [show blanks ++ ['\\', '\n'] = blanks ++ ['\\'] ++ ['\n'] by simp] at heq
      exact (List.append_cancel_right heq).symm
  refine hlines line ?_ blanks hblanks hbackslash
  rcases cut_closeLastLine source.toList with h | h
  · rwa [sourceLines, h]
  · rw [← h, List.splitOn_append_cons_self, List.splitOn_nil, List.mem_append,
      List.mem_singleton] at hline
    refine hline.resolve_right fun hnil => ?_
    rw [hnil] at hbackslash
    simp at hbackslash

/-! ## The comments that are noted -/

/-- The scan for comments at the start of a text. -/
def start : CommentScan := ⟨none, false, 0, false, [0], []⟩

/-- The comments of a text come line by line. -/
theorem pairwise_comments {p : Position} {ts : List Token} {ks : List (Nat × List Char)}
    (h : Lexed p cs ts ks) : ks.Pairwise fun k k' => k.1 < k'.1 := by
  induction h with
  | done => exact .nil
  | char _ _ ih => exact ih
  | join _ ih => exact ih
  | literal _ _ _ ih => exact ih
  | @comment p text cs ts ks _ h ih =>
    refine List.pairwise_cons.mpr ⟨fun k hk => ?_, ih⟩
    have hnewline : '\n' ≠ '#' := by decide
    obtain ⟨before, -, -, -, -, -, -, rfl⟩ := (commentIn_cons hnewline).mp ((mem_comments_iff h).mp hk)
    have hbelow : p.line < ((p.after ('#' :: text)).next '\n').line :=
      Nat.lt_succ_of_le ((Position.line_after p _).symm ▸ Nat.le_add_right ..)
    exact Nat.lt_of_lt_of_le hbelow ((Position.line_after _ before).symm ▸ Nat.le_add_right ..)

/-- The comments of a unit, of those that a scan has found. -/
def noted (found : List (Nat × String)) : List (Int × String) :=
  found.foldl (fun later k =>
    if later.head?.any (·.1 = (k.1 : Int)) then later else ((k.1 : Int), k.2) :: later) []

theorem noted_eq {ks : List (Nat × List Char)} (h : ks.Pairwise fun k k' => k.1 < k'.1) :
    noted (ks.map note).reverse = ks.map fun k => ((k.1 : Int), String.ofList k.2) := by
  rw [noted, List.foldl_reverse]
  induction ks with
  | nil => rfl
  | cons k ks ih =>
    rw [List.pairwise_cons] at h
    rw [List.map_cons, List.foldr_cons, ih h.2, List.map_cons]
    rcases ks with _ | ⟨k', ks⟩
    · rfl
    · have hne : (k'.1 : Int) ≠ k.1 := by
        have := h.1 k' List.mem_cons_self
        omega
      simp [note, hne]

theorem comments?_eq_some {comments : List (Int × String)} (h : comments? source = some comments) :
    ∃ s, scanLines start 1 (lines source.toList) = some s ∧ comments = noted s.found := by
  obtain ⟨s, hscan, hfinish⟩ := Option.bind_eq_some_iff.mp h
  refine ⟨s, hscan, ?_⟩
  split at hfinish
  · cases hfinish
  · cases hfinish
    rfl

theorem isSome_comments? {s : CommentScan}
    (h : scanLines start 1 (lines source.toList) = some s) (hs : s.IsFinished) :
    (comments? source).isSome := by
  have hscan : scanLines ⟨none, false, 0, false, [0], []⟩ 1 (lines source.toList) = some s := h
  simp [comments?, hscan, hs.1, hs.2.1, hs.2.2]

/-! ## Tokens and comments -/

theorem scan?_eq_some {tokens : List Token} (h : Token.scan? source = some tokens) :
    (closeLastLine source.toList).contains '\x00' = false ∧ ∃ fuel s,
      Scan.run fuel ⟨closeLastLine source.toList, ⟨1, 0⟩, true, false, [(0, 0)], [], []⟩ = some s ∧
        tokens = (⟨.finish, "", s.position, s.position⟩ :: s.tokens).reverse := by
  rw [Token.scan?, scanFrom?] at h
  dsimp only at h
  split at h
  · cases h
  next hnull =>
  obtain ⟨s, hrun, heq⟩ := Option.bind_eq_some_iff.mp h
  exact ⟨by simpa using hnull, _, s, hrun, (Option.some.inj heq).symm⟩

theorem inLiteral_literals {ts : List Token} {p : Position} :
    InLiteral (literals ts) p ↔ InLiteral ts p := by
  simp only [InLiteral, literals, List.mem_filter, decide_eq_true_eq]
  exact ⟨fun ⟨t, ht, hplace⟩ => ⟨t, ht.1, hplace⟩, fun ⟨t, ht, hkind, hplace⟩ =>
    ⟨t, ⟨ht, hkind⟩, hkind, hplace⟩⟩

/-- **What a text with tokens is cut into.** -/
theorem exists_lexed {tokens : List Token} (h : Token.scan? source = some tokens) :
    ∃ ts ks, Lexed ⟨1, 0⟩ (closeLastLine source.toList) ts ks ∧
      ∀ p, InLiteral ts p ↔ InLiteral tokens p := by
  obtain ⟨-, fuel, s, hrun, rfl⟩ := scan?_eq_some h
  obtain ⟨ts, ks, hlexed, htokens⟩ := Scan.lexed_run hrun (endsLine_closeLastLine _)
  refine ⟨ts, ks, hlexed, fun p => ?_⟩
  have heq : ts = literals (⟨.finish, "", s.position, s.position⟩ :: s.tokens).reverse := by
    rw [List.reverse_cons, literals_append, htokens]
    exact (List.append_nil _).symm
  rw [heq, inLiteral_literals]

/-- The comments of the text that is cut into tokens are those of the source. -/
theorem commentIn_closeLastLine {p : Position} {ts : List Token} {k : Nat × List Char} :
    CommentIn p (closeLastLine cs) ts k ↔ CommentIn p (Text.unifyLineEnds cs) ts k := by
  rcases cut_closeLastLine cs with h | h
  · rw [h]
  rw [← h]
  constructor
  · rintro ⟨before, text, after, heq, htext, hafter, hfree⟩
    rcases after.eq_nil_or_concat with rfl | ⟨after, c, rfl⟩
    · -- the last character is no part of a comment
      have hlast : ('#' :: text).getLast? = some '\n' := by
        have heq := congrArg List.getLast? heq
        rw [List.getLast?_concat, List.append_nil, List.getLast?_append_cons] at heq
        exact heq.symm
      have hmem := List.mem_of_getLast? hlast
      rw [List.mem_cons] at hmem
      exact absurd (hmem.resolve_left (by decide)) htext
    · rw [List.concat_eq_append] at heq hafter
      have heq' : Text.unifyLineEnds cs ++ ['\n'] =
          (before ++ '#' :: (text ++ after)) ++ [c] := by
        rw [heq]
        simp
      refine ⟨before, text, after, (List.append_inj' heq' rfl).1, htext, fun d hd => hafter d ?_,
        hfree⟩
      rw [Option.mem_def] at hd ⊢
      rw [List.head?_append, hd]
      rfl
  · rintro ⟨before, text, after, heq, htext, hafter, hfree⟩
    refine ⟨before, text, after ++ ['\n'], by rw [heq]; simp, htext, fun d hd => ?_, hfree⟩
    rcases after with _ | ⟨c, after⟩
    · simpa using hd.symm
    · exact hafter d hd

/-- **The comments that are noted** are those on the lines of the source. -/
theorem mem_comments {tokens : List Token} {comments : List (Int × String)}
    (hreturns : ReturnsPaired source.toList) (htokens : Token.scan? source = some tokens)
    (hcomments : comments? source = some comments) :
    (comments.map (·.1)).Nodup ∧ ∀ line text, (line, text) ∈ comments ↔
      ∃ n : Nat, line = n ∧ CommentAt (sourceLines source) tokens n text.toList := by
  obtain ⟨ts, ks, hlexed, hliterals⟩ := exists_lexed htokens
  obtain ⟨s, hscan, rfl⟩ := comments?_eq_some hcomments
  have hvalid : start.IsValid := isValid_none rfl
  rw [scanLines_unify hvalid hreturns, scanLines_start rfl rfl (not_mem_unifyLineEnds _)] at hscan
  obtain ⟨indents, -, hscan⟩ := Option.bind_eq_some_iff.mp hscan
  have hfound := found_of_lexed (s := { start with indents }) (p := ⟨1, 0⟩) hlexed
    (not_mem_closeLastLine _) (cut_closeLastLine _) ⟨rfl, rfl⟩ rfl hscan
  have hpairwise := pairwise_comments hlexed
  rw [hfound, show ({ start with indents } : CommentScan).found = [] from rfl, List.append_nil,
    noted_eq hpairwise]
  have hlines : ∀ n comment, CommentAt (sourceLines source) tokens n comment ↔ (n, comment) ∈ ks := by
    intro n comment
    rw [mem_comments_iff hlexed, commentIn_closeLastLine, ← commentAt_iff, ← sourceLines]
    simp only [CommentAt, hliterals]
  constructor
  · rw [List.map_map, List.nodup_iff_pairwise_ne, List.pairwise_map]
    refine hpairwise.imp fun {k k'} hlt => ?_
    simp only [Function.comp_apply]
    omega
  · intro line text
    simp only [hlines, List.mem_map, Prod.mk.injEq]
    constructor
    · rintro ⟨k, hk, rfl, rfl⟩
      exact ⟨k.1, rfl, by rwa [String.toList_ofList]⟩
    · rintro ⟨n, rfl, hk⟩
      exact ⟨(n, text.toList), hk, rfl, String.ofList_toList⟩

/-! ## Suppression -/

theorem commentAt?_eq_some {comments : List (Int × String)} {line : Int} {text : String}
    (hnodup : (comments.map (·.1)).Nodup) :
    Suppression.commentAt? comments line = some text ↔ (line, text) ∈ comments := by
  induction comments with
  | nil => simp [Suppression.commentAt?]
  | cons c comments ih =>
    rw [List.map_cons, List.nodup_cons] at hnodup
    rw [Suppression.commentAt?, List.find?_cons]
    by_cases hc : c.1 = line
    · have hrest : (line, text) ∉ comments := fun hmem =>
        hnodup.1 (List.mem_map.mpr ⟨_, hmem, hc.symm⟩)
      rw [beq_iff_eq.mpr hc]
      simp only [Option.map_some, Option.some.injEq, List.mem_cons, hrest, or_false]
      exact ⟨fun h => by rw [← hc, ← h], fun h => by rw [← h]⟩
    · rw [beq_eq_false_iff_ne.mpr hc]
      have hne : (line, text) ≠ c := fun heq => hc (by rw [← heq])
      rw [List.mem_cons, or_iff_right hne]
      exact ih hnodup.2

/-- **A comment covers** the line that it stands on, and the line below. -/
theorem coversLine_iff_mem {comments : List (Int × String)} {phrases : List String} {id : String}
    {line : Int} (hnodup : (comments.map (·.1)).Nodup) :
    Suppression.coversLine comments phrases id line = true ↔
      ∃ l text, (l, text) ∈ comments ∧ (line = l ∨ line = l + 1) ∧ text ≠ "" ∧
        Suppression.covers text phrases id = true := by
  rw [← Bool.not_eq_false, Suppression.coversLine_iff]
  simp only [commentAt?_eq_some hnodup]
  push Not
  refine exists_congr fun l => exists_congr fun text => ?_
  constructor
  · rintro ⟨hl, hmem, hne, hcovers⟩
    exact ⟨hmem, by omega, hne, hcovers⟩
  · rintro ⟨hmem, hl, hne, hcovers⟩
    exact ⟨by omega, hmem, hne, hcovers⟩

/-! ## Units -/

variable {locks : List String} {path : Path} {m : Model} {body : List Stmt}
  {comments : List (Int × String)}

theorem mem_unifyLineEnds {c : Char} (hc : c ≠ '\r') (h : c ∈ cs) : c ∈ Text.unifyLineEnds cs := by
  fun_induction Text.unifyLineEnds cs with
  | case1 => cases h
  | case2 rest ih =>
    simp only [List.mem_cons, hc, false_or] at h ⊢
    exact h.imp_right ih
  | case3 rest _ ih =>
    simp only [List.mem_cons, hc, false_or] at h ⊢
    exact .inr (ih h)
  | case4 d rest _ _ ih =>
    rw [List.mem_cons] at h ⊢
    exact h.imp_right ih

theorem exists_tokens (hbody : Stmt.ofSource? named source = some body) :
    ∃ tokens, Token.scan? source = some tokens := by
  obtain ⟨tokens, htokens, -⟩ := Option.bind_eq_some_iff.mp hbody
  exact ⟨tokens, htokens⟩

/-- A text that the grammar accepts is accepted as a whole if the scan for comments comes to an end. -/
theorem exists_accepted (hreturns : ReturnsPaired source.toList)
    (hlines : ∀ line ∈ sourceLines source, ∀ blanks, (∀ c ∈ blanks, IsBlank c) →
      line ≠ blanks ++ ['\\']) (hjoin : ¬ ['\\', '\r', '\n'] <:+ source.toList)
    (hbody : Stmt.ofSource? named source = some body) : ∃ comments, Accepted named source body comments := by
  obtain ⟨tokens, htokens⟩ := exists_tokens hbody
  obtain ⟨hnull, fuel, t, hrun, -⟩ := scan?_eq_some htokens
  have hleft := left_closeLastLine hjoin
  have hnull' : source.toList.contains '\x00' = false := by
    by_contra hcontains
    rw [Bool.not_eq_false, List.contains_iff_mem] at hcontains
    have hmem := hleft.1.isPrefix.subset (mem_unifyLineEnds (by decide) hcontains)
    rw [← List.contains_iff_mem, hnull] at hmem
    cases hmem
  obtain ⟨s, hscan, hfinished⟩ := finishes_of_run (s := start) (n := 1) hrun
    (endsLine_closeLastLine _) (not_mem_closeLastLine _) hleft (steady_closeLastLine hlines)
    ⟨⟨rfl, rfl⟩, rfl, rfl, rfl⟩
  have hscan' : scanLines start 1 (lines source.toList) = some s :=
    (scanLines_unify (isValid_none rfl) hreturns).trans hscan
  obtain ⟨comments, hcomments⟩ := Option.isSome_iff_exists.mp (isSome_comments? hscan' hfinished)
  exact ⟨comments, hnull', hbody, hcomments⟩

theorem Accepted.comments_eq (h : Accepted named source body comments)
    (hm : load named locks source path = .ok m) : m.info.comments = comments := by
  obtain ⟨t, s, ht, hlink⟩ := h.exists_run hm
  have hshows := Model.shows_ofTree (fun v hv => (h.moduleBuilt ht).lt_size hv) rfl hlink
  obtain ⟨n, hn, hlabel⟩ := hshows.exists_node [] _ rfl
  cases hn
  obtain ⟨ds, hshape⟩ := Shape.label_eq_sourceUnit.mp ⟨_, hlabel.trans rfl⟩
  rw [Model.info, Graph.unitInfo?, hshape]
  rfl

/-- **The comments of a unit are those of its lines.** Where every carriage return is followed by a line
feed, a unit notes on each line the comment that stands there, and nothing else, so a comment covers
its own line and the line below. A text that the grammar accepts has comments unless a line is
joined behind nothing but blanks, or at the end of the text. -/
theorem comments_of_load (hreturns : ReturnsPaired source.toList) :
    (∀ locks path m, load named locks source path = .ok m → ∃ tokens, Token.scan? source = some tokens ∧
      (m.info.comments.map (·.1)).Nodup ∧
      (∀ line text, (line, text) ∈ m.info.comments ↔
        ∃ n : Nat, line = n ∧ CommentAt (sourceLines source) tokens n text.toList) ∧
      ∀ phrases id line, Suppression.coversLine m.info.comments phrases id line = true ↔
        ∃ (n : Nat) (text : String), CommentAt (sourceLines source) tokens n text.toList ∧
          (line = n ∨ line = n + 1) ∧ Suppression.covers text phrases id = true) ∧
    ∀ body, Stmt.ofSource? named source = some body →
      (∀ line ∈ sourceLines source, ∀ blanks, (∀ c ∈ blanks, IsBlank c) → line ≠ blanks ++ ['\\']) →
      ¬ ['\\', '\r', '\n'] <:+ source.toList → ∃ comments, Accepted named source body comments := by
  refine ⟨fun locks path m hm => ?_, fun body hbody hlines hjoin =>
    exists_accepted hreturns hlines hjoin hbody⟩
  obtain ⟨body, comments, haccepted⟩ := accepted_of_load hm
  obtain ⟨tokens, htokens⟩ := exists_tokens haccepted.body
  obtain ⟨hnodup, hmem⟩ := mem_comments hreturns htokens haccepted.comments
  rw [haccepted.comments_eq hm]
  refine ⟨tokens, htokens, hnodup, hmem, fun phrases id line => ?_⟩
  rw [coversLine_iff_mem hnodup]
  constructor
  · rintro ⟨l, text, hl, hline, -, hcovers⟩
    obtain ⟨n, rfl, hat⟩ := (hmem l text).mp hl
    exact ⟨n, text, hat, hline, hcovers⟩
  · rintro ⟨n, text, hat, hline, hcovers⟩
    refine ⟨n, text, (hmem n text).mpr ⟨n, rfl, hat⟩, hline, ?_, hcovers⟩
    rintro rfl
    obtain ⟨-, text, -, -, htext, -⟩ := hat
    cases htext

/-- A text with a `#` in a literal and with line ends of both kinds. -/
def literalText : String := "x = 'a#'\r\ny = 2  # c\n"

/-- The comment of that text is noted on its line. -/
theorem comments_literalText : ReturnsPaired literalText.toList ∧ ∃ m tokens,
    load .empty [] literalText ⟨"", ["m.py"]⟩ = .ok m ∧ Token.scan? literalText = some tokens ∧
      m.info.comments = [(2, "# c")] ∧
        CommentAt (sourceLines literalText) tokens 2 "# c".toList := by
  have hreturns : ReturnsPaired literalText.toList := by decide +kernel
  have hload : (load .empty [] literalText ⟨"", ["m.py"]⟩).toOption.any
      (fun m => m.info.comments = [(2, "# c")]) := by decide +kernel
  obtain ⟨m, hm, hcomments⟩ := exists_load_of_any hload
  have hcomments := of_decide_eq_true hcomments
  obtain ⟨tokens, htokens, -, hmem, -⟩ := (comments_of_load hreturns).1 _ _ _ hm
  obtain ⟨n, hn, hat⟩ := (hmem 2 "# c").mp (by rw [hcomments]; exact List.mem_cons_self)
  obtain rfl : n = 2 := by omega
  exact ⟨hreturns, m, tokens, hm, htokens, hcomments, hat⟩

/-- A text with a carriage return by itself. -/
def returnText : String := "x = 1\ry = 2  # c\n"

/-- The comment stands on the second line of that text and is noted on the first. -/
theorem comments_returnText : ∃ m tokens, load .empty [] returnText ⟨"", ["m.py"]⟩ = .ok m ∧
    Token.scan? returnText = some tokens ∧
      CommentAt (sourceLines returnText) tokens 2 "# c".toList ∧ m.info.comments = [(1, "# c")] := by
  have hload : (load .empty [] returnText ⟨"", ["m.py"]⟩).toOption.any
      (fun m => m.info.comments = [(1, "# c")]) := by decide +kernel
  have hscan : (Token.scan? returnText).any (fun tokens =>
      tokens.all fun t => t.kind ≠ .string) := by decide +kernel
  obtain ⟨m, hm, hcomments⟩ := exists_load_of_any hload
  obtain ⟨tokens, htokens, hplain⟩ := (Option.any_eq_true _ _).mp hscan
  have hout : ∀ p, ¬ InLiteral tokens p := by
    rintro p ⟨t, ht, hkind, -⟩
    exact of_decide_eq_true (List.all_eq_true.mp hplain t ht) hkind
  refine ⟨m, tokens, hm, htokens, ⟨"y = 2  ".toList, " c".toList, by decide, by decide +kernel, rfl,
    hout _, fun start rest hstart => ?_⟩, of_decide_eq_true hcomments⟩
  have hmem : '#' ∈ "y = 2  ".toList := by
    rw [hstart]
    exact List.mem_append_right _ List.mem_cons_self
  exact absurd hmem (by decide)

end ModelLint.Source
