import Mathlib.Data.List.TakeDrop
import Mathlib.Data.List.TakeWhile
import ModelLint.Rules.Rule

/-!
# Which comments suppress

A phrase suppresses a rule if it stands in a comment, ignoring case, and is not followed by a list in
brackets that leaves the rule out. Of all the places where a phrase stands only the first one counts,
and a place in the lower case of a comment is one in the comment itself only where the lower case is
that of the characters one by one.

* `StartsWithList`, `IsFor`: what follows a phrase.
* `Occurs`, `OccursFirst`: where a phrase stands.
* `bracketList?_eq_some`, `indexOf?_eq_some`, `phraseCovers_iff`: the parts of the search.
* **`covers_iff_names`**: which comments cover a rule.
-/

namespace ModelLint

/-- The lower case of a text is that of its characters, one by one. It is not if a capital sigma ends a
word, and if the text holds `U+0130`, whose lower case has two characters. -/
def Text.LowersEach (s : String) : Prop := (Text.lower s).toList = s.toList.map Text.lowerChar

instance (s : String) : Decidable (Text.LowersEach s) := inferInstanceAs (Decidable (_ = _))

namespace Suppression

variable {cs needle inside before after : List Char} {i : Nat} {phrase comment ruleId : String}
  {phrases : List String}

/-- A text starts with a list in brackets, behind blanks. -/
def StartsWithList (cs inside : List Char) : Prop :=
  ∃ blanks rest, cs = blanks ++ '[' :: (inside ++ ']' :: rest) ∧
    (∀ c ∈ blanks, Text.isBlank c = true) ∧ ']' ∉ inside

/-- What follows a phrase means a rule: it does not start with a list, or with one that has the rule
among its entries. Commas part the entries, and blanks around them do not count. -/
def IsFor (ruleId : String) (cs : List Char) : Prop :=
  (¬ ∃ inside, StartsWithList cs inside) ∨
    ∃ inside, StartsWithList cs inside ∧
      ∃ entry ∈ inside.splitOn ',', String.ofList (Text.trim entry) = ruleId

/-- A phrase stands in a comment behind some characters and in front of others, ignoring case. -/
def Occurs (phrase comment : String) (before after : List Char) : Prop :=
  ∃ middle, comment.toList = before ++ (middle ++ after) ∧
    middle.map Text.lowerChar = phrase.toList.map Text.lowerChar

/-- The first place where a phrase stands in a comment. -/
def OccursFirst (phrase comment : String) (before after : List Char) : Prop :=
  Occurs phrase comment before after ∧
    ∀ before' after', Occurs phrase comment before' after' → before.length ≤ before'.length

/-- **A comment names a rule**: a phrase that is not empty stands somewhere in it and means the rule. -/
def Names (comment : String) (phrases : List String) (ruleId : String) : Prop :=
  ∃ phrase ∈ phrases, phrase ≠ "" ∧
    ∃ before after, Occurs phrase comment before after ∧ IsFor ruleId after

/-! ## Lists in brackets -/

theorem bracketList?_eq_some {ids : List String} :
    bracketList? cs = some ids ↔ ∃ inside, StartsWithList cs inside ∧
      ids = (inside.splitOn ',').map fun entry => String.ofList (Text.trim entry) := by
  constructor
  · intro h
    rw [bracketList?] at h
    split at h
    · next rest hopen =>
      rw [List.span_eq_takeWhile_dropWhile] at h
      rcases hclose : rest.dropWhile (· ≠ ']') with _ | ⟨c, behind⟩
      · rw [hclose] at h
        cases h
      · rw [hclose] at h
        obtain rfl : c = ']' := by
          have hhead := List.head?_dropWhile_not (· ≠ ']') rest
          rw [hclose] at hhead
          simpa using hhead
        refine ⟨rest.takeWhile (· ≠ ']'), ⟨cs.takeWhile Text.isBlank, behind, ?_, ?_, ?_⟩,
          (Option.some.inj h).symm⟩
        · rw [← hclose, List.takeWhile_append_dropWhile, ← hopen, List.takeWhile_append_dropWhile]
        · exact fun c hc => List.mem_takeWhile_imp hc
        · exact fun hmem => by simpa using List.mem_takeWhile_imp hmem
    · cases h
  · rintro ⟨inside, ⟨blanks, rest, rfl, hblanks, hinside⟩, rfl⟩
    have hopen : (blanks ++ '[' :: (inside ++ ']' :: rest)).dropWhile Text.isBlank =
        '[' :: (inside ++ ']' :: rest) := by
      rw [List.dropWhile_append_of_pos hblanks, List.dropWhile_cons_of_neg (by decide)]
    have hbefore : ∀ c ∈ inside, decide (c ≠ ']') = true := fun c hc => by
      simpa using fun heq : c = ']' => hinside (heq ▸ hc)
    rw [bracketList?, hopen]
    simp only [List.span_eq_takeWhile_dropWhile]
    rw [List.takeWhile_append_of_pos hbefore, List.dropWhile_append_of_pos hbefore]
    simp

theorem StartsWithList.eq {inside' : List Char} (h : StartsWithList cs inside)
    (h' : StartsWithList cs inside') : (inside.splitOn ',').map (String.ofList ∘ Text.trim) =
      (inside'.splitOn ',').map (String.ofList ∘ Text.trim) := by
  have hlist := bracketList?_eq_some.mpr ⟨inside, h, rfl⟩
  have hlist' := bracketList?_eq_some.mpr ⟨inside', h', rfl⟩
  exact Option.some.inj (hlist.symm.trans hlist')

/-- What follows a phrase, as the search reads it. -/
theorem isFor_iff : IsFor ruleId cs ↔ ∀ ids, bracketList? cs = some ids → ruleId ∈ ids := by
  constructor
  · rintro hfor ids hlist
    obtain ⟨inside, h, rfl⟩ := bracketList?_eq_some.mp hlist
    rcases hfor with hnone | ⟨inside', h', entry, hentry, rfl⟩
    · exact absurd ⟨inside, h⟩ hnone
    · have hmem : String.ofList (Text.trim entry) ∈
          (inside'.splitOn ',').map (String.ofList ∘ Text.trim) := List.mem_map_of_mem hentry
      rwa [h'.eq h] at hmem
  · intro hids
    by_cases hlist : ∃ inside, StartsWithList cs inside
    · obtain ⟨inside, h⟩ := hlist
      obtain ⟨entry, hentry, heq⟩ :=
        List.mem_map.mp (hids _ (bracketList?_eq_some.mpr ⟨inside, h, rfl⟩))
      exact .inr ⟨inside, h, entry, hentry, heq⟩
    · exact .inl hlist

/-! ## Places -/

theorem indexOf?_eq_some : indexOf? needle cs = some i ↔
    (i ≤ cs.length ∧ needle <+: cs.drop i) ∧ ∀ j < i, ¬ needle <+: cs.drop j := by
  induction cs generalizing i with
  | nil =>
    rw [indexOf?]
    cases i with
    | zero => simp
    | succ k => simp
  | cons c cs ih =>
    rw [indexOf?]
    split
    · next hhere =>
      replace hhere := List.isPrefixOf_iff_prefix.mp hhere
      cases i with
      | zero => simpa using hhere
      | succ k => exact ⟨nofun, fun h => absurd hhere (h.2 0 (Nat.succ_pos k))⟩
    · next hhere =>
      rw [List.isPrefixOf_iff_prefix] at hhere
      rw [Option.map_eq_some_iff]
      cases i with
      | zero => exact ⟨fun ⟨_, _, hne⟩ => absurd hne (Nat.succ_ne_zero _),
        fun h => absurd h.1.2 hhere⟩
      | succ k =>
        simp only [Nat.add_right_cancel_iff, exists_eq_right, ih, List.length_cons,
          Nat.add_le_add_iff_right, List.drop_succ_cons]
        refine and_congr_right fun _ => ⟨fun hfirst j hj => ?_, fun hfirst j hj => ?_⟩
        · cases j with
          | zero => exact hhere
          | succ j => exact hfirst j (Nat.lt_of_succ_lt_succ hj)
        · exact hfirst (j + 1) (Nat.succ_lt_succ hj)

/-- A phrase stands where its lower case is in the lower case of the comment. -/
theorem occurs_iff : Occurs phrase comment before after ↔
    (before.length ≤ comment.toList.length ∧ phrase.toList.map Text.lowerChar <+:
      (comment.toList.map Text.lowerChar).drop before.length) ∧
      before = comment.toList.take before.length ∧
        after = comment.toList.drop (before.length + phrase.length) := by
  rw [← String.length_toList]
  constructor
  · rintro ⟨middle, hcomment, hmiddle⟩
    have hlength : middle.length = phrase.toList.length := by
      simpa using congrArg List.length hmiddle
    rw [hcomment, ← hmiddle, ← hlength]
    simp [← List.drop_drop]
  · rintro ⟨⟨-, hprefix⟩, hbefore, hafter⟩
    rw [← List.map_drop] at hprefix
    obtain ⟨rest, hrest⟩ := hprefix
    obtain ⟨middle, behind, hdrop, hmiddle, -⟩ := List.map_eq_append_iff.mp hrest.symm
    have hlength : middle.length = phrase.toList.length := by
      simpa using congrArg List.length hmiddle
    refine ⟨middle, ?_, hmiddle⟩
    have hbehind : after = behind := by
      rw [hafter, ← List.drop_drop, hdrop, ← hlength, List.drop_left]
    rw [hbehind, ← hdrop]
    conv_lhs => rw [← List.take_append_drop before.length comment.toList, ← hbefore]

/-- Where a phrase stands for the first time, as the search finds it. -/
theorem indexOf?_eq_length (hphrase : Text.LowersEach phrase) (hcomment : Text.LowersEach comment) :
    OccursFirst phrase comment before after ↔
      indexOf? (Text.lower phrase).toList (Text.lower comment).toList = some before.length ∧
        before = comment.toList.take before.length ∧
          after = comment.toList.drop (before.length + phrase.length) := by
  rw [hphrase, hcomment, indexOf?_eq_some, List.length_map]
  constructor
  · rintro ⟨hoccurs, hfirst⟩
    obtain ⟨hplace, hparts⟩ := occurs_iff.mp hoccurs
    refine ⟨⟨hplace, fun j hj hprefix => ?_⟩, hparts⟩
    have hlength : (comment.toList.take j).length = j := by
      rw [List.length_take]
      omega
    have hj' : Occurs phrase comment (comment.toList.take j)
        (comment.toList.drop (j + phrase.length)) := by
      rw [occurs_iff, hlength]
      exact ⟨⟨by omega, hprefix⟩, rfl, rfl⟩
    have := hfirst _ _ hj'
    omega
  · rintro ⟨⟨hplace, hfirst⟩, hparts⟩
    refine ⟨occurs_iff.mpr ⟨hplace, hparts⟩, fun before' after' hoccurs => ?_⟩
    by_contra hlt
    exact hfirst before'.length (by omega) (occurs_iff.mp hoccurs).1.2

/-! ## Phrases -/

/-- A phrase covers a rule if it means the rule where it stands first. -/
theorem phraseCovers_iff (hphrase : Text.LowersEach phrase) (hcomment : Text.LowersEach comment) :
    phraseCovers comment ruleId phrase = true ↔
      ∃ before after, OccursFirst phrase comment before after ∧ IsFor ruleId after := by
  rcases hindex : indexOf? (Text.lower phrase).toList (Text.lower comment).toList with _ | i
  · rw [phraseCovers, hindex]
    refine ⟨nofun, fun ⟨before, after, hfirst, _⟩ => ?_⟩
    rw [((indexOf?_eq_length hphrase hcomment).mp hfirst).1] at hindex
    cases hindex
  · have hle := (indexOf?_eq_some.mp hindex).1.1
    rw [hcomment, List.length_map] at hle
    have hlength : (comment.toList.take i).length = i := by
      rw [List.length_take]
      omega
    have hcovers : phraseCovers comment ruleId phrase = true ↔
        IsFor ruleId (comment.toList.drop (i + phrase.length)) := by
      rw [phraseCovers, hindex, isFor_iff]
      dsimp only
      cases bracketList? (comment.toList.drop (i + phrase.length)) <;> simp
    rw [hcovers]
    constructor
    · intro hfor
      refine ⟨comment.toList.take i, _, (indexOf?_eq_length hphrase hcomment).mpr ?_, hfor⟩
      rw [hlength]
      exact ⟨hindex, rfl, rfl⟩
    · rintro ⟨before, after, hfirst, hfor⟩
      obtain ⟨hindex', -, rfl⟩ := (indexOf?_eq_length hphrase hcomment).mp hfirst
      obtain rfl : i = before.length := Option.some.inj (hindex.symm.trans hindex')
      exact hfor

/-- **Which comments cover a rule.** Some phrase means the rule at the first place where it stands. So
a comment that covers a rule names it, and one that names it covers it if no phrase stands in it
twice. -/
theorem covers_iff_names (hcomment : Text.LowersEach comment)
    (hphrases : ∀ phrase ∈ phrases, phrase ≠ "" ∧ Text.LowersEach phrase) :
    (covers comment phrases ruleId = true ↔
      ∃ phrase ∈ phrases, ∃ before after, OccursFirst phrase comment before after ∧
        IsFor ruleId after) ∧
    (covers comment phrases ruleId = true → Names comment phrases ruleId) ∧
    ((∀ phrase ∈ phrases, ∀ before after before' after', Occurs phrase comment before after →
      Occurs phrase comment before' after' → before = before') →
        (covers comment phrases ruleId = true ↔ Names comment phrases ruleId)) := by
  have hcovers : covers comment phrases ruleId = true ↔
      ∃ phrase ∈ phrases, ∃ before after, OccursFirst phrase comment before after ∧
        IsFor ruleId after := by
    rw [covers, List.any_eq_true]
    exact exists_congr fun phrase => and_congr_right fun hphrase =>
      phraseCovers_iff (hphrases phrase hphrase).2 hcomment
  have hnames : covers comment phrases ruleId = true → Names comment phrases ruleId := by
    intro h
    obtain ⟨phrase, hphrase, before, after, hfirst, hfor⟩ := hcovers.mp h
    exact ⟨phrase, hphrase, (hphrases phrase hphrase).1, before, after, hfirst.1, hfor⟩
  refine ⟨hcovers, hnames, fun honce => ⟨hnames, ?_⟩⟩
  rintro ⟨phrase, hphrase, -, before, after, hoccurs, hfor⟩
  refine hcovers.mpr ⟨phrase, hphrase, before, after, ⟨hoccurs, fun before' after' h => ?_⟩, hfor⟩
  rw [honce phrase hphrase before after before' after' hoccurs h]

/-- A comment with one phrase and a list. -/
theorem covers_listComment :
    Text.LowersEach "# LINT-off [a, b ]" ∧ covers "# LINT-off [a, b ]" ["lint-off"] "b" = true := by
  have hcomment : Text.LowersEach "# LINT-off [a, b ]" := by decide +kernel
  have hphrases : ∀ phrase ∈ ["lint-off"], phrase ≠ "" ∧ Text.LowersEach phrase := by
    decide +kernel
  have honly : ∀ k ≤ "# LINT-off [a, b ]".toList.length, "lint-off".toList.map Text.lowerChar <+:
      ("# LINT-off [a, b ]".toList.map Text.lowerChar).drop k → k = 2 := by decide +kernel
  refine ⟨hcomment, ((covers_iff_names hcomment hphrases).2.2 ?once).mpr ?names⟩
  case once =>
    intro phrase hphrase before after before' after' h h'
    obtain rfl := List.mem_singleton.mp hphrase
    obtain ⟨⟨hle, hprefix⟩, hbefore, -⟩ := occurs_iff.mp h
    obtain ⟨⟨hle', hprefix'⟩, hbefore', -⟩ := occurs_iff.mp h'
    rw [hbefore, hbefore', honly _ hle hprefix, honly _ hle' hprefix']
  case names =>
    exact ⟨"lint-off", by decide, by decide, ['#', ' '], " [a, b ]".toList,
      ⟨"LINT-off".toList, by decide, by decide +kernel⟩,
      .inr ⟨"a, b ".toList, ⟨[' '], [], by decide, List.forall_mem_singleton.mpr rfl, by decide⟩,
        " b ".toList, by decide, by decide +kernel⟩⟩

/-- A phrase that is not for the rule stands before one that is. The comment names the rule and does not
cover it. -/
theorem not_covers_twiceComment :
    ¬ (covers "# lint-off[a] lint-off[b]" ["lint-off"] "b" = true ↔
      Names "# lint-off[a] lint-off[b]" ["lint-off"] "b") := by
  have hnames : Names "# lint-off[a] lint-off[b]" ["lint-off"] "b" := by
    refine ⟨"lint-off", by decide, by decide, "# lint-off[a] ".toList, "[b]".toList,
      ⟨"lint-off".toList, by decide, rfl⟩,
      .inr ⟨['b'], ⟨[], [], by decide, List.forall_mem_nil _, by decide⟩, ['b'], ?_, ?_⟩⟩
    · decide
    · decide +kernel
  have hcovers : covers "# lint-off[a] lint-off[b]" ["lint-off"] "b" = false := by decide +kernel
  rw [hcovers]
  exact fun h => absurd (h.mpr hnames) Bool.false_ne_true

end Suppression

end ModelLint
