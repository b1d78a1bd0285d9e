import Mathlib.Data.List.Forall2
import ModelLint.Rules.Pattern

/-!
# Which names a pattern matches

A pattern matches a name if the name can be cut into one stretch for each character of the pattern. A
stretch for `%` or `*` is of any length, all others are one character long. Letters agree if case is
ignored character by character, which is more than having the same lower case: some lower-case letters
share their upper case.

* `Text.sharedCases`, `Text.Agree`: which letters agree.
* `Text.sameLetter_iff`: the comparison by keys tells which letters agree.
* `Piece.accepts_iff`: what the search through all suffixes finds.
* **`Pattern.anyAccepts?_iff_splits`**: which names a list of patterns matches.
-/

namespace ModelLint

/-! ## Letters -/

namespace Text

/-- The lower-case letters that share an upper case, by code point. -/
def sharedCases : List (List Nat) :=
  [[0x69, 0x131], [0x73, 0x17F], [0xB5, 0x3BC], [0x345, 0x3B9, 0x1FBE], [0x390, 0x1FD3],
    [0x3B0, 0x1FE3], [0x3B2, 0x3D0], [0x3B5, 0x3F5], [0x3B8, 0x3D1], [0x3BA, 0x3F0],
    [0x3C0, 0x3D6], [0x3C1, 0x3F1], [0x3C2, 0x3C3], [0x3C6, 0x3D5], [0x432, 0x1C80],
    [0x434, 0x1C81], [0x43E, 0x1C82], [0x441, 0x1C83], [0x442, 0x1C84, 0x1C85], [0x44A, 0x1C86],
    [0x463, 0x1C87], [0x1C88, 0xA64B], [0x1E61, 0x1E9B], [0xFB05, 0xFB06]]

/-- Two characters agree when case is ignored: they have the same simple lower case, or their lower
cases share an upper case. -/
def Agree (a b : Char) : Prop :=
  lowerChar a = lowerChar b ∨
    ∃ letters ∈ sharedCases, (lowerChar a).toNat ∈ letters ∧ (lowerChar b).toNat ∈ letters

variable {c d : Char} {letters : List Nat}

/-- An entry of the table leads from a letter to one with the same upper case. -/
theorem shared_of_mem : ∀ run ∈ sharedCaseTable, run.hi = run.lo ∧ run.target.isValidChar ∧
    ∃ letters ∈ sharedCases, run.lo ∈ letters ∧ run.target ∈ letters := by
  decide +kernel

theorem find?_eq_of_shared : ∀ letters ∈ sharedCases, ∀ n ∈ letters, ∀ m ∈ letters,
    (sharedCaseTable.find? n).getD n = (sharedCaseTable.find? m).getD m := by
  decide +kernel

/-- No letter shares its upper case with two kinds of letters. -/
theorem eq_of_shared : ∀ letters ∈ sharedCases, ∀ letters' ∈ sharedCases, ∀ n ∈ letters,
    n ∈ letters' → letters = letters' := by
  decide +kernel

theorem toNat_apply_shared (c : Char) :
    (sharedCaseTable.apply c).toNat = (sharedCaseTable.find? c.toNat).getD c.toNat := by
  rw [CodeMap.apply, CodeMap.find?]
  rcases hrun : List.find? _ sharedCaseTable with _ | run
  · rfl
  · have hmem := List.mem_of_find?_eq_some hrun
    have hbetween := List.find?_some hrun
    obtain ⟨heq, hvalid, -⟩ := shared_of_mem run hmem
    rw [heq] at hbetween
    have hc : c.toNat = run.lo := by
      simp only [Bool.and_eq_true, decide_eq_true_eq] at hbetween
      omega
    simp only [Option.map_some, Option.getD_some, hc, Nat.sub_self, Nat.add_zero]
    rw [Char.ofNat, dif_pos hvalid]
    rfl

theorem apply_shared (c : Char) : sharedCaseTable.apply c = c ∨ ∃ letters ∈ sharedCases,
    c.toNat ∈ letters ∧ (sharedCaseTable.apply c).toNat ∈ letters := by
  rw [toNat_apply_shared, CodeMap.apply, CodeMap.find?]
  rcases hrun : List.find? _ sharedCaseTable with _ | run
  · exact .inl rfl
  · have hmem := List.mem_of_find?_eq_some hrun
    have hbetween := List.find?_some hrun
    obtain ⟨heq, -, letters, hletters, hlo, htarget⟩ := shared_of_mem run hmem
    rw [heq] at hbetween
    have hc : c.toNat = run.lo := by
      simp only [Bool.and_eq_true, decide_eq_true_eq] at hbetween
      omega
    refine .inr ⟨letters, hletters, hc ▸ hlo, ?_⟩
    simpa only [Option.map_some, Option.getD_some, hc, Nat.sub_self, Nat.add_zero] using htarget

/-- No character of the ASCII range is led elsewhere. -/
theorem caseKey_eq (c : Char) : caseKey c = sharedCaseTable.apply (lowerChar c) := by
  rw [caseKey]
  split
  · next hascii =>
    have hnone : ∀ n < 128, sharedCaseTable.find? n = none := by decide +kernel
    rw [CodeMap.apply, hnone _ hascii]
    rfl
  · rfl

theorem apply_shared_eq_iff : sharedCaseTable.apply c = sharedCaseTable.apply d ↔
    c = d ∨ ∃ letters ∈ sharedCases, c.toNat ∈ letters ∧ d.toNat ∈ letters := by
  constructor
  · intro heq
    rcases apply_shared c with hc | ⟨letters, hletters, hc, hc'⟩
    · rcases apply_shared d with hd | ⟨letters, hletters, hd, hd'⟩
      · exact .inl (hc ▸ hd ▸ heq)
      · rw [← heq, hc] at hd'
        exact .inr ⟨letters, hletters, hd', hd⟩
    · rcases apply_shared d with hd | ⟨letters', hletters', hd, hd'⟩
      · rw [heq, hd] at hc'
        exact .inr ⟨letters, hletters, hc, hc'⟩
      · rw [← heq] at hd'
        obtain rfl := eq_of_shared letters hletters letters' hletters' _ hc' hd'
        exact .inr ⟨letters, hletters, hc, hd⟩
  · rintro (rfl | ⟨letters, hletters, hc, hd⟩)
    · rfl
    · refine Char.toNat_inj.mp ?_
      rw [toNat_apply_shared, toNat_apply_shared]
      exact find?_eq_of_shared letters hletters _ hc _ hd

/-- **Letters with the same key** are those that agree when case is ignored. -/
theorem sameLetter_iff {a b : Char} : sameLetter a b = true ↔ Agree a b := by
  rw [sameLetter, beq_iff_eq, caseKey_eq, caseKey_eq, apply_shared_eq_iff, Agree]

end Text

/-! ## Pieces -/

namespace Piece

variable {pieces : List Piece} {cs : List Char}

/-- A stretch of text stands for a piece of a pattern. -/
inductive Covers : Piece → List Char → Prop where
  /-- Any stretch stands for a run. -/
  | run (stretch : List Char) : Covers .run stretch
  /-- A character of the class stands for a single piece. -/
  | single {holds : Char → Bool} {c : Char} (h : holds c = true) : Covers (.single holds) [c]

theorem mem_suffixes {suffix : List Char} : suffix ∈ suffixes cs ↔ suffix <:+ cs := by
  induction cs with
  | nil => simp [suffixes]
  | cons c cs ih => rw [suffixes, List.mem_cons, ih, List.suffix_cons_iff]

/-- **What the search finds**: a text that splits into stretches for the pieces. -/
theorem accepts_iff : accepts pieces cs = true ↔
    ∃ stretches, stretches.flatten = cs ∧ List.Forall₂ Covers pieces stretches := by
  induction pieces generalizing cs with
  | nil =>
    rw [accepts, List.isEmpty_iff]
    constructor
    · rintro rfl
      exact ⟨[], rfl, .nil⟩
    · rintro ⟨stretches, rfl, hcovers⟩
      cases hcovers
      rfl
  | cons piece pieces ih =>
    constructor
    · intro h
      cases piece with
      | run =>
        obtain ⟨suffix, hsuffix, haccepts⟩ := List.any_eq_true.mp h
        obtain ⟨stretch, rfl⟩ := mem_suffixes.mp hsuffix
        obtain ⟨stretches, rfl, hcovers⟩ := ih.mp haccepts
        exact ⟨stretch :: stretches, rfl, .cons (.run stretch) hcovers⟩
      | single holds =>
        cases cs with
        | nil => cases h
        | cons c cs =>
          rw [accepts, Bool.and_eq_true] at h
          obtain ⟨stretches, rfl, hcovers⟩ := ih.mp h.2
          exact ⟨[c] :: stretches, rfl, .cons (.single h.1) hcovers⟩
    · rintro ⟨stretches, rfl, hcovers⟩
      cases hcovers with
      | cons hcover hrest =>
        next stretch stretches =>
        have haccepts := ih.mpr ⟨stretches, rfl, hrest⟩
        cases hcover with
        | run =>
          rw [accepts, List.any_eq_true]
          exact ⟨_, mem_suffixes.mpr ⟨stretch, rfl⟩, haccepts⟩
        | single hc =>
          rw [List.flatten_cons, List.singleton_append, accepts, hc, haccepts]
          rfl

end Piece

/-! ## Patterns -/

namespace Pattern

/-- A stretch of a name stands for a character of a pattern. No character but the three wildcards has
a meaning of its own. -/
inductive StandsFor : Char → List Char → Prop where
  /-- Any stretch stands for `%`. -/
  | percent (stretch : List Char) : StandsFor '%' stretch
  /-- Any stretch stands for `*`. -/
  | star (stretch : List Char) : StandsFor '*' stretch
  /-- Any character stands for `?`. -/
  | question (d : Char) : StandsFor '?' [d]
  /-- A letter stands for any other character that it agrees with. -/
  | letter {c d : Char} (hc : c ∉ ['%', '*', '?']) (h : Text.Agree c d) : StandsFor c [d]

/-- **A pattern fits a name**: the name splits into one stretch for each character of the pattern. -/
def Splits (pattern name : String) : Prop :=
  ∃ stretches : List (List Char), stretches.flatten = name.toList ∧
    List.Forall₂ StandsFor pattern.toList stretches

theorem covers_piece {c : Char} {stretch : List Char} :
    (piece c).Covers stretch ↔ StandsFor c stretch := by
  constructor
  · intro h
    rw [piece] at h
    split at h
    · next hc =>
      rcases hc with rfl | rfl
      · exact .percent stretch
      · exact .star stretch
    · next hrun =>
      split at h
      · next hc =>
        subst hc
        cases h
        exact .question _
      · next hsingle =>
        cases h with
        | single hd =>
          refine .letter ?_ (Text.sameLetter_iff.mp hd)
          simpa [not_or] using ⟨not_or.mp hrun |>.1, not_or.mp hrun |>.2, hsingle⟩
  · intro h
    cases h with
    | percent => exact .run _
    | star => exact .run _
    | question d => exact .single rfl
    | letter hc hagree =>
      simp only [List.mem_cons, List.not_mem_nil, or_false, not_or] at hc
      rw [piece, if_neg (not_or.mpr ⟨hc.1, hc.2.1⟩), if_neg hc.2.2]
      exact .single (Text.sameLetter_iff.mpr hagree)

theorem accepts_iff_splits {pattern name : String} :
    accepts pattern name = true ↔ Splits pattern name := by
  rw [accepts, pieces, Piece.accepts_iff, Splits]
  simp only [List.forall₂_map_left_iff, covers_piece]

/-- **Which names a list of patterns matches**: a name that is there, is not empty, and splits as one of
the patterns says. -/
theorem anyAccepts?_iff_splits {patterns : List String} {name : Option String} :
    anyAccepts? patterns name = true ↔
      ∃ s, name = some s ∧ s ≠ "" ∧ ∃ pattern ∈ patterns, Splits pattern s := by
  rw [anyAccepts?, Option.any_eq_true]
  refine exists_congr fun s => and_congr_right fun _ => ?_
  simp only [anyAccepts, Bool.and_eq_true, decide_eq_true_eq, List.any_eq_true,
    accepts_iff_splits]

/-- Two runs beside each other, the first one over a line break and the second one over nothing. -/
example : accepts "%*?.X(" "a\n..x(" = true := by decide +kernel

end Pattern

end ModelLint
