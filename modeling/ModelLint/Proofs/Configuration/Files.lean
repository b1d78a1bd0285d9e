import Mathlib.Data.List.TakeDrop
import ModelLint.Command.Run
import ModelLint.Proofs.Configuration.Reading

/-!
# Configuration files that cannot be used

A file that is no text, or with an option that is not named by a text, ends the run by an accident. A
file whose value can be written and names its options by texts gives a configuration, or an error that
is an answer to the user. Commands show it as markup, and end with the exit code for configurations that
cannot be used if the markup can be read.

* `Markup.Closes`: a text in which a tag may end a style.
* `Markup.ShowsReasons`: what shows markup shows the reasons in which no tag ends a style.
* `Markup.showsReasons_plain?`: so do plain texts.
* `Command.Ends`: how commands end that are given a configuration file.
* **`Configuration.load_answers`**: what files of any content give.
-/

namespace ModelLint

/-! ## Markup -/

namespace Markup

variable {cs tag after : List Char} {styles : List (List Char)} {fuel : Nat}

/-- A text in which a tag may end a style. -/
def Closes (cs : List Char) : Prop := ['[', '/'] <:+: cs

instance (cs : List Char) : Decidable (Closes cs) := inferInstanceAs (Decidable (['[', '/'] <:+: cs))

theorem tag?_eq_some (h : tag? cs = some (tag, after)) : ∃ c inside, startsTag c = true ∧
    tag = '[' :: c :: inside ++ [']'] ∧ cs = '[' :: c :: (inside ++ ']' :: after) := by
  rw [tag?.eq_def] at h
  split at h
  · next c rest =>
    split at h
    · next hc =>
      rw [List.span_eq_takeWhile_dropWhile] at h
      split at h
      · next inside after' hspan =>
        cases h
        obtain ⟨rfl, hrest⟩ := Prod.mk.inj hspan
        refine ⟨c, _, hc, rfl, ?_⟩
        rw [← hrest, List.takeWhile_append_dropWhile]
      · cases h
    · cases h
  · cases h

theorem isSome_openStyles? {c : Char} {inside : List Char} (hc : startsTag c = true)
    (hslash : c ≠ '/') : (openStyles? styles ('[' :: c :: inside ++ [']'])).isSome = true := by
  have hequals : c ≠ '=' := by
    rintro rfl
    exact absurd hc (by decide)
  have hinner : (('[' :: c :: inside ++ [']']).drop 1).dropLast = c :: inside :=
    List.dropLast_concat
  have hname : (c :: inside).takeWhile (· ≠ '=') = c :: inside.takeWhile (· ≠ '=') :=
    List.takeWhile_cons_of_pos (by simpa using hequals)
  rw [openStyles?.eq_def, hinner, hname]
  split
  · next heq => exact absurd (List.cons.inj heq).1 hslash
  · rfl

theorem not_closes_of_suffix {rest : List Char} (h : ¬ Closes cs) (hrest : rest <:+ cs) :
    ¬ Closes rest := fun hcloses => h (hcloses.trans hrest.isInfix)

theorem tag_of_not_closes (h : ¬ Closes cs) (htag : tag? cs = some (tag, after)) :
    (∀ styles, (openStyles? styles tag).isSome = true) ∧ ¬ Closes after := by
  obtain ⟨c, inside, hc, rfl, rfl⟩ := tag?_eq_some htag
  have hslash : c ≠ '/' := by
    rintro rfl
    exact h ⟨[], _, rfl⟩
  refine ⟨fun styles => isSome_openStyles? hc hslash, not_closes_of_suffix h ?_⟩
  exact ⟨'[' :: c :: (inside ++ [']']), by simp⟩

theorem isSome_plainFrom (h : ¬ Closes cs) (fuel : Nat) (styles : List (List Char)) :
    (plainFrom fuel styles cs).isSome = true := by
  induction fuel generalizing styles cs with
  | zero => rfl
  | succ fuel ih =>
    cases cs with
    | nil => rfl
    | cons c cs =>
      have hrest : (c :: cs).dropWhile (· = '\\') <:+ c :: cs := List.dropWhile_suffix _
      have hcs : ¬ Closes cs := not_closes_of_suffix h (List.suffix_cons c cs)
      have hbehind : ¬ Closes ((c :: cs).dropWhile (· = '\\')) := not_closes_of_suffix h hrest
      rw [plainFrom, List.span_eq_takeWhile_dropWhile]
      dsimp only
      split
      · next tag after htag =>
        obtain ⟨hopen, hafter⟩ := tag_of_not_closes hbehind htag
        split
        · rw [Option.isSome_map]
          exact ih hafter styles
        · obtain ⟨opened, hopened⟩ := Option.isSome_iff_exists.mp (hopen styles)
          obtain ⟨text, htext⟩ := Option.isSome_iff_exists.mp (ih hafter opened)
          rw [hopened]
          simp [htext]
      · split
        · rw [Option.isSome_map]
          exact ih hcs styles
        · next others after _ heq =>
          rw [heq] at hbehind
          rw [Option.isSome_map]
          exact ih (not_closes_of_suffix hbehind (List.suffix_cons _ _)) styles
        · rw [Option.isSome_map]
          exact ih hbehind styles

theorem plainFrom_word {word : List Char} (h : word.all (fun c => c ≠ '[' ∧ c ≠ '\\') = true) :
    plainFrom (fuel + word.length) styles (word ++ cs) =
      (plainFrom fuel styles cs).map (word ++ ·) := by
  induction word with
  | nil => simp
  | cons c rest ih =>
    rw [List.all_cons, Bool.and_eq_true, decide_eq_true_iff] at h
    have hspan : (c :: (rest ++ cs)).span (· = '\\') = ([], c :: (rest ++ cs)) := by
      simp [List.span_eq_takeWhile_dropWhile, h.1.2]
    have htag : tag? (c :: (rest ++ cs)) = none := by
      rw [tag?.eq_def]
      split
      · next heq => exact absurd (List.cons.inj heq).1 h.1.1
      · rfl
    rw [List.length_cons, ← Nat.add_assoc, List.cons_append, plainFrom, hspan]
    dsimp only
    rw [htag]
    dsimp only
    rw [ih h.2, Option.map_map]
    rfl

theorem plainFrom_tag {styles' : List (List Char)} (htag : tag? ('[' :: cs) = some (tag, after))
    (hopen : openStyles? styles tag = some styles') :
    plainFrom (fuel + 1) styles ('[' :: cs) = plainFrom fuel styles' after := by
  have hspan : ('[' :: cs).span (· = '\\') = ([], '[' :: cs) := by
    simp [List.span_eq_takeWhile_dropWhile]
  rw [plainFrom, hspan]
  dsimp only
  rw [htag]
  dsimp only
  rw [hopen]
  simp

/-- What is shown of markup has every reason in which no tag ends a style. -/
def ShowsReasons (plain : String → Option String) : Prop :=
  ∀ reason, ¬ Closes reason.toList → (plain (Ending.reasonMarkup reason)).isSome = true

theorem showsReasons_plain? : ShowsReasons plain? := by
  intro reason h
  show (plain? ("[red]Configuration error:[/red] " ++ reason)).isSome = true
  rw [plain?, Option.isSome_map]
  have htext : ("[red]Configuration error:[/red] " ++ reason).toList =
      '[' :: ("red]".toList ++ ("Configuration error:".toList ++
        ('[' :: ("/red]".toList ++ (" ".toList ++ reason.toList))))) := by
    rw [String.toList_append]
    rfl
  have hfuel : ("[red]Configuration error:[/red] " ++ reason).length + 1 =
      reason.length + 10 + " ".toList.length + 1 + "Configuration error:".toList.length + 1 := by
    have hwhole : "[red]Configuration error:[/red] ".length = 32 := rfl
    have hword : "Configuration error:".toList.length = 20 := rfl
    have hblank : " ".toList.length = 1 := rfl
    rw [String.length_append, hwhole, hword, hblank]
    omega
  have hstart : ∀ cs, tag? ('[' :: ("red]".toList ++ cs)) = some ("[red]".toList, cs) := fun _ => rfl
  have hend : ∀ cs, tag? ('[' :: ("/red]".toList ++ cs)) = some ("[/red]".toList, cs) := fun _ => rfl
  have hstarted : openStyles? [] "[red]".toList = some ["red".toList] := by decide +kernel
  have hended : openStyles? ["red".toList] "[/red]".toList = some [] := by decide +kernel
  rw [htext, hfuel, plainFrom_tag (hstart _) hstarted, plainFrom_word (by decide),
    plainFrom_tag (hend _) hended, plainFrom_word (by decide), Option.isSome_map, Option.isSome_map]
  exact isSome_plainFrom h _ _

end Markup

variable {w : Workspace} {p : Path} {bytes : ByteArray} {text : String} {e : SettingsFailure}
  {ending : Ending} {read : String → Except String Value} {readers : Readers}
  {plain : String → Option String} {directory : Option Path}

/-! ## Commands -/

namespace Command

/-- How commands end that are given a configuration file, with what reads files and what shows
markup. -/
inductive Ends (readers : Readers) (plain : String → Option String) (w : Workspace) (p : Path) :
    Ending → Prop
  | check (r : CheckRequest) (h : r.config = some p) :
    Ends readers plain w p (check readers plain w r)
  | rules (asJson : Bool) : Ends readers plain w p (rules readers plain w (some p) asJson)
  | dump (file : Path) : Ends readers plain w p (dump readers plain w (some p) file)

/-- A command without a configuration ends by what is wrong with the file. -/
theorem Ends.eq_of_error (h : Ends readers plain w p ending)
    (he : Configuration.loadWith readers.yaml w (some p) directory = .error e) :
    ending = .ofSettingsFailure plain e := by
  have hload : ∀ directory, Configuration.loadWith readers.yaml w (some p) directory = .error e :=
    fun _ => he
  cases h with
  | check r h => rw [Command.check, h, hload]
  | rules asJson => rw [Command.rules, hload]
  | dump file => rw [Command.dump, hload]

end Command

/-! ## Files -/

namespace Configuration

variable {entries : List (Value × Value)}

/-- An attempt to get a configuration is answered: with one, or with an error that tells the user what
is wrong. -/
def IsAnswered (attempt : Except SettingsFailure Configuration) : Prop :=
  ∀ e, attempt = .error e → e.isReported = true

theorem loadWith_undecodable (hbytes : w.bytes? p = some bytes) (h : Text.ofBytes? bytes = none) :
    loadWith read w (some p) directory = .error (.notText p) := by
  rw [loadWith, ofFile, hbytes]
  dsimp only
  rw [ofBytes, h]

theorem loadWith_text (hbytes : w.bytes? p = some bytes) (htext : Text.ofBytes? bytes = some text) :
    loadWith read w (some p) directory = ofReading p (read text) := by
  rw [loadWith, ofFile, hbytes]
  dsimp only
  rw [ofBytes, htext]

theorem isAnswered_mapError {x : Except ConfigError Configuration} (h : Reported x) :
    IsAnswered (x.mapError .invalid) := by
  cases x with
  | ok c => exact nofun
  | error e =>
    rintro _ ⟨⟩
    exact h e rfl

theorem isAnswered_loadWith (hbytes : w.bytes? p = some bytes)
    (htext : Text.ofBytes? bytes = some text)
    (h : ∀ v, read text = .ok v → v.isWritable = true ∧ NamesOptions v) :
    IsAnswered (loadWith read w (some p) directory) := by
  rw [loadWith_text hbytes htext]
  cases hread : read text with
  | error reason =>
    rintro _ ⟨⟩
    rfl
  | ok v =>
    obtain ⟨hwritable, hnames⟩ := h v hread
    rw [ofReading]
    split
    · exact isAnswered_mapError (reported_ofValue hnames (showsWritable_of_isWritable hwritable))
    · exact isAnswered_mapError (reported_ok standard)

/-- Unknown options cannot be listed if one of them is not a text. -/
theorem checkKeys_notNamed {rule : Option String} {known : List String}
    (h : ¬ NamedByTexts entries) :
    checkKeys rule known entries = .error (.optionNotText rule) := by
  obtain ⟨key, hkey, hnotText⟩ : ∃ key ∈ entries.map Prod.fst, ¬ ∃ name, key = .str name := by
    simpa only [NamedByTexts, not_forall, exists_prop] using h
  have hunknown : key ∈ (entries.map (·.1)).filter fun key =>
      !known.any fun name => key.isText name := by
    rw [List.mem_filter]
    refine ⟨hkey, ?_⟩
    rw [Bool.not_eq_true', Bool.eq_false_iff, ne_eq, List.any_eq_true]
    rintro ⟨name, -, hname⟩
    exact hnotText ⟨name, Value.isText_iff.mp hname⟩
  rw [checkKeys]
  split
  · next hnil =>
    rw [hnil] at hunknown
    cases hunknown
  · split
    · next names hnames =>
      rw [texts?_eq_some_iff.mp hnames] at hunknown
      obtain ⟨name, -, hname⟩ := List.mem_map.mp hunknown
      exact absurd ⟨name, hname.symm⟩ hnotText
    · rfl

theorem loadWith_notNamed (hbytes : w.bytes? p = some bytes)
    (htext : Text.ofBytes? bytes = some text) (hv : read text = .ok (.map entries))
    (h : ¬ NamedByTexts entries) :
    loadWith read w (some p) directory = .error (.invalid (.optionNotText none)) := by
  have htruthy : (Value.map entries).isTruthy = true := by
    cases entries with
    | nil => exact absurd (by simp [NamedByTexts]) h
    | cons entry rest => rfl
  rw [loadWith_text hbytes htext, hv, ofReading, if_pos htruthy, ofValue, ofMap, checkKeys_notNamed h]
  rfl

/-- **What a configuration file of any content gives**, where a reader gives the value of a text or
the reason why it has none. A file that is no text is not answered, and neither is one with an option
that is not named by a text. One is answered if its value can be written and names all options by
texts. Without a configuration, commands that are given the file come to an accident if there is no
answer; and where markup is shown if no tag ends a style, they end with the exit code for configurations
that cannot be used on such an answer. -/
theorem load_answers (hbytes : w.bytes? p = some bytes) (readers : Readers)
    (directory : Option Path) :
    (Text.ofBytes? bytes = none → ¬ IsAnswered (loadWith readers.yaml w (some p) directory)) ∧
    (∀ text, Text.ofBytes? bytes = some text →
      (∀ entries, readers.yaml text = .ok (.map entries) → ¬ NamedByTexts entries →
        ¬ IsAnswered (loadWith readers.yaml w (some p) directory)) ∧
      ((∀ v, readers.yaml text = .ok v → v.isWritable = true ∧ NamesOptions v) →
        IsAnswered (loadWith readers.yaml w (some p) directory))) ∧
    ∀ e, loadWith readers.yaml w (some p) directory = .error e →
      ∀ plain ending, Command.Ends readers plain w p ending →
        (Markup.ShowsReasons plain → e.isReported = true → ¬ Markup.Closes e.message.toList →
          ending = .ended Ending.unusable) ∧
        (e.isReported = false → ending = .accident) := by
  refine ⟨fun hbad hanswered => ?_, fun text htext => ⟨fun entries hv hnames hanswered => ?_, ?_⟩,
    fun e he plain ending hending => ?_⟩
  · cases hanswered _ (loadWith_undecodable hbytes hbad)
  · cases hanswered _ (loadWith_notNamed hbytes htext hv hnames)
  · exact isAnswered_loadWith hbytes htext
  · rw [hending.eq_of_error he, Ending.ofSettingsFailure]
    refine ⟨fun hplain hreported hcloses => ?_, fun haccident => ?_⟩
    · rw [if_pos hreported, Ending.misconfigured, if_pos (hplain _ hcloses)]
    · rw [if_neg (Bool.eq_false_iff.mp haccident)]

/-- A directory with a configuration file. -/
def configuredWorkspace (bytes : ByteArray) : Workspace where
  tree := .directory [("c.yml", .file bytes)]
  current := []

/-- The path of the configuration file. -/
def configuredPath : Path := ⟨"", ["c.yml"]⟩

/-- What reads a single text. -/
def jobsReaders : Readers where
  yaml text := if text = "jobs: 0\n" then .ok (.map [(.str "jobs", .int 0)]) else .error "unknown text"
  named := .empty

/-- A number of workers that is not positive is answered. -/
theorem load_zeroJobs :
    IsAnswered (loadWith jobsReaders.yaml (configuredWorkspace "jobs: 0\n".toUTF8) (some configuredPath)
      none) ∧
    Command.rules jobsReaders Markup.plain? (configuredWorkspace "jobs: 0\n".toUTF8)
      (some configuredPath) true = .ended Ending.unusable := by
  have hbytes : (configuredWorkspace "jobs: 0\n".toUTF8).bytes? configuredPath =
      some "jobs: 0\n".toUTF8 := by decide +kernel
  have htext : Text.ofBytes? "jobs: 0\n".toUTF8 = some "jobs: 0\n" := by decide +kernel
  have hread : jobsReaders.yaml "jobs: 0\n" = .ok (.map [(.str "jobs", .int 0)]) := by
    simp only [jobsReaders, if_true]
  have herror : loadWith jobsReaders.yaml (configuredWorkspace "jobs: 0\n".toUTF8)
      (some configuredPath) none = .error (.invalid .jobsNotPositive) := by
    rw [loadWith_text hbytes htext, hread]
    rfl
  obtain ⟨-, hanswered, hending⟩ := load_answers hbytes jobsReaders none
  refine ⟨(hanswered _ htext).2 fun v hv => ?_, ?_⟩
  · rw [hread] at hv
    cases hv
    refine ⟨by decide +kernel, ?_, ?_⟩
    · rintro _ ⟨⟩ key hkey
      exact ⟨"jobs", List.mem_singleton.mp hkey⟩
    · exact nofun
  · exact (hending _ herror _ _ (.rules true)).1 Markup.showsReasons_plain? rfl (by decide +kernel)

/-- A file that is no text, one with an option that is no text, and one with an option that ends a
style: none of them ends with the exit code for configurations that cannot be used. -/
theorem not_load_undecodable :
    ¬ IsAnswered (load (configuredWorkspace ⟨#[0xff]⟩) (some configuredPath) none) ∧
    Command.rules Command.readers Markup.plain? (configuredWorkspace ⟨#[0xff]⟩) (some configuredPath)
      true = .accident ∧
    Command.rules Command.readers Markup.plain? (configuredWorkspace "1: 2\n".toUTF8)
      (some configuredPath) true = .accident ∧
    Command.rules Command.readers Markup.plain? (configuredWorkspace "'[/x]': 2\n".toUTF8)
      (some configuredPath) true = .accident := by
  refine ⟨fun hanswered => ?_, by decide +kernel, by decide +kernel, by decide +kernel⟩
  have hbytes : (configuredWorkspace ⟨#[0xff]⟩).bytes? configuredPath = some ⟨#[0xff]⟩ := by
    decide +kernel
  cases hanswered _ (loadWith_undecodable hbytes (by decide +kernel))

end Configuration

end ModelLint
