import ModelLint.Proofs.Configuration.Described
import ModelLint.Workspace.Survey

/-!
# A configuration is read back from what it shows

The listing of the rules shows their settings, with patterns in increasing order. A configuration can
be exported as a map of these settings by rule, beside its other options. What is read from the export
is the same configuration, except that phrases come in increasing order; and no analysis depends on
the order of phrases.

* `NameSet.ofList_of_pairwise`, `NameSet.perm_ofList`: increasing names are their own set, and a set
  only reorders different names.
* `Configuration.Normal`: what a configuration holds that is read.
* `Configuration.exported`: the export, made from the listing.
* `Survey.congr_phrases`: the order of phrases does not matter.
* **`Configuration.ofValue_exported`**: reading an export loses nothing.
-/

namespace ModelLint

/-! ## Sets of names -/

namespace NameSet

variable {name : String} {names s : List String}

theorem pairwise_insert (h : s.Pairwise (· < ·)) : (insert name s).Pairwise (· < ·) := by
  induction s with
  | nil => exact List.pairwise_singleton _ _
  | cons n rest ih =>
    obtain ⟨hfirst, hrest⟩ := List.pairwise_cons.mp h
    rw [insert]
    split
    · next hlt =>
      refine List.pairwise_cons.mpr ⟨List.forall_mem_cons.mpr ⟨hlt, fun m hm => ?_⟩, h⟩
      exact String.lt_trans hlt (hfirst m hm)
    · next hle =>
      split
      · exact h
      · next hne =>
        refine List.pairwise_cons.mpr ⟨fun m hm => ?_, ih hrest⟩
        rcases mem_insert.mp hm with rfl | hm
        · exact String.not_le.mp fun hge => hne (String.le_antisymm hge (String.not_lt.mp hle))
        · exact hfirst m hm

theorem pairwise_ofList (names : List String) : (ofList names).Pairwise (· < ·) := by
  induction names with
  | nil => exact List.Pairwise.nil
  | cons name rest ih => exact pairwise_insert ih

theorem ofList_of_pairwise (h : s.Pairwise (· < ·)) : ofList s = s := by
  induction s with
  | nil => rfl
  | cons n rest ih =>
    obtain ⟨hfirst, hrest⟩ := List.pairwise_cons.mp h
    rw [ofList, List.foldr_cons, ← ofList, ih hrest]
    cases rest with
    | nil => rfl
    | cons m rest => rw [insert, if_pos (hfirst m List.mem_cons_self)]

theorem perm_insert (h : name ∉ s) : (insert name s).Perm (name :: s) := by
  induction s with
  | nil => exact .refl _
  | cons n rest ih =>
    obtain ⟨hne, hrest⟩ := not_or.mp (mt List.mem_cons.mpr h)
    rw [insert, if_neg hne]
    split
    · exact .refl _
    · exact ((ih hrest).cons n).trans (.swap name n rest)

theorem perm_ofList (h : names.Nodup) : (ofList names).Perm names := by
  induction names with
  | nil => exact .refl _
  | cons name rest ih =>
    obtain ⟨hname, hrest⟩ := List.nodup_cons.mp h
    rw [ofList, List.foldr_cons, ← ofList]
    exact (perm_insert (mt mem_ofList.mp hname)).trans ((ih hrest).cons name)

end NameSet

/-! ## The order of phrases -/

section Phrases

variable {phrases phrases' : List String} (h : phrases.Perm phrases')

include h

theorem Suppression.covers_congr (comment ruleId : String) :
    covers comment phrases ruleId = covers comment phrases' ruleId := by
  rw [covers, covers, Bool.eq_iff_iff, List.any_eq_true, List.any_eq_true]
  exact exists_congr fun phrase => and_congr_left fun _ => h.mem_iff

theorem Rule.outcome_congr_phrases (r : Rule) (m : Model) (n : NodeId) :
    r.outcome phrases m n = r.outcome phrases' m n := by
  have hline : ∀ comments line, Suppression.coversLine comments phrases r.id line =
      Suppression.coversLine comments phrases' r.id line := by
    intro comments line
    unfold Suppression.coversLine
    simp only [Suppression.covers_congr h]
  unfold Rule.outcome
  simp only [hline]

theorem Rule.evaluateAll_congr_phrases (rules : List Rule) (m : Model) :
    evaluateAll rules phrases m = evaluateAll rules phrases' m := by
  unfold evaluateAll evaluate
  simp only [Rule.outcome_congr_phrases h]

theorem Configuration.analyze_congr_phrases (c : Configuration) (m : Model) :
    analyze { c with phrases } m = analyze { c with phrases := phrases' } m := by
  show c.buildRules.map _ = c.buildRules.map _
  congr 1
  funext rules
  exact Rule.evaluateAll_congr_phrases h rules m

theorem Survey.outcome_congr_phrases (read : Readers) (w : Workspace)
    (c : Configuration) (rules : List Rule) (p : Path) :
    outcome read w { c with phrases } rules p =
      outcome read w { c with phrases := phrases' } rules p := by
  unfold outcome
  simp only [Rule.evaluateAll_congr_phrases h]

/-- **The order of phrases does not matter** for a report on files and for a run. -/
theorem Survey.congr_phrases (read : Readers) (w : Workspace)
    (c : Configuration) (more : List String) (paths : List Path) :
    ofPaths read w { c with phrases } more paths =
        ofPaths read w { c with phrases := phrases' } more paths ∧
      run read w { c with phrases } more paths =
        run read w { c with phrases := phrases' } more paths := by
  have houtcome : ∀ rules, outcome read w { c with phrases } rules =
      outcome read w { c with phrases := phrases' } rules := fun rules =>
    funext (outcome_congr_phrases h read w c rules)
  have hchecked : ∀ rules, checkedOutcome read w { c with phrases } rules =
      checkedOutcome read w { c with phrases := phrases' } rules := fun rules => by
    funext p
    unfold checkedOutcome
    rw [houtcome]
  unfold ofPaths run
  simp only [houtcome, hchecked]
  exact ⟨rfl, rfl⟩

end Phrases

/-! ## What is read -/

/-- A pattern list in increasing order. -/
structure Configuration.IsPatternSet (set : NameSet) : Prop extends IsPatternList set where
  /-- The patterns are increasing. -/
  increasing : set.Pairwise (· < ·)

/-- Settings have the pattern lists of a rule, each of them in increasing order. -/
structure RuleDefinition.Normal (d : RuleDefinition) (s : RuleSettings) : Prop where
  /-- The settings have the pattern lists of the rule. -/
  fits : d.Fits s
  /-- Every pattern list is in increasing order. -/
  lists : ∀ list ∈ s.patterns, Configuration.IsPatternSet list.2

namespace Configuration

variable {α : Type} {c : Configuration} {v : Value} {set : NameSet} {names : List String}
  {entries : List (Value × Value)} {items : List Value} {name place : String}
  {rule : Option String} {d : RuleDefinition} {s : RuleSettings}

/-- **What a configuration holds** that is read from a value. -/
structure Normal (c : Configuration) : Prop where
  /-- The settings are those of the registered rules, in the order of the registry. -/
  rules : List.Forall₂ (fun d entry => entry.1 = d.id ∧ d.Normal entry.2) Registry.definitions c.rules
  /-- The phrases are patterns without repetition. -/
  phrases : IsPatternList c.phrases ∧ c.phrases.Nodup
  /-- The names of locks are patterns in increasing order. -/
  lockPatterns : IsPatternSet c.lockPatterns
  /-- There is a worker. -/
  jobs : 1 ≤ c.jobs

theorem IsPatternSet.nodup (h : IsPatternSet set) : set.Nodup :=
  h.increasing.imp fun {a b} (hlt : a < b) (heq : a = b) => String.lt_irrefl b (heq ▸ hlt)

theorem ensures_patternSetOf : Ensures (patternSetOf place items) IsPatternSet := by
  intro set h
  obtain ⟨texts, -, rfl, hpatterns⟩ := exists_of_patternSetOf h
  exact ⟨hpatterns, NameSet.pairwise_ofList _⟩

theorem ensures_patternSet : Ensures (patternSet place v) IsPatternSet := by
  rw [patternSet.eq_def]
  split
  · exact ensures_patternSetOf
  · exact ensures_patternSetOf
  · exact ensures_error

theorem forall_mem_replace {P : String × α → Prop} {acc : List (String × α)} {a : α}
    (hput : P (name, a)) (hacc : ∀ entry ∈ acc, P entry) : ∀ entry ∈ replace name a acc, P entry := by
  rw [replace, List.forall_mem_map]
  intro entry hentry
  dsimp only
  split
  · next hname => exact hname ▸ hput
  · exact hacc entry hentry

theorem isPatternSet_default : (∀ d ∈ Registry.definitions, ∀ list ∈ d.patterns,
    IsPatternSet list.2) ∧ IsPatternSet defaultLockPatterns := by
  have hsets : ∀ d ∈ Registry.definitions, ∀ list ∈ d.patterns, NameSet.ofList list.2 = list.2 := by
    decide +kernel
  refine ⟨fun d hd list hlist => ⟨isPatternList_default.1 d hd list hlist, ?_⟩,
    isPatternList_default.2.2, NameSet.pairwise_ofList _⟩
  rw [← hsets d hd list hlist]
  exact NameSet.pairwise_ofList _

section Rules

variable (hd : d ∈ Registry.definitions)

include hd

theorem normal_default : d.Normal d.defaultSettings where
  fits := d.fits_defaultSettings
  lists := isPatternSet_default.1 d hd

theorem ensures_lists_patternsOf : Ensures (patternsOf d v) fun patterns =>
    ∀ list ∈ patterns, IsPatternSet list.2 := by
  have hdefault := isPatternSet_default.1 d hd
  have hput : ∀ name place (items : List Value), Ensures (patternSetOf place items >>= fun set =>
      .ok (replace name set d.patterns)) fun patterns => ∀ list ∈ patterns, IsPatternSet list.2 :=
    fun name place items => ensures_patternSetOf.bind fun set hset =>
      ensures_ok (forall_mem_replace hset hdefault)
  rw [patternsOf.eq_def]
  split
  · exact ensures_ok hdefault
  · exact hput _ _ _
  · exact hput _ _ _
  · refine ensures_putAll (P := fun patterns => ∀ list ∈ patterns, IsPatternSet list.2) hdefault
      fun key v => ?_
    rw [namedPatterns]
    split
    · exact ensures_error
    · exact ensures_patternSet.bind fun set hset => ensures_ok fun acc hacc =>
        forall_mem_replace hset hacc
  · exact ensures_error

theorem ensures_normal_ruleFromMap : Ensures (ruleFromMap d entries) d.Normal := by
  intro s h
  obtain ⟨-, -, -, hpatterns⟩ := ruleFromMap_eq_ok_iff.mp h
  refine ⟨ensures_ruleFromMap s h, ?_⟩
  exact ensures_option (isPatternSet_default.1 d hd) (fun v => ensures_lists_patternsOf hd) _ hpatterns

theorem ensures_normal_ruleFromValue : Ensures (ruleFromValue d v) d.Normal := by
  unfold ruleFromValue
  split
  · exact ensures_normal_ruleFromMap hd
  · exact ensures_normal_ruleFromMap hd
  · exact ensures_error

end Rules

/-- **A configuration that is read** has different patterns in each list, and those that are sets in
increasing order. -/
theorem normal_ofValue (h : ofValue v = .ok c) : Normal c := by
  cases v with
  | map entries =>
    obtain ⟨-, hrules, hphrases, hlocks, -, hjobs, -⟩ := ofMap_eq_ok_iff.mp h
    refine ⟨?_, ?_, ?_, ?_⟩
    · have hdefault : ∀ d ∈ Registry.definitions, d.Normal d.defaultSettings :=
        fun d hd => normal_default hd
      exact ensures_option (settings_standard hdefault)
        (fun v => ensures_settings hdefault fun d hd v => ensures_normal_ruleFromValue hd) _ hrules
    · exact ensures_option (P := fun phrases => IsPatternList phrases ∧ phrases.Nodup)
        ⟨isPatternList_default.2.1, by decide⟩
        (fun v phrases hv => ⟨(ensures_patternSet phrases hv).toIsPatternList,
          (ensures_patternSet phrases hv).nodup⟩) _ hphrases
    · exact ensures_option isPatternSet_default.2 (fun v => ensures_patternSet) _ hlocks
    · exact ensures_option (P := fun jobs => 1 ≤ jobs) (by decide)
        (fun v jobs hv => (jobsOf_eq_ok hv).2) _ hjobs
  | _ => cases h

/-! ## The export -/

/-- The value that lists texts. -/
def textsValue (texts : List String) : Value := .list (texts.map .str)

/-- A record of the listing as an entry of a map of rules: the name, and what stands under options. -/
def listed (v : Value) : Value × Value :=
  ((v.at? ["id"]).getD .null, .record (ruleOptions.map fun name => (name, (v.at? [name]).getD .null)))

/-- The map of rules with what the listing says. -/
def listedRules (c : Configuration) : Value :=
  match c.rulesValue with
  | .list items => .map (items.map listed)
  | v => v

/-- **The export** of a configuration: the rules as they are listed, beside the other options. -/
def exported (c : Configuration) : Value := .record [
  ("rules", c.listedRules),
  ("suppression_phrases", textsValue c.phrases),
  ("lock_patterns", textsValue c.lockPatterns),
  ("exclude", textsValue c.exclude),
  ("jobs", .int c.jobs),
  ("fail_on", .str c.failOn.name)]

/-- The settings of a rule under their options. -/
def settingsValue (s : RuleSettings) : Value := .record [
  ("severity", .str s.severity.name),
  ("enabled", .bool s.enabled),
  ("patterns", .record (s.patterns.map fun list => (list.1, textsValue list.2)))]

theorem listedRules_eq : c.listedRules =
    .record (c.rules.map fun entry => (entry.1, settingsValue entry.2)) := by
  unfold listedRules rulesValue Value.record
  dsimp only
  rw [List.map_map, List.map_map]
  congr 1

theorem texts?_map_str (texts : List String) : texts? (texts.map .str) = some texts :=
  texts?_eq_some_iff.mpr rfl

theorem patternSet_textsValue (h : IsPatternList names) :
    patternSet place (textsValue names) = .ok (NameSet.ofList names) := by
  have htrimmed : names.map Text.trimmed = names :=
    (List.map_congr_left fun name hname => (h.trimmed name hname).2).trans (List.map_id names)
  have hall : names.all (· ≠ "") = true :=
    List.all_eq_true.mpr fun name hname => decide_eq_true (h.trimmed name hname).1
  have hsome : ¬(names.map Value.str).isEmpty = true := by
    rw [List.isEmpty_map, List.isEmpty_iff]
    exact h.nonempty
  show patternSetOf place (names.map .str) = _
  rw [patternSetOf, if_neg hsome, texts?_map_str]
  simp only [htrimmed, hall, if_true]

theorem severityOf_name (severity : Severity) : severityOf rule (.str severity.name) = .ok severity := by
  have hname : Severity.ofValue? (.str severity.name) = some severity := by
    cases severity <;> decide +kernel
  rw [severityOf, hname]

theorem excludeOf_textsValue (globs : List String) : excludeOf (textsValue globs) = .ok globs := by
  rw [textsValue, excludeOf, texts?_map_str]

/-- What is put in the place of everything that it is read from is what comes out. -/
theorem putAll_written {read : Value → Value → Except ConfigError (String × α)} {write : α → Value}
    {acc named : List (String × α)} (hnames : named.map Prod.fst = acc.map Prod.fst)
    (hdistinct : (acc.map Prod.fst).Nodup)
    (hput : ∀ name v put, read (.str name) v = .ok put → put.1 = name)
    (hread : ∀ entry ∈ named, read (.str entry.1) (write entry.2) = .ok entry) :
    putAll read (named.map fun entry => (.str entry.1, write entry.2)) acc = .ok named := by
  have hkeys : Value.TextKeys (named.map fun entry => (.str entry.1, write entry.2)) := by
    have hfirst : (named.map fun entry => (Value.str entry.1, write entry.2)).map Prod.fst =
        (acc.map Prod.fst).map .str := by
      rw [← hnames, List.map_map, List.map_map]
      rfl
    constructor
    · rw [hfirst, List.forall_mem_map]
      exact fun name _ => ⟨name, rfl⟩
    · rw [hfirst]
      exact hdistinct.map fun a b => Value.str.inj
  have hpaired : List.Forall₂ (fun old new => new ∈ named ∧ new.1 = old.1) acc named := by
    have hsame : List.Forall₂ (fun new old : String × α => new.1 = old.1) named acc := by
      rw [← List.forall₂_eq_eq_eq, List.forall₂_map_left_iff, List.forall₂_map_right_iff] at hnames
      exact hnames
    exact ((List.forall₂_and_left _ _).mpr ⟨fun _ hnew => hnew, hsame⟩).flip
  rw [putAll_eq_ok_iff hkeys hput]
  refine ⟨?_, hpaired.imp ?_⟩
  · rw [List.forall_mem_map]
    exact fun entry hentry => ⟨entry, hread entry hentry⟩
  · rintro old new ⟨hnew, hname⟩
    refine ⟨hname, ?_⟩
    rw [← hname, Value.lookup_of_mem hkeys (List.mem_map_of_mem hnew), used_some]
    exact hread new hnew

theorem namedPatterns_textsValue {list : String × NameSet} (hs : d.Normal s) (hlist : list ∈ s.patterns) :
    namedPatterns d (.str list.1) (textsValue list.2) = .ok list := by
  have hknown : list.1 ∈ d.patterns.map Prod.fst := by
    rw [← hs.fits]
    exact List.mem_map_of_mem hlist
  obtain ⟨default, hdefault, hname⟩ := List.mem_map.mp hknown
  have hset := hs.lists list hlist
  rw [namedPatterns]
  split
  · next hnone =>
    have hother := List.find?_eq_none.mp hnone default hdefault
    exact absurd (Value.isText_iff.mpr (congrArg Value.str hname.symm)) hother
  · next found hfound =>
    have hsame : list.1 = found.1 := Value.str.inj (Value.isText_iff.mp
      (List.find?_some (p := fun found : String × NameSet => (Value.str list.1).isText found.1) hfound))
    rw [patternSet_textsValue hset.toIsPatternList, NameSet.ofList_of_pairwise hset.increasing, ← hsame]
    rfl

theorem patternsOf_written (hd : d ∈ Registry.definitions) (hs : d.Normal s) :
    patternsOf d (.record (s.patterns.map fun list => (list.1, textsValue list.2))) =
      .ok s.patterns := by
  have hdistinct : ∀ d ∈ Registry.definitions, (d.patterns.map Prod.fst).Nodup := by decide +kernel
  show putAll (namedPatterns d) (List.map _ (s.patterns.map fun list => _)) d.patterns = _
  rw [List.map_map]
  exact putAll_written hs.fits (hdistinct d hd) (fun _ _ _ hput => (namedPatterns_eq_ok hput).1)
    fun list hlist => namedPatterns_textsValue hs hlist

theorem ruleFromValue_settingsValue (hd : d ∈ Registry.definitions) (hs : d.Normal s) :
    ruleFromValue d (settingsValue s) = .ok s := by
  refine ruleFromMap_eq_ok_iff.mpr ⟨?_, ?_, ?_, ?_⟩
  · rw [checkKeys_eq_ok_iff]
    simp [ruleOptions]
  · rw [option_eq_ok_iff]
    exact used_some.mpr (severityOf_name s.severity)
  · rw [option_eq_ok_iff]
    exact used_some.mpr rfl
  · rw [option_eq_ok_iff]
    exact used_some.mpr (patternsOf_written hd hs)

theorem rulesOf_listedRules (hc : Normal c) : rulesOf c.listedRules = .ok c.rules := by
  have hfit : Registry.Fit c.rules := hc.rules.imp fun d entry h => ⟨h.1, h.2.fits⟩
  have hstandard : standard.rules.map Prod.fst = Registry.definitions.map (·.id) := by
    rw [standard, List.map_map]
    rfl
  rw [listedRules_eq]
  show putAll namedRule (List.map _ (c.rules.map fun entry => _)) standard.rules = _
  rw [List.map_map]
  refine putAll_written (hfit.map_fst_eq.trans hstandard.symm) (hstandard ▸ by decide +kernel)
    (fun _ _ _ hput => (namedRule_eq_ok hput).1) fun entry hentry => ?_
  obtain ⟨d, hd, hid, hs⟩ := exists_mem_of_forall₂ hc.rules entry hentry
  have hfind : Registry.definitions.find? (fun d => (Value.str entry.1).isText d.id) = some d := by
    have hsame : (fun d : RuleDefinition => (Value.str entry.1).isText d.id) =
        fun d => d.id == entry.1 := by
      funext d
      exact BEq.comm
    rw [hsame]
    exact Registry.find?_eq_some.mpr ⟨hd, hid.symm⟩
  rw [namedRule, hfind]
  dsimp only
  rw [ruleFromValue_settingsValue hd hs, ← hid]
  rfl

/-- **Reading an export loses nothing**: a configuration that is read is read back from its export up
to the order of its phrases, and no analysis depends on that order. -/
theorem ofValue_exported (h : ofValue v = .ok c) :
    (∃ phrases, phrases.Perm c.phrases ∧ ofValue c.exported = .ok { c with phrases }) ∧
      ∀ phrases, phrases.Perm c.phrases →
        (∀ m, analyze { c with phrases } m = c.analyze m) ∧
          ∀ read w more paths,
            Survey.ofPaths read w { c with phrases } more paths = Survey.ofPaths read w c more paths ∧
              Survey.run read w { c with phrases } more paths = Survey.run read w c more paths := by
  have hc := normal_ofValue h
  constructor
  · refine ⟨NameSet.ofList c.phrases, NameSet.perm_ofList hc.phrases.2, ?_⟩
    refine ofMap_eq_ok_iff.mpr ⟨?_, ?_, ?_, ?_, ?_, ?_, ?_⟩
    · rw [checkKeys_eq_ok_iff]
      simp [options]
    · rw [option_eq_ok_iff]
      exact used_some.mpr (rulesOf_listedRules hc)
    · rw [option_eq_ok_iff]
      exact used_some.mpr (patternSet_textsValue hc.phrases.1)
    · rw [option_eq_ok_iff]
      have hlocks := NameSet.ofList_of_pairwise hc.lockPatterns.increasing
      exact used_some.mpr ((patternSet_textsValue hc.lockPatterns.toIsPatternList).trans
        (congrArg Except.ok hlocks))
    · rw [option_eq_ok_iff]
      exact used_some.mpr (excludeOf_textsValue c.exclude)
    · rw [option_eq_ok_iff]
      exact used_some.mpr (if_neg (Int.not_lt.mpr hc.jobs))
    · rw [option_eq_ok_iff]
      exact used_some.mpr (severityOf_name c.failOn)
  · exact fun phrases hperm => ⟨analyze_congr_phrases hperm c,
      fun read w more paths => Survey.congr_phrases hperm read w c more paths⟩

/-- Phrases with blanks and repetitions, beside rules with other patterns. -/
theorem ofValue_exported_tunedRules : ∃ c, ofValue (.record [("rules", tunedRules),
    ("suppression_phrases", .list [.str " quiet ", .str "hush", .str "quiet"])]) = .ok c ∧
    c.phrases = ["hush", "quiet"] ∧
    (∃ phrases, phrases.Perm c.phrases ∧ ofValue c.exported = .ok { c with phrases }) ∧
      ∀ phrases, phrases.Perm c.phrases →
        (∀ m, analyze { c with phrases } m = c.analyze m) ∧
          ∀ read w more paths,
            Survey.ofPaths read w { c with phrases } more paths = Survey.ofPaths read w c more paths ∧
              Survey.run read w { c with phrases } more paths = Survey.run read w c more paths := by
  have hphrases : (ofValue (.record [("rules", tunedRules),
      ("suppression_phrases", .list [.str " quiet ", .str "hush", .str "quiet"])])).toOption.map
        Configuration.phrases = some ["hush", "quiet"] := by
    decide +kernel
  cases hread : ofValue (.record [("rules", tunedRules),
      ("suppression_phrases", .list [.str " quiet ", .str "hush", .str "quiet"])]) with
  | error e =>
    rw [hread] at hphrases
    cases hphrases
  | ok c =>
    rw [hread] at hphrases
    exact ⟨c, rfl, Option.some.inj hphrases, ofValue_exported hread⟩

end Configuration

end ModelLint
