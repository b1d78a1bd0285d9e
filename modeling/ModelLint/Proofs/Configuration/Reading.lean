import Mathlib.Data.List.DropRight
import Mathlib.Data.List.Forall2
import ModelLint.Proofs.Data.Records
import ModelLint.Proofs.Rules.Settings

/-!
# Reading a configuration

What each reader of a part of a configuration accepts, and what it makes of it.

* `Text.trimmed_trimmed`: texts are trimmed once.
* `Configuration.Used`: the value of an option is what is given for it, or else the default.
* `Configuration.option_eq_ok_iff`, `putAll_eq_ok_iff`: what is read under a key of a map, and what is
  put in the place of entries with the same name.
* `Configuration.IsPatternList`: what pattern lists hold.
* `Configuration.Reported`: every error of a reader is an answer to the user.
* `Configuration.NamesOptions`: options are named by texts.
* `Configuration.ShowsWritable`: what messages show of a value can be written.
* **`Configuration.reported_ofValue`**: values that name options by texts, and of which messages show
  what can be written, give a configuration or an error that is an answer to the user.
-/

namespace ModelLint

/-! ## Texts -/

namespace Text

variable {c : Char} {cs : List Char} {s : String}

theorem dropEndWhile_eq_rdropWhile (p : Char → Bool) (cs : List Char) :
    dropEndWhile p cs = cs.rdropWhile p := rfl

theorem trim_trim (cs : List Char) : trim (trim cs) = trim cs := by
  simp only [trim, dropEndWhile_eq_rdropWhile]
  have hstart : ((cs.dropWhile isBlank).rdropWhile isBlank).dropWhile isBlank =
      (cs.dropWhile isBlank).rdropWhile isBlank := by
    rw [List.dropWhile_eq_self_iff]
    intro hlength
    rw [(List.rdropWhile_prefix _ _).getElem hlength]
    exact List.dropWhile_get_zero_not _ _ _
  rw [hstart, List.rdropWhile_idempotent]

theorem trimmed_trimmed (s : String) : trimmed (trimmed s) = trimmed s := by
  rw [trimmed, trimmed, String.toList_ofList, trim_trim]

theorem mem_dropWhile_of_not {p : Char → Bool} (h : c ∈ cs) (hc : p c = false) :
    c ∈ cs.dropWhile p := by
  rw [← List.takeWhile_append_dropWhile (p := p) (l := cs), List.mem_append] at h
  exact h.resolve_left fun htake => by simp [List.mem_takeWhile_imp htake] at hc

theorem mem_trim (h : c ∈ cs) (hc : isBlank c = false) : c ∈ trim cs := by
  rw [trim, dropEndWhile, List.mem_reverse]
  exact mem_dropWhile_of_not (List.mem_reverse.mpr (mem_dropWhile_of_not h hc)) hc

theorem mem_lowerFrom (h : c ∈ cs) (hsigma : c ≠ '\u03A3') (hdotted : c ≠ '\u0130')
    (before : List Char) : lowerChar c ∈ lowerFrom before cs := by
  induction cs generalizing before with
  | nil => cases h
  | cons d rest ih =>
    rw [lowerFrom]
    rcases List.mem_cons.mp h with rfl | hrest
    · simp [hsigma, hdotted]
    · exact List.mem_append_right _ (ih hrest _)

end Text

/-- A text with a bracket or a zero names no severity. -/
theorem Severity.ofName?_of_foreign {c : Char} {text : String} (hc : c = '[' ∨ c = '\x7b' ∨ c = '0')
    (h : c ∈ text.toList) : Severity.ofName? text = none := by
  have hlower : Text.isBlank c = false ∧ c ≠ '\u03A3' ∧ c ≠ '\u0130' ∧ Text.lowerChar c = c := by
    rcases hc with rfl | rfl | rfl <;> decide +kernel
  obtain ⟨hblank, hsigma, hdotted, hsame⟩ := hlower
  have hmem : c ∈ (Text.lower (Text.trimmed text)).toList := by
    rw [Text.lower, String.toList_ofList, Text.trimmed, String.toList_ofList]
    exact hsame ▸ Text.mem_lowerFrom (Text.mem_trim h hblank) hsigma hdotted []
  rw [ofName?, List.find?_eq_none]
  intro s _ hname
  rw [← beq_iff_eq.mp hname] at hmem
  rcases hc with rfl | rfl | rfl <;> revert hmem <;> cases s <;> decide

namespace Configuration

variable {α : Type} {entries named : List (Value × Value)} {items : List Value} {texts : List String}
  {v : Value} {name place : String} {rule : Option String} {known : List String} {set : NameSet}
  {d : RuleDefinition}

/-! ## Keys and options -/

theorem texts?_eq_some_iff : texts? items = some texts ↔ items = texts.map .str := by
  induction items generalizing texts with
  | nil => cases texts <;> simp [texts?]
  | cons v rest ih =>
    have hrest : ∀ {s : String}, texts? (.str s :: rest) = (texts? rest).map (s :: ·) := by
      intro s
      rw [texts?, List.mapM_cons, texts?, Option.map_eq_bind]
      rfl
    cases v with
    | str s =>
      rw [hrest, Option.map_eq_some_iff]
      simp only [ih]
      constructor
      · rintro ⟨ts, rfl, rfl⟩
        rfl
      · intro h
        cases texts with
        | nil => cases h
        | cons t ts =>
          cases h
          exact ⟨ts, rfl, rfl⟩
    | _ => cases texts <;> simp [texts?, List.mapM_cons]

theorem checkKeys_eq_ok_iff : checkKeys rule known entries = .ok () ↔
    ∀ key ∈ entries.map Prod.fst, ∃ name ∈ known, key = .str name := by
  have hknown : ((entries.map (·.1)).filter fun key => !known.any fun name => key.isText name) = [] ↔
      ∀ key ∈ entries.map Prod.fst, ∃ name ∈ known, key = .str name := by
    rw [List.filter_eq_nil_iff]
    refine forall₂_congr fun key _ => ?_
    rw [Bool.not_eq_true', Bool.not_eq_false, List.any_eq_true]
    exact exists_congr fun name => and_congr_right fun _ => Value.isText_iff
  rw [← hknown, checkKeys]
  split
  · next hnil => simp [hnil]
  · next hcons => split <;> simpa using hcons

/-- The value of an option: what is said by the value that is given, or else the default. -/
def Used (given : Option Value) (default : α) (Says : Value → α → Prop) (a : α) : Prop :=
  (given = none → a = default) ∧ ∀ v, given = some v → Says v a

theorem used_none {default a : α} {Says : Value → α → Prop} :
    Used none default Says a ↔ a = default := by
  simp [Used]

theorem used_some {default a : α} {Says : Value → α → Prop} :
    Used (some v) default Says a ↔ Says v a := by
  simp [Used]

theorem Used.imp {given : Option Value} {default a : α} {Says Says' : Value → α → Prop}
    (h : Used given default Says a) (hmeans : ∀ v, Says v a → Says' v a) :
    Used given default Says' a :=
  ⟨h.1, fun v hv => hmeans v (h.2 v hv)⟩

theorem option_eq_ok_iff {default a : α} {read : Value → Except ConfigError α} :
    option entries name default read = .ok a ↔
      Used (Value.lookup entries name) default (fun v a => read v = .ok a) a := by
  rw [option]
  split
  · next hnone => rw [hnone, used_none, Except.ok.injEq, eq_comm]
  · next v hv => rw [hv, used_some]

theorem forall₂_iff {β : Type} {R S : α → β → Prop} {xs : List α} {ys : List β}
    (h : ∀ x y, R x y ↔ S x y) : List.Forall₂ R xs ys ↔ List.Forall₂ S xs ys :=
  ⟨List.Forall₂.imp fun x y => (h x y).mp, List.Forall₂.imp fun x y => (h x y).mpr⟩

theorem forall₂_replace_iff {β : Type} {a : α} {acc : List (String × α)} {R : String × α → β → Prop}
    {ys : List β} : List.Forall₂ R (replace name a acc) ys ↔
      List.Forall₂ (fun old y => (old.1 = name → R (name, a) y) ∧ (old.1 ≠ name → R old y))
        acc ys := by
  rw [replace, List.forall₂_map_left_iff]
  refine forall₂_iff fun old y => ?_
  by_cases hname : old.1 = name
  · simp [hname]
  · simp [hname]

theorem forall₂_replace {a : α} {acc : List (String × α)} {R : String × α → String × α → Prop}
    (hput : ∀ old ∈ acc, old.1 = name → R old (name, a))
    (hkeep : ∀ old ∈ acc, old.1 ≠ name → R old old) :
    List.Forall₂ R acc (replace name a acc) := by
  rw [replace, List.forall₂_map_right_iff, List.forall₂_same]
  intro old hold
  by_cases hname : old.1 = name
  · simpa [hname] using hput old hold hname
  · simpa [hname] using hkeep old hold hname

/-- **What is put in the place of named things**: everything that is given is read, and each thing is
what is given under its name, or else what it was. -/
theorem putAll_eq_ok_iff {read : Value → Value → Except ConfigError (String × α)}
    {acc result : List (String × α)} (hkeys : Value.TextKeys named)
    (hread : ∀ name v put, read (.str name) v = .ok put → put.1 = name) :
    putAll read named acc = .ok result ↔
      (∀ entry ∈ named, ∃ put, read entry.1 entry.2 = .ok put) ∧
        List.Forall₂ (fun old new => new.1 = old.1 ∧ Used (Value.lookup named old.1) old.2
          (fun v a => read (.str old.1) v = .ok (old.1, a)) new.2) acc result := by
  induction named generalizing acc with
  | nil =>
    have hsame : (fun old new : String × α => new.1 = old.1 ∧ Used (Value.lookup [] old.1) old.2
        (fun v a => read (.str old.1) v = .ok (old.1, a)) new.2) = Eq := by
      funext old new
      rw [Value.lookup_eq_none_iff.mpr (List.not_mem_nil), used_none, Prod.ext_iff]
      exact propext (and_congr eq_comm eq_comm)
    rw [hsame, List.forall₂_eq_eq_eq, putAll, Except.ok.injEq]
    simp
  | cons entry rest ih =>
    obtain ⟨key, v⟩ := entry
    obtain ⟨name, rfl⟩ : ∃ name, key = .str name := hkeys.texts key (by simp)
    have hfresh : Value.lookup rest name = none :=
      Value.lookup_eq_none_iff.mpr (List.nodup_cons.mp hkeys.nodup).1
    cases hput : read (.str name) v with
    | error e =>
      have hfail : putAll read ((.str name, v) :: rest) acc = .error e := by
        rw [putAll, hput]
        rfl
      simp [hfail, hput]
    | ok put =>
      obtain ⟨put, a⟩ := put
      obtain rfl : put = name := hread _ _ _ hput
      have hnext : putAll read ((.str put, v) :: rest) acc = putAll read rest (replace put a acc) := by
        rw [putAll, hput]
        rfl
      have hread : ∃ put', (Except.ok (put, a) : Except ConfigError (String × α)) = .ok put' := ⟨_, rfl⟩
      rw [hnext, ih hkeys.tail, forall₂_replace_iff, List.forall_mem_cons, hput, and_iff_right hread]
      refine and_congr_right fun _ => forall₂_iff fun old new => ?_
      by_cases hname : old.1 = put
      · rw [hname, Value.lookup_cons_of_eq rfl, hfresh, used_none, used_some, hput]
        simp [eq_comm]
      · have hne : (Value.str put, v).1 ≠ .str old.1 := fun heq => hname (Value.str.inj heq).symm
        simp [hname, Value.lookup_cons_of_ne hne]

/-! ## Pattern lists -/

/-- What a pattern list holds: at least one pattern, and patterns that are trimmed and not blank. -/
structure IsPatternList (set : NameSet) : Prop where
  /-- There is a pattern. -/
  nonempty : set ≠ []
  /-- Every pattern is a trimmed text that is not blank. -/
  trimmed : ∀ name ∈ set, name ≠ "" ∧ Text.trimmed name = name

/-- A value lists the patterns of a set, up to blanks around them. -/
def Lists (v : Value) (set : NameSet) : Prop :=
  ∃ texts : List String, v = .list (texts.map .str) ∧ set = NameSet.ofList (texts.map Text.trimmed)

theorem isPatternList_ofList (hsome : texts ≠ []) (h : ∀ text ∈ texts, Text.trimmed text ≠ "") :
    IsPatternList (NameSet.ofList (texts.map Text.trimmed)) where
  nonempty hnil := by
    obtain ⟨text, htext⟩ := List.exists_mem_of_ne_nil texts hsome
    have hmem := NameSet.mem_ofList.mpr (List.mem_map_of_mem (f := Text.trimmed) htext)
    rw [hnil] at hmem
    cases hmem
  trimmed name hname := by
    obtain ⟨text, htext, rfl⟩ := List.mem_map.mp (NameSet.mem_ofList.mp hname)
    exact ⟨h text htext, Text.trimmed_trimmed text⟩

theorem exists_of_patternSetOf (h : patternSetOf place items = .ok set) :
    ∃ texts : List String, items = texts.map .str ∧
      set = NameSet.ofList (texts.map Text.trimmed) ∧ IsPatternList set := by
  rw [patternSetOf] at h
  split at h
  · cases h
  · next hsome =>
    split at h
    · cases h
    · next texts htexts =>
      have hitems := texts?_eq_some_iff.mp htexts
      dsimp only at h
      split at h
      · next hblank =>
        cases h
        refine ⟨texts, hitems, rfl, isPatternList_ofList ?_ fun text htext => ?_⟩
        · rintro rfl
          exact hsome (hitems ▸ rfl)
        · exact of_decide_eq_true (List.all_eq_true.mp hblank _ (List.mem_map_of_mem htext))
      · cases h

theorem lists_of_patternSet (hv : v.IsJson) (h : patternSet place v = .ok set) :
    Lists v set ∧ IsPatternList set := by
  cases hv with
  | list _ =>
    obtain ⟨texts, hitems, hset, hpatterns⟩ := exists_of_patternSetOf h
    exact ⟨⟨texts, by rw [hitems], hset⟩, hpatterns⟩
  | _ => cases h

/-! ## Errors -/

/-- Every error of a computation is an answer to the user. -/
def Reported (x : Except ConfigError α) : Prop := ∀ e, x = .error e → e.isReported = true

theorem reported_ok (a : α) : Reported (.ok a) := nofun

theorem reported_error {e : ConfigError} (h : e.isReported = true) :
    Reported (.error e : Except ConfigError α) := by
  rintro _ ⟨⟩
  exact h

theorem Reported.bind {β : Type} {x : Except ConfigError α} {f : α → Except ConfigError β}
    (hx : Reported x) (hf : ∀ a, Reported (f a)) : Reported (x >>= f) := by
  cases x with
  | error e => exact reported_error (hx e rfl)
  | ok a => exact hf a

/-- The keys of a map are texts. -/
def NamedByTexts (entries : List (Value × Value)) : Prop :=
  ∀ key ∈ entries.map Prod.fst, ∃ name, key = .str name

theorem exists_texts (h : ∀ v ∈ items, ∃ s, v = .str s) : ∃ texts : List String,
    items = texts.map .str := by
  induction items with
  | nil => exact ⟨[], rfl⟩
  | cons v rest ih =>
    rw [List.forall_mem_cons] at h
    obtain ⟨⟨s, rfl⟩, hrest⟩ := h
    obtain ⟨texts, rfl⟩ := ih hrest
    exact ⟨s :: texts, rfl⟩

theorem reported_checkKeys (h : NamedByTexts entries) : Reported (checkKeys rule known entries) := by
  have hunknown : ∀ v ∈ (entries.map (·.1)).filter fun key => !known.any fun name => key.isText name,
      ∃ s, v = .str s := fun v hv => h v (List.mem_filter.mp hv).1
  obtain ⟨texts, htexts⟩ := exists_texts hunknown
  rw [checkKeys]
  split
  · exact reported_ok _
  · split
    · exact reported_error rfl
    · next hnone =>
      rw [texts?_eq_some_iff.mpr htexts] at hnone
      cases hnone

theorem reported_option {default : α} {read : Value → Except ConfigError α}
    (h : ∀ v, Value.lookup entries name = some v → Reported (read v)) :
    Reported (option entries name default read) := by
  rw [option]
  split
  · exact reported_ok _
  · next v hv => exact h v hv

theorem reported_putAll {read : Value → Value → Except ConfigError (String × α)}
    {acc : List (String × α)} (h : ∀ entry ∈ named, Reported (read entry.1 entry.2)) :
    Reported (putAll read named acc) := by
  induction named generalizing acc with
  | nil => exact reported_ok _
  | cons entry rest ih =>
    rw [List.forall_mem_cons] at h
    exact h.1.bind fun put => ih h.2

theorem reported_severityOf (hv : v.isWritable = true) : Reported (severityOf rule v) := by
  rw [severityOf]
  split
  · exact reported_ok _
  · exact reported_error hv

theorem reported_patternSetOf : Reported (patternSetOf place items) := by
  rw [patternSetOf]
  split
  · exact reported_error rfl
  · split
    · exact reported_error rfl
    · dsimp only
      split
      · exact reported_ok _
      · exact reported_error rfl

theorem reported_patternSet : Reported (patternSet place v) := by
  cases v with
  | list items => exact reported_patternSetOf
  | set items => exact reported_patternSetOf
  | _ => exact reported_error rfl

/-- The names in a map can be written. -/
def KeysWritable (v : Value) : Prop :=
  ∀ entries, v = .map entries → ∀ entry ∈ entries, entry.1.isWritable = true

theorem reported_patternsOf (hv : KeysWritable v) : Reported (patternsOf d v) := by
  cases v with
  | null => exact reported_ok _
  | list items => exact reported_patternSetOf.bind fun set => reported_ok _
  | set items => exact reported_patternSetOf.bind fun set => reported_ok _
  | map entries =>
    refine reported_putAll fun entry hentry => ?_
    rw [namedPatterns]
    split
    · exact reported_error (hv entries rfl entry hentry)
    · exact reported_patternSet.bind fun set => reported_ok _
  | _ => exact reported_error rfl

theorem reported_enabledOf : Reported (enabledOf d v) := by
  cases v with
  | bool b => exact reported_ok _
  | _ => exact reported_error rfl

/-- What messages show of the settings of a rule can be written: the severity, and the names of pattern
lists. -/
structure SettingsWritable (v : Value) : Prop where
  /-- The severity. -/
  severity : ∀ w, v.at? ["severity"] = some w → w.isWritable = true
  /-- The names of pattern lists. -/
  patterns : ∀ w, v.at? ["patterns"] = some w → KeysWritable w

theorem at?_singleton : (Value.map entries).at? [name] = Value.lookup entries name := by
  simp [Value.at?_map]

theorem reported_ruleFromMap (hkeys : NamedByTexts entries) (hshown : SettingsWritable (.map entries)) :
    Reported (ruleFromMap d entries) :=
  (reported_checkKeys hkeys).bind fun _ =>
    (reported_option fun _ hv => reported_severityOf (hshown.severity _ (at?_singleton.trans hv))).bind
      fun _ => (reported_option fun _ _ => reported_enabledOf).bind fun _ =>
        (reported_option fun _ hv =>
          reported_patternsOf (hshown.patterns _ (at?_singleton.trans hv))).bind fun _ => reported_ok _

theorem reported_ruleFromValue (hkeys : ∀ entries, v = .map entries → NamedByTexts entries)
    (hshown : SettingsWritable v) : Reported (ruleFromValue d v) := by
  cases v with
  | null =>
    exact reported_ruleFromMap (by simp [NamedByTexts]) ⟨nofun, nofun⟩
  | map entries => exact reported_ruleFromMap (hkeys entries rfl) hshown
  | _ => exact reported_error rfl

theorem reported_excludeOf : Reported (excludeOf v) := by
  rw [excludeOf.eq_def]
  split
  · split
    · exact reported_ok _
    · exact reported_error rfl
  · split
    · exact reported_error rfl
    · exact reported_ok _

theorem reported_jobsOf : Reported (jobsOf v) := by
  rw [jobsOf.eq_def]
  split
  · split
    · exact reported_error rfl
    · exact reported_ok _
  · exact reported_error rfl

/-- Options are named by texts: those of the whole, and those of each registered rule. -/
structure NamesOptions (v : Value) : Prop where
  /-- The options of the whole. -/
  whole : ∀ entries, v = .map entries → NamedByTexts entries
  /-- The options of a rule. -/
  rule : ∀ rules, v.at? ["rules"] = some (.map rules) → ∀ d ∈ Registry.definitions,
    ∀ settings, (.str d.id, .map settings) ∈ rules → NamedByTexts settings

/-- What messages show of a value can be written: the threshold, the names of rules, and what they show
of the settings of registered rules. -/
structure ShowsWritable (v : Value) : Prop where
  /-- The threshold. -/
  threshold : ∀ w, v.at? ["fail_on"] = some w → w.isWritable = true
  /-- The names of rules. -/
  rules : ∀ w, v.at? ["rules"] = some w → KeysWritable w
  /-- The settings of a rule. -/
  settings : ∀ rules, v.at? ["rules"] = some (.map rules) → ∀ d ∈ Registry.definitions,
    ∀ settings, (.str d.id, settings) ∈ rules → SettingsWritable settings

theorem reported_rulesOf (hkeys : ∀ rules, v = .map rules → ∀ d ∈ Registry.definitions,
    ∀ settings, (.str d.id, .map settings) ∈ rules → NamedByTexts settings)
    (hshown : KeysWritable v) (hsettings : ∀ rules, v = .map rules → ∀ d ∈ Registry.definitions,
      ∀ settings, (.str d.id, settings) ∈ rules → SettingsWritable settings) :
    Reported (rulesOf v) := by
  rw [rulesOf.eq_def]
  split
  · next rules =>
    refine reported_putAll fun entry hentry => ?_
    rw [namedRule]
    split
    · exact reported_error (hshown rules rfl entry hentry)
    · next d hd =>
      have hid : entry.1 = .str d.id :=
        Value.isText_iff.mp (List.find?_some (p := fun d : RuleDefinition => entry.1.isText d.id) hd)
      have hmem : d ∈ Registry.definitions := List.mem_of_find?_eq_some hd
      refine (reported_ruleFromValue (fun settings heq => ?_) ?_).bind fun _ => reported_ok _
      · refine hkeys rules rfl d hmem settings ?_
        rw [← hid, ← heq]
        exact hentry
      · refine hsettings rules rfl d hmem entry.2 ?_
        rw [← hid]
        exact hentry
  · split
    · exact reported_error rfl
    · exact reported_ok _

/-- **Which errors are answers to the user.** A value that names options by texts, and of which messages
show what can be written, gives a configuration, or an error that is an answer to the user. -/
theorem reported_ofValue (hkeys : NamesOptions v) (hshown : ShowsWritable v) :
    Reported (ofValue v) := by
  cases v with
  | map entries =>
    refine (reported_checkKeys (hkeys.whole entries rfl)).bind fun _ => ?_
    have hrules : Reported (option entries "rules" standard.rules rulesOf) := by
      refine reported_option fun v hlookup => ?_
      have hgiven : (Value.map entries).at? ["rules"] = some v := at?_singleton.trans hlookup
      exact reported_rulesOf (fun rules heq => hkeys.rule rules (heq ▸ hgiven))
        (hshown.rules v hgiven) fun rules heq => hshown.settings rules (heq ▸ hgiven)
    exact hrules.bind fun _ =>
      (reported_option fun _ _ => reported_patternSet).bind fun _ =>
        (reported_option fun _ _ => reported_patternSet).bind fun _ =>
          (reported_option fun _ _ => reported_excludeOf).bind fun _ =>
            (reported_option fun _ _ => reported_jobsOf).bind fun _ =>
              (reported_option fun _ hlookup => reported_severityOf
                (hshown.threshold _ (at?_singleton.trans hlookup))).bind fun _ => reported_ok _
  | _ => exact reported_error rfl

theorem keysWritable_of_isWritable (hv : v.isWritable = true) : KeysWritable v := by
  rintro entries rfl entry hentry
  exact (Value.isWritable_map.mp hv entry hentry).1

/-- Of a value that can be written, messages show what can be written. -/
theorem showsWritable_of_isWritable (hv : v.isWritable = true) : ShowsWritable v where
  threshold w hw := Value.isWritable_of_at? hv hw
  rules w hw := keysWritable_of_isWritable (Value.isWritable_of_at? hv hw)
  settings rules hrules d _ settings hentry := by
    have hsettings : settings.isWritable = true :=
      (Value.isWritable_map.mp (Value.isWritable_of_at? hv hrules) _ hentry).2
    exact ⟨fun w hw => Value.isWritable_of_at? hsettings hw,
      fun w hw => keysWritable_of_isWritable (Value.isWritable_of_at? hsettings hw)⟩

end Configuration

end ModelLint
