import ModelLint.Proofs.Configuration.Reading
import ModelLint.Proofs.Json.Values
import ModelLint.Workspace.FrontEnd

/-!
# What a configuration says

* `Configuration.Respects`: a reader takes a value in every order of its entries.
* `Configuration.DescribesRule`, `Describes`: what a configuration has that is read from a value.
* `Configuration.Builds`: the rules that are built from settings.
* `Configuration.SeveritiesWritable`: the severities that a value gives can be written.
* **`Configuration.describes_json`**: a JSON value is read as the configuration that it describes, or
  it is refused; the refusal is an answer to the user if the severities can be written.
* `Configuration.reported_jsonText`: the values of JSON texts are always answered.
-/

namespace ModelLint

namespace Configuration

variable {α : Type} {entries entries' named : List (Value × Value)} {items : List Value} {v v' : Value}
  {name place : String} {rule : Option String} {known : List String} {set : NameSet}
  {d : RuleDefinition} {s : RuleSettings} {c : Configuration}

theorem bind_eq_ok_iff {ε β : Type} {x : Except ε α} {f : α → Except ε β} {b : β} :
    x >>= f = .ok b ↔ ∃ a, x = .ok a ∧ f a = .ok b := by
  cases x with
  | error e => exact ⟨nofun, nofun⟩
  | ok a =>
    constructor
    · exact fun h => ⟨a, rfl, h⟩
    · rintro ⟨_, ⟨⟩, h⟩
      exact h

theorem namedPatterns_eq_ok {put : String × NameSet} (h : namedPatterns d (.str name) v = .ok put) :
    put.1 = name ∧ ∃ place, patternSet place v = .ok put.2 := by
  rw [namedPatterns] at h
  split at h
  · cases h
  · next list hlist =>
    have hname : Value.str name = .str list.1 :=
      Value.isText_iff.mp (List.find?_some (p := fun list : String × NameSet =>
        (Value.str name).isText list.1) hlist)
    obtain ⟨set, hset, hput⟩ := bind_eq_ok_iff.mp h
    cases hput
    exact ⟨(Value.str.inj hname).symm, _, hset⟩

theorem namedRule_eq_ok {put : String × RuleSettings} (h : namedRule (.str name) v = .ok put) :
    put.1 = name ∧ ∃ d ∈ Registry.definitions, d.id = name ∧ ruleFromValue d v = .ok put.2 := by
  rw [namedRule] at h
  split at h
  · cases h
  · next d hd =>
    have hname : Value.str name = .str d.id :=
      Value.isText_iff.mp (List.find?_some (p := fun d : RuleDefinition =>
        (Value.str name).isText d.id) hd)
    obtain ⟨settings, hsettings, hput⟩ := bind_eq_ok_iff.mp h
    cases hput
    exact ⟨(Value.str.inj hname).symm, d, List.mem_of_find?_eq_some hd,
      (Value.str.inj hname).symm, hsettings⟩

theorem ruleFromMap_eq_ok_iff : ruleFromMap d entries = .ok s ↔
    checkKeys (some d.id) ruleOptions entries = .ok () ∧
      option entries "severity" d.severity (severityOf (some d.id)) = .ok s.severity ∧
      option entries "enabled" true (enabledOf d) = .ok s.enabled ∧
      option entries "patterns" d.patterns (patternsOf d) = .ok s.patterns := by
  rw [ruleFromMap]
  simp only [bind_eq_ok_iff]
  constructor
  · rintro ⟨_, hkeys, severity, hseverity, enabled, henabled, patterns, hpatterns, ⟨⟩⟩
    exact ⟨hkeys, hseverity, henabled, hpatterns⟩
  · rintro ⟨hkeys, hseverity, henabled, hpatterns⟩
    exact ⟨(), hkeys, _, hseverity, _, henabled, _, hpatterns, rfl⟩

theorem ofMap_eq_ok_iff : ofMap entries = .ok c ↔
    checkKeys none options entries = .ok () ∧
      option entries "rules" standard.rules rulesOf = .ok c.rules ∧
      option entries "suppression_phrases" standard.phrases (patternSet "suppression_phrases") =
        .ok c.phrases ∧
      option entries "lock_patterns" standard.lockPatterns (patternSet "lock_patterns") =
        .ok c.lockPatterns ∧
      option entries "exclude" standard.exclude excludeOf = .ok c.exclude ∧
      option entries "jobs" standard.jobs jobsOf = .ok c.jobs ∧
      option entries "fail_on" standard.failOn (severityOf none) = .ok c.failOn := by
  rw [ofMap]
  simp only [bind_eq_ok_iff]
  constructor
  · rintro ⟨_, hkeys, rules, hrules, phrases, hphrases, locks, hlocks, globs, hglobs, jobs, hjobs,
      failOn, hfailOn, ⟨⟩⟩
    exact ⟨hkeys, hrules, hphrases, hlocks, hglobs, hjobs, hfailOn⟩
  · rintro ⟨hkeys, hrules, hphrases, hlocks, hglobs, hjobs, hfailOn⟩
    exact ⟨(), hkeys, _, hrules, _, hphrases, _, hlocks, _, hglobs, _, hjobs, _, hfailOn, rfl⟩

theorem severityOf_eq_ok {severity : Severity} (h : severityOf rule v = .ok severity) :
    Severity.ofValue? v = some severity := by
  rw [severityOf] at h
  split at h
  · next s hs => rw [hs, Except.ok.inj h]
  · cases h

theorem enabledOf_eq_ok {b : Bool} (h : enabledOf d v = .ok b) : v = .bool b := by
  cases v with
  | bool b' => rw [Except.ok.inj h]
  | _ => cases h

theorem jobsOf_eq_ok {n : Int} (h : jobsOf v = .ok n) : v = .int n ∧ 1 ≤ n := by
  cases v with
  | int m =>
    rw [jobsOf] at h
    split at h
    · cases h
    · next hpositive =>
      cases h
      exact ⟨rfl, Int.not_lt.mp hpositive⟩
  | _ => cases h

theorem excludeOf_eq_ok {globs : List String} (h : excludeOf v = .ok globs) :
    v = .list (globs.map .str) ∨ (v.isTruthy = false ∧ globs = []) := by
  rw [excludeOf.eq_def] at h
  split at h
  · split at h
    · next texts htexts =>
      cases h
      exact .inl (congrArg _ (texts?_eq_some_iff.mp htexts))
    · cases h
  · split at h
    · cases h
    · next hfalse =>
      cases h
      exact .inr ⟨Bool.eq_false_iff.mpr hfalse, rfl⟩

theorem rulesOf_eq_ok {rules : List (String × RuleSettings)} (hmap : ∀ entries, v ≠ .map entries)
    (h : rulesOf v = .ok rules) : v.isTruthy = false ∧ rules = standard.rules := by
  rw [rulesOf.eq_def] at h
  split at h
  · exact absurd rfl (hmap _)
  · split at h
    · cases h
    · next hfalse => exact ⟨Bool.eq_false_iff.mpr hfalse, (Except.ok.inj h).symm⟩

/-! ## The order of entries -/

/-- A reader takes a JSON value in every order of its entries, with the same result. -/
def Respects (read : Value → Except ConfigError α) : Prop :=
  ∀ v v' a, v.IsJson → v.Reordered v' → read v = .ok a → read v' = .ok a

theorem respects_of_rigid {read : Value → Except ConfigError α}
    (h : ∀ v a, v.IsJson → read v = .ok a → v.Rigid) : Respects read := by
  intro v v' a hv hreordered hread
  rw [h v a hv hread v' hreordered]
  exact hread

theorem respects_severityOf : Respects (severityOf rule) := by
  refine respects_of_rigid fun v a hv h => ?_
  have hname : Severity.ofName? v.display = some a := severityOf_eq_ok h
  cases hv with
  | null => exact Value.rigid_null
  | bool b => exact Value.rigid_bool b
  | int n => exact Value.rigid_int n
  | float bits => exact Value.rigid_float bits
  | str s => exact Value.rigid_str s
  | list _ =>
    rw [Severity.ofName?_of_foreign (.inl rfl) (by simp [Value.display, Value.literal])] at hname
    cases hname
  | map _ _ =>
    rw [Severity.ofName?_of_foreign (.inr (.inl rfl)) (by simp [Value.display, Value.literal])] at hname
    cases hname

theorem respects_enabledOf : Respects (enabledOf d) :=
  respects_of_rigid fun _ b _ h => enabledOf_eq_ok h ▸ Value.rigid_bool b

theorem respects_jobsOf : Respects jobsOf :=
  respects_of_rigid fun _ n _ h => (jobsOf_eq_ok h).1 ▸ Value.rigid_int n

theorem rigid_texts (texts : List String) : Value.Rigid (.list (texts.map .str)) := by
  refine Value.rigid_list fun v hv => ?_
  obtain ⟨s, -, rfl⟩ := List.mem_map.mp hv
  exact Value.rigid_str s

theorem respects_patternSet : Respects (patternSet place) := by
  refine respects_of_rigid fun v set hv h => ?_
  obtain ⟨texts, rfl, -⟩ := (lists_of_patternSet hv h).1
  exact rigid_texts texts

theorem respects_excludeOf : Respects excludeOf := by
  intro v v' globs hv hreordered h
  rcases excludeOf_eq_ok h with rfl | ⟨hfalse, rfl⟩
  · rw [rigid_texts globs v' hreordered]
    exact h
  · have hfalse' : v'.isTruthy = false := hreordered.isTruthy_eq.trans hfalse
    rw [excludeOf.eq_def]
    split
    · next items =>
      rw [Value.isTruthy, Bool.not_eq_false', List.isEmpty_iff] at hfalse'
      rw [hfalse']
      rfl
    · rw [hfalse']
      rfl

section Entries

variable (hjson : Value.IsJson (.map entries)) (hsame : Value.SameEntries entries entries')

include hsame

theorem respects_checkKeys (h : checkKeys rule known entries = .ok ()) :
    checkKeys rule known entries' = .ok () := by
  rw [checkKeys_eq_ok_iff] at h ⊢
  exact fun key hkey => h key (hsame.keys.mem_iff.mpr hkey)

include hjson

theorem used_of_same {default a : α} {Says : Value → α → Prop}
    (hmeans : ∀ v v', v.IsJson → v.Reordered v' → Says v a → Says v' a)
    (h : Used (Value.lookup entries name) default Says a) :
    Used (Value.lookup entries' name) default Says a := by
  cases hlookup : Value.lookup entries name with
  | none =>
    rw [hlookup, used_none] at h
    rw [hsame.lookup_eq_none hlookup, used_none]
    exact h
  | some v =>
    obtain ⟨v', hlookup', hreordered⟩ := hsame.exists_lookup hlookup
    rw [hlookup, used_some] at h
    rw [hlookup', used_some]
    exact hmeans v v' (hjson.of_lookup hlookup) hreordered h

theorem respects_option {default a : α} {read : Value → Except ConfigError α} (hread : Respects read)
    (h : option entries name default read = .ok a) : option entries' name default read = .ok a := by
  rw [option_eq_ok_iff] at h ⊢
  exact used_of_same hjson hsame (fun v v' => hread v v' a) h

theorem respects_putAll {read : Value → Value → Except ConfigError (String × α)}
    {acc result : List (String × α)}
    (hname : ∀ name v put, read (.str name) v = .ok put → put.1 = name)
    (hread : ∀ name, Respects (read (.str name))) (h : putAll read entries acc = .ok result) :
    putAll read entries' acc = .ok result := by
  have hkeys := hjson.textKeys
  have hkeys' := hkeys.of_perm hsame.keys
  rw [putAll_eq_ok_iff hkeys hname] at h
  rw [putAll_eq_ok_iff hkeys' hname]
  refine ⟨fun entry hentry => ?_, h.2.imp fun old new hnew => ⟨hnew.1, ?_⟩⟩
  · obtain ⟨name, hkey⟩ := hkeys'.texts entry.1 (List.mem_map_of_mem hentry)
    have hlookup' : Value.lookup entries' name = some entry.2 :=
      Value.lookup_of_mem hkeys' (hkey ▸ hentry)
    cases hlookup : Value.lookup entries name with
    | none =>
      rw [hsame.lookup_eq_none hlookup] at hlookup'
      cases hlookup'
    | some v =>
      obtain ⟨put, hput⟩ := h.1 _ (Value.mem_of_lookup hlookup)
      rw [hkey]
      exact ⟨put, hread name v entry.2 put (hjson.of_lookup hlookup)
        (hsame.values name v entry.2 hlookup hlookup') hput⟩
  · exact used_of_same hjson hsame (fun v v' => hread old.1 v v' (old.1, new.2)) hnew.2

end Entries

theorem Respects.bind {β : Type} {read : Value → Except ConfigError α} (h : Respects read)
    (f : α → Except ConfigError β) : Respects fun v => read v >>= f := by
  intro v v' b hv hreordered hread
  obtain ⟨a, ha, hb⟩ := bind_eq_ok_iff.mp hread
  exact bind_eq_ok_iff.mpr ⟨a, h v v' a hv hreordered ha, hb⟩

/-- A reader of items only, put at the place of a list. -/
theorem respects_patternsOf : Respects (patternsOf d) := by
  intro v v' patterns hv hreordered h
  cases hv with
  | list _ =>
    obtain ⟨set, hset, -⟩ := bind_eq_ok_iff.mp h
    obtain ⟨texts, rfl, -⟩ := exists_of_patternSetOf hset
    rw [rigid_texts texts v' hreordered]
    exact h
  | map keys hvalues =>
    obtain ⟨entries', rfl, hsame⟩ := hreordered.exists_map
    refine respects_putAll (.map keys hvalues) hsame (fun _ _ _ hput => (namedPatterns_eq_ok hput).1)
      (fun name => ?_) h
    intro v v' put hv hreordered hput
    simp only [namedPatterns] at hput ⊢
    split at hput
    · cases hput
    · exact respects_patternSet.bind _ v v' put hv hreordered hput
  | null => rw [Value.rigid_null v' hreordered, h]
  | _ => cases h

theorem respects_ruleFromValue : Respects (ruleFromValue d) := by
  intro v v' s hv hreordered h
  cases hv with
  | null => rw [Value.rigid_null v' hreordered, h]
  | map keys hvalues =>
    obtain ⟨entries', rfl, hsame⟩ := hreordered.exists_map
    have hjson := Value.IsJson.map keys hvalues
    obtain ⟨hkeys, hseverity, henabled, hpatterns⟩ := ruleFromMap_eq_ok_iff.mp h
    exact ruleFromMap_eq_ok_iff.mpr ⟨respects_checkKeys hsame hkeys,
      respects_option hjson hsame respects_severityOf hseverity,
      respects_option hjson hsame respects_enabledOf henabled,
      respects_option hjson hsame respects_patternsOf hpatterns⟩
  | _ => cases h

theorem respects_rulesOf : Respects rulesOf := by
  intro v v' rules hv hreordered h
  cases hv with
  | map keys hvalues =>
    obtain ⟨entries', rfl, hsame⟩ := hreordered.exists_map
    refine respects_putAll (.map keys hvalues) hsame (fun _ _ _ hput => (namedRule_eq_ok hput).1)
      (fun name => ?_) h
    intro v v' put hv hreordered hput
    simp only [namedRule] at hput ⊢
    split at hput
    · cases hput
    · exact respects_ruleFromValue.bind _ v v' put hv hreordered hput
  | @list items _ =>
    obtain ⟨hfalse, -⟩ := rulesOf_eq_ok (by rintro _ ⟨⟩) h
    rw [Value.isTruthy, Bool.not_eq_false', List.isEmpty_iff] at hfalse
    rw [hfalse] at h hreordered
    rw [Value.rigid_list (List.forall_mem_nil _) v' hreordered, h]
  | _ =>
    cases hreordered
    exact h

/-- **The order of entries does not matter** for a configuration that is read. -/
theorem respects_ofValue : Respects ofValue := by
  intro v v' c hv hreordered h
  cases hv with
  | map keys hvalues =>
    obtain ⟨entries', rfl, hsame⟩ := hreordered.exists_map
    have hjson := Value.IsJson.map keys hvalues
    obtain ⟨hkeys, hrules, hphrases, hlocks, hglobs, hjobs, hfailOn⟩ := ofMap_eq_ok_iff.mp h
    exact ofMap_eq_ok_iff.mpr ⟨respects_checkKeys hsame hkeys,
      respects_option hjson hsame respects_rulesOf hrules,
      respects_option hjson hsame respects_patternSet hphrases,
      respects_option hjson hsame respects_patternSet hlocks,
      respects_option hjson hsame respects_excludeOf hglobs,
      respects_option hjson hsame respects_jobsOf hjobs,
      respects_option hjson hsame respects_severityOf hfailOn⟩
  | _ => cases h

/-! ## What is described -/

/-- What is given for a pattern list of a rule: a list of patterns is that of the primary list, and a
map gives lists by name. -/
def givenPatterns? (given : Option Value) (d : RuleDefinition) (name : String) : Option Value :=
  match given.bind (·.at? ["patterns"]) with
  | some (.list items) => if name = d.primary then some (.list items) else none
  | some (.map entries) => Value.lookup entries name
  | _ => none

/-- A pattern list of a rule has the patterns that are given for it, or the default. -/
def DescribesList (given : Option Value) (d : RuleDefinition) (default list : String × NameSet) :
    Prop :=
  list.1 = default.1 ∧ IsPatternList list.2 ∧
    Used (givenPatterns? given d default.1) default.2 Lists list.2

/-- **The settings of a rule** that are described by what is given for it. -/
structure DescribesRule (given : Option Value) (d : RuleDefinition) (s : RuleSettings) : Prop where
  /-- The severity is the one that is named, or the default. -/
  severity : Used (given.bind (·.at? ["severity"])) d.severity
    (fun v severity => Severity.ofValue? v = some severity) s.severity
  /-- The rule is enabled, unless something else is given. -/
  enabled : Used (given.bind (·.at? ["enabled"])) true (fun v b => v = .bool b) s.enabled
  /-- The pattern lists are those of the rule. -/
  patterns : List.Forall₂ (DescribesList given d) d.patterns s.patterns

/-- **The configuration** that a value describes. -/
structure Describes (v : Value) (c : Configuration) : Prop where
  /-- There are settings for each registered rule, in the order of the registry. -/
  rules : List.Forall₂ (fun d entry => entry.1 = d.id ∧
    DescribesRule (v.at? ["rules", d.id]) d entry.2) Registry.definitions c.rules
  /-- The phrases are those that are given, or the default. -/
  phrases : IsPatternList c.phrases ∧
    Used (v.at? ["suppression_phrases"]) Rule.defaultPhrases Lists c.phrases
  /-- So are the names that are taken for locks. -/
  lockPatterns : IsPatternList c.lockPatterns ∧
    Used (v.at? ["lock_patterns"]) defaultLockPatterns Lists c.lockPatterns
  /-- The excluded globs are those that are given, if any. -/
  exclude : Used (v.at? ["exclude"]) []
    (fun v globs => v = .list (globs.map .str) ∨ (v.isTruthy = false ∧ globs = [])) c.exclude
  /-- The number of workers is positive: the one that is given, or one. -/
  jobs : 1 ≤ c.jobs ∧ Used (v.at? ["jobs"]) 1 (fun v n => v = .int n) c.jobs
  /-- The severity that fails a run is the one that is named, or that of warnings. -/
  failOn : Used (v.at? ["fail_on"]) .warning
    (fun v severity => Severity.ofValue? v = some severity) c.failOn

/-- The lists of the registered rules, the phrases and the names of locks are such by default. -/
theorem isPatternList_default : (∀ d ∈ Registry.definitions, ∀ list ∈ d.patterns,
    IsPatternList list.2) ∧ IsPatternList Rule.defaultPhrases ∧ IsPatternList defaultLockPatterns := by
  have hcheck : ∀ {set : NameSet}, (!set.isEmpty && set.all fun name =>
      name != "" && Text.trimmed name == name) = true → IsPatternList set := by
    intro set h
    simp only [Bool.and_eq_true, Bool.not_eq_true', List.isEmpty_eq_false_iff, List.all_eq_true,
      bne_iff_ne, beq_iff_eq] at h
    exact ⟨h.1, h.2⟩
  refine ⟨fun d hd list hlist => hcheck ?_, hcheck (by decide +kernel), hcheck (by decide +kernel)⟩
  revert list
  revert d
  decide +kernel

section Rules

variable {given : Option Value} (hd : d ∈ Registry.definitions)

include hd

theorem describesList_default (h : ∀ name, givenPatterns? given d name = none) :
    List.Forall₂ (DescribesList given d) d.patterns d.patterns := by
  rw [List.forall₂_same]
  intro list hlist
  exact ⟨rfl, isPatternList_default.1 d hd list hlist, by rw [h, used_none]⟩

theorem describesList_patternsOf {patterns : List (String × NameSet)} (hv : v.IsJson)
    (hgiven : given.bind (·.at? ["patterns"]) = some v) (h : patternsOf d v = .ok patterns) :
    List.Forall₂ (DescribesList given d) d.patterns patterns := by
  have hdefault := isPatternList_default.1 d hd
  cases hv with
  | null =>
    cases h
    exact describesList_default hd fun name => by rw [givenPatterns?, hgiven]
  | @list items _ =>
    obtain ⟨set, hset, hput⟩ := bind_eq_ok_iff.mp h
    obtain ⟨texts, rfl, hlist, hpatterns⟩ := exists_of_patternSetOf hset
    cases hput
    refine forall₂_replace (fun list _ hprimary => ?_) fun list hmem hprimary => ?_
    · refine ⟨hprimary.symm, hpatterns, ?_⟩
      rw [givenPatterns?, hgiven]
      dsimp only
      rw [if_pos hprimary, used_some]
      exact ⟨texts, rfl, hlist⟩
    · refine ⟨rfl, hdefault list hmem, ?_⟩
      rw [givenPatterns?, hgiven]
      dsimp only
      rw [if_neg hprimary, used_none]
  | @map entries keys hvalues =>
    obtain ⟨-, hforall⟩ := (putAll_eq_ok_iff keys fun _ _ _ hput => (namedPatterns_eq_ok hput).1).mp h
    refine ((List.forall₂_and_left _ _).mpr ⟨hdefault, hforall⟩).imp ?_
    rintro default list ⟨hlist, hname, hused⟩
    have hmentioned : givenPatterns? given d default.1 = Value.lookup entries default.1 := by
      rw [givenPatterns?, hgiven]
    rw [DescribesList, hmentioned]
    cases hlookup : Value.lookup entries default.1 with
    | none =>
      rw [hlookup, used_none] at hused
      exact ⟨hname, hused ▸ hlist, used_none.mpr hused⟩
    | some v =>
      rw [hlookup, used_some] at hused
      obtain ⟨-, place, hset⟩ := namedPatterns_eq_ok hused
      obtain ⟨hlists, hpatterns⟩ := lists_of_patternSet (hvalues _ (Value.mem_of_lookup hlookup)) hset
      exact ⟨hname, hpatterns, used_some.mpr hlists⟩
  | _ => cases h

theorem describesRule_default : DescribesRule none d d.defaultSettings where
  severity := used_none.mpr rfl
  enabled := used_none.mpr rfl
  patterns := describesList_default hd fun _ => rfl

theorem describesRule_ruleFromMap (hjson : Value.IsJson (.map entries))
    (h : ruleFromMap d entries = .ok s) : DescribesRule (some (.map entries)) d s := by
  obtain ⟨-, hseverity, henabled, hpatterns⟩ := ruleFromMap_eq_ok_iff.mp h
  rw [option_eq_ok_iff] at hseverity henabled hpatterns
  have hgiven : ∀ name, (some (Value.map entries)).bind (·.at? [name]) =
      Value.lookup entries name := fun name => by
    simp [Value.at?_map]
  refine ⟨?_, ?_, ?_⟩
  · rw [hgiven]
    exact hseverity.imp fun _ => severityOf_eq_ok
  · rw [hgiven]
    exact henabled.imp fun _ => enabledOf_eq_ok
  · cases hlookup : Value.lookup entries "patterns" with
    | none =>
      rw [hlookup, used_none] at hpatterns
      rw [hpatterns]
      exact describesList_default hd fun name => by rw [givenPatterns?, hgiven, hlookup]
    | some v =>
      rw [hlookup, used_some] at hpatterns
      exact describesList_patternsOf hd (hjson.of_lookup hlookup) ((hgiven _).trans hlookup) hpatterns

theorem describesRule_ruleFromValue (hv : v.IsJson) (h : ruleFromValue d v = .ok s) :
    DescribesRule (some v) d s := by
  cases hv with
  | null =>
    have hempty := describesRule_ruleFromMap hd (.map ⟨by simp, by simp⟩ (List.forall_mem_nil _)) h
    exact ⟨hempty.severity, hempty.enabled, hempty.patterns⟩
  | map keys hvalues => exact describesRule_ruleFromMap hd (.map keys hvalues) h
  | _ => cases h

end Rules

theorem describesRule_standard (given : String → Option Value) (h : ∀ id, given id = none) :
    List.Forall₂ (fun d entry => entry.1 = d.id ∧ DescribesRule (given d.id) d entry.2)
      Registry.definitions standard.rules := by
  rw [standard, List.forall₂_map_right_iff, List.forall₂_same]
  intro d hd
  rw [h]
  exact ⟨rfl, describesRule_default hd⟩

theorem describesRule_rulesOf {rules : List (String × RuleSettings)} (hv : v.IsJson)
    (h : rulesOf v = .ok rules) :
    List.Forall₂ (fun d entry => entry.1 = d.id ∧ DescribesRule (v.at? [d.id]) d entry.2)
      Registry.definitions rules := by
  cases hv with
  | @map entries keys hvalues =>
    obtain ⟨-, hforall⟩ := (putAll_eq_ok_iff keys fun _ _ _ hput => (namedRule_eq_ok hput).1).mp h
    rw [standard, List.forall₂_map_left_iff] at hforall
    refine ((List.forall₂_and_left _ _).mpr ⟨fun _ hd => hd, hforall⟩).imp ?_
    rintro d entry ⟨hd, hname, hused⟩
    refine ⟨hname, ?_⟩
    dsimp only at hused
    rw [Value.at?_map]
    cases hlookup : Value.lookup entries d.id with
    | none =>
      rw [hlookup, used_none] at hused
      rw [hused]
      exact describesRule_default hd
    | some v =>
      rw [hlookup, used_some] at hused
      obtain ⟨-, d', hd', hid, hsettings⟩ := namedRule_eq_ok hused
      obtain rfl := Registry.eq_of_id_eq d' hd' d hd hid
      rw [Option.bind_some, Value.at?_nil]
      exact describesRule_ruleFromValue hd (hvalues _ (Value.mem_of_lookup hlookup)) hsettings
  | _ =>
    obtain ⟨-, rfl⟩ := rulesOf_eq_ok (by rintro _ ⟨⟩) h
    exact describesRule_standard _ fun _ => rfl

theorem describes_patterns {given : Option Value} {default : NameSet}
    (hdefault : IsPatternList default) (hjson : ∀ v, given = some v → v.IsJson)
    (h : Used given default (fun v set => patternSet place v = .ok set) set) :
    IsPatternList set ∧ Used given default Lists set := by
  cases given with
  | none => exact ⟨used_none.mp h ▸ hdefault, used_none.mpr (used_none.mp h)⟩
  | some v =>
    obtain ⟨hlists, hpatterns⟩ := lists_of_patternSet (hjson v rfl) (used_some.mp h)
    exact ⟨hpatterns, used_some.mpr hlists⟩

/-- A configuration that is read from a JSON value is described by it. -/
theorem describes_ofMap (hjson : Value.IsJson (.map entries)) (h : ofMap entries = .ok c) :
    Describes (.map entries) c := by
  obtain ⟨-, hrules, hphrases, hlocks, hglobs, hjobs, hfailOn⟩ := ofMap_eq_ok_iff.mp h
  rw [option_eq_ok_iff] at hrules hphrases hlocks hglobs hjobs hfailOn
  have hgiven : ∀ name, (Value.map entries).at? [name] = Value.lookup entries name := fun name => by
    simp [Value.at?_map]
  have hvalues : ∀ name v, Value.lookup entries name = some v → v.IsJson :=
    fun _ _ => hjson.of_lookup
  refine ⟨?_, ?_, ?_, ?_, ?_, ?_⟩
  · cases hlookup : Value.lookup entries "rules" with
    | none =>
      rw [hlookup, used_none] at hrules
      rw [hrules]
      exact describesRule_standard (fun id => (Value.map entries).at? ["rules", id]) fun id => by
        rw [Value.at?_map, hlookup, Option.bind_none]
    | some v =>
      rw [hlookup, used_some] at hrules
      simp only [Value.at?_map, hlookup, Option.bind_some]
      exact describesRule_rulesOf (hvalues _ v hlookup) hrules
  · rw [hgiven]
    exact describes_patterns isPatternList_default.2.1 (hvalues _) hphrases
  · rw [hgiven]
    exact describes_patterns isPatternList_default.2.2 (hvalues _) hlocks
  · rw [hgiven]
    exact hglobs.imp fun _ => excludeOf_eq_ok
  · rw [hgiven]
    refine ⟨?_, hjobs.imp fun _ hread => (jobsOf_eq_ok hread).1⟩
    cases hlookup : Value.lookup entries "jobs" with
    | none =>
      rw [hlookup, used_none] at hjobs
      rw [hjobs]
      decide
    | some v =>
      rw [hlookup, used_some] at hjobs
      exact (jobsOf_eq_ok hjobs).2
  · rw [hgiven]
    exact hfailOn.imp fun _ => severityOf_eq_ok

theorem namesOptions_json (hv : v.IsJson) : NamesOptions v where
  whole entries heq := by
    subst heq
    exact hv.textKeys.texts
  rule rules hrules d _ settings hsettings := by
    have hjson := hv.of_at? hrules
    cases hjson with
    | map _ hvalues => exact (hvalues _ hsettings).textKeys.texts

/-- The severities that a value gives can be written: the threshold, and those of rules. -/
structure SeveritiesWritable (v : Value) : Prop where
  /-- The threshold. -/
  threshold : ∀ w, v.at? ["fail_on"] = some w → w.isWritable = true
  /-- The severity of a rule. -/
  rule : ∀ id w, v.at? ["rules", id, "severity"] = some w → w.isWritable = true

theorem keysWritable_json (hv : v.IsJson) : KeysWritable v := by
  rintro entries rfl entry hentry
  obtain ⟨name, hname⟩ := hv.textKeys.texts entry.1 (List.mem_map_of_mem hentry)
  rw [hname]
  rfl

/-- Of a JSON value, messages show names, which can be written, and severities. -/
theorem showsWritable_json (hv : v.IsJson) (h : SeveritiesWritable v) : ShowsWritable v where
  threshold := h.threshold
  rules _ hrules := keysWritable_json (hv.of_at? hrules)
  settings rules hrules d _ settings hentry := by
    have hlookup : Value.lookup rules d.id = some settings :=
      Value.lookup_of_mem (hv.of_at? hrules).textKeys hentry
    have hbelow : ∀ name, v.at? ["rules", d.id, name] = settings.at? [name] := fun name => by
      rw [show ["rules", d.id, name] = ["rules"] ++ [d.id, name] from rfl, Value.at?_append, hrules,
        Option.bind_some, Value.at?_map, hlookup, Option.bind_some]
    exact ⟨fun w hw => h.rule d.id w ((hbelow _).trans hw),
      fun w hw => keysWritable_json (hv.of_at? ((hbelow _).trans hw))⟩

/-- A JSON value is refused with an answer to the user if its severities can be written. -/
theorem reported_json (hv : v.IsJson) (h : SeveritiesWritable v) : Reported (ofValue v) :=
  reported_ofValue (namesOptions_json hv) (showsWritable_json hv h)

/-- **A JSON value is read as the configuration that it describes, or it is refused.** What is read
does not depend on the order of entries, and the enabled rules are built from it, in the order of the
registry. What is not read is refused, with an answer to the user if the severities that it gives can
be written. -/
theorem describes_json (hv : v.IsJson) :
    (∃ c, ofValue v = .ok c ∧ Describes v c ∧ (∀ v', v.Reordered v' → ofValue v' = .ok c) ∧
      ∃ rules, c.buildRules = .ok rules ∧
        List.Forall₂ Builds (c.rules.filter (·.2.enabled)) rules) ∨
    ∃ e, ofValue v = .error e ∧ (SeveritiesWritable v → e.isReported = true) := by
  cases hread : ofValue v with
  | error e => exact .inr ⟨e, rfl, fun hseverities => reported_json hv hseverities e hread⟩
  | ok c =>
    refine .inl ⟨c, rfl, ?_, fun v' hreordered => respects_ofValue v v' c hv hreordered hread,
      builds_of_fit (fit_ofValue hread)⟩
    cases hv with
    | map keys hvalues => exact describes_ofMap (.map keys hvalues) hread
    | _ => cases hread

/-- The rule on handlers with other patterns. -/
def tunedRules : Value := .record [
  (GenericException.ruleId, .record [
    ("severity", .str " Error "), ("patterns", .list [.str " note "])]),
  (SharedMap.ruleId, .record [("enabled", .bool false)])]

theorem isJson_tunedRules : tunedRules.IsJson := by
  refine .record (by decide) ?_
  simp only [List.forall_mem_cons]
  refine ⟨.record (by decide) ?_, .record (by decide) ?_, List.forall_mem_nil _⟩
  · simp only [List.forall_mem_cons]
    exact ⟨.str _, .list (List.forall_mem_singleton.mpr (.str _)), List.forall_mem_nil _⟩
  · exact List.forall_mem_singleton.mpr (.bool false)

/-- Two workers, the rule on handlers with other patterns, and no rule on shared maps. -/
theorem describes_tunedRules :
    Value.IsJson (.record [("rules", tunedRules), ("jobs", .int 2)]) ∧
    ∃ c rules, ofValue (.record [("rules", tunedRules), ("jobs", .int 2)]) = .ok c ∧
      Describes (.record [("rules", tunedRules), ("jobs", .int 2)]) c ∧
      ofValue (.record [("jobs", .int 2), ("rules", tunedRules)]) = .ok c ∧
      c.buildRules = .ok rules ∧
      rules.map (·.id) = [GenericException.ruleId, ResourceDisposal.ruleId] := by
  have hjson : Value.IsJson (.record [("rules", tunedRules), ("jobs", .int 2)]) := by
    refine .record (by decide) ?_
    simp only [List.forall_mem_cons]
    exact ⟨isJson_tunedRules, .int 2, List.forall_mem_nil _⟩
  have henabled : (ofValue (.record [("rules", tunedRules), ("jobs", .int 2)])).toOption.map
      enabledRules = some [GenericException.ruleId, ResourceDisposal.ruleId] := by
    decide +kernel
  rcases describes_json hjson with ⟨c, hc, hdescribes, horder, rules, hrules, hbuilds⟩ | ⟨e, he, -⟩
  · rw [hc] at henabled
    exact ⟨hjson, c, rules, hc, hdescribes, horder _ (.of_perm hjson.textKeys (.swap _ _ [])), hrules,
      (map_id_of_builds hbuilds).trans (Option.some.inj henabled)⟩
  · rw [he] at henabled
    cases henabled

/-- A power of ten names no severity, as there is a zero in it. -/
theorem ofValue?_pow {k : Nat} (hk : 0 < k) :
    Severity.ofValue? (.int (Int.ofNat (Nat.pow 10 k))) = none := by
  obtain ⟨j, rfl⟩ := Nat.exists_eq_add_one.mpr hk
  have hpow : Nat.pow 10 (j + 1) = 10 ^ j * 10 := Nat.pow_succ ..
  have hlarge : 10 ≤ 10 ^ j * 10 := Nat.le_mul_of_pos_left 10 (Nat.pow_pos (by decide))
  have hzero : '0' ∈ Nat.toDigits 10 (10 ^ j * 10) := by
    rw [Nat.toDigits_of_base_le (by decide) hlarge, Nat.mul_mod_left]
    exact List.mem_append_right _ (List.mem_singleton_self _)
  have hdisplay : ∀ n : Nat,
      (Value.display (.int (Int.ofNat n))).toList = Nat.toDigits 10 n := fun n => by
    show (String.ofList (Nat.toDigits 10 n)).toList = _
    rw [String.toList_ofList]
  refine Severity.ofName?_of_foreign (.inr (.inr rfl)) ?_
  rw [hdisplay, hpow]
  exact hzero

theorem ofValue_threshold {e : ConfigError} (h : severityOf none v = .error e) :
    ofValue (.record [("fail_on", v)]) = .error e := by
  have hkeys : checkKeys none options [(.str "fail_on", v)] = .ok () :=
    checkKeys_eq_ok_iff.mpr (by simp [options])
  simp [Value.record, ofValue, ofMap, hkeys, h, option, Value.lookup, Value.isText, bind, Except.bind]

/-- A threshold that is a number with too many digits. -/
def overlongThreshold : Value := .record [("fail_on", .int Decimal.overlong)]

/-- **A severity with too many digits is refused without an answer.** -/
theorem not_reported_overlongThreshold : overlongThreshold.IsJson ∧
    ∃ e, ofValue overlongThreshold = .error e ∧ e.isReported = false := by
  have hseverity : severityOf none (.int Decimal.overlong) =
      .error (.unknownSeverity none (.int Decimal.overlong)) := by
    rw [severityOf, Decimal.overlong, ofValue?_pow (by decide)]
  refine ⟨.record (by decide) (List.forall_mem_singleton.mpr (.int _)), _,
    ofValue_threshold hseverity, ?_⟩
  rw [ConfigError.isReported, Value.isWritable, Decimal.isWritable_overlong]

/-- **The value of a JSON text is answered**: it is read, or refused with an answer to the user. -/
theorem reported_jsonText {p : Path} {text : String} (h : FrontEnd.jsonValue p text = .ok v) :
    Reported (ofValue v) := by
  rw [FrontEnd.jsonValue] at h
  split at h
  · cases h
  · next hread =>
    split at h
    · next hwritable =>
      cases h
      exact reported_json (Json.isJson_read? hread)
        ⟨fun _ => Value.isWritable_of_at? hwritable, fun _ _ => Value.isWritable_of_at? hwritable⟩
    · cases h

end Configuration

end ModelLint
