import Mathlib.Data.List.Forall2
import ModelLint.Analysis

/-!
# Every rule can be built from a configuration

A configuration puts other settings in the place of those that a rule has by default, and other
pattern lists in the place of those of the settings. So a configuration that is read has settings for
each registered rule, with the pattern lists that the rule needs.

* `RuleDefinition.Fits`: settings have the pattern lists of a rule.
* `Configuration.fit_ofValue`: what is read keeps them.
* `Configuration.builds_of_fit`: what is built from settings that fit.
* **`Configuration.exists_buildRule?`**, **`exists_buildRules`**: the rules can be built.
* `Configuration.ensures_analyze`: an analysis evaluates rules that are built.
-/

namespace ModelLint

variable {α : Type} {value : Value} {d : RuleDefinition} {s : RuleSettings} {id name : String}
  {named entries : List (Value × Value)} {rules rules' : List (String × RuleSettings)}

/-- What a computation gives, if it gives anything, has a property. -/
def Ensures {ε : Type} (x : Except ε α) (P : α → Prop) : Prop := ∀ a, x = .ok a → P a

theorem ensures_error {ε : Type} {e : ε} {P : α → Prop} : Ensures (.error e) P := nofun

theorem ensures_ok {ε : Type} {a : α} {P : α → Prop} (h : P a) :
    Ensures (.ok a : Except ε α) P := by
  rintro _ ⟨⟩
  exact h

theorem Ensures.bind {ε β : Type} {x : Except ε α} {f : α → Except ε β} {P : α → Prop} {Q : β → Prop}
    (hx : Ensures x P) (hf : ∀ a, P a → Ensures (f a) Q) : Ensures (x >>= f) Q := by
  cases x with
  | error e => exact ensures_error
  | ok a => exact hf a (hx a rfl)

theorem ensures_any {ε : Type} {x : Except ε α} : Ensures x fun _ => True := fun _ _ => trivial

theorem Ensures.mapError {ε ε' : Type} {x : Except ε α} {P : α → Prop} (h : Ensures x P)
    (g : ε → ε') : Ensures (x.mapError g) P := by
  cases x with
  | error e => exact ensures_error
  | ok a => exact ensures_ok (h a rfl)

theorem exists_mem_of_forall₂ {β : Type} {R : α → β → Prop} {xs : List α} {ys : List β}
    (h : List.Forall₂ R xs ys) : ∀ y ∈ ys, ∃ x ∈ xs, R x y := by
  induction h with
  | nil => exact List.forall_mem_nil _
  | cons hxy _ ih =>
    refine List.forall_mem_cons.mpr ⟨⟨_, List.mem_cons_self, hxy⟩, fun y hy => ?_⟩
    obtain ⟨x, hx, hxy⟩ := ih y hy
    exact ⟨x, List.mem_cons_of_mem _ hx, hxy⟩

/-- Settings have the pattern lists of a rule. -/
def RuleDefinition.Fits (d : RuleDefinition) (s : RuleSettings) : Prop :=
  s.patterns.map (·.1) = d.patterns.map (·.1)

theorem RuleDefinition.fits_defaultSettings (d : RuleDefinition) : d.Fits d.defaultSettings := rfl

theorem Registry.eq_of_id_eq : ∀ d ∈ definitions, ∀ d' ∈ definitions, d.id = d'.id → d = d' := by
  simp [definitions, genericException, resourceDisposal, sharedMap, GenericException.ruleId,
    ResourceDisposal.ruleId, SharedMap.ruleId]

/-- The registered rules have settings that fit them, in the order of the registry. -/
def Registry.Fit (rules : List (String × RuleSettings)) : Prop :=
  List.Forall₂ (fun d entry => entry.1 = d.id ∧ d.Fits entry.2) Registry.definitions rules

namespace Configuration

theorem map_fst_replace (name : String) (a : α) (entries : List (String × α)) :
    (replace name a entries).map (·.1) = entries.map (·.1) := by
  rw [replace, List.map_map]
  refine List.map_congr_left fun entry _ => ?_
  dsimp only [Function.comp_apply]
  split <;> rfl

theorem ensures_option {α : Type} {default : α} {read : Value → Except ConfigError α} {P : α → Prop}
    (hdefault : P default) (hread : ∀ v, Ensures (read v) P) :
    Ensures (option entries name default read) P := by
  rw [option]
  split
  · exact ensures_ok hdefault
  · exact hread _

/-- What holds of a list is kept by a reader that puts things into it. -/
theorem ensures_putAll {read : Value → Value → Except ConfigError (String × α)}
    {P : List (String × α) → Prop} {acc : List (String × α)} (hacc : P acc)
    (hread : ∀ key v, Ensures (read key v) fun put => ∀ acc, P acc → P (replace put.1 put.2 acc)) :
    Ensures (putAll read named acc) P := by
  induction named generalizing acc with
  | nil => exact ensures_ok hacc
  | cons entry rest ih => exact (hread entry.1 entry.2).bind fun put hput => ih (hput acc hacc)

theorem ensures_patternsOf : Ensures (patternsOf d value) fun patterns =>
    patterns.map (·.1) = d.patterns.map (·.1) := by
  rw [patternsOf.eq_def]
  split
  · exact ensures_ok rfl
  · exact ensures_any.bind fun set _ => ensures_ok (map_fst_replace _ _ _)
  · exact ensures_any.bind fun set _ => ensures_ok (map_fst_replace _ _ _)
  · exact ensures_putAll (P := fun patterns => patterns.map (·.1) = d.patterns.map (·.1)) rfl
      fun key v put _ acc hacc => (map_fst_replace _ _ _).trans hacc
  · exact ensures_error

theorem ensures_ruleFromMap : Ensures (ruleFromMap d entries) d.Fits := by
  refine ensures_any.bind fun _ _ => ensures_any.bind fun severity _ =>
    ensures_any.bind fun enabled _ => Ensures.bind ?_ fun patterns hpatterns => ensures_ok hpatterns
  exact ensures_option rfl fun v => ensures_patternsOf

theorem ensures_ruleFromValue : Ensures (ruleFromValue d value) d.Fits := by
  unfold ruleFromValue
  split
  · exact ensures_ruleFromMap
  · exact ensures_ruleFromMap
  · exact ensures_error

section Settings

variable {P : RuleDefinition → RuleSettings → Prop}
  (hdefault : ∀ d ∈ Registry.definitions, P d d.defaultSettings)

include hdefault

theorem settings_standard : List.Forall₂ (fun d entry => entry.1 = d.id ∧ P d entry.2)
    Registry.definitions standard.rules := by
  rw [standard, List.forall₂_map_right_iff, List.forall₂_same]
  exact fun d hd => ⟨rfl, hdefault d hd⟩

/-- The settings that are read have what the defaults have and what every reader gives. -/
theorem ensures_settings
    (hread : ∀ d ∈ Registry.definitions, ∀ v, Ensures (ruleFromValue d v) (P d)) :
    Ensures (rulesOf value) (List.Forall₂ (fun d entry => entry.1 = d.id ∧ P d entry.2)
      Registry.definitions) := by
  rw [rulesOf.eq_def]
  split
  · refine ensures_putAll (settings_standard hdefault) fun key v => ?_
    rw [namedRule]
    split
    · exact ensures_error
    · next d hfind =>
      have hd := List.mem_of_find?_eq_some hfind
      refine (hread d hd v).bind fun s hs => ensures_ok fun rules hrules => ?_
      rw [replace, List.forall₂_map_right_iff]
      refine ((List.forall₂_and_left _ _).mpr ⟨fun _ h => h, hrules⟩).imp ?_
      rintro a ⟨id, settings⟩ ⟨ha, rfl, hsettings⟩
      dsimp only
      split
      · next heq => exact ⟨rfl, Registry.eq_of_id_eq a ha d hd heq ▸ hs⟩
      · exact ⟨rfl, hsettings⟩
  · split
    · exact ensures_error
    · exact ensures_ok (settings_standard hdefault)

end Settings

theorem fit_standard : Registry.Fit standard.rules :=
  settings_standard fun d _ => d.fits_defaultSettings

theorem ensures_rulesOf : Ensures (rulesOf value) Registry.Fit :=
  ensures_settings (fun d _ => d.fits_defaultSettings) fun _ _ _ => ensures_ruleFromValue

theorem ensures_ofMap : Ensures (ofMap entries) fun c => Registry.Fit c.rules := by
  refine ensures_any.bind fun _ _ =>
    (ensures_option fit_standard fun v => ensures_rulesOf).bind fun rules hrules => ?_
  refine ensures_any.bind fun phrases _ => ensures_any.bind fun locks _ =>
    ensures_any.bind fun globs _ => ensures_any.bind fun jobs _ => ensures_any.bind fun failOn _ => ?_
  exact ensures_ok hrules

/-- A configuration that is read has settings that fit for each registered rule. -/
theorem fit_ofValue {c : Configuration} (h : ofValue value = .ok c) : Registry.Fit c.rules := by
  unfold ofValue at h
  split at h
  · exact ensures_ofMap c h
  · cases h

end Configuration

/-! ## Building rules -/

theorem RuleDefinition.exists_require (hs : name ∈ s.patterns.map (·.1)) :
    ∃ patterns, RuleDefinition.require s name = .ok patterns := by
  rw [RuleDefinition.require, RuleSettings.pattern?]
  rcases hlookup : s.patterns.lookup name with _ | patterns
  · obtain ⟨entry, hentry, rfl⟩ := List.mem_map.mp hs
    exact absurd rfl (bne_iff_ne.mp (List.lookup_eq_none_iff.mp hlookup entry hentry))
  · exact ⟨patterns, rfl⟩

/-- A registered rule can be built from settings that fit it, and has its own name. -/
theorem Registry.exists_build (hd : d ∈ definitions) (hs : d.Fits s) :
    ∃ r, d.build s = .ok r ∧ r.id = d.id := by
  have hrequire : ∀ name ∈ d.patterns.map (·.1), ∃ patterns, RuleDefinition.require s name = .ok patterns :=
    fun name hname => RuleDefinition.exists_require (hs ▸ hname)
  simp only [definitions, List.mem_cons, List.not_mem_nil, or_false] at hd
  rcases hd with rfl | rfl | rfl
  · obtain ⟨logging, hlogging⟩ := hrequire "logging_methods" (by decide)
    obtain ⟨roots, hroots⟩ := hrequire "root_exception_types" (by decide)
    simp only [genericException, hlogging, hroots]
    exact ⟨_, rfl, rfl⟩
  · obtain ⟨types, htypes⟩ := hrequire "resource_types" (by decide)
    obtain ⟨release, hrelease⟩ := hrequire "release_methods" (by decide)
    simp only [resourceDisposal, htypes, hrelease]
    exact ⟨_, rfl, rfl⟩
  · obtain ⟨shared, hshared⟩ := hrequire "shared_fields" (by decide)
    obtain ⟨maps, hmaps⟩ := hrequire "map_types" (by decide)
    obtain ⟨concurrent, hconcurrent⟩ := hrequire "concurrent_map_types" (by decide)
    obtain ⟨launch, hlaunch⟩ := hrequire "launch_calls" (by decide)
    simp only [sharedMap, hshared, hmaps, hconcurrent, hlaunch]
    exact ⟨_, rfl, rfl⟩

theorem Registry.find?_eq_some : find? id = some d ↔ d ∈ definitions ∧ d.id = id := by
  constructor
  · intro h
    exact ⟨List.mem_of_find?_eq_some h, by simpa using List.find?_some h⟩
  · rintro ⟨hd, rfl⟩
    rcases hfind : find? d.id with _ | d'
    · simpa using List.find?_eq_none.mp hfind d hd
    · have hid : d'.id = d.id := by simpa using List.find?_some hfind
      rw [eq_of_id_eq d' (List.mem_of_find?_eq_some hfind) d hd hid]

theorem Registry.Fit.exists_lookup (hrules : Fit rules) (hd : d ∈ definitions) :
    ∃ s, rules.lookup d.id = some s ∧ d.Fits s := by
  have hlookup : ∀ {ds : List RuleDefinition} {rules : List (String × RuleSettings)},
      List.Forall₂ (fun d entry => entry.1 = d.id ∧ d.Fits entry.2) ds rules → d ∈ ds →
        ∃ s, rules.lookup d.id = some s ∧ ∃ d' ∈ ds, d'.id = d.id ∧ d'.Fits s := by
    intro ds rules h
    induction h with
    | nil => nofun
    | @cons d' entry _ _ hentry _ ih =>
      intro hd
      by_cases hid : entry.1 = d.id
      · refine ⟨entry.2, ?_, d', List.mem_cons_self, hentry.1.symm.trans hid, hentry.2⟩
        rw [← hid]
        exact List.lookup_cons_self
      · have hrest : d ∈ _ := (List.mem_cons.mp hd).resolve_left fun heq => hid (heq ▸ hentry.1)
        obtain ⟨s, hs, d'', hd'', hfits⟩ := ih hrest
        refine ⟨s, ?_, d'', List.mem_cons_of_mem _ hd'', hfits⟩
        rw [List.lookup_cons, beq_eq_false_iff_ne.mpr (Ne.symm hid)]
        exact hs
  obtain ⟨s, hs, d', hd', hid, hfits⟩ := hlookup hrules hd
  exact ⟨s, hs, eq_of_id_eq d' hd' d hd hid ▸ hfits⟩

theorem Registry.Fit.map_fst_eq (hrules : Fit rules) :
    rules.map (·.1) = definitions.map (·.id) := by
  have hids : List.Forall₂ (· = ·) (definitions.map (·.id)) (rules.map (·.1)) := by
    rw [List.forall₂_map_left_iff, List.forall₂_map_right_iff]
    exact hrules.imp fun _ _ h => h.1.symm
  rw [List.forall₂_eq_eq_eq] at hids
  exact hids.symm

theorem Registry.Fit.lookup_of_mem {entry : String × RuleSettings} (hrules : Fit rules)
    (h : entry ∈ rules) : rules.lookup entry.1 = some entry.2 := by
  have hnodup : (rules.map (·.1)).Nodup := hrules.map_fst_eq ▸ by decide +kernel
  clear hrules
  induction rules with
  | nil => cases h
  | cons first rest ih =>
    rcases List.mem_cons.mp h with rfl | hrest
    · exact List.lookup_cons_self
    · have hne : entry.1 ≠ first.1 := fun heq =>
        (List.nodup_cons.mp hnodup).1 (List.mem_map.mpr ⟨entry, hrest, heq⟩)
      rw [List.lookup_cons, beq_eq_false_iff_ne.mpr hne]
      exact ih hrest (List.nodup_cons.mp hnodup).2

namespace Configuration

variable {c : Configuration} {r : Rule}

theorem buildRule?_of_build (hd : d ∈ Registry.definitions) (hlookup : c.rules.lookup d.id = some s)
    (hr : d.build s = .ok r) : c.buildRule? d.id = some r := by
  rw [buildRule?, Registry.find?_eq_some.mpr ⟨hd, rfl⟩, hlookup]
  simp only [Option.bind_eq_bind, Option.bind_some, hr, Except.toOption]

theorem exists_definition (h : c.buildRule? id = some r) :
    ∃ d ∈ Registry.definitions, ∃ s, d.build s = .ok r := by
  simp only [buildRule?, Option.bind_eq_bind, Option.bind_eq_some_iff] at h
  obtain ⟨d, hd, s, -, hr⟩ := h
  refine ⟨d, (Registry.find?_eq_some.mp hd).1, s, ?_⟩
  rcases hbuild : d.build s with cause | r'
  · rw [hbuild] at hr
    cases hr
  · rw [hbuild] at hr
    cases hr
    rfl

/-- **Each registered rule can be built** from a configuration that is read. -/
theorem exists_buildRule? (hc : ofValue value = .ok c) (hd : d ∈ Registry.definitions) :
    ∃ r, c.buildRule? d.id = some r ∧ r.id = d.id := by
  obtain ⟨s, hlookup, hs⟩ := (fit_ofValue hc).exists_lookup hd
  obtain ⟨r, hr, hid⟩ := Registry.exists_build hd hs
  exact ⟨r, buildRule?_of_build hd hlookup hr, hid⟩

/-- A rule is built from an entry of the settings. -/
def Builds (entry : String × RuleSettings) (r : Rule) : Prop :=
  r.id = entry.1 ∧ ∃ d ∈ Registry.definitions, d.id = entry.1 ∧ d.build entry.2 = .ok r

theorem map_id_of_builds {built : List Rule}
    (h : List.Forall₂ Builds (c.rules.filter (·.2.enabled)) built) :
    built.map (·.id) = c.enabledRules := by
  rw [enabledRules, ← List.forall₂_eq_eq_eq, List.forall₂_map_left_iff, List.forall₂_map_right_iff]
  exact h.flip.imp fun _ _ hbuilds => hbuilds.1

theorem exists_buildAll {settings : List (String × RuleSettings)} {ds : List RuleDefinition}
    (hfit : List.Forall₂ (fun d entry => entry.1 = d.id ∧ d.Fits entry.2) ds rules)
    (hds : ∀ d ∈ ds, d ∈ Registry.definitions)
    (hlookup : ∀ entry ∈ rules, settings.lookup entry.1 = some entry.2) :
    ∃ built, Registry.buildAll settings ds = .ok built ∧
      List.Forall₂ Builds (rules.filter (·.2.enabled)) built := by
  induction hfit with
  | nil => exact ⟨[], rfl, .nil⟩
  | @cons d entry ds rules hentry _ ih =>
    rw [List.forall_mem_cons] at hds hlookup
    obtain ⟨built, hbuilt, hrest⟩ := ih hds.2 hlookup.2
    obtain ⟨r, hr, hid⟩ := Registry.exists_build hds.1 hentry.2
    have hentry' : settings.lookup d.id = some entry.2 := hentry.1 ▸ hlookup.1
    simp only [Registry.buildAll, hentry', Option.getD_some, hr, hbuilt]
    cases henabled : entry.2.enabled with
    | true =>
      have hfirst : (entry :: rules).filter (·.2.enabled) = entry :: rules.filter (·.2.enabled) :=
        List.filter_cons_of_pos henabled
      rw [hfirst]
      exact ⟨r :: built, rfl, .cons ⟨hid.trans hentry.1.symm, d, hds.1, hentry.1.symm, hr⟩ hrest⟩
    | false =>
      have hfirst : (entry :: rules).filter (·.2.enabled) = rules.filter (·.2.enabled) :=
        List.filter_cons_of_neg (Bool.eq_false_iff.mp henabled)
      rw [hfirst]
      exact ⟨built, rfl, hrest⟩

/-- **The enabled rules are built**, in the order of the settings, from settings that fit. -/
theorem builds_of_fit (hfit : Registry.Fit c.rules) :
    ∃ built, c.buildRules = .ok built ∧
      List.Forall₂ Builds (c.rules.filter (·.2.enabled)) built := by
  have hknown : (c.rules.map (·.1)).filter (fun id => (Registry.find? id).isNone) = [] := by
    rw [hfit.map_fst_eq, List.filter_eq_nil_iff, List.forall_mem_map]
    intro d hd
    simp [Registry.find?_eq_some.mpr ⟨hd, rfl⟩]
  rw [buildRules, Registry.build, hknown]
  exact exists_buildAll hfit (fun _ hd => hd) fun _ => hfit.lookup_of_mem

/-- **The enabled rules can be built** from a configuration that is read. -/
theorem exists_buildRules (hc : ofValue value = .ok c) :
    ∃ rules, c.buildRules = .ok rules ∧ ∀ r ∈ rules, ∃ id, c.buildRule? id = some r := by
  have hfit : Registry.Fit c.rules := fit_ofValue hc
  obtain ⟨built, hbuilt, hrules⟩ := builds_of_fit hfit
  refine ⟨built, hbuilt, fun r hr => ?_⟩
  obtain ⟨entry, hentry, -, d, hd, hid, hbuild⟩ := exists_mem_of_forall₂ hrules r hr
  refine ⟨d.id, buildRule?_of_build hd ?_ hbuild⟩
  rw [hid]
  exact hfit.lookup_of_mem (List.mem_filter.mp hentry).1

theorem ensures_buildAll {settings : List (String × RuleSettings)} (ds : List RuleDefinition) :
    Ensures (Registry.buildAll settings ds) fun rules =>
      ∀ r ∈ rules, ∃ d ∈ ds, ∃ s, d.build s = .ok r := by
  induction ds with
  | nil => exact ensures_ok (List.forall_mem_nil _)
  | cons d rest ih =>
    have hrest : Ensures (Registry.buildAll settings rest) fun rules =>
        ∀ r ∈ rules, ∃ d' ∈ d :: rest, ∃ s, d'.build s = .ok r := by
      intro rules hrules r hr
      obtain ⟨d', hd', hbuilt⟩ := ih rules hrules r hr
      exact ⟨d', List.mem_cons_of_mem d hd', hbuilt⟩
    rw [Registry.buildAll]
    split
    · refine Ensures.bind (fun r (hr : d.build _ = .ok r) => hr) fun r hr => ?_
      exact hrest.bind fun rules hrules =>
        ensures_ok (List.forall_mem_cons.mpr ⟨⟨d, List.mem_cons_self, _, hr⟩, hrules⟩)
    · exact hrest

/-- **An analysis evaluates registered rules**, whatever the configuration. -/
theorem ensures_analyze {m : Model} : Ensures (c.analyze m) fun result =>
    ∃ rules, c.buildRules = .ok rules ∧
      (∀ r ∈ rules, ∃ d ∈ Registry.definitions, ∃ s, d.build s = .ok r) ∧
      result = Rule.evaluateAll rules c.phrases m := by
  have hregistered : Ensures c.buildRules fun rules =>
      ∀ r ∈ rules, ∃ d ∈ Registry.definitions, ∃ s, d.build s = .ok r := by
    rw [buildRules, Registry.build]
    split
    · exact ensures_buildAll _
    · exact ensures_error
  intro result h
  rw [analyze] at h
  rcases hrules : c.buildRules with e | rules
  · rw [hrules] at h
    cases h
  · rw [hrules] at h
    cases h
    exact ⟨rules, rfl, hregistered rules hrules, rfl⟩

end Configuration

end ModelLint
