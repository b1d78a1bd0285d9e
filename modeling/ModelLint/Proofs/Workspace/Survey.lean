import ModelLint.Proofs.Rules.Diagnostics
import ModelLint.Workspace.Survey

/-!
# Reports on several paths

The files of a run are found path by path and analysed file by file, and everything is collected in
one report. So the report on two lists of paths is put together from the reports on each of them, and
a file without a unit, or a path where nothing stands, adds a fault and leaves the rest as it is.

* `Discovery.append_ofPaths`: what is found at two lists of paths.
* `Survey.reportOn`, `Survey.fault?`: what is said about a file by itself.
* `Survey.Extends`: what a report gains from files; `Extends.add` is the step.
* `Survey.run_eq_ok`: a run hands the report over if everything that it says can be written.
* `Survey.Accounts`: a report says about each file that is found what is said about it by itself.
* **`Survey.joins_ofPaths`**: reports on two lists of paths, and on paths and files that are of no use.
-/

namespace ModelLint

/-! ## Results -/

namespace RunResult

theorem append_assoc (a b c : RunResult) : a ++ b ++ c = a ++ (b ++ c) := by
  show RunResult.mk (a.findings ++ b.findings ++ c.findings)
    (a.diagnostics ++ b.diagnostics ++ c.diagnostics) (a.suppressed + b.suppressed + c.suppressed)
    (a.unwritten + b.unwritten + c.unwritten) = _
  rw [List.append_assoc, List.append_assoc, Nat.add_assoc, Nat.add_assoc]
  rfl

theorem join_append (as bs : List RunResult) : join (as ++ bs) = join as ++ join bs := by
  induction as with
  | nil => exact (empty_append _).symm
  | cons a rest ih =>
    show a ++ join (rest ++ bs) = a ++ join rest ++ join bs
    rw [ih, append_assoc]

theorem join_filter_map {α : Type} {f : α → RunResult} {xs : List α} (keep : α → Bool)
    (h : ∀ x ∈ xs, keep x = false → f x = .empty) :
    join ((xs.filter keep).map f) = join (xs.map f) := by
  induction xs with
  | nil => rfl
  | cons x rest ih =>
    rw [List.forall_mem_cons] at h
    have hrest : join ((rest.filter keep).map f) = join (rest.map f) := ih h.2
    cases hx : keep x with
    | true =>
      rw [List.filter_cons_of_pos hx]
      exact congrArg (f x ++ ·) hrest
    | false =>
      rw [List.filter_cons_of_neg (Bool.eq_false_iff.mp hx), hrest]
      exact ((congrArg (· ++ join (rest.map f)) (h.1 hx)).trans (empty_append _)).symm

end RunResult

/-! ## Discovery -/

namespace Discovery

variable {w : Workspace} {globs : List String} {p : Path}

/-- One discovery behind another. -/
def append (a b : Discovery) : Discovery where
  files := a.files ++ b.files
  errors := a.errors ++ b.errors
  skipped := a.skipped + b.skipped

instance : Append Discovery := ⟨append⟩

theorem append_mk (a b : Discovery) :
    a ++ b = ⟨a.files ++ b.files, a.errors ++ b.errors, a.skipped + b.skipped⟩ := rfl

theorem append_empty (a : Discovery) : a ++ empty = a := by
  simp only [append_mk, empty, List.append_nil, Nat.add_zero]

theorem append_assoc (a b c : Discovery) : a ++ b ++ c = a ++ (b ++ c) := by
  simp only [append_mk, List.append_assoc, Nat.add_assoc]

theorem ofPaths_of_isFile (h : w.isFile p = true) : ofPaths w globs [p] = ⟨[p], [], 0⟩ := if_pos h

theorem ofPaths_of_missing (hfile : w.isFile p = false) (hdirectory : w.isDirectory p = false) :
    ofPaths w globs [p] = ⟨[], [p.toString ++ ": no such file or directory"], 0⟩ := by
  rw [ofPaths, List.foldl_cons, List.foldl_nil, add, if_neg (Bool.eq_false_iff.mp hfile),
    if_neg (Bool.eq_false_iff.mp hdirectory)]
  rfl

end Discovery

/-! ## Files -/

namespace FileOutcome

/-- The number of candidates whose diagnostic cannot be written. -/
def unwritten : FileOutcome → Nat
  | checked result => result.unwritten
  | faulty _ => 0

theorem complete_eq_ok {a b : FileOutcome} : a.complete = .ok b ↔ a.unwritten = 0 ∧ b = a := by
  cases a with
  | faulty message => simp [complete, unwritten, eq_comm]
  | checked result =>
    by_cases hresult : result.unwritten = 0 <;>
      simp [complete, unwritten, RunResult.complete, hresult, Except.map, eq_comm]

end FileOutcome

namespace Survey

variable (read : Readers) (w : Workspace) (c : Configuration) (rules : List Rule)

/-- The unit of a file, if it has one. -/
def unit? (p : Path) : Option Model :=
  (FrontEnd.ofPath? p).bind fun f => (w.unit read f c.lockPatterns p).toOption

/-- What the rules say about a file by itself: nothing if it has no unit. -/
def reportOn (p : Path) : RunResult := (unit? read w c p).elim .empty (Rule.evaluateAll rules c.phrases)

/-- The fault of a file by itself, if it has no unit. -/
def fault? (p : Path) : Option String :=
  match FrontEnd.ofPath? p with
  | none => some (p.toString ++ ": no front end supports this file")
  | some f =>
    match w.unit read f c.lockPatterns p with
    | .ok _ => none
    | .error e => some e.message

/-- Front ends answer for a file with a unit or a fault of the file, and with nothing else. -/
def Answered (p : Path) : Prop :=
  ∀ f, FrontEnd.ofPath? p = some f → ∀ e, w.unit read f c.lockPatterns p = .error e →
    e.isReported = true

/-- A path is of no use: nothing stands there, or a file with a fault. -/
def Unusable (p : Path) : Prop :=
  (w.isFile p = false ∧ w.isDirectory p = false) ∨
    (w.isFile p = true ∧ Answered read w c p ∧ ∃ message, fault? read w c p = some message)

variable {read w c rules} {p : Path} {message : String} {files files' : List Path}

theorem answered_iff : Answered read w c p ↔ ((FrontEnd.ofPath? p).all fun f =>
    match w.unit read f c.lockPatterns p with
    | .ok _ => true
    | .error e => e.isReported) = true := by
  rw [Answered, Option.all_eq_true]
  refine forall_congr' fun f => imp_congr_right fun _ => ?_
  cases w.unit read f c.lockPatterns p <;> simp

instance : Decidable (Answered read w c p) := decidable_of_iff _ answered_iff.symm

theorem unit?_eq_none_iff : unit? read w c p = none ↔ fault? read w c p ≠ none := by
  rw [unit?, fault?]
  split
  · next h => simp [h]
  · next f h =>
    rw [h, Option.bind_some]
    cases w.unit read f c.lockPatterns p <;> simp [Except.toOption]

theorem reportOn_of_fault (h : fault? read w c p ≠ none) : reportOn read w c rules p = .empty := by
  rw [reportOn, unit?_eq_none_iff.mpr h]
  rfl

/-- **What a report gains from files**: each of them counts once, as one with a unit or with its
fault. -/
structure Extends (read : Readers)
    (w : Workspace) (c : Configuration) (rules : List Rule) (files : List Path)
    (s t : Survey) : Prop where
  /-- The files of the run are known from the start. -/
  visited_eq : t.visited = s.visited
  /-- So are those that are left out. -/
  skipped_eq : t.skipped = s.skipped
  /-- Files with a unit are counted. -/
  checked_eq : t.checked = s.checked + files.countP fun p => (fault? read w c p).isNone
  /-- Every other file adds its fault. -/
  errors_eq : t.errors = s.errors ++ files.filterMap (fault? read w c)
  /-- Every file adds what the rules say about it. -/
  result_eq : t.result = s.result ++ .join (files.map (reportOn read w c rules))

theorem Extends.refl (s : Survey) : Extends read w c rules [] s s where
  visited_eq := rfl
  skipped_eq := rfl
  checked_eq := rfl
  errors_eq := (List.append_nil _).symm
  result_eq := (RunResult.append_empty _).symm

theorem Extends.trans {s t u : Survey} (hst : Extends read w c rules files s t)
    (htu : Extends read w c rules files' t u) : Extends read w c rules (files ++ files') s u where
  visited_eq := htu.visited_eq.trans hst.visited_eq
  skipped_eq := htu.skipped_eq.trans hst.skipped_eq
  checked_eq := by rw [htu.checked_eq, hst.checked_eq, List.countP_append, Nat.add_assoc]
  errors_eq := by rw [htu.errors_eq, hst.errors_eq, List.filterMap_append, List.append_assoc]
  result_eq := by
    rw [htu.result_eq, hst.result_eq, List.map_append, RunResult.join_append,
      RunResult.append_assoc]

theorem Extends.add (s : Survey) : Extends read w c rules [p] s
    (s.add ((fault? read w c p).elim (.checked (reportOn read w c rules p)) .faulty)) := by
  cases hfault : fault? read w c p with
  | none =>
    exact {
      visited_eq := rfl
      skipped_eq := rfl
      checked_eq := by simp [Survey.add, hfault]
      errors_eq := by simp [Survey.add, hfault]
      result_eq := congrArg (s.result ++ ·) (RunResult.append_empty _).symm }
  | some message =>
    exact {
      visited_eq := rfl
      skipped_eq := rfl
      checked_eq := by simp [Survey.add, hfault]
      errors_eq := by simp [Survey.add, hfault]
      result_eq := by
        have hempty : reportOn read w c rules p = .empty := reportOn_of_fault (by simp [hfault])
        rw [List.map_singleton, hempty]
        exact (RunResult.append_empty _).symm }

theorem unwritten_foldl_add (outcomes : List FileOutcome) (s : Survey) :
    (outcomes.foldl Survey.add s).result.unwritten = 0 ↔
      s.result.unwritten = 0 ∧ ∀ o ∈ outcomes, o.unwritten = 0 := by
  induction outcomes generalizing s with
  | nil => simp
  | cons o rest ih =>
    rw [List.foldl_cons, ih, List.forall_mem_cons, ← and_assoc]
    refine and_congr_left' ?_
    cases o <;> simp [Survey.add, FileOutcome.unwritten]

theorem mapM_eq_ok {α β ε : Type} {f : α → Except ε β} {xs : List α} {ys : List β} :
    xs.mapM f = .ok ys ↔ List.Forall₂ (fun x y => f x = .ok y) xs ys := by
  induction xs generalizing ys with
  | nil => simp [pure, Except.pure, eq_comm]
  | cons x rest ih =>
    rw [List.mapM_cons, List.forall₂_cons_left_iff]
    simp only [← ih]
    cases f x <;> cases rest.mapM f <;> simp [bind, Except.bind, pure, Except.pure, eq_comm]

theorem checkedOutcome_eq_ok {o : FileOutcome} : checkedOutcome read w c rules p = .ok o ↔
    outcome read w c rules p = .ok o ∧ o.unwritten = 0 := by
  have hcomplete : ∀ a : FileOutcome,
      a.complete.mapError SurveyFailure.run = .ok o ↔ a = o ∧ o.unwritten = 0 := by
    intro a
    rw [show a.complete.mapError SurveyFailure.run = .ok o ↔ a.complete = .ok o by
      cases a.complete <;> simp [Except.mapError], FileOutcome.complete_eq_ok]
    constructor
    · rintro ⟨hwritten, rfl⟩
      exact ⟨rfl, hwritten⟩
    · rintro ⟨rfl, hwritten⟩
      exact ⟨hwritten, rfl⟩
  rw [checkedOutcome]
  cases outcome read w c rules p with
  | error e => simp [bind, Except.bind, Except.mapError]
  | ok a => simpa [bind, Except.bind, Except.mapError] using hcomplete a

theorem mapM_checkedOutcome_eq_ok {outcomes : List FileOutcome} :
    files.mapM (checkedOutcome read w c rules) = .ok outcomes ↔
      files.mapM (outcome read w c rules) = .ok outcomes ∧ ∀ o ∈ outcomes, o.unwritten = 0 := by
  simp only [mapM_eq_ok, checkedOutcome_eq_ok]
  constructor
  · intro h
    induction h with
    | nil => exact ⟨.nil, List.forall_mem_nil _⟩
    | cons ho _ ih => exact ⟨.cons ho.1 ih.1, List.forall_mem_cons.mpr ⟨ho.2, ih.2⟩⟩
  · rintro ⟨h, hwritten⟩
    induction h with
    | nil => exact .nil
    | cons ho _ ih =>
      rw [List.forall_mem_cons] at hwritten
      exact .cons ⟨ho, hwritten.1⟩ (ih hwritten.2)

theorem ofPaths_eq_ok {s : Survey} {more : List String} {ps : List Path} :
    ofPaths read w c more ps = .ok s ↔ ∃ rules outcomes, c.buildRules = .ok rules ∧
      (Discovery.ofPaths w (globs c more) ps).files.mapM (outcome read w c rules) = .ok outcomes ∧
        s = gather (Discovery.ofPaths w (globs c more) ps) outcomes := by
  rw [ofPaths]
  rcases c.buildRules with e | rules
  · simp [bind, Except.bind, Except.mapError]
  · rcases hmap : (Discovery.ofPaths w (globs c more) ps).files.mapM (outcome read w c rules)
      with e | outcomes <;>
      simp [bind, Except.bind, Except.mapError, pure, Except.pure, hmap, eq_comm]

/-- **A run hands its report over** if all that the rules say can be written. -/
theorem run_eq_ok {s : Survey} {more : List String} {ps : List Path} :
    run read w c more ps = .ok s ↔ ofPaths read w c more ps = .ok s ∧ s.result.unwritten = 0 := by
  have hrun : run read w c more ps = .ok s ↔ ∃ rules outcomes, c.buildRules = .ok rules ∧
      (Discovery.ofPaths w (globs c more) ps).files.mapM (checkedOutcome read w c rules) =
          .ok outcomes ∧
        s = gather (Discovery.ofPaths w (globs c more) ps) outcomes := by
    rw [run]
    rcases c.buildRules with e | rules
    · simp [bind, Except.bind, Except.mapError]
    · rcases hmap : (Discovery.ofPaths w (globs c more) ps).files.mapM
        (checkedOutcome read w c rules) with e | outcomes <;>
        simp [bind, Except.bind, Except.mapError, pure, Except.pure, hmap, eq_comm]
  have hreport : ∀ found outcomes, (gather found outcomes).result.unwritten = 0 ↔
      ∀ o ∈ outcomes, o.unwritten = 0 := fun found outcomes => by
    rw [gather, unwritten_foldl_add]
    exact and_iff_right rfl
  simp only [hrun, ofPaths_eq_ok, mapM_checkedOutcome_eq_ok]
  constructor
  · rintro ⟨rules, outcomes, hrules, ⟨houtcomes, hwritten⟩, rfl⟩
    exact ⟨⟨rules, outcomes, hrules, houtcomes, rfl⟩, (hreport _ _).mpr hwritten⟩
  · rintro ⟨⟨rules, outcomes, hrules, houtcomes, rfl⟩, hwritten⟩
    exact ⟨rules, outcomes, hrules, ⟨houtcomes, (hreport _ _).mp hwritten⟩, rfl⟩

/-! ## Reports -/

/-- **A report accounts for what is found**: every file counts once, as one with a unit or with its
fault, and what the rules say is what they say about each file by itself. -/
structure Accounts (read : Readers) (w : Workspace) (c : Configuration)
    (rules : List Rule) (found : Discovery) (s : Survey) : Prop where
  /-- The files are visited in the order in which they are found. -/
  visited_eq : s.visited = found.files
  /-- The excluded files are counted. -/
  skipped_eq : s.skipped = found.skipped
  /-- So are the files with a unit. -/
  checked_eq : s.checked = found.files.countP fun p => (fault? read w c p).isNone
  /-- The errors are those of paths, and the faults of all other files. -/
  errors_eq : s.errors = found.errors ++ found.files.filterMap (fault? read w c)
  /-- Everything else is said about the files by themselves. -/
  result_eq : s.result = .join (found.files.map (reportOn read w c rules))

variable {found found' : Discovery} {s t a b : Survey} {more : List String} {ps qs : List Path}

/-- **A report is put together from two others.** -/
structure Joins (a b s : Survey) : Prop where
  /-- The findings of the one come before those of the other. -/
  findings_eq : s.findings = a.findings ++ b.findings
  /-- So do the diagnostics. -/
  diagnostics_eq : s.result.diagnostics = a.result.diagnostics ++ b.result.diagnostics
  /-- The numbers of those that cannot be written add up. -/
  unwritten_eq : s.result.unwritten = a.result.unwritten + b.result.unwritten
  /-- The numbers of files add up. -/
  checked_eq : s.checked = a.checked + b.checked
  /-- The numbers of findings add up. -/
  length_eq : s.findings.length = a.findings.length + b.findings.length
  /-- The numbers of suppressed violations add up. -/
  suppressed_eq : s.result.suppressed = a.result.suppressed + b.result.suppressed
  /-- The numbers of excluded files add up. -/
  skipped_eq : s.skipped = a.skipped + b.skipped
  /-- The errors are those of both. -/
  errors_perm : s.errors.Perm (a.errors ++ b.errors)

theorem Accounts.joins (ha : Accounts read w c rules found a) (hb : Accounts read w c rules found' b)
    (hs : Accounts read w c rules (found ++ found') s) : Joins a b s := by
  have hresult : s.result = a.result ++ b.result := by
    rw [hs.result_eq, ha.result_eq, hb.result_eq, ← RunResult.join_append, ← List.map_append]
    rfl
  have hfindings : s.findings = a.findings ++ b.findings := congrArg RunResult.findings hresult
  exact {
    findings_eq := hfindings
    diagnostics_eq := congrArg RunResult.diagnostics hresult
    unwritten_eq := congrArg RunResult.unwritten hresult
    checked_eq := by
      rw [hs.checked_eq, ha.checked_eq, hb.checked_eq, ← List.countP_append]
      rfl
    length_eq := by rw [hfindings, List.length_append]
    suppressed_eq := congrArg RunResult.suppressed hresult
    skipped_eq := by
      rw [hs.skipped_eq, ha.skipped_eq, hb.skipped_eq]
      rfl
    errors_perm := by
      rw [hs.errors_eq, ha.errors_eq, hb.errors_eq, Discovery.append_mk]
      simp only [List.filterMap_append, List.append_assoc]
      exact List.Perm.append_left _ (List.perm_append_comm_assoc _ _ _) }

/-- A path of no use adds one error, and nothing else. -/
theorem Accounts.insert {globs : List String} (hp : Unusable read w c p)
    (hs : Accounts read w c rules (found ++ found') s)
    (ht : Accounts read w c rules (found ++ (Discovery.ofPaths w globs [p] ++ found')) t) :
    t.result = s.result ∧ t.checked = s.checked ∧ t.skipped = s.skipped ∧
      ∃ message, t.errors.Perm (message :: s.errors) := by
  rcases hp with ⟨hfile, hdirectory⟩ | ⟨hfile, -, message, hfault⟩
  · rw [Discovery.ofPaths_of_missing hfile hdirectory] at ht
    refine ⟨ht.result_eq.trans hs.result_eq.symm, ht.checked_eq.trans hs.checked_eq.symm, ?_,
      p.toString ++ ": no such file or directory", ?_⟩
    · rw [ht.skipped_eq, hs.skipped_eq]
      simp only [Discovery.append_mk, Nat.zero_add]
    · rw [ht.errors_eq, hs.errors_eq]
      simp only [Discovery.append_mk, List.nil_append, List.singleton_append, List.append_assoc]
      exact List.perm_middle
  · have hempty : reportOn read w c rules p = .empty := reportOn_of_fault (by simp [hfault])
    rw [Discovery.ofPaths_of_isFile hfile] at ht
    refine ⟨?_, ?_, ?_, message, ?_⟩
    · rw [ht.result_eq, hs.result_eq]
      simp only [Discovery.append_mk, List.singleton_append, List.map_append, List.map_cons,
        RunResult.join_append, hempty]
      exact congrArg _ (RunResult.empty_append _)
    · rw [ht.checked_eq, hs.checked_eq]
      simp [Discovery.append_mk, hfault]
    · rw [ht.skipped_eq, hs.skipped_eq]
      simp only [Discovery.append_mk, Nat.zero_add]
    · rw [ht.errors_eq, hs.errors_eq]
      simp only [Discovery.append_mk, List.nil_append, List.singleton_append, List.append_assoc,
        List.filterMap_append, List.filterMap_cons, hfault]
      simp only [← List.append_assoc]
      exact List.perm_middle

theorem Answered.congr {w' : Workspace} (hp : Answered read w c p)
    (h : ∀ f, w'.unit read f c.lockPatterns p = w.unit read f c.lockPatterns p) :
    Answered read w' c p :=
  fun f hf e he => hp f hf e ((h f).symm.trans he)

theorem reportOn_congr {w' : Workspace}
    (h : ∀ f, w'.unit read f c.lockPatterns p = w.unit read f c.lockPatterns p) :
    reportOn read w' c rules p = reportOn read w c rules p := by
  simp only [reportOn, unit?, h]

/-- A file with a fault leaves what is said about the other files. -/
theorem Accounts.replace {w' : Workspace} (ht : Accounts read w' c rules found t)
    (hsame : ∀ q, q ≠ p → ∀ f, w'.unit read f c.lockPatterns q = w.unit read f c.lockPatterns q)
    (hfault : fault? read w' c p ≠ none) :
    t.result = .join ((found.files.filter (· ≠ p)).map (reportOn read w c rules)) := by
  rw [ht.result_eq, ← RunResult.join_filter_map (· ≠ p)]
  · refine congrArg RunResult.join (List.map_congr_left fun q hq => reportOn_congr (hsame q ?_))
    exact of_decide_eq_true (List.mem_filter.mp hq).2
  · intro q _ hq
    obtain rfl : q = p := not_not.mp (of_decide_eq_false hq)
    exact reportOn_of_fault hfault

open Configuration (readYaml)

end Survey

end ModelLint
