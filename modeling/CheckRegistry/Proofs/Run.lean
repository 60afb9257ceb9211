import CheckRegistry.Proofs.Lookup
import CheckRegistry.Proofs.Prepare

/-! # What the exit code of a run says

A run fails for one of four reasons (`Failing`): a switch of the environment means neither on nor
off, a path names no file, a file does not hold declarations, or the check that is asked about is
not registered.  The first three come up before the task and the last one within it, but whichever
comes up, the answer of the run is a failure, and a failure is concluded in one way: without output
and with an exit code of its own.  Any other answer is that of the task, which sees a registry of
all forms in all files.

There is a third way for a run to end (`BreaksOff`).  A home directory that is not known, and the
option for the check without its value, are no failures that anything looks for; a run that comes
upon them has neither exit code nor output.  `exit_codes` says exactly when this happens and what
holds of all other runs.
-/

namespace CheckRegistry.CommandLine

open Declaration (HasForms Declares Holds Obstacle)
open Invocation (Prepared built)

variable {i : Invocation} {s : Surroundings} {config : Config} {forms : List (List Sexp)}
  {records : List (List Record)} {b : Breakdown} {done : Completed} {words : List String}

/-! ## Failing and breaking off -/

/-- What makes a run fail. -/
inductive Failing (i : Invocation) (s : Surroundings) : Prop
  /-- A switch of the environment is neither on nor off. -/
  | badSwitch {key : String} (hkey : key ∈ [Config.strictVariable, Config.exemptVariable])
      (hbad : Config.IsBadSwitch s.environment key)
  | noFile {path : String} (hpath : path ∈ i.files) (hnone : ∀ p, ¬ s.NamesFile path p)
  /-- A file is no text, or its text does not hold declarations. -/
  | noDeclarations {path : String} {p : Path} (hpath : path ∈ i.files) (hnames : s.NamesFile path p)
      (hobstacle : Obstacle s.tree s.cwd p)
  /-- The check that is asked about is not registered. -/
  | noCheck {config : Config} {forms : List (List Sexp)} {records : List (List Record)}
      {check : String} {names annotations : List String}
      (hprepared : Prepared i s config forms records)
      (htask : i.task = .suppressed (some check) names annotations)
      (hnone : ∀ c ∈ (built config records).registry.checks, check ∉ c.allNames)

/-- What a run breaks off at: a home directory that is not known, before any path that names no
file for another reason, or the option for the check without a value, if nothing else is wrong. -/
inductive BreaksOff (i : Invocation) (s : Surroundings) : Breakdown → Prop
  | noHome {config : Config} {before after : List String} {path : String}
      (hsettings : i.config s.environment = .ok config) (hfiles : i.files = before ++ path :: after)
      (hbefore : ∀ q ∈ before, ∃ p, s.NamesFile q p)
      (hhome : s.homes.expand s.environment (.ofText path) = .error .unknown) :
      BreaksOff i s .noHome
  | noCheck {config : Config} {forms : List (List Sexp)} {records : List (List Record)}
      {names annotations : List String} (hprepared : Prepared i s config forms records)
      (htask : i.task = .suppressed none names annotations) : BreaksOff i s .noCheck

namespace Invocation

/-- What a run has to say, or why it has nothing to say. -/
def answer (i : Invocation) (s : Surroundings) : Except RunFailure Answer :=
  match (i.prepare s).2 with
  | .error failure => .error failure
  | .ok (config, build) => (i.task.perform s config build).answer

theorem exists_run_eq (i : Invocation) (s : Surroundings) :
    ∃ tree log, i.run s = i.conclude tree log (i.answer s) := by
  rw [run, answer]
  rcases i.prepare s with ⟨log, failure | ⟨config, build⟩⟩
  · exact ⟨_, _, rfl⟩
  · exact ⟨_, _, rfl⟩

theorem run_of_answer {a : Answer} (h : i.answer s = .ok a) :
    ∃ done, i.run s = .ok done ∧ done.output = a.output ∧
      done.code = if a.isFine then exitFine else exitComplaint := by
  obtain ⟨tree, log, hrun⟩ := exists_run_eq i s
  rw [hrun, h]
  exact ⟨_, rfl, rfl, rfl⟩

end Invocation

/-- What a build says about the forms that it was made of. -/
structure Reports (config : Config) (records : List (List Record)) (code : Nat) : Prop where
  /-- Nothing to complain about: each record is that of a check, and these are registered. -/
  fine_iff : code = exitFine ↔ List.Forall₂ (fun r c => Check.ofRecord r = .ok c) records.flatten
    (built config records).registry.checks
  complaint_iff : code = exitComplaint ↔ (built config records).rejected ≠ []

/-- The last line of the report on a build. -/
def countsText (registered rejected : Nat) : String :=
  s!"\n--- {registered} check(s) registered, {rejected} rejected ---\n"

/-- What a run comes to that has something to say, by its task. -/
def Task.Answered (config : Config) (forms : List (List Sexp)) (records : List (List Record))
    (done : Completed) : Task → Prop
  | .validate => Reports config records done.code ∧ ∃ report registered rejected,
      done.output = report ++ countsText registered rejected ∧
      registered = (built config records).registry.size ∧
      rejected = (built config records).rejected.length ∧
      registered + rejected = (forms.map List.length).sum
  | .list .. | .tags => Reports config records done.code
  | .suppressed check names annotations => ∃ name c, check = some name ∧
      c ∈ (built config records).registry.checks ∧ name ∈ c.allNames ∧
      done.code =
        if config.policy.isSuppressed c (.of names annotations) then exitFine else exitComplaint
  | .docs .. => False

/-! ## The answer to a task -/

theorem reports_of_code {code : Nat}
    (h : code = if (built config records).isOk then exitFine else exitComplaint) :
    Reports config records code := by
  have hok : (built config records).isOk = true ↔ (built config records).rejected = [] :=
    List.isEmpty_iff
  have hregistered := @Build.rejected_eq_nil_iff_forall₂ records.flatten config
  by_cases hnone : (built config records).rejected = []
  · rw [if_pos (hok.mpr hnone)] at h
    subst h
    exact ⟨iff_of_true rfl (hregistered.mp hnone), iff_of_false (by decide) (by simp [hnone])⟩
  · rw [if_neg (mt hok.mp hnone)] at h
    subst h
    exact ⟨iff_of_false (by decide) (mt hregistered.mpr hnone), iff_of_true rfl hnone⟩

theorem exists_validationText_eq (b : Build) :
    ∃ report, validationText b = report ++ countsText b.registry.size b.rejected.length :=
  ⟨_, rfl⟩

theorem suppressedAnswer_cases (config : Config) (b : Build) (scope : Scope)
    (check : Option String) :
    (check = none ∧ suppressedAnswer config b scope check = .error (.brokenOff .noCheck)) ∨
    (∃ name, check = some name ∧ b.registry.get? name = none ∧
      suppressedAnswer config b scope check = .error (.failed ("no such check: " ++ name))) ∨
    ∃ name c, check = some name ∧ b.registry.get? name = some c ∧
      suppressedAnswer config b scope check =
        .ok ⟨config.policy.isSuppressed c scope,
          suppressedText c (config.policy.isSuppressed c scope)⟩ := by
  cases check with
  | none => exact Or.inl ⟨rfl, rfl⟩
  | some name =>
    cases hget : b.registry.get? name with
    | none => exact Or.inr (Or.inl ⟨name, rfl, hget, by simp only [suppressedAnswer, hget]⟩)
    | some c => exact Or.inr (Or.inr ⟨name, c, rfl, hget, by simp only [suppressedAnswer, hget]⟩)

/-- A task other than the documentation has its answer, unless it asks about a check that is not
there, or about none. -/
theorem perform_cases (h : Prepared i s config forms records)
    (htask : ∀ output fixtures suffixes, i.task ≠ .docs output fixtures suffixes) :
    (∃ names annotations, i.task = .suppressed none names annotations ∧
      (i.task.perform s config (built config records)).answer = .error (.brokenOff .noCheck)) ∨
    (∃ check names annotations reason, i.task = .suppressed (some check) names annotations ∧
      (∀ c ∈ (built config records).registry.checks, check ∉ c.allNames) ∧
      (i.task.perform s config (built config records)).answer = .error (.failed reason)) ∨
    ∃ a, (i.task.perform s config (built config records)).answer = .ok a ∧
      ∀ done : Completed, done.code = (if a.isFine then exitFine else exitComplaint) →
        done.output = a.output → i.task.Answered config forms records done := by
  cases hi : i.task with
  | validate =>
    obtain ⟨report, hreport⟩ := exists_validationText_eq (built config records)
    refine Or.inr (Or.inr ⟨_, rfl, fun done hcode houtput => ?_⟩)
    exact ⟨reports_of_code hcode, report, _, _, houtput.trans hreport, rfl, rfl, h.counted⟩
  | list tag severity format =>
    exact Or.inr (Or.inr ⟨_, rfl, fun done hcode _ => reports_of_code hcode⟩)
  | tags =>
    exact Or.inr (Or.inr ⟨_, rfl, fun done hcode _ => reports_of_code hcode⟩)
  | suppressed check names annotations =>
    have hbuilt : (built config records).registry.Built := .ofDeclared _ _
    rcases suppressedAnswer_cases config (built config records) (.of names annotations) check with
      ⟨rfl, hanswer⟩ | ⟨name, rfl, hget, hanswer⟩ | ⟨name, c, rfl, hget, hanswer⟩
    · exact Or.inl ⟨names, annotations, rfl, hanswer⟩
    · refine Or.inr (Or.inl ⟨name, names, annotations, _, rfl, fun c hc hname => ?_, hanswer⟩)
      rw [hbuilt.get?_eq_some_iff.mpr ⟨hc, hname⟩] at hget
      cases hget
    · obtain ⟨hc, hname⟩ := hbuilt.get?_eq_some_iff.mp hget
      exact Or.inr (Or.inr ⟨_, hanswer, fun done hcode _ => ⟨name, c, rfl, hc, hname, hcode⟩⟩)
  | docs output fixtures suffixes => exact absurd hi (htask output fixtures suffixes)

/-! ## The outcome of a run -/

theorem answer_of_prepared (h : Prepared i s config forms records) :
    i.answer s = (i.task.perform s config (built config records)).answer := by
  rw [Invocation.answer, h.prepare_eq]

/-- Before the task a run may fail, or break off at a home directory. -/
theorem answer_cases (i : Invocation) (s : Surroundings) :
    (Failing i s ∧ ∃ reason, i.answer s = .error (.failed reason)) ∨
    (BreaksOff i s .noHome ∧ i.answer s = .error (.brokenOff .noHome)) ∨
    ∃ config forms records, Prepared i s config forms records := by
  rcases i.prepare_cases s with ⟨e, hconfig, hprepare⟩ | ⟨config, e, hconfig, hfind, hprepare⟩ |
    ⟨config, paths, e, hconfig, hfind, hload, hprepare⟩ |
    ⟨config, paths, records, hconfig, hfind, hload, hprepare⟩
  · refine Or.inl ⟨?_, e.message, by rw [Invocation.answer, hprepare]⟩
    rcases Invocation.exists_config_error_iff.mp ⟨e, hconfig⟩ with hbad | hbad
    · exact .badSwitch (by simp) hbad
    · exact .badSwitch (by simp) hbad
  · obtain ⟨before, path, after, hfiles, hbefore, hpath⟩ := findFiles_eq_error_iff.mp hfind
    have hanswer : i.answer s = .error e := by rw [Invocation.answer, hprepare]
    rcases findFile_cases s path with ⟨p, hok, _⟩ | ⟨hnone, ⟨hhome, hbroken⟩ | ⟨_, reason, hfailed⟩⟩
    · rw [hok] at hpath
      cases hpath
    · rw [hbroken] at hpath
      cases hpath
      exact Or.inr (Or.inl ⟨.noHome hconfig hfiles hbefore hhome, hanswer⟩)
    · rw [hfailed] at hpath
      cases hpath
      exact Or.inl ⟨.noFile (hfiles ▸ by simp) hnone, reason, hanswer⟩
  · refine Or.inl ⟨?_, e.message, by rw [Invocation.answer, hprepare]⟩
    obtain ⟨before, p, after, rfl, _, hp⟩ := Declaration.load_eq_error_iff.mp hload
    obtain ⟨path, hpath, hnames⟩ := Lists.exists_of_mem_right (findFiles_eq_ok_iff.mp hfind)
      (List.mem_append_right before List.mem_cons_self)
    exact .noDeclarations hpath hnames (Declaration.exists_loadFile_error_iff.mp ⟨e, hp⟩)
  · obtain ⟨parts, hholds, rfl⟩ := Declaration.load_eq_ok_iff.mp hload
    obtain ⟨forms, hprepared⟩ :=
      (Invocation.exists_prepared_iff i s config).mpr ⟨hconfig, paths, hfind, hholds⟩
    exact Or.inr (Or.inr ⟨config, forms, parts, hprepared⟩)

/-- A run breaks off, fails without output, or has something to say. -/
theorem outcome_cases (s : Surroundings)
    (htask : ∀ output fixtures suffixes, i.task ≠ .docs output fixtures suffixes) :
    (∃ b, BreaksOff i s b ∧ i.run s = .error b) ∨
    (∃ done, Failing i s ∧ i.run s = .ok done ∧ done.code = exitFailure ∧ done.output = "") ∨
    ∃ done config forms records, i.run s = .ok done ∧ Prepared i s config forms records ∧
      i.task.Answered config forms records done := by
  have hanswer : (∃ b, BreaksOff i s b ∧ i.answer s = .error (.brokenOff b)) ∨
      (Failing i s ∧ ∃ reason, i.answer s = .error (.failed reason)) ∨
      ∃ config forms records a, Prepared i s config forms records ∧ i.answer s = .ok a ∧
        ∀ done : Completed, done.code = (if a.isFine then exitFine else exitComplaint) →
          done.output = a.output → i.task.Answered config forms records done := by
    rcases answer_cases i s with ⟨hfailing, hfailed⟩ | ⟨hbreaks, hbroken⟩ |
      ⟨config, forms, records, hprepared⟩
    · exact Or.inr (Or.inl ⟨hfailing, hfailed⟩)
    · exact Or.inl ⟨_, hbreaks, hbroken⟩
    rw [answer_of_prepared hprepared]
    rcases perform_cases hprepared htask with ⟨names, annotations, hi, hbroken⟩ |
      ⟨check, names, annotations, reason, hi, hnone, hfailed⟩ | ⟨a, ha, hanswered⟩
    · exact Or.inl ⟨_, .noCheck hprepared hi, hbroken⟩
    · exact Or.inr (Or.inl ⟨.noCheck hprepared hi hnone, reason, hfailed⟩)
    · exact Or.inr (Or.inr ⟨config, forms, records, a, hprepared, ha, hanswered⟩)
  obtain ⟨tree, log, hrun⟩ := i.exists_run_eq s
  rw [hrun]
  rcases hanswer with ⟨b, hbreaks, ha⟩ | ⟨hfailing, reason, ha⟩ |
    ⟨config, forms, records, a, hprepared, ha, hanswered⟩
  · exact Or.inl ⟨b, hbreaks, by rw [ha]; rfl⟩
  · exact Or.inr (Or.inl ⟨_, hfailing, by rw [ha]; rfl, rfl, rfl⟩)
  · obtain ⟨done, hdone, houtput, hcode⟩ := i.run_of_answer ha
    exact Or.inr (Or.inr ⟨done, config, forms, records, hrun.symm.trans hdone, hprepared,
      hanswered done hcode houtput⟩)

theorem run_of_breaksOff (h : BreaksOff i s b) : i.run s = .error b := by
  obtain ⟨tree, log, hrun⟩ := i.exists_run_eq s
  have hanswer : i.answer s = .error (.brokenOff b) := by
    cases h with
    | @noHome config before after path hsettings hfiles hbefore hhome =>
      have hfind : findFiles s i.files = .error (.brokenOff .noHome) := by
        refine findFiles_eq_error_iff.mpr ⟨before, path, after, hfiles, hbefore, ?_⟩
        rw [findFile, hhome]
      rw [Invocation.answer, Invocation.prepare, hsettings]
      simp only [hfind]
    | noCheck hprepared htask =>
      rw [answer_of_prepared hprepared, htask]
      rfl
  rw [hrun, hanswer]
  rfl

theorem not_failing_of_answered (h : Prepared i s config forms records)
    (hanswered : i.task.Answered config forms records done) : ¬ Failing i s := by
  obtain ⟨paths, hpaths, hforms⟩ := h.files
  have hholds := Declaration.forall₂_holds_iff.mpr ⟨forms, hforms, h.declared⟩
  intro hfailing
  cases hfailing with
  | @badSwitch key hkey hbad =>
    have hbad : Config.IsBadSwitch s.environment Config.strictVariable ∨
        Config.IsBadSwitch s.environment Config.exemptVariable := by
      simp only [List.mem_cons, List.not_mem_nil, or_false] at hkey
      rcases hkey with rfl | rfl
      · exact Or.inl hbad
      · exact Or.inr hbad
    obtain ⟨e, he⟩ := Invocation.exists_config_error_iff.mpr hbad
    rw [h.settings] at he
    cases he
  | noFile hpath hnone =>
    obtain ⟨p, _, hp⟩ := Lists.exists_of_mem_left hpaths hpath
    exact hnone p hp
  | @noDeclarations path p hpath hnames hobstacle =>
    obtain ⟨q, hq, hqnames⟩ := Lists.exists_of_mem_left hpaths hpath
    obtain rfl := hnames.unique hqnames
    obtain ⟨held, _, hheld⟩ := Lists.exists_of_mem_left hholds hq
    exact Declaration.not_holds_of_obstacle hobstacle hheld
  | @noCheck config' _ records' check names annotations hprepared htask hnone =>
    -- the settings and the registry are determined by what the run finds
    have hsame := h.prepare_eq
    rw [hprepared.prepare_eq] at hsame
    obtain ⟨rfl, hbuilt⟩ := Prod.mk.inj (Except.ok.inj hsame)
    rw [htask] at hanswered
    obtain ⟨name, c, hcheck, hc, hname, _⟩ := hanswered
    obtain rfl := Option.some.inj hcheck
    exact hnone c (hbuilt ▸ hc) hname

theorem code_ne_of_answered (hanswered : i.task.Answered config forms records done) :
    done.code ≠ exitFailure := by
  have hreports : Reports config records done.code → done.code ≠ exitFailure := by
    intro h
    by_cases hnone : (built config records).rejected = []
    · rw [h.fine_iff.mpr (Build.rejected_eq_nil_iff_forall₂.mp hnone)]
      decide
    · rw [h.complaint_iff.mpr hnone]
      decide
  cases hi : i.task with
  | validate =>
    rw [hi] at hanswered
    exact hreports hanswered.1
  | list tag severity format =>
    rw [hi] at hanswered
    exact hreports hanswered
  | tags =>
    rw [hi] at hanswered
    exact hreports hanswered
  | suppressed check names annotations =>
    rw [hi] at hanswered
    obtain ⟨name, c, _, _, _, hcode⟩ := hanswered
    rw [hcode]
    split <;> decide
  | docs output fixtures suffixes =>
    rw [hi] at hanswered
    exact hanswered.elim

/-- **What the exit code of a run says.**  A run that breaks off has none. -/
theorem exit_codes (hwords : Request.ofWords words = .ok (.run i))
    (htask : ∀ output fixtures suffixes, i.task ≠ .docs output fixtures suffixes) :
    (∀ b, run words s = .error b ↔ BreaksOff i s b) ∧
    ∀ done refusal, run words s = .ok (done, refusal) → refusal = none ∧
      (done.code = exitFailure ↔ Failing i s) ∧
      (Failing i s → done.output = "") ∧
      (¬ Failing i s → ∃ config forms records, Prepared i s config forms records ∧
        i.task.Answered config forms records done) := by
  have hrun : run words s = (i.run s).map fun done => (done, none) := by rw [run, hwords]
  rw [hrun]
  constructor
  · intro b
    constructor
    · intro h
      rcases outcome_cases s htask with ⟨b', hbreaks, hi⟩ | ⟨done, _, hi, _⟩ |
        ⟨done, _, _, _, hi, _⟩
      · rw [hi] at h
        cases h
        exact hbreaks
      · rw [hi] at h
        cases h
      · rw [hi] at h
        cases h
    · intro hbreaks
      rw [run_of_breaksOff hbreaks]
      rfl
  · intro done refusal h
    rcases outcome_cases s htask with ⟨b, _, hi⟩ | ⟨done', hfailing, hi, hcode, houtput⟩ |
      ⟨done', config, forms, records, hi, hprepared, hanswered⟩
    · rw [hi] at h
      cases h
    · rw [hi] at h
      cases h
      exact ⟨rfl, iff_of_true hcode hfailing, fun _ => houtput, fun hnot => absurd hfailing hnot⟩
    · rw [hi] at h
      cases h
      have hnot := not_failing_of_answered hprepared hanswered
      exact ⟨rfl, iff_of_false (code_ne_of_answered hanswered) hnot, fun hf => absurd hf hnot,
        fun _ => ⟨config, forms, records, hprepared, hanswered⟩⟩

/-- Where there is no file, a run has no output and says so by its exit code. -/
theorem exit_codes_of_missing_file :
    Request.ofWords ["validate", "x.bp"] = .ok (.run { files := ["x.bp"], task := .validate }) ∧
    ∃ done, run ["validate", "x.bp"] { tree := .empty, cwd := [], environment := [] } =
      .ok (done, none) ∧ done.code = exitFailure ∧ done.output = "" := by
  have hwords : Request.ofWords ["validate", "x.bp"] =
      .ok (.run { files := ["x.bp"], task := .validate }) := by decide +kernel
  obtain ⟨hbreaks, hdone⟩ := exit_codes
    (s := { tree := .empty, cwd := [], environment := [] }) hwords (by simp)
  have hfailing : Failing { files := ["x.bp"], task := .validate }
      { tree := .empty, cwd := [], environment := [] } := by
    refine .noFile List.mem_cons_self ?_
    rintro p ⟨q, _, _, _, bytes, place, _, hfile⟩
    cases hfile
  refine ⟨hwords, ?_⟩
  cases hrun : run ["validate", "x.bp"] { tree := .empty, cwd := [], environment := [] } with
  | error b =>
    cases (hbreaks b).mp hrun with
    | @noHome config before after path hsettings hfiles hbefore hhome =>
      have hpath : path = "x.bp" := by
        cases before with
        | nil => exact (List.cons.inj hfiles).1.symm
        | cons q before => simp at hfiles
      subst hpath
      cases hhome
    | noCheck hprepared htask => cases htask
  | ok result =>
    obtain ⟨done, refusal⟩ := result
    obtain ⟨rfl, hcode, houtput, _⟩ := hdone done refusal hrun
    exact ⟨done, rfl, hcode.mpr hfailing, houtput hfailing⟩

/-- The declaration of one check with what it has to have. -/
def plainText : String := "(bugpattern (name A) (summary First) (severity warning))\n"

/-- Two dashes take away the value of the option for the check.  Nothing refuses the command line,
and the run breaks off when it looks for the check. -/
theorem breaksOff_of_dashes :
    Request.ofWords ["suppressed", "x.bp", "--check=--"] =
      .ok (.run { files := ["x.bp"], task := .suppressed none [] [] }) ∧
    run ["suppressed", "x.bp", "--check=--"] (.withFile plainText) = .error .noCheck := by
  have hwords : Request.ofWords ["suppressed", "x.bp", "--check=--"] =
      .ok (.run { files := ["x.bp"], task := .suppressed none [] [] }) := by decide +kernel
  have hparse : Declaration.parse (String.ofList (Text.unifyLineEnds plainText.toList)) "/x.bp" =
      .ok [[("name", .text "A"), ("summary", .text "First"), ("severity", .text "warning")]] := by
    decide +kernel
  obtain ⟨records, hholds, _⟩ := Declaration.load_eq_ok_iff.mp (load_withFile hparse)
  obtain ⟨forms, hprepared⟩ := (Invocation.exists_prepared_iff
    { files := ["x.bp"], task := .suppressed none [] [] } (.withFile plainText) {}).mpr
      ⟨rfl, _, findFiles_withFile plainText, hholds⟩
  refine ⟨hwords, ?_⟩
  rw [run, hwords]
  simp only [run_of_breaksOff (.noCheck hprepared rfl)]
  rfl

end CheckRegistry.CommandLine
