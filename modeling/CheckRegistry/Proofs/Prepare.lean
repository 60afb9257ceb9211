import Mathlib.Algebra.GroupWithZero.Nat
import CheckRegistry.CommandLine.Run
import CheckRegistry.Proofs.Build
import CheckRegistry.Proofs.Declaration
import CheckRegistry.Proofs.Loading

/-! # What a run has before it carries out its task

Before its task a run reads the switches of the environment, finds the files that the paths on the
command line name, and reads the forms in them; each of these steps may be the last one
(`prepare_cases`).  Where none is, the registry is built of the records of all forms, one for each
form in its place (`Prepared`).  None of the forms is lost on the way: what the registry has and
what was left out are together as many as the forms (`Prepared.counted`).
-/

namespace CheckRegistry

variable {env : Config.Environment} {key : String} {unset : Bool}

/-! ## Switches -/

namespace Config

/-- A variable is set to something that means neither on nor off. -/
def IsBadSwitch (env : Environment) (key : String) : Prop :=
  ∃ raw, env.get? key = some raw ∧ Text.lower (Text.trim raw) ∉ onWords ++ offWords

theorem exists_switch_error_iff : (∃ e, switch env key unset = .error e) ↔ IsBadSwitch env key := by
  rw [switch, IsBadSwitch]
  cases env.get? key with
  | none => simp
  | some raw =>
    simp only [Option.some.injEq, exists_eq_left', List.mem_append, List.contains_eq_mem,
      decide_eq_true_eq]
    by_cases hon : Text.lower (Text.trim raw) ∈ onWords
    · simp [hon]
    · by_cases hoff : Text.lower (Text.trim raw) ∈ offWords
      · simp [hon, hoff]
      · simp [hon, hoff]

theorem exists_ofEnvironment_error_iff {base : Config} : (∃ e, ofEnvironment env base = .error e) ↔
    IsBadSwitch env strictVariable ∨ IsBadSwitch env exemptVariable := by
  have hstrict := @exists_switch_error_iff env strictVariable base.strict
  have hexempt := @exists_switch_error_iff env exemptVariable base.exemptErrors
  rw [ofEnvironment, ← hstrict, ← hexempt]
  cases switch env strictVariable base.strict with
  | error e => simp [bind, Except.bind]
  | ok strict =>
    cases switch env exemptVariable base.exemptErrors with
    | error e => simp [bind, Except.bind]
    | ok exemptErrors => simp [bind, Except.bind, pure, Except.pure]

end Config

/-! ## Builds of records -/

namespace Build

theorem size_add_length_rejected (declared : List Declared) (config : Config) :
    (ofList declared config).registry.size + (ofList declared config).rejected.length =
      declared.length := by
  rw [Registry.size, checks_eq_fates, (rejected_perm_fates declared config).length_eq,
    Lists.length_getLeft?_add_getRight?, fates, List.length_map]

/-- A check of a record is registered for each record, in order, or something is left out. -/
theorem rejected_eq_nil_iff_forall₂ {records : List Record} {config : Config} :
    (ofList (records.map .record) config).rejected = [] ↔
      List.Forall₂ (fun r c => Check.ofRecord r = .ok c) records
        (ofList (records.map .record) config).registry.checks := by
  constructor
  · intro hnone
    have hfates : (fates (records.map .record) config.strict).filterMap Sum.getRight? = [] := by
      rw [← List.perm_nil, ← hnone]
      exact (rejected_perm_fates _ config).symm
    have hspec := List.forall₂_map_left_iff.mp (fates_spec (records.map .record) config.strict)
    rw [checks_eq_fates]
    generalize fates (records.map .record) config.strict = met at hfates hspec
    clear hnone
    induction hspec with
    | nil => exact .nil
    | @cons r x records met hfate _ ih =>
      cases hfate with
      | registered hc _ => exact .cons hc (ih hfates)
      | malformed _ => cases hfates
      | invalid _ _ => cases hfates
      | contested _ _ _ _ => cases hfates
  · intro hall
    have hcount := size_add_length_rejected (records.map .record) config
    rw [List.length_map] at hcount
    have hsize : (ofList (records.map .record) config).registry.size = records.length :=
      hall.length_eq.symm
    exact List.length_eq_zero_iff.mp (by omega)

end Build

/-! ## Forms in files -/

namespace Declaration

variable {t : FileTree} {cwd : Place} {p : Path} {paths : List Path} {records : List Record}
  {parts : List (List Record)}

/-- A path leads to a file with some expressions, which should be forms. -/
def HasForms (t : FileTree) (cwd : Place) (p : Path) (xs : List Sexp) : Prop :=
  ∃ s, t.LeadsToFile cwd p (Utf8.encode s) ∧
    Sexp.Denotes (Sexp.lineKinds (Text.unifyLineEnds s.toList)) xs

theorem holds_iff : Holds t cwd p records ↔
    ∃ xs, HasForms t cwd p xs ∧ List.Forall₂ Declares xs records := by
  constructor
  · rintro ⟨s, hfile, hparse⟩
    obtain ⟨xs, hxs, hdeclares⟩ := parse_eq_ok_iff.mp hparse
    rw [String.toList_ofList] at hxs
    exact ⟨xs, ⟨s, hfile, hxs⟩, hdeclares⟩
  · rintro ⟨xs, ⟨s, hfile, hxs⟩, hdeclares⟩
    refine ⟨s, hfile, parse_eq_ok_iff.mpr ⟨xs, ?_, hdeclares⟩⟩
    rwa [String.toList_ofList]

theorem forall₂_holds_iff : List.Forall₂ (Holds t cwd) paths parts ↔
    ∃ forms, List.Forall₂ (HasForms t cwd) paths forms ∧
      List.Forall₂ (List.Forall₂ Declares) forms parts := by
  induction paths generalizing parts with
  | nil =>
    constructor
    · intro h
      rw [List.forall₂_nil_left_iff.mp h]
      exact ⟨[], .nil, .nil⟩
    · rintro ⟨forms, hforms, hparts⟩
      rw [List.forall₂_nil_left_iff.mp hforms] at hparts
      rw [List.forall₂_nil_left_iff.mp hparts]
      exact .nil
  | cons p paths ih =>
    constructor
    · intro h
      obtain ⟨records, parts, hholds, hrest, rfl⟩ := List.forall₂_cons_left_iff.mp h
      obtain ⟨xs, hxs, hrecords⟩ := holds_iff.mp hholds
      obtain ⟨forms, hforms, hparts⟩ := ih.mp hrest
      exact ⟨xs :: forms, .cons hxs hforms, .cons hrecords hparts⟩
    · rintro ⟨forms, hforms, hparts⟩
      obtain ⟨xs, others, hxs, hothers, rfl⟩ := List.forall₂_cons_left_iff.mp hforms
      obtain ⟨records, rest, hrecords, hrest, rfl⟩ := List.forall₂_cons_left_iff.mp hparts
      exact .cons (holds_iff.mpr ⟨xs, hxs, hrecords⟩) (ih.mpr ⟨others, hothers, hrest⟩)

end Declaration

namespace CommandLine

open Declaration (Holds HasForms Declares Obstacle)

variable {s : Surroundings} {i : Invocation} {path : String} {p : Path} {files : List String}
  {paths : List Path} {e : RunFailure} {config : Config} {place : Place} {t : FileTree}

/-! ## Files on the command line -/

/-- A path on the command line names a file: it has no null character in it, and its absolute form
leads to the file. -/
def Surroundings.NamesFile (s : Surroundings) (path : String) (p : Path) : Prop :=
  ∃ q, s.homes.expand s.environment (Path.ofText path) = .ok q ∧ Char.ofNat 0 ∉ q.text.toList ∧
    p = .ofPlace (q.resolve s.cwd) ∧ ∃ bytes, s.tree.LeadsToFile s.cwd p bytes

theorem findFileAt_cases (t : FileTree) (cwd place : Place) :
    (findFileAt t place = .ok (.ofPlace place) ∧
      ∃ bytes, t.LeadsToFile cwd (.ofPlace place) bytes) ∨
    ((∃ reason, findFileAt t place = .error (.failed reason)) ∧
      ∀ bytes, ¬ t.LeadsToFile cwd (.ofPlace place) bytes) := by
  -- an absolute path does not begin at the working directory
  have hlocate : t.locate cwd (.ofPlace place) = t.locate [] (.ofPlace place) := rfl
  simp only [findFileAt, FileTree.LeadsToFile, hlocate]
  cases t.locate [] (.ofPlace place) with
  | error e =>
    refine Or.inr ⟨?_, by simp⟩
    cases e <;> exact ⟨_, rfl⟩
  | ok found =>
    simp only [Except.ok.injEq, exists_eq_left', ← Option.isSome_iff_exists]
    by_cases hfile : t.isFile found = true
    · exact Or.inl ⟨if_pos hfile, hfile⟩
    · refine Or.inr ⟨⟨_, if_neg hfile⟩, fun bytes hbytes => hfile ?_⟩
      rw [FileTree.isFile, hbytes]
      rfl

/-- A path names a file, or it names none; then the run fails, unless the home directory that the
path begins at is not known. -/
theorem findFile_cases (s : Surroundings) (path : String) :
    (∃ p, findFile s path = .ok p ∧ s.NamesFile path p) ∨
    ((∀ p, ¬ s.NamesFile path p) ∧
      ((s.homes.expand s.environment (.ofText path) = .error .unknown ∧
          findFile s path = .error (.brokenOff .noHome)) ∨
        (s.homes.expand s.environment (.ofText path) ≠ .error .unknown ∧
          ∃ reason, findFile s path = .error (.failed reason)))) := by
  rw [findFile]
  unfold Surroundings.NamesFile
  cases hexpand : s.homes.expand s.environment (.ofText path) with
  | error fault =>
    refine Or.inr ⟨by simp, ?_⟩
    cases fault with
    | unknown => exact Or.inl ⟨rfl, rfl⟩
    | nullCharacter => exact Or.inr ⟨by simp, _, rfl⟩
  | ok q =>
    simp only [Except.ok.injEq, exists_eq_left', String.contains_char_eq, decide_eq_true_eq]
    by_cases hnull : Char.ofNat 0 ∈ q.text.toList
    · exact Or.inr ⟨fun p hp => hp.1 hnull, Or.inr ⟨by simp, _, if_pos hnull⟩⟩
    rw [if_neg hnull]
    rcases findFileAt_cases s.tree s.cwd (q.resolve s.cwd) with ⟨hfound, hfile⟩ | ⟨hfailed, hnone⟩
    · exact Or.inl ⟨_, hfound, hnull, rfl, hfile⟩
    · refine Or.inr ⟨?_, Or.inr ⟨by simp, hfailed⟩⟩
      rintro _ ⟨_, rfl, bytes, hbytes⟩
      exact hnone bytes hbytes

theorem Surroundings.NamesFile.unique {p' : Path} (h : s.NamesFile path p)
    (h' : s.NamesFile path p') : p = p' := by
  obtain ⟨q, hq, _, rfl, _⟩ := h
  obtain ⟨q', hq', _, rfl, _⟩ := h'
  rw [hq] at hq'
  rw [Except.ok.inj hq']

theorem findFile_eq_ok_iff : findFile s path = .ok p ↔ s.NamesFile path p := by
  rcases findFile_cases s path with ⟨p', hfind, hnames⟩ |
    ⟨hnone, ⟨_, hfind⟩ | ⟨_, reason, hfind⟩⟩
  · rw [hfind]
    constructor
    · intro h
      exact Except.ok.inj h ▸ hnames
    · intro h
      rw [h.unique hnames]
  · rw [hfind]
    exact iff_of_false (by simp) (hnone p)
  · rw [hfind]
    exact iff_of_false (by simp) (hnone p)

theorem findFiles_eq_ok_iff : findFiles s files = .ok paths ↔
    List.Forall₂ s.NamesFile files paths := by
  induction files generalizing paths with
  | nil =>
    rw [findFiles, List.forall₂_nil_left_iff, Except.ok.injEq]
    exact eq_comm
  | cons path files ih =>
    rw [findFiles, List.forall₂_cons_left_iff]
    simp only [← findFile_eq_ok_iff, ← ih]
    cases findFile s path with
    | error e => simp
    | ok p =>
      cases findFiles s files with
      | error e => simp [Functor.map, Except.map]
      | ok rest => simp [Functor.map, Except.map, eq_comm]

/-- Finding files ends at the first path that names none. -/
theorem findFiles_eq_error_iff : findFiles s files = .error e ↔
    ∃ before path after, files = before ++ path :: after ∧ (∀ q ∈ before, ∃ p, s.NamesFile q p) ∧
      findFile s path = .error e := by
  induction files with
  | nil =>
    refine iff_of_false (fun h => by cases h) ?_
    rintro ⟨before, path, after, hfiles, _⟩
    cases before <;> cases hfiles
  | cons path files ih =>
    rw [findFiles]
    constructor
    · intro h
      cases hfind : findFile s path with
      | error e' =>
        rw [hfind] at h
        cases h
        exact ⟨[], path, files, rfl, by simp, hfind⟩
      | ok p =>
        cases hothers : findFiles s files with
        | ok rest => rw [hfind, hothers] at h; cases h
        | error e' =>
          rw [hfind, hothers] at h
          cases h
          obtain ⟨before, q, after, rfl, hbefore, hq⟩ := ih.mp hothers
          exact ⟨path :: before, q, after, rfl,
            List.forall_mem_cons.mpr ⟨⟨p, findFile_eq_ok_iff.mp hfind⟩, hbefore⟩, hq⟩
    · rintro ⟨before, q, after, hfiles, hbefore, hq⟩
      cases before with
      | nil =>
        obtain ⟨rfl, rfl⟩ := List.cons.inj hfiles
        rw [hq]
      | cons r before =>
        obtain ⟨rfl, rfl⟩ := List.cons.inj hfiles
        obtain ⟨⟨p, hp⟩, hbefore⟩ := List.forall_mem_cons.mp hbefore
        rw [findFile_eq_ok_iff.mpr hp, ih.mpr ⟨before, q, after, rfl, hbefore, hq⟩]
        rfl

/-! ## What comes before the task -/

namespace Invocation

theorem exists_config_error_iff : (∃ e, i.config s.environment = .error e) ↔
    Config.IsBadSwitch s.environment Config.strictVariable ∨
      Config.IsBadSwitch s.environment Config.exemptVariable := by
  rw [← @Config.exists_ofEnvironment_error_iff s.environment {}, config]
  cases Config.ofEnvironment s.environment {} with
  | error e => simp [Except.map]
  | ok c => simp [Except.map]

/-- The three steps before the task, each of which may be the last one. -/
theorem prepare_cases (i : Invocation) (s : Surroundings) :
    (∃ e, i.config s.environment = .error e ∧ (i.prepare s).2 = .error (.failed e.message)) ∨
    (∃ config e, i.config s.environment = .ok config ∧ findFiles s i.files = .error e ∧
      (i.prepare s).2 = .error e) ∨
    (∃ config paths e, i.config s.environment = .ok config ∧ findFiles s i.files = .ok paths ∧
      Declaration.load s.tree s.cwd paths = .error e ∧
      (i.prepare s).2 = .error (.failed e.message)) ∨
    ∃ config paths records, i.config s.environment = .ok config ∧
      findFiles s i.files = .ok paths ∧ Declaration.load s.tree s.cwd paths = .ok records ∧
      (i.prepare s).2 = .ok (config, Build.ofList (records.map .record) config) := by
  rw [prepare]
  cases hconfig : i.config s.environment with
  | error e => exact Or.inl ⟨e, rfl, rfl⟩
  | ok config =>
    cases hfind : findFiles s i.files with
    | error e => exact Or.inr (Or.inl ⟨config, e, rfl, rfl, rfl⟩)
    | ok paths =>
      cases hfailure : (Declaration.loadUntilFailure s.tree s.cwd paths).failure with
      | some e =>
        have hload : Declaration.load s.tree s.cwd paths = .error e := by
          rw [Declaration.load, hfailure]
        exact Or.inr (Or.inr (Or.inl ⟨config, paths, e, rfl, rfl, hload, by simp only [hfailure]⟩))
      | none =>
        have hload : Declaration.load s.tree s.cwd paths =
            .ok ((Declaration.loadUntilFailure s.tree s.cwd paths).files.flatMap Prod.snd) := by
          rw [Declaration.load, hfailure]
        exact Or.inr (Or.inr (Or.inr ⟨config, paths, _, rfl, rfl, hload, by simp only [hfailure]⟩))

/-- What a run has when nothing kept it from its task: the settings, and the forms of each file
with their records. -/
structure Prepared (i : Invocation) (s : Surroundings) (config : Config)
    (forms : List (List Sexp)) (records : List (List Record)) : Prop where
  settings : i.config s.environment = .ok config
  /-- Each path names a file, which holds the forms. -/
  files : ∃ paths, List.Forall₂ s.NamesFile i.files paths ∧
    List.Forall₂ (HasForms s.tree s.cwd) paths forms
  /-- Each form is that of a record. -/
  declared : List.Forall₂ (List.Forall₂ Declares) forms records

variable {forms : List (List Sexp)} {records : List (List Record)}

/-- The registry of a run, with what was left out. -/
def built (config : Config) (records : List (List Record)) : Build :=
  Build.ofList (records.flatten.map .record) config

theorem exists_prepared_iff (i : Invocation) (s : Surroundings) (config : Config) :
    (∃ forms, Prepared i s config forms records) ↔ i.config s.environment = .ok config ∧
      ∃ paths, findFiles s i.files = .ok paths ∧
        List.Forall₂ (Holds s.tree s.cwd) paths records := by
  constructor
  · rintro ⟨forms, hsettings, ⟨paths, hpaths, hforms⟩, hdeclared⟩
    exact ⟨hsettings, paths, findFiles_eq_ok_iff.mpr hpaths,
      Declaration.forall₂_holds_iff.mpr ⟨forms, hforms, hdeclared⟩⟩
  · rintro ⟨hsettings, paths, hpaths, hholds⟩
    obtain ⟨forms, hforms, hdeclared⟩ := Declaration.forall₂_holds_iff.mp hholds
    exact ⟨forms, hsettings, ⟨paths, findFiles_eq_ok_iff.mp hpaths, hforms⟩, hdeclared⟩

theorem Prepared.prepare_eq (h : Prepared i s config forms records) :
    (i.prepare s).2 = .ok (config, built config records) := by
  obtain ⟨hsettings, paths, hpaths, hholds⟩ := (exists_prepared_iff i s config).mp ⟨forms, h⟩
  have hload := Declaration.load_eq_ok_iff.mpr ⟨records, hholds, rfl⟩
  rcases prepare_cases i s with ⟨e, hconfig, _⟩ | ⟨config', e, hconfig, hfind, _⟩ |
    ⟨config', paths', e, hconfig, hfind, hfail, _⟩ |
    ⟨config', paths', records', hconfig, hfind, hok, hprepare⟩
  · rw [hsettings] at hconfig
    cases hconfig
  · rw [hpaths] at hfind
    cases hfind
  · rw [hpaths] at hfind
    obtain rfl := Except.ok.inj hfind
    rw [hload] at hfail
    cases hfail
  · rw [hsettings] at hconfig
    rw [hpaths] at hfind
    obtain rfl := Except.ok.inj hconfig
    obtain rfl := Except.ok.inj hfind
    rw [hload] at hok
    obtain rfl := Except.ok.inj hok
    exact hprepare

/-- Every form is accounted for: what it declares is registered, or something is reported in its
place. -/
theorem Prepared.counted (h : Prepared i s config forms records) :
    (built config records).registry.size + (built config records).rejected.length =
      (forms.map List.length).sum := by
  have hlengths : forms.map List.length = records.map List.length := by
    rw [← List.forall₂_eq_eq_eq, List.forall₂_map_left_iff, List.forall₂_map_right_iff]
    exact h.declared.imp fun _ _ => List.Forall₂.length_eq
  rw [built, Build.size_add_length_rejected, List.length_map, List.length_flatten, hlengths]

end Invocation

/-! ## A directory with one file -/

/-- The surroundings of a run in a directory with one file of declarations. -/
def Surroundings.withFile (text : String) : Surroundings where
  tree := ⟨[(["x.bp"], .file (Utf8.encode text))]⟩
  cwd := []
  environment := []

theorem locate_withFile (text : String) :
    (Surroundings.withFile text).tree.locate [] (.ofPlace ["x.bp"]) = .ok ["x.bp"] := by
  rw [FileTree.locate_eq_walk (by decide) (by decide)]
  rfl

theorem findFiles_withFile (text : String) :
    findFiles (.withFile text) ["x.bp"] = .ok [.ofPlace ["x.bp"]] := by
  have hpath : Path.ofText "x.bp" = ⟨.here, ["x.bp"]⟩ := by decide
  have hexpand : (Surroundings.withFile text).homes.expand (Surroundings.withFile text).environment
      (.ofText "x.bp") = .ok ⟨.here, ["x.bp"]⟩ := by
    rw [hpath]
    rfl
  rw [findFiles_eq_ok_iff]
  exact .cons ⟨_, hexpand, by decide, rfl, _, _, locate_withFile text, rfl⟩ .nil

theorem load_withFile {text : String} {records : List Record}
    (hparse : Declaration.parse (String.ofList (Text.unifyLineEnds text.toList)) "/x.bp" =
      .ok records) :
    Declaration.load (Surroundings.withFile text).tree [] [.ofPlace ["x.bp"]] = .ok records := by
  have hholds : Holds (Surroundings.withFile text).tree [] (.ofPlace ["x.bp"]) records :=
    ⟨text, ⟨_, locate_withFile text, rfl⟩, hparse⟩
  exact Declaration.load_eq_ok_iff.mpr ⟨[records], .cons hholds .nil, by simp⟩

end CommandLine

end CheckRegistry
