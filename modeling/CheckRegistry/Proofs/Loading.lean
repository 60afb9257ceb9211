import Mathlib.Data.List.Forall2
import CheckRegistry.Proofs.FileTree
import CheckRegistry.Proofs.Utf8

/-! # What loading declaration files comes to

A path either leads to a file whose bytes are those of a text that holds declarations, or there is
an obstacle: no file, or bytes that are no text, or a text that does not hold declarations
(`Obstacle`).  Files are read in order, so several files hold what each of them holds, and reading
ends with the error of the first obstacle (`load_eq_error_iff`).

Not every such error is one about declarations.  A file that is not there, a directory in its place
and a text that does not parse are reported as such, but bytes that are no text are not, nor is a
path that no file can have.  Which error comes up is decided by the first obstacle alone, so
`load_outcome` says it for all paths and trees.
-/

namespace CheckRegistry.Declaration

variable {t : FileTree} {cwd : Place} {p : Path} {paths : List Path} {records : List Record}
  {e : LoadError}

/-! ## One file -/

/-- A path leads to a file with the declarations of some records: its bytes are those of a text,
and the text, with unified line ends, holds the declarations. -/
def Holds (t : FileTree) (cwd : Place) (p : Path) (records : List Record) : Prop :=
  ∃ s, t.LeadsToFile cwd p (Utf8.encode s) ∧
    parse (String.ofList (Text.unifyLineEnds s.toList)) p.text = .ok records

/-- A path leads to a file whose bytes are not those of any text. -/
def IsNoText (t : FileTree) (cwd : Place) (p : Path) : Prop :=
  ∃ bytes, t.LeadsToFile cwd p bytes ∧ ∀ s, Utf8.encode s ≠ bytes

/-- What keeps the declarations of a file from being had. -/
inductive Obstacle (t : FileTree) (cwd : Place) (p : Path) : Prop
  /-- There is neither a file nor a directory. -/
  | absent (hfile : ∀ bytes, ¬ t.LeadsToFile cwd p bytes) (hdir : t.leadsToDirectory cwd p = false)
  | directory (hfile : ∀ bytes, ¬ t.LeadsToFile cwd p bytes)
      (hdir : t.leadsToDirectory cwd p = true)
  | noText (hfile : IsNoText t cwd p)
  /-- The text in the file does not hold declarations. -/
  | noDeclarations {s : String} (hfile : t.LeadsToFile cwd p (Utf8.encode s))
      (hparse : ∀ records,
        parse (String.ofList (Text.unifyLineEnds s.toList)) p.text ≠ .ok records)

/-- What loading one file comes to: its declarations, or one error for each kind of obstacle. -/
theorem loadFile_cases (t : FileTree) (cwd : Place) (p : Path) :
    (∃ records, Holds t cwd p records ∧ loadFile t cwd p = .ok records) ∨
    (∃ e, t.read cwd p = .error e ∧ loadFile t cwd p = .error (.file p.text e)) ∨
    (∃ e, IsNoText t cwd p ∧ loadFile t cwd p = .error (.decoding e)) ∨
    ∃ s e, t.LeadsToFile cwd p (Utf8.encode s) ∧
      parse (String.ofList (Text.unifyLineEnds s.toList)) p.text = .error e ∧
      loadFile t cwd p = .error (.parse e) := by
  rw [loadFile]
  cases hread : t.read cwd p with
  | error e => exact Or.inr (Or.inl ⟨e, rfl, rfl⟩)
  | ok bytes =>
    have hfile := FileTree.read_eq_ok_iff.mp hread
    simp only [Except.mapError, bind, Except.bind]
    cases htext : textOfBytes bytes with
    | error e =>
      have hnone := exists_textOfBytes_error_iff.mp ⟨e, htext⟩
      exact Or.inr (Or.inr (Or.inl ⟨e, ⟨bytes, hfile, hnone⟩, rfl⟩))
    | ok text =>
      obtain ⟨s, rfl, hs⟩ := textOfBytes_eq_ok_iff.mp htext
      cases hparse : parse text p.text with
      | error e =>
        refine Or.inr (Or.inr (Or.inr ⟨s, e, hfile, hs ▸ hparse, ?_⟩))
        simp only [hparse]
      | ok records =>
        refine Or.inl ⟨records, ⟨s, hfile, hs ▸ hparse⟩, ?_⟩
        simp only [hparse]

theorem loadFile_of_read_error {e : FileError} (h : t.read cwd p = .error e) :
    loadFile t cwd p = .error (.file p.text e) := by
  rw [loadFile, h]
  rfl

theorem exists_decoding_of_isNoText (h : IsNoText t cwd p) :
    ∃ e, loadFile t cwd p = .error (.decoding e) := by
  obtain ⟨bytes, hfile, hno⟩ := h
  obtain ⟨e, he⟩ := exists_textOfBytes_error_iff.mpr hno
  refine ⟨e, ?_⟩
  rw [loadFile, FileTree.read_eq_ok_iff.mpr hfile]
  simp only [Except.mapError, bind, Except.bind, he]

theorem loadFile_eq_ok_iff : loadFile t cwd p = .ok records ↔ Holds t cwd p records := by
  constructor
  · intro h
    rcases loadFile_cases t cwd p with ⟨records', hholds, hload⟩ | ⟨e, _, hload⟩ | ⟨e, _, hload⟩ |
      ⟨s, e, _, _, hload⟩
    · rw [hload] at h
      exact Except.ok.inj h ▸ hholds
    · rw [hload] at h; cases h
    · rw [hload] at h; cases h
    · rw [hload] at h; cases h
  · rintro ⟨s, hfile, hparse⟩
    have htext := textOfBytes_eq_ok_iff.mpr ⟨s, rfl, rfl⟩
    rw [loadFile, FileTree.read_eq_ok_iff.mpr hfile]
    simp only [Except.mapError, bind, Except.bind, htext, hparse]

theorem not_holds_of_obstacle (h : Obstacle t cwd p) : ¬ Holds t cwd p records := by
  rintro ⟨s, hfile, hparse⟩
  -- what a path leads to, and what text bytes are those of, is determined
  have huniq : ∀ bytes, t.LeadsToFile cwd p bytes → bytes = Utf8.encode s := by
    intro bytes hbytes
    have hread := FileTree.read_eq_ok_iff.mpr hfile
    rw [FileTree.read_eq_ok_iff.mpr hbytes] at hread
    exact Except.ok.inj hread
  cases h with
  | absent hnone => exact hnone _ hfile
  | directory hnone => exact hnone _ hfile
  | noText hno =>
    obtain ⟨bytes, hbytes, hno⟩ := hno
    exact hno s (huniq bytes hbytes).symm
  | @noDeclarations s' hfile' hnone =>
    have hsame := Utf8.encode_injective (huniq _ hfile')
    exact hnone records (hsame ▸ hparse)

/-- Loading a file fails exactly at an obstacle. -/
theorem exists_loadFile_error_iff : (∃ e, loadFile t cwd p = .error e) ↔ Obstacle t cwd p := by
  constructor
  · rintro ⟨e, he⟩
    rcases loadFile_cases t cwd p with ⟨records, _, hload⟩ | ⟨e, hread, _⟩ | ⟨e, hno, _⟩ |
      ⟨s, e, hfile, hparse, _⟩
    · rw [hload] at he; cases he
    · have hnone : ∀ bytes, ¬ t.LeadsToFile cwd p bytes := by
        intro bytes hbytes
        rw [FileTree.read_eq_ok_iff.mpr hbytes] at hread
        cases hread
      cases hdir : t.leadsToDirectory cwd p with
      | false => exact .absent hnone hdir
      | true => exact .directory hnone hdir
    · exact .noText hno
    · exact .noDeclarations hfile fun records hrecords => by rw [hparse] at hrecords; cases hrecords
  · intro h
    cases hload : loadFile t cwd p with
    | error e => exact ⟨e, rfl⟩
    | ok records => exact absurd (loadFile_eq_ok_iff.mp hload) (not_holds_of_obstacle h)

/-- Every failure to open a file is an error about declarations, save for a path that is none. -/
theorem LoadError.isDeclarationError_file {source : String} {e : FileError} :
    (LoadError.file source e).isDeclarationError = false ↔ e = .nullCharacter := by
  cases e <;> simp [LoadError.isDeclarationError]

/-- The error of a file is one about declarations, unless no file can have the path, or there is no
text in the file. -/
theorem exists_foreign_error_iff :
    (∃ e, loadFile t cwd p = .error e ∧ e.isDeclarationError = false) ↔
      Char.ofNat 0 ∈ p.text.toList ∨ IsNoText t cwd p := by
  have hnull : t.read cwd p = .error .nullCharacter ↔ Char.ofNat 0 ∈ p.text.toList :=
    FileTree.read_eq_nullCharacter_iff
  rw [← hnull]
  constructor
  · rintro ⟨e, he, hforeign⟩
    rcases loadFile_cases t cwd p with ⟨records, _, hload⟩ | ⟨e', hread, hload⟩ | ⟨e', hno, hload⟩ |
      ⟨s, e', _, _, hload⟩
    · rw [hload] at he; cases he
    · rw [hload] at he
      obtain rfl := Except.error.inj he
      exact Or.inl (LoadError.isDeclarationError_file.mp hforeign ▸ hread)
    · exact Or.inr hno
    · rw [hload] at he
      obtain rfl := Except.error.inj he
      cases hforeign
  · rintro (hnull | hno)
    · exact ⟨_, loadFile_of_read_error hnull, rfl⟩
    · obtain ⟨e, he⟩ := exists_decoding_of_isNoText hno
      exact ⟨_, he, rfl⟩

/-! ## Several files -/

theorem load_cons (t : FileTree) (cwd : Place) (p : Path) (paths : List Path) :
    load t cwd (p :: paths) = do
      let first ← loadFile t cwd p
      let others ← load t cwd paths
      return first ++ others := by
  rw [load, loadUntilFailure]
  cases loadFile t cwd p with
  | error e => rfl
  | ok records =>
    simp only [load]
    cases (loadUntilFailure t cwd paths).failure with
    | none => rfl
    | some e => rfl

/-- Several files hold what each of them holds, in order. -/
theorem load_eq_ok_iff : load t cwd paths = .ok records ↔
    ∃ parts, List.Forall₂ (Holds t cwd) paths parts ∧ records = parts.flatten := by
  induction paths generalizing records with
  | nil =>
    constructor
    · intro h
      exact ⟨[], .nil, (Except.ok.inj h).symm⟩
    · rintro ⟨parts, hparts, rfl⟩
      rw [List.forall₂_nil_left_iff.mp hparts]
      rfl
  | cons p paths ih =>
    rw [load_cons]
    constructor
    · intro h
      cases hfirst : loadFile t cwd p with
      | error e => rw [hfirst] at h; cases h
      | ok first =>
        cases hothers : load t cwd paths with
        | error e => rw [hfirst, hothers] at h; cases h
        | ok others =>
          rw [hfirst, hothers] at h
          obtain ⟨parts, hparts, rfl⟩ := ih.mp hothers
          exact ⟨first :: parts, .cons (loadFile_eq_ok_iff.mp hfirst) hparts,
            (Except.ok.inj h).symm⟩
    · rintro ⟨parts, hparts, rfl⟩
      cases hparts with
      | @cons _ first _ parts hfirst hparts =>
        rw [loadFile_eq_ok_iff.mpr hfirst, ih.mpr ⟨parts, hparts, rfl⟩]
        rfl

/-- A load fails at the first file, or it passes the first file and fails later. -/
theorem load_cons_eq_error_iff : load t cwd (p :: paths) = .error e ↔
    loadFile t cwd p = .error e ∨ ¬ Obstacle t cwd p ∧ load t cwd paths = .error e := by
  rw [load_cons, ← exists_loadFile_error_iff]
  cases loadFile t cwd p with
  | error e' => simp [bind, Except.bind]
  | ok first =>
    cases load t cwd paths with
    | error e' => simp [bind, Except.bind]
    | ok others => simp [bind, Except.bind, pure, Except.pure]

/-- Loading ends with the error of the first file that has one. -/
theorem load_eq_error_iff : load t cwd paths = .error e ↔
    ∃ before p after, paths = before ++ p :: after ∧ (∀ q ∈ before, ¬ Obstacle t cwd q) ∧
      loadFile t cwd p = .error e := by
  induction paths with
  | nil =>
    refine iff_of_false (fun h => by cases h) ?_
    rintro ⟨before, p, after, hpaths, _⟩
    cases before <;> cases hpaths
  | cons p paths ih =>
    rw [load_cons_eq_error_iff, ih]
    constructor
    · rintro (hfirst | ⟨hclear, before, q, after, rfl, hbefore, hq⟩)
      · exact ⟨[], p, paths, rfl, by simp, hfirst⟩
      · exact ⟨p :: before, q, after, rfl, List.forall_mem_cons.mpr ⟨hclear, hbefore⟩, hq⟩
    · rintro ⟨before, q, after, hpaths, hbefore, hq⟩
      cases before with
      | nil =>
        obtain ⟨rfl, rfl⟩ := List.cons.inj hpaths
        exact Or.inl hq
      | cons r before =>
        obtain ⟨rfl, rfl⟩ := List.cons.inj hpaths
        obtain ⟨hclear, hbefore⟩ := List.forall_mem_cons.mp hbefore
        exact Or.inr ⟨hclear, before, q, after, rfl, hbefore, hq⟩

/-- **What loading several files comes to.**  Without an obstacle it is what each of the files
holds, in order; otherwise it fails.  The error is not one about declarations exactly if the first
file with an obstacle has a path that is none, or bytes that are no text. -/
theorem load_outcome (t : FileTree) (cwd : Place) (paths : List Path) :
    (∀ records, load t cwd paths = .ok records ↔
      ∃ parts, List.Forall₂ (Holds t cwd) paths parts ∧ records = parts.flatten) ∧
    ((∃ e, load t cwd paths = .error e) ↔ ∃ p ∈ paths, Obstacle t cwd p) ∧
    ((∃ e, load t cwd paths = .error e ∧ e.isDeclarationError = false) ↔
      ∃ before p after, paths = before ++ p :: after ∧ (∀ q ∈ before, ¬ Obstacle t cwd q) ∧
        (Char.ofNat 0 ∈ p.text.toList ∨ IsNoText t cwd p)) := by
  refine ⟨fun records => load_eq_ok_iff, ?_, ?_⟩
  · constructor
    · rintro ⟨e, he⟩
      obtain ⟨before, p, after, rfl, _, hp⟩ := load_eq_error_iff.mp he
      exact ⟨p, by simp, exists_loadFile_error_iff.mp ⟨e, hp⟩⟩
    · rintro ⟨p, hp, hobstacle⟩
      cases hload : load t cwd paths with
      | error e => exact ⟨e, rfl⟩
      | ok records =>
        obtain ⟨parts, hparts, _⟩ := load_eq_ok_iff.mp hload
        obtain ⟨i, hi, rfl⟩ := List.getElem_of_mem hp
        obtain ⟨hlength, hget⟩ := List.forall₂_iff_get.mp hparts
        exact absurd (hget i hi (hlength ▸ hi)) (not_holds_of_obstacle hobstacle)
  · constructor
    · rintro ⟨e, he, hforeign⟩
      obtain ⟨before, p, after, hpaths, hbefore, hp⟩ := load_eq_error_iff.mp he
      exact ⟨before, p, after, hpaths, hbefore, exists_foreign_error_iff.mp ⟨e, hp, hforeign⟩⟩
    · rintro ⟨before, p, after, hpaths, hbefore, hp⟩
      obtain ⟨e, he, hforeign⟩ := exists_foreign_error_iff.mpr hp
      exact ⟨e, load_eq_error_iff.mpr ⟨before, p, after, hpaths, hbefore, he⟩, hforeign⟩

/-- A tree with one file, whose single byte begins no character. -/
def strayByte : FileTree := ⟨[(["latin.bp"], .file [0xff])]⟩

/-- A file that is no text is reported, and not as an error about declarations. -/
theorem load_fails_of_stray_byte :
    load strayByte [] [.ofText "latin.bp"] = .error (.decoding ⟨0xff, 0, 1, .badStart⟩) ∧
      IsNoText strayByte [] (.ofText "latin.bp") ∧
      (LoadError.decoding ⟨0xff, 0, 1, .badStart⟩).isDeclarationError = false := by
  have hlocate : strayByte.locate [] (.ofText "latin.bp") = .ok ["latin.bp"] := by
    rw [FileTree.locate_eq_walk (by decide) (by decide)]
    rfl
  have hread : strayByte.read [] (.ofText "latin.bp") = .ok [0xff] :=
    FileTree.read_of_locate hlocate rfl
  have hdecode : textOfBytes [0xff] = .error ⟨0xff, 0, 1, .badStart⟩ := rfl
  have hload : loadFile strayByte [] (.ofText "latin.bp") =
      .error (.decoding ⟨0xff, 0, 1, .badStart⟩) := by
    rw [loadFile, hread]
    simp only [Except.mapError, bind, Except.bind, hdecode]
  refine ⟨?_, ⟨[0xff], FileTree.read_eq_ok_iff.mp hread, ?_⟩, rfl⟩
  · rw [load_cons, hload]
    rfl
  · exact exists_textOfBytes_error_iff.mp ⟨_, hdecode⟩

end CheckRegistry.Declaration
