import Mathlib.Data.List.Nodup
import CheckRegistry.Page.Catalog
import CheckRegistry.Proofs.FileTree
import CheckRegistry.Proofs.Link
import CheckRegistry.Proofs.Lists.Search
import CheckRegistry.Proofs.Registry

/-! # What a documentation pass leaves behind

A pass makes pages from a file tree that it changes as it goes.  As long as it does not write below
the directory that examples are read from, no page depends on the pages before it (`pageText_put`),
so all of them can be computed from the tree at the beginning: `files` lists what is written, and
`generate_eq_ok_iff` says that a pass writes these files, in this order, and ends well exactly if
the directory accepts each of them.

What an index has to say is stated without the functions that put it together (`IsIndex`); the text
that they make is the only one that says it (`isIndex_iff`).

Of the files of a pass only the last of each name is left.  The name of a file forgets which
characters of the check's name a file name cannot have, and one of the names is taken by the index.
So pages get lost exactly if two checks with pages have the same file name, or one has that of the
index (`pages_kept_iff`).
-/

namespace CheckRegistry

variable {provider : Option Provider} {site : String} {cwd : Place} {out : Path} {t : FileTree}

/-! ## Examples after a write -/

theorem FileTree.Fits.fixtureRoot?_put {dir : Place} {name : String} (h : t.Fits dir name)
    (bytes : List UInt8) (cwd : Place) (root : Path) :
    fixtureRoot? (t.put (dir ++ [name]) bytes) cwd root = fixtureRoot? t cwd root := by
  rw [fixtureRoot?, fixtureRoot?]
  rcases h.locate_put bytes cwd root with hsame | ⟨hbefore, hafter⟩
  · rw [hsame]
    simp only [h.isDirectory_put]
  · rw [hbefore, hafter]

theorem eq_resolve_of_fixtureRoot? {root : Path} {place : Place}
    (h : fixtureRoot? t cwd root = .ok (some place)) : place = root.resolve cwd := by
  rw [fixtureRoot?] at h
  split at h
  next p hlocate =>
    have hplace : (if t.isDirectory p = true then some p else none) = some place :=
      Except.ok.inj h
    split at hplace
    · exact Option.some.inj hplace ▸ FileTree.eq_resolve_of_locate hlocate
    · cases hplace
  · cases h
  · cases h

namespace Catalog

/-- The output directory does not lie below the directory that examples are read from. -/
def Apart (provider : Option Provider) (cwd : Place) (out : Path) : Prop :=
  ∀ root suffixes, provider = some (.fixtures root suffixes) →
    ¬ root.resolve cwd <+: out.resolve cwd

theorem examples_put {p : Provider} {name : String} (hapart : Apart (some p) cwd out)
    (h : t.Fits (out.resolve cwd) name) (bytes : List UInt8) (check : String) :
    p.examples (t.put (out.resolve cwd ++ [name]) bytes) cwd check = p.examples t cwd check := by
  cases p with
  | none => rfl
  | table entries => rfl
  | fixtures root suffixes =>
    rw [Provider.examples, Provider.examples, h.fixtureRoot?_put]
    split
    · rfl
    · rfl
    next place hroot =>
      rw [eq_resolve_of_fixtureRoot? hroot, Fixture.examples, Fixture.examples, Fixture.find,
        Fixture.find, FileTree.filesBelow_put (hapart root suffixes rfl)]

/-- The page of a check does not depend on a file in the output directory. -/
theorem pageText_put {name : String} (hapart : Apart provider cwd out)
    (h : t.Fits (out.resolve cwd) name) (bytes : List UInt8) (c : Check) :
    pageText provider site cwd (t.put (out.resolve cwd ++ [name]) bytes) c =
      pageText provider site cwd t c := by
  rw [pageText, pageText, Page.assemble]
  cases c.link? site with
  | error e => rfl
  | ok link =>
    show Page.text _ _ _ = Page.text _ _ _
    rw [Page.text, Page.text, Page.examples, Page.examples]
    cases c.generateExamples with
    | false => rfl
    | true =>
      cases provider with
      | none => rfl
      | some p =>
        show (p.examples _ _ _).map _ = (p.examples _ _ _).map _
        rw [examples_put hapart h]

/-! ## Names of files -/

theorem fileName_eq_iff {a b : String} : fileName a = fileName b ↔
    (a.toList.map fun c => if Link.isSlugChar c then c else '_') =
      b.toList.map fun c => if Link.isSlugChar c then c else '_' := by
  rw [fileName, fileName, String.append_left_inj, String.ofList_inj]

theorem fileName_ne_parent (check : String) : fileName check ≠ ".." := by
  intro h
  have hlength := congrArg String.length h
  rw [fileName, String.length_append] at hlength
  have hparent : "..".length = 2 := rfl
  have hsuffix : ".md".length = 3 := rfl
  omega

/-- A check is written into the file of the index exactly if it has the name of the index. -/
theorem fileName_eq_indexFile_iff {check : String} :
    fileName check = indexFile ↔ check = "index" := by
  have hindex : indexFile = fileName "index" := by decide
  constructor
  · intro h
    rw [hindex, fileName_eq_iff] at h
    -- no underscore in the name of the index, so none of the characters was replaced
    have hkept : ∀ c ∈ check.toList, (if Link.isSlugChar c then c else '_') = c := by
      intro c hc
      have hmem := h ▸ List.mem_map_of_mem hc
      by_cases hslug : Link.isSlugChar c = true
      · rw [if_pos hslug]
      · rw [if_neg hslug] at hmem
        exact absurd hmem (by decide)
    rw [List.map_congr_left hkept, List.map_id'] at h
    exact String.toList_inj.mp (h.trans (by decide))
  · rintro rfl
    exact hindex.symm

example : fileName "A/B" = fileName "A?B" := by decide

/-! ## What an index says -/

/-- A file has the name for a check's page: that of the check, with an underscore for each character
that may not stand in an address, and with an ending. -/
def NamesPage (check file : String) : Prop :=
  ∃ stem : List Char, file = String.ofList stem ++ ".md" ∧
    List.Forall₂ (fun c d => Link.SlugChar c ∧ d = c ∨ ¬ Link.SlugChar c ∧ d = '_')
      check.toList stem

/-- How an index spells a severity. -/
def severityWord : Severity → String
  | .error => "ERROR"
  | .warning => "WARNING"
  | .suggestion => "SUGGESTION"

/-- A line of an index is about a check: it has its name with a link to the file of its page, how
severe its findings are, and its summary. -/
def IsRow (c : Check) (line : String) : Prop :=
  ∃ file, NamesPage c.name file ∧
    line = "| [" ++ c.name ++ "](" ++ file ++ ") | " ++ severityWord c.severity ++ " | " ++
      c.summary ++ " |"

/-- A text is an index of some checks: the four lines of a head, and then a line about each check,
in this order.  Each line ends in a line feed. -/
def IsIndex (listed : List Check) (text : String) : Prop :=
  ∃ rows : List String, List.Forall₂ IsRow listed rows ∧
    text = String.join ((["# Bug patterns", "", "| Name | Severity | Summary |", "|---|---|---|"] ++
      rows).map (· ++ "\n"))

theorem namesPage_iff {check file : String} : NamesPage check file ↔ file = fileName check := by
  have hsame (c d : Char) : (Link.SlugChar c ∧ d = c ∨ ¬ Link.SlugChar c ∧ d = '_') ↔
      (if Link.isSlugChar c then c else '_') = d := by
    rw [← Link.isSlugChar_iff]
    cases Link.isSlugChar c with
    | true => simp [@eq_comm _ d]
    | false => simp [@eq_comm _ d]
  simp only [NamesPage, Lists.forall₂_iff_map_eq hsame]
  constructor
  · rintro ⟨_, rfl, rfl⟩
    rfl
  · rintro rfl
    exact ⟨_, rfl, rfl⟩

theorem isRow_iff {c : Check} {line : String} : IsRow c line ↔ line = indexRow c := by
  have hword : severityWord c.severity = Vocabulary.word c.severity := by
    cases c.severity <;> rfl
  simp only [IsRow, namesPage_iff, exists_eq_left, indexRow, hword]

theorem toList_indexText (rows : List String) : (indexText rows).toList =
    ((indexHead ++ rows).map String.toList).flatMap (· ++ ['\n']) := by
  have general : ∀ (row : String) (rows : List String),
      ("\n".intercalate (row :: rows) ++ "\n").toList =
        ((row :: rows).map String.toList).flatMap (· ++ ['\n']) := by
    intro row rows
    induction rows generalizing row with
    | nil => simp
    | cons next rows ih =>
      rw [String.intercalate_cons_cons, String.append_assoc, String.toList_append, ih]
      simp
  exact general _ _

/-- There is one index of some checks, and it is the one that is written. -/
theorem isIndex_iff {listed : List Check} {text : String} :
    IsIndex listed text ↔ text = indexText (listed.map indexRow) := by
  have hrow (c : Check) (line : String) : IsRow c line ↔ indexRow c = line :=
    isRow_iff.trans eq_comm
  have hjoin (rows : List String) :
      String.join ((indexHead ++ rows).map (· ++ "\n")) = indexText rows := by
    simp [← String.toList_inj, toList_indexText, String.toList_join, List.flatMap_map]
  simp only [IsIndex, Lists.forall₂_iff_map_eq hrow, exists_eq_left', ← hjoin]
  rfl

/-- A directory has an index of some checks. -/
def HasIndex (cwd : Place) (out : Path) (listed : List Check) (t : FileTree) : Prop :=
  ∃ text, IsIndex listed text ∧
    t.file? ((out.child "index.md").resolve cwd) = some (Utf8.encode text)

theorem hasIndex_iff {listed : List Check} : HasIndex cwd out listed t ↔
    t.file? ((out.child indexFile).resolve cwd) =
      some (Utf8.encode (indexText (listed.map indexRow))) := by
  simp only [HasIndex, isIndex_iff, exists_eq_left, indexFile]

/-! ## The files of a pass -/

/-- The checks whose pages can be made, with their pages. -/
def pages (provider : Option Provider) (site : String) (cwd : Place) (t : FileTree)
    (checks : List Check) : List (Check × String) :=
  checks.filterMap fun c =>
    match pageText provider site cwd t c with
    | .ok text => some (c, text)
    | .error _ => none

/-- The files of a pass over some checks with their texts, in the order in which they are
written: the pages that can be made, and the index of them. -/
def files (provider : Option Provider) (site : String) (cwd : Place) (t : FileTree)
    (checks : List Check) : List (String × String) :=
  let made := pages provider site cwd t checks
  made.map (fun p => (fileName p.1.name, p.2)) ++
    [(indexFile, indexText (made.map fun p => indexRow p.1))]

/-- The tree in which some files have been written into the output directory. -/
def withFiles (t : FileTree) (cwd : Place) (out : Path) (files : List (String × String)) :
    FileTree :=
  t.putAll (out.resolve cwd) (files.map fun f => (f.1, Utf8.encode f.2))

theorem withFiles_concat (files : List (String × String)) (name text : String) :
    withFiles t cwd out (files ++ [(name, text)]) =
      (withFiles t cwd out files).put (out.resolve cwd ++ [name]) (Utf8.encode text) := by
  rw [withFiles, List.map_append, List.map_singleton, FileTree.putAll_concat, ← withFiles]

/-- The file written last is there in the end. -/
theorem file?_withFiles_concat (files : List (String × String)) {name : String}
    (hname : name ≠ "..") (text : String) :
    (withFiles t cwd out (files ++ [(name, text)])).file? ((out.child name).resolve cwd) =
      some (Utf8.encode text) := by
  rw [withFiles_concat, Path.resolve_child out cwd hname, FileTree.file?_put, if_pos rfl]

/-- The index of some pages is there when it is written after them. -/
theorem hasIndex_withFiles (pages : List (Check × String)) :
    HasIndex cwd out (pages.map Prod.fst) (withFiles t cwd out
      (pages.map (fun p => (fileName p.1.name, p.2)) ++
        [(indexFile, indexText (pages.map fun p => indexRow p.1))])) := by
  rw [hasIndex_iff, file?_withFiles_concat _ (by decide), List.map_map]
  rfl

theorem mem_pages {checks : List Check} {c : Check} {text : String} :
    (c, text) ∈ pages provider site cwd t checks ↔
      c ∈ checks ∧ pageText provider site cwd t c = .ok text := by
  rw [pages, List.mem_filterMap]
  constructor
  · rintro ⟨d, hd, hpage⟩
    split at hpage
    next text' htext =>
      obtain ⟨rfl, rfl⟩ := Prod.mk.inj (Option.some.inj hpage)
      exact ⟨hd, htext⟩
    · cases hpage
  · rintro ⟨hc, htext⟩
    exact ⟨c, hc, by rw [htext]⟩

/-- A pass with one more page in a directory, and with this log. -/
def Pass.withPage (pass : Pass) (dir : Place) (c : Check) (text : String)
    (log : List LogEntry) : Pass :=
  { pass with
    tree := pass.tree.put (dir ++ [fileName c.name]) (Utf8.encode text)
    written := pass.written ++ [fileName c.name]
    rows := pass.rows ++ [indexRow c]
    log }

/-- A pass with one more failure, and with this log. -/
def Pass.withFailure (pass : Pass) (check reason : String) (log : List LogEntry) : Pass :=
  { pass with failed := setFailed check reason pass.failed, log }

/-- What a pass has done when it has written some pages, from a tree on. -/
structure Wrote (cwd : Place) (out : Path) (t : FileTree) (pages : List (Check × String))
    (pass : Pass) : Prop where
  tree : pass.tree = withFiles t cwd out (pages.map fun p => (fileName p.1.name, p.2))
  written : pass.written = pages.map fun p => fileName p.1.name
  rows : pass.rows = pages.map fun p => indexRow p.1
  /-- The pages written have not changed which files the directory accepts. -/
  accepts : ∀ name, pass.tree.Accepts cwd out name ↔ t.Accepts cwd out name

theorem wrote_nil : Wrote cwd out t [] ⟨t, [], [], [], []⟩ where
  tree := rfl
  written := rfl
  rows := rfl
  accepts := fun _ => Iff.rfl

section

variable {pages : List (Check × String)} {pass pass' : Pass} {c : Check}

/-- The directory is as ready for a file as it was at the beginning. -/
theorem Wrote.write_iff {name : String} {bytes : List UInt8} {tree : FileTree}
    (h : Wrote cwd out t pages pass) (hname : name ≠ "..") :
    pass.tree.write cwd (out.child name) bytes = .ok tree ↔
      t.Accepts cwd out name ∧ tree = pass.tree.put (out.resolve cwd ++ [name]) bytes := by
  rw [FileTree.write_child_iff hname, h.accepts]

theorem Wrote.concat (h : Wrote cwd out t pages pass)
    (haccepts : t.Accepts cwd out (fileName c.name)) (text : String) (log : List LogEntry) :
    Wrote cwd out t (pages ++ [(c, text)]) (pass.withPage (out.resolve cwd) c text log) := by
  have hfits := ((h.accepts _).mpr haccepts).fits
  refine ⟨?_, ?_, ?_, ?_⟩
  · rw [List.map_append, List.map_singleton, withFiles_concat, ← h.tree]
    rfl
  · rw [List.map_append, ← h.written]; rfl
  · rw [List.map_append, ← h.rows]; rfl
  · intro name
    rw [Pass.withPage, hfits.accepts_put, h.accepts]

/-- All that a step can do: report a failure, or write a page that the directory accepts. -/
theorem Wrote.step_cases (h : Wrote cwd out t pages pass)
    (hs : step provider site cwd out pass c = .ok pass') :
    (∃ e reason log, pageText provider site cwd pass.tree c = .error e ∧
      pass' = pass.withFailure c.name reason log) ∨
    ∃ text log, pageText provider site cwd pass.tree c = .ok text ∧
      t.Accepts cwd out (fileName c.name) ∧
      pass' = pass.withPage (out.resolve cwd) c text log := by
  rw [step] at hs
  cases hpage : pageText provider site cwd pass.tree c with
  | error e =>
    rw [hpage] at hs
    exact Or.inl ⟨e, _, _, rfl, (Except.ok.inj hs).symm⟩
  | ok text =>
    rw [hpage] at hs
    cases htree : pass.tree.write cwd (out.child (fileName c.name)) (Utf8.encode text) with
    | error e => simp [htree] at hs
    | ok tree =>
      obtain ⟨haccepts, rfl⟩ := (h.write_iff (fileName_ne_parent c.name)).mp htree
      simp only [htree] at hs
      exact Or.inr ⟨text, _, rfl, haccepts, (Except.ok.inj hs).symm⟩

/-- A step goes on from a pass, provided that the directory accepts the page, if there is one. -/
theorem Wrote.step_iff (h : Wrote cwd out t pages pass) :
    (∃ pass', step provider site cwd out pass c = .ok pass') ↔
      ∀ text, pageText provider site cwd pass.tree c = .ok text →
        t.Accepts cwd out (fileName c.name) := by
  constructor
  · rintro ⟨pass', hs⟩ text htext
    rcases h.step_cases hs with ⟨e, _, _, hpage, _⟩ | ⟨_, _, _, haccepts, _⟩
    · cases htext.symm.trans hpage
    · exact haccepts
  · intro haccepts
    rw [step]
    cases hpage : pageText provider site cwd pass.tree c with
    | error e => simp
    | ok text => simp [(h.write_iff (fileName_ne_parent c.name)).mpr ⟨haccepts text hpage, rfl⟩]

/-- All that the end of a pass can do: write the index, if the directory accepts it. -/
theorem Wrote.finish_cases (h : Wrote cwd out t pages pass)
    (hs : finish cwd out pass = .ok pass') :
    t.Accepts cwd out indexFile ∧ ∃ log, pass' =
      { pass with
        tree := pass.tree.put (out.resolve cwd ++ [indexFile]) (Utf8.encode (indexText pass.rows))
        written := pass.written ++ [indexFile]
        log } := by
  rw [finish] at hs
  cases htree : pass.tree.write cwd (out.child indexFile) (Utf8.encode (indexText pass.rows)) with
  | error e => simp [htree] at hs
  | ok tree =>
    obtain ⟨haccepts, rfl⟩ := (h.write_iff (by decide)).mp htree
    simp only [htree] at hs
    exact ⟨haccepts, _, (Except.ok.inj hs).symm⟩

theorem Wrote.finish_iff (h : Wrote cwd out t pages pass) :
    (∃ pass', finish cwd out pass = .ok pass') ↔ t.Accepts cwd out indexFile := by
  constructor
  · rintro ⟨pass', hs⟩
    exact (h.finish_cases hs).1
  · intro haccepts
    have hname : indexFile ≠ ".." := by decide
    rw [finish]
    simp [(h.write_iff hname).mpr ⟨haccepts, rfl⟩]

/-- The tree with the pages and the index of them. -/
theorem Wrote.put_index (h : Wrote cwd out t pages pass) :
    pass.tree.put (out.resolve cwd ++ [indexFile]) (Utf8.encode (indexText pass.rows)) =
      withFiles t cwd out (pages.map (fun p => (fileName p.1.name, p.2)) ++
        [(indexFile, indexText (pages.map fun p => indexRow p.1))]) := by
  rw [withFiles_concat, ← h.tree, ← h.rows]

end

/-- What a pass has done when it has gone through some checks, from a tree on. -/
structure Reached (provider : Option Provider) (site : String) (cwd : Place) (out : Path)
    (t : FileTree) (done : List Check) (pass : Pass) : Prop
    extends Wrote cwd out t (pages provider site cwd t done) pass where
  failed : ∀ name, name ∈ pass.failed.map Prod.fst ↔
    ∃ c ∈ done, c.name = name ∧ ∀ text, pageText provider site cwd t c ≠ .ok text
  /-- A name fails only once. -/
  once : (pass.failed.map Prod.fst).Nodup
  /-- The pages written have changed no page. -/
  pageText : ∀ c, pageText provider site cwd pass.tree c = pageText provider site cwd t c

theorem reached_nil : Reached provider site cwd out t [] ⟨t, [], [], [], []⟩ where
  toWrote := wrote_nil
  failed := by simp
  once := List.nodup_nil
  pageText := fun _ => rfl

theorem mem_map_fst_setFailed {name reason n : String} {failed : List (String × String)} :
    n ∈ (setFailed name reason failed).map Prod.fst ↔ n = name ∨ n ∈ failed.map Prod.fst := by
  induction failed with
  | nil => simp [setFailed]
  | cons f rest ih =>
    obtain ⟨m, old⟩ := f
    by_cases h : m = name
    · subst h
      simp [setFailed]
    · simp only [setFailed, h, ite_false, List.map_cons, List.mem_cons, ih]
      tauto

theorem nodup_map_fst_setFailed {name reason : String} {failed : List (String × String)}
    (h : (failed.map Prod.fst).Nodup) : ((setFailed name reason failed).map Prod.fst).Nodup := by
  induction failed with
  | nil => exact List.nodup_singleton name
  | cons f rest ih =>
    obtain ⟨m, old⟩ := f
    rw [List.map_cons, List.nodup_cons] at h
    by_cases hm : m = name
    · subst hm
      simpa [setFailed] using h
    · simp only [setFailed, hm, ite_false, List.map_cons, List.nodup_cons]
      refine ⟨?_, ih h.2⟩
      rw [mem_map_fst_setFailed, not_or]
      exact ⟨hm, h.1⟩

variable {done checks : List Check} {pass pass' : Pass} {c : Check} {text : String}

theorem pages_concat_of_ok (h : Catalog.pageText provider site cwd t c = .ok text) :
    pages provider site cwd t (done ++ [c]) = pages provider site cwd t done ++ [(c, text)] := by
  rw [pages, pages, List.filterMap_append, List.filterMap_cons, h]
  rfl

theorem pages_concat_of_error {e : PageError}
    (h : Catalog.pageText provider site cwd t c = .error e) :
    pages provider site cwd t (done ++ [c]) = pages provider site cwd t done := by
  rw [pages, pages, List.filterMap_append, List.filterMap_cons, h]
  exact List.append_nil _

/-- A page that cannot be made is one more failure, whatever is logged about it. -/
theorem Reached.reported {e : PageError} (h : Reached provider site cwd out t done pass)
    (hpage : Catalog.pageText provider site cwd t c = .error e) (reason : String)
    (log : List LogEntry) :
    Reached provider site cwd out t (done ++ [c]) (pass.withFailure c.name reason log) := by
  have hpages : pages provider site cwd t (done ++ [c]) = pages provider site cwd t done :=
    pages_concat_of_error hpage
  refine ⟨hpages.symm ▸ ⟨h.tree, h.written, h.rows, h.accepts⟩, ?_,
    nodup_map_fst_setFailed h.once, h.pageText⟩
  intro name
  rw [Pass.withFailure, mem_map_fst_setFailed, h.failed]
  constructor
  · rintro (rfl | ⟨d, hd, hfail⟩)
    · exact ⟨c, by simp, rfl, by simp [hpage]⟩
    · exact ⟨d, List.mem_append_left _ hd, hfail⟩
  · rintro ⟨d, hd, hname, hfail⟩
    rcases List.mem_append.mp hd with hd | hd
    · exact Or.inr ⟨d, hd, hname, hfail⟩
    · exact Or.inl (List.mem_singleton.mp hd ▸ hname.symm)

/-- A page that is made is one more file.  It is not below the examples, so the pages to come are
what they were. -/
theorem Reached.wrote (hapart : Apart provider cwd out)
    (h : Reached provider site cwd out t done pass)
    (hpage : Catalog.pageText provider site cwd t c = .ok text)
    (haccepts : t.Accepts cwd out (fileName c.name)) (log : List LogEntry) :
    Reached provider site cwd out t (done ++ [c])
      (pass.withPage (out.resolve cwd) c text log) := by
  have hpages : pages provider site cwd t (done ++ [c]) =
      pages provider site cwd t done ++ [(c, text)] := pages_concat_of_ok hpage
  refine ⟨hpages.symm ▸ h.toWrote.concat haccepts text log, ?_, h.once, ?_⟩
  · intro name
    rw [Pass.withPage, h.failed]
    constructor
    · rintro ⟨d, hd, hfail⟩
      exact ⟨d, List.mem_append_left _ hd, hfail⟩
    · rintro ⟨d, hd, hname, hfail⟩
      rcases List.mem_append.mp hd with hd | hd
      · exact ⟨d, hd, hname, hfail⟩
      · exact absurd (List.mem_singleton.mp hd ▸ hpage) (hfail text)
  · intro d
    rw [Pass.withPage, pageText_put hapart ((h.accepts _).mpr haccepts).fits, h.pageText]

theorem Reached.step (hapart : Apart provider cwd out)
    (h : Reached provider site cwd out t done pass)
    (hs : Catalog.step provider site cwd out pass c = .ok pass') :
    Reached provider site cwd out t (done ++ [c]) pass' := by
  rcases h.toWrote.step_cases hs with ⟨e, reason, log, hpage, rfl⟩ |
    ⟨text, log, hpage, haccepts, rfl⟩
  · exact h.reported (h.pageText c ▸ hpage) reason log
  · exact h.wrote hapart (h.pageText c ▸ hpage) haccepts log

/-- A pass goes through checks, provided that the directory accepts all their pages. -/
theorem Reached.foldlM_iff (hapart : Apart provider cwd out)
    (h : Reached provider site cwd out t done pass) :
    (∃ pass', checks.foldlM (Catalog.step provider site cwd out) pass = .ok pass') ↔
      ∀ c ∈ checks, ∀ text, Catalog.pageText provider site cwd t c = .ok text →
        t.Accepts cwd out (fileName c.name) := by
  induction checks generalizing done pass with
  | nil =>
    constructor
    · intro _ c hc
      cases hc
    · intro _
      exact ⟨pass, rfl⟩
  | cons c rest ih =>
    rw [List.foldlM_cons, List.forall_mem_cons, ← h.pageText, ← h.toWrote.step_iff]
    cases hs : Catalog.step provider site cwd out pass c with
    | error e =>
      constructor
      · rintro ⟨pass', hpass⟩
        cases hpass
      · rintro ⟨⟨pass', hpass⟩, _⟩
        cases hpass
    | ok next =>
      rw [← ih (h.step hapart hs)]
      exact ⟨fun hrest => ⟨⟨next, rfl⟩, hrest⟩, fun hrest => hrest.2⟩

theorem Reached.foldlM (hapart : Apart provider cwd out)
    (h : Reached provider site cwd out t done pass)
    (hs : checks.foldlM (Catalog.step provider site cwd out) pass = .ok pass') :
    Reached provider site cwd out t (done ++ checks) pass' := by
  induction checks generalizing done pass with
  | nil =>
    cases hs
    rwa [List.append_nil]
  | cons c rest ih =>
    rw [List.foldlM_cons] at hs
    cases hstep : Catalog.step provider site cwd out pass c with
    | error e => rw [hstep] at hs; cases hs
    | ok next =>
      rw [hstep] at hs
      have hrest := ih (h.step hapart hstep) hs
      rwa [List.append_assoc] at hrest

/-- What a pass over some checks has done in the end, from a tree on. -/
structure Done (provider : Option Provider) (site : String) (cwd : Place) (out : Path)
    (t : FileTree) (checks : List Check) (pass : Pass) : Prop where
  tree : pass.tree = withFiles t cwd out (files provider site cwd t checks)
  written : pass.written = (files provider site cwd t checks).map Prod.fst
  failed : ∀ name, name ∈ pass.failed.map Prod.fst ↔
    ∃ c ∈ checks, c.name = name ∧ ∀ text, pageText provider site cwd t c ≠ .ok text
  once : (pass.failed.map Prod.fst).Nodup
  pageText : ∀ c, pageText provider site cwd pass.tree c = pageText provider site cwd t c

theorem Reached.finish (hapart : Apart provider cwd out)
    (h : Reached provider site cwd out t done pass)
    (hs : Catalog.finish cwd out pass = .ok pass') : Done provider site cwd out t done pass' := by
  obtain ⟨haccepts, log, rfl⟩ := h.toWrote.finish_cases hs
  refine ⟨h.toWrote.put_index, ?_, h.failed, h.once, ?_⟩
  · rw [files, List.map_append, List.map_map, h.written]
    rfl
  · intro c
    rw [pageText_put hapart ((h.accepts _).mpr haccepts).fits, h.pageText]

theorem forall_mem_files {P : String → Prop} :
    (∀ f ∈ files provider site cwd t checks, P f.1) ↔
      (∀ c ∈ checks, ∀ text, Catalog.pageText provider site cwd t c = .ok text →
        P (fileName c.name)) ∧ P indexFile := by
  rw [files, List.forall_mem_append, List.forall_mem_map, List.forall_mem_singleton]
  refine and_congr_left fun _ => ?_
  constructor
  · intro h c hc text htext
    exact h (c, text) (mem_pages.mpr ⟨hc, htext⟩)
  · rintro h ⟨c, text⟩ hpage
    obtain ⟨hc, htext⟩ := mem_pages.mp hpage
    exact h c hc text htext

theorem generate_of_foldlM_error {made : FileTree} {fault : FileError × Pass}
    (hmade : t.makeDirectories cwd out = .ok made)
    (hrun : (Check.sortByName checks).foldlM (Catalog.step provider site cwd out)
      ⟨made, [], [], [], []⟩ = .error fault) :
    generate checks provider site t cwd out = .error fault := by
  simp only [generate, hmade, hrun]

theorem generate_of_foldlM_ok {made : FileTree} (hmade : t.makeDirectories cwd out = .ok made)
    (hrun : (Check.sortByName checks).foldlM (Catalog.step provider site cwd out)
      ⟨made, [], [], [], []⟩ = .ok pass) :
    generate checks provider site t cwd out = finish cwd out pass := by
  simp only [generate, hmade, hrun]

/-- A pass that ends well has made the directory, gone through all checks, and ended. -/
theorem generate_eq_ok_iff : generate checks provider site t cwd out = .ok pass' ↔
    ∃ made pass, t.makeDirectories cwd out = .ok made ∧
      (Check.sortByName checks).foldlM (Catalog.step provider site cwd out)
        ⟨made, [], [], [], []⟩ = .ok pass ∧
      finish cwd out pass = .ok pass' := by
  cases hmade : t.makeDirectories cwd out with
  | error e => simp [generate, hmade]
  | ok made =>
    cases hrun : (Check.sortByName checks).foldlM (Catalog.step provider site cwd out)
      ⟨made, [], [], [], []⟩ with
    | error fault => simp [generate_of_foldlM_error hmade hrun, hrun]
    | ok pass => simp [generate_of_foldlM_ok hmade hrun, hrun]

/-- **When a pass ends well.**  The output directory can be made, and then accepts a file for each
page that can be made, and one for the index. -/
theorem generate_isOk_iff (hapart : Apart provider cwd out) :
    (∃ pass, generate checks provider site t cwd out = .ok pass) ↔
      ∃ made, t.makeDirectories cwd out = .ok made ∧
        ∀ f ∈ files provider site cwd made (Check.sortByName checks),
          made.Accepts cwd out f.1 := by
  constructor
  · rintro ⟨pass', hpass⟩
    obtain ⟨made, pass, hmade, hrun, hfinish⟩ := generate_eq_ok_iff.mp hpass
    have hreached := reached_nil.foldlM hapart hrun
    refine ⟨made, hmade, forall_mem_files.mpr ⟨?_, ?_⟩⟩
    · exact (reached_nil.foldlM_iff hapart).mp ⟨pass, hrun⟩
    · exact hreached.toWrote.finish_iff.mp ⟨pass', hfinish⟩
  · rintro ⟨made, hmade, haccepts⟩
    obtain ⟨hpages, hindex⟩ := forall_mem_files.mp haccepts
    obtain ⟨pass, hrun⟩ := (reached_nil.foldlM_iff hapart).mpr hpages
    have hreached := reached_nil.foldlM hapart hrun
    obtain ⟨pass', hfinish⟩ := hreached.toWrote.finish_iff.mpr hindex
    exact ⟨pass', generate_eq_ok_iff.mpr ⟨made, pass, hmade, hrun, hfinish⟩⟩

theorem done_of_generate (hapart : Apart provider cwd out)
    (h : generate checks provider site t cwd out = .ok pass) :
    ∃ made, t.makeDirectories cwd out = .ok made ∧
      Done provider site cwd out made (Check.sortByName checks) pass := by
  obtain ⟨made, before, hmade, hrun, hfinish⟩ := generate_eq_ok_iff.mp h
  exact ⟨made, hmade, (reached_nil.foldlM hapart hrun).finish hapart hfinish⟩

/-! ## Which pages are left -/

/-- Whether a pass has made the page of a check. -/
def Pass.HasPage (pass : Pass) (c : Check) : Prop := c.name ∉ pass.failed.map Prod.fst

instance (pass : Pass) (c : Check) : Decidable (pass.HasPage c) :=
  inferInstanceAs (Decidable (_ ∉ _))

/-- No page of a pass is lost: the files written are different, each page made is in the file
written for its check, and the index is in its own. -/
structure Kept (provider : Option Provider) (site : String) (cwd : Place) (out : Path)
    (checks : List Check) (pass : Pass) : Prop where
  nodup : pass.written.Nodup
  page : ∀ c ∈ checks, pass.HasPage c → fileName c.name ∈ pass.written ∧
    ∃ text, pageText provider site cwd pass.tree c = .ok text ∧
      pass.tree.file? ((out.child (fileName c.name)).resolve cwd) = some (Utf8.encode text)
  index : indexFile ∈ pass.written ∧
    HasIndex cwd out ((Check.sortByName checks).filter fun c => pass.HasPage c) pass.tree

theorem sortByName_perm (checks : List Check) : (Check.sortByName checks).Perm checks :=
  List.mergeSort_perm _ _

theorem nodup_names_sortByName (h : (checks.map Check.name).Nodup) :
    ((Check.sortByName checks).map Check.name).Nodup :=
  ((sortByName_perm checks).map Check.name).nodup_iff.mpr h

/-- A check of a pass has its page unless the page could not be made. -/
theorem Done.hasPage_iff (h : Done provider site cwd out t checks pass)
    (hnodup : (checks.map Check.name).Nodup) (hc : c ∈ checks) :
    pass.HasPage c ↔ ∃ text, Catalog.pageText provider site cwd t c = .ok text := by
  rw [Pass.HasPage, h.failed]
  constructor
  · intro hnot
    by_contra hnone
    exact hnot ⟨c, hc, rfl, fun text htext => hnone ⟨text, htext⟩⟩
  · rintro ⟨text, htext⟩ ⟨d, hd, hname, hfail⟩
    have hdc : d = c := List.inj_on_of_nodup_map hnodup hd hc hname
    exact hfail text (hdc ▸ htext)

/-- The index has a line for each check with a page. -/
theorem Done.indexed (h : Done provider site cwd out t checks pass)
    (hnodup : (checks.map Check.name).Nodup) :
    (checks.filter fun c => pass.HasPage c) =
      (pages provider site cwd t checks).map Prod.fst := by
  rw [pages, List.map_filterMap, ← List.filterMap_eq_filter]
  refine List.filterMap_congr fun c hc => ?_
  have hpage := h.hasPage_iff hnodup hc
  cases htext : Catalog.pageText provider site cwd t c with
  | ok text =>
    have hhas : pass.HasPage c := hpage.mpr ⟨text, htext⟩
    simp [Option.guard, hhas]
  | error e =>
    have hnot : ¬ pass.HasPage c := by
      intro hhas
      obtain ⟨text, hok⟩ := hpage.mp hhas
      rw [htext] at hok
      cases hok
    simp [Option.guard, hnot]

/-- The index is the last file written, so it is there in the end. -/
theorem Done.hasIndex (h : Done provider site cwd out t checks pass) :
    HasIndex cwd out ((pages provider site cwd t checks).map Prod.fst) pass.tree :=
  h.tree ▸ hasIndex_withFiles _

/-- What was written under a name of its own is there when the pass ends. -/
theorem Done.file?_of_mem (h : Done provider site cwd out t checks pass)
    (hnodup : pass.written.Nodup) {name : String} (hname : name ≠ "..")
    (hfile : (name, text) ∈ files provider site cwd t checks) :
    name ∈ pass.written ∧
      pass.tree.file? ((out.child name).resolve cwd) = some (Utf8.encode text) := by
  rw [h.written] at hnodup ⊢
  refine ⟨List.mem_map.mpr ⟨_, hfile, rfl⟩, ?_⟩
  rw [h.tree, withFiles, Path.resolve_child out cwd hname]
  apply FileTree.file?_putAll_of_mem
  · rw [List.map_map]
    exact hnodup
  · exact List.mem_map.mpr ⟨_, hfile, rfl⟩

theorem Done.kept_iff_nodup (h : Done provider site cwd out t (Check.sortByName checks) pass)
    (hnodup : (checks.map Check.name).Nodup) :
    Kept provider site cwd out checks pass ↔ pass.written.Nodup := by
  have hperm := sortByName_perm checks
  have hsorted := nodup_names_sortByName hnodup
  constructor
  · exact Kept.nodup
  intro hwritten
  refine ⟨hwritten, ?_, ?_⟩
  · intro c hc hhas
    have hc := hperm.mem_iff.mpr hc
    obtain ⟨text, htext⟩ := (h.hasPage_iff hsorted hc).mp hhas
    have hfile : (fileName c.name, text) ∈
        files provider site cwd t (Check.sortByName checks) :=
      List.mem_append_left _ (List.mem_map.mpr ⟨(c, text), mem_pages.mpr ⟨hc, htext⟩, rfl⟩)
    obtain ⟨hmem, hthere⟩ := h.file?_of_mem hwritten (fileName_ne_parent c.name) hfile
    exact ⟨hmem, text, (h.pageText c).trans htext, hthere⟩
  · rw [h.indexed hsorted, h.written]
    exact ⟨List.mem_map_of_mem (List.mem_append_right _ List.mem_cons_self), h.hasIndex⟩

/-- The files written are different exactly if the checks with pages have file names of their own,
and none has that of the index. -/
theorem Done.nodup_written_iff (h : Done provider site cwd out t checks pass)
    (hnodup : (checks.map Check.name).Nodup) :
    pass.written.Nodup ↔
      (∀ c ∈ checks, pass.HasPage c → c.name ≠ "index") ∧
        ∀ c ∈ checks, ∀ d ∈ checks, pass.HasPage c → pass.HasPage d →
          fileName c.name = fileName d.name → c = d := by
  have hfiles : pass.written =
      (checks.filter fun c => pass.HasPage c).map (fun c => fileName c.name) ++ [indexFile] := by
    rw [h.written, h.indexed hnodup, files, List.map_append, List.map_map, List.map_map]
    rfl
  have hdistinct : (checks.filter fun c => pass.HasPage c).Nodup :=
    (List.Nodup.of_map _ hnodup).filter _
  have hmem (c : Check) : c ∈ checks.filter (fun c => pass.HasPage c) ↔
      c ∈ checks ∧ pass.HasPage c := by
    rw [List.mem_filter, decide_eq_true_iff]
  -- the pages among themselves, and the pages against the index
  rw [hfiles, List.nodup_append]
  constructor
  · rintro ⟨hpages, _, hindex⟩
    refine ⟨?_, ?_⟩
    · intro c hc hhas heq
      exact hindex _ (List.mem_map.mpr ⟨c, (hmem c).mpr ⟨hc, hhas⟩, rfl⟩) _
        (List.mem_singleton.mpr rfl) (fileName_eq_indexFile_iff.mpr heq)
    · intro c hc d hd hchas hdhas heq
      exact List.inj_on_of_nodup_map hpages ((hmem c).mpr ⟨hc, hchas⟩)
        ((hmem d).mpr ⟨hd, hdhas⟩) heq
  · rintro ⟨hindex, hinj⟩
    refine ⟨?_, List.nodup_singleton _, ?_⟩
    · refine hdistinct.map_on ?_
      intro c hc d hd heq
      obtain ⟨hc, hchas⟩ := (hmem c).mp hc
      obtain ⟨hd, hdhas⟩ := (hmem d).mp hd
      exact hinj c hc d hd hchas hdhas heq
    · rintro name hname _ hmd rfl
      obtain ⟨c, hc, hfile⟩ := List.mem_map.mp hname
      obtain ⟨hc, hhas⟩ := (hmem c).mp hc
      rw [List.mem_singleton.mp hmd] at hfile
      exact hindex c hc hhas (fileName_eq_indexFile_iff.mp hfile)

/-- **Which pages are kept.**  A pass over a registry loses no page exactly if no check with a page
has the name of the index, and no two of them have names that become the same file name. -/
theorem pages_kept_iff {r : Registry} (hr : r.Built) (hapart : Apart provider cwd out)
    (hpass : generate r.checks provider site t cwd out = .ok pass) :
    Kept provider site cwd out r.checks pass ↔
      (∀ c ∈ r.checks, pass.HasPage c → c.name ≠ "index") ∧
        ∀ c ∈ r.checks, ∀ d ∈ r.checks, pass.HasPage c → pass.HasPage d →
          fileName c.name = fileName d.name → c = d := by
  obtain ⟨made, _, hdone⟩ := done_of_generate hapart hpass
  rw [hdone.kept_iff_nodup hr.nodup_names,
    hdone.nodup_written_iff (nodup_names_sortByName hr.nodup_names)]
  simp only [(sortByName_perm r.checks).mem_iff]

/-! Two small passes from an empty tree, one that keeps its pages and one that loses the first.
Their checks are alike but for one character of their names. -/

/-- A check whose findings are shown without a link. -/
def unlinked (name : String) : Check :=
  { name, summary := "Compares unlike values", severity := .warning, linkType := .none }

/-- A tree with nothing but an empty directory for the pages. -/
def emptySite : FileTree := ⟨[(["site"], .directory)]⟩

theorem makeDirectories_site :
    FileTree.empty.makeDirectories [] (.ofText "site") = .ok emptySite := by
  apply FileTree.makeDirectories_of_makeOne (by decide)
  rw [FileTree.makeOne, FileTree.locate_eq_walk (by decide) (by decide)]
  rfl

/-- A search through a text does not evaluate, so the limits on paths are checked apart. -/
theorem locate_site (t : FileTree) :
    ∀ name ∈ ["A-B.md", "A_B.md", "A.md", "B.md", "index.md"],
      t.locate [] ((Path.ofText "site").child name) =
        t.walk ((Path.ofText "site").child name).text [] ["site", name] := by
  intro name hname
  have hnull : Char.ofNat 0 ∉ ((Path.ofText "site").child name).text.toList := by
    revert name
    decide
  have hlength : ((Path.ofText "site").child name).text.utf8ByteSize ≤ FileTree.maxPath := by
    revert name
    decide
  exact FileTree.locate_eq_walk hnull hlength

theorem accepts_emptySite : ∀ name ∈ ["A-B.md", "A_B.md", "A.md", "B.md", "index.md"],
    emptySite.Accepts [] (.ofText "site") name := by
  intro name hname
  rw [FileTree.Accepts, locate_site _ name hname]
  revert name
  decide

theorem generate_site_isOk {checks : List Check}
    (hnames : ∀ c ∈ checks, fileName c.name ∈ ["A-B.md", "A_B.md"]) :
    ∃ pass, generate checks none Link.defaultSite .empty [] (.ofText "site") = .ok pass := by
  rw [generate_isOk_iff fun _ _ h => by cases h]
  refine ⟨_, makeDirectories_site, forall_mem_files.mpr ⟨?_, accepts_emptySite _ (by decide)⟩⟩
  intro c hc _ _
  exact accepts_emptySite _ (List.mem_append_left ["A.md", "B.md", "index.md"]
    (hnames c ((sortByName_perm checks).mem_iff.mp hc)))

theorem pages_kept_of_dash_slash :
    ∃ pass, (Registry.ofList [unlinked "A-B", unlinked "A/B"]).Built ∧
      Apart none [] (.ofText "site") ∧
      generate [unlinked "A-B", unlinked "A/B"] none Link.defaultSite .empty []
        (.ofText "site") = .ok pass ∧
      Kept none Link.defaultSite [] (.ofText "site") [unlinked "A-B", unlinked "A/B"] pass := by
  have hchecks : Registry.ofChecks [unlinked "A-B", unlinked "A/B"] false =
      .ok (Registry.ofList [unlinked "A-B", unlinked "A/B"]) := by decide +kernel
  have hbuilt := Registry.Built.ofChecks hchecks
  have hapart : Apart none [] (.ofText "site") := fun _ _ h => by cases h
  have hnames : ∀ c ∈ [unlinked "A-B", unlinked "A/B"], ∀ d ∈ [unlinked "A-B", unlinked "A/B"],
      fileName c.name = fileName d.name → c = d := by decide
  have hindex : ∀ c ∈ [unlinked "A-B", unlinked "A/B"], c.name ≠ "index" := by decide
  obtain ⟨pass, hpass⟩ : ∃ pass, generate [unlinked "A-B", unlinked "A/B"] none Link.defaultSite
    .empty [] (.ofText "site") = .ok pass := generate_site_isOk (by decide)
  refine ⟨pass, hbuilt, hapart, hpass, (pages_kept_iff hbuilt hapart hpass).mpr ⟨?_, ?_⟩⟩
  · exact fun c hc _ => hindex c hc
  · exact fun c hc d hd _ _ => hnames c hc d hd

/-- Two valid checks that share no name get one file.  The page of the second is in it when the
pass ends, and no failure is reported. -/
theorem page_lost_of_slash_question :
    ∃ pass text, (Registry.ofList [unlinked "A/B", unlinked "A?B"]).Built ∧
      Apart none [] (.ofText "site") ∧
      generate [unlinked "A/B", unlinked "A?B"] none Link.defaultSite .empty []
        (.ofText "site") = .ok pass ∧
      pass.failed = [] ∧ pass.written = ["A_B.md", "A_B.md", "index.md"] ∧
      pageText none Link.defaultSite [] pass.tree (unlinked "A?B") = .ok text ∧
      pass.tree.file? ["site", "A_B.md"] = some (Utf8.encode text) ∧
      ¬ Kept none Link.defaultSite [] (.ofText "site") [unlinked "A/B", unlinked "A?B"] pass := by
  have hchecks : Registry.ofChecks [unlinked "A/B", unlinked "A?B"] false =
      .ok (Registry.ofList [unlinked "A/B", unlinked "A?B"]) := by decide +kernel
  have hapart : Apart none [] (.ofText "site") := fun _ _ h => by cases h
  have hsorted : Check.sortByName [unlinked "A/B", unlinked "A?B"] =
      [unlinked "A/B", unlinked "A?B"] := List.mergeSort_of_pairwise (by decide)
  obtain ⟨pass, hpass⟩ : ∃ pass, generate [unlinked "A/B", unlinked "A?B"] none Link.defaultSite
    .empty [] (.ofText "site") = .ok pass := generate_site_isOk (by decide)
  obtain ⟨made, hmade, hdone⟩ := done_of_generate hapart hpass
  rw [hsorted] at hdone
  rw [makeDirectories_site] at hmade
  obtain rfl := Except.ok.inj hmade
  have hwritten : pass.written = ["A_B.md", "A_B.md", "index.md"] := hdone.written
  have hpage : ∀ c ∈ [unlinked "A/B", unlinked "A?B"], ∃ text,
      pageText none Link.defaultSite [] emptySite c = .ok text := by
    intro c hc
    simp only [List.mem_cons, List.not_mem_nil, or_false] at hc
    rcases hc with rfl | rfl
    · exact ⟨_, rfl⟩
    · exact ⟨_, rfl⟩
  refine ⟨pass, _, .ofChecks hchecks, hapart, hpass, ?_, hwritten,
    (hdone.pageText _).trans rfl, ?_, ?_⟩
  · rw [← List.map_eq_nil_iff, List.eq_nil_iff_forall_not_mem]
    intro name hname
    obtain ⟨c, hc, _, hfail⟩ := (hdone.failed name).mp hname
    obtain ⟨text, htext⟩ := hpage c hc
    exact hfail text htext
  · rw [hdone.tree]
    rfl
  · intro hkept
    have hnodup := hkept.nodup
    rw [hwritten] at hnodup
    exact absurd hnodup (by decide)

end Catalog

end CheckRegistry
