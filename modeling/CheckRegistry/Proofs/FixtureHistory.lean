import Mathlib.Data.List.Sort
import CheckRegistry.Page.Basic
import CheckRegistry.Proofs.FileListing
import CheckRegistry.Proofs.Fixture
import CheckRegistry.Proofs.Utf8

/-! # What a page shows of fixtures that change

Fixtures come and go while a page is there, and the page is asked for its examples in between.  It
holds no examples but looks for them each time, so what it shows is settled by the files that are
there then.  `Inventory` says which fixtures those are and in which order, without saying how to
find them: a strict order on a set of files leaves no choice (`Inventory.unique`).  `inOrder` meets
it in every tree with one entry for each place (`inventory_inOrder`).

What remains is that histories do not leave such trees (`Tidy.apply`).  Each reading then gives the
inventory of its moment (`fixtures_current`), and two histories that come to the same files cannot
be told apart, whatever was put first and whoever has read before.
-/

namespace CheckRegistry

variable {t now now' : FileTree} {dir cwd : Place} {root : Path}

/-! ## Roots -/

/-- A file system can follow a path: neither the path nor a name on it is too long. -/
def Path.Followable (p : Path) : Prop :=
  p.text.utf8ByteSize ≤ FileTree.maxPath ∧ ∀ part ∈ p.parts, part.utf8ByteSize ≤ FileTree.maxName

namespace FileTree

theorem walk_ne_nameTooLong {path : String} {place : Place} {parts : List String}
    (h : ∀ part ∈ parts, part.utf8ByteSize ≤ maxName) (path' : String) :
    t.walk path place parts ≠ .error (.nameTooLong path') := by
  intro hlong
  induction parts generalizing place with
  | nil => cases hlong
  | cons part rest ih =>
    obtain ⟨hpart, hrest⟩ := List.forall_mem_cons.mp h
    rw [walk, if_neg (Nat.not_lt.mpr hpart)] at hlong
    split at hlong
    · cases hlong
    split at hlong
    · cases hlong
    · exact ih hrest hlong

theorem locate_ne_nameTooLong (h : root.Followable) (path : String) :
    t.locate cwd root ≠ .error (.nameTooLong path) := by
  intro hlong
  rw [locate, if_neg (Nat.not_lt.mpr h.1)] at hlong
  split at hlong
  · cases hlong
  · exact walk_ne_nameTooLong h.2 path hlong

/-- A path that is not refused leads to the directory at its place, or to none. -/
theorem fixtureRoot?_eq (h : ∀ path, t.locate cwd root ≠ .error (.nameTooLong path)) :
    fixtureRoot? t cwd root =
      .ok (if t.leadsToDirectory cwd root then some (root.resolve cwd) else none) := by
  rw [fixtureRoot?, leadsToDirectory]
  cases hlocate : t.locate cwd root with
  | ok place => rw [eq_resolve_of_locate hlocate]
  | error e =>
    cases e with
    | nameTooLong path => exact absurd hlocate (h path)
    | _ => rfl

theorem leadsToDirectory_of_error {e : FileError} (h : t.locate cwd root = .error e) :
    t.leadsToDirectory cwd root = false := by
  rw [leadsToDirectory, h]

/-- Two trees hold the same files and directories. -/
structure Same (t t' : FileTree) : Prop where
  files : ∀ q, t.file? q = t'.file? q
  directories : ∀ q, t.isDirectory q = t'.isDirectory q

theorem Same.walk (h : now.Same now') (path : String) (place : Place) (parts : List String) :
    now.walk path place parts = now'.walk path place parts := by
  induction parts generalizing place with
  | nil => rfl
  | cons part rest ih =>
    rw [FileTree.walk, FileTree.walk, isFile, isFile, h.files, h.directories, ih]

theorem Same.locate (h : now.Same now') (cwd : Place) (p : Path) :
    now.locate cwd p = now'.locate cwd p := by
  rw [FileTree.locate, FileTree.locate, h.walk]

theorem Same.leadsToDirectory (h : now.Same now') (cwd : Place) (p : Path) :
    now.leadsToDirectory cwd p = now'.leadsToDirectory cwd p := by
  rw [FileTree.leadsToDirectory, FileTree.leadsToDirectory, h.locate]
  split
  · exact h.directories _
  · rfl

end FileTree

namespace Fixture

variable {suffixes : Option (List String)} {check name : String} {found found' : List Found}
  {f g : Found}

/-! ## Suffixes -/

/-- The last extension of a file name with its period, or nothing. -/
inductive LastExtension (name : String) : String → Prop
  | there {stem ext : List Char} (split : name.toList = stem ++ '.' :: ext) (stem_ne : stem ≠ [])
      (ext_ne : ext ≠ []) (last : '.' ∉ ext) : LastExtension name (String.ofList ('.' :: ext))
  | absent (none : ∀ stem ext, stem ≠ [] → ext ≠ [] → '.' ∉ ext →
      name.toList ≠ stem ++ '.' :: ext) : LastExtension name ""

/-- A file name has one of the suffixes that are wanted, if there is a choice. -/
def Wanted (suffixes : Option (List String)) (name : String) : Prop :=
  ∀ wanted ∈ suffixes, ∃ suffix ∈ wanted, LastExtension name suffix

/-- The last extension is read from the end up to a period. -/
theorem forall_mem_reverse_ne_period {ext : List Char} (h : '.' ∉ ext) :
    ∀ c ∈ ext.reverse, (c != '.') = true := by
  intro c hc
  rw [bne_iff_ne]
  rintro rfl
  exact h (List.mem_reverse.mp hc)

theorem suffix_of_split {stem ext : List Char} (h : name.toList = stem ++ '.' :: ext)
    (hlast : '.' ∉ ext) : suffix name =
      if ext = [] ∨ stem = [] then "" else String.ofList ('.' :: ext) := by
  have hback : name.toList.reverse = ext.reverse ++ '.' :: stem.reverse := by
    rw [h, List.reverse_append, List.reverse_cons, List.append_assoc, List.singleton_append]
  have hperiod : ∀ c ∈ ('.' :: stem.reverse).head?, (c != '.') = false := fun c hc =>
    Option.some.inj hc ▸ rfl
  obtain ⟨htake, hdrop⟩ := Lists.span_append (forall_mem_reverse_ne_period hlast) hperiod
  simp [suffix, hback, htake, hdrop]

theorem suffix_of_not_mem (h : '.' ∉ name.toList) : suffix name = "" := by
  have hall := forall_mem_reverse_ne_period h
  have hext : name.toList.reverse.takeWhile (· != '.') = name.toList.reverse :=
    List.takeWhile_eq_self_iff.mpr hall
  have hnone : name.toList.reverse.dropWhile (· != '.') = [] := List.dropWhile_eq_nil_iff.mpr hall
  simp [suffix, hext, hnone]

theorem exists_last_split {c : Char} {s : List Char} (h : c ∈ s) :
    ∃ before after, s = before ++ c :: after ∧ c ∉ after := by
  obtain ⟨after, before, hs, hafter⟩ := List.eq_append_cons_of_mem (List.mem_reverse.mpr h)
  refine ⟨before.reverse, after.reverse, ?_, fun hmem => hafter (List.mem_reverse.mp hmem)⟩
  have hback := congrArg List.reverse hs
  rw [List.reverse_reverse, List.reverse_append, List.reverse_cons, List.append_assoc,
    List.singleton_append] at hback
  exact hback

theorem suffix_eq_iff {x : String} : suffix name = x ↔ LastExtension name x := by
  have hlong {stem ext : List Char} (h : name.toList = stem ++ '.' :: ext) (hstem : stem ≠ [])
      (hext : ext ≠ []) (hlast : '.' ∉ ext) : suffix name = String.ofList ('.' :: ext) := by
    rw [suffix_of_split h hlast, if_neg (not_or.mpr ⟨hext, hstem⟩)]
  have hnone (h : ∀ stem ext, stem ≠ [] → ext ≠ [] → '.' ∉ ext →
      name.toList ≠ stem ++ '.' :: ext) : suffix name = "" := by
    by_cases hmem : '.' ∈ name.toList
    · obtain ⟨stem, ext, hsplit, hlast⟩ := exists_last_split hmem
      rw [suffix_of_split hsplit hlast, if_pos]
      by_contra hno
      obtain ⟨hext, hstem⟩ := not_or.mp hno
      exact h stem ext hstem hext hlast hsplit
    · exact suffix_of_not_mem hmem
  constructor
  · rintro rfl
    by_cases h : ∃ stem ext, stem ≠ [] ∧ ext ≠ [] ∧ '.' ∉ ext ∧ name.toList = stem ++ '.' :: ext
    · obtain ⟨stem, ext, hstem, hext, hlast, hsplit⟩ := h
      rw [hlong hsplit hstem hext hlast]
      exact .there hsplit hstem hext hlast
    · have hall : ∀ stem ext, stem ≠ [] → ext ≠ [] → '.' ∉ ext →
          name.toList ≠ stem ++ '.' :: ext := fun stem ext hstem hext hlast hsplit =>
        h ⟨stem, ext, hstem, hext, hlast, hsplit⟩
      rw [hnone hall]
      exact .absent hall
  · rintro (⟨split, stem_ne, ext_ne, last⟩ | none)
    · exact hlong split stem_ne ext_ne last
    · exact hnone none

theorem isWanted_iff : isWanted suffixes name = true ↔ Wanted suffixes name := by
  cases suffixes with
  | none => exact iff_of_true rfl nofun
  | some wanted =>
    rw [isWanted, List.contains_iff_mem, Wanted]
    constructor
    · intro hmem ws hws
      obtain rfl := Option.some.inj hws
      exact ⟨_, hmem, suffix_eq_iff.mp rfl⟩
    · intro h
      obtain ⟨x, hmem, hx⟩ := h wanted rfl
      rwa [suffix_eq_iff.mpr hx]

/-! ## The fixtures of a tree -/

/-- Positive fixtures come before negative ones, and those of one outcome in the order of their
places. -/
def Before (f g : Found) : Prop :=
  f.outcome = .positive ∧ g.outcome = .negative ∨ f.outcome = g.outcome ∧ f.place < g.place

theorem Before.asymm (h : Before f g) : ¬ Before g f := by
  rintro (⟨hg, hf⟩ | ⟨hsame, hgf⟩)
  · rcases h with ⟨hf', -⟩ | ⟨hsame, -⟩
    · cases hf.symm.trans hf'
    · cases hf.symm.trans (hsame.trans hg)
  · rcases h with ⟨hf, hg⟩ | ⟨-, hfg⟩
    · cases hg.symm.trans (hsame.trans hf)
    · exact List.lt_asymm hfg hgf

/-- The fixtures of a check that are in a directory, each once and in order. -/
structure Inventory (t : FileTree) (dir : Place) (suffixes : Option (List String)) (check : String)
    (found : List Found) : Prop where
  /-- They are the files whose name matches and has a suffix that is wanted. -/
  mem_iff : ∀ f, f ∈ found ↔ ∃ folder name, f.place = folder ++ [name] ∧
    t.file? (dir ++ f.place) = some f.bytes ∧ Matches check f.outcome name ∧ Wanted suffixes name
  once : (found.map Found.place).Nodup
  ordered : found.Pairwise Before

/-- The files settle the fixtures and their order. -/
theorem Inventory.unique (h : Inventory now dir suffixes check found)
    (h' : Inventory now' dir suffixes check found') (hfiles : ∀ q, now.file? q = now'.file? q) :
    found = found' := by
  have hasymm : Std.Asymm Before := ⟨fun _ _ => Before.asymm⟩
  refine h.ordered.eq_of_mem_iff h'.ordered fun f => ?_
  rw [h.mem_iff, h'.mem_iff, hfiles]

/-- The name of the file at a place. -/
def baseName (place : Place) : String := place.getLast?.getD ""

theorem baseName_concat (folder : Place) (name : String) : baseName (folder ++ [name]) = name := by
  rw [baseName, List.getLast?_concat, Option.getD_some]

/-- A file as a fixture, if it is one. -/
def fixture? (suffixes : Option (List String)) (check : String) (x : Place × List UInt8) :
    Option Found :=
  match outcome? check (baseName x.1) with
  | none => none
  | some o => if isWanted suffixes (baseName x.1) then some ⟨x.1, x.2, o⟩ else none

theorem find_eq (t : FileTree) (dir : Place) (suffixes : Option (List String)) (check : String) :
    find t dir suffixes check = (t.filesBelow dir).filterMap (fixture? suffixes check) :=
  rfl

theorem fixture?_eq_some_iff {x : Place × List UInt8} : fixture? suffixes check x = some f ↔
    x = (f.place, f.bytes) ∧ Matches check f.outcome (baseName f.place) ∧
      Wanted suffixes (baseName f.place) := by
  rw [← outcome?_eq_some_iff, ← isWanted_iff, fixture?]
  obtain ⟨place, bytes⟩ := x
  obtain ⟨place', bytes', o⟩ := f
  constructor
  · intro h
    split at h
    · cases h
    next o' ho =>
      obtain ⟨hwanted, hfound⟩ := Option.ite_none_right_eq_some.mp h
      cases hfound
      exact ⟨rfl, ho, hwanted⟩
  · rintro ⟨heq, ho, hwanted⟩
    cases heq
    simp only [ho, hwanted, ite_true]

/-- The fixtures that are found, positive ones first. -/
def inOrder (t : FileTree) (dir : Place) (suffixes : Option (List String)) (check : String) :
    List Found :=
  ((find t dir suffixes check).filter fun f => f.outcome == .positive) ++
    (find t dir suffixes check).filter fun f => f.outcome == .negative

theorem inOrder_perm (t : FileTree) (dir : Place) (suffixes : Option (List String))
    (check : String) : (inOrder t dir suffixes check).Perm (find t dir suffixes check) := by
  have hnegative : (fun f : Found => f.outcome == .negative) =
      fun f => !(f.outcome == .positive) := by
    funext f
    cases f.outcome <;> rfl
  rw [inOrder, hnegative]
  exact List.filter_append_perm _ _

theorem pairwise_find (h : t.Single) (dir : Place) (suffixes : Option (List String))
    (check : String) : (find t dir suffixes check).Pairwise fun f g => f.place < g.place := by
  rw [find_eq]
  refine List.Pairwise.filterMap _ ?_ (t.pairwise_filesBelow h dir)
  intro x y hxy f hf g hg
  obtain ⟨rfl, -⟩ := fixture?_eq_some_iff.mp hf
  obtain ⟨rfl, -⟩ := fixture?_eq_some_iff.mp hg
  exact hxy

theorem mem_find_iff (h : t.Single) : f ∈ find t dir suffixes check ↔
    ∃ folder name, f.place = folder ++ [name] ∧ t.file? (dir ++ f.place) = some f.bytes ∧
      Matches check f.outcome name ∧ Wanted suffixes name := by
  rw [find_eq, List.mem_filterMap]
  simp only [fixture?_eq_some_iff]
  constructor
  · rintro ⟨x, hx, rfl, hmatches, hwanted⟩
    obtain ⟨hne, hfile⟩ := (FileTree.mem_filesBelow h).mp hx
    obtain ⟨folder, name, hplace⟩ := (List.eq_nil_or_concat f.place).resolve_left hne
    rw [List.concat_eq_append] at hplace
    rw [hplace, baseName_concat] at hmatches hwanted
    exact ⟨folder, name, hplace, hfile, hmatches, hwanted⟩
  · rintro ⟨folder, name, hplace, hfile, hmatches, hwanted⟩
    have hne : f.place ≠ [] := by
      rw [hplace]
      exact List.append_ne_nil_of_right_ne_nil _ (List.cons_ne_nil _ _)
    refine ⟨_, (FileTree.mem_filesBelow h).mpr ⟨hne, hfile⟩, rfl, ?_⟩
    rw [hplace, baseName_concat]
    exact ⟨hmatches, hwanted⟩

theorem inventory_inOrder (h : t.Single) (dir : Place) (suffixes : Option (List String))
    (check : String) : Inventory t dir suffixes check (inOrder t dir suffixes check) := by
  have hsorted := pairwise_find h dir suffixes check
  constructor
  case mem_iff =>
    intro f
    rw [(inOrder_perm t dir suffixes check).mem_iff, mem_find_iff h]
  case once =>
    have hplaces : ((find t dir suffixes check).map Found.place).Nodup :=
      List.pairwise_map.mpr (hsorted.imp fun {f g} hfg (heq : f.place = g.place) =>
        List.lt_irrefl g.place (heq ▸ hfg))
    exact ((inOrder_perm t dir suffixes check).map Found.place).nodup_iff.mpr hplaces
  case ordered =>
    have hgroup (o : Outcome) :
        ((find t dir suffixes check).filter fun f => f.outcome == o).Pairwise Before := by
      refine List.pairwise_filter.mpr (hsorted.imp fun hfg hf hg => .inr ⟨?_, hfg⟩)
      exact (beq_iff_eq.mp hf).trans (beq_iff_eq.mp hg).symm
    refine List.pairwise_append.mpr ⟨hgroup .positive, hgroup .negative, fun f hf g hg => ?_⟩
    exact .inl ⟨beq_iff_eq.mp (List.mem_filter.mp hf).2, beq_iff_eq.mp (List.mem_filter.mp hg).2⟩

/-! ### Sifting by suffixes -/

/-- Suffixes can be looked at after the rest of the name. -/
theorem find_eq_filter_find (t : FileTree) (dir : Place) (suffixes : Option (List String))
    (check : String) : find t dir suffixes check =
      (find t dir none check).filter fun f => isWanted suffixes (baseName f.place) := by
  rw [find_eq, find_eq, List.filter_filterMap]
  refine List.filterMap_congr fun x _ => ?_
  rw [fixture?, fixture?]
  cases outcome? check (baseName x.1) with
  | none => rfl
  | some o => rfl

/-- Suffixes can be looked at before the rest of the name. -/
theorem find_eq_of_filter (t : FileTree) (dir : Place) (suffixes : Option (List String))
    (check : String) : find t dir suffixes check =
      ((t.filesBelow dir).filter fun x => isWanted suffixes (baseName x.1)).filterMap
        (fixture? none check) := by
  rw [find_eq, List.filterMap_filter]
  refine List.filterMap_congr fun x _ => ?_
  rw [fixture?, fixture?]
  cases outcome? check (baseName x.1) with
  | none => simp
  | some o => rfl

/-! ## What a reading gives -/

/-- A fixture as an example: its text with unified line ends, its outcome, and its path. -/
def Found.Shows (f : Found) (e : Example) : Prop :=
  ∃ text : String, Utf8.encode text = f.bytes ∧
    e = ⟨String.ofList (Text.unifyLineEnds text.toList), f.outcome, "/".intercalate f.place⟩

theorem Found.Shows.unique {e e' : Example} (h : f.Shows e) (h' : f.Shows e') : e = e' := by
  obtain ⟨text, htext, rfl⟩ := h
  obtain ⟨text', htext', rfl⟩ := h'
  rw [Utf8.encode_injective (htext.trans htext'.symm)]

theorem readAll_of_texts (h : ∀ f ∈ found, ∃ text, Utf8.encode text = f.bytes) :
    ∃ es, readAll found = .ok es ∧ List.Forall₂ Found.Shows found es := by
  induction found with
  | nil => exact ⟨[], rfl, .nil⟩
  | cons f rest ih =>
    obtain ⟨⟨text, htext⟩, hrest⟩ := List.forall_mem_cons.mp h
    obtain ⟨es, hes, hshows⟩ := ih hrest
    refine ⟨_ :: es, ?_, .cons ⟨text, htext, rfl⟩ hshows⟩
    rw [readAll, Found.read, textOfBytes_eq_ok_iff.mpr ⟨text, htext, rfl⟩, hes]
    rfl

/-- What a reading of the fixtures below a path has to give at some time: all that are there, one
example for each, and none where there is no directory.  A path is refused only if it is too long
to be followed. -/
inductive Answers (now : FileTree) (cwd : Place) (root : Path) (suffixes : Option (List String))
    (check : String) : Except PageError (List Example) → Prop
  | refused {path : String} (long : now.locate cwd root = .error (.nameTooLong path)) :
      Answers now cwd root suffixes check (.error (.file (.nameTooLong path)))
  | absent (followed : ∀ path, now.locate cwd root ≠ .error (.nameTooLong path))
      (gone : now.leadsToDirectory cwd root = false) :
      Answers now cwd root suffixes check (.ok [])
  | listed {found : List Found} {es : List Example}
      (there : now.leadsToDirectory cwd root = true)
      (inventory : Inventory now (root.resolve cwd) suffixes check found)
      (shown : List.Forall₂ Found.Shows found es) : Answers now cwd root suffixes check (.ok es)

theorem Answers.isOk {a : Except PageError (List Example)}
    (h : Answers now cwd root suffixes check a) (hroot : root.Followable) : ∃ es, a = .ok es := by
  cases h with
  | refused long => exact absurd long (FileTree.locate_ne_nameTooLong hroot _)
  | absent followed gone => exact ⟨_, rfl⟩
  | listed there inventory shown => exact ⟨_, rfl⟩

/-- What has to be given is settled by the files and directories that are there. -/
theorem Answers.unique {a a' : Except PageError (List Example)}
    (h : Answers now cwd root suffixes check a) (h' : Answers now' cwd root suffixes check a')
    (hsame : now.Same now') : a = a' := by
  have hlocate := hsame.locate cwd root
  have hleads := hsame.leadsToDirectory cwd root
  cases h with
  | refused long =>
    cases h' with
    | refused long' =>
      cases long.symm.trans (hlocate.trans long')
      rfl
    | absent followed _ => exact absurd (hlocate.symm.trans long) (followed _)
    | listed there =>
      cases (FileTree.leadsToDirectory_of_error long).symm.trans (hleads.trans there)
  | absent followed gone =>
    cases h' with
    | refused long => exact absurd (hlocate.trans long) (followed _)
    | absent => rfl
    | listed there => cases gone.symm.trans (hleads.trans there)
  | listed there inventory shown =>
    cases h' with
    | refused long =>
      cases there.symm.trans (hleads.trans (FileTree.leadsToDirectory_of_error long))
    | absent _ gone => cases there.symm.trans (hleads.trans gone)
    | listed _ inventory' shown' =>
      obtain rfl := inventory.unique inventory' hsame.files
      have hshows : Relator.RightUnique Found.Shows := fun _ _ _ => Found.Shows.unique
      rw [List.right_unique_forall₂' hshows shown shown']

/-- Each place has at most one entry, and the files below a place are texts. -/
structure Tidy (dir : Place) (t : FileTree) : Prop where
  single : t.Single
  texts : ∀ q bytes, (dir ++ q, .file bytes) ∈ t.entries → ∃ text, Utf8.encode text = bytes

/-- What a page shows of fixtures is what has to be given. -/
theorem Tidy.examples (ht : Tidy (root.resolve cwd) t) {page : Page}
    (hprovider : page.provider = some (.fixtures root suffixes)) :
    Answers t cwd root suffixes page.check.name (page.examples t cwd) := by
  have hexamples : page.examples t cwd =
      (Provider.fixtures root suffixes).examples t cwd page.check.name := by
    rw [Page.examples, hprovider]
  rw [hexamples, Provider.examples]
  by_cases hlong : ∃ path, t.locate cwd root = .error (.nameTooLong path)
  · obtain ⟨path, hlong⟩ := hlong
    rw [fixtureRoot?, hlong]
    exact .refused hlong
  have hfollowed : ∀ path, t.locate cwd root ≠ .error (.nameTooLong path) :=
    not_exists.mp hlong
  rw [FileTree.fixtureRoot?_eq hfollowed]
  cases hthere : t.leadsToDirectory cwd root with
  | false => exact .absent hfollowed hthere
  | true =>
    have hinventory := inventory_inOrder ht.single (root.resolve cwd) suffixes page.check.name
    have htexts : ∀ f ∈ inOrder t (root.resolve cwd) suffixes page.check.name,
        ∃ text, Utf8.encode text = f.bytes := by
      intro f hf
      obtain ⟨folder, name, -, hfile, -⟩ := (hinventory.mem_iff f).mp hf
      exact ht.texts _ _ (ht.single.file?_eq_some_iff.mp hfile)
    obtain ⟨es, hes, hshown⟩ := readAll_of_texts htexts
    have hread : Fixture.examples t (root.resolve cwd) suffixes page.check.name = .ok es := hes
    simp only [ite_true, hread]
    exact .listed hthere hinventory hshown

/-! ## Histories -/

/-- What happens below a directory while a page is there. -/
inductive Step
  /-- A file is written. -/
  | put (place : Place) (text : String)
  | remove (place : Place)
  /-- The page is asked for its examples. -/
  | read

/-- The tree after a step. -/
def Step.apply (dir : Place) (t : FileTree) : Step → FileTree
  | put place text => t.put (dir ++ place) (Utf8.encode text)
  | remove place => t.remove (dir ++ place)
  | read => t

/-- The tree after a history. -/
def after (dir : Place) (t : FileTree) (steps : List Step) : FileTree :=
  steps.foldl (Step.apply dir) t

/-- The trees that are there when a history reads, in order. -/
def seen (dir : Place) : FileTree → List Step → List FileTree
  | _, [] => []
  | t, .read :: rest => t :: seen dir t rest
  | t, step :: rest => seen dir (step.apply dir t) rest

/-- What a page answers when a history reads, in order. -/
def answers (page : Page) (cwd dir : Place) :
    FileTree → List Step → List (Except PageError (List Example))
  | _, [] => []
  | t, .read :: rest => page.examples t cwd :: answers page cwd dir t rest
  | t, step :: rest => answers page cwd dir (step.apply dir t) rest

theorem Tidy.apply (h : Tidy dir t) (step : Step) : Tidy dir (step.apply dir t) := by
  cases step with
  | put place text =>
    refine ⟨h.single.put _ _, fun q bytes hmem => ?_⟩
    rcases FileTree.mem_put hmem with heq | hmem
    · cases (Prod.mk.inj heq).2
      exact ⟨text, rfl⟩
    · exact h.texts q bytes hmem
  | remove place =>
    exact ⟨h.single.remove _, fun q bytes hmem =>
      h.texts q bytes (FileTree.file_mem_of_mem_remove hmem)⟩
  | read => exact h

theorem Tidy.after (h : Tidy dir t) (steps : List Step) : Tidy dir (after dir t steps) := by
  induction steps generalizing t with
  | nil => exact h
  | cons step rest ih => exact ih (h.apply step)

/-- Each reading of a history is one of the tree of its moment. -/
theorem forall₂_answers (ht : Tidy (root.resolve cwd) t) {page : Page}
    (hprovider : page.provider = some (.fixtures root suffixes)) (steps : List Step) :
    List.Forall₂ (Answers · cwd root suffixes page.check.name)
      (seen (root.resolve cwd) t steps) (answers page cwd (root.resolve cwd) t steps) := by
  induction steps generalizing t with
  | nil => exact .nil
  | cons step rest ih =>
    cases step with
    | read => exact .cons (ht.examples hprovider) (ih ht)
    | put place text => exact ih (ht.apply (.put place text))
    | remove place => exact ih (ht.apply (.remove place))

theorem isOk_of_mem_answers (ht : Tidy (root.resolve cwd) t) (hroot : root.Followable)
    {page : Page} (hprovider : page.provider = some (.fixtures root suffixes)) {steps : List Step}
    {a : Except PageError (List Example)} (h : a ∈ answers page cwd (root.resolve cwd) t steps) :
    ∃ es, a = .ok es := by
  have hboth : List.Forall₂ (fun a now => (∃ es, a = .ok es) ∧
        Answers now cwd root suffixes page.check.name a)
      (answers page cwd (root.resolve cwd) t steps) (seen (root.resolve cwd) t steps) :=
    .flip ((forall₂_answers ht hprovider steps).imp fun _ _ h => ⟨h.isOk hroot, h⟩)
  exact ((List.forall₂_and_left _ _).mp hboth).1 a h

/-- **A page shows the fixtures that are there.**  In every history of files that come and go below
a directory, each reading gives the inventory of that moment, one example for each fixture, and
none while there is no directory; it fails only for a path too long to be followed.  Two
histories that come to the same files and directories show the same from then on, whatever came
first and whoever has read before.  Suffixes can be looked at after names or before them. -/
theorem fixtures_current (page : Page) (cwd : Place)
    (hprovider : page.provider = some (.fixtures root suffixes)) (ht : Tidy (root.resolve cwd) t) :
    (∀ steps, List.Forall₂ (Answers · cwd root suffixes page.check.name)
      (seen (root.resolve cwd) t steps) (answers page cwd (root.resolve cwd) t steps)) ∧
    (root.Followable → ∀ steps, ∀ a ∈ answers page cwd (root.resolve cwd) t steps,
      ∃ es, a = .ok es) ∧
    (∀ t' steps steps', Tidy (root.resolve cwd) t' →
      (after (root.resolve cwd) t steps).Same (after (root.resolve cwd) t' steps') →
      page.examples (after (root.resolve cwd) t steps) cwd =
        page.examples (after (root.resolve cwd) t' steps') cwd) ∧
    (∀ now dir check, find now dir suffixes check =
        (find now dir none check).filter (fun f => isWanted suffixes (baseName f.place)) ∧
      find now dir suffixes check =
        ((now.filesBelow dir).filter fun x => isWanted suffixes (baseName x.1)).filterMap
          (fixture? none check)) := by
  refine ⟨forall₂_answers ht hprovider, fun hroot steps a ha => ?_, ?_, fun now dir check => ?_⟩
  · exact isOk_of_mem_answers ht hroot hprovider ha
  · intro t' steps steps' ht' hsame
    exact ((ht.after steps).examples hprovider).unique ((ht'.after steps').examples hprovider) hsame
  · exact ⟨find_eq_filter_find now dir suffixes check, find_eq_of_filter now dir suffixes check⟩

/-- A page that shows the fixtures in a directory that have one suffix. -/
def showing : Page where
  check := { name := "Foo", summary := "First", severity := .warning }
  link := none
  suppression := none
  provider := some (.fixtures ⟨.here, ["fixtures"]⟩ (some [".c"]))

/-- A fixture is put below a directory that was not there, and is removed again. -/
def putAndRemoved : List Step :=
  [.read, .put ["sub", "FooNegative.c"] "b", .read, .remove ["sub", "FooNegative.c"], .read]

/-- The fixture is shown as long as it is there. -/
theorem fixtures_current_of_removed :
    showing.provider = some (.fixtures ⟨.here, ["fixtures"]⟩ (some [".c"])) ∧
    Tidy ["fixtures"] .empty ∧
    answers showing [] ["fixtures"] .empty putAndRemoved =
      [.ok [], .ok [⟨"b", .negative, "sub/FooNegative.c"⟩], .ok []] := by
  have htidy : Tidy ["fixtures"] .empty := ⟨List.nodup_nil, nofun⟩
  have hreadings : List.Forall₂ (Answers · [] ⟨.here, ["fixtures"]⟩ (some [".c"]) "Foo")
      (seen ["fixtures"] .empty putAndRemoved)
      (answers showing [] ["fixtures"] .empty putAndRemoved) :=
    (fixtures_current showing [] rfl htidy).1 putAndRemoved
  have hseen : seen ["fixtures"] .empty putAndRemoved =
      [.empty, ⟨[(["fixtures", "sub", "FooNegative.c"], .file [98])]⟩,
        ⟨[(["fixtures", "sub"], .directory)]⟩] := by decide +kernel
  rw [hseen] at hreadings
  -- what has to be given at each of the three times
  have hfollowed : Path.Followable ⟨.here, ["fixtures"]⟩ := by constructor <;> decide
  have hleads (t : FileTree)
      (hwalk : t.walk (Path.text ⟨.here, ["fixtures"]⟩) [] ["fixtures"] = .ok ["fixtures"]) :
      t.leadsToDirectory [] ⟨.here, ["fixtures"]⟩ = t.isDirectory ["fixtures"] := by
    have hlocate : t.locate [] ⟨.here, ["fixtures"]⟩ = .ok ["fixtures"] :=
      (FileTree.locate_eq_walk (by decide) hfollowed.1).trans hwalk
    rw [FileTree.leadsToDirectory, hlocate]
  have hinventory (place : Place) (e : FileTree.Entry) : Inventory ⟨[(place, e)]⟩ ["fixtures"]
      (some [".c"]) "Foo" (inOrder ⟨[(place, e)]⟩ ["fixtures"] (some [".c"]) "Foo") := by
    have hsingle : FileTree.Single ⟨[(place, e)]⟩ := List.pairwise_singleton _ _
    exact inventory_inOrder hsingle _ _ _
  have hput : inOrder ⟨[(["fixtures", "sub", "FooNegative.c"], .file [98])]⟩ ["fixtures"]
      (some [".c"]) "Foo" = [⟨["sub", "FooNegative.c"], [98], .negative⟩] := by decide +kernel
  have hshown : Found.Shows ⟨["sub", "FooNegative.c"], [98], .negative⟩
      ⟨"b", .negative, "sub/FooNegative.c"⟩ := ⟨"b", by decide +kernel, by decide +kernel⟩
  have hremoved : inOrder ⟨[(["fixtures", "sub"], .directory)]⟩ ["fixtures"] (some [".c"]) "Foo" =
      [] := by decide +kernel
  have hexpected : List.Forall₂ (Answers · [] ⟨.here, ["fixtures"]⟩ (some [".c"]) "Foo")
      [.empty, ⟨[(["fixtures", "sub", "FooNegative.c"], .file [98])]⟩,
        ⟨[(["fixtures", "sub"], .directory)]⟩]
      [.ok [], .ok [⟨"b", .negative, "sub/FooNegative.c"⟩], .ok []] := by
    refine .cons ?_ (.cons ?_ (.cons ?_ .nil))
    · exact .absent (FileTree.locate_ne_nameTooLong hfollowed) (hleads _ rfl)
    · exact .listed (hleads _ rfl) (hput ▸ hinventory _ _) (.cons hshown .nil)
    · exact .listed (hleads _ rfl) (hremoved ▸ hinventory _ _) .nil
  exact ⟨rfl, htidy, List.right_unique_forall₂'
    (fun _ _ _ h h' => h.unique h' ⟨fun _ => rfl, fun _ => rfl⟩) hreadings hexpected⟩

end Fixture

end CheckRegistry
