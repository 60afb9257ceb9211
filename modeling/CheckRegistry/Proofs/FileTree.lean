import Mathlib.Data.List.Infix
import CheckRegistry.FileTree

/-! # What writing one file changes

A documentation pass writes its files into one directory.  A file that goes into a directory which
is there, at a place where no directory is, leaves every directory what it was (`isDirectory_put`),
leaves every other file what it was (`file?_put`), and is invisible to whoever lists the files
below a place that the directory does not lie below (`filesBelow_put`).  `Fits` is the condition,
and a write that succeeds has it (`write_child_iff`).
-/

namespace CheckRegistry

namespace Path

theorem follow_cons (place : Place) (part : String) (rest : List String) :
    follow place (part :: rest) =
      follow (if part = ".." then place.dropLast else place ++ [part]) rest := by
  by_cases h : part = ".."
  · subst h
    rfl
  · rw [if_neg h, follow]
    exact h

theorem follow_append (place : Place) (parts rest : List String) :
    follow place (parts ++ rest) = follow (follow place parts) rest := by
  induction parts generalizing place with
  | nil => rfl
  | cons part parts ih => rw [List.cons_append, follow_cons, ih, follow_cons]

/-- An entry of a directory is at the place of the directory, one name further on. -/
theorem resolve_child (p : Path) (cwd : Place) {name : String} (h : name ≠ "..") :
    (p.child name).resolve cwd = p.resolve cwd ++ [name] := by
  rw [resolve, resolve, child]
  show follow (p.origin cwd) (p.parts ++ [name]) = _
  rw [follow_append, follow_cons, if_neg h]
  rfl

end Path

namespace FileTree

variable {t : FileTree} {place dir q : Place} {name : String} {bytes : List UInt8} {cwd : Place}

/-! ## Entries -/

theorem lookup_setEntry (place q : Place) (e : Entry) (l : List (Place × Entry)) :
    (setEntry place e l).lookup q = if q = place then some e else l.lookup q := by
  have hself (p : Place) : (p == p) = true := beq_self_eq_true p
  have hne {p r : Place} (h : p ≠ r) : (p == r) = false := beq_eq_false_iff_ne.mpr h
  induction l with
  | nil =>
    by_cases hq : q = place
    · simp only [setEntry, List.lookup_cons, hq, hself, ite_true]
    · simp only [setEntry, List.lookup_cons, hne hq, List.lookup_nil, hq, ite_false]
  | cons x rest ih =>
    obtain ⟨p, old⟩ := x
    by_cases hp : p = place
    · subst hp
      by_cases hq : q = p
      · simp only [setEntry, List.lookup_cons, hq, hself, ite_true]
      · simp only [setEntry, List.lookup_cons, hne hq, hq, ite_true, ite_false]
    · by_cases hq : q = p
      · subst hq
        simp only [setEntry, List.lookup_cons, hp, hself, ite_false]
      · simp only [setEntry, List.lookup_cons, hp, hne hq, ite_false]
        exact ih

theorem mem_setEntry {e : Entry} {l : List (Place × Entry)} {x : Place × Entry}
    (h : x ∈ setEntry place e l) : x = (place, e) ∨ x ∈ l := by
  induction l with
  | nil => exact Or.inl (by simpa [setEntry] using h)
  | cons y rest ih =>
    obtain ⟨p, old⟩ := y
    by_cases hp : p = place
    · simp only [setEntry, hp, ite_true, List.mem_cons] at h ⊢
      rcases h with h | h
      · exact Or.inl h
      · exact Or.inr (Or.inr h)
    · simp only [setEntry, hp, ite_false, List.mem_cons] at h ⊢
      rcases h with h | h
      · exact Or.inr (Or.inl h)
      · exact (ih h).imp_right Or.inr

theorem mem_setEntry_self (place : Place) (e : Entry) (l : List (Place × Entry)) :
    (place, e) ∈ setEntry place e l := by
  induction l with
  | nil => simp [setEntry]
  | cons y rest ih =>
    obtain ⟨p, old⟩ := y
    by_cases hp : p = place
    · simp [setEntry, hp]
    · simp only [setEntry, hp, ite_false, List.mem_cons]
      exact Or.inr ih

theorem mem_setEntry_of_ne {e : Entry} {l : List (Place × Entry)} {x : Place × Entry}
    (hx : x ∈ l) (hne : x.1 ≠ place) : x ∈ setEntry place e l := by
  induction l with
  | nil => cases hx
  | cons y rest ih =>
    obtain ⟨p, old⟩ := y
    rcases List.mem_cons.mp hx with rfl | hx
    · simp [setEntry, hne]
    · by_cases hp : p = place
      · simp only [setEntry, hp, ite_true, List.mem_cons]
        exact Or.inr hx
      · simp only [setEntry, hp, ite_false, List.mem_cons]
        exact Or.inr (ih hx)

/-- What does not look at entries of a place does not see one being set there. -/
theorem filterMap_setEntry {β : Type} {g : Place × Entry → Option β}
    (hg : ∀ e, g (place, e) = none) (e : Entry) (l : List (Place × Entry)) :
    (setEntry place e l).filterMap g = l.filterMap g := by
  induction l with
  | nil => simp [setEntry, hg]
  | cons y rest ih =>
    obtain ⟨p, old⟩ := y
    by_cases hp : p = place
    · subst hp
      simp [setEntry, hg]
    · simp only [setEntry, hp, ite_false, List.filterMap_cons, ih]

/-! ## Files and directories -/

theorem file?_put (t : FileTree) (place q : Place) (bytes : List UInt8) :
    (t.put place bytes).file? q = if q = place then some bytes else t.file? q := by
  by_cases h : q = place
  · simp [file?, put, lookup_setEntry, h]
  · simp [file?, put, lookup_setEntry, h]

theorem isFile_put (t : FileTree) (place q : Place) (bytes : List UInt8) :
    (t.put place bytes).isFile q = if q = place then true else t.isFile q := by
  rw [isFile, file?_put]
  by_cases h : q = place
  · simp [h]
  · simp [h, isFile]

theorem isDirectory_iff : t.isDirectory q = true ↔
    q = [] ∨ ∃ x ∈ t.entries, (x.1 = q ∧ x.2 = .directory) ∨ (q <+: x.1 ∧ x.1 ≠ q) := by
  simp [isDirectory, List.isEmpty_iff, List.any_eq_true, List.isPrefixOf_iff_prefix]

/-- What a directory lies below is a directory. -/
theorem isDirectory_of_prefix {p : Place} (hq : t.isDirectory q = true) (h : p <+: q) :
    t.isDirectory p = true := by
  by_cases hpq : p = q
  · exact hpq ▸ hq
  · have hne : q ≠ p := fun e => hpq e.symm
    rcases isDirectory_iff.mp hq with rfl | ⟨x, hx, ⟨rfl, _⟩ | ⟨hleads, hxq⟩⟩
    · exact absurd (List.prefix_nil.mp h) hpq
    · exact isDirectory_iff.mpr (Or.inr ⟨x, hx, Or.inr ⟨h, hne⟩⟩)
    · refine isDirectory_iff.mpr (Or.inr ⟨x, hx, Or.inr ⟨h.trans hleads, ?_⟩⟩)
      rintro rfl
      exact hpq (h.eq_of_length_le hleads.length_le)

/-- A file of this name may go into the directory: the directory is there, and no directory has
the name. -/
structure Fits (t : FileTree) (dir : Place) (name : String) : Prop where
  inDirectory : t.isDirectory dir = true
  noDirectory : t.isDirectory (dir ++ [name]) = false

theorem Fits.isDirectory_put (h : t.Fits dir name) (bytes : List UInt8) (q : Place) :
    (t.put (dir ++ [name]) bytes).isDirectory q = t.isDirectory q := by
  rw [Bool.eq_iff_iff]
  constructor
  · intro hq
    rcases isDirectory_iff.mp hq with rfl | ⟨x, hx, hxq⟩
    · exact isDirectory_iff.mpr (Or.inl rfl)
    · rcases mem_setEntry hx with rfl | hx
      · -- the new file: only what it lies below counts, and that was a directory before
        rcases hxq with ⟨_, hkind⟩ | ⟨hleads, hne⟩
        · cases hkind
        · rcases List.prefix_concat_iff.mp hleads with heq | hdir
          · exact absurd heq.symm hne
          · exact isDirectory_of_prefix h.inDirectory hdir
      · exact isDirectory_iff.mpr (Or.inr ⟨x, hx, hxq⟩)
  · intro hq
    rcases isDirectory_iff.mp hq with rfl | ⟨x, hx, hxq⟩
    · exact isDirectory_iff.mpr (Or.inl rfl)
    · by_cases hplace : x.1 = dir ++ [name]
      · -- the entry that the new file replaces, which was no directory
        rcases hxq with ⟨rfl, _⟩ | hbelow
        · rw [hplace, h.noDirectory] at hq
          cases hq
        · exact isDirectory_iff.mpr
            (Or.inr ⟨_, mem_setEntry_self _ (.file bytes) _, Or.inr (hplace ▸ hbelow)⟩)
      · exact isDirectory_iff.mpr (Or.inr ⟨x, mem_setEntry_of_ne hx hplace, hxq⟩)

/-- A file put into a directory is not seen from a place that the directory does not lie below. -/
theorem filesBelow_put {root : Place} (h : ¬ root <+: dir) (t : FileTree) (name : String)
    (bytes : List UInt8) : (t.put (dir ++ [name]) bytes).filesBelow root = t.filesBelow root := by
  have hbelow : (root.isPrefixOf (dir ++ [name]) && dir ++ [name] != root) = false := by
    by_cases heq : dir ++ [name] = root
    · simp [heq]
    · have hleads : ¬ root <+: dir ++ [name] := fun hp =>
        (List.prefix_concat_iff.mp hp).elim (fun e => heq e.symm) h
      have hfalse : root.isPrefixOf (dir ++ [name]) = false := by
        rw [Bool.eq_false_iff, ne_eq, List.isPrefixOf_iff_prefix]
        exact hleads
      rw [hfalse, Bool.false_and]
  rw [filesBelow, filesBelow, put]
  refine congrArg (List.mergeSort · _) (filterMap_setEntry (fun e => ?_) _ _)
  cases e with
  | file old => simp only [hbelow]; rfl
  | directory => rfl

/-! ## Walking -/

/-- A walk that succeeds leaves a directory with its first step. -/
theorem walk_cons_eq_ok {path part : String} {rest : List String}
    (h : t.walk path place (part :: rest) = .ok q) : t.isDirectory place = true ∧
      t.walk path (if part = ".." then place.dropLast else place ++ [part]) rest = .ok q := by
  rw [walk] at h
  split at h
  · cases h
  split at h
  · cases h
  next hdir =>
    split at h
    · cases h
    exact ⟨by simpa using hdir, h⟩

theorem eq_follow_of_walk {path : String} {parts : List String}
    (h : t.walk path place parts = .ok q) : q = Path.follow place parts := by
  induction parts generalizing place with
  | nil => exact (Except.ok.inj h).symm
  | cons part rest ih =>
    rw [Path.follow_cons]
    exact ih (walk_cons_eq_ok h).2

theorem walk_of_locate {p : Path} (h : t.locate cwd p = .ok q) :
    t.walk p.text (p.origin cwd) p.parts = .ok q := by
  rw [locate] at h
  split at h
  · cases h
  split at h
  · cases h
  exact h

theorem eq_resolve_of_locate {p : Path} (h : t.locate cwd p = .ok q) : q = p.resolve cwd :=
  eq_follow_of_walk (walk_of_locate h)

theorem locate_eq_walk {p : Path} (hnull : Char.ofNat 0 ∉ p.text.toList)
    (hlength : p.text.utf8ByteSize ≤ maxPath) :
    t.locate cwd p = t.walk p.text (p.origin cwd) p.parts := by
  rw [locate, String.contains_char_eq, decide_eq_false hnull, if_neg Bool.false_ne_true,
    if_neg (Nat.not_lt.mpr hlength)]

/-- A path leads to a file with these bytes. -/
def LeadsToFile (t : FileTree) (cwd : Place) (p : Path) (bytes : List UInt8) : Prop :=
  ∃ place, t.locate cwd p = .ok place ∧ t.file? place = some bytes

/-- A file is read exactly if the path leads to one. -/
theorem read_eq_ok_iff {p : Path} : t.read cwd p = .ok bytes ↔ t.LeadsToFile cwd p bytes := by
  rw [read, LeadsToFile]
  cases t.locate cwd p with
  | error e => simp [bind, Except.bind]
  | ok place =>
    simp only [bind, Except.bind, Except.ok.injEq, exists_eq_left']
    cases t.file? place with
    | none => simp [throw, throwThe, MonadExceptOf.throw]
    | some found => simp [pure, Except.pure]

theorem walk_ne_nullCharacter {path : String} {parts : List String} :
    t.walk path place parts ≠ .error .nullCharacter := by
  induction parts generalizing place with
  | nil => simp [walk]
  | cons part rest ih =>
    rw [walk]
    split
    · simp
    split
    · simp
    split
    · simp
    exact ih

/-- The null character is the one obstacle that no file tree can remove. -/
theorem read_eq_nullCharacter_iff {p : Path} :
    t.read cwd p = .error .nullCharacter ↔ Char.ofNat 0 ∈ p.text.toList := by
  rw [read, locate, String.contains_char_eq]
  by_cases hnull : Char.ofNat 0 ∈ p.text.toList
  · simp [hnull, bind, Except.bind]
  refine iff_of_false ?_ hnull
  rw [decide_eq_false hnull, if_neg Bool.false_ne_true]
  split
  · simp [bind, Except.bind]
  cases hwalk : t.walk p.text (p.origin cwd) p.parts with
  | error e =>
    simp only [bind, Except.bind, Except.error.injEq]
    rintro rfl
    exact walk_ne_nullCharacter hwalk
  | ok place =>
    simp only [bind, Except.bind]
    cases t.file? place with
    | some bytes => simp [pure, Except.pure]
    | none => cases t.isDirectory place <;> simp [throw, throwThe, MonadExceptOf.throw]

theorem read_of_locate {p : Path} {bytes : List UInt8} (hlocate : t.locate cwd p = .ok place)
    (hfile : t.file? place = some bytes) : t.read cwd p = .ok bytes :=
  read_eq_ok_iff.mpr ⟨place, hlocate, hfile⟩

/-- Every place on the way, but for the last, is a directory. -/
theorem isDirectory_of_walk {path : String} {parts : List String}
    (h : t.walk path place (parts ++ [name]) = .ok q) :
    t.isDirectory (Path.follow place parts) = true := by
  induction parts generalizing place with
  | nil => exact (walk_cons_eq_ok h).1
  | cons part rest ih =>
    rw [Path.follow_cons]
    exact ih (walk_cons_eq_ok h).2

/-- A file of this name can be written into the directory that the path leads to. -/
def Accepts (t : FileTree) (cwd : Place) (out : Path) (name : String) : Prop :=
  t.locate cwd (out.child name) = .ok (out.resolve cwd ++ [name]) ∧
    t.isDirectory (out.resolve cwd ++ [name]) = false

theorem Accepts.fits {out : Path} (h : t.Accepts cwd out name) :
    t.Fits (out.resolve cwd) name :=
  ⟨isDirectory_of_walk (walk_of_locate h.1), h.2⟩

/-- Writing a file into a directory succeeds if the directory accepts it, and then puts the bytes
at the place of the name. -/
theorem write_child_iff {t' : FileTree} {out : Path} (hname : name ≠ "..") :
    t.write cwd (out.child name) bytes = .ok t' ↔
      t.Accepts cwd out name ∧ t' = t.put (out.resolve cwd ++ [name]) bytes := by
  rw [write]
  constructor
  · intro h
    cases hlocate : t.locate cwd (out.child name) with
    | error e => rw [hlocate] at h; cases h
    | ok p =>
      have hp := eq_resolve_of_locate hlocate
      rw [Path.resolve_child out cwd hname] at hp
      subst hp
      rw [hlocate] at h
      change (if t.isDirectory (out.resolve cwd ++ [name]) = true then _ else _) = _ at h
      split at h
      · cases h
      next hfree => exact ⟨⟨hlocate, by simpa using hfree⟩, (Except.ok.inj h).symm⟩
  · rintro ⟨⟨hlocate, hfree⟩, rfl⟩
    rw [hlocate]
    show (if t.isDirectory (out.resolve cwd ++ [name]) = true then _ else _) = _
    rw [hfree]
    rfl

/-- A new file changes where a walk ends only in that a walk through its place now meets a file
where nothing was. -/
theorem Fits.walk_put (h : t.Fits dir name) (bytes : List UInt8) (path : String)
    (place : Place) (parts : List String) :
    (t.put (dir ++ [name]) bytes).walk path place parts = t.walk path place parts ∨
      (t.walk path place parts = .error (.notFound path) ∧
        (t.put (dir ++ [name]) bytes).walk path place parts = .error (.notDirectory path)) := by
  induction parts generalizing place with
  | nil => exact Or.inl rfl
  | cons part rest ih =>
    by_cases hplace : place = dir ++ [name]
    · subst hplace
      have hnew : (t.put (dir ++ [name]) bytes).isFile (dir ++ [name]) = true := by
        rw [isFile_put, if_pos rfl]
      rw [walk, walk, hnew, h.noDirectory]
      cases t.isFile (dir ++ [name]) with
      | true => exact Or.inl rfl
      | false => exact Or.inr ⟨rfl, rfl⟩
    · simp only [walk, isFile_put, h.isDirectory_put, hplace, ite_false]
      split
      · exact Or.inl rfl
      split
      · exact Or.inl rfl
      split
      · exact Or.inl rfl
      exact ih _

theorem Fits.locate_put (h : t.Fits dir name) (bytes : List UInt8) (cwd : Place) (p : Path) :
    (t.put (dir ++ [name]) bytes).locate cwd p = t.locate cwd p ∨
      (t.locate cwd p = .error (.notFound p.text) ∧
        (t.put (dir ++ [name]) bytes).locate cwd p = .error (.notDirectory p.text)) := by
  rw [locate, locate]
  split
  · exact Or.inl rfl
  split
  · exact Or.inl rfl
  exact h.walk_put bytes _ _ _

/-- Which files a directory accepts does not depend on those that it has. -/
theorem Fits.accepts_put {out : Path} {other : String} (h : t.Fits (out.resolve cwd) name)
    (bytes : List UInt8) :
    (t.put (out.resolve cwd ++ [name]) bytes).Accepts cwd out other ↔
      t.Accepts cwd out other := by
  rw [Accepts, Accepts, h.isDirectory_put]
  rcases h.locate_put bytes cwd (out.child other) with hsame | ⟨hbefore, hafter⟩
  · rw [hsame]
  · rw [hbefore, hafter]
    constructor
    · rintro ⟨hok, _⟩
      cases hok
    · rintro ⟨hok, _⟩
      cases hok

/-- Where only the last directory is missing, making it is all there is to do. -/
theorem makeDirectories_of_makeOne {t' : FileTree} {p : Path} (hparts : p.parts ≠ [])
    (h : t.makeOne cwd p = .ok t') : t.makeDirectories cwd p = .ok t' := by
  obtain ⟨n, hn⟩ := Nat.exists_eq_succ_of_ne_zero (mt List.length_eq_zero_iff.mp hparts)
  have hwhole : { p with parts := p.parts.take (n + 1) } = p := by
    rw [← Nat.succ_eq_add_one, ← hn, List.take_length]
  rw [makeDirectories, hn, makeUpTo, hwhole, h]

/-! ## Several files in one directory -/

/-- Puts files into a directory, one after the other. -/
def putAll (t : FileTree) (dir : Place) (files : List (String × List UInt8)) : FileTree :=
  files.foldl (fun t f => t.put (dir ++ [f.1]) f.2) t

variable {files : List (String × List UInt8)}

theorem putAll_concat (t : FileTree) (dir : Place) (files : List (String × List UInt8))
    (f : String × List UInt8) :
    t.putAll dir (files ++ [f]) = (t.putAll dir files).put (dir ++ [f.1]) f.2 := by
  rw [putAll, putAll, List.foldl_append, List.foldl_cons, List.foldl_nil]

theorem file?_putAll_of_ne (hq : ∀ f ∈ files, q ≠ dir ++ [f.1]) :
    (t.putAll dir files).file? q = t.file? q := by
  induction files generalizing t with
  | nil => rfl
  | cons f rest ih =>
    have hrest := ih (t := t.put (dir ++ [f.1]) f.2) fun g hg => hq g (List.mem_cons_of_mem _ hg)
    rw [file?_put, if_neg (hq f List.mem_cons_self)] at hrest
    exact hrest

/-- Of files with different names each is there in the end. -/
theorem file?_putAll_of_mem (hnodup : (files.map Prod.fst).Nodup) (h : (name, bytes) ∈ files) :
    (t.putAll dir files).file? (dir ++ [name]) = some bytes := by
  induction files generalizing t with
  | nil => cases h
  | cons f rest ih =>
    rw [List.map_cons, List.nodup_cons] at hnodup
    obtain ⟨hnew, hrest⟩ := hnodup
    rcases List.mem_cons.mp h with rfl | h
    · -- the first file: none of the others goes into its place
      have hother : ∀ g ∈ rest, dir ++ [name] ≠ dir ++ [g.1] := by
        intro g hg heq
        have hname : name = g.1 := by simpa using heq
        exact hnew (List.mem_map.mpr ⟨g, hg, hname.symm⟩)
      have hlast := file?_putAll_of_ne (t := t.put (dir ++ [name]) bytes) hother
      rw [file?_put, if_pos rfl] at hlast
      exact hlast
    · exact ih hrest h

end FileTree

end CheckRegistry
