import Mathlib.Data.List.Forall2
import CheckRegistry.Declaration.File
import CheckRegistry.Proofs.FileTree
import CheckRegistry.Proofs.Tokens
import CheckRegistry.Proofs.Utf8

/-! # What a declaration text holds

Whether a text holds declarations, and which, is a matter of its expressions one by one: each has
to be the form of a record (`Declares`).  The source of the text and the positions of its forms go
into messages only, so `parse_eq_ok_iff` mentions neither.

From there declarations may be split over texts at will.  Of all that could leak from one text into
the next, a comment ends with its line, a quote mark is no part of a form, and an atom that a
backslash extends over the line feed is no form (`parse_append`).  Files are texts that are read
one after the other, and reading stops at the first that fails, so several files hold what their
texts hold in lines of their own.
-/

namespace CheckRegistry.Declaration

variable {x : Sexp} {xs : List Sexp} {v : Value} {vs : List Value} {text source : String}
  {record : Record} {records : List Record} {position : Nat}

/-! ## Forms -/

/-- An expression is the form of a record. -/
def Declares (x : Sexp) (record : Record) : Prop :=
  ∃ v, x.toValue = .ok v ∧ ofForm v = .ok record

/-- Only lists are forms of records. -/
theorem Declares.exists_list (h : Declares x record) : ∃ items, x = .list items := by
  obtain ⟨v, hvalue, hform⟩ := h
  cases x with
  | list items => exact ⟨items, rfl⟩
  | symbol name =>
    obtain rfl := Except.ok.inj hvalue
    cases hform
  | text s =>
    obtain rfl := Except.ok.inj hvalue
    cases hform
  | int i =>
    obtain rfl := Except.ok.inj hvalue
    cases hform
  | float f =>
    obtain rfl := Except.ok.inj hvalue
    cases hform
  | brackets items => cases hvalue
  | quoted y => cases hvalue

theorem toValues_cons_eq_ok_iff : Sexp.toValues (x :: xs) = .ok vs ↔
    ∃ v ws, x.toValue = .ok v ∧ Sexp.toValues xs = .ok ws ∧ vs = v :: ws := by
  rw [Sexp.toValues]
  cases x.toValue with
  | error e => simp [bind, Except.bind]
  | ok v =>
    cases Sexp.toValues xs with
    | error e => simp [bind, Except.bind]
    | ok ws => simp [bind, Except.bind, pure, Except.pure, eq_comm]

theorem ofForms_cons_eq_ok_iff : ofForms source position (v :: vs) = .ok records ↔
    ∃ record rest, ofForm v = .ok record ∧ ofForms source (position + 1) vs = .ok rest ∧
      records = record :: rest := by
  rw [ofForms]
  cases ofForm v with
  | error fault => simp
  | ok record =>
    cases ofForms source (position + 1) vs with
    | error e => simp [Functor.map, Except.map]
    | ok rest => simp [Functor.map, Except.map, eq_comm]

theorem ofForms_toValues_iff : (∃ vs, Sexp.toValues xs = .ok vs ∧
    ofForms source position vs = .ok records) ↔ List.Forall₂ Declares xs records := by
  induction xs generalizing position records with
  | nil =>
    rw [List.forall₂_nil_left_iff]
    constructor
    · rintro ⟨vs, hvs, hforms⟩
      obtain rfl := Except.ok.inj hvs
      exact (Except.ok.inj hforms).symm
    · rintro rfl
      exact ⟨[], rfl, rfl⟩
  | cons x xs ih =>
    rw [List.forall₂_cons_left_iff]
    constructor
    · rintro ⟨vs, hvs, hforms⟩
      obtain ⟨v, ws, hv, hws, rfl⟩ := toValues_cons_eq_ok_iff.mp hvs
      obtain ⟨record, rest, hrecord, hrest, rfl⟩ := ofForms_cons_eq_ok_iff.mp hforms
      exact ⟨record, rest, ⟨v, hv, hrecord⟩, ih.mp ⟨ws, hws, hrest⟩, rfl⟩
    · rintro ⟨record, rest, ⟨v, hv, hrecord⟩, hrest, rfl⟩
      obtain ⟨ws, hws, hforms⟩ := (@ih rest (position + 1)).mpr hrest
      exact ⟨v :: ws, toValues_cons_eq_ok_iff.mpr ⟨v, ws, hv, hws, rfl⟩,
        ofForms_cons_eq_ok_iff.mpr ⟨record, rest, hrecord, hforms, rfl⟩⟩

/-! ## Texts -/

/-- A text is read as a sequence of expressions, in a line of its own. -/
def Reads (text : String) (xs : List Sexp) : Prop :=
  Sexp.readAll (text.toList ++ ['\n']) = .ok xs

theorem reads_iff : Reads text xs ↔ Sexp.Denotes (Sexp.lineKinds text.toList) xs :=
  Sexp.readAll_eq_ok_iff

theorem Reads.unique {ys : List Sexp} (h : Reads text xs) (h' : Reads text ys) : xs = ys :=
  Except.ok.inj (h.symm.trans h')

theorem readOne_wrapped_iff :
    Sexp.readOne (wrapped text) = .ok x ↔ ∃ xs, Reads text xs ∧ x = .list xs := by
  simp only [reads_iff]
  exact Sexp.readOne_eq_ok_iff.trans Sexp.denotes_kinds_wrapped_iff

theorem forms_of_reads (h : Reads text xs) (source : String) :
    forms text source = (Sexp.toValues xs).mapError .unsupported := by
  rw [forms, readOne_wrapped_iff.mpr ⟨xs, h, rfl⟩]
  simp only [Sexp.toValue]
  cases Sexp.toValues xs with
  | error y => rfl
  | ok vs => rfl

theorem forms_of_not_reads (h : ∀ xs, ¬ Reads text xs) (source : String) :
    ∃ e, forms text source = .error (.unreadable source e) := by
  rw [forms]
  cases hread : Sexp.readOne (wrapped text) with
  | error e => exact ⟨e, rfl⟩
  | ok x =>
    obtain ⟨xs, hxs, _⟩ := readOne_wrapped_iff.mp hread
    exact absurd hxs (h xs)

theorem forms_eq_ok_iff : forms text source = .ok vs ↔
    ∃ xs, Reads text xs ∧ Sexp.toValues xs = .ok vs := by
  by_cases hread : ∃ xs, Reads text xs
  · obtain ⟨xs, hxs⟩ := hread
    have hvalues : forms text source = .ok vs ↔ Sexp.toValues xs = .ok vs := by
      rw [forms_of_reads hxs]
      cases Sexp.toValues xs <;> simp [Except.mapError]
    rw [hvalues]
    constructor
    · intro h
      exact ⟨xs, hxs, h⟩
    · rintro ⟨ys, hys, h⟩
      rwa [hxs.unique hys]
  · obtain ⟨e, he⟩ := forms_of_not_reads (not_exists.mp hread) source
    rw [he]
    refine iff_of_false (by simp) ?_
    rintro ⟨xs, hxs, _⟩
    exact hread ⟨xs, hxs⟩

/-- **A text holds declarations** exactly if it is read as forms of records, one after the other. -/
theorem parse_eq_ok_iff : parse text source = .ok records ↔
    ∃ xs, Sexp.Denotes (Sexp.lineKinds text.toList) xs ∧ List.Forall₂ Declares xs records := by
  rw [parse]
  constructor
  · intro h
    cases hforms : forms text source with
    | error e => rw [hforms] at h; cases h
    | ok vs =>
      rw [hforms] at h
      obtain ⟨xs, hxs, hvs⟩ := forms_eq_ok_iff.mp hforms
      exact ⟨xs, reads_iff.mp hxs, ofForms_toValues_iff.mp ⟨vs, hvs, h⟩⟩
  · rintro ⟨xs, hxs, hdeclares⟩
    obtain ⟨vs, hvs, hforms⟩ := (@ofForms_toValues_iff xs source records 1).mpr hdeclares
    rw [forms_eq_ok_iff.mpr ⟨xs, reads_iff.mpr hxs, hvs⟩]
    exact hforms

/-- The source goes into messages only. -/
theorem parse_ok_of_source {source' : String} (h : parse text source = .ok records) :
    parse text source' = .ok records :=
  parse_eq_ok_iff.mpr (parse_eq_ok_iff.mp h)

theorem parse_empty (source : String) : parse "" source = .ok [] :=
  parse_eq_ok_iff.mpr ⟨[], .nil, .nil⟩

/-- Two texts that hold declarations hold them in lines of their own as well. -/
theorem parse_append {text₁ text₂ source₁ source₂ : String} {records₁ records₂ : List Record}
    (h₁ : parse text₁ source₁ = .ok records₁) (h₂ : parse text₂ source₂ = .ok records₂)
    (source : String) : parse (text₁ ++ "\n" ++ text₂) source = .ok (records₁ ++ records₂) := by
  obtain ⟨xs, hxs, hdeclares₁⟩ := parse_eq_ok_iff.mp h₁
  obtain ⟨ys, hys, hdeclares₂⟩ := parse_eq_ok_iff.mp h₂
  have hlists : ∀ x ∈ xs, ∃ items, x = .list items := by
    intro x hx
    obtain ⟨i, hi, rfl⟩ := List.getElem_of_mem hx
    obtain ⟨hlength, hget⟩ := List.forall₂_iff_get.mp hdeclares₁
    exact (hget i hi (hlength ▸ hi)).exists_list
  have hchars : (text₁ ++ "\n" ++ text₂).toList = text₁.toList ++ '\n' :: text₂.toList := by
    rw [String.toList_append, String.toList_append, List.append_assoc]
    rfl
  refine parse_eq_ok_iff.mpr ⟨xs ++ ys, ?_, List.rel_append hdeclares₁ hdeclares₂⟩
  rw [hchars]
  exact Sexp.denotes_lines hxs hlists hys

theorem parse_intercalate {texts : List String} {parts : List (List Record)}
    (h : List.Forall₂ (fun text records => parse text source = .ok records) texts parts) :
    parse ("\n".intercalate texts) source = .ok parts.flatten := by
  induction h with
  | nil => exact parse_empty source
  | @cons text records texts parts htext hrest ih =>
    cases hrest with
    | nil => simpa using htext
    | cons hnext hrest =>
      rw [String.intercalate_cons_cons, List.flatten_cons]
      exact parse_append htext ih source

/-! ## Files -/

variable {t : FileTree} {cwd : Place} {p : Path} {paths : List Path}

/-- A file with a text in it holds what the text holds. -/
theorem loadFile_of_read (hread : t.read cwd p = .ok (Utf8.encode text))
    (hreturn : '\r' ∉ text.toList) (hparse : parse text source = .ok records) :
    loadFile t cwd p = .ok records := by
  have htext : textOfBytes (Utf8.encode text) = .ok text := by
    rw [textOfBytes, Utf8.decode_encode]
    show Except.ok (String.ofList (Text.unifyLineEnds text.toList)) = _
    rw [Text.unifyLineEnds_eq_self hreturn, String.ofList_toList]
  rw [loadFile, hread]
  show ((textOfBytes (Utf8.encode text)).mapError LoadError.decoding >>= fun text =>
    (parse text p.text).mapError LoadError.parse) = _
  rw [htext]
  show (parse text p.text).mapError LoadError.parse = _
  rw [parse_ok_of_source hparse]
  rfl

/-- Several files hold what each of them holds, in order, if none of them fails. -/
theorem load_of_loadFile {parts : List (List Record)}
    (h : List.Forall₂ (fun p records => loadFile t cwd p = .ok records) paths parts) :
    load t cwd paths = .ok parts.flatten := by
  have general : (loadUntilFailure t cwd paths).failure = none ∧
      (loadUntilFailure t cwd paths).files.map Prod.snd = parts := by
    induction h with
    | nil => exact ⟨rfl, rfl⟩
    | cons hp _ ih =>
      rw [loadUntilFailure, hp]
      exact ⟨ih.1, congrArg _ ih.2⟩
  rw [load]
  simp only [general.1]
  rw [← general.2, List.flatMap_def]

/-- **Splitting declarations over texts or files does not matter.**  Two texts that hold
declarations hold the same together, in lines of their own.  So whatever several files hold, the
texts of all of them in one do. -/
theorem parse_split :
    (∀ (text₁ text₂ source₁ source₂ source : String) (records₁ records₂ : List Record),
      parse text₁ source₁ = .ok records₁ → parse text₂ source₂ = .ok records₂ →
      parse (text₁ ++ "\n" ++ text₂) source = .ok (records₁ ++ records₂)) ∧
    ∀ (t : FileTree) (cwd : Place) (files : List (Path × String)) (source : String),
      (∀ f ∈ files, t.read cwd f.1 = .ok (Utf8.encode f.2) ∧ '\r' ∉ f.2.toList ∧
        ∃ records, parse f.2 source = .ok records) →
      ∃ records, load t cwd (files.map Prod.fst) = .ok records ∧
        parse ("\n".intercalate (files.map Prod.snd)) source = .ok records := by
  refine ⟨fun _ _ _ _ source _ _ h₁ h₂ => parse_append h₁ h₂ source, ?_⟩
  intro t cwd files source h
  obtain ⟨parts, hparts⟩ : ∃ parts, List.Forall₂ (fun f records =>
      loadFile t cwd f.1 = .ok records ∧ parse f.2 source = .ok records) files parts := by
    induction files with
    | nil => exact ⟨[], .nil⟩
    | cons f files ih =>
      obtain ⟨hread, hreturn, records, hparse⟩ := h f List.mem_cons_self
      obtain ⟨parts, hparts⟩ := ih fun g hg => h g (List.mem_cons_of_mem _ hg)
      exact ⟨records :: parts, .cons ⟨loadFile_of_read hread hreturn hparse, hparse⟩ hparts⟩
  refine ⟨parts.flatten, load_of_loadFile ?_, parse_intercalate ?_⟩
  · exact List.forall₂_map_left_iff.mpr (hparts.imp fun _ _ hboth => hboth.1)
  · exact List.forall₂_map_left_iff.mpr (hparts.imp fun _ _ hboth => hboth.2)

/-- A text that ends within a comment. -/
def commentedText : String := "(bugpattern (name A)) ; to be continued"

/-- A text that begins with a line feed and ends with white space. -/
def spacedText : String := "\n(bugpattern (name \"B\"))  "

/-- A tree with both texts as files. -/
def twoFiles : FileTree :=
  ⟨[(["a.bp"], .file (Utf8.encode commentedText)), (["b.bp"], .file (Utf8.encode spacedText))]⟩

theorem parse_split_of_two :
    parse commentedText "a.bp" = .ok [[("name", .text "A")]] ∧
    parse (commentedText ++ "\n" ++ spacedText) "both.bp" =
      .ok [[("name", .text "A")], [("name", .text "B")]] ∧
    ∃ records, load twoFiles [] [.ofText "a.bp", .ofText "b.bp"] = .ok records ∧
      parse ("\n".intercalate [commentedText, spacedText]) "both.bp" = .ok records := by
  have hfirst : parse commentedText "a.bp" = .ok [[("name", .text "A")]] := by decide +kernel
  have hsecond : parse spacedText "b.bp" = .ok [[("name", .text "B")]] := by decide +kernel
  -- a search through a text does not evaluate, so the limits on paths come first
  have hreadFirst : twoFiles.read [] (.ofText "a.bp") = .ok (Utf8.encode commentedText) := by
    have hlocate : twoFiles.locate [] (.ofText "a.bp") = .ok ["a.bp"] := by
      rw [FileTree.locate_eq_walk (by decide) (by decide)]
      rfl
    exact FileTree.read_of_locate hlocate rfl
  have hreadSecond : twoFiles.read [] (.ofText "b.bp") = .ok (Utf8.encode spacedText) := by
    have hlocate : twoFiles.locate [] (.ofText "b.bp") = .ok ["b.bp"] := by
      rw [FileTree.locate_eq_walk (by decide) (by decide)]
      rfl
    exact FileTree.read_of_locate hlocate rfl
  refine ⟨hfirst, parse_split.1 _ _ _ _ _ _ _ hfirst hsecond,
    parse_split.2 twoFiles [] [(.ofText "a.bp", commentedText), (.ofText "b.bp", spacedText)] _ ?_⟩
  intro f hf
  simp only [List.mem_cons, List.not_mem_nil, or_false] at hf
  rcases hf with rfl | rfl
  · exact ⟨hreadFirst, by simp [commentedText], _, parse_ok_of_source hfirst⟩
  · exact ⟨hreadSecond, by simp [spacedText], _, parse_ok_of_source hsecond⟩

end CheckRegistry.Declaration
