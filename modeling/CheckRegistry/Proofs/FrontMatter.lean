import Mathlib.Data.List.Forall2
import CheckRegistry.Page.Basic
import CheckRegistry.Proofs.Json

/-! # Reading front matter back

A page is read line by line.  Its lines are those of the pieces that it is made of, one piece after
the other (`lines_intercalate`), up to the empty lines at its end.  A piece of front matter is a
single line, whatever the check is called and whatever its summary says, for a JSON string has no
line feed in it; and it is read back as what it was printed for.  So nothing that a check declares
can end the front matter early, and nothing in it is lost (`frontMatter_decodes`).
-/

namespace CheckRegistry

/-! ## Lines -/

namespace Text

variable {s t line : String} {ls : List String}

/-- The lines of a text: what stands before, between and after its line feeds. -/
def lines (s : String) : List String := (s.toList.splitOn '\n').map String.ofList

theorem lines_append_lineFeed (s t : String) : lines (s ++ "\n" ++ t) = lines s ++ lines t := by
  have htext : (s ++ "\n" ++ t).toList = s.toList ++ '\n' :: t.toList := by simp
  rw [lines, htext, List.splitOn_append_cons_self, List.map_append, lines, lines]

theorem lines_eq_singleton (h : '\n' ∉ s.toList) : lines s = [s] := by
  rw [lines, List.splitOn_eq_singleton h, List.map_singleton, String.ofList_toList]

@[simp]
theorem lines_empty : lines "" = [""] := rfl

theorem lines_ne_nil (s : String) : lines s ≠ [] := by
  rw [lines, ne_eq, List.map_eq_nil_iff]
  exact List.splitOn_ne_nil _ _

theorem intercalate_lines (s : String) : "\n".intercalate (lines s) = s := by
  have htext : ∀ pieces : List (List Char), (pieces.map String.ofList).map String.toList = pieces :=
    fun pieces => by simp [Function.comp_def]
  rw [← String.toList_inj, String.toList_intercalate, lines, htext]
  exact List.intercalate_splitOn '\n'

/-- No line has a line feed in it. -/
theorem lineFeed_not_mem_of_mem_lines (h : line ∈ lines s) : '\n' ∉ line.toList := by
  obtain ⟨piece, hpiece, rfl⟩ := List.mem_map.mp h
  rw [String.toList_ofList]
  clear h
  generalize s.toList = cs at hpiece
  induction cs generalizing piece with
  | nil =>
    obtain rfl := List.mem_singleton.mp hpiece
    exact List.not_mem_nil
  | cons c cs ih =>
    rw [List.splitOn_cons_eq_if_modifyHead] at hpiece
    obtain ⟨first, others, hsplit⟩ := List.exists_cons_of_ne_nil (List.splitOn_ne_nil '\n' cs)
    rw [hsplit] at ih hpiece
    split_ifs at hpiece with hc
    · rcases List.mem_cons.mp hpiece with rfl | hpiece
      · exact List.not_mem_nil
      · exact ih piece hpiece
    · rcases List.mem_cons.mp hpiece with rfl | hpiece
      · rw [List.mem_cons, not_or]
        exact ⟨fun h => hc (beq_iff_eq.mpr h.symm), ih first List.mem_cons_self⟩
      · exact ih piece (List.mem_cons_of_mem _ hpiece)

/-- A text joined from pieces has the lines of one piece after the other. -/
theorem lines_intercalate (h : ls ≠ []) : lines ("\n".intercalate ls) = ls.flatMap lines := by
  induction ls with
  | nil => exact absurd rfl h
  | cons s ls ih =>
    cases ls with
    | nil => rw [String.intercalate_singleton, List.flatMap_singleton]
    | cons t ls =>
      rw [String.intercalate_cons_cons, lines_append_lineFeed, ih (List.cons_ne_nil _ _)]
      rfl

theorem flatMap_lines_eq_self (h : ∀ s ∈ ls, '\n' ∉ s.toList) : ls.flatMap lines = ls := by
  induction ls with
  | nil => rfl
  | cons s ls ih =>
    obtain ⟨hs, hls⟩ := List.forall_mem_cons.mp h
    rw [List.flatMap_cons, lines_eq_singleton hs, ih hls, List.singleton_append]

/-- The first lines of a text are joined to it only if they are all its lines. -/
theorem eq_nil_of_intercalate_eq {start after : List String} (hne : start ≠ [])
    (hsplit : lines s = start ++ after) (hjoin : "\n".intercalate start = s) : after = [] := by
  have hlines : lines s = start := by
    rw [← hjoin, lines_intercalate hne]
    refine flatMap_lines_eq_self fun line hline => ?_
    have hmem : line ∈ lines s := by
      rw [hsplit]
      exact List.mem_append_left _ hline
    exact lineFeed_not_mem_of_mem_lines hmem
  rw [hsplit] at hlines
  exact List.append_right_eq_self.mp hlines

theorem lines_append_lineFeeds (s : String) (k : Nat) :
    lines (s ++ String.ofList (List.replicate k '\n')) = lines s ++ List.replicate k "" := by
  induction k with
  | zero => simp
  | succ k ih =>
    have hlast : s ++ String.ofList (List.replicate (k + 1) '\n') =
        s ++ String.ofList (List.replicate k '\n') ++ "\n" ++ "" := by
      rw [← String.toList_inj]
      simp [List.replicate_succ']
    rw [hlast, lines_append_lineFeed, ih, List.append_assoc, List.replicate_succ']
    rfl

/-- Without the line feeds at its end, a text lacks the empty lines at its end. -/
theorem lines_dropEndChar (s : String) :
    ∃ k, lines s = lines (dropEndChar '\n' s) ++ List.replicate k "" := by
  obtain ⟨k, hk⟩ := exists_eq_dropEndChar_append '\n' s
  refine ⟨k, ?_⟩
  conv_lhs => rw [hk]
  exact lines_append_lineFeeds _ k

end Text

/-! ## Pages -/

namespace Page

variable {p : Page} {t : FileTree} {cwd : Place} {es : List Example}

/-- The lines of a page are those of its pieces, but for the empty lines at the end. -/
theorem lines_textWith (p : Page) (es : List Example) :
    ∃ kept k, Text.lines (p.textWith es) = kept ++ [""] ∧
      (p.headLines ++ p.bodyLines ++ exampleSection es).flatMap Text.lines =
        kept ++ List.replicate k "" := by
  have hpieces : p.headLines ++ p.bodyLines ++ exampleSection es ≠ [] := by
    simp [headLines]
  obtain ⟨k, hk⟩ := Text.lines_dropEndChar
    ("\n".intercalate (p.headLines ++ p.bodyLines ++ exampleSection es))
  rw [Text.lines_intercalate hpieces] at hk
  exact ⟨_, k, Text.lines_append_lineFeeds _ 1, hk⟩

/-- A line gives a key and a value: the key, a colon and a space, and the value as a JSON string. -/
def Gives (line : String) (entry : String × String) : Prop :=
  ∃ s, line = entry.1 ++ ": " ++ s ∧ Json.decodeString? s = some entry.2

theorem map_fst_frontMatter (p : Page) :
    p.frontMatter.map Prod.fst = ["title", "summary", "layout", "tags", "severity", "link"] := rfl

theorem mem_headLines {line : String} : line ∈ p.headLines ↔
    line = "---" ∨ ∃ entry ∈ p.frontMatter, line = entry.1 ++ ": " ++ Json.string entry.2 := by
  rw [headLines, List.mem_append, List.mem_append, List.mem_singleton, List.mem_map]
  constructor
  · rintro ((rfl | ⟨entry, hentry, rfl⟩) | rfl)
    · exact .inl rfl
    · exact .inr ⟨entry, hentry, rfl⟩
    · exact .inl rfl
  · rintro (rfl | ⟨entry, hentry, rfl⟩)
    · exact .inr rfl
    · exact .inl (.inr ⟨entry, hentry, rfl⟩)

/-- Every line of the front matter is one line, whatever the check declares. -/
theorem lineFeed_not_mem_headLines : ∀ line ∈ p.headLines, '\n' ∉ line.toList := by
  have hkeys : ∀ key ∈ p.frontMatter.map Prod.fst, '\n' ∉ key.toList := by
    rw [map_fst_frontMatter]
    decide
  intro line hline
  obtain rfl | ⟨entry, hentry, rfl⟩ := mem_headLines.mp hline
  · decide
  · have hkey := hkeys entry.1 (List.mem_map_of_mem hentry)
    simp [hkey, Json.lineFeed_not_mem_string]

/-- The front matter ends in dashes, so nothing of it is among the empty lines that may be gone. -/
theorem headLines_prefix {kept rest : List String} {k : Nat}
    (h : p.headLines ++ rest = kept ++ List.replicate k "") : p.headLines <+: kept := by
  rcases List.append_eq_append_iff.mp h with ⟨more, hmore, -⟩ | ⟨lost, hlost, hempty⟩
  · exact ⟨more, hmore.symm⟩
  · cases lost using List.reverseRecOn with
    | nil => exact ⟨[], by rw [hlost, List.append_nil, List.append_nil]⟩
    | append_singleton lost line =>
      have hlast := congrArg List.getLast? hlost
      rw [← List.append_assoc, List.getLast?_concat, headLines, List.getLast?_concat] at hlast
      obtain rfl : "---" = line := Option.some.inj hlast
      have hline : "---" ∈ List.replicate k "" := by
        rw [hempty]
        simp
      exact absurd (List.eq_of_mem_replicate hline) (by decide)

/-- **Front matter is read back.**  A page begins with a line of three dashes, six lines that give
the keys and the values at its head in order, and another line of three dashes, whatever characters
the values have. -/
theorem frontMatter_decodes (h : p.examples t cwd = .ok es) :
    ∃ text entries rest, p.text t cwd = .ok text ∧
      Text.lines text = "---" :: entries ++ "---" :: rest ∧
      List.Forall₂ Gives entries p.frontMatter ∧
      p.frontMatter.map Prod.fst = ["title", "summary", "layout", "tags", "severity", "link"] := by
  obtain ⟨kept, k, htext, hpieces⟩ := lines_textWith p es
  rw [List.append_assoc, List.flatMap_append,
    Text.flatMap_lines_eq_self lineFeed_not_mem_headLines] at hpieces
  obtain ⟨rest, hkept⟩ := headLines_prefix hpieces
  refine ⟨p.textWith es, p.frontMatter.map fun entry => entry.1 ++ ": " ++ Json.string entry.2,
    rest ++ [""], ?_, ?_, ?_, map_fst_frontMatter p⟩
  · rw [Page.text, h]
    rfl
  · rw [htext, ← hkept, headLines, List.append_assoc, List.append_assoc]
    rfl
  · rw [List.forall₂_map_left_iff, List.forall₂_same]
    exact fun entry _ => ⟨_, rfl, Json.decodeString?_string entry.2⟩

/-- A page of a check that would not pass validation: its name would end the front matter if it were
written as it is. -/
def dashed : Page :=
  { check :=
      { name := "A\n---\n\"\\\x01", summary := "😀\r\n---", severity := .warning }
    link := some "---\n"
    suppression := none
    provider := some (.table
      [("A\n---\n\"\\\x01", [.list [.text "---", .word (.outcome .positive)]])]) }

theorem frontMatter_decodes_of_dashes :
    dashed.examples .empty [] = .ok [⟨"---", .positive, ""⟩] ∧
      ∃ text entries rest, dashed.text .empty [] = .ok text ∧
        Text.lines text = "---" :: entries ++ "---" :: rest ∧
        List.Forall₂ Gives entries dashed.frontMatter ∧
        dashed.frontMatter.map Prod.fst =
          ["title", "summary", "layout", "tags", "severity", "link"] := by
  have hexamples : dashed.examples .empty [] = .ok [⟨"---", .positive, ""⟩] := by rfl
  exact ⟨hexamples, frontMatter_decodes hexamples⟩

end Page

end CheckRegistry
