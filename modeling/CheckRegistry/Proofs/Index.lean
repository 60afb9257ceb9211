import Mathlib.Data.List.TakeWhile
import CheckRegistry.Proofs.Failures
import CheckRegistry.Proofs.Interruption
import CheckRegistry.Proofs.Judgement
import CheckRegistry.Proofs.Markup

/-! # Reading an index back

The index is a table in Markdown: a line for each check with a page, and three cells in each line.
A reader finds the lines by their ends and the cells by the bars between them, where a bar after a
backslash belongs to its cell.  What a check declares goes into its line as it is.  So the reader
gets out what went in exactly if no name and no summary has a bar in it, and no name a line end
(`index_unambiguous_iff`); summaries have none, or the check would not be valid.

That these characters are too many is a matter of counting.  Each line end adds a line, and the
lines past the head are as many as the checks.  Each bar in a line is lost from the cells, unless a
backslash is lost in its place (`length_cells`), and the bars of the table are what a line is longer
than its cells.
-/

namespace CheckRegistry

/-! ## Line ends -/

namespace Text

variable {s line : List Char}

/-- A line feed ends a line by itself, unless a carriage return comes just before it. -/
theorem unifyLineEnds_append_line (hreturn : line.getLast? ≠ some '\r') (t : List Char) :
    unifyLineEnds (line ++ '\n' :: t) =
      unifyLineEnds line ++ '\n' :: unifyLineEnds t := by
  have htail : ∀ {c : Char} {rest : List Char}, (c :: rest).getLast? ≠ some '\r' →
      rest.getLast? ≠ some '\r' := by
    intro c rest h hrest
    rw [List.getLast?_cons, hrest] at h
    exact h rfl
  induction line using unifyLineEnds.induct with
  | case1 rest ih =>
    show '\n' :: unifyLineEnds (rest ++ '\n' :: t) = _
    rw [ih (htail (htail hreturn))]
    rfl
  | case2 rest hno ih =>
    have hnext : ∀ more, rest ++ '\n' :: t = '\n' :: more → False := by
      intro more hmore
      cases rest with
      | nil => exact hreturn rfl
      | cons d rest => exact hno rest (by rw [(List.cons.inj hmore).1])
    rw [List.cons_append, unifyLineEnds.eq_2 _ hnext, unifyLineEnds.eq_2 _ hno,
      ih (htail hreturn), List.cons_append]
  | case3 c rest hno hno' ih =>
    rw [List.cons_append, unifyLineEnds.eq_3 _ _ (fun _ h => absurd h hno') hno',
      unifyLineEnds.eq_3 _ _ hno hno', ih (htail hreturn), List.cons_append]
  | case4 => rfl

theorem hasLineBreak_eq_false_iff :
    hasLineBreak s = false ↔ '\n' ∉ s ∧ '\r' ∉ s := by
  rw [← Bool.not_eq_true, hasLineBreak_iff, not_or]

/-- A text is read as more than one line exactly if it has a line end of either kind in it. -/
theorem lineFeed_mem_unifyLineEnds_iff :
    '\n' ∈ unifyLineEnds s ↔ hasLineBreak s = true := by
  induction s using unifyLineEnds.induct with
  | case1 rest ih => simp [unifyLineEnds, hasLineBreak]
  | case2 rest hno ih =>
    rw [unifyLineEnds.eq_2 _ hno]
    simp [hasLineBreak]
  | case3 c rest hno hno' ih =>
    have hcons : hasLineBreak (c :: rest) =
        (c == '\n' || c == '\r' || hasLineBreak rest) := rfl
    rw [unifyLineEnds.eq_3 _ _ hno hno', List.mem_cons, ih, hcons, Bool.or_eq_true,
      Bool.or_eq_true, beq_iff_eq, beq_iff_eq, or_iff_left hno', eq_comm]
  | case4 => simp [unifyLineEnds, hasLineBreak]

end Text

namespace Catalog

/-! ## Lines -/

/-- A text consists of lines: none has a line feed in it, and each ends in one. -/
def HasLines (text : List Char) (lines : List (List Char)) : Prop :=
  text = lines.flatMap (· ++ ['\n']) ∧ ∀ line ∈ lines, '\n' ∉ line

variable {line s t : List Char} {lines lines' : List (List Char)}

theorem flatMap_line_inj (h : ∀ line ∈ lines, '\n' ∉ line) (h' : ∀ line ∈ lines', '\n' ∉ line)
    (heq : lines.flatMap (· ++ ['\n']) = lines'.flatMap (· ++ ['\n'])) : lines = lines' := by
  induction lines generalizing lines' with
  | nil =>
    cases lines' with
    | nil => rfl
    | cons line' lines' => simp at heq
  | cons line lines ih =>
    cases lines' with
    | nil => simp at heq
    | cons line' lines' =>
      obtain ⟨hline, hlines⟩ := List.forall_mem_cons.mp h
      obtain ⟨hline', hlines'⟩ := List.forall_mem_cons.mp h'
      simp only [List.flatMap_cons, List.append_assoc, List.singleton_append] at heq
      obtain ⟨rfl, hrest⟩ := Lists.append_cons_inj_of_not_mem hline hline' heq
      rw [ih hlines hlines' hrest]

/-- Pieces that end in a character have it once each, and once for each time that it is in them. -/
theorem count_flatMap_concat (a : Char) (parts : List (List Char)) :
    (parts.flatMap (· ++ [a])).count a = parts.length + parts.flatten.count a := by
  induction parts with
  | nil => rfl
  | cons part parts ih =>
    rw [List.flatMap_cons, List.count_append, List.count_append, ih, List.count_singleton_self,
      List.length_cons, List.flatten_cons, List.count_append]
    omega

theorem count_flatten_eq_zero_iff {a : Char} {parts : List (List Char)} :
    parts.flatten.count a = 0 ↔ ∀ part ∈ parts, a ∉ part := by
  rw [List.count_eq_zero, List.mem_flatten]
  constructor
  · intro h part hpart ha
    exact h ⟨part, hpart, ha⟩
  · rintro h ⟨part, hpart, ha⟩
    exact h part hpart ha

/-- A text put together from as many pieces as it has lines consists of these. -/
theorem HasLines.eq (h : HasLines (lines'.flatMap (· ++ ['\n'])) lines)
    (hlength : lines.length = lines'.length) : lines = lines' := by
  obtain ⟨heq, hlines⟩ := h
  have hcount := congrArg (List.count '\n') heq
  rw [count_flatMap_concat, count_flatMap_concat, count_flatten_eq_zero_iff.mpr hlines] at hcount
  refine flatMap_line_inj hlines (count_flatten_eq_zero_iff.mp ?_) heq.symm
  omega

theorem unifyLineEnds_flatMap_line (h : ∀ line ∈ lines, line.getLast? ≠ some '\r') :
    Text.unifyLineEnds (lines.flatMap (· ++ ['\n'])) =
      (lines.map Text.unifyLineEnds).flatMap (· ++ ['\n']) := by
  induction lines with
  | nil => rfl
  | cons line lines ih =>
    obtain ⟨hline, hlines⟩ := List.forall_mem_cons.mp h
    rw [List.flatMap_cons, List.append_assoc, List.singleton_append,
      Text.unifyLineEnds_append_line hline, ih hlines, List.map_cons, List.flatMap_cons,
      List.append_assoc, List.singleton_append]

/-! ## Cells -/

/-- Puts a character in front of the first cell. -/
def extendFirst (c : Char) : List (List Char) → List (List Char)
  | [] => [[c]]
  | cell :: rest => (c :: cell) :: rest

/-- The cells of a line: what stands between its bars.  A bar after a backslash is a character of
its cell, and the backslash is not. -/
def cells : List Char → List (List Char)
  | '\\' :: '|' :: rest => extendFirst '|' (cells rest)
  | '|' :: rest => [] :: cells rest
  | c :: rest => extendFirst c (cells rest)
  | [] => [[]]

example : cells "| [A](A.md) | WARNING | Use a \\| b |".toList =
    ["", " [A](A.md) ", " WARNING ", " Use a | b ", ""].map String.toList := by decide

theorem flatten_extendFirst (c : Char) (cs : List (List Char)) :
    (extendFirst c cs).flatten = c :: cs.flatten := by
  cases cs with
  | nil => rfl
  | cons cell rest => rfl

/-- Every bar is lost, or the backslash before it. -/
theorem length_cells (s : List Char) : (cells s).flatten.length + s.count '|' = s.length := by
  induction s using cells.induct with
  | case1 rest ih =>
    have hcount : ('\\' :: '|' :: rest).count '|' = rest.count '|' + 1 := by
      rw [List.count_cons_of_ne (by decide), List.count_cons_self]
    rw [cells, flatten_extendFirst, hcount, List.length_cons, List.length_cons, List.length_cons,
      ← ih]
    omega
  | case2 rest ih =>
    rw [cells, List.count_cons_self, List.length_cons, ← ih, List.flatten_cons, List.nil_append]
    omega
  | case3 c rest hno hno' ih =>
    rw [cells.eq_3 _ _ hno hno', flatten_extendFirst, List.count_cons_of_ne hno', List.length_cons,
      List.length_cons, ← ih]
    omega
  | case4 => rfl

theorem cells_cons {c : Char} (hbar : c ≠ '|') (hnext : ∀ rest, s ≠ '|' :: rest) :
    cells (c :: s) = extendFirst c (cells s) :=
  cells.eq_3 c s (fun rest _ h => hnext rest h) hbar

/-- A cell ends at the first bar, if there is a space before it. -/
theorem cells_append_bar (hbar : '|' ∉ s) (t : List Char) :
    cells (s ++ ' ' :: '|' :: t) = (s ++ [' ']) :: cells t := by
  induction s with
  | nil => rfl
  | cons c s ih =>
    rw [List.mem_cons, not_or] at hbar
    have hnext : ∀ rest, s ++ ' ' :: '|' :: t ≠ '|' :: rest := by
      intro rest h
      cases s with
      | nil => exact absurd (List.cons.inj h).1 (by decide)
      | cons d s => exact hbar.2 ((List.cons.inj h).1 ▸ List.mem_cons_self)
    rw [List.cons_append, cells_cons (Ne.symm hbar.1) hnext, ih hbar.2]
    rfl

/-- A line of a table with some cells. -/
def tableLine (parts : List (List Char)) : List Char := '|' :: parts.flatMap (· ++ ['|'])

/-- A text with a space before and after it. -/
def padded (s : List Char) : List Char := ' ' :: (s ++ [' '])

theorem bar_mem_padded_iff : '|' ∈ padded s ↔ '|' ∈ s := by simp [padded]

theorem length_flatMap_concat (a : Char) (parts : List (List Char)) :
    (parts.flatMap (· ++ [a])).length = parts.length + parts.flatten.length := by
  induction parts with
  | nil => rfl
  | cons part parts ih =>
    rw [List.flatMap_cons, List.length_append, List.length_append, ih, List.length_singleton,
      List.length_cons, List.flatten_cons, List.length_append]
    omega

theorem cells_flatMap_padded {texts : List (List Char)} (h : ∀ s ∈ texts, '|' ∉ s) :
    cells ((texts.map padded).flatMap (· ++ ['|'])) = texts.map padded ++ [[]] := by
  induction texts with
  | nil => rfl
  | cons s texts ih =>
    obtain ⟨hs, htexts⟩ := List.forall_mem_cons.mp h
    have hbar : '|' ∉ ' ' :: s := fun hmem => by
      rcases List.mem_cons.mp hmem with heq | hmem
      · exact absurd heq (by decide)
      · exact hs hmem
    have hcell := cells_append_bar hbar ((texts.map padded).flatMap (· ++ ['|']))
    rw [ih htexts] at hcell
    rw [List.map_cons, List.flatMap_cons, padded]
    simpa only [List.cons_append, List.append_assoc, List.singleton_append, List.nil_append]
      using hcell

/-- The cells of a line are read as they were written exactly if there is no bar in them. -/
theorem cells_tableLine_iff {texts : List (List Char)} :
    cells (tableLine (texts.map padded)) = [] :: (texts.map padded ++ [[]]) ↔
      ∀ s ∈ texts, '|' ∉ s := by
  constructor
  · intro h
    have hlength := length_cells (tableLine (texts.map padded))
    rw [h, tableLine, List.count_cons_self, count_flatMap_concat, List.length_cons,
      length_flatMap_concat, List.flatten_cons, List.flatten_append, List.flatten_singleton,
      List.append_nil, List.nil_append] at hlength
    have hcount : (texts.map padded).flatten.count '|' = 0 := by omega
    rw [count_flatten_eq_zero_iff, List.forall_mem_map] at hcount
    exact fun s hs => fun hbar => hcount s hs (bar_mem_padded_iff.mpr hbar)
  · intro h
    rw [tableLine, cells, cells_flatMap_padded h]

/-! ## Entries -/

/-- What a line of an index says: the name of a check, the file of its page, how severe its findings
are, and its summary. -/
structure Entry where
  name : String
  file : String
  severity : String
  summary : String
  deriving DecidableEq

/-- What the index has to say about a check. -/
def Entry.of (c : Check) : Entry :=
  ⟨c.name, fileName c.name, Vocabulary.word c.severity, c.summary⟩

/-- A link to a file with a text. -/
def link (name file : List Char) : List Char := '[' :: (name ++ "](".toList ++ (file ++ [')']))

/-- The texts in the cells of an entry's line. -/
def Entry.texts (e : Entry) : List (List Char) :=
  [link e.name.toList e.file.toList, e.severity.toList, e.summary.toList]

/-- Takes away the space before and after a text. -/
def unpad? : List Char → Option (List Char)
  | ' ' :: s => if s.getLast? = some ' ' then some s.dropLast else none
  | _ => none

/-- Reads a link: the file is what stands between the last opening parenthesis and the end. -/
def readLink? : List Char → Option (List Char × List Char)
  | '[' :: s =>
    match s.reverse with
    | ')' :: back =>
      match back.dropWhile (· != '(') with
      | '(' :: ']' :: name => some (name.reverse, (back.takeWhile (· != '(')).reverse)
      | _ => none
    | _ => none
  | _ => none

/-- Reads a line of an index. -/
def readRow? (line : List Char) : Option Entry :=
  match cells line with
  | [[], first, second, third, []] => do
    let (name, file) ← readLink? (← unpad? first)
    let severity ← unpad? second
    let summary ← unpad? third
    return ⟨String.ofList name, String.ofList file, String.ofList severity, String.ofList summary⟩
  | _ => none

theorem unpad?_eq_some_iff : unpad? s = some t ↔ s = padded t := by
  unfold unpad?
  split
  next s =>
    rw [Option.ite_none_right_eq_some, Option.some.injEq, padded, List.cons.injEq]
    constructor
    · rintro ⟨hlast, rfl⟩
      exact ⟨rfl, (List.dropLast_append_getLast? ' ' hlast).symm⟩
    · rintro ⟨-, rfl⟩
      exact ⟨List.getLast?_concat, List.dropLast_concat⟩
  next hno =>
    refine iff_of_false (fun h => nomatch h) ?_
    rintro rfl
    exact hno _ rfl

theorem readLink?_link {name file : List Char} (hfile : '(' ∉ file) :
    readLink? (link name file) = some (name, file) := by
  have hback : (name ++ "](".toList ++ (file ++ [')'])).reverse =
      ')' :: (file.reverse ++ '(' :: ']' :: name.reverse) := by
    simp
  have hall : ∀ c ∈ file.reverse, (c != '(') = true := by
    intro c hc
    rw [bne_iff_ne]
    rintro rfl
    exact hfile (List.mem_reverse.mp hc)
  have htake : (file.reverse ++ '(' :: ']' :: name.reverse).takeWhile (· != '(') =
      file.reverse := by
    rw [List.takeWhile_append_of_pos hall, List.takeWhile_cons_of_neg (by decide), List.append_nil]
  have hdrop : (file.reverse ++ '(' :: ']' :: name.reverse).dropWhile (· != '(') =
      '(' :: ']' :: name.reverse := by
    rw [List.dropWhile_append_of_pos hall, List.dropWhile_cons_of_neg (by decide)]
  rw [link, readLink?, hback]
  simp only [htake, hdrop, List.reverse_reverse]

theorem eq_link_of_readLink? {name file : List Char} (h : readLink? s = some (name, file)) :
    s = link name file := by
  unfold readLink? at h
  split at h
  next s =>
    split at h
    next back hback =>
      split at h
      next nameBack hopen =>
        obtain ⟨rfl, rfl⟩ := Prod.mk.inj (Option.some.inj h)
        have hsplit : back = back.takeWhile (· != '(') ++ '(' :: ']' :: nameBack := by
          rw [← hopen, List.takeWhile_append_dropWhile]
        rw [link, ← List.reverse_reverse s, hback]
        generalize back.takeWhile (· != '(') = fileBack at hsplit ⊢
        rw [hsplit]
        simp
      · cases h
    · cases h
  · cases h

/-- A line is read as an entry exactly if its cells are those of the entry. -/
theorem readRow?_eq_some_iff {e : Entry} (hfile : '(' ∉ e.file.toList) :
    readRow? line = some e ↔ cells line = [] :: (e.texts.map padded ++ [[]]) := by
  constructor
  · intro h
    unfold readRow? at h
    split at h
    next first second third hcells =>
      simp only [bind, Option.bind_eq_some_iff] at h
      obtain ⟨linked, hlinked, ⟨name, file⟩, hlink, severity, hseverity, summary, hsummary, he⟩ := h
      obtain rfl := Option.some.inj he
      rw [hcells, unpad?_eq_some_iff.mp hlinked, unpad?_eq_some_iff.mp hseverity,
        unpad?_eq_some_iff.mp hsummary, eq_link_of_readLink? hlink]
      simp [Entry.texts]
    · cases h
  · intro h
    have hpad : ∀ t, unpad? (padded t) = some t := fun t => unpad?_eq_some_iff.mpr rfl
    have hlink := @readLink?_link e.name.toList _ hfile
    rw [readRow?, h, Entry.texts, List.map_cons, List.map_cons, List.map_singleton]
    simp only [List.cons_append, List.nil_append, hpad, hlink, bind, Option.bind_some,
      String.ofList_toList]
    rfl

/-! ## What the index of a pass says -/

theorem toList_indexRow (c : Check) :
    (indexRow c).toList = tableLine ((Entry.of c).texts.map padded) := by
  simp [indexRow, tableLine, Entry.of, Entry.texts, link, padded]

theorem isSlugChar_of_mem_fileName {name : String} {c : Char} (h : c ∈ (fileName name).toList) :
    Link.isSlugChar c = true := by
  rw [fileName, String.toList_append, String.toList_ofList, List.mem_append] at h
  rcases h with h | h
  · obtain ⟨d, -, rfl⟩ := List.mem_map.mp h
    split
    next hslug => exact hslug
    · decide
  · have hall : ".md".toList.all Link.isSlugChar = true := rfl
    exact List.all_eq_true.mp hall c h

/-- Nothing that tells lines, cells or links apart stands in the name of a file. -/
theorem not_mem_fileName (name : String) {c : Char} (h : Link.isSlugChar c = false) :
    c ∉ (fileName name).toList := fun hmem =>
  Bool.false_ne_true (h.symm.trans (isSlugChar_of_mem_fileName hmem))

theorem bar_not_mem_word (l : Severity) : '|' ∉ (Vocabulary.word l).toList := by
  cases l <;> decide

theorem bar_mem_link_iff {name file : List Char} :
    '|' ∈ link name file ↔ '|' ∈ name ∨ '|' ∈ file := by
  simp [link]

/-- The line of a check is read as it should exactly if its name and its summary have no bar. -/
theorem readRow?_indexRow_iff {c : Check} : readRow? (indexRow c).toList = some (.of c) ↔
    '|' ∉ c.name.toList ∧ '|' ∉ c.summary.toList := by
  have hparen : '(' ∉ (Entry.of c).file.toList := not_mem_fileName c.name (by decide)
  have hfile : '|' ∉ (fileName c.name).toList := not_mem_fileName c.name (by decide)
  rw [toList_indexRow, readRow?_eq_some_iff hparen, cells_tableLine_iff, Entry.texts]
  simp only [List.forall_mem_cons, List.not_mem_nil, bar_mem_link_iff, Entry.of]
  constructor
  · rintro ⟨hlink, -, hsummary, -⟩
    exact ⟨fun h => hlink (Or.inl h), hsummary⟩
  · rintro ⟨hname, hsummary⟩
    exact ⟨fun h => h.elim hname hfile, bar_not_mem_word c.severity, hsummary,
      fun _ h => h.elim⟩

/-- The line of a check is broken exactly if its name or its summary is. -/
theorem hasLineBreak_indexRow_eq_false_iff {c : Check} :
    Text.hasLineBreak (indexRow c).toList = false ↔
      Text.hasLineBreak c.name.toList = false ∧ Text.hasLineBreak c.summary.toList = false := by
  have hfile : Text.hasLineBreak (fileName c.name).toList = false :=
    Text.hasLineBreak_eq_false_iff.mpr
      ⟨not_mem_fileName c.name (by decide), not_mem_fileName c.name (by decide)⟩
  have hword : Text.hasLineBreak (Vocabulary.word c.severity).toList = false := by
    cases c.severity <;> decide
  rw [Text.hasLineBreak] at hfile hword
  simp [indexRow, Text.hasLineBreak, List.any_append, hfile, hword]

/-- The lines of an index, as a reader finds them: the head, and what the line of each check has
become. -/
theorem unifyLineEnds_indexText (listed : List Check) :
    Text.unifyLineEnds (indexText (listed.map indexRow)).toList =
      (indexHead.map String.toList ++
        listed.map fun c => Text.unifyLineEnds (indexRow c).toList).flatMap (· ++ ['\n']) := by
  have hhead : ∀ line ∈ indexHead.map String.toList, line.getLast? ≠ some '\r' := by decide
  have hrows : ∀ line ∈ (listed.map indexRow).map String.toList, line.getLast? ≠ some '\r' := by
    intro line hline
    obtain ⟨row, hrow, rfl⟩ := List.mem_map.mp hline
    obtain ⟨c, -, rfl⟩ := List.mem_map.mp hrow
    have hlast : (indexRow c).toList.getLast? = some '|' := by
      rw [indexRow, String.toList_append, List.getLast?_append]
      rfl
    rw [hlast]
    decide
  have hkept : (indexHead.map String.toList).map Text.unifyLineEnds =
      indexHead.map String.toList := rfl
  rw [toList_indexText, List.map_append, unifyLineEnds_flatMap_line, List.map_append, hkept,
    List.map_map, List.map_map]
  · rfl
  · intro line hline
    exact (List.mem_append.mp hline).elim (hhead line) (hrows line)

/-- **What an index text says.**  It has a line for each check, and each is read as it should,
exactly if no name has a line end or a bar in it and no summary a bar. -/
theorem reads_indexText_iff {listed : List Check}
    (hsummary : ∀ c ∈ listed, Text.hasLineBreak c.summary.toList = false) :
    (∃ rows, HasLines (Text.unifyLineEnds (indexText (listed.map indexRow)).toList)
        (indexHead.map String.toList ++ rows) ∧
      List.Forall₂ (fun c row => readRow? row = some (.of c)) listed rows) ↔
    ∀ c ∈ listed, Text.hasLineBreak c.name.toList = false ∧ '|' ∉ c.name.toList ∧
      '|' ∉ c.summary.toList := by
  rw [unifyLineEnds_indexText]
  constructor
  · rintro ⟨rows, hlines, hread⟩ c hc
    have hlength : (indexHead.map String.toList ++ rows).length = (indexHead.map String.toList ++
        listed.map fun c => Text.unifyLineEnds (indexRow c).toList).length := by
      rw [List.length_append, List.length_append, List.length_map, List.length_map,
        hread.length_eq]
    -- as many lines as were written, so these are the lines
    obtain rfl := List.append_cancel_left (hlines.eq hlength)
    have hline : Text.hasLineBreak (indexRow c).toList = false := by
      rw [Bool.eq_false_iff, ne_eq, ← Text.lineFeed_mem_unifyLineEnds_iff]
      exact hlines.2 _ (List.mem_append_right _ (List.mem_map_of_mem hc))
    rw [List.forall₂_map_right_iff, List.forall₂_same] at hread
    have hentry := hread c hc
    rw [Text.unifyLineEnds_eq_self (Text.hasLineBreak_eq_false_iff.mp hline).2] at hentry
    exact ⟨(hasLineBreak_indexRow_eq_false_iff.mp hline).1, readRow?_indexRow_iff.mp hentry⟩
  · intro h
    have hline : ∀ c ∈ listed, Text.hasLineBreak (indexRow c).toList = false := fun c hc =>
      hasLineBreak_indexRow_eq_false_iff.mpr ⟨(h c hc).1, hsummary c hc⟩
    refine ⟨_, ⟨rfl, ?_⟩, ?_⟩
    · intro line hmem
      rcases List.mem_append.mp hmem with hmem | hmem
      · have hhead : ∀ line ∈ indexHead.map String.toList, '\n' ∉ line := by decide
        exact hhead line hmem
      · obtain ⟨c, hc, rfl⟩ := List.mem_map.mp hmem
        rw [Text.lineFeed_mem_unifyLineEnds_iff, hline c hc]
        exact Bool.false_ne_true
    · rw [List.forall₂_map_right_iff, List.forall₂_same]
      intro c hc
      rw [Text.unifyLineEnds_eq_self (Text.hasLineBreak_eq_false_iff.mp (hline c hc)).2]
      exact readRow?_indexRow_iff.mpr (h c hc).2

/-! ## The index of a pass -/

/-- The index of a pass is unambiguous: past its head it has one line for each page written, in the
order of names, and each line is read as what it was made of. -/
structure Unambiguous (cwd : Place) (out : Path) (listed : List Check) (pass : Pass) : Prop where
  written : pass.written = listed.map (fun c => fileName c.name) ++ [indexFile]
  order : listed.Pairwise fun a b => a.name < b.name
  index : ∃ bytes text rows,
    pass.tree.file? ((out.child indexFile).resolve cwd) = some bytes ∧
    textOfBytes bytes = .ok text ∧
    HasLines text.toList (["# Bug patterns", "", "| Name | Severity | Summary |",
      "|---|---|---|"].map String.toList ++ rows) ∧
    List.Forall₂ (fun c row => readRow? row = some (.of c)) listed rows

variable {provider : Option Provider} {site : String} {cwd : Place} {out : Path}
  {made tree : FileTree} {checks : List Check} {pages : List (Check × String)} {pass : Pass}

/-- The checks with pages, in the order of names. -/
def listed (checks : List Check) (pass : Pass) : List Check :=
  (Check.sortByName checks).filter fun c => pass.HasPage c

theorem mem_listed {c : Check} : c ∈ listed checks pass ↔ c ∈ checks ∧ pass.HasPage c := by
  rw [listed, List.mem_filter, decide_eq_true_iff, (sortByName_perm checks).mem_iff]

theorem Settled.map_fst_pages (h : Settled provider site cwd out made checks pages pass)
    (hnames : (checks.map Check.name).Nodup) : pages.map Prod.fst = listed checks pass := by
  have hsorted := Check.pairwise_sortByName hnames
  refine Check.eq_of_pairwise_name (hsorted.sublist h.order) (hsorted.filter _) fun c => ?_
  show c ∈ pages.map Prod.fst ↔ c ∈ listed checks pass
  rw [mem_listed, Pass.HasPage]
  constructor
  · intro hc
    have hchecks := (sortByName_perm checks).mem_iff.mp (h.order.subset hc)
    exact ⟨hchecks, fun hfail => (h.failed c hchecks).mp hfail hc⟩
  · rintro ⟨hc, hhas⟩
    by_contra hnone
    exact hhas ((h.failed c hc).mpr hnone)

/-- The files written are those of the checks with pages, and the index. -/
theorem Settled.written_eq_listed (h : Settled provider site cwd out made checks pages pass)
    (hnames : (checks.map Check.name).Nodup) :
    pass.written = (listed checks pass).map (fun c => fileName c.name) ++ [indexFile] := by
  rw [h.written, ← h.map_fst_pages hnames, List.map_map]
  rfl

theorem Settled.file?_index (h : Settled provider site cwd out made checks pages pass)
    (hnames : (checks.map Check.name).Nodup) :
    pass.tree.file? ((out.child indexFile).resolve cwd) =
      some (Utf8.encode (indexText ((listed checks pass).map indexRow))) := by
  rw [← h.map_fst_pages hnames]
  exact hasIndex_iff.mp h.index

/-- A valid check has a summary on one line. -/
theorem hasLineBreak_summary {r : Registry} (hr : r.Built) {c : Check} (hc : c ∈ r.checks) :
    Text.hasLineBreak c.summary.toList = false := by
  have honeLine := (hr.wellFormed hc).oneLine
  rw [Text.hasBlockMarkup, Bool.or_eq_false_iff, Bool.or_eq_false_iff] at honeLine
  exact honeLine.1.1

theorem Settled.unambiguous_iff {r : Registry} (hr : r.Built)
    (h : Settled provider site cwd out made r.checks pages pass) :
    Unambiguous cwd out (listed r.checks pass) pass ↔
      ∀ c ∈ r.checks, pass.HasPage c → Text.hasLineBreak c.name.toList = false ∧
        '|' ∉ c.name.toList ∧ '|' ∉ c.summary.toList := by
  have hindex := h.file?_index hr.nodup_names
  have htext : textOfBytes (Utf8.encode (indexText ((listed r.checks pass).map indexRow))) =
      .ok (String.ofList (Text.unifyLineEnds
        (indexText ((listed r.checks pass).map indexRow)).toList)) :=
    textOfBytes_eq_ok_iff.mpr ⟨_, rfl, rfl⟩
  have hsummary : ∀ c ∈ listed r.checks pass, Text.hasLineBreak c.summary.toList = false :=
    fun c hc => hasLineBreak_summary hr (mem_listed.mp hc).1
  have hreads := reads_indexText_iff hsummary
  constructor
  · rintro ⟨-, -, bytes, text, rows, hbytes, hok, hlines, hread⟩ c hc hhas
    obtain rfl := Option.some.inj (hbytes.symm.trans hindex)
    obtain rfl := Except.ok.inj (hok.symm.trans htext)
    rw [String.toList_ofList] at hlines
    exact hreads.mp ⟨rows, hlines, hread⟩ c (mem_listed.mpr ⟨hc, hhas⟩)
  · intro hplain
    obtain ⟨rows, hlines, hread⟩ := hreads.mpr fun c hc =>
      hplain c (mem_listed.mp hc).1 (mem_listed.mp hc).2
    exact ⟨h.written_eq_listed hr.nodup_names, (Check.pairwise_sortByName hr.nodup_names).filter _,
      _, _, rows, hindex, htext, String.toList_ofList ▸ hlines, hread⟩

/-- **When the index is unambiguous.**  Whatever examples come from, the index that a pass over a
registry leaves behind is read as what it was made of exactly if no check with a page has a line end
or a bar in its name, or a bar in its summary. -/
theorem index_unambiguous_iff {r : Registry} (hr : r.Built)
    (hpass : generate r.checks provider site tree cwd out = .ok pass) :
    Unambiguous cwd out (listed r.checks pass) pass ↔
      ∀ c ∈ r.checks, pass.HasPage c → Text.hasLineBreak c.name.toList = false ∧
        '|' ∉ c.name.toList ∧ '|' ∉ c.summary.toList := by
  obtain ⟨made, _, hmade, _, _⟩ := generate_eq_ok_iff.mp hpass
  obtain ⟨pages, hsettled⟩ := settled_of_generate hr.nodup_names hmade hpass
  exact hsettled.unambiguous_iff hr

theorem index_unambiguous_of_dash_slash :
    ∃ pass, (Registry.ofList [unlinked "A-B", unlinked "A/B"]).Built ∧
      generate [unlinked "A-B", unlinked "A/B"] none Link.defaultSite .empty []
        (.ofText "site") = .ok pass ∧
      Unambiguous [] (.ofText "site") (listed [unlinked "A-B", unlinked "A/B"] pass) pass := by
  have hchecks : Registry.ofChecks [unlinked "A-B", unlinked "A/B"] false =
      .ok (Registry.ofList [unlinked "A-B", unlinked "A/B"]) := by decide +kernel
  have hbuilt := Registry.Built.ofChecks hchecks
  have hplain : ∀ c ∈ [unlinked "A-B", unlinked "A/B"],
      Text.hasLineBreak c.name.toList = false ∧ '|' ∉ c.name.toList ∧ '|' ∉ c.summary.toList := by
    decide
  obtain ⟨pass, hpass⟩ : ∃ pass, generate [unlinked "A-B", unlinked "A/B"] none Link.defaultSite
    .empty [] (.ofText "site") = .ok pass := generate_site_isOk (by decide)
  exact ⟨pass, hbuilt, hpass, (index_unambiguous_iff hbuilt hpass).mpr fun c hc _ => hplain c hc⟩

/-- A valid check with a bar in its summary. -/
def barred : Check := { unlinked "A-B" with summary := "Use a | b" }

/-- The line of a valid check has one cell too many, and no failure is reported. -/
theorem index_ambiguous_of_bar :
    ∃ pass, (Registry.ofList [barred]).Built ∧
      generate [barred] none Link.defaultSite .empty [] (.ofText "site") = .ok pass ∧
      pass.failed = [] ∧ listed [barred] pass = [barred] ∧
      pass.tree.file? ["site", "index.md"] = some (Utf8.encode (indexText
        ["| [A-B](A-B.md) | WARNING | Use a | b |"])) ∧
      cells "| [A-B](A-B.md) | WARNING | Use a | b |".toList =
        ["", " [A-B](A-B.md) ", " WARNING ", " Use a ", " b ", ""].map String.toList ∧
      ¬ Unambiguous [] (.ofText "site") (listed [barred] pass) pass := by
  have hchecks : Registry.ofChecks [barred] false = .ok (Registry.ofList [barred]) := by
    decide +kernel
  have hbuilt := Registry.Built.ofChecks hchecks
  obtain ⟨pass, hpass⟩ : ∃ pass, generate [barred] none Link.defaultSite .empty []
    (.ofText "site") = .ok pass := generate_site_isOk (by decide)
  obtain ⟨made, hmade, hdone⟩ := done_of_generate (fun _ _ h => by cases h) hpass
  have hsorted : Check.sortByName [barred] = [barred] :=
    List.mergeSort_of_pairwise (List.pairwise_singleton _ _)
  have hpage : ∀ t, ∃ text, pageText none Link.defaultSite [] t barred = .ok text :=
    fun t => ⟨_, rfl⟩
  have hfailed : pass.failed = [] := by
    rw [← List.map_eq_nil_iff, List.eq_nil_iff_forall_not_mem]
    intro name hname
    obtain ⟨c, hc, _, hfail⟩ := (hdone.failed name).mp hname
    rw [hsorted] at hc
    obtain rfl := List.mem_singleton.mp hc
    obtain ⟨text, htext⟩ := hpage made
    exact hfail text htext
  have hhas : pass.HasPage barred := by
    rw [Pass.HasPage, hfailed]
    exact List.not_mem_nil
  have hlisted : listed [barred] pass = [barred] := by
    rw [listed, hsorted]
    simp [hhas]
  obtain ⟨pages, hsettled⟩ := settled_of_generate (by decide) hmade hpass
  have hindex := hsettled.file?_index (by decide)
  rw [hlisted] at hindex
  refine ⟨pass, hbuilt, hpass, hfailed, hlisted, ?_, by decide, ?_⟩
  · exact hindex
  · intro hplain
    have hbar := (hsettled.unambiguous_iff hbuilt).mp hplain barred List.mem_cons_self hhas
    exact absurd hbar (by decide)

end Catalog

end CheckRegistry
