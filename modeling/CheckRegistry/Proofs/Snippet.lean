import CheckRegistry.Proofs.FrontMatter
import CheckRegistry.Proofs.Page
import CheckRegistry.Text.Markup

/-! # Reading snippets back

The snippets of a page stand between fences, and a reader collects what stands between one fence and
the next.  What a check and its examples say goes onto the page as it is, so a line of theirs may be
a fence too.  The snippets are read back exactly if there is no such line (`snippets_survive_iff`).

One that there is too many is never made good.  Two add a block.  A single one in a snippet cuts it
short, and a single one elsewhere turns what stands before the next snippet into a block; that ends
in an empty line, as no snippet does.  So a page with one example after another is read from the
front, and each example in its turn settles what stands before it and its own lines
(`blocks_example_iff`).

A check whose names are on one line, and whose summary is as validation wants it, puts no fence onto
its page.  Then it is the examples alone that matter (`blocks_textWith_iff_of_oneLine`).
-/

namespace CheckRegistry

namespace Page

variable {before block rest lines texts : List String} {text : String}

/-! ## Fenced blocks -/

/-- The blocks of some lines, outside a block or inside one with the lines that it has so far. -/
def blocksFrom : Option (List String) → List String → List String
  | _, [] => []
  | none, line :: rest => if line = fence then blocksFrom (some []) rest else blocksFrom none rest
  | some block, line :: rest =>
    if line = fence then "\n".intercalate block :: blocksFrom none rest
    else blocksFrom (some (block ++ [line])) rest

/-- The fenced blocks of some lines.  A block opens at a fence and closes at the next one. -/
def blocks (lines : List String) : List String := blocksFrom none lines

theorem blocksFrom_some (h : fence ∉ block) (start rest : List String) :
    blocksFrom (some start) (block ++ fence :: rest) =
      "\n".intercalate (start ++ block) :: blocks rest := by
  induction block generalizing start with
  | nil => simp [blocksFrom, blocks]
  | cons line block ih =>
    rw [List.mem_cons, not_or] at h
    rw [List.cons_append, blocksFrom, if_neg (Ne.symm h.1), ih h.2, List.append_assoc,
      List.singleton_append]

/-- Lines without a fence add no block. -/
theorem blocks_append (h : fence ∉ before) (rest : List String) :
    blocks (before ++ rest) = blocks rest := by
  induction before with
  | nil => rfl
  | cons line before ih =>
    rw [List.mem_cons, not_or] at h
    rw [List.cons_append, blocks, blocksFrom, if_neg (Ne.symm h.1)]
    exact ih h.2

theorem blocks_fence (h : fence ∉ block) (rest : List String) :
    blocks (fence :: (block ++ fence :: rest)) = "\n".intercalate block :: blocks rest := by
  rw [blocks, blocksFrom, if_pos rfl, blocksFrom_some h, List.nil_append]

/-- The fence that closes a block is the next one after the fence that opens it. -/
theorem blocks_first {first : List String} (hbefore : fence ∉ before) (h : fence ∉ first)
    (rest : List String) :
    blocks (before ++ fence :: (first ++ fence :: rest)) =
      "\n".intercalate first :: blocks rest := by
  rw [blocks_append hbefore, blocks_fence h]

theorem length_blocksFrom (lines : List String) :
    (blocksFrom none lines).length = lines.count fence / 2 ∧
      ∀ block, (blocksFrom (some block) lines).length = (lines.count fence + 1) / 2 := by
  induction lines with
  | nil => exact ⟨rfl, fun _ => rfl⟩
  | cons line lines ih =>
    obtain ⟨houtside, hinside⟩ := ih
    by_cases hline : line = fence
    · subst hline
      rw [List.count_cons_self]
      constructor
      · rw [blocksFrom, if_pos rfl, hinside]
      · intro block
        rw [blocksFrom, if_pos rfl, List.length_cons, houtside]
        omega
    · rw [List.count_cons_of_ne hline]
      constructor
      · rw [blocksFrom, if_neg hline, houtside]
      · intro block
        rw [blocksFrom, if_neg hline, hinside]

/-- It takes two fences to make a block. -/
theorem length_blocks (lines : List String) : (blocks lines).length = lines.count fence / 2 :=
  (length_blocksFrom lines).1

/-- Lines without a fence at the end make no difference. -/
theorem blocks_append_right (h : fence ∉ rest) (lines : List String) :
    blocks (lines ++ rest) = blocks lines := by
  have hfrom : ∀ inside, blocksFrom inside (lines ++ rest) = blocksFrom inside lines := by
    induction lines with
    | nil =>
      obtain ⟨houtside, hinside⟩ := length_blocksFrom rest
      rw [List.count_eq_zero.mpr h] at houtside hinside
      intro inside
      cases inside with
      | none => exact List.eq_nil_of_length_eq_zero houtside
      | some block => exact List.eq_nil_of_length_eq_zero (hinside block)
    | cons line lines ih =>
      intro inside
      cases inside <;> simp only [List.cons_append, blocksFrom, ih]
  exact hfrom none

/-! ## One example -/

/-- Some lines end in an empty one, after one that is no fence. -/
def Spaced (before : List String) : Prop := ∃ last, last ≠ fence ∧ [last, ""] <:+ before

theorem Spaced.append (h : Spaced before) (start : List String) : Spaced (start ++ before) := by
  obtain ⟨last, hlast, hend⟩ := h
  exact ⟨last, hlast, hend.trans (List.suffix_append start before)⟩

/-- What comes after a fence in such lines is a text that ends in a line feed. -/
theorem Spaced.getLast?_intercalate (h : Spaced (before ++ fence :: block)) :
    ("\n".intercalate block).toList.getLast? = some '\n' := by
  obtain ⟨last, hlast, hend⟩ := h
  obtain ⟨start, rfl⟩ : [last, ""] <:+ block := by
    rcases List.suffix_or_suffix_of_suffix hend (List.suffix_append before (fence :: block)) with
      hsuffix | hsuffix
    · rcases List.suffix_cons_iff.mp hsuffix with heq | hsuffix
      · exact absurd (List.cons.inj heq).1 hlast
      · exact hsuffix
    · rcases List.suffix_cons_iff.mp hsuffix with heq | hsuffix
      · exact absurd (List.cons.inj heq).1.symm hlast
      · have hfence : fence ∈ [""] := hsuffix.subset List.mem_cons_self
        exact absurd hfence (by decide)
  rw [List.append_cons, String.intercalate_append_of_ne_nil (by simp) (by simp),
    String.intercalate_singleton]
  simp

/-- A single fence before a text would put a block in its place that ends in a line feed. -/
theorem fence_not_mem_before (htext : text.toList.getLast? ≠ some '\n')
    (hspaced : fence ∈ before → Spaced before) (hone : before.count fence ≤ 1)
    (h : (blocks (before ++ fence :: rest)).head? = some text) : fence ∉ before := by
  intro hmem
  obtain ⟨start, middle, hsplit⟩ := List.append_of_mem hmem
  obtain ⟨hstart, hmiddle⟩ : fence ∉ start ∧ fence ∉ middle := by
    rw [hsplit, List.count_append, List.count_cons_self] at hone
    rw [← List.count_eq_zero, ← List.count_eq_zero]
    omega
  rw [hsplit, List.append_assoc, List.cons_append, blocks_first hstart hmiddle, List.head?_cons,
    Option.some.injEq] at h
  rw [← h] at htext
  exact htext (hsplit ▸ hspaced hmem).getLast?_intercalate

/-- A single fence in a text would cut it short. -/
theorem fence_not_mem_lines_text (hone : (Text.lines text).count fence ≤ 1)
    (h : (blocks (fence :: (Text.lines text ++ rest))).head? = some text) :
    fence ∉ Text.lines text := by
  intro hmem
  obtain ⟨start, after, hsplit⟩ := List.append_of_mem hmem
  have hstart : fence ∉ start := by
    rw [hsplit, List.count_append, List.count_cons_self] at hone
    rw [← List.count_eq_zero]
    omega
  rw [hsplit, List.append_assoc, List.cons_append, blocks_fence hstart, List.head?_cons,
    Option.some.injEq] at h
  by_cases hnil : start = []
  · subst hnil
    rw [← h] at hmem
    exact absurd hmem (by decide)
  · exact absurd (Text.eq_nil_of_intercalate_eq hnil hsplit h) (List.cons_ne_nil _ _)

/-- **One example.**  What comes before a text between fences, the text, and what comes after it are
read as the text and other texts exactly if the text has no fence in it, there is none before it,
and the others are read from what comes after it. -/
theorem blocks_example_iff (htext : text.toList.getLast? ≠ some '\n')
    (hspaced : fence ∈ before → Spaced before) (hcount : 2 * texts.length ≤ rest.count fence) :
    blocks (before ++ fence :: (Text.lines text ++ fence :: rest)) = text :: texts ↔
      fence ∉ before ∧ fence ∉ Text.lines text ∧ blocks rest = texts := by
  constructor
  · intro h
    have hfirst := congrArg List.head? h
    -- by their number, there is at most one fence too many
    have hone : before.count fence + (Text.lines text).count fence ≤ 1 := by
      have hlength := congrArg List.length h
      simp only [length_blocks, List.count_append, List.count_cons_self, List.length_cons]
        at hlength
      omega
    have hbefore := fence_not_mem_before htext hspaced (by omega) hfirst
    rw [blocks_append hbefore] at hfirst
    have hlines := fence_not_mem_lines_text (by omega) hfirst
    rw [blocks_first hbefore hlines] at h
    exact ⟨hbefore, hlines, (List.cons.inj h).2⟩
  · rintro ⟨hbefore, hlines, hrest⟩
    rw [blocks_first hbefore hlines, Text.intercalate_lines, hrest]

/-! ## One example after another -/

/-- The snippet of an example as a page shows it. -/
def shown (e : Example) : String := Text.dropEndChar '\n' e.snippet

/-- An example puts no fence onto a page but its own two. -/
@[mk_iff]
structure Unfenced (e : Example) : Prop where
  source : fence ∉ Text.lines ("__" ++ e.source ++ "__")
  snippet : fence ∉ Text.lines e.snippet

/-- What comes before the fences of an example. -/
def leadLines (e : Example) : List String :=
  if e.source.isEmpty then [] else ["__" ++ e.source ++ "__", ""]

variable {e : Example} {es : List Example} {title : String}

theorem getLast?_shown (e : Example) : (shown e).toList.getLast? ≠ some '\n' :=
  Text.getLast?_dropEndChar '\n' e.snippet

/-- Empty lines are no fences. -/
theorem fence_not_mem_replicate (k : Nat) : fence ∉ List.replicate k "" := fun hmem =>
  absurd (List.eq_of_mem_replicate hmem) (by decide)

theorem fence_mem_lines_shown_iff :
    fence ∈ Text.lines (shown e) ↔ fence ∈ Text.lines e.snippet := by
  obtain ⟨k, hk⟩ := Text.lines_dropEndChar e.snippet
  rw [hk, List.mem_append, or_iff_left (fence_not_mem_replicate k), shown]

theorem fence_mem_leadLines_iff : fence ∈ (leadLines e).flatMap Text.lines ↔
    fence ∈ Text.lines ("__" ++ e.source ++ "__") := by
  rw [leadLines]
  split_ifs with hsource
  · rw [String.isEmpty_iff.mp hsource]
    decide
  · have hblank : fence ∉ [""] := by decide
    rw [List.flatMap_cons, List.flatMap_singleton, Text.lines_empty, List.mem_append,
      or_iff_left hblank]

/-- The last line of a text that ends in an underscore is no fence. -/
theorem spaced_lines {s : String} (h : s.toList.getLast? = some '_') :
    Spaced (Text.lines s ++ [""]) := by
  obtain ⟨start, last, hsplit⟩ : ∃ start last, Text.lines s = start ++ [last] :=
    ⟨_, _, (List.dropLast_append_getLast (Text.lines_ne_nil s)).symm⟩
  refine ⟨last, ?_, start, ?_⟩
  · rintro rfl
    rw [← Text.intercalate_lines s, hsplit] at h
    cases start with
    | nil => exact absurd h (by decide)
    | cons line start =>
      rw [String.intercalate_append_of_ne_nil (by simp) (by simp), String.intercalate_singleton,
        String.toList_append, List.getLast?_append] at h
      cases h
  · rw [hsplit, List.append_assoc]
    rfl

theorem spaced_leadLines (h : leadLines e ≠ []) : Spaced ((leadLines e).flatMap Text.lines) := by
  rw [leadLines] at h ⊢
  split_ifs with hsource
  · exact absurd (if_pos hsource) h
  · refine spaced_lines ?_
    rw [String.toList_append, List.getLast?_append]
    rfl

theorem flatMap_exampleLines_cons (e : Example) (es : List Example) :
    ((e :: es).flatMap exampleLines).flatMap Text.lines =
      (leadLines e).flatMap Text.lines ++ fence :: (Text.lines (shown e) ++
        fence :: "" :: (es.flatMap exampleLines).flatMap Text.lines) := by
  have hlines : exampleLines e = leadLines e ++ [fence, shown e, fence, ""] := rfl
  have hfence : Text.lines fence = [fence] := by decide
  simp [hlines, hfence]

/-- Each example has its two fences. -/
theorem le_count_exampleLines (es : List Example) :
    2 * es.length ≤ ((es.flatMap exampleLines).flatMap Text.lines).count fence := by
  induction es with
  | nil => exact Nat.zero_le _
  | cons e es ih =>
    rw [flatMap_exampleLines_cons]
    simp only [List.count_append, List.count_cons_self, List.length_cons,
      List.count_cons_of_ne (show "" ≠ fence by decide)]
    omega

/-- **One example after another.**  If some examples are read from what comes after a beginning, and
others from the rest, then none of the first has a fence too many, and the beginning has none. -/
theorem blocks_examples_iff (hempty : es = [] → fence ∉ before)
    (hspaced : fence ∈ before → Spaced before) (hcount : 2 * texts.length ≤ rest.count fence) :
    blocks (before ++ ((es.flatMap exampleLines).flatMap Text.lines ++ rest)) =
        es.map shown ++ texts ↔
      fence ∉ before ∧ (∀ e ∈ es, Unfenced e) ∧ blocks rest = texts := by
  induction es generalizing before with
  | nil =>
    have hbefore := hempty rfl
    simp [blocks_append hbefore, hbefore]
  | cons e es ih =>
    have hlead : fence ∈ before ++ (leadLines e).flatMap Text.lines →
        Spaced (before ++ (leadLines e).flatMap Text.lines) := by
      by_cases hnone : leadLines e = []
      · rw [hnone, List.flatMap_nil, List.append_nil]
        exact hspaced
      · exact fun _ => (spaced_leadLines hnone).append before
    have hothers : 2 * (es.map shown ++ texts).length ≤
        ("" :: ((es.flatMap exampleLines).flatMap Text.lines ++ rest)).count fence := by
      have hle := le_count_exampleLines es
      rw [List.count_cons_of_ne (by decide), List.count_append, List.length_append,
        List.length_map]
      omega
    have hblank : fence ∉ [""] := by decide
    have hrest := ih (fun _ => hblank) (fun h => absurd h hblank)
    have hform : before ++ (((e :: es).flatMap exampleLines).flatMap Text.lines ++ rest) =
        before ++ (leadLines e).flatMap Text.lines ++ fence :: (Text.lines (shown e) ++
          fence :: "" :: ((es.flatMap exampleLines).flatMap Text.lines ++ rest)) := by
      rw [flatMap_exampleLines_cons]
      simp
    rw [List.singleton_append] at hrest
    rw [hform, List.map_cons, List.cons_append,
      blocks_example_iff (getLast?_shown e) hlead hothers, hrest, List.mem_append, not_or,
      fence_mem_leadLines_iff, fence_mem_lines_shown_iff, List.forall_mem_cons, unfenced_iff,
      and_iff_right hblank]
    simp only [and_assoc]

/-! ## Groups of examples -/

/-- The lines of a group are those of its heading and of its examples. -/
theorem flatMap_groupLines (htitle : '\n' ∉ title.toList) (h : es ≠ []) :
    (groupLines title es).flatMap Text.lines =
      ["## " ++ title, ""] ++ (es.flatMap exampleLines).flatMap Text.lines := by
  have hheading : Text.lines ("## " ++ title) = ["## " ++ title] :=
    Text.lines_eq_singleton (by simp [htitle])
  rw [groupLines, if_neg (by simpa using h), List.flatMap_append, List.flatMap_cons, hheading,
    List.flatMap_singleton, Text.lines_empty]
  rfl

/-- No heading is a fence. -/
theorem heading_ne_fence (title : String) : "## " ++ title ≠ fence := by
  intro h
  have hlist := congrArg String.toList h
  rw [String.toList_append] at hlist
  exact absurd (List.cons.inj hlist).1 (by decide)

theorem blocks_group_iff (htitle : '\n' ∉ title.toList) (h : es ≠ [])
    (hcount : 2 * texts.length ≤ rest.count fence) :
    blocks (before ++ ((groupLines title es).flatMap Text.lines ++ rest)) =
        es.map shown ++ texts ↔
      fence ∉ before ∧ (∀ e ∈ es, Unfenced e) ∧ blocks rest = texts := by
  have hspaced : Spaced (before ++ ["## " ++ title, ""]) :=
    ⟨"## " ++ title, heading_ne_fence title, List.suffix_append before _⟩
  have hheading : fence ∈ before ++ ["## " ++ title, ""] ↔ fence ∈ before := by
    have hempty : fence ≠ "" := by decide
    simp [(heading_ne_fence title).symm, hempty]
  rw [flatMap_groupLines htitle h, List.append_assoc, ← List.append_assoc before,
    blocks_examples_iff (fun hnil => absurd hnil h) (fun _ => hspaced) hcount, hheading]

theorem blocks_last_group_iff (htitle : '\n' ∉ title.toList) (h : es ≠ []) :
    blocks (before ++ (groupLines title es).flatMap Text.lines) = es.map shown ↔
      fence ∉ before ∧ ∀ e ∈ es, Unfenced e := by
  have hgroup : blocks (before ++ ((groupLines title es).flatMap Text.lines ++ [])) =
      es.map shown ++ [] ↔ fence ∉ before ∧ (∀ e ∈ es, Unfenced e) ∧ blocks [] = [] :=
    blocks_group_iff htitle h (Nat.zero_le _)
  have hnone : blocks [] = [] := rfl
  rwa [List.append_nil, List.append_nil, and_iff_left hnone] at hgroup

/-- The examples that a check flags. -/
def positives (es : List Example) : List Example := es.filter fun e => e.outcome == .positive

/-- The examples that a check leaves alone. -/
def negatives (es : List Example) : List Example := es.filter fun e => e.outcome == .negative

/-- The snippets of some examples as a page shows them: those that the check flags, then those that
it leaves alone. -/
def snippets (es : List Example) : List String := (positives es ++ negatives es).map shown

theorem mem_positives_or_negatives : e ∈ es ↔ e ∈ positives es ∨ e ∈ negatives es := by
  rw [positives, negatives, List.mem_filter, List.mem_filter, ← and_or_left]
  cases e.outcome <;> simp

theorem exampleSection_eq (es : List Example) : exampleSection es =
    groupLines "Positive examples" (positives es) ++
      groupLines "Negative examples" (negatives es) := rfl

theorem forall_unfenced_iff : (∀ e ∈ es, Unfenced e) ↔
    (∀ e ∈ positives es, Unfenced e) ∧ ∀ e ∈ negatives es, Unfenced e := by
  constructor
  · intro h
    exact ⟨fun e he => h e (mem_positives_or_negatives.mpr (.inl he)),
      fun e he => h e (mem_positives_or_negatives.mpr (.inr he))⟩
  · rintro ⟨hpos, hneg⟩ e he
    exact (mem_positives_or_negatives.mp he).elim (hpos e) (hneg e)

theorem groupLines_nil (title : String) : groupLines title [] = [] := rfl

/-- **All examples.**  The snippets are read after a beginning exactly if neither it nor any example
has a fence too many. -/
theorem blocks_exampleSection_iff (h : es ≠ []) :
    blocks (before ++ (exampleSection es).flatMap Text.lines) = snippets es ↔
      fence ∉ before ∧ ∀ e ∈ es, Unfenced e := by
  have hpositive : '\n' ∉ "Positive examples".toList := by decide
  have hnegative : '\n' ∉ "Negative examples".toList := by decide
  rw [exampleSection_eq, snippets, forall_unfenced_iff, List.flatMap_append, List.map_append]
  by_cases hneg : negatives es = []
  · have hpos : positives es ≠ [] := by
      obtain ⟨e, he⟩ := List.exists_mem_of_ne_nil es h
      refine List.ne_nil_of_mem ((mem_positives_or_negatives.mp he).resolve_right ?_)
      rw [hneg]
      exact List.not_mem_nil
    rw [hneg, groupLines_nil, List.flatMap_nil, List.map_nil, List.append_nil, List.append_nil,
      blocks_last_group_iff hpositive hpos]
    simp
  · by_cases hpos : positives es = []
    · rw [hpos, groupLines_nil, List.flatMap_nil, List.map_nil, List.nil_append, List.nil_append,
        blocks_last_group_iff hnegative hneg]
      simp
    · have hcount : 2 * ((negatives es).map shown).length ≤
          ((groupLines "Negative examples" (negatives es)).flatMap Text.lines).count fence := by
        rw [flatMap_groupLines hnegative hneg, List.count_append, List.length_map]
        exact (le_count_exampleLines _).trans (Nat.le_add_left _ _)
      have hlast :
          blocks ([] ++ (groupLines "Negative examples" (negatives es)).flatMap Text.lines) =
            (negatives es).map shown ↔ fence ∉ [] ∧ ∀ e ∈ negatives es, Unfenced e :=
        blocks_last_group_iff hnegative hneg
      rw [List.nil_append] at hlast
      rw [blocks_group_iff hpositive hpos hcount, hlast]
      simp

/-! ## Pages -/

variable {p page : Page} {t : FileTree} {cwd : Place} {c : Check} {provider : Option Provider}
  {site : String}

/-- Nothing that a page is made of puts a fence onto it, besides the two of each example. -/
@[mk_iff]
structure FenceFree (p : Page) (es : List Example) : Prop where
  body : ∀ s ∈ p.bodyLines, fence ∉ Text.lines s
  examples : ∀ e ∈ es, Unfenced e

theorem fence_not_mem_headLines : fence ∉ p.headLines := by
  rw [mem_headLines]
  rintro (hdashes | ⟨entry, -, hentry⟩)
  · exact absurd hdashes (by decide)
  · -- a line with a colon
    have hcolon : ':' ∈ fence.toList := by
      rw [hentry]
      simp
    exact absurd hcolon (by decide)

/-- The front matter of a page and the empty lines at its end are of no concern. -/
theorem blocks_textWith (p : Page) (es : List Example) :
    blocks (Text.lines (p.textWith es)) =
        blocks (p.bodyLines.flatMap Text.lines ++ (exampleSection es).flatMap Text.lines) ∧
      (Text.lines (p.textWith es)).count fence =
        (p.bodyLines.flatMap Text.lines ++ (exampleSection es).flatMap Text.lines).count fence := by
  obtain ⟨kept, k, htext, hpieces⟩ := lines_textWith p es
  have hblank : fence ∉ [""] := by decide
  have hblanks := fence_not_mem_replicate k
  rw [List.flatMap_append, List.flatMap_append, List.append_assoc,
    Text.flatMap_lines_eq_self lineFeed_not_mem_headLines] at hpieces
  have hhead : fence ∉ p.headLines := fence_not_mem_headLines
  constructor
  · rw [htext, blocks_append_right hblank, ← blocks_append_right hblanks, ← hpieces,
      blocks_append hhead]
  · have hcount := congrArg (List.count fence) hpieces
    simp only [List.count_append, List.count_eq_zero.mpr hhead, List.count_eq_zero.mpr hblanks]
      at hcount
    simp only [htext, List.count_append, List.count_eq_zero.mpr hblank]
    omega

/-- **One page.**  With given examples, their snippets are read back exactly if nothing that the
page is made of has a fence among its lines; without examples there may be one such line. -/
theorem blocks_textWith_iff : blocks (Text.lines (p.textWith es)) = snippets es ↔
    p.FenceFree es ∨ es = [] ∧ (Text.lines (p.textWith es)).count fence = 1 := by
  obtain ⟨hblocks, hcount⟩ := blocks_textWith p es
  have hbody : fence ∉ p.bodyLines.flatMap Text.lines ↔
      ∀ s ∈ p.bodyLines, fence ∉ Text.lines s := by
    simp only [List.mem_flatMap, not_exists, not_and]
  rw [hblocks, hcount, fenceFree_iff, ← hbody]
  by_cases hnone : es = []
  · subst hnone
    -- no snippet, so what matters is whether two fences make a block
    have hnil : snippets [] = [] := rfl
    have hsection : (exampleSection []).flatMap Text.lines = [] := rfl
    have hexamples : ∀ e ∈ ([] : List Example), Unfenced e := fun e he =>
      absurd he List.not_mem_nil
    rw [hnil, hsection, List.append_nil, ← List.length_eq_zero_iff, length_blocks,
      ← List.count_eq_zero, and_iff_left hexamples, and_iff_right rfl]
    omega
  · rw [blocks_exampleSection_iff hnone]
    simp [hnone]

/-- A page that could be put together has its examples, if they are good. -/
theorem exists_examples (hpage : assemble c provider site = .ok page)
    (hgood : ¬ c.Unexemplified provider t cwd) : ∃ es, page.examples t cwd = .ok es := by
  have hlink : ¬ c.Linkless site := by
    rw [← Check.link?_isOk_iff]
    cases hread : c.link? site with
    | error e => simp [assemble, hread, Except.map] at hpage
    | ok link => exact ⟨link, rfl⟩
  obtain ⟨text, htext⟩ := Catalog.pageText_isOk_iff.mpr (not_or.mpr ⟨hlink, hgood⟩)
  rw [Catalog.pageText, hpage] at htext
  cases hexamples : page.examples t cwd with
  | error e => simp [Page.text, hexamples, Except.map, Except.mapError, bind, Except.bind] at htext
  | ok es => exact ⟨es, rfl⟩

/-- **Which snippets are read back.**  A reader of a page finds the snippets of its examples, all
that the check flags and then all that it leaves alone, exactly if nothing that the page is made of
has a fence among its lines; a page without examples may have one. -/
theorem snippets_survive_iff (hpage : assemble c provider site = .ok page)
    (hgood : ¬ c.Unexemplified provider t cwd) :
    ∃ es text, page.examples t cwd = .ok es ∧ page.text t cwd = .ok text ∧
      (blocks (Text.lines text) = snippets es ↔
        page.FenceFree es ∨ es = [] ∧ (Text.lines text).count fence = 1) := by
  obtain ⟨es, hes⟩ := exists_examples hpage hgood
  refine ⟨es, page.textWith es, hes, ?_, blocks_textWith_iff⟩
  rw [Page.text, hes]
  rfl

/-- A page of a valid check with some examples. -/
def exemplified (provider : Provider) : Page :=
  { check :=
      { name := "A", summary := "First", severity := .warning, linkType := .none,
        documentSuppression := false }
    link := none
    suppression := none
    provider := some provider }

/-- One example that the check leaves alone, and one that it flags in two lines. -/
def twoSides : Provider :=
  .table [("A", [.list [.text "y = 2\n\n", .word (.outcome .negative)],
    .list [.text "x = 1\n\nz = 3\n", .word (.outcome .positive), .text "a/b.txt"]])]

theorem snippets_survive_of_two_sides :
    assemble (exemplified twoSides).check (some twoSides) Link.defaultSite =
        .ok (exemplified twoSides) ∧
      ¬ (exemplified twoSides).check.Unexemplified (some twoSides) .empty [] ∧
      ∃ text, (exemplified twoSides).text .empty [] = .ok text ∧
        blocks (Text.lines text) = ["x = 1\n\nz = 3", "y = 2"] := by
  have hpage : assemble (exemplified twoSides).check (some twoSides) Link.defaultSite =
      .ok (exemplified twoSides) := by rfl
  have hexamples : (exemplified twoSides).examples .empty [] =
      .ok [⟨"y = 2\n\n", .negative, ""⟩, ⟨"x = 1\n\nz = 3\n", .positive, "a/b.txt"⟩] := by rfl
  have hgood : ¬ (exemplified twoSides).check.Unexemplified (some twoSides) .empty [] := by
    rintro ⟨-, p, ⟨⟩, hspoilt⟩
    exact (Provider.examples_isOk_iff twoSides "A").mp ⟨_, hexamples⟩ hspoilt
  refine ⟨hpage, hgood, ?_⟩
  obtain ⟨es, text, hes, htext, hiff⟩ := snippets_survive_iff hpage hgood
  obtain rfl := Except.ok.inj (hexamples.symm.trans hes)
  refine ⟨text, htext, ?_⟩
  rw [hiff.mpr (.inl ⟨by decide +kernel, ?_⟩)]
  · decide
  · simp only [unfenced_iff]
    decide

/-- One example, with a fence among the lines of its source. -/
def fencedSource : Provider :=
  .table [("A", [.list [.text "x = 1", .word (.outcome .positive), .text "a\n\x60\x60\x60\nb"]])]

/-- A snippet is lost, and what stands before it is shown in its place. -/
theorem snippet_lost_of_fenced_source :
    assemble (exemplified fencedSource).check (some fencedSource) Link.defaultSite =
        .ok (exemplified fencedSource) ∧
      ∃ es text, (exemplified fencedSource).examples .empty [] = .ok es ∧
        (exemplified fencedSource).text .empty [] = .ok text ∧
        snippets es = ["x = 1"] ∧ blocks (Text.lines text) = ["b__\n"] := by
  refine ⟨rfl, _, _, rfl, rfl, by decide, ?_⟩
  rw [(blocks_textWith _ _).1]
  decide +kernel

/-! ## Checks on one line -/

/-- What a check puts onto its page is on one line each, and there is no explanation. -/
structure OneLine (c : Check) : Prop where
  name : '\n' ∉ c.name.toList
  altNames : ∀ a ∈ c.altNames.toList, '\n' ∉ a.toList
  annotations : ∀ a ∈ c.annotations.toList, '\n' ∉ a.toList
  summary : Text.hasBlockMarkup c.summary = false
  explanation : Text.isBlankText c.explanation = true

theorem lineFeed_not_mem_intercalate (separator : String) {ls : List String}
    (hseparator : '\n' ∉ separator.toList) (h : ∀ s ∈ ls, '\n' ∉ s.toList) :
    '\n' ∉ (separator.intercalate ls).toList := by
  induction ls with
  | nil => simp
  | cons s ls ih =>
    obtain ⟨hs, hls⟩ := List.forall_mem_cons.mp h
    cases ls with
    | nil => rwa [String.intercalate_singleton]
    | cons s' ls =>
      rw [String.intercalate_cons_cons, String.toList_append, String.toList_append,
        List.mem_append, List.mem_append, not_or, not_or]
      exact ⟨⟨hs, hseparator⟩, ih hls⟩

theorem lineFeed_not_mem_suppressionText (h : OneLine c) : '\n' ∉ c.suppressionText.toList := by
  have hname := h.name
  have hshort : ∀ a ∈ c.annotations.toList, '\n' ∉ (Check.shortName a).toList := by
    intro a ha hmem
    rw [Check.shortName, String.toList_ofList, List.mem_reverse] at hmem
    exact h.annotations a ha (List.mem_reverse.mp ((List.takeWhile_sublist _).subset hmem))
  have hlisted : '\n' ∉ (", ".intercalate (c.annotations.toList.map fun a =>
      "\x60@" ++ Check.shortName a ++ "\x60")).toList := by
    refine lineFeed_not_mem_intercalate ", " (by decide) fun s hs => ?_
    obtain ⟨a, ha, rfl⟩ := List.mem_map.mp hs
    simp [hshort a ha]
  unfold Check.suppressionText
  split
  · simp [hname]
  · dsimp only
    generalize ", ".intercalate _ = listed at hlisted ⊢
    split_ifs <;> simp [hlisted]
  · decide

theorem space_mem_suppressionText : ' ' ∈ c.suppressionText.toList := by
  unfold Check.suppressionText
  split
  · simp
  · dsimp only
    split_ifs <;> simp
  · decide

/-- A line with a character other than a backquote is no fence. -/
theorem fence_not_mem_lines {s : String} (other : Char) (hother : other ∈ s.toList)
    (hquote : other ∉ fence.toList) (h : '\n' ∉ s.toList) : fence ∉ Text.lines s := by
  rw [Text.lines_eq_singleton h, List.mem_singleton]
  rintro rfl
  exact hquote hother

theorem eq_of_assemble (h : assemble c provider site = .ok page) :
    page.check = c ∧
      page.suppression = if c.documentSuppression then some c.suppressionText else none := by
  rw [assemble] at h
  cases hlink : c.link? site with
  | error e => simp [hlink, Except.map] at h
  | ok link =>
    rw [hlink] at h
    obtain rfl := Except.ok.inj h
    exact ⟨rfl, rfl⟩

/-- A summary without markup is on one line, and it is no fence. -/
theorem fence_not_mem_summary (h : OneLine c) : fence ∉ Text.lines c.summary := by
  have hmarkup := h.summary
  rw [Text.hasBlockMarkup, Bool.or_eq_false_iff, Bool.or_eq_false_iff] at hmarkup
  obtain ⟨⟨hbreak, hfence⟩, -⟩ := hmarkup
  have hfeed : '\n' ∉ c.summary.toList := fun hmem => List.any_eq_false.mp hbreak _ hmem rfl
  rw [Text.lines_eq_singleton hfeed, List.mem_singleton]
  intro heq
  rw [← heq] at hfence
  exact absurd hfence (by decide)

theorem fence_not_mem_altNames (h : OneLine c) : fence ∉
    Text.lines ("_Alternate names: " ++ ", ".intercalate c.altNames.toList ++ "_") := by
  have hlisted := lineFeed_not_mem_intercalate ", " (by decide) h.altNames
  refine fence_not_mem_lines ':' (by simp) (by decide) ?_
  generalize ", ".intercalate _ = listed at hlisted ⊢
  simp [hlisted]

/-- **A check on one line** puts no fence onto its page. -/
theorem body_of_oneLine (hpage : assemble c provider site = .ok page) (h : OneLine c) :
    ∀ s ∈ page.bodyLines, fence ∉ Text.lines s := by
  obtain ⟨hcheck, hsuppression⟩ := eq_of_assemble hpage
  have hempty : fence ∉ Text.lines "" := by decide
  have hname : fence ∉ Text.lines ("# " ++ c.name) :=
    fence_not_mem_lines '#' (by simp) (by decide) (by simp [h.name])
  have hheading : fence ∉ Text.lines "## Suppression" := by decide
  have hhow : fence ∉ Text.lines c.suppressionText := by
    refine fence_not_mem_lines ' ' space_mem_suppressionText (by decide) ?_
    exact lineFeed_not_mem_suppressionText h
  intro s hs
  simp only [bodyLines, hcheck, hsuppression, h.explanation, if_true, List.append_nil,
    List.mem_append, List.mem_cons, List.not_mem_nil, or_false] at hs
  rcases hs with (hs | hs) | hs
  · rcases hs with rfl | rfl | rfl | rfl | rfl
    · exact hempty
    · exact hname
    · exact hempty
    · exact fence_not_mem_summary h
    · exact hempty
  · split_ifs at hs
    · cases hs
    · rcases List.mem_pair.mp hs with rfl | rfl
      · exact fence_not_mem_altNames h
      · exact hempty
  · split at hs
    next s' hsome =>
      split_ifs at hsome
      obtain rfl := Option.some.inj hsome
      simp only [List.mem_cons, List.not_mem_nil, or_false] at hs
      rcases hs with rfl | rfl | rfl | rfl
      · exact hheading
      · exact hempty
      · exact hhow
      · exact hempty
    next => cases hs

/-- **Snippets of a check on one line** are read back exactly if no example has a fence among its
lines. -/
theorem blocks_textWith_iff_of_oneLine (hpage : assemble c provider site = .ok page)
    (h : OneLine c) :
    blocks (Text.lines (page.textWith es)) = snippets es ↔ ∀ e ∈ es, Unfenced e := by
  rw [blocks_textWith_iff, fenceFree_iff]
  constructor
  · rintro (⟨-, hexamples⟩ | ⟨rfl, -⟩)
    · exact hexamples
    · exact fun e he => absurd he List.not_mem_nil
  · exact fun hexamples => .inl ⟨body_of_oneLine hpage h, hexamples⟩

end Page

end CheckRegistry
