import Mathlib.Data.List.TakeWhile
import CheckRegistry.Proofs.Lists.Search
import CheckRegistry.Text.Markup

/-! # Which texts hold block markup

Markup that begins a block is usually described by patterns, which are tried at the beginning of a
text and may take back what they have taken.  `hasBlockMarkup` looks at a text once from left to
right instead.  Here are the patterns with all ways in which they can match (`Pattern.Takes`), and
what they are there for, said without either (`Block`, `IsMarkup`).

A block has at most three white space characters before it and begins with none, so where it begins
is settled, and each pattern after that is a matter of runs of characters (`takes_run_iff`).  Only a
thematic break repeats more than a character; its repetitions are counted by the marks that they
have taken (`repeats_marks_iff`).
-/

namespace CheckRegistry.Text

variable {s body : List Char} {c : Char}

/-! ## Patterns -/

/-- A pattern for a part of a text. -/
inductive Pattern
  /-- A character of a class. -/
  | char (ok : Char → Bool)
  | seq (p q : Pattern)
  | either (p q : Pattern)
  /-- A pattern some times in a row, with a least number and perhaps a greatest one. -/
  | times (least : Nat) (most : Option Nat) (p : Pattern)
  /-- A pattern whose part of the text is kept. -/
  | keep (p : Pattern)
  /-- The part that was kept last, once more. -/
  | again
  /-- The beginning of the text. -/
  | start
  /-- The end of the text, or the line feed before it. -/
  | finish

namespace Pattern

/-- A position in a text, and what a pattern has kept on the way there. -/
structure Cursor where
  passed : List Char
  ahead : List Char
  kept : List Char := []

/-- Steps in a row, so many of them. -/
def Repeats (step : Cursor → Cursor → Prop) : Nat → Cursor → Cursor → Prop
  | 0, a, b => b = a
  | n + 1, a, b => ∃ m, step a m ∧ Repeats step n m b

/-- A pattern can take one to another position. -/
def Takes : Pattern → Cursor → Cursor → Prop
  | char ok, a, b =>
    ∃ c rest, a.ahead = c :: rest ∧ ok c = true ∧ b = ⟨a.passed ++ [c], rest, a.kept⟩
  | seq p q, a, b => ∃ m, p.Takes a m ∧ q.Takes m b
  | either p q, a, b => p.Takes a b ∨ q.Takes a b
  | times least most p, a, b => ∃ n, least ≤ n ∧ (∀ m ∈ most, n ≤ m) ∧ Repeats p.Takes n a b
  | keep p, a, b => ∃ m w, p.Takes a m ∧ m.passed = a.passed ++ w ∧ b = { m with kept := w }
  | again, a, b => ∃ rest, a.ahead = a.kept ++ rest ∧ b = ⟨a.passed ++ a.kept, rest, a.kept⟩
  | start, a, b => a.passed = [] ∧ b = a
  | finish, a, b => (a.ahead = [] ∨ a.ahead = ['\n']) ∧ b = a

/-- A pattern matches somewhere in a text. -/
def FoundIn (p : Pattern) (text : List Char) : Prop :=
  ∃ before after b, text = before ++ after ∧ p.Takes ⟨before, after, []⟩ b

/-- A character out of some. -/
def oneOf (marks : List Char) : Pattern := char fun c => decide (c ∈ marks)

def blank : Pattern := char isBlank

/-- A pattern at the beginning of a text, after at most three white space characters. -/
def atStart (p : Pattern) : Pattern := seq start (seq (times 0 (some 3) blank) p)

def fence : Pattern :=
  either (seq (oneOf ['\x60']) (seq (oneOf ['\x60']) (oneOf ['\x60'])))
    (seq (oneOf ['~']) (seq (oneOf ['~']) (oneOf ['~'])))

def heading : Pattern := seq (times 1 (some 6) (oneOf ['#'])) (either blank finish)

def quotation : Pattern := oneOf ['>']

def bullet : Pattern := seq (oneOf ['-', '*', '+']) blank

def numbered : Pattern := seq (times 1 none (char isDigit)) (seq (oneOf ['.', ')']) blank)

/-- White space, and the kept part once more. -/
def oneMore : Pattern := seq (times 0 none blank) again

/-- A mark, and at least twice more the same. -/
def thematicBreak : Pattern :=
  seq (keep (oneOf ['-', '*', '_'])) (seq (times 2 none oneMore) (seq (times 0 none blank) finish))

/-- The patterns of what begins a block. -/
def blocks : List Pattern := [heading, quotation, bullet, numbered, thematicBreak]

/-- The patterns of block markup. -/
def markup : List Pattern := fence :: blocks.map atStart

end Pattern

/-! ## What begins a block -/

/-- One to six number signs, then white space or the end. -/
def Heading (s : List Char) : Prop :=
  ∃ signs rest, s = signs ++ rest ∧ (∀ c ∈ signs, c = '#') ∧ 1 ≤ signs.length ∧
    signs.length ≤ 6 ∧ ∀ c ∈ rest.head?, isBlank c = true

def Quotation (s : List Char) : Prop := ∃ rest, s = '>' :: rest

/-- A mark, then white space. -/
def Bullet (s : List Char) : Prop :=
  ∃ mark c rest, s = mark :: c :: rest ∧ mark ∈ ['-', '*', '+'] ∧ isBlank c = true

/-- Digits, a mark, then white space. -/
def Numbered (s : List Char) : Prop :=
  ∃ digits mark c rest, s = digits ++ mark :: c :: rest ∧ digits ≠ [] ∧
    (∀ d ∈ digits, isDigit d = true) ∧ mark ∈ ['.', ')'] ∧ isBlank c = true

/-- At least three of one mark, and nothing else but white space. -/
def ThematicBreak (s : List Char) : Prop :=
  ∃ mark, mark ∈ ['-', '*', '_'] ∧ (∀ c ∈ s, isBlank c = true ∨ c = mark) ∧ 3 ≤ s.count mark

/-- What a text that begins a block is after the white space at its beginning. -/
def Block (s : List Char) : Prop :=
  Heading s ∨ Quotation s ∨ Bullet s ∨ Numbered s ∨ ThematicBreak s

/-- A text begins a block: after all white space at its beginning, at most three characters. -/
def Opens (s : List Char) : Prop :=
  ∃ lead body, s = lead ++ body ∧ lead.length ≤ 3 ∧ (∀ c ∈ lead, isBlank c = true) ∧
    (∀ c ∈ body.head?, isBlank c = false) ∧ Block body

/-- A text holds block markup: a line ends in it, three backquotes or three tildes follow each
other, or it begins a block. -/
def IsMarkup (s : List Char) : Prop :=
  '\n' ∈ s ∨ '\r' ∈ s ∨ ['\x60', '\x60', '\x60'] <:+: s ∨ ['~', '~', '~'] <:+: s ∨ Opens s

/-! ## Reading from left to right -/

theorem hasFence_iff : hasFence s = true ↔
    ['\x60', '\x60', '\x60'] <:+: s ∨ ['~', '~', '~'] <:+: s := by
  induction s with
  | nil => simp [hasFence]
  | cons c s ih =>
    rw [hasFence, Bool.or_eq_true, ih, List.infix_cons_iff, List.infix_cons_iff]
    simp only [List.any_cons, List.any_nil, Bool.or_false, Bool.or_eq_true,
      List.isPrefixOf_iff_prefix]
    exact or_or_or_comm

theorem blankOrEnd_iff : blankOrEnd s = true ↔ ∀ c ∈ s.head?, isBlank c = true := by
  cases s <;> simp [blankOrEnd]

theorem blankNext_iff : blankNext s = true ↔ ∃ c rest, s = c :: rest ∧ isBlank c = true := by
  cases s <;> simp [blankNext]

theorem isHeading_iff : isHeading s = true ↔ Heading s := by
  rw [isHeading, Bool.and_eq_true, decide_eq_true_eq, blankOrEnd_iff]
  constructor
  · rintro ⟨⟨hone, hsix⟩, hnext⟩
    refine ⟨_, _, List.takeWhile_append_dropWhile.symm, fun c hc => ?_, hone, hsix, hnext⟩
    have hsign := List.mem_takeWhile_imp hc
    exact beq_iff_eq.mp hsign
  · rintro ⟨signs, rest, rfl, hsign, hone, hsix, hnext⟩
    have hend : ∀ c ∈ rest.head?, (c == '#') = false := by
      intro c hc
      rw [beq_eq_false_iff_ne]
      rintro rfl
      exact absurd (hnext '#' hc) (by decide)
    obtain ⟨htake, hdrop⟩ := Lists.span_append (fun c hc => beq_iff_eq.mpr (hsign c hc)) hend
    rw [htake, hdrop]
    exact ⟨⟨hone, hsix⟩, hnext⟩

theorem isQuotation_iff : isQuotation s = true ↔ Quotation s := by
  constructor
  · intro h
    unfold isQuotation at h
    split at h
    next rest => exact ⟨rest, rfl⟩
    · cases h
  · rintro ⟨rest, rfl⟩
    rfl

theorem isBullet_iff : isBullet s = true ↔ Bullet s := by
  cases s with
  | nil => simp [isBullet, Bullet]
  | cons mark s =>
    simp only [isBullet, Bullet, Bool.and_eq_true, Bool.or_eq_true, beq_iff_eq, blankNext_iff,
      List.mem_cons, List.not_mem_nil, or_false, or_assoc]
    constructor
    · rintro ⟨hmark, c, rest, rfl, hc⟩
      exact ⟨mark, c, rest, rfl, hmark, hc⟩
    · rintro ⟨_, c, rest, heq, hmark, hc⟩
      obtain ⟨rfl, rfl⟩ := List.cons.inj heq
      exact ⟨hmark, c, rest, rfl, hc⟩

theorem isNumbered_iff : isNumbered s = true ↔ Numbered s := by
  constructor
  · intro h
    have hsplit : s.takeWhile isDigit ++ s.dropWhile isDigit = s :=
      List.takeWhile_append_dropWhile
    have hall : ∀ d ∈ s.takeWhile isDigit, isDigit d = true := fun d hd =>
      List.mem_takeWhile_imp hd
    rw [isNumbered] at h
    split at h
    · cases h
    next mark after hafter hthere =>
      rw [hafter] at hsplit
      simp only [Bool.and_eq_true, Bool.or_eq_true, beq_iff_eq, blankNext_iff] at h
      obtain ⟨hmark, c, rest, rfl, hc⟩ := h
      exact ⟨_, mark, c, rest, hsplit.symm, hthere, hall, by simpa using hmark, hc⟩
    · cases h
  · rintro ⟨digits, mark, c, rest, rfl, hthere, hall, hmark, hc⟩
    have hend : ∀ d ∈ (mark :: c :: rest).head?, isDigit d = false := by
      rintro d hd
      obtain rfl := Option.some.inj hd
      rcases List.mem_pair.mp hmark with rfl | rfl <;> decide
    obtain ⟨htake, hdrop⟩ := Lists.span_append hall hend
    rw [isNumbered, htake, hdrop]
    cases digits with
    | nil => exact absurd rfl hthere
    | cons d digits =>
      simp only [Bool.and_eq_true, Bool.or_eq_true, beq_iff_eq, blankNext_iff]
      exact ⟨by simpa using hmark, c, rest, rfl, hc⟩

theorem not_isBlank_of_mark {mark : Char} (h : mark ∈ ['-', '*', '_']) : isBlank mark = false := by
  simp only [List.mem_cons, List.not_mem_nil, or_false] at h
  rcases h with rfl | rfl | rfl <;> decide

/-- In a text of white space and one mark, only the marks are left without the white space. -/
theorem filter_not_isBlank {mark : Char} (hmark : isBlank mark = false)
    (honly : ∀ c ∈ s, isBlank c = true ∨ c = mark) :
    (s.filter fun c => !isBlank c) = List.replicate (s.count mark) mark := by
  have hcount : (s.filter fun c => !isBlank c).count mark = s.count mark :=
    List.count_filter (by simp [hmark])
  have hsame : ∀ c ∈ s.filter fun c => !isBlank c, c = mark := by
    intro c hc
    obtain ⟨hmem, hblank⟩ := List.mem_filter.mp hc
    rcases honly c hmem with h | h
    · simp [h] at hblank
    · exact h
  rw [← hcount, List.count_eq_length.mpr fun c hc => (hsame c hc).symm]
  exact List.eq_replicate_of_mem hsame

theorem isThematicBreak_iff : isThematicBreak s = true ↔ ThematicBreak s := by
  constructor
  · intro h
    rw [isThematicBreak] at h
    split at h
    · cases h
    next mark rest hmarks =>
      simp only [Bool.and_eq_true, Bool.or_eq_true, beq_iff_eq, List.all_eq_true,
        decide_eq_true_eq] at h
      obtain ⟨⟨hknown, hrest⟩, htwo⟩ := h
      have hmark : mark ∈ ['-', '*', '_'] := by simpa [or_assoc] using hknown
      have hsame : ∀ c ∈ mark :: rest, mark = c :=
        List.forall_mem_cons.mpr ⟨rfl, fun c hc => (hrest c hc).symm⟩
      refine ⟨mark, hmark, fun c hc => ?_, ?_⟩
      · by_cases hblank : isBlank c = true
        · exact .inl hblank
        · have hleft : c ∈ s.filter fun c => !isBlank c :=
            List.mem_filter.mpr ⟨hc, by simpa using hblank⟩
          rw [hmarks] at hleft
          exact .inr (hsame c hleft).symm
      · have hcount : (s.filter fun c => !isBlank c).count mark = s.count mark :=
          List.count_filter (by simp [not_isBlank_of_mark hmark])
        rw [← hcount, hmarks, List.count_eq_length.mpr hsame, List.length_cons]
        omega
  · rintro ⟨mark, hmark, honly, hthree⟩
    obtain ⟨n, hn⟩ := Nat.exists_eq_add_of_le hthree
    rw [isThematicBreak, filter_not_isBlank (not_isBlank_of_mark hmark) honly, hn, Nat.add_comm,
      List.replicate_succ]
    simp only [List.mem_cons, List.not_mem_nil, or_false] at hmark
    simp [hmark, or_assoc]

/-! ## What the reader finds -/

theorem isBlock_iff : (isHeading s || isQuotation s || isBullet s || isNumbered s ||
    isThematicBreak s) = true ↔ Block s := by
  simp only [Bool.or_eq_true, isHeading_iff, isQuotation_iff, isBullet_iff, isNumbered_iff,
    isThematicBreak_iff, or_assoc, Block]

theorem beginsBlock_iff : beginsBlock s = true ↔ Opens s := by
  rw [beginsBlock, Bool.and_eq_true, decide_eq_true_eq, isBlock_iff]
  constructor
  · rintro ⟨hthree, hblock⟩
    refine ⟨_, _, List.takeWhile_append_dropWhile.symm, hthree,
      fun c hc => List.mem_takeWhile_imp hc, fun c hc => ?_, hblock⟩
    have hfirst := List.head?_dropWhile_not isBlank s
    rwa [hc] at hfirst
  · rintro ⟨lead, body, rfl, hthree, hlead, hbody, hblock⟩
    obtain ⟨htake, hdrop⟩ := Lists.span_append hlead hbody
    rw [htake, hdrop]
    exact ⟨hthree, hblock⟩

theorem hasLineBreak_iff : hasLineBreak s = true ↔ '\n' ∈ s ∨ '\r' ∈ s := by
  rw [hasLineBreak, List.any_eq_true]
  constructor
  · rintro ⟨c, hc, h⟩
    rcases Bool.or_eq_true_iff.mp h with h | h
    · exact .inl (beq_iff_eq.mp h ▸ hc)
    · exact .inr (beq_iff_eq.mp h ▸ hc)
  · rintro (h | h)
    · exact ⟨_, h, rfl⟩
    · exact ⟨_, h, rfl⟩

theorem hasBlockMarkup_iff {t : String} : hasBlockMarkup t = true ↔ IsMarkup t.toList := by
  rw [hasBlockMarkup, Bool.or_eq_true, Bool.or_eq_true, hasLineBreak_iff, hasFence_iff,
    beginsBlock_iff, IsMarkup, or_assoc, or_assoc, or_assoc]

/-! ## What the patterns find -/

namespace Pattern

variable {ok : Char → Bool} {p q : Pattern} {lead text kept marks : List Char} {b : Cursor}
  {n : Nat}

theorem takes_oneOf_iff : (oneOf marks).Takes ⟨lead, text, kept⟩ b ↔
    ∃ c rest, text = c :: rest ∧ c ∈ marks ∧ b = ⟨lead ++ [c], rest, kept⟩ := by
  simp only [oneOf, Takes, decide_eq_true_eq]

theorem repeats_char_iff : Repeats (char ok).Takes n ⟨lead, text, kept⟩ b ↔
    ∃ w rest, text = w ++ rest ∧ (∀ c ∈ w, ok c = true) ∧ w.length = n ∧
      b = ⟨lead ++ w, rest, kept⟩ := by
  induction n generalizing lead text with
  | zero =>
    constructor
    · rintro rfl
      exact ⟨[], text, rfl, nofun, rfl, by rw [List.append_nil]⟩
    · rintro ⟨w, rest, rfl, -, hlength, rfl⟩
      obtain rfl := List.eq_nil_of_length_eq_zero hlength
      rw [List.append_nil]
      rfl
  | succ n ih =>
    constructor
    · rintro ⟨_, ⟨c, rest, rfl, hc, rfl⟩, hrest⟩
      obtain ⟨w, rest, rfl, hw, rfl, rfl⟩ := ih.mp hrest
      exact ⟨c :: w, rest, rfl, List.forall_mem_cons.mpr ⟨hc, hw⟩, rfl, by
        rw [List.append_assoc, List.singleton_append]⟩
    · rintro ⟨w, rest, rfl, hw, hlength, rfl⟩
      cases w with
      | nil => cases hlength
      | cons c w =>
        obtain ⟨hc, hw⟩ := List.forall_mem_cons.mp hw
        refine ⟨_, ⟨c, w ++ rest, rfl, hc, rfl⟩,
          ih.mpr ⟨w, rest, rfl, hw, Nat.succ.inj hlength, ?_⟩⟩
        rw [List.append_assoc, List.singleton_append]

/-- Characters of a class in a row are a run of them, of any length within the bounds. -/
theorem takes_run_iff {least : Nat} {most : Option Nat} :
    (times least most (char ok)).Takes ⟨lead, text, kept⟩ b ↔
      ∃ w rest, text = w ++ rest ∧ (∀ c ∈ w, ok c = true) ∧ least ≤ w.length ∧
        (∀ m ∈ most, w.length ≤ m) ∧ b = ⟨lead ++ w, rest, kept⟩ := by
  constructor
  · rintro ⟨n, hleast, hmost, hrepeats⟩
    obtain ⟨w, rest, htext, hw, rfl, hb⟩ := repeats_char_iff.mp hrepeats
    exact ⟨w, rest, htext, hw, hleast, hmost, hb⟩
  · rintro ⟨w, rest, htext, hw, hleast, hmost, hb⟩
    exact ⟨_, hleast, hmost, repeats_char_iff.mpr ⟨w, rest, htext, hw, rfl, hb⟩⟩

theorem takes_blanks_iff : (times 0 none blank).Takes ⟨lead, text, kept⟩ b ↔
    ∃ w rest, text = w ++ rest ∧ (∀ c ∈ w, isBlank c = true) ∧ b = ⟨lead ++ w, rest, kept⟩ := by
  rw [blank, takes_run_iff]
  simp

theorem foundIn_atStart_iff : (atStart p).FoundIn s ↔ ∃ lead body, s = lead ++ body ∧
    lead.length ≤ 3 ∧ (∀ c ∈ lead, isBlank c = true) ∧ ∃ b, p.Takes ⟨lead, body, []⟩ b := by
  constructor
  · rintro ⟨_, text, b, rfl, _, ⟨rfl, rfl⟩, m, hlead, hb⟩
    obtain ⟨lead, body, rfl, hblank, -, hthree, rfl⟩ := takes_run_iff.mp hlead
    exact ⟨lead, body, rfl, hthree 3 rfl, hblank, b, hb⟩
  · rintro ⟨lead, body, rfl, hthree, hblank, b, hb⟩
    refine ⟨[], lead ++ body, b, rfl, _, ⟨rfl, rfl⟩, _, takes_run_iff.mpr ?_, hb⟩
    exact ⟨lead, body, rfl, hblank, Nat.zero_le _, fun m hm => Option.some.inj hm ▸ hthree, rfl⟩

theorem foundIn_fence_iff : fence.FoundIn s ↔
    ['\x60', '\x60', '\x60'] <:+: s ∨ ['~', '~', '~'] <:+: s := by
  have hthree {c : Char} {before after : List Char} :
      (∃ b, (seq (oneOf [c]) (seq (oneOf [c]) (oneOf [c]))).Takes ⟨before, after, []⟩ b) ↔
        [c, c, c] <+: after := by
    simp only [Takes, oneOf, decide_eq_true_eq, List.mem_singleton]
    constructor
    · rintro ⟨_, _, ⟨_, _, rfl, rfl, rfl⟩, _, ⟨_, _, rfl, rfl, rfl⟩, _, rest, rfl, rfl, rfl⟩
      exact ⟨rest, rfl⟩
    · rintro ⟨rest, rfl⟩
      exact ⟨_, _, ⟨_, _, rfl, rfl, rfl⟩, _, ⟨_, _, rfl, rfl, rfl⟩, _, rest, rfl, rfl, rfl⟩
  have hsomewhere {w : List Char} :
      w <:+: s ↔ ∃ before after, s = before ++ after ∧ w <+: after := by
    constructor
    · rintro ⟨before, rest, rfl⟩
      exact ⟨before, w ++ rest, List.append_assoc .., w.prefix_append rest⟩
    · rintro ⟨before, _, rfl, rest, rfl⟩
      exact ⟨before, rest, List.append_assoc ..⟩
  rw [hsomewhere, hsomewhere]
  constructor
  · rintro ⟨before, after, b, hs, hb | hb⟩
    · exact .inl ⟨before, after, hs, hthree.mp ⟨b, hb⟩⟩
    · exact .inr ⟨before, after, hs, hthree.mp ⟨b, hb⟩⟩
  · rintro (⟨before, after, hs, hafter⟩ | ⟨before, after, hs, hafter⟩)
    · obtain ⟨b, hb⟩ := hthree.mpr hafter
      exact ⟨before, after, b, hs, .inl hb⟩
    · obtain ⟨b, hb⟩ := hthree.mpr hafter
      exact ⟨before, after, b, hs, .inr hb⟩

theorem exists_takes_heading_iff : (∃ b, heading.Takes ⟨lead, body, kept⟩ b) ↔ Heading body := by
  constructor
  · rintro ⟨b, m, hsigns, hnext⟩
    obtain ⟨signs, rest, rfl, hsign, hone, hsix, rfl⟩ := takes_run_iff.mp hsigns
    refine ⟨signs, rest, rfl, fun c hc => ?_, hone, hsix 6 rfl, ?_⟩
    · simpa using hsign c hc
    · rcases hnext with ⟨c, more, rfl, hc, -⟩ | ⟨rfl | rfl, -⟩
      · exact fun d hd => Option.some.inj hd ▸ hc
      · exact nofun
      · exact fun d hd => Option.some.inj hd ▸ rfl
  · rintro ⟨signs, rest, rfl, hsign, hone, hsix, hnext⟩
    have hsigns : (times 1 (some 6) (oneOf ['#'])).Takes ⟨lead, signs ++ rest, kept⟩
        ⟨lead ++ signs, rest, kept⟩ := by
      refine takes_run_iff.mpr ⟨signs, rest, rfl, fun c hc => ?_, hone, ?_, rfl⟩
      · simpa using hsign c hc
      · exact fun m hm => Option.some.inj hm ▸ hsix
    cases rest with
    | nil => exact ⟨_, _, hsigns, .inr ⟨.inl rfl, rfl⟩⟩
    | cons c rest => exact ⟨_, _, hsigns, .inl ⟨c, rest, rfl, hnext c rfl, rfl⟩⟩

theorem exists_takes_quotation_iff :
    (∃ b, quotation.Takes ⟨lead, body, kept⟩ b) ↔ Quotation body := by
  simp [quotation, Quotation, takes_oneOf_iff]

/-- A mark and white space after it. -/
theorem exists_takes_mark_iff : (∃ b, (seq (oneOf marks) blank).Takes ⟨lead, text, kept⟩ b) ↔
    ∃ mark c rest, text = mark :: c :: rest ∧ mark ∈ marks ∧ isBlank c = true := by
  constructor
  · rintro ⟨b, m, hmark, c, rest, hrest, hc, -⟩
    obtain ⟨mark, after, rfl, hknown, rfl⟩ := takes_oneOf_iff.mp hmark
    obtain rfl : after = c :: rest := hrest
    exact ⟨mark, c, rest, rfl, hknown, hc⟩
  · rintro ⟨mark, c, rest, rfl, hknown, hc⟩
    exact ⟨_, _, takes_oneOf_iff.mpr ⟨mark, c :: rest, rfl, hknown, rfl⟩, c, rest, rfl, hc, rfl⟩

theorem exists_takes_bullet_iff : (∃ b, bullet.Takes ⟨lead, body, kept⟩ b) ↔ Bullet body :=
  exists_takes_mark_iff

theorem exists_takes_numbered_iff :
    (∃ b, numbered.Takes ⟨lead, body, kept⟩ b) ↔ Numbered body := by
  constructor
  · rintro ⟨b, m, hdigits, hnext⟩
    obtain ⟨digits, rest, rfl, hall, hone, -, rfl⟩ := takes_run_iff.mp hdigits
    obtain ⟨mark, c, more, rfl, hmark, hc⟩ := exists_takes_mark_iff.mp ⟨b, hnext⟩
    exact ⟨digits, mark, c, more, rfl, List.length_pos_iff.mp hone, hall, hmark, hc⟩
  · rintro ⟨digits, mark, c, rest, rfl, hthere, hall, hmark, hc⟩
    obtain ⟨b, hb⟩ : ∃ b, (seq (oneOf ['.', ')']) blank).Takes
        ⟨lead ++ digits, mark :: c :: rest, kept⟩ b :=
      exists_takes_mark_iff.mpr ⟨mark, c, rest, rfl, hmark, hc⟩
    exact ⟨b, _, takes_run_iff.mpr
      ⟨digits, _, rfl, hall, List.length_pos_iff.mpr hthere, nofun, rfl⟩, hb⟩

/-! ### Thematic breaks -/

variable {mark : Char}

theorem takes_oneMore_iff : oneMore.Takes ⟨lead, text, kept⟩ b ↔
    ∃ w rest, text = w ++ (kept ++ rest) ∧ (∀ c ∈ w, isBlank c = true) ∧
      b = ⟨lead ++ w ++ kept, rest, kept⟩ := by
  constructor
  · rintro ⟨m, hw, rest, hrest, rfl⟩
    obtain ⟨w, after, rfl, hblank, rfl⟩ := takes_blanks_iff.mp hw
    obtain rfl : after = kept ++ rest := hrest
    exact ⟨w, rest, rfl, hblank, rfl⟩
  · rintro ⟨w, rest, rfl, hblank, rfl⟩
    exact ⟨_, takes_blanks_iff.mpr ⟨w, _, rfl, hblank, rfl⟩, rest, rfl, rfl⟩

/-- What the repetitions of a mark take is white space and so many marks. -/
theorem exists_of_repeats_oneMore (hmark : isBlank mark = false)
    (h : Repeats oneMore.Takes n ⟨lead, text, [mark]⟩ b) :
    ∃ w rest, text = w ++ rest ∧ (∀ c ∈ w, isBlank c = true ∨ c = mark) ∧ w.count mark = n ∧
      b = ⟨lead ++ w, rest, [mark]⟩ := by
  induction n generalizing lead text with
  | zero => exact ⟨[], text, rfl, nofun, rfl, by rw [List.append_nil]; exact h⟩
  | succ n ih =>
    obtain ⟨m, hone, hmore⟩ := h
    obtain ⟨w, _, rfl, hw, rfl⟩ := takes_oneMore_iff.mp hone
    obtain ⟨w', rest, rfl, hw', hcount, rfl⟩ := ih hmore
    have hnone : w.count mark = 0 := List.count_eq_zero.mpr fun hmem =>
      Bool.false_ne_true (hmark.symm.trans (hw mark hmem))
    refine ⟨w ++ ([mark] ++ w'), rest, by simp, ?_, ?_, by simp⟩
    · intro c hc
      rcases List.mem_append.mp hc with hc | hc
      · exact .inl (hw c hc)
      · rcases List.mem_cons.mp hc with rfl | hc
        · exact .inr rfl
        · exact hw' c hc
    · simp [hnone, hcount]

/-- In a text of white space and one mark, as many repetitions as there are marks leave nothing but
white space. -/
theorem repeats_oneMore (lead : List Char) (honly : ∀ c ∈ text, isBlank c = true ∨ c = mark)
    (hcount : text.count mark = n) : ∃ w rest, (∀ c ∈ rest, isBlank c = true) ∧
      Repeats oneMore.Takes n ⟨lead, text, [mark]⟩ ⟨lead ++ w, rest, [mark]⟩ := by
  induction n generalizing lead text with
  | zero =>
    have hnot : mark ∉ text := List.count_eq_zero.mp hcount
    refine ⟨[], text, fun c hc => ?_, by rw [List.append_nil]; rfl⟩
    rcases honly c hc with hblank | rfl
    · exact hblank
    · exact absurd hc hnot
  | succ n ih =>
    have hmem : mark ∈ text := List.count_pos_iff.mp (by omega)
    obtain ⟨w, after, rfl, hw⟩ := List.eq_append_cons_of_mem hmem
    have hblank : ∀ c ∈ w, isBlank c = true := by
      intro c hc
      rcases honly c (List.mem_append_left _ hc) with hc' | rfl
      · exact hc'
      · exact absurd hc hw
    have hafter : after.count mark = n := by
      rw [List.count_append, List.count_eq_zero.mpr hw, List.count_cons_self] at hcount
      omega
    obtain ⟨w', rest, hrest, hmore⟩ := ih (lead ++ w ++ [mark])
      (fun c hc => honly c (List.mem_append_right _ (List.mem_cons_of_mem _ hc))) hafter
    refine ⟨w ++ [mark] ++ w', rest, hrest, _,
      takes_oneMore_iff.mpr ⟨w, after, rfl, hblank, rfl⟩, ?_⟩
    rwa [← List.append_assoc, ← List.append_assoc]

theorem exists_takes_thematicBreak_iff : (∃ b, thematicBreak.Takes ⟨lead, body, kept⟩ b) ↔
    ThematicBreak body ∧ ∀ c ∈ body.head?, isBlank c = false := by
  constructor
  · rintro ⟨b, _, ⟨m, first, hfirst, hkept, rfl⟩, _, ⟨n, htwo, -, hmore⟩, _, hrest, hend⟩
    obtain ⟨mark, rest, rfl, hknown, rfl⟩ := takes_oneOf_iff.mp hfirst
    obtain rfl : [mark] = first := List.append_cancel_left hkept
    have hmark := not_isBlank_of_mark hknown
    obtain ⟨w, after, rfl, hw, rfl, rfl⟩ := exists_of_repeats_oneMore hmark hmore
    obtain ⟨w', last, rfl, hw', rfl⟩ := takes_blanks_iff.mp hrest
    have hlast : ∀ c ∈ last, isBlank c = true := by
      rcases hend.1 with rfl | rfl
      · exact nofun
      · exact List.forall_mem_singleton.mpr rfl
    refine ⟨⟨mark, hknown, fun c hc => ?_, ?_⟩, fun c hc => Option.some.inj hc ▸ hmark⟩
    · simp only [List.mem_cons, List.mem_append] at hc
      rcases hc with rfl | hc | hc | hc
      · exact .inr rfl
      · exact hw c hc
      · exact .inl (hw' c hc)
      · exact .inl (hlast c hc)
    · rw [List.count_cons_self, List.count_append]
      omega
  · rintro ⟨⟨mark, hknown, honly, hthree⟩, hhead⟩
    cases body with
    | nil => cases hthree
    | cons c rest =>
      have hnot : isBlank c = false := hhead c rfl
      obtain ⟨hc, hrest⟩ := List.forall_mem_cons.mp honly
      obtain rfl : c = mark := hc.resolve_left fun h => Bool.false_ne_true (hnot.symm.trans h)
      rw [List.count_cons_self] at hthree
      obtain ⟨w, after, hafter, hmore⟩ := repeats_oneMore (lead ++ [c]) hrest rfl
      exact ⟨_, _, ⟨_, [c], takes_oneOf_iff.mpr ⟨c, rest, rfl, hknown, rfl⟩, rfl, rfl⟩, _,
        ⟨_, Nat.le_of_succ_le_succ hthree, nofun, hmore⟩, _,
        takes_blanks_iff.mpr ⟨after, [], (List.append_nil _).symm, hafter, rfl⟩, .inl rfl, rfl⟩

/-! ### All patterns -/

theorem not_isBlank_of_isDigit (h : isDigit c = true) : isBlank c = false := by
  have htables : ∀ base ∈ digitZeros, ∀ k < 10, inRanges blankRanges (base + k) = false := by
    decide +kernel
  rw [isDigit, digit?, List.isSome_findSome?, List.any_eq_true] at h
  obtain ⟨base, hbase, hc⟩ := h
  have hrange : base ≤ c.toNat ∧ c.toNat < base + 10 := by
    by_contra hno
    rw [if_neg hno] at hc
    cases hc
  obtain ⟨k, hk⟩ := Nat.exists_eq_add_of_le hrange.1
  rw [isBlank, hk]
  exact htables base hbase k (by omega)

/-- The patterns for blocks match where a block begins and no white space comes first. -/
theorem exists_takes_blocks_iff : (∃ p ∈ blocks, ∃ b, p.Takes ⟨lead, body, kept⟩ b) ↔
    Block body ∧ ∀ c ∈ body.head?, isBlank c = false := by
  have hheading : Heading body → ∀ c ∈ body.head?, isBlank c = false := by
    rintro ⟨signs, rest, rfl, hsign, hone, -⟩
    cases signs with
    | nil => cases hone
    | cons d signs =>
      obtain rfl := hsign d List.mem_cons_self
      exact fun c hc => Option.some.inj hc ▸ rfl
  have hquotation : Quotation body → ∀ c ∈ body.head?, isBlank c = false := by
    rintro ⟨rest, rfl⟩
    exact fun c hc => Option.some.inj hc ▸ rfl
  have hbullet : Bullet body → ∀ c ∈ body.head?, isBlank c = false := by
    rintro ⟨mark, d, rest, rfl, hmark, -⟩
    simp only [List.mem_cons, List.not_mem_nil, or_false] at hmark
    rcases hmark with rfl | rfl | rfl <;> exact fun c hc => Option.some.inj hc ▸ rfl
  have hnumbered : Numbered body → ∀ c ∈ body.head?, isBlank c = false := by
    rintro ⟨digits, mark, d, rest, rfl, hthere, hall, -⟩
    cases digits with
    | nil => exact absurd rfl hthere
    | cons first digits =>
      exact fun c hc => Option.some.inj hc ▸ not_isBlank_of_isDigit (hall _ List.mem_cons_self)
  simp only [blocks, List.exists_mem_cons_iff, List.not_mem_nil, false_and, exists_false, or_false,
    exists_takes_heading_iff, exists_takes_quotation_iff, exists_takes_bullet_iff,
    exists_takes_numbered_iff, exists_takes_thematicBreak_iff]
  rw [Block, or_and_right, or_and_right, or_and_right, or_and_right, and_iff_left_of_imp hheading,
    and_iff_left_of_imp hquotation, and_iff_left_of_imp hbullet, and_iff_left_of_imp hnumbered]

theorem exists_foundIn_markup_iff : (∃ p ∈ markup, p.FoundIn s) ↔
    ['\x60', '\x60', '\x60'] <:+: s ∨ ['~', '~', '~'] <:+: s ∨ Opens s := by
  have hopens : (∃ p ∈ blocks, (atStart p).FoundIn s) ↔ Opens s := by
    simp only [foundIn_atStart_iff]
    constructor
    · rintro ⟨p, hp, lead, body, hs, hthree, hlead, hb⟩
      obtain ⟨hblock, hbody⟩ := exists_takes_blocks_iff.mp ⟨p, hp, hb⟩
      exact ⟨lead, body, hs, hthree, hlead, hbody, hblock⟩
    · rintro ⟨lead, body, hs, hthree, hlead, hbody, hblock⟩
      obtain ⟨p, hp, hb⟩ := exists_takes_blocks_iff.mpr ⟨hblock, hbody⟩
      exact ⟨p, hp, lead, body, hs, hthree, hlead, hb⟩
  rw [markup, List.exists_mem_cons_iff, foundIn_fence_iff, or_assoc, ← hopens]
  simp only [List.mem_map, exists_exists_and_eq_and]

end Pattern

/-- **Block markup is recognised exactly.**  It is found in a text exactly if the text is of the
kind that block markup is, and that is exactly if a line ends in it or one of the patterns matches
somewhere. -/
theorem markup_recognised (t : String) :
    (hasBlockMarkup t = true ↔ IsMarkup t.toList) ∧
    (hasBlockMarkup t = true ↔
      '\n' ∈ t.toList ∨ '\r' ∈ t.toList ∨ ∃ p ∈ Pattern.markup, p.FoundIn t.toList) := by
  rw [hasBlockMarkup_iff, Pattern.exists_foundIn_markup_iff]
  exact ⟨Iff.rfl, Iff.rfl⟩

end CheckRegistry.Text
