import Mathlib.Data.List.TakeWhile
import CheckRegistry.Example.Fixture
import CheckRegistry.Proofs.Lists.Search

/-! # Which checks can share a fixture

Whether a file is a fixture of a check is decided from left to right, each part taken as soon as it
is there.  `Matches` says what the parts are and leaves open where they end; `outcome?_eq_some_iff`
shows that nothing is lost by not looking back.

A file with two checks has two such readings.  The name of the longer check ends inside the part
that comes after the outcome for the shorter one.  There an outcome has to begin once more, with a
capital `P` or `N`, and neither is in `Case`, in a number or in an outcome past its first letter.
So it begins inside an extension (`Extensions.split`), and a period comes before it
(`shared_exactly`).  Checks without a period in their names never share a fixture.
-/

namespace CheckRegistry

namespace Fixture

variable {s tail : List Char} {check file : String} {o p : Outcome}

/-! ## The parts of a name -/

/-- How a fixture spells an outcome. -/
def word : Outcome → List Char
  | .positive => "Positive".toList
  | .negative => "Negative".toList

/-- What tells the cases of one outcome apart, if anything does. -/
inductive CaseWord : List Char → Prop
  | absent : CaseWord []
  | one : CaseWord "Case".toList
  | many : CaseWord "Cases".toList

/-- Digits, if there are any, with or without an underscore before them. -/
inductive Numbering : List Char → Prop
  | absent : Numbering []
  | plain {digits : List Char} (there : digits ≠ []) (all : ∀ c ∈ digits, Text.isDigit c = true) :
      Numbering digits
  | underscored {digits : List Char} (there : digits ≠ [])
      (all : ∀ c ∈ digits, Text.isDigit c = true) : Numbering ('_' :: digits)

/-- Any number of extensions, each a period and letters or digits. -/
inductive Extensions : List Char → Prop
  | nil : Extensions []
  | cons {ext rest : List Char} (there : ext ≠ []) (all : ∀ c ∈ ext, c.isAlphanum = true)
      (others : Extensions rest) : Extensions ('.' :: (ext ++ rest))

/-- A number and extensions, either of which may be absent. -/
def Numbered (s : List Char) : Prop := ∃ n e, Numbering n ∧ Extensions e ∧ s = n ++ e

/-- What comes after the outcome: a word for cases, a number, extensions. -/
inductive Tail : List Char → Prop
  | mk {w n e : List Char} (cases : CaseWord w) (number : Numbering n) (extensions : Extensions e) :
      Tail (w ++ (n ++ e))

/-- The name of a file reads as that of a fixture with some outcome: the name of the check, the
outcome, and what may come after it. -/
def Matches (check : String) (o : Outcome) (file : String) : Prop :=
  ∃ tail, Tail tail ∧ file.toList = check.toList ++ (word o ++ tail)

/-- What a check's name is followed by in that of another for them to share a fixture: what makes a
fixture of it, and the beginning of one more extension. -/
inductive Bridge : List Char → Prop
  | mk {t ext : List Char} (o : Outcome) (tail : Tail t) (all : ∀ c ∈ ext, c.isAlphanum = true) :
      Bridge (word o ++ (t ++ '.' :: ext))

/-! ## Reading from left to right -/

theorem strip?_eq_some_iff {start rest : List Char} :
    strip? start s = some rest ↔ s = start ++ rest := by
  rw [strip?, Option.ite_none_right_eq_some, List.isPrefixOf_iff_prefix, Option.some.injEq]
  constructor
  · rintro ⟨⟨rest', rfl⟩, rfl⟩
    rw [List.drop_left]
  · rintro rfl
    exact ⟨List.prefix_append _ _, List.drop_left⟩

theorem strip?_eq_none_iff {start : List Char} :
    strip? start s = none ↔ ∀ rest, s ≠ start ++ rest := by
  rw [Option.eq_none_iff_forall_ne_some]
  exact forall_congr' fun rest => not_congr strip?_eq_some_iff

/-- Extensions are read letter by letter: first what is left of the current one, of which something
has to be left if its period came just before. -/
theorem isExtensions_iff {fresh : Bool} : isExtensions fresh s = true ↔
    ∃ ext rest, s = ext ++ rest ∧ (fresh = true → ext ≠ []) ∧ (∀ c ∈ ext, c.isAlphanum = true) ∧
      Extensions rest := by
  induction s generalizing fresh with
  | nil =>
    constructor
    · intro h
      refine ⟨[], [], rfl, fun hfresh => ?_, fun c hc => absurd hc List.not_mem_nil, .nil⟩
      simp [isExtensions, hfresh] at h
    · rintro ⟨ext, rest, hnil, hfresh, -, -⟩
      obtain ⟨rfl, rfl⟩ := List.append_eq_nil_iff.mp hnil.symm
      cases fresh with
      | true => exact absurd rfl (hfresh rfl)
      | false => rfl
  | cons c s ih =>
    rw [isExtensions]
    by_cases hperiod : c = '.'
    · subst hperiod
      rw [if_pos rfl, Bool.and_eq_true, ih]
      constructor
      · rintro ⟨hold, ext, rest, rfl, hthere, hall, hrest⟩
        refine ⟨[], _, rfl, fun hfresh => ?_, fun c hc => absurd hc List.not_mem_nil,
          .cons (hthere rfl) hall hrest⟩
        simp [hfresh] at hold
      · rintro ⟨ext, rest, hs, hfresh, hall, hrest⟩
        cases ext with
        | cons d ext =>
          -- a period is no letter of an extension
          obtain ⟨rfl, -⟩ := List.cons.inj hs
          exact absurd (hall '.' List.mem_cons_self) (by decide)
        | nil =>
          obtain rfl : '.' :: s = rest := hs
          cases hrest with
          | cons hthere hall' hrest =>
            refine ⟨?_, _, _, rfl, fun _ => hthere, hall', hrest⟩
            cases fresh with
            | true => exact absurd rfl (hfresh rfl)
            | false => rfl
    · rw [if_neg hperiod, Bool.and_eq_true, ih]
      constructor
      · rintro ⟨hc, ext, rest, rfl, -, hall, hrest⟩
        exact ⟨c :: ext, rest, rfl, fun _ => List.cons_ne_nil _ _,
          List.forall_mem_cons.mpr ⟨hc, hall⟩, hrest⟩
      · rintro ⟨ext, rest, hs, -, hall, hrest⟩
        cases ext with
        | nil =>
          obtain rfl : c :: s = rest := hs
          cases hrest with
          | cons => exact absurd rfl hperiod
        | cons d ext =>
          obtain ⟨rfl, rfl⟩ := List.cons.inj hs
          obtain ⟨hc, hext⟩ := List.forall_mem_cons.mp hall
          exact ⟨hc, ext, rest, rfl, fun h => (Bool.false_ne_true h).elim, hext, hrest⟩

theorem isSuffixes_iff : isSuffixes s = true ↔ Extensions s := by
  cases s with
  | nil => exact iff_of_true rfl .nil
  | cons c s =>
    rw [isSuffixes, Bool.and_eq_true, beq_iff_eq, isExtensions_iff]
    constructor
    · rintro ⟨rfl, ext, rest, rfl, hthere, hall, hrest⟩
      exact .cons (hthere rfl) hall hrest
    · intro h
      cases h with
      | cons hthere hall hrest => exact ⟨rfl, _, _, rfl, fun _ => hthere, hall, hrest⟩

/-- No extension begins with a digit, so digits end where extensions begin. -/
theorem Extensions.span_digits {e : List Char} (h : Extensions e) :
    e.takeWhile Text.isDigit = [] ∧ e.dropWhile Text.isDigit = e := by
  cases h with
  | nil => exact ⟨rfl, rfl⟩
  | cons _ _ _ =>
    have hperiod : ¬ Text.isDigit '.' = true := by decide
    exact ⟨List.takeWhile_cons_of_neg hperiod, List.dropWhile_cons_of_neg hperiod⟩

theorem span_digits_append {digits e : List Char} (hall : ∀ c ∈ digits, Text.isDigit c = true)
    (he : Extensions e) : (digits ++ e).takeWhile Text.isDigit = digits ∧
      (digits ++ e).dropWhile Text.isDigit = e := by
  rw [List.takeWhile_append_of_pos hall, List.dropWhile_append_of_pos hall, he.span_digits.1,
    he.span_digits.2, List.append_nil]
  exact ⟨rfl, rfl⟩

/-- Whether a text is a number and extensions. -/
def isNumbered : List Char → Bool
  | '_' :: rest => (rest.takeWhile Text.isDigit) != [] && isSuffixes (rest.dropWhile Text.isDigit)
  | s => isSuffixes (s.dropWhile Text.isDigit)

theorem isNumbered_iff : isNumbered s = true ↔ Numbered s := by
  unfold isNumbered
  split
  next rest =>
    rw [Bool.and_eq_true, bne_iff_ne, isSuffixes_iff]
    constructor
    · rintro ⟨hthere, hext⟩
      exact ⟨_, _, .underscored hthere fun c hc => List.mem_takeWhile_imp hc, hext, by
        rw [List.cons_append, List.takeWhile_append_dropWhile]⟩
    · rintro ⟨n, e, hn, he, hs⟩
      cases hn with
      | absent =>
        obtain rfl : '_' :: rest = e := hs
        cases he
      | plain there all =>
        cases n with
        | nil => exact absurd rfl there
        | cons d digits =>
          obtain ⟨rfl, -⟩ := List.cons.inj hs
          exact absurd (all '_' List.mem_cons_self) (by decide)
      | underscored there all =>
        obtain rfl : rest = _ ++ e := (List.cons.inj hs).2
        rw [(span_digits_append all he).1, (span_digits_append all he).2]
        exact ⟨there, he⟩
  next hno =>
    rw [isSuffixes_iff]
    constructor
    · intro hext
      refine ⟨_, _, ?_, hext, List.takeWhile_append_dropWhile.symm⟩
      by_cases hdigits : s.takeWhile Text.isDigit = []
      · rw [hdigits]
        exact .absent
      · exact .plain hdigits fun c hc => List.mem_takeWhile_imp hc
    · rintro ⟨n, e, hn, he, rfl⟩
      cases hn with
      | absent => rwa [List.nil_append, he.span_digits.2]
      | plain there all => rwa [(span_digits_append all he).2]
      | underscored there all => exact absurd rfl (hno _)

/-- What a number or an extension can begin with. -/
theorem Numbered.head {c : Char} (h : Numbered (c :: s)) :
    c = '_' ∨ Text.isDigit c = true ∨ c = '.' := by
  obtain ⟨n, e, hn, he, hs⟩ := h
  cases hn with
  | absent =>
    cases he with
    | nil => cases hs
    | cons _ _ _ => exact .inr (.inr (List.cons.inj hs).1)
  | plain there all =>
    cases n with
    | nil => exact absurd rfl there
    | cons d digits =>
      obtain ⟨rfl, -⟩ := List.cons.inj hs
      exact .inr (.inl (all _ List.mem_cons_self))
  | underscored _ _ => exact .inl (List.cons.inj hs).1

/-- A text without the word for cases that it may begin with. -/
def afterCases (s : List Char) : List Char :=
  match strip? ['C', 'a', 's', 'e'] s with
  | some rest => stripOptional ['s'] rest
  | none => s

theorem isTail_eq (s : List Char) : isTail s = isNumbered (afterCases s) := rfl

theorem afterCases_of_none (h : strip? ['C', 'a', 's', 'e'] s = none) : afterCases s = s := by
  rw [afterCases, h]

theorem afterCases_of_some {rest : List Char} (h : strip? ['C', 'a', 's', 'e'] s = some rest) :
    afterCases s = (strip? ['s'] rest).getD rest := by
  rw [afterCases, h]
  rfl

theorem exists_caseWord (s : List Char) : ∃ w, CaseWord w ∧ s = w ++ afterCases s := by
  cases hcase : strip? ['C', 'a', 's', 'e'] s with
  | none => exact ⟨[], .absent, by rw [afterCases_of_none hcase, List.nil_append]⟩
  | some rest =>
    have hs := strip?_eq_some_iff.mp hcase
    rw [afterCases_of_some hcase]
    cases hmany : strip? ['s'] rest with
    | none => exact ⟨_, .one, hs⟩
    | some rest' =>
      obtain rfl := strip?_eq_some_iff.mp hmany
      exact ⟨_, .many, hs⟩

/-- Neither a number nor an extension is taken for a part of the word before it. -/
theorem afterCases_append {w : List Char} (hw : CaseWord w) (hs : Numbered s) :
    afterCases (w ++ s) = s := by
  have hno : ∀ {c : Char} {rest : List Char}, s = c :: rest → c ≠ 'C' ∧ c ≠ 's' := by
    rintro c rest rfl
    rcases hs.head with rfl | hdigit | rfl
    · decide
    · constructor
      · rintro rfl
        exact absurd hdigit (by decide)
      · rintro rfl
        exact absurd hdigit (by decide)
    · decide
  cases hw with
  | absent =>
    have hcase : strip? ['C', 'a', 's', 'e'] s = none :=
      strip?_eq_none_iff.mpr fun rest h => (hno h).1 rfl
    exact afterCases_of_none hcase
  | one =>
    have hcase : strip? ['C', 'a', 's', 'e'] ("Case".toList ++ s) = some s :=
      strip?_eq_some_iff.mpr rfl
    have hmany : strip? ['s'] s = none := strip?_eq_none_iff.mpr fun rest h => (hno h).2 rfl
    rw [afterCases_of_some hcase, hmany, Option.getD_none]
  | many =>
    have hcase : strip? ['C', 'a', 's', 'e'] ("Cases".toList ++ s) = some ('s' :: s) :=
      strip?_eq_some_iff.mpr rfl
    have hmany : strip? ['s'] ('s' :: s) = some s := strip?_eq_some_iff.mpr rfl
    rw [afterCases_of_some hcase, hmany, Option.getD_some]

theorem isTail_iff : isTail s = true ↔ Tail s := by
  rw [isTail_eq, isNumbered_iff]
  constructor
  · rintro ⟨n, e, hn, he, hs⟩
    obtain ⟨w, hw, hword⟩ := exists_caseWord s
    rw [hword, hs]
    exact .mk hw hn he
  · rintro ⟨hw, hn, he⟩
    have hnumbered : Numbered (_ ++ _) := ⟨_, _, hn, he, rfl⟩
    rwa [afterCases_append hw hnumbered]

/-- **Nothing is lost by reading from left to right.**  The outcome that a file has as a fixture of
a check is the one with which its name matches. -/
theorem outcome?_eq_some_iff : outcome? check file = some o ↔ Matches check o file := by
  have hclash : ∀ x y : List Char, "Positive".toList ++ x ≠ "Negative".toList ++ y :=
    fun x y h => absurd (List.cons.inj h).1 (by decide)
  unfold outcome? Matches
  constructor
  · intro h
    split at h
    · cases h
    next s hs =>
      rw [strip?_eq_some_iff.mp hs]
      split at h
      next tail hpositive =>
        obtain ⟨htail, ho⟩ := Option.ite_none_right_eq_some.mp h
        obtain rfl := Option.some.inj ho
        exact ⟨tail, isTail_iff.mp htail, by rw [strip?_eq_some_iff.mp hpositive]; rfl⟩
      next tail _ hnegative =>
        obtain ⟨htail, ho⟩ := Option.ite_none_right_eq_some.mp h
        obtain rfl := Option.some.inj ho
        exact ⟨tail, isTail_iff.mp htail, by rw [strip?_eq_some_iff.mp hnegative]; rfl⟩
      · cases h
  · rintro ⟨tail, htail, hfile⟩
    rw [strip?_eq_some_iff.mpr hfile]
    cases o with
    | positive =>
      have hpositive : strip? "Positive".toList (word .positive ++ tail) = some tail :=
        strip?_eq_some_iff.mpr rfl
      simp only [hpositive, isTail_iff.mpr htail, if_true]
    | negative =>
      have hpositive : strip? "Positive".toList (word .negative ++ tail) = none :=
        strip?_eq_none_iff.mpr fun rest h => hclash _ _ h.symm
      have hnegative : strip? "Negative".toList (word .negative ++ tail) = some tail :=
        strip?_eq_some_iff.mpr rfl
      simp only [hpositive, hnegative, isTail_iff.mpr htail, if_true]

/-! ## Two readings of one name -/

/-- What stands inside extensions, but for a period, stands in the last of those that have begun. -/
theorem Extensions.split {e y z : List Char} {c : Char} (he : Extensions e)
    (h : e = y ++ c :: z) (hc : c ≠ '.') :
    ∃ e' ext, Extensions e' ∧ (∀ d ∈ ext, d.isAlphanum = true) ∧ y = e' ++ '.' :: ext := by
  induction he generalizing y with
  | nil => cases y <;> cases h
  | @cons ext rest hthere hall _ ih =>
    cases y with
    | nil => exact absurd (List.cons.inj h).1.symm hc
    | cons d y =>
      obtain ⟨rfl, htail⟩ := List.cons.inj h
      rcases List.append_eq_append_iff.mp htail with ⟨y', rfl, hrest⟩ | ⟨more, rfl, -⟩
      · obtain ⟨e', ext', he', hall', rfl⟩ := ih hrest
        exact ⟨_, ext', .cons hthere hall he', hall', by
          rw [List.cons_append, List.append_assoc]⟩
      · exact ⟨[], y, .nil, fun d hd => hall d (List.mem_append_left more hd), rfl⟩

theorem Extensions.append {e ext : List Char} (he : Extensions e) (hthere : ext ≠ [])
    (hall : ∀ c ∈ ext, c.isAlphanum = true) : Extensions (e ++ '.' :: ext) := by
  induction he with
  | nil =>
    have hlast := Extensions.cons hthere hall .nil
    rwa [List.append_nil] at hlast
  | cons hthere' hall' _ ih =>
    rw [List.cons_append, List.append_assoc]
    exact .cons hthere' hall' ih

/-- The letter that an outcome begins with. -/
def initial : Outcome → Char
  | .positive => 'P'
  | .negative => 'N'

theorem exists_word_eq_cons (o : Outcome) :
    ∃ rest, word o = initial o :: rest ∧ ∀ p, initial p ∉ rest := by
  cases o with
  | positive => exact ⟨_, rfl, fun p => by cases p <;> decide⟩
  | negative => exact ⟨_, rfl, fun p => by cases p <;> decide⟩

theorem initial_ne_period (o : Outcome) : initial o ≠ '.' := by cases o <;> decide

theorem CaseWord.initial_not_mem {w : List Char} (hw : CaseWord w) (o : Outcome) :
    initial o ∉ w := by
  cases hw <;> cases o <;> decide

theorem Numbering.initial_not_mem {n : List Char} (hn : Numbering n) (o : Outcome) :
    initial o ∉ n := by
  have hdigit : Text.isDigit (initial o) = false := by cases o <;> decide
  have hunderscore : initial o ≠ '_' := by cases o <;> decide
  cases hn with
  | absent => exact List.not_mem_nil
  | plain _ all => exact fun h => Bool.false_ne_true (hdigit.symm.trans (all _ h))
  | underscored _ all =>
    rw [List.mem_cons, not_or]
    exact ⟨hunderscore, fun h => Bool.false_ne_true (hdigit.symm.trans (all _ h))⟩

/-- In what comes after an outcome, another can begin only inside an extension. -/
theorem Tail.split {t y z : List Char} (ht : Tail t) (h : t = y ++ initial o :: z) :
    ∃ t' ext, Tail t' ∧ (∀ c ∈ ext, c.isAlphanum = true) ∧ y = t' ++ '.' :: ext := by
  obtain @⟨w, n, e, hw, hn, he⟩ := ht
  obtain ⟨y₁, rfl, h₁⟩ := Lists.exists_of_append_eq h (hw.initial_not_mem o)
  obtain ⟨y₂, rfl, h₂⟩ := Lists.exists_of_append_eq h₁ (hn.initial_not_mem o)
  obtain ⟨e', ext, he', hall, rfl⟩ := he.split h₂ (initial_ne_period o)
  exact ⟨_, ext, .mk hw hn he', hall, by rw [List.append_assoc, List.append_assoc]⟩

theorem Tail.append {t ext : List Char} (ht : Tail t) (hthere : ext ≠ [])
    (hall : ∀ c ∈ ext, c.isAlphanum = true) : Tail (t ++ '.' :: ext) := by
  obtain ⟨hw, hn, he⟩ := ht
  rw [List.append_assoc, List.append_assoc]
  exact .mk hw hn (he.append hthere hall)

theorem tail_nil : Tail [] := .mk .absent .absent .nil

/-- Past the name of the shorter check, a name with two readings is a bridge up to where the outcome
for the longer check begins. -/
theorem bridge_of_append_eq {x t u : List Char} (hx : x ≠ []) (ht : Tail t)
    (h : word o ++ t = x ++ (word p ++ u)) : Bridge x := by
  obtain ⟨rest, hword, hrest⟩ := exists_word_eq_cons o
  obtain ⟨prest, hpword, -⟩ := exists_word_eq_cons p
  cases x with
  | nil => exact absurd rfl hx
  | cons c x =>
    rw [hword, hpword] at h
    obtain ⟨rfl, htail⟩ := List.cons.inj h
    obtain ⟨y, rfl, hagain⟩ := Lists.exists_of_append_eq htail (hrest p)
    obtain ⟨t', ext, ht', hall, rfl⟩ := ht.split hagain
    have hbridge := Bridge.mk o ht' hall
    rwa [hword] at hbridge

/-- Two checks share a fixture exactly if the longer name goes on from the other with a bridge. -/
theorem shared_iff {a b : String} (hne : a ≠ b) (hlen : a.length ≤ b.length) :
    (∃ file o p, Matches a o file ∧ Matches b p file) ↔
      ∃ x, Bridge x ∧ b.toList = a.toList ++ x := by
  constructor
  · rintro ⟨file, o, p, ⟨t, ht, hfile⟩, u, hu, hfile'⟩
    rcases List.append_eq_append_iff.mp (hfile.symm.trans hfile') with ⟨x, hb, h⟩ | ⟨x, ha, -⟩
    · refine ⟨x, bridge_of_append_eq (fun hx => hne ?_) ht h, hb⟩
      rw [hx, List.append_nil] at hb
      exact (String.toList_inj.mp hb).symm
    · -- the name that is not longer begins with the other, so it is that
      have hnil : x = [] := by
        rw [← String.length_toList, ← String.length_toList, ha, List.length_append] at hlen
        exact List.length_eq_zero_iff.mp (by omega)
      rw [hnil, List.append_nil] at ha
      exact absurd (String.toList_inj.mp ha) hne
  · rintro ⟨_, @⟨t, ext, o, ht, hall⟩, hb⟩
    refine ⟨String.ofList (b.toList ++ word .positive), o, .positive,
      ⟨t ++ '.' :: (ext ++ word .positive), ?_, ?_⟩, [], tail_nil, ?_⟩
    · refine ht.append (fun h => ?_) fun c hc => ?_
      · cases (List.append_eq_nil_iff.mp h).2
      · rcases List.mem_append.mp hc with hc | hc
        · exact hall c hc
        · have hletters : (word .positive).all Char.isAlphanum = true := rfl
          exact List.all_eq_true.mp hletters c hc
    · rw [String.toList_ofList, hb]
      simp only [List.append_assoc, List.cons_append]
    · rw [String.toList_ofList, List.append_nil]

theorem Bridge.period_mem {x : List Char} (h : Bridge x) : '.' ∈ x := by
  cases h with
  | mk _ _ _ => exact List.mem_append_right _ (List.mem_append_right _ List.mem_cons_self)

theorem not_shared_of_le {a b : String} (hne : a ≠ b) (hlen : a.length ≤ b.length)
    (hb : '.' ∉ b.toList) : ¬ ∃ file o p, Matches a o file ∧ Matches b p file := by
  intro hshared
  obtain ⟨x, hx, hbx⟩ := (shared_iff hne hlen).mp hshared
  exact hb (hbx ▸ List.mem_append_right _ hx.period_mem)

/-- Without a period in a name, there is no extension for the other name to end in. -/
theorem not_shared {a b : String} (hne : a ≠ b) (ha : '.' ∉ a.toList) (hb : '.' ∉ b.toList) :
    ¬ ∃ file o p, Matches a o file ∧ Matches b p file := by
  rcases Nat.le_total a.length b.length with hlen | hlen
  · exact not_shared_of_le hne hlen hb
  · rintro ⟨file, o, p, hfirst, hsecond⟩
    exact not_shared_of_le hne.symm hlen ha ⟨file, p, o, hsecond, hfirst⟩

theorem matches_of_mem_find {t : FileTree} {root : Place} {suffixes : Option (List String)}
    {f : Found} (h : f ∈ find t root suffixes check) :
    Matches check f.outcome (f.place.getLast?.getD "") := by
  obtain ⟨⟨place, bytes⟩, -, hf⟩ := List.mem_filterMap.mp h
  dsimp only at hf
  split at hf
  · cases hf
  next o ho =>
    obtain ⟨-, hfound⟩ := Option.ite_none_right_eq_some.mp hf
    obtain rfl := Option.some.inj hfound
    exact outcome?_eq_some_iff.mp ho

/-- **Exactly which checks can share a fixture.**  A file is a fixture of a check, with some
outcome, exactly if its name matches.  The names of two checks both match a file exactly if the one
that is not shorter goes on from the other as a fixture of it does and ends in an extension.  So no
fixture found is one of two checks without a period in their names, and none has two outcomes. -/
theorem shared_exactly :
    (∀ check file o, outcome? check file = some o ↔ Matches check o file) ∧
    (∀ a b : String, a ≠ b → a.length ≤ b.length →
      ((∃ file o p, Matches a o file ∧ Matches b p file) ↔
        ∃ x, Bridge x ∧ b.toList = a.toList ++ x)) ∧
    (∀ (t : FileTree) (root : Place) (suffixes : Option (List String)) (a b : String),
      a ≠ b → '.' ∉ a.toList → '.' ∉ b.toList →
        ∀ f ∈ find t root suffixes a, ∀ g ∈ find t root suffixes b, f.place ≠ g.place) ∧
    ∀ check file, ¬ (Matches check .positive file ∧ Matches check .negative file) := by
  refine ⟨fun _ _ _ => outcome?_eq_some_iff, fun a b hne hlen => shared_iff hne hlen, ?_, ?_⟩
  · intro t root suffixes a b hne ha hb f hf g hg hplace
    have hsecond := matches_of_mem_find hg
    rw [← hplace] at hsecond
    exact not_shared hne ha hb ⟨_, _, _, matches_of_mem_find hf, hsecond⟩
  · rintro check file ⟨hpositive, hnegative⟩
    have hboth := (outcome?_eq_some_iff.mpr hpositive).symm.trans
      (outcome?_eq_some_iff.mpr hnegative)
    cases hboth

/-- A name with an extension in which a fixture of the other check goes on. -/
theorem shared_of_extension :
    ∃ file o p, Matches "Foo" o file ∧ Matches "FooPositive.c" p file := by
  have hletter : 'c'.isAlphanum = true := rfl
  exact (shared_exactly.2.1 "Foo" "FooPositive.c" (by decide) (by decide)).mpr
    ⟨"Positive.c".toList, .mk .positive tail_nil (List.forall_mem_singleton.mpr hletter), rfl⟩

end Fixture

end CheckRegistry
