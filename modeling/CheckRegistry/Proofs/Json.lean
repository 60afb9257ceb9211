import Mathlib.Algebra.GroupWithZero.Nat
import Mathlib.Data.List.DropRight
import CheckRegistry.Json

/-! # Reading JSON back

`Json.parse?` reads the JSON that has no numbers: white space may stand between any two parts, a
string may have any escape, and a code point above the sixteen bits of an escape is given by two
surrogates.  It is no inverse of the printer by construction; that it undoes the printer
(`parse?_render`) is proved layer by layer.

A string is read as units first, which are code points or surrogates, and these are joined to
characters afterwards.  Each character is written as its own units whatever stands next to it
(`readUnits_charText`), and its units are joined to it whatever follows (`joinUnits_units`).

Around the strings the reader follows the printer: a list or table is its first item and then what
starts with a comma, up to the closing bracket.  Each reader is complete before an arbitrary rest,
so the induction over a value needs nothing about what is printed after it.
-/

namespace CheckRegistry

namespace Json

/-! ## Digits -/

/-- The value of a hexadecimal digit. -/
def hexValue? (c : Char) : Option Nat :=
  if '0' ≤ c ∧ c ≤ '9' then some (c.toNat - '0'.toNat)
  else if 'a' ≤ c ∧ c ≤ 'f' then some (c.toNat - 'a'.toNat + 10)
  else if 'A' ≤ c ∧ c ≤ 'F' then some (c.toNat - 'A'.toNat + 10)
  else none

/-- The number that hexadecimal digits spell. -/
def hexNumber? (digits : List Char) : Option Nat :=
  digits.foldlM (fun n c => (hexValue? c).map (16 * n + ·)) 0

theorem hexValue?_hexDigit : ∀ n < 16, hexValue? (Text.hexDigit n) = some n := by
  decide

theorem hexNumber?_hex (width n : Nat) : hexNumber? (Text.hex width n) = some (n % 16 ^ width) := by
  induction width generalizing n with
  | zero => simp [Text.hex, hexNumber?, Nat.mod_one]
  | succ width ih =>
    have hdigit := hexValue?_hexDigit (n % 16) (Nat.mod_lt n (by decide))
    have hprefix : (Text.hex width (n / 16)).foldlM
        (fun n c => (hexValue? c).map (16 * n + ·)) 0 = some (n / 16 % 16 ^ width) := ih (n / 16)
    rw [Text.hex, hexNumber?, List.foldlM_append, hprefix]
    have hsplit : n % 16 ^ (width + 1) = 16 * (n / 16 % 16 ^ width) + n % 16 := by
      rw [Nat.pow_succ', Nat.mod_mul, Nat.add_comm]
    simp [hdigit, hsplit]

theorem lineFeed_ne_hexDigit : ∀ n < 16, '\n' ≠ Text.hexDigit n := by
  decide

theorem lineFeed_not_mem_hex (width n : Nat) : '\n' ∉ Text.hex width n := by
  induction width generalizing n with
  | zero => exact List.not_mem_nil
  | succ width ih =>
    rw [Text.hex, List.mem_append, List.mem_singleton, not_or]
    exact ⟨ih (n / 16), lineFeed_ne_hexDigit (n % 16) (Nat.mod_lt n (by decide))⟩

/-! ## Strings -/

/-- What the letter after a backslash stands for, if it is no `u`. -/
def escaped? : Char → Option Char
  | '"' => some '"'
  | '\\' => some '\\'
  | '/' => some '/'
  | 'b' => some '\x08'
  | 'f' => some '\x0c'
  | 'n' => some '\n'
  | 'r' => some '\r'
  | 't' => some '\t'
  | _ => none

/-- Reads a string up to the quote at its end, as code points and surrogates. -/
def readUnits : List Char → Option (List Nat × List Char)
  | '"' :: rest => some ([], rest)
  | '\\' :: 'u' :: a :: b :: c :: d :: rest => do
    let unit ← hexNumber? [a, b, c, d]
    let (units, rest) ← readUnits rest
    return (unit :: units, rest)
  | '\\' :: letter :: rest => do
    let c ← escaped? letter
    let (units, rest) ← readUnits rest
    return (c.toNat :: units, rest)
  | c :: rest =>
    if c = '\\' ∨ c.toNat < 0x20 then none
    else do
      let (units, rest) ← readUnits rest
      return (c.toNat :: units, rest)
  | [] => none

/-- Whether a unit is the first of the two that stand for one character. -/
def isHighSurrogate (n : Nat) : Bool := 0xd800 ≤ n && n < 0xdc00

/-- Whether a unit is the second of the two that stand for one character. -/
def isLowSurrogate (n : Nat) : Bool := 0xdc00 ≤ n && n < 0xe000

/-- The characters of some units.  A surrogate has to be one of a pair. -/
def joinUnits : List Nat → Option (List Char)
  | high :: low :: rest =>
    if isHighSurrogate high then
      if isLowSurrogate low then
        (Char.ofNat (0x10000 + (high - 0xd800) * 0x400 + (low - 0xdc00)) :: ·) <$> joinUnits rest
      else none
    else if isLowSurrogate high then none
    else (Char.ofNat high :: ·) <$> joinUnits (low :: rest)
  | [n] => if isHighSurrogate n || isLowSurrogate n then none else some [Char.ofNat n]
  | [] => some []

/-- Reads a string after the quote at its start. -/
def readString (s : List Char) : Option (String × List Char) := do
  let (units, rest) ← readUnits s
  let text ← joinUnits units
  return (String.ofList text, rest)

/-- Reads a text that is one string, with nothing before it or after it. -/
def decodeString? (s : String) : Option String :=
  match s.toList with
  | '"' :: rest =>
    match readString rest with
    | some (t, []) => some t
    | _ => none
  | _ => none

/-- The units that a character is written as. -/
def units (c : Char) : List Nat :=
  if c.toNat < 0x10000 then [c.toNat]
  else [0xd800 + (c.toNat - 0x10000) / 0x400, 0xdc00 + (c.toNat - 0x10000) % 0x400]

section

variable {n : Nat} {c : Char} {s rest : List Char} {us : List Nat}

theorem readUnits_unitEscape (h : n < 16 ^ 4) (hrest : readUnits s = some (us, rest)) :
    readUnits (unitEscape n ++ s) = some (n :: us, rest) := by
  obtain ⟨a, b, c, d, hhex⟩ : ∃ a b c d, Text.hex 4 n = [a, b, c, d] := ⟨_, _, _, _, rfl⟩
  have hnumber : hexNumber? [a, b, c, d] = some n := by
    rw [← hhex, hexNumber?_hex, Nat.mod_eq_of_lt h]
  rw [unitEscape, hhex]
  simp [readUnits, hnumber, hrest]

theorem readUnits_escaped {letter : Char} (h : escaped? letter = some c)
    (hrest : readUnits s = some (us, rest)) :
    readUnits ('\\' :: letter :: s) = some (c.toNat :: us, rest) := by
  have hletter : letter ≠ 'u' := by
    rintro rfl
    cases h
  rw [readUnits]
  · simp [h, hrest]
  · rintro a b c d rest hu
    exact absurd hu hletter

theorem readUnits_plain (hquote : c ≠ '"') (hslash : c ≠ '\\') (hlow : 0x20 ≤ c.toNat)
    (hrest : readUnits s = some (us, rest)) : readUnits (c :: s) = some (c.toNat :: us, rest) := by
  have hraw : ¬ (c = '\\' ∨ c.toNat < 0x20) := by
    rintro (h | h)
    · exact hslash h
    · omega
  rw [readUnits]
  · simp [hraw, hrest]
  · exact hquote
  · rintro a b c d rest hc _
    exact hslash hc
  · rintro letter rest hc _
    exact hslash hc

theorem units_of_lt (h : c.toNat < 0x10000) : units c = [c.toNat] := if_pos h

theorem units_of_le (h : 0x10000 ≤ c.toNat) :
    units c = [0xd800 + (c.toNat - 0x10000) / 0x400, 0xdc00 + (c.toNat - 0x10000) % 0x400] :=
  if_neg (by omega)

/-- The three ways in which a character is written. -/
theorem charText_cases (c : Char) :
    (∃ letter, escaped? letter = some c ∧ units c = [c.toNat] ∧ charText c = ['\\', letter]) ∨
    (c ≠ '"' ∧ c ≠ '\\' ∧ 0x20 ≤ c.toNat ∧ units c = [c.toNat] ∧ charText c = [c]) ∨
    charText c = (units c).flatMap unitEscape := by
  by_cases h₁ : c = '"'
  · subst h₁
    exact .inl ⟨'"', rfl, units_of_lt (by decide), rfl⟩
  by_cases h₂ : c = '\\'
  · subst h₂
    exact .inl ⟨'\\', rfl, units_of_lt (by decide), rfl⟩
  by_cases h₃ : c = '\x08'
  · subst h₃
    exact .inl ⟨'b', rfl, units_of_lt (by decide), rfl⟩
  by_cases h₄ : c = '\x0c'
  · subst h₄
    exact .inl ⟨'f', rfl, units_of_lt (by decide), rfl⟩
  by_cases h₅ : c = '\n'
  · subst h₅
    exact .inl ⟨'n', rfl, units_of_lt (by decide), rfl⟩
  by_cases h₆ : c = '\r'
  · subst h₆
    exact .inl ⟨'r', rfl, units_of_lt (by decide), rfl⟩
  by_cases h₇ : c = '\t'
  · subst h₇
    exact .inl ⟨'t', rfl, units_of_lt (by decide), rfl⟩
  -- no short escape: the character as it is, or the escapes of its units
  rw [charText, if_neg h₁, if_neg h₂, if_neg h₃, if_neg h₄, if_neg h₅, if_neg h₆, if_neg h₇]
  by_cases hplain : 0x20 ≤ c.toNat ∧ c.toNat < 0x7f
  · rw [if_pos hplain]
    exact .inr (.inl ⟨h₁, h₂, hplain.1, units_of_lt (by omega), rfl⟩)
  · rw [if_neg hplain]
    refine .inr (.inr ?_)
    by_cases hlow : c.toNat < 0x10000
    · rw [if_pos hlow, units_of_lt hlow, List.flatMap_singleton]
    · rw [if_neg hlow, units_of_le (by omega), List.flatMap_cons, List.flatMap_singleton]

theorem lt_of_mem_units (hn : n ∈ units c) : n < 16 ^ 4 := by
  have hvalid : c.toNat < 0xd800 ∨ 0xdfff < c.toNat ∧ c.toNat < 0x110000 := c.valid
  unfold units at hn
  split_ifs at hn with hlow
  · simp only [List.mem_singleton] at hn
    omega
  · simp only [List.mem_cons, List.not_mem_nil, or_false] at hn
    omega

theorem readUnits_unitEscapes {ns : List Nat} (hns : ∀ n ∈ ns, n < 16 ^ 4)
    (hrest : readUnits s = some (us, rest)) :
    readUnits (ns.flatMap unitEscape ++ s) = some (ns ++ us, rest) := by
  induction ns with
  | nil => exact hrest
  | cons n ns ih =>
    rw [List.forall_mem_cons] at hns
    rw [List.flatMap_cons, List.append_assoc]
    exact readUnits_unitEscape hns.1 (ih hns.2)

/-- A character is read as its units, whatever comes after it. -/
theorem readUnits_charText (c : Char) (hrest : readUnits s = some (us, rest)) :
    readUnits (charText c ++ s) = some (units c ++ us, rest) := by
  rcases charText_cases c with ⟨letter, hletter, hunits, htext⟩ |
    ⟨hquote, hslash, hlow, hunits, htext⟩ | htext
  · rw [htext, hunits]
    exact readUnits_escaped hletter hrest
  · rw [htext, hunits]
    exact readUnits_plain hquote hslash hlow hrest
  · rw [htext]
    exact readUnits_unitEscapes (fun n => lt_of_mem_units) hrest

/-- The units of a character are joined to it, whatever comes after them. -/
theorem joinUnits_units (c : Char) (us : List Nat) :
    joinUnits (units c ++ us) = (c :: ·) <$> joinUnits us := by
  have hvalid : c.toNat < 0xd800 ∨ 0xdfff < c.toNat ∧ c.toNat < 0x110000 := c.valid
  rcases Nat.lt_or_ge c.toNat 0x10000 with hlow | hhigh
  · have hfirst : isHighSurrogate c.toNat = false := by
      simp only [isHighSurrogate, Bool.and_eq_false_iff, decide_eq_false_iff_not]
      omega
    have hsecond : isLowSurrogate c.toNat = false := by
      simp only [isLowSurrogate, Bool.and_eq_false_iff, decide_eq_false_iff_not]
      omega
    rw [units_of_lt hlow, List.singleton_append]
    cases us with
    | nil => simp [joinUnits, hfirst, hsecond]
    | cons u us => simp [joinUnits, hfirst, hsecond]
  · have hfirst : isHighSurrogate (0xd800 + (c.toNat - 0x10000) / 0x400) = true := by
      simp only [isHighSurrogate, Bool.and_eq_true, decide_eq_true_eq]
      omega
    have hsecond : isLowSurrogate (0xdc00 + (c.toNat - 0x10000) % 0x400) = true := by
      simp only [isLowSurrogate, Bool.and_eq_true, decide_eq_true_eq]
      omega
    have hcode : 0x10000 + (0xd800 + (c.toNat - 0x10000) / 0x400 - 0xd800) * 0x400 +
        (0xdc00 + (c.toNat - 0x10000) % 0x400 - 0xdc00) = c.toNat := by omega
    rw [units_of_le hhigh]
    simp only [List.cons_append, List.nil_append, joinUnits, hfirst, hsecond, hcode, if_true,
      Char.ofNat_toNat]

theorem readUnits_flatMap (cs : List Char) :
    readUnits (cs.flatMap charText ++ '"' :: rest) = some (cs.flatMap units, rest) := by
  induction cs with
  | nil => simp [readUnits]
  | cons c cs ih =>
    rw [List.flatMap_cons, List.append_assoc, List.flatMap_cons]
    exact readUnits_charText c ih

theorem joinUnits_flatMap (cs : List Char) : joinUnits (cs.flatMap units) = some cs := by
  induction cs with
  | nil => rfl
  | cons c cs ih =>
    rw [List.flatMap_cons, joinUnits_units, ih]
    rfl

/-- **A string is read back** as the text it was printed for. -/
theorem readString_string (text : String) (rest : List Char) :
    ∃ inner, (string text).toList = '"' :: inner ∧
      readString (inner ++ rest) = some (text, rest) := by
  refine ⟨text.toList.flatMap charText ++ ['"'], by simp [string, stringChars], ?_⟩
  rw [List.append_assoc, List.singleton_append, readString, readUnits_flatMap]
  simp [joinUnits_flatMap]

theorem decodeString?_string (text : String) : decodeString? (string text) = some text := by
  obtain ⟨inner, hinner, hread⟩ := readString_string text []
  rw [List.append_nil] at hread
  rw [decodeString?, hinner]
  simp only [hread]

/-- No character is written with a line feed, be it a line feed itself. -/
theorem lineFeed_not_mem_charText (c : Char) : '\n' ∉ charText c := by
  rcases charText_cases c with ⟨letter, hletter, -, htext⟩ | ⟨-, -, hlow, -, htext⟩ | htext
  · rw [htext]
    intro hmem
    obtain hslash | rfl : '\n' = '\\' ∨ '\n' = letter := by simpa using hmem
    · exact absurd hslash (by decide)
    · cases hletter
  · rw [htext, List.mem_singleton]
    rintro rfl
    exact absurd hlow (by decide)
  · rw [htext, List.mem_flatMap]
    rintro ⟨n, -, hmem⟩
    obtain hslash | hu | hhex : '\n' = '\\' ∨ '\n' = 'u' ∨ '\n' ∈ Text.hex 4 n := by
      simpa [unitEscape] using hmem
    · exact absurd hslash (by decide)
    · exact absurd hu (by decide)
    · exact lineFeed_not_mem_hex 4 n hhex

theorem lineFeed_not_mem_string (text : String) : '\n' ∉ (string text).toList := by
  simp [string, stringChars, lineFeed_not_mem_charText]

end

/-! ## Values -/

/-- Whether a character is white space between the parts of a JSON text. -/
def isBlank (c : Char) : Bool := c = ' ' || c = '\t' || c = '\n' || c = '\r'

/-- What follows the white space at the start. -/
def skipBlank (s : List Char) : List Char := s.dropWhile isBlank

/-- What follows a word, if the text starts with it. -/
def afterWord? (word : String) (s : List Char) : Option (List Char) :=
  if word.toList.isPrefixOf s then some (s.drop word.toList.length) else none

/-- Reads one of the words that are values. -/
def readWord (s : List Char) : Option (Json × List Char) :=
  match afterWord? "null" s, afterWord? "true" s, afterWord? "false" s with
  | some rest, _, _ => some (.null, rest)
  | _, some rest, _ => some (.bool true, rest)
  | _, _, some rest => some (.bool false, rest)
  | none, none, none => none

/-- Reads a key and the colon after it. -/
def readKey (s : List Char) : Option (String × List Char) :=
  match skipBlank s with
  | '"' :: rest => do
    let (key, rest) ← readString rest
    match skipBlank rest with
    | ':' :: rest => return (key, rest)
    | _ => none
  | _ => none

mutual

/-- Reads a value.  It takes one step of the fuel for each value and each comma, so the length of
the text is always enough. -/
def readValue (fuel : Nat) (s : List Char) : Option (Json × List Char) :=
  match fuel with
  | 0 => none
  | fuel + 1 =>
    match skipBlank s with
    | '"' :: rest => (fun (t, rest) => (.text t, rest)) <$> readString rest
    | '[' :: rest =>
      match skipBlank rest with
      | ']' :: rest => some (.list [], rest)
      | rest => do
        let (item, rest) ← readValue fuel rest
        let (items, rest) ← readItems fuel rest
        return (.list (item :: items), rest)
    | '\x7b' :: rest =>
      match skipBlank rest with
      | '\x7d' :: rest => some (.object [], rest)
      | rest => do
        let (key, rest) ← readKey rest
        let (v, rest) ← readValue fuel rest
        let (members, rest) ← readMembers fuel rest
        return (.object ((key, v) :: members), rest)
    | s => readWord s

/-- Reads the items of a list after the first, and its end. -/
def readItems (fuel : Nat) (s : List Char) : Option (List Json × List Char) :=
  match fuel with
  | 0 => none
  | fuel + 1 =>
    match skipBlank s with
    | ']' :: rest => some ([], rest)
    | ',' :: rest => do
      let (item, rest) ← readValue fuel rest
      let (items, rest) ← readItems fuel rest
      return (item :: items, rest)
    | _ => none

/-- Reads the members of an object after the first, and its end. -/
def readMembers (fuel : Nat) (s : List Char) : Option (List (String × Json) × List Char) :=
  match fuel with
  | 0 => none
  | fuel + 1 =>
    match skipBlank s with
    | '\x7d' :: rest => some ([], rest)
    | ',' :: rest => do
      let (key, rest) ← readKey rest
      let (v, rest) ← readValue fuel rest
      let (members, rest) ← readMembers fuel rest
      return ((key, v) :: members, rest)
    | _ => none

end

/-- Reads a text that is one value. -/
def parse? (s : String) : Option Json :=
  match readValue s.length s.toList with
  | some (j, rest) => if (skipBlank rest).isEmpty then some j else none
  | none => none

section

variable {c : Char} {s s' s'' s₃ rest : List Char} {fuel : Nat} {v item : Json} {items : List Json}
  {key : String} {members : List (String × Json)}

theorem skipBlank_of_not_blank (h : isBlank c = false) : skipBlank (c :: s) = c :: s := by
  rw [skipBlank, List.dropWhile_cons_of_neg (by simp [h])]

theorem skipBlank_skipBlank (s : List Char) : skipBlank (skipBlank s) = skipBlank s :=
  List.dropWhile_idempotent isBlank s

theorem skipBlank_blank (h : isBlank c = true) : skipBlank (c :: s) = skipBlank s := by
  rw [skipBlank, List.dropWhile_cons_of_pos (by simp [h])]
  rfl

theorem skipBlank_lineBreak (depth : Nat) (s : List Char) :
    skipBlank ((lineBreak depth).toList ++ s) = skipBlank s := by
  have hblank : ∀ c ∈ (lineBreak depth).toList, isBlank c = true := by
    intro c hc
    simp only [lineBreak, String.toList_append, String.toList_ofList, List.mem_append,
      List.mem_replicate] at hc
    rcases hc with hc | ⟨-, rfl⟩
    · obtain rfl : c = '\n' := by simpa using hc
      rfl
    · rfl
  exact List.dropWhile_append_of_pos hblank

/-- A value starts with a character of its own. -/
theorem exists_render_eq_cons (depth : Nat) (j : Json) :
    ∃ c s, (render depth j).toList = c :: s ∧ isBlank c = false ∧ c ≠ ']' := by
  unfold render
  split
  · exact ⟨'n', _, rfl, rfl, by decide⟩
  · split
    · exact ⟨'t', _, rfl, rfl, by decide⟩
    · exact ⟨'f', _, rfl, rfl, by decide⟩
  · exact ⟨'"', _, String.toList_ofList, rfl, by decide⟩
  · exact ⟨'[', _, rfl, rfl, by decide⟩
  · exact ⟨'[', _, by simp; rfl, rfl, by decide⟩
  · exact ⟨'\x7b', _, rfl, rfl, by decide⟩
  · exact ⟨'\x7b', _, by simp; rfl, rfl, by decide⟩

theorem readKey_string (key : String) (rest : List Char) :
    readKey ((string key).toList ++ ':' :: rest) = some (key, rest) := by
  obtain ⟨inner, hinner, hread⟩ := readString_string key (':' :: rest)
  rw [hinner, List.cons_append, readKey, skipBlank_of_not_blank rfl]
  simp [hread, skipBlank_of_not_blank (show isBlank ':' = false from rfl)]

theorem readValue_skipBlank (fuel : Nat) (s : List Char) :
    readValue fuel (skipBlank s) = readValue fuel s := by
  cases fuel with
  | zero => simp only [readValue]
  | succ fuel => simp only [readValue, skipBlank_skipBlank]

theorem readValue_lineBreak (fuel depth : Nat) (s : List Char) :
    readValue fuel ((lineBreak depth).toList ++ s) = readValue fuel s := by
  rw [← readValue_skipBlank, skipBlank_lineBreak, readValue_skipBlank]

theorem readValue_space (fuel : Nat) (s : List Char) :
    readValue fuel (' ' :: s) = readValue fuel s := by
  rw [← readValue_skipBlank, skipBlank_blank rfl, readValue_skipBlank]

theorem readKey_lineBreak (depth : Nat) (s : List Char) :
    readKey ((lineBreak depth).toList ++ s) = readKey s := by
  rw [readKey, skipBlank_lineBreak, ← readKey]

theorem readItems_close (h : skipBlank s = ']' :: rest) :
    readItems (fuel + 1) s = some ([], rest) := by
  rw [readItems, h]
  rfl

theorem readItems_comma (h : skipBlank s = ',' :: rest)
    (hitem : readValue fuel rest = some (item, s'))
    (hitems : readItems fuel s' = some (items, s'')) :
    readItems (fuel + 1) s = some (item :: items, s'') := by
  rw [readItems, h]
  simp [hitem, hitems]

theorem readMembers_close (h : skipBlank s = '\x7d' :: rest) :
    readMembers (fuel + 1) s = some ([], rest) := by
  rw [readMembers, h]
  rfl

theorem readMembers_comma (h : skipBlank s = ',' :: rest) (hkey : readKey rest = some (key, s'))
    (hv : readValue fuel s' = some (v, s''))
    (hmembers : readMembers fuel s'' = some (members, s₃)) :
    readMembers (fuel + 1) s = some ((key, v) :: members, s₃) := by
  rw [readMembers, h]
  simp [hkey, hv, hmembers]

theorem readKey_skipBlank (s : List Char) : readKey (skipBlank s) = readKey s := by
  rw [readKey, skipBlank_skipBlank, ← readKey]

theorem readValue_list (hfirst : skipBlank s = c :: rest) (hc : c ≠ ']')
    (hitem : readValue fuel s = some (item, s')) (hitems : readItems fuel s' = some (items, s'')) :
    readValue (fuel + 1) ('[' :: s) = some (.list (item :: items), s'') := by
  rw [← readValue_skipBlank, hfirst] at hitem
  rw [readValue, skipBlank_of_not_blank rfl]
  simp [hfirst, hc, hitem, hitems]

theorem readValue_object (hfirst : skipBlank s = c :: rest) (hc : c ≠ '\x7d')
    (hkey : readKey s = some (key, s')) (hv : readValue fuel s' = some (v, s''))
    (hmembers : readMembers fuel s'' = some (members, s₃)) :
    readValue (fuel + 1) ('\x7b' :: s) = some (.object ((key, v) :: members), s₃) := by
  rw [← readKey_skipBlank, hfirst] at hkey
  rw [readValue, skipBlank_of_not_blank rfl]
  simp [hfirst, hc, hkey, hv, hmembers]

/-- Induction over a value, the items of a list and the members of an object all at once. -/
@[elab_as_elim, induction_eliminator]
theorem induction {motive : Json → Prop} (null : motive .null) (bool : ∀ b, motive (.bool b))
    (text : ∀ s, motive (.text s)) (list : ∀ items, (∀ j ∈ items, motive j) → motive (.list items))
    (object : ∀ members, (∀ m ∈ members, motive m.2) → motive (.object members)) :
    ∀ j, motive j
  | .null => null
  | .bool b => bool b
  | .text s => text s
  | .list items => list items fun j _ => induction null bool text list object j
  | .object members => object members fun m hm =>
    have hsize : sizeOf m.2 < 1 + sizeOf members := by
      obtain ⟨key, v⟩ := m
      have hmember := List.sizeOf_lt_of_mem hm
      rw [Prod.mk.sizeOf_spec] at hmember
      show sizeOf v < _
      omega
    induction null bool text list object m.2

theorem toList_renderItems_cons (depth : Nat) (item : Json) (items : List Json) :
    (renderItems depth (item :: items)).toList =
      ',' :: ((lineBreak depth).toList ++
        ((render depth item).toList ++ (renderItems depth items).toList)) := by
  simp [renderItems]

theorem toList_renderMembers_cons (depth : Nat) (key : String) (v : Json)
    (members : List (String × Json)) :
    (renderMembers depth ((key, v) :: members)).toList =
      ',' :: ((lineBreak depth).toList ++ ((string key).toList ++ (':' :: ' ' ::
        ((render depth v).toList ++ (renderMembers depth members).toList)))) := by
  simp [renderMembers]

theorem toList_render_list_cons (depth : Nat) (item : Json) (items : List Json) :
    (render depth (.list (item :: items))).toList =
      '[' :: ((lineBreak (depth + 1)).toList ++ ((render (depth + 1) item).toList ++
        ((renderItems (depth + 1) items).toList ++ ((lineBreak depth).toList ++ [']'])))) := by
  simp [render]

theorem toList_render_object_cons (depth : Nat) (key : String) (v : Json)
    (members : List (String × Json)) :
    (render depth (.object ((key, v) :: members))).toList =
      '\x7b' :: ((lineBreak (depth + 1)).toList ++ ((string key).toList ++ (':' :: ' ' ::
        ((render (depth + 1) v).toList ++ ((renderMembers (depth + 1) members).toList ++
          ((lineBreak depth).toList ++ ['\x7d'])))))) := by
  simp [render]

/-- A value is read back from its printed form, whatever comes after it. -/
def ReadsBack (j : Json) : Prop :=
  ∀ fuel depth rest, (render depth j).toList.length ≤ fuel →
    readValue fuel ((render depth j).toList ++ rest) = some (j, rest)

theorem readItems_renderItems (hitems : ∀ j ∈ items, ReadsBack j) (fuel depth outer : Nat)
    (rest : List Char) (hfuel : (renderItems depth items).toList.length < fuel) :
    readItems fuel ((renderItems depth items).toList ++ ((lineBreak outer).toList ++ ']' :: rest)) =
      some (items, rest) := by
  obtain ⟨fuel, rfl⟩ : ∃ n, fuel = n + 1 := ⟨fuel - 1, by omega⟩
  induction items generalizing fuel with
  | nil =>
    refine readItems_close ?_
    rw [renderItems, String.toList_empty, List.nil_append, skipBlank_lineBreak,
      skipBlank_of_not_blank rfl]
  | cons item items ih =>
    rw [List.forall_mem_cons] at hitems
    obtain ⟨hitem, hitems⟩ := hitems
    rw [toList_renderItems_cons] at hfuel ⊢
    simp only [List.length_cons, List.length_append] at hfuel
    obtain ⟨fuel, rfl⟩ : ∃ n, fuel = n + 1 := ⟨fuel - 1, by omega⟩
    simp only [List.cons_append, List.append_assoc]
    refine readItems_comma (skipBlank_of_not_blank rfl) ?_ (ih hitems fuel (by omega))
    rw [readValue_lineBreak]
    exact hitem (fuel + 1) depth _ (by omega)

theorem readMembers_renderMembers (hmembers : ∀ m ∈ members, ReadsBack m.2)
    (fuel depth outer : Nat) (rest : List Char)
    (hfuel : (renderMembers depth members).toList.length < fuel) :
    readMembers fuel
        ((renderMembers depth members).toList ++ ((lineBreak outer).toList ++ '\x7d' :: rest)) =
      some (members, rest) := by
  obtain ⟨fuel, rfl⟩ : ∃ n, fuel = n + 1 := ⟨fuel - 1, by omega⟩
  induction members generalizing fuel with
  | nil =>
    refine readMembers_close ?_
    rw [renderMembers, String.toList_empty, List.nil_append, skipBlank_lineBreak,
      skipBlank_of_not_blank rfl]
  | cons m members ih =>
    obtain ⟨key, v⟩ := m
    rw [List.forall_mem_cons] at hmembers
    obtain ⟨hv : ReadsBack v, hmembers⟩ := hmembers
    rw [toList_renderMembers_cons] at hfuel ⊢
    simp only [List.length_cons, List.length_append] at hfuel
    obtain ⟨fuel, rfl⟩ : ∃ n, fuel = n + 1 := ⟨fuel - 1, by omega⟩
    simp only [List.cons_append, List.append_assoc]
    refine readMembers_comma (skipBlank_of_not_blank rfl)
      ((readKey_lineBreak depth _).trans (readKey_string key _)) ?_ (ih hmembers fuel (by omega))
    rw [readValue_space]
    exact hv (fuel + 1) depth _ (by omega)

/-- An item of a list starts where the list has no end. -/
theorem skipBlank_render (depth : Nat) (j : Json) (rest : List Char) :
    ∃ c s, skipBlank ((render depth j).toList ++ rest) = c :: s ∧ c ≠ ']' := by
  obtain ⟨c, s, hrender, hblank, hc⟩ := exists_render_eq_cons depth j
  exact ⟨c, s ++ rest, by rw [hrender, List.cons_append, skipBlank_of_not_blank hblank], hc⟩

theorem readsBack_list (ih : ∀ j ∈ items, ReadsBack j) : ReadsBack (.list items) := by
  intro fuel depth rest hfuel
  cases items with
  | nil =>
    obtain ⟨fuel, rfl⟩ : ∃ n, fuel = n + 1 := ⟨fuel - 1, by simp [render] at hfuel; omega⟩
    simp [render, readValue, skipBlank, isBlank]
  | cons item items =>
    rw [List.forall_mem_cons] at ih
    obtain ⟨hitem, hitems⟩ := ih
    rw [toList_render_list_cons] at hfuel ⊢
    simp only [List.length_cons, List.length_append] at hfuel
    obtain ⟨fuel, rfl⟩ : ∃ n, fuel = n + 1 := ⟨fuel - 1, by omega⟩
    simp only [List.cons_append, List.append_assoc, List.nil_append]
    obtain ⟨c, s, hfirst, hc⟩ := skipBlank_render (depth + 1) item
      ((renderItems (depth + 1) items).toList ++ ((lineBreak depth).toList ++ ']' :: rest))
    refine readValue_list ((skipBlank_lineBreak _ _).trans hfirst) hc ?_
      (readItems_renderItems hitems fuel (depth + 1) depth rest (by omega))
    rw [readValue_lineBreak]
    exact hitem fuel (depth + 1) _ (by omega)

theorem readsBack_object (ih : ∀ m ∈ members, ReadsBack m.2) : ReadsBack (.object members) := by
  intro fuel depth rest hfuel
  cases members with
  | nil =>
    obtain ⟨fuel, rfl⟩ : ∃ n, fuel = n + 1 := ⟨fuel - 1, by simp [render] at hfuel; omega⟩
    simp [render, readValue, skipBlank, isBlank]
  | cons m members =>
    obtain ⟨key, v⟩ := m
    rw [List.forall_mem_cons] at ih
    obtain ⟨hv : ReadsBack v, hmembers⟩ := ih
    rw [toList_render_object_cons] at hfuel ⊢
    simp only [List.length_cons, List.length_append] at hfuel
    obtain ⟨fuel, rfl⟩ : ∃ n, fuel = n + 1 := ⟨fuel - 1, by omega⟩
    simp only [List.cons_append, List.append_assoc, List.nil_append]
    obtain ⟨inner, hinner, -⟩ := readString_string key []
    have hfirst (s : List Char) : skipBlank ((lineBreak (depth + 1)).toList ++
        ((string key).toList ++ s)) = '"' :: (inner ++ s) := by
      rw [skipBlank_lineBreak, hinner, List.cons_append, skipBlank_of_not_blank rfl]
    refine readValue_object (hfirst _) (by decide)
      ((readKey_lineBreak _ _).trans (readKey_string key _)) ?_
      (readMembers_renderMembers hmembers fuel (depth + 1) depth rest (by omega))
    rw [readValue_space]
    exact hv fuel (depth + 1) _ (by omega)

/-- **A value is read back** from its printed form. -/
theorem readsBack (j : Json) : ReadsBack j := by
  induction j with
  | list items ih => exact readsBack_list ih
  | object members ih => exact readsBack_object ih
  | text t =>
    intro fuel depth rest hfuel
    obtain ⟨inner, hinner, hread⟩ := readString_string t rest
    rw [render, hinner] at hfuel ⊢
    obtain ⟨fuel, rfl⟩ : ∃ n, fuel = n + 1 := ⟨fuel - 1, by simp at hfuel; omega⟩
    rw [List.cons_append, readValue, skipBlank_of_not_blank rfl]
    simp [hread]
  | null =>
    intro fuel depth rest hfuel
    obtain ⟨fuel, rfl⟩ : ∃ n, fuel = n + 1 := ⟨fuel - 1, by simp [render] at hfuel; omega⟩
    simp [render, readValue, skipBlank, isBlank, readWord, afterWord?]
  | bool b =>
    intro fuel depth rest hfuel
    cases b
    all_goals
      obtain ⟨fuel, rfl⟩ : ∃ n, fuel = n + 1 := ⟨fuel - 1, by simp [render] at hfuel; omega⟩
      simp [render, readValue, skipBlank, isBlank, readWord, afterWord?]

/-- **A printed text is read as the value that it was printed for.** -/
theorem parse?_render (j : Json) : parse? (render 0 j ++ "\n") = some j := by
  have hread := readsBack j (render 0 j ++ "\n").length 0 "\n".toList
    (by rw [String.length_toList, String.length_append]; omega)
  rw [parse?, String.toList_append]
  simp only [hread]
  rfl

end

end Json

end CheckRegistry
