import CheckRegistry.Text.Ranges

/-!
# White space

White space is what the Unicode tables call so, together with the four separators U+001C to
U+001F.  Names, summaries and option values are compared after `trim`, which removes it at both
ends and leaves it inside.
-/

namespace CheckRegistry.Text

/-- The code points that count as white space. -/
def blankRanges : Ranges :=
  [(0x09, 0x0d), (0x1c, 0x20), (0x85, 0x85), (0xa0, 0xa0), (0x1680, 0x1680), (0x2000, 0x200a),
   (0x2028, 0x2029), (0x202f, 0x202f), (0x205f, 0x205f), (0x3000, 0x3000)]

/-- Whether a character is white space. -/
def isBlank (c : Char) : Bool := inRanges blankRanges c.toNat

/-- White space of the ASCII range alone, without the separators U+001C to U+001F: tabulator,
line feed, vertical tabulator, form feed, carriage return and space. -/
def isAsciiBlank (c : Char) : Bool := inRanges [(0x09, 0x0d), (0x20, 0x20)] c.toNat

/-- Removes the longest run of characters with a property from the end. -/
def dropEndWhile (p : Char → Bool) (s : List Char) : List Char := (s.reverse.dropWhile p).reverse

/-- Removes characters with a property from both ends. -/
def dropBothWhile (p : Char → Bool) (s : List Char) : List Char := dropEndWhile p (s.dropWhile p)

/-- Removes white space from both ends. -/
def trim (s : String) : String := String.ofList (dropBothWhile isBlank s.toList)

/-- Whether nothing but white space is in the text. -/
def isBlankText (s : String) : Bool := (trim s).isEmpty

/-- Whether a text begins or ends with white space. -/
def hasOuterBlank (s : String) : Bool := s != trim s

/-- Removes the longest run of one character from the end. -/
def dropEndChar (c : Char) (s : String) : String :=
  String.ofList (dropEndWhile (· == c) s.toList)

theorem exists_eq_dropEndWhile_append (p : Char → Bool) (s : List Char) :
    ∃ gone, s = dropEndWhile p s ++ gone ∧ ∀ c ∈ gone, p c = true := by
  refine ⟨(s.reverse.takeWhile p).reverse, ?_, ?_⟩
  · rw [dropEndWhile, ← List.reverse_append, List.takeWhile_append_dropWhile, List.reverse_reverse]
  · intro c hc
    exact List.all_eq_true.mp List.all_takeWhile c (List.mem_reverse.mp hc)

theorem not_of_getLast?_dropEndWhile {p : Char → Bool} {s : List Char} {c : Char}
    (h : (dropEndWhile p s).getLast? = some c) : p c = false := by
  rw [dropEndWhile, List.getLast?_reverse] at h
  have hfirst := List.head?_dropWhile_not p s.reverse
  rwa [h] at hfirst

theorem exists_eq_dropEndChar_append (c : Char) (s : String) :
    ∃ k, s = dropEndChar c s ++ String.ofList (List.replicate k c) := by
  obtain ⟨gone, hs, hgone⟩ := exists_eq_dropEndWhile_append (· == c) s.toList
  have hsame : gone = List.replicate gone.length c :=
    List.eq_replicate_of_mem fun d hd => beq_iff_eq.mp (hgone d hd)
  refine ⟨gone.length, String.toList_inj.mp ?_⟩
  rw [String.toList_append, dropEndChar, String.toList_ofList, String.toList_ofList, ← hsame]
  exact hs

theorem getLast?_dropEndChar (c : Char) (s : String) :
    (dropEndChar c s).toList.getLast? ≠ some c := by
  intro h
  rw [dropEndChar, String.toList_ofList] at h
  exact absurd (not_of_getLast?_dropEndWhile h) (by simp)

/-- A trimmed text does not end in white space. -/
theorem not_isBlank_of_getLast?_trim {s : String} {c : Char}
    (h : (trim s).toList.getLast? = some c) : isBlank c = false := by
  rw [trim, String.toList_ofList] at h
  exact not_of_getLast?_dropEndWhile h

end CheckRegistry.Text
