import CheckRegistry.Proofs.Grammar

/-! # Tokens without their positions

What a text stands for is decided by the kinds of its tokens; where they are plays a part in
messages only.  `kindsFrom` scans a text without counting, and `kinds_eq` says that it finds the
same kinds.  Scanning is then a fold over the characters, so a text that follows another is scanned
from the mode that the first one ends in (`kindsFrom_append`), and everything about texts in a row
comes down to which modes that can be.

After a line feed there are three (`after_newline`): between tokens, inside a text in quotes, and
inside an atom whose backslash has made the line feed part of it.
-/

namespace CheckRegistry.Sexp.Token

variable {mode : Mode} {s rest : List Char} {c : Char}

/-- A mode with no regard to where its token begins. -/
def Mode.unplaced : Mode → Mode
  | .between => .between
  | .comment => .comment
  | .text _ read => .text 0 read
  | .textEscape _ read => .textEscape 0 read
  | .atom _ read => .atom 0 read
  | .atomEscape _ read => .atomEscape 0 read

/-- The mode after some characters. -/
def after (mode : Mode) (s : List Char) : Mode := s.foldl (fun mode c => (step mode c 0).2) mode

/-- The kinds of the tokens that some characters complete. -/
def completed (mode : Mode) : List Char → List Kind
  | [] => []
  | c :: rest => (step mode c 0).1.map kind ++ completed (step mode c 0).2 rest

/-- The kinds of the tokens of a sequence of characters that begins in a mode. -/
def kindsFrom (mode : Mode) (s : List Char) : List Kind :=
  completed mode s ++ (finish (after mode s)).map kind

theorem kindsFrom_cons (mode : Mode) (c : Char) (rest : List Char) :
    kindsFrom mode (c :: rest) =
      (step mode c 0).1.map kind ++ kindsFrom (step mode c 0).2 rest := by
  rw [kindsFrom, completed, List.append_assoc]
  rfl

/-- What follows is scanned from the mode that comes before it. -/
theorem kindsFrom_append (mode : Mode) (s rest : List Char) :
    kindsFrom mode (s ++ rest) = completed mode s ++ kindsFrom (after mode s) rest := by
  induction s generalizing mode with
  | nil => rfl
  | cons c s ih =>
    rw [List.cons_append, kindsFrom_cons, ih, completed, List.append_assoc]
    rfl

/-! ## Steps within an atom -/

theorem step_atom_end {start pos : Nat} {read : List Char} (h : endsAtom c = true) :
    step (.atom start read) c pos =
      (⟨.atom (String.ofList read.reverse), start⟩ :: (between c pos).1, (between c pos).2) := by
  rw [step, if_pos h]

theorem step_atom_char {start pos : Nat} {read : List Char} (hend : endsAtom c = false)
    (hescape : c ≠ '\\') : step (.atom start read) c pos = ([], .atom start (c :: read)) := by
  rw [step, if_neg (by simp [hend]), if_neg hescape]

/-! ## Positions play no part -/

theorem between_unplaced (c : Char) (pos : Nat) :
    (between c pos).1.map kind = (between c 0).1.map kind ∧
      (between c pos).2.unplaced = (between c 0).2 := by
  unfold between
  split
  all_goals first | exact ⟨rfl, rfl⟩ | skip
  split <;> exact ⟨rfl, rfl⟩

theorem step_unplaced (mode : Mode) (c : Char) (pos : Nat) :
    (step mode c pos).1.map kind = (step mode.unplaced c 0).1.map kind ∧
      (step mode c pos).2.unplaced = (step mode.unplaced c 0).2 := by
  cases mode with
  | between => exact between_unplaced c pos
  | comment => by_cases h : c = '\n' <;> simp [step, Mode.unplaced, h]
  | text start read =>
    by_cases hquote : c = '"'
    · simp [step, Mode.unplaced, hquote]
    · by_cases hescape : c = '\\' <;> simp [step, Mode.unplaced, hquote, hescape]
  | textEscape start read => exact ⟨rfl, rfl⟩
  | atom start read =>
    obtain ⟨hkinds, hmode⟩ := between_unplaced c pos
    rw [Mode.unplaced]
    by_cases hend : endsAtom c = true
    · rw [step_atom_end hend, step_atom_end hend]
      exact ⟨congrArg (Kind.atom (String.ofList read.reverse) :: ·) hkinds, hmode⟩
    · by_cases hescape : c = '\\'
      · subst hescape
        exact ⟨rfl, rfl⟩
      · rw [step_atom_char (by simpa using hend) hescape,
          step_atom_char (by simpa using hend) hescape]
        exact ⟨rfl, rfl⟩
  | atomEscape start read => exact ⟨rfl, rfl⟩

theorem map_kind_scanFrom (mode : Mode) (pos : Nat) (s : List Char) :
    (scanFrom mode pos s).map kind = kindsFrom mode.unplaced s := by
  induction s generalizing mode pos with
  | nil => cases mode <;> rfl
  | cons c s ih =>
    obtain ⟨hkinds, hmode⟩ := step_unplaced mode c pos
    rw [scanFrom, List.map_append, kindsFrom_cons, ih, hkinds, hmode]

/-! ## After a line feed -/

theorem after_newline (mode : Mode) (s : List Char) :
    after mode (s ++ ['\n']) = .between ∨
      (∃ start read, after mode (s ++ ['\n']) = .text start read) ∨
      ∃ start read, after mode (s ++ ['\n']) = .atom start read := by
  have hstep : after mode (s ++ ['\n']) = (step (after mode s) '\n' 0).2 := by
    rw [after, List.foldl_append]
    rfl
  rw [hstep]
  cases after mode s with
  | between => exact .inl rfl
  | comment => exact .inl rfl
  | text start read => exact .inr (.inl ⟨start, _, rfl⟩)
  | textEscape start read => exact .inr (.inl ⟨start, _, rfl⟩)
  | atom start read => exact .inl rfl
  | atomEscape start read => exact .inr (.inr ⟨start, _, rfl⟩)

end Token

open Token

theorem kinds_eq (s : List Char) : kinds s = kindsFrom .between s :=
  map_kind_scanFrom .between 0 s

/-- The kinds of the tokens of a line, which ends with its line feed. -/
def lineKinds (s : List Char) : List Token.Kind := kinds (s ++ ['\n'])

/-- What a line comes to, alone and with something after it.  Mostly it is done with at its end.
Else a text in quotes is open, which no bracket closes, or an atom is, which any bracket ends. -/
theorem lineKinds_cases (s : List Char) :
    (∀ rest, kinds (s ++ '\n' :: rest) = lineKinds s ++ kinds rest) ∨
    (.openText ∈ lineKinds s ∧ .openText ∈ kinds (s ++ ['\n', ')'])) ∨
    ∃ word, (lineKinds s).getLast? = some (.atom word) ∧
      kinds (s ++ ['\n', ')']) = lineKinds s ++ [.closing .round] := by
  have hline : lineKinds s = completed .between (s ++ ['\n']) ++
      (finish (after .between (s ++ ['\n']))).map Token.kind := kinds_eq _
  have hrest : ∀ rest, kinds (s ++ '\n' :: rest) = completed .between (s ++ ['\n']) ++
      kindsFrom (after .between (s ++ ['\n'])) rest := by
    intro rest
    rw [kinds_eq, ← kindsFrom_append, List.append_assoc, List.singleton_append]
  rcases after_newline .between s with hmode | ⟨start, read, hmode⟩ | ⟨start, read, hmode⟩
  · refine .inl fun rest => ?_
    rw [hrest, hline, hmode, kinds_eq rest]
    simp [finish]
  · refine .inr (.inl ⟨?_, ?_⟩)
    · rw [hline, hmode]
      simp [finish]
    · rw [hrest, hmode]
      have hend : kindsFrom (.text start read) [')'] = [.openText] := rfl
      simp [hend]
  · refine .inr (.inr ⟨String.ofList read.reverse, ?_, ?_⟩)
    · rw [hline, hmode]
      simp [finish]
    · have hend : kindsFrom (.atom start read) [')'] =
          (finish (.atom start read)).map Token.kind ++ [.closing .round] := rfl
      rw [hrest, hline, hmode, hend, List.append_assoc]

/-- A list around a line puts its brackets around the line's tokens, unless a text in quotes is
open. -/
theorem kinds_wrapped (s : List Char) :
    (.openText ∈ lineKinds s ∧ .openText ∈ kinds ('(' :: '\n' :: (s ++ ['\n', ')']))) ∨
    kinds ('(' :: '\n' :: (s ++ ['\n', ')'])) =
      .opening .round :: (lineKinds s ++ [.closing .round]) := by
  have hopen : kinds ('(' :: '\n' :: (s ++ ['\n', ')'])) =
      .opening .round :: kinds (s ++ ['\n', ')']) := by
    rw [kinds_eq, kinds_eq, kindsFrom_cons, kindsFrom_cons]
    rfl
  rw [hopen]
  rcases lineKinds_cases s with hdone | ⟨hline, hwrapped⟩ | ⟨_, _, hatom⟩
  · right
    rw [hdone]
    rfl
  · exact .inl ⟨hline, List.mem_cons_of_mem _ hwrapped⟩
  · right
    rw [hatom]

/-- **A list around a text is transparent**: it is read exactly if the text is read without it, and
its items are the expressions of the text. -/
theorem denotes_kinds_wrapped_iff {s : List Char} {x : Sexp} :
    Denotes (kinds ('(' :: '\n' :: (s ++ ['\n', ')']))) [x] ↔
      ∃ xs, Denotes (lineKinds s) xs ∧ x = .list xs := by
  rcases kinds_wrapped s with ⟨hline, hwrapped⟩ | hwrapped
  · refine iff_of_false (fun h => h.openText_not_mem hwrapped) ?_
    rintro ⟨xs, h, _⟩
    exact h.openText_not_mem hline
  · rw [hwrapped, denotes_wrapped_iff]

/-- Two texts in lines of their own are read as what each is read as, if the first holds nothing
but lists. -/
theorem denotes_lines {s t : List Char} {xs ys : List Sexp} (hs : Denotes (lineKinds s) xs)
    (hlists : ∀ x ∈ xs, ∃ items, x = .list items) (ht : Denotes (lineKinds t) ys) :
    Denotes (lineKinds (s ++ '\n' :: t)) (xs ++ ys) := by
  rcases lineKinds_cases s with hdone | ⟨hopen, _⟩ | ⟨word, hatom, _⟩
  · rw [lineKinds, List.append_assoc, List.cons_append, hdone]
    exact hs.append ht
  · exact absurd hopen hs.openText_not_mem
  · -- a backslash before the line feed has left an atom, which is no list
    obtain ⟨x, hx, hno⟩ := hs.exists_not_list hatom
    obtain ⟨items, hlist⟩ := hlists x hx
    exact absurd hlist (hno items)

end CheckRegistry.Sexp
