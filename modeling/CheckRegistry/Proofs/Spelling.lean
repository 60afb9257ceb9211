import Mathlib.Data.List.Forall2
import CheckRegistry.Proofs.Tokens

/-! # Spelling expressions

How to write an expression so that it is read back: a text in quotes with a backslash before each
quote and backslash in it, a symbol as a word of plain characters, a list with a blank before each
item but the first.

Characters do not mean the same everywhere.  Within a comment or a text they are no tokens, and a
word goes on for as long as plain characters follow.  `Spells` speaks of characters between tokens
with anything after them that ends a word.  All that is written begins and ends between tokens, so
spellings can be put next to each other, and a list is spelled by the spellings of its items.
-/

namespace CheckRegistry.Sexp

open Token

variable {c : Char} {s t rest : List Char} {xs ys : List Sexp} {word : String}

/-! ## What the scanner makes of it -/

/-- Whether a character has no meaning of its own in an atom. -/
def isPlain (c : Char) : Bool := !endsAtom c && c != '\\' && c != '\''

/-- A character of a text, after a backslash if it would end the text or be taken for an escape. -/
def escaped (c : Char) : List Char := if c = '"' ∨ c = '\\' then ['\\', c] else [c]

/-- A text in quotes. -/
def inQuotes (s : String) : List Char := '"' :: (s.toList.flatMap escaped ++ ['"'])

/-- Characters that no word before them goes on with. -/
def Delimited (s : List Char) : Prop := ∀ c ∈ s.head?, endsAtom c = true

theorem delimited_nil : Delimited [] := fun _ hc => nomatch hc

theorem delimited_cons (hc : endsAtom c = true) (s : List Char) : Delimited (c :: s) :=
  fun _ hd => Option.some.inj hd ▸ hc

theorem Delimited.append (hs : Delimited s) (ht : Delimited t) : Delimited (s ++ t) := by
  cases s with
  | nil => exact ht
  | cons c s => exact hs

theorem between_blank (h : Text.isAsciiBlank c = true) (pos : Nat) :
    between c pos = ([], .between) := by
  unfold between
  split
  case h_9 => rw [if_pos h]
  all_goals exact absurd h (by decide)

theorem between_plain (h : isPlain c = true) (pos : Nat) : between c pos = ([], .atom pos [c]) := by
  unfold between
  split
  case h_9 =>
    rw [if_neg]
    intro hblank
    simp [isPlain, endsAtom, hblank] at h
  all_goals exact absurd h (by decide)

/-- The characters of a text in quotes, up to the quote that ends it. -/
theorem kindsFrom_text (start : Nat) (read s rest : List Char) :
    kindsFrom (.text start read) (s.flatMap escaped ++ '"' :: rest) =
      .text (String.ofList (read.reverse ++ s)) :: kindsFrom .between rest := by
  induction s generalizing read with
  | nil =>
    rw [List.flatMap_nil, List.nil_append, List.append_nil, kindsFrom_cons]
    rfl
  | cons c s ih =>
    have hread : read.reverse ++ c :: s = (c :: read).reverse ++ s := by simp
    rw [List.flatMap_cons, List.append_assoc, hread, ← ih, escaped]
    by_cases h : c = '"' ∨ c = '\\'
    · -- the backslash keeps the character from ending the text and is itself left out
      rw [if_pos h, List.cons_append, List.singleton_append, kindsFrom_cons, kindsFrom_cons]
      rcases h with rfl | rfl <;> rfl
    · rw [if_neg h, List.singleton_append, kindsFrom_cons]
      rw [not_or] at h
      simp [step, h]

/-- The characters of an atom, up to one that ends it. -/
theorem kindsFrom_atom (start : Nat) (read : List Char) (hplain : ∀ c ∈ s, isPlain c = true)
    (hrest : Delimited rest) :
    kindsFrom (.atom start read) (s ++ rest) =
      .atom (String.ofList (read.reverse ++ s)) :: kindsFrom .between rest := by
  induction s generalizing read with
  | nil =>
    rw [List.nil_append, List.append_nil]
    cases rest with
    | nil => rfl
    | cons c rest =>
      rw [kindsFrom_cons, kindsFrom_cons, step_atom_end (hrest c rfl)]
      rfl
  | cons c s ih =>
    have hread : read.reverse ++ c :: s = (c :: read).reverse ++ s := by simp
    have hc := hplain c List.mem_cons_self
    simp only [isPlain, Bool.and_eq_true, Bool.not_eq_true', bne_iff_ne] at hc
    rw [List.cons_append, kindsFrom_cons, step_atom_char hc.1.1 hc.1.2, hread]
    exact ih _ fun d hd => hplain d (List.mem_cons_of_mem _ hd)

/-! ## Spellings -/

/-- Characters stand for expressions, wherever they are between tokens and whatever comes after
that is no more of a word. -/
def Spells (s : List Char) (xs : List Sexp) : Prop :=
  ∃ ks, Denotes ks xs ∧
    ∀ rest, Delimited rest → kindsFrom .between (s ++ rest) = ks ++ kindsFrom .between rest

/-- Whether a word is read as a symbol. -/
def isSymbol (word : String) : Bool :=
  !word.toList.isEmpty && word.toList.all isPlain && (Numeral.ofText? word).isNone

/-- A list of a word and items, with a blank before each item. -/
def bracketed (word : String) (items : List (List Char)) : List Char :=
  '(' :: (word.toList ++ items.flatMap (' ' :: ·) ++ [')'])

theorem delimited_bracketed (word : String) (items : List (List Char)) :
    Delimited (bracketed word items) := delimited_cons rfl _

namespace Spells

theorem denotes (h : Spells s xs) : Denotes (lineKinds s) xs := by
  obtain ⟨ks, hks, hs⟩ := h
  have hline : lineKinds s = ks := by
    rw [lineKinds, kinds_eq, hs ['\n'] (delimited_cons rfl [])]
    exact List.append_nil ks
  exact hline ▸ hks

theorem nil : Spells [] [] := ⟨[], .nil, fun _ _ => rfl⟩

theorem append (hs : Spells s xs) (ht : Spells t ys) (hdelimited : Delimited t) :
    Spells (s ++ t) (xs ++ ys) := by
  obtain ⟨ks, hks, hs⟩ := hs
  obtain ⟨ls, hls, ht⟩ := ht
  refine ⟨ks ++ ls, hks.append hls, fun rest hrest => ?_⟩
  rw [List.append_assoc, hs _ (hdelimited.append hrest), ht rest hrest, List.append_assoc]

theorem blank (hc : Text.isAsciiBlank c = true) (hs : Spells s xs) : Spells (c :: s) xs := by
  obtain ⟨ks, hks, hs⟩ := hs
  refine ⟨ks, hks, fun rest hrest => ?_⟩
  rw [List.cons_append, kindsFrom_cons, step, between_blank hc, ← hs rest hrest]
  rfl

theorem text (str : String) : Spells (inQuotes str) [.text str] := by
  refine ⟨[.text str], .text str .nil, fun rest _ => ?_⟩
  rw [inQuotes, List.cons_append, List.append_assoc, kindsFrom_cons]
  refine (kindsFrom_text 0 [] str.toList rest).trans ?_
  rw [List.reverse_nil, List.nil_append, String.ofList_toList]
  rfl

theorem symbol (h : isSymbol word = true) : Spells word.toList [.symbol word] := by
  simp only [isSymbol, Bool.and_eq_true, Bool.not_eq_true', List.isEmpty_eq_false_iff,
    List.all_eq_true, Option.isNone_iff_eq_none] at h
  obtain ⟨⟨hne, hplain⟩, hnumber⟩ := h
  have hatom : ofAtom word = .symbol word := by rw [ofAtom, hnumber]
  refine ⟨[.atom word], hatom ▸ .atom word .nil, fun rest hrest => ?_⟩
  obtain ⟨c, s, hs⟩ := List.exists_cons_of_ne_nil hne
  rw [hs] at hplain ⊢
  rw [List.cons_append, kindsFrom_cons, step, between_plain (hplain c List.mem_cons_self)]
  refine (kindsFrom_atom 0 [c] (fun d hd => hplain d (List.mem_cons_of_mem _ hd)) hrest).trans ?_
  rw [List.reverse_singleton, List.singleton_append, ← hs, String.ofList_toList]
  rfl

theorem list (hs : Spells s xs) : Spells ('(' :: (s ++ [')'])) [.list xs] := by
  obtain ⟨ks, hks, hs⟩ := hs
  refine ⟨_, .list .round hks .nil, fun rest _ => ?_⟩
  have hopening : kindsFrom .between ('(' :: (s ++ ')' :: rest)) =
      .opening .round :: kindsFrom .between (s ++ ')' :: rest) := kindsFrom_cons _ _ _
  have hclosing : kindsFrom .between (')' :: rest) =
      .closing .round :: kindsFrom .between rest := kindsFrom_cons _ _ _
  rw [List.cons_append, List.append_assoc, List.singleton_append, hopening,
    hs (')' :: rest) (delimited_cons rfl rest), hclosing, List.cons_append, List.append_assoc,
    List.singleton_append]

theorem items {items : List (List Char)} (h : List.Forall₂ (fun s x => Spells s [x]) items xs) :
    Spells (items.flatMap (' ' :: ·)) xs ∧ Delimited (items.flatMap (' ' :: ·)) := by
  induction h with
  | nil => exact ⟨nil, delimited_nil⟩
  | cons hs _ ih =>
    rw [List.flatMap_cons]
    exact ⟨(blank rfl hs).append ih.1 ih.2, delimited_cons rfl _⟩

/-- A list is spelled if the word at its head and its items are. -/
theorem bracketed {items : List (List Char)} (hword : isSymbol word = true)
    (h : List.Forall₂ (fun s x => Spells s [x]) items xs) :
    Spells (bracketed word items) [.list (.symbol word :: xs)] :=
  ((symbol hword).append (Spells.items h).1 (Spells.items h).2).list

theorem blanks {gap : List Char} (hgap : ∀ c ∈ gap, Text.isAsciiBlank c = true) :
    Spells gap [] ∧ Delimited gap := by
  induction gap with
  | nil => exact ⟨nil, delimited_nil⟩
  | cons c gap ih =>
    have hc : Text.isAsciiBlank c = true := hgap c List.mem_cons_self
    refine ⟨blank hc (ih fun d hd => hgap d (List.mem_cons_of_mem _ hd)).1, delimited_cons ?_ gap⟩
    simp [endsAtom, hc]

/-- Spellings that can follow each other may have any white space between them. -/
theorem intercalate {gap : List Char} {parts : List (List Char)}
    (hgap : ∀ c ∈ gap, Text.isAsciiBlank c = true)
    (h : List.Forall₂ (fun s x => Spells s [x] ∧ Delimited s) parts xs) :
    Spells (gap.intercalate parts) xs ∧ Delimited (gap.intercalate parts) := by
  induction h with
  | nil => exact ⟨nil, delimited_nil⟩
  | @cons s x parts xs hs hrest ih =>
    cases hrest with
    | nil => simpa using hs
    | cons _ _ =>
      rw [List.intercalate_cons_cons, List.append_assoc]
      obtain ⟨hblanks, hstart⟩ := blanks hgap
      exact ⟨hs.1.append (hblanks.append ih.1 ih.2) (hstart.append ih.2),
        hs.2.append (hstart.append ih.2)⟩

end Spells

end CheckRegistry.Sexp
