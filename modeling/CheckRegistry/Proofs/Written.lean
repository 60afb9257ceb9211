import CheckRegistry.Proofs.Declaration
import CheckRegistry.Proofs.Record
import CheckRegistry.Proofs.Spelling

/-! # Writing declarations

A check is written as the form of its own record: every text in quotes, whatever its characters,
and a switch as one of its words.  The form is read as the record (`form_declares`), because each
value that a field takes is among those that its entry can say (`exists_operands`), and the record
is the check (`Check.ofRecord_toRecord`).
-/

namespace CheckRegistry.Declaration

open Sexp (Spells)

/-! ## Forms -/

/-- The word for a setting of a switch. -/
def switchWord (b : Bool) : String := if b then "true" else "false"

/-- A single value as an entry gives it.  The record of a check has only texts and truth values,
alone or in lists. -/
def operand : Value → List Char
  | .text s => Sexp.inQuotes s
  | .bool b => (switchWord b).toList
  | _ => []

/-- The values that an entry gives: the items of a list, or a single value. -/
def operands : Value → List (List Char)
  | .list items => items.map operand
  | v => [operand v]

/-- An entry of a form. -/
def entry (e : String × Value) : List Char := Sexp.bracketed e.1 (operands e.2)

/-- The form of a record. -/
def form (record : Record) : List Char := Sexp.bracketed head (record.map entry)

/-- The forms of checks, one after the other with a text in between. -/
def written (gap : String) (checks : List Check) : String :=
  gap.intercalate (checks.map fun c => String.ofList (form c.toRecord))

/-! ## Entries -/

theorem isSymbol_camelKey (f : Field) : Sexp.isSymbol f.camelKey = true := by
  cases f <;> rfl

theorem isSymbol_head : Sexp.isSymbol head = true := rfl

theorem isSymbol_switchWord (b : Bool) : Sexp.isSymbol (switchWord b) = true := by
  cases b <;> rfl

theorem switchWord?_switchWord (b : Bool) : switchWord? (switchWord b) = some b := by
  cases b <;> rfl

theorem toValues_map_text (names : List String) :
    Sexp.toValues (names.map .text) = .ok (names.map .text) := by
  induction names with
  | nil => rfl
  | cons a names ih => exact toValues_cons_eq_ok_iff.mpr ⟨_, _, rfl, ih, rfl⟩

theorem toValue_list_symbol {word : String} {xs : List Sexp} {vs : List Value}
    (h : Sexp.toValues xs = .ok vs) :
    Sexp.toValue (.list (.symbol word :: xs)) = .ok (.list (.text word :: vs)) := by
  rw [Sexp.toValue, toValues_cons_eq_ok_iff.mpr ⟨_, _, rfl, h, rfl⟩]
  rfl

/-- What an entry gives is read as the value, for each value that the field takes. -/
theorem exists_operands {f : Field} {v : Value} (hv : f.Takes v) :
    ∃ xs vs, List.Forall₂ (fun s x => Spells s [x]) (operands v) xs ∧
      Sexp.toValues xs = .ok vs ∧ entryValue (some f) vs = v := by
  -- the same literal is a list, a truth value or a text, depending on the field it is given to
  rw [Field.Takes] at hv
  split at hv
  next hmulti =>
    obtain ⟨s, rfl⟩ := hv
    refine ⟨s.toList.map .text, s.toList.map .text, ?_, toValues_map_text _, ?_⟩
    · rw [Value.ofNames, operands, List.map_map, List.forall₂_map_left_iff,
        List.forall₂_map_right_iff]
      exact List.forall₂_same.mpr fun a _ => Spells.text a
    · simp [entryValue, hmulti, Value.ofNames]
  next hsingle =>
    split at hv
    next hswitch =>
      obtain ⟨b, rfl⟩ := hv
      refine ⟨[.symbol (switchWord b)], [.text (switchWord b)],
        .cons (Spells.symbol (isSymbol_switchWord b)) .nil, rfl, ?_⟩
      simp [entryValue, hsingle, hswitch, switchWord?_switchWord]
    next htext =>
      obtain ⟨s, rfl⟩ := hv
      refine ⟨[.text s], [.text s], .cons (Spells.text s) .nil, rfl, ?_⟩
      simp [entryValue, hsingle, htext]

example : entry ("tags", .ofNames (.ofList ["b\\", ";"])) = "(tags \";\" \"b\\\\\")".toList := by
  decide +kernel

/-- The entries of a record are read as the record, if it gives each field at most one value. -/
theorem exists_entries {entries : List (Field × Value)} (hfields : ∀ e ∈ entries, e.1.Takes e.2) :
    ∃ xs vs, List.Forall₂ (fun s x => Spells s [x]) ((Record.ofEntries entries).map entry) xs ∧
      Sexp.toValues xs = .ok vs ∧
      ∀ seen, ((seen ++ entries).map Prod.fst).Nodup →
        addEntries (Record.ofEntries seen) vs = .ok (Record.ofEntries (seen ++ entries)) := by
  induction entries with
  | nil => exact ⟨[], [], .nil, rfl, fun seen _ => by rw [List.append_nil]; rfl⟩
  | cons e entries ih =>
    obtain ⟨ys, ws, hspells, hvalues, hvalue⟩ := exists_operands (hfields e List.mem_cons_self)
    obtain ⟨xs, vs, hrest, hvs, hadd⟩ := ih fun d hd => hfields d (List.mem_cons_of_mem _ hd)
    refine ⟨.list (.symbol e.1.camelKey :: ys) :: xs, .list (.text e.1.camelKey :: ws) :: vs,
      .cons (Spells.bracketed (isSymbol_camelKey e.1) hspells) hrest, ?_, fun seen hnodup => ?_⟩
    · exact toValues_cons_eq_ok_iff.mpr ⟨_, _, toValue_list_symbol hvalues, hvs, rfl⟩
    · -- keys are compared as they are spelled, and all are spelled alike
      have hnew : (Record.ofEntries seen).lookup e.1.camelKey = none := by
        rw [Record.lookup_ofEntries]
        exact Record.lookup_eq_none_of_nodup hnodup
      have hseen : Record.ofEntries (seen ++ [e]) =
          Record.ofEntries seen ++ [(e.1.camelKey, e.2)] := by
        simp [Record.ofEntries]
      rw [List.append_cons] at hnodup ⊢
      rw [← hadd _ hnodup, hseen]
      simp [addEntries, hnew, Field.ofKey?_camelKey, hvalue]

/-! ## Texts -/

/-- The form of a check's record is read as the form of that record. -/
theorem form_declares (c : Check) :
    ∃ x, Spells (form c.toRecord) [x] ∧ Declares x c.toRecord := by
  have hfields : ∀ e ∈ c.entries, e.1.Takes e.2 := by
    intro e he
    obtain ⟨f, _, rfl⟩ := List.mem_map.mp he
    exact c.takes_value f
  obtain ⟨xs, vs, hspells, hvs, hadd⟩ := exists_entries hfields
  refine ⟨.list (.symbol head :: xs), Spells.bracketed isSymbol_head hspells,
    .list (.text head :: vs), toValue_list_symbol hvs, ?_⟩
  rw [ofForm, if_pos rfl]
  exact hadd [] c.nodup_fields

theorem forms_declare (checks : List Check) :
    ∃ xs, List.Forall₂ (fun s x => Spells s [x] ∧ Sexp.Delimited s)
        (checks.map fun c => form c.toRecord) xs ∧
      List.Forall₂ Declares xs (checks.map Check.toRecord) := by
  induction checks with
  | nil => exact ⟨[], .nil, .nil⟩
  | cons c checks ih =>
    obtain ⟨x, hx, hdeclares⟩ := form_declares c
    obtain ⟨xs, hxs, hall⟩ := ih
    exact ⟨x :: xs, .cons ⟨hx, Sexp.delimited_bracketed _ _⟩ hxs, .cons hdeclares hall⟩

theorem parse_written_eq {gap : String} (hgap : ∀ c ∈ gap.toList, Text.isAsciiBlank c = true)
    (checks : List Check) (source : String) :
    parse (written gap checks) source = .ok (checks.map Check.toRecord) := by
  obtain ⟨xs, hspells, hdeclares⟩ := forms_declare checks
  have htext : (written gap checks).toList =
      gap.toList.intercalate (checks.map fun c => form c.toRecord) := by
    simp [written, String.toList_intercalate, Function.comp_def]
  refine parse_eq_ok_iff.mpr ⟨xs, ?_, hdeclares⟩
  rw [htext]
  exact (Spells.intercalate hgap hspells).1.denotes

/-- **Writing checks and reading them back** yields the records of the checks, and from them the
checks, whatever the texts in them and whatever the white space between the forms. -/
theorem parse_written (gap : String) (hgap : ∀ c ∈ gap.toList, Text.isAsciiBlank c = true)
    (checks : List Check) (source : String) :
    parse (written gap checks) source = .ok (checks.map Check.toRecord) ∧
      (checks.map Check.toRecord).mapM Check.ofRecord = .ok checks := by
  refine ⟨parse_written_eq hgap checks source, ?_⟩
  induction checks with
  | nil => rfl
  | cons c checks ih =>
    rw [List.map_cons, List.mapM_cons, Check.ofRecord_toRecord, ih]
    rfl

/-- A check whose texts are full of what declarations are written with. -/
def oddCheck : Check where
  name := "(bugpattern \"x\\"
  summary := "ends in a line feed; no comment\n"
  severity := .suggestion
  altNames := .ofList ["", "'", "\\\\", "été)"]
  suppressibility := .unsuppressible
  generateExamples := false

theorem parse_written_of_odd : (∀ c ∈ "\t\n".toList, Text.isAsciiBlank c = true) ∧
    parse (written "\t\n" [oddCheck, oddCheck]) "odd.bp" =
      .ok [oddCheck.toRecord, oddCheck.toRecord] ∧
    [oddCheck.toRecord, oddCheck.toRecord].mapM Check.ofRecord = .ok [oddCheck, oddCheck] :=
  ⟨List.all_eq_true.mp rfl, parse_written "\t\n" (List.all_eq_true.mp rfl) [oddCheck, oddCheck] "odd.bp"⟩

end CheckRegistry.Declaration
