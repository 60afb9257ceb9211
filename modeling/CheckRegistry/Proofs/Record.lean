import CheckRegistry.Check.Record
import CheckRegistry.Proofs.Lists.Search

/-! # A check's own record

The record of a check has each field once, with a value of the kind that the field takes
(`Field.Takes`), so the reader of records has nothing to refuse and finds in each field what the
check has there.  What holds of the fields one by one is said with the field as a variable:
`Check.value` is the value of any field, and a record lists the values in `Field.listed` order.
-/

namespace CheckRegistry

/-! ## Keys -/

namespace Field

/-- The order in which a record lists the fields. -/
def listed : List Field :=
  [.name, .altNames, .linkType, .link, .tags, .fix, .category, .summary, .explanation, .severity,
   .suppressibility, .annotations, .documentSuppression, .generateExamples]

theorem nodup_listed : listed.Nodup := by decide

theorem mem_listed (f : Field) : f ∈ listed := by
  cases f <;> decide

theorem ofKey?_camelKey (f : Field) : ofKey? f.camelKey = some f := by
  cases f <;> rfl

theorem camelKey_injective : Function.Injective camelKey := by
  intro f g h
  have hfields : some f = some g := by rw [← ofKey?_camelKey f, h, ofKey?_camelKey g]
  exact Option.some.inj hfields

/-- The kinds of values that a declaration can give a field: a set of names, a truth value, or a
text. -/
def Takes (f : Field) (v : Value) : Prop :=
  if f.isMulti then ∃ s, v = .ofNames s
  else if f.isSwitch then ∃ b, v = .bool b
  else ∃ s, v = .text s

end Field

/-! ## Values -/

namespace Vocabulary

variable {α : Type} [Vocabulary α]

/-- The spelling of each word is read as that word, so no two words share one. -/
def Legible (α : Type) [Vocabulary α] : Prop := ∀ a : α, read? (word a) = some a

theorem legible_severity : Legible Severity := by
  intro a
  cases a <;> decide +kernel

theorem legible_linkType : Legible LinkType := by
  intro a
  cases a <;> decide +kernel

theorem legible_fix : Legible Fix := by
  intro a
  cases a <;> decide +kernel

theorem legible_category : Legible Category := by
  intro a
  cases a <;> decide +kernel

theorem legible_suppressibility : Legible Suppressibility := by
  intro a
  cases a <;> decide +kernel

end Vocabulary

namespace Value

theorem asWord_word {α : Type} [Vocabulary α] (h : Vocabulary.Legible α) (ofWord : Word → Option α)
    (a : α) : asWord ofWord (.text (Vocabulary.word a)) = .ok a := by
  rw [asWord, h a]

theorem textItems_map_text (names : List String) : textItems (names.map .text) = .ok names := by
  induction names with
  | nil => rfl
  | cons a names ih =>
    rw [List.map_cons, textItems, ih]
    rfl

theorem asNames_ofNames (s : NameSet) : asNames (.ofNames s) = .ok s := by
  have hitems : asNames (.ofNames s) = NameSet.ofList <$> textItems (s.toList.map .text) := rfl
  rw [hitems, textItems_map_text]
  exact congrArg Except.ok (NameSet.ext fun a => NameSet.mem_ofList)

end Value

/-! ## The record -/

namespace Check

/-- The value that a check has in a field, as its record gives it. -/
def value (c : Check) : Field → Value
  | .name => .text c.name
  | .summary => .text c.summary
  | .severity => .text (Vocabulary.word c.severity)
  | .altNames => .ofNames c.altNames
  | .linkType => .text (Vocabulary.word c.linkType)
  | .link => .text c.link
  | .tags => .ofNames c.tags
  | .fix => .text (Vocabulary.word c.fix)
  | .category => .text (Vocabulary.word c.category)
  | .explanation => .text c.explanation
  | .suppressibility => .text (Vocabulary.word c.suppressibility)
  | .annotations => .ofNames c.annotations
  | .documentSuppression => .bool c.documentSuppression
  | .generateExamples => .bool c.generateExamples

/-- The fields with the values that a check has in them. -/
def entries (c : Check) : List (Field × Value) := Field.listed.map fun f => (f, c.value f)

theorem takes_value (c : Check) (f : Field) : f.Takes (c.value f) := by
  cases f <;> exact ⟨_, rfl⟩

theorem nodup_fields (c : Check) : (c.entries.map Prod.fst).Nodup := by
  rw [entries, List.map_map]
  exact (List.map_id Field.listed).symm ▸ Field.nodup_listed

theorem lookup_entries (c : Check) (f : Field) : c.entries.lookup f = some (c.value f) :=
  (Lists.mem_iff_lookup c.nodup_fields).mp (List.mem_map_of_mem (Field.mem_listed f))

end Check

namespace Record

/-- The record that gives values to fields, each under the field's key with capitals. -/
def ofEntries (entries : List (Field × Value)) : Record :=
  entries.map fun e => (e.1.camelKey, e.2)

theorem toRecord_eq (c : Check) : c.toRecord = ofEntries c.entries := rfl

section

variable {seen entries : List (Field × Value)} {e : Field × Value}

theorem lookup_eq_none_of_nodup (hnodup : ((seen ++ e :: entries).map Prod.fst).Nodup) :
    seen.lookup e.1 = none := by
  rw [List.map_append, List.nodup_append] at hnodup
  rw [List.lookup_eq_none_iff]
  intro p hp
  have hne := hnodup.2.2 p.1 (List.mem_map_of_mem hp) e.1 (by simp)
  exact bne_iff_ne.mpr hne.symm

theorem lookup_ofEntries (f : Field) :
    (ofEntries entries).lookup f.camelKey = entries.lookup f := by
  induction entries with
  | nil => rfl
  | cons e entries ih =>
    have hkey : (f.camelKey == e.1.camelKey) = (f == e.1) := by
      rw [Bool.eq_iff_iff, beq_iff_eq, beq_iff_eq, Field.camelKey_injective.eq_iff]
    rw [ofEntries, List.map_cons, List.lookup_cons, List.lookup_cons, hkey]
    exact congrArg (fun found => bif f == e.1 then some e.2 else found) ih

/-- Each value is assigned to its field if no field has two. -/
theorem assign_ofEntries (label : String) (hnodup : ((seen ++ entries).map Prod.fst).Nodup) :
    assign label seen (ofEntries entries) = .ok (seen ++ entries) := by
  induction entries generalizing seen with
  | nil => rw [List.append_nil]; rfl
  | cons e entries ih =>
    have hnew : seen.lookup e.1 = none := lookup_eq_none_of_nodup hnodup
    rw [List.append_cons] at hnodup ⊢
    rw [← ih hnodup]
    simp only [ofEntries, List.map_cons, assign, Field.ofKey?_camelKey, hnew]
    rfl

end

end Record

namespace Check

section

variable (label : String) (c : Check) (f : Field)

theorem readField_entries {α : Type} {default a : α} {read : Value → Except Fault α}
    (h : read (c.value f) = .ok a) : readField label c.entries f default read = .ok a := by
  rw [readField, c.lookup_entries]
  simp only [h]
  rfl

theorem readField_text {default s : String} (h : c.value f = .text s) :
    readField label c.entries f default Value.asText = .ok s :=
  readField_entries label c f (h ▸ rfl)

theorem readField_optionalText {default s : String} (h : c.value f = .text s) :
    readField label c.entries f default Value.asOptionalText = .ok s :=
  readField_entries label c f (h ▸ rfl)

theorem readField_bool {default b : Bool} (h : c.value f = .bool b) :
    readField label c.entries f default Value.asBool = .ok b :=
  readField_entries label c f (h ▸ rfl)

theorem readField_names {default s : NameSet} (h : c.value f = .ofNames s) :
    readField label c.entries f default Value.asNames = .ok s :=
  readField_entries label c f (h ▸ Value.asNames_ofNames s)

theorem readField_word {α : Type} [Vocabulary α] (hα : Vocabulary.Legible α) {default a : α}
    {ofWord : Word → Option α} (h : c.value f = .text (Vocabulary.word a)) :
    readField label c.entries f default (Value.asWord ofWord) = .ok a :=
  readField_entries label c f (h ▸ Value.asWord_word hα ofWord a)

theorem ofValues_entries : ofValues label c.entries = .ok c := by
  have hseverity : c.entries.lookup .severity = some (.text (Vocabulary.word c.severity)) :=
    c.lookup_entries .severity
  simp only [ofValues, hseverity, readField_text label c .name rfl,
    readField_text label c .summary rfl,
    readField_word label c .severity Vocabulary.legible_severity rfl,
    readField_names label c .altNames rfl,
    readField_word label c .linkType Vocabulary.legible_linkType rfl,
    readField_optionalText label c .link rfl, readField_names label c .tags rfl,
    readField_word label c .fix Vocabulary.legible_fix rfl,
    readField_word label c .category Vocabulary.legible_category rfl,
    readField_optionalText label c .explanation rfl,
    readField_word label c .suppressibility Vocabulary.legible_suppressibility rfl,
    readField_names label c .annotations rfl, readField_bool label c .documentSuppression rfl,
    readField_bool label c .generateExamples rfl]
  rfl

end

/-- **A check is read from its own record** as it is. -/
theorem ofRecord_toRecord (c : Check) : ofRecord c.toRecord = .ok c := by
  have hassign : Record.assign (Record.label c.toRecord) [] c.toRecord = .ok c.entries := by
    rw [Record.toRecord_eq]
    exact Record.assign_ofEntries _ c.nodup_fields
  have hmissing : Record.missing? c.entries = none := by
    simp [Record.missing?, c.lookup_entries]
  simp only [ofRecord, hassign, bind, Except.bind, hmissing]
  exact ofValues_entries _ c

end Check

end CheckRegistry
