import Mathlib.Data.List.Nodup
import Mathlib.Data.Option.Basic
import CheckRegistry.Proofs.Record

/-! # What a record is read as

`Check.ofRecord` goes through a record key by key, then field by field, and stops at the first
fault.  Here the same is said without any order.  A record describes a check
(`Record.Describes`) if its keys name different fields, the required ones among them, and each
field comes to what the check has there, by what the record gives to it or by default.  A record is
read as the check that it describes and as no other (`ofRecord_eq_ok_iff`).

So the order of the entries and the spelling of the keys mean nothing (`Describes.of_perm`).
A record that describes no check is refused for a fault that it has (`warrants_ofRecord`).
-/

namespace CheckRegistry

/-! ## Fields one by one -/

namespace Field

/-- The spellings of a field's key: with underscores, with capitals, with dashes. -/
def spellings (f : Field) : List String := [f.key, f.camelKey, f.dashedKey]

theorem ofKey?_of_mem_spellings {f : Field} {key : String} (h : key ∈ f.spellings) :
    ofKey? key = some f := by
  simp only [spellings, List.mem_cons, List.not_mem_nil, or_false] at h
  rcases h with rfl | rfl | rfl
  · cases f <;> rfl
  · exact ofKey?_camelKey f
  · cases f <;> rfl

/-- What a value given to a field comes to, as the record of a check shows it: a text, a set of
names, a truth value, or the spelling of a word. -/
def read : Field → Value → Except Fault Value
  | .name, v | .summary, v => .text <$> v.asText
  | .link, v | .explanation, v => .text <$> v.asOptionalText
  | .altNames, v | .tags, v | .annotations, v => .ofNames <$> v.asNames
  | .documentSuppression, v | .generateExamples, v => .bool <$> v.asBool
  | .severity, v =>
    (fun w => .text (Vocabulary.word w)) <$> v.asWord fun | .severity w => some w | _ => none
  | .linkType, v =>
    (fun w => .text (Vocabulary.word w)) <$> v.asWord fun | .linkType w => some w | _ => none
  | .fix, v =>
    (fun w => .text (Vocabulary.word w)) <$> v.asWord fun | .fix w => some w | _ => none
  | .category, v =>
    (fun w => .text (Vocabulary.word w)) <$> v.asWord fun | .category w => some w | _ => none
  | .suppressibility, v =>
    (fun w => .text (Vocabulary.word w)) <$>
      v.asWord fun | .suppressibility w => some w | _ => none

/-- What a field comes to: what is given to it, if anything is, or what a check has there that
declares nothing. -/
def comesTo (f : Field) : Option Value → Except Fault Value
  | none => .ok (Check.value { name := "", summary := "", severity := .error } f)
  | some v => f.read v

end Field

namespace Check

/-- What reading the values of all fields comes to: a check that has in each field what the field
comes to, or an error about a field that comes to nothing, or about a severity that is left open. -/
inductive Reading (label : String) (values : List (Field × Value)) :
    Except Malformed Check → Prop
  | check (c : Check) (fields : ∀ f : Field, f.comesTo (values.lookup f) = .ok (c.value f)) :
    Reading label values (.ok c)
  | fault (f : Field) (fault : Fault) (field : f.comesTo (values.lookup f) = .error fault) :
    Reading label values (.error ⟨f.key, fault, label⟩)
  | openSeverity (severity : values.lookup .severity = some .none) :
    Reading label values (.error ⟨Field.severity.key, .missing, label⟩)

section

variable {label : String} {values : List (Field × Value)} {f : Field} {c : Check}

/-- One field is read before others: as what it comes to, or not at all. -/
theorem Reading.bind {α : Type} (encode : α → Value) {default : α}
    {read : Value → Except Fault α} {next : α → Except Malformed Check}
    (hdefault : f.comesTo none = .ok (encode default))
    (hread : ∀ v, f.read v = encode <$> read v)
    (hnext : ∀ a, f.comesTo (values.lookup f) = .ok (encode a) → Reading label values (next a)) :
    Reading label values (readField label values f default read >>= next) := by
  rw [readField]
  cases hgiven : values.lookup f with
  | none => exact hnext default (hgiven ▸ hdefault)
  | some v =>
    have hv : f.comesTo (values.lookup f) = encode <$> read v := by
      rw [hgiven, Field.comesTo, hread]
    show Reading label values ((read v).mapError _ >>= next)
    cases hresult : read v with
    | error fault => exact .fault f fault (by rw [hv, hresult]; rfl)
    | ok a => exact hnext a (by rw [hv, hresult]; rfl)

theorem reading_ofValues (label : String) (values : List (Field × Value)) :
    Reading label values (ofValues label values) := by
  rw [ofValues]
  refine .bind .text rfl (fun _ => rfl) fun name hname => ?_
  dsimp only
  split
  · next hseverity => exact .openSeverity hseverity
  refine .bind .text rfl (fun _ => rfl) fun summary hsummary => ?_
  refine .bind (fun w => .text (Vocabulary.word w)) rfl (fun _ => rfl) fun severity hseverity => ?_
  refine .bind .ofNames rfl (fun _ => rfl) fun altNames haltNames => ?_
  refine .bind (fun w => .text (Vocabulary.word w)) rfl (fun _ => rfl) fun linkType hlinkType => ?_
  refine .bind .text rfl (fun _ => rfl) fun link hlink => ?_
  refine .bind .ofNames rfl (fun _ => rfl) fun tags htags => ?_
  refine .bind (fun w => .text (Vocabulary.word w)) rfl (fun _ => rfl) fun fix hfix => ?_
  refine .bind (fun w => .text (Vocabulary.word w)) rfl (fun _ => rfl) fun category hcategory => ?_
  refine .bind .text rfl (fun _ => rfl) fun explanation hexplanation => ?_
  refine .bind (fun w => .text (Vocabulary.word w)) rfl (fun _ => rfl)
    fun suppressibility hsuppressibility => ?_
  refine .bind .ofNames rfl (fun _ => rfl) fun annotations hannotations => ?_
  refine .bind .bool rfl (fun _ => rfl) fun documentSuppression hdocumentSuppression => ?_
  refine .bind .bool rfl (fun _ => rfl) fun generateExamples hgenerateExamples => ?_
  refine .check _ fun f => ?_
  cases f <;> assumption

end

end Check

/-! ## Whole records -/

namespace Record

variable {r r' m : Record} {c c' : Check} {e : Malformed} {seen values : List (Field × Value)}
  {label : String}

/-- The entries of a record under the fields that their keys name, where they name one. -/
def named (r : Record) : List (Option Field × Value) := r.map fun e => (Field.ofKey? e.1, e.2)

/-- What a record gives to a field, under any spelling of its key. -/
def given? (r : Record) (f : Field) : Option Value := r.named.lookup (some f)

/-- A record describes a check: its keys name different fields, the required ones among them, and
each field comes to what the check has there. -/
structure Describes (r : Record) (c : Check) : Prop where
  known : none ∉ r.named.map Prod.fst
  once : (r.named.map Prod.fst).Nodup
  required : ∀ f ∈ Field.required, r.given? f ≠ none
  fields : ∀ f : Field, f.comesTo (r.given? f) = .ok (c.value f)

/-- What can be wrong with a record, and the error that says so under the name that the record
declares. -/
inductive Blames (r : Record) : Malformed → Prop
  | unknown {key : String} {v : Value} (entry : (key, v) ∈ r)
      (nameless : Field.ofKey? key = none) : Blames r ⟨key, .unknownField, r.label⟩
  | repeated {before after : Record} {key : String} {v : Value} {f : Field}
      (entry : r = before ++ (key, v) :: after) (names : Field.ofKey? key = some f)
      (earlier : some f ∈ before.named.map Prod.fst) : Blames r ⟨key, .repeated, r.label⟩
  | missing {f : Field} (required : f ∈ Field.required) (absent : r.given? f = none) :
      Blames r ⟨f.key, .missing, r.label⟩
  | openSeverity (given : r.given? .severity = some .none) :
      Blames r ⟨Field.severity.key, .missing, r.label⟩
  | refused {f : Field} {v : Value} {fault : Fault} (given : r.given? f = some v)
      (unread : f.read v = .error fault) : Blames r ⟨f.key, fault, r.label⟩

/-! ### Assigning values to fields -/

theorem lookup_some (entries : List (Field × Value)) (f : Field) :
    (entries.map fun x => (some x.1, x.2)).lookup (some f) = entries.lookup f := by
  induction entries with
  | nil => rfl
  | cons x entries ih =>
    rw [List.map_cons, List.lookup_cons, List.lookup_cons, ih]
    rfl

/-- A record whose values can be assigned names a field with each key, and no field twice. -/
theorem named_of_assign_ok (hseen : (seen.map Prod.fst).Nodup)
    (h : assign label seen r = .ok values) :
    ∃ entries, values = seen ++ entries ∧ (values.map Prod.fst).Nodup ∧
      r.named = entries.map fun x => (some x.1, x.2) := by
  induction r generalizing seen with
  | nil =>
    obtain rfl := Except.ok.inj h
    exact ⟨[], (List.append_nil _).symm, hseen, rfl⟩
  | cons entry rest ih =>
    obtain ⟨key, v⟩ := entry
    rw [assign] at h
    cases hkey : Field.ofKey? key with
    | none => simp [hkey] at h
    | some f =>
      simp only [hkey] at h
      split at h
      · cases h
      · next hnew =>
        rw [Lists.isSome_lookup_iff_mem_keys] at hnew
        have hseen' : ((seen ++ [(f, v)]).map Prod.fst).Nodup := by
          rw [List.map_append, List.map_singleton, List.nodup_append]
          refine ⟨hseen, List.pairwise_singleton _ f, ?_⟩
          rintro g hg _ hf rfl
          obtain rfl := List.mem_singleton.mp hf
          exact hnew hg
        obtain ⟨entries, rfl, hnodup, hnamed⟩ := ih hseen' h
        refine ⟨(f, v) :: entries, List.append_assoc _ _ _, hnodup, ?_⟩
        rw [named, List.map_cons, ← named, hnamed, hkey, List.map_cons]

theorem assign_error_cases (h : assign label seen r = .error e) :
    ∃ (before : Record) (key : String) (v : Value) (after : Record),
      r = before ++ (key, v) :: after ∧
      (Field.ofKey? key = none ∧ e = ⟨key, .unknownField, label⟩ ∨
      ∃ f, Field.ofKey? key = some f ∧
        (f ∈ seen.map Prod.fst ∨ some f ∈ before.named.map Prod.fst) ∧
        e = ⟨key, .repeated, label⟩) := by
  induction r generalizing seen with
  | nil => cases h
  | cons entry rest ih =>
    obtain ⟨key, v⟩ := entry
    rw [assign] at h
    cases hkey : Field.ofKey? key with
    | none =>
      simp only [hkey] at h
      exact ⟨[], key, v, rest, rfl, Or.inl ⟨hkey, (Except.error.inj h).symm⟩⟩
    | some f =>
      simp only [hkey] at h
      split at h
      · next hold =>
        exact ⟨[], key, v, rest, rfl, Or.inr ⟨f, hkey, Or.inl (Lists.isSome_lookup_iff_mem_keys.mp hold),
          (Except.error.inj h).symm⟩⟩
      · obtain ⟨before, key', v', after, rfl, hfault⟩ := ih h
        refine ⟨(key, v) :: before, key', v', after, rfl, ?_⟩
        rcases hfault with hunknown | ⟨g, hkey', hearlier, he⟩
        · exact Or.inl hunknown
        refine Or.inr ⟨g, hkey', ?_, he⟩
        -- the entry that was assigned here is now among those before
        rw [named, List.map_cons, List.map_cons, List.mem_cons, hkey, Option.some_inj]
        rw [List.map_append, List.mem_append, List.map_singleton, List.mem_singleton] at hearlier
        rcases hearlier with (hseen | hg) | hbefore
        · exact Or.inl hseen
        · exact Or.inr (Or.inl hg)
        · exact Or.inr (Or.inr hbefore)

/-! ### Either outcome -/

/-- An outcome that a record may have: a check that it describes, or an error about a fault of
it. -/
def Warrants (r : Record) : Except Malformed Check → Prop
  | .ok c => r.Describes c
  | .error e => r.Blames e

theorem blames_of_assign_error (h : assign r.label [] r = .error e) : r.Blames e := by
  obtain ⟨before, key, v, after, hr, ⟨hkey, rfl⟩ | ⟨f, hkey, hearlier, rfl⟩⟩ :=
    assign_error_cases h
  · have hmem : (key, v) ∈ r := hr ▸ List.mem_append_right _ List.mem_cons_self
    exact .unknown hmem hkey
  · exact .repeated hr hkey (hearlier.resolve_left List.not_mem_nil)

theorem given?_of_assign_ok (h : assign label [] r = .ok values) (f : Field) :
    r.given? f = values.lookup f := by
  obtain ⟨_, rfl, _, hnamed⟩ := named_of_assign_ok (by simp) h
  rw [given?, hnamed]
  exact lookup_some _ f

theorem warrants_ofValues (hassign : assign r.label [] r = .ok values)
    (hmissing : missing? values = none) : r.Warrants (Check.ofValues r.label values) := by
  have hgiven := given?_of_assign_ok hassign
  obtain ⟨_, rfl, hnodup, hnamed⟩ := named_of_assign_ok (by simp) hassign
  have hreading := Check.reading_ofValues r.label values
  generalize Check.ofValues r.label values = outcome at hreading
  cases hreading with
  | openSeverity hseverity => exact .openSeverity ((hgiven _).trans hseverity)
  | fault f fault hfield =>
    cases hf : values.lookup f with
    | none => rw [hf] at hfield; cases hfield
    | some v =>
      rw [hf] at hfield
      exact .refused ((hgiven f).trans hf) hfield
  | check c hfields =>
    refine ⟨?_, ?_, ?_, fun f => (hgiven f).symm ▸ hfields f⟩
    · rw [hnamed, List.map_map]
      simp
    · rw [hnamed, List.map_map]
      have hsome := hnodup.map (Option.some_injective Field)
      rwa [List.map_map] at hsome
    · intro f hf hnone
      have hhas := List.find?_eq_none.mp hmissing f hf
      rw [hgiven] at hnone
      simp [hnone] at hhas

/-- **Every record is read or refused**, and for a good reason. -/
theorem warrants_ofRecord (r : Record) : r.Warrants (Check.ofRecord r) := by
  rw [Check.ofRecord]
  cases hassign : assign r.label [] r with
  | error e => exact blames_of_assign_error hassign
  | ok values =>
    simp only [bind, Except.bind]
    cases hmissing : missing? values with
    | none => exact warrants_ofValues hassign hmissing
    | some f =>
      have habsent := List.find?_some hmissing
      refine .missing (List.mem_of_find?_eq_some hmissing) ?_
      rw [given?_of_assign_ok hassign]
      exact Option.isNone_iff_eq_none.mp habsent

/-- A record that describes a check has no fault. -/
theorem Describes.not_blames (h : r.Describes c) : ¬ r.Blames e := by
  rintro (⟨hentry, hkey⟩ | ⟨rfl, hkey, hearlier⟩ | ⟨hrequired, habsent⟩ | hgiven |
    @⟨f, v, _, hgiven, hbad⟩)
  · refine h.known (List.mem_map.mpr ⟨_, List.mem_map_of_mem hentry, ?_⟩)
    exact hkey
  · have honce := h.once
    rw [named, List.map_append, List.map_append, List.nodup_append] at honce
    refine honce.2.2 _ hearlier _ List.mem_cons_self hkey.symm
  · exact h.required _ hrequired habsent
  · have hseverity := h.fields .severity
    rw [hgiven] at hseverity
    cases hseverity
  · have hfield := h.fields f
    rw [hgiven] at hfield
    cases hbad.symm.trans hfield

/-- A record describes at most one check. -/
theorem Describes.unique (h : r.Describes c) (h' : r.Describes c') : c = c' := by
  have hvalue : c.value = c'.value := by
    funext f
    exact Except.ok.inj ((h.fields f).symm.trans (h'.fields f))
  have hrecord : c.toRecord = c'.toRecord := by
    rw [toRecord_eq, toRecord_eq, Check.entries, Check.entries, hvalue]
  have hread := (Check.ofRecord_toRecord c).symm.trans (hrecord ▸ Check.ofRecord_toRecord c')
  exact Except.ok.inj hread

theorem ofRecord_eq_ok_iff : Check.ofRecord r = .ok c ↔ r.Describes c := by
  have hwarrants := warrants_ofRecord r
  cases hread : Check.ofRecord r with
  | error e =>
    rw [hread] at hwarrants
    exact iff_of_false nofun fun h => h.not_blames hwarrants
  | ok c' =>
    rw [hread] at hwarrants
    constructor
    · intro h
      exact Except.ok.inj h ▸ hwarrants
    · intro h
      rw [h.unique hwarrants]

/-! ### Other spellings, other orders -/

/-- The same entry under a key that names the same field. -/
def Respells (entry entry' : String × Value) : Prop :=
  Field.ofKey? entry'.1 = Field.ofKey? entry.1 ∧ entry'.2 = entry.2

theorem named_of_respells (h : List.Forall₂ Respells r m) : m.named = r.named := by
  induction h with
  | nil => rfl
  | cons hentry _ ih =>
    rw [named, List.map_cons, ← named, ih, hentry.1, hentry.2]
    rfl

theorem given?_of_perm (honce : (r.named.map Prod.fst).Nodup) (hperm : r'.named.Perm r.named)
    (f : Field) : r'.given? f = r.given? f := by
  have honce' : (r'.named.map Prod.fst).Nodup := (hperm.map Prod.fst).nodup_iff.mpr honce
  refine Option.ext fun v => ?_
  rw [given?, given?, ← Lists.mem_iff_lookup honce, ← Lists.mem_iff_lookup honce', hperm.mem_iff]

/-- What a record describes depends neither on the order of its entries nor on the spelling of its
keys. -/
theorem Describes.of_perm (h : r.Describes c) (hperm : r'.named.Perm r.named) :
    r'.Describes c := by
  have hkeys := hperm.map Prod.fst
  have hgiven := given?_of_perm h.once hperm
  refine ⟨?_, hkeys.nodup_iff.mpr h.once, ?_, ?_⟩
  · rw [hkeys.mem_iff]
    exact h.known
  · intro f hf
    rw [hgiven]
    exact h.required f hf
  · intro f
    rw [hgiven]
    exact h.fields f

/-- **Reading is faithful.**  Each field has three spellings.  A record that is read is read the
same when its entries are given in another order and under other spellings, and so is the record of
the check that it is read as.  Every record is read as a check that it describes, or refused for a
fault that it has. -/
theorem reading_faithful (r : Record) :
    (∀ f : Field, ∀ key ∈ f.spellings, Field.ofKey? key = some f) ∧
    (∀ c, Check.ofRecord r = .ok c → Check.ofRecord c.toRecord = .ok c ∧
      ∀ respelled reordered, List.Forall₂ Respells r respelled → reordered.Perm respelled →
        Check.ofRecord reordered = .ok c) ∧
    ((∃ c, Check.ofRecord r = .ok c ∧ r.Describes c ∧ ∀ f : Field, f.Takes (c.value f)) ∨
      ∃ e, Check.ofRecord r = .error e ∧ r.Blames e) := by
  refine ⟨fun f key hkey => Field.ofKey?_of_mem_spellings hkey, ?_, ?_⟩
  · intro c hread
    refine ⟨Check.ofRecord_toRecord c, ?_⟩
    intro respelled reordered hrespelled hreordered
    have hperm : reordered.named.Perm r.named := by
      rw [← named_of_respells hrespelled]
      exact hreordered.map _
    exact ofRecord_eq_ok_iff.mpr ((ofRecord_eq_ok_iff.mp hread).of_perm hperm)
  · have hwarrants := warrants_ofRecord r
    cases hread : Check.ofRecord r with
    | error e =>
      rw [hread] at hwarrants
      exact Or.inr ⟨e, rfl, hwarrants⟩
    | ok c =>
      rw [hread] at hwarrants
      exact Or.inl ⟨c, rfl, hwarrants, c.takes_value⟩

/-- A record with keys of all three spellings and values that are not in their normal form. -/
def mixedRecord : Record :=
  [("alt-names", .list [.text "b", .text "a", .text "b"]), ("name", .text "A"),
   ("link_type", .text " None "), ("severity", .word (.severity .error)),
   ("explanation", .none), ("summary", .text "Compares unlike values")]

/-- The same entries under other spellings. -/
def respelledRecord : Record :=
  [("altNames", .list [.text "b", .text "a", .text "b"]), ("name", .text "A"),
   ("link-type", .text " None "), ("severity", .word (.severity .error)),
   ("explanation", .none), ("summary", .text "Compares unlike values")]

theorem reading_faithful_of_mixed :
    ∃ c, Check.ofRecord mixedRecord = .ok c ∧ c.altNames.toList = ["a", "b"] ∧
      Check.ofRecord c.toRecord = .ok c ∧
      List.Forall₂ Respells mixedRecord respelledRecord ∧
      respelledRecord.reverse.Perm respelledRecord ∧
      Check.ofRecord respelledRecord.reverse = .ok c := by
  have hread : Check.ofRecord mixedRecord =
      .ok { name := "A", summary := "Compares unlike values", severity := .error,
            altNames := .ofList ["a", "b"], linkType := .none } := by decide +kernel
  have hspelled : List.Forall₂ Respells mixedRecord respelledRecord :=
    .cons ⟨by decide, rfl⟩ (.cons ⟨rfl, rfl⟩ (.cons ⟨by decide, rfl⟩ (.cons ⟨rfl, rfl⟩
      (.cons ⟨rfl, rfl⟩ (.cons ⟨rfl, rfl⟩ .nil)))))
  obtain ⟨hself, hother⟩ := (reading_faithful mixedRecord).2.1 _ hread
  exact ⟨_, hread, rfl, hself, hspelled, List.reverse_perm _,
    hother _ _ hspelled (List.reverse_perm _)⟩

end Record

end CheckRegistry
