import CheckRegistry.Example.Basic

/-! # What goes through as an example

Providers hand over values of any kind, and what a value yields item by item decides whether it is
an example.  There are three answers to give: which example it is (`Reads`), or else what is wrong
(`Blames`), and both are said here without an order of tests.  Each is enough for `ofValue` to come
to it (`ofValue_of_reads`, `ofValue_of_blames`), and one of them holds of every value
(`reads_or_blames`).  As `ofValue` has one result, the three make it exact (`normalised_exactly`).
-/

namespace CheckRegistry.Example

variable {item v : Value} {items : List Value} {snippet source : String} {o : Outcome} {e : Example}
  {check : String} {fault : Fault}

/-! ## Outcomes -/

/-- A value says what a check does with a snippet: it is an outcome, or the lower case name of one
once white space around it and capitals are gone. -/
inductive Says : Value → Outcome → Prop
  | outcome (o : Outcome) : Says (.word (.outcome o)) o
  | positive {s : String} (named : Text.lower (Text.trim s) = "positive") : Says (.text s) .positive
  | negative {s : String} (named : Text.lower (Text.trim s) = "negative") : Says (.text s) .negative

theorem outcome?_text (s : String) : outcome? (.text s) =
    if Text.lower (Text.trim s) = "positive" then some .positive
    else if Text.lower (Text.trim s) = "negative" then some .negative else none := by
  have hpositive : Vocabulary.lowerWord Outcome.positive = "positive" := by decide +kernel
  have hnegative : Vocabulary.lowerWord Outcome.negative = "negative" := by decide +kernel
  simp only [outcome?, Vocabulary.members, List.find?_cons, List.find?_nil, hpositive, hnegative,
    ← beq_iff_eq (a := Text.lower (Text.trim s))]
  split
  next h => rw [if_pos h]
  next h =>
    rw [h, if_neg Bool.false_ne_true]
    cases Text.lower (Text.trim s) == "negative" <;> rfl

theorem outcome?_eq_some_iff : outcome? v = some o ↔ Says v o := by
  constructor
  · intro h
    cases v with
    | text s =>
      rw [outcome?_text] at h
      split at h
      next hpositive =>
        obtain rfl := Option.some.inj h
        exact .positive hpositive
      split at h
      next hnegative =>
        obtain rfl := Option.some.inj h
        exact .negative hnegative
      · cases h
    | word w =>
      cases w with
      | outcome o' =>
        obtain rfl := Option.some.inj h
        exact .outcome _
      | _ => cases h
    | _ => cases h
  · intro h
    cases h with
    | outcome => rfl
    | positive named => rw [outcome?_text, if_pos named]
    | negative named =>
      have hother : ¬ "negative" = "positive" := by decide
      rw [outcome?_text, named, if_neg hother, if_pos rfl]

/-! ## Examples -/

/-- Items that have the parts of an example: a text for the snippet, something for the outcome, and
a text for the source or nothing. -/
inductive Parts : List Value → String → Value → String → Prop
  | pair (snippet : String) (v : Value) : Parts [.text snippet, v] snippet v ""
  | triple (snippet : String) (v : Value) (source : String) :
      Parts [.text snippet, v, .text source] snippet v source

/-- A value goes through as an example. -/
def Reads (item : Value) (e : Example) : Prop :=
  ∃ items v, item.items? = some items ∧ Parts items e.snippet v e.source ∧ Says v e.outcome

/-- What is wrong with a value that is no example. -/
inductive Blames (item : Value) : Fault → Prop
  | notIterable (yields : item.items? = none) : Blames item (.notIterable item.kind)
  | tooFew {items : List Value} (yields : item.items? = some items) (few : items.length < 2) :
      Blames item (.tooFew items.length)
  | tooMany {items : List Value} (yields : item.items? = some items) (many : 3 < items.length) :
      Blames item (.badShape item)
  | noSnippet {first : Value} {others : List Value} (yields : item.items? = some (first :: others))
      (enough : others ≠ []) (noText : ∀ s, first ≠ .text s) : Blames item (.badShape item)
  | noSource {snippet : String} {v third : Value}
      (yields : item.items? = some [.text snippet, v, third]) (noText : ∀ s, third ≠ .text s) :
      Blames item (.badSource third)
  | noOutcome {items : List Value} {snippet source : String} {v : Value}
      (yields : item.items? = some items) (parts : Parts items snippet v source)
      (unknown : ∀ o, ¬ Says v o) : Blames item (.unknownOutcome v)

/-! ## What the reader comes to -/

theorem ofValue_of_items (check : String) (h : item.items? = some items) :
    ofValue item check = (ofItems item items).mapError fun fault => ⟨check, fault⟩ := by
  rw [ofValue, h]

theorem ofItems_of_parts (item : Value) (h : Parts items snippet v source) :
    ofItems item items =
      match outcome? v with
      | some o => .ok ⟨snippet, o, source⟩
      | none => .error (.unknownOutcome v) := by
  cases h <;> rfl

/-- The number of items and the snippet are looked at together. -/
theorem ofItems_of_badShape (item : Value) {first second : Value} {rest : List Value}
    (h : ∀ s, first = .text s → 1 < rest.length) :
    ofItems item (first :: second :: rest) = .error (.badShape item) := by
  rw [ofItems]
  intro s hs hfew
  exact absurd (of_decide_eq_true hfew) (Nat.not_le.mpr (h s hs))

theorem ofValue_of_reads (check : String) (h : Reads item e) : ofValue item check = .ok e := by
  obtain ⟨items, v, hitems, hparts, hsays⟩ := h
  rw [ofValue_of_items check hitems, ofItems_of_parts item hparts,
    outcome?_eq_some_iff.mpr hsays]
  rfl

theorem ofValue_of_blames (check : String) (h : Blames item fault) :
    ofValue item check = .error ⟨check, fault⟩ := by
  cases h with
  | notIterable yields =>
    rw [ofValue, yields]
    rfl
  | @tooFew items yields few =>
    rw [ofValue_of_items check yields]
    rcases items with _ | ⟨first, _ | ⟨second, rest⟩⟩
    · rfl
    · rfl
    · simp only [List.length_cons] at few
      omega
  | @tooMany items yields many =>
    rcases items with _ | ⟨first, _ | ⟨second, rest⟩⟩
    · cases many
    · simp only [List.length_cons, List.length_nil] at many
      omega
    · have hrest : 1 < rest.length := by
        simp only [List.length_cons] at many
        omega
      rw [ofValue_of_items check yields, ofItems_of_badShape item fun _ _ => hrest]
      rfl
  | @noSnippet first others yields enough noText =>
    cases others with
    | nil => exact absurd rfl enough
    | cons second rest =>
      rw [ofValue_of_items check yields,
        ofItems_of_badShape item fun s hs => absurd hs (noText s)]
      rfl
  | @noSource snippet v third yields noText =>
    rw [ofValue_of_items check yields]
    cases third with
    | text s => exact absurd rfl (noText s)
    | _ => rfl
  | @noOutcome items snippet source v yields parts unknown =>
    have hnone : outcome? v = none :=
      Option.eq_none_iff_forall_ne_some.mpr fun o ho => unknown o (outcome?_eq_some_iff.mp ho)
    rw [ofValue_of_items check yields, ofItems_of_parts item parts, hnone]
    rfl

/-- With all its parts, a value is an example unless it says no outcome. -/
theorem reads_or_blames_of_parts (hitems : item.items? = some items)
    (hparts : Parts items snippet v source) :
    (∃ e, Reads item e) ∨ ∃ fault, Blames item fault := by
  cases hsays : outcome? v with
  | some o =>
    exact .inl ⟨⟨snippet, o, source⟩, items, v, hitems, hparts, outcome?_eq_some_iff.mp hsays⟩
  | none =>
    refine .inr ⟨_, .noOutcome hitems hparts fun o ho => ?_⟩
    rw [outcome?_eq_some_iff.mpr ho] at hsays
    cases hsays

/-- Whether a value is a text. -/
theorem eq_text_or_not (v : Value) : (∃ s, v = .text s) ∨ ∀ s, v ≠ .text s := by
  cases v with
  | text s => exact .inl ⟨s, rfl⟩
  | _ => exact .inr nofun

theorem reads_or_blames (item : Value) :
    (∃ e, Reads item e) ∨ ∃ fault, Blames item fault := by
  cases hitems : item.items? with
  | none => exact .inr ⟨_, .notIterable hitems⟩
  | some items =>
    rcases items with _ | ⟨first, _ | ⟨v, rest⟩⟩
    · exact .inr ⟨_, .tooFew hitems Nat.zero_lt_two⟩
    · exact .inr ⟨_, .tooFew hitems Nat.one_lt_two⟩
    rcases eq_text_or_not first with ⟨snippet, rfl⟩ | hfirst
    · rcases rest with _ | ⟨third, _ | ⟨fourth, more⟩⟩
      · exact reads_or_blames_of_parts hitems (.pair snippet v)
      · rcases eq_text_or_not third with ⟨source, rfl⟩ | hthird
        · exact reads_or_blames_of_parts hitems (.triple snippet v source)
        · exact .inr ⟨_, .noSource hitems hthird⟩
      · exact .inr ⟨_, .tooMany hitems (by simp only [List.length_cons]; omega)⟩
    · exact .inr ⟨_, .noSnippet hitems (List.cons_ne_nil _ _) hfirst⟩

theorem ofValue_eq_ok_iff : ofValue item check = .ok e ↔ Reads item e := by
  constructor
  · intro h
    rcases reads_or_blames item with ⟨e', he'⟩ | ⟨fault, hfault⟩
    · obtain rfl := Except.ok.inj (h.symm.trans (ofValue_of_reads check he'))
      exact he'
    · cases h.symm.trans (ofValue_of_blames check hfault)
  · exact ofValue_of_reads check

theorem ofValue_eq_error_iff : ofValue item check = .error ⟨check, fault⟩ ↔ Blames item fault := by
  constructor
  · intro h
    rcases reads_or_blames item with ⟨e, he⟩ | ⟨fault', hfault'⟩
    · cases h.symm.trans (ofValue_of_reads check he)
    · have hsame := Except.error.inj (h.symm.trans (ofValue_of_blames check hfault'))
      obtain rfl : fault = fault' := congrArg Malformed.fault hsame
      exact hfault'
  · exact ofValue_of_blames check

/-- An example goes through as itself. -/
theorem reads_toValue (e : Example) : Reads e.toValue e :=
  ⟨_, _, rfl, .triple e.snippet _ e.source, .outcome e.outcome⟩

/-- **What goes through as an example, exactly.**  Any value, for any check, is read as an example
or refused with an error that names the check.  It is read exactly if it yields a text, an outcome
in one of its spellings, and a text for the source or nothing more; it is refused exactly for what
is wrong with it; and what has been read once is read again without a change. -/
theorem normalised_exactly (item : Value) (check : String) :
    ((∃ e, ofValue item check = .ok e) ∨ ∃ fault, ofValue item check = .error ⟨check, fault⟩) ∧
    (∀ e, ofValue item check = .ok e ↔ Reads item e) ∧
    (∀ fault, ofValue item check = .error ⟨check, fault⟩ ↔ Blames item fault) ∧
    ∀ e : Example, ofValue e.toValue check = .ok e := by
  refine ⟨?_, fun e => ofValue_eq_ok_iff, fun fault => ofValue_eq_error_iff, fun e => ?_⟩
  · rcases reads_or_blames item with ⟨e, he⟩ | ⟨fault, hfault⟩
    · exact .inl ⟨e, ofValue_of_reads check he⟩
    · exact .inr ⟨fault, ofValue_of_blames check hfault⟩
  · exact ofValue_of_reads check (reads_toValue e)

end CheckRegistry.Example
