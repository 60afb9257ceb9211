import Mathlib.Data.List.Nodup
import CheckRegistry.Proofs.Declaration
import CheckRegistry.Proofs.Lists.Search

/-! # Where a text fails to hold declarations

A text is put into a list of its own, so that its forms are read as one expression.  The list does
not show: the text is read in it exactly if it is read by itself, as the same expressions
(`wrapping_transparent`).  No bracket of the text closes the list, since a bracket that closes
nothing in the text leaves a list that is too short or one bracket too many.

There are three ways to fail from there, and they come up in this order.  The text is not read; or
one of its expressions has something in it that no declaration has, a quotation or a list in square
brackets; or one of the expressions is no form.  The error should say where: in the source, or in
the form of the source that is the first to be none.  It does in the first case and in the third.
The second is found before the forms are counted, at whatever depth it is and in whatever form, and
its error has no place (`error_located_iff`).
-/

namespace CheckRegistry

namespace Sexp

variable {x : Sexp} {s : String}

/-- An expression has something in it, at any depth, that no declaration has. -/
inductive Foreign : Sexp → Prop
  | brackets (items : List Sexp) : Foreign (.brackets items)
  | quoted (x : Sexp) : Foreign (.quoted x)
  | list {items : List Sexp} {x : Sexp} (mem : x ∈ items) (inner : Foreign x) :
      Foreign (.list items)

/-- The word that an expression is: a symbol or a text. -/
def word? : Sexp → Option String
  | .symbol s => some s
  | .text s => some s
  | _ => none

theorem toValue_eq_text_iff : x.toValue = .ok (.text s) ↔ x.word? = some s := by
  cases x with
  | symbol name => simp [toValue, word?]
  | text s => simp [toValue, word?]
  | list items =>
    rw [toValue]
    cases toValues items with
    | error y => simp [word?, Functor.map, Except.map]
    | ok vs => simp [word?, Functor.map, Except.map]
  | _ => simp [toValue, word?]

theorem toValue_list_isOk_iff {items : List Sexp} :
    (∃ v, toValue (.list items) = .ok v) ↔ ∃ vs, toValues items = .ok vs := by
  rw [toValue]
  cases toValues items with
  | error y => simp [Functor.map, Except.map]
  | ok vs => simp [Functor.map, Except.map]

mutual

/-- An expression has a value exactly if there is nothing foreign in it. -/
theorem toValue_isOk_iff : (x : Sexp) → ((∃ v, x.toValue = .ok v) ↔ ¬ x.Foreign)
  | .symbol name => iff_of_true ⟨_, rfl⟩ nofun
  | .text s => iff_of_true ⟨_, rfl⟩ nofun
  | .int i => iff_of_true ⟨_, rfl⟩ nofun
  | .float f => iff_of_true ⟨_, rfl⟩ nofun
  | .brackets items => iff_of_false nofun (not_not_intro (.brackets items))
  | .quoted y => iff_of_false nofun (not_not_intro (.quoted y))
  | .list items => by
    rw [toValue_list_isOk_iff, toValues_isOk_iff items]
    constructor
    · rintro h (_ | _ | ⟨hmem, hforeign⟩)
      exact h _ hmem hforeign
    · exact fun h y hmem hforeign => h (.list hmem hforeign)

theorem toValues_isOk_iff : (xs : List Sexp) →
    ((∃ vs, toValues xs = .ok vs) ↔ ∀ x ∈ xs, ¬ x.Foreign)
  | [] => iff_of_true ⟨[], rfl⟩ (by simp)
  | x :: xs => by
    rw [List.forall_mem_cons, ← toValue_isOk_iff x, ← toValues_isOk_iff xs]
    constructor
    · rintro ⟨vs, hvs⟩
      obtain ⟨v, ws, hv, hws, rfl⟩ := Declaration.toValues_cons_eq_ok_iff.mp hvs
      exact ⟨⟨v, hv⟩, ws, hws⟩
    · rintro ⟨⟨v, hv⟩, ws, hws⟩
      exact ⟨v :: ws, Declaration.toValues_cons_eq_ok_iff.mpr ⟨v, ws, hv, hws, rfl⟩⟩

end

end Sexp

namespace Declaration

variable {x : Sexp} {xs : List Sexp} {v : Value} {vs : List Value} {text source : String}
  {position : Nat} {e : ParseError}

/-! ## The list around a text -/

/-- **The list around a text does not show.**  The text is read in it exactly if it is read by
itself, in a line of its own, and then as the same expressions in the same order.  What becomes of
the forms after that is a matter of these expressions alone. -/
theorem wrapping_transparent (text source : String) :
    (∀ x, Sexp.readOne (wrapped text) = .ok x ↔ ∃ xs, Reads text xs ∧ x = .list xs) ∧
    (∀ vs, forms text source = .ok vs ↔ ∃ xs, Reads text xs ∧ Sexp.toValues xs = .ok vs) ∧
    (∀ y, forms text source = .error (.unsupported y) ↔
      ∃ xs, Reads text xs ∧ Sexp.toValues xs = .error y) ∧
    ((∃ e, forms text source = .error (.unreadable source e)) ↔ ∀ xs, ¬ Reads text xs) := by
  refine ⟨fun x => readOne_wrapped_iff, fun vs => forms_eq_ok_iff, ?_⟩
  by_cases hread : ∃ xs, Reads text xs
  · obtain ⟨xs, hxs⟩ := hread
    rw [forms_of_reads hxs]
    constructor
    · intro y
      have hvalues : (Sexp.toValues xs).mapError ParseError.unsupported = .error (.unsupported y) ↔
          Sexp.toValues xs = .error y := by
        cases Sexp.toValues xs <;> simp [Except.mapError]
      rw [hvalues]
      constructor
      · intro h
        exact ⟨xs, hxs, h⟩
      · rintro ⟨ys, hys, h⟩
        rwa [hxs.unique hys]
    · refine iff_of_false ?_ (fun h => h xs hxs)
      rintro ⟨e, he⟩
      cases hvs : Sexp.toValues xs with
      | error y => rw [hvs] at he; cases he
      | ok vs => rw [hvs] at he; cases he
  · have hnone := not_exists.mp hread
    obtain ⟨e, he⟩ := forms_of_not_reads hnone source
    rw [he]
    constructor
    · intro y
      refine iff_of_false (fun h => by cases h) ?_
      rintro ⟨xs, hxs, _⟩
      exact hnone xs hxs
    · exact iff_of_true ⟨e, rfl⟩ hnone

/-! ## Forms -/

/-- The key of an entry: the word at the head of a list. -/
def entryKey? : Sexp → Option String
  | .list (x :: _) => x.word?
  | _ => none

/-- **A form**: a list with the right word at its head and entries after it, each with a key, and
no key given twice. -/
inductive IsForm : Sexp → Prop
  | intro {x : Sexp} {entries : List Sexp} {keys : List String} (headed : x.word? = some head)
      (keyed : entries.map entryKey? = keys.map some) (distinct : keys.Nodup) :
      IsForm (.list (x :: entries))

/-- The key of an entry as a value. -/
def valueKey? : Value → Option String
  | .list (.text key :: _) => some key
  | _ => none

theorem valueKey?_eq (h : x.toValue = .ok v) : valueKey? v = entryKey? x := by
  cases x with
  | list items =>
    rw [Sexp.toValue] at h
    cases items with
    | nil =>
      obtain rfl := Except.ok.inj h
      rfl
    | cons y items =>
      cases hvs : Sexp.toValues (y :: items) with
      | error z => rw [hvs] at h; cases h
      | ok vs =>
        rw [hvs] at h
        obtain rfl := Except.ok.inj h
        obtain ⟨w, ws, hw, _, rfl⟩ := toValues_cons_eq_ok_iff.mp hvs
        refine Option.ext fun s => ?_
        rw [entryKey?, ← Sexp.toValue_eq_text_iff, hw, Except.ok.injEq]
        cases w <;> simp [valueKey?]
  | symbol _ | text _ | int _ | float _ =>
    obtain rfl := Except.ok.inj h
    rfl
  | brackets _ | quoted _ => cases h

theorem map_valueKey?_eq (h : Sexp.toValues xs = .ok vs) :
    vs.map valueKey? = xs.map entryKey? := by
  induction xs generalizing vs with
  | nil =>
    obtain rfl := Except.ok.inj h
    rfl
  | cons x xs ih =>
    obtain ⟨v, ws, hv, hws, rfl⟩ := toValues_cons_eq_ok_iff.mp h
    rw [List.map_cons, List.map_cons, valueKey?_eq hv, ih hws]

theorem valueKey?_eq_some_iff {key : String} :
    valueKey? v = some key ↔ ∃ values, v = .list (.text key :: values) := by
  constructor
  · intro h
    unfold valueKey? at h
    split at h
    next k values =>
      obtain rfl := Option.some.inj h
      exact ⟨values, rfl⟩
    · cases h
  · rintro ⟨values, rfl⟩
    rfl

theorem addEntries_of_valueKey?_eq_none (record : Record) (h : valueKey? v = none) :
    addEntries record (v :: vs) = .error (.badEntry v) := by
  rw [addEntries]
  rintro key values rfl
  cases h

/-- Entries are added exactly if each has a key, and none is given twice or is there already. -/
theorem addEntries_isOk_iff {record : Record} : (∃ r, addEntries record vs = .ok r) ↔
    ∃ keys : List String, vs.map valueKey? = keys.map some ∧ keys.Nodup ∧
      ∀ key ∈ keys, key ∉ record.map Prod.fst := by
  induction vs generalizing record with
  | nil => exact iff_of_true ⟨record, rfl⟩ ⟨[], rfl, List.nodup_nil, by simp⟩
  | cons v vs ih =>
    cases hkey : valueKey? v with
    | none =>
      rw [addEntries_of_valueKey?_eq_none record hkey]
      refine iff_of_false (by simp) ?_
      rintro ⟨keys, hkeys, _⟩
      rw [List.map_cons, hkey] at hkeys
      cases keys <;> cases hkeys
    | some key =>
      obtain ⟨values, rfl⟩ := valueKey?_eq_some_iff.mp hkey
      rw [addEntries]
      by_cases hmem : key ∈ record.map Prod.fst
      · rw [if_pos (Lists.isSome_lookup_iff_mem_keys.mpr hmem)]
        refine iff_of_false (by simp) ?_
        rintro ⟨keys, hkeys, _, hfresh⟩
        obtain ⟨k, ks, rfl, hk, _⟩ := List.map_eq_cons_iff.mp hkeys.symm
        obtain rfl := Option.some.inj (hk.trans hkey)
        exact hfresh k List.mem_cons_self hmem
      · rw [if_neg (fun h => hmem (Lists.isSome_lookup_iff_mem_keys.mp h)), ih]
        constructor
        · rintro ⟨keys, hkeys, hnodup, hfresh⟩
          have hnot : key ∉ keys := fun hk => hfresh key hk (by simp)
          refine ⟨key :: keys, ?_, List.nodup_cons.mpr ⟨hnot, hnodup⟩, ?_⟩
          · rw [List.map_cons, hkey, hkeys, List.map_cons]
          · refine List.forall_mem_cons.mpr ⟨hmem, fun k hk hk' => hfresh k hk ?_⟩
            rw [List.map_append]
            exact List.mem_append_left _ hk'
        · rintro ⟨keys, hkeys, hnodup, hfresh⟩
          obtain ⟨k, ks, rfl, hk, hks⟩ := List.map_eq_cons_iff.mp hkeys.symm
          obtain rfl := Option.some.inj (hk.trans hkey)
          obtain ⟨hnot, hnodup⟩ := List.nodup_cons.mp hnodup
          refine ⟨ks, hks.symm, hnodup, fun l hl hl' => ?_⟩
          rw [List.map_append, List.map_singleton, List.mem_append, List.mem_singleton] at hl'
          rcases hl' with hl' | rfl
          · exact hfresh l (List.mem_cons_of_mem _ hl) hl'
          · exact hnot hl

/-- An expression with nothing foreign in it makes a record exactly if it is a form. -/
theorem ofForm_isOk_iff (h : x.toValue = .ok v) : (∃ record, ofForm v = .ok record) ↔ IsForm x := by
  cases x with
  | list items =>
    rw [Sexp.toValue] at h
    cases items with
    | nil =>
      obtain rfl := Except.ok.inj h
      constructor
      · rintro ⟨record, hrecord⟩
        cases hrecord
      · rintro ⟨⟩
    | cons y entries =>
      cases hvs : Sexp.toValues (y :: entries) with
      | error z => rw [hvs] at h; cases h
      | ok vs =>
        rw [hvs] at h
        obtain rfl := Except.ok.inj h
        obtain ⟨w, ws, hw, hws, rfl⟩ := toValues_cons_eq_ok_iff.mp hvs
        have hheaded : w = .text head ↔ y.word? = some head := by
          rw [← Sexp.toValue_eq_text_iff, hw, Except.ok.injEq]
        have hentries : (∃ record, addEntries [] ws = .ok record) ↔
            ∃ keys : List String, entries.map entryKey? = keys.map some ∧ keys.Nodup := by
          rw [addEntries_isOk_iff, map_valueKey?_eq hws]
          simp
        constructor
        · rintro ⟨record, hrecord⟩
          unfold ofForm at hrecord
          split at hrecord
          next s ws' heq =>
            obtain ⟨rfl, rfl⟩ := List.cons.inj (Value.list.inj heq)
            split at hrecord
            next hs =>
              obtain ⟨keys, hkeyed, hdistinct⟩ := hentries.mp ⟨record, hrecord⟩
              exact .intro (hheaded.mp (congrArg Value.text hs)) hkeyed hdistinct
            · cases hrecord
          · cases hrecord
        · rintro ⟨hhead, hkeyed, hdistinct⟩
          obtain rfl := hheaded.mpr hhead
          obtain ⟨record, hrecord⟩ := hentries.mpr ⟨_, hkeyed, hdistinct⟩
          refine ⟨record, ?_⟩
          rw [ofForm, if_pos rfl, hrecord]
  | symbol _ | text _ | int _ | float _ =>
    obtain rfl := Except.ok.inj h
    constructor
    · rintro ⟨record, hrecord⟩
      cases hrecord
    · rintro ⟨⟩
  | brackets _ | quoted _ => cases h

/-! ## Places -/

/-- The position, counted from one, of the first expression that is no form. -/
def FirstNoForm (xs : List Sexp) (n : Nat) : Prop :=
  ∃ before x after, xs = before ++ x :: after ∧ (∀ y ∈ before, IsForm y) ∧ ¬ IsForm x ∧
    n = before.length + 1

/-- The source that an error names, with the form of it where it is about one. -/
def ParseError.source? : ParseError → Option String
  | .unreadable source _ => some source
  | .unsupported _ => none
  | .badForm source position _ => some s!"{source}: form {position}"

/-- Making records ends at the first expression that is no form. -/
theorem ofForms_error_cases (hvs : Sexp.toValues xs = .ok vs)
    (h : ofForms source position vs = .error e) :
    ∃ before x after fault, xs = before ++ x :: after ∧ (∀ y ∈ before, IsForm y) ∧ ¬ IsForm x ∧
      e = .badForm source (position + before.length) fault := by
  induction xs generalizing vs position with
  | nil =>
    obtain rfl := Except.ok.inj hvs
    cases h
  | cons x xs ih =>
    obtain ⟨v, ws, hv, hws, rfl⟩ := toValues_cons_eq_ok_iff.mp hvs
    rw [ofForms] at h
    cases hform : ofForm v with
    | error fault =>
      rw [hform] at h
      obtain rfl := Except.error.inj h
      refine ⟨[], x, xs, fault, rfl, by simp, fun hx => ?_, rfl⟩
      obtain ⟨record, hrecord⟩ := (ofForm_isOk_iff hv).mpr hx
      rw [hrecord] at hform
      cases hform
    | ok record =>
      rw [hform] at h
      cases hrest : ofForms source (position + 1) ws with
      | ok records => rw [hrest] at h; cases h
      | error e' =>
        rw [hrest] at h
        obtain rfl := Except.error.inj h
        obtain ⟨before, y, after, fault, rfl, hbefore, hy, rfl⟩ := ih hws hrest
        refine ⟨x :: before, y, after, fault, rfl, ?_, hy, ?_⟩
        · exact List.forall_mem_cons.mpr ⟨(ofForm_isOk_iff hv).mp ⟨record, hform⟩, hbefore⟩
        · rw [List.length_cons]
          congr 1
          omega

/-- The three ways in which a text fails to hold declarations. -/
theorem parse_error_cases (h : parse text source = .error e) :
    ((∀ xs, ¬ Reads text xs) ∧ ∃ why, e = .unreadable source why) ∨
    ∃ xs, Reads text xs ∧
      ((∃ x ∈ xs, x.Foreign) ∧ (∃ y, e = .unsupported y) ∨
        (∀ x ∈ xs, ¬ x.Foreign) ∧ ∃ n fault, FirstNoForm xs n ∧ e = .badForm source n fault) := by
  rw [parse] at h
  by_cases hread : ∃ xs, Reads text xs
  · obtain ⟨xs, hxs⟩ := hread
    refine .inr ⟨xs, hxs, ?_⟩
    rw [forms_of_reads hxs] at h
    cases hvs : Sexp.toValues xs with
    | error y =>
      rw [hvs] at h
      refine .inl ⟨?_, y, (Except.error.inj h).symm⟩
      by_contra hnone
      obtain ⟨vs, hok⟩ := (Sexp.toValues_isOk_iff xs).mpr fun x hx hforeign =>
        hnone ⟨x, hx, hforeign⟩
      rw [hok] at hvs
      cases hvs
    | ok vs =>
      rw [hvs] at h
      obtain ⟨before, x, after, fault, hsplit, hbefore, hx, rfl⟩ := ofForms_error_cases hvs h
      refine .inr ⟨(Sexp.toValues_isOk_iff xs).mp ⟨vs, hvs⟩, before.length + 1, fault,
        ⟨before, x, after, hsplit, hbefore, hx, rfl⟩, ?_⟩
      rw [Nat.add_comm]
  · have hnone := not_exists.mp hread
    obtain ⟨why, hwhy⟩ := forms_of_not_reads hnone source
    rw [hwhy] at h
    exact .inl ⟨hnone, why, (Except.error.inj h).symm⟩

/-- An error names its place: the source, if the text is not read, and else the form of the source
that is the first to be none. -/
structure Located (text source : String) (e : ParseError) : Prop where
  unread : (∀ xs, ¬ Reads text xs) → e.source? = some source
  read : ∀ xs, Reads text xs → ∃ n, FirstNoForm xs n ∧ e.source? = some s!"{source}: form {n}"

/-- **When an error names its place.**  It does exactly if the text is not read or has nothing
foreign in its expressions.  Otherwise it names no place at all, and its message does not either. -/
theorem error_located_iff (h : parse text source = .error e) :
    (Located text source e ↔ ∀ xs, Reads text xs → ∀ x ∈ xs, ¬ x.Foreign) ∧
    (¬ Located text source e → e.source? = none) ∧
    e.message = labelled (e.source?.getD "") e.reason := by
  rcases parse_error_cases h with ⟨hnone, why, rfl⟩ |
    ⟨xs, hxs, ⟨⟨x, hx, hforeign⟩, y, rfl⟩ | ⟨hclean, n, fault, hn, rfl⟩⟩
  · have hlocated : Located text source (.unreadable source why) :=
      ⟨fun _ => rfl, fun xs hxs => absurd hxs (hnone xs)⟩
    exact ⟨iff_of_true hlocated fun xs hxs => absurd hxs (hnone xs), absurd hlocated, rfl⟩
  · have hlost : ¬ Located text source (.unsupported y) := by
      intro hlocated
      obtain ⟨n, _, hsource⟩ := hlocated.read xs hxs
      cases hsource
    exact ⟨iff_of_false hlost fun hall => hall xs hxs x hx hforeign, fun _ => rfl, rfl⟩
  · have hlocated : Located text source (.badForm source n fault) := by
      refine ⟨fun hnone => absurd hxs (hnone xs), fun ys hys => ?_⟩
      obtain rfl := hxs.unique hys
      exact ⟨n, hn, rfl⟩
    refine ⟨iff_of_true hlocated fun ys hys => ?_, absurd hlocated, rfl⟩
    obtain rfl := hxs.unique hys
    exact hclean

/-- A text whose second form has a key twice. -/
def repeatingText : String := "(bugpattern (name A)) ; first\n(bugpattern (name B) (name C))"

theorem error_located_of_repeated_key :
    parse repeatingText "x.bp" = .error (.badForm "x.bp" 2 (.repeatedKey "name")) ∧
    Located repeatingText "x.bp" (.badForm "x.bp" 2 (.repeatedKey "name")) ∧
    (ParseError.badForm "x.bp" 2 (.repeatedKey "name")).source? = some "x.bp: form 2" := by
  have hparse : parse repeatingText "x.bp" =
      .error (.badForm "x.bp" 2 (.repeatedKey "name")) := by decide +kernel
  have hreads : Reads repeatingText
      [.list [.symbol "bugpattern", .list [.symbol "name", .symbol "A"]],
       .list [.symbol "bugpattern", .list [.symbol "name", .symbol "B"],
         .list [.symbol "name", .symbol "C"]]] := by
    rw [Reads]
    decide +kernel
  refine ⟨hparse, (error_located_iff hparse).1.mpr fun xs hxs => ?_, by decide⟩
  obtain rfl := hreads.unique hxs
  exact (Sexp.toValues_isOk_iff _).mp ⟨_, rfl⟩

/-- A text whose second form has an entry in square brackets. -/
def bracketedText : String := "(bugpattern (name A))\n(bugpattern [name B])"

/-- The second form is the first that is none, and the error does not say so, nor does it name the
source. -/
theorem error_unlocated_of_brackets :
    parse bracketedText "x.bp" =
      .error (.unsupported (.brackets [.symbol "name", .symbol "B"])) ∧
    (∃ xs, Reads bracketedText xs ∧ FirstNoForm xs 2) ∧
    (ParseError.unsupported (.brackets [.symbol "name", .symbol "B"])).source? = none ∧
    ¬ Located bracketedText "x.bp" (.unsupported (.brackets [.symbol "name", .symbol "B"])) := by
  have hreads : Reads bracketedText
      [.list [.symbol "bugpattern", .list [.symbol "name", .symbol "A"]],
       .list [.symbol "bugpattern", .brackets [.symbol "name", .symbol "B"]]] := by
    rw [Reads]
    decide +kernel
  refine ⟨by decide +kernel, ⟨_, hreads, ?_⟩, rfl, fun hlocated => ?_⟩
  · refine ⟨[_], _, [], rfl, ?_, ?_, rfl⟩
    · exact List.forall_mem_singleton.mpr
        (@IsForm.intro _ _ ["name"] rfl rfl (List.nodup_singleton _))
    · rintro ⟨_, hkeyed, _⟩
      obtain ⟨_, _, _, hkey, _⟩ := List.map_eq_cons_iff.mp hkeyed.symm
      cases hkey
  · obtain ⟨n, _, hsource⟩ := hlocated.read _ hreads
    cases hsource

end Declaration

end CheckRegistry
