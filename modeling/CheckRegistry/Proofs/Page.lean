import Mathlib.Tactic.ByContra
import CheckRegistry.Page.Catalog
import CheckRegistry.Proofs.Example
import CheckRegistry.Proofs.Utf8

/-! # Which pages can be made

The page of a check takes a link and examples.  A link is missing only if it is to be made from
the name and the name does not allow it.  Examples come from a table, where an item may be
malformed, or from fixtures, where a file may hold no text, or the path to them be too long to be
looked up.  One bad item is enough, for examples are read before a line of the page is put together;
and nothing else can go wrong (`pageText_isOk_iff`).
-/

namespace CheckRegistry

variable {t : FileTree} {cwd : Place} {check : String} {c : Check} {site : String}
  {provider : Option Provider}

/-! ## Examples -/

theorem mapError_isOk_iff {α ε ε' : Type} {x : Except ε α} (f : ε → ε') :
    (∃ a, x.mapError f = .ok a) ↔ ∃ a, x = .ok a := by
  cases x with
  | error e => simp [Except.mapError]
  | ok a => simp [Except.mapError]

namespace Example

/-- A value goes through as an example: a text, then an outcome in any of its spellings, then a
text for the source or nothing. -/
inductive WellFormed (item : Value) : Prop
  | pair {snippet : String} {outcome : Value} {o : Outcome}
      (items : item.items? = some [.text snippet, outcome]) (known : outcome? outcome = some o)
  | triple {snippet source : String} {outcome : Value} {o : Outcome}
      (items : item.items? = some [.text snippet, outcome, .text source])
      (known : outcome? outcome = some o)

theorem ofValue_isOk_iff (check : String) {item : Value} :
    (∃ e, ofValue item check = .ok e) ↔ WellFormed item := by
  simp only [ofValue_eq_ok_iff]
  constructor
  · rintro ⟨⟨snippet, o, source⟩, items, v, hitems, hparts, hsays⟩
    have hknown := outcome?_eq_some_iff.mpr hsays
    cases hparts with
    | pair => exact .pair hitems hknown
    | triple => exact .triple hitems hknown
  · rintro (@⟨snippet, v, o, hitems, hknown⟩ | @⟨snippet, source, v, o, hitems, hknown⟩)
    · exact ⟨⟨snippet, o, ""⟩, _, v, hitems, .pair snippet v, outcome?_eq_some_iff.mp hknown⟩
    · exact ⟨⟨snippet, o, source⟩, _, v, hitems, .triple snippet v source,
        outcome?_eq_some_iff.mp hknown⟩

/-- Values are read as examples if each of them is one. -/
theorem ofValues_isOk_iff {items : List Value} :
    (∃ es, ofValues check items = .ok es) ↔ ∀ item ∈ items, WellFormed item := by
  induction items with
  | nil => simp [ofValues]
  | cons item rest ih =>
    rw [List.forall_mem_cons, ← ih, ← ofValue_isOk_iff check, ofValues]
    cases ofValue item check with
    | error e => simp [bind, Except.bind]
    | ok first =>
      cases ofValues check rest with
      | error e => simp [bind, Except.bind]
      | ok others => simp [bind, Except.bind, pure, Except.pure]

end Example

namespace Fixture

theorem Found.read_isOk_iff {f : Found} : (∃ e, f.read = .ok e) ↔ ∃ s, Utf8.encode s = f.bytes := by
  rw [Found.read]
  cases htext : textOfBytes f.bytes with
  | error e =>
    have hnone := exists_textOfBytes_error_iff.mp ⟨e, htext⟩
    simp [Except.map, hnone]
  | ok text =>
    obtain ⟨s, hs, _⟩ := textOfBytes_eq_ok_iff.mp htext
    simp only [Except.map, Except.ok.injEq, exists_eq', true_iff]
    exact ⟨s, hs⟩

theorem readAll_isOk_iff {found : List Found} :
    (∃ es, readAll found = .ok es) ↔ ∀ f ∈ found, ∃ s, Utf8.encode s = f.bytes := by
  induction found with
  | nil => simp [readAll]
  | cons f rest ih =>
    rw [List.forall_mem_cons, ← ih, ← Found.read_isOk_iff, readAll]
    cases f.read with
    | error e => simp [bind, Except.bind]
    | ok first =>
      cases readAll rest with
      | error e => simp [bind, Except.bind]
      | ok others => simp [bind, Except.bind, pure, Except.pure]

/-- Fixtures are read if each of them is a text, on either side of the page. -/
theorem examples_isOk_iff {place : Place} {suffixes : Option (List String)} :
    (∃ es, examples t place suffixes check = .ok es) ↔
      ∀ f ∈ find t place suffixes check, ∃ s, Utf8.encode s = f.bytes := by
  rw [examples, readAll_isOk_iff]
  refine forall_congr' fun f => imp_congr_left ?_
  rw [List.mem_append, List.mem_filter, List.mem_filter, ← and_or_left]
  refine and_iff_left ?_
  cases f.outcome with
  | positive => exact Or.inl rfl
  | negative => exact Or.inr rfl

end Fixture

namespace Provider

/-- Something that a provider yields for a check is no example, or the system does not even look
for what it yields. -/
inductive Spoilt (t : FileTree) (cwd : Place) (check : String) : Provider → Prop
  | malformed {entries : List (String × List Value)} {items : List Value} {item : Value}
      (given : entries.reverse.lookup check = some items) (mem : item ∈ items)
      (bad : ¬ Example.WellFormed item) : Spoilt t cwd check (.table entries)
  | undecodable {root : Path} {place : Place} {suffixes : Option (List String)}
      {f : Fixture.Found} (leads : t.locate cwd root = .ok place)
      (isDirectory : t.isDirectory place = true)
      (mem : f ∈ Fixture.find t place suffixes check)
      (bad : ∀ s, Utf8.encode s ≠ f.bytes) : Spoilt t cwd check (.fixtures root suffixes)
  | refused {root : Path} {suffixes : Option (List String)} {path : String}
      (long : t.locate cwd root = .error (.nameTooLong path)) :
      Spoilt t cwd check (.fixtures root suffixes)

theorem spoilt_table_iff {entries : List (String × List Value)} :
    (table entries).Spoilt t cwd check ↔
      ∃ item ∈ (entries.reverse.lookup check).getD [], ¬ Example.WellFormed item := by
  constructor
  · rintro ⟨hgiven, hmem, hbad⟩
    exact ⟨_, hgiven ▸ hmem, hbad⟩
  · rintro ⟨item, hmem, hbad⟩
    cases hgiven : entries.reverse.lookup check with
    | none => rw [hgiven] at hmem; cases hmem
    | some items =>
      rw [hgiven] at hmem
      exact .malformed hgiven hmem hbad

/-- Fixtures are spoilt if the root is refused, or leads to a directory with one that is no text. -/
theorem spoilt_fixtures_iff {root : Path} {suffixes : Option (List String)} :
    (fixtures root suffixes).Spoilt t cwd check ↔
      (∃ e, fixtureRoot? t cwd root = .error e) ∨
        ∃ place, fixtureRoot? t cwd root = .ok (some place) ∧
          ∃ f ∈ Fixture.find t place suffixes check, ∀ s, Utf8.encode s ≠ f.bytes := by
  constructor
  · rintro (_ | ⟨hleads, hdir, hmem, hbad⟩ | hlong)
    · refine Or.inr ⟨_, ?_, _, hmem, hbad⟩
      rw [fixtureRoot?, hleads]
      simp only [hdir, ite_true]
    · exact Or.inl ⟨_, by rw [fixtureRoot?, hlong]⟩
  · rw [fixtureRoot?]
    cases hlocate : t.locate cwd root with
    | error e =>
      -- one kind of error refuses the path; by the others there are no fixtures
      cases e with
      | nameTooLong path => exact fun _ => .refused hlocate
      | _ => simp
    | ok p =>
      by_cases hdir : t.isDirectory p = true
      · simp only [hdir, ite_true, reduceCtorEq, exists_false, false_or, Except.ok.injEq,
          Option.some.injEq, exists_eq_left']
        rintro ⟨f, hmem, hbad⟩
        exact .undecodable hlocate hdir hmem hbad
      · simp [hdir]

/-- A provider has the examples of a check unless one of them is bad or it cannot look for them. -/
theorem examples_isOk_iff (p : Provider) (check : String) :
    (∃ es, p.examples t cwd check = .ok es) ↔ ¬ p.Spoilt t cwd check := by
  cases p with
  | none => exact iff_of_true ⟨[], rfl⟩ nofun
  | table entries =>
    rw [Provider.examples, mapError_isOk_iff, Example.ofValues_isOk_iff, spoilt_table_iff]
    simp only [not_exists, not_and, not_not]
  | fixtures root suffixes =>
    rw [Provider.examples, spoilt_fixtures_iff]
    cases fixtureRoot? t cwd root with
    | error e => simp
    | ok place? =>
      cases place? with
      | none => simp
      | some place => simp [mapError_isOk_iff, Fixture.examples_isOk_iff]

end Provider

/-! ## Pages -/

/-- A check has no link: it should have one made from its name, and the name does not allow it. -/
def Check.Linkless (c : Check) (site : String) : Prop :=
  c.linkType = .autogenerated ∧ ∃ e, Link.canonical site c.name = .error e

theorem Check.link?_isOk_iff : (∃ link, c.link? site = .ok link) ↔ ¬ c.Linkless site := by
  rw [Check.link?, Check.Linkless]
  cases c.linkType with
  | none => simp
  | custom => simp
  | autogenerated =>
    cases Link.canonical site c.name with
    | error e => simp [Functor.map, Except.map]
    | ok url => simp [Functor.map, Except.map]

/-- A check wants examples, and its provider has bad ones or cannot look for them. -/
def Check.Unexemplified (c : Check) (provider : Option Provider) (t : FileTree) (cwd : Place) :
    Prop :=
  c.generateExamples = true ∧ ∃ p, provider = some p ∧ p.Spoilt t cwd c.name

/-- **Which pages can be made.**  Those of checks that have a link or want none, and whose
examples, if they want some, are good. -/
theorem Catalog.pageText_isOk_iff :
    (∃ text, pageText provider site cwd t c = .ok text) ↔
      ¬ (c.Linkless site ∨ c.Unexemplified provider t cwd) := by
  rw [not_or, ← Check.link?_isOk_iff, pageText, Page.assemble]
  cases c.link? site with
  | error e => simp [Except.map, Except.mapError, bind, Except.bind]
  | ok link =>
    simp only [Except.map, Except.mapError, bind, Except.bind, Except.ok.injEq, exists_eq',
      true_and, Page.text, Page.examples]
    cases hwants : c.generateExamples with
    | false => simp [Check.Unexemplified, hwants]
    | true =>
      cases provider with
      | none => simp [Check.Unexemplified]
      | some p =>
        have hread := @Provider.examples_isOk_iff t cwd p c.name
        simp only [Check.Unexemplified, hwants, true_and, Option.some.injEq, exists_eq_left',
          ite_true, ← hread]
        cases p.examples t cwd c.name with
        | error e => simp
        | ok es => simp

end CheckRegistry
