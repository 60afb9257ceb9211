import Mathlib.Tactic.ByContra
import CheckRegistry.Page.Basic

/-! # Which names a site hosts

A documentation site hosts a name that could be a file there: ASCII letters and digits,
underscores, periods and dashes, at least one of them, and not one of the two names of directories
(`Hostable`).  There are four ways to ask for the address of such a page, by name, for a check, for
a finding and for a page, and the last three come to the first where the link is to be made from the
name (`LinksTo`).

The test on names looks past one line feed at the end, and the two names of directories are compared
with the line feed still there.  So a hostable name with a line feed after it goes through as well,
and so do the names of directories (`isHostable_iff`).  These are all the names for which the
address is not as it should be (`linksTo_hostable_iff`).
-/

namespace CheckRegistry

namespace Link

variable {site name : String} {P : String → Prop}

/-! ## Sites and names -/

/-- A site without the slashes at its end. -/
structure IsStem (site stem : String) : Prop where
  slashes : ∃ k, site = stem ++ String.ofList (List.replicate k '/')
  bare : stem.toList.getLast? ≠ some '/'

theorem isStem_dropEndChar (site : String) : IsStem site (Text.dropEndChar '/' site) where
  slashes := Text.exists_eq_dropEndChar_append '/' site
  bare := Text.getLast?_dropEndChar '/' site

/-- An ASCII letter or digit, an underscore, a period or a dash. -/
def SlugChar (c : Char) : Prop :=
  ('A' ≤ c ∧ c ≤ 'Z') ∨ ('a' ≤ c ∧ c ≤ 'z') ∨ ('0' ≤ c ∧ c ≤ '9') ∨ c = '_' ∨ c = '.' ∨ c = '-'

/-- At least one character, and only such as may stand in an address. -/
structure Slug (name : String) : Prop where
  nonempty : name ≠ ""
  chars : ∀ c ∈ name.toList, SlugChar c

/-- A name that a documentation site can host. -/
structure Hostable (name : String) : Prop extends Slug name where
  ne_here : name ≠ "."
  ne_parent : name ≠ ".."

/-- A line feed after what could be a name, a directory's included. -/
def Overlooked (name : String) : Prop := ∃ slug, Slug slug ∧ name = slug ++ "\n"

theorem isSlugChar_iff {c : Char} : isSlugChar c = true ↔ SlugChar c := by
  have hupper : c.isUpper = true ↔ 'A' ≤ c ∧ c ≤ 'Z' := decide_eq_true_iff
  have hlower : c.isLower = true ↔ 'a' ≤ c ∧ c ≤ 'z' :=
    Bool.and_eq_true_iff.trans (and_congr decide_eq_true_iff decide_eq_true_iff)
  have hdigit : c.isDigit = true ↔ '0' ≤ c ∧ c ≤ '9' :=
    Bool.and_eq_true_iff.trans (and_congr decide_eq_true_iff decide_eq_true_iff)
  have hkinds : isSlugChar c =
      (c.isUpper || c.isLower || c.isDigit || c == '_' || c == '.' || c == '-') := rfl
  simp only [hkinds, Bool.or_eq_true, hupper, hlower, hdigit, beq_iff_eq, SlugChar, or_assoc]

theorem isSlug_iff {s : List Char} : isSlug s = true ↔ Slug (String.ofList s) := by
  rw [isSlug, Bool.and_eq_true, Bool.not_eq_true', List.all_eq_true]
  simp only [isSlugChar_iff]
  constructor
  · rintro ⟨hempty, hall⟩
    refine ⟨fun h => ?_, ?_⟩
    · rw [String.ofList_eq_empty_iff] at h
      rw [h] at hempty
      cases hempty
    · rwa [String.toList_ofList]
  · rintro ⟨hempty, hall⟩
    rw [String.toList_ofList] at hall
    refine ⟨?_, hall⟩
    rw [List.isEmpty_eq_false_iff]
    rintro rfl
    exact hempty rfl

theorem Slug.lineFeed_not_mem (h : Slug name) : '\n' ∉ name.toList := by
  intro hmem
  exact absurd (isSlugChar_iff.mpr (h.chars '\n' hmem)) (by decide)

theorem Overlooked.not_slug (h : Overlooked name) : ¬ Slug name := by
  intro hslug
  obtain ⟨slug, _, rfl⟩ := h
  exact hslug.lineFeed_not_mem (by simp)

/-- A name that is a slug up to one line feed at its end is one, or is overlooked. -/
theorem isSlug_dropFinalNewline_iff :
    isSlug (Text.dropFinalNewline name.toList) = true ↔ Slug name ∨ Overlooked name := by
  rw [Text.dropFinalNewline]
  by_cases hlast : name.toList.getLast? = some '\n'
  · rw [if_pos hlast, isSlug_iff]
    obtain ⟨s, hs⟩ := List.getLast?_eq_some_iff.mp hlast
    have hname : name = String.ofList s ++ "\n" := by
      rw [← String.toList_inj, hs, String.toList_append, String.toList_ofList]
      rfl
    have hdrop : name.toList.dropLast = s := by
      rw [hs, List.dropLast_concat]
    rw [hdrop]
    constructor
    · intro hslug
      exact Or.inr ⟨_, hslug, hname⟩
    · rintro (hslug | ⟨slug, hslug, hslugname⟩)
      · exact absurd (List.mem_of_getLast? hlast) hslug.lineFeed_not_mem
      · rwa [← (String.append_left_inj _).mp (hslugname.symm.trans hname)]
  · rw [if_neg hlast, isSlug_iff, String.ofList_toList]
    refine (or_iff_left ?_).symm
    rintro ⟨slug, _, rfl⟩
    exact hlast (by rw [String.toList_append, List.getLast?_append]; rfl)

/-- The names that are accepted. -/
theorem isHostable_iff : isHostable name = true ↔ Hostable name ∨ Overlooked name := by
  have hfeed : ∀ dir ∈ [".", ".."], ¬ Overlooked dir := by
    have hplain : ∀ dir ∈ [".", ".."], '\n' ∉ dir.toList := by decide
    rintro dir hdir ⟨slug, _, rfl⟩
    exact hplain _ hdir (by simp)
  rw [isHostable, Bool.and_eq_true, Bool.and_eq_true, isSlug_dropFinalNewline_iff, bne_iff_ne,
    bne_iff_ne]
  constructor
  · rintro ⟨⟨hslug | hslug, hhere⟩, hparent⟩
    · exact Or.inl ⟨hslug, hhere, hparent⟩
    · exact Or.inr hslug
  · rintro (h | h)
    · exact ⟨⟨Or.inl h.toSlug, h.ne_here⟩, h.ne_parent⟩
    · refine ⟨⟨Or.inr h, ?_⟩, ?_⟩
      · rintro rfl
        exact hfeed _ (by simp) h
      · rintro rfl
        exact hfeed _ (by simp) h

/-! ## The four ways to a link -/

/-- An attempt goes through under a condition, and otherwise fails because of a name. -/
def GoesThroughIf {α : Type} (p : Prop) (name : String) (x : Except Missing α) : Prop :=
  (p → ∃ a, x = .ok a) ∧ (¬ p → x = .error ⟨name⟩)

theorem GoesThroughIf.map {α β : Type} {p : Prop} {x : Except Missing α} (f : α → β)
    (h : GoesThroughIf p name x) : GoesThroughIf p name (x.map f) := by
  refine ⟨fun hp => ?_, fun hp => ?_⟩
  · obtain ⟨a, ha⟩ := h.1 hp
    exact ⟨f a, by rw [ha]; rfl⟩
  · rw [h.2 hp]
    rfl

/-- A site links to the names with a property, under the address that is theirs: asked by name, for
a check whose link is to be made from its name, for a finding of such a check, or for its page. -/
structure LinksTo (P : String → Prop) (site name : String) : Prop where
  address : P name → ∃ stem, IsStem site stem ∧
    canonical site name = .ok (stem ++ "/bugpattern/" ++ name)
  missing : ¬ P name → canonical site name = .error ⟨name⟩
  link : ∀ c : Check, c.linkType = .autogenerated → c.name = name →
    GoesThroughIf (P name) name (c.link? site)
  diagnostic : ∀ c : Check, c.linkType = .autogenerated → c.name = name → ∀ message,
    GoesThroughIf (P name) name (c.diagnostic message site)
  page : ∀ c : Check, c.linkType = .autogenerated → c.name = name → ∀ provider,
    GoesThroughIf (P name) name (Page.assemble c provider site)

theorem canonical_of_hostable (h : isHostable name = true) :
    canonical site name = .ok (Text.dropEndChar '/' site ++ "/bugpattern/" ++ name) := by
  rw [canonical, if_pos h]

theorem canonical_of_not_hostable (h : isHostable name = false) :
    canonical site name = .error ⟨name⟩ := by
  rw [canonical, h]
  rfl

/-- The link that is to be made from a name is the address that is the name's. -/
theorem link?_of_autogenerated {c : Check} (hkind : c.linkType = .autogenerated) (site : String) :
    c.link? site = (canonical site c.name).map some := by
  rw [Check.link?, hkind]
  rfl

theorem eq_of_link? {c : Check} {link : Option String} (hkind : c.linkType = .autogenerated)
    (hlink : c.link? site = .ok link) : isHostable c.name = true ∧
      link = some (Text.dropEndChar '/' site ++ "/bugpattern/" ++ c.name) := by
  rw [link?_of_autogenerated hkind] at hlink
  by_cases hname : isHostable c.name = true
  · rw [canonical_of_hostable hname] at hlink
    exact ⟨hname, (Except.ok.inj hlink).symm⟩
  · rw [canonical_of_not_hostable (Bool.eq_false_iff.mpr hname)] at hlink
    cases hlink

theorem goesThroughIf_link? {c : Check} (hkind : c.linkType = .autogenerated) (site : String) :
    GoesThroughIf (isHostable c.name = true) c.name (c.link? site) := by
  rw [link?_of_autogenerated hkind]
  refine GoesThroughIf.map some ⟨fun h => ⟨_, canonical_of_hostable h⟩, fun h => ?_⟩
  exact canonical_of_not_hostable (Bool.eq_false_iff.mpr h)

/-- Exactly one property fits the links of a site. -/
theorem linksTo_iff : LinksTo P site name ↔ (P name ↔ isHostable name = true) := by
  constructor
  · intro h
    by_cases hname : isHostable name = true
    · refine iff_of_true ?_ hname
      by_contra hP
      cases (h.missing hP).symm.trans (canonical_of_hostable hname)
    · refine iff_of_false (fun hP => ?_) hname
      obtain ⟨stem, _, hok⟩ := h.address hP
      cases hok.symm.trans (canonical_of_not_hostable (Bool.eq_false_iff.mpr hname))
  · intro hP
    refine ⟨fun h => ?_, fun h => ?_, ?_, ?_, ?_⟩
    · exact ⟨_, isStem_dropEndChar site, canonical_of_hostable (hP.mp h)⟩
    · exact canonical_of_not_hostable (Bool.eq_false_iff.mpr fun hname => h (hP.mpr hname))
    · rintro c hkind rfl
      rw [hP]
      exact goesThroughIf_link? hkind site
    · rintro c hkind rfl message
      rw [hP]
      exact (goesThroughIf_link? hkind site).map _
    · rintro c hkind rfl provider
      rw [hP]
      exact (goesThroughIf_link? hkind site).map _

/-- **Which names a site links to.**  Those that it can host, and those with a line feed after what
could be a name.  It links to the hostable names, and to no other, as far as names of the second
kind are left out; for each of them it does not. -/
theorem linksTo_hostable_iff (site name : String) :
    LinksTo (fun n => Hostable n ∨ Overlooked n) site name ∧
      (LinksTo Hostable site name ↔ ¬ Overlooked name) := by
  refine ⟨linksTo_iff.mpr isHostable_iff.symm, ?_⟩
  rw [linksTo_iff, isHostable_iff]
  constructor
  · intro h hover
    exact hover.not_slug (h.mpr (Or.inr hover)).toSlug
  · intro hover
    exact (or_iff_left hover).symm

/-- A line feed after a name ends up in the address. -/
theorem linksTo_fails_of_lineFeed :
    canonical defaultSite "A\n" = .ok "https://errorprone.info/bugpattern/A\n" ∧
      ¬ Hostable "A\n" ∧ ¬ LinksTo Hostable defaultSite "A\n" := by
  have hok : canonical defaultSite "A\n" = .ok "https://errorprone.info/bugpattern/A\n" := rfl
  have hname : ¬ Hostable "A\n" := fun h => h.lineFeed_not_mem (by decide)
  refine ⟨hok, hname, fun h => ?_⟩
  cases hok.symm.trans (h.missing hname)

end Link

end CheckRegistry
