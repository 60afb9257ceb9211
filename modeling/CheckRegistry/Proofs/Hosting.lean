import CheckRegistry.Proofs.Index
import CheckRegistry.Proofs.Link
import CheckRegistry.Proofs.Lookup

/-! # Links and files of registered checks

Three rules on characters meet in the name of a check.  The documentation site accepts some names
that it cannot host, those with a line feed at the end; a file name replaces the characters that it
should not have; a valid check has no white space around its name.  The third closes the gap of the
first: a registered check with a link to its page has a name that can be hosted
(`hostable_of_link?`).  Such a name is without white space, and nothing in it is replaced
(`fileName_of_slug`).

So the link and the file of a registered check go with its name, which no other check has, and
neither of them belongs to two (`links_one_to_one`).
-/

namespace CheckRegistry

namespace Catalog

variable {site name : String} {link : Option String} {c : Check} {r : Registry}

/-- After the space and before U+0085 there is no white space. -/
theorem not_isBlank_of_between {ch : Char} (hlow : 0x20 < ch.toNat) (hhigh : ch.toNat < 0x85) :
    Text.isBlank ch = false := by
  rw [Text.isBlank, Text.blankRanges, Text.inRanges, if_neg (by omega), if_neg (by omega),
    Text.inRanges, if_neg (by omega), if_neg (by omega), Text.inRanges, if_pos hhigh]

theorem not_isBlank_of_slugChar {ch : Char} (h : Link.SlugChar ch) : Text.isBlank ch = false := by
  rcases h with ⟨hlow, hhigh⟩ | ⟨hlow, hhigh⟩ | ⟨hlow, hhigh⟩ | rfl | rfl | rfl
  · have hlow : 65 ≤ ch.toNat := hlow
    have hhigh : ch.toNat ≤ 90 := hhigh
    exact not_isBlank_of_between (by omega) (by omega)
  · have hlow : 97 ≤ ch.toNat := hlow
    have hhigh : ch.toNat ≤ 122 := hhigh
    exact not_isBlank_of_between (by omega) (by omega)
  · have hlow : 48 ≤ ch.toNat := hlow
    have hhigh : ch.toNat ≤ 57 := hhigh
    exact not_isBlank_of_between (by omega) (by omega)
  · rfl
  · rfl
  · rfl

/-- Nothing is replaced in a name that may stand in an address. -/
theorem fileName_of_slug (h : Link.Slug name) : fileName name = name ++ ".md" := by
  have hkept : ∀ ch ∈ name.toList, (if Link.isSlugChar ch then ch else '_') = ch :=
    fun ch hch => if_pos (Link.isSlugChar_iff.mpr (h.chars ch hch))
  rw [fileName, List.map_congr_left hkept, List.map_id', String.ofList_toList]

/-- A valid check with a link to its page has a name that can be hosted. -/
theorem hostable_of_link? (hvalid : c.WellFormed) (hkind : c.linkType = .autogenerated)
    (hlink : c.link? site = .ok link) : Link.Hostable c.name := by
  rcases Link.isHostable_iff.mp (Link.eq_of_link? hkind hlink).1 with h | ⟨slug, _, hslug⟩
  · exact h
  · -- a line feed at the end is white space around the name
    have hlast : (Text.trim c.name).toList.getLast? = some '\n' := by
      rw [← hvalid.tidyName, hslug, String.toList_append, List.getLast?_append]
      rfl
    exact absurd (Text.not_isBlank_of_getLast?_trim hlast) (by decide)

/-- The link of a check, and the file of its page, as they go with its name. -/
structure HostedAs (site : String) (c : Check) (url : String) : Prop where
  address : ∃ stem, Link.IsStem site stem ∧ url = stem ++ "/bugpattern/" ++ c.name
  /-- There is no white space after the site. -/
  solid : ∀ ch ∈ ("/bugpattern/" ++ c.name).toList, Text.isBlank ch = false
  file : fileName c.name = c.name ++ ".md"

theorem hostedAs_of_hostable (h : Link.Hostable c.name) :
    HostedAs site c (Text.dropEndChar '/' site ++ "/bugpattern/" ++ c.name) where
  address := ⟨_, Link.isStem_dropEndChar site, rfl⟩
  solid := by
    intro ch hch
    rw [String.toList_append, List.mem_append] at hch
    rcases hch with hch | hch
    · have hpath : "/bugpattern/".toList.all (fun ch => !Text.isBlank ch) = true := rfl
      simpa using List.all_eq_true.mp hpath ch hch
    · exact not_isBlank_of_slugChar (h.chars ch hch)
  file := fileName_of_slug h.toSlug

/-- **Links and files of registered checks correspond one to one.**  For a registry built in either
way and any site, a check with a link to its page has that link and the file of that page under its
own name, and it shares neither with another such check.  A pass over the registry that makes the
page writes it there. -/
theorem links_one_to_one (hr : r.Built) (site : String) :
    (∀ c ∈ r.checks, c.linkType = .autogenerated → ∀ link, c.link? site = .ok link →
      ∃ url, link = some url ∧ HostedAs site c url) ∧
    (∀ (i j : Nat) (c d : Check), i ≠ j → r.checks[i]? = some c → r.checks[j]? = some d →
      c.linkType = .autogenerated → d.linkType = .autogenerated →
      ∀ u v, c.link? site = .ok u → d.link? site = .ok v →
        u ≠ v ∧ fileName c.name ≠ fileName d.name) ∧
    ∀ (provider : Option Provider) (t : FileTree) (cwd : Place) (out : Path) (pass : Pass),
      generate r.checks provider site t cwd out = .ok pass →
      ∀ c ∈ r.checks, c.linkType = .autogenerated → ∀ link, c.link? site = .ok link →
        pass.HasPage c → c.name ++ ".md" ∈ pass.written := by
  have hhosted : ∀ c ∈ r.checks, c.linkType = .autogenerated → ∀ link, c.link? site = .ok link →
      Link.Hostable c.name :=
    fun c hc hkind link hlink => hostable_of_link? (hr.wellFormed hc) hkind hlink
  refine ⟨?_, ?_, ?_⟩
  · intro c hc hkind link hlink
    exact ⟨_, (Link.eq_of_link? hkind hlink).2, hostedAs_of_hostable (hhosted c hc hkind link hlink)⟩
  · intro i j c d hij hi hj hckind hdkind u v hu hv
    have hne : c.name ≠ d.name := by
      intro heq
      exact hij (Registry.eq_of_shared_name hr.sound.2.1 hi hj (Check.mem_allNames.mpr (Or.inl rfl))
        (Check.mem_allNames.mpr (Or.inl heq)))
    rw [(Link.eq_of_link? hckind hu).2, (Link.eq_of_link? hdkind hv).2,
      fileName_of_slug (hhosted c (List.mem_of_getElem? hi) hckind u hu).toSlug,
      fileName_of_slug (hhosted d (List.mem_of_getElem? hj) hdkind v hv).toSlug]
    refine ⟨fun heq => hne ?_, fun heq => hne ?_⟩
    · exact (String.append_right_inj _).mp (Option.some.inj heq)
    · exact (String.append_left_inj _).mp heq
  · intro provider t cwd out pass hpass c hc hkind link hlink hhas
    obtain ⟨made, _, hmade, _, _⟩ := generate_eq_ok_iff.mp hpass
    obtain ⟨pages, hsettled⟩ := settled_of_generate hr.nodup_names hmade hpass
    rw [hsettled.written_eq_listed hr.nodup_names,
      ← fileName_of_slug (hhosted c hc hkind link hlink).toSlug]
    exact List.mem_append_left _
      (List.mem_map.mpr ⟨c, mem_listed.mpr ⟨hc, hhas⟩, rfl⟩)

/-- Two checks whose names differ in a dash and an underscore, which file names keep apart. -/
theorem links_one_to_one_of_dash_underscore :
    (Registry.ofList [Registry.aliased "A-1" "a", Registry.aliased "A_1" "b"]).Built ∧
    (Registry.aliased "A-1" "a").link? "https://docs.example.com/" =
      .ok (some "https://docs.example.com/bugpattern/A-1") ∧
    HostedAs "https://docs.example.com/" (Registry.aliased "A-1" "a")
      "https://docs.example.com/bugpattern/A-1" ∧
    fileName "A-1" ≠ fileName "A_1" := by
  have hok : Registry.ofChecks [Registry.aliased "A-1" "a", Registry.aliased "A_1" "b"] false =
      .ok (Registry.ofList [Registry.aliased "A-1" "a", Registry.aliased "A_1" "b"]) := rfl
  have hlink : (Registry.aliased "A-1" "a").link? "https://docs.example.com/" =
      .ok (some "https://docs.example.com/bugpattern/A-1") := rfl
  have hlink' : (Registry.aliased "A_1" "b").link? "https://docs.example.com/" =
      .ok (some "https://docs.example.com/bugpattern/A_1") := rfl
  obtain ⟨hhosted, hapart, _⟩ := links_one_to_one (.ofChecks hok) "https://docs.example.com/"
  obtain ⟨url, hurl, has⟩ := hhosted _ List.mem_cons_self rfl _ hlink
  obtain rfl := Option.some.inj hurl
  exact ⟨.ofChecks hok, hlink, has, (hapart 0 1 _ _ (by decide) rfl rfl rfl rfl _ _ hlink hlink').2⟩

end Catalog

end CheckRegistry
