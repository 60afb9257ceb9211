import CheckRegistry.Proofs.Build
import CheckRegistry.Proofs.Judgement
import CheckRegistry.Proofs.Lookup

/-! # What a strict build registers

Strictness acts on each check by itself: a strict judgement refuses those that would only be warned
of.  Names are compared afterwards, among the checks that are left.  So the strict build has fewer
candidates (`candidates_strict`), and a check that it refuses claims no name any more.  A check that
shared a name with it is contested where warnings are only reported, and free where they are fatal.

This is the one way in which the strict build registers more: what it registers is a candidate of
the other build too, and that build keeps it exactly if none of the checks that it warns of shares
a name with it (`registered_without_strictness_iff`).
-/

namespace CheckRegistry

/-- A check is registered with a warning, unless warnings are taken as fatal: it breaks a rule, and
none that is fatal by itself. -/
def Check.OnlyWarned (c : Check) : Prop :=
  c.violations ≠ [] ∧ ∀ v ∈ c.violations, v.level = .warning

/-- A strict judgement refuses no fewer checks. -/
theorem Check.isOk_of_strict {c : Check} (h : (c.judge true).isOk = true) :
    (c.judge false).isOk = true := by
  rw [Check.isOk_judge_strict_iff] at h
  rw [Check.isOk_judge_iff, h]
  intro v hv
  cases hv

/-- What it refuses on top are the checks that would only be warned of. -/
theorem Check.onlyWarned_iff {c : Check} :
    c.OnlyWarned ↔ (c.judge false).isOk = true ∧ (c.judge true).isOk = false := by
  rw [OnlyWarned, ← Check.isOk_judge_iff, ne_eq, ← Check.isOk_judge_strict_iff, Bool.not_eq_true,
    and_comm]

namespace Build

variable {declared : List Declared} {config : Config} {c e : Check}

theorem mem_candidates_iff {strict : Bool} : c ∈ candidates declared strict ↔
    ∃ d ∈ declared, d.construct = .ok c ∧ (c.judge strict).isOk = true := by
  rw [candidates, List.mem_filterMap]
  exact exists_congr fun d => and_congr_right fun _ => Declared.candidate?_eq_some_iff

/-- The candidates of a strict build are those of the other that break no rule at all. -/
theorem candidates_strict (declared : List Declared) :
    candidates declared true = (candidates declared false).filter fun c => (c.judge true).isOk := by
  rw [candidates, candidates, List.filter_filterMap]
  refine List.filterMap_congr fun d _ => ?_
  unfold Declared.candidate?
  cases d.construct with
  | error e => rfl
  | ok c =>
    by_cases hstrict : (c.judge true).isOk = true
    · have hok := Check.isOk_of_strict hstrict
      simp [hstrict, hok, Option.filter_some]
    · by_cases hok : (c.judge false).isOk = true <;> simp [hstrict, hok, Option.filter_some]

/-- The claimants of a name without strictness are those of a strict build, and the checks that are
only warned of. -/
theorem claimCount_eq_add (declared : List Declared) (name : String) :
    Collision.claimCount (candidates declared false) name =
      Collision.claimCount (candidates declared true) name +
        Collision.claimCount ((candidates declared false).filter fun c => !(c.judge true).isOk)
          name := by
  rw [candidates_strict]
  exact List.countP_eq_countP_filter_add _ _ _

/-- A check that claims no contested name in a strict build claims one without strictness exactly
if it shares a name with a check that is only warned of. -/
theorem contested_iff_onlyWarned (hc : c ∈ candidates declared true)
    (hfree : contested (candidates declared true) c = false) :
    contested (candidates declared false) c = true ↔
      ∃ e ∈ candidates declared false, e.OnlyWarned ∧ c.SharesName e := by
  -- in the strict build the check is the only claimant of each of its names
  have hone : ∀ name ∈ c.allNames, Collision.claimCount (candidates declared true) name = 1 := by
    intro name hn
    have hpos : 0 < Collision.claimCount (candidates declared true) name :=
      List.countP_pos_iff.mpr ⟨c, hc, decide_eq_true hn⟩
    have hfew : ¬ 2 ≤ Collision.claimCount (candidates declared true) name := by
      intro htwo
      have hclaims := Collision.claimsAny_iff.mpr ⟨name, Collision.mem_contestedNames.mpr htwo, hn⟩
      rw [contested, hclaims] at hfree
      cases hfree
    omega
  rw [contested, Collision.claimsAny_iff]
  constructor
  · rintro ⟨name, hcontested, hn⟩
    have htwo := Collision.mem_contestedNames.mp hcontested
    have hsplit := claimCount_eq_add declared name
    have hrefused : 0 < Collision.claimCount
        ((candidates declared false).filter fun c => !(c.judge true).isOk) name := by
      have := hone name hn
      omega
    obtain ⟨e, he, hne⟩ := List.countP_pos_iff.mp hrefused
    obtain ⟨hmem, hstrict⟩ := List.mem_filter.mp he
    exact ⟨e, hmem, Check.onlyWarned_iff.mpr ⟨isOk_of_mem_candidates hmem, by simpa using hstrict⟩,
      name, hn, of_decide_eq_true hne⟩
  · rintro ⟨e, he, hwarned, name, hn, hne⟩
    have hstrict := (Check.onlyWarned_iff.mp hwarned).2
    have hrefused : 0 < Collision.claimCount
        ((candidates declared false).filter fun c => !(c.judge true).isOk) name :=
      List.countP_pos_iff.mpr ⟨e, List.mem_filter.mpr ⟨he, by simpa using hstrict⟩,
        decide_eq_true hne⟩
    have hsplit := claimCount_eq_add declared name
    have := hone name hn
    exact ⟨name, Collision.mem_contestedNames.mpr (by omega), hn⟩

/-- A check that claims a contested name is reported with collisions and nothing else. -/
theorem exists_rejected_of_contested (config : Config)
    (hc : c ∈ candidates declared config.strict)
    (hcontested : contested (candidates declared config.strict) c = true) :
    ∃ r ∈ (ofList declared config).rejected, r.name = c.name ∧ r.violations ≠ [] ∧
      ∀ v ∈ r.violations, v.rule = .nameCollision := by
  refine ⟨exclusion (candidates declared config.strict) c, ?_, rfl,
    Collision.reports_ne_nil hcontested, ?_⟩
  · rw [ofList_eq]
    refine List.mem_append_right _ (List.mem_map.mpr ⟨c, ?_, rfl⟩)
    exact List.mem_filter.mpr ⟨hc, hcontested⟩
  · intro v hv
    obtain ⟨name, _, rfl⟩ := List.mem_map.mp hv
    rfl

/-- **What strictness can add to a registry.**  A check that the strict build registers is
registered without strictness as well, unless a declared check shares a name with it that is only
warned of.  Then it is left out, and the report on it is of collisions only. -/
theorem registered_without_strictness_iff
    (h : c ∈ (ofList declared { config with strict := true }).registry.checks) :
    (c ∈ (ofList declared { config with strict := false }).registry.checks ↔
      ∀ d ∈ declared, ∀ e, d.construct = .ok e → e.OnlyWarned → ¬ c.SharesName e) ∧
    (c ∉ (ofList declared { config with strict := false }).registry.checks →
      ∃ r ∈ (ofList declared { config with strict := false }).rejected, r.name = c.name ∧
        r.violations ≠ [] ∧ ∀ v ∈ r.violations, v.rule = .nameCollision) := by
  obtain ⟨hc, hfree⟩ := mem_checks_iff.mp h
  have hcandidate : c ∈ candidates declared false := by
    have hmem : c ∈ candidates declared true := hc
    rw [candidates_strict] at hmem
    exact (List.mem_filter.mp hmem).1
  have hwarned := contested_iff_onlyWarned hc hfree
  rw [mem_checks_iff]
  refine ⟨?_, ?_⟩
  · constructor
    · rintro ⟨_, huncontested⟩ d hd e he hwarn hshare
      have hmem : e ∈ candidates declared false :=
        mem_candidates_iff.mpr ⟨d, hd, he, (Check.onlyWarned_iff.mp hwarn).1⟩
      have hcontested := hwarned.mpr ⟨e, hmem, hwarn, hshare⟩
      rw [huncontested] at hcontested
      cases hcontested
    · intro hnone
      refine ⟨hcandidate, Bool.eq_false_iff.mpr fun hcontested => ?_⟩
      obtain ⟨e, he, hwarn, hshare⟩ := hwarned.mp hcontested
      obtain ⟨d, hd, hconstruct, _⟩ := mem_candidates_iff.mp he
      exact hnone d hd e hconstruct hwarn hshare
  · intro hout
    refine exists_rejected_of_contested { config with strict := false } hcandidate ?_
    by_contra hfree
    exact hout ⟨hcandidate, Bool.eq_false_iff.mpr hfree⟩

/-- A check with a link that its link type has no use for, which is a warning. -/
def overlinked (name : String) : Check :=
  { name, summary := "Compares unlike values", severity := .warning, linkType := .none,
    link := "unused" }

/-- Only one of the two checks is registered strictly, and both are otherwise. -/
theorem registered_without_strictness_of_apart :
    Registry.aliased "Dead" "dead" ∈
      (ofList [.check (overlinked "Unused"), .check (Registry.aliased "Dead" "dead")]
        { strict := true }).registry.checks ∧
    Registry.aliased "Dead" "dead" ∈
      (ofList [.check (overlinked "Unused"), .check (Registry.aliased "Dead" "dead")]
        { strict := false }).registry.checks := by
  have hstrict : Registry.aliased "Dead" "dead" ∈
      (ofList [.check (overlinked "Unused"), .check (Registry.aliased "Dead" "dead")]
        { strict := true }).registry.checks := by decide +kernel
  have hapart : ¬ (Registry.aliased "Dead" "dead").SharesName (overlinked "Unused") := by
    decide +kernel
  have hclean : ¬ (Registry.aliased "Dead" "dead").OnlyWarned := fun hwarned =>
    hwarned.1 (by decide +kernel)
  have hkept : Registry.aliased "Dead" "dead" ∈
      (ofList [.check (overlinked "Unused"), .check (Registry.aliased "Dead" "dead")]
        { ({} : Config) with strict := true }).registry.checks := hstrict
  refine ⟨hstrict, (registered_without_strictness_iff hkept).1.mpr ?_⟩
  intro d hd e he hwarned
  simp only [List.mem_cons, List.not_mem_nil, or_false] at hd
  rcases hd with rfl | rfl
  · exact Except.ok.inj he ▸ hapart
  · exact absurd (Except.ok.inj he ▸ hwarned) hclean

/-- The strict build registers a check that is left out where warnings are only reported: the check
that it shares a name with is refused for a link that is not used. -/
theorem registered_only_strictly :
    Registry.aliased "Dead" "Unused" ∈
      (ofList [.check (overlinked "Unused"), .check (Registry.aliased "Dead" "Unused")]
        { strict := true }).registry.checks ∧
    Registry.aliased "Dead" "Unused" ∉
      (ofList [.check (overlinked "Unused"), .check (Registry.aliased "Dead" "Unused")]
        { strict := false }).registry.checks := by
  decide +kernel

end Build

end CheckRegistry
