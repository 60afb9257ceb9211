import Mathlib.Algebra.GroupWithZero.Nat
import Mathlib.Data.List.Induction
import CheckRegistry.Proofs.Lists.Positions
import CheckRegistry.Proofs.Lists.Search
import CheckRegistry.Proofs.Tag

/-! # The views of a list of checks agree

The checks of a tag can be had in two ways: by going through the checks with that tag in mind, or
from the groups that one pass over the checks fills for all tags at once.  `groupByTag_eq` has
already brought the second into the form of the first, so what is left is to read it off: a group
that is not there belongs to a tag that no check carries (`lookup_groupByTag`).

Sizes are counted along the pass itself.  To put a check into a group makes the groups one entry
larger in all, whether the group was there or not (`entryCount_addToGroup`), so a check adds as many
entries as it has tags (`entryCount_addToGroups`).

Severities are counted in the same way, one check after the other.  Every check has exactly one,
which tells for each position of the list the one group that holds it (`lookup_groupBySeverity`).
-/

namespace CheckRegistry.Check

variable {checks : List Check} {c : Check} {tag : String} {groups : List (String × List Check)}

theorem mem_effectiveTags :
    tag ∈ c.effectiveTags ↔ tag ∈ c.tags ∨ c.severity = .error ∧ tag = likelyErrorTag := by
  rw [effectiveTags]
  by_cases herror : c.severity = .error
  · rw [if_pos herror, NameSet.mem_insert, or_comm]
    simp [herror]
  · rw [if_neg herror]
    simp [herror]

/-- A list holds the checks of another that have a property: in their order, and one for each
position. -/
def Collects (P : Check → Prop) (checks group : List Check) : Prop :=
  ∃ places : Nat → Bool, (∀ i c, checks[i]? = some c → (places i = true ↔ P c)) ∧
    group = Lists.entriesAt places checks

/-! ## Groups by tag -/

theorem collects_withTag (checks : List Check) (tag : String) :
    Collects (fun c => tag ∈ c.effectiveTags) checks (withTag checks tag) := by
  refine ⟨fun i => (checks[i]?).any fun c => decide (tag ∈ c.effectiveTags), ?_,
    Lists.filter_eq_entriesAt_of_forall ?_⟩
  · intro i c hc
    simp only [hc, Option.any_some, decide_eq_true_eq]
  · intro i c hc
    simp only [hc, Option.any_some]

theorem keys_groupByTag (checks : List Check) :
    (groupByTag checks).map Prod.fst = (allTags checks).toList := by
  rw [groupByTag_eq, grouped, List.map_map]
  exact List.map_id _

/-- A tag leads to the checks that carry it, if need be to none. -/
theorem lookup_groupByTag (checks : List Check) (tag : String) :
    ((groupByTag checks).lookup tag).getD [] = withTag checks tag := by
  by_cases hmem : tag ∈ allTags checks
  · rw [groupByTag_eq, grouped, List.lookup_graph _ (NameSet.mem_def.mp hmem), Option.getD_some]
  · have hno : ((groupByTag checks).lookup tag).isSome = true ↔ tag ∈ allTags checks := by
      rw [Lists.isSome_lookup_iff_mem_keys, keys_groupByTag, NameSet.mem_def]
    have hnone : (groupByTag checks).lookup tag = none := by
      rw [← Option.not_isSome_iff_eq_none, hno]
      exact hmem
    rw [hnone, Option.getD_none, withTag_eq_nil_iff.mpr hmem]

/-! ## Sizes of groups -/

/-- How many entries some groups have in all. -/
def entryCount (groups : List (String × List Check)) : Nat := (groups.map fun g => g.2.length).sum

theorem entryCount_addToGroup (tag : String) (c : Check) (groups : List (String × List Check)) :
    entryCount (addToGroup tag c groups) = entryCount groups + 1 := by
  induction groups with
  | nil => rfl
  | cons g groups ih =>
    obtain ⟨t, group⟩ := g
    rw [addToGroup]
    split
    · simp only [entryCount, List.map_cons, List.sum_cons, List.length_singleton]
      omega
    split
    · simp only [entryCount, List.map_cons, List.sum_cons, List.length_append,
        List.length_singleton]
      omega
    · simp only [entryCount, List.map_cons, List.sum_cons] at ih ⊢
      omega

theorem entryCount_addToGroups (groups : List (String × List Check)) (c : Check) :
    entryCount (addToGroups groups c) = entryCount groups + c.effectiveTags.toList.length := by
  rw [addToGroups]
  induction c.effectiveTags.toList generalizing groups with
  | nil => rfl
  | cons t tags ih =>
    rw [List.foldl_cons, ih, entryCount_addToGroup, List.length_cons]
    omega

/-- Each check is in as many groups as it has tags. -/
theorem entryCount_groupByTag (checks : List Check) :
    entryCount (groupByTag checks) = (checks.map fun c => c.effectiveTags.toList.length).sum := by
  have general : ∀ groups, entryCount (checks.foldl addToGroups groups) =
      entryCount groups + (checks.map fun c => c.effectiveTags.toList.length).sum := by
    induction checks with
    | nil => intro groups; rfl
    | cons c checks ih =>
      intro groups
      rw [List.foldl_cons, ih, entryCount_addToGroups, List.map_cons, List.sum_cons, Nat.add_assoc]
  rw [groupByTag, general]
  exact Nat.zero_add _

/-! ## Groups by severity -/

theorem lookup_groupBySeverity (checks : List Check) (s : Severity) :
    (groupBySeverity checks).lookup s = some (checks.filter fun c => c.severity == s) := by
  rw [groupBySeverity_eq]
  cases s <;> rfl

/-- One more check joins the group of its severity and no other. -/
theorem groupBySeverity_concat (checks : List Check) (c : Check) :
    groupBySeverity (checks ++ [c]) = addToSeverity (groupBySeverity checks) c := by
  rw [groupBySeverity, List.foldl_append]
  rfl

/-- Taken together, the groups hold every check as often as it was given. -/
theorem flatMap_groupBySeverity_perm (checks : List Check) :
    ((groupBySeverity checks).flatMap Prod.snd).Perm checks := by
  induction checks using List.reverseRecOn with
  | nil => exact .nil
  | append_singleton checks c ih =>
    have hcount (d : Check) := ih.count_eq d
    rw [groupBySeverity_concat, List.perm_iff_count]
    intro d
    simp only [groupBySeverity_eq, addToSeverity, Vocabulary.members, List.map_cons, List.map_nil,
      List.flatMap_cons, List.flatMap_nil, List.count_append, List.count_nil] at hcount ⊢
    -- the one group that has grown is that of the check's severity
    cases c.severity <;> simp only [reduceCtorEq, ite_true, ite_false, List.count_append] <;>
      have := hcount d <;> omega

theorem errors_sublist_likelyErrors (checks : List Check) :
    (checks.filter fun c => c.severity == .error).Sublist (likelyErrors checks) := by
  have hkept : ((likelyErrors checks).filter fun c => c.severity == .error) =
      checks.filter fun c => c.severity == .error := by
    rw [likelyErrors, withTag, List.filter_filter]
    refine List.filter_congr fun c _ => ?_
    by_cases herror : c.severity = .error
    · have hmem : likelyErrorTag ∈ c.effectiveTags := mem_effectiveTags.mpr (.inr ⟨herror, rfl⟩)
      simp [herror, hmem]
    · simp [herror]
  rw [← hkept]
  exact List.filter_sublist

/-- What makes the views of a list of checks one. -/
structure ViewsAgree (checks : List Check) : Prop where
  /-- Each tag has one group, and groups are in increasing order of their tags. -/
  tags_increasing : ((groupByTag checks).map Prod.fst).Pairwise (· < ·)
  mem_tags : ∀ tag, tag ∈ (groupByTag checks).map Prod.fst ↔ ∃ c ∈ checks, tag ∈ c.effectiveTags
  group_of_tag : ∀ tag, ((groupByTag checks).lookup tag).getD [] = withTag checks tag
  with_tag : ∀ tag, Collects (fun c => tag ∈ c.effectiveTags) checks (withTag checks tag)
  sizes : ((groupByTag checks).map fun g => g.2.length).sum =
    (checks.map fun c => c.effectiveTags.toList.length).sum
  /-- Each severity has one group, whether a check has it or not. -/
  severities : (groupBySeverity checks).map Prod.fst = Vocabulary.members
  /-- Each position belongs to one severity, in whose group it comes once and in order. -/
  group_of_severity : ∃ level : Nat → Severity,
    (∀ i c, checks[i]? = some c → level i = c.severity) ∧
    ∀ s, (groupBySeverity checks).lookup s =
      some (Lists.entriesAt (fun i => level i == s) checks)
  together : ((groupBySeverity checks).flatMap Prod.snd).Perm checks
  likely : likelyErrors checks = ((groupByTag checks).lookup likelyErrorTag).getD []
  errors_likely :
    (((groupBySeverity checks).lookup .error).getD []).Sublist (likelyErrors checks)

/-- **The views of a list of checks agree**, whatever the checks and however often they are
given. -/
theorem views_agree (checks : List Check) : ViewsAgree checks := by
  constructor
  case tags_increasing =>
    rw [keys_groupByTag]
    exact (allTags checks).sorted
  case mem_tags =>
    intro tag
    rw [keys_groupByTag, ← NameSet.mem_def, mem_allTags]
  case group_of_tag => exact lookup_groupByTag checks
  case with_tag => exact collects_withTag checks
  case sizes => exact entryCount_groupByTag checks
  case severities => rw [groupBySeverity_eq, List.map_map]; rfl
  case group_of_severity =>
    refine ⟨fun i => ((checks[i]?).map Check.severity).getD .error, ?_, fun s => ?_⟩
    · intro i c hc
      simp only [hc, Option.map_some, Option.getD_some]
    · rw [lookup_groupBySeverity]
      refine congrArg some (Lists.filter_eq_entriesAt_of_forall fun i c hc => ?_)
      simp only [hc, Option.map_some, Option.getD_some]
  case together => exact flatMap_groupBySeverity_perm checks
  case likely => exact (lookup_groupByTag checks likelyErrorTag).symm
  case errors_likely =>
    rw [lookup_groupBySeverity, Option.getD_some]
    exact errors_sublist_likelyErrors checks

end CheckRegistry.Check
