import Mathlib.Logic.Function.Basic
import CheckRegistry.Tag

/-! # What the groups hold

Grouping by tag fills groups check by check and tag by tag; listing the checks with one tag looks
at that tag alone.  Both come to the same: at every stage the groups are those of a set of tags,
each with the checks that carry it (`grouped`), and one more check adds its tags to the set and
itself to the end of their groups (`addToGroups_grouped`).  So nothing of the order in which groups
were opened is left in the end (`groupByTag_eq`).

The groups of severities are there from the beginning, and a check goes to the end of one of them.
Whatever they hold, what a pass adds to each is what a look at its severity alone finds
(`foldl_addToSeverity`).
-/

namespace CheckRegistry.Check

variable {tags : NameSet} {members : String → List Check} {checks : List Check} {c : Check}
  {tag : String}

/-- The groups of some tags, in increasing order of the tags. -/
def grouped (tags : NameSet) (members : String → List Check) : List (String × List Check) :=
  tags.toList.map fun t => (t, members t)

/-- All tags that some checks carry. -/
def allTags (checks : List Check) : NameSet :=
  NameSet.ofList (checks.flatMap fun c => c.effectiveTags.toList)

theorem mem_allTags : tag ∈ allTags checks ↔ ∃ c ∈ checks, tag ∈ c.effectiveTags := by
  rw [allTags, NameSet.mem_ofList, List.mem_flatMap]
  rfl

theorem withTag_eq_nil_iff : withTag checks tag = [] ↔ tag ∉ allTags checks := by
  rw [withTag, List.filter_eq_nil_iff, mem_allTags]
  simp only [decide_eq_true_eq, not_exists, not_and]

/-- A check is put at the end of the group of a tag, or into a new group at its place. -/
theorem addToGroup_map (hnew : tag ∉ tags → members tag = []) :
    addToGroup tag c (grouped tags members) =
      grouped (tags.insert tag) (Function.update members tag (members tag ++ [c])) := by
  obtain ⟨keys, hsorted⟩ := tags
  show addToGroup tag c (keys.map _) = (NameSet.insertSorted tag keys).map _
  replace hnew : tag ∉ keys → members tag = [] := hnew
  have hother : ∀ rest : List String, tag ∉ rest →
      (rest.map fun t => (t, Function.update members tag (members tag ++ [c]) t)) =
        rest.map fun t => (t, members t) := by
    intro rest hrest
    refine List.map_congr_left fun t ht => ?_
    have hne : t ≠ tag := fun h => hrest (h ▸ ht)
    rw [Function.update_of_ne hne]
  induction keys with
  | nil =>
    have hnil := hnew List.not_mem_nil
    simp [addToGroup, NameSet.insertSorted, hnil]
  | cons k keys ih =>
    rw [List.pairwise_cons] at hsorted
    rw [List.map_cons, addToGroup, NameSet.insertSorted]
    by_cases hlt : tag < k
    · -- the tag comes before all keys, so it is new
      have hnot : tag ∉ k :: keys := by
        intro hmem
        rcases List.mem_cons.mp hmem with rfl | hmem
        · exact String.lt_irrefl _ hlt
        · exact String.lt_asymm hlt (hsorted.1 tag hmem)
      rw [if_pos hlt, if_pos hlt, List.map_cons, hother _ hnot, Function.update_self, hnew hnot]
      rfl
    · rw [if_neg hlt, if_neg hlt]
      by_cases heq : tag = k
      · subst heq
        have hnot : tag ∉ keys := fun hmem => String.lt_irrefl _ (hsorted.1 tag hmem)
        rw [if_pos rfl, if_pos rfl, List.map_cons, hother _ hnot, Function.update_self]
      · have hne : k ≠ tag := fun h => heq h.symm
        have hnew' : tag ∉ keys → members tag = [] := by
          intro hmem
          apply hnew
          intro h
          rcases List.mem_cons.mp h with h | h
          · exact heq h
          · exact hmem h
        rw [if_neg heq, if_neg heq, List.map_cons, Function.update_of_ne hne, ih hsorted.2 hnew']

/-- A check is put at the end of the groups of some tags. -/
theorem foldl_addToGroup_grouped {ts : List String} (hnodup : ts.Nodup)
    (hnew : ∀ t, t ∉ tags → members t = []) :
    ts.foldl (fun groups t => addToGroup t c groups) (grouped tags members) =
      grouped (NameSet.ofList ts ∪ tags)
        fun t => if t ∈ ts then members t ++ [c] else members t := by
  induction ts generalizing tags members with
  | nil =>
    have htags : NameSet.ofList [] ∪ tags = tags := NameSet.ext fun t => by simp
    rw [htags]
    simp
  | cons a ts ih =>
    rw [List.nodup_cons] at hnodup
    have hnew' : ∀ t, t ∉ tags.insert a →
        Function.update members a (members a ++ [c]) t = [] := by
      intro t ht
      rw [NameSet.mem_insert, not_or] at ht
      rw [Function.update_of_ne ht.1]
      exact hnew t ht.2
    have htags : NameSet.ofList ts ∪ tags.insert a = NameSet.ofList (a :: ts) ∪ tags := by
      refine NameSet.ext fun t => ?_
      simp only [NameSet.mem_union, NameSet.mem_ofList, NameSet.mem_insert, List.mem_cons]
      rw [or_left_comm, or_assoc]
    have hmembers : (fun t =>
        if t ∈ ts then Function.update members a (members a ++ [c]) t ++ [c]
        else Function.update members a (members a ++ [c]) t) =
        fun t => if t ∈ a :: ts then members t ++ [c] else members t := by
      funext t
      by_cases h : t = a
      · subst h
        rw [if_neg hnodup.1, if_pos List.mem_cons_self, Function.update_self]
      · rw [Function.update_of_ne h]
        simp only [List.mem_cons, h, false_or]
    rw [List.foldl_cons, addToGroup_map (hnew a), ih hnodup.2 hnew', htags, hmembers]

/-- One more check at the end of a list joins the groups of its tags. -/
theorem addToGroups_grouped (checks : List Check) (c : Check) :
    addToGroups (grouped (allTags checks) (withTag checks)) c =
      grouped (allTags (checks ++ [c])) (withTag (checks ++ [c])) := by
  have htags : NameSet.ofList c.effectiveTags.toList ∪ allTags checks =
      allTags (checks ++ [c]) := by
    refine NameSet.ext fun t => ?_
    simp only [NameSet.mem_union, NameSet.mem_ofList, mem_allTags, List.mem_append,
      List.mem_singleton, ← NameSet.mem_def]
    constructor
    · rintro (ht | ⟨d, hd, ht⟩)
      · exact ⟨c, Or.inr rfl, ht⟩
      · exact ⟨d, Or.inl hd, ht⟩
    · rintro ⟨d, hd | rfl, ht⟩
      · exact Or.inr ⟨d, hd, ht⟩
      · exact Or.inl ht
  have hmembers : (fun t =>
      if t ∈ c.effectiveTags.toList then withTag checks t ++ [c] else withTag checks t) =
      withTag (checks ++ [c]) := by
    funext t
    rw [withTag, withTag, List.filter_append]
    by_cases ht : t ∈ c.effectiveTags
    · rw [if_pos (NameSet.mem_def.mp ht), List.filter_cons_of_pos (by simpa using ht),
        List.filter_nil]
    · rw [if_neg (NameSet.mem_def.not.mp ht), List.filter_cons_of_neg (by simpa using ht),
        List.filter_nil, List.append_nil]
  rw [addToGroups, foldl_addToGroup_grouped c.effectiveTags.nodup_toList
    (fun t ht => withTag_eq_nil_iff.mpr ht), htags, hmembers]

/-- **Grouping by tag lists the checks of each tag**, each tag that a check carries once and in
increasing order. -/
theorem groupByTag_eq (checks : List Check) :
    groupByTag checks = grouped (allTags checks) (withTag checks) := by
  have general : ∀ done : List Check,
      checks.foldl addToGroups (grouped (allTags done) (withTag done)) =
        grouped (allTags (done ++ checks)) (withTag (done ++ checks)) := by
    induction checks with
    | nil => intro done; rw [List.foldl_nil, List.append_nil]
    | cons c checks ih =>
      intro done
      rw [List.foldl_cons, addToGroups_grouped, ih, List.append_assoc, List.singleton_append]
  exact general []

/-- A pass over some checks adds to each group the checks of its severity. -/
theorem foldl_addToSeverity (checks : List Check) (groups : List (Severity × List Check)) :
    checks.foldl addToSeverity groups =
      groups.map fun g => (g.1, g.2 ++ checks.filter fun c => c.severity == g.1) := by
  induction checks generalizing groups with
  | nil => simp
  | cons c checks ih =>
    rw [List.foldl_cons, ih, addToSeverity, List.map_map]
    refine List.map_congr_left fun g _ => ?_
    by_cases h : g.1 = c.severity
    · simp [h]
    · simp [h, Ne.symm h]

/-- **Grouping by severity lists the checks of each severity.** -/
theorem groupBySeverity_eq (checks : List Check) : groupBySeverity checks =
    Vocabulary.members.map fun s => (s, checks.filter fun c => c.severity == s) := by
  rw [groupBySeverity, foldl_addToSeverity, List.map_map]
  rfl

end CheckRegistry.Check
