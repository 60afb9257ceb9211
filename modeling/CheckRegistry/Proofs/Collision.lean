import Mathlib.Data.List.Perm.Basic
import CheckRegistry.Proofs.Lists.Positions
import CheckRegistry.Proofs.Lists.Selection
import CheckRegistry.Registry.Collision

/-! # What the search for collisions finds

`Collision.find` works with positions: it collects the claimants of each name and compares the
others with the check at hand.  Nothing it reports depends on the positions themselves.  A name is
contested when two checks claim it (`claimCount`), and what a check is told about a contested name
is a function of the check and of the claimants as a collection (`report`).  So the search commutes
with every reordering of the checks, which is what "no claimant has a better right" amounts to.
-/

namespace CheckRegistry

/-- Two checks share a name, as the own name or an alternate name of either. -/
def Check.SharesName (c d : Check) : Prop := ∃ name, name ∈ c.allNames ∧ name ∈ d.allNames

instance (c d : Check) : Decidable (c.SharesName d) :=
  decidable_of_iff (c.allNames.meets d.allNames = true) NameSet.meets_eq_true_iff

theorem Check.sharesName_of_name_eq {c d : Check} (h : c.name = d.name) : c.SharesName d :=
  ⟨c.name, Check.mem_allNames.mpr (Or.inl rfl), Check.mem_allNames.mpr (Or.inl h)⟩

namespace Collision

variable {checks checks' : List Check} {c : Check} {name : String} {i : Nat}

/-- The number of checks that claim a name. -/
def claimCount (checks : List Check) (name : String) : Nat :=
  checks.countP fun c => decide (name ∈ c.allNames)

theorem claimCount_perm (h : checks.Perm checks') (name : String) :
    claimCount checks name = claimCount checks' name :=
  h.countP_eq _

theorem length_claimants (checks : List Check) (name : String) :
    (claimants checks name).length = claimCount checks name := by
  have hfst := Lists.map_fst_filter_zipIdx (fun c : Check => decide (name ∈ c.allNames)) checks 0
  rw [claimants, claimCount, List.countP_eq_length_filter, List.length_map, ← hfst, List.length_map]

theorem mem_claimants : i ∈ claimants checks name ↔
    ∃ c, checks[i]? = some c ∧ name ∈ c.allNames := by
  simp [claimants, List.mk_mem_zipIdx_iff_getElem?]

theorem mem_claimedNames : name ∈ claimedNames checks ↔ ∃ c ∈ checks, name ∈ c.allNames := by
  simp [claimedNames, NameSet.mem_def]

/-! ## Contested names -/

theorem mem_contestedNames : name ∈ contestedNames checks ↔ 2 ≤ claimCount checks name := by
  rw [contestedNames, List.mem_filter, mem_claimedNames, decide_eq_true_eq, length_claimants]
  refine ⟨fun h => h.2, fun h => ⟨?_, h⟩⟩
  obtain ⟨c, hc, hn⟩ := List.countP_pos_iff.mp (Nat.lt_of_lt_of_le Nat.zero_lt_two h)
  exact ⟨c, hc, of_decide_eq_true hn⟩

theorem nodup_contestedNames (checks : List Check) : (contestedNames checks).Nodup :=
  (Lists.nodup_eraseDups _).filter _

theorem contestedNames_perm (h : checks.Perm checks') :
    (contestedNames checks).Perm (contestedNames checks') :=
  (List.perm_ext_iff_of_nodup (nodup_contestedNames checks) (nodup_contestedNames checks')).mpr
    fun name => by rw [mem_contestedNames, mem_contestedNames, claimCount_perm h]

/-- A list, seen from one of its positions, is the entry there and all others. -/
theorem perm_cons_eraseIdx (h : checks[i]? = some c) : checks.Perm (c :: checks.eraseIdx i) := by
  obtain ⟨hi, rfl⟩ := List.getElem?_eq_some_iff.mp h
  exact (List.getElem_cons_eraseIdx_perm hi).symm

/-- A name that the check at position `i` claims is contested when one of the others claims it as
well. -/
theorem mem_contestedNames_iff_others (h : checks[i]? = some c) (hn : name ∈ c.allNames) :
    name ∈ contestedNames checks ↔ ∃ d ∈ checks.eraseIdx i, name ∈ d.allNames := by
  have hcount : claimCount checks name = claimCount (checks.eraseIdx i) name + 1 := by
    rw [claimCount_perm (perm_cons_eraseIdx h), claimCount,
      List.countP_cons_of_pos (by simpa using hn), claimCount]
  have hpos : 0 < claimCount (checks.eraseIdx i) name ↔
      ∃ d ∈ checks.eraseIdx i, name ∈ d.allNames := by
    simp [claimCount, List.countP_pos_iff]
  rw [mem_contestedNames, hcount, ← hpos]
  omega

theorem claimsAny_iff {names : List String} :
    claimsAny names c = true ↔ ∃ name ∈ names, name ∈ c.allNames := by
  simp [claimsAny]

/-- The check at position `i` claims a contested name exactly when it shares a name with one of
the others. -/
theorem claimsAny_contestedNames_iff (h : checks[i]? = some c) :
    claimsAny (contestedNames checks) c = true ↔ ∃ d ∈ checks.eraseIdx i, c.SharesName d := by
  rw [claimsAny_iff]
  constructor
  · rintro ⟨name, hcontested, hn⟩
    obtain ⟨d, hd, hnd⟩ := (mem_contestedNames_iff_others h hn).mp hcontested
    exact ⟨d, hd, name, hn, hnd⟩
  · rintro ⟨d, hd, name, hn, hnd⟩
    exact ⟨name, (mem_contestedNames_iff_others h hn).mpr ⟨d, hd, hnd⟩, hn⟩

theorem claimsAny_perm {names names' : List String} (h : names.Perm names') (c : Check) :
    claimsAny names c = claimsAny names' c := by
  rw [Bool.eq_iff_iff, claimsAny_iff, claimsAny_iff]
  exact ⟨fun ⟨n, hn, hc⟩ => ⟨n, h.mem_iff.mp hn, hc⟩, fun ⟨n, hn, hc⟩ => ⟨n, h.mem_iff.mpr hn, hc⟩⟩

/-! ## Checks that go together -/

/-- No two of the checks share a name. -/
def Free (checks : List Check) : Prop := checks.Pairwise fun c d => ¬ c.SharesName d

/-- Checks that claim no contested name go together: a name that two of them shared would be
contested. -/
theorem free_uncontested (checks : List Check) : Free (uncontested checks) := by
  refine List.pairwise_filter.mpr (List.pairwise_iff_getElem.mpr ?_)
  intro i j hi hj hij hpi _ hshare
  have hother : checks[j] ∈ checks.eraseIdx i :=
    List.mem_eraseIdx_iff_getElem?.mpr ⟨j, by omega, List.getElem?_eq_getElem hj⟩
  have hclaims := (claimsAny_contestedNames_iff (List.getElem?_eq_getElem hi)).mpr
    ⟨checks[j], hother, hshare⟩
  simp [hclaims] at hpi

theorem free_iff_contestedNames_eq_nil : Free checks ↔ contestedNames checks = [] := by
  constructor
  · intro hfree
    refine List.eq_nil_iff_forall_not_mem.mpr fun name hname => ?_
    have htwo := mem_contestedNames.mp hname
    -- two claimants of one name share it, so the claimants of a name are pairwise impossible
    have hall : (checks.filter fun c => decide (name ∈ c.allNames)).Pairwise fun _ _ => False := by
      refine List.pairwise_filter.mpr (hfree.imp ?_)
      intro c d hcd hc hd
      exact hcd ⟨name, of_decide_eq_true hc, of_decide_eq_true hd⟩
    rw [claimCount, List.countP_eq_length_filter] at htwo
    match hl : checks.filter fun c => decide (name ∈ c.allNames) with
    | [] => rw [hl] at htwo; simp at htwo
    | [_] => rw [hl] at htwo; simp at htwo
    | a :: b :: rest => rw [hl] at hall; exact (List.pairwise_cons.mp hall).1 b (by simp)
  · intro hnil
    have hself : uncontested checks = checks := by
      simp [uncontested, hnil, claimsAny]
    exact hself ▸ free_uncontested checks

theorem uncontested_of_free (h : Free checks) : uncontested checks = checks := by
  simp [uncontested, free_iff_contestedNames_eq_nil.mp h, claimsAny]

theorem find_of_free (h : Free checks) : find checks = [] := by
  simp [find, free_iff_contestedNames_eq_nil.mp h, claimsAny]

/-- Names of checks that go together are distinct. -/
theorem nodup_names_of_free (h : Free checks) : (checks.map Check.name).Nodup :=
  List.pairwise_map.mpr (h.imp fun hcd he => hcd (Check.sharesName_of_name_eq he))

/-! ## What the claimants are told -/

/-- What a check is told about a name: whose else it is, without regard to positions. -/
def report (checks : List Check) (c : Check) (name : String) : Violation :=
  ⟨.nameCollision, if c.name = name then "name" else "alt_names",
    Text.quoted name ++ " is also claimed by " ++ ", ".intercalate (sortTexts
      (((checks.filter fun d => decide (name ∈ d.allNames)).map Check.name).erase c.name)), .fatal⟩

/-- What a check is told about all contested names of its own. -/
def reports (checks : List Check) (c : Check) : List Violation :=
  ((contestedNames checks).filter fun name => decide (name ∈ c.allNames)).map (report checks c)

/-- The rivals of the check at a position are the claimants among the others. -/
theorem rivals_eq (checks : List Check) (i : Nat) (name : String) :
    rivals checks i name =
      sortTexts
        (((checks.eraseIdx i).filter fun d => decide (name ∈ d.allNames)).map Check.name) := by
  have h := Lists.map_fst_filter_zipIdx_ne (fun d : Check => decide (name ∈ d.allNames)) checks i 0
  rw [Nat.zero_add] at h
  rw [rivals, ← h, List.map_map]
  rfl

theorem violation_eq_report (h : checks[i]? = some c) (hn : name ∈ c.allNames) :
    violation checks i c name = report checks c name := by
  have hothers : ((checks.filter fun d => decide (name ∈ d.allNames)).map Check.name).Perm
      (c.name ::
        ((checks.eraseIdx i).filter fun d => decide (name ∈ d.allNames)).map Check.name) := by
    have := ((perm_cons_eraseIdx h).filter fun d => decide (name ∈ d.allNames)).map Check.name
    rwa [List.filter_cons_of_pos (by simpa using hn), List.map_cons] at this
  -- positions are gone: a check leaves its own name out of the claimants' names once
  have herase := hothers.erase c.name
  rw [List.erase_cons_head] at herase
  rw [violation, report, rivals_eq, sortTexts_eq_of_perm herase]

theorem violations_eq_reports (h : checks[i]? = some c) :
    violations checks (contestedNames checks) i c = reports checks c := by
  refine List.map_congr_left fun name hname => ?_
  exact violation_eq_report h (of_decide_eq_true (List.mem_filter.mp hname).2)

theorem find_eq (checks : List Check) :
    find checks = (checks.filter (claimsAny (contestedNames checks))).map
      fun c => (c, reports checks c) := by
  rw [← Lists.map_fst_filter_zipIdx (claimsAny (contestedNames checks)) checks 0, List.map_map,
    find]
  refine List.map_congr_left fun x hx => ?_
  have hget := List.mem_zipIdx_iff_getElem?.mp (List.mem_filter.mp hx).1
  exact congrArg (x.1, ·) (violations_eq_reports hget)

theorem reports_ne_nil (h : claimsAny (contestedNames checks) c = true) :
    reports checks c ≠ [] := by
  obtain ⟨name, hcontested, hn⟩ := claimsAny_iff.mp h
  have hmem : report checks c name ∈ reports checks c :=
    List.mem_map_of_mem (List.mem_filter.mpr ⟨hcontested, decide_eq_true hn⟩)
  exact List.ne_nil_of_mem hmem

theorem find_eq_nil_iff : find checks = [] ↔ Free checks := by
  refine ⟨fun h => ?_, find_of_free⟩
  rw [find_eq, List.map_eq_nil_iff, List.filter_eq_nil_iff] at h
  have hself : uncontested checks = checks :=
    List.filter_eq_self.mpr fun c hc => by simpa using h c hc
  exact hself ▸ free_uncontested checks

/-! ### All violations at once -/

theorem mem_order : i ∈ order checks ↔
    ∃ c, checks[i]? = some c ∧ claimsAny (contestedNames checks) c = true := by
  simp only [order, List.mem_eraseDups, List.mem_flatMap, mem_claimants, claimsAny_iff]
  constructor
  · rintro ⟨name, hcontested, c, hget, hn⟩
    exact ⟨c, hget, name, hcontested, hn⟩
  · rintro ⟨c, hget, name, hcontested, hn⟩
    exact ⟨name, hcontested, c, hget, hn⟩

/-- The claimants in the order in which contested names come up are the claimants in order of
position, rearranged. -/
theorem order_perm (checks : List Check) :
    (order checks).Perm
      ((checks.zipIdx.filter fun x => claimsAny (contestedNames checks) x.1).map Prod.snd) := by
  have hnodup : ((checks.zipIdx.filter fun x =>
      claimsAny (contestedNames checks) x.1).map Prod.snd).Nodup := by
    refine List.Nodup.sublist (List.filter_sublist.map Prod.snd) ?_
    rw [List.zipIdx_map_snd]
    exact List.nodup_range'
  refine (List.perm_ext_iff_of_nodup (Lists.nodup_eraseDups _) hnodup).mpr fun i => ?_
  refine mem_order.trans ?_
  simp [List.mk_mem_zipIdx_iff_getElem?]

/-- All violations at once are those of the single checks, rearranged. -/
theorem all_perm (checks : List Check) : (all checks).Perm ((find checks).flatMap Prod.snd) := by
  let told (i : Nat) : List Violation :=
    (checks[i]?.map (violations checks (contestedNames checks) i)).getD []
  have htold : ∀ x ∈ checks.zipIdx.filter fun x => claimsAny (contestedNames checks) x.1,
      told x.2 = violations checks (contestedNames checks) x.2 x.1 := by
    intro x hx
    have hget := List.mem_zipIdx_iff_getElem?.mp (List.mem_filter.mp hx).1
    simp [told, hget]
  have hfind : (find checks).flatMap Prod.snd =
      ((checks.zipIdx.filter fun x => claimsAny (contestedNames checks) x.1).map Prod.snd).flatMap
        told := by
    rw [find, List.flatMap_map, List.flatMap_map]
    exact (List.flatMap_congr htold).symm
  rw [hfind]
  exact (order_perm checks).flatMap_right told

theorem all_eq_nil_iff : all checks = [] ↔ Free checks := by
  rw [← find_eq_nil_iff]
  constructor
  · intro h
    have hnil := (h ▸ all_perm checks).nil_eq
    rw [find_eq, List.flatMap_map, eq_comm, List.flatMap_eq_nil_iff] at hnil
    rw [find_eq, List.map_eq_nil_iff, List.eq_nil_iff_forall_not_mem]
    exact fun c hc => reports_ne_nil (List.mem_filter.mp hc).2 (hnil c hc)
  · intro h
    have hperm := all_perm checks
    rw [h] at hperm
    exact hperm.eq_nil

/-! ## Reordering the checks -/

theorem report_perm (h : checks.Perm checks') (c : Check) (name : String) :
    report checks c name = report checks' c name := by
  have hothers := ((h.filter fun d => decide (name ∈ d.allNames)).map Check.name).erase c.name
  rw [report, report, sortTexts_eq_of_perm hothers]

theorem reports_perm (h : checks.Perm checks') (c : Check) :
    (reports checks c).Perm (reports checks' c) := by
  have hreport : report checks c = report checks' c := funext (report_perm h c)
  rw [reports, reports, hreport]
  exact ((contestedNames_perm h).filter _).map _

theorem Free.perm (hfree : Free checks) (hperm : checks.Perm checks') : Free checks' :=
  (hperm.pairwise_iff fun hcd ⟨name, hd, hc⟩ => hcd ⟨name, hc, hd⟩).mp hfree

theorem uncontested_perm (h : checks.Perm checks') :
    (uncontested checks).Perm (uncontested checks') := by
  have hclaims : claimsAny (contestedNames checks) = claimsAny (contestedNames checks') :=
    funext (claimsAny_perm (contestedNames_perm h))
  rw [uncontested, uncontested, hclaims]
  exact h.filter _

end Collision

end CheckRegistry
