import Mathlib.Data.List.Perm.Subperm
import CheckRegistry.Proofs.Lookup

/-! # Suppression by name

Whether a name in a scope suppresses a check is decided on the names of that check alone, without
a registry.  Which check a registry finds under a name is read off an index, without a scope.  The
two agree only because no two checks of a registry share a name: then the names of a scope are so
many keys, each of them leads to at most one check, and the checks that ordinary suppression
reaches are suppressed exactly when one of the keys leads to them (`isSuppressed_iff_get?`).
-/

namespace CheckRegistry

variable {c d : Check} {s : Scope} {r : Registry}

theorem Check.isSuppressed_iff_name (hc : c.suppressibility = .suppressWarnings) :
    c.isSuppressed s = true ↔ ∃ name ∈ s.names, name ∈ c.allNames := by
  rw [Check.isSuppressed, hc]
  simp only [NameSet.meets_eq_true_iff]
  exact exists_congr fun name => and_comm

theorem Check.isSuppressed_iff_annotation (hc : c.suppressibility = .customAnnotations) :
    c.isSuppressed s = true ↔ ∃ name ∈ s.annotations, name ∈ c.annotations := by
  rw [Check.isSuppressed, hc]
  simp only [NameSet.meets_eq_true_iff]
  exact exists_congr fun name => and_comm

/-- A scope of a single name suppresses only checks that have it. -/
theorem Check.mem_allNames_of_isSuppressed {name : String}
    (h : c.isSuppressed (.of [name] []) = true) : name ∈ c.allNames := by
  cases hc : c.suppressibility with
  | unsuppressible => simp [Check.isSuppressed, hc] at h
  | suppressWarnings =>
    obtain ⟨n, hn, hname⟩ := (Check.isSuppressed_iff_name hc).mp h
    obtain rfl : n = name := by simpa [Scope.of] using hn
    exact hname
  | customAnnotations =>
    obtain ⟨n, hn, _⟩ := (Check.isSuppressed_iff_annotation hc).mp h
    simp [Scope.of] at hn

namespace Registry

/-- The checks that a scope suppresses by naming them. -/
def suppressedByName (r : Registry) (s : Scope) : List Check :=
  r.checks.filter fun c => decide (c.suppressibility = .suppressWarnings) && c.isSuppressed s

theorem mem_suppressedByName : c ∈ r.suppressedByName s ↔
    c ∈ r.checks ∧ c.suppressibility = .suppressWarnings ∧ c.isSuppressed s = true := by
  rw [suppressedByName, List.mem_filter, Bool.and_eq_true, decide_eq_true_eq]

theorem Built.isSuppressed_iff_get? (h : r.Built) (hc : c ∈ r.checks)
    (hkind : c.suppressibility = .suppressWarnings) :
    c.isSuppressed s = true ↔ ∃ name ∈ s.names, r.get? name = some c := by
  rw [Check.isSuppressed_iff_name hkind]
  refine exists_congr fun name => and_congr_right fun _ => ?_
  rw [h.get?_eq_some_iff]
  exact ⟨fun hname => ⟨hc, hname⟩, fun hfound => hfound.2⟩

/-- The checks that a scope suppresses by name are among those that its names lead to, and there
are no more of these than names. -/
theorem Built.length_suppressedByName_le (h : r.Built) (s : Scope) :
    (r.suppressedByName s).length ≤ s.names.toList.length := by
  have hnodup : (r.suppressedByName s).Nodup := (h.nodup_names.of_map _).filter _
  have hfound : r.suppressedByName s ⊆ s.names.toList.filterMap r.get? := by
    intro c hc
    obtain ⟨hmem, hkind, hsuppressed⟩ := mem_suppressedByName.mp hc
    obtain ⟨name, hname, hget⟩ := (h.isSuppressed_iff_get? hmem hkind).mp hsuppressed
    exact List.mem_filterMap.mpr ⟨name, hname, hget⟩
  calc (r.suppressedByName s).length
      ≤ (s.names.toList.filterMap r.get?).length := (hnodup.subperm hfound).length_le
    _ ≤ s.names.toList.length := List.length_filterMap_le _ _

/-- **One name silences at most one check, the one that it leads to.**  A check that ordinary
suppression reaches is suppressed exactly if a name of the scope leads to it; so a single name
suppresses no two checks, and a scope no more checks than it has names. -/
theorem suppression_follows_lookup (h : r.Built) :
    (∀ (s : Scope) (c : Check), c ∈ r.checks → c.suppressibility = .suppressWarnings →
      (c.isSuppressed s = true ↔ ∃ name ∈ s.names, r.get? name = some c)) ∧
    (∀ (name : String) (i j : Nat) (c d : Check), r.checks[i]? = some c → r.checks[j]? = some d →
      c.isSuppressed (.of [name] []) = true → d.isSuppressed (.of [name] []) = true → i = j) ∧
    ∀ s : Scope, (r.suppressedByName s).length ≤ s.names.toList.length := by
  refine ⟨fun s c hc hkind => h.isSuppressed_iff_get? hc hkind, ?_, h.length_suppressedByName_le⟩
  intro name i j c d hi hj hc hd
  exact eq_of_shared_name h.sound.2.1 hi hj (Check.mem_allNames_of_isSuppressed hc)
    (Check.mem_allNames_of_isSuppressed hd)

/-- A scope with an alternate name of one of two checks and a name of neither. -/
theorem suppression_follows_lookup_of_two :
    (ofList [aliased "Unused" "unused", aliased "Dead" "dead"]).Built ∧
    (aliased "Dead" "dead").isSuppressed (.of ["dead", "other"] []) = true ∧
    (aliased "Unused" "unused").isSuppressed (.of ["dead", "other"] []) = false ∧
    (∃ name ∈ (Scope.of ["dead", "other"] []).names,
      (ofList [aliased "Unused" "unused", aliased "Dead" "dead"]).get? name =
        some (aliased "Dead" "dead")) ∧
    ((ofList [aliased "Unused" "unused", aliased "Dead" "dead"]).suppressedByName
      (.of ["dead", "other"] [])).length ≤ 2 := by
  have hok : ofChecks [aliased "Unused" "unused", aliased "Dead" "dead"] false =
      .ok (ofList [aliased "Unused" "unused", aliased "Dead" "dead"]) := rfl
  have hdead : (aliased "Dead" "dead").isSuppressed (.of ["dead", "other"] []) = true := rfl
  obtain ⟨hfollows, _, hcount⟩ := suppression_follows_lookup (.ofChecks hok)
  exact ⟨.ofChecks hok, hdead, rfl,
    (hfollows _ _ (List.mem_cons_of_mem _ List.mem_cons_self) rfl).mp hdead, hcount (.of ["dead", "other"] [])⟩

end Registry

end CheckRegistry
