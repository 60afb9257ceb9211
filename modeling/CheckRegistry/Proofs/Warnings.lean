import CheckRegistry.Proofs.Strictness

/-! # Which checks a build warns of

A declaration is judged by itself, and its warnings are noted as soon as its check turns out to be
valid.  A malformed declaration and an invalid check have none.  Names are compared afterwards, and
a check that shares a name with another is taken out of the registry, but its warnings stay where
they are: a build warns of its candidates (`warnings_eq`), in order.

So no warning about a registered check is lost, and the warnings are just those about registered
checks exactly if there are none about a check that shares a name with another candidate
(`warnings_of_registered_iff`).
-/

namespace CheckRegistry.Build

variable {declared : List Declared} {config : Config} {strict : Bool}

/-- The warnings that judging some checks yields, each with the name of its check. -/
def warningsOf (strict : Bool) (checks : List Check) : List (String × Violation) :=
  checks.flatMap fun c => (c.judge strict).warnings.map fun w => (c.name, w)

theorem warnings_judge (strict : Bool) (d : Declared) :
    (d.judge strict).warnings = warningsOf strict (d.candidate? strict).toList := by
  rw [← Declared.check?_judge]
  rcases d.judge_cases strict with ⟨c, _, _, hj⟩ | ⟨c, _, _, hj⟩ | ⟨r, e, _, _, hj⟩
  · rw [hj]
    exact (List.append_nil _).symm
  · rw [hj]
    rfl
  · rw [hj]
    rfl

/-- A build warns of all its candidates, in the order of declaration. -/
theorem warnings_eq (declared : List Declared) (config : Config) :
    (ofList declared config).warnings =
      warningsOf config.strict (candidates declared config.strict) := by
  rw [ofList_eq, candidates, List.filterMap_eq_flatMap_toList, warningsOf, List.flatMap_assoc]
  exact List.flatMap_congr fun d _ => warnings_judge config.strict d

/-- A candidate is left out for its names exactly if it shares one with the candidate at another
position. -/
theorem forall_contested_iff {checks : List Check} {P : Check → Prop} :
    (∀ c ∈ checks, contested checks c = true → P c) ↔
      ∀ (i j : Nat) (c d : Check), i ≠ j → checks[i]? = some c → checks[j]? = some d →
        c.SharesName d → P c := by
  constructor
  · intro h i j c d hij hi hj hshare
    refine h c (List.mem_of_getElem? hi) ((Collision.claimsAny_contestedNames_iff hi).mpr ?_)
    exact ⟨d, List.mem_eraseIdx_iff_getElem?.mpr ⟨j, hij.symm, hj⟩, hshare⟩
  · intro h c hc hcontested
    obtain ⟨i, hi⟩ := List.getElem?_of_mem hc
    obtain ⟨d, hd, hshare⟩ := (Collision.claimsAny_contestedNames_iff hi).mp hcontested
    obtain ⟨j, hj, hjd⟩ := List.mem_eraseIdx_iff_getElem?.mp hd
    exact h i j c d hj.symm hi hjd hshare

/-- **Which checks a build warns of.**  It warns of all candidates, so no warning about a registered
check is lost.  It warns of registered checks only, exactly if there is nothing to warn of about a
candidate that shares a name with another. -/
theorem warnings_of_registered_iff (declared : List Declared) (config : Config) :
    (ofList declared config).warnings =
      warningsOf config.strict (candidates declared config.strict) ∧
    (warningsOf config.strict (ofList declared config).registry.checks).Sublist
      (ofList declared config).warnings ∧
    ((ofList declared config).warnings =
        warningsOf config.strict (ofList declared config).registry.checks ↔
      ∀ (i j : Nat) (c d : Check), i ≠ j → (candidates declared config.strict)[i]? = some c →
        (candidates declared config.strict)[j]? = some d → c.SharesName d →
          (c.judge config.strict).warnings = []) := by
  rw [warnings_eq, ofList_checks]
  refine ⟨rfl, List.filter_sublist.flatMap _, ?_⟩
  rw [← forall_contested_iff (P := fun c => (c.judge config.strict).warnings = []), warningsOf,
    warningsOf, Lists.flatMap_eq_flatMap_filter_iff]
  simp only [Bool.not_eq_false', List.map_eq_nil_iff]

/-- Two checks that share a name are both left out, and the warning about one of them stays. -/
theorem warned_of_unregistered :
    (ofList [.check (overlinked "Unused"), .check (Registry.aliased "Dead" "Unused")]
      {}).registry.checks = [] ∧
    (ofList [.check (overlinked "Unused"), .check (Registry.aliased "Dead" "Unused")]
      {}).warnings = [("Unused", ⟨.unusedLink, "link", "link is ignored when link type is NONE",
        .warning⟩)] ∧
    (ofList [.check (overlinked "Unused"), .check (Registry.aliased "Dead" "Unused")]
      {}).warnings ≠ warningsOf false (ofList [.check (overlinked "Unused"),
        .check (Registry.aliased "Dead" "Unused")] {}).registry.checks := by
  decide +kernel

end CheckRegistry.Build
