import CheckRegistry.Proofs.Registry

/-! # Building a registry from declarations, exactly

What `Build.ofList` does is told three times here, each time in full.  Seen from the declarations,
each meets one fate, and a bad one leaves no trace but its own report (`lossless`).  Seen from the
checks that are valid by themselves, exactly those go that share a name with another, each told of
every contested name of its own, whatever the order of declaration (`collisions_exact`).  Seen from
the strict constructor, the two ways to a registry agree on when something is wrong, on the
registry when nothing is, and on the violations when the checks are to blame only for their names
(`agrees_with_ofChecks`).
-/

namespace CheckRegistry.Build

variable {declared declared' : List Declared} {config : Config} {strict : Bool} {c : Check}

/-! ## The fate of a declaration -/

/-- What becomes of a declaration: its check is registered, or it is reported as a record that
describes no check, as an invalid check, or as a check whose names are contested. -/
inductive Fate (strict : Bool) : Declared → Check ⊕ Rejected → Prop
  | registered {d : Declared} {c : Check} (hc : d.construct = .ok c)
      (hvalid : (c.judge strict).isOk = true) : Fate strict d (.inl c)
  | malformed {r : Record} {e : Malformed} (he : Check.ofRecord r = .error e) :
      Fate strict (.record r) (.inr ⟨r.declaredName, [e.violation]⟩)
  | invalid {d : Declared} {c : Check} (hc : d.construct = .ok c)
      (hinvalid : (c.judge strict).isOk = false) :
      Fate strict d (.inr ⟨c.name, (c.judge strict).errors⟩)
  | contested {d : Declared} {c : Check} {vs : List Violation} (hc : d.construct = .ok c)
      (hvalid : (c.judge strict).isOk = true) (hne : vs ≠ [])
      (hrule : ∀ v ∈ vs, v.rule = .nameCollision) : Fate strict d (.inr ⟨c.name, vs⟩)

/-- The fate of a declaration among candidates. -/
def fate (checks : List Check) (strict : Bool) (d : Declared) : Check ⊕ Rejected :=
  match d.judge strict with
  | .rejected r => .inr r
  | .accepted c _ => if contested checks c then .inr (exclusion checks c) else .inl c

theorem fate_spec (checks : List Check) (strict : Bool) (d : Declared) :
    Fate strict d (fate checks strict d) := by
  rcases d.judge_cases strict with ⟨c, hc, hok, hj⟩ | ⟨c, hc, hok, hj⟩ | ⟨r, e, rfl, he, hj⟩
  · rw [fate, hj]
    by_cases hcontested : contested checks c = true
    · simp only [hcontested, ite_true]
      refine .contested hc hok (Collision.reports_ne_nil hcontested) fun v hv => ?_
      obtain ⟨name, _, rfl⟩ := List.mem_map.mp hv
      rfl
    · simp only [hcontested]
      exact .registered hc hok
  · rw [fate, hj]
    exact .invalid hc hok
  · rw [fate, hj]
    exact .malformed he

theorem getLeft?_fate (checks : List Check) (strict : Bool) (d : Declared) :
    (fate checks strict d).getLeft? =
      (d.candidate? strict).filter fun c => !contested checks c := by
  rw [← Declared.check?_judge, fate]
  cases d.judge strict with
  | rejected r => rfl
  | accepted c ws =>
    by_cases h : contested checks c = true <;>
      simp [Declared.Verdict.check?, Option.filter_some, h]

theorem getRight?_fate (checks : List Check) (strict : Bool) (d : Declared) :
    (fate checks strict d).getRight? = (d.judge strict).rejected?.or
      (((d.candidate? strict).filter (contested checks)).map (exclusion checks)) := by
  rw [← Declared.check?_judge, fate]
  cases d.judge strict with
  | rejected r => rfl
  | accepted c ws =>
    by_cases h : contested checks c = true <;>
      simp [Declared.Verdict.check?, Declared.Verdict.rejected?, Option.filter_some, h]

/-- The fates of all declarations, in order. -/
def fates (declared : List Declared) (strict : Bool) : List (Check ⊕ Rejected) :=
  declared.map (fate (candidates declared strict) strict)

theorem fates_spec (declared : List Declared) (strict : Bool) :
    List.Forall₂ (Fate strict) declared (fates declared strict) :=
  List.forall₂_map_right_iff.mpr (List.forall₂_same.mpr fun d _ => fate_spec _ strict d)

theorem checks_eq_fates (declared : List Declared) (config : Config) :
    (ofList declared config).registry.checks =
      (fates declared config.strict).filterMap Sum.getLeft? := by
  rw [ofList_checks, fates, List.filterMap_map]
  conv_lhs => rw [candidates, List.filter_filterMap]
  exact List.filterMap_congr fun d _ => (getLeft?_fate _ config.strict d).symm

theorem rejected_perm_fates (declared : List Declared) (config : Config) :
    (ofList declared config).rejected.Perm
      ((fates declared config.strict).filterMap Sum.getRight?) := by
  -- what is refused by itself never gets as far as being contested
  have hdisjoint : ∀ d ∈ declared, (d.judge config.strict).rejected? = none ∨
      (((d.candidate? config.strict).filter (contested (candidates declared config.strict))).map
        (exclusion (candidates declared config.strict))) = none := by
    intro d _
    rw [← Declared.check?_judge]
    cases d.judge config.strict with
    | rejected r => exact Or.inr rfl
    | accepted c ws => exact Or.inl rfl
  have hsplit := Lists.filterMap_or_perm hdisjoint
  have hcontested : exclusions (candidates declared config.strict) =
      declared.filterMap fun d => ((d.candidate? config.strict).filter
        (contested (candidates declared config.strict))).map
          (exclusion (candidates declared config.strict)) := by
    unfold exclusions
    conv_lhs => rw [candidates, List.filter_filterMap, List.map_filterMap]
    rfl
  rw [ofList_eq, hcontested, fates, List.filterMap_map]
  refine hsplit.symm.trans (List.Perm.of_eq ?_)
  exact List.filterMap_congr fun d _ => (getRight?_fate _ config.strict d).symm

/-! ## Nothing is lost, and nothing bad spreads -/

/-- A declaration that is bad by itself is reported in its place, and without it the build is the
same but for that report. -/
theorem ofList_without {d : Declared} (before after : List Declared) (config : Config)
    (hd : d.candidate? config.strict = none) :
    ∃ r earlier later, Fate config.strict d (.inr r) ∧
      (ofList (before ++ d :: after) config).rejected = earlier ++ r :: later ∧
      ofList (before ++ after) config =
        { ofList (before ++ d :: after) config with rejected := earlier ++ later } := by
  obtain ⟨r, hfate, hj⟩ : ∃ r, Fate config.strict d (.inr r) ∧
      d.judge config.strict = .rejected r := by
    rcases d.judge_cases config.strict with ⟨c, hc, hok, _⟩ | ⟨c, hc, hok, hj⟩ | ⟨r, e, rfl, he, hj⟩
    · rw [Declared.candidate?_eq_some_iff.mpr ⟨hc, hok⟩] at hd
      cases hd
    · exact ⟨_, .invalid hc hok, hj⟩
    · exact ⟨_, .malformed he, hj⟩
  -- a bad declaration is no candidate, so it meets nobody's name
  have hcandidates : candidates (before ++ d :: after) config.strict =
      candidates (before ++ after) config.strict := by
    simp [candidates, List.filterMap_append, hd]
  have hrefusals : refusals (before ++ d :: after) config.strict =
      refusals before config.strict ++ r :: refusals after config.strict := by
    simp [refusals, List.filterMap_append, hj, Declared.Verdict.rejected?]
  refine ⟨r, refusals before config.strict, refusals after config.strict ++
    exclusions (candidates (before ++ after) config.strict), hfate, ?_, ?_⟩
  · rw [ofList_eq, hcandidates, hrefusals, List.append_assoc, List.cons_append]
  · rw [ofList_eq, ofList_eq, hcandidates]
    simp [refusals, List.filterMap_append, hj, Declared.Verdict.warnings]

theorem refusals_eq_nil_iff {checks : List Check} :
    refusals (checks.map .check) strict = [] ↔ ∀ c ∈ checks, (c.judge strict).isOk = true := by
  rw [refusals, List.filterMap_map, List.filterMap_eq_nil_iff]
  refine forall₂_congr fun c _ => ?_
  cases hok : (c.judge strict).isOk <;> simp [Declared.judge, hok, Declared.Verdict.rejected?]

theorem candidates_of_valid {checks : List Check}
    (hvalid : ∀ c ∈ checks, (c.judge strict).isOk = true) :
    candidates (checks.map .check) strict = checks := by
  have hcandidate : ∀ c ∈ checks, (Declared.candidate? strict ∘ Declared.check) c = some c :=
    fun c hc => Declared.candidate?_eq_some_iff.mpr ⟨rfl, hvalid c hc⟩
  rw [candidates, List.filterMap_map, List.filterMap_congr hcandidate, List.filterMap_some]

theorem exclusions_eq_nil_iff {checks : List Check} :
    exclusions checks = [] ↔ Collision.Free checks := by
  rw [← Collision.find_eq_nil_iff, Collision.find_eq, exclusions, List.map_eq_nil_iff,
    List.map_eq_nil_iff]
  rfl

/-- Checks that are valid by themselves and go together are all registered. -/
theorem ofList_of_free {checks : List Check}
    (hvalid : ∀ c ∈ checks, (c.judge config.strict).isOk = true)
    (hfree : Collision.Free checks) :
    (ofList (checks.map .check) config).rejected = [] ∧
      (ofList (checks.map .check) config).registry = Registry.ofList checks := by
  rw [ofList_eq, candidates_of_valid hvalid, refusals_eq_nil_iff.mpr hvalid,
    exclusions_eq_nil_iff.mpr hfree, Collision.uncontested_of_free hfree]
  exact ⟨rfl, rfl⟩

/-- What a build owes to the declarations it is made of. -/
structure Lossless (declared : List Declared) (config : Config) (b : Build) : Prop where
  /-- The strict constructor accepts what is kept, so that no build fails at its last step. -/
  accepted : Registry.ofChecks b.registry.checks config.strict = .ok b.registry
  /-- Each declaration meets one fate: it is registered, at its place in the order, or reported. -/
  accounted : ∃ fates : List (Check ⊕ Rejected), List.Forall₂ (Fate config.strict) declared fates ∧
    b.registry.checks = fates.filterMap Sum.getLeft? ∧
    b.rejected.Perm (fates.filterMap Sum.getRight?)
  counted : b.registry.size + b.rejected.length = declared.length
  /-- Deleting a declaration that is bad by itself takes away its own report and nothing else. -/
  isolated : ∀ before d after, declared = before ++ d :: after →
    d.candidate? config.strict = none →
    ∃ r earlier later, Fate config.strict d (.inr r) ∧ b.rejected = earlier ++ r :: later ∧
      ofList (before ++ after) config = { b with rejected := earlier ++ later }
  /-- Building again from what is registered changes nothing. -/
  stable : (ofList (b.registry.checks.map .check) config).rejected = [] ∧
    (ofList (b.registry.checks.map .check) config).registry = b.registry

/-- **The lenient build loses nothing and isolates bad declarations**, for all declarations and
settings. -/
theorem lossless (declared : List Declared) (config : Config) :
    Lossless declared config (ofList declared config) where
  accepted := ofChecks_registry_checks declared config
  accounted := ⟨fates declared config.strict, fates_spec declared config.strict,
    checks_eq_fates declared config, rejected_perm_fates declared config⟩
  counted := by
    rw [Registry.size, checks_eq_fates, (rejected_perm_fates declared config).length_eq,
      Lists.length_getLeft?_add_getRight?, fates, List.length_map]
  isolated := by
    intro before d after h hd
    subst h
    exact ofList_without before after config hd
  stable := by
    have hregistry : (ofList declared config).registry =
        Registry.ofList (ofList declared config).registry.checks := by
      rw [ofList_eq]; rfl
    obtain ⟨hrejected, hagain⟩ :=
      ofList_of_free (fun c hc => isOk_of_mem_checks hc) (free_checks declared config)
    exact ⟨hrejected, hagain.trans hregistry.symm⟩

/-! ## Collisions are found exactly -/

/-- A violation that tells the check at position `i` that a name of its own is claimed by others,
whom it names in order. -/
structure Tells (checks : List Check) (i : Nat) (c : Check) (name : String) (v : Violation) :
    Prop where
  rule : v.rule = .nameCollision
  level : v.level = .fatal
  field : v.field = if c.name = name then "name" else "alt_names"
  message : ∃ others : List String, others.Pairwise (· ≤ ·) ∧
    others.Perm (((checks.eraseIdx i).filter fun d => decide (name ∈ d.allNames)).map Check.name) ∧
    v.message = Text.quoted name ++ " is also claimed by " ++ ", ".intercalate others

/-- Violations that tell the check at position `i` of each contested name of its own, once. -/
def TellsAll (checks : List Check) (i : Nat) (c : Check) (vs : List Violation) : Prop :=
  ∃ names : List String, names.Nodup ∧
    (∀ name, name ∈ names ↔ name ∈ c.allNames ∧ ∃ d ∈ checks.eraseIdx i, name ∈ d.allNames) ∧
    List.Forall₂ (Tells checks i c) names vs

theorem tellsAll_reports {checks : List Check} {i : Nat} (h : checks[i]? = some c) :
    TellsAll checks i c (Collision.reports checks c) := by
  have hmem : ∀ name, name ∈ (Collision.contestedNames checks).filter
        (fun name => decide (name ∈ c.allNames)) ↔
      name ∈ c.allNames ∧ ∃ d ∈ checks.eraseIdx i, name ∈ d.allNames := by
    intro name
    rw [List.mem_filter, decide_eq_true_eq, and_comm]
    exact and_congr_right fun hn => Collision.mem_contestedNames_iff_others h hn
  refine ⟨_, (Collision.nodup_contestedNames checks).filter _, hmem, ?_⟩
  refine List.forall₂_map_right_iff.mpr (List.forall₂_same.mpr fun name hname => ?_)
  have hn : name ∈ c.allNames := ((hmem name).mp hname).1
  refine ⟨rfl, rfl, rfl, Collision.rivals checks i name, ?_, ?_, ?_⟩
  · exact pairwise_sortTexts _
  · rw [Collision.rivals_eq]
    exact sortTexts_perm _
  · rw [← Collision.violation_eq_report h hn]; rfl

/-- Two reports of the same check that give the same violations in any order. -/
def SameReport (r r' : Rejected) : Prop := r.name = r'.name ∧ r.violations.Perm r'.violations

theorem contested_perm {checks checks' : List Check} (h : checks.Perm checks') :
    contested checks = contested checks' :=
  funext (Collision.claimsAny_perm (Collision.contestedNames_perm h))

theorem candidates_perm (h : declared.Perm declared') (strict : Bool) :
    (candidates declared strict).Perm (candidates declared' strict) :=
  h.filterMap _

theorem mem_checks_iff : c ∈ (ofList declared config).registry.checks ↔
    c ∈ candidates declared config.strict ∧
      contested (candidates declared config.strict) c = false := by
  rw [ofList_checks, List.mem_filter, Bool.not_eq_true']

/-- The order of declaration plays no part in what is registered. -/
theorem mem_checks_perm (h : declared.Perm declared') (config : Config) (c : Check) :
    c ∈ (ofList declared' config).registry.checks ↔
      c ∈ (ofList declared config).registry.checks := by
  have hcandidates := candidates_perm h config.strict
  rw [mem_checks_iff, mem_checks_iff, hcandidates.mem_iff, contested_perm hcandidates]

/-- The order of declaration plays no part in what is reported, but for the order of reports and
the order of violations within each. -/
theorem rejected_perm (h : declared.Perm declared') (config : Config) :
    ∃ rejected, (ofList declared' config).rejected.Perm rejected ∧
      List.Forall₂ SameReport (ofList declared config).rejected rejected := by
  have hcandidates := candidates_perm h config.strict
  refine ⟨refusals declared config.strict ++ ((candidates declared config.strict).filter
    (contested (candidates declared config.strict))).map
      (exclusion (candidates declared' config.strict)), ?_, ?_⟩
  · rw [ofList_eq, exclusions, contested_perm hcandidates]
    exact (h.filterMap _).symm.append ((hcandidates.filter _).map _).symm
  · rw [ofList_eq]
    refine List.rel_append ?_ ?_
    · exact List.forall₂_same.mpr fun r _ => ⟨rfl, .refl _⟩
    · refine List.forall₂_map_left_iff.mpr (List.forall₂_map_right_iff.mpr ?_)
      exact List.forall₂_same.mpr fun c _ => ⟨rfl, Collision.reports_perm hcandidates c⟩

/-- What a build does about names that several candidates claim. -/
structure CollisionsExact (declared : List Declared) (config : Config) (b : Build) : Prop where
  /-- A candidate is kept out exactly when another one shares a name with it. -/
  excluded_iff : ∀ (i : Nat) (c : Check), (candidates declared config.strict)[i]? = some c →
    (c ∉ b.registry.checks ↔
      ∃ (j : Nat) (d : Check), j ≠ i ∧ (candidates declared config.strict)[j]? = some d ∧
        c.SharesName d)
  /-- Each candidate that is kept out is told, after the reports on bad declarations. -/
  reported : ∃ told, b.rejected = refusals declared config.strict ++ told ∧
    List.Forall₂ (fun x r => r.name = x.1.name ∧
        TellsAll (candidates declared config.strict) x.2 x.1 r.violations)
      ((candidates declared config.strict).zipIdx.filter fun x => decide (x.1 ∉ b.registry.checks))
      told
  /-- No candidate has a better claim for having been declared earlier. -/
  orderFree : ∀ declared', declared.Perm declared' →
    (∀ c, c ∈ (ofList declared' config).registry.checks ↔ c ∈ b.registry.checks) ∧
    ∃ rejected, (ofList declared' config).rejected.Perm rejected ∧
      List.Forall₂ SameReport b.rejected rejected

/-- **Collisions are found exactly and without a tie-break**, for all declarations and settings. -/
theorem collisions_exact (declared : List Declared) (config : Config) :
    CollisionsExact declared config (ofList declared config) where
  excluded_iff := by
    intro i c hget
    have hc : c ∈ candidates declared config.strict := List.mem_of_getElem? hget
    have hcontested : c ∉ (ofList declared config).registry.checks ↔
        contested (candidates declared config.strict) c = true := by
      rw [mem_checks_iff, not_and, Bool.not_eq_false]
      exact ⟨fun h => h hc, fun h _ => h⟩
    rw [hcontested, contested, Collision.claimsAny_contestedNames_iff hget]
    constructor
    · rintro ⟨d, hd, hshare⟩
      obtain ⟨j, hj, hjd⟩ := List.mem_eraseIdx_iff_getElem?.mp hd
      exact ⟨j, d, hj, hjd, hshare⟩
    · rintro ⟨j, d, hj, hjd, hshare⟩
      exact ⟨d, List.mem_eraseIdx_iff_getElem?.mpr ⟨j, hj, hjd⟩, hshare⟩
  reported := by
    have hout : ∀ x ∈ (candidates declared config.strict).zipIdx,
        decide (x.1 ∉ (ofList declared config).registry.checks) =
          contested (candidates declared config.strict) x.1 := by
      intro x hx
      have hc : x.1 ∈ candidates declared config.strict := List.fst_mem_of_mem_zipIdx hx
      simp [mem_checks_iff, hc]
    refine ⟨exclusions (candidates declared config.strict), by rw [ofList_eq], ?_⟩
    rw [List.filter_congr hout, exclusions,
      ← Lists.map_fst_filter_zipIdx (contested _) (candidates declared config.strict) 0,
      List.map_map]
    refine List.forall₂_map_right_iff.mpr (List.forall₂_same.mpr fun x hx => ⟨rfl, ?_⟩)
    exact tellsAll_reports (List.mem_zipIdx_iff_getElem?.mp (List.mem_filter.mp hx).1)
  orderFree := fun _ h => ⟨mem_checks_perm h config, rejected_perm h config⟩

/-! ## The two ways to a registry agree -/

/-- The lenient build of checks leaves nothing out exactly when the strict constructor has nothing
to refuse. -/
theorem rejected_eq_nil_iff {checks : List Check} :
    (ofList (checks.map .check) config).rejected = [] ↔
      (∀ c ∈ checks, (c.judge config.strict).isOk = true) ∧ Collision.Free checks := by
  rw [ofList_eq, List.append_eq_nil_iff, refusals_eq_nil_iff]
  refine and_congr_right fun hvalid => ?_
  rw [candidates_of_valid hvalid, exclusions_eq_nil_iff]

/-- **The strict constructor and the lenient build agree.**  The one refuses exactly the checks of
which the other leaves something out.  Where nothing is wrong, both make the same registry; where
only names are, both list the same violations. -/
theorem agrees_with_ofChecks (checks : List Check) (config : Config) :
    ((∃ e, Registry.ofChecks checks config.strict = .error e) ↔
      (ofList (checks.map .check) config).rejected ≠ []) ∧
    (∀ r, Registry.ofChecks checks config.strict = .ok r →
      r.checks = checks ∧ (ofList (checks.map .check) config).registry.checks = checks ∧
        (ofList (checks.map .check) config).registry.index = r.index) ∧
    (∀ e, Registry.ofChecks checks config.strict = .error e →
      (∀ c ∈ checks, (c.judge config.strict).isOk = true) →
      e.violations.Perm
        ((ofList (checks.map .check) config).rejected.flatMap Rejected.violations)) := by
  refine ⟨?_, ?_, ?_⟩
  · rw [ne_eq, rejected_eq_nil_iff]
    cases h : Registry.ofChecks checks config.strict with
    | ok r =>
      obtain ⟨hvalid, hfree, _⟩ := Registry.ofChecks_eq_ok_iff.mp h
      simp only [reduceCtorEq, exists_false, false_iff, not_not]
      exact ⟨hvalid, hfree⟩
    | error e =>
      refine iff_of_true ⟨e, rfl⟩ fun ⟨hvalid, hfree⟩ => ?_
      rw [Registry.ofChecks_eq_ok_iff.mpr ⟨hvalid, hfree, rfl⟩] at h
      cases h
  · intro r h
    obtain ⟨hvalid, hfree, rfl⟩ := Registry.ofChecks_eq_ok_iff.mp h
    obtain ⟨_, hregistry⟩ := ofList_of_free hvalid hfree
    rw [hregistry]
    exact ⟨rfl, rfl, rfl⟩
  · intro e h hvalid
    have hnoErrors : (checks.flatMap fun c => (c.judge config.strict).errors) = [] :=
      List.flatMap_eq_nil_iff.mpr fun c hc => Registry.isOk_iff_errors_eq_nil.mp (hvalid c hc)
    have hrejected : (ofList (checks.map .check) config).rejected.flatMap Rejected.violations =
        (Collision.find checks).flatMap Prod.snd := by
      rw [ofList_eq, refusals_eq_nil_iff.mpr hvalid, candidates_of_valid hvalid, Collision.find_eq,
        List.nil_append, exclusions, List.flatMap_map, List.flatMap_map]
      rfl
    rw [Registry.violations_of_ofChecks_error h, hnoErrors, List.nil_append, hrejected]
    exact Collision.all_perm checks

end CheckRegistry.Build
