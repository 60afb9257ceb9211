import CheckRegistry.Proofs.Collision
import CheckRegistry.Registry.Build

/-! # What a registry is made of

There are two ways to a registry.  `Registry.ofChecks` takes checks and refuses them all when one
of them is invalid or two of them share a name; `Build.ofList` takes declarations and leaves out
whatever stands in the way.  Both end with checks that are valid by themselves and go together, and
the second never needs to be refused: what it keeps is what the first accepts
(`ofChecks_registry_checks`).  `Registry.Built` covers both ways, and `Registry.Built.sound` is all
that later results need to know about them.
-/

namespace CheckRegistry

namespace Registry

variable {checks : List Check} {strict : Bool} {r : Registry}

theorem isOk_iff_errors_eq_nil {report : Report} : report.isOk = true ↔ report.errors = [] := by
  simp [Report.isOk]

/-- The strict constructor accepts exactly the checks that are valid by themselves and go
together. -/
theorem ofChecks_eq_ok_iff : ofChecks checks strict = .ok r ↔
    (∀ c ∈ checks, (c.judge strict).isOk = true) ∧ Collision.Free checks ∧ r = ofList checks := by
  have hproblems : ((checks.flatMap fun c => (c.judge strict).errors) ++
        Collision.all checks).isEmpty = true ↔
      (∀ c ∈ checks, (c.judge strict).isOk = true) ∧ Collision.Free checks := by
    simp only [List.isEmpty_iff, List.append_eq_nil_iff, List.flatMap_eq_nil_iff,
      Collision.all_eq_nil_iff, isOk_iff_errors_eq_nil]
  rw [← and_assoc, ← hproblems]
  simp only [ofChecks]
  constructor
  · intro h
    split at h
    · next hempty => exact ⟨hempty, (Except.ok.inj h).symm⟩
    · exact absurd h (by simp)
  · rintro ⟨hempty, rfl⟩
    simp only [hempty, ite_true]

/-- A refusal carries all fatal violations of the checks, and then all collisions. -/
theorem violations_of_ofChecks_error {e : Invalid} (h : ofChecks checks strict = .error e) :
    e.violations = (checks.flatMap fun c => (c.judge strict).errors) ++ Collision.all checks := by
  simp only [ofChecks] at h
  split at h
  · exact absurd h (by simp)
  · exact (Except.error.inj h) ▸ rfl

end Registry

/-! ## What declarations come to -/

/-- The check that a declaration describes, if it describes one. -/
def Declared.construct : Declared → Except Malformed Check
  | .check c => .ok c
  | .record r => Check.ofRecord r

/-- The check that a declaration describes, if it describes one that is valid by itself. -/
def Declared.candidate? (strict : Bool) (d : Declared) : Option Check :=
  match d.construct with
  | .ok c => if (c.judge strict).isOk then some c else none
  | .error _ => none

theorem Declared.candidate?_eq_some_iff {strict : Bool} {d : Declared} {c : Check} :
    d.candidate? strict = some c ↔ d.construct = .ok c ∧ (c.judge strict).isOk = true := by
  unfold candidate?
  cases hd : d.construct with
  | error e => simp
  | ok b =>
    simp only [Option.ite_none_right_eq_some, Option.some.injEq, Except.ok.injEq]
    constructor
    · rintro ⟨hok, rfl⟩
      exact ⟨rfl, hok⟩
    · rintro ⟨rfl, hok⟩
      exact ⟨hok, rfl⟩

/-- What judging a declaration can come to: its check is accepted with its warnings, its check is
invalid, or it describes no check. -/
theorem Declared.judge_cases (strict : Bool) (d : Declared) :
    (∃ c, d.construct = .ok c ∧ (c.judge strict).isOk = true ∧
      d.judge strict = .accepted c (c.judge strict).warnings) ∨
    (∃ c, d.construct = .ok c ∧ (c.judge strict).isOk = false ∧
      d.judge strict = .rejected ⟨c.name, (c.judge strict).errors⟩) ∨
    (∃ r e, d = .record r ∧ Check.ofRecord r = .error e ∧
      d.judge strict = .rejected ⟨r.declaredName, [e.violation]⟩) := by
  cases d with
  | check c =>
    cases hok : (c.judge strict).isOk with
    | true => exact Or.inl ⟨c, rfl, hok, by simp [judge, hok]⟩
    | false => exact Or.inr (Or.inl ⟨c, rfl, hok, by simp [judge, hok]⟩)
  | record r =>
    cases hr : Check.ofRecord r with
    | error e => exact Or.inr (Or.inr ⟨r, e, rfl, hr, by simp [judge, hr]⟩)
    | ok c =>
      cases hok : (c.judge strict).isOk with
      | true => exact Or.inl ⟨c, hr, hok, by simp [judge, hr, hok]⟩
      | false => exact Or.inr (Or.inl ⟨c, hr, hok, by simp [judge, hr, hok]⟩)

theorem Declared.check?_judge (strict : Bool) (d : Declared) :
    (d.judge strict).check? = d.candidate? strict := by
  rcases d.judge_cases strict with ⟨c, hc, hok, hj⟩ | ⟨c, hc, hok, hj⟩ | ⟨r, e, rfl, he, hj⟩
  · simp [hj, candidate?, hc, hok, Verdict.check?]
  · simp [hj, candidate?, hc, hok, Verdict.check?]
  · simp [hj, candidate?, construct, he, Verdict.check?]

namespace Build

variable {declared : List Declared} {config : Config} {strict : Bool} {c : Check}

/-- The checks that declarations describe and that are valid by themselves, in order. -/
def candidates (declared : List Declared) (strict : Bool) : List Check :=
  declared.filterMap (Declared.candidate? strict)

/-- What is left out before the names of the others are compared, in order. -/
def refusals (declared : List Declared) (strict : Bool) : List Rejected :=
  declared.filterMap fun d => (d.judge strict).rejected?

/-- Whether a check shares a name with another of some candidates. -/
def contested (checks : List Check) (c : Check) : Bool :=
  Collision.claimsAny (Collision.contestedNames checks) c

/-- How a contested check is reported. -/
def exclusion (checks : List Check) (c : Check) : Rejected := ⟨c.name, Collision.reports checks c⟩

theorem isOk_of_mem_candidates (h : c ∈ candidates declared strict) :
    (c.judge strict).isOk = true := by
  obtain ⟨d, _, hd⟩ := List.mem_filterMap.mp h
  exact (Declared.candidate?_eq_some_iff.mp hd).2

/-- How all contested checks among some are reported, in order. -/
def exclusions (checks : List Check) : List Rejected :=
  (checks.filter (contested checks)).map (exclusion checks)

/-- **A build in terms of its candidates.**  Every result below about what a build registers,
reports or warns of starts from here. -/
theorem ofList_eq (declared : List Declared) (config : Config) :
    ofList declared config =
      { registry := Registry.ofList (Collision.uncontested (candidates declared config.strict))
        rejected := refusals declared config.strict ++
          exclusions (candidates declared config.strict)
        warnings := declared.flatMap fun d => (d.judge config.strict).warnings } := by
  have haccepted : (declared.map (Declared.judge config.strict)).filterMap (·.check?) =
      candidates declared config.strict := by
    rw [List.filterMap_map]
    exact congrArg (declared.filterMap ·) (funext (Declared.check?_judge config.strict))
  simp only [ofList, haccepted, Collision.find_eq, List.map_map, List.flatMap_map]
  rw [List.filterMap_map]
  rfl

theorem ofList_checks (declared : List Declared) (config : Config) :
    (ofList declared config).registry.checks =
      (candidates declared config.strict).filter
        fun c => !contested (candidates declared config.strict) c := by
  rw [ofList_eq]; rfl

theorem isOk_of_mem_checks (h : c ∈ (ofList declared config).registry.checks) :
    (c.judge config.strict).isOk = true := by
  rw [ofList_checks] at h
  exact isOk_of_mem_candidates (List.mem_filter.mp h).1

theorem free_checks (declared : List Declared) (config : Config) :
    Collision.Free (ofList declared config).registry.checks := by
  rw [ofList_eq]
  exact Collision.free_uncontested _

/-- **The lenient build needs no second refusal.**  Judging what it keeps once more, as the strict
constructor does, finds no violation and no collision. -/
theorem ofChecks_registry_checks (declared : List Declared) (config : Config) :
    Registry.ofChecks (ofList declared config).registry.checks config.strict =
      .ok (ofList declared config).registry := by
  refine Registry.ofChecks_eq_ok_iff.mpr
    ⟨fun c hc => isOk_of_mem_checks hc, free_checks declared config, ?_⟩
  rw [ofList_eq]; rfl

end Build

/-! ## Registries that can be built -/

/-- The registries that can be built, in either way. -/
inductive Registry.Built : Registry → Prop
  | ofChecks {checks : List Check} {strict : Bool} {r : Registry}
      (h : Registry.ofChecks checks strict = .ok r) : Built r
  | ofDeclared (declared : List Declared) (config : Config) :
      Built (Build.ofList declared config).registry

/-- Whichever way a registry was built, its checks are valid by themselves, go together, and
determine it. -/
theorem Registry.Built.sound {r : Registry} (h : r.Built) :
    (∃ strict, ∀ c ∈ r.checks, (c.judge strict).isOk = true) ∧ Collision.Free r.checks ∧
      r = Registry.ofList r.checks := by
  have general : ∀ {checks : List Check} {strict : Bool},
      Registry.ofChecks checks strict = .ok r →
      (∃ strict, ∀ c ∈ r.checks, (c.judge strict).isOk = true) ∧ Collision.Free r.checks ∧
        r = Registry.ofList r.checks := by
    intro checks strict hok
    obtain ⟨hvalid, hfree, rfl⟩ := Registry.ofChecks_eq_ok_iff.mp hok
    exact ⟨⟨strict, hvalid⟩, hfree, rfl⟩
  cases h with
  | ofChecks h => exact general h
  | ofDeclared declared config => exact general (Build.ofChecks_registry_checks declared config)

theorem Registry.Built.nodup_names {r : Registry} (h : r.Built) :
    (r.checks.map Check.name).Nodup :=
  Collision.nodup_names_of_free h.sound.2.1

end CheckRegistry
