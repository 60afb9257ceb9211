import CheckRegistry.Proofs.Registry

/-! # Which checks are valid

A judgement goes through four groups of rules.  A group may stop at its first violation, or ask one
question or another, so which violations it reports depends on the order of its rules.  Whether it
reports any, or any that is fatal, does not: for each group that is a condition on the fields it
looks at, and together these say which checks are valid (`isOk_judge_false_iff`) and which remain
so when warnings count (`isOk_judge_true_iff`).

The report of a strict judgement is the other report with each level raised, and a report falls
apart into its errors and its warnings without a rest (`judgement_exact`).
-/

namespace CheckRegistry

/-! ## Tests on texts -/

namespace Text

theorem isBlankText_iff {s : String} : isBlankText s = true ↔ trim s = "" := by
  rw [isBlankText, String.isEmpty_iff]

theorem hasOuterBlank_iff {s : String} : hasOuterBlank s = true ↔ s ≠ trim s := by
  rw [hasOuterBlank, bne_iff_ne]

end Text

theorem NameSet.isEmpty_iff {s : NameSet} : s.isEmpty = true ↔ s = ∅ := by
  rw [NameSet.isEmpty, List.isEmpty_iff]
  constructor
  · intro h
    refine NameSet.ext fun a => iff_of_false ?_ (NameSet.not_mem_empty a)
    rw [NameSet.mem_def, h]
    exact List.not_mem_nil
  · rintro rfl
    rfl

namespace Check

variable {c : Check} {s : String}

theorem endsInPeriod_iff : endsInPeriod s = true ↔ ['.'] <:+ (Text.trim s).toList := by
  rw [endsInPeriod, beq_iff_eq, List.getLast?_eq_some_iff]
  constructor
  · rintro ⟨before, h⟩
    exact ⟨before, h.symm⟩
  · rintro ⟨before, h⟩
    exact ⟨before, h.symm⟩

theorem isUntidy_iff : isUntidy s = true ↔ s = "" ∨ s ≠ Text.trim s := by
  rw [isUntidy, Bool.or_eq_true, String.isEmpty_iff, Text.hasOuterBlank_iff]

/-! ## The conditions on the fields -/

/-- A check that may be registered. -/
structure WellFormed (c : Check) : Prop where
  link : c.linkType = .custom → Text.trim c.link ≠ ""
  annotations : c.suppressibility = .customAnnotations → c.annotations ≠ ∅
  summary : Text.trim c.summary ≠ ""
  noPeriod : ¬ ['.'] <:+ (Text.trim c.summary).toList
  oneLine : Text.hasBlockMarkup c.summary = false
  name : Text.trim c.name ≠ ""
  tidyName : c.name = Text.trim c.name
  altNames : ∀ alt ∈ c.altNames, alt ≠ "" ∧ alt = Text.trim alt
  noRepeat : c.name ∉ c.altNames

/-- A check that declares nothing that has no effect. -/
structure Frugal (c : Check) : Prop where
  link : c.linkType ≠ .custom → c.link = ""
  annotations : c.suppressibility ≠ .customAnnotations → c.annotations = ∅

/-- None of the violations is fatal. -/
def Harmless (vs : List Violation) : Prop := ∀ v ∈ vs, v.level = .warning

theorem harmless_append {vs ws : List Violation} :
    Harmless (vs ++ ws) ↔ Harmless vs ∧ Harmless ws := by
  simp only [Harmless, List.mem_append, or_imp, forall_and]

/-- Where every violation is fatal, it takes none to be harmless. -/
theorem harmless_iff_of_fatal {vs : List Violation} (h : ∀ v ∈ vs, v.level = .fatal) :
    Harmless vs ↔ vs = [] := by
  constructor
  · intro hwarning
    refine List.eq_nil_iff_forall_not_mem.mpr fun v hv => ?_
    cases (h v hv).symm.trans (hwarning v hv)
  · rintro rfl v hv
    cases hv

/-! ## What each group of rules comes to -/

/-! Links and annotations go by one pattern: what a setting requires has to be there, and under any
other setting it has no effect. -/

section

variable {required missing absent : Prop} [Decidable required] [Decidable missing]
  [Decidable absent] {v w : Violation}

theorem harmless_required_iff (hv : v.level = .fatal) (hw : w.level = .warning) :
    Harmless (if required then if missing then [v] else [] else if absent then [] else [w]) ↔
      (required → ¬ missing) := by
  by_cases hrequired : required
  · by_cases hmissing : missing <;> simp [hrequired, hmissing, Harmless, hv]
  · by_cases habsent : absent <;> simp [hrequired, habsent, Harmless, hw]

theorem required_eq_nil_iff :
    (if required then if missing then [v] else [] else if absent then [] else [w]) = [] ↔
      (required → ¬ missing) ∧ (¬ required → absent) := by
  by_cases hrequired : required <;> simp [hrequired]

end

theorem harmless_linkViolations :
    Harmless c.linkViolations ↔ (c.linkType = .custom → Text.trim c.link ≠ "") := by
  rw [linkViolations, harmless_required_iff rfl rfl, Text.isBlankText_iff]

theorem linkViolations_eq_nil_iff : c.linkViolations = [] ↔
    (c.linkType = .custom → Text.trim c.link ≠ "") ∧ (c.linkType ≠ .custom → c.link = "") := by
  rw [linkViolations, required_eq_nil_iff, Text.isBlankText_iff, String.isEmpty_iff]

theorem harmless_suppressionViolations : Harmless c.suppressionViolations ↔
    (c.suppressibility = .customAnnotations → c.annotations ≠ ∅) := by
  rw [suppressionViolations, harmless_required_iff rfl rfl, NameSet.isEmpty_iff]

theorem suppressionViolations_eq_nil_iff : c.suppressionViolations = [] ↔
    (c.suppressibility = .customAnnotations → c.annotations ≠ ∅) ∧
      (c.suppressibility ≠ .customAnnotations → c.annotations = ∅) := by
  rw [suppressionViolations, required_eq_nil_iff, NameSet.isEmpty_iff]

theorem fatal_of_mem_summaryViolations {v : Violation} (h : v ∈ c.summaryViolations) :
    v.level = .fatal := by
  rw [summaryViolations] at h
  split at h
  · rw [List.mem_singleton.mp h]
  · rcases List.mem_append.mp h with h | h
    · split at h
      · rw [List.mem_singleton.mp h]
      · cases h
    · split at h
      · rw [List.mem_singleton.mp h]
      · cases h

/-- An empty summary breaks no other rule, and none is needed to refuse it. -/
theorem summaryViolations_eq_nil_iff : c.summaryViolations = [] ↔
    Text.trim c.summary ≠ "" ∧ ¬ ['.'] <:+ (Text.trim c.summary).toList ∧
      Text.hasBlockMarkup c.summary = false := by
  rw [summaryViolations, ← endsInPeriod_iff]
  by_cases hblank : Text.isBlankText c.summary = true
  · have hempty := Text.isBlankText_iff.mp hblank
    simp [hblank, hempty]
  · have hthere : Text.trim c.summary ≠ "" := fun h => hblank (Text.isBlankText_iff.mpr h)
    simp [hblank, hthere]

theorem fatal_of_mem_nameViolations {v : Violation} (h : v ∈ c.nameViolations) :
    v.level = .fatal := by
  rw [nameViolations, List.mem_append, List.mem_append] at h
  rcases h with (h | h) | h
  · split at h
    · rw [List.mem_singleton.mp h]
    · split at h
      · rw [List.mem_singleton.mp h]
      · cases h
  · obtain ⟨alt, _, rfl⟩ := List.mem_map.mp h
    rfl
  · split at h
    · rw [List.mem_singleton.mp h]
    · cases h

theorem nameViolations_eq_nil_iff : c.nameViolations = [] ↔
    Text.trim c.name ≠ "" ∧ c.name = Text.trim c.name ∧
      (∀ alt ∈ c.altNames, alt ≠ "" ∧ alt = Text.trim alt) ∧ c.name ∉ c.altNames := by
  have halts : c.altNames.toList.filter isUntidy = [] ↔
      ∀ alt ∈ c.altNames, alt ≠ "" ∧ alt = Text.trim alt := by
    rw [List.filter_eq_nil_iff]
    refine forall₂_congr fun alt _ => ?_
    rw [isUntidy_iff, not_or, ne_eq, Decidable.not_not]
  rw [nameViolations, List.append_eq_nil_iff, List.append_eq_nil_iff, List.map_eq_nil_iff, halts]
  by_cases hblank : Text.isBlankText c.name = true
  · have hempty := Text.isBlankText_iff.mp hblank
    simp [hblank, hempty]
  · have hthere : Text.trim c.name ≠ "" := fun h => hblank (Text.isBlankText_iff.mpr h)
    by_cases houter : Text.hasOuterBlank c.name = true
    · have hne := Text.hasOuterBlank_iff.mp houter
      simp [hblank, houter, hne]
    · have heq : c.name = Text.trim c.name :=
        Decidable.not_not.mp fun hne => houter (Text.hasOuterBlank_iff.mpr hne)
      have hnonempty : c.name ≠ "" := fun h => hthere (heq.symm.trans h)
      simp [hblank, houter, hnonempty, ← heq]

/-! ## Judgements -/

theorem isOk_judge_strict_iff : (c.judge true).isOk = true ↔ c.violations = [] := by
  have hall : (c.violations.map Violation.promoted).filter (·.isFatal) =
      c.violations.map Violation.promoted := by
    refine List.filter_eq_self.mpr fun v hv => ?_
    obtain ⟨w, _, rfl⟩ := List.mem_map.mp hv
    rfl
  rw [Registry.isOk_iff_errors_eq_nil, Report.errors]
  show (c.violations.map Violation.promoted).filter (·.isFatal) = [] ↔ _
  rw [hall, List.map_eq_nil_iff]

theorem isOk_judge_iff :
    (c.judge false).isOk = true ↔ ∀ v ∈ c.violations, v.level = .warning := by
  rw [Registry.isOk_iff_errors_eq_nil, Report.errors, List.filter_eq_nil_iff]
  refine forall₂_congr fun v _ => ?_
  cases hlevel : v.level <;> simp [Violation.isFatal, hlevel]

/-- The checks that are valid. -/
theorem isOk_judge_false_iff : (c.judge false).isOk = true ↔ c.WellFormed := by
  have hharmless : (c.judge false).isOk = true ↔ Harmless c.violations := isOk_judge_iff
  rw [hharmless, violations, harmless_append, harmless_append, harmless_append,
    harmless_linkViolations, harmless_suppressionViolations,
    harmless_iff_of_fatal fun _ => fatal_of_mem_summaryViolations,
    harmless_iff_of_fatal fun _ => fatal_of_mem_nameViolations,
    summaryViolations_eq_nil_iff, nameViolations_eq_nil_iff]
  constructor
  · rintro ⟨⟨⟨link, annotations⟩, summary, noPeriod, oneLine⟩, name, tidyName, altNames, noRepeat⟩
    exact { link, annotations, summary, noPeriod, oneLine, name, tidyName, altNames, noRepeat }
  · rintro h
    exact ⟨⟨⟨h.link, h.annotations⟩, h.summary, h.noPeriod, h.oneLine⟩,
      h.name, h.tidyName, h.altNames, h.noRepeat⟩

/-- The checks that are valid under a strict judgement. -/
theorem isOk_judge_true_iff : (c.judge true).isOk = true ↔ c.WellFormed ∧ c.Frugal := by
  rw [isOk_judge_strict_iff, violations, List.append_eq_nil_iff, List.append_eq_nil_iff,
    List.append_eq_nil_iff, linkViolations_eq_nil_iff, suppressionViolations_eq_nil_iff,
    summaryViolations_eq_nil_iff, nameViolations_eq_nil_iff]
  constructor
  · rintro ⟨⟨⟨⟨link, noLink⟩, annotations, noAnnotations⟩, summary, noPeriod, oneLine⟩,
      name, tidyName, altNames, noRepeat⟩
    exact ⟨{ link, annotations, summary, noPeriod, oneLine, name, tidyName, altNames, noRepeat },
      { link := noLink, annotations := noAnnotations }⟩
  · rintro ⟨h, hfrugal⟩
    exact ⟨⟨⟨⟨h.link, hfrugal.link⟩, h.annotations, hfrugal.annotations⟩,
      h.summary, h.noPeriod, h.oneLine⟩, h.name, h.tidyName, h.altNames, h.noRepeat⟩

/-- Whichever way it is judged, a valid check is well-formed. -/
theorem wellFormed_of_isOk {strict : Bool} (h : (c.judge strict).isOk = true) : c.WellFormed := by
  cases strict with
  | false => exact isOk_judge_false_iff.mp h
  | true => exact (isOk_judge_true_iff.mp h).1

end Check

/-- Registered checks are well-formed. -/
theorem Registry.Built.wellFormed {r : Registry} (h : r.Built) {c : Check} (hc : c ∈ r.checks) :
    c.WellFormed := by
  obtain ⟨strict, hvalid⟩ := h.sound.1
  exact Check.wellFormed_of_isOk (hvalid c hc)

/-! ## Reports -/

/-- Two violations that differ in nothing but how seriously they are taken. -/
def Violation.SameBut (v w : Violation) : Prop :=
  v.rule = w.rule ∧ v.field = w.field ∧ v.message = w.message

/-- A report falls apart into its errors and its warnings: every violation is in one of them and
none in both, and each keeps the order of the report. -/
structure Report.Split (r : Report) : Prop where
  perm : (r.errors ++ r.warnings).Perm r.violations
  errors : ∀ v, v ∈ r.errors ↔ v ∈ r.violations ∧ v.level = .fatal
  warnings : ∀ v, v ∈ r.warnings ↔ v ∈ r.violations ∧ v.level = .warning
  inOrder : r.errors.Sublist r.violations ∧ r.warnings.Sublist r.violations

theorem Violation.isFatal_iff {v : Violation} : v.isFatal = true ↔ v.level = .fatal := by
  rw [isFatal, beq_iff_eq]

theorem Violation.not_isFatal_iff {v : Violation} : (!v.isFatal) = true ↔ v.level = .warning := by
  cases hlevel : v.level <;> simp [isFatal, hlevel]

theorem Report.split (r : Report) : r.Split where
  perm := List.filter_append_perm _ _
  errors v := by rw [Report.errors, List.mem_filter, Violation.isFatal_iff]
  warnings v := by rw [Report.warnings, List.mem_filter, Violation.not_isFatal_iff]
  inOrder := ⟨List.filter_sublist, List.filter_sublist⟩

namespace Check

variable {c : Check} {strict : Bool}

/-- A strict judgement finds what the other finds, in the same order, and all of it fatal. -/
theorem forall₂_violations_judge (c : Check) :
    List.Forall₂ (fun v w => v.SameBut w ∧ w.level = .fatal)
      (c.judge false).violations (c.judge true).violations := by
  show List.Forall₂ _ c.violations (c.violations.map Violation.promoted)
  rw [List.forall₂_map_right_iff, List.forall₂_same]
  exact fun v _ => ⟨⟨rfl, rfl, rfl⟩, rfl⟩

/-- What validating a check comes to. -/
theorem validate_cases (c : Check) (strict : Bool) :
    ((c.judge strict).isOk = true ∧ c.validate strict = .ok (c.judge strict)) ∨
    ((c.judge strict).isOk = false ∧
      c.validate strict = .error ⟨(c.judge strict).errors, c.name⟩) := by
  cases hok : (c.judge strict).isOk with
  | true => exact .inl ⟨rfl, by simp only [validate, hok, if_true]⟩
  | false => exact .inr ⟨rfl, by simp only [validate, hok, Bool.false_eq_true, if_false]; rfl⟩

/-- **Exactly the well-formed checks are valid.**  A check is valid exactly if it is well-formed,
and remains valid under a strict judgement exactly if it also declares nothing that has no effect.
The strict judgement reports the same violations in the same order, all of them fatal.  Errors and
warnings make up a report, and validating a check fails exactly if it is not valid, with its errors
in order. -/
theorem judgement_exact (c : Check) :
    ((c.judge false).isOk = true ↔ c.WellFormed) ∧
    ((c.judge true).isOk = true ↔ c.WellFormed ∧ c.Frugal) ∧
    List.Forall₂ (fun v w => v.SameBut w ∧ w.level = .fatal)
      (c.judge false).violations (c.judge true).violations ∧
    ∀ strict, (c.judge strict).Split ∧
      ((∃ e, c.validate strict = .error e) ↔ ¬ (c.judge strict).isOk = true) ∧
      ∀ e, c.validate strict = .error e → e.check = c.name ∧
        e.violations = (c.judge strict).violations.filter (·.level = .fatal) := by
  refine ⟨isOk_judge_false_iff, isOk_judge_true_iff, forall₂_violations_judge c, fun strict => ?_⟩
  refine ⟨Report.split _, ?_⟩
  rcases validate_cases c strict with ⟨hok, hv⟩ | ⟨hok, hv⟩
  · refine ⟨iff_of_false ?_ fun h => h hok, fun e he => ?_⟩
    · rintro ⟨e, he⟩
      cases hv.symm.trans he
    · cases hv.symm.trans he
  · refine ⟨iff_of_true ⟨_, hv⟩ (by rw [hok]; decide), fun e he => ?_⟩
    obtain rfl := Except.error.inj (hv.symm.trans he)
    refine ⟨rfl, List.filter_congr fun v _ => ?_⟩
    rw [Bool.eq_iff_iff, Violation.isFatal_iff, decide_eq_true_iff]

end Check

end CheckRegistry
