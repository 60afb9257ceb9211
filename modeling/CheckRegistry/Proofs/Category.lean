import CheckRegistry.Page.Catalog
import CheckRegistry.Proofs.Lookup
import CheckRegistry.Proofs.Tag

/-! # The category changes nothing

Checks still declare a category, but nothing is decided by it.  That compares two runs: over two
lists of checks that agree on everything except categories, all that is selected, reported,
grouped, linked and written is the same (`inert_of_agrees`).

The proof looks at one run only.  Let every check have the same category (`uncategorized`).  Each
function below gives the same answer on a list and on that list without its categories (`Blind`),
so it gives the same answer on two lists that are the same without theirs.  Where the answer
consists of checks, it is the test that selects them that is blind, and the same positions are
selected (`Blind.samePositions`).
-/

namespace CheckRegistry

/-- The check with the category that checks have by default. -/
def Check.uncategorized (c : Check) : Check := { c with category := .oneOff }

/-- Two checks agree on every field except the category. -/
def Check.Agrees (c d : Check) : Prop := d = { c with category := d.category }

theorem Check.uncategorized_eq_iff {c d : Check} :
    c.uncategorized = d.uncategorized ↔ c.Agrees d := by
  constructor
  · intro h
    show d = { c.uncategorized with category := d.category }
    rw [h]
    rfl
  · intro h
    rw [h]
    rfl

/-- A function of checks that gives the same answer without the categories. -/
def Blind {α : Type} (f : List Check → α) : Prop :=
  ∀ checks, f (checks.map Check.uncategorized) = f checks

variable {cs ds : List Check} {α : Type}

theorem Blind.eq_of_agrees {f : List Check → α} (h : Blind f)
    (hagrees : List.Forall₂ Check.Agrees cs ds) : f cs = f ds := by
  have herased : cs.map Check.uncategorized = ds.map Check.uncategorized := by
    rw [← List.forall₂_eq_eq_eq, List.forall₂_map_left_iff, List.forall₂_map_right_iff]
    exact hagrees.imp fun _ _ => Check.uncategorized_eq_iff.mpr
  rw [← h cs, herased, h ds]

/-- What is asked of each check by itself may be asked of all. -/
theorem Blind.map {f : Check → α} (h : ∀ c, f c.uncategorized = f c) : Blind (List.map f) := by
  intro checks
  rw [List.map_map]
  exact List.map_congr_left fun c _ => h c

theorem Blind.flatMap {f : Check → List α} (h : ∀ c, f c.uncategorized = f c) :
    Blind (List.flatMap f) := by
  intro checks
  rw [List.flatMap_map]
  exact List.flatMap_congr fun c _ => h c

/-- A blind test selects the same positions. -/
theorem Blind.samePositions {p : List Check → Check → Bool}
    (h : Blind fun checks => checks.map (p checks)) (hagrees : List.Forall₂ Check.Agrees cs ds) :
    Lists.SamePositions cs ds (cs.filter (p cs)) (ds.filter (p ds)) :=
  Lists.samePositions_filter (h.eq_of_agrees hagrees)

/-! ## Collisions -/

namespace Collision

variable (checks : List Check)

theorem claimants_uncategorized (name : String) :
    claimants (checks.map Check.uncategorized) name = claimants checks name := by
  rw [claimants, claimants, List.zipIdx_map, List.filter_map, List.map_map]
  rfl

theorem rivals_uncategorized (i : Nat) (name : String) :
    rivals (checks.map Check.uncategorized) i name = rivals checks i name := by
  rw [rivals, rivals, List.zipIdx_map, List.filter_map, List.map_map]
  rfl

theorem blind_contestedNames : Blind contestedNames := by
  intro checks
  have hclaimed : claimedNames (checks.map Check.uncategorized) = claimedNames checks :=
    congrArg List.eraseDups (Blind.flatMap (fun _ => rfl) checks)
  rw [contestedNames, contestedNames, hclaimed]
  refine List.filter_congr fun name _ => ?_
  rw [claimants_uncategorized]

theorem violations_uncategorized (contested : List String) (i : Nat) (c : Check) :
    violations (checks.map Check.uncategorized) contested i c.uncategorized =
      violations checks contested i c := by
  refine List.map_congr_left fun name _ => ?_
  rw [violation, violation, rivals_uncategorized]
  rfl

theorem blind_all : Blind all := by
  intro checks
  have horder : order (checks.map Check.uncategorized) = order checks := by
    rw [order, order, blind_contestedNames]
    exact congrArg List.eraseDups
      (List.flatMap_congr fun name _ => claimants_uncategorized checks name)
  rw [all, all, horder, blind_contestedNames]
  refine List.flatMap_congr fun i _ => ?_
  have hviolations : violations (checks.map Check.uncategorized) (contestedNames checks) i ∘
      Check.uncategorized = violations checks (contestedNames checks) i :=
    funext fun c => violations_uncategorized checks _ i c
  rw [List.getElem?_map, Option.map_map, hviolations]

/-- What is found, with checks given by their names. -/
theorem blind_find : Blind fun checks => (find checks).map fun x => (x.1.name, x.2) := by
  intro checks
  simp only [find, blind_contestedNames checks, List.zipIdx_map, List.filter_map, List.map_map]
  refine List.map_congr_left fun x _ => ?_
  exact congrArg (x.1.name, ·) (violations_uncategorized checks _ x.2 x.1)

end Collision

/-! ## Registries -/

namespace Registry

/-- What the strict constructor holds against some checks. -/
theorem blind_problems (strict : Bool) :
    Blind fun checks => (checks.flatMap fun c => (c.judge strict).errors) ++
      Collision.all checks := by
  intro checks
  exact congrArg₂ (· ++ ·) (Blind.flatMap (fun _ => rfl) checks) (Collision.blind_all checks)

theorem get?_uncategorized (checks : List Check) (name : String) :
    (ofList (checks.map Check.uncategorized)).get? name =
      ((ofList checks).get? name).map Check.uncategorized := by
  rw [get?_ofList, get?_ofList, List.filter_map, List.getLast?_map]
  rfl

/-- Keys lead to checks that are named alike and may be turned off alike. -/
theorem blind_disabledNames (off : List String) :
    Blind fun checks => (ofList checks).disabledNames off := by
  intro checks
  show (ofList (checks.map Check.uncategorized)).disabledNames off =
    (ofList checks).disabledNames off
  induction off with
  | nil => rfl
  | cons key off ih =>
    simp only [disabledNames, resolve, get?_uncategorized, ih]
    cases (ofList checks).get? key with
    | none => rfl
    | some c => rfl

/-- Two registries refuse to turn off the same checks, and otherwise leave those at the same
positions. -/
structure SelectsAlike (r r' : Registry) : Prop where
  refused : ∀ off e, r.active off = .error e ↔ r'.active off = .error e
  kept : ∀ off kept, r.active off = .ok kept →
    ∃ kept', r'.active off = .ok kept' ∧ Lists.SamePositions r.checks r'.checks kept kept'

theorem selectsAlike_of_agrees (h : List.Forall₂ Check.Agrees cs ds) :
    (ofList cs).SelectsAlike (ofList ds) := by
  have hnames (off : List String) : (ofList cs).disabledNames off = (ofList ds).disabledNames off :=
    (blind_disabledNames off).eq_of_agrees h
  constructor
  · intro off e
    rw [active, active, hnames]
    cases (ofList ds).disabledNames off with
    | error e' => rfl
    | ok names => simp [Except.map]
  · intro off kept hkept
    rw [active, hnames] at hkept
    rw [active]
    cases hoff : (ofList ds).disabledNames off with
    | error e => rw [hoff] at hkept; cases hkept
    | ok names =>
      rw [hoff] at hkept
      obtain rfl := Except.ok.inj hkept
      refine ⟨_, rfl, ?_⟩
      exact Blind.samePositions (Blind.map fun _ => rfl) h

end Registry

/-! ## Builds -/

namespace Declared

variable (strict : Bool) (c : Check)

theorem rejected?_uncategorized :
    ((check c.uncategorized).judge strict).rejected? = ((check c).judge strict).rejected? := by
  have hreport : c.uncategorized.judge strict = c.judge strict := rfl
  simp only [judge, hreport]
  cases (c.judge strict).isOk <;> rfl

theorem warnings_uncategorized :
    ((check c.uncategorized).judge strict).warnings = ((check c).judge strict).warnings := by
  have hreport : c.uncategorized.judge strict = c.judge strict := rfl
  simp only [judge, hreport]
  cases (c.judge strict).isOk <;> rfl

end Declared

namespace Build

/-- Whether a check, one of some, is valid by itself and shares no name with a valid one. -/
def registers (strict : Bool) (checks : List Check) (c : Check) : Bool :=
  !contested (checks.filter fun d => (d.judge strict).isOk) c && (c.judge strict).isOk

theorem candidates_checks (checks : List Check) (strict : Bool) :
    candidates (checks.map .check) strict = checks.filter fun c => (c.judge strict).isOk := by
  rw [candidates, List.filterMap_map, ← List.filterMap_eq_filter]
  rfl

theorem ofList_checks_checks (checks : List Check) (config : Config) :
    (ofList (checks.map .check) config).registry.checks =
      checks.filter (registers config.strict checks) := by
  rw [ofList_checks, candidates_checks, List.filter_filter]
  rfl

/-- Which checks are valid by themselves does not depend on their categories. -/
theorem filter_isOk_uncategorized (checks : List Check) (strict : Bool) :
    (checks.map Check.uncategorized).filter (fun c => (c.judge strict).isOk) =
      (checks.filter fun c => (c.judge strict).isOk).map Check.uncategorized :=
  List.filter_map

theorem blind_registers (strict : Bool) :
    Blind fun checks => checks.map (registers strict checks) := by
  intro checks
  show (checks.map Check.uncategorized).map _ = _
  rw [List.map_map]
  refine List.map_congr_left fun c _ => ?_
  show registers strict _ c.uncategorized = registers strict checks c
  rw [registers, registers, contested, contested, filter_isOk_uncategorized,
    Collision.blind_contestedNames]
  rfl

theorem blind_exclusions : Blind exclusions := by
  intro checks
  -- the search keeps whole checks, of which a report has the name only
  have hnamed (checks : List Check) : exclusions checks =
      ((Collision.find checks).map fun x => (x.1.name, x.2)).map fun x => ⟨x.1, x.2⟩ := by
    rw [Collision.find_eq, exclusions, List.map_map, List.map_map]
    rfl
  rw [hnamed, hnamed]
  exact congrArg (List.map _) (Collision.blind_find checks)

theorem blind_rejected (config : Config) :
    Blind fun checks => (ofList (checks.map .check) config).rejected := by
  intro checks
  have hrefusals : refusals ((checks.map Check.uncategorized).map .check) config.strict =
      refusals (checks.map .check) config.strict := by
    simp only [refusals, List.filterMap_map]
    exact List.filterMap_congr fun c _ => Declared.rejected?_uncategorized config.strict c
  simp only [ofList_eq, candidates_checks, hrefusals, filter_isOk_uncategorized, blind_exclusions _]

theorem blind_warnings (config : Config) :
    Blind fun checks => (ofList (checks.map .check) config).warnings := by
  intro checks
  simp only [ofList_eq, List.flatMap_map]
  exact List.flatMap_congr fun c _ => Declared.warnings_uncategorized config.strict c

/-- The registry of a build of checks is that of the checks that it registers. -/
theorem registry_eq (checks : List Check) (config : Config) :
    (ofList (checks.map .check) config).registry =
      Registry.ofList (checks.filter (registers config.strict checks)) := by
  rw [← ofList_checks_checks, ofList_eq]
  rfl

end Build

/-! ## Groups -/

namespace Check

theorem blind_allTags : Blind allTags := by
  intro checks
  exact congrArg NameSet.ofList (Blind.flatMap (fun _ => rfl) checks)

/-- Two groups of checks under one key, taken from two lists at the same positions. -/
def SameGroup {κ : Type} (cs ds : List Check) (g g' : κ × List Check) : Prop :=
  g.1 = g'.1 ∧ Lists.SamePositions cs ds g.2 g'.2

theorem sameGroup_groupByTag (h : List.Forall₂ Agrees cs ds) :
    List.Forall₂ (SameGroup cs ds) (groupByTag cs) (groupByTag ds) := by
  rw [groupByTag_eq, groupByTag_eq, blind_allTags.eq_of_agrees h, grouped, grouped,
    List.forall₂_map_left_iff, List.forall₂_map_right_iff, List.forall₂_same]
  intro tag _
  exact ⟨rfl, Blind.samePositions (Blind.map fun _ => rfl) h⟩

theorem sameGroup_groupBySeverity (h : List.Forall₂ Agrees cs ds) :
    List.Forall₂ (SameGroup cs ds) (groupBySeverity cs) (groupBySeverity ds) := by
  rw [groupBySeverity_eq, groupBySeverity_eq, List.forall₂_map_left_iff,
    List.forall₂_map_right_iff, List.forall₂_same]
  intro severity _
  exact ⟨rfl, Blind.samePositions (Blind.map fun _ => rfl) h⟩

end Check

/-! ## Documentation -/

namespace Catalog

variable {provider : Option Provider} {site : String} {cwd : Place} {out : Path} {t : FileTree}

/-- A page shows the record of a check only in parts, and the category is none of them. -/
theorem pageText_uncategorized (c : Check) :
    pageText provider site cwd t c.uncategorized = pageText provider site cwd t c := by
  have hlink : c.uncategorized.link? site = c.link? site := rfl
  rw [pageText, pageText, Page.assemble, Page.assemble, hlink]
  -- the two pages differ, as they hold the checks, but not in what is written of them
  cases c.link? site with
  | error e => rfl
  | ok link => rfl

theorem step_uncategorized (pass : Pass) (c : Check) :
    step provider site cwd out pass c.uncategorized = step provider site cwd out pass c := by
  rw [step, step, pageText_uncategorized]
  rfl

theorem sortByName_uncategorized (checks : List Check) :
    Check.sortByName (checks.map Check.uncategorized) =
      (Check.sortByName checks).map Check.uncategorized := by
  rw [Check.sortByName, Check.sortByName]
  refine (List.map_mergeSort ?_).symm
  intro a _ b _
  rfl

theorem blind_generate : Blind fun checks => generate checks provider site t cwd out := by
  intro checks
  have hstep : (fun pass c => step provider site cwd out pass (Check.uncategorized c)) =
      step provider site cwd out :=
    funext fun pass => funext fun c => step_uncategorized pass c
  simp only [generate, sortByName_uncategorized, List.foldlM_map, hstep]

end Catalog

/-! ## Two runs -/

/-- All that has to be the same for two lists of checks to differ in nothing but their
categories. -/
structure Inert (cs ds : List Check) : Prop where
  /-- Both are refused with the same violations, or make registries that select alike. -/
  constructed : ∀ strict,
    (∃ e, Registry.ofChecks cs strict = .error e ∧ Registry.ofChecks ds strict = .error e) ∨
    ∃ r r', Registry.ofChecks cs strict = .ok r ∧ Registry.ofChecks ds strict = .ok r' ∧
      r.checks = cs ∧ r'.checks = ds ∧ r.SelectsAlike r'
  registered : ∀ config, Lists.SamePositions cs ds
    (Build.ofList (cs.map .check) config).registry.checks
    (Build.ofList (ds.map .check) config).registry.checks
  rejected : ∀ config, (Build.ofList (cs.map .check) config).rejected =
    (Build.ofList (ds.map .check) config).rejected
  warned : ∀ config, (Build.ofList (cs.map .check) config).warnings =
    (Build.ofList (ds.map .check) config).warnings
  /-- The registries that builds come to select alike, too. -/
  selected : ∀ config, (Build.ofList (cs.map .check) config).registry.SelectsAlike
    (Build.ofList (ds.map .check) config).registry
  suppressed : ∀ scope, cs.map (·.isSuppressed scope) = ds.map (·.isSuppressed scope)
  exempted : ∀ (policy : Policy) (scope : Scope),
    cs.map (policy.isSuppressed · scope) = ds.map (policy.isSuppressed · scope)
  tagged : cs.map Check.effectiveTags = ds.map Check.effectiveTags
  withTag : ∀ tag, Lists.SamePositions cs ds (Check.withTag cs tag) (Check.withTag ds tag)
  tagGroups : List.Forall₂ (Check.SameGroup cs ds) (Check.groupByTag cs) (Check.groupByTag ds)
  severityGroups :
    List.Forall₂ (Check.SameGroup cs ds) (Check.groupBySeverity cs) (Check.groupBySeverity ds)
  linked : ∀ site, cs.map (·.link? site) = ds.map (·.link? site)
  diagnosed : ∀ message site,
    cs.map (·.diagnostic message site) = ds.map (·.diagnostic message site)
  /-- The same files are written, byte by byte, and the same checks fail. -/
  documented : ∀ provider site t cwd out, Catalog.generate cs provider site t cwd out =
    Catalog.generate ds provider site t cwd out

/-- **The category is inert.**  Whatever two lists of checks say about categories, as long as they
agree on the rest, no component can tell them apart. -/
theorem inert_of_agrees (h : List.Forall₂ Check.Agrees cs ds) : Inert cs ds := by
  have hregistered (config : Config) : Lists.SamePositions cs ds
      (Build.ofList (cs.map .check) config).registry.checks
      (Build.ofList (ds.map .check) config).registry.checks := by
    rw [Build.ofList_checks_checks, Build.ofList_checks_checks]
    exact (Build.blind_registers config.strict).samePositions h
  constructor
  case constructed =>
    intro strict
    have hproblems := (Registry.blind_problems strict).eq_of_agrees h
    simp only [Registry.ofChecks, hproblems]
    split
    · exact Or.inr ⟨_, _, rfl, rfl, rfl, rfl, Registry.selectsAlike_of_agrees h⟩
    · exact Or.inl ⟨_, rfl, rfl⟩
  case registered => exact hregistered
  case rejected => exact fun config => (Build.blind_rejected config).eq_of_agrees h
  case warned => exact fun config => (Build.blind_warnings config).eq_of_agrees h
  case selected =>
    intro config
    -- what the two builds register is in step again
    have hagree := (hregistered config).forall₂ h
    rw [Build.registry_eq, Build.registry_eq]
    rw [Build.ofList_checks_checks, Build.ofList_checks_checks] at hagree
    exact Registry.selectsAlike_of_agrees hagree
  case suppressed => exact fun scope => (Blind.map fun _ => rfl).eq_of_agrees h
  case exempted => exact fun policy scope => (Blind.map fun _ => rfl).eq_of_agrees h
  case tagged => exact (Blind.map fun _ => rfl).eq_of_agrees h
  case withTag => exact fun tag => Blind.samePositions (Blind.map fun _ => rfl) h
  case tagGroups => exact Check.sameGroup_groupByTag h
  case severityGroups => exact Check.sameGroup_groupBySeverity h
  case linked => exact fun site => (Blind.map fun _ => rfl).eq_of_agrees h
  case diagnosed => exact fun message site => (Blind.map fun _ => rfl).eq_of_agrees h
  case documented =>
    exact fun provider site t cwd out => Catalog.blind_generate.eq_of_agrees h

/-- Two checks with a name in common and one that reports errors, all of one category. -/
def ofCategory (category : Category) : List Check :=
  [{ Registry.aliased "Unused" "unused" with category },
    { Registry.aliased "Dead" "unused" with category },
    { Registry.aliased "Late" "late" with category, severity := .error }]

theorem inert_of_two_categories :
    List.Forall₂ Check.Agrees (ofCategory .jdk) (ofCategory .guava) ∧
      ofCategory .jdk ≠ ofCategory .guava ∧
      (Build.ofList ((ofCategory .jdk).map .check) {}).registry.checks.map Check.name = ["Late"] ∧
      Inert (ofCategory .jdk) (ofCategory .guava) := by
  have hagree : List.Forall₂ Check.Agrees (ofCategory .jdk) (ofCategory .guava) :=
    .cons rfl (.cons rfl (.cons rfl .nil))
  exact ⟨hagree, by decide, by decide +kernel, inert_of_agrees hagree⟩

end CheckRegistry
