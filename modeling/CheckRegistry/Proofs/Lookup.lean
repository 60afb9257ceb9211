import Mathlib.Algebra.GroupWithZero.Nat
import Mathlib.Data.List.Nodup
import Mathlib.Data.List.Perm.Basic
import CheckRegistry.Proofs.Lists.Search
import CheckRegistry.Proofs.Registry

/-! # Finding checks by name

The index of a registry is filled check by check, and a name that is set again forgets the check
it led to.  Of several checks that claim a name it is therefore the last one that is found
(`get?_ofList`), whether or not the checks go together.

In a registry that was built no name has two claimants, so nothing was ever forgotten.  A name
leads to the one check that has it (`Built.get?_eq_some_iff`), the index holds each name of each
check once (`keys_perm`), and neither says anything about the order of the checks.
-/

namespace CheckRegistry

namespace Registry

variable {checks checks' : List Check} {index : List (String × Check)} {c d : Check}
  {name key : String} {r : Registry}

/-! ## Filling the index -/

theorem lookup_setName (name : String) (c : Check) (index : List (String × Check)) (key : String) :
    (setName name c index).lookup key = if key = name then some c else index.lookup key := by
  induction index with
  | nil =>
    by_cases h : key = name
    · simp [setName, h]
    · simp [setName, h, List.lookup_cons, beq_false_of_ne h]
  | cons e rest ih =>
    obtain ⟨n, old⟩ := e
    by_cases hn : n = name
    · subst hn
      by_cases h : key = n
      · simp [setName, h]
      · simp [setName, h, List.lookup_cons, beq_false_of_ne h]
    · by_cases h : key = n
      · subst h
        simp [setName, hn]
      · simp [setName, hn, List.lookup_cons, beq_false_of_ne h, ih]

/-- A name that is set takes the place of its entry, or one at the end. -/
theorem keys_setName (name : String) (c : Check) (index : List (String × Check)) :
    (setName name c index).map Prod.fst =
      if name ∈ index.map Prod.fst then index.map Prod.fst else index.map Prod.fst ++ [name] := by
  induction index with
  | nil => simp [setName]
  | cons e rest ih =>
    obtain ⟨n, old⟩ := e
    by_cases hn : n = name
    · simp [setName, hn]
    · have hne : name ≠ n := fun h => hn h.symm
      by_cases hmem : name ∈ rest.map Prod.fst
      · rw [if_pos hmem] at ih
        simp only [setName, hn, if_false, List.map_cons, ih, List.mem_cons, hmem, or_true, if_true]
      · rw [if_neg hmem] at ih
        simp only [setName, hn, if_false, List.map_cons, ih, List.mem_cons, hmem, hne, or_false,
          List.cons_append]

theorem nodup_keys_setName (h : (index.map Prod.fst).Nodup) (name : String) (c : Check) :
    ((setName name c index).map Prod.fst).Nodup := by
  rw [keys_setName]
  split
  · exact h
  · next hnew =>
    refine List.nodup_append.mpr ⟨h, List.pairwise_singleton _ _, ?_⟩
    intro a ha b hb
    rw [List.mem_singleton] at hb
    subst hb
    exact fun hab => hnew (hab ▸ ha)

theorem lookup_indexCheck (index : List (String × Check)) (c : Check) (key : String) :
    (indexCheck index c).lookup key = if key ∈ c.allNames then some c else index.lookup key := by
  have general : ∀ names : List String,
      (names.foldl (fun index name => setName name c index) index).lookup key =
        if key ∈ names then some c else index.lookup key := by
    intro names
    induction names generalizing index with
    | nil => simp
    | cons n names ih =>
      rw [List.foldl_cons, ih, lookup_setName]
      by_cases hn : key = n <;> by_cases hmem : key ∈ names <;> simp [hn, hmem]
  exact general c.allNames.toList

theorem nodup_keys_indexCheck (h : (index.map Prod.fst).Nodup) (c : Check) :
    ((indexCheck index c).map Prod.fst).Nodup := by
  unfold indexCheck
  induction c.allNames.toList generalizing index with
  | nil => exact h
  | cons n names ih => exact ih (nodup_keys_setName h n c)

theorem lookup_foldl_indexCheck (checks : List Check) (index : List (String × Check))
    (key : String) :
    (checks.foldl indexCheck index).lookup key =
      ((checks.filter fun c => decide (key ∈ c.allNames)).getLast?).or (index.lookup key) := by
  induction checks generalizing index with
  | nil => simp
  | cons c checks ih =>
    rw [List.foldl_cons, ih, lookup_indexCheck]
    by_cases h : key ∈ c.allNames
    · rw [if_pos h, List.filter_cons_of_pos (by simpa using h), List.getLast?_cons]
      cases (checks.filter fun c => decide (key ∈ c.allNames)).getLast? <;> simp
    · rw [if_neg h, List.filter_cons_of_neg (by simpa using h)]

/-- Of the checks that claim a name the last one is found. -/
theorem get?_ofList (checks : List Check) (name : String) :
    (ofList checks).get? name = (checks.filter fun c => decide (name ∈ c.allNames)).getLast? := by
  rw [get?, ofList, lookup_foldl_indexCheck]
  simp

theorem nodup_keys_ofList (checks : List Check) : ((ofList checks).index.map Prod.fst).Nodup := by
  have general : ∀ index : List (String × Check), (index.map Prod.fst).Nodup →
      ((checks.foldl indexCheck index).map Prod.fst).Nodup := by
    induction checks with
    | nil => exact fun _ h => h
    | cons c checks ih => exact fun index h => ih _ (nodup_keys_indexCheck h c)
  exact general [] List.nodup_nil

/-! ## Checks that go together -/

/-- No two places of checks that go together have a name in common. -/
theorem eq_of_shared_name (hfree : Collision.Free checks) {i j : Nat} (hi : checks[i]? = some c)
    (hj : checks[j]? = some d) (hc : name ∈ c.allNames) (hd : name ∈ d.allNames) : i = j := by
  obtain ⟨hilt, rfl⟩ := List.getElem?_eq_some_iff.mp hi
  obtain ⟨hjlt, rfl⟩ := List.getElem?_eq_some_iff.mp hj
  have hpairs := List.pairwise_iff_getElem.mp hfree
  rcases Nat.lt_trichotomy i j with hij | hij | hij
  · exact absurd ⟨name, hc, hd⟩ (hpairs i j hilt hjlt hij)
  · exact hij
  · exact absurd ⟨name, hd, hc⟩ (hpairs j i hjlt hilt hij)

theorem get?_ofList_eq_some_iff (hfree : Collision.Free checks) :
    (ofList checks).get? name = some c ↔ c ∈ checks ∧ name ∈ c.allNames := by
  rw [get?_ofList]
  constructor
  · intro h
    obtain ⟨hmem, hname⟩ := List.mem_filter.mp (List.mem_of_getLast? h)
    exact ⟨hmem, of_decide_eq_true hname⟩
  · rintro ⟨hmem, hname⟩
    have hin : c ∈ checks.filter fun c => decide (name ∈ c.allNames) :=
      List.mem_filter.mpr ⟨hmem, decide_eq_true hname⟩
    cases hlast : (checks.filter fun c => decide (name ∈ c.allNames)).getLast? with
    | none =>
      rw [List.getLast?_eq_none_iff.mp hlast] at hin
      cases hin
    | some d =>
      -- the last claimant is the only one
      obtain ⟨hdmem, hdname⟩ := List.mem_filter.mp (List.mem_of_getLast? hlast)
      obtain ⟨i, hi⟩ := List.getElem?_of_mem hmem
      obtain ⟨j, hj⟩ := List.getElem?_of_mem hdmem
      have hij := eq_of_shared_name hfree hi hj hname (of_decide_eq_true hdname)
      rw [hij, hj] at hi
      exact hi

/-- The index of checks that go together has each name of each of them once. -/
theorem keys_perm (hfree : Collision.Free checks) :
    ((ofList checks).index.map Prod.fst).Perm (checks.flatMap fun c => c.allNames.toList) := by
  have hnames : (checks.flatMap fun c => c.allNames.toList).Nodup := by
    refine List.nodup_flatMap.mpr ⟨fun c _ => ?_, hfree.imp fun hcd name hc hd => ?_⟩
    · exact c.allNames.nodup_toList
    · exact hcd ⟨name, hc, hd⟩
  refine (List.perm_ext_iff_of_nodup (nodup_keys_ofList checks) hnames).mpr fun name => ?_
  have hkey : name ∈ (ofList checks).index.map Prod.fst ↔
      ∃ c, (ofList checks).get? name = some c := by
    rw [List.mem_map]
    constructor
    · rintro ⟨⟨n, c⟩, hmem, rfl⟩
      exact ⟨c, (Lists.mem_iff_lookup (nodup_keys_ofList checks)).mp hmem⟩
    · rintro ⟨c, hc⟩
      exact ⟨(name, c), (Lists.mem_iff_lookup (nodup_keys_ofList checks)).mpr hc, rfl⟩
  rw [hkey, List.mem_flatMap]
  exact exists_congr fun c => get?_ofList_eq_some_iff hfree

/-- Checks that go together are found in the same way in whatever order they come. -/
theorem get?_ofList_perm (hperm : checks.Perm checks') (hfree : Collision.Free checks)
    (hfree' : Collision.Free checks') (name : String) :
    (ofList checks').get? name = (ofList checks).get? name := by
  refine Option.ext fun c => ?_
  rw [get?_ofList_eq_some_iff hfree', get?_ofList_eq_some_iff hfree, hperm.mem_iff]

/-! ## Registries that were built -/

theorem Built.get?_eq_some_iff (h : r.Built) :
    r.get? name = some c ↔ c ∈ r.checks ∧ name ∈ c.allNames := by
  obtain ⟨_, hfree, hr⟩ := h.sound
  rw [hr]
  exact get?_ofList_eq_some_iff hfree

/-- What a registry answers when it is asked for names. -/
structure LooksUpExactly (r : Registry) : Prop where
  /-- A name leads to the check that has it as its own or as an alternate name. -/
  get?_iff : ∀ name c, r.get? name = some c ↔ c ∈ r.checks ∧ name ∈ c.allNames
  /-- No second check has that name. -/
  unique : ∀ (name : String) (i j : Nat) (c d : Check), r.checks[i]? = some c →
    r.checks[j]? = some d → name ∈ c.allNames → name ∈ d.allNames → i = j
  contains_iff : ∀ name, r.contains name = true ↔ ∃ c, r.get? name = some c
  resolve_ok_iff : ∀ name c, r.resolve name = .ok c ↔ r.get? name = some c
  resolve_error_iff : ∀ name e, r.resolve name = .error e ↔ r.get? name = none ∧ e = ⟨name⟩
  index_iff : ∀ name c, (name, c) ∈ r.index ↔ r.get? name = some c
  keys_nodup : (r.index.map Prod.fst).Nodup
  /-- The index has as many keys as the checks have names. -/
  keys_count : r.index.length = (r.checks.map fun c => c.allNames.toList.length).sum

theorem Built.looksUpExactly (h : r.Built) : r.LooksUpExactly where
  get?_iff := fun _ _ => h.get?_eq_some_iff
  unique := fun _ _ _ _ _ hi hj hc hd => eq_of_shared_name h.sound.2.1 hi hj hc hd
  contains_iff := fun name => Option.isSome_iff_exists
  resolve_ok_iff := by
    intro name c
    rw [resolve]
    cases r.get? name <;> simp
  resolve_error_iff := by
    intro name e
    rw [resolve]
    cases r.get? name <;> simp [eq_comm]
  index_iff := by
    intro name c
    have hnodup : (r.index.map Prod.fst).Nodup := h.sound.2.2 ▸ nodup_keys_ofList r.checks
    exact Lists.mem_iff_lookup hnodup
  keys_nodup := h.sound.2.2 ▸ nodup_keys_ofList r.checks
  keys_count := by
    obtain ⟨_, hfree, hr⟩ := h.sound
    have hlength := (keys_perm hfree).length_eq
    rw [List.length_map, List.length_flatMap, ← hr] at hlength
    exact hlength

/-- **Looking up is exact, and blind to the order of the checks.**  Whichever way a registry was
built, each name leads to the one check that has it.  A registry of checks holds just these.  Built
of the same checks or declarations in another order, a name leads to the same. -/
theorem lookup_exact :
    (∀ r : Registry, r.Built → r.LooksUpExactly) ∧
    (∀ (checks : List Check) (strict : Bool) (r : Registry),
      ofChecks checks strict = .ok r → r.checks = checks) ∧
    (∀ (checks checks' : List Check) (strict : Bool) (r : Registry), checks.Perm checks' →
      ofChecks checks strict = .ok r →
      ∃ r', ofChecks checks' strict = .ok r' ∧ ∀ name, r'.get? name = r.get? name) ∧
    ∀ (declared declared' : List Declared) (config : Config), declared.Perm declared' →
      ∀ name, (Build.ofList declared' config).registry.get? name =
        (Build.ofList declared config).registry.get? name := by
  refine ⟨fun r h => h.looksUpExactly, ?_, ?_, ?_⟩
  · intro checks strict r hok
    obtain ⟨_, _, rfl⟩ := ofChecks_eq_ok_iff.mp hok
    rfl
  · intro checks checks' strict r hperm hok
    obtain ⟨hvalid, hfree, rfl⟩ := ofChecks_eq_ok_iff.mp hok
    have hfree' := hfree.perm hperm
    have hvalid' : ∀ c ∈ checks', (c.judge strict).isOk = true :=
      fun c hc => hvalid c (hperm.mem_iff.mpr hc)
    exact ⟨ofList checks', ofChecks_eq_ok_iff.mpr ⟨hvalid', hfree', rfl⟩,
      get?_ofList_perm hperm hfree hfree'⟩
  · intro declared declared' config hperm name
    have hcandidates : (Build.candidates declared config.strict).Perm
        (Build.candidates declared' config.strict) := hperm.filterMap _
    rw [Build.ofList_eq, Build.ofList_eq]
    exact get?_ofList_perm (Collision.uncontested_perm hcandidates)
      (Collision.free_uncontested _) (Collision.free_uncontested _) name

/-- A check with one alternate name. -/
def aliased (name alt : String) : Check :=
  { name, summary := "Value is never read", severity := .warning, altNames := .ofList [alt] }

/-- Two checks, registered in either order, the second time next to a third declaration that
contests one of them. -/
theorem lookup_exact_of_two :
    (ofList [aliased "Unused" "unused", aliased "Dead" "dead"]).Built ∧
    (ofList [aliased "Unused" "unused", aliased "Dead" "dead"]).LooksUpExactly ∧
    (ofList [aliased "Unused" "unused", aliased "Dead" "dead"]).checks =
      [aliased "Unused" "unused", aliased "Dead" "dead"] ∧
    (∃ r', ofChecks [aliased "Dead" "dead", aliased "Unused" "unused"] false = .ok r' ∧
      ∀ name, r'.get? name =
        (ofList [aliased "Unused" "unused", aliased "Dead" "dead"]).get? name) ∧
    ∀ name,
      (Build.ofList [.check (aliased "Late" "dead"), .check (aliased "Dead" "dead"),
        .check (aliased "Unused" "unused")] {}).registry.get? name =
      (Build.ofList [.check (aliased "Unused" "unused"), .check (aliased "Dead" "dead"),
        .check (aliased "Late" "dead")] {}).registry.get? name := by
  have hok : ofChecks [aliased "Unused" "unused", aliased "Dead" "dead"] false =
      .ok (ofList [aliased "Unused" "unused", aliased "Dead" "dead"]) := rfl
  obtain ⟨hbuilt, hregistered, hchecks, hdeclared⟩ := lookup_exact
  exact ⟨.ofChecks hok, hbuilt _ (.ofChecks hok), hregistered _ false _ hok,
    hchecks _ _ false _ (List.reverse_perm _).symm hok,
    hdeclared _ _ {} (List.reverse_perm _).symm⟩

end Registry

end CheckRegistry
