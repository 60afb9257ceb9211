import CheckRegistry.Proofs.Suppression

/-! # Scopes within scopes

A scope is put together of the suppressions at many places, in whatever way the places lie within
each other: as a tree (`ScopeTree`) whose leaves are the suppressions at single places.  Two sets
are merged at each step, and a check looks at one of them, which one depending on its
suppressibility.

What carries over from the leaves to the tree has nothing to do with suppression.  It is enough that
a property holds of a merged scope exactly if it holds of one of the two (`Scope.Additive`); then it
holds of a tree exactly if it holds of a leaf (`Additive.scope_iff`).  Having a name is such a
property, so a tree is determined by its leaves as a set; and so is suppressing a check, under every
policy (`ScopeTree.joined`).
-/

namespace CheckRegistry

variable {P : Scope → Prop} {s : Scope} {c : Check} {p : Policy} {t u : ScopeTree}

/-! ## Properties of merged scopes -/

namespace Scope

/-- A property that a merged scope has exactly if one of the two scopes has it. -/
structure Additive (P : Scope → Prop) : Prop where
  empty : ¬ P .empty
  join : ∀ s t, P (s.join t) ↔ P s ∨ P t

theorem additive_mem_names (name : String) : Additive fun s => name ∈ s.names where
  empty := NameSet.not_mem_empty name
  join := fun _ _ => NameSet.mem_union

theorem additive_mem_annotations (name : String) : Additive fun s => name ∈ s.annotations where
  empty := NameSet.not_mem_empty name
  join := fun _ _ => NameSet.mem_union

/-- Which of the two sets of a scope counts is a matter of the check, and is the same for both
scopes and for what they are merged to. -/
theorem additive_isSuppressed (c : Check) : Additive fun s => c.isSuppressed s = true := by
  cases hc : c.suppressibility with
  | unsuppressible => constructor <;> simp [Check.isSuppressed, hc]
  | suppressWarnings =>
    have hany : ∀ s, c.isSuppressed s = true ↔ ∃ name ∈ c.allNames.toList, name ∈ s.names := by
      intro s
      rw [Check.isSuppressed_iff_name hc]
      exact exists_congr fun name => and_comm
    constructor
    · rw [hany]
      rintro ⟨name, _, hname⟩
      exact (additive_mem_names name).empty hname
    · intro s t
      simp only [hany, (additive_mem_names _).join, and_or_left, exists_or]
  | customAnnotations =>
    have hany : ∀ s, c.isSuppressed s = true ↔
        ∃ name ∈ c.annotations.toList, name ∈ s.annotations := by
      intro s
      rw [Check.isSuppressed_iff_annotation hc]
      exact exists_congr fun name => and_comm
    constructor
    · rw [hany]
      rintro ⟨name, _, hname⟩
      exact (additive_mem_annotations name).empty hname
    · intro s t
      simp only [hany, (additive_mem_annotations _).join, and_or_left, exists_or]

/-- Several scopes in one have the property exactly if one of them has it. -/
theorem Additive.enclosing_iff (h : Additive P) (scopes : List Scope) :
    P (.enclosing scopes) ↔ ∃ s ∈ scopes, P s := by
  have general : ∀ first, P (scopes.foldl Scope.join first) ↔ P first ∨ ∃ s ∈ scopes, P s := by
    induction scopes with
    | nil => simp
    | cons s scopes ih =>
      intro first
      rw [List.foldl_cons, ih, h.join, or_assoc]
      simp
  rw [enclosing, general, or_iff_right h.empty]

/-- Scopes with the same names and annotation types are equal. -/
theorem ext_of_mem {s t : Scope} (hnames : ∀ name, name ∈ s.names ↔ name ∈ t.names)
    (hannotations : ∀ name, name ∈ s.annotations ↔ name ∈ t.annotations) : s = t := by
  obtain ⟨names, annotations⟩ := s
  obtain ⟨names', annotations'⟩ := t
  obtain rfl : names = names' := NameSet.ext hnames
  obtain rfl : annotations = annotations' := NameSet.ext hannotations
  rfl

/-- Going to an inner place is merging the scope of the place into the one around it. -/
theorem nested_eq_enclosing (s : Scope) (names annotations : List String) :
    s.nested names annotations = .enclosing [s, .of names annotations] := by
  refine ext_of_mem (fun name => ?_) (fun name => ?_)
  · rw [(additive_mem_names name).enclosing_iff, nested, (additive_mem_names name).join]
    simp
  · rw [(additive_mem_annotations name).enclosing_iff, nested,
      (additive_mem_annotations name).join]
    simp

end Scope

/-! ## Policies -/

theorem Policy.isSuppressed_of_exempt (hexempt : p.exemptErrors = true)
    (herror : c.severity = .error) (hkind : c.suppressibility = .suppressWarnings) :
    p.isSuppressed c = fun _ => false := by
  funext s
  simp [Policy.isSuppressed, hexempt, herror, hkind]

theorem Policy.isSuppressed_of_not_exempt
    (h : ¬ (p.exemptErrors = true ∧ c.severity = .error ∧
      c.suppressibility = .suppressWarnings)) : p.isSuppressed c = c.isSuppressed := by
  funext s
  rw [Policy.isSuppressed, if_neg h]

/-- A policy either follows the check or never suppresses it. -/
theorem Scope.additive_policy (p : Policy) (c : Check) :
    Scope.Additive fun s => p.isSuppressed c s = true := by
  by_cases h : p.exemptErrors = true ∧ c.severity = .error ∧ c.suppressibility = .suppressWarnings
  · rw [Policy.isSuppressed_of_exempt h.1 h.2.1 h.2.2]
    constructor <;> simp
  · rw [Policy.isSuppressed_of_not_exempt h]
    exact Scope.additive_isSuppressed c

/-! ## Trees -/

/-- How the scope of a place is put together. -/
inductive ScopeTree
  /-- The suppressions at one place. -/
  | of (names annotations : List String)
  /-- A place further inside, with suppressions of its own. -/
  | nested (outer : ScopeTree) (names annotations : List String)
  /-- Several scopes in one, or none. -/
  | enclosing (parts : List ScopeTree)

namespace ScopeTree

/-- Induction over a tree, the parts of a merged scope all at once. -/
@[elab_as_elim, induction_eliminator]
theorem induction {motive : ScopeTree → Prop}
    (of : ∀ names annotations, motive (.of names annotations))
    (nested : ∀ outer names annotations, motive outer → motive (.nested outer names annotations))
    (enclosing : ∀ parts, (∀ t ∈ parts, motive t) → motive (.enclosing parts)) :
    ∀ t, motive t
  | .of names annotations => of names annotations
  | .nested outer names annotations =>
    nested outer names annotations (induction of nested enclosing outer)
  | .enclosing parts => enclosing parts fun t _ => induction of nested enclosing t

/-- The scope that comes out. -/
def scope : ScopeTree → Scope
  | of names annotations => .of names annotations
  | nested outer names annotations => outer.scope.nested names annotations
  | enclosing parts => .enclosing (parts.map scope)

/-- The scopes of single places that went into it. -/
def leaves : ScopeTree → List Scope
  | of names annotations => [.of names annotations]
  | nested outer names annotations => outer.leaves ++ [.of names annotations]
  | enclosing parts => parts.flatMap leaves

end ScopeTree

/-- A tree has the property exactly if one of its leaves has it. -/
theorem Scope.Additive.scope_iff (h : Scope.Additive P) (t : ScopeTree) :
    P t.scope ↔ ∃ s ∈ t.leaves, P s := by
  induction t with
  | of names annotations => simp [ScopeTree.scope, ScopeTree.leaves]
  | nested outer names annotations ih =>
    rw [ScopeTree.scope, Scope.nested, h.join, ih, ScopeTree.leaves]
    simp [or_and_right, exists_or]
  | enclosing parts ih =>
    rw [ScopeTree.scope, h.enclosing_iff, ScopeTree.leaves]
    constructor
    · rintro ⟨_, hs, hP⟩
      obtain ⟨t, ht, rfl⟩ := List.mem_map.mp hs
      obtain ⟨l, hl, hPl⟩ := (ih t ht).mp hP
      exact ⟨l, List.mem_flatMap.mpr ⟨t, ht, hl⟩, hPl⟩
    · rintro ⟨l, hl, hPl⟩
      obtain ⟨t, ht, hlt⟩ := List.mem_flatMap.mp hl
      exact ⟨t.scope, List.mem_map_of_mem ht, (ih t ht).mpr ⟨l, hlt, hPl⟩⟩

namespace ScopeTree

/-- A tree is determined by its leaves, in whatever order and however often they come up. -/
theorem scope_eq_of_leaves (h : ∀ s, s ∈ t.leaves ↔ s ∈ u.leaves) : t.scope = u.scope := by
  refine Scope.ext_of_mem (fun name => ?_) (fun name => ?_)
  · rw [(Scope.additive_mem_names name).scope_iff, (Scope.additive_mem_names name).scope_iff]
    exact exists_congr fun s => and_congr_left fun _ => h s
  · rw [(Scope.additive_mem_annotations name).scope_iff,
      (Scope.additive_mem_annotations name).scope_iff]
    exact exists_congr fun s => and_congr_left fun _ => h s

/-- What merging scopes comes to for the checks that they suppress. -/
structure Joined (t : ScopeTree) : Prop where
  /-- A check is suppressed exactly if it is at one of the places by itself. -/
  isSuppressed_iff : ∀ c : Check, c.isSuppressed t.scope = true ↔
    ∃ s ∈ t.leaves, c.isSuppressed s = true
  policy_iff : ∀ (p : Policy) (c : Check), p.isSuppressed c t.scope = true ↔
    ∃ s ∈ t.leaves, p.isSuppressed c s = true
  /-- The order, the grouping and the repetition of places play no part. -/
  unordered : ∀ u : ScopeTree, (∀ s, s ∈ u.leaves ↔ s ∈ t.leaves) → u.scope = t.scope
  nested_eq : ∀ names annotations : List String,
    (nested t names annotations).scope = .enclosing [t.scope, .of names annotations]
  /-- What is suppressed around a place is suppressed there. -/
  inner : ∀ (c : Check) (names annotations : List String), c.isSuppressed t.scope = true →
    c.isSuppressed (nested t names annotations).scope = true
  inner_policy : ∀ (p : Policy) (c : Check) (names annotations : List String),
    p.isSuppressed c t.scope = true →
    p.isSuppressed c (nested t names annotations).scope = true
  /-- A policy without exemption leaves the checks as they are. -/
  unexempted : ∀ c : Check, Policy.isSuppressed ⟨false⟩ c t.scope = c.isSuppressed t.scope
  /-- The exemption never adds a suppression, and it takes one away only from errors that ordinary
  suppression reaches. -/
  exempted : ∀ c : Check,
    (Policy.isSuppressed ⟨true⟩ c t.scope = true → c.isSuppressed t.scope = true) ∧
    (Policy.isSuppressed ⟨true⟩ c t.scope ≠ c.isSuppressed t.scope →
      c.severity = .error ∧ c.suppressibility = .suppressWarnings)

/-- **Merging scopes is a join that suppression respects**, for every tree of scopes, check and
policy. -/
theorem joined (t : ScopeTree) : Joined t where
  isSuppressed_iff := fun c => (Scope.additive_isSuppressed c).scope_iff t
  policy_iff := fun p c => (Scope.additive_policy p c).scope_iff t
  unordered := fun _ h => scope_eq_of_leaves h
  nested_eq := fun names annotations => by rw [scope, Scope.nested_eq_enclosing]
  inner := by
    intro c names annotations h
    rw [scope, Scope.nested, (Scope.additive_isSuppressed c).join]
    exact Or.inl h
  inner_policy := by
    intro p c names annotations h
    rw [scope, Scope.nested, (Scope.additive_policy p c).join]
    exact Or.inl h
  unexempted := by
    intro c
    have hfree : ¬ ((⟨false⟩ : Policy).exemptErrors = true ∧ c.severity = .error ∧
        c.suppressibility = .suppressWarnings) := fun h => by cases h.1
    rw [Policy.isSuppressed_of_not_exempt hfree]
  exempted := by
    intro c
    by_cases h : (⟨true⟩ : Policy).exemptErrors = true ∧ c.severity = .error ∧
        c.suppressibility = .suppressWarnings
    · rw [Policy.isSuppressed_of_exempt h.1 h.2.1 h.2.2]
      exact ⟨nofun, fun _ => h.2⟩
    · rw [Policy.isSuppressed_of_not_exempt h]
      exact ⟨id, fun hne => absurd rfl hne⟩

end ScopeTree

end CheckRegistry
