import Mathlib.Data.List.Forall2

/-! # Entries at positions

A test on entries selects some positions of a list, and what stands at them, in order, is what the
test leaves of the list.  Two tests may select the same positions of two lists; then what is left of
lists in step is in step.
-/

namespace CheckRegistry.Lists

variable {α : Type}

theorem map_fst_filter_zipIdx (p : α → Bool) (l : List α) (k : Nat) :
    ((l.zipIdx k).filter fun x => p x.1).map Prod.fst = l.filter p := by
  have hmap := List.filter_map (f := Prod.fst) (p := p) (l := l.zipIdx k)
  rw [List.zipIdx_map_fst] at hmap
  exact hmap.symm

/-- The entries at some positions, in order. -/
def entriesAt (places : Nat → Bool) (l : List α) : List α :=
  (l.zipIdx.filter fun x => places x.2).map Prod.fst

/-- Two lists are taken from two others at the same positions. -/
def SamePositions (l l' kept kept' : List α) : Prop :=
  ∃ places : Nat → Bool, kept = entriesAt places l ∧ kept' = entriesAt places l'

/-- A test that looks at entries is one that looks at positions. -/
theorem filter_eq_entriesAt_of_forall {p : α → Bool} {places : Nat → Bool} {l : List α}
    (h : ∀ i a, l[i]? = some a → places i = p a) : l.filter p = entriesAt places l := by
  have hplaces : ∀ x ∈ l.zipIdx, places x.2 = p x.1 := fun x hx =>
    h x.2 x.1 (List.mem_zipIdx_iff_getElem?.mp hx)
  rw [entriesAt, List.filter_congr hplaces, map_fst_filter_zipIdx]

theorem filter_eq_entriesAt (p : α → Bool) (l : List α) :
    l.filter p = entriesAt (fun i => (l.map p)[i]? == some true) l := by
  refine filter_eq_entriesAt_of_forall fun i a ha => ?_
  rw [List.getElem?_map, ha, Option.map_some]
  cases p a <;> rfl

/-- Tests that agree position by position select the same positions. -/
theorem samePositions_filter {p p' : α → Bool} {l l' : List α} (h : l.map p = l'.map p') :
    SamePositions l l' (l.filter p) (l'.filter p') := by
  refine ⟨fun i => (l.map p)[i]? == some true, filter_eq_entriesAt p l, ?_⟩
  rw [h]
  exact filter_eq_entriesAt p' l'

/-- What is taken from two lists in step, at the same positions, is in step. -/
theorem SamePositions.forall₂ {R : α → α → Prop} {l l' kept kept' : List α}
    (h : SamePositions l l' kept kept') (hR : List.Forall₂ R l l') :
    List.Forall₂ R kept kept' := by
  obtain ⟨places, rfl, rfl⟩ := h
  have general : ∀ k, List.Forall₂ R
      (((l.zipIdx k).filter fun x => places x.2).map Prod.fst)
      (((l'.zipIdx k).filter fun x => places x.2).map Prod.fst) := by
    induction hR with
    | nil => exact fun _ => .nil
    | @cons a b l l' hab _ ih =>
      intro k
      rw [List.zipIdx_cons, List.zipIdx_cons]
      -- the two lists have their entries here, or neither does
      by_cases hk : places k = true
      · simp only [List.filter_cons, hk, if_true, List.map_cons]
        exact .cons hab (ih (k + 1))
      · simp only [List.filter_cons, hk]
        exact ih (k + 1)
  exact general 0

/-- Selecting entries with their positions, and then leaving out position `i`, selects from the
list without that position. -/
theorem map_fst_filter_zipIdx_ne (p : α → Bool) (l : List α) (i k : Nat) :
    ((l.zipIdx k).filter fun x => p x.1 && x.2 != k + i).map Prod.fst =
      (l.eraseIdx i).filter p := by
  induction l generalizing i k with
  | nil => rfl
  | cons a l ih =>
    cases i with
    | zero =>
      -- the first entry is the one to leave out, and no later one has its position
      have hlater : ∀ x ∈ l.zipIdx (k + 1), (p x.1 && x.2 != k) = p x.1 := by
        intro x hx
        have hle := List.le_snd_of_mem_zipIdx hx
        have hne : x.2 ≠ k := by omega
        simp [hne]
      rw [List.zipIdx_cons, List.eraseIdx_cons_zero, List.filter_cons_of_neg (by simp),
        Nat.add_zero, List.filter_congr hlater, map_fst_filter_zipIdx]
    | succ i =>
      have hk : k + (i + 1) = (k + 1) + i := by omega
      have hne : k ≠ k + 1 + i := by omega
      rw [List.zipIdx_cons, List.eraseIdx_cons_succ, hk]
      by_cases hp : p a = true
      · rw [List.filter_cons_of_pos (by simp [hp, hne]), List.filter_cons_of_pos hp,
          List.map_cons, ih]
      · rw [List.filter_cons_of_neg (by simp [hp]), List.filter_cons_of_neg hp, ih]

end CheckRegistry.Lists
