import CheckRegistry.Proofs.FileTree
import CheckRegistry.Proofs.Lists.Search

/-! # What a listing of files shows

A tree holds its entries in no particular order, that in which they came about.  `filesBelow` lists
the files below a place by comparing their places name by name, and then nothing of that order is
left: under the condition that each place has one entry (`Single`), the listing has exactly the
files that there are (`mem_filesBelow`), in a strict order (`pairwise_filesBelow`).  What changes a
tree keeps the condition.
-/

namespace CheckRegistry.FileTree

variable {t : FileTree} {dir p q place : Place} {e : Entry} {bytes : List UInt8}

/-! ## The order of places -/

theorem placeLe_iff {a b : Place} : placeLe a b = true ↔ ¬ b < a := by
  induction a generalizing b with
  | nil => exact iff_of_true rfl (List.not_lt_nil b)
  | cons x a ih =>
    cases b with
    | nil => exact iff_of_false Bool.false_ne_true fun h => h (List.nil_lt_cons x a)
    | cons y b =>
      rw [placeLe, List.cons_lt_cons_iff]
      by_cases hlt : x < y
      · rw [if_pos hlt]
        refine iff_of_true rfl ?_
        rintro (hgt | ⟨rfl, -⟩)
        · exact String.lt_asymm hlt hgt
        · exact String.lt_irrefl y hlt
      by_cases hgt : y < x
      · rw [if_neg hlt, if_pos hgt]
        exact iff_of_false Bool.false_ne_true fun h => h (.inl hgt)
      · have heq : x = y := String.le_antisymm (String.not_lt.mp hgt) (String.not_lt.mp hlt)
        subst heq
        rw [if_neg hlt, if_neg hgt, ih, or_iff_right hlt, and_iff_right rfl]

/-! ## Trees with one entry for each place -/

/-- Each place has at most one entry. -/
def Single (t : FileTree) : Prop := (t.entries.map Prod.fst).Nodup

theorem Single.file?_eq_some_iff (h : t.Single) :
    t.file? q = some bytes ↔ (q, .file bytes) ∈ t.entries := by
  rw [Lists.mem_iff_lookup h, file?]
  cases t.entries.lookup q with
  | none => simp
  | some e => cases e <;> simp

theorem nodup_setEntry {l : List (Place × Entry)} (h : (l.map Prod.fst).Nodup) :
    ((setEntry place e l).map Prod.fst).Nodup := by
  induction l with
  | nil => exact List.pairwise_singleton _ place
  | cons x l ih =>
    obtain ⟨p, old⟩ := x
    rw [List.map_cons, List.nodup_cons] at h
    by_cases hp : p = place
    · rw [setEntry, if_pos hp]
      exact List.nodup_cons.mpr h
    · rw [setEntry, if_neg hp, List.map_cons, List.nodup_cons]
      refine ⟨fun hmem => ?_, ih h.2⟩
      obtain ⟨y, hy, rfl⟩ := List.mem_map.mp hmem
      rcases mem_setEntry hy with rfl | hy
      · exact hp rfl
      · exact h.1 (List.mem_map.mpr ⟨y, hy, rfl⟩)

theorem Single.put (h : t.Single) (place : Place) (bytes : List UInt8) :
    (t.put place bytes).Single :=
  nodup_setEntry h

theorem Single.addDirectory (h : t.Single) (place : Place) : (t.addDirectory place).Single := by
  rw [FileTree.addDirectory]
  split
  · exact h
  · exact nodup_setEntry h

theorem Single.remove (h : t.Single) (place : Place) : (t.remove place).Single := by
  have hkept : Single ⟨t.entries.filter fun e => e.1 != place⟩ :=
    h.sublist (List.filter_sublist.map Prod.fst)
  exact hkept.addDirectory place.dropLast

/-! ## Entries that a change leaves -/

theorem mem_put {x : Place × Entry} (h : x ∈ (t.put place bytes).entries) :
    x = (place, .file bytes) ∨ x ∈ t.entries :=
  mem_setEntry h

/-- Removing an entry brings no file about. -/
theorem file_mem_of_mem_remove (h : (q, .file bytes) ∈ (t.remove place).entries) :
    (q, .file bytes) ∈ t.entries := by
  have hkept : ∀ x ∈ t.entries.filter fun e => e.1 != place, x ∈ t.entries := fun x hx =>
    (List.mem_filter.mp hx).1
  rw [remove, addDirectory] at h
  split at h
  · exact hkept _ h
  · rcases mem_setEntry h with heq | h
    · cases (Prod.mk.inj heq).2
    · exact hkept _ h

/-! ## The listing -/

/-- An entry as a listing of what is below a place shows it, if it is a file there. -/
def fileBelow? (dir : Place) (x : Place × Entry) : Option (Place × List UInt8) :=
  match x.2 with
  | .file bytes =>
    if dir.isPrefixOf x.1 && x.1 != dir then some (x.1.drop dir.length, bytes) else none
  | .directory => none

theorem filesBelow_eq (t : FileTree) (dir : Place) : t.filesBelow dir =
    (t.entries.filterMap (fileBelow? dir)).mergeSort fun a b => placeLe a.1 b.1 :=
  rfl

theorem fileBelow?_eq_some_iff {x : Place × Entry} :
    fileBelow? dir x = some (p, bytes) ↔ p ≠ [] ∧ x = (dir ++ p, .file bytes) := by
  obtain ⟨q, e⟩ := x
  cases e with
  | directory => simp [fileBelow?]
  | file old =>
    rw [fileBelow?, Option.ite_none_right_eq_some, Bool.and_eq_true, List.isPrefixOf_iff_prefix,
      bne_iff_ne, Option.some.injEq, Prod.mk.injEq, Prod.mk.injEq, Entry.file.injEq]
    constructor
    · rintro ⟨⟨⟨rest, rfl⟩, hne⟩, rfl, rfl⟩
      rw [List.drop_left]
      exact ⟨fun h => hne (by rw [h, List.append_nil]), rfl, rfl⟩
    · rintro ⟨hne, rfl, rfl⟩
      exact ⟨⟨List.prefix_append dir p, fun h => hne (List.append_right_eq_self.mp h)⟩,
        List.drop_left, rfl⟩

/-- The listing has the files below the place, and no others. -/
theorem mem_filesBelow (h : t.Single) :
    (p, bytes) ∈ t.filesBelow dir ↔ p ≠ [] ∧ t.file? (dir ++ p) = some bytes := by
  rw [filesBelow_eq, List.mem_mergeSort, List.mem_filterMap, h.file?_eq_some_iff]
  simp only [fileBelow?_eq_some_iff]
  constructor
  · rintro ⟨x, hx, hne, rfl⟩
    exact ⟨hne, hx⟩
  · rintro ⟨hne, hx⟩
    exact ⟨_, hx, hne, rfl⟩

/-- The listing is in the order of places, each of which comes once. -/
theorem pairwise_filesBelow (h : t.Single) (dir : Place) :
    (t.filesBelow dir).Pairwise fun a b => a.1 < b.1 := by
  have hsorted : (t.filesBelow dir).Pairwise fun a b => placeLe a.1 b.1 = true := by
    refine List.pairwise_mergeSort (fun a b c hab hbc => ?_) (fun a b => ?_) _
    · rw [placeLe_iff] at hab hbc ⊢
      exact List.not_lt.mpr (List.le_trans (List.not_lt.mp hab) (List.not_lt.mp hbc))
    · rw [Bool.or_eq_true, placeLe_iff, placeLe_iff]
      by_cases hgt : b.1 < a.1
      · exact .inr (List.lt_asymm hgt)
      · exact .inl hgt
  have hfound : (t.entries.filterMap (fileBelow? dir)).Pairwise fun a b => a.1 ≠ b.1 := by
    refine List.Pairwise.filterMap _ ?_ (List.pairwise_map.mp h)
    rintro x y hxy ⟨p, bytes⟩ hp ⟨q, bytes'⟩ hq heq
    obtain ⟨-, rfl⟩ := fileBelow?_eq_some_iff.mp hp
    obtain ⟨-, rfl⟩ := fileBelow?_eq_some_iff.mp hq
    exact hxy (congrArg (dir ++ ·) heq)
  have hdistinct : (t.filesBelow dir).Pairwise fun a b => a.1 ≠ b.1 :=
    hfound.perm (List.mergeSort_perm _ _).symm Ne.symm
  refine (hsorted.and hdistinct).imp ?_
  rintro a b ⟨hle, hne⟩
  by_contra hnot
  exact hne (List.le_antisymm (List.not_lt.mp (placeLe_iff.mp hle)) (List.not_lt.mp hnot))

end CheckRegistry.FileTree
