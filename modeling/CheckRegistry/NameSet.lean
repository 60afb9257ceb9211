/-!
# Finite sets of names

Alternate names, tags and annotation types are sets: their order and repetition in a declaration
mean nothing.  A `NameSet` keeps its names in increasing order of code points and without
repetition, so equal sets are equal values and listing a set is listing its names in order.
-/

namespace CheckRegistry

/-- A finite set of texts, held in strictly increasing order. -/
structure NameSet where
  /-- The names in increasing order. -/
  toList : List String
  sorted : toList.Pairwise (· < ·)
  deriving DecidableEq

namespace NameSet

/-- Puts a name at its place in an increasing list, unless it is there already. -/
def insertSorted (a : String) : List String → List String
  | [] => [a]
  | b :: rest =>
    if a < b then a :: b :: rest else if a = b then b :: rest else b :: insertSorted a rest

theorem mem_insertSorted {a x : String} {l : List String} :
    x ∈ insertSorted a l ↔ x = a ∨ x ∈ l := by
  induction l with
  | nil => simp [insertSorted]
  | cons b rest ih =>
    simp only [insertSorted]
    split
    · simp
    · split
      · next h => subst h; simp
      · simp only [List.mem_cons, ih]
        exact ⟨fun h =>
            h.elim (fun h => .inr (.inl h)) (fun h => h.elim .inl (fun h => .inr (.inr h))),
          fun h => h.elim (fun h => .inr (.inl h)) (fun h => h.elim .inl (fun h => .inr (.inr h)))⟩

theorem pairwise_insertSorted {a : String} {l : List String} (h : l.Pairwise (· < ·)) :
    (insertSorted a l).Pairwise (· < ·) := by
  induction l with
  | nil => simp [insertSorted]
  | cons b rest ih =>
    rw [List.pairwise_cons] at h
    simp only [insertSorted]
    split
    · next hab =>
      refine List.pairwise_cons.2 ⟨fun x hx => ?_, List.pairwise_cons.2 h⟩
      rcases List.mem_cons.1 hx with rfl | hx
      · exact hab
      · exact String.lt_trans hab (h.1 x hx)
    · split
      · exact List.pairwise_cons.2 h
      · next hab hne =>
        refine List.pairwise_cons.2 ⟨fun x hx => ?_, ih h.2⟩
        rcases mem_insertSorted.1 hx with rfl | hx
        · exact String.not_le.1 fun hle => hne (String.le_antisymm hle (String.not_lt.1 hab))
        · exact h.1 x hx

/-- The set without names. -/
def empty : NameSet := ⟨[], List.Pairwise.nil⟩

instance : EmptyCollection NameSet := ⟨empty⟩

instance : Inhabited NameSet := ⟨empty⟩

instance : Membership String NameSet := ⟨fun s a => a ∈ s.toList⟩

instance (a : String) (s : NameSet) : Decidable (a ∈ s) :=
  inferInstanceAs (Decidable (a ∈ s.toList))

/-- Adds a name. -/
def insert (a : String) (s : NameSet) : NameSet :=
  ⟨insertSorted a s.toList, pairwise_insertSorted s.sorted⟩

/-- The names of a list. -/
def ofList (names : List String) : NameSet := names.foldr insert empty

/-- The names in either of two sets. -/
def union (s t : NameSet) : NameSet := s.toList.foldr insert t

instance : Union NameSet := ⟨union⟩

/-- Whether a set has no names. -/
def isEmpty (s : NameSet) : Bool := s.toList.isEmpty

/-- Whether two sets share a name. -/
def meets (s t : NameSet) : Bool := s.toList.any fun a => decide (a ∈ t)

theorem mem_def {a : String} {s : NameSet} : a ∈ s ↔ a ∈ s.toList := Iff.rfl

@[simp] theorem not_mem_empty (a : String) : ¬ a ∈ (∅ : NameSet) := by
  simp [mem_def, EmptyCollection.emptyCollection, empty]

@[simp] theorem mem_insert {a x : String} {s : NameSet} : x ∈ s.insert a ↔ x = a ∨ x ∈ s :=
  mem_insertSorted

@[simp] theorem mem_ofList {x : String} {l : List String} : x ∈ ofList l ↔ x ∈ l := by
  induction l with
  | nil => exact iff_of_false (not_mem_empty x) (by simp)
  | cons a l ih => simp only [ofList, List.foldr_cons] at ih ⊢; simp [ih]

@[simp] theorem mem_union {x : String} {s t : NameSet} : x ∈ s ∪ t ↔ x ∈ s ∨ x ∈ t := by
  obtain ⟨l, hl⟩ := s
  change x ∈ l.foldr insert t ↔ x ∈ l ∨ x ∈ t
  clear hl
  induction l with
  | nil => simp
  | cons a l ih => simp [ih, or_assoc]

theorem nodup_toList (s : NameSet) : s.toList.Nodup :=
  s.sorted.imp fun {a b} (hab : a < b) (heq : a = b) => String.lt_irrefl b (heq ▸ hab)

theorem meets_eq_true_iff {s t : NameSet} : s.meets t = true ↔ ∃ a, a ∈ s ∧ a ∈ t := by
  simp [meets, mem_def]

/-- Two sets with the same names are equal. -/
theorem ext {s t : NameSet} (h : ∀ a, a ∈ s ↔ a ∈ t) : s = t := by
  obtain ⟨l, hl⟩ := s
  obtain ⟨m, hm⟩ := t
  simp only [mem_def] at h
  congr
  induction l generalizing m with
  | nil =>
    cases m with
    | nil => rfl
    | cons b m => exact absurd ((h b).2 (by simp)) (by simp)
  | cons a l ih =>
    cases m with
    | nil => exact absurd ((h a).1 (by simp)) (by simp)
    | cons b m =>
      rw [List.pairwise_cons] at hl hm
      have hab : a = b := by
        rcases List.mem_cons.1 ((h a).1 (by simp)) with h1 | h1
        · exact h1
        · rcases List.mem_cons.1 ((h b).2 (by simp)) with h2 | h2
          · exact h2.symm
          · exact absurd (hl.1 b h2) (String.lt_asymm (hm.1 a h1))
      subst hab
      congr 1
      refine ih hl.2 m hm.2 fun x => ⟨fun hx => ?_, fun hx => ?_⟩
      · rcases List.mem_cons.1 ((h x).1 (List.mem_cons_of_mem _ hx)) with rfl | h1
        · exact absurd (hl.1 x hx) (String.lt_irrefl x)
        · exact h1
      · rcases List.mem_cons.1 ((h x).2 (List.mem_cons_of_mem _ hx)) with rfl | h1
        · exact absurd (hm.1 x hx) (String.lt_irrefl x)
        · exact h1

end NameSet

/-- Sorts texts by their code points; equal texts stay. -/
def sortTexts (texts : List String) : List String := texts.mergeSort fun a b => decide (a ≤ b)

theorem sortTexts_perm (texts : List String) : (sortTexts texts).Perm texts :=
  List.mergeSort_perm texts _

theorem pairwise_sortTexts (texts : List String) : (sortTexts texts).Pairwise (· ≤ ·) := by
  have h : (sortTexts texts).Pairwise fun a b => decide (a ≤ b) = true :=
    List.pairwise_mergeSort
      (fun a b c hab hbc => by simp only [decide_eq_true_eq] at *; exact String.le_trans hab hbc)
      (fun a b => by simpa using String.le_total a b) texts
  exact h.imp fun hab => of_decide_eq_true hab

/-- The order in which texts are given plays no part in sorting them. -/
theorem sortTexts_eq_of_perm {texts texts' : List String} (h : texts.Perm texts') :
    sortTexts texts = sortTexts texts' :=
  List.Perm.eq_of_pairwise (fun _ _ _ _ hab hba => String.le_antisymm hab hba)
    (pairwise_sortTexts texts) (pairwise_sortTexts texts')
    ((sortTexts_perm texts).trans (h.trans (sortTexts_perm texts').symm))

end CheckRegistry
