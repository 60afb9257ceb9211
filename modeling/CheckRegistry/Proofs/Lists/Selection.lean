import Mathlib.Data.List.Flatten
import Mathlib.Data.List.Nodup

/-! # What is selected from a list

What is left when repetitions are taken out, what two partial functions pick up that never pick up
the same entry, and what the entries that a test selects contribute to a list.
-/

namespace CheckRegistry.Lists

variable {α β : Type}

theorem nodup_eraseDups [BEq α] [LawfulBEq α] (l : List α) : l.eraseDups.Nodup := by
  induction hn : l.length using Nat.strongRecOn generalizing l with
  | ind n ih =>
    -- what follows the first entry is without it, so it is shorter but no part of the list
    cases l with
    | nil => simp
    | cons a l =>
      have hlen : (l.filter fun b => !b == a).length < n := by
        have := List.length_filter_le (fun b => !b == a) l
        rw [List.length_cons] at hn
        omega
      rw [List.eraseDups_cons, List.nodup_cons]
      exact ⟨by simp, ih _ hlen _ rfl⟩

/-- What one of two partial functions picks up, up to order: first what the one does, then what
the other does. -/
theorem filterMap_or_perm {f g : α → Option β} {l : List α}
    (h : ∀ a ∈ l, f a = none ∨ g a = none) :
    (l.filterMap fun a => (f a).or (g a)).Perm (l.filterMap f ++ l.filterMap g) := by
  induction l with
  | nil => exact .nil
  | cons a l ih =>
    have ih := ih fun b hb => h b (List.mem_cons_of_mem _ hb)
    rcases h a List.mem_cons_self with ha | ha
    · cases hg : g a with
      | none => simpa [ha, hg] using ih
      | some b =>
        rw [List.filterMap_cons_some (b := b) (by simp [ha, hg]), List.filterMap_cons_none ha,
          List.filterMap_cons_some hg]
        exact (ih.cons b).trans List.perm_middle.symm
    · cases hf : f a with
      | none => simpa [ha, hf] using ih
      | some b => simpa [ha, hf] using ih

theorem length_getLeft?_add_getRight? (l : List (α ⊕ β)) :
    (l.filterMap Sum.getLeft?).length + (l.filterMap Sum.getRight?).length = l.length := by
  induction l with
  | nil => rfl
  | cons x l ih =>
    cases x with
    | inl a => simp only [List.filterMap_cons, Sum.getLeft?, Sum.getRight?, List.length_cons]; omega
    | inr b => simp only [List.filterMap_cons, Sum.getLeft?, Sum.getRight?, List.length_cons]; omega

/-- The entries that a test selects contribute all that there is exactly if the others contribute
nothing. -/
theorem flatMap_eq_flatMap_filter_iff {p : α → Bool} {f : α → List β} {l : List α} :
    l.flatMap f = (l.filter p).flatMap f ↔ ∀ a ∈ l, p a = false → f a = [] := by
  induction l with
  | nil => simp
  | cons a l ih =>
    rw [List.flatMap_cons, List.forall_mem_cons]
    by_cases hp : p a = true
    · rw [List.filter_cons_of_pos hp, List.flatMap_cons, List.append_right_inj, ih]
      simp [hp]
    · rw [List.filter_cons_of_neg hp, ← ih]
      constructor
      · intro h
        -- what is selected from the rest is no longer than the rest
        have hle := ((List.filter_sublist (p := p) (l := l)).flatMap f).length_le
        have hlength := congrArg List.length h
        rw [List.length_append] at hlength
        have hnil : f a = [] := List.eq_nil_of_length_eq_zero (by omega)
        rw [hnil, List.nil_append] at h
        exact ⟨fun _ => hnil, h⟩
      · rintro ⟨ha, hrest⟩
        rw [ha (Bool.eq_false_iff.mpr hp), hrest, List.nil_append]

end CheckRegistry.Lists
