import Mathlib.Data.List.Forall2
import Mathlib.Data.List.TakeWhile

/-! # What is found in a list

An entry is found by its key, by its counterpart in a list in step, or by looking from the front for
it or for the end of a property.
-/

namespace CheckRegistry.Lists

variable {α β : Type}

/-! ## Keys -/

/-- Looking a key up finds each entry of a list whose keys are distinct. -/
theorem mem_iff_lookup [BEq α] [LawfulBEq α] {l : List (α × β)}
    (h : (l.map Prod.fst).Nodup) {a : α} {b : β} : (a, b) ∈ l ↔ l.lookup a = some b := by
  rw [List.lookup_eq_some_iff]
  constructor
  · intro hmem
    obtain ⟨before, after, rfl⟩ := List.append_of_mem hmem
    refine ⟨before, after, rfl, fun p hp => ?_⟩
    rw [List.map_append, List.map_cons, List.nodup_append] at h
    have hne : p.1 ≠ a := h.2.2 p.1 (List.mem_map_of_mem hp) a List.mem_cons_self
    exact bne_iff_ne.mpr hne.symm
  · rintro ⟨before, after, rfl, _⟩
    exact List.mem_append_right _ List.mem_cons_self

theorem isSome_lookup_iff_mem_keys [BEq α] [LawfulBEq α] {l : List (α × β)} {a : α} :
    (l.lookup a).isSome = true ↔ a ∈ l.map Prod.fst := by
  rw [List.lookup_isSome_iff, List.mem_map]
  exact exists_congr fun p => and_congr_right fun _ => beq_iff_eq.trans eq_comm

/-! ## Lists in step -/

/-- A list in step with another through a function is its image. -/
theorem forall₂_iff_map_eq {R : α → β → Prop} {f : α → β} (h : ∀ a b, R a b ↔ f a = b) {l : List α}
    {l' : List β} : List.Forall₂ R l l' ↔ l.map f = l' := by
  obtain rfl : R = fun a b => f a = b := funext fun a => funext fun b => propext (h a b)
  rw [← List.forall₂_eq_eq_eq, List.forall₂_map_left_iff]

/-- Of two lists in step, each entry of the first has its counterpart in the second. -/
theorem exists_of_mem_left {R : α → β → Prop} {l : List α} {l' : List β} (h : List.Forall₂ R l l')
    {a : α} (ha : a ∈ l) : ∃ b ∈ l', R a b := by
  induction h with
  | nil => cases ha
  | @cons c d l l' hR _ ih =>
    rcases List.mem_cons.mp ha with rfl | ha
    · exact ⟨d, List.mem_cons_self, hR⟩
    · obtain ⟨b, hb, hRb⟩ := ih ha
      exact ⟨b, List.mem_cons_of_mem d hb, hRb⟩

theorem exists_of_mem_right {R : α → β → Prop} {l : List α} {l' : List β} (h : List.Forall₂ R l l')
    {b : β} (hb : b ∈ l') : ∃ a ∈ l, R a b :=
  exists_of_mem_left h.flip hb

/-! ## Cuts -/

/-- A list is cut where a property ends by its entries with the property that come before any
other. -/
theorem span_append {p : α → Bool} {w rest : List α} (hall : ∀ a ∈ w, p a = true)
    (hnext : ∀ a ∈ rest.head?, p a = false) :
    (w ++ rest).takeWhile p = w ∧ (w ++ rest).dropWhile p = rest := by
  rw [List.takeWhile_append_of_pos hall, List.dropWhile_append_of_pos hall]
  cases rest with
  | nil => exact ⟨List.append_nil w, rfl⟩
  | cons a rest =>
    have ha : ¬ p a = true := by
      rw [hnext a rfl]
      exact Bool.false_ne_true
    rw [List.takeWhile_cons_of_neg ha, List.dropWhile_cons_of_neg ha, List.append_nil]
    exact ⟨rfl, rfl⟩

/-- An entry of a list that begins without it stands in the rest. -/
theorem exists_of_append_eq {s t x y : List α} {a : α} (h : s ++ t = x ++ a :: y) (ha : a ∉ s) :
    ∃ z, x = s ++ z ∧ t = z ++ a :: y := by
  rcases List.append_eq_append_iff.mp h with ⟨z, hx, ht⟩ | ⟨z, hs, hy⟩
  · exact ⟨z, hx, ht⟩
  · cases z with
    | nil => exact ⟨[], by rw [hs, List.append_nil, List.append_nil], hy.symm⟩
    | cons b z =>
      obtain ⟨rfl, -⟩ := List.cons.inj hy
      exact absurd (hs ▸ List.mem_append_right x List.mem_cons_self) ha

/-- Lists are the same up to the first of some entry, and after it. -/
theorem append_cons_inj_of_not_mem {s t x y : List α} {a : α} (ha : a ∉ s) (ha' : a ∉ x)
    (h : s ++ a :: t = x ++ a :: y) : s = x ∧ t = y := by
  obtain ⟨z, rfl, hz⟩ := exists_of_append_eq h ha
  cases z with
  | nil => exact ⟨(List.append_nil s).symm, (List.cons.inj hz).2⟩
  | cons b z =>
    obtain ⟨rfl, -⟩ := List.cons.inj hz
    exact absurd (List.mem_append_right s List.mem_cons_self) ha'

end CheckRegistry.Lists
