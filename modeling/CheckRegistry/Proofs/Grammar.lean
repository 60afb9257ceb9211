import CheckRegistry.Sexp.Reader

/-! # The grammar that the reader reads

The reader goes through the tokens with a stack of frames, and a quote mark opens a frame that
stays open for the rest of its list.  `Denotes` says without a stack what a sequence of tokens
stands for, by one rule for each kind of token that an expression begins with.  The rule for the
quote mark takes the first of the expressions that follow and leaves the others as they are, which
is all that the open frame comes to.

`readAll_eq_ok_iff` says that the reader accepts exactly what the grammar derives.  The grammar
knows no positions and no place within a list, so what the reader makes of a text put into a list,
or of two texts in a row, follows from the rules alone (`denotes_wrapped_iff`, `Denotes.append`).
-/

namespace CheckRegistry.Sexp

/-- **The grammar**: the expressions that a sequence of tokens stands for. -/
inductive Denotes : List Token.Kind → List Sexp → Prop
  | nil : Denotes [] []
  | text (s : String) {ks : List Token.Kind} {xs : List Sexp} (hrest : Denotes ks xs) :
      Denotes (.text s :: ks) (.text s :: xs)
  | atom (s : String) {ks : List Token.Kind} {xs : List Sexp} (hrest : Denotes ks xs) :
      Denotes (.atom s :: ks) (ofAtom s :: xs)
  | list (shape : Shape) {inner ks : List Token.Kind} {items xs : List Sexp}
      (hinner : Denotes inner items) (hrest : Denotes ks xs) :
      Denotes (.opening shape :: (inner ++ .closing shape :: ks)) (Reader.listOf shape items :: xs)
  /-- A quote mark applies to the first expression after it, which has to be there. -/
  | quote {ks : List Token.Kind} {x : Sexp} {xs : List Sexp} (hrest : Denotes ks (x :: xs)) :
      Denotes (.quoteMark :: ks) (.quoted x :: xs)

namespace Denotes

variable {ks ls : List Token.Kind} {xs ys : List Sexp} {x : Sexp}

/-- Two sequences of tokens in a row stand for the expressions of both.  A quote mark in the first
has its expression there, so it takes nothing from the second. -/
theorem append (hks : Denotes ks xs) (hls : Denotes ls ys) : Denotes (ks ++ ls) (xs ++ ys) := by
  induction hks with
  | nil => exact hls
  | text s _ ih => exact .text s ih
  | atom s _ ih => exact .atom s ih
  | list shape hinner _ _ ih =>
    rw [List.cons_append, List.append_assoc, List.cons_append]
    exact .list shape hinner ih
  | quote _ ih => exact .quote ih

theorem eq_nil_iff (h : Denotes ks xs) : ks = [] ↔ xs = [] := by
  cases h <;> simp

theorem openText_not_mem (h : Denotes ks xs) : Token.Kind.openText ∉ ks := by
  induction h with
  | nil => simp
  | text s _ ih => simpa using ih
  | atom s _ ih => simpa using ih
  | list shape _ _ ihinner ih => simp [ihinner, ih]
  | quote _ ih => simpa using ih

/-- An atom at the end is not the token before it. -/
theorem getLast?_of_cons {k : Token.Kind} {s : String} (hk : k ≠ .atom s)
    (hlast : (k :: ks).getLast? = some (.atom s)) : ks.getLast? = some (.atom s) := by
  cases ks with
  | nil => exact absurd (Option.some.inj hlast) hk
  | cons l ks => rwa [List.getLast?_cons_cons] at hlast

/-- An atom at the end stands for an expression that is no list, quoted or not. -/
theorem exists_not_list {s : String} (h : Denotes ks xs) (hlast : ks.getLast? = some (.atom s)) :
    ∃ x ∈ xs, ∀ items, x ≠ .list items := by
  induction h with
  | nil => cases hlast
  | text t _ ih =>
    obtain ⟨x, hx, hno⟩ := ih (getLast?_of_cons (by simp) hlast)
    exact ⟨x, List.mem_cons_of_mem _ hx, hno⟩
  | @atom t ks xs _ ih =>
    by_cases ht : ks = []
    · refine ⟨ofAtom t, List.mem_cons_self, fun items => ?_⟩
      rw [ofAtom]
      split <;> simp
    · obtain ⟨k, ks, rfl⟩ := List.exists_cons_of_ne_nil ht
      obtain ⟨x, hx, hno⟩ := ih (by rwa [List.getLast?_cons_cons] at hlast)
      exact ⟨x, List.mem_cons_of_mem _ hx, hno⟩
  | @list shape inner ks items xs _ _ _ ih =>
    have hclosing : (Token.Kind.closing shape :: ks).getLast? = some (.atom s) := by
      rw [← List.cons_append, List.getLast?_append] at hlast
      rwa [List.getLast?_cons, Option.some_or, ← List.getLast?_cons] at hlast
    obtain ⟨x, hx, hno⟩ := ih (getLast?_of_cons (by simp) hclosing)
    exact ⟨x, List.mem_cons_of_mem _ hx, hno⟩
  | @quote ks x xs _ ih =>
    obtain ⟨y, hy, hno⟩ := ih (getLast?_of_cons (by simp) hlast)
    rcases List.mem_cons.mp hy with rfl | hy
    · exact ⟨.quoted y, List.mem_cons_self, by simp⟩
    · exact ⟨y, List.mem_cons_of_mem _ hy, hno⟩

end Denotes

/-- What stands in round brackets is one expression exactly if what is inside stands for its
items: nothing inside can close the brackets early. -/
theorem denotes_wrapped_iff {ks : List Token.Kind} {x : Sexp} :
    Denotes (.opening .round :: (ks ++ [.closing .round])) [x] ↔
      ∃ xs, Denotes ks xs ∧ x = .list xs := by
  constructor
  · intro h
    generalize hts : Token.Kind.opening .round :: (ks ++ [.closing .round]) = ts at h
    generalize hxs : [x] = ys at h
    cases h with
    | nil => cases hts
    | text s _ => cases hts
    | atom s _ => cases hts
    | quote _ => cases hts
    | @list shape inner ks' items xs hinner hrest =>
      obtain ⟨hshape, htail⟩ := List.cons.inj hts
      obtain rfl : Shape.round = shape := Token.Kind.opening.inj hshape
      obtain ⟨rfl, rfl⟩ := List.cons.inj hxs
      obtain rfl : ks' = [] := hrest.eq_nil_iff.mpr rfl
      obtain rfl : ks = inner := List.append_cancel_right htail
      exact ⟨items, hinner, rfl⟩
  · rintro ⟨xs, hks, rfl⟩
    exact .list .round hks .nil

/-! ## The reader -/

namespace Reader

variable {r r' : Reader} {xs ys : List Sexp} {s : List Char}

/-- The expressions of the innermost list, in reverse, when its quotations are left, with its
shape and the reader around it; or the expressions outside of all frames. -/
def level (r : Reader) : Except ReadError (List Sexp × Option (Shape × Reader)) :=
  (leaveQuotations [] r.frames).map fun
    | (xs, none) => (xs ++ r.outside, none)
    | (xs, some (shape, outer)) => (xs, some (shape, ⟨outer, r.outside⟩))

theorem finish_eq_ok_iff : r.finish = .ok xs ↔ r.level = .ok (xs.reverse, none) := by
  rw [finish, level]
  rcases leaveQuotations [] r.frames with e | ⟨items, _ | ⟨shape, outer⟩⟩
  · simp [Except.map]
  · simp only [Except.map, Except.ok.injEq, Prod.mk.injEq, and_true]
    exact List.reverse_eq_iff
  · simp [Except.map]

theorem close_eq_ok_iff {shape : Shape} {rest : String} : r.close shape rest = .ok r' ↔
    ∃ items outer, r.level = .ok (items, some (shape, outer)) ∧
      r' = outer.add [listOf shape items.reverse] := by
  rw [close, level]
  rcases leaveQuotations [] r.frames with e | ⟨items, _ | ⟨own, outer⟩⟩
  · simp [Except.map]
  · simp [Except.map]
  · by_cases h : own = shape
    · subst h
      simp only [Except.map, if_true, Except.ok.injEq, Prod.mk.injEq, Option.some.injEq,
        true_and]
      constructor
      · intro hr
        exact ⟨items, _, ⟨rfl, rfl⟩, hr.symm⟩
      · rintro ⟨_, _, ⟨rfl, rfl⟩, rfl⟩
        rfl
    · simp [Except.map, h]

theorem add_nil (r : Reader) : r.add [] = r := by
  obtain ⟨frames, outside⟩ := r
  cases frames <;> rfl

theorem add_add (r : Reader) (xs ys : List Sexp) : (r.add xs).add ys = r.add (ys ++ xs) := by
  obtain ⟨frames, outside⟩ := r
  cases frames <;> simp [add]

theorem level_start_add (xs : List Sexp) : (start.add xs).level = .ok (xs, none) := by
  simp [start, add, level, leaveQuotations, Except.map]

theorem level_enter_list (r : Reader) (shape : Shape) (xs : List Sexp) :
    ((r.enter (.list shape)).add xs).level = .ok (xs, some (shape, r)) := by
  simp [enter, add, level, leaveQuotations, Except.map]

/-- Leaving a quotation with something in it puts its expressions, the first of them quoted, where
the quotation began. -/
theorem level_enter_quotation (r : Reader) (position : Nat) (hne : xs ≠ []) :
    ((r.enter (.quotation position)).add xs).level = (r.add (quoteFirst xs)).level := by
  obtain ⟨frames, outside⟩ := r
  obtain ⟨x, rest, rfl⟩ := List.exists_cons_of_ne_nil hne
  rcases frames with _ | ⟨⟨shape | p, read⟩, outer⟩
  · simp [enter, add, level, leaveQuotations, Except.map]
  · simp [enter, add, level, leaveQuotations, Except.map]
  · simp [enter, add, level, leaveQuotations]

theorem level_enter_quotation_nil (r : Reader) (position : Nat) :
    (r.enter (.quotation position)).level = .error (.emptyQuote position) := by
  simp [enter, level, leaveQuotations, Except.map]

theorem quoteFirst_concat (xs : List Sexp) (x : Sexp) :
    quoteFirst (xs ++ [x]) = xs ++ [.quoted x] := by
  induction xs with
  | nil => rfl
  | cons y xs ih =>
    obtain ⟨z, zs, hz⟩ := List.exists_cons_of_ne_nil (l := xs ++ [x]) (by simp)
    rw [List.cons_append, List.cons_append, ← ih, hz, quoteFirst]
    simp

/-! ### What the grammar derives is read

The reader need not end in the state in which the expressions have been added one by one, since a
quotation may still be open.  It ends in one that leaves the same expressions behind. -/

theorem foldlM_take_cons {t : Token} {ts : List Token} (h : take s r t = .ok r') :
    (t :: ts).foldlM (take s) r = ts.foldlM (take s) r' := by
  rw [List.foldlM_cons, h]
  rfl

theorem foldlM_take_append {ts us : List Token} (h : ts.foldlM (take s) r = .ok r') :
    (ts ++ us).foldlM (take s) r = us.foldlM (take s) r' := by
  rw [List.foldlM_append, h]
  rfl

theorem foldlM_take_of_denotes {ks : List Token.Kind} (h : Denotes ks xs) (r : Reader)
    {ts : List Token} (hts : ts.map Token.kind = ks) :
    ∃ r', ts.foldlM (take s) r = .ok r' ∧ r'.level = (r.add xs.reverse).level := by
  induction h generalizing r ts with
  | nil =>
    obtain rfl := List.map_eq_nil_iff.mp hts
    exact ⟨r, rfl, by rw [List.reverse_nil, add_nil]⟩
  | text str _ ih =>
    obtain ⟨t, ts, rfl, ht, hrest⟩ := List.map_eq_cons_iff.mp hts
    have htake : take s r t = .ok (r.add [.text str]) := by rw [take, ht]
    obtain ⟨r', hrun, hlevel⟩ := ih (r.add [.text str]) hrest
    refine ⟨r', (foldlM_take_cons htake).trans hrun, ?_⟩
    rw [hlevel, add_add, List.reverse_cons]
  | atom str _ ih =>
    obtain ⟨t, ts, rfl, ht, hrest⟩ := List.map_eq_cons_iff.mp hts
    have htake : take s r t = .ok (r.add [ofAtom str]) := by rw [take, ht]
    obtain ⟨r', hrun, hlevel⟩ := ih (r.add [ofAtom str]) hrest
    refine ⟨r', (foldlM_take_cons htake).trans hrun, ?_⟩
    rw [hlevel, add_add, List.reverse_cons]
  | @list shape inner ks items xs _ _ ihinner ih =>
    obtain ⟨t, ts, rfl, ht, hts⟩ := List.map_eq_cons_iff.mp hts
    obtain ⟨ts₁, ts₂, rfl, hinner, hts⟩ := List.map_eq_append_iff.mp hts
    obtain ⟨u, ts₃, rfl, hu, hrest⟩ := List.map_eq_cons_iff.mp hts
    -- the opening bracket, what is inside, the closing bracket, and what follows it
    have hopen : take s r t = .ok (r.enter (.list shape)) := by rw [take, ht]
    obtain ⟨r₁, hrun₁, hlevel₁⟩ := ihinner (r.enter (.list shape)) hinner
    rw [level_enter_list] at hlevel₁
    have hclose : take s r₁ u = .ok (r.add [listOf shape items]) := by
      rw [take, hu]
      exact close_eq_ok_iff.mpr ⟨_, _, hlevel₁, by rw [List.reverse_reverse]⟩
    obtain ⟨r', hrun, hlevel⟩ := ih (r.add [listOf shape items]) hrest
    refine ⟨r', ?_, ?_⟩
    · rw [foldlM_take_cons hopen, foldlM_take_append hrun₁, foldlM_take_cons hclose, hrun]
    · rw [hlevel, add_add, List.reverse_cons]
  | @quote ks x xs _ ih =>
    obtain ⟨t, ts, rfl, ht, hrest⟩ := List.map_eq_cons_iff.mp hts
    have htake : take s r t = .ok (r.enter (.quotation t.start)) := by rw [take, ht]
    obtain ⟨r', hrun, hlevel⟩ := ih (r.enter (.quotation t.start)) hrest
    refine ⟨r', (foldlM_take_cons htake).trans hrun, ?_⟩
    rw [hlevel, level_enter_quotation r _ (by simp), List.reverse_cons, quoteFirst_concat,
      List.reverse_cons]

/-! ### What is read the grammar derives -/

/-- The tokens that have brought the reader where it is: each frame was opened by a token, and
what followed it stands for the expressions in the frame. -/
inductive Consumed : Reader → List Token.Kind → Prop
  | outside {ks : List Token.Kind} {xs : List Sexp} (hread : Denotes ks xs.reverse) :
      Consumed ⟨[], xs⟩ ks
  | list {frames : List Frame} {outside xs : List Sexp} {before ks : List Token.Kind}
      (shape : Shape) (houter : Consumed ⟨frames, outside⟩ before)
      (hread : Denotes ks xs.reverse) :
      Consumed ⟨⟨.list shape, xs⟩ :: frames, outside⟩ (before ++ .opening shape :: ks)
  | quotation {frames : List Frame} {outside xs : List Sexp} {before ks : List Token.Kind}
      (position : Nat) (houter : Consumed ⟨frames, outside⟩ before)
      (hread : Denotes ks xs.reverse) :
      Consumed ⟨⟨.quotation position, xs⟩ :: frames, outside⟩ (before ++ .quoteMark :: ks)

namespace Consumed

variable {before ks : List Token.Kind}

theorem start : Consumed Reader.start [] := .outside .nil

theorem add (h : Consumed r before) (hxs : Denotes ks xs.reverse) :
    Consumed (r.add xs) (before ++ ks) := by
  cases h with
  | outside hread =>
    refine .outside ?_
    rw [List.reverse_append]
    exact hread.append hxs
  | list shape houter hread =>
    rw [List.append_assoc, List.cons_append]
    refine .list shape houter ?_
    rw [List.reverse_append]
    exact hread.append hxs
  | quotation position houter hread =>
    rw [List.append_assoc, List.cons_append]
    refine .quotation position houter ?_
    rw [List.reverse_append]
    exact hread.append hxs

theorem enter_list (h : Consumed r before) (shape : Shape) :
    Consumed (r.enter (.list shape)) (before ++ [.opening shape]) :=
  .list shape h .nil

theorem enter_quotation (h : Consumed r before) (position : Nat) :
    Consumed (r.enter (.quotation position)) (before ++ [.quoteMark]) :=
  .quotation position h .nil

/-- What the tokens behind a level are. -/
def Explains (ks : List Token.Kind) : List Sexp × Option (Shape × Reader) → Prop
  | (xs, none) => Denotes ks xs.reverse
  | (xs, some (shape, outer)) => ∃ before inner, ks = before ++ .opening shape :: inner ∧
      Consumed outer before ∧ Denotes inner xs.reverse

theorem level {l : List Sexp × Option (Shape × Reader)} (h : Consumed r ks)
    (hlevel : r.level = .ok l) : Explains ks l := by
  -- what leaves a quotation is added one frame further out, so the frames there have more to
  -- explain than what was read in them
  suffices general : ∀ {r before}, Consumed r before → ∀ (ks : List Token.Kind) (xs : List Sexp),
      Denotes ks xs.reverse → (r.add xs).level = .ok l → Explains (before ++ ks) l by
    have := general h [] [] .nil
    rw [add_nil, List.append_nil] at this
    exact this hlevel
  intro r before h
  induction h with
  | @outside before read hread =>
    intro ks xs hxs hlevel
    obtain rfl := Except.ok.inj hlevel
    show Denotes (before ++ ks) ([] ++ (xs ++ read)).reverse
    rw [List.nil_append, List.reverse_append]
    exact hread.append hxs
  | list shape houter hread _ =>
    intro ks xs hxs hlevel
    obtain rfl := Except.ok.inj hlevel
    refine ⟨_, _, by rw [List.append_assoc, List.cons_append], houter, ?_⟩
    rw [List.nil_append, List.reverse_append]
    exact hread.append hxs
  | @quotation frames outside read before inner position houter hread ih =>
    intro ks xs hxs hlevel
    have hall : Denotes (inner ++ ks) (xs ++ read).reverse := by
      rw [List.reverse_append]
      exact hread.append hxs
    have henter : (⟨⟨.quotation position, read⟩ :: frames, outside⟩ : Reader).add xs =
        (Reader.enter ⟨frames, outside⟩ (.quotation position)).add (xs ++ read) := by
      simp [Reader.enter, Reader.add]
    rw [henter] at hlevel
    rcases List.eq_nil_or_concat (xs ++ read) with hnil | ⟨init, x, hconcat⟩
    · rw [hnil, add_nil, level_enter_quotation_nil] at hlevel
      cases hlevel
    · rw [List.concat_eq_append] at hconcat
      rw [hconcat, level_enter_quotation _ _ (by simp), quoteFirst_concat] at hlevel
      rw [hconcat, List.reverse_concat] at hall
      rw [List.append_assoc, List.cons_append]
      refine ih (.quoteMark :: (inner ++ ks)) (init ++ [.quoted x]) ?_ hlevel
      rw [List.reverse_concat]
      exact .quote hall

theorem take {t : Token} (h : Consumed r ks) (htake : Reader.take s r t = .ok r') :
    Consumed r' (ks ++ [t.kind]) := by
  rw [Reader.take] at htake
  split at htake
  next shape hkind =>
    rw [hkind, ← Except.ok.inj htake]
    exact h.enter_list shape
  next shape hkind =>
    obtain ⟨items, outer, hlevel, rfl⟩ := close_eq_ok_iff.mp htake
    obtain ⟨before, inner, rfl, houter, hinner⟩ := h.level hlevel
    rw [hkind, List.append_assoc, List.cons_append]
    refine houter.add ?_
    exact .list shape hinner .nil
  next hkind =>
    rw [hkind, ← Except.ok.inj htake]
    exact h.enter_quotation t.start
  next str hkind =>
    rw [hkind, ← Except.ok.inj htake]
    exact h.add (.text str .nil)
  next str hkind =>
    rw [hkind, ← Except.ok.inj htake]
    exact h.add (.atom str .nil)
  next => cases htake

theorem foldlM_take {ts : List Token} (h : Consumed r ks)
    (hrun : ts.foldlM (Reader.take s) r = .ok r') : Consumed r' (ks ++ ts.map Token.kind) := by
  induction ts generalizing r ks with
  | nil =>
    obtain rfl := Except.ok.inj hrun
    simpa using h
  | cons t ts ih =>
    cases htake : Reader.take s r t with
    | error e =>
      rw [List.foldlM_cons, htake] at hrun
      cases hrun
    | ok r₁ =>
      rw [foldlM_take_cons htake] at hrun
      have hnext := ih (h.take htake) hrun
      rwa [List.append_assoc] at hnext

end Consumed

end Reader

/-- The kinds of the tokens of a text. -/
def kinds (s : List Char) : List Token.Kind := (Token.scan s).map Token.kind

/-- **The reader accepts exactly what the grammar derives**, and yields what it stands for. -/
theorem readAll_eq_ok_iff {s : List Char} {xs : List Sexp} :
    readAll s = .ok xs ↔ Denotes (kinds s) xs := by
  constructor
  · intro h
    rw [readAll] at h
    cases hrun : (Token.scan s).foldlM (Reader.take s) Reader.start with
    | error e => rw [hrun] at h; cases h
    | ok r =>
      rw [hrun] at h
      have hlevel := (Reader.Consumed.start.foldlM_take hrun).level (Reader.finish_eq_ok_iff.mp h)
      rw [List.nil_append] at hlevel
      simpa [Reader.Consumed.Explains, kinds] using hlevel
  · intro h
    obtain ⟨r, hrun, hlevel⟩ : ∃ r, (Token.scan s).foldlM (Reader.take s) Reader.start = .ok r ∧
        r.level = (Reader.start.add xs.reverse).level :=
      Reader.foldlM_take_of_denotes h Reader.start rfl
    rw [readAll, hrun]
    rw [Reader.level_start_add] at hlevel
    exact Reader.finish_eq_ok_iff.mpr hlevel

theorem readOne_eq_ok_iff {s : List Char} {x : Sexp} :
    readOne s = .ok x ↔ Denotes (kinds s) [x] := by
  rw [← readAll_eq_ok_iff, readOne]
  split
  next y h => simp [h]
  next xs hxs h =>
    rw [h]
    refine iff_of_false (by simp) ?_
    rintro ⟨⟩
    exact hxs x rfl
  next e h => simp [h]

end CheckRegistry.Sexp
