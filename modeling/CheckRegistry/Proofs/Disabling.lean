import CheckRegistry.Proofs.Lookup

/-! # Turning checks off

The keys of checks to turn off are followed one by one.  A key that leads to no check, or to one
that ordinary suppression does not reach, ends the attempt, so an error is always about the first
such key (`disabledNames_eq_error_iff`).  What is collected on the way are names, and in the end
the registry is filtered by them.

Filtering by name could leave out a check that no key leads to, if it had the name of another.  In a
registry that was built no two checks have one name, and the checks left out are those that the keys
lead to (`Built.active_eq_ok_iff`).  So nothing matters about the keys but which checks they lead to
(`Built.active_congr`), and turning off some keys and then others leaves what both leave
(`Built.active_append`).
-/

namespace CheckRegistry

namespace Registry

variable {r : Registry} {keys keys' ks ls names : List String} {key : String} {c : Check}
  {as bs cs : List Check} {e : DisableError}

/-! ## One key -/

/-- A key leads to a check that may be turned off. -/
def Disables (r : Registry) (key : String) (c : Check) : Prop :=
  r.get? key = some c ∧ c.suppressibility = .suppressWarnings

/-- What there is to say against a key: it leads to no check, or to one that is locked. -/
inductive Refuses (r : Registry) (key : String) : DisableError → Prop
  | unknown (h : r.get? key = none) : Refuses r key (.unknown ⟨key⟩)
  | locked {c : Check} (h : r.get? key = some c) (hkind : c.suppressibility ≠ .suppressWarnings) :
      Refuses r key (.locked c.name c.suppressibility)

/-- A key leads to a check that may be turned off, or there is something to say against it. -/
theorem disables_or_refuses (r : Registry) (key : String) :
    (∃ c, r.Disables key c) ∨ ∃ e, r.Refuses key e := by
  cases hget : r.get? key with
  | none => exact Or.inr ⟨_, .unknown hget⟩
  | some c =>
    by_cases hkind : c.suppressibility = .suppressWarnings
    · exact Or.inl ⟨c, hget, hkind⟩
    · exact Or.inr ⟨_, .locked hget hkind⟩

theorem Refuses.not_disables (h : r.Refuses key e) : ¬ r.Disables key c := by
  rintro ⟨hget, hkind⟩
  cases h with
  | unknown hnone => cases hget.symm.trans hnone
  | locked hsome hlocked => exact hlocked (Option.some.inj (hget.symm.trans hsome) ▸ hkind)

/-- A key that leads to a check that may be turned off adds its name. -/
theorem Disables.disabledNames_cons (h : r.Disables key c) (rest : List String) :
    r.disabledNames (key :: rest) = (c.name :: ·) <$> r.disabledNames rest := by
  obtain ⟨hget, hkind⟩ := h
  have hdisableable : c.isDisableable = true := beq_iff_eq.mpr hkind
  rw [disabledNames, resolve, hget]
  simp only [hdisableable, if_true]

/-- A key that there is something to say against ends the attempt. -/
theorem Refuses.disabledNames_cons (h : r.Refuses key e) (rest : List String) :
    r.disabledNames (key :: rest) = .error e := by
  cases h with
  | unknown hnone => rw [disabledNames, resolve, hnone]
  | @locked c hsome hkind =>
    have hlocked : c.isDisableable = false := beq_eq_false_iff_ne.mpr hkind
    rw [disabledNames, resolve, hsome]
    simp only [hlocked, Bool.false_eq_true, if_false]

/-! ## One key after another -/

theorem disabledNames_eq_ok_iff : r.disabledNames keys = .ok names ↔
    List.Forall₂ (fun key name => ∃ c, r.Disables key c ∧ c.name = name) keys names := by
  induction keys generalizing names with
  | nil =>
    rw [List.forall₂_nil_left_iff, disabledNames, Except.ok.injEq]
    exact eq_comm
  | cons key rest ih =>
    rw [List.forall₂_cons_left_iff]
    rcases r.disables_or_refuses key with ⟨c, hc⟩ | ⟨e, he⟩
    · rw [hc.disabledNames_cons]
      constructor
      · intro h
        cases hrest : r.disabledNames rest with
        | error e => rw [hrest] at h; cases h
        | ok others =>
          rw [hrest] at h
          exact ⟨c.name, others, ⟨c, hc, rfl⟩, ih.mp hrest, (Except.ok.inj h).symm⟩
      · rintro ⟨_, others, ⟨d, hd, rfl⟩, hothers, rfl⟩
        rw [ih.mpr hothers, Option.some.inj (hc.1.symm.trans hd.1)]
        rfl
    · rw [he.disabledNames_cons]
      refine iff_of_false (fun h => by cases h) ?_
      rintro ⟨_, _, ⟨d, hd, _⟩, _⟩
      exact he.not_disables hd

/-- The attempt ends at the first key that there is something to say against, with that. -/
theorem disabledNames_eq_error_iff : r.disabledNames keys = .error e ↔
    ∃ before key after, keys = before ++ key :: after ∧
      (∀ k ∈ before, ∃ c, r.Disables k c) ∧ r.Refuses key e := by
  constructor
  · intro h
    induction keys with
    | nil => cases h
    | cons key rest ih =>
      rcases r.disables_or_refuses key with ⟨c, hc⟩ | ⟨e', he⟩
      · rw [hc.disabledNames_cons] at h
        cases hrest : r.disabledNames rest with
        | ok others => rw [hrest] at h; cases h
        | error e' =>
          rw [hrest] at h
          obtain rfl := Except.error.inj h
          obtain ⟨before, k, after, rfl, hbefore, hk⟩ := ih hrest
          exact ⟨key :: before, k, after, rfl, List.forall_mem_cons.mpr ⟨⟨c, hc⟩, hbefore⟩, hk⟩
      · rw [he.disabledNames_cons] at h
        obtain rfl := Except.error.inj h
        exact ⟨[], key, rest, rfl, nofun, he⟩
  · rintro ⟨before, key, after, rfl, hbefore, hkey⟩
    induction before with
    | nil => exact hkey.disabledNames_cons after
    | cons k before ih =>
      obtain ⟨⟨c, hc⟩, hbefore⟩ := List.forall_mem_cons.mp hbefore
      rw [List.cons_append, hc.disabledNames_cons, ih hbefore]
      rfl

theorem exists_disabledNames_iff :
    (∃ names, r.disabledNames keys = .ok names) ↔ ∀ key ∈ keys, ∃ c, r.Disables key c := by
  constructor
  · rintro ⟨names, hnames⟩ key hkey
    obtain ⟨_, _, c, hc, _⟩ := Lists.exists_of_mem_left (disabledNames_eq_ok_iff.mp hnames) hkey
    exact ⟨c, hc⟩
  · intro hall
    cases hnames : r.disabledNames keys with
    | ok names => exact ⟨names, rfl⟩
    | error e =>
      obtain ⟨before, key, after, rfl, _, hkey⟩ := disabledNames_eq_error_iff.mp hnames
      obtain ⟨c, hc⟩ := hall key (List.mem_append_right before List.mem_cons_self)
      exact absurd hc hkey.not_disables

/-! ## What is left -/

theorem active_eq_error_iff : r.active keys = .error e ↔ r.disabledNames keys = .error e := by
  rw [active]
  cases r.disabledNames keys with
  | error e' => simp [Except.map]
  | ok names => simp [Except.map]

theorem exists_active_iff :
    (∃ cs, r.active keys = .ok cs) ↔ ∀ key ∈ keys, ∃ c, r.Disables key c := by
  rw [← exists_disabledNames_iff, active]
  cases r.disabledNames keys with
  | error e => simp [Except.map]
  | ok names => simp [Except.map]

/-- The checks that none of some keys leads to. -/
def unreached (r : Registry) (keys : List String) : List Check :=
  r.checks.filter fun c => decide (∀ key ∈ keys, r.get? key ≠ some c)

theorem mem_unreached :
    c ∈ r.unreached keys ↔ c ∈ r.checks ∧ ∀ key ∈ keys, r.get? key ≠ some c := by
  rw [unreached, List.mem_filter, decide_eq_true_iff]

/-- The names collected on the way are those of the checks that the keys lead to. -/
theorem Built.mem_names_iff (h : r.Built) (hnames : r.disabledNames keys = .ok names)
    (hc : c ∈ r.checks) : c.name ∈ names ↔ ∃ key ∈ keys, r.get? key = some c := by
  have hstep := disabledNames_eq_ok_iff.mp hnames
  constructor
  · intro hname
    obtain ⟨key, hkey, d, ⟨hget, _⟩, heq⟩ := Lists.exists_of_mem_right hstep hname
    -- the name belongs to one check only
    have hd : d ∈ r.checks := (h.get?_eq_some_iff.mp hget).1
    obtain rfl : d = c := List.inj_on_of_nodup_map h.nodup_names hd hc heq
    exact ⟨key, hkey, hget⟩
  · rintro ⟨key, hkey, hget⟩
    obtain ⟨name, hname, d, ⟨hget', _⟩, rfl⟩ := Lists.exists_of_mem_left hstep hkey
    rw [Option.some.inj (hget.symm.trans hget')]
    exact hname

/-- **What turning checks off leaves.**  It goes through if each key leads to a check that may be
turned off, and leaves the checks that no key leads to. -/
theorem Built.active_eq_ok_iff (h : r.Built) : r.active keys = .ok cs ↔
    (∀ key ∈ keys, ∃ c, r.Disables key c) ∧ cs = r.unreached keys := by
  rw [← exists_disabledNames_iff, active]
  cases hnames : r.disabledNames keys with
  | error e => simp [Except.map]
  | ok names =>
    have hkept : (r.checks.filter fun c => !names.contains c.name) = r.unreached keys := by
      refine List.filter_congr fun c hc => ?_
      rw [Bool.eq_iff_iff, Bool.not_eq_true', decide_eq_true_iff, ← Bool.not_eq_true,
        List.contains_iff_mem, h.mem_names_iff hnames hc]
      simp only [ne_eq, not_exists, not_and]
    show Except.ok (r.checks.filter fun c => !names.contains c.name) = .ok cs ↔ _
    rw [hkept, Except.ok.injEq]
    constructor
    · intro heq
      exact ⟨⟨names, rfl⟩, heq.symm⟩
    · rintro ⟨_, heq⟩
      exact heq.symm

/-- Keys that lead to the same, in any order and spelling and however often, leave the same. -/
theorem Built.active_congr (h : r.Built)
    (hsame : ∀ found, (∃ key ∈ keys, r.get? key = found) ↔ ∃ key ∈ keys', r.get? key = found) :
    r.active keys = .ok cs ↔ r.active keys' = .ok cs := by
  have hall (P : Option Check → Prop) (ks : List String) :
      (∀ key ∈ ks, P (r.get? key)) ↔ ∀ found, (∃ key ∈ ks, r.get? key = found) → P found := by
    constructor
    · rintro hks _ ⟨key, hkey, rfl⟩
      exact hks key hkey
    · intro hfound key hkey
      exact hfound _ ⟨key, hkey, rfl⟩
  have hswap (P : Option Check → Prop) :
      (∀ key ∈ keys, P (r.get? key)) ↔ ∀ key ∈ keys', P (r.get? key) := by
    rw [hall, hall]
    exact forall_congr' fun found => imp_congr_left (hsame found)
  have hleft : r.unreached keys = r.unreached keys' := by
    refine List.filter_congr fun c _ => decide_eq_decide.mpr ?_
    exact hswap (· ≠ some c)
  rw [h.active_eq_ok_iff, h.active_eq_ok_iff, hleft]
  refine and_congr_left fun _ => ?_
  exact hswap fun found => ∃ c, found = some c ∧ c.suppressibility = .suppressWarnings

theorem unreached_append (ks ls : List String) :
    r.unreached (ks ++ ls) = (r.unreached ks).filter (· ∈ r.unreached ls) := by
  show r.checks.filter _ = (r.checks.filter _).filter _
  rw [List.filter_filter]
  refine List.filter_congr fun c hc => ?_
  rw [Bool.eq_iff_iff, Bool.and_eq_true, decide_eq_true_iff, decide_eq_true_iff,
    decide_eq_true_iff, mem_unreached, List.forall_mem_append, and_comm]
  exact and_congr_left fun _ => ⟨fun hls => ⟨hc, hls⟩, fun hls => hls.2⟩

/-- Turning off some keys and others leaves what is left both times. -/
theorem Built.active_append (h : r.Built) (has : r.active ks = .ok as) (hbs : r.active ls = .ok bs) :
    r.active (ks ++ ls) = .ok (as.filter (· ∈ bs)) := by
  obtain ⟨hks, rfl⟩ := h.active_eq_ok_iff.mp has
  obtain ⟨hls, rfl⟩ := h.active_eq_ok_iff.mp hbs
  rw [h.active_eq_ok_iff, unreached_append]
  exact ⟨List.forall_mem_append.mpr ⟨hks, hls⟩, rfl⟩

/-- How a registry turns checks off. -/
structure DisablesExactly (r : Registry) : Prop where
  /-- It goes through if every key leads to a check that ordinary suppression reaches. -/
  succeeds_iff : ∀ keys, (∃ cs, r.active keys = .ok cs) ↔ ∀ key ∈ keys, ∃ c, r.Disables key c
  /-- What is left are the checks that no key leads to, in the order of registration. -/
  leaves : ∀ keys cs, r.active keys = .ok cs → cs = r.unreached keys
  /-- Order, repetition and the choice between the names of a check play no part. -/
  blind : ∀ keys keys', (∀ found, (∃ key ∈ keys, r.get? key = found) ↔
      ∃ key ∈ keys', r.get? key = found) →
    ∀ cs, r.active keys = .ok cs ↔ r.active keys' = .ok cs
  append_succeeds_iff : ∀ ks ls, (∃ cs, r.active (ks ++ ls) = .ok cs) ↔
    (∃ as, r.active ks = .ok as) ∧ ∃ bs, r.active ls = .ok bs
  append : ∀ ks ls as bs, r.active ks = .ok as → r.active ls = .ok bs →
    r.active (ks ++ ls) = .ok (as.filter (· ∈ bs))
  /-- An error is about the first key that leads to no check or to one that is locked. -/
  fails_iff : ∀ keys e, r.active keys = .error e ↔
    ∃ before key after, keys = before ++ key :: after ∧
      (∀ k ∈ before, ∃ c, r.Disables k c) ∧ r.Refuses key e
  /-- A locked check is never left out. -/
  protects : ∀ keys cs, r.active keys = .ok cs →
    ∀ c ∈ r.checks, c.suppressibility ≠ .suppressWarnings → c ∈ cs

/-- **Turning checks off is exact and never removes a locked check**, whichever way the registry
was built. -/
theorem disabling_exact (h : r.Built) : r.DisablesExactly where
  succeeds_iff := fun _ => exists_active_iff
  leaves := fun _ _ hcs => (h.active_eq_ok_iff.mp hcs).2
  blind := fun _ _ hsame _ => h.active_congr hsame
  append_succeeds_iff := by
    intro ks ls
    rw [exists_active_iff, exists_active_iff, exists_active_iff, List.forall_mem_append]
  append := fun _ _ _ _ has hbs => h.active_append has hbs
  fails_iff := by
    intro keys e
    rw [active_eq_error_iff, disabledNames_eq_error_iff]
  protects := by
    intro keys cs hcs c hc hkind
    obtain ⟨hall, rfl⟩ := h.active_eq_ok_iff.mp hcs
    refine mem_unreached.mpr ⟨hc, fun key hkey hget => ?_⟩
    obtain ⟨d, hd, hdisableable⟩ := hall key hkey
    exact hkind (Option.some.inj (hd.symm.trans hget) ▸ hdisableable)

/-- A check that nothing suppresses. -/
def locked (name : String) : Check :=
  { name, summary := "Dereferences nothing", severity := .error, suppressibility := .unsuppressible }

/-- Two checks that may be turned off and one that may not.  The keys name the first two, one of
them twice; with the third among them, a key after it that leads nowhere is not reported. -/
theorem disabling_exact_of_three :
    (ofList [aliased "Unused" "unused", locked "Null", aliased "Dead" "dead"]).Built ∧
    (ofList [aliased "Unused" "unused", locked "Null", aliased "Dead" "dead"]).active
      ["dead", "Unused", "Dead"] = .ok [locked "Null"] ∧
    (ofList [aliased "Unused" "unused", locked "Null", aliased "Dead" "dead"]).active
      ["dead", "Null", "Nope"] = .error (.locked "Null" .unsuppressible) := by
  have hok : ofChecks [aliased "Unused" "unused", locked "Null", aliased "Dead" "dead"] false =
      .ok (ofList [aliased "Unused" "unused", locked "Null", aliased "Dead" "dead"]) := rfl
  have hexact := disabling_exact (.ofChecks hok)
  have hdisables : ∀ key ∈ ["dead", "Unused", "Dead"], ∃ c, Disables
      (ofList [aliased "Unused" "unused", locked "Null", aliased "Dead" "dead"]) key c := by
    simp only [List.forall_mem_cons, List.not_mem_nil, false_implies, implies_true, and_true]
    exact ⟨⟨_, rfl, rfl⟩, ⟨_, rfl, rfl⟩, ⟨_, rfl, rfl⟩⟩
  obtain ⟨cs, hcs⟩ := (hexact.succeeds_iff _).mpr hdisables
  have hleft := hexact.leaves _ cs hcs
  refine ⟨.ofChecks hok, hcs.trans (congrArg Except.ok (hleft.trans (by decide))), ?_⟩
  rw [hexact.fails_iff]
  refine ⟨["dead"], "Null", ["Nope"], rfl, ?_, .locked (c := locked "Null") rfl (by decide)⟩
  rw [List.forall_mem_singleton]
  exact ⟨aliased "Dead" "dead", rfl, rfl⟩

end Registry

end CheckRegistry
