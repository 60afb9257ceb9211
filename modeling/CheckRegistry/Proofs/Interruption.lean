import CheckRegistry.Proofs.Catalog

/-! # Where a documentation pass breaks off

A page that cannot be made is a failure of its check, and the pass goes on.  A page that cannot be
written is none: its error leaves the pass, with what was written before still there and nothing
after it, not even the index (`generate_eq_error_iff`, `BreaksOff.exists_gone`).

So a pass deals with each check as it should (`Settled`) exactly if nothing that it comes to write
is refused (`settled_iff_accepts`).  Here the pages may depend on each other, as examples may be
read from the directory that pages go into.  The page of a check is therefore the one that it has
when the pass comes to it (`ComesTo`).  Which files the directory accepts never changes on the way,
so a refusal can be told from the directory at the beginning.
-/

namespace CheckRegistry.Catalog

variable {provider : Option Provider} {site : String} {cwd : Place} {out : Path}
  {t made : FileTree} {checks done : List Check} {c d : Check} {text : String}
  {pages : List (Check × String)} {pass pass' before before' last : Pass} {e : FileError}

/-! ## Steps in a row -/

/-- Steps in a row break off at the first that fails, after a beginning that went through. -/
theorem foldlM_eq_error_iff {α β ε : Type} {step : β → α → Except ε β} {l : List α} {b : β}
    {e : ε} : l.foldlM step b = .error e ↔ ∃ done a rest mid, l = done ++ a :: rest ∧
      done.foldlM step b = .ok mid ∧ step mid a = .error e := by
  constructor
  · intro h
    induction l generalizing b with
    | nil => cases h
    | cons a l ih =>
      rw [List.foldlM_cons] at h
      cases hstep : step b a with
      | error e' =>
        rw [hstep] at h
        exact ⟨[], a, l, b, rfl, rfl, hstep.trans h⟩
      | ok next =>
        rw [hstep] at h
        obtain ⟨done, c, rest, mid, rfl, hdone, hc⟩ := ih h
        refine ⟨a :: done, c, rest, mid, rfl, ?_, hc⟩
        rw [List.foldlM_cons, hstep]
        exact hdone
  · rintro ⟨done, a, rest, mid, rfl, hdone, ha⟩
    rw [List.foldlM_append, hdone]
    show (a :: rest).foldlM step mid = .error e
    rw [List.foldlM_cons, ha]
    rfl

/-- Steps in a row go through if those up to one of them do, that one, and those after it. -/
theorem foldlM_append_cons_eq_ok_iff {α β ε : Type} {step : β → α → Except ε β}
    {done rest : List α} {a : α} {b last : β} : (done ++ a :: rest).foldlM step b = .ok last ↔
      ∃ mid next, done.foldlM step b = .ok mid ∧ step mid a = .ok next ∧
        rest.foldlM step next = .ok last := by
  rw [List.foldlM_append]
  cases done.foldlM step b with
  | error e => simp [bind, Except.bind]
  | ok mid =>
    show (a :: rest).foldlM step mid = .ok last ↔ _
    rw [List.foldlM_cons]
    cases hstep : step mid a with
    | error e => simp [hstep, bind, Except.bind]
    | ok next => simp [hstep, bind, Except.bind]

/-! ## One check after the other -/

/-- A pass over some checks, in a directory that has been made, comes to one of them in this
state: the checks before it went through. -/
def ComesTo (provider : Option Provider) (site : String) (cwd : Place) (out : Path)
    (made : FileTree) (checks : List Check) (c : Check) (before : Pass) : Prop :=
  ∃ done rest, checks = done ++ c :: rest ∧
    done.foldlM (step provider site cwd out) ⟨made, [], [], [], []⟩ = .ok before

theorem comesTo_concat_iff
    (hrun : done.foldlM (step provider site cwd out) ⟨made, [], [], [], []⟩ = .ok pass) :
    ComesTo provider site cwd out made (done ++ [c]) d before ↔
      ComesTo provider site cwd out made done d before ∨ d = c ∧ before = pass := by
  constructor
  · rintro ⟨early, late, heq, hearly⟩
    rcases List.eq_nil_or_concat late with rfl | ⟨late, x, rfl⟩
    · obtain ⟨rfl, hlast⟩ := List.append_inj' heq rfl
      exact Or.inr ⟨(List.singleton_inj.mp hlast).symm, Except.ok.inj (hearly.symm.trans hrun)⟩
    · rw [List.concat_eq_append, ← List.cons_append, ← List.append_assoc] at heq
      exact Or.inl ⟨early, late, (List.append_inj' heq rfl).1, hearly⟩
  · rintro (⟨early, late, rfl, hearly⟩ | ⟨rfl, rfl⟩)
    · exact ⟨early, late ++ [c], by rw [List.append_assoc, List.cons_append], hearly⟩
    · exact ⟨done, [], rfl, hrun⟩

/-- A pass that goes through comes to each of its checks. -/
theorem exists_comesTo
    (hrun : checks.foldlM (step provider site cwd out) ⟨made, [], [], [], []⟩ = .ok last)
    (hc : c ∈ checks) : ∃ before, ComesTo provider site cwd out made checks c before := by
  obtain ⟨done, rest, rfl⟩ := List.append_of_mem hc
  obtain ⟨before, _, hbefore, _⟩ := foldlM_append_cons_eq_ok_iff.mp hrun
  exact ⟨before, done, rest, rfl, hbefore⟩

/-- It comes to each only once. -/
theorem ComesTo.eq (h : ComesTo provider site cwd out made checks c before)
    (h' : ComesTo provider site cwd out made checks c before') (hnodup : checks.Nodup) :
    before = before' := by
  obtain ⟨done, rest, rfl, hbefore⟩ := h
  obtain ⟨done', rest', heq, hbefore'⟩ := h'
  have hnew : c ∉ done ++ rest := (List.nodup_middle.mp hnodup).notMem
  rw [List.mem_append, not_or] at hnew
  obtain ⟨rfl, _, _⟩ := (List.append_cons_inj_of_notMem hnew.1 hnew.2).mp heq
  exact Except.ok.inj (hbefore.symm.trans hbefore')

/-- What a pass has done when it has gone through some checks: each page that could be made when
its check came up has been written, and the other checks have failed. -/
structure Gone (provider : Option Provider) (site : String) (cwd : Place) (out : Path)
    (made : FileTree) (done : List Check) (pages : List (Check × String)) (pass : Pass) : Prop
    extends Wrote cwd out made pages pass where
  order : (pages.map Prod.fst).Sublist done
  page : ∀ c text, (c, text) ∈ pages ↔
    ∃ before, ComesTo provider site cwd out made done c before ∧
      pageText provider site cwd before.tree c = .ok text
  failed : ∀ name, name ∈ pass.failed.map Prod.fst ↔
    ∃ c before, ComesTo provider site cwd out made done c before ∧ c.name = name ∧
      ∃ e, pageText provider site cwd before.tree c = .error e

theorem gone_nil : Gone provider site cwd out made [] [] ⟨made, [], [], [], []⟩ where
  toWrote := wrote_nil
  order := .slnil
  page := by simp [ComesTo]
  failed := by simp [ComesTo]

theorem Gone.reported {e : PageError} (h : Gone provider site cwd out made done pages pass)
    (hrun : done.foldlM (Catalog.step provider site cwd out) ⟨made, [], [], [], []⟩ = .ok pass)
    (hpage : pageText provider site cwd pass.tree c = .error e) (reason : String)
    (log : List LogEntry) :
    Gone provider site cwd out made (done ++ [c]) pages
      (pass.withFailure c.name reason log) := by
  refine ⟨⟨h.tree, h.written, h.rows, h.accepts⟩, h.order.trans (List.sublist_append_left _ _),
    ?_, ?_⟩
  · intro d text
    rw [h.page]
    constructor
    · rintro ⟨before, hcomes, htext⟩
      exact ⟨before, (comesTo_concat_iff hrun).mpr (Or.inl hcomes), htext⟩
    · rintro ⟨before, hcomes, htext⟩
      rcases (comesTo_concat_iff hrun).mp hcomes with hcomes | ⟨rfl, rfl⟩
      · exact ⟨before, hcomes, htext⟩
      · cases hpage.symm.trans htext
  · intro name
    rw [Pass.withFailure, mem_map_fst_setFailed, h.failed]
    constructor
    · rintro (rfl | ⟨d, before, hcomes, hfail⟩)
      · exact ⟨c, pass, (comesTo_concat_iff hrun).mpr (Or.inr ⟨rfl, rfl⟩), rfl, e, hpage⟩
      · exact ⟨d, before, (comesTo_concat_iff hrun).mpr (Or.inl hcomes), hfail⟩
    · rintro ⟨d, before, hcomes, hname, hfail⟩
      rcases (comesTo_concat_iff hrun).mp hcomes with hcomes | ⟨rfl, rfl⟩
      · exact Or.inr ⟨d, before, hcomes, hname, hfail⟩
      · exact Or.inl hname.symm

theorem Gone.wrote (h : Gone provider site cwd out made done pages pass)
    (hrun : done.foldlM (Catalog.step provider site cwd out) ⟨made, [], [], [], []⟩ = .ok pass)
    (hpage : pageText provider site cwd pass.tree c = .ok text)
    (haccepts : made.Accepts cwd out (fileName c.name)) (log : List LogEntry) :
    Gone provider site cwd out made (done ++ [c]) (pages ++ [(c, text)])
      (pass.withPage (out.resolve cwd) c text log) := by
  refine ⟨h.toWrote.concat haccepts text log, ?_, ?_, ?_⟩
  · rw [List.map_append]
    exact h.order.append (.refl _)
  · intro d text'
    rw [List.mem_append, List.mem_singleton, h.page]
    constructor
    · rintro (⟨before, hcomes, htext⟩ | heq)
      · exact ⟨before, (comesTo_concat_iff hrun).mpr (Or.inl hcomes), htext⟩
      · obtain ⟨rfl, rfl⟩ := Prod.mk.inj heq
        exact ⟨pass, (comesTo_concat_iff hrun).mpr (Or.inr ⟨rfl, rfl⟩), hpage⟩
    · rintro ⟨before, hcomes, htext⟩
      rcases (comesTo_concat_iff hrun).mp hcomes with hcomes | ⟨rfl, rfl⟩
      · exact Or.inl ⟨before, hcomes, htext⟩
      · exact Or.inr (Except.ok.inj (htext.symm.trans hpage) ▸ rfl)
  · intro name
    rw [Pass.withPage, h.failed]
    constructor
    · rintro ⟨d, before, hcomes, hfail⟩
      exact ⟨d, before, (comesTo_concat_iff hrun).mpr (Or.inl hcomes), hfail⟩
    · rintro ⟨d, before, hcomes, hname, e, hfail⟩
      rcases (comesTo_concat_iff hrun).mp hcomes with hcomes | ⟨rfl, rfl⟩
      · exact ⟨d, before, hcomes, hname, e, hfail⟩
      · cases hfail.symm.trans hpage

theorem Gone.step (h : Gone provider site cwd out made done pages pass)
    (hrun : done.foldlM (Catalog.step provider site cwd out) ⟨made, [], [], [], []⟩ = .ok pass)
    (hs : Catalog.step provider site cwd out pass c = .ok pass') :
    ∃ pages', Gone provider site cwd out made (done ++ [c]) pages' pass' := by
  rcases h.toWrote.step_cases hs with ⟨e, reason, log, hpage, rfl⟩ |
    ⟨text, log, hpage, haccepts, rfl⟩
  · exact ⟨_, h.reported hrun hpage reason log⟩
  · exact ⟨_, h.wrote hrun hpage haccepts log⟩

/-- A pass that has gone through some checks has written pages of them. -/
theorem exists_gone
    (hrun : done.foldlM (step provider site cwd out) ⟨made, [], [], [], []⟩ = .ok pass) :
    ∃ pages, Gone provider site cwd out made done pages pass := by
  induction done using List.reverseRecOn generalizing pass with
  | nil =>
    cases hrun
    exact ⟨[], gone_nil⟩
  | append_singleton done c ih =>
    obtain ⟨before, next, hdone, hstep, hnext⟩ := foldlM_append_cons_eq_ok_iff.mp hrun
    obtain rfl := Except.ok.inj hnext
    obtain ⟨pages, hgone⟩ := ih hdone
    exact hgone.step hdone hstep

/-! ## Breaking off -/

theorem step_eq_error_iff : step provider site cwd out pass c = .error (e, pass') ↔
    pass' = pass ∧ ∃ text, pageText provider site cwd pass.tree c = .ok text ∧
      pass.tree.write cwd (out.child (fileName c.name)) (Utf8.encode text) = .error e := by
  rw [step]
  cases hpage : pageText provider site cwd pass.tree c with
  | error fault => simp
  | ok text =>
    cases hwrite : pass.tree.write cwd (out.child (fileName c.name)) (Utf8.encode text) with
    | error refusal => simp [hwrite, eq_comm, and_comm]
    | ok tree => simp [hwrite]

theorem finish_eq_error_iff : finish cwd out pass = .error (e, pass') ↔
    pass' = pass ∧ pass.tree.write cwd (out.child indexFile)
      (Utf8.encode (indexText pass.rows)) = .error e := by
  rw [finish]
  cases pass.tree.write cwd (out.child indexFile) (Utf8.encode (indexText pass.rows)) with
  | error refusal => simp [eq_comm, and_comm]
  | ok tree => simp

/-- A page that cannot be written is the end of the steps. -/
theorem ComesTo.foldlM_eq_error (h : ComesTo provider site cwd out made checks c pass)
    (hpage : pageText provider site cwd pass.tree c = .ok text)
    (hwrite : pass.tree.write cwd (out.child (fileName c.name)) (Utf8.encode text) = .error e) :
    checks.foldlM (step provider site cwd out) ⟨made, [], [], [], []⟩ = .error (e, pass) := by
  obtain ⟨done, rest, hsplit, hdone⟩ := h
  have hstep := step_eq_error_iff.mpr ⟨rfl, text, hpage, hwrite⟩
  exact foldlM_eq_error_iff.mpr ⟨done, c, rest, pass, hsplit, hdone, hstep⟩

/-- A pass over some checks, in a directory that has been made, is left by this error in this
state. -/
inductive BreaksOff (provider : Option Provider) (site : String) (cwd : Place) (out : Path)
    (made : FileTree) (checks : List Check) (e : FileError) (pass : Pass) : Prop
  | page {c : Check} {text : String}
      (comes : ComesTo provider site cwd out made checks c pass)
      (rendered : pageText provider site cwd pass.tree c = .ok text)
      (refused : pass.tree.write cwd (out.child (fileName c.name)) (Utf8.encode text) = .error e)
  | index
      (through : checks.foldlM (step provider site cwd out) ⟨made, [], [], [], []⟩ = .ok pass)
      (refused : pass.tree.write cwd (out.child indexFile)
        (Utf8.encode (indexText pass.rows)) = .error e)

theorem breaksOff_iff (hmade : t.makeDirectories cwd out = .ok made) :
    generate checks provider site t cwd out = .error (e, pass) ↔
      BreaksOff provider site cwd out made (Check.sortByName checks) e pass := by
  cases hrun : (Check.sortByName checks).foldlM (step provider site cwd out)
    ⟨made, [], [], [], []⟩ with
  | error fault =>
    rw [generate_of_foldlM_error hmade hrun]
    constructor
    · intro h
      cases h
      obtain ⟨done, c, rest, mid, hsplit, hdone, hstep⟩ := foldlM_eq_error_iff.mp hrun
      obtain ⟨rfl, text, hpage, hwrite⟩ := step_eq_error_iff.mp hstep
      exact .page ⟨done, rest, hsplit, hdone⟩ hpage hwrite
    · rintro (⟨hcomes, hpage, hwrite⟩ | ⟨hthrough, _⟩)
      · exact hrun.symm.trans (hcomes.foldlM_eq_error hpage hwrite)
      · cases hrun.symm.trans hthrough
  | ok last =>
    rw [generate_of_foldlM_ok hmade hrun]
    constructor
    · intro h
      obtain ⟨rfl, hwrite⟩ := finish_eq_error_iff.mp h
      exact .index hrun hwrite
    · rintro (⟨hcomes, hpage, hwrite⟩ | ⟨hthrough, hwrite⟩)
      · cases hrun.symm.trans (hcomes.foldlM_eq_error hpage hwrite)
      · obtain rfl := Except.ok.inj (hrun.symm.trans hthrough)
        exact finish_eq_error_iff.mpr ⟨rfl, hwrite⟩

/-- A pass is left by an error exactly if the directory cannot be made, or if a page, at its turn,
or the index cannot be written.  What was done before stays. -/
theorem generate_eq_error_iff : generate checks provider site t cwd out = .error (e, pass) ↔
    (t.makeDirectories cwd out = .error e ∧ pass = ⟨t, [], [], [], []⟩) ∨
    ∃ made, t.makeDirectories cwd out = .ok made ∧
      BreaksOff provider site cwd out made (Check.sortByName checks) e pass := by
  cases hmade : t.makeDirectories cwd out with
  | error refusal =>
    rw [generate, hmade]
    simp [eq_comm]
  | ok made => simp [breaksOff_iff hmade]

/-- What a pass that breaks off leaves behind: pages of the checks that came up before.  There is
no index of them. -/
theorem BreaksOff.exists_gone
    (h : BreaksOff provider site cwd out made checks e pass) :
    ∃ done pages, done <+: checks ∧ Gone provider site cwd out made done pages pass := by
  cases h with
  | page hcomes _ _ =>
    obtain ⟨done, rest, rfl, hdone⟩ := hcomes
    obtain ⟨pages, hgone⟩ := Catalog.exists_gone hdone
    exact ⟨done, pages, List.prefix_append _ _, hgone⟩
  | index hthrough _ =>
    obtain ⟨pages, hgone⟩ := Catalog.exists_gone hthrough
    exact ⟨checks, pages, List.prefix_refl _, hgone⟩

/-! ## Dealing with every check -/

/-- A pass has dealt with every check: it has written the pages that could be made and written, in
the order of names, then the index of just these, and the other checks have failed. -/
structure Settled (provider : Option Provider) (site : String) (cwd : Place) (out : Path)
    (made : FileTree) (checks : List Check) (pages : List (Check × String)) (pass : Pass) :
    Prop where
  order : (pages.map Prod.fst).Sublist (Check.sortByName checks)
  page : ∀ c text, (c, text) ∈ pages ↔
    ∃ before, ComesTo provider site cwd out made (Check.sortByName checks) c before ∧
      pageText provider site cwd before.tree c = .ok text ∧
      made.Accepts cwd out (fileName c.name)
  failed : ∀ c ∈ checks, c.name ∈ pass.failed.map Prod.fst ↔ c ∉ pages.map Prod.fst
  written : pass.written = pages.map (fun p => fileName p.1.name) ++ [indexFile]
  tree : pass.tree = withFiles made cwd out
    (pages.map (fun p => (fileName p.1.name, p.2)) ++
      [(indexFile, indexText (pages.map fun p => indexRow p.1))])
  index : HasIndex cwd out (pages.map Prod.fst) pass.tree

/-- A pass goes through exactly if the directory accepts each page that it comes to. -/
theorem exists_foldlM_iff :
    (∃ last, checks.foldlM (step provider site cwd out) ⟨made, [], [], [], []⟩ = .ok last) ↔
      ∀ c before text, ComesTo provider site cwd out made checks c before →
        pageText provider site cwd before.tree c = .ok text →
        made.Accepts cwd out (fileName c.name) := by
  constructor
  · rintro ⟨last, hrun⟩ c before text ⟨done, rest, rfl, hdone⟩ hpage
    obtain ⟨mid, next, hmid, hstep, _⟩ := foldlM_append_cons_eq_ok_iff.mp hrun
    obtain rfl := Except.ok.inj (hdone.symm.trans hmid)
    obtain ⟨pages, hgone⟩ := exists_gone hdone
    exact hgone.toWrote.step_iff.mp ⟨next, hstep⟩ text hpage
  · intro haccepts
    cases hrun : checks.foldlM (step provider site cwd out) ⟨made, [], [], [], []⟩ with
    | ok last => exact ⟨last, rfl⟩
    | error fault =>
      obtain ⟨done, c, rest, mid, hsplit, hdone, hstep⟩ := foldlM_eq_error_iff.mp hrun
      obtain ⟨pages, hgone⟩ := exists_gone hdone
      obtain ⟨next, hok⟩ := hgone.toWrote.step_iff.mpr fun text hpage =>
        haccepts c mid text ⟨done, rest, hsplit, hdone⟩ hpage
      cases hstep.symm.trans hok

/-- Under distinct names, what has failed when a pass has gone through is what has no page. -/
theorem Gone.failed_iff (h : Gone provider site cwd out made checks pages pass)
    (hnames : (checks.map Check.name).Nodup)
    (hrun : checks.foldlM (Catalog.step provider site cwd out) ⟨made, [], [], [], []⟩ = .ok pass)
    (hc : c ∈ checks) : c.name ∈ pass.failed.map Prod.fst ↔ c ∉ pages.map Prod.fst := by
  rw [h.failed]
  constructor
  · rintro ⟨d, before, hcomes, hname, e, hfail⟩ hmem
    obtain ⟨⟨_, text⟩, hpage, rfl⟩ := List.mem_map.mp hmem
    obtain ⟨before', hcomes', htext⟩ := (h.page _ _).mp hpage
    -- names are distinct, so this is the same check, which came up once
    have hd : d ∈ checks := by
      obtain ⟨done, rest, hsplit, _⟩ := hcomes
      exact hsplit ▸ List.mem_append_right _ List.mem_cons_self
    obtain rfl := List.inj_on_of_nodup_map hnames hd hc hname
    obtain rfl := hcomes.eq hcomes' hnames.of_map
    cases hfail.symm.trans htext
  · intro hnone
    obtain ⟨before, hcomes⟩ := exists_comesTo hrun hc
    cases hpage : pageText provider site cwd before.tree c with
    | error e => exact ⟨c, before, hcomes, rfl, e, hpage⟩
    | ok text =>
      exact absurd (List.mem_map_of_mem ((h.page c text).mpr ⟨before, hcomes, hpage⟩)) hnone

/-- A pass that ends well has dealt with every check. -/
theorem settled_of_generate (hnames : (checks.map Check.name).Nodup)
    (hmade : t.makeDirectories cwd out = .ok made)
    (hpass : generate checks provider site t cwd out = .ok pass) :
    ∃ pages, Settled provider site cwd out made checks pages pass := by
  obtain ⟨made', before, hmade', hrun, hfinish⟩ := generate_eq_ok_iff.mp hpass
  obtain rfl := Except.ok.inj (hmade.symm.trans hmade')
  obtain ⟨pages, hgone⟩ := exists_gone hrun
  obtain ⟨_, log, rfl⟩ := hgone.toWrote.finish_cases hfinish
  refine ⟨pages, hgone.order, ?_, ?_, ?_, hgone.toWrote.put_index,
    hgone.toWrote.put_index ▸ hasIndex_withFiles pages⟩
  · intro c text
    rw [hgone.page]
    constructor
    · rintro ⟨state, hcomes, hpage⟩
      exact ⟨state, hcomes, hpage, exists_foldlM_iff.mp ⟨before, hrun⟩ c state text hcomes hpage⟩
    · rintro ⟨state, hcomes, hpage, _⟩
      exact ⟨state, hcomes, hpage⟩
  · intro c hc
    exact hgone.failed_iff (nodup_names_sortByName hnames) hrun
      ((sortByName_perm checks).mem_iff.mpr hc)
  · rw [hgone.written]

/-- **When a pass deals with every check.**  The output directory can be made, and accepts each
page that can be made when its check comes up, and the index.  Any refusal is the end of the
pass. -/
theorem settled_iff_accepts (hnames : (checks.map Check.name).Nodup) :
    (∃ made pages pass, t.makeDirectories cwd out = .ok made ∧
      generate checks provider site t cwd out = .ok pass ∧
      Settled provider site cwd out made checks pages pass) ↔
    ∃ made, t.makeDirectories cwd out = .ok made ∧
      (∀ c before text,
        ComesTo provider site cwd out made (Check.sortByName checks) c before →
        pageText provider site cwd before.tree c = .ok text →
        made.Accepts cwd out (fileName c.name)) ∧
      made.Accepts cwd out indexFile := by
  constructor
  · rintro ⟨_, _, pass, _, hpass, _⟩
    obtain ⟨made, before, hmade, hrun, hfinish⟩ := generate_eq_ok_iff.mp hpass
    obtain ⟨pages, hgone⟩ := exists_gone hrun
    exact ⟨made, hmade, exists_foldlM_iff.mp ⟨before, hrun⟩,
      hgone.toWrote.finish_iff.mp ⟨pass, hfinish⟩⟩
  · rintro ⟨made, hmade, hpages, hindex⟩
    obtain ⟨before, hrun⟩ := exists_foldlM_iff.mpr hpages
    obtain ⟨_, hgone⟩ := exists_gone hrun
    obtain ⟨pass, hfinish⟩ := hgone.toWrote.finish_iff.mpr hindex
    have hpass := generate_eq_ok_iff.mpr ⟨made, before, hmade, hrun, hfinish⟩
    obtain ⟨pages, hsettled⟩ := settled_of_generate hnames hmade hpass
    exact ⟨made, pages, pass, hmade, hpass, hsettled⟩

theorem settled_of_dash_slash :
    ([unlinked "A-B", unlinked "A/B"].map Check.name).Nodup ∧
      ∃ made pages pass, FileTree.empty.makeDirectories [] (.ofText "site") = .ok made ∧
        generate [unlinked "A-B", unlinked "A/B"] none Link.defaultSite .empty []
          (.ofText "site") = .ok pass ∧
        Settled none Link.defaultSite [] (.ofText "site") made
          [unlinked "A-B", unlinked "A/B"] pages pass := by
  have hnames : ([unlinked "A-B", unlinked "A/B"].map Check.name).Nodup := by decide
  have hfile : ∀ c ∈ [unlinked "A-B", unlinked "A/B"],
      fileName c.name ∈ ["A-B.md", "A_B.md", "A.md", "B.md", "index.md"] := by decide
  refine ⟨hnames, (settled_iff_accepts hnames).mpr ⟨_, makeDirectories_site, ?_, ?_⟩⟩
  · rintro c before text ⟨done, rest, hsplit, _⟩ _
    have hc : c ∈ Check.sortByName [unlinked "A-B", unlinked "A/B"] :=
      hsplit ▸ List.mem_append_right _ List.mem_cons_self
    exact accepts_emptySite _ (hfile c ((sortByName_perm _).mem_iff.mp hc))
  · exact accepts_emptySite _ (by decide)

/-- A tree in which the directory for the pages has a directory in the place of one of them. -/
def blockedSite : FileTree := ⟨[(["site", "A.md"], .directory)]⟩

theorem makeDirectories_blockedSite :
    blockedSite.makeDirectories [] (.ofText "site") = .ok blockedSite := by
  apply FileTree.makeDirectories_of_makeOne (by decide)
  rw [FileTree.makeOne, FileTree.locate_eq_walk (by decide) (by decide)]
  rfl

/-- The page of the first check cannot be written.  The pass is left at once: the failure is not
recorded, and neither the page of the second check nor the index is written, though the directory
accepts both. -/
theorem breaksOff_of_directory :
    ∃ text, ([unlinked "A", unlinked "B"].map Check.name).Nodup ∧
      generate [unlinked "A", unlinked "B"] none Link.defaultSite blockedSite []
        (.ofText "site") = .error (.isDirectory "site/A.md", ⟨blockedSite, [], [], [], []⟩) ∧
      pageText none Link.defaultSite [] blockedSite (unlinked "B") = .ok text ∧
      blockedSite.Accepts [] (.ofText "site") (fileName "B") ∧
      blockedSite.Accepts [] (.ofText "site") indexFile ∧
      ¬ ∃ made pages pass, blockedSite.makeDirectories [] (.ofText "site") = .ok made ∧
        generate [unlinked "A", unlinked "B"] none Link.defaultSite blockedSite []
          (.ofText "site") = .ok pass ∧
        Settled none Link.defaultSite [] (.ofText "site") made [unlinked "A", unlinked "B"]
          pages pass := by
  have hsorted : Check.sortByName [unlinked "A", unlinked "B"] = [unlinked "A", unlinked "B"] :=
    List.mergeSort_of_pairwise (by decide)
  have hbroken : generate [unlinked "A", unlinked "B"] none Link.defaultSite blockedSite []
      (.ofText "site") = .error (.isDirectory "site/A.md", ⟨blockedSite, [], [], [], []⟩) := by
    obtain ⟨text, hpage⟩ : ∃ text,
      pageText none Link.defaultSite [] blockedSite (unlinked "A") = .ok text := ⟨_, rfl⟩
    refine (breaksOff_iff makeDirectories_blockedSite).mpr (.page ?_ hpage ?_)
    · rw [hsorted]
      exact ⟨[], [unlinked "B"], rfl, rfl⟩
    · rw [FileTree.write, show fileName (unlinked "A").name = "A.md" by decide,
        locate_site _ _ (by decide)]
      rfl
  have haccepts : ∀ name ∈ ["B.md", "index.md"],
      blockedSite.Accepts [] (.ofText "site") name := by
    intro name hname
    have hlisted := List.mem_append_right ["A-B.md", "A_B.md", "A.md"] hname
    rw [FileTree.Accepts, locate_site _ name hlisted]
    revert name
    decide
  refine ⟨_, by decide, hbroken, rfl, haccepts _ (by decide), haccepts _ (by decide), ?_⟩
  rintro ⟨_, _, pass, _, hpass, _⟩
  cases hbroken.symm.trans hpass

end CheckRegistry.Catalog
