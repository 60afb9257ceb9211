import Mathlib.Data.List.Sort
import CheckRegistry.Proofs.Catalog
import CheckRegistry.Proofs.Page

/-! # What failures cost a documentation pass

In a directory that takes all its files, a pass ends well whatever fails.  Each check gets either
its page and a line of the index, or an entry among the failures, so the two add up.  Which of the
two it gets is decided by the check and its examples alone (`Catalog.pageText_isOk_iff`), so a
failure costs no other page: what is written depends on the checks only through the pages that can
be made, and these are sorted by distinct names (`pages_sortByName_congr`).  Hence checks that fail
may as well not be there, and the order of the checks plays no part (`generate_accounted`).
-/

namespace CheckRegistry

/-! ## Sorting checks -/

namespace Check

variable {checks checks' l m : List Check}

/-- Under distinct names, checks are sorted strictly. -/
theorem pairwise_sortByName (hnames : (checks.map Check.name).Nodup) :
    (sortByName checks).Pairwise fun a b => a.name < b.name := by
  have hle : (sortByName checks).Pairwise fun a b => decide (a.name ≤ b.name) = true :=
    List.pairwise_mergeSort
      (fun a b c hab hbc => by simp only [decide_eq_true_eq] at *; exact String.le_trans hab hbc)
      (fun a b => by simpa using String.le_total a.name b.name) checks
  have hne : (sortByName checks).Pairwise fun a b => a.name ≠ b.name :=
    List.pairwise_map.mp (Catalog.nodup_names_sortByName hnames)
  refine (hle.and hne).imp ?_
  rintro a b ⟨hab, hdistinct⟩
  by_contra hnot
  exact hdistinct (String.le_antisymm (of_decide_eq_true hab) (String.not_lt.mp hnot))

/-- Checks that are sorted strictly are told apart by membership alone. -/
theorem eq_of_pairwise_name (hl : l.Pairwise fun a b => a.name < b.name)
    (hm : m.Pairwise fun a b => a.name < b.name) (h : ∀ c, c ∈ l ↔ c ∈ m) : l = m := by
  have hasymm : Std.Asymm fun a b : Check => a.name < b.name := ⟨fun _ _ => String.lt_asymm⟩
  exact hl.eq_of_mem_iff hm h

/-- The order in which checks of distinct names are given plays no part in sorting them. -/
theorem sortByName_eq_of_perm (hperm : checks'.Perm checks)
    (hnames : (checks.map Check.name).Nodup) : sortByName checks' = sortByName checks := by
  have hnames' : (checks'.map Check.name).Nodup := (hperm.map Check.name).nodup_iff.mpr hnames
  refine eq_of_pairwise_name (pairwise_sortByName hnames') (pairwise_sortByName hnames) fun c => ?_
  rw [(Catalog.sortByName_perm checks').mem_iff, (Catalog.sortByName_perm checks).mem_iff,
    hperm.mem_iff]

end Check

namespace Catalog

variable {provider : Option Provider} {site : String} {cwd : Place} {out : Path}
  {t made : FileTree} {checks checks' : List Check} {c : Check} {pass : Pass}

/-! ## Pages that depend on no others -/

theorem pages_filter (checks : List Check) :
    pages provider site cwd t (checks.filter fun c => (pageText provider site cwd t c).isOk) =
      pages provider site cwd t checks := by
  rw [pages, pages, List.filterMap_filter]
  refine List.filterMap_congr fun c _ => ?_
  cases pageText provider site cwd t c with
  | error e => rfl
  | ok text => rfl

/-- Two passes over checks of which they can make pages of the same make the same pages. -/
theorem pages_sortByName_congr (hnames : (checks.map Check.name).Nodup)
    (hnames' : (checks'.map Check.name).Nodup)
    (h : ∀ c text, pageText provider site cwd t c = .ok text → (c ∈ checks' ↔ c ∈ checks)) :
    pages provider site cwd t (Check.sortByName checks') =
      pages provider site cwd t (Check.sortByName checks) := by
  rw [← pages_filter (Check.sortByName checks'), ← pages_filter (Check.sortByName checks)]
  refine congrArg _ (Check.eq_of_pairwise_name ((Check.pairwise_sortByName hnames').filter _)
    ((Check.pairwise_sortByName hnames).filter _) fun c => ?_)
  rw [List.mem_filter, List.mem_filter, (sortByName_perm checks').mem_iff,
    (sortByName_perm checks).mem_iff]
  refine and_congr_left fun hok => ?_
  cases htext : pageText provider site cwd t c with
  | error e => rw [htext] at hok; cases hok
  | ok text => exact h c text htext

/-- Each check has a page or a failure. -/
theorem Done.length_written (h : Done provider site cwd out t checks pass)
    (hnames : (checks.map Check.name).Nodup) :
    pass.written.length + pass.failed.length = checks.length + 1 := by
  have hwritten : pass.written.length = (checks.filter fun c => pass.HasPage c).length + 1 := by
    rw [h.written, h.indexed hnames, files, List.length_map, List.length_append, List.length_map,
      List.length_map, List.length_singleton]
  have hfailed : pass.failed.length = (checks.filter fun c => !decide (pass.HasPage c)).length := by
    have hmem (c : Check) : c ∈ checks.filter (fun c => !decide (pass.HasPage c)) ↔
        c ∈ checks ∧ c.name ∈ pass.failed.map Prod.fst := by
      rw [List.mem_filter, Bool.not_eq_true', decide_eq_false_iff_not, Pass.HasPage, not_not]
    -- the names that failed are those of checks without a page, each of them once
    have hperm : (pass.failed.map Prod.fst).Perm
        ((checks.filter fun c => !decide (pass.HasPage c)).map Check.name) := by
      refine (List.perm_ext_iff_of_nodup h.once ?_).mpr fun name => ?_
      · exact hnames.sublist (List.filter_sublist.map _)
      constructor
      · intro hname
        obtain ⟨c, hc, rfl, _⟩ := (h.failed name).mp hname
        exact List.mem_map.mpr ⟨c, (hmem c).mpr ⟨hc, hname⟩, rfl⟩
      · intro hname
        obtain ⟨c, hc, rfl⟩ := List.mem_map.mp hname
        exact ((hmem c).mp hc).2
    have hlength := hperm.length_eq
    rwa [List.length_map, List.length_map] at hlength
  have hall := List.length_eq_length_filter_add (l := checks) fun c => decide (pass.HasPage c)
  omega

/-! ## Whole passes -/

/-- A pass has accounted for all that failed. -/
structure Accounted (provider : Option Provider) (site : String) (t : FileTree) (cwd : Place)
    (out : Path) (made : FileTree) (checks : List Check) (pass : Pass) : Prop where
  /-- Each check has a file or a failure; the index is one more file. -/
  count : pass.written.length + pass.failed.length = checks.length + 1
  failed : ∀ c ∈ checks, c.name ∈ pass.failed.map Prod.fst ↔
    c.Linkless site ∨ c.Unexemplified provider made cwd
  /-- The index lists the checks that have not failed, in the order of their names. -/
  index : ∃ listed : List Check, listed.Pairwise (fun a b => a.name < b.name) ∧
    (∀ c, c ∈ listed ↔ c ∈ checks ∧ c.name ∉ pass.failed.map Prod.fst) ∧
    HasIndex cwd out listed pass.tree
  /-- Without some or all of the checks that failed, a pass writes the same. -/
  isolated : ∀ fewer : List Check, fewer.Sublist checks →
    (∀ c ∈ checks, c.name ∉ pass.failed.map Prod.fst → c ∈ fewer) →
    ∃ pass', generate fewer provider site t cwd out = .ok pass' ∧
      pass'.written = pass.written ∧ pass'.tree = pass.tree
  unordered : ∀ checks' : List Check, checks'.Perm checks →
    generate checks' provider site t cwd out = .ok pass

theorem generate_eq_of_perm (hperm : checks'.Perm checks)
    (hnames : (checks.map Check.name).Nodup) :
    generate checks' provider site t cwd out = generate checks provider site t cwd out := by
  rw [generate, generate, Check.sortByName_eq_of_perm hperm hnames]

/-- The files of a pass have names that lead to no other directory. -/
theorem ne_parent_of_mem_files {f : String × String}
    (hf : f ∈ files provider site cwd t checks) : f.1 ≠ ".." := by
  have hall : ∀ f ∈ files provider site cwd t checks, f.1 ≠ ".." :=
    (forall_mem_files (P := (· ≠ ".."))).mpr
      ⟨fun c _ _ _ => fileName_ne_parent c.name, by decide⟩
  exact hall f hf

/-- In a directory that accepts all its files, a pass ends well. -/
theorem exists_done (hapart : Apart provider cwd out) (hmade : t.makeDirectories cwd out = .ok made)
    (haccepts : ∀ f ∈ files provider site cwd made (Check.sortByName checks),
      made.Accepts cwd out f.1) :
    ∃ pass, generate checks provider site t cwd out = .ok pass ∧
      Done provider site cwd out made (Check.sortByName checks) pass := by
  obtain ⟨pass, hpass⟩ := (generate_isOk_iff hapart).mpr ⟨made, hmade, haccepts⟩
  obtain ⟨made', hmade', hdone⟩ := done_of_generate hapart hpass
  obtain rfl := Except.ok.inj (hmade.symm.trans hmade')
  exact ⟨pass, hpass, hdone⟩

/-- What has failed is what no page could be made of. -/
theorem Done.failed_iff (h : Done provider site cwd out t (Check.sortByName checks) pass)
    (hnames : (checks.map Check.name).Nodup) (hc : c ∈ checks) :
    c.name ∈ pass.failed.map Prod.fst ↔
      ¬ ∃ text, Catalog.pageText provider site cwd t c = .ok text := by
  have hc := (sortByName_perm checks).mem_iff.mpr hc
  rw [← h.hasPage_iff (nodup_names_sortByName hnames) hc, Pass.HasPage, not_not]

/-- The files of a pass are those of a pass without checks that fail. -/
theorem Done.files_eq (h : Done provider site cwd out t (Check.sortByName checks) pass)
    (hnames : (checks.map Check.name).Nodup) {fewer : List Check} (hsub : fewer.Sublist checks)
    (hkeeps : ∀ c ∈ checks, c.name ∉ pass.failed.map Prod.fst → c ∈ fewer) :
    files provider site cwd t (Check.sortByName fewer) =
      files provider site cwd t (Check.sortByName checks) := by
  have hpages : pages provider site cwd t (Check.sortByName fewer) =
      pages provider site cwd t (Check.sortByName checks) := by
    refine pages_sortByName_congr hnames (hnames.sublist (hsub.map _)) fun c text htext => ?_
    refine ⟨fun hc => hsub.subset hc, fun hc => hkeeps c hc ?_⟩
    rw [h.failed_iff hnames hc]
    exact not_not.mpr ⟨text, htext⟩
  rw [files, files, hpages]

/-- **Failures cost only their own pages.**  In a directory that takes all its files, a pass over
checks of distinct names ends well and accounts for all that failed. -/
theorem generate_accounted (hnames : (checks.map Check.name).Nodup)
    (hapart : Apart provider cwd out) (hmade : t.makeDirectories cwd out = .ok made)
    (hwrites : ∀ f ∈ files provider site cwd made (Check.sortByName checks),
      ∃ tree, made.write cwd (out.child f.1) (Utf8.encode f.2) = .ok tree) :
    ∃ pass, generate checks provider site t cwd out = .ok pass ∧
      Accounted provider site t cwd out made checks pass := by
  have hsorted := nodup_names_sortByName hnames
  have haccepts : ∀ f ∈ files provider site cwd made (Check.sortByName checks),
      made.Accepts cwd out f.1 := by
    intro f hf
    obtain ⟨tree, hwrite⟩ := hwrites f hf
    exact ((FileTree.write_child_iff (ne_parent_of_mem_files hf)).mp hwrite).1
  obtain ⟨pass, hpass, hdone⟩ := exists_done hapart hmade haccepts
  refine ⟨pass, hpass, ?_, ?_, ?_, ?_, ?_⟩
  · rw [hdone.length_written hsorted, (sortByName_perm checks).length_eq]
  · intro c hc
    rw [hdone.failed_iff hnames hc, pageText_isOk_iff, not_not]
  · refine ⟨(Check.sortByName checks).filter fun c => pass.HasPage c,
      (Check.pairwise_sortByName hnames).filter _, ?_, ?_⟩
    · intro c
      rw [List.mem_filter, (sortByName_perm checks).mem_iff, decide_eq_true_iff, Pass.HasPage]
    · rw [hdone.indexed hsorted]
      exact hdone.hasIndex
  · intro fewer hsub hkeeps
    have hfiles := hdone.files_eq hnames hsub hkeeps
    obtain ⟨pass', hpass', hdone'⟩ := exists_done hapart hmade (hfiles ▸ haccepts)
    refine ⟨pass', hpass', ?_, ?_⟩
    · rw [hdone'.written, hdone.written, hfiles]
    · rw [hdone'.tree, hdone.tree, hfiles]
  · intro checks' hperm
    exact (generate_eq_of_perm hperm hnames).trans hpass

/-- A check with a page, one without a link, and one that is given a bad example. -/
def mixed : List Check :=
  [unlinked "A", { unlinked "A B" with linkType := .autogenerated },
    { unlinked "B" with generateExamples := true }]

theorem generate_accounted_of_mixed :
    (mixed.map Check.name).Nodup ∧
      Apart (some (.table [("B", [.text ""])])) [] (.ofText "site") ∧
      FileTree.empty.makeDirectories [] (.ofText "site") = .ok emptySite ∧
      (∀ f ∈ files (some (.table [("B", [.text ""])])) Link.defaultSite [] emptySite
        (Check.sortByName mixed),
        ∃ tree, emptySite.write [] ((Path.ofText "site").child f.1) (Utf8.encode f.2) =
          .ok tree) ∧
      ∃ pass, generate mixed (some (.table [("B", [.text ""])])) Link.defaultSite .empty []
          (.ofText "site") = .ok pass ∧
        Accounted (some (.table [("B", [.text ""])])) Link.defaultSite .empty []
          (.ofText "site") emptySite mixed pass := by
  have hnames : (mixed.map Check.name).Nodup := by decide
  have hapart : Apart (some (.table [("B", [.text ""])])) [] (.ofText "site") :=
    fun _ _ h => by cases h
  have hfile : ∀ c ∈ mixed,
      fileName c.name ∈ ["A-B.md", "A_B.md", "A.md", "B.md", "index.md"] := by decide
  have haccepts : ∀ f ∈ files (some (.table [("B", [.text ""])])) Link.defaultSite [] emptySite
      (Check.sortByName mixed), emptySite.Accepts [] (.ofText "site") f.1 := by
    refine forall_mem_files.mpr ⟨?_, accepts_emptySite _ (by decide)⟩
    intro c hc _ _
    exact accepts_emptySite _ (hfile c ((sortByName_perm mixed).mem_iff.mp hc))
  have hwrites : ∀ f ∈ files (some (.table [("B", [.text ""])])) Link.defaultSite [] emptySite
      (Check.sortByName mixed), ∃ tree,
        emptySite.write [] ((Path.ofText "site").child f.1) (Utf8.encode f.2) = .ok tree := by
    intro f hf
    exact ⟨_, (FileTree.write_child_iff (ne_parent_of_mem_files hf)).mpr ⟨haccepts f hf, rfl⟩⟩
  exact ⟨hnames, hapart, makeDirectories_site, hwrites,
    generate_accounted hnames hapart makeDirectories_site hwrites⟩

end Catalog

end CheckRegistry
