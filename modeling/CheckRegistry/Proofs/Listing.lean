import CheckRegistry.Listing
import CheckRegistry.Proofs.Json
import CheckRegistry.Proofs.Record
import CheckRegistry.Proofs.Run

/-! # The listing as JSON loses nothing

The JSON listing has a row for each registered check.  Without the two keys that are derived, a row
is the check's own record, of which every value is a text, a truth value or a list of texts and
comes back from JSON as it was (`valueOfJson_jsonOfValue`).  So whoever reads the listing has the
records of the registered checks (`records?_json`), and each record is read as its check.

Building a registry of these checks again can go wrong nowhere: they were valid under the same
settings, and no two of them share a name, or they would not have been registered.
-/

namespace CheckRegistry

variable {declared : List Declared} {config : Config} {c : Check}

namespace Listing

/-! ## Reading a listing -/

/-- The keys of a row that the record of a check does not have. -/
def derivedKeys : List String := ["effectiveTags", "diagnosticLink"]

mutual

/-- A value of a row as a value that a declaration can give. -/
def valueOfJson : Json → Value
  | .null => .none
  | .bool b => .bool b
  | .text s => .text s
  | .list items => .list (valuesOfJson items)
  | .object members => .dict (entriesOfJson members)

/-- The items of a list as values. -/
def valuesOfJson : List Json → List Value
  | [] => []
  | j :: rest => valueOfJson j :: valuesOfJson rest

/-- The members of an object with their values. -/
def entriesOfJson : List (String × Json) → List (String × Value)
  | [] => []
  | (key, j) :: rest => (key, valueOfJson j) :: entriesOfJson rest

end

/-- The record in a row: an object with each key once, of which the derived ones are left out. -/
def recordOfRow? : Json → Option Record
  | .object members =>
    if (members.map Prod.fst).Nodup then
      some (entriesOfJson (members.filter fun m => !derivedKeys.contains m.1))
    else none
  | _ => none

/-- The records in a listing. -/
def records? (text : String) : Option (List Record) :=
  match Json.parse? text with
  | some (.list rows) => rows.mapM recordOfRow?
  | _ => none

theorem entriesOfJson_eq (members : List (String × Json)) :
    entriesOfJson members = members.map fun m => (m.1, valueOfJson m.2) := by
  induction members with
  | nil => rfl
  | cons m members ih => rw [entriesOfJson, ih, List.map_cons]

/-- The values that a check's record has in its fields come back as they were. -/
theorem valueOfJson_jsonOfValue {f : Field} {v : Value} (h : f.Takes v) :
    valueOfJson (jsonOfValue v) = v := by
  have hnames (names : List String) :
      valuesOfJson (jsonOfValues (names.map .text)) = names.map .text := by
    induction names with
    | nil => rfl
    | cons a names ih => rw [List.map_cons, jsonOfValues, valuesOfJson, ih]; rfl
  unfold Field.Takes at h
  split at h
  · obtain ⟨s, rfl⟩ := h
    rw [Value.ofNames, jsonOfValue, valueOfJson, hnames]
  · split at h
    · obtain ⟨b, rfl⟩ := h
      rfl
    · obtain ⟨s, rfl⟩ := h
      rfl

theorem camelKey_not_mem_derivedKeys (f : Field) : f.camelKey ∉ derivedKeys := by
  cases f <;> decide

/-- The members of a row: the check's record, and the two derived ones. -/
theorem exists_jsonRow_eq (site : String) (c : Check) : ∃ tags link,
    (jsonRow site c).1 = .object (c.toRecord.map (fun e => (e.1, jsonOfValue e.2)) ++
      [("effectiveTags", tags), ("diagnosticLink", link)]) :=
  ⟨_, _, rfl⟩

theorem toRecord_eq_map (c : Check) :
    c.toRecord = Field.listed.map fun f => (f.camelKey, c.value f) := by
  rw [Record.toRecord_eq, Record.ofEntries, Check.entries, List.map_map]
  rfl

theorem nodup_keys_row (c : Check) : (c.toRecord.map Prod.fst ++ derivedKeys).Nodup := by
  rw [toRecord_eq_map, List.map_map, List.nodup_append]
  refine ⟨Field.nodup_listed.map Field.camelKey_injective, by decide, ?_⟩
  intro key hkey derived hderived
  obtain ⟨f, _, rfl⟩ := List.mem_map.mp hkey
  rintro rfl
  exact camelKey_not_mem_derivedKeys f hderived

/-- **The record in the row of a check is the check's own record.** -/
theorem recordOfRow?_jsonRow (site : String) (c : Check) :
    recordOfRow? (jsonRow site c).1 = some c.toRecord := by
  obtain ⟨tags, link, hrow⟩ := exists_jsonRow_eq site c
  have hnodup : ((c.toRecord.map (fun e => (e.1, jsonOfValue e.2)) ++
      [("effectiveTags", tags), ("diagnosticLink", link)]).map Prod.fst).Nodup := by
    rw [List.map_append, List.map_map]
    exact nodup_keys_row c
  have hkept : (c.toRecord.map (fun e => (e.1, jsonOfValue e.2)) ++
      [("effectiveTags", tags), ("diagnosticLink", link)]).filter
        (fun m => !derivedKeys.contains m.1) =
      c.toRecord.map fun e => (e.1, jsonOfValue e.2) := by
    have hderived : [("effectiveTags", tags), ("diagnosticLink", link)].filter
        (fun m => !derivedKeys.contains m.1) = [] := by simp [derivedKeys]
    rw [List.filter_append, hderived, List.append_nil, List.filter_eq_self, toRecord_eq_map,
      List.map_map]
    intro m hm
    obtain ⟨f, _, rfl⟩ := List.mem_map.mp hm
    have hkey := camelKey_not_mem_derivedKeys f
    simpa using hkey
  rw [hrow, recordOfRow?, if_pos hnodup, hkept, entriesOfJson_eq, toRecord_eq_map, List.map_map,
    List.map_map]
  refine congrArg some (List.map_congr_left fun f _ => ?_)
  show (f.camelKey, valueOfJson (jsonOfValue (c.value f))) = _
  rw [valueOfJson_jsonOfValue (c.takes_value f)]

/-- **The listing holds the records of the checks**, in order. -/
theorem records?_json (site : String) (checks : List Check) :
    records? (json site checks).1 = some (checks.map Check.toRecord) := by
  rw [records?, json, Json.parse?_render, List.map_map]
  show (checks.map fun c => (jsonRow site c).1).mapM recordOfRow? = _
  induction checks with
  | nil => rfl
  | cons c checks ih =>
    rw [List.map_cons, List.mapM_cons, recordOfRow?_jsonRow, ih]
    rfl

end Listing

/-! ## Building the registry again -/

theorem Declared.judge_toRecord (strict : Bool) (c : Check) :
    judge strict (.record c.toRecord) = judge strict (.check c) := by
  simp only [judge, Check.ofRecord_toRecord]

namespace Build

/-- A build sees of its declarations only what judging them comes to. -/
theorem ofList_congr {declared' : List Declared}
    (h : declared.map (Declared.judge config.strict) =
      declared'.map (Declared.judge config.strict)) :
    ofList declared config = ofList declared' config := by
  simp only [ofList, h]

theorem ofList_toRecord (checks : List Check) (config : Config) :
    ofList ((checks.map Check.toRecord).map .record) config =
      ofList (checks.map .check) config := by
  apply ofList_congr
  simp only [List.map_map, Function.comp_def, Declared.judge_toRecord]

/-- What is registered can be registered again as it is. -/
theorem ofList_registered (declared : List Declared) (config : Config) :
    (ofList ((ofList declared config).registry.checks.map .check) config).rejected = [] ∧
      (ofList ((ofList declared config).registry.checks.map .check) config).registry =
        (ofList declared config).registry := by
  have hregistry : (ofList declared config).registry =
      Registry.ofList (ofList declared config).registry.checks := by
    rw [ofList_eq]
    rfl
  have hvalid : ∀ c ∈ (ofList declared config).registry.checks,
      (c.judge config.strict).isOk = true := fun c hc => isOk_of_mem_checks hc
  obtain ⟨hrejected, hagain⟩ := ofList_of_free hvalid (free_checks declared config)
  exact ⟨hrejected, hagain.trans hregistry.symm⟩

end Build

namespace CommandLine

open Invocation (Prepared built)

variable {i : Invocation} {s : Surroundings} {words : List String} {paths : List Path}
  {records : List Record}

theorem perform_listing {b : Build} (htask : i.task = .list none none .json) :
    (i.task.perform s config b).answer =
      .ok ⟨b.isOk, (Listing.json config.site b.registry.checks).1⟩ := by
  rw [htask]
  rfl

/-- What the JSON listing prints. -/
theorem exists_run_listing (hwords : Request.ofWords words = .ok (.run i))
    (htask : i.task = .list none none .json) (hsettings : i.config s.environment = .ok config)
    (hfiles : findFiles s i.files = .ok paths)
    (hload : Declaration.load s.tree s.cwd paths = .ok records) :
    ∃ done, run words s = .ok (done, none) ∧ done.output =
      (Listing.json config.site (Build.ofList (records.map .record) config).registry.checks).1 := by
  obtain ⟨parts, hholds, rfl⟩ := Declaration.load_eq_ok_iff.mp hload
  obtain ⟨forms, hprepared⟩ := (Invocation.exists_prepared_iff i s config).mpr
    ⟨hsettings, paths, hfiles, hholds⟩
  have hanswer := (answer_of_prepared hprepared).trans (perform_listing htask)
  obtain ⟨done, hrun, houtput, _⟩ := i.run_of_answer hanswer
  refine ⟨done, ?_, houtput⟩
  rw [run, hwords]
  simp only [hrun]
  rfl

/-- **The JSON listing is a faithful export.**  Whatever the declaration files hold that load, the
records in the listing build the same registry again, and nothing is left out. -/
theorem listing_restores (hwords : Request.ofWords words = .ok (.run i))
    (htask : i.task = .list none none .json) (hsettings : i.config s.environment = .ok config)
    (hfiles : findFiles s i.files = .ok paths)
    (hload : Declaration.load s.tree s.cwd paths = .ok records) :
    ∃ done rows, run words s = .ok (done, none) ∧ Listing.records? done.output = some rows ∧
      (Build.ofList (rows.map .record) config).rejected = [] ∧
      (Build.ofList (rows.map .record) config).registry =
        (Build.ofList (records.map .record) config).registry := by
  obtain ⟨done, hrun, houtput⟩ := exists_run_listing hwords htask hsettings hfiles hload
  obtain ⟨hrejected, hregistry⟩ := Build.ofList_registered (records.map .record) config
  rw [← Build.ofList_toRecord] at hrejected hregistry
  refine ⟨done, _, hrun, ?_, hrejected, hregistry⟩
  rw [houtput]
  exact Listing.records?_json config.site _

/-- The text of a file with two declarations, of which the second lacks its severity. -/
def mixedText : String :=
  "(bugpattern (name A) (summary \"Say \\\"𝒳\\\"\tonce\") (severity error) (tags t u))\n" ++
  "(bugpattern (name B) (summary Second))\n"

/-- What the two declarations give. -/
def mixedRecords : List Record :=
  [[("name", .text "A"), ("summary", .text "Say \"𝒳\"\tonce"), ("severity", .text "error"),
      ("tags", .list [.text "t", .text "u"])],
    [("name", .text "B"), ("summary", .text "Second")]]

/-- The check that the first declaration describes, with a quote, a tab and a character beyond
sixteen bits in its summary. -/
def saying : Check :=
  { name := "A", summary := "Say \"𝒳\"\tonce", severity := .error, tags := .ofList ["t", "u"] }

/-- The one check that is registered comes back from the listing. -/
theorem listing_restores_of_mixed :
    Request.ofWords ["list", "-f", "json", "x.bp"] =
      .ok (.run { files := ["x.bp"], task := .list none none .json }) ∧
    Declaration.load (Surroundings.withFile mixedText).tree [] [.ofPlace ["x.bp"]] =
      .ok mixedRecords ∧
    (Build.ofList (mixedRecords.map .record) {}).registry.checks = [saying] ∧
    ∃ done, run ["list", "-f", "json", "x.bp"] (.withFile mixedText) = .ok (done, none) ∧
      Listing.records? done.output = some [saying.toRecord] ∧
      (Build.ofList [.record saying.toRecord] {}).rejected = [] ∧
      (Build.ofList [.record saying.toRecord] {}).registry =
        (Build.ofList (mixedRecords.map .record) {}).registry := by
  have hwords : Request.ofWords ["list", "-f", "json", "x.bp"] =
      .ok (.run { files := ["x.bp"], task := .list none none .json }) := by decide +kernel
  have hparse : Declaration.parse (String.ofList (Text.unifyLineEnds mixedText.toList)) "/x.bp" =
      .ok mixedRecords := by
    decide +kernel
  have hload := load_withFile hparse
  have hsettings : Invocation.config { files := ["x.bp"], task := .list none none .json } [] =
      .ok {} := rfl
  have hregistered : (Build.ofList (mixedRecords.map .record) {}).registry.checks = [saying] := by
    decide +kernel
  obtain ⟨done, rows, hrun, hrows, hrejected, hregistry⟩ := listing_restores
    (s := .withFile mixedText) hwords rfl hsettings (findFiles_withFile mixedText) hload
  have hpinned : rows = [saying.toRecord] := by
    obtain ⟨done', hrun', houtput⟩ := exists_run_listing
      (s := .withFile mixedText) hwords rfl hsettings (findFiles_withFile mixedText) hload
    cases hrun.symm.trans hrun'
    rw [houtput, hregistered, Listing.records?_json] at hrows
    exact (Option.some.inj hrows).symm
  subst hpinned
  exact ⟨hwords, hload, hregistered, done, hrun, hrows, hrejected, hregistry⟩

end CommandLine

end CheckRegistry
