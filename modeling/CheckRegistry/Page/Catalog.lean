import CheckRegistry.Log
import CheckRegistry.Page.Basic

/-!
# Catalogs

A catalog is a directory with the page of each check and an index of them.  A check whose page
cannot be made is reported and left out, and the others are written all the same.
-/

namespace CheckRegistry

namespace Catalog

/-- The name of the file that a check's page goes into: the name of the check, in which every
character that a file name should not have becomes an underscore. -/
def fileName (check : String) : String :=
  String.ofList (check.toList.map fun c => if Link.isSlugChar c then c else '_') ++ ".md"

/-- The line of the index about a check. -/
def indexRow (c : Check) : String :=
  "| [" ++ c.name ++ "](" ++ fileName c.name ++ ") | " ++ Vocabulary.word c.severity ++ " | " ++
    c.summary ++ " |"

/-- The lines of the index before those about checks. -/
def indexHead : List String :=
  ["# Bug patterns", "", "| Name | Severity | Summary |", "|---|---|---|"]

/-- The text of the index. -/
def indexText (rows : List String) : String := "\n".intercalate (indexHead ++ rows) ++ "\n"

/-- The name of the file that the index goes into. -/
def indexFile : String := "index.md"

/-- How far a documentation pass has come. -/
structure Pass where
  tree : FileTree
  /-- The files written, in order. -/
  written : List String
  /-- The lines of the index about the pages written. -/
  rows : List String
  /-- The checks without a page, and why. -/
  failed : List (String × String)
  log : List LogEntry

/-- Sets the reason why a check has no page. -/
def setFailed (name reason : String) : List (String × String) → List (String × String)
  | [] => [(name, reason)]
  | (n, old) :: rest =>
    if n = name then (n, reason) :: rest else (n, old) :: setFailed name reason rest

/-- The page of a check. -/
def pageText (provider : Option Provider) (site : String) (cwd : Place) (t : FileTree)
    (c : Check) : Except PageError String := do
  let page ← (Page.assemble c provider site).mapError .link
  page.text t cwd

/-- Makes and writes the page of one check.  A page that cannot be made is reported; a page that
cannot be written ends the pass. -/
def step (provider : Option Provider) (site : String) (cwd : Place) (out : Path) (pass : Pass)
    (c : Check) : Except (FileError × Pass) Pass :=
  match pageText provider site cwd pass.tree c with
  | .error e =>
    .ok { pass with
          failed := setFailed c.name e.message pass.failed
          log := pass.log ++
            [⟨.error, "documentation for " ++ c.name ++ " failed: " ++ e.message⟩] }
  | .ok text =>
    let file := out.child (fileName c.name)
    match pass.tree.write cwd file (Utf8.encode text) with
    | .error e => .error (e, pass)
    | .ok tree =>
      .ok { pass with
            tree
            written := pass.written ++ [fileName c.name]
            rows := pass.rows ++ [indexRow c]
            log := pass.log ++ [⟨.debug, "wrote " ++ file.text⟩] }

/-- Writes the index, which ends a pass. -/
def finish (cwd : Place) (out : Path) (pass : Pass) : Except (FileError × Pass) Pass :=
  match pass.tree.write cwd (out.child indexFile) (Utf8.encode (indexText pass.rows)) with
  | .error e => .error (e, pass)
  | .ok tree =>
    .ok { pass with
          tree
          written := pass.written ++ [indexFile]
          log := pass.log ++
            [⟨.info, s!"documentation pass: {pass.written.length} pages, " ++
              s!"{pass.failed.length} failures"⟩] }

/-- Writes the catalog of some checks into a directory, which is made if it is not there.  Pages
are made in the order of names. -/
def generate (checks : List Check) (provider : Option Provider) (site : String) (t : FileTree)
    (cwd : Place) (out : Path) : Except (FileError × Pass) Pass :=
  match t.makeDirectories cwd out with
  | .error e => .error (e, ⟨t, [], [], [], []⟩)
  | .ok tree =>
    match (Check.sortByName checks).foldlM (step provider site cwd out) ⟨tree, [], [], [], []⟩ with
    | .error e => .error e
    | .ok pass => finish cwd out pass

end Catalog

end CheckRegistry
