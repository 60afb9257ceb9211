import CheckRegistry.Example.Fixture
import CheckRegistry.Link

/-!
# Providers of examples

A documentation page asks a provider for the examples of its check each time it is rendered.  A
provider knows no examples, or holds them in a table, or finds them among the fixtures below a
directory; the fixtures are read from the file tree as it is at that time.
-/

namespace CheckRegistry

/-- Why a page cannot be made. -/
inductive PageError
  | link (e : Link.Missing)
  | malformedExample (e : Example.Malformed)
  | decoding (e : Utf8.DecodeError)
  | file (e : FileError)

/-- The wording of the error. -/
def PageError.message : PageError → String
  | .link e => e.message
  | .malformedExample e => e.message
  | .decoding e => e.message
  | .file e => e.message

/-- Where examples come from. -/
inductive Provider
  /-- There are none. -/
  | none
  /-- A table from names of checks to what is handed over for them.  A later entry of a check
  replaces an earlier one. -/
  | table (entries : List (String × List Value))
  /-- The fixtures below a directory, restricted to some suffixes or not. -/
  | fixtures (root : Path) (suffixes : Option (List String))

/-- The directory that a path leads to, if it leads to one. -/
def fixtureRoot? (t : FileTree) (cwd : Place) (root : Path) : Except FileError (Option Place) :=
  match t.locate cwd root with
  | .ok place => .ok (if t.isDirectory place then some place else none)
  | .error (.nameTooLong path) => .error (.nameTooLong path)
  | .error _ => .ok none

/-- The examples that a provider has for a check.  A directory that is not there has none. -/
def Provider.examples (p : Provider) (t : FileTree) (cwd : Place) (check : String) :
    Except PageError (List Example) :=
  match p with
  | .none => .ok []
  | .table entries =>
    (Example.ofValues check ((entries.reverse.lookup check).getD [])).mapError .malformedExample
  | .fixtures root suffixes =>
    match fixtureRoot? t cwd root with
    | .error e => .error (.file e)
    | .ok Option.none => .ok []
    | .ok (some place) => (Fixture.examples t place suffixes check).mapError .decoding

end CheckRegistry
