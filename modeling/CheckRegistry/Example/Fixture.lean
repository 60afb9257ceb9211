import CheckRegistry.Declaration.File
import CheckRegistry.Example.Basic
import CheckRegistry.Text.Digit

/-!
# Fixtures

The fixtures of a check are test files named after it: the name of the check, `Positive` or
`Negative`, optionally `Case` or `Cases`, optionally digits with or without an underscore before
them, and any number of extensions.  The name is taken literally and in full, so a fixture of
`FooPositiveCheck` is none of `Foo`.
-/

namespace CheckRegistry

namespace Fixture

/-- Removes a beginning. -/
def strip? (start : List Char) (s : List Char) : Option (List Char) :=
  if start.isPrefixOf s then some (s.drop start.length) else none

/-- Removes a beginning if it is there. -/
def stripOptional (start : List Char) (s : List Char) : List Char := (strip? start s).getD s

/-- Whether a text is a sequence of extensions.  `fresh` says that a period came just before, so
that a letter or digit has to follow. -/
def isExtensions (fresh : Bool) : List Char → Bool
  | [] => !fresh
  | c :: rest =>
    if c = '.' then !fresh && isExtensions true rest
    else c.isAlphanum && isExtensions false rest

/-- Whether a text is empty or a sequence of extensions, the period of the first included. -/
def isSuffixes : List Char → Bool
  | [] => true
  | c :: rest => c == '.' && isExtensions true rest

/-- What may follow the outcome in the name of a fixture. -/
def isTail (s : List Char) : Bool :=
  let s :=
    match strip? ['C', 'a', 's', 'e'] s with
    | some rest => stripOptional ['s'] rest
    | none => s
  match s with
  | '_' :: rest => (rest.takeWhile Text.isDigit) != [] && isSuffixes (rest.dropWhile Text.isDigit)
  | s => isSuffixes (s.dropWhile Text.isDigit)

/-- The outcome that the name of a file gives it as a fixture of a check, if it is one. -/
def outcome? (check : String) (file : String) : Option Outcome :=
  match strip? check.toList file.toList with
  | none => none
  | some s =>
    match strip? "Positive".toList s, strip? "Negative".toList s with
    | some tail, _ => if isTail tail then some .positive else none
    | none, some tail => if isTail tail then some .negative else none
    | none, none => none

/-- The last extension of a file name with its period.  A period at the beginning or at the end
begins no extension. -/
def suffix (file : String) : String :=
  let backwards := file.toList.reverse
  let ext := (backwards.takeWhile (· != '.')).reverse
  let before := (backwards.dropWhile (· != '.')).drop 1
  if ext.isEmpty || before.isEmpty then "" else String.ofList ('.' :: ext)

/-- Whether a file name has one of the wanted suffixes, if there is a choice. -/
def isWanted (suffixes : Option (List String)) (file : String) : Bool :=
  match suffixes with
  | none => true
  | some wanted => wanted.contains (suffix file)

/-- A fixture as it is found: its place below the root, its bytes and its outcome. -/
structure Found where
  place : Place
  bytes : List UInt8
  outcome : Outcome
  deriving DecidableEq

/-- The fixtures of a check below a root, in the order of their places. -/
def find (t : FileTree) (root : Place) (suffixes : Option (List String)) (check : String) :
    List Found :=
  (t.filesBelow root).filterMap fun (place, bytes) =>
    let file := place.getLast?.getD ""
    match outcome? check file with
    | none => none
    | some o => if isWanted suffixes file then some ⟨place, bytes, o⟩ else none

/-- Reads a fixture as an example, with its path below the root as the source. -/
def Found.read (f : Found) : Except Utf8.DecodeError Example :=
  (textOfBytes f.bytes).map fun s => ⟨s, f.outcome, "/".intercalate f.place⟩

/-- Reads fixtures in order; the first that is no text is an error. -/
def readAll : List Found → Except Utf8.DecodeError (List Example)
  | [] => .ok []
  | f :: rest => do
    let e ← f.read
    let es ← readAll rest
    return e :: es

/-- The examples of a check: its positive fixtures, then its negative ones. -/
def examples (t : FileTree) (root : Place) (suffixes : Option (List String)) (check : String) :
    Except Utf8.DecodeError (List Example) :=
  let found := find t root suffixes check
  readAll ((found.filter fun f => f.outcome == .positive) ++
    found.filter fun f => f.outcome == .negative)

end Fixture

end CheckRegistry
