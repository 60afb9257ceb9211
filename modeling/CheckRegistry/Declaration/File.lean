import CheckRegistry.Declaration.Basic
import CheckRegistry.FileTree
import CheckRegistry.Text.LineEnd
import CheckRegistry.Text.Utf8

/-!
# Declaration files

A declaration file is read as UTF-8 with any of the usual line ends.  Several files are read one
after the other, and the records of all are put together in that order; reading stops at the
first file that cannot be read or does not hold declarations.
-/

namespace CheckRegistry

/-- Why a file cannot be read as text. -/
inductive TextError
  | file (e : FileError)
  | decoding (e : Utf8.DecodeError)
  deriving DecidableEq, Repr

/-- The wording of the error. -/
def TextError.message : TextError → String
  | .file e => e.message
  | .decoding e => e.message

/-- The bytes of a file as text with unified line ends. -/
def textOfBytes (bytes : List UInt8) : Except Utf8.DecodeError String :=
  (Utf8.decode bytes).map fun chars => String.ofList (Text.unifyLineEnds chars)

namespace Declaration

/-- Why the declarations of a file cannot be had. -/
inductive LoadError
  /-- The file cannot be opened. -/
  | file (source : String) (e : FileError)
  /-- The file is not UTF-8. -/
  | decoding (e : Utf8.DecodeError)
  | parse (e : ParseError)

/-- Whether the error is one about declarations, which names the file as its source.  A path that
no file can have and bytes that are no text are reported as such, wherever they come up. -/
def LoadError.isDeclarationError : LoadError → Bool
  | .file _ .nullCharacter | .decoding _ => false
  | .file .. | .parse _ => true

/-- The wording of the error. -/
def LoadError.message : LoadError → String
  | .file _ .nullCharacter => FileError.nullCharacter.message
  | .file source e => labelled source ("cannot read declarations: " ++ e.message)
  | .decoding e => e.message
  | .parse e => e.message

/-- The records of one file.  The path as it was written names the file in errors. -/
def loadFile (t : FileTree) (cwd : Place) (p : Path) : Except LoadError (List Record) := do
  let bytes ← (t.read cwd p).mapError (.file p.text)
  let text ← (textOfBytes bytes).mapError .decoding
  (parse text p.text).mapError .parse

/-- What reading several files came to: the records of each file before the first failure, and
the failure. -/
structure Loaded where
  files : List (Path × List Record)
  failure : Option LoadError

/-- Reads files until the first failure. -/
def loadUntilFailure (t : FileTree) (cwd : Place) : List Path → Loaded
  | [] => ⟨[], none⟩
  | p :: rest =>
    match loadFile t cwd p with
    | .error e => ⟨[], some e⟩
    | .ok records =>
      let others := loadUntilFailure t cwd rest
      { others with files := (p, records) :: others.files }

/-- The records of several files, in order. -/
def load (t : FileTree) (cwd : Place) (paths : List Path) : Except LoadError (List Record) :=
  let loaded := loadUntilFailure t cwd paths
  match loaded.failure with
  | some e => .error e
  | none => .ok (loaded.files.flatMap Prod.snd)

end Declaration

end CheckRegistry
