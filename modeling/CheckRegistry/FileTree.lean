import CheckRegistry.Text.Quoted

/-!
# File trees

Declaration files, test fixtures and documentation pages live in a tree of files.  A `FileTree`
is such a tree as a value: each file has its place, a list of names from the root, and its bytes.
Directories come with the files below them, and may also be there by themselves.  Whatever reads
or writes files is a function of a tree, and fails as a file system would.
-/

namespace CheckRegistry

/-- A place in a file tree: the names on the way from the root. -/
abbrev Place := List String

/-- How a path begins.  Exactly two slashes lead to the same root as one, but are kept as they
were written; three or more are as good as one. -/
inductive Path.Start
  /-- At the working directory. -/
  | here
  | root
  | doubledRoot
  deriving DecidableEq, Repr

/-- A path as it was written: its beginning and the names between its slashes, without empty names
and single periods. -/
structure Path where
  start : Path.Start
  parts : List String
  deriving DecidableEq, Repr

namespace Path

/-- Splits a text at slashes. -/
def splitSlashes (current : List Char) : List Char → List String
  | [] => [String.ofList current.reverse]
  | c :: rest =>
    if c = '/' then String.ofList current.reverse :: splitSlashes [] rest
    else splitSlashes (c :: current) rest

/-- The beginning of a path with some slashes in front. -/
def Start.ofSlashes : Nat → Start
  | 0 => .here
  | 2 => .doubledRoot
  | _ => .root

/-- The slashes that a beginning is written with. -/
def Start.text : Start → String
  | .here => ""
  | .root => "/"
  | .doubledRoot => "//"

/-- Reads a path. -/
def ofText (s : String) : Path :=
  ⟨.ofSlashes (s.toList.takeWhile (· == '/')).length,
   (splitSlashes [] s.toList).filter fun part => part != "" && part != "."⟩

/-- Writes a path. -/
def text (p : Path) : String :=
  if p.start = .here ∧ p.parts.isEmpty then "." else p.start.text ++ "/".intercalate p.parts

/-- The place at which a path begins, seen from a working directory. -/
def origin (p : Path) (cwd : Place) : Place :=
  match p.start with
  | .here => cwd
  | .root | .doubledRoot => []

/-- The path from the root to a place. -/
def ofPlace (place : Place) : Path := ⟨.root, place⟩

/-- The path of an entry of a directory. -/
def child (p : Path) (name : String) : Path := { p with parts := p.parts ++ [name] }

/-- Follows names from a place, a double period leading one step up. -/
def follow (place : Place) : List String → Place
  | [] => place
  | ".." :: rest => follow place.dropLast rest
  | part :: rest => follow (place ++ [part]) rest

/-- The place that a path names, seen from a working directory.  Whether anything is there plays
no part. -/
def resolve (p : Path) (cwd : Place) : Place := follow (p.origin cwd) p.parts

end Path

/-- How a place is shown. -/
def Place.text (place : Place) : String := "/" ++ "/".intercalate place

/-- Why an operation on a file fails. -/
inductive FileError
  | notFound (path : String)
  | exists (path : String)
  | notDirectory (path : String)
  | isDirectory (path : String)
  | nameTooLong (path : String)
  /-- The path holds the character that ends paths. -/
  | nullCharacter
  deriving DecidableEq, Repr

/-- The wording of a file error. -/
def FileError.message : FileError → String
  | .notFound path => "[Errno 2] No such file or directory: " ++ Text.quoted path
  | .exists path => "[Errno 17] File exists: " ++ Text.quoted path
  | .notDirectory path => "[Errno 20] Not a directory: " ++ Text.quoted path
  | .isDirectory path => "[Errno 21] Is a directory: " ++ Text.quoted path
  | .nameTooLong path => "[Errno 36] File name too long: " ++ Text.quoted path
  | .nullCharacter => "embedded null byte"

/-- What is at a place by itself. -/
inductive FileTree.Entry
  | file (bytes : List UInt8)
  | directory
  deriving DecidableEq

/-- A tree of files: its entries with their places, each place at most once. -/
structure FileTree where
  entries : List (Place × FileTree.Entry)
  deriving DecidableEq

namespace FileTree

/-- The tree without entries. -/
def empty : FileTree := ⟨[]⟩

/-- The bytes of the file at a place. -/
def file? (t : FileTree) (place : Place) : Option (List UInt8) :=
  match t.entries.lookup place with
  | some (.file bytes) => some bytes
  | _ => none

/-- Whether there is a file at a place. -/
def isFile (t : FileTree) (place : Place) : Bool := (t.file? place).isSome

/-- Whether there is a directory at a place: the root, a directory by itself, or one that
something lies below. -/
def isDirectory (t : FileTree) (place : Place) : Bool :=
  place.isEmpty || t.entries.any fun (p, e) =>
    (p == place && e == .directory) || (place.isPrefixOf p && p != place)

/-- Puts an entry at a place, in the position of the one that was there. -/
def setEntry (place : Place) (e : Entry) : List (Place × Entry) → List (Place × Entry)
  | [] => [(place, e)]
  | (p, old) :: rest => if p = place then (p, e) :: rest else (p, old) :: setEntry place e rest

/-- Puts a file at a place. -/
def put (t : FileTree) (place : Place) (bytes : List UInt8) : FileTree :=
  ⟨setEntry place (.file bytes) t.entries⟩

/-- Puts a directory at a place, unless there is one. -/
def addDirectory (t : FileTree) (place : Place) : FileTree :=
  if t.isDirectory place then t else ⟨setEntry place .directory t.entries⟩

/-- Removes the entry at a place.  The directory that it was in stays. -/
def remove (t : FileTree) (place : Place) : FileTree :=
  (⟨t.entries.filter fun e => e.1 != place⟩ : FileTree).addDirectory place.dropLast

/-- Whether one place comes before another or is the same: names are compared one by one. -/
def placeLe : Place → Place → Bool
  | [], _ => true
  | _ :: _, [] => false
  | a :: as, b :: bs => if a < b then true else if b < a then false else placeLe as bs

/-- The files below a place with their places seen from there, in the order of those. -/
def filesBelow (t : FileTree) (place : Place) : List (Place × List UInt8) :=
  (t.entries.filterMap fun (p, e) =>
    match e with
    | .file bytes =>
      if place.isPrefixOf p && p != place then some (p.drop place.length, bytes) else none
    | .directory => none).mergeSort fun a b => placeLe a.1 b.1

/-- The longest name of an entry, in bytes. -/
def maxName : Nat := 255

/-- The longest path, in bytes. -/
def maxPath : Nat := 4095

/-- Walks from a place along names.  Each name but the last has to lead to a directory; what the
last leads to, if anything, is for the caller.  `path` is the path as errors show it. -/
def walk (t : FileTree) (path : String) (place : Place) : List String → Except FileError Place
  | [] => .ok place
  | part :: rest =>
    if t.isFile place then .error (.notDirectory path)
    else if !t.isDirectory place then .error (.notFound path)
    else if part.utf8ByteSize > maxName then .error (.nameTooLong path)
    else walk t path (if part = ".." then place.dropLast else place ++ [part]) rest

/-- Finds the place that a path leads to from a working directory. -/
def locate (t : FileTree) (cwd : Place) (p : Path) : Except FileError Place :=
  if p.text.contains (Char.ofNat 0) then .error .nullCharacter
  else if p.text.utf8ByteSize > maxPath then .error (.nameTooLong p.text)
  else t.walk p.text (p.origin cwd) p.parts

/-- Reads a file. -/
def read (t : FileTree) (cwd : Place) (p : Path) : Except FileError (List UInt8) := do
  let place ← t.locate cwd p
  match t.file? place with
  | some bytes => return bytes
  | none => throw (if t.isDirectory place then .isDirectory p.text else .notFound p.text)

/-- Writes a file.  The directory that it goes into has to be there. -/
def write (t : FileTree) (cwd : Place) (p : Path) (bytes : List UInt8) :
    Except FileError FileTree := do
  let place ← t.locate cwd p
  if t.isDirectory place then throw (.isDirectory p.text) else return t.put place bytes

/-- Whether a path leads to a directory. -/
def leadsToDirectory (t : FileTree) (cwd : Place) (p : Path) : Bool :=
  match t.locate cwd p with
  | .ok place => t.isDirectory place
  | .error _ => false

/-- Makes one directory in another that has to be there.  A directory that is already there will
do; a file in its place is an error. -/
def makeOne (t : FileTree) (cwd : Place) (p : Path) : Except FileError FileTree := do
  let place ← t.locate cwd p
  if t.isFile place then throw (.exists p.text) else return t.addDirectory place

/-- Makes the directory that the first `n` names of a path lead to, and those above it that are
missing. -/
def makeUpTo (t : FileTree) (cwd : Place) (p : Path) : Nat → Except FileError FileTree
  | 0 => .ok t
  | n + 1 =>
    let q : Path := { p with parts := p.parts.take (n + 1) }
    match t.makeOne cwd q with
    | .error (.notFound _) => do
      let t ← makeUpTo t cwd p n
      t.makeOne cwd q
    | result => result

/-- Makes a directory and those above it that are missing. -/
def makeDirectories (t : FileTree) (cwd : Place) (p : Path) : Except FileError FileTree :=
  t.makeUpTo cwd p p.parts.length

end FileTree

end CheckRegistry
