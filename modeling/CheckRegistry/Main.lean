import CheckRegistry.CommandLine.Run

/-!
# The program

Reads the files that a run may look at into a file tree, carries out the run, and brings the
output, the messages and the changes to the file tree back to the world.
-/

namespace CheckRegistry.CommandLine

/-- The names in the directory at a place. -/
def entryNames (place : Place) : IO (List String) := do
  let here ← IO.currentDir
  return (← (here / place.text).readDir).toList.map (·.fileName)

/-- Reads what is at one place into a tree: a file, or a directory by itself.  The answer says
whether it is a directory. -/
def readPlace (t : FileTree) (place : Place) : IO (FileTree × Bool) := do
  try
    let _ ← entryNames place
    return (t.addDirectory place, true)
  catch _ =>
    try
      let bytes ← IO.FS.readBinFile place.text
      return (t.put place bytes.toList, false)
    catch _ => return (t, false)

/-- Reads everything at and below a place into a tree. -/
partial def readBelow (t : FileTree) (place : Place) : IO FileTree := do
  let (t, isDirectory) ← readPlace t place
  if isDirectory then
    let mut t := t
    for name in ← entryNames place do
      t ← readBelow t (place ++ [name])
    return t
  else return t

/-- Reads what is at a place, and at every place on the way to it, into a tree. -/
def readAlong (t : FileTree) (place : Place) : IO FileTree := do
  let mut t := t
  for n in [1:place.length + 1] do
    t := (← readPlace t (place.take n)).1
  return t

/-- Reads all that an invocation may look at: the declaration files, the output directory with
what is directly in it, and the fixtures. -/
def Invocation.readTree (i : Invocation) (environment : Config.Environment) (homes : Homes)
    (cwd : Place) : IO FileTree := do
  let mut t := FileTree.empty.addDirectory cwd
  for file in i.files do
    if let .ok p := homes.expand environment (Path.ofText file) then
      t ← readAlong t (p.resolve cwd)
  if let .docs (some output) fixtures _ := i.task then
    let place := (Path.ofText output).resolve cwd
    t ← readAlong t place
    if t.isDirectory place then
      for name in ← entryNames place do
        t := (← readPlace t (place ++ [name])).1
    if let some root := fixtures then
      let place := (Path.ofText root).resolve cwd
      t ← readBelow (← readAlong t place) place
  return t

/-- Writes the entries of a tree that were not in an earlier one. -/
def writeChanges (before after : FileTree) : IO Unit := do
  for (place, entry) in after.entries do
    if before.entries.lookup place != some entry then
      match entry with
      | .directory => IO.FS.createDirAll place.text
      | .file bytes =>
        IO.FS.createDirAll (Place.text place.dropLast)
        IO.FS.writeBinFile place.text ⟨bytes.toArray⟩

/-- The variables that are set, of those that a run looks at. -/
def readEnvironment : IO Config.Environment :=
  watchedVariables.filterMapM fun key => do return (← IO.getEnv key).map fun v => (key, v)

/-- The home directories in the list of users, whose lines have the name first and the home
directory sixth. -/
def readHomes : IO Homes := do
  try
    let text ← IO.FS.readFile "/etc/passwd"
    return (text.splitOn "\n").filterMap fun line =>
      match line.splitOn ":" with
      | name :: _ :: _ :: _ :: _ :: home :: _ => some (name, home)
      | _ => none
  catch _ => return []

/-- Runs the program on a command line. -/
def execute (words : List String) : IO UInt32 := do
  let environment ← readEnvironment
  let homes ← readHomes
  let cwd := (Path.ofText (← IO.currentDir).toString).parts
  let tree ←
    match Request.ofWords words with
    | .ok (.run i) => i.readTree environment homes cwd
    | _ => pure FileTree.empty
  match run words { tree, cwd, environment, homes } with
  | .error b =>
    IO.eprintln (program ++ ": error: " ++ b.message)
    return UInt32.ofNat exitComplaint
  | .ok (done, refusal) =>
    writeChanges tree done.tree
    IO.print done.output
    for e in done.log do
      IO.eprintln ("[" ++ e.importance.name ++ "] " ++ program ++ ": " ++ e.message)
    if let some e := refusal then
      IO.eprint (usage ++ program ++ ": error: " ++ e.message ++ "\n")
    return UInt32.ofNat done.code

end CheckRegistry.CommandLine

/-- Runs the program. -/
def main (words : List String) : IO UInt32 := CheckRegistry.CommandLine.execute words
