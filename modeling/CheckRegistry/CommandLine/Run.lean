import CheckRegistry.CommandLine.Invocation
import CheckRegistry.Home
import CheckRegistry.Listing
import CheckRegistry.Page.Catalog
import CheckRegistry.Registry.Build

/-!
# Runs

A run reads the settings, finds and loads the declaration files, builds the registry and carries
out its task.  It is a function of the file tree, the working directory and the environment, and
yields an exit code, the output, the messages and the file tree as it is afterwards.

The exit code is 2 if the run failed: then there is no output.  It is 0 if all went well, and 1 if
a check was left out, or has no page, or its finding is not suppressed.

Nothing looks whether the options for a check and for an output directory have their values, nor
whether the home directory that a path begins at is known.  A run that comes to use one that is
missing breaks off, and then it has no exit code of its own.
-/

namespace CheckRegistry.CommandLine

/-- What a run finds around it. -/
structure Surroundings where
  tree : FileTree
  /-- The working directory. -/
  cwd : Place
  environment : Config.Environment
  homes : Homes := []

/-- What a run came to. -/
structure Completed where
  code : Nat
  output : String
  log : List LogEntry
  tree : FileTree

/-- The exit code of a run that went well. -/
def exitFine : Nat := 0

/-- The exit code of a run that went through but has something to complain about. -/
def exitComplaint : Nat := 1

/-- The exit code of a run that failed, and of a refused command line. -/
def exitFailure : Nat := 2

/-- The importance from which on messages are shown. -/
def leastImportance : Nat → Importance
  | 0 => .warning
  | 1 => .info
  | _ => .debug

/-- What a run breaks off at. -/
inductive Breakdown
  /-- A path begins at a home directory that is not known. -/
  | noHome
  /-- The option for the check has no value. -/
  | noCheck
  /-- The option for the output directory has no value. -/
  | noOutput
  deriving DecidableEq, Repr

/-- The wording of a breakdown. -/
def Breakdown.message : Breakdown → String
  | .noHome => "Could not determine home directory."
  | .noCheck => "unhashable type: 'list'"
  | .noOutput => "expected str, bytes or os.PathLike object, not list"

/-- Why a run has no answer. -/
inductive RunFailure
  /-- It failed, for a reason that is reported. -/
  | failed (reason : String)
  | brokenOff (b : Breakdown)
  deriving DecidableEq, Repr

/-- What a task has to say: whether there is nothing to complain about, and the output. -/
structure Answer where
  isFine : Bool
  output : String

/-- What carrying out a task came to. -/
structure Performed where
  tree : FileTree
  log : List LogEntry := []
  /-- The answer, or why there is none. -/
  answer : Except RunFailure Answer

/-- The variables that a run looks at. -/
def watchedVariables : List String :=
  [Config.siteVariable, Config.strictVariable, Config.exemptVariable, Homes.variableName]

/-- The file at a place, as an absolute path.  It has to be there. -/
def findFileAt (t : FileTree) (place : Place) : Except RunFailure Path :=
  let p := Path.ofPlace place
  let missing := RunFailure.failed ("declaration file not found: " ++ p.text)
  match t.locate [] p with
  | .error .nullCharacter => .error (.failed FileError.nullCharacter.message)
  | .error (.nameTooLong path) => .error (.failed (FileError.nameTooLong path).message)
  | .error _ => .error missing
  | .ok place => if t.isFile place then .ok p else .error missing

/-- The file that a path on the command line names, as an absolute path.  A null character is refused
even in a part that double periods take back. -/
def findFile (s : Surroundings) (path : String) : Except RunFailure Path :=
  match s.homes.expand s.environment (Path.ofText path) with
  | .error .unknown => .error (.brokenOff .noHome)
  | .error .nullCharacter => .error (.failed FileError.nullCharacter.message)
  | .ok p =>
    if p.text.contains (Char.ofNat 0) then .error (.failed FileError.nullCharacter.message)
    else findFileAt s.tree (p.resolve s.cwd)

/-- The files that several paths name.  The first that is not there is an error. -/
def findFiles (s : Surroundings) : List String → Except RunFailure (List Path)
  | [] => .ok []
  | path :: rest =>
    match findFile s path with
    | .error e => .error e
    | .ok p => (p :: ·) <$> findFiles s rest

/-- The message about a file that was loaded. -/
def loadedEntry (p : Path) (records : List Record) : LogEntry :=
  ⟨.debug, s!"{p.text}: {records.length} declarations"⟩

namespace Invocation

/-- The settings of a run: those of the environment, where the command line gives no others. -/
def config (i : Invocation) (env : Config.Environment) : Except Config.BadSwitch Config :=
  (Config.ofEnvironment env {}).map fun c =>
    { site := i.site.getD c.site, strict := c.strict || i.strict,
      exemptErrors := c.exemptErrors || i.exemptErrors }

/-- Reads the settings and the declaration files and builds the registry.  The messages up to
there, or up to the failure, come with the result. -/
def prepare (i : Invocation) (s : Surroundings) :
    List LogEntry × Except RunFailure (Config × Build) :=
  match i.config s.environment with
  | .error e => ([], .error (.failed e.message))
  | .ok config =>
    let log : List LogEntry := config.warnings.map fun w => ⟨.warning, "config: " ++ w⟩
    match findFiles s i.files with
    | .error e => (log, .error e)
    | .ok paths =>
      let loaded := Declaration.loadUntilFailure s.tree s.cwd paths
      let log := log ++ loaded.files.map fun (p, records) => loadedEntry p records
      match loaded.failure with
      | some e => (log, .error (.failed e.message))
      | none =>
        let records := loaded.files.flatMap Prod.snd
        let build := Build.ofList (records.map .record) config
        (log ++ build.log, .ok (config, build))

end Invocation

/-- The report on a build. -/
def validationText (b : Build) : String :=
  String.join (b.rejected.map fun r => "rejected " ++ r.text ++ "\n") ++
  String.join (b.warnings.map fun (name, w) => "warning  " ++ name ++ ": " ++ w.text ++ "\n") ++
  s!"\n--- {b.registry.size} check(s) registered, {b.rejected.length} rejected ---\n"

/-- The listing of checks in a format. -/
def listing (site : String) (checks : List Check) : Format → String × List LogEntry
  | .lines => (Listing.lines checks, [])
  | .json => Listing.json site checks

/-- The tags with the number of their checks and their names. -/
def tagsText (checks : List Check) : String :=
  String.join ((Check.groupByTag checks).map fun (tag, group) =>
    s!"{tag} ({group.length}): " ++ ", ".intercalate (sortTexts (group.map Check.name)) ++ "\n")

/-- The sentence on whether a finding of a check is suppressed. -/
def suppressedText (c : Check) (suppressed : Bool) : String :=
  c.name ++ " (" ++ Vocabulary.word c.suppressibility ++ "): " ++
    (if suppressed then "suppressed" else "not suppressed") ++ "\n"

/-- Says whether a finding of a check is suppressed in a scope. -/
def suppressedAnswer (config : Config) (b : Build) (scope : Scope) :
    Option String → Except RunFailure Answer
  | none => .error (.brokenOff .noCheck)
  | some check =>
    match b.registry.get? check with
    | none => .error (.failed ("no such check: " ++ check))
    | some c =>
      let suppressed := config.policy.isSuppressed c scope
      .ok ⟨suppressed, suppressedText c suppressed⟩

/-- The report on a documentation pass, with the output directory as it was given. -/
def documentationText (output : String) (pass : Catalog.Pass) : String :=
  let failed := pass.failed.mergeSort fun a b => decide (a.1 ≤ b.1)
  String.join (failed.map fun (name, reason) => "failed   " ++ name ++ ": " ++ reason ++ "\n") ++
  s!"\n--- {pass.written.length} file(s) written to {output}, " ++
    s!"{pass.failed.length} failure(s) ---\n"

/-- Where the examples of the documentation come from. -/
def providerOf (fixtures : Option String) (suffixes : Option (List String)) : Provider :=
  match fixtures with
  | some root => .fixtures (Path.ofText root) suffixes
  | none => .none

/-- Writes the documentation.  What was written before a failure stays. -/
def document (s : Surroundings) (config : Config) (b : Build) (output : String)
    (provider : Provider) : Performed :=
  match Catalog.generate b.registry.checks (some provider) config.site s.tree s.cwd
      (Path.ofText output) with
  | .error (e, pass) => { tree := pass.tree, log := pass.log, answer := .error (.failed e.message) }
  | .ok pass =>
    { tree := pass.tree, log := pass.log,
      answer := .ok ⟨pass.failed.isEmpty && b.isOk, documentationText output pass⟩ }

/-- Carries out a task on a build. -/
def Task.perform (s : Surroundings) (config : Config) (b : Build) : Task → Performed
  | .validate => { tree := s.tree, answer := .ok ⟨b.isOk, validationText b⟩ }
  | .list tag severity format =>
    let (output, log) := listing config.site (Listing.select tag severity b.registry.checks) format
    { tree := s.tree, log, answer := .ok ⟨b.isOk, output⟩ }
  | .tags => { tree := s.tree, answer := .ok ⟨b.isOk, tagsText b.registry.checks⟩ }
  | .suppressed check names annotations =>
    { tree := s.tree, answer := suppressedAnswer config b (.of names annotations) check }
  | .docs none _ _ => { tree := s.tree, answer := .error (.brokenOff .noOutput) }
  | .docs (some output) fixtures suffixes =>
    document s config b output (providerOf fixtures suffixes)

namespace Invocation

/-- What a run came to, from its messages and its answer or failure.  The reason of a failure is
the last message. -/
def conclude (i : Invocation) (tree : FileTree) (log : List LogEntry) :
    Except RunFailure Answer → Except Breakdown Completed
  | .ok answer =>
    .ok { code := if answer.isFine then exitFine else exitComplaint, output := answer.output, tree,
          log := LogEntry.shown (leastImportance i.verbosity) log }
  | .error (.failed reason) =>
    .ok { code := exitFailure, output := "", tree,
          log := LogEntry.shown (leastImportance i.verbosity) (log ++ [⟨.error, reason⟩]) }
  | .error (.brokenOff b) => .error b

/-- Carries out an invocation. -/
def run (i : Invocation) (s : Surroundings) : Except Breakdown Completed :=
  match i.prepare s with
  | (log, .error failure) => i.conclude s.tree log (.error failure)
  | (log, .ok (config, build)) =>
    let performed := i.task.perform s config build
    i.conclude performed.tree (log ++ performed.log) performed.answer

end Invocation

/-- How the program is used. -/
def usage : String :=
  "usage: " ++ program ++ " [-h] [--version] [-v] COMMAND FILE... [options]\n\ncommands: " ++
    ", ".intercalate (Command.all.map Command.name) ++ "\n"

/-- Carries out what a command line asks for.  A refused command line yields no output; the
reason is for the caller to show. -/
def run (words : List String) (s : Surroundings) :
    Except Breakdown (Completed × Option UsageError) :=
  match Request.ofWords words with
  | .error e => .ok (⟨exitFailure, "", [], s.tree⟩, some e)
  | .ok .help => .ok (⟨exitFine, usage, [], s.tree⟩, none)
  | .ok .version => .ok (⟨exitFine, program ++ " " ++ version ++ "\n", [], s.tree⟩, none)
  | .ok (.run i) => (i.run s).map fun done => (done, none)

end CheckRegistry.CommandLine
