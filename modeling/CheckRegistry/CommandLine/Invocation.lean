import CheckRegistry.CommandLine.Grammar
import CheckRegistry.Vocabulary.Words

/-!
# Invocations

What can be asked for on the command line: to validate declaration files, to list the checks in
them, to group these by tag, to say whether a finding of one is suppressed, or to write the
documentation.  `Request.ofWords` reads a command line as such a request or says why it is none.
-/

namespace CheckRegistry.CommandLine

/-- The name of the program. -/
def program : String := "bugpattern"

/-- The version of the program. -/
def version : String := "0.1.0"

/-- The options of the program and of its commands. -/
inductive Switch
  | help
  | version
  | verbose
  | strict
  | site
  | tag
  | severity
  | format
  | check
  | suppressions
  | annotations
  | exemptErrors
  | output
  | fixtures
  | suffixes
  deriving DecidableEq, Repr

/-- How a listing is written. -/
inductive Format
  | lines
  | json
  deriving DecidableEq, Repr

/-- The name of a format on the command line. -/
def Format.name : Format → String
  | .lines => "text"
  | .json => "json"

/-- All formats. -/
def Format.all : List Format := [.lines, .json]

/-- The commands. -/
inductive Command
  | validate
  | list
  | tags
  | suppressed
  | docs
  deriving DecidableEq, Repr

namespace Command

/-- All commands. -/
def all : List Command := [.validate, .list, .tags, .suppressed, .docs]

/-- The name of a command on the command line. -/
def name : Command → String
  | .validate => "validate"
  | .list => "list"
  | .tags => "tags"
  | .suppressed => "suppressed"
  | .docs => "docs"

/-- The command with a given name. -/
def ofName? (name : String) : Option Command := all.find? fun c => c.name == name

/-- The option that asks for help. -/
def helpRule : OptionRule Switch :=
  { option := .help, spellings := ["-h", "--help"], isFinal := true }

/-- The options of every command. -/
def commonRules : Grammar Switch :=
  [helpRule,
   { option := .strict, spellings := ["--strict"] },
   { option := .site, spellings := ["--site-base"], arity := .one }]

/-- The options of one command. -/
def ownRules : Command → Grammar Switch
  | .validate | .tags => []
  | .list =>
    [{ option := .tag, spellings := ["--tag"], arity := .one },
     { option := .severity, spellings := ["--severity"], arity := .one,
       choices := some ((Vocabulary.members : List Severity).map Vocabulary.word) },
     { option := .format, spellings := ["-f", "--format"], arity := .one,
       choices := some (Format.all.map Format.name) }]
  | .suppressed =>
    [{ option := .check, spellings := ["--check"], arity := .one },
     { option := .suppressions, spellings := ["--suppress-warnings"], arity := .many },
     { option := .annotations, spellings := ["--annotation"], arity := .many },
     { option := .exemptErrors, spellings := ["--exempt-errors"] }]
  | .docs =>
    [{ option := .output, spellings := ["-o", "--output"], arity := .one },
     { option := .fixtures, spellings := ["--fixtures"], arity := .one },
     { option := .suffixes, spellings := ["--suffix"], arity := .many }]

/-- The options that a command knows. -/
def grammar (c : Command) : Grammar Switch := commonRules ++ c.ownRules

end Command

/-- The options that may stand before a command. -/
def programRules : Grammar Switch :=
  [Command.helpRule,
   { option := .version, spellings := ["--version"], isFinal := true },
   { option := .verbose, spellings := ["-v", "--verbose"] }]

/-- What is to be done with the checks of the declaration files. -/
inductive Task
  /-- Report what was left out and what is doubtful. -/
  | validate
  /-- List the checks, perhaps only those with a tag or of a severity. -/
  | list (tag : Option String) (severity : Option Severity) (format : Format)
  /-- Show the checks of each tag. -/
  | tags
  /-- Say whether a finding of a check is suppressed where some suppressions and annotation types
  are visible.  The option for the check has to be there, but may be without a value. -/
  | suppressed (check : Option String) (names annotations : List String)
  /-- Write the documentation into a directory, with examples from the fixtures below another,
  perhaps only those with certain suffixes.  The option for the directory has to be there, but may
  be without a value. -/
  | docs (output : Option String) (fixtures : Option String) (suffixes : Option (List String))
  deriving DecidableEq, Repr

/-- One invocation of the program. -/
structure Invocation where
  /-- How often more messages were asked for. -/
  verbosity : Nat := 0
  /-- The declaration files. -/
  files : List String
  /-- Whether warnings are taken as fatal, whatever the environment says. -/
  strict : Bool := false
  /-- The documentation site, if not the one of the environment. -/
  site : Option String := none
  /-- Whether errors ignore ordinary suppression, whatever the environment says. -/
  exemptErrors : Bool := false
  task : Task
  deriving DecidableEq, Repr

/-- What a command line asks for. -/
inductive Request
  /-- How the program is used. -/
  | help
  /-- Which version it is. -/
  | version
  | run (i : Invocation)
  deriving DecidableEq, Repr

/-- A value that was given and is not empty. -/
def ofNonempty (value : Option String) : Option String := value.filter (· != "")

/-- The value, if any, of an option that has to be there. -/
def needed (r : Reading Switch) (option : Switch) (title : String) :
    Except UsageError (Option String) :=
  if r.has option then .ok (r.value? option) else .error (.missing title)

/-- The task of a command with its options. -/
def Task.ofReading (r : Reading Switch) : Command → Except UsageError Task
  | .validate => .ok .validate
  | .tags => .ok .tags
  | .list =>
    .ok (.list (ofNonempty (r.value? .tag))
      ((r.value? .severity).bind fun v => Vocabulary.members.find? fun s => Vocabulary.word s == v)
      (((r.value? .format).bind fun v => Format.all.find? fun f => f.name == v).getD .lines))
  | .suppressed =>
    (needed r .check "--check").map fun check =>
      .suppressed check ((r.values? .suppressions).getD []) ((r.values? .annotations).getD [])
  | .docs =>
    (needed r .output "-o/--output").map fun output =>
      .docs output (ofNonempty (r.value? .fixtures))
        ((r.values? .suffixes).filter fun suffixes => !suffixes.isEmpty)

/-- The invocation that a command with its options makes. -/
def Invocation.ofReading (verbosity : Nat) (command : Command) (r : Reading Switch) :
    Except UsageError Invocation :=
  match r.arguments with
  | none => .error (.missing "FILE")
  | some files =>
    (Task.ofReading r command).map fun task =>
      { verbosity, files, strict := r.has .strict, site := ofNonempty (r.value? .site),
        exemptErrors := r.has .exemptErrors, task }

namespace Request

/-- The request made by an option after which nothing is looked at. -/
def ofFinal : Switch → Request
  | .version => .version
  | _ => .help

/-- What came of reading, once it has ended early or was carried on. -/
def ofResult (result : Except (Ending Switch) (Reading Switch))
    (carryOn : Reading Switch → Except UsageError Request) : Except UsageError Request :=
  match result with
  | .ok r => carryOn r
  | .error (.final option) => .ok (ofFinal option)
  | .error (.refused e) => .error e

/-- Refuses words without a use. -/
def withoutSurplus (surplus : List String) (request : Request) : Except UsageError Request :=
  if surplus.isEmpty then .ok request else .error (.surplus surplus)

/-- Reads what stands before the command, and then the command with its own options. -/
def ofWords (words : List String) : Except UsageError Request :=
  ofResult (programRules.readUpToCommand words) fun general =>
    match general.arguments with
    | none | some [] => .error .noCommand
    | some (name :: rest) =>
      match Command.ofName? name with
      | none => .error (.unknownCommand name)
      | some command =>
        ofResult (command.grammar.read rest) fun r =>
          match Invocation.ofReading (general.count .verbose) command r with
          | .error e => .error e
          | .ok i => withoutSurplus (general.surplus ++ r.surplus) (.run i)

end Request

example : (Request.ofWords ["-vv", "list", "-fjson", "a.bp", "--tag=x"]).toOption =
    some (.run { verbosity := 2, files := ["a.bp"], task := .list (some "x") none .json }) := by
  decide +kernel

example : (Request.ofWords ["docs", "-o", "site", "--suffix", ".c", "--", "-x"]).toOption =
    some (.run { files := ["-x"], task := .docs (some "site") none (some [".c"]) }) := rfl

/-- Two dashes attached to an option take its value away. -/
example : (Request.ofWords ["-v=v", "list", "--tag", "x", "--tag=--", "a.bp"]).toOption =
    some (.run { verbosity := 2, files := ["a.bp"], task := .list none none .lines }) := by
  decide +kernel

/-- The beginning of an option has to mean one option, even behind the command. -/
example : (Request.ofWords ["tags", "a.bp", "--ver"]).toOption = none := rfl

end CheckRegistry.CommandLine
