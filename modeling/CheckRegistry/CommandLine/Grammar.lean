import CheckRegistry.Text.Digit
import CheckRegistry.Text.LineEnd

/-!
# Words of a command line

A command line is a list of words, of which some are options, some are values of options and the
others are arguments.  Which is which depends on a `Grammar`, the options that are known and how
many values each takes.  An option may be shortened as long as only one is meant, have its value
attached, and share a dash with other options of one letter.

A command line is cut at its options into a block of plain words and segments, an option with the
plain words behind it.  Reading goes through the segments once: an option takes its values from
its own block, and what it leaves there is arguments.
-/

namespace CheckRegistry.CommandLine

/-- How many values an option takes. -/
inductive Arity
  | none
  | one
  | many
  deriving DecidableEq, Repr

/-- One option of a grammar. -/
structure OptionRule (α : Type) where
  option : α
  /-- Its spellings: a dash and a letter, or two dashes and a word. -/
  spellings : List String
  arity : Arity := .none
  /-- The values that it takes, if it does not take all. -/
  choices : Option (List String) := none
  /-- Whether nothing after it is looked at, as with a request for help. -/
  isFinal : Bool := false

/-- The options that may occur. -/
abbrev Grammar (α : Type) := List (OptionRule α)

/-- Why a command line is refused. -/
inductive UsageError
  /-- A shortened option may mean several. -/
  | ambiguous (word : String)
  /-- A value is attached to an option that takes none. -/
  | unexpectedValue (option value : String)
  | missingValue (option : String)
  | badChoice (option value : String)
  | missing (what : String)
  | noCommand
  | unknownCommand (name : String)
  /-- Words that are neither known options nor wanted as arguments. -/
  | surplus (words : List String)
  deriving DecidableEq, Repr

/-- The wording of the refusal. -/
def UsageError.message : UsageError → String
  | .ambiguous word => "ambiguous option: " ++ word
  | .unexpectedValue option value => "option " ++ option ++ " takes no value, got " ++ value
  | .missingValue option => "option " ++ option ++ " expects a value"
  | .badChoice option value => "invalid value for option " ++ option ++ ": " ++ value
  | .missing what => "missing: " ++ what
  | .noCommand => "no command given"
  | .unknownCommand name => "unknown command: " ++ name
  | .surplus words => "unrecognized arguments: " ++ " ".intercalate words

/-- A known option as it was written. -/
structure Written (α : Type) where
  rule : OptionRule α
  /-- The spelling that was meant. -/
  spelling : String
  /-- The text attached to it, with an equals sign between them or without. -/
  attached : Option (List Char)

/-- What a word is by itself. -/
inductive WordKind (α : Type)
  | plain
  | option (o : Written α)
  | unknownOption

namespace Grammar

variable {α : Type}

/-- All spellings with their options. -/
def spellings (g : Grammar α) : List (String × OptionRule α) :=
  g.flatMap fun rule => rule.spellings.map fun s => (s, rule)

/-- The option with a given spelling. -/
def find? (g : Grammar α) (spelling : String) : Option (OptionRule α) := g.spellings.lookup spelling

/-- Cuts a word at its first equals sign, if it has one. -/
def cutAtEquals (word : String) : String × Option (List Char) :=
  (String.ofList (word.toList.takeWhile (· != '=')),
   match word.toList.dropWhile (· != '=') with
   | [] => none
   | _ :: value => some value)

/-- The options that a word may be short for.  After two dashes a beginning of the spelling is
enough.  After one dash a letter is the option and the rest is attached to it. -/
def candidates (g : Grammar α) (word : String) : List (Written α) :=
  match word.toList with
  | '-' :: '-' :: _ =>
    let (name, value) := cutAtEquals word
    g.spellings.filterMap fun (s, rule) =>
      if name.toList.isPrefixOf s.toList then some ⟨rule, s, value⟩ else none
  | dash :: letter :: rest =>
    g.spellings.filterMap fun (s, rule) =>
      if s.toList = [dash, letter] then some ⟨rule, s, some rest⟩ else none
  | _ => []

/-- Whether a word is a dash and a decimal number, which a single line feed may follow. -/
def isNegativeNumber (word : String) : Bool :=
  match Text.dropFinalNewline word.toList with
  | '-' :: digits =>
    match digits.dropWhile Text.isDigit with
    | [] => !digits.isEmpty
    | '.' :: fraction => !fraction.isEmpty && fraction.all Text.isDigit
    | _ => false
  | _ => false

/-- What a word is that begins with a dash and is no exact spelling. -/
def classifyInexact (g : Grammar α) (word : String) : Except UsageError (WordKind α) :=
  match g.candidates word with
  | [o] => .ok (.option o)
  | _ :: _ :: _ => .error (.ambiguous word)
  | [] =>
    .ok (if isNegativeNumber word || word.toList.contains ' ' then .plain else .unknownOption)

/-- What a word is: an option if it begins with a dash, unless it is a single dash, a negative
number, or a text with a space that means no option. -/
def classify (g : Grammar α) (word : String) : Except UsageError (WordKind α) :=
  if word.toList.head? ≠ some '-' then .ok .plain
  else
    match g.find? word with
    | some rule => .ok (.option ⟨rule, word, none⟩)
    | none =>
      if word = "-" then .ok .plain
      else
        match cutAtEquals word with
        | (name, some value) =>
          match g.find? name with
          | some rule => .ok (.option ⟨rule, name, some value⟩)
          | none => g.classifyInexact word
        | (_, none) => g.classifyInexact word

end Grammar

/-- A word that is no option. -/
inductive Plain
  | word (s : String)
  /-- Two dashes, after which every word is plain. -/
  | dashes
  deriving DecidableEq, Repr

namespace Plain

/-- The word as it was written. -/
def text : Plain → String
  | word s => s
  | dashes => "--"

/-- The word that may be an argument or a value. -/
def word? : Plain → Option String
  | word s => some s
  | dashes => none

end Plain

/-- An option and the plain words up to the next one. -/
structure Segment (α : Type) where
  /-- The option as it was written. -/
  text : String
  /-- What it means, if it is known. -/
  written : Option (Written α)
  block : List Plain

/-- All words of a segment. -/
def Segment.words {α : Type} (s : Segment α) : List String := s.text :: s.block.map Plain.text

/-- A command line cut at its options. -/
structure Cut (α : Type) where
  /-- The plain words before the first option. -/
  block : List Plain
  segments : List (Segment α)

namespace Cut

variable {α : Type}

/-- Puts a plain word in front. -/
def addPlain (p : Plain) (c : Cut α) : Cut α := { c with block := p :: c.block }

/-- Puts an option in front, which gets the block of plain words. -/
def addOption (text : String) (written : Option (Written α)) (c : Cut α) : Cut α :=
  ⟨[], ⟨text, written, c.block⟩ :: c.segments⟩

end Cut

/-- Cuts a command line at its options. -/
def Grammar.cut {α : Type} (g : Grammar α) : List String → Except UsageError (Cut α)
  | [] => .ok ⟨[], []⟩
  | word :: rest =>
    if word = "--" then .ok ⟨.dashes :: rest.map .word, []⟩
    else
      match g.classify word with
      | .error e => .error e
      | .ok .plain => (Cut.addPlain (.word word)) <$> g.cut rest
      | .ok (.option o) => (Cut.addOption word (some o)) <$> g.cut rest
      | .ok .unknownOption => (Cut.addOption word none) <$> g.cut rest

/-- Reads the text attached to an option: the options that the two stand for, with the attached
value of each.  An option that takes values gets the text as its value.  Attached to one of a
single letter that takes none, the text is more letters of such options. -/
def Grammar.spread {α : Type} (g : Grammar α) (rule : OptionRule α) (spelling : String) :
    List Char → Except UsageError (List (OptionRule α × Option String))
  | [] =>
    if rule.arity = .none then .error (.unexpectedValue spelling "")
    else .ok [(rule, some "")]
  | letter :: rest =>
    if rule.arity ≠ .none then .ok [(rule, some (String.ofList (letter :: rest)))]
    else if spelling.length ≠ 2 then
      .error (.unexpectedValue spelling (String.ofList (letter :: rest)))
    else
      let next := String.ofList ['-', letter]
      match g.find? next with
      | none => .error (.unexpectedValue spelling (String.ofList (letter :: rest)))
      | some other =>
        match rest with
        | [] => .ok [(rule, none), (other, none)]
        | c :: more => ((rule, none) :: ·) <$> g.spread other next (c :: more)

/-- The options that one written option stands for, with their attached values. -/
def Grammar.options {α : Type} (g : Grammar α) (o : Written α) :
    Except UsageError (List (OptionRule α × Option String)) :=
  match o.attached with
  | none => .ok [(o.rule, none)]
  | some text => g.spread o.rule o.spelling text

/-- Why reading ends before the last word. -/
inductive Ending (α : Type)
  /-- An option was met after which nothing is looked at. -/
  | final (option : α)
  | refused (e : UsageError)
  deriving DecidableEq, Repr

/-- What has been read of a command line. -/
structure Reading (α : Type) where
  /-- The options with their values, in order. -/
  taken : List (α × List String) := []
  /-- The arguments, once there are any. -/
  arguments : Option (List String) := none
  /-- Words without a use. -/
  surplus : List String := []
  deriving Repr

namespace Reading

variable {α : Type}

/-- The values of the last occurrence of an option. -/
def values? [BEq α] (r : Reading α) (option : α) : Option (List String) :=
  r.taken.reverse.lookup option

/-- The value of the last occurrence of an option that takes one, if it has one. -/
def value? [BEq α] (r : Reading α) (option : α) : Option String :=
  (r.values? option).bind List.head?

/-- The number of occurrences of an option. -/
def count [BEq α] (r : Reading α) (option : α) : Nat := r.taken.countP fun t => t.1 == option

/-- Whether an option occurs. -/
def has [BEq α] (r : Reading α) (option : α) : Bool := (r.values? option).isSome

/-- Adds words without a use. -/
def addSurplus (r : Reading α) (words : List String) : Reading α :=
  { r with surplus := r.surplus ++ words }

/-- Gives a block of plain words to the arguments.  The first block with a word in it is the
arguments, the two dashes left away; all others are without a use. -/
def addBlock (r : Reading α) (block : List Plain) : Reading α :=
  if r.arguments.isNone && block.any (·.word?.isSome) then
    { r with arguments := some (block.filterMap Plain.word?) }
  else r.addSurplus (block.map Plain.text)

/-- Takes an option with its values. -/
def take (r : Reading α) (rule : OptionRule α) (values : List String) :
    Except (Ending α) (Reading α) :=
  match values.find? fun v => rule.choices.any fun choices => !choices.contains v with
  | some v => .error (.refused (.badChoice (rule.spellings.headD "") v))
  | none =>
    if rule.isFinal then .error (.final rule.option)
    else .ok { r with taken := r.taken ++ [(rule.option, values)] }

/-- Takes several options with their values. -/
def takeAll (r : Reading α) : List (OptionRule α × List String) → Except (Ending α) (Reading α)
  | [] => .ok r
  | (rule, values) :: rest =>
    match r.take rule values with
    | .error e => .error e
    | .ok r => takeAll r rest

end Reading

/-- The values that a text attached to an option gives it: the text, unless it is the two dashes,
which give it no value at all. -/
def attachedValues (text : String) : List String := if text = "--" then [] else [text]

/-- The values of an option: the attached one, or as many as it takes from the block behind it.
The rest of the block is left. -/
def OptionRule.valuesFrom {α : Type} (rule : OptionRule α) (attached : Option String)
    (block : List Plain) : Except UsageError (List String × List Plain) :=
  match attached, rule.arity, block with
  | some text, _, block => .ok (attachedValues text, block)
  | none, .none, block => .ok ([], block)
  | none, .one, .word s :: block => .ok ([s], block)
  | none, .one, _ => .error (.missingValue (rule.spellings.headD ""))
  | none, .many, block =>
    .ok ((block.takeWhile (·.word?.isSome)).filterMap Plain.word?,
      block.dropWhile (·.word?.isSome))

/-- The values of several options that share a dash, of which only the last can take any from the
block. -/
def valuesOfAll {α : Type} : List (OptionRule α × Option String) → List Plain →
    Except UsageError (List (OptionRule α × List String) × List Plain)
  | [], block => .ok ([], block)
  | (rule, attached) :: rest, block =>
    match rule.valuesFrom attached block with
    | .error e => .error e
    | .ok (values, block) =>
      (valuesOfAll rest block).map fun (others, block) => ((rule, values) :: others, block)

namespace Grammar

variable {α : Type}

/-- Reads the option of a segment.  What it leaves of the segment's block comes with the
result. -/
def readOption (g : Grammar α) (r : Reading α) (s : Segment α) :
    Except (Ending α) (Reading α × List Plain) :=
  match s.written with
  | none => .ok (r.addSurplus [s.text], s.block)
  | some o =>
    match g.options o with
    | .error e => .error (.refused e)
    | .ok options =>
      match valuesOfAll options s.block with
      | .error e => .error (.refused e)
      | .ok (options, block) => (r.takeAll options).map fun r => (r, block)

/-- Reads segments to their end. -/
def readSegments (g : Grammar α) (r : Reading α) : List (Segment α) → Except (Ending α) (Reading α)
  | [] => .ok r
  | s :: rest =>
    match g.readOption r s with
    | .error e => .error e
    | .ok (r, block) => g.readSegments (r.addBlock block) rest

/-- Reads a command line to its end.  Options may stand before and after the arguments. -/
def read (g : Grammar α) (words : List String) : Except (Ending α) (Reading α) :=
  match g.cut words with
  | .error e => .error (.refused e)
  | .ok c => g.readSegments (Reading.addBlock {} c.block) c.segments

/-- Reads segments up to the first argument.  It and everything behind it are left as they were
written.  `block` is what stands before the segments. -/
def readSegmentsUpTo (g : Grammar α) (r : Reading α) (block : List Plain)
    (segments : List (Segment α)) : Except (Ending α) (Reading α) :=
  if block.any (·.word?.isSome) then
    .ok { r with arguments := some (block.map Plain.text ++ segments.flatMap Segment.words) }
  else
    let r := r.addSurplus (block.map Plain.text)
    match segments with
    | [] => .ok r
    | s :: rest =>
      match g.readOption r s with
      | .error e => .error e
      | .ok (r, block) => g.readSegmentsUpTo r block rest

/-- Reads a command line up to its first argument. -/
def readUpToCommand (g : Grammar α) (words : List String) : Except (Ending α) (Reading α) :=
  match g.cut words with
  | .error e => .error (.refused e)
  | .ok c => g.readSegmentsUpTo {} c.block c.segments

end Grammar

end CheckRegistry.CommandLine
