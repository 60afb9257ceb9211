import CheckRegistry.Example.Provider
import CheckRegistry.Json
import CheckRegistry.Tag

/-!
# Documentation pages

The page of a check is a Markdown text: front matter, the summary, the explanation, how to
suppress a finding, and the examples that the check flags and those that it leaves alone.
-/

namespace CheckRegistry

namespace Check

/-- The part of a qualified name after its last period. -/
def shortName (s : String) : String :=
  String.ofList (s.toList.reverse.takeWhile (· != '.')).reverse

/-- How a finding of a check is suppressed, in a sentence. -/
def suppressionText (c : Check) : String :=
  match c.suppressibility with
  | .suppressWarnings =>
    "Suppress false positives by adding the suppression annotation \x60@SuppressWarnings(\"" ++
      c.name ++ "\")\x60 to the enclosing element."
  | .customAnnotations =>
    let names := c.annotations.toList.map fun a => "\x60@" ++ shortName a ++ "\x60"
    let listed := ", ".intercalate names
    if names.length = 1 then
      "Suppress false positives by adding an " ++ listed ++
        " annotation to the enclosing element."
    else
      "Suppress false positives by adding any of the following annotations " ++
        "to the enclosing element: " ++ listed ++ "."
  | .unsuppressible => "This check may not be suppressed."

end Check

/-- What the page of a check is made of.  The examples are asked for when the page is. -/
structure Page where
  check : Check
  /-- The link shown with findings, if there is one. -/
  link : Option String
  /-- How to suppress a finding, if the page says so. -/
  suppression : Option String
  /-- Where examples come from, if the page shows examples. -/
  provider : Option Provider

namespace Page

/-- Puts together what the page of a check is made of. -/
def assemble (c : Check) (provider : Option Provider) (site : String) :
    Except Link.Missing Page :=
  (c.link? site).map fun link =>
    { check := c, link,
      suppression := if c.documentSuppression then some c.suppressionText else none,
      provider := if c.generateExamples then provider else none }

/-- The examples of a page, from the file tree as it is now. -/
def examples (p : Page) (t : FileTree) (cwd : Place) : Except PageError (List Example) :=
  match p.provider with
  | none => .ok []
  | some provider => provider.examples t cwd p.check.name

/-- The keys and values at the head of a page. -/
def frontMatter (p : Page) : List (String × String) :=
  [("title", p.check.name), ("summary", p.check.summary), ("layout", "bugpattern"),
   ("tags", ", ".intercalate p.check.effectiveTags.toList),
   ("severity", Vocabulary.word p.check.severity), ("link", p.link.getD "")]

/-- The lines of the front matter. -/
def headLines (p : Page) : List String :=
  ["---"] ++ p.frontMatter.map (fun (key, v) => key ++ ": " ++ Json.string v) ++ ["---"]

/-- The lines that do not depend on examples. -/
def bodyLines (p : Page) : List String :=
  let c := p.check
  ["", "# " ++ c.name, "", c.summary, ""] ++
  (if c.altNames.isEmpty then []
  else ["_Alternate names: " ++ ", ".intercalate c.altNames.toList ++ "_", ""]) ++
  (if Text.isBlankText c.explanation then []
  else ["## The problem", "", Text.trim c.explanation, ""]) ++
  (match p.suppression with
  | some s => ["## Suppression", "", s, ""]
  | none => [])

/-- The line that opens and closes a snippet. -/
def fence : String := "\x60\x60\x60"

/-- The lines of one example: its source, if it has one, and the snippet between fences. -/
def exampleLines (e : Example) : List String :=
  (if e.source.isEmpty then [] else ["__" ++ e.source ++ "__", ""]) ++
  [fence, Text.dropEndChar '\n' e.snippet, fence, ""]

/-- The lines of the examples with one outcome, under a heading if there are any. -/
def groupLines (title : String) (examples : List Example) : List String :=
  if examples.isEmpty then [] else ["## " ++ title, ""] ++ examples.flatMap exampleLines

/-- The lines of the examples. -/
def exampleSection (examples : List Example) : List String :=
  groupLines "Positive examples" (examples.filter fun e => e.outcome == .positive) ++
  groupLines "Negative examples" (examples.filter fun e => e.outcome == .negative)

/-- The text of a page with given examples.  It ends in exactly one line feed. -/
def textWith (p : Page) (examples : List Example) : String :=
  Text.dropEndChar '\n'
    ("\n".intercalate (p.headLines ++ p.bodyLines ++ exampleSection examples)) ++ "\n"

/-- The text of a page, with the examples that its provider has now. -/
def text (p : Page) (t : FileTree) (cwd : Place) : Except PageError String :=
  (p.examples t cwd).map p.textWith

end Page

end CheckRegistry
