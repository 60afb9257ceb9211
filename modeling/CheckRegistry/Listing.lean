import CheckRegistry.Json
import CheckRegistry.Log
import CheckRegistry.Link
import CheckRegistry.Tag

/-!
# Listings

The checks of a registry are listed line by line for people, sorted by name, or as JSON for other
programs, in the order of registration.  The JSON has the whole record of each check, and what
follows from it: the effective tags and the link of its findings.
-/

namespace CheckRegistry

namespace Listing

/-- Fills a text up with spaces at its end. -/
def padEnd (width : Nat) (s : String) : String :=
  s ++ String.ofList (List.replicate (width - s.length) ' ')

/-- The lines about one check: its name, how severe it is and its summary, and its effective
tags if it has any. -/
def checkLines (c : Check) : String :=
  let tags := ", ".intercalate c.effectiveTags.toList
  "  " ++ padEnd 30 c.name ++ " " ++ padEnd 10 (Vocabulary.word c.severity) ++ " " ++ c.summary ++
    "\n" ++
    (if tags.isEmpty then "" else "  " ++ padEnd 30 "" ++ " tags: " ++ tags ++ "\n")

/-- The listing in lines. -/
def lines (checks : List Check) : String := String.join ((Check.sortByName checks).map checkLines)

mutual

/-- A value of a check's record as JSON.  All of these are texts, truth values and lists. -/
def jsonOfValue : Value → Json
  | .text s => .text s
  | .bool b => .bool b
  | .list items => .list (jsonOfValues items)
  | _ => .null

/-- The items of a list as JSON. -/
def jsonOfValues : List Value → List Json
  | [] => []
  | v :: rest => jsonOfValue v :: jsonOfValues rest

end

/-- The row of a check, and a message if its findings have no link although they should. -/
def jsonRow (site : String) (c : Check) : Json × List LogEntry :=
  let (link, log) : Json × List LogEntry :=
    match c.link? site with
    | .ok (some link) => (.text link, [])
    | .ok none => (.null, [])
    | .error e => (.null, [⟨.warning, e.message⟩])
  (.object
    (c.toRecord.map (fun (key, v) => (key, jsonOfValue v)) ++
      [("effectiveTags", jsonOfValue (.ofNames c.effectiveTags)), ("diagnosticLink", link)]),
   log)

/-- The listing as JSON, and the messages about it. -/
def json (site : String) (checks : List Check) : String × List LogEntry :=
  let rows := checks.map (jsonRow site)
  ((Json.list (rows.map Prod.fst)).render 0 ++ "\n", rows.flatMap Prod.snd)

/-- The checks with a tag and of a severity, where these are given. -/
def select (tag : Option String) (severity : Option Severity) (checks : List Check) : List Check :=
  let tagged :=
    match tag with
    | some tag => Check.withTag checks tag
    | none => checks
  match severity with
  | some s => tagged.filter fun c => c.severity == s
  | none => tagged

end Listing

end CheckRegistry
