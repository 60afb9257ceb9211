import CheckRegistry.Link
import CheckRegistry.Suppression
import CheckRegistry.Text.Letter

/-!
# Configuration

The site, the strictness and the exemption of errors can be set in the environment.  A switch is
set by one of a few words in any case; an empty value turns it off, and a value that is no such
word is refused.
-/

namespace CheckRegistry

/-- The settings of a registry and of what is done with it. -/
structure Config where
  /-- The root of the documentation site. -/
  site : String := Link.defaultSite
  /-- Whether warnings are taken as fatal. -/
  strict : Bool := false
  /-- Whether errors ignore ordinary suppression. -/
  exemptErrors : Bool := false
  deriving DecidableEq, Repr

namespace Config

/-- The error of a switch whose value is no word for on or off. -/
structure BadSwitch where
  key : String
  value : String
  deriving DecidableEq, Repr

/-- The wording of the error. -/
def BadSwitch.message (e : BadSwitch) : String :=
  e.key ++ ": expected a boolean, got " ++ Text.quoted e.value

/-- The variables of an environment.  A later setting of a variable replaces an earlier one. -/
abbrev Environment := List (String × String)

/-- The value of a variable. -/
def Environment.get? (env : Environment) (key : String) : Option String := env.reverse.lookup key

/-- The variable of the documentation site. -/
def siteVariable : String := "BUGPATTERN_SITE_BASE"

/-- The variable that takes warnings as fatal. -/
def strictVariable : String := "BUGPATTERN_STRICT"

/-- The variable that exempts errors from ordinary suppression. -/
def exemptVariable : String := "BUGPATTERN_EXEMPT_ERRORS"

/-- The words that turn a switch on. -/
def onWords : List String := ["1", "true", "yes", "on"]

/-- The words that turn a switch off. -/
def offWords : List String := ["0", "false", "no", "off", ""]

/-- Reads a switch, which keeps its value when the environment does not set it. -/
def switch (env : Environment) (key : String) (unset : Bool) : Except BadSwitch Bool :=
  match env.get? key with
  | none => .ok unset
  | some raw =>
    let word := Text.lower (Text.trim raw)
    if onWords.contains word then .ok true
    else if offWords.contains word then .ok false
    else .error ⟨key, raw⟩

/-- The settings after the environment has been applied to them. -/
def ofEnvironment (env : Environment) (base : Config) : Except BadSwitch Config := do
  let strict ← switch env strictVariable base.strict
  let exemptErrors ← switch env exemptVariable base.exemptErrors
  return { site := (env.get? siteVariable).getD base.site, strict, exemptErrors }

/-- What is doubtful about the settings. -/
def warnings (c : Config) : List String :=
  (if "http://".isPrefixOf c.site || "https://".isPrefixOf c.site then []
  else ["site_base should be an http(s) URL, got " ++ Text.quoted c.site]) ++
  (if c.site.toList.getLast? = some '/' then ["site_base should not end with '/'"] else [])

/-- How suppressions are applied under the settings. -/
def policy (c : Config) : Policy := ⟨c.exemptErrors⟩

end Config

end CheckRegistry
