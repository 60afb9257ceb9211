import CheckRegistry.Check.Basic
import CheckRegistry.Label
import CheckRegistry.Text.Blank
import CheckRegistry.Text.LineEnd

/-!
# Links

A finding is shown with a link, unless its check wants none.  The link of a custom check is the
one it declares.  Otherwise it is the check's page on the documentation site, which exists only
for names that the site can host: ASCII letters and digits, underscore, period and dash.
-/

namespace CheckRegistry

namespace Link

/-- The documentation site used when no other is configured. -/
def defaultSite : String := "https://errorprone.info"

/-- The error of a name that the documentation site cannot host. -/
structure Missing where
  name : String
  deriving DecidableEq, Repr

/-- The wording of the error. -/
def Missing.message (e : Missing) : String :=
  labelled e.name ("cannot derive a documentation URL from name " ++ Text.quoted e.name)

/-- Whether a character may stand in the address of a page and in the name of its file. -/
def isSlugChar (c : Char) : Bool := c.isAlphanum || c == '_' || c == '.' || c == '-'

/-- Whether all characters may stand in an address and there is at least one. -/
def isSlug (s : List Char) : Bool := !s.isEmpty && s.all isSlugChar

/-- Whether the site can host a name.  A single line feed at the end of a name does not count
against it, and the two names of directories do. -/
def isHostable (name : String) : Bool :=
  isSlug (Text.dropFinalNewline name.toList) && name != "." && name != ".."

/-- The address of a check's page on a documentation site. -/
def canonical (site name : String) : Except Missing String :=
  if isHostable name then .ok (Text.dropEndChar '/' site ++ "/bugpattern/" ++ name)
  else .error ⟨name⟩

end Link

namespace Check

/-- The link shown with a check's findings, if there is one. -/
def link? (c : Check) (site : String) : Except Link.Missing (Option String) :=
  match c.linkType with
  | .none => .ok none
  | .custom => .ok (some c.link)
  | .autogenerated => some <$> Link.canonical site c.name

/-- What is shown for one finding: the check, how severe it is, the message, which is the summary
when there is nothing more specific to say, and the link. -/
structure Diagnostic where
  check : String
  severity : Severity
  message : String
  link : Option String
  deriving DecidableEq, Repr

/-- The finding of a check with a message of its own or without. -/
def diagnostic (c : Check) (message : Option String) (site : String) :
    Except Link.Missing Diagnostic :=
  (c.link? site).map fun link => ⟨c.name, c.severity, message.getD c.summary, link⟩

end Check

end CheckRegistry
