import CheckRegistry.Text.Blank
import CheckRegistry.Text.Letter

/-!
# Closed vocabularies

Some fields of a check take one of a few fixed words, such as the severity.  A vocabulary gives
its words in upper case with underscores; a declaration may write a word in any case and with
white space around it.
-/

namespace CheckRegistry

/-- A type whose elements are the words of a closed vocabulary. -/
class Vocabulary (α : Type) where
  /-- The name of the vocabulary itself. -/
  title : String
  /-- The words in the order in which messages list them. -/
  members : List α
  /-- The upper case spelling of a word. -/
  word : α → String

namespace Vocabulary

variable {α : Type} [Vocabulary α]

/-- The lower case spelling of a word. -/
def lowerWord (a : α) : String := (word a).toLower

/-- The words separated by commas. -/
def choices (α : Type) [Vocabulary α] : String :=
  ", ".intercalate ((members : List α).map word)

/-- The word that a text spells, whatever the case and the white space around it. -/
def read? (s : String) : Option α :=
  let key := Text.trim s
  members.find? fun a => Text.upper key == word a || Text.lower key == lowerWord a

end Vocabulary

end CheckRegistry
