/-!
# Labelled messages

An error about a check or about a file begins with its name and a colon.  Where there is no name,
or an empty one, the message stands alone.
-/

namespace CheckRegistry

/-- The message, after the label and a colon unless the label is empty. -/
def labelled (label message : String) : String :=
  if label.isEmpty then message else label ++ ": " ++ message

end CheckRegistry
