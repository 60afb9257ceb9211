/-!
# Log messages

What a run tells its operator beside its output.  A message has an importance, and the operator
chooses from which importance on messages are shown.
-/

namespace CheckRegistry

/-- How important a message is. -/
inductive Importance
  | debug
  | info
  | warning
  | error
  deriving DecidableEq, Repr

namespace Importance

/-- The rank of an importance, the least important first. -/
def rank : Importance → Nat
  | .debug => 0
  | .info => 1
  | .warning => 2
  | .error => 3

/-- The upper case name of an importance. -/
def name : Importance → String
  | .debug => "DEBUG"
  | .info => "INFO"
  | .warning => "WARNING"
  | .error => "ERROR"

end Importance

/-- A message and its importance. -/
structure LogEntry where
  importance : Importance
  message : String
  deriving DecidableEq, Repr

/-- The messages of at least a given importance. -/
def LogEntry.shown (least : Importance) (log : List LogEntry) : List LogEntry :=
  log.filter fun e => decide (least.rank ≤ e.importance.rank)

end CheckRegistry
