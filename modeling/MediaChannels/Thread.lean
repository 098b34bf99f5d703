/-!
# Scheduling and logging of threads

The scheduling class of a thread as a nice value, and the numeric log level of the settings as the name of a filter.
-/

namespace MediaChannels

/-- Scheduling classes, least urgent first. -/
inductive ThreadPriority where
  | low
  | normal
  | high
  | critical
  deriving DecidableEq, Repr

/-- The nice value of a class; smaller ones come first. -/
def ThreadPriority.nice : ThreadPriority → Int
  | low => 10
  | normal => 0
  | high => -5
  | critical => -10

/-- The filter for a log level; there is nothing above errors. -/
def logDirective (level : UInt8) : String :=
  if level = 0 then "trace"
  else if level = 1 then "debug"
  else if level = 2 then "info"
  else if level = 3 then "warn"
  else "error"

end MediaChannels
