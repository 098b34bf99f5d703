/-!
# Session states

The coarse lifecycle of a capture session, with its two spellings.
-/

namespace MediaChannels

/-- A session is stopped, starts, runs, and stops. -/
inductive SessionState where
  | stopped
  | starting
  | running
  | stopping
  deriving DecidableEq, Repr

namespace SessionState

/-- The state as users see it. -/
def name : SessionState → String
  | stopped => "STOPPED"
  | starting => "STARTING"
  | running => "RUNNING"
  | stopping => "STOPPING"

/-- The state inside an error message. -/
def label : SessionState → String
  | stopped => "Stopped"
  | starting => "Starting"
  | running => "Running"
  | stopping => "Stopping"

end SessionState

end MediaChannels
