import QueryResult.Event

/-!
# Logging

A session writes the events that reach the level of its logger to its log, as
long as a logger is installed.

A logger can be registered, installed, both or neither. Starting to log
installs the registered logger if there is one; else it makes a new one. The
registered and the installed logger are the same one whenever both exist, so
one level is enough.
-/

set_option autoImplicit false

namespace QueryResult

/-- Where the logger used after a start came from. -/
inductive LoggerSource
  /-- It is the first one of the session. -/
  | first
  /-- It is the one of the previous start. -/
  | reused
  /-- It replaces the one of the previous start. -/
  | new
  deriving DecidableEq, Repr

structure Logging where
  /-- The level of the registered or installed logger. -/
  level : LogLevel
  /-- Whether events are written. -/
  installed : Bool
  /-- Whether the next start finds the logger again. -/
  registered : Bool
  /-- Whether logging was started before. -/
  started : Bool
  deriving DecidableEq, Repr

namespace Logging

def initial : Logging := ⟨.info, false, false, false⟩

/-- Starts logging with the registered logger or with a new one, whose level the setting names.
A setting that names no level leaves the new logger installed at its own level, unregistered. -/
def start (logging : Logging) (levelName : Except Fault String) :
    Except Fault LoggerSource × Logging :=
  if logging.registered then
    (.ok .reused, { logging with installed := true })
  else
    match levelName with
    | .error fault => (.error fault, { logging with level := .info, installed := true })
    | .ok name =>
        (.ok (if logging.started then .new else .first), ⟨LogLevel.ofName name, true, true, true⟩)

/-- Changes the level of the installed logger, if there is one. -/
def setLevel (logging : Logging) (level : LogLevel) : Logging :=
  if logging.installed then { logging with level := level } else logging

/-- Forgets the registered logger; it stays installed. -/
def unregister (logging : Logging) : Logging :=
  { logging with registered := false }

/-- Takes the logger out of use; it stays registered. -/
def uninstall (logging : Logging) : Logging :=
  { logging with installed := false }

/-- The level of the installed logger. -/
def installedLevel? (logging : Logging) : Option LogLevel :=
  if logging.installed then some logging.level else none

/-- The lines that events leave in the log. -/
def lines (logging : Logging) (events : List Event) : List (LogLevel × String) :=
  match logging.installedLevel? with
  | none => []
  | some level =>
      (events.filter fun event => decide (level.rank ≤ event.level.rank)).map fun event =>
        (event.level, event.text)

end Logging

end QueryResult
