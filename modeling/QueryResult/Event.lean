import QueryResult.Fault

/-!
# Events

Operations report what they did as events. An event has a level and a text
under which it can be logged.
-/

set_option autoImplicit false

namespace QueryResult

/-- Log levels, from the most talkative to silence. -/
inductive LogLevel
  | trace
  | debug
  | info
  | warning
  | error
  | critical
  | off
  deriving DecidableEq, Repr

namespace LogLevel

def rank : LogLevel → Nat
  | .trace => 0
  | .debug => 1
  | .info => 2
  | .warning => 3
  | .error => 4
  | .critical => 5
  | .off => 6

def name : LogLevel → String
  | .trace => "trace"
  | .debug => "debug"
  | .info => "info"
  | .warning => "warning"
  | .error => "error"
  | .critical => "critical"
  | .off => "off"

/-- The level with a given name. Two levels have a short name as well; an unknown name means
silence. -/
def ofName : String → LogLevel
  | "trace" => .trace
  | "debug" => .debug
  | "info" => .info
  | "warning" | "warn" => .warning
  | "error" | "err" => .error
  | "critical" => .critical
  | _ => .off

end LogLevel

/-- What an operation reports. -/
inductive Event
  /-- A large object was registered with a context, which now holds `live` of them. -/
  | largeObjectRegistered (handle live : Nat)
  | indexBuilt (rows distinct : Nat)
  /-- The first `ordered` of `rows` rows were put in order. -/
  | rowsSorted (ordered rows : Nat)
  | finalized (before after : Nat)
  | thresholdReached (threshold : UInt64)
  /-- A programming error was found; its text is not part of the log. -/
  | programmingError
  deriving DecidableEq, Repr

namespace Event

def level : Event → LogLevel
  | .largeObjectRegistered .. => .trace
  | .indexBuilt .. | .rowsSorted .. | .finalized .. => .debug
  | .thresholdReached _ => .warning
  | .programmingError => .critical

def text : Event → String
  | .largeObjectRegistered handle live =>
      "Registered temporary LOB #" ++ handle.repr ++ " (" ++ live.repr ++ " live)"
  | .indexBuilt rows distinct =>
      "Built membership index over " ++ rows.repr ++ " rows (" ++ distinct.repr ++ " distinct)"
  | .rowsSorted ordered rows => "Sorted " ++ ordered.repr ++ " of " ++ rows.repr ++ " rows"
  | .finalized before after =>
      "Finalized result: " ++ before.repr ++ " input rows, " ++ after.repr ++ " output rows"
  | .thresholdReached threshold =>
      "Result exceeds the in-memory threshold of " ++ threshold.toNat.repr ++ " rows"
  | .programmingError => ""

/-- The event that goes with a fault. -/
def ofFault? (fault : Fault) : Option Event :=
  match fault with
  | .overThreshold threshold => some (.thresholdReached threshold)
  | _ =>
      match fault.category with
      | .assertion | .unreachable => some .programmingError
      | _ => none

end Event

end QueryResult
