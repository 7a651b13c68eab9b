import StyledTiles.Json.Printer

/-!
# Log events

What a run reports is data: a level, a message and named fields. The operations return their events in
the order in which they happen; whether and how an event is shown is not decided here.
-/
namespace StyledTiles

inductive LogLevel where
  | debug
  | info
  | warning
  | error
  | critical
deriving DecidableEq, Repr

namespace LogLevel

def all : List LogLevel := [.debug, .info, .warning, .error, .critical]

def name : LogLevel → String
  | .debug => "debug"
  | .info => "info"
  | .warning => "warning"
  | .error => "error"
  | .critical => "critical"

/-- The weight that a threshold compares. -/
def weight : LogLevel → Nat
  | .debug => 10
  | .info => 20
  | .warning => 30
  | .error => 40
  | .critical => 50

end LogLevel

/-- A way to log an event, with a name of its own. -/
structure LogMethod where
  name : String
  level : LogLevel
deriving DecidableEq, Repr

structure LogEvent where
  level : LogLevel
  message : String
  fields : Json.Members
deriving Repr

end StyledTiles
