import StyledTiles.Log.Library.Signature
import StyledTiles.Log.Event

/-!
# The parts of a logger

What a logger has under a name: the ways to log an event, what makes other loggers, what sets and tells how
it works, and values. Each part but a value has a signature.
-/
namespace StyledTiles

inductive LoggerPart where
  /-- Logs an event. -/
  | method (m : LogMethod)
  /-- Logs an event at a level that is passed before the message. -/
  | atLevel
  /-- Logs an event by a method whose name is passed before the message. -/
  | byName
  /-- Puts an event through the steps and shows nothing. -/
  | rehearsal
  /-- Promises to log an event. A promise that nobody waits for shows nothing. -/
  | promise
  /-- Makes a logger with more bound to it, or with other things. -/
  | binding
  /-- Makes a logger with less bound to it; what is to go has to be bound if it is strict. -/
  | unbinding (isStrict : Bool)
  | setLevel
  | isEnabled
  | child
  | origin
  | record
  /-- Hands a record on. -/
  | handling
  | attach
  | detach
  /-- Tells something about the logger. -/
  | inquiry
deriving DecidableEq, Repr

namespace LoggerPart

def namesOfRecord : List String := ["name", "level", "fn", "lno", "msg", "args", "exc_info"]

/-- The parts that take parameters by position or name and nothing else: the required ones and the
optional ones. -/
def simpleParts : List (String × LoggerPart × List String × List String) := [
  ("setLevel", .setLevel, ["level"], []),
  ("isEnabledFor", .isEnabled, ["level"], []), ("is_enabled_for", .isEnabled, ["level"], []),
  ("getEffectiveLevel", .inquiry, [], []), ("get_effective_level", .inquiry, [], []),
  ("hasHandlers", .inquiry, [], []), ("getChild", .child, ["suffix"], []),
  ("findCaller", .origin, [], ["stack_info", "stacklevel"]),
  ("makeRecord", .record, namesOfRecord, ["func", "extra"]),
  ("handle", .handling, ["record"], []), ("callHandlers", .handling, ["record"], []),
  ("addHandler", .attach, ["hdlr"], []), ("removeHandler", .detach, ["hdlr"], []),
  ("_dispatch_to_sync", .promise, ["meth", "event", "args", "kw"], [])]

/-- The parts that take a message after what is required, and arguments and fields: what they are, the
name that they have in a message about them, what is required, and whether the message is too. -/
def eventParts : List (String × LoggerPart × String × List String × Bool) := [
  ("debug", .method ⟨"debug", .debug⟩, "debug", [], false),
  ("info", .method ⟨"info", .info⟩, "info", [], false),
  ("warning", .method ⟨"warning", .warning⟩, "warning", [], false),
  ("warn", .method ⟨"warning", .warning⟩, "warning", [], false),
  ("error", .method ⟨"error", .error⟩, "error", [], false),
  ("critical", .method ⟨"critical", .critical⟩, "critical", [], false),
  ("fatal", .method ⟨"critical", .critical⟩, "fatal", [], false),
  ("exception", .method ⟨"exception", .error⟩, "exception", [], false),
  ("log", .atLevel, "log", ["level"], false),
  ("_proxy_to_logger", .byName, "_proxy_to_logger", ["method_name"], false),
  ("adebug", .promise, "adebug", [], true), ("ainfo", .promise, "ainfo", [], true),
  ("awarning", .promise, "awarning", [], true), ("aerror", .promise, "aerror", [], true),
  ("acritical", .promise, "acritical", [], true), ("afatal", .promise, "afatal", [], true),
  ("aexception", .promise, "aexception", [], true), ("alog", .promise, "alog", ["level"], true)]

/-- The parts of what a logger is made by. -/
def makerParts : List (String × LoggerPart) := [
  ("bind", .binding), ("new", .binding), ("unbind", .unbinding true),
  ("try_unbind", .unbinding false)]

/-- The name of the message among the parameters. -/
def messageName : String := "event"

def makerSignature (part : LoggerPart) (name : String) : Signature :=
  { callee := "BoundLoggerLazyProxy." ++ name
    takesMore := part != .binding
    takesNames := part == .binding }

def simpleSignature (name : String) (required optional : List String) : Signature :=
  { callee := "BoundLogger." ++ name, required, optional }

def eventSignature (name : String) (required : List String) (needsMessage : Bool) : Signature :=
  { callee := "BoundLogger." ++ name
    required := required ++ (if needsMessage then [messageName] else [])
    optional := if needsMessage then [] else [messageName]
    takesMore := true
    takesNames := true }

/-- What takes the event of each method. -/
def byNameSignature : Signature := eventSignature "_proxy_to_logger" ["method_name"] false

def rehearsalSignature : Signature :=
  { callee := "BoundLoggerBase._process_event", required := ["method_name", "event", "event_kw"] }

/-- The part with a name, and its signature. -/
def ofName? (name : String) : Option (LoggerPart × Signature) :=
  match eventParts.lookup name, simpleParts.lookup name, makerParts.lookup name with
  | some (part, shown, required, needsMessage), _, _ =>
    some (part, eventSignature shown required needsMessage)
  | none, some (part, required, optional), _ => some (part, simpleSignature name required optional)
  | none, none, some part => some (part, makerSignature part name)
  | none, none, none =>
    if name = "_process_event" then some (.rehearsal, rehearsalSignature) else none

/-- Whether the part belongs to what the logger is made by, and not to what it is wrapped in. -/
def isOfMaker : LoggerPart → Bool
  | .binding | .unbinding _ => true
  | _ => false

end LoggerPart

end StyledTiles
