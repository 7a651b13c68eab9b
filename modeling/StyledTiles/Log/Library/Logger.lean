import StyledTiles.Log.Library.Part
import StyledTiles.Log.Library.Plain

/-!
# Loggers

A logger adds its name and what is bound to it to the events, and gives each event to a console as one
object. An object holds what is bound, over it the event's own fields, and over both the message, the
logger's name and the level.

Some names mean something else than a member of the object.

* Of what is bound, `Logger.settingNames` set the logger up and are never shown.
* Of an event's fields, the names of what is passed with every event are refused.
* `positional_args` holds the arguments for the message's directives, `_record` a record with the name
  that is to be shown; `exc_info`, `stack_info` and `timestamp` ask for something besides the object or are
  stated by whoever writes it.

A call uses a part of a logger by its name. `Logger.perform` checks in this order: the names that set the
logger up, the part, what is passed to it, the steps that an event is put through, and last, for an event
that is shown, what its members mean. Calls that set how a logger works count for all calls after them.
-/
namespace StyledTiles

structure Logger where
  name : String
  bound : Json.Members
deriving Repr

/-- What calls set of a logger: a level of its own, and what takes its events besides the console. -/
structure LoggerState where
  level : Option Json := none
  handlers : List Json := []
deriving Repr

namespace Logger

/-! ## Names -/

/-- The logger above all others, which also stands in for one without a name. -/
def rootName : String := "root"

def shownName (l : Logger) : String := if l.name = "" then rootName else l.name

def isRoot (l : Logger) : Bool := l.shownName = rootName

/-- Loggers that are there before any is asked for, beside the one above all others. -/
def earlyNames : List String := ["asyncio", "concurrent.futures"]

/-- Whether the origin of a call is found by counting down, as loggers do that were there before any was
asked for. -/
def countsDown (l : Logger) : Bool := l.isRoot || earlyNames.contains l.name

/-- The name of the kind of the logger that is wrapped. -/
def wrappedKind (l : Logger) : String :=
  if l.isRoot then "RootLogger" else if l.countsDown then "Logger" else "_FixedFindCallerLogger"

/-- The name of the kind of the logger above, which the one above all others has not. A dot in a name
stands below each logger with what is before it as its name. -/
def parentKind (l : Logger) : String :=
  if l.isRoot then "NoneType"
  else if earlyNames.any fun early => (early ++ ".").toList.isPrefixOf l.name.toList then "Logger"
  else "RootLogger"

/-! ## Setting up -/

/-- Bound names that set a logger up: what holds its members, what wraps it, the steps that events are
put through, and whether it is made once. -/
def settingNames : List String :=
  ["context_class", "wrapper_class", "processors", "cache_logger_on_first_use"]

/-- A logger is made with its name and its arguments, which are not to be bound. -/
def checkBound (l : Logger) : Except LogError Unit :=
  if Json.hasMember l.bound "logger_factory_args" then
    .error (.givenTwiceByName "structlog._config.wrap_logger" "logger_factory_args")
  else if Json.hasMember l.bound "logger" then .error (.call "wrap_logger" (.givenTwice "logger"))
  else .ok ()

/-- What holds the members and what wraps the logger are called when the logger is first used, and
nothing that is bound can be. -/
def checkWrapping (l : Logger) : Except LogError Unit := do
  let called (name : String) : Except LogError Unit :=
    let value := Json.member l.bound name
    if value.isVoid then .ok () else .error (.notCallable value.kindName)
  called "context_class"
  called "wrapper_class"

/-- What is bound and shown. -/
def context (l : Logger) : Json.Members := l.bound.filter fun (name, _) => !settingNames.contains name

/-- The kinds of what a logger is made by. -/
def makerKinds (l : Logger) : List (String × String) := [
  ("_logger", "NoneType"), ("_context", "dict"), ("_initial_values", "dict"),
  ("_logger_factory_args", "tuple")] ++
  settingNames.map fun name => ("_" ++ name, (Json.member l.bound name).kindName)

/-- The kinds of the values that a logger has when it is used. -/
def valueKinds (l : Logger) (s : LoggerState) : List (String × String) := [
  ("name", "str"), ("level", (s.level.getD (.int 0)).kindName), ("propagate", "bool"),
  ("disabled", "bool"), ("handlers", "list"), ("parent", l.parentKind)]

/-! ## Members -/

def merge (below above : Json.Members) : Json.Members :=
  above.foldl (fun ms (key, value) => Json.setMember key value ms) below

/-- The members of an event before any step: what is bound, the fields, and the message. A null message
leaves what is bound in its place. -/
def members (l : Logger) (fields : Json.Members) (message : Json) : Json.Members :=
  merge (merge l.context fields) (if message.isNull then [] else [("event", message)])

/-- The fields of an event with its arguments among them. -/
def withArguments (arguments : List Json) (fields : Json.Members) : Json.Members :=
  if arguments.isEmpty then fields else Json.setMember "positional_args" (.arr arguments) fields

/-! ## Steps -/

/-- The first of what a value holds, if it holds anything; no number and no truth value can. -/
def firstStep? : Json → Except LogError (Option Json)
  | .arr items => .ok items.head?
  | .str s => .ok (if s.isEmpty then none else some (.str s))
  | .obj members => .ok (members.head?.map fun (key, _) => .str key)
  | value => .error (.notIterable value.kindName)

/-- Arguments with the name of their kind. -/
structure NamedArguments where
  kind : String
  arguments : Template.Arguments

def argumentsOfValue (value : Json) : NamedArguments := ⟨value.kindName, .ofValue value⟩

/-- The arguments of a call. One object stands for its members. -/
def argumentsOfList : List Json → NamedArguments
  | [.obj (m :: ms)] => argumentsOfValue (.obj (m :: ms))
  | values => ⟨"tuple", .ofList values⟩

/-- The arguments that a member holds, if it holds any. Whatever has one item is asked for its first,
which an object does not have; where that item is an object, it stands for its members. -/
def argumentsIn (value : Json) : Except LogError (Option NamedArguments) :=
  if value.isVoid then .ok none
  else
    match value with
    | .obj [_] => .error .noFirstArgument
    | .arr [.obj (m :: ms)] => .ok (some (argumentsOfValue (.obj (m :: ms))))
    | .null | .bool _ | .num _ => .error (.noLength value.kindName)
    | value => .ok (some (argumentsOfValue value))

/-- Fills arguments in a message, which has to be a template. -/
def fillMessage (arguments : NamedArguments) : Json → Except LogError Json
  | .str template => ((Template.fill template arguments.arguments).map .str).mapError .template
  | value => .error (.notATemplate value.kindName arguments.kind)

/-- The message among the members, with the arguments that are passed, or else those that a member
holds, filled in. -/
def filled (passed : List Json) (members : Json.Members) : Except LogError (Option Json) := do
  let arguments ←
    if passed.isEmpty then argumentsIn (Json.member members "positional_args")
    else .ok (some (argumentsOfList passed))
  match arguments, members.lookup "event" with
  | none, message => return message
  | some _, none => .error .noEvent
  | some arguments, some message => return some (← fillMessage arguments message)

/-- The methods that a name stands for where an event is put through the steps; one of them has a level
that nothing is shown at. -/
def namedMethods : List (String × Option LogMethod) := [
  ("critical", some ⟨"critical", .critical⟩), ("exception", some ⟨"exception", .error⟩),
  ("error", some ⟨"error", .error⟩), ("warn", some ⟨"warn", .warning⟩),
  ("warning", some ⟨"warning", .warning⟩), ("info", some ⟨"info", .info⟩),
  ("debug", some ⟨"debug", .debug⟩), ("notset", none)]

/-- The method by which an event is put through the steps. -/
def steppedMethod (name : Json) : Except LogError (Option LogMethod) :=
  match name.str?.bind fun s => namedMethods.lookup s with
  | some method => .ok method
  | none => .error (.ofLookup name)

/-- What a step makes of the members of an event; nothing if the event is not to be shown. Arguments are
left among the members only where they are null. Which time it is and what is running is not known here, so
what asks for it only goes. -/
def step (l : Logger) (c : Console) (name : Json) (arguments : List Json) (members : Json.Members) :
    LogStep → Except LogError (Option Json.Members)
  | .filterByLevel => do
    let method ← steppedMethod name
    return if method.any fun m => c.shows m.level then some members else none
  | .addLoggerName =>
    let record := Json.member members "_record"
    if record.isNull then .ok (some (Json.setMember "logger" (.str l.shownName) members))
    else .error (.noAttribute record.kindName "name")
  | .addLevel => do
    let method ← steppedMethod name
    return some (merge members (method.toList.map fun m => ("level", .str m.level.name)))
  | .fillArguments => do
    let message ← filled arguments members
    let others := members.filter fun (key, value) => key != "positional_args" || value.isNull
    return some (merge others (message.toList.map fun m => ("event", m)))
  | .stampTime => .ok (some (members.filter fun (key, _) => key != "timestamp"))
  | .renderStack => .ok (some (members.filter fun (key, _) => key != "stack_info"))
  | .renderException => .ok (some (members.filter fun (key, _) => key != "exc_info"))
  | .decodeTexts | .renderObject => .ok (some members)

/-- Puts the members of an event through steps. -/
def putThrough (l : Logger) (c : Console) (name : Json) (arguments : List Json) :
    List LogStep → Json.Members → Except LogError (Option Json.Members)
  | [], members => .ok (some members)
  | step :: rest, members => do
    match ← l.step c name arguments members step with
    | none => return none
    | some members => l.putThrough c name arguments rest members

/-! ## Events -/

/-- The console at the logger's own level. A level of zero is that of the logger above, if there is one. -/
def consoleOf (l : Logger) (c : Console) (s : LoggerState) : Console :=
  match s.level with
  | none => c
  | some level =>
    match Console.thresholdOf level with
    | .ok n => if n = 0 && !l.isRoot then c else { c with threshold := n }
    | .error _ => c

/-- The method by which the logger that is wrapped writes a plain event. It has one more than the steps
know. -/
def plainMethod (l : Logger) (name : Json) : Except LogError LogMethod :=
  match name with
  | .str "fatal" => .ok ⟨"fatal", .critical⟩
  | .str s =>
    match namedMethods.lookup s with
    | some (some method) => .ok method
    | _ => .error (.noAttribute l.wrappedKind s)
  | name => .error (.notAName name.kindName)

/-- An event whose steps have been looked for: put through them, or left plain. -/
inductive Stepped where
  | object (shown : Option Json.Members)
  | plain (members : Json.Members)

/-- Puts an event through the steps. Nothing that can be bound is a step, so bound steps fail at the first
one. -/
def stepped (l : Logger) (c : Console) (name : Json) (message : Json) (arguments : List Json)
    (fields : Json.Members) : Except LogError Stepped := do
  let members := l.members (withArguments arguments fields) message
  let steps := Json.member l.bound "processors"
  if steps.isNull then return .object (← l.putThrough c name arguments c.steps members)
  else
    match ← firstStep? steps with
    | some step => .error (.notCallable step.kindName)
    | none => return .plain members

/-- What is written of an object. A method for exceptions asks for one where the object is written, too. -/
def writtenObject (name : Json) (shown : Json.Members) : List LogOutput :=
  .object shown :: if name.str? = some "exception" then [.text Log.Plain.noException] else []

/-- What is written is handed to what takes the logger's events: nothing that is added there can. -/
def handOn (s : LoggerState) (written : List LogOutput) : Except LogError (List LogOutput) :=
  match s.handlers with
  | [] => .ok written
  | handler :: _ =>
    if written.isEmpty then .ok [] else .error (.noAttribute handler.kindName "level")

/-- What is shown of an event that is logged by the method with a name. -/
def logged (l : Logger) (c : Console) (s : LoggerState) (name : Json) (message : Json)
    (arguments : List Json) (fields : Json.Members) : Except LogError (List LogOutput) := do
  let c := l.consoleOf c s
  match ← l.stepped c name message arguments fields with
  | .object none => return []
  | .object (some shown) => handOn s (writtenObject name shown)
  | .plain members =>
    let method ← l.plainMethod name
    let text ← Log.Plain.text? c l.countsDown method members
    handOn s (text.toList.map .text)

/-! ## Parts -/

/-- The fields of an event that is logged by a method. An exception is asked for by its method. -/
def fieldsFor (method : LogMethod) (fields : Json.Members) : Json.Members :=
  if method.name = "exception" && !Json.hasMember fields "exc_info" then
    fields ++ [("exc_info", .bool true)]
  else fields

/-- The name of the method that logs at a level, which is given by its weight. -/
def nameAt (weight : Json) : Except LogError String :=
  let level? := match weight with
    | .num n => LogLevel.all.find? fun (level : LogLevel) => n.same (.int level.weight)
    | _ => none
  match level? with
  | some level => .ok level.name
  | none => .error (.ofLookup weight)

/-- What is bound without the given names, each of which has to be bound if the call is strict. A value
that holds others is no key; where nothing is bound, a call that is not strict looks for no key. -/
def unbound (isStrict : Bool) : Json.Members → List Json → Except LogError Json.Members
  | context, [] => .ok context
  | context, .str name :: names =>
    if isStrict && !Json.hasMember context name then .error (.noKey (.str name))
    else unbound isStrict (context.filter fun (other, _) => other != name) names
  | context, value :: names =>
    if !isStrict && (context.isEmpty || value.isAtom) then unbound isStrict context names
    else .error (.ofLookup value)

/-- Checks a level that is compared with that of a logger. -/
def checkWeight (value : Json) : Except LogError Unit :=
  if !value.isAtom then .error (.notAKey value.kindName)
  else if value.amount?.isNone then .error (.notAtMost value.kindName)
  else .ok ()

/-- Checks what is put behind a logger's name for a logger below it. -/
def checkSuffix (l : Logger) : Json → Except LogError Unit
  | .str _ => .ok ()
  | value => .error (if l.isRoot then .namelessLogger else .notJoined value.kindName)

/-- Checks a record that is to be made. -/
def checkRecord (passed : Passed) : Except LogError Unit := do
  Log.Record.checkArguments (passed.value "args")
  Log.Record.checkLevel (passed.value "level")
  Log.Record.checkExtra (passed.value "extra")

/-- Checks an event that is put through the steps for nothing; it fails if the steps end without it. -/
def rehearse (l : Logger) (c : Console) (passed : Passed) : Except LogError Unit :=
  match passed.value "event_kw" with
  | .obj fields => do
    match ← l.stepped c (passed.value "method_name") (passed.value "event") [] fields with
    | .object none => .error .dropped
    | _ => .ok ()
  | value => .error (.notMembers value.kindName)

/-- Uses a part of a logger that shows nothing: the state after it. -/
def use (l : Logger) (c : Console) (s : LoggerState) (part : LoggerPart) (passed : Passed) :
    Except LogError LoggerState := do
  match part with
  | .setLevel =>
    let level := passed.value "level"
    let threshold ← (Console.thresholdOf level).mapError .threshold
    return { s with level := some (if level.isAtom && level.str?.isNone then level else .int threshold) }
  | .attach =>
    let handler := passed.value "hdlr"
    return if s.handlers.any handler.same then s
      else { s with handlers := s.handlers ++ [handler] }
  | .detach => return { s with handlers := s.handlers.eraseP (passed.value "hdlr").same }
  | .isEnabled => checkWeight (passed.value "level")
  | .child => l.checkSuffix (passed.value "suffix")
  | .origin => Log.Record.checkDepth l.countsDown (passed.parameters.lookup "stacklevel")
  | .record => checkRecord passed
  | .handling => .error (.noAttribute (passed.value "record").kindName "levelno")
  | .rehearsal => l.rehearse (l.consoleOf c s) passed
  | .unbinding isStrict =>
    l.checkWrapping
    let _ ← unbound isStrict l.context passed.more
  | _ => pure ()
  return s

/-- Logs an event by a method: its name is passed on before the message. -/
def pass (l : Logger) (c : Console) (s : LoggerState) (name : Json) (passed : Passed)
    (fields : Json.Members) : Except LogError (List LogOutput) := do
  let inner ← LoggerPart.byNameSignature.pass (name :: passed.value "event" :: passed.more) fields
  l.logged c s name (inner.value "event") inner.more inner.names

/-- Performs a call: what the logger is after it, and what a console shows of it. -/
def perform (l : Logger) (c : Console) (s : LoggerState) (call : LogCall) :
    Except LogError (LoggerState × List LogOutput) := do
  l.checkBound
  match l.makerKinds.lookup call.name, LoggerPart.ofName? call.name with
  | some kind, _ => .error (.notCallable kind)
  | none, some (part, signature) =>
    if !part.isOfMaker then l.checkWrapping
    let passed ← signature.pass (call.message :: call.arguments) call.fields
    match part with
    | .method m => return (s, ← l.pass c s (.str m.name) passed (fieldsFor m passed.names))
    | .atLevel =>
      return (s, ← l.pass c s (.str (← nameAt (passed.value "level"))) passed passed.names)
    | .byName =>
      return (s, ← l.logged c s (passed.value "method_name") (passed.value "event") passed.more
        passed.names)
    | part => return (← l.use c s part passed, [])
  | none, none =>
    l.checkWrapping
    match (l.valueKinds s).lookup call.name with
    | some kind => .error (.notCallable kind)
    | none => .error (.noMethod call.name)

/-- Performs calls one after the other. -/
def performAll (l : Logger) (c : Console) (s : LoggerState) :
    List LogCall → Except LogError (List LogOutput)
  | [] => .ok []
  | call :: rest => do
    let (s, shown) ← l.perform c s call
    return shown ++ (← l.performAll c s rest)

end Logger

end StyledTiles
