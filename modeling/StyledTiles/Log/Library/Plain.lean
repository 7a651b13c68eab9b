import StyledTiles.Log.Library.Record

/-!
# Plain events

An event that is put through no steps is not made into an object. Its members are passed on as they are,
to a call that takes a text under the name `msg` and writes it. Beside it that call takes a few options
and nothing else, so that even the message of an event is refused; but a call whose level the console
does not show looks at none of them.

What the options add to a text is a line of its own. Which lines of a program are running is not known
here, so of a listing of them only the heading is given.
-/
namespace StyledTiles.Log.Plain

/-- What a plain call by a method takes. -/
def signature (method : LogMethod) : Signature :=
  { callee := "Logger." ++ method.name, required := ["msg"], takesMore := true, takesNames := true }

/-- What is taken where a text is written. -/
def writing : Signature :=
  { callee := "Logger._log"
    required := ["level", "msg", "args"]
    optional := ["exc_info", "extra", "stack_info", "stacklevel"] }

/-- The options of a call; a method for exceptions asks for one unless it is told not to. -/
def optionsFor (method : LogMethod) (options : Json.Members) : Json.Members :=
  if method.name = "exception" && !Json.hasMember options "exc_info" then
    options ++ [("exc_info", .bool true)]
  else options

/-- What is written of an exception where there is none. -/
def noException : String := "NoneType: None"

/-- The lines that the options ask for. -/
def addedLines (passed : Passed) : List String :=
  let asked (name line : String) := if (passed.value name).isVoid then [] else [line]
  asked "exc_info" noException ++ asked "stack_info" "Stack (most recent call last):"

/-- The text that a console shows of members that are passed on by a logger, which may find the origin
of a call by counting down. -/
def text? (c : Console) (countsDown : Bool) (method : LogMethod) (members : Json.Members) :
    Except LogError (Option String) := do
  let passed ← (signature method).pass [] members
  let message := passed.value "msg"
  if !c.shows method.level then return none
  else
    let passed ← writing.pass [.int method.level.weight, message, .arr passed.more]
      (optionsFor method passed.names)
    Record.checkDepth countsDown (passed.parameters.lookup "stacklevel")
    Record.checkExtra (passed.value "extra")
    return some ("\n".intercalate (message.display :: addedLines passed))

end StyledTiles.Log.Plain
