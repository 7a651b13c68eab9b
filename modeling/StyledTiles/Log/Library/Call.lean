import StyledTiles.Log.Library.Console
import StyledTiles.Log.Library.Signature
import StyledTiles.Log.Library.Template

/-!
# Log calls

A call names what of a logger it uses and passes a message, arguments and fields. It may fail in many
ways, which are told apart here; what a console shows of a call that does not fail is an object, or a
text where no step makes an object of it.
-/
namespace StyledTiles

/-- Why a call fails. -/
inductive LogError where
  | call (callee : String) (fault : CallFault)
  /-- A name is passed beside the same one among the members that are passed. -/
  | givenTwiceByName (callee name : String)
  | noMethod (name : String)
  | notCallable (kind : String)
  | notIterable (kind : String)
  | noAttribute (kind name : String)
  | notAName (kind : String)
  | notMembers (kind : String)
  | noLength (kind : String)
  | noKey (key : Json)
  | notAKey (kind : String)
  | notAnIndex (kind indexKind : String)
  | noPlace
  | notSubtractable (kind : String)
  | notAbove (kind : String)
  | notAtMost (kind : String)
  | notWhole (kind : String)
  | overwrites (key : Json)
  | noFirstArgument
  | noEvent
  | notATemplate (kind argumentsKind : String)
  | template (e : TemplateError)
  | threshold (e : ThresholdError)
  | notJoined (kind : String)
  | namelessLogger
  /-- The steps end without an event. -/
  | dropped
deriving Repr

namespace LogError

def message : LogError → String
  | .call callee fault => fault.message callee
  | .givenTwiceByName callee name =>
    callee ++ "() got multiple values for keyword argument " ++ Text.enclose name
  | .noMethod name => "'BoundLogger' object has no attribute " ++ Text.enclose name
  | .notCallable kind => Text.enclose kind ++ " object is not callable"
  | .notIterable kind => Text.enclose kind ++ " object is not iterable"
  | .noAttribute kind name => Text.enclose kind ++ " object has no attribute " ++ Text.enclose name
  | .notAName kind => "attribute name must be string, not " ++ Text.enclose kind
  | .notMembers kind => "dict.update() argument after ** must be a mapping, not " ++ kind
  | .noLength kind => "object of type " ++ Text.enclose kind ++ " has no len()"
  | .noKey key => key.quoted
  | .notAKey kind => "unhashable type: " ++ Text.enclose kind
  | .notAnIndex "str" indexKind =>
    "string indices must be integers, not " ++ Text.enclose indexKind
  | .notAnIndex kind indexKind =>
    kind ++ " indices must be integers or slices, not " ++ indexKind
  | .noPlace => "list index out of range"
  | .notSubtractable kind =>
    "unsupported operand type(s) for -: " ++ Text.enclose kind ++ " and 'int'"
  | .notAbove kind =>
    "'>' not supported between instances of " ++ Text.enclose kind ++ " and 'int'"
  | .notAtMost kind =>
    "'>=' not supported between instances of 'int' and " ++ Text.enclose kind
  | .notWhole kind => Text.enclose kind ++ " object cannot be interpreted as an integer"
  | .overwrites key => Text.quote ("Attempt to overwrite " ++ key.quoted ++ " in LogRecord")
  | .noFirstArgument => "0"
  | .noEvent => "'event'"
  | .notATemplate kind argumentsKind =>
    "unsupported operand type(s) for %=: " ++ Text.enclose kind ++ " and "
      ++ Text.enclose argumentsKind
  | .template e => e.message
  | .threshold e => e.message
  | .notJoined kind => "sequence item 1: expected str instance, " ++ kind ++ " found"
  | .namelessLogger => "A logger name must be a string"
  | .dropped => ""

/-- The failure to find a value as a key; what holds other values cannot be one. -/
def ofLookup (key : Json) : LogError :=
  if key.isAtom then .noKey key else .notAKey key.kindName

end LogError

/-- Sorts what is passed to a call. -/
def Signature.pass (s : Signature) (positional : List Json) (named : Json.Members) :
    Except LogError Passed :=
  (s.pass? positional named).mapError (.call s.callee)

/-- A call that uses what a logger has under a name. If there are arguments, a message that is logged has
to be a template for them. -/
structure LogCall where
  name : String
  message : Json
  arguments : List Json := []
  fields : Json.Members := []
deriving Repr

/-- What a console shows of an event. -/
inductive LogOutput where
  | object (members : Json.Members)
  | text (s : String)
deriving Repr

end StyledTiles
