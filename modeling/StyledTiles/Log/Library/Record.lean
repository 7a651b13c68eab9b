import StyledTiles.Log.Library.Call

/-!
# Log records

A record of a call says where the call came from and holds what is added to it. Nothing of a record is
shown here but the text that it is made for, so of making one only the checks are left.
-/
namespace StyledTiles.Log.Record

/-- The names that every record has. -/
def names : List String := [
  "args", "asctime", "created", "exc_info", "exc_text", "filename", "funcName", "levelname", "levelno",
  "lineno", "message", "module", "msecs", "msg", "name", "pathname", "process", "processName",
  "relativeCreated", "stack_info", "thread", "threadName"]

/-- Checks how far above a call its origin is looked for. Some loggers count down to it; any other one
subtracts from the distance, unless it is void, and then takes as many steps. -/
def checkDepth (countsDown : Bool) : Option Json → Except LogError Unit
  | none | some (.bool _) => .ok ()
  | some (.num (.int _)) => .ok ()
  | some (.num x) =>
    if !countsDown && (Number.int 1).lt x then .error (.notWhole (Json.num x).kindName) else .ok ()
  | some value =>
    if countsDown then .error (.notAbove value.kindName)
    else if value.isVoid then .ok ()
    else .error (.notSubtractable value.kindName)

/-- Checks the items of an array of a size, each of which is a new key for an item of the array: only
places in it can be, and each only once. -/
def checkPlaces (size : Nat) (taken : List Json) : List Json → Except LogError Unit
  | [] => .ok ()
  | key :: rest =>
    if !key.isAtom then .error (.notAKey key.kindName)
    else if taken.any key.same then .error (.overwrites key)
    else
      match key with
      | .num (.int n) =>
        if -size ≤ n ∧ n < size then checkPlaces size (key :: taken) rest else .error .noPlace
      | .bool b => if b.toNat < size then checkPlaces size (key :: taken) rest else .error .noPlace
      | key => .error (.notAnIndex "list" key.kindName)

/-- Checks what is added to a record, which is to be an object of new keys. -/
def checkExtra : Json → Except LogError Unit
  | .null | .str "" => .ok ()
  | .obj members =>
    match members.find? fun (name, _) => names.contains name with
    | some (name, _) => .error (.overwrites (.str name))
    | none => .ok ()
  | .arr items => checkPlaces items.length (names.map .str) items
  | .str _ => .error (.notAnIndex "str" "str")
  | value => .error (.notIterable value.kindName)

/-- Checks the arguments of a record. Whatever has one item is asked for its first, which an object does
not have. -/
def checkArguments (value : Json) : Except LogError Unit :=
  if value.isVoid then .ok ()
  else
    match value with
    | .obj [_] => .error .noFirstArgument
    | .null | .bool _ | .num _ => .error (.noLength value.kindName)
    | _ => .ok ()

/-- Checks a level, whose name is looked up. -/
def checkLevel (value : Json) : Except LogError Unit :=
  if value.isAtom then .ok () else .error (.notAKey value.kindName)

end StyledTiles.Log.Record
