import StyledTiles.Number.Basic

/-!
# JSON values

A value as a style or a tile holds it. Integers stay exact and apart from binary64 numbers. The members
of an object keep the order in which their keys first appear; a reader leaves one member for a key.
-/
namespace StyledTiles

inductive Json where
  | null
  | bool (b : Bool)
  | num (n : Number)
  | str (s : String)
  | arr (items : List Json)
  | obj (members : List (String × Json))
deriving Repr, Inhabited

namespace Json

abbrev Members := List (String × Json)

def int (n : Int) : Json := .num (.int n)

def real (x : Binary64) : Json := .num (.real x)

/-- The member with the given key; a missing one is null. -/
def member (ms : Members) (key : String) : Json := (ms.lookup key).getD .null

def hasMember (ms : Members) (key : String) : Bool := (ms.lookup key).isSome

/-- Sets a member: at its place if the key is there, else at the end. -/
def setMember (key : String) (value : Json) : Members → Members
  | [] => [(key, value)]
  | (k, v) :: rest => if k = key then (k, value) :: rest else (k, v) :: setMember key value rest

def str? : Json → Option String
  | .str s => some s
  | _ => none

/-- The nearest binary64 number of a finite number; nothing for any other value. -/
def finite : Json → Except OutOfRange (Option Binary64)
  | .num n => n.toFinite
  | _ => .ok none

def isNull : Json → Bool
  | .null => true
  | _ => false

/-- Whether a value is of a kind that holds no other values. -/
def isAtom : Json → Bool
  | .arr _ | .obj _ => false
  | _ => true

/-- Null, false, zero, and an empty text, array or object. -/
def isVoid : Json → Bool
  | .null => true
  | .bool b => !b
  | .num (.int n) => n = 0
  | .num (.real x) => x == .zero false || x == .zero true
  | .str s => s.isEmpty
  | .arr items => items.isEmpty
  | .obj members => members.isEmpty

end Json

end StyledTiles
